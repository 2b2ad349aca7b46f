import Ahci.Proofs.PortHistories

/-!
What the driver does over two kinds of device. A step is put together from accesses to one register
window, memory, the allocator and the log, and never looks at what kind of device answers.
`HostM.Counterparts` holds of two steps that are put together the same, and so of the start of a
port, of every call on it and of its end, each with itself over another device. What is kept by
every rule of it needs no further look at what the driver does.
-/

namespace Ahci

variable {σ τ α β : Type} [Device σ] [Device τ]

namespace HostM

/-- Steps over two kinds of device that are put together the same, at one window. There is a rule
for each thing that a step can do on its own, and one for sequence; no rule asks for another window,
and none looks at the device but through its registers. -/
inductive Counterparts (window : Window) : {α : Type} → HostM σ α → HostM τ α → Prop where
  | pure {α : Type} (a : α) : Counterparts window (pure a) (pure a)
  | halt {α : Type} (reason : Halt) :
      Counterparts window (halt reason : HostM σ α) (halt reason)
  | patience : Counterparts window patience patience
  | note (severity : Severity) (text : String) :
      Counterparts window (note severity text) (note severity text)
  | changeMemory (f : Memory → Memory) :
      Counterparts window (changeMemory f) (changeMemory f)
  | inspectMemory {α : Type} (f : Memory → α) :
      Counterparts window (inspectMemory f) (inspectMemory f)
  | allocate (frames : Nat) : Counterparts window (allocate frames) (allocate frames)
  | release (region : Region) : Counterparts window (release region) (release region)
  | readRegister (offset : Nat) :
      Counterparts window (readRegister window offset) (readRegister window offset)
  | writeRegister (offset : Nat) (value : UInt32) :
      Counterparts window (writeRegister window offset value) (writeRegister window offset value)
  /-- What comes behind a step may rely on what such a step ends with. -/
  | bindOf {α β : Type} {step : HostM σ α} {twin : HostM τ α} {next : α → HostM σ β}
      {follow : α → HostM τ β} (good : α → Prop) (hfirst : Counterparts window step twin)
      (hends : ∀ world a after, step.exec world = (.ok a, after) → good a)
      (hsecond : ∀ a, good a → Counterparts window (next a) (follow a)) :
      Counterparts window (step >>= next) (twin >>= follow)

namespace Counterparts

variable {window : Window}

theorem bind {step : HostM σ α} {twin : HostM τ α} {next : α → HostM σ β} {follow : α → HostM τ β}
    (hfirst : Counterparts window step twin)
    (hsecond : ∀ a, Counterparts window (next a) (follow a)) :
    Counterparts window (step >>= next) (twin >>= follow) :=
  hfirst.bindOf (fun _ => True) (fun _ _ _ _ => trivial) fun a _ => hsecond a

theorem map {step : HostM σ α} {twin : HostM τ α} (hfirst : Counterparts window step twin)
    (f : α → β) : Counterparts window (f <$> step) (f <$> twin) := by
  rw [map_eq_pure_bind, map_eq_pure_bind]
  exact hfirst.bind fun a => pure (f a)

theorem ite {condition : Prop} [Decidable condition] {step other : HostM σ α}
    {twin further : HostM τ α} (hholds : Counterparts window step twin)
    (hfails : Counterparts window other further) :
    Counterparts window (if condition then step else other)
      (if condition then twin else further) := by
  split
  · exact hholds
  · exact hfails

theorem require (condition : Bool) (reason : Halt) :
    Counterparts (σ := σ) (τ := τ) window (require condition reason) (require condition reason) :=
  ite (pure ()) (halt reason)

/-! Memory of a port. -/

/-- All four regions of a port are allocated alike, and given back alike if one of them is
refused. -/
theorem allocateAreas :
    Counterparts (σ := σ) (τ := τ) window PortAreas.allocate PortAreas.allocate := by
  refine (allocate _).bind fun list => ?_
  cases list with
  | error error => exact pure _
  | ok list =>
    refine (allocate _).bind fun tables => ?_
    cases tables with
    | error error => exact (release _).bind fun _ => pure _
    | ok tables =>
      refine (allocate _).bind fun read => ?_
      cases read with
      | error error => exact (release _).bind fun _ => (release _).bind fun _ => pure _
      | ok read =>
        refine (allocate _).bind fun write => ?_
        cases write with
        | error error =>
          refine (release _).bind fun _ => (release _).bind fun _ => ?_
          exact (release _).bind fun _ => pure _
        | ok write => exact pure _

theorem releaseAreas (areas : PortAreas) :
    Counterparts (σ := σ) (τ := τ) window areas.release areas.release :=
  (release _).bind fun _ => (release _).bind fun _ => (release _).bind fun _ => release _

/-! Handshakes, and a port brought up and taken down. -/

theorem commandBitBecomes (bit : Nat) (value : Bool) (reads : Nat) :
    Counterparts (σ := σ) (τ := τ) window (commandBitBecomes window bit value reads)
      (commandBitBecomes window bit value reads) := by
  induction reads with
  | zero => exact pure _
  | succ reads ih => exact (readRegister _).bind fun _ => ite (pure _) ih

theorem stopEngine (limit : Nat) :
    Counterparts (σ := σ) (τ := τ) window (stopEngine window limit) (stopEngine window limit) := by
  refine (readRegister _).bind fun command => ite (pure _) ?_
  refine (writeRegister _ _).bind fun _ => (commandBitBecomes _ _ limit).bind fun ceased => ?_
  refine ite (pure _) ((readRegister _).bind fun command => (writeRegister _ _).bind fun _ => ?_)
  exact (commandBitBecomes _ _ limit).bind fun deaf => ite (pure _) (pure _)

theorem startEngine (limit : Nat) :
    Counterparts (σ := σ) (τ := τ) window (startEngine window limit)
      (startEngine window limit) := by
  refine (commandBitBecomes _ _ limit).bind fun ceased => ite (pure _) ?_
  refine (readRegister _).bind fun command => (writeRegister _ _).bind fun _ => ?_
  refine (commandBitBecomes _ _ limit).bind fun hearing => ite (pure _) ?_
  exact (readRegister _).bind fun command => (writeRegister _ _).bind fun _ => pure _

theorem attachment :
    Counterparts (σ := σ) (τ := τ) window (attachment window) (attachment window) :=
  (readRegister _).bind fun _ => (readRegister _).bind fun _ => pure _

theorem programPort (areas : PortAreas) :
    Counterparts (σ := σ) (τ := τ) window (programPort window areas)
      (programPort window areas) := by
  have haddress (low high : Nat) (addr : PhysAddr) :
      Counterparts (σ := σ) (τ := τ) window (programAddress window low high addr)
        (programAddress window low high addr) :=
    (writeRegister _ _).bind fun _ => writeRegister _ _
  refine (haddress _ _ _).bind fun _ => (haddress _ _ _).bind fun _ => ?_
  exact (writeRegister _ _).bind fun _ => (writeRegister _ _).bind fun _ => writeRegister _ _

/-- A port is brought up alike over any two devices: what the driver asks for next depends on the
answers to what it asked before, and on nothing else. -/
theorem bringUp (number slots : Nat) (config : Config) :
    Counterparts (σ := σ) (τ := τ) window (bringUp window number slots config)
      (bringUp window number slots config) := by
  refine attachment.bind fun attached => ite (pure _) ?_
  refine (stopEngine _).bind fun stopped => ?_
  cases stopped with
  | error error => exact pure _
  | ok _ =>
    refine allocateAreas.bind fun granted => ?_
    cases granted with
    | error error => exact pure _
    | ok areas =>
      refine (changeMemory _).bind fun _ => (programPort areas).bind fun _ => ?_
      refine (startEngine _).bind fun started => ?_
      cases started with
      | error error => exact (releaseAreas areas).bind fun _ => pure _
      | ok _ => exact (note _ _).bind fun _ => pure _

theorem takeDown (engine : Engine) :
    Counterparts (σ := σ) (τ := τ) engine.window engine.takeDown engine.takeDown := by
  refine (stopEngine _).bind fun stopped => ?_
  cases stopped with
  | error error => exact (note _ _).bind fun _ => releaseAreas _
  | ok _ => exact releaseAreas _

/-! Commands. -/

theorem busySlots :
    Counterparts (σ := σ) (τ := τ) window (busySlots window) (busySlots window) :=
  (readRegister _).bind fun _ => (readRegister _).bind fun _ => pure _

theorem becomesReady (polls : Nat) :
    Counterparts (σ := σ) (τ := τ) window (becomesReady window polls)
      (becomesReady window polls) := by
  induction polls with
  | zero => exact pure _
  | succ polls ih => exact (readRegister _).bind fun _ => ite (pure _) ih

theorem pollOnce (slot : Nat) (packet : Bool) :
    Counterparts (σ := σ) (τ := τ) window (pollOnce window slot packet)
      (pollOnce window slot packet) := by
  have hfailed (status : UInt32) :
      Counterparts (σ := σ) (τ := τ) window (completionError window status packet)
        (completionError window status packet) :=
    (readRegister _).bind fun _ => pure _
  refine (readRegister _).bind fun status => ite ((hfailed status).bind fun _ => pure _) ?_
  refine (readRegister _).bind fun issued => ite (pure _) ?_
  exact (readRegister _).bind fun late => ite ((hfailed late).bind fun _ => pure _) (pure _)

theorem firstConclusive (slot : Nat) (packet : Bool) (polls : Nat) :
    Counterparts (σ := σ) (τ := τ) window (firstConclusive window slot packet polls)
      (firstConclusive window slot packet polls) := by
  induction polls with
  | zero => exact pure _
  | succ polls ih =>
    refine (pollOnce slot packet).bind fun outcome? => ?_
    cases outcome? with
    | none => exact ih
    | some outcome => exact pure _

theorem awaitCompletion (slot : Nat) (limit : Option UInt32) (packet : Bool) :
    Counterparts (σ := σ) (τ := τ) window (awaitCompletion window slot limit packet)
      (awaitCompletion window slot limit packet) := by
  cases limit with
  | some limit =>
    refine (firstConclusive slot packet _).bind fun outcome? => ?_
    cases outcome? <;> exact pure _
  | none =>
    refine patience.bind fun polls => (firstConclusive slot packet _).bind fun outcome? => ?_
    cases outcome? with
    | none => exact halt _
    | some outcome => exact pure _

theorem submit (engine : Engine) (claimed : SlotArena) (slot : Nat) (command : Command) :
    Counterparts (σ := σ) (τ := τ) engine.window (engine.submit claimed slot command)
      (engine.submit claimed slot command) := by
  unfold Engine.submit
  cases engine.scatter command with
  | error error => exact pure _
  | ok entries =>
    refine (changeMemory _).bind fun _ => (writeRegister _ _).bind fun _ => ?_
    refine (becomesReady _).bind fun ready => ite (pure _) ((writeRegister _ _).bind fun _ => ?_)
    exact (awaitCompletion slot _ _).bind fun _ => pure _

theorem recover (engine : Engine) :
    Counterparts (σ := σ) (τ := τ) engine.window engine.recover engine.recover := by
  have hrouse : Counterparts (σ := σ) (τ := τ) engine.window engine.rouse engine.rouse := by
    refine (startEngine _).bind fun started => ?_
    cases started with
    | error error => exact note _ _
    | ok _ => exact pure _
  rw [Engine.recover_eq, Engine.recover_eq]
  refine bind ((stopEngine _).bind fun stopped => ?_) fun _ => hrouse
  cases stopped with
  | error error =>
    refine (note _ _).bind fun _ => (readRegister _).bind fun _ => (note _ _).bind fun _ => ?_
    exact (writeRegister _ _).bind fun _ => writeRegister _ _
  | ok _ =>
    refine (readRegister _).bind fun _ => (note _ _).bind fun _ => ?_
    exact (writeRegister _ _).bind fun _ => writeRegister _ _

end Counterparts

end HostM

open HostM (Counterparts)

/-! Calls. -/

namespace EngineM

theorem counterparts_runCommand (command : Command) (engine : Engine) :
    Counterparts (σ := σ) (τ := τ) engine.window ((runCommand command).run engine)
      ((runCommand command).run engine) := by
  simp only [runCommand, StateT.run_bind, StateT.run_get, run_onHost, pure_bind, bind_map_left]
  refine Counterparts.busySlots.bind fun busy => ?_
  cases engine.slots.claim busy with
  | error shortage =>
    simp only [StateT.run_bind, run_onHost, bind_map_left]
    exact (Counterparts.note _ _).bind fun _ => .pure _
  | ok claimed =>
    simp only [StateT.run_bind, run_onHost, bind_map_left]
    exact (Counterparts.submit _ _ _ _).bind fun _ => .pure _

/-- What comes behind a call finds the engine at the window that the call went through, since no
call moves an engine to another one. -/
theorem Composed.counterparts_bind {step : EngineM σ α} {twin : EngineM τ α} {engine : Engine}
    {next : α × Engine → HostM σ β} {follow : α × Engine → HostM τ β} (hcomposed : step.Composed)
    (hfirst : Counterparts engine.window (step.run engine) (twin.run engine))
    (hsecond : ∀ ended, Counterparts ended.2.window (next ended) (follow ended)) :
    Counterparts engine.window (step.run engine >>= next) (twin.run engine >>= follow) := by
  refine hfirst.bindOf (fun ended => ended.2.window = engine.window) ?_ fun ended hthere => ?_
  · exact fun world ended after hran => hcomposed.window hran
  · rw [← hthere]
    exact hsecond ended

/-- By induction over the rules for routines. A call goes through one window, that of the engine it
is made on. -/
theorem Routine.counterparts {before after : Bool} {step : EngineM σ α} {twin : EngineM τ α}
    (hroutine : Routine before after step twin) (engine : Engine) :
    Counterparts engine.window (step.run engine) (twin.run engine) := by
  induction hroutine generalizing engine with
  | pure a => exact .pure _
  | look _ => exact .pure _
  | note severity _ =>
    rw [run_withEngine, run_withEngine]
    exact .map (.note _ _) _
  | require condition reason =>
    rw [run_onHost, run_onHost]
    exact .map (.require _ _) _
  | readStaging count =>
    rw [EngineM.readStaging, EngineM.readStaging, run_withEngine, run_withEngine]
    exact .map (.bind (.require _ _) fun _ => .inspectMemory _) _
  | fill bytes count =>
    rw [fillStaging, fillStaging, run_withEngine, run_withEngine]
    exact .map (.bind (.require _ _) fun _ => .changeMemory _) _
  | remember sense => exact .pure _
  | run command _ hrest =>
    rw [StateT.run_bind, StateT.run_bind]
    apply (Composed.run command).counterparts_bind (counterparts_runCommand command engine)
    exact fun ended => hrest ended.1 ended.2
  | restart =>
    rw [run_withEngine, run_withEngine]
    exact .map (.recover _) _
  | bind hfirst _ hearly hlate =>
    rw [StateT.run_bind, StateT.run_bind]
    exact hfirst.composed.counterparts_bind (hearly engine) fun ended => hlate ended.1 ended.2

end EngineM

/-! Starting a device. -/

theorem Adapter.counterparts_startDevice (number slots : Nat) (config : Config) :
    Counterparts (σ := σ) (τ := τ) (.port number) (startDevice number slots config)
      (startDevice number slots config) := by
  refine (Counterparts.bringUp number slots config).bindOf (fun answer => ∀ port engine,
    answer = .ok (port, engine) → engine.window = .port number) ?_ fun answer hhead => ?_
  · rintro world _ after hup port engine rfl
    rw [(HostM.cameUp_of_exec hup).made]
  · cases answer with
    | error error => exact .pure _
    | ok brought =>
      obtain ⟨port, engine⟩ := brought
      rw [← hhead port engine rfl]
      have hprobe := Disk.routine_probe (σ := σ) (τ := τ) port
      refine hprobe.composed.counterparts_bind (hprobe.counterparts engine) fun ended => ?_
      obtain ⟨outcome, engine⟩ := ended
      cases outcome with
      | error error => exact (Counterparts.takeDown engine).bind fun _ => .pure _
      | ok disk => exact .pure _

end Ahci
