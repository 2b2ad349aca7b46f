import Ahci.Engine.Basic
import Ahci.Proofs.Halting

/-!
What the steps of the driver write to the registers of a port, and what they give up for, over
any device. A command acknowledges PxIS and writes its slot to PxCI, and a handshake with the
engine writes PxCMD. Whatever the device answers, a command gives up only where it is waited for
without a limit, and a restart never does.
-/

namespace Ahci

variable {σ α β : Type} [Device σ]

/-- A set of writes to the registers of a port, each by its offset and its value. -/
abbrev Traffic := Nat → UInt32 → Prop

namespace Traffic

def none : Traffic := fun _ _ => False

/-- The writes of a handshake with the command engine: any value, to PxCMD only. -/
def handshake : Traffic := fun offset _ => offset = PortRegister.cmd

/-- The writes of a command in a slot: any value to PxIS, and to PxCI the word with just the bit of
the slot. -/
def issue (slot : Nat) : Traffic := fun offset value =>
  offset = PortRegister.is ∨ offset = PortRegister.ci ∧ value = Word.only slot

/-- The writes of a restart of the command engine: to PxCMD, PxSERR and PxIS. -/
def restart : Traffic := fun offset _ =>
  offset = PortRegister.cmd ∨ offset = PortRegister.serr ∨ offset = PortRegister.is

end Traffic

/-- Each access is a read of the port or a write of the traffic to the port. -/
def Access.Within (window : Window) (traffic : Traffic) (made : List Access) : Prop :=
  ∀ access ∈ made, (∃ offset value, access = .read window offset value) ∨
    ∃ offset value, traffic offset value ∧ access = .write window offset value

namespace HostM

/-- A step whose effects are reads of the port, writes to it of the given traffic, and lines of the
log; it halts, if at all, for a reason of the kind. So any property of worlds that those effects
keep is kept by the step, however it ends. -/
structure Touches (step : HostM σ α) (window : Window) (traffic : Traffic)
    (reasons : Halt → Prop) : Prop where
  /-- What reads, such writes and notes keep the step keeps. -/
  keeps : ∀ Kept : World σ → Prop,
    (∀ world log, Kept world → Kept { world with log }) →
    (∀ world offset, Kept world → Kept ((readRegister window offset).exec world).2) →
    (∀ world offset value, traffic offset value → Kept world →
      Kept ((writeRegister window offset value).exec world).2) →
    ∀ world, Kept world → Kept (step.exec world).2
  halts : step.Halts reasons

/-- A step whose effects are reads of the port and lines of the log, and that never halts. -/
abbrev Looks (step : HostM σ α) (window : Window) : Prop :=
  step.Touches window .none fun _ => False

namespace Touches

variable {window : Window} {traffic more : Traffic} {reasons others : Halt → Prop}

theorem pure (a : α) : Touches (pure a : HostM σ α) window traffic reasons :=
  ⟨fun _ _ _ _ _ hkept => hkept, .pure a⟩

theorem halt {reason : Halt} (hbecause : reasons reason) :
    Touches (halt reason : HostM σ α) window traffic reasons :=
  ⟨fun _ _ _ _ _ hkept => hkept, .halt hbecause⟩

theorem patience : Touches (patience : HostM σ Nat) window traffic reasons :=
  ⟨fun _ _ _ _ _ hkept => hkept, .patience⟩

theorem note (severity : Severity) (text : String) :
    Touches (note severity text : HostM σ Unit) window traffic reasons :=
  ⟨fun _ hcalm _ _ world hkept => hcalm world _ hkept, .note severity text⟩

theorem readRegister (offset : Nat) :
    Touches (readRegister window offset : HostM σ UInt32) window traffic reasons :=
  ⟨fun _ _ hreads _ world hkept => hreads world offset hkept, .readRegister window offset⟩

theorem writeRegister {offset : Nat} {value : UInt32} (hsent : traffic offset value) :
    Touches (writeRegister window offset value : HostM σ Unit) window traffic reasons :=
  ⟨fun _ _ _ hwrites world hkept => hwrites world offset value hsent hkept,
    .writeRegister window offset value⟩

theorem bind {step : HostM σ α} {next : α → HostM σ β}
    (hfirst : step.Touches window traffic reasons)
    (hsecond : ∀ a, (next a).Touches window traffic reasons) :
    (step >>= next).Touches window traffic reasons := by
  refine ⟨?_, hfirst.halts.bind fun a => (hsecond a).halts⟩
  intro Kept hcalm hreads hwrites world hkept
  have hearly := hfirst.keeps Kept hcalm hreads hwrites world hkept
  rw [exec_bind]
  rcases hended : step.exec world with ⟨reason | a, after⟩
  · rw [hended] at hearly
    exact hearly
  · rw [hended] at hearly
    exact (hsecond a).keeps Kept hcalm hreads hwrites after hearly

theorem mono {step : HostM σ α} (htouches : step.Touches window traffic reasons)
    (hsubset : ∀ offset value, traffic offset value → more offset value)
    (himplies : ∀ reason, reasons reason → others reason) : step.Touches window more others := by
  refine ⟨fun Kept hcalm hreads hwrites => ?_, htouches.halts.mono himplies⟩
  exact htouches.keeps Kept hcalm hreads fun world offset value hsent =>
    hwrites world offset value (hsubset offset value hsent)

end Touches

/-- The accesses of a step that keeps to its traffic are within that traffic, and it neither
allocates nor releases frames. This covers the accesses of a step that halts. -/
theorem Touches.exists_made {window : Window} {traffic : Traffic} {reasons : Halt → Prop}
    {step : HostM σ α} (htouches : step.Touches window traffic reasons) (world : World σ) :
    ∃ made, (step.exec world).2.accesses = made ++ world.accesses ∧
      Access.Within window traffic made ∧
      (step.exec world).2.frameEvents = world.frameEvents := by
  apply htouches.keeps fun later => ∃ made, later.accesses = made ++ world.accesses ∧
    Access.Within window traffic made ∧ later.frameEvents = world.frameEvents
  · exact fun _ _ hkept => hkept
  · rintro later offset ⟨made, haccesses, hwithin, hevents⟩
    refine ⟨.read window offset _ :: made, congrArg (_ :: ·) haccesses, ?_, hevents⟩
    exact List.forall_mem_cons.2 ⟨.inl ⟨offset, _, rfl⟩, hwithin⟩
  · rintro later offset value hsent ⟨made, haccesses, hwithin, hevents⟩
    refine ⟨.write window offset value :: made, congrArg (_ :: ·) haccesses, ?_, hevents⟩
    exact List.forall_mem_cons.2 ⟨.inr ⟨offset, value, hsent, rfl⟩, hwithin⟩
  · exact ⟨[], rfl, by simp [Access.Within], rfl⟩

theorem accesses_of_read {window : Window} {offset : Nat} {value : UInt32}
    {world after : World σ}
    (hread : (readRegister window offset).exec world = (.ok value, after)) :
    after.accesses = .read window offset value :: world.accesses := by
  cases hread
  rfl

theorem accesses_of_write {window : Window} {offset : Nat} {value : UInt32} {done : Unit}
    {world after : World σ}
    (hwritten : (writeRegister window offset value).exec world = (.ok done, after)) :
    after.accesses = .write window offset value :: world.accesses := by
  cases hwritten
  rfl

/-- A step that writes nothing keeps to any traffic, and one that never halts to any reasons. -/
theorem Looks.touches {window : Window} {traffic : Traffic} {reasons : Halt → Prop}
    {step : HostM σ α} (hlooks : step.Looks window) : step.Touches window traffic reasons :=
  hlooks.mono (fun _ _ => False.elim) fun _ => False.elim

variable (window : Window)

theorem looks_busySlots : (busySlots window : HostM σ _).Looks window := by
  apply (Touches.readRegister _).bind
  intro outstanding
  exact (Touches.readRegister _).bind fun _ => .pure _

/-- A wait for a bit of PxCMD writes nothing and never halts, for any limit. -/
theorem looks_commandBitBecomes (bit : Nat) (value : Bool) (limit : Nat) :
    (commandBitBecomes window bit value limit : HostM σ Bool).Looks window := by
  induction limit with
  | zero => exact .pure _
  | succ reads ih =>
    apply (Touches.readRegister _).bind
    intro command
    split
    · exact .pure _
    · exact ih

/-- Stopping the engine writes PxCMD only, and never halts. -/
theorem touches_stopEngine (limit : Nat) :
    (stopEngine window limit : HostM σ _).Touches window .handshake fun _ => False := by
  apply (Touches.readRegister _).bind
  intro command
  split
  · exact .pure _
  · apply (Touches.writeRegister rfl).bind
    intro _
    apply (looks_commandBitBecomes window _ _ limit).touches.bind
    intro ceased
    split
    · exact .pure _
    · apply (Touches.readRegister _).bind
      intro command
      apply (Touches.writeRegister rfl).bind
      intro _
      apply (looks_commandBitBecomes window _ _ limit).touches.bind
      intro deaf
      split <;> exact .pure _

theorem touches_startEngine (limit : Nat) :
    (startEngine window limit : HostM σ _).Touches window .handshake fun _ => False := by
  apply (looks_commandBitBecomes window _ _ limit).touches.bind
  intro ceased
  split
  · exact .pure _
  · apply (Touches.readRegister _).bind
    intro command
    apply (Touches.writeRegister rfl).bind
    intro _
    apply (looks_commandBitBecomes window _ _ limit).touches.bind
    intro hearing
    split
    · exact .pure _
    · apply (Touches.readRegister _).bind
      intro command
      exact (Touches.writeRegister rfl).bind fun _ => .pure _

theorem looks_becomesReady (polls : Nat) :
    (becomesReady window polls : HostM σ Bool).Looks window := by
  induction polls with
  | zero => exact .pure _
  | succ polls ih =>
    apply (Touches.readRegister _).bind
    intro file
    split
    · exact .pure _
    · exact ih

theorem looks_pollOnce (slot : Nat) (packet : Bool) :
    (pollOnce window slot packet : HostM σ _).Looks window := by
  have hfailed (status : UInt32) : (completionError window status packet : HostM σ _).Looks
      window :=
    (Touches.readRegister _).bind fun _ => .pure _
  apply (Touches.readRegister _).bind
  intro status
  split
  · exact (hfailed status).bind fun _ => .pure _
  · apply (Touches.readRegister _).bind
    intro issued
    split
    · exact .pure _
    · apply (Touches.readRegister _).bind
      intro late
      split
      · exact (hfailed late).bind fun _ => .pure _
      · exact .pure _

theorem looks_firstConclusive (slot : Nat) (packet : Bool) (polls : Nat) :
    (firstConclusive window slot packet polls : HostM σ _).Looks window := by
  induction polls with
  | zero => exact .pure _
  | succ polls ih =>
    apply (looks_pollOnce window slot packet).bind
    intro outcome?
    cases outcome? with
    | none => exact ih
    | some outcome => exact .pure _

/-- Waiting for a completion writes nothing, and it halts only as a wait without an end, which takes
a config without a completion limit. -/
theorem touches_awaitCompletion (slot : Nat) (limit : Option UInt32) (packet : Bool) :
    (awaitCompletion window slot limit packet : HostM σ _).Touches window .none fun reason =>
      reason = .unending ∧ limit = none := by
  cases limit with
  | some limit =>
    apply (looks_firstConclusive window slot packet _).touches.bind
    intro outcome?
    cases outcome? <;> exact .pure _
  | none =>
    apply Touches.patience.bind
    intro polls
    apply (looks_firstConclusive window slot packet _).touches.bind
    intro outcome?
    cases outcome? with
    | some outcome => exact .pure _
    | none => exact .halt ⟨rfl, rfl⟩

/-- To issue a slot and wait for it writes PxIS and the bit of the slot to PxCI and nothing else,
and it halts only as a wait without an end. -/
theorem touches_issueAndWait (arena : SlotArena) (slot : Nat) (config : Config) (packet : Bool) :
    (issueAndWait window arena slot config packet : HostM σ _).Touches window (.issue slot)
      fun reason => reason = .unending ∧ config.completionLimit = none := by
  have hwaits : (awaitCompletion window slot config.completionLimit packet : HostM σ _).Touches
      window (.issue slot) fun reason => reason = .unending ∧ config.completionLimit = none :=
    (touches_awaitCompletion window slot config.completionLimit packet).mono
      (fun _ _ => False.elim) fun _ => id
  apply (Touches.writeRegister (.inl rfl)).bind
  intro _
  apply (looks_becomesReady window _).touches.bind
  intro ready
  split
  · exact .pure _
  · apply (Touches.writeRegister (.inr ⟨rfl, rfl⟩)).bind
    intro _
    exact hwaits.bind fun _ => .pure _

end HostM

namespace Engine

/-- A command that is submitted in a slot halts only as a wait without an end. -/
theorem halts_submit (engine : Engine) (claimed : SlotArena) (slot : Nat) (command : Command) :
    (engine.submit claimed slot command : HostM σ _).Halts fun reason =>
      reason = .unending ∧ engine.config.completionLimit = none := by
  unfold submit
  cases engine.scatter command with
  | error error => exact .pure _
  | ok entries =>
    apply (HostM.Halts.changeMemory _).bind
    exact fun _ => (HostM.touches_issueAndWait _ _ _ _ _).halts

/-! Restarts, in two parts. -/

/-- The first part of a restart: the engine is stopped, and PxSERR and PxIS are acknowledged. A stop
that fails is logged as a warning and changes nothing else. -/
def quiesce (engine : Engine) : HostM σ Unit := do
  if let .error _ ← HostM.stopEngine engine.window engine.limit then
    HostM.note .warn (engine.title ++ " engine did not stop during recovery")
  let errors ← HostM.readRegister engine.window PortRegister.serr
  HostM.note .debug (engine.title ++ " recovery, SERR " ++ hexRegister errors)
  HostM.writeRegister engine.window PortRegister.serr allBits
  HostM.writeRegister engine.window PortRegister.is allBits

/-- The second part of a restart: the engine is started. A start that fails is logged as a
warning. -/
def rouse (engine : Engine) : HostM σ Unit := do
  if let .error _ ← HostM.startEngine engine.window engine.limit then
    HostM.note .warn (engine.title ++ " engine did not restart during recovery")

theorem recover_eq (engine : Engine) : (engine.recover : HostM σ Unit) =
    engine.quiesce >>= fun _ => engine.rouse := by
  rw [recover, quiesce, bind_assoc]
  congr
  funext stopped
  cases stopped <;> simp only [bind_assoc] <;> rfl

variable (engine : Engine)

theorem touches_quiesce :
    (engine.quiesce : HostM σ Unit).Touches engine.window .restart fun _ => False := by
  have hacknowledge : (do
      let errors ← HostM.readRegister engine.window PortRegister.serr
      HostM.note .debug (engine.title ++ " recovery, SERR " ++ hexRegister errors)
      HostM.writeRegister engine.window PortRegister.serr allBits
      HostM.writeRegister engine.window PortRegister.is allBits :
      HostM σ Unit).Touches engine.window .restart fun _ => False := by
    apply (HostM.Touches.readRegister _).bind
    intro errors
    apply (HostM.Touches.note _ _).bind
    intro _
    apply (HostM.Touches.writeRegister (.inr (.inl rfl))).bind
    exact fun _ => .writeRegister (.inr (.inr rfl))
  apply ((HostM.touches_stopEngine _ _).mono (fun _ _ => .inl) fun _ => id).bind
  intro stopped
  cases stopped with
  | error error => exact (HostM.Touches.note _ _).bind fun _ => hacknowledge
  | ok _ => exact hacknowledge

theorem touches_rouse :
    (engine.rouse : HostM σ Unit).Touches engine.window .restart fun _ => False := by
  apply ((HostM.touches_startEngine _ _).mono (fun _ _ => .inl) fun _ => id).bind
  intro started
  cases started with
  | error error => exact .note _ _
  | ok _ => exact .pure _

/-- A restart writes PxCMD, PxSERR and PxIS only, and never halts, whatever the device answers. -/
theorem touches_recover :
    (engine.recover : HostM σ Unit).Touches engine.window .restart fun _ => False := by
  rw [recover_eq]
  exact engine.touches_quiesce.bind fun _ => engine.touches_rouse

end Engine

end Ahci
