import Ahci.Proofs.Bounds
import Ahci.Proofs.RegisterFootprint
import Ahci.Simulation.Script

/-!
What the driver last asked of the command engine of a port when it hands a command to it, over
any device. A bring-up that succeeds ends by asking the engine to run, and a command asks it for
nothing. A restart asks it to stop and then to run again; but where that handshake fails, the
driver only notes it, and the next command is handed to an engine that was asked to stop.
-/

namespace Ahci

variable {σ : Type}

/-- The value written by an access that writes PxCMD of a given port; no other access asks the
command engine for anything. -/
def Access.command? (window : Window) : Access → Option UInt32
  | .write written offset value =>
    if written = window ∧ offset = PortRegister.cmd then some value else none
  | _ => none

/-- The value last written to PxCMD of a port, if any was. -/
def World.command? (world : World σ) (window : Window) : Option UInt32 :=
  world.accesses.findSome? (Access.command? window)

/-- The last value written to PxCMD of a port has the start bit set. -/
def World.AskedToRun (world : World σ) (window : Window) : Prop :=
  ∃ value, world.command? window = some value ∧ Word.test value CmdBit.start = true

namespace HostM

/-- Whenever a step returns, its result and the world it leaves are of a kind, from any world. -/
structure Leaves {α : Type} (step : HostM σ α) (kind : α → World σ → Prop) : Prop where
  left : ∀ world a after, step.exec world = (.ok a, after) → kind a after

theorem Leaves.bind {α β : Type} {step : HostM σ α} {next : α → HostM σ β}
    {kind : β → World σ → Prop} (hsecond : ∀ a, (next a).Leaves kind) :
    (step >>= next).Leaves kind := by
  constructor
  intro world b after hended
  rw [exec_bind] at hended
  rcases hbegan : step.exec world with ⟨reason | a, between⟩
  · rw [hbegan] at hended
    cases hended
  · rw [hbegan] at hended
    exact (hsecond a).left between b after hended

end HostM

/-- PxCMD of a port was not written between two worlds. -/
def World.AsksNothing (before after : World σ) (window : Window) : Prop :=
  ∃ made, after.accesses = made ++ before.accesses ∧
    ∀ access ∈ made, access.command? window = none

namespace World.AsksNothing

variable {first second third : World σ} {window : Window}

theorem of_accesses (hsame : second.accesses = first.accesses) :
    first.AsksNothing second window :=
  ⟨[], hsame, by simp⟩

theorem trans (hearly : first.AsksNothing second window)
    (hlate : second.AsksNothing third window) : first.AsksNothing third window := by
  obtain ⟨made, haccesses, hsilent⟩ := hearly
  obtain ⟨more, hlater, hquiet⟩ := hlate
  refine ⟨more ++ made, by rw [hlater, haccesses, List.append_assoc], ?_⟩
  intro access hmember
  rcases List.mem_append.1 hmember with hnew | hold
  · exact hquiet access hnew
  · exact hsilent access hold

/-- An engine that was asked to run still counts as asked to, if PxCMD was not written since. -/
theorem askedToRun (hasks : first.AsksNothing second window) (hasked : first.AskedToRun window) :
    second.AskedToRun window := by
  obtain ⟨made, haccesses, hsilent⟩ := hasks
  have hsame : second.command? window = first.command? window := by
    rw [World.command?, haccesses, List.findSome?_append, List.findSome?_eq_none_iff.2 hsilent]
    rfl
  rwa [World.AskedToRun, hsame]

end World.AsksNothing

theorem EngineM.asksNothing_fillStaging (bytes : List UInt8) (count : Nat) (engine : Engine)
    (world : World σ) (window : Window) :
    world.AsksNothing ((fillStaging bytes count).exec engine world).2 window := by
  apply World.AsksNothing.of_accesses
  by_cases henough : count ≤ engine.areas.write.size ∧ bytes.length ≤ count
  · rw [exec_fillStaging_ok henough.1 henough.2]
  · rw [exec_fillStaging_error henough]

section Steps

variable [Device σ] {window : Window}

namespace HostM

/-- A start that succeeds ends with a write of PxCMD that has the start bit set. A start that fails
says nothing of the last write. -/
theorem leaves_startEngine (window : Window) (limit : Nat) :
    (startEngine window limit : HostM σ _).Leaves fun started after =>
      started = .ok () → after.AskedToRun window := by
  have hlate : (pure (.error .timeout) : HostM σ (Except DriverError Unit)).Leaves
      fun started after => started = .ok () → after.AskedToRun window := by
    constructor
    rintro world started after ⟨⟩ ⟨⟩
  apply Leaves.bind
  intro ceased
  split
  · exact hlate
  · apply Leaves.bind
    intro _
    apply Leaves.bind
    intro _
    apply Leaves.bind
    intro hearing
    split
    · exact hlate
    · apply Leaves.bind
      intro command
      constructor
      rintro world _ after ⟨⟩ _
      refine ⟨Word.set command CmdBit.start, ?_, ?_⟩
      · simp [World.command?, Access.command?]
      · simp [Word.test_set command (show CmdBit.start < 32 by decide)]

end HostM

/-- To run a command never writes PxCMD, however the command ends. -/
theorem EngineM.asksNothing_runCommand (command : Command) (engine : Engine) (world : World σ) :
    world.AsksNothing ((runCommand command).exec engine world).2 engine.window := by
  apply keeps_runCommand command fun later => world.AsksNothing later engine.window
  · exact fun _ _ hasks => hasks
  · intro later offset hasks
    exact hasks.trans ⟨[_], rfl, by simp [Access.command?]⟩
  · intro slot later offset value hsent hasks
    have hother : offset ≠ PortRegister.cmd := by
      rcases hsent with rfl | ⟨rfl, _⟩ <;> decide
    exact hasks.trans ⟨[_], rfl, by simp [Access.command?, hother]⟩
  · intro slot _ entries later _ hasks
    exact hasks.trans (.of_accesses rfl)
  · exact .of_accesses rfl

/-! Histories. -/

namespace Stage

/-- Whether an act of a call is a restart of the engine. -/
def restarts (stage : Stage σ) : Bool :=
  match stage.act with
  | .restart => true
  | _ => false

/-- An act at whose end the start of the engine succeeded. -/
def Roused (stage : Stage σ) : Prop :=
  ((HostM.startEngine stage.engine.window stage.engine.limit).exec
    (stage.engine.quiesce.exec stage.world).2).1 = .ok (.ok ())

/-- The last restart among some acts succeeded in starting the engine; without any restart this
holds. -/
def LastRoused (stages : List (Stage σ)) : Prop :=
  ∀ last, stages.reverse.find? restarts = some last → last.Roused

variable {stage : Stage σ} {past : List (Stage σ)}

theorem LastRoused.of_restart (hroused : LastRoused (past ++ [stage]))
    (hrestart : stage.act = .restart) : stage.Roused := by
  apply hroused
  rw [List.reverse_append, List.reverse_singleton, List.singleton_append, List.find?_cons,
    restarts, hrestart]

theorem LastRoused.of_other (hroused : LastRoused (past ++ [stage]))
    (hother : stage.restarts = false) : LastRoused past := by
  intro last hfound
  apply hroused
  rw [List.reverse_append, List.reverse_singleton, List.singleton_append, List.find?_cons, hother]
  exact hfound

/-- A restart that succeeded in starting the engine leaves it asked to run. -/
theorem Roused.askedToRun (hroused : stage.Roused) (hrestart : stage.act = .restart) :
    stage.after.AskedToRun stage.engine.window := by
  have hquiet := (stage.engine.touches_quiesce (σ := σ)).halts
  obtain ⟨_, between, hquiesced⟩ := hquiet.exists_exec stage.world
  rw [Roused, hquiesced] at hroused
  have hstarted := (HostM.leaves_startEngine (σ := σ) stage.engine.window
    stage.engine.limit).left between (.ok ()) _ (Prod.ext hroused rfl) rfl
  have hafter : stage.after = ((HostM.startEngine stage.engine.window stage.engine.limit).exec
      between).2 := by
    rw [Stage.after, hrestart]
    dsimp only
    rw [Engine.recover_eq, HostM.exec_bind_ok hquiesced, Engine.rouse,
      HostM.exec_bind_ok (Prod.ext hroused rfl)]
    rfl
  rwa [hafter]

end Stage

/-- On a port that came up over any device, and over any calls, a command is handed over with the
start bit set in the last value written to PxCMD, and running it does not write PxCMD. The one
exception is a command behind a restart whose start failed: restarts only log the failure, so
nothing is said of a command whose last restart before it is such a one. -/
theorem Driver.run_after_engine_asked {number slots : Nat} {config : Config}
    {start ready : World σ} {port : Port} {engine : Engine}
    (hup : (HostM.bringUp window number slots config).exec start =
      (.ok (.ok (port, engine)), ready))
    {calls : List DriverCall} {stages : List (Stage σ)}
    (hrecounts : Driver.Recounts ⟨engine, ready⟩ calls stages)
    {earlier later : List (Stage σ)} {stage : Stage σ}
    (hsplit : stages = earlier ++ stage :: later) {command : Command}
    (hruns : stage.act = .run command) (hroused : Stage.LastRoused earlier) :
    stage.world.AskedToRun window ∧ stage.world.AsksNothing stage.after window := by
  have hcame := HostM.cameUp_of_exec hup
  have hplaced : engine.window = window := by rw [hcame.made]
  let Kept (past : List (Stage σ)) (world : World σ) : Prop :=
    Stage.LastRoused past → world.AskedToRun window
  have hacts (past : List (Stage σ)) (stage : Stage σ) (halike : stage.engine.Alike engine)
      (hkept : Kept past stage.world) : Kept (past ++ [stage]) stage.after := by
    intro hroused
    have hhead : stage.engine.window = window := halike.window.trans hplaced
    cases hact : stage.act with
    | fill bytes count =>
      have hasked := hkept (hroused.of_other (by rw [Stage.restarts, hact]))
      rw [Stage.after, hact]
      exact (EngineM.asksNothing_fillStaging bytes count _ _ _).askedToRun hasked
    | run command =>
      have hasked := hkept (hroused.of_other (by rw [Stage.restarts, hact]))
      have hsilent := EngineM.asksNothing_runCommand command stage.engine stage.world
      rw [hhead] at hsilent
      rw [Stage.after, hact]
      exact hsilent.askedToRun hasked
    | restart =>
      rw [← hhead]
      exact (hroused.of_restart hact).askedToRun hact
  have hbegun : Kept [] ready := by
    intro _
    obtain ⟨_, before, after, log, _, hstarted, hsame⟩ := hcame.started
    have hasked := (HostM.leaves_startEngine _ _).left before _ after hstarted rfl
    rw [hsame]
    exact hasked
  obtain ⟨_, _, hwithin⟩ := hrecounts.keeps Kept (fun _ _ _ hkept => hkept) hacts (.refl engine) []
    hbegun
  obtain ⟨halike, hkept⟩ := hwithin earlier stage later hsplit
  have hsilent := EngineM.asksNothing_runCommand command stage.engine stage.world
  rw [halike.window, hplaced] at hsilent
  refine ⟨hkept hroused, ?_⟩
  rwa [Stage.after, hruns]

end Steps

/-- The hypotheses are met by the first command on a disk that was just brought up. -/
theorem Driver.run_after_engine_asked_of_two :
    let medium : Medium := .blank sectorSize 8
    let disk : Disk := ⟨⟨0, .disk⟩, .disk .none, 8, "disk"⟩
    let request : BlockRequest := .read 3 1024 (List.replicate 1024 0)
    ∃ port engine ready, (HostM.bringUp (.port 0) 0 1 { readyLimit := 1 }).exec
        (World.around (.disk medium)) = (.ok (.ok (port, engine)), ready) ∧
      ∃ stage, Driver.Recounts ⟨engine, ready⟩ [.onDisk disk request] [stage] ∧
        stage.act = .run (.readSectors 3 2) ∧ stage.world.AskedToRun (.port 0) ∧
        stage.world.AsksNothing stage.after (.port 0) := by
  intro medium disk request
  have hflawless : (World.around (.disk medium)).device.Flawless := ⟨rfl, rfl, rfl, rfl, rfl, rfl⟩
  obtain ⟨engine, ready, hup, hbrought, _, hmirrors⟩ := Engine.exists_mirrors_around hflawless
    (show 0 < ({ readyLimit := 1 } : Config).readyLimit.toNat by decide)
  have hfronts : disk.Fronts medium := ⟨⟨.none, rfl⟩, rfl⟩
  obtain ⟨after, changed, issued, hyields, _⟩ :=
    Disk.exists_perform hmirrors hfronts (by decide) request medium ready.memory
  obtain ⟨later, hended, _⟩ := hyields ready rfl
  obtain ⟨stages, hdid, hconforms⟩ := Disk.conforms_perform hbrought.sized disk request engine ready
    (.refl engine)
  have hreplied : ((disk.blockDevice.perform request).exec engine ready).1.map Prod.fst =
      .ok (((MemoryDisk.device medium).perform request).run medium).1 := by
    rw [show (disk.blockDevice.perform request).exec engine ready = _ from hended]
    rfl
  have hsucceeds : (((MemoryDisk.device medium).perform request).run medium).1.Succeeds := by
    change Except.isOk _ = true
    decide +kernel
  have hacts := (hconforms.done _ hreplied hsucceeds).2
  have hplan : disk.plan engine.config request = [.run (.readSectors 3 2)] := by
    have hextent : disk.extent request = ⟨3, 2⟩ := by decide +kernel
    have hpieces : (⟨3, 2⟩ : Span).cut 16 = [⟨3, 2⟩] := by decide
    rw [hbrought.configured]
    change Act.hauls .readSectors ((disk.extent request).cut 16) = _
    rw [hextent, hpieces]
    rfl
  rw [hplan, List.map_eq_singleton_iff] at hacts
  obtain ⟨stage, rfl, hruns⟩ := hacts
  have hcall : (DriverCall.onDisk disk request).run.Comprises engine ready [stage] := by
    rw [DriverCall.run, map_eq_pure_bind]
    exact .bind hdid hended (.pure () engine later)
  have hrecounts : Driver.Recounts ⟨engine, ready⟩ [.onDisk disk request] ([stage] ++ []) :=
    .cons hcall (.nil _)
  have hroused : Stage.LastRoused ([] : List (Stage SimulatedPort)) := by
    simp [Stage.LastRoused]
  have hsplit : [stage] ++ [] = [] ++ stage :: [] := rfl
  exact ⟨_, engine, ready, hup, stage, hrecounts, hruns,
    Driver.run_after_engine_asked hup hrecounts hsplit hruns hroused⟩

/-! Engines that do not stop. -/

/-- The driver of a port that came up, if it does come up. -/
def Driver.begin? [Device σ] (window : Window) (number slots : Nat) (config : Config)
    (start : World σ) : Option (Driver σ) :=
  match (HostM.bringUp window number slots config).exec start with
  | (.ok (.ok (_, engine)), ready) => some ⟨engine, ready⟩
  | _ => none

theorem Driver.exists_up_of_begin? [Device σ] {window : Window} {number slots : Nat}
    {config : Config} {start : World σ} {driver : Driver σ}
    (hbegun : begin? window number slots config start = some driver) :
    ∃ port, (HostM.bringUp window number slots config).exec start =
      (.ok (.ok (port, driver.engine)), driver.world) := by
  unfold begin? at hbegun
  split at hbegun
  next port engine ready hup =>
    cases hbegun
    exact ⟨port, hup⟩
  next => cases hbegun

/-- A script of a port whose engine starts when asked to and from then on shows CR set for good. Its
first command fails, and no later one does. -/
def Script.runningOn : Script :=
  ⟨[(PortRegister.cmd, [0, 0, 0, 0x4000, 0x4010, 0xC011, 0x8000]),
    (PortRegister.tfd, [0x50]),
    (PortRegister.is, [0x40000000, 0]),
    (PortRegister.ssts, [0x113]),
    (PortRegister.sig, [0x101])]⟩

/-- With an engine that cannot be stopped, a command that fails makes the driver restart it, both
handshakes fail, and the last value written to PxCMD has the start bit clear. The next command is
issued all the same, and reported as a success. -/
theorem Driver.run_succeeds_after_engine_told_to_stop :
    let start : World Script :=
      { device := .runningOn, memory := {}, allocator := risingAllocator [] }
    ∃ port engine ready, (HostM.bringUp (.port 0) 0 1 { readyLimit := 1 }).exec start =
        (.ok (.ok (port, engine)), ready) ∧
      let driver := Driver.run ⟨engine, ready⟩ [.onEngine (.readSectors 0 1)]
      ∃ left later, (EngineM.runCommand (.readSectors 0 1)).exec driver.engine driver.world =
          (.ok (.ok (), left), later) ∧
        ¬ driver.world.AskedToRun (.port 0) ∧ driver.world.AsksNothing later (.port 0) := by
  intro start
  have htrial : (begin? (.port 0) 0 1 { readyLimit := 1 } start).map (fun begun =>
      let driver := begun.run [.onEngine (.readSectors 0 1)]
      let ended := (EngineM.runCommand (.readSectors 0 1)).exec driver.engine driver.world
      (driver.world.command? (.port 0), ended.1.toOption.bind (Except.toOption ∘ Prod.fst))) =
      some (some 0xC010, some ()) := by
    decide +kernel
  obtain ⟨begun, hup, htold⟩ := Option.map_eq_some_iff.1 htrial
  obtain ⟨port, hup⟩ := exists_up_of_begin? hup
  refine ⟨port, begun.engine, begun.world, hup, ?_⟩
  intro driver
  obtain ⟨hcommand, hsucceeds⟩ := Prod.mk.inj htold
  have hstopping : ¬ driver.world.AskedToRun (.port 0) := by
    rintro ⟨value, hasked, hrunning⟩
    cases hcommand.symm.trans hasked
    exact absurd hrunning (by decide)
  have hwindow : driver.engine.window = .port 0 := by
    rw [(Driver.alike_run begun [.onEngine (.readSectors 0 1)]).window,
      (HostM.cameUp_of_exec hup).made]
  have hsilent := EngineM.asksNothing_runCommand (.readSectors 0 1) driver.engine driver.world
  rw [hwindow] at hsilent
  rcases hended : (EngineM.runCommand (.readSectors 0 1)).exec driver.engine driver.world with
    ⟨reason | ⟨error | _, left⟩, later⟩
  · rw [hended] at hsucceeds
    cases hsucceeds
  · rw [hended] at hsucceeds
    cases hsucceeds
  · rw [hended] at hsilent
    exact ⟨left, later, rfl, hstopping, hsilent⟩

end Ahci
