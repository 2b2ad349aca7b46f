import Ahci.Proofs.CallActs
import Ahci.Proofs.CallRoutines

/-!
Histories of a port, over any device. Every call of the driver comes apart into acts, wherever
it is made: the requests on a disk, the identification of a device, and the steps on an engine.
A history is one call after another, and its acts are those of its calls in order, so what every
act keeps is kept over every history.
-/

namespace Ahci

variable {σ τ α β : Type} [Device σ] [Device τ]

namespace EngineM

/-- A call that comes apart into acts on every engine and in every world. -/
def Composed (step : EngineM σ α) : Prop :=
  ∀ base, step.Composes base fun _ _ => True

namespace Composed

theorem pure (a : α) : (pure a : EngineM σ α).Composed :=
  fun _ => .pure trivial

theorem get : (get : EngineM σ Engine).Composed :=
  fun _ => .get fun _ _ => trivial

theorem bind {step : EngineM σ α} {next : α → EngineM σ β} (hfirst : step.Composed)
    (hsecond : ∀ a, (next a).Composed) : (step >>= next).Composed :=
  fun base => (hfirst base).bind (fun _ a _ => hsecond a base) fun _ _ _ => trivial

theorem map {step : EngineM σ α} (hcomposed : step.Composed) (f : α → β) :
    (f <$> step).Composed := by
  rw [map_eq_pure_bind]
  exact hcomposed.bind fun a => pure (f a)

theorem note (severity : Severity) (text : Engine → String) :
    (withEngine fun engine => (HostM.note severity (text engine) : HostM σ Unit)).Composed :=
  fun _ => .note severity text trivial

theorem require (condition : Bool) (reason : Halt) :
    (onHost (HostM.require condition reason) : EngineM σ Unit).Composed :=
  fun _ => .require (fun _ => trivial) fun _ => trivial

theorem run (command : Command) : (runCommand command : EngineM σ _).Composed :=
  fun _ => .run command (fun _ => trivial) fun _ => trivial

theorem fail (label : String) (error : CommandError) :
    (withEngine (·.fail label error) : EngineM σ IoError).Composed :=
  fun _ => .fail label error trivial trivial

theorem readStaging (count : Nat) : (EngineM.readStaging count : EngineM σ _).Composed :=
  fun _ => .readStaging count (fun _ _ _ => trivial) fun _ => trivial

theorem fill (bytes : List UInt8) (count : Nat) :
    (fillStaging bytes count : EngineM σ _).Composed :=
  fun _ => .fill bytes count (fun _ _ => trivial) fun _ => trivial

end Composed

end EngineM

open EngineM (Composed)

namespace RequestM

/-- `EngineM.Composed` of a request. -/
def Composed (request : RequestM σ α) : Prop :=
  request.run.Composed

namespace Composed

theorem pure (a : α) : Composed (pure a : RequestM σ α) :=
  EngineM.Composed.pure (Except.ok a)

theorem throw (error : IoError) : Composed (throw error : RequestM σ α) :=
  EngineM.Composed.pure (Except.error error)

theorem bind {request : RequestM σ α} {next : α → RequestM σ β} (hfirst : request.Composed)
    (hsecond : ∀ a, (next a).Composed) : (request >>= next).Composed := by
  rw [Composed, ExceptT.run_bind]
  apply EngineM.Composed.bind hfirst
  intro answer
  cases answer with
  | ok a => exact hsecond a
  | error error => exact .pure _

theorem onEngine {step : EngineM σ α} (hcomposed : step.Composed) : (onEngine step).Composed := by
  rw [Composed, run_onEngine]
  exact hcomposed.map Except.ok

theorem require (condition : Bool) (reason : Halt) :
    (RequestM.require condition reason : RequestM σ Unit).Composed :=
  onEngine (.require condition reason)

theorem note (severity : Severity) (text : Engine → String) :
    (withEngine fun engine => (HostM.note severity (text engine) : HostM σ Unit)).Composed :=
  onEngine (.note severity text)

end Composed

end RequestM

/-- Every routine comes apart into acts, whether it owes a restart before and behind it or not. -/
theorem EngineM.Routine.composed {before after : Bool} {α : Type} {step : EngineM σ α}
    {twin : EngineM τ α} (hroutine : Routine before after step twin) : step.Composed := by
  induction hroutine with
  | pure a => exact .pure a
  | look hplaceless => exact .map .get _
  | note severity hplaceless => exact .note severity _
  | require condition reason => exact .require condition reason
  | readStaging count => exact .readStaging count
  | fill bytes count => exact .fill bytes count
  | remember sense => exact fun _ => .remember sense trivial
  | run command hrest ih => exact .bind (.run command) ih
  | restart => exact fun _ => .restart trivial
  | bind hfirst hsecond hearly hlate => exact hearly.bind hlate

/-- A call leaves the engine at its window. -/
theorem EngineM.Composed.window {step : EngineM σ α} (hcomposed : step.Composed) {engine : Engine}
    {world after : World σ} {ended : α × Engine}
    (hran : step.exec engine world = (.ok ended, after)) : ended.2.window = engine.window := by
  obtain ⟨_, hdid, _⟩ := hcomposed engine engine world (.refl _)
  exact (hdid.alike hran).window

/-! Histories. -/

/-- A call of the driver on a port that was brought up. The disk of a call need not be the one on
the port. -/
inductive DriverCall where
  /-- Identifies the device. -/
  | probe (port : Port)
  | onDisk (disk : Disk) (request : BlockRequest)
  | eject (disk : Disk)
  | requestSense (disk : Disk)
  | onEngine (step : Bench.EngineStep)

namespace DriverCall

/-- Makes a call, whatever it answers. -/
def run : DriverCall → EngineM σ Unit
  | probe port => (fun _ => ()) <$> Disk.probe port
  | onDisk disk request => (fun _ => ()) <$> disk.blockDevice.perform request
  | eject disk => (fun _ => ()) <$> disk.eject.run
  | requestSense disk => (fun _ => ()) <$> disk.requestSense.run
  | onEngine step => (fun _ => ()) <$> step.run

/-- Every call of the driver is a routine. -/
theorem routine_run (call : DriverCall) :
    EngineM.Routine (σ := σ) (τ := τ) false false call.run call.run := by
  cases call with
  | probe port => exact (Disk.routine_probe port).map _
  | onDisk disk request => exact (disk.routine_perform request).map _
  | eject disk => exact EngineM.Routine.map disk.routine_eject _
  | requestSense disk => exact EngineM.Routine.map disk.routine_requestSense _
  | onEngine step => exact step.routine_run.map _

end DriverCall

/-- A driver at its port between two calls: its engine, and the world around it. -/
structure Driver (σ : Type) where
  engine : Engine
  world : World σ

namespace Driver

/-- The driver behind a call. A call that halts leaves the engine as it was, in the world where it
halted. -/
def after (driver : Driver σ) (call : DriverCall) : Driver σ :=
  match call.run.exec driver.engine driver.world with
  | (.ok ((), engine), world) => ⟨engine, world⟩
  | (.error _, world) => { driver with world }

def run (driver : Driver σ) (calls : List DriverCall) : Driver σ :=
  calls.foldl after driver

/-- The acts of a history in their order: those of its first call, then those of the calls behind
it, made from where the first left the driver. -/
inductive Recounts : Driver σ → List DriverCall → List (Stage σ) → Prop where
  | nil (driver : Driver σ) : Recounts driver [] []
  | cons {driver : Driver σ} {call : DriverCall} {calls : List DriverCall}
      {early late : List (Stage σ)}
      (hfirst : call.run.Comprises driver.engine driver.world early)
      (hrest : Recounts (driver.after call) calls late) :
      Recounts driver (call :: calls) (early ++ late)

/-- Every history comes apart into acts. -/
theorem exists_recounts (driver : Driver σ) (calls : List DriverCall) :
    ∃ stages, driver.Recounts calls stages := by
  induction calls generalizing driver with
  | nil => exact ⟨[], .nil driver⟩
  | cons call calls ih =>
    obtain ⟨early, hdid, _⟩ :=
      (call.routine_run (τ := σ)).composed driver.engine driver.engine driver.world (.refl _)
    obtain ⟨late, hrest⟩ := ih (driver.after call)
    exact ⟨early ++ late, .cons hdid hrest⟩

/-- A call leaves an engine like the one before it, and the world that it ended in, whether it
returned or halted. -/
theorem after_eq (driver : Driver σ) {call : DriverCall} {stages : List (Stage σ)}
    (hdid : call.run.Comprises driver.engine driver.world stages) :
    (driver.after call).engine.Alike driver.engine ∧
      (driver.after call).world = (call.run.exec driver.engine driver.world).2 := by
  unfold after
  rcases hended : call.run.exec driver.engine driver.world with ⟨reason | ⟨_, left⟩, world⟩
  · exact ⟨.refl _, rfl⟩
  · exact ⟨hdid.alike hended, rfl⟩

/-- What every act keeps on an engine like `base` is kept over every history, and holds in front of
each of its acts. The property may speak of the acts done so far, and has to survive lines of the
log. -/
theorem Recounts.keeps (Kept : List (Stage σ) → World σ → Prop) {base : Engine}
    (hcalm : ∀ past world log, Kept past world → Kept past { world with log })
    (hacts : ∀ past (stage : Stage σ), stage.engine.Alike base → Kept past stage.world →
      Kept (past ++ [stage]) stage.after)
    {driver : Driver σ} {calls : List DriverCall} {stages : List (Stage σ)}
    (hrecounts : driver.Recounts calls stages) (halike : driver.engine.Alike base)
    (past : List (Stage σ)) (hkept : Kept past driver.world) :
    (driver.run calls).engine.Alike base ∧ Kept (past ++ stages) (driver.run calls).world ∧
      ∀ early stage late, stages = early ++ stage :: late →
        stage.engine.Alike base ∧ Kept (past ++ early) stage.world := by
  induction hrecounts generalizing past with
  | nil driver =>
    rw [List.append_nil]
    exact ⟨halike, hkept, by simp⟩
  | @cons driver call calls early late hdid hrest ih =>
    obtain ⟨hsame, hworld⟩ := driver.after_eq hdid
    obtain ⟨hkeptEarly, hwithin⟩ := hdid.keeps Kept hcalm hacts halike past hkept
    rw [← hworld] at hkeptEarly
    obtain ⟨halikeLate, hkeptLate, hwithinLate⟩ :=
      ih (hsame.trans halike) (past ++ early) hkeptEarly
    rw [← List.append_assoc]
    refine ⟨halikeLate, hkeptLate, fun before stage behind hsplit => ?_⟩
    rcases Stage.split_append hsplit with ⟨between, hold⟩ | ⟨more, rfl, hnew⟩
    · exact hwithin before stage between hold
    · rw [← List.append_assoc]
      exact hwithinLate more stage behind hnew

/-- A history leaves an engine like the one it began with. -/
theorem alike_run (driver : Driver σ) (calls : List DriverCall) :
    (driver.run calls).engine.Alike driver.engine := by
  obtain ⟨stages, hrecounts⟩ := driver.exists_recounts calls
  exact (hrecounts.keeps (fun _ _ => True) (fun _ _ _ _ => trivial)
    (fun _ _ _ _ => trivial) (.refl _) [] trivial).1

end Driver

/-! Ports that came up. -/

/-- What a bring-up that succeeded did last, over any device: it told the port its areas, with a
header for each slot in memory, and then started the engine, which succeeded. The areas have their
sizes. -/
structure Engine.CameUp (engine : Engine) (window : Window) (number slots : Nat)
    (config : Config) (ready : World σ) : Prop where
  made : engine = { window, number, areas := engine.areas, slots := .ofCount slots, config }
  sized : engine.areas.Sized
  started : ∃ (owning before after : World σ) (log : Log),
    (HostM.programPort window engine.areas).exec
        { owning with memory := engine.areas.writeHeaders slotCount owning.memory } =
      (.ok (), before) ∧
    (HostM.startEngine window config.readyLimit.toNat).exec before = (.ok (.ok ()), after) ∧
    ready = { after with log }

namespace HostM

theorem halts_attachment (window : Window) {reasons : Halt → Prop} :
    (attachment window : HostM σ _).Halts reasons := by
  apply (Halts.readRegister window _).bind
  intro status
  exact (Halts.readRegister window _).bind fun _ => .pure _

theorem halts_programPort (window : Window) (areas : PortAreas) {reasons : Halt → Prop} :
    (programPort window areas : HostM σ _).Halts reasons := by
  have haddress (low high : Nat) (addr : PhysAddr) :
      (programAddress window low high addr : HostM σ _).Halts reasons :=
    (Halts.writeRegister window _ _).bind fun _ => .writeRegister window _ _
  apply (haddress _ _ _).bind
  intro _
  apply (haddress _ _ _).bind
  intro _
  apply (Halts.writeRegister window _ _).bind
  intro _
  exact (Halts.writeRegister window _ _).bind fun _ => .writeRegister window _ _

/-- How a bring-up ends behind its look at what is attached, over any device. It ends with the first
of its steps that fails: no block device, a stop that fails, memory that is refused, or a start that
fails, behind which the memory is released. If none fails it ends with an engine that was started
last. -/
inductive BringUpEnds (window : Window) (number slots : Nat) (config : Config)
    (attached : Attachment) (looked : World σ) :
    Except DriverError (Port × Engine) → World σ → Prop
  | vacant (hnone : attached.isBlockDevice = false) :
      BringUpEnds window number slots config attached looked (.error .deviceNotFound) looked
  | unstopped {error : DriverError} {stopped : World σ} (hblock : attached.isBlockDevice = true)
      (hstop : (stopEngine window config.readyLimit.toNat).exec looked =
        (.ok (.error error), stopped)) :
      BringUpEnds window number slots config attached looked (.error error) stopped
  | refused {error : DriverError} {stopped owning : World σ}
      (hblock : attached.isBlockDevice = true)
      (hstop : (stopEngine window config.readyLimit.toNat).exec looked = (.ok (.ok ()), stopped))
      (hasked : PortAreas.allocate.exec stopped = (.ok (.error error), owning)) :
      BringUpEnds window number slots config attached looked (.error error) owning
  | unstarted {error : DriverError} {areas : PortAreas}
      {stopped owning programmed started released : World σ}
      (hblock : attached.isBlockDevice = true)
      (hstop : (stopEngine window config.readyLimit.toNat).exec looked = (.ok (.ok ()), stopped))
      (hasked : PortAreas.allocate.exec stopped = (.ok (.ok areas), owning))
      (htold : (programPort window areas).exec
        { owning with memory := areas.writeHeaders slotCount owning.memory } =
          (.ok (), programmed))
      (hstart : (startEngine window config.readyLimit.toNat).exec programmed =
        (.ok (.error error), started))
      (hfreed : areas.release.exec started = (.ok (), released)) :
      BringUpEnds window number slots config attached looked (.error error) released
  | up {areas : PortAreas} {stopped owning programmed started : World σ} {log : Log}
      (hblock : attached.isBlockDevice = true)
      (hstop : (stopEngine window config.readyLimit.toNat).exec looked = (.ok (.ok ()), stopped))
      (hasked : PortAreas.allocate.exec stopped = (.ok (.ok areas), owning))
      (htold : (programPort window areas).exec
        { owning with memory := areas.writeHeaders slotCount owning.memory } =
          (.ok (), programmed))
      (hstart : (startEngine window config.readyLimit.toNat).exec programmed =
        (.ok (.ok ()), started)) :
      BringUpEnds window number slots config attached looked
        (.ok (⟨number, attached⟩, { window, number, areas, slots := .ofCount slots, config }))
        { started with log }

/-- A bring-up never halts, and ends in one of these ways, over any device. -/
theorem exists_bringUp_ends {window : Window} (number slots : Nat) (config : Config)
    {attached : Attachment} {world looked : World σ}
    (hseen : (attachment window).exec world = (.ok attached, looked)) :
    ∃ answer ready, (bringUp window number slots config).exec world = (.ok answer, ready) ∧
      BringUpEnds window number slots config attached looked answer ready := by
  rw [bringUp, exec_bind_ok hseen]
  cases hblock : attached.isBlockDevice with
  | false => exact ⟨_, looked, rfl, .vacant hblock⟩
  | true =>
    obtain ⟨stop, stopped, hended⟩ :=
      (touches_stopEngine (σ := σ) window config.readyLimit.toNat).halts.exists_exec looked
    rw [if_neg (by decide), exec_bind_ok hended]
    cases stop with
    | error error => exact ⟨_, stopped, rfl, .unstopped hblock hended⟩
    | ok _ =>
      obtain ⟨answer, hasked⟩ := PortAreas.clerical_allocate.ends stopped
      have hasked : PortAreas.allocate.exec stopped =
          (.ok answer, (PortAreas.allocate.exec stopped).2) := Prod.ext hasked rfl
      generalize (PortAreas.allocate.exec stopped).2 = owning at hasked
      dsimp only
      rw [exec_bind_ok hasked]
      cases answer with
      | error error => exact ⟨_, owning, rfl, .refused hblock hended hasked⟩
      | ok areas =>
        dsimp only
        rw [exec_bind_ok (exec_changeMemory _ _)]
        obtain ⟨_, programmed, htold⟩ :=
          (halts_programPort (σ := σ) window areas).exists_exec
            { owning with memory := areas.writeHeaders slotCount owning.memory }
        rw [exec_bind_ok htold]
        obtain ⟨begun, started, hstart⟩ :=
          (touches_startEngine (σ := σ) window config.readyLimit.toNat).halts.exists_exec
            programmed
        rw [exec_bind_ok hstart]
        cases begun with
        | error error =>
          obtain ⟨_, hfreed⟩ := areas.clerical_release.ends started
          have hfreed : areas.release.exec started = (.ok (), (areas.release.exec started).2) :=
            Prod.ext hfreed rfl
          dsimp only
          rw [exec_bind_ok hfreed]
          exact ⟨_, _, rfl, .unstarted hblock hended hasked htold hstart hfreed⟩
        | ok _ =>
          dsimp only
          rw [exec_bind_ok (exec_note _ _ _)]
          exact ⟨_, _, rfl, .up hblock hended hasked htold hstart⟩

/-- A bring-up that succeeded left the port as one that came up. -/
theorem cameUp_of_exec {window : Window} {number slots : Nat} {config : Config}
    {start ready : World σ} {port : Port} {engine : Engine}
    (hup : (bringUp window number slots config).exec start =
      (.ok (.ok (port, engine)), ready)) : engine.CameUp window number slots config ready := by
  obtain ⟨attached, looked, hseen⟩ := (halts_attachment (σ := σ) window).exists_exec start
  obtain ⟨answer, after, hended, hends⟩ := exists_bringUp_ends number slots config hseen
  rw [hup] at hended
  cases hended
  cases hends with
  | up hblock hstop hasked htold hstart =>
    have hgranted := congrArg Prod.fst hasked
    exact ⟨rfl, PortAreas.sized_of_allocate hgranted, _, _, _, _, htold, hstart, rfl⟩

end HostM

end Ahci
