import Ahci.Bench.Session
import Ahci.Proofs.DeviceParametricity
import Ahci.Proofs.PortBringUp

/-!
What is kept of what the driver notes has no say in what it does. `HostM.Discreet` is a step that,
whatever the log before it, ends alike and leaves the same world but for the log, to which the same
lines are offered. Each step of a call is discreet, so each call is, and a whole session at the
bench has the same reports at every threshold but for lines that are finer than it.
-/

namespace Ahci

variable {σ τ α β : Type}

namespace Log

/-- A log after lines were noted, newest first: the lines that pass its threshold are in front. -/
def adds (log : Log) (noted : List LogLine) : Log :=
  { log with lines := noted.filter (·.severity.passes log.threshold) ++ log.lines }

theorem adds_adds (log : Log) (early late : List LogLine) :
    (log.adds early).adds late = log.adds (late ++ early) := by
  simp only [adds, List.filter_append, List.append_assoc]

theorem record_eq_adds (log : Log) (severity : Severity) (text : String) :
    log.record severity text = log.adds [⟨severity, text⟩] := by
  rw [adds, ← lines_record, ← log.threshold_record severity text]

end Log

theorem Severity.passes_trace (severity : Severity) : severity.passes .trace = true := by
  cases severity <;> rfl

/-- A world with another log, and all else the same. -/
def World.logging (world : World σ) (log : Log) : World σ :=
  { world with log }

namespace HostM

/-- A step that does the same whatever the log holds and keeps: it ends with the same result, leaves
the same world but for the log, and offers the same lines to it. -/
def Discreet (step : HostM σ α) : Prop :=
  ∀ world : World σ, ∃ (result : Except Halt α) (after : World σ) (noted : List LogLine),
    ∀ log : Log, step.exec (world.logging log) = (result, after.logging (log.adds noted))

namespace Discreet

/-- A step that does not look at the log, and notes nothing. -/
theorem of_silent {step : HostM σ α}
    (hsilent : ∀ world log, step.exec (world.logging log) =
      ((step.exec world).1, (step.exec world).2.logging log)) : step.Discreet :=
  fun world => ⟨_, _, [], hsilent world⟩

theorem pure (a : α) : Discreet (pure a : HostM σ α) :=
  of_silent fun _ _ => rfl

theorem halt (reason : Halt) : Discreet (halt reason : HostM σ α) :=
  of_silent fun _ _ => rfl

theorem openWindow (window : Window) : Discreet (openWindow window : HostM σ Unit) :=
  of_silent fun _ _ => rfl

theorem changeMemory (f : Memory → Memory) : Discreet (changeMemory f : HostM σ Unit) :=
  of_silent fun _ _ => rfl

theorem inspectMemory (f : Memory → α) : Discreet (inspectMemory f : HostM σ α) :=
  of_silent fun _ _ => rfl

theorem patience : Discreet (patience : HostM σ Nat) :=
  of_silent fun _ _ => rfl

theorem release (region : Region) : Discreet (release region : HostM σ Unit) :=
  of_silent fun _ _ => rfl

theorem allocate (frames : Nat) : Discreet (allocate frames : HostM σ _) := by
  apply of_silent
  intro world log
  rw [Clerical.exec_allocate, Clerical.exec_allocate]
  cases hgranted : world.allocator world.frameEvents frames <;>
    simp only [World.logging, hgranted]

theorem note (severity : Severity) (text : String) :
    Discreet (note severity text : HostM σ Unit) := by
  intro world
  refine ⟨.ok (), world, [⟨severity, text⟩], fun log => ?_⟩
  rw [exec_note, World.logging, World.logging, Log.record_eq_adds]

/-- What comes behind a step may rely on what such a step ends with. -/
theorem bind_of (good : α → Prop) {step : HostM σ α} {next : α → HostM σ β}
    (hfirst : step.Discreet) (hends : ∀ world a after, step.exec world = (.ok a, after) → good a)
    (hsecond : ∀ a, good a → (next a).Discreet) : (step >>= next).Discreet := by
  intro world
  obtain ⟨result, between, early, hended⟩ := hfirst world
  cases result with
  | error reason =>
    refine ⟨.error reason, between, early, fun log => ?_⟩
    rw [exec_bind_error (hended log)]
  | ok a =>
    obtain ⟨result, after, late, hfinished⟩ := hsecond a (hends _ a _ (hended world.log)) between
    refine ⟨result, after, late ++ early, fun log => ?_⟩
    rw [exec_bind_ok (hended log), hfinished, Log.adds_adds]

theorem bind {step : HostM σ α} {next : α → HostM σ β} (hfirst : step.Discreet)
    (hsecond : ∀ a, (next a).Discreet) : (step >>= next).Discreet :=
  hfirst.bind_of (fun _ => True) (fun _ _ _ _ => trivial) fun a _ => hsecond a

theorem ite {condition : Prop} [Decidable condition] {step other : HostM σ α}
    (hholds : step.Discreet) (hfails : other.Discreet) :
    (if condition then step else other).Discreet := by
  split
  · exact hholds
  · exact hfails

theorem forM {step : α → HostM σ Unit} (heach : ∀ a, (step a).Discreet) (items : List α) :
    Discreet (items.forM step) := by
  induction items with
  | nil => exact pure ()
  | cons item others ih => exact (heach item).bind fun _ => ih

theorem foldlM {step : β → α → HostM σ β} (heach : ∀ b a, (step b a).Discreet) (items : List α)
    (start : β) : Discreet (items.foldlM step start) := by
  induction items generalizing start with
  | nil => exact pure start
  | cons item others ih =>
    rw [List.foldlM_cons]
    exact (heach start item).bind ih

variable [Device σ] {window : Window}

theorem readRegister (offset : Nat) : Discreet (readRegister window offset : HostM σ UInt32) :=
  of_silent fun _ _ => rfl

theorem writeRegister (offset : Nat) (value : UInt32) :
    Discreet (writeRegister window offset value : HostM σ Unit) :=
  of_silent fun _ _ => rfl

end Discreet

/-- By induction over how a step is put together. What goes through the window of one port does the
same whatever the log holds and keeps. -/
theorem Counterparts.discreet [Device σ] [Device τ] {window : Window} {step : HostM σ α}
    {twin : HostM τ α} (hcounterparts : Counterparts window step twin) : step.Discreet := by
  induction hcounterparts with
  | pure a => exact .pure a
  | halt reason => exact .halt reason
  | patience => exact .patience
  | note severity text => exact .note severity text
  | changeMemory f => exact .changeMemory f
  | inspectMemory f => exact .inspectMemory f
  | allocate frames => exact .allocate frames
  | release region => exact .release region
  | readRegister offset => exact .readRegister offset
  | writeRegister offset value => exact .writeRegister offset value
  | bindOf good _ hends _ hearly hlate => exact hearly.bind_of good hends hlate

theorem discreet_takeDown [Device σ] (engine : Engine) :
    (engine.takeDown : HostM σ Unit).Discreet :=
  (Counterparts.takeDown (τ := σ) engine).discreet

end HostM

namespace EngineM

/-- A step on an engine that does the same whatever the log holds and keeps. -/
def Discreet (step : EngineM σ α) : Prop :=
  ∀ engine, HostM.Discreet (step.run engine)

theorem Routine.discreet [Device σ] [Device τ] {before after : Bool} {step : EngineM σ α}
    {twin : EngineM τ α} (hroutine : Routine before after step twin) : step.Discreet :=
  fun engine => (hroutine.counterparts engine).discreet

end EngineM

namespace Adapter

variable [Device σ]

theorem discreet_startDevice (number slots : Nat) (config : Config) :
    (startDevice number slots config : HostM σ _).Discreet :=
  (counterparts_startDevice (τ := σ) number slots config).discreet

theorem discreet_visitPort (adapter : Adapter) (config : Config) (findings : Findings)
    (number : Nat) : (visitPort adapter config findings number : HostM σ _).Discreet := by
  refine (HostM.Discreet.openWindow _).bind fun _ => ?_
  refine (HostM.Counterparts.attachment (τ := σ)).discreet.bind fun attached => ?_
  refine .ite ((HostM.Discreet.note _ _).bind fun _ => .pure _) ?_
  refine .ite ((HostM.Discreet.note _ _).bind fun _ => .pure _) ?_
  refine (discreet_startDevice number adapter.slots config).bind fun started => ?_
  rcases started with error | ⟨disk, engine⟩
  · exact (HostM.Discreet.note _ _).bind fun _ => .pure _
  · exact (HostM.Discreet.note _ _).bind fun _ => .pure _

theorem discreet_discover (adapter : Adapter) (config : Config) :
    (adapter.discover config : HostM σ _).Discreet := by
  have henable : (enable : HostM σ Unit).Discreet :=
    (HostM.Discreet.readRegister _).bind fun _ => .writeRegister _ _
  have hversion : (version : HostM σ _).Discreet :=
    (HostM.Discreet.readRegister _).bind fun _ => .pure _
  refine henable.bind fun _ => hversion.bind fun version =>
    (HostM.Discreet.note _ _).bind fun _ => ?_
  refine (HostM.Discreet.readRegister _).bind fun implemented => ?_
  refine (HostM.Discreet.foldlM (discreet_visitPort adapter config) _ _).bind fun findings => ?_
  cases findings.disks.isEmpty with
  | true => exact (HostM.Discreet.note _ _).bind fun _ => .pure _
  | false => exact .pure _

end Adapter

namespace Bench

open HostM (Discreet)

/-! Steps at the bench. -/

theorem Handle.discreet_drop (handle : Handle) : handle.drop.Discreet := by
  cases handle with
  | none => exact .pure _
  | port port engine => exact HostM.discreet_takeDown engine.value
  | disk disk engine => exact HostM.discreet_takeDown engine.value

theorem discreet_dropAll (handles : Array Handle) : (handles.forM Handle.drop).Discreet := by
  obtain ⟨handles⟩ := handles
  have hlisted : handles.toArray.forM Handle.drop = handles.forM Handle.drop := by
    simp only [List.size_toArray, List.forM_toArray', List.forM_eq_forM]
  rw [hlisted]
  exact .forM Handle.discreet_drop handles

/-- A step on an engine behind a lock is discreet if the step is; whether the lock is free does not
depend on the log. -/
theorem discreet_onLocked {γ : Type} (engine : SpinLock Engine) {step : EngineM Rack γ}
    (hdiscreet : step.Discreet) : (onLocked engine step).Discreet := by
  rw [onLocked, SpinLock.during?]
  cases engine.acquire? with
  | none => exact .halt _
  | some taken => exact (hdiscreet taken.value).bind fun _ => .pure _

theorem discreet_withHandleEngine (handle : Handle) {step : EngineM Rack Outcome}
    (hdiscreet : step.Discreet) : (withHandleEngine handle step).Discreet := by
  cases handle with
  | none => exact .pure _
  | port port engine => exact (discreet_onLocked engine hdiscreet).bind fun _ => .pure _
  | disk disk engine => exact (discreet_onLocked engine hdiscreet).bind fun _ => .pure _

theorem discreet_probeHandle (handle : Handle) : (probeHandle handle).Discreet := by
  cases handle with
  | none => exact .pure _
  | disk disk engine => exact .pure _
  | port port engine =>
    have hprobed := discreet_onLocked engine (Disk.routine_probe (τ := Rack) port).discreet
    refine hprobed.bind fun found => ?_
    rcases found with ⟨error | disk, engine⟩
    · exact (HostM.discreet_takeDown engine.value).bind fun _ => .pure _
    · exact .pure _

theorem discreet_bringUpHandle (index : Nat) (handle : Handle) (number slots : Nat)
    (config : Config) : (bringUpHandle index handle number slots config).Discreet := by
  refine handle.discreet_drop.bind fun _ => ?_
  refine (HostM.Counterparts.bringUp (τ := Rack) _ _ _).discreet.bind fun up => ?_
  rcases up with error | ⟨port, engine⟩ <;> exact .pure _

theorem PortStep.discreet_run (index : Nat) (handle : Handle) (step : PortStep) :
    (step.run index handle).Discreet := by
  have hchanged (f : Bay → Bay) : (do
      changeBay index f
      return (.ok, handle) : HostM Rack (Outcome × Handle)).Discreet :=
    (Discreet.of_silent fun _ _ => rfl).bind fun _ => .pure _
  cases step with
  | bringUp number slots config => exact discreet_bringUpHandle index handle _ _ _
  | probe => exact discreet_probeHandle handle
  | drop => exact handle.discreet_drop.bind fun _ => .pure _
  | inject opcode fault => exact hchanged _
  | busy on => exact hchanged _
  | stall on => exact hchanged _
  | addOverride override => exact hchanged _
  | clearOverrides => exact hchanged _
  | medium offset length => exact (Discreet.of_silent fun _ _ => rfl).bind fun _ => .pure _
  | disk step =>
    cases handle with
    | none => exact .pure _
    | port port engine => exact .pure _
    | disk disk engine =>
      exact discreet_withHandleEngine (.disk disk engine)
        (step.routine_run (τ := Rack) disk).discreet
  | engine step => exact discreet_withHandleEngine _ (step.routine_run (τ := Rack)).discreet

theorem discreet_discoverAll (handles : Array Handle) (config : Config) :
    (discoverAll handles config).Discreet := by
  refine (discreet_dropAll handles).bind fun _ => ?_
  refine ((Discreet.readRegister _).bind fun _ => .pure _).bind fun adapter => ?_
  refine (adapter.discreet_discover config).bind fun disks => ?_
  refine ((Discreet.readRegister _).bind fun _ => .pure _).bind fun version => ?_
  refine (Discreet.readRegister _).bind fun ports => ?_
  exact (Discreet.of_silent fun _ _ => rfl).bind fun control => .pure _

/-! Sessions. -/

/-- A report that shows, of some lines, those that pass a threshold, and is the same otherwise. -/
def Report.telling (report : Report) (noted : List LogLine) (threshold : Severity) : Report :=
  { report with lines := (noted.filter (·.severity.passes threshold)).map LogLine.render }

namespace Session

/-- A session with nothing in its log, which keeps what passes a threshold. -/
def atThreshold (session : Session) (threshold : Severity) : Session :=
  { session with world := session.world.logging { threshold } }

/-- The session that some steps lead to. -/
def after (session : Session) : List Step → Session
  | [] => session
  | first :: rest => (session.step first).2.after rest

theorem report_logging (session : Session) (outcome : Outcome) (noted : List LogLine)
    (threshold : Severity) :
    { session with world := session.world.logging (({ threshold } : Log).adds noted) }.report
        outcome =
      ((session.report outcome).1.telling noted.reverse threshold,
        (session.report outcome).2.atThreshold threshold) := by
  have hlines : (({ threshold } : Log).adds noted).rendered =
      (noted.reverse.filter (·.severity.passes threshold)).map LogLine.render := by
    rw [Log.rendered, Log.adds, List.append_nil, List.filter_reverse, List.map_reverse]
  rw [Report.telling, ← hlines]
  rfl

/-- What a step reports, and what it leaves, depends on the threshold in lines only. -/
theorem exists_step (session : Session) (step : Step) :
    ∃ (report : Report) (noted : List LogLine) (after : Session), ∀ threshold,
      (session.atThreshold threshold).step step =
        (report.telling noted threshold, after.atThreshold threshold) := by
  cases step with
  | onPort index portStep =>
    cases hfound : session.handles[index]? with
    | none =>
      have halike := session.report_logging (.halted .outOfBounds) []
      refine ⟨_, _, _, fun threshold => Eq.trans ?_ (halike threshold)⟩
      simp only [Session.step, atThreshold, hfound]
      rfl
    | some handle =>
      obtain ⟨result, world, noted, hended⟩ := portStep.discreet_run index handle session.world
      rcases result with reason | ⟨outcome, left⟩
      · have halike := { session with world }.report_logging (.halted reason) noted
        refine ⟨_, _, _, fun threshold => Eq.trans ?_ (halike threshold)⟩
        simp only [Session.step, atThreshold, hfound, hended]
      · have halike := report_logging
          { session with world, handles := session.handles.setIfInBounds index left } outcome noted
        refine ⟨_, _, _, fun threshold => Eq.trans ?_ (halike threshold)⟩
        simp only [Session.step, atThreshold, hfound, hended]
  | discover config =>
    obtain ⟨result, world, noted, hended⟩ :=
      discreet_discoverAll session.handles config session.world
    rcases result with reason | ⟨outcome, handles⟩
    · have halike := report_logging
        { session with world, handles := session.handles.map fun _ => .none } (.halted reason) noted
      refine ⟨_, _, _, fun threshold => Eq.trans ?_ (halike threshold)⟩
      simp only [Session.step, atThreshold, hended]
    · have halike := { session with world, handles }.report_logging outcome noted
      refine ⟨_, _, _, fun threshold => Eq.trans ?_ (halike threshold)⟩
      simp only [Session.step, atThreshold, hended]

/-- The last report, after all handles are dropped, depends on the threshold in its lines only. -/
theorem exists_finish (session : Session) :
    ∃ (report : Report) (noted : List LogLine), ∀ threshold,
      (session.atThreshold threshold).finish = report.telling noted threshold := by
  obtain ⟨result, world, noted, hended⟩ := discreet_dropAll session.handles session.world
  have halike := { session with world }.report_logging .ended noted
  refine ⟨_, _, fun threshold => Eq.trans ?_ (congrArg Prod.fst (halike threshold))⟩
  simp only [finish, atThreshold, hended]

/-- By induction over the steps. What a whole session reports, and what it leads to, depends on the
threshold in lines only. -/
theorem exists_run (session : Session) (steps : List Step) :
    ∃ (told : List (Report × List LogLine)) (ended : Report × List LogLine) (last : Session),
      ∀ threshold,
        (session.atThreshold threshold).run steps =
          (told.map fun (report, noted) => report.telling noted threshold,
            ended.1.telling ended.2 threshold) ∧
        (session.atThreshold threshold).after steps = last.atThreshold threshold := by
  induction steps generalizing session with
  | nil =>
    obtain ⟨report, noted, hfinished⟩ := session.exists_finish
    exact ⟨[], (report, noted), session, fun threshold =>
      ⟨congrArg (Prod.mk []) (hfinished threshold), rfl⟩⟩
  | cons step others ih =>
    obtain ⟨report, noted, after, hstepped⟩ := session.exists_step step
    obtain ⟨told, ended, last, hrest⟩ := ih after
    refine ⟨(report, noted) :: told, ended, last, fun threshold => ?_⟩
    obtain ⟨hreports, hleft⟩ := hrest threshold
    rw [run, Session.after, hstepped threshold]
    dsimp only
    rw [hreports, hleft]
    exact ⟨rfl, rfl⟩

/-- For every session and every list of steps, two thresholds tell the session apart by nothing but
the lines kept. There is one session with all its reports, and one list of lines for each of them,
which are those of the finest threshold. At any threshold the reports are these with the finer lines
taken out, and the session that is left, with the rack, the handles and the record of every access
to a register, is the same but for its threshold. -/
theorem run_atThreshold (session : Session) (steps : List Step) :
    ∃ (told : List (Report × List LogLine)) (ended : Report × List LogLine) (last : Session),
      (session.atThreshold .trace).run steps =
        (told.map fun (report, noted) => { report with lines := noted.map LogLine.render },
          { ended.1 with lines := ended.2.map LogLine.render }) ∧
      ∀ threshold,
        (session.atThreshold threshold).run steps =
          (told.map fun (report, noted) => report.telling noted threshold,
            ended.1.telling ended.2 threshold) ∧
        (session.atThreshold threshold).after steps = last.atThreshold threshold := by
  obtain ⟨told, ended, last, halike⟩ := session.exists_run steps
  have hwhole (report : Report) (noted : List LogLine) :
      report.telling noted .trace = { report with lines := noted.map LogLine.render } := by
    have hall : noted.filter (·.severity.passes .trace) = noted :=
      List.filter_eq_self.2 fun line _ => line.severity.passes_trace
    rw [Report.telling, hall]
  refine ⟨told, ended, last, ?_, halike⟩
  rw [(halike .trace).1]
  simp only [hwhole]

/-- A session at the bench is begun at some threshold. -/
example (bays : List Bay) (adapter : AdapterRegisters) (first second : Severity) (dumping : Bool)
    (refused : List Nat) :
    Session.start bays adapter first dumping refused =
      (Session.start bays adapter second dumping refused).atThreshold first := rfl

end Session

end Bench

end Ahci
