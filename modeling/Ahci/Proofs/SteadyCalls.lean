import Ahci.Proofs.CallCommands

/-!
What every call keeps of a steady port. However a command ends, the port is steady again as
soon as its failure was dealt with, the device is the same device, and what it fetched it
fetched from slot 0. A call is made of such commands and of quiet steps, so by induction over
what it is made of it keeps the same.
-/

namespace Ahci

variable {α β : Type}

/-- What no command changes of a drive: its kind, its identification page, and the size and the
number of its blocks. -/
def Drive.nameplate (drive : Drive) : DriveKind × List UInt8 × Nat × Nat :=
  (drive.kind, drive.page, drive.medium.blockSize, drive.medium.blocks)

namespace Drive

theorem nameplate_takeFault {drive left : Drive} {opcode : UInt8} {fault : Fault}
    (htaken : drive.takeFault opcode = some (fault, left)) : left.nameplate = drive.nameplate := by
  unfold takeFault at htaken
  split at htaken
  · cases htaken
    rfl
  · cases htaken

theorem nameplate_runAta (drive : Drive) (command : FetchedCommand) (memory : Memory) :
    (drive.runAta command memory).2.1.nameplate = drive.nameplate := by
  unfold runAta
  dsimp only
  split
  · rfl
  split
  · split <;> rfl
  split
  · split <;> rfl
  split <;> rfl

theorem nameplate_runPacket (drive : Drive) (cdb : Cdb) (entries : List ScatterEntry)
    (memory : Memory) :
    (drive.runPacket cdb entries memory).2.1.nameplate = drive.nameplate := by
  unfold runPacket
  dsimp only
  split
  · rfl
  split
  · rfl
  split
  · split
    · rfl
    · split <;> rfl
  split
  · split <;> rfl
  split <;> rfl

/-- No command changes the nameplate, whatever it asks for and however it ends. -/
theorem nameplate_run (drive : Drive) (command : FetchedCommand) (memory : Memory) :
    (drive.run command memory).2.1.nameplate = drive.nameplate := by
  rw [run]
  rcases htaken : drive.takeFault command.fis.opcode with _ | ⟨error | sense, left⟩
  · change (drive.runSound command memory).2.1.nameplate = _
    unfold runSound
    split
    · exact drive.nameplate_runAta command memory
    · split
      · exact drive.nameplate_runPacket _ command.entries memory
      · rfl
    · rfl
  · exact nameplate_takeFault htaken
  · exact nameplate_takeFault htaken

end Drive

/-- One port comes from another by commands in slot 0: the drive has the same nameplate, the
switches are where they were, and every command fetched on the way was in slot 0. -/
structure SimulatedPort.Follows (before after : SimulatedPort) : Prop where
  nameplate : after.drive.nameplate = before.drive.nameplate
  busy : after.busy = before.busy
  stalled : after.stalled = before.stalled
  fetched : ∃ made, after.fetched = made ++ before.fetched ∧ ∀ command ∈ made, command.slot = 0

namespace SimulatedPort

theorem Follows.refl (port : SimulatedPort) : port.Follows port :=
  ⟨rfl, rfl, rfl, [], rfl, by simp⟩

theorem Follows.trans {first second third : SimulatedPort} (hearly : first.Follows second)
    (hlate : second.Follows third) : first.Follows third := by
  obtain ⟨made, hfetched, hslots⟩ := hearly.fetched
  obtain ⟨more, hfurther, hplaces⟩ := hlate.fetched
  refine ⟨hlate.nameplate.trans hearly.nameplate, hlate.busy.trans hearly.busy,
    hlate.stalled.trans hearly.stalled, more ++ made, ?_, ?_⟩
  · rw [hfurther, hfetched, List.append_assoc]
  · intro command hmember
    rcases List.mem_append.1 hmember with hnew | hold
    · exact hplaces command hnew
    · exact hslots command hold

theorem follows_withRegisters (port : SimulatedPort) (registers : PortRegisters) :
    port.Follows (port.withRegisters registers) :=
  ⟨rfl, rfl, rfl, [], rfl, by simp⟩

/-- A port whose device ran a command in slot 0 follows from the one before. -/
theorem follows_execute (port : SimulatedPort) (memory : Memory) :
    port.Follows (port.execute 0 memory).1 := by
  refine ⟨?_, rfl, rfl, [.fetch port.listAddress 0 memory], rfl, ?_⟩
  · rw [← port.drive.nameplate_run (.fetch port.listAddress 0 memory) memory, execute]
    rcases port.drive.run (.fetch port.listAddress 0 memory) memory with ⟨ending, drive, after⟩
    cases ending <;> rfl
  · intro command hmember
    rw [List.mem_singleton.1 hmember]
    rfl

end SimulatedPort

namespace Engine

/-- What is known of a port behind a command on it. It follows from the port before, its registers
are those of a running engine with some status, task file and PxCI, and it is steady unless the
outcome calls for a restart. The command was not short of a slot. -/
structure Ran (engine : Engine) (before : SimulatedPort) (outcome : Except CommandError Unit)
    (after : SimulatedPort) : Prop where
  follows : before.Follows after
  up : ∃ status file issued, after.registers = engine.areas.registers status file issued
  steady : (∀ error, outcome = .error error → error.needsRecovery = false) → engine.Steady after
  found : outcome ≠ .error .noSlot

/-- Behind any command a restart, which brings the port to rest, makes it steady. -/
theorem Ran.rested {engine : Engine} {before after : SimulatedPort}
    {outcome : Except CommandError Unit} (hran : engine.Ran before outcome after)
    (hsteady : engine.Steady before) : engine.Steady (after.rested engine.areas) := by
  refine ⟨hsteady.free, hsteady.patient, ⟨0, rfl, rfl⟩, fun hstalled => hsteady.bounded ?_⟩
  rw [← hran.follows.stalled]
  exact hstalled

end Engine

namespace Engine

/-- The engine after sense data was brought, if any was: it replaces what was remembered. -/
def told (engine : Engine) (sense : Option SenseData) : Engine :=
  { engine with lastSense := sense.or engine.lastSense }

/-- Of two answers about the sense the later one is remembered, unless it brought none. -/
theorem told_told (engine : Engine) (early late : Option SenseData) :
    (engine.told early).told late = engine.told (late.or early) := by
  simp only [told, Option.or_assoc]

theorem steady_told {engine : Engine} {sense : Option SenseData} {port : SimulatedPort} :
    (engine.told sense).Steady port ↔ engine.Steady port :=
  ⟨fun hsteady => ⟨hsteady.free, hsteady.patient, hsteady.registers, hsteady.bounded⟩,
    fun hsteady => ⟨hsteady.free, hsteady.patient, hsteady.registers, hsteady.bounded⟩⟩

/-- How a call on a steady port ends, seen from outside. The port is steady and follows from the one
before, the log shows no new error, and if the call returned, the engine is the one before but for
the sense data that the answer brought. -/
structure Settled (engine : Engine) (sense : α → Option SenseData) (before : World SimulatedPort)
    (result : Except Halt (α × Engine)) (after : World SimulatedPort) : Prop where
  steady : engine.Steady after.device
  follows : before.device.Follows after.device
  progress : ∃ issued, before.Progress after issued
  left : ∀ a left, result = .ok (a, left) → left = engine.told (sense a)

/-- What was done before a call that ends settled may be counted in. -/
theorem Settled.behind {engine : Engine} {sense : α → Option SenseData}
    {before between after : World SimulatedPort} {issued : Nat}
    {result : Except Halt (α × Engine)} (hsettled : engine.Settled sense between result after)
    (hfollows : before.device.Follows between.device) (hearly : before.Progress between issued) :
    engine.Settled sense before result after := by
  obtain ⟨more, hlate⟩ := hsettled.progress
  exact ⟨hsettled.steady, hfollows.trans hsettled.follows, ⟨_, hearly.trans hlate⟩, hsettled.left⟩

end Engine

/-- A packet call made on the way from an engine in a world, behind some sense data: its port is
steady and follows from the one at the start, and its engine remembers that sense. -/
structure Deed.Within (deed : Deed) (engine : Engine) (world : World SimulatedPort)
    (sense : Option SenseData) : Prop where
  steady : deed.engine.Steady deed.world.device
  follows : world.device.Follows deed.world.device
  engine : deed.engine = engine.told sense

namespace EngineM

/-- Whether a call on a steady port ends settled, with the sense data brought given by its
answer. -/
def Keeps (step : EngineM SimulatedPort α) (engine : Engine) (world : World SimulatedPort)
    (sense : α → Option SenseData) : Prop :=
  engine.Settled sense world (step.exec engine world).1 (step.exec engine world).2

variable {engine : Engine} {world : World SimulatedPort} {sense : β → Option SenseData}

/-- A step that ends on a steady port which follows from the one before keeps a port steady. -/
theorem keeps_of_yields {step : EngineM SimulatedPort α} {a : α} {port : SimulatedPort}
    {memory : Memory} {issued : Nat} {sense : α → Option SenseData}
    (hyields : step.Yields engine world.machine (.ok (a, engine.told (sense a)))
      ⟨port, memory⟩ issued)
    (hsteady : engine.Steady port) (hfollows : world.device.Follows port) :
    step.Keeps engine world sense := by
  obtain ⟨later, hended, haround, hprogress⟩ := hyields world rfl
  have hdevice : later.device = port := congrArg Machine.device haround
  rw [← hdevice] at hsteady hfollows
  rw [Keeps, exec, hended]
  refine ⟨hsteady, hfollows, ⟨issued, hprogress⟩, ?_⟩
  rintro _ _ ⟨⟩
  rfl

theorem keeps_pure {sense : α → Option SenseData} (a : α) (hsilent : sense a = none)
    (hsteady : engine.Steady world.device) :
    (pure a : EngineM SimulatedPort α).Keeps engine world sense := by
  have hyields : (pure a : EngineM SimulatedPort α).Yields engine world.machine
      (.ok (a, engine.told (sense a))) world.machine 0 := by
    rw [hsilent]
    exact yields_pure a engine _
  exact keeps_of_yields hyields hsteady (.refl _)

theorem keeps_get (hsteady : engine.Steady world.device) :
    (get : EngineM SimulatedPort Engine).Keeps engine world fun _ => none :=
  keeps_of_yields (yields_get engine _) hsteady (.refl _)

/-- A quiet step on the host changes nothing that a steady port is known by. -/
theorem keeps_host {step : HostM SimulatedPort α} (hquiet : step.Quiet)
    (hsteady : engine.Steady world.device) :
    (onHost step).Keeps engine world fun _ => none := by
  obtain ⟨hsame, hprogress⟩ := hquiet world
  rw [Keeps, exec_onHost]
  refine ⟨by rw [hsame]; exact hsteady, by rw [hsame]; exact .refl _, ⟨0, hprogress⟩, ?_⟩
  intro a left hended
  cases hresult : (step.exec world).1 with
  | error reason =>
    rw [hresult] at hended
    cases hended
  | ok a =>
    rw [hresult] at hended
    cases hended
    rfl

/-- Two steps in succession on a steady port: the second starts on the port that the first left
steady, and the sense that the second brings counts before that of the first. -/
theorem Keeps.bind {step : EngineM SimulatedPort α} {next : α → EngineM SimulatedPort β}
    {early : Option SenseData} (hfirst : step.Keeps engine world fun _ => early)
    (hsecond : ∀ a left after, step.exec engine world = (.ok (a, left), after) →
      left.Steady after.device → (next a).Keeps left after sense) :
    (step >>= next).Keeps engine world fun b => (sense b).or early := by
  rw [Keeps, exec_bind]
  rw [Keeps] at hfirst
  rcases hended : step.exec engine world with ⟨reason | ⟨a, left⟩, after⟩
  · rw [hended] at hfirst
    exact ⟨hfirst.steady, hfirst.follows, hfirst.progress, by simp⟩
  · rw [hended] at hfirst
    have hsame := hfirst.left a left rfl
    subst hsame
    have hkept := hsecond a _ after hended (Engine.steady_told.2 hfirst.steady)
    obtain ⟨issued, hprogress⟩ := hfirst.progress
    obtain ⟨more, hfurther⟩ := hkept.progress
    refine ⟨Engine.steady_told.1 hkept.steady, hfirst.follows.trans hkept.follows,
      ⟨_, hprogress.trans hfurther⟩, ?_⟩
    intro b last hfinished
    rw [hkept.left b last hfinished, Engine.told_told]

/-- If the first of two steps brings no sense data, the second decides what both bring. -/
theorem Keeps.seq {step : EngineM SimulatedPort α} {next : α → EngineM SimulatedPort β}
    (hfirst : step.Keeps engine world fun _ => none)
    (hsecond : ∀ a left after, step.exec engine world = (.ok (a, left), after) →
      left.Steady after.device → (next a).Keeps left after sense) :
    (step >>= next).Keeps engine world sense := by
  have hboth := hfirst.bind hsecond
  simpa only [Option.or_none] using hboth

theorem Keeps.finish {step : EngineM SimulatedPort α} {next : α → EngineM SimulatedPort β}
    {early : Option SenseData} (hfirst : step.Keeps engine world fun _ => early)
    (hsecond : ∀ a left after, step.exec engine world = (.ok (a, left), after) →
      left.Steady after.device → (next a).Keeps left after fun _ => none) :
    (step >>= next).Keeps engine world fun _ => early :=
  hfirst.bind hsecond

end EngineM

namespace EngineM

variable {engine : Engine} {port : SimulatedPort}

/-- On a steady port every command finds a slot and returns, over any memory, and the port behind it
is one of those that a command can leave. -/
theorem exists_runCommand (hsteady : engine.Steady port) (command : Command) (memory : Memory) :
    ∃ outcome after changed issued,
      (runCommand command).Yields engine ⟨port, memory⟩ (.ok (outcome, engine))
        ⟨after, changed⟩ issued ∧ engine.Ran port outcome after := by
  obtain ⟨status, _, hregisters⟩ := hsteady.registers
  cases hformed : engine.scatter command with
  | error error =>
    refine ⟨_, _, _, _, yields_runCommand_of_malformed hsteady hformed memory, ?_⟩
    exact ⟨.refl port, ⟨_, _, _, hregisters⟩, fun _ => hsteady, by simp⟩
  | ok entries =>
    cases hbusy : port.busy with
    | true =>
      refine ⟨_, _, _, _, yields_runCommand_of_busy hsteady hformed hbusy memory, ?_⟩
      exact ⟨port.follows_withRegisters _, ⟨_, _, _, rfl⟩, fun _ => hsteady.rested, by simp⟩
    | false =>
      cases hstalled : port.stalled with
      | true =>
        refine ⟨_, _, _, _, yields_runCommand_of_stalled hsteady hformed hbusy hstalled memory, ?_⟩
        refine ⟨port.follows_withRegisters _, ⟨_, _, _, rfl⟩, fun hrunning => ?_, by simp⟩
        exact absurd (hrunning .timeout rfl) (by decide)
      | false =>
        refine ⟨_, _, _, _, yields_runCommand_of_ready hsteady hformed hbusy hstalled memory, ?_⟩
        let built := engine.build 0 command entries memory
        let begun := port.begun engine.areas
        have hfollows : port.Follows (begun.execute 0 built).1 :=
          (port.follows_withRegisters _).trans (begun.follows_execute built)
        have hshown : (begun.execute 0 built).1.registers = SimulatedPort.showEnding
            (engine.areas.registers 0 SimulatedPort.idleFile 1) 0
            (port.drive.run (.fetch begun.listAddress 0 built) built).1 := rfl
        generalize (port.drive.run (.fetch begun.listAddress 0 built) built).1 = ending at hshown ⊢
        by_cases hdone : ending = .done
        · rw [hdone, SimulatedPort.showEnding_done] at hshown
          refine ⟨hfollows, ⟨_, _, _, hshown⟩, fun _ => ?_, by rw [hdone]; simp [Ending.outcome]⟩
          refine ⟨hsteady.free, hsteady.patient, ⟨1, rfl, hshown⟩, fun hpending => ?_⟩
          exact hsteady.bounded (by rw [← hfollows.stalled]; exact hpending)
        · obtain ⟨error, hfailed, houtcome⟩ := SimulatedPort.showEnding_failed engine.areas hdone
          rw [hfailed] at hshown
          refine ⟨hfollows, ⟨_, _, _, hshown⟩, fun hrunning => ?_, ?_⟩
          · have hsettled := hrunning _ (houtcome command.isPacket)
            cases hpacket : command.isPacket <;> rw [hpacket] at hsettled <;>
              exact absurd hsettled (by simp [CommandError.needsRecovery])
          · rw [houtcome]
            cases command.isPacket <;> simp

/-- Handling a failure leaves a steady port, if the failed command left one of those that a command
can leave. Memory is not changed by it. -/
theorem exists_fail (hsteady : engine.Steady port) {error : CommandError} {after : SimulatedPort}
    (hran : engine.Ran port (.error error) after) (label : String) :
    ∃ settled, (∀ memory, (engine.fail label error).Yields ⟨after, memory⟩ (.ok error.toIoError)
        ⟨settled, memory⟩ 0) ∧ engine.Steady settled ∧ port.Follows settled := by
  obtain ⟨_, _, _, hup⟩ := hran.up
  cases hstopped : error.needsRecovery with
  | false =>
    refine ⟨after, fun _ => Engine.yields_fail_of_running hstopped label _, hran.steady ?_,
      hran.follows⟩
    rintro _ ⟨⟩
    exact hstopped
  | true =>
    refine ⟨_, Engine.yields_fail_of_stopped hstopped hsteady.patient hup label,
      hran.rested hsteady, ?_⟩
    exact hran.follows.trans (after.follows_withRegisters _)

/-- A request of one command keeps a port steady and brings no sense data. -/
theorem keeps_execute {world : World SimulatedPort} (hsteady : engine.Steady world.device)
    (command : Command) : (RequestM.execute command).run.Keeps engine world fun _ => none := by
  obtain ⟨outcome, after, changed, issued, hyields, hran⟩ :=
    exists_runCommand hsteady command world.memory
  cases outcome with
  | ok _ =>
    refine keeps_of_yields (RequestM.yields_execute_of_ok hyields) ?_ hran.follows
    exact hran.steady (by simp)
  | error error =>
    obtain ⟨settled, hfailing, hagain, hfollows⟩ := exists_fail hsteady hran command.label
    exact keeps_of_yields (RequestM.yields_execute_of_error hyields (hfailing changed))
      hagain hfollows

theorem keeps_readStaging {world : World SimulatedPort} (hsteady : engine.Steady world.device)
    (count : Nat) : (readStaging count).Keeps engine world fun _ => none := by
  refine (keeps_get hsteady).seq fun engine _ after _ hsteady => ?_
  exact keeps_host ((HostM.Quiet.require _ _).bind fun _ => .inspectMemory _) hsteady

/-- Two requests in succession, of which the first brings no sense data and may fail. -/
theorem keeps_request_seq {world : World SimulatedPort} {request : RequestM SimulatedPort α}
    {next : α → RequestM SimulatedPort β} {sense : Except IoError β → Option SenseData}
    (hsilent : ∀ error, sense (.error error) = none)
    (hfirst : request.run.Keeps engine world fun _ => none)
    (hsecond : ∀ a left after, left.Steady after.device → (next a).run.Keeps left after sense) :
    (request >>= next).run.Keeps engine world sense := by
  rw [ExceptT.run_bind]
  refine hfirst.seq fun answer left after _ hsteady => ?_
  cases answer with
  | ok a => exact hsecond a left after hsteady
  | error error => exact keeps_pure _ (hsilent error) hsteady

/-- REQUEST SENSE keeps a port steady, and the sense it answers with is what it brought. -/
theorem keeps_requestSense_answer {world : World SimulatedPort}
    (hsteady : engine.Steady world.device) :
    RequestM.requestSense.run.Keeps engine world Except.toOption := by
  refine keeps_request_seq (fun _ => rfl) (keeps_execute hsteady _)
    fun _ engine world hsteady => ?_
  refine keeps_request_seq (fun _ => rfl) ?_ fun bytes engine world hsteady => ?_
  · rw [RequestM.run_onEngine, map_eq_pure_bind]
    exact (keeps_readStaging hsteady _).seq fun _ _ _ _ hsteady => keeps_pure _ rfl hsteady
  · cases SenseData.parse? bytes with
    | none => exact keeps_pure _ rfl hsteady
    | some sense =>
      exact keeps_of_yields (RequestM.yields_remember sense engine _) hsteady (.refl _)

/-- REQUEST SENSE keeps a port steady, and brings the sense that the world was going to give. -/
theorem keeps_requestSense {world : World SimulatedPort} (hsteady : engine.Steady world.device) :
    RequestM.requestSense.run.Keeps engine world fun _ => RequestM.sensed? engine world := by
  have hkept := keeps_requestSense_answer hsteady
  refine ⟨hkept.steady, hkept.follows, hkept.progress, fun answer left hended => ?_⟩
  rw [hkept.left answer left hended, RequestM.sensed?_of_ended (Prod.ext hended rfl)]

/-- Asking why a packet command failed keeps a port steady, and brings the sense that the device
gave, or none. -/
theorem keeps_checkCondition {world : World SimulatedPort} (hsteady : engine.Steady world.device)
    (label : String) :
    (checkCondition label).Keeps engine world fun _ => RequestM.sensed? engine world := by
  have hnoted (error : IoError) (explanation : String) {engine : Engine}
      {world : World SimulatedPort} (hsteady : engine.Steady world.device) :
      (do
        noteSense label error explanation
        return error : EngineM SimulatedPort IoError).Keeps engine world fun _ => none := by
    have hquiet : (noteSense label error explanation : EngineM SimulatedPort Unit).Keeps engine
        world fun _ => none :=
      (keeps_get hsteady).seq fun _ _ _ _ hsteady => keeps_host (.note _ (by decide)) hsteady
    exact hquiet.seq fun _ _ _ _ hsteady => keeps_pure _ rfl hsteady
  refine (keeps_requestSense hsteady).finish fun answer engine world _ hsteady => ?_
  cases answer with
  | ok sense => exact hnoted _ _ hsteady
  | error error => exact hnoted _ _ hsteady

/-- A packet command keeps a port steady, and brings the sense that explained its failure, if it
failed with a check condition and the device told why. -/
theorem keeps_packet {world : World SimulatedPort} (hsteady : engine.Steady world.device)
    (cdb : Cdb) (data : DataPhase) (label : String) :
    (packet cdb data label).Keeps engine world fun _ =>
      Deed.sense? ⟨.command cdb data label, engine, world⟩ := by
  obtain ⟨outcome, after, changed, issued, hyields, hran⟩ :=
    exists_runCommand hsteady (.packet cdb data label) world.memory
  obtain ⟨middle, hended, haround, hprogress⟩ := hyields world rfl
  by_cases hcheck : outcome = .error .checkCondition
  · subst hcheck
    obtain ⟨_, _, _, hup⟩ := hran.up
    obtain ⟨later, hrecovered, hsettled, hfurther⟩ :=
      yields_withEngine (Engine.yields_recover hsteady.patient hup changed) middle haround
    have hdevice : later.device = after.rested engine.areas := congrArg Machine.device hsettled
    have hagain : engine.Steady later.device := by
      rw [hdevice]
      exact hran.rested hsteady
    have hfollows : world.device.Follows later.device := by
      rw [hdevice]
      exact hran.follows.trans (after.follows_withRegisters _)
    have hkept : (checkCondition label >>= fun error => pure (Except.error error) :
        EngineM SimulatedPort (Except IoError Unit)).Keeps engine later fun _ =>
          RequestM.sensed? engine later :=
      (keeps_checkCondition hagain label).finish fun _ _ _ _ hsteady => keeps_pure _ rfl hsteady
    rw [Deed.sense?_of_checkCondition hended hrecovered, Keeps, packet, exec_bind_ok hended]
    dsimp only
    rw [exec_bind_ok hrecovered]
    exact hkept.behind hfollows (hprogress.trans hfurther)
  · rw [Deed.sense?_of_other hended hcheck]
    cases outcome with
    | ok _ =>
      refine keeps_of_yields (yields_packet_of_ok hyields) ?_ hran.follows
      exact hran.steady (by simp)
    | error error =>
      obtain ⟨settled, hfailing, hagain, hfollows⟩ := exists_fail hsteady hran label
      have hother : error ≠ .checkCondition := fun hsame => hcheck (by rw [hsame])
      exact keeps_of_yields (yields_packet_of_error hyields hother (hfailing changed))
        hagain hfollows

/-- A suffix of two lists joined is a suffix of the second, or reaches into the first. -/
theorem suffix_append {deed : Deed} {earlier late early : List Deed}
    (hsuffix : deed :: earlier <:+ late ++ early) :
    deed :: earlier <:+ early ∨
      ∃ between, deed :: between <:+ late ∧ earlier = between ++ early := by
  induction late with
  | nil => exact .inl hsuffix
  | cons newest late ih =>
    rcases List.suffix_cons_iff.1 hsuffix with hsame | hfurther
    · cases hsame
      exact .inr ⟨late, List.suffix_refl _, rfl⟩
    · rcases ih hfurther with hold | ⟨between, hnew, rfl⟩
      · exact .inl hold
      · exact .inr ⟨between, hnew.trans (List.suffix_cons newest late), rfl⟩

/-- Every call keeps a steady port steady, whether it returns or halts. The sense it brought is that
of its newest packet call that brought any, and at each packet call on the way the engine remembers
the newest one before. -/
theorem Performs.keeps {step : EngineM SimulatedPort α} {world : World SimulatedPort}
    {deeds : List Deed} (hdid : step.Performs engine world deeds)
    (hsteady : engine.Steady world.device) :
    (step.Keeps engine world fun _ => deeds.findSome? Deed.sense?) ∧
      ∀ deed earlier, deed :: earlier <:+ deeds →
        deed.Within engine world (earlier.findSome? Deed.sense?) := by
  have halone (call : PacketCall) {engine : Engine} {world : World SimulatedPort}
      (hsteady : engine.Steady world.device) (deed : Deed) (earlier : List Deed)
      (hsuffix : deed :: earlier <:+ [⟨call, engine, world⟩]) :
      deed.Within engine world (earlier.findSome? Deed.sense?) := by
    rcases List.suffix_cons_iff.1 hsuffix with hsame | hfurther
    · cases hsame
      exact ⟨hsteady, .refl _, rfl⟩
    · cases List.suffix_nil.1 hfurther
  induction hdid with
  | pure a engine world => exact ⟨keeps_pure a rfl hsteady, by simp⟩
  | get engine world => exact ⟨keeps_get hsteady, by simp⟩
  | host hquiet engine world => exact ⟨keeps_host hquiet hsteady, by simp⟩
  | command hplain engine world => exact ⟨keeps_execute hsteady _, by simp⟩
  | packet cdb data label engine world =>
    refine ⟨?_, halone _ hsteady⟩
    rw [List.findSome?_singleton]
    exact keeps_packet hsteady cdb data label
  | requestSense engine world =>
    refine ⟨?_, halone _ hsteady⟩
    rw [List.findSome?_singleton]
    exact keeps_requestSense hsteady
  | bind hfirst hended hsecond hearly hlate =>
    obtain ⟨hkept, hwithin⟩ := hearly hsteady
    have hsettled := hkept
    rw [Keeps, hended] at hsettled
    have hsame := hsettled.left _ _ rfl
    subst hsame
    obtain ⟨hkeptLater, hwithinLater⟩ := hlate (Engine.steady_told.2 hsettled.steady)
    refine ⟨?_, ?_⟩
    -- The packet calls of the second step are newer, and what they brought is found first.
    · rw [List.findSome?_append]
      refine hkept.bind ?_
      intro a left after hended' _
      rw [hended] at hended'
      cases hended'
      exact hkeptLater
    · intro deed earlier hsuffix
      rcases suffix_append hsuffix with hold | ⟨between, hnew, rfl⟩
      · exact hwithin deed earlier hold
      · obtain ⟨hsteady, hfollows, hsame⟩ := hwithinLater deed between hnew
        refine ⟨hsteady, hsettled.follows.trans hfollows, ?_⟩
        rw [hsame, Engine.told_told, List.findSome?_append]
  | halt hfirst hended hearly =>
    obtain ⟨hkept, hwithin⟩ := hearly hsteady
    refine ⟨?_, hwithin⟩
    rw [Keeps, exec_bind_error hended]
    rw [Keeps, hended] at hkept
    exact ⟨hkept.steady, hkept.follows, hkept.progress, by simp⟩

end EngineM

end Ahci
