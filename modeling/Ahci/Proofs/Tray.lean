import Ahci.Proofs.OpticalReads

/-!
What opens the tray of a drive. Only a packet that asks for it does, and only where the drive
carries it out, which is where the packet command succeeds. Every other step of the driver leaves
the tray as it is: by induction over what a call is made of, only an eject opens it.
-/

namespace Ahci

variable {α β : Type}

/-- A packet has room for the byte that tells what to do with the tray. -/
theorem Cdb.operation_lt : 4 < 16 := by decide

/-- Whether a drive opens its tray for a packet: START STOP UNIT with the eject bit set and the
start bit clear. -/
def Cdb.opens (cdb : Cdb) : Bool :=
  cdb.opcode = Cdb.startStopCode ∧ (cdb.byte 4 Cdb.operation_lt).toNat % 4 = 2

theorem Eject.opens_opening : Eject.opening.1.opens = true := by decide

theorem Eject.opens_allow : Eject.allow.1.opens = false := by decide

namespace Drive

variable {drive left : Drive} {command : FetchedCommand} {memory : Memory}

theorem trayOpen_takeFault {opcode : UInt8} {fault : Fault}
    (htaken : drive.takeFault opcode = some (fault, left)) : left.trayOpen = drive.trayOpen := by
  rw [takeFault] at htaken
  split at htaken
  · cases htaken
    rfl
  · cases htaken

theorem trayOpen_runAta (drive : Drive) (command : FetchedCommand) (memory : Memory) :
    (drive.runAta command memory).2.1.trayOpen = drive.trayOpen := by
  unfold runAta
  dsimp only
  split_ifs <;> rfl

/-- A packet opens the tray exactly if it asks for that, and such a packet is always carried out. No
packet closes the tray. -/
theorem trayOpen_runPacket (drive : Drive) (cdb : Cdb) (entries : List ScatterEntry)
    (memory : Memory) :
    (drive.runPacket cdb entries memory).2.1.trayOpen = (drive.trayOpen || cdb.opens) ∧
      (cdb.opens = true → (drive.runPacket cdb entries memory).1 = .done) := by
  by_cases hstart : cdb.opcode = Cdb.startStopCode
  · have hopens : cdb.opens = decide ((cdb.byte 4).toNat % 4 = 2) := by simp [Cdb.opens, hstart]
    rw [hopens, runPacket, hstart, if_neg (by decide), if_neg (by decide), if_neg (by decide),
      if_pos rfl]
    split <;> simp_all
  · have hopens : cdb.opens = false := by simp [Cdb.opens, hstart]
    rw [hopens, runPacket, if_neg hstart]
    split_ifs <;> simp

/-- A command opens the tray exactly if it has a packet for that and is carried out; every other
command leaves the tray as it is. -/
theorem trayOpen_run (drive : Drive) (command : FetchedCommand) (memory : Memory) :
    (drive.run command memory).2.1.trayOpen =
      (drive.trayOpen || ((drive.run command memory).1 = .done && command.cdb.any Cdb.opens)) := by
  unfold run
  split
  · next error left htaken => simp [trayOpen_takeFault htaken]
  · next sense left htaken => simp [trayOpen_takeFault htaken]
  · unfold runSound
    split
    · next hplain => simp [trayOpen_runAta, hplain]
    · next cdb _ hpacket =>
      split
      · obtain ⟨htray, hdone⟩ := drive.trayOpen_runPacket cdb command.entries memory
        rw [htray, hpacket]
        cases hopens : cdb.opens with
        | false => simp [hopens]
        | true => simp [hopens, hdone hopens]
      · simp
    · simp

end Drive

/-! Commands. -/

/-- One port comes from another without its tray having been opened, and without any packet that
would open it having been fetched. -/
structure SimulatedPort.Spared (before after : SimulatedPort) : Prop where
  tray : after.drive.trayOpen = before.drive.trayOpen
  packets : ∃ made, after.packets = made ++ before.packets ∧
    ∀ packet ∈ made, packet.any Cdb.opens = false

namespace SimulatedPort.Spared

theorem of_same {before after : SimulatedPort} (hdrive : after.drive = before.drive)
    (hfetched : after.fetched = before.fetched) : before.Spared after :=
  ⟨by rw [hdrive], [], congrArg (List.map FetchedCommand.cdb) hfetched, nofun⟩

theorem trans {before between after : SimulatedPort} (hearly : before.Spared between)
    (hlate : between.Spared after) : before.Spared after := by
  obtain ⟨made, hfetched, hclosed⟩ := hearly.packets
  obtain ⟨more, hfurther, hothers⟩ := hlate.packets
  refine ⟨hlate.tray.trans hearly.tray, more ++ made, ?_, ?_⟩
  · rw [hfurther, hfetched, List.append_assoc]
  · intro packet hmember
    exact (List.mem_append.1 hmember).elim (hothers packet) (hclosed packet)

end SimulatedPort.Spared

theorem Ending.trayOpen_explained (ending : Ending) (drive : Drive) :
    (ending.explained drive).trayOpen = drive.trayOpen := by
  cases ending <;> rfl

namespace EngineM

variable {engine : Engine} {port : SimulatedPort} {world : World SimulatedPort}

/-- On a port that fits, a command opens the tray exactly if it has a packet for that and succeeds.
A command without such a packet spares the tray. -/
theorem exists_runCommand_tray (hfits : engine.Fits port) (command : Command) (memory : Memory) :
    ∃ outcome after changed issued,
      (runCommand command).Yields engine ⟨port, memory⟩ (.ok (outcome, engine))
        ⟨after, changed⟩ issued ∧ engine.Ran port outcome after ∧
      after.drive.trayOpen =
        (port.drive.trayOpen || (outcome.isOk && command.cdb.any Cdb.opens)) ∧
      (command.cdb.any Cdb.opens = false → port.Spared after) := by
  obtain ⟨outcome, after, changed, issued, hyields, hran⟩ :=
    exists_runCommand hfits.steady command memory
  refine ⟨outcome, after, changed, issued, hyields, hran, ?_⟩
  -- The command ends in one way only, so it is enough to look at how it ends in each case.
  have hsame {result : Except CommandError Unit} {port_ : SimulatedPort} {memory_ : Memory}
      {count : Nat} (hended : (runCommand command).Yields engine ⟨port, memory⟩
        (.ok (result, engine)) ⟨port_, memory_⟩ count) : outcome = result ∧ after = port_ := by
    obtain ⟨hone, htwo, -⟩ := hended.unique hyields
    cases hone
    cases htwo
    exact ⟨rfl, rfl⟩
  cases hformed : engine.scatter command with
  | error error =>
    obtain ⟨rfl, rfl⟩ := hsame (yields_runCommand_of_malformed hfits.steady hformed memory)
    exact ⟨(Bool.or_false _).symm, fun _ => .of_same rfl rfl⟩
  | ok entries =>
    cases hprompt : port.busy with
    | true =>
      obtain ⟨rfl, rfl⟩ := hsame (yields_runCommand_of_busy hfits.steady hformed hprompt memory)
      exact ⟨(Bool.or_false _).symm, fun _ => .of_same rfl rfl⟩
    | false =>
      cases hmoving : port.stalled with
      | true =>
        obtain ⟨rfl, rfl⟩ :=
          hsame (yields_runCommand_of_stalled hfits.steady hformed hprompt hmoving memory)
        exact ⟨(Bool.or_false _).symm, fun _ => .of_same rfl rfl⟩
      | false =>
        rcases hrun : port.drive.run (command.fetched 0 entries)
          (engine.build 0 command entries memory) with ⟨ending, drive, changed⟩
        obtain ⟨rfl, rfl⟩ := hsame
          (yields_runCommand_of_run hfits.steady hfits.layout ⟨hprompt, hmoving⟩ hformed hrun)
        have htray := port.drive.trayOpen_run (command.fetched 0 entries)
          (engine.build 0 command entries memory)
        rw [hrun] at htray
        have htray : (port.served engine.areas (command.fetched 0 entries) ending
            drive).drive.trayOpen = (port.drive.trayOpen ||
              ((ending.outcome command.isPacket).isOk && command.cdb.any Cdb.opens)) := by
          refine (ending.trayOpen_explained drive).trans (htray.trans ?_)
          cases ending <;> rfl
        refine ⟨htray, fun hclosed => ⟨?_, [command.cdb], rfl, ?_⟩⟩
        · rw [htray, hclosed, Bool.and_false, Bool.or_false]
        · simpa using hclosed

end EngineM

/-! Steps that leave the tray alone. -/

namespace HostM

/-- A step that leaves the drive as it is and makes it fetch nothing, from any world and however it
ends. -/
def LeavesDrive (step : HostM SimulatedPort α) : Prop :=
  ∀ world, (step.exec world).2.device.drive = world.device.drive ∧
    (step.exec world).2.device.fetched = world.device.fetched

theorem Quiet.leavesDrive {step : HostM SimulatedPort α} (hquiet : step.Quiet) :
    step.LeavesDrive :=
  fun world => ⟨congrArg SimulatedPort.drive (hquiet world).1,
    congrArg SimulatedPort.fetched (hquiet world).1⟩

theorem Touches.leavesDrive {step : HostM SimulatedPort α} {window : Window}
    {reasons : Halt → Prop} (htouches : step.Touches window .restart reasons) :
    step.LeavesDrive := by
  intro world
  refine htouches.keeps (fun later => later.device.drive = world.device.drive ∧
    later.device.fetched = world.device.fetched) (fun _ _ hsame => hsame)
      (fun _ _ hsame => hsame) ?_ world ⟨rfl, rfl⟩
  rintro later offset value (rfl | rfl | rfl) hsame <;> exact hsame

theorem LeavesDrive.bind {step : HostM SimulatedPort α} {next : α → HostM SimulatedPort β}
    (hfirst : step.LeavesDrive) (hsecond : ∀ a, (next a).LeavesDrive) :
    (step >>= next).LeavesDrive := by
  intro world
  have hbefore := hfirst world
  rw [exec_bind]
  rcases hended : step.exec world with ⟨reason | a, after⟩
  · rw [hended] at hbefore
    exact hbefore
  · rw [hended] at hbefore
    obtain ⟨hdrive, hfetched⟩ := hsecond a after
    exact ⟨hdrive.trans hbefore.1, hfetched.trans hbefore.2⟩

theorem leavesDrive_fail (engine : Engine) (label : String) (error : CommandError) :
    (engine.fail label error : HostM SimulatedPort IoError).LeavesDrive := by
  have hends : (pure error.toIoError : HostM SimulatedPort IoError).LeavesDrive :=
    fun _ => ⟨rfl, rfl⟩
  refine (Quiet.note _ (by decide)).leavesDrive.bind fun _ => ?_
  split
  · exact engine.touches_recover.leavesDrive.bind fun _ => hends
  · exact hends

end HostM

namespace EngineM

/-- `HostM.LeavesDrive` of a step on an engine, for every engine. -/
def LeavesDrive (step : EngineM SimulatedPort α) : Prop :=
  ∀ engine world, (step.exec engine world).2.device.drive = world.device.drive ∧
    (step.exec engine world).2.device.fetched = world.device.fetched

namespace LeavesDrive

theorem pure (a : α) : (pure a : EngineM SimulatedPort α).LeavesDrive :=
  fun _ _ => ⟨rfl, rfl⟩

theorem bind {step : EngineM SimulatedPort α} {next : α → EngineM SimulatedPort β}
    (hfirst : step.LeavesDrive) (hsecond : ∀ a, (next a).LeavesDrive) :
    (step >>= next).LeavesDrive := by
  intro engine world
  have hbefore := hfirst engine world
  rw [exec_bind]
  rcases hended : step.exec engine world with ⟨reason | ⟨a, left⟩, after⟩
  · rw [hended] at hbefore
    exact hbefore
  · rw [hended] at hbefore
    obtain ⟨hdrive, hfetched⟩ := hsecond a left after
    exact ⟨hdrive.trans hbefore.1, hfetched.trans hbefore.2⟩

theorem onHost {step : HostM SimulatedPort α} (hleaves : step.LeavesDrive) :
    (onHost step).LeavesDrive := by
  intro engine world
  rw [exec_onHost]
  exact hleaves world

theorem withEngine {step : Engine → HostM SimulatedPort α}
    (hleaves : ∀ engine, (step engine).LeavesDrive) : (withEngine step).LeavesDrive := by
  intro engine world
  rw [exec_withEngine]
  exact onHost (hleaves engine) engine world

theorem readStaging (count : Nat) : (readStaging count).LeavesDrive :=
  withEngine fun _ => ((HostM.Quiet.require _ _).bind fun _ => .inspectMemory _).leavesDrive

end LeavesDrive

/-- Whether a step spares the tray on an engine in a world. -/
def SparesAt (step : EngineM SimulatedPort α) (engine : Engine) (world : World SimulatedPort) :
    Prop :=
  world.device.Spared (step.exec engine world).2.device

theorem LeavesDrive.sparesAt {step : EngineM SimulatedPort α} (hleaves : step.LeavesDrive)
    (engine : Engine) (world : World SimulatedPort) : step.SparesAt engine world :=
  .of_same (hleaves engine world).1 (hleaves engine world).2

/-- Two steps in succession spare the tray if the second does wherever the first can return. -/
theorem SparesAt.bind {step : EngineM SimulatedPort α} {next : α → EngineM SimulatedPort β}
    {engine : Engine} {world : World SimulatedPort} (hfirst : step.SparesAt engine world)
    (hsecond : ∀ a left after, step.exec engine world = (.ok (a, left), after) →
      (next a).SparesAt left after) : (step >>= next).SparesAt engine world := by
  unfold SparesAt at *
  rw [exec_bind]
  rcases hended : step.exec engine world with ⟨reason | ⟨a, left⟩, after⟩
  · rw [hended] at hfirst
    exact hfirst
  · rw [hended] at hfirst
    exact hfirst.trans (hsecond a left after hended)

theorem SparesAt.finish {step : EngineM SimulatedPort α} {next : α → EngineM SimulatedPort β}
    {engine : Engine} {world : World SimulatedPort} (hfirst : step.SparesAt engine world)
    (hsecond : ∀ a, (next a).LeavesDrive) : (step >>= next).SparesAt engine world :=
  hfirst.bind fun a left after _ => (hsecond a).sparesAt left after

variable {engine : Engine} {world : World SimulatedPort}

theorem SparesAt.guard {condition : Bool} {reason : Halt} {next : Unit → EngineM SimulatedPort β}
    (hrest : (next ()).SparesAt engine world) :
    (onHost (HostM.require condition reason) >>= next).SparesAt engine world := by
  cases condition with
  | true => exact hrest
  | false => exact .of_same rfl rfl

/-- A request of one command without a packet for the tray spares the tray. -/
theorem sparesAt_execute (hfits : engine.Fits world.device) {command : Command}
    (hclosed : command.cdb.any Cdb.opens = false) :
    (RequestM.execute command).run.SparesAt engine world := by
  obtain ⟨outcome, port, changed, issued, hyields, -, -, hspared⟩ :=
    exists_runCommand_tray hfits command world.memory
  obtain ⟨after, hended, haround, -⟩ := hyields world rfl
  have hfirst : (runCommand command).SparesAt engine world := by
    rw [SparesAt, show (runCommand command).exec engine world = _ from hended,
      show after.device = port from congrArg Machine.device haround]
    exact hspared hclosed
  rw [RequestM.execute, RequestM.run_onEngine_bind]
  refine hfirst.finish fun outcome => ?_
  cases outcome with
  | ok _ => exact .pure _
  | error error =>
    change (RequestM.onEngine (withEngine (·.fail command.label error)) >>= fun failure =>
      throw failure : RequestM SimulatedPort Unit).run.LeavesDrive
    rw [RequestM.run_onEngine_bind]
    refine LeavesDrive.bind (.withEngine fun engine => ?_) fun _ => .pure _
    exact HostM.leavesDrive_fail engine command.label error

theorem sparesAt_requestSense (hfits : engine.Fits world.device) :
    RequestM.requestSense.run.SparesAt engine world := by
  have hclosed : Command.requestSense.cdb.any Cdb.opens = false := by decide
  rw [RequestM.requestSense, ExceptT.run_bind]
  refine (sparesAt_execute hfits hclosed).finish fun answer => ?_
  cases answer with
  | error error => exact .pure _
  | ok _ =>
    change (RequestM.onEngine (readStaging 18) >>= _ : RequestM SimulatedPort _).run.LeavesDrive
    rw [RequestM.run_onEngine_bind]
    refine (LeavesDrive.readStaging 18).bind fun bytes => ?_
    cases SenseData.parse? bytes with
    | none => exact .pure _
    | some sense => exact fun _ _ => ⟨rfl, rfl⟩

/-- Asking why a packet command failed spares the tray, because REQUEST SENSE does not open it. -/
theorem sparesAt_checkCondition (hfits : engine.Fits world.device) (label : String) :
    (checkCondition label).SparesAt engine world := by
  have hnoted (error : IoError) (explanation : String) :
      (do
        noteSense label error explanation
        return error : EngineM SimulatedPort IoError).LeavesDrive :=
    (LeavesDrive.withEngine fun _ => (HostM.Quiet.note _ (by decide)).leavesDrive).bind fun _ =>
      .pure _
  refine (sparesAt_requestSense hfits).finish fun answer => ?_
  cases answer with
  | ok sense => exact hnoted _ _
  | error error => exact hnoted _ _

/-- What is done about a packet command that failed spares the tray. -/
theorem spared_of_failed (hfits : engine.Fits world.device) {cdb : Cdb} {data : DataPhase}
    {label : String} {failure : CommandError} {later : World SimulatedPort}
    (hrun : (runCommand (.packet cdb data label)).exec engine world =
      (.ok (.error failure, engine), later))
    (hran : engine.Ran world.device (.error failure) later.device) :
    later.device.Spared ((packet cdb data label).exec engine world).2.device := by
  rw [packet, exec_bind_ok hrun]
  cases failure with
  | checkCondition =>
    obtain ⟨_, _, _, hup⟩ := hran.up
    have hrestarts : (withEngine Engine.recover).Yields engine _ _ _ 0 :=
      yields_withEngine (Engine.yields_recover hfits.steady.patient hup later.memory)
    obtain ⟨restarted, hrecovered, haround, -⟩ := hrestarts later rfl
    have hrecovered : (withEngine Engine.recover).exec engine later =
      (.ok ((), engine), restarted) := hrecovered
    have hrested : restarted.device = later.device.rested engine.areas :=
      congrArg Machine.device haround
    have hsettled : engine.Fits restarted.device := by
      rw [hrested]
      exact hfits.follows (hran.rested hfits.steady)
        (hran.follows.trans (later.device.follows_withRegisters _))
    have hexplained := (sparesAt_checkCondition hsettled label).finish
      fun failure => .pure (Except.error failure : Except IoError Unit)
    dsimp only
    rw [exec_bind_ok hrecovered]
    rw [SparesAt, hrested] at hexplained
    have hresting : later.device.Spared (later.device.rested engine.areas) := .of_same rfl rfl
    exact hresting.trans hexplained
  | _ =>
    exact (LeavesDrive.bind (.withEngine fun engine => HostM.leavesDrive_fail engine label _)
      fun _ => .pure _).sparesAt _ _

/-- On a port that fits, a packet command returns, and opens the tray exactly if its packet asks for
that and it succeeds. Without such a packet it spares the tray. If it succeeds, its packet is the
only one that was fetched. -/
theorem exists_packet_tray (hfits : engine.Fits world.device) (cdb : Cdb) (data : DataPhase)
    (label : String) :
    ∃ answer left after, (packet cdb data label).exec engine world = (.ok (answer, left), after) ∧
      left.Fits after.device ∧
      after.device.drive.trayOpen =
        (world.device.drive.trayOpen || (answer.isOk && cdb.opens)) ∧
      (cdb.opens = false → world.device.Spared after.device) ∧
      (answer = .ok () → after.device.packets = some cdb :: world.device.packets) := by
  obtain ⟨answer, left, last, issued, hbrings⟩ := exists_packet_brings hfits cdb data label
  obtain ⟨changed, hyields, -⟩ := hbrings.yields world.memory
  obtain ⟨after, hended, haround, -⟩ := hyields world rfl
  have hended : (packet cdb data label).exec engine world = (.ok (answer, left), after) := hended
  have hdevice : after.device = last := congrArg Machine.device haround
  refine ⟨answer, left, after, hended, hdevice ▸ hbrings.fits.of_told hbrings.left, ?_⟩
  cases answer with
  | ok _ =>
    obtain ⟨-, entries, drive, built, shown, -, hran, rfl⟩ := hbrings.attends.carried rfl
    have htray :=
      world.device.drive.trayOpen_run ((Command.packet cdb data label).fetched 0 entries)
      built
    rw [hran] at htray
    rw [hdevice]
    refine ⟨htray, fun hclosed => ⟨htray.trans ?_, [some cdb], rfl, by simpa using hclosed⟩,
      fun _ => rfl⟩
    simp [Command.fetched, Command.packet, hclosed]
  | error error =>
    obtain ⟨outcome, port, between, issued, hcommanded, hran, htray, hspared⟩ :=
      exists_runCommand_tray hfits (.packet cdb data label) world.memory
    obtain ⟨later, hrun, haroundLater, -⟩ := hcommanded world rfl
    have hrun : (runCommand (.packet cdb data label)).exec engine world =
      (.ok (outcome, engine), later) := hrun
    have hsame : later.device = port := congrArg Machine.device haroundLater
    cases outcome with
    | ok _ =>
      rw [packet, exec_bind_ok hrun] at hended
      cases hended
    | error failure =>
      have hbehind := spared_of_failed hfits hrun (hsame ▸ hran)
      rw [hended, hsame] at hbehind
      refine ⟨hbehind.tray.trans htray, fun hclosed => (hspared hclosed).trans hbehind, ?_⟩
      rintro ⟨⟩

/-- A packet command whose packet does not ask for it spares the tray. -/
theorem sparesAt_packet (hfits : engine.Fits world.device) {cdb : Cdb} (hclosed : cdb.opens = false)
    (data : DataPhase) (label : String) : (packet cdb data label).SparesAt engine world := by
  obtain ⟨answer, left, after, hended, -, -, hspared, -⟩ := exists_packet_tray hfits cdb data label
  rw [SparesAt, hended]
  exact hspared hclosed

/-- A port that fits still does behind an oblivious step that returned. -/
theorem Oblivious.fits {step : EngineM SimulatedPort α} (hoblivious : step.Oblivious)
    (hfits : engine.Fits world.device) {a : α} {left : Engine} {after : World SimulatedPort}
    (hended : step.exec engine world = (.ok (a, left), after)) : left.Fits after.device := by
  obtain ⟨result, last, issued, hforetold, hsettled, htold⟩ := hoblivious engine world.device hfits
  obtain ⟨changed, hyields⟩ := hforetold world.memory
  obtain ⟨later, hagain, haround, -⟩ := hyields world rfl
  rw [show step.exec engine world = _ from hagain] at hended
  cases hended
  rw [show after.device = last from congrArg Machine.device haround]
  exact hsettled.of_told (htold a left rfl)

end EngineM

/-! Requests to a packet drive. -/

/-- A read of blocks is not refused before any command exactly if it names some blocks, and its
first block fits the 32 bits of the packet. Counts too large halt, and are left out here. -/
theorem Submission.readBlocks_accepted_iff {lba blocks : Nat} :
    (Submission.readBlocks lba blocks).objection? = none ↔ 0 < blocks ∧ lba < UInt32.size := by
  rw [objection?]
  split <;> [skip; split] <;> simp <;> omega

/-- A packet of any code but START STOP UNIT does not open the tray. -/
theorem Cdb.opens_of_code {cdb : Cdb} {code : UInt8} (his : cdb.opcode = code)
    (hother : code ≠ startStopCode) : cdb.opens = false := by
  simp [opens, his, hother]

open EngineM (LeavesDrive SparesAt)

variable {engine : Engine} {world : World SimulatedPort}

namespace RequestM

/-- A packet command may be followed by a look at the data it brought. -/
theorem sparesAt_packet (hfits : engine.Fits world.device) {cdb : Cdb} (hclosed : cdb.opens = false)
    (data : DataPhase) (label : String) (count : Nat) {next : List UInt8 → RequestM SimulatedPort β}
    (hrest : ∀ found, (next found).run.LeavesDrive) :
    (packet cdb data label >>= fun _ => onEngine (EngineM.readStaging count) >>= next).run.SparesAt
      engine world := by
  rw [ExceptT.run_bind]
  refine SparesAt.finish (EngineM.sparesAt_packet hfits hclosed data label) fun answer => ?_
  cases answer with
  | error error => exact .pure _
  | ok _ =>
    dsimp only
    rw [run_onEngine_bind]
    exact (LeavesDrive.readStaging count).bind hrest

theorem sparesAt_readBlocks (hfits : engine.Fits world.device) (lba blocks : Nat) :
    (readBlocks lba blocks).run.SparesAt engine world := by
  by_cases hfew : blocks ≤ maxDriveBlocks
  · cases hobjects : (Submission.readBlocks lba blocks).objection? with
    | some error =>
      rw [readBlocks_of_objection hfew hobjects]
      exact LeavesDrive.sparesAt (.pure _) engine world
    | none =>
      obtain ⟨hsome, hlow⟩ := Submission.readBlocks_accepted_iff.1 hobjects
      have hsingle : Haul.readBlocks.Single ⟨lba, blocks⟩ := ⟨hsome, hfew, hlow⟩
      rw [readBlocks_eq hsingle]
      have hcode : (Span.packet ⟨lba, blocks⟩).opcode = Cdb.readCode :=
        Cdb.byte_ofBytes _ (by decide)
      have hkept (found : List UInt8) : (pure found : RequestM SimulatedPort _).run.LeavesDrive :=
        .pure (Except.ok found)
      have hloaded := sparesAt_packet hfits (Cdb.opens_of_code hcode (by decide))
        (.toHost (blocks * driveBlockSize)) "atapi read" (blocks * driveBlockSize) hkept
      rwa [bind_pure] at hloaded
  · rw [readBlocks, decide_eq_false hfew]
    exact LeavesDrive.sparesAt (fun _ _ => ⟨rfl, rfl⟩) engine world

theorem sparesAt_inquiry (hfits : engine.Fits world.device) (length : UInt8) :
    (inquiry length).run.SparesAt engine world := by
  have hcode : (Cdb.inquiry length).opcode = Cdb.inquiryCode := Cdb.byte_ofBytes _ (by decide)
  apply sparesAt_packet hfits (Cdb.opens_of_code hcode (by decide))
  intro found
  cases InquiryData.parse? found <;> exact .pure _

end RequestM

namespace Disk

variable {disk : Disk}

theorem sparesAt_readSpans (hfits : engine.Fits world.device) (spans : List Span)
    (buffer : List UInt8) : (readSpans .drive spans buffer).SparesAt engine world := by
  induction spans generalizing engine world buffer with
  | nil => exact LeavesDrive.sparesAt (.pure _) engine world
  | cons span others ih =>
    apply SparesAt.guard
    refine SparesAt.bind (RequestM.sparesAt_readBlocks hfits span.first span.count)
      fun answer left after hended => ?_
    have hsettled := (RequestM.Oblivious.readBlocks span.first span.count).fits hfits hended
    cases answer with
    | error error => exact LeavesDrive.sparesAt (.pure _) left after
    | ok data =>
      exact SparesAt.guard (SparesAt.guard ((ih hsettled _).finish fun _ => .pure _))

variable {start bytes : Nat} {buffer : List UInt8}

theorem sparesAt_read (hfits : engine.Fits world.device) (hoptical : disk.kind = .drive) :
    (disk.read start bytes buffer).SparesAt engine world := by
  rw [read_eq]
  cases (Submission.read disk start bytes buffer).objection? with
  | some error => exact LeavesDrive.sparesAt (.pure _) engine world
  | none =>
    dsimp only
    rw [hoptical]
    exact sparesAt_readSpans hfits _ _

end Disk

/-- Of the calls on a packet drive only an eject may open the tray. -/
theorem DiskCall.sparesAt_run (hfits : engine.Fits world.device) {disk : Disk}
    (hoptical : disk.kind = .drive) {call : DiskCall} (hother : call ≠ .eject) :
    (call.run disk).SparesAt engine world := by
  have hdrive : disk.isOptical = true := by rw [Disk.isOptical, hoptical]
  cases call with
  | read start bytes buffer => exact (Disk.sparesAt_read hfits hoptical).finish fun _ => .pure _
  | write start bytes buffer =>
    rw [run, Disk.write_eq, Submission.objection?, if_pos hdrive]
    exact LeavesDrive.sparesAt (fun _ _ => ⟨rfl, rfl⟩) engine world
  | clear start bytes =>
    rw [run, Disk.clear, Disk.trimSupport, hoptical]
    exact LeavesDrive.sparesAt (fun _ _ => ⟨rfl, rfl⟩) engine world
  | eject => exact absurd rfl hother
  | requestSense =>
    rw [run, Disk.requestSense, if_pos hdrive, map_eq_pure_bind]
    exact (EngineM.sparesAt_requestSense hfits).finish fun _ => .pure _

theorem Disk.sparesAt_probe (hfits : engine.Fits world.device) {port : Port}
    (hattached : port.attachment = .packetDrive) : (probe port).SparesAt engine world := by
  have hidentified : (identifyDrive port).SparesAt engine world := by
    refine (RequestM.sparesAt_inquiry hfits InquiryData.probeLength).finish fun answer => ?_
    cases answer with
    | ok inquiry => exact .pure _
    | error error =>
      exact (LeavesDrive.withEngine fun _ => (HostM.Quiet.note _ (by decide)).leavesDrive).bind
        fun _ => .pure _
  have hannounced (disk : Disk) : (probe.announce port disk "ATAPI").LeavesDrive :=
    (LeavesDrive.onHost (HostM.Quiet.note _ (by decide)).leavesDrive).bind fun _ => .pure _
  rw [probe, hattached]
  exact hidentified.finish hannounced

end Ahci
