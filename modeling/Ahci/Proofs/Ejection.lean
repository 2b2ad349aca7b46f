import Ahci.Proofs.Tray

/-!
Ejecting. An eject is two packet commands: the tray is unlocked, and only where that succeeded is
it opened. By induction over a run, the tray is open just where an eject of the run has succeeded,
and a drive with an open tray has no blocks to read: from then on, every read leaves the buffer of
its caller as it was.
-/

namespace Ahci

open EngineM (packet)

/-! The two steps of an eject. -/

/-- How an eject goes, with its answer and the state it ends in. It unlocks the tray with one packet
command, and only if that succeeds asks to open it with another; the first failure is its answer.
Only the last rule opens the tray, and only there both packets were fetched, one behind the
other. -/
inductive Engine.Ejects (engine : Engine) (world : World SimulatedPort) :
    Except IoError Unit → EjectState → Engine → World SimulatedPort → Prop where
  /-- The tray could not be unlocked, and the drive is not asked to open it. -/
  | locked {error : IoError} {left : Engine} {after : World SimulatedPort}
      (hfailed : (packet (.preventAllow false) .none "allow medium removal").exec engine world =
        (.ok (.error error, left), after))
      (hspared : world.device.Spared after.device) :
      Ejects engine world (.error error) .failed left after
  /-- The tray was unlocked and could not be opened. -/
  | shut {error : IoError} {between left : Engine} {halfway after : World SimulatedPort}
      (hunlocked : (packet (.preventAllow false) .none "allow medium removal").exec engine world =
        (.ok (.ok (), between), halfway))
      (hfailed : (packet (.startStop true true false) .none "eject").exec between halfway =
        (.ok (.error error, left), after))
      (htray : after.device.drive.trayOpen = world.device.drive.trayOpen) :
      Ejects engine world (.error error) .failed left after
  | opened {between left : Engine} {halfway after : World SimulatedPort}
      (hunlocked : (packet (.preventAllow false) .none "allow medium removal").exec engine world =
        (.ok (.ok (), between), halfway))
      (hejected : (packet (.startStop true true false) .none "eject").exec between halfway =
        (.ok (.ok (), left), after))
      (htray : after.device.drive.trayOpen = true)
      (hpackets : after.device.packets = some (.startStop true true false) ::
        some (.preventAllow false) :: world.device.packets) :
      Ejects engine world (.ok ()) .ejected left after

namespace EngineM

variable {engine left : Engine} {world after : World SimulatedPort}
  {answer : Except IoError Unit} {state : EjectState}

/-- On a port that fits, every eject returns and goes in one of the three ways. -/
theorem exists_ejects (hfits : engine.Fits world.device) :
    ∃ answer state left after,
      (Eject.sequence fun cdb label => packet cdb .none label).exec engine world =
        (.ok ((answer, state), left), after) ∧
      engine.Ejects world answer state left after := by
  obtain ⟨first, between, halfway, hunlocked, hfits, htray, hspared, hsent⟩ :=
    exists_packet_tray hfits Eject.allow.1 .none Eject.allow.2
  rw [Eject.sequence]
  cases first with
  | error error =>
    exact ⟨_, _, between, halfway, by rw [exec_bind_ok hunlocked]; rfl,
      .locked hunlocked (hspared Eject.opens_allow)⟩
  | ok _ =>
    rw [Eject.opens_allow, Bool.and_false, Bool.or_false] at htray
    obtain ⟨second, left, after, hended, -, hlast, -, hfurther⟩ :=
      exists_packet_tray hfits Eject.opening.1 .none Eject.opening.2
    rw [Eject.opens_opening, Bool.and_true, htray] at hlast
    have hboth : (Eject.sequence fun cdb label => packet cdb .none label).exec engine world =
        _ := (exec_bind_ok hunlocked).trans (exec_bind_ok hended)
    rw [Eject.sequence] at hboth
    cases second with
    | error error =>
      exact ⟨_, _, left, after, hboth, .shut hunlocked hended (hlast.trans (Bool.or_false _))⟩
    | ok _ =>
      exact ⟨_, _, left, after, hboth, .opened hunlocked hended (hlast.trans (Bool.or_true _))
        ((hfurther rfl).trans (congrArg _ (hsent rfl)))⟩

end EngineM

/-- Behind an eject the tray is open exactly if it was open before or the eject succeeded. -/
theorem Engine.Ejects.tray_iff {engine left : Engine} {world after : World SimulatedPort}
    {answer : Except IoError Unit} {state : EjectState}
    (hejects : engine.Ejects world answer state left after) :
    after.device.drive.trayOpen = true ↔
      world.device.drive.trayOpen = true ∨ answer = .ok () := by
  cases hejects with
  | locked _ hspared => simp [hspared.tray]
  | shut _ _ htray => simp [htray]
  | opened _ _ htray => simp [htray]

/-! Ejects and reads on a site. -/

namespace RequestM

variable {engine : Engine} {world : World SimulatedPort}

/-- An eject takes its two steps and then logs the state they ended in, which is all it does
besides. -/
theorem exec_eject {answer : Except IoError Unit} {state : EjectState} {left : Engine}
    {after : World SimulatedPort}
    (hended : (Eject.sequence fun cdb label => EngineM.packet cdb .none label).exec engine world =
      (.ok ((answer, state), left), after)) :
    eject.run.exec engine world = (.ok (answer, left), { after with
      log := after.log.record .debug (left.title ++ " eject sequence ended " ++ state.name) }) := by
  rw [eject, run_onEngine_bind, EngineM.exec_bind_ok hended]
  rfl

end RequestM

namespace Site

variable {site : Site} {disk : Disk}

/-- An eject on a site goes in one of the three ways, logs the state it ended in, and answers with
the result of the steps. -/
def Ejects (site : Site) (disk : Disk) (answer : Except IoError Unit) : Prop :=
  ∃ state left after later, site.engine.Ejects site.world answer state left after ∧
    (HostM.note .debug (left.title ++ " eject sequence ended " ++ state.name)).exec after =
      (.ok (), later) ∧
    site.exec (.onDisk .eject) =
      (.ok ((.ofRequest (fun _ => .ok) answer, some disk), left), later)

theorem exists_ejects (hknown : site.disk? = some disk) (hoptical : disk.kind = .drive)
    (hfits : site.engine.Fits site.world.device) : ∃ answer, site.Ejects disk answer := by
  obtain ⟨answer, state, left, after, hended, hejects⟩ := EngineM.exists_ejects hfits
  refine ⟨answer, state, left, after, _, hejects, rfl, exec_onDisk_of_exec hknown ?_⟩
  have hdrive : disk.isOptical = true := by rw [Disk.isOptical, hoptical]
  rw [DiskCall.run, Disk.eject, if_pos hdrive, map_eq_pure_bind,
    EngineM.exec_bind_ok (RequestM.exec_eject hended)]
  rfl

end Site

/-! Reads while the tray is open. -/

section Open

variable {engine : Engine} {world : World SimulatedPort}

/-- While the tray is open, a read of blocks fails. If it does anything at all, on a port that is
neither busy nor stalled and without a fault queued, it fails for want of a medium. -/
theorem RequestM.exists_readBlocks_of_open (hfits : engine.Fits world.device)
    (hkind : world.device.drive.kind = .packetDrive)
    (hopened : world.device.drive.trayOpen = true) (lba : Nat) {blocks : Nat}
    (hfew : blocks ≤ maxDriveBlocks) :
    ∃ error left after, (readBlocks lba blocks).run.exec engine world =
        (.ok (.error error, left), after) ∧
      (after ≠ world → world.device.Willing →
        world.device.drive.takeFault Opcode.packet = none → error = .noMedia) := by
  cases hobjects : (Submission.readBlocks lba blocks).objection? with
  | some error =>
    rw [readBlocks_of_objection hfew hobjects]
    exact ⟨error, engine, world, rfl, fun hchanged => absurd rfl hchanged⟩
  | none =>
    obtain ⟨hsome, hlow⟩ := Submission.readBlocks_accepted_iff.1 hobjects
    have hsingle : Haul.readBlocks.Single ⟨lba, blocks⟩ := ⟨hsome, hfew, hlow⟩
    obtain ⟨answer, left, last, issued, hsettles, -⟩ :=
      exists_settles_readBlocks hfits (Nat.ne_of_gt hsome) hfew hlow
    obtain ⟨changed, hyields⟩ := hsettles.passes.foretold world.memory
    obtain ⟨after, hended, -⟩ := hyields world rfl
    cases answer with
    | ok data =>
      have hcarries := (Haul.carriesOut_iff hsingle hkind).1 (hsettles.attends.done.1 rfl)
      exact absurd (hcarries.drive.closed hkind) (by simp [hopened])
    | error error =>
      refine ⟨error, left, after, hended, fun _ hwilling huntouched => ?_⟩
      have hdeclined : world.device.drive.declines? ⟨lba, blocks⟩ = some .noMedia := by
        rw [Drive.declines?, if_neg (Nat.not_le_of_lt hlow), if_pos hopened]
      obtain ⟨_, _, _, _, htold, -⟩ := exists_readBlocks_of_declined
        ⟨hfits, hwilling, hkind, huntouched⟩ hsome hfew hdeclined world.memory
      obtain ⟨hsame, -⟩ := hyields.unique htold
      cases hsame
      rfl

/-- While the tray is open, a read returns its buffer as it was. It fails, unless it is turned down
or has no blocks to move and nothing happens. -/
theorem Disk.exists_read_of_open (hfits : engine.Fits world.device)
    (hkind : world.device.drive.kind = .packetDrive)
    (hopened : world.device.drive.trayOpen = true) {disk : Disk} (hoptical : disk.kind = .drive)
    (start bytes : Nat) (buffer : List UInt8) :
    ∃ answer left after, (disk.read start bytes buffer).exec engine world =
        (.ok ((answer, buffer), left), after) ∧
      (after ≠ world → ∃ error, answer = .error error ∧ (world.device.Willing →
        world.device.drive.takeFault Opcode.packet = none → error = .noMedia)) := by
  rw [read_eq]
  cases (Submission.read disk start bytes buffer).objection? with
  | some error => exact ⟨.error error, engine, world, rfl, fun hchanged => absurd rfl hchanged⟩
  | none =>
    dsimp only
    rw [hoptical, EngineM.exec_bind_ok rfl]
    change ∃ answer left after, (readSpans .drive ((disk.moves (.read start bytes buffer)).cut
      (engine.config.chunk maxDriveBlocks)) buffer).exec engine world = _ ∧ _
    have hsize : disk.blockSize = driveBlockSize := by
      rw [blockSize, hoptical]
      rfl
    have hpos := engine.config.chunk_pos maxDriveBlocks
    have htiles := Span.tiles_cut hpos (disk.moves (.read start bytes buffer))
    cases hpieces : (disk.moves (.read start bytes buffer)).cut
        (engine.config.chunk maxDriveBlocks) with
    | nil => exact ⟨.ok 0, engine, world, rfl, fun hchanged => absurd rfl hchanged⟩
    | cons piece others =>
      rw [hpieces] at htiles
      obtain ⟨-, hshort, -⟩ := htiles.within hpos piece List.mem_cons_self
      obtain ⟨count, hwhole, -⟩ := htiles.behind
      have hfit : piece.count * driveBlockSize ≤ buffer.length := by
        have hcounts := congrArg Span.count hwhole
        simp only [moves, hsize] at hcounts
        have hroom : piece.count ≤ buffer.length / driveBlockSize := by omega
        exact Nat.le_trans (Nat.mul_le_mul_right _ hroom) (Nat.div_mul_le_self _ _)
      obtain ⟨error, left, after, hended, hfutile⟩ := RequestM.exists_readBlocks_of_open hfits hkind
        hopened piece.first (Nat.le_trans hshort (engine.config.chunk_le (by decide)))
      refine ⟨.error error, left, after, ?_, fun hchanged => ⟨error, rfl, hfutile hchanged⟩⟩
      have henough : decide (piece.count * DiskKind.drive.blockSize ≤ buffer.length) = true :=
        decide_eq_true hfit
      have hgranted : (EngineM.onHost (HostM.require true .outOfBounds) :
          EngineM SimulatedPort Unit).exec engine world = (.ok ((), engine), world) := rfl
      rw [readSpans, henough, EngineM.exec_bind_ok hgranted, readChunk, EngineM.exec_bind_ok hended]
      rfl

end Open

/-! The tray over a run. -/

/-- An event that is no direct call on the engine of the port. Such calls could send the drive any
packet. -/
def Event.ThroughDisk : Event → Prop
  | .called (.onEngine _) => False
  | _ => True

theorem Switch.trayOpen_apply (switch : Switch) (port : SimulatedPort) :
    (switch.apply port).drive.trayOpen = port.drive.trayOpen := by
  cases switch <;> rfl

namespace Site

variable {config : Config} {start : World SimulatedPort} {site : Site}

/-- Whether an eject among some events, made one behind the other from a site on, succeeds. -/
def Opens (site : Site) (events : List Event) : Prop :=
  ∃ early others, events = early ++ .called (.onDisk .eject) :: others ∧
    ∃ known left later,
      (site.run early).exec (.onDisk .eject) = (.ok ((.ok, known), left), later)

theorem not_opens_nil : ¬ site.Opens [] := by
  rintro ⟨early, others, hcut, -⟩
  cases early <;> cases hcut

/-- Some events open the tray if the first does, or the others do behind it. -/
theorem opens_cons {event : Event} {events : List Event} :
    site.Opens (event :: events) ↔ site.Opens [event] ∨ (site.after event).Opens events := by
  constructor
  · rintro ⟨early, others, hcut, hsucceeds⟩
    cases early with
    | nil =>
      cases hcut
      exact .inl ⟨[], [], rfl, hsucceeds⟩
    | cons first early =>
      cases hcut
      exact .inr ⟨early, others, rfl, hsucceeds⟩
  · rintro (⟨early, others, hcut, hsucceeds⟩ | ⟨early, others, rfl, hsucceeds⟩)
    · cases early with
      | nil =>
        cases hcut
        exact ⟨[], events, rfl, hsucceeds⟩
      | cons first early => cases early <;> cases hcut
    · exact ⟨event :: early, others, rfl, hsucceeds⟩

theorem opens_singleton {event : Event} : site.Opens [event] ↔
    event = .called (.onDisk .eject) ∧
      ∃ known left later, site.exec (.onDisk .eject) = (.ok ((.ok, known), left), later) := by
  constructor
  · rintro ⟨early, others, hcut, hsucceeds⟩
    cases early with
    | nil =>
      cases hcut
      exact ⟨rfl, hsucceeds⟩
    | cons first early => cases early <;> cases hcut
  · rintro ⟨rfl, hsucceeds⟩
    exact ⟨[], [], rfl, hsucceeds⟩

/-- A call through the disk other than an eject leaves the tray as it is, and sends no packet that
would open it. -/
theorem sparesAt_call (hfits : site.engine.Fits site.world.device) (hknows : site.Knows)
    (hkind : site.world.device.drive.kind = .packetDrive) {call : Call}
    (hthrough : (Event.called call).ThroughDisk) (hother : call ≠ .onDisk .eject) :
    (call.run site.port site.disk?).SparesAt site.engine site.world := by
  cases call with
  | probe =>
    have hattached : site.port.attachment = .packetDrive := by
      rw [hknows.attached, SimulatedPort.attachment_eq, hkind]
    refine (Disk.sparesAt_probe hfits hattached).finish fun answer => ?_
    cases answer <;> exact .pure _
  | onDisk call =>
    cases hknown : site.disk? with
    | none => exact EngineM.LeavesDrive.sparesAt (.pure _) _ _
    | some disk =>
      obtain ⟨hoptical, -⟩ := (hknows.device disk hknown).of_packetDrive hkind
      change ((·, some disk) <$> call.run disk).SparesAt _ _
      rw [map_eq_pure_bind]
      exact (DiskCall.sparesAt_run hfits hoptical fun hsame => hother (congrArg _ hsame)).finish
        fun _ => .pure _
  | onEngine step => exact hthrough.elim

/-- Behind an event the tray is open exactly if it was open before, or the event is an eject that
succeeds. -/
theorem tray_after (hfits : site.engine.Fits site.world.device) (hknows : site.Knows)
    (hkind : site.world.device.drive.kind = .packetDrive) {event : Event}
    (hthrough : event.ThroughDisk) :
    (site.after event).world.device.drive.trayOpen = true ↔
      site.world.device.drive.trayOpen = true ∨ site.Opens [event] := by
  rw [opens_singleton]
  cases event with
  | switched switch => simp [after, switch.trayOpen_apply]
  | called call =>
    rw [world_after]
    by_cases heject : call = .onDisk .eject
    · subst heject
      cases hknown : site.disk? with
      | none =>
        have hnothing : site.exec (.onDisk .eject) =
            (.ok ((.noHandle, none), site.engine), site.world) := by
          rw [exec, hknown]
          rfl
        simp [hnothing]
      | some disk =>
        obtain ⟨hoptical, -⟩ := (hknows.device disk hknown).of_packetDrive hkind
        obtain ⟨answer, state, left, later, last, hejects, hnoted, hended⟩ :=
          exists_ejects hknown hoptical hfits
        have hdevice : last.device = later.device := by
          rw [HostM.exec_note] at hnoted
          cases hnoted
          rfl
        rw [hended, hdevice, hejects.tray_iff]
        cases answer <;> simp [Bench.Outcome.ofRequest]
    · have hspared := (sparesAt_call hfits hknows hkind hthrough heject).tray
      have hspared : (site.exec call).2.device.drive.trayOpen =
        site.world.device.drive.trayOpen := hspared
      simp [hspared, heject]

/-- By induction on the events, behind an allowed run on a packet drive the tray is open exactly if
it was open before or an eject of the run succeeded. -/
theorem tray_run (hreached : Reached config start site) (hknows : site.Knows)
    (hsound : site.engine.areas.Sound) (hregular : start.device.drive.Regular)
    (hkind : start.device.drive.kind = .packetDrive) {events : List Event}
    (hallowed : ∀ event ∈ events, event.Allowed config)
    (hthrough : ∀ event ∈ events, event.ThroughDisk) :
    (site.run events).world.device.drive.trayOpen = true ↔
      site.world.device.drive.trayOpen = true ∨ site.Opens events := by
  induction events generalizing site with
  | nil => simp [run, not_opens_nil]
  | cons event events ih =>
    have hnext := hreached.after (hallowed event List.mem_cons_self)
    have hfits := hreached.fits hsound hregular
    have hsame : (site.after event).engine.areas = site.engine.areas :=
      (hnext.areas hreached.granted)
    have hstill : site.world.device.drive.kind = .packetDrive :=
      (congrArg Prod.fst hreached.nameplate).trans hkind
    have hrest := ih hnext (hknows.after hreached hfits (hallowed event List.mem_cons_self))
      (hsame ▸ hsound) (fun other hmember => hallowed other (List.mem_cons_of_mem event hmember))
      fun other hmember => hthrough other (List.mem_cons_of_mem event hmember)
    rw [tray_after hfits hknows hstill (hthrough event List.mem_cons_self), or_assoc,
      ← opens_cons] at hrest
    exact hrest

end Site

/-! A packet drive that ejects. -/

section Ejecting

variable {engine : Engine} {port : SimulatedPort}

/-- A packet command without data that the drive carries out succeeds with one command. -/
theorem EngineM.exists_packet_of_done (hattentive : engine.Attentive port) (cdb : Cdb)
    (label : String) (drive : Drive)
    (hdone : ∀ memory, port.drive.runPacket cdb [] memory = (.done, drive, memory))
    (memory : Memory) :
    ∃ after changed, (packet cdb .none label).Yields engine ⟨port, memory⟩
        (.ok (.ok (), engine)) ⟨after, changed⟩ 1 ∧ engine.Serves port drive after := by
  obtain ⟨hsteady, -, hlayout, -⟩ := hattentive.fits
  let command := Command.packet cdb .none label
  have hran := (Drive.run_packet hattentive.kind hattentive.untouched cdb .none label []
    (engine.build 0 command [] memory)).trans (hdone _)
  exact ⟨_, _, yields_packet_of_ok (yields_runCommand_of_run hsteady hlayout hattentive.willing rfl
    hran), Engine.serves_served hsteady (command.fetched 0 []) drive⟩

/-- On an attentive port an eject succeeds with two commands, and leaves the drive with its tray
open. -/
theorem RequestM.exists_eject (hattentive : engine.Attentive port) (memory : Memory) :
    ∃ after changed, eject.Yields engine ⟨port, memory⟩ (.ok (.ok (), engine)) ⟨after, changed⟩ 2 ∧
      engine.Serves port { port.drive with trayOpen := true } after := by
  obtain ⟨halfway, between, hunlocked, hserves⟩ := EngineM.exists_packet_of_done hattentive
    Eject.allow.1 Eject.allow.2 port.drive (fun _ => rfl) memory
  obtain ⟨after, changed, hejected, hserved⟩ := EngineM.exists_packet_of_done
    (hattentive.of_serves hserves) Eject.opening.1 Eject.opening.2
    { halfway.drive with trayOpen := true } (fun _ => rfl) between
  rw [hserves.drive] at hserved
  refine ⟨after, changed, ?_, hserves.trans hserved⟩
  have hsequence : (Eject.sequence fun cdb label => EngineM.packet cdb .none label).Yields engine
      ⟨port, memory⟩ (.ok ((.ok (), .ejected), engine)) ⟨after, changed⟩ 2 := by
    rw [Eject.sequence]
    exact hunlocked.bind (n := 1) (hejected.finish (EngineM.yields_pure _ engine _))
  have hnoted : (withEngine fun engine => HostM.note .debug
      (engine.title ++ " eject sequence ended " ++ EjectState.ejected.name)).Yields engine
        ⟨after, changed⟩ (.ok (.ok (), engine)) ⟨after, changed⟩ 0 :=
    yields_withEngine (HostM.yields_note _ (by decide) _)
  exact (yields_onEngine hsequence).finish (hnoted.seq (yields_pure () engine _))

end Ejecting

namespace Site

/-- A packet drive whose tray was closed when its port was brought up, behind any allowed run of
events that are made through its disk. Every eject goes in one of three ways: it asks to open the
tray only if unlocking it succeeded, and answers with the failure of its last step. The tray is open
exactly if an eject of the run succeeded. From then on no read, whatever its range and buffer,
changes its buffer; a read that does anything at all fails, and fails for want of a medium if the
port is neither busy nor stalled and no fault is queued for packets. Nothing closes a tray here,
since the driver has no command for that. -/
theorem tray_packetDrive {number slots : Nat} {config : Config}
    {start ready : World SimulatedPort} {port : Port} {engine : Engine} (hpos : 1 ≤ slots)
    (hdown : start.device.registers.cmd = 0)
    (hbounded : start.device.stalled = true → config.completionLimit.isSome = true)
    (hregular : start.device.drive.Regular) (hkind : start.device.drive.kind = .packetDrive)
    (hclosed : start.device.drive.trayOpen = false)
    (hup : (HostM.bringUp (.port number) number slots config).exec start =
      (.ok (.ok (port, engine)), ready))
    (hsound : engine.areas.Sound) {events : List Event}
    (hallowed : ∀ event ∈ events, event.Allowed config)
    (hthrough : ∀ event ∈ events, event.ThroughDisk)
    {site : Site} (hreached : site = Site.run { port, engine, world := ready } events) :
    let began : Site := { port, engine, world := ready }
    let drive := site.world.device.drive
    (∀ disk, site.disk? = some disk → ∃ answer, site.Ejects disk answer) ∧
    (drive.trayOpen = true ↔ began.Opens events) ∧
    (began.Opens events → ∀ disk, site.disk? = some disk → ∀ first bytes buffer,
      ∃ answer left later, site.exec (.onDisk (.read first bytes buffer)) =
          (.ok ((.read answer buffer, some disk), left), later) ∧
        (later ≠ site.world → ∃ error, answer = .error error ∧
          (site.world.device.Willing → drive.takeFault Opcode.packet = none →
            error = .noMedia))) := by
  intro began drive
  have hhead := fits_and_knows_run hpos hdown hbounded hregular hup hsound hallowed
  rw [← hreached] at hhead
  obtain ⟨hcame, hfits, hknows⟩ := hhead
  have hsame : drive.kind = .packetDrive := (congrArg Prod.fst hcame.nameplate).trans hkind
  have hbrought := HostM.broughtUp_of_exec hdown hup
  have hopens : drive.trayOpen = true ↔ began.Opens events := by
    have htray :=
      tray_run (reached_of_bringUp hpos hbounded hbrought) (knows_of_bringUp hbrought) hsound
      hregular hkind hallowed hthrough
    have hshut : ready.device.drive.trayOpen = false := by
      rw [hbrought.device]
      exact hclosed
    rw [← hreached, hshut] at htray
    simpa using htray
  refine ⟨fun disk hknown => ?_, hopens, fun hsucceeded disk hknown first bytes buffer => ?_⟩
  · exact exists_ejects hknown ((hknows.device disk hknown).of_packetDrive hsame).1 hfits
  · obtain ⟨answer, left, later, hended, hfails⟩ := Disk.exists_read_of_open hfits hsame
      (hopens.2 hsucceeded) ((hknows.device disk hknown).of_packetDrive hsame).1 first bytes buffer
    refine ⟨answer, left, later, exec_onDisk_of_exec hknown ?_, hfails⟩
    rw [DiskCall.run, EngineM.exec_bind_ok hended]
    rfl

/-- The hypotheses are met by a packet drive that is identified and ejects: its tray is open, and a
read of its second block leaves the buffer as it was. -/
theorem tray_packetDrive_after_eject :
    let config : Config := { readyLimit := 1 }
    let buffer := List.replicate 2048 (0xEE : UInt8)
    ∃ port engine ready disk, (HostM.bringUp (.port 0) 0 1 config).exec
        (World.around (.packetDrive (.blank driveBlockSize 5))) =
          (.ok (.ok (port, engine)), ready) ∧
      let site := Site.run { port, engine, world := ready }
        [.called .probe, .called (.onDisk .eject)]
      site.world.device.drive.trayOpen = true ∧
        ∃ answer left later, site.exec (.onDisk (.read 1 2048 buffer)) =
          (.ok ((.read answer buffer, some disk), left), later) := by
  intro config buffer
  let medium := Medium.blank driveBlockSize 5
  obtain ⟨port, engine, ready, disk, hup, hsound, hknown, hattentive, -⟩ :=
    exists_identified (show medium.blockSize = driveBlockSize from rfl)
      (show 0 < config.readyLimit.toNat by decide)
  let began : Site := { port, engine, world := ready }
  let probed := began.run [.called .probe]
  have hoptical : disk.isOptical = true := by
    have hregular := regular_packetDrive (show medium.blockSize = driveBlockSize from rfl)
    obtain ⟨-, -, hknows⟩ := fits_and_knows_run (Nat.le_refl 1) rfl (by simp [World.around])
      hregular hup hsound (show ∀ event ∈ [Event.called .probe], event.Allowed config by
        simp [Event.Allowed])
    rw [Disk.isOptical, ((hknows.device disk hknown).of_packetDrive hattentive.kind).1]
  obtain ⟨last, changed, hejected, -⟩ := RequestM.exists_eject hattentive probed.world.memory
  have hcall : (DiskCall.eject.run disk).Yields probed.engine probed.world.machine
      (.ok (.ok, probed.engine)) ⟨last, changed⟩ 2 := by
    rw [DiskCall.run, Disk.eject, if_pos hoptical]
    exact EngineM.Yields.map hejected _
  obtain ⟨later, hended, -⟩ := exec_onDisk hknown hcall
  refine ⟨port, engine, ready, disk, hup, ?_⟩
  let events : List Event := [.called .probe, .called (.onDisk .eject)]
  obtain ⟨-, hopens, hreads⟩ := tray_packetDrive (Nat.le_refl 1) rfl (by simp [World.around])
    (regular_packetDrive (show medium.blockSize = driveBlockSize from rfl)) rfl rfl hup hsound
    (show ∀ event ∈ events, event.Allowed config by simp [events, Event.Allowed])
    (show ∀ event ∈ events, event.ThroughDisk by simp [events, Event.ThroughDisk]) rfl
  have hsucceeds : began.Opens events :=
    ⟨[.called .probe], [], rfl, some disk, probed.engine, later, hended⟩
  have hknown : (began.run events).disk? = some disk := by
    change (probed.after (.called (.onDisk .eject))).disk? = some disk
    rw [after, hended]
  obtain ⟨answer, left, behind, hfound, -⟩ := hreads hsucceeds disk hknown 1 2048 buffer
  exact ⟨hopens.2 hsucceeds, answer, left, behind, hfound⟩

end Site

end Ahci
