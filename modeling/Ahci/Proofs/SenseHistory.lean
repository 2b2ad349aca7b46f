import Ahci.Proofs.PortService
import Ahci.Proofs.Runs

/-!
Sense data over the runs of a packet drive. A packet command that ends in a check condition is
followed by one request for sense data, which the drive answers unless a failure is queued for
that too. By induction over the packet calls of a run, what the driver keeps at any time is
what the last successful request for sense data was answered with.
-/

namespace Ahci

/-- The command with which sense data is asked for. -/
def Command.requestSense : Command :=
  .packet (.requestSense SenseData.requestLength) (.toHost SenseData.requestLength.toNat)
    "request sense"

namespace Drive

variable {drive left : Drive}

/-- What a packet drive has to say of its last failure; if there is none to be explained it says
so. -/
def explanation (drive : Drive) : SenseData :=
  let sense := drive.pendingSense.getD ⟨0, 0, 0⟩
  { sense with key := sense.key &&& 0x0F }

/-- What a packet drive answers the next request for sense data with, if it does: nothing where a
failure is queued for that request. -/
def tells? (drive : Drive) : Option SenseData :=
  match drive.takeFault Opcode.packet with
  | none => some drive.explanation
  | some _ => none

theorem parse?_senseAnswer (drive : Drive) :
    SenseData.parse? (senseAnswer drive.pendingSense) = some drive.explanation := rfl

/-- A request for sense data that is carried out places the explanation in memory, and the drive
forgets it. -/
theorem run_requestSense (hkind : drive.kind = .packetDrive)
    (huntouched : drive.takeFault Opcode.packet = none) (entries : List ScatterEntry)
    (memory : Memory) :
    drive.run (Command.requestSense.fetched 0 entries) memory =
      (.done, { drive with pendingSense := none },
        scatterData entries (senseAnswer drive.pendingSense) memory) := by
  have hpacket : (Command.requestSense.fetched 0 entries).fis.opcode = Opcode.packet := rfl
  have hsound : drive.runSound (Command.requestSense.fetched 0 entries) memory =
      drive.runPacket (.requestSense SenseData.requestLength) entries memory := by
    rw [runSound, hkind]
    exact if_pos hpacket
  have hcode : (Cdb.requestSense SenseData.requestLength).opcode = Cdb.requestSenseCode := by decide
  have hlength : ((Cdb.requestSense SenseData.requestLength).byte 4).toNat = 18 := by decide
  rw [run, hpacket, huntouched]
  dsimp only
  rw [hsound, runPacket, hcode, hlength, if_neg (by decide), if_pos rfl]
  rfl

/-- A command that meets a queued failure does not end well, moves no data, and uses up that
failure. -/
theorem run_of_fault {opcode : UInt8} {fault : Fault}
    (htaken : drive.takeFault opcode = some (fault, left)) {command : FetchedCommand}
    (hcode : command.fis.opcode = opcode) (memory : Memory) :
    ∃ ending, ending ≠ .done ∧ drive.run command memory = (ending, left, memory) := by
  rw [run, hcode, htaken]
  cases fault with
  | taskFile error => exact ⟨.taskFile error, by simp, rfl⟩
  | sense sense => exact ⟨.checkCondition sense, by simp, rfl⟩

end Drive

namespace RequestM

variable {engine : Engine} {port : SimulatedPort}

/-- A request for sense data is one command, and brings what the drive tells; what it brings is what
the engine keeps. The port has to be steady, willing and in front of a packet drive. -/
theorem exists_requestSense (hsteady : engine.Steady port) (hsized : engine.areas.Sized)
    (hlayout : engine.areas.Layout) (hwilling : port.Willing)
    (hkind : port.drive.kind = .packetDrive) (memory : Memory) :
    ∃ answer after changed entries,
      requestSense.Yields engine ⟨port, memory⟩
        (.ok (answer, engine.told answer.toOption)) ⟨after, changed⟩ 1 ∧
      answer.toOption = port.drive.tells? ∧
      after.fetched = Command.requestSense.fetched 0 entries :: port.fetched := by
  obtain ⟨entries, hformed⟩ : ∃ entries, engine.scatter .requestSense = .ok entries :=
    ScatterList.exists_build _ _ (by decide) (by decide) (by decide)
  cases hqueued : port.drive.takeFault Opcode.packet with
  | none =>
    have hran := Drive.run_requestSense hkind hqueued entries
      (engine.build 0 .requestSense entries memory)
    have hlength : (Drive.senseAnswer port.drive.pendingSense).length = 18 := rfl
    obtain ⟨changed, hyields, htaken⟩ := exists_receive hsteady hsized hlayout hwilling hformed
      (congrArg DataPhase.toHost hlength.symm) (by rw [hlength]; decide) hran
    let after := port.served engine.areas (Command.requestSense.fetched 0 entries) .done
      { port.drive with pendingSense := none }
    refine ⟨.ok port.drive.explanation, after, changed, entries, hyields.finish (htaken.seq ?_), ?_,
      rfl⟩
    · rw [Drive.parse?_senseAnswer]
      exact yields_remember _ engine _
    · rw [Drive.tells?, hqueued]
      rfl
  | some taken =>
    obtain ⟨fault, left⟩ := taken
    obtain ⟨ending, hfailed, hran⟩ := Drive.run_of_fault hqueued
      (show (Command.requestSense.fetched 0 entries).fis.opcode = Opcode.packet from rfl)
      (engine.build 0 .requestSense entries memory)
    obtain ⟨error, hshown, houtcome⟩ := SimulatedPort.showEnding_failed engine.areas hfailed
    have hyields := EngineM.yields_runCommand_of_run hsteady hlayout hwilling hformed hran
    rw [houtcome] at hyields
    have hfailing := Engine.yields_fail_of_stopped
      (show CommandError.checkCondition.needsRecovery = true from rfl) hsteady.patient
      (show (port.served engine.areas (Command.requestSense.fetched 0 entries) ending
        left).registers = _ from hshown) Command.requestSense.label
      (engine.build 0 .requestSense entries memory)
    let after := port.served engine.areas (Command.requestSense.fetched 0 entries) ending left
    refine ⟨.error .deviceError, after.rested engine.areas, _, entries,
      (yields_execute_of_error hyields hfailing).bind_error, ?_, rfl⟩
    rw [Drive.tells?, hqueued]
    rfl

end RequestM

namespace EngineM

variable {engine ran : Engine} {world between : World SimulatedPort} {command : Command}

/-- A command ends in a check condition only if the device took it and failed it: a stalled or busy
port shows none. -/
theorem exists_served_of_checkCondition (hsteady : engine.Steady world.device)
    (hlayout : engine.areas.Layout)
    (hfailed : (runCommand command).exec engine world =
      (.ok (.error .checkCondition, ran), between)) :
    ran = engine ∧ world.device.Willing ∧
      engine.Ran world.device (.error .checkCondition) between.device ∧
      world.Progress between 1 ∧ ∃ entries ending drive, ending ≠ .done ∧
        between.device =
          world.device.served engine.areas (command.fetched 0 entries) ending drive := by
  -- A command ends in one way in one world, so of the ways it can end one is left.
  have honly {outcome : Except CommandError Unit} {after : Machine SimulatedPort} {issued : Nat}
      (hyields : (runCommand command).Yields engine world.machine (.ok (outcome, engine)) after
        issued) :
      outcome = .error .checkCondition ∧ ran = engine ∧ between.machine = after ∧
        world.Progress between issued := by
    obtain ⟨later, hended, haround, hprogress⟩ := hyields world rfl
    rw [show (runCommand command).exec engine world = _ from hended] at hfailed
    cases hfailed
    exact ⟨rfl, rfl, haround, hprogress⟩
  cases hformed : engine.scatter command with
  | error error =>
    cases (honly (yields_runCommand_of_malformed hsteady hformed world.memory)).1
  | ok entries =>
    cases hprompt : world.device.busy with
    | true => cases (honly (yields_runCommand_of_busy hsteady hformed hprompt world.memory)).1
    | false =>
      cases hmoving : world.device.stalled with
      | true =>
        cases (honly (yields_runCommand_of_stalled hsteady hformed hprompt hmoving world.memory)).1
      | false =>
        rcases hrun : world.device.drive.run (command.fetched 0 entries)
          (engine.build 0 command entries world.memory) with ⟨ending, drive, changed⟩
        obtain ⟨houtcome, hsame, haround, hprogress⟩ :=
          honly (yields_runCommand_of_run hsteady hlayout ⟨hprompt, hmoving⟩ hformed hrun)
        obtain ⟨_, after, _, _, hyields, hsettled⟩ :=
          exists_runCommand hsteady command world.memory
        obtain ⟨rfl, _, hleft, _⟩ := honly hyields
        have hdevice : between.device = after := congrArg Machine.device hleft
        rw [← hdevice] at hsettled
        refine ⟨hsame, ⟨hprompt, hmoving⟩, hsettled, hprogress, entries, ending, drive, ?_,
          congrArg Machine.device haround⟩
        rintro rfl
        cases houtcome

end EngineM

/-- How a packet command that ended in a check condition is reported: one more command is issued,
which asks for sense data, and the error is the failure that the sense data tells, or a timeout if
there is none. -/
structure Deed.Explained (deed : Deed) (cdb : Cdb) (between : World SimulatedPort)
    (error : IoError) (left : Engine) (after : World SimulatedPort) : Prop where
  issues : after.issues = deed.world.issues + 2
  /-- The one other command that the device fetches asks for sense data. -/
  fetched : ∃ request failed,
    after.device.fetched = request :: failed :: deed.world.device.fetched ∧
      failed.cdb = some cdb ∧ request.cdb = some (.requestSense SenseData.requestLength)
  /-- Sense data is brought unless a failure is queued for the request for it. -/
  answered : deed.sense? = between.device.drive.tells?
  error : error = (deed.sense?.map SenseData.failure).getD .timeout
  kept : left.lastSense = deed.sense?.or deed.engine.lastSense

/-- A packet command that ends in a check condition is reported as a failure, and explained. Of
other packet commands nothing is said. -/
def Deed.Reported (deed : Deed) : Prop :=
  ∀ cdb data label ran between, deed.call = .command cdb data label →
    (EngineM.runCommand (.packet cdb data label)).exec deed.engine deed.world =
        (.ok (.error .checkCondition, ran), between) →
    ∃ error left after,
      (EngineM.packet cdb data label).exec deed.engine deed.world =
          (.ok (.error error, left), after) ∧
        deed.Explained cdb between error left after

/-- Every packet command on a steady engine in front of a packet drive is reported, with areas of
the right size that do not overlap. -/
theorem Deed.reported {deed : Deed} (hsteady : deed.engine.Steady deed.world.device)
    (hsized : deed.engine.areas.Sized) (hlayout : deed.engine.areas.Layout)
    (hkind : deed.world.device.drive.kind = .packetDrive) : deed.Reported := by
  obtain ⟨call, engine, world⟩ := deed
  rintro cdb data label ran between rfl hfailed
  obtain ⟨rfl, hwilling, hsettled, hfirst, entries, ending, drive, hnotDone, hdevice⟩ :=
    EngineM.exists_served_of_checkCondition hsteady hlayout hfailed
  have hfollows := hsettled.follows
  obtain ⟨_, hshown, _⟩ := SimulatedPort.showEnding_failed ran.areas hnotDone
  have hup : between.device.registers = _ := (congrArg SimulatedPort.registers hdevice).trans hshown
  obtain ⟨restarted, hrecovered, haroundRestarted, hagain⟩ :=
    EngineM.yields_withEngine (Engine.yields_recover hsteady.patient hup between.memory) between rfl
  have hrested : restarted.device = between.device.rested ran.areas :=
    congrArg Machine.device haroundRestarted
  have hready : ran.Steady restarted.device := by
    rw [hrested]
    exact hsettled.rested hsteady
  have hable : restarted.device.Willing := by
    rw [hrested]
    exact ⟨hfollows.busy.trans hwilling.prompt, hfollows.stalled.trans hwilling.moving⟩
  have hsame : restarted.device.drive = between.device.drive := by
    rw [hrested]
    rfl
  have hpacket : restarted.device.drive.kind = .packetDrive := by
    rw [hsame]
    exact (congrArg Prod.fst hfollows.nameplate).trans hkind
  obtain ⟨answer, last, changed, asking, hyields, htold, hfetched⟩ :=
    RequestM.exists_requestSense hready hsized hlayout hable hpacket restarted.memory
  obtain ⟨later, hasked, haroundLater, hsecond⟩ := hyields restarted rfl
  obtain ⟨after, hended, haroundAfter, hthird⟩ :=
    EngineM.exec_packet_of_checkCondition hfailed hrecovered hasked
  have hleft : after.device = last :=
    (congrArg Machine.device haroundAfter).trans (congrArg Machine.device haroundLater)
  have hbrought : Deed.sense? ⟨.command cdb data label, ran, world⟩ = answer.toOption := by
    rw [Deed.sense?_of_checkCondition hfailed hrecovered, RequestM.sensed?_of_ended hasked]
  refine ⟨_, _, after, hended, ?_, ?_, ?_, ?_, ?_⟩
  · rw [hthird.issues, hsecond.issues, hagain.issues, hfirst.issues]
  · refine ⟨Command.requestSense.fetched 0 asking,
      (Command.packet cdb data label).fetched 0 entries, ?_, rfl, rfl⟩
    rw [hleft, hfetched, hrested]
    change _ :: between.device.fetched = _
    rw [hdevice]
    rfl
  · rw [hbrought, htold, hsame]
  · rw [hbrought]
    cases answer <;> rfl
  · rw [hbrought]
    rfl

namespace Site

/-- The packet calls of a run, newest first. Between the calls of a run the drive and the port may
be switched, which makes none. -/
inductive Made : Site → List Event → List Deed → Prop where
  | nil (site : Site) : Made site [] []
  | switched {site : Site} {switch : Switch} {events : List Event} {deeds : List Deed}
      (hrest : Made (site.after (.switched switch)) events deeds) :
      Made site (.switched switch :: events) deeds
  | called {site : Site} {call : Call} {events : List Event} {now later : List Deed}
      (hdid : (call.run site.port site.disk?).Performs site.engine site.world now)
      (hrest : Made (site.after (.called call)) events later) :
      Made site (.called call :: events) (later ++ now)

variable {config : Config} {start : World SimulatedPort} {site : Site}

/-- What a call brings of sense data is what the driver keeps, whether the call ends or gives up; a
call that brings none leaves it as it was. -/
theorem Reached.lastSense_after (hreached : Reached config start site) {call : Call}
    {deeds : List Deed}
    (hdid : (call.run site.port site.disk?).Performs site.engine site.world deeds)
    (hmute : (∀ a left after, (call.run site.port site.disk?).exec site.engine site.world =
      (.ok (a, left), after) → False) → ∀ deed ∈ deeds, deed.sense? = none) :
    (site.after (.called call)).engine.lastSense =
      (deeds.findSome? Deed.sense?).or site.engine.lastSense := by
  obtain ⟨hkept, _⟩ := hdid.keeps hreached.steady
  rcases hended : (call.run site.port site.disk?).exec site.engine site.world with
    ⟨reason | ⟨⟨outcome, disk?⟩, left⟩, after⟩
  · have hgaveUp : site.exec call = (.error reason, after) := hended
    have hnothing : deeds.findSome? Deed.sense? = none := by
      rw [List.findSome?_eq_none_iff]
      refine hmute ?_
      rw [hended]
      simp
    rw [Site.after, hgaveUp, hnothing]
    rfl
  · have hfinished : site.exec call = (.ok ((outcome, disk?), left), after) := hended
    rw [Site.after, hfinished, hkept.left (outcome, disk?) left (congrArg Prod.fst hended)]
    rfl

/-- Every packet call of a call on a packet drive is reported, and each of them finds the sense data
that the ones before it brought. -/
theorem Reached.reported (hreached : Reached config start site) (hsound : site.engine.areas.Sound)
    (hkind : start.device.drive.kind = .packetDrive) {call : Call} {deeds : List Deed}
    (hdid : (call.run site.port site.disk?).Performs site.engine site.world deeds) :
    (∀ deed ∈ deeds, deed.Reported) ∧
      ∀ deed earlier, deed :: earlier <:+ deeds →
        deed.engine.lastSense = (earlier.findSome? Deed.sense?).or site.engine.lastSense := by
  obtain ⟨_, hwithin⟩ := hdid.keeps hreached.steady
  have hsized := PortAreas.sized_of_allocate hreached.granted
  refine ⟨fun deed hmember => ?_, fun deed earlier hsuffix => ?_⟩
  · obtain ⟨later, earlier, hsplit⟩ := List.append_of_mem hmember
    obtain ⟨hsteady, hfollows, hsame⟩ := hwithin deed earlier ⟨later, hsplit.symm⟩
    have hareas : deed.engine.areas = site.engine.areas := by
      rw [hsame]
      rfl
    refine Deed.reported hsteady ?_ ?_ ?_
    · rw [hareas]
      exact hsized
    · rw [hareas]
      exact hsound.layout hsized
    · exact (congrArg Prod.fst (hfollows.nameplate.trans hreached.nameplate)).trans hkind
  · rw [(hwithin deed earlier hsuffix).engine]
    rfl

/-- By induction over the events. The packet calls of a run on a packet drive, with what the driver
keeps of them at each call and at the end. -/
theorem Reached.exists_made (hreached : Reached config start site)
    (hsound : site.engine.areas.Sound) (hkind : start.device.drive.kind = .packetDrive)
    {events : List Event} (hallowed : ∀ event ∈ events, event.Allowed config) :
    ∃ deeds, site.Made events deeds ∧ (∀ deed ∈ deeds, deed.Reported) ∧
      (∀ deed earlier, deed :: earlier <:+ deeds →
        deed.engine.lastSense = (earlier.findSome? Deed.sense?).or site.engine.lastSense) ∧
      (site.run events).engine.lastSense =
        (deeds.findSome? Deed.sense?).or site.engine.lastSense := by
  induction events generalizing site with
  | nil => exact ⟨[], .nil site, by simp, by simp, rfl⟩
  | cons event events ih =>
    have hnext := hreached.after (hallowed event List.mem_cons_self)
    have hstill : (site.after event).engine.areas = site.engine.areas :=
      hnext.areas hreached.granted
    obtain ⟨later, hmade, hreported, htraced, hleft⟩ :=
      ih hnext (by rwa [hstill]) fun other hmember =>
        hallowed other (List.mem_cons_of_mem event hmember)
    cases event with
    | switched switch => exact ⟨later, .switched hmade, hreported, htraced, hleft⟩
    | called call =>
      obtain ⟨now, hdid, hmute⟩ := call.driven_run site.port site.disk? site.engine site.world
      have hkept := hreached.lastSense_after hdid hmute
      obtain ⟨hreportedNow, htracedNow⟩ := hreached.reported hsound hkind hdid
      -- Newest first: the packet calls of the events behind this call stand before its own.
      refine ⟨later ++ now, .called hdid hmade, ?_, ?_, ?_⟩
      · intro deed hmember
        rcases List.mem_append.1 hmember with hnew | hold
        · exact hreported deed hnew
        · exact hreportedNow deed hold
      · intro deed earlier hsuffix
        rcases EngineM.suffix_append hsuffix with hold | ⟨between, hnew, rfl⟩
        · exact htracedNow deed earlier hold
        · rw [htraced deed between hnew, hkept, List.findSome?_append, Option.or_assoc]
      · change ((site.after (.called call)).run events).engine.lastSense = _
        rw [hleft, hkept, List.findSome?_append, Option.or_assoc]

/-- After every allowed run of a packet drive that was brought up on sound areas. The sense data
that the driver keeps is what the last request for it that succeeded brought, whether the request
was made by itself or after a check condition; at each packet call of the run it is what the packet
calls before brought; and every packet command that ended in a check condition was reported by its
one request for sense data. So a request by itself that succeeds takes the place of what explained
an earlier failure, and a request that fails takes the place of nothing. -/
theorem lastSense_run {number slots : Nat} {config : Config} {start ready : World SimulatedPort}
    {port : Port} {engine : Engine} (hpos : 1 ≤ slots)
    (hdown : start.device.registers.cmd = 0)
    (hbounded : start.device.stalled = true → config.completionLimit.isSome = true)
    (hkind : start.device.drive.kind = .packetDrive)
    (hup : (HostM.bringUp (.port number) number slots config).exec start =
      (.ok (.ok (port, engine)), ready))
    (hsound : engine.areas.Sound) {events : List Event}
    (hallowed : ∀ event ∈ events, event.Allowed config) :
    let site : Site := { port, engine, world := ready }
    ∃ deeds, site.Made events deeds ∧ (∀ deed ∈ deeds, deed.Reported) ∧
      (∀ deed earlier, deed :: earlier <:+ deeds →
        deed.engine.lastSense = earlier.findSome? Deed.sense?) ∧
      (site.run events).engine.lastSense = deeds.findSome? Deed.sense? := by
  intro site
  have hbrought := HostM.broughtUp_of_exec hdown hup
  have hunaware : engine.lastSense = none := by
    rw [hbrought.configured]
  obtain ⟨deeds, hmade, hreported, htraced, hleft⟩ :=
    (reached_of_bringUp hpos hbounded hbrought).exists_made hsound hkind hallowed
  simp only [hunaware, Option.or_none] at htraced hleft
  exact ⟨deeds, hmade, hreported, htraced, hleft⟩

/-- The hypotheses are met by a drive that fails a read and then the request for what explains it,
and is asked again later. -/
theorem lastSense_run_explained_late :
    let config : Config := { readyLimit := 4 }
    let start := World.around (.packetDrive (.blank driveBlockSize 8))
    let events : List Event :=
      [.called .probe, .switched (.inject Opcode.packet (.sense ⟨SenseKey.mediumError, 0x11, 0⟩)),
        .switched (.inject Opcode.packet (.taskFile 4)), .called (.onEngine (.readBlocks 0 1)),
        .called (.onDisk .requestSense)]
    ∃ port engine ready, (HostM.bringUp (.port 0) 0 32 config).exec start =
        (.ok (.ok (port, engine)), ready) ∧
      let site : Site := { port, engine, world := ready }
      ∃ deeds, site.Made events deeds ∧ (∀ deed ∈ deeds, deed.Reported) ∧
        (∀ deed earlier, deed :: earlier <:+ deeds →
          deed.engine.lastSense = earlier.findSome? Deed.sense?) ∧
        (site.run events).engine.lastSense = deeds.findSome? Deed.sense? := by
  intro config start events
  have hpresent : (Drive.packetDrive (.blank driveBlockSize 8)).kind ≠ .empty := by decide
  obtain ⟨port, engine, ready, hup, hareas⟩ := exists_bringUp_around hpresent 0 32
    (show 0 < config.readyLimit.toNat by decide)
  have hsound : engine.areas.Sound := by
    rw [hareas]
    exact sound_risingAreas
  refine ⟨port, engine, ready, hup, lastSense_run (by decide) rfl ?_ rfl hup hsound ?_⟩
  · simp [World.around]
  · intro event hmember
    simp only [events, List.mem_cons, List.not_mem_nil, or_false] at hmember
    rcases hmember with rfl | rfl | rfl | rfl | rfl <;> exact True.intro

end Site

end Ahci
