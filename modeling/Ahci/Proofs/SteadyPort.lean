import Ahci.Engine.Packet
import Ahci.Proofs.EngineRestart

/-!
One command on a simulated port that waits for one. A steady port has all of its slots free,
PxCI clear, no error shown and its engine running on the memory that its driver gave it. The
next command is therefore run in slot 0, and there are four ways for it to end: it cannot be
described, the device is busy, the device leaves it pending, or the device runs it. The first
two leave the port steady; restarting the engine makes it steady again after the other two.
-/

namespace Ahci

/-- The registers of a port that was brought up on some areas: the base addresses, the engine
running, and the given PxIS, PxTFD and PxCI. -/
def PortAreas.registers (areas : PortAreas) (status file issued : UInt32) : PortRegisters :=
  { clb := (areas.list.physAt 0).lower
    clbu := (areas.list.physAt 0).upper
    fb := (areas.list.physAt PortAreas.receivedOffset).lower
    fbu := (areas.list.physAt PortAreas.receivedOffset).upper
    is := status
    ie := interruptSources
    cmd := runningCommand
    tfd := file
    ci := issued }

namespace SimulatedPort

/-- The port as it waits for a command: an idle task file, PxIS and PxCI clear. -/
def rested (port : SimulatedPort) (areas : PortAreas) : SimulatedPort :=
  port.withRegisters (areas.registers 0 idleFile 0)

/-- The port with a command issued in slot 0 that the device has not taken up yet. -/
def begun (port : SimulatedPort) (areas : PortAreas) : SimulatedPort :=
  port.withRegisters (areas.registers 0 idleFile 1)

end SimulatedPort

/-- What the driver reports for how a command ended: success, a check condition for a packet command
that failed, or the error register for any other that failed. -/
def Ending.outcome (ending : Ending) (packet : Bool) : Except CommandError Unit :=
  match ending with
  | .done => .ok ()
  | .taskFile error => .error (if packet then .checkCondition else .taskFile error)
  | .checkCondition sense =>
    .error (if packet then .checkCondition else .taskFile (UInt8.ofNat (16 * sense.key.toNat)))

namespace Engine

/-- A port between two calls of its driver. All slots are free and there is one at least, handshakes
may read PxCMD once at least, and the registers are those of a running engine with an idle device
and no error. A stalled port is steady only if the driver limits its waits for a completion. -/
structure Steady (engine : Engine) (port : SimulatedPort) : Prop where
  free : ∃ count, 0 < count ∧ engine.slots = .ofCount count
  patient : 0 < engine.limit
  registers : ∃ status, showsError status = false ∧
    port.registers = engine.areas.registers status SimulatedPort.idleFile 0
  /-- Commands are left pending only by a port whose driver stops waiting for them. -/
  bounded : port.stalled = true → engine.config.completionLimit.isSome = true

theorem Steady.rested {engine : Engine} {port : SimulatedPort} (hsteady : engine.Steady port) :
    engine.Steady (port.rested engine.areas) :=
  ⟨hsteady.free, hsteady.patient, ⟨0, rfl, rfl⟩, hsteady.bounded⟩

end Engine

/-! Slots. -/

namespace SlotArena

theorem mark_mark (arena : SlotArena) (slot : Nat) (early late : SlotState) :
    (arena.mark slot early).mark slot late = arena.mark slot late := by
  have hsame : (arena.states.setIfInBounds slot early).setIfInBounds slot late =
      arena.states.setIfInBounds slot late := by
    apply Vector.ext
    intro i hbound
    simp only [Vector.getElem_setIfInBounds]
    split <;> rfl
  simp only [mark, hsame]

theorem mark_free_ofCount (count slot : Nat) :
    (ofCount count).mark slot .free = ofCount count := by
  have hsame : (Vector.replicate slotCount SlotState.free).setIfInBounds slot .free =
      Vector.replicate slotCount .free := by
    apply Vector.ext
    intro i hbound
    simp only [Vector.getElem_setIfInBounds, Vector.getElem_replicate, ite_self]
  simp only [mark, ofCount, hsame]

theorem state?_ofCount (count : Nat) {slot : Nat} (hbound : slot < slotCount) :
    (ofCount count).state? slot = some .free := by
  simp [state?, ofCount, hbound]

theorem claim_ofCount {count : Nat} (hpos : 0 < count) :
    (ofCount count).claim 0 = .ok (0, (ofCount count).mark 0 .claimed) := by
  rw [claim_eq_ok_iff]
  refine ⟨rfl, ?_, ?_, ?_⟩
  · exact Nat.lt_min.2 ⟨hpos, by decide⟩
  · rw [isOpen, state?_ofCount count (by decide), Word.test_zero]
    rfl
  · intro lower hbelow
    exact absurd hbelow (Nat.not_lt_zero lower)

/-- Releasing a slot makes it free, whatever states it went through since it was claimed. -/
theorem release_marks (arena : SlotArena) (slot : Nat) (marks : List SlotState) :
    (marks.foldl (fun arena state => arena.mark slot state) arena).release slot =
      arena.mark slot .free := by
  induction marks generalizing arena with
  | nil => rfl
  | cons state marks ih => rw [List.foldl_cons, ih, mark_mark]

end SlotArena

namespace HostM

variable {port : SimulatedPort} {areas : PortAreas} {memory : Memory} {window : Window}

/-! Waiting for the device. -/

/-- An idle device is seen to be ready with the first poll, for any limit that allows one. -/
theorem yields_becomesReady {limit : Nat} (hpatient : 0 < limit)
    (hready : port.readRegister PortRegister.tfd = SimulatedPort.idleFile) (memory : Memory) :
    (becomesReady window limit).Yields ⟨port, memory⟩ (.ok true) ⟨port, memory⟩ 0 := by
  obtain ⟨polls, rfl⟩ := Nat.exists_eq_succ_of_ne_zero (Nat.ne_of_gt hpatient)
  refine (yields_readRegister window hready memory).seq ?_
  exact yields_pure true _

/-- A busy device is never seen to be ready, for any limit. -/
theorem yields_becomesReady_of_busy (limit : Nat) (hbusy : port.busy = true) (memory : Memory) :
    (becomesReady window limit).Yields ⟨port, memory⟩ (.ok false) ⟨port, memory⟩ 0 := by
  have hshown : port.readRegister PortRegister.tfd = SimulatedPort.busyFile := if_pos hbusy
  induction limit with
  | zero => exact yields_pure false _
  | succ polls ih =>
    refine (yields_readRegister window hshown memory).seq ?_
    exact ih

theorem yields_busySlots (hclear : port.registers.ci = 0) (memory : Memory) :
    (busySlots window).Yields ⟨port, memory⟩ (.ok 0) ⟨port, memory⟩ 0 := by
  have houtstanding : port.readRegister PortRegister.sact = 0 := rfl
  have hissued : port.readRegister PortRegister.ci = 0 := hclear
  refine (yields_readRegister window houtstanding memory).seq ?_
  refine (yields_readRegister window hissued memory).seq ?_
  exact yields_pure _ _

/-! Watching a command. -/

/-- A poll that reads an error in PxIS concludes with it, classified with PxTFD. -/
theorem yields_pollOnce_error {status file : UInt32} (slot : Nat) (packet : Bool)
    (hshown : port.registers.is = status) (hfailed : showsError status = true)
    (htold : port.readRegister PortRegister.tfd = file) (memory : Memory) :
    (pollOnce window slot packet).Yields ⟨port, memory⟩
      (.ok (some (.error (.ofCompletion status (TaskFile.ofWord file) packet))))
      ⟨port, memory⟩ 0 := by
  refine (yields_readRegister window (show port.readRegister PortRegister.is = status from hshown)
    memory).seq ?_
  rw [if_pos hfailed]
  refine (Yields.seq ?_ (yields_pure _ _))
  refine (yields_readRegister window htold memory).seq ?_
  exact yields_pure _ _

/-- A poll that reads the slot clear and no error concludes with success. -/
theorem yields_pollOnce_done {status issued : UInt32} {slot : Nat} (packet : Bool)
    (hshown : port.registers.is = status) (hsound : showsError status = false)
    (htold : port.registers.ci = issued) (hclear : Word.test issued slot = false)
    (memory : Memory) :
    (pollOnce window slot packet).Yields ⟨port, memory⟩ (.ok (some (.ok ())))
      ⟨port, memory⟩ 0 := by
  have hstatus : port.readRegister PortRegister.is = status := hshown
  have hissued : port.readRegister PortRegister.ci = issued := htold
  refine (yields_readRegister window hstatus memory).seq ?_
  rw [if_neg (by rw [hsound]; decide)]
  refine (yields_readRegister window hissued memory).seq ?_
  rw [if_neg (by rw [hclear]; decide)]
  refine (yields_readRegister window hstatus memory).seq ?_
  rw [if_neg (by rw [hsound]; decide)]
  exact yields_pure _ _

/-- A poll that reads the slot set and no error concludes nothing. -/
theorem yields_pollOnce_pending {status issued : UInt32} {slot : Nat} (packet : Bool)
    (hshown : port.registers.is = status) (hsound : showsError status = false)
    (htold : port.registers.ci = issued) (hpending : Word.test issued slot = true)
    (memory : Memory) :
    (pollOnce window slot packet).Yields ⟨port, memory⟩ (.ok none) ⟨port, memory⟩ 0 := by
  have hstatus : port.readRegister PortRegister.is = status := hshown
  have hissued : port.readRegister PortRegister.ci = issued := htold
  refine (yields_readRegister window hstatus memory).seq ?_
  rw [if_neg (by rw [hsound]; decide)]
  refine (yields_readRegister window hissued memory).seq ?_
  rw [if_pos hpending]
  exact yields_pure _ _

variable {slot : Nat} {packet : Bool} {before after : Machine SimulatedPort}

/-- A wait whose first poll is conclusive ends with it, with a limit of any size or without one. -/
theorem yields_awaitCompletion {outcome : Except CommandError Unit}
    (hconclusive : (pollOnce window slot packet).Yields before (.ok (some outcome)) after 0)
    (limit : Option UInt32) :
    (awaitCompletion window slot limit packet).Yields before (.ok outcome) after 0 := by
  have hfirst (polls : Nat) : (firstConclusive window slot packet (polls + 1)).Yields before
      (.ok (some outcome)) after 0 :=
    hconclusive.seq (yields_pure _ _)
  cases limit with
  | some limit =>
    obtain ⟨polls, hsame⟩ := Nat.exists_eq_succ_of_ne_zero
      (Nat.ne_of_gt (Nat.lt_of_lt_of_le Nat.one_pos (Nat.le_max_left 1 limit.toNat)))
    rw [awaitCompletion]
    simp only [hsame]
    exact (hfirst polls).seq (yields_pure _ _)
  | none =>
    intro world haround
    rw [awaitCompletion, exec_bind_ok (exec_patience world)]
    refine Yields.seq (hfirst world.patience) ?_ world haround
    exact yields_pure _ _

/-- A limited wait for a command that stays pending times out. The port must not change by being
polled, which holds of a simulated one. -/
theorem yields_awaitCompletion_timeout
    (hpending : (pollOnce window slot packet).Yields before (.ok none) before 0)
    (limit : UInt32) :
    (awaitCompletion window slot (some limit) packet).Yields before (.ok (.error .timeout))
      before 0 := by
  have hall (polls : Nat) :
      (firstConclusive window slot packet polls).Yields before (.ok none) before 0 := by
    induction polls with
    | zero => exact yields_pure none before
    | succ polls ih => exact hpending.seq ih
  rw [awaitCompletion]
  exact (hall _).seq (yields_pure _ _)

end HostM

/-! Issuing a command in slot 0 of a port whose engine runs. -/

namespace SimulatedPort

variable {port : SimulatedPort} {areas : PortAreas}

/-- Issuing slot 0 on a port at rest makes the device run the command at once, or leaves it pending
if the port is stalled. -/
theorem issue_rested (memory : Memory) :
    (port.rested areas).issue (Word.only 0) memory =
      if port.stalled then (port.begun areas, memory)
      else (port.begun areas).execute 0 memory := by
  have hrunning : (port.rested areas).isRunning = true := by
    change Word.test runningCommand CmdBit.start = true
    rfl
  have hslots : (List.range 32).filter (Word.test (Word.only 0)) = [0] := by decide
  have hissued : Word.set 0 0 = 1 := rfl
  have hshown : (port.rested areas).update
      (fun registers => { registers with ci := Word.set registers.ci 0 }) = port.begun areas := by
    change port.withRegisters (areas.registers 0 idleFile (Word.set 0 0)) = _
    rw [hissued, begun]
  rw [issue, if_pos hrunning, hslots]
  change (port.rested areas).issueSlot 0 memory = _
  rw [issueSlot, hshown]
  rfl

theorem issue_rested_of_stalled (hstalled : port.stalled = true) (memory : Memory) :
    (port.rested areas).issue (Word.only 0) memory = (port.begun areas, memory) := by
  rw [issue_rested, if_pos hstalled]

theorem issue_rested_of_prompt (hprompt : port.stalled = false) (memory : Memory) :
    (port.rested areas).issue (Word.only 0) memory = (port.begun areas).execute 0 memory := by
  rw [issue_rested, if_neg (by rw [hprompt]; decide)]

/-- The registers behind a command that succeeded: PxCI clear, and a status without an error. -/
theorem showEnding_done (areas : PortAreas) :
    showEnding (areas.registers 0 idleFile 1) 0 .done = areas.registers 1 idleFile 0 := by
  have hcleared : Word.clear 1 0 = 0 := rfl
  have hstatus : Word.set 0 StatusBit.deviceFrame = 1 := rfl
  change areas.registers (Word.set 0 StatusBit.deviceFrame) idleFile (Word.clear 1 0) = _
  rw [hcleared, hstatus]

/-- The registers behind a command that failed: the error bit of the task file in PxIS, the failed
task file, and the slot still set in PxCI. The driver reports a packet command as a check condition,
and any other with the error register. -/
theorem showEnding_failed (areas : PortAreas) {ending : Ending} (hfailed : ending ≠ .done) :
    ∃ error : Nat, showEnding (areas.registers 0 idleFile 1) 0 ending =
        areas.registers (Word.set 0 StatusBit.taskFile) (failedFile error) 1 ∧
      ∀ packet, ending.outcome packet =
        .error (if packet then .checkCondition else .taskFile (UInt8.ofNat error)) := by
  cases ending with
  | done => exact absurd rfl hfailed
  | taskFile error => exact ⟨error.toNat, rfl, fun _ => by rw [UInt8.ofNat_toNat]; rfl⟩
  | checkCondition sense => exact ⟨16 * sense.key.toNat, rfl, fun _ => rfl⟩

end SimulatedPort

theorem TaskFile.error_failedFile (error : Nat) :
    (TaskFile.ofWord (SimulatedPort.failedFile error)).error = UInt8.ofNat error := by
  have hbits : Word.bits (SimulatedPort.failedFile error) 8 8 = error % 256 := by
    have hvalue : (SimulatedPort.failedFile error).toNat = 0x41 + 256 * (error % 256) := by
      rw [SimulatedPort.failedFile, UInt32.toNat_ofNat']
      omega
    rw [Word.bits, BitVec.extractLsb'_toNat]
    change (SimulatedPort.failedFile error).toNat >>> 8 % 2 ^ 8 = error % 256
    rw [hvalue, Nat.shiftRight_eq_div_pow]
    omega
  apply UInt8.toNat_inj.1
  rw [TaskFile.ofWord, hbits, UInt8.toNat_ofNat', UInt8.toNat_ofNat']
  omega

namespace HostM

variable {port : SimulatedPort} {areas : PortAreas} {memory : Memory} {window : Window}

/-- Behind a command that the device ran the first poll is conclusive, and concludes with how the
command ended. -/
theorem yields_pollOnce_executed (hprompt : port.busy = false) (packet : Bool)
    (memory built : Memory) :
    let ran := (port.begun areas).execute 0 built
    let ending := (port.drive.run (.fetch (port.begun areas).listAddress 0 built) built).1
    (pollOnce window 0 packet).Yields ⟨ran.1, memory⟩ (.ok (some (ending.outcome packet)))
      ⟨ran.1, memory⟩ 0 := by
  intro ran ending
  have hregisters : ran.1.registers =
      SimulatedPort.showEnding (areas.registers 0 SimulatedPort.idleFile 1) 0 ending := rfl
  by_cases hdone : ending = .done
  · rw [hdone, SimulatedPort.showEnding_done] at hregisters
    have hstatus : ran.1.registers.is = 1 := by rw [hregisters]; rfl
    have hissued : ran.1.registers.ci = 0 := by rw [hregisters]; rfl
    rw [hdone]
    exact yields_pollOnce_done packet hstatus rfl hissued (Word.test_zero 0) memory
  · obtain ⟨error, hshown, houtcome⟩ := SimulatedPort.showEnding_failed areas hdone
    rw [hshown] at hregisters
    have hstatus : ran.1.registers.is = Word.set 0 StatusBit.taskFile := by rw [hregisters]; rfl
    have hfile : ran.1.readRegister PortRegister.tfd = SimulatedPort.failedFile error := by
      change (if port.busy then SimulatedPort.busyFile else ran.1.registers.tfd) = _
      rw [if_neg (by rw [hprompt]; decide), hregisters]
      rfl
    have hclassified : CommandError.ofCompletion (Word.set 0 StatusBit.taskFile)
        (TaskFile.ofWord (SimulatedPort.failedFile error)) packet =
          if packet then .checkCondition else .taskFile (UInt8.ofNat error) := by
      rw [← TaskFile.error_failedFile error]
      rfl
    rw [houtcome, ← hclassified]
    exact yields_pollOnce_error 0 packet hstatus rfl hfile memory

/-- Writing all bits to PxIS of a steady port brings it to rest. -/
theorem yields_acknowledge {status : UInt32}
    (hup : port.registers = areas.registers status SimulatedPort.idleFile 0) (memory : Memory) :
    (writeRegister window PortRegister.is allBits).Yields ⟨port, memory⟩ (.ok ())
      ⟨port.rested areas, memory⟩ 0 := by
  have hnone : port.registers.is &&& ~~~allBits = 0 := by
    have hnothing : ~~~allBits = 0 := rfl
    rw [hnothing, UInt32.and_zero]
  refine yields_writeRegister window (by decide) ?_
  change (port.withRegisters { port.registers with is := port.registers.is &&& ~~~allBits },
    memory) = _
  rw [hnone, hup]
  rfl

variable {arena : SlotArena} {config : Config} {packet : Bool} {status : UInt32}

/-- To a busy device no command is issued: the driver reports a hung port, and only acknowledges
PxIS. -/
theorem yields_issueAndWait_of_busy
    (hup : port.registers = areas.registers status SimulatedPort.idleFile 0)
    (hbusy : port.busy = true) (memory : Memory) :
    (issueAndWait window arena 0 config packet).Yields ⟨port, memory⟩
      (.ok (.error .portHung, arena)) ⟨port.rested areas, memory⟩ 0 := by
  have hstill : (port.rested areas).busy = true := hbusy
  refine (yields_acknowledge hup memory).seq ?_
  refine (yields_becomesReady_of_busy _ hstill memory).seq ?_
  exact yields_pure _ _

variable (hpatient : 0 < config.readyLimit.toNat)
include hpatient

/-- A command on a stalled port is issued once and times out, provided that the wait is limited. It
is left pending in PxCI. -/
theorem yields_issueAndWait_of_stalled
    (hup : port.registers = areas.registers status SimulatedPort.idleFile 0)
    (hprompt : port.busy = false) (hstalled : port.stalled = true)
    (hbounded : config.completionLimit.isSome = true) (memory : Memory) :
    (issueAndWait window arena 0 config packet).Yields ⟨port, memory⟩
      (.ok (.error .timeout, (arena.mark 0 .issued).mark 0 .done))
      ⟨port.begun areas, memory⟩ 1 := by
  obtain ⟨limit, hlimited⟩ := Option.isSome_iff_exists.1 hbounded
  have hready : (port.rested areas).readRegister PortRegister.tfd = SimulatedPort.idleFile :=
    if_neg (by change ¬ port.busy = true; rw [hprompt]; decide)
  have hstatus : (port.begun areas).registers.is = 0 := rfl
  have hissued : (port.begun areas).registers.ci = 1 := rfl
  have hpending : Word.test 1 0 = true := rfl
  refine (yields_acknowledge hup memory).seq ?_
  refine (yields_becomesReady hpatient hready memory).seq ?_
  refine (yields_issue window (SimulatedPort.issue_rested_of_stalled hstalled memory)).finish ?_
  rw [hlimited]
  refine (yields_awaitCompletion_timeout
    (yields_pollOnce_pending packet hstatus rfl hissued hpending memory) limit).seq ?_
  exact yields_pure _ _

/-- A command on a port that is neither busy nor stalled is issued once, and waited for until the
device has run it. -/
theorem yields_issueAndWait_of_ready
    (hup : port.registers = areas.registers status SimulatedPort.idleFile 0)
    (hprompt : port.busy = false) (hmoving : port.stalled = false) (memory : Memory) :
    let ran := (port.begun areas).execute 0 memory
    let ending := (port.drive.run (.fetch (port.begun areas).listAddress 0 memory) memory).1
    (issueAndWait window arena 0 config packet).Yields ⟨port, memory⟩
      (.ok (ending.outcome packet, (arena.mark 0 .issued).mark 0 .done)) ⟨ran.1, ran.2⟩ 1 := by
  intro ran ending
  have hready : (port.rested areas).readRegister PortRegister.tfd = SimulatedPort.idleFile :=
    if_neg (by change ¬ port.busy = true; rw [hprompt]; decide)
  refine (yields_acknowledge hup memory).seq ?_
  refine (yields_becomesReady hpatient hready memory).seq ?_
  refine (yields_issue window (SimulatedPort.issue_rested_of_prompt hmoving memory)).finish ?_
  refine (yields_awaitCompletion (yields_pollOnce_executed hprompt packet ran.2 memory)
    config.completionLimit).seq ?_
  exact yields_pure _ _

end HostM

namespace Engine

variable {engine : Engine} {port : SimulatedPort}

/-- A restart brings a port to rest from any status, task file and pending command, if the
handshakes may read PxCMD at all. Nothing but the registers changes. -/
theorem yields_recover {status file issued : UInt32} (hpatient : 0 < engine.limit)
    (hup : port.registers = engine.areas.registers status file issued) (memory : Memory) :
    engine.recover.Yields ⟨port, memory⟩ (.ok ()) ⟨port.rested engine.areas, memory⟩ 0 := by
  let down := port.withRegisters { port.registers with cmd := 0, ci := 0 }
  let cleared := down.withRegisters { down.registers with is := 0 }
  have hstopping : port.registers.cmd = runningCommand := by rw [hup]; rfl
  have herrors : down.readRegister PortRegister.serr = 0 := by
    change port.registers.serr = 0
    rw [hup]
    rfl
  have hnothing : ~~~allBits = 0 := rfl
  have hfirst : down.writeRegister PortRegister.serr allBits memory = (down, memory) := by
    change (down.withRegisters
      { down.registers with serr := down.readRegister PortRegister.serr &&& ~~~allBits },
        memory) = _
    rw [herrors, hnothing, UInt32.and_zero, ← herrors]
    rfl
  have hsecond : down.writeRegister PortRegister.is allBits memory = (cleared, memory) := by
    change (down.withRegisters { down.registers with is := down.registers.is &&& ~~~allBits },
      memory) = _
    rw [hnothing, UInt32.and_zero]
  have hrested : cleared.withRegisters { cleared.registers with
      cmd := runningCommand, tfd := SimulatedPort.idleFile, ci := 0 } =
        port.rested engine.areas := by
    change port.withRegisters { port.registers with
      is := 0, cmd := runningCommand, tfd := SimulatedPort.idleFile, ci := 0 } = _
    rw [hup]
    rfl
  have hstillDown : cleared.registers.cmd = 0 := rfl
  refine (HostM.yields_stopEngine engine.window hpatient hstopping memory).seq ?_
  refine (HostM.yields_readRegister engine.window herrors memory).seq ?_
  refine (HostM.yields_note _ (by decide) _).seq ?_
  refine (HostM.yields_writeRegister engine.window (by decide) hfirst).seq ?_
  refine (HostM.yields_writeRegister engine.window (by decide) hsecond).seq ?_
  rw [← hrested]
  refine (HostM.yields_startEngine engine.window hpatient hstillDown memory).seq ?_
  exact HostM.yields_pure _ _

/-- A failure that left the engine running is logged as a warning, and the port is left alone. -/
theorem yields_fail_of_running {error : CommandError} (hrunning : error.needsRecovery = false)
    (label : String) (machine : Machine SimulatedPort) :
    (engine.fail label error).Yields machine (.ok error.toIoError) machine 0 := by
  refine (HostM.yields_note _ (by decide) machine).seq ?_
  rw [if_neg (by rw [hrunning]; decide)]
  exact HostM.yields_pure _ _

/-- A failure that may have stopped the engine restarts it, which brings the port to rest. -/
theorem yields_fail_of_stopped {error : CommandError} {status file issued : UInt32}
    (hstopped : error.needsRecovery = true) (hpatient : 0 < engine.limit)
    (hup : port.registers = engine.areas.registers status file issued) (label : String)
    (memory : Memory) :
    (engine.fail label error).Yields ⟨port, memory⟩ (.ok error.toIoError)
      ⟨port.rested engine.areas, memory⟩ 0 := by
  refine (HostM.yields_note _ (by decide) _).seq ?_
  rw [if_pos hstopped]
  refine (yields_recover hpatient hup memory).seq ?_
  exact HostM.yields_pure _ _

end Engine

namespace EngineM

variable {engine : Engine} {port : SimulatedPort} {command : Command}

/-- A command on a steady port is submitted in slot 0, and its slot is free again behind it,
whatever states it went through. -/
theorem yields_runCommand (hsteady : engine.Steady port) {memory : Memory}
    {outcome : Except CommandError Unit} {after : Machine SimulatedPort} {issued : Nat}
    (marks : List SlotState)
    (hsubmitted : ∀ arena, (engine.submit arena 0 command).Yields ⟨port, memory⟩
      (.ok (outcome, marks.foldl (fun arena state => arena.mark 0 state) arena)) after issued) :
    (runCommand command).Yields engine ⟨port, memory⟩ (.ok (outcome, engine)) after issued := by
  obtain ⟨count, hpos, hfree⟩ := hsteady.free
  obtain ⟨status, _, hregisters⟩ := hsteady.registers
  have hclear : port.registers.ci = 0 := by rw [hregisters]; rfl
  have hclaimed : engine.slots.claim 0 = .ok (0, engine.slots.mark 0 .claimed) := by
    rw [hfree]
    exact SlotArena.claim_ofCount hpos
  have hrestored : { engine with slots := (marks.foldl (fun arena state => arena.mark 0 state)
      (engine.slots.mark 0 .claimed)).release 0 } = engine := by
    rw [SlotArena.release_marks, SlotArena.mark_mark, hfree, SlotArena.mark_free_ofCount, ← hfree]
  refine (yields_get engine _).seq ?_
  refine (yields_onHost (HostM.yields_busySlots hclear memory) engine).seq ?_
  rw [hclaimed]
  refine (yields_onHost (hsubmitted _) engine).finish ?_
  refine (yields_set _ engine after).seq ?_
  rw [hrestored]
  exact yields_pure outcome engine after

/-- A command whose data cannot be described by scatter entries is refused before anything is
stored or issued. -/
theorem yields_runCommand_of_malformed (hsteady : engine.Steady port) {error : ScatterError}
    (hmalformed : engine.scatter command = .error error) (memory : Memory) :
    (runCommand command).Yields engine ⟨port, memory⟩ (.ok (.error (.transfer error), engine))
      ⟨port, memory⟩ 0 := by
  refine yields_runCommand hsteady [] fun arena => ?_
  rw [Engine.submit, hmalformed]
  exact HostM.yields_pure _ _

variable {entries : List ScatterEntry}

/-- On a busy port a command is built in memory and then refused as a hung port. Nothing is
issued. -/
theorem yields_runCommand_of_busy (hsteady : engine.Steady port)
    (hformed : engine.scatter command = .ok entries) (hbusy : port.busy = true)
    (memory : Memory) :
    (runCommand command).Yields engine ⟨port, memory⟩ (.ok (.error .portHung, engine))
      ⟨port.rested engine.areas, engine.build 0 command entries memory⟩ 0 := by
  obtain ⟨status, _, hup⟩ := hsteady.registers
  refine yields_runCommand hsteady [] fun arena => ?_
  rw [Engine.submit, hformed]
  refine (HostM.yields_changeMemory _ _).seq ?_
  exact HostM.yields_issueAndWait_of_busy hup hbusy _

/-- On a stalled port a command is built and issued once, times out, and stays pending in PxCI. -/
theorem yields_runCommand_of_stalled (hsteady : engine.Steady port)
    (hformed : engine.scatter command = .ok entries) (hprompt : port.busy = false)
    (hstalled : port.stalled = true) (memory : Memory) :
    (runCommand command).Yields engine ⟨port, memory⟩ (.ok (.error .timeout, engine))
      ⟨port.begun engine.areas, engine.build 0 command entries memory⟩ 1 := by
  obtain ⟨status, _, hup⟩ := hsteady.registers
  refine yields_runCommand hsteady [.issued, .done] fun arena => ?_
  rw [Engine.submit, hformed]
  refine (HostM.yields_changeMemory _ _).seq ?_
  exact HostM.yields_issueAndWait_of_stalled hsteady.patient hup hprompt hstalled
    (hsteady.bounded hstalled) _

/-- On a port that is neither busy nor stalled a command is built, issued once in slot 0, run by the
device on the memory that was built, and reported as the device ended it. -/
theorem yields_runCommand_of_ready (hsteady : engine.Steady port)
    (hformed : engine.scatter command = .ok entries) (hprompt : port.busy = false)
    (hmoving : port.stalled = false) (memory : Memory) :
    let built := engine.build 0 command entries memory
    let begun := port.begun engine.areas
    let ending := (port.drive.run (.fetch begun.listAddress 0 built) built).1
    (runCommand command).Yields engine ⟨port, memory⟩
      (.ok (ending.outcome command.isPacket, engine))
      ⟨(begun.execute 0 built).1, (begun.execute 0 built).2⟩ 1 := by
  intro built begun ending
  obtain ⟨status, _, hup⟩ := hsteady.registers
  refine yields_runCommand hsteady [.issued, .done] fun arena => ?_
  rw [Engine.submit, hformed]
  refine (HostM.yields_changeMemory _ _).seq ?_
  exact HostM.yields_issueAndWait_of_ready hsteady.patient hup hprompt hmoving built

end EngineM

/-! What a request makes of the end of its command. -/

namespace RequestM

variable {engine : Engine} {command : Command} {before between after : Machine SimulatedPort}
  {issued : Nat}

theorem yields_execute_of_ok
    (hran : (EngineM.runCommand command).Yields engine before (.ok (.ok (), engine)) after
      issued) :
    (execute command).Yields engine before (.ok (.ok (), engine)) after issued :=
  (yields_onEngine hran).finish (yields_pure () engine after)

theorem yields_execute_of_error {error : CommandError} {answer : IoError}
    (hran : (EngineM.runCommand command).Yields engine before (.ok (.error error, engine))
      between issued)
    (hfailed : (engine.fail command.label error).Yields between (.ok answer) after 0) :
    (execute command).Yields engine before (.ok (.error answer, engine)) after issued := by
  refine (yields_onEngine hran).finish ?_
  exact (yields_withEngine hfailed).seq (yields_throw answer engine after)

theorem yields_remember (sense : SenseData) (engine : Engine) (machine : Machine SimulatedPort) :
    (do
      onEngine (modify fun engine => { engine with lastSense := some sense })
      return sense : RequestM SimulatedPort SenseData).Yields engine machine
        (.ok (.ok sense, { engine with lastSense := some sense })) machine 0 := by
  refine (yields_onEngine (EngineM.yields_modify _ engine machine)).seq ?_
  exact yields_pure sense _ machine

end RequestM

namespace EngineM

variable {engine left : Engine} {cdb : Cdb} {data : DataPhase} {label : String}
  {before between after : Machine SimulatedPort} {issued : Nat}

theorem yields_packet_of_ok
    (hran : (runCommand (.packet cdb data label)).Yields engine before (.ok (.ok (), engine))
      after issued) :
    (packet cdb data label).Yields engine before (.ok (.ok (), engine)) after issued :=
  hran.finish (yields_pure _ engine after)

theorem yields_packet_of_error {error : CommandError} {answer : IoError}
    (hran : (runCommand (.packet cdb data label)).Yields engine before
      (.ok (.error error, engine)) between issued)
    (hother : error ≠ .checkCondition)
    (hfailed : (engine.fail label error).Yields between (.ok answer) after 0) :
    (packet cdb data label).Yields engine before (.ok (.error answer, engine)) after issued := by
  refine hran.finish ?_
  cases error with
  | checkCondition => exact absurd rfl hother
  | _ =>
    refine (yields_withEngine hfailed).seq ?_
    exact yields_pure _ engine after

end EngineM

end Ahci
