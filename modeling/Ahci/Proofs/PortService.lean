import Ahci.Engine.Ata
import Ahci.Proofs.SharedMemory
import Ahci.Proofs.SteadyCalls

/-!
One request on a port that waits, answered by its device. With sound areas the device runs
exactly the command that was built, on exactly the data that was staged, so what a request
answers is said by the drive alone: the sectors that it holds, the failures that are queued in
it, and whether the sectors asked for are there.
-/

namespace Ahci

/-- What the end of a command leaves in the drive. A check condition leaves the sense that explains
it pending, and any other end leaves the drive as the command did. -/
def Ending.explained (ending : Ending) (drive : Drive) : Drive :=
  match ending with
  | .checkCondition sense => { drive with pendingSense := some sense }
  | _ => drive

/-- The error that a request without a packet fails with when its command ends so. -/
def Ending.failure (ending : Ending) : IoError :=
  match ending with
  | .done => .deviceError
  | .taskFile error => ataFailure error
  | .checkCondition sense => ataFailure (UInt8.ofNat (16 * sense.key.toNat))

namespace SimulatedPort

/-- The port behind a command that its device ran: the command is recorded as fetched, and the
registers show the end. -/
def served (port : SimulatedPort) (areas : PortAreas) (command : FetchedCommand)
    (ending : Ending) (drive : Drive) : SimulatedPort :=
  { port with
    registers := showEnding (areas.registers 0 idleFile 1) 0 ending
    drive := ending.explained drive
    fetched := command :: port.fetched }

theorem listAddress_begun (port : SimulatedPort) {areas : PortAreas} :
    (port.begun areas).listAddress = areas.list.address 0 := by
  have hhalves := (areas.list.physAt 0).halves
  rw [Engine.physAt_zero] at hhalves
  exact hhalves

/-- A device that is shown a command in slot 0 fetches it from memory and runs it. -/
theorem execute_begun {port : SimulatedPort} {areas : PortAreas} {memory changed : Memory}
    {command : FetchedCommand} {ending : Ending} {drive : Drive}
    (hfetched : FetchedCommand.fetch (areas.list.address 0) 0 memory = command)
    (hran : port.drive.run command memory = (ending, drive, changed)) :
    (port.begun areas).execute 0 memory = (port.served areas command ending drive, changed) := by
  have hran' : (port.begun areas).drive.run command memory = (ending, drive, changed) := hran
  rw [execute, listAddress_begun, hfetched, hran']
  cases ending <;> rfl

end SimulatedPort

/-- A port from which a request has returned: steady, with the given drive behind it, and with its
switches where they were. -/
structure Engine.Serves (engine : Engine) (before : SimulatedPort) (drive : Drive)
    (after : SimulatedPort) : Prop where
  steady : engine.Steady after
  drive : after.drive = drive
  busy : after.busy = before.busy
  stalled : after.stalled = before.stalled

namespace Engine

variable {engine : Engine} {port : SimulatedPort}

theorem serves_served (hsteady : engine.Steady port) (command : FetchedCommand) (drive : Drive) :
    engine.Serves port drive (port.served engine.areas command .done drive) :=
  ⟨⟨hsteady.free, hsteady.patient, ⟨1, rfl, SimulatedPort.showEnding_done engine.areas⟩,
    hsteady.bounded⟩, rfl, rfl, rfl⟩

theorem serves_rested (hsteady : engine.Steady port) (command : FetchedCommand) (ending : Ending)
    (drive : Drive) :
    engine.Serves port (ending.explained drive)
      ((port.served engine.areas command ending drive).rested engine.areas) :=
  ⟨⟨hsteady.free, hsteady.patient, ⟨0, rfl, rfl⟩, hsteady.bounded⟩, rfl, rfl, rfl⟩

end Engine

/-- A port whose device takes commands and runs them: it is neither busy nor stalled. -/
structure SimulatedPort.Willing (port : SimulatedPort) : Prop where
  prompt : port.busy = false
  moving : port.stalled = false

variable {engine : Engine} {port : SimulatedPort} {command : Command}
  {entries : List ScatterEntry} {memory changed : Memory} {ending : Ending} {drive : Drive}

/-- On a steady and willing port with sound areas, a command ends as the drive ends the command that
was built, run on the memory that was built. It is issued once, in slot 0. -/
theorem EngineM.yields_runCommand_of_run (hsteady : engine.Steady port)
    (hlayout : engine.areas.Layout) (hwilling : port.Willing)
    (hformed : engine.scatter command = .ok entries)
    (hran : port.drive.run (command.fetched 0 entries) (engine.build 0 command entries memory) =
      (ending, drive, changed)) :
    (runCommand command).Yields engine ⟨port, memory⟩
      (.ok (ending.outcome command.isPacket, engine))
      ⟨port.served engine.areas (command.fetched 0 entries) ending drive, changed⟩ 1 := by
  have hfirst : 0 < slotCount := by decide
  have hfew := (Engine.transfer_run hlayout hfirst hformed memory).1
  have hfetched := Engine.fetch_build hlayout hfirst command hfew memory
  have hyields := yields_runCommand_of_ready hsteady hformed hwilling.prompt hwilling.moving memory
  simp only [SimulatedPort.listAddress_begun, hfetched] at hyields
  rw [SimulatedPort.execute_begun hfetched hran, hran] at hyields
  exact hyields

namespace RequestM

/-- A request whose command the drive carries out succeeds, and leaves a steady port with the drive
as the command left it. -/
theorem exists_execute_of_done (hsteady : engine.Steady port) (hlayout : engine.areas.Layout)
    (hwilling : port.Willing) (hformed : engine.scatter command = .ok entries)
    (hran : port.drive.run (command.fetched 0 entries) (engine.build 0 command entries memory) =
      (.done, drive, changed)) :
    ∃ after, (execute command).Yields engine ⟨port, memory⟩ (.ok (.ok (), engine))
        ⟨after, changed⟩ 1 ∧ engine.Serves port drive after :=
  ⟨_, yields_execute_of_ok (EngineM.yields_runCommand_of_run hsteady hlayout hwilling hformed hran),
    Engine.serves_served hsteady _ drive⟩

/-- A request without a packet whose command the drive fails reports the error register, and the
restart that follows brings the port to rest. -/
theorem yields_execute_of_failed (hsteady : engine.Steady port) (hlayout : engine.areas.Layout)
    (hwilling : port.Willing) (hplain : command.cdb = none)
    (hformed : engine.scatter command = .ok entries) (hfailed : ending ≠ .done)
    (hran : port.drive.run (command.fetched 0 entries) (engine.build 0 command entries memory) =
      (ending, drive, changed)) :
    (execute command).Yields engine ⟨port, memory⟩ (.ok (.error ending.failure, engine))
      ⟨(port.served engine.areas (command.fetched 0 entries) ending drive).rested engine.areas,
        changed⟩ 1 := by
  have hyields := EngineM.yields_runCommand_of_run hsteady hlayout hwilling hformed hran
  have hpacket : command.isPacket = false := by rw [Command.isPacket, hplain]; rfl
  obtain ⟨error, hshown, houtcome⟩ := SimulatedPort.showEnding_failed engine.areas hfailed
  rw [hpacket, houtcome] at hyields
  have htold : ending.failure = ataFailure (UInt8.ofNat error) := by
    have hsame := houtcome false
    cases ending with
    | done => exact absurd rfl hfailed
    | taskFile code =>
      cases hsame
      rfl
    | checkCondition sense =>
      have hcode : UInt8.ofNat (16 * sense.key.toNat) = UInt8.ofNat error := by
        simpa [Ending.outcome] using hsame
      rw [Ending.failure, hcode]
  have hfailing := Engine.yields_fail_of_stopped
    (show (CommandError.taskFile (UInt8.ofNat error)).needsRecovery = true from rfl)
    hsteady.patient
    (show (port.served engine.areas (command.fetched 0 entries) ending drive).registers = _
      from hshown) command.label changed
  rw [if_neg (by decide)] at hyields
  rw [htold]
  exact yields_execute_of_error hyields hfailing

/-- A request without a packet whose command the drive fails leaves a steady port. -/
theorem exists_execute_of_failed (hsteady : engine.Steady port) (hlayout : engine.areas.Layout)
    (hwilling : port.Willing) (hplain : command.cdb = none)
    (hformed : engine.scatter command = .ok entries) (hfailed : ending ≠ .done)
    (hran : port.drive.run (command.fetched 0 entries) (engine.build 0 command entries memory) =
      (ending, drive, changed)) :
    ∃ after, (execute command).Yields engine ⟨port, memory⟩
        (.ok (.error ending.failure, engine)) ⟨after, changed⟩ 1 ∧
      engine.Serves port (ending.explained drive) after :=
  ⟨_, yields_execute_of_failed hsteady hlayout hwilling hplain hformed hfailed hran,
    Engine.serves_rested hsteady _ ending drive⟩

/-- A request on a stalled port times out, over any memory, and the restart that follows drops its
command, which the device therefore never runs. -/
theorem yields_execute_of_stalled (hsteady : engine.Steady port) (hprompt : port.busy = false)
    (hstalled : port.stalled = true) (hformed : engine.scatter command = .ok entries)
    (memory : Memory) :
    (execute command).Yields engine ⟨port, memory⟩ (.ok (.error .timeout, engine))
      ⟨(port.begun engine.areas).rested engine.areas, engine.build 0 command entries memory⟩
        1 := by
  have hyields := EngineM.yields_runCommand_of_stalled hsteady hformed hprompt hstalled memory
  have hfailing := Engine.yields_fail_of_stopped (show CommandError.timeout.needsRecovery = true
    from rfl) hsteady.patient (show (port.begun engine.areas).registers = _ from rfl) command.label
    (engine.build 0 command entries memory)
  exact yields_execute_of_error hyields hfailing

/-- A request on a stalled port leaves a steady port with the drive untouched. -/
theorem exists_execute_of_stalled (hsteady : engine.Steady port) (hprompt : port.busy = false)
    (hstalled : port.stalled = true) (hformed : engine.scatter command = .ok entries)
    (memory : Memory) :
    ∃ after, (execute command).Yields engine ⟨port, memory⟩ (.ok (.error .timeout, engine))
        ⟨after, engine.build 0 command entries memory⟩ 1 ∧
      engine.Serves port port.drive after := by
  refine ⟨_, yields_execute_of_stalled hsteady hprompt hstalled hformed memory, ?_⟩
  exact ⟨⟨hsteady.free, hsteady.patient, ⟨0, rfl, rfl⟩, hsteady.bounded⟩, rfl, rfl, rfl⟩

/-! Staging areas. -/

/-- Reading the staging area returns its first bytes as memory has them, and changes nothing. -/
theorem yields_readStaging (port : SimulatedPort) (hsized : engine.areas.Sized) {count : Nat}
    (hfits : count ≤ 65536) (memory : Memory) :
    (onEngine (EngineM.readStaging count)).Yields engine ⟨port, memory⟩
      (.ok (.ok (memory.load (engine.areas.read.address 0) count), engine)) ⟨port, memory⟩ 0 := by
  have hholds : decide (count ≤ engine.areas.read.size) = true := by
    rw [hsized.size_read]
    exact decide_eq_true hfits
  refine yields_onEngine (EngineM.yields_withEngine ?_)
  refine (HostM.yields_require hholds _ _).seq ?_
  exact HostM.yields_inspectMemory _ _

/-- The memory with data at the front of the write staging area and zeros behind it. -/
def staged (engine : Engine) (data : List UInt8) (count : Nat) (memory : Memory) : Memory :=
  (memory.store (engine.areas.write.address 0) data).zero
    (engine.areas.write.address data.length) (count - data.length)

/-- Filling the staging area changes memory as `staged` says, and nothing else. -/
theorem yields_fillStaging (port : SimulatedPort) (hsized : engine.areas.Sized)
    {data : List UInt8} {count : Nat} (hfits : count ≤ 65536) (hlong : data.length ≤ count)
    (memory : Memory) :
    (onEngine (EngineM.fillStaging data count)).Yields engine ⟨port, memory⟩
      (.ok (.ok (), engine)) ⟨port, staged engine data count memory⟩ 0 := by
  have hholds : (decide (count ≤ engine.areas.write.size) && decide (data.length ≤ count)) =
      true := by
    rw [hsized.size_write, decide_eq_true hfits, decide_eq_true hlong]
    rfl
  refine yields_onEngine (EngineM.yields_withEngine ?_)
  refine (HostM.yields_require hholds _ _).seq ?_
  exact HostM.yields_changeMemory _ _

/-- The staged bytes are the data and the zeros behind it, up to the count. -/
theorem load_staged {data : List UInt8} {count : Nat} (hlong : data.length ≤ count)
    (memory : Memory) :
    (staged engine data count memory).load (engine.areas.write.address 0) count =
      data ++ List.replicate (count - data.length) 0 := by
  have hwhole : count = data.length + (count - data.length) := by omega
  have hsplit := (staged engine data count memory).load_add (engine.areas.write.address 0)
    data.length (count - data.length)
  rw [← hwhole] at hsplit
  rw [hsplit, staged, Memory.load_zero_of_disjoint _ (.inl (by simp only [Region.address]; omega)),
    Memory.load_store]
  congr 1
  apply Memory.load_zero
  simp only [Region.address]
  omega

/-- What the device answers a command with stands in the read staging area behind it, as many bytes
as the driver then reads. The command must ask for just as many bytes as the answer has, at most
65536. -/
theorem exists_delivered (hsteady : engine.Steady port) (hsized : engine.areas.Sized)
    (hlayout : engine.areas.Layout) (hwilling : port.Willing)
    (hformed : engine.scatter command = .ok entries) {data : List UInt8}
    (htowards : command.data = .toHost data.length) (hfits : data.length ≤ 65536)
    (hran : port.drive.run (command.fetched 0 entries) (engine.build 0 command entries memory) =
      (.done, drive, scatterData entries data (engine.build 0 command entries memory))) :
    let after := port.served engine.areas (command.fetched 0 entries) .done drive
    ∃ changed, (EngineM.runCommand command).Yields engine ⟨port, memory⟩ (.ok (.ok (), engine))
        ⟨after, changed⟩ 1 ∧
      (onEngine (EngineM.readStaging data.length)).Yields engine ⟨after, changed⟩
        (.ok (.ok data, engine)) ⟨after, changed⟩ 0 := by
  intro after
  let changed := scatterData entries data (engine.build 0 command entries memory)
  obtain ⟨_, _, hscattered⟩ :=
    Engine.transfer_run hlayout (show 0 < slotCount by decide) hformed memory
  have harrived : changed.load (engine.areas.read.address 0) data.length = data := by
    change (scatterData entries data _).load _ _ = data
    rw [hscattered, Engine.deliver, htowards]
    dsimp only
    rw [List.take_length]
    exact Memory.load_store _ _ _
  have htaken := yields_readStaging after hsized hfits changed
  rw [harrived] at htaken
  exact ⟨changed, EngineM.yields_runCommand_of_run hsteady hlayout hwilling hformed hran, htaken⟩

/-- A request that runs one command and reads the staging area behind it returns the answer of the
device. -/
theorem exists_receive (hsteady : engine.Steady port) (hsized : engine.areas.Sized)
    (hlayout : engine.areas.Layout) (hwilling : port.Willing)
    (hformed : engine.scatter command = .ok entries) {data : List UInt8}
    (htowards : command.data = .toHost data.length) (hfits : data.length ≤ 65536)
    (hran : port.drive.run (command.fetched 0 entries) (engine.build 0 command entries memory) =
      (.done, drive, scatterData entries data (engine.build 0 command entries memory))) :
    let after := port.served engine.areas (command.fetched 0 entries) .done drive
    ∃ changed, (execute command).Yields engine ⟨port, memory⟩ (.ok (.ok (), engine))
        ⟨after, changed⟩ 1 ∧
      (onEngine (EngineM.readStaging data.length)).Yields engine ⟨after, changed⟩
        (.ok (.ok data, engine)) ⟨after, changed⟩ 0 := by
  obtain ⟨changed, hyields, htaken⟩ :=
    exists_delivered hsteady hsized hlayout hwilling hformed htowards hfits hran
  exact ⟨changed, yields_execute_of_ok hyields, htaken⟩

/-- A request that stages data and runs one command gives the device just the data and the zeros
behind it, up to the count of the command. -/
theorem exists_send (hsteady : engine.Steady port) (hsized : engine.areas.Sized)
    (hlayout : engine.areas.Layout) (hwilling : port.Willing)
    (hformed : engine.scatter command = .ok entries) {data : List UInt8} {count : Nat}
    (htowards : command.data = .fromHost count) (hfits : count ≤ 65536)
    (hlong : data.length ≤ count)
    (hran : ∀ built, gatherData entries built = data ++ List.replicate (count - data.length) 0 →
      port.drive.run (command.fetched 0 entries) built = (.done, drive, built))
    (memory : Memory) :
    ∃ after changed, (onEngine (EngineM.fillStaging data count)).Yields engine ⟨port, memory⟩
        (.ok (.ok (), engine)) ⟨port, staged engine data count memory⟩ 0 ∧
      (execute command).Yields engine ⟨port, staged engine data count memory⟩
        (.ok (.ok (), engine)) ⟨after, changed⟩ 1 ∧
      engine.Serves port drive after := by
  obtain ⟨_, hgathered, _⟩ := Engine.transfer_run hlayout (show 0 < slotCount by decide) hformed
    (staged engine data count memory)
  rw [Engine.payload, htowards] at hgathered
  obtain ⟨after, hyields, hserves⟩ := exists_execute_of_done hsteady hlayout hwilling hformed
    (hran _ (hgathered.trans (load_staged hlong memory)))
  exact ⟨after, _, yields_fillStaging port hsized hfits hlong memory, hyields, hserves⟩

end RequestM

end Ahci
