import Ahci.Engine.BringUp
import Ahci.Proofs.Execution
import Ahci.Simulation.Port

/-!
The command engine of a simulated port going down and up again. PxCMD takes three values on
the way: processing and receiving, receiving only, and neither. Stopping drops what PxCI
still shows, and starting makes the device show itself idle, so a port that was restarted
looks the same whatever the command before left in its registers.
-/

namespace Ahci

/-- PxCMD of a port that processes commands and receives frames: ST, FRE, FR and CR are set. -/
def runningCommand : UInt32 := 0xC011

/-- PxCMD of a port that only receives frames: FRE and FR are set. -/
def receivingCommand : UInt32 := 0x4010

namespace SimulatedPort

/-- The port with other registers. -/
def withRegisters (port : SimulatedPort) (registers : PortRegisters) : SimulatedPort :=
  { port with registers }

end SimulatedPort

/-! PxCMD follows the handshakes. -/

namespace PortRegisters

variable {registers : PortRegisters}

/-- Clearing ST on a running port clears CR with it and drops what PxCI shows. -/
theorem writeCommand_stopProcessing (hup : registers.cmd = runningCommand) :
    SimulatedPort.writeCommand registers (Word.clear registers.cmd CmdBit.start) =
      { registers with cmd := receivingCommand, ci := 0 } := by
  rw [hup]
  rfl

/-- Clearing FRE on a port that only receives leaves PxCMD without any of its bits. -/
theorem writeCommand_stopReceiving (hreceiving : registers.cmd = receivingCommand) :
    SimulatedPort.writeCommand registers (Word.clear registers.cmd CmdBit.fisReceive) =
      { registers with cmd := 0, ci := 0 } := by
  rw [hreceiving]
  rfl

/-- Setting FRE on a stopped port sets FR with it. -/
theorem writeCommand_startReceiving (hdown : registers.cmd = 0) :
    SimulatedPort.writeCommand registers (Word.set registers.cmd CmdBit.fisReceive) =
      { registers with cmd := receivingCommand, ci := 0 } := by
  rw [hdown]
  rfl

/-- Setting ST on a receiving port sets CR with it and shows the task file of an idle device. -/
theorem writeCommand_startProcessing (hreceiving : registers.cmd = receivingCommand) :
    SimulatedPort.writeCommand registers (Word.set registers.cmd CmdBit.start) =
      { registers with cmd := runningCommand, tfd := SimulatedPort.idleFile } := by
  have hstopped : Word.test registers.cmd CmdBit.start = false := by
    rw [hreceiving]
    rfl
  simp only [SimulatedPort.writeCommand, hstopped]
  rw [hreceiving]
  rfl

end PortRegisters

namespace HostM

variable {port : SimulatedPort} {memory : Memory}

theorem yields_readRegister (window : Window) {offset : Nat} {value : UInt32}
    (hshown : port.readRegister offset = value) (memory : Memory) :
    (readRegister window offset).Yields ⟨port, memory⟩ (.ok value) ⟨port, memory⟩ 0 := by
  subst hshown
  rintro ⟨device, memory, allocator, frameEvents, accesses, log, patience⟩ ⟨⟩
  exact ⟨_, rfl, rfl, rfl, rfl, rfl, ⟨[], rfl, by simp⟩, rfl⟩

/-- A write to any register but PxCI has the effect that the port gives it, and issues no
command. -/
theorem yields_writeRegister (window : Window) {offset : Nat} {value : UInt32}
    {later : SimulatedPort} {changed : Memory} (hother : offset ≠ PortRegister.ci)
    (heffect : port.writeRegister offset value memory = (later, changed)) :
    (writeRegister window offset value).Yields ⟨port, memory⟩ (.ok ()) ⟨later, changed⟩ 0 := by
  rintro ⟨device, memory, allocator, frameEvents, accesses, log, patience⟩ ⟨⟩
  have hnotIssue : Access.isIssue (.write window offset value) = false := by
    simpa [Access.isIssue] using hother
  refine ⟨_, rfl, ?_, rfl, rfl, rfl, ⟨[], rfl, by simp⟩, ?_⟩
  · change Machine.mk (device.writeRegister offset value memory).1
      (device.writeRegister offset value memory).2 = _
    rw [heffect]
  · simp [World.issues, hnotIssue]

theorem yields_issue (window : Window) {value : UInt32} {later : SimulatedPort}
    {changed : Memory} (heffect : port.issue value memory = (later, changed)) :
    (writeRegister window PortRegister.ci value).Yields ⟨port, memory⟩ (.ok ())
      ⟨later, changed⟩ 1 := by
  rintro ⟨device, memory, allocator, frameEvents, accesses, log, patience⟩ ⟨⟩
  refine ⟨_, rfl, ?_, rfl, rfl, rfl, ⟨[], rfl, by simp⟩, ?_⟩
  · change Machine.mk (device.issue value memory).1 (device.issue value memory).2 = _
    rw [heffect]
  · simp [World.issues, Access.isIssue]

theorem yields_readCommand (window : Window) (port : SimulatedPort) (memory : Memory) :
    (readRegister window PortRegister.cmd).Yields ⟨port, memory⟩ (.ok port.registers.cmd)
      ⟨port, memory⟩ 0 :=
  yields_readRegister window rfl memory

/-- A wait for a bit of PxCMD succeeds with its first read if the bit already has the value, for any
limit that allows a read. -/
theorem yields_commandBitBecomes (window : Window) (port : SimulatedPort) {bit limit : Nat}
    {value : Bool} (hpatient : 0 < limit) (hshown : Word.test port.registers.cmd bit = value)
    (memory : Memory) :
    (commandBitBecomes window bit value limit).Yields ⟨port, memory⟩ (.ok true)
      ⟨port, memory⟩ 0 := by
  obtain ⟨reads, rfl⟩ := Nat.exists_eq_succ_of_ne_zero (Nat.ne_of_gt hpatient)
  refine (yields_readCommand window port memory).seq ?_
  rw [hshown, BEq.rfl, if_pos rfl]
  exact yields_pure true _

/-- On a running port the handshake succeeds and leaves PxCMD and PxCI clear, for any limit that
allows a read. No other register, no memory and nothing of the drive changes. -/
theorem yields_stopEngine (window : Window) {limit : Nat} (hpatient : 0 < limit)
    (hup : port.registers.cmd = runningCommand) (memory : Memory) :
    (stopEngine window limit).Yields ⟨port, memory⟩ (.ok (.ok ()))
      ⟨port.withRegisters { port.registers with cmd := 0, ci := 0 }, memory⟩ 0 := by
  let receiving := port.withRegisters { port.registers with cmd := receivingCommand, ci := 0 }
  have hrunning : isIdle port.registers.cmd = false := by
    rw [hup]
    rfl
  let down := port.withRegisters { port.registers with cmd := 0, ci := 0 }
  have hfirst : port.writeRegister PortRegister.cmd
      (Word.clear port.registers.cmd CmdBit.start) memory = (receiving, memory) := by
    change (port.withRegisters (SimulatedPort.writeCommand _ _), memory) = _
    rw [PortRegisters.writeCommand_stopProcessing hup]
  have hsecond : receiving.writeRegister PortRegister.cmd
      (Word.clear receiving.registers.cmd CmdBit.fisReceive) memory = (down, memory) := by
    change (receiving.withRegisters (SimulatedPort.writeCommand _ _), memory) = _
    rw [PortRegisters.writeCommand_stopReceiving rfl]
    rfl
  have hceased : Word.test receivingCommand CmdBit.listRunning = false := rfl
  have hdeaf : Word.test 0 CmdBit.fisRunning = false := rfl
  refine (yields_readCommand window port memory).seq ?_
  rw [hrunning]
  refine (yields_writeRegister window (by decide) hfirst).seq ?_
  refine (yields_commandBitBecomes window receiving hpatient hceased memory).seq ?_
  refine (yields_readCommand window receiving memory).seq ?_
  refine (yields_writeRegister window (by decide) hsecond).seq ?_
  refine (yields_commandBitBecomes window down hpatient hdeaf memory).seq ?_
  exact yields_pure _ _

/-- On a port whose PxCMD is clear the handshake succeeds and changes nothing, for any limit. -/
theorem yields_stopEngine_of_down (window : Window) (limit : Nat)
    (hdown : port.registers.cmd = 0) (memory : Memory) :
    (stopEngine window limit).Yields ⟨port, memory⟩ (.ok (.ok ())) ⟨port, memory⟩ 0 := by
  have hidle : isIdle port.registers.cmd = true := by
    rw [hdown]
    rfl
  refine (yields_readCommand window port memory).seq ?_
  rw [hidle]
  exact yields_pure _ _

/-- On a stopped port the handshake succeeds for any limit that allows a read, and leaves the port
running, with PxCI clear and the task file of an idle device. -/
theorem yields_startEngine (window : Window) {limit : Nat} (hpatient : 0 < limit)
    (hdown : port.registers.cmd = 0) (memory : Memory) :
    (startEngine window limit).Yields ⟨port, memory⟩ (.ok (.ok ()))
      ⟨port.withRegisters { port.registers with
        cmd := runningCommand, tfd := SimulatedPort.idleFile, ci := 0 }, memory⟩ 0 := by
  let receiving := port.withRegisters { port.registers with cmd := receivingCommand, ci := 0 }
  have hfirst : port.writeRegister PortRegister.cmd
      (Word.set port.registers.cmd CmdBit.fisReceive) memory = (receiving, memory) := by
    change (port.withRegisters (SimulatedPort.writeCommand _ _), memory) = _
    rw [PortRegisters.writeCommand_startReceiving hdown]
  have hsecond : receiving.writeRegister PortRegister.cmd
      (Word.set receiving.registers.cmd CmdBit.start) memory =
        (port.withRegisters { port.registers with
          cmd := runningCommand, tfd := SimulatedPort.idleFile, ci := 0 }, memory) := by
    change (receiving.withRegisters (SimulatedPort.writeCommand _ _), memory) = _
    rw [PortRegisters.writeCommand_startProcessing rfl]
    rfl
  have hceased : Word.test port.registers.cmd CmdBit.listRunning = false := by
    rw [hdown]
    rfl
  have hhearing : Word.test receivingCommand CmdBit.fisRunning = true := rfl
  refine (yields_commandBitBecomes window port hpatient hceased memory).seq ?_
  refine (yields_readCommand window port memory).seq ?_
  refine (yields_writeRegister window (by decide) hfirst).seq ?_
  refine (yields_commandBitBecomes window receiving hpatient hhearing memory).seq ?_
  refine (yields_readCommand window receiving memory).seq ?_
  refine (yields_writeRegister window (by decide) hsecond).seq ?_
  exact yields_pure _ _

end HostM

end Ahci
