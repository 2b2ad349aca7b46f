import Ahci.Host
import Ahci.Simulation.Drive

/-!
A simulated port: the registers of a port in front of a simulated device. Setting a bit of
PxCI while the engine runs fetches the command of that slot from memory and runs it at
once, unless the device is told to leave commands pending.
-/

namespace Ahci

structure PortRegisters where
  clb : UInt32 := 0
  clbu : UInt32 := 0
  fb : UInt32 := 0
  fbu : UInt32 := 0
  is : UInt32 := 0
  ie : UInt32 := 0
  cmd : UInt32 := 0
  tfd : UInt32 := 0x50
  serr : UInt32 := 0
  ci : UInt32 := 0
deriving DecidableEq, Repr

/-- A port with its device. -/
structure SimulatedPort where
  registers : PortRegisters := {}
  drive : Drive
  /-- The device shows itself busy. -/
  busy : Bool := false
  /-- Commands are left pending. -/
  stalled : Bool := false
  fetched : List FetchedCommand := []

namespace SimulatedPort

def idleFile : UInt32 := 0x50

def busyFile : UInt32 := 0x80

/-- Task file of a device that failed a command. -/
def failedFile (error : Nat) : UInt32 :=
  UInt32.ofNat (0x41 + 256 * (error % 256))

def activeLink : UInt32 := 0x113

def isRunning (port : SimulatedPort) : Bool :=
  Word.test port.registers.cmd CmdBit.start

/-- Where the command list was said to be. -/
def listAddress (port : SimulatedPort) : Nat :=
  port.registers.clb.toNat + UInt32.size * port.registers.clbu.toNat

/-- Where received frames were said to go. -/
def receivedAddress (port : SimulatedPort) : Nat :=
  port.registers.fb.toNat + UInt32.size * port.registers.fbu.toNat

/-- What reading a register shows. It changes nothing, and registers that are not modelled read as
zero. -/
def readRegister (port : SimulatedPort) (offset : Nat) : UInt32 :=
  let registers := port.registers
  if offset = PortRegister.clb then registers.clb
  else if offset = PortRegister.clbu then registers.clbu
  else if offset = PortRegister.fb then registers.fb
  else if offset = PortRegister.fbu then registers.fbu
  else if offset = PortRegister.is then registers.is
  else if offset = PortRegister.ie then registers.ie
  else if offset = PortRegister.cmd then registers.cmd
  else if offset = PortRegister.tfd then if port.busy then busyFile else registers.tfd
  else if offset = PortRegister.sig then
    match port.drive.kind with
    | .packetDrive => Attachment.packetSignature
    | _ => Attachment.diskSignature
  else if offset = PortRegister.ssts then
    match port.drive.kind with
    | .empty => 0
    | _ => activeLink
  else if offset = PortRegister.serr then registers.serr
  else if offset = PortRegister.ci then registers.ci
  else 0

def update (port : SimulatedPort) (f : PortRegisters → PortRegisters) : SimulatedPort :=
  { port with registers := f port.registers }

/-- The engine follows what PxCMD asks for: what is asked to run runs, and what is not asked
to does not. Stopping the engine drops the commands it had, starting it makes the device
wait for one. -/
def writeCommand (registers : PortRegisters) (value : UInt32) : PortRegisters :=
  let wasRunning := Word.test registers.cmd CmdBit.start
  let asked := Word.clear (Word.clear value CmdBit.listRunning) CmdBit.fisRunning
  let receiving :=
    if Word.test value CmdBit.fisReceive then Word.set asked CmdBit.fisRunning else asked
  if Word.test value CmdBit.start then
    { registers with
      cmd := Word.set receiving CmdBit.listRunning
      tfd := if wasRunning then registers.tfd else idleFile }
  else
    { registers with cmd := receiving, ci := 0 }

/-- Shows how the command of a slot ended. A command that failed keeps its bit of PxCI. -/
def showEnding (registers : PortRegisters) (slot : Nat) : Ending → PortRegisters
  | .done =>
    { registers with
      ci := Word.clear registers.ci slot
      is := Word.set registers.is StatusBit.deviceFrame
      tfd := idleFile }
  | .taskFile error =>
    { registers with
      is := Word.set registers.is StatusBit.taskFile
      tfd := failedFile error.toNat }
  | .checkCondition sense =>
    { registers with
      is := Word.set registers.is StatusBit.taskFile
      tfd := failedFile (16 * sense.key.toNat) }

/-- Fetches the command of a slot and runs it. -/
def execute (port : SimulatedPort) (slot : Nat) (memory : Memory) : SimulatedPort × Memory :=
  let command := FetchedCommand.fetch port.listAddress slot memory
  let (ending, drive, memory) := port.drive.run command memory
  let drive :=
    match ending with
    | .checkCondition sense => { drive with pendingSense := some sense }
    | _ => drive
  ({ port with
      registers := showEnding port.registers slot ending
      drive
      fetched := command :: port.fetched }, memory)

/-- Shows a command in PxCI and runs it, unless the port is stalled: then it stays shown. -/
def issueSlot (port : SimulatedPort) (slot : Nat) (memory : Memory) : SimulatedPort × Memory :=
  let port := port.update fun registers => { registers with ci := Word.set registers.ci slot }
  if port.stalled then (port, memory) else port.execute slot memory

/-- Issues the command of each slot whose bit is set, from the lowest one up. An engine that
does not run takes no commands. -/
def issue (port : SimulatedPort) (value : UInt32) (memory : Memory) : SimulatedPort × Memory :=
  if port.isRunning then
    ((List.range 32).filter (Word.test value)).foldl
      (fun (port, memory) slot => port.issueSlot slot memory) (port, memory)
  else (port, memory)

/-- What writing a register does. Ones written to PxIS and PxSERR clear the bits they meet. -/
def writeRegister (port : SimulatedPort) (offset : Nat) (value : UInt32) (memory : Memory) :
    SimulatedPort × Memory :=
  if offset = PortRegister.clb then
    (port.update fun registers => { registers with clb := value }, memory)
  else if offset = PortRegister.clbu then
    (port.update fun registers => { registers with clbu := value }, memory)
  else if offset = PortRegister.fb then
    (port.update fun registers => { registers with fb := value }, memory)
  else if offset = PortRegister.fbu then
    (port.update fun registers => { registers with fbu := value }, memory)
  else if offset = PortRegister.is then
    (port.update fun registers => { registers with is := registers.is &&& ~~~value }, memory)
  else if offset = PortRegister.ie then
    (port.update fun registers => { registers with ie := value }, memory)
  else if offset = PortRegister.serr then
    (port.update fun registers => { registers with serr := registers.serr &&& ~~~value }, memory)
  else if offset = PortRegister.cmd then
    (port.update fun registers => writeCommand registers value, memory)
  else if offset = PortRegister.ci then port.issue value memory
  else (port, memory)

end SimulatedPort

/-- A simulated port is a device of its own: whatever window is asked for, its registers
answer. -/
instance : Device SimulatedPort where
  read _ offset port _ := (port.readRegister offset, port)
  write _ offset value port memory := port.writeRegister offset value memory

end Ahci
