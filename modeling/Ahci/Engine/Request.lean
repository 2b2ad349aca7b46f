import Ahci.Descriptor.HostFis
import Ahci.Descriptor.ScatterList
import Ahci.Failure
import Ahci.Numeral
import Ahci.Packet.Cdb
import Ahci.Register

/-!
One command as it is handed to a port, and the ways in which it can fail there. A failed
completion is classified by the gravest status bit, and every failure of a command stands
for one failure of a block request.
-/

namespace Ahci

/-- Direction and length of the data of a command. -/
inductive DataPhase where
  | none
  /-- From the device, into the read staging area. -/
  | toHost (bytes : Nat)
  /-- To the device, from the write staging area. -/
  | fromHost (bytes : Nat)
deriving DecidableEq, Repr

def DataPhase.describe : DataPhase → String
  | none => "None"
  | toHost bytes => "ToHost(" ++ toString bytes ++ ")"
  | fromHost bytes => "FromHost(" ++ toString bytes ++ ")"

/-- Everything that is needed to build a command in a slot. -/
structure Command where
  fis : HostFis
  cdb : Option Cdb := .none
  data : DataPhase
  /-- Whether the adapter interrupts after each piece of the data. -/
  interrupt : Bool := true
  /-- What the command is called in the log. -/
  label : String
deriving Repr

namespace Command

/-- A command that carries a packet is a packet command. -/
def isPacket (command : Command) : Bool :=
  command.cdb.isSome

def packet (cdb : Cdb) (data : DataPhase) (label : String) : Command :=
  { fis := (HostFis.command Opcode.packet).withFeatures packetFeatures
    cdb := some cdb, data, label }

end Command

/-- Why a command did not succeed. -/
inductive CommandError where
  /-- Every slot was in use. -/
  | noSlot
  /-- The data cannot be described by one command. -/
  | transfer (error : ScatterError)
  /-- The device did not get ready, so the command was not issued. -/
  | portHung
  /-- The command did not complete within its polls. -/
  | timeout
  /-- The system bus failed. -/
  | hostBusFatal
  /-- Data was lost on the system bus. -/
  | hostBusData
  /-- The interface failed. -/
  | interfaceFatal
  /-- The device failed an ATA command, with this error register. -/
  | taskFile (error : UInt8)
  /-- The device failed a packet command; sense data tells why. -/
  | checkCondition
deriving DecidableEq, Repr

/-- The failure that the error register of an ATA device stands for; of several bits the
most telling one decides. -/
def ataFailure (error : UInt8) : IoError :=
  if error.toNat.testBit ErrorBit.aborted then .unsupported
  else if error.toNat.testBit ErrorBit.uncorrectable then .dataError
  else if error.toNat.testBit ErrorBit.idNotFound then .outOfRange
  else if error.toNat.testBit ErrorBit.mediaChanged then .mediaChanged
  else if error.toNat.testBit ErrorBit.interfaceCrc then .linkError
  else .deviceError

namespace CommandError

def name : CommandError → String
  | noSlot => "NoSlot"
  | transfer _ => "Transfer"
  | portHung => "PortHung"
  | timeout => "Timeout"
  | hostBusFatal => "HostBusFatal"
  | hostBusData => "HostBusData"
  | interfaceFatal => "Interface"
  | taskFile _ => "TaskFile"
  | checkCondition => "CheckCondition"

def message : CommandError → String
  | noSlot => "no free command slot"
  | transfer error => "bad transfer: " ++ error.message
  | portHung => "port hung"
  | timeout => "command timed out"
  | hostBusFatal => "host bus fatal error"
  | hostBusData => "host bus data error"
  | interfaceFatal => "interface fatal error"
  | taskFile error => "task file error " ++ hexMarkedPadded 2 error.toNat
  | checkCondition => "check condition"

/-- The failure of a block request that a failure of its command stands for. -/
def toIoError : CommandError → IoError
  | noSlot => .notReady
  | transfer _ => .invalidBuffer
  | portHung => .notReady
  | timeout => .timeout
  | hostBusFatal => .hostBusError
  | hostBusData => .hostBusError
  | interfaceFatal => .linkError
  | taskFile error => ataFailure error
  | checkCondition => .deviceError

/-- Whether the failure may have stopped the command engine: only a command that never
reached the adapter leaves it running for sure. -/
def needsRecovery : CommandError → Bool
  | noSlot => false
  | transfer _ => false
  | portHung => false
  | _ => true

/-- The failure of a completion. The system bus outranks the interface, and the interface
outranks the device. -/
def ofCompletion (status : UInt32) (file : TaskFile) (packet : Bool) : CommandError :=
  if Word.test status StatusBit.hostBusFatal then .hostBusFatal
  else if Word.test status StatusBit.hostBusData then .hostBusData
  else if Word.test status StatusBit.interfaceFatal then .interfaceFatal
  else if packet then .checkCondition
  else .taskFile file.error

end CommandError

end Ahci
