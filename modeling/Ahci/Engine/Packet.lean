import Ahci.Engine.Basic
import Ahci.Identity.Inquiry
import Ahci.Packet.Eject

/-!
Packet commands. A packet command that the device fails with a check condition is
explained by sense data: the engine is restarted, the sense data is fetched with a command
of its own, and the triple it holds decides the failure of the request and is remembered.
-/

namespace Ahci

def driveBlockSize : Nat := 2048

/-- Blocks of a packet drive that one command can move. -/
def maxDriveBlocks : Nat := ScatterList.maxBytes / driveBlockSize

variable {σ : Type} [Device σ]

namespace RequestM

/-- Fetches the sense data of the device and remembers it. -/
def requestSense : RequestM σ SenseData := do
  let length := SenseData.requestLength.toNat
  execute (.packet (.requestSense SenseData.requestLength) (.toHost length) "request sense")
  match SenseData.parse? (← onEngine (EngineM.readStaging length)) with
  | some sense =>
    onEngine (modify fun engine => { engine with lastSense := some sense })
    return sense
  | none => throw .deviceError

end RequestM

namespace EngineM

/-- Notes the failure of a packet command and what explains it. -/
def noteSense (label : String) (error : IoError) (explanation : String) : EngineM σ Unit :=
  withEngine fun engine => HostM.note .warn (engine.title ++ " ATAPI " ++ label ++ " failed: " ++
    error.message ++ " (" ++ explanation ++ ")")

/-- The failure of a packet command that ended in a check condition. Without sense data it
counts as an answer that did not come. -/
def checkCondition (label : String) : EngineM σ IoError := do
  match ← RequestM.requestSense.run with
  | .ok sense =>
    noteSense label sense.failure sense.describe
    return sense.failure
  | .error _ =>
    noteSense label .timeout "no sense data"
    return .timeout

/-- Runs a packet command and handles its failure. Behind a check condition the engine is restarted,
and one REQUEST SENSE tells what the failure is; any other failure is handled as that of any
command. -/
def packet (cdb : Cdb) (data : DataPhase) (label : String) :
    EngineM σ (Except IoError Unit) := do
  match ← runCommand (.packet cdb data label) with
  | .ok () => return .ok ()
  | .error .checkCondition =>
    withEngine Engine.recover
    return .error (← checkCondition label)
  | .error error => return .error (← withEngine (·.fail label error))

end EngineM

namespace RequestM

/-- A packet command, whose failure is that of the request. -/
def packet (cdb : Cdb) (data : DataPhase) (label : String) : RequestM σ Unit :=
  attempt (EngineM.packet cdb data label)

/-- Who the device is, from an answer of a given length. The data phase is rounded up to
whole words; the command names the exact length. -/
def inquiry (length : UInt8) : RequestM σ InquiryData := do
  let count := length.toNat
  packet (.inquiry length) (.toHost (count + count % 2)) "inquiry"
  match InquiryData.parse? (← onEngine (EngineM.readStaging count)) with
  | some inquiry => return inquiry
  | none => throw .deviceError

/-- Reads blocks with one packet command. More blocks than one command can carry break a
precondition of the driver; a read of no blocks is refused, and so is an address that does not fit
into the packet. -/
def readBlocks (lba blocks : Nat) : RequestM σ (List UInt8) := do
  require (blocks ≤ maxDriveBlocks)
    (.overLimit ("ATAPI read of " ++ toString blocks ++ " blocks"))
  if blocks = 0 then
    throw .invalidBuffer
  if UInt32.size ≤ lba then
    throw .outOfRange
  let bytes := blocks * driveBlockSize
  packet (.read (UInt32.ofNat lba) (UInt32.ofNat blocks)) (.toHost bytes) "atapi read"
  onEngine (EngineM.readStaging bytes)

/-- Unlocks the tray and opens it. -/
def eject : RequestM σ Unit := do
  let (outcome, state) ← onEngine
    (Eject.sequence fun cdb label => EngineM.packet cdb .none label)
  withEngine fun engine =>
    HostM.note .debug (engine.title ++ " eject sequence ended " ++ state.name)
  attempt (pure outcome)

end RequestM

end Ahci
