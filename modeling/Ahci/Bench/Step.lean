import Ahci.Controller.Discovery
import Ahci.Engine.Packet
import Ahci.Storage.BlockDevice

/-!
Steps that a driver is taken through on a port that was brought up, and what a step can end
with. A step on the engine speaks to the device directly; a step on the disk is a block
request or asks for the sense data that was kept.
-/

namespace Ahci.Bench

inductive Outcome where
  | ok
  | ended
  /-- The handle of the port is not what the step needs. -/
  | noHandle
  | halted (reason : Halt)
  | driverError (error : DriverError)
  | ioError (error : IoError)
  | port (port : Port)
  | disk (disk : Disk)
  /-- What was found behind an adapter: the disks, the adapter, its version, its ports, and
  its control register. -/
  | found (disks : List (String × Disk)) (adapter : Adapter) (version : AdapterVersion)
      (ports control : UInt32)
  /-- What was read from a device or found on a medium. -/
  | bytes (data : List UInt8)
  /-- A read into a buffer: what it ended with, and the buffer. -/
  | read (placed : Except IoError Nat) (buffer : List UInt8)
  | sense (sense : Option SenseData)
  | page (page : IdentifyPage)
  | inquiry (inquiry : InquiryData)

inductive EngineStep where
  | identify
  | readSectors (lba count : Nat)
  | writeSectors (lba count : Nat) (data : List UInt8)
  | discardSectors (lba count : Nat)
  | packet (cdb : Cdb) (data : DataPhase) (label : String)
  | requestSense
  | lastSense
  | inquiry (length : UInt8)
  | readBlocks (lba count : Nat)
  | eject

inductive DiskStep where
  | info
  | read (start bytes room : Nat)
  | write (start bytes : Nat) (data : List UInt8)
  | clear (start bytes : Nat)
  | eject
  | requestSense
  | lastSense

def Outcome.ofRequest {α : Type} (f : α → Outcome) : Except IoError α → Outcome
  | .ok value => f value
  | .error error => .ioError error

namespace EngineStep

def run {σ : Type} [Device σ] : EngineStep → EngineM σ Outcome
  | .identify => .ofRequest .page <$> RequestM.identify.run
  | .readSectors lba count =>
    .ofRequest .bytes <$> (RequestM.readSectors lba count).run
  | .writeSectors lba count data =>
    .ofRequest (fun _ => .ok) <$> (RequestM.writeSectors lba count data).run
  | .discardSectors lba count =>
    .ofRequest (fun _ => .ok) <$> (RequestM.discardSectors lba count).run
  | .packet cdb data label =>
    .ofRequest (fun _ => .ok) <$> (RequestM.packet cdb data label).run
  | .requestSense => .ofRequest (.sense ∘ some) <$> RequestM.requestSense.run
  | .lastSense => do return .sense (← get).lastSense
  | .inquiry length => .ofRequest .inquiry <$> (RequestM.inquiry length).run
  | .readBlocks lba count =>
    .ofRequest .bytes <$> (RequestM.readBlocks lba count).run
  | .eject => .ofRequest (fun _ => .ok) <$> RequestM.eject.run

end EngineStep

namespace DiskStep

/-- What a buffer holds before it is read into. -/
def unreadByte : UInt8 := 0xA5

def run {σ : Type} [Device σ] (disk : Disk) : DiskStep → EngineM σ Outcome
  | .info => pure (.disk disk)
  | .read start bytes room => do
    let (placed, buffer) ←
      disk.blockDevice.read start bytes (List.replicate room unreadByte)
    return .read placed buffer
  | .write start bytes data =>
    .ofRequest (fun _ => .ok) <$> disk.blockDevice.write start bytes data
  | .clear start bytes => .ofRequest (fun _ => .ok) <$> disk.blockDevice.clear start bytes
  | .eject => .ofRequest (fun _ => .ok) <$> disk.eject.run
  | .requestSense => .ofRequest (.sense ∘ some) <$> disk.requestSense.run
  | .lastSense => do return .sense (← get).lastSense

end DiskStep

end Ahci.Bench
