import Ahci.Descriptor.CommandTable
import Ahci.Engine.Ata
import Ahci.Engine.Attachment
import Ahci.Packet.Sense
import Ahci.Simulation.Medium
import Ahci.Simulation.PageBuilder

/-!
A simulated disk or packet drive: what it does with a command that was fetched from memory.
It answers with data that is scattered over the pieces of memory the command describes, or
takes data gathered from them, and it can be told to fail the next command of a given
code.
-/

namespace Ahci

/-- What kind of device is simulated. -/
inductive DriveKind where
  | empty
  | disk
  | packetDrive
deriving DecidableEq, Repr, Inhabited

/-- A failure to report for a command. -/
inductive Fault where
  /-- The error register of the device. -/
  | taskFile (error : UInt8)
  /-- A check condition that this sense data explains. -/
  | sense (sense : SenseData)
deriving DecidableEq, Repr

/-- How a command ended. -/
inductive Ending where
  | done
  | taskFile (error : UInt8)
  | checkCondition (sense : SenseData)
deriving DecidableEq, Repr

/-- A simulated device. -/
structure Drive where
  kind : DriveKind
  medium : Medium
  page : List UInt8
  /-- Failures to report, each for the next command of its code, in the order in which they
  are looked for. -/
  faults : List (UInt8 × Fault) := []
  /-- What the next request for sense data is answered with. -/
  pendingSense : Option SenseData := none
  trayOpen : Bool := false
  /-- Ranges that were discarded, newest first. -/
  discarded : List Span := []

/-- A command as it was fetched from memory. -/
structure FetchedCommand where
  slot : Nat
  fis : HostFis
  cdb : Option Cdb
  /-- Entries that the header counts. -/
  entryCount : Nat
  entries : List ScatterEntry
  isWrite : Bool
  isPacket : Bool
deriving DecidableEq, Repr

namespace FetchedCommand

/-- Reads the command of a slot: its header from the command list, and what the header
points at. -/
def fetch (list slot : Nat) (memory : Memory) : FetchedCommand :=
  let header := CommandList.header list slot memory
  let table := header.tableAddress.toNat
  { slot
    fis := .ofWire (memory.load table HostFis.size)
    cdb := if header.isPacket then some (CommandTable.cdb table memory) else none
    entryCount := header.entries.toNat
    entries := CommandTable.entries table header.entries.toNat memory
    isWrite := header.isWrite
    isPacket := header.isPacket }

def bytes (command : FetchedCommand) : Nat :=
  ScatterList.totalBytes command.entries

/-- Whether the first piece raises an interrupt. -/
def interrupt (command : FetchedCommand) : Bool :=
  match command.entries with
  | [] => false
  | entry :: _ => entry.interrupt

end FetchedCommand

/-- Spreads data over pieces of memory in order. What has no room is dropped, and room
without data is left alone. -/
def scatterData (entries : List ScatterEntry) (data : List UInt8) (memory : Memory) : Memory :=
  match entries with
  | [] => memory
  | entry :: rest =>
    scatterData rest (data.drop entry.bytes)
      (memory.store entry.address.toNat (data.take entry.bytes))

/-- The data in pieces of memory, in order. -/
def gatherData (entries : List ScatterEntry) (memory : Memory) : List UInt8 :=
  entries.flatMap fun entry => memory.load entry.address.toNat entry.bytes

namespace Drive

/-- The standard disk: its page tells its sectors and nothing else. -/
def disk (medium : Medium) : Drive :=
  { kind := .disk, medium, page := PageBuilder.standard medium.blocks }

/-- A packet drive with its tray closed, and nothing to explain. -/
def packetDrive (medium : Medium) : Drive :=
  { kind := .packetDrive, medium, page := PageBuilder.standard medium.blocks }

/-- No drive at all. -/
def empty : Drive :=
  { kind := .empty, medium := .blank sectorSize 0, page := PageBuilder.standard 0 }

/-- Takes the first fault that is queued for a command code. -/
def takeFault (drive : Drive) (opcode : UInt8) : Option (Fault × Drive) :=
  match drive.faults.find? (·.1 == opcode) with
  | some (_, fault) =>
    some (fault, { drive with faults := drive.faults.eraseP (·.1 == opcode) })
  | none => none

/-- The ranges that a block of ranges names; a range without sectors names nothing. -/
def rangesIn (payload : List UInt8) : List Span :=
  ((List.range (payload.length / 8)).map fun i =>
    DiscardRange.decode ((payload.drop (8 * i)).take 8)).filter (·.count != 0)

/-- Runs a command of a disk. A run of sectors that the medium does not have is not found, and a
command that is not known is aborted; either leaves memory and data alone. -/
def runAta (drive : Drive) (command : FetchedCommand) (memory : Memory) :
    Ending × Drive × Memory :=
  let fis := command.fis
  let lba := fis.lba.toNat
  let count := fis.count.toNat
  if fis.opcode = Opcode.identifyDevice then
    (.done, drive, scatterData command.entries drive.page memory)
  else if fis.opcode = Opcode.readDmaExt then
    if drive.medium.holds lba count then
      (.done, drive, scatterData command.entries (drive.medium.read lba count) memory)
    else (.taskFile (ErrorBit.only ErrorBit.idNotFound), drive, memory)
  else if fis.opcode = Opcode.writeDmaExt then
    if drive.medium.holds lba count then
      let data := gatherData command.entries memory
      (.done, { drive with medium := drive.medium.write lba count data }, memory)
    else (.taskFile (ErrorBit.only ErrorBit.idNotFound), drive, memory)
  else if fis.opcode = Opcode.dataSetManagement ∧ fis.features = trimFeature then
    let ranges := rangesIn (gatherData command.entries memory)
    (.done, { drive with discarded := ranges.reverse ++ drive.discarded }, memory)
  else (.taskFile (ErrorBit.only ErrorBit.aborted), drive, memory)

/-- A text in a field of fixed length, filled up with spaces. -/
def paddedText (length : Nat) (text : String) : List UInt8 :=
  let bytes := latinBytes text
  bytes ++ List.replicate (length - bytes.length) 0x20

/-- The answer of every packet drive to who it is. -/
def inquiryAnswer : List UInt8 :=
  [0x05, 0x80, 0x05, 0x32, 91, 0, 0, 0] ++ paddedText 8 "ROCKET" ++
    paddedText 16 "SIM DVD-ROM" ++ paddedText 4 "1.0" ++ List.replicate 60 0x20

/-- Sense data of fixed format, which tells that there is none if nothing failed. -/
def senseAnswer (sense : Option SenseData) : List UInt8 :=
  let sense := sense.getD ⟨0, 0, 0⟩
  [0x70, 0, sense.key, 0, 0, 0, 0, 10, 0, 0, 0, 0, sense.code, sense.qualifier, 0, 0, 0, 0]

/-- Runs a packet command. A read fails with the tray open or beyond the medium, and asking for
sense data uses it up. -/
def runPacket (drive : Drive) (cdb : Cdb) (entries : List ScatterEntry) (memory : Memory) :
    Ending × Drive × Memory :=
  let length := (cdb.byte 4).toNat
  if cdb.opcode = Cdb.inquiryCode then
    (.done, drive, scatterData entries (inquiryAnswer.take length) memory)
  else if cdb.opcode = Cdb.requestSenseCode then
    (.done, { drive with pendingSense := none },
      scatterData entries ((senseAnswer drive.pendingSense).take length) memory)
  else if cdb.opcode = Cdb.readCode then
    if drive.trayOpen then
      (.checkCondition ⟨SenseKey.notReady, 0x3A, 0⟩, drive, memory)
    else if drive.medium.holds cdb.readLba cdb.readBlocks then
      (.done, drive,
        scatterData entries (drive.medium.read cdb.readLba cdb.readBlocks) memory)
    else (.checkCondition ⟨SenseKey.illegalRequest, 0x21, 0⟩, drive, memory)
  else if cdb.opcode = Cdb.startStopCode then
    if length % 4 = 2 then (.done, { drive with trayOpen := true }, memory)
    else (.done, drive, memory)
  else if cdb.opcode = Cdb.preventAllowCode then
    (.done, drive, memory)
  else (.checkCondition ⟨SenseKey.illegalRequest, 0x20, 0⟩, drive, memory)

/-- Runs a command that no fault was queued for. -/
def runSound (drive : Drive) (command : FetchedCommand) (memory : Memory) :
    Ending × Drive × Memory :=
  match drive.kind, command.cdb with
  | .disk, none => drive.runAta command memory
  | .packetDrive, some cdb =>
    if command.fis.opcode = Opcode.packet then drive.runPacket cdb command.entries memory
    else (.taskFile (ErrorBit.only ErrorBit.aborted), drive, memory)
  | _, _ => (.taskFile (ErrorBit.only ErrorBit.aborted), drive, memory)

/-- Runs a command, or ends it with the first fault that is queued for its code. A fault is used up
by the command that meets it, and leaves memory alone. -/
def run (drive : Drive) (command : FetchedCommand) (memory : Memory) :
    Ending × Drive × Memory :=
  match drive.takeFault command.fis.opcode with
  | some (.taskFile error, drive) => (.taskFile error, drive, memory)
  | some (.sense sense, drive) => (.checkCondition sense, drive, memory)
  | none => drive.runSound command memory

end Drive

end Ahci
