import Ahci.Block
import Ahci.Engine.Ata
import Ahci.Engine.BringUp
import Ahci.Engine.Packet

/-!
Block requests. A request names a first block and a length in bytes, which is rounded up
to whole blocks. The range is checked against the capacity before any command is issued,
then the request is cut into commands. A read stops early, successfully, when the buffer
has no room for another whole block, and a write fills its last block up with zeroes.
-/

namespace Ahci

/-- How the blocks of a device are addressed. -/
inductive DiskKind where
  /-- An ATA disk, with what it says about discarding sectors. -/
  | disk (trim : TrimSupport)
  | drive
deriving DecidableEq, Repr

/-- A device that takes block requests. -/
structure Disk where
  port : Port
  kind : DiskKind
  /-- Blocks of the device; a packet drive does not tell, and has the largest count. -/
  blockCount : UInt64
  label : String
deriving DecidableEq, Repr

namespace DiskKind

def blockSize : DiskKind → Nat
  | disk _ => sectorSize
  | drive => driveBlockSize

def maxBlocks : DiskKind → Nat
  | disk _ => maxSectors
  | drive => maxDriveBlocks

theorem blockSize_pos (kind : DiskKind) : 0 < kind.blockSize := by
  cases kind <;> simp [blockSize, sectorSize, driveBlockSize]

theorem maxBlocks_pos (kind : DiskKind) : 0 < kind.maxBlocks := by
  cases kind <;> simp [maxBlocks, maxSectors, maxDriveBlocks, ScatterList.maxBytes,
    ScatterList.pieceSize, ScatterList.capacity, sectorSize, driveBlockSize]

/-- Blocks that one command of a request moves. -/
def chunk (kind : DiskKind) (config : Config) : Nat :=
  config.chunk kind.maxBlocks

/-- What the device says about discarding; a packet drive cannot. -/
def trimSupport : DiskKind → TrimSupport
  | disk trim => trim
  | drive => .none

end DiskKind

namespace Disk

def blockSize (disk : Disk) : Nat :=
  disk.kind.blockSize

def isOptical (disk : Disk) : Bool :=
  match disk.kind with
  | .disk _ => false
  | .drive => true

/-- The blocks of one command, spelled out: as many as are configured, but at least one and no more
than 128 sectors of a disk or 32 blocks of a packet drive. -/
theorem chunk_eq (disk : Disk) (config : Config) :
    disk.kind.chunk config =
      max 1 (min config.blocksPerCommand (if disk.isOptical then 32 else 128)) := by
  obtain ⟨port, kind, blockCount, label⟩ := disk
  cases kind <;> rfl

def trimSupport (disk : Disk) : TrimSupport :=
  disk.kind.trimSupport

/-- Whether a run of blocks lies within the capacity. The sum is one of numbers and cannot overflow;
a run that ends beyond sixty-four bits is never in range. -/
def inRange (disk : Disk) (start blocks : Nat) : Bool :=
  start + blocks ≤ disk.blockCount.toNat

variable {σ : Type} [Device σ]

/-- Bytes of a disk with a number of sectors, as far as sixty-four bits can count them. -/
def capacityOf (sectors : Nat) : Nat :=
  min (sectors * sectorSize) (UInt64.size - 1)

/-- What a disk says of itself; a disk that cannot be identified has no blocks. -/
def identifyDisk (port : Port) : EngineM σ Disk := do
  match ← RequestM.identify.run with
  | .ok page =>
    let sectors := page.sectors
    return ⟨port, .disk (.ofPage page), UInt64.ofNat sectors,
      diskLabel page (capacityOf sectors)⟩
  | .error error =>
    EngineM.withEngine fun engine =>
      HostM.note .warn (engine.title ++ " IDENTIFY failed: " ++ error.message)
    return ⟨port, .disk .none, 0, unidentifiedDiskLabel 0⟩

/-- The largest count of blocks, which stands for a count that is not told. -/
def unboundedCount : UInt64 := 0xFFFFFFFFFFFFFFFF

/-- What a packet drive says of itself. It does not tell its capacity, so any block counts as one of
its own, and a read behind the medium is declined by the drive. -/
def identifyDrive (port : Port) : EngineM σ Disk := do
  match ← (RequestM.inquiry InquiryData.probeLength).run with
  | .ok inquiry => return ⟨port, .drive, unboundedCount, inquiry.label⟩
  | .error error =>
    EngineM.withEngine fun engine =>
      HostM.note .warn (engine.title ++ " INQUIRY failed: " ++ error.message)
    return ⟨port, .drive, unboundedCount, unidentifiedDriveLabel⟩

/-- Identifies the device on a port. A device that does not identify itself is taken with a
label that says no more than what kind it is. -/
def probe (port : Port) : EngineM σ (Except DriverError Disk) := do
  match port.attachment with
  | .disk =>
    let disk ← identifyDisk port
    announce disk "SATA"
  | .packetDrive =>
    let disk ← identifyDrive port
    announce disk "ATAPI"
  | _ => return .error .unsupported
where
  announce (disk : Disk) (kind : String) : EngineM σ (Except DriverError Disk) := do
    EngineM.onHost (HostM.note .info ("AHCI: " ++ kind ++ " storage, port " ++
      toString port.number ++ ": " ++ disk.label))
    return .ok disk

/-- Reads one piece of a request, with the one command that its kind of device reads with. -/
def readChunk (kind : DiskKind) (span : Span) : RequestM σ (List UInt8) :=
  match kind with
  | .disk _ => RequestM.readSectors span.first span.count
  | .drive => RequestM.readBlocks span.first span.count

/-- Writes one piece of a request. Packet drives are read only. -/
def writeChunk (kind : DiskKind) (span : Span) (data : List UInt8) : RequestM σ Unit :=
  match kind with
  | .disk _ => RequestM.writeSectors span.first span.count data
  | .drive => throw .unsupported

/-- Fills a buffer from its front with runs of blocks, each read with one command. Ends with
the number of bytes placed, or with the failure of a command; the second part is the buffer,
filled as far as it came. -/
def readSpans (kind : DiskKind) :
    List Span → List UInt8 → EngineM σ (Except IoError Nat × List UInt8)
  | [], buffer => return (.ok 0, buffer)
  | span :: others, buffer => do
    let bytes := span.count * kind.blockSize
    EngineM.onHost (HostM.require (bytes ≤ buffer.length) .outOfBounds)
    match ← (readChunk kind span).run with
    | .error error => return (.error error, buffer)
    | .ok data =>
      EngineM.onHost (HostM.require (data.length == bytes) .lengthMismatch)
      EngineM.onHost (HostM.require (span.stop < UInt64.size) .overflow)
      let (placed, rest) ← readSpans kind others (buffer.drop bytes)
      return (placed.map (bytes + ·), data ++ rest)

/-- Writes data to runs of blocks from its front, each with one command. The last run may
have more room than there is data. -/
def writeSpans (kind : DiskKind) : List Span → List UInt8 → RequestM σ Unit
  | [], _ => return ()
  | span :: others, data => do
    let bytes := span.count * kind.blockSize
    writeChunk kind span (data.take bytes)
    RequestM.require (span.stop < UInt64.size) .overflow
    writeSpans kind others (data.drop bytes)

/-- Reads the blocks that cover `bytes` bytes into a buffer, as far as whole blocks fit, and
no more with one command than the configuration says. Ends with the number of bytes placed,
and the buffer. -/
def read (disk : Disk) (start bytes : Nat) (buffer : List UInt8) :
    EngineM σ (Except IoError Nat × List UInt8) := do
  if bytes = 0 || buffer.isEmpty then
    return (.error .invalidBuffer, buffer)
  let blocks := blocksFor bytes disk.blockSize
  if !disk.inRange start blocks then
    return (.error .outOfRange, buffer)
  let span : Span := ⟨start, min blocks (buffer.length / disk.blockSize)⟩
  readSpans disk.kind (span.cut (disk.kind.chunk (← get).config)) buffer

/-- Writes the first `bytes` bytes of a buffer, no more with one command than the
configuration says. -/
def write (disk : Disk) (start bytes : Nat) (buffer : List UInt8) : RequestM σ Unit := do
  if disk.isOptical then
    throw .unsupported
  if bytes = 0 || bytes > buffer.length then
    throw .invalidBuffer
  let span : Span := ⟨start, blocksFor bytes disk.blockSize⟩
  if !disk.inRange span.first span.count then
    throw .outOfRange
  let config ← RequestM.withEngine fun engine => pure engine.config
  writeSpans disk.kind (span.cut (disk.kind.chunk config)) (buffer.take bytes)

/-- Tells the device that the blocks which cover `bytes` bytes hold no data any more. This
is advice: a device that cannot discard succeeds without being told, and then the range is
not looked at either. -/
def clear (disk : Disk) (start bytes : Nat) : RequestM σ Unit := do
  let blocks := max 1 (blocksFor bytes disk.blockSize)
  if disk.trimSupport.hasTrim && !disk.inRange start blocks then
    throw .outOfRange
  match disk.kind with
  | .drive =>
    RequestM.withEngine fun engine =>
      HostM.note .trace (engine.title ++ " is optical, clear is a no-op")
  | .disk trim =>
    if trim.hasTrim then
      RequestM.discardSectors start blocks
    else
      RequestM.withEngine fun engine =>
        HostM.note .trace (engine.title ++ " has no TRIM, clear is a no-op")

def eject (disk : Disk) : RequestM σ Unit :=
  if disk.isOptical then RequestM.eject else throw .unsupported

def requestSense (disk : Disk) : RequestM σ SenseData :=
  if disk.isOptical then RequestM.requestSense else throw .unsupported

end Disk

end Ahci
