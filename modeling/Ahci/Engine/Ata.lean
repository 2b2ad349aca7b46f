import Ahci.Block
import Ahci.Engine.Basic
import Ahci.Identity.Page

/-!
ATA commands: identification, reading and writing of sectors, and discarding of ranges of
sectors. A caller cuts its requests so that each read or write fits into one command.
-/

namespace Ahci

def sectorSize : Nat := 512

/-- Sectors that one command can move. -/
def maxSectors : Nat := ScatterList.maxBytes / sectorSize

/-! How a device is told of a run of sectors to discard. -/

namespace DiscardRange

/-- Sectors that one range can cover. -/
def maxSectors : Nat := 0xFFFF

/-- Bytes in the block of ranges that a command carries. -/
def blockSize : Nat := 512

/-- The range in eight bytes: the low 48 bits of its address, then its length. -/
def encode (range : Span) : List UInt8 :=
  littleEndian 6 range.first ++ littleEndian 2 range.count

def decode (bytes : List UInt8) : Span :=
  ⟨field bytes 0 6, field bytes 6 2⟩

/-- What a device reads of a range: address and length within their widths. -/
theorem decode_encode (range : Span) :
    decode (encode range) = ⟨range.first % byteRange 6, range.count % byteRange 2⟩ := by
  have hfirst : field (encode range) 0 6 = range.first % byteRange 6 :=
    field_littleEndian 6 range.first _
  have hcount : field (encode range) 6 2 = range.count % byteRange 2 := by
    have hat := field_append (littleEndian 6 range.first) (littleEndian 2 range.count ++ []) 0 2
    rw [length_littleEndian, List.append_nil] at hat
    rw [encode, hat]
    simpa using field_littleEndian 2 range.count []
  rw [decode, hfirst, hcount]

end DiscardRange

variable {σ : Type} [Device σ]

namespace RequestM

/-- Asks a disk for its page, and reads as much as a page has out of the staging area. -/
def identify : RequestM σ IdentifyPage := do
  execute
    { fis := .command Opcode.identifyDevice
      data := .toHost IdentifyPage.size
      label := "identify" }
  let bytes ← onEngine (EngineM.readStaging IdentifyPage.size)
  match IdentifyPage.parse? bytes with
  | some page => return page
  | none => throw .deviceError

/-- The frame for a number of sectors. It holds the low forty-eight bits of the address and the low
sixteen of the count. -/
def sectorFis (opcode : UInt8) (lba sectors : Nat) : HostFis :=
  ((HostFis.command opcode).withLba lba).withCount (UInt16.ofNat sectors)

/-- Reads sectors with one command. More sectors than one command can carry break a precondition of
the driver; a read of no sectors is refused. -/
def readSectors (lba sectors : Nat) : RequestM σ (List UInt8) := do
  require (sectors ≤ maxSectors) (.overLimit ("read of " ++ toString sectors ++ " sectors"))
  if sectors = 0 then
    throw .invalidBuffer
  let bytes := sectors * sectorSize
  execute
    { fis := sectorFis Opcode.readDmaExt lba sectors
      data := .toHost bytes
      label := "read disk" }
  onEngine (EngineM.readStaging bytes)

/-- Writes sectors with one command. Data that does not fill the last sector is followed by
zeroes. -/
def writeSectors (lba sectors : Nat) (data : List UInt8) : RequestM σ Unit := do
  require (sectors ≤ maxSectors) (.overLimit ("write of " ++ toString sectors ++ " sectors"))
  let bytes := sectors * sectorSize
  if sectors = 0 || data.length > bytes then
    throw .invalidBuffer
  onEngine (EngineM.fillStaging data bytes)
  execute
    { fis := sectorFis Opcode.writeDmaExt lba sectors
      data := .fromHost bytes
      label := "write disk" }

/-- Tells the device to discard one range of sectors, in a block that is filled up with empty
ranges. The command takes no interrupt. -/
def discardRange (range : Span) : RequestM σ Unit := do
  withEngine fun engine => HostM.note .trace (engine.title ++ " DSM TRIM lba " ++
    toString range.first ++ " count " ++ toString range.count)
  onEngine (EngineM.fillStaging (DiscardRange.encode range) DiscardRange.blockSize)
  execute
    { fis := ((HostFis.command Opcode.dataSetManagement).withFeatures trimFeature).withCount 1
      data := .fromHost DiscardRange.blockSize
      interrupt := false
      label := "trim" }

/-- Discards a run of sectors in a number of ranges. -/
def discardPieces : Nat → Span → RequestM σ Unit
  | 0, _ => withEngine fun engine => HostM.note .debug (engine.title ++ " TRIM complete")
  | left + 1, span => do
    let range := span.take DiscardRange.maxSectors
    discardRange range
    require (range.stop < UInt64.size) .overflow
    discardPieces left (span.drop DiscardRange.maxSectors)

/-- Discards sectors, as many with each command as one range can cover. -/
def discardSectors (lba sectors : Nat) : RequestM σ Unit :=
  let span : Span := ⟨lba, sectors⟩
  discardPieces (span.pieces DiscardRange.maxSectors) span

end RequestM

end Ahci
