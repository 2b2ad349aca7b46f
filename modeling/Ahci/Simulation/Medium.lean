import Ahci.Block

/-!
The medium of a simulated device: a content for every block, whether or not the device has
that many. Every content is one whole block, so what is read of a run of blocks has the
length of the run. Writing replaces a run of blocks.
-/

namespace Ahci

/-- The blocks of a device. -/
structure Medium where
  blockSize : Nat
  blocks : Nat
  content : Nat → List UInt8
  length_content : ∀ index, (content index).length = blockSize

namespace Medium

def zeroBlock (blockSize : Nat) : List UInt8 :=
  List.replicate blockSize 0

/-- A medium that nothing was written to. -/
def blank (blockSize blocks : Nat) : Medium :=
  { blockSize
    blocks
    content := fun _ => zeroBlock blockSize
    length_content := fun _ => List.length_replicate }

/-- A medium whose bytes are given by their place. -/
def filled (blockSize blocks : Nat) (byteAt : Nat → UInt8) : Medium :=
  { blockSize
    blocks
    content := fun index =>
      if index < blocks then
        (List.range blockSize).map fun place => byteAt (index * blockSize + place)
      else zeroBlock blockSize
    length_content := fun index => by
      by_cases h : index < blocks <;> simp [h, zeroBlock] }

/-- Whether all blocks of a run are on the medium. A run without blocks is on it wherever it may be
said to begin, up to its end. -/
def holds (medium : Medium) (first count : Nat) : Bool :=
  first + count ≤ medium.blocks

/-- The bytes of a run of blocks, one block after another. -/
def read (medium : Medium) (first count : Nat) : List UInt8 :=
  (List.range count).flatMap fun i => medium.content (first + i)

/-- One block of some data, by its place in them; the last one is filled up with zeroes. -/
def blockOf (blockSize : Nat) (data : List UInt8) (place : Nat) : List UInt8 :=
  let piece := (data.drop (place * blockSize)).take blockSize
  piece ++ List.replicate (blockSize - piece.length) 0

theorem length_blockOf (blockSize : Nat) (data : List UInt8) (place : Nat) :
    (blockOf blockSize data place).length = blockSize := by
  have hshort : ((data.drop (place * blockSize)).take blockSize).length ≤ blockSize :=
    List.length_take_le _ _
  simp only [blockOf, List.length_append, List.length_replicate]
  omega

/-- Writes data to a run of blocks, a block of data to each of them as long as there is
any. -/
def write (medium : Medium) (first count : Nat) (data : List UInt8) : Medium :=
  let written := min count (blocksFor data.length medium.blockSize)
  { medium with
    content := fun index =>
      if first ≤ index ∧ index < first + written then
        blockOf medium.blockSize data (index - first)
      else medium.content index
    length_content := fun index => by
      split
      · exact length_blockOf _ _ _
      · exact medium.length_content index }

def bytesAt (medium : Medium) (offset length : Nat) : List UInt8 :=
  let first := offset / medium.blockSize
  let count := blocksFor (offset % medium.blockSize + length) medium.blockSize
  ((medium.read first count).drop (offset % medium.blockSize)).take length

@[simp] theorem length_read (medium : Medium) (first count : Nat) :
    (medium.read first count).length = count * medium.blockSize := by
  simp only [read, List.length_flatMap, length_content, List.map_const', List.length_range,
    List.sum_replicate_nat]

/-- A run of blocks is its first block followed by the run of the others. -/
theorem read_succ (medium : Medium) (first count : Nat) :
    medium.read first (count + 1) = medium.content first ++ medium.read (first + 1) count := by
  have hlater : (fun i => medium.content (first + 1 + i)) =
      fun i => medium.content (first + i.succ) := by
    funext i
    rw [Nat.add_assoc, Nat.one_add]
  simp only [read, List.range_succ_eq_map, List.flatMap_cons, List.flatMap_map, Nat.add_zero,
    hlater]

theorem read_append (medium : Medium) (first count more : Nat) :
    medium.read first count ++ medium.read (first + count) more =
      medium.read first (count + more) := by
  induction count generalizing first with
  | zero => simp [read]
  | succ count ih =>
    have hstep : first + (count + 1) = first + 1 + count := by omega
    have hsum : count + 1 + more = count + more + 1 := by omega
    rw [read_succ, List.append_assoc, hstep, ih, hsum, read_succ]

/-- A write is seen in the blocks that it has data for, and in no other. -/
theorem content_write (medium : Medium) (first count : Nat) (data : List UInt8) (index : Nat) :
    (medium.write first count data).content index =
      if first ≤ index ∧ index < first + min count (blocksFor data.length medium.blockSize) then
        blockOf medium.blockSize data (index - first)
      else medium.content index := rfl

end Medium

end Ahci
