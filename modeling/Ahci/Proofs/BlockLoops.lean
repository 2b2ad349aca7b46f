import Ahci.Proofs.Media
import Ahci.Storage.Disk

/-!
The loops of block requests, counter by counter. Requests are written as walks over the pieces
that a run of blocks is cut into. A driver has no list of pieces: it keeps the next block, the
offset into its buffer and the blocks that remain, and works out each piece from them.
`Disk.readLoop`, `Disk.writeLoop` and `RequestM.discardLoop` are such loops, with the arithmetic
of every turn spelled out, and over any device each of them is the request: the same commands,
checks, answers and bytes.
-/

namespace Ahci

/-! One turn of a loop. -/

namespace Span

/-- The blocks of the next command, from the counters: at most as many as remain, as one command
moves and as have room. They are the first piece of the run that is left. -/
theorem take_of_counters (lba remaining most fits : Nat) :
    (Span.mk lba (min remaining fits)).take most = ⟨lba, min (min remaining most) fits⟩ := by
  simp only [take, mk.injEq, true_and]
  omega

/-- The run that is left behind a turn is cut as it was before, without its first piece. The last
piece may be short, so the counters move on by what it holds and not by what it could hold. -/
theorem cut_behind_turn {lba count most blocks : Nat} (hmost : 0 < most)
    (hblocks : blocks = min most count) :
    (Span.mk (lba + blocks) (count - blocks)).cut most =
      ((Span.mk lba count).drop most).cut most := by
  rcases Nat.le_total most count with hmore | hlast
  · rw [hblocks, Nat.min_eq_left hmore]
    rfl
  · have hleft : count - blocks = 0 := by omega
    have hempty : ((Span.mk lba count).drop most).count = 0 := Nat.sub_eq_zero_of_le hlast
    rw [cut_of_count_eq_zero hmost hleft, cut_of_count_eq_zero hmost hempty]

/-- Behind a turn fewer blocks remain and fewer have room, by as many as were moved, and so the rest
of the run is shorter by them. -/
theorem count_behind_turn {length offset blockSize remaining blocks fits : Nat}
    (hfits : (length - offset) / blockSize = fits) :
    min (remaining - blocks) ((length - (offset + blocks * blockSize)) / blockSize) =
      min remaining fits - blocks := by
  have hrest : (length - (offset + blocks * blockSize)) / blockSize = fits - blocks := by
    rw [← Nat.sub_sub, Nat.mul_comm, Nat.sub_mul_div, hfits]
  omega

end Span

/-- A buffer with bytes in place of those from an offset on. -/
def placeAt (buffer : List UInt8) (offset : Nat) (data : List UInt8) : List UInt8 :=
  buffer.take offset ++ data ++ buffer.drop (offset + data.length)

/-- Behind the bytes that were placed, the buffer is as it was; they and what stands before them
are its front, and it is as long as before if there was room for them. -/
theorem placeAt_parts (buffer : List UInt8) {offset : Nat} (data : List UInt8)
    (hroom : offset + data.length ≤ buffer.length) :
    (placeAt buffer offset data).take (offset + data.length) = buffer.take offset ++ data ∧
      (placeAt buffer offset data).drop (offset + data.length) =
        buffer.drop (offset + data.length) ∧
      (placeAt buffer offset data).length = buffer.length := by
  have hfront : (buffer.take offset ++ data).length = offset + data.length := by
    rw [List.length_append, List.length_take, Nat.min_eq_left (by omega)]
  refine ⟨List.take_left' hfront, List.drop_left' hfront, ?_⟩
  rw [placeAt, List.length_append, hfront, List.length_drop]
  omega

variable {σ : Type}

/-- What stands behind a precondition counts only where the precondition holds. -/
theorem EngineM.require_bind_congr {α : Type} {condition : Bool} {reason : Halt}
    {next other : Unit → EngineM σ α} (h : condition = true → next () = other ()) :
    onHost (HostM.require condition reason) >>= next =
      onHost (HostM.require condition reason) >>= other := by
  cases condition with
  | true => exact bind_congr fun _ => h rfl
  | false => rfl

variable [Device σ]

namespace Disk

/-! Reads. -/

/-- Reads blocks into a buffer from an offset on. Each turn asks for as many blocks as remain, as
one command moves and as wholly fit into the rest of the buffer; a turn without blocks is the end,
whether none remain or none fit, and the answer is the offset that was reached. -/
def readLoop (kind : DiskKind) (config : Config) (lba offset remaining : Nat)
    (buffer : List UInt8) : EngineM σ (Except IoError Nat × List UInt8) :=
  let fits := (buffer.length - offset) / kind.blockSize
  let blocks := min (min remaining (kind.chunk config)) fits
  if blocks = 0 then
    return (.ok offset, buffer)
  else do
    let bytes := blocks * kind.blockSize
    EngineM.onHost (HostM.require (offset + bytes ≤ buffer.length) .outOfBounds)
    match ← (readChunk kind ⟨lba, blocks⟩).run with
    | .error error => return (.error error, buffer)
    | .ok data =>
      EngineM.onHost (HostM.require (data.length == bytes) .lengthMismatch)
      EngineM.onHost (HostM.require (lba + blocks < UInt64.size) .overflow)
      readLoop kind config (lba + blocks) (offset + bytes) (remaining - blocks)
        (placeAt buffer offset data)
termination_by remaining
decreasing_by
  rename_i hblocks
  have hpos : 0 < blocks := Nat.pos_of_ne_zero hblocks
  have hle : blocks ≤ remaining :=
    Nat.le_trans (Nat.min_le_left _ _) (Nat.min_le_left _ _)
  exact Nat.sub_lt (Nat.lt_of_lt_of_le hpos hle) hpos

/-- From an offset on, the loop fills the buffer as the walk over the pieces fills what is left of
it: the answer counts the bytes before the offset as well, and these bytes stay. -/
theorem readLoop_eq (kind : DiskKind) (config : Config) (lba remaining : Nat) {offset : Nat}
    {buffer : List UInt8} (hoffset : offset ≤ buffer.length) :
    (readLoop kind config lba offset remaining buffer : EngineM σ _) =
      (fun told => (told.1.map (offset + ·), buffer.take offset ++ told.2)) <$>
        readSpans kind ((Span.mk lba (min remaining
          ((buffer.length - offset) / kind.blockSize))).cut (kind.chunk config))
          (buffer.drop offset) := by
  induction remaining using Nat.strongRecOn generalizing lba offset buffer with
  | ind remaining ih =>
    have hchunk : 0 < kind.chunk config := config.chunk_pos _
    generalize hfits : (buffer.length - offset) / kind.blockSize = fits
    generalize hblocks : min (min remaining (kind.chunk config)) fits = blocks
    rw [readLoop]
    dsimp only
    rw [hfits, hblocks]
    by_cases hnone : blocks = 0
    · have hempty : (Span.mk lba (min remaining fits)).count = 0 := by
        change min remaining fits = 0
        omega
      rw [if_pos hnone, Span.cut_of_count_eq_zero hchunk hempty, readSpans, map_pure,
        List.take_append_drop]
      rfl
    · have hsome : 0 < (Span.mk lba (min remaining fits)).count := by
        change 0 < min remaining fits
        omega
      have hmin : blocks = min (kind.chunk config) (min remaining fits) := by omega
      have hroom : blocks * kind.blockSize ≤ buffer.length - offset := by
        rw [← Nat.le_div_iff_mul_le kind.blockSize_pos]
        omega
      have hguard : decide (offset + blocks * kind.blockSize ≤ buffer.length) =
          decide (blocks * kind.blockSize ≤ (buffer.drop offset).length) := by
        rw [List.length_drop, decide_eq_decide]
        omega
      rw [if_neg hnone, Span.cut_of_count_pos hchunk hsome, Span.take_of_counters, hblocks,
        readSpans, ← Span.cut_behind_turn hchunk hmin, map_bind]
      dsimp only
      rw [hguard]
      refine bind_congr fun _ => ?_
      rw [map_bind]
      refine bind_congr fun answer => ?_
      cases answer with
      | error error =>
        dsimp only
        rw [map_pure, List.take_append_drop]
        rfl
      | ok data =>
        dsimp only
        rw [map_bind]
        -- That the data is as long as was asked for is known behind the check, and not before it.
        refine EngineM.require_bind_congr fun hlength => ?_
        have hdata : blocks * kind.blockSize = data.length := (eq_of_beq hlength).symm
        have hcount : min (remaining - blocks)
            ((buffer.length - (offset + blocks * kind.blockSize)) / kind.blockSize) =
              min remaining fits - blocks := Span.count_behind_turn hfits
        rw [hdata] at hroom hcount ⊢
        have hplace : offset + data.length ≤ buffer.length := by omega
        obtain ⟨hfront, hback, hsame⟩ := placeAt_parts buffer data hplace
        rw [map_bind]
        refine bind_congr fun _ => ?_
        rw [ih _ (by omega) _ (by omega), hfront, hback, hsame, hcount, List.drop_drop, map_bind,
          map_eq_pure_bind]
        refine bind_congr fun told => ?_
        obtain ⟨placed | placed, rest⟩ := told <;>
          simp only [map_pure, Except.map, List.append_assoc, Nat.add_assoc]

/-- A read is refused for an empty buffer or no bytes, then for blocks behind the capacity, and
otherwise it is the loop from the first block, the front of the buffer and all the blocks on. -/
theorem read_eq_readLoop (disk : Disk) (start bytes : Nat) (buffer : List UInt8) :
    (disk.read start bytes buffer : EngineM σ _) =
      if bytes = 0 || buffer.isEmpty then
        pure (.error .invalidBuffer, buffer)
      else if !disk.inRange start (blocksFor bytes disk.blockSize) then
        pure (.error .outOfRange, buffer)
      else (do
        readLoop disk.kind (← get).config start 0 (blocksFor bytes disk.blockSize) buffer) := by
  have hloop (config : Config) := readLoop_eq (σ := σ) disk.kind config start
    (blocksFor bytes disk.blockSize) (Nat.zero_le buffer.length)
  have hsame (told : Except IoError Nat × List UInt8) :
      (told.1.map (0 + ·), buffer.take 0 ++ told.2) = told := by
    obtain ⟨placed | placed, rest⟩ := told <;> simp [Except.map]
  simp only [hloop, hsame, Nat.sub_zero, List.drop_zero, id_map']
  rfl

/-! Writes. -/

/-- Writes data to blocks from one on. Each turn takes as many bytes of the data as one command
moves, in as many blocks as these bytes need; the data is used up behind the last one. -/
def writeLoop (kind : DiskKind) (config : Config) (lba : Nat) (data : List UInt8) :
    RequestM σ Unit :=
  if data = [] then
    return ()
  else do
    let most := kind.chunk config * kind.blockSize
    let blocks := blocksFor (data.take most).length kind.blockSize
    writeChunk kind ⟨lba, blocks⟩ (data.take most)
    RequestM.require (lba + blocks < UInt64.size) .overflow
    writeLoop kind config (lba + blocks) (data.drop most)
termination_by data.length
decreasing_by
  rename_i hdata
  have hmost := Nat.mul_pos (config.chunk_pos kind.maxBlocks) kind.blockSize_pos
  rw [List.length_drop]
  exact Nat.sub_lt (List.length_pos_iff.2 hdata) hmost

/-- To take the bytes of the blocks of a turn is to take as many bytes as one command moves: there
are fewer blocks only if the data ends within them. -/
theorem take_drop_of_turn {data : List UInt8} {blockSize most blocks : Nat}
    (hsize : 0 < blockSize) (hblocks : blocks = min most (blocksFor data.length blockSize)) :
    data.take (blocks * blockSize) = data.take (most * blockSize) ∧
      data.drop (blocks * blockSize) = data.drop (most * blockSize) := by
  rcases Nat.le_total most (blocksFor data.length blockSize) with hmore | hlast
  · rw [hblocks, Nat.min_eq_left hmore]
    exact ⟨rfl, rfl⟩
  · have hcovers : data.length ≤ blocks * blockSize :=
      (blocksFor_le_iff hsize).1 (by omega)
    have hbeyond : data.length ≤ most * blockSize :=
      (blocksFor_le_iff hsize).1 hlast
    rw [List.take_of_length_le hcovers, List.take_of_length_le hbeyond,
      List.drop_of_length_le hcovers, List.drop_of_length_le hbeyond]
    exact ⟨rfl, rfl⟩

/-- The loop writes the data as the walk over the pieces of the blocks that hold it. The induction
is on the length of the data, which every turn shortens. -/
theorem writeLoop_eq (kind : DiskKind) (config : Config) (lba : Nat) (data : List UInt8) :
    (writeLoop kind config lba data : RequestM σ Unit) =
      writeSpans kind ((Span.mk lba (blocksFor data.length kind.blockSize)).cut
        (kind.chunk config)) data := by
  induction hlength : data.length using Nat.strongRecOn generalizing lba data with
  | ind length ih =>
    subst hlength
    have hchunk : 0 < kind.chunk config := config.chunk_pos _
    have hsize := kind.blockSize_pos
    rw [writeLoop]
    by_cases hdata : data = []
    · have hnone : blocksFor data.length kind.blockSize = 0 := by
        rw [hdata, List.length_nil]
        exact Nat.div_eq_of_lt (by omega)
      rw [if_pos hdata, hnone, Span.cut_of_count_eq_zero hchunk rfl, writeSpans]
    · have hpos : 0 < data.length := List.length_pos_iff.2 hdata
      have hsome : 0 < blocksFor data.length kind.blockSize := by
        rw [Nat.pos_iff_ne_zero]
        intro hzero
        have hfew := (blocksFor_le_iff hsize).1 (Nat.le_of_eq hzero)
        omega
      generalize hblocks :
        blocksFor (data.take (kind.chunk config * kind.blockSize)).length kind.blockSize = blocks
      have hmin : blocks = min (kind.chunk config) (blocksFor data.length kind.blockSize) := by
        rw [← hblocks, blocksFor_take data hsize]
      have hpiece : (Span.mk lba (blocksFor data.length kind.blockSize)).take
          (kind.chunk config) = ⟨lba, blocks⟩ := by
        rw [hmin]
        rfl
      obtain ⟨htake, hdrop⟩ := take_drop_of_turn hsize hmin
      have hfewer : (data.drop (blocks * kind.blockSize)).length < data.length := by
        rw [List.length_drop]
        exact Nat.sub_lt hpos (Nat.mul_pos (by omega) hsize)
      rw [if_neg hdata, Span.cut_of_count_pos hchunk hsome, hpiece, writeSpans,
        ← Span.cut_behind_turn hchunk hmin]
      dsimp only
      rw [hblocks, ← htake, ← hdrop, ih _ hfewer (lba + blocks) _ rfl, blocksFor_drop data hsize]
      rfl

/-- A write is refused on a packet drive, then for no bytes or more than the buffer holds, then for
blocks behind the capacity, and otherwise it is the loop over the first bytes of the buffer. -/
theorem write_eq_writeLoop (disk : Disk) (start bytes : Nat) (buffer : List UInt8) :
    (disk.write start bytes buffer : RequestM σ Unit) =
      if disk.isOptical then throw .unsupported
      else if bytes = 0 || bytes > buffer.length then throw .invalidBuffer
      else if !disk.inRange start (blocksFor bytes disk.blockSize) then throw .outOfRange
      else (do
        let config ← RequestM.withEngine fun engine => pure engine.config
        writeLoop disk.kind config start (buffer.take bytes)) := by
  rw [write]
  dsimp only
  split
  · rfl
  split
  · rfl
  next hbytes =>
    have hlength : (buffer.take bytes).length = bytes := by
      rw [List.length_take]
      simp only [gt_iff_lt, Bool.or_eq_true, decide_eq_true_eq] at hbytes
      omega
    simp only [writeLoop_eq, hlength]
    rfl

end Disk

namespace RequestM

/-! Discards. -/

/-- Discards sectors from one on. Each turn tells the device of as many as remain and one range can
cover, with one command; when none remain, this is noted and the loop ends. -/
def discardLoop (lba sectors : Nat) : RequestM σ Unit :=
  if sectors = 0 then
    withEngine fun engine => HostM.note .debug (engine.title ++ " TRIM complete")
  else do
    let chunk := min sectors DiscardRange.maxSectors
    discardRange ⟨lba, chunk⟩
    require (lba + chunk < UInt64.size) .overflow
    discardLoop (lba + chunk) (sectors - chunk)
termination_by sectors
decreasing_by
  simp only [DiscardRange.maxSectors]
  omega

/-- A discard is the loop from its first sector on, whatever sectors are to be discarded. -/
theorem discardSectors_eq_discardLoop (lba sectors : Nat) :
    (discardSectors lba sectors : RequestM σ Unit) = discardLoop lba sectors := by
  induction sectors using Nat.strongRecOn generalizing lba with
  | ind sectors ih =>
    have hmost : 0 < DiscardRange.maxSectors := by decide
    rw [discardLoop, discardSectors]
    by_cases hnone : sectors = 0
    · rw [if_pos hnone, (Span.pieces_eq_zero hmost).2 hnone, discardPieces]
    · have hpos : 0 < sectors := Nat.pos_of_ne_zero hnone
      generalize hchunk : min sectors DiscardRange.maxSectors = chunk
      have hpiece : (Span.mk lba sectors).take DiscardRange.maxSectors = ⟨lba, chunk⟩ := by
        rw [← hchunk, Nat.min_comm]
        rfl
      have hfewer : sectors - chunk < sectors := by omega
      rw [if_neg hnone, Span.pieces_drop hmost hpos, discardPieces]
      dsimp only
      rw [hpiece, ← ih _ hfewer]
      refine bind_congr fun _ => bind_congr fun _ => ?_
      rcases Nat.le_total DiscardRange.maxSectors sectors with hmore | hlast
      · rw [← hchunk, Nat.min_eq_right hmore]
        rfl
      -- Behind the last range no sector is left, so it does not matter where the next one would be.
      · have hleft : ((Span.mk lba sectors).drop DiscardRange.maxSectors).pieces
            DiscardRange.maxSectors = 0 :=
          (Span.pieces_eq_zero hmost).2 (Nat.sub_eq_zero_of_le hlast)
        have hempty : (Span.mk (lba + sectors) 0).pieces DiscardRange.maxSectors = 0 :=
          (Span.pieces_eq_zero hmost).2 rfl
        rw [← hchunk, Nat.min_eq_left hlast, Nat.sub_self, discardSectors, hempty, hleft]
        rfl

end RequestM

end Ahci
