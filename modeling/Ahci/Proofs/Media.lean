import Ahci.Simulation.Medium

/-!
Runs of blocks on a medium. A run is cut into pieces, the first pieces of a run are the pieces
of its first part, and what is read or written piece by piece is what is read or written at
once; so a request may be cut into commands wherever the driver likes.
-/

namespace Ahci

/-- Some bytes need at most a number of blocks exactly if those blocks have room for them. -/
theorem blocksFor_le_iff {bytes blockSize count : Nat} (hpos : 0 < blockSize) :
    blocksFor bytes blockSize ≤ count ↔ bytes ≤ count * blockSize := by
  unfold blocksFor
  rw [Nat.div_le_iff_le_mul_add_pred hpos, Nat.mul_comm]
  omega

theorem blocksFor_take {α : Type} (data : List α) {blockSize : Nat} (hpos : 0 < blockSize)
    (count : Nat) : blocksFor (data.take (count * blockSize)).length blockSize =
      min count (blocksFor data.length blockSize) := by
  apply Nat.le_antisymm
  · rw [Nat.le_min]
    constructor
    · rw [blocksFor_le_iff hpos, List.length_take]
      exact Nat.min_le_left _ _
    · rw [blocksFor_le_iff hpos, List.length_take]
      have hwhole := (blocksFor_bounds data.length hpos).1
      omega
  · by_cases hfew : blocksFor data.length blockSize ≤ count
    · rw [List.take_of_length_le ((blocksFor_le_iff hpos).1 hfew)]
      exact Nat.min_le_right _ _
    · have hlong : count * blockSize < data.length := by
        have hexceeded := mt (blocksFor_le_iff hpos).2 hfew
        omega
      rw [List.length_take_of_le (Nat.le_of_lt hlong)]
      have hbounds := (blocksFor_bounds (count * blockSize) hpos).1
      have hcovered : count ≤ blocksFor (count * blockSize) blockSize :=
        Nat.le_of_mul_le_mul_right hbounds hpos
      omega

theorem blocksFor_drop {α : Type} (data : List α) {blockSize : Nat} (hpos : 0 < blockSize)
    (count : Nat) : blocksFor (data.drop (count * blockSize)).length blockSize =
      blocksFor data.length blockSize - count := by
  apply Nat.le_antisymm
  · rw [blocksFor_le_iff hpos, List.length_drop, Nat.sub_mul]
    have hwhole := (blocksFor_bounds data.length hpos).1
    omega
  · have hrest := (blocksFor_bounds (data.drop (count * blockSize)).length hpos).1
    have hwhole : blocksFor data.length blockSize ≤
        blocksFor (data.drop (count * blockSize)).length blockSize + count := by
      rw [blocksFor_le_iff hpos, Nat.add_mul]
      rw [List.length_drop] at hrest ⊢
      omega
    omega

namespace Span

/-- A run may be cut at any multiple of the size of a piece: its pieces are those of the part
before, which are full, and those of the part behind. The cut may lie behind the end of the run. -/
theorem cut_split (span : Span) {most : Nat} (hpos : 0 < most) (count : Nat) :
    span.cut most =
      (span.take (count * most)).cut most ++ (span.drop (count * most)).cut most := by
  induction count generalizing span with
  | zero =>
    have hnone : (span.take (0 * most)).count = 0 := by simp [take]
    have hwhole : span.drop (0 * most) = span := by simp [drop]
    rw [cut_of_count_eq_zero hpos hnone, hwhole, List.nil_append]
  | succ count ih =>
    by_cases hempty : span.count = 0
    · rw [cut_of_count_eq_zero hpos hempty, cut_of_count_eq_zero hpos (by simp [take, hempty]),
        cut_of_count_eq_zero hpos (by simp [drop, hempty])]
      rfl
    · have hlong : most ≤ (count + 1) * most := Nat.le_mul_of_pos_left _ (Nat.succ_pos _)
      have hsum : (count + 1) * most = most + count * most := by rw [Nat.succ_mul, Nat.add_comm]
      have hfirst : (span.take ((count + 1) * most)).take most = span.take most := by
        simp only [take, Span.mk.injEq, true_and]
        omega
      have hothers : (span.take ((count + 1) * most)).drop most =
          (span.drop most).take (count * most) := by
        simp only [take, drop, Span.mk.injEq, true_and]
        omega
      have hleft : span.drop ((count + 1) * most) = (span.drop most).drop (count * most) := by
        simp only [drop, Span.mk.injEq]
        omega
      have hsome : 0 < (span.take ((count + 1) * most)).count := by
        simp only [take]
        omega
      rw [cut_of_count_pos hpos (by omega), cut_of_count_pos hpos hsome, hfirst, hothers, hleft,
        ih (span.drop most), List.cons_append]

/-- Every piece of a run has between one and `most` blocks, and lies within the run. -/
theorem mem_cut {span piece : Span} {most : Nat} (hpos : 0 < most)
    (hmember : piece ∈ span.cut most) :
    0 < piece.count ∧ piece.count ≤ most ∧ span.first ≤ piece.first ∧
      piece.stop ≤ span.stop := by
  induction size : span.count using Nat.strongRecOn generalizing span with
  | ind count ih =>
    by_cases hempty : span.count = 0
    · rw [cut_of_count_eq_zero hpos hempty] at hmember
      cases hmember
    · rw [cut_of_count_pos hpos (by omega)] at hmember
      rcases List.mem_cons.1 hmember with rfl | hlater
      · simp only [take, stop]
        omega
      · have hsmaller : (span.drop most).count < count := by
          simp only [drop]
          omega
        have hwithin := ih _ hsmaller hlater rfl
        simp only [drop, stop] at hwithin ⊢
        omega

/-- One of the pieces that a run is cut into, by its number from the front. -/
def piece (span : Span) (most index : Nat) : Span :=
  (span.drop (index * most)).take most

/-- Every piece of a run is the piece of some number, and that number leaves blocks for it. -/
theorem exists_of_mem_cut {span piece : Span} {most : Nat} (hpos : 0 < most)
    (hmember : piece ∈ span.cut most) :
    ∃ index, index * most < span.count ∧ piece = span.piece most index := by
  induction hsize : span.count using Nat.strongRecOn generalizing span with
  | ind count ih =>
    subst hsize
    by_cases hempty : span.count = 0
    · rw [cut_of_count_eq_zero hpos hempty] at hmember
      cases hmember
    · rw [cut_of_count_pos hpos (by omega)] at hmember
      rcases List.mem_cons.1 hmember with rfl | hlater
      · refine ⟨0, by omega, ?_⟩
        simp [Span.piece, drop]
      · have hsmaller : (span.drop most).count < span.count := by
          simp only [drop]
          omega
        obtain ⟨index, hwithin, hsame⟩ := ih _ hsmaller hlater rfl
        refine ⟨index + 1, ?_, ?_⟩
        · rw [Nat.succ_mul]
          simp only [drop] at hwithin
          omega
        · rw [hsame, Span.piece, Span.piece, Nat.succ_mul]
          simp only [drop, take, Span.mk.injEq]
          omega

/-- Each piece of the first part of a run is a piece of the run, with a number below that of the
cut. -/
theorem exists_of_mem_cut_take {span piece : Span} {most count : Nat} (hpos : 0 < most)
    (hwithin : count * most ≤ span.count) (hmember : piece ∈ (span.take (count * most)).cut most) :
    ∃ index < count, piece = span.piece most index := by
  obtain ⟨index, hinside, hsame⟩ := exists_of_mem_cut hpos hmember
  simp only [take] at hinside
  have hfew : index < count := by
    have hbound : index * most < count * most := by omega
    exact Nat.lt_of_mul_lt_mul_right hbound
  have hfull : (index + 1) * most ≤ count * most := Nat.mul_le_mul_right _ hfew
  rw [Nat.succ_mul] at hfull
  refine ⟨index, hfew, ?_⟩
  rw [hsame, Span.piece, Span.piece]
  simp only [drop, take, Span.mk.injEq, true_and]
  omega

/-- The first part of a run, of a number of full pieces, has just this number of pieces. -/
theorem length_cut_take {span : Span} {most count : Nat} (hpos : 0 < most)
    (hwithin : count * most ≤ span.count) :
    ((span.take (count * most)).cut most).length = count := by
  rw [length_cut, pieces, take]
  dsimp only
  rw [Nat.min_eq_left hwithin, Nat.add_sub_assoc hpos, Nat.mul_comm, Nat.mul_add_div hpos,
    Nat.div_eq_of_lt (by omega), Nat.add_zero]

/-- The pieces of a run are those before a given one, that piece, and some others behind it. -/
theorem exists_cut_eq {span : Span} {most index : Nat} (hpos : 0 < most)
    (hwithin : index * most < span.count) :
    ∃ others, span.cut most =
      (span.take (index * most)).cut most ++ span.piece most index :: others := by
  have hleft : 0 < (span.drop (index * most)).count := by
    simp only [drop]
    omega
  rw [cut_split span hpos index, cut_of_count_pos hpos hleft]
  exact ⟨_, rfl⟩

end Span

namespace Medium

theorem ext {first second : Medium} (hblockSize : first.blockSize = second.blockSize)
    (hblocks : first.blocks = second.blocks) (hcontent : first.content = second.content) :
    first = second := by
  cases first
  cases second
  cases hblockSize
  cases hblocks
  cases hcontent
  rfl

@[simp] theorem blockSize_write (medium : Medium) (first count : Nat) (data : List UInt8) :
    (medium.write first count data).blockSize = medium.blockSize := rfl

theorem blockOf_take {data : List UInt8} {blockSize count place : Nat} (hwithin : place < count) :
    blockOf blockSize (data.take (count * blockSize)) place = blockOf blockSize data place := by
  have henough : (place + 1) * blockSize ≤ count * blockSize := Nat.mul_le_mul_right _ hwithin
  rw [Nat.succ_mul] at henough
  have hpiece : ((data.take (count * blockSize)).drop (place * blockSize)).take blockSize =
      (data.drop (place * blockSize)).take blockSize := by
    rw [List.drop_take, List.take_take, Nat.min_eq_left (by omega)]
  rw [blockOf, hpiece, blockOf]

theorem blockOf_drop (data : List UInt8) (blockSize count place : Nat) :
    blockOf blockSize (data.drop (count * blockSize)) place =
      blockOf blockSize data (count + place) := by
  rw [blockOf, List.drop_drop, ← Nat.add_mul, blockOf]

/-- Zeros behind the data do not show in a block that begins within the data or at its end. -/
theorem blockOf_append_zeroes {data : List UInt8} {blockSize place : Nat} (extra : Nat)
    (hbegun : place * blockSize ≤ data.length) :
    blockOf blockSize (data ++ List.replicate extra 0) place = blockOf blockSize data place := by
  rw [blockOf, blockOf, List.drop_append_of_le_length hbegun, List.take_append]
  simp only [List.take_replicate, List.length_append, List.length_replicate, List.append_assoc,
    List.replicate_append_replicate]
  congr 2
  simp only [List.length_take]
  omega

/-- Writing a run and then the run behind it, with the data split accordingly, is one write of
both. -/
theorem write_append (medium : Medium) (hpos : 0 < medium.blockSize) (first count more : Nat)
    (data : List UInt8) :
    (medium.write first count (data.take (count * medium.blockSize))).write (first + count) more
        (data.drop (count * medium.blockSize)) = medium.write first (count + more) data := by
  refine ext rfl rfl ?_
  funext index
  rw [content_write, content_write, content_write, blockSize_write, blocksFor_take data hpos,
    blocksFor_drop data hpos, blockOf_drop]
  by_cases hbehind : first + count ≤ index
  · have hplace : count + (index - (first + count)) = index - first := by omega
    have hunseen : ¬ (first ≤ index ∧ index < first + min count (min count
        (blocksFor data.length medium.blockSize))) := by omega
    rw [hplace, if_neg hunseen]
    by_cases hwritten : index < first + count + min more
        (blocksFor data.length medium.blockSize - count)
    · rw [if_pos ⟨hbehind, hwritten⟩, if_pos (by omega)]
    · rw [if_neg (by omega), if_neg (by omega)]
  · rw [if_neg (by omega)]
    by_cases hwritten : first ≤ index ∧
        index < first + min count (min count (blocksFor data.length medium.blockSize))
    · rw [if_pos hwritten, if_pos (by omega), blockOf_take (by omega)]
    · rw [if_neg hwritten, if_neg (by omega)]

@[simp] theorem write_zero (medium : Medium) (first : Nat) (data : List UInt8) :
    medium.write first 0 data = medium := by
  refine ext rfl rfl ?_
  funext index
  rw [content_write, if_neg (by omega)]

/-- Reading the first blocks of a run and then the others is reading the run, wherever it is
split. -/
theorem read_take_drop (medium : Medium) (span : Span) (most : Nat) :
    medium.read (span.take most).first (span.take most).count ++
        medium.read (span.drop most).first (span.drop most).count =
      medium.read span.first span.count := by
  simp only [Span.take, Span.drop]
  by_cases hshort : span.count ≤ most
  · have hnone : span.count - most = 0 := by omega
    rw [Nat.min_eq_right hshort, hnone]
    simp [read]
  · have hwhole : most + (span.count - most) = span.count := by omega
    rw [Nat.min_eq_left (by omega), read_append, hwhole]

/-- Writing the first blocks of a run and then the others, with the data split accordingly, is
writing the run, wherever it is split. -/
theorem write_take_drop (medium : Medium) (hpos : 0 < medium.blockSize) (span : Span) (most : Nat)
    (data : List UInt8) :
    (medium.write (span.take most).first (span.take most).count
          (data.take ((span.take most).count * medium.blockSize))).write
        (span.drop most).first (span.drop most).count
        (data.drop ((span.take most).count * medium.blockSize)) =
      medium.write span.first span.count data := by
  simp only [Span.take, Span.drop]
  by_cases hshort : span.count ≤ most
  · have hnone : span.count - most = 0 := by omega
    have halone := medium.write_append hpos span.first span.count 0 data
    rw [write_zero] at halone
    rw [Nat.min_eq_right hshort, hnone, write_zero, halone, Nat.add_zero]
  · have hwhole : most + (span.count - most) = span.count := by omega
    rw [Nat.min_eq_left (by omega), write_append _ hpos, hwhole]

/-- A write is undone by a second write of the same data from the same block on, if that one covers
as many blocks at least. So it does not matter whether a request was tried before. -/
theorem write_write (medium : Medium) (first : Nat) {count more : Nat} (hfurther : count ≤ more)
    (data : List UInt8) :
    (medium.write first count data).write first more data = medium.write first more data := by
  refine ext rfl rfl ?_
  funext index
  rw [content_write, content_write, content_write, blockSize_write]
  split
  · rfl
  · rw [if_neg (by omega)]

/-- Zeros behind the data change nothing of a write that covers no more blocks than the data
begins. -/
theorem write_append_zeroes (medium : Medium) (hpos : 0 < medium.blockSize) {first count : Nat}
    {data : List UInt8} (extra : Nat)
    (hcovered : count ≤ blocksFor data.length medium.blockSize) :
    medium.write first count (data ++ List.replicate extra 0) = medium.write first count data := by
  refine ext rfl rfl ?_
  funext index
  have hmore : blocksFor data.length medium.blockSize ≤
      blocksFor (data ++ List.replicate extra 0).length medium.blockSize := by
    have hwhole := (blocksFor_bounds (data ++ List.replicate extra 0).length hpos).1
    rw [blocksFor_le_iff hpos]
    refine Nat.le_trans ?_ hwhole
    simp
  rw [content_write, content_write, Nat.min_eq_left hcovered,
    Nat.min_eq_left (Nat.le_trans hcovered hmore)]
  split
  · next hwritten =>
    apply blockOf_append_zeroes
    have hbegun : ¬ blocksFor data.length medium.blockSize ≤ index - first := by omega
    rw [blocksFor_le_iff hpos] at hbegun
    omega
  · rfl

end Medium

end Ahci
