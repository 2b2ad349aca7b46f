/-!
Blocks: how many of them hold a number of bytes, and runs of consecutive ones. A long run is
cut into pieces of limited length, all of them full but the last; the pieces follow each
other and make up the run.
-/

namespace Ahci

/-- Blocks that hold a number of bytes. -/
def blocksFor (bytes blockSize : Nat) : Nat :=
  (bytes + blockSize - 1) / blockSize

/-- Blocks that hold a number of bytes; blocks without bytes hold nothing. -/
def blocksFor? (bytes blockSize : Nat) : Option Nat :=
  if blockSize = 0 then none else some (blocksFor bytes blockSize)

/-- The blocks hold the bytes, and one block less would not. -/
theorem blocksFor_bounds (bytes : Nat) {blockSize : Nat} (h : 0 < blockSize) :
    bytes ≤ blocksFor bytes blockSize * blockSize ∧
      blocksFor bytes blockSize * blockSize < bytes + blockSize := by
  have hsplit := Nat.div_add_mod (bytes + blockSize - 1) blockSize
  have hsmall := Nat.mod_lt (bytes + blockSize - 1) h
  rw [Nat.mul_comm] at hsplit
  unfold blocksFor
  omega

/-- A run of consecutive blocks. -/
structure Span where
  first : Nat
  count : Nat
deriving DecidableEq, Repr, Inhabited

namespace Span

/-- The block behind the run. -/
def stop (span : Span) : Nat :=
  span.first + span.count

/-- The run of the first blocks, at most as many as are said. -/
def take (span : Span) (most : Nat) : Span :=
  ⟨span.first, min most span.count⟩

/-- The run without its first blocks. -/
def drop (span : Span) (fewer : Nat) : Span :=
  ⟨span.first + fewer, span.count - fewer⟩

/-- Pieces of a limited length that the run is cut into. -/
def pieces (span : Span) (most : Nat) : Nat :=
  (span.count + most - 1) / most

/-- A number of pieces of a limited length, one behind the other. -/
def cutInto (most : Nat) : Nat → Span → List Span
  | 0, _ => []
  | left + 1, span => span.take most :: cutInto most left (span.drop most)

/-- The pieces of the run, none of them longer than the limit. -/
def cut (span : Span) (most : Nat) : List Span :=
  cutInto most (span.pieces most) span

theorem pieces_eq_zero {span : Span} {most : Nat} (h : 0 < most) :
    span.pieces most = 0 ↔ span.count = 0 := by
  unfold pieces
  constructor
  · intro hnone
    rcases Nat.div_eq_zero_iff.1 hnone with hzero | hsmall <;> omega
  · intro hempty
    exact Nat.div_eq_of_lt (by omega)

theorem pieces_drop {span : Span} {most : Nat} (h : 0 < most) (hsome_left : 0 < span.count) :
    span.pieces most = (span.drop most).pieces most + 1 := by
  simp only [pieces, drop]
  by_cases hlast : span.count ≤ most
  · have hnone : span.count - most = 0 := by omega
    have hsplit : span.count + most - 1 = span.count - 1 + most := by omega
    rw [hnone, hsplit, Nat.add_div_right _ h, Nat.div_eq_of_lt (by omega : span.count - 1 < most),
      Nat.div_eq_of_lt (by omega : 0 + most - 1 < most)]
  · have hsplit : span.count + most - 1 = span.count - most + most - 1 + most := by omega
    rw [hsplit, Nat.add_div_right _ h]

theorem cut_of_count_eq_zero {span : Span} {most : Nat} (h : 0 < most)
    (hempty : span.count = 0) : span.cut most = [] := by
  rw [cut, (pieces_eq_zero h).2 hempty, cutInto]

/-- The pieces of a run are its first blocks, then the pieces of the others. -/
theorem cut_of_count_pos {span : Span} {most : Nat} (h : 0 < most)
    (hsome_left : 0 < span.count) :
    span.cut most = span.take most :: (span.drop most).cut most := by
  rw [cut, pieces_drop h hsome_left, cutInto, cut]

@[simp] theorem length_cut (span : Span) (most : Nat) :
    (span.cut most).length = span.pieces most := by
  unfold cut
  generalize span.pieces most = left
  induction left generalizing span with
  | zero => rfl
  | succ left ih => rw [cutInto, List.length_cons, ih]

end Span

end Ahci
