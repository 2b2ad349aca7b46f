import Ahci.Proofs.CommandHandover

/-!
How a transfer is cut into pieces. A scatter list tiles the run of memory that it describes, with
full pieces but for the last. The pieces are also what a loop leaves that fills the table of a
command, entry by entry at a running offset: `ScatterTable.fill` is this loop, and it ends within
the room of the table.
-/

namespace Ahci

/-- Why a number of bytes cannot be described by one command: it is zero, it is odd, or it is even
and above 65536. No two of these hold of one number. -/
inductive ScatterError.Refuses (bytes : Nat) : ScatterError → Prop where
  | empty (hnone : bytes = 0) : Refuses bytes .empty
  | oddLength (hodd : bytes % 2 = 1) : Refuses bytes (.oddLength bytes)
  | tooLarge (heven : bytes % 2 = 0) (hbeyond : 65536 < bytes) : Refuses bytes (.tooLarge bytes)

/-- Pieces that tile a run of memory, in order: each but the last is full, and the last one holds
the rest. The counts and addresses are as they are read back from the entries. -/
structure ScatterList.Tiles (base : PhysAddr) (bytes : Nat) (interrupt : Bool)
    (entries : List ScatterEntry) : Prop where
  length : entries.length = (bytes + 8191) / 8192
  capacity : entries.length ≤ 8
  /-- The count of a command header holds their number. -/
  spelled : (UInt16.ofNat entries.length).toNat = entries.length
  adjoin : Adjoin base.toNat entries
  total : totalBytes entries = bytes
  word : ∀ entry ∈ entries, 0 < entry.bytes ∧ entry.bytes % 2 = 0 ∧ entry.bytes ≤ 8192
  full : ∀ index entry, index + 1 < entries.length → entries[index]? = some entry →
    entry.bytes = 8192
  flag : ∀ entry ∈ entries, entry.interrupt = interrupt

/-! A table that is filled in a loop. -/

/-- The entries of a command table, the first of which are in use. There is room for eight. -/
structure ScatterTable where
  entries : Vector ScatterEntry ScatterList.capacity
  length : Nat

namespace ScatterTable

/-- A table with no entry in use. -/
def blank : ScatterTable :=
  ⟨Vector.replicate _ (.make .zero 2 false), 0⟩

def used (table : ScatterTable) : List ScatterEntry :=
  table.entries.toList.take table.length

/-- Puts an entry behind those in use, if there is room. -/
def push? (table : ScatterTable) (entry : ScatterEntry) : Option ScatterTable :=
  if room : table.length < ScatterList.capacity then
    some ⟨table.entries.set table.length entry room, table.length + 1⟩
  else none

/-- Describes a run of memory from an offset on, piece by piece, as a loop does that keeps the
offset. Nothing is told of a run that the table has no room for. -/
def fill (base : PhysAddr) (bytes : Nat) (interrupt : Bool) (offset : Nat)
    (table : ScatterTable) : Option ScatterTable :=
  if offset < bytes then
    let chunk := min (bytes - offset) ScatterList.pieceSize
    match table.push? (.make (base + offset) chunk interrupt) with
    | some next => fill base bytes interrupt (offset + chunk) next
    | none => none
  else some table
termination_by bytes - offset
decreasing_by
  simp only [ScatterList.pieceSize]
  omega

/-- As long as there is room an entry can be put behind those in use, and the others stay. -/
theorem push?_of_room (table : ScatterTable) (entry : ScatterEntry)
    (hroom : table.length < ScatterList.capacity) :
    ∃ next, table.push? entry = some next ∧ next.used = table.used ++ [entry] ∧
      next.length = table.length + 1 := by
  refine ⟨_, dif_pos hroom, ?_, rfl⟩
  have hinside : table.length < table.entries.toList.length := by rwa [Vector.length_toList]
  simp only [used, Vector.toList_set]
  rw [List.take_add_one, List.take_set_of_le (Nat.le_refl _), List.getElem?_set_self hinside]
  rfl

/-- The induction is on the number of pieces that are left. From an offset on, a table with enough
room takes the pieces of what is left of the run, behind those that it has. -/
theorem fill_eq (base : PhysAddr) (bytes : Nat) (interrupt : Bool) (left : Nat) {offset : Nat}
    (table : ScatterTable)
    (henough : (bytes - offset + ScatterList.pieceSize - 1) / ScatterList.pieceSize = left)
    (hroom : table.length + left ≤ ScatterList.capacity) :
    ∃ after, table.fill base bytes interrupt offset = some after ∧
      after.length = table.length + left ∧ after.used = table.used ++
        (List.range left).map (ScatterList.piece (base + offset) (bytes - offset) interrupt) := by
  induction left generalizing offset table with
  | zero =>
    have hpast : ¬offset < bytes := by
      simp only [ScatterList.pieceSize] at henough
      omega
    rw [fill, if_neg hpast]
    exact ⟨table, rfl, rfl, (List.append_nil _).symm⟩
  | succ left ih =>
    have hmore : offset < bytes := by
      simp only [ScatterList.pieceSize] at henough
      omega
    have hbehind : (List.range left).map (ScatterList.piece
          (base + (offset + min (bytes - offset) ScatterList.pieceSize))
          (bytes - (offset + min (bytes - offset) ScatterList.pieceSize)) interrupt) =
        (List.range left).map (ScatterList.piece (base + offset + ScatterList.pieceSize)
          (bytes - offset - ScatterList.pieceSize) interrupt) := by
      by_cases hlast : bytes - offset ≤ ScatterList.pieceSize
      -- Nothing lies behind the last piece, however far the offset moves on.
      · have hnone : left = 0 := by
          simp only [ScatterList.pieceSize] at henough hlast
          omega
        rw [hnone, List.range_zero, List.map_nil, List.map_nil]
      · rw [Nat.min_eq_right (by omega), PhysAddr.add_add, Nat.sub_sub]
    obtain ⟨next, hpushed, hused, hlength⟩ := table.push?_of_room
      (.make (base + offset) (min (bytes - offset) ScatterList.pieceSize) interrupt) (by omega)
    have hfewer : (bytes - (offset + min (bytes - offset) ScatterList.pieceSize) +
        ScatterList.pieceSize - 1) / ScatterList.pieceSize = left := by
      simp only [ScatterList.pieceSize] at henough ⊢
      omega
    obtain ⟨after, hfilled, htotal, hrest⟩ := ih next hfewer (by omega)
    rw [fill, if_pos hmore]
    dsimp only
    rw [hpushed]
    refine ⟨after, hfilled, by omega, ?_⟩
    rw [hrest, hused, hbehind, ScatterList.pieces_succ, List.append_assoc, List.singleton_append,
      Nat.min_comm]

end ScatterTable

namespace ScatterList

variable {base : PhysAddr} {bytes : Nat} {interrupt : Bool} {entries : List ScatterEntry}

/-- The three errors are told in the order of the checks, so each has its own condition. -/
theorem build_eq_error_iff {error : ScatterError} :
    build base bytes interrupt = .error error ↔ error.Refuses bytes := by
  unfold build
  constructor
  · intro hrefused
    split at hrefused
    · next hnone =>
      cases hrefused
      exact .empty hnone
    split at hrefused
    · next hodd =>
      cases hrefused
      exact .oddLength (by omega)
    split at hrefused
    · next hbeyond =>
      cases hrefused
      exact .tooLarge (by omega) hbeyond
    · cases hrefused
  · rintro (hnone | hodd | ⟨heven, hbeyond⟩)
    · rw [if_pos hnone]
    · rw [if_neg (by omega), if_pos (by omega)]
    · rw [if_neg (by omega), if_neg (by omega), if_pos (show maxBytes < bytes from hbeyond)]

theorem fits_of_build (hformed : build base bytes interrupt = .ok entries) :
    0 < bytes ∧ bytes % 2 = 0 ∧ bytes ≤ 65536 := by
  have haccepted (error : ScatterError) : ¬error.Refuses bytes := by
    intro hrefuses
    cases hformed.symm.trans (build_eq_error_iff.2 hrefuses)
  refine ⟨Nat.pos_of_ne_zero fun hnone => haccepted _ (.empty hnone), ?_, ?_⟩
  · by_contra hodd
    exact haccepted _ (.oddLength (by omega))
  · exact (build_eq_ok hformed).1

/-- A piece holds what is left of its run, as far as it has room; the count survives being laid out
in an entry. -/
theorem bytes_piece {index : Nat} (hinside : index * pieceSize < bytes) :
    (piece base bytes interrupt index).bytes = min pieceSize (bytes - index * pieceSize) := by
  apply ScatterEntry.bytes_make
  · exact Nat.lt_min.2 ⟨by decide, Nat.sub_pos_of_lt hinside⟩
  · exact Nat.le_trans (Nat.min_le_left _ _) (by decide)

theorem getElem?_of_build (hformed : build base bytes interrupt = .ok entries) {index : Nat}
    {entry : ScatterEntry} (hfound : entries[index]? = some entry) :
    index * 8192 < bytes ∧ entry = piece base bytes interrupt index := by
  rw [(build_eq_ok hformed).2, List.getElem?_map, Option.map_eq_some_iff] at hfound
  obtain ⟨_, hplace, rfl⟩ := hfound
  obtain ⟨hinside, rfl⟩ := List.getElem?_eq_some_iff.1 hplace
  rw [List.length_range] at hinside
  rw [List.getElem_range]
  refine ⟨?_, rfl⟩
  simp only [pieceSize] at hinside
  omega

/-- The pieces tile the run if it ends within the physical addresses. Behind those the addresses of
the pieces would wrap around. -/
theorem tiles_of_build (hformed : build base bytes interrupt = .ok entries)
    (hwithin : base.toNat + bytes ≤ PhysAddr.space) : Tiles base bytes interrupt entries := by
  obtain ⟨hpos, heven, hfits⟩ := fits_of_build hformed
  obtain ⟨hlength, hfew⟩ := length_build hformed
  obtain ⟨hadjoin, htotal⟩ := adjoin_pieces interrupt _ rfl hwithin
  rw [← (build_eq_ok hformed).2] at hadjoin htotal
  constructor
  · exact hlength
  · exact hfew
  · simp only [capacity] at hfew
    rw [UInt16.toNat_ofNat']
    omega
  · exact hadjoin
  · exact htotal
  · intro entry hmember
    obtain ⟨index, hfound⟩ := List.getElem?_of_mem hmember
    obtain ⟨hinside, rfl⟩ := getElem?_of_build hformed hfound
    rw [bytes_piece hinside]
    simp only [pieceSize]
    omega
  · intro index entry hfurther hfound
    obtain ⟨hinside, rfl⟩ := getElem?_of_build hformed hfound
    rw [hlength] at hfurther
    rw [bytes_piece hinside]
    simp only [pieceSize] at hfurther ⊢
    omega
  · intro entry hmember
    obtain ⟨index, hfound⟩ := List.getElem?_of_mem hmember
    obtain ⟨hinside, rfl⟩ := getElem?_of_build hformed hfound
    apply ScatterEntry.interrupt_make

/-- A transfer that is described is what the loop leaves in a blank table, and it ends within the
room of the table. -/
theorem exists_fill_of_build (hformed : build base bytes interrupt = .ok entries) :
    ∃ table, ScatterTable.blank.fill base bytes interrupt 0 = some table ∧
      table.length = entries.length ∧ table.used = entries := by
  obtain ⟨hlength, hfew⟩ := length_build hformed
  have henough : (bytes - 0 + pieceSize - 1) / pieceSize = entries.length := by
    rw [Nat.sub_zero, hlength]
  have hroom : ScatterTable.blank.length + entries.length ≤ capacity := by
    rw [ScatterTable.blank, Nat.zero_add]
    exact hfew
  obtain ⟨table, hfilled, htotal, hused⟩ :=
    ScatterTable.fill_eq base bytes interrupt _ .blank henough hroom
  refine ⟨table, hfilled, htotal.trans (Nat.zero_add _), ?_⟩
  rw [hused, hlength, PhysAddr.add_zero, Nat.sub_zero, ← (build_eq_ok hformed).2]
  rfl

/-- For every base, every number of bytes and either flag. A transfer is refused just if it is
empty, or else odd, or else larger than 65536 bytes, each with its own error. All others are
described by what a loop leaves in a blank table of eight entries. These entries tile the run of
memory from its base on, if it ends within the addresses: each but the last holds 8192 bytes and the
last one the rest, each carries the flag that was asked for, and what is read back of them adds up
to the run. -/
theorem build_refuses_or_tiles (base : PhysAddr) (bytes : Nat) (interrupt : Bool) :
    (∀ error, build base bytes interrupt = .error error ↔ error.Refuses bytes) ∧
    ∀ entries, build base bytes interrupt = .ok entries →
      (∃ table, ScatterTable.blank.fill base bytes interrupt 0 = some table ∧
        table.length = entries.length ∧ table.used = entries) ∧
      (base.toNat + bytes ≤ PhysAddr.space → Tiles base bytes interrupt entries) :=
  ⟨fun _ => build_eq_error_iff, fun _ hformed =>
    ⟨exists_fill_of_build hformed, fun hwithin => tiles_of_build hformed hwithin⟩⟩

/-- Seventeen sectors are described by two pieces. -/
theorem tiles_seventeen_sectors :
    ∃ entries, build (.ofNat 0x100000) 8704 false = .ok entries ∧ entries.length = 2 ∧
      Tiles (.ofNat 0x100000) 8704 false entries := by
  obtain ⟨entries, hformed⟩ :=
    exists_build (.ofNat 0x100000) false (show 0 < 8704 by decide) (by decide) (by decide)
  have htiles := ((build_refuses_or_tiles (.ofNat 0x100000) 8704 false).2 entries hformed).2
    (by decide)
  exact ⟨entries, hformed, htiles.length, htiles⟩

end ScatterList

end Ahci
