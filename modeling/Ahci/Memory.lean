import Ahci.Memory.Page
import Std.Data.TreeMap

/-!
Byte-addressed memory that the processor and the bus-mastering devices share. It is kept in
pages, made when first written; all a reader needs to know of it is `byte`, the content of
one address. `store`, `zero` and `load` work on runs of addresses, and each has one
equation that says what it does to, or reads from, `byte`.
-/

namespace Ahci

/-- Bits that tell the place of a byte in its page. -/
abbrev pageDepth : Nat := 12

abbrev pageSize : Nat := 4096

/-- What memory holds before anything is written to it. -/
def unwrittenByte : UInt8 := 0xCC

/-- The pages written so far, by page number. -/
structure Memory where
  pages : Std.TreeMap Nat Page := ∅
deriving Inhabited

namespace Memory

/-- One page; one that nothing was written to is not kept. -/
def page (memory : Memory) (number : Nat) : Page :=
  memory.pages.getD number (.uniform unwrittenByte)

def setPage (memory : Memory) (number : Nat) (page : Page) : Memory :=
  { pages := memory.pages.insert number page }

def byte (memory : Memory) (addr : Nat) : UInt8 :=
  (memory.page (addr / pageSize)).byte pageDepth (addr % pageSize)

def setByte (memory : Memory) (addr : Nat) (value : UInt8) : Memory :=
  memory.setPage (addr / pageSize)
    ((memory.page (addr / pageSize)).set value (addr % pageSize) pageDepth)

def store (memory : Memory) (addr : Nat) : List UInt8 → Memory
  | [] => memory
  | b :: bs => store (memory.setByte addr b) (addr + 1) bs

def load (memory : Memory) (addr count : Nat) : List UInt8 :=
  (List.range count).map fun i => memory.byte (addr + i)

def zeroPages (memory : Memory) (number : Nat) : Nat → Memory
  | 0 => memory
  | count + 1 => zeroPages (memory.setPage number (.uniform 0)) (number + 1) count

/-- Writes zeroes at consecutive addresses, whole pages at once if the first address begins
one. -/
def zero (memory : Memory) (addr count : Nat) : Memory :=
  if addr % pageSize = 0 then
    (memory.zeroPages (addr / pageSize) (count / pageSize)).store
      (addr + count / pageSize * pageSize) (List.replicate (count % pageSize) 0)
  else memory.store addr (List.replicate count 0)

@[simp] theorem length_load (memory : Memory) (addr count : Nat) :
    (memory.load addr count).length = count := by
  simp [load]

@[simp] theorem getElem_load (memory : Memory) (addr count i : Nat)
    (h : i < (memory.load addr count).length) :
    (memory.load addr count)[i] = memory.byte (addr + i) := by
  simp [load]

/-- Replacing one page is seen in that page and in no other. -/
theorem page_setPage (memory : Memory) (number : Nat) (page : Page) (other : Nat) :
    (memory.setPage number page).page other =
      if number = other then page else memory.page other := by
  simp only [Memory.page, setPage, Std.TreeMap.getD_insert, Nat.compare_eq_eq]

/-- Writing one address is seen at that address and at no other. -/
theorem byte_setByte (memory : Memory) (addr : Nat) (value : UInt8) (other : Nat) :
    (memory.setByte addr value).byte other = if other = addr then value else memory.byte other := by
  rw [byte, setByte, page_setPage]
  by_cases hsamePage : addr / pageSize = other / pageSize
  · rw [if_pos hsamePage]
    by_cases hsame : other = addr
    · rw [if_pos hsame, hsame, Page.byte_set_self]
    · have hdiffer : ∃ bit < pageDepth,
          (other % pageSize).testBit bit ≠ (addr % pageSize).testBit bit := by
        apply Classical.byContradiction
        intro hnone
        apply hsame
        have hoffsets : other % pageSize = addr % pageSize := by
          apply Nat.eq_of_testBit_eq
          intro bit
          by_cases hbelow : bit < pageDepth
          · exact Classical.byContradiction fun hne => hnone ⟨bit, hbelow, hne⟩
          · have hbeyond (place : Nat) : (place % pageSize).testBit bit = false := by
              apply Nat.testBit_lt_two_pow
              exact Nat.lt_of_lt_of_le (Nat.mod_lt place (by decide))
                (Nat.pow_le_pow_right (by decide : 2 > 0) (Nat.le_of_not_lt hbelow))
            rw [hbeyond, hbeyond]
        rw [← Nat.div_add_mod other pageSize, ← Nat.div_add_mod addr pageSize, hsamePage, hoffsets]
      rw [if_neg hsame, Page.byte_set_of_differ _ _ hdiffer, byte, hsamePage]
  · have hother_ne : other ≠ addr := fun he => hsamePage (by rw [he])
    rw [if_neg hsamePage, if_neg hother_ne, byte]

/-- A stored run is seen at its own addresses and nowhere else. -/
theorem byte_store (memory : Memory) (addr : Nat) (bytes : List UInt8) (other : Nat) :
    (memory.store addr bytes).byte other =
      if h : addr ≤ other ∧ other - addr < bytes.length then bytes[other - addr]
      else memory.byte other := by
  induction bytes generalizing memory addr with
  | nil => simp [store]
  | cons b bs ih =>
    rw [store, ih]
    by_cases hhead : other = addr
    · subst hhead
      have hbefore : ¬ (other + 1 ≤ other ∧ other - (other + 1) < bs.length) := by omega
      have hfirst : other ≤ other ∧ other - other < (b :: bs).length := by
        rw [List.length_cons]; omega
      rw [dif_neg hbefore, dif_pos hfirst, byte_setByte, if_pos rfl]
      simp
    · by_cases hafter : addr ≤ other ∧ other - addr < (b :: bs).length
      · have htail : addr + 1 ≤ other ∧ other - (addr + 1) < bs.length := by
          rw [List.length_cons] at hafter; omega
        have hsplit : other - addr = other - (addr + 1) + 1 := by omega
        rw [dif_pos htail, dif_pos hafter]
        simp only [hsplit, List.getElem_cons_succ]
      · have htail : ¬ (addr + 1 ≤ other ∧ other - (addr + 1) < bs.length) := by
          rw [List.length_cons] at hafter; omega
        rw [dif_neg htail, dif_neg hafter, byte_setByte, if_neg hhead]

/-- Zeroing pages is seen in those pages and in no other. -/
theorem page_zeroPages (memory : Memory) (number count other : Nat) :
    (memory.zeroPages number count).page other =
      if number ≤ other ∧ other < number + count then .uniform 0 else memory.page other := by
  induction count generalizing memory number with
  | zero => rw [zeroPages, if_neg (by omega)]
  | succ count ih =>
    rw [zeroPages, ih, page_setPage]
    by_cases hfirst : number = other
    · rw [if_neg (by omega), if_pos hfirst, if_pos (by omega)]
    · have hsame : (number + 1 ≤ other ∧ other < number + 1 + count) ↔
          (number ≤ other ∧ other < number + (count + 1)) := by omega
      simp only [hsame, if_neg hfirst]

/-- Zeroing a run is seen at its own addresses and nowhere else. -/
theorem byte_zero (memory : Memory) (addr count other : Nat) :
    (memory.zero addr count).byte other =
      if addr ≤ other ∧ other < addr + count then 0 else memory.byte other := by
  have hzeroes (memory : Memory) (addr count : Nat) :
      (memory.store addr (List.replicate count 0)).byte other =
        if addr ≤ other ∧ other < addr + count then 0 else memory.byte other := by
    rw [byte_store]
    by_cases hinside : addr ≤ other ∧ other < addr + count
    · have hwithin : addr ≤ other ∧ other - addr < (List.replicate count (0 : UInt8)).length := by
        rw [List.length_replicate]; omega
      rw [dif_pos hwithin, if_pos hinside, List.getElem_replicate]
    · have hwithout : ¬ (addr ≤ other ∧
          other - addr < (List.replicate count (0 : UInt8)).length) := by
        rw [List.length_replicate]; omega
      rw [dif_neg hwithout, if_neg hinside]
  rw [zero]
  by_cases haligned : addr % pageSize = 0
  · have hremainder := Nat.div_add_mod count pageSize
    have hleft := Nat.mod_lt count (by decide : 0 < pageSize)
    have hplace := Nat.div_add_mod other pageSize
    have hoffset := Nat.mod_lt other (by decide : 0 < pageSize)
    rw [if_pos haligned, hzeroes, byte, page_zeroPages]
    generalize count / pageSize = pages at hremainder ⊢
    generalize count % pageSize = rest at hremainder hleft ⊢
    generalize hpage : other / pageSize = page at hplace ⊢
    simp only [pageSize] at haligned hremainder hleft hplace hoffset hpage ⊢
    by_cases hbehind : addr + pages * 4096 ≤ other ∧ other < addr + pages * 4096 + rest
    · rw [if_pos hbehind, if_pos (by omega)]
    · rw [if_neg hbehind]
      by_cases hwhole : addr / 4096 ≤ page ∧ page < addr / 4096 + pages
      · rw [if_pos hwhole, if_pos (by omega), Page.byte]
      · rw [if_neg hwhole, if_neg (by omega), byte, hpage]
  · rw [if_neg haligned, hzeroes]

/-- A load depends on the addresses it names and on nothing else. -/
theorem load_congr {memory other : Memory} {addr count : Nat}
    (hsame : ∀ i < count, memory.byte (addr + i) = other.byte (addr + i)) :
    memory.load addr count = other.load addr count := by
  apply List.map_congr_left
  intro i hmember
  exact hsame i (List.mem_range.1 hmember)

/-- Loading a part of what was just stored gives that part. -/
theorem load_store_part (memory : Memory) (addr : Nat) {bytes : List UInt8}
    {offset count : Nat} (hwithin : offset + count ≤ bytes.length) :
    (memory.store addr bytes).load (addr + offset) count = (bytes.drop offset).take count := by
  apply List.ext_getElem
  · rw [length_load, List.length_take, List.length_drop]
    omega
  · intro i h _
    rw [length_load] at h
    have hinside : addr ≤ addr + offset + i ∧ addr + offset + i - addr < bytes.length := by omega
    have hplace : addr + offset + i - addr = offset + i := by omega
    rw [getElem_load, byte_store, dif_pos hinside, List.getElem_take, List.getElem_drop]
    simp only [hplace]

theorem load_store (memory : Memory) (addr : Nat) (bytes : List UInt8) :
    (memory.store addr bytes).load addr bytes.length = bytes := by
  have hwhole := load_store_part memory addr (Nat.le_of_eq (Nat.zero_add bytes.length))
  rwa [Nat.add_zero, List.drop_zero, List.take_length] at hwhole

/-- A store is not seen by a load of addresses it does not touch. -/
theorem load_store_of_disjoint (memory : Memory) {addr other count : Nat} {bytes : List UInt8}
    (hapart : other + count ≤ addr ∨ addr + bytes.length ≤ other) :
    (memory.store addr bytes).load other count = memory.load other count := by
  apply load_congr
  intro i hinside
  have huntouched : ¬ (addr ≤ other + i ∧ other + i - addr < bytes.length) := by omega
  rw [byte_store, dif_neg huntouched]

/-- Loading from where zeroes were just written gives zeroes. -/
theorem load_zero (memory : Memory) {addr count other length : Nat}
    (hwithin : addr ≤ other ∧ other + length ≤ addr + count) :
    (memory.zero addr count).load other length = List.replicate length 0 := by
  apply List.ext_getElem
  · rw [length_load, List.length_replicate]
  · intro i h _
    rw [length_load] at h
    have hinside : addr ≤ other + i ∧ other + i < addr + count := by omega
    rw [getElem_load, byte_zero, if_pos hinside, List.getElem_replicate]

/-- Zeroes are not seen by a load of addresses they were not written to. -/
theorem load_zero_of_disjoint (memory : Memory) {addr count other length : Nat}
    (hapart : other + length ≤ addr ∨ addr + count ≤ other) :
    (memory.zero addr count).load other length = memory.load other length := by
  apply load_congr
  intro i hinside
  have huntouched : ¬ (addr ≤ other + i ∧ other + i < addr + count) := by omega
  rw [byte_zero, if_neg huntouched]

/-- What is read behind a history of writes, newest first, is what the last write told that told of
it. -/
theorem read_foldr {α β : Type} (read : Memory → β) {write : α → Memory → Memory}
    {told? : α → Option β} {history : List α}
    (hstep : ∀ a ∈ history, ∀ memory, read (write a memory) = (told? a).getD (read memory))
    (memory : Memory) :
    read (history.foldr write memory) = (history.findSome? told?).getD (read memory) := by
  induction history with
  | nil => rfl
  | cons a history ih =>
    have hearlier := ih fun b hmember => hstep b (List.mem_cons_of_mem a hmember)
    rw [List.foldr_cons, hstep a List.mem_cons_self, hearlier, List.findSome?_cons]
    cases told? a <;> rfl

end Memory

end Ahci
