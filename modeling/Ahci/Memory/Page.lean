/-!
One page of memory as a tree. A part of the page that holds the same byte throughout is one
leaf, whatever its size, so a page that was just cleared is a single leaf; writing a byte
splits the leaves on the way down to it. `byte` reads one place, and `set` is seen at the
place it names and at no other.
-/

namespace Ahci

/-- The content of a run of places, as many as two to the power of a depth. -/
inductive Page where
  /-- The same byte at every place. -/
  | uniform (value : UInt8)
  /-- The places whose highest bit is zero, and those whose highest bit is one. -/
  | split (low high : Page)
deriving Inhabited

namespace Page

/-- The byte at a place, which is told by its lowest bits, as many as the depth. -/
def byte : Page → Nat → Nat → UInt8
  | uniform value, _, _ => value
  | split low high, depth, place =>
    if place.testBit (depth - 1) then high.byte (depth - 1) place
    else low.byte (depth - 1) place

/-- The half of a page in which the highest bit of a place is zero. -/
def low : Page → Page
  | uniform value => uniform value
  | split low _ => low

/-- The half of a page in which the highest bit of a place is one. -/
def high : Page → Page
  | uniform value => uniform value
  | split _ high => high

def set (value : UInt8) (place : Nat) : Nat → Page → Page
  | 0, _ => uniform value
  | depth + 1, page =>
    if place.testBit depth then split page.low (set value place depth page.high)
    else split (set value place depth page.low) page.high

/-- A byte is in the half that the highest bit of its place tells. -/
theorem byte_succ (page : Page) (depth place : Nat) :
    page.byte (depth + 1) place =
      if place.testBit depth then page.high.byte depth place else page.low.byte depth place := by
  cases page with
  | uniform value => simp only [byte, low, high, ite_self]
  | split lowPart highPart => rw [byte, Nat.add_sub_cancel, low, high]

theorem byte_set_self (value : UInt8) (place depth : Nat) (page : Page) :
    (set value place depth page).byte depth place = value := by
  induction depth generalizing page with
  | zero => rw [set, byte]
  | succ depth ih =>
    rw [byte_succ, set]
    by_cases htop : place.testBit depth = true
    · rw [if_pos htop, if_pos htop, high, ih]
    · rw [if_neg htop, if_neg htop, low, ih]

/-- Setting a byte is not seen at a place that differs in one of the bits that count. -/
theorem byte_set_of_differ (value : UInt8) {place other depth : Nat} (page : Page)
    (hdiffer : ∃ bit < depth, other.testBit bit ≠ place.testBit bit) :
    (set value place depth page).byte depth other = page.byte depth other := by
  induction depth generalizing page with
  | zero =>
    obtain ⟨_, hbelow, _⟩ := hdiffer
    exact absurd hbelow (Nat.not_lt_zero _)
  | succ depth ih =>
    obtain ⟨bit, hbelow, hne⟩ := hdiffer
    rw [byte_succ, byte_succ, set]
    by_cases hsame : other.testBit depth = place.testBit depth
    · have hfurther : ∃ bit < depth, other.testBit bit ≠ place.testBit bit := by
        refine ⟨bit, ?_, hne⟩
        rcases Nat.lt_succ_iff_lt_or_eq.1 hbelow with hlower | htop
        · exact hlower
        · exact absurd hsame (htop ▸ hne)
      rw [hsame]
      by_cases htop : place.testBit depth = true
      · rw [if_pos htop, if_pos htop, if_pos htop, high, ih _ hfurther]
      · rw [if_neg htop, if_neg htop, if_neg htop, low, ih _ hfurther]
    · by_cases htop : place.testBit depth = true
      · have hbottom : ¬ other.testBit depth = true := fun h => hsame (h.trans htop.symm)
        rw [if_neg hbottom, if_neg hbottom, if_pos htop, low]
      · have hraised : other.testBit depth = true := by
          rw [Bool.not_eq_true] at htop
          rw [htop, Bool.not_eq_false] at hsame
          exact hsame
        rw [if_pos hraised, if_pos hraised, if_neg htop, high]

end Page

end Ahci
