/-!
A register as thirty-two numbered bits. `test` looks at one of them, `set` and `clear`
change one of them and leave the other thirty-one alone, and a word is determined by what
`test` says of its bits.
-/

namespace Ahci.Word

def test (word : UInt32) (bit : Nat) : Bool :=
  word.toBitVec.getLsbD bit

/-- The word in which one bit alone is one. -/
def only (bit : Nat) : UInt32 :=
  ⟨BitVec.twoPow 32 bit⟩

/-- The word with one bit set. A bit that the word does not have changes nothing. -/
def set (word : UInt32) (bit : Nat) : UInt32 :=
  word ||| only bit

/-- The word with one bit cleared. -/
def clear (word : UInt32) (bit : Nat) : UInt32 :=
  word &&& ~~~ only bit

/-- The number spelled by `width` bits from `low` upwards. -/
def bits (word : UInt32) (low width : Nat) : Nat :=
  (word.toBitVec.extractLsb' low width).toNat

theorem test_only (bit other : Nat) :
    test (only bit) other = (decide (bit < 32) && decide (bit = other)) := by
  by_cases h : bit < 32
  · by_cases he : bit = other <;> simp [test, only, BitVec.getLsbD_twoPow, h, he]
  · simp [test, only, BitVec.getLsbD_twoPow, h]

theorem test_or (a b : UInt32) (bit : Nat) : test (a ||| b) bit = (test a bit || test b bit) := by
  simp [test]

@[simp] theorem test_zero (bit : Nat) : test 0 bit = false := by
  simp [test]

/-- Setting a bit makes it one and is seen at no other bit. -/
theorem test_set (word : UInt32) {bit : Nat} (h : bit < 32) (other : Nat) :
    test (set word bit) other = (test word other || decide (bit = other)) := by
  simp [set, test_or, test_only, h]

/-- Clearing a bit makes it zero and is seen at no other bit. -/
theorem test_clear (word : UInt32) (bit other : Nat) :
    test (clear word bit) other = (test word other && !decide (bit = other)) := by
  by_cases hlow : other < 32
  · by_cases he : bit = other
    · subst he
      simp [clear, test, only, hlow]
    · simp [clear, test, only, hlow, he, Ne.symm he]
  · simp [test, BitVec.getLsbD_of_ge _ _ (Nat.le_of_not_lt hlow)]

theorem ext {a b : UInt32} (h : ∀ bit < 32, test a bit = test b bit) : a = b := by
  apply UInt32.toBitVec_inj.1
  exact BitVec.eq_of_getLsbD_eq fun i hi => h i hi

end Ahci.Word
