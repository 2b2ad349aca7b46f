import Ahci.Numeral

/-!
Two kinds of address. A `PhysAddr` is what a bus-mastering device sees and has fifty-two
bits; a `VirtAddr` is what the processor dereferences and has sixty-four. They are
different types so that one is never programmed where the other is meant.
-/

namespace Ahci

/-- A physical address of fifty-two bits. -/
structure PhysAddr where
  bits : BitVec 52
deriving DecidableEq, Repr, Inhabited

namespace PhysAddr

/-- The address with the low fifty-two bits of a number. -/
def ofNat (n : Nat) : PhysAddr :=
  ⟨BitVec.ofNat 52 n⟩

abbrev space : Nat := 0x10000000000000

def toNat (addr : PhysAddr) : Nat :=
  addr.bits.toNat

def zero : PhysAddr :=
  ofNat 0

/-- The address a number of bytes further on, within fifty-two bits. -/
instance : HAdd PhysAddr Nat PhysAddr where
  hAdd addr offset := ofNat (addr.toNat + offset)

/-- Low half, as programmed into a base-address register. -/
def lower (addr : PhysAddr) : UInt32 :=
  UInt32.ofNat addr.toNat

/-- High half, as programmed into the upper base-address register. -/
def upper (addr : PhysAddr) : UInt32 :=
  UInt32.ofNat (addr.toNat / UInt32.size)

/-- Whether the address is a multiple of a power of two. -/
def isAligned (addr : PhysAddr) (align : Nat) : Bool :=
  addr.toNat &&& (align - 1) == 0

def describe (addr : PhysAddr) : String :=
  "PhysAddr(" ++ hexMarked addr.toNat ++ ")"

@[simp] theorem toNat_ofNat (n : Nat) : (ofNat n).toNat = n % space :=
  BitVec.toNat_ofNat n 52

theorem toNat_lt (addr : PhysAddr) : addr.toNat < space :=
  addr.bits.isLt

@[simp] theorem ofNat_toNat (addr : PhysAddr) : ofNat addr.toNat = addr := by
  simp [ofNat, toNat]

theorem toNat_add (addr : PhysAddr) (offset : Nat) :
    (addr + offset).toNat = (addr.toNat + offset) % space :=
  toNat_ofNat _

/-- A word of sixty-four bits carries the whole address. -/
theorem toNat_word (addr : PhysAddr) : (UInt64.ofNat addr.toNat).toNat = addr.toNat :=
  UInt64.toNat_ofNat_of_lt (Nat.lt_trans addr.toNat_lt (by decide))

/-- The two halves carry the whole address. -/
theorem halves (addr : PhysAddr) :
    addr.lower.toNat + UInt32.size * addr.upper.toNat = addr.toNat := by
  have h := addr.toNat_lt
  simp only [lower, upper, UInt32.toNat_ofNat', UInt32.size, space] at h ⊢
  omega

end PhysAddr

/-- A virtual address of sixty-four bits. -/
structure VirtAddr where
  bits : UInt64
deriving DecidableEq, Repr, Inhabited

namespace VirtAddr

def toNat (addr : VirtAddr) : Nat :=
  addr.bits.toNat

/-- The address a number of bytes further on, within sixty-four bits. -/
instance : HAdd VirtAddr Nat VirtAddr where
  hAdd addr offset := ⟨addr.bits + UInt64.ofNat offset⟩

def describe (addr : VirtAddr) : String :=
  "VirtAddr(" ++ hexMarked addr.toNat ++ ")"

theorem add_eq (addr : VirtAddr) (offset : Nat) :
    addr + offset = ⟨addr.bits + UInt64.ofNat offset⟩ := rfl

theorem add_add (addr : VirtAddr) (a b : Nat) : addr + a + b = addr + (a + b) := by
  simp only [add_eq, UInt64.add_assoc, UInt64.ofNat_add]

theorem toNat_add (addr : VirtAddr) (offset : Nat) :
    (addr + offset).toNat = (addr.toNat + offset) % UInt64.size := by
  rw [add_eq]
  change (addr.bits + UInt64.ofNat offset).toNat = _
  rw [UInt64.toNat_add, UInt64.toNat_ofNat', Nat.add_mod_mod]
  rfl

end VirtAddr

end Ahci
