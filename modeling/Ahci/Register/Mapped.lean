import Ahci.Bytes
import Ahci.Host

/-!
Register blocks that are mapped into memory: a register is the little-endian word at its
address. A block can be looked at from a point inside it on, and a port is such a part of
the block of its adapter.
-/

namespace Ahci

/-- A register block that begins at an address. -/
structure MappedWindow where
  base : VirtAddr
deriving DecidableEq, Repr

namespace MappedWindow

/-- The part of the block that begins at an offset. -/
def part (window : MappedWindow) (offset : Nat) : MappedWindow :=
  ⟨window.base + offset⟩

/-- The part of the block of an adapter that belongs to a port. -/
def ofPort (window : MappedWindow) (index : Nat) : MappedWindow :=
  window.part (portOffset index)

def address (window : MappedWindow) (offset : Nat) : Nat :=
  (window.base + offset).toNat

def readRegister (window : MappedWindow) (offset : Nat) (memory : Memory) : UInt32 :=
  UInt32.ofNat (ofLittleEndian (memory.load (window.address offset) 4))

def writeRegister (window : MappedWindow) (offset : Nat) (value : UInt32) (memory : Memory) :
    Memory :=
  memory.store (window.address offset) (littleEndian 4 value.toNat)

/-- The part of a mapped block that is meant by a window. -/
def select (window : MappedWindow) : Window → MappedWindow
  | .hba => window
  | .port index => window.ofPort index

theorem readRegister_writeRegister (window : MappedWindow) (offset : Nat) (value : UInt32)
    (memory : Memory) :
    window.readRegister offset (window.writeRegister offset value memory) = value := by
  have hwhole := Memory.load_store memory (window.address offset) (littleEndian 4 value.toNat)
  rw [length_littleEndian] at hwhole
  have hsmall : value.toNat % byteRange 4 = value.toNat := Nat.mod_eq_of_lt value.toNat_lt
  rw [readRegister, writeRegister, hwhole, ofLittleEndian_littleEndian, hsmall]
  exact UInt32.ofNat_toNat

/-- Looking at a part of a part is looking at one part further in. -/
theorem part_part (window : MappedWindow) (a b : Nat) :
    (window.part a).part b = window.part (a + b) := by
  simp only [part, VirtAddr.add_add]

end MappedWindow

instance : Device MappedWindow where
  read window offset mapped memory := ((mapped.select window).readRegister offset memory, mapped)
  write window offset value mapped memory :=
    (mapped, (mapped.select window).writeRegister offset value memory)

end Ahci
