import Ahci.Address
import Ahci.Bytes

/-!
Scatter lists: the pieces of memory that the data of one command is spread over. An entry
of sixteen bytes describes one piece, its length stored as one less in twenty-two bits
beside an interrupt flag. `ScatterList.build` cuts one contiguous buffer into pieces of
`pieceSize` bytes, the last of which may be shorter.
-/

namespace Ahci

/-- One piece of memory. -/
structure ScatterEntry where
  /-- Both halves of the address of the piece. -/
  base : UInt64
  reserved : UInt32
  /-- Length less one in the low bits, interrupt flag in the top bit. -/
  extent : UInt32
deriving DecidableEq, Repr, Inhabited

namespace ScatterEntry

def size : Nat := 16

/-- Lengths an entry can hold. -/
def extentRange : Nat := 0x400000

/-- Place of the interrupt flag in the extent. -/
def interruptPlace : Nat := 0x80000000

/-- Describes a number of bytes, at least one, at an address. -/
def make (base : PhysAddr) (bytes : Nat) (interrupt : Bool) : ScatterEntry :=
  { base := UInt64.ofNat base.toNat
    reserved := 0
    extent := UInt32.ofNat
      ((bytes - 1) % extentRange + if interrupt then interruptPlace else 0) }

def address (entry : ScatterEntry) : PhysAddr :=
  .ofNat entry.base.toNat

def bytes (entry : ScatterEntry) : Nat :=
  entry.extent.toNat % extentRange + 1

/-- Whether the adapter interrupts once the piece is done. -/
def interrupt (entry : ScatterEntry) : Bool :=
  interruptPlace ≤ entry.extent.toNat

def encode (entry : ScatterEntry) : List UInt8 :=
  littleEndian 8 entry.base.toNat ++ (littleEndian 4 entry.reserved.toNat ++
    littleEndian 4 entry.extent.toNat)

def decode (bytes : List UInt8) : ScatterEntry :=
  { base := UInt64.ofNat (field bytes 0 8)
    reserved := UInt32.ofNat (field bytes 8 4)
    extent := UInt32.ofNat (field bytes 12 4) }

@[simp] theorem length_encode (entry : ScatterEntry) : entry.encode.length = size := by
  simp [encode, size]

/-- An entry is read back from memory as it was stored. -/
theorem decode_encode (entry : ScatterEntry) : decode entry.encode = entry := by
  have hbase : field entry.encode 0 8 = entry.base.toNat := by
    rw [encode, field_littleEndian]
    exact Nat.mod_eq_of_lt entry.base.toNat_lt
  have hreserved : field entry.encode 8 4 = entry.reserved.toNat := by
    have hat := field_append (littleEndian 8 entry.base.toNat)
      (littleEndian 4 entry.reserved.toNat ++ littleEndian 4 entry.extent.toNat) 0 4
    rw [length_littleEndian] at hat
    rw [encode, hat, field_littleEndian]
    exact Nat.mod_eq_of_lt entry.reserved.toNat_lt
  have hextent : field entry.encode 12 4 = entry.extent.toNat := by
    have hat := field_append
      (littleEndian 8 entry.base.toNat ++ littleEndian 4 entry.reserved.toNat)
      (littleEndian 4 entry.extent.toNat) 0 4
    simp only [List.length_append, length_littleEndian, List.append_assoc] at hat
    rw [encode, hat, ← List.append_nil (littleEndian 4 entry.extent.toNat), field_littleEndian]
    exact Nat.mod_eq_of_lt entry.extent.toNat_lt
  simp [decode, hbase, hreserved, hextent]

theorem address_make (base : PhysAddr) (bytes : Nat) (interrupt : Bool) :
    (make base bytes interrupt).address = base := by
  rw [address, make, PhysAddr.toNat_word, PhysAddr.ofNat_toNat]

private theorem toNat_extent_make (base : PhysAddr) (bytes : Nat) (interrupt : Bool) :
    (make base bytes interrupt).extent.toNat =
      (bytes - 1) % extentRange + if interrupt then interruptPlace else 0 := by
  simp only [make, UInt32.toNat_ofNat']
  apply Nat.mod_eq_of_lt
  simp only [extentRange, interruptPlace]
  split <;> omega

/-- Every length an entry can hold is read back from it. -/
theorem bytes_make (base : PhysAddr) {bytes : Nat} (interrupt : Bool) (hpos : 0 < bytes)
    (hfits : bytes ≤ extentRange) : (make base bytes interrupt).bytes = bytes := by
  simp only [ScatterEntry.bytes, toNat_extent_make]
  simp only [extentRange, interruptPlace] at *
  split <;> omega

theorem interrupt_make (base : PhysAddr) (bytes : Nat) (interrupt : Bool) :
    (make base bytes interrupt).interrupt = interrupt := by
  simp only [ScatterEntry.interrupt, toNat_extent_make]
  simp only [extentRange, interruptPlace]
  cases interrupt
  · simp
    omega
  · simp

end ScatterEntry

/-- Why a transfer cannot be described by one command. -/
inductive ScatterError where
  /-- The transfer moves nothing. -/
  | empty
  /-- The transfer is not a whole number of words. -/
  | oddLength (bytes : Nat)
  /-- The transfer needs more entries than a command table has. -/
  | tooLarge (bytes : Nat)
deriving DecidableEq, Repr

namespace ScatterList

def pieceSize : Nat := 8192

/-- Entries that a command table has room for. -/
def capacity : Nat := 8

def maxBytes : Nat := pieceSize * capacity

/-- The piece of a buffer that begins `index` full pieces into it. -/
def piece (base : PhysAddr) (bytes : Nat) (interrupt : Bool) (index : Nat) : ScatterEntry :=
  .make (base + index * pieceSize) (min pieceSize (bytes - index * pieceSize)) interrupt

/-- Cuts a buffer into pieces, in order. -/
def build (base : PhysAddr) (bytes : Nat) (interrupt : Bool) :
    Except ScatterError (List ScatterEntry) :=
  if bytes = 0 then .error .empty
  else if bytes % 2 ≠ 0 then .error (.oddLength bytes)
  else if maxBytes < bytes then .error (.tooLarge bytes)
  else .ok ((List.range ((bytes + pieceSize - 1) / pieceSize)).map (piece base bytes interrupt))

def totalBytes : List ScatterEntry → Nat
  | [] => 0
  | entry :: rest => entry.bytes + totalBytes rest

theorem length_build {base : PhysAddr} {bytes : Nat} {interrupt : Bool}
    {entries : List ScatterEntry} (h : build base bytes interrupt = .ok entries) :
    entries.length = (bytes + pieceSize - 1) / pieceSize ∧ entries.length ≤ capacity := by
  unfold build at h
  split at h
  · cases h
  split at h
  · cases h
  split at h
  · cases h
  next hfits =>
    cases h
    simp only [List.length_map, List.length_range, maxBytes, pieceSize, capacity, true_and]
      at hfits ⊢
    omega

end ScatterList

namespace ScatterError

def name : ScatterError → String
  | empty => "Empty"
  | oddLength _ => "OddLength"
  | tooLarge _ => "TooLarge"

def message : ScatterError → String
  | empty => "zero-length transfer"
  | oddLength bytes => "odd transfer length " ++ toString bytes
  | tooLarge bytes =>
    toString bytes ++ " bytes exceeds " ++ toString ScatterList.maxBytes ++ "-byte command limit"

end ScatterError

end Ahci
