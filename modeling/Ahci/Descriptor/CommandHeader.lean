import Ahci.Address
import Ahci.Bytes

/-!
The header of one command slot: thirty-two bytes that point at the command table of the
slot, count its scatter entries and say in which direction data moves. The low five bits of
its first word are the length of the command frame, the others are flags.
-/

namespace Ahci

structure CommandHeader where
  /-- Length of the command frame in the low five bits, flags above. -/
  attributes : UInt16
  /-- Entries in the scatter list. -/
  entries : UInt16
  /-- Bytes moved, filled in by the adapter. -/
  transferred : UInt32
  /-- Both halves of the address of the command table. -/
  table : UInt64
  reserved : BitVec 128
deriving DecidableEq, Repr, Inhabited

namespace CommandHeader

def size : Nat := 32

/-- The bits that hold the length of the command frame. -/
def lengthMask : UInt16 := 0x1F

/-- The command table carries a packet command. -/
def packetFlag : UInt16 := 0x20

/-- Data moves from the host to the device. -/
def writeFlag : UInt16 := 0x40

/-- Length of a register frame in words of four bytes. -/
def frameLength : UInt16 := 5

/-- A header that points at a command table with a register frame. -/
def make (table : PhysAddr) (flags : UInt16) (entries : UInt16) : CommandHeader :=
  { attributes := (flags &&& ~~~lengthMask) ||| frameLength
    entries
    transferred := 0
    table := UInt64.ofNat table.toNat
    reserved := 0 }

/-- The attributes without the length of the command frame. -/
def flags (header : CommandHeader) : UInt16 :=
  header.attributes &&& ~~~lengthMask

/-- Length of the command frame in words of four bytes. -/
def frameWords (header : CommandHeader) : UInt16 :=
  header.attributes &&& lengthMask

def isPacket (header : CommandHeader) : Bool :=
  header.flags &&& packetFlag != 0

def isWrite (header : CommandHeader) : Bool :=
  header.flags &&& writeFlag != 0

def tableAddress (header : CommandHeader) : PhysAddr :=
  .ofNat header.table.toNat

/-- The thirty-two bytes of a header; the last sixteen are reserved. -/
def encode (header : CommandHeader) : List UInt8 :=
  littleEndian 2 header.attributes.toNat ++ (littleEndian 2 header.entries.toNat ++
    (littleEndian 4 header.transferred.toNat ++ (littleEndian 8 header.table.toNat ++
      littleEndian 16 header.reserved.toNat)))

def decode (bytes : List UInt8) : CommandHeader :=
  { attributes := UInt16.ofNat (field bytes 0 2)
    entries := UInt16.ofNat (field bytes 2 2)
    transferred := UInt32.ofNat (field bytes 4 4)
    table := UInt64.ofNat (field bytes 8 8)
    reserved := BitVec.ofNat 128 (field bytes 16 16) }

@[simp] theorem length_encode (header : CommandHeader) : header.encode.length = size := by
  simp [encode, size]

/-- A header is read back from memory as it was stored. -/
theorem decode_encode (header : CommandHeader) : decode header.encode = header := by
  have hattributes : field header.encode 0 2 = header.attributes.toNat := by
    rw [encode, field_littleEndian]
    exact Nat.mod_eq_of_lt header.attributes.toNat_lt
  have hentries : field header.encode 2 2 = header.entries.toNat := by
    have hat := field_append (littleEndian 2 header.attributes.toNat)
      (littleEndian 2 header.entries.toNat ++ (littleEndian 4 header.transferred.toNat ++
        (littleEndian 8 header.table.toNat ++ littleEndian 16 header.reserved.toNat))) 0 2
    rw [length_littleEndian] at hat
    rw [encode, hat, field_littleEndian]
    exact Nat.mod_eq_of_lt header.entries.toNat_lt
  have htransferred : field header.encode 4 4 = header.transferred.toNat := by
    have hat := field_append
      (littleEndian 2 header.attributes.toNat ++ littleEndian 2 header.entries.toNat)
      (littleEndian 4 header.transferred.toNat ++ (littleEndian 8 header.table.toNat ++
        littleEndian 16 header.reserved.toNat)) 0 4
    rw [List.length_append, length_littleEndian, length_littleEndian, List.append_assoc] at hat
    rw [encode, hat, field_littleEndian]
    exact Nat.mod_eq_of_lt header.transferred.toNat_lt
  have htable : field header.encode 8 8 = header.table.toNat := by
    have hat := field_append
      (littleEndian 2 header.attributes.toNat ++ (littleEndian 2 header.entries.toNat ++
        littleEndian 4 header.transferred.toNat))
      (littleEndian 8 header.table.toNat ++ littleEndian 16 header.reserved.toNat) 0 8
    simp only [List.length_append, length_littleEndian, List.append_assoc] at hat
    rw [encode, hat, field_littleEndian]
    exact Nat.mod_eq_of_lt header.table.toNat_lt
  have hreserved : field header.encode 16 16 = header.reserved.toNat := by
    have hat := field_append
      (littleEndian 2 header.attributes.toNat ++ (littleEndian 2 header.entries.toNat ++
        (littleEndian 4 header.transferred.toNat ++ littleEndian 8 header.table.toNat)))
      (littleEndian 16 header.reserved.toNat ++ []) 0 16
    simp only [List.length_append, length_littleEndian, List.append_assoc, List.append_nil] at hat
    rw [encode, hat, ← List.append_nil (littleEndian 16 header.reserved.toNat), field_littleEndian]
    exact Nat.mod_eq_of_lt header.reserved.isLt
  simp [decode, hattributes, hentries, htransferred, htable, hreserved]

/-- The table a header was made for is the one it points at. -/
theorem tableAddress_make (table : PhysAddr) (flags entries : UInt16) :
    (make table flags entries).tableAddress = table := by
  rw [tableAddress, make, PhysAddr.toNat_word, PhysAddr.ofNat_toNat]

end CommandHeader

end Ahci
