import Ahci.Bytes

/-!
Packet commands: sixteen bytes whose first is an operation code. Numbers in them are
written most significant byte first.
-/

namespace Ahci

structure Cdb where
  bytes : Vector UInt8 16
deriving DecidableEq, Repr

namespace Cdb

/-! Operation codes. -/

def requestSenseCode : UInt8 := 0x03
def inquiryCode : UInt8 := 0x12
def startStopCode : UInt8 := 0x1B
def preventAllowCode : UInt8 := 0x1E
def readCode : UInt8 := 0xA8

def size : Nat := 16

/-- The packet command of the first sixteen of some bytes, filled up with zeroes. -/
def ofBytes (bytes : List UInt8) : Cdb :=
  ⟨Vector.ofFn fun i => bytes.getD i.val 0⟩

def encode (cdb : Cdb) : List UInt8 :=
  cdb.bytes.toList

def byte (cdb : Cdb) (index : Nat) (h : index < 16 := by decide) : UInt8 :=
  cdb.bytes[index]

def opcode (cdb : Cdb) : UInt8 :=
  cdb.byte 0

/-- Asks who the device is, for an answer of a given length. -/
def inquiry (length : UInt8) : Cdb :=
  ofBytes [inquiryCode, 0, 0, 0, length]

/-- Asks why the last command failed, for an answer of a given length. -/
def requestSense (length : UInt8) : Cdb :=
  ofBytes [requestSenseCode, 0, 0, 0, length]

/-- Reads a number of blocks from one on, both of them spelled in thirty-two bits. -/
def read (lba blocks : UInt32) : Cdb :=
  ofBytes ([readCode, 0] ++ bigEndian 4 lba.toNat ++ bigEndian 4 blocks.toNat)

private def bit (flag : Bool) : UInt8 :=
  if flag then 1 else 0

def startStop (immediate loadEject start : Bool) : Cdb :=
  ofBytes [startStopCode, bit immediate, 0, 0, 2 * bit loadEject + bit start]

def preventAllow (prevent : Bool) : Cdb :=
  ofBytes [preventAllowCode, 0, 0, 0, bit prevent]

/-- Block address of a read. -/
def readLba (cdb : Cdb) : Nat :=
  ofBigEndian ((cdb.encode.drop 2).take 4)

/-- Number of blocks of a read. -/
def readBlocks (cdb : Cdb) : Nat :=
  ofBigEndian ((cdb.encode.drop 6).take 4)

@[simp] theorem length_encode (cdb : Cdb) : cdb.encode.length = size := by
  simp [encode, size]

/-- A command is read back from memory as it was stored. -/
theorem ofBytes_encode (cdb : Cdb) : ofBytes cdb.encode = cdb := by
  cases cdb with
  | mk bytes =>
    simp only [ofBytes, encode, mk.injEq]
    apply Vector.ext
    intro i hi
    simp

/-- The bytes of a command are the ones it was made of. -/
theorem encode_ofBytes {bytes : List UInt8} (h : bytes.length = 16) :
    (ofBytes bytes).encode = bytes := by
  apply List.ext_getElem (by simp [h, size])
  intro i _ hi
  simp [ofBytes, encode, hi]

end Cdb

end Ahci
