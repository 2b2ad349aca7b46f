/-!
Byte strings by rule, and the short form in which a long one is reported.
-/

namespace Ahci.Bench

/-- A rule that gives every place a byte. -/
structure Pattern where
  factor : Nat
  unitFactor : Nat
  offset : Nat
  /-- Bytes after which the second factor counts once more. -/
  unit : Nat
deriving DecidableEq, Repr

namespace Pattern

def byteAt (pattern : Pattern) (place : Nat) : UInt8 :=
  UInt8.ofNat (place * pattern.factor + place / pattern.unit * pattern.unitFactor + pattern.offset)

def bytes (pattern : Pattern) (count : Nat) : List UInt8 :=
  (List.range count).map pattern.byteAt

end Pattern

/-- The 64-bit FNV-1a hash of some bytes. -/
def fnv (bytes : List UInt8) : UInt64 :=
  bytes.foldl (fun hash b => (hash ^^^ b.toUInt64) * 0x100000001b3) 0xcbf29ce484222325

/-- The short form of a byte string. -/
structure Digest where
  length : Nat
  hash : UInt64
  head : List UInt8
deriving DecidableEq, Repr

def Digest.ofBytes (bytes : List UInt8) : Digest :=
  ⟨bytes.length, fnv bytes, bytes.take 16⟩

end Ahci.Bench
