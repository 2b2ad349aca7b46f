/-!
Numbers as fixed-width byte strings. `littleEndian` and `bigEndian` write a number in a
given number of bytes, `ofLittleEndian` and `ofBigEndian` read one back, and the two
directions are inverse: reading gives the number modulo its width, and writing what was
read gives the same bytes. Every descriptor of the library is a concatenation of such
fields, so `field` reads one back by its position alone.
-/

namespace Ahci

/-- The numbers that fit into `width` bytes are the ones below this. -/
def byteRange (width : Nat) : Nat :=
  1 <<< (8 * width)

/-- The low `width` bytes of a number, least significant first. -/
def littleEndian : Nat → Nat → List UInt8
  | 0, _ => []
  | width + 1, n => UInt8.ofNat n :: littleEndian width (n / 256)

/-- The number whose bytes are given, least significant first. -/
def ofLittleEndian : List UInt8 → Nat
  | [] => 0
  | b :: bs => b.toNat + 256 * ofLittleEndian bs

/-- The low `width` bytes of a number, most significant first. -/
def bigEndian (width n : Nat) : List UInt8 :=
  (littleEndian width n).reverse

/-- The number whose bytes are given, most significant first. -/
def ofBigEndian (bytes : List UInt8) : Nat :=
  ofLittleEndian bytes.reverse

@[simp] theorem byteRange_zero : byteRange 0 = 1 := rfl

theorem byteRange_succ (width : Nat) : byteRange (width + 1) = 256 * byteRange width := by
  rw [byteRange, byteRange, Nat.mul_add, Nat.shiftLeft_add, Nat.shiftLeft_eq, Nat.mul_comm]

@[simp] theorem length_littleEndian (width n : Nat) : (littleEndian width n).length = width := by
  induction width generalizing n with
  | zero => rfl
  | succ width ih => simp [littleEndian, ih]

@[simp] theorem length_bigEndian (width n : Nat) : (bigEndian width n).length = width := by
  simp [bigEndian]

/-- Reading back what was written loses exactly what the width could not hold. -/
theorem ofLittleEndian_littleEndian (width n : Nat) :
    ofLittleEndian (littleEndian width n) = n % byteRange width := by
  induction width generalizing n with
  | zero => simp [littleEndian, ofLittleEndian, Nat.mod_one]
  | succ width ih =>
    have hlow : (UInt8.ofNat n).toNat = n % 256 := UInt8.toNat_ofNat'
    rw [littleEndian, ofLittleEndian, ih, hlow, byteRange_succ, Nat.mod_mul]

theorem ofLittleEndian_lt (bytes : List UInt8) : ofLittleEndian bytes < byteRange bytes.length := by
  induction bytes with
  | nil => simp [ofLittleEndian]
  | cons b bs ih =>
    have hb : b.toNat < 256 := b.toNat_lt
    simp only [ofLittleEndian, List.length_cons, byteRange_succ]
    omega

/-- Bytes are determined by the number they spell and their count. -/
theorem littleEndian_ofLittleEndian (bytes : List UInt8) :
    littleEndian bytes.length (ofLittleEndian bytes) = bytes := by
  induction bytes with
  | nil => rfl
  | cons b bs ih =>
    have hb : b.toNat < 256 := b.toNat_lt
    have hlow : UInt8.ofNat (b.toNat + 256 * ofLittleEndian bs) = b := by
      apply UInt8.toNat_inj.1
      rw [UInt8.toNat_ofNat']
      omega
    have hhigh : (b.toNat + 256 * ofLittleEndian bs) / 256 = ofLittleEndian bs := by omega
    simp only [List.length_cons, ofLittleEndian, littleEndian, hlow, hhigh, ih]

theorem ofBigEndian_bigEndian (width n : Nat) :
    ofBigEndian (bigEndian width n) = n % byteRange width := by
  simp [ofBigEndian, bigEndian, ofLittleEndian_littleEndian]

/-- The little-endian number held by `width` bytes at an offset of a byte string. -/
def field (bytes : List UInt8) (offset width : Nat) : Nat :=
  ofLittleEndian ((bytes.drop offset).take width)

/-- A field that starts where a known byte string ends is read from what follows it. -/
theorem field_append (front back : List UInt8) (offset width : Nat) :
    field (front ++ back) (front.length + offset) width = field back offset width := by
  simp [field]

/-- A written number is read back as the field it occupies. -/
theorem field_littleEndian (width n : Nat) (back : List UInt8) :
    field (littleEndian width n ++ back) 0 width = n % byteRange width := by
  simp [field, ofLittleEndian_littleEndian]

end Ahci
