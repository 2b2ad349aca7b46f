import Ahci.Bytes

/-!
The register frame that a host sends to a device: twenty bytes that carry a command code,
its features, a 48-bit block address, a count and the device register. The wide fields are
split over bytes that are not neighbours; `encode` lays them out and `decode` puts them
together again.
-/

namespace Ahci

/-- A register frame from host to device. -/
structure HostFis where
  kind : UInt8 := 0
  /-- Port of a multiplier, and in the top bit whether the frame carries a command. -/
  control : UInt8 := 0
  opcode : UInt8 := 0
  features : UInt16 := 0
  lba : BitVec 48 := 0
  device : UInt8 := 0
  count : UInt16 := 0
  /-- Isochronous command completion. -/
  completion : UInt8 := 0
  deviceControl : UInt8 := 0
  reserved : UInt32 := 0
deriving DecidableEq, Repr, Inhabited

namespace HostFis

def size : Nat := 20

/-- Kind of a register frame from host to device. -/
def registerKind : UInt8 := 0x27

/-- The frame carries a command. -/
def carriesCommand : UInt8 := 0x80

/-- Device register that selects addressing by block. -/
def blockAddressing : UInt8 := 0x40

def zeroed : HostFis := {}

def command (opcode : UInt8) : HostFis :=
  { kind := registerKind, control := carriesCommand, opcode }

/-- Addresses a block by the low 48 bits of a number. -/
def withLba (fis : HostFis) (lba : Nat) : HostFis :=
  { fis with lba := BitVec.ofNat 48 lba, device := blockAddressing }

def withCount (fis : HostFis) (count : UInt16) : HostFis :=
  { fis with count }

def withFeatures (fis : HostFis) (features : UInt16) : HostFis :=
  { fis with features }

/-- Byte `index` of a number, the lowest being byte zero. -/
private def byteOf (n index : Nat) : UInt8 :=
  UInt8.ofNat (n >>> (8 * index))

/-- The twenty bytes of a frame, its reserved ones included. Address, count and features are split
over bytes apart from each other. -/
def encode (fis : HostFis) : List UInt8 :=
  let lba := fis.lba.toNat
  let features := fis.features.toNat
  [fis.kind, fis.control, fis.opcode, byteOf features 0,
    byteOf lba 0, byteOf lba 1, byteOf lba 2, fis.device,
    byteOf lba 3, byteOf lba 4, byteOf lba 5, byteOf features 1,
    byteOf fis.count.toNat 0, byteOf fis.count.toNat 1, fis.completion, fis.deviceControl]
    ++ littleEndian 4 fis.reserved.toNat

/-- The frame as the wire carries it: its reserved bytes are zero. -/
def wire (fis : HostFis) : List UInt8 :=
  encode { fis with reserved := 0 }

/-- The frame that twenty bytes spell. -/
def decode (bytes : List UInt8) : HostFis :=
  let at_ (i : Nat) : UInt8 := bytes.getD i 0
  { kind := at_ 0
    control := at_ 1
    opcode := at_ 2
    features := UInt16.ofNat (ofLittleEndian [at_ 3, at_ 11])
    lba := BitVec.ofNat 48 (ofLittleEndian [at_ 4, at_ 5, at_ 6, at_ 8, at_ 9, at_ 10])
    device := at_ 7
    count := UInt16.ofNat (ofLittleEndian [at_ 12, at_ 13])
    completion := at_ 14
    deviceControl := at_ 15
    reserved := UInt32.ofNat (field bytes 16 4) }

/-- The frame that the wire carries. -/
def ofWire (bytes : List UInt8) : HostFis :=
  { decode bytes with reserved := 0 }

@[simp] theorem length_encode (fis : HostFis) : fis.encode.length = size := by
  simp [encode, size]

private theorem toNat_byteOf (n index : Nat) :
    (byteOf n index).toNat = n >>> (8 * index) % 256 := by
  simp [byteOf]

theorem decode_encode (fis : HostFis) : decode fis.encode = fis := by
  have hreserved : field fis.encode 16 4 = fis.reserved.toNat := by
    have hwhole : (littleEndian 4 fis.reserved.toNat).take 4 = littleEndian 4 fis.reserved.toNat :=
      List.take_of_length_le (by simp)
    have hdropped : fis.encode.drop 16 = littleEndian 4 fis.reserved.toNat := by simp [encode]
    rw [field, hdropped, hwhole, ofLittleEndian_littleEndian]
    exact Nat.mod_eq_of_lt fis.reserved.toNat_lt
  have hfeatures : fis.features.toNat < 65536 := fis.features.toNat_lt
  have hcount : fis.count.toNat < 65536 := fis.count.toNat_lt
  have hlba : fis.lba.toNat < 0x1000000000000 := fis.lba.isLt
  rw [decode, hreserved]
  cases fis with
  | mk kind control opcode features_ lba_ device count_ completion deviceControl reserved_ =>
    simp only at hfeatures hcount hlba
    simp only [encode, mk.injEq, List.cons_append, List.nil_append, List.getD_cons_succ,
      List.getD_cons_zero, ofLittleEndian, toNat_byteOf, true_and]
    refine ⟨?_, ?_, ?_, ?_⟩
    · apply UInt16.toNat_inj.1
      rw [UInt16.toNat_ofNat']
      omega
    · apply BitVec.eq_of_toNat_eq
      rw [BitVec.toNat_ofNat]
      omega
    · apply UInt16.toNat_inj.1
      rw [UInt16.toNat_ofNat']
      omega
    · simp

/-- The bytes of a number are its bytes one by one. -/
private theorem littleEndian_eq_map (width n : Nat) :
    littleEndian width n = (List.range width).map (byteOf n) := by
  induction width generalizing n with
  | zero => rfl
  | succ width ih =>
    have hshifted (index : Nat) : byteOf (n / 256) index = byteOf n (index + 1) := by
      rw [byteOf, byteOf, Nat.mul_succ, Nat.add_comm, Nat.shiftRight_add,
        Nat.shiftRight_eq_div_pow n]
    rw [littleEndian, ih, List.range_succ_eq_map, List.map_cons, List.map_map]
    exact congrArg (byteOf n 0 :: ·) (List.map_congr_left fun index _ => hshifted index)

/-- Bytes are found again in the number that they spell. -/
private theorem map_byteOf (bytes : List UInt8) :
    (List.range bytes.length).map (byteOf (ofLittleEndian bytes)) = bytes := by
  rw [← littleEndian_eq_map, littleEndian_ofLittleEndian]

/-- What was read from the bytes of a frame is laid out as these bytes. -/
theorem encode_decode {bytes : List UInt8} (hwhole : bytes.length = size) :
    (decode bytes).encode = bytes := by
  match bytes, hwhole with
  | [kind, control, opcode, features0, lba0, lba1, lba2, device, lba3, lba4, lba5, features1,
      count0, count1, completion, deviceControl, r0, r1, r2, r3], _ =>
    have hlba : (BitVec.ofNat 48 (ofLittleEndian [lba0, lba1, lba2, lba3, lba4, lba5])).toNat =
        ofLittleEndian [lba0, lba1, lba2, lba3, lba4, lba5] :=
      Nat.mod_eq_of_lt (ofLittleEndian_lt _)
    have hshort (low high : UInt8) : (UInt16.ofNat (ofLittleEndian [low, high])).toNat =
        ofLittleEndian [low, high] := Nat.mod_eq_of_lt (ofLittleEndian_lt _)
    have hreserved : (UInt32.ofNat (ofLittleEndian [r0, r1, r2, r3])).toNat =
        ofLittleEndian [r0, r1, r2, r3] := Nat.mod_eq_of_lt (ofLittleEndian_lt _)
    have haddress := map_byteOf [lba0, lba1, lba2, lba3, lba4, lba5]
    have hpair (low high : UInt8) := map_byteOf [low, high]
    have hrest := littleEndian_ofLittleEndian [r0, r1, r2, r3]
    simp only [List.length_cons, List.length_nil, Nat.zero_add, Nat.reduceAdd, List.range_succ,
      List.range_zero, List.map_nil, List.nil_append, List.map_cons,
      List.cons_append, List.cons.injEq, and_true] at haddress hpair hrest
    simp only [decode, encode, field, List.getD_cons_succ, List.getD_cons_zero, hlba, hshort,
      List.drop_succ_cons, List.drop_zero, List.take_succ_cons, List.take_nil, hreserved, haddress,
      hpair, hrest, List.cons_append, List.nil_append]

/-- The frame that is read from the wire is the frame that went onto it. -/
theorem ofWire_wire (fis : HostFis) : ofWire fis.wire = { fis with reserved := 0 } := by
  rw [ofWire, wire, decode_encode]

/-- The wire carries the first sixteen bytes of a frame. -/
theorem wire_eq (fis : HostFis) : fis.wire = fis.encode.take 16 ++ List.replicate 4 0 := by
  have hzeroes : littleEndian 4 0 = List.replicate 4 0 := by decide
  simp [wire, encode, hzeroes]

theorem wire_ofWire {bytes : List UInt8} (hwhole : bytes.length = size) :
    (ofWire bytes).wire = bytes.take 16 ++ List.replicate 4 0 := by
  have hsame : (ofWire bytes).wire = (decode bytes).wire := rfl
  rw [hsame, wire_eq, encode_decode hwhole]

end HostFis

end Ahci
