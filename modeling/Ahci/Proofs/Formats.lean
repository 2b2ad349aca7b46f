import Ahci.Proofs.Discarding

/-!
The formats of what driver and device tell each other. A frame shows the values that its fields
were last set to and is found again on the wire, and so are the header of a slot, an entry of a
scatter list, the packet command of a read, and the range of sectors of a discard: of each, what is
read back is what it was made of, as far as its fields are wide enough to hold it.
-/

namespace Ahci

/-! Frames. -/

namespace HostFis

/-- A field of a frame that is set to a value. The other fields have no setter. -/
inductive Setting where
  | lba (value : UInt64)
  | count (value : UInt16)
  | features (value : UInt16)

namespace Setting

/-- The frame after a setting. -/
def apply : Setting → HostFis → HostFis
  | lba value, fis => fis.withLba value.toNat
  | count value, fis => fis.withCount value
  | features value, fis => fis.withFeatures value

/-- The address that a setting is for, if it is for that. -/
def lba? : Setting → Option UInt64
  | lba value => some value
  | _ => none

/-- The count that a setting is for, if it is for that. -/
def count? : Setting → Option UInt16
  | count value => some value
  | _ => none

/-- The features that a setting is for, if it is for them. -/
def features? : Setting → Option UInt16
  | features value => some value
  | _ => none

end Setting

/-- A frame whose fields were not set: one that carries a command, or an empty one that none was put
into. -/
def blank (opcode? : Option UInt8) : HostFis :=
  match opcode? with
  | some opcode => command opcode
  | none => zeroed

/-- A frame whose fields were set one after another, in any order and any number of times. The last
setting is first in the list. -/
def filled (opcode? : Option UInt8) (settings : List Setting) : HostFis :=
  settings.foldr Setting.apply (blank opcode?)

/-- By induction over the settings. The frame has in its fields the last values that they were set
to. A setting of the address also sets the device register. -/
theorem filled_eq (opcode? : Option UInt8) (settings : List Setting) :
    filled opcode? settings =
      { blank opcode? with
        lba := BitVec.ofNat 48 ((settings.findSome? Setting.lba?).getD 0).toNat
        count := (settings.findSome? Setting.count?).getD 0
        features := (settings.findSome? Setting.features?).getD 0
        device := if (settings.findSome? Setting.lba?).isSome then blockAddressing else 0 } := by
  induction settings with
  | nil => cases opcode? <;> rfl
  | cons setting settings ih =>
    have hbehind : filled opcode? (setting :: settings) = setting.apply (filled opcode? settings) :=
      rfl
    rw [hbehind, ih]
    cases setting <;> rfl

/-- What the twenty bytes of a frame show whose fields were set: of each field the last value, or
zero. All of it is read back from the bytes, where the address, the count and the features are
split into single bytes that are not all neighbours. -/
structure Shows (opcode? : Option UInt8) (settings : List Setting) (bytes : List UInt8) : Prop where
  length : bytes.length = 20
  lba : (ofWire bytes).lba.toNat =
    ((settings.findSome? Setting.lba?).getD 0).toNat % 0x1000000000000
  count : (ofWire bytes).count = (settings.findSome? Setting.count?).getD 0
  features : (ofWire bytes).features = (settings.findSome? Setting.features?).getD 0
  opcode : (ofWire bytes).opcode = opcode?.getD 0
  device : (ofWire bytes).device = if (settings.findSome? Setting.lba?).isSome then 0x40 else 0
  /-- No setting reaches another field. -/
  others : (ofWire bytes).kind = (blank opcode?).kind ∧
    (ofWire bytes).control = (blank opcode?).control ∧ (ofWire bytes).completion = 0 ∧
    (ofWire bytes).deviceControl = 0 ∧ (ofWire bytes).reserved = 0
  found : ofWire bytes = filled opcode? settings

theorem shows_wire (opcode? : Option UInt8) (settings : List Setting) :
    Shows opcode? settings (filled opcode? settings).wire := by
  have hreserved : (filled opcode? settings).reserved = 0 := by
    rw [filled_eq]
    cases opcode? <;> rfl
  have hfound : ofWire (filled opcode? settings).wire = filled opcode? settings := by
    rw [ofWire_wire, ← hreserved]
  refine ⟨length_encode _, ?_, ?_, ?_, ?_, ?_, ?_, hfound⟩
  all_goals rw [hfound, filled_eq]
  · exact BitVec.toNat_ofNat _ 48
  · cases opcode? <;> rfl
  · rfl
  · cases opcode? <;> exact ⟨rfl, rfl, rfl, rfl, rfl⟩

end HostFis

/-! Headers. -/

namespace CommandHeader

/-- The mask for flags clears the low five bits, which are for the length of the frame. -/
theorem toNat_flags_mask (flags : UInt16) :
    (flags &&& ~~~lengthMask).toNat = flags.toNat / 32 * 32 := by
  have hmask : 65504 = (2 ^ 11 - 1) <<< 5 := by decide
  have hbound := flags.toNat_lt
  have hcleared : flags.toNat &&& 65504 = (flags.toNat >>> 5 % 2 ^ 11) <<< 5 := by
    apply Nat.eq_of_testBit_eq
    intro i
    rw [← Nat.and_two_pow_sub_one_eq_mod, hmask, Nat.testBit_and, Nat.testBit_shiftLeft,
      Nat.testBit_shiftLeft, Nat.testBit_and, Nat.testBit_shiftRight]
    by_cases hhigh : 5 ≤ i
    · simp [hhigh, Nat.add_sub_of_le hhigh]
    · simp [hhigh]
  have hraw : (flags &&& ~~~lengthMask).toNat = flags.toNat &&& 65504 := UInt16.toNat_and ..
  rw [hraw, hcleared, Nat.shiftLeft_eq, Nat.shiftRight_eq_div_pow, Nat.mod_eq_of_lt (by omega)]

/-- The length of the frame, five words, has room in the bits that are cleared. -/
theorem toNat_attributes_make (table : PhysAddr) (flags entries : UInt16) :
    (make table flags entries).attributes.toNat = flags.toNat / 32 * 32 + 5 := by
  have hraw : (make table flags entries).attributes.toNat =
      (flags &&& ~~~lengthMask).toNat ||| 5 := UInt16.toNat_or ..
  have hlow : 5 < 2 ^ 5 := by decide
  have hbeside := Nat.shiftLeft_add_eq_or_of_lt hlow (flags.toNat / 32)
  rw [Nat.shiftLeft_eq] at hbeside
  rw [hraw, toNat_flags_mask, ← hbeside]

/-- What is read back of a header of thirty-two bytes. Of the flags the low five bits are not kept,
since the length of the frame stands there. -/
structure Shows (table : PhysAddr) (flags entries : UInt16) (bytes : List UInt8) : Prop where
  length : bytes.length = 32
  table : (decode bytes).tableAddress = table
  entries : (decode bytes).entries = entries
  frameWords : (decode bytes).frameWords = 5
  flags : (decode bytes).flags.toNat = flags.toNat / 32 * 32

/-- A header shows what it was made of, for all flags, counts of entries and addresses of a
table. -/
theorem shows_make (table : PhysAddr) (flags entries : UInt16) :
    Shows table flags entries (make table flags entries).encode := by
  have hattributes := toNat_attributes_make table flags entries
  constructor
  · exact length_encode _
  · rw [decode_encode, tableAddress_make]
  · rw [decode_encode, make]
  · rw [decode_encode]
    apply UInt16.toNat_inj.1
    have hraw : (make table flags entries).frameWords.toNat =
        (make table flags entries).attributes.toNat &&& (2 ^ 5 - 1) := UInt16.toNat_and ..
    have hfive : (5 : UInt16).toNat = 5 := rfl
    rw [hraw, Nat.and_two_pow_sub_one_eq_mod, hattributes, hfive]
    omega
  · rw [decode_encode, CommandHeader.flags, toNat_flags_mask, hattributes]
    omega

end CommandHeader

/-! Scatter entries. -/

namespace ScatterEntry

/-- What is read back of an entry of sixteen bytes. -/
structure Shows (base : PhysAddr) (count : Nat) (interrupt : Bool) (bytes : List UInt8) :
    Prop where
  length : bytes.length = 16
  base : (decode bytes).address = base
  count : (decode bytes).bytes = count
  interrupt : (decode bytes).interrupt = interrupt

/-- An entry shows what it was made of, if it has at least one byte and at most as many as an entry
can tell. -/
theorem shows_make (base : PhysAddr) {count : Nat} (interrupt : Bool) (hpos : 0 < count)
    (hfits : count ≤ extentRange) :
    Shows base count interrupt (make base count interrupt).encode := by
  constructor
  · exact length_encode _
  · rw [decode_encode, address_make]
  · rw [decode_encode, bytes_make base interrupt hpos hfits]
  · rw [decode_encode, interrupt_make]

end ScatterEntry

/-! Reads of blocks. -/

namespace Cdb

/-- What is read back of the packet command of a read, which leaves its other bytes zero. Address
and number of blocks stand in it with the high byte first. -/
structure ShowsRead (lba blocks : UInt32) (bytes : List UInt8) : Prop where
  length : bytes.length = 16
  lba : (ofBytes bytes).readLba = lba.toNat
  blocks : (ofBytes bytes).readBlocks = blocks.toNat
  code : bytes[0]? = some 0xA8
  others : ∀ index < 16, index = 1 ∨ 10 ≤ index → bytes[index]? = some 0

/-- The packet command of a read shows what it was made of, for all addresses and numbers of blocks
of thirty-two bits. -/
theorem shows_read (lba blocks : UInt32) : ShowsRead lba blocks (read lba blocks).encode := by
  obtain ⟨hfirst, hcount⟩ := blocks_read lba blocks
  have hlaid : (read lba blocks).encode =
      ([readCode, 0] ++ bigEndian 4 lba.toNat ++ bigEndian 4 blocks.toNat) ++
        List.replicate 6 0 := by
    have hshort : ([readCode, 0] ++ bigEndian 4 lba.toNat ++ bigEndian 4 blocks.toNat).length =
        10 := by simp
    rw [read, encode_ofBytes_of_le (by simp), hshort]
  constructor
  · exact length_encode _
  · rw [ofBytes_encode, hfirst]
  · rw [ofBytes_encode, hcount]
  · rw [hlaid]
    rfl
  · rintro index hbound (rfl | hbehind)
    · rw [hlaid]
      rfl
    · rw [hlaid, List.getElem?_append_right (by simpa using hbehind), List.getElem?_replicate,
        if_pos (by simp; omega)]

end Cdb

/-! Ranges to discard. -/

namespace DiscardRange

/-- What a device reads of a range, by itself and in a block that holds nothing else. Of the address
forty-eight bits are kept, and a range without sectors is passed over. -/
structure Shows (lba : UInt64) (count : UInt16) (bytes : List UInt8) : Prop where
  length : bytes.length = 8
  range : decode bytes = ⟨lba.toNat % 0x1000000000000, count.toNat⟩
  told : Drive.rangesIn (bytes ++ List.replicate 504 0) =
    if count = 0 then [] else [⟨lba.toNat % 0x1000000000000, count.toNat⟩]

/-- A range shows what it was made of, as far as its address goes, for all addresses of sixty-four
bits. -/
theorem shows_encode (lba : UInt64) (count : UInt16) :
    Shows lba count (encode ⟨lba.toNat, count.toNat⟩) := by
  have hlength : (encode ⟨lba.toNat, count.toNat⟩).length = 8 := by simp [encode]
  have hrange : decode (encode ⟨lba.toNat, count.toNat⟩) =
      ⟨lba.toNat % 0x1000000000000, count.toNat⟩ := by
    have hnarrow : count.toNat % byteRange 2 = count.toNat := Nat.mod_eq_of_lt count.toNat_lt
    rw [decode_encode, hnarrow]
    rfl
  refine ⟨hlength, hrange, ?_⟩
  have hpadded := Drive.rangesIn_padded ⟨lba.toNat, count.toNat⟩
  rw [hlength, hrange] at hpadded
  refine hpadded.trans ?_
  split
  · next hnone =>
    subst hnone
    rfl
  · next hsome =>
    have hcounted : count.toNat ≠ 0 := fun hzero => hsome (UInt16.toNat_inj.1 hzero)
    exact List.filter_cons_of_pos (bne_iff_ne.2 hcounted)

end DiscardRange

/-- Every format is read back from its bytes, over all values that can be laid out in it. A frame
shows the last values that its fields were set to after any settings, and any twenty bytes are laid
out again as they were but for the last four, which are reserved; so nothing is lost or mixed up on
the way. A header, an entry of a scatter list of one to 2^22 bytes, a read of blocks, and a range to
discard show what they were made of. Where a field is too narrow, it is said what is kept:
forty-eight bits of an address, and the flags without the bits for the length. -/
theorem formats_read_back :
    (∀ opcode? settings,
        HostFis.Shows opcode? settings (HostFis.filled opcode? settings).wire) ∧
      (∀ bytes : Vector UInt8 20, (HostFis.ofWire bytes.toList).wire =
        bytes.toList.take 16 ++ List.replicate 4 0) ∧
      (∀ table flags entries, CommandHeader.Shows table flags entries
        (CommandHeader.make table flags entries).encode) ∧
      (∀ base count interrupt, 0 < count → count ≤ 0x400000 →
        ScatterEntry.Shows base count interrupt (ScatterEntry.make base count interrupt).encode) ∧
      (∀ lba blocks, Cdb.ShowsRead lba blocks (Cdb.read lba blocks).encode) ∧
      ∀ (lba : UInt64) (count : UInt16), DiscardRange.Shows lba count
        (DiscardRange.encode ⟨lba.toNat, count.toNat⟩) := by
  refine ⟨HostFis.shows_wire, ?_, CommandHeader.shows_make, ?_, Cdb.shows_read,
    DiscardRange.shows_encode⟩
  · exact fun bytes => HostFis.wire_ofWire bytes.length_toList
  · exact fun base count interrupt hpos hfits => ScatterEntry.shows_make base interrupt hpos hfits

/-- The bounds on an entry are met by the longest one, at the last address that there is room
for. -/
theorem formats_read_back_of_longest_entry : 0 < 0x400000 ∧
    ScatterEntry.Shows (.ofNat 0xFFFFFFFC00000) 0x400000 true
      (ScatterEntry.make (.ofNat 0xFFFFFFFC00000) 0x400000 true).encode :=
  ⟨by decide, formats_read_back.2.2.2.1 _ _ _ (by decide) (by decide)⟩

end Ahci
