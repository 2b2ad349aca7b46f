import Ahci.Proofs.DeviceKnowledge
import Ahci.Proofs.TextFields

/-!
How large a device is said to be. An amount of bytes is told in the largest unit that it fills, and
dividing by 1024 step by step finds the same value as dividing once. The blocks of a disk, what it
says of discarding, and the capacity in its label are those that the words of its page spell, and a
disk whose page is not read has no blocks and discards nothing.
-/

namespace Ahci

/-! Units. -/

namespace Capacity

/-- A capacity that is an amount divided by a power of 1024, in the unit at the place of this power.
The power is as large as the amount and the list of units allow. -/
structure Divides (capacity : Capacity) (amount power : Nat) (units : List String) : Prop where
  unit : units[power]? = some capacity.unit
  value : capacity.value = amount / 1024 ^ power
  reached : power = 0 ∨ 1024 ^ power ≤ amount
  stopped : power + 1 = units.length ∨ capacity.value < 1024

/-- By induction over the larger units. What is dropped by dividing step by step is dropped by a
single division as well, so the value is the quotient by a power. -/
theorem exists_divides_scale (amount : Nat) (unit : String) (larger : List String) :
    ∃ power, (scale amount unit larger).Divides amount power (unit :: larger) := by
  induction larger generalizing amount unit with
  | nil => exact ⟨0, rfl, (Nat.div_one amount).symm, .inl rfl, .inl rfl⟩
  | cons next larger ih =>
    rw [scale]
    split
    · next hlarge =>
      obtain ⟨power, hdivides⟩ := ih (amount / 1024) next
      refine ⟨power + 1, hdivides.unit, ?_, .inr ?_, hdivides.stopped.imp (congrArg (· + 1)) id⟩
      · rw [hdivides.value, Nat.div_div_eq_div_mul, Nat.pow_succ']
      · rcases hdivides.reached with rfl | hreached
        · exact hlarge
        · exact (Nat.le_div_iff_mul_le (by decide)).1 hreached
    · next hsmall =>
      exact ⟨0, rfl, (Nat.div_one amount).symm, .inl rfl, .inr (Nat.lt_of_not_le hsmall)⟩

namespace Divides

variable {capacity : Capacity} {amount power : Nat} {units : List String}

theorem power_lt (hdivides : capacity.Divides amount power units) : power < units.length :=
  (List.getElem?_eq_some_iff.1 hdivides.unit).1

/-- The amount lies between the value that is told and the next one, in the unit of the value. -/
theorem bounds (hdivides : capacity.Divides amount power units) :
    capacity.value * 1024 ^ power ≤ amount ∧ amount < (capacity.value + 1) * 1024 ^ power := by
  have hpos : 0 < 1024 ^ power := Nat.pow_pos (by decide)
  rw [hdivides.value]
  exact ⟨Nat.div_mul_le_self amount _, Nat.lt_mul_of_div_lt (Nat.lt_succ_self _) hpos⟩

theorem one_le_value (hdivides : capacity.Divides amount power units) (hpos : 1 ≤ amount) :
    1 ≤ capacity.value := by
  have hreached : 1024 ^ power ≤ amount := by
    rcases hdivides.reached with rfl | hreached
    · exact hpos
    · exact hreached
  rw [hdivides.value]
  exact Nat.div_pos hreached (Nat.pow_pos (by decide))

/-- No unit that the amount fills is larger than the one that was chosen. The smallest unit may
always be chosen, as if one byte were there. -/
theorem le_power (hdivides : capacity.Divides amount power units) {other : Nat}
    (hnamed : other < units.length) (hfilled : 1024 ^ other ≤ max amount 1) : other ≤ power := by
  by_contra hlarger
  have hfurther : 1024 ^ (power + 1) ≤ 1024 ^ other :=
    Nat.pow_le_pow_right (by decide) (Nat.lt_of_not_le hlarger)
  have hstep : 1024 ^ (power + 1) = 1024 ^ power * 1024 := Nat.pow_succ 1024 power
  have hpos : 0 < 1024 ^ power := Nat.pow_pos (by decide)
  rcases hdivides.stopped with hlast | hsmall
  · omega
  · rw [hdivides.value, Nat.div_lt_iff_lt_mul hpos, Nat.mul_comm] at hsmall
    omega

end Divides

/-- A number of bytes is told in the largest of six units that it fills, or in bytes if it fills
none. The value is the number of bytes divided by this unit and rounded down, so that it is less
than one unit away from the truth; it is below 1024 in every unit but the largest, and not zero
unless the number of bytes is. The text is the value, a blank and the unit. It holds for every
natural number, so beyond sixty-four bits too. -/
theorem ofBytes_fills_largest_unit (bytes : Nat) :
    let told := ofBytes bytes
    ∃ power ≤ 5,
      (1024 ^ power ≤ max bytes 1 ∧ ∀ other ≤ 5, 1024 ^ other ≤ max bytes 1 → other ≤ power) ∧
      told.value = bytes / 1024 ^ power ∧
      ["B", "KB", "MB", "GB", "TB", "PB"][power]? = some told.unit ∧
      told.describe = toString told.value ++ " " ++ told.unit ∧
      (power < 5 → told.value < 1024) ∧ (1 ≤ bytes → 1 ≤ told.value) ∧
      told.value * 1024 ^ power ≤ bytes ∧ bytes < (told.value + 1) * 1024 ^ power := by
  intro told
  obtain ⟨power, hdivides⟩ := exists_divides_scale bytes "B" largerUnits
  have hfew : power < 6 := hdivides.power_lt
  refine ⟨power, Nat.le_of_lt_succ hfew, ⟨?_, ?_⟩, hdivides.value, hdivides.unit, rfl, ?_,
    hdivides.one_le_value, hdivides.bounds⟩
  · rcases hdivides.reached with rfl | hreached
    · exact Nat.le_max_right bytes 1
    · exact Nat.le_trans hreached (Nat.le_max_left bytes 1)
  · intro other hwithin hfilled
    exact hdivides.le_power (Nat.lt_succ_of_le hwithin) hfilled
  · intro hsmaller
    refine hdivides.stopped.resolve_left ?_
    change power + 1 ≠ 6
    omega

/-- A disk that fills 465 of the fourth unit and none of the fifth. -/
theorem ofBytes_fills_largest_unit_of_gigabytes :
    (ofBytes 500107862016).describe = "465 GB" ∧ (ofBytes 500107862016).value < 1024 := by
  obtain ⟨power, hwithin, ⟨hfilled, hlargest⟩, hvalue, hunit, hdescribed, hbelow, _⟩ :=
    ofBytes_fills_largest_unit 500107862016
  have hleast : 3 ≤ power := hlargest 3 (by decide) (by decide)
  have hmost : power < 4 := by
    by_contra hmore
    have hfurther : 1024 ^ 4 ≤ 1024 ^ power :=
      Nat.pow_le_pow_right (by decide) (Nat.le_of_not_lt hmore)
    omega
  obtain rfl : power = 3 := by omega
  have hnamed : (ofBytes 500107862016).unit = "GB" := (Option.some.inj hunit).symm
  exact ⟨by rw [hdescribed, hvalue, hnamed]; decide, hbelow (by decide)⟩

/-- There is no unit beyond the largest one. -/
example : ofBytes 0xFFFFFFFFFFFFFFFF = ⟨16383, "PB"⟩ := by decide

end Capacity

/-! What the words of a page tell. -/

namespace IdentifyPage

/-- The words of a page that count sectors or tell of discarding. -/
def countWords : List Nat := [60, 61, 69, 100, 101, 102, 103, 105, 169]

/-- The words that a label is made of, but for the capacity: the rotation rate, and the twenty words
of the model. -/
def nameWords : List Nat := 217 :: List.range' 27 20

/-- Two pages that hold the same in some of their words. Of the other words nothing is said. -/
def AgreeOn (words : List Nat) (first second : IdentifyPage) : Prop :=
  ∀ index ∈ words, first.word index = second.word index

variable {first second : IdentifyPage}

theorem characters_congr {word words : Nat}
    (hsame : ∀ index, word ≤ index → index < word + words → first.word index = second.word index) :
    first.characters word words = second.characters word words := by
  induction words generalizing word with
  | zero => rfl
  | succ words ih =>
    have hhead := hsame word (Nat.le_refl word) (by omega)
    have hlater := @ih (word + 1) fun index habove hbelow => hsame index (by omega) (by omega)
    rw [characters, characters, hhead, hlater]

/-- Nothing of the page goes into a label but the words of the model and the rotation rate; the
capacity is given. -/
theorem diskLabel_congr (hsame : AgreeOn nameWords first second) (capacity : Nat) :
    diskLabel first capacity = diskLabel second capacity := by
  have hletters : first.characters 27 20 = second.characters 27 20 := by
    apply characters_congr
    intro index habove hbelow
    exact hsame index (List.mem_cons_of_mem _ (List.mem_range'_1.2 ⟨habove, hbelow⟩))
  have hmodel : first.model = second.model := by
    rw [IdentifyPage.model, IdentifyPage.model, text_eq first (by omega), hletters,
      ← text_eq second (by omega)]
  have hrate : first.word 217 = second.word 217 := hsame 217 List.mem_cons_self
  rw [diskLabel, diskLabel, isSolidState, isSolidState, hmodel, hrate]

end IdentifyPage

/-! Disks. -/

namespace Disk

/-- A disk as its page tells it, word by word: the wide count of sectors counts unless it is zero,
each answer about discarding is one bit, and the capacity is that of the blocks at 512 bytes, no
larger than sixty-four bits hold. -/
structure ToldBy (disk : Disk) (page : IdentifyPage) : Prop where
  blocks : disk.blockCount.toNat =
    if page.wideCount ≠ 0 then page.wideCount else page.shortCount
  trim : disk.trimSupport =
    { hasTrim := (page.word 169).testBit 0
      deterministic := (page.word 69).testBit 14
      zeroes := (page.word 69).testBit 5
      maxBlocks := max 1 (page.word 105) }
  label : disk.label = diskLabel page (min (512 * disk.blockCount.toNat) (UInt64.size - 1))

variable {first second : IdentifyPage} {one other : Disk}

/-- Two disks have the same blocks and discard alike if their pages agree on the words that count
and tell this, and they have the same label if the pages agree on its words too. -/
theorem ToldBy.congr (hhead : one.ToldBy first) (hthere : other.ToldBy second)
    (hsame : IdentifyPage.AgreeOn IdentifyPage.countWords first second) :
    one.blockCount = other.blockCount ∧ one.trimSupport = other.trimSupport ∧
      (IdentifyPage.AgreeOn IdentifyPage.nameWords first second → one.label = other.label) := by
  have hwords (index : Nat) (hcounts : index ∈ IdentifyPage.countWords) := hsame index hcounts
  have hwide : first.wideCount = second.wideCount := by
    simp only [IdentifyPage.wideCount, hwords 100 (by decide), hwords 101 (by decide),
      hwords 102 (by decide), hwords 103 (by decide)]
  have hshort : first.shortCount = second.shortCount := by
    simp only [IdentifyPage.shortCount, hwords 60 (by decide), hwords 61 (by decide)]
  have hblocks : one.blockCount = other.blockCount := by
    apply UInt64.toNat_inj.1
    rw [hhead.blocks, hthere.blocks, hwide, hshort]
  refine ⟨hblocks, ?_, ?_⟩
  · rw [hhead.trim, hthere.trim, hwords 69 (by decide), hwords 105 (by decide),
      hwords 169 (by decide)]
  · intro hnames
    rw [hhead.label, hthere.label, hblocks, IdentifyPage.diskLabel_congr hnames]

end Disk

/-! Disks behind simulated ports. -/

/-- A port before it is brought up, in front of a disk with a page. The page may be any one; faults
may be queued and the port may be stalled. -/
structure SimulatedPort.Presents (port : SimulatedPort) (page : IdentifyPage) : Prop where
  down : port.registers.cmd = 0
  kind : port.drive.kind = .disk
  sectors : port.drive.medium.blockSize = sectorSize
  page : port.drive.page = page.bytes

theorem SimulatedPort.Identifies.untouched {port : SimulatedPort} :
    (∀ fault ∈ port.drive.faults, fault.1 ≠ Opcode.identifyDevice) ↔
      port.drive.takeFault Opcode.identifyDevice = none := by
  simp [Drive.takeFault_eq_none_iff]

theorem SimulatedPort.Presents.regular {port : SimulatedPort} {page : IdentifyPage}
    (hpresents : port.Presents page) : port.drive.Regular := by
  refine ⟨?_, fun _ => hpresents.sectors, fun hoptical => ?_⟩
  · rw [hpresents.page]
    exact page.length_bytes
  · rw [hpresents.kind] at hoptical
    cases hoptical

end Ahci
