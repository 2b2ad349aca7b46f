import Ahci.Identity.Inquiry
import Ahci.Proofs.Identification
import Mathlib.Data.List.DropRight

/-!
The texts with which devices name themselves. A field of fixed length holds a text that is filled
up with spaces, or ends at a zero byte; what is read of the field is this text and nothing else.
The page of a disk keeps two characters in each word, the first of them in the high byte, and the
answer of a packet device keeps its fields byte by byte.
-/

namespace Ahci

/-- What a field shows: a text, then spaces, and then the end of the field or a zero byte, behind
which anything may follow. The text itself has no zero byte and does not end in a space. -/
structure ShowsText (field text : List UInt8) : Prop where
  made : ∃ spaces rest, field = text ++ List.replicate spaces 0x20 ++ rest ∧
    (rest = [] ∨ rest.head? = some 0)
  noNul : 0 ∉ text
  trimmed : text.getLast? ≠ some 0x20

/-- A text that a field has room for. It may be empty, and it may begin with a space. -/
structure FieldText (room : Nat) where
  bytes : List UInt8
  short : bytes.length ≤ room
  noNul : 0 ∉ bytes
  trimmed : bytes.getLast? ≠ some 0x20

/-- What a field is filled up with: spaces, as on the page of a disk, or zero bytes. -/
inductive Filler where
  | space
  | nul

def Filler.byte : Filler → UInt8
  | space => 0x20
  | nul => 0

/-- The field that holds a text and is filled up to its end. -/
def FieldText.padded {room : Nat} (text : FieldText room) (filler : Filler) : List UInt8 :=
  text.bytes ++ List.replicate (room - text.bytes.length) filler.byte

/-! What is read of a field. -/

theorem trimEnd_eq_rdropWhile (bytes : List UInt8) :
    trimEnd bytes = bytes.rdropWhile (· == 0x20) := rfl

theorem exists_spaces (bytes : List UInt8) :
    ∃ spaces, bytes = trimEnd bytes ++ List.replicate spaces 0x20 := by
  have hsplit : bytes.rdropWhile (· == 0x20) ++ bytes.rtakeWhile (· == 0x20) = bytes :=
    List.rdropWhile_append_rtakeWhile
  have hspaces : bytes.rtakeWhile (· == 0x20) =
      List.replicate (bytes.rtakeWhile (· == 0x20)).length 0x20 := by
    apply List.eq_replicate_of_mem
    intro b hmember
    simpa using List.mem_rtakeWhile_imp hmember
  exact ⟨_, by rw [trimEnd_eq_rdropWhile, ← hspaces, hsplit]⟩

theorem getLast?_trimEnd (bytes : List UInt8) : (trimEnd bytes).getLast? ≠ some 0x20 := by
  intro hlast
  have hsome : trimEnd bytes ≠ [] := by
    intro hnone
    simp [hnone] at hlast
  have hother := List.rdropWhile_last_not (· == 0x20) bytes hsome
  rw [List.getLast?_eq_some_getLast hsome] at hlast
  exact hother (beq_iff_eq.2 (Option.some.inj hlast))

theorem mem_of_mem_trimEnd {bytes : List UInt8} {b : UInt8} (hmember : b ∈ trimEnd bytes) :
    b ∈ bytes :=
  (List.rdropWhile_prefix (· == 0x20) (l := bytes)).subset hmember

/-- What is read of a field is the one text that the field shows. So every field shows exactly
one. -/
theorem fieldText_eq_iff {field text : List UInt8} :
    fieldText field = text ↔ ShowsText field text := by
  constructor
  · rintro rfl
    obtain ⟨spaces, hfilled⟩ := exists_spaces (field.takeWhile (· != 0))
    refine ⟨⟨spaces, field.dropWhile (· != 0), ?_, ?_⟩, ?_, getLast?_trimEnd _⟩
    · rw [fieldText, ← hfilled, List.takeWhile_append_dropWhile]
    · cases hrest : field.dropWhile (· != 0) with
      | nil => exact .inl rfl
      | cons b behind =>
        right
        have hstop := List.head?_dropWhile_not (· != 0) field
        rw [hrest] at hstop
        simpa using hstop
    · intro hmember
      have hbefore := List.mem_takeWhile_imp (mem_of_mem_trimEnd hmember)
      simp at hbefore
  · rintro ⟨⟨spaces, rest, rfl, hends⟩, hnoNul, htrimmed⟩
    have hplain : ∀ b ∈ text ++ List.replicate spaces 0x20, (b != 0) = true := by
      intro b hmember
      rcases List.mem_append.1 hmember with hearly | hlate
      · exact bne_iff_ne.2 (ne_of_mem_of_not_mem hearly hnoNul)
      · rw [(List.mem_replicate.1 hlate).2]
        rfl
    have hstops : rest.takeWhile (· != 0) = [] := by
      rcases hends with rfl | hnul
      · rfl
      · cases rest with
        | nil => rfl
        | cons b behind =>
          obtain rfl := Option.some.inj hnul
          rfl
    rw [fieldText, List.takeWhile_append_of_pos hplain, hstops, List.append_nil,
      trimEnd_append_spaces, trimEnd_eq_self htrimmed]

theorem FieldText.length_padded {room : Nat} (text : FieldText room) (filler : Filler) :
    (text.padded filler).length = room := by
  simp [padded, text.short]

/-- Whichever way a field is filled up, it shows the text that it holds, even one that fills the
field. -/
theorem FieldText.fieldText_padded {room : Nat} (text : FieldText room) (filler : Filler) :
    fieldText (text.padded filler) = text.bytes := by
  apply fieldText_eq_iff.2
  refine ⟨?_, text.noNul, text.trimmed⟩
  cases filler with
  | space => exact ⟨room - text.bytes.length, [], (List.append_nil _).symm, .inl rfl⟩
  | nul =>
    refine ⟨0, List.replicate (room - text.bytes.length) 0, by simp [padded, Filler.byte], ?_⟩
    cases room - text.bytes.length with
    | zero => exact .inl rfl
    | succ more => exact .inr rfl

/-! Characters of strings. -/

/-- A string has one character for each byte, of the same number, also beyond ASCII. -/
theorem map_toNat_latinText (bytes : List UInt8) :
    (latinText bytes).toList.map Char.toNat = bytes.map UInt8.toNat := by
  have hvalid (b : UInt8) : (Char.ofNat b.toNat).toNat = b.toNat := by
    have hsmall := b.toNat_lt
    have hlow : b.toNat.isValidChar := .inl (by omega)
    rw [Char.ofNat, dif_pos hlow]
    rfl
  simp [latinText, Function.comp_def, hvalid]

theorem toNat_ne_zero_of_shown {field text : List UInt8} (hshown : ShowsText field text) {c : Char}
    (hmember : c ∈ (latinText text).toList) : c.toNat ≠ 0 := by
  intro hnul
  have hnumbered : c.toNat ∈ (latinText text).toList.map Char.toNat := List.mem_map_of_mem hmember
  rw [map_toNat_latinText, hnul, List.mem_map] at hnumbered
  obtain ⟨b, hamong, hzero⟩ := hnumbered
  obtain rfl : b = 0 := UInt8.toNat_inj.1 hzero
  exact hshown.noNul hamong

theorem getLast?_ne_of_shown {field text : List UInt8} (hshown : ShowsText field text) :
    (latinText text).toList.getLast? ≠ some ' ' := by
  intro hlast
  have hnumbered : ((latinText text).toList.map Char.toNat).getLast? = some 0x20 := by
    rw [List.getLast?_map, hlast]
    rfl
  rw [map_toNat_latinText, List.getLast?_map] at hnumbered
  obtain ⟨b, hbehind, hspace⟩ := Option.map_eq_some_iff.1 hnumbered
  obtain rfl : b = 0x20 := UInt8.toNat_inj.1 hspace
  exact hshown.trimmed hbehind

/-! The page of a disk. -/

namespace IdentifyPage

/-- The characters in consecutive words of a page, of each word first the one in its high byte. -/
def characters (page : IdentifyPage) : Nat → Nat → List UInt8
  | _, 0 => []
  | word, words + 1 =>
    UInt8.ofNat (page.word word / 256) :: UInt8.ofNat (page.word word % 256) ::
      page.characters (word + 1) words

/-- The words of a page, with the bytes of each exchanged, are its characters. -/
theorem swapPairs_words (page : IdentifyPage) {first words : Nat} (hwithin : first + words ≤ 256) :
    swapPairs ((page.bytes.drop (2 * first)).take (2 * words)) = page.characters first words := by
  have hlength := page.length_bytes
  induction words generalizing first with
  | zero => rfl
  | succ words ih =>
    have hlow : 2 * first < page.bytes.length := by omega
    have hhigh : 2 * first + 1 < page.bytes.length := by omega
    have hbegun : page.bytes.drop (2 * first) = page.bytes[2 * first] ::
        page.bytes[2 * first + 1] :: page.bytes.drop (2 * (first + 1)) := by
      rw [List.drop_eq_getElem_cons hlow, List.drop_eq_getElem_cons hhigh]
      rfl
    have hword : page.word first =
        page.bytes[2 * first].toNat + 256 * page.bytes[2 * first + 1].toNat := by
      rw [IdentifyPage.word, number, field, hbegun]
      rfl
    have hfirst := page.bytes[2 * first].toNat_lt
    have hsecond := page.bytes[2 * first + 1].toNat_lt
    have hupper : page.word first / 256 = page.bytes[2 * first + 1].toNat := by omega
    have hlower : page.word first % 256 = page.bytes[2 * first].toNat := by omega
    rw [hbegun, Nat.mul_succ, List.take_succ_cons, List.take_succ_cons, swapPairs, ih (by omega),
      characters, hupper, hlower, UInt8.ofNat_toNat, UInt8.ofNat_toNat]

/-- The text in words of a page is read of their characters, so from the high byte of each word
first. -/
theorem text_eq (page : IdentifyPage) {first words : Nat} (hwithin : first + words ≤ 256) :
    page.text first words = fieldText (page.characters first words) := by
  rw [text, swapPairs_words page hwithin]

end IdentifyPage

/-- Bytes that were written over a page are found where they were written, if the page reaches that
far. -/
theorem PageBuilder.take_drop_overwrite {page : List UInt8} {offset : Nat}
    (hwithin : offset ≤ page.length) (bytes : List UInt8) :
    ((overwrite page offset bytes).drop offset).take bytes.length = bytes := by
  have hfront : (page.take offset).length = offset := List.length_take_of_le hwithin
  rw [overwrite, List.append_assoc, List.drop_left' hfront, List.take_left]

/-- A text that is put over words of a page is what these words show, and all else on the page stays
as it was. -/
theorem IdentifyPage.exists_putText (page : IdentifyPage) {first words : Nat}
    (hwithin : first + words ≤ 256) (text : FieldText (2 * words)) : ∃ after : IdentifyPage,
      parse? (PageBuilder.putText page.bytes first words text.bytes) = some after ∧
        after.characters first words = text.padded .space ∧
        ∀ place, place < 2 * first ∨ 2 * first + 2 * words ≤ place →
          after.bytes[place]? = page.bytes[place]? := by
  have hlength := page.length_bytes
  have hroom := text.length_padded .space
  have hlaid : (swapPairs (text.padded .space)).length = 2 * words := by
    rw [length_swapPairs, hroom]
  have hput : PageBuilder.putText page.bytes first words text.bytes =
      PageBuilder.overwrite page.bytes (2 * first) (swapPairs (text.padded .space)) := by
    rw [PageBuilder.putText]
    exact congrArg (fun field => PageBuilder.overwrite page.bytes (2 * first) (swapPairs field))
      (List.take_of_length_le (Nat.le_of_eq hroom))
  have hfits : 2 * first + (swapPairs (text.padded .space)).length ≤ page.bytes.length := by omega
  have hwhole := PageBuilder.length_overwrite hfits
  rw [← hput, hlength] at hwhole
  refine ⟨⟨_, hwhole⟩, parse?_bytes ⟨_, hwhole⟩, ?_, ?_⟩
  · have hstart : 2 * first ≤ page.bytes.length := by omega
    have hfound := PageBuilder.take_drop_overwrite hstart (swapPairs (text.padded .space))
    rw [hlaid, ← hput] at hfound
    rw [← swapPairs_words _ hwithin, hfound, swapPairs_swapPairs]
  · intro place houtside
    have hseen := PageBuilder.getElem?_overwrite hfits place
    rw [if_neg (by omega), ← hput] at hseen
    exact hseen

/-- What a reader of a text in words of a page makes of it: each text that has found its place is
read back, each page shows some text, and it is read without zeros and spaces at its end. -/
structure IdentifyPage.Tells (first words : Nat) (read : IdentifyPage → String) : Prop where
  /-- Every text finds its place on every page. -/
  put : ∀ (page : IdentifyPage) (text : FieldText (2 * words)), ∃ after : IdentifyPage,
    parse? (PageBuilder.putText page.bytes first words text.bytes) = some after ∧
      after.characters first words = text.padded .space ∧
      ∀ place, place < 2 * first ∨ 2 * first + 2 * words ≤ place →
        after.bytes[place]? = page.bytes[place]?
  /-- A text that has found its place is read back, whatever else the page holds. -/
  stored : ∀ (page : IdentifyPage) (text : FieldText (2 * words)),
    page.characters first words = text.padded .space → read page = latinText text.bytes
  shown : ∀ page, ∃ text, ShowsText (page.characters first words) text ∧
    read page = latinText text
  plain : ∀ page, (∀ c ∈ (read page).toList, c.toNat ≠ 0) ∧
    (read page).toList.getLast? ≠ some ' '

theorem IdentifyPage.tells_text {first words : Nat} (hwithin : first + words ≤ 256) :
    Tells first words fun page => latinText (page.text first words) := by
  have hshows (page : IdentifyPage) :
      ShowsText (page.characters first words) (page.text first words) :=
    fieldText_eq_iff.1 (page.text_eq hwithin).symm
  constructor
  · exact fun page text => page.exists_putText hwithin text
  · intro page text hstored
    rw [page.text_eq hwithin, hstored, text.fieldText_padded]
  · exact fun page => ⟨_, hshows page, rfl⟩
  · intro page
    exact ⟨fun c => toNat_ne_zero_of_shown (hshows page), getLast?_ne_of_shown (hshows page)⟩

/-! The answer of a packet device. -/

namespace InquiryData

/-- The text at an offset is that of the bytes that stand there, whatever stands before and behind
them. -/
theorem textAt_append {before field : List UInt8} (behind : List UInt8) {offset length : Nat}
    (hplace : before.length = offset) (hroom : field.length = length) :
    textAt (before ++ (field ++ behind)) offset length = latinText (fieldText field) := by
  rw [textAt, List.drop_left' hplace, List.take_left' hroom]

/-- An answer whose fields hold texts is read as these texts, however each of the fields is filled
up and whatever stands before and behind them. -/
theorem parse?_padded (front : Vector UInt8 8) (vendor : FieldText 8) (product : FieldText 16)
    (revision : FieldText 4) (first second third : Filler) (back : List UInt8) :
    parse? (front.toList ++ (vendor.padded first ++ (product.padded second ++
      (revision.padded third ++ back)))) =
        some ⟨latinText vendor.bytes, latinText product.bytes, latinText revision.bytes⟩ := by
  have hstart := front.length_toList
  have hone := vendor.length_padded first
  have htwo := product.length_padded second
  have hthree := revision.length_padded third
  have hlong : ¬ (front.toList ++ (vendor.padded first ++ (product.padded second ++
      (revision.padded third ++ back)))).length < 36 := by
    simp only [List.length_append, hstart, hone, htwo, hthree]
    omega
  have hnamed :=
    textAt_append (product.padded second ++ (revision.padded third ++ back)) hstart hone
  have hmiddle : (front.toList ++ vendor.padded first).length = 16 := by
    rw [List.length_append, hstart, hone]
  have hlate : (front.toList ++ (vendor.padded first ++ product.padded second)).length = 32 := by
    rw [List.length_append, List.length_append, hstart, hone, htwo]
  have hmade := textAt_append (revision.padded third ++ back) hmiddle htwo
  have hrevised := textAt_append back hlate hthree
  simp only [List.append_assoc, FieldText.fieldText_padded] at hnamed hmade hrevised
  rw [parse?, if_neg hlong, hnamed, hmade, hrevised]

/-- Only the bytes of the three fields matter, and that there are so many. -/
theorem parse?_congr {first second : List UInt8}
    (hsame : ∀ place, 8 ≤ place → place < 36 → first[place]? = second[place]?) :
    parse? first = parse? second := by
  have hshort : first.length < 36 ↔ second.length < 36 := by
    have hlast := hsame 35 (by omega) (by omega)
    have hstop : first.length ≤ 35 ↔ second.length ≤ 35 := by
      rw [← List.getElem?_eq_none_iff, ← List.getElem?_eq_none_iff, hlast]
    omega
  have htexts (offset length : Nat) (habove : 8 ≤ offset) (hbelow : offset + length ≤ 36) :
      textAt first offset length = textAt second offset length :=
    textAt_congr fun place _ _ => hsame place (by omega) (by omega)
  unfold parse?
  simp only [hshort, htexts 8 8 (by omega) (by omega), htexts 16 16 (by omega) (by omega),
    htexts 32 4 (by omega) (by omega)]

end InquiryData

/-- For all texts, pages and answers. A string shows a text byte by byte, each character with the
number of its byte. Model and serial number of a disk are read back from their words on any page,
with the bytes of each word exchanged, the filling trimmed and nothing behind a zero byte. An answer
of a packet device is read if it has at least 36 bytes, and then vendor, product and revision are
the texts in their three fields, however these are filled up; two answers that agree there are read
alike. What the first eight bytes of an answer tell of the kind of device is not looked at. -/
theorem names_read_back :
    (∀ bytes, (latinText bytes).toList.map Char.toNat = bytes.map UInt8.toNat) ∧
      IdentifyPage.Tells 27 20 IdentifyPage.model ∧ IdentifyPage.Tells 10 10 IdentifyPage.serial ∧
      (∀ bytes, InquiryData.parse? bytes = none ↔ bytes.length < 36) ∧
      (∀ (front : Vector UInt8 8) (vendor : FieldText 8) (product : FieldText 16)
        (revision : FieldText 4) (first second third : Filler) (back : List UInt8),
        InquiryData.parse? (front.toList ++ (vendor.padded first ++ (product.padded second ++
          (revision.padded third ++ back)))) =
            some ⟨latinText vendor.bytes, latinText product.bytes, latinText revision.bytes⟩) ∧
      ∀ first second : List UInt8,
        (∀ place, 8 ≤ place → place < 36 → first[place]? = second[place]?) →
          InquiryData.parse? first = InquiryData.parse? second := by
  refine ⟨map_toNat_latinText, IdentifyPage.tells_text (by decide),
    IdentifyPage.tells_text (by decide), InquiryData.parse?_eq_none_iff,
    InquiryData.parse?_padded, ?_⟩
  exact fun first second hsame => InquiryData.parse?_congr hsame

/-- A name of three letters, one of them beyond ASCII. It ends in the middle of a word. -/
def shortName : FieldText 40 :=
  ⟨[0x4F, 0xE9, 0x4E], by decide, by decide, by decide⟩

/-- A name of three letters, one of them beyond ASCII, is put on a page and read back, and what
stands before the fields of an answer does not matter. -/
theorem names_read_back_of_three_letters :
    (∃ page : IdentifyPage, page.characters 27 20 = shortName.padded .space ∧
      page.model = latinText [0x4F, 0xE9, 0x4E]) ∧
      InquiryData.parse? (List.replicate 8 1 ++ List.replicate 28 0x41) =
        InquiryData.parse? (List.replicate 8 2 ++ List.replicate 28 0x41) := by
  obtain ⟨_, hmodel, _, _, _, hlocal⟩ := names_read_back
  obtain ⟨page, _, hplaced, _⟩ := hmodel.put ⟨PageBuilder.blank, List.length_replicate⟩ shortName
  refine ⟨⟨page, hplaced, hmodel.stored page shortName hplaced⟩, hlocal _ _ ?_⟩
  intro place habove _
  rw [List.getElem?_append_right (by simpa using habove),
    List.getElem?_append_right (by simpa using habove), List.length_replicate,
    List.length_replicate]

end Ahci
