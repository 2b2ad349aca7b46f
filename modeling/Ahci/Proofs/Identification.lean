import Ahci.Proofs.Sectors
import Ahci.Simulation.PageBuilder
import Mathlib.Algebra.Group.Nat.Defs

/-!
Identification of a standard disk. The words of its page are the ones that were put there
last, so the number of sectors that a driver finds in the page is the number that the page was
made for, whether or not the disk announces that sectors can be discarded.
-/

namespace Ahci

theorem length_swapPairs (bytes : List UInt8) : (swapPairs bytes).length = bytes.length := by
  fun_induction swapPairs bytes with
  | case1 first second rest ih => simp [ih]
  | case2 rest => rfl

namespace PageBuilder

/-- Bytes written over a page stand at their places, and every other place is as before. They have
to lie within the page. -/
theorem getElem?_overwrite {page bytes : List UInt8} {offset : Nat}
    (hwithin : offset + bytes.length ≤ page.length) (place : Nat) :
    (overwrite page offset bytes)[place]? =
      if offset ≤ place ∧ place < offset + bytes.length then bytes[place - offset]?
      else page[place]? := by
  have hfront : (page.take offset).length = offset := List.length_take_of_le (by omega)
  rw [overwrite, List.getElem?_append, List.getElem?_append, List.length_append, hfront]
  by_cases hearly : place < offset
  · rw [if_pos (by omega), if_pos hearly, if_neg (by omega), List.getElem?_take_of_lt hearly]
  · by_cases hwritten : place < offset + bytes.length
    · rw [if_pos hwritten, if_neg hearly, if_pos (by omega)]
    · have hbehind : offset + bytes.length + (place - (offset + bytes.length)) = place := by omega
      rw [if_neg hwritten, if_neg (by omega), List.getElem?_drop, hbehind]

theorem length_overwrite {page bytes : List UInt8} {offset : Nat}
    (hwithin : offset + bytes.length ≤ page.length) :
    (overwrite page offset bytes).length = page.length := by
  simp only [overwrite, List.length_append, List.length_take, List.length_drop]
  omega

theorem length_putText {page text : List UInt8} {first words : Nat}
    (hwithin : 2 * first + 2 * words ≤ page.length) :
    (putText page first words text).length = page.length := by
  apply length_overwrite
  rw [length_swapPairs]
  have hshort := List.length_take_le (2 * words)
    (text ++ List.replicate (2 * words - text.length) 0x20)
  omega

theorem length_putWord {page : List UInt8} {index : Nat} (hwithin : 2 * index + 2 ≤ page.length)
    (value : Nat) : (putWord page index value).length = page.length :=
  length_overwrite (by simpa using hwithin)

/-- A word of a page reads as what was put there, cut to 16 bits, and every other word as before. -/
theorem field_putWord {page : List UInt8} {index : Nat} (hwithin : 2 * index + 2 ≤ page.length)
    (value place : Nat) :
    field (putWord page index value) (2 * place) 2 =
      if place = index then value % byteRange 2 else field page (2 * place) 2 := by
  have hbound : 2 * index + (littleEndian 2 value).length ≤ page.length := by simpa using hwithin
  by_cases hsame : place = index
  · subst hsame
    rw [if_pos rfl, ← field_littleEndian 2 value []]
    unfold field
    congr 1
    apply List.ext_getElem?
    intro i
    rw [List.getElem?_take, List.getElem?_take, List.getElem?_drop, putWord,
      getElem?_overwrite hbound]
    split
    · next hearly =>
      rw [if_pos (by simp; omega), List.append_nil, List.drop_zero, Nat.add_sub_cancel_left]
    · rfl
  · rw [if_neg hsame]
    unfold field
    congr 1
    apply List.ext_getElem?
    intro i
    rw [List.getElem?_take, List.getElem?_take, List.getElem?_drop, List.getElem?_drop, putWord,
      getElem?_overwrite hbound]
    split
    · rw [if_neg (by simp; omega)]
    · rfl

theorem length_putWords {page : List UInt8} {words : List (Nat × Nat)}
    (hwithin : ∀ word ∈ words, 2 * word.1 + 2 ≤ page.length) :
    (putWords page words).length = page.length := by
  induction words generalizing page with
  | nil => rfl
  | cons word words ih =>
    have hfirst := length_putWord (hwithin word List.mem_cons_self) word.2
    have hstill : ∀ other ∈ words, 2 * other.1 + 2 ≤ (putWord page word.1 word.2).length := by
      intro other hmember
      rw [hfirst]
      exact hwithin other (List.mem_cons_of_mem word hmember)
    exact (ih hstill).trans hfirst

/-- A word that is none of those put on a page reads as before. -/
theorem field_putWords_of_notMem {page : List UInt8} {words : List (Nat × Nat)} {place : Nat}
    (hwithin : ∀ word ∈ words, 2 * word.1 + 2 ≤ page.length)
    (hother : ∀ word ∈ words, place ≠ word.1) :
    field (putWords page words) (2 * place) 2 = field page (2 * place) 2 := by
  induction words generalizing page with
  | nil => rfl
  | cons word words ih =>
    have hfits := hwithin word List.mem_cons_self
    have hstill : ∀ later ∈ words, 2 * later.1 + 2 ≤ (putWord page word.1 word.2).length := by
      intro later hmember
      rw [length_putWord hfits]
      exact hwithin later (List.mem_cons_of_mem word hmember)
    refine (ih hstill fun later hmember =>
      hother later (List.mem_cons_of_mem word hmember)).trans ?_
    rw [field_putWord hfits, if_neg (hother word List.mem_cons_self)]

/-- A word put on a page reads as what was put there last, cut to 16 bits. -/
theorem field_putWords {page : List UInt8} {early late : List (Nat × Nat)} {place value : Nat}
    (hwithin : ∀ word ∈ early ++ (place, value) :: late, 2 * word.1 + 2 ≤ page.length)
    (hother : ∀ word ∈ late, place ≠ word.1) :
    field (putWords page (early ++ (place, value) :: late)) (2 * place) 2 =
      value % byteRange 2 := by
  have hbefore : ∀ word ∈ early, 2 * word.1 + 2 ≤ page.length := fun word hmember =>
    hwithin word (List.mem_append_left _ hmember)
  have hlength := length_putWords hbefore
  have hfits : 2 * place + 2 ≤ (putWords page early).length := by
    rw [hlength]
    exact hwithin (place, value) (List.mem_append_right _ List.mem_cons_self)
  have hsplit : putWords page (early ++ (place, value) :: late) =
      putWords (putWord (putWords page early) place value) late := by
    simp only [putWords, List.foldl_append, List.foldl_cons]
  rw [hsplit, field_putWords_of_notMem ?_ hother, field_putWord hfits, if_pos rfl]
  intro word hmember
  rw [length_putWord hfits, hlength]
  exact hwithin word (List.mem_append_right _ (List.mem_cons_of_mem _ hmember))

end PageBuilder

/-- The number of bytes joined is that of the low ones and, shifted behind them, that of the high
ones. -/
theorem ofLittleEndian_append (low high : List UInt8) :
    ofLittleEndian (low ++ high) =
      ofLittleEndian low + byteRange low.length * ofLittleEndian high := by
  induction low with
  | nil => simp [ofLittleEndian]
  | cons b bs ih =>
    rw [List.cons_append, ofLittleEndian, ofLittleEndian, ih, List.length_cons, byteRange_succ,
      Nat.mul_add, Nat.mul_assoc, Nat.add_assoc]

/-- A field of bytes is its low part and, shifted behind it, its high part. -/
theorem field_add {bytes : List UInt8} {offset low : Nat} (high : Nat)
    (hwithin : offset + low ≤ bytes.length) :
    field bytes offset (low + high) =
      field bytes offset low + byteRange low * field bytes (offset + low) high := by
  have hlength : ((bytes.drop offset).take low).length = low := by
    rw [List.length_take, List.length_drop]
    omega
  rw [field, List.take_add, ofLittleEndian_append, hlength, List.drop_drop]
  rfl

namespace IdentifyPage

variable {page : IdentifyPage}

/-- A number of several words is its first word and 65536 times the number of the others. -/
theorem number_succ (page : IdentifyPage) {word : Nat} (words : Nat) (hwithin : word < 256) :
    page.number word (words + 1) = page.word word + 65536 * page.number (word + 1) words := by
  have hfits : 2 * word + 2 ≤ page.bytes.length := by
    rw [page.length_bytes]
    omega
  have hsum : 2 * (words + 1) = 2 + 2 * words := by omega
  have hnext : 2 * word + 2 = 2 * (word + 1) := by omega
  rw [number, hsum, field_add (2 * words) hfits, hnext]
  rfl

/-- The number that words 100 to 103 spell, lowest word first. -/
def wideCount (page : IdentifyPage) : Nat :=
  page.word 100 + 0x10000 * page.word 101 + 0x100000000 * page.word 102 +
    0x1000000000000 * page.word 103

/-- The low 28 bits of the number that words 60 and 61 spell. -/
def shortCount (page : IdentifyPage) : Nat :=
  (page.word 60 + 0x10000 * page.word 61) % 0x10000000

/-- The capacity a page tells is the wide count, or the short count if the wide one is zero. -/
theorem sectors_eq (page : IdentifyPage) :
    page.sectors = if page.wideCount ≠ 0 then page.wideCount else page.shortCount := by
  have hwide : page.number 100 4 = page.wideCount := by
    rw [number_succ page 3 (by omega), number_succ page 2 (by omega),
      number_succ page 1 (by omega)]
    change page.word 100 + 65536 * (page.word 101 + 65536 * (page.word 102 +
      65536 * page.word 103)) = _
    unfold wideCount
    omega
  have hshort : page.number 60 2 = page.word 60 + 0x10000 * page.word 61 :=
    number_succ page 1 (by omega)
  rw [sectors, hwide, hshort]
  rfl

/-- A page whose words 100 to 103 spell a count, and whose words 60 and 61 spell it as far as 28
bits go, tells just this count. This covers all 64-bit counts, zero included. -/
theorem sectors_of_words {count : Nat} (hfew : count < 2 ^ 64)
    (hfirst : page.word 100 = count % 65536) (hsecond : page.word 101 = (count >>> 16) % 65536)
    (hthird : page.word 102 = (count >>> 32) % 65536)
    (hfourth : page.word 103 = (count >>> 48) % 65536)
    (hlow : page.word 60 = min count 0x0FFFFFFF % 65536)
    (hhigh : page.word 61 = (min count 0x0FFFFFFF >>> 16) % 65536) : page.sectors = count := by
  have hwide : page.wideCount = count := by
    rw [wideCount, hfirst, hsecond, hthird, hfourth]
    simp only [Nat.shiftRight_eq_div_pow]
    omega
  have hshort : page.shortCount = min count 0x0FFFFFFF := by
    rw [shortCount, hlow, hhigh]
    simp only [Nat.shiftRight_eq_div_pow]
    omega
  rw [sectors_eq, hwide, hshort]
  split
  · rfl
  · next hnone => omega

end IdentifyPage

/-- A standard page made for a number of sectors, with or without the announcement that sectors can
be discarded. -/
def PageBuilder.Standard (page : List UInt8) (sectors : Nat) : Prop :=
  page = PageBuilder.standard sectors ∨
    page = PageBuilder.announceTrim (PageBuilder.standard sectors)

namespace PageBuilder

/-- The page of a standard disk before its numbers of sectors are put there. -/
def named : List UInt8 :=
  putModel (putSerial blank (latinBytes "SIM0001")) (latinBytes "ROCKET SIM DISK")

theorem length_named : named.length = 512 := by
  have hblank : blank.length = 512 := List.length_replicate
  have hserial : (putSerial blank (latinBytes "SIM0001")).length = 512 := by
    rw [putSerial, length_putText (by rw [hblank]; decide), hblank]
  rw [named, putModel, length_putText (by rw [hserial]; decide), hserial]

theorem length_standard (sectors : Nat) : (standard sectors).length = 512 := by
  change (putWords named _).length = 512
  rw [length_putWords, length_named]
  rw [length_named]
  simp

theorem Standard.length {page : List UInt8} {sectors : Nat} (hmade : Standard page sectors) :
    page.length = 512 := by
  rcases hmade with hsame | hsame
  · rw [hsame, length_standard]
  · rw [hsame, announceTrim, length_putWords, length_standard]
    rw [length_standard]
    simp

/-- The announcement leaves all words but 69, 105 and 169 as they were, so those of the capacity
too. -/
theorem Standard.field {page : List UInt8} {sectors : Nat} (hmade : Standard page sectors)
    {place : Nat} (hother : place ≠ 69 ∧ place ≠ 105 ∧ place ≠ 169) :
    field page (2 * place) 2 = field (standard sectors) (2 * place) 2 := by
  rcases hmade with hsame | hsame
  · rw [hsame]
  · rw [hsame]
    apply field_putWords_of_notMem
    · rw [length_standard]
      simp
    · simpa using hother

end PageBuilder

/-- A standard page tells the number of sectors it was made for, for all 64-bit numbers. -/
theorem IdentifyPage.sectors_of_standard {page : IdentifyPage} {sectors : Nat}
    (hfew : sectors < 2 ^ 64) (hmade : PageBuilder.Standard page.bytes sectors) :
    page.sectors = sectors := by
  have hput (early late : List (Nat × Nat)) (place value : Nat)
      (hsplit : PageBuilder.standard sectors =
        PageBuilder.putWords PageBuilder.named (early ++ (place, value) :: late))
      (hwithin : ∀ word ∈ early ++ (place, value) :: late, 2 * word.1 + 2 ≤ 512)
      (hother : ∀ word ∈ late, place ≠ word.1)
      (hapart : place ≠ 69 ∧ place ≠ 105 ∧ place ≠ 169) :
      page.word place = value % 65536 := by
    rw [word, number, hmade.field hapart, hsplit]
    exact PageBuilder.field_putWords (by rwa [PageBuilder.length_named]) hother
  let short := min sectors 0x0FFFFFFF
  refine sectors_of_words hfew
    (hput [] [(101, sectors >>> 16), (102, sectors >>> 32), (103, sectors >>> 48), (60, short),
      (61, short >>> 16)] 100 sectors rfl (by simp) (by simp) (by simp))
    (hput [(100, sectors)] [(102, sectors >>> 32), (103, sectors >>> 48), (60, short),
      (61, short >>> 16)] 101 _ rfl (by simp) (by simp) (by simp))
    (hput [(100, sectors), (101, sectors >>> 16)] [(103, sectors >>> 48), (60, short),
      (61, short >>> 16)] 102 _ rfl (by simp) (by simp) (by simp))
    (hput [(100, sectors), (101, sectors >>> 16), (102, sectors >>> 32)] [(60, short),
      (61, short >>> 16)] 103 _ rfl (by simp) (by simp) (by simp))
    (hput [(100, sectors), (101, sectors >>> 16), (102, sectors >>> 32), (103, sectors >>> 48)]
      [(61, short >>> 16)] 60 _ rfl (by simp) (by simp) (by simp))
    (hput [(100, sectors), (101, sectors >>> 16), (102, sectors >>> 32), (103, sectors >>> 48),
      (60, short)] [] 61 _ rfl (by simp) (by simp) (by simp))

/-- A disk without a fault for it answers IDENTIFY DEVICE with its page, and is unchanged. -/
theorem Drive.run_identify {drive : Drive} {command : FetchedCommand} (hkind : drive.kind = .disk)
    (huntouched : drive.takeFault Opcode.identifyDevice = none)
    (hcode : command.fis.opcode = Opcode.identifyDevice) (hplain : command.cdb = none)
    (memory : Memory) : drive.run command memory =
      (.done, drive, scatterData command.entries drive.page memory) := by
  rw [run, hcode, huntouched]
  dsimp only
  rw [runSound, hkind, hplain]
  dsimp only
  rw [runAta, hcode, if_pos rfl]

namespace RequestM

variable {engine : Engine} {port : SimulatedPort}

/-- IDENTIFY on a willing port without a fault for it returns the page of the disk, with one
command. -/
theorem exists_identify (hholds : engine.Holds port) (hwilling : port.Willing)
    (huntouched : port.drive.takeFault Opcode.identifyDevice = none) {page : IdentifyPage}
    (htold : port.drive.page = page.bytes) (memory : Memory) :
    ∃ after changed, identify.Yields engine ⟨port, memory⟩ (.ok (.ok page, engine))
        ⟨after, changed⟩ 1 ∧ engine.Serves port port.drive after := by
  let command : Command :=
    { fis := .command Opcode.identifyDevice
      data := .toHost IdentifyPage.size
      label := "identify" }
  have hpos : 0 < IdentifyPage.size := by decide
  obtain ⟨entries, hbuilt⟩ :=
    ScatterList.exists_build (engine.areas.read.physAt 0) true hpos (by decide) (by decide)
  have hformed : engine.scatter command = .ok entries := hbuilt
  have hran := Drive.run_identify hholds.kind huntouched
    (show (command.fetched 0 entries).fis.opcode = _ from rfl) rfl
    (engine.build 0 command entries memory)
  rw [htold] at hran
  have hlength : page.bytes.length = IdentifyPage.size := page.length_bytes
  have hfits : page.bytes.length ≤ 65536 := by
    rw [hlength]
    decide
  obtain ⟨changed, hyields, htaken⟩ :=
    exists_receive hholds.steady hholds.sized hholds.layout hwilling
    hformed (congrArg DataPhase.toHost hlength.symm) hfits hran
  rw [hlength] at htaken
  have hserves := Engine.serves_served hholds.steady (command.fetched 0 entries) port.drive
  refine ⟨_, changed, hyields.finish (htaken.seq ?_), hserves⟩
  rw [IdentifyPage.parse?_bytes]
  exact yields_pure page engine _

end RequestM

end Ahci
