import Ahci.Bytes
import Ahci.Identity.Capacity
import Ahci.Identity.Text

/-!
The page with which an ATA disk identifies itself: 256 little-endian words that hold its
names, its capacity, and what it can do about discarded sectors.
-/

namespace Ahci

structure IdentifyPage where
  bytes : List UInt8
  length_bytes : bytes.length = 512
deriving DecidableEq

namespace IdentifyPage

def size : Nat := 512

/-- The page that a buffer begins with, if it is long enough. -/
def parse? (bytes : List UInt8) : Option IdentifyPage :=
  if h : 512 ≤ bytes.length then
    some ⟨bytes.take 512, by simp [h]⟩
  else none

/-- The number held by consecutive words, the first word being the lowest. -/
def number (page : IdentifyPage) (firstWord words : Nat) : Nat :=
  field page.bytes (2 * firstWord) (2 * words)

def word (page : IdentifyPage) (index : Nat) : Nat :=
  page.number index 1

def word? (page : IdentifyPage) (index : Nat) : Option Nat :=
  if index < 256 then some (page.word index) else none

/-- Numbers that the shorter count of sectors can hold. -/
def shortRange : Nat := 0x10000000

/-- Sectors of the disk: the 64-bit number of words 100 to 103, or where that is zero the
28-bit number of words 60 and 61. -/
def sectors (page : IdentifyPage) : Nat :=
  let wide := page.number 100 4
  if wide ≠ 0 then wide else page.number 60 2 % shortRange

/-- The text of consecutive words, which keep the first of two characters in their high
byte. -/
def text (page : IdentifyPage) (firstWord words : Nat) : List UInt8 :=
  fieldText (swapPairs ((page.bytes.drop (2 * firstWord)).take (2 * words)))

/-- Model of the disk, in words 27 to 46. -/
def model (page : IdentifyPage) : String :=
  latinText (page.text 27 20)

/-- Serial number of the disk, in words 10 to 19. -/
def serial (page : IdentifyPage) : String :=
  latinText (page.text 10 10)

/-- A rotation rate of one stands for a disk that does not rotate. -/
def isSolidState (page : IdentifyPage) : Bool :=
  page.word 217 == 1

def describe (page : IdentifyPage) : String :=
  "IdentifyData \x7b model: " ++ quoted page.model ++ ", max_lba: " ++ toString page.sectors ++
    ", .. \x7d"

theorem parse?_bytes (page : IdentifyPage) : parse? page.bytes = some page := by
  cases page with
  | mk bytes hlength_bytes =>
    simp [parse?, hlength_bytes, List.take_of_length_le (Nat.le_of_eq hlength_bytes)]

end IdentifyPage

/-- What a disk says about discarding sectors. -/
structure TrimSupport where
  /-- Sectors can be discarded. -/
  hasTrim : Bool
  /-- A discarded sector always reads the same. -/
  deterministic : Bool
  /-- A discarded sector reads as zeroes. -/
  zeroes : Bool
  /-- Blocks of ranges that one command may carry. -/
  maxBlocks : Nat
deriving DecidableEq, Repr

namespace TrimSupport

def none : TrimSupport :=
  ⟨false, false, false, 1⟩

/-- Reads words 69, 105 and 169. -/
def ofPage (page : IdentifyPage) : TrimSupport :=
  { hasTrim := (page.word 169).testBit 0
    deterministic := (page.word 69).testBit 14
    zeroes := (page.word 69).testBit 5
    maxBlocks := max 1 (page.word 105) }

end TrimSupport

/-! Labels. -/

def diskLabel (page : IdentifyPage) (capacity : Nat) : String :=
  let model := if page.model.isEmpty then "ATA Device" else page.model
  let kind := if page.isSolidState then "SSD" else "HDD"
  model ++ " - " ++ (Capacity.ofBytes capacity).describe ++ " (" ++ kind ++ ")"

def unidentifiedDiskLabel (capacity : Nat) : String :=
  "ATA Device - " ++ (Capacity.ofBytes capacity).describe

end Ahci
