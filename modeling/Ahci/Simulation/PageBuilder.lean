import Ahci.Bytes
import Ahci.Identity.Text

/-!
Composing identification pages: words and texts are written over a page at the places where
a reader of the page looks for them.
-/

namespace Ahci.PageBuilder

def blank : List UInt8 :=
  List.replicate 512 0

def overwrite (page : List UInt8) (offset : Nat) (bytes : List UInt8) : List UInt8 :=
  page.take offset ++ bytes ++ page.drop (offset + bytes.length)

def putWord (page : List UInt8) (index value : Nat) : List UInt8 :=
  overwrite page (2 * index) (littleEndian 2 value)

/-- Writes a text over consecutive words, filled up with spaces. -/
def putText (page : List UInt8) (firstWord words : Nat) (text : List UInt8) : List UInt8 :=
  overwrite page (2 * firstWord)
    (swapPairs ((text ++ List.replicate (2 * words - text.length) 0x20).take (2 * words)))

def putSerial (page : List UInt8) (text : List UInt8) : List UInt8 :=
  putText page 10 10 text

def putModel (page : List UInt8) (text : List UInt8) : List UInt8 :=
  putText page 27 20 text

def putWords (page : List UInt8) (words : List (Nat × Nat)) : List UInt8 :=
  words.foldl (fun page word => putWord page word.1 word.2) page

def putWord? (page : List UInt8) (index value : Nat) : Option (List UInt8) :=
  if 2 * index + 2 ≤ page.length then some (putWord page index value) else none

/-- Writes several words; one that the page does not have refuses them all. -/
def putWords? (page : List UInt8) (words : List (Nat × Nat)) : Option (List UInt8) :=
  words.foldlM (fun page word => putWord? page word.1 word.2) page

/-- A page with the texts that are given, and over them several words. It is refused when a
word lies beyond its end. -/
def compose? (serial model : Option (List UInt8)) (words : List (Nat × Nat)) :
    Option (List UInt8) :=
  let page := serial.elim blank (putSerial blank)
  let page := model.elim page (putModel page)
  putWords? page words

def announceTrim (page : List UInt8) : List UInt8 :=
  putWords page [(69, 0x4000), (105, 1), (169, 1)]

/-- The page of a simulated disk with a number of sectors. The 28-bit number of sectors
stops at the largest it can hold. -/
def standard (sectors : Nat) : List UInt8 :=
  let short := min sectors 0x0FFFFFFF
  let named := putModel (putSerial blank (latinBytes "SIM0001")) (latinBytes "ROCKET SIM DISK")
  putWords named
    [(100, sectors), (101, sectors >>> 16), (102, sectors >>> 32), (103, sectors >>> 48),
      (60, short), (61, short >>> 16)]

end Ahci.PageBuilder
