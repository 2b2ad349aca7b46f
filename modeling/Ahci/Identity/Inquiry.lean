import Ahci.Identity.Text

/-!
The answer with which a packet device identifies itself: vendor, product and revision in
text fields of fixed place.
-/

namespace Ahci

/-- Who a packet device is. -/
structure InquiryData where
  vendor : String
  product : String
  revision : String
deriving DecidableEq, Repr

namespace InquiryData

/-- Bytes of the answer that are asked for when a device is probed. -/
def probeLength : UInt8 := 96

def textAt (bytes : List UInt8) (offset length : Nat) : String :=
  latinText (fieldText ((bytes.drop offset).take length))

/-- Reads the fields, if the answer is long enough to hold them. -/
def parse? (bytes : List UInt8) : Option InquiryData :=
  if bytes.length < 36 then none
  else some
    { vendor := textAt bytes 8 8
      product := textAt bytes 16 16
      revision := textAt bytes 32 4 }

def label (inquiry : InquiryData) : String :=
  inquiry.vendor ++ " " ++ inquiry.product ++
    (if inquiry.revision.isEmpty then "" else " - " ++ inquiry.revision) ++ " (Optical)"

theorem textAt_congr {first second : List UInt8} {offset length : Nat}
    (hsame : ∀ place, offset ≤ place → place < offset + length → first[place]? = second[place]?) :
    textAt first offset length = textAt second offset length := by
  have hbytes : (first.drop offset).take length = (second.drop offset).take length := by
    apply List.ext_getElem?
    intro index
    rw [List.getElem?_take, List.getElem?_take, List.getElem?_drop, List.getElem?_drop]
    split
    · exact hsame _ (by omega) (by omega)
    · rfl
  rw [textAt, textAt, hbytes]

theorem parse?_eq_none_iff (bytes : List UInt8) : parse? bytes = none ↔ bytes.length < 36 := by
  unfold parse?; split <;> simp_all

end InquiryData

def unidentifiedDriveLabel : String := "ATAPI Device (Optical)"

end Ahci
