import Ahci.Failure
import Ahci.Numeral

/-!
Sense data: the triple of key, code and qualifier with which a packet device explains a
failure. A short table says which failure of a block request each triple stands for.
-/

namespace Ahci

/-- Sense key, additional sense code and its qualifier. -/
structure SenseData where
  key : UInt8
  code : UInt8
  qualifier : UInt8
deriving DecidableEq, Repr

/-! Sense keys. -/

namespace SenseKey

def notReady : UInt8 := 0x2
def mediumError : UInt8 := 0x3
def hardwareError : UInt8 := 0x4
def illegalRequest : UInt8 := 0x5
def unitAttention : UInt8 := 0x6
def dataProtect : UInt8 := 0x7
def abortedCommand : UInt8 := 0xB

end SenseKey

/-- One row of the table of failures: what it matches, and the failure. A row without a
code matches every code. -/
structure SenseRule where
  key : UInt8
  code : Option UInt8
  failure : IoError
deriving DecidableEq, Repr

namespace SenseData

def requestLength : UInt8 := 18

/-- Reads the triple from sense data of fixed format, if that is long enough to hold it. -/
def parse? (bytes : List UInt8) : Option SenseData :=
  if bytes.length < 14 then none
  else some
    { key := bytes.getD 2 0 &&& 0x0F
      code := bytes.getD 12 0
      qualifier := bytes.getD 13 0 }

/-- The table of failures; the first row that matches decides. -/
def rules : List SenseRule :=
  [⟨SenseKey.notReady, some 0x3A, .noMedia⟩,
   ⟨SenseKey.notReady, none, .notReady⟩,
   ⟨SenseKey.unitAttention, some 0x28, .mediaChanged⟩,
   ⟨SenseKey.dataProtect, none, .writeProtected⟩,
   ⟨SenseKey.illegalRequest, none, .unsupported⟩,
   ⟨SenseKey.mediumError, none, .dataError⟩,
   ⟨SenseKey.hardwareError, none, .deviceError⟩,
   ⟨SenseKey.abortedCommand, none, .deviceError⟩]

def matches? (sense : SenseData) (rule : SenseRule) : Bool :=
  rule.key == sense.key && (rule.code.isNone || rule.code == some sense.code)

/-- The failure a triple stands for; what the table does not list is a device error. -/
def failure (sense : SenseData) : IoError :=
  match rules.find? sense.matches? with
  | some rule => rule.failure
  | none => .deviceError

def describe (sense : SenseData) : String :=
  "SK=" ++ hexByteUpper sense.key ++ "h ASC=" ++ hexByteUpper sense.code ++
    "h ASCQ=" ++ hexByteUpper sense.qualifier ++ "h"

theorem parse?_eq_none_iff (bytes : List UInt8) : parse? bytes = none ↔ bytes.length < 14 := by
  unfold parse?; split <;> simp_all

end SenseData

end Ahci
