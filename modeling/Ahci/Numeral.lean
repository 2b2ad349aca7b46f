/-!
Numbers as hexadecimal text, in lower case. `hex` writes no leading zeroes, `hexPadded`
fills up with zeroes to a least number of digits, and the forms with a radix mark are the
ones that addresses and registers are shown in.
-/

namespace Ahci

/-- The hexadecimal digits of a number, at least `least` of them. -/
def hexDigits (least n : Nat) : List Char :=
  let digits := Nat.toDigits 16 n
  List.replicate (least - digits.length) '0' ++ digits

def hex (n : Nat) : String :=
  String.ofList (hexDigits 0 n)

/-- The number in hexadecimal with at least `least` digits. -/
def hexPadded (least n : Nat) : String :=
  String.ofList (hexDigits least n)

/-- The number in hexadecimal behind a radix mark. -/
def hexMarked (n : Nat) : String :=
  "0x" ++ hex n

/-- The number in hexadecimal behind a radix mark, with at least `least` digits. -/
def hexMarkedPadded (least n : Nat) : String :=
  "0x" ++ hexPadded least n

/-- A register value: a radix mark and eight digits. -/
def hexRegister (word : UInt32) : String :=
  hexMarkedPadded 8 word.toNat

def hexByteUpper (b : UInt8) : String :=
  String.ofList ((hexDigits 2 b.toNat).map Char.toUpper)

def hexBytes (bytes : List UInt8) : String :=
  String.ofList (bytes.flatMap fun b => hexDigits 2 b.toNat)

end Ahci
