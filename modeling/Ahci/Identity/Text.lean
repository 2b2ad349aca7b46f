/-!
Text that devices keep in fields of fixed length: it ends at the first zero byte and is
filled up with spaces, and each byte stands for the character of the same number.
-/

namespace Ahci

def trimEnd (bytes : List UInt8) : List UInt8 :=
  (bytes.reverse.dropWhile (· == 0x20)).reverse

/-- The content of a text field: up to the first zero byte, without the spaces before it. -/
def fieldText (bytes : List UInt8) : List UInt8 :=
  trimEnd (bytes.takeWhile (· != 0))

/-- The characters that have the numbers of the bytes. -/
def latinText (bytes : List UInt8) : String :=
  String.ofList (bytes.map fun b => Char.ofNat b.toNat)

def latinBytes (text : String) : List UInt8 :=
  text.toList.map fun c => UInt8.ofNat c.toNat

/-- The bytes with the two of each pair exchanged. -/
def swapPairs : List UInt8 → List UInt8
  | first :: second :: rest => second :: first :: swapPairs rest
  | rest => rest

theorem trimEnd_append_spaces (bytes : List UInt8) (n : Nat) :
    trimEnd (bytes ++ List.replicate n 0x20) = trimEnd bytes := by
  induction n with
  | zero => simp
  | succ n ih =>
    rw [List.replicate_succ', ← List.append_assoc, ← ih]
    simp [trimEnd]

theorem trimEnd_eq_self {bytes : List UInt8} (h : bytes.getLast? ≠ some 0x20) :
    trimEnd bytes = bytes := by
  rw [trimEnd]
  cases hreversed : bytes.reverse with
  | nil => simpa using (List.reverse_eq_nil_iff.1 hreversed).symm
  | cons b bs =>
    have hlast : bytes = (b :: bs).reverse := by rw [← hreversed, List.reverse_reverse]
    have hne : (b == 0x20) = false := by
      rw [hlast, List.getLast?_reverse] at h
      simpa using h
    rw [List.dropWhile_cons, hne, hlast]
    simp

theorem swapPairs_swapPairs (bytes : List UInt8) : swapPairs (swapPairs bytes) = bytes := by
  fun_induction swapPairs bytes with
  | case1 first second rest ih => simp [swapPairs, ih]
  | case2 rest h =>
    cases rest with
    | nil => rfl
    | cons a as =>
      cases as with
      | nil => rfl
      | cons b bs => exact absurd rfl (h a b bs)

/-! Text between quotation marks, where what cannot be shown is written by its number. -/

/-- Whether a character is shown as it is between quotation marks. -/
def isShown (c : Char) : Bool :=
  !(c.toNat < 0x20 || (0x7F ≤ c.toNat && c.toNat ≤ 0xA0) || c.toNat == 0xAD)

/-- A character as it is written between quotation marks. -/
def quotedChar (c : Char) : List Char :=
  if c = '\t' then ['\\', 't']
  else if c = '\r' then ['\\', 'r']
  else if c = '\n' then ['\\', 'n']
  else if c = '\\' then ['\\', '\\']
  else if c = '"' then ['\\', '"']
  else if isShown c then [c]
  else "\\u\x7b".toList ++ Nat.toDigits 16 c.toNat ++ "\x7d".toList

def quoted (text : String) : String :=
  String.ofList ('"' :: (text.toList.flatMap quotedChar ++ ['"']))

end Ahci
