import Ahci.Host

/-!
Registers that answer by a script: each has a list of values that its reads return one
after another, the last of them for ever. Writes change nothing.
-/

namespace Ahci

/-- What the registers still have to answer, by offset. -/
structure Script where
  replies : List (Nat × List UInt32)
deriving Repr

namespace Script

def advance : List UInt32 → List UInt32
  | _ :: next :: rest => next :: rest
  | replies => replies

/-- What a register reads as; one without a script reads as zero. -/
def readRegister (script : Script) (offset : Nat) : UInt32 × Script :=
  match script.replies.find? (·.1 == offset) with
  | some (_, value :: _) =>
    (value,
      { replies := script.replies.map fun entry =>
          if entry.1 == offset then (offset, advance entry.2) else entry })
  | _ => (0, script)

end Script

instance : Device Script where
  read _ offset script _ := script.readRegister offset
  write _ _ _ script memory := (script, memory)

end Ahci
