/-!
Capacities in whole binary units. A count of bytes is divided by 1024, dropping the
remainder, until it falls below 1024 or the largest unit is reached.
-/

namespace Ahci

structure Capacity where
  value : Nat
  unit : String
deriving DecidableEq, Repr

namespace Capacity

/-- The units above bytes, each 1024 times the one before it. -/
def largerUnits : List String := ["KB", "MB", "GB", "TB", "PB"]

/-- Moves to larger units as long as the value allows and there are any. -/
def scale (value : Nat) (unit : String) : List String → Capacity
  | [] => ⟨value, unit⟩
  | next :: rest => if 1024 ≤ value then scale (value / 1024) next rest else ⟨value, unit⟩

/-- An amount of bytes in the largest unit that it fills, rounded down. -/
def ofBytes (bytes : Nat) : Capacity :=
  scale bytes "B" largerUnits

def describe (capacity : Capacity) : String :=
  toString capacity.value ++ " " ++ capacity.unit

end Capacity

end Ahci
