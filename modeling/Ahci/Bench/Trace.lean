import Ahci.Host

/-!
How the register accesses of a driver are shown: all of them or the writes alone, with a
read that was made several times in a row shown once and counted.
-/

namespace Ahci.Bench

inductive TraceMode where
  | none
  | writes
  | all
deriving DecidableEq, Repr

def TraceMode.shows (mode : TraceMode) : Access → Bool
  | .read .. => mode == .all
  | .write .. => mode != .none
  | .opened _ => mode != .none

/-- Adds an access to counted ones, newest first. A read that repeats the newest access is
counted with it. -/
def countAccess (counted : List (Access × Nat)) (access : Access) : List (Access × Nat) :=
  match access, counted with
  | .read .., (newest, count) :: others =>
    if access = newest then (newest, count + 1) :: others else (access, 1) :: counted
  | _, _ => (access, 1) :: counted

/-- Accesses with the number of times each read was made in a row. -/
def countRuns (accesses : List Access) : List (Access × Nat) :=
  (accesses.foldl countAccess []).reverse

def TraceMode.select (mode : TraceMode) (accesses : List Access) : List (Access × Nat) :=
  countRuns (accesses.filter mode.shows)

end Ahci.Bench
