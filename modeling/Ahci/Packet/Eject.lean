import Ahci.Failure
import Ahci.Packet.Cdb

/-!
The two steps that eject a medium: the tray is unlocked, and only if that succeeded it is
opened.
-/

namespace Ahci

/-- How far an eject has come. -/
inductive EjectState where
  /-- Nothing was tried. -/
  | idle
  | ejected
  /-- A step failed, and nothing was tried after it. -/
  | failed
deriving DecidableEq, Repr

def EjectState.name : EjectState → String
  | idle => "Idle"
  | ejected => "Ejected"
  | failed => "Failed"

namespace Eject

def allow : Cdb × String :=
  (.preventAllow false, "allow medium removal")

def opening : Cdb × String :=
  (.startStop true true false, "eject")

/-- Takes both steps, each handed to `issue` with its name in the log. -/
def sequence {m : Type → Type} [Monad m] (issue : Cdb → String → m (Except IoError Unit)) :
    m (Except IoError Unit × EjectState) := do
  match ← issue allow.1 allow.2 with
  | .error error => return (.error error, .failed)
  | .ok () =>
    match ← issue opening.1 opening.2 with
    | .error error => return (.error error, .failed)
    | .ok () => return (.ok (), .ejected)

end Eject

end Ahci
