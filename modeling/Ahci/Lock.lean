/-!
A spin lock around a value, used by one thread at a time. Whoever has acquired it may read
and replace the value until it is released; a second acquisition in between would spin for
ever, so `acquire?` refuses it. The engine of a port that was brought up is kept behind such
a lock between the calls to it.
-/

namespace Ahci

/-- A value and whether somebody holds the right to it. -/
structure SpinLock (α : Type) where
  value : α
  held : Bool := false
deriving Repr

namespace SpinLock

variable {α : Type}

/-- Takes the lock, unless it is held. -/
def acquire? (lock : SpinLock α) : Option (SpinLock α) :=
  if lock.held then none else some { lock with held := true }

/-- Gives the lock back; releasing a free lock changes nothing. -/
def release (lock : SpinLock α) : SpinLock α :=
  { lock with held := false }

/-- Replaces the value, which only the holder may do. -/
def replace? (lock : SpinLock α) (value : α) : Option (SpinLock α) :=
  if lock.held then some { lock with value } else none

def read? (lock : SpinLock α) : Option α :=
  if lock.held then some lock.value else none

/-- Changes the value of a lock that nobody holds. -/
def modifyFree? (lock : SpinLock α) (f : α → α) : Option (SpinLock α) :=
  if lock.held then none else some { lock with value := f lock.value }

/-- Runs a step on the value of a lock that nobody holds, and gives the lock back with what the step
leaves in it. -/
def during? {m : Type → Type} [Monad m] {β : Type} (lock : SpinLock α) (step : α → m (β × α)) :
    Option (m (β × SpinLock α)) :=
  lock.acquire?.map fun taken => do
    let (answer, value) ← step taken.value
    return (answer, { taken with value }.release)

/-- A lock is refused just if somebody holds it. -/
theorem acquire?_eq_none_iff (lock : SpinLock α) : lock.acquire? = none ↔ lock.held = true := by
  unfold acquire?; split <;> simp_all

variable {m : Type → Type} [Monad m] {β : Type}

/-- A step is refused just if somebody holds the lock, whatever the step would do. -/
theorem during?_eq_none_iff (lock : SpinLock α) (step : α → m (β × α)) :
    lock.during? step = none ↔ lock.held = true := by
  rw [during?, Option.map_eq_none_iff, acquire?_eq_none_iff]

/-- On a lock that nobody holds, the step is run on the value and the lock is free behind it. -/
theorem during?_of_free [LawfulMonad m] {lock : SpinLock α} (h : lock.held = false)
    (step : α → m (β × α)) :
    lock.during? step =
      some ((fun told => (told.1, { value := told.2 })) <$> step lock.value) := by
  rw [map_eq_pure_bind, during?, acquire?, if_neg (by simp [h])]
  rfl

end SpinLock

end Ahci
