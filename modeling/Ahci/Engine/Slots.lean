import Ahci.Descriptor.CommandTable
import Ahci.Failure
import Ahci.Numeral
import Ahci.Word

/-!
The software's view of the command slots of a port. A slot is free, or it belongs to one
command: claimed while the command is built, issued while the adapter has it, done until it
is released. `claim` hands out the lowest slot that is free and that the adapter does not
still own.
-/

namespace Ahci

/-- What a slot is used for. -/
inductive SlotState where
  /-- Open to a new command. -/
  | free
  /-- Taken by a command that is being built. -/
  | claimed
  /-- Handed to the adapter. -/
  | issued
  /-- Completed or failed, not yet released. -/
  | done
deriving DecidableEq, Repr, Inhabited

def SlotState.name : SlotState → String
  | free => "Free"
  | claimed => "Claimed"
  | issued => "Issued"
  | done => "Done"

/-- The slots of a port, of which the first `count` are in use. -/
structure SlotArena where
  states : Vector SlotState slotCount
  count : Nat
  count_le : count ≤ slotCount
deriving DecidableEq, Repr

/-- No slot could be claimed: how many there are, and which ones the adapter owns. -/
structure SlotShortage where
  count : Nat
  busy : UInt32
deriving DecidableEq, Repr

def SlotShortage.message (shortage : SlotShortage) : String :=
  "AHCI: no free command slot (" ++ toString shortage.count ++ " slots, hardware busy " ++
    hexRegister shortage.busy ++ ")"

/-- A request that finds no slot is refused, whatever the slots are taken by. -/
def SlotShortage.toIoError (_ : SlotShortage) : IoError :=
  .notReady

namespace SlotArena

/-- All slots free, with as many of them in use as are asked for and the table has. -/
def ofCount (count : Nat) : SlotArena :=
  { states := Vector.replicate slotCount .free
    count := min count slotCount
    count_le := Nat.min_le_right _ _ }

/-- What a slot is used for, if it is in the table. Slots from the count on are in it too. -/
def state? (arena : SlotArena) (slot : Nat) : Option SlotState :=
  arena.states[slot]?

/-- Sets what a slot is used for. A slot that is not in the table is passed over. -/
def mark (arena : SlotArena) (slot : Nat) (state : SlotState) : SlotArena :=
  { arena with states := arena.states.setIfInBounds slot state }

/-- Whether a slot is free and not owned by the adapter. -/
def isOpen (arena : SlotArena) (busy : UInt32) (slot : Nat) : Bool :=
  arena.state? slot == some .free && !Word.test busy slot

/-- Claims the lowest open slot. -/
def claim (arena : SlotArena) (busy : UInt32) : Except SlotShortage (Nat × SlotArena) :=
  match (List.range arena.count).find? (arena.isOpen busy) with
  | some slot => .ok (slot, arena.mark slot .claimed)
  | none => .error ⟨arena.count, busy⟩

/-- Gives a slot back, whatever it was used for. -/
def release (arena : SlotArena) (slot : Nat) : SlotArena :=
  arena.mark slot .free

theorem state?_mark (arena : SlotArena) (slot other : Nat) (state : SlotState) :
    (arena.mark slot state).state? other =
      if slot = other ∧ other < slotCount then some state else arena.state? other := by
  simp only [state?, mark, Vector.getElem?_setIfInBounds]
  split
  · subst_vars
    split <;> simp_all
  · simp_all

@[simp] theorem count_mark (arena : SlotArena) (slot : Nat) (state : SlotState) :
    (arena.mark slot state).count = arena.count := rfl

/-- A claim succeeds exactly with the lowest open slot below the count. -/
theorem claim_eq_ok_iff {arena next : SlotArena} {busy : UInt32} {slot : Nat} :
    arena.claim busy = .ok (slot, next) ↔
      next = arena.mark slot .claimed ∧ slot < arena.count ∧ arena.isOpen busy slot = true ∧
        ∀ lower < slot, arena.isOpen busy lower = false := by
  unfold claim
  split
  · next found h =>
    rw [List.find?_range_eq_some] at h
    simp only [Except.ok.injEq, Prod.mk.injEq, List.mem_range] at h ⊢
    constructor
    · rintro ⟨rfl, rfl⟩
      exact ⟨rfl, h.2.1, h.1, fun lower hl => by simpa using h.2.2 lower hl⟩
    · rintro ⟨rfl, _, hopen, hnone_below⟩
      have hsame : found = slot := by
        rcases Nat.lt_trichotomy found slot with hlt | heq | hgt
        · simp [hnone_below found hlt] at h
        · exact heq
        · have := h.2.2 slot hgt
          simp [hopen] at this
      exact ⟨hsame, by rw [hsame]⟩
  · next h =>
    rw [List.find?_range_eq_none] at h
    simp only [reduceCtorEq, false_iff]
    rintro ⟨_, hlow, hopen, _⟩
    simpa [hopen] using h slot hlow

end SlotArena

end Ahci
