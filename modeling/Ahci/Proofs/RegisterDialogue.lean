import Ahci.Proofs.RegisterFootprint

/-!
What passes between the driver and a device, access by access, oldest first. A world undergoes some
accesses if its device, asked and told so in this order, answers the reads among them so.
`HostM.Converses` gives the dialogues that a step can have, with what it makes of each, and it is an
equivalence: a step ends in a way just where the device answers as a dialogue that ends in this way
has it. What is read off the dialogues therefore holds over any device, and whatever a device
answers, the end of the step is known from it.
-/

namespace Ahci

variable {σ α β : Type} [Device σ]

/-- An access as it happens from one world to the next: a read shows the value that the device
answers there, and a write leaves what the device makes of it. The access itself is recorded in the
later world. -/
inductive Access.Happens : Access → World σ → World σ → Prop where
  | read {window : Window} {offset : Nat} {value : UInt32} {before after : World σ}
      (hshown : (HostM.readRegister window offset).exec before = (.ok value, after)) :
      Happens (.read window offset value) before after
  | write {window : Window} {offset : Nat} {value : UInt32} {before after : World σ}
      (hwrote : (HostM.writeRegister window offset value).exec before = (.ok (), after)) :
      Happens (.write window offset value) before after

/-- A list of accesses, oldest first, that happen one behind the other from one world to another.
Nothing else passes between the driver and the device on the way. -/
inductive World.Undergoes : World σ → List Access → World σ → Prop where
  | nil (world : World σ) : Undergoes world [] world
  | cons {access : Access} {made : List Access} {before between after : World σ}
      (hfirst : access.Happens before between) (hrest : Undergoes between made after) :
      Undergoes before (access :: made) after

namespace World

variable {world after : World σ} {access : Access} {early late made : List Access}

theorem undergoes_nil_iff : world.Undergoes [] after ↔ after = world := by
  constructor
  · rintro ⟨⟩
    rfl
  · rintro rfl
    exact .nil after

/-- A dialogue happens if its first access does and the rest happens from the world behind it. -/
theorem undergoes_cons_iff : world.Undergoes (access :: made) after ↔
    ∃ between, access.Happens world between ∧ between.Undergoes made after := by
  constructor
  · rintro (_ | ⟨hfirst, hrest⟩)
    exact ⟨_, hfirst, hrest⟩
  · rintro ⟨between, hfirst, hrest⟩
    exact .cons hfirst hrest

theorem undergoes_singleton_iff : world.Undergoes [access] after ↔ access.Happens world after := by
  rw [undergoes_cons_iff]
  simp only [undergoes_nil_iff]
  exact ⟨fun ⟨_, hhappens, hsame⟩ => hsame ▸ hhappens, fun hhappens => ⟨after, hhappens, rfl⟩⟩

/-- Two dialogues in succession happen if the second does from the world that the first leaves. -/
theorem undergoes_append_iff : world.Undergoes (early ++ late) after ↔
    ∃ between, world.Undergoes early between ∧ between.Undergoes late after := by
  induction early generalizing world with
  | nil => simp [undergoes_nil_iff]
  | cons access early ih =>
    simp only [List.cons_append, undergoes_cons_iff, ih]
    constructor
    · rintro ⟨first, hhappens, between, hbehind, hrest⟩
      exact ⟨between, ⟨first, hhappens, hbehind⟩, hrest⟩
    · rintro ⟨between, ⟨first, hhappens, hbehind⟩, hrest⟩
      exact ⟨first, hhappens, between, hbehind, hrest⟩

/-- The record of accesses grows by just the dialogue, newest first. -/
theorem Undergoes.accesses (hundergone : world.Undergoes made after) :
    after.accesses = made.reverse ++ world.accesses := by
  induction hundergone with
  | nil world => rfl
  | cons hfirst hrest ih =>
    rw [ih, List.reverse_cons, List.append_assoc]
    congr 1
    cases hfirst with
    | read hshown => exact HostM.accesses_of_read hshown
    | write hwrote => exact HostM.accesses_of_write hwrote

/-- Accesses leave the patience of a world as it is: only waits without a limit read it. -/
theorem Undergoes.patience (hundergone : world.Undergoes made after) :
    after.patience = world.patience := by
  induction hundergone with
  | nil world => rfl
  | cons hfirst hrest ih =>
    rw [ih]
    cases hfirst with
    | read hshown =>
      cases hshown
      rfl
    | write hwrote =>
      cases hwrote
      rfl

end World

namespace HostM

/-- The dialogues that a step can have, and what it returns behind each. Over any device the step
returns `a` from one world to another exactly if some dialogue that ends in `a` happens between
them, so a step with dialogues neither halts nor changes the world in any other way. -/
def Converses (step : HostM σ α) (talk : List Access → α → Prop) : Prop :=
  ∀ world result after, step.exec world = (result, after) ↔
    ∃ made a, talk made a ∧ result = .ok a ∧ world.Undergoes made after

namespace Converses

variable {talk : List Access → α → Prop} {retalk : α → List Access → β → Prop}
  {window : Window} {offset : Nat}

/-- Dialogues may be told in another way that admits the same ones with the same ends. -/
theorem congr {step : HostM σ α} {other : List Access → α → Prop}
    (hsame : ∀ made a, other made a ↔ talk made a) (htalks : step.Converses other) :
    step.Converses talk := by
  intro world result after
  rw [htalks]
  simp only [hsame]

/-- A step with dialogues returns from any world, and it does so by one of its dialogues. -/
theorem exists_of_exec {step : HostM σ α} (htalks : step.Converses talk) (world : World σ) :
    ∃ made a after, talk made a ∧ step.exec world = (.ok a, after) ∧
      world.Undergoes made after := by
  rcases hended : step.exec world with ⟨result, after⟩
  obtain ⟨made, a, his, rfl, hundergone⟩ := (htalks world result after).1 hended
  exact ⟨made, a, after, his, rfl, hundergone⟩

/-- If one of its dialogues happens from a world, the step returns what that dialogue ends in. -/
theorem exec_eq {step : HostM σ α} (htalks : step.Converses talk) {made : List Access} {a : α}
    (his : talk made a) {world after : World σ} (hundergone : world.Undergoes made after) :
    step.exec world = (.ok a, after) :=
  (htalks world _ after).2 ⟨made, a, his, rfl, hundergone⟩

theorem pure (a : α) :
    (pure a : HostM σ α).Converses fun made b => made = [] ∧ b = a := by
  intro world result after
  constructor
  · intro hended
    cases hended
    exact ⟨[], a, ⟨rfl, rfl⟩, rfl, .nil world⟩
  · rintro ⟨_, _, ⟨rfl, rfl⟩, rfl, ⟨⟩⟩
    rfl

/-- The dialogue of a read is the one access, and its end is the value that the access shows. -/
theorem readRegister :
    (readRegister window offset : HostM σ UInt32).Converses fun made value =>
      made = [.read window offset value] := by
  intro world result after
  constructor
  · intro hended
    cases hended
    exact ⟨_, _, rfl, rfl, .cons (.read rfl) (.nil _)⟩
  · rintro ⟨_, value, rfl, rfl, hundergone⟩
    cases World.undergoes_singleton_iff.1 hundergone with
    | read hshown => exact hshown

theorem writeRegister (value : UInt32) :
    (writeRegister window offset value : HostM σ Unit).Converses fun made _ =>
      made = [.write window offset value] := by
  intro world result after
  constructor
  · intro hended
    cases hended
    exact ⟨_, (), rfl, rfl, .cons (.write rfl) (.nil _)⟩
  · rintro ⟨_, _, rfl, rfl, hundergone⟩
    cases World.undergoes_singleton_iff.1 hundergone with
    | write hwrote => exact hwrote

/-- The dialogues of two steps in succession: one of the first, then one of the second as it goes on
with what the first returned. -/
theorem bind {step : HostM σ α} {next : α → HostM σ β} (hfirst : step.Converses talk)
    (hsecond : ∀ a, (next a).Converses (retalk a)) :
    (step >>= next).Converses fun made b =>
      ∃ early a late, made = early ++ late ∧ talk early a ∧ retalk a late b := by
  intro world result after
  constructor
  · intro hended
    obtain ⟨early, a, between, his, hbegun, hundergone⟩ := hfirst.exists_of_exec world
    rw [exec_bind_ok hbegun] at hended
    obtain ⟨late, b, hgoesOn, rfl, hbehind⟩ := (hsecond a between result after).1 hended
    exact ⟨early ++ late, b, ⟨early, a, late, rfl, his, hgoesOn⟩, rfl,
      World.undergoes_append_iff.2 ⟨between, hundergone, hbehind⟩⟩
  · rintro ⟨_, b, ⟨early, a, late, rfl, his, hgoesOn⟩, rfl, hundergone⟩
    obtain ⟨between, hbefore, hbehind⟩ := World.undergoes_append_iff.1 hundergone
    rw [exec_bind_ok (hfirst.exec_eq his hbefore)]
    exact (hsecond a).exec_eq hgoesOn hbehind

/-- A step that begins with a read: the rest of the dialogue may depend on the value shown. -/
theorem readThen {next : UInt32 → HostM σ β} {retalk : UInt32 → List Access → β → Prop}
    (hsecond : ∀ value, (next value).Converses (retalk value)) :
    (HostM.readRegister window offset >>= next).Converses fun made b =>
      ∃ value late, made = .read window offset value :: late ∧ retalk value late b := by
  apply congr _ (readRegister.bind hsecond)
  intro made b
  constructor
  · rintro ⟨_, value, late, rfl, rfl, hgoesOn⟩
    exact ⟨value, late, rfl, hgoesOn⟩
  · rintro ⟨value, late, rfl, hgoesOn⟩
    exact ⟨_, value, late, rfl, rfl, hgoesOn⟩

/-- A step that begins with a write: the rest of the dialogue follows it. -/
theorem writeThen {value : UInt32} {next : Unit → HostM σ β} {retalk : List Access → β → Prop}
    (hsecond : (next ()).Converses retalk) :
    (HostM.writeRegister window offset value >>= next).Converses fun made b =>
      ∃ late, made = .write window offset value :: late ∧ retalk late b := by
  apply congr _ ((writeRegister value).bind fun _ => hsecond)
  intro made b
  constructor
  · rintro ⟨_, _, late, rfl, rfl, hgoesOn⟩
    exact ⟨late, rfl, hgoesOn⟩
  · rintro ⟨late, rfl, hgoesOn⟩
    exact ⟨_, (), late, rfl, rfl, hgoesOn⟩

theorem ite {condition : Prop} [Decidable condition] {step other : HostM σ α}
    {orElse : List Access → α → Prop} (hfirst : step.Converses talk)
    (hsecond : other.Converses orElse) :
    (if condition then step else other).Converses fun made a =>
      condition ∧ talk made a ∨ ¬condition ∧ orElse made a := by
  by_cases hholds : condition
  · rw [if_pos hholds]
    exact hfirst.congr fun made a => by simp [hholds]
  · rw [if_neg hholds]
    exact hsecond.congr fun made a => by simp [hholds]

end Converses

end HostM

/-! Waits. -/

/-- The reads of a wait, and whether it succeeded. Each read either misses or hits what is waited
for; the wait stops behind the first hit, and it fails behind as many misses as the limit allows.
With a limit of zero nothing is read and the wait fails. -/
inductive Access.Waited (miss hit : Access → Prop) (limit : Nat) : List Access → Bool → Prop where
  /-- The last read shows it, and no read before. -/
  | shown {misses : List Access} {last : Access} (hfew : misses.length < limit)
      (hmissed : ∀ access ∈ misses, miss access) (hhits : hit last) :
      Waited miss hit limit (misses ++ [last]) true
  /-- As many reads as there may be do not show it. -/
  | never {misses : List Access} (hall : misses.length = limit)
      (hmissed : ∀ access ∈ misses, miss access) : Waited miss hit limit misses false

namespace Access

variable {miss hit : Access → Prop} {limit : Nat} {made : List Access} {shown : Bool}

/-- What holds of every read that misses and of every read that hits holds of all reads of a wait,
however it ended. -/
theorem Waited.forall_mem {holds : Access → Prop} (hwaited : Waited miss hit limit made shown)
    (hmissing : ∀ access, miss access → holds access)
    (hhitting : ∀ access, hit access → holds access) : ∀ access ∈ made, holds access := by
  intro access hmember
  cases hwaited with
  | shown hfew hmissed hhits =>
    rcases List.mem_append.1 hmember with hearly | hlast
    · exact hmissing access (hmissed access hearly)
    · rw [List.mem_singleton.1 hlast]
      exact hhitting _ hhits
  | never hall hmissed => exact hmissing access (hmissed access hmember)

theorem waited_zero_iff : Waited miss hit 0 made shown ↔ made = [] ∧ shown = false := by
  constructor
  · rintro (⟨hfew, _, _⟩ | ⟨hall, _⟩)
    · exact absurd hfew (Nat.not_lt_zero _)
    · exact ⟨List.eq_nil_of_length_eq_zero hall, rfl⟩
  · rintro ⟨rfl, rfl⟩
    exact .never rfl (by simp)

/-- A wait with reads left either hits with its first read, or misses and goes on with one read
less. -/
theorem waited_succ_iff : Waited miss hit (limit + 1) made shown ↔
    (∃ access, made = [access] ∧ hit access ∧ shown = true) ∨
      ∃ access rest, made = access :: rest ∧ miss access ∧ Waited miss hit limit rest shown := by
  constructor
  · rintro (@⟨misses, last, hfew, hmissed, hhits⟩ | ⟨hall, hmissed⟩)
    · cases misses with
      | nil => exact .inl ⟨last, rfl, hhits, rfl⟩
      | cons first others =>
        obtain ⟨hhead, hlater⟩ := List.forall_mem_cons.1 hmissed
        exact .inr ⟨first, _, rfl, hhead, .shown (Nat.lt_of_succ_lt_succ hfew) hlater hhits⟩
    · cases made with
      | nil => cases hall
      | cons first others =>
        obtain ⟨hhead, hlater⟩ := List.forall_mem_cons.1 hmissed
        exact .inr ⟨first, _, rfl, hhead, .never (Nat.succ.inj hall) hlater⟩
  · rintro (⟨access, rfl, hhits, rfl⟩ | ⟨access, rest, rfl, hhead, ⟨hfew, hlater, hhits⟩ |
      ⟨hall, hlater⟩⟩)
    · rw [← List.nil_append [access]]
      exact .shown (Nat.succ_pos _) (by simp) hhits
    · rw [← List.cons_append]
      exact .shown (Nat.succ_lt_succ hfew) (List.forall_mem_cons.2 ⟨hhead, hlater⟩) hhits
    · exact .never (congrArg Nat.succ hall) (List.forall_mem_cons.2 ⟨hhead, hlater⟩)

end Access

end Ahci
