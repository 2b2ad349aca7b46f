import Ahci.Bench.Trial
import Ahci.Proofs.CommandIssue

/-!
Who has the slots of a port. Owners claim slots one after another, act on what they were given, and
give it back or forget to. A slot that its owner forgot is kept, and no later owner gets it; every
other slot is free between the claims. So what a claim comes to depends on the kept slots and on
those that the adapter owns, and on nothing else that was done before.
-/

namespace Ahci

namespace SlotArena

/-- One arena comes from another by a change of one slot. The count and all the other slots stay. -/
structure Moves (before : SlotArena) (slot : Nat) (state : SlotState) (after : SlotArena) :
    Prop where
  count : after.count = before.count
  states : ∀ other < slotCount,
    after.state? other = if other = slot then some state else before.state? other

/-- The slots that are not free are the ones that are kept, each of them below the count. -/
structure Kept (arena : SlotArena) (kept : List Nat) : Prop where
  below : ∀ slot ∈ kept, slot < arena.count
  distinct : kept.Nodup
  free_iff : ∀ slot < slotCount, arena.state? slot = some .free ↔ slot ∉ kept

variable {arena : SlotArena} {slot : Nat} {busy : UInt32} {kept : List Nat} {state : SlotState}

theorem moves_mark (arena : SlotArena) (slot : Nat) (state : SlotState) :
    arena.Moves slot state (arena.mark slot state) := by
  refine ⟨rfl, fun other hbound => ?_⟩
  rw [state?_mark]
  simp only [hbound, and_true, eq_comm]

/-- A claim fails just if no slot below the count is open, and then it tells the count and the busy
slots. -/
theorem claim_eq_error_iff {shortage : SlotShortage} : arena.claim busy = .error shortage ↔
    shortage = ⟨arena.count, busy⟩ ∧ ∀ slot < arena.count, arena.isOpen busy slot = false := by
  unfold claim
  split
  · next found hopen =>
    rw [List.find?_range_eq_some] at hopen
    simp only [reduceCtorEq, false_iff]
    rintro ⟨_, hclosed⟩
    rw [hclosed found (List.mem_range.1 hopen.2.1)] at hopen
    exact Bool.false_ne_true hopen.1
  · next hnone =>
    rw [List.find?_range_eq_none] at hnone
    have hclosed : ∀ slot < arena.count, arena.isOpen busy slot = false := fun slot hbelow => by
      simpa using hnone slot hbelow
    rw [Except.error.injEq, and_iff_left hclosed, eq_comm]

theorem kept_ofCount (count : Nat) : (ofCount count).Kept [] := by
  refine ⟨by simp, List.nodup_nil, fun slot hbound => ?_⟩
  simp [state?_ofCount count hbound]

theorem Lowest.bound (hlowest : arena.Lowest busy slot) : slot < slotCount :=
  Nat.lt_of_lt_of_le hlowest.below arena.count_le

namespace Kept

theorem unowned (howned : arena.Kept kept) (hlowest : arena.Lowest busy slot) : slot ∉ kept :=
  (howned.free_iff slot hlowest.bound).1 hlowest.free

theorem mark (howned : arena.Kept kept) (hlowest : arena.Lowest busy slot) (hused : state ≠ .free) :
    (arena.mark slot state).Kept (kept ++ [slot]) := by
  have hfresh := howned.unowned hlowest
  constructor
  · intro other hmember
    rcases List.mem_append.1 hmember with hearly | hlate
    · exact howned.below other hearly
    · rw [List.mem_singleton.1 hlate]
      exact hlowest.below
  · exact List.nodup_append.2 ⟨howned.distinct, List.nodup_singleton slot, by
      rintro other hearly _ hlate rfl
      exact hfresh (List.mem_singleton.1 hlate ▸ hearly)⟩
  · intro other hbound
    rw [(moves_mark arena slot state).states other hbound]
    split
    · next hsame => simp [hsame, hused]
    · next hdiffer => simp [howned.free_iff other hbound, hdiffer]

end Kept

end SlotArena

namespace Bench

/-- What an act makes of a slot. -/
def SlotAct.state : SlotAct → SlotState
  | .issue => .issued
  | .finish => .done

/-- What a slot is once it was acted on. -/
def SlotAct.lastState (state : SlotState) (acts : List SlotAct) : SlotState :=
  acts.foldl (fun _ act => act.state) state

/-- Acts that can follow each other on a slot: it is issued only if it is claimed, and it may be
done at any time. -/
def SlotAct.Allowed : SlotState → List SlotAct → Prop
  | _, [] => True
  | state, .issue :: rest => state = .claimed ∧ Allowed .issued rest
  | _, .finish :: rest => Allowed .done rest

theorem SlotAct.lastState_ne_free {state : SlotState} (hused : state ≠ .free)
    (acts : List SlotAct) : lastState state acts ≠ .free := by
  induction acts generalizing state with
  | nil => exact hused
  | cons act rest ih =>
    apply ih
    cases act with
    | issue => exact SlotState.noConfusion
    | finish => exact SlotState.noConfusion

/-- By induction over the acts. Acts that are allowed go through, they change no other slot, and the
states that they pass through are reported. -/
theorem runActs_mark (arena : SlotArena) {slot : Nat} (hbound : slot < slotCount)
    {state : SlotState} {acts : List SlotAct} (hallowed : SlotAct.Allowed state acts) :
    runActs slot (arena.mark slot state) acts =
      .ok (arena.mark slot (SlotAct.lastState state acts), state :: acts.map SlotAct.state) := by
  have hshown (state : SlotState) : (arena.mark slot state).state? slot = some state := by
    rw [SlotArena.state?_mark, if_pos ⟨rfl, hbound⟩]
  induction acts generalizing state with
  | nil => rw [runActs, hshown]; rfl
  | cons act rest ih =>
    have hacted : act.run slot (arena.mark slot state) = .ok (arena.mark slot act.state) ∧
        SlotAct.Allowed act.state rest := by
      cases act with
      | issue =>
        rw [SlotAct.run, if_pos (by rw [hshown, hallowed.1]), SlotArena.mark_mark]
        exact ⟨rfl, hallowed.2⟩
      | finish =>
        rw [SlotAct.run, SlotArena.mark_mark]
        exact ⟨rfl, hallowed⟩
    rw [runActs, hacted.1, hshown]
    simp only [Except.bind, bind, ih hacted.2]
    rfl

/-- Steps that their owner may take: the acts on a slot can follow each other, and only slots of the
table are looked at. Others would halt. -/
def SlotStep.Orderly : SlotStep → Prop
  | .claim _ acts _ => SlotAct.Allowed .claimed acts
  | .look slot => slot < slotCount

/-- The slot that is kept by a step, if its owner had one and forgot to give it back. -/
def SlotStep.keeps : SlotStep → SlotAnswer → List Nat
  | .claim _ _ true, .claimed slot _ => [slot]
  | _, _ => []

/-- The slots that were kept by the steps of a run. -/
def keptSlots (steps : List SlotStep) (answers : List SlotAnswer) : List Nat :=
  (List.zipWith SlotStep.keeps steps answers).flatten

/-- A slot that was claimed: the lowest open one, which nobody kept. Nothing but this slot changes
while its owner acts on it, and once it is given back, all slots are as before the claim. -/
structure Leases (arena : SlotArena) (kept : List Nat) (busy : UInt32) (slot : Nat)
    (claimed : SlotArena) : Prop where
  lowest : arena.Lowest busy slot
  fresh : slot ∉ kept
  moves : arena.Moves slot .claimed claimed
  acted : ∀ acts, SlotAct.Allowed .claimed acts → ∃ last states state,
    runActs slot claimed acts = .ok (last, states) ∧ state ≠ .free ∧
      claimed.Moves slot state last ∧ last.Moves slot .free (last.release slot) ∧
      (SlotStep.claim busy acts true).run arena = .ok (.claimed slot states, last) ∧
      (SlotStep.claim busy acts false).run arena = .ok (.claimed slot states, arena)

/-- What becomes of a claim, whichever slots the adapter owns. It is served just if some slot below
the count is free and not owned, and a claim that is refused changes nothing. -/
structure Serves (arena : SlotArena) (kept : List Nat) (busy : UInt32) : Prop where
  served_iff : (∃ slot claimed, arena.claim busy = .ok (slot, claimed)) ↔
    ∃ slot < arena.count, arena.state? slot = some .free ∧ Word.test busy slot = false
  served : ∀ slot claimed, arena.claim busy = .ok (slot, claimed) →
    Leases arena kept busy slot claimed
  refused : ∀ shortage, arena.claim busy = .error shortage →
    shortage = ⟨arena.count, busy⟩ ∧ shortage.toIoError = .notReady ∧ ∀ acts forget,
      (SlotStep.claim busy acts forget).run arena = .ok (.refused shortage, arena)

section

variable {arena claimed : SlotArena} {kept : List Nat} {busy : UInt32} {slot : Nat}
  {shortage : SlotShortage}

/-- A claim that is served, with what its owner does: a slot that is given back leaves no trace, and
one that is forgotten stays as it was last marked. -/
theorem run_claim_of_served (hserved : arena.claim busy = .ok (slot, claimed))
    {acts : List SlotAct} (hallowed : SlotAct.Allowed .claimed acts) (forget : Bool) :
    (SlotStep.claim busy acts forget).run arena =
      .ok (.claimed slot (.claimed :: acts.map SlotAct.state),
        if forget then arena.mark slot (SlotAct.lastState .claimed acts) else arena) := by
  obtain ⟨rfl, hlowest⟩ := SlotArena.claim_eq_ok_iff_lowest.1 hserved
  have hfreed := SlotArena.release_marks_of_free hlowest.free [SlotAct.lastState .claimed acts]
  rw [SlotStep.run, hserved]
  simp only [runActs_mark arena hlowest.bound hallowed, bind, Except.bind, pure, Except.pure]
  cases forget with
  | true => rfl
  | false => exact congrArg (fun next => Except.ok (SlotAnswer.claimed slot _, next)) hfreed

theorem run_claim_of_refused (hrefused : arena.claim busy = .error shortage) (acts : List SlotAct)
    (forget : Bool) :
    (SlotStep.claim busy acts forget).run arena = .ok (.refused shortage, arena) := by
  rw [SlotStep.run, hrefused]
  rfl

/-- Every claim that is served on kept slots leases the slot that it returns. -/
theorem leases_of_claim (howned : arena.Kept kept)
    (hserved : arena.claim busy = .ok (slot, claimed)) : Leases arena kept busy slot claimed := by
  obtain ⟨rfl, hlowest⟩ := SlotArena.claim_eq_ok_iff_lowest.1 hserved
  refine ⟨hlowest, howned.unowned hlowest, SlotArena.moves_mark arena slot .claimed, ?_⟩
  intro acts hallowed
  refine ⟨_, _, SlotAct.lastState .claimed acts, runActs_mark arena hlowest.bound hallowed,
    SlotAct.lastState_ne_free (by decide) acts, ?_, SlotArena.moves_mark _ slot .free,
    run_claim_of_served hserved hallowed true, run_claim_of_served hserved hallowed false⟩
  have hmoved := SlotArena.moves_mark (arena.mark slot .claimed) slot
    (SlotAct.lastState .claimed acts)
  rwa [SlotArena.mark_mark] at hmoved

theorem serves_of_kept (howned : arena.Kept kept) (busy : UInt32) : Serves arena kept busy := by
  constructor
  · constructor
    · rintro ⟨slot, claimed, hserved⟩
      have hlowest := (SlotArena.claim_eq_ok_iff_lowest.1 hserved).2
      exact ⟨slot, hlowest.below, hlowest.free, hlowest.unowned⟩
    · rintro ⟨slot, hbelow, hopen⟩
      cases hclaim : arena.claim busy with
      | ok found => exact ⟨found.1, found.2, rfl⟩
      | error shortage =>
        have hclosed := (SlotArena.claim_eq_error_iff.1 hclaim).2 slot hbelow
        rw [SlotArena.isOpen_eq_true_iff.2 hopen] at hclosed
        exact absurd hclosed Bool.noConfusion
  · exact fun slot claimed => leases_of_claim howned
  · intro shortage hrefused
    exact ⟨(SlotArena.claim_eq_error_iff.1 hrefused).1, rfl, run_claim_of_refused hrefused⟩

/-- An orderly step goes through, and the slot that its owner forgets is kept from then on. -/
theorem SlotStep.exists_run (howned : arena.Kept kept) {step : SlotStep} (horderly : step.Orderly) :
    ∃ answer after, step.run arena = .ok (answer, after) ∧ after.count = arena.count ∧
      after.Kept (kept ++ step.keeps answer) := by
  cases step with
  | claim busy acts forget =>
    cases hclaim : arena.claim busy with
    | error shortage =>
      refine ⟨_, _, run_claim_of_refused hclaim acts forget, rfl, ?_⟩
      rw [SlotStep.keeps, List.append_nil]
      · exact howned
      · exact nofun
    | ok found =>
      have hlowest := (SlotArena.claim_eq_ok_iff_lowest.1 hclaim).2
      refine ⟨_, _, run_claim_of_served hclaim horderly forget, ?_⟩
      cases forget with
      | true => exact ⟨rfl, howned.mark hlowest (SlotAct.lastState_ne_free (by decide) acts)⟩
      | false => exact ⟨rfl, (List.append_nil kept).symm ▸ howned⟩
  | look slot =>
    have hshown : arena.state? slot = some arena.states[slot] := Vector.getElem?_eq_getElem horderly
    refine ⟨.state arena.states[slot], arena, ?_, rfl, (List.append_nil kept).symm ▸ howned⟩
    rw [SlotStep.run, hshown]
    rfl

/-- By induction over the steps. Orderly steps of any number go through, and the kept slots are the
ones that were forgotten on the way. -/
theorem exists_runSlots (howned : arena.Kept kept) {steps : List SlotStep}
    (horderly : ∀ step ∈ steps, step.Orderly) :
    ∃ answers after, runSlots arena steps = .ok (answers, after) ∧ after.count = arena.count ∧
      after.Kept (kept ++ keptSlots steps answers) := by
  induction steps generalizing arena kept with
  | nil => exact ⟨[], arena, rfl, rfl, (List.append_nil kept).symm ▸ howned⟩
  | cons step steps ih =>
    obtain ⟨hfirst, hrest⟩ := List.forall_mem_cons.1 horderly
    obtain ⟨answer, next, hran, hcount, howned⟩ := SlotStep.exists_run howned hfirst
    obtain ⟨answers, after, hfurther, htotal, howned⟩ := ih howned hrest
    refine ⟨answer :: answers, after, ?_, htotal.trans hcount, ?_⟩
    · rw [runSlots, hran]
      simp only [bind, Except.bind, hfurther]
      rfl
    · rwa [keptSlots, List.zipWith_cons_cons, List.flatten_cons, ← List.append_assoc]

end

/-- For every count and every list of orderly steps, over any masks that the adapter shows. The run
goes through; behind it the slots that are not free are just the ones that an owner forgot, all of
them different; slots at or above the count are free, as they were never handed out; and what comes
of the next claim is known for every mask. Since this is so of every run, it is so behind each of
the steps of a run: a slot that was forgotten is never handed out again. -/
theorem kept_slots_stay_taken (count : Nat) (steps : List SlotStep)
    (horderly : ∀ step ∈ steps, step.Orderly) :
    ∃ answers arena, runSlots (.ofCount count) steps = .ok (answers, arena) ∧
      arena.count = min count 32 ∧
      (∀ slot < 32, arena.state? slot ≠ some .free ↔ slot ∈ keptSlots steps answers) ∧
      (∀ slot < 32, min count 32 ≤ slot → arena.state? slot = some .free) ∧
      (keptSlots steps answers).Nodup ∧
      ∀ busy, Serves arena (keptSlots steps answers) busy := by
  obtain ⟨answers, arena, hran, htotal, howned⟩ :=
    exists_runSlots (SlotArena.kept_ofCount count) horderly
  rw [List.nil_append] at howned
  refine ⟨answers, arena, hran, htotal, ?_, ?_, howned.distinct, serves_of_kept howned⟩
  · intro slot hbound
    rw [Ne, howned.free_iff slot hbound, not_not]
  · intro slot hbound habove
    refine (howned.free_iff slot hbound).2 fun hmember => ?_
    have hbelow := howned.below slot hmember
    rw [htotal] at hbelow
    exact absurd hbelow (Nat.not_lt.2 habove)

/-- Four owners, one after another: the first and the third are forgetful, and the last one comes
while the adapter owns the third slot. -/
def fourOwners : List SlotStep :=
  [.claim 1 [.issue, .finish] true, .claim 0 [.finish] false, .claim 0 [] true,
    .claim 4 [.issue] true]

/-- Orderly steps: of three slots the first two are kept, and the third is to be had unless the
adapter owns it. -/
theorem kept_slots_stay_taken_of_three : ∃ answers arena,
    runSlots (.ofCount 3) fourOwners = .ok (answers, arena) ∧
      keptSlots fourOwners answers = [1, 0] ∧
      (∃ slot claimed, arena.claim 0 = .ok (slot, claimed)) ∧
      ¬∃ slot claimed, arena.claim 4 = .ok (slot, claimed) := by
  obtain ⟨answers, arena, hran, hcount, hkept, _, _, hserves⟩ :=
    kept_slots_stay_taken 3 fourOwners (by simp [fourOwners, SlotStep.Orderly, SlotAct.Allowed])
  have hnamed : keptSlots fourOwners answers = [1, 0] :=
    (Except.ok.inj (congrArg (Except.map (keptSlots fourOwners ·.1)) hran)).symm
  rw [hnamed] at hkept
  refine ⟨answers, arena, hran, hnamed, (hserves 0).served_iff.2 ⟨2, ?_, ?_, rfl⟩, ?_⟩
  · rw [hcount]
    decide
  · exact not_not.1 fun hused => absurd ((hkept 2 (by decide)).1 hused) (by decide)
  · rw [(hserves 4).served_iff]
    rintro ⟨slot, hbelow, hfree, hunowned⟩
    have hlow : slot < 3 := by rwa [hcount] at hbelow
    have hother : slot ∉ [1, 0] := fun hmember => (hkept slot (by omega)).2 hmember hfree
    simp only [List.mem_cons, List.not_mem_nil, or_false, not_or] at hother
    obtain rfl : slot = 2 := by omega
    exact absurd hunowned (by decide)

end Bench

end Ahci
