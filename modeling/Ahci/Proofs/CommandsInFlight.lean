import Ahci.Proofs.CommandIssue
import Ahci.Proofs.FailedBringUp

/-!
Commands in flight, over any device. A command is settled when PxCI shows its slot clear, or when
the engine is restarted, which alone writes PxSERR once a port is up. Whenever the driver issues
a command, all the ones before it are settled. So where bits of PxCI are set by the driver alone,
a slot that is busy when another command is issued belongs to one that failed, and whose bit the
adapter kept over the restart that was meant to withdraw it.
-/

namespace Ahci

variable {σ τ α β : Type}

namespace Access

/-- An access that neither reads nor writes PxCI of the window. -/
def Elsewhere (window : Window) (access : Access) : Prop :=
  ∀ value, access ≠ .read window PortRegister.ci value ∧
    access ≠ .write window PortRegister.ci value

/-- Each command among some accesses, newest first, was shown ended since it was issued, or was
followed by a restart of the engine, which is told by its write to PxSERR. -/
def Settled (window : Window) (made : List Access) : Prop :=
  ∀ later slot earlier, slot < slotCount →
    made = later ++ .write window PortRegister.ci (Word.only slot) :: earlier →
    (∃ value, .read window PortRegister.ci value ∈ later ∧ Word.test value slot = false) ∨
      .write window PortRegister.serr allBits ∈ later

/-- What comes before a command, newest access first: PxSACT and PxCI were read one after the other,
the slot is open in them, PxCI was not touched since, and all commands before that were settled. -/
structure Claimed (window : Window) (slot : Nat) (outstanding issued : UInt32)
    (before made : List Access) : Prop where
  bound : slot < slotCount
  looked : ∃ asked, made = asked ++ .read window PortRegister.ci issued ::
      .read window PortRegister.sact outstanding :: before ∧
    ∀ access ∈ asked, access.Elsewhere window
  open_ : Word.test (outstanding ||| issued) slot = false
  settled : Settled window before

/-- Nothing is written to PxCI but one slot that was claimed, each time. -/
def Orderly (window : Window) (made : List Access) : Prop :=
  ∀ later value earlier, made = later ++ .write window PortRegister.ci value :: earlier →
    ∃ slot outstanding issued before, value = Word.only slot ∧
      Claimed window slot outstanding issued before earlier

variable {window : Window} {made more : List Access}

theorem Within.elsewhere {traffic : Traffic} (hwithin : Within window traffic made)
    (hother : ∀ offset value, traffic offset value → offset ≠ PortRegister.ci) :
    ∀ access ∈ made, ∀ value, access ≠ .write window PortRegister.ci value := by
  rintro access hmember value rfl
  rcases hwithin _ hmember with ⟨offset, value, hsame⟩ | ⟨offset, value, hsent, hsame⟩ <;>
    cases hsame
  exact hother _ _ hsent rfl

/-- A command among some accesses behind which nothing was issued is one of the first. -/
theorem split_behind {later earlier : List Access} {value : UInt32}
    (hquiet : ∀ access ∈ more, ∀ value, access ≠ .write window PortRegister.ci value)
    (hsplit : more ++ made = later ++ .write window PortRegister.ci value :: earlier) :
    ∃ between, later = more ++ between ∧
      made = between ++ .write window PortRegister.ci value :: earlier := by
  rcases List.append_eq_append_iff.1 hsplit with ⟨between, rfl, hrest⟩ | ⟨between, rfl, hrest⟩
  · exact ⟨between, rfl, hrest⟩
  · cases between with
    | nil => exact ⟨[], by simp, hrest.symm⟩
    | cons first others =>
      cases hrest
      exact absurd rfl (hquiet _ (by simp) value)

theorem Orderly.behind (horderly : Orderly window made)
    (hquiet : ∀ access ∈ more, ∀ value, access ≠ .write window PortRegister.ci value) :
    Orderly window (more ++ made) := by
  intro later value earlier hsplit
  obtain ⟨between, _, hrest⟩ := split_behind hquiet hsplit
  exact horderly between value earlier hrest

theorem Settled.behind (hsettled : Settled window made)
    (hquiet : ∀ access ∈ more, ∀ value, access ≠ .write window PortRegister.ci value) :
    Settled window (more ++ made) := by
  intro later slot earlier hbound hsplit
  obtain ⟨between, rfl, hrest⟩ := split_behind hquiet hsplit
  rcases hsettled between slot earlier hbound hrest with ⟨value, hmember, hclear⟩ | hrestarted
  · exact .inl ⟨value, List.mem_append_right _ hmember, hclear⟩
  · exact .inr (List.mem_append_right _ hrestarted)

theorem Orderly.issue {slot : Nat} {outstanding issued : UInt32} {before : List Access}
    (horderly : Orderly window made)
    (hclaimed : Claimed window slot outstanding issued before made) :
    Orderly window (.write window PortRegister.ci (Word.only slot) :: made) := by
  intro later value earlier hsplit
  cases later with
  | nil =>
    cases hsplit
    exact ⟨slot, outstanding, issued, before, rfl, hclaimed⟩
  | cons first others =>
    cases hsplit
    exact horderly others value earlier rfl

/-- A command whose slot PxCI showed clear since is settled. -/
theorem Settled.ended {slot : Nat} {polls : List Access} {shown : UInt32}
    (hsettled : Settled window made) (hbound : slot < slotCount)
    (hquiet : ∀ access ∈ polls, ∀ value, access ≠ .write window PortRegister.ci value)
    (hmember : .read window PortRegister.ci shown ∈ polls)
    (hclear : Word.test shown slot = false) :
    Settled window (polls ++ .write window PortRegister.ci (Word.only slot) :: made) := by
  intro later other earlier hlow hsplit
  obtain ⟨between, rfl, hrest⟩ := split_behind hquiet hsplit
  cases between with
  | nil =>
    have hsame : slot = other := by
      have halike : Word.only slot = Word.only other :=
        (Access.write.inj (List.cons.inj hrest).1).2.2
      have hshows : Word.test (Word.only other) slot = true := by
        rw [← halike, Word.test_only]
        simp [show slot < 32 from hbound]
      rw [Word.test_only] at hshows
      simp only [Bool.and_eq_true, decide_eq_true_eq] at hshows
      exact hshows.2.symm
    subst hsame
    exact .inl ⟨shown, List.mem_append_left _ hmember, hclear⟩
  | cons first others =>
    cases hrest
    rcases hsettled others other earlier hlow rfl with ⟨value, hfound, hcleared⟩ | hrestarted
    · exact .inl ⟨value, List.mem_append_right _ (List.mem_cons_of_mem _ hfound), hcleared⟩
    · exact .inr (List.mem_append_right _ (List.mem_cons_of_mem _ hrestarted))

end Access

/-- A failure that the registers are blamed for may have stopped the engine, so it needs a
restart. -/
theorem CommandError.Blamed.needsRecovery {status file : UInt32} {packet : Bool}
    {error : CommandError} (hblamed : Blamed status file packet error) :
    error.needsRecovery = true := by
  cases hblamed <;> rfl

/-! Accesses since a port came up. -/

/-- Since an earlier world nothing was written to PxCI but slots that were claimed, and each command
was settled, unless a restart is owed. -/
def World.Tidy (world : World σ) (owing : Bool) (base : World σ) (window : Window) : Prop :=
  ∃ made, world.accesses = made ++ base.accesses ∧ Access.Orderly window made ∧
    (owing = false → Access.Settled window made)

namespace World.Tidy

variable {owing : Bool} {base world after : World σ} {window : Window}

theorem relax (htidy : world.Tidy false base window) : world.Tidy owing base window := by
  obtain ⟨made, haccesses, horderly, hsettled⟩ := htidy
  exact ⟨made, haccesses, horderly, fun _ => hsettled rfl⟩

theorem owing_more (htidy : world.Tidy owing base window) : world.Tidy true base window := by
  obtain ⟨made, haccesses, horderly, _⟩ := htidy
  exact ⟨made, haccesses, horderly, fun himpossible => by cases himpossible⟩

theorem behind (htidy : world.Tidy owing base window) {made : List Access}
    (haccesses : after.accesses = made ++ world.accesses)
    (hquiet : ∀ access ∈ made, ∀ value, access ≠ .write window PortRegister.ci value) :
    after.Tidy owing base window := by
  obtain ⟨earlier, hgrew, horderly, hsettled⟩ := htidy
  refine ⟨made ++ earlier, by rw [haccesses, hgrew, List.append_assoc], horderly.behind hquiet, ?_⟩
  exact fun hsettledBefore => (hsettled hsettledBefore).behind hquiet

/-- A command that was issued in a slot that was just claimed leaves a restart owed, unless it
was shown ended. -/
theorem issue (htidy : world.Tidy false base window) {slot : Nat} {outstanding issued : UInt32}
    {asked polls : List Access} (hbound : slot < slotCount)
    (hopen : Word.test (outstanding ||| issued) slot = false)
    (helsewhere : ∀ access ∈ asked, access.Elsewhere window)
    (hquiet : ∀ access ∈ polls, ∀ value, access ≠ .write window PortRegister.ci value)
    (hgrew : after.accesses = polls ++ .write window PortRegister.ci (Word.only slot) ::
      (asked ++ .read window PortRegister.ci issued ::
        .read window PortRegister.sact outstanding :: world.accesses)) :
    after.Tidy true base window ∧
      ∀ shown, .read window PortRegister.ci shown ∈ polls → Word.test shown slot = false →
        after.Tidy false base window := by
  obtain ⟨earlier, hold, horderly, hsettled⟩ := htidy
  let reads : List Access :=
    [.read window PortRegister.ci issued, .read window PortRegister.sact outstanding]
  have hreadsQuiet : ∀ access ∈ asked ++ reads, ∀ value,
      access ≠ .write window PortRegister.ci value := by
    intro access hmember value
    rcases List.mem_append.1 hmember with hnew | hglance
    · exact (helsewhere access hnew value).2
    · simp only [reads, List.mem_cons, List.not_mem_nil, or_false] at hglance
      rcases hglance with rfl | rfl <;> simp
  have hclaimed : Access.Claimed window slot outstanding issued earlier
      (asked ++ reads ++ earlier) :=
    ⟨hbound, ⟨asked, by rw [List.append_assoc]; rfl, helsewhere⟩, hopen, hsettled rfl⟩
  have hsum : after.accesses = (polls ++ .write window PortRegister.ci
      (Word.only slot) :: (asked ++ reads ++ earlier)) ++ base.accesses := by
    rw [hgrew, hold]
    simp [reads]
  have horderly := (horderly.behind hreadsQuiet).issue hclaimed |>.behind hquiet
  refine ⟨⟨_, hsum, horderly, fun himpossible => by cases himpossible⟩,
    fun shown hmember hclear => ?_⟩
  exact ⟨_, hsum, horderly, fun _ =>
    ((hsettled rfl).behind hreadsQuiet).ended hbound hquiet hmember hclear⟩

end World.Tidy

namespace EngineM

/-- What a step of a call ends with and leaves: the engine is at the same window and a restart is
owed as it is told. A step that halts leaves one owed if it waits without an end, and none if it
halts otherwise. -/
def Tidied (window : Window) (base : World σ) (owing : Bool) :
    Except Halt (α × Engine) × World σ → Prop
  | (.ok (_, left), after) => left.window = window ∧ after.Tidy owing base window
  | (.error reason, after) => after.Tidy (reason == .unending) base window

theorem tidied_calm {base world : World σ} {window : Window} {step : HostM σ α}
    (hcalm : step.Calm) {engine : Engine} (hhead : engine.window = window)
    (htidy : world.Tidy false base window) :
    Tidied window base false ((onHost step).exec engine world) := by
  obtain ⟨log, hsame⟩ := hcalm world
  rw [exec_onHost, hsame]
  cases (step.exec world).1 with
  | ok a => exact ⟨hhead, htidy⟩
  | error reason =>
    have hkept : World.Tidy { world with log } (reason == .unending) base window := htidy.relax
    exact hkept

end EngineM

section Steps

variable [Device σ] {window : Window} {world after : World σ}

/-- What a watched command ended with: PxCI was read with its slot clear, or its failure may
have stopped the engine. -/
def HostM.Watched (window : Window) (slot : Nat) (polls : List Access) :
    Except CommandError Unit → Prop
  | .ok _ => ∃ value, .read window PortRegister.ci value ∈ polls ∧ Word.test value slot = false
  | .error error => error.needsRecovery = true

/-- A command that was watched to its end was shown ended, or its failure may have stopped the
engine. -/
theorem Access.Watch.watched {slot most : Nat} {packet : Bool} {made : List Access}
    {outcome? : Option (Except CommandError Unit)} {limit : Option UInt32}
    {outcome : Except CommandError Unit}
    (hwatch : Access.Watch window slot packet most made outcome?)
    (hended : (outcome?.map Except.ok).getD (HostM.overdue limit) = .ok outcome) :
    HostM.Watched window slot made outcome := by
  cases hwatch with
  | concluded hfew hinconclusive hconcludes =>
    cases hended
    cases hconcludes with
    | failed hblamed => exact hblamed.needsRecovery
    | overtaken hclean hclear hblamed => exact hblamed.needsRecovery
    | completed hclean hclear hstill => exact ⟨_, by simp, hclear⟩
  | exhausted hall hinconclusive =>
    cases limit with
    | some limit =>
      cases hended
      rfl
    | none => cases hended

theorem World.Tidy.touched {owing : Bool} {base : World σ} {traffic : Traffic}
    {reasons : Halt → Prop} {step : HostM σ α} (htidy : world.Tidy owing base window)
    (htouches : step.Touches window traffic reasons)
    (hother : ∀ offset value, traffic offset value → offset ≠ PortRegister.ci) :
    (step.exec world).2.Tidy owing base window := by
  obtain ⟨made, haccesses, hwithin, _⟩ := htouches.exists_made world
  exact htidy.behind haccesses (hwithin.elsewhere hother)

namespace Engine

/-- To stop the engine for a restart, PxSERR is written, and PxCI is not. -/
theorem exists_made_quiesce (engine : Engine) (hhead : engine.window = window) (world : World σ) :
    ∃ made, (engine.quiesce.exec world).2.accesses = made ++ world.accesses ∧
      .write window PortRegister.serr allBits ∈ made ∧
      ∀ access ∈ made, ∀ value, access ≠ .write window PortRegister.ci value := by
  subst hhead
  have hacknowledged {between after : World σ} (hended : (do
        let errors ← HostM.readRegister engine.window PortRegister.serr
        HostM.note .debug (engine.title ++ " recovery, SERR " ++ hexRegister errors)
        HostM.writeRegister engine.window PortRegister.serr allBits
        HostM.writeRegister engine.window PortRegister.is allBits).exec between = (.ok (), after)) :
      ∃ made, after.accesses = made ++ between.accesses ∧
        .write engine.window PortRegister.serr allBits ∈ made := by
    obtain ⟨errors, read, hseen, hrest⟩ := HostM.exists_exec_bind hended
    have hlooked := HostM.accesses_of_read hseen
    obtain ⟨_, noted, hnote, hrest⟩ := HostM.exists_exec_bind hrest
    cases hnote
    obtain ⟨_, cleared, hsent, hrest⟩ := HostM.exists_exec_bind hrest
    refine ⟨[.write engine.window PortRegister.is allBits,
      .write engine.window PortRegister.serr allBits,
      .read engine.window PortRegister.serr errors], ?_, by simp⟩
    rw [HostM.accesses_of_write hrest, HostM.accesses_of_write hsent]
    exact congrArg (_ :: _ :: ·) hlooked
  obtain ⟨_, after, hwhole⟩ := (engine.touches_quiesce (σ := σ)).halts.exists_exec world
  obtain ⟨made, haccesses, hwithin, _⟩ := (engine.touches_quiesce (σ := σ)).exists_made world
  refine ⟨made, haccesses, ?_, hwithin.elsewhere ?_⟩
  · rw [hwhole] at haccesses
    obtain ⟨stopped, halted, hstop, hrest⟩ := HostM.exists_exec_bind hwhole
    obtain ⟨halting, hstopping, _⟩ :=
      (HostM.touches_stopEngine (σ := σ) engine.window engine.limit).exists_made world
    rw [hstop] at hstopping
    have hfound : ∃ last, after.accesses = last ++ halted.accesses ∧
        .write engine.window PortRegister.serr allBits ∈ last := by
      cases stopped with
      | ok _ => exact hacknowledged hrest
      | error error =>
        obtain ⟨_, noted, hnote, hrest⟩ := HostM.exists_exec_bind hrest
        cases hnote
        obtain ⟨last, hended, hmember⟩ := hacknowledged hrest
        exact ⟨last, hended, hmember⟩
    obtain ⟨last, hended, hmember⟩ := hfound
    rw [hended, hstopping, ← List.append_assoc] at haccesses
    rw [← List.append_cancel_right haccesses]
    exact List.mem_append_left _ hmember
  · rintro offset value (rfl | rfl | rfl) <;> decide

/-- A restart settles every command before it, even if it does not succeed: PxSERR is written in any
case. -/
theorem tidy_recover {owing : Bool} {base : World σ} (engine : Engine)
    (hhead : engine.window = window) (htidy : world.Tidy owing base window) :
    (engine.recover.exec world).2.Tidy false base window := by
  obtain ⟨made, haccesses, hrestarted, hquiet⟩ := engine.exists_made_quiesce hhead world
  have hstopped : (engine.quiesce.exec world).2.Tidy false base window := by
    obtain ⟨earlier, hgrew, horderly, _⟩ := htidy
    refine ⟨made ++ earlier, by rw [haccesses, hgrew, List.append_assoc],
      horderly.behind hquiet, ?_⟩
    intro _ later slot before _ hsplit
    obtain ⟨between, rfl, _⟩ := Access.split_behind hquiet hsplit
    exact .inr (List.mem_append_left _ hrestarted)
  obtain ⟨_, between, hquiesced⟩ := (engine.touches_quiesce (σ := σ)).halts.exists_exec world
  rw [hquiesced] at hstopped
  rw [recover_eq, HostM.exec_bind_ok hquiesced]
  have htouches := engine.touches_rouse (σ := σ)
  rw [hhead] at htouches
  apply hstopped.touched htouches
  rintro offset value (rfl | rfl | rfl) <;> decide

end Engine

/-- What a command ends with and leaves, on a port where none is owed: a restart is owed where the
failure needs one, or where the command is waited for without an end, which is the only way in which
it halts. -/
theorem EngineM.tidy_runCommand {base : World σ} (command : Command) (engine : Engine)
    (hhead : engine.window = window) (htidy : world.Tidy false base window) :
    match (runCommand command).exec engine world with
    | (.ok (outcome, left), after) =>
      left.window = window ∧ after.Tidy (CommandError.owes outcome) base window
    | (.error reason, after) => reason = .unending ∧ after.Tidy true base window := by
  subst hhead
  obtain ⟨made, hruns⟩ := engine.exists_runs command world
  have haccesses := hruns.accesses
  generalize (runCommand command).exec engine world = ran at hruns haccesses
  obtain ⟨result, after⟩ := ran
  have hsilent {traffic : Traffic} {some_ : List Access}
      (hwithin : Access.Within engine.window traffic some_)
      (hother : ∀ offset value, traffic offset value → offset ≠ PortRegister.ci) :
      ∀ access ∈ some_.reverse, ∀ value, access ≠ .write engine.window PortRegister.ci value :=
    fun access hmember => hwithin.elsewhere hother access (List.mem_reverse.1 hmember)
  cases hruns with
  | full hlooking hshut =>
    exact ⟨rfl, htidy.behind haccesses (hsilent hlooking.within fun _ _ => False.elim)⟩
  | undescribed hlooking hlowest hformed =>
    exact ⟨rfl, htidy.behind haccesses (hsilent hlooking.within fun _ _ => False.elim)⟩
  | hung hoffers =>
    refine ⟨rfl, htidy.behind haccesses (hsilent hoffers.within ?_)⟩
    rintro _ _ rfl
    decide
  | @issued _ later slot handed _ outcome? hoffers hhanding hwatched =>
    obtain @⟨looks, polls, busy, looked, _, entries, hlooking, hlowest, _, _, hwaited, _⟩ := hoffers
    obtain ⟨outstanding, issued, rfl, rfl⟩ := hlooking.shown
    have helsewhere : ∀ access ∈ (.write engine.window PortRegister.is allBits :: polls).reverse,
        access.Elsewhere engine.window := by
      intro access hmember value
      rcases List.mem_cons.1 (List.mem_reverse.1 hmember) with rfl | hpoll
      · simp [PortRegister.is, PortRegister.ci]
      · obtain ⟨file, rfl⟩ := hwaited.exists_read access hpoll
        simp [PortRegister.tfd, PortRegister.ci]
    obtain ⟨howed, hsettled⟩ := htidy.issue
      (Nat.lt_of_lt_of_le hlowest.below engine.slots.count_le) hlowest.unowned helsewhere
      (hsilent hwatched.within fun _ _ => False.elim) (haccesses.trans (by simp))
    cases htold : (outcome?.map Except.ok).getD
      (HostM.overdue engine.config.completionLimit) with
    | error reason => exact ⟨HostM.eq_unending_of_overdue htold, howed⟩
    | ok outcome =>
      have hended := hwatched.watched htold
      cases outcome with
      | error error =>
        have howes : CommandError.owes (.error error) = true := hended
        refine ⟨rfl, ?_⟩
        rw [howes]
        exact howed
      | ok _ =>
        obtain ⟨shown, hmember, hclear⟩ := hended
        exact ⟨rfl, hsettled shown (List.mem_reverse.2 hmember) hclear⟩

/-- By induction over the rules for routines. Whatever a step of a call ends with, it leaves the
port tidy, with a restart owed as it is told or where it waits without an end. -/
theorem EngineM.Routine.tidied [Device τ] {base : World σ} {before owing : Bool} {α : Type}
    {step : EngineM σ α} {twin : EngineM τ α} (hroutine : Routine before owing step twin)
    {engine : Engine} (hhead : engine.window = window) (htidy : world.Tidy before base window) :
    Tidied window base owing (step.exec engine world) := by
  induction hroutine generalizing engine world with
  | pure a => exact ⟨hhead, htidy⟩
  | look hplaceless => exact ⟨hhead, htidy⟩
  | note severity hplaceless => exact ⟨hhead, htidy⟩
  | remember sense => exact ⟨hhead, htidy⟩
  | require condition reason => exact tidied_calm (.require condition reason) hhead htidy
  | readStaging count =>
    rw [EngineM.readStaging, exec_withEngine]
    exact tidied_calm ((HostM.Calm.require _ _).bind fun _ => .inspectMemory _) hhead htidy
  | fill bytes count =>
    by_cases henough : count ≤ engine.areas.write.size ∧ bytes.length ≤ count
    · rw [exec_fillStaging_ok henough.1 henough.2]
      exact ⟨hhead, htidy⟩
    · rw [exec_fillStaging_error henough]
      exact htidy.relax
  | restart =>
    obtain ⟨_, after, hended⟩ := (engine.touches_recover (σ := σ)).halts.exists_exec world
    have hsettled := engine.tidy_recover hhead htidy
    rw [hended] at hsettled
    rw [exec_withEngine_ok hended]
    exact ⟨hhead, hsettled⟩
  | run command hrest ih =>
    have hran := tidy_runCommand command engine hhead htidy
    rw [exec_bind]
    rcases hended : (runCommand command).exec engine world with ⟨reason | ⟨outcome, left⟩, after⟩
    · rw [hended] at hran
      obtain ⟨rfl, howed⟩ := hran
      exact howed
    · rw [hended] at hran
      exact ih outcome hran.1 hran.2
  | @bind _ _ _ _ _ step _ _ _ hfirst hsecond hearly hlate =>
    have hbegun := hearly hhead htidy
    rw [exec_bind]
    rcases hended : step.exec engine world with ⟨reason | ⟨a, left⟩, after⟩
    · rw [hended] at hbegun
      exact hbegun
    · rw [hended] at hbegun
      exact hlate a hbegun.1 hbegun.2

end Steps

/-! Bits of PxCI that the driver alone sets. -/

theorem Word.lt_of_test {word : UInt32} {bit : Nat} (hset : Word.test word bit = true) :
    bit < 32 := by
  by_cases hlow : bit < 32
  · exact hlow
  · rw [Word.test, BitVec.getLsbD_of_ge _ _ (Nat.le_of_not_lt hlow)] at hset
    cases hset

namespace Access

/-- Whether a slot may still show in PxCI, by the record, newest first: it did when PxCI was last
read, or it was written since. -/
def outstanding (window : Window) (slot : Nat) : List Access → Bool
  | [] => false
  | .read seen offset value :: earlier =>
    if seen = window ∧ offset = PortRegister.ci then Word.test value slot
    else outstanding window slot earlier
  | .write sent offset value :: earlier =>
    decide (sent = window ∧ offset = PortRegister.ci) && Word.test value slot ||
      outstanding window slot earlier
  | .opened _ :: earlier => outstanding window slot earlier

/-- Whether PxCI shows no slots but those that were written to it and did not yet show clear. -/
def ownSlots (window : Window) : List Access → Bool
  | [] => true
  | .read seen offset value :: earlier =>
    (!decide (seen = window ∧ offset = PortRegister.ci) ||
      (List.range 32).all fun slot => !Word.test value slot || outstanding window slot earlier) &&
        ownSlots window earlier
  | _ :: earlier => ownSlots window earlier

/-- Whether no slot is ever shown to be queued in PxSACT. -/
def unqueued (window : Window) (made : List Access) : Bool :=
  made.all fun access =>
    match access with
    | .read seen offset value =>
      !decide (seen = window ∧ offset = PortRegister.sact) || value == 0
    | _ => true

variable {window : Window} {slot : Nat} {made : List Access}

theorem eq_zero_of_unqueued {value : UInt32} (hplain : unqueued window made = true)
    (hmember : .read window PortRegister.sact value ∈ made) : value = 0 := by
  simpa using List.all_eq_true.1 hplain _ hmember

theorem ownSlots_of_append {later : List Access} (hown : ownSlots window (later ++ made) = true) :
    ownSlots window made = true := by
  induction later with
  | nil => exact hown
  | cons access others ih =>
    cases access with
    | read seen offset value =>
      rw [List.cons_append, ownSlots, Bool.and_eq_true] at hown
      exact ih hown.2
    | write sent offset value => exact ih hown
    | opened seen => exact ih hown

theorem outstanding_of_read {value : UInt32}
    (hown : ownSlots window (.read window PortRegister.ci value :: made) = true)
    (hshows : Word.test value slot = true) : outstanding window slot made = true := by
  have hlow : slot < 32 := Word.lt_of_test hshows
  rw [ownSlots, Bool.and_eq_true] at hown
  have hevery := hown.1
  simp only [and_self, decide_true, Bool.not_true, Bool.false_or, List.all_eq_true,
    List.mem_range] at hevery
  simpa [hshows] using hevery slot hlow

/-- A slot that may still show was written, and showed in every read of PxCI since. -/
theorem exists_of_outstanding (hown : ownSlots window made = true)
    (hshows : outstanding window slot made = true) :
    ∃ later value earlier, made = later ++ .write window PortRegister.ci value :: earlier ∧
      Word.test value slot = true ∧
      ∀ shown, .read window PortRegister.ci shown ∈ later → Word.test shown slot = true := by
  have hfurther {access : Access} {older : List Access}
      (hfound : ∃ later value earlier, older = later ++ .write window PortRegister.ci value ::
          earlier ∧ Word.test value slot = true ∧
        ∀ shown, .read window PortRegister.ci shown ∈ later → Word.test shown slot = true)
      (hhead : ∀ shown, access = .read window PortRegister.ci shown →
        Word.test shown slot = true) :
      ∃ later value earlier, access :: older = later ++ .write window PortRegister.ci value ::
          earlier ∧ Word.test value slot = true ∧
        ∀ shown, .read window PortRegister.ci shown ∈ later → Word.test shown slot = true := by
    obtain ⟨later, value, earlier, rfl, hset, hsince⟩ := hfound
    refine ⟨access :: later, value, earlier, rfl, hset, fun shown hmember => ?_⟩
    rcases List.mem_cons.1 hmember with hsame | hold
    · exact hhead shown hsame.symm
    · exact hsince shown hold
  induction made with
  | nil => cases hshows
  | cons access older ih =>
    cases access with
    | opened seen => exact hfurther (ih hown hshows) fun _ himpossible => by cases himpossible
    | read seen offset value =>
      have hrest : ownSlots window older = true := by
        have hboth := hown
        rw [ownSlots, Bool.and_eq_true] at hboth
        exact hboth.2
      rw [outstanding] at hshows
      split at hshows
      · next hsite =>
        obtain ⟨rfl, rfl⟩ := hsite
        refine hfurther (ih hrest (outstanding_of_read hown hshows)) fun shown hsame => ?_
        rw [← (Access.read.inj hsame).2.2]
        exact hshows
      · next helsewhere =>
        refine hfurther (ih hrest hshows) fun shown hsame => ?_
        obtain ⟨rfl, rfl, _⟩ := Access.read.inj hsame
        exact absurd ⟨rfl, rfl⟩ helsewhere
    | write sent offset value =>
      rw [outstanding, Bool.or_eq_true, Bool.and_eq_true, decide_eq_true_eq] at hshows
      rcases hshows with ⟨⟨rfl, rfl⟩, hset⟩ | hbefore
      · exact ⟨[], value, older, rfl, hset, by simp⟩
      · exact hfurther (ih hown hbefore) fun _ himpossible => by cases himpossible

end Access

/-! Histories. -/

/-- All calls of a history but the last one came back: none of them is still waiting. A call behind
one that waits without an end would never be made. -/
def Driver.Returned [Device σ] : Driver σ → List DriverCall → Prop
  | _, [] => True
  | driver, call :: rest =>
    (rest ≠ [] → (call.run.exec driver.engine driver.world).1 ≠ .error .unending) ∧
      (driver.after call).Returned rest

namespace Driver

variable [Device σ] {window : Window} {base : World σ}

/-- By induction over the calls. A history leaves a tidy port tidy, with a restart owed at most. -/
theorem tidy_run {driver : Driver σ} {calls : List DriverCall}
    (hhead : driver.engine.window = window) (htidy : driver.world.Tidy false base window)
    (hreturned : driver.Returned calls) : (driver.run calls).world.Tidy true base window := by
  induction calls generalizing driver with
  | nil => exact htidy.relax
  | cons call rest ih =>
    have htidied := (call.routine_run (τ := σ)).tidied hhead htidy
    obtain ⟨hcomes, hreturned⟩ := hreturned
    change (run (driver.after call) rest).world.Tidy true base window
    have honward (hfurther : rest ≠ [] → (driver.after call).engine.window = window ∧
        (driver.after call).world.Tidy false base window)
        (hlast : (driver.after call).world.Tidy true base window) :
        (run (driver.after call) rest).world.Tidy true base window := by
      cases rest with
      | nil => exact hlast
      | cons next others =>
        obtain ⟨hstays, htidy⟩ := hfurther (by simp)
        exact ih hstays htidy hreturned
    unfold after at honward ⊢ hreturned
    rcases hended : call.run.exec driver.engine driver.world with ⟨reason | ⟨_, left⟩, world⟩
    · rw [hended] at htidied honward
      have htidied : world.Tidy (reason == .unending) base window := htidied
      refine honward (fun hmore => ⟨hhead, ?_⟩) htidied.owing_more
      have hstopped : reason ≠ .unending := by
        rintro rfl
        exact hcomes hmore (by rw [hended])
      rwa [beq_eq_false_iff_ne.2 hstopped] at htidied
    · rw [hended] at htidied honward
      exact honward (fun _ => htidied) htidied.2.relax

/-- Take a port that came up over any device, any calls that came back, the last one excepted, and
any write to PxCI among the accesses since. It is assumed that the device sets no bit of PxCI by
itself and shows nothing in PxSACT. Then the value that is written is a single slot, and it was
clear when PxCI was read before, with nothing asked of PxCI in between. Any other slot that PxCI
showed then was written before by the driver, showed in every read of PxCI since, and did so over a
restart of the engine. So at most one command is in flight as long as restarts withdraw what had
failed; that they do is not promised. -/
theorem shown_slots_outlived_restart {number slots : Nat} {config : Config} {start ready : World σ}
    {port : Port} {engine : Engine}
    (hup : (HostM.bringUp window number slots config).exec start =
      (.ok (.ok (port, engine)), ready))
    {calls : List DriverCall} (hreturned : Driver.Returned ⟨engine, ready⟩ calls)
    {made : List Access}
    (hgrew : (Driver.run ⟨engine, ready⟩ calls).world.accesses = made ++ ready.accesses)
    (hown : Access.ownSlots window made = true)
    (hplain : Access.unqueued window made = true)
    {later earlier : List Access} {value : UInt32}
    (hissued : made = later ++ .write window PortRegister.ci value :: earlier) :
    ∃ slot shown asked before, slot < slotCount ∧ value = Word.only slot ∧
      earlier = asked ++ .read window PortRegister.ci shown ::
        .read window PortRegister.sact 0 :: before ∧
      (∀ access ∈ asked, access.Elsewhere window) ∧ Word.test shown slot = false ∧
      ∀ other, Word.test shown other = true → ∃ since older,
        before = since ++ .write window PortRegister.ci (Word.only other) :: older ∧
        (∀ shown, .read window PortRegister.ci shown ∈ since → Word.test shown other = true) ∧
        .write window PortRegister.serr allBits ∈ since := by
  have hhead : engine.window = window := by rw [(HostM.cameUp_of_exec hup).made]
  have hbegun : ready.Tidy false ready window :=
    ⟨[], rfl, fun _ _ _ hsplit => by simp at hsplit, fun _ _ _ _ _ hsplit => by simp at hsplit⟩
  obtain ⟨made', haccesses, horderly, _⟩ := tidy_run hhead hbegun hreturned
  rw [hgrew] at haccesses
  cases List.append_cancel_right haccesses
  obtain ⟨slot, outstanding, shown, before, rfl, hclaimed⟩ := horderly later value earlier hissued
  obtain ⟨asked, rfl, helsewhere⟩ := hclaimed.looked
  have hnone : outstanding = 0 := Access.eq_zero_of_unqueued hplain (by rw [hissued]; simp)
  subst hnone
  have hopen := hclaimed.open_
  rw [UInt32.zero_or] at hopen
  refine ⟨slot, shown, asked, before, hclaimed.bound, rfl, rfl, helsewhere, hopen, ?_⟩
  intro other hshows
  have hwhole : made = (later ++ .write window PortRegister.ci (Word.only slot) :: asked) ++
      .read window PortRegister.ci shown :: .read window PortRegister.sact 0 :: before := by
    rw [hissued]
    simp
  rw [hwhole] at hown
  have hseen := Access.ownSlots_of_append hown
  have hownBefore : Access.ownSlots window before = true := by
    have hsplit : .read window PortRegister.ci shown :: .read window PortRegister.sact 0 :: before =
        [.read window PortRegister.ci shown, .read window PortRegister.sact 0] ++ before := rfl
    rw [hsplit] at hseen
    exact Access.ownSlots_of_append hseen
  have hdue : Access.outstanding window other before = true := by
    have hdue := Access.outstanding_of_read hseen hshows
    rw [Access.outstanding, if_neg fun hboth => absurd hboth.2 (by decide)] at hdue
    exact hdue
  obtain ⟨since, written, older, hsplit, hset, hshowing⟩ :=
    Access.exists_of_outstanding hownBefore hdue
  obtain ⟨first, _, _, _, rfl, _⟩ := horderly (later ++ .write window PortRegister.ci
    (Word.only slot) :: (asked ++ .read window PortRegister.ci shown ::
      .read window PortRegister.sact 0 :: since)) written older (by rw [hwhole, hsplit]; simp)
  have hsame : first = other := by
    rw [Word.test_only, Bool.and_eq_true, decide_eq_true_eq, decide_eq_true_eq] at hset
    exact hset.2
  subst hsame
  have hlow : first < slotCount := Word.lt_of_test hshows
  refine ⟨since, older, hsplit, hshowing, ?_⟩
  rcases hclaimed.settled since first older hlow hsplit with ⟨value, hmember, hclear⟩ | hrestarted
  · rw [hshowing value hmember] at hclear
    cases hclear
  · exact hrestarted

end Driver

/-- The registers of a port whose engine goes on processing for a while when it is to be stopped, so
that the first command on it is never withdrawn: PxCI shows it for good. -/
def Script.lingering : Script :=
  ⟨[(PortRegister.cmd, [0, 0, 0, 0x4000, 0x4010, 0xC011, 0xC010, 0x4010]),
    (PortRegister.tfd, [0x50]),
    (PortRegister.ci, [0, 1]),
    (PortRegister.ssts, [0x113]),
    (PortRegister.sig, [0x101])]⟩

namespace Driver

/-- Two commands at a port whose engine lingers: the first comes back, and the second one is issued
while PxCI shows the first. -/
theorem exists_run_lingering :
    let start : World Script :=
      { device := .lingering, memory := {}, allocator := risingAllocator [] }
    let calls : List DriverCall := [.onEngine (.readSectors 2 1), .onEngine (.readSectors 5 1)]
    ∃ begun : Driver Script,
      begin? (.port 0) 0 32 { readyLimit := 1, completionLimit := some 1 } start = some begun ∧
      begun.Returned calls ∧ ∃ later asked before,
        let earlier := asked ++ .read (.port 0) PortRegister.ci 1 ::
          .read (.port 0) PortRegister.sact 0 :: before
        let made := later ++ .write (.port 0) PortRegister.ci (Word.only 1) :: earlier
        (begun.run calls).world.accesses = made ++ begun.world.accesses ∧
        Access.ownSlots (.port 0) made = true ∧ Access.unqueued (.port 0) made = true ∧
        .write (.port 0) PortRegister.ci (Word.only 0) ∈ before := by
  intro start calls
  have htrial : (begin? (.port 0) 0 32 { readyLimit := 1, completionLimit := some 1 } start).any
      fun begun =>
        let made := (begun.run calls).world.accesses.take 27
        let earlier := (made.drop 4).take 2 ++ .read (.port 0) PortRegister.ci 1 ::
          .read (.port 0) PortRegister.sact 0 :: made.drop 8
        let split := made.take 3 ++ .write (.port 0) PortRegister.ci (Word.only 1) :: earlier
        ((DriverCall.onEngine (.readSectors 2 1)).run.exec begun.engine begun.world).1.isOk &&
          decide ((begun.run calls).world.accesses = split ++ begun.world.accesses) &&
          (Access.ownSlots (.port 0) split && Access.unqueued (.port 0) split &&
            (made.drop 8).contains (.write (.port 0) PortRegister.ci (Word.only 0))) := by
    decide +kernel
  rcases hbegins : begin? (.port 0) 0 32 { readyLimit := 1, completionLimit := some 1 } start with
    _ | begun <;> rw [hbegins] at htrial
  · cases htrial
  · simp only [Option.any_some, Bool.and_eq_true, decide_eq_true_eq, List.contains_iff_mem]
      at htrial
    obtain ⟨⟨hcameBack, hgrew⟩, ⟨hown, hplain⟩, hfirst⟩ := htrial
    refine ⟨begun, rfl, ⟨fun _ hwaits => ?_, fun hmore => absurd rfl hmore, trivial⟩,
      _, _, _, hgrew, hown, hplain, hfirst⟩
    rw [hwaits] at hcameBack
    cases hcameBack

/-- The hypotheses are met by two commands of which the second is issued beside the first, which
outlived a restart. -/
theorem shown_slots_outlived_restart_of_lingering :
    let start : World Script :=
      { device := .lingering, memory := {}, allocator := risingAllocator [] }
    let calls : List DriverCall := [.onEngine (.readSectors 2 1), .onEngine (.readSectors 5 1)]
    ∃ port engine ready,
      (HostM.bringUp (.port 0) 0 32 { readyLimit := 1, completionLimit := some 1 }).exec start =
        (.ok (.ok (port, engine)), ready) ∧
      Driver.Returned ⟨engine, ready⟩ calls ∧ ∃ later value earlier,
        let made := later ++ .write (.port 0) PortRegister.ci value :: earlier
        (Driver.run ⟨engine, ready⟩ calls).world.accesses = made ++ ready.accesses ∧
        Access.ownSlots (.port 0) made = true ∧ Access.unqueued (.port 0) made = true ∧
        ∃ slot shown asked before, slot < slotCount ∧ value = Word.only slot ∧
          earlier = asked ++ .read (.port 0) PortRegister.ci shown ::
            .read (.port 0) PortRegister.sact 0 :: before ∧
          (∀ access ∈ asked, access.Elsewhere (.port 0)) ∧ Word.test shown slot = false ∧
          ∀ other, Word.test shown other = true → ∃ since older,
            before = since ++ .write (.port 0) PortRegister.ci (Word.only other) :: older ∧
            (∀ shown, .read (.port 0) PortRegister.ci shown ∈ since →
              Word.test shown other = true) ∧
            .write (.port 0) PortRegister.serr allBits ∈ since := by
  intro start calls
  obtain ⟨begun, hbegins, hreturned, later, asked, before, hgrew, hown, hplain, _⟩ :=
    exists_run_lingering
  obtain ⟨port, hup⟩ := exists_up_of_begin? hbegins
  exact ⟨port, begun.engine, begun.world, hup, hreturned, later, _, _, hgrew, hown, hplain,
    shown_slots_outlived_restart hup hreturned hgrew hown hplain rfl⟩

/-- A defect of the driver. On a port where the driver alone sets slots, a command is issued while
PxCI still shows one that was issued before. -/
theorem issues_beside_shown :
    let start : World Script :=
      { device := .lingering, memory := {}, allocator := risingAllocator [] }
    let calls : List DriverCall := [.onEngine (.readSectors 2 1), .onEngine (.readSectors 5 1)]
    ∃ port engine ready,
      (HostM.bringUp (.port 0) 0 32 { readyLimit := 1, completionLimit := some 1 }).exec start =
        (.ok (.ok (port, engine)), ready) ∧
      Driver.Returned ⟨engine, ready⟩ calls ∧ ∃ later asked shown before,
        let made := later ++ .write (.port 0) PortRegister.ci (Word.only 1) ::
          (asked ++ .read (.port 0) PortRegister.ci shown ::
            .read (.port 0) PortRegister.sact 0 :: before)
        (Driver.run ⟨engine, ready⟩ calls).world.accesses = made ++ ready.accesses ∧
        Access.ownSlots (.port 0) made = true ∧ Access.unqueued (.port 0) made = true ∧
        .write (.port 0) PortRegister.ci (Word.only 0) ∈ before ∧ Word.test shown 0 = true := by
  intro start calls
  obtain ⟨begun, hbegins, hreturned, later, asked, before, hgrew, hown, hplain, hfirst⟩ :=
    exists_run_lingering
  obtain ⟨port, hup⟩ := exists_up_of_begin? hbegins
  exact ⟨port, begun.engine, begun.world, hup, hreturned, later, asked, 1, before, hgrew,
    hown, hplain, hfirst, by decide⟩

end Driver

end Ahci
