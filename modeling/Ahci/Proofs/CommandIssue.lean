import Ahci.Proofs.CallActs
import Ahci.Proofs.CommandHandover
import Ahci.Proofs.CompletionWatch

/-!
How a command gets to the adapter, over any device. A run of a command goes one of four ways: no
slot is open to it, its transfer cannot be described, the device does not get ready, or its slot is
issued. `Engine.Runs` lists them with all that is asked and told meanwhile, so what a run does to
PxCI, when it does so, and what becomes of the slots is read off the four cases.
-/

namespace Ahci

/-- The lowest slot that is free in the arena and that the adapter does not own, below the count of
slots. -/
structure SlotArena.Lowest (arena : SlotArena) (busy : UInt32) (slot : Nat) : Prop where
  below : slot < arena.count
  free : arena.state? slot = some .free
  unowned : Word.test busy slot = false
  lowest : ∀ lower < slot, arena.state? lower ≠ some .free ∨ Word.test busy lower = true

namespace SlotArena

variable {arena next : SlotArena} {busy : UInt32} {slot : Nat}

theorem isOpen_eq_true_iff : arena.isOpen busy slot = true ↔
    arena.state? slot = some .free ∧ Word.test busy slot = false := by
  simp [isOpen]

theorem isOpen_eq_false_iff : arena.isOpen busy slot = false ↔
    arena.state? slot ≠ some .free ∨ Word.test busy slot = true := by
  rw [← Bool.not_eq_true, isOpen_eq_true_iff, not_and_or, Bool.not_eq_false]

/-- The slot that is claimed is the lowest one open, and it is marked as claimed. -/
theorem claim_eq_ok_iff_lowest : arena.claim busy = .ok (slot, next) ↔
    next = arena.mark slot .claimed ∧ arena.Lowest busy slot := by
  simp only [claim_eq_ok_iff, isOpen_eq_true_iff, isOpen_eq_false_iff]
  constructor
  · rintro ⟨hmarked, hbelow, ⟨hfree, hunowned⟩, hlowest⟩
    exact ⟨hmarked, hbelow, hfree, hunowned, hlowest⟩
  · rintro ⟨hmarked, hbelow, hfree, hunowned, hlowest⟩
    exact ⟨hmarked, hbelow, ⟨hfree, hunowned⟩, hlowest⟩

/-- A slot that was free is as before once it is released, whatever it was marked as meanwhile. -/
theorem release_marks_of_free (hfree : arena.state? slot = some .free) (marks : List SlotState) :
    (marks.foldl (fun arena state => arena.mark slot state) arena).release slot = arena := by
  rw [release_marks]
  have hsame : arena.states.setIfInBounds slot .free = arena.states := by
    apply Vector.ext
    intro index hbound
    rw [Vector.getElem_setIfInBounds]
    split
    · next hhead =>
      subst hhead
      exact (Vector.getElem_eq_iff.2 hfree).symm
    · rfl
  rw [mark, hsame]

end SlotArena

/-! The task file before a command. -/

/-- A device is ready if its task file shows neither the busy bit nor the one for data. -/
theorem TaskFile.isReady_ofWord_iff (file : UInt32) :
    (TaskFile.ofWord file).isReady = true ↔
      Word.test file 7 = false ∧ Word.test file 3 = false := by
  have hstatus (bit : Nat) (hlow : bit < 8) :
      (TaskFile.ofWord file).status.toNat.testBit bit = Word.test file bit := by
    have hbyte : (TaskFile.ofWord file).status.toNat = (file.toBitVec.extractLsb' 0 8).toNat := by
      simp only [ofWord, Word.bits, UInt8.toNat_ofNat']
      exact Nat.mod_eq_of_lt (BitVec.isLt _)
    rw [hbyte, BitVec.testBit_toNat, BitVec.getLsbD_extractLsb', Nat.zero_add, decide_eq_true hlow,
      Bool.true_and, Word.test]
  rw [isReady, hstatus 7 (by decide), hstatus 3 (by decide)]
  simp

namespace Access

/-- The task file shows a device busy or about to move data. -/
def ShowsBusy (window : Window) (access : Access) : Prop :=
  ∃ file, access = .read window PortRegister.tfd file ∧
    (Word.test file 7 = true ∨ Word.test file 3 = true)

/-- The task file shows a device neither busy nor about to move data. -/
def ShowsReady (window : Window) (access : Access) : Prop :=
  ∃ file, access = .read window PortRegister.tfd file ∧
    Word.test file 7 = false ∧ Word.test file 3 = false

variable {window : Window} {made : List Access}

/-- A wait for the device reads its task file and nothing else. -/
theorem Waited.exists_read {limit : Nat} {ready : Bool}
    (hwaited : Waited (ShowsBusy window) (ShowsReady window) limit made ready) :
    ∀ access ∈ made, ∃ file, access = .read window PortRegister.tfd file := by
  refine hwaited.forall_mem ?_ ?_
  · rintro access ⟨file, hsame, _⟩
    exact ⟨file, hsame⟩
  · rintro access ⟨file, hsame, _⟩
    exact ⟨file, hsame⟩

theorem Waited.within {limit : Nat} {ready : Bool}
    (hwaited : Waited (ShowsBusy window) (ShowsReady window) limit made ready) :
    Within window .none made := by
  intro access hmember
  obtain ⟨file, hsame⟩ := hwaited.exists_read access hmember
  exact .inl ⟨_, file, hsame⟩

variable {slot most : Nat} {packet : Bool} {outcome? : Option (Except CommandError Unit)}

theorem Watch.within (hwatch : Watch window slot packet most made outcome?) :
    Within window .none made := by
  have hreads {poll : List Access} {outcome? : Option (Except CommandError Unit)}
      (hpolled : Poll window slot packet poll outcome?) : Within window .none poll := by
    cases hpolled <;> simp [Within]
  intro access hmember
  cases hwatch with
  | concluded hfew hinconclusive hconcludes =>
    rcases List.mem_append.1 hmember with hearly | hlast
    · obtain ⟨poll, hamong, hwithin⟩ := List.mem_flatten.1 hearly
      exact hreads (hinconclusive poll hamong) access hwithin
    · exact hreads hconcludes access hlast
  | exhausted hall hinconclusive =>
    obtain ⟨poll, hamong, hwithin⟩ := List.mem_flatten.1 hmember
    exact hreads (hinconclusive poll hamong) access hwithin

theorem Within.countP_isIssue {traffic : Traffic} (hwithin : Within window traffic made)
    (hother : ∀ offset value, traffic offset value → offset ≠ PortRegister.ci) :
    made.countP isIssue = 0 := by
  rw [List.countP_eq_zero]
  intro access hmember
  rcases hwithin access hmember with ⟨offset, value, rfl⟩ | ⟨offset, value, hsent, rfl⟩
  · simp [isIssue]
  · simp [isIssue, hother offset value hsent]

theorem Within.countP_isIssue_of_none (hwithin : Within window .none made) :
    made.countP isIssue = 0 :=
  hwithin.countP_isIssue fun _ _ => False.elim

end Access

/-- The failures of commands that are not issued: there is no slot, the device does not get ready,
or the transfer cannot be described. -/
def CommandError.Unissued (error : CommandError) : Prop :=
  error = .noSlot ∨ error = .portHung ∨ ∃ reason, error = .transfer reason

/-- What a command is blamed for by the registers is not one of the failures of commands that are
not issued. -/
theorem CommandError.Blamed.not_unissued {status file : UInt32} {packet : Bool}
    {error : CommandError} (hblamed : Blamed status file packet error) : ¬error.Unissued := by
  cases hblamed <;> simp [Unissued]

/-- A command that was watched does not fail like one that was not issued. -/
theorem Access.Watch.not_unissued {window : Window} {slot most : Nat} {packet : Bool}
    {made : List Access} {outcome? : Option (Except CommandError Unit)} {limit : Option UInt32}
    {error : CommandError} (hwatch : Watch window slot packet most made outcome?)
    (hended : (outcome?.map Except.ok).getD (HostM.overdue limit) = .ok (.error error)) :
    ¬error.Unissued := by
  cases hwatch with
  | concluded hfew hinconclusive hconcludes =>
    cases hconcludes with
    | failed hblamed =>
      cases hended
      exact hblamed.not_unissued
    | overtaken hclean hclear hblamed =>
      cases hended
      exact hblamed.not_unissued
    | completed => cases hended
  | exhausted hall hinconclusive =>
    cases limit with
    | some limit =>
      cases hended
      simp [CommandError.Unissued]
    | none => cases hended

/-- The world once a command is stored in a slot: only memory changes. -/
def Engine.store {σ : Type} (engine : Engine) (slot : Nat) (command : Command)
    (entries : List ScatterEntry) (world : World σ) : World σ :=
  { world with memory := engine.build slot command entries world.memory }

theorem Engine.patience_store {σ : Type} (engine : Engine) (slot : Nat) (command : Command)
    (entries : List ScatterEntry) (world : World σ) :
    (engine.store slot command entries world).patience = world.patience := by
  rw [store]

theorem Engine.accesses_store {σ : Type} (engine : Engine) (slot : Nat) (command : Command)
    (entries : List ScatterEntry) (world : World σ) :
    (engine.store slot command entries world).accesses = world.accesses := by
  rw [store]

variable {σ : Type} [Device σ]

/-! Steps before and behind an issue. -/

namespace HostM

variable (window : Window)

/-- The slots that the adapter owns are found by two reads, of PxSACT and of PxCI. -/
theorem converses_busySlots :
    (busySlots window : HostM σ UInt32).Converses fun made busy => ∃ outstanding issued,
      made = [.read window PortRegister.sact outstanding, .read window PortRegister.ci issued] ∧
        busy = outstanding ||| issued := by
  refine Converses.congr (fun made busy => ?_)
    (.readThen fun outstanding => .readThen fun issued => .pure _)
  constructor
  · rintro ⟨outstanding, _, rfl, issued, _, rfl, rfl, rfl⟩
    exact ⟨outstanding, issued, rfl, rfl⟩
  · rintro ⟨outstanding, issued, rfl, rfl⟩
    exact ⟨outstanding, _, rfl, issued, [], rfl, rfl, rfl⟩

/-- To see whether the device gets ready, its task file is read until it shows so, at most as often
as there are polls. -/
theorem converses_becomesReady (polls : Nat) : (becomesReady window polls : HostM σ Bool).Converses
    (Access.Waited (Access.ShowsBusy window) (Access.ShowsReady window) polls) := by
  induction polls with
  | zero => exact (Converses.pure false).congr fun made shown => Access.waited_zero_iff.symm
  | succ polls ih =>
    refine Converses.congr (fun made shown => ?_) (.readThen fun file => .ite (.pure true) ih)
    simp only [Access.waited_succ_iff, TaskFile.isReady_ofWord_iff, not_and_or, Bool.not_eq_false]
    constructor
    · rintro ⟨file, late, rfl, ⟨hready, rfl, rfl⟩ | ⟨hbusy, hwaited⟩⟩
      · exact .inl ⟨_, rfl, ⟨file, rfl, hready⟩, rfl⟩
      · exact .inr ⟨_, late, rfl, ⟨file, rfl, hbusy⟩, hwaited⟩
    · rintro (⟨_, rfl, ⟨file, rfl, hready⟩, rfl⟩ | ⟨_, late, rfl, ⟨file, rfl, hbusy⟩, hwaited⟩)
      · exact ⟨file, [], rfl, .inl ⟨hready, rfl, rfl⟩⟩
      · exact ⟨file, late, rfl, .inr ⟨hbusy, hwaited⟩⟩

/-- A slot is issued only to a device that got ready, and then watched. In either case PxIS was
cleared first, and what is watched is given its limit on polls. -/
theorem exec_issueAndWait (arena : SlotArena) (slot : Nat) (config : Config) (packet : Bool)
    (world : World σ) :
    (∃ polls after, Access.Waited (Access.ShowsBusy window) (Access.ShowsReady window)
        config.readyLimit.toNat polls false ∧
      world.Undergoes (.write window PortRegister.is allBits :: polls) after ∧
      (issueAndWait window arena slot config packet).exec world =
        (.ok (.error .portHung, arena), after)) ∨
    ∃ polls later outcome? handed after,
      Access.Waited (Access.ShowsBusy window) (Access.ShowsReady window)
        config.readyLimit.toNat polls true ∧
      world.Undergoes (.write window PortRegister.is allBits :: polls) handed ∧
      handed.Undergoes (.write window PortRegister.ci (Word.only slot) :: later) after ∧
      Access.Watch window slot packet (allowance config.completionLimit world) later outcome? ∧
      (issueAndWait window arena slot config packet).exec world =
        (((outcome?.map Except.ok).getD (overdue config.completionLimit)).map
          (·, (arena.mark slot .issued).mark slot .done), after) := by
  obtain ⟨_, _, cleared, rfl, hacknowledged, hclearing⟩ :=
    (@Converses.writeRegister σ _ window PortRegister.is allBits).exists_of_exec world
  obtain ⟨polls, ready, handed, hwaited, hgot, hwaiting⟩ :=
    (converses_becomesReady window config.readyLimit.toNat).exists_of_exec cleared
  have hacknowledging := World.undergoes_append_iff.2 ⟨cleared, hclearing, hwaiting⟩
  rw [issueAndWait, exec_bind_ok hacknowledged, exec_bind_ok hgot]
  cases ready with
  | false => exact .inl ⟨polls, handed, hwaited, hacknowledging, rfl⟩
  | true =>
    right
    obtain ⟨_, _, issued, rfl, hwrote, hissuing⟩ :=
      (@Converses.writeRegister σ _ window PortRegister.ci (Word.only slot)).exists_of_exec handed
    rcases hended : (awaitCompletion window slot config.completionLimit packet).exec issued with
      ⟨result, after⟩
    obtain ⟨later, outcome?, hwatch, hwatching, rfl⟩ :=
      (exec_awaitCompletion_iff window slot packet _ issued after result).1 hended
    have hhanding := World.undergoes_append_iff.2 ⟨issued, hissuing, hwatching⟩
    refine ⟨polls, later, outcome?, handed, after, hwaited, hacknowledging, hhanding, ?_, ?_⟩
    · rwa [allowance_congr (hissuing.patience.trans hacknowledging.patience)] at hwatch
    · rw [if_neg (by decide), exec_bind_ok hwrote, exec_bind, hended]
      cases (outcome?.map Except.ok).getD (overdue config.completionLimit) <;> rfl

end HostM

/-! Runs of a command. -/

namespace Engine

/-- The slots that the adapter owns were read: their mask is what PxSACT and PxCI showed
together. -/
structure Looked (engine : Engine) (before : World σ) (looks : List Access) (busy : UInt32)
    (looked : World σ) : Prop where
  shown : ∃ outstanding issued,
    looks = [.read engine.window PortRegister.sact outstanding,
      .read engine.window PortRegister.ci issued] ∧ busy = outstanding ||| issued
  undergone : before.Undergoes looks looked

/-- All that is done before a slot is issued, oldest access first. The slot is the lowest one open,
the command is described and stored there, PxIS is cleared, and then the device gets ready within
its polls, or does not. What is stored conveys the command if the areas do not overlap. -/
inductive Offers (engine : Engine) (command : Command) (before : World σ) (slot : Nat)
    (ready : Bool) : List Access → World σ → Prop where
  | intro {looks polls : List Access} {busy : UInt32} {looked handed : World σ}
      {entries : List ScatterEntry} (hlooking : engine.Looked before looks busy looked)
      (hlowest : engine.slots.Lowest busy slot) (hformed : engine.scatter command = .ok entries)
      (hstored : engine.areas.Layout →
        (FetchedCommand.fetch (engine.areas.list.address 0) slot
          (engine.store slot command entries looked).memory).Conveys engine.areas command)
      (hwaited : Access.Waited (Access.ShowsBusy engine.window) (Access.ShowsReady engine.window)
        engine.limit polls ready)
      (hacknowledging : (engine.store slot command entries looked).Undergoes
        (.write engine.window PortRegister.is allBits :: polls) handed) :
      Offers engine command before slot ready
        (looks ++ .write engine.window PortRegister.is allBits :: polls) handed

/-- The four ways in which a command is run, with the accesses that are made meanwhile, oldest
first, how it ends, and the world behind it. Memory and registers change in no other way. -/
inductive Runs (engine : Engine) (command : Command) (before : World σ) :
    List Access → Except Halt (Except CommandError Unit × Engine) → World σ → Prop where
  /-- No slot is open. -/
  | full {looks : List Access} {busy : UInt32} {looked : World σ} {log : Log}
      (hlooking : engine.Looked before looks busy looked)
      (hshut : ∀ slot, ¬engine.slots.Lowest busy slot) :
      Runs engine command before looks (.ok (.error .noSlot, engine)) { looked with log }
  /-- The transfer cannot be described. -/
  | undescribed {looks : List Access} {busy : UInt32} {looked : World σ} {slot : Nat}
      {error : ScatterError} (hlooking : engine.Looked before looks busy looked)
      (hlowest : engine.slots.Lowest busy slot) (hformed : engine.scatter command = .error error) :
      Runs engine command before looks (.ok (.error (.transfer error), engine)) looked
  /-- The device does not get ready. -/
  | hung {made : List Access} {slot : Nat} {after : World σ}
      (hoffers : engine.Offers command before slot false made after) :
      Runs engine command before made (.ok (.error .portHung, engine)) after
  /-- The slot is issued, and watched to its end. -/
  | issued {earlier later : List Access} {slot : Nat} {handed after : World σ}
      {outcome? : Option (Except CommandError Unit)}
      (hoffers : engine.Offers command before slot true earlier handed)
      (hhanding : handed.Undergoes
        (.write engine.window PortRegister.ci (Word.only slot) :: later) after)
      (hwatched : Access.Watch engine.window slot command.isPacket
        (HostM.allowance engine.config.completionLimit before) later outcome?) :
      Runs engine command before
        (earlier ++ .write engine.window PortRegister.ci (Word.only slot) :: later)
        (((outcome?.map Except.ok).getD (HostM.overdue engine.config.completionLimit)).map
          (·, engine)) after

variable {engine : Engine} {command : Command} {before after : World σ} {slot : Nat}
  {made : List Access} {result : Except Halt (Except CommandError Unit × Engine)}

/-- What is stored for a command that can be described is the command, as the device would fetch it,
whatever the memory held before. -/
theorem conveys_build {entries : List ScatterEntry} (hbound : slot < slotCount)
    (hformed : engine.scatter command = .ok entries) (memory : Memory)
    (hlayout : engine.areas.Layout) :
    (FetchedCommand.fetch (engine.areas.list.address 0) slot
      (engine.build slot command entries memory)).Conveys engine.areas command := by
  rw [fetch_build hlayout hbound command (transfer_run hlayout hbound hformed memory).1]
  exact conveys_fetched hlayout hformed

/-- Whatever becomes of a command once it is submitted, and however its slot was marked meanwhile,
the slots of the engine are left as they were. -/
theorem exec_runCommand_of_submit {busy : UInt32} {looked : World σ}
    (result : Except Halt (Except CommandError Unit)) (marks : List SlotState)
    (hlooking : (HostM.busySlots engine.window).exec before = (.ok busy, looked))
    (hlowest : engine.slots.Lowest busy slot)
    (hsubmitted : (engine.submit (engine.slots.mark slot .claimed) slot command).exec looked =
      (result.map (·, marks.foldl (fun arena state => arena.mark slot state) engine.slots),
        after)) :
    (EngineM.runCommand command).exec engine before = (result.map (·, engine), after) := by
  have hclaim := SlotArena.claim_eq_ok_iff_lowest.2 ⟨rfl, hlowest⟩
  obtain ⟨_, _, hagain, hways⟩ := EngineM.exec_runCommand command engine before
  cases hlooking.symm.trans hagain
  obtain ⟨shortage, hshort, _⟩ | ⟨_, _, _, _, hfound, hdone, hran⟩ := hways
  · cases hclaim.symm.trans hshort
  · cases hclaim.symm.trans hfound
    cases hsubmitted.symm.trans hdone
    rw [hran]
    cases result with
    | error reason => rfl
    | ok outcome => simp only [Except.map, SlotArena.release_marks_of_free hlowest.free]

/-- A command for which a slot is open is submitted there, and then it goes one of the last three
ways. -/
theorem exists_runs_of_lowest {looks : List Access} {busy : UInt32} {looked : World σ}
    (hlooking : (HostM.busySlots engine.window).exec before = (.ok busy, looked))
    (hseen : engine.Looked before looks busy looked) (hlowest : engine.slots.Lowest busy slot) :
    ∃ made, engine.Runs command before made ((EngineM.runCommand command).exec engine before).1
      ((EngineM.runCommand command).exec engine before).2 := by
  have hbound : slot < slotCount := Nat.lt_of_lt_of_le hlowest.below engine.slots.count_le
  cases hformed : engine.scatter command with
  | error error =>
    have hsubmitted : (engine.submit (engine.slots.mark slot .claimed) slot command).exec looked =
        (.ok (.error (.transfer error), engine.slots.mark slot .claimed), looked) := by
      rw [submit, hformed]
      rfl
    rw [exec_runCommand_of_submit (.ok _) [.claimed] hlooking hlowest hsubmitted]
    exact ⟨looks, .undescribed hseen hlowest hformed⟩
  | ok entries =>
    have hbuilt : (HostM.changeMemory (engine.build slot command entries)).exec looked =
      (.ok (), engine.store slot command entries looked) := rfl
    have hsubmitted : (engine.submit (engine.slots.mark slot .claimed) slot command).exec looked =
        (HostM.issueAndWait engine.window (engine.slots.mark slot .claimed) slot engine.config
          command.isPacket).exec (engine.store slot command entries looked) := by
      rw [submit, hformed]
      exact HostM.exec_bind_ok hbuilt
    have hstored : engine.areas.Layout → (FetchedCommand.fetch (engine.areas.list.address 0) slot
        (engine.store slot command entries looked).memory).Conveys engine.areas command :=
      conveys_build hbound hformed looked.memory
    obtain ⟨polls, after, hwaited, hacknowledging, hended⟩ |
      ⟨polls, later, outcome?, handed, after, hwaited, hacknowledging, hhanding,
        hwatched, hended⟩ :=
        HostM.exec_issueAndWait engine.window (engine.slots.mark slot .claimed) slot engine.config
          command.isPacket (engine.store slot command entries looked)
    · rw [exec_runCommand_of_submit (.ok _) [.claimed] hlooking hlowest (hsubmitted.trans hended)]
      exact ⟨_, .hung (.intro hseen hlowest hformed hstored hwaited hacknowledging)⟩
    · rw [exec_runCommand_of_submit _ [.claimed, .issued, .done] hlooking hlowest
        (hsubmitted.trans hended)]
      have hpatient :=
        (engine.patience_store slot command entries looked).trans hseen.undergone.patience
      rw [HostM.allowance_congr hpatient] at hwatched
      exact ⟨_, .issued (.intro hseen hlowest hformed hstored hwaited hacknowledging)
        hhanding hwatched⟩

/-- Each run of a command goes one of the four ways, over any device and on any engine. -/
theorem exists_runs (engine : Engine) (command : Command) (world : World σ) :
    ∃ made, engine.Runs command world made ((EngineM.runCommand command).exec engine world).1
      ((EngineM.runCommand command).exec engine world).2 := by
  obtain ⟨looks, busy, looked, hshown, hlooking, hundergone⟩ :=
    (HostM.converses_busySlots engine.window).exists_of_exec world
  have hseen : engine.Looked world looks busy looked := ⟨hshown, hundergone⟩
  by_cases hopen : ∃ slot, engine.slots.Lowest busy slot
  · obtain ⟨slot, hlowest⟩ := hopen
    exact exists_runs_of_lowest hlooking hseen hlowest
  · obtain ⟨_, _, hagain, hways⟩ := EngineM.exec_runCommand command engine world
    cases hlooking.symm.trans hagain
    obtain ⟨shortage, hshort, hran⟩ | ⟨slot, claimed, _, _, hclaim, _⟩ := hways
    · rw [hran]
      exact ⟨looks, .full hseen (not_exists.1 hopen)⟩
    · exact absurd ⟨slot, (SlotArena.claim_eq_ok_iff_lowest.1 hclaim).2⟩ hopen

theorem Looked.within {looks : List Access} {busy : UInt32}
    (hlooking : engine.Looked before looks busy after) :
    Access.Within engine.window .none looks := by
  obtain ⟨outstanding, issued, rfl, _⟩ := hlooking.shown
  simp [Access.Within]

/-- Until a slot is issued, nothing is written but PxIS. -/
theorem Offers.within {ready : Bool}
    (hoffers : engine.Offers command before slot ready made after) :
    Access.Within engine.window (fun offset _ => offset = PortRegister.is) made := by
  have hmono {some_ : List Access} (hwithin : Access.Within engine.window .none some_) :
      Access.Within engine.window (fun offset _ => offset = PortRegister.is) some_ := by
    intro access hmember
    rcases hwithin access hmember with hread | ⟨_, _, hnone, _⟩
    · exact .inl hread
    · exact hnone.elim
  obtain ⟨hlooking, hlowest, hformed, hstored, hwaited, hacknowledging⟩ := hoffers
  exact List.forall_mem_append.2 ⟨hmono hlooking.within,
    List.forall_mem_cons.2 ⟨.inr ⟨_, _, rfl, rfl⟩, hmono hwaited.within⟩⟩

theorem Offers.accesses {ready : Bool}
    (hoffers : engine.Offers command before slot ready made after) :
    after.accesses = made.reverse ++ before.accesses := by
  obtain ⟨hlooking, hlowest, hformed, hstored, hwaited, hacknowledging⟩ := hoffers
  rw [hacknowledging.accesses, accesses_store, hlooking.undergone.accesses, List.reverse_append,
    List.append_assoc]

theorem Runs.accesses (hruns : engine.Runs command before made result after) :
    after.accesses = made.reverse ++ before.accesses := by
  cases hruns with
  | full hlooking hshut => exact hlooking.undergone.accesses
  | undescribed hlooking hlowest hformed => exact hlooking.undergone.accesses
  | hung hoffers => exact hoffers.accesses
  | issued hoffers hhanding hwatched =>
    rw [hhanding.accesses, hoffers.accesses, List.reverse_append, List.append_assoc]

theorem Offers.countP_isIssue {ready : Bool}
    (hoffers : engine.Offers command before slot ready made after) :
    made.countP Access.isIssue = 0 := by
  apply hoffers.within.countP_isIssue
  rintro _ _ rfl
  decide

theorem countP_isIssue_issued {earlier later : List Access} (value : UInt32)
    (hearly : earlier.countP Access.isIssue = 0)
    (hlate : Access.Within engine.window .none later) :
    (earlier ++ .write engine.window PortRegister.ci value :: later).countP Access.isIssue = 1 := by
  have hissues : Access.isIssue (.write engine.window PortRegister.ci value) = true := by
    simp [Access.isIssue]
  rw [List.countP_append, List.countP_cons_of_pos hissues, hearly, hlate.countP_isIssue_of_none]

theorem Runs.countP_isIssue_le (hruns : engine.Runs command before made result after) :
    made.countP Access.isIssue ≤ 1 := by
  cases hruns with
  | full hlooking hshut => simp [hlooking.within.countP_isIssue_of_none]
  | undescribed hlooking hlowest hformed => simp [hlooking.within.countP_isIssue_of_none]
  | hung hoffers => simp [hoffers.countP_isIssue]
  | issued hoffers hhanding hwatched =>
    exact Nat.le_of_eq (countP_isIssue_issued _ hoffers.countP_isIssue hwatched.within)

/-- A slot is issued behind all that has to be done before, by a value with its bit alone, and from
there on nothing is written. -/
theorem Runs.exists_offers (hruns : engine.Runs command before made result after) {issue : Access}
    (hmember : issue ∈ made) (hissues : issue.isIssue = true) :
    ∃ slot value earlier later handed,
      made = earlier ++ issue :: later ∧
      issue = .write engine.window PortRegister.ci value ∧
      (∀ bit, Word.test value bit = decide (bit = slot)) ∧
      engine.Offers command before slot true earlier handed ∧
      handed.Undergoes (issue :: later) after ∧
      Access.Within engine.window .none later := by
  have habsent {made : List Access} (hnone : made.countP Access.isIssue = 0) : issue ∉ made :=
    fun hmember => List.countP_eq_zero.1 hnone issue hmember hissues
  cases hruns with
  | full hlooking hshut => exact absurd hmember (habsent hlooking.within.countP_isIssue_of_none)
  | undescribed hlooking hlowest hformed =>
    exact absurd hmember (habsent hlooking.within.countP_isIssue_of_none)
  | hung hoffers => exact absurd hmember (habsent hoffers.countP_isIssue)
  | @issued earlier later slot handed _ outcome? hoffers hhanding hwatched =>
    have hhead : issue = .write engine.window PortRegister.ci (Word.only slot) := by
      rcases List.mem_append.1 hmember with hearly | hrest
      · exact absurd hearly (habsent hoffers.countP_isIssue)
      · rcases List.mem_cons.1 hrest with hhead | hlate
        · exact hhead
        · exact absurd hlate (habsent hwatched.within.countP_isIssue_of_none)
    have hbound : slot < 32 := by
      obtain ⟨hlooking, hlowest, _⟩ := hoffers
      exact Nat.lt_of_lt_of_le hlowest.below engine.slots.count_le
    subst hhead
    refine ⟨slot, _, earlier, later, handed, rfl, rfl, fun bit => ?_, hoffers, hhanding,
      hwatched.within⟩
    simp [Word.test_only, hbound, eq_comm]

/-- A run that returns leaves the engine as it was, and its outcome tells whether a slot was issued:
none was just where the command fails for a reason of commands that are not issued. -/
theorem Runs.returned {outcome : Except CommandError Unit} {left : Engine}
    (hruns : engine.Runs command before made (.ok (outcome, left)) after) :
    left = engine ∧
      (made.countP Access.isIssue = 0 ↔ ∃ error, outcome = .error error ∧ error.Unissued) ∧
      (outcome = .error .noSlot ∨ (∃ error, outcome = .error (.transfer error)) →
        Access.Within engine.window .none made) := by
  generalize hended : (Except.ok (outcome, left) : Except Halt _) = result at hruns
  cases hruns with
  | full hlooking hshut =>
    cases hended
    have hnone := hlooking.within.countP_isIssue_of_none
    exact ⟨rfl, ⟨fun _ => ⟨_, rfl, .inl rfl⟩, fun _ => hnone⟩, fun _ => hlooking.within⟩
  | undescribed hlooking hlowest hformed =>
    cases hended
    have hnone := hlooking.within.countP_isIssue_of_none
    exact ⟨rfl, ⟨fun _ => ⟨_, rfl, .inr (.inr ⟨_, rfl⟩)⟩, fun _ => hnone⟩, fun _ => hlooking.within⟩
  | hung hoffers =>
    cases hended
    refine ⟨rfl, ⟨fun _ => ⟨_, rfl, .inr (.inl rfl)⟩, fun _ => hoffers.countP_isIssue⟩, ?_⟩
    rintro (hsame | ⟨error, hsame⟩) <;> cases hsame
  | @issued earlier later slot handed _ outcome? hoffers hhanding hwatched =>
    have honce := countP_isIssue_issued (Word.only slot) hoffers.countP_isIssue hwatched.within
    cases htold : (outcome?.map Except.ok).getD
      (HostM.overdue engine.config.completionLimit) with
    | error reason =>
      rw [htold] at hended
      cases hended
    | ok concluded =>
      rw [htold] at hended
      cases hended
      have hissued : ¬∃ error, outcome = .error error ∧ error.Unissued := by
        rintro ⟨error, rfl, hunissued⟩
        exact hwatched.not_unissued htold hunissued
      refine ⟨rfl, ⟨fun hnone => ?_, fun hunissued => absurd hunissued hissued⟩,
        fun hunissued => ?_⟩
      · cases honce.symm.trans hnone
      · refine absurd ?_ hissued
        rcases hunissued with rfl | ⟨error, rfl⟩
        · exact ⟨_, rfl, .inl rfl⟩
        · exact ⟨_, rfl, .inr (.inr ⟨error, rfl⟩)⟩

/-- For any engine, command and world, over any device. A run of the command issues at most one
slot, by a value with this bit alone. This is the lowest of the slots that were free and that PxSACT
and PxCI showed clear at the beginning. It is issued once the command was stored in it, once PxIS
was cleared after that, and right after the task file showed the device ready, within as many reads
as the device is given; from there on nothing is written. If the run returns it leaves the engine
with its slots as it was, a command is not issued just where it fails for want of a slot, for its
transfer or for a device that is not ready, and in the first and the second of these cases no
register is written at all. A run that halts over a wait without a limit is bound by the first part
alone. -/
theorem lowest_open_slot_issued_once (engine : Engine) (command : Command) (world : World σ) :
    let ran := (EngineM.runCommand command).exec engine world
    ∃ made, ran.2.accesses = made.reverse ++ world.accesses ∧
      made.countP Access.isIssue ≤ 1 ∧
      (∀ issue ∈ made, issue.isIssue = true → ∃ slot value earlier later handed,
        made = earlier ++ issue :: later ∧
        issue = .write engine.window PortRegister.ci value ∧
        (∀ bit, Word.test value bit = decide (bit = slot)) ∧
        engine.Offers command world slot true earlier handed ∧
        handed.Undergoes (issue :: later) ran.2 ∧
        Access.Within engine.window .none later) ∧
      ∀ outcome left, ran.1 = .ok (outcome, left) → left = engine ∧
        (made.countP Access.isIssue = 0 ↔ ∃ error, outcome = .error error ∧ error.Unissued) ∧
        (outcome = .error .noSlot ∨ (∃ error, outcome = .error (.transfer error)) →
          Access.Within engine.window .none made) := by
  intro ran
  obtain ⟨made, hruns⟩ := exists_runs engine command world
  refine ⟨made, hruns.accesses, ?_⟩
  change engine.Runs command world made ran.1 ran.2 at hruns
  refine ⟨hruns.countP_isIssue_le, fun issue => hruns.exists_offers,
    fun outcome left hreturned => ?_⟩
  rw [hreturned] at hruns
  exact hruns.returned

end Engine

end Ahci
