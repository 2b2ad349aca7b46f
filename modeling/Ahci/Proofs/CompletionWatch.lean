import Ahci.Engine.Completion
import Ahci.Proofs.RegisterDialogue

/-!
How an issued command is watched, over any device. A poll reads PxIS, then PxCI, then PxIS again,
and stops where it knows enough; `Access.Poll` lists what it can see and what follows from it. A
command is watched up to the first poll that concludes something, or until it was polled as often
as its limit allows. The count of polls is a word that never overflows: `countedPolls` keeps it so,
and watches as `awaitCompletion` does.
-/

namespace Ahci

/-- The bits TFES, HBFS, HBDS and IFS of PxIS, each of which shows an error. -/
def StatusBit.errors : List Nat :=
  [hostBusFatal, hostBusData, interfaceFatal, taskFile]

/-- The error that a status with an error bit stands for, given the task file read behind it. The
bits are ranked host bus fatal, host bus data, interface fatal, task file, and the gravest that is
set decides. A task file error is a check condition for a packet command, and otherwise carries the
error register. -/
inductive CommandError.Blamed (status file : UInt32) (packet : Bool) : CommandError → Prop where
  | hostBusFatal (hfatal : Word.test status StatusBit.hostBusFatal = true) :
      Blamed status file packet .hostBusFatal
  | hostBusData (hfatal : Word.test status StatusBit.hostBusFatal = false)
      (hdata : Word.test status StatusBit.hostBusData = true) :
      Blamed status file packet .hostBusData
  | interfaceFatal (hfatal : Word.test status StatusBit.hostBusFatal = false)
      (hdata : Word.test status StatusBit.hostBusData = false)
      (hinterface : Word.test status StatusBit.interfaceFatal = true) :
      Blamed status file packet .interfaceFatal
  /-- The device failed a packet command. -/
  | checkCondition (hfatal : Word.test status StatusBit.hostBusFatal = false)
      (hdata : Word.test status StatusBit.hostBusData = false)
      (hinterface : Word.test status StatusBit.interfaceFatal = false)
      (hdevice : Word.test status StatusBit.taskFile = true) (hsent : packet = true) :
      Blamed status file packet .checkCondition
  /-- The device failed any other command; the second byte of its task file tells why. -/
  | taskFile {error : UInt8} (hfatal : Word.test status StatusBit.hostBusFatal = false)
      (hdata : Word.test status StatusBit.hostBusData = false)
      (hinterface : Word.test status StatusBit.interfaceFatal = false)
      (hdevice : Word.test status StatusBit.taskFile = true) (hsent : packet = false)
      (hsecond : error.toNat = file.toNat / 256 % 256) :
      Blamed status file packet (.taskFile error)

namespace Access

/-- One poll of an issued slot, and what it concludes, if anything. PxIS is read first, and an error
there concludes the poll with PxTFD. Otherwise PxCI is read: a slot still set leaves the poll
inconclusive, and behind a slot that is clear PxIS is read once more, since an error may have
arrived between the two reads. -/
inductive Poll (window : Window) (slot : Nat) (packet : Bool) :
    List Access → Option (Except CommandError Unit) → Prop where
  /-- The status shows an error. -/
  | failed {status file : UInt32} {error : CommandError}
      (hblamed : CommandError.Blamed status file packet error) :
      Poll window slot packet
        [.read window PortRegister.is status, .read window PortRegister.tfd file]
        (some (.error error))
  /-- The slot is still issued. -/
  | pending {status issued : UInt32}
      (hclean : ∀ bit ∈ StatusBit.errors, Word.test status bit = false)
      (hset : Word.test issued slot = true) :
      Poll window slot packet
        [.read window PortRegister.is status, .read window PortRegister.ci issued] none
  /-- The slot is clear, and an error arrived meanwhile. -/
  | overtaken {status issued late file : UInt32} {error : CommandError}
      (hclean : ∀ bit ∈ StatusBit.errors, Word.test status bit = false)
      (hclear : Word.test issued slot = false)
      (hblamed : CommandError.Blamed late file packet error) :
      Poll window slot packet
        [.read window PortRegister.is status, .read window PortRegister.ci issued,
          .read window PortRegister.is late, .read window PortRegister.tfd file]
        (some (.error error))
  /-- The slot is clear, and there is no error. -/
  | completed {status issued late : UInt32}
      (hclean : ∀ bit ∈ StatusBit.errors, Word.test status bit = false)
      (hclear : Word.test issued slot = false)
      (hstill : ∀ bit ∈ StatusBit.errors, Word.test late bit = false) :
      Poll window slot packet
        [.read window PortRegister.is status, .read window PortRegister.ci issued,
          .read window PortRegister.is late]
        (some (.ok ()))

/-- The polls of an issued slot of which at most `most` are made, and what they conclude. All but
the last conclude nothing; without a conclusion there are exactly `most` of them. -/
inductive Watch (window : Window) (slot : Nat) (packet : Bool) (most : Nat) :
    List Access → Option (Except CommandError Unit) → Prop where
  /-- The last poll concludes something, and no poll before. -/
  | concluded {pending : List (List Access)} {last : List Access}
      {outcome : Except CommandError Unit} (hfew : pending.length < most)
      (hinconclusive : ∀ poll ∈ pending, Poll window slot packet poll none)
      (hconcludes : Poll window slot packet last (some outcome)) :
      Watch window slot packet most (pending.flatten ++ last) (some outcome)
  /-- As many polls as there may be conclude nothing. -/
  | exhausted {pending : List (List Access)} (hall : pending.length = most)
      (hinconclusive : ∀ poll ∈ pending, Poll window slot packet poll none) :
      Watch window slot packet most pending.flatten none

variable {window : Window} {slot most : Nat} {packet : Bool} {made : List Access}
  {outcome? : Option (Except CommandError Unit)}

theorem watch_zero_iff : Watch window slot packet 0 made outcome? ↔
    made = [] ∧ outcome? = none := by
  constructor
  · rintro (⟨hfew, _, _⟩ | ⟨hall, _⟩)
    · exact absurd hfew (Nat.not_lt_zero _)
    · rw [List.eq_nil_of_length_eq_zero hall]
      exact ⟨rfl, rfl⟩
  · rintro ⟨rfl, rfl⟩
    rw [← List.flatten_nil]
    exact .exhausted rfl (by simp)

/-- A watch with polls left either concludes with its first poll, or its first poll is inconclusive
and it goes on with one poll less. -/
theorem watch_succ_iff : Watch window slot packet (most + 1) made outcome? ↔
    (∃ outcome, Poll window slot packet made (some outcome) ∧ outcome? = some outcome) ∨
      ∃ poll rest, made = poll ++ rest ∧ Poll window slot packet poll none ∧
        Watch window slot packet most rest outcome? := by
  constructor
  · rintro (@⟨pending, last, outcome, hfew, hinconclusive, hconcludes⟩ |
      @⟨pending, hall, hinconclusive⟩)
    · cases pending with
      | nil => exact .inl ⟨outcome, hconcludes, rfl⟩
      | cons poll others =>
        obtain ⟨hhead, hlater⟩ := List.forall_mem_cons.1 hinconclusive
        exact .inr ⟨poll, _, by rw [List.flatten_cons, List.append_assoc], hhead,
          .concluded (Nat.lt_of_succ_lt_succ hfew) hlater hconcludes⟩
    · cases pending with
      | nil => cases hall
      | cons poll others =>
        obtain ⟨hhead, hlater⟩ := List.forall_mem_cons.1 hinconclusive
        exact .inr ⟨poll, _, List.flatten_cons, hhead, .exhausted (Nat.succ.inj hall) hlater⟩
  · rintro (⟨outcome, hconcludes, rfl⟩ | ⟨poll, _, rfl, hhead, hwatch⟩)
    · rw [← List.nil_append made, ← List.flatten_nil]
      exact .concluded (Nat.succ_pos _) (by simp) hconcludes
    · cases hwatch with
      | @concluded pending last outcome hfew hlater hconcludes =>
        rw [← List.append_assoc, ← List.flatten_cons]
        exact .concluded (Nat.succ_lt_succ hfew) (List.forall_mem_cons.2 ⟨hhead, hlater⟩) hconcludes
      | @exhausted pending hall hlater =>
        rw [← List.flatten_cons]
        exact .exhausted (congrArg Nat.succ hall) (List.forall_mem_cons.2 ⟨hhead, hlater⟩)

/-- A poll that concludes nothing makes two reads, and no poll makes more than four. -/
theorem Poll.length_le (hpoll : Poll window slot packet made outcome?) :
    made.length ≤ if outcome? = none then 2 else 4 := by
  cases hpoll <;> simp

/-- A watch makes at most two reads for each poll it is allowed and two more, because only its last
poll can be conclusive. -/
theorem Watch.length_le (hwatch : Watch window slot packet most made outcome?) :
    made.length ≤ 2 * most + 2 := by
  induction most generalizing made with
  | zero => simp [(watch_zero_iff.1 hwatch).1]
  | succ most ih =>
    rcases watch_succ_iff.1 hwatch with ⟨outcome, hconcludes, _⟩ | ⟨poll, rest, rfl, hhead, hwatch⟩
    · have hfew := hconcludes.length_le
      simp only [reduceCtorEq, if_false] at hfew
      omega
    · have hfew := hhead.length_le
      have hothers := ih hwatch
      simp only [if_true] at hfew
      rw [List.length_append]
      omega

end Access

/-- A status counts as free of errors if none of the four error bits is set in it. -/
theorem showsError_eq_false_iff (status : UInt32) :
    showsError status = false ↔ ∀ bit ∈ StatusBit.errors, Word.test status bit = false := by
  simp only [showsError, StatusBit.errors, Bool.or_eq_false_iff, List.forall_mem_cons]
  constructor
  · rintro ⟨⟨⟨hinterface, hdata⟩, hfatal⟩, hdevice⟩
    exact ⟨hfatal, hdata, hinterface, hdevice, by simp⟩
  · rintro ⟨hfatal, hdata, hinterface, hdevice, _⟩
    exact ⟨⟨⟨hinterface, hdata⟩, hfatal⟩, hdevice⟩

theorem TaskFile.error_eq_iff (file : UInt32) (error : UInt8) :
    error = (TaskFile.ofWord file).error ↔ error.toNat = file.toNat / 256 % 256 := by
  have hbyte : (TaskFile.ofWord file).error.toNat = file.toNat / 256 % 256 := by
    simp [TaskFile.ofWord, Word.bits, BitVec.extractLsb'_toNat, Nat.shiftRight_eq_div_pow]
  rw [← hbyte, UInt8.toNat_inj]

namespace CommandError

/-- `CommandError.Blamed` tells just what the classification computes: some error bit is set, and
the error is the one chosen for it. -/
theorem blamed_iff {status file : UInt32} {packet : Bool} {error : CommandError} :
    Blamed status file packet error ↔ showsError status = true ∧
      error = .ofCompletion status (.ofWord file) packet := by
  constructor
  · rintro (hfatal | ⟨hfatal, hdata⟩ | ⟨hfatal, hdata, hinterface⟩ |
      ⟨hfatal, hdata, hinterface, hdevice, rfl⟩ |
        ⟨hfatal, hdata, hinterface, hdevice, rfl, hsecond⟩)
    · simp [showsError, ofCompletion, hfatal]
    · simp [showsError, ofCompletion, hfatal, hdata]
    · simp [showsError, ofCompletion, hfatal, hdata, hinterface]
    · simp [showsError, ofCompletion, hfatal, hdata, hinterface, hdevice]
    · rw [(TaskFile.error_eq_iff file _).2 hsecond]
      simp [showsError, ofCompletion, hfatal, hdata, hinterface, hdevice]
  · rintro ⟨hshows, rfl⟩
    cases hfatal : Word.test status StatusBit.hostBusFatal with
    | true => simpa [ofCompletion, hfatal] using .hostBusFatal hfatal
    | false =>
    cases hdata : Word.test status StatusBit.hostBusData with
    | true => simpa [ofCompletion, hfatal, hdata] using .hostBusData hfatal hdata
    | false =>
    cases hinterface : Word.test status StatusBit.interfaceFatal with
    | true =>
      simpa [ofCompletion, hfatal, hdata, hinterface] using .interfaceFatal hfatal hdata hinterface
    | false =>
    have hdevice : Word.test status StatusBit.taskFile = true := by
      simpa [showsError, hfatal, hdata, hinterface] using hshows
    cases packet with
    | true =>
      simpa [ofCompletion, hfatal, hdata, hinterface] using
        .checkCondition hfatal hdata hinterface hdevice rfl
    | false =>
      simpa [ofCompletion, hfatal, hdata, hinterface] using
        .taskFile hfatal hdata hinterface hdevice rfl ((TaskFile.error_eq_iff file _).1 rfl)

end CommandError

namespace HostM

variable {σ : Type}

/-- How many polls a command is given. A limit allows as many polls as it says, and at least one.
Without a limit the number is the patience of the world, which stands for a wait that would go on
for ever. -/
def allowance (limit : Option UInt32) (world : World σ) : Nat :=
  match limit with
  | some limit => max 1 limit.toNat
  | none => world.patience + 1

theorem allowance_congr {limit : Option UInt32} {before world : World σ}
    (hsame : world.patience = before.patience) :
    allowance limit world = allowance limit before := by
  simp only [allowance, hsame]

/-- What a wait ends with if none of its polls concluded anything: a timeout if there was a limit,
and otherwise it never ends. -/
def overdue (limit : Option UInt32) : Except Halt (Except CommandError Unit) :=
  match limit with
  | some _ => .ok (.error .timeout)
  | none => .error .unending

/-- A watched command can keep the driver from returning only by a wait without a limit. -/
theorem eq_unending_of_overdue {outcome? : Option (Except CommandError Unit)}
    {limit : Option UInt32} {reason : Halt}
    (hended : (outcome?.map Except.ok).getD (overdue limit) = .error reason) :
    reason = .unending := by
  cases outcome? with
  | some outcome => cases hended
  | none =>
    cases limit with
    | some limit => cases hended
    | none =>
      cases hended
      rfl

variable [Device σ] (window : Window) (slot : Nat) (packet : Bool)

/-- To classify an error PxTFD is read once, whatever the error turns out to be. -/
theorem converses_completionError (status : UInt32) :
    (completionError window status packet : HostM σ _).Converses fun made error =>
      ∃ file, made = [.read window PortRegister.tfd file] ∧
        error = .ofCompletion status (.ofWord file) packet := by
  refine Converses.congr (fun made error => ?_) (.readThen fun file => .pure _)
  constructor
  · rintro ⟨file, _, rfl, rfl, rfl⟩
    exact ⟨file, rfl, rfl⟩
  · rintro ⟨file, rfl, rfl⟩
    exact ⟨file, [], rfl, rfl, rfl⟩

/-- One poll has just the dialogues of `Access.Poll`, over any device. -/
theorem converses_pollOnce :
    (pollOnce window slot packet : HostM σ _).Converses (Access.Poll window slot packet) := by
  have hfailed (status : UInt32) :=
    (converses_completionError (σ := σ) window packet status).bind fun error =>
      .pure (some (Except.error (α := Unit) error))
  refine Converses.congr (fun made outcome? => ?_) (.readThen fun status => .ite (hfailed status) <|
    .readThen fun issued => .ite (.pure none) <|
      .readThen fun late => .ite (hfailed late) (.pure _))
  constructor
  · rintro ⟨status, _, rfl, ⟨hshows, _, _, _, rfl, ⟨file, rfl, rfl⟩, rfl, rfl⟩ | ⟨hsilent, hrest⟩⟩
    · exact .failed (CommandError.blamed_iff.2 ⟨hshows, rfl⟩)
    · have hclean := (showsError_eq_false_iff status).1 (by simpa using hsilent)
      obtain ⟨issued, _, rfl, ⟨hset, rfl, rfl⟩ | ⟨hunset, late, _, rfl, hrest⟩⟩ := hrest
      · exact .pending hclean hset
      · have hclear : Word.test issued slot = false := by simpa using hunset
        obtain ⟨hshows, _, _, _, rfl, ⟨file, rfl, rfl⟩, rfl, rfl⟩ | ⟨hsilent, rfl, rfl⟩ := hrest
        · exact .overtaken hclean hclear (CommandError.blamed_iff.2 ⟨hshows, rfl⟩)
        · exact .completed hclean hclear ((showsError_eq_false_iff late).1 (by simpa using hsilent))
  · rintro (hblamed | ⟨hclean, hset⟩ | ⟨hclean, hclear, hblamed⟩ | ⟨hclean, hclear, hstill⟩)
    · obtain ⟨hshows, rfl⟩ := CommandError.blamed_iff.1 hblamed
      exact ⟨_, _, rfl, .inl ⟨hshows, _, _, _, rfl, ⟨_, rfl, rfl⟩, rfl, rfl⟩⟩
    · have hsilent := (showsError_eq_false_iff _).2 hclean
      exact ⟨_, _, rfl, .inr ⟨by simp [hsilent], _, _, rfl, .inl ⟨hset, rfl, rfl⟩⟩⟩
    · have hsilent := (showsError_eq_false_iff _).2 hclean
      obtain ⟨hshows, rfl⟩ := CommandError.blamed_iff.1 hblamed
      exact ⟨_, _, rfl, .inr ⟨by simp [hsilent], _, _, rfl, .inr ⟨by simp [hclear], _, _, rfl,
        .inl ⟨hshows, _, _, _, rfl, ⟨_, rfl, rfl⟩, rfl, rfl⟩⟩⟩⟩
    · have hsilent := (showsError_eq_false_iff _).2 hclean
      have hquiet := (showsError_eq_false_iff _).2 hstill
      exact ⟨_, _, rfl, .inr ⟨by simp [hsilent], _, _, rfl, .inr ⟨by simp [hclear], _, _, rfl,
        .inr ⟨by simp [hquiet], rfl, rfl⟩⟩⟩⟩

/-- Polling a number of times has just the dialogues of `Access.Watch` with that number. -/
theorem converses_firstConclusive (polls : Nat) :
    (firstConclusive window slot packet polls : HostM σ _).Converses
      (Access.Watch window slot packet polls) := by
  induction polls with
  | zero => exact (Converses.pure none).congr fun made outcome? => Access.watch_zero_iff.symm
  | succ polls ih =>
    have htalks : (firstConclusive window slot packet (polls + 1) : HostM σ _).Converses
        fun made outcome? => ∃ poll first? late, made = poll ++ late ∧
          Access.Poll window slot packet poll first? ∧
          ((∃ outcome, first? = some outcome ∧ late = [] ∧ outcome? = some outcome) ∨
            first? = none ∧ Access.Watch window slot packet polls late outcome?) := by
      apply (converses_pollOnce window slot packet).bind
      intro first?
      cases first? with
      | none => exact ih.congr (by simp)
      | some outcome => exact (Converses.pure (some outcome)).congr (by simp)
    refine htalks.congr fun made outcome? => ?_
    rw [Access.watch_succ_iff]
    constructor
    · rintro ⟨poll, _, late, rfl, hpolled, ⟨outcome, rfl, rfl, rfl⟩ | ⟨rfl, hwatch⟩⟩
      · rw [List.append_nil]
        exact .inl ⟨outcome, hpolled, rfl⟩
      · exact .inr ⟨poll, late, rfl, hpolled, hwatch⟩
    · rintro (⟨outcome, hpolled, rfl⟩ | ⟨poll, late, rfl, hpolled, hwatch⟩)
      · exact ⟨made, _, [], (List.append_nil made).symm, hpolled, .inl ⟨outcome, rfl, rfl, rfl⟩⟩
      · exact ⟨poll, none, late, rfl, hpolled, .inr ⟨rfl, hwatch⟩⟩

/-- Over any device a wait for a completion goes from one world to another exactly by a watch within
its allowance, and ends with what the watch concludes or, without a conclusion, as overdue. -/
theorem exec_awaitCompletion_iff (limit : Option UInt32) (world after : World σ)
    (result : Except Halt (Except CommandError Unit)) :
    (awaitCompletion window slot limit packet).exec world = (result, after) ↔
      ∃ made outcome?, Access.Watch window slot packet (allowance limit world) made outcome? ∧
        world.Undergoes made after ∧ result = (outcome?.map Except.ok).getD (overdue limit) := by
  have htalks := converses_firstConclusive (σ := σ) window slot packet (allowance limit world)
  have hends {outcome? : Option (Except CommandError Unit)} {between : World σ}
      (hwatched : (firstConclusive window slot packet (allowance limit world)).exec world =
        (.ok outcome?, between)) :
      (awaitCompletion window slot limit packet).exec world =
        ((outcome?.map Except.ok).getD (overdue limit), between) := by
    cases limit with
    | some limit =>
      rw [allowance] at hwatched
      rw [awaitCompletion, exec_bind_ok hwatched]
      cases outcome? <;> rfl
    | none =>
      rw [allowance] at hwatched
      rw [awaitCompletion, exec_bind_ok (exec_patience world), exec_bind_ok hwatched]
      cases outcome? <;> rfl
  constructor
  · intro hended
    obtain ⟨made, outcome?, between, hwatch, hwatched, hundergone⟩ := htalks.exists_of_exec world
    rw [hends hwatched] at hended
    cases hended
    exact ⟨made, outcome?, hwatch, hundergone, rfl⟩
  · rintro ⟨made, outcome?, hwatch, hundergone, rfl⟩
    exact hends (htalks.exec_eq hwatch hundergone)

/-! The count of polls. -/

/-- The successor of a count that is not the largest word is its successor as a number. -/
theorem toNat_succ_of_lt {count : UInt32} (hroom : count.toNat + 1 < UInt32.size) :
    (count + 1).toNat = count.toNat + 1 := by
  rw [UInt32.toNat_add, UInt32.toNat_one]
  exact Nat.mod_eq_of_lt hroom

/-- The wait for a completion with its count of polls kept in a word: each inconclusive poll adds
one to the count, and the wait times out once the count has reached the limit. Where the addition
would overflow, the program halts. -/
def countedPolls (limit count : UInt32) : HostM σ (Except CommandError Unit) := do
  match ← pollOnce window slot packet with
  | some outcome => pure outcome
  | none =>
    if room : count.toNat + 1 < UInt32.size then
      if below : count + 1 < limit then countedPolls limit (count + 1)
      else pure (.error .timeout)
    else halt .overflow
termination_by limit.toNat - count.toNat
decreasing_by
  have next := toNat_succ_of_lt room
  have less := UInt32.lt_iff_toNat_lt.1 below
  omega

/-- While the count has room in its word the addition does not overflow, and the comparison with the
limit is one of numbers. -/
theorem countedPolls_of_room {limit count : UInt32} (hroom : count.toNat + 1 < UInt32.size) :
    (countedPolls window slot packet limit count : HostM σ _) = (do
      match ← pollOnce window slot packet with
      | some outcome => pure outcome
      | none =>
        if count.toNat + 1 < limit.toNat then countedPolls window slot packet limit (count + 1)
        else pure (.error .timeout)) := by
  have hfurther := UInt32.lt_iff_toNat_lt (a := count + 1) (b := limit)
  rw [toNat_succ_of_lt hroom] at hfurther
  rw [countedPolls]
  congr 1
  funext outcome?
  cases outcome? with
  | some outcome => rfl
  | none =>
    rw [dif_pos hroom]
    simp only [hfurther, dite_eq_ite]

/-- From a count below the limit on, the counting wait polls as often as is left to the limit, and
times out if none of these polls is conclusive. The limit zero allows one poll, since the count is
compared behind it. -/
theorem countedPolls_eq {limit count : UInt32} {left : Nat}
    (hremain : count.toNat + (left + 1) = max 1 limit.toNat) :
    (countedPolls window slot packet limit count : HostM σ _) = (do
      match ← firstConclusive window slot packet (left + 1) with
      | some outcome => pure outcome
      | none => pure (.error .timeout)) := by
  have hroom : count.toNat + 1 < UInt32.size := by
    have hlow := limit.toNat_lt
    simp only [UInt32.size]
    omega
  induction left generalizing count with
  | zero =>
    rw [countedPolls_of_room window slot packet hroom, firstConclusive, bind_assoc]
    congr 1
    funext outcome?
    cases outcome? with
    | some outcome => rfl
    | none =>
      rw [if_neg (by omega)]
      rfl
  | succ left ih =>
    rw [countedPolls_of_room window slot packet hroom, firstConclusive, bind_assoc]
    congr 1
    funext outcome?
    cases outcome? with
    | some outcome => rfl
    | none =>
      have hnext := toNat_succ_of_lt hroom
      have hlow := limit.toNat_lt
      simp only [UInt32.size] at hlow ih
      rw [if_pos (by omega)]
      exact ih (by omega) (by omega)

/-- A wait with a limit is the wait that counts from zero. It never overflows, because the count
stops at the limit, which is itself a word. -/
theorem awaitCompletion_some_eq (limit : UInt32) :
    (awaitCompletion window slot (some limit) packet : HostM σ _) =
      countedPolls window slot packet limit 0 := by
  obtain ⟨left, hpolls⟩ : ∃ left, max 1 limit.toNat = left + 1 := ⟨max 1 limit.toNat - 1, by omega⟩
  have hremain : (0 : UInt32).toNat + (left + 1) = max 1 limit.toNat := by simp [hpolls]
  rw [countedPolls_eq window slot packet hremain, ← hpolls]
  rfl

/-- With a limit a wait times out exactly if it made as many polls as the limit says, and one at
least, and each of them was inconclusive. -/
theorem exec_awaitCompletion_timeout_iff (limit : UInt32) (world after : World σ) :
    (awaitCompletion window slot (some limit) packet).exec world =
        (.ok (.error .timeout), after) ↔
      ∃ polls : List (List Access), polls.length = max 1 limit.toNat ∧
        (∀ poll ∈ polls, Access.Poll window slot packet poll none) ∧
          world.Undergoes polls.flatten after := by
  rw [exec_awaitCompletion_iff]
  constructor
  · rintro ⟨made, outcome?, @⟨pending, last, outcome, hfew, hinconclusive, hconcludes⟩ |
      ⟨hall, hinconclusive⟩, hundergone, hended⟩
    · obtain rfl : Except.error .timeout = outcome := by simpa using hended
      rcases hconcludes with ⟨⟨⟩⟩ | _ | ⟨_, _, ⟨⟩⟩ | _
    · exact ⟨_, hall, hinconclusive, hundergone⟩
  · rintro ⟨polls, hall, hinconclusive, hundergone⟩
    exact ⟨_, none, .exhausted hall hinconclusive, hundergone, rfl⟩

/-- With a limit a wait returns over any device, after at most two reads for each poll and two
more. -/
theorem exists_exec_awaitCompletion_some (limit : UInt32) (world : World σ) :
    ∃ outcome after, (awaitCompletion window slot (some limit) packet).exec world =
        (.ok outcome, after) ∧
      after.accesses.length ≤ world.accesses.length + (2 * max 1 limit.toNat + 2) := by
  rcases hended : (awaitCompletion window slot (some limit) packet).exec world with ⟨result, after⟩
  obtain ⟨made, outcome?, hwatch, hundergone, rfl⟩ :=
    (exec_awaitCompletion_iff window slot packet (some limit) world after result).1 hended
  have hfew : made.length ≤ 2 * max 1 limit.toNat + 2 := hwatch.length_le
  refine ⟨outcome?.getD (.error .timeout), after, ?_, ?_⟩
  · cases outcome? <;> rfl
  · rw [hundergone.accesses, List.length_append, List.length_reverse]
    omega

/-- Over any device and from any world, the four facts about a wait for a completion. It goes from
one world to another exactly by a watch within its allowance: up to the first poll that concludes
something, which is its outcome, or through all polls. With a limit it times out exactly if it made
`max 1 limit` polls and all of them were inconclusive. With a limit it always returns, within two
reads for each poll and two more. And it equals the wait that counts its polls in a 32-bit word and
would halt on an overflow. Without a limit nothing bounds the wait: if no poll within the patience
of the world is conclusive, it is taken not to end. -/
theorem completion_decided_poll_by_poll (limit : Option UInt32) (most : UInt32)
    (world after : World σ) (result : Except Halt (Except CommandError Unit)) :
    ((awaitCompletion window slot limit packet).exec world = (result, after) ↔
      ∃ made outcome?, Access.Watch window slot packet (allowance limit world) made outcome? ∧
        world.Undergoes made after ∧ result = (outcome?.map Except.ok).getD (overdue limit)) ∧
    ((awaitCompletion window slot (some most) packet).exec world =
        (.ok (.error .timeout), after) ↔
      ∃ polls : List (List Access), polls.length = max 1 most.toNat ∧
        (∀ poll ∈ polls, Access.Poll window slot packet poll none) ∧
          world.Undergoes polls.flatten after) ∧
    (∃ outcome last, (awaitCompletion window slot (some most) packet).exec world =
        (.ok outcome, last) ∧
      last.accesses.length ≤ world.accesses.length + (2 * max 1 most.toNat + 2)) ∧
    (awaitCompletion window slot (some most) packet : HostM σ _) =
      countedPolls window slot packet most 0 :=
  ⟨exec_awaitCompletion_iff window slot packet limit world after result,
    exec_awaitCompletion_timeout_iff window slot packet most world after,
    exists_exec_awaitCompletion_some window slot packet most world,
    awaitCompletion_some_eq window slot packet most⟩

end HostM

end Ahci
