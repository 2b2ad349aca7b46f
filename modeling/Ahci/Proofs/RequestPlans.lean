import Ahci.Proofs.PortHistories
import Ahci.Proofs.RequestTiling

/-!
Block requests as plans of acts, over any device. A request is a list of pieces, and for each
piece it runs one command, having placed what the command takes. It carries its plan out in
order; at the first command that fails it turns to what the failure calls for, and then it ends.
A request whose pieces keep within the bounds of its buffers never gives up, but where a command
is waited for without a limit.
-/

namespace Ahci

variable {σ α β : Type} [Device σ]

/-! Plans. -/

namespace Act

/-- The acts carry a plan out up to some point, and behind that point they do nothing but what
amends a failure. -/
def Follow (amends plan acts : List Act) : Prop :=
  ∃ done tail, done <+: plan ∧ acts = done ++ tail ∧ ∀ act ∈ tail, act ∈ amends

/-- How the acts of a request relate to its plan. A request that succeeds did just its plan, and its
value is good. A request that fails followed its plan up to some point. It halts only as a wait
without an end, which takes a config without a limit on completions. -/
def Accord (base : Engine) (amends plan : List Act) (good : α → Prop) (acts : List Act) :
    Except Halt (Except IoError α) → Prop
  | .ok (.ok a) => acts = plan ∧ good a
  | .ok (.error _) => Follow amends plan acts
  | .error reason =>
    Follow amends plan acts ∧ reason = .unending ∧ base.config.completionLimit = none

variable {amends plan more acts others : List Act}

theorem follow_nil (amends plan : List Act) : Follow amends plan [] :=
  ⟨[], [], List.nil_prefix, rfl, by simp⟩

theorem follow_self (amends plan : List Act) : Follow amends plan plan :=
  ⟨plan, [], List.prefix_rfl, by simp, by simp⟩

/-- A whole plan may be followed by what amends a failure. -/
theorem follow_amended (plan : List Act) {tail : List Act} (hamended : ∀ act ∈ tail, act ∈ amends) :
    Follow amends plan (plan ++ tail) :=
  ⟨plan, tail, List.prefix_rfl, rfl, hamended⟩

theorem Follow.longer (hfollow : Follow amends plan acts) (more : List Act) :
    Follow amends (plan ++ more) acts := by
  obtain ⟨done, tail, hfront, rfl, hamended⟩ := hfollow
  exact ⟨done, tail, hfront.trans (List.prefix_append plan more), rfl, hamended⟩

/-- A plan that was carried out whole may stand before acts that follow another plan. -/
theorem Follow.behind (hfollow : Follow amends more others) (plan : List Act) :
    Follow amends (plan ++ more) (plan ++ others) := by
  obtain ⟨done, tail, hfront, rfl, hamended⟩ := hfollow
  refine ⟨plan ++ done, tail, ?_, by rw [List.append_assoc], hamended⟩
  exact (List.prefix_append_right_inj plan).2 hfront

/-- Each act of a request is in its plan, or amends a failure. -/
theorem Follow.mem (hfollow : Follow amends plan acts) {act : Act} (hmember : act ∈ acts) :
    act ∈ plan ∨ act ∈ amends := by
  obtain ⟨done, tail, hfront, rfl, hamended⟩ := hfollow
  rcases List.mem_append.1 hmember with hplanned | hlate
  · exact .inl (hfront.subset hplanned)
  · exact .inr (hamended act hlate)

variable {base : Engine} {good : β → Prop}

/-- A plan that was carried out whole may stand before acts that accord with another plan. -/
theorem Accord.behind {result : Except Halt (Except IoError β)}
    (haccord : Accord base amends more good others result) (plan : List Act) :
    Accord base amends (plan ++ more) good (plan ++ others) result := by
  rcases result with reason | error | b
  · exact ⟨haccord.1.behind plan, haccord.2⟩
  · exact Follow.behind haccord plan
  · exact ⟨congrArg (plan ++ ·) haccord.1, haccord.2⟩

/-- However a request ended, its acts follow its plan. -/
theorem Accord.follow {result : Except Halt (Except IoError β)}
    (haccord : Accord base amends plan good acts result) : Follow amends plan acts := by
  rcases result with reason | error | b
  · exact haccord.1
  · exact haccord
  · rw [haccord.1]
    exact follow_self amends plan

end Act

namespace EngineM

variable {base : Engine} {amends : List Act} {good : β → Prop}

theorem composes_guard {condition : Bool} (hholds : condition = true) {reason : Halt}
    {next : Unit → EngineM σ α} {told : List Act → Except Halt α → Prop}
    (hrest : (next ()).Composes base told) :
    (onHost (HostM.require condition reason) >>= next).Composes base told := by
  apply Composes.seq [] fun _ => True
  · apply Composes.require
    · exact fun _ => ⟨rfl, (), rfl, trivial⟩
    · intro hfails
      cases hholds.symm.trans hfails
  · exact fun _ _ => hrest

/-- Handling a failure behind a plan is at most a restart, and the request fails. -/
theorem accord_fail (hrestart : Act.restart ∈ amends) (plan : List Act) (label : String)
    (error : CommandError) :
    (do return .error (← withEngine (·.fail label error)) :
      EngineM σ (Except IoError β)).Composes base fun acts result =>
        Act.Accord base amends plan good (plan ++ acts) result := by
  have htold : (withEngine (·.fail label error) : EngineM σ IoError).Composes base
      fun acts result => (acts = [] ∨ acts = [.restart]) ∧ result = .ok error.toIoError :=
    .fail label error ⟨.inl rfl, rfl⟩ ⟨.inr rfl, rfl⟩
  apply htold.bind
  · rintro acts failure ⟨hrestarted, _⟩
    apply Composes.pure
    rw [List.append_nil]
    rcases hrestarted with rfl | rfl
    · rw [List.append_nil]
      exact Act.follow_self amends plan
    · exact Act.follow_amended plan (by simpa using hrestart)
  · rintro acts reason ⟨_, himpossible⟩
    cases himpossible

/-- A command accords with the plan of just this command, if the request ends well behind its
success, and behind its failure does nothing but amend it. -/
theorem accord_run {command : Command}
    {next : Except CommandError Unit → EngineM σ (Except IoError Unit)}
    (hdone : next (.ok ()) = pure (.ok ()))
    (hfailed : ∀ error, (next (.error error)).Composes base fun acts result =>
      Act.Accord base amends [.run command] (fun _ => True) ([.run command] ++ acts) result) :
    (runCommand command >>= next).Composes base
      (Act.Accord base amends [.run command] fun _ => True) := by
  have hran : (runCommand command : EngineM σ _).Composes base fun acts result =>
      acts = [.run command] ∧ ∀ reason, result = .error reason →
        reason = .unending ∧ base.config.completionLimit = none := by
    apply Composes.run
    · exact fun outcome => ⟨rfl, nofun⟩
    · refine fun hendless => ⟨rfl, ?_⟩
      rintro _ ⟨⟩
      exact ⟨rfl, hendless⟩
  apply hran.bind
  · rintro acts outcome ⟨rfl, _⟩
    cases outcome with
    | ok _ =>
      rw [hdone]
      exact Composes.pure ⟨rfl, trivial⟩
    | error error => exact hfailed error
  · rintro acts reason ⟨rfl, hendless⟩
    exact ⟨Act.follow_self amends _, hendless reason rfl⟩

end EngineM

namespace RequestM

/-- A request accords with a plan over any device, on every engine like `base` and in every
world. -/
def Accords (request : RequestM σ α) (base : Engine) (amends plan : List Act)
    (good : α → Prop) : Prop :=
  request.run.Composes base (Act.Accord base amends plan good)

/-- `EngineM.accord_fail` for a request, which reports the failure as its own. -/
theorem composes_throw_fail {base : Engine} {amends : List Act} {good : Unit → Prop}
    (hrestart : Act.restart ∈ amends) (plan : List Act) (label : String) (error : CommandError) :
    (do throw (← withEngine (·.fail label error)) : RequestM σ Unit).run.Composes base
      fun acts result => Act.Accord base amends plan good (plan ++ acts) result := by
  have hsame : (do throw (← withEngine (·.fail label error)) : RequestM σ Unit).run =
      (do return .error (← EngineM.withEngine (·.fail label error))) := by
    rw [ExceptT.run_bind, withEngine, run_onEngine, bind_map_left]
    rfl
  rw [hsame]
  exact EngineM.accord_fail hrestart plan label error

namespace Accords

variable {base : Engine} {amends plan more : List Act} {mid : α → Prop} {good : β → Prop}

theorem pure {b : β} (his : good b) :
    (pure b : RequestM σ β).Accords base amends [] good :=
  EngineM.Composes.pure (a := Except.ok b) ⟨rfl, his⟩

theorem throw (error : IoError) : (throw error : RequestM σ β).Accords base amends plan good :=
  EngineM.Composes.pure (a := Except.error error) (Act.follow_nil amends plan)

/-- The plan of two steps in succession is the plan of both, if the value of the first is good for
the second. -/
theorem bind {request : RequestM σ α} {next : α → RequestM σ β}
    (hfirst : request.Accords base amends plan mid)
    (hsecond : ∀ a, mid a → (next a).Accords base amends more good) :
    (request >>= next).Accords base amends (plan ++ more) good := by
  rw [Accords, ExceptT.run_bind]
  apply EngineM.Composes.bind hfirst
  · intro acts answer haccord
    cases answer with
    | ok a =>
      obtain ⟨rfl, his⟩ := haccord
      exact (hsecond a his).mono fun others result haccord => haccord.behind acts
    | error error =>
      apply EngineM.Composes.pure
      rw [List.append_nil]
      exact Act.Follow.longer haccord more
  · intro acts reason haccord
    exact ⟨haccord.1.longer more, haccord.2⟩

theorem seq {request : RequestM σ α} {next : α → RequestM σ β}
    (hfirst : request.Accords base amends [] mid)
    (hsecond : ∀ a, mid a → (next a).Accords base amends plan good) :
    (request >>= next).Accords base amends plan good :=
  bind hfirst hsecond

theorem finish {request : RequestM σ α} {next : α → RequestM σ β}
    (hfirst : request.Accords base amends plan mid)
    (hsecond : ∀ a, mid a → (next a).Accords base amends [] good) :
    (request >>= next).Accords base amends plan good := by
  have hboth := bind hfirst hsecond
  rwa [List.append_nil] at hboth

theorem onEngine {step : EngineM σ β} (hcomposes : step.Composes base fun acts result =>
    acts = plan ∧ ∃ b, result = .ok b ∧ good b) :
    (onEngine step).Accords base amends plan good := by
  rw [Accords, run_onEngine]
  apply EngineM.Composes.map
  refine hcomposes.mono fun acts result htold => ?_
  obtain ⟨rfl, b, rfl, his⟩ := htold
  exact ⟨rfl, his⟩

theorem require {condition : Bool} (hholds : condition = true) (reason : Halt) :
    (RequestM.require condition reason : RequestM σ Unit).Accords base amends []
      fun _ => True := by
  apply onEngine
  apply EngineM.Composes.require
  · exact fun _ => ⟨rfl, (), rfl, trivial⟩
  · intro hfails
    cases hholds.symm.trans hfails

theorem note (severity : Severity) (text : Engine → String) :
    (withEngine fun engine => (HostM.note severity (text engine) : HostM σ Unit)).Accords base
      amends [] fun _ => True :=
  onEngine (.note severity text ⟨rfl, (), rfl, trivial⟩)

/-- Reading the staging area has no act and returns as many bytes as asked for, up to the 65536 that
one command can carry. -/
theorem readStaging (hsized : base.areas.Sized) {count : Nat}
    (hfits : count ≤ ScatterList.maxBytes) :
    (RequestM.onEngine (EngineM.readStaging count) : RequestM σ _).Accords base amends []
      fun bytes => bytes.length = count := by
  have hroom : count ≤ base.areas.read.size := by
    rw [hsized.size_read]
    exact hfits
  apply onEngine
  apply EngineM.Composes.readStaging
  · exact fun _ bytes hlength => ⟨rfl, bytes, rfl, hlength⟩
  · exact fun hbeyond => absurd hroom (Nat.not_le_of_lt hbeyond)

/-- Filling the staging area is one act of the plan. It returns, if the bytes fit the count and the
count fits one command. -/
theorem fill (hsized : base.areas.Sized) {bytes : List UInt8} {count : Nat}
    (hfits : count ≤ ScatterList.maxBytes) (hlong : bytes.length ≤ count) :
    (RequestM.onEngine (EngineM.fillStaging bytes count) : RequestM σ _).Accords base amends
      [.fill bytes count] fun _ => True := by
  have hroom : count ≤ base.areas.write.size := by
    rw [hsized.size_write]
    exact hfits
  apply onEngine
  apply EngineM.Composes.fill
  · exact fun _ _ => ⟨rfl, (), rfl, trivial⟩
  · exact fun hbeyond => absurd ⟨hroom, hlong⟩ hbeyond

/-- A request of one command accords with the plan of this command, and amends its failure by at
most a restart. -/
theorem execute (command : Command) (hrestart : Act.restart ∈ amends) :
    (RequestM.execute command : RequestM σ Unit).Accords base amends [.run command]
      fun _ => True := by
  rw [Accords, RequestM.execute, ExceptT.run_bind, run_onEngine, bind_map_left]
  apply EngineM.accord_run
  · rfl
  · exact composes_throw_fail hrestart [.run command] command.label

theorem silent {step : EngineM σ β} (hends : step.Composes base fun acts result =>
    acts = [] ∧ ∃ b, result = .ok b) :
    (RequestM.onEngine step).Accords base amends [] fun _ => True :=
  onEngine (hends.mono fun _ _ ⟨hstill, b, hsame⟩ => ⟨hstill, b, hsame, trivial⟩)

theorem requestSense (hsized : base.areas.Sized) (hamended : Act.restart ∈ amends) :
    (RequestM.requestSense : RequestM σ _).Accords base amends [.run .requestSense]
      fun _ => True := by
  apply finish (execute .requestSense hamended)
  intro _ _
  apply seq (readStaging hsized (by decide))
  intro bytes _
  cases SenseData.parse? bytes with
  | none => exact throw _
  | some sense =>
    apply seq (silent (.remember sense ⟨rfl, (), rfl⟩))
    exact fun _ _ => pure trivial

end Accords

end RequestM

namespace EngineM

variable {base : Engine} {amends : List Act}

/-- Asking why a packet command failed does nothing but a restart and REQUEST SENSE, and halts only
as a wait without an end. -/
theorem composes_checkCondition (hsized : base.areas.Sized) (hrestart : Act.restart ∈ amends)
    (hsense : Act.run .requestSense ∈ amends) (label : String) :
    (checkCondition label : EngineM σ IoError).Composes base fun acts result =>
      (∀ act ∈ acts, act ∈ amends) ∧ ∀ reason, result = .error reason →
        reason = .unending ∧ base.config.completionLimit = none := by
  have hexplained (error : IoError) (explanation : String) :
      (do
        noteSense label error explanation
        return error : EngineM σ IoError).Composes base fun acts result =>
          acts = [] ∧ ∃ error, result = .ok error := by
    apply Composes.seq [] fun _ => True
    · exact .note .warn _ ⟨rfl, (), rfl, trivial⟩
    · exact fun _ _ => .pure ⟨rfl, error, rfl⟩
  have hasked := RequestM.Accords.requestSense (σ := σ) hsized hrestart
  have hamended {acts : List Act} (hfollow : Act.Follow amends [.run .requestSense] acts)
      (act : Act) (hmember : act ∈ acts) : act ∈ amends := by
    rcases hfollow.mem hmember with hplanned | hamended
    · rw [List.mem_singleton.1 hplanned]
      exact hsense
    · exact hamended
  apply Composes.bind hasked
  · intro acts answer haccord
    have hquiet : (∀ act ∈ acts, act ∈ amends) := hamended haccord.follow
    cases answer with
    | ok sense =>
      refine (hexplained sense.failure sense.describe).mono ?_
      rintro others result ⟨rfl, error, rfl⟩
      rw [List.append_nil]
      exact ⟨hquiet, nofun⟩
    | error failed =>
      refine (hexplained .timeout "no sense data").mono ?_
      rintro others result ⟨rfl, error, rfl⟩
      rw [List.append_nil]
      exact ⟨hquiet, nofun⟩
  · rintro acts reason ⟨hfollow, hendless⟩
    refine ⟨hamended hfollow, ?_⟩
    rintro _ ⟨⟩
    exact hendless

end EngineM

/-- A packet command accords with the plan of this command. Its failure is amended by a restart, and
behind a check condition by REQUEST SENSE. -/
theorem RequestM.Accords.packet {base : Engine} {amends : List Act} (hsized : base.areas.Sized)
    (hrestart : Act.restart ∈ amends) (hsense : Act.run .requestSense ∈ amends) (cdb : Cdb)
    (data : DataPhase) (label : String) :
    (RequestM.packet cdb data label : RequestM σ Unit).Accords base amends
      [.run (.packet cdb data label)] fun _ => True := by
  apply EngineM.accord_run
  · rfl
  · intro error
    cases error with
    | checkCondition =>
      apply EngineM.Composes.seq [.restart] fun _ => True
      · exact .restart ⟨rfl, (), rfl, trivial⟩
      · intro _ _
        apply EngineM.Composes.bind (EngineM.composes_checkCondition hsized hrestart hsense label)
        · rintro others failure ⟨hamended, _⟩
          apply EngineM.Composes.pure
          rw [List.append_nil]
          apply Act.follow_amended
          simpa using ⟨hrestart, hamended⟩
        · rintro others reason ⟨hamended, hendless⟩
          refine ⟨Act.follow_amended _ ?_, hendless reason rfl⟩
          simpa using ⟨hrestart, hamended⟩
    | _ => exact EngineM.accord_fail hrestart [.run (.packet cdb data label)] label _

end Ahci
