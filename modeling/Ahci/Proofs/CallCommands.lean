import Ahci.Engine.Ata
import Ahci.Engine.Packet
import Ahci.Proofs.SteadyPort

/-!
What a call of the driver is made of. `Performs` takes a call apart into quiet steps on the
host, ATA commands, packet commands and requests for sense data, and lists the last two with
the engine and the world each of them was made in, newest first. Every request is `Driven`:
from wherever it starts, it comes apart in this way, and it goes on after a packet command
only if that succeeded. A call that gives up leaves the engine as it was, so it matters that
it has brought no sense data until then.
-/

namespace Ahci

variable {α β : Type}

/-- A step on the host that changes nothing of a simulated port and issues no command; it may change
memory, and it logs no error. -/
def HostM.Quiet (step : HostM SimulatedPort α) : Prop :=
  ∀ world : World SimulatedPort,
    (step.exec world).2.device = world.device ∧ world.Progress (step.exec world).2 0

namespace HostM.Quiet

theorem pure (a : α) : HostM.Quiet (pure a) :=
  fun world => ⟨rfl, .refl world⟩

theorem bind {step : HostM SimulatedPort α} {next : α → HostM SimulatedPort β}
    (hfirst : step.Quiet) (hsecond : ∀ a, (next a).Quiet) : (step >>= next).Quiet := by
  intro world
  obtain ⟨hsame, hearly⟩ := hfirst world
  rw [exec_bind]
  rcases hended : step.exec world with ⟨reason | a, middle⟩
  · rw [hended] at hsame hearly
    exact ⟨hsame, hearly⟩
  · rw [hended] at hsame hearly
    obtain ⟨hstill, hlate⟩ := hsecond a middle
    exact ⟨hstill.trans hsame, hearly.trans hlate⟩

theorem note {severity : Severity} (text : String) (hmild : severity ≠ .error) :
    (HostM.note severity text).Quiet :=
  fun _ => ⟨rfl, rfl, rfl, rfl, .of_record text hmild, rfl⟩

theorem require (condition : Bool) (reason : Halt) :
    (HostM.require condition reason).Quiet := by
  intro world
  rw [exec_require]
  exact ⟨rfl, .refl world⟩

theorem inspectMemory (f : Memory → α) : (HostM.inspectMemory f).Quiet :=
  fun world => ⟨rfl, .refl world⟩

theorem changeMemory (f : Memory → Memory) : (HostM.changeMemory f).Quiet :=
  fun _ => ⟨rfl, rfl, rfl, rfl, ⟨[], rfl, by simp⟩, rfl⟩

end HostM.Quiet

/-- A call to the packet side of the driver: a packet command, or REQUEST SENSE on its own. -/
inductive PacketCall where
  /-- A packet command, with its explanation if it fails. -/
  | command (cdb : Cdb) (data : DataPhase) (label : String)
  /-- A request for sense data on its own. -/
  | requestSense

/-- A packet call in its place: the engine and the world it was made in. -/
structure Deed where
  call : PacketCall
  engine : Engine
  world : World SimulatedPort

namespace RequestM

/-- The sense data that REQUEST SENSE brings if it is made on an engine in a world: none if it fails
or halts. -/
def sensed? (engine : Engine) (world : World SimulatedPort) : Option SenseData :=
  match (requestSense.run.exec engine world).1 with
  | .ok (.ok sense, _) => some sense
  | _ => none

theorem sensed?_of_ended {engine left : Engine} {world after : World SimulatedPort}
    {answer : Except IoError SenseData}
    (hended : requestSense.run.exec engine world = (.ok (answer, left), after)) :
    sensed? engine world = answer.toOption := by
  rw [sensed?, hended]
  cases answer <;> rfl

/-- If REQUEST SENSE brings sense data, it returns with it. -/
theorem exec_requestSense_of_sensed {engine : Engine} {world : World SimulatedPort}
    {sense : SenseData} (htold : sensed? engine world = some sense) :
    ∃ left after, requestSense.run.exec engine world = (.ok (.ok sense, left), after) := by
  unfold sensed? at htold
  rcases hended : requestSense.run.exec engine world with ⟨reason | ⟨error | found, left⟩, after⟩
  · rw [hended] at htold
    cases htold
  · rw [hended] at htold
    cases htold
  · rw [hended] at htold
    cases htold
    exact ⟨left, after, rfl⟩

end RequestM

/-- Where a packet call asks the device for sense data, if it does. A packet command asks exactly if
it ended in a check condition, behind the restart that this calls for; REQUEST SENSE asks where it
is made. -/
def Deed.request? (deed : Deed) : Option (Engine × World SimulatedPort) :=
  match deed.call with
  | .requestSense => some (deed.engine, deed.world)
  | .command cdb data label =>
    match (EngineM.runCommand (.packet cdb data label)).exec deed.engine deed.world with
    | (.ok (.error .checkCondition, engine), between) =>
      match (EngineM.withEngine Engine.recover).exec engine between with
      | (.ok (_, engine), restarted) => some (engine, restarted)
      | (.error _, _) => none
    | _ => none

/-- The sense data that a packet call brings: the answer to what it asks, if it asks and is
answered. -/
def Deed.sense? (deed : Deed) : Option SenseData :=
  deed.request?.bind fun (engine, world) => RequestM.sensed? engine world

namespace Deed

variable {cdb : Cdb} {data : DataPhase} {label : String} {engine ran idle : Engine}
  {world between restarted : World SimulatedPort}

/-- A packet command that ended in a check condition brings what REQUEST SENSE brings behind the
restart. -/
theorem sense?_of_checkCondition
    (hfailed : (EngineM.runCommand (.packet cdb data label)).exec engine world =
      (.ok (.error .checkCondition, ran), between))
    (hrecovered : (EngineM.withEngine Engine.recover).exec ran between =
      (.ok ((), idle), restarted)) :
    Deed.sense? ⟨.command cdb data label, engine, world⟩ = RequestM.sensed? idle restarted := by
  simp only [sense?, request?, hfailed, hrecovered, Option.bind_some]

/-- A packet command that ended in any other way brings no sense data. -/
theorem sense?_of_other {outcome : Except CommandError Unit}
    (hended : (EngineM.runCommand (.packet cdb data label)).exec engine world =
      (.ok (outcome, ran), between))
    (hother : outcome ≠ .error .checkCondition) :
    Deed.sense? ⟨.command cdb data label, engine, world⟩ = none := by
  simp only [sense?, request?, hended]
  split
  · rename_i hsame
    cases hsame
    exact absurd rfl hother
  · rfl

end Deed

/-- The error that a packet command with a check condition fails with, by the answer to REQUEST
SENSE: the one the sense stands for, or a timeout if REQUEST SENSE failed in turn. -/
def SenseData.failureOf : Except IoError SenseData → IoError
  | .ok sense => sense.failure
  | .error _ => .timeout

namespace EngineM

/-- A packet command that ended in a check condition restarts the engine, makes one REQUEST SENSE,
and fails with the error that the answer stands for. Behind the answer nothing but the log
changes. -/
theorem exec_packet_of_checkCondition {cdb : Cdb} {data : DataPhase} {label : String}
    {engine ran idle left : Engine} {world between restarted later : World SimulatedPort}
    {answer : Except IoError SenseData}
    (hfailed : (runCommand (.packet cdb data label)).exec engine world =
      (.ok (.error .checkCondition, ran), between))
    (hrecovered : (withEngine Engine.recover).exec ran between = (.ok ((), idle), restarted))
    (hasked : RequestM.requestSense.run.exec idle restarted = (.ok (answer, left), later)) :
    ∃ after, (packet cdb data label).exec engine world =
        (.ok (.error (SenseData.failureOf answer), left), after) ∧
      after.machine = later.machine ∧ later.Progress after 0 := by
  have hnoted (error : IoError) (explanation : String) :
      (do
        noteSense label error explanation
        return error : EngineM SimulatedPort IoError).Yields left later.machine
          (.ok (error, left)) later.machine 0 :=
    (yields_withEngine (HostM.yields_note _ (by decide) _)).seq (yields_pure error left _)
  obtain ⟨after, hended, haround, hprogress⟩ : ∃ after,
      (checkCondition label).exec idle restarted =
        (.ok (SenseData.failureOf answer, left), after) ∧
      after.machine = later.machine ∧ later.Progress after 0 := by
    rw [checkCondition, exec_bind_ok hasked]
    cases answer with
    | ok sense => exact hnoted sense.failure sense.describe later rfl
    | error error => exact hnoted .timeout "no sense data" later rfl
  refine ⟨after, ?_, haround, hprogress⟩
  rw [packet, exec_bind_ok hfailed]
  dsimp only
  rw [exec_bind_ok hrecovered, exec_bind_ok hended]
  rfl

/-- If a packet command brings sense data, it returns, and the error it fails with is the one that
the sense stands for. -/
theorem exec_packet_of_sensed {cdb : Cdb} {data : DataPhase} {label : String} {engine : Engine}
    {world : World SimulatedPort} {sense : SenseData}
    (htold : Deed.sense? ⟨.command cdb data label, engine, world⟩ = some sense) :
    ∃ left after, (packet cdb data label).exec engine world =
      (.ok (.error sense.failure, left), after) := by
  obtain ⟨⟨idle, restarted⟩, hasked, htold⟩ := Option.bind_eq_some_iff.1 htold
  rw [Deed.request?] at hasked
  dsimp only at hasked
  split at hasked
  · rename_i hfailed
    split at hasked
    · rename_i hrecovered
      cases hasked
      obtain ⟨left, later, hended⟩ := RequestM.exec_requestSense_of_sensed htold
      obtain ⟨after, hreported, _⟩ := exec_packet_of_checkCondition hfailed hrecovered hended
      exact ⟨left, after, hreported⟩
    · cases hasked
  · cases hasked

/-- The packet calls that a step makes on an engine in a world, newest first. The rules follow how a
call is put together: quiet steps and commands without a packet make none, and a first step that
halts is the last. -/
inductive Performs :
    {α : Type} → EngineM SimulatedPort α → Engine → World SimulatedPort → List Deed → Prop where
  | pure {α : Type} (a : α) (engine : Engine) (world : World SimulatedPort) :
      Performs (pure a) engine world []
  | get (engine : Engine) (world : World SimulatedPort) : Performs get engine world []
  | host {α : Type} {step : HostM SimulatedPort α} (hquiet : step.Quiet) (engine : Engine)
      (world : World SimulatedPort) : Performs (onHost step) engine world []
  /-- A command without a packet. -/
  | command {command : Command} (hplain : command.cdb = none) (engine : Engine)
      (world : World SimulatedPort) : Performs (RequestM.execute command).run engine world []
  | packet (cdb : Cdb) (data : DataPhase) (label : String) (engine : Engine)
      (world : World SimulatedPort) :
      Performs (EngineM.packet cdb data label) engine world
        [⟨.command cdb data label, engine, world⟩]
  | requestSense (engine : Engine) (world : World SimulatedPort) :
      Performs RequestM.requestSense.run engine world [⟨.requestSense, engine, world⟩]
  | bind {α β : Type} {step : EngineM SimulatedPort α} {next : α → EngineM SimulatedPort β}
      {engine left : Engine} {world after : World SimulatedPort} {a : α} {early late : List Deed}
      (hfirst : Performs step engine world early)
      (hended : step.exec engine world = (.ok (a, left), after))
      (hsecond : Performs (next a) left after late) :
      Performs (step >>= next) engine world (late ++ early)
  | halt {α β : Type} {step : EngineM SimulatedPort α} {next : α → EngineM SimulatedPort β}
      {engine : Engine} {world after : World SimulatedPort} {reason : Halt} {deeds : List Deed}
      (hfirst : Performs step engine world deeds)
      (hended : step.exec engine world = (.error reason, after)) :
      Performs (step >>= next) engine world deeds

/-- A step that comes apart into packet calls and what lies between them, wherever it starts. If it
halts, or returns a value that is `plain`, none of its packet calls brought sense data: so none that
did is forgotten when a halt discards the engine. -/
def Driven (step : EngineM SimulatedPort α) (plain : α → Prop) : Prop :=
  ∀ engine world, ∃ deeds, step.Performs engine world deeds ∧
    ((∀ a left after, step.exec engine world = (.ok (a, left), after) → plain a) →
      ∀ deed ∈ deeds, deed.sense? = none)

/-- A step with which a call may end whatever came before it: it makes no packet call, never halts,
and returns no value that is `plain`. -/
def Concludes (step : EngineM SimulatedPort α) (plain : α → Prop) : Prop :=
  ∀ engine world, step.Performs engine world [] ∧
    ∃ a left after, step.exec engine world = (.ok (a, left), after) ∧ ¬ plain a

namespace Concludes

variable {plain : α → Prop}

theorem pure {a : α} (hother : ¬ plain a) : (pure a : EngineM SimulatedPort α).Concludes plain :=
  fun engine world => ⟨.pure a engine world, a, engine, world, rfl, hother⟩

theorem note {severity : Severity} (text : Engine → String) (hmild : severity ≠ .error)
    {next : Unit → EngineM SimulatedPort α} (hrest : (next ()).Concludes plain) :
    ((withEngine fun engine => HostM.note severity (text engine)) >>= next).Concludes plain := by
  intro engine world
  have hnoted : (withEngine fun engine => (HostM.note severity (text engine) :
      HostM SimulatedPort Unit)).exec engine world =
        (.ok ((), engine),
          { world with log := world.log.record severity (text engine) }) :=
    exec_withEngine_ok (HostM.exec_note _ _ _)
  obtain ⟨hsilent, a, left, after, hended, hother⟩ := hrest engine
    { world with log := world.log.record severity (text engine) }
  refine ⟨?_, a, left, after, ?_, hother⟩
  · exact .bind (.bind (.get engine world) rfl (.host (.note _ hmild) engine world)) hnoted hsilent
  · rw [exec_bind_ok hnoted, hended]

end Concludes

namespace Driven

variable {calm : α → Prop} {plain : β → Prop}

/-- A step that makes no packet call is driven, for any notion of a plain value. -/
theorem of_silent {step : EngineM SimulatedPort α}
    (hsilent : ∀ engine world, step.Performs engine world []) : step.Driven calm :=
  fun engine world => ⟨[], hsilent engine world, by simp⟩

theorem pure (a : α) : (pure a : EngineM SimulatedPort α).Driven calm :=
  of_silent (.pure a)

theorem get {calm : Engine → Prop} : (get : EngineM SimulatedPort Engine).Driven calm :=
  of_silent .get

theorem host {step : HostM SimulatedPort α} (hquiet : step.Quiet) : (onHost step).Driven calm :=
  of_silent (.host hquiet)

/-- Two steps in succession: behind a plain value of the first the second is driven, and behind any
other it only concludes the call, since sense data may have been brought. -/
theorem bind {step : EngineM SimulatedPort α} {next : α → EngineM SimulatedPort β}
    (hfirst : step.Driven calm) (hsecond : ∀ a, calm a → (next a).Driven plain)
    (hlast : ∀ a, ¬ calm a → (next a).Concludes plain) : (step >>= next).Driven plain := by
  intro engine world
  obtain ⟨early, hdid, hmute⟩ := hfirst engine world
  rcases hended : step.exec engine world with ⟨reason | ⟨a, left⟩, after⟩
  · refine ⟨early, .halt hdid hended, fun _ => hmute ?_⟩
    rw [hended]
    simp
  · by_cases hisCalm : calm a
    · obtain ⟨late, hgoing, hstill⟩ := hsecond a hisCalm left after
      refine ⟨late ++ early, .bind hdid hended hgoing, ?_⟩
      rw [exec_bind_ok hended]
      intro hends deed hmember
      rcases List.mem_append.1 hmember with hnew | hold
      · exact hstill hends deed hnew
      · refine hmute ?_ deed hold
        rintro _ _ _ hsame
        rw [hended] at hsame
        cases hsame
        exact hisCalm
    -- The first step may have brought sense data, so the call must not give up any more.
    · obtain ⟨hsilent, b, right, ended_, hconcluded, hother⟩ := hlast a hisCalm left after
      refine ⟨[] ++ early, .bind hdid hended hsilent, fun hends => absurd ?_ hother⟩
      exact hends b right ended_ (by rw [exec_bind_ok hended, hconcluded])

theorem seq {step : EngineM SimulatedPort α} {next : α → EngineM SimulatedPort β}
    (hfirst : step.Driven fun _ => True) (hsecond : ∀ a, (next a).Driven plain) :
    (step >>= next).Driven plain :=
  hfirst.bind (fun a _ => hsecond a) fun _ hnever => absurd trivial hnever

/-- A step all of whose values may come with sense data is followed by the conclusion of the
call. -/
theorem conclude {step : EngineM SimulatedPort α} {next : α → EngineM SimulatedPort β}
    (hfirst : step.Driven fun _ => False) (hlast : ∀ a, (next a).Concludes plain) :
    (step >>= next).Driven plain :=
  hfirst.bind (fun _ hnever => False.elim hnever) fun a _ => hlast a

/-- A call goes on behind an answer, and behind a failure it concludes. -/
theorem answer {step : EngineM SimulatedPort (Except IoError α)}
    {next : Except IoError α → EngineM SimulatedPort β}
    (hfirst : step.Driven fun answer => answer.isOk = true)
    (hsecond : ∀ a, (next (.ok a)).Driven plain)
    (hlast : ∀ error, (next (.error error)).Concludes plain) : (step >>= next).Driven plain := by
  refine hfirst.bind (fun answer hsucceeded => ?_) fun answer hfailed => ?_
  · cases answer with
    | ok a => exact hsecond a
    | error error => cases hsucceeded
  · cases answer with
    | ok a => exact absurd rfl hfailed
    | error error => exact hlast error

theorem map {step : EngineM SimulatedPort α} (f : α → β) (hdriven : step.Driven calm)
    (hfewer : ∀ a, plain (f a) → calm a) : (f <$> step).Driven plain := by
  rw [map_eq_pure_bind]
  refine hdriven.bind (fun a _ => pure (f a)) ?_
  exact fun a hother => .pure fun hsame => hother (hfewer a hsame)

theorem withEngine {step : Engine → HostM SimulatedPort α}
    (hquiet : ∀ engine, (step engine).Quiet) :
    (withEngine step).Driven calm :=
  get.seq fun engine => host (hquiet engine)

theorem readStaging {calm : List UInt8 → Prop} (count : Nat) :
    (EngineM.readStaging count : EngineM SimulatedPort _).Driven calm :=
  withEngine fun _ => (HostM.Quiet.require _ _).bind fun _ => .inspectMemory _

theorem fillStaging {calm : Unit → Prop} (bytes : List UInt8) (count : Nat) :
    (EngineM.fillStaging bytes count : EngineM SimulatedPort _).Driven calm :=
  withEngine fun _ => (HostM.Quiet.require _ _).bind fun _ => .changeMemory _

/-- A packet command is driven: if it succeeds it brought no sense data, because it asks for it only
behind a check condition, and then it fails. -/
theorem packet (cdb : Cdb) (data : DataPhase) (label : String) :
    (EngineM.packet cdb data label : EngineM SimulatedPort _).Driven fun answer =>
      answer.isOk = true := by
  intro engine world
  refine ⟨_, .packet cdb data label engine world, fun hends deed hmember => ?_⟩
  rw [List.mem_singleton.1 hmember]
  cases htold : Deed.sense? ⟨.command cdb data label, engine, world⟩ with
  | none => rfl
  | some sense =>
    obtain ⟨left, after, hfailed⟩ := exec_packet_of_sensed htold
    cases hends _ left after hfailed

theorem requestSense :
    (RequestM.requestSense.run : EngineM SimulatedPort _).Driven fun _ => False := by
  intro engine world
  refine ⟨_, .requestSense engine world, fun hends deed hmember => ?_⟩
  rw [List.mem_singleton.1 hmember]
  change RequestM.sensed? engine world = none
  rcases hended : RequestM.requestSense.run.exec engine world with ⟨reason | ⟨answer, left⟩, after⟩
  · rw [RequestM.sensed?, hended]
  · exact (hends answer left after hended).elim

end Driven

end EngineM

namespace RequestM

/-- `EngineM.Driven` of a request, whose plain values are its successes: a request that halts or
succeeds has brought no sense data. -/
def Driven (request : RequestM SimulatedPort α) : Prop :=
  request.run.Driven fun answer => answer.isOk = true

namespace Driven

theorem pure (a : α) : Driven (pure a) :=
  EngineM.Driven.pure (Except.ok a)

theorem throw (error : IoError) : Driven (throw error : RequestM SimulatedPort α) :=
  EngineM.Driven.pure (Except.error error)

/-- Two requests in succession are driven: the second is made only behind a success of the first,
and that brought no sense data. -/
theorem bind {request : RequestM SimulatedPort α} {next : α → RequestM SimulatedPort β}
    (hfirst : request.Driven) (hsecond : ∀ a, (next a).Driven) : (request >>= next).Driven := by
  rw [Driven, ExceptT.run_bind]
  exact EngineM.Driven.answer hfirst hsecond fun error => .pure Bool.false_ne_true

theorem onEngine {step : EngineM SimulatedPort α} (hdriven : step.Driven fun _ => True) :
    (onEngine step).Driven :=
  hdriven.map Except.ok fun _ _ => trivial

theorem withEngine {step : Engine → HostM SimulatedPort α}
    (hquiet : ∀ engine, (step engine).Quiet) : (withEngine step).Driven :=
  onEngine (EngineM.Driven.withEngine hquiet)

theorem require (condition : Bool) (reason : Halt) :
    (RequestM.require condition reason : RequestM SimulatedPort _).Driven :=
  onEngine (EngineM.Driven.host (.require condition reason))

theorem note {severity : Severity} (text : Engine → String) (hmild : severity ≠ .error) :
    (RequestM.withEngine fun engine =>
      (HostM.note severity (text engine) : HostM SimulatedPort _)).Driven :=
  withEngine fun engine => .note (text engine) hmild

theorem execute {command : Command} (hplain : command.cdb = none) :
    (RequestM.execute command : RequestM SimulatedPort _).Driven :=
  EngineM.Driven.of_silent (.command hplain)

theorem packet (cdb : Cdb) (data : DataPhase) (label : String) :
    (RequestM.packet cdb data label : RequestM SimulatedPort _).Driven :=
  EngineM.Driven.packet cdb data label

/-! The requests. -/

theorem identify : (RequestM.identify : RequestM SimulatedPort _).Driven := by
  refine (execute rfl).bind fun _ => ?_
  refine (onEngine (.readStaging _)).bind fun bytes => ?_
  cases IdentifyPage.parse? bytes with
  | some page => exact pure page
  | none => exact throw _

theorem readSectors (lba sectors : Nat) :
    (RequestM.readSectors lba sectors : RequestM SimulatedPort _).Driven := by
  refine (require _ _).bind fun _ => ?_
  by_cases hnone : sectors = 0
  · rw [if_pos hnone]
    exact throw _
  · rw [if_neg hnone]
    exact (execute rfl).bind fun _ => onEngine (.readStaging _)

theorem writeSectors (lba sectors : Nat) (data : List UInt8) :
    (RequestM.writeSectors lba sectors data : RequestM SimulatedPort _).Driven := by
  refine (require _ _).bind fun _ => ?_
  dsimp only
  split
  · exact throw _
  · exact (onEngine (.fillStaging _ _)).bind fun _ => execute rfl

theorem discardRange (range : Span) :
    (RequestM.discardRange range : RequestM SimulatedPort _).Driven := by
  refine (note _ (by decide)).bind fun _ => ?_
  exact (onEngine (.fillStaging _ _)).bind fun _ => execute rfl

theorem discardPieces (left : Nat) (span : Span) :
    (RequestM.discardPieces left span : RequestM SimulatedPort _).Driven := by
  induction left generalizing span with
  | zero => exact note _ (by decide)
  | succ left ih =>
    refine (discardRange _).bind fun _ => ?_
    exact (require _ _).bind fun _ => ih _

theorem inquiry (length : UInt8) :
    (RequestM.inquiry length : RequestM SimulatedPort _).Driven := by
  refine (packet _ _ _).bind fun _ => ?_
  refine (onEngine (.readStaging _)).bind fun bytes => ?_
  cases InquiryData.parse? bytes with
  | some inquiry => exact pure inquiry
  | none => exact throw _

theorem readBlocks (lba blocks : Nat) :
    (RequestM.readBlocks lba blocks : RequestM SimulatedPort _).Driven := by
  refine (require _ _).bind fun _ => ?_
  by_cases hnone : blocks = 0
  · rw [if_pos hnone]
    exact throw _
  · rw [if_neg hnone]
    by_cases hfar : UInt32.size ≤ lba
    · rw [if_pos hfar]
      exact throw _
    · rw [if_neg hfar]
      exact (packet _ _ _).bind fun _ => onEngine (.readStaging _)

theorem eject : (RequestM.eject : RequestM SimulatedPort _).Driven := by
  have hsequence : (Eject.sequence fun cdb label => (EngineM.packet cdb .none label :
      EngineM SimulatedPort _)).Driven fun ended => ended.1.isOk = true := by
    refine (EngineM.Driven.packet _ _ _).answer (fun _ => ?_) fun _ => .pure Bool.false_ne_true
    refine (EngineM.Driven.packet _ _ _).answer (fun _ => ?_) fun _ => .pure Bool.false_ne_true
    exact .pure _
  rw [Driven, RequestM.eject, run_onEngine_bind]
  refine hsequence.bind (fun ended _ => ?_) fun ended hfailed => ?_
  · exact (note _ (by decide)).bind fun _ => EngineM.Driven.pure ended.1
  · dsimp only [RequestM.withEngine]
    rw [run_onEngine_bind]
    exact .note _ (by decide) (.pure hfailed)

end Driven

end RequestM

end Ahci
