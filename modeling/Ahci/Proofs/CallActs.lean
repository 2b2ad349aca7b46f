import Ahci.Engine.Ata
import Ahci.Engine.Packet
import Ahci.Proofs.RegisterFootprint

/-!
What a call does with a port, whatever the device behind it answers. A call fills the staging
area, runs a command, or restarts the engine; all else that it does leaves the device, the
memory and the record of accesses alone. `Comprises` takes a call apart into such acts, each
in the place where it was done, so what every act keeps is kept by every call, and `Composes`
says of a call which acts it can come apart into and what it then answers.
-/

namespace Ahci

variable {σ α β : Type}

namespace Engine

/-- Two engines that differ at most in their slots and in the sense they remember: they are of one
port, brought up once. -/
structure Alike (engine other : Engine) : Prop where
  window : engine.window = other.window
  number : engine.number = other.number
  areas : engine.areas = other.areas
  config : engine.config = other.config

theorem Alike.refl (engine : Engine) : engine.Alike engine :=
  ⟨rfl, rfl, rfl, rfl⟩

theorem Alike.symm {engine other : Engine} (halike : engine.Alike other) : other.Alike engine :=
  ⟨halike.window.symm, halike.number.symm, halike.areas.symm, halike.config.symm⟩

theorem Alike.trans {first second third : Engine} (hearly : first.Alike second)
    (hlate : second.Alike third) : first.Alike third :=
  ⟨hearly.window.trans hlate.window, hearly.number.trans hlate.number,
    hearly.areas.trans hlate.areas, hearly.config.trans hlate.config⟩

end Engine

/-! Acts. -/

/-- What a call can do with a port. Everything else a call does leaves the device, the memory and
the record of accesses alone. -/
inductive Act where
  /-- Places bytes for the device, filled up with zeroes to a given count. -/
  | fill (bytes : List UInt8) (count : Nat)
  /-- Runs one command. -/
  | run (command : Command)
  /-- Restarts the command engine. -/
  | restart

/-- An act in its place: the engine and the world in which the call does it. -/
structure Stage (σ : Type) where
  act : Act
  engine : Engine
  world : World σ

/-- A stage among those of two calls is a stage of the first, or lies behind all of the first. -/
theorem Stage.split_append {first second early late : List (Stage σ)} {stage : Stage σ}
    (hsplit : first ++ second = early ++ stage :: late) :
    (∃ between, first = early ++ stage :: between) ∨
      ∃ more, early = first ++ more ∧ second = more ++ stage :: late := by
  rcases List.append_eq_append_iff.1 hsplit with ⟨more, rfl, hrest⟩ | ⟨more, rfl, hrest⟩
  · exact .inr ⟨more, rfl, hrest⟩
  · cases more with
    | nil => exact .inr ⟨[], by simp, hrest.symm⟩
    | cons found others =>
      cases hrest
      exact .inl ⟨others, rfl⟩

theorem EngineM.onHost_bind (step : HostM σ α) (next : α → HostM σ β) :
    onHost (step >>= next) = onHost step >>= fun a => onHost (next a) :=
  monadLift_bind step next

theorem EngineM.left_of_exec_onHost {engine left : Engine} {world after : World σ}
    {step : HostM σ α} {a : α}
    (hended : (onHost step).exec engine world = (.ok (a, left), after)) : left = engine := by
  rw [exec_onHost] at hended
  cases htold : (step.exec world).1 with
  | error reason =>
    rw [htold] at hended
    cases hended
  | ok b =>
    rw [htold] at hended
    cases hended
    rfl

/-- If the count fits the write staging area and the bytes fit the count, the bytes are stored at
its front, with zeros behind them up to the count, and nothing else happens. -/
theorem EngineM.exec_fillStaging_ok {engine : Engine} {bytes : List UInt8} {count : Nat}
    (hroom : count ≤ engine.areas.write.size) (hlong : bytes.length ≤ count) (world : World σ) :
    (fillStaging bytes count).exec engine world = (.ok ((), engine), { world with
      memory := (world.memory.store (engine.areas.write.address 0) bytes).zero
        (engine.areas.write.address bytes.length) (count - bytes.length) }) := by
  have henough : (decide (count ≤ engine.areas.write.size) && decide (bytes.length ≤ count)) =
      true := by
    simp [hroom, hlong]
  rw [fillStaging, exec_withEngine, exec_onHost]
  dsimp only
  rw [HostM.exec_bind, HostM.exec_require, henough]
  rfl

/-- If the count does not fit the area or the bytes do not fit the count, filling halts before
anything is stored. -/
theorem EngineM.exec_fillStaging_error {engine : Engine} {bytes : List UInt8} {count : Nat}
    (hbeyond : ¬ (count ≤ engine.areas.write.size ∧ bytes.length ≤ count)) (world : World σ) :
    (fillStaging bytes count).exec engine world = (.error .outOfBounds, world) := by
  have hshort : (decide (count ≤ engine.areas.write.size) && decide (bytes.length ≤ count)) =
      false := by
    simpa using hbeyond
  rw [fillStaging, exec_withEngine, exec_onHost]
  dsimp only
  rw [HostM.exec_bind, HostM.exec_require, hshort]
  rfl

variable [Device σ]

/-- The world behind an act, whether it returned or halted. -/
def Stage.after (stage : Stage σ) : World σ :=
  match stage.act with
  | .fill bytes count => ((EngineM.fillStaging bytes count).exec stage.engine stage.world).2
  | .run command => ((EngineM.runCommand command).exec stage.engine stage.world).2
  | .restart => (stage.engine.recover.exec stage.world).2

namespace EngineM

/-- The acts that a call does on an engine in a world, in their order. The rules follow how a call
is put together: steps without an act, the three acts, two steps in succession, and a first step
that halts, behind which nothing is done. -/
inductive Comprises :
    {α : Type} → EngineM σ α → Engine → World σ → List (Stage σ) → Prop where
  | pure {α : Type} (a : α) (engine : Engine) (world : World σ) :
      Comprises (pure a) engine world []
  | get (engine : Engine) (world : World σ) : Comprises get engine world []
  /-- Sense data is remembered. -/
  | remember (sense : SenseData) (engine : Engine) (world : World σ) :
      Comprises (modify fun engine => { engine with lastSense := some sense }) engine world []
  | calm {α : Type} {step : HostM σ α} (hcalm : step.Calm) (engine : Engine) (world : World σ) :
      Comprises (onHost step) engine world []
  | fill (bytes : List UInt8) (count : Nat) (engine : Engine) (world : World σ) :
      Comprises (fillStaging bytes count) engine world [⟨.fill bytes count, engine, world⟩]
  | run (command : Command) (engine : Engine) (world : World σ) :
      Comprises (runCommand command) engine world [⟨.run command, engine, world⟩]
  | restart (engine : Engine) (world : World σ) :
      Comprises (onHost engine.recover) engine world [⟨.restart, engine, world⟩]
  | bind {α β : Type} {step : EngineM σ α} {next : α → EngineM σ β} {engine left : Engine}
      {world after : World σ} {a : α} {early late : List (Stage σ)}
      (hfirst : Comprises step engine world early)
      (hended : step.exec engine world = (.ok (a, left), after))
      (hsecond : Comprises (next a) left after late) :
      Comprises (step >>= next) engine world (early ++ late)
  /-- A step that gives up is the last one. -/
  | halt {α β : Type} {step : EngineM σ α} {next : α → EngineM σ β} {engine : Engine}
      {world after : World σ} {reason : Halt} {stages : List (Stage σ)}
      (hfirst : Comprises step engine world stages)
      (hended : step.exec engine world = (.error reason, after)) :
      Comprises (step >>= next) engine world stages

variable {engine left : Engine} {world after : World σ}

/-- To run a command PxCI is read once. Either no slot is open, and the command is refused with a
line in the log and nothing else, or the lowest open slot is claimed and the command submitted in
it. Nothing else can happen. -/
theorem exec_runCommand (command : Command) (engine : Engine) (world : World σ) :
    ∃ busy looked, (HostM.busySlots engine.window).exec world = (.ok busy, looked) ∧
      ((∃ shortage, engine.slots.claim busy = .error shortage ∧
          (runCommand command).exec engine world = (.ok (.error .noSlot, engine),
            { looked with log := looked.log.record .error shortage.message })) ∨
        ∃ slot claimed result after, engine.slots.claim busy = .ok (slot, claimed) ∧
          (engine.submit claimed slot command).exec looked = (result, after) ∧
          (runCommand command).exec engine world = (result.map fun submitted =>
            (submitted.1, { engine with slots := submitted.2.release slot }), after)) := by
  have hgot : (get : EngineM σ Engine).exec engine world = (.ok (engine, engine), world) := rfl
  obtain ⟨busy, looked, hfree⟩ :=
    (HostM.looks_busySlots (σ := σ) engine.window).halts.exists_exec world
  refine ⟨busy, looked, hfree, ?_⟩
  rw [runCommand, exec_bind_ok hgot, exec_bind_ok (exec_onHost_ok hfree)]
  cases hclaim : engine.slots.claim busy with
  | error shortage => exact .inl ⟨shortage, rfl, rfl⟩
  | ok taken =>
    obtain ⟨slot, claimed⟩ := taken
    right
    cases hran : (engine.submit claimed slot command).exec looked with
    | mk result after =>
      refine ⟨slot, claimed, result, after, rfl, hran, ?_⟩
      dsimp only
      rw [exec_bind, exec_onHost, hran]
      cases result <;> rfl

/-- A command halts only as a wait without an end, which takes a config without a limit on
completions. -/
theorem why_exec_runCommand {command : Command} {reason : Halt}
    (hgave : (runCommand command).exec engine world = (.error reason, after)) :
    reason = .unending ∧ engine.config.completionLimit = none := by
  obtain ⟨busy, looked, _, ⟨shortage, _, hfull⟩ | ⟨slot, claimed, result, left, _, hran, hrest⟩⟩ :=
    exec_runCommand command engine world
  · rw [hfull] at hgave
    cases hgave
  · rw [hrest] at hgave
    cases result with
    | error stopped =>
      cases hgave
      exact (engine.halts_submit claimed slot command).why looked reason (by rw [hran])
    | ok submitted => cases hgave

/-- A command changes neither the window, the areas nor the config of the engine it is run on. -/
theorem alike_of_exec_runCommand {command : Command} {outcome : Except CommandError Unit}
    (hended : (runCommand command).exec engine world = (.ok (outcome, left), after)) :
    left.Alike engine := by
  obtain ⟨busy, looked, _,
    ⟨shortage, _, hfull⟩ | ⟨slot, claimed, result, reached, _, hran, hrest⟩⟩ :=
      exec_runCommand command engine world
  · rw [hfull] at hended
    cases hended
    exact .refl _
  · rw [hrest] at hended
    cases result with
    | error stopped => cases hended
    | ok submitted =>
      cases hended
      exact ⟨rfl, rfl, rfl, rfl⟩

/-- A property of worlds that survives lines of the log, reads of the port, the writes of an issue
and the building of a command in memory survives the submission of a command, however it ends. -/
theorem keeps_submit (command : Command) (claimed : SlotArena) {slot : Nat}
    (hbound : slot < slotCount) (Kept : World σ → Prop)
    (hcalm : ∀ world log, Kept world → Kept { world with log })
    (hreads : ∀ world offset, Kept world →
      Kept ((HostM.readRegister engine.window offset).exec world).2)
    (hwrites : ∀ slot world offset value, Traffic.issue slot offset value → Kept world →
      Kept ((HostM.writeRegister engine.window offset value).exec world).2)
    (hbuilds : ∀ slot < slotCount, ∀ entries world, engine.scatter command = .ok entries →
      Kept world → Kept { world with
        memory := engine.build slot command entries world.memory })
    (hkept : Kept world) : Kept ((engine.submit claimed slot command).exec world).2 := by
  unfold Engine.submit
  cases hformed : engine.scatter command with
  | error error => exact hkept
  | ok entries =>
    dsimp only
    rw [HostM.exec_bind_ok (HostM.exec_changeMemory _ world)]
    have hplaced := hbuilds slot hbound entries world hformed hkept
    exact (HostM.touches_issueAndWait engine.window claimed slot engine.config
      command.isPacket).keeps Kept hcalm hreads (hwrites slot) _ hplaced

/-- A property of worlds that survives lines of the log, reads of the port, the writes of an issue
and the building of a command in any slot survives running a command, however it ends. -/
theorem keeps_runCommand (command : Command) (Kept : World σ → Prop)
    (hcalm : ∀ world log, Kept world → Kept { world with log })
    (hreads : ∀ world offset, Kept world →
      Kept ((HostM.readRegister engine.window offset).exec world).2)
    (hwrites : ∀ slot world offset value, Traffic.issue slot offset value → Kept world →
      Kept ((HostM.writeRegister engine.window offset value).exec world).2)
    (hbuilds : ∀ slot < slotCount, ∀ entries world, engine.scatter command = .ok entries →
      Kept world → Kept { world with
        memory := engine.build slot command entries world.memory })
    (hkept : Kept world) : Kept ((runCommand command).exec engine world).2 := by
  obtain ⟨busy, looked, hfree, hattempt⟩ := exec_runCommand command engine world
  have hlooking := (HostM.looks_busySlots engine.window).keeps Kept hcalm hreads
    (fun _ _ _ => False.elim) world hkept
  rw [hfree] at hlooking
  obtain ⟨shortage, _, hfull⟩ | ⟨slot, claimed, result, after, hclaim, hran, hrest⟩ := hattempt
  · rw [hfull]
    exact hcalm looked _ hlooking
  · have hbound : slot < slotCount :=
      Nat.lt_of_lt_of_le (SlotArena.claim_eq_ok_iff.1 hclaim).2.1 engine.slots.count_le
    have hsubmitted :=
      keeps_submit command claimed hbound Kept hcalm hreads hwrites hbuilds hlooking
    rw [hran] at hsubmitted
    rw [hrest]
    exact hsubmitted

theorem Comprises.alike {step : EngineM σ α} {stages : List (Stage σ)} {a : α}
    (hdid : step.Comprises engine world stages)
    (hended : step.exec engine world = (.ok (a, left), after)) : left.Alike engine := by
  induction hdid generalizing left after with
  | pure b engine world =>
    cases hended
    exact .refl _
  | get engine world =>
    cases hended
    exact .refl _
  | remember sense engine world =>
    cases hended
    exact ⟨rfl, rfl, rfl, rfl⟩
  | calm hcalm engine world =>
    rw [left_of_exec_onHost hended]
    exact .refl _
  | fill bytes count engine world =>
    rw [fillStaging, exec_withEngine] at hended
    rw [left_of_exec_onHost hended]
    exact .refl _
  | run command engine world => exact alike_of_exec_runCommand hended
  | restart engine world =>
    rw [left_of_exec_onHost hended]
    exact .refl _
  | bind hfirst hbegun hsecond hearly hlate =>
    rw [exec_bind_ok hbegun] at hended
    exact (hlate hended).trans (hearly hbegun)
  | halt hfirst hgave hearly =>
    rw [exec_bind_error hgave] at hended
    cases hended

/-- What every act keeps is kept by every call, and holds in front of each of its acts. The property
may speak of the acts done so far, and it has to survive lines of the log. The acts need to keep it
only on engines like that of the call; calls that halt are covered. -/
theorem Comprises.keeps (Kept : List (Stage σ) → World σ → Prop) {base : Engine}
    (hcalm : ∀ past world log, Kept past world → Kept past { world with log })
    (hacts : ∀ past (stage : Stage σ), stage.engine.Alike base → Kept past stage.world →
      Kept (past ++ [stage]) stage.after)
    {step : EngineM σ α} {stages : List (Stage σ)} (hdid : step.Comprises engine world stages)
    (halike : engine.Alike base) (past : List (Stage σ)) (hkept : Kept past world) :
    Kept (past ++ stages) (step.exec engine world).2 ∧
      ∀ early stage late, stages = early ++ stage :: late →
        stage.engine.Alike base ∧ Kept (past ++ early) stage.world := by
  have halone (act : Act) {engine : Engine} {world : World σ} (halike : engine.Alike base)
      {past : List (Stage σ)} (hkept : Kept past world) (early : List (Stage σ))
      (stage : Stage σ) (late : List (Stage σ))
      (hsplit : [⟨act, engine, world⟩] = early ++ stage :: late) :
      stage.engine.Alike base ∧ Kept (past ++ early) stage.world := by
    cases early with
    | nil =>
      cases hsplit
      rw [List.append_nil]
      exact ⟨halike, hkept⟩
    | cons other rest => simp at hsplit
  induction hdid generalizing past with
  | pure a engine world =>
    rw [List.append_nil]
    exact ⟨hkept, by simp⟩
  | get engine world =>
    rw [List.append_nil]
    exact ⟨hkept, by simp⟩
  | remember sense engine world =>
    rw [List.append_nil]
    exact ⟨hkept, by simp⟩
  | calm hquiet engine world =>
    obtain ⟨log, hsame⟩ := hquiet world
    rw [List.append_nil, exec_onHost, hsame]
    exact ⟨hcalm past world log hkept, by simp⟩
  | fill bytes count engine world =>
    exact ⟨hacts past ⟨.fill bytes count, engine, world⟩ halike hkept, halone _ halike hkept⟩
  | run command engine world =>
    exact ⟨hacts past ⟨.run command, engine, world⟩ halike hkept, halone _ halike hkept⟩
  | restart engine world =>
    rw [exec_onHost]
    exact ⟨hacts past ⟨.restart, engine, world⟩ halike hkept, halone _ halike hkept⟩
  | @bind _ _ _ _ _ left _ after _ earlier later hfirst hended hsecond hearly hlate =>
    obtain ⟨hkeptEarly, hwithin⟩ := hearly halike past hkept
    rw [hended] at hkeptEarly
    obtain ⟨hkeptLate, hwithinLate⟩ :=
      hlate ((hfirst.alike hended).trans halike) (past ++ earlier) hkeptEarly
    rw [exec_bind_ok hended, ← List.append_assoc]
    refine ⟨hkeptLate, fun before stage behind hsplit => ?_⟩
    rcases Stage.split_append hsplit with ⟨between, hsame⟩ | ⟨more, rfl, hrest⟩
    · exact hwithin before stage between hsame
    · rw [← List.append_assoc]
      exact hwithinLate more stage behind hrest
  | halt hfirst hended hearly =>
    obtain ⟨hkeptEarly, hwithin⟩ := hearly halike past hkept
    rw [hended] at hkeptEarly
    rw [exec_bind_error hended]
    exact ⟨hkeptEarly, hwithin⟩

/-- Every act of a call is done on an engine like the one that the call was made on. -/
theorem Comprises.alike_of_mem {base : Engine} {step : EngineM σ α} {stages : List (Stage σ)}
    (hdid : step.Comprises engine world stages) (halike : engine.Alike base) {stage : Stage σ}
    (hmember : stage ∈ stages) : stage.engine.Alike base := by
  obtain ⟨early, late, hsplit⟩ := List.append_of_mem hmember
  have hwithin := (hdid.keeps (fun _ _ => True) (fun _ _ _ _ => trivial)
    (fun _ _ _ _ => trivial) halike [] trivial).2
  exact (hwithin early stage late hsplit).1

/-! Calls by what they come apart into. -/

/-- Wherever a call is made on an engine like `base`, it comes apart into acts, and its acts and its
end stand in the given relation. The end may be a halt. -/
def Composes (step : EngineM σ α) (base : Engine)
    (told : List Act → Except Halt α → Prop) : Prop :=
  ∀ engine world, engine.Alike base → ∃ stages, step.Comprises engine world stages ∧
    told (stages.map Stage.act) ((step.exec engine world).1.map Prod.fst)

namespace Composes

variable {base : Engine} {told : List Act → Except Halt α → Prop}
  {retold : List Act → Except Halt β → Prop}

theorem mono {step : EngineM σ α} {weaker : List Act → Except Halt α → Prop}
    (hcomposes : step.Composes base told)
    (himplies : ∀ acts result, told acts result → weaker acts result) :
    step.Composes base weaker := by
  intro engine world halike
  obtain ⟨stages, hdid, hholds⟩ := hcomposes engine world halike
  exact ⟨stages, hdid, himplies _ _ hholds⟩

theorem pure {a : α} (hends : told [] (.ok a)) : (pure a : EngineM σ α).Composes base told :=
  fun engine world _ => ⟨[], .pure a engine world, hends⟩

theorem get {told : List Act → Except Halt Engine → Prop}
    (hends : ∀ engine : Engine, engine.Alike base → told [] (.ok engine)) :
    (get : EngineM σ Engine).Composes base told :=
  fun engine world halike => ⟨[], .get engine world, hends engine halike⟩

theorem remember {told : List Act → Except Halt PUnit → Prop} (sense : SenseData)
    (hends : told [] (.ok ())) :
    (modify fun engine => { engine with lastSense := some sense } :
      EngineM σ PUnit).Composes base told :=
  fun engine world _ => ⟨[], .remember sense engine world, hends⟩

theorem calm {step : HostM σ α} (hcalm : step.Calm) (hends : ∀ world, told [] (step.exec world).1) :
    (onHost step).Composes base told := by
  intro engine world _
  refine ⟨[], .calm hcalm engine world, ?_⟩
  have hsame : ((onHost step).exec engine world).1.map Prod.fst = (step.exec world).1 := by
    rw [exec_onHost]
    cases (step.exec world).1 <;> rfl
  rw [hsame]
  exact hends world

/-- Two steps in succession: the second adds its acts to those of the first, and a halt of the first
is the end of both with the acts of the first only. -/
theorem bind {step : EngineM σ α} {next : α → EngineM σ β} (hfirst : step.Composes base told)
    (hsecond : ∀ acts a, told acts (.ok a) →
      (next a).Composes base fun more result => retold (acts ++ more) result)
    (hstops : ∀ acts reason, told acts (.error reason) → retold acts (.error reason)) :
    (step >>= next).Composes base retold := by
  intro engine world halike
  obtain ⟨early, hdid, hholds⟩ := hfirst engine world halike
  rcases hended : step.exec engine world with ⟨reason | ⟨a, left⟩, after⟩
  · rw [hended] at hholds
    refine ⟨early, .halt hdid hended, ?_⟩
    rw [exec_bind_error hended]
    exact hstops _ reason hholds
  · rw [hended] at hholds
    obtain ⟨late, hgoing, hfinally⟩ :=
      hsecond _ a hholds left after ((hdid.alike hended).trans halike)
    refine ⟨early ++ late, .bind hdid hended hgoing, ?_⟩
    rw [exec_bind_ok hended, List.map_append]
    exact hfinally

/-- If the first of two steps is known to return with known acts, only the second decides the
rest. -/
theorem seq (acts : List Act) (good : α → Prop) {step : EngineM σ α} {next : α → EngineM σ β}
    (hfirst : step.Composes base fun did result => did = acts ∧ ∃ a, result = .ok a ∧ good a)
    (hsecond : ∀ a, good a →
      (next a).Composes base fun more result => retold (acts ++ more) result) :
    (step >>= next).Composes base retold := by
  apply hfirst.bind
  · rintro did a ⟨rfl, b, hsame, his⟩
    cases hsame
    exact hsecond a his
  · rintro did reason ⟨_, b, himpossible, _⟩
    cases himpossible

theorem map {step : EngineM σ α} (f : α → β)
    (hcomposes : step.Composes base fun acts result => retold acts (result.map f)) :
    (f <$> step).Composes base retold := by
  rw [map_eq_pure_bind]
  refine hcomposes.bind (fun acts a hholds => ?_) fun acts reason hholds => hholds
  apply pure
  rw [List.append_nil]
  exact hholds

/-- A step that looks at the engine comes apart as it does for each engine like `base`. -/
theorem withEngine {step : Engine → HostM σ α}
    (hcomposes : ∀ engine : Engine, engine.Alike base → ∀ world : World σ,
      ∃ stages, (onHost (step engine)).Comprises engine world stages ∧
        told (stages.map Stage.act) ((step engine).exec world).1) :
    (withEngine step).Composes base told := by
  intro engine world halike
  obtain ⟨stages, hdid, hholds⟩ := hcomposes engine halike world
  refine ⟨[] ++ stages, .bind (.get engine world) rfl hdid, ?_⟩
  have hsame : ((EngineM.withEngine step).exec engine world).1.map Prod.fst =
      ((step engine).exec world).1 := by
    rw [exec_withEngine, exec_onHost]
    cases ((step engine).exec world).1 <;> rfl
  rw [hsame]
  exact hholds

theorem note {told : List Act → Except Halt Unit → Prop} (severity : Severity)
    (text : Engine → String) (hends : told [] (.ok ())) :
    (EngineM.withEngine fun engine => (HostM.note severity (text engine) :
      HostM σ Unit)).Composes base told :=
  withEngine fun engine _ world => ⟨[], .calm (.note severity _) engine world, hends⟩

theorem require {told : List Act → Except Halt Unit → Prop} {condition : Bool} {reason : Halt}
    (hholds : condition = true → told [] (.ok ()))
    (hfails : condition = false → told [] (.error reason)) :
    (onHost (HostM.require condition reason) : EngineM σ Unit).Composes base told := by
  refine calm (.require condition reason) fun world => ?_
  cases condition with
  | true => exact hholds rfl
  | false => exact hfails rfl

/-- Reading the staging area has no act. It returns as many bytes as asked for if the area has them,
and halts otherwise. -/
theorem readStaging {told : List Act → Except Halt (List UInt8) → Prop} (count : Nat)
    (hwithin : count ≤ base.areas.read.size → ∀ bytes : List UInt8, bytes.length = count →
      told [] (.ok bytes))
    (hbeyond : base.areas.read.size < count → told [] (.error .outOfBounds)) :
    (readStaging count : EngineM σ _).Composes base told := by
  refine withEngine fun engine halike world => ⟨[], .calm ?_ engine world, ?_⟩
  · exact (HostM.Calm.require _ _).bind fun _ => .inspectMemory _
  · rw [halike.areas]
    by_cases henough : count ≤ base.areas.read.size
    · dsimp only
      rw [decide_eq_true henough]
      exact hwithin henough _ (Memory.length_load _ _ _)
    · dsimp only
      rw [decide_eq_false henough]
      exact hbeyond (Nat.lt_of_not_le henough)

/-- Filling the staging area is one act. It returns if the count fits the area and the bytes fit the
count, and halts otherwise. -/
theorem fill {told : List Act → Except Halt Unit → Prop} (bytes : List UInt8) (count : Nat)
    (hwithin : count ≤ base.areas.write.size → bytes.length ≤ count →
      told [.fill bytes count] (.ok ()))
    (hbeyond : ¬ (count ≤ base.areas.write.size ∧ bytes.length ≤ count) →
      told [.fill bytes count] (.error .outOfBounds)) :
    (fillStaging bytes count : EngineM σ _).Composes base told := by
  intro engine world halike
  refine ⟨_, .fill bytes count engine world, ?_⟩
  rw [← halike.areas] at hwithin hbeyond
  by_cases henough : count ≤ engine.areas.write.size ∧ bytes.length ≤ count
  · rw [exec_fillStaging_ok henough.1 henough.2]
    exact hwithin henough.1 henough.2
  · rw [exec_fillStaging_error henough]
    exact hbeyond henough

/-- Running a command is one act. It returns with some outcome, or halts as a wait without an end if
completions are not limited. -/
theorem run {told : List Act → Except Halt (Except CommandError Unit) → Prop} (command : Command)
    (hends : ∀ outcome, told [.run command] (.ok outcome))
    (hunending : base.config.completionLimit = none → told [.run command] (.error .unending)) :
    (runCommand command : EngineM σ _).Composes base told := by
  intro engine world halike
  refine ⟨_, .run command engine world, ?_⟩
  rcases hended : (runCommand command).exec engine world with ⟨reason | ⟨outcome, left⟩, after⟩
  · obtain ⟨rfl, hendless⟩ := why_exec_runCommand hended
    exact hunending (by rw [← halike.config]; exact hendless)
  · exact hends outcome

theorem restart {told : List Act → Except Halt Unit → Prop} (hends : told [.restart] (.ok ())) :
    (EngineM.withEngine Engine.recover : EngineM σ Unit).Composes base told := by
  refine withEngine fun engine _ world => ⟨_, .restart engine world, ?_⟩
  obtain ⟨_, after, hended⟩ := (engine.touches_recover (σ := σ)).halts.exists_exec world
  rw [hended]
  exact hends

/-- Handling a failure has no act, or a restart as its only one, and returns what the request fails
with. -/
theorem fail {told : List Act → Except Halt IoError → Prop} (label : String)
    (error : CommandError) (hrunning : told [] (.ok error.toIoError))
    (hstopped : told [.restart] (.ok error.toIoError)) :
    (EngineM.withEngine (·.fail label error) : EngineM σ IoError).Composes base told := by
  refine withEngine fun engine _ world => ?_
  cases hneeds : error.needsRecovery with
  | false =>
    refine ⟨[], .calm ?_ engine world, ?_⟩
    · simp only [Engine.fail, hneeds]
      exact (HostM.Calm.note _ _).bind fun _ => .pure _
    · simp only [Engine.fail, hneeds]
      exact hrunning
  | true =>
    let text := engine.title ++ " " ++ label ++ " failed: " ++ error.message
    let noted := { world with log := world.log.record .warn text }
    have hparts : engine.fail label error = (do
        HostM.note .warn text
        engine.recover
        return error.toIoError : HostM σ IoError) := by
      simp only [Engine.fail, hneeds, if_true, text]
    obtain ⟨_, after, hended⟩ := (engine.touches_recover (σ := σ)).halts.exists_exec noted
    refine ⟨[] ++ ([⟨.restart, engine, noted⟩] ++ []), ?_, ?_⟩
    · rw [hparts, onHost_bind]
      refine .bind (.calm (.note _ _) engine world) rfl ?_
      rw [onHost_bind]
      exact .bind (.restart engine noted) (exec_onHost_ok hended) (.calm (.pure _) engine after)
    · rw [hparts, HostM.exec_bind_ok (HostM.exec_note _ _ world), HostM.exec_bind_ok hended]
      exact hstopped

end Composes

end EngineM

end Ahci
