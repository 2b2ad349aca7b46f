import Ahci.Engine.Basic

/-!
Running the driver. `EngineM.exec` says what a step on a port ends with in a world. What a
step does depends on the device and on the memory shared with it, a `Machine`; around them
records only grow, and PxCI is written a number of times, which is `World.Progress`. `Yields`
puts both together and composes: the runs of two steps are one run of the two in a row.
-/

namespace Ahci

variable {σ α β : Type}

namespace HostM

/-- If the first of two steps returns, the second is taken with its result in the world it left. -/
theorem exec_bind_ok {step : HostM σ α} {next : α → HostM σ β} {world after : World σ} {a : α}
    (hfirst : step.exec world = (.ok a, after)) :
    (step >>= next).exec world = (next a).exec after := by
  rw [exec_bind, hfirst]

/-- If the first of two steps halts, the second is not taken, and the first decides the end. -/
theorem exec_bind_error {step : HostM σ α} {next : α → HostM σ β} {world after : World σ}
    {reason : Halt} (hfirst : step.exec world = (.error reason, after)) :
    (step >>= next).exec world = (.error reason, after) := by
  rw [exec_bind, hfirst]

/-- If two steps in succession return, both of them did: the first with some result in some world,
and the second from there. -/
theorem exists_exec_bind {step : HostM σ α} {next : α → HostM σ β} {world after : World σ} {b : β}
    (hended : (step >>= next).exec world = (.ok b, after)) :
    ∃ a between, step.exec world = (.ok a, between) ∧
      (next a).exec between = (.ok b, after) := by
  rcases hfirst : step.exec world with ⟨reason | a, between⟩
  · rw [exec_bind_error hfirst] at hended
    cases hended
  · rw [exec_bind_ok hfirst] at hended
    exact ⟨a, between, rfl, hended⟩

end HostM

namespace EngineM

/-- What a step ends with on an engine in a world, and the world after it. -/
def exec (step : EngineM σ α) (engine : Engine) (world : World σ) :
    Except Halt (α × Engine) × World σ :=
  (step.run engine).exec world

/-- Two steps in succession on an engine: the second is taken on the engine and in the world that
the first left, unless the first halted, which is then the end of both. -/
theorem exec_bind (step : EngineM σ α) (next : α → EngineM σ β) (engine : Engine)
    (world : World σ) :
    exec (step >>= next) engine world =
      match exec step engine world with
      | (.ok (a, engine), world) => exec (next a) engine world
      | (.error reason, world) => (.error reason, world) := by
  rw [exec, StateT.run_bind, HostM.exec_bind]
  unfold exec
  rcases (step.run engine).exec world with ⟨_ | ⟨_, _⟩, _⟩ <;> rfl

theorem exec_bind_ok {step : EngineM σ α} {next : α → EngineM σ β} {engine left : Engine}
    {world after : World σ} {a : α} (hfirst : exec step engine world = (.ok (a, left), after)) :
    exec (step >>= next) engine world = exec (next a) left after := by
  rw [exec_bind, hfirst]

theorem exec_bind_error {step : EngineM σ α} {next : α → EngineM σ β} {engine : Engine}
    {world after : World σ} {reason : Halt}
    (hfirst : exec step engine world = (.error reason, after)) :
    exec (step >>= next) engine world = (.error reason, after) := by
  rw [exec_bind, hfirst]

theorem exec_onHost (step : HostM σ α) (engine : Engine) (world : World σ) :
    exec (onHost step) engine world =
      ((step.exec world).1.map (·, engine), (step.exec world).2) := by
  rw [exec, run_onHost, HostM.exec_map]

theorem exec_onHost_ok {step : HostM σ α} {engine : Engine} {world after : World σ} {a : α}
    (hended : step.exec world = (.ok a, after)) :
    exec (onHost step) engine world = (.ok (a, engine), after) := by
  rw [exec_onHost, hended]
  rfl

theorem exec_withEngine (step : Engine → HostM σ α) (engine : Engine) (world : World σ) :
    exec (withEngine step) engine world = exec (onHost (step engine)) engine world := by
  rw [exec, exec, run_withEngine, run_onHost]

theorem exec_withEngine_ok {step : Engine → HostM σ α} {engine : Engine}
    {world after : World σ} {a : α} (hended : (step engine).exec world = (.ok a, after)) :
    exec (withEngine step) engine world = (.ok (a, engine), after) := by
  rw [exec_withEngine, exec_onHost_ok hended]

end EngineM

/-! What the driver leaves of the world around the device and its memory. -/

/-- Whether an access writes PxCI, by which commands are issued. -/
def Access.isIssue : Access → Bool
  | .write _ offset _ => offset == PortRegister.ci
  | _ => false

/-- A device and the memory that it shares with the processor. -/
structure Machine (σ : Type) where
  device : σ
  memory : Memory

namespace World

def machine (world : World σ) : Machine σ :=
  ⟨world.device, world.memory⟩

/-- How often PxCI was written so far, on any port. -/
def issues (world : World σ) : Nat :=
  world.accesses.countP Access.isIssue

/-- The log of one world continues that of another, and none of the new lines is an error. Steps
that run commands without being short of a slot write only such lines. -/
def Mild (before after : World σ) : Prop :=
  ∃ made, after.log.lines = made ++ before.log.lines ∧ ∀ line ∈ made, line.severity ≠ .error

theorem Mild.refl (world : World σ) : world.Mild world :=
  ⟨[], rfl, by simp⟩

theorem Mild.trans {first second third : World σ} (hearly : first.Mild second)
    (hlate : second.Mild third) : first.Mild third := by
  obtain ⟨made, hlines, hmild⟩ := hearly
  obtain ⟨more, hlater, hmilder⟩ := hlate
  refine ⟨more ++ made, ?_, ?_⟩
  · rw [hlater, hlines, List.append_assoc]
  · intro line hmember
    rcases List.mem_append.1 hmember with hnew | hold
    · exact hmilder line hnew
    · exact hmild line hold

theorem Mild.of_record {world : World σ} {severity : Severity} (text : String)
    (hmild : severity ≠ .error) :
    world.Mild { world with log := world.log.record severity text } := by
  refine ⟨_, Log.lines_record world.log severity text, ?_⟩
  intro line hmember
  have hsame : line = ⟨severity, text⟩ := by
    simpa using (List.mem_filter.1 hmember).1
  rw [hsame]
  exact hmild

/-- One world comes from another by work of the driver in which PxCI was written the given number of
times. The allocator, the record of frames and the patience are untouched, and the log grew by no
line that is an error. Nothing is said of the device and its memory. -/
structure Progress (before after : World σ) (issued : Nat) : Prop where
  allocator : after.allocator = before.allocator
  frameEvents : after.frameEvents = before.frameEvents
  patience : after.patience = before.patience
  mild : before.Mild after
  issues : after.issues = before.issues + issued

theorem Progress.refl (world : World σ) : world.Progress world 0 :=
  ⟨rfl, rfl, rfl, .refl world, rfl⟩

/-- Progress adds up: the writes of PxCI are counted together, and everything else carries over. -/
theorem Progress.trans {first second third : World σ} {m n : Nat}
    (hearly : first.Progress second m) (hlate : second.Progress third n) :
    first.Progress third (m + n) where
  allocator := hlate.allocator.trans hearly.allocator
  frameEvents := hlate.frameEvents.trans hearly.frameEvents
  patience := hlate.patience.trans hearly.patience
  mild := hearly.mild.trans hlate.mild
  issues := by rw [hlate.issues, hearly.issues, Nat.add_assoc]

end World

namespace HostM

/-- In every world around a machine the step ends with the given result, leaves the given machine,
and writes PxCI the given number of times. What surrounds the machine makes progress only; the
result may also be a halt. -/
def Yields (step : HostM σ α) (before : Machine σ) (result : Except Halt α)
    (after : Machine σ) (issued : Nat) : Prop :=
  ∀ world : World σ, world.machine = before →
    ∃ later, step.exec world = (result, later) ∧ later.machine = after ∧
      world.Progress later issued

variable {before between after : Machine σ}

theorem yields_pure (a : α) (machine : Machine σ) :
    (pure a : HostM σ α).Yields machine (.ok a) machine 0 :=
  fun world haround => ⟨world, rfl, haround, .refl world⟩

/-- Two steps in succession: the second starts at the machine the first left, and their writes of
PxCI add up. -/
theorem Yields.bind {step : HostM σ α} {next : α → HostM σ β} {a : α} {result : Except Halt β}
    {m n : Nat} (hfirst : step.Yields before (.ok a) between m)
    (hsecond : (next a).Yields between result after n) :
    (step >>= next).Yields before result after (m + n) := by
  intro world haround
  obtain ⟨middle, hended, haround, hearly⟩ := hfirst world haround
  obtain ⟨later, hfinished, haround, hlate⟩ := hsecond middle haround
  exact ⟨later, by rw [exec_bind_ok hended, hfinished], haround, hearly.trans hlate⟩

/-- If the first of two steps issues no command, the second decides the result and the count. -/
theorem Yields.seq {step : HostM σ α} {next : α → HostM σ β} {a : α}
    {result : Except Halt β} {n : Nat} (hfirst : step.Yields before (.ok a) between 0)
    (hsecond : (next a).Yields between result after n) :
    (step >>= next).Yields before result after n := by
  have hboth := hfirst.bind hsecond
  rwa [Nat.zero_add] at hboth

theorem Yields.finish {step : HostM σ α} {next : α → HostM σ β} {a : α}
    {result : Except Halt β} {n : Nat} (hfirst : step.Yields before (.ok a) between n)
    (hsecond : (next a).Yields between result after 0) :
    (step >>= next).Yields before result after n :=
  hfirst.bind hsecond

theorem yields_note {severity : Severity} (text : String) (hmild : severity ≠ .error)
    (machine : Machine σ) :
    (note severity text).Yields machine (.ok ()) machine 0 :=
  fun _ haround => ⟨_, exec_note _ _ _, haround, rfl, rfl, rfl, .of_record text hmild, rfl⟩

theorem yields_require {condition : Bool} (hholds : condition = true) (reason : Halt)
    (machine : Machine σ) :
    (require condition reason).Yields machine (.ok ()) machine 0 := by
  subst hholds
  exact yields_pure () machine

theorem yields_inspectMemory (f : Memory → α) (machine : Machine σ) :
    (inspectMemory f).Yields machine (.ok (f machine.memory)) machine 0 := by
  rintro world rfl
  exact ⟨world, rfl, rfl, .refl world⟩

theorem yields_changeMemory (f : Memory → Memory) (machine : Machine σ) :
    (changeMemory f).Yields machine (.ok ()) ⟨machine.device, f machine.memory⟩ 0 := by
  rintro world rfl
  exact ⟨_, exec_changeMemory f world, rfl, rfl, rfl, rfl, ⟨[], rfl, by simp⟩, rfl⟩

end HostM

namespace EngineM

/-- `HostM.Yields` of a step on an engine: the result carries the engine that the step leaves. -/
def Yields (step : EngineM σ α) (engine : Engine) (before : Machine σ)
    (result : Except Halt (α × Engine)) (after : Machine σ) (issued : Nat) : Prop :=
  (step.run engine).Yields before result after issued

variable {engine left : Engine} {before between after : Machine σ}

theorem yields_pure (a : α) (engine : Engine) (machine : Machine σ) :
    (pure a : EngineM σ α).Yields engine machine (.ok (a, engine)) machine 0 :=
  HostM.yields_pure (a, engine) machine

theorem yields_get (engine : Engine) (machine : Machine σ) :
    (get : EngineM σ Engine).Yields engine machine (.ok (engine, engine)) machine 0 :=
  HostM.yields_pure (engine, engine) machine

theorem yields_set (new engine : Engine) (machine : Machine σ) :
    (set new : EngineM σ PUnit).Yields engine machine (.ok ((), new)) machine 0 :=
  HostM.yields_pure ((), new) machine

theorem yields_modify (f : Engine → Engine) (engine : Engine) (machine : Machine σ) :
    (modify f : EngineM σ PUnit).Yields engine machine (.ok ((), f engine)) machine 0 :=
  HostM.yields_pure ((), f engine) machine

/-- Two steps in succession on an engine: the second is taken on the engine and the machine that the
first left. -/
theorem Yields.bind {step : EngineM σ α} {next : α → EngineM σ β} {a : α}
    {result : Except Halt (β × Engine)} {m n : Nat}
    (hfirst : step.Yields engine before (.ok (a, left)) between m)
    (hsecond : (next a).Yields left between result after n) :
    (step >>= next).Yields engine before result after (m + n) := by
  rw [Yields, StateT.run_bind]
  exact HostM.Yields.bind hfirst hsecond

/-- If the first of two steps on an engine issues no command, the second decides result and
count. -/
theorem Yields.seq {step : EngineM σ α} {next : α → EngineM σ β} {a : α}
    {result : Except Halt (β × Engine)} {n : Nat}
    (hfirst : step.Yields engine before (.ok (a, left)) between 0)
    (hsecond : (next a).Yields left between result after n) :
    (step >>= next).Yields engine before result after n := by
  rw [Yields, StateT.run_bind]
  exact HostM.Yields.seq hfirst hsecond

theorem Yields.finish {step : EngineM σ α} {next : α → EngineM σ β} {a : α}
    {result : Except Halt (β × Engine)} {n : Nat}
    (hfirst : step.Yields engine before (.ok (a, left)) between n)
    (hsecond : (next a).Yields left between result after 0) :
    (step >>= next).Yields engine before result after n :=
  hfirst.bind hsecond

theorem Yields.map {step : EngineM σ α} {a : α} {n : Nat}
    (hfirst : step.Yields engine before (.ok (a, left)) after n) (f : α → β) :
    (f <$> step).Yields engine before (.ok (f a, left)) after n := by
  rw [map_eq_pure_bind]
  exact Yields.finish hfirst (yields_pure (f a) left after)

theorem yields_onHost {step : HostM σ α} {a : α} {n : Nat}
    (hended : step.Yields before (.ok a) after n) (engine : Engine) :
    (onHost step).Yields engine before (.ok (a, engine)) after n := by
  rw [Yields, run_onHost, map_eq_pure_bind]
  exact HostM.Yields.finish hended (HostM.yields_pure (a, engine) after)

theorem yields_withEngine {step : Engine → HostM σ α} {a : α} {n : Nat}
    (hended : (step engine).Yields before (.ok a) after n) :
    (withEngine step).Yields engine before (.ok (a, engine)) after n := by
  rw [Yields, run_withEngine, ← run_onHost]
  exact yields_onHost hended engine

end EngineM

namespace RequestM

/-- `EngineM.Yields` of a step of a request: the result tells whether the request goes on or
failed. -/
def Yields (step : RequestM σ α) (engine : Engine) (before : Machine σ)
    (result : Except Halt (Except IoError α × Engine)) (after : Machine σ) (issued : Nat) :
    Prop :=
  step.run.Yields engine before result after issued

variable {engine left : Engine} {before between after : Machine σ}

theorem yields_pure (a : α) (engine : Engine) (machine : Machine σ) :
    (pure a : RequestM σ α).Yields engine machine (.ok (.ok a, engine)) machine 0 :=
  EngineM.yields_pure (Except.ok a) engine machine

theorem yields_throw (error : IoError) (engine : Engine) (machine : Machine σ) :
    (throw error : RequestM σ α).Yields engine machine (.ok (.error error, engine)) machine 0 :=
  EngineM.yields_pure (Except.error error) engine machine

/-- Two steps of a request in succession, where the first lets the request go on. -/
theorem Yields.bind {step : RequestM σ α} {next : α → RequestM σ β} {a : α}
    {result : Except Halt (Except IoError β × Engine)} {m n : Nat}
    (hfirst : step.Yields engine before (.ok (.ok a, left)) between m)
    (hsecond : (next a).Yields left between result after n) :
    (step >>= next).Yields engine before result after (m + n) := by
  rw [Yields, ExceptT.run_bind]
  exact EngineM.Yields.bind hfirst hsecond

/-- If the first step of a request issues no command, the rest decides result and count. -/
theorem Yields.seq {step : RequestM σ α} {next : α → RequestM σ β} {a : α}
    {result : Except Halt (Except IoError β × Engine)} {n : Nat}
    (hfirst : step.Yields engine before (.ok (.ok a, left)) between 0)
    (hsecond : (next a).Yields left between result after n) :
    (step >>= next).Yields engine before result after n := by
  rw [Yields, ExceptT.run_bind]
  exact EngineM.Yields.seq hfirst hsecond

theorem Yields.finish {step : RequestM σ α} {next : α → RequestM σ β} {a : α}
    {result : Except Halt (Except IoError β × Engine)} {n : Nat}
    (hfirst : step.Yields engine before (.ok (.ok a, left)) between n)
    (hsecond : (next a).Yields left between result after 0) :
    (step >>= next).Yields engine before result after n :=
  hfirst.bind hsecond

/-- A step that fails the request is its last: the rest is not taken, and the error is its end. -/
theorem Yields.bind_error {step : RequestM σ α} {next : α → RequestM σ β} {error : IoError}
    {n : Nat} (hfirst : step.Yields engine before (.ok (.error error, left)) after n) :
    (step >>= next).Yields engine before (.ok (.error error, left)) after n := by
  rw [Yields, ExceptT.run_bind]
  exact EngineM.Yields.finish hfirst (EngineM.yields_pure (Except.error error) left after)

theorem yields_onEngine {step : EngineM σ α} {a : α} {n : Nat}
    (hended : step.Yields engine before (.ok (a, left)) after n) :
    (onEngine step).Yields engine before (.ok (.ok a, left)) after n := by
  rw [Yields, run_onEngine]
  exact hended.map Except.ok

theorem yields_withEngine {step : Engine → HostM σ α} {a : α} {n : Nat}
    (hended : (step engine).Yields before (.ok a) after n) :
    (withEngine step).Yields engine before (.ok (.ok a, engine)) after n :=
  yields_onEngine (EngineM.yields_withEngine hended)

theorem yields_require {condition : Bool} (hholds : condition = true) (reason : Halt)
    (engine : Engine) (machine : Machine σ) :
    (RequestM.require condition reason).Yields engine machine (.ok (.ok (), engine)) machine 0 :=
  yields_onEngine (EngineM.yields_onHost (HostM.yields_require hholds reason machine) engine)

end RequestM

end Ahci
