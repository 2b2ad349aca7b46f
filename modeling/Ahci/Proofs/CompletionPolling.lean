import Ahci.Proofs.CallActs

/-!
How often a port is asked whether a command has ended, over any device. Where a limit is set for
the completion of a command, PxCI is read no more often than the limit says.
-/

namespace Ahci

variable {σ α β : Type}

/-- Whether an access reads PxCI of a given port. -/
def Access.isPoll (window : Window) : Access → Bool
  | .read asked offset _ => asked == window && offset == PortRegister.ci
  | _ => false

/-- How often PxCI of a port was read so far. -/
def World.polls (world : World σ) (window : Window) : Nat :=
  world.accesses.countP (Access.isPoll window)

namespace HostM

/-- A step that reads PxCI of a port at most a given number of times, from any world and however it
ends. -/
structure Polls (step : HostM σ α) (window : Window) (most : Nat) : Prop where
  few : ∀ world, (step.exec world).2.polls window ≤ world.polls window + most

namespace Polls

variable {window : Window} {most fewer : Nat}

theorem pure (a : α) : Polls (pure a : HostM σ α) window 0 :=
  ⟨fun _ => Nat.le_refl _⟩

theorem changeMemory (f : Memory → Memory) :
    Polls (changeMemory f : HostM σ Unit) window 0 :=
  ⟨fun _ => Nat.le_refl _⟩

theorem writeRegister [Device σ] (offset : Nat) (value : UInt32) :
    Polls (writeRegister window offset value : HostM σ Unit) window 0 :=
  ⟨fun _ => Nat.le_refl _⟩

theorem readRegister [Device σ] {offset : Nat} (hother : offset ≠ PortRegister.ci) :
    Polls (readRegister window offset : HostM σ UInt32) window 0 := by
  constructor
  intro world
  simp [World.polls, Access.isPoll, hother]

theorem readIssued [Device σ] :
    Polls (HostM.readRegister window PortRegister.ci : HostM σ UInt32) window 1 := by
  constructor
  intro world
  simp [World.polls, Access.isPoll]

theorem mono {step : HostM σ α} (hpolls : step.Polls window fewer) (hle : fewer ≤ most) :
    step.Polls window most :=
  ⟨fun world => Nat.le_trans (hpolls.few world) (Nat.add_le_add_left hle _)⟩

/-- The bounds of two steps in succession add up, for whatever the first returns. -/
theorem bind {step : HostM σ α} {next : α → HostM σ β} (hfirst : step.Polls window fewer)
    (hsecond : ∀ a, (next a).Polls window most) : (step >>= next).Polls window (fewer + most) := by
  constructor
  intro world
  have hearly := hfirst.few world
  rw [exec_bind]
  rcases hended : step.exec world with ⟨reason | a, after⟩
  · rw [hended] at hearly
    exact Nat.le_trans hearly (by omega)
  · rw [hended] at hearly
    have hlate := (hsecond a).few after
    dsimp only at hearly hlate ⊢
    omega

theorem seq {step : HostM σ α} {next : α → HostM σ β} (hfirst : step.Polls window 0)
    (hsecond : ∀ a, (next a).Polls window most) : (step >>= next).Polls window most := by
  have hboth := hfirst.bind hsecond
  rwa [Nat.zero_add] at hboth

theorem finish {step : HostM σ α} {next : α → HostM σ β} (hfirst : step.Polls window most)
    (hsecond : ∀ a, (next a).Polls window 0) : (step >>= next).Polls window most :=
  hfirst.bind hsecond

end Polls

variable [Device σ] (window : Window)

theorem polls_busySlots : (busySlots window : HostM σ _).Polls window 1 := by
  apply (Polls.readRegister (by decide)).seq
  intro outstanding
  exact Polls.readIssued.finish fun _ => .pure _

theorem polls_becomesReady (polls : Nat) :
    (becomesReady window polls : HostM σ Bool).Polls window 0 := by
  induction polls with
  | zero => exact .pure _
  | succ polls ih =>
    apply (Polls.readRegister (by decide)).seq
    intro file
    split
    · exact .pure _
    · exact ih

theorem polls_pollOnce (slot : Nat) (packet : Bool) :
    (pollOnce window slot packet : HostM σ _).Polls window 1 := by
  have hfailed (status : UInt32) : (completionError window status packet : HostM σ _).Polls
      window 0 :=
    (Polls.readRegister (by decide)).seq fun _ => .pure _
  apply (Polls.readRegister (by decide)).seq
  intro status
  split
  · exact ((hfailed status).seq fun _ => .pure _).mono (Nat.zero_le 1)
  · apply Polls.readIssued.finish
    intro issued
    split
    · exact .pure _
    · apply (Polls.readRegister (by decide)).seq
      intro late
      split
      · exact (hfailed late).seq fun _ => .pure _
      · exact .pure _

/-- A number of polls read PxCI as often at most, since each of them reads it once at most. -/
theorem polls_firstConclusive (slot : Nat) (packet : Bool) (polls : Nat) :
    (firstConclusive window slot packet polls : HostM σ _).Polls window polls := by
  induction polls with
  | zero => exact .pure _
  | succ polls ih =>
    rw [firstConclusive, Nat.add_comm]
    apply (polls_pollOnce window slot packet).bind
    intro outcome?
    cases outcome? with
    | none => exact ih
    | some outcome => exact (Polls.pure _).mono (Nat.zero_le polls)

/-- To issue a command and watch it reads PxCI no more often than the limit says, or once for the
limit zero. Without a limit there is no such bound. -/
theorem polls_issueAndWait (arena : SlotArena) (slot : Nat) {config : Config} {limit : UInt32}
    (hlimited : config.completionLimit = some limit) (packet : Bool) :
    (issueAndWait window arena slot config packet : HostM σ _).Polls window
      (max 1 limit.toNat) := by
  apply (Polls.writeRegister _ _).seq
  intro _
  apply (polls_becomesReady window _).seq
  intro ready
  split
  · exact (Polls.pure _).mono (Nat.zero_le _)
  · apply (Polls.writeRegister _ _).seq
    intro _
    rw [hlimited]
    refine Polls.finish ?_ fun _ => .pure _
    apply (polls_firstConclusive window slot packet _).finish
    intro outcome?
    cases outcome? <;> exact .pure _

end HostM

variable [Device σ]

/-- With a limit, to run a command reads PxCI once to find the slots in use, and then no more often
than the limit says, or once for the limit zero. This covers commands that fail or time out. -/
theorem EngineM.polls_runCommand (command : Command) {engine : Engine} {limit : UInt32}
    (hlimited : engine.config.completionLimit = some limit) (world : World σ) :
    ((runCommand command).exec engine world).2.polls engine.window ≤
      world.polls engine.window + (1 + max 1 limit.toNat) := by
  obtain ⟨busy, looked, hfree, hattempt⟩ := exec_runCommand command engine world
  have hasked := (HostM.polls_busySlots (σ := σ) engine.window).few world
  rw [hfree] at hasked
  obtain ⟨shortage, _, hfull⟩ | ⟨slot, claimed, result, after, _, hran, hrest⟩ := hattempt
  · rw [hfull]
    exact Nat.le_trans hasked (by omega)
  · have hsubmitted : (engine.submit claimed slot command : HostM σ _).Polls engine.window
        (max 1 limit.toNat) := by
      unfold Engine.submit
      cases engine.scatter command with
      | error error => exact (HostM.Polls.pure _).mono (Nat.zero_le _)
      | ok entries =>
        apply (HostM.Polls.changeMemory _).seq
        exact fun _ => HostM.polls_issueAndWait _ _ _ hlimited _
    have hlater := hsubmitted.few looked
    rw [hran] at hlater
    rw [hrest]
    dsimp only at hasked hlater ⊢
    omega

/-- The bound for a single command holds for each command among the acts of a call, because no act
changes the window or the limit of the engine. -/
theorem EngineM.Comprises.polls {step : EngineM σ α} {base engine : Engine} {world : World σ}
    {stages : List (Stage σ)} (hdid : step.Comprises engine world stages)
    (halike : engine.Alike base) {limit : UInt32}
    (hlimited : base.config.completionLimit = some limit) {stage : Stage σ}
    (hmember : stage ∈ stages) {command : Command} (hruns : stage.act = .run command) :
    stage.after.polls base.window ≤ stage.world.polls base.window + (1 + max 1 limit.toNat) := by
  have hwithin := hdid.alike_of_mem halike hmember
  have hhead : stage.after = ((runCommand command).exec stage.engine stage.world).2 := by
    rw [Stage.after, hruns]
  rw [hhead, ← hwithin.window]
  apply polls_runCommand
  rw [hwithin.config]
  exact hlimited

end Ahci
