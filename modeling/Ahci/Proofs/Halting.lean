import Ahci.Engine.Basic
import Ahci.Proofs.Execution

/-!
Steps that leave no trace, and steps that give up: what the one do to the world, and what the
others give up for.
-/

namespace Ahci

variable {σ α β : Type}

/-! Steps on the host that leave no trace. -/

namespace HostM

/-- A step that changes nothing of the world but its log, from any world and however it ends. -/
def Calm (step : HostM σ α) : Prop :=
  ∀ world, ∃ log, (step.exec world).2 = { world with log }

namespace Calm

theorem pure (a : α) : Calm (pure a : HostM σ α) :=
  fun world => ⟨world.log, rfl⟩

theorem note (severity : Severity) (text : String) : Calm (note severity text : HostM σ Unit) :=
  fun _ => ⟨_, rfl⟩

theorem inspectMemory (f : Memory → α) : Calm (inspectMemory f : HostM σ α) :=
  fun world => ⟨world.log, rfl⟩

theorem require (condition : Bool) (reason : Halt) :
    Calm (require condition reason : HostM σ Unit) := by
  intro world
  exact ⟨world.log, by rw [exec_require]⟩

theorem bind {step : HostM σ α} {next : α → HostM σ β} (hfirst : step.Calm)
    (hsecond : ∀ a, (next a).Calm) : (step >>= next).Calm := by
  intro world
  obtain ⟨log, hearly⟩ := hfirst world
  rw [exec_bind]
  rcases hended : step.exec world with ⟨reason | a, after⟩
  · rw [hended] at hearly
    exact ⟨log, hearly⟩
  · rw [hended] at hearly
    obtain ⟨later, hlate⟩ := hsecond a after
    have hsame : after = { world with log } := hearly
    subst hsame
    exact ⟨later, hlate⟩

end Calm

/-- A step that halts, if at all, for a reason of a kind. It need not halt in any world. -/
structure Halts (step : HostM σ α) (reasons : Halt → Prop) : Prop where
  why : ∀ world reason, (step.exec world).1 = .error reason → reasons reason

namespace Halts

variable {reasons : Halt → Prop}

/-- A step that returns from every world halts for no reason, so for any kind. -/
theorem of_ok {step : HostM σ α} (hends : ∀ world, ∃ a, (step.exec world).1 = .ok a) :
    step.Halts reasons := by
  constructor
  intro world reason hgave
  obtain ⟨a, hended⟩ := hends world
  rw [hended] at hgave
  cases hgave

theorem pure (a : α) : Halts (pure a : HostM σ α) reasons :=
  of_ok fun _ => ⟨a, rfl⟩

theorem halt {reason : Halt} (hbecause : reasons reason) :
    Halts (halt reason : HostM σ α) reasons := by
  constructor
  intro world stopped hgave
  cases hgave
  exact hbecause

theorem patience : Halts (patience : HostM σ Nat) reasons :=
  of_ok fun _ => ⟨_, rfl⟩

theorem note (severity : Severity) (text : String) :
    Halts (note severity text : HostM σ Unit) reasons :=
  of_ok fun _ => ⟨(), rfl⟩

theorem changeMemory (f : Memory → Memory) : Halts (changeMemory f : HostM σ Unit) reasons :=
  of_ok fun _ => ⟨(), rfl⟩

theorem readRegister [Device σ] (window : Window) (offset : Nat) :
    Halts (readRegister window offset : HostM σ UInt32) reasons :=
  of_ok fun _ => ⟨_, rfl⟩

theorem writeRegister [Device σ] (window : Window) (offset : Nat) (value : UInt32) :
    Halts (writeRegister window offset value : HostM σ Unit) reasons :=
  of_ok fun _ => ⟨(), rfl⟩

theorem bind {step : HostM σ α} {next : α → HostM σ β} (hfirst : step.Halts reasons)
    (hsecond : ∀ a, (next a).Halts reasons) : (step >>= next).Halts reasons := by
  constructor
  intro world reason hgave
  rw [exec_bind] at hgave
  rcases hended : step.exec world with ⟨stopped | a, after⟩
  · rw [hended] at hgave
    cases hgave
    apply hfirst.why world
    rw [hended]
  · rw [hended] at hgave
    exact (hsecond a).why after reason hgave

theorem mono {step : HostM σ α} {others : Halt → Prop} (hhalts : step.Halts reasons)
    (himplies : ∀ reason, reasons reason → others reason) : step.Halts others :=
  ⟨fun world reason hgave => himplies reason (hhalts.why world reason hgave)⟩

/-- A step that halts for no reason at all returns from every world. -/
theorem exists_exec {step : HostM σ α} (hnever : step.Halts fun _ => False) (world : World σ) :
    ∃ a after, step.exec world = (.ok a, after) := by
  rcases hended : step.exec world with ⟨reason | a, after⟩
  · refine False.elim (hnever.why world reason ?_)
    rw [hended]
  · exact ⟨a, after, rfl⟩

end Halts

end HostM

end Ahci
