import Ahci.Engine.Packet
import Ahci.Proofs.DriveAnswers

/-!
Requests that do not depend on what memory held before. What a request sends it has placed in
memory itself, and what it reads of memory the device has placed there in answer to a command
that was carried out. So how a request ends is foretold by the port alone, and so is the port
that it leaves behind.
-/

namespace Ahci

variable {α β : Type}

/-- A drive whose identification page has 512 bytes and whose blocks have the size that its kind
goes with: 512 bytes on a disk, 2048 on a packet drive. -/
structure Drive.Regular (drive : Drive) : Prop where
  page : drive.page.length = IdentifyPage.size
  sectors : drive.kind = .disk → drive.medium.blockSize = sectorSize
  blocks : drive.kind = .packetDrive → drive.medium.blockSize = driveBlockSize

/-- A drive with the nameplate of a regular one is regular. -/
theorem Drive.Regular.of_nameplate {drive other : Drive} (hregular : drive.Regular)
    (hsame : other.nameplate = drive.nameplate) : other.Regular := by
  simp only [nameplate, Prod.mk.injEq] at hsame
  obtain ⟨hkind, hpage, hblockSize, _⟩ := hsame
  constructor
  · rw [hpage]
    exact hregular.page
  · rw [hkind, hblockSize]
    exact hregular.sectors
  · rw [hkind, hblockSize]
    exact hregular.blocks

namespace Engine

/-- A steady port on areas that have their sizes and do not overlap, in front of a regular drive. -/
structure Fits (engine : Engine) (port : SimulatedPort) : Prop where
  steady : engine.Steady port
  sized : engine.areas.Sized
  layout : engine.areas.Layout
  regular : port.drive.Regular

/-- Whether an engine fits a port does not depend on the sense it remembers. -/
theorem fits_told {engine : Engine} {sense : Option SenseData} {port : SimulatedPort} :
    (engine.told sense).Fits port ↔ engine.Fits port := by
  constructor
  · intro hfits
    exact ⟨steady_told.1 hfits.steady, hfits.sized, hfits.layout, hfits.regular⟩
  · intro hfits
    exact ⟨steady_told.2 hfits.steady, hfits.sized, hfits.layout, hfits.regular⟩

/-- An engine that fits a port still does once sense data was brought. -/
theorem Fits.of_told {engine left : Engine} {port : SimulatedPort} (hfits : engine.Fits port)
    (htold : ∃ sense, left = engine.told sense) : left.Fits port := by
  obtain ⟨sense, rfl⟩ := htold
  exact fits_told.2 hfits

/-- A steady port that follows from one that fits, fits. -/
theorem Fits.follows {engine : Engine} {port after : SimulatedPort} (hfits : engine.Fits port)
    (hsteady : engine.Steady after) (hfollows : port.Follows after) : engine.Fits after :=
  ⟨hsteady, hfits.sized, hfits.layout, hfits.regular.of_nameplate hfollows.nameplate⟩

end Engine

/-! Steps that give up are the last ones. -/

theorem HostM.Yields.bind_halt {σ : Type} {step : HostM σ α} {next : α → HostM σ β}
    {before after : Machine σ} {reason : Halt} {n : Nat}
    (hfirst : step.Yields before (.error reason) after n) :
    (step >>= next).Yields before (.error reason) after n := by
  intro world haround
  obtain ⟨later, hended, hrest⟩ := hfirst world haround
  refine ⟨later, ?_, hrest⟩
  rw [exec_bind, hended]

theorem EngineM.Yields.bind_halt {σ : Type} {step : EngineM σ α} {next : α → EngineM σ β}
    {engine : Engine} {before after : Machine σ} {reason : Halt} {n : Nat}
    (hfirst : step.Yields engine before (.error reason) after n) :
    (step >>= next).Yields engine before (.error reason) after n := by
  rw [Yields, StateT.run_bind]
  exact HostM.Yields.bind_halt hfirst

theorem EngineM.yields_halt {σ : Type} (reason : Halt) (engine : Engine) (machine : Machine σ) :
    (onHost (HostM.require false reason)).Yields engine machine (.error reason) machine 0 := by
  have hhalted : (HostM.require false reason : HostM σ Unit).Yields machine (.error reason)
      machine 0 := fun world haround => ⟨world, rfl, haround, .refl world⟩
  rw [Yields, run_onHost, map_eq_pure_bind]
  exact HostM.Yields.bind_halt hhalted

namespace EngineM

/-- A step on a port ends in the given way, on the given port and with the given count, whatever
memory holds. The memory it leaves may depend on the one it found. -/
def Foretold (step : EngineM SimulatedPort α) (engine : Engine) (port : SimulatedPort)
    (result : Except Halt (α × Engine)) (after : SimulatedPort) (issued : Nat) : Prop :=
  ∀ memory, ∃ changed, step.Yields engine ⟨port, memory⟩ result ⟨after, changed⟩ issued

/-- A step that returns the same over all memories, leaves a port that fits, and changes nothing of
the engine but the sense it remembers. -/
structure Passes (step : EngineM SimulatedPort α) (engine : Engine) (port : SimulatedPort)
    (a : α) (left : Engine) (after : SimulatedPort) (issued : Nat) : Prop where
  foretold : step.Foretold engine port (.ok (a, left)) after issued
  fits : engine.Fits after
  left : ∃ sense, left = engine.told sense

/-- A step that, on every port that fits, ends the same over all memories, and leaves a port that
fits. It may halt, and if it returns it changes nothing of the engine but the sense it remembers. -/
def Oblivious (step : EngineM SimulatedPort α) : Prop :=
  ∀ engine port, engine.Fits port → ∃ result after issued,
    step.Foretold engine port result after issued ∧ engine.Fits after ∧
      ∀ a left, result = .ok (a, left) → ∃ sense, left = engine.told sense

variable {engine left : Engine} {port between after : SimulatedPort} {m n : Nat}

/-- Two steps in succession that are each foretold are foretold together, and their writes of PxCI
add up. -/
theorem Foretold.bind {step : EngineM SimulatedPort α} {next : α → EngineM SimulatedPort β}
    {a : α} {result : Except Halt (β × Engine)}
    (hfirst : step.Foretold engine port (.ok (a, left)) between m)
    (hsecond : (next a).Foretold left between result after n) :
    (step >>= next).Foretold engine port result after (m + n) := by
  intro memory
  obtain ⟨moved, hearly⟩ := hfirst memory
  obtain ⟨changed, hlate⟩ := hsecond moved
  exact ⟨changed, hearly.bind hlate⟩

theorem Foretold.bind_halt {step : EngineM SimulatedPort α} {next : α → EngineM SimulatedPort β}
    {reason : Halt} (hfirst : step.Foretold engine port (.error reason) after n) :
    (step >>= next).Foretold engine port (.error reason) after n := by
  intro memory
  obtain ⟨changed, hyields⟩ := hfirst memory
  exact ⟨changed, hyields.bind_halt⟩

/-- A step that leaves memory alone and ends alike over every memory is foretold. -/
theorem foretold_of_still {step : EngineM SimulatedPort α} {result : Except Halt (α × Engine)}
    (hyields : ∀ memory, step.Yields engine ⟨port, memory⟩ result ⟨after, memory⟩ n) :
    step.Foretold engine port result after n :=
  fun memory => ⟨memory, hyields memory⟩

theorem Passes.bind {step : EngineM SimulatedPort α} {next : α → EngineM SimulatedPort β}
    {a : α} {b : β} {right : Engine} (hfirst : step.Passes engine port a left between m)
    (hsecond : (next a).Passes left between b right after n) :
    (step >>= next).Passes engine port b right after (m + n) := by
  obtain ⟨sense, rfl⟩ := hfirst.left
  obtain ⟨more, rfl⟩ := hsecond.left
  refine ⟨hfirst.foretold.bind hsecond.foretold, Engine.fits_told.1 hsecond.fits, ?_⟩
  exact ⟨_, engine.told_told sense more⟩

theorem passes_of_still {step : EngineM SimulatedPort α} {a : α} (hfits : engine.Fits port)
    (hyields : ∀ machine, step.Yields engine machine (.ok (a, engine)) machine 0) :
    step.Passes engine port a engine port 0 :=
  ⟨foretold_of_still fun _ => hyields _, hfits, none, rfl⟩

theorem passes_pure (hfits : engine.Fits port) (a : α) :
    (pure a : EngineM SimulatedPort α).Passes engine port a engine port 0 :=
  passes_of_still hfits (yields_pure a engine)

theorem Passes.map {step : EngineM SimulatedPort α} {a : α}
    (hpasses : step.Passes engine port a left after n) (f : α → β) :
    (f <$> step).Passes engine port (f a) left after n := by
  rw [map_eq_pure_bind, ← Nat.add_zero n]
  refine hpasses.bind ?_
  exact passes_pure (hpasses.fits.of_told hpasses.left) (f a)

theorem passes_note (hfits : engine.Fits port) (severity : Severity) (text : Engine → String)
    (hmild : severity ≠ .error) :
    (withEngine fun engine => (HostM.note severity (text engine) :
      HostM SimulatedPort Unit)).Passes engine port () engine port 0 :=
  passes_of_still hfits fun machine => yields_withEngine (HostM.yields_note _ hmild machine)

theorem Passes.guard {condition : Bool} {reason : Halt} {next : Unit → EngineM SimulatedPort β}
    {b : β} (hholds : condition = true) (hrest : (next ()).Passes engine port b left after n) :
    (onHost (HostM.require condition reason) >>= next).Passes engine port b left after n := by
  refine ⟨?_, hrest.fits, hrest.left⟩
  intro memory
  obtain ⟨changed, hyields⟩ := hrest.foretold memory
  exact ⟨changed, (yields_onHost (HostM.yields_require hholds reason _) engine).seq hyields⟩

namespace Oblivious

/-- A step that passes on every port that fits is oblivious. -/
theorem of_passes {step : EngineM SimulatedPort α}
    (hpasses : ∀ engine port, engine.Fits port →
      ∃ a left after issued, step.Passes engine port a left after issued) : step.Oblivious := by
  intro engine port hfits
  obtain ⟨a, left, after, issued, hpassed⟩ := hpasses engine port hfits
  refine ⟨_, after, issued, hpassed.foretold, hpassed.fits, ?_⟩
  rintro _ _ ⟨⟩
  exact hpassed.left

theorem pure (a : α) : (pure a : EngineM SimulatedPort α).Oblivious :=
  of_passes fun engine port hfits => ⟨a, engine, port, 0, passes_pure hfits a⟩

theorem get : (get : EngineM SimulatedPort Engine).Oblivious := by
  refine of_passes fun engine port hfits => ?_
  exact ⟨engine, engine, port, 0, passes_of_still hfits (yields_get engine)⟩

/-- Two oblivious steps in succession are oblivious, since the second starts on a port that fits. -/
theorem bind {step : EngineM SimulatedPort α} {next : α → EngineM SimulatedPort β}
    (hfirst : step.Oblivious) (hsecond : ∀ a, (next a).Oblivious) : (step >>= next).Oblivious := by
  intro engine port hfits
  obtain ⟨result, between, m, hearly, hsettled, htold⟩ := hfirst engine port hfits
  cases result with
  | error reason => exact ⟨_, between, m, hearly.bind_halt, hsettled, nofun⟩
  | ok ended =>
    obtain ⟨a, left⟩ := ended
    obtain ⟨sense, rfl⟩ := htold a left rfl
    obtain ⟨answer, after, n, hlate, hagain, hlast⟩ :=
      hsecond a _ between (Engine.fits_told.2 hsettled)
    refine ⟨answer, after, m + n, hearly.bind hlate, Engine.fits_told.1 hagain, ?_⟩
    intro b right hended
    obtain ⟨more, hsame⟩ := hlast b right hended
    exact ⟨_, hsame.trans (engine.told_told sense more)⟩

theorem map {step : EngineM SimulatedPort α} (hfirst : step.Oblivious) (f : α → β) :
    (f <$> step).Oblivious := by
  rw [map_eq_pure_bind]
  exact hfirst.bind fun a => pure (f a)

theorem note {severity : Severity} (text : Engine → String) (hmild : severity ≠ .error) :
    (withEngine fun engine => (HostM.note severity (text engine) :
      HostM SimulatedPort Unit)).Oblivious := by
  refine of_passes fun engine port hfits => ?_
  exact ⟨(), engine, port, 0, passes_note hfits severity text hmild⟩

/-- A check decides by nothing that memory holds; the rest needs to be oblivious only where the
check holds, because otherwise the step halts. -/
theorem guard {condition : Bool} {reason : Halt} {next : Unit → EngineM SimulatedPort β}
    (hrest : condition = true → (next ()).Oblivious) :
    (onHost (HostM.require condition reason) >>= next).Oblivious := by
  cases condition with
  | false =>
    intro engine port hfits
    have hhalted := foretold_of_still fun memory => yields_halt reason engine ⟨port, memory⟩
    exact ⟨_, port, 0, hhalted.bind_halt, hfits, nofun⟩
  | true =>
    have hpassed : (onHost (HostM.require true reason) :
        EngineM SimulatedPort Unit).Oblivious := pure ()
    exact hpassed.bind fun _ => hrest rfl

end Oblivious

end EngineM

namespace RequestM

theorem run_require_bind (condition : Bool) (reason : Halt)
    (next : Unit → RequestM SimulatedPort β) :
    (RequestM.require condition reason >>= next).run =
      EngineM.onHost (HostM.require condition reason) >>= fun a => (next a).run := by
  rw [ExceptT.run_bind, RequestM.require, run_onEngine, map_eq_pure_bind, bind_assoc]
  simp only [pure_bind]

/-- `EngineM.Oblivious` of a step of a request. -/
def Oblivious (step : RequestM SimulatedPort α) : Prop :=
  step.run.Oblivious

namespace Oblivious

theorem pure (a : α) : (pure a : RequestM SimulatedPort α).Oblivious :=
  EngineM.Oblivious.pure (Except.ok a)

theorem throw (error : IoError) : (throw error : RequestM SimulatedPort α).Oblivious :=
  EngineM.Oblivious.pure (Except.error error)

theorem bind {step : RequestM SimulatedPort α} {next : α → RequestM SimulatedPort β}
    (hfirst : step.Oblivious) (hsecond : ∀ a, (next a).Oblivious) : (step >>= next).Oblivious := by
  rw [Oblivious, ExceptT.run_bind]
  refine EngineM.Oblivious.bind hfirst fun answer => ?_
  cases answer with
  | ok a => exact hsecond a
  | error error => exact .pure _

theorem run_map {step : RequestM SimulatedPort α} (hrequest : step.Oblivious)
    (f : Except IoError α → β) : EngineM.Oblivious (f <$> step.run) :=
  EngineM.Oblivious.map hrequest f

theorem onEngine {step : EngineM SimulatedPort α} (hsilent : step.Oblivious) :
    (onEngine step).Oblivious := by
  rw [Oblivious, run_onEngine]
  exact hsilent.map Except.ok

theorem note {severity : Severity} (text : Engine → String) (hmild : severity ≠ .error) :
    (withEngine fun engine => (HostM.note severity (text engine) :
      HostM SimulatedPort Unit)).Oblivious :=
  .onEngine (.note text hmild)

theorem guard {condition : Bool} {reason : Halt} {next : Unit → RequestM SimulatedPort β}
    (hrest : condition = true → (next ()).Oblivious) :
    (RequestM.require condition reason >>= next).Oblivious := by
  rw [Oblivious, run_require_bind]
  exact EngineM.Oblivious.guard hrest

end Oblivious

end RequestM

end Ahci
