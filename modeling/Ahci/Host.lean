import Ahci.Frames
import Ahci.Log
import Ahci.Memory
import Ahci.Register

/-!
What a driver acts on: registers behind a device, memory shared with it, an allocator of
frames, and a log. A driver is written once for every `Device`, so that a statement about
it holds for whatever the hardware answers, and every register access it makes is kept in
order.

A call ends with a value or with a `Halt`: the driver found one of its own preconditions
broken, or polled hardware that never answers. What the call did until then stays done.
-/

namespace Ahci

/-- Hardware with a state `σ`: what a register reads as, and what writing one does to the
device and to the memory it shares with the processor. -/
class Device (σ : Type) where
  read : Window → Nat → σ → Memory → UInt32 × σ
  write : Window → Nat → UInt32 → σ → Memory → σ × Memory

/-- One access of a driver to a register block. -/
inductive Access where
  | read (window : Window) (offset : Nat) (value : UInt32)
  | write (window : Window) (offset : Nat) (value : UInt32)
  /-- The block of a port was asked for. -/
  | opened (window : Window)
deriving DecidableEq, Repr

/-- Why a call cannot go on. -/
inductive Halt where
  /-- A request is larger than one command can carry. -/
  | overLimit (request : String)
  /-- A number left its width. -/
  | overflow
  /-- Something was asked for beyond the end of a buffer or of a list. -/
  | outOfBounds
  /-- Bytes were to be copied between buffers of different lengths. -/
  | lengthMismatch
  /-- The hardware never answers. -/
  | unending
deriving DecidableEq, Repr

/-- The halt in words, where it has any. -/
def Halt.message? : Halt → Option String
  | .overLimit request => some ("AHCI: " ++ request ++ " exceeds the per-command limit")
  | _ => none

/-- Everything outside the driver, and the record of what the driver did to it. -/
structure World (σ : Type) where
  device : σ
  memory : Memory
  allocator : Allocator
  /-- Grants, refusals and returns of frames, newest first. -/
  frameEvents : List FrameEvent := []
  /-- Register accesses, newest first. -/
  accesses : List Access := []
  log : Log := {}
  /-- Polls beyond the first one, after which hardware that was given no limit counts as never
  answering. -/
  patience : Nat := 0x4000000000000000

/-- A step of a driver on a device with state `σ`. -/
abbrev HostM (σ : Type) := ExceptT Halt (StateM (World σ))

namespace HostM

variable {σ : Type}

/-- What a step ends with in a world, and the world after it. -/
def exec {α : Type} (step : HostM σ α) (world : World σ) : Except Halt α × World σ :=
  step.run.run world

/-- Reads a register, which may change the device, and records the access. -/
def readRegister [Device σ] (window : Window) (offset : Nat) : HostM σ UInt32 :=
  ExceptT.mk fun ⟨device, memory, allocator, frameEvents, accesses, log, patience⟩ =>
    let (value, device) := Device.read window offset device memory
    (.ok value, ⟨device, memory, allocator, frameEvents, .read window offset value :: accesses,
      log, patience⟩)

/-- Writes a register, which may change the device and memory, and records the access. -/
def writeRegister [Device σ] (window : Window) (offset : Nat) (value : UInt32) :
    HostM σ Unit :=
  ExceptT.mk fun ⟨device, memory, allocator, frameEvents, accesses, log, patience⟩ =>
    let (device, memory) := Device.write window offset value device memory
    (.ok (), ⟨device, memory, allocator, frameEvents, .write window offset value :: accesses,
      log, patience⟩)

/-- Asks for the block of a port, which is recorded like an access and does nothing to the
device. -/
def openWindow (window : Window) : HostM σ Unit :=
  ExceptT.mk fun world => (.ok (), { world with accesses := .opened window :: world.accesses })

def changeMemory (f : Memory → Memory) : HostM σ Unit :=
  ExceptT.mk fun ⟨device, memory, allocator, frameEvents, accesses, log, patience⟩ =>
    (.ok (), ⟨device, f memory, allocator, frameEvents, accesses, log, patience⟩)

def inspectMemory {α : Type} (f : Memory → α) : HostM σ α :=
  ExceptT.mk fun world => (.ok (f world.memory), world)

/-- Offers a line to the log, which keeps it or not. -/
def note (severity : Severity) (text : String) : HostM σ Unit :=
  ExceptT.mk fun world => (.ok (), { world with log := world.log.record severity text })

/-- The number of polls beyond the first one that hardware without a limit is given. -/
def patience : HostM σ Nat :=
  ExceptT.mk fun world => (.ok world.patience, world)

/-- Asks for frames and zeroes the ones it gets. -/
def allocate (frames : Nat) : HostM σ (Except DriverError Region) :=
  ExceptT.mk fun world =>
    match world.allocator world.frameEvents frames with
    | .ok base =>
      let region : Region := ⟨base, frames⟩
      (.ok (.ok region),
        { world with
          memory := world.memory.zero (region.address 0) region.size
          frameEvents := .granted region :: world.frameEvents })
    | .error error =>
      (.ok (.error error), { world with frameEvents := .refused frames :: world.frameEvents })

/-- Gives frames back. What they hold stays as it is. -/
def release (region : Region) : HostM σ Unit :=
  ExceptT.mk fun world =>
    (.ok (), { world with frameEvents := .returned region :: world.frameEvents })

/-- Gives up. What was done up to here stays done. -/
def halt {α : Type} (reason : Halt) : HostM σ α :=
  throw reason

/-- Goes on only if a precondition holds. -/
def require (condition : Bool) (reason : Halt) : HostM σ Unit :=
  if condition then pure () else halt reason

/-! What each step does to a world. -/

variable {α β : Type}

@[simp] theorem exec_pure (a : α) (world : World σ) :
    (pure a : HostM σ α).exec world = (.ok a, world) := rfl

/-- The second of two steps is taken in the world that the first one left, unless that one
gave up. -/
theorem exec_bind (step : HostM σ α) (next : α → HostM σ β) (world : World σ) :
    (step >>= next).exec world =
      match step.exec world with
      | (.ok a, after) => (next a).exec after
      | (.error reason, after) => (.error reason, after) := by
  cases hended : step.exec world with
  | mk result after =>
    have hended : (ExceptT.run step).run world = (result, after) := hended
    cases result <;>
      simp only [exec, ExceptT.run_bind, StateT.run_bind, hended] <;> rfl

@[simp] theorem exec_map (f : α → β) (step : HostM σ α) (world : World σ) :
    (f <$> step).exec world = ((step.exec world).1.map f, (step.exec world).2) := by
  cases hended : step.exec world with
  | mk result after =>
    have hended : (ExceptT.run step).run world = (result, after) := hended
    cases result <;>
      simp only [exec, ExceptT.run_map, StateT.run_map, hended] <;> rfl

@[simp] theorem exec_readRegister [Device σ] (window : Window) (offset : Nat)
    (world : World σ) :
    (readRegister window offset).exec world =
      let answer := Device.read window offset world.device world.memory
      (.ok answer.1,
        { world with
          device := answer.2
          accesses := .read window offset answer.1 :: world.accesses }) := rfl

@[simp] theorem exec_writeRegister [Device σ] (window : Window) (offset : Nat)
    (value : UInt32) (world : World σ) :
    (writeRegister window offset value).exec world =
      let effect := Device.write window offset value world.device world.memory
      (.ok (),
        { world with
          device := effect.1
          memory := effect.2
          accesses := .write window offset value :: world.accesses }) := rfl

@[simp] theorem exec_openWindow (window : Window) (world : World σ) :
    (openWindow window).exec world =
      (.ok (), { world with accesses := .opened window :: world.accesses }) := rfl

@[simp] theorem exec_changeMemory (f : Memory → Memory) (world : World σ) :
    (changeMemory f).exec world = (.ok (), { world with memory := f world.memory }) := rfl

@[simp] theorem exec_inspectMemory (f : Memory → α) (world : World σ) :
    (inspectMemory f).exec world = (.ok (f world.memory), world) := rfl

@[simp] theorem exec_note (severity : Severity) (text : String) (world : World σ) :
    (note severity text).exec world =
      (.ok (), { world with log := world.log.record severity text }) := rfl

@[simp] theorem exec_patience (world : World σ) :
    (patience : HostM σ Nat).exec world = (.ok world.patience, world) := rfl

@[simp] theorem exec_release (region : Region) (world : World σ) :
    (release region).exec world =
      (.ok (), { world with frameEvents := .returned region :: world.frameEvents }) := rfl

@[simp] theorem exec_halt (reason : Halt) (world : World σ) :
    (halt reason : HostM σ α).exec world = (.error reason, world) := rfl

theorem exec_require (condition : Bool) (reason : Halt) (world : World σ) :
    (require condition reason).exec world =
      (if condition then .ok () else .error reason, world) := by
  cases condition <;> rfl

end HostM

end Ahci
