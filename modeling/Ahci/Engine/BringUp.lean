import Ahci.Engine.Attachment
import Ahci.Engine.Basic

/-!
Bringing a port up and taking it down. A port is brought up by stopping its engine, giving
it memory of its own, and starting the engine on that memory; it is taken down by stopping
the engine before the memory is given back.
-/

namespace Ahci

/-- A port that was brought up: its number and what is attached to it. -/
structure Port where
  number : Nat
  attachment : Attachment
deriving DecidableEq, Repr

variable {σ : Type} [Device σ]

namespace HostM

/-- Tells what is attached to a port from its registers. -/
def attachment (window : Window) : HostM σ Attachment := do
  let status ← readRegister window PortRegister.ssts
  let signature ← readRegister window PortRegister.sig
  return .classify status signature

/-- Makes the command list and the area for received frames known to the port, forgets its
old errors, and enables its interrupts. -/
def programPort (window : Window) (areas : PortAreas) : HostM σ Unit := do
  programList window (areas.list.physAt 0)
  programReceived window (areas.list.physAt PortAreas.receivedOffset)
  writeRegister window PortRegister.serr allBits
  writeRegister window PortRegister.is allBits
  enableInterrupts window interruptSources

/-- Brings a port with a disk or a packet drive up. -/
def bringUp (window : Window) (number slots : Nat) (config : Config) :
    HostM σ (Except DriverError (Port × Engine)) := do
  let attached ← attachment window
  if !attached.isBlockDevice then
    return .error .deviceNotFound
  let limit := config.readyLimit.toNat
  if let .error error ← stopEngine window limit then
    return .error error
  match ← PortAreas.allocate with
  | .error error => return .error error
  | .ok areas =>
    changeMemory (areas.writeHeaders slotCount)
    programPort window areas
    if let .error error ← startEngine window limit then
      areas.release
      return .error error
    note .info ("AHCI: port " ++ toString number ++ " rebased (" ++ attached.name ++ ", " ++
      toString slots ++ " command slots)")
    return .ok (⟨number, attached⟩,
      { window, number, areas, slots := .ofCount slots, config })

end HostM

/-- Takes a port down. The memory is given back even if the engine did not stop. -/
def Engine.takeDown (engine : Engine) : HostM σ Unit := do
  if let .error _ ← HostM.stopEngine engine.window engine.limit then
    HostM.note .warn (engine.title ++ " engine still running at teardown")
  engine.areas.release

end Ahci
