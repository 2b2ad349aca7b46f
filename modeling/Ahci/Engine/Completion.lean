import Ahci.Engine.Config
import Ahci.Engine.Request
import Ahci.Engine.Slots
import Ahci.Host

/-!
Handing a built command to the adapter and watching it. A command is issued only after the
device has shown itself ready, and it is watched poll by poll: an error in the status ends
it, a cleared issue bit ends it unless an error arrived with it, and anything else is
inconclusive.
-/

namespace Ahci

variable {σ : Type} [Device σ]

namespace HostM

/-- Whether the device gets ready within a number of polls of its task file. -/
def becomesReady (window : Window) : Nat → HostM σ Bool
  | 0 => pure false
  | polls + 1 => do
    let file ← readRegister window PortRegister.tfd
    if (TaskFile.ofWord file).isReady then pure true
    else becomesReady window polls

/-- The failure that a status with an error stands for, with the task file read after it. -/
def completionError (window : Window) (status : UInt32) (packet : Bool) :
    HostM σ CommandError := do
  let file ← readRegister window PortRegister.tfd
  pure (.ofCompletion status (TaskFile.ofWord file) packet)

/-- One poll of an issued command; nothing if it is inconclusive. An error that arrives
together with the completion wins. -/
def pollOnce (window : Window) (slot : Nat) (packet : Bool) :
    HostM σ (Option (Except CommandError Unit)) := do
  let status ← readRegister window PortRegister.is
  if showsError status then
    return some (.error (← completionError window status packet))
  let issued ← readRegister window PortRegister.ci
  if Word.test issued slot then
    return none
  let late ← readRegister window PortRegister.is
  if showsError late then
    return some (.error (← completionError window late packet))
  return some (.ok ())

/-- The first conclusive one of a number of polls. -/
def firstConclusive (window : Window) (slot : Nat) (packet : Bool) :
    Nat → HostM σ (Option (Except CommandError Unit))
  | 0 => pure none
  | polls + 1 => do
    match ← pollOnce window slot packet with
    | some outcome => pure (some outcome)
    | none => firstConclusive window slot packet polls

/-- Polls an issued command until it ends or its limit is used up. At least one poll is
made. -/
def awaitCompletion (window : Window) (slot : Nat) (limit : Option UInt32) (packet : Bool) :
    HostM σ (Except CommandError Unit) := do
  match limit with
  | some limit =>
    match ← firstConclusive window slot packet (max 1 limit.toNat) with
    | some outcome => pure outcome
    | none => pure (.error .timeout)
  | none =>
    match ← firstConclusive window slot packet ((← patience) + 1) with
    | some outcome => pure outcome
    | none => halt .unending

/-- Issues the command built in a slot and watches it to its end. -/
def issueAndWait (window : Window) (arena : SlotArena) (slot : Nat) (config : Config)
    (packet : Bool) : HostM σ (Except CommandError Unit × SlotArena) := do
  writeRegister window PortRegister.is allBits
  if !(← becomesReady window config.readyLimit.toNat) then
    return (.error .portHung, arena)
  writeRegister window PortRegister.ci (Word.only slot)
  let outcome ← awaitCompletion window slot config.completionLimit packet
  return (outcome, (arena.mark slot .issued).mark slot .done)

end HostM

end Ahci
