import Ahci.Host

/-!
The handshakes with the command engine of a port. It is stopped by taking back the request
to process commands, waiting until processing has ceased, then doing the same for the
reception of frames; it is started in the opposite order, reception first. Each write
changes the one bit it is about in the value that was read just before it.
-/

namespace Ahci

variable {σ : Type} [Device σ]

namespace HostM

/-- Whether a bit of PxCMD takes a value within a number of reads. -/
def commandBitBecomes (window : Window) (bit : Nat) (value : Bool) : Nat → HostM σ Bool
  | 0 => pure false
  | reads + 1 => do
    let command ← readRegister window PortRegister.cmd
    if Word.test command bit == value then pure true
    else commandBitBecomes window bit value reads

/-- Whether PxCMD shows the engine neither asked to run nor running. -/
def isIdle (command : UInt32) : Bool :=
  !(Word.test command CmdBit.start || Word.test command CmdBit.listRunning ||
    Word.test command CmdBit.fisReceive || Word.test command CmdBit.fisRunning)

/-- Stops the command engine; each of its two waits may read PxCMD `limit` times. -/
def stopEngine (window : Window) (limit : Nat) : HostM σ (Except DriverError Unit) := do
  let command ← readRegister window PortRegister.cmd
  if isIdle command then
    return .ok ()
  writeRegister window PortRegister.cmd (Word.clear command CmdBit.start)
  if !(← commandBitBecomes window CmdBit.listRunning false limit) then
    return .error .timeout
  let command ← readRegister window PortRegister.cmd
  writeRegister window PortRegister.cmd (Word.clear command CmdBit.fisReceive)
  if !(← commandBitBecomes window CmdBit.fisRunning false limit) then
    return .error .timeout
  return .ok ()

/-- Starts the command engine; each of its two waits may read PxCMD `limit` times. -/
def startEngine (window : Window) (limit : Nat) : HostM σ (Except DriverError Unit) := do
  if !(← commandBitBecomes window CmdBit.listRunning false limit) then
    return .error .timeout
  let command ← readRegister window PortRegister.cmd
  writeRegister window PortRegister.cmd (Word.set command CmdBit.fisReceive)
  if !(← commandBitBecomes window CmdBit.fisRunning true limit) then
    return .error .timeout
  let command ← readRegister window PortRegister.cmd
  writeRegister window PortRegister.cmd (Word.set command CmdBit.start)
  return .ok ()

end HostM

end Ahci
