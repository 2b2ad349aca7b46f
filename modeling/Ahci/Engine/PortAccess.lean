import Ahci.Host

/-!
Registers of a port that are used in pairs.
-/

namespace Ahci.HostM

variable {σ : Type} [Device σ]

/-- The slots that the adapter still owns: those with a command outstanding or issued. -/
def busySlots (window : Window) : HostM σ UInt32 := do
  let outstanding ← readRegister window PortRegister.sact
  let issued ← readRegister window PortRegister.ci
  return outstanding ||| issued

/-- Programs an address into a pair of registers, its low half first. -/
def programAddress (window : Window) (low high : Nat) (addr : PhysAddr) : HostM σ Unit := do
  writeRegister window low addr.lower
  writeRegister window high addr.upper

def programList (window : Window) (addr : PhysAddr) : HostM σ Unit :=
  programAddress window PortRegister.clb PortRegister.clbu addr

def programReceived (window : Window) (addr : PhysAddr) : HostM σ Unit :=
  programAddress window PortRegister.fb PortRegister.fbu addr

def enableInterrupts (window : Window) (sources : UInt32) : HostM σ Unit :=
  writeRegister window PortRegister.ie (sources &&& interruptSources)

end Ahci.HostM
