import Ahci.Host
import Ahci.Numeral

/-!
The host bus adapter as a whole: what its generic registers say of it, and how it is
enabled.
-/

namespace Ahci

/-- The version an adapter implements: a major number, and a minor number in two pairs of
decimal digits. -/
structure AdapterVersion where
  major : Nat
  minor : Nat
deriving DecidableEq, Repr

namespace AdapterVersion

def ofWord (word : UInt32) : AdapterVersion :=
  ⟨Word.bits word 16 16, Word.bits word 0 16⟩

/-- The version in words; a lower pair of digits that is zero is left out. -/
def describe (version : AdapterVersion) : String :=
  hex version.major ++ "." ++ hex (version.minor / 256) ++
    (if version.minor % 256 = 0 then "" else "." ++ hex (version.minor % 256))

end AdapterVersion

/-- What an adapter can do. -/
structure Adapter where
  /-- Command slots of each port. -/
  slots : Nat
  /-- Whether it reaches memory beyond 4 GiB. -/
  wide : Bool
deriving DecidableEq, Repr

namespace Adapter

def ofCapabilities (word : UInt32) : Adapter :=
  ⟨Word.bits word 8 5 + 1, Word.test word 31⟩

/-- Whether the capabilities include native command queues. -/
def queuesCommands (capabilities : UInt32) : Bool :=
  Word.test capabilities 30

theorem slots_ofCapabilities (word : UInt32) :
    1 ≤ (ofCapabilities word).slots ∧ (ofCapabilities word).slots ≤ 32 := by
  have h : Word.bits word 8 5 < 32 := (word.toBitVec.extractLsb' 8 5).isLt
  simp only [ofCapabilities]
  omega

variable {σ : Type} [Device σ]

/-- Finds out what an adapter can do. -/
def attach : HostM σ Adapter := do
  return ofCapabilities (← HostM.readRegister .hba HbaRegister.cap)

/-- Switches the adapter to its own mode and enables its interrupts. -/
def enable : HostM σ Unit := do
  let control ← HostM.readRegister .hba HbaRegister.ghc
  HostM.writeRegister .hba HbaRegister.ghc (Word.set (Word.set control 31) 1)

/-- The ports that the adapter implements, one bit each. -/
def portsImplemented : HostM σ UInt32 :=
  HostM.readRegister .hba HbaRegister.pi

def version : HostM σ AdapterVersion := do
  return .ofWord (← HostM.readRegister .hba HbaRegister.vs)

end Adapter

end Ahci
