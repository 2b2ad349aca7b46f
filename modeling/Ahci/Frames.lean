import Ahci.Address
import Ahci.Failure

/-!
Runs of memory frames that are shared with a device. An `Allocator` decides from the
history of grants, refusals and returns what the next request gets, so a run of a driver
is determined by the allocator and the history tells what the driver still holds.
-/

namespace Ahci

abbrev frameSize : Nat := 4096

/-- A contiguous run of frames. -/
structure Region where
  base : PhysAddr
  frames : Nat
deriving DecidableEq, Repr, Inhabited

namespace Region

def size (region : Region) : Nat :=
  region.frames * frameSize

/-- Where the processor finds a byte of the region. -/
def address (region : Region) (offset : Nat) : Nat :=
  region.base.toNat + offset

/-- Where the device finds a byte of the region. -/
def physAt (region : Region) (offset : Nat) : PhysAddr :=
  region.base + offset

/-- Below the end of the physical address space, processor and device agree on where a
byte of the region is. -/
theorem physAt_toNat {region : Region} {offset : Nat}
    (h : region.base.toNat + offset < PhysAddr.space) :
    (region.physAt offset).toNat = region.address offset := by
  simp only [physAt, address, PhysAddr.toNat_add]
  exact Nat.mod_eq_of_lt h

end Region

/-- What happened between a driver and the allocator of frames. -/
inductive FrameEvent where
  | granted (region : Region)
  | refused (frames : Nat)
  | returned (region : Region)
deriving DecidableEq, Repr

/-- Answers a request for a number of frames, given what happened before, newest first. -/
abbrev Allocator := List FrameEvent → Nat → Except DriverError PhysAddr

end Ahci
