import Ahci.Simulation.Medium
import Ahci.Storage.BlockDevice

/-!
A device that is nothing but its medium: it answers a block request at once, from the
blocks themselves. It is what a caller may imagine behind any block device, with no
commands, no registers and no shared memory in between.
-/

namespace Ahci.MemoryDisk

/-- Reads blocks into the front of a buffer, as many as were asked for and fit. -/
def read (start bytes : Nat) (buffer : List UInt8) :
    StateM Medium (Except IoError Nat × List UInt8) := fun medium =>
  let blocks := blocksFor bytes medium.blockSize
  if bytes = 0 || buffer.isEmpty then ((.error .invalidBuffer, buffer), medium)
  else if !medium.holds start blocks then ((.error .outOfRange, buffer), medium)
  else
    let placed := min blocks (buffer.length / medium.blockSize)
    let length := placed * medium.blockSize
    ((.ok length, medium.read start placed ++ buffer.drop length), medium)

/-- Writes the first bytes of a buffer, filled up with zeroes to whole blocks. -/
def write (start bytes : Nat) (buffer : List UInt8) : StateM Medium (Except IoError Unit) :=
  fun medium =>
    let blocks := blocksFor bytes medium.blockSize
    if bytes = 0 || bytes > buffer.length then (.error .invalidBuffer, medium)
    else if !medium.holds start blocks then (.error .outOfRange, medium)
    else (.ok (), medium.write start blocks (buffer.take bytes))

/-- The requests that a medium takes; it has no use for advice. -/
def device (medium : Medium) : BlockDevice (StateM Medium) where
  blockSize := medium.blockSize
  blockCount := UInt64.ofNat medium.blocks
  read
  write

end Ahci.MemoryDisk
