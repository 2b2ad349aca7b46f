import Ahci.Storage.Disk

/-!
What a caller may ask of a device that keeps data in numbered blocks, whatever the device
is and whatever an answer costs it. A `Disk` behind its port is one such device.
-/

namespace Ahci

/-- A device that takes block requests, each of them a step in `m`. A request names a first
block and a length in bytes. -/
structure BlockDevice (m : Type → Type) [Monad m] where
  blockSize : Nat
  /-- Blocks of the device; the largest count stands for a device that does not tell. -/
  blockCount : UInt64
  /-- Reads the blocks that cover a length into a buffer, as far as whole blocks fit. Ends
  with the number of bytes placed, and the buffer. -/
  read (start bytes : Nat) (buffer : List UInt8) : m (Except IoError Nat × List UInt8)
  /-- Writes the first bytes of a buffer. The rest of the last block is zeroes. -/
  write (start bytes : Nat) (buffer : List UInt8) : m (Except IoError Unit)
  /-- Tells the device that blocks hold no data any more. This is advice, and a device that
  has no use for it succeeds without doing anything. -/
  clear : (start bytes : Nat) → m (Except IoError Unit) := fun _ _ => pure (.ok ())

def Disk.blockDevice {σ : Type} [Device σ] (disk : Disk) : BlockDevice (EngineM σ) where
  blockSize := disk.blockSize
  blockCount := disk.blockCount
  read := disk.read
  write start bytes buffer := (disk.write start bytes buffer).run
  clear start bytes := (disk.clear start bytes).run

end Ahci
