/-!
What a caller may choose when a port is brought up.
-/

namespace Ahci

/-- The tunables of a port. -/
structure Config where
  /-- Blocks that one command of a block request moves. It is brought into the range that a
  command can carry. -/
  blocksPerCommand : Nat := 16
  /-- Polls until a device that does not get ready counts as hung. -/
  readyLimit : UInt32 := 1000000
  /-- Polls until a command that does not complete has timed out; without a limit it is
  polled until the adapter answers. -/
  completionLimit : Option UInt32 := none
deriving DecidableEq, Repr, Inhabited

/-- Blocks of one command, for a device that takes at most `most` of them. -/
def Config.chunk (config : Config) (most : Nat) : Nat :=
  max 1 (min config.blocksPerCommand most)

theorem Config.chunk_pos (config : Config) (most : Nat) : 0 < config.chunk most := by
  unfold chunk; omega

theorem Config.chunk_le (config : Config) {most : Nat} (h : 0 < most) :
    config.chunk most ≤ most := by
  unfold chunk; omega

end Ahci
