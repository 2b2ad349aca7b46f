import Ahci.Descriptor.CommandTable
import Ahci.Host

/-!
The memory that one port shares with its device: the command list with the area for
received frames behind it, the command tables, and one staging area for each direction of
data.
-/

namespace Ahci

/-- The shared memory of one port. -/
structure PortAreas where
  /-- The command list, and the area for received frames. -/
  list : Region
  /-- One command table for each slot. -/
  tables : Region
  /-- What the device sends. -/
  read : Region
  /-- What the device is sent. -/
  write : Region
deriving DecidableEq, Repr

namespace PortAreas

/-- Where the area for received frames lies behind the command list. -/
def receivedOffset : Nat := CommandList.size

def listFrames : Nat := 1

def tableFrames : Nat := slotCount * CommandTable.size / frameSize

/-- Frames of one staging area, which holds the data of one command. -/
def stagingFrames : Nat := ScatterList.maxBytes / frameSize

/-- Where the processor finds the command table of a slot. -/
def tableOf (areas : PortAreas) (slot : Nat) : Nat :=
  areas.tables.address (CommandTable.offset slot)

/-- Where the device finds the command table of a slot. -/
def tablePhys (areas : PortAreas) (slot : Nat) : PhysAddr :=
  areas.tables.physAt (CommandTable.offset slot)

variable {σ : Type}

/-- Asks for the memory of a port. What was already granted is given back, the last grant
first, when a later request is refused. -/
def allocate : HostM σ (Except DriverError PortAreas) := do
  match ← HostM.allocate listFrames with
  | .error error => return .error error
  | .ok list =>
    match ← HostM.allocate tableFrames with
    | .error error =>
      HostM.release list
      return .error error
    | .ok tables =>
      match ← HostM.allocate stagingFrames with
      | .error error =>
        HostM.release tables
        HostM.release list
        return .error error
      | .ok read =>
        match ← HostM.allocate stagingFrames with
        | .error error =>
          HostM.release read
          HostM.release tables
          HostM.release list
          return .error error
        | .ok write => return .ok { list, tables, read, write }

def release (areas : PortAreas) : HostM σ Unit := do
  HostM.release areas.list
  HostM.release areas.tables
  HostM.release areas.read
  HostM.release areas.write

/-- Points the headers of the first `count` slots at their command tables, with no entries
and no flags. -/
def writeHeaders (areas : PortAreas) (count : Nat) (memory : Memory) : Memory :=
  (List.range count).foldl (fun memory slot =>
    CommandList.writeHeader (areas.list.address 0) slot (.make (areas.tablePhys slot) 0 0) memory)
    memory

end PortAreas

end Ahci
