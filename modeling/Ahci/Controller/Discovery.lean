import Ahci.Controller.Adapter
import Ahci.Storage.Disk

/-!
Finding the devices of an adapter. Its implemented ports are visited in ascending order;
each one with a disk or a packet drive is brought up, and its device is named by its kind
and its place among those of its kind. A port that does not come up is noted and takes no
number.
-/

namespace Ahci

/-- A device with its name, and the engine of its port. -/
structure NamedDisk where
  name : String
  disk : Disk
  engine : Engine

/-- The devices found so far, newest first, and how many there are of each kind. -/
structure Findings where
  disks : List NamedDisk := []
  hardDisks : Nat := 0
  opticalDrives : Nat := 0

namespace Findings

def nextName (findings : Findings) (optical : Bool) : String :=
  if optical then "cd" ++ toString findings.opticalDrives
  else "hd" ++ toString findings.hardDisks

def add (findings : Findings) (disk : Disk) (engine : Engine) : Findings :=
  let named : NamedDisk := ⟨findings.nextName disk.isOptical, disk, engine⟩
  if disk.isOptical then
    { findings with disks := named :: findings.disks, opticalDrives := findings.opticalDrives + 1 }
  else
    { findings with disks := named :: findings.disks, hardDisks := findings.hardDisks + 1 }

end Findings

variable {σ : Type} [Device σ]

namespace Adapter

/-- Brings a port up and identifies its device. A port whose device cannot be driven is
taken down again. -/
def startDevice (number slots : Nat) (config : Config) :
    HostM σ (Except DriverError (Disk × Engine)) := do
  match ← HostM.bringUp (.port number) number slots config with
  | .error error => return .error error
  | .ok (port, engine) =>
    let (outcome, engine) ← (Disk.probe port).run engine
    match outcome with
    | .ok disk => return .ok (disk, engine)
    | .error error =>
      engine.takeDown
      return .error error

/-- Visits one implemented port. -/
def visitPort (adapter : Adapter) (config : Config) (findings : Findings) (number : Nat) :
    HostM σ Findings := do
  let title := "AHCI: port " ++ toString number
  HostM.openWindow (.port number)
  let attached ← HostM.attachment (.port number)
  if attached = .absent then
    HostM.note .debug (title ++ " empty")
    return findings
  if !attached.isBlockDevice then
    HostM.note .info (title ++ " has " ++ attached.name ++ ", not supported")
    return findings
  match ← startDevice number adapter.slots config with
  | .error error =>
    HostM.note .warn (title ++ " bring-up failed: " ++ error.message)
    return findings
  | .ok (disk, engine) =>
    HostM.note .info (title ++ " registered as " ++ findings.nextName disk.isOptical)
    return findings.add disk engine

/-- The ports whose bit is set, in ascending order. -/
def portsOf (implemented : UInt32) : List Nat :=
  (List.range 32).filter (Word.test implemented)

/-- Enables the adapter and finds its devices, in the order of their ports. -/
def discover (adapter : Adapter) (config : Config) : HostM σ (List NamedDisk) := do
  enable
  let implementedVersion ← version
  HostM.note .info ("AHCI: version " ++ implementedVersion.describe ++ ", " ++
    toString adapter.slots ++ " command slots, 64-bit: " ++ toString adapter.wide)
  let implemented ← portsImplemented
  let findings ← (portsOf implemented).foldlM (visitPort adapter config) {}
  if findings.disks.isEmpty then
    HostM.note .warn "AHCI: no devices found on any port"
  return findings.disks.reverse

end Adapter

end Ahci
