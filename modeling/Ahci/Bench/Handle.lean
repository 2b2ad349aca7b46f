import Ahci.Bench.Rack
import Ahci.Bench.Step
import Ahci.Lock

/-!
What a driver has of the ports of a rack, and the steps that change it: a port is brought
up, its device is identified, and it is taken down again. Between such steps the hardware
can be told to misbehave.
-/

namespace Ahci.Bench

/-- What a driver has of one port. The engine is behind a lock, which every call takes. -/
inductive Handle where
  | none
  | port (port : Port) (engine : SpinLock Engine)
  | disk (disk : Disk) (engine : SpinLock Engine)

inductive PortStep where
  | bringUp (number slots : Nat) (config : Config)
  | probe
  | drop
  | inject (opcode : UInt8) (fault : Fault)
  | busy (on : Bool)
  | stall (on : Bool)
  | addOverride (override : Override)
  | clearOverrides
  | medium (offset length : Nat)
  | disk (step : DiskStep)
  | engine (step : EngineStep)

inductive Step where
  | onPort (index : Nat) (step : PortStep)
  | discover (config : Config)

def Handle.drop : Handle → HostM Rack Unit
  | .none => pure ()
  | .port _ engine => engine.value.takeDown
  | .disk _ engine => engine.value.takeDown

/-- Changes what happens in front of or behind the registers of a port. -/
def changeBay (index : Nat) (f : Bay → Bay) : HostM Rack Unit :=
  ExceptT.mk fun world =>
    (.ok (), { world with device := world.device.modifyBay index f })

def changePort (index : Nat) (f : SimulatedPort → SimulatedPort) : HostM Rack Unit :=
  changeBay index fun bay => { bay with port := f bay.port }

def mediumBytes (index offset length : Nat) : HostM Rack (List UInt8) :=
  ExceptT.mk fun world =>
    (.ok (match world.device.bays[index]? with
      | some bay => bay.port.drive.medium.bytesAt offset length
      | none => []), world)

/-- The control register of the adapter, looked at from behind. -/
def adapterControl : HostM Rack UInt32 :=
  ExceptT.mk fun world => (.ok world.device.adapter.ghc, world)

/-- Runs a step on an engine behind its lock. A lock that is held is waited for without end. -/
def onLocked {α : Type} (engine : SpinLock Engine) (step : EngineM Rack α) :
    HostM Rack (α × SpinLock Engine) :=
  match engine.during? step.run with
  | some held => held
  | none => HostM.halt .unending

def withHandleEngine (handle : Handle) (step : EngineM Rack Outcome) :
    HostM Rack (Outcome × Handle) := do
  match handle with
  | .none => return (.noHandle, handle)
  | .port port engine =>
    let (outcome, engine) ← onLocked engine step
    return (outcome, .port port engine)
  | .disk disk engine =>
    let (outcome, engine) ← onLocked engine step
    return (outcome, .disk disk engine)

/-- Identifies the device behind a handle that is a port. -/
def probeHandle (handle : Handle) : HostM Rack (Outcome × Handle) := do
  match handle with
  | .port port engine =>
    let (outcome, engine) ← onLocked engine (Disk.probe port)
    match outcome with
    | .ok disk => return (.disk disk, .disk disk engine)
    | .error error =>
      engine.value.takeDown
      return (.driverError error, .none)
  | _ => return (.noHandle, handle)

/-- Brings a port up, after taking down what its handle had. -/
def bringUpHandle (index : Nat) (handle : Handle) (number slots : Nat) (config : Config) :
    HostM Rack (Outcome × Handle) := do
  handle.drop
  match ← HostM.bringUp (.port index) number slots config with
  | .ok (port, engine) => return (.port port, .port port { value := engine })
  | .error error => return (.driverError error, .none)

def PortStep.run (index : Nat) (handle : Handle) : PortStep → HostM Rack (Outcome × Handle)
  | .bringUp number slots config => bringUpHandle index handle number slots config
  | .probe => probeHandle handle
  | .drop => do
    handle.drop
    return (.ok, .none)
  | .inject opcode fault => do
    changePort index fun port =>
      { port with drive := { port.drive with faults := port.drive.faults ++ [(opcode, fault)] } }
    return (.ok, handle)
  | .busy on => do
    changePort index fun port => { port with busy := on }
    return (.ok, handle)
  | .stall on => do
    changePort index fun port => { port with stalled := on }
    return (.ok, handle)
  | .addOverride override => do
    changeBay index fun bay => { bay with overrides := bay.overrides ++ [override] }
    return (.ok, handle)
  | .clearOverrides => do
    changeBay index fun bay => { bay with overrides := [] }
    return (.ok, handle)
  | .medium offset length => do
    return (.bytes (← mediumBytes index offset length), handle)
  | .disk step =>
    match handle with
    | .disk found _ => withHandleEngine handle (step.run found)
    | _ => return (.noHandle, handle)
  | .engine step => withHandleEngine handle step.run

/-- The handles after the disks that were found took the place of those of their ports. -/
def handlesOf (count : Nat) (disks : List NamedDisk) : Array Handle :=
  disks.foldl (fun handles named =>
    handles.setIfInBounds named.disk.port.number (.disk named.disk { value := named.engine }))
    (Array.replicate count .none)

/-- Takes all handles down, then finds the devices of the adapter. -/
def discoverAll (handles : Array Handle) (config : Config) :
    HostM Rack (Outcome × Array Handle) := do
  handles.forM Handle.drop
  let adapter ← Adapter.attach
  let disks ← adapter.discover config
  let version ← Adapter.version
  let ports ← Adapter.portsImplemented
  let control ← adapterControl
  return (.found (disks.map fun named => (named.name, named.disk)) adapter version ports control,
    handlesOf handles.size disks)

end Ahci.Bench
