import Ahci.Bench.Handle
import Ahci.Simulation.RisingFrames

/-!
A session at the bench: a driver is taken through a list of steps on a rack of simulated
ports. Each port has a handle, which is nothing, a port that was brought up, or the disk
that was found on it. After every step a report tells the result of the step, how the ports
stand, and what happened on the way since the report before.
-/

namespace Ahci.Bench

/-- A rack with a driver at work on it. -/
structure Session where
  world : World Rack
  handles : Array Handle
  /-- Events about frames that were already reported. -/
  reportedEvents : Nat := 0

structure PortStatus where
  running : Bool
  issued : UInt32
  trayOpen : Bool
deriving DecidableEq, Repr

structure Report where
  outcome : Outcome
  status : List PortStatus
  /-- Commands that were fetched, with the port that fetched them. -/
  fetched : List (Nat × FetchedCommand)
  discarded : List (Nat × Span)
  accesses : List Access
  frameEvents : List FrameEvent
  dumps : List Dump
  lines : List String

def PortStatus.ofPort (port : SimulatedPort) : PortStatus :=
  { running := port.isRunning
    issued := port.registers.ci
    trayOpen := port.drive.trayOpen }

def Bay.reported (bay : Bay) : Bay :=
  { bay with
    port := { bay.port with fetched := [], drive := { bay.port.drive with discarded := [] } } }

namespace Session

/-- The report of what happened since the report before, and the session after it. -/
def report (session : Session) (outcome : Outcome) : Report × Session :=
  let world := session.world
  let rack := world.device
  let ports := rack.bays.toList.zipIdx
  let fresh := world.frameEvents.length - session.reportedEvents
  ({ outcome
     status := ports.map fun (bay, _) => .ofPort bay.port
     fetched := ports.flatMap fun (bay, index) => (bay.port.fetched.reverse.map (index, ·))
     discarded := ports.flatMap fun (bay, index) =>
       (bay.port.drive.discarded.reverse.map (index, ·))
     accesses := world.accesses.reverse
     frameEvents := (world.frameEvents.take fresh).reverse
     dumps := rack.dumps.reverse
     lines := world.log.rendered },
   { session with
     world :=
       { world with
         device := { rack with bays := rack.bays.map Bay.reported, dumps := [] }
         accesses := []
         log := { world.log with lines := [] } }
     reportedEvents := world.frameEvents.length })

/-- Takes one step and reports it. A step that halts leaves the handles as they were, and a
step on a port that the rack does not have halts before it does anything. -/
def step (session : Session) (step : Step) : Report × Session :=
  match step with
  | .onPort index portStep =>
    match session.handles[index]? with
    | none => session.report (.halted .outOfBounds)
    | some handle =>
      let (result, world) := (portStep.run index handle).exec session.world
      match result with
      | .ok (outcome, handle) =>
        { session with world, handles := session.handles.setIfInBounds index handle }.report outcome
      | .error reason => { session with world }.report (.halted reason)
  | .discover config =>
    let (result, world) := (discoverAll session.handles config).exec session.world
    match result with
    | .ok (outcome, handles) => { session with world, handles }.report outcome
    | .error reason =>
      { session with world, handles := session.handles.map fun _ => .none }.report (.halted reason)

/-- Takes all handles down, in the order of their ports, and reports it. -/
def finish (session : Session) : Report :=
  let (_, world) := HostM.exec (session.handles.forM Handle.drop) session.world
  ({ session with world }.report .ended).1

/-- Takes the steps one after another; the last report is that of taking the handles
down. -/
def run (session : Session) : List Step → List Report × Report
  | [] => ([], session.finish)
  | first :: rest =>
    let (report, session) := session.step first
    let (reports, last) := run session rest
    (report :: reports, last)

end Session

def Session.start (bays : List Bay) (adapter : AdapterRegisters) (threshold : Severity)
    (dumping : Bool) (refused : List Nat) : Session :=
  { world :=
      { device := { bays := bays.toArray, adapter, dumping }
        memory := {}
        allocator := risingAllocator refused
        log := { threshold } }
    handles := (bays.map fun _ => Handle.none).toArray }

end Ahci.Bench
