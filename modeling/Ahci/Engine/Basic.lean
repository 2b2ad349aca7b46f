import Ahci.Engine.Areas
import Ahci.Engine.Completion
import Ahci.Engine.Handshake
import Ahci.Engine.PortAccess
import Ahci.Packet.Sense

/-!
The command engine of one port, and how it runs one command: claim a slot, build the
command in it, issue it, wait, and release the slot on every way out. A command that fails
after the adapter had it leaves the engine stopped, so the engine is restarted before the
failure is reported.
-/

namespace Ahci

/-- What the driver keeps about one port that it has brought up. -/
structure Engine where
  window : Window
  /-- What the port is called in the log. -/
  number : Nat
  areas : PortAreas
  slots : SlotArena
  config : Config
  /-- The sense data that was last fetched from the device. -/
  lastSense : Option SenseData := none

/-- A step of the driver on one port. A halt leaves the engine as it was when the call
began. -/
abbrev EngineM (σ : Type) := StateT Engine (HostM σ)

/-- A step of a block request. -/
abbrev RequestM (σ : Type) := ExceptT IoError (EngineM σ)

namespace Engine

def title (engine : Engine) : String :=
  "AHCI: port " ++ toString engine.number

/-- Polls of a handshake or of a busy device. -/
def limit (engine : Engine) : Nat :=
  engine.config.readyLimit.toNat

/-- Scatter entries of a command: pieces of the staging area of its direction. -/
def scatter (engine : Engine) (command : Command) : Except ScatterError (List ScatterEntry) :=
  match command.data with
  | .none => .ok []
  | .toHost bytes => ScatterList.build (engine.areas.read.physAt 0) bytes command.interrupt
  | .fromHost bytes => ScatterList.build (engine.areas.write.physAt 0) bytes command.interrupt

/-- The flags of a header: whether there is a packet, and whether data goes to the device. -/
def headerFlags (command : Command) : UInt16 :=
  (match command.data with
    | .fromHost _ => CommandHeader.writeFlag
    | _ => 0) |||
  (if command.isPacket then CommandHeader.packetFlag else 0)

/-- Builds a command in a slot: its table first, then the header that points at it. -/
def build (engine : Engine) (slot : Nat) (command : Command) (entries : List ScatterEntry)
    (memory : Memory) : Memory :=
  let table := engine.areas.tableOf slot
  let header := CommandHeader.make (engine.areas.tablePhys slot) (headerFlags command)
    (UInt16.ofNat entries.length)
  CommandList.writeHeader (engine.areas.list.address 0) slot header
    (CommandTable.writeEntries table entries
      (CommandTable.prepare table command.fis command.cdb memory))

variable {σ : Type} [Device σ]

/-- Builds a command in a claimed slot and runs it to its end. -/
def submit (engine : Engine) (claimed : SlotArena) (slot : Nat) (command : Command) :
    HostM σ (Except CommandError Unit × SlotArena) := do
  match engine.scatter command with
  | .error error => return (.error (.transfer error), claimed)
  | .ok entries =>
    HostM.changeMemory (engine.build slot command entries)
    HostM.issueAndWait engine.window claimed slot engine.config command.isPacket

/-- Restarts the command engine, so that PxCI is clear and the next command can be
issued. A handshake that fails is only noted. -/
def recover (engine : Engine) : HostM σ Unit := do
  if let .error _ ← HostM.stopEngine engine.window engine.limit then
    HostM.note .warn (engine.title ++ " engine did not stop during recovery")
  let errors ← HostM.readRegister engine.window PortRegister.serr
  HostM.note .debug (engine.title ++ " recovery, SERR " ++ hexRegister errors)
  HostM.writeRegister engine.window PortRegister.serr allBits
  HostM.writeRegister engine.window PortRegister.is allBits
  if let .error _ ← HostM.startEngine engine.window engine.limit then
    HostM.note .warn (engine.title ++ " engine did not restart during recovery")

/-- Notes the failure of a command, restarts the engine where it may have stopped, and
tells the failure of the request. -/
def fail (engine : Engine) (label : String) (error : CommandError) : HostM σ IoError := do
  HostM.note .warn (engine.title ++ " " ++ label ++ " failed: " ++ error.message)
  if error.needsRecovery then
    engine.recover
  return error.toIoError

end Engine

namespace EngineM

variable {σ : Type}

/-- A step that does not look at the engine. -/
def onHost {α : Type} (step : HostM σ α) : EngineM σ α :=
  liftM step

/-- A step that looks at the engine and leaves it as it is. -/
def withEngine {α : Type} (step : Engine → HostM σ α) : EngineM σ α := do
  let engine ← get
  onHost (step engine)

/-- Runs one command. The slot it was run in is released whatever became of it. -/
def runCommand [Device σ] (command : Command) : EngineM σ (Except CommandError Unit) := do
  let engine ← get
  let busy ← onHost (HostM.busySlots engine.window)
  match engine.slots.claim busy with
  | .error shortage =>
    onHost (HostM.note .error shortage.message)
    return .error .noSlot
  | .ok (slot, claimed) =>
    let (outcome, arena) ← onHost (engine.submit claimed slot command)
    set { engine with slots := arena.release slot }
    return outcome

/-- The first bytes of what the device sent. -/
def readStaging (count : Nat) : EngineM σ (List UInt8) :=
  withEngine fun engine => do
    let area := engine.areas.read
    HostM.require (count ≤ area.size) .outOfBounds
    HostM.inspectMemory (·.load (area.address 0) count)

/-- Places bytes for the device, filled up with zeroes to a given count. -/
def fillStaging (bytes : List UInt8) (count : Nat) : EngineM σ Unit :=
  withEngine fun engine => do
    let area := engine.areas.write
    HostM.require (count ≤ area.size && bytes.length ≤ count) .outOfBounds
    HostM.changeMemory fun memory =>
      (memory.store (area.address 0) bytes).zero (area.address bytes.length)
        (count - bytes.length)

@[simp] theorem run_onHost {α : Type} (step : HostM σ α) (engine : Engine) :
    (onHost step).run engine = (fun a => (a, engine)) <$> step := by
  simp [onHost]

@[simp] theorem run_withEngine {α : Type} (step : Engine → HostM σ α) (engine : Engine) :
    (withEngine step).run engine = (fun a => (a, engine)) <$> step engine := by
  simp [withEngine]

end EngineM

namespace RequestM

variable {σ : Type}

/-- A step that cannot fail the request. -/
def onEngine {α : Type} (step : EngineM σ α) : RequestM σ α :=
  liftM step

/-- A step that can fail the request. -/
def attempt {α : Type} (step : EngineM σ (Except IoError α)) : RequestM σ α :=
  ExceptT.mk step

/-- A step that looks at the engine and leaves it as it is. -/
def withEngine {α : Type} (step : Engine → HostM σ α) : RequestM σ α :=
  onEngine (EngineM.withEngine step)

/-- Goes on only if a precondition of the driver holds. -/
def require (condition : Bool) (reason : Halt) : RequestM σ Unit :=
  onEngine (EngineM.onHost (HostM.require condition reason))

/-- Runs one command and reports its failure as that of the request. -/
def execute [Device σ] (command : Command) : RequestM σ Unit := do
  match ← onEngine (EngineM.runCommand command) with
  | .ok () => return ()
  | .error error => throw (← withEngine (·.fail command.label error))

@[simp] theorem run_onEngine {α : Type} (step : EngineM σ α) :
    (onEngine step).run = Except.ok <$> step := rfl

theorem run_onEngine_bind {α β : Type} (step : EngineM σ α) (next : α → RequestM σ β) :
    (onEngine step >>= next).run = step >>= fun a => (next a).run := by
  rw [ExceptT.run_bind, run_onEngine, bind_map_left]

@[simp] theorem run_attempt {α : Type} (step : EngineM σ (Except IoError α)) :
    (attempt step).run = step := rfl

end RequestM

end Ahci
