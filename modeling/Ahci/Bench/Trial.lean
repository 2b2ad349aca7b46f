import Ahci.Controller.Adapter
import Ahci.Engine.BringUp
import Ahci.Packet.Eject
import Ahci.Register.Mapped
import Ahci.Simulation.RisingFrames
import Ahci.Simulation.Script

/-!
Trials of single parts of the driver: register accessors and the issue of a command against
scripted registers, the claiming of slots, the steps of an eject, the layout of command
tables, and an adapter whose registers are mapped into memory.
-/

namespace Ahci.Bench

/-- A world around a device, with an allocator that grants nothing. -/
def trialWorld {σ : Type} (device : σ) (memory : Memory := {}) : World σ :=
  { device, memory, allocator := fun _ _ => .error .outOfMemory }

/-- Runs a step on a device: what it ended with, and the world after it. -/
def tryOn {σ α : Type} (device : σ) (step : HostM σ α) : Except Halt α × World σ :=
  step.exec (trialWorld device)

/-- The window that scripted registers are reached through. -/
def scriptWindow : Window := .port 0

/-! Accessors of port registers. -/

inductive PortCall where
  | programList (addr : PhysAddr)
  | programReceived (addr : PhysAddr)
  | interruptStatus
  | clearInterruptStatus (bits : UInt32)
  | enableInterrupts (sources : UInt32)
  | command
  | setCommand (value : UInt32)
  | taskFile
  | signature
  | linkStatus
  | linkError
  | clearLinkError
  | busySlots
  | issued
  | issue (slot : Nat)
  | register (offset : Nat)

inductive PortAnswer where
  | nothing
  | word (value : UInt32)
  /-- A status, and whether it shows an error. -/
  | status (value : UInt32) (error : Bool)
  /-- PxCMD, and its bits for start, frame reception, received frames and running list. -/
  | command (value : UInt32)
  | taskFile (file : TaskFile)

def PortCall.run {σ : Type} [Device σ] (window : Window) : PortCall → HostM σ PortAnswer
  | .programList addr => do HostM.programList window addr; return .nothing
  | .programReceived addr => do HostM.programReceived window addr; return .nothing
  | .interruptStatus => do
    let value ← HostM.readRegister window PortRegister.is
    return .status value (showsError value)
  | .clearInterruptStatus bits => do
    HostM.writeRegister window PortRegister.is bits; return .nothing
  | .enableInterrupts sources => do HostM.enableInterrupts window sources; return .nothing
  | .command => do return .command (← HostM.readRegister window PortRegister.cmd)
  | .setCommand value => do HostM.writeRegister window PortRegister.cmd value; return .nothing
  | .taskFile => do
    return .taskFile (.ofWord (← HostM.readRegister window PortRegister.tfd))
  | .signature => do return .word (← HostM.readRegister window PortRegister.sig)
  | .linkStatus => do return .word (← HostM.readRegister window PortRegister.ssts)
  | .linkError => do return .word (← HostM.readRegister window PortRegister.serr)
  | .clearLinkError => do HostM.writeRegister window PortRegister.serr allBits; return .nothing
  | .busySlots => do return .word (← HostM.busySlots window)
  | .issued => do return .word (← HostM.readRegister window PortRegister.ci)
  | .issue slot => do
    HostM.writeRegister window PortRegister.ci (Word.only slot); return .nothing
  | .register offset => do return .word (← HostM.readRegister window offset)

/-- Uses accessors one after another on scripted registers. -/
def runCalls (script : Script) (calls : List PortCall) :
    Except Halt (List PortAnswer) × World Script :=
  tryOn script (calls.mapM (PortCall.run scriptWindow))

/-! Issue of a command. -/

def awaitReady (script : Script) (config : Config) :
    Except Halt (Except CommandError Unit) × World Script :=
  tryOn script do
    if ← HostM.becomesReady scriptWindow config.readyLimit.toNat then return .ok ()
    else return .error .portHung

/-- What the issue of a command came to: the slot, what it ended with, and the state of the
slot before it is released. -/
structure IssueResult where
  slot : Nat
  outcome : Except CommandError Unit
  state : Option SlotState

/-- Claims a slot of a full arena and issues it to a scripted device. -/
def issueOnce (script : Script) (busy : UInt32) (config : Config) (packet : Bool) :
    Except Halt IssueResult × World Script :=
  tryOn script do
    match (SlotArena.ofCount slotCount).claim busy with
    | .error _ => HostM.halt .outOfBounds
    | .ok (slot, claimed) =>
      let (outcome, arena) ← HostM.issueAndWait scriptWindow claimed slot config packet
      return { slot, outcome, state := arena.state? slot }

/-! Claiming of slots. -/

/-- What the owner of a slot does with it. -/
inductive SlotAct where
  | issue
  | finish
deriving DecidableEq, Repr

inductive SlotStep where
  /-- Claims a slot, acts on it, and releases it unless its owner forgets to. -/
  | claim (busy : UInt32) (acts : List SlotAct) (forget : Bool)
  | look (slot : Nat)

inductive SlotAnswer where
  /-- The slot, and its state after the claim and after each act. -/
  | claimed (slot : Nat) (states : List SlotState)
  | refused (shortage : SlotShortage)
  | state (state : SlotState)

/-- Acts on a slot. Only a claimed slot can be issued. -/
def SlotAct.run (slot : Nat) (arena : SlotArena) : SlotAct → Except Halt SlotArena
  | .issue =>
    if arena.state? slot = some .claimed then .ok (arena.mark slot .issued)
    else .error .outOfBounds
  | .finish => .ok (arena.mark slot .done)

/-- Acts on a slot one after another, with the states passed through. -/
def runActs (slot : Nat) (arena : SlotArena) : List SlotAct →
    Except Halt (SlotArena × List SlotState)
  | [] => .ok (arena, (arena.state? slot).toList)
  | act :: rest => do
    let (last, states) ← runActs slot (← act.run slot arena) rest
    return (last, (arena.state? slot).toList ++ states)

def SlotStep.run (arena : SlotArena) : SlotStep → Except Halt (SlotAnswer × SlotArena)
  | .claim busy acts forget =>
    match arena.claim busy with
    | .error shortage => return (.refused shortage, arena)
    | .ok (slot, claimed) => do
      let (last, states) ← runActs slot claimed acts
      return (.claimed slot states, if forget then last else last.release slot)
  | .look slot =>
    match arena.state? slot with
    | some state => return (.state state, arena)
    | none => .error .outOfBounds

def runSlots (arena : SlotArena) : List SlotStep → Except Halt (List SlotAnswer × SlotArena)
  | [] => return ([], arena)
  | step :: rest => do
    let (answer, arena) ← step.run arena
    let (answers, arena) ← runSlots arena rest
    return (answer :: answers, arena)

def SlotAnswer.lines : SlotAnswer → List String
  | .refused shortage => (({} : Log).record .error shortage.message).rendered
  | _ => []

/-! Ejects. -/

/-- The answers that the steps of an eject still get, and the steps taken, newest first. -/
structure EjectScript where
  answers : List (Option IoError)
  taken : List (Cdb × String) := []

/-- Answers a step; after the last answer every step succeeds. -/
def EjectScript.issue (cdb : Cdb) (label : String) : StateM EjectScript (Except IoError Unit) :=
  fun script =>
    let outcome : Except IoError Unit :=
      match script.answers with
      | some error :: _ => .error error
      | _ => .ok ()
    (outcome, { answers := script.answers.tail, taken := (cdb, label) :: script.taken })

/-- Runs an eject on scripted answers: what it ended with, how far it came, and the steps
taken. -/
def tryEject (answers : List (Option IoError)) :
    Except IoError Unit × EjectState × List (Cdb × String) :=
  let ((outcome, state), script) := (Eject.sequence EjectScript.issue).run { answers }
  (outcome, state, script.taken.reverse)

/-! Command tables. -/

def trialTables : Region := ⟨.ofNat firstFrame, PortAreas.tableFrames⟩

def trialList : Region := ⟨.ofNat 0x234600000, PortAreas.listFrames⟩

def trialTable (slot : Nat) : Nat :=
  trialTables.address (CommandTable.offset slot)

/-- Memory with every byte of the tables set to a value, and a list of zeroes. -/
def trialMemory (fill : Option UInt8) : Memory :=
  let memory := (({} : Memory).zero (trialTables.address 0) trialTables.size).zero
    (trialList.address 0) trialList.size
  match fill with
  | none => memory
  | some value => memory.store (trialTables.address 0) (List.replicate trialTables.size value)

/-! Mapped registers. -/

/-- Memory of zeroes behind a mapped register block of two frames. -/
def mappedMemory (base : Nat) : Memory :=
  ({} : Memory).zero base (2 * frameSize)

/-- Finds out what an adapter in mapped registers can do. -/
def attachMapped (window : MappedWindow) (memory : Memory) : Except Halt Adapter :=
  (HostM.exec Adapter.attach (trialWorld window memory)).1

end Ahci.Bench
