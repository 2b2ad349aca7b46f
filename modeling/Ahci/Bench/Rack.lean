import Ahci.Simulation.Port

/-!
A rack of simulated ports behind the registers of an adapter. Overrides sit between a
driver and what the ports read as, so that hardware of every kind of misbehaviour can be
shown to it; and the rack can keep a copy of every command that a driver issues.
-/

namespace Ahci.Bench

/-- A change to what one register reads as: it lets some reads pass, then changes the next
ones, as many as its count says. -/
structure Override where
  register : Nat
  /-- Reads that still pass unchanged. -/
  skip : Nat := 0
  /-- Reads that are still changed; without a count it never ends. -/
  count : Option Nat := none
  /-- Bits that are made one. -/
  ones : UInt32 := 0
  /-- Bits that are kept. -/
  kept : UInt32 := allBits
deriving DecidableEq, Repr

namespace Override

/-- What becomes of a value read from the register of the override. -/
def apply (override : Override) (value : UInt32) : UInt32 × Override :=
  if 0 < override.skip then (value, { override with skip := override.skip - 1 })
  else
    match override.count with
    | none => ((value &&& override.kept) ||| override.ones, override)
    | some 0 => (value, override)
    | some (left + 1) =>
      ((value &&& override.kept) ||| override.ones, { override with count := some left })

/-- What becomes of a value read from a register, with every override in order. -/
def applyAll (register : Nat) : List Override → UInt32 → UInt32 × List Override
  | [], value => (value, [])
  | override :: rest, value =>
    let (value, override) :=
      if override.register = register then override.apply value else (value, override)
    let (value, rest) := applyAll register rest value
    (value, override :: rest)

end Override

/-- A simulated port and the overrides in front of it. -/
structure Bay where
  port : SimulatedPort
  overrides : List Override := []

structure AdapterRegisters where
  cap : UInt32 := 0
  ghc : UInt32 := 0
  pi : UInt32 := 0
  vs : UInt32 := 0
deriving DecidableEq, Repr

namespace AdapterRegisters

def readRegister (registers : AdapterRegisters) (offset : Nat) : UInt32 :=
  if offset = HbaRegister.cap then registers.cap
  else if offset = HbaRegister.ghc then registers.ghc
  else if offset = HbaRegister.pi then registers.pi
  else if offset = HbaRegister.vs then registers.vs
  else 0

def writeRegister (registers : AdapterRegisters) (offset : Nat) (value : UInt32) :
    AdapterRegisters :=
  if offset = HbaRegister.ghc then { registers with ghc := value } else registers

end AdapterRegisters

/-- A copy of a command as it lay in memory when it was issued. -/
structure Dump where
  port : Nat
  slot : Nat
  header : List UInt8
  table : List UInt8
deriving DecidableEq, Repr

structure Rack where
  bays : Array Bay
  adapter : AdapterRegisters := {}
  dumping : Bool := false
  dumps : List Dump := []

namespace Rack

/-- A copy of the command of a slot. -/
def dump (port : SimulatedPort) (index slot : Nat) (memory : Memory) : Dump :=
  let header := CommandList.header port.listAddress slot memory
  { port := index
    slot
    header := memory.load (port.listAddress + CommandList.offset slot) CommandHeader.size
    table := memory.load header.tableAddress.toNat CommandTable.size }

/-- Copies of the commands of every slot whose bit is set, newest first. -/
def dumpIssued (port : SimulatedPort) (index : Nat) (value : UInt32) (memory : Memory) :
    List Dump :=
  (((List.range 32).filter (Word.test value)).map fun slot =>
    dump port index slot memory).reverse

/-- What a register reads as. Where there is no port, registers read as zero. -/
def readRegister (rack : Rack) (window : Window) (offset : Nat) : UInt32 × Rack :=
  match window with
  | .hba => (rack.adapter.readRegister offset, rack)
  | .port index =>
    match rack.bays[index]? with
    | none => (0, rack)
    | some bay =>
      let (value, overrides) :=
        Override.applyAll offset bay.overrides (bay.port.readRegister offset)
      (value, { rack with bays := rack.bays.setIfInBounds index { bay with overrides } })

def writeRegister (rack : Rack) (window : Window) (offset : Nat) (value : UInt32)
    (memory : Memory) : Rack × Memory :=
  match window with
  | .hba => ({ rack with adapter := rack.adapter.writeRegister offset value }, memory)
  | .port index =>
    match rack.bays[index]? with
    | none => (rack, memory)
    | some bay =>
      let copies :=
        if rack.dumping && offset = PortRegister.ci then
          dumpIssued bay.port index value memory
        else []
      let (port, memory) := bay.port.writeRegister offset value memory
      ({ rack with
          bays := rack.bays.setIfInBounds index { bay with port }
          dumps := copies ++ rack.dumps }, memory)

def modifyBay (rack : Rack) (index : Nat) (f : Bay → Bay) : Rack :=
  { rack with bays := rack.bays.modify index f }

end Rack

instance : Device Rack where
  read window offset rack _ := rack.readRegister window offset
  write window offset value rack memory := rack.writeRegister window offset value memory

end Ahci.Bench
