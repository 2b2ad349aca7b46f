import Ahci.Engine.Basic
import Ahci.Simulation.Drive

/-!
What driver and device see of the memory they share. On sound areas, which lie within the
physical address space and do not meet, building a command touches its own table and header
and nothing else; the device fetches the command that was built; and the scatter list of a
transfer stands for one contiguous run of the staging area.
-/

namespace Ahci

namespace PhysAddr

theorem ext {a b : PhysAddr} (hsame : a.toNat = b.toNat) : a = b := by
  rw [← ofNat_toNat a, ← ofNat_toNat b, hsame]

theorem add_zero (addr : PhysAddr) : addr + 0 = addr := by
  apply ext
  rw [toNat_add, Nat.add_zero, Nat.mod_eq_of_lt addr.toNat_lt]

theorem add_add (addr : PhysAddr) (a b : Nat) : addr + a + b = addr + (a + b) := by
  apply ext
  rw [toNat_add, toNat_add, toNat_add, Nat.mod_add_mod, Nat.add_assoc]

theorem toNat_add_of_lt {addr : PhysAddr} {offset : Nat} (hwithin : addr.toNat + offset < space) :
    (addr + offset).toNat = addr.toNat + offset := by
  rw [toNat_add, Nat.mod_eq_of_lt hwithin]

end PhysAddr

namespace Memory

theorem load_zero_count (memory : Memory) (addr : Nat) : memory.load addr 0 = [] := rfl

theorem store_nil (memory : Memory) (addr : Nat) : memory.store addr [] = memory := rfl

theorem load_add (memory : Memory) (addr count more : Nat) :
    memory.load addr (count + more) =
      memory.load addr count ++ memory.load (addr + count) more := by
  simp only [load, List.range_add, List.map_append, List.map_map, Function.comp_def,
    Nat.add_assoc]

theorem store_append (memory : Memory) (addr : Nat) (front back : List UInt8) :
    memory.store addr (front ++ back) =
      (memory.store addr front).store (addr + front.length) back := by
  induction front generalizing memory addr with
  | nil => rfl
  | cons b front ih =>
    rw [List.cons_append, store, ih, store, List.length_cons]
    congr 1
    omega

end Memory

/-! Scatter lists. -/

namespace ScatterList

variable {base : PhysAddr} {bytes : Nat} {interrupt : Bool}

/-- A list of pieces is its first piece, then the pieces of what lies behind it. Inductions over
transfers go by this. -/
theorem pieces_succ (base : PhysAddr) (bytes : Nat) (interrupt : Bool) (count : Nat) :
    (List.range (count + 1)).map (piece base bytes interrupt) =
      .make base (min pieceSize bytes) interrupt ::
        (List.range count).map (piece (base + pieceSize) (bytes - pieceSize) interrupt) := by
  have hfirst : piece base bytes interrupt 0 = .make base (min pieceSize bytes) interrupt := by
    rw [piece, Nat.zero_mul, PhysAddr.add_zero, Nat.sub_zero]
  have hothers : piece base bytes interrupt ∘ Nat.succ =
      piece (base + pieceSize) (bytes - pieceSize) interrupt := by
    funext index
    have hplace : pieceSize + index * pieceSize = (index + 1) * pieceSize := by
      rw [Nat.succ_mul, Nat.add_comm]
    rw [Function.comp, piece, piece, PhysAddr.add_add, hplace, Nat.sub_sub, hplace]
  rw [List.range_succ_eq_map, List.map_cons, List.map_map, hfirst, hothers]

/-- What lies behind a full piece begins where the piece ends, if anything lies there. Within the
address space the addresses do not wrap around. -/
theorem behind_piece (hwithin : base.toNat + bytes ≤ PhysAddr.space) :
    bytes - pieceSize = 0 ∨ (base + pieceSize).toNat = base.toNat + min pieceSize bytes := by
  by_cases hlast : bytes ≤ pieceSize
  · exact .inl (by omega)
  · right
    rw [PhysAddr.toNat_add_of_lt (by omega), Nat.min_eq_left (by omega)]

theorem load_behind_piece (hwithin : base.toNat + bytes ≤ PhysAddr.space) (memory : Memory) :
    memory.load base.toNat (min pieceSize bytes) ++
        memory.load (base + pieceSize).toNat (bytes - pieceSize) =
      memory.load base.toNat bytes := by
  have hwhole : bytes = min pieceSize bytes + (bytes - pieceSize) := by omega
  have hsplit := memory.load_add base.toNat (min pieceSize bytes) (bytes - pieceSize)
  rw [← hwhole] at hsplit
  rw [hsplit]
  rcases behind_piece hwithin with hnone | hplace
  · rw [hnone, Memory.load_zero_count, Memory.load_zero_count]
  · rw [hplace]

theorem store_behind_piece (hwithin : base.toNat + bytes ≤ PhysAddr.space) (data : List UInt8)
    (memory : Memory) :
    (memory.store base.toNat (data.take (min pieceSize bytes))).store (base + pieceSize).toNat
        ((data.drop (min pieceSize bytes)).take (bytes - pieceSize)) =
      memory.store base.toNat (data.take bytes) := by
  have hwhole : bytes = min pieceSize bytes + (bytes - pieceSize) := by omega
  have hsplit : data.take (min pieceSize bytes + (bytes - pieceSize)) =
      data.take (min pieceSize bytes) ++
        (data.drop (min pieceSize bytes)).take (bytes - pieceSize) := List.take_add
  rw [← hwhole] at hsplit
  rw [hsplit, Memory.store_append]
  by_cases hlong : min pieceSize bytes ≤ data.length
  · rw [List.length_take, Nat.min_eq_left hlong]
    rcases behind_piece hwithin with hnone | hplace
    · rw [hnone, List.take_zero, Memory.store_nil, Memory.store_nil]
    · rw [hplace]
  -- Data that ends within the piece leaves nothing to be stored behind it.
  · rw [List.drop_eq_nil_of_le (by omega), List.take_nil, Memory.store_nil, Memory.store_nil]

/-- The pieces of a run, in order, are the run, within the address space: for data that is gathered
and for data that is scattered. By induction on their number, over the run that is left. -/
theorem pieces_run (count : Nat) (henough : (bytes + pieceSize - 1) / pieceSize = count)
    (hwithin : base.toNat + bytes ≤ PhysAddr.space) :
    (∀ memory, gatherData ((List.range count).map (piece base bytes interrupt)) memory =
        memory.load base.toNat bytes) ∧
      ∀ data memory, scatterData ((List.range count).map (piece base bytes interrupt)) data
        memory = memory.store base.toNat (data.take bytes) := by
  induction count generalizing base bytes with
  | zero =>
    have hnone : bytes = 0 := by
      simp only [pieceSize] at henough
      omega
    subst hnone
    exact ⟨fun memory => rfl, fun data memory => rfl⟩
  | succ count ih =>
    have hsome : 0 < bytes := by
      simp only [pieceSize] at henough
      omega
    have hleft : (bytes - pieceSize + pieceSize - 1) / pieceSize = count := by
      simp only [pieceSize] at henough ⊢
      omega
    have hsize : (ScatterEntry.make base (min pieceSize bytes) interrupt).bytes =
        min pieceSize bytes := by
      apply ScatterEntry.bytes_make
      · exact Nat.lt_min.2 ⟨by decide, hsome⟩
      · exact Nat.le_trans (Nat.min_le_left _ _) (by decide)
    have hroom : (base + pieceSize).toNat + (bytes - pieceSize) ≤ PhysAddr.space := by
      have hbound := (base + pieceSize).toNat_lt
      rcases behind_piece hwithin with hnone | hplace <;> omega
    obtain ⟨hgathered, hscattered⟩ := ih hleft hroom
    rw [pieces_succ]
    constructor
    · intro memory
      rw [← load_behind_piece hwithin, ← hgathered memory, gatherData, List.flatMap_cons,
        ScatterEntry.address_make, hsize]
      rfl
    · intro data memory
      rw [scatterData, ScatterEntry.address_make, hsize, hscattered, store_behind_piece hwithin]

theorem build_eq_ok {entries : List ScatterEntry}
    (hformed : build base bytes interrupt = .ok entries) :
    bytes ≤ maxBytes ∧
      entries = (List.range ((bytes + pieceSize - 1) / pieceSize)).map
        (piece base bytes interrupt) := by
  unfold build at hformed
  split at hformed
  · cases hformed
  split at hformed
  · cases hformed
  split at hformed
  · cases hformed
  · next hfits =>
    cases hformed
    exact ⟨Nat.le_of_not_lt hfits, rfl⟩

/-- Every transfer of a whole number of words, not empty and no longer than one command can carry,
is described. -/
theorem exists_build (base : PhysAddr) (interrupt : Bool) (hpos : 0 < bytes)
    (heven : bytes % 2 = 0) (hfits : bytes ≤ maxBytes) :
    ∃ entries, build base bytes interrupt = .ok entries := by
  have hodd : ¬ bytes % 2 ≠ 0 := by omega
  rw [build, if_neg (Nat.ne_of_gt hpos), if_neg hodd, if_neg (Nat.not_lt.2 hfits)]
  exact ⟨_, rfl⟩

end ScatterList

/-! The areas of a port. -/

/-- Two regions that do not meet. -/
def Region.Apart (first second : Region) : Prop :=
  first.address first.size ≤ second.address 0 ∨ second.address second.size ≤ first.address 0

namespace PortAreas

def regions (areas : PortAreas) : List Region :=
  [areas.list, areas.tables, areas.read, areas.write]

/-- The regions of a port have the sizes that they were asked for with. -/
structure Sized (areas : PortAreas) : Prop where
  list : areas.list.frames = listFrames
  tables : areas.tables.frames = tableFrames
  read : areas.read.frames = stagingFrames
  write : areas.write.frames = stagingFrames

namespace Sized

variable {areas : PortAreas}

theorem size_list (hsized : areas.Sized) : areas.list.size = 4096 := by
  rw [Region.size, hsized.list]
  rfl

theorem size_tables (hsized : areas.Sized) : areas.tables.size = 8192 := by
  rw [Region.size, hsized.tables]
  rfl

theorem size_read (hsized : areas.Sized) : areas.read.size = 65536 := by
  rw [Region.size, hsized.read]
  rfl

theorem size_write (hsized : areas.Sized) : areas.write.size = 65536 := by
  rw [Region.size, hsized.write]
  rfl

end Sized

/-- Areas in memory that was granted as it should be: within the physical address space, and no two
of them over each other. The driver cannot see to this; it relies on what grants the memory. -/
structure Sound (areas : PortAreas) : Prop where
  within : ∀ region ∈ areas.regions, region.address region.size ≤ PhysAddr.space
  apart : areas.regions.Pairwise Region.Apart

/-- The bounds that sound areas of the right size obey, spelled out in bytes for linear
arithmetic. -/
structure Layout (areas : PortAreas) : Prop where
  list : areas.list.base.toNat + 4096 ≤ PhysAddr.space
  tables : areas.tables.base.toNat + 8192 ≤ PhysAddr.space
  read : areas.read.base.toNat + 65536 ≤ PhysAddr.space
  write : areas.write.base.toNat + 65536 ≤ PhysAddr.space
  listTables : areas.list.base.toNat + 4096 ≤ areas.tables.base.toNat ∨
    areas.tables.base.toNat + 8192 ≤ areas.list.base.toNat
  listRead : areas.list.base.toNat + 4096 ≤ areas.read.base.toNat ∨
    areas.read.base.toNat + 65536 ≤ areas.list.base.toNat
  listWrite : areas.list.base.toNat + 4096 ≤ areas.write.base.toNat ∨
    areas.write.base.toNat + 65536 ≤ areas.list.base.toNat
  tablesRead : areas.tables.base.toNat + 8192 ≤ areas.read.base.toNat ∨
    areas.read.base.toNat + 65536 ≤ areas.tables.base.toNat
  tablesWrite : areas.tables.base.toNat + 8192 ≤ areas.write.base.toNat ∨
    areas.write.base.toNat + 65536 ≤ areas.tables.base.toNat
  readWrite : areas.read.base.toNat + 65536 ≤ areas.write.base.toNat ∨
    areas.write.base.toNat + 65536 ≤ areas.read.base.toNat

theorem Sound.layout {areas : PortAreas} (hsound : areas.Sound) (hsized : areas.Sized) :
    areas.Layout := by
  have hwithin := hsound.within
  have hapart := hsound.apart
  simp only [regions, List.forall_mem_cons, List.not_mem_nil, false_implies, implies_true,
    List.pairwise_cons, Region.Apart, Region.address, hsized.size_list, hsized.size_tables,
    hsized.size_read, hsized.size_write, Nat.add_zero, and_true,
    List.Pairwise.nil] at hwithin hapart
  obtain ⟨hinList, hinTables, hinRead, hinWrite⟩ := hwithin
  obtain ⟨⟨hlistTables, hlistRead, hlistWrite⟩, ⟨htablesRead, htablesWrite⟩, hreadWrite⟩ := hapart
  exact ⟨hinList, hinTables, hinRead, hinWrite, hlistTables, hlistRead, hlistWrite, htablesRead,
    htablesWrite, hreadWrite⟩

end PortAreas

/-! Building a command, and fetching it. -/

namespace CommandTable

/-- Preparing a table touches the front of the table only, up to its entries. -/
theorem load_prepare_of_disjoint (addr : Nat) (fis : HostFis) (cdb : Option Cdb)
    (memory : Memory) {other count : Nat}
    (hapart : other + count ≤ addr ∨ addr + scatterOffset ≤ other) :
    (prepare addr fis cdb memory).load other count = memory.load other count := by
  have hframe : other + count ≤ addr ∨ addr + fis.encode.length ≤ other := by
    simp only [HostFis.length_encode, HostFis.size, scatterOffset] at hapart ⊢
    omega
  have hframed : ((memory.zero addr scatterOffset).store addr fis.encode).load other count =
      memory.load other count := by
    rw [Memory.load_store_of_disjoint _ hframe, Memory.load_zero_of_disjoint _ hapart]
  cases cdb with
  | none => exact hframed
  | some cdb =>
    have hpacket : other + count ≤ addr + packetOffset ∨
        addr + packetOffset + cdb.encode.length ≤ other := by
      simp only [Cdb.length_encode, Cdb.size, packetOffset, scatterOffset] at hapart ⊢
      omega
    rw [prepare, Memory.load_store_of_disjoint _ hpacket, hframed]

end CommandTable

/-- A command as the device is to find it in a slot. The reserved bytes of a frame do not get
there. -/
def Command.fetched (command : Command) (slot : Nat) (entries : List ScatterEntry) :
    FetchedCommand :=
  { slot
    fis := { command.fis with reserved := 0 }
    cdb := command.cdb
    entryCount := entries.length
    entries
    isWrite := match command.data with
      | .fromHost _ => true
      | _ => false
    isPacket := command.isPacket }

namespace CommandHeader

theorem isPacket_make (table : PhysAddr) (flags entries : UInt16) :
    (make table flags entries).isPacket =
      (((flags &&& ~~~lengthMask) ||| frameLength) &&& ~~~lengthMask &&& packetFlag != 0) := rfl

theorem isWrite_make (table : PhysAddr) (flags entries : UInt16) :
    (make table flags entries).isWrite =
      (((flags &&& ~~~lengthMask) ||| frameLength) &&& ~~~lengthMask &&& writeFlag != 0) := rfl

end CommandHeader

namespace Engine

variable {engine : Engine} {slot : Nat} {entries : List ScatterEntry}

/-- The memory with the table of a command in it, before its header is written. -/
def buildTable (engine : Engine) (slot : Nat) (command : Command) (entries : List ScatterEntry)
    (memory : Memory) : Memory :=
  CommandTable.writeEntries (engine.areas.tableOf slot) entries
    (CommandTable.prepare (engine.areas.tableOf slot) command.fis command.cdb memory)

/-- The header of a command. -/
def headerOf (engine : Engine) (slot : Nat) (command : Command) (entries : List ScatterEntry) :
    CommandHeader :=
  .make (engine.areas.tablePhys slot) (headerFlags command) (UInt16.ofNat entries.length)

theorem build_eq (command : Command) (memory : Memory) :
    engine.build slot command entries memory =
      CommandList.writeHeader (engine.areas.list.address 0) slot
        (engine.headerOf slot command entries)
        (engine.buildTable slot command entries memory) := rfl

/-- Building a command is not seen in any run of memory apart from its table and its header. -/
theorem load_build_of_disjoint (command : Command) (memory : Memory)
    (hfew : entries.length ≤ ScatterList.capacity) {other count : Nat}
    (htable : other + count ≤ engine.areas.tableOf slot ∨
      engine.areas.tableOf slot + CommandTable.size ≤ other)
    (hheader : other + count ≤ engine.areas.list.address 0 + CommandList.offset slot ∨
      engine.areas.list.address 0 + CommandList.offset slot + CommandHeader.size ≤ other) :
    (engine.build slot command entries memory).load other count = memory.load other count := by
  have hlength : (entries.flatMap ScatterEntry.encode).length = entries.length * 16 :=
    CommandTable.length_flatMap_encode entries
  have hwritten : other + count ≤ engine.areas.tableOf slot + CommandTable.scatterOffset ∨
      engine.areas.tableOf slot + CommandTable.scatterOffset +
        (entries.flatMap ScatterEntry.encode).length ≤ other := by
    rw [hlength]
    simp only [ScatterList.capacity, CommandTable.size, CommandTable.scatterOffset] at hfew htable ⊢
    omega
  have hfront : other + count ≤ engine.areas.tableOf slot ∨
      engine.areas.tableOf slot + CommandTable.scatterOffset ≤ other := by
    simp only [CommandTable.size, CommandTable.scatterOffset] at htable ⊢
    omega
  rw [build_eq, CommandList.writeHeader,
    Memory.load_store_of_disjoint _ (by rwa [CommandHeader.length_encode]), buildTable,
    CommandTable.writeEntries, Memory.load_store_of_disjoint _ hwritten,
    CommandTable.load_prepare_of_disjoint _ _ _ _ hfront]

/-- Within sound areas the table of a slot is where both sides look for it, and it lies in the
region for tables. -/
theorem tables_layout {areas : PortAreas} (hlayout : areas.Layout) {slot : Nat}
    (hbound : slot < slotCount) :
    (areas.tablePhys slot).toNat = areas.tableOf slot ∧
      areas.tables.base.toNat ≤ areas.tableOf slot ∧
      areas.tableOf slot + CommandTable.size ≤ areas.tables.base.toNat + 8192 := by
  have hinside := hlayout.tables
  simp only [slotCount] at hbound
  have hplace : areas.tableOf slot = areas.tables.base.toNat + slot * 256 := rfl
  refine ⟨?_, ?_, ?_⟩
  · rw [PortAreas.tablePhys, Region.physAt_toNat]
    · rfl
    · simp only [CommandTable.offset, CommandTable.size]
      omega
  · rw [hplace]
    exact Nat.le_add_right _ _
  · rw [hplace]
    simp only [CommandTable.size]
    omega

/-! What the header and the table of a slot read as, once a command was built there. -/

theorem tableAddress_headerOf (hlayout : engine.areas.Layout) (hbound : slot < slotCount)
    (command : Command) :
    (engine.headerOf slot command entries).tableAddress.toNat = engine.areas.tableOf slot := by
  rw [headerOf, CommandHeader.tableAddress_make, (tables_layout hlayout hbound).1]

theorem entries_headerOf (hfew : entries.length ≤ ScatterList.capacity) (command : Command) :
    (engine.headerOf slot command entries).entries.toNat = entries.length := by
  change (UInt16.ofNat entries.length).toNat = entries.length
  rw [UInt16.toNat_ofNat']
  simp only [ScatterList.capacity] at hfew
  omega

theorem isPacket_headerOf (command : Command) :
    (engine.headerOf slot command entries).isPacket = command.isPacket := by
  rw [headerOf, headerFlags, CommandHeader.isPacket_make]
  cases command.isPacket <;> cases command.data <;>
    simp only [Bool.false_eq_true, reduceIte] <;> decide

theorem isWrite_headerOf (command : Command) :
    (engine.headerOf slot command entries).isWrite =
      match command.data with
      | .fromHost _ => true
      | _ => false := by
  rw [headerOf, headerFlags, CommandHeader.isWrite_make]
  cases command.isPacket <;> cases command.data <;>
    simp only [Bool.false_eq_true, reduceIte] <;> decide

/-- The header lies outside of the table, so the table is read as it was built before the header was
written. -/
theorem load_build_of_table (hlayout : engine.areas.Layout) (hbound : slot < slotCount)
    (command : Command) (memory : Memory) {offset length : Nat}
    (hinside : offset + length ≤ CommandTable.size) :
    (engine.build slot command entries memory).load (engine.areas.tableOf slot + offset) length =
      (engine.buildTable slot command entries memory).load
        (engine.areas.tableOf slot + offset) length := by
  obtain ⟨_, hlow, hhigh⟩ := tables_layout hlayout hbound
  rw [build_eq, CommandList.writeHeader]
  apply Memory.load_store_of_disjoint
  have hapart := hlayout.listTables
  simp only [CommandHeader.length_encode, CommandHeader.size, CommandList.offset,
    CommandTable.size, Region.address, slotCount] at *
  omega

theorem fis_build (hlayout : engine.areas.Layout) (hbound : slot < slotCount) (command : Command)
    (memory : Memory) :
    HostFis.ofWire ((engine.build slot command entries memory).load
      (engine.areas.tableOf slot) HostFis.size) = { command.fis with reserved := 0 } := by
  have hframe : (engine.build slot command entries memory).load (engine.areas.tableOf slot + 0)
      HostFis.size = _ := load_build_of_table hlayout hbound command memory (by decide)
  have hbuilt : CommandTable.fis (engine.areas.tableOf slot)
      (engine.buildTable slot command entries memory) = command.fis := by
    rw [buildTable, CommandTable.fis_writeEntries, CommandTable.fis_prepare]
  rw [Nat.add_zero] at hframe
  rw [HostFis.ofWire, hframe]
  change { CommandTable.fis (engine.areas.tableOf slot)
    (engine.buildTable slot command entries memory) with reserved := 0 } = _
  rw [hbuilt]

theorem cdb_build (hlayout : engine.areas.Layout) (hbound : slot < slotCount) (command : Command)
    (memory : Memory) :
    (if command.isPacket then
      some (CommandTable.cdb (engine.areas.tableOf slot)
        (engine.build slot command entries memory)) else none) = command.cdb := by
  have hplace : (engine.build slot command entries memory).load
      (engine.areas.tableOf slot + CommandTable.packetOffset) Cdb.size = _ :=
    load_build_of_table hlayout hbound command memory (by decide)
  cases hgiven : command.cdb with
  | none =>
    have hplain : command.isPacket = false := by rw [Command.isPacket, hgiven]; rfl
    rw [hplain]
    rfl
  | some cdb =>
    have hpacket : command.isPacket = true := by rw [Command.isPacket, hgiven]; rfl
    rw [hpacket, if_pos rfl, CommandTable.cdb, hplace]
    change some (CommandTable.cdb (engine.areas.tableOf slot)
      (engine.buildTable slot command entries memory)) = some cdb
    rw [buildTable, CommandTable.cdb_writeEntries, hgiven, CommandTable.cdb_prepare_some]

theorem entries_build (hlayout : engine.areas.Layout) (hbound : slot < slotCount)
    (hfew : entries.length ≤ ScatterList.capacity) (command : Command) (memory : Memory) :
    CommandTable.entries (engine.areas.tableOf slot) entries.length
      (engine.build slot command entries memory) = entries := by
  apply List.ext_getElem
  · rw [CommandTable.entries, List.length_map, List.length_range]
  · intro index _ hwithin
    have hinside : CommandTable.scatterOffset + index * ScatterEntry.size + ScatterEntry.size ≤
        CommandTable.size := by
      simp only [ScatterList.capacity] at hfew
      simp only [CommandTable.scatterOffset, ScatterEntry.size, CommandTable.size]
      omega
    have hplace : (engine.build slot command entries memory).load
        (engine.areas.tableOf slot + (CommandTable.scatterOffset + index * ScatterEntry.size))
          ScatterEntry.size = _ := load_build_of_table hlayout hbound command memory hinside
    have hshown : CommandTable.entry (engine.areas.tableOf slot) index
        (engine.build slot command entries memory) = entries[index] := by
      rw [CommandTable.entry, Nat.add_assoc, hplace, ← Nat.add_assoc]
      exact CommandTable.entry_writeEntries _ _ _ _ hwithin
    rw [← hshown]
    exact (List.getElem_map _).trans (by rw [List.getElem_range])

/-- What a device fetches of a slot is the command that was built there, over any memory and for any
of the thirty-two slots, on areas that do not overlap. -/
theorem fetch_build (hlayout : engine.areas.Layout) (hbound : slot < slotCount)
    (command : Command) (hfew : entries.length ≤ ScatterList.capacity) (memory : Memory) :
    FetchedCommand.fetch (engine.areas.list.address 0) slot
      (engine.build slot command entries memory) = command.fetched slot entries := by
  have hheader : CommandList.header (engine.areas.list.address 0) slot
      (engine.build slot command entries memory) = engine.headerOf slot command entries :=
    CommandList.header_writeHeader _ _ _ _
  rw [FetchedCommand.fetch, hheader, tableAddress_headerOf hlayout hbound, entries_headerOf hfew,
    isPacket_headerOf, isWrite_headerOf, fis_build hlayout hbound, cdb_build hlayout hbound,
    entries_build hlayout hbound hfew]
  rfl

/-- What lies in the staging area of a command, as far as the command covers it. -/
def payload (engine : Engine) (command : Command) (memory : Memory) : List UInt8 :=
  match command.data with
  | .none => []
  | .toHost bytes => memory.load (engine.areas.read.address 0) bytes
  | .fromHost bytes => memory.load (engine.areas.write.address 0) bytes

/-- Places data in the staging area of a command, as far as the command covers it. -/
def deliver (engine : Engine) (command : Command) (data : List UInt8) (memory : Memory) :
    Memory :=
  match command.data with
  | .none => memory
  | .toHost bytes => memory.store (engine.areas.read.address 0) (data.take bytes)
  | .fromHost bytes => memory.store (engine.areas.write.address 0) (data.take bytes)

theorem physAt_zero (region : Region) : (region.physAt 0).toNat = region.base.toNat := by
  rw [Region.physAt, PhysAddr.add_zero]

/-- A scatter list over an area apart from the command list and the tables stands for the front of
the area, which building a command does not touch. -/
theorem staging_run (hlayout : engine.areas.Layout) (hbound : slot < slotCount) (command : Command)
    {area : Region} {bytes : Nat} {interrupt : Bool}
    (hwithin : area.base.toNat + 65536 ≤ PhysAddr.space)
    (hlist : engine.areas.list.base.toNat + 4096 ≤ area.base.toNat ∨
      area.base.toNat + 65536 ≤ engine.areas.list.base.toNat)
    (htables : engine.areas.tables.base.toNat + 8192 ≤ area.base.toNat ∨
      area.base.toNat + 65536 ≤ engine.areas.tables.base.toNat)
    (hformed : ScatterList.build (area.physAt 0) bytes interrupt = .ok entries)
    (memory : Memory) :
    entries.length ≤ ScatterList.capacity ∧
      gatherData entries (engine.build slot command entries memory) =
        memory.load (area.address 0) bytes ∧
      ∀ data changed, scatterData entries data changed =
        changed.store (area.address 0) (data.take bytes) := by
  obtain ⟨_, hlow, hhigh⟩ := tables_layout hlayout hbound
  obtain ⟨hfits, hpieces⟩ := ScatterList.build_eq_ok hformed
  have hfew := (ScatterList.length_build hformed).2
  simp only [ScatterList.maxBytes, ScatterList.pieceSize, ScatterList.capacity] at hfits
  have hroom : (area.physAt 0).toNat + bytes ≤ PhysAddr.space := by
    rw [physAt_zero]
    omega
  obtain ⟨hgathered, hscattered⟩ := ScatterList.pieces_run _ rfl hroom
  rw [← hpieces, physAt_zero] at hgathered hscattered
  refine ⟨hfew, ?_, hscattered⟩
  rw [hgathered]
  apply load_build_of_disjoint command memory hfew
  · omega
  · simp only [Region.address, CommandList.offset, CommandHeader.size, slotCount] at hbound ⊢
    omega

/-- The scatter list of a command stands for its staging area: gathered over it is the payload of
the command, and scattering over it is to deliver. -/
theorem transfer_run (hlayout : engine.areas.Layout) (hbound : slot < slotCount)
    {command : Command} (hformed : engine.scatter command = .ok entries) (memory : Memory) :
    entries.length ≤ ScatterList.capacity ∧
      gatherData entries (engine.build slot command entries memory) =
        engine.payload command memory ∧
      ∀ data changed, scatterData entries data changed = engine.deliver command data changed := by
  unfold payload deliver
  cases hdirection : command.data with
  | none =>
    have hempty : entries = [] := by
      rw [scatter, hdirection] at hformed
      cases hformed
      rfl
    rw [hempty]
    exact ⟨Nat.zero_le _, rfl, fun data changed => rfl⟩
  | toHost bytes =>
    rw [scatter, hdirection] at hformed
    exact staging_run hlayout hbound command hlayout.read hlayout.listRead hlayout.tablesRead
      hformed memory
  | fromHost bytes =>
    rw [scatter, hdirection] at hformed
    exact staging_run hlayout hbound command hlayout.write hlayout.listWrite hlayout.tablesWrite
      hformed memory

end Engine

end Ahci
