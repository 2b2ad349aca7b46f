import Ahci.Descriptor.CommandHeader
import Ahci.Descriptor.HostFis
import Ahci.Descriptor.ScatterList
import Ahci.Memory
import Ahci.Packet.Cdb

/-!
How the commands of a port lie in memory. The command list is an array of thirty-two
headers. Each slot has a command table of 256 bytes: the frame at its start, the packet
command behind it, and the scatter entries in its second half.

A table is used by one command after another. `prepare` clears everything before the
scatter entries, so that no frame or packet command of an earlier command survives; the
scatter entries themselves are overwritten one by one, and a header counts the ones that
are meant.
-/

namespace Ahci

def slotCount : Nat := 32

namespace CommandTable

def size : Nat := 256

/-- Where the packet command lies in the table; the frame lies at its start. -/
def packetOffset : Nat := 0x40

def scatterOffset : Nat := 0x80

/-- Where the table of a slot lies in the tables of a port. -/
def offset (slot : Nat) : Nat :=
  slot * size

/-- Clears the front of a table, then writes a frame and, if there is one, a packet
command into it. -/
def prepare (addr : Nat) (fis : HostFis) (cdb : Option Cdb) (memory : Memory) : Memory :=
  let framed := (memory.zero addr scatterOffset).store addr fis.encode
  match cdb with
  | some cdb => framed.store (addr + packetOffset) cdb.encode
  | none => framed

/-- Puts entries into a table from its first place on. What lies behind them stays. -/
def writeEntries (addr : Nat) (entries : List ScatterEntry) (memory : Memory) : Memory :=
  memory.store (addr + scatterOffset) (entries.flatMap ScatterEntry.encode)

def fis (addr : Nat) (memory : Memory) : HostFis :=
  .decode (memory.load addr HostFis.size)

def cdb (addr : Nat) (memory : Memory) : Cdb :=
  .ofBytes (memory.load (addr + packetOffset) Cdb.size)

def entry (addr index : Nat) (memory : Memory) : ScatterEntry :=
  .decode (memory.load (addr + scatterOffset + index * ScatterEntry.size) ScatterEntry.size)

/-- The first entries of a table. How many are in use only the header of the slot tells. -/
def entries (addr count : Nat) (memory : Memory) : List ScatterEntry :=
  (List.range count).map fun index => entry addr index memory

/-- The frame in a table is the one it was prepared with. -/
theorem fis_prepare (addr : Nat) (new : HostFis) (packet : Option Cdb) (memory : Memory) :
    fis addr (prepare addr new packet memory) = new := by
  have hframed := Memory.load_store (memory.zero addr scatterOffset) addr new.encode
  rw [HostFis.length_encode] at hframed
  cases packet with
  | none => rw [fis, prepare, hframed, HostFis.decode_encode]
  | some cdb =>
    have hapart : addr + HostFis.size ≤ addr + packetOffset := by
      simp only [HostFis.size, packetOffset]; omega
    rw [fis, prepare, Memory.load_store_of_disjoint _ (.inl hapart), hframed,
      HostFis.decode_encode]

/-- The packet command in a table is the one it was prepared with. -/
theorem cdb_prepare_some (addr : Nat) (new : HostFis) (packet : Cdb) (memory : Memory) :
    cdb addr (prepare addr new (some packet) memory) = packet := by
  have hstored := Memory.load_store ((memory.zero addr scatterOffset).store addr new.encode)
    (addr + packetOffset) packet.encode
  rw [Cdb.length_encode] at hstored
  rw [cdb, prepare, hstored, Cdb.ofBytes_encode]

/-- A table that was prepared without a packet command holds zeroes in its place. -/
theorem cdb_prepare_none (addr : Nat) (new : HostFis) (memory : Memory) :
    cdb addr (prepare addr new none memory) = .ofBytes (List.replicate Cdb.size 0) := by
  have hapart : addr + new.encode.length ≤ addr + packetOffset := by
    simp only [HostFis.length_encode, HostFis.size, packetOffset]; omega
  have hwithin : addr ≤ addr + packetOffset ∧
      addr + packetOffset + Cdb.size ≤ addr + scatterOffset := by
    simp only [packetOffset, Cdb.size, scatterOffset]; omega
  rw [cdb, prepare, Memory.load_store_of_disjoint _ (.inr hapart), Memory.load_zero _ hwithin]

/-- Preparing a table leaves its scatter entries alone. -/
theorem entry_prepare (addr index : Nat) (new : HostFis) (packet : Option Cdb)
    (memory : Memory) :
    entry addr index (prepare addr new packet memory) = entry addr index memory := by
  have hbehindFrame : addr + new.encode.length ≤
      addr + scatterOffset + index * ScatterEntry.size := by
    simp only [HostFis.length_encode, HostFis.size, scatterOffset]; omega
  have hframed : ((memory.zero addr scatterOffset).store addr new.encode).load
      (addr + scatterOffset + index * ScatterEntry.size) ScatterEntry.size =
        memory.load (addr + scatterOffset + index * ScatterEntry.size) ScatterEntry.size := by
    rw [Memory.load_store_of_disjoint _ (.inr hbehindFrame),
      Memory.load_zero_of_disjoint _ (.inr (Nat.le_add_right _ _))]
  cases packet with
  | none => rw [entry, prepare, hframed, entry]
  | some cdb =>
    have hbehindPacket : addr + packetOffset + cdb.encode.length ≤
        addr + scatterOffset + index * ScatterEntry.size := by
      simp only [Cdb.length_encode, Cdb.size, packetOffset, scatterOffset]; omega
    rw [entry, prepare, Memory.load_store_of_disjoint _ (.inr hbehindPacket), hframed, entry]

/-- Writing scatter entries leaves the frame of a table alone. -/
theorem fis_writeEntries (addr : Nat) (new : List ScatterEntry) (memory : Memory) :
    fis addr (writeEntries addr new memory) = fis addr memory := by
  have hapart : addr + HostFis.size ≤ addr + scatterOffset := by
    simp only [HostFis.size, scatterOffset]; omega
  rw [fis, writeEntries, Memory.load_store_of_disjoint _ (.inl hapart), fis]

/-- Writing scatter entries leaves the packet command of a table alone. -/
theorem cdb_writeEntries (addr : Nat) (new : List ScatterEntry) (memory : Memory) :
    cdb addr (writeEntries addr new memory) = cdb addr memory := by
  have hapart : addr + packetOffset + Cdb.size ≤ addr + scatterOffset := by
    simp only [packetOffset, Cdb.size, scatterOffset]; omega
  rw [cdb, writeEntries, Memory.load_store_of_disjoint _ (.inl hapart), cdb]

theorem length_flatMap_encode (list : List ScatterEntry) :
    (list.flatMap ScatterEntry.encode).length = list.length * ScatterEntry.size := by
  induction list with
  | nil => simp
  | cons first rest ih =>
    rw [List.flatMap_cons, List.length_append, ih, ScatterEntry.length_encode,
      List.length_cons, Nat.succ_mul, Nat.add_comm]

private theorem take_drop_flatMap_encode (list : List ScatterEntry) (index : Nat)
    (h : index < list.length) :
    ((list.flatMap ScatterEntry.encode).drop (index * ScatterEntry.size)).take
      ScatterEntry.size = list[index].encode := by
  induction list generalizing index with
  | nil => exact absurd h (Nat.not_lt_zero _)
  | cons first rest ih =>
    cases index with
    | zero =>
      rw [Nat.zero_mul, List.drop_zero, List.flatMap_cons]
      exact List.take_left' first.length_encode
    | succ index =>
      have hbehind : (index + 1) * ScatterEntry.size =
          first.encode.length + index * ScatterEntry.size := by
        rw [ScatterEntry.length_encode, Nat.succ_mul, Nat.add_comm]
      rw [hbehind, List.flatMap_cons, ← List.drop_drop, List.drop_left, List.getElem_cons_succ,
        ih index (Nat.lt_of_succ_lt_succ h)]

/-- The scatter entries of a table are the ones that were written to it. -/
theorem entry_writeEntries (addr index : Nat) (new : List ScatterEntry) (memory : Memory)
    (h : index < new.length) :
    entry addr index (writeEntries addr new memory) = new[index] := by
  have hwithin : index * ScatterEntry.size + ScatterEntry.size ≤
      (new.flatMap ScatterEntry.encode).length := by
    rw [length_flatMap_encode, ← Nat.succ_mul]
    exact Nat.mul_le_mul_right _ h
  rw [entry, writeEntries, Memory.load_store_part _ _ hwithin, take_drop_flatMap_encode new index h,
    ScatterEntry.decode_encode]

/-- Scatter entries behind the ones that were written stay what they were. -/
theorem entry_writeEntries_of_le (addr : Nat) {index : Nat} {new : List ScatterEntry}
    (memory : Memory) (h : new.length ≤ index) :
    entry addr index (writeEntries addr new memory) = entry addr index memory := by
  have hbehind : addr + scatterOffset + (new.flatMap ScatterEntry.encode).length ≤
      addr + scatterOffset + index * ScatterEntry.size := by
    rw [length_flatMap_encode]
    exact Nat.add_le_add_left (Nat.mul_le_mul_right _ h) _
  rw [entry, writeEntries, Memory.load_store_of_disjoint _ (.inr hbehind), entry]

end CommandTable

namespace CommandList

def size : Nat := slotCount * CommandHeader.size

def offset (slot : Nat) : Nat :=
  slot * CommandHeader.size

/-- Puts a header into the place of its slot in the list. -/
def writeHeader (addr slot : Nat) (header : CommandHeader) (memory : Memory) : Memory :=
  memory.store (addr + offset slot) header.encode

def header (addr slot : Nat) (memory : Memory) : CommandHeader :=
  .decode (memory.load (addr + offset slot) CommandHeader.size)

/-- The header of a slot is the one that was last written to it. -/
theorem header_writeHeader (addr slot : Nat) (new : CommandHeader) (memory : Memory) :
    header addr slot (writeHeader addr slot new memory) = new := by
  have hwhole := Memory.load_store memory (addr + offset slot) new.encode
  rw [CommandHeader.length_encode] at hwhole
  rw [header, writeHeader, hwhole, CommandHeader.decode_encode]

/-- Writing the header of one slot leaves the header of another alone. -/
theorem header_writeHeader_of_ne {slot other : Nat} (h : slot ≠ other) (addr : Nat)
    (new : CommandHeader) (memory : Memory) :
    header addr other (writeHeader addr slot new memory) = header addr other memory := by
  have hapart : slot + 1 ≤ other ∨ other + 1 ≤ slot := by omega
  rw [header, writeHeader, Memory.load_store_of_disjoint, header]
  simp only [CommandHeader.length_encode, offset, CommandHeader.size]
  omega

end CommandList

end Ahci
