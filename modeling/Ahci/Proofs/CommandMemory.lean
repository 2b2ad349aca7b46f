import Ahci.Proofs.SharedMemory

/-!
The memory of a port's commands, over any history of writes to it. A table is prepared, scatter
entries and headers are put into their places, in any order and in any of the slots. Each write has
a part of the memory that it may change, so what a place holds is what the last write to it left
there, and the places of other slots stay as they are.
-/

namespace Ahci

/-- Where the commands of a port lie: the command list, and the command tables of its slots one
behind another. The two do not overlap. -/
structure CommandMemory where
  list : Nat
  tables : Nat
  apart : list + CommandList.size ≤ tables ∨ tables + slotCount * CommandTable.size ≤ list

/-- A write to the memory of commands: the front of a table, the entries of a table, or a header.
Entries are limited to as many as a table has room for. -/
inductive CommandWrite where
  | prepare (slot : Fin slotCount) (fis : HostFis) (cdb : Option Cdb)
  | putEntries (slot : Fin slotCount) (entries : List ScatterEntry)
    (hfew : entries.length ≤ ScatterList.capacity)
  | putHeader (slot : Fin slotCount) (header : CommandHeader)

namespace CommandMemory

/-- Where the command table of a slot lies. -/
def table (place : CommandMemory) (slot : Fin slotCount) : Nat :=
  place.tables + CommandTable.offset slot

/-- Where the command header of a slot lies. -/
def header (place : CommandMemory) (slot : Fin slotCount) : Nat :=
  place.list + CommandList.offset slot

/-- The memory behind one write. -/
def write (place : CommandMemory) : CommandWrite → Memory → Memory
  | .prepare slot fis cdb, memory => CommandTable.prepare (place.table slot) fis cdb memory
  | .putEntries slot entries _, memory =>
    CommandTable.writeEntries (place.table slot) entries memory
  | .putHeader slot header, memory => CommandList.writeHeader place.list slot header memory

/-- The memory behind a history of writes, which is given newest first. -/
def after (place : CommandMemory) (history : List CommandWrite) (memory : Memory) : Memory :=
  history.foldr place.write memory

/-- The first address that a write may change. -/
def start (place : CommandMemory) : CommandWrite → Nat
  | .prepare slot _ _ => place.table slot
  | .putEntries slot _ _ => place.table slot + CommandTable.scatterOffset
  | .putHeader slot _ => place.header slot

/-- The tables have 256 bytes for each slot and the headers 32, and there are 32 slots, so none of
them overlap. -/
theorem bounds (place : CommandMemory) (slot : Fin slotCount) :
    place.table slot = place.tables + slot.val * 256 ∧
      place.header slot = place.list + slot.val * 32 ∧ slot.val < 32 ∧
      (place.list + 1024 ≤ place.tables ∨ place.tables + 8192 ≤ place.list) :=
  ⟨rfl, rfl, slot.isLt, place.apart⟩

end CommandMemory

namespace CommandTable

/-- Preparing a table leaves zeros between the frame and the packet, and behind the packet up to the
entries. -/
theorem byte_prepare (addr : Nat) (fis : HostFis) (cdb : Option Cdb) (memory : Memory)
    {offset : Nat} (hgap : (20 ≤ offset ∧ offset < 64) ∨ (80 ≤ offset ∧ offset < 128)) :
    (prepare addr fis cdb memory).byte (addr + offset) = 0 := by
  have hframed : ((memory.zero addr 128).store addr fis.encode).byte (addr + offset) = 0 := by
    have hlength : fis.encode.length = 20 := fis.length_encode
    rw [Memory.byte_store, dif_neg (by omega), Memory.byte_zero, if_pos (by omega)]
  cases cdb with
  | none => exact hframed
  | some cdb =>
    have hlength : cdb.encode.length = 16 := cdb.length_encode
    change (Memory.store _ (addr + 64) cdb.encode).byte (addr + offset) = 0
    rw [Memory.byte_store, dif_neg (by omega)]
    exact hframed

end CommandTable

namespace CommandWrite

def slot : CommandWrite → Fin slotCount
  | prepare slot _ _ => slot
  | putEntries slot _ _ => slot
  | putHeader slot _ => slot

/-- How many addresses a write may change. A write of entries may change the places of all eight. -/
def room : CommandWrite → Nat
  | prepare _ _ _ => CommandTable.scatterOffset
  | putEntries _ _ _ => ScatterList.capacity * ScatterEntry.size
  | putHeader _ _ => CommandHeader.size

/-- What the front of the table of a slot is prepared with by a write, if it is. -/
def prepared? (slot : Fin slotCount) : CommandWrite → Option (HostFis × Option Cdb)
  | prepare other fis cdb => if other = slot then some (fis, cdb) else none
  | _ => none

/-- The scatter entry that is put into a place of a slot, if the entries reach that far. -/
def entry? (slot : Fin slotCount) (index : Nat) : CommandWrite → Option ScatterEntry
  | putEntries other entries _ => if other = slot then entries[index]? else none
  | _ => none

def header? (slot : Fin slotCount) : CommandWrite → Option CommandHeader
  | putHeader other header => if other = slot then some header else none
  | _ => none

variable {write : CommandWrite} {slot : Fin slotCount}

theorem eq_prepare_of_prepared? {fis : HostFis} {cdb : Option Cdb}
    (htold : write.prepared? slot = some (fis, cdb)) : write = prepare slot fis cdb := by
  cases write with
  | prepare other new packet =>
    simp only [prepared?, Option.ite_none_right_eq_some, Option.some.injEq, Prod.mk.injEq] at htold
    obtain ⟨rfl, rfl, rfl⟩ := htold
    rfl
  | putEntries => cases htold
  | putHeader => cases htold

theorem eq_putHeader_of_header? {header : CommandHeader}
    (htold : write.header? slot = some header) : write = putHeader slot header := by
  cases write with
  | prepare => cases htold
  | putEntries => cases htold
  | putHeader other new =>
    simp only [header?, Option.ite_none_right_eq_some, Option.some.injEq] at htold
    obtain ⟨rfl, rfl⟩ := htold
    rfl

end CommandWrite

namespace CommandMemory

variable {place : CommandMemory} {write : CommandWrite} {slot : Fin slotCount}
  {offset count : Nat}

/-- A write changes nothing in a run of addresses. -/
def Spares (place : CommandMemory) (write : CommandWrite) (addr count : Nat) : Prop :=
  addr + count ≤ place.start write ∨ place.start write + write.room ≤ addr

theorem load_write_of_spares {addr : Nat} (hspares : place.Spares write addr count)
    (memory : Memory) : (place.write write memory).load addr count = memory.load addr count := by
  cases write with
  | prepare slot fis cdb => exact CommandTable.load_prepare_of_disjoint _ fis cdb memory hspares
  | putEntries slot entries hfew =>
    have hlength : (entries.flatMap ScatterEntry.encode).length = entries.length * 16 :=
      CommandTable.length_flatMap_encode entries
    have hfull : entries.length ≤ 8 := hfew
    have hwritten : addr + count ≤ place.table slot + 128 ∨ place.table slot + 128 + 128 ≤ addr :=
      hspares
    apply Memory.load_store_of_disjoint
    change _ ≤ place.table slot + 128 ∨ place.table slot + 128 + _ ≤ addr
    omega
  | putHeader slot header =>
    apply Memory.load_store_of_disjoint
    rwa [CommandHeader.length_encode]

theorem byte_write_of_spares {addr : Nat} (hspares : place.Spares write addr 1) (memory : Memory) :
    (place.write write memory).byte addr = memory.byte addr := by
  have hsame := load_write_of_spares hspares memory
  simpa [Memory.load] using hsame

/-! What a write spares. -/

/-- Every write reaches the front of the table of its slot, the back of it, or the header of its
slot. -/
theorem reach (place : CommandMemory) (write : CommandWrite) :
    (place.start write = place.table write.slot ∧ write.room = 128) ∨
      (place.start write = place.table write.slot + 128 ∧ write.room = 128) ∨
      (place.start write = place.header write.slot ∧ write.room = 32) := by
  cases write with
  | prepare => exact .inl ⟨rfl, rfl⟩
  | putEntries => exact .inr (.inl ⟨rfl, rfl⟩)
  | putHeader => exact .inr (.inr ⟨rfl, rfl⟩)

theorem spares_table_of_ne (hother : slot ≠ write.slot) (hinside : offset + count ≤ 256) :
    place.Spares write (place.table slot + offset) count := by
  have hhead := place.bounds write.slot
  have hthere := place.bounds slot
  have hdiffer := Fin.val_ne_of_ne hother
  unfold Spares
  rcases place.reach write with hreach | hreach | hreach <;> omega

theorem spares_header_of_ne (hother : slot ≠ write.slot) (hinside : offset + count ≤ 32) :
    place.Spares write (place.header slot + offset) count := by
  have hhead := place.bounds write.slot
  have hthere := place.bounds slot
  have hdiffer := Fin.val_ne_of_ne hother
  unfold Spares
  rcases place.reach write with hreach | hreach | hreach <;> omega

/-- A write spares everything outside of the command list and the tables. -/
theorem spares_beyond {addr : Nat} (hlist : addr < place.list ∨ place.list + 1024 ≤ addr)
    (htables : addr < place.tables ∨ place.tables + 8192 ≤ addr) : place.Spares write addr 1 := by
  have hhead := place.bounds write.slot
  unfold Spares
  rcases place.reach write with hreach | hreach | hreach <;> omega

theorem spares_table_of_header (other slot : Fin slotCount) (header : CommandHeader)
    (hinside : offset + count ≤ 256) :
    place.Spares (.putHeader other header) (place.table slot + offset) count := by
  have hhead := place.bounds other
  have hthere := place.bounds slot
  change _ ≤ place.header other ∨ place.header other + 32 ≤ _
  omega

/-- The front of a table is spared by every write that does not prepare it. -/
theorem spares_front (hsilent : write.prepared? slot = none) (hinside : offset + count ≤ 128) :
    place.Spares write (place.table slot + offset) count := by
  by_cases hsame : write.slot = slot
  · subst hsame
    cases write with
    | prepare mine fis cdb => simp [CommandWrite.prepared?, CommandWrite.slot] at hsilent
    | putEntries mine entries hfew =>
      left
      change place.table mine + _ + _ ≤ place.table mine + 128
      omega
    | putHeader mine header => exact spares_table_of_header mine mine header (by omega)
  · exact spares_table_of_ne (Ne.symm hsame) (by omega)

/-- The entries of a table are spared by every write that puts none into it. -/
theorem spares_back (hsilent : ∀ entries hfew, write ≠ .putEntries slot entries hfew)
    (hbehind : 128 ≤ offset) (hinside : offset + count ≤ 256) :
    place.Spares write (place.table slot + offset) count := by
  by_cases hsame : write.slot = slot
  · subst hsame
    cases write with
    | prepare mine fis cdb =>
      right
      change place.table mine + 128 ≤ place.table mine + _
      omega
    | putEntries mine entries hfew => exact absurd rfl (hsilent entries hfew)
    | putHeader mine header => exact spares_table_of_header mine mine header hinside
  · exact spares_table_of_ne (Ne.symm hsame) hinside

/-- A header is spared by every write that does not put another one into its place. -/
theorem spares_header (hsilent : write.header? slot = none) :
    place.Spares write (place.header slot) 32 := by
  have hhead := place.bounds slot
  cases write with
  | prepare mine fis cdb =>
    have hthere := place.bounds mine
    change _ ≤ place.table mine ∨ place.table mine + 128 ≤ _
    omega
  | putEntries mine entries hfew =>
    have hthere := place.bounds mine
    change _ ≤ place.table mine + 128 ∨ place.table mine + 128 + 128 ≤ _
    omega
  | putHeader mine header =>
    have hdiffer : slot ≠ mine := by
      rintro rfl
      simp [CommandWrite.header?] at hsilent
    have hspares : place.Spares (.putHeader mine header) (place.header slot + 0) 32 :=
      spares_header_of_ne hdiffer (by decide)
    exact hspares

/-! What is read back behind one write. -/

/-- The frame read from a table behind one write: the one it prepares there, or the one before. -/
theorem fis_write (place : CommandMemory) (slot : Fin slotCount) (write : CommandWrite)
    (memory : Memory) :
    CommandTable.fis (place.table slot) (place.write write memory) =
      ((write.prepared? slot).map (·.1)).getD (CommandTable.fis (place.table slot) memory) := by
  cases htold : write.prepared? slot with
  | none =>
    have hspares : place.Spares write (place.table slot + 0) 20 := spares_front htold (by decide)
    exact congrArg HostFis.decode (load_write_of_spares hspares memory)
  | some front =>
    obtain ⟨fis, cdb⟩ := front
    rw [CommandWrite.eq_prepare_of_prepared? htold]
    exact CommandTable.fis_prepare _ fis cdb memory

/-- The packet read from a table behind one write: the one it prepares there, sixteen zeros if it
prepares none, or the one before. -/
theorem cdb_write (place : CommandMemory) (slot : Fin slotCount) (write : CommandWrite)
    (memory : Memory) :
    CommandTable.cdb (place.table slot) (place.write write memory) =
      ((write.prepared? slot).map (·.2.getD (.ofBytes (List.replicate 16 0)))).getD
        (CommandTable.cdb (place.table slot) memory) := by
  cases htold : write.prepared? slot with
  | none =>
    have hspares : place.Spares write (place.table slot + 64) 16 := spares_front htold (by decide)
    exact congrArg Cdb.ofBytes (load_write_of_spares hspares memory)
  | some front =>
    obtain ⟨fis, cdb⟩ := front
    rw [CommandWrite.eq_prepare_of_prepared? htold]
    cases cdb with
    | none => exact CommandTable.cdb_prepare_none _ fis memory
    | some cdb => exact CommandTable.cdb_prepare_some _ fis cdb memory

theorem gap_write (place : CommandMemory) (slot : Fin slotCount) (write : CommandWrite)
    (memory : Memory) (hgap : (20 ≤ offset ∧ offset < 64) ∨ (80 ≤ offset ∧ offset < 128)) :
    (place.write write memory).byte (place.table slot + offset) =
      ((write.prepared? slot).map fun _ => 0).getD (memory.byte (place.table slot + offset)) := by
  cases htold : write.prepared? slot with
  | none => exact byte_write_of_spares (spares_front htold (by omega)) memory
  | some front =>
    obtain ⟨fis, cdb⟩ := front
    rw [CommandWrite.eq_prepare_of_prepared? htold]
    exact CommandTable.byte_prepare _ fis cdb memory hgap

/-- An entry read from a table behind one write: the one it puts there, or the one before, also if
the write prepares the table or puts fewer entries. -/
theorem entry_write (place : CommandMemory) (slot : Fin slotCount) (write : CommandWrite)
    (memory : Memory) {index : Nat} (hbound : index < 8) :
    CommandTable.entry (place.table slot) index (place.write write memory) =
      (write.entry? slot index).getD (CommandTable.entry (place.table slot) index memory) := by
  have hspared (hsilent : ∀ entries hfew, write ≠ .putEntries slot entries hfew) :
      CommandTable.entry (place.table slot) index (place.write write memory) =
        CommandTable.entry (place.table slot) index memory := by
    have hspares : place.Spares write (place.table slot + (128 + index * 16)) 16 :=
      spares_back hsilent (by omega) (by omega)
    rw [← Nat.add_assoc] at hspares
    exact congrArg ScatterEntry.decode (load_write_of_spares hspares memory)
  cases write with
  | prepare => exact hspared nofun
  | putHeader => exact hspared nofun
  | putEntries other entries hfew =>
    by_cases hsame : other = slot
    · rw [CommandWrite.entry?, if_pos hsame, hsame]
      by_cases hwithin : index < entries.length
      · rw [List.getElem?_eq_getElem hwithin]
        exact CommandTable.entry_writeEntries _ index entries memory hwithin
      · rw [List.getElem?_eq_none (Nat.le_of_not_lt hwithin)]
        exact CommandTable.entry_writeEntries_of_le _ memory (Nat.le_of_not_lt hwithin)
    · rw [CommandWrite.entry?, if_neg hsame]
      apply hspared
      rintro _ _ ⟨⟩
      exact hsame rfl

theorem header_write (place : CommandMemory) (slot : Fin slotCount) (write : CommandWrite)
    (memory : Memory) :
    CommandList.header place.list slot (place.write write memory) =
      (write.header? slot).getD (CommandList.header place.list slot memory) := by
  cases htold : write.header? slot with
  | none => exact congrArg CommandHeader.decode (load_write_of_spares (spares_header htold) memory)
  | some header =>
    rw [CommandWrite.eq_putHeader_of_header? htold]
    exact CommandList.header_writeHeader _ slot header memory

/-- If a view of memory behind one write is what the write told of it, or as before, then behind a
history it is what the newest write that told of it did. -/
theorem read_after {α : Type} (read : Memory → α) {told? : CommandWrite → Option α}
    (hstep : ∀ write memory, read (place.write write memory) = (told? write).getD (read memory))
    (history : List CommandWrite) (memory : Memory) :
    read (place.after history memory) = (history.findSome? told?).getD (read memory) :=
  Memory.read_foldr read (fun write _ => hstep write) memory

/-- What the places of a slot hold behind a history of writes over what they held before it: the
newest write to each place decides, and a place without one is as before. The fronts of tables that
were ever prepared have zeros between and behind frame and packet. -/
structure Shows (place : CommandMemory) (slot : Fin slotCount) (history : List CommandWrite)
    (before after : Memory) : Prop where
  fis : CommandTable.fis (place.table slot) after =
    match history.findSome? (CommandWrite.prepared? slot) with
    | some (fis, _) => fis
    | none => CommandTable.fis (place.table slot) before
  cdb : CommandTable.cdb (place.table slot) after =
    match history.findSome? (CommandWrite.prepared? slot) with
    | some (_, some cdb) => cdb
    | some (_, none) => .ofBytes (List.replicate 16 0)
    | none => CommandTable.cdb (place.table slot) before
  /-- Between and behind frame and packet command, a prepared table is zero. -/
  gap : ∀ fis cdb, .prepare slot fis cdb ∈ history → ∀ offset,
    (20 ≤ offset ∧ offset < 64) ∨ (80 ≤ offset ∧ offset < 128) →
      after.byte (place.table slot + offset) = 0
  entry : ∀ index < 8, CommandTable.entry (place.table slot) index after =
    (history.findSome? (CommandWrite.entry? slot index)).getD
      (CommandTable.entry (place.table slot) index before)
  header : CommandList.header place.list slot after =
    (history.findSome? (CommandWrite.header? slot)).getD
      (CommandList.header place.list slot before)

/-- What a write leaves as it is: everything outside of its own part of the memory, and with it the
tables and headers of all other slots, and the entries of a table that is prepared. -/
structure Frames (place : CommandMemory) (write : CommandWrite) (before after : Memory) :
    Prop where
  part : ∀ addr, addr < place.start write ∨ place.start write + write.room ≤ addr →
    after.byte addr = before.byte addr
  tables : ∀ slot ≠ write.slot, ∀ offset < 256,
    after.byte (place.table slot + offset) = before.byte (place.table slot + offset)
  headers : ∀ slot ≠ write.slot, ∀ offset < 32,
    after.byte (place.header slot + offset) = before.byte (place.header slot + offset)
  /-- The scatter entries of every table outlive that a table is prepared. -/
  entries : ∀ slot fis cdb, write = .prepare slot fis cdb → ∀ other offset,
    128 ≤ offset → offset < 256 →
      after.byte (place.table other + offset) = before.byte (place.table other + offset)
  /-- Whatever is put into the command list, all that lies behind its headers is as before. -/
  beyond : ∀ addr, addr < place.list ∨ place.list + 1024 ≤ addr →
    addr < place.tables ∨ place.tables + 8192 ≤ addr → after.byte addr = before.byte addr

theorem shows_after (place : CommandMemory) (slot : Fin slotCount) (history : List CommandWrite)
    (memory : Memory) : place.Shows slot history memory (place.after history memory) := by
  have htold {α : Type} (f : HostFis × Option Cdb → α) :
      history.findSome? (fun write => (write.prepared? slot).map f) =
        (history.findSome? (CommandWrite.prepared? slot)).map f := List.map_findSome?.symm
  constructor
  · rw [read_after _ (place.fis_write slot), htold]
    cases history.findSome? (CommandWrite.prepared? slot) <;> rfl
  · rw [read_after _ (place.cdb_write slot), htold]
    rcases history.findSome? (CommandWrite.prepared? slot) with _ | ⟨fis, _ | cdb⟩ <;> rfl
  · intro fis cdb hmember offset hgap
    rw [read_after (·.byte (place.table slot + offset))
      (fun write memory => place.gap_write slot write memory hgap), htold]
    cases hlast : history.findSome? (CommandWrite.prepared? slot) with
    | some front => rfl
    | none =>
      have hsilent := List.findSome?_eq_none_iff.1 hlast _ hmember
      simp [CommandWrite.prepared?] at hsilent
  · intro index hbound
    apply read_after
    exact fun write memory => place.entry_write slot write memory hbound
  · exact read_after _ (place.header_write slot) history memory

theorem frames_write (place : CommandMemory) (write : CommandWrite) (memory : Memory) :
    place.Frames write memory (place.write write memory) := by
  constructor
  · intro addr houtside
    apply byte_write_of_spares
    unfold Spares
    omega
  · intro slot hother offset hinside
    exact byte_write_of_spares (spares_table_of_ne hother hinside) memory
  · intro slot hother offset hinside
    exact byte_write_of_spares (spares_header_of_ne hother hinside) memory
  · rintro slot fis cdb rfl other offset hbehind hinside
    refine byte_write_of_spares (spares_back ?_ hbehind hinside) memory
    rintro _ _ ⟨⟩
  · intro addr hlist htables
    exact byte_write_of_spares (spares_beyond hlist htables) memory

/-- For every layout of the command memory and every history of writes, in any order and to any
slots. Every slot shows, in each of its places, what the newest write to that place left there, or
what was there before the history if there is none. And each further write leaves everything outside
of its own part as it is. What lies behind the entries last put into a table stays from earlier
writes. -/
theorem last_writes_read_back (place : CommandMemory) (history : List CommandWrite)
    (memory : Memory) :
    (∀ slot, place.Shows slot history memory (place.after history memory)) ∧
      ∀ write, place.Frames write (place.after history memory)
        (place.after (write :: history) memory) :=
  ⟨fun slot => place.shows_after slot history memory,
    fun write => place.frames_write write (place.after history memory)⟩

end CommandMemory

/-! The commands of an engine. -/

/-- Where the commands of a port lie, on areas that do not overlap. -/
def PortAreas.commands (areas : PortAreas) (layout : areas.Layout) : CommandMemory where
  list := areas.list.address 0
  tables := areas.tables.address 0
  apart := layout.listTables.imp (Nat.le_trans (Nat.add_le_add_left (by decide) _)) id

/-- To build a command is a history of three writes: the front of its table, its entries, and its
header. -/
theorem Engine.build_eq_after (engine : Engine) (hlayout : engine.areas.Layout)
    (slot : Fin slotCount) (command : Command) {entries : List ScatterEntry}
    (hfew : entries.length ≤ ScatterList.capacity) (memory : Memory) :
    engine.build slot command entries memory =
      (engine.areas.commands hlayout).after
        [.putHeader slot (engine.headerOf slot command entries), .putEntries slot entries hfew,
          .prepare slot command.fis command.cdb] memory := rfl

end Ahci
