import Ahci.Proofs.CommandHandover
import Ahci.Proofs.DriveAnswers

/-!
How far a device reaches into memory. A command that was fetched is confined if each piece of
memory it describes lies in the staging area of its direction; whatever a drive does with such
a command, it changes nothing outside of that area. The commands that the driver builds are
confined, and building one changes nothing but the command list and the tables.
-/

namespace Ahci

/-- A run of addresses lies within a region; a run of none lies wherever its address does. -/
def Region.Covers (region : Region) (addr count : Nat) : Prop :=
  region.address 0 ≤ addr ∧ addr + count ≤ region.address region.size

namespace Memory

/-- Every byte that one memory has different from another lies in one of some regions. -/
def ChangesWithin (regions : List Region) (before after : Memory) : Prop :=
  ∀ addr, (∀ region ∈ regions, ¬ region.Covers addr 1) → after.byte addr = before.byte addr

namespace ChangesWithin

variable {regions more : List Region} {first second third : Memory}

theorem refl (regions : List Region) (memory : Memory) : ChangesWithin regions memory memory :=
  fun _ _ => rfl

theorem trans (hearly : ChangesWithin regions first second)
    (hlate : ChangesWithin regions second third) : ChangesWithin regions first third :=
  fun addr houtside => (hlate addr houtside).trans (hearly addr houtside)

theorem mono (hchanges : ChangesWithin regions first second)
    (hsubset : ∀ region ∈ regions, region ∈ more) : ChangesWithin more first second :=
  fun addr houtside => hchanges addr fun region hmember => houtside region (hsubset region hmember)

theorem store {region : Region} (hmember : region ∈ regions) (memory : Memory) {addr : Nat}
    {bytes : List UInt8} (hinside : region.Covers addr bytes.length) :
    ChangesWithin regions memory (memory.store addr bytes) := by
  intro other houtside
  have hapart : ¬ (addr ≤ other ∧ other - addr < bytes.length) := by
    intro hhead
    apply houtside region hmember
    unfold Region.Covers at hinside ⊢
    omega
  rw [byte_store, dif_neg hapart]

theorem zero {region : Region} (hmember : region ∈ regions) (memory : Memory) {addr count : Nat}
    (hinside : region.Covers addr count) :
    ChangesWithin regions memory (memory.zero addr count) := by
  intro other houtside
  have hapart : ¬ (addr ≤ other ∧ other < addr + count) := by
    intro hhead
    apply houtside region hmember
    unfold Region.Covers at hinside ⊢
    omega
  rw [byte_zero, if_neg hapart]

/-- What lies outside of all the regions is read as before. -/
theorem load (hchanges : ChangesWithin regions first second) {addr count : Nat}
    (houtside : ∀ region ∈ regions,
      addr + count ≤ region.address 0 ∨ region.address region.size ≤ addr) :
    second.load addr count = first.load addr count := by
  apply load_congr
  intro i hinside
  apply hchanges
  intro region hmember hcovered
  have hapart := houtside region hmember
  unfold Region.Covers at hcovered
  omega

end ChangesWithin

end Memory

/-! Confined commands. -/

namespace FetchedCommand

/-- The staging area of the direction in which a command moves data: the write area for a command
that takes data, the read area for any other. -/
def staging (command : FetchedCommand) (areas : PortAreas) : Region :=
  if command.isWrite then areas.write else areas.read

/-- A fetched command that describes no memory outside of its staging area: it has at most 8
entries, as many as its header says, and each is a whole number of words, of at most 8192 bytes, and
within the area. -/
structure Confined (command : FetchedCommand) (areas : PortAreas) : Prop where
  few : command.entryCount ≤ 8
  length : command.entries.length = command.entryCount
  pieces : ∀ entry ∈ command.entries, entry.bytes % 2 = 0 ∧ entry.bytes ≤ 8192 ∧
    (command.staging areas).Covers entry.address.toNat entry.bytes

end FetchedCommand

/-- Data spread over entries within a region changes nothing outside of the region. -/
theorem changesWithin_scatterData {region : Region} {entries : List ScatterEntry}
    (hinside : ∀ entry ∈ entries, region.Covers entry.address.toNat entry.bytes)
    (data : List UInt8) (memory : Memory) :
    Memory.ChangesWithin [region] memory (scatterData entries data memory) := by
  induction entries generalizing data memory with
  | nil => exact .refl _ memory
  | cons entry rest ih =>
    rw [List.forall_mem_cons] at hinside
    have hshort := List.length_take_le entry.bytes data
    have hcovers : region.Covers entry.address.toNat (data.take entry.bytes).length := by
      have hwhole := hinside.1
      unfold Region.Covers at hwhole ⊢
      omega
    have hfirst := Memory.ChangesWithin.store (List.mem_singleton.2 rfl) memory hcovers
    exact hfirst.trans (ih hinside.2 _ _)

/-- However a drive ends a command, what it does to memory is to spread some data over the entries
of the command, perhaps none. -/
theorem Drive.exists_scatterData (drive : Drive) (command : FetchedCommand) (memory : Memory) :
    ∃ data, (drive.run command memory).2.2 = scatterData command.entries data memory := by
  have hnothing : ∃ data, memory = scatterData command.entries data memory :=
    ⟨[], (scatterData_nil _ memory).symm⟩
  unfold run
  split
  · exact hnothing
  · exact hnothing
  · unfold runSound
    split
    · unfold runAta
      dsimp only
      repeat' split
      all_goals first | exact hnothing | exact ⟨_, rfl⟩
    · split
      · unfold runPacket
        dsimp only
        repeat' split
        all_goals first | exact hnothing | exact ⟨_, rfl⟩
      · exact hnothing
    · exact hnothing

/-- A drive that runs a confined command changes no memory outside of its staging area, whatever the
command asks for and however it ends. -/
theorem FetchedCommand.Confined.changesWithin_run {command : FetchedCommand} {areas : PortAreas}
    (hconfined : command.Confined areas) (drive : Drive) (memory : Memory) :
    Memory.ChangesWithin [command.staging areas] memory (drive.run command memory).2.2 := by
  obtain ⟨data, hran⟩ := drive.exists_scatterData command memory
  rw [hran]
  exact changesWithin_scatterData (fun entry hmember => (hconfined.pieces entry hmember).2.2) _ _

/-! The commands that are built. -/

/-- The entries built for a transfer into an area of 64 KiB lie within that area, each a whole
number of words and of at most 8192 bytes. -/
theorem ScatterList.covers_of_build {area : Region} {bytes : Nat} {interrupt : Bool}
    {entries : List ScatterEntry} (hsize : area.size = 65536)
    (hwithin : area.base.toNat + 65536 ≤ PhysAddr.space)
    (hformed : build (area.physAt 0) bytes interrupt = .ok entries) :
    ∀ entry ∈ entries, entry.bytes % 2 = 0 ∧ entry.bytes ≤ 8192 ∧
      area.Covers entry.address.toNat entry.bytes := by
  obtain ⟨hfits, hpieces⟩ := build_eq_ok hformed
  have heven : bytes % 2 = 0 := by
    unfold build at hformed
    split at hformed
    · cases hformed
    · split at hformed
      · cases hformed
      · next heven => exact Classical.not_not.1 heven
  intro entry hmember
  rw [hpieces] at hmember
  obtain ⟨index, hbelow, rfl⟩ := List.mem_map.1 hmember
  rw [List.mem_range] at hbelow
  simp only [maxBytes, pieceSize, capacity] at hfits hbelow
  have hlong : (piece (area.physAt 0) bytes interrupt index).bytes =
      min 8192 (bytes - index * 8192) := by
    apply ScatterEntry.bytes_make
    · simp only [pieceSize]
      omega
    · simp only [pieceSize, ScatterEntry.extentRange]
      omega
  have hplace : (piece (area.physAt 0) bytes interrupt index).address.toNat =
      area.base.toNat + index * 8192 := by
    rw [piece, ScatterEntry.address_make, PhysAddr.toNat_add_of_lt, Engine.physAt_zero]
    · rfl
    · rw [Engine.physAt_zero]
      simp only [pieceSize]
      omega
  rw [hlong, hplace]
  unfold Region.Covers Region.address
  omega

namespace Engine

variable {engine : Engine} {slot : Nat} {command : Command} {entries : List ScatterEntry}

/-- A command that the driver built is confined as the device fetches it, in every slot. -/
theorem confined_fetched (hsized : engine.areas.Sized) (hlayout : engine.areas.Layout)
    (hformed : engine.scatter command = .ok entries) :
    (command.fetched slot entries).Confined engine.areas := by
  have hpieces : entries.length ≤ 8 ∧ ∀ entry ∈ entries, entry.bytes % 2 = 0 ∧
      entry.bytes ≤ 8192 ∧ ((command.fetched slot entries).staging engine.areas).Covers
        entry.address.toNat entry.bytes := by
    unfold FetchedCommand.staging Command.fetched
    cases hdirection : command.data with
    | none =>
      rw [scatter, hdirection] at hformed
      cases hformed
      simp
    | toHost bytes =>
      rw [scatter, hdirection] at hformed
      exact ⟨(ScatterList.length_build hformed).2,
        ScatterList.covers_of_build hsized.size_read hlayout.read hformed⟩
    | fromHost bytes =>
      rw [scatter, hdirection] at hformed
      exact ⟨(ScatterList.length_build hformed).2,
        ScatterList.covers_of_build hsized.size_write hlayout.write hformed⟩
  exact ⟨hpieces.1, rfl, hpieces.2⟩

/-- Building a command in a slot changes nothing but the command list and the command tables. -/
theorem changesWithin_build (hsized : engine.areas.Sized) (hlayout : engine.areas.Layout)
    (hbound : slot < slotCount) (hfew : entries.length ≤ ScatterList.capacity) (memory : Memory) :
    Memory.ChangesWithin [engine.areas.list, engine.areas.tables] memory
      (engine.build slot command entries memory) := by
  intro addr houtside
  obtain ⟨_, hlow, hhigh⟩ := tables_layout hlayout hbound
  simp only [List.forall_mem_cons, List.not_mem_nil, false_implies, implies_true, and_true,
    Region.Covers, Region.address, hsized.size_list, hsized.size_tables] at houtside
  have hloaded : (engine.build slot command entries memory).load addr 1 = memory.load addr 1 := by
    apply load_build_of_disjoint command memory hfew
    · omega
    · simp only [slotCount] at hbound
      simp only [Region.address, CommandList.offset, CommandHeader.size]
      omega
  simpa [Memory.load] using hloaded

end Engine

/-- A slot whose header tells of no entries holds a confined command, whatever its table holds. -/
theorem FetchedCommand.confined_of_header (areas : PortAreas) {list slot : Nat}
    {table : PhysAddr} {memory : Memory}
    (hheader : CommandList.header list slot memory = .make table 0 0) :
    (fetch list slot memory).Confined areas := by
  have hcount : (fetch list slot memory).entryCount = 0 := by
    rw [fetch, hheader]
    rfl
  have hentries : (fetch list slot memory).entries = [] := by
    rw [fetch, hheader]
    rfl
  constructor
  · rw [hcount]
    exact Nat.zero_le 8
  · rw [hcount, hentries]
    rfl
  · rw [hentries]
    simp

/-- What is fetched of a slot depends on its header and on its command table only, as far as the
header says that the table has entries. -/
theorem FetchedCommand.fetch_congr {list slot table : Nat} {before after : Memory}
    (hpoints : (CommandList.header list slot before).tableAddress.toNat = table)
    (hfew : (fetch list slot before).entryCount ≤ ScatterList.capacity)
    (hheader : CommandList.header list slot after = CommandList.header list slot before)
    (hcontent : ∀ offset count, offset + count ≤ CommandTable.size →
      after.load (table + offset) count = before.load (table + offset) count) :
    fetch list slot after = fetch list slot before := by
  have hframe : after.load table HostFis.size = before.load table HostFis.size :=
    hcontent 0 HostFis.size (by decide)
  have hpacket : CommandTable.cdb table after = CommandTable.cdb table before :=
    congrArg Cdb.ofBytes (hcontent CommandTable.packetOffset Cdb.size (by decide))
  have hcount : (CommandList.header list slot before).entries.toNat ≤ ScatterList.capacity := hfew
  have hentries : CommandTable.entries table (CommandList.header list slot before).entries.toNat
        after =
      CommandTable.entries table (CommandList.header list slot before).entries.toNat before := by
    apply List.map_congr_left
    intro index hmember
    have hbelow := List.mem_range.1 hmember
    have hinside : CommandTable.scatterOffset + index * ScatterEntry.size + ScatterEntry.size ≤
        CommandTable.size := by
      simp only [ScatterList.capacity] at hcount
      simp only [CommandTable.scatterOffset, ScatterEntry.size, CommandTable.size]
      omega
    have hsame := hcontent (CommandTable.scatterOffset + index * ScatterEntry.size)
      ScatterEntry.size hinside
    rw [← Nat.add_assoc] at hsame
    exact congrArg ScatterEntry.decode hsame
  simp only [fetch, hheader, hpoints, hframe, hpacket, hentries]

end Ahci
