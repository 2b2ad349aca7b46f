import Ahci.Proofs.CallActs
import Ahci.Proofs.CallRoutines
import Ahci.Proofs.DeviceReach
import Ahci.Proofs.StaleMemory

/-!
The memory of a port in one place or in another. Twins are two ports with two drivers that know
the same, whose devices hold the same and whose staging areas do, wherever in memory these lie. A
drive that is given the same data does the same with a command wherever the pieces of it lie, so a
command ends on both alike; and by induction over what a call is made of so does every call, and
leaves twins behind.
-/

namespace Ahci

variable {τ α β : Type}

/-! Drives. -/

namespace Drive

/-- The same drive with some ranges recorded as discarded before all others. -/
def withPast (drive : Drive) (past : List Span) : Drive :=
  { drive with discarded := drive.discarded ++ past }

theorem takeFault_withPast (drive : Drive) (past : List Span) (opcode : UInt8) :
    (drive.withPast past).takeFault opcode =
      (drive.takeFault opcode).map fun (fault, left) => (fault, left.withPast past) := by
  have hfaults : (drive.withPast past).faults = drive.faults := rfl
  unfold takeFault
  rw [hfaults]
  cases drive.faults.find? (·.1 == opcode) <;> rfl

variable {drive : Drive} {command : FetchedCommand} {memory other : Memory}
  {entries : List ScatterEntry}

/-- What a drive makes of two commands that move their data between entries of their own: it ends
both alike, is left the same but for ranges recorded before, and spreads the same data over the
entries of each. -/
def RunsAlike (entries others : List ScatterEntry) (memory other : Memory) (past : List Span)
    (one two : Ending × Drive × Memory) : Prop :=
  ∃ ending left data, one = (ending, left, scatterData entries data memory) ∧
    two = (ending, left.withPast past, scatterData others data other)

/-- A drive that answers nothing changes neither memory, and so runs alike. -/
theorem RunsAlike.of_silent (entries others : List ScatterEntry) (memory other : Memory)
    (past : List Span) (ending : Ending) (left : Drive) :
    RunsAlike entries others memory other past (ending, left, memory)
      (ending, left.withPast past, other) :=
  ⟨ending, left, [], by rw [scatterData_nil], by rw [scatterData_nil]⟩

theorem runsAlike_runAta (past : List Span)
    (hsame : gatherData entries other = gatherData command.entries memory) :
    RunsAlike command.entries entries memory other past (drive.runAta command memory)
      ((drive.withPast past).runAta { command with entries } other) := by
  have hmedium : (drive.withPast past).medium = drive.medium := rfl
  unfold runAta
  dsimp only
  rw [hsame, hmedium]
  split
  · exact ⟨_, _, _, rfl, rfl⟩
  · split
    · by_cases hholds : drive.medium.holds command.fis.lba.toNat command.fis.count.toNat = true
      · rw [if_pos hholds, if_pos hholds]
        exact ⟨_, _, _, rfl, rfl⟩
      · rw [if_neg hholds, if_neg hholds]
        exact .of_silent _ _ _ _ past _ drive
    · split
      · by_cases hholds : drive.medium.holds command.fis.lba.toNat command.fis.count.toNat = true
        · rw [if_pos hholds, if_pos hholds]
          exact .of_silent _ _ _ _ past _ { drive with medium := _ }
        · rw [if_neg hholds, if_neg hholds]
          exact .of_silent _ _ _ _ past _ drive
      · split
        · have hlonger : (drive.withPast past).discarded = drive.discarded ++ past := rfl
          rw [hlonger, ← List.append_assoc]
          exact .of_silent _ _ _ _ past _ { drive with discarded := _ }
        · exact .of_silent _ _ _ _ past _ drive

theorem runsAlike_runPacket (cdb : Cdb) (entries others : List ScatterEntry) (past : List Span) :
    RunsAlike entries others memory other past (drive.runPacket cdb entries memory)
      ((drive.withPast past).runPacket cdb others other) := by
  have hmedium : (drive.withPast past).medium = drive.medium := rfl
  have htray : (drive.withPast past).trayOpen = drive.trayOpen := rfl
  unfold runPacket
  dsimp only
  rw [hmedium, htray]
  split
  · exact ⟨_, _, _, rfl, rfl⟩
  · split
    · exact ⟨_, { drive with pendingSense := none }, _, rfl, rfl⟩
    · split
      · by_cases hopened : drive.trayOpen = true
        · rw [if_pos hopened, if_pos hopened]
          exact .of_silent _ _ _ _ past _ drive
        · rw [if_neg hopened, if_neg hopened]
          by_cases hholds : drive.medium.holds cdb.readLba cdb.readBlocks = true
          · rw [if_pos hholds, if_pos hholds]
            exact ⟨_, _, _, rfl, rfl⟩
          · rw [if_neg hholds, if_neg hholds]
            exact .of_silent _ _ _ _ past _ drive
      · split
        · split
          · exact .of_silent _ _ _ _ past _ { drive with trayOpen := true }
          · exact .of_silent _ _ _ _ past _ drive
        · split <;> exact .of_silent _ _ _ _ past _ drive

/-- A drive does the same with the same command wherever its data lies in memory, as long as the
data gathered is the same, and whatever ranges it recorded before. -/
theorem runsAlike_run (drive : Drive) (command : FetchedCommand) (past : List Span)
    (hsame : gatherData entries other = gatherData command.entries memory) :
    RunsAlike command.entries entries memory other past (drive.run command memory)
      ((drive.withPast past).run { command with entries } other) := by
  unfold run
  dsimp only
  rw [takeFault_withPast]
  rcases drive.takeFault command.fis.opcode with _ | ⟨error | sense, left⟩
  · unfold runSound
    have hkind : (drive.withPast past).kind = drive.kind := rfl
    rw [hkind]
    dsimp only
    split
    · exact runsAlike_runAta past hsame
    · split
      · exact runsAlike_runPacket _ _ _ past
      · exact .of_silent _ _ _ _ past _ drive
    · exact .of_silent _ _ _ _ past _ drive
  · exact .of_silent _ _ _ _ past _ left
  · exact .of_silent _ _ _ _ past _ left

end Drive

/-! Staging areas in two places. -/

namespace Memory

/-- Two memories hold the same in areas of 64 KiB that may lie in different places. -/
def Agree (here there : Region) (one two : Memory) : Prop :=
  ∀ offset < 65536, two.byte (there.address offset) = one.byte (here.address offset)

namespace Agree

variable {here there : Region} {one two first second : Memory}

theorem load (hagree : Agree here there one two) {count : Nat} (hfits : count ≤ 65536) :
    two.load (there.address 0) count = one.load (here.address 0) count := by
  apply List.map_congr_left
  intro offset hmember
  exact hagree offset (Nat.lt_of_lt_of_le (List.mem_range.1 hmember) hfits)

theorem store (hagree : Agree here there one two) (offset : Nat) (bytes : List UInt8) :
    Agree here there (one.store (here.address offset) bytes)
      (two.store (there.address offset) bytes) := by
  intro place hwithin
  simp only [byte_store, Region.address, Nat.add_le_add_iff_left, Nat.add_sub_add_left]
  split
  · rfl
  · exact hagree place hwithin

theorem zero (hagree : Agree here there one two) (offset count : Nat) :
    Agree here there (one.zero (here.address offset) count)
      (two.zero (there.address offset) count) := by
  intro place hwithin
  simp only [byte_zero, Region.address, Nat.add_assoc, Nat.add_le_add_iff_left,
    Nat.add_lt_add_iff_left]
  split
  · rfl
  · exact hagree place hwithin

end Agree

/-- Changes within some regions are not seen in a region apart from all of them. -/
theorem ChangesWithin.untouched {regions : List Region} {before after : Memory}
    (hchanges : ChangesWithin regions before after) {region : Region}
    (hapart : ∀ other ∈ regions, region.Apart other) {offset : Nat}
    (hwithin : offset < region.size) :
    after.byte (region.address offset) = before.byte (region.address offset) := by
  apply hchanges
  intro other hmember hcovers
  have hsplit := hapart other hmember
  unfold Region.Apart at hsplit
  unfold Region.Covers at hcovers
  unfold Region.address at hsplit hcovers
  omega

/-- Areas still agree behind changes in regions apart from them, which may differ on both sides. -/
theorem Agree.of_changes {here there : Region} {regions others : List Region}
    {one two first second : Memory} (hagree : Agree here there one two)
    (hsize : here.size = 65536) (hsize' : there.size = 65536)
    (hleft : ChangesWithin regions one first) (hright : ChangesWithin others two second)
    (hapart : ∀ other ∈ regions, here.Apart other)
    (hapart' : ∀ other ∈ others, there.Apart other) : Agree here there first second := by
  intro offset hwithin
  rw [hleft.untouched hapart (by rwa [hsize]), hright.untouched hapart' (by rwa [hsize']),
    hagree offset hwithin]

end Memory

theorem Region.Apart.symm {first second : Region} (hapart : first.Apart second) :
    second.Apart first :=
  Or.symm hapart

namespace PortAreas

/-- On sound areas the staging areas lie apart from the command list, from the tables and from each
other. -/
theorem Sound.staging {areas : PortAreas} (hsound : areas.Sound) :
    (∀ other ∈ [areas.list, areas.tables], areas.read.Apart other) ∧
      (∀ other ∈ [areas.list, areas.tables], areas.write.Apart other) ∧
      areas.read.Apart areas.write := by
  have hapart := hsound.apart
  simp only [regions, List.pairwise_cons, List.forall_mem_cons, List.not_mem_nil,
    false_implies, implies_true, and_true, List.Pairwise.nil] at hapart ⊢
  obtain ⟨⟨_, hlistRead, hlistWrite⟩, ⟨htablesRead, htablesWrite⟩, hreadWrite⟩ := hapart
  exact ⟨⟨hlistRead.symm, htablesRead.symm⟩, ⟨hlistWrite.symm, htablesWrite.symm⟩, hreadWrite⟩

/-- Areas of the sizes that the driver asks for, in sound memory. -/
structure Fit (areas : PortAreas) : Prop where
  sized : areas.Sized
  sound : areas.Sound

theorem Fit.layout {areas : PortAreas} (hfit : areas.Fit) : areas.Layout :=
  hfit.sound.layout hfit.sized

/-- Building a command changes the command list and the tables only, so no staging area. -/
theorem Fit.changesWithin_build {engine : Engine} (hfit : engine.areas.Fit) {command : Command}
    {entries : List ScatterEntry} (hformed : engine.scatter command = .ok entries)
    (memory : Memory) :
    Memory.ChangesWithin [engine.areas.list, engine.areas.tables] memory
      (engine.build 0 command entries memory) := by
  have hfirst : 0 < slotCount := by decide
  have hfew := (Engine.transfer_run hfit.layout hfirst hformed memory).1
  exact Engine.changesWithin_build hfit.sized hfit.layout hfirst hfew memory

/-- Both staging areas of one port hold what those of another hold. -/
structure Agree (areas others : PortAreas) (one two : Memory) : Prop where
  read : Memory.Agree areas.read others.read one two
  write : Memory.Agree areas.write others.write one two

namespace Agree

variable {areas others : PortAreas} {one two first second : Memory}
  (hagree : areas.Agree others one two) (hhead : areas.Fit) (hthere : others.Fit)
include hagree hhead hthere

/-- Changes to the command lists and tables leave staging areas that agree. -/
theorem of_lists (hleft : Memory.ChangesWithin [areas.list, areas.tables] one first)
    (hright : Memory.ChangesWithin [others.list, others.tables] two second) :
    areas.Agree others first second where
  read := hagree.read.of_changes hhead.sized.size_read hthere.sized.size_read hleft hright
    hhead.sound.staging.1 hthere.sound.staging.1
  write := hagree.write.of_changes hhead.sized.size_write hthere.sized.size_write hleft hright
    hhead.sound.staging.2.1 hthere.sound.staging.2.1

/-- Changes to the read areas leave staging areas that agree, if the read areas agree behind
them. -/
theorem of_read (hleft : Memory.ChangesWithin [areas.read] one first)
    (hright : Memory.ChangesWithin [others.read] two second)
    (hsame : Memory.Agree areas.read others.read first second) :
    areas.Agree others first second where
  read := hsame
  write := hagree.write.of_changes hhead.sized.size_write hthere.sized.size_write hleft hright
    (by simpa using hhead.sound.staging.2.2.symm) (by simpa using hthere.sound.staging.2.2.symm)

/-- Changes to the write areas leave staging areas that agree, if the write areas agree behind
them. -/
theorem of_write (hleft : Memory.ChangesWithin [areas.write] one first)
    (hright : Memory.ChangesWithin [others.write] two second)
    (hsame : Memory.Agree areas.write others.write first second) :
    areas.Agree others first second where
  read := hagree.read.of_changes hhead.sized.size_read hthere.sized.size_read hleft hright
    (by simpa using hhead.sound.staging.2.2) (by simpa using hthere.sound.staging.2.2)
  write := hsame

end Agree

end PortAreas

/-! Ports in two places. -/

namespace SimulatedPort

/-- Two ports alike but for the addresses in their registers, for what they fetched, and for ranges
that the second one recorded before all others. -/
structure Twins (here there : PortAreas) (past : List Span) (one two : SimulatedPort) : Prop where
  registers : ∃ status file issued, one.registers = here.registers status file issued ∧
    two.registers = there.registers status file issued
  drive : two.drive = one.drive.withPast past
  busy : two.busy = one.busy
  stalled : two.stalled = one.stalled

namespace Twins

variable {here there : PortAreas} {past : List Span} {one two : SimulatedPort}
  (htwins : Twins here there past one two)
include htwins

theorem rested : Twins here there past (one.rested here) (two.rested there) :=
  ⟨⟨0, idleFile, 0, rfl, rfl⟩, htwins.drive, htwins.busy, htwins.stalled⟩

theorem begun : Twins here there past (one.begun here) (two.begun there) :=
  ⟨⟨0, idleFile, 1, rfl, rfl⟩, htwins.drive, htwins.busy, htwins.stalled⟩

theorem served (command other : FetchedCommand) (ending : Ending) (drive : Drive) :
    Twins here there past (one.served here command ending drive)
      (two.served there other ending (drive.withPast past)) := by
  refine ⟨?_, by cases ending <;> rfl, htwins.busy, htwins.stalled⟩
  cases ending with
  | done => exact ⟨1, idleFile, 0, showEnding_done here, showEnding_done there⟩
  | taskFile error =>
    exact ⟨Word.set 0 StatusBit.taskFile, failedFile error.toNat, 1, rfl, rfl⟩
  | checkCondition sense =>
    exact ⟨Word.set 0 StatusBit.taskFile, failedFile (16 * sense.key.toNat), 1, rfl, rfl⟩

theorem switch (switch : Switch) :
    Twins here there past (switch.apply one) (switch.apply two) := by
  obtain ⟨hregisters, hdrive, hbusy, hstalled⟩ := htwins
  cases switch with
  | inject opcode fault =>
    exact ⟨hregisters, by simp only [Switch.apply, hdrive]; rfl, hbusy, hstalled⟩
  | busy on => exact ⟨hregisters, hdrive, rfl, hstalled⟩
  | stall on => exact ⟨hregisters, hdrive, hbusy, rfl⟩

end Twins

end SimulatedPort

namespace Engine

/-- The engine of the same port on other memory. -/
def movedTo (engine : Engine) (areas : PortAreas) : Engine :=
  { engine with areas }

variable {engine : Engine} {areas : PortAreas} {past : List Span} {owing : Bool}

/-- A twin of a steady port is steady under the engine moved to its areas. -/
theorem Steady.twin {one two : SimulatedPort} (hsteady : engine.Steady one)
    (htwins : one.Twins engine.areas areas past two) : (engine.movedTo areas).Steady two := by
  refine ⟨hsteady.free, hsteady.patient, ?_, ?_⟩
  · obtain ⟨status, file, issued, hshown, hlikewise⟩ := htwins.registers
    obtain ⟨quiet, hsound, hwaits⟩ := hsteady.registers
    have hsame := hshown.symm.trans hwaits
    have hstatus : status = quiet := congrArg PortRegisters.is hsame
    have hfile : file = SimulatedPort.idleFile := congrArg PortRegisters.tfd hsame
    have hissued : issued = 0 := congrArg PortRegisters.ci hsame
    rw [hstatus, hfile, hissued] at hlikewise
    exact ⟨quiet, hsound, hlikewise⟩
  · rw [htwins.stalled]
    exact hsteady.bounded

/-- Twins with their memories in the middle of a call. The staging areas agree, and the ports are
steady, or will be once they are restarted if a restart is owed. -/
structure Twinned (engine : Engine) (areas : PortAreas) (past : List Span) (owing : Bool)
    (one two : Machine SimulatedPort) : Prop where
  ports : one.device.Twins engine.areas areas past two.device
  rested : engine.Steady (one.device.rested engine.areas)
  steady : owing = false → engine.Steady one.device
  staging : engine.areas.Agree areas one.memory two.memory

variable {one two : Machine SimulatedPort}

theorem twinned_told {sense : Option SenseData} :
    (engine.told sense).Twinned areas past owing one two ↔
      engine.Twinned areas past owing one two := by
  constructor
  · intro htwinned
    exact ⟨htwinned.ports, steady_told.1 htwinned.rested,
      fun hpaid => steady_told.1 (htwinned.steady hpaid), htwinned.staging⟩
  · intro htwinned
    exact ⟨htwinned.ports, steady_told.2 htwinned.rested,
      fun hpaid => steady_told.2 (htwinned.steady hpaid), htwinned.staging⟩

/-! The data of a command. -/

variable {command : Command} {entries others : List ScatterEntry}

/-- Whether the data of a command can be described, and by how many entries, does not depend on
where it lies. -/
theorem scatter_movedTo (engine : Engine) (areas : PortAreas) (command : Command) :
    (∃ error, engine.scatter command = .error error ∧
        (engine.movedTo areas).scatter command = .error error) ∨
      ∃ entries others, engine.scatter command = .ok entries ∧
        (engine.movedTo areas).scatter command = .ok others ∧ others.length = entries.length := by
  have hbuild (here there : PhysAddr) (bytes : Nat) (interrupt : Bool) :
      (∃ error, ScatterList.build here bytes interrupt = .error error ∧
          ScatterList.build there bytes interrupt = .error error) ∨
        ∃ entries others, ScatterList.build here bytes interrupt = .ok entries ∧
          ScatterList.build there bytes interrupt = .ok others ∧
          others.length = entries.length := by
    unfold ScatterList.build
    split
    · exact .inl ⟨_, rfl, rfl⟩
    · split
      · exact .inl ⟨_, rfl, rfl⟩
      · split
        · exact .inl ⟨_, rfl, rfl⟩
        · exact .inr ⟨_, _, rfl, rfl, by simp⟩
  unfold scatter
  cases command.data with
  | none => exact .inr ⟨[], [], rfl, rfl, rfl⟩
  | toHost bytes => exact hbuild _ _ bytes _
  | fromHost bytes => exact hbuild _ _ bytes _

variable (hhead : engine.areas.Fit) (hthere : areas.Fit)
  (hformed : engine.scatter command = .ok entries)
  (hreformed : (engine.movedTo areas).scatter command = .ok others)
include hhead hthere hformed hreformed

/-- What a device gathers for a command is what was staged, wherever the staging area lies. -/
theorem gatherData_movedTo {one two : Memory} (hagree : engine.areas.Agree areas one two) :
    gatherData others ((engine.movedTo areas).build 0 command others two) =
      gatherData entries (engine.build 0 command entries one) := by
  have hfirst : 0 < slotCount := by decide
  have hfits {area : Region} {bytes : Nat}
      (hcut : ScatterList.build (area.physAt 0) bytes command.interrupt = .ok entries) :
      bytes ≤ 65536 := (ScatterList.build_eq_ok hcut).1
  rw [(transfer_run hhead.layout hfirst hformed one).2.1,
    (transfer_run hthere.layout hfirst hreformed two).2.1, payload, payload]
  cases hdirection : command.data with
  | none => rfl
  | toHost bytes =>
    rw [scatter, hdirection] at hformed
    exact hagree.read.load (hfits hformed)
  | fromHost bytes =>
    rw [scatter, hdirection] at hformed
    exact hagree.write.load (hfits hformed)

/-- The same data sent to both staging areas leaves areas that agree. -/
theorem agree_scatterData {one two : Memory} (hagree : engine.areas.Agree areas one two)
    (data : List UInt8) :
    engine.areas.Agree areas (scatterData entries data one) (scatterData others data two) := by
  have hfirst : 0 < slotCount := by decide
  have hnear : (command.fetched 0 entries).Confined engine.areas :=
    confined_fetched hhead.sized hhead.layout hformed
  have hfar : (command.fetched 0 others).Confined areas :=
    confined_fetched hthere.sized hthere.layout hreformed
  have hleft := changesWithin_scatterData (fun entry hmember => (hnear.pieces entry hmember).2.2)
    data one
  have hright := changesWithin_scatterData (fun entry hmember => (hfar.pieces entry hmember).2.2)
    data two
  have hspread := (transfer_run hhead.layout hfirst hformed one).2.2 data one
  have hrespread := (transfer_run hthere.layout hfirst hreformed two).2.2 data two
  rw [deliver] at hspread hrespread
  rw [FetchedCommand.staging, Command.fetched] at hleft hright
  cases hdirection : command.data with
  | none =>
    rw [hdirection] at hspread hrespread
    rw [hspread, hrespread]
    exact hagree
  | toHost bytes =>
    rw [hdirection] at hleft hright hspread hrespread
    refine hagree.of_read hhead hthere hleft hright ?_
    rw [hspread, hrespread]
    exact hagree.read.store 0 _
  | fromHost bytes =>
    rw [hdirection] at hleft hright hspread hrespread
    refine hagree.of_write hhead hthere hleft hright ?_
    rw [hspread, hrespread]
    exact hagree.write.store 0 _

end Engine

/-! Calls in two places. -/

/-- A command that leaves no restart owed was carried out. -/
theorem Ending.eq_done_of_unowed {ending : Ending} {packet : Bool}
    (hunowed : CommandError.owes (ending.outcome packet) = false) : ending = .done := by
  cases ending with
  | done => rfl
  | taskFile error => cases packet <;> cases hunowed
  | checkCondition sense => cases packet <;> cases hunowed

/-- How one step ends on twins: with the same value or the same reason to halt, with the same sense
brought, and on twins again. A step that halts owes no restart. -/
inductive Engine.EndTwinned (engine : Engine) (areas : PortAreas) (past : List Span)
    (owing : Bool) :
    Except Halt (α × Engine) × World SimulatedPort →
      Except Halt (α × Engine) × World SimulatedPort → Prop
  | done {a : α} {later last : World SimulatedPort} (sense : Option SenseData)
      (htwinned : engine.Twinned areas past owing later.machine last.machine) :
      EndTwinned engine areas past owing (.ok (a, engine.told sense), later)
        (.ok (a, (engine.movedTo areas).told sense), last)
  | gaveUp {reason : Halt} {later last : World SimulatedPort}
      (htwinned : engine.Twinned areas past false later.machine last.machine) :
      EndTwinned engine areas past owing (.error reason, later) (.error reason, last)

namespace EngineM

/-- A step that ends alike on twins, from a state that owes a restart or not to one that owes a
restart or not. -/
def Relocatable (before after : Bool) (step : EngineM SimulatedPort α) : Prop :=
  ∀ (engine : Engine) (areas : PortAreas) (past : List Span) (one two : World SimulatedPort),
    engine.areas.Fit → areas.Fit →
    engine.Twinned areas past before one.machine two.machine →
    engine.EndTwinned areas past after (step.exec engine one) (step.exec (engine.movedTo areas) two)

namespace Relocatable

variable {before between after owing : Bool}

theorem pure (a : α) : Relocatable owing owing (pure a : EngineM SimulatedPort α) :=
  fun _ _ _ _ _ _ _ htwinned => .done none htwinned

theorem look {f : Engine → α} (hplaceless : Engine.Placeless f) :
    Relocatable owing owing (f <$> get : EngineM SimulatedPort α) := by
  intro engine areas past one two _ _ htwinned
  have hsame : f (engine.movedTo areas) = f engine := hplaceless engine areas
  have hlooked : (f <$> get : EngineM SimulatedPort α).exec (engine.movedTo areas) two =
      (.ok (f engine, engine.movedTo areas), two) := by
    rw [← hsame]
    rfl
  rw [hlooked]
  exact .done none htwinned

theorem note (severity : Severity) (text : Engine → String) :
    Relocatable owing owing (withEngine fun engine =>
      (HostM.note severity (text engine) : HostM SimulatedPort Unit)) := by
  intro engine areas past one two _ _ htwinned
  rw [exec_withEngine_ok (HostM.exec_note _ _ one), exec_withEngine_ok (HostM.exec_note _ _ two)]
  exact .done none htwinned

theorem require (condition : Bool) (reason : Halt) :
    Relocatable false false (onHost (HostM.require condition reason) :
      EngineM SimulatedPort Unit) := by
  intro engine areas past one two _ _ htwinned
  rw [exec_onHost, exec_onHost, HostM.exec_require, HostM.exec_require]
  cases condition with
  | true => exact .done none htwinned
  | false => exact .gaveUp htwinned

theorem readStaging (count : Nat) :
    Relocatable false false (readStaging count : EngineM SimulatedPort _) := by
  intro engine areas past one two hhead hthere htwinned
  have hread (engine : Engine) (hfit : engine.areas.Fit) (world : World SimulatedPort) :
      (EngineM.readStaging count : EngineM SimulatedPort _).exec engine world =
        if count ≤ 65536 then
          (.ok (world.memory.load (engine.areas.read.address 0) count, engine), world)
        else (.error .outOfBounds, world) := by
    rw [EngineM.readStaging, exec_withEngine, exec_onHost]
    dsimp only
    rw [hfit.sized.size_read, HostM.exec_bind, HostM.exec_require]
    by_cases hfits : count ≤ 65536
    · rw [decide_eq_true hfits, if_pos hfits]
      rfl
    · rw [decide_eq_false hfits, if_neg hfits]
      rfl
  rw [hread engine hhead, hread (engine.movedTo areas) hthere]
  split
  next hfits =>
    have hsame : two.memory.load (areas.read.address 0) count =
        one.memory.load (engine.areas.read.address 0) count := htwinned.staging.read.load hfits
    change Engine.EndTwinned _ _ _ _ _ (.ok (two.memory.load (areas.read.address 0) count, _), _)
    rw [hsame]
    exact .done none htwinned
  next => exact .gaveUp htwinned

theorem fill (bytes : List UInt8) (count : Nat) :
    Relocatable false false (fillStaging bytes count : EngineM SimulatedPort _) := by
  intro engine areas past one two hhead hthere htwinned
  have hsize : (engine.movedTo areas).areas.write.size = engine.areas.write.size :=
    hthere.sized.size_write.trans hhead.sized.size_write.symm
  by_cases hroom : count ≤ engine.areas.write.size ∧ bytes.length ≤ count
  · have hroom' := hroom
    rw [← hsize] at hroom'
    rw [exec_fillStaging_ok hroom.1 hroom.2, exec_fillStaging_ok hroom'.1 hroom'.2]
    refine .done none ⟨htwinned.ports, htwinned.rested, htwinned.steady, ?_⟩
    have hfilled {areas : PortAreas} (hroom : count ≤ areas.write.size) (memory : Memory) :
        Memory.ChangesWithin [areas.write] memory
          ((memory.store (areas.write.address 0) bytes).zero (areas.write.address bytes.length)
            (count - bytes.length)) := by
      have hmember : areas.write ∈ [areas.write] := List.mem_singleton.2 rfl
      refine (Memory.ChangesWithin.store hmember memory ?_).trans (.zero hmember _ ?_)
      all_goals
        unfold Region.Covers Region.address
        omega
    exact htwinned.staging.of_write hhead hthere (hfilled hroom.1 one.memory)
      (hfilled hroom'.1 two.memory)
      ((htwinned.staging.write.store 0 bytes).zero bytes.length _)
  · have hroom' := hroom
    rw [← hsize] at hroom'
    rw [exec_fillStaging_error hroom, exec_fillStaging_error hroom']
    exact .gaveUp htwinned

theorem remember (sense : SenseData) : Relocatable owing owing
    (modify fun engine => { engine with lastSense := some sense } : EngineM SimulatedPort _) :=
  fun _ _ _ _ _ _ _ htwinned => .done (some sense) htwinned

theorem bind {step : EngineM SimulatedPort α} {next : α → EngineM SimulatedPort β}
    (hfirst : Relocatable before between step) (hsecond : ∀ a, Relocatable between after (next a)) :
    Relocatable before after (step >>= next) := by
  intro engine areas past one two hhead hthere htwinned
  have hearly := hfirst engine areas past one two hhead hthere htwinned
  rcases hended : step.exec engine one with ⟨reason | ⟨a, left⟩, middle⟩ <;>
    rcases hlikewise : step.exec (engine.movedTo areas) two with ⟨reason_ | ⟨b, right⟩, center⟩ <;>
    rw [hended, hlikewise] at hearly <;> cases hearly
  case gaveUp hsettled =>
    rw [exec_bind_error hended, exec_bind_error hlikewise]
    exact .gaveUp hsettled
  case done sense hsettled =>
    rw [exec_bind_ok hended, exec_bind_ok hlikewise]
    have hlate := hsecond a (engine.told sense) areas past middle center hhead hthere
      (Engine.twinned_told.2 hsettled)
    change Engine.EndTwinned _ _ _ _ _ ((next a).exec ((engine.told sense).movedTo areas) center)
    generalize (next a).exec (engine.told sense) middle = first at hlate ⊢
    generalize (next a).exec ((engine.told sense).movedTo areas) center = second at hlate ⊢
    cases hlate with
    | done more htwinned =>
      rw [engine.told_told]
      change Engine.EndTwinned _ _ _ _ _
        (.ok (_, ((engine.movedTo areas).told sense).told more), _)
      rw [Engine.told_told]
      exact .done _ (Engine.twinned_told.1 htwinned)
    | gaveUp htwinned => exact .gaveUp (Engine.twinned_told.1 htwinned)

theorem restart : Relocatable owing false
    (withEngine Engine.recover : EngineM SimulatedPort Unit) := by
  intro engine areas past one two _ _ htwinned
  obtain ⟨status, file, issued, hshown, hlikewise⟩ := htwinned.ports.registers
  obtain ⟨later, hended, haround, _⟩ :=
    Engine.yields_recover htwinned.rested.patient hshown one.memory one rfl
  have hpatient : 0 < (engine.movedTo areas).limit := htwinned.rested.patient
  obtain ⟨last, hended', haround', _⟩ := Engine.yields_recover hpatient hlikewise two.memory two rfl
  rw [exec_withEngine_ok hended, exec_withEngine_ok hended']
  refine .done none ?_
  rw [haround, haround']
  exact ⟨htwinned.ports.rested, htwinned.rested.rested, fun _ => htwinned.rested, htwinned.staging⟩

end Relocatable

variable {engine : Engine} {areas : PortAreas} {past : List Span}
  {one two : Machine SimulatedPort}

/-- One command on twins has the same outcome on both: it cannot be described, or both devices are
busy, or both leave it pending, or both run it, and then on the same data. It may have been issued
or not; behind it a restart may be owed. -/
theorem exists_runCommand_twinned (hhead : engine.areas.Fit) (hthere : areas.Fit)
    (htwinned : engine.Twinned areas past false one two) (command : Command) :
    ∃ outcome after last m n,
      (runCommand command).Yields engine one (.ok (outcome, engine)) after m ∧
      (runCommand command).Yields (engine.movedTo areas) two
        (.ok (outcome, engine.movedTo areas)) last n ∧
      engine.Twinned areas past (CommandError.owes outcome) after last := by
  obtain ⟨port, memory⟩ := one
  obtain ⟨twin, other⟩ := two
  have hsteady := htwinned.steady rfl
  have hmoved := hsteady.twin htwinned.ports
  rcases engine.scatter_movedTo areas command with
    ⟨error, hmalformed, hlikewise⟩ | ⟨entries, others, hformed, hreformed, hlong⟩
  · exact ⟨_, _, _, 0, 0, yields_runCommand_of_malformed hsteady hmalformed memory,
      yields_runCommand_of_malformed hmoved hlikewise other, htwinned⟩
  let building := engine.build 0 command entries memory
  let rebuilding := (engine.movedTo areas).build 0 command others other
  have hrebuilt : Memory.ChangesWithin [areas.list, areas.tables] other rebuilding :=
    hthere.changesWithin_build hreformed other
  have hbuilt : engine.areas.Agree areas building rebuilding :=
    htwinned.staging.of_lists hhead hthere (hhead.changesWithin_build hformed memory) hrebuilt
  cases hbusy : port.busy with
  | true =>
    refine ⟨_, _, _, 0, 0, yields_runCommand_of_busy hsteady hformed hbusy memory,
      yields_runCommand_of_busy hmoved hreformed (htwinned.ports.busy.trans hbusy) other, ?_⟩
    exact ⟨htwinned.ports.rested, hsteady.rested.rested, fun _ => hsteady.rested, hbuilt⟩
  | false =>
    have hprompt := htwinned.ports.busy.trans hbusy
    cases hstalled : port.stalled with
    | true =>
      refine ⟨_, _, _, 1, 1, yields_runCommand_of_stalled hsteady hformed hbusy hstalled memory,
        yields_runCommand_of_stalled hmoved hreformed hprompt
          (htwinned.ports.stalled.trans hstalled)
          other, ?_⟩
      exact ⟨htwinned.ports.begun, hsteady.rested, nofun, hbuilt⟩
    | false =>
      have hmoving := htwinned.ports.stalled.trans hstalled
      have hgathered : gatherData others rebuilding = gatherData entries building :=
        Engine.gatherData_movedTo hhead hthere hformed hreformed htwinned.staging
      obtain ⟨ending, left, data, hran, hagain⟩ :=
        port.drive.runsAlike_run (command.fetched 0 entries) past hgathered
      have hreran : twin.drive.run (command.fetched 0 others) rebuilding =
          (ending, left.withPast past, scatterData others data rebuilding) := by
        have hdrive : twin.drive = port.drive.withPast past := htwinned.ports.drive
        rw [hdrive, Command.fetched, hlong]
        exact hagain
      refine ⟨_, _, _, 1, 1,
        yields_runCommand_of_run hsteady hhead.layout ⟨hbusy, hstalled⟩ hformed hran,
        yields_runCommand_of_run hmoved hthere.layout ⟨hprompt, hmoving⟩ hreformed hreran, ?_⟩
      refine ⟨htwinned.ports.served _ _ ending left,
        (Engine.serves_rested hsteady _ ending left).steady, fun hpaid => ?_,
        Engine.agree_scatterData hhead hthere hformed hreformed hbuilt data⟩
      rw [Ending.eq_done_of_unowed hpaid]
      exact (Engine.serves_served hsteady _ left).steady

namespace Relocatable

/-- A command followed by what its outcome calls for ends alike on twins. -/
theorem run {owing : Bool} (command : Command)
    {next : Except CommandError Unit → EngineM SimulatedPort α}
    (hrest : ∀ outcome, Relocatable (CommandError.owes outcome) owing (next outcome)) :
    Relocatable false owing (runCommand command >>= next) := by
  intro engine areas past one two hhead hthere htwinned
  obtain ⟨outcome, after, last, _, _, hyields, hlikewise, hsettled⟩ :=
    exists_runCommand_twinned hhead hthere htwinned command
  obtain ⟨later, hended, rfl, _⟩ := hyields one rfl
  obtain ⟨final, hended', rfl, _⟩ := hlikewise two rfl
  rw [exec_bind_ok hended, exec_bind_ok hended']
  exact hrest outcome engine areas past later final hhead hthere hsettled

end Relocatable

/-- Every routine ends alike on twins, by induction over how it is put together. -/
theorem Routine.relocatable [Device τ] {before after : Bool} {step : EngineM SimulatedPort α}
    {twin : EngineM τ α} (hroutine : Routine before after step twin) :
    Relocatable before after step := by
  induction hroutine with
  | pure a => exact .pure a
  | look hplaceless => exact .look hplaceless
  | note severity _ => exact .note severity _
  | require condition reason => exact .require condition reason
  | readStaging count => exact .readStaging count
  | fill bytes count => exact .fill bytes count
  | remember sense => exact .remember sense
  | run command _ ih => exact .run command ih
  | restart => exact .restart
  | bind _ _ hfirst hsecond => exact hfirst.bind hsecond

end EngineM

end Ahci
