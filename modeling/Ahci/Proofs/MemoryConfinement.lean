import Ahci.Proofs.DeviceReach
import Ahci.Proofs.PortHistories
import Ahci.Proofs.RegisterFootprint
import Ahci.Proofs.Runs

/-!
The memory of a port and its device, over every run. From its bring-up on a port knows where
its command list is, every header points at the table of its slot, and what lies in each of
the slots is a confined command. Whatever the device is made to fetch is therefore confined
too, and it cannot change the list or the tables; the driver changes them by confined commands
only. So the same holds after every event of every run, whatever is queued, shown or left
pending by the device.
-/

namespace Ahci

namespace PortAreas

/-- How a device with its memory stands since its port was brought up: the base registers hold the
addresses they were given, every header points at the table of its slot, every command that lies in
a slot or was fetched since is confined, and memory outside of the areas is as it was. -/
structure Confines (areas : PortAreas) (ready later : Machine SimulatedPort) : Prop where
  list : later.device.listAddress = areas.list.base.toNat
  received : later.device.receivedAddress = areas.list.base.toNat + 1024
  headers : ∀ slot < slotCount, (CommandList.header areas.list.base.toNat slot
    later.memory).tableAddress.toNat = areas.tables.base.toNat + 256 * slot
  /-- The commands that lie in the slots, whether they were issued or not. -/
  commands : ∀ slot < slotCount,
    (FetchedCommand.fetch areas.list.base.toNat slot later.memory).Confined areas
  fetched : ∃ made, later.device.fetched = made ++ ready.device.fetched ∧
    ∀ command ∈ made, command.Confined areas
  elsewhere : Memory.ChangesWithin areas.regions ready.memory later.memory

namespace Confines

variable {areas : PortAreas} {ready : Machine SimulatedPort} {port other : SimulatedPort}
  {memory changed : Memory}

/-- Changes of the device that move neither base address and fetch nothing keep it confined. -/
theorem device (hconfines : areas.Confines ready ⟨port, memory⟩)
    (hlist : other.listAddress = port.listAddress)
    (hreceived : other.receivedAddress = port.receivedAddress)
    (hfetched : other.fetched = port.fetched) : areas.Confines ready ⟨other, memory⟩ where
  list := hlist.trans hconfines.list
  received := hreceived.trans hconfines.received
  headers := hconfines.headers
  commands := hconfines.commands
  fetched := by
    obtain ⟨made, hcame, hconfined⟩ := hconfines.fetched
    exact ⟨made, hfetched.trans hcame, hconfined⟩
  elsewhere := hconfines.elsewhere

theorem tableOf_eq (areas : PortAreas) (slot : Nat) :
    areas.tableOf slot = areas.tables.base.toNat + 256 * slot := by
  rw [PortAreas.tableOf, CommandTable.offset, Nat.mul_comm]
  rfl

/-- What lies in a slot depends on its header and on its table only. -/
theorem slot_congr (hconfines : areas.Confines ready ⟨port, memory⟩) (changed : Memory)
    {slot : Nat} (hbound : slot < slotCount)
    (hheader : changed.load (areas.list.base.toNat + 32 * slot) 32 =
      memory.load (areas.list.base.toNat + 32 * slot) 32)
    (htable : ∀ offset count, offset + count ≤ 256 →
      changed.load (areas.tables.base.toNat + 256 * slot + offset) count =
        memory.load (areas.tables.base.toNat + 256 * slot + offset) count) :
    CommandList.header areas.list.base.toNat slot changed =
        CommandList.header areas.list.base.toNat slot memory ∧
      FetchedCommand.fetch areas.list.base.toNat slot changed =
        FetchedCommand.fetch areas.list.base.toNat slot memory := by
  rw [Nat.mul_comm] at hheader
  have hsame : CommandList.header areas.list.base.toNat slot changed =
      CommandList.header areas.list.base.toNat slot memory :=
    congrArg CommandHeader.decode hheader
  exact ⟨hsame, FetchedCommand.fetch_congr (hconfines.headers slot hbound)
    (hconfines.commands slot hbound).few hsame htable⟩

/-- Changes in the staging areas keep a device confined, since they are not seen in the slots. -/
theorem staged (hconfines : areas.Confines ready ⟨port, memory⟩) (hsized : areas.Sized)
    (hlayout : areas.Layout)
    (hchanges : Memory.ChangesWithin [areas.read, areas.write] memory changed) :
    areas.Confines ready ⟨port, changed⟩ := by
  have houtside (addr count : Nat)
      (hinside : (areas.list.base.toNat ≤ addr ∧ addr + count ≤ areas.list.base.toNat + 4096) ∨
        (areas.tables.base.toNat ≤ addr ∧ addr + count ≤ areas.tables.base.toNat + 8192)) :
      changed.load addr count = memory.load addr count := by
    apply hchanges.load
    obtain ⟨_, _, _, _, _, hlistRead, hlistWrite, htablesRead, htablesWrite, _⟩ := hlayout
    simp only [List.forall_mem_cons, List.not_mem_nil, false_implies, implies_true, and_true,
      Region.address, hsized.size_read, hsized.size_write]
    omega
  have hsame {slot : Nat} (hbound : slot < slotCount) :=
    hconfines.slot_congr changed hbound
      (houtside _ _ (by simp only [slotCount] at hbound; omega))
      (fun offset count hshort => houtside _ _ (by simp only [slotCount] at hbound; omega))
  constructor
  · exact hconfines.list
  · exact hconfines.received
  · intro slot hbound
    rw [(hsame hbound).1]
    exact hconfines.headers slot hbound
  · intro slot hbound
    rw [(hsame hbound).2]
    exact hconfines.commands slot hbound
  · exact hconfines.fetched
  · refine hconfines.elsewhere.trans (hchanges.mono ?_)
    simp [regions]

/-- A device that runs the command of any slot stays confined: it fetches a confined command, and
changes nothing outside of its staging area. -/
theorem execute (hconfines : areas.Confines ready ⟨port, memory⟩) (hsized : areas.Sized)
    (hlayout : areas.Layout) {slot : Nat} (hbound : slot < slotCount) :
    areas.Confines ready ⟨(port.execute slot memory).1, (port.execute slot memory).2⟩ := by
  let command := FetchedCommand.fetch port.listAddress slot memory
  have hconfined : command.Confined areas := by
    have hlies := hconfines.commands slot hbound
    rwa [← hconfines.list] at hlies
  have hchanges : Memory.ChangesWithin [areas.read, areas.write] memory
      (port.execute slot memory).2 := by
    refine (hconfined.changesWithin_run port.drive memory).mono ?_
    intro region hmember
    rw [List.mem_singleton.1 hmember, FetchedCommand.staging]
    split <;> simp
  have hran := hconfines.staged hsized hlayout hchanges
  have hkept : (port.execute slot memory).1.listAddress = port.listAddress ∧
      (port.execute slot memory).1.receivedAddress = port.receivedAddress := by
    unfold SimulatedPort.execute SimulatedPort.listAddress SimulatedPort.receivedAddress
    dsimp only
    cases (port.drive.run _ memory).1 <;> exact ⟨rfl, rfl⟩
  refine ⟨hkept.1.trans hran.list, hkept.2.trans hran.received, hran.headers, hran.commands, ?_,
    hran.elsewhere⟩
  obtain ⟨made, hcame, hrest⟩ := hconfines.fetched
  refine ⟨command :: made, congrArg (command :: ·) hcame, ?_⟩
  exact List.forall_mem_cons.2 ⟨hconfined, hrest⟩

theorem issueSlot (hconfines : areas.Confines ready ⟨port, memory⟩) (hsized : areas.Sized)
    (hlayout : areas.Layout) {slot : Nat} (hbound : slot < slotCount) :
    areas.Confines ready ⟨(port.issueSlot slot memory).1, (port.issueSlot slot memory).2⟩ := by
  have hshown : areas.Confines ready ⟨port.update fun registers =>
      { registers with ci := Word.set registers.ci slot }, memory⟩ :=
    hconfines.device rfl rfl rfl
  unfold SimulatedPort.issueSlot
  dsimp only
  split
  · exact hshown
  · exact hshown.execute hsized hlayout hbound

/-- A device that is shown any set of slots, whatever lies in them, stays confined. -/
theorem issue (hconfines : areas.Confines ready ⟨port, memory⟩) (hsized : areas.Sized)
    (hlayout : areas.Layout) (value : UInt32) :
    areas.Confines ready ⟨(port.issue value memory).1, (port.issue value memory).2⟩ := by
  have heach (slots : List Nat) (hbound : ∀ slot ∈ slots, slot < slotCount) {port : SimulatedPort}
      {memory : Memory} (hconfines : areas.Confines ready ⟨port, memory⟩) :
      let issued := slots.foldl (fun state slot => state.1.issueSlot slot state.2) (port, memory)
      areas.Confines ready ⟨issued.1, issued.2⟩ := by
    induction slots generalizing port memory with
    | nil => exact hconfines
    | cons slot slots ih =>
      rw [List.forall_mem_cons] at hbound
      exact ih hbound.2 (hconfines.issueSlot hsized hlayout hbound.1)
  unfold SimulatedPort.issue
  split
  · apply heach _ _ hconfines
    intro slot hmember
    exact List.mem_range.1 (List.mem_filter.1 hmember).1
  · exact hconfines

/-- A write to any register other than the four base addresses keeps a device confined, whatever
value is written. -/
theorem writeRegister (hconfines : areas.Confines ready ⟨port, memory⟩) (hsized : areas.Sized)
    (hlayout : areas.Layout) {offset : Nat} (value : UInt32)
    (helsewhere : offset ∉ [PortRegister.clb, PortRegister.clbu, PortRegister.fb,
      PortRegister.fbu]) :
    areas.Confines ready ⟨(port.writeRegister offset value memory).1,
      (port.writeRegister offset value memory).2⟩ := by
  simp only [List.mem_cons, List.not_mem_nil, or_false, not_or] at helsewhere
  obtain ⟨hnoList, hnoListHigh, hnoReceived, hnoReceivedHigh⟩ := helsewhere
  unfold SimulatedPort.writeRegister
  rw [if_neg hnoList, if_neg hnoListHigh, if_neg hnoReceived, if_neg hnoReceivedHigh]
  have hcommand (registers : PortRegisters) :
      (SimulatedPort.writeCommand registers value).clb = registers.clb ∧
        (SimulatedPort.writeCommand registers value).clbu = registers.clbu ∧
        (SimulatedPort.writeCommand registers value).fb = registers.fb ∧
        (SimulatedPort.writeCommand registers value).fbu = registers.fbu := by
    unfold SimulatedPort.writeCommand
    dsimp only
    split <;> exact ⟨rfl, rfl, rfl, rfl⟩
  repeat' split
  · exact hconfines.device rfl rfl rfl
  · exact hconfines.device rfl rfl rfl
  · exact hconfines.device rfl rfl rfl
  · obtain ⟨hclb, hclbu, hfb, hfbu⟩ := hcommand port.registers
    apply hconfines.device
    · simp only [SimulatedPort.listAddress, SimulatedPort.update, hclb, hclbu]
    · simp only [SimulatedPort.receivedAddress, SimulatedPort.update, hfb, hfbu]
    · rfl
  · exact hconfines.issue hsized hlayout value
  · exact hconfines

/-- Building a command in a slot leaves a confined command there and does not touch the other
slots. -/
theorem build {engine : Engine} (hconfines : engine.areas.Confines ready ⟨port, memory⟩)
    (hsized : engine.areas.Sized) (hlayout : engine.areas.Layout) {slot : Nat}
    (hbound : slot < slotCount) {command : Command} {entries : List ScatterEntry}
    (hformed : engine.scatter command = .ok entries) :
    engine.areas.Confines ready ⟨port, engine.build slot command entries memory⟩ := by
  let built := engine.build slot command entries memory
  have hfew := (Engine.transfer_run hlayout hbound hformed memory).1
  have hheader : CommandList.header engine.areas.list.base.toNat slot built =
      engine.headerOf slot command entries := CommandList.header_writeHeader _ _ _ _
  have hfetched : FetchedCommand.fetch engine.areas.list.base.toNat slot built =
      command.fetched slot entries := Engine.fetch_build hlayout hbound command hfew memory
  have huntouched (addr count : Nat)
      (htable : addr + count ≤ engine.areas.tables.base.toNat + 256 * slot ∨
        engine.areas.tables.base.toNat + 256 * slot + 256 ≤ addr)
      (hheader : addr + count ≤ engine.areas.list.base.toNat + 32 * slot ∨
        engine.areas.list.base.toNat + 32 * slot + 32 ≤ addr) :
      built.load addr count = memory.load addr count := by
    rw [← tableOf_eq] at htable
    rw [Nat.mul_comm] at hheader
    exact Engine.load_build_of_disjoint command memory hfew htable hheader
  have hapart := hlayout.listTables
  have hsame {other : Nat} (hlow : other < slotCount) (hne : other ≠ slot) :=
    hconfines.slot_congr built hlow
      (by
        simp only [slotCount] at hbound hlow
        apply huntouched <;> omega)
      (fun offset count hshort => by
        simp only [slotCount] at hbound hlow
        apply huntouched <;> omega)
  constructor
  · exact hconfines.list
  · exact hconfines.received
  · intro other hlow
    by_cases hhead : other = slot
    · subst hhead
      rw [hheader, Engine.tableAddress_headerOf hlayout hbound, tableOf_eq]
    · rw [(hsame hlow hhead).1]
      exact hconfines.headers other hlow
  · intro other hlow
    by_cases hhead : other = slot
    · subst hhead
      rw [hfetched]
      exact Engine.confined_fetched hsized hlayout hformed
    · rw [(hsame hlow hhead).2]
      exact hconfines.commands other hlow
  · exact hconfines.fetched
  · have hchanges : Memory.ChangesWithin [engine.areas.list, engine.areas.tables] memory built :=
      Engine.changesWithin_build hsized hlayout hbound hfew memory
    refine hconfines.elsewhere.trans (hchanges.mono ?_)
    simp [regions]

end Confines

end PortAreas

/-! Acts. -/

section Acts

variable {areas : PortAreas} {ready : Machine SimulatedPort} {engine : Engine}
  {world : World SimulatedPort}

/-- A step that writes none of the base addresses keeps a device confined. -/
theorem HostM.Touches.confines {α : Type} {step : HostM SimulatedPort α} {window : Window}
    {traffic : Traffic} {reasons : Halt → Prop} (htouches : step.Touches window traffic reasons)
    (helsewhere : ∀ offset value, traffic offset value → offset ∉ [PortRegister.clb,
      PortRegister.clbu, PortRegister.fb, PortRegister.fbu])
    (hsized : areas.Sized) (hlayout : areas.Layout)
    (hconfines : areas.Confines ready world.machine) :
    areas.Confines ready (step.exec world).2.machine := by
  apply htouches.keeps fun later => areas.Confines ready later.machine
  · exact fun _ _ hkept => hkept
  · exact fun _ _ hkept => hkept
  · exact fun later offset value hsent hkept =>
      PortAreas.Confines.writeRegister hkept hsized hlayout value (helsewhere offset value hsent)
  · exact hconfines

theorem EngineM.confines_fillStaging (hsized : engine.areas.Sized) (hlayout : engine.areas.Layout)
    (bytes : List UInt8) (count : Nat) (hconfines : engine.areas.Confines ready world.machine) :
    engine.areas.Confines ready ((fillStaging bytes count).exec engine world).2.machine := by
  by_cases henough : count ≤ engine.areas.write.size ∧ bytes.length ≤ count
  · obtain ⟨hroom, hlong⟩ := henough
    have hmember : engine.areas.write ∈ [engine.areas.read, engine.areas.write] := by simp
    have hfront : engine.areas.write.Covers (engine.areas.write.address 0) bytes.length := by
      unfold Region.Covers Region.address
      omega
    have hback : engine.areas.write.Covers (engine.areas.write.address bytes.length)
        (count - bytes.length) := by
      unfold Region.Covers Region.address
      omega
    have hplaced := Memory.ChangesWithin.store hmember world.memory hfront
    have hfilled := Memory.ChangesWithin.zero hmember
      (world.memory.store (engine.areas.write.address 0) bytes) hback
    rw [exec_fillStaging_ok hroom hlong]
    exact hconfines.staged hsized hlayout (hplaced.trans hfilled)
  · rw [exec_fillStaging_error henough]
    exact hconfines

/-- Running a command keeps a device confined, whatever the command is and however it ends. -/
theorem EngineM.confines_runCommand (hsized : engine.areas.Sized) (hlayout : engine.areas.Layout)
    (command : Command) (hconfines : engine.areas.Confines ready world.machine) :
    engine.areas.Confines ready ((runCommand command).exec engine world).2.machine := by
  apply keeps_runCommand command fun later => engine.areas.Confines ready later.machine
  · exact fun _ _ hkept => hkept
  · exact fun _ _ hkept => hkept
  · intro slot later offset value hsent hkept
    apply PortAreas.Confines.writeRegister hkept hsized hlayout value
    rcases hsent with rfl | ⟨rfl, _⟩ <;> decide
  · exact fun slot hbound entries later hformed hkept =>
      PortAreas.Confines.build hkept hsized hlayout hbound hformed
  · exact hconfines

theorem Stage.confines_after {base : Engine} (hsized : base.areas.Sized)
    (hlayout : base.areas.Layout) {stage : Stage SimulatedPort} (halike : stage.engine.Alike base)
    (hconfines : base.areas.Confines ready stage.world.machine) :
    base.areas.Confines ready stage.after.machine := by
  rw [← halike.areas] at hsized hlayout hconfines ⊢
  unfold Stage.after
  cases stage.act with
  | fill bytes count => exact EngineM.confines_fillStaging hsized hlayout bytes count hconfines
  | run command => exact EngineM.confines_runCommand hsized hlayout command hconfines
  | restart =>
    apply stage.engine.touches_recover.confines _ hsized hlayout hconfines
    rintro _ _ (rfl | rfl | rfl) <;> decide

end Acts

/-! Ports that came up. -/

/-- Behind a bring-up each header points at the table of its slot, and tells of no entries. -/
theorem PortAreas.header_writeHeaders (areas : PortAreas) {count slot : Nat}
    (hbelow : slot < count) (memory : Memory) :
    CommandList.header (areas.list.address 0) slot (areas.writeHeaders count memory) =
      .make (areas.tablePhys slot) 0 0 := by
  induction count with
  | zero => exact absurd hbelow (Nat.not_lt_zero slot)
  | succ count ih =>
    have hlast : areas.writeHeaders (count + 1) memory =
        CommandList.writeHeader (areas.list.address 0) count (.make (areas.tablePhys count) 0 0)
          (areas.writeHeaders count memory) := by
      rw [writeHeaders, List.range_succ, List.foldl_append]
      rfl
    rw [hlast]
    by_cases hhead : slot = count
    · rw [hhead, CommandList.header_writeHeader]
    · rw [CommandList.header_writeHeader_of_ne (Ne.symm hhead), ih (by omega)]

theorem HostM.confines_programPort {areas : PortAreas} (hlayout : areas.Layout) (window : Window)
    (owning : World SimulatedPort) {programmed : World SimulatedPort}
    (htold : (programPort window areas).exec
      { owning with memory := areas.writeHeaders slotCount owning.memory } =
        (.ok (), programmed)) : areas.Confines programmed.machine programmed.machine := by
  obtain ⟨later, hended, haround, _⟩ := yields_programPort window owning.device areas
    (areas.writeHeaders slotCount owning.memory)
    { owning with memory := areas.writeHeaders slotCount owning.memory } rfl
  cases htold.symm.trans hended
  have hheader (slot : Nat) (hbound : slot < slotCount) :
      CommandList.header areas.list.base.toNat slot (areas.writeHeaders slotCount owning.memory) =
        .make (areas.tablePhys slot) 0 0 := areas.header_writeHeaders hbound owning.memory
  rw [haround]
  constructor
  · have hhalves := (areas.list.physAt 0).halves
    rwa [Engine.physAt_zero] at hhalves
  · have hhalves := (areas.list.physAt PortAreas.receivedOffset).halves
    rwa [Region.physAt_toNat (by
      have hroom := hlayout.list
      simp only [PortAreas.receivedOffset, CommandList.size, slotCount, CommandHeader.size]
      omega)] at hhalves
  · intro slot hbound
    dsimp only
    rw [hheader slot hbound, CommandHeader.tableAddress_make,
      (Engine.tables_layout hlayout hbound).1, PortAreas.Confines.tableOf_eq]
  · intro slot hbound
    exact FetchedCommand.confined_of_header areas (hheader slot hbound)
  · exact ⟨[], rfl, by simp⟩
  · exact .refl _ _

/-- A device that is confined since some moment is confined since any later one. -/
theorem PortAreas.Confines.again {areas : PortAreas} {ready later : Machine SimulatedPort}
    (hconfines : areas.Confines ready later) : areas.Confines later later :=
  { hconfines with
    fetched := ⟨[], rfl, by simp⟩
    elsewhere := .refl _ _ }

/-- A port that was just brought up on sound areas is confined. -/
theorem HostM.confines_bringUp {window : Window} {number slots : Nat} {config : Config}
    {start ready : World SimulatedPort} {port : Port} {engine : Engine}
    (hup : (bringUp window number slots config).exec start = (.ok (.ok (port, engine)), ready))
    (hsound : engine.areas.Sound) : engine.areas.Confines ready.machine ready.machine := by
  have hcame := cameUp_of_exec hup
  have hlayout := hsound.layout hcame.sized
  obtain ⟨owning, programmed, after, log, htold, hstarted, rfl⟩ := hcame.started
  have hconfines := confines_programPort hlayout window owning htold
  have hrunning := (touches_startEngine window config.readyLimit.toNat).confines
    (by rintro _ _ rfl; decide) hcame.sized hlayout hconfines
  rw [hstarted] at hrunning
  exact hrunning.again

/-- No byte of a staging area is one of the command list or of the tables. -/
theorem FetchedCommand.staging_apart {areas : PortAreas} (hsized : areas.Sized)
    (hlayout : areas.Layout) (command : FetchedCommand) {addr : Nat}
    (hinside : (command.staging areas).Covers addr 1) :
    ¬ areas.list.Covers addr 1 ∧ ¬ areas.tables.Covers addr 1 := by
  obtain ⟨_, _, _, _, _, hlistRead, hlistWrite, htablesRead, htablesWrite, _⟩ := hlayout
  unfold FetchedCommand.staging at hinside
  split at hinside
  all_goals
    simp only [Region.Covers, Region.address, hsized.size_list, hsized.size_tables,
      hsized.size_read, hsized.size_write] at hinside ⊢
    omega

/-! Runs. -/

namespace Site

variable {engine : Engine} {ready : Machine SimulatedPort} {site : Site}

/-- A call keeps a device confined, in front of each of its acts and behind it, whether it returns
or halts. -/
theorem confines_call (hsized : engine.areas.Sized) (hlayout : engine.areas.Layout)
    (halike : site.engine.Alike engine)
    (hconfines : engine.areas.Confines ready site.world.machine) (call : Call) :
    (site.after (.called call)).engine.Alike engine ∧
      engine.areas.Confines ready (site.after (.called call)).world.machine ∧
      ∃ stages, (call.run site.port site.disk?).Comprises site.engine site.world stages ∧
        ∀ stage ∈ stages, engine.areas.Confines ready stage.world.machine ∧
          engine.areas.Confines ready stage.after.machine := by
  obtain ⟨stages, hdid, _⟩ :=
    (call.routine_run site.port site.disk?).composed engine site.engine site.world halike
  have hacts (past : List (Stage SimulatedPort)) (stage : Stage SimulatedPort)
      (halike : stage.engine.Alike engine)
      (hconfines : engine.areas.Confines ready stage.world.machine) :
      engine.areas.Confines ready stage.after.machine :=
    stage.confines_after hsized hlayout halike hconfines
  obtain ⟨hkept, hwithin⟩ := hdid.keeps
    (fun _ later => engine.areas.Confines ready later.machine)
    (fun _ _ _ hkept => hkept) hacts halike [] hconfines
  refine ⟨?_, ?_, stages, hdid, fun stage hmember => ?_⟩
  · rw [after]
    rcases hended : site.exec call with ⟨reason | ⟨⟨outcome, disk?⟩, left⟩, world⟩
    · exact halike
    · exact (hdid.alike hended).trans halike
  · rw [world_after]
    exact hkept
  · obtain ⟨early, late, hsplit⟩ := List.append_of_mem hmember
    obtain ⟨hsame, hhead⟩ := hwithin early stage late hsplit
    exact ⟨hhead, hacts [] stage hsame hhead⟩

/-- By induction on the events, every run keeps a device confined. Any events are allowed here. -/
theorem confines_events (hsized : engine.areas.Sized) (hlayout : engine.areas.Layout)
    (halike : site.engine.Alike engine)
    (hconfines : engine.areas.Confines ready site.world.machine) (events : List Event) :
    (site.run events).engine.Alike engine ∧
      engine.areas.Confines ready (site.run events).world.machine := by
  induction events generalizing site with
  | nil => exact ⟨halike, hconfines⟩
  | cons event events ih =>
    cases event with
    | switched switch =>
      apply ih
      · exact halike
      · cases switch <;> exact PortAreas.Confines.device hconfines rfl rfl rfl
    | called call =>
      obtain ⟨hstill, hkept, _⟩ := confines_call hsized hlayout halike hconfines call
      exact ih hstill hkept

/-- On a port that was brought up on sound areas, behind any run of any events, whatever the device
is made to fail, show or leave pending. The base registers hold the addresses they were given, every
header points at the table of its slot, and every command that lies in a slot or that the device
ever fetched is confined to the staging area of its direction; nothing outside of the areas has
changed. The same holds in front of each act of any next call and behind it. The tables of the 32
slots, which are aligned to 128 bytes if the areas begin at frames, lie in order within their area
and do not overlap. And a byte that any drive changes by running a confined command lies in that
staging area, so neither in the command list nor in a table. -/
theorem device_confined_run {number slots : Nat} {config : Config}
    {start ready : World SimulatedPort} {port : Port} {engine : Engine}
    (hup : (HostM.bringUp (.port number) number slots config).exec start =
      (.ok (.ok (port, engine)), ready))
    (hsound : engine.areas.Sound)
    (haligned : ∀ region ∈ engine.areas.regions, region.base.toNat % frameSize = 0)
    (events : List Event) :
    let areas := engine.areas
    let site := Site.run { port, engine, world := ready } events
    let table (slot : Nat) := areas.tables.base.toNat + 256 * slot
    areas.Confines ready.machine site.world.machine ∧
      (∀ call : Call, ∃ stages : List (Stage SimulatedPort),
        (call.run site.port site.disk?).Comprises site.engine site.world stages ∧
        ∀ stage ∈ stages, areas.Confines ready.machine stage.world.machine ∧
          areas.Confines ready.machine stage.after.machine) ∧
      (∀ slot < 32, table slot % 128 = 0 ∧ areas.tables.Covers (table slot) 256 ∧
        ∀ other < slot, table other + 256 ≤ table slot) ∧
      ∀ command, FetchedCommand.Confined command areas → ∀ drive memory addr,
        (Drive.run drive command memory).2.2.byte addr ≠ memory.byte addr →
          (command.staging areas).Covers addr 1 ∧ ¬ areas.list.Covers addr 1 ∧
            ¬ areas.tables.Covers addr 1 := by
  intro areas site table
  have hsized := (HostM.cameUp_of_exec hup).sized
  have hlayout := hsound.layout hsized
  have hbegun := HostM.confines_bringUp hup hsound
  let begin : Site := { port, engine, world := ready }
  have hsame : begin.engine.Alike engine := .refl engine
  obtain ⟨halike, hconfines⟩ := confines_events hsized hlayout hsame hbegun events
  refine ⟨hconfines, ?_, ?_, ?_⟩
  · exact fun call => (confines_call hsized hlayout halike hconfines call).2.2
  · intro slot hbound
    have hplace (slot : Nat) : table slot = areas.tables.base.toNat + 256 * slot := rfl
    have hframes : areas.tables.base.toNat % 4096 = 0 := haligned areas.tables (by
      simp [PortAreas.regions, areas])
    have hsize : areas.tables.size = 8192 := hsized.size_tables
    simp only [hplace, Region.Covers, Region.address, hsize]
    refine ⟨by omega, by omega, fun other hbelow => by omega⟩
  · intro command hconfined drive memory addr hchanged
    have hinside : (command.staging areas).Covers addr 1 := by
      apply Classical.byContradiction
      intro houtside
      exact hchanged (hconfined.changesWithin_run drive memory addr (by simpa using houtside))
    exact ⟨hinside, command.staging_apart hsized hlayout hinside⟩

/-- The hypotheses are met by a packet drive that fails to tell what it is, is then asked for data
of an odd length, and at last leaves a read pending for good. -/
theorem device_confined_run_failed_and_stalled :
    let start := World.around (.packetDrive (.blank driveBlockSize 4))
    let events : List Event :=
      [.switched (.inject Opcode.packet (.sense ⟨0, 0, 0⟩)), .called .probe,
        .called (.onEngine (.packet (.inquiry 95) (.toHost 95) "inquiry")),
        .switched (.stall true), .called (.onEngine (.readBlocks 0 32))]
    ∃ port engine ready, (HostM.bringUp (.port 0) 0 32 { readyLimit := 1 }).exec start =
        (.ok (.ok (port, engine)), ready) ∧
      let site := Site.run { port, engine, world := ready } events
      site.world.device.listAddress = 0x234500000 ∧
        site.world.device.receivedAddress = 0x234500400 ∧
        (CommandList.header 0x234500000 31 site.world.memory).tableAddress.toNat = 0x234502F00 ∧
        ∀ slot < 32,
          (FetchedCommand.fetch 0x234500000 slot site.world.memory).Confined risingAreas := by
  intro start events
  have hpresent : (Drive.packetDrive (.blank driveBlockSize 4)).kind ≠ .empty := by decide
  obtain ⟨port, engine, ready, hup, hareas⟩ :=
    exists_bringUp_around hpresent 0 32
      (show 0 < ({ readyLimit := 1 } : Config).readyLimit.toNat by decide)
  have hsound : engine.areas.Sound := by
    rw [hareas]
    exact sound_risingAreas
  have haligned : ∀ region ∈ engine.areas.regions, region.base.toNat % frameSize = 0 := by
    rw [hareas]
    decide
  obtain ⟨hconfines, _⟩ := device_confined_run hup hsound haligned events
  have hbase : risingAreas.list.base.toNat = 0x234500000 := by decide
  have htables : risingAreas.tables.base.toNat = 0x234501000 := by decide
  refine ⟨port, engine, ready, hup, ?_⟩
  generalize run { port, engine, world := ready } events = site at hconfines ⊢
  rw [hareas] at hconfines
  obtain ⟨hlist, hreceived, hheaders, hcommands, _⟩ := hconfines
  rw [hbase] at hlist hreceived hheaders hcommands
  rw [htables] at hheaders
  exact ⟨hlist, hreceived, hheaders 31 (by decide), hcommands⟩

end Site

end Ahci
