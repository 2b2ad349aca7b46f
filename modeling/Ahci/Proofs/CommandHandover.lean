import Ahci.Proofs.PortService
import Ahci.Proofs.Runs
import Mathlib.Data.List.Nodup

/-!
A command on its way through shared memory. The driver writes a table and a header over
whatever an earlier command left in the slot, and the device reads a header and what it points
at. The two agree: the device decodes the command that was handed to the driver and nothing of
any other, in every slot, over every content of the memory.
-/

namespace Ahci

namespace DataPhase

def bytes : DataPhase → Nat
  | none => 0
  | toHost bytes => bytes
  | fromHost bytes => bytes

/-- A transfer that one command can carry: none at all, or an even number of bytes from 2 to
65536. -/
def Describable (data : DataPhase) : Prop :=
  data = .none ∨ (2 ≤ data.bytes ∧ data.bytes % 2 = 0 ∧ data.bytes ≤ ScatterList.maxBytes)

end DataPhase

/-- The staging area of a direction of data; a command without data has that of reads. -/
def PortAreas.staging (areas : PortAreas) : DataPhase → Region
  | .fromHost _ => areas.write
  | _ => areas.read

namespace ScatterList

/-- Entries that follow each other in memory from an address on, without gap or overlap. -/
def Adjoin : Nat → List ScatterEntry → Prop
  | _, [] => True
  | addr, entry :: rest => entry.address.toNat = addr ∧ Adjoin (addr + entry.bytes) rest

end ScatterList

/-- A fetched command that is the one handed to the driver. Its opcode, features, first block,
count, direction and packet are the same, and it has as many entries as its bytes need pieces, which
follow each other from the beginning of the staging area, make up the bytes, and carry the interrupt
flag of the command. -/
structure FetchedCommand.Conveys (fetched : FetchedCommand) (areas : PortAreas)
    (command : Command) : Prop where
  opcode : fetched.fis.opcode = command.fis.opcode
  features : fetched.fis.features = command.fis.features
  lba : fetched.fis.lba = command.fis.lba
  count : fetched.fis.count = command.fis.count
  isWrite : fetched.isWrite = true ↔ ∃ bytes, command.data = .fromHost bytes
  isPacket : fetched.isPacket = true ↔ ∃ cdb, command.cdb = some cdb
  cdb : fetched.cdb = command.cdb
  entryCount : fetched.entryCount = blocksFor command.data.bytes ScatterList.pieceSize
  length : fetched.entries.length = fetched.entryCount
  adjoin : ScatterList.Adjoin ((areas.staging command.data).address 0) fetched.entries
  total : fetched.bytes = command.data.bytes
  interrupt : ∀ entry ∈ fetched.entries, entry.interrupt = command.interrupt

/-! The pieces of a transfer. -/

namespace ScatterList

variable {base : PhysAddr} {bytes : Nat} (interrupt : Bool)

/-- The pieces of a run of bytes follow each other from its beginning and make up its length. -/
theorem adjoin_pieces (count : Nat) (henough : (bytes + pieceSize - 1) / pieceSize = count)
    (hwithin : base.toNat + bytes ≤ PhysAddr.space) :
    Adjoin base.toNat ((List.range count).map (piece base bytes interrupt)) ∧
      totalBytes ((List.range count).map (piece base bytes interrupt)) = bytes := by
  induction count generalizing base bytes with
  | zero =>
    have hnone : bytes = 0 := by
      simp only [pieceSize] at henough
      omega
    constructor
    · trivial
    · simp [hnone, totalBytes]
  | succ count ih =>
    have hsome : 0 < bytes := by
      simp only [pieceSize] at henough
      omega
    have hleft : (bytes - pieceSize + pieceSize - 1) / pieceSize = count := by
      simp only [pieceSize] at henough ⊢
      omega
    have hsize : (ScatterEntry.make base (min pieceSize bytes) interrupt).bytes =
        min pieceSize bytes := by
      apply ScatterEntry.bytes_make
      · exact Nat.lt_min.2 ⟨by decide, hsome⟩
      · exact Nat.le_trans (Nat.min_le_left _ _) (by decide)
    have hroom : (base + pieceSize).toNat + (bytes - pieceSize) ≤ PhysAddr.space := by
      have hbound := (base + pieceSize).toNat_lt
      rcases behind_piece hwithin with hnone | hplace <;> omega
    obtain ⟨hadjoin, htotal⟩ := ih hleft hroom
    rw [pieces_succ]
    constructor
    · constructor
      · exact congrArg PhysAddr.toNat (ScatterEntry.address_make base _ interrupt)
      · rw [hsize]
        rcases behind_piece hwithin with hnone | hplace
        -- Nothing lies behind the last piece, so there is no place to compare.
        · have hlast : count = 0 := by
            rw [hnone] at hleft
            simpa [pieceSize] using hleft.symm
          simp [hlast, Adjoin]
        · rwa [← hplace]
    · rw [totalBytes, htotal, hsize]
      omega

end ScatterList

/-! What was built is what is decoded. -/

namespace Engine

variable {engine : Engine} {slot : Nat} {command : Command} {entries : List ScatterEntry}

/-- A transfer that one command can carry is described by entries. -/
theorem exists_scatter_of_describable (engine : Engine) (hdescribable : command.data.Describable) :
    ∃ entries, engine.scatter command = .ok entries := by
  cases hdirection : command.data with
  | none => exact ⟨[], by rw [scatter, hdirection]⟩
  | toHost bytes =>
    rw [hdirection] at hdescribable
    obtain habsurd | ⟨hsome, heven, hfits⟩ := hdescribable
    · cases habsurd
    · rw [scatter, hdirection]
      exact ScatterList.exists_build _ _ (Nat.lt_of_lt_of_le (by decide) hsome) heven hfits
  | fromHost bytes =>
    rw [hdirection] at hdescribable
    obtain habsurd | ⟨hsome, heven, hfits⟩ := hdescribable
    · cases habsurd
    · rw [scatter, hdirection]
      exact ScatterList.exists_build _ _ (Nat.lt_of_lt_of_le (by decide) hsome) heven hfits

/-- The entries built for a transfer into an area are as many as it needs pieces, follow each other
from the beginning of the area, make up its bytes, and carry the flag. -/
theorem pieces_of_build {area : Region} {bytes : Nat} {interrupt : Bool}
    (hwithin : area.base.toNat + 65536 ≤ PhysAddr.space)
    (hformed : ScatterList.build (area.physAt 0) bytes interrupt = .ok entries) :
    entries.length = blocksFor bytes ScatterList.pieceSize ∧
      ScatterList.Adjoin (area.address 0) entries ∧
      ScatterList.totalBytes entries = bytes ∧
      ∀ entry ∈ entries, entry.interrupt = interrupt := by
  obtain ⟨hfits, hpieces⟩ := ScatterList.build_eq_ok hformed
  have hlength := (ScatterList.length_build hformed).1
  simp only [ScatterList.maxBytes, ScatterList.pieceSize, ScatterList.capacity] at hfits
  have hroom : (area.physAt 0).toNat + bytes ≤ PhysAddr.space := by
    rw [physAt_zero]
    omega
  obtain ⟨hadjoin, htotal⟩ := ScatterList.adjoin_pieces interrupt _ rfl hroom
  rw [← hpieces] at hadjoin htotal
  rw [physAt_zero] at hadjoin
  refine ⟨hlength, hadjoin, htotal, ?_⟩
  intro entry hmember
  rw [hpieces] at hmember
  obtain ⟨index, _, hsame⟩ := List.mem_map.1 hmember
  rw [← hsame]
  apply ScatterEntry.interrupt_make

/-- A command that was built for a slot is fetched there as the one handed to the driver. -/
theorem conveys_fetched (hlayout : engine.areas.Layout)
    (hformed : engine.scatter command = .ok entries) :
    (command.fetched slot entries).Conveys engine.areas command := by
  obtain ⟨hlength, hadjoin, htotal, hinterrupt⟩ :
      entries.length = blocksFor command.data.bytes ScatterList.pieceSize ∧
        ScatterList.Adjoin ((engine.areas.staging command.data).address 0) entries ∧
        ScatterList.totalBytes entries = command.data.bytes ∧
        ∀ entry ∈ entries, entry.interrupt = command.interrupt := by
    cases hdirection : command.data with
    | none =>
      rw [scatter, hdirection] at hformed
      cases hformed
      simp [DataPhase.bytes, blocksFor, ScatterList.pieceSize, ScatterList.Adjoin,
        ScatterList.totalBytes]
    | toHost bytes =>
      rw [scatter, hdirection] at hformed
      exact pieces_of_build hlayout.read hformed
    | fromHost bytes =>
      rw [scatter, hdirection] at hformed
      exact pieces_of_build hlayout.write hformed
  constructor
  · rfl
  · rfl
  · rfl
  · rfl
  · cases hdirection : command.data <;> simp [Command.fetched, hdirection]
  · simp [Command.fetched, Command.isPacket, Option.isSome_iff_exists]
  · rfl
  · exact hlength
  · rfl
  · exact hadjoin
  · exact htotal
  · exact hinterrupt

end Engine

/-! What a port fetches when a slot is issued, and that waiting for it fetches nothing. -/

namespace SimulatedPort

/-- Issuing one slot makes a running port fetch the command of that slot, or nothing if it is
stalled. -/
theorem fetched_issue {port : SimulatedPort} (hrunning : port.isRunning = true) {slot : Nat}
    (hbound : slot < slotCount) (memory : Memory) :
    (port.issue (Word.only slot) memory).1.fetched =
      (if port.stalled then [] else [.fetch port.listAddress slot memory]) ++ port.fetched := by
  have halone : (List.range 32).filter (Word.test (Word.only slot)) = [slot] := by
    have hlow : slot < 32 := hbound
    have hsame : Word.test (Word.only slot) = fun other => decide (other = slot) := by
      funext other
      simp [Word.test_only, hlow, eq_comm]
    have hnodup := List.nodup_range (n := 32)
    have hmember : slot ∈ List.range 32 := List.mem_range.2 hlow
    rw [hsame, List.filter_eq, List.count_eq_one_of_mem hnodup hmember]
    rfl
  rw [issue, if_pos hrunning, halone]
  simp only [List.foldl_cons, List.foldl_nil, issueSlot]
  cases hstalled : port.stalled with
  | true => simp [update, hstalled]
  | false => simp [update, hstalled, execute, listAddress]

end SimulatedPort

namespace HostM

theorem quiet_readRegister (window : Window) (offset : Nat) :
    (readRegister window offset : HostM SimulatedPort _).Quiet := by
  intro world
  constructor
  · rfl
  · exact ⟨rfl, rfl, rfl, ⟨[], rfl, by simp⟩, rfl⟩

theorem quiet_completionError (window : Window) (status : UInt32) (packet : Bool) :
    (completionError window status packet : HostM SimulatedPort _).Quiet :=
  (quiet_readRegister window _).bind fun _ => .pure _

theorem quiet_pollOnce (window : Window) (slot : Nat) (packet : Bool) :
    (pollOnce window slot packet : HostM SimulatedPort _).Quiet := by
  apply (quiet_readRegister window _).bind
  intro status
  split
  · exact (quiet_completionError window status packet).bind fun _ => .pure _
  · apply (quiet_readRegister window _).bind
    intro issued
    split
    · exact .pure _
    · apply (quiet_readRegister window _).bind
      intro late
      split
      · exact (quiet_completionError window late packet).bind fun _ => .pure _
      · exact .pure _

theorem quiet_firstConclusive (window : Window) (slot : Nat) (packet : Bool) (polls : Nat) :
    (firstConclusive window slot packet polls : HostM SimulatedPort _).Quiet := by
  induction polls with
  | zero => exact .pure _
  | succ polls ih =>
    apply (quiet_pollOnce window slot packet).bind
    intro outcome?
    cases outcome? with
    | none => exact ih
    | some outcome => exact .pure _

/-- However long a command is waited for, nothing is done to the device meanwhile. -/
theorem quiet_awaitCompletion (window : Window) (slot : Nat) (limit : Option UInt32)
    (packet : Bool) : (awaitCompletion window slot limit packet : HostM SimulatedPort _).Quiet := by
  cases limit with
  | some limit =>
    apply (quiet_firstConclusive window slot packet _).bind
    intro outcome?
    cases outcome? <;> exact .pure _
  | none =>
    have hpatient : (patience : HostM SimulatedPort Nat).Quiet := fun world => ⟨rfl, .refl world⟩
    apply hpatient.bind
    intro polls
    apply (quiet_firstConclusive window slot packet _).bind
    intro outcome?
    cases outcome? with
    | none => exact fun world => ⟨rfl, .refl world⟩
    | some outcome => exact .pure _

variable {port : SimulatedPort} {areas : PortAreas} {status : UInt32} {memory : Memory}
  {window : Window} {arena : SlotArena} {slot : Nat} {config : Config} {packet : Bool}

/-- What is fetched while a slot is issued and waited for is its command, as memory holds it
when it is issued; a busy device is not shown the command. -/
theorem fetched_issueAndWait (hpatient : 0 < config.readyLimit.toNat)
    (hup : port.registers = areas.registers status SimulatedPort.idleFile 0)
    (hbound : slot < slotCount) {world : World SimulatedPort}
    (haround : world.machine = ⟨port, memory⟩) :
    ((issueAndWait window arena slot config packet).exec world).2.device.fetched =
      (if port.busy || port.stalled then []
        else [.fetch (areas.list.address 0) slot memory]) ++ port.fetched := by
  have hacknowledging : (writeRegister window PortRegister.is allBits).Yields ⟨port, memory⟩
    (.ok ()) ⟨port.rested areas, memory⟩ 0 := yields_acknowledge hup memory
  obtain ⟨acknowledged, hended, haround, _⟩ := hacknowledging world haround
  rw [issueAndWait, exec_bind_ok hended]
  cases hbusy : port.busy with
  | true =>
    have hrefusing : (becomesReady window config.readyLimit.toNat).Yields
        ⟨port.rested areas, memory⟩ (.ok false) ⟨port.rested areas, memory⟩ 0 :=
      yields_becomesReady_of_busy _ (show (port.rested areas).busy = true from hbusy) memory
    obtain ⟨refused, hended, haround, _⟩ := hrefusing acknowledged haround
    rw [exec_bind_ok hended]
    exact congrArg (fun machine => machine.device.fetched) haround
  | false =>
    have hready : (port.rested areas).readRegister PortRegister.tfd = SimulatedPort.idleFile := by
      change (if port.busy then _ else _) = _
      rw [hbusy]
      rfl
    have htaking : (becomesReady window config.readyLimit.toNat).Yields
        ⟨port.rested areas, memory⟩ (.ok true) ⟨port.rested areas, memory⟩ 0 :=
      yields_becomesReady hpatient hready memory
    obtain ⟨taken, hended, haround, _⟩ := htaking acknowledged haround
    rw [exec_bind_ok hended]
    have hrunning : (port.rested areas).isRunning = true := by
      change Word.test runningCommand CmdBit.start = true
      decide
    obtain ⟨issued, hended, haround, _⟩ := yields_issue window
      (Prod.eta ((port.rested areas).issue (Word.only slot) memory)).symm taken haround
    have hwaited := ((quiet_awaitCompletion window slot config.completionLimit packet).bind
      fun outcome => HostM.Quiet.pure (outcome, (arena.mark slot .issued).mark slot .done)) issued
    have hdevice : issued.device = ((port.rested areas).issue (Word.only slot) memory).1 :=
      congrArg Machine.device haround
    have hplace : (port.rested areas).listAddress = areas.list.address 0 :=
      port.listAddress_begun
    rw [if_neg (by decide), exec_bind_ok hended, hwaited.1, hdevice,
      SimulatedPort.fetched_issue hrunning hbound, hplace]
    rw [Bool.false_or]
    rfl

end HostM

namespace EngineM

theorem world_exec_bind {α β : Type} {step : EngineM SimulatedPort α}
    {next : α → EngineM SimulatedPort β}
    (hstill : ∀ a engine world, ((next a).exec engine world).2 = world) (engine : Engine)
    (world : World SimulatedPort) :
    ((step >>= next).exec engine world).2 = (step.exec engine world).2 := by
  rw [exec_bind]
  rcases step.exec engine world with ⟨reason | ⟨a, left⟩, after⟩
  · rfl
  · exact hstill a left after

variable {engine : Engine} {world : World SimulatedPort} {status : UInt32}
  {claimed : SlotArena} {slot : Nat} {command : Command} {entries : List ScatterEntry}

/-- Running a command makes a device fetch just that command, in the slot that was open, or nothing
if the port is busy or stalled. -/
theorem fetched_runCommand (hlayout : engine.areas.Layout) (hpatient : 0 < engine.limit)
    (hup : world.device.registers = engine.areas.registers status SimulatedPort.idleFile 0)
    (hclaim : engine.slots.claim 0 = .ok (slot, claimed))
    (hformed : engine.scatter command = .ok entries) :
    ((runCommand command).exec engine world).2.device.fetched =
      (if world.device.busy || world.device.stalled then []
        else [command.fetched slot entries]) ++ world.device.fetched := by
  have hbound : slot < slotCount :=
    Nat.lt_of_lt_of_le (SlotArena.claim_eq_ok_iff.1 hclaim).2.1 engine.slots.count_le
  have hclear : world.device.registers.ci = 0 := by
    rw [hup]
    rfl
  have hlooking : (HostM.busySlots engine.window).Yields ⟨world.device, world.memory⟩ (.ok 0)
    ⟨world.device, world.memory⟩ 0 := HostM.yields_busySlots hclear world.memory
  obtain ⟨looked, hfree, haround, _⟩ := hlooking world rfl
  have hfew := (Engine.transfer_run hlayout hbound hformed world.memory).1
  have hdecoded := Engine.fetch_build hlayout hbound command hfew world.memory
  obtain ⟨built, hplaced, haroundBuilt, _⟩ := HostM.yields_changeMemory
    (engine.build slot command entries) _ looked haround
  have hstarted : (runCommand command).exec engine world =
      (onHost (engine.submit claimed slot command) >>= fun submitted => do
        set { engine with slots := submitted.2.release slot }
        return submitted.1).exec engine looked := by
    have hgot : (get : EngineM SimulatedPort Engine).exec engine world =
      (.ok (engine, engine), world) := rfl
    rw [runCommand, exec_bind_ok hgot, exec_bind_ok (exec_onHost_ok hfree), hclaim]
  rw [hstarted, world_exec_bind (fun _ _ _ => rfl), exec_onHost, Engine.submit, hformed]
  change ((HostM.changeMemory _ >>= _ : HostM SimulatedPort _).exec looked).2.device.fetched = _
  rw [HostM.exec_bind_ok hplaced, HostM.fetched_issueAndWait hpatient hup hbound haroundBuilt,
    hdecoded]

end EngineM

namespace Site

/-- On a port behind any allowed run of events since its bring-up, over any content of its memory
and with any slot as the lowest open one, running a command whose transfer can be described makes
the device fetch one command, and this is the one handed to the driver: frame, packet, direction and
entries. The entries run through the staging area of its direction from its beginning. On a port
that is busy or stalled the device fetches nothing. -/
theorem conveys_runCommand {number slots : Nat} {config : Config}
    {start ready : World SimulatedPort} {port : Port} {engine : Engine} (hpos : 1 ≤ slots)
    (hdown : start.device.registers.cmd = 0)
    (hbounded : start.device.stalled = true → config.completionLimit.isSome = true)
    (hup : (HostM.bringUp (.port number) number slots config).exec start =
      (.ok (.ok (port, engine)), ready))
    (hsound : engine.areas.Sound) {events : List Event}
    (hallowed : ∀ event ∈ events, event.Allowed config)
    {site : Site} (hreached : site = Site.run { port, engine, world := ready } events)
    {arena claimed : SlotArena} {slot : Nat} (hclaim : arena.claim 0 = .ok (slot, claimed))
    {command : Command} (hdescribable : command.data.Describable) (memory : Memory) :
    let device := site.world.device
    let after := ((EngineM.runCommand command).exec { site.engine with slots := arena }
      { site.world with memory }).2
    ∃ decoded, decoded.slot = slot ∧ decoded.Conveys engine.areas command ∧
      after.device.fetched =
        (if device.busy || device.stalled then [] else [decoded]) ++ device.fetched := by
  intro device after
  have hbrought := HostM.broughtUp_of_exec hdown hup
  have hhead : Reached config start site := by
    rw [hreached]
    exact (reached_of_bringUp hpos hbounded hbrought).run hallowed
  have hareas : site.engine.areas = engine.areas := hhead.areas hbrought.granted
  have hlayout : engine.areas.Layout := hsound.layout (PortAreas.sized_of_allocate hbrought.granted)
  obtain ⟨status, _, hregisters⟩ := hhead.steady.registers
  rw [← hareas] at hlayout ⊢
  obtain ⟨entries, hformed⟩ :=
    Engine.exists_scatter_of_describable { site.engine with slots := arena } hdescribable
  have hconveys : (command.fetched slot entries).Conveys site.engine.areas command :=
    Engine.conveys_fetched hlayout hformed
  have hfetched : after.device.fetched =
      (if device.busy || device.stalled then [] else [command.fetched slot entries]) ++
        device.fetched :=
    EngineM.fetched_runCommand hlayout hhead.steady.patient hregisters hclaim hformed
  exact ⟨command.fetched slot entries, rfl, hconveys, hfetched⟩

/-- The hypotheses are met by a packet command of two pieces in the second slot, over memory that
holds no command. -/
theorem conveys_runCommand_in_second_slot :
    let config : Config := { readyLimit := 1 }
    let start := World.around (.packetDrive (.blank driveBlockSize 4))
    let arena := (SlotArena.ofCount 2).mark 0 .issued
    let command : Command := .packet (.inquiry 96) (.toHost 8194) "inquiry"
    ∃ port engine ready, (HostM.bringUp (.port 0) 0 2 config).exec start =
        (.ok (.ok (port, engine)), ready) ∧
      ∃ decoded, decoded.slot = 1 ∧ decoded.Conveys engine.areas command ∧
        ((EngineM.runCommand command).exec { engine with slots := arena }
          { ready with memory := {} }).2.device.fetched = [decoded] := by
  intro config start arena command
  have hpresent : (Drive.packetDrive (.blank driveBlockSize 4)).kind ≠ .empty := by decide
  obtain ⟨port, engine, ready, hup, hareas⟩ := exists_bringUp_around hpresent 0 2
    (show 0 < config.readyLimit.toNat by decide)
  have hsound : engine.areas.Sound := by
    rw [hareas]
    exact sound_risingAreas
  have hclaim : arena.claim 0 = .ok (1, arena.mark 1 .claimed) := by rfl
  have hdescribable : command.data.Describable := .inr (by decide)
  have hdevice := (HostM.broughtUp_of_exec rfl hup).device
  have hallowed : ∀ event ∈ ([] : List Event), event.Allowed config := by simp
  obtain ⟨decoded, hplace, hconveys, hfetched⟩ := conveys_runCommand (by decide) rfl
    (by simp [World.around]) hup hsound hallowed rfl hclaim hdescribable {}
  refine ⟨port, engine, ready, hup, decoded, hplace, hconveys, ?_⟩
  refine hfetched.trans ?_
  simp only [run, List.foldl_nil, hdevice]
  rfl

end Site

end Ahci
