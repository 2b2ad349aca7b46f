import Ahci.Controller.Discovery
import Ahci.Proofs.Identification
import Ahci.Proofs.Runs
import Ahci.Proofs.Transfers
import Ahci.Simulation.MemoryDisk

/-!
A flawless disk behind its port does what its medium alone would do. The driver and the device
hold one medium between them, every request answers from it and changes it as a device does
that is nothing but its medium, and by induction so does every list of requests, whatever the
length of the commands that the requests are cut into.
-/

namespace Ahci

/-! Requests to a device that keeps blocks. -/

/-- A request to a device that keeps blocks. Numbers and buffers are arbitrary. -/
inductive BlockRequest where
  | read (start bytes : Nat) (buffer : List UInt8)
  | write (start bytes : Nat) (buffer : List UInt8)
  | clear (start bytes : Nat)

/-- What a request is answered with, by which devices are compared. A clear is advice that a device
need not follow, so its outcome is left out. -/
inductive BlockReply where
  | read (placed : Except IoError Nat) (buffer : List UInt8)
  | write (outcome : Except IoError Unit)
  | advised

namespace BlockDevice

variable {m : Type → Type} [Monad m]

/-- The reply of a block device to one request. -/
def perform (device : BlockDevice m) : BlockRequest → m BlockReply
  | .read start bytes buffer => do
    let (placed, buffer) ← device.read start bytes buffer
    return .read placed buffer
  | .write start bytes buffer => .write <$> device.write start bytes buffer
  | .clear start bytes => (fun _ => .advised) <$> device.clear start bytes

/-- The replies of a block device to requests made one behind the other. -/
def performAll (device : BlockDevice m) : List BlockRequest → m (List BlockReply)
  | [] => return []
  | request :: requests => do
    let reply ← device.perform request
    return reply :: (← device.performAll requests)

end BlockDevice

/-! A port with a disk that does as it is told. -/

/-- A port with a disk that never fails a command by itself: neither busy nor stalled, with no fault
queued and with sectors of 512 bytes. Its engine is down, as in front of a bring-up. -/
structure SimulatedPort.Flawless (port : SimulatedPort) : Prop where
  down : port.registers.cmd = 0
  prompt : port.busy = false
  moving : port.stalled = false
  kind : port.drive.kind = .disk
  sound : port.drive.faults = []
  sectors : port.drive.medium.blockSize = sectorSize

/-- A driver and a flawless disk between two requests, with the medium that the disk then has. -/
structure Engine.Mirrors (engine : Engine) (port : SimulatedPort) (medium : Medium) : Prop where
  holds : engine.Holds port
  moving : port.stalled = false
  sound : port.drive.faults = []
  medium : port.drive.medium = medium

namespace Engine

variable {engine : Engine} {port after : SimulatedPort} {medium : Medium}

theorem Mirrors.willing (hmirrors : engine.Mirrors port medium) : port.Willing :=
  ⟨hmirrors.holds.prompt, hmirrors.moving⟩

theorem Mirrors.untouched (hmirrors : engine.Mirrors port medium) (opcode : UInt8) :
    port.drive.takeFault opcode = none := by
  rw [Drive.takeFault, hmirrors.sound]
  rfl

/-- A request that leaves the kind, the faults and the block size of the drive as they were leaves a
flawless disk, with whatever medium it left. -/
theorem Mirrors.of_serves (hmirrors : engine.Mirrors port medium) {drive : Drive}
    (hserves : engine.Serves port drive after) (hkind : drive.kind = port.drive.kind)
    (hsound : drive.faults = port.drive.faults)
    (hsectors : drive.medium.blockSize = port.drive.medium.blockSize) :
    engine.Mirrors after drive.medium where
  holds := hserves.holds hmirrors.holds (hkind.trans hmirrors.holds.kind)
    (hsectors.trans hmirrors.holds.sectors)
  moving := hserves.stalled.trans hmirrors.moving
  sound := by rw [hserves.drive, hsound, hmirrors.sound]
  medium := by rw [hserves.drive]

/-- A flawless disk refuses a run exactly if the run reaches behind its medium, and then as not
found. -/
theorem Mirrors.refuses? (hmirrors : engine.Mirrors port medium) (opcode : UInt8) (span : Span) :
    port.refuses? opcode span = if span.stop ≤ medium.blocks then none
      else some (ataFailure (ErrorBit.only ErrorBit.idNotFound), port.drive) := by
  rw [← hmirrors.medium]
  exact SimulatedPort.refuses?_of_untouched hmirrors.moving (hmirrors.untouched opcode)

/-- A flawless disk takes every piece of a run within its medium, if the pieces are no larger than a
command can move and the medium has no more sectors than commands can address. -/
theorem Mirrors.takes (hmirrors : engine.Mirrors port medium) {span : Span} {most : Nat}
    (hpos : 0 < most) (hmost_le : most ≤ maxSectors) (hfew : medium.blocks ≤ 2 ^ 48)
    (hwithin : span.stop ≤ medium.blocks) (opcode : UInt8) :
    ∀ piece ∈ span.cut most, Disk.Takes port opcode piece := by
  intro piece hmember
  have hlow : span.stop ≤ 0x1000000000000 := Nat.le_trans hwithin hfew
  obtain ⟨_, _, _, hinside⟩ := Span.mem_cut hpos hmember
  refine ⟨Disk.single_of_mem_cut hpos hmost_le hlow hmember, ?_⟩
  rw [hmirrors.refuses?, if_pos (Nat.le_trans hinside hwithin)]

end Engine

namespace Disk

variable {engine : Engine} {port : SimulatedPort} {medium : Medium} {disk : Disk}
  {trim : TrimSupport}

/-- A disk as the driver identified it in front of a medium: not a packet drive, with a capacity of
just the blocks of the medium. -/
structure Fronts (disk : Disk) (medium : Medium) : Prop where
  kind : ∃ trim, disk.kind = .disk trim
  count : disk.blockCount.toNat = medium.blocks

theorem Fronts.chunk_le (hfronts : disk.Fronts medium) (config : Config) :
    disk.kind.chunk config ≤ maxSectors := by
  obtain ⟨trim, hkind⟩ := hfronts.kind
  rw [hkind]
  exact config.chunk_le (DiskKind.maxBlocks_pos _)

theorem Fronts.blockSize (hfronts : disk.Fronts medium) : disk.blockSize = sectorSize := by
  obtain ⟨trim, hkind⟩ := hfronts.kind
  rw [Disk.blockSize, hkind]
  rfl

/-- The range check of the driver is that of the medium, for any start and count. -/
theorem Fronts.inRange (hfronts : disk.Fronts medium) (start blocks : Nat) :
    disk.inRange start blocks = medium.holds start blocks := by
  rw [Disk.inRange, hfronts.count]
  rfl

/-- A read is answered as the medium alone answers it, early answers and the rest of the buffer
included, and leaves the medium as it was. The medium has at most 2^48 sectors. -/
theorem exists_read (hmirrors : engine.Mirrors port medium) (hfronts : disk.Fronts medium)
    (hfew : medium.blocks ≤ 2 ^ 48) (start bytes : Nat) (buffer : List UInt8) (memory : Memory) :
    ∃ after changed issued, (disk.read start bytes buffer).Yields engine ⟨port, memory⟩
        (.ok ((MemoryDisk.read start bytes buffer medium).1, engine)) ⟨after, changed⟩ issued ∧
      engine.Mirrors after (MemoryDisk.read start bytes buffer medium).2 := by
  have hsize : medium.blockSize = sectorSize := by rw [← hmirrors.medium, hmirrors.holds.sectors]
  rw [Disk.read, MemoryDisk.read, hsize, hfronts.blockSize]
  dsimp only
  rw [hfronts.inRange]
  by_cases hinvalid : (decide (bytes = 0) || buffer.isEmpty) = true
  · rw [if_pos hinvalid, if_pos hinvalid]
    exact ⟨port, memory, 0, EngineM.yields_pure _ engine _, hmirrors⟩
  rw [if_neg hinvalid, if_neg hinvalid]
  cases hheld : medium.holds start (blocksFor bytes sectorSize) with
  | false => exact ⟨port, memory, 0, EngineM.yields_pure _ engine _, hmirrors⟩
  | true =>
    let span : Span := ⟨start, min (blocksFor bytes sectorSize) (buffer.length / sectorSize)⟩
    have hpos := engine.config.chunk_pos disk.kind.maxBlocks
    have hwithin : span.stop ≤ medium.blocks := by
      have hinside := of_decide_eq_true hheld
      simp only [span, Span.stop]
      omega
    have hroom : span.count * sectorSize ≤ buffer.length :=
      Nat.le_trans (Nat.mul_le_mul_right _ (Nat.min_le_right _ _)) (Nat.div_mul_le_self _ _)
    obtain ⟨trim, hkind⟩ := hfronts.kind
    have htakes :=
      hmirrors.takes hpos (hfronts.chunk_le engine.config) hfew hwithin Opcode.readDmaExt
    obtain ⟨after, changed, hyields, hserves⟩ :=
      reads_cut hmirrors.holds hpos htakes hroom port memory
      (.refl hmirrors.holds.steady)
    have hkept := hmirrors.of_serves hserves rfl rfl rfl
    rw [← hkind, hmirrors.medium] at hyields
    rw [hmirrors.medium] at hkept
    exact ⟨after, changed, _, (EngineM.yields_get engine _).seq hyields, hkept⟩

/-- A write is answered as the medium alone answers it, and leaves the medium as that write
would. -/
theorem exists_write (hmirrors : engine.Mirrors port medium) (hfronts : disk.Fronts medium)
    (hfew : medium.blocks ≤ 2 ^ 48) (start bytes : Nat) (buffer : List UInt8) (memory : Memory) :
    ∃ after changed issued, (disk.write start bytes buffer).Yields engine ⟨port, memory⟩
        (.ok ((MemoryDisk.write start bytes buffer medium).1, engine)) ⟨after, changed⟩ issued ∧
      engine.Mirrors after (MemoryDisk.write start bytes buffer medium).2 := by
  have hsize : medium.blockSize = sectorSize := by rw [← hmirrors.medium, hmirrors.holds.sectors]
  obtain ⟨trim, hkind⟩ := hfronts.kind
  have hoptical : disk.isOptical = false := by rw [isOptical, hkind]
  rw [Disk.write, MemoryDisk.write, hsize, hfronts.blockSize, hoptical, if_neg (by decide)]
  dsimp only
  rw [hfronts.inRange]
  by_cases hinvalid : (decide (bytes = 0) || decide (bytes > buffer.length)) = true
  · rw [if_pos hinvalid, if_pos hinvalid]
    exact ⟨port, memory, 0, RequestM.yields_throw _ engine _, hmirrors⟩
  rw [if_neg hinvalid, if_neg hinvalid]
  cases hheld : medium.holds start (blocksFor bytes sectorSize) with
  | false => exact ⟨port, memory, 0, RequestM.yields_throw _ engine _, hmirrors⟩
  | true =>
    let span : Span := ⟨start, blocksFor bytes sectorSize⟩
    have hpos := engine.config.chunk_pos disk.kind.maxBlocks
    have hwithin : span.stop ≤ medium.blocks := of_decide_eq_true hheld
    have hlength : (buffer.take bytes).length = bytes := by
      simp only [Bool.or_eq_true, decide_eq_true_eq] at hinvalid
      rw [List.length_take]
      omega
    have hcovered : span.count ≤ blocksFor (buffer.take bytes).length sectorSize :=
      Nat.le_of_eq (congrArg (blocksFor · sectorSize) hlength.symm)
    have htakes :=
      hmirrors.takes hpos (hfronts.chunk_le engine.config) hfew hwithin Opcode.writeDmaExt
    obtain ⟨after, changed, hyields, hserves⟩ := writes_cut hmirrors.holds hpos htakes hcovered port
      memory (.refl hmirrors.holds.steady)
    have hkept := hmirrors.of_serves hserves rfl rfl rfl
    rw [← hkind] at hyields
    dsimp only at hkept
    rw [hmirrors.medium] at hkept
    refine ⟨after, changed, (span.cut (disk.kind.chunk engine.config)).length, ?_, hkept⟩
    exact (RequestM.yields_withEngine (HostM.yields_pure engine.config _)).seq hyields

/-- Discarding a run succeeds on a flawless disk and leaves its medium as it was. -/
theorem exists_discardPieces (hmirrors : engine.Mirrors port medium) {left : Nat} {span : Span}
    (hlow : span.first + left * DiscardRange.maxSectors < UInt64.size) (memory : Memory) :
    ∃ after changed issued, (RequestM.discardPieces left span).Yields engine ⟨port, memory⟩
        (.ok (.ok (), engine)) ⟨after, changed⟩ issued ∧ engine.Mirrors after medium := by
  induction left generalizing span port memory with
  | zero =>
    refine ⟨port, memory, 0, ?_, hmirrors⟩
    exact RequestM.yields_withEngine (HostM.yields_note _ (by decide) _)
  | succ left ih =>
    obtain ⟨between, moved, discarded, hyields, hserves⟩ := RequestM.exists_discardRange
      hmirrors.holds hmirrors.willing (hmirrors.untouched _)
        (span.take DiscardRange.maxSectors) memory
    have hkept := hmirrors.of_serves hserves rfl rfl rfl
    dsimp only at hkept
    rw [hmirrors.medium] at hkept
    have hstopped : (span.take DiscardRange.maxSectors).stop < UInt64.size := by
      rw [Nat.succ_mul] at hlow
      simp only [Span.take, Span.stop]
      omega
    have hfurther : (span.drop DiscardRange.maxSectors).first + left * DiscardRange.maxSectors <
        UInt64.size := by
      rw [Nat.succ_mul] at hlow
      simp only [Span.drop]
      omega
    obtain ⟨after, changed, issued, hcontinued, harrived⟩ := ih hkept hfurther moved
    refine ⟨after, changed, 1 + issued, hyields.bind ?_, harrived⟩
    exact (RequestM.yields_require (decide_eq_true hstopped) _ engine _).seq hcontinued

/-- Clearing a run leaves the medium as it was, whatever its answer is. -/
theorem exists_clear (hmirrors : engine.Mirrors port medium) (hfronts : disk.Fronts medium)
    (hfew : medium.blocks ≤ 2 ^ 48) (start bytes : Nat) (memory : Memory) :
    ∃ answer after changed issued, (disk.clear start bytes).Yields engine ⟨port, memory⟩
        (.ok (answer, engine)) ⟨after, changed⟩ issued ∧ engine.Mirrors after medium := by
  obtain ⟨trim, hkind⟩ := hfronts.kind
  have htold : disk.trimSupport = trim := by rw [trimSupport, hkind, DiskKind.trimSupport]
  rw [Disk.clear, htold, hkind]
  dsimp only
  by_cases hannounced : trim.hasTrim = true
  · rw [if_pos hannounced, hannounced, Bool.true_and, hfronts.inRange]
    cases hheld : medium.holds start (max 1 (blocksFor bytes disk.blockSize)) with
    | false => exact ⟨_, port, memory, 0, RequestM.yields_throw .outOfRange engine _, hmirrors⟩
    | true =>
      have hinside := of_decide_eq_true hheld
      rw [Bool.not_true, if_neg Bool.false_ne_true, RequestM.discardSectors]
      refine ⟨.ok (), exists_discardPieces hmirrors ?_ memory⟩
      simp only [Span.pieces, DiscardRange.maxSectors, UInt64.size]
      omega
  · have hsilent :
        ¬ (trim.hasTrim &&
          !disk.inRange start (max 1 (blocksFor bytes disk.blockSize))) = true := by
      simp [hannounced]
    rw [if_neg hsilent, if_neg hannounced]
    refine ⟨.ok (), port, memory, 0, ?_, hmirrors⟩
    exact RequestM.yields_withEngine (HostM.yields_note _ (by decide) _)

/-- Every request is answered as the medium alone answers it, and leaves the medium that it would
leave there. -/
theorem exists_perform (hmirrors : engine.Mirrors port medium) (hfronts : disk.Fronts medium)
    (hfew : medium.blocks ≤ 2 ^ 48) (request : BlockRequest) (base : Medium) (memory : Memory) :
    ∃ after changed issued, (disk.blockDevice.perform request).Yields engine ⟨port, memory⟩
        (.ok ((((MemoryDisk.device base).perform request).run medium).1, engine))
        ⟨after, changed⟩ issued ∧
      engine.Mirrors after (((MemoryDisk.device base).perform request).run medium).2 := by
  cases request with
  | read start bytes buffer =>
    obtain ⟨after, changed, issued, hyields, hkept⟩ :=
      exists_read hmirrors hfronts hfew start bytes buffer memory
    exact ⟨after, changed, issued, hyields.finish (EngineM.yields_pure _ engine _), hkept⟩
  | write start bytes buffer =>
    obtain ⟨after, changed, issued, hyields, hkept⟩ :=
      exists_write hmirrors hfronts hfew start bytes buffer memory
    exact ⟨after, changed, issued, hyields.map BlockReply.write, hkept⟩
  | clear start bytes =>
    obtain ⟨answer, after, changed, issued, hyields, hkept⟩ :=
      exists_clear hmirrors hfronts hfew start bytes memory
    exact ⟨after, changed, issued, hyields.map fun _ => BlockReply.advised, hkept⟩

/-- No request changes the number of blocks of a medium. -/
theorem blocks_perform (request : BlockRequest) (base medium : Medium) :
    (((MemoryDisk.device base).perform request).run medium).2.blocks = medium.blocks := by
  cases request with
  | read start bytes buffer =>
    change (MemoryDisk.read start bytes buffer medium).2.blocks = medium.blocks
    rw [MemoryDisk.read]
    split
    · rfl
    · split <;> rfl
  | write start bytes buffer =>
    change (MemoryDisk.write start bytes buffer medium).2.blocks = medium.blocks
    rw [MemoryDisk.write]
    split
    · rfl
    · split <;> rfl
  | clear start bytes => rfl

/-- By induction on the list, requests made one behind the other are answered as the medium alone
answers them, and leave the medium that they would leave there. -/
theorem exists_performAll (hmirrors : engine.Mirrors port medium) (hfronts : disk.Fronts medium)
    (hfew : medium.blocks ≤ 2 ^ 48) (requests : List BlockRequest) (base : Medium)
    (memory : Memory) :
    ∃ after changed issued, (disk.blockDevice.performAll requests).Yields engine ⟨port, memory⟩
        (.ok ((((MemoryDisk.device base).performAll requests).run medium).1, engine))
        ⟨after, changed⟩ issued ∧
      engine.Mirrors after (((MemoryDisk.device base).performAll requests).run medium).2 := by
  induction requests generalizing port medium memory with
  | nil => exact ⟨port, memory, 0, EngineM.yields_pure _ engine _, hmirrors⟩
  | cons request requests ih =>
    obtain ⟨between, moved, first, hyields, hkept⟩ :=
      exists_perform hmirrors hfronts hfew request base memory
    have hblocks := blocks_perform request base medium
    obtain ⟨after, changed, rest, hcontinued, harrived⟩ :=
      ih hkept ⟨hfronts.kind, hfronts.count.trans hblocks.symm⟩ (by rwa [hblocks]) moved
    refine ⟨after, changed, first + rest, hyields.bind ?_, harrived⟩
    exact hcontinued.finish (EngineM.yields_pure _ engine _)

/-- A disk with a standard page is identified with the number of sectors that its page was made
for. -/
theorem exists_probe (hmirrors : engine.Mirrors port medium) {sectors : Nat}
    (htold : PageBuilder.Standard port.drive.page sectors) (hfew : sectors < UInt64.size)
    (number : Nat) (memory : Memory) :
    ∃ disk after changed issued, (probe ⟨number, .disk⟩).Yields engine ⟨port, memory⟩
        (.ok (.ok disk, engine)) ⟨after, changed⟩ issued ∧ engine.Mirrors after medium ∧
      (∃ trim, disk.kind = .disk trim) ∧ disk.blockCount.toNat = sectors := by
  let page : IdentifyPage := ⟨port.drive.page, htold.length⟩
  have hfound : page.sectors = sectors :=
    IdentifyPage.sectors_of_standard hfew htold
  let disk : Disk := ⟨⟨number, .disk⟩, .disk (.ofPage page), UInt64.ofNat page.sectors,
    diskLabel page (capacityOf page.sectors)⟩
  obtain ⟨after, changed, hyields, hserves⟩ := RequestM.exists_identify hmirrors.holds
    hmirrors.willing (hmirrors.untouched _) (show port.drive.page = page.bytes from rfl) memory
  have hkept := hmirrors.of_serves hserves rfl rfl rfl
  rw [hmirrors.medium] at hkept
  have hcount : disk.blockCount.toNat = sectors := by
    change (UInt64.ofNat page.sectors).toNat = sectors
    rw [hfound]
    exact UInt64.toNat_ofNat_of_lt hfew
  refine ⟨disk, after, changed, 1, ?_, hkept, ⟨_, rfl⟩, hcount⟩
  have hidentified : (identifyDisk ⟨number, .disk⟩).Yields engine ⟨port, memory⟩
      (.ok (disk, engine)) ⟨after, changed⟩ 1 :=
    EngineM.Yields.finish hyields (EngineM.yields_pure disk engine _)
  refine hidentified.finish ?_
  refine (EngineM.yields_onHost (HostM.yields_note _ (by decide) _) engine).seq ?_
  exact EngineM.yields_pure _ engine _

end Disk

/-- A flawless disk that was brought up on sound areas is mirrored with the medium it had. -/
theorem Engine.mirrors_of_bringUp {number slots : Nat} {config : Config}
    {start ready : World SimulatedPort} {port : Port} {engine : Engine} (hpos : 1 ≤ slots)
    (hflawless : start.device.Flawless)
    (hup : HostM.BroughtUp (.port number) number slots config start port engine ready)
    (hsound : engine.areas.Sound) : engine.Mirrors ready.device start.device.drive.medium := by
  have hbounded : start.device.stalled = true → config.completionLimit.isSome = true := by
    rw [hflawless.moving]
    simp
  have hreached := Site.reached_of_bringUp hpos hbounded hup
  have hdevice := hup.device
  refine ⟨⟨hreached.steady, hup.sized, hsound.layout hup.sized, ?_, ?_, ?_⟩, ?_, ?_, ?_⟩
  all_goals rw [hdevice]
  · exact hflawless.prompt
  · exact hflawless.kind
  · exact hflawless.sectors
  · exact hflawless.moving
  · exact hflawless.sound
  · rfl

/-- A flawless disk in a world of its own does come up, on sound areas, if the handshakes may read
PxCMD at all. -/
theorem Engine.exists_mirrors_around {drive : Drive}
    (hflawless : (World.around drive).device.Flawless) {config : Config}
    (hpatient : 0 < config.readyLimit.toNat) :
    ∃ engine ready, (HostM.bringUp (.port 0) 0 1 config).exec (World.around drive) =
        (.ok (.ok (⟨0, .disk⟩, engine)), ready) ∧
      HostM.BroughtUp (.port 0) 0 1 config (World.around drive) ⟨0, .disk⟩ engine ready ∧
      engine.areas.Sound ∧ engine.Mirrors ready.device drive.medium := by
  have hkind : drive.kind = .disk := hflawless.kind
  have hpresent : drive.kind ≠ .empty := by
    rw [hkind]
    decide
  obtain ⟨port, engine, ready, hup, hareas⟩ := exists_bringUp_around hpresent 0 1 hpatient
  have hbrought := HostM.broughtUp_of_exec hflawless.down hup
  have hsound : engine.areas.Sound := by
    rw [hareas]
    exact sound_risingAreas
  have hmirrors := Engine.mirrors_of_bringUp (Nat.le_refl 1) hflawless hbrought hsound
  have hattached : port = ⟨0, .disk⟩ := by
    rw [hbrought.attached, SimulatedPort.attachment_eq, hflawless.kind]
  subst hattached
  exact ⟨engine, ready, hup, hbrought, hsound, hmirrors⟩

/-- A flawless disk with a standard page and at most 2^48 sectors, on a port that is brought up and
started with one slot at least and granted sound memory. Starting it succeeds, and from then on
every list of requests, of any length and with any numbers and buffers, is answered reply by reply
as the bare medium answers it, and leaves the drive with the medium that the requests would leave
there. A list may end anywhere, so the two agree behind every request. The size of the commands is
any that the config allows. What becomes of a clear is not compared, since it is advice. -/
theorem Disk.performAll_eq_memoryDisk {number slots : Nat} {config : Config}
    {start : World SimulatedPort} {areas : PortAreas} (hpos : 1 ≤ slots)
    (hpatient : 1 ≤ config.readyLimit.toNat) (hflawless : start.device.Flawless)
    (htold : PageBuilder.Standard start.device.drive.page start.device.drive.medium.blocks)
    (hfew : start.device.drive.medium.blocks ≤ 2 ^ 48)
    (hgranted : (PortAreas.allocate.exec start).1 = .ok (.ok areas)) (hsound : areas.Sound) :
    ∃ disk engine ready,
      (Adapter.startDevice number slots config).exec start = (.ok (.ok (disk, engine)), ready) ∧
      ∀ requests, ∃ replies later,
        (disk.blockDevice.performAll requests).exec engine ready =
          (.ok (replies, engine), later) ∧
        ((MemoryDisk.device start.device.drive.medium).performAll requests).run
          start.device.drive.medium = (replies, later.device.drive.medium) := by
  obtain ⟨answer, up, hended, hmade, hforward⟩ :=
    HostM.exists_bringUp (.port number) number slots config start hflawless.down
  have hattached : start.device.attachment = .disk := by
    rw [SimulatedPort.attachment_eq, hflawless.kind]
  obtain ⟨port, engine, rfl, hsame⟩ := hforward areas hgranted (by rw [hattached]; rfl) hpatient
  have hbrought := hmade port engine rfl
  have hmirrors := Engine.mirrors_of_bringUp hpos hflawless hbrought (by rwa [hsame])
  have hpage : PageBuilder.Standard up.device.drive.page start.device.drive.medium.blocks := by
    rw [hbrought.device]
    exact htold
  obtain ⟨disk, after, changed, issued, hprobed, hkept, hkind, hcount⟩ :=
    Disk.exists_probe hmirrors hpage (Nat.lt_of_le_of_lt hfew (by decide)) number up.memory
  have hfronts : disk.Fronts start.device.drive.medium := ⟨hkind, hcount⟩
  obtain ⟨ready, hended', haround, _⟩ := hprobed up rfl
  have hknown : port = ⟨number, .disk⟩ := by rw [hbrought.attached, hattached]
  refine ⟨disk, engine, ready, ?_, fun requests => ?_⟩
  · rw [Adapter.startDevice, HostM.exec_bind_ok hended]
    dsimp only
    rw [hknown, HostM.exec_bind_ok hended']
    rfl
  · obtain ⟨last, changed, issued, hyields, harrived⟩ := Disk.exists_performAll hkept hfronts
      hfew requests start.device.drive.medium changed
    obtain ⟨later, hfinished, hreached, _⟩ := hyields ready haround
    refine ⟨_, later, hfinished, ?_⟩
    have hmedium : later.device.drive.medium = _ :=
      (congrArg (fun machine => machine.device.drive.medium) hreached).trans harrived.medium
    exact Prod.ext rfl hmedium.symm

/-- The hypotheses are met by a disk of eight sectors that can discard, with one slot and commands
of three sectors. -/
theorem Disk.performAll_eq_memoryDisk_of_eight :
    let medium : Medium := .filled sectorSize 8 fun place => UInt8.ofNat (place / 100)
    let drive : Drive :=
      { Drive.disk medium with
        page := PageBuilder.announceTrim (PageBuilder.standard medium.blocks) }
    let config : Config := { blocksPerCommand := 3, readyLimit := 1, completionLimit := some 0 }
    ∃ disk engine ready, (Adapter.startDevice 0 1 config).exec (World.around drive) =
        (.ok (.ok (disk, engine)), ready) ∧
      ∀ requests, ∃ replies later,
        (disk.blockDevice.performAll requests).exec engine ready =
          (.ok (replies, engine), later) ∧
        ((MemoryDisk.device medium).performAll requests).run medium =
          (replies, later.device.drive.medium) := by
  intro medium drive config
  have hflawless : (World.around drive).device.Flawless :=
    ⟨rfl, rfl, rfl, rfl, rfl, rfl⟩
  exact Disk.performAll_eq_memoryDisk (Nat.le_refl 1) (by decide) hflawless (.inr rfl)
    (by decide) (allocate_around drive) sound_risingAreas

end Ahci
