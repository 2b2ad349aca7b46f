import Ahci.Proofs.BrokenOffRequests
import Ahci.Proofs.CommandHandover
import Ahci.Proofs.DeviceKnowledge

/-!
Commands that carry runs of blocks. A command names one run, and has data for just its blocks.
Whether a device carries a run shows before the command is sent, and having carried one it is
as able to carry the next as it was.
-/

namespace Ahci

namespace Span

/-- The pieces of a run of blocks: full ones of `most` blocks each, one behind the other without gap
or overlap, and a last one of at least one block and at most `most`. A run of no blocks has no
pieces. -/
inductive Tiles (most : Nat) : Span → List Span → Prop where
  | none (first : Nat) : Tiles most ⟨first, 0⟩ []
  | last {piece : Span} (hsome : 0 < piece.count) (hfew : piece.count ≤ most) :
      Tiles most piece [piece]
  | full {first count : Nat} {others : List Span} (hsome : 0 < count)
      (hrest : Tiles most ⟨first + most, count⟩ others) :
      Tiles most ⟨first, most + count⟩ (⟨first, most⟩ :: others)

variable {most : Nat} {span piece : Span} {pieces : List Span}

/-- The pieces that a driver cuts a run into tile it, for any positive size of a piece. -/
theorem tiles_cut (hpos : 0 < most) (span : Span) : Tiles most span (span.cut most) := by
  induction hsize : span.count using Nat.strongRecOn generalizing span with
  | ind count ih =>
    subst hsize
    obtain ⟨first, count⟩ := span
    by_cases hempty : count = 0
    · subst hempty
      rw [cut_of_count_eq_zero hpos rfl]
      exact .none first
    · rw [cut_of_count_pos hpos (Nat.pos_of_ne_zero hempty)]
      by_cases hshort : count ≤ most
      · have hnothing : (drop ⟨first, count⟩ most).cut most = [] := by
          apply cut_of_count_eq_zero hpos
          simp only [drop]
          omega
        have hwhole : take ⟨first, count⟩ most = ⟨first, count⟩ := by
          simp only [take, Nat.min_eq_right hshort]
        rw [hnothing, hwhole]
        exact .last (Nat.pos_of_ne_zero hempty) hshort
      · have hfront : take ⟨first, count⟩ most = ⟨first, most⟩ := by
          simp only [take, Span.mk.injEq, true_and]
          omega
        have hsum : count = most + (count - most) := by omega
        have hrest := ih (count - most) (by dsimp only; omega) ⟨first + most, count - most⟩ rfl
        have htiles := Tiles.full (by omega) hrest
        rw [← hsum] at htiles
        rw [hfront]
        exact htiles

/-- Each of the pieces has between one and `most` blocks, and none reaches behind the end of the
run. -/
theorem Tiles.within (hpos : 0 < most) (htiles : Tiles most span pieces) :
    ∀ piece ∈ pieces, 0 < piece.count ∧ piece.count ≤ most ∧ piece.stop ≤ span.stop := by
  induction htiles with
  | none first => exact nofun
  | last hsome hfew =>
    intro piece hmember
    cases List.mem_singleton.1 hmember
    exact ⟨hsome, hfew, Nat.le_refl _⟩
  | full hsome hrest ih =>
    intro piece hmember
    rcases List.mem_cons.1 hmember with rfl | hlater
    · simp only [stop]
      omega
    · have hinside := ih piece hlater
      simp only [stop] at hinside ⊢
      omega

/-- A run is tiled in one way only, which is how the driver cuts it. -/
theorem Tiles.eq_cut (hpos : 0 < most) (htiles : Tiles most span pieces) :
    pieces = span.cut most := by
  induction htiles with
  | none first => rw [cut_of_count_eq_zero hpos rfl]
  | @last piece hsome hfew =>
    have hwhole : piece.take most = piece := by
      simp only [take, Nat.min_eq_right hfew]
    have hnothing : (piece.drop most).cut most = [] := by
      apply cut_of_count_eq_zero hpos
      simp only [drop]
      omega
    rw [cut_of_count_pos hpos hsome, hwhole, hnothing]
  | @full first count others hsome hrest ih =>
    have hfront : take ⟨first, most + count⟩ most = ⟨first, most⟩ := by
      simp only [take, Span.mk.injEq, true_and]
      omega
    have hbehind : drop ⟨first, most + count⟩ most = ⟨first + most, count⟩ := by
      simp only [drop, Span.mk.injEq, true_and]
      omega
    rw [cut_of_count_pos hpos (Nat.add_pos_left hpos count), hfront, hbehind, ih]

theorem Tiles.behind (htiles : Tiles most span (piece :: pieces)) :
    ∃ count, span = ⟨piece.first, piece.count + count⟩ ∧
      Tiles most ⟨piece.stop, count⟩ pieces := by
  cases htiles with
  | last hsome hfew => exact ⟨0, rfl, .none _⟩
  | full hsome hrest => exact ⟨_, rfl, hrest⟩

end Span

/-! Devices that carry blocks. -/

namespace Drive

/-- Whether a drive carries out commands of a code for a run of blocks: it has no fault queued for
the code, it holds the blocks, and its tray is closed if it is a packet drive. -/
structure Carries (drive : Drive) (code : UInt8) (span : Span) : Prop where
  untouched : drive.takeFault code = none
  holds : span.stop ≤ drive.medium.blocks
  closed : drive.kind = .packetDrive → drive.trayOpen = false

/-- A drive that is as able to carry blocks as before: its kind, queued faults, tray and number of
blocks are unchanged. What the blocks hold may differ. -/
structure Still (drive left : Drive) : Prop where
  kind : left.kind = drive.kind
  faults : left.faults = drive.faults
  tray : left.trayOpen = drive.trayOpen
  blocks : left.medium.blocks = drive.medium.blocks

variable {drive left : Drive} {code : UInt8} {span : Span} {command : FetchedCommand}

/-- A drive that is still as able carries the same runs of blocks. -/
theorem Still.carries_iff (hstill : drive.Still left) :
    left.Carries code span ↔ drive.Carries code span := by
  have hfaults : left.takeFault code = none ↔ drive.takeFault code = none := by
    rw [takeFault_eq_none_iff, takeFault_eq_none_iff, hstill.faults]
  constructor
  · rintro ⟨huntouched, hholds, hclosed⟩
    rw [hstill.kind, hstill.tray] at hclosed
    rw [hstill.blocks] at hholds
    exact ⟨hfaults.1 huntouched, hholds, hclosed⟩
  · rintro ⟨huntouched, hholds, hclosed⟩
    rw [← hstill.kind, ← hstill.tray] at hclosed
    rw [← hstill.blocks] at hholds
    exact ⟨hfaults.2 huntouched, hholds, hclosed⟩

/-- A disk carries out a read or a write of sectors exactly if it carries the run, whatever memory
holds. -/
theorem done_iff_of_sectors (hkind : drive.kind = .disk) (hsectors : command.ForSectors code span)
    (hknown : code = Opcode.readDmaExt ∨ code = Opcode.writeDmaExt) (memory : Memory) :
    (drive.run command memory).1 = .done ↔ drive.Carries code span := by
  have haccepts : drive.refuses? code span = none ↔ drive.Carries code span := by
    rw [refuses?_eq_none_iff]
    constructor
    · rintro ⟨huntouched, hholds⟩
      refine ⟨huntouched, of_decide_eq_true hholds, ?_⟩
      rw [hkind]
      exact nofun
    · intro hcarries
      exact ⟨hcarries.untouched, decide_eq_true hcarries.holds⟩
  rw [← haccepts]
  cases hrefused : drive.refuses? code span with
  | none =>
    rcases hknown with rfl | rfl
    · rw [run_read hkind hsectors hrefused]
      simp
    · rw [run_write hkind hsectors hrefused]
      simp
  | some refusal =>
    obtain ⟨ending, rest⟩ := refusal
    rw [run_of_refused hkind hsectors hknown hrefused]
    simpa using refuses?_ne_done hrefused

/-- A disk that carried out a read or a write of sectors is as able to carry blocks as before. -/
theorem still_of_sectors (hkind : drive.kind = .disk) (hsectors : command.ForSectors code span)
    (hknown : code = Opcode.readDmaExt ∨ code = Opcode.writeDmaExt) {memory : Memory}
    (hdone : (drive.run command memory).1 = .done) :
    drive.Still (drive.run command memory).2.1 := by
  have hcarries := (done_iff_of_sectors hkind hsectors hknown memory).1 hdone
  have haccepted : drive.refuses? code span = none :=
    refuses?_eq_none_iff.2 ⟨hcarries.untouched, decide_eq_true hcarries.holds⟩
  rcases hknown with rfl | rfl
  · rw [run_read hkind hsectors haccepted]
    exact ⟨rfl, rfl, rfl, rfl⟩
  · rw [run_write hkind hsectors haccepted]
    exact ⟨rfl, rfl, rfl, rfl⟩

/-- A packet drive without a fault queued answers READ(12) in one of three ways: it is not ready if
its tray is open, it delivers the blocks if it holds them, and otherwise it fails an illegal
request. The drive itself never changes. -/
theorem run_readBlocks_of_untouched (hkind : drive.kind = .packetDrive)
    (huntouched : drive.takeFault Opcode.packet = none) {lba blocks : UInt32}
    (hpacket : command.fis.opcode = Opcode.packet) (hcdb : command.cdb = some (.read lba blocks))
    (memory : Memory) :
    drive.run command memory =
      if drive.trayOpen then (.checkCondition ⟨SenseKey.notReady, 0x3A, 0⟩, drive, memory)
      else if drive.medium.holds lba.toNat blocks.toNat then
        (.done, drive,
          scatterData command.entries (drive.medium.read lba.toNat blocks.toNat) memory)
      else (.checkCondition ⟨SenseKey.illegalRequest, 0x21, 0⟩, drive, memory) := by
  obtain ⟨hfirst, hcount⟩ := Cdb.blocks_read lba blocks
  have hcode : (Cdb.read lba blocks).opcode = Cdb.readCode := Cdb.byte_ofBytes _ (by decide)
  have hsound : drive.runSound command memory =
      drive.runPacket (.read lba blocks) command.entries memory := by
    rw [runSound, hkind, hcdb]
    exact if_pos hpacket
  rw [run, hpacket, huntouched]
  dsimp only
  rw [hsound, runPacket, hcode, hfirst, hcount, if_neg (by decide), if_neg (by decide), if_pos rfl]

/-- A packet drive carries out READ(12) exactly if it carries the run, and is then the same
drive. -/
theorem run_readBlocks (hkind : drive.kind = .packetDrive) {lba blocks : UInt32}
    (hpacket : command.fis.opcode = Opcode.packet) (hcdb : command.cdb = some (.read lba blocks))
    (memory : Memory) :
    ((drive.run command memory).1 = .done ↔
        drive.Carries Opcode.packet ⟨lba.toNat, blocks.toNat⟩) ∧
      ((drive.run command memory).1 = .done → (drive.run command memory).2.1 = drive) := by
  cases huntouched : drive.takeFault Opcode.packet with
  | some taken =>
    obtain ⟨fault, rest⟩ := taken
    have hfails : ¬ drive.Carries Opcode.packet ⟨lba.toNat, blocks.toNat⟩ := by
      intro hcarries
      rw [hcarries.untouched] at huntouched
      cases huntouched
    rw [run, hpacket, huntouched]
    cases fault <;> simp [hfails]
  | none =>
    rw [run_readBlocks_of_untouched hkind huntouched hpacket hcdb]
    cases htray : drive.trayOpen with
    | true =>
      have hfails : ¬ drive.Carries Opcode.packet ⟨lba.toNat, blocks.toNat⟩ := by
        intro hcarries
        cases htray.symm.trans (hcarries.closed hkind)
      simp [hfails]
    | false =>
      cases hholds : drive.medium.holds lba.toNat blocks.toNat with
      | true =>
        have hcarries : drive.Carries Opcode.packet ⟨lba.toNat, blocks.toNat⟩ :=
          ⟨huntouched, of_decide_eq_true hholds, fun _ => htray⟩
        simp [hcarries]
      | false =>
        have hfails : ¬ drive.Carries Opcode.packet ⟨lba.toNat, blocks.toNat⟩ := by
          intro hcarries
          exact absurd hcarries.holds (of_decide_eq_false hholds)
        simp [hfails]

end Drive

/-! Commands that carry blocks. -/

/-- The run of blocks that a fetched command names, in its frame or in its packet. -/
def FetchedCommand.span (command : FetchedCommand) : Span :=
  match command.cdb with
  | none => ⟨command.fis.lba.toNat, command.fis.count.toNat⟩
  | some cdb => ⟨cdb.readLba, cdb.readBlocks⟩

/-- A way of moving blocks: sectors read, sectors written, or the blocks of a packet drive read. -/
inductive Haul where
  | readSectors
  | writeSectors
  | readBlocks

namespace Haul

def device : Haul → DriveKind
  | readBlocks => .packetDrive
  | _ => .disk

/-- The code in the frame of a command. -/
def code : Haul → UInt8
  | readSectors => Opcode.readDmaExt
  | writeSectors => Opcode.writeDmaExt
  | readBlocks => Opcode.packet

def blockSize : Haul → Nat
  | readBlocks => driveBlockSize
  | _ => sectorSize

/-- Blocks that one command can carry. -/
def most : Haul → Nat
  | readBlocks => maxDriveBlocks
  | _ => maxSectors

/-- Blocks that a command can address. -/
def reach : Haul → Nat
  | readBlocks => UInt32.size
  | _ => 0x1000000000000

def command (haul : Haul) (piece : Span) : Command :=
  match haul with
  | readSectors => .readSectors piece.first piece.count
  | writeSectors => .writeSectors piece.first piece.count
  | readBlocks => .readBlocks piece.first piece.count

/-- A fetched command of this way: it has the code, and the code of the packet if there is one, and
its entries have room for just the bytes of the blocks it names. -/
structure Bears (haul : Haul) (command : FetchedCommand) : Prop where
  code : command.fis.opcode = haul.code
  packet : command.cdb.map Cdb.opcode =
    match haul with
    | readBlocks => some Cdb.readCode
    | _ => none
  bytes : command.bytes = command.span.count * haul.blockSize

/-- A piece that one command can carry and address: at least one block, no more than a command can
move, and a first block within reach. -/
structure Single (haul : Haul) (piece : Span) : Prop where
  some : 0 < piece.count
  few : piece.count ≤ haul.most
  low : piece.first < haul.reach

variable {haul : Haul} {piece : Span} {engine : Engine} {port between after : SimulatedPort}

theorem describable (hsingle : haul.Single piece) : (haul.command piece).data.Describable := by
  obtain ⟨hsome, hfew, _⟩ := hsingle
  right
  cases haul with
  | readSectors =>
    have hshort : piece.count ≤ 128 := hfew
    change 2 ≤ piece.count * 512 ∧ piece.count * 512 % 2 = 0 ∧ piece.count * 512 ≤ 65536
    omega
  | writeSectors =>
    have hshort : piece.count ≤ 128 := hfew
    change 2 ≤ piece.count * 512 ∧ piece.count * 512 % 2 = 0 ∧ piece.count * 512 ≤ 65536
    omega
  | readBlocks =>
    have hshort : piece.count ≤ 32 := hfew
    change 2 ≤ piece.count * 2048 ∧ piece.count * 2048 % 2 = 0 ∧ piece.count * 2048 ≤ 65536
    omega

/-- The frame of a command for sectors is read back as the piece it was made for. -/
theorem forSectors (hsingle : haul.Single piece) (hdisk : haul.device = .disk)
    (entries : List ScatterEntry) :
    ((haul.command piece).fetched 0 entries).ForSectors haul.code piece := by
  cases haul with
  | readSectors => exact forSectors_fetched ⟨hsingle.some, hsingle.few, hsingle.low⟩ rfl rfl entries
  | writeSectors =>
    exact forSectors_fetched ⟨hsingle.some, hsingle.few, hsingle.low⟩ rfl rfl entries
  | readBlocks => cases hdisk

theorem toNat_piece (hsingle : readBlocks.Single piece) :
    (UInt32.ofNat piece.first).toNat = piece.first ∧
      (UInt32.ofNat piece.count).toNat = piece.count := by
  have hlow : piece.first < 4294967296 := hsingle.low
  have hfew : piece.count ≤ 32 := hsingle.few
  rw [UInt32.toNat_ofNat', UInt32.toNat_ofNat']
  omega

theorem span_fetched (hsingle : haul.Single piece) (entries : List ScatterEntry) :
    ((haul.command piece).fetched 0 entries).span = piece := by
  cases hkind : haul.device with
  | disk =>
    have hsectors := forSectors hsingle hkind entries
    rw [FetchedCommand.span, hsectors.plain, hsectors.first, hsectors.count]
  | packetDrive =>
    cases haul with
    | readBlocks =>
      obtain ⟨hfirst, hcount⟩ :=
        Cdb.blocks_read (UInt32.ofNat piece.first) (UInt32.ofNat piece.count)
      obtain ⟨hlow, hfew⟩ := toNat_piece hsingle
      rw [hlow] at hfirst
      rw [hfew] at hcount
      change (⟨(Cdb.read _ _).readLba, (Cdb.read _ _).readBlocks⟩ : Span) = piece
      rw [hfirst, hcount]
    | readSectors => cases hkind
    | writeSectors => cases hkind
  | empty => cases haul <;> cases hkind

/-- A fetched command has data for just the blocks of the piece it was made for. -/
theorem bears_fetched (hsingle : haul.Single piece) (hlayout : engine.areas.Layout)
    {entries : List ScatterEntry} (hformed : engine.scatter (haul.command piece) = .ok entries) :
    haul.Bears ((haul.command piece).fetched 0 entries) := by
  have hconveys : ((haul.command piece).fetched 0 entries).Conveys engine.areas
    (haul.command piece) := Engine.conveys_fetched hlayout hformed
  refine ⟨?_, ?_, ?_⟩
  · cases haul <;> rfl
  · cases haul with
    | readBlocks => exact congrArg some (Cdb.byte_ofBytes _ (by decide))
    | readSectors => rfl
    | writeSectors => rfl
  · rw [hconveys.total, span_fetched hsingle]
    cases haul <;> rfl

/-- A drive carries out a command for a piece exactly if it carries the piece, and is then as able
to carry blocks as before. -/
theorem run_command (hsingle : haul.Single piece) {drive : Drive} (hkind : drive.kind = haul.device)
    (entries : List ScatterEntry) (memory : Memory) :
    ((drive.run ((haul.command piece).fetched 0 entries) memory).1 = .done ↔
        drive.Carries haul.code piece) ∧
      ((drive.run ((haul.command piece).fetched 0 entries) memory).1 = .done →
        drive.Still (drive.run ((haul.command piece).fetched 0 entries) memory).2.1) := by
  cases haul with
  | readSectors =>
    have hsectors := forSectors hsingle rfl entries
    exact ⟨Drive.done_iff_of_sectors hkind hsectors (.inl rfl) memory,
      Drive.still_of_sectors hkind hsectors (.inl rfl)⟩
  | writeSectors =>
    have hsectors := forSectors hsingle rfl entries
    exact ⟨Drive.done_iff_of_sectors hkind hsectors (.inr rfl) memory,
      Drive.still_of_sectors hkind hsectors (.inr rfl)⟩
  | readBlocks =>
    obtain ⟨hlow, hfew⟩ := toNat_piece hsingle
    obtain ⟨hdone, hsame⟩ := drive.run_readBlocks hkind
      (show ((readBlocks.command piece).fetched 0 entries).fis.opcode = Opcode.packet from rfl)
      (show ((readBlocks.command piece).fetched 0 entries).cdb = some (.read _ _) from rfl) memory
    rw [hlow, hfew] at hdone
    refine ⟨hdone, ?_⟩
    intro hcarried
    rw [hsame hcarried]
    exact ⟨rfl, rfl, rfl, rfl⟩

/-- A port carries a run of blocks if it is neither busy nor stalled and its drive carries the
run. -/
structure Carries (haul : Haul) (port : SimulatedPort) (span : Span) : Prop where
  willing : port.Willing
  drive : port.drive.Carries haul.code span

/-- The device behind a port carries out a command for a piece exactly if the port carries the
piece. -/
theorem carriesOut_iff (hsingle : haul.Single piece) (hkind : port.drive.kind = haul.device) :
    engine.CarriesOut (haul.command piece) port ↔ haul.Carries port piece := by
  constructor
  · rintro ⟨hwilling, entries, _, hdone⟩
    exact ⟨hwilling, (run_command hsingle hkind entries {}).1.1 hdone⟩
  · rintro ⟨hwilling, hcarries⟩
    obtain ⟨entries, hformed⟩ := engine.exists_scatter_of_describable (describable hsingle)
    exact ⟨hwilling, entries, hformed, (run_command hsingle hkind entries {}).1.2 hcarries⟩

/-- One port comes from another by one command for each of some pieces, in their order and with data
for just the blocks of each. It is as able to carry blocks as before, and its switches are where
they were. -/
structure Moved (haul : Haul) (pieces : List Span) (before after : SimulatedPort) : Prop where
  still : before.drive.Still after.drive
  busy : after.busy = before.busy
  stalled : after.stalled = before.stalled
  fetched : ∃ made : List FetchedCommand, after.fetched = made.reverse ++ before.fetched ∧
    made.map FetchedCommand.span = pieces ∧ ∀ command ∈ made, haul.Bears command

namespace Moved

theorem refl (port : SimulatedPort) : haul.Moved [] port port :=
  ⟨⟨rfl, rfl, rfl, rfl⟩, rfl, rfl, [], rfl, rfl, nofun⟩

/-- The pieces moved on the way from one port to a third are those moved on the way to a port
between, and those moved behind it. -/
theorem append {pieces others : List Span} (hearly : haul.Moved pieces port between)
    (hlate : haul.Moved others between after) : haul.Moved (pieces ++ others) port after := by
  obtain ⟨made, hfetched, hnamed, hborn⟩ := hearly.fetched
  obtain ⟨more, hfurther, hothers, hborne⟩ := hlate.fetched
  refine ⟨?_, hlate.busy.trans hearly.busy, hlate.stalled.trans hearly.stalled, made ++ more,
    ?_, ?_, ?_⟩
  · exact ⟨hlate.still.kind.trans hearly.still.kind, hlate.still.faults.trans hearly.still.faults,
      hlate.still.tray.trans hearly.still.tray, hlate.still.blocks.trans hearly.still.blocks⟩
  · rw [hfurther, hfetched, List.reverse_append, List.append_assoc]
  · rw [List.map_append, hnamed, hothers]
  · intro command hmember
    rcases List.mem_append.1 hmember with hold | hnew
    · exact hborn command hold
    · exact hborne command hnew

/-- Moving blocks does not change which runs a port carries. -/
theorem carries_iff {pieces : List Span} (hmoved : haul.Moved pieces port after) {span : Span} :
    haul.Carries after span ↔ haul.Carries port span := by
  have hwilling : after.Willing ↔ port.Willing := by
    constructor
    · rintro ⟨hprompt, hmoving⟩
      exact ⟨hmoved.busy.symm.trans hprompt, hmoved.stalled.symm.trans hmoving⟩
    · rintro ⟨hprompt, hmoving⟩
      exact ⟨hmoved.busy.trans hprompt, hmoved.stalled.trans hmoving⟩
  constructor
  · rintro ⟨hready, hcarries⟩
    exact ⟨hwilling.1 hready, hmoved.still.carries_iff.1 hcarries⟩
  · rintro ⟨hready, hcarries⟩
    exact ⟨hwilling.2 hready, hmoved.still.carries_iff.2 hcarries⟩

end Moved

/-- A port behind a command that its device carried out has moved the piece of this command. -/
theorem moved_of_carried (hsingle : haul.Single piece) (hlayout : engine.areas.Layout)
    (hkind : port.drive.kind = haul.device)
    (hcarried : engine.Carried (haul.command piece) port after) :
    haul.Moved [piece] port after := by
  obtain ⟨entries, left, built, changed, hformed, hran, rfl⟩ := hcarried
  have hstill := (run_command hsingle hkind entries built).2 (congrArg Prod.fst hran)
  rw [hran] at hstill
  refine ⟨hstill, rfl, rfl, [(haul.command piece).fetched 0 entries], rfl, ?_, ?_⟩
  · rw [List.map_singleton, span_fetched hsingle]
  · intro command hmember
    cases List.mem_singleton.1 hmember
    exact bears_fetched hsingle hlayout hformed

end Haul

end Ahci
