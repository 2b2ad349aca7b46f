import Ahci.Proofs.RequestRefusals
import Mathlib.Algebra.GroupWithZero.Nat

/-!
Reads from a packet drive. The drive does not say how many blocks it has, so a read may run into
the end of what sixty-four bits can count, of what a command can name and of what the medium has,
and into an open tray. The pieces of a read are read one after the other as far as the first that
is declined: by then the blocks before it are in the buffer, and no command follows but the one
that asks the drive why.
-/

namespace Ahci

open Haul (Single)

namespace Drive

/-- What reading a run of blocks fails with on a packet drive without a fault queued, if it does:
out of range if the first block does not fit the 32 bits of the packet, and then no command is sent;
no medium if the tray is open; unsupported if the run reaches behind the medium, since the drive
takes that for an illegal request. -/
def declines? (drive : Drive) (span : Span) : Option IoError :=
  if UInt32.size ≤ span.first then some .outOfRange
  else if drive.trayOpen then some .noMedia
  else if drive.medium.blocks < span.stop then some .unsupported
  else none

variable {drive : Drive} {piece : Span} {error : IoError}

/-- A run is read exactly if a packet can name it, the tray is closed and the medium holds it. -/
theorem declines?_eq_none_iff : drive.declines? piece = none ↔
    piece.first < UInt32.size ∧ drive.trayOpen = false ∧ piece.stop ≤ drive.medium.blocks := by
  unfold declines?
  split
  · simp; omega
  · split
    · simp_all
    · split
      · simp; omega
      · simp_all

/-- What a packet drive without a fault queued makes of the command for a piece, in each of the
three cases. The drive itself never changes. -/
theorem run_piece (hkind : drive.kind = .packetDrive)
    (huntouched : drive.takeFault Opcode.packet = none) (hsingle : Haul.readBlocks.Single piece)
    (entries : List ScatterEntry) (memory : Memory) :
    drive.run ((Haul.readBlocks.command piece).fetched 0 entries) memory =
      if drive.trayOpen then (.checkCondition ⟨SenseKey.notReady, 0x3A, 0⟩, drive, memory)
      else if drive.medium.holds piece.first piece.count then
        (.done, drive, scatterData entries (drive.medium.read piece.first piece.count) memory)
      else (.checkCondition ⟨SenseKey.illegalRequest, 0x21, 0⟩, drive, memory) := by
  obtain ⟨hlow, hfew⟩ := Haul.toNat_piece hsingle
  have hran := run_readBlocks_of_untouched hkind huntouched
    (show ((Haul.readBlocks.command piece).fetched 0 entries).fis.opcode = Opcode.packet from rfl)
    (show ((Haul.readBlocks.command piece).fetched 0 entries).cdb = some (.read _ _) from rfl)
    memory
  rwa [hlow, hfew] at hran

/-- A drive without a fault queued carries out the packet that it is sent. -/
theorem run_packet (hkind : drive.kind = .packetDrive)
    (huntouched : drive.takeFault Opcode.packet = none) (cdb : Cdb) (data : DataPhase)
    (label : String) (entries : List ScatterEntry) (memory : Memory) :
    drive.run ((Command.packet cdb data label).fetched 0 entries) memory =
      drive.runPacket cdb entries memory := by
  have hpacket : ((Command.packet cdb data label).fetched 0 entries).fis.opcode =
      Opcode.packet := rfl
  rw [run, hpacket, huntouched]
  dsimp only
  rw [runSound, hkind]
  exact if_pos hpacket

theorem run_inquiry (hkind : drive.kind = .packetDrive)
    (huntouched : drive.takeFault Opcode.packet = none) (length : UInt8) (data : DataPhase)
    (label : String) (entries : List ScatterEntry) (memory : Memory) :
    drive.run ((Command.packet (.inquiry length) data label).fetched 0 entries) memory =
      (.done, drive, scatterData entries
        (inquiryAnswer.take ((Cdb.inquiry length).byte 4).toNat) memory) := by
  have hcode : (Cdb.inquiry length).opcode = Cdb.inquiryCode := Cdb.byte_ofBytes _ (by decide)
  rw [run_packet hkind huntouched, runPacket, hcode, if_pos rfl]

/-- A piece that the drive declines ends in a check condition whose sense stands for the error that
is told, and leaves drive and memory as they were. -/
theorem run_of_declined (hkind : drive.kind = .packetDrive)
    (huntouched : drive.takeFault Opcode.packet = none) (hsingle : Haul.readBlocks.Single piece)
    (hdeclined : drive.declines? piece = some error) :
    ∃ sense, (∀ entries memory,
        drive.run ((Haul.readBlocks.command piece).fetched 0 entries) memory =
          (.checkCondition sense, drive, memory)) ∧
      (explanation { drive with pendingSense := some sense }).failure = error := by
  have hlow : piece.first < UInt32.size := hsingle.low
  rw [declines?, if_neg (Nat.not_le_of_lt hlow)] at hdeclined
  split at hdeclined
  · next hopened =>
    cases hdeclined
    refine ⟨⟨SenseKey.notReady, 0x3A, 0⟩, ?_,
      show SenseData.failure ⟨SenseKey.notReady &&& 0x0F, 0x3A, 0⟩ = _ by decide⟩
    intro entries memory
    rw [run_piece hkind huntouched hsingle, if_pos hopened]
  · next hclosed =>
    split at hdeclined
    · next hbeyond =>
      cases hdeclined
      refine ⟨⟨SenseKey.illegalRequest, 0x21, 0⟩, ?_,
        show SenseData.failure ⟨SenseKey.illegalRequest &&& 0x0F, 0x21, 0⟩ = _ by decide⟩
      intro entries memory
      have hlacks : ¬ drive.medium.holds piece.first piece.count = true := by
        rw [Medium.holds, decide_eq_true_eq]
        exact Nat.not_le_of_lt hbeyond
      rw [run_piece hkind huntouched hsingle, if_neg hclosed, if_neg hlacks]
    · cases hdeclined

end Drive

namespace EngineM

variable {engine left : Engine} {port : SimulatedPort} {before after : Machine SimulatedPort}
  {answer : Except IoError SenseData} {issued : Nat}

/-- A check condition is reported by what the answer to REQUEST SENSE stands for, and REQUEST SENSE
is all that is issued for it. -/
theorem yields_checkCondition
    (hasked : RequestM.requestSense.Yields engine before (.ok (answer, left)) after issued)
    (label : String) :
    (checkCondition label).Yields engine before (.ok (SenseData.failureOf answer, left)) after
      issued := by
  have hnoted (error : IoError) (explanation : String) :
      (do
        noteSense label error explanation
        return error : EngineM SimulatedPort IoError).Yields left after (.ok (error, left)) after
          0 :=
    (yields_withEngine (HostM.yields_note _ (by decide) _)).seq (yields_pure error left _)
  have hasked : RequestM.requestSense.run.Yields engine before (.ok (answer, left)) after issued :=
    hasked
  cases answer with
  | ok sense => exact hasked.finish (hnoted sense.failure sense.describe)
  | error error => exact hasked.finish (hnoted .timeout "no sense data")

/-- A packet command that the drive takes and fails issues two commands, itself and one REQUEST
SENSE behind it. It fails with what the sense stands for, and the engine remembers the sense. -/
theorem exists_packet_of_failed (hfits : engine.Fits port) (hwilling : port.Willing)
    (hkind : port.drive.kind = .packetDrive) {cdb : Cdb} {data : DataPhase} {label : String}
    {entries : List ScatterEntry} {ending : Ending} {drive : Drive} {memory changed : Memory}
    (hformed : engine.scatter (.packet cdb data label) = .ok entries) (hfailed : ending ≠ .done)
    (hran : port.drive.run ((Command.packet cdb data label).fetched 0 entries)
      (engine.build 0 (.packet cdb data label) entries memory) = (ending, drive, changed)) :
    ∃ answer last shown pieces, (packet cdb data label).Yields engine ⟨port, memory⟩
        (.ok (.error (SenseData.failureOf answer), engine.told answer.toOption)) ⟨last, shown⟩ 2 ∧
      answer.toOption = (ending.explained drive).tells? ∧
      last.fetched = Command.requestSense.fetched 0 pieces ::
        (Command.packet cdb data label).fetched 0 entries :: port.fetched := by
  obtain ⟨hsteady, hsized, hlayout, hregular⟩ := hfits
  let command := Command.packet cdb data label
  have hyields := yields_runCommand_of_run hsteady hlayout hwilling hformed hran
  obtain ⟨error, hshown, houtcome⟩ := SimulatedPort.showEnding_failed engine.areas hfailed
  rw [houtcome, if_pos (show (Command.packet cdb data label).isPacket = true from rfl)] at hyields
  have hrecovered : (withEngine Engine.recover).Yields engine _ _ _ 0 :=
    yields_withEngine (Engine.yields_recover hsteady.patient
      (show (port.served engine.areas (command.fetched 0 entries) ending drive).registers = _
        from hshown) changed)
  have hrested := Engine.serves_rested hsteady (command.fetched 0 entries) ending drive
  have hable : ((port.served engine.areas (command.fetched 0 entries) ending drive).rested
      engine.areas).Willing := ⟨hwilling.prompt, hwilling.moving⟩
  have hsame : (ending.explained drive).kind = .packetDrive := by
    have hkept := port.drive.nameplate_run (command.fetched 0 entries)
      (engine.build 0 command entries memory)
    rw [hran] at hkept
    have hstill : drive.kind = .packetDrive := (congrArg Prod.fst hkept).trans hkind
    cases ending <;> exact hstill
  obtain ⟨answer, last, later, pieces, hasked, htells, hfetched⟩ :=
    RequestM.exists_requestSense hrested.steady hsized hlayout hable (hrested.drive ▸ hsame) changed
  refine ⟨answer, last, later, pieces, ?_, ?_, ?_⟩
  · refine hyields.bind (n := 1) ?_
    refine hrecovered.seq ?_
    exact (yields_checkCondition hasked label).finish (yields_pure _ _ _)
  · rw [htells, hrested.drive]
  · exact hfetched

end EngineM

/-! One piece of a read. -/

/-- The READ(12) packet by which a run of blocks is read. -/
def Span.packet (span : Span) : Cdb :=
  .read (UInt32.ofNat span.first) (UInt32.ofNat span.count)

/-- The packets by which pieces are read, newest first. -/
def Span.packets (pieces : List Span) : List (Option Cdb) :=
  (pieces.map fun piece => some piece.packet).reverse

/-- The packets fetched over a piece that the drive declines, newest first: REQUEST SENSE behind the
READ(12), or none at all if no packet can name the piece. -/
def Span.declinedPackets (piece : Span) : List (Option Cdb) :=
  if UInt32.size ≤ piece.first then []
  else [some (.requestSense SenseData.requestLength), some piece.packet]

/-- The packets of the commands that a device has fetched, newest first. -/
def SimulatedPort.packets (port : SimulatedPort) : List (Option Cdb) :=
  port.fetched.map FetchedCommand.cdb

/-- A port that fits and is neither busy nor stalled, in front of a packet drive without a fault
queued. -/
structure Engine.Attentive (engine : Engine) (port : SimulatedPort) : Prop where
  fits : engine.Fits port
  willing : port.Willing
  kind : port.drive.kind = .packetDrive
  untouched : port.drive.takeFault Opcode.packet = none

/-- A port is still attentive behind a request that left the drive as it was. -/
theorem Engine.Attentive.of_serves {engine : Engine} {port after : SimulatedPort}
    (hattentive : engine.Attentive port) (hserves : engine.Serves port port.drive after) :
    engine.Attentive after where
  fits := ⟨hserves.steady, hattentive.fits.sized, hattentive.fits.layout,
    hserves.drive ▸ hattentive.fits.regular⟩
  willing := ⟨hserves.busy.trans hattentive.willing.prompt,
    hserves.stalled.trans hattentive.willing.moving⟩
  kind := hserves.drive ▸ hattentive.kind
  untouched := hserves.drive ▸ hattentive.untouched

namespace RequestM

variable {engine : Engine} {port : SimulatedPort} {piece : Span} {error : IoError}

/-- A read of a piece that one command carries passes all of its checks, and is the packet command
with the staging area read behind it. -/
theorem readBlocks_eq (hsingle : Haul.readBlocks.Single piece) :
    (readBlocks piece.first piece.count : RequestM SimulatedPort _) = (do
      packet piece.packet (.toHost (piece.count * driveBlockSize)) "atapi read"
      onEngine (EngineM.readStaging (piece.count * driveBlockSize))) := by
  have hlow : piece.first < UInt32.size := hsingle.low
  rw [readBlocks, require_bind (decide_eq_true (show _ ≤ maxDriveBlocks from hsingle.few)),
    if_neg (Nat.ne_of_gt hsingle.some)]
  dsimp only
  rw [if_neg (Nat.not_le_of_lt hlow)]
  rfl

/-- A piece that the drive does not decline is read with one command, returns the blocks of the
medium, and leaves the drive as it was. -/
theorem exists_readBlocks (hattentive : engine.Attentive port)
    (hsingle : Haul.readBlocks.Single piece) (haccepted : port.drive.declines? piece = none)
    (memory : Memory) :
    ∃ after changed, (readBlocks piece.first piece.count).Yields engine ⟨port, memory⟩
        (.ok (.ok (port.drive.medium.read piece.first piece.count), engine)) ⟨after, changed⟩ 1 ∧
      engine.Serves port port.drive after ∧
      after.packets = some piece.packet :: port.packets := by
  obtain ⟨hfits, hwilling, hkind, huntouched⟩ := hattentive
  obtain ⟨hlow, hclosed, hheld⟩ := Drive.declines?_eq_none_iff.1 haccepted
  obtain ⟨hsteady, hsized, hlayout, hregular⟩ := hfits
  let command := Haul.readBlocks.command piece
  let data := port.drive.medium.read piece.first piece.count
  obtain ⟨entries, hformed⟩ := engine.exists_scatter_of_describable (Haul.describable hsingle)
  have hran := Drive.run_piece hkind huntouched hsingle entries
    (engine.build 0 command entries memory)
  have hholds : port.drive.medium.holds piece.first piece.count = true := decide_eq_true hheld
  rw [if_neg (by rw [hclosed]; decide), if_pos hholds] at hran
  have hlength : data.length = piece.count * driveBlockSize := by
    rw [Medium.length_read, hregular.blocks hkind]
  have hfew : piece.count ≤ 32 := hsingle.few
  have hfit : data.length ≤ 65536 := by
    simp only [hlength, driveBlockSize]
    omega
  obtain ⟨changed, hyields, htaken⟩ := exists_delivered hsteady hsized hlayout hwilling hformed
    (congrArg DataPhase.toHost hlength.symm) hfit hran
  rw [hlength] at htaken
  rw [readBlocks_eq hsingle]
  exact ⟨_, changed, RequestM.Yields.finish (EngineM.yields_packet_of_ok hyields) htaken,
    Engine.serves_served hsteady (command.fetched 0 entries) port.drive, rfl⟩

/-- A piece that the drive declines fails with the error that is told, with the packets that are
told, over every memory. -/
theorem exists_readBlocks_of_declined (hattentive : engine.Attentive port)
    (hsome : 0 < piece.count) (hfew : piece.count ≤ maxDriveBlocks)
    (hdeclined : port.drive.declines? piece = some error) (memory : Memory) :
    ∃ left after changed issued, (readBlocks piece.first piece.count).Yields engine ⟨port, memory⟩
        (.ok (.error error, left)) ⟨after, changed⟩ issued ∧
      after.packets = piece.declinedPackets ++ port.packets := by
  rw [Span.declinedPackets]
  by_cases hfar : UInt32.size ≤ piece.first
  · rw [Drive.declines?, if_pos hfar] at hdeclined
    cases hdeclined
    have hobjects : (Submission.readBlocks piece.first piece.count).objection? =
        some .outOfRange := by
      rw [Submission.objection?, if_neg (Nat.ne_of_gt hsome), if_pos hfar]
    rw [readBlocks_of_objection hfew hobjects, if_pos hfar]
    exact ⟨engine, port, memory, 0, EngineM.yields_pure _ engine _, rfl⟩
  · rw [if_neg hfar]
    have hsingle : Haul.readBlocks.Single piece := ⟨hsome, hfew, Nat.lt_of_not_le hfar⟩
    obtain ⟨sense, hran, hfailure⟩ :=
      Drive.run_of_declined hattentive.kind hattentive.untouched hsingle
      hdeclined
    obtain ⟨entries, hformed⟩ := engine.exists_scatter_of_describable (Haul.describable hsingle)
    obtain ⟨answer, last, shown, pieces, hyields, htells, hfetched⟩ :=
      EngineM.exists_packet_of_failed hattentive.fits hattentive.willing hattentive.kind hformed
        (show Ending.checkCondition sense ≠ .done by rintro ⟨⟩)
        (hran entries (engine.build 0 (Haul.readBlocks.command piece) entries memory))
    let asked : Drive := { port.drive with pendingSense := some sense }
    have hqueue := Drive.takeFault_eq_none_iff.1 hattentive.untouched
    have huntouched : asked.takeFault Opcode.packet = none := Drive.takeFault_eq_none_iff.2 hqueue
    have htold : answer.toOption = some asked.explanation := by
      rw [htells]
      change asked.tells? = _
      rw [Drive.tells?, huntouched]
    cases answer with
    | error _ => cases htold
    | ok found =>
      cases htold
      have hfails : SenseData.failureOf (.ok asked.explanation) = error := hfailure
      rw [hfails] at hyields
      refine ⟨engine.told (some asked.explanation), last, shown, 2, ?_, ?_⟩
      · rw [readBlocks_eq hsingle]
        exact RequestM.Yields.bind_error hyields
      · rw [SimulatedPort.packets, hfetched]
        rfl

end RequestM

/-- A device known as a packet drive has no capacity that the driver knows: the largest 64-bit
number stands for it. -/
theorem Disk.Describes.of_packetDrive {disk : Disk} {drive : Drive}
    (hdescribes : disk.Describes drive) (hkind : drive.kind = .packetDrive) :
    disk.kind = .drive ∧ disk.blockCount = unboundedCount := by
  cases hdescribes with
  | optical _ htold hblocks => exact ⟨htold, hblocks⟩
  | identified _ hother => cases hkind.symm.trans hother
  | unidentified hother => cases hkind.symm.trans hother

/-! The pieces of a read. -/

namespace Disk

/-- Reading some pieces into the front of a buffer has the given answer, buffer and fetched packets,
newest first, on every port which an earlier part of the read left with the drive it found, and over
every memory. -/
def Draws (engine : Engine) (port : SimulatedPort) (spans : List Span) (buffer : List UInt8)
    (answer : Except IoError Nat) (filled : List UInt8) (packets : List (Option Cdb)) : Prop :=
  ∀ now memory, engine.Serves port port.drive now →
    ∃ left last changed issued, (readSpans .drive spans buffer).Yields engine ⟨now, memory⟩
        (.ok ((answer, filled), left)) ⟨last, changed⟩ issued ∧
      last.packets = packets ++ now.packets

variable {engine : Engine} {port : SimulatedPort} {piece : Span} {others : List Span}
  {buffer tail : List UInt8} {answer : Except IoError Nat} {packets : List (Option Cdb)}

theorem draws_nil (engine : Engine) (port : SimulatedPort) (buffer : List UInt8) :
    Draws engine port [] buffer (.ok 0) buffer [] :=
  fun now memory _ => ⟨engine, now, memory, 0, EngineM.yields_pure _ engine _, rfl⟩

/-- If the first piece is declined, reading ends with its error, behind the packets it takes to
decline it and with the buffer as it was. -/
theorem draws_of_declined (hattentive : engine.Attentive port) (hsome : 0 < piece.count)
    (hfew : piece.count ≤ maxDriveBlocks) (hfits : piece.count * driveBlockSize ≤ buffer.length)
    {error : IoError} (hdeclined : port.drive.declines? piece = some error) :
    Draws engine port (piece :: others) buffer (.error error) buffer piece.declinedPackets := by
  intro now memory hserves
  rw [← hserves.drive] at hdeclined
  obtain ⟨left, last, changed, issued, hyields, hfetched⟩ :=
    RequestM.exists_readBlocks_of_declined (hattentive.of_serves hserves) hsome hfew
      hdeclined memory
  refine ⟨left, last, changed, issued, ?_, hfetched⟩
  refine (EngineM.yields_onHost (HostM.yields_require (decide_eq_true hfits) _ _) engine).seq ?_
  exact EngineM.Yields.finish hyields (EngineM.yields_pure _ left _)

/-- If the first piece is not declined, its blocks are placed in front of what the others place, and
its packet is fetched before theirs. -/
theorem draws_cons (hattentive : engine.Attentive port) (hsome : 0 < piece.count)
    (hfew : piece.count ≤ maxDriveBlocks) (hfits : piece.count * driveBlockSize ≤ buffer.length)
    (haccepted : port.drive.declines? piece = none)
    (hrest : Draws engine port others (buffer.drop (piece.count * driveBlockSize)) answer tail
      packets) :
    Draws engine port (piece :: others) buffer (answer.map (piece.count * driveBlockSize + ·))
      (port.drive.medium.read piece.first piece.count ++ tail)
      (packets ++ [some piece.packet]) := by
  intro now memory hserves
  obtain ⟨hlow, _, _⟩ := Drive.declines?_eq_none_iff.1 haccepted
  rw [← hserves.drive] at haccepted
  obtain ⟨between, moved, hyields, hserved, hfirst⟩ := RequestM.exists_readBlocks
    (hattentive.of_serves hserves) ⟨hsome, hfew, hlow⟩ haccepted memory
  rw [hserves.drive] at hyields hserved
  obtain ⟨left, last, changed, issued, hcontinued, hlater⟩ :=
    hrest between moved (hserves.trans hserved)
  have hlength : (port.drive.medium.read piece.first piece.count).length =
      piece.count * driveBlockSize := by
    rw [Medium.length_read, hattentive.fits.regular.blocks hattentive.kind]
  have hstopped : piece.stop < UInt64.size := by
    have hfew : piece.count ≤ 32 := hfew
    simp only [Span.stop, UInt32.size, UInt64.size] at hlow ⊢
    omega
  refine ⟨left, last, changed, 1 + issued, ?_, ?_⟩
  · refine (EngineM.yields_onHost (HostM.yields_require (decide_eq_true hfits) _ _) engine).seq ?_
    refine EngineM.Yields.bind hyields ?_
    refine (EngineM.yields_onHost (HostM.yields_require (beq_iff_eq.2 hlength) _ _) engine).seq ?_
    refine (EngineM.yields_onHost
      (HostM.yields_require (decide_eq_true hstopped) _ _) engine).seq ?_
    exact hcontinued.finish (EngineM.yields_pure _ left _)
  · rw [hlater, hfirst, List.append_assoc, List.singleton_append]

/-- The pieces of a run before some place in it make up the blocks before that place, and the others
tile what lies behind. -/
theorem sum_of_tiles {most : Nat} {span : Span} {early : List Span}
    (htiles : Span.Tiles most span (early ++ others)) :
    ∃ count, span.count = (early.map Span.count).sum + count ∧
      Span.Tiles most ⟨span.first + (early.map Span.count).sum, count⟩ others := by
  induction early generalizing span with
  | nil => exact ⟨span.count, by simp, by simpa using htiles⟩
  | cons piece early ih =>
    obtain ⟨behind, rfl, hrest⟩ := htiles.behind
    obtain ⟨count, htotal, htiled⟩ := ih hrest
    refine ⟨count, ?_, ?_⟩
    · rw [List.map_cons, List.sum_cons, Nat.add_assoc, ← htotal]
    · rwa [List.map_cons, List.sum_cons, ← Nat.add_assoc]

/-- Pieces that are not declined place their blocks at the front of the buffer, and reading goes on
with the others behind them. The buffer has to have room for the whole run. -/
theorem draws_append (hattentive : engine.Attentive port) {most : Nat} (hpos : 0 < most)
    (hfew : most ≤ maxDriveBlocks) {span : Span} {early : List Span}
    (htiles : Span.Tiles most span (early ++ others))
    (haccepted : ∀ piece ∈ early, port.drive.declines? piece = none)
    (hroom : span.count * driveBlockSize ≤ buffer.length)
    (hrest : Draws engine port others
      (buffer.drop ((early.map Span.count).sum * driveBlockSize)) answer tail packets) :
    Draws engine port (early ++ others) buffer
      (answer.map ((early.map Span.count).sum * driveBlockSize + ·))
      (port.drive.medium.read span.first (early.map Span.count).sum ++ tail)
      (packets ++ Span.packets early) := by
  induction early generalizing span buffer with
  | nil => cases answer <;> simpa [Medium.read, Except.map, Span.packets] using hrest
  | cons piece early ih =>
    obtain ⟨hsome, hshort, hinside⟩ := htiles.within hpos piece List.mem_cons_self
    obtain ⟨behind, rfl, htiled⟩ := htiles.behind
    have hboth : piece.count * driveBlockSize + behind * driveBlockSize ≤ buffer.length := by
      rwa [← Nat.add_mul]
    have hleft : behind * driveBlockSize ≤ (buffer.drop (piece.count * driveBlockSize)).length := by
      rw [List.length_drop]
      omega
    rw [List.map_cons, List.sum_cons, Nat.add_mul, ← List.drop_drop] at hrest
    have hlater :=
      ih htiled (fun other hmember => haccepted other (List.mem_cons_of_mem _ hmember)) hleft
      hrest
    have hfirst := draws_cons hattentive hsome (Nat.le_trans hshort hfew)
      (Nat.le_trans (Nat.le.intro rfl) hboth) (haccepted piece List.mem_cons_self) hlater
    have hsum : (answer.map ((early.map Span.count).sum * driveBlockSize + ·)).map
        (piece.count * driveBlockSize + ·) =
          answer.map ((piece.count + (early.map Span.count).sum) * driveBlockSize + ·) := by
      cases answer with
      | error error => simp only [Except.map]
      | ok placed => simp only [Except.map, Nat.add_mul, Nat.add_assoc]
    rw [hsum, ← List.append_assoc, Span.stop, Medium.read_append,
      List.append_assoc packets] at hfirst
    rw [List.map_cons, List.sum_cons, Span.packets, List.map_cons, List.reverse_cons]
    exact hfirst

end Disk

namespace Site

variable {site : Site} {disk : Disk}

theorem exec_onDisk_of_exec (hknown : site.disk? = some disk) {call : DiskCall}
    {outcome : Bench.Outcome} {left : Engine} {later : World SimulatedPort}
    (hended : (call.run disk).exec site.engine site.world = (.ok (outcome, left), later)) :
    site.exec (.onDisk call) = (.ok ((outcome, some disk), left), later) := by
  rw [exec, hknown]
  change ((fun outcome => (outcome, some disk)) <$> call.run disk).exec _ _ = _
  rw [map_eq_pure_bind, EngineM.exec_bind_ok hended]
  rfl

/-- A read on a site returns an answer and a buffer, and adds some packets to those that the drive
has fetched, newest first. The engine may have remembered a sense. -/
def Reads (site : Site) (disk : Disk) (call : DiskCall) (answer : Except IoError Nat)
    (filled : List UInt8) (packets : List (Option Cdb)) : Prop :=
  ∃ left later, site.exec (.onDisk call) = (.ok ((.read answer filled, some disk), left), later) ∧
    later.device.packets = packets ++ site.world.device.packets

variable {first bytes : Nat} {buffer filled : List UInt8} {answer : Except IoError Nat}
  {packets : List (Option Cdb)}

/-- A read that passes its checks does what reading its pieces does. -/
theorem reads_of_draws (hknown : site.disk? = some disk) (hoptical : disk.kind = .drive)
    (hsteady : site.engine.Steady site.world.device) (hsome : bytes ≠ 0) (hroom : buffer ≠ [])
    (hwithin : disk.inRange first (blocksFor bytes driveBlockSize) = true)
    (hdraws : Disk.Draws site.engine site.world.device
      ((Span.mk first (min (blocksFor bytes driveBlockSize) (buffer.length / driveBlockSize))).cut
        (DiskKind.drive.chunk site.engine.config)) buffer answer filled packets) :
    site.Reads disk (.read first bytes buffer) answer filled packets := by
  obtain ⟨left, last, changed, issued, hyields, hfetched⟩ :=
    hdraws site.world.device site.world.memory (.refl hsteady)
  have hsize : disk.blockSize = driveBlockSize := by
    rw [Disk.blockSize, hoptical]
    rfl
  rw [← hsize, ← hoptical] at hyields
  rw [← hsize] at hwithin
  have hread : ((DiskCall.read first bytes buffer).run disk).Yields site.engine site.world.machine
      (.ok (.read answer filled, left)) ⟨last, changed⟩ issued :=
    (Disk.yields_read hsome hroom hwithin hyields).finish (EngineM.yields_pure _ left _)
  obtain ⟨later, hended, haround, -⟩ := exec_onDisk hknown hread
  refine ⟨left, later, hended, ?_⟩
  rw [show later.device = last from congrArg Machine.device haround, hfetched]

/-- A read from a packet drive, behind any allowed run of events on its port, while no fault is
queued and the port is neither busy nor stalled. The request is arbitrary. Without bytes or without
a buffer, and with a range that 64 bits cannot count, it is turned down and nothing happens.
Otherwise its blocks, as many as the bytes need and the buffer has room for, are read in pieces of
the size that the config gives, between 1 and 32 blocks. If none is declined, all blocks stand at
the front of the buffer. If one is, the first of those decides the error, the blocks before it stand
at the front of the buffer, the rest of the buffer is as it was, and the packets fetched are those
of the pieces before it, its own and one REQUEST SENSE; none of the last two if no packet can name
it. -/
theorem read_packetDrive {number slots : Nat} {config : Config}
    {start ready : World SimulatedPort} {port : Port} {engine : Engine} (hpos : 1 ≤ slots)
    (hdown : start.device.registers.cmd = 0)
    (hbounded : start.device.stalled = true → config.completionLimit.isSome = true)
    (hregular : start.device.drive.Regular) (hkind : start.device.drive.kind = .packetDrive)
    (hup : (HostM.bringUp (.port number) number slots config).exec start =
      (.ok (.ok (port, engine)), ready))
    (hsound : engine.areas.Sound) {events : List Event}
    (hallowed : ∀ event ∈ events, event.Allowed config)
    {site : Site} (hreached : site = Site.run { port, engine, world := ready } events)
    {disk : Disk} (hknown : site.disk? = some disk) (hwilling : site.world.device.Willing)
    (huntouched : site.world.device.drive.takeFault Opcode.packet = none)
    (first bytes : Nat) (buffer : List UInt8) :
    let drive := site.world.device.drive
    let call : DiskCall := .read first bytes buffer
    let asked := blocksFor bytes driveBlockSize
    let blocks := min asked (buffer.length / driveBlockSize)
    let pieces := (Span.mk first blocks).cut (max 1 (min config.blocksPerCommand 32))
    ((bytes = 0 ∨ buffer = []) → site.exec (.onDisk call) =
      (.ok ((.read (.error .invalidBuffer) buffer, some disk), site.engine), site.world)) ∧
    (bytes ≠ 0 → buffer ≠ [] → UInt64.size - 1 < first + asked → site.exec (.onDisk call) =
      (.ok ((.read (.error .outOfRange) buffer, some disk), site.engine), site.world)) ∧
    (bytes ≠ 0 → buffer ≠ [] → first + asked ≤ UInt64.size - 1 →
      ((∀ piece ∈ pieces, drive.declines? piece = none) →
        site.Reads disk call (.ok (blocks * driveBlockSize))
          (drive.medium.read first blocks ++ buffer.drop (blocks * driveBlockSize))
          (Span.packets pieces)) ∧
      ∀ early piece others error, pieces = early ++ piece :: others →
        (∀ other ∈ early, drive.declines? other = none) → drive.declines? piece = some error →
          site.Reads disk call (.error error)
            (drive.medium.read first (piece.first - first) ++
              buffer.drop ((piece.first - first) * driveBlockSize))
            (piece.declinedPackets ++ Span.packets early)) := by
  intro drive call asked blocks pieces
  have hhead := fits_and_knows_run hpos hdown hbounded hregular hup hsound hallowed
  rw [← hreached] at hhead
  obtain ⟨hcame, hfits, hknows⟩ := hhead
  have hkind : drive.kind = .packetDrive := (congrArg Prod.fst hcame.nameplate).trans hkind
  obtain ⟨hoptical, hunbounded⟩ := (hknows.device disk hknown).of_packetDrive hkind
  have hattentive : site.engine.Attentive site.world.device := ⟨hfits, hwilling, hkind, huntouched⟩
  have hsize : disk.blockSize = driveBlockSize := by
    rw [Disk.blockSize, hoptical]
    rfl
  have hturnedDown (error : IoError)
      (hobjects : (Submission.read disk first bytes buffer).objection? = some error) :
      site.exec (.onDisk call) =
        (.ok ((.read (.error error) buffer, some disk), site.engine), site.world) :=
    exec_onDisk_of_exec hknown (Submission.Refused.turnedDown
      (show (Submission.read disk first bytes buffer).Limited from trivial) (.inl hobjects))
  refine ⟨fun hnothing => ?_, fun hsome hroom hlarge => ?_, fun hsome hroom hwithin => ?_⟩
  · apply hturnedDown
    rw [Submission.objection?, if_pos hnothing]
  · have hexceeded : disk.Exceeded first (blocksFor bytes disk.blockSize) := by
      rw [hsize]
      exact .inl (Nat.le_of_pred_lt hlarge)
    apply hturnedDown
    rw [Submission.objection?, if_neg (by simp [hsome, hroom]), if_pos hexceeded]
  · have hpos := config.chunk_pos maxDriveBlocks
    have htiles := Span.tiles_cut hpos (Span.mk first blocks)
    have hfew : config.chunk maxDriveBlocks ≤ maxDriveBlocks := config.chunk_le (by decide)
    have hfit : blocks * driveBlockSize ≤ buffer.length :=
      Nat.le_trans (Nat.mul_le_mul_right _ (Nat.min_le_right _ _)) (Nat.div_mul_le_self _ _)
    have hinRange : disk.inRange first (blocksFor bytes driveBlockSize) = true := by
      rw [Disk.inRange, hunbounded]
      exact decide_eq_true hwithin
    have hreads {answer : Except IoError Nat} {filled : List UInt8} {packets : List (Option Cdb)}
        (hdraws : Disk.Draws site.engine site.world.device pieces buffer answer filled packets) :
        site.Reads disk call answer filled packets := by
      apply reads_of_draws hknown hoptical hfits.steady hsome hroom hinRange
      rw [hcame.config]
      exact hdraws
    constructor
    · intro haccepted
      apply hreads
      have htiled : Span.Tiles (config.chunk maxDriveBlocks) ⟨first, blocks⟩ (pieces ++ []) := by
        rw [List.append_nil]
        exact htiles
      obtain ⟨count, htotal, hrest⟩ := Disk.sum_of_tiles htiled
      cases hrest
      have hwhole : (pieces.map Span.count).sum = blocks := htotal.symm
      have hdraws :=
        Disk.draws_append hattentive hpos hfew htiled haccepted hfit (Disk.draws_nil _ _ _)
      rw [List.append_nil, hwhole, List.nil_append] at hdraws
      simpa only [Except.map, Nat.add_zero] using hdraws
    · intro early piece others error hcut haccepted hdeclined
      apply hreads
      rw [hcut]
      have htiled : Span.Tiles (config.chunk maxDriveBlocks) ⟨first, blocks⟩
          (early ++ piece :: others) := hcut ▸ htiles
      obtain ⟨hsome, hshort, -⟩ := htiled.within hpos piece (by simp)
      obtain ⟨count, htotal, hrest⟩ := Disk.sum_of_tiles htiled
      obtain ⟨behind, hplace, -⟩ := hrest.behind
      have hfront : first + (early.map Span.count).sum = piece.first := congrArg Span.first hplace
      have hcounted : count = piece.count + behind := congrArg Span.count hplace
      have hsum : (early.map Span.count).sum = piece.first - first := by omega
      have hleft : piece.count * driveBlockSize ≤
          (buffer.drop ((early.map Span.count).sum * driveBlockSize)).length := by
        have hinside : (early.map Span.count).sum + piece.count ≤ blocks := by
          change blocks = _ at htotal
          omega
        have hbytes := Nat.mul_le_mul_right driveBlockSize hinside
        rw [Nat.add_mul] at hbytes
        rw [List.length_drop]
        omega
      have hdraws := Disk.draws_append hattentive hpos hfew htiled haccepted hfit
        (Disk.draws_of_declined hattentive hsome (Nat.le_trans hshort hfew) hleft hdeclined)
      rw [hsum] at hdraws
      exact hdraws

end Site

/-! A packet drive that was brought up and identified. -/

section Identified

variable {engine : Engine} {port : SimulatedPort} {slot : Port}

/-- INQUIRY on an attentive port succeeds or not by what the drive answers, with one command, and
leaves the drive as it was. -/
theorem RequestM.exists_inquiry (hattentive : engine.Attentive port) (memory : Memory) :
    ∃ answer after changed, (inquiry InquiryData.probeLength).Yields engine ⟨port, memory⟩
        (.ok (answer, engine)) ⟨after, changed⟩ 1 ∧ engine.Serves port port.drive after := by
  obtain ⟨hsteady, hsized, hlayout, hregular⟩ := hattentive.fits
  let command := Command.packet (.inquiry InquiryData.probeLength) (.toHost 96) "inquiry"
  obtain ⟨entries, hformed⟩ : ∃ entries, engine.scatter command = .ok entries :=
    ScatterList.exists_build _ _ (by decide) (by decide) (by decide)
  have hran := Drive.run_inquiry hattentive.kind hattentive.untouched InquiryData.probeLength
    (.toHost 96) "inquiry" entries (engine.build 0 command entries memory)
  have hpacket := EngineM.yields_packet_of_ok
    (EngineM.yields_runCommand_of_run hsteady hlayout hattentive.willing hformed hran)
  let after := port.served engine.areas (command.fetched 0 entries) .done port.drive
  let changed := scatterData entries
    (Drive.inquiryAnswer.take ((Cdb.inquiry InquiryData.probeLength).byte 4).toNat)
    (engine.build 0 command entries memory)
  have htaken := yields_readStaging after hsized (show 96 ≤ 65536 by decide) changed
  have hserves := Engine.serves_served hsteady (command.fetched 0 entries) port.drive
  cases hparsed : InquiryData.parse? (changed.load (engine.areas.read.address 0) 96) with
  | none =>
    refine ⟨.error .deviceError, after, changed,
      RequestM.Yields.finish hpacket (htaken.seq ?_), hserves⟩
    rw [hparsed]
    exact EngineM.yields_pure _ engine _
  | some inquiry =>
    refine ⟨.ok inquiry, after, changed, RequestM.Yields.finish hpacket (htaken.seq ?_), hserves⟩
    rw [hparsed]
    exact EngineM.yields_pure _ engine _

/-- A packet drive on an attentive port is identified, and stays as it is. -/
theorem Disk.exists_probe_of_attentive (hattentive : engine.Attentive port)
    (hattached : slot.attachment = .packetDrive) (memory : Memory) :
    ∃ disk after changed, (probe slot).Yields engine ⟨port, memory⟩ (.ok (.ok disk, engine))
        ⟨after, changed⟩ 1 ∧ engine.Serves port port.drive after := by
  obtain ⟨answer, after, changed, hasked, hserves⟩ := RequestM.exists_inquiry hattentive memory
  have hasked : (RequestM.inquiry InquiryData.probeLength).run.Yields engine ⟨port, memory⟩
      (.ok (answer, engine)) ⟨after, changed⟩ 1 := hasked
  have htold (disk : Disk) : (probe.announce slot disk "ATAPI").Yields engine ⟨after, changed⟩
      (.ok (.ok disk, engine)) ⟨after, changed⟩ 0 :=
    (EngineM.yields_onHost (HostM.yields_note _ (by decide) _) engine).seq
      (EngineM.yields_pure _ engine _)
  obtain ⟨disk, hidentified⟩ : ∃ disk, (identifyDrive slot).Yields engine ⟨port, memory⟩
      (.ok (disk, engine)) ⟨after, changed⟩ 1 := by
    cases answer with
    | ok inquiry => exact ⟨_, hasked.finish (EngineM.yields_pure _ engine _)⟩
    | error error =>
      have hnoted : (EngineM.withEngine fun engine => HostM.note .warn
          (engine.title ++ " INQUIRY failed: " ++ error.message)).Yields engine ⟨after, changed⟩
            (.ok ((), engine)) ⟨after, changed⟩ 0 :=
        EngineM.yields_withEngine (HostM.yields_note _ (by decide) _)
      exact ⟨_, hasked.finish (hnoted.seq (EngineM.yields_pure _ engine _))⟩
  refine ⟨disk, after, changed, ?_, hserves⟩
  rw [probe, hattached]
  exact hidentified.finish (htold disk)

end Identified

namespace Site

/-- A packet drive in a world of its own that is brought up and identified stays as it is, if the
handshakes may read PxCMD at all. -/
theorem exists_identified {medium : Medium} (hsized : medium.blockSize = driveBlockSize)
    {config : Config} (hpatient : 0 < config.readyLimit.toNat) :
    let start := World.around (.packetDrive medium)
    ∃ port engine ready disk, (HostM.bringUp (.port 0) 0 1 config).exec start =
        (.ok (.ok (port, engine)), ready) ∧ engine.areas.Sound ∧
      let site := Site.run { port, engine, world := ready } [.called .probe]
      site.disk? = some disk ∧ site.engine.Attentive site.world.device ∧
        site.world.device.drive = .packetDrive medium := by
  intro start
  obtain ⟨port, engine, ready, hup, hareas⟩ := exists_bringUp_around
    (show (Drive.packetDrive medium).kind ≠ .empty from nofun) 0 1 hpatient
  have hbrought := HostM.broughtUp_of_exec (show start.device.registers.cmd = 0 from rfl) hup
  have hsound : engine.areas.Sound := by
    rw [hareas]
    exact sound_risingAreas
  obtain ⟨-, hfits, -⟩ := fits_and_knows_run (Nat.le_refl 1) rfl (by simp [World.around])
    (regular_packetDrive hsized) hup hsound
    (show ∀ event ∈ ([] : List Event), event.Allowed config from nofun)
  have hdrive : ready.device.drive = .packetDrive medium := by
    rw [hbrought.device]
    rfl
  have hattentive : engine.Attentive ready.device := by
    refine ⟨hfits, ⟨?_, ?_⟩, ?_, ?_⟩
    · rw [hbrought.device]
      rfl
    · rw [hbrought.device]
      rfl
    · rw [hdrive]
      rfl
    · rw [hdrive]
      rfl
  have hattached : port.attachment = .packetDrive := by
    rw [hbrought.attached, SimulatedPort.attachment_eq]
    rfl
  obtain ⟨disk, after, changed, hprobed, hserves⟩ :=
    Disk.exists_probe_of_attentive hattentive hattached ready.memory
  have hprobing : (Call.probe.run port none).Yields engine ready.machine
      (.ok ((.disk disk, some disk), engine)) ⟨after, changed⟩ 1 :=
    EngineM.Yields.finish hprobed (EngineM.yields_pure _ engine _)
  obtain ⟨later, hidentified, haround, _⟩ := hprobing ready rfl
  have hended : Site.exec { port, engine, world := ready } .probe =
      (.ok ((.disk disk, some disk), engine), later) := hidentified
  have hdevice : later.device = after := congrArg Machine.device haround
  refine ⟨port, engine, ready, disk, hup, hsound, ?_⟩
  simp only [Site.run, List.foldl_cons, List.foldl_nil, Site.after, hended, hdevice]
  exact ⟨trivial, hattentive.of_serves hserves, hserves.drive.trans hdrive⟩

/-- The hypotheses are met by a read of four blocks, in pieces of two, that runs over the end of a
medium of five: its first piece is in the buffer, and the rest of the buffer is as it was. -/
theorem read_packetDrive_over_the_end :
    let config : Config := { blocksPerCommand := 2, readyLimit := 1 }
    let medium := Medium.blank driveBlockSize 5
    let buffer := List.replicate 8192 (0xEE : UInt8)
    ∃ port engine ready disk, (HostM.bringUp (.port 0) 0 1 config).exec
        (World.around (.packetDrive medium)) = (.ok (.ok (port, engine)), ready) ∧
      let site := Site.run { port, engine, world := ready } [.called .probe]
      site.Reads disk (.read 2 7000 buffer) (.error .unsupported)
        (medium.read 2 2 ++ buffer.drop 4096)
        [some (.requestSense SenseData.requestLength), some (.read 4 2), some (.read 2 2)] := by
  intro config medium buffer
  obtain ⟨port, engine, ready, disk, hup, hsound, hknown, hattentive, hdrive⟩ :=
    exists_identified (show medium.blockSize = driveBlockSize from rfl)
      (show 0 < config.readyLimit.toNat by decide)
  refine ⟨port, engine, ready, disk, hup, ?_⟩
  have hallowed : ∀ event ∈ [Event.called .probe], event.Allowed config := by simp [Event.Allowed]
  obtain ⟨-, -, hreads⟩ := read_packetDrive (Nat.le_refl 1) rfl (by simp [World.around])
    (regular_packetDrive (show medium.blockSize = driveBlockSize from rfl)) rfl hup hsound hallowed
    rfl
    hknown hattentive.willing hattentive.untouched 2 7000 buffer
  have hfull : buffer.length = 8192 := List.length_replicate
  have hsome : buffer ≠ [] := List.ne_nil_of_length_pos (by rw [hfull]; decide)
  obtain ⟨-, hdeclined⟩ := hreads (by decide) hsome (by decide)
  have hended := hdeclined [⟨2, 2⟩] ⟨4, 2⟩ [] .unsupported (by rw [hfull]; decide)
  rw [hdrive] at hended
  exact hended (by decide) (by decide)

end Site

end Ahci
