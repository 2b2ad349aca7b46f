import Ahci.Proofs.BlockCommands

/-!
The commands of a request for blocks. A request is cut into pieces that tile the run of blocks
it moves, and each piece is one command for just its blocks. A device carries out all of them
or fails one of them by what it is before the first, so how a request ends, and with which
commands, is known before it begins.
-/

namespace Ahci

variable {α β : Type}

namespace Haul

variable {haul : Haul} {piece span : Span} {pieces : List Span} {most : Nat}
  {port after : SimulatedPort} {issued : Nat}

/-- A port carries all pieces of a run exactly if it carries the run, or the run has no blocks. -/
theorem carries_pieces_iff (htiles : Span.Tiles most span pieces) :
    (∀ piece ∈ pieces, haul.Carries port piece) ↔ span.count = 0 ∨ haul.Carries port span := by
  induction htiles with
  | none first => simp
  | @last piece hsome hfew =>
    have hfull : piece.count ≠ 0 := by omega
    simp [hfull]
  | @full first count others hsome hrest ih =>
    have hfull : most + count ≠ 0 := by omega
    have hleast : count ≠ 0 := by omega
    simp only [List.mem_cons, forall_eq_or_imp, ih, hfull, hleast, false_or]
    constructor
    · rintro ⟨_, hwilling, huntouched, hholds, hclosed⟩
      refine ⟨hwilling, huntouched, ?_, hclosed⟩
      simp only [Span.stop] at hholds ⊢
      omega
    · rintro ⟨hwilling, huntouched, hholds, hclosed⟩
      simp only [Span.stop] at hholds
      refine ⟨⟨hwilling, huntouched, ?_, hclosed⟩, hwilling, huntouched, ?_, hclosed⟩
      · simp only [Span.stop]
        omega
      · simp only [Span.stop]
        omega

/-- How moving some pieces ends: it succeeds exactly if the port carries all of them, and then it
has issued one command for each and no other. A failure is not described further. -/
structure Ends (haul : Haul) (pieces : List Span) (port : SimulatedPort) (success : Bool)
    (after : SimulatedPort) (issued : Nat) : Prop where
  done : success = true ↔ ∀ piece ∈ pieces, haul.Carries port piece
  moved : success = true → issued = pieces.length ∧ haul.Moved pieces port after

/-- A step that moves some pieces on every port that fits and whose drive is of the right kind, and
that tells by its value whether it did. -/
def Performs (haul : Haul) (pieces : List Span) (step : EngineM SimulatedPort α)
    (succeeded : α → Bool) : Prop :=
  ∀ engine port, engine.Fits port → port.drive.kind = haul.device →
    ∃ a left after issued, step.Passes engine port a left after issued ∧
      haul.Ends pieces port (succeeded a) after issued

namespace Performs

variable {step : EngineM SimulatedPort α} {succeeded : α → Bool}

theorem nil {a : α} (hsucceeds : succeeded a = true) :
    haul.Performs [] (pure a : EngineM SimulatedPort α) succeeded := by
  intro engine port hfits _
  refine ⟨a, engine, port, 0, EngineM.passes_pure hfits a, ?_, ?_⟩
  · simp [hsucceeds]
  · exact fun _ => ⟨rfl, .refl port⟩

theorem finish {told : β → Bool} {f : α → β} (hperforms : haul.Performs pieces step succeeded)
    (hsame : ∀ a, told (f a) = succeeded a) :
    haul.Performs pieces (step >>= fun a => pure (f a)) told := by
  intro engine port hfits hkind
  obtain ⟨a, left, after, issued, hpasses, hends⟩ := hperforms engine port hfits hkind
  have hsettled := hpasses.fits.of_told hpasses.left
  refine ⟨f a, left, after, _, hpasses.bind (EngineM.passes_pure hsettled (f a)), ?_⟩
  rwa [hsame]

theorem guard {condition : Bool} {reason : Halt} {next : Unit → EngineM SimulatedPort α}
    (hholds : condition = true) (hrest : haul.Performs pieces (next ()) succeeded) :
    haul.Performs pieces (EngineM.onHost (HostM.require condition reason) >>= next)
      succeeded := by
  intro engine port hfits hkind
  obtain ⟨a, left, after, issued, hpasses, hends⟩ := hrest engine port hfits hkind
  exact ⟨a, left, after, issued, hpasses.guard hholds, hends⟩

/-- To move pieces, the first is moved by a request that settles its command. If this fails the step
ends without success; if it does not, the port carries the others exactly if it carried them
before. -/
theorem cons {request : RequestM SimulatedPort β} {good : β → Prop}
    {next : Except IoError β → EngineM SimulatedPort α} (hsingle : haul.Single piece)
    (hfirst : ∀ engine port, engine.Fits port → ∃ answer left after issued,
      request.Settles (haul.command piece) engine port answer left after issued ∧
        ∀ b, answer = .ok b → good b)
    (hstops : ∀ error, ∃ a, next (.error error) = pure a ∧ succeeded a = false)
    (hrest : ∀ b, good b → haul.Performs pieces (next (.ok b)) succeeded) :
    haul.Performs (piece :: pieces) (request.run >>= next) succeeded := by
  intro engine port hfits hkind
  obtain ⟨answer, left, between, issued, hsettles, hsound⟩ := hfirst engine port hfits
  have hsettled := hsettles.passes.fits.of_told hsettles.passes.left
  have hdone := hsettles.attends.done.trans (carriesOut_iff hsingle hkind)
  cases answer with
  | error error =>
    obtain ⟨a, hstopped, hfailed⟩ := hstops error
    have hlate := EngineM.passes_pure hsettled a
    rw [← hstopped] at hlate
    refine ⟨a, left, between, _, hsettles.passes.bind hlate, ?_, ?_⟩
    · rw [hfailed]
      constructor
      · exact nofun
      · intro hcarries
        exact hdone.2 (hcarries piece List.mem_cons_self)
    · rw [hfailed]
      exact nofun
  | ok b =>
    obtain ⟨hone, hcarried⟩ := hsettles.attends.carried rfl
    have hmoved := moved_of_carried hsingle hfits.layout hkind hcarried
    obtain ⟨a, right, after, more, hpasses, hends⟩ :=
      hrest b (hsound b rfl) left between hsettled (hmoved.still.kind.trans hkind)
    refine ⟨a, right, after, _, hsettles.passes.bind hpasses, ?_, ?_⟩
    · rw [hends.done, List.forall_mem_cons, ← hdone]
      constructor
      · intro hothers
        exact ⟨rfl, fun other hmember => hmoved.carries_iff.1 (hothers other hmember)⟩
      · rintro ⟨_, hothers⟩ other hmember
        exact hmoved.carries_iff.2 (hothers other hmember)
    · intro hsucceeds
      obtain ⟨hcount, hlater⟩ := hends.moved hsucceeds
      refine ⟨?_, hmoved.append hlater⟩
      rw [hone, hcount, List.length_cons, Nat.add_comm]

end Performs

end Haul

/-- The way in which a device of a kind is read. -/
def DiskKind.reader : DiskKind → Haul
  | disk _ => .readSectors
  | drive => .readBlocks

namespace Disk

open Haul (Performs)

variable {piece span : Span} {pieces : List Span} {most : Nat} {kind : DiskKind}

/-- A chunk is read with one command for its piece, and a success returns just the bytes of its
blocks. -/
theorem exists_readChunk (hsingle : kind.reader.Single piece) (engine : Engine)
    (port : SimulatedPort) (hfits : engine.Fits port) :
    ∃ answer left after issued, (readChunk kind piece).Settles (kind.reader.command piece)
        engine port answer left after issued ∧
      ∀ data, answer = .ok data → data.length = piece.count * kind.blockSize := by
  have hsome : piece.count ≠ 0 := Nat.ne_of_gt hsingle.some
  cases kind with
  | disk trim =>
    obtain ⟨answer, after, issued, hsettles, hlength⟩ :=
      RequestM.exists_settles_readSectors hfits piece.first hsome hsingle.few
    exact ⟨answer, engine, after, issued, hsettles, hlength⟩
  | drive => exact RequestM.exists_settles_readBlocks hfits hsome hsingle.few hsingle.low

/-- A chunk is written with one command for its piece, given data that its sectors hold. -/
theorem exists_writeChunk (hsingle : Haul.writeSectors.Single piece) (trim : TrimSupport)
    {data : List UInt8} (hlong : data.length ≤ piece.count * sectorSize) (engine : Engine)
    (port : SimulatedPort) (hfits : engine.Fits port) :
    ∃ answer left after issued, (writeChunk (.disk trim) piece data).Settles
      (Haul.writeSectors.command piece) engine port answer left after issued ∧
        ∀ done, answer = .ok done → True := by
  obtain ⟨answer, after, issued, hsettles⟩ := RequestM.exists_settles_writeSectors hfits
    piece.first (Nat.ne_of_gt hsingle.some) hsingle.few hlong
  exact ⟨answer, engine, after, issued, hsettles, fun _ _ => True.intro⟩

/-- The pieces of a run within the reach of a command are each carried by one, if none is larger
than a command can move. -/
theorem single_of_tiles {haul : Haul} (htiles : Span.Tiles most span pieces) (hpos : 0 < most)
    (hfew : most ≤ haul.most) (hlow : span.stop ≤ haul.reach) :
    ∀ piece ∈ pieces, haul.Single piece ∧ piece.stop < UInt64.size := by
  intro piece hmember
  obtain ⟨hsome, hshort, hinside⟩ := htiles.within hpos piece hmember
  have hreach : haul.reach < UInt64.size := by cases haul <;> decide
  refine ⟨⟨hsome, Nat.le_trans hshort hfew, ?_⟩, ?_⟩
  · simp only [Span.stop] at hinside hlow
    omega
  · omega

/-- Reading pieces into a buffer that has room for the whole run moves the pieces. -/
theorem performs_readSpans (htiles : Span.Tiles most span pieces)
    (hsingles : ∀ piece ∈ pieces, kind.reader.Single piece ∧ piece.stop < UInt64.size)
    {buffer : List UInt8} (hroom : span.count * kind.blockSize ≤ buffer.length) :
    kind.reader.Performs pieces (readSpans kind pieces buffer) fun answer => answer.1.isOk := by
  induction pieces generalizing span buffer with
  | nil => exact .nil rfl
  | cons piece others ih =>
    obtain ⟨count, rfl, hbehind⟩ := htiles.behind
    obtain ⟨hsingle, hlow⟩ := hsingles piece List.mem_cons_self
    have hboth : piece.count * kind.blockSize + count * kind.blockSize ≤ buffer.length := by
      rwa [← Nat.add_mul]
    have hleft : count * kind.blockSize ≤
        (buffer.drop (piece.count * kind.blockSize)).length := by
      rw [List.length_drop]
      omega
    have hrest :=
      ih hbehind (fun other hmember => hsingles other (List.mem_cons_of_mem _ hmember)) hleft
    apply Performs.guard
    · exact decide_eq_true (Nat.le_trans (Nat.le.intro rfl) hboth)
    · apply Performs.cons hsingle (exists_readChunk hsingle)
      · exact fun error => ⟨_, rfl, rfl⟩
      · intro data hlength
        apply Performs.guard (beq_iff_eq.2 hlength)
        apply Performs.guard (decide_eq_true hlow)
        apply hrest.finish
        rintro ⟨placed, filled⟩
        cases placed <;> rfl

/-- Writing data to the pieces of a run moves the pieces, whatever length the data has. -/
theorem performs_writeSpans (htiles : Span.Tiles most span pieces)
    (hsingles : ∀ piece ∈ pieces, Haul.writeSectors.Single piece ∧ piece.stop < UInt64.size)
    (trim : TrimSupport) (data : List UInt8) :
    Haul.writeSectors.Performs pieces (writeSpans (.disk trim) pieces data).run Except.isOk := by
  induction pieces generalizing span data with
  | nil => exact .nil rfl
  | cons piece others ih =>
    obtain ⟨count, rfl, hbehind⟩ := htiles.behind
    obtain ⟨hsingle, hlow⟩ := hsingles piece List.mem_cons_self
    have hrest := ih hbehind (fun other hmember => hsingles other (List.mem_cons_of_mem _ hmember))
    rw [writeSpans, ExceptT.run_bind]
    apply Performs.cons hsingle (exists_writeChunk hsingle trim (List.length_take_le _ data))
    · exact fun error => ⟨_, rfl, rfl⟩
    · intro done _
      dsimp only
      rw [RequestM.run_require_bind]
      exact Performs.guard (decide_eq_true hlow) (hrest _)

end Disk

/-! Requests. -/

/-- The way in which a transfer moves blocks of a device of a kind. Only disks are written. -/
def Transfer.haul (kind : DiskKind) : Transfer → Haul
  | read .. => kind.reader
  | write .. => .writeSectors

/-- Whether the answer to a transfer is a success. -/
def Bench.Outcome.succeeded : Outcome → Bool
  | ok => true
  | read placed _ => placed.isOk
  | _ => false

namespace Disk

/-- The blocks that a transfer moves: as many as its bytes need, rounded up, but for a read no more
than its buffer has room for in full. -/
def moves (disk : Disk) : Transfer → Span
  | .read start bytes buffer =>
    ⟨start, min (blocksFor bytes disk.blockSize) (buffer.length / disk.blockSize)⟩
  | .write start bytes _ => ⟨start, blocksFor bytes disk.blockSize⟩

/-- Whether a transfer is taken up at all: it moves some bytes, its buffer is not empty or holds the
bytes to be written, its blocks lie within the capacity of the device, and it does not write to a
packet drive. -/
def Admits (disk : Disk) : Transfer → Prop
  | .read start bytes buffer => bytes ≠ 0 ∧ buffer ≠ [] ∧
    disk.inRange start (blocksFor bytes disk.blockSize) = true
  | .write start bytes buffer => disk.isOptical = false ∧ bytes ≠ 0 ∧ bytes ≤ buffer.length ∧
    disk.inRange start (blocksFor bytes disk.blockSize) = true

variable {disk : Disk} {transfer : Transfer} {engine : Engine} {port : SimulatedPort}

/-- The blocks of a transfer that is taken up lie within the capacity of the device. -/
theorem stop_le_of_admits (hadmits : disk.Admits transfer) :
    (disk.moves transfer).stop ≤ disk.blockCount.toNat := by
  cases transfer with
  | read start bytes buffer =>
    have hwithin : start + blocksFor bytes disk.blockSize ≤ disk.blockCount.toNat :=
      of_decide_eq_true hadmits.2.2
    simp only [moves, Span.stop]
    omega
  | write start bytes buffer => exact of_decide_eq_true hadmits.2.2.2

theorem Describes.kind_eq {drive : Drive} (hdescribes : disk.Describes drive) :
    drive.kind = disk.kind.reader.device := by
  cases hdescribes with
  | identified page hkind hbytes htold hblocks => rw [hkind, htold]; rfl
  | unidentified hkind htold hblocks => rw [hkind, htold]; rfl
  | optical hkind htold hblocks => rw [hkind, htold]; rfl

theorem exists_sata_of_writable (hwritable : disk.isOptical = false) :
    ∃ trim, disk.kind = .disk trim := by
  cases hkind : disk.kind with
  | disk trim => exact ⟨trim, rfl⟩
  | drive =>
    rw [isOptical, hkind] at hwritable
    cases hwritable

variable {start bytes : Nat} {buffer : List UInt8}

/-- A read that is taken up ends alike over all memories, and moves the pieces that its run is cut
into. Its blocks have to be within the reach of a command. -/
theorem exists_read_passes (hfits : engine.Fits port) (hdescribes : disk.Describes port.drive)
    (hadmits : disk.Admits (.read start bytes buffer))
    (hlow : (disk.moves (.read start bytes buffer)).stop ≤ disk.kind.reader.reach) :
    ∃ answer left after issued,
      (disk.read start bytes buffer).Passes engine port answer left after issued ∧
        disk.kind.reader.Ends
          ((disk.moves (.read start bytes buffer)).cut (disk.kind.chunk engine.config)) port
          answer.1.isOk after issued := by
  obtain ⟨hsome, hroom, hwithin⟩ := hadmits
  have hpos := engine.config.chunk_pos disk.kind.maxBlocks
  have htiles := Span.tiles_cut hpos (disk.moves (.read start bytes buffer))
  have hfew : disk.kind.chunk engine.config ≤ disk.kind.reader.most := by
    have hbound := engine.config.chunk_le disk.kind.maxBlocks_pos
    cases hkind : disk.kind <;> rwa [hkind] at hbound
  have hfit : (disk.moves (.read start bytes buffer)).count * disk.kind.blockSize ≤ buffer.length :=
    Nat.le_trans (Nat.mul_le_mul_right _ (Nat.min_le_right _ _)) (Nat.div_mul_le_self _ _)
  have hperforms := performs_readSpans htiles (single_of_tiles htiles hpos hfew hlow) hfit
  obtain ⟨answer, left, after, issued, hpasses, hends⟩ :=
    hperforms engine port hfits hdescribes.kind_eq
  refine ⟨answer, left, after, issued, ⟨?_, hpasses.fits, hpasses.left⟩, hends⟩
  intro memory
  obtain ⟨changed, hyields⟩ := hpasses.foretold memory
  exact ⟨changed, yields_read hsome hroom hwithin hyields⟩

/-- A write that is taken up ends alike over all memories, and moves the pieces that its run is cut
into. Its blocks have to be within the reach of a command. -/
theorem exists_write_passes (hfits : engine.Fits port) (hdescribes : disk.Describes port.drive)
    (hadmits : disk.Admits (.write start bytes buffer))
    (hlow : (disk.moves (.write start bytes buffer)).stop ≤ Haul.writeSectors.reach) :
    ∃ answer left after issued,
      (disk.write start bytes buffer).run.Passes engine port answer left after issued ∧
        Haul.writeSectors.Ends
          ((disk.moves (.write start bytes buffer)).cut (disk.kind.chunk engine.config)) port
          answer.isOk after issued := by
  obtain ⟨hwritable, hsome, henough, hwithin⟩ := hadmits
  obtain ⟨trim, hsata⟩ := exists_sata_of_writable hwritable
  have hpos := engine.config.chunk_pos disk.kind.maxBlocks
  have htiles := Span.tiles_cut hpos (disk.moves (.write start bytes buffer))
  have hfew : disk.kind.chunk engine.config ≤ Haul.writeSectors.most := by
    have hbound := engine.config.chunk_le disk.kind.maxBlocks_pos
    rwa [hsata] at hbound ⊢
  have hperforms := performs_writeSpans htiles (single_of_tiles htiles hpos hfew hlow) trim
    (buffer.take bytes)
  have hkind : port.drive.kind = Haul.writeSectors.device := by
    rw [hdescribes.kind_eq, hsata]
    rfl
  obtain ⟨answer, left, after, issued, hpasses, hends⟩ := hperforms engine port hfits hkind
  refine ⟨answer, left, after, issued, ⟨?_, hpasses.fits, hpasses.left⟩, hends⟩
  intro memory
  obtain ⟨changed, hyields⟩ := hpasses.foretold memory
  rw [← hsata] at hyields
  exact ⟨changed, yields_write hwritable hsome henough hwithin hyields⟩

/-- A transfer that is taken up succeeds exactly if the port carries all its pieces, and has then
issued their commands and no others. This holds over all memories, and for pieces of the size that
config and kind of device give. -/
theorem exists_transfer_passes (hfits : engine.Fits port) (hdescribes : disk.Describes port.drive)
    (hadmits : disk.Admits transfer)
    (hlow : (disk.moves transfer).stop ≤ (transfer.haul disk.kind).reach) :
    ∃ outcome left after issued,
      (transfer.call.run disk).Passes engine port outcome left after issued ∧
        (transfer.haul disk.kind).Ends
          ((disk.moves transfer).cut (disk.kind.chunk engine.config)) port outcome.succeeded
          after issued := by
  cases transfer with
  | read start bytes buffer =>
    obtain ⟨answer, left, after, issued, hpasses, hends⟩ :=
      exists_read_passes hfits hdescribes hadmits hlow
    have hsettled := hpasses.fits.of_told hpasses.left
    exact ⟨.read answer.1 answer.2, left, after, _,
      hpasses.bind (EngineM.passes_pure hsettled _), hends⟩
  | write start bytes buffer =>
    obtain ⟨answer, left, after, issued, hpasses, hends⟩ :=
      exists_write_passes hfits hdescribes hadmits hlow
    refine ⟨_, left, after, issued, hpasses.map (Bench.Outcome.ofRequest fun _ => .ok), ?_⟩
    cases answer <;> exact hends

end Disk

namespace Site

/-- A transfer that is taken up, made on a port behind any allowed run of events since its bring-up,
whatever faults and switches the run contains. It always returns. It succeeds exactly if it moves no
blocks or the port carries the whole run, which is known before it begins: no fault queued for its
commands, neither busy nor stalled, all blocks held by the drive, and the tray closed. A success has
issued `blocksFor span.count most` commands and no others; their runs tile the run of the transfer
in order, each has data for just its blocks, and none reaches behind the capacity. A piece has as
many blocks as the config says, clamped to between one and the 128 sectors or 32 drive blocks that
one command can move. The run has to be within the reach of its commands, 48 bits for sectors and 32
for READ(12). Of a transfer that fails only the fact is stated here. -/
theorem transfer_tiles {number slots : Nat} {config : Config}
    {start ready : World SimulatedPort} {port : Port} {engine : Engine} (hpos : 1 ≤ slots)
    (hdown : start.device.registers.cmd = 0)
    (hbounded : start.device.stalled = true → config.completionLimit.isSome = true)
    (hregular : start.device.drive.Regular)
    (hup : (HostM.bringUp (.port number) number slots config).exec start =
      (.ok (.ok (port, engine)), ready))
    (hsound : engine.areas.Sound) {events : List Event}
    (hallowed : ∀ event ∈ events, event.Allowed config)
    {site : Site} (hreached : site = Site.run { port, engine, world := ready } events)
    {disk : Disk} (hknown : site.disk? = some disk) {transfer : Transfer}
    (hadmitted : disk.Admits transfer) {haul : Haul} (hway : haul = transfer.haul disk.kind)
    {span : Span} (hmoves : span = disk.moves transfer) (hlow : span.stop ≤ haul.reach)
    {most : Nat}
    (hchunk : most = max 1 (min config.blocksPerCommand (if disk.isOptical then 32 else 128))) :
    ∃ outcome left later,
      site.exec (.onDisk transfer.call) = (.ok ((outcome, some disk), left), later) ∧
      (outcome.succeeded = true ↔ span.count = 0 ∨ haul.Carries site.world.device span) ∧
      (outcome.succeeded = true → ∃ made : List FetchedCommand,
        later.device.fetched = made.reverse ++ site.world.device.fetched ∧
        later.issues = site.world.issues + made.length ∧
        made.length = blocksFor span.count most ∧
        Span.Tiles most span (made.map FetchedCommand.span) ∧
        ∀ command ∈ made, haul.Bears command ∧
          command.span.stop ≤ disk.blockCount.toNat) := by
  have hhead := fits_and_knows_run hpos hdown hbounded hregular hup hsound hallowed
  rw [← hreached] at hhead
  obtain ⟨hcame, hfits, hknows⟩ := hhead
  subst hway hmoves
  obtain ⟨outcome, left, after, issued, hpasses, hends⟩ :=
    Disk.exists_transfer_passes hfits (hknows.device disk hknown) hadmitted hlow
  have hfull : disk.kind.chunk config = most := (disk.chunk_eq config).trans hchunk.symm
  rw [hcame.config, hfull] at hends
  have hpositive : 0 < most := by
    rw [← hfull]
    exact config.chunk_pos _
  have htiles := Span.tiles_cut hpositive (disk.moves transfer)
  obtain ⟨changed, hyields⟩ := hpasses.foretold site.world.memory
  obtain ⟨later, hended, haround, hprogress⟩ := exec_onDisk hknown hyields
  refine ⟨outcome, left, later, hended, hends.done.trans (Haul.carries_pieces_iff htiles), ?_⟩
  intro hsucceeded
  obtain ⟨hcount, hmoved⟩ := hends.moved hsucceeded
  obtain ⟨made, hfetched, hnamed, hborn⟩ := hmoved.fetched
  have hlength : made.length = blocksFor (disk.moves transfer).count most := by
    rw [← List.length_map FetchedCommand.span, hnamed, Span.length_cut]
    rfl
  have hdevice : later.device = after := congrArg Machine.device haround
  refine ⟨made, ?_, ?_, hlength, ?_, ?_⟩
  · rw [hdevice, hfetched]
  · rw [hprogress.issues, hcount, ← hnamed, List.length_map]
  · rwa [hnamed]
  · intro command hmember
    have hpiece : command.span ∈ (disk.moves transfer).cut most := by
      rw [← hnamed]
      exact List.mem_map_of_mem hmember
    obtain ⟨_, _, hinside⟩ := htiles.within hpositive _ hpiece
    exact ⟨hborn command hmember, Nat.le_trans hinside (Disk.stop_le_of_admits hadmitted)⟩

/-- The hypotheses are met by a read of five sectors from a disk of eight, in pieces of two. -/
theorem transfer_tiles_of_five :
    let config : Config := { blocksPerCommand := 2, readyLimit := 1 }
    let start := World.around (.disk (.blank sectorSize 8))
    ∃ port engine ready disk, (HostM.bringUp (.port 0) 0 1 config).exec start =
        (.ok (.ok (port, engine)), ready) ∧
      let site := Site.run { port, engine, world := ready } [.called .probe]
      ∃ outcome left later, ∃ made : List FetchedCommand,
        site.exec (.onDisk (.read 3 2100 (List.replicate 2600 0))) =
          (.ok ((outcome, some disk), left), later) ∧
        outcome.succeeded = true ∧
        later.device.fetched = made.reverse ++ site.world.device.fetched ∧
        later.issues = site.world.issues + 3 ∧
        made.map FetchedCommand.span = [⟨3, 2⟩, ⟨5, 2⟩, ⟨7, 1⟩] := by
  intro config start
  have hflawless : start.device.Flawless := ⟨rfl, rfl, rfl, rfl, rfl, rfl⟩
  obtain ⟨port, engine, ready, disk, hup, hsound, hknown, hsata, hblocks, hmirrors⟩ :=
    exists_probed hflawless (.inl rfl) (by decide) (show 0 < config.readyLimit.toNat by decide)
  let transfer : Transfer := .read 3 2100 (List.replicate 2600 0)
  obtain ⟨trim, hkind⟩ := Disk.exists_sata_of_writable hsata
  have hsize : disk.blockSize = sectorSize := by
    rw [Disk.blockSize, hkind]
    rfl
  have hadmitted : disk.Admits transfer := by
    refine ⟨by decide, by decide, ?_⟩
    rw [Disk.inRange, hsize, hblocks]
    decide
  have hway : Haul.readSectors = transfer.haul disk.kind := by
    rw [hkind]
    rfl
  have hmoves : (⟨3, 5⟩ : Span) = disk.moves transfer := by
    simp only [transfer, Disk.moves, hsize, List.length_replicate]
    decide
  have hchunk : 2 =
      max 1 (min config.blocksPerCommand (if disk.isOptical then 32 else 128)) := by
    rw [Disk.isOptical, hkind]
    rfl
  obtain ⟨outcome, left, later, hended, hsucceeds, hcommands⟩ := transfer_tiles (Nat.le_refl 1)
    hflawless.down (by simp [hflawless.moving]) (regular_disk rfl) hup hsound
      (by simp [Event.Allowed])
    rfl hknown hadmitted hway hmoves (by decide) hchunk
  have hsucceeded : outcome.succeeded = true := by
    apply hsucceeds.2
    right
    refine ⟨hmirrors.willing, hmirrors.untouched _, ?_, ?_⟩
    · rw [hmirrors.medium]
      decide
    · intro hpacket
      cases hmirrors.holds.kind.symm.trans hpacket
  obtain ⟨made, hfetched, hissues, hlength, htiles, _⟩ := hcommands hsucceeded
  refine ⟨port, engine, ready, disk, hup, outcome, left, later, made, hended, hsucceeded, hfetched,
    ?_, htiles.eq_cut (by decide)⟩
  rw [hissues, hlength]
  rfl

end Site

end Ahci
