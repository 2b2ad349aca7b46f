import Ahci.Proofs.CompletionPolling
import Ahci.Proofs.RequestPlans

/-!
Block requests within bounds, over any device. A request is cut into pieces that lie within the
disk and that its commands can name, so none of the preconditions of the driver is ever broken:
a request gives up only over a command that is waited for without a limit.
-/

namespace Ahci

variable {σ α β : Type} [Device σ]

/-! The plans of requests. -/

/-- What the failure of a command may be followed by: a restart of the engine, and on a packet drive
also a request for sense data. -/
def DiskKind.amends : DiskKind → List Act
  | disk _ => [.restart]
  | drive => [.restart, .run .requestSense]

theorem DiskKind.restart_mem_amends (kind : DiskKind) : Act.restart ∈ kind.amends := by
  cases kind <;> simp [amends]

namespace Act

/-- One command for each piece, in the order of the pieces. -/
def hauls (haul : Haul) (pieces : List Span) : List Act :=
  pieces.map fun piece => .run (haul.command piece)

/-- For each piece its share of the data is placed in the staging area, and then one command writes
it. The data is used up piece by piece. -/
def writes : List Span → List UInt8 → List Act
  | [], _ => []
  | piece :: others, data =>
    let bytes := piece.count * sectorSize
    [.fill (data.take bytes) bytes, .run (Haul.writeSectors.command piece)] ++
      writes others (data.drop bytes)

/-- For each range its description is placed, and then one command discards it. -/
def discards (ranges : List Span) : List Act :=
  ranges.flatMap fun range =>
    [.fill (DiscardRange.encode range) DiscardRange.blockSize, .run .discard]

end Act

namespace RequestM.Accords

variable {base : Engine} {amends : List Act}

/-- A read of at most as many sectors as the staging area holds accords with a plan of one command.
If it succeeds it returns just that many sectors. -/
theorem readSectors (hsized : base.areas.Sized) (hrestart : Act.restart ∈ amends) (lba : Nat)
    {sectors : Nat} (hfew : sectors ≤ maxSectors) :
    (RequestM.readSectors lba sectors : RequestM σ _).Accords base amends
      [.run (.readSectors lba sectors)] fun data => data.length = sectors * sectorSize := by
  have hfits : sectors * sectorSize ≤ ScatterList.maxBytes := Nat.mul_le_mul_right sectorSize hfew
  apply seq (require (decide_eq_true hfew) _)
  intro _ _
  by_cases hnone : sectors = 0
  · rw [if_pos hnone]
    exact throw _
  · rw [if_neg hnone]
    apply finish (execute _ hrestart)
    exact fun _ _ => readStaging hsized hfits

/-- A write of at most as many sectors as the staging area holds accords with a plan of two acts, to
place the data and to write it. -/
theorem writeSectors (hsized : base.areas.Sized) (hrestart : Act.restart ∈ amends) (lba : Nat)
    {sectors : Nat} (hfew : sectors ≤ maxSectors) {data : List UInt8}
    (hlong : data.length ≤ sectors * sectorSize) :
    (RequestM.writeSectors lba sectors data : RequestM σ Unit).Accords base amends
      [.fill data (sectors * sectorSize), .run (.writeSectors lba sectors)] fun _ => True := by
  have hfits : sectors * sectorSize ≤ ScatterList.maxBytes := Nat.mul_le_mul_right sectorSize hfew
  apply seq (require (decide_eq_true hfew) _)
  intro _ _
  dsimp only
  split
  · exact throw _
  · apply bind (fill hsized hfits hlong)
    exact fun _ _ => execute _ hrestart

/-- Discarding one range accords with a plan of two acts, to place the range and to discard it. -/
theorem discardRange (hsized : base.areas.Sized) (hrestart : Act.restart ∈ amends) (range : Span) :
    (RequestM.discardRange range : RequestM σ Unit).Accords base amends
      [.fill (DiscardRange.encode range) DiscardRange.blockSize, .run .discard]
      fun _ => True := by
  have hlong : (DiscardRange.encode range).length ≤ DiscardRange.blockSize := by
    simp [DiscardRange.encode, DiscardRange.blockSize]
  apply seq (note _ _)
  intro _ _
  apply bind (fill hsized (by decide) hlong)
  exact fun _ _ => execute _ hrestart

/-- A read of at most as many blocks as one packet may ask for accords with a plan of one command.
Its failure may call for sense data as well. -/
theorem readBlocks (hsized : base.areas.Sized) (hrestart : Act.restart ∈ amends)
    (hsense : Act.run .requestSense ∈ amends) (lba : Nat) {blocks : Nat}
    (hfew : blocks ≤ maxDriveBlocks) :
    (RequestM.readBlocks lba blocks : RequestM σ _).Accords base amends
      [.run (.readBlocks lba blocks)] fun data => data.length = blocks * driveBlockSize := by
  have hfits : blocks * driveBlockSize ≤ ScatterList.maxBytes :=
    Nat.mul_le_mul_right driveBlockSize hfew
  apply seq (require (decide_eq_true hfew) _)
  intro _ _
  by_cases hnone : blocks = 0
  · rw [if_pos hnone]
    exact throw _
  · rw [if_neg hnone]
    by_cases hfar : UInt32.size ≤ lba
    · rw [if_pos hfar]
      exact throw _
    · rw [if_neg hfar]
      apply finish (packet hsized hrestart hsense _ _ _)
      exact fun _ _ => readStaging hsized hfits

/-- Discarding accords with placing and discarding one range after another, if all of them end
within what sixty-four bits can address; else the sum of an address and a count would not fit. -/
theorem discardPieces (hsized : base.areas.Sized) (hrestart : Act.restart ∈ amends) {left : Nat}
    {span : Span} {ranges : List Span}
    (hcut : ranges = Span.cutInto DiscardRange.maxSectors left span)
    (hlow : ∀ range ∈ ranges, range.stop < UInt64.size) :
    (RequestM.discardPieces left span : RequestM σ Unit).Accords base amends
      (Act.discards ranges) fun _ => True := by
  induction left generalizing span ranges with
  | zero =>
    subst hcut
    exact note _ _
  | succ left ih =>
    subst hcut
    rw [Span.cutInto, List.forall_mem_cons] at hlow
    apply bind (discardRange hsized hrestart _)
    intro _ _
    apply seq (require (decide_eq_true hlow.1) _)
    exact fun _ _ => ih rfl hlow.2

end RequestM.Accords

namespace Disk

variable {base : Engine} {kind : DiskKind} {most : Nat} {span : Span} {pieces : List Span}

/-- Reading one piece that one command of the kind of disk can carry accords with a plan of this
command. -/
theorem accords_readChunk (hsized : base.areas.Sized) {piece : Span}
    (hfew : piece.count ≤ kind.maxBlocks) :
    (readChunk kind piece : RequestM σ _).Accords base kind.amends
      [.run (kind.reader.command piece)]
      fun data => data.length = piece.count * kind.blockSize := by
  cases kind with
  | disk trim => exact .readSectors hsized (by simp [DiskKind.amends]) piece.first hfew
  | drive =>
    exact .readBlocks hsized (by simp [DiskKind.amends]) (by simp [DiskKind.amends])
      piece.first hfew

/-- Reading runs of blocks into a buffer that has room for them accords with one command for each
run. The room has to be in the buffer, since otherwise copying would halt. -/
theorem composes_readSpans (hsized : base.areas.Sized) (htiles : Span.Tiles most span pieces)
    (hwithin : ∀ piece ∈ pieces, piece.count ≤ kind.maxBlocks ∧ piece.stop < UInt64.size)
    {buffer : List UInt8} (hroom : span.count * kind.blockSize ≤ buffer.length) :
    (readSpans kind pieces buffer : EngineM σ _).Composes base fun acts result =>
      Act.Accord base kind.amends (Act.hauls kind.reader pieces) (fun _ => True) acts
        (result.map Prod.fst) := by
  induction pieces generalizing span buffer with
  | nil => exact .pure ⟨rfl, trivial⟩
  | cons piece others ih =>
    obtain ⟨count, rfl, hbehind⟩ := htiles.behind
    rw [List.forall_mem_cons] at hwithin
    obtain ⟨⟨hfew, hlow⟩, hwithin⟩ := hwithin
    have hboth : piece.count * kind.blockSize + count * kind.blockSize ≤ buffer.length := by
      rwa [← Nat.add_mul]
    have hleft : count * kind.blockSize ≤
        (buffer.drop (piece.count * kind.blockSize)).length := by
      rw [List.length_drop]
      omega
    have hrest := ih hbehind hwithin hleft
    apply EngineM.composes_guard
    · exact decide_eq_true (Nat.le_trans (Nat.le.intro rfl) hboth)
    · apply EngineM.Composes.bind (accords_readChunk hsized hfew)
      · intro acts answer haccord
        cases answer with
        | error error =>
          apply EngineM.Composes.pure
          rw [List.append_nil]
          exact Act.Follow.longer haccord (Act.hauls kind.reader others)
        | ok data =>
          obtain ⟨rfl, hlength⟩ := haccord
          apply EngineM.composes_guard (beq_iff_eq.2 hlength)
          apply EngineM.composes_guard (decide_eq_true hlow)
          apply EngineM.Composes.bind hrest
          · intro acts answer haccord
            apply EngineM.Composes.pure
            rw [List.append_nil]
            have hcarried := Act.Accord.behind haccord [.run (kind.reader.command piece)]
            obtain ⟨placed, filled⟩ := answer
            cases placed with
            | error error => exact hcarried
            | ok bytes => exact hcarried
          · intro acts reason haccord
            exact Act.Accord.behind haccord [.run (kind.reader.command piece)]
      · intro acts reason haccord
        exact ⟨haccord.1.longer (Act.hauls kind.reader others), haccord.2⟩

/-- Writing runs of sectors accords with placing and writing one run after another, whatever the
data. -/
theorem accords_writeSpans (hsized : base.areas.Sized) (trim : TrimSupport)
    (hwithin : ∀ piece ∈ pieces, piece.count ≤ maxSectors ∧ piece.stop < UInt64.size)
    (data : List UInt8) :
    (writeSpans (.disk trim) pieces data : RequestM σ _).Accords base [.restart]
      (Act.writes pieces data) fun _ => True := by
  induction pieces generalizing data with
  | nil => exact .pure trivial
  | cons piece others ih =>
    rw [List.forall_mem_cons] at hwithin
    obtain ⟨⟨hfew, hlow⟩, hwithin⟩ := hwithin
    have hrestart : Act.restart ∈ [Act.restart] := List.mem_singleton.2 rfl
    apply RequestM.Accords.bind
    · exact .writeSectors hsized hrestart piece.first hfew (List.length_take_le _ data)
    · intro _ _
      apply RequestM.Accords.seq (.require (decide_eq_true hlow) _)
      exact fun _ _ => ih hwithin _

end Disk

/-! Requests on a disk. -/

/-- Whether a reply tells that all was done. Advice has no outcome in its reply, so it never counts
as a success here. -/
def BlockReply.Succeeds : BlockReply → Prop
  | read placed _ => placed.isOk = true
  | write outcome => outcome.isOk = true
  | advised => False

namespace Disk

/-- Whether a request is taken up. A read or a write has to be admitted, and advice takes a disk
that announces TRIM and a range within it. Everything else is turned down, or need not be heeded,
before any command is issued. -/
def Accepts (disk : Disk) : BlockRequest → Prop
  | .read start bytes buffer => disk.Admits (.read start bytes buffer)
  | .write start bytes buffer => disk.Admits (.write start bytes buffer)
  | .clear start bytes => disk.trimSupport.hasTrim = true ∧
    disk.inRange start (max 1 (blocksFor bytes disk.blockSize)) = true

/-- The blocks that a request is carried out for. To clear no bytes at all is to clear one block. -/
def extent (disk : Disk) : BlockRequest → Span
  | .read start bytes buffer => disk.moves (.read start bytes buffer)
  | .write start bytes buffer => disk.moves (.write start bytes buffer)
  | .clear start bytes => ⟨start, max 1 (blocksFor bytes disk.blockSize)⟩

/-- The most blocks that one command of a request is for: as many as a range can tell if the request
discards, and the chunk of the configuration otherwise. -/
def share (disk : Disk) (config : Config) : BlockRequest → Nat
  | .clear .. => DiscardRange.maxSectors
  | _ => disk.kind.chunk config

/-- The extent of a request, cut into shares; only the last one may be shorter. -/
def pieces (disk : Disk) (config : Config) (request : BlockRequest) : List Span :=
  (disk.extent request).cut (disk.share config request)

/-- What is done to carry a request out, if nothing fails. -/
def plan (disk : Disk) (config : Config) (request : BlockRequest) : List Act :=
  match request with
  | .read .. => Act.hauls disk.kind.reader (disk.pieces config request)
  | .write _ bytes buffer => Act.writes (disk.pieces config request) (buffer.take bytes)
  | .clear .. => Act.discards (disk.pieces config request)

variable {base : Engine} {disk : Disk} {request : BlockRequest}

theorem stop_extent_le (haccepts : disk.Accepts request) :
    (disk.extent request).stop ≤ disk.blockCount.toNat := by
  cases request with
  | read start bytes buffer => exact stop_le_of_admits haccepts
  | write start bytes buffer => exact stop_le_of_admits haccepts
  | clear start bytes => exact of_decide_eq_true haccepts.2

/-- A share is never zero, and its count can be told by a range and by a frame. -/
theorem share_bounds (disk : Disk) (config : Config) (request : BlockRequest) :
    0 < disk.share config request ∧ disk.share config request ≤ DiscardRange.maxSectors := by
  have hpos := config.chunk_pos disk.kind.maxBlocks
  have hfew := config.chunk_le disk.kind.maxBlocks_pos
  have hmost : disk.kind.maxBlocks ≤ DiscardRange.maxSectors := by
    cases disk.kind with
    | disk trim => exact show maxSectors ≤ DiscardRange.maxSectors by decide
    | drive => exact show maxDriveBlocks ≤ DiscardRange.maxSectors by decide
  cases request with
  | read start bytes buffer => exact ⟨hpos, Nat.le_trans hfew hmost⟩
  | write start bytes buffer => exact ⟨hpos, Nat.le_trans hfew hmost⟩
  | clear start bytes =>
    exact ⟨show 0 < DiscardRange.maxSectors by decide, Nat.le_refl DiscardRange.maxSectors⟩

theorem tiles_pieces (disk : Disk) (config : Config) (request : BlockRequest) :
    Span.Tiles (disk.share config request) (disk.extent request) (disk.pieces config request) :=
  Span.tiles_cut (disk.share_bounds config request).1 _

/-- A piece of a request that its command can carry and name: it is not empty, is no larger than a
share, lies within the disk, and no field of a frame, of a packet or of a range that is to be
discarded cuts its count off. -/
structure Bounded (disk : Disk) (config : Config) (request : BlockRequest) (piece : Span) :
    Prop where
  some : 0 < piece.count
  few : piece.count ≤ disk.share config request
  inside : piece.stop ≤ disk.blockCount.toNat
  sectors : (UInt16.ofNat piece.count).toNat = piece.count
  blocks : (UInt32.ofNat piece.count).toNat = piece.count
  described : (DiscardRange.decode (DiscardRange.encode piece)).count = piece.count

theorem bounded_of_mem (haccepts : disk.Accepts request) {config : Config} {piece : Span}
    (hmember : piece ∈ disk.pieces config request) : disk.Bounded config request piece := by
  obtain ⟨hpos, hshort⟩ := disk.share_bounds config request
  obtain ⟨hsome, hfew, hinside⟩ := (disk.tiles_pieces config request).within hpos piece hmember
  have hnarrow : piece.count < 65536 :=
    Nat.lt_succ_of_le (Nat.le_trans hfew (Nat.le_trans hshort (by decide)))
  refine ⟨hsome, hfew, Nat.le_trans hinside (stop_extent_le haccepts), ?_, ?_, ?_⟩
  · exact UInt16.toNat_ofNat_of_lt hnarrow
  · exact UInt32.toNat_ofNat_of_lt (Nat.lt_trans hnarrow (by decide))
  · rw [DiscardRange.decode_encode]
    exact Nat.mod_eq_of_lt hnarrow

/-- No piece of a request that is taken up ends behind what sixty-four bits can address. -/
theorem low_of_mem (haccepts : disk.Accepts request) {config : Config} :
    ∀ piece ∈ disk.pieces config request, piece.stop < UInt64.size :=
  fun _ hmember => Nat.lt_of_le_of_lt (bounded_of_mem haccepts hmember).inside
    disk.blockCount.toNat_lt

/-- What a request on a disk does, and how it ends. That a request gives up in no other way means
that the preconditions which the driver tests on its way hold. -/
structure Conforms (disk : Disk) (config : Config) (request : BlockRequest) (acts : List Act)
    (result : Except Halt BlockReply) : Prop where
  /-- A request that is taken up is carried out piece by piece, as far as it comes. -/
  follows : disk.Accepts request → Act.Follow disk.kind.amends (disk.plan config request) acts
  /-- A request that is not taken up does nothing. -/
  spares : ¬ disk.Accepts request → acts = []
  /-- A request that succeeds was carried out to its end. -/
  done : ∀ reply, result = .ok reply → reply.Succeeds →
    disk.Accepts request ∧ acts = disk.plan config request
  /-- A request gives up only over a command that is waited for without a limit. -/
  ends : ∀ reason, result = .error reason → reason = .unending ∧ config.completionLimit = none

/-- A request that is taken up conforms if its routine accords with its plan, for the replies that
tell an error as no success. -/
theorem Conforms.of_accord {acts : List Act} {result : Except Halt (Except IoError α)}
    {good : α → Prop} (reply : Except IoError α → BlockReply) (haccepts : disk.Accepts request)
    (hfails : ∀ error, ¬ (reply (.error error)).Succeeds)
    (haccord : Act.Accord base disk.kind.amends (disk.plan base.config request) good acts result) :
    disk.Conforms base.config request acts (result.map reply) := by
  refine ⟨fun _ => haccord.follow, fun hrefused => absurd haccepts hrefused, ?_, ?_⟩
  · rcases result with reason | error | a
    · exact nofun
    · rintro _ ⟨⟩ hsucceeds
      exact absurd hsucceeds (hfails error)
    · exact fun _ _ _ => ⟨haccepts, haccord.1⟩
  · rintro reason hhalted
    rcases result with stopped | answer
    · cases hhalted
      exact haccord.2
    · cases hhalted

/-- A request that is not taken up conforms if it does nothing and its reply is no success. -/
theorem Conforms.of_refused {config : Config} {reply : BlockReply}
    (hrefused : ¬ disk.Accepts request) (hfails : ¬ reply.Succeeds) :
    disk.Conforms config request [] (.ok reply) := by
  refine ⟨fun haccepts => absurd haccepts hrefused, fun _ => rfl, ?_, nofun⟩
  rintro _ ⟨⟩ hsucceeds
  exact absurd hsucceeds hfails

variable {start bytes : Nat} {buffer : List UInt8}

/-- A read that is taken up accords with its plan. The buffer that comes with the result is left out
here. -/
theorem composes_read (hsized : base.areas.Sized)
    (haccepts : disk.Accepts (.read start bytes buffer)) :
    (disk.read start bytes buffer : EngineM σ _).Composes base fun acts result =>
      Act.Accord base disk.kind.amends (disk.plan base.config (.read start bytes buffer))
        (fun _ => True) acts (result.map Prod.fst) := by
  obtain ⟨hsome, hroom, hwithin⟩ := id haccepts
  rw [read, if_neg (by simp [hsome, hroom])]
  dsimp only
  rw [hwithin, Bool.not_true, if_neg Bool.false_ne_true]
  apply EngineM.Composes.seq [] fun engine : Engine => engine.config = base.config
  · exact .get fun engine halike => ⟨rfl, engine, rfl, halike.config⟩
  · intro engine hsame
    rw [hsame]
    apply composes_readSpans hsized (disk.tiles_pieces base.config (.read start bytes buffer))
    · intro piece hmember
      have hfew : disk.share base.config (.read start bytes buffer) ≤ disk.kind.maxBlocks :=
        base.config.chunk_le disk.kind.maxBlocks_pos
      exact ⟨Nat.le_trans (bounded_of_mem haccepts hmember).few hfew,
        low_of_mem haccepts piece hmember⟩
    · exact Nat.le_trans (Nat.mul_le_mul_right _ (Nat.min_le_right _ _))
        (Nat.div_mul_le_self _ _)

theorem accords_write (hsized : base.areas.Sized)
    (haccepts : disk.Accepts (.write start bytes buffer)) :
    (disk.write start bytes buffer : RequestM σ _).Accords base disk.kind.amends
      (disk.plan base.config (.write start bytes buffer)) fun _ => True := by
  obtain ⟨hwritable, hsome, henough, hwithin⟩ := id haccepts
  have hsound : ¬ (decide (bytes = 0) || decide (bytes > buffer.length)) = true := by
    simp only [Bool.or_eq_true, decide_eq_true_eq]
    omega
  obtain ⟨trim, hsata⟩ := exists_sata_of_writable hwritable
  rw [write, hwritable, if_neg Bool.false_ne_true, if_neg hsound]
  dsimp only
  rw [hwithin, Bool.not_true, if_neg Bool.false_ne_true]
  have hconfig : (RequestM.withEngine fun engine => pure engine.config : RequestM σ _).Accords
      base disk.kind.amends [] fun config => config = base.config := by
    apply RequestM.Accords.onEngine
    apply EngineM.Composes.withEngine
    intro engine halike world
    exact ⟨[], .calm (.pure engine.config) engine world, rfl, engine.config, rfl, halike.config⟩
  apply hconfig.seq
  · rintro _ rfl
    have hfew : disk.share base.config (.write start bytes buffer) ≤ maxSectors := by
      change disk.kind.chunk base.config ≤ maxSectors
      rw [DiskKind.chunk, hsata]
      exact base.config.chunk_le (show 0 < maxSectors by decide)
    have hshort (piece : Span)
        (hmember : piece ∈ disk.pieces base.config (.write start bytes buffer)) :
        piece.count ≤ maxSectors ∧ piece.stop < UInt64.size :=
      ⟨Nat.le_trans (bounded_of_mem haccepts hmember).few hfew, low_of_mem haccepts piece hmember⟩
    change (writeSpans disk.kind (disk.pieces base.config (.write start bytes buffer)) _ :
      RequestM σ _).Accords base disk.kind.amends _ _
    rw [hsata]
    exact accords_writeSpans hsized trim hshort (buffer.take bytes)

theorem accords_clear (hsized : base.areas.Sized) (haccepts : disk.Accepts (.clear start bytes)) :
    (disk.clear start bytes : RequestM σ _).Accords base disk.kind.amends
      (disk.plan base.config (.clear start bytes)) fun _ => True := by
  have hrestart := disk.kind.restart_mem_amends
  obtain ⟨hcapable, hwithin⟩ := id haccepts
  have hlow : ∀ piece ∈ disk.pieces base.config (.clear start bytes), piece.stop < UInt64.size :=
    low_of_mem haccepts
  rw [clear]
  dsimp only
  rw [hwithin, Bool.not_true, Bool.and_false, if_neg Bool.false_ne_true]
  cases hkind : disk.kind with
  | drive =>
    rw [trimSupport, hkind] at hcapable
    cases hcapable
  | disk trim =>
    rw [trimSupport, hkind] at hcapable
    rw [hkind] at hrestart
    dsimp only
    rw [if_pos (show trim.hasTrim = true from hcapable)]
    exact .discardPieces hsized hrestart rfl hlow

/-! Requests that are not taken up. -/

/-- A read that is not taken up ends with an error, and the buffer as it was. -/
theorem exists_read_refused (hrefused : ¬ disk.Accepts (.read start bytes buffer)) :
    ∃ error, (disk.read start bytes buffer : EngineM σ _) = pure (.error error, buffer) := by
  by_cases hnothing : (decide (bytes = 0) || buffer.isEmpty) = true
  · exact ⟨.invalidBuffer, by rw [read, if_pos hnothing]⟩
  · cases hwithin : disk.inRange start (blocksFor bytes disk.blockSize) with
    | false =>
      refine ⟨.outOfRange, ?_⟩
      rw [read, if_neg hnothing]
      dsimp only
      rw [hwithin, Bool.not_false, if_pos rfl]
    | true =>
      rw [Bool.or_eq_true, decide_eq_true_eq, List.isEmpty_iff, not_or] at hnothing
      exact absurd ⟨hnothing.1, hnothing.2, hwithin⟩ hrefused

theorem exists_write_refused (hrefused : ¬ disk.Accepts (.write start bytes buffer)) :
    ∃ error, (disk.write start bytes buffer : RequestM σ _) = throw error := by
  cases hwritable : disk.isOptical with
  | true =>
    refine ⟨.unsupported, ?_⟩
    rw [write, hwritable, if_pos rfl]
    rfl
  | false =>
    by_cases hshort : (decide (bytes = 0) || decide (bytes > buffer.length)) = true
    · refine ⟨.invalidBuffer, ?_⟩
      rw [write, hwritable, if_neg Bool.false_ne_true, if_pos hshort]
      rfl
    · cases hwithin : disk.inRange start (blocksFor bytes disk.blockSize) with
      | false =>
        refine ⟨.outOfRange, ?_⟩
        rw [write, hwritable, if_neg Bool.false_ne_true, if_neg hshort]
        dsimp only
        rw [hwithin, Bool.not_false, if_pos rfl]
        rfl
      | true =>
        rw [Bool.or_eq_true, decide_eq_true_eq, decide_eq_true_eq, not_or] at hshort
        exact absurd ⟨hwritable, hshort.1, Nat.le_of_not_lt hshort.2, hwithin⟩ hrefused

/-- Advice that is not taken up does nothing: a disk without TRIM notes it, and a range that is not
within the disk is turned down. -/
theorem composes_clear_refused {base : Engine}
    (hrefused : ¬ disk.Accepts (.clear start bytes)) :
    (disk.clear start bytes : RequestM σ _).run.Composes base fun acts result =>
      acts = [] ∧ ∃ answer, result = .ok answer := by
  have hnoted (text : Engine → String) : (RequestM.withEngine fun engine =>
      (HostM.note .trace (text engine) : HostM σ Unit)).run.Composes base fun acts result =>
        acts = [] ∧ ∃ answer, result = .ok answer :=
    EngineM.Composes.map Except.ok (.note .trace text ⟨rfl, _, rfl⟩)
  rw [clear]
  dsimp only
  split
  · exact EngineM.Composes.pure (a := Except.error IoError.outOfRange) ⟨rfl, _, rfl⟩
  next haccepted =>
    cases hkind : disk.kind with
    | drive => exact hnoted _
    | disk trim =>
      dsimp only
      by_cases hcapable : trim.hasTrim = true
      · have htrims : disk.trimSupport.hasTrim = true := by rwa [trimSupport, hkind]
        rw [htrims, Bool.true_and, Bool.not_eq_true', Bool.not_eq_false] at haccepted
        exact absurd ⟨htrims, haccepted⟩ hrefused
      · rw [if_neg hcapable]
        exact hnoted _

/-- Every request on a disk conforms, over any device, on every engine like one whose areas have the
right size. -/
theorem conforms_perform {base : Engine} (hsized : base.areas.Sized) (disk : Disk)
    (request : BlockRequest) : (disk.blockDevice.perform request : EngineM σ _).Composes base
      (disk.Conforms base.config request) := by
  by_cases haccepts : disk.Accepts request
  · cases request with
    | read start bytes buffer =>
      apply EngineM.Composes.bind (composes_read hsized haccepts)
      · intro acts answer haccord
        apply EngineM.Composes.pure
        rw [List.append_nil]
        exact Conforms.of_accord (.read · answer.2) haccepts (fun _ => Bool.false_ne_true) haccord
      · intro acts reason haccord
        exact Conforms.of_accord (.read · buffer) haccepts (fun _ => Bool.false_ne_true) haccord
    | write start bytes buffer =>
      apply EngineM.Composes.map
      refine (accords_write hsized haccepts).mono fun acts result haccord => ?_
      exact Conforms.of_accord .write haccepts (fun _ => Bool.false_ne_true) haccord
    | clear start bytes =>
      apply EngineM.Composes.map
      refine (accords_clear hsized haccepts).mono fun acts result haccord => ?_
      exact Conforms.of_accord (fun _ => .advised) haccepts (fun _ => id) haccord
  · cases request with
    | read start bytes buffer =>
      obtain ⟨error, hturned⟩ := exists_read_refused (σ := σ) haccepts
      have hreply : (disk.blockDevice.perform (.read start bytes buffer) : EngineM σ _) =
          pure (.read (.error error) buffer) := by
        simp only [BlockDevice.perform, blockDevice, hturned, pure_bind]
      rw [hreply]
      exact .pure (.of_refused haccepts Bool.false_ne_true)
    | write start bytes buffer =>
      obtain ⟨error, hturned⟩ := exists_write_refused (σ := σ) haccepts
      apply EngineM.Composes.map
      have hreply : (disk.write start bytes buffer : RequestM σ _).run = pure (.error error) := by
        rw [hturned]
        rfl
      change (disk.write start bytes buffer : RequestM σ _).run.Composes base _
      rw [hreply]
      exact .pure (.of_refused haccepts Bool.false_ne_true)
    | clear start bytes =>
      apply EngineM.Composes.map
      refine (composes_clear_refused haccepts).mono ?_
      rintro acts result ⟨rfl, answer, rfl⟩
      exact .of_refused haccepts id

end Disk

/-! Requests after a history. -/

/-- On a port that came up, after any calls, any request on any disk keeps within the bounds of the
driver, whatever the device answers and whatever the disk claims to be. It is cut into pieces that
tile its extent, and if it is taken up each of them lies within the disk and can be carried and
named by one command. It does nothing but to carry them out in order, as far as it comes, and to
amend the failure of a command. It gives up only over a command that is waited for without a limit,
so it breaks none of the preconditions on which the driver would halt. Where there is a limit, each
of its commands is polled no more often than the limit says, a limit of zero counting as one, and
once more before the issue. -/
theorem Disk.perform_keeps_bounds {window : Window} {number slots : Nat} {config : Config}
    {start ready : World σ} {port : Port} {engine : Engine}
    (hup : (HostM.bringUp window number slots config).exec start =
      (.ok (.ok (port, engine)), ready))
    (calls : List DriverCall) (disk : Disk) (request : BlockRequest) :
    let driver := Driver.run ⟨engine, ready⟩ calls
    let ended := (disk.blockDevice.perform request).exec driver.engine driver.world
    ∃ stages, (disk.blockDevice.perform request).Comprises driver.engine driver.world stages ∧
      disk.Conforms config request (stages.map Stage.act) (ended.1.map Prod.fst) ∧
      Span.Tiles (disk.share config request) (disk.extent request) (disk.pieces config request) ∧
      (disk.Accepts request → ∀ piece ∈ disk.pieces config request,
        disk.Bounded config request piece) ∧
      ∀ limit, config.completionLimit = some limit → ∀ stage ∈ stages, ∀ command,
        stage.act = .run command →
          stage.after.polls window ≤ stage.world.polls window + (1 + max 1 limit.toNat) := by
  intro driver ended
  have hcame := HostM.cameUp_of_exec hup
  have hmade : engine.config = config := by rw [hcame.made]
  have hplaced : engine.window = window := by rw [hcame.made]
  have halike : driver.engine.Alike engine := Driver.alike_run ⟨engine, ready⟩ calls
  obtain ⟨stages, hdid, hconforms⟩ :=
    Disk.conforms_perform hcame.sized disk request driver.engine driver.world halike
  rw [hmade] at hconforms
  refine ⟨stages, hdid, hconforms, disk.tiles_pieces config request, ?_, ?_⟩
  · exact fun haccepts piece hmember => bounded_of_mem haccepts hmember
  · intro limit hlimited stage hmember command hruns
    rw [← hmade] at hlimited
    rw [← hplaced]
    exact hdid.polls halike hlimited hmember hruns

/-- The hypotheses are met by a read of the last block but one that sixty-four bits can number, from
a disk that claims to have it, after a failure to read it and a new identification. -/
theorem Disk.perform_keeps_bounds_of_last :
    let config : Config :=
      { blocksPerCommand := 0xFFFFFFFFFFFFFFFF, readyLimit := 1, completionLimit := some 0 }
    let disk : Disk := ⟨⟨0, .disk⟩, .disk .none, 0xFFFFFFFFFFFFFFFF, "disk"⟩
    let request : BlockRequest := .read 0xFFFFFFFFFFFFFFFE 1 (List.replicate 512 0)
    ∃ port engine ready, (HostM.bringUp (.port 0) 0 1 config).exec
        (World.around (.disk (.blank sectorSize 8))) = (.ok (.ok (port, engine)), ready) ∧
      let driver := Driver.run ⟨engine, ready⟩ [.onDisk disk request, .probe port]
      ∃ stages answer later,
        (disk.blockDevice.perform request).Comprises driver.engine driver.world stages ∧
        (disk.blockDevice.perform request).exec driver.engine driver.world =
          (.ok answer, later) ∧
        Act.Follow [.restart] [.run (.readSectors 0xFFFFFFFFFFFFFFFE 1)]
          (stages.map Stage.act) := by
  intro config disk request
  obtain ⟨port, engine, ready, hup, _⟩ :=
    exists_bringUp_around (show (Drive.disk (.blank sectorSize 8)).kind ≠ .empty by decide) 0 1
      (show 0 < config.readyLimit.toNat by decide)
  obtain ⟨stages, hdid, hconforms, _⟩ := Disk.perform_keeps_bounds hup
    [.onDisk disk request, .probe port] disk request
  have haccepts : disk.Accepts request := ⟨by decide, by decide, by decide⟩
  have hroom : (List.replicate 512 (0 : UInt8)).length / disk.blockSize = 1 := by
    rw [List.length_replicate]
    decide
  have hextent : disk.extent request = ⟨0xFFFFFFFFFFFFFFFE, 1⟩ := by
    simp only [request, extent, moves, hroom]
    decide
  have hplan : disk.plan config request = [.run (.readSectors 0xFFFFFFFFFFFFFFFE 1)] := by
    change Act.hauls .readSectors (Span.cut (disk.extent request) 128) = _
    rw [hextent]
    rfl
  have hfollows := hconforms.follows haccepts
  rw [hplan] at hfollows
  refine ⟨port, engine, ready, hup, stages, ?_⟩
  rcases hended : (disk.blockDevice.perform request).exec
    (Driver.run ⟨engine, ready⟩ [.onDisk disk request, .probe port]).engine
    (Driver.run ⟨engine, ready⟩ [.onDisk disk request, .probe port]).world
    with ⟨reason | answer, later⟩
  · rw [hended] at hconforms
    have hendless := (hconforms.ends reason rfl).2
    cases hendless
  · exact ⟨_, later, hdid, rfl, hfollows⟩

end Ahci
