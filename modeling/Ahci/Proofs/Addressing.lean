import Ahci.Proofs.Bounds
import Ahci.Proofs.Discarding

/-!
Which sectors the commands of a request name. A request on a disk is cut into pieces, and each
command names one piece as far as the forty-eight bits of an address go, in its frame or in the
range that it carries. So a request that ends within the first 2^48 sectors is carried out where
it was meant to be, and what lies behind is taken for a sector with a lower number.
-/

namespace Ahci

variable {σ α β : Type}

namespace Span

/-- How many sectors the address of a command can tell apart: 2^48. -/
def addressable : Nat := 0x1000000000000

/-- A run of sectors as the address of a command tells it: by the low forty-eight bits of its first
sector. The count is kept. -/
def wrapped (span : Span) : Span :=
  ⟨span.first % addressable, span.count⟩

/-- A run is told as it is just if its first sector can be told apart; where it ends does not
matter. -/
theorem wrapped_eq_self_iff {span : Span} : span.wrapped = span ↔ span.first < addressable := by
  obtain ⟨first, count⟩ := span
  constructor
  · intro hsame
    have hlow : first % addressable = first := congrArg Span.first hsame
    rw [← hlow]
    exact Nat.mod_lt first (by decide)
  · intro hlow
    have hsame : first % addressable = first := Nat.mod_eq_of_lt hlow
    rw [wrapped, hsame]

end Span

/-- The run of sectors that the frame of a command names, by its address and its count as they stand
in the frame. -/
def Command.span (command : Command) : Span :=
  ⟨command.fis.lba.toNat, command.fis.count.toNat⟩

/-- A frame that was made for a run of at most 65535 sectors names its full count, and its first
sector by forty-eight bits. -/
theorem Command.span_of_sectorFis {command : Command} {opcode : UInt8} {piece : Span}
    (hframe : command.fis = RequestM.sectorFis opcode piece.first piece.count)
    (hfew : piece.count ≤ DiscardRange.maxSectors) : command.span = piece.wrapped := by
  have hnarrow : piece.count < 65536 := Nat.lt_succ_of_le hfew
  rw [span, hframe, Span.wrapped, Span.mk.injEq]
  constructor
  · exact BitVec.toNat_ofNat piece.first 48
  · exact UInt16.toNat_ofNat_of_lt hnarrow

/-- A range that is to be discarded is told by the low bits of its address. -/
theorem DiscardRange.encode_wrapped (range : Span) : encode range.wrapped = encode range := by
  have hlow : littleEndian 6 (range.first % byteRange 6) = littleEndian 6 range.first := by
    have hthere := littleEndian_ofLittleEndian (littleEndian 6 range.first)
    rwa [ofLittleEndian_littleEndian, length_littleEndian] at hthere
  rw [encode, encode]
  exact congrArg (· ++ littleEndian 2 range.count) hlow

/-- The sectors that an act tells a disk to work on, as the disk reads them: a command to
discard carries them in the staging area, any other command in its frame. -/
def Stage.named (stage : Stage σ) : List Span :=
  match stage.act with
  | .run command =>
    if command.fis.opcode = Opcode.dataSetManagement then
      Drive.rangesIn
        (stage.world.memory.load (stage.engine.areas.write.address 0) DiscardRange.blockSize)
    else [command.span]
  | _ => []

namespace Act

/-- The runs of sectors that a plan names, one for each of its commands. A command to discard has no
run in its frame: it names the range that is placed in the staging area right before it. Other data
that is placed names nothing. -/
inductive Names : List Act → List Span → Prop where
  | nil : Names [] []
  | transfer {command : Command} {plan : List Act} {spans : List Span}
      (hmoves : command.fis.opcode ≠ Opcode.dataSetManagement) (hrest : Names plan spans) :
      Names (.run command :: plan) (command.span :: spans)
  | fill (bytes : List UInt8) (count : Nat) {plan : List Act} {spans : List Span}
      (hrest : Names plan spans) : Names (.fill bytes count :: plan) spans
  | discard {range : Span} {plan : List Act} {spans : List Span} (hsome : 0 < range.count)
      (hfew : range.count ≤ DiscardRange.maxSectors) (hrest : Names plan spans) :
      Names (.fill (DiscardRange.encode range) DiscardRange.blockSize :: .run .discard :: plan)
        (range.wrapped :: spans)

variable {pieces : List Span}

/-- A command for the sectors of a piece names the piece. -/
theorem Names.of_sectorFis {command : Command} {opcode : UInt8} {piece : Span}
    {plan : List Act} {spans : List Span}
    (hframe : command.fis = RequestM.sectorFis opcode piece.first piece.count)
    (hmoves : opcode ≠ Opcode.dataSetManagement) (hfew : piece.count ≤ DiscardRange.maxSectors)
    (hrest : Names plan spans) : Names (.run command :: plan) (piece.wrapped :: spans) := by
  have hother : command.fis.opcode ≠ Opcode.dataSetManagement := by rwa [hframe]
  have hnames := Names.transfer hother hrest
  rwa [Command.span_of_sectorFis hframe hfew] at hnames

theorem names_hauls (hfew : ∀ piece ∈ pieces, piece.count ≤ DiscardRange.maxSectors) :
    Names (hauls .readSectors pieces) (pieces.map Span.wrapped) := by
  induction pieces with
  | nil => exact .nil
  | cons piece others ih =>
    rw [List.forall_mem_cons] at hfew
    exact .of_sectorFis rfl (by decide) hfew.1 (ih hfew.2)

theorem names_writes (hfew : ∀ piece ∈ pieces, piece.count ≤ DiscardRange.maxSectors)
    (data : List UInt8) : Names (writes pieces data) (pieces.map Span.wrapped) := by
  induction pieces generalizing data with
  | nil => exact .nil
  | cons piece others ih =>
    rw [List.forall_mem_cons] at hfew
    apply Names.fill
    exact .of_sectorFis rfl (by decide) hfew.1 (ih hfew.2 _)

/-- Discarding ranges names them in their order, if none is empty: an empty entry would be no
range. -/
theorem names_discards
    (hbounds : ∀ piece ∈ pieces, 0 < piece.count ∧ piece.count ≤ DiscardRange.maxSectors) :
    Names (discards pieces) (pieces.map Span.wrapped) := by
  induction pieces with
  | nil => exact .nil
  | cons piece others ih =>
    rw [List.forall_mem_cons] at hbounds
    exact .discard hbounds.1.1 hbounds.1.2 (ih hbounds.2)

end Act

/-- The plan of a request that is taken up on an ATA disk names the pieces of the request, in their
order and as far as addresses go. Optical drives are left out: their commands carry the address in a
packet. -/
theorem Disk.names_plan {disk : Disk} {request : BlockRequest} (hsata : disk.isOptical = false)
    (haccepts : disk.Accepts request) (config : Config) :
    Act.Names (disk.plan config request) ((disk.pieces config request).map Span.wrapped) := by
  obtain ⟨trim, hkind⟩ := exists_sata_of_writable hsata
  have hshort := (disk.share_bounds config request).2
  have hbounds : ∀ piece ∈ disk.pieces config request,
      0 < piece.count ∧ piece.count ≤ DiscardRange.maxSectors := fun piece hmember =>
    have hbounded := bounded_of_mem haccepts hmember
    ⟨hbounded.some, Nat.le_trans hbounded.few hshort⟩
  cases request with
  | read start bytes buffer =>
    have hreader : disk.kind.reader = .readSectors := by rw [hkind]; rfl
    rw [plan, hreader]
    exact Act.names_hauls fun piece hmember => (hbounds piece hmember).2
  | write start bytes buffer =>
    exact Act.names_writes (fun piece hmember => (hbounds piece hmember).2) _
  | clear start bytes => exact Act.names_discards hbounds

section Stages

variable [Device σ]

/-- Between two acts of a call nothing touches the memory, so that each act finds it as the act
before left it. -/
def Stage.Linked (stages : List (Stage σ)) : Prop :=
  ∀ early first second late, stages = early ++ first :: second :: late →
    second.world.memory = first.after.memory

theorem Stage.Linked.tail {stage : Stage σ} {stages : List (Stage σ)}
    (hlinked : Linked (stage :: stages)) : Linked stages := by
  intro early first second late hsplit
  exact hlinked (stage :: early) first second late (by rw [hsplit, List.cons_append])

/-- The acts that a call comprises are linked, since all that changes memory during a call is an
act. -/
theorem EngineM.Comprises.linked {step : EngineM σ α} {engine : Engine} {world : World σ}
    {stages : List (Stage σ)} (hdid : step.Comprises engine world stages) :
    Stage.Linked stages := by
  let Left (past : List (Stage σ)) (world : World σ) : Prop :=
    ∀ early stage, past = early ++ [stage] → world.memory = stage.after.memory
  have hacts : ∀ past (stage : Stage σ), stage.engine.Alike engine → Left past stage.world →
      Left (past ++ [stage]) stage.after := by
    intro past stage _ _ early last hsame
    have htail := List.append_inj_right' hsame rfl
    cases htail
    rfl
  have hkept := hdid.keeps Left (fun _ _ _ hleft => hleft) hacts (.refl engine) [] (by simp [Left])
  intro early first second late hsplit
  have hhead := hkept.2 (early ++ [first]) second late (by simp [hsplit])
  exact hhead.2 early first rfl

/-- On an engine whose areas have the right size, a command to discard that comes right behind the
placing of one range names just this range. -/
theorem Stage.named_of_placed {first second : Stage σ} {range : Span}
    (halike : first.engine.Alike second.engine) (hsized : first.engine.areas.Sized)
    (hsome : 0 < range.count) (hfew : range.count ≤ DiscardRange.maxSectors)
    (hplaced : first.act = .fill (DiscardRange.encode range) DiscardRange.blockSize)
    (hruns : second.act = .run .discard) (hlinked : second.world.memory = first.after.memory) :
    second.named = [range.wrapped] := by
  have hlong : (DiscardRange.encode range).length ≤ DiscardRange.blockSize := by
    simp [DiscardRange.encode, DiscardRange.blockSize]
  have hmemory : second.world.memory = RequestM.staged second.engine (DiscardRange.encode range)
      DiscardRange.blockSize first.world.memory := by
    have hroom : DiscardRange.blockSize ≤ first.engine.areas.write.size := by
      rw [hsized.size_write]
      decide
    rw [hlinked, Stage.after, hplaced, RequestM.staged, ← halike.areas]
    dsimp only
    rw [EngineM.exec_fillStaging_ok hroom hlong]
  have hloaded : (RequestM.staged second.engine (DiscardRange.encode range)
      DiscardRange.blockSize first.world.memory).load (second.engine.areas.write.address 0)
        DiscardRange.blockSize = _ := RequestM.load_staged hlong first.world.memory
  have hlow : range.wrapped.first < 0x1000000000000 := Nat.mod_lt range.first (by decide)
  have hcounted : 0 < range.wrapped.count := hsome
  have hnames := Drive.rangesIn_encode hcounted hfew hlow
  rw [DiscardRange.encode_wrapped] at hnames
  rw [named, hruns]
  dsimp only
  rw [if_pos (show Command.discard.fis.opcode = Opcode.dataSetManagement from rfl), hmemory,
    hloaded, hnames]

variable {base : Engine} {spans : List Span} {plan done : List Act}

/-- As far as a plan is carried out, its commands name in order what the plan names, and all of it
if the whole plan was carried out. The engine has to stay alike between the acts, and the memory as
the act before left it. -/
theorem Act.Names.named_prefix (hnames : Act.Names plan spans) (hsized : base.areas.Sized)
    {stages : List (Stage σ)} (hcame : stages.map Stage.act <+: plan)
    (halike : ∀ stage ∈ stages, stage.engine.Alike base) (hlinked : Stage.Linked stages) :
    stages.flatMap Stage.named <+: spans ∧
      (stages.map Stage.act = plan → stages.flatMap Stage.named = spans) := by
  induction hnames generalizing stages with
  | nil =>
    rw [List.prefix_nil, List.map_eq_nil_iff] at hcame
    subst hcame
    exact ⟨List.nil_prefix, fun _ => rfl⟩
  | @transfer command plan spans hmoves hrest ih =>
    cases stages with
    | nil => exact ⟨List.nil_prefix, nofun⟩
    | cons stage stages =>
      obtain ⟨hruns, hcame⟩ := List.cons_prefix_cons.1 hcame
      rw [List.forall_mem_cons] at halike
      obtain ⟨hothers, hwhole⟩ := ih hcame halike.2 hlinked.tail
      have hnames : stage.named = [command.span] := by
        rw [Stage.named, hruns]
        exact if_neg hmoves
      rw [List.flatMap_cons, hnames]
      refine ⟨List.cons_prefix_cons.2 ⟨rfl, hothers⟩, fun hall => ?_⟩
      rw [hwhole (List.cons.inj hall).2]
      rfl
  | fill bytes count hrest ih =>
    cases stages with
    | nil => exact ⟨List.nil_prefix, nofun⟩
    | cons stage stages =>
      obtain ⟨hfills, hcame⟩ := List.cons_prefix_cons.1 hcame
      rw [List.forall_mem_cons] at halike
      obtain ⟨hothers, hwhole⟩ := ih hcame halike.2 hlinked.tail
      have hnames : stage.named = [] := by rw [Stage.named, hfills]
      rw [List.flatMap_cons, hnames, List.nil_append]
      exact ⟨hothers, fun hall => hwhole (List.cons.inj hall).2⟩
  | @discard range plan spans hsome hfew hrest ih =>
    cases stages with
    | nil => exact ⟨List.nil_prefix, nofun⟩
    | cons first stages =>
      obtain ⟨hplaces, hcame⟩ := List.cons_prefix_cons.1 hcame
      rw [List.forall_mem_cons] at halike
      have hsilent : first.named = [] := by rw [Stage.named, hplaces]
      cases stages with
      | nil =>
        rw [List.flatMap_cons, hsilent]
        refine ⟨List.nil_prefix, fun hall => ?_⟩
        simp at hall
      | cons second stages =>
        obtain ⟨hruns, hcame⟩ := List.cons_prefix_cons.1 hcame
        rw [List.forall_mem_cons] at halike
        obtain ⟨hothers, hwhole⟩ := ih hcame halike.2.2 hlinked.tail.tail
        have hnames : second.named = [range.wrapped] := by
          apply Stage.named_of_placed _ _ hsome hfew hplaces hruns
            (hlinked [] first second stages rfl)
          · exact halike.1.trans halike.2.1.symm
          · rwa [halike.1.areas]
        rw [List.flatMap_cons, hsilent, List.nil_append, List.flatMap_cons, hnames]
        refine ⟨List.cons_prefix_cons.2 ⟨rfl, hothers⟩, fun hall => ?_⟩
        rw [hwhole (List.cons.inj (List.cons.inj hall).2).2]
        rfl

/-- A failure is amended by a restart alone, which names nothing. So the acts of a request that
fails name no more than the plan does. -/
theorem Act.Names.named_of_follow (hnames : Act.Names plan spans) (hsized : base.areas.Sized)
    {stages : List (Stage σ)} (hfollow : Act.Follow [.restart] plan (stages.map Stage.act))
    (halike : ∀ stage ∈ stages, stage.engine.Alike base) (hlinked : Stage.Linked stages) :
    stages.flatMap Stage.named <+: spans := by
  obtain ⟨done, tail, hcame, hsplit, hamended⟩ := hfollow
  obtain ⟨early, late, rfl, rfl, rfl⟩ := List.map_eq_append_iff.1 hsplit
  have hsilent : late.flatMap Stage.named = [] := by
    rw [List.flatMap_eq_nil_iff]
    intro stage hmember
    have hrestarts := List.mem_singleton.1 (hamended stage.act (List.mem_map_of_mem hmember))
    rw [Stage.named, hrestarts]
  have halikeEarly : ∀ stage ∈ early, stage.engine.Alike base := fun stage hmember =>
    halike stage (List.mem_append_left late hmember)
  have hlinkedEarly : Stage.Linked early := by
    intro before first second behind hsame
    apply hlinked before first second (behind ++ late)
    rw [hsame, List.append_assoc, List.cons_append, List.cons_append]
  rw [List.flatMap_append, hsilent, List.append_nil]
  exact (hnames.named_prefix hsized hcame halikeEarly hlinkedEarly).1

/-- The commands of a request that is taken up on an ATA disk: what they name is the beginning of
the pieces, and all of them if the request succeeds. -/
theorem Disk.named_of_comprises {disk : Disk} {request : BlockRequest}
    (hsata : disk.isOptical = false) (haccepts : disk.Accepts request) (hsized : base.areas.Sized)
    {engine : Engine} (hsame : engine.Alike base) {world : World σ} {stages : List (Stage σ)}
    {result : Except Halt BlockReply}
    (hdid : (disk.blockDevice.perform request).Comprises engine world stages)
    (hconforms : disk.Conforms base.config request (stages.map Stage.act) result) :
    stages.flatMap Stage.named <+: (disk.pieces base.config request).map Span.wrapped ∧
      ((∃ reply, result = .ok reply ∧ reply.Succeeds) →
        stages.flatMap Stage.named = (disk.pieces base.config request).map Span.wrapped) := by
  have hnames := disk.names_plan hsata haccepts base.config
  have halike : ∀ stage ∈ stages, stage.engine.Alike base :=
    fun stage hmember => hdid.alike_of_mem hsame hmember
  have hfollow := hconforms.follows haccepts
  obtain ⟨trim, hkind⟩ := exists_sata_of_writable hsata
  rw [hkind] at hfollow
  refine ⟨hnames.named_of_follow hsized hfollow halike hdid.linked, ?_⟩
  rintro ⟨reply, hended, hsucceeds⟩
  have hwhole := (hconforms.done reply hended hsucceeds).2
  have hcame : stages.map Stage.act <+: disk.plan base.config request :=
    hwhole ▸ List.prefix_rfl
  exact (hnames.named_prefix hsized hcame halike hdid.linked).2 hwhole

/-- On a port that came up, after any calls and over any device, take any request that is taken up
on an ATA disk. Its pieces tile the extent of the request, and what its commands name, read from
their frames or from the ranges in memory, is the beginning of the list of pieces, or all of it if
the request succeeds. Each piece is named by its full count and by the low forty-eight bits of its
first sector. So an extent that ends within 2^48 sectors is named as it is; a piece that begins
behind them is not, but as one with a lower number. -/
theorem Disk.perform_names_pieces {window : Window} {number slots : Nat} {config : Config}
    {start ready : World σ} {port : Port} {engine : Engine}
    (hup : (HostM.bringUp window number slots config).exec start =
      (.ok (.ok (port, engine)), ready))
    (calls : List DriverCall) {disk : Disk} (hsata : disk.isOptical = false)
    {request : BlockRequest} (haccepts : disk.Accepts request) :
    let driver := Driver.run ⟨engine, ready⟩ calls
    let ended := (disk.blockDevice.perform request).exec driver.engine driver.world
    let pieces := disk.pieces config request
    ∃ stages, (disk.blockDevice.perform request).Comprises driver.engine driver.world stages ∧
      Span.Tiles (disk.share config request) (disk.extent request) pieces ∧
      stages.flatMap Stage.named <+: pieces.map Span.wrapped ∧
      ((∃ reply, ended.1.map Prod.fst = .ok reply ∧ reply.Succeeds) →
        stages.flatMap Stage.named = pieces.map Span.wrapped) ∧
      ((disk.extent request).stop ≤ Span.addressable → pieces.map Span.wrapped = pieces) ∧
      ∀ piece ∈ pieces, (piece.wrapped = piece ↔ piece.first < Span.addressable) := by
  intro driver ended pieces
  have hcame := HostM.cameUp_of_exec hup
  have hmade : engine.config = config := by rw [hcame.made]
  have halike : driver.engine.Alike engine := Driver.alike_run ⟨engine, ready⟩ calls
  obtain ⟨stages, hdid, hconforms⟩ :=
    Disk.conforms_perform hcame.sized disk request driver.engine driver.world halike
  obtain ⟨hnamed, hwhole⟩ := named_of_comprises hsata haccepts hcame.sized halike hdid hconforms
  have htiles := disk.tiles_pieces config request
  rw [hmade] at hnamed hwhole
  refine ⟨stages, hdid, htiles, hnamed, hwhole, ?_, fun piece _ => Span.wrapped_eq_self_iff⟩
  intro hwithin
  have hsame : ∀ piece ∈ pieces, piece.wrapped = piece := by
    intro piece hmember
    have hinside := htiles.within (disk.share_bounds config request).1 piece hmember
    rw [Span.wrapped_eq_self_iff]
    unfold Span.stop at hinside hwithin
    omega
  exact List.map_congr_left hsame |>.trans (List.map_id pieces)

end Stages

/-- The hypotheses are met by clearing one sector more than a range can cover, which is named as two
ranges, the second one for a single sector. -/
theorem Disk.perform_names_pieces_of_two_ranges :
    let disk : Disk := ⟨⟨0, .disk⟩, .disk ⟨true, false, false, 1⟩, 70000, "disk"⟩
    let request : BlockRequest := .clear 5 0x2000000
    ∃ port engine ready, (HostM.bringUp (.port 0) 0 1 { readyLimit := 1 }).exec
        (World.around (.disk (.blank sectorSize 70000))) = (.ok (.ok (port, engine)), ready) ∧
      let driver := Driver.run ⟨engine, ready⟩ [.probe port]
      ∃ stages,
        (disk.blockDevice.perform request).Comprises driver.engine driver.world stages ∧
        stages.flatMap Stage.named <+: [⟨5, 65535⟩, ⟨65540, 1⟩] := by
  intro disk request
  obtain ⟨port, engine, ready, hup, _⟩ :=
    exists_bringUp_around (show (Drive.disk (.blank sectorSize 70000)).kind ≠ .empty by decide) 0
      1 (show 0 < ({ readyLimit := 1 } : Config).readyLimit.toNat by decide)
  have haccepts : disk.Accepts request := ⟨by decide, by decide⟩
  obtain ⟨stages, hdid, _, hnamed, _, hlow, _⟩ :=
    Disk.perform_names_pieces hup [.probe port] (show disk.isOptical = false from rfl) haccepts
  have hpieces : disk.pieces { readyLimit := 1 } request = [⟨5, 65535⟩, ⟨65540, 1⟩] := by decide
  rw [hlow (by decide), hpieces] at hnamed
  exact ⟨port, engine, ready, hup, stages, hdid, hnamed⟩

/-! Sectors that lie behind those that an address can tell apart. -/

/-- A request to read sectors is the same program as the request for the sectors whose number agrees
in the low forty-eight bits. -/
theorem RequestM.readSectors_wrapped [Device σ] (lba sectors : Nat) :
    (readSectors (lba % Span.addressable) sectors : RequestM σ _) = readSectors lba sectors := by
  have hsame : BitVec.ofNat 48 (lba % Span.addressable) = BitVec.ofNat 48 lba := by
    apply BitVec.eq_of_toNat_eq
    rw [BitVec.toNat_ofNat, BitVec.toNat_ofNat]
    exact Nat.mod_mod lba Span.addressable
  simp only [readSectors, sectorFis, HostFis.withLba, hsame]

/-- On a flawless port that holds a disk, reading one piece that begins behind the sectors that can
be told apart succeeds. It fills the whole buffer with the sectors of the lower number. -/
theorem Disk.exists_readSpans_wrapped {engine : Engine} {port : SimulatedPort}
    (hholds : engine.Holds port) {piece : Span} (hsingle : piece.wrapped.Single)
    (hlow : piece.stop < UInt64.size)
    (haccepted : port.refuses? Opcode.readDmaExt piece.wrapped = none) (trim : TrimSupport)
    {buffer : List UInt8} (hroom : buffer.length = piece.count * sectorSize) (memory : Memory) :
    ∃ after changed, (readSpans (.disk trim) [piece] buffer).Yields engine ⟨port, memory⟩
      (.ok ((.ok buffer.length,
        port.drive.medium.read (piece.first % Span.addressable) piece.count), engine))
      ⟨after, changed⟩ 1 := by
  obtain ⟨after, changed, hyields, _⟩ :=
    RequestM.exists_readSectors hholds hsingle haccepted memory
  have hlength : (port.drive.medium.read (piece.first % Span.addressable) piece.count).length =
      piece.count * sectorSize := by
    rw [Medium.length_read, hholds.sectors]
  have hchunk : (readChunk (.disk trim) piece).Yields engine ⟨port, memory⟩
      (.ok (.ok (port.drive.medium.read (piece.first % Span.addressable) piece.count), engine))
        ⟨after, changed⟩ 1 := by
    change (RequestM.readSectors piece.first piece.count).Yields _ _ _ _ _
    rw [← RequestM.readSectors_wrapped]
    exact hyields
  have hguard {condition : Bool} (hholds : condition = true) (reason : Halt)
      (machine : Machine SimulatedPort) :
      (EngineM.onHost (HostM.require condition reason)).Yields engine machine
        (.ok ((), engine)) machine 0 :=
    EngineM.yields_onHost (HostM.yields_require hholds reason machine) engine
  refine ⟨after, changed, ?_⟩
  have hnothing : buffer.drop (piece.count * sectorSize) = [] := by
    rw [← hroom, List.drop_length]
  have hended : (readSpans (.disk trim) [piece] buffer).Yields engine ⟨port, memory⟩
      (.ok ((.ok (piece.count * sectorSize + 0),
        port.drive.medium.read (piece.first % Span.addressable) piece.count ++
          buffer.drop (piece.count * sectorSize)), engine)) ⟨after, changed⟩ 1 := by
    refine (hguard (decide_eq_true (Nat.le_of_eq hroom.symm)) _ _).seq ?_
    refine EngineM.Yields.finish hchunk ?_
    refine (hguard (beq_iff_eq.2 hlength) _ _).seq ?_
    refine (hguard (decide_eq_true hlow) _ _).seq ?_
    exact EngineM.yields_pure _ engine _
  rwa [hnothing, List.append_nil, Nat.add_zero, ← hroom] at hended

/-- A limit of the driver. A disk whose page tells 2^49 sectors is probed and found to have them
all; a read of the sector with number 2^48 is within range and taken up, it succeeds, and what it
places in the buffer is the sector with number zero. -/
theorem Disk.read_behind_addressable_reads_first :
    let medium : Medium := .filled sectorSize 8 fun place => UInt8.ofNat (place / 100)
    let drive : Drive :=
      { Drive.disk medium with page := PageBuilder.standard 0x2000000000000 }
    let request : BlockRequest := .read Span.addressable sectorSize (List.replicate sectorSize 0xA5)
    ∃ port engine ready disk known, (HostM.bringUp (.port 0) 0 1 { readyLimit := 1 }).exec
        (World.around drive) = (.ok (.ok (port, engine)), ready) ∧
      (Disk.probe port).exec engine ready = (.ok (.ok disk, engine), known) ∧
      disk.blockCount.toNat = 0x2000000000000 ∧ disk.Accepts request ∧
      disk.extent request = ⟨Span.addressable, 1⟩ ∧
      ∃ stages later,
        (disk.blockDevice.perform request).Comprises engine known stages ∧
        (disk.blockDevice.perform request).exec engine known =
          (.ok (.read (.ok sectorSize) (medium.read 0 1), engine), later) ∧
        stages.flatMap Stage.named = [⟨0, 1⟩] := by
  intro medium drive request
  have hflawless : (World.around drive).device.Flawless := ⟨rfl, rfl, rfl, rfl, rfl, rfl⟩
  obtain ⟨engine, ready, hup, hbrought, _, hmirrors⟩ := Engine.exists_mirrors_around hflawless
    (show 0 < ({ readyLimit := 1 } : Config).readyLimit.toNat by decide)
  have hpage : PageBuilder.Standard ready.device.drive.page 0x2000000000000 := by
    rw [hbrought.device]
    exact .inl rfl
  obtain ⟨disk, between, changed, issued, hprobed, hkept, ⟨trim, hkind⟩, hblocks⟩ :=
    Disk.exists_probe hmirrors hpage (by decide) 0 ready.memory
  obtain ⟨known, hfound, haround, _⟩ := hprobed ready rfl
  have hsize : disk.blockSize = sectorSize := by
    rw [Disk.blockSize, hkind]
    rfl
  have haccepts : disk.Accepts request := by
    refine ⟨by decide, by decide, ?_⟩
    rw [inRange, hsize, hblocks]
    decide
  have hextent : disk.extent request = ⟨Span.addressable, 1⟩ := by
    simp only [request, Disk.extent, moves, hsize, List.length_replicate]
    decide
  have hpieces : disk.pieces engine.config request = [⟨Span.addressable, 1⟩] := by
    change (disk.extent request).cut (disk.kind.chunk engine.config) = _
    rw [hextent, hbrought.configured, DiskKind.chunk, hkind]
    exact show Span.cut ⟨Span.addressable, 1⟩ 16 = [⟨Span.addressable, 1⟩] by decide
  have hsingle : (⟨Span.addressable, 1⟩ : Span).wrapped.Single := ⟨by decide, by decide, by decide⟩
  have haccepted : between.refuses? Opcode.readDmaExt (⟨Span.addressable, 1⟩ : Span).wrapped =
      none := by
    rw [hkept.refuses?]
    exact if_pos (show (⟨Span.addressable, 1⟩ : Span).wrapped.stop ≤ 8 by decide)
  have hroom : (List.replicate sectorSize (0xA5 : UInt8)).length = 1 * sectorSize := by
    rw [List.length_replicate, Nat.one_mul]
  obtain ⟨after, moved, hyields⟩ := exists_readSpans_wrapped hkept.holds hsingle (by decide)
    haccepted trim hroom changed
  rw [hkept.medium, List.length_replicate, ← hpieces, ← hkind] at hyields
  have hreads := yields_read haccepts.1 haccepts.2.1 haccepts.2.2 hyields
  have hperforms : (disk.blockDevice.perform request).Yields engine ⟨between, changed⟩
      (.ok (.read (.ok sectorSize) (medium.read 0 1), engine)) ⟨after, moved⟩ 1 :=
    EngineM.Yields.finish hreads (EngineM.yields_pure _ engine _)
  obtain ⟨later, hended, _⟩ := hperforms known haround
  have halike := Engine.Alike.refl engine
  obtain ⟨stages, hdid, hconforms⟩ :=
    Disk.conforms_perform hbrought.sized disk request engine known halike
  have hsata : disk.isOptical = false := by rw [isOptical, hkind]
  obtain ⟨_, hwhole⟩ := named_of_comprises hsata haccepts hbrought.sized halike hdid hconforms
  refine ⟨_, engine, ready, disk, known, hup, hfound, hblocks, haccepts, hextent, stages, later,
    hdid, hended, ?_⟩
  have hreplied : ((disk.blockDevice.perform request).exec engine known).1.map Prod.fst =
      .ok (.read (.ok sectorSize) (medium.read 0 1)) := by
    rw [show (disk.blockDevice.perform request).exec engine known = _ from hended]
    rfl
  rw [hwhole ⟨_, hreplied, rfl⟩, hpieces]
  decide

end Ahci
