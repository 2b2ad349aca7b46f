import Ahci.Proofs.PortHistories
import Ahci.Proofs.RequestTiling

/-!
Requests that are turned down, over any device. A request is turned down when it ends with a
failure and nothing has come of it: the engine and the whole world are as they were. Whether it
is can be told from its arguments alone. For a request to a disk the disk decides, and where the
disk has no objection, the request to the engine that it begins with; every other request reads
a register before it fails.
-/

namespace Ahci

variable {σ α β : Type}

/-- A request as it is handed in: to a disk, or to the engine of a port. Advice to discard is left
out, since its reply does not tell whether it failed. -/
inductive Submission where
  | read (disk : Disk) (start bytes : Nat) (buffer : List UInt8)
  | write (disk : Disk) (start bytes : Nat) (buffer : List UInt8)
  | eject (disk : Disk)
  | requestSense (disk : Disk)
  | readSectors (lba sectors : Nat)
  | writeSectors (lba sectors : Nat) (data : List UInt8)
  | readBlocks (lba blocks : Nat)

/-- A run of blocks that ends behind the last block of a disk, or whose end sixty-four bits cannot
count. -/
def Disk.Exceeded (disk : Disk) (start blocks : Nat) : Prop :=
  UInt64.size ≤ start + blocks ∨ disk.blockCount.toNat < start + blocks

instance (disk : Disk) (start blocks : Nat) : Decidable (disk.Exceeded start blocks) :=
  inferInstanceAs (Decidable (_ ∨ _))

namespace Submission

/-- What the one to whom a request is handed in objects to it, in the order in which the driver
looks: a disk at its kind, at the buffer and at the range, and an engine at the number of blocks,
the room for the data and what a packet can address. -/
def objection? : Submission → Option IoError
  | read disk start bytes buffer =>
    if bytes = 0 ∨ buffer = [] then some .invalidBuffer
    else if disk.Exceeded start (blocksFor bytes disk.blockSize) then some .outOfRange
    else none
  | write disk start bytes buffer =>
    if disk.isOptical then some .unsupported
    else if bytes = 0 ∨ buffer.length < bytes then some .invalidBuffer
    else if disk.Exceeded start (blocksFor bytes disk.blockSize) then some .outOfRange
    else none
  | eject disk => if disk.isOptical then none else some .unsupported
  | requestSense disk => if disk.isOptical then none else some .unsupported
  | readSectors _ sectors => if sectors = 0 then some .invalidBuffer else none
  | writeSectors _ sectors data =>
    if sectors = 0 ∨ sectors * sectorSize < data.length then some .invalidBuffer else none
  | readBlocks lba blocks =>
    if blocks = 0 then some .invalidBuffer
    else if UInt32.size ≤ lba then some .outOfRange
    else none

/-- The request to the engine for one piece of a read. -/
def piece (kind : DiskKind) (span : Span) : Submission :=
  match kind with
  | .disk _ => readSectors span.first span.count
  | .drive => readBlocks span.first span.count

/-- The request to the engine with which a request for blocks of a disk begins, if it moves any
blocks. A buffer shorter than a block has room for none. -/
def first? (config : Config) : Submission → Option Submission
  | read disk start bytes buffer =>
    ((disk.moves (.read start bytes buffer)).cut (disk.kind.chunk config)).head?.map
      (piece disk.kind)
  | write disk start bytes buffer =>
    ((disk.moves (.write start bytes buffer)).cut (disk.kind.chunk config)).head?.map fun piece =>
      writeSectors piece.first piece.count ((buffer.take bytes).take (piece.count * sectorSize))
  | _ => none

/-- A request to the engine is for no more blocks than one command can carry; for more of them the
engine would halt. A request to a disk is limited by itself. -/
def Limited : Submission → Prop
  | readSectors _ sectors => sectors ≤ maxSectors
  | writeSectors _ sectors _ => sectors ≤ maxSectors
  | readBlocks _ blocks => blocks ≤ maxDriveBlocks
  | _ => True

/-- The answer to a request that failed with its buffer as it was handed in. -/
def failed (error : IoError) : Submission → Bench.Outcome
  | read _ _ _ buffer => .read (.error error) buffer
  | _ => .ioError error

variable [Device σ]

def run : Submission → EngineM σ Bench.Outcome
  | read disk start bytes buffer => do
    let (placed, buffer) ← disk.read start bytes buffer
    return .read placed buffer
  | write disk start bytes buffer =>
    .ofRequest (fun _ => .ok) <$> (disk.write start bytes buffer).run
  | eject disk => .ofRequest (fun _ => .ok) <$> disk.eject.run
  | requestSense disk => .ofRequest (.sense ∘ some) <$> disk.requestSense.run
  | readSectors lba sectors => .ofRequest .bytes <$> (RequestM.readSectors lba sectors).run
  | writeSectors lba sectors data =>
    .ofRequest (fun _ => .ok) <$> (RequestM.writeSectors lba sectors data).run
  | readBlocks lba blocks => .ofRequest .bytes <$> (RequestM.readBlocks lba blocks).run

/-- A request ends with a failure, and nothing has come of it: neither the engine nor anything in
the world is changed, the record of accesses and the log included. -/
def TurnedDown (submission : Submission) (error : IoError) (engine : Engine) (world : World σ) :
    Prop :=
  submission.run.exec engine world = (.ok (submission.failed error, engine), world)

end Submission

/-! Steps that are seen from outside. -/

namespace EngineM

variable [Device σ] {engine : Engine} {world : World σ}

/-- The accesses of a call are recorded behind those that were made before it, so the record never
gets shorter. -/
theorem Composed.length_le {step : EngineM σ α} (hcomposed : step.Composed) (engine : Engine)
    (world : World σ) :
    world.accesses.length ≤ (step.exec engine world).2.accesses.length := by
  obtain ⟨stages, hdid, -⟩ := hcomposed engine engine world (.refl engine)
  have hcalm : ∀ (later : World σ) (log : Log), world.accesses.length ≤ later.accesses.length →
      world.accesses.length ≤ { later with log }.accesses.length := fun _ _ hkept => hkept
  have hreads (window : Window) (later : World σ) (offset : Nat)
      (hkept : world.accesses.length ≤ later.accesses.length) : world.accesses.length ≤
        ((HostM.readRegister window offset).exec later).2.accesses.length :=
    Nat.le_succ_of_le hkept
  have hwrites (window : Window) (later : World σ) (offset : Nat) (value : UInt32)
      (hkept : world.accesses.length ≤ later.accesses.length) : world.accesses.length ≤
        ((HostM.writeRegister window offset value).exec later).2.accesses.length :=
    Nat.le_succ_of_le hkept
  refine (hdid.keeps (fun _ later => world.accesses.length ≤ later.accesses.length)
    (fun _ => hcalm) ?_ (.refl engine) [] (Nat.le_refl _)).1
  rintro past ⟨act, base, later⟩ - hkept
  cases act with
  | fill bytes count =>
    change world.accesses.length ≤
      ((fillStaging bytes count).exec base later).2.accesses.length
    by_cases hroom : count ≤ base.areas.write.size ∧ bytes.length ≤ count
    · rw [exec_fillStaging_ok hroom.1 hroom.2]
      exact hkept
    · rw [exec_fillStaging_error hroom]
      exact hkept
  | run command =>
    exact keeps_runCommand command _ hcalm (hreads _) (fun _ later offset value _ =>
      hwrites _ later offset value) (fun _ _ _ _ _ hsame => hsame) hkept
  | restart =>
    exact (Engine.touches_recover base).keeps _ hcalm (hreads _) (fun later offset value _ =>
      hwrites _ later offset value) later hkept

/-- A step that reads or writes a register, unless it gives up. It is seen by the record, which is
longer afterwards. -/
def Stirs (step : EngineM σ α) : Prop :=
  ∀ engine world, (∃ reason, (step.exec engine world).1 = .error reason) ∨
    world.accesses.length < (step.exec engine world).2.accesses.length

theorem stirs_runCommand (command : Command) :
    (runCommand command : EngineM σ (Except CommandError Unit)).Stirs := by
  intro engine world
  right
  obtain ⟨busy, looked, hfree, hattempt⟩ := exec_runCommand command engine world
  have hfurther : world.accesses.length < looked.accesses.length := by
    rw [show looked = ((HostM.busySlots engine.window).exec world).2 by rw [hfree],
      HostM.busySlots, HostM.exec_bind_ok (HostM.exec_readRegister _ _ _),
      HostM.exec_bind_ok (HostM.exec_readRegister _ _ _)]
    exact Nat.lt_succ_of_lt (Nat.lt_succ_self _)
  obtain ⟨shortage, _, hfull⟩ | ⟨slot, claimed, result, after, hclaim, hran, hrest⟩ := hattempt
  · rw [hfull]
    exact hfurther
  · have hbound : slot < slotCount :=
      Nat.lt_of_lt_of_le (SlotArena.claim_eq_ok_iff.1 hclaim).2.1 engine.slots.count_le
    have hsubmitted : world.accesses.length <
        ((engine.submit claimed slot command).exec looked).2.accesses.length := by
      apply keeps_submit command claimed hbound
        fun later => world.accesses.length < later.accesses.length
      · exact fun _ _ hkept => hkept
      · intro later offset hkept
        rw [HostM.exec_readRegister]
        exact Nat.lt_succ_of_lt hkept
      · intro _ later offset value _ hkept
        rw [HostM.exec_writeRegister]
        exact Nat.lt_succ_of_lt hkept
      · exact fun _ _ _ _ _ hkept => hkept
      · exact hfurther
    rw [hran] at hsubmitted
    rw [hrest]
    exact hsubmitted

namespace Stirs

variable {step : EngineM σ α} {next : α → EngineM σ β}

theorem first (hstirs : step.Stirs) (hrest : ∀ a, (next a).Composed) : (step >>= next).Stirs := by
  intro engine world
  have hbefore := hstirs engine world
  rw [exec_bind]
  cases hended : step.exec engine world with
  | mk result after =>
    rw [hended] at hbefore
    cases result with
    | error reason => exact .inl ⟨reason, rfl⟩
    | ok answered =>
      obtain ⟨reason, hgave⟩ | hfurther := hbefore
      · cases hgave
      · exact .inr (Nat.lt_of_lt_of_le hfurther ((hrest answered.1).length_le answered.2 after))

theorem behind (hbegun : step.Composed) (hstirs : ∀ a, (next a).Stirs) :
    (step >>= next).Stirs := by
  intro engine world
  have hbefore := hbegun.length_le engine world
  rw [exec_bind]
  cases hended : step.exec engine world with
  | mk result after =>
    rw [hended] at hbefore
    cases result with
    | error reason => exact .inl ⟨reason, rfl⟩
    | ok answered =>
      obtain ⟨reason, hgave⟩ | hfurther := hstirs answered.1 answered.2 after
      · exact .inl ⟨reason, hgave⟩
      · exact .inr (Nat.lt_of_le_of_lt hbefore hfurther)

theorem map (hstirs : step.Stirs) (f : α → β) : (f <$> step).Stirs := by
  rw [map_eq_pure_bind]
  exact hstirs.first fun a => .pure (f a)

end Stirs

theorem stirs_packet (cdb : Cdb) (data : DataPhase) (label : String) :
    (EngineM.packet cdb data label : EngineM σ _).Stirs := by
  apply (stirs_runCommand _).first
  intro outcome
  cases outcome with
  | ok _ => exact .pure _
  | error error =>
    cases error with
    | checkCondition =>
      apply Composed.bind fun _ => .restart trivial
      intro _
      exact .bind (Routine.checkCondition (τ := σ) label).composed fun _ => .pure _
    | _ => exact .bind (.fail label _) fun _ => .pure _

end EngineM

namespace RequestM

theorem require_bind {condition : Bool} (hholds : condition = true) (reason : Halt)
    (next : Unit → RequestM σ β) : RequestM.require condition reason >>= next = next () := by
  subst hholds
  rfl

/-- A precondition that fails gives up, so what comes behind it may be taken to be all. -/
theorem stirs_require {condition : Bool} {reason : Halt} {next : Unit → RequestM σ β}
    (hstirs : (next ()).run.Stirs) : (RequestM.require condition reason >>= next).run.Stirs := by
  cases condition with
  | true =>
    rw [require_bind rfl]
    exact hstirs
  | false => exact fun engine world => .inl ⟨reason, rfl⟩

variable [Device σ]

theorem stirs_first {request : RequestM σ α} {next : α → RequestM σ β}
    (hstirs : request.run.Stirs) (hrest : ∀ a, (next a).Composed) :
    (request >>= next).run.Stirs := by
  rw [ExceptT.run_bind]
  apply hstirs.first
  intro answer
  cases answer with
  | ok a => exact hrest a
  | error error => exact .pure _

theorem stirs_execute (command : Command) : (execute command : RequestM σ Unit).run.Stirs := by
  apply stirs_first ((EngineM.stirs_runCommand command).map Except.ok)
  intro outcome
  cases outcome with
  | ok _ => exact .pure ()
  | error error => exact .bind (.onEngine (.fail command.label error)) fun _ => .throw _

theorem stirs_requestSense : (requestSense : RequestM σ _).run.Stirs := by
  apply stirs_first (stirs_execute _)
  intro _
  apply RequestM.Composed.bind (.onEngine (.readStaging _))
  intro bytes
  cases SenseData.parse? bytes with
  | none => exact .throw _
  | some sense => exact .bind (.onEngine fun _ => .remember sense trivial) fun _ => .pure sense

theorem stirs_eject : (eject : RequestM σ Unit).run.Stirs := by
  have hsequence : (Eject.sequence fun cdb label => (EngineM.packet cdb .none label :
      EngineM σ _)).Stirs := by
    refine (EngineM.stirs_packet _ _ _).first fun unlocked => ?_
    cases unlocked with
    | error error => exact .pure _
    | ok _ =>
      refine .bind (EngineM.Routine.packet (τ := σ) _ _ _).composed fun opened => ?_
      cases opened <;> exact .pure _
  apply stirs_first (hsequence.map Except.ok)
  intro ended
  exact .bind (.note _ _) fun _ => EngineM.Composed.pure ended.1

/-! Requests to an engine, objected to or not. -/

variable {lba sectors blocks : Nat} {data : List UInt8} {error : IoError}

/-- A read of the engine that is objected to is no more than the failure. Only the limit on sectors
has to hold, on which the read would halt first. -/
theorem readSectors_of_objection (hfew : sectors ≤ maxSectors)
    (hobjects : (Submission.readSectors lba sectors).objection? = some error) :
    (readSectors lba sectors : RequestM σ _) = throw error := by
  rw [Submission.objection?] at hobjects
  split at hobjects
  · next hempty =>
    cases hobjects
    rw [readSectors, require_bind (decide_eq_true hfew), if_pos hempty]
    rfl
  · cases hobjects

theorem stirs_readSectors (haccepted : (Submission.readSectors lba sectors).objection? = none) :
    (readSectors lba sectors : RequestM σ _).run.Stirs := by
  have hsome : sectors ≠ 0 := by
    rintro rfl
    cases haccepted
  apply stirs_require
  rw [if_neg hsome]
  exact stirs_first (stirs_execute _) fun _ => .onEngine (.readStaging _)

theorem writeSectors_of_objection (hfew : sectors ≤ maxSectors)
    (hobjects : (Submission.writeSectors lba sectors data).objection? = some error) :
    (writeSectors lba sectors data : RequestM σ _) = throw error := by
  rw [Submission.objection?] at hobjects
  split at hobjects
  · next hbad =>
    cases hobjects
    rw [writeSectors, require_bind (decide_eq_true hfew)]
    dsimp only
    rw [if_pos (by simpa using hbad)]
    rfl
  · cases hobjects

theorem stirs_writeSectors
    (haccepted : (Submission.writeSectors lba sectors data).objection? = none) :
    (writeSectors lba sectors data : RequestM σ _).run.Stirs := by
  have hgood : ¬(sectors = 0 ∨ sectors * sectorSize < data.length) := by
    intro hbad
    rw [Submission.objection?, if_pos hbad] at haccepted
    cases haccepted
  apply stirs_require
  dsimp only
  rw [if_neg (by simpa using hgood), run_onEngine_bind]
  exact EngineM.Stirs.behind (.fill _ _) fun _ => stirs_execute _

/-- A read of blocks that is objected to issues no packet, and so asks for no sense data either. -/
theorem readBlocks_of_objection (hfew : blocks ≤ maxDriveBlocks)
    (hobjects : (Submission.readBlocks lba blocks).objection? = some error) :
    (readBlocks lba blocks : RequestM σ _) = throw error := by
  rw [readBlocks, require_bind (decide_eq_true hfew)]
  rw [Submission.objection?] at hobjects
  split at hobjects
  · next hempty =>
    cases hobjects
    rw [if_pos hempty]
    rfl
  · next hsome =>
    split at hobjects
    · next hfar =>
      cases hobjects
      rw [if_neg hsome, if_pos hfar]
      rfl
    · cases hobjects

theorem stirs_readBlocks (haccepted : (Submission.readBlocks lba blocks).objection? = none) :
    (readBlocks lba blocks : RequestM σ _).run.Stirs := by
  rw [Submission.objection?] at haccepted
  split at haccepted
  · cases haccepted
  · next hsome =>
    split at haccepted
    · cases haccepted
    · next hnear =>
      apply stirs_require
      rw [if_neg hsome, if_neg hnear]
      exact stirs_first (EngineM.stirs_packet _ _ _) fun _ => .onEngine (.readStaging _)

end RequestM

/-! Requests to a disk, objected to or not. -/

namespace Disk

variable [Device σ] {disk : Disk} {kind : DiskKind} {start bytes : Nat} {span : Span}
  {others : List Span} {buffer data : List UInt8} {error : IoError}

theorem exceeded_iff {blocks : Nat} :
    disk.Exceeded start blocks ↔ disk.inRange start blocks = false := by
  have hfew := disk.blockCount.toNat_lt
  rw [Exceeded, inRange, decide_eq_false_iff_not, Nat.not_le]
  constructor
  · rintro (hlarge | hbeyond)
    · exact Nat.lt_of_lt_of_le hfew hlarge
    · exact hbeyond
  · exact .inr

/-- What a disk does with a read, told by its objection: it fails with that and hands the buffer
back, or it reads piece by piece. -/
theorem read_eq (disk : Disk) (start bytes : Nat) (buffer : List UInt8) :
    (disk.read start bytes buffer : EngineM σ _) =
      match (Submission.read disk start bytes buffer).objection? with
      | some error => pure (.error error, buffer)
      | none => get >>= fun engine => readSpans disk.kind
          ((disk.moves (.read start bytes buffer)).cut (disk.kind.chunk engine.config)) buffer := by
  by_cases hnothing : bytes = 0 ∨ buffer = []
  · rw [read, if_pos (by simpa using hnothing), Submission.objection?, if_pos hnothing]
  · rw [read, if_neg (by simpa using hnothing), Submission.objection?, if_neg hnothing]
    by_cases hbeyond : disk.Exceeded start (blocksFor bytes disk.blockSize)
    · simp only [exceeded_iff.1 hbeyond, if_pos hbeyond, Bool.not_false, if_true]
    · have hwithin : disk.inRange start (blocksFor bytes disk.blockSize) = true := by
        rwa [exceeded_iff, Bool.not_eq_false] at hbeyond
      simp only [hwithin, if_neg hbeyond, Bool.not_true, Bool.false_eq_true, if_false]
      rfl

/-- What a disk does with a write, told by its objection: it fails with that, or it writes piece by
piece what the buffer has. -/
theorem write_eq (disk : Disk) (start bytes : Nat) (buffer : List UInt8) :
    (disk.write start bytes buffer : RequestM σ Unit) =
      match (Submission.write disk start bytes buffer).objection? with
      | some error => throw error
      | none => (get : RequestM σ Engine) >>= fun engine => writeSpans disk.kind
          ((disk.moves (.write start bytes buffer)).cut (disk.kind.chunk engine.config))
          (buffer.take bytes) := by
  by_cases hoptical : disk.isOptical = true
  · rw [write, if_pos hoptical, Submission.objection?, if_pos hoptical]
    rfl
  · rw [write, if_neg hoptical, Submission.objection?, if_neg hoptical]
    by_cases hshort : bytes = 0 ∨ buffer.length < bytes
    · rw [if_pos (by simpa using hshort), if_pos hshort]
      rfl
    · rw [if_neg (by simpa using hshort), if_neg hshort]
      by_cases hbeyond : disk.Exceeded start (blocksFor bytes disk.blockSize)
      · simp only [exceeded_iff.1 hbeyond, if_pos hbeyond, Bool.not_false, if_true]
        rfl
      · have hwithin : disk.inRange start (blocksFor bytes disk.blockSize) = true := by
          rwa [exceeded_iff, Bool.not_eq_false] at hbeyond
        simp only [hwithin, if_neg hbeyond, Bool.not_true, Bool.false_eq_true, if_false]
        rfl

/-- A read ends with its first piece if the engine objects to that. The buffer is as it was. -/
theorem readSpans_of_objection (hfew : span.count ≤ kind.maxBlocks)
    (hroom : span.count * kind.blockSize ≤ buffer.length)
    (hobjects : (Submission.piece kind span).objection? = some error) :
    (readSpans kind (span :: others) buffer : EngineM σ _) = pure (.error error, buffer) := by
  have hchunk : (readChunk kind span : RequestM σ _) = throw error := by
    cases kind with
    | disk trim => exact RequestM.readSectors_of_objection hfew hobjects
    | drive => exact RequestM.readBlocks_of_objection hfew hobjects
  rw [readSpans, hchunk]
  dsimp only
  rw [decide_eq_true hroom]
  rfl

theorem stirs_readSpans (haccepted : (Submission.piece kind span).objection? = none) :
    (readSpans kind (span :: others) buffer : EngineM σ _).Stirs := by
  have hchunk : (readChunk kind span : RequestM σ _).run.Stirs := by
    cases kind with
    | disk trim => exact RequestM.stirs_readSectors haccepted
    | drive => exact RequestM.stirs_readBlocks haccepted
  apply EngineM.Stirs.behind (.require _ _)
  intro _
  apply hchunk.first
  intro answer
  cases answer with
  | error error => exact .pure _
  | ok data =>
    refine .bind (.require _ _) fun _ => .bind (.require _ _) fun _ => ?_
    exact .bind (routine_readSpans (τ := σ) _ _ _).composed fun _ => .pure _

theorem stirs_writeSpans {trim : TrimSupport} (haccepted : (Submission.writeSectors span.first
      span.count (data.take (span.count * sectorSize))).objection? = none) :
    (writeSpans (.disk trim) (span :: others) data : RequestM σ Unit).run.Stirs := by
  apply RequestM.stirs_first (RequestM.stirs_writeSectors haccepted)
  intro _
  apply RequestM.Composed.bind (.require _ _)
  intro _
  exact (routine_writeSpans (τ := σ) _ _ _).composed

end Disk

namespace Submission

variable {submission first : Submission} {error : IoError} {config : Config}

/-- The first piece of what is moved can be moved with one command. -/
theorem few_of_cut {kind : DiskKind} {span piece : Span} {others : List Span}
    (hcut : span.cut (kind.chunk config) = piece :: others) :
    0 < piece.count ∧ piece.count ≤ kind.maxBlocks ∧ piece.count ≤ span.count := by
  have hpos := config.chunk_pos kind.maxBlocks
  have htiles := hcut ▸ Span.tiles_cut hpos span
  obtain ⟨hsome, hshort, -⟩ := htiles.within hpos piece List.mem_cons_self
  obtain ⟨count, hsame, -⟩ := htiles.behind
  refine ⟨hsome, Nat.le_trans hshort (config.chunk_le kind.maxBlocks_pos), ?_⟩
  rw [hsame]
  exact Nat.le.intro rfl

variable [Device σ]

/-- A request that is objected to fails with the objection, and that is all that it does. -/
theorem run_of_objection (hlimited : submission.Limited)
    (hobjects : submission.objection? = some error) :
    (submission.run : EngineM σ _) = pure (submission.failed error) := by
  cases submission with
  | read disk start bytes buffer =>
    rw [run, Disk.read_eq, hobjects]
    rfl
  | write disk start bytes buffer =>
    rw [run, Disk.write_eq, hobjects]
    rfl
  | eject disk =>
    rw [objection?] at hobjects
    split at hobjects
    · cases hobjects
    · next hother =>
      cases hobjects
      rw [run, Disk.eject, if_neg hother]
      rfl
  | requestSense disk =>
    rw [objection?] at hobjects
    split at hobjects
    · cases hobjects
    · next hother =>
      cases hobjects
      rw [run, Disk.requestSense, if_neg hother]
      rfl
  | readSectors lba sectors =>
    rw [run, RequestM.readSectors_of_objection hlimited hobjects]
    rfl
  | writeSectors lba sectors data =>
    rw [run, RequestM.writeSectors_of_objection hlimited hobjects]
    rfl
  | readBlocks lba blocks =>
    rw [run, RequestM.readBlocks_of_objection hlimited hobjects]
    rfl

variable {engine : Engine} {world : World σ} {disk : Disk} {start bytes : Nat}
  {buffer : List UInt8}

theorem exec_read (haccepted : (read disk start bytes buffer).objection? = none) :
    (read disk start bytes buffer).run.exec engine world = (do
      let (placed, buffer) ← Disk.readSpans disk.kind
        ((disk.moves (.read start bytes buffer)).cut (disk.kind.chunk engine.config)) buffer
      return .read placed buffer : EngineM σ _).exec engine world := by
  rw [run, Disk.read_eq, haccepted]
  rfl

theorem exec_write (haccepted : (write disk start bytes buffer).objection? = none) :
    (write disk start bytes buffer).run.exec engine world =
      (.ofRequest (fun _ => .ok) <$> (Disk.writeSpans disk.kind
        ((disk.moves (.write start bytes buffer)).cut (disk.kind.chunk engine.config))
        (buffer.take bytes)).run : EngineM σ Bench.Outcome).exec engine world := by
  rw [run, Disk.write_eq, haccepted]
  rfl

/-- A read to whose first piece the engine objects has read nothing, so it is turned down too. -/
theorem turnedDown_of_first
    (haccepted : (read disk start bytes buffer).objection? = none)
    (hstarts : (read disk start bytes buffer).first? engine.config = some first)
    (hobjects : first.objection? = some error) :
    (read disk start bytes buffer).TurnedDown error engine world := by
  obtain ⟨span, hcut, rfl⟩ := Option.map_eq_some_iff.1 hstarts
  obtain ⟨others, hcut⟩ := List.head?_eq_some_iff.1 hcut
  obtain ⟨-, hfew, hshort⟩ := few_of_cut hcut
  have hroom : span.count * disk.kind.blockSize ≤ buffer.length :=
    (Nat.le_div_iff_mul_le disk.kind.blockSize_pos).1 (Nat.le_trans hshort (Nat.min_le_right _ _))
  have hstops : (Disk.readSpans disk.kind (span :: others) buffer : EngineM σ _) = _ :=
    Disk.readSpans_of_objection hfew hroom hobjects
  rw [TurnedDown, exec_read haccepted, hcut, hstops]
  rfl

/-- Data for the first piece of a write is never objected to: the piece has a block, and the data is
cut to what it holds. -/
theorem accepted_of_write
    (hstarts : (write disk start bytes buffer).first? config = some first) :
    first.objection? = none := by
  obtain ⟨span, hcut, rfl⟩ := Option.map_eq_some_iff.1 hstarts
  obtain ⟨others, hcut⟩ := List.head?_eq_some_iff.1 hcut
  obtain ⟨hsome, -, -⟩ := few_of_cut hcut
  rw [objection?, if_neg]
  rintro (hempty | hlong)
  · exact Nat.ne_of_gt hsome hempty
  · exact Nat.not_lt.2 (List.length_take_le _ _) hlong

/-- What comes of a request that is not turned down: it gives up, it touches a register, or there
was nothing to do and it succeeded. -/
def Goes (submission : Submission) (engine : Engine) (world : World σ) : Prop :=
  (∃ reason, (submission.run.exec engine world).1 = .error reason) ∨
    world.accesses.length < (submission.run.exec engine world).2.accesses.length ∨
    ∃ outcome, (∀ error, outcome ≠ submission.failed error) ∧
      submission.run.exec engine world = (.ok (outcome, engine), world)

theorem Goes.of_stirs (hstirs : (submission.run : EngineM σ _).Stirs) :
    submission.Goes engine world :=
  (hstirs engine world).imp_right .inl

theorem Goes.not_turnedDown (hgoes : submission.Goes engine world) (error : IoError) :
    ¬submission.TurnedDown error engine world := by
  intro hdown
  obtain ⟨reason, hgave⟩ | hfurther | ⟨outcome, hother, hended⟩ := hgoes
  · rw [hdown] at hgave
    cases hgave
  · rw [hdown] at hfurther
    exact Nat.lt_irrefl _ hfurther
  · rw [hdown] at hended
    simp only [Prod.mk.injEq, Except.ok.injEq] at hended
    exact hother error hended.1.1.symm

/-- A request to which neither the disk nor, for its first piece, the engine objects is not turned
down. -/
theorem goes_of_accepted (haccepted : submission.objection? = none)
    (hbegins : ∀ first, submission.first? engine.config = some first → first.objection? = none) :
    submission.Goes engine world := by
  cases submission with
  | read disk start bytes buffer =>
    rw [Goes, exec_read haccepted]
    cases hcut : (disk.moves (.read start bytes buffer)).cut (disk.kind.chunk engine.config) with
    | nil => exact .inr (.inr ⟨.read (.ok 0) buffer, nofun, rfl⟩)
    | cons span others =>
      have hchunk : (piece disk.kind span).objection? = none :=
        hbegins _ (by rw [first?, hcut]; rfl)
      have hspans : (Disk.readSpans disk.kind (span :: others) buffer : EngineM σ _).Stirs :=
        Disk.stirs_readSpans hchunk
      have hstirs := hspans.first fun answer => .pure (Bench.Outcome.read answer.1 answer.2)
      exact (hstirs engine world).imp_right .inl
  | write disk start bytes buffer =>
    rw [Goes, exec_write haccepted]
    cases hcut : (disk.moves (.write start bytes buffer)).cut (disk.kind.chunk engine.config) with
    | nil => exact .inr (.inr ⟨.ok, nofun, rfl⟩)
    | cons span others =>
      have hchunk := hbegins _ (by rw [first?, hcut]; rfl)
      cases hkind : disk.kind with
      | drive =>
        have hoptical : disk.isOptical = true := by rw [Disk.isOptical, hkind]
        rw [objection?, if_pos hoptical] at haccepted
        cases haccepted
      | disk trim =>
        have hspans : (Disk.writeSpans (.disk trim) (span :: others) (buffer.take bytes) :
            RequestM σ Unit).run.Stirs := Disk.stirs_writeSpans hchunk
        have hstirs := hspans.map (Bench.Outcome.ofRequest fun _ => .ok)
        exact (hstirs engine world).imp_right .inl
  | eject disk =>
    have hoptical : disk.isOptical = true := by simpa [objection?] using haccepted
    apply Goes.of_stirs
    rw [run, Disk.eject, if_pos hoptical]
    exact RequestM.stirs_eject.map _
  | requestSense disk =>
    have hoptical : disk.isOptical = true := by simpa [objection?] using haccepted
    apply Goes.of_stirs
    rw [run, Disk.requestSense, if_pos hoptical]
    exact RequestM.stirs_requestSense.map _
  | readSectors lba sectors => exact .of_stirs ((RequestM.stirs_readSectors haccepted).map _)
  | writeSectors lba sectors data =>
    exact .of_stirs ((RequestM.stirs_writeSectors haccepted).map _)
  | readBlocks lba blocks => exact .of_stirs ((RequestM.stirs_readBlocks haccepted).map _)

theorem TurnedDown.unique {other : IoError} (hdown : submission.TurnedDown error engine world)
    (hagain : submission.TurnedDown other engine world) : error = other := by
  rw [TurnedDown, hdown] at hagain
  simp only [Prod.mk.injEq, Except.ok.injEq, and_true] at hagain
  cases submission <;> simpa [failed] using hagain

/-- A request that is objected to by the disk, or by the engine where the disk does not. This is
told by the request and the configuration, and not by the device. -/
def Refused (submission : Submission) (config : Config) (error : IoError) : Prop :=
  submission.objection? = some error ∨ (submission.objection? = none ∧
    ∃ first, submission.first? config = some first ∧ first.objection? = some error)

theorem Refused.turnedDown (hlimited : submission.Limited)
    (hrefused : submission.Refused engine.config error) :
    submission.TurnedDown error engine world := by
  obtain hobjects | ⟨haccepted, first, hstarts, hobjects⟩ := hrefused
  · rw [TurnedDown, run_of_objection hlimited hobjects]
    rfl
  · cases submission with
    | read disk start bytes buffer => exact turnedDown_of_first haccepted hstarts hobjects
    | write disk start bytes buffer => cases accepted_of_write hstarts ▸ hobjects
    | _ => cases hstarts

/-- Every request is refused, or neither the disk objects to it nor the engine to its first
piece. -/
theorem refused_or (submission : Submission) (config : Config) :
    (∃ error, submission.Refused config error) ∨ (submission.objection? = none ∧
      ∀ first, submission.first? config = some first → first.objection? = none) := by
  cases hobjects : submission.objection? with
  | some error => exact .inl ⟨error, .inl hobjects⟩
  | none =>
    by_cases hbegins : ∀ first, submission.first? config = some first → first.objection? = none
    · exact .inr ⟨rfl, hbegins⟩
    · simp only [not_forall] at hbegins
      obtain ⟨first, hstarts, hsome⟩ := hbegins
      obtain ⟨error, hrefuses⟩ := Option.ne_none_iff_exists'.1 hsome
      exact .inl ⟨error, .inr ⟨hobjects, first, hstarts, hrefuses⟩⟩

/-- For every device, every engine and every state of the world. A request that is within the limits
of one command, if it is made to the engine, is turned down with an error just if the disk objects
to it with this error, or does not object and the engine does so to the first piece. To be turned
down is to leave the engine and the whole world as they were, so no register was touched and nothing
was logged. Requests that fail later, once a command was tried, are not turned down in this
sense. -/
theorem turnedDown_iff (hlimited : submission.Limited) (error : IoError) (engine : Engine)
    (world : World σ) :
    submission.TurnedDown error engine world ↔ submission.Refused engine.config error := by
  refine ⟨fun hdown => ?_, fun hrefused => hrefused.turnedDown hlimited⟩
  obtain ⟨other, hrefused⟩ | ⟨haccepted, hbegins⟩ := submission.refused_or engine.config
  · rwa [hdown.unique (hrefused.turnedDown hlimited)]
  · exact ((goes_of_accepted haccepted hbegins).not_turnedDown error hdown).elim

/-- The hypothesis is met by a drive that is asked for a block behind those that a command can name,
and for the last one that it can: the disk objects to neither, and the engine to the first. -/
theorem turnedDown_of_first_unnamed :
    let drive : Disk := ⟨⟨0, .packetDrive⟩, .drive, Disk.unboundedCount, "drive"⟩
    let engine : Engine :=
      { window := .port 0, number := 0, areas := risingAreas, slots := .ofCount 4, config := {} }
    let world := World.around (.packetDrive (.blank driveBlockSize 4))
    let at_ (first : Nat) := read drive first 2048 (List.replicate 2048 0)
    (at_ 0x100000000).TurnedDown .outOfRange engine world ∧
      ¬(at_ 0xFFFFFFFF).TurnedDown .outOfRange engine world := by
  intro drive engine world at_
  have hlimited (first : Nat) : (at_ first).Limited := trivial
  have hone : min (blocksFor 2048 drive.blockSize) (2048 / drive.blockSize) = 1 := by decide
  have hchunk : min (drive.kind.chunk engine.config) 1 = 1 := by decide
  have hcut (first : Nat) : (Span.mk first 1).cut (drive.kind.chunk engine.config) =
      (Span.take ⟨first, 1⟩ (drive.kind.chunk engine.config) :: _) :=
    Span.cut_of_count_pos (Config.chunk_pos _ _) (Nat.one_pos : 0 < (Span.mk first 1).count)
  have hbegins (first : Nat) : (at_ first).first? engine.config = some (readBlocks first 1) := by
    rw [first?, Disk.moves, List.length_replicate, hone, hcut, List.head?_cons, Option.map_some,
      Span.take, hchunk]
    rfl
  have haccepted (first : Nat) (hlow : first ≤ 0x100000000) : (at_ first).objection? = none := by
    have hwithin : ¬drive.Exceeded first (blocksFor 2048 drive.blockSize) := by
      rw [Disk.exceeded_iff, Disk.inRange, show blocksFor 2048 drive.blockSize = 1 by decide,
        show drive.blockCount.toNat = 0xFFFFFFFFFFFFFFFF from rfl]
      simp only [decide_eq_false_iff_not, not_not]
      omega
    rw [objection?, if_neg (by simp), if_neg hwithin]
  constructor
  · apply (turnedDown_iff (hlimited _) _ _ _).2
    exact .inr ⟨haccepted _ (by decide), _, hbegins _, by decide⟩
  · rw [turnedDown_iff (hlimited _), Refused, haccepted _ (by decide)]
    rintro (hrefused | ⟨-, first, hstarts, hobjects⟩)
    · cases hrefused
    · rw [hbegins] at hstarts
      cases hstarts
      revert hobjects
      decide

end Submission

end Ahci
