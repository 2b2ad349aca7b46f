import Ahci.Proofs.FlawlessDisk
import Mathlib.Data.Nat.Find

/-!
Requests that a disk breaks off. A request for sectors ends at its first piece that the disk
refuses: what the pieces before it moved stays moved, the failure of that piece is the answer,
and no command follows. The device forgets the failure when it has reported it, and a request
that is repeated begins at its first sector again, so it ends as it would have ended without
the first attempt.
-/

namespace Ahci

/-- A request that reads or writes sectors. Its numbers and its buffer are arbitrary. -/
inductive Transfer where
  | read (start bytes : Nat) (buffer : List UInt8)
  | write (start bytes : Nat) (buffer : List UInt8)

namespace Transfer

def call : Transfer → DiskCall
  | read start bytes buffer => .read start bytes buffer
  | write start bytes buffer => .write start bytes buffer

/-- The code of its commands. -/
def opcode : Transfer → UInt8
  | read .. => Opcode.readDmaExt
  | write .. => Opcode.writeDmaExt

/-- The sectors that a transfer moves: as many as its bytes need, rounded up, but for a read no more
than its buffer has room for in full. -/
def span : Transfer → Span
  | read start bytes buffer =>
    ⟨start, min (blocksFor bytes sectorSize) (buffer.length / sectorSize)⟩
  | write start bytes _ => ⟨start, blocksFor bytes sectorSize⟩

/-- A transfer that is taken up: it moves some bytes, its buffer is not empty or holds the bytes to
be written, and its sectors lie within the capacity of the disk. -/
def Accepted (disk : Disk) : Transfer → Prop
  | read start bytes buffer => bytes ≠ 0 ∧ buffer ≠ [] ∧
    start + blocksFor bytes sectorSize ≤ disk.blockCount.toNat
  | write start bytes buffer => bytes ≠ 0 ∧ bytes ≤ buffer.length ∧
    start + blocksFor bytes sectorSize ≤ disk.blockCount.toNat

/-- The answer of a transfer that moved a number of sectors and then failed, or was done. A read
returns the buffer with the moved sectors at its front, also if it fails. -/
def answer (medium : Medium) (moved : Nat) (failure? : Option IoError) :
    Transfer → Bench.Outcome
  | read start _ buffer =>
    .read (failure?.elim (.ok (moved * sectorSize)) .error)
      (medium.read start moved ++ buffer.drop (moved * sectorSize))
  | write .. => failure?.elim .ok .ioError

/-- The medium behind a transfer that moved a number of sectors: a write stored as many of its
data. -/
def stored (medium : Medium) (moved : Nat) : Transfer → Medium
  | read .. => medium
  | write start bytes buffer => medium.write start moved (buffer.take bytes)

variable {engine : Engine} {port : SimulatedPort} {disk : Disk} {trim : TrimSupport}
  {transfer : Transfer} {most : Nat}

/-- The sectors of a transfer that is taken up lie within the capacity of the disk. -/
theorem stop_le (haccepted : transfer.Accepted disk) :
    transfer.span.stop ≤ disk.blockCount.toNat := by
  cases transfer with
  | read start bytes buffer =>
    have hwithin := haccepted.2.2
    simp only [span, Span.stop]
    omega
  | write start bytes buffer => exact haccepted.2.2

/-- What is known of the drive behind a transfer that moved a number of sectors: its medium, and
that it is still a disk. -/
structure Leaves (transfer : Transfer) (port : SimulatedPort) (moved : Nat) (drive : Drive) :
    Prop where
  medium : drive.medium = transfer.stored port.drive.medium moved
  kind : drive.kind = port.drive.kind

/-- What is needed of a transfer that a disk takes up: the disk was identified as one with at most
2^48 sectors, the transfer is accepted, and its pieces have the size that the config gives. -/
structure Begun (transfer : Transfer) (disk : Disk) (engine : Engine) (port : SimulatedPort)
    (most : Nat) : Prop where
  sata : ∃ trim, disk.kind = .disk trim
  accepted : transfer.Accepted disk
  few : disk.blockCount.toNat ≤ 2 ^ 48
  holds : engine.Holds port
  chunk : most = disk.kind.chunk engine.config

namespace Begun

theorem pos (hbegun : transfer.Begun disk engine port most) : 0 < most := by
  rw [hbegun.chunk]
  exact engine.config.chunk_pos _

theorem most_le (hbegun : transfer.Begun disk engine port most) : most ≤ maxSectors := by
  obtain ⟨trim, hsata⟩ := hbegun.sata
  rw [hbegun.chunk, hsata]
  exact engine.config.chunk_le (DiskKind.maxBlocks_pos _)

theorem single (hbegun : transfer.Begun disk engine port most) {piece : Span}
    (hmember : piece ∈ transfer.span.cut most) : piece.Single :=
  Disk.single_of_mem_cut hbegun.pos hbegun.most_le
    (Nat.le_trans (stop_le hbegun.accepted) hbegun.few) hmember

theorem blockSize (hbegun : transfer.Begun disk engine port most) :
    disk.blockSize = sectorSize := by
  obtain ⟨trim, hsata⟩ := hbegun.sata
  rw [Disk.blockSize, hsata]
  rfl

/-- A read does what reading its pieces does, and answers with their answer. -/
theorem yields_read {start bytes : Nat} {buffer : List UInt8} {trim : TrimSupport}
    (hbegun : (read start bytes buffer).Begun disk engine port most)
    (hsata : disk.kind = .disk trim)
    {before after : Machine SimulatedPort} {answer : Except IoError Nat × List UInt8}
    {issued : Nat}
    (hyields : (Disk.readSpans (.disk trim) ((read start bytes buffer).span.cut most)
      buffer).Yields engine before (.ok (answer, engine)) after issued) :
    ((read start bytes buffer).call.run disk).Yields engine before
      (.ok (.read answer.1 answer.2, engine)) after issued := by
  obtain ⟨hsome, hroom, hwithin⟩ := hbegun.accepted
  rw [span, hbegun.chunk, ← hbegun.blockSize, ← hsata] at hyields
  rw [← hbegun.blockSize] at hwithin
  have hread := Disk.yields_read hsome hroom (decide_eq_true hwithin) hyields
  exact hread.finish (EngineM.yields_pure _ engine _)

/-- A write does what writing its pieces does, and answers with their answer. -/
theorem yields_write {start bytes : Nat} {buffer : List UInt8} {trim : TrimSupport}
    (hbegun : (write start bytes buffer).Begun disk engine port most)
    (hsata : disk.kind = .disk trim)
    {before after : Machine SimulatedPort} {answer : Except IoError Unit} {issued : Nat}
    (hyields : (Disk.writeSpans (.disk trim) ((write start bytes buffer).span.cut most)
      (buffer.take bytes)).Yields engine before (.ok (answer, engine)) after issued) :
    ((write start bytes buffer).call.run disk).Yields engine before
      (.ok (.ofRequest (fun _ => .ok) answer, engine)) after issued := by
  obtain ⟨hsome, henough, hwithin⟩ := hbegun.accepted
  have hwritable : disk.isOptical = false := by rw [Disk.isOptical, hsata]
  rw [span, hbegun.chunk, ← hbegun.blockSize, ← hsata] at hyields
  rw [← hbegun.blockSize] at hwithin
  have hwrote := Disk.yields_write hwritable hsome henough (decide_eq_true hwithin) hyields
  exact hwrote.map (Bench.Outcome.ofRequest fun _ => .ok)

end Begun

/-- A transfer none of whose pieces is refused moves all of its sectors and succeeds. -/
theorem exists_run_of_taken (hbegun : transfer.Begun disk engine port most)
    (htaken : ∀ index, index * most < transfer.span.count →
      port.refuses? transfer.opcode (transfer.span.piece most index) = none)
    (memory : Memory) :
    ∃ last changed drive issued, (transfer.call.run disk).Yields engine ⟨port, memory⟩
        (.ok (transfer.answer port.drive.medium transfer.span.count none, engine))
        ⟨last, changed⟩ issued ∧
      engine.Serves port drive last ∧ transfer.Leaves port transfer.span.count drive := by
  have htakes : ∀ piece ∈ transfer.span.cut most, Disk.Takes port transfer.opcode piece := by
    intro piece hmember
    obtain ⟨index, hinside, hsame⟩ := Span.exists_of_mem_cut hbegun.pos hmember
    refine ⟨hbegun.single hmember, ?_⟩
    rw [hsame]
    exact htaken index hinside
  obtain ⟨trim, hsata⟩ := hbegun.sata
  have hready := Engine.Serves.refl hbegun.holds.steady
  cases transfer with
  | read start bytes buffer =>
    have hroom : (read start bytes buffer).span.count * sectorSize ≤ buffer.length :=
      Nat.le_trans (Nat.mul_le_mul_right _ (Nat.min_le_right _ _)) (Nat.div_mul_le_self _ _)
    obtain ⟨last, changed, hyields, hserves⟩ :=
      Disk.reads_cut hbegun.holds hbegun.pos htakes hroom port memory hready
    exact ⟨last, changed, _, _, hbegun.yields_read hsata hyields, hserves, rfl, rfl⟩
  | write start bytes buffer =>
    have hcovered : (write start bytes buffer).span.count ≤
        blocksFor (buffer.take bytes).length sectorSize := by
      rw [List.length_take_of_le hbegun.accepted.2.1]
      exact Nat.le_refl _
    obtain ⟨last, changed, hyields, hserves⟩ :=
      Disk.writes_cut hbegun.holds hbegun.pos htakes hcovered port memory hready
    exact ⟨last, changed, _, _, hbegun.yields_write hsata hyields, hserves, rfl, rfl⟩

/-- If the pieces before some piece are not refused, the pieces of the transfer are those, taken one
by one, then that piece, then some others. -/
theorem Begun.exists_pieces (hbegun : transfer.Begun disk engine port most) {count : Nat}
    (hwithin : count * most < transfer.span.count)
    (hearly : ∀ index < count,
      port.refuses? transfer.opcode (transfer.span.piece most index) = none) :
    ∃ others, transfer.span.cut most = (transfer.span.take (count * most)).cut most ++
        transfer.span.piece most count :: others ∧
      (∀ piece ∈ (transfer.span.take (count * most)).cut most,
        Disk.Takes port transfer.opcode piece) ∧
      (transfer.span.piece most count).Single := by
  obtain ⟨others, hpieces⟩ := Span.exists_cut_eq hbegun.pos hwithin
  refine ⟨others, hpieces, ?_, ?_⟩
  · intro piece hmember
    obtain ⟨index, hbefore, hsame⟩ :=
      Span.exists_of_mem_cut_take hbegun.pos (Nat.le_of_lt hwithin) hmember
    have hwhole : piece ∈ transfer.span.cut most := by
      rw [hpieces]
      exact List.mem_append_left _ hmember
    refine ⟨hbegun.single hwhole, ?_⟩
    rw [hsame]
    exact hearly index hbefore
  · apply hbegun.single
    rw [hpieces]
    exact List.mem_append_right _ List.mem_cons_self

/-- A transfer whose first refused piece has a given number answers with its error, having moved the
pieces before it and nothing else, with one command for each piece up to and including it. -/
theorem exists_run_of_refused (hbegun : transfer.Begun disk engine port most) {count : Nat}
    (hwithin : count * most < transfer.span.count)
    (hearly : ∀ index < count,
      port.refuses? transfer.opcode (transfer.span.piece most index) = none)
    {error : IoError} {left : Drive}
    (hrefused : port.refuses? transfer.opcode (transfer.span.piece most count) =
      some (error, left)) (memory : Memory) :
    ∃ last changed drive, (transfer.call.run disk).Yields engine ⟨port, memory⟩
        (.ok (transfer.answer port.drive.medium (count * most) (some error), engine))
        ⟨last, changed⟩ (count + 1) ∧
      engine.Serves port drive last ∧ transfer.Leaves port (count * most) drive := by
  have hpos := hbegun.pos
  obtain ⟨others, hpieces, htakes, hsingle⟩ := hbegun.exists_pieces hwithin hearly
  have hcounted : 1 + ((transfer.span.take (count * most)).cut most).length = count + 1 := by
    rw [Span.length_cut_take hpos (Nat.le_of_lt hwithin), Nat.add_comm]
  have hmoved : (transfer.span.take (count * most)).count = count * most :=
    Nat.min_eq_left (Nat.le_of_lt hwithin)
  obtain ⟨trim, hsata⟩ := hbegun.sata
  have hready := Engine.Serves.refl hbegun.holds.steady
  obtain ⟨hkept, hkind⟩ := SimulatedPort.left_of_refuses? hrefused
  rw [← hcounted]
  cases transfer with
  | read start bytes buffer =>
    let request := read start bytes buffer
    have hroom : request.span.count * sectorSize ≤ buffer.length :=
      Nat.le_trans (Nat.mul_le_mul_right _ (Nat.min_le_right _ _)) (Nat.div_mul_le_self _ _)
    have hfront : (request.span.take (count * most)).count * sectorSize ≤ buffer.length :=
      Nat.le_trans (Nat.mul_le_mul_right _ (Nat.min_le_right _ _)) hroom
    have hfits : (request.span.piece most count).count * sectorSize ≤
        (buffer.drop ((request.span.take (count * most)).count * sectorSize)).length := by
      have hboth : (request.span.take (count * most)).count +
          (request.span.piece most count).count ≤ request.span.count := by
        simp only [request, Span.piece, Span.take, Span.drop]
        omega
      have hbytes := Nat.mul_le_mul_right sectorSize hboth
      rw [Nat.add_mul] at hbytes
      rw [List.length_drop]
      omega
    obtain ⟨last, changed, hyields, hserves⟩ :=
      Disk.reads_cut_append hbegun.holds hpos htakes hfront
      (Disk.reads_of_refused hbegun.holds hsingle hfits hrefused) port memory hready
    rw [← hpieces] at hyields
    have hended := hbegun.yields_read hsata hyields
    rw [hmoved] at hended
    exact ⟨last, changed, left, hended, hserves, hkept, hkind⟩
  | write start bytes buffer =>
    let request := write start bytes buffer
    have hcovered : (request.span.take (count * most)).count ≤
        blocksFor (buffer.take bytes).length sectorSize := by
      rw [List.length_take_of_le hbegun.accepted.2.1]
      exact Nat.min_le_right _ _
    let wrote := port.drive.medium.write (request.span.take (count * most)).first
      (request.span.take (count * most)).count (buffer.take bytes)
    have hsectors : wrote.blockSize = sectorSize := hbegun.holds.sectors
    have hblocks : wrote.blocks = port.drive.medium.blocks := rfl
    obtain ⟨last, changed, hyields, hserves⟩ := Disk.writes_cut_append hbegun.holds hpos
      hbegun.holds.sectors rfl htakes hcovered
      (Disk.writes_of_refused hbegun.holds hsectors hblocks hsingle hrefused) port memory hready
    rw [← hpieces] at hyields
    have hstored : wrote = request.stored port.drive.medium (count * most) := by
      simp only [wrote, request, hmoved]
      rfl
    exact ⟨last, changed, _, hbegun.yields_write hsata hyields, hserves, hstored, hkind⟩

end Transfer

/-! Attempts that are made again. -/

/-- The port when it is well again: not stalled, without a fault queued for a code, and with a
medium of so many sectors that keeps its content. Whether it is busy stays as it was. -/
def SimulatedPort.mended (port : SimulatedPort) (opcode : UInt8) (blocks : Nat) :
    SimulatedPort :=
  { port with
    stalled := false
    drive :=
      { port.drive with
        faults := port.drive.faults.filter (·.1 != opcode)
        medium := { port.drive.medium with blocks } } }

/-- A port that is well refuses a run exactly if the run reaches behind the medium. -/
theorem SimulatedPort.refuses?_mended (port : SimulatedPort) (opcode : UInt8) (blocks : Nat)
    (span : Span) : (port.mended opcode blocks).refuses? opcode span =
      if span.stop ≤ blocks then none
      else some (ataFailure (ErrorBit.only ErrorBit.idNotFound),
        (port.mended opcode blocks).drive) := by
  have huntouched : (port.mended opcode blocks).drive.takeFault opcode = none := by
    have hfound : (port.drive.faults.filter (·.1 != opcode)).find? (·.1 == opcode) = none := by
      rw [List.find?_eq_none]
      intro entry hmember
      have hother := (List.mem_filter.1 hmember).2
      simpa using hother
    exact Drive.takeFault_eq_none_iff.2 hfound
  exact refuses?_of_untouched rfl huntouched

namespace Transfer

variable {engine : Engine} {port : SimulatedPort} {disk : Disk} {transfer : Transfer}
  {most : Nat}

/-- A disk that has broken a transfer off can take it up again. -/
theorem Begun.again (hbegun : transfer.Begun disk engine port most) {last : SimulatedPort}
    {drive : Drive} {moved : Nat} (hserves : engine.Serves port drive last)
    (hleaves : transfer.Leaves port moved drive) : transfer.Begun disk engine last most where
  sata := hbegun.sata
  accepted := hbegun.accepted
  few := hbegun.few
  holds := by
    refine hserves.holds hbegun.holds (hleaves.kind.trans hbegun.holds.kind) ?_
    rw [hleaves.medium]
    cases transfer <;> exact hbegun.holds.sectors
  chunk := hbegun.chunk

theorem Begun.mended (hbegun : transfer.Begun disk engine port most) (blocks : Nat) :
    transfer.Begun disk engine (port.mended transfer.opcode blocks) most where
  sata := hbegun.sata
  accepted := hbegun.accepted
  few := hbegun.few
  holds :=
    { steady := ⟨hbegun.holds.steady.free, hbegun.holds.steady.patient,
        hbegun.holds.steady.registers, by simp [SimulatedPort.mended]⟩
      sized := hbegun.holds.sized
      layout := hbegun.holds.layout
      prompt := hbegun.holds.prompt
      kind := hbegun.holds.kind
      sectors := hbegun.holds.sectors }
  chunk := hbegun.chunk

/-- How far a transfer comes on a port that is well, and what it fails with there, depends on the
number of sectors of the medium but not on what they hold, and not on memory. It comes at least as
far as the pieces within the medium. -/
theorem exists_reach (transfer : Transfer) (disk : Disk) (engine : Engine) (most blocks : Nat) :
    ∃ moved failure?,
      (∀ count, count * most ≤ transfer.span.count →
        (∀ index < count, (transfer.span.piece most index).stop ≤ blocks) →
          count * most ≤ moved) ∧
      ∀ port memory, transfer.Begun disk engine port most →
        ∃ last changed issued, (transfer.call.run disk).Yields engine
            ⟨port.mended transfer.opcode blocks, memory⟩
            (.ok (transfer.answer { port.drive.medium with blocks } moved failure?, engine))
            ⟨last, changed⟩ issued ∧
          last.drive.medium = transfer.stored { port.drive.medium with blocks } moved := by
  -- The first piece that the medium lacks decides, and it is the same one for every attempt.
  by_cases hmissing : ∃ index, index * most < transfer.span.count ∧
      ¬ (transfer.span.piece most index).stop ≤ blocks
  · obtain ⟨hwithin, hlacks⟩ := Nat.find_spec hmissing
    have hearly : ∀ index < Nat.find hmissing, (transfer.span.piece most index).stop ≤ blocks := by
      intro index hbefore
      have hinside : index * most < transfer.span.count :=
        Nat.lt_of_le_of_lt (Nat.mul_le_mul_right _ (Nat.le_of_lt hbefore)) hwithin
      exact Decidable.not_not.1 fun hbeyond => Nat.find_min hmissing hbefore ⟨hinside, hbeyond⟩
    refine ⟨Nat.find hmissing * most, some (ataFailure (ErrorBit.only ErrorBit.idNotFound)), ?_, ?_⟩
    · intro count _ hheld
      refine Nat.mul_le_mul_right _ (Nat.le_of_not_lt fun hbeyond => ?_)
      exact hlacks (hheld _ hbeyond)
    · intro port memory hbegun
      obtain ⟨last, changed, drive, hyields, hserves, hleaves⟩ :=
        exists_run_of_refused (hbegun.mended blocks) hwithin
          (fun index hbefore => by rw [port.refuses?_mended, if_pos (hearly index hbefore)])
          (by rw [port.refuses?_mended, if_neg hlacks]) memory
      refine ⟨last, changed, _, hyields, ?_⟩
      rw [hserves.drive, hleaves.medium]
      rfl
  · have hheld : ∀ index, index * most < transfer.span.count →
        (transfer.span.piece most index).stop ≤ blocks := by
      intro index hwithin
      exact Decidable.not_not.1 fun hbeyond => hmissing ⟨index, hwithin, hbeyond⟩
    refine ⟨transfer.span.count, none, fun _ hinside _ => hinside, ?_⟩
    intro port memory hbegun
    obtain ⟨last, changed, drive, issued, hyields, hserves, hleaves⟩ :=
      exists_run_of_taken (hbegun.mended blocks)
        (fun index hwithin => by rw [port.refuses?_mended, if_pos (hheld index hwithin)]) memory
    refine ⟨last, changed, issued, hyields, ?_⟩
    rw [hserves.drive, hleaves.medium]
    rfl

/-- What a broken off transfer stored is stored over by an attempt that comes at least as far. -/
theorem stored_stored (transfer : Transfer) (medium : Medium) {count moved : Nat}
    (hfurther : count ≤ moved) (blocks : Nat) :
    transfer.stored { transfer.stored medium count with blocks } moved =
      transfer.stored { medium with blocks } moved := by
  cases transfer with
  | read start bytes buffer => rfl
  | write start bytes buffer =>
    exact Medium.write_write { medium with blocks } start hfurther (buffer.take bytes)

/-- The answer of a second attempt does not tell what the first one stored. -/
theorem answer_stored (transfer : Transfer) (medium : Medium) (count moved blocks : Nat)
    (failure? : Option IoError) :
    transfer.answer { transfer.stored medium count with blocks } moved failure? =
      transfer.answer { medium with blocks } moved failure? := by
  cases transfer <;> rfl

end Transfer

namespace Site

/-- The site when its device is well again. -/
def mended (site : Site) (opcode : UInt8) (blocks : Nat) : Site :=
  { site with world := { site.world with device := site.world.device.mended opcode blocks } }

variable {config : Config} {start : World SimulatedPort} {site : Site} {disk : Disk}
  {transfer : Transfer}

/-- A transfer that is accepted on a reached site, in front of a disk that is not busy, has what is
needed of one that a disk takes up. -/
theorem Reached.begun (hreached : Reached config start site) (hsound : site.engine.areas.Sound)
    (hkind : start.device.drive.kind = .disk)
    (hsectors : start.device.drive.medium.blockSize = sectorSize)
    (hprompt : site.world.device.busy = false) (hsata : disk.isOptical = false)
    (hfew : disk.blockCount.toNat ≤ 2 ^ 48) (haccepted : transfer.Accepted disk) :
    transfer.Begun disk site.engine site.world.device (disk.kind.chunk config) where
  sata := by
    cases hknown : disk.kind with
    | disk trim => exact ⟨trim, rfl⟩
    | drive =>
      rw [Disk.isOptical, hknown] at hsata
      cases hsata
  accepted := haccepted
  few := hfew
  holds :=
    { steady := hreached.steady
      sized := PortAreas.sized_of_allocate hreached.granted
      layout := hsound.layout (PortAreas.sized_of_allocate hreached.granted)
      prompt := hprompt
      kind := (congrArg Prod.fst hreached.nameplate).trans hkind
      sectors := (congrArg (fun plate => plate.2.2.1) hreached.nameplate).trans hsectors }
  chunk := by rw [hreached.config]

theorem exec_onDisk (hknown : site.disk? = some disk) {call : DiskCall} {outcome : Bench.Outcome}
    {left : Engine} {after : Machine SimulatedPort} {issued : Nat}
    (hyields : (call.run disk).Yields site.engine site.world.machine (.ok (outcome, left)) after
      issued) :
    ∃ later, site.exec (.onDisk call) = (.ok ((outcome, some disk), left), later) ∧
      later.machine = after ∧ site.world.Progress later issued := by
  obtain ⟨later, hended, hrest⟩ := (hyields.map fun outcome => (outcome, some disk)) site.world rfl
  refine ⟨later, ?_, hrest⟩
  rw [exec, hknown]
  exact hended

/-- Behind a transfer that moved the pieces before a given one, and on the device that is well
again, the transfer ends and leaves the medium as it would have without the first attempt. The
device has to hold at least the sectors of those pieces. -/
theorem exec_mended_eq (hknown : site.disk? = some disk) {later : World SimulatedPort} {most : Nat}
    (hbegun : transfer.Begun disk site.engine site.world.device most) {count : Nat} {drive : Drive}
    (hserves : site.engine.Serves site.world.device drive later.device)
    (hleaves : transfer.Leaves site.world.device (count * most) drive)
    (hwithin : count * most < transfer.span.count) {blocks : Nat}
    (hreaches : ∀ index < count, (transfer.span.piece most index).stop ≤ blocks) :
    ∃ outcome again never,
      (Site.mended { site with world := later } transfer.opcode blocks).exec
          (.onDisk transfer.call) = (.ok ((outcome, some disk), site.engine), again) ∧
        (site.mended transfer.opcode blocks).exec (.onDisk transfer.call) =
          (.ok ((outcome, some disk), site.engine), never) ∧
        again.device.drive.medium = never.device.drive.medium := by
  have hleft : later.device.drive.medium =
      transfer.stored site.world.device.drive.medium (count * most) := by
    rw [hserves.drive, hleaves.medium]
  obtain ⟨moved, failure?, hfar, hrun⟩ :=
    Transfer.exists_reach transfer disk site.engine most blocks
  have hfurther : count * most ≤ moved := hfar count (Nat.le_of_lt hwithin) hreaches
  obtain ⟨lastAgain, _, _, hyieldsAgain, hstoredAgain⟩ :=
    hrun later.device later.memory (hbegun.again hserves hleaves)
  obtain ⟨lastNever, _, _, hyieldsNever, hstoredNever⟩ :=
    hrun site.world.device site.world.memory hbegun
  rw [hleft, Transfer.answer_stored] at hyieldsAgain
  rw [hleft, Transfer.stored_stored _ _ hfurther] at hstoredAgain
  let retried : Site := Site.mended { site with world := later } transfer.opcode blocks
  obtain ⟨again, hendedAgain, haroundAgain, _⟩ :=
    exec_onDisk (show retried.disk? = some disk from hknown) hyieldsAgain
  obtain ⟨never, hendedNever, haroundNever, _⟩ := exec_onDisk
    (show (site.mended transfer.opcode blocks).disk? = some disk from hknown) hyieldsNever
  refine ⟨_, again, never, hendedAgain, hendedNever, ?_⟩
  have hdeviceAgain : again.device = lastAgain := congrArg Machine.device haroundAgain
  have hdeviceNever : never.device = lastNever := congrArg Machine.device haroundNever
  rw [hdeviceAgain, hdeviceNever, hstoredAgain, hstoredNever]

/-- A transfer to or from a disk of at most 2^48 sectors, made behind any allowed run of events
since its port was brought up, of which the piece numbered `count` is the first that the port
refuses: by a queued fault, as stalled, or as behind its medium. It answers with the error of that
piece. A read has placed the sectors of the pieces before it at the front of its buffer, a write has
stored them, and nothing else of the medium or the buffer changed; `count + 1` commands were issued.
When the device is well again, with no fewer sectors than before, the same transfer ends with the
outcome and leaves the medium that it would have had if it had never been tried before. The port
must not be busy, which would be another failure. -/
theorem transfer_broken_off {number slots : Nat} {config : Config}
    {start ready : World SimulatedPort} {port : Port} {engine : Engine} (hpos : 1 ≤ slots)
    (hdown : start.device.registers.cmd = 0)
    (hbounded : start.device.stalled = true → config.completionLimit.isSome = true)
    (hkind : start.device.drive.kind = .disk)
    (hsectors : start.device.drive.medium.blockSize = sectorSize)
    (hup : (HostM.bringUp (.port number) number slots config).exec start =
      (.ok (.ok (port, engine)), ready))
    (hsound : engine.areas.Sound) {events : List Event}
    (hallowed : ∀ event ∈ events, event.Allowed config)
    {site : Site} (hreached : site = Site.run { port, engine, world := ready } events)
    {disk : Disk} (hknown : site.disk? = some disk) (hsata : disk.isOptical = false)
    (hfew : disk.blockCount.toNat ≤ 2 ^ 48) (hprompt : site.world.device.busy = false)
    {transfer : Transfer} (haccepted : transfer.Accepted disk) {count most : Nat}
    (hchunk : most = disk.kind.chunk config) (hwithin : count * most < transfer.span.count)
    (hearly : ∀ index < count, site.world.device.refuses? transfer.opcode
      (transfer.span.piece most index) = none)
    {error : IoError} {left : Drive} (hrefused : site.world.device.refuses? transfer.opcode
      (transfer.span.piece most count) = some (error, left)) :
    let call : Call := .onDisk transfer.call
    let medium := site.world.device.drive.medium
    let failed := site.after (.called call)
    (site.exec call).1 =
        .ok ((transfer.answer medium (count * most) (some error), some disk), site.engine) ∧
      failed.world.issues = site.world.issues + (count + 1) ∧
      failed.world.device.drive.medium = transfer.stored medium (count * most) ∧
      ∀ blocks, medium.blocks ≤ blocks → ∃ outcome again never,
        (failed.mended transfer.opcode blocks).exec call =
          (.ok ((outcome, some disk), site.engine), again) ∧
        (site.mended transfer.opcode blocks).exec call =
          (.ok ((outcome, some disk), site.engine), never) ∧
        again.device.drive.medium = never.device.drive.medium := by
  intro call medium failed
  have hbrought := HostM.broughtUp_of_exec hdown hup
  have hhead : Reached config start site := by
    rw [hreached]
    exact (reached_of_bringUp hpos hbounded hbrought).run hallowed
  have hbegun :=
    hhead.begun (by rwa [hhead.areas hbrought.granted]) hkind hsectors hprompt hsata hfew
    haccepted
  rw [← hchunk] at hbegun
  obtain ⟨last, changed, drive, hyields, hserves, hleaves⟩ :=
    Transfer.exists_run_of_refused hbegun hwithin hearly hrefused site.world.memory
  obtain ⟨later, hended, haround, hprogress⟩ := exec_onDisk hknown hyields
  have hsame : failed = { site with world := later } := by
    simp only [failed, Site.after, call, hended, ← hknown]
  have hdevice : last = later.device := (congrArg Machine.device haround).symm
  rw [hdevice] at hserves
  rw [hsame]
  refine ⟨by rw [hended], hprogress.issues, ?_, fun blocks hmore => ?_⟩
  · rw [hserves.drive, hleaves.medium]
  · refine exec_mended_eq hknown hbegun hserves hleaves hwithin fun index hbefore => ?_
    exact Nat.le_trans (SimulatedPort.stop_le_of_accepted (hearly index hbefore)) hmore

/-- The hypotheses are met by a disk of four sectors whose page tells of eight: a write of six in
pieces of two breaks off at the third. -/
theorem transfer_broken_off_behind_capacity :
    let config : Config := { blocksPerCommand := 2, readyLimit := 1 }
    let start := World.around
      { Drive.disk (.blank sectorSize 4) with page := PageBuilder.standard 8 }
    let data := List.replicate 3072 1
    let call : Call := .onDisk (.write 0 3072 data)
    ∃ port engine ready disk, (HostM.bringUp (.port 0) 0 1 config).exec start =
        (.ok (.ok (port, engine)), ready) ∧
      let site := Site.run { port, engine, world := ready } [.called .probe]
      let failed := site.after (.called call)
      (site.exec call).1 = .ok ((.ioError .outOfRange, some disk), site.engine) ∧
        failed.world.issues = site.world.issues + 3 ∧
        failed.world.device.drive.medium =
          site.world.device.drive.medium.write 0 4 data := by
  intro config start data call
  have hflawless : start.device.Flawless := ⟨rfl, rfl, rfl, rfl, rfl, rfl⟩
  obtain ⟨port, engine, ready, hup, hareas⟩ : ∃ port engine ready, _ ∧ _ := exists_bringUp_around
    (show ({ Drive.disk (.blank sectorSize 4) with page := PageBuilder.standard 8 } : Drive).kind ≠
      .empty by decide) 0 1 (show 0 < config.readyLimit.toNat by decide)
  have hbrought := HostM.broughtUp_of_exec hflawless.down hup
  have hsound : engine.areas.Sound := by
    rw [hareas]
    exact sound_risingAreas
  have hmirrors := Engine.mirrors_of_bringUp (Nat.le_refl 1) hflawless hbrought hsound
  have hattached : port = ⟨0, .disk⟩ := by
    rw [hbrought.attached, SimulatedPort.attachment_eq, hflawless.kind]
  have htold : PageBuilder.Standard ready.device.drive.page 8 := by
    rw [hbrought.device]
    exact .inl rfl
  obtain ⟨disk, after, changed, issued, hprobed, hkept, ⟨trim, hsata⟩, hblocks⟩ :=
    Disk.exists_probe hmirrors htold (by decide) 0 ready.memory
  have hprobing : (Call.probe.run ⟨0, .disk⟩ none).Yields engine ready.machine
      (.ok ((.disk disk, some disk), engine)) ⟨after, changed⟩ issued :=
    EngineM.Yields.finish hprobed (EngineM.yields_pure _ engine _)
  obtain ⟨later, hidentified, haround, _⟩ := hprobing ready rfl
  let site : Site := { port, disk? := some disk, engine, world := later }
  have hreached : site = Site.run { port, engine, world := ready } [.called .probe] := by
    have hended : Site.exec { port, engine, world := ready } .probe =
        (.ok ((.disk disk, some disk), engine), later) := by
      rw [exec, hattached]
      exact hidentified
    simp only [run, List.foldl_cons, List.foldl_nil, Site.after, hended]
    rfl
  have hdevice : later.device = after := congrArg Machine.device haround
  have hhead : engine.Mirrors site.world.device (.blank sectorSize 4) := by
    change engine.Mirrors later.device _
    rw [hdevice]
    exact hkept
  have hchunk : disk.kind.chunk config = 2 := by
    rw [hsata]
    rfl
  have hoptical : disk.isOptical = false := by rw [Disk.isOptical, hsata]
  have haccepted : (Transfer.write 0 3072 data).Accepted disk := by
    refine ⟨by decide, Nat.le_of_eq List.length_replicate.symm, ?_⟩
    rw [hblocks]
    decide
  have hearly : ∀ index < 2, site.world.device.refuses? Opcode.writeDmaExt
      ((Transfer.write 0 3072 data).span.piece 2 index) = none := by
    intro index hbefore
    rw [hhead.refuses?, if_pos]
    revert index
    decide
  have hrefused : site.world.device.refuses? Opcode.writeDmaExt
      ((Transfer.write 0 3072 data).span.piece 2 2) =
        some (.outOfRange, site.world.device.drive) := by
    rw [hhead.refuses?, if_neg (by decide)]
    rfl
  obtain ⟨hanswered, hissues, hstored, _⟩ := transfer_broken_off (Nat.le_refl 1) hflawless.down
    (by simp [hflawless.moving]) hflawless.kind hflawless.sectors hup hsound
    (by simp [Event.Allowed])
    hreached rfl hoptical (by rw [hblocks]; decide) hhead.holds.prompt haccepted hchunk.symm
    (by decide) hearly hrefused
  refine ⟨port, engine, ready, disk, hup, ?_⟩
  rw [← hreached]
  refine ⟨hanswered, hissues, hstored.trans ?_⟩
  rw [Transfer.stored, List.take_of_length_le (Nat.le_of_eq List.length_replicate)]

end Site

end Ahci
