import Ahci.Proofs.Media
import Ahci.Proofs.Sectors
import Ahci.Storage.Disk

/-!
Requests that are cut into commands. The pieces that the disk takes move their data, one
command each, and leave the disk as ready as it was; so by induction on the run of sectors a
request comes as far as the first piece that is refused, whatever is to be done behind it.
-/

namespace Ahci

namespace Drive

variable {drive : Drive} {medium : Medium} {opcode : UInt8} {span : Span}

/-- What a drive refuses depends on its medium by the number of blocks only. -/
theorem refuses?_with_medium (hblocks : medium.blocks = drive.medium.blocks) :
    Drive.refuses? { drive with medium } opcode span =
      (drive.refuses? opcode span).map fun (ending, left) => (ending, { left with medium }) := by
  have hholds : medium.holds span.first span.count = drive.medium.holds span.first span.count := by
    rw [Medium.holds, Medium.holds, hblocks]
  unfold refuses? takeFault
  cases drive.faults.find? (·.1 == opcode) with
  | some entry =>
    obtain ⟨code, fault⟩ := entry
    cases fault <;> rfl
  | none =>
    dsimp only
    rw [hholds]
    split <;> rfl

end Drive

theorem Ending.explained_with_medium (ending : Ending) (drive : Drive) (medium : Medium) :
    ending.explained { drive with medium } = { ending.explained drive with medium } := by
  cases ending <;> rfl

namespace Engine

variable {engine : Engine} {port between after : SimulatedPort} {drive : Drive}
  {medium : Medium} {opcode : UInt8} {span : Span}

theorem Serves.refl (hsteady : engine.Steady port) : engine.Serves port port.drive port :=
  ⟨hsteady, rfl, rfl, rfl⟩

/-- A request that returns from a port behind another request serves the first port with the last
drive. -/
theorem Serves.trans {first : Drive} (hearly : engine.Serves port first between)
    (hlate : engine.Serves between drive after) : engine.Serves port drive after :=
  ⟨hlate.steady, hlate.drive, hlate.busy.trans hearly.busy, hlate.stalled.trans hearly.stalled⟩

theorem Serves.holds (hserves : engine.Serves port drive after) (hholds : engine.Holds port)
    (hkind : drive.kind = .disk) (hsectors : drive.medium.blockSize = sectorSize) :
    engine.Holds after where
  steady := hserves.steady
  sized := hholds.sized
  layout := hholds.layout
  prompt := hserves.busy.trans hholds.prompt
  kind := by rw [hserves.drive, hkind]
  sectors := by rw [hserves.drive, hsectors]

/-- Behind a request that left the drive as it was, the port refuses what it refused before. -/
theorem Serves.refuses? (hserves : engine.Serves port port.drive after) (opcode : UInt8)
    (span : Span) : after.refuses? opcode span = port.refuses? opcode span := by
  rw [SimulatedPort.refuses?, hserves.drive, hserves.stalled, SimulatedPort.refuses?]

/-- Behind a request that changed only the content of the medium, the port refuses what it refused
before. -/
theorem Serves.refuses?_with_medium
    (hserves : engine.Serves port { port.drive with medium } after)
    (hblocks : medium.blocks = port.drive.medium.blocks) (opcode : UInt8) (span : Span) :
    after.refuses? opcode span =
      (port.refuses? opcode span).map fun (error, left) => (error, { left with medium }) := by
  rw [SimulatedPort.refuses?, hserves.drive, hserves.stalled, SimulatedPort.refuses?,
    Drive.refuses?_with_medium hblocks]
  split
  · rfl
  · rw [Option.map_map, Option.map_map]
    congr 1
    funext refusal
    obtain ⟨ending, left⟩ := refusal
    exact congrArg (Prod.mk _) (ending.explained_with_medium left medium)

end Engine

namespace Disk

/-- Each piece of a run below 2^48 is carried by one command, if the pieces are no larger than a
command can move. -/
theorem single_of_mem_cut {span piece : Span} {most : Nat} (hpos : 0 < most)
    (hfew : most ≤ maxSectors) (hlow : span.stop ≤ 0x1000000000000)
    (hmember : piece ∈ span.cut most) : piece.Single := by
  obtain ⟨hsome, hshort, _, hwithin⟩ := Span.mem_cut hpos hmember
  refine ⟨hsome, Nat.le_trans hshort hfew, ?_⟩
  unfold Span.stop at hwithin hlow
  omega

/-- Reading some pieces into the front of a buffer has the given answer, count and drive, on every
port which an earlier part of the request left with the drive it found, and over every memory. -/
def Reads (engine : Engine) (port : SimulatedPort) (trim : TrimSupport) (spans : List Span)
    (buffer : List UInt8) (answer : Except IoError Nat × List UInt8) (issued : Nat)
    (drive : Drive) : Prop :=
  ∀ now memory, engine.Serves port port.drive now →
    ∃ last changed, (readSpans (.disk trim) spans buffer).Yields engine ⟨now, memory⟩
        (.ok (answer, engine)) ⟨last, changed⟩ issued ∧ engine.Serves port drive last

/-- Writing data to some pieces has the given answer, count and drive, on every port which an
earlier part of the request left with the given medium, and over every memory. -/
def Writes (engine : Engine) (port : SimulatedPort) (trim : TrimSupport) (medium : Medium)
    (spans : List Span) (data : List UInt8) (answer : Except IoError Unit) (issued : Nat)
    (drive : Drive) : Prop :=
  ∀ now memory, engine.Serves port { port.drive with medium } now →
    ∃ last changed, (writeSpans (.disk trim) spans data).Yields engine ⟨now, memory⟩
        (.ok (answer, engine)) ⟨last, changed⟩ issued ∧ engine.Serves port drive last

variable {engine : Engine} {port : SimulatedPort} {trim : TrimSupport} {piece : Span}
  {others : List Span} {drive : Drive} {issued : Nat}

/-- A piece that one command carries and that the port does not refuse. -/
def Takes (port : SimulatedPort) (opcode : UInt8) (piece : Span) : Prop :=
  piece.Single ∧ port.refuses? opcode piece = none

theorem stop_lt_of_single (hsingle : piece.Single) : piece.stop < UInt64.size := by
  have hfew : piece.count ≤ 128 := hsingle.few
  have hlow := hsingle.low
  simp only [Span.stop, UInt64.size]
  omega

section Read

variable {buffer tail : List UInt8} {answer : Except IoError Nat}

theorem reads_nil (engine : Engine) (port : SimulatedPort) (trim : TrimSupport)
    (buffer : List UInt8) : Reads engine port trim [] buffer (.ok 0, buffer) 0 port.drive :=
  fun now memory hserves => ⟨now, memory, EngineM.yields_pure _ engine _, hserves⟩

/-- If the first piece is refused, reading ends with its error, behind one command and with the
buffer as it was. -/
theorem reads_of_refused (hholds : engine.Holds port) (hsingle : piece.Single)
    (hfits : piece.count * sectorSize ≤ buffer.length) {error : IoError} {left : Drive}
    (hrefused : port.refuses? Opcode.readDmaExt piece = some (error, left)) :
    Reads engine port trim (piece :: others) buffer (.error error, buffer) 1 left := by
  intro now memory hserves
  rw [← hserves.refuses?] at hrefused
  obtain ⟨last, changed, hyields, hfailed⟩ := RequestM.exists_readSectors_of_refused
    (hserves.holds hholds hholds.kind hholds.sectors) hsingle hrefused memory
  refine ⟨last, changed, ?_, hserves.trans hfailed⟩
  refine (EngineM.yields_onHost (HostM.yields_require (decide_eq_true hfits) _ _) engine).seq ?_
  exact EngineM.Yields.finish hyields (EngineM.yields_pure _ engine _)

/-- If the first piece is taken, its blocks are placed in front of what the others place, with one
command more. -/
theorem reads_cons (hholds : engine.Holds port) (htakes : Takes port Opcode.readDmaExt piece)
    (hfits : piece.count * sectorSize ≤ buffer.length)
    (hrest : Reads engine port trim others (buffer.drop (piece.count * sectorSize)) (answer, tail)
      issued drive) :
    Reads engine port trim (piece :: others) buffer
      (answer.map (piece.count * sectorSize + ·),
        port.drive.medium.read piece.first piece.count ++ tail) (issued + 1) drive := by
  intro now memory hserves
  obtain ⟨hsingle, haccepted⟩ := htakes
  have hready := hserves.holds hholds hholds.kind hholds.sectors
  rw [← hserves.refuses?] at haccepted
  obtain ⟨between, moved, hyields, hserved⟩ :=
    RequestM.exists_readSectors hready hsingle haccepted memory
  rw [hserves.drive] at hyields hserved
  obtain ⟨last, changed, hcontinued, harrived⟩ := hrest between moved (hserves.trans hserved)
  have hlength : (port.drive.medium.read piece.first piece.count).length =
      piece.count * sectorSize := by
    rw [Medium.length_read, hholds.sectors]
  have hstopped := stop_lt_of_single hsingle
  refine ⟨last, changed, ?_, harrived⟩
  rw [Nat.add_comm]
  refine (EngineM.yields_onHost (HostM.yields_require (decide_eq_true hfits) _ _) engine).seq ?_
  refine EngineM.Yields.bind hyields ?_
  refine (EngineM.yields_onHost (HostM.yields_require (beq_iff_eq.2 hlength) _ _) engine).seq ?_
  refine (EngineM.yields_onHost
    (HostM.yields_require (decide_eq_true hstopped) _ _) engine).seq ?_
  exact hcontinued.finish (EngineM.yields_pure _ engine _)

/-- A run whose pieces are all taken is placed at the front of the buffer, with one command for each
of them, and reading goes on with what follows it. -/
theorem reads_cut_append (hholds : engine.Holds port) {most : Nat} (hpos : 0 < most) {span : Span}
    (htakes : ∀ piece ∈ span.cut most, Takes port Opcode.readDmaExt piece)
    (hroom : span.count * sectorSize ≤ buffer.length)
    (hrest : Reads engine port trim others (buffer.drop (span.count * sectorSize)) (answer, tail)
      issued drive) :
    Reads engine port trim (span.cut most ++ others) buffer
      (answer.map (span.count * sectorSize + ·),
        port.drive.medium.read span.first span.count ++ tail)
      (issued + (span.cut most).length) drive := by
  -- On the sectors left: behind the first piece lies a shorter run, cut at the same places.
  induction hsize : span.count using Nat.strongRecOn generalizing span buffer with
  | ind count ih =>
    subst hsize
    by_cases hempty : span.count = 0
    · rw [hempty, Nat.zero_mul, List.drop_zero] at hrest
      rw [Span.cut_of_count_eq_zero hpos hempty, List.nil_append, hempty]
      cases answer <;> simpa [Medium.read, Except.map] using hrest
    · have hpieces := Span.cut_of_count_pos hpos (Nat.pos_of_ne_zero hempty)
      have hsmaller : (span.drop most).count < span.count := by
        simp only [Span.drop]
        omega
      have hwhole : (span.take most).count * sectorSize + (span.drop most).count * sectorSize =
          span.count * sectorSize := by
        rw [← Nat.add_mul]
        congr 1
        simp only [Span.take, Span.drop]
        omega
      have hleft : (span.drop most).count * sectorSize ≤
          (buffer.drop ((span.take most).count * sectorSize)).length := by
        rw [List.length_drop]
        omega
      rw [hpieces] at htakes
      rw [← hwhole, ← List.drop_drop] at hrest
      have hlater :=
        ih _ hsmaller (fun piece hmember => htakes piece (List.mem_cons_of_mem _ hmember))
        hleft hrest rfl
      have hfirst := reads_cons hholds (htakes _ List.mem_cons_self)
        (Nat.le_trans (Nat.le.intro hwhole) hroom) hlater
      have hsum : (answer.map ((span.drop most).count * sectorSize + ·)).map
          ((span.take most).count * sectorSize + ·) =
            answer.map (span.count * sectorSize + ·) := by
        cases answer with
        | error error => simp only [Except.map]
        | ok placed => simp only [Except.map, ← Nat.add_assoc, hwhole]
      rw [hsum, ← List.append_assoc, Medium.read_take_drop] at hfirst
      rw [hpieces]
      exact hfirst

/-- A run whose pieces are all taken is placed at the front of the buffer, which behind it stays as
it was. -/
theorem reads_cut (hholds : engine.Holds port) {most : Nat} (hpos : 0 < most) {span : Span}
    (htakes : ∀ piece ∈ span.cut most, Takes port Opcode.readDmaExt piece)
    (hroom : span.count * sectorSize ≤ buffer.length) :
    Reads engine port trim (span.cut most) buffer
      (.ok (span.count * sectorSize), port.drive.medium.read span.first span.count ++
        buffer.drop (span.count * sectorSize)) (span.cut most).length port.drive := by
  have hreads := reads_cut_append hholds hpos htakes hroom (reads_nil engine port trim _)
  rw [List.append_nil, Nat.zero_add] at hreads
  simpa only [Except.map, Nat.add_zero] using hreads

end Read

section Write

variable {medium : Medium} {data : List UInt8} {answer : Except IoError Unit}

theorem writes_nil (engine : Engine) (port : SimulatedPort) (trim : TrimSupport)
    (medium : Medium) (data : List UInt8) :
    Writes engine port trim medium [] data (.ok ()) 0 { port.drive with medium } :=
  fun now memory hserves => ⟨now, memory, RequestM.yields_pure () engine _, hserves⟩

/-- If the first piece is refused, writing ends with its error, behind one command and with the
medium as it was. -/
theorem writes_of_refused (hholds : engine.Holds port)
    (hsectors : medium.blockSize = sectorSize) (hblocks : medium.blocks = port.drive.medium.blocks)
    (hsingle : piece.Single) {error : IoError} {left : Drive}
    (hrefused : port.refuses? Opcode.writeDmaExt piece = some (error, left)) :
    Writes engine port trim medium (piece :: others) data (.error error) 1
      { left with medium } := by
  intro now memory hserves
  have hrefused' : now.refuses? Opcode.writeDmaExt piece = some (error, { left with medium }) := by
    rw [hserves.refuses?_with_medium hblocks, hrefused]
    rfl
  obtain ⟨last, changed, hyields, hfailed⟩ := RequestM.exists_writeSectors_of_refused
    (hserves.holds hholds hholds.kind hsectors) hsingle
    (List.length_take_le (piece.count * sectorSize) data) hrefused' memory
  exact ⟨last, changed, hyields.bind_error, hserves.trans hfailed⟩

/-- If the first piece is taken, its data is stored in front of what the others store, with one
command more. The data has to reach into each block of the piece. -/
theorem writes_cons (hholds : engine.Holds port) (hsectors : medium.blockSize = sectorSize)
    (hblocks : medium.blocks = port.drive.medium.blocks)
    (htakes : Takes port Opcode.writeDmaExt piece)
    (hcovered : piece.count ≤ blocksFor data.length sectorSize)
    (hrest : Writes engine port trim
      (medium.write piece.first piece.count (data.take (piece.count * sectorSize))) others
      (data.drop (piece.count * sectorSize)) answer issued drive) :
    Writes engine port trim medium (piece :: others) data answer (issued + 1) drive := by
  intro now memory hserves
  obtain ⟨hsingle, haccepted⟩ := htakes
  have hready := hserves.holds hholds hholds.kind hsectors
  have haccepted' : now.refuses? Opcode.writeDmaExt piece = none := by
    rw [hserves.refuses?_with_medium hblocks, haccepted]
    rfl
  obtain ⟨between, moved, hyields, hserved⟩ := RequestM.exists_writeSectors hready hsingle
    (List.length_take_le (piece.count * sectorSize) data) haccepted' memory
  have hpositive : 0 < medium.blockSize := by
    rw [hsectors]
    decide
  have hfull : piece.count ≤
      blocksFor (data.take (piece.count * sectorSize)).length medium.blockSize := by
    rw [← hsectors] at hcovered ⊢
    rw [blocksFor_take data hpositive]
    omega
  rw [hserves.drive] at hserved
  dsimp only at hserved
  rw [medium.write_append_zeroes hpositive _ hfull] at hserved
  obtain ⟨last, changed, hcontinued, harrived⟩ := hrest between moved (hserves.trans hserved)
  refine ⟨last, changed, ?_, harrived⟩
  rw [Nat.add_comm]
  refine RequestM.Yields.bind hyields ?_
  refine (RequestM.yields_require (decide_eq_true (stop_lt_of_single hsingle)) _ engine _).seq ?_
  exact hcontinued

/-- A run whose pieces are all taken is stored, with one command for each of them, and writing goes
on with what follows it. -/
theorem writes_cut_append (hholds : engine.Holds port) {most : Nat} (hpos : 0 < most) {span : Span}
    (hsectors : medium.blockSize = sectorSize) (hblocks : medium.blocks = port.drive.medium.blocks)
    (htakes : ∀ piece ∈ span.cut most, Takes port Opcode.writeDmaExt piece)
    (hcovered : span.count ≤ blocksFor data.length sectorSize)
    (hrest : Writes engine port trim (medium.write span.first span.count data) others
      (data.drop (span.count * sectorSize)) answer issued drive) :
    Writes engine port trim medium (span.cut most ++ others) data answer
      (issued + (span.cut most).length) drive := by
  induction hsize : span.count using Nat.strongRecOn generalizing span medium data with
  | ind count ih =>
    subst hsize
    by_cases hempty : span.count = 0
    · rw [hempty, Nat.zero_mul, List.drop_zero, Medium.write_zero] at hrest
      rw [Span.cut_of_count_eq_zero hpos hempty, List.nil_append]
      exact hrest
    · have hpieces := Span.cut_of_count_pos hpos (Nat.pos_of_ne_zero hempty)
      have hsmaller : (span.drop most).count < span.count := by
        simp only [Span.drop]
        omega
      have hpositive : 0 < sectorSize := by decide
      have hwhole : (span.take most).count + (span.drop most).count = span.count := by
        simp only [Span.take, Span.drop]
        omega
      have hleft : (span.drop most).count ≤
          blocksFor (data.drop ((span.take most).count * sectorSize)).length sectorSize := by
        rw [blocksFor_drop data hpositive]
        omega
      let wrote := medium.write (span.take most).first (span.take most).count
        (data.take ((span.take most).count * sectorSize))
      have hsectors' : wrote.blockSize = sectorSize := hsectors
      have hblocks' : wrote.blocks = port.drive.medium.blocks := hblocks
      have honwards : Writes engine port trim
          (wrote.write (span.drop most).first (span.drop most).count
            (data.drop ((span.take most).count * sectorSize))) others
          ((data.drop ((span.take most).count * sectorSize)).drop
            ((span.drop most).count * sectorSize)) answer issued drive := by
        rw [List.drop_drop, ← Nat.add_mul, hwhole, ← hsectors]
        rw [← hsectors] at hpositive hrest
        simp only [wrote, ← hsectors]
        rwa [medium.write_take_drop hpositive]
      rw [hpieces] at htakes
      have hlater := ih _ hsmaller hsectors' hblocks'
        (fun piece hmember => htakes piece (List.mem_cons_of_mem _ hmember)) hleft honwards rfl
      rw [hpieces]
      exact writes_cons hholds hsectors hblocks (htakes _ List.mem_cons_self) (by omega) hlater

/-- A run whose pieces are all taken is stored as one write to the medium would store it. -/
theorem writes_cut (hholds : engine.Holds port) {most : Nat} (hpos : 0 < most) {span : Span}
    (htakes : ∀ piece ∈ span.cut most, Takes port Opcode.writeDmaExt piece)
    (hcovered : span.count ≤ blocksFor data.length sectorSize) :
    Writes engine port trim port.drive.medium (span.cut most) data (.ok ())
      (span.cut most).length
      { port.drive with medium := port.drive.medium.write span.first span.count data } := by
  have hwrites := writes_cut_append hholds hpos hholds.sectors rfl htakes hcovered
    (writes_nil engine port trim _ _)
  rwa [List.append_nil, Nat.zero_add] at hwrites

end Write

/-! The requests themselves. -/

variable {disk : Disk} {start bytes : Nat} {buffer : List UInt8}
  {before after : Machine SimulatedPort}

theorem yields_read {result : Except Halt ((Except IoError Nat × List UInt8) × Engine)}
    (hsome : bytes ≠ 0) (hroom : buffer ≠ [])
    (hwithin : disk.inRange start (blocksFor bytes disk.blockSize) = true)
    (hyields : (readSpans disk.kind
      (Span.cut ⟨start, min (blocksFor bytes disk.blockSize) (buffer.length / disk.blockSize)⟩
        (disk.kind.chunk engine.config)) buffer).Yields engine before result after issued) :
    (disk.read start bytes buffer).Yields engine before result after issued := by
  rw [Disk.read, if_neg (by simp [hsome, hroom])]
  dsimp only
  rw [hwithin, Bool.not_true, if_neg Bool.false_ne_true]
  exact (EngineM.yields_get engine before).seq hyields

/-- A write that is not turned down does what writing its pieces does, with as many bytes of the
buffer as it was asked to write. -/
theorem yields_write {result : Except Halt (Except IoError Unit × Engine)}
    (hwritable : disk.isOptical = false) (hsome : bytes ≠ 0) (henough : bytes ≤ buffer.length)
    (hwithin : disk.inRange start (blocksFor bytes disk.blockSize) = true)
    (hyields : (writeSpans disk.kind
      (Span.cut ⟨start, blocksFor bytes disk.blockSize⟩ (disk.kind.chunk engine.config))
        (buffer.take bytes)).Yields engine before result after issued) :
    (disk.write start bytes buffer).Yields engine before result after issued := by
  have hsound : ¬ (decide (bytes = 0) || decide (bytes > buffer.length)) = true := by
    simp only [Bool.or_eq_true, decide_eq_true_eq]
    omega
  rw [Disk.write, hwritable, if_neg Bool.false_ne_true, if_neg hsound]
  dsimp only
  rw [hwithin, Bool.not_true, if_neg Bool.false_ne_true]
  exact (RequestM.yields_withEngine (HostM.yields_pure engine.config before)).seq hyields

end Disk

end Ahci
