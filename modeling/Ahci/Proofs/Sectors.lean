import Ahci.Proofs.PortService

/-!
Requests for sectors, answered by a disk. A drive refuses a command for sectors because a
failure is queued for it or because it does not hold them all, and a port may leave the
command pending; otherwise a read answers with what the medium holds, and a write changes the
medium by the data and the zeroes behind it.
-/

namespace Ahci

namespace Drive

variable {drive : Drive} {opcode : UInt8} {span : Span}

/-- A drive has no fault to take for a code exactly if none is queued for it. -/
theorem takeFault_eq_none_iff : drive.takeFault opcode = none ↔
    drive.faults.find? (·.1 == opcode) = none := by
  unfold takeFault
  cases drive.faults.find? (·.1 == opcode) <;> simp

/-- How a disk refuses a command for sectors, and the disk behind it: by the first fault queued for
the code, which is then forgotten, or as not found if it does not hold the run. None if it carries
the command out. -/
def refuses? (drive : Drive) (opcode : UInt8) (span : Span) : Option (Ending × Drive) :=
  match drive.takeFault opcode with
  | some (.taskFile error, left) => some (.taskFile error, left)
  | some (.sense sense, left) => some (.checkCondition sense, left)
  | none =>
    if drive.medium.holds span.first span.count then none
    else some (.taskFile (ErrorBit.only ErrorBit.idNotFound), drive)

theorem refuses?_ne_done {ending : Ending} {left : Drive}
    (hrefused : drive.refuses? opcode span = some (ending, left)) : ending ≠ .done := by
  unfold refuses? at hrefused
  split at hrefused
  · cases hrefused
    simp
  · cases hrefused
    simp
  · split at hrefused
    · cases hrefused
    · cases hrefused
      simp

/-- A refusal changes neither the medium nor the kind of the drive. -/
theorem left_of_refuses? {ending : Ending} {left : Drive}
    (hrefused : drive.refuses? opcode span = some (ending, left)) :
    left.medium = drive.medium ∧ left.kind = drive.kind := by
  have hrest {fault : Fault} {rest : Drive} (htaken : drive.takeFault opcode = some (fault, rest)) :
      rest.medium = drive.medium ∧ rest.kind = drive.kind := by
    unfold takeFault at htaken
    split at htaken
    · cases htaken
      exact ⟨rfl, rfl⟩
    · cases htaken
  unfold refuses? at hrefused
  split at hrefused
  · next htaken =>
    cases hrefused
    exact hrest htaken
  · next htaken =>
    cases hrefused
    exact hrest htaken
  · split at hrefused
    · cases hrefused
    · cases hrefused
      exact ⟨rfl, rfl⟩

/-- A disk refuses no command exactly if it has no fault queued for the code and holds the run. -/
theorem refuses?_eq_none_iff : drive.refuses? opcode span = none ↔
    drive.takeFault opcode = none ∧ drive.medium.holds span.first span.count = true := by
  unfold refuses?
  constructor
  · intro haccepted
    split at haccepted
    · cases haccepted
    · cases haccepted
    · next huntouched =>
      split at haccepted
      · next hholds => exact ⟨huntouched, hholds⟩
      · cases haccepted
  · rintro ⟨huntouched, hholds⟩
    rw [huntouched]
    exact if_pos hholds

end Drive

/-- A fetched command without a packet whose frame names a code and a run of sectors. -/
structure FetchedCommand.ForSectors (command : FetchedCommand) (opcode : UInt8) (span : Span) :
    Prop where
  code : command.fis.opcode = opcode
  plain : command.cdb = none
  first : command.fis.lba.toNat = span.first
  count : command.fis.count.toNat = span.count

namespace Drive

variable {drive : Drive} {opcode : UInt8} {span : Span} {command : FetchedCommand}

/-- A disk that refuses a command for sectors ends it so, and neither reads nor changes memory. -/
theorem run_of_refused (hkind : drive.kind = .disk) (hsectors : command.ForSectors opcode span)
    (hcode : opcode = Opcode.readDmaExt ∨ opcode = Opcode.writeDmaExt) {ending : Ending}
    {left : Drive} (hrefused : drive.refuses? opcode span = some (ending, left))
    (memory : Memory) : drive.run command memory = (ending, left, memory) := by
  unfold refuses? at hrefused
  rw [run, hsectors.code]
  rcases htaken : drive.takeFault opcode with _ | ⟨error | sense, rest⟩
  · rw [htaken] at hrefused
    dsimp only at hrefused ⊢
    split at hrefused
    · cases hrefused
    · next hmissing =>
      cases hrefused
      rw [runSound, hkind, hsectors.plain]
      dsimp only
      rw [runAta, hsectors.code, hsectors.first, hsectors.count]
      rcases hcode with rfl | rfl
      · rw [if_neg (by decide), if_pos rfl, if_neg hmissing]
      · rw [if_neg (by decide), if_neg (by decide), if_pos rfl, if_neg hmissing]
  · rw [htaken] at hrefused
    cases hrefused
    rfl
  · rw [htaken] at hrefused
    cases hrefused
    rfl

/-- A disk that does not refuse a read places the sectors in memory, and is otherwise unchanged. -/
theorem run_read (hkind : drive.kind = .disk)
    (hsectors : command.ForSectors Opcode.readDmaExt span)
    (haccepted : drive.refuses? Opcode.readDmaExt span = none) (memory : Memory) :
    drive.run command memory = (.done, drive,
      scatterData command.entries (drive.medium.read span.first span.count) memory) := by
  obtain ⟨huntouched, hholds⟩ := refuses?_eq_none_iff.1 haccepted
  rw [run, hsectors.code, huntouched]
  dsimp only
  rw [runSound, hkind, hsectors.plain]
  dsimp only
  rw [runAta, hsectors.code, hsectors.first, hsectors.count, if_neg (by decide), if_pos rfl,
    if_pos hholds]

/-- A disk that does not refuse a write stores the data it gathers from memory, and changes nothing
else. -/
theorem run_write (hkind : drive.kind = .disk)
    (hsectors : command.ForSectors Opcode.writeDmaExt span)
    (haccepted : drive.refuses? Opcode.writeDmaExt span = none) (memory : Memory) :
    drive.run command memory = (.done,
      { drive with
        medium := drive.medium.write span.first span.count (gatherData command.entries memory) },
      memory) := by
  obtain ⟨huntouched, hholds⟩ := refuses?_eq_none_iff.1 haccepted
  rw [run, hsectors.code, huntouched]
  dsimp only
  rw [runSound, hkind, hsectors.plain]
  dsimp only
  rw [runAta, hsectors.code, hsectors.first, hsectors.count, if_neg (by decide), if_neg (by decide),
    if_pos rfl, if_pos hholds]
  dsimp only
  rw [hkind]

/-- A disk without a fault for it records the ranges of a discard, and keeps its data. -/
theorem run_discard (hkind : drive.kind = .disk) (huntouched :
      drive.takeFault Opcode.dataSetManagement = none)
    (hcode : command.fis.opcode = Opcode.dataSetManagement)
    (hfeatures : command.fis.features = trimFeature) (hplain : command.cdb = none)
    (memory : Memory) : drive.run command memory = (.done,
      { drive with
        discarded := (rangesIn (gatherData command.entries memory)).reverse ++ drive.discarded },
      memory) := by
  rw [run, hcode, huntouched]
  dsimp only
  rw [runSound, hkind, hplain]
  dsimp only
  rw [runAta, hcode, hfeatures, if_neg (by decide), if_neg (by decide), if_neg (by decide),
    if_pos ⟨rfl, rfl⟩]
  dsimp only
  rw [hkind]

end Drive

/-! The requests. -/

/-- A run that one command can carry and address: between 1 and 128 sectors, the first below
2^48. -/
structure Span.Single (span : Span) : Prop where
  some : 0 < span.count
  few : span.count ≤ maxSectors
  low : span.first < 0x1000000000000

/-- A fetched command for a single run is read back as the run it was made for. -/
theorem forSectors_fetched {command : Command} {opcode : UInt8} {span : Span}
    (hsingle : span.Single) (hfis : command.fis = RequestM.sectorFis opcode span.first span.count)
    (hplain : command.cdb = none) (entries : List ScatterEntry) :
    (command.fetched 0 entries).ForSectors opcode span := by
  have hfew : span.count ≤ 128 := hsingle.few
  refine ⟨?_, hplain, ?_, ?_⟩
  · change command.fis.opcode = opcode
    rw [hfis]
    rfl
  · change command.fis.lba.toNat = span.first
    rw [hfis]
    change (BitVec.ofNat 48 span.first).toNat = span.first
    rw [BitVec.toNat_ofNat]
    exact Nat.mod_eq_of_lt hsingle.low
  · change command.fis.count.toNat = span.count
    rw [hfis]
    change (UInt16.ofNat span.count).toNat = span.count
    rw [UInt16.toNat_ofNat']
    omega

/-- The error that a request for sectors meets at a port that takes commands, and the drive behind
it: a timeout if the port is stalled, and otherwise as the drive refuses. None if the device carries
it out. -/
def SimulatedPort.refuses? (port : SimulatedPort) (opcode : UInt8) (span : Span) :
    Option (IoError × Drive) :=
  if port.stalled then some (.timeout, port.drive)
  else (port.drive.refuses? opcode span).map fun (ending, left) =>
    (ending.failure, ending.explained left)

/-- A port that is not stalled and has no fault queued for a code refuses a run exactly if the run
reaches behind the medium, and then as not found. -/
theorem SimulatedPort.refuses?_of_untouched {port : SimulatedPort} {opcode : UInt8} {span : Span}
    (hmoving : port.stalled = false) (huntouched : port.drive.takeFault opcode = none) :
    port.refuses? opcode span = if span.stop ≤ port.drive.medium.blocks then none
      else some (ataFailure (ErrorBit.only ErrorBit.idNotFound), port.drive) := by
  rw [refuses?, hmoving, Drive.refuses?, huntouched]
  by_cases hwithin : span.stop ≤ port.drive.medium.blocks
  · have hholds : port.drive.medium.holds span.first span.count = true := decide_eq_true hwithin
    rw [if_pos hwithin, hholds]
    rfl
  · have hlacks : port.drive.medium.holds span.first span.count = false := decide_eq_false hwithin
    rw [if_neg hwithin, hlacks]
    rfl

/-- A run that is not refused lies within the medium. -/
theorem SimulatedPort.stop_le_of_accepted {port : SimulatedPort} {opcode : UInt8} {span : Span}
    (haccepted : port.refuses? opcode span = none) : span.stop ≤ port.drive.medium.blocks := by
  unfold refuses? at haccepted
  split at haccepted
  · cases haccepted
  · rw [Option.map_eq_none_iff] at haccepted
    exact of_decide_eq_true (Drive.refuses?_eq_none_iff.1 haccepted).2

theorem SimulatedPort.left_of_refuses? {port : SimulatedPort} {opcode : UInt8} {span : Span}
    {error : IoError} {left : Drive} (hrefused : port.refuses? opcode span = some (error, left)) :
    left.medium = port.drive.medium ∧ left.kind = port.drive.kind := by
  unfold SimulatedPort.refuses? at hrefused
  split at hrefused
  · cases hrefused
    exact ⟨rfl, rfl⟩
  · obtain ⟨⟨ending, rest⟩, hrefused, hsame⟩ := Option.map_eq_some_iff.1 hrefused
    obtain ⟨hmedium, hkind⟩ := Drive.left_of_refuses? hrefused
    cases hsame
    cases ending <;> exact ⟨hmedium, hkind⟩

/-- A disk with its driver between two requests: a steady port on areas that have their sizes and do
not overlap, not busy, in front of a disk with sectors of 512 bytes. -/
structure Engine.Holds (engine : Engine) (port : SimulatedPort) : Prop where
  steady : engine.Steady port
  sized : engine.areas.Sized
  layout : engine.areas.Layout
  prompt : port.busy = false
  kind : port.drive.kind = .disk
  sectors : port.drive.medium.blockSize = sectorSize

namespace RequestM

variable {engine : Engine} {port : SimulatedPort} {span : Span} {memory : Memory}

/-- A request whose command for sectors is refused fails with the error, behind one command, and
leaves the drive as the refusal does. -/
theorem exists_execute_of_refused (hholds : engine.Holds port) {command : Command}
    {entries : List ScatterEntry} {opcode : UInt8}
    (hformed : engine.scatter command = .ok entries)
    (hsectors : (command.fetched 0 entries).ForSectors opcode span)
    (hcode : opcode = Opcode.readDmaExt ∨ opcode = Opcode.writeDmaExt) {error : IoError}
    {left : Drive} (hrefused : port.refuses? opcode span = some (error, left))
    (memory : Memory) :
    ∃ after changed, (execute command).Yields engine ⟨port, memory⟩
        (.ok (.error error, engine)) ⟨after, changed⟩ 1 ∧ engine.Serves port left after := by
  unfold SimulatedPort.refuses? at hrefused
  split at hrefused
  · next hstalled =>
    cases hrefused
    obtain ⟨after, hyields, hserves⟩ :=
      exists_execute_of_stalled hholds.steady hholds.prompt hstalled hformed memory
    exact ⟨after, _, hyields, hserves⟩
  · next hmoving =>
    rw [Option.map_eq_some_iff] at hrefused
    obtain ⟨⟨ending, rest⟩, hrefused, hsame⟩ := hrefused
    cases hsame
    have hran := Drive.run_of_refused hholds.kind hsectors hcode hrefused
      (engine.build 0 command entries memory)
    have hwilling : port.Willing := ⟨hholds.prompt, by simpa using hmoving⟩
    obtain ⟨after, hyields, hserves⟩ :=
      exists_execute_of_failed hholds.steady hholds.layout hwilling
      hsectors.plain hformed (Drive.refuses?_ne_done hrefused) hran
    exact ⟨after, _, hyields, hserves⟩

/-- A port that does not refuse a run is willing, and its drive does not refuse the run either. -/
theorem Holds.willing (hholds : engine.Holds port) {opcode : UInt8}
    (haccepted : port.refuses? opcode span = none) :
    port.Willing ∧ port.drive.refuses? opcode span = none := by
  unfold SimulatedPort.refuses? at haccepted
  split at haccepted
  · cases haccepted
  · next hmoving =>
    rw [Option.map_eq_none_iff] at haccepted
    exact ⟨⟨hholds.prompt, by simpa using hmoving⟩, haccepted⟩

theorem exists_scatter (hsingle : span.Single) (base : PhysAddr) (interrupt : Bool) :
    ∃ entries, ScatterList.build base (span.count * sectorSize) interrupt = .ok entries := by
  have hsome := hsingle.some
  have hfew : span.count ≤ 128 := hsingle.few
  apply ScatterList.exists_build
  · simp only [sectorSize]
    omega
  · simp only [sectorSize]
    omega
  · simp only [sectorSize, ScatterList.maxBytes, ScatterList.pieceSize, ScatterList.capacity]
    omega

/-- A read of a single run that is refused fails with the error of the refusal. -/
theorem exists_readSectors_of_refused (hholds : engine.Holds port) (hsingle : span.Single)
    {error : IoError} {left : Drive}
    (hrefused : port.refuses? Opcode.readDmaExt span = some (error, left)) (memory : Memory) :
    ∃ after changed, (readSectors span.first span.count).Yields engine ⟨port, memory⟩
        (.ok (.error error, engine)) ⟨after, changed⟩ 1 ∧ engine.Serves port left after := by
  let command : Command :=
    { fis := sectorFis Opcode.readDmaExt span.first span.count
      data := .toHost (span.count * sectorSize)
      label := "read disk" }
  obtain ⟨entries, hbuilt⟩ := exists_scatter hsingle (engine.areas.read.physAt 0) true
  have hformed : engine.scatter command = .ok entries := hbuilt
  have hsectors : (command.fetched 0 entries).ForSectors Opcode.readDmaExt span :=
    forSectors_fetched hsingle rfl rfl entries
  obtain ⟨after, changed, hyields, hserves⟩ :=
    exists_execute_of_refused hholds hformed hsectors (.inl rfl) hrefused memory
  refine ⟨after, changed, ?_, hserves⟩
  refine (yields_require (decide_eq_true hsingle.few) _ engine _).seq ?_
  rw [if_neg (Nat.ne_of_gt hsingle.some)]
  exact hyields.bind_error

/-- A read of a single run that is not refused returns the sectors of the medium, with one command,
and leaves the drive as it was. -/
theorem exists_readSectors (hholds : engine.Holds port) (hsingle : span.Single)
    (haccepted : port.refuses? Opcode.readDmaExt span = none) (memory : Memory) :
    ∃ after changed, (readSectors span.first span.count).Yields engine ⟨port, memory⟩
        (.ok (.ok (port.drive.medium.read span.first span.count), engine)) ⟨after, changed⟩ 1 ∧
      engine.Serves port port.drive after := by
  let command : Command :=
    { fis := sectorFis Opcode.readDmaExt span.first span.count
      data := .toHost (span.count * sectorSize)
      label := "read disk" }
  let data := port.drive.medium.read span.first span.count
  obtain ⟨hwilling, haccepted⟩ := Holds.willing hholds haccepted
  obtain ⟨entries, hbuilt⟩ := exists_scatter hsingle (engine.areas.read.physAt 0) true
  have hformed : engine.scatter command = .ok entries := hbuilt
  have hsectors : (command.fetched 0 entries).ForSectors Opcode.readDmaExt span :=
    forSectors_fetched hsingle rfl rfl entries
  have hran := Drive.run_read hholds.kind hsectors haccepted (engine.build 0 command entries memory)
  have hlength : data.length = span.count * sectorSize := by
    rw [Medium.length_read, hholds.sectors]
  have hfew : span.count ≤ 128 := hsingle.few
  have hfits : data.length ≤ 65536 := by
    rw [hlength]
    simp only [sectorSize]
    omega
  obtain ⟨changed, hyields, htaken⟩ :=
    exists_receive hholds.steady hholds.sized hholds.layout hwilling
    hformed (congrArg DataPhase.toHost hlength.symm) hfits hran
  rw [hlength] at htaken
  have hserves := Engine.serves_served hholds.steady (command.fetched 0 entries) port.drive
  refine ⟨_, changed, ?_, hserves⟩
  refine (yields_require (decide_eq_true hsingle.few) _ engine _).seq ?_
  rw [if_neg (Nat.ne_of_gt hsingle.some)]
  exact hyields.finish htaken

/-- A write to a single run that is refused fails with the error of the refusal, and stores
nothing. -/
theorem exists_writeSectors_of_refused (hholds : engine.Holds port) (hsingle : span.Single)
    {data : List UInt8} (hlong : data.length ≤ span.count * sectorSize) {error : IoError}
    {left : Drive} (hrefused : port.refuses? Opcode.writeDmaExt span = some (error, left))
    (memory : Memory) :
    ∃ after changed, (writeSectors span.first span.count data).Yields engine ⟨port, memory⟩
        (.ok (.error error, engine)) ⟨after, changed⟩ 1 ∧ engine.Serves port left after := by
  let command : Command :=
    { fis := sectorFis Opcode.writeDmaExt span.first span.count
      data := .fromHost (span.count * sectorSize)
      label := "write disk" }
  obtain ⟨entries, hbuilt⟩ := exists_scatter hsingle (engine.areas.write.physAt 0) true
  have hformed : engine.scatter command = .ok entries := hbuilt
  have hsectors : (command.fetched 0 entries).ForSectors Opcode.writeDmaExt span :=
    forSectors_fetched hsingle rfl rfl entries
  obtain ⟨after, changed, hyields, hserves⟩ := exists_execute_of_refused hholds hformed hsectors
    (.inr rfl) hrefused (staged engine data (span.count * sectorSize) memory)
  have hsome := hsingle.some
  have hfew : span.count ≤ 128 := hsingle.few
  have hfilled := yields_fillStaging port hholds.sized
    (show span.count * sectorSize ≤ 65536 by simp only [sectorSize]; omega) hlong memory
  refine ⟨after, changed, ?_, hserves⟩
  refine (yields_require (decide_eq_true hsingle.few) _ engine _).seq ?_
  dsimp only
  rw [if_neg (by simp only [Bool.or_eq_true, decide_eq_true_eq]; omega)]
  exact hfilled.seq hyields

/-- A write to a single run that is not refused stores the data, with one command, filled up with
zeros to whole sectors. -/
theorem exists_writeSectors (hholds : engine.Holds port) (hsingle : span.Single)
    {data : List UInt8} (hlong : data.length ≤ span.count * sectorSize)
    (haccepted : port.refuses? Opcode.writeDmaExt span = none) (memory : Memory) :
    ∃ after changed, (writeSectors span.first span.count data).Yields engine ⟨port, memory⟩
        (.ok (.ok (), engine)) ⟨after, changed⟩ 1 ∧
      engine.Serves port
        { port.drive with
          medium := port.drive.medium.write span.first span.count
            (data ++ List.replicate (span.count * sectorSize - data.length) 0) } after := by
  let command : Command :=
    { fis := sectorFis Opcode.writeDmaExt span.first span.count
      data := .fromHost (span.count * sectorSize)
      label := "write disk" }
  obtain ⟨hwilling, haccepted⟩ := Holds.willing hholds haccepted
  obtain ⟨entries, hbuilt⟩ := exists_scatter hsingle (engine.areas.write.physAt 0) true
  have hformed : engine.scatter command = .ok entries := hbuilt
  have hsectors : (command.fetched 0 entries).ForSectors Opcode.writeDmaExt span :=
    forSectors_fetched hsingle rfl rfl entries
  have hsome := hsingle.some
  have hfew : span.count ≤ 128 := hsingle.few
  have hfits : span.count * sectorSize ≤ 65536 := by
    simp only [sectorSize]
    omega
  let sent := data ++ List.replicate (span.count * sectorSize - data.length) 0
  have hran : ∀ built, gatherData entries built = sent →
      port.drive.run (command.fetched 0 entries) built = (.done,
        { port.drive with
          medium := port.drive.medium.write span.first span.count sent }, built) := by
    intro built hgathered
    rw [Drive.run_write hholds.kind hsectors haccepted, ← hgathered]
    rfl
  obtain ⟨after, changed, hfilled, hyields, hserves⟩ := exists_send hholds.steady hholds.sized
    hholds.layout hwilling hformed rfl hfits hlong hran memory
  refine ⟨after, changed, ?_, hserves⟩
  refine (yields_require (decide_eq_true hsingle.few) _ engine _).seq ?_
  dsimp only
  rw [if_neg (by simp only [Bool.or_eq_true, decide_eq_true_eq]; omega)]
  exact hfilled.seq hyields

/-- A discard of one range succeeds on a willing port without a fault queued for it, and changes
nothing of the drive but its record of discarded ranges. -/
theorem exists_discardRange (hholds : engine.Holds port) (hwilling : port.Willing)
    (huntouched : port.drive.takeFault Opcode.dataSetManagement = none) (range : Span)
    (memory : Memory) :
    ∃ after changed discarded, (discardRange range).Yields engine ⟨port, memory⟩
        (.ok (.ok (), engine)) ⟨after, changed⟩ 1 ∧
      engine.Serves port { port.drive with discarded } after := by
  let command : Command :=
    { fis := ((HostFis.command Opcode.dataSetManagement).withFeatures trimFeature).withCount 1
      data := .fromHost DiscardRange.blockSize
      interrupt := false
      label := "trim" }
  have hlong : (DiscardRange.encode range).length ≤ DiscardRange.blockSize := by
    simp [DiscardRange.encode, DiscardRange.blockSize]
  let sent := DiscardRange.encode range ++
    List.replicate (DiscardRange.blockSize - (DiscardRange.encode range).length) 0
  have hpos : 0 < DiscardRange.blockSize := by decide
  obtain ⟨entries, hbuilt⟩ :=
    ScatterList.exists_build (engine.areas.write.physAt 0) false hpos (by decide) (by decide)
  have hformed : engine.scatter command = .ok entries := hbuilt
  have hran : ∀ built, gatherData entries built = sent →
      port.drive.run (command.fetched 0 entries) built = (.done,
        { port.drive with
          discarded := (Drive.rangesIn sent).reverse ++ port.drive.discarded }, built) := by
    intro built hgathered
    rw [Drive.run_discard hholds.kind huntouched rfl rfl rfl, ← hgathered]
    rfl
  obtain ⟨after, changed, hfilled, hyields, hserves⟩ := exists_send hholds.steady hholds.sized
    hholds.layout hwilling hformed rfl (by decide) hlong hran memory
  refine ⟨after, changed, _, ?_, hserves⟩
  refine (yields_withEngine (HostM.yields_note _ (by decide) _)).seq ?_
  exact hfilled.seq hyields

end RequestM

end Ahci
