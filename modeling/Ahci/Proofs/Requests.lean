import Ahci.Proofs.RequestOutcomes
import Ahci.Proofs.SenseHistory

/-!
Every request of the driver, foretold. A request that runs one command succeeds just when the
device takes the command and carries it out, and then the data that it answers with is the
answer of the device. By induction over what a request is made of, no request depends on what
memory held before it.
-/

namespace Ahci

variable {α β : Type}

/-! The commands of the requests. -/

namespace Command

def identify : Command :=
  { fis := .command Opcode.identifyDevice
    data := .toHost IdentifyPage.size
    label := "identify" }

def readSectors (lba sectors : Nat) : Command :=
  { fis := RequestM.sectorFis Opcode.readDmaExt lba sectors
    data := .toHost (sectors * sectorSize)
    label := "read disk" }

def writeSectors (lba sectors : Nat) : Command :=
  { fis := RequestM.sectorFis Opcode.writeDmaExt lba sectors
    data := .fromHost (sectors * sectorSize)
    label := "write disk" }

def discard : Command :=
  { fis := ((HostFis.command Opcode.dataSetManagement).withFeatures trimFeature).withCount 1
    data := .fromHost DiscardRange.blockSize
    interrupt := false
    label := "trim" }

def readBlocks (lba blocks : Nat) : Command :=
  .packet (.read (UInt32.ofNat lba) (UInt32.ofNat blocks)) (.toHost (blocks * driveBlockSize))
    "atapi read"

end Command

namespace Cdb

/-- A packet of at most 16 bytes is sent as it is, with zeros behind it. -/
theorem encode_ofBytes_of_le {bytes : List UInt8} (hshort : bytes.length ≤ 16) :
    (ofBytes bytes).encode = bytes ++ List.replicate (16 - bytes.length) 0 := by
  apply List.ext_getElem
  · simp only [length_encode, size, List.length_append, List.length_replicate]
    omega
  · intro index _ _
    by_cases hwithin : index < bytes.length
    · simp [ofBytes, encode, hwithin]
    · simp [ofBytes, encode, List.getElem_append, hwithin]

/-- Each byte of a packet is the one it was made from, or zero behind the last of those. -/
theorem byte_ofBytes (bytes : List UInt8) {index : Nat} (hwithin : index < 16) :
    (ofBytes bytes).byte index hwithin = bytes.getD index 0 := by
  simp [byte, ofBytes]

/-- The first block and the count that READ(12) carries are read back from its bytes, for all of
their 32-bit values. -/
theorem blocks_read (lba blocks : UInt32) :
    (Cdb.read lba blocks).readLba = lba.toNat ∧
      (Cdb.read lba blocks).readBlocks = blocks.toNat := by
  have hencoded := encode_ofBytes_of_le
    (show ([readCode, 0] ++ bigEndian 4 lba.toNat ++ bigEndian 4 blocks.toNat).length ≤ 16 by simp)
  have hfirst : ofBigEndian (bigEndian 4 lba.toNat) = lba.toNat :=
    (ofBigEndian_bigEndian 4 _).trans (Nat.mod_eq_of_lt lba.toNat_lt)
  have hcount : ofBigEndian (bigEndian 4 blocks.toNat) = blocks.toNat :=
    (ofBigEndian_bigEndian 4 _).trans (Nat.mod_eq_of_lt blocks.toNat_lt)
  rw [readLba, readBlocks, read, hencoded]
  constructor
  · simpa using hfirst
  · simpa using hcount

end Cdb

/-- A packet drive answers READ(12) with the blocks of its medium. -/
theorem Drive.answer_read (drive : Drive) (fis : HostFis) (lba blocks : UInt32) :
    drive.answer fis (some (.read lba blocks)) = drive.medium.read lba.toNat blocks.toNat := by
  obtain ⟨hfirst, hcount⟩ := Cdb.blocks_read lba blocks
  have hcode : (Cdb.read lba blocks).opcode = Cdb.readCode := Cdb.byte_ofBytes _ (by decide)
  rw [answer, hcode, if_neg (by decide), if_neg (by decide), if_pos rfl, hfirst, hcount]

theorem Drive.answer_inquiry (drive : Drive) (fis : HostFis) (length : UInt8) :
    drive.answer fis (some (.inquiry length)) = inquiryAnswer.take length.toNat := by
  have hcode : (Cdb.inquiry length).opcode = Cdb.inquiryCode := Cdb.byte_ofBytes _ (by decide)
  have hasked : (Cdb.inquiry length).byte 4 = length := Cdb.byte_ofBytes _ (by decide)
  rw [answer, hcode, if_pos rfl, hasked]

/-- INQUIRY data is parsed from its beginning: bytes behind the answer make no difference, provided
the answer does not end where a parsed part begins. -/
theorem InquiryData.parse?_of_begun {found data : List UInt8}
    (hbegun : found.take data.length = data) (henough : 36 ≤ found.length → 36 ≤ data.length) :
    parse? found = parse? data := by
  have hshorter : data.length ≤ found.length := by
    have hlength := congrArg List.length hbegun
    rw [List.length_take] at hlength
    omega
  have htexts (offset length : Nat) (hwithin : offset + length ≤ data.length) :
      textAt found offset length = textAt data offset length := by
    apply textAt_congr
    intro place _ hbefore
    rw [← hbegun, List.getElem?_take_of_lt (by omega)]
  unfold parse?
  by_cases hshort : data.length < 36
  · rw [if_pos (by omega), if_pos hshort]
  · rw [if_neg (by omega), if_neg hshort, htexts 8 8 (by omega), htexts 16 16 (by omega),
      htexts 32 4 (by omega)]

namespace Engine

/-- What the success of a request that runs one command says of the command: it was carried out. A
success issued exactly one command, and left the port as the device left it. -/
structure Attends (engine : Engine) (command : Command) (port : SimulatedPort) (success : Bool)
    (after : SimulatedPort) (issued : Nat) : Prop where
  done : success = true ↔ engine.CarriesOut command port
  carried : success = true → issued = 1 ∧ engine.Carried command port after

variable {engine : Engine} {port between after : SimulatedPort} {command : Command}
  {outcome : Except CommandError Unit} {issued more : Nat}

/-- What is known of a command that was run passes to its request: a success leaves the port as the
command did, whereas a failure may be followed by more, such as asking for the sense. -/
theorem Conducts.attends (hconducts : engine.Conducts command port outcome between issued)
    (hsame : outcome = .ok () → after = between ∧ more = issued) :
    engine.Attends command port outcome.isOk after more := by
  have hsuccess : outcome.isOk = true ↔ outcome = .ok () := by
    cases outcome <;> simp [Except.isOk, Except.toBool]
  refine ⟨hsuccess.trans hconducts.done, ?_⟩
  intro hsucceeded
  have hdone := hsuccess.1 hsucceeded
  obtain ⟨rfl, rfl⟩ := hsame hdone
  exact hconducts.carried hdone

end Engine

namespace RequestM

/-- A request that runs one command ends with a known answer on a known port, whatever memory holds,
and the answer is a success just if the device carries the command out. -/
structure Settles (request : RequestM SimulatedPort α) (command : Command) (engine : Engine)
    (port : SimulatedPort) (answer : Except IoError α) (left : Engine) (after : SimulatedPort)
    (issued : Nat) : Prop where
  passes : request.run.Passes engine port answer left after issued
  attends : engine.Attends command port answer.isOk after issued

/-- A request that runs one command and succeeds with the answer of the device in the staging area.
Its end and the port it leaves do not depend on memory; the memory it leaves does. -/
structure Brings (request : RequestM SimulatedPort Unit) (command : Command) (engine : Engine)
    (port : SimulatedPort) (answer : Except IoError Unit) (left : Engine) (after : SimulatedPort)
    (issued : Nat) : Prop where
  yields : ∀ memory, ∃ changed, request.Yields engine ⟨port, memory⟩ (.ok (answer, left))
    ⟨after, changed⟩ issued ∧ (answer = .ok () → engine.Arrived command port.drive changed)
  fits : engine.Fits after
  left : ∃ sense, left = engine.told sense
  attends : engine.Attends command port answer.isOk after issued

variable {engine left : Engine} {port after : SimulatedPort} {command : Command} {issued : Nat}

/-- A request that settles a command from every port that fits depends on no memory. -/
theorem Oblivious.of_settles {request : RequestM SimulatedPort α} (command : Command)
    (hsettles : ∀ engine port, engine.Fits port → ∃ answer left after issued,
      request.Settles command engine port answer left after issued) : request.Oblivious := by
  refine EngineM.Oblivious.of_passes fun engine port hfits => ?_
  obtain ⟨answer, left, after, issued, hsettled⟩ := hsettles engine port hfits
  exact ⟨answer, left, after, issued, hsettled.passes⟩

/-- A command is run with an answer that two memories share if they hold the same data where the
command takes data from memory. So what the device is given decides the answer. -/
theorem exists_execute (hfits : engine.Fits port) (command : Command) (shown : Memory) :
    ∃ answer after issued, engine.Fits after ∧
      engine.Attends command port answer.isOk after issued ∧
      ∀ memory, (Drive.TakesData command.fis.opcode command.cdb →
          engine.payload command memory = engine.payload command shown) →
        ∃ changed, (execute command).Yields engine ⟨port, memory⟩ (.ok (answer, engine))
            ⟨after, changed⟩ issued ∧
          (answer = .ok () → engine.Arrived command port.drive changed) := by
  obtain ⟨outcome, between, issued, hconducts, hyields⟩ :=
    engine.exists_conduct hfits.steady hfits.layout command shown
  have hran := hconducts.ran
  cases outcome with
  | ok _ =>
    have hsettled := hfits.follows (hran.steady nofun) hran.follows
    have hattends := hconducts.attends fun _ => ⟨rfl, rfl⟩
    refine ⟨.ok (), between, issued, hsettled, hattends, ?_⟩
    intro memory hsame
    obtain ⟨changed, hended, harrived⟩ := hyields memory hsame
    exact ⟨changed, yields_execute_of_ok hended, fun _ => harrived rfl⟩
  | error error =>
    obtain ⟨after, hfailing, hsteady, hfollows⟩ :=
      EngineM.exists_fail hfits.steady hran command.label
    have hsettled := hfits.follows hsteady hfollows
    refine ⟨.error error.toIoError, after, issued, hsettled, hconducts.attends nofun, ?_⟩
    intro memory hsame
    obtain ⟨changed, hended, _⟩ := hyields memory hsame
    exact ⟨changed, yields_execute_of_error hended (hfailing changed), nofun⟩

/-- A command that takes no data from memory ends alike over every memory. -/
theorem exists_brings (hfits : engine.Fits port)
    (hfree : ¬ Drive.TakesData command.fis.opcode command.cdb) :
    ∃ answer after issued,
      (execute command).Brings command engine port answer engine after issued := by
  obtain ⟨answer, after, issued, hsettled, hattends, hyields⟩ := exists_execute hfits command {}
  refine ⟨answer, after, issued, ?_, hsettled, ⟨none, rfl⟩, hattends⟩
  intro memory
  exact hyields memory fun htakes => absurd htakes hfree

/-- A command that takes data ends alike over every memory if the request stored the data first,
since then the data is the only part of memory the command takes. -/
theorem exists_settles_of_sent (hfits : engine.Fits port) {data : List UInt8} {count : Nat}
    (htowards : command.data = .fromHost count) (hfew : count ≤ 65536)
    (hlong : data.length ≤ count) :
    ∃ answer after issued,
      (onEngine (EngineM.fillStaging data count) >>= fun _ => execute command).Settles command
        engine port answer engine after issued := by
  obtain ⟨answer, after, issued, hsettled, hattends, hyields⟩ :=
    exists_execute hfits command (staged engine data count {})
  refine ⟨answer, after, issued, ⟨?_, hsettled, none, rfl⟩, hattends⟩
  intro memory
  have hsent (memory : Memory) : engine.payload command (staged engine data count memory) =
      data ++ List.replicate (count - data.length) 0 := by
    rw [Engine.payload, htowards]
    exact load_staged hlong memory
  obtain ⟨changed, hended, _⟩ := hyields (staged engine data count memory) fun _ => by
    rw [hsent, hsent]
  exact ⟨changed, (yields_fillStaging port hfits.sized hfew hlong memory).seq hended⟩

namespace Brings

variable {request : RequestM SimulatedPort Unit} {bytes count : Nat} {data : List UInt8}
  {result : Except IoError β} {last : Engine}

theorem passes_of_error {error : IoError} {next : Unit → RequestM SimulatedPort β}
    (hbrings : request.Brings command engine port (.error error) left after issued) :
    (request >>= next).run.Passes engine port (.error error) left after issued := by
  refine ⟨?_, hbrings.fits, hbrings.left⟩
  intro memory
  obtain ⟨changed, hyields, _⟩ := hbrings.yields memory
  exact ⟨changed, hyields.bind_error⟩

/-- A request that goes on with what it reads of the staging area ends alike over every memory, if
the end depends on the first bytes only, as many as the device answered with. -/
theorem passes_of_ok (hbrings : request.Brings command engine port (.ok ()) left after issued)
    (hfits : engine.Fits port) (htowards : command.data = .toHost bytes)
    (htold : (port.drive.answer command.fis command.cdb).take bytes = data)
    (hfew : count ≤ 65536) (hlong : data.length ≤ count)
    {next : List UInt8 → RequestM SimulatedPort β}
    (hgoes : ∀ found, found.length = count → found.take data.length = data →
      (next found).run.Passes left after result last after 0) :
    (do
      request
      let found ← onEngine (EngineM.readStaging count)
      next found).run.Passes engine port result last after issued := by
  obtain ⟨sense, rfl⟩ := hbrings.left
  have hbegun (memory : Memory) (harrived : engine.Arrived command port.drive memory) :
      (memory.load (engine.areas.read.address 0) count).take data.length = data := by
    have hplaced := harrived bytes htowards
    dsimp only at hplaced
    rw [htold] at hplaced
    have hsplit := memory.load_add (engine.areas.read.address 0) data.length (count - data.length)
    rw [Nat.add_sub_cancel' hlong, hplaced] at hsplit
    rw [hsplit, List.take_left]
  have hsized : (engine.told sense).areas.Sized := hfits.sized
  obtain ⟨changed, _, harrived⟩ := hbrings.yields {}
  obtain ⟨more, rfl⟩ := (hgoes _ (Memory.length_load _ _ _) (hbegun changed (harrived rfl))).left
  refine ⟨?_, hbrings.fits, ⟨_, engine.told_told sense more⟩⟩
  intro memory
  obtain ⟨moved, hyields, harrived⟩ := hbrings.yields memory
  have hgoing := hgoes _ (Memory.length_load moved _ _) (hbegun moved (harrived rfl))
  obtain ⟨changed, hlate⟩ := hgoing.foretold moved
  have htaken := yields_readStaging after hsized hfew moved
  exact ⟨changed, hyields.finish (htaken.seq hlate)⟩

/-- A request that returns the bytes of its command ends alike over every memory, if the device
answers with as many bytes as are read. A success returns that many bytes. -/
theorem exists_settles_of_loads {answer : Except IoError Unit}
    (hbrings : request.Brings command engine port answer left after issued)
    (hfits : engine.Fits port) (htowards : command.data = .toHost bytes) (hfew : bytes ≤ 65536)
    (hwhole : engine.Carried command port after →
      (port.drive.answer command.fis command.cdb).length = bytes) :
    ∃ loaded : Except IoError (List UInt8),
      (do
        request
        onEngine (EngineM.readStaging bytes)).Settles command engine port loaded left after
          issued ∧
      ∀ data, loaded = .ok data → data.length = bytes := by
  cases answer with
  | error error => exact ⟨.error error, ⟨hbrings.passes_of_error, hbrings.attends⟩, nofun⟩
  | ok _ =>
    have hlength := hwhole (hbrings.attends.carried rfl).2
    obtain ⟨data, hanswered⟩ : ∃ data, port.drive.answer command.fis command.cdb = data := ⟨_, rfl⟩
    rw [hanswered] at hlength
    have htold : (port.drive.answer command.fis command.cdb).take bytes = data := by
      rw [hanswered, List.take_of_length_le (Nat.le_of_eq hlength)]
    have hsettled := hbrings.fits.of_told hbrings.left
    have hpasses : (request >>= fun _ => onEngine (EngineM.readStaging bytes) >>= pure).run.Passes
        engine port (.ok data) left after issued := by
      apply hbrings.passes_of_ok hfits htowards htold hfew (Nat.le_of_eq hlength)
      intro found hsize hbegun
      have hsame : found = data := by
        rwa [List.take_of_length_le] at hbegun
        rw [hsize]
        exact Nat.le_of_eq hlength.symm
      rw [hsame]
      exact EngineM.passes_pure hsettled (Except.ok data)
    simp only [bind_pure] at hpasses
    refine ⟨.ok data, ⟨hpasses, hbrings.attends⟩, ?_⟩
    rintro _ ⟨⟩
    exact hlength

end Brings

/-! The requests. -/

/-- IDENTIFY ends alike over every memory, and the page it returns on success is the page of the
drive. -/
theorem exists_settles_identify (hfits : engine.Fits port) :
    ∃ answer after issued,
      identify.Settles Command.identify engine port answer engine after issued ∧
      ∀ page, answer = .ok page → page.bytes = port.drive.page := by
  have hfree : ¬ Drive.TakesData Command.identify.fis.opcode Command.identify.cdb := by
    rintro ⟨_, hcode⟩
    revert hcode
    decide
  obtain ⟨answer, after, issued, hbrings⟩ := exists_brings hfits hfree
  cases answer with
  | error error => exact ⟨_, after, issued, ⟨hbrings.passes_of_error, hbrings.attends⟩, nofun⟩
  | ok _ =>
    let page : IdentifyPage := ⟨port.drive.page, hfits.regular.page⟩
    have htold : (port.drive.answer Command.identify.fis Command.identify.cdb).take
        IdentifyPage.size = page.bytes :=
      List.take_of_length_le (Nat.le_of_eq hfits.regular.page)
    have hpasses : identify.run.Passes engine port (.ok page) engine after issued := by
      apply hbrings.passes_of_ok hfits rfl htold (by decide) (Nat.le_of_eq hfits.regular.page)
      intro found hlength hbegun
      have hsame : found = page.bytes := by
        rwa [List.take_of_length_le] at hbegun
        rw [hlength]
        exact Nat.le_of_eq hfits.regular.page.symm
      rw [hsame, IdentifyPage.parse?_bytes]
      exact EngineM.passes_pure hbrings.fits (Except.ok page)
    refine ⟨.ok page, after, issued, ⟨hpasses, hbrings.attends⟩, ?_⟩
    rintro _ ⟨⟩
    rfl

/-- A read of at most 128 sectors ends alike over every memory, and returns as many bytes as it
asked for. -/
theorem exists_settles_readSectors (hfits : engine.Fits port) (lba : Nat) {sectors : Nat}
    (hsome : sectors ≠ 0) (hfew : sectors ≤ maxSectors) :
    ∃ answer after issued, (readSectors lba sectors).Settles (.readSectors lba sectors) engine
        port answer engine after issued ∧
      ∀ data, answer = .ok data → data.length = sectors * sectorSize := by
  have hfree : ¬ Drive.TakesData (Command.readSectors lba sectors).fis.opcode
      (Command.readSectors lba sectors).cdb := by
    rintro ⟨_, hcode⟩
    revert hcode
    change ¬ (Opcode.readDmaExt = Opcode.writeDmaExt ∨
      Opcode.readDmaExt = Opcode.dataSetManagement)
    decide
  obtain ⟨answer, after, issued, hbrings⟩ := exists_brings hfits hfree
  have hshort : sectors ≤ 128 := hfew
  have hwhole : engine.Carried (.readSectors lba sectors) port after →
      (port.drive.answer (Command.readSectors lba sectors).fis
        (Command.readSectors lba sectors).cdb).length = sectors * sectorSize := by
    rintro ⟨entries, left, built, changed, _, hran, _⟩
    have hkind : port.drive.kind = .disk := (Drive.run_of_done (congrArg Prod.fst hran)).1
    have hcount : (UInt16.ofNat sectors).toNat = sectors := by
      rw [UInt16.toNat_ofNat']
      omega
    change (port.drive.medium.read _ (UInt16.ofNat sectors).toNat).length = _
    rw [Medium.length_read, hcount, hfits.regular.sectors hkind]
  have hfit : sectors * sectorSize ≤ 65536 := by
    simp only [sectorSize]
    omega
  obtain ⟨loaded, hsettles, hlength⟩ := hbrings.exists_settles_of_loads hfits rfl hfit hwhole
  refine ⟨loaded, after, issued, ⟨?_, hsettles.attends⟩, hlength⟩
  rw [readSectors, run_require_bind]
  apply EngineM.Passes.guard (decide_eq_true hfew)
  rw [if_neg hsome]
  exact hsettles.passes

/-- A write of at most 128 sectors ends alike over every memory, given data that the sectors
hold. -/
theorem exists_settles_writeSectors (hfits : engine.Fits port) (lba : Nat) {sectors : Nat}
    (hsome : sectors ≠ 0) (hfew : sectors ≤ maxSectors) {data : List UInt8}
    (hlong : data.length ≤ sectors * sectorSize) :
    ∃ answer after issued, (writeSectors lba sectors data).Settles (.writeSectors lba sectors)
      engine port answer engine after issued := by
  have hshort : sectors ≤ 128 := hfew
  have hfit : sectors * sectorSize ≤ 65536 := by
    simp only [sectorSize]
    omega
  obtain ⟨answer, after, issued, hsettles⟩ := exists_settles_of_sent hfits
    (show (Command.writeSectors lba sectors).data = _ from rfl) hfit hlong
  refine ⟨answer, after, issued, ⟨?_, hsettles.attends⟩⟩
  rw [writeSectors, run_require_bind]
  apply EngineM.Passes.guard (decide_eq_true hfew)
  dsimp only
  rw [if_neg (by simp only [Bool.or_eq_true, decide_eq_true_eq]; omega)]
  exact hsettles.passes

/-- A discard of one range ends alike over every memory: the range is the only data it takes. -/
theorem exists_settles_discardRange (hfits : engine.Fits port) (range : Span) :
    ∃ answer after issued,
      (discardRange range).Settles .discard engine port answer engine after issued := by
  have hlong : (DiscardRange.encode range).length ≤ DiscardRange.blockSize := by
    simp [DiscardRange.encode, DiscardRange.blockSize]
  obtain ⟨answer, after, issued, hsettles⟩ := exists_settles_of_sent hfits
    (show Command.discard.data = _ from rfl) (by decide) hlong
  refine ⟨answer, after, issued, ⟨⟨?_, hsettles.passes.fits, hsettles.passes.left⟩,
    hsettles.attends⟩⟩
  intro memory
  obtain ⟨changed, hyields⟩ := hsettles.passes.foretold memory
  refine ⟨changed, ?_⟩
  exact (yields_withEngine (HostM.yields_note _ (by decide) _)).seq hyields

/-! Packet commands. -/

theorem free_of_packet (cdb : Cdb) (data : DataPhase) (label : String) :
    ¬ Drive.TakesData (Command.packet cdb data label).fis.opcode
      (Command.packet cdb data label).cdb := by
  rintro ⟨hnone, _⟩
  cases hnone

theorem exists_requestSense_passes (hfits : engine.Fits port) :
    ∃ answer left after issued,
      requestSense.run.Passes engine port answer left after issued := by
  obtain ⟨answer, after, issued, hbrings⟩ :=
    exists_brings hfits (free_of_packet (.requestSense SenseData.requestLength)
      (.toHost SenseData.requestLength.toNat) "request sense")
  cases answer with
  | error error => exact ⟨_, engine, after, issued, hbrings.passes_of_error⟩
  | ok _ =>
    have htold : (port.drive.answer Command.requestSense.fis Command.requestSense.cdb).take 18 =
      Drive.senseAnswer port.drive.pendingSense := rfl
    have hlength : (Drive.senseAnswer port.drive.pendingSense).length = 18 := rfl
    let sense := port.drive.explanation
    refine ⟨.ok sense, engine.told (some sense), after, issued, ?_⟩
    apply hbrings.passes_of_ok hfits rfl htold (by decide) (Nat.le_of_eq hlength)
    intro found hsize hbegun
    have hsame : found = Drive.senseAnswer port.drive.pendingSense := by
      rwa [List.take_of_length_le] at hbegun
      exact Nat.le_of_eq hsize
    rw [hsame, Drive.parse?_senseAnswer]
    refine ⟨?_, hbrings.fits, some sense, rfl⟩
    exact EngineM.foretold_of_still fun memory => yields_remember sense engine _

end RequestM

namespace EngineM

variable {engine : Engine} {port : SimulatedPort}

/-- Asking why a packet command failed ends alike over every memory, with an error in any case. -/
theorem exists_checkCondition_passes (hfits : engine.Fits port) (label : String) :
    ∃ error left after issued,
      (checkCondition label).Passes engine port error left after issued := by
  obtain ⟨answer, left, after, issued, hpasses⟩ := RequestM.exists_requestSense_passes hfits
  have hsettled := hpasses.fits.of_told hpasses.left
  have hnoted (error : IoError) (explanation : String) :
      (do
        noteSense label error explanation
        return error : EngineM SimulatedPort IoError).Passes left after error left after (0 + 0) :=
    (passes_note hsettled .warn _ (by decide)).bind (passes_pure hsettled error)
  cases answer with
  | ok sense => exact ⟨_, left, after, _, hpasses.bind (hnoted _ _)⟩
  | error error => exact ⟨_, left, after, _, hpasses.bind (hnoted _ _)⟩

/-- A packet command ends alike over every memory, and so does asking why it failed. -/
theorem exists_packet_brings (hfits : engine.Fits port) (cdb : Cdb) (data : DataPhase)
    (label : String) :
    ∃ answer left after issued, (RequestM.packet cdb data label).Brings (.packet cdb data label)
      engine port answer left after issued := by
  obtain ⟨outcome, between, issued, hconducts, hyields⟩ :=
    engine.exists_conduct hfits.steady hfits.layout (.packet cdb data label) {}
  have halways (memory : Memory) :=
    hyields memory fun htakes => absurd htakes (RequestM.free_of_packet cdb data label)
  have hran := hconducts.ran
  cases outcome with
  | ok _ =>
    have hsettled := hfits.follows (hran.steady nofun) hran.follows
    have hattends := hconducts.attends fun _ => ⟨rfl, rfl⟩
    refine ⟨.ok (), engine, between, issued, ?_, hsettled, ⟨none, rfl⟩, hattends⟩
    intro memory
    obtain ⟨changed, hended, harrived⟩ := halways memory
    exact ⟨changed, yields_packet_of_ok hended, fun _ => harrived rfl⟩
  | error error =>
    by_cases hcheck : error = .checkCondition
    · subst hcheck
      obtain ⟨_, _, _, hup⟩ := hran.up
      have hrested := hfits.follows (hran.rested hfits.steady)
        (hran.follows.trans (between.follows_withRegisters _))
      obtain ⟨failure, left, after, more, hexplained⟩ := exists_checkCondition_passes hrested label
      refine ⟨.error failure, left, after, issued + (0 + (more + 0)), ?_, hexplained.fits,
        hexplained.left, hconducts.attends nofun⟩
      intro memory
      obtain ⟨moved, hended, _⟩ := halways memory
      obtain ⟨changed, hlate⟩ := hexplained.foretold moved
      refine ⟨changed, hended.bind ?_, nofun⟩
      refine (yields_withEngine (Engine.yields_recover hfits.steady.patient hup moved)).bind ?_
      exact hlate.bind (yields_pure _ left _)
    · obtain ⟨after, hfailing, hsteady, hfollows⟩ := exists_fail hfits.steady hran label
      have hsettled := hfits.follows hsteady hfollows
      refine ⟨.error error.toIoError, engine, after, issued, ?_, hsettled, ⟨none, rfl⟩,
        hconducts.attends nofun⟩
      intro memory
      obtain ⟨changed, hended, _⟩ := halways memory
      exact ⟨changed, yields_packet_of_error hended hcheck (hfailing changed), nofun⟩

end EngineM

namespace RequestM

variable {engine : Engine} {port : SimulatedPort}

theorem exists_inquiry_passes (hfits : engine.Fits port) (length : UInt8) :
    ∃ answer left after issued,
      (inquiry length).run.Passes engine port answer left after issued := by
  obtain ⟨answer, left, after, issued, hbrings⟩ := EngineM.exists_packet_brings hfits
    (.inquiry length) (.toHost (length.toNat + length.toNat % 2)) "inquiry"
  cases answer with
  | error error => exact ⟨_, left, after, issued, hbrings.passes_of_error⟩
  | ok _ =>
    obtain ⟨data, hmade⟩ : ∃ data, Drive.inquiryAnswer.take length.toNat = data := ⟨_, rfl⟩
    have hsize : data.length = min length.toNat 96 := by
      rw [← hmade, List.length_take]
      rfl
    have htold : (port.drive.answer (Command.packet (.inquiry length)
        (.toHost (length.toNat + length.toNat % 2)) "inquiry").fis
          (some (.inquiry length))).take (length.toNat + length.toNat % 2) = data := by
      rw [Drive.answer_inquiry, hmade, List.take_of_length_le]
      omega
    have hsettled := hbrings.fits.of_told hbrings.left
    have hbyteSized := length.toNat_lt
    let parsed : Except IoError InquiryData :=
      (InquiryData.parse? data).elim (.error .deviceError) .ok
    refine ⟨parsed, left, after, issued, ?_⟩
    apply hbrings.passes_of_ok hfits rfl htold (by omega) (by omega)
    intro found hlong hbegun
    simp only [parsed, InquiryData.parse?_of_begun hbegun (by omega)]
    cases InquiryData.parse? data with
    | some inquiry => exact EngineM.passes_pure hsettled (Except.ok inquiry)
    | none => exact EngineM.passes_pure hsettled (Except.error IoError.deviceError)

/-- A read of at most 32 blocks with READ(12) ends alike over every memory, and returns as many
bytes as it asked for. The first block has to fit the 32 bits that the packet has for it. -/
theorem exists_settles_readBlocks (hfits : engine.Fits port) {lba blocks : Nat}
    (hsome : blocks ≠ 0) (hfew : blocks ≤ maxDriveBlocks) (hlow : lba < UInt32.size) :
    ∃ answer left after issued, (readBlocks lba blocks).Settles (.readBlocks lba blocks) engine
        port answer left after issued ∧
      ∀ data, answer = .ok data → data.length = blocks * driveBlockSize := by
  obtain ⟨answer, left, after, issued, hbrings⟩ := EngineM.exists_packet_brings hfits
    (.read (UInt32.ofNat lba) (UInt32.ofNat blocks)) (.toHost (blocks * driveBlockSize))
    "atapi read"
  have hshort : blocks ≤ 32 := hfew
  have hwhole : engine.Carried (.readBlocks lba blocks) port after →
      (port.drive.answer (Command.readBlocks lba blocks).fis
        (Command.readBlocks lba blocks).cdb).length = blocks * driveBlockSize := by
    rintro ⟨entries, left, built, changed, _, hran, _⟩
    have hkind : port.drive.kind = .packetDrive := (Drive.run_of_done (congrArg Prod.fst hran)).1
    have hcount : (UInt32.ofNat blocks).toNat = blocks := by
      rw [UInt32.toNat_ofNat']
      omega
    have hanswered := port.drive.answer_read (Command.readBlocks lba blocks).fis
      (UInt32.ofNat lba) (UInt32.ofNat blocks)
    refine (congrArg List.length hanswered).trans ?_
    rw [Medium.length_read, hcount, hfits.regular.blocks hkind]
  have hfit : blocks * driveBlockSize ≤ 65536 := by
    simp only [driveBlockSize]
    omega
  obtain ⟨loaded, hsettles, hlength⟩ := hbrings.exists_settles_of_loads hfits rfl hfit hwhole
  refine ⟨loaded, left, after, issued, ⟨?_, hsettles.attends⟩, hlength⟩
  rw [readBlocks, run_require_bind]
  apply EngineM.Passes.guard (decide_eq_true hfew)
  rw [if_neg hsome, if_neg (Nat.not_le_of_lt hlow)]
  exact hsettles.passes

end RequestM

end Ahci
