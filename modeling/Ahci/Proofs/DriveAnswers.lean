import Ahci.Proofs.PortService

/-!
What a device answers, said without the memory that the answer passes through. A drive looks
at memory only for the data of a write or of a discard, and it changes memory only by the data
that it answers with. So what becomes of a command on a steady port is known from the port and
from the data that the driver staged for it, whatever else the memory holds.
-/

namespace Ahci

/-- A packet says in a byte how much data is asked for. -/
theorem Cdb.length_within : 4 < Cdb.size := by decide

namespace Drive

/-- Whether a command reads data from memory: writes and discards without a packet do, and no
other. -/
def TakesData (opcode : UInt8) (cdb : Option Cdb) : Prop :=
  cdb = none ∧ (opcode = Opcode.writeDmaExt ∨ opcode = Opcode.dataSetManagement)

/-- Whether a command is of the kind that the drive carries out: with a packet for a packet drive,
without one for a disk. -/
def Speaks (drive : Drive) (cdb : Option Cdb) : Prop :=
  match cdb with
  | none => drive.kind = .disk
  | some _ => drive.kind = .packetDrive

/-- The data with which a drive answers a command that it carries out; for most commands there is
none. -/
def answer (drive : Drive) (fis : HostFis) (cdb : Option Cdb) : List UInt8 :=
  match cdb with
  | none =>
    if fis.opcode = Opcode.identifyDevice then drive.page
    else if fis.opcode = Opcode.readDmaExt then
      drive.medium.read fis.lba.toNat fis.count.toNat
    else []
  | some cdb =>
    if cdb.opcode = Cdb.inquiryCode then inquiryAnswer.take (cdb.byte 4 Cdb.length_within).toNat
    else if cdb.opcode = Cdb.requestSenseCode then
      (senseAnswer drive.pendingSense).take (cdb.byte 4 Cdb.length_within).toNat
    else if cdb.opcode = Cdb.readCode then drive.medium.read cdb.readLba cdb.readBlocks
    else []

variable {drive : Drive} {command : FetchedCommand} {memory other : Memory}

theorem scatterData_nil (entries : List ScatterEntry) (memory : Memory) :
    scatterData entries [] memory = memory := by
  induction entries generalizing memory with
  | nil => rfl
  | cons entry rest ih =>
    rw [scatterData, List.drop_nil, List.take_nil, Memory.store_nil]
    exact ih memory

/-- The end of a command without a packet and the drive it leaves depend on memory only by the data
that the command takes. -/
theorem runAta_congr (hsame : TakesData command.fis.opcode none →
      gatherData command.entries memory = gatherData command.entries other) :
    (drive.runAta command memory).1 = (drive.runAta command other).1 ∧
      (drive.runAta command memory).2.1 = (drive.runAta command other).2.1 := by
  unfold runAta
  dsimp only
  split
  · exact ⟨rfl, rfl⟩
  · split
    · split <;> exact ⟨rfl, rfl⟩
    · split
      · next hwrite =>
        rw [hsame ⟨rfl, .inl hwrite⟩]
        split <;> exact ⟨rfl, rfl⟩
      · split
        · next hdiscard =>
          rw [hsame ⟨rfl, .inr hdiscard.1⟩]
          exact ⟨rfl, rfl⟩
        · exact ⟨rfl, rfl⟩

/-- The end of a packet command and the drive it leaves do not depend on memory. -/
theorem runPacket_congr (cdb : Cdb) (entries : List ScatterEntry) :
    (drive.runPacket cdb entries memory).1 = (drive.runPacket cdb entries other).1 ∧
      (drive.runPacket cdb entries memory).2.1 = (drive.runPacket cdb entries other).2.1 := by
  unfold runPacket
  dsimp only
  repeat' split
  all_goals exact ⟨rfl, rfl⟩

/-- The end of a command and the drive it leaves depend on memory only by the data that the command
takes. -/
theorem run_congr (hsame : TakesData command.fis.opcode command.cdb →
      gatherData command.entries memory = gatherData command.entries other) :
    (drive.run command memory).1 = (drive.run command other).1 ∧
      (drive.run command memory).2.1 = (drive.run command other).2.1 := by
  unfold run
  split
  · exact ⟨rfl, rfl⟩
  · exact ⟨rfl, rfl⟩
  · unfold runSound
    split
    · next hplain =>
      rw [hplain] at hsame
      exact runAta_congr hsame
    · split
      · exact runPacket_congr _ _
      · exact ⟨rfl, rfl⟩
    · exact ⟨rfl, rfl⟩

/-- How a command ends does not depend on memory at all, not even by the data it takes. -/
theorem ending_run (drive : Drive) (command : FetchedCommand) (memory other : Memory) :
    (drive.run command memory).1 = (drive.run command other).1 := by
  unfold run
  split
  · rfl
  · rfl
  · unfold runSound
    split
    · unfold runAta
      dsimp only
      repeat' split
      all_goals rfl
    · split
      · exact (runPacket_congr _ _).1
      · rfl
    · rfl

/-- An ATA command that is carried out leaves its answer in memory and nothing else. -/
theorem runAta_of_done (hdone : (drive.runAta command memory).1 = .done) :
    (drive.runAta command memory).2.2 =
      scatterData command.entries (drive.answer command.fis none) memory := by
  unfold runAta at hdone ⊢
  unfold answer
  dsimp only at hdone ⊢
  split
  · rfl
  · next hother =>
    rw [if_neg hother] at hdone
    split
    · next hread =>
      rw [if_pos hread] at hdone
      split
      · rfl
      · next hlacks =>
        rw [if_neg hlacks] at hdone
        cases hdone
    · rw [scatterData_nil]
      repeat' split
      all_goals rfl

/-- A packet command that is carried out leaves its answer in memory and nothing else. -/
theorem runPacket_of_done {cdb : Cdb} {entries : List ScatterEntry} (fis : HostFis)
    (hdone : (drive.runPacket cdb entries memory).1 = .done) :
    (drive.runPacket cdb entries memory).2.2 =
      scatterData entries (drive.answer fis (some cdb)) memory := by
  unfold runPacket at hdone ⊢
  unfold answer
  dsimp only at hdone ⊢
  split
  · rfl
  · next hnoInquiry =>
    rw [if_neg hnoInquiry] at hdone
    split
    · rfl
    · next hnoSense =>
      rw [if_neg hnoSense] at hdone
      split
      · next hread =>
        rw [if_pos hread] at hdone
        split
        · next hopened =>
          rw [if_pos hopened] at hdone
          cases hdone
        · next hclosed =>
          rw [if_neg hclosed] at hdone
          split
          · rfl
          · next hlacks =>
            rw [if_neg hlacks] at hdone
            cases hdone
      · rw [scatterData_nil]
        repeat' split
        all_goals rfl

/-- A command that is carried out is of the kind of the drive, and changes memory by its answer
only. -/
theorem run_of_done (hdone : (drive.run command memory).1 = .done) :
    drive.Speaks command.cdb ∧ (drive.run command memory).2.2 =
      scatterData command.entries (drive.answer command.fis command.cdb) memory := by
  unfold run at hdone ⊢
  split
  · next htaken =>
    rw [htaken] at hdone
    cases hdone
  · next htaken =>
    rw [htaken] at hdone
    cases hdone
  · next huntouched =>
    rw [huntouched] at hdone
    unfold runSound at hdone ⊢
    dsimp only at hdone
    split
    · next hkind hplain =>
      rw [hkind, hplain] at hdone
      rw [hplain]
      exact ⟨hkind, runAta_of_done hdone⟩
    · next cdb hkind hpacket =>
      rw [hkind, hpacket] at hdone
      dsimp only at hdone
      rw [hpacket]
      split
      · next hcode =>
        rw [if_pos hcode] at hdone
        exact ⟨hkind, runPacket_of_done command.fis hdone⟩
      · next hcode =>
        rw [if_neg hcode] at hdone
        cases hdone
    · next hkind hpacket =>
      revert hdone
      split
      · next hisDisk hplain => exact absurd hplain (hkind hisDisk)
      · next cdb hisDrive hsome => exact absurd hsome (hpacket cdb hisDrive)
      · exact nofun

end Drive

/-- The driver reports a success only if the command was carried out. -/
theorem Ending.done_of_outcome {ending : Ending} {packet : Bool}
    (hended : ending.outcome packet = .ok ()) : ending = .done := by
  cases ending with
  | done => rfl
  | taskFile error => cases hended
  | checkCondition sense => cases hended

/-- A command is answered alike before and behind its way through memory, since only reserved bytes
of its frame are lost there. -/
theorem Drive.answer_fetched (drive : Drive) (command : Command) (slot : Nat)
    (entries : List ScatterEntry) :
    drive.answer (command.fetched slot entries).fis (command.fetched slot entries).cdb =
      drive.answer command.fis command.cdb := by
  change drive.answer { command.fis with reserved := 0 } command.cdb = _
  unfold answer
  cases command.cdb <;> rfl

/-! One command, whatever the memory holds. -/

namespace EngineM

theorem Yields.unique {σ α : Type} {step : EngineM σ α} {engine : Engine}
    {before after other : Machine σ} {result answer : Except Halt (α × Engine)} {m n : Nat}
    (hone : step.Yields engine before result after m)
    (htwo : step.Yields engine before answer other n) :
    answer = result ∧ other = after ∧ n = m := by
  let world : World σ :=
    { device := before.device, memory := before.memory, allocator := fun _ _ => .error .timeout }
  obtain ⟨later, hended, haround, hprogress⟩ := hone world rfl
  obtain ⟨later_, hended', haround', hprogress'⟩ := htwo world rfl
  rw [hended] at hended'
  cases hended'
  refine ⟨rfl, haround'.symm.trans haround, ?_⟩
  have hissues := hprogress.issues
  rw [hprogress'.issues] at hissues
  omega

end EngineM

namespace Engine

/-- What the driver finds of the answer of a command that the drive carried out: the read staging
area begins with it, cut to the bytes asked for. -/
def Arrived (engine : Engine) (command : Command) (drive : Drive) (memory : Memory) : Prop :=
  ∀ bytes, command.data = .toHost bytes →
    let data := (drive.answer command.fis command.cdb).take bytes
    memory.load (engine.areas.read.address 0) data.length = data

/-- Whether the device behind a port takes a command and carries it out: it can be described, the
port is willing, and the drive ends it well. -/
def CarriesOut (engine : Engine) (command : Command) (port : SimulatedPort) : Prop :=
  port.Willing ∧ ∃ entries, engine.scatter command = .ok entries ∧
    (port.drive.run (command.fetched 0 entries) {}).1 = .done

/-- A port comes from another by one command that its device carried out, in slot 0. -/
def Carried (engine : Engine) (command : Command) (port after : SimulatedPort) : Prop :=
  ∃ entries left built changed, engine.scatter command = .ok entries ∧
    port.drive.run (command.fetched 0 entries) built = (.done, left, changed) ∧
    after = port.served engine.areas (command.fetched 0 entries) .done left

/-- What becomes of a command on a steady port: the port it leaves, and that it succeeded just if
the device carried it out, and then with a single issue. -/
structure Conducts (engine : Engine) (command : Command) (port : SimulatedPort)
    (outcome : Except CommandError Unit) (after : SimulatedPort) (issued : Nat) : Prop where
  ran : engine.Ran port outcome after
  done : outcome = .ok () ↔ engine.CarriesOut command port
  carried : outcome = .ok () → issued = 1 ∧ engine.Carried command port after

variable {engine : Engine} {port after : SimulatedPort} {command : Command}
  {outcome : Except CommandError Unit} {memory changed : Memory} {issued : Nat}

/-- However a command on a steady port is found to end, the port is one that a command can leave. -/
theorem ran_of_yields (hsteady : engine.Steady port)
    (hyields : (EngineM.runCommand command).Yields engine ⟨port, memory⟩ (.ok (outcome, engine))
      ⟨after, changed⟩ issued) : engine.Ran port outcome after := by
  obtain ⟨found, reached, other, count, hended, hran⟩ :=
    EngineM.exists_runCommand hsteady command memory
  obtain ⟨hsame, hdevice, _⟩ := hyields.unique hended
  cases hsame
  cases hdevice
  exact hran

theorem conducts_of_refused (hsteady : engine.Steady port)
    (hyields : (EngineM.runCommand command).Yields engine ⟨port, memory⟩ (.ok (outcome, engine))
      ⟨after, changed⟩ issued) (hrefused : ¬ engine.CarriesOut command port)
    (hfailed : outcome ≠ .ok ()) : engine.Conducts command port outcome after issued := by
  refine ⟨ran_of_yields hsteady hyields, ?_, ?_⟩
  · constructor
    · intro hdone
      exact absurd hdone hfailed
    · intro hcarries
      exact absurd hcarries hrefused
  · intro hdone
    exact absurd hdone hfailed

variable {entries : List ScatterEntry} {ending : Ending} {left : Drive}

/-- The answer of a command that was carried out is found in memory. -/
theorem arrived_of_run (hlayout : engine.areas.Layout)
    (hformed : engine.scatter command = .ok entries)
    (hran : port.drive.run (command.fetched 0 entries) (engine.build 0 command entries memory) =
      (.done, left, changed)) : engine.Arrived command port.drive changed := by
  have hfirst : 0 < slotCount := by decide
  have hdelivered := (transfer_run hlayout hfirst hformed memory).2.2
  have hcarried := (Drive.run_of_done (congrArg Prod.fst hran)).2
  rw [hran, Drive.answer_fetched] at hcarried
  have hstored : changed = scatterData entries (port.drive.answer command.fis command.cdb)
      (engine.build 0 command entries memory) := hcarried
  intro bytes htowards
  dsimp only
  rw [hstored, hdelivered, deliver, htowards]
  apply Memory.load_store

/-- Two memories that hold the same data for a command are built into memories that the drive cannot
tell apart by it. -/
theorem run_build_congr (hlayout : engine.areas.Layout)
    (hformed : engine.scatter command = .ok entries) {shown : Memory}
    (hsame : Drive.TakesData command.fis.opcode command.cdb →
      engine.payload command memory = engine.payload command shown)
    (hran : port.drive.run (command.fetched 0 entries) (engine.build 0 command entries shown) =
      (ending, left, changed)) :
    ∃ other, port.drive.run (command.fetched 0 entries) (engine.build 0 command entries memory) =
      (ending, left, other) := by
  have hfirst : 0 < slotCount := by decide
  have hgathered (memory : Memory) : gatherData (command.fetched 0 entries).entries
      (engine.build 0 command entries memory) = engine.payload command memory :=
    (transfer_run hlayout hfirst hformed memory).2.1
  have halike : (port.drive.run (command.fetched 0 entries)
        (engine.build 0 command entries memory)).1 = (port.drive.run (command.fetched 0 entries)
          (engine.build 0 command entries shown)).1 ∧
      (port.drive.run (command.fetched 0 entries)
        (engine.build 0 command entries memory)).2.1 = (port.drive.run (command.fetched 0 entries)
          (engine.build 0 command entries shown)).2.1 := by
    apply Drive.run_congr
    intro htakes
    rw [hgathered, hgathered]
    exact hsame htakes
  rcases hruns : port.drive.run (command.fetched 0 entries)
    (engine.build 0 command entries memory) with ⟨found, rest, other⟩
  rw [hruns, hran] at halike
  obtain ⟨rfl, rfl⟩ := halike
  exact ⟨other, rfl⟩

/-- A command on a willing port ends as the drive ends it. -/
theorem conducts_of_run (hsteady : engine.Steady port) (hlayout : engine.areas.Layout)
    (hwilling : port.Willing) (hformed : engine.scatter command = .ok entries)
    (hran : port.drive.run (command.fetched 0 entries) (engine.build 0 command entries memory) =
      (ending, left, changed)) :
    engine.Conducts command port (ending.outcome command.isPacket)
      (port.served engine.areas (command.fetched 0 entries) ending left) 1 := by
  have hyields := EngineM.yields_runCommand_of_run hsteady hlayout hwilling hformed hran
  have hended : (port.drive.run (command.fetched 0 entries) {}).1 = ending := by
    rw [Drive.ending_run _ _ _ (engine.build 0 command entries memory), hran]
  refine ⟨ran_of_yields hsteady hyields, ?_, ?_⟩
  · constructor
    · intro hdone
      exact ⟨hwilling, entries, hformed, hended.trans (Ending.done_of_outcome hdone)⟩
    · rintro ⟨_, others, hformed', hdone⟩
      rw [hformed] at hformed'
      cases hformed'
      rw [← hended, hdone]
      rfl
  · intro hdone
    cases Ending.done_of_outcome hdone
    exact ⟨rfl, entries, left, _, changed, hformed, hran, rfl⟩

/-- How a command on a steady port with sound areas ends, the port it leaves and how often it is
issued are the same over all memories that hold the same data for it, and for most commands over all
memories. If it succeeds, its answer is found in memory. -/
theorem exists_conduct (hsteady : engine.Steady port) (hlayout : engine.areas.Layout)
    (command : Command) (shown : Memory) :
    ∃ outcome after issued, engine.Conducts command port outcome after issued ∧
      ∀ memory, (Drive.TakesData command.fis.opcode command.cdb →
          engine.payload command memory = engine.payload command shown) →
        ∃ changed, (EngineM.runCommand command).Yields engine ⟨port, memory⟩
            (.ok (outcome, engine)) ⟨after, changed⟩ issued ∧
          (outcome = .ok () → engine.Arrived command port.drive changed) := by
  cases hformed : engine.scatter command with
  | error error =>
    have hyields := EngineM.yields_runCommand_of_malformed hsteady hformed
    have hrefused : ¬ engine.CarriesOut command port := by
      rintro ⟨_, entries, hformed', _⟩
      rw [hformed] at hformed'
      cases hformed'
    refine ⟨_, _, 0, conducts_of_refused hsteady (hyields shown) hrefused nofun, ?_⟩
    intro memory _
    exact ⟨_, hyields memory, nofun⟩
  | ok entries =>
    cases hbusy : port.busy with
    | true =>
      have hyields := EngineM.yields_runCommand_of_busy hsteady hformed hbusy
      have hrefused : ¬ engine.CarriesOut command port := by
        rintro ⟨hwilling, _⟩
        exact absurd (hbusy.symm.trans hwilling.prompt) nofun
      refine ⟨_, _, 0, conducts_of_refused hsteady (hyields shown) hrefused nofun, ?_⟩
      intro memory _
      exact ⟨_, hyields memory, nofun⟩
    | false =>
      cases hstalled : port.stalled with
      | true =>
        have hyields := EngineM.yields_runCommand_of_stalled hsteady hformed hbusy hstalled
        have hrefused : ¬ engine.CarriesOut command port := by
          rintro ⟨hwilling, _⟩
          exact absurd (hstalled.symm.trans hwilling.moving) nofun
        refine ⟨_, _, 1, conducts_of_refused hsteady (hyields shown) hrefused nofun, ?_⟩
        intro memory _
        exact ⟨_, hyields memory, nofun⟩
      | false =>
        have hwilling : port.Willing := ⟨hbusy, hstalled⟩
        rcases hran : port.drive.run (command.fetched 0 entries)
          (engine.build 0 command entries shown) with ⟨ending, left, changed⟩
        refine ⟨_, _, 1, conducts_of_run hsteady hlayout hwilling hformed hran, ?_⟩
        intro memory hsame
        obtain ⟨other, hran⟩ := run_build_congr hlayout hformed hsame hran
        refine ⟨other, EngineM.yields_runCommand_of_run hsteady hlayout hwilling hformed hran, ?_⟩
        intro hdone
        rw [Ending.done_of_outcome hdone] at hran
        exact arrived_of_run hlayout hformed hran

end Engine

end Ahci
