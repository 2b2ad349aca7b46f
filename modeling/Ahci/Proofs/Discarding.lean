import Ahci.Proofs.BlockCommands

/-!
Ranges that a disk is told to discard. A disk that can discard is told of one range with each
command, one range behind the other, until all are told or a command fails; a device that
cannot is not told at all. Its data are the same either way.
-/

namespace Ahci

/-- A page with the announcement has the bit in word 169 that tells of discards, and no other
there. -/
theorem IdentifyPage.word_of_announced {page : IdentifyPage} {other : List UInt8}
    (hmade : page.bytes = PageBuilder.announceTrim other) (hlength : other.length = 512) :
    page.word 169 = 1 := by
  have hput : field (PageBuilder.putWords other ([(69, 0x4000), (105, 1)] ++ [(169, 1)]))
      (2 * 169) 2 = 1 % byteRange 2 := by
    apply PageBuilder.field_putWords
    · rw [hlength]
      simp
    · exact nofun
  rw [word, number, hmade]
  exact hput

/-! What a disk reads of one range. -/

/-- A block that holds one encoded range and zeros behind it names just that range, as it is
decoded, because a range without sectors names nothing. -/
theorem Drive.rangesIn_padded (range : Span) :
    Drive.rangesIn (DiscardRange.encode range ++
      List.replicate (DiscardRange.blockSize - (DiscardRange.encode range).length) 0) =
        [DiscardRange.decode (DiscardRange.encode range)].filter (·.count != 0) := by
  have hlength : (DiscardRange.encode range).length = 8 := by simp [DiscardRange.encode]
  have hfirst : (DiscardRange.encode range ++ List.replicate 504 0).take 8 =
      DiscardRange.encode range := by
    rw [← hlength, List.take_left]
  have hothers : ∀ index < 63, ((DiscardRange.encode range ++ List.replicate 504 0).drop
      (8 * (index + 1))).take 8 = List.replicate 8 0 := by
    intro index hwithin
    have hbehind : 8 * (index + 1) = (DiscardRange.encode range).length + 8 * index := by omega
    rw [hbehind, ← List.drop_drop, List.drop_left, List.drop_replicate, List.take_replicate]
    congr 1
    omega
  have hnothing : DiscardRange.decode (List.replicate 8 0) = ⟨0, 0⟩ := by decide
  have hsilent : ((List.range 63).map ((fun index => DiscardRange.decode
      (((DiscardRange.encode range ++ List.replicate 504 0).drop (8 * index)).take 8)) ∘
        Nat.succ)).filter (·.count != 0) = [] := by
    apply List.filter_eq_nil_iff.2
    intro found hmember
    obtain ⟨index, hwithin, hsame⟩ := List.mem_map.1 hmember
    rw [Function.comp_apply, hothers index (List.mem_range.1 hwithin), hnothing] at hsame
    subst hsame
    decide
  have hroom : (DiscardRange.encode range ++ List.replicate 504 0).length / 8 = 63 + 1 := by
    rw [List.length_append, hlength, List.length_replicate]
  have hrest : DiscardRange.blockSize - (DiscardRange.encode range).length = 504 := by
    rw [hlength]
    rfl
  rw [Drive.rangesIn, hrest, hroom, List.range_succ_eq_map, List.map_cons, List.map_map,
    List.filter_cons, hsilent, Nat.mul_zero, List.drop_zero, hfirst, List.filter_cons,
    List.filter_nil]

/-- A range of 1 to 65535 sectors below 2^48 is read back from the block it is sent in. -/
theorem Drive.rangesIn_encode {range : Span} (hsome : 0 < range.count)
    (hfew : range.count ≤ DiscardRange.maxSectors) (hlow : range.first < 0x1000000000000) :
    Drive.rangesIn (DiscardRange.encode range ++
      List.replicate (DiscardRange.blockSize - (DiscardRange.encode range).length) 0) =
        [range] := by
  have hnamed : DiscardRange.decode (DiscardRange.encode range) = range := by
    have hwidth : range.first % byteRange 6 = range.first := Nat.mod_eq_of_lt hlow
    have hcount : range.count % byteRange 2 = range.count :=
      Nat.mod_eq_of_lt (Nat.lt_of_le_of_lt hfew (by decide))
    rw [DiscardRange.decode_encode, hwidth, hcount]
  rw [Drive.rangesIn_padded, hnamed]
  exact List.filter_cons_of_pos (bne_iff_ne.2 (Nat.ne_of_gt hsome))

/-! Commands that fail whatever they ask for. -/

/-- How a command ends that takes a fault. -/
def Fault.ending : Fault → Ending
  | .taskFile error => .taskFile error
  | .sense data => .checkCondition data

/-- The error that a command without a packet meets before the device looks at what it asks for: a
busy port, a stalled port, or a fault queued for the code. -/
def SimulatedPort.declines? (port : SimulatedPort) (opcode : UInt8) : Option IoError :=
  if port.busy then some .notReady
  else if port.stalled then some .timeout
  else (port.drive.takeFault opcode).map fun (fault, _) => fault.ending.failure

/-- A port declines no command of a code exactly if it is neither busy nor stalled and no fault is
queued for the code. -/
theorem SimulatedPort.declines?_eq_none_iff {port : SimulatedPort} {opcode : UInt8} :
    port.declines? opcode = none ↔ port.Willing ∧ port.drive.takeFault opcode = none := by
  unfold declines?
  constructor
  · intro haccepts
    split at haccepts
    · cases haccepts
    · next hprompt =>
      split at haccepts
      · cases haccepts
      · next hmoving =>
        have hwilling : port.Willing := ⟨by simpa using hprompt, by simpa using hmoving⟩
        exact ⟨hwilling, Option.map_eq_none_iff.1 haccepts⟩
  · rintro ⟨hwilling, huntouched⟩
    rw [hwilling.prompt, hwilling.moving, huntouched]
    rfl

/-- A port behind one command that failed: the medium and the recorded ranges of the drive are as
they were, at most one command was issued, and the device fetched just the given one or none. -/
structure SimulatedPort.Spares (port : SimulatedPort) (command : FetchedCommand)
    (after : SimulatedPort) (issued : Nat) : Prop where
  few : issued ≤ 1
  medium : after.drive.medium = port.drive.medium
  discarded : after.drive.discarded = port.drive.discarded
  fetched : after.fetched = port.fetched ∨ issued = 1 ∧ after.fetched = command :: port.fetched

namespace Drive

variable {drive left : Drive} {opcode : UInt8} {fault : Fault}

/-- A fault that is reported is forgotten, which changes neither the nameplate nor the medium nor
the recorded ranges. -/
theorem left_of_takeFault (htaken : drive.takeFault opcode = some (fault, left)) :
    left.nameplate = drive.nameplate ∧ left.medium = drive.medium ∧
      left.discarded = drive.discarded := by
  unfold takeFault at htaken
  split at htaken
  · cases htaken
    exact ⟨rfl, rfl, rfl⟩
  · cases htaken

/-- A command for which a fault is queued ends as the fault tells, and memory is left alone. -/
theorem run_of_takeFault {command : FetchedCommand}
    (htaken : drive.takeFault command.fis.opcode = some (fault, left)) (memory : Memory) :
    drive.run command memory = (fault.ending, left, memory) := by
  rw [run, htaken]
  cases fault <;> rfl

end Drive

namespace RequestM

variable {engine : Engine} {port : SimulatedPort} {command : Command}

/-- A request whose command the port declines fails with that error over every memory, and changes
nothing of the drive but the fault it took. -/
theorem exists_execute_of_declined (hfits : engine.Fits port) (hplain : command.cdb = none)
    {entries : List ScatterEntry} (hformed : engine.scatter command = .ok entries)
    {error : IoError} (hdeclined : port.declines? command.fis.opcode = some error) :
    ∃ after issued, engine.Fits after ∧ port.Spares (command.fetched 0 entries) after issued ∧
      ∀ memory, ∃ changed, (execute command).Yields engine ⟨port, memory⟩
        (.ok (.error error, engine)) ⟨after, changed⟩ issued := by
  have hrested (other : SimulatedPort) (hdrive : other.drive.nameplate = port.drive.nameplate)
      (hstalled : other.stalled = port.stalled) : engine.Fits (other.rested engine.areas) := by
    refine ⟨?_, hfits.sized, hfits.layout, hfits.regular.of_nameplate hdrive⟩
    refine ⟨hfits.steady.free, hfits.steady.patient, ⟨0, rfl, rfl⟩, fun hpending => ?_⟩
    exact hfits.steady.bounded (hstalled.symm.trans hpending)
  unfold SimulatedPort.declines? at hdeclined
  split at hdeclined
  · next hbusy =>
    cases hdeclined
    refine ⟨port.rested engine.areas, 0, hrested port rfl rfl, ⟨by decide, rfl, rfl, .inl rfl⟩, ?_⟩
    intro memory
    have hyields := EngineM.yields_runCommand_of_busy hfits.steady hformed hbusy memory
    exact ⟨_, yields_execute_of_error hyields (Engine.yields_fail_of_running rfl _ _)⟩
  · next hprompt =>
    have hready : port.busy = false := by simpa using hprompt
    split at hdeclined
    · next hstalled =>
      cases hdeclined
      refine ⟨_, 1, hrested (port.begun engine.areas) rfl rfl, ⟨by decide, rfl, rfl, .inl rfl⟩, ?_⟩
      intro memory
      exact ⟨_, yields_execute_of_stalled hfits.steady hready hstalled hformed memory⟩
    · next hmoving =>
      have hwilling : port.Willing := ⟨hready, by simpa using hmoving⟩
      obtain ⟨⟨fault, left⟩, htaken, rfl⟩ := Option.map_eq_some_iff.1 hdeclined
      obtain ⟨hnameplate, hmedium, hdiscarded⟩ := Drive.left_of_takeFault htaken
      let served := port.served engine.areas (command.fetched 0 entries) fault.ending left
      have hplate : served.drive.nameplate = port.drive.nameplate := by
        rw [← hnameplate]
        cases fault <;> rfl
      refine ⟨served.rested engine.areas, 1, hrested served hplate rfl,
        ⟨by decide, ?_, ?_, .inr ⟨rfl, rfl⟩⟩, ?_⟩
      · rw [← hmedium]
        cases fault <;> rfl
      · rw [← hdiscarded]
        cases fault <;> rfl
      · intro memory
        have hfailed : fault.ending ≠ .done := by cases fault <;> exact nofun
        have hran : port.drive.run (command.fetched 0 entries)
            (engine.build 0 command entries memory) = _ := Drive.run_of_takeFault htaken _
        exact ⟨_, yields_execute_of_failed hfits.steady hfits.layout hwilling hplain hformed
          hfailed hran⟩

end RequestM

/-! Ranges. -/

/-- A fetched DATA SET MANAGEMENT command with the TRIM feature and one block of ranges. -/
structure FetchedCommand.Discards (command : FetchedCommand) : Prop where
  code : command.fis.opcode = Opcode.dataSetManagement
  features : command.fis.features = trimFeature
  blocks : command.fis.count = 1
  plain : command.cdb = none
  bytes : command.bytes = DiscardRange.blockSize

namespace SimulatedPort

/-- A port declined nothing and its device was sent one command that told of one range, which it
recorded; nothing else changed. -/
structure Notes (port : SimulatedPort) (range : Span) (after : SimulatedPort) : Prop where
  accepts : port.declines? Opcode.dataSetManagement = none
  fetched : ∃ command : FetchedCommand, command.Discards ∧ after.fetched = command :: port.fetched
  drive : after.drive = { port.drive with discarded := range :: port.drive.discarded }
  busy : after.busy = port.busy
  stalled : after.stalled = port.stalled

/-- A device recorded some ranges one behind the other, each from a command of its own. -/
inductive NotesAll : SimulatedPort → List Span → SimulatedPort → Prop where
  | nil (port : SimulatedPort) : NotesAll port [] port
  | cons {port between after : SimulatedPort} {range : Span} {ranges : List Span}
      (hfirst : port.Notes range between) (hrest : between.NotesAll ranges after) :
      NotesAll port (range :: ranges) after

variable {port between after : SimulatedPort} {range : Span} {ranges : List Span}

/-- Behind a recorded range the port declines what it declined before. -/
theorem Notes.declines? (hnotes : port.Notes range after) (opcode : UInt8) :
    after.declines? opcode = port.declines? opcode := by
  have hfault : (after.drive.takeFault opcode).map (fun (fault, _) => fault.ending.failure) =
      (port.drive.takeFault opcode).map fun (fault, _) => fault.ending.failure := by
    rw [hnotes.drive]
    unfold Drive.takeFault
    cases port.drive.faults.find? (·.1 == opcode) <;> rfl
  unfold SimulatedPort.declines?
  rw [hnotes.busy, hnotes.stalled, hfault]

theorem NotesAll.declines? (hnotes : port.NotesAll ranges after) (opcode : UInt8) :
    after.declines? opcode = port.declines? opcode := by
  induction hnotes with
  | nil port => rfl
  | cons hfirst hrest ih => rw [ih, hfirst.declines?]

/-- Behind some recorded ranges the drive is the one before, with these ranges recorded in their
order. -/
theorem NotesAll.drive (hnotes : port.NotesAll ranges after) : after.drive =
    { port.drive with discarded := ranges.reverse ++ port.drive.discarded } := by
  induction hnotes with
  | nil port => rfl
  | cons hfirst hrest ih =>
    rw [ih, hfirst.drive, List.reverse_cons, List.append_assoc]
    rfl

end SimulatedPort

/-- What a discard of some ranges has done when it ends. The device recorded the first `count` of
them, each from one command. If these are all, it succeeded. Otherwise the command for the next
range was declined, its error is the answer, and no command followed. -/
structure SimulatedPort.Clears (port : SimulatedPort) (ranges : List Span) (count : Nat)
    (between : SimulatedPort) (answer : Except IoError Unit) (after : SimulatedPort)
    (issued : Nat) : Prop where
  few : count ≤ ranges.length
  noted : port.NotesAll (ranges.take count) between
  done : count = ranges.length → answer = .ok () ∧ after = between ∧ issued = count
  broken : count < ranges.length → ∃ error command more,
    between.declines? Opcode.dataSetManagement = some error ∧ answer = .error error ∧
      FetchedCommand.Discards command ∧ between.Spares command after more ∧ issued = count + more

namespace SimulatedPort.Clears

variable {port between after : SimulatedPort} {range : Span} {ranges : List Span}
  {count issued : Nat} {answer : Except IoError Unit}

theorem nil (port : SimulatedPort) : port.Clears [] 0 port (.ok ()) port 0 :=
  ⟨Nat.le_refl 0, .nil port, fun _ => ⟨rfl, rfl, rfl⟩, nofun⟩

theorem cons {first : SimulatedPort} (hnotes : port.Notes range first)
    (hrest : first.Clears ranges count between answer after issued) :
    port.Clears (range :: ranges) (count + 1) between answer after (issued + 1) := by
  obtain ⟨hfew, hnoted, hdone, hbroken⟩ := hrest
  refine ⟨Nat.succ_le_succ hfew, .cons hnotes hnoted, ?_, ?_⟩
  · intro hall
    obtain ⟨hok, hsame, hlength⟩ := hdone (Nat.succ.inj hall)
    exact ⟨hok, hsame, by rw [hlength]⟩
  · intro hless
    obtain ⟨error, command, more, hdeclined, hfailed, hdiscards, hspares, hlength⟩ :=
      hbroken (Nat.lt_of_succ_lt_succ hless)
    exact ⟨error, command, more, hdeclined, hfailed, hdiscards, hspares, by omega⟩

/-- A discard whose first command is declined records nothing and ends with the error. -/
theorem of_declined {error : IoError} {command : FetchedCommand} (ranges : List Span)
    (hdeclined : port.declines? Opcode.dataSetManagement = some error)
    (hdiscards : command.Discards) (hspares : port.Spares command after issued) :
    port.Clears (range :: ranges) 0 port (.error error) after issued := by
  refine ⟨Nat.zero_le _, .nil port, nofun, fun _ => ?_⟩
  exact ⟨error, command, issued, hdeclined, rfl, hdiscards, hspares, (Nat.zero_add _).symm⟩

/-- A discard of some ranges succeeds exactly if the port declines nothing at its beginning. So a
fault or a stalled port can only meet its first command. -/
theorem ok_iff (hclears : port.Clears (range :: ranges) count between answer after issued) :
    answer = .ok () ↔ port.declines? Opcode.dataSetManagement = none := by
  rcases Nat.lt_or_eq_of_le hclears.few with hless | hall
  · obtain ⟨error, _, _, hdeclined, rfl, _⟩ := hclears.broken hless
    rw [← hclears.noted.declines?, hdeclined]
    simp
  · obtain ⟨rfl, _⟩ := hclears.done hall
    have hnoted := hclears.noted
    rw [hall, List.take_length] at hnoted
    cases hnoted with
    | cons hfirst hrest => simp [hfirst.accepts]

/-- Whatever becomes of a discard, the medium is as it was, and the recorded ranges are the old ones
and those noted. -/
theorem left (hclears : port.Clears ranges count between answer after issued) :
    after.drive.medium = port.drive.medium ∧
      after.drive.discarded = (ranges.take count).reverse ++ port.drive.discarded := by
  have hnoted := hclears.noted.drive
  rcases Nat.lt_or_eq_of_le hclears.few with hless | hall
  · obtain ⟨_, _, _, _, _, _, hspares, _⟩ := hclears.broken hless
    rw [hspares.medium, hspares.discarded, hnoted]
    exact ⟨rfl, rfl⟩
  · obtain ⟨_, rfl, _⟩ := hclears.done hall
    rw [hnoted]
    exact ⟨rfl, rfl⟩

end SimulatedPort.Clears

/-! Requests to discard. -/

/-- A range that one command can tell of: 1 to 65535 sectors, all of them below 2^48. -/
structure Span.Tellable (range : Span) : Prop where
  some : 0 < range.count
  few : range.count ≤ DiscardRange.maxSectors
  low : range.stop ≤ 0x1000000000000

namespace RequestM

variable {engine : Engine} {port : SimulatedPort} {range : Span}

theorem exists_scatter_discard (engine : Engine) :
    ∃ entries, engine.scatter .discard = .ok entries := by
  apply engine.exists_scatter_of_describable
  right
  decide

/-- The command that the driver builds for a discard is fetched as one. -/
theorem discards_fetched (hlayout : engine.areas.Layout) {entries : List ScatterEntry}
    (hformed : engine.scatter .discard = .ok entries) :
    (Command.discard.fetched 0 entries).Discards := by
  have hconveys : (Command.discard.fetched 0 entries).Conveys engine.areas .discard :=
    Engine.conveys_fetched hlayout hformed
  exact ⟨rfl, rfl, rfl, rfl, hconveys.total⟩

/-- A discard of one tellable range on a port that declines nothing records just this range, with
one command. -/
theorem exists_discardRange_notes (hfits : engine.Fits port) (hkind : port.drive.kind = .disk)
    (htellable : range.Tellable) (haccepts : port.declines? Opcode.dataSetManagement = none) :
    ∃ after, (discardRange range).run.Passes engine port (.ok ()) engine after 1 ∧
      port.Notes range after := by
  obtain ⟨entries, hformed⟩ := exists_scatter_discard engine
  obtain ⟨hwilling, huntouched⟩ := SimulatedPort.declines?_eq_none_iff.1 haccepts
  have hlong : (DiscardRange.encode range).length ≤ DiscardRange.blockSize := by
    simp [DiscardRange.encode, DiscardRange.blockSize]
  have hlow := htellable.low
  have hsome := htellable.some
  simp only [Span.stop] at hlow
  let left : Drive := { port.drive with discarded := range :: port.drive.discarded }
  have hserves := Engine.serves_served hfits.steady (Command.discard.fetched 0 entries) left
  have hfits' : engine.Fits _ := ⟨hserves.steady, hfits.sized, hfits.layout,
    hfits.regular.of_nameplate (show left.nameplate = port.drive.nameplate from rfl)⟩
  refine ⟨_, ⟨?_, hfits', none, rfl⟩, haccepts,
    ⟨_, discards_fetched hfits.layout hformed, rfl⟩, rfl, rfl, rfl⟩
  intro memory
  let shown := staged engine (DiscardRange.encode range) DiscardRange.blockSize memory
  have hfilled := yields_fillStaging port hfits.sized
    (show DiscardRange.blockSize ≤ 65536 by decide) hlong memory
  obtain ⟨_, hgathered, _⟩ :=
    Engine.transfer_run hfits.layout (show 0 < slotCount by decide) hformed shown
  have hsent : gatherData (Command.discard.fetched 0 entries).entries
      (engine.build 0 .discard entries shown) = DiscardRange.encode range ++
        List.replicate (DiscardRange.blockSize - (DiscardRange.encode range).length) 0 :=
    hgathered.trans (load_staged hlong memory)
  have hran : port.drive.run (Command.discard.fetched 0 entries)
      (engine.build 0 .discard entries shown) =
        (.done, left, engine.build 0 .discard entries shown) := by
    rw [Drive.run_discard hkind huntouched rfl rfl rfl, hsent,
      Drive.rangesIn_encode hsome htellable.few (by omega)]
    rfl
  have hyields := yields_execute_of_ok
    (EngineM.yields_runCommand_of_run hfits.steady hfits.layout hwilling hformed hran)
  refine ⟨engine.build 0 .discard entries shown, ?_⟩
  exact (yields_withEngine (HostM.yields_note _ (by decide) _)).seq (hfilled.seq hyields)

/-- A discard of one range on a port that declines it fails with the error, and records nothing. -/
theorem exists_discardRange_declined (hfits : engine.Fits port) (range : Span) {error : IoError}
    (hdeclined : port.declines? Opcode.dataSetManagement = some error) :
    ∃ after issued, (discardRange range).run.Passes engine port (.error error) engine after issued ∧
      ∃ command : FetchedCommand, command.Discards ∧ port.Spares command after issued := by
  obtain ⟨entries, hformed⟩ := exists_scatter_discard engine
  have hlong : (DiscardRange.encode range).length ≤ DiscardRange.blockSize := by
    simp [DiscardRange.encode, DiscardRange.blockSize]
  obtain ⟨after, issued, hsettled, hspares, hyields⟩ :=
    exists_execute_of_declined hfits (show Command.discard.cdb = none from rfl) hformed hdeclined
  refine ⟨after, issued, ⟨?_, hsettled, none, rfl⟩, _,
    discards_fetched hfits.layout hformed, hspares⟩
  intro memory
  have hfilled := yields_fillStaging port hfits.sized
    (show DiscardRange.blockSize ≤ 65536 by decide) hlong memory
  obtain ⟨changed, hended⟩ :=
    hyields (staged engine (DiscardRange.encode range) DiscardRange.blockSize memory)
  refine ⟨changed, (yields_withEngine (HostM.yields_note _ (by decide) _)).seq ?_⟩
  exact hfilled.seq hended

/-- A discard goes through the ranges in their order, as far as the first that is declined. Each has
to be tellable. -/
theorem exists_discardPieces_passes (hfits : engine.Fits port) (hkind : port.drive.kind = .disk)
    (left : Nat) (span : Span)
    (htellable : ∀ range ∈ span.cutInto DiscardRange.maxSectors left, range.Tellable) :
    ∃ count between answer after issued,
      (discardPieces left span).run.Passes engine port answer engine after issued ∧
        port.Clears (span.cutInto DiscardRange.maxSectors left) count between answer after
          issued := by
  induction left generalizing span port with
  | zero =>
    have hnoted := EngineM.passes_note hfits .debug
      (fun engine => engine.title ++ " TRIM complete") (by decide)
    exact ⟨0, port, .ok (), port, 0, hnoted.map Except.ok, .nil port⟩
  | succ left ih =>
    have hfirst := htellable (span.take DiscardRange.maxSectors) List.mem_cons_self
    cases hdeclined : port.declines? Opcode.dataSetManagement with
    | some error =>
      obtain ⟨after, issued, hpasses, command, hdiscards, hspares⟩ :=
        exists_discardRange_declined hfits (span.take DiscardRange.maxSectors) hdeclined
      refine ⟨0, port, .error error, after, issued, ?_, .of_declined _ hdeclined hdiscards hspares⟩
      rw [discardPieces, ExceptT.run_bind, ← Nat.add_zero issued]
      refine hpasses.bind ?_
      exact EngineM.passes_pure hpasses.fits (Except.error error)
    | none =>
      obtain ⟨between, hpasses, hnotes⟩ := exists_discardRange_notes hfits hkind hfirst hdeclined
      have hdisk : between.drive.kind = .disk := by rw [hnotes.drive, hkind]
      obtain ⟨count, middle, answer, after, issued, hmore, hclears⟩ :=
        ih hpasses.fits hdisk (span.drop DiscardRange.maxSectors) fun range hmember =>
          htellable range (List.mem_cons_of_mem _ hmember)
      refine ⟨count + 1, middle, answer, after, issued + 1, ?_, .cons hnotes hclears⟩
      have hlow : (span.take DiscardRange.maxSectors).stop < UInt64.size :=
        Nat.lt_of_le_of_lt hfirst.low (by decide)
      rw [discardPieces, ExceptT.run_bind, Nat.add_comm]
      refine hpasses.bind ?_
      dsimp only
      rw [run_require_bind]
      exact hmore.guard (decide_eq_true hlow)

end RequestM

theorem EngineM.exec_map_ok {α β σ : Type} {step : EngineM σ α} {engine left : Engine}
    {world after : World σ} {a : α} (hended : step.exec engine world = (.ok (a, left), after))
    (f : α → β) : (f <$> step).exec engine world = (.ok (f a, left), after) := by
  rw [map_eq_pure_bind, exec_bind_ok hended]
  rfl

namespace Disk

variable {disk : Disk} {drive : Drive} {first bytes : Nat}

/-- A device that the driver takes for one that cannot discard: a packet drive, a disk that could
not be identified, or a disk whose page has the bit for it clear. -/
inductive Untrimmable (disk : Disk) (drive : Drive) : Prop where
  | optical (hkind : drive.kind = .packetDrive)
  | unidentified (htold : disk.kind = .disk .none)
  | unable (htells : ∀ page : IdentifyPage, page.bytes = drive.page →
      (page.word 169).testBit 0 = false)

/-- A disk that was identified by a page with the bit for discards set. -/
structure Trimmable (disk : Disk) (drive : Drive) (page : IdentifyPage) : Prop where
  kind : drive.kind = .disk
  identified : disk.kind ≠ .disk .none
  bytes : page.bytes = drive.page
  tells : (page.word 169).testBit 0 = true

theorem Describes.hasTrim_eq_false (hdescribes : disk.Describes drive)
    (huntrimmable : disk.Untrimmable drive) :
    disk.trimSupport.hasTrim = false := by
  cases hdescribes with
  | identified page hkind hbytes htold hblocks =>
    have hsupport : disk.trimSupport = .ofPage page := by rw [trimSupport, htold]; rfl
    cases huntrimmable with
    | optical hother => cases hkind.symm.trans hother
    | unidentified hnone =>
      rw [trimSupport, hnone]
      rfl
    | unable htells =>
      rw [hsupport]
      exact htells page hbytes
  | unidentified hkind htold hblocks =>
    rw [trimSupport, htold]
    rfl
  | optical hkind htold hblocks =>
    rw [trimSupport, htold]
    rfl

/-- The driver knows a disk that can discard as such, with the capacity that its page tells. -/
theorem Describes.of_trimmable (hdescribes : disk.Describes drive) {page : IdentifyPage}
    (htrimmable : disk.Trimmable drive page) : disk.kind = .disk (.ofPage page) ∧
      disk.trimSupport.hasTrim = true ∧ disk.blockCount = UInt64.ofNat page.sectors := by
  cases hdescribes with
  | identified found hkind hbytes htold hblocks =>
    have hsame : found = page := by
      cases found
      cases page
      simpa using hbytes.trans htrimmable.bytes.symm
    subst hsame
    refine ⟨htold, ?_, hblocks⟩
    rw [trimSupport, htold]
    exact htrimmable.tells
  | unidentified hkind htold hblocks => exact absurd htold htrimmable.identified
  | optical hkind htold hblocks => cases hkind.symm.trans htrimmable.kind

/-- A standard disk that announces discards, and whose capacity the driver found, is known as one
that can discard. -/
theorem Describes.exists_trimmable (hdescribes : disk.Describes drive) {sectors : Nat}
    (hsata : disk.isOptical = false) (hsome : disk.blockCount ≠ 0)
    (hmade : drive.page = PageBuilder.announceTrim (PageBuilder.standard sectors)) :
    ∃ page, disk.Trimmable drive page ∧ page.bytes = drive.page := by
  cases hdescribes with
  | identified page hkind hbytes htold hblocks =>
    have htells : (page.word 169).testBit 0 = true := by
      rw [page.word_of_announced (hbytes.trans hmade) (PageBuilder.length_standard sectors)]
      rfl
    refine ⟨page, ⟨hkind, ?_, hbytes, htells⟩, hbytes⟩
    intro hunidentified
    have hnone : TrimSupport.ofPage page = .none :=
      DiskKind.disk.inj (htold.symm.trans hunidentified)
    exact absurd (htells.symm.trans (congrArg TrimSupport.hasTrim hnone)) nofun
  | unidentified hkind htold hblocks => exact absurd hblocks hsome
  | optical hkind htold hblocks =>
    rw [isOptical, htold] at hsata
    cases hsata

/-- A clear on a device that cannot discard succeeds over any device, and does nothing but log a
line. -/
theorem exists_exec_clear_of_silent {σ : Type} [Device σ]
    (hsilent : disk.trimSupport.hasTrim = false) (first bytes : Nat) (engine : Engine)
    (world : World σ) :
    ∃ log, (disk.clear first bytes).run.exec engine world =
      (.ok (.ok (), engine), { world with log }) := by
  rw [clear, hsilent]
  cases hkind : disk.kind with
  | drive => exact ⟨_, rfl⟩
  | disk trim =>
    have hunable : trim.hasTrim = false := by
      rw [trimSupport, hkind] at hsilent
      exact hsilent
    dsimp only
    rw [hunable]
    exact ⟨_, rfl⟩

/-- A clear of sectors that are not all on the disk is out of range, and nothing happens. -/
theorem exec_clear_of_beyond {σ : Type} [Device σ] (hable : disk.trimSupport.hasTrim = true)
    (hbeyond : disk.inRange first (max 1 (blocksFor bytes disk.blockSize)) = false)
    (engine : Engine) (world : World σ) :
    (disk.clear first bytes).run.exec engine world =
      (.ok (.error .outOfRange, engine), world) := by
  rw [clear, hable]
  dsimp only
  rw [hbeyond]
  rfl

/-- A clear of sectors on the disk discards the pieces of their run. -/
theorem exists_clear_passes {engine : Engine} {port : SimulatedPort} (hfits : engine.Fits port)
    (hkind : port.drive.kind = .disk) {trim : TrimSupport} (htold : disk.kind = .disk trim)
    (hable : trim.hasTrim = true) {span : Span} (hstart : span.first = first)
    (hcount : span.count = max 1 (blocksFor bytes sectorSize))
    (hwithin : disk.inRange span.first span.count = true) (hlow : span.stop ≤ 0x1000000000000) :
    ∃ count between answer after issued,
      (disk.clear first bytes).run.Passes engine port answer engine after issued ∧
        port.Clears (span.cut DiscardRange.maxSectors) count between answer after issued := by
  have htiles := Span.tiles_cut (show 0 < DiscardRange.maxSectors by decide) span
  have htellable : ∀ range ∈ span.cut DiscardRange.maxSectors, range.Tellable := by
    intro range hmember
    obtain ⟨hsome, hfew, hinside⟩ := htiles.within (by decide) range hmember
    exact ⟨hsome, hfew, Nat.le_trans hinside hlow⟩
  have hsize : disk.blockSize = sectorSize := by rw [blockSize, htold]; rfl
  have hsupport : disk.trimSupport = trim := by rw [trimSupport, htold]; rfl
  rw [clear, hsize, hsupport, ← hstart, ← hcount, hwithin, Bool.not_true, Bool.and_false, htold]
  dsimp only
  rw [if_neg Bool.false_ne_true, if_pos hable]
  exact RequestM.exists_discardPieces_passes hfits hkind _ span htellable

end Disk

namespace Site

variable {site : Site} {disk : Disk}

theorem exec_clear (hknown : site.disk? = some disk) {first bytes : Nat}
    {answer : Except IoError Unit} {left : Engine} {later : World SimulatedPort}
    (hended : (disk.clear first bytes).run.exec site.engine site.world =
      (.ok (answer, left), later)) :
    site.exec (.onDisk (.clear first bytes)) =
      (.ok ((.ofRequest (fun _ => .ok) answer, some disk), left), later) := by
  rw [exec, hknown]
  exact EngineM.exec_map_ok (EngineM.exec_map_ok hended _) _

/-- A clear of sectors on the disk, made on a site, discards the pieces of their run and counts its
commands. -/
theorem exists_exec_clear (hknown : site.disk? = some disk)
    (hfits : site.engine.Fits site.world.device) (hkind : site.world.device.drive.kind = .disk)
    {trim : TrimSupport} (htold : disk.kind = .disk trim) (hable : trim.hasTrim = true)
    {first bytes : Nat} {span : Span} (hasked : span = ⟨first, max 1 (blocksFor bytes sectorSize)⟩)
    (hwithin : disk.inRange span.first span.count = true) (hlow : span.stop ≤ 0x1000000000000) :
    ∃ count between answer later issued, site.exec (.onDisk (.clear first bytes)) =
        (.ok ((.ofRequest (fun _ => .ok) answer, some disk), site.engine), later) ∧
      site.world.device.Clears (span.cut DiscardRange.maxSectors) count between answer later.device
        issued ∧
      later.issues = site.world.issues + issued := by
  subst hasked
  obtain ⟨count, between, answer, after, issued, hpasses, hclears⟩ :=
    Disk.exists_clear_passes hfits hkind htold hable rfl rfl hwithin hlow
  obtain ⟨changed, hyields⟩ := hpasses.foretold site.world.memory
  obtain ⟨later, hended, haround, hprogress⟩ := hyields site.world rfl
  have hdevice : later.device = after := congrArg Machine.device haround
  rw [← hdevice] at hclears
  exact ⟨count, between, answer, later, issued, exec_clear hknown hended, hclears, hprogress.issues⟩

/-- A clear made behind any allowed run of events since its port was brought up, with any first
sector and any number of bytes; at least one sector is meant. A device that cannot discard is not
touched: the call succeeds and only logs. A disk that can is known by its page. A run that reaches
behind its capacity is out of range, and nothing happens. Otherwise the run is tiled by ranges of at
most 65535 sectors, `blocksFor span.count 65535` of them, and the device records them in order, each
from one command, until all are recorded or one is declined, whose error is the answer. The call
succeeds exactly if the port declines nothing when it is made. The data stay as they are in any
case. Disks with more than 2^48 sectors are left out, since ranges cannot name their last
sectors. -/
theorem clear_tiles {number slots : Nat} {config : Config}
    {start ready : World SimulatedPort} {port : Port} {engine : Engine} (hpos : 1 ≤ slots)
    (hdown : start.device.registers.cmd = 0)
    (hbounded : start.device.stalled = true → config.completionLimit.isSome = true)
    (hregular : start.device.drive.Regular)
    (hup : (HostM.bringUp (.port number) number slots config).exec start =
      (.ok (.ok (port, engine)), ready))
    (hsound : engine.areas.Sound) {events : List Event}
    (hallowed : ∀ event ∈ events, event.Allowed config)
    {site : Site} (hreached : site = Site.run { port, engine, world := ready } events)
    {disk : Disk} (hknown : site.disk? = some disk) (first bytes : Nat) {span : Span}
    (hasked : span = ⟨first, max 1 (blocksFor bytes sectorSize)⟩) :
    let call : Call := .onDisk (.clear first bytes)
    let device := site.world.device
    (disk.Untrimmable device.drive → ∃ log, site.exec call =
      (.ok ((.ok, some disk), site.engine), { site.world with log })) ∧
    ∀ page, disk.Trimmable device.drive page → page.sectors ≤ 0x1000000000000 →
      (page.sectors < span.stop → site.exec call =
        (.ok ((.ioError .outOfRange, some disk), site.engine), site.world)) ∧
      (span.stop ≤ page.sectors → ∃ ranges count between answer later issued,
        site.exec call =
          (.ok ((.ofRequest (fun _ => .ok) answer, some disk), site.engine), later) ∧
        Span.Tiles DiscardRange.maxSectors span ranges ∧
        ranges.length = blocksFor span.count DiscardRange.maxSectors ∧
        device.Clears ranges count between answer later.device issued ∧
        (answer = .ok () ↔ device.declines? Opcode.dataSetManagement = none) ∧
        later.issues = site.world.issues + issued ∧
        later.device.drive.discarded = (ranges.take count).reverse ++ device.drive.discarded ∧
        later.device.drive.medium = device.drive.medium) := by
  intro call device
  have hhead := fits_and_knows_run hpos hdown hbounded hregular hup hsound hallowed
  rw [← hreached] at hhead
  obtain ⟨_, hfits, hknows⟩ := hhead
  have hdescribes := hknows.device disk hknown
  constructor
  · intro huntrimmable
    have hsilent := hdescribes.hasTrim_eq_false huntrimmable
    obtain ⟨log, hended⟩ :=
      Disk.exists_exec_clear_of_silent hsilent first bytes site.engine site.world
    exact ⟨log, exec_clear hknown hended⟩
  · intro page htrimmable hfew
    obtain ⟨htold, hable, hblocks⟩ := hdescribes.of_trimmable htrimmable
    have hcount : disk.blockCount.toNat = page.sectors := by
      rw [hblocks]
      exact UInt64.toNat_ofNat_of_lt (Nat.lt_of_le_of_lt hfew (by decide))
    have hsize : disk.blockSize = sectorSize := by
      rw [Disk.blockSize, htold]
      rfl
    constructor
    · intro hbeyond
      subst hasked
      have houtside : disk.inRange first (max 1 (blocksFor bytes disk.blockSize)) = false := by
        rw [Disk.inRange, hsize, hcount]
        exact decide_eq_false (Nat.not_le_of_lt hbeyond)
      exact exec_clear hknown (Disk.exec_clear_of_beyond hable houtside site.engine site.world)
    · intro hinside
      have hwithin : disk.inRange span.first span.count = true := by
        rw [Disk.inRange, hcount]
        exact decide_eq_true hinside
      have hhasTrim : (TrimSupport.ofPage page).hasTrim = true := htrimmable.tells
      obtain ⟨noted, between, answer, later, issued, hended, hclears, hissues⟩ :=
        exists_exec_clear hknown hfits htrimmable.kind htold hhasTrim hasked hwithin
          (Nat.le_trans hinside hfew)
      obtain ⟨hmedium, hdiscarded⟩ := hclears.left
      have hpositive : 0 < DiscardRange.maxSectors := by decide
      refine ⟨span.cut DiscardRange.maxSectors, noted, between, answer, later, issued, hended,
        Span.tiles_cut hpositive span, span.length_cut _, hclears, ?_, hissues, hdiscarded, hmedium⟩
      have hsome : 0 < span.count := by
        rw [hasked]
        exact Nat.lt_of_lt_of_le Nat.one_pos (Nat.le_max_left 1 _)
      rw [Span.cut_of_count_pos hpositive hsome] at hclears
      exact hclears.ok_iff

/-- The hypotheses are met by a disk of a hundred thousand sectors that can discard and is told of
seventy thousand of them. -/
theorem clear_tiles_of_two_ranges :
    let config : Config := { readyLimit := 1 }
    let drive : Drive :=
      { Drive.disk (.blank sectorSize 100000) with
        page := PageBuilder.announceTrim (PageBuilder.standard 100000) }
    ∃ port engine ready disk, (HostM.bringUp (.port 0) 0 1 config).exec
        (World.around drive) = (.ok (.ok (port, engine)), ready) ∧
      let site := Site.run { port, engine, world := ready } [.called .probe]
      ∃ later, site.exec (.onDisk (.clear 3 35839995)) =
          (.ok ((.ok, some disk), site.engine), later) ∧
        later.issues = site.world.issues + 2 ∧
        later.device.drive.discarded =
          [⟨65538, 4465⟩, ⟨3, 65535⟩] ++ site.world.device.drive.discarded := by
  intro config drive
  have hflawless : (World.around drive).device.Flawless := ⟨rfl, rfl, rfl, rfl, rfl, rfl⟩
  have hstandard : PageBuilder.Standard drive.page 100000 := .inr rfl
  have hregular : drive.Regular := ⟨hstandard.length, fun _ => rfl, nofun⟩
  obtain ⟨port, engine, ready, disk, hup, hsound, hknown, hsata, hblocks, hmirrors⟩ := exists_probed
    hflawless hstandard (by decide) (show 0 < config.readyLimit.toNat by decide)
  refine ⟨port, engine, ready, disk, hup, ?_⟩
  intro site
  have hallowed : ∀ event ∈ [Event.called .probe], event.Allowed config := by
    simp [Event.Allowed]
  have hbounded : (World.around drive).device.stalled = true →
      config.completionLimit.isSome = true := by
    simp [hflawless.moving]
  obtain ⟨hcame, _, hknows⟩ :=
    fits_and_knows_run (Nat.le_refl 1) hflawless.down hbounded hregular hup hsound hallowed
  have hbytes : site.world.device.drive.page = drive.page :=
    congrArg (fun plate => plate.2.1) hcame.nameplate
  have hsome : disk.blockCount ≠ 0 := by
    intro hnone
    rw [hnone] at hblocks
    cases hblocks
  obtain ⟨page, htrimmable, hsame⟩ :=
    (hknows.device disk hknown).exists_trimmable hsata hsome hbytes
  have hsectors : page.sectors = 100000 :=
    IdentifyPage.sectors_of_standard (by decide) (by rw [hsame, hbytes]; exact hstandard)
  obtain ⟨_, hcapable⟩ := clear_tiles (Nat.le_refl 1) hflawless.down hbounded hregular hup hsound
    hallowed rfl hknown 3 35839995 rfl
  obtain ⟨ranges, count, between, answer, later, issued, hended, htiles, _, hclears, hanswered,
    hissues, hdiscarded, _⟩ :=
    (hcapable page htrimmable (by rw [hsectors]; decide)).2 (by rw [hsectors]; decide)
  have hcut : ranges = [⟨3, 65535⟩, ⟨65538, 4465⟩] := htiles.eq_cut (by decide)
  have hok : answer = .ok () :=
    hanswered.2 (SimulatedPort.declines?_eq_none_iff.2 ⟨hmirrors.willing, hmirrors.untouched _⟩)
  subst hcut hok
  have hall : count = 2 := by
    rcases Nat.lt_or_eq_of_le hclears.few with hless | hall
    · obtain ⟨_, _, _, _, hfailed, _⟩ := hclears.broken hless
      cases hfailed
    · exact hall
  obtain ⟨_, _, hsent⟩ := hclears.done hall
  refine ⟨later, hended, ?_, ?_⟩
  · rw [hissues, hsent, hall]
  · rw [hdiscarded, hall]
    rfl

end Site

end Ahci
