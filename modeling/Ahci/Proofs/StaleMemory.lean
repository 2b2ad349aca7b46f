import Ahci.Proofs.Identification
import Ahci.Proofs.Requests
import Ahci.Proofs.Runs

/-!
What earlier commands left in memory is never told. Every call is made of requests that are
foretold by the port alone, so two sites that differ in their memories only give the same
answers to the same calls, and their devices are told and hold the same ever after.
-/

namespace Ahci

/-! Every request is oblivious. -/

namespace RequestM.Oblivious

theorem identify : RequestM.identify.Oblivious := by
  refine of_settles .identify fun engine port hfits => ?_
  obtain ⟨answer, after, issued, hsettles, _⟩ := exists_settles_identify hfits
  exact ⟨answer, engine, after, issued, hsettles⟩

theorem requestSense : RequestM.requestSense.Oblivious :=
  EngineM.Oblivious.of_passes fun _ _ hfits => exists_requestSense_passes hfits

/-- A read of sectors is oblivious, since what it returns the device has placed in memory before. -/
theorem readSectors (lba sectors : Nat) : (RequestM.readSectors lba sectors).Oblivious := by
  by_cases hsound : sectors ≠ 0 ∧ sectors ≤ maxSectors
  · refine of_settles (.readSectors lba sectors) fun engine port hfits => ?_
    obtain ⟨answer, after, issued, hsettles, _⟩ :=
      exists_settles_readSectors hfits lba hsound.1 hsound.2
    exact ⟨answer, engine, after, issued, hsettles⟩
  · refine guard fun hfew => ?_
    have hnone : sectors = 0 := by
      have hbounded := of_decide_eq_true hfew
      omega
    rw [if_pos hnone]
    exact throw _

/-- A write of sectors is oblivious, since its data is staged in front of its command. -/
theorem writeSectors (lba sectors : Nat) (data : List UInt8) :
    (RequestM.writeSectors lba sectors data).Oblivious := by
  by_cases hsound : sectors ≠ 0 ∧ sectors ≤ maxSectors ∧ data.length ≤ sectors * sectorSize
  · refine of_settles (.writeSectors lba sectors) fun engine port hfits => ?_
    obtain ⟨answer, after, issued, hsettles⟩ :=
      exists_settles_writeSectors hfits lba hsound.1 hsound.2.1 hsound.2.2
    exact ⟨answer, engine, after, issued, hsettles⟩
  · refine guard fun hfew => ?_
    have hbounded := of_decide_eq_true hfew
    dsimp only
    rw [if_pos (by simp only [Bool.or_eq_true, decide_eq_true_eq]; omega)]
    exact throw _

theorem discardRange (range : Span) : (RequestM.discardRange range).Oblivious := by
  refine of_settles .discard fun engine port hfits => ?_
  obtain ⟨answer, after, issued, hsettles⟩ := exists_settles_discardRange hfits range
  exact ⟨answer, engine, after, issued, hsettles⟩

theorem discardPieces (left : Nat) (span : Span) :
    (RequestM.discardPieces left span).Oblivious := by
  induction left generalizing span with
  | zero => exact note _ (by decide)
  | succ left ih =>
    apply (discardRange _).bind
    intro _
    apply guard
    intro _
    exact ih _

theorem packet (cdb : Cdb) (data : DataPhase) (label : String) :
    (RequestM.packet cdb data label).Oblivious := by
  refine of_settles (.packet cdb data label) fun engine port hfits => ?_
  obtain ⟨answer, left, after, issued, hbrings⟩ :=
    EngineM.exists_packet_brings hfits cdb data label
  refine ⟨answer, left, after, issued, ⟨?_, hbrings.fits, hbrings.left⟩, hbrings.attends⟩
  intro memory
  obtain ⟨changed, hyields, _⟩ := hbrings.yields memory
  exact ⟨changed, hyields⟩

theorem inquiry (length : UInt8) : (RequestM.inquiry length).Oblivious :=
  EngineM.Oblivious.of_passes fun _ _ hfits => exists_inquiry_passes hfits length

theorem readBlocks (lba blocks : Nat) : (RequestM.readBlocks lba blocks).Oblivious := by
  by_cases hsound : blocks ≠ 0 ∧ blocks ≤ maxDriveBlocks ∧ lba < UInt32.size
  · refine of_settles (.readBlocks lba blocks) fun engine port hfits => ?_
    obtain ⟨answer, left, after, issued, hsettles, _⟩ :=
      exists_settles_readBlocks hfits hsound.1 hsound.2.1 hsound.2.2
    exact ⟨answer, left, after, issued, hsettles⟩
  · refine guard fun hfew => ?_
    have hbounded := of_decide_eq_true hfew
    by_cases hnone : blocks = 0
    · rw [if_pos hnone]
      exact throw _
    · rw [if_neg hnone, if_pos (by omega)]
      exact throw _

theorem eject : RequestM.eject.Oblivious := by
  have hsteps : (Eject.sequence fun cdb label =>
      (EngineM.packet cdb .none label : EngineM SimulatedPort _)).Oblivious := by
    refine EngineM.Oblivious.bind (packet _ _ _) fun allowed => ?_
    cases allowed with
    | error error => exact .pure _
    | ok _ =>
      refine EngineM.Oblivious.bind (packet _ _ _) fun opened => ?_
      cases opened <;> exact .pure _
  refine (onEngine hsteps).bind fun ended => ?_
  exact (note _ (by decide)).bind fun _ => EngineM.Oblivious.pure _

end RequestM.Oblivious

namespace Disk

open EngineM (Oblivious)

theorem oblivious_readChunk (kind : DiskKind) (span : Span) :
    (readChunk kind span : RequestM SimulatedPort _).Oblivious := by
  cases kind with
  | disk trim => exact .readSectors _ _
  | drive => exact .readBlocks _ _

theorem oblivious_writeChunk (kind : DiskKind) (span : Span) (data : List UInt8) :
    (writeChunk kind span data : RequestM SimulatedPort _).Oblivious := by
  cases kind with
  | disk trim => exact .writeSectors _ _ _
  | drive => exact .throw _

theorem oblivious_readSpans (kind : DiskKind) (spans : List Span) (buffer : List UInt8) :
    (readSpans kind spans buffer : EngineM SimulatedPort _).Oblivious := by
  induction spans generalizing buffer with
  | nil => exact .pure _
  | cons span others ih =>
    apply Oblivious.guard
    intro _
    apply Oblivious.bind (oblivious_readChunk kind span)
    intro answer
    cases answer with
    | error error => exact .pure _
    | ok data =>
      apply Oblivious.guard
      intro _
      apply Oblivious.guard
      intro _
      exact (ih _).bind fun _ => .pure _

theorem oblivious_writeSpans (kind : DiskKind) (spans : List Span) (data : List UInt8) :
    (writeSpans kind spans data : RequestM SimulatedPort _).Oblivious := by
  induction spans generalizing data with
  | nil => exact .pure _
  | cons span others ih =>
    apply (oblivious_writeChunk kind span _).bind
    intro _
    apply RequestM.Oblivious.guard
    intro _
    exact ih _

theorem oblivious_read (disk : Disk) (start bytes : Nat) (buffer : List UInt8) :
    (disk.read start bytes buffer : EngineM SimulatedPort _).Oblivious := by
  rw [read]
  split
  · exact .pure _
  · dsimp only
    split
    · exact .pure _
    · exact Oblivious.get.bind fun _ => oblivious_readSpans _ _ _

theorem oblivious_write (disk : Disk) (start bytes : Nat) (buffer : List UInt8) :
    (disk.write start bytes buffer : RequestM SimulatedPort _).Oblivious := by
  have hconfig : (RequestM.withEngine fun engine => pure engine.config :
      RequestM SimulatedPort Config).Oblivious :=
    .onEngine (Oblivious.get.bind fun engine => .pure engine.config)
  rw [write]
  dsimp only
  split
  · exact .throw _
  · split
    · exact .throw _
    · split
      · exact .throw _
      · exact hconfig.bind fun _ => oblivious_writeSpans _ _ _

theorem oblivious_clear (disk : Disk) (start bytes : Nat) :
    (disk.clear start bytes : RequestM SimulatedPort _).Oblivious := by
  rw [clear]
  dsimp only
  split
  · exact .throw _
  · cases disk.kind with
    | drive => exact .note _ (by decide)
    | disk trim =>
      dsimp only
      split
      · exact .discardPieces _ _
      · exact .note _ (by decide)

theorem oblivious_eject (disk : Disk) : (disk.eject : RequestM SimulatedPort _).Oblivious := by
  rw [eject]
  split
  · exact .eject
  · exact .throw _

theorem oblivious_requestSense (disk : Disk) :
    (disk.requestSense : RequestM SimulatedPort _).Oblivious := by
  rw [requestSense]
  split
  · exact .requestSense
  · exact .throw _

theorem oblivious_probe (port : Port) :
    (probe port : EngineM SimulatedPort _).Oblivious := by
  have hnoted (text : String) : (EngineM.onHost (HostM.note .info text) :
      EngineM SimulatedPort _).Oblivious := .note (fun _ => text) (by decide)
  have hannounced (disk : Disk) (kind : String) :
      (probe.announce port disk kind : EngineM SimulatedPort _).Oblivious :=
    (hnoted _).bind fun _ => .pure _
  rw [probe]
  cases port.attachment with
  | disk =>
    apply Oblivious.bind ?_ fun disk => hannounced disk _
    apply Oblivious.bind RequestM.Oblivious.identify
    intro answer
    cases answer with
    | ok page => exact .pure _
    | error error => exact (Oblivious.note _ (by decide)).bind fun _ => .pure _
  | packetDrive =>
    apply Oblivious.bind ?_ fun disk => hannounced disk _
    apply Oblivious.bind (RequestM.Oblivious.inquiry _)
    intro answer
    cases answer with
    | ok inquiry => exact .pure _
    | error error => exact (Oblivious.note _ (by decide)).bind fun _ => .pure _
  | absent => exact .pure _
  | enclosure => exact .pure _
  | multiplier => exact .pure _

end Disk

theorem DiskCall.oblivious_run (disk : Disk) (call : DiskCall) : (call.run disk).Oblivious := by
  cases call with
  | read start bytes buffer => exact (disk.oblivious_read start bytes buffer).bind fun _ => .pure _
  | write start bytes buffer =>
    exact (disk.oblivious_write start bytes buffer).run_map _
  | clear start bytes => exact (disk.oblivious_clear start bytes).run_map _
  | eject => exact disk.oblivious_eject.run_map _
  | requestSense => exact disk.oblivious_requestSense.run_map _

theorem Bench.EngineStep.oblivious_run (step : EngineStep) :
    (step.run : EngineM SimulatedPort _).Oblivious := by
  cases step with
  | identify => exact RequestM.Oblivious.identify.run_map _
  | readSectors lba count => exact (RequestM.Oblivious.readSectors _ _).run_map _
  | writeSectors lba count data => exact (RequestM.Oblivious.writeSectors _ _ _).run_map _
  | discardSectors lba count => exact (RequestM.Oblivious.discardPieces _ _).run_map _
  | packet cdb data label => exact (RequestM.Oblivious.packet _ _ _).run_map _
  | requestSense => exact RequestM.Oblivious.requestSense.run_map _
  | lastSense => exact EngineM.Oblivious.get.bind fun _ => .pure _
  | inquiry length => exact (RequestM.Oblivious.inquiry _).run_map _
  | readBlocks lba count => exact (RequestM.Oblivious.readBlocks _ _).run_map _
  | eject => exact RequestM.Oblivious.eject.run_map _

/-- Every call of the driver is oblivious: on a port that fits, memory decides neither its end nor
the port it leaves. -/
theorem Call.oblivious_run (port : Port) (disk? : Option Disk) (call : Call) :
    (call.run port disk?).Oblivious := by
  cases call with
  | probe =>
    apply EngineM.Oblivious.bind (Disk.oblivious_probe port)
    intro answer
    cases answer <;> exact .pure _
  | onDisk call =>
    cases disk? with
    | none => exact .pure _
    | some disk => exact (call.oblivious_run disk).map _
  | onEngine step => exact step.oblivious_run.map _

namespace Site

/-- What the calls among some events answer, in their order. A call that halts answers with the
reason. -/
def answers (site : Site) : List Event → List (Except Halt Bench.Outcome)
  | [] => []
  | .switched switch :: events => (site.after (.switched switch)).answers events
  | .called call :: events =>
    (site.exec call).1.map (·.1.1) :: (site.after (.called call)).answers events

/-- Two sites that differ in their memories and in the records of their worlds only. Their drivers
know the same, and their devices agree in everything: registers, fetched commands, data and recorded
ranges. -/
structure Alike (first second : Site) : Prop where
  port : second.port = first.port
  disk? : second.disk? = first.disk?
  engine : second.engine = first.engine
  device : second.world.device = first.world.device

variable {config : Config} {start : World SimulatedPort} {site first second : Site}

/-- A site reached on sound areas, from a regular drive, has an engine that fits its port. -/
theorem Reached.fits (hreached : Reached config start site) (hsound : site.engine.areas.Sound)
    (hregular : start.device.drive.Regular) : site.engine.Fits site.world.device := by
  have hsized := PortAreas.sized_of_allocate hreached.granted
  exact ⟨hreached.steady, hsized, hsound.layout hsized, hregular.of_nameplate hreached.nameplate⟩

/-- The same call on two sites that are alike ends the same, and leaves them alike. -/
theorem Alike.call (halike : first.Alike second) (hfits : first.engine.Fits first.world.device)
    (call : Call) :
    (second.exec call).1 = (first.exec call).1 ∧
      (first.after (.called call)).Alike (second.after (.called call)) := by
  obtain ⟨hport, hdisk?, hengine, hdevice⟩ := halike
  obtain ⟨result, after, issued, hforetold, _⟩ :=
    call.oblivious_run first.port first.disk? first.engine first.world.device hfits
  obtain ⟨changed, hyields⟩ := hforetold first.world.memory
  obtain ⟨later, hended, haround, _⟩ := hyields first.world rfl
  have hendedFirst : first.exec call = (result, later) := hended
  obtain ⟨other, htwin⟩ := hforetold second.world.memory
  obtain ⟨last, hended', haround', _⟩ := htwin second.world (by rw [World.machine, hdevice])
  have hendedSecond : second.exec call = (result, last) := by
    rw [exec, hport, hdisk?, hengine]
    exact hended'
  have hdevices : last.device = later.device := by
    have hone : later.device = after := congrArg Machine.device haround
    have htwo : last.device = after := congrArg Machine.device haround'
    rw [hone, htwo]
  refine ⟨by rw [hendedFirst, hendedSecond], ?_⟩
  rw [Site.after, Site.after, hendedFirst, hendedSecond]
  cases result with
  | error reason => exact ⟨hport, hdisk?, hengine, hdevices⟩
  | ok answer => exact ⟨hport, rfl, rfl, hdevices⟩

/-- By induction on the events, an allowed run on two sites that are alike has the same answers and
leaves them alike. -/
theorem Alike.run (halike : first.Alike second) (hreached : Reached config start first)
    (hsound : first.engine.areas.Sound) (hregular : start.device.drive.Regular)
    {events : List Event} (hallowed : ∀ event ∈ events, event.Allowed config) :
    first.answers events = second.answers events ∧
      (first.run events).Alike (second.run events) := by
  induction events generalizing first second with
  | nil => exact ⟨rfl, halike⟩
  | cons event events ih =>
    have hnext := hreached.after (hallowed event List.mem_cons_self)
    have hstill : (first.after event).engine.areas = first.engine.areas :=
      hnext.areas hreached.granted
    have hfurther (hothers : (first.after event).Alike (second.after event)) :=
      ih hothers hnext (by rwa [hstill]) fun other hmember =>
        hallowed other (List.mem_cons_of_mem event hmember)
    cases event with
    | switched switch =>
      have hswitched : (first.after (.switched switch)).Alike (second.after (.switched switch)) :=
        ⟨halike.port, halike.disk?, halike.engine, congrArg switch.apply halike.device⟩
      exact hfurther hswitched
    | called call =>
      obtain ⟨hsame, hcalled⟩ := halike.call (hreached.fits hsound hregular) call
      obtain ⟨hanswers, hleft⟩ := hfurther hcalled
      refine ⟨?_, hleft⟩
      rw [Site.answers, Site.answers, hsame, hanswers]

/-- Take a port behind any allowed run of events since it was brought up, on sound areas and with a
regular device, and put any two contents into the whole of its memory. Every further run of events
then has the same answers on both, call by call, and leaves devices that agree in everything: the
registers, the commands fetched, the data and the ranges recorded as discarded. So nothing that
earlier commands left in memory is ever told. The memories themselves stay different. -/
theorem answers_eq_over_memory {number slots : Nat} {config : Config}
    {start ready : World SimulatedPort} {port : Port} {engine : Engine} (hpos : 1 ≤ slots)
    (hdown : start.device.registers.cmd = 0)
    (hbounded : start.device.stalled = true → config.completionLimit.isSome = true)
    (hregular : start.device.drive.Regular)
    (hup : (HostM.bringUp (.port number) number slots config).exec start =
      (.ok (.ok (port, engine)), ready))
    (hsound : engine.areas.Sound) {early : List Event}
    (hbefore : ∀ event ∈ early, event.Allowed config)
    {site : Site} (hreached : site = Site.run { port, engine, world := ready } early)
    (memory other : Memory) {events : List Event}
    (hallowed : ∀ event ∈ events, event.Allowed config) :
    let first : Site := { site with world := { site.world with memory } }
    let second : Site := { site with world := { site.world with memory := other } }
    first.answers events = second.answers events ∧
      (first.run events).Alike (second.run events) := by
  intro first second
  have hbrought := HostM.broughtUp_of_exec hdown hup
  have hhead : Reached config start site := by
    rw [hreached]
    exact (reached_of_bringUp hpos hbounded hbrought).run hbefore
  have hone : Reached config start first :=
    ⟨hhead.steady, hhead.config, hhead.granted, hhead.nameplate, hhead.fetched, hhead.mild⟩
  have hsafe : first.engine.areas.Sound := by
    rwa [hone.areas hbrought.granted]
  have halike : first.Alike second := ⟨rfl, rfl, rfl, rfl⟩
  exact halike.run hone hsafe hregular hallowed

theorem regular_empty : Drive.empty.Regular :=
  ⟨PageBuilder.length_standard _, nofun, nofun⟩

theorem regular_disk {medium : Medium} (hsectors : medium.blockSize = sectorSize) :
    (Drive.disk medium).Regular :=
  ⟨PageBuilder.length_standard _, fun _ => hsectors, nofun⟩

theorem regular_packetDrive {medium : Medium} (hblocks : medium.blockSize = driveBlockSize) :
    (Drive.packetDrive medium).Regular :=
  ⟨PageBuilder.length_standard _, nofun, fun _ => hblocks⟩

/-- The hypotheses are met by a packet drive that is asked for more INQUIRY data than it has, over a
memory that holds nothing and over one that a read has filled. -/
theorem answers_eq_over_memory_of_inquiry :
    let config : Config := { readyLimit := 4 }
    let start := World.around (.packetDrive (.blank driveBlockSize 8))
    let dirty := ({} : Memory).store 0x234503000 (List.replicate 65536 0xFF)
    let events : List Event :=
      [.called (.onEngine (.inquiry 255)), .called (.onEngine (.readBlocks 0 2)),
        .switched (.inject Opcode.packet (.sense ⟨SenseKey.mediumError, 0x11, 0⟩)),
        .called (.onDisk (.read 3 4096 (List.replicate 5000 0)))]
    ∃ port engine ready, (HostM.bringUp (.port 0) 0 1 config).exec start =
        (.ok (.ok (port, engine)), ready) ∧
      let site := Site.run { port, engine, world := ready } [.called .probe]
      let first : Site := { site with world := { site.world with memory := {} } }
      let second : Site := { site with world := { site.world with memory := dirty } }
      first.answers events = second.answers events ∧
        (first.run events).Alike (second.run events) := by
  intro config start dirty events
  have hpresent : (Drive.packetDrive (.blank driveBlockSize 8)).kind ≠ .empty := by decide
  obtain ⟨port, engine, ready, hup, hareas⟩ := exists_bringUp_around hpresent 0 1
    (show 0 < config.readyLimit.toNat by decide)
  have hsound : engine.areas.Sound := by
    rw [hareas]
    exact sound_risingAreas
  have hbefore : ∀ event ∈ [Event.called .probe], event.Allowed config := by
    simp [Event.Allowed]
  refine ⟨port, engine, ready, hup, answers_eq_over_memory (Nat.le_refl 1) rfl ?_
    (regular_packetDrive rfl) hup hsound hbefore rfl {} dirty ?_⟩
  · simp [World.around]
  · intro event hmember
    simp only [events, List.mem_cons, List.not_mem_nil, or_false] at hmember
    rcases hmember with rfl | rfl | rfl | rfl <;> exact True.intro

end Site

end Ahci
