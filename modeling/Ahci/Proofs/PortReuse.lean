import Ahci.Proofs.MemoryRelocation
import Ahci.Proofs.PortIndependence

/-!
The second life of a port. Taking a port down stops its engine and drops what was issued, and
leaves the device behind it as it is. What a run may have left in the other registers is replaced
when the port is brought up again, and what is left in memory is never told; so a port that was
used and one that was not, with the same device behind them, are brought up alike, and then go
through the same calls with the same answers.
-/

namespace Ahci

variable {σ α β : Type}

/-! Handshakes note nothing. -/

namespace HostM

/-- A step that leaves the log as it is, from any world and however it ends. -/
def Silent (step : HostM σ α) : Prop :=
  ∀ world, (step.exec world).2.log = world.log

namespace Silent

theorem pure (a : α) : Silent (pure a : HostM σ α) :=
  fun _ => rfl

theorem bind {step : HostM σ α} {next : α → HostM σ β} (hfirst : step.Silent)
    (hsecond : ∀ a, (next a).Silent) : (step >>= next).Silent := by
  intro world
  have hearly := hfirst world
  rw [exec_bind]
  rcases hended : step.exec world with ⟨reason | a, after⟩ <;> rw [hended] at hearly
  · exact hearly
  · exact (hsecond a after).trans hearly

end Silent

variable [Device σ] (window : Window)

theorem silent_readRegister (offset : Nat) :
    (readRegister window offset : HostM σ UInt32).Silent :=
  fun _ => rfl

theorem silent_writeRegister (offset : Nat) (value : UInt32) :
    (writeRegister window offset value : HostM σ Unit).Silent :=
  fun _ => rfl

theorem silent_commandBitBecomes (bit : Nat) (value : Bool) (limit : Nat) :
    (commandBitBecomes window bit value limit : HostM σ Bool).Silent := by
  induction limit with
  | zero => exact .pure _
  | succ reads ih =>
    apply (silent_readRegister window _).bind
    intro command
    split
    · exact .pure _
    · exact ih

/-- Stopping an engine logs nothing, also if it fails. -/
theorem silent_stopEngine (limit : Nat) : (stopEngine window limit : HostM σ _).Silent := by
  apply (silent_readRegister window _).bind
  intro command
  split
  · exact .pure _
  · apply (silent_writeRegister window _ _).bind
    intro _
    apply (silent_commandBitBecomes window _ _ limit).bind
    intro ceased
    split
    · exact .pure _
    · apply (silent_readRegister window _).bind
      intro command
      apply (silent_writeRegister window _ _).bind
      intro _
      apply (silent_commandBitBecomes window _ _ limit).bind
      intro deaf
      split <;> exact .pure _

end HostM

/-- Taking a steady port down stops its engine and drops what PxCI showed. It always returns,
nothing else of the port changes, and nothing is logged. -/
theorem Engine.exists_takeDown {engine : Engine} {world : World SimulatedPort}
    (hsteady : engine.Steady world.device) :
    ∃ torn, engine.takeDown.exec world = (.ok (), torn) ∧
      torn.device =
        world.device.withRegisters { world.device.registers with cmd := 0, ci := 0 } ∧
      torn.log = world.log := by
  obtain ⟨status, _, hregisters⟩ := hsteady.registers
  have hup : world.device.registers.cmd = runningCommand := by rw [hregisters]; rfl
  obtain ⟨stopped, hended, haround, _⟩ :=
    HostM.yields_stopEngine engine.window hsteady.patient hup world.memory world rfl
  have hquiet := HostM.silent_stopEngine engine.window engine.limit world
  rw [hended] at hquiet
  have hclerical := PortAreas.clerical_release (σ := SimulatedPort) engine.areas
  obtain ⟨_, hfreed⟩ := hclerical.ends stopped
  refine ⟨(engine.areas.release.exec stopped).2, ?_, ?_, ?_⟩
  · rw [takeDown, HostM.exec_bind_ok hended]
    exact Prod.ext hfreed rfl
  · rw [hclerical.device]
    exact congrArg Machine.device haround
  · rw [hclerical.log]
    exact hquiet

/-! Bringing a port up once more. -/

namespace HostM

/-- A port is brought up only if there is a device behind it. -/
theorem present_of_bringUp {window : Window} {number slots : Nat} {config : Config}
    {world ready : World SimulatedPort} {brought : Port × Engine}
    (hup : (bringUp window number slots config).exec world = (.ok (.ok brought), ready)) :
    world.device.drive.kind ≠ .empty := by
  intro hempty
  obtain ⟨looked, hended, _⟩ := yields_attachment window world.device world.memory world rfl
  have hvacant : world.device.attachment.isBlockDevice = false := by
    rw [SimulatedPort.attachment_eq, hempty]
    rfl
  rw [bringUp, exec_bind_ok hended, hvacant] at hup
  cases hup

end HostM

/-- What a driver has of a port that it brought up and did not use yet. -/
def Engine.opened (number slots : Nat) (config : Config) (areas : PortAreas) : Engine :=
  { window := .port number, number, areas, slots := .ofCount slots, config }

/-- A port can be brought up: with a slot, with a limit that lets handshakes read PxCMD, with sound
memory granted, and stalled only if the driver limits its waits. -/
structure World.Ready (world : World SimulatedPort) (slots : Nat) (config : Config)
    (areas : PortAreas) : Prop where
  pos : 1 ≤ slots
  patient : 0 < config.readyLimit.toNat
  /-- Commands are left pending only if the driver stops waiting for them. -/
  bounded : world.device.stalled = true → config.completionLimit.isSome = true
  granted : (PortAreas.allocate.exec world).1 = .ok (.ok areas)
  sound : areas.Sound

/-- A port that can be brought up, is down and has a device does come up, on the areas it is
granted. -/
theorem World.Ready.exists_opened {world : World SimulatedPort} {slots : Nat} {config : Config}
    {areas : PortAreas} (hready : world.Ready slots config areas) (number : Nat)
    (hdown : world.device.registers.cmd = 0) (hpresent : world.device.drive.kind ≠ .empty) :
    ∃ up, (HostM.bringUp (.port number) number slots config).exec world =
        (.ok (.ok (⟨number, world.device.attachment⟩, .opened number slots config areas)), up) ∧
      HostM.BroughtUp (.port number) number slots config world ⟨number, world.device.attachment⟩
        (.opened number slots config areas) up := by
  obtain ⟨answer, up, hended, hmade, hforward⟩ :=
    HostM.exists_bringUp (.port number) number slots config world hdown
  obtain ⟨port, engine, rfl, rfl⟩ := hforward areas hready.granted
    (SimulatedPort.isBlockDevice_attachment hpresent) hready.patient
  have hbrought := hmade port engine rfl
  have hattached := hbrought.attached
  have hconfigured : engine = .opened number slots config engine.areas := hbrought.configured
  subst hattached
  rw [← hconfigured]
  exact ⟨up, hended, hbrought⟩

/-! Sites in two places. -/

namespace Memory

/-- Memory to which nothing was written reads the same everywhere. -/
theorem agree_blank (here there : Region) : Agree here there {} {} := by
  intro offset _
  rfl

end Memory

namespace Site

/-- Two sites whose drivers know the same but for where the memory of their port lies, and whose
ports are twins: registers, drive, switches and fetched commands agree but for addresses. Their
memories may differ. -/
structure Twins (past : List Span) (one two : Site) : Prop where
  port : two.port = one.port
  disk? : two.disk? = one.disk?
  engine : two.engine = one.engine.movedTo two.engine.areas
  device : one.world.device.Twins one.engine.areas two.engine.areas past two.world.device

variable {past : List Span} {one two first second : Site} {config : Config}
  {fresh again : World SimulatedPort}

/-- Sites are twins whatever their memories hold outside of what a command carries. -/
theorem Twins.of_alike (htwins : one.Twins past two) (hleft : first.Alike one)
    (hright : second.Alike two) : first.Twins past second := by
  constructor
  · rw [← hright.port, htwins.port, hleft.port]
  · rw [← hright.disk?, htwins.disk?, hleft.disk?]
  · rw [← hright.engine, ← hleft.engine]
    exact htwins.engine
  · rw [← hleft.device, ← hright.device, ← hleft.engine, ← hright.engine]
    exact htwins.device

/-- The site over memory that nothing was written to. -/
def blank (site : Site) : Site :=
  { site with world := { site.world with memory := {} } }

theorem alike_blank (site : Site) : site.Alike site.blank :=
  ⟨rfl, rfl, rfl, rfl⟩

/-- If a call ends as twins do on two sites, its answers agree and the sites behind it are twins. -/
theorem Twins.of_endTwinned (htwins : one.Twins past two) {call : Call}
    (htogether : one.engine.EndTwinned two.engine.areas past false (one.exec call)
      (two.exec call)) :
    (one.exec call).1.map (·.1.1) = (two.exec call).1.map (·.1.1) ∧
      (one.after (.called call)).Twins past (two.after (.called call)) := by
  rw [after, after]
  generalize one.exec call = near at htogether ⊢
  generalize two.exec call = far at htogether ⊢
  cases htogether with
  | done sense hsettled => exact ⟨rfl, htwins.port, rfl, rfl, hsettled.ports⟩
  | gaveUp hsettled => exact ⟨rfl, htwins.port, htwins.disk?, htwins.engine, hsettled.ports⟩

/-- The same call on twins that fit their ports answers the same and leaves twins, whatever it asks
for and however it ends. -/
theorem Twins.call (htwins : one.Twins past two) (hnear : one.engine.Fits one.world.device)
    (hfar : two.engine.Fits two.world.device) (hhead : one.engine.areas.Fit)
    (hthere : two.engine.areas.Fit) (call : Call) :
    (one.exec call).1.map (·.1.1) = (two.exec call).1.map (·.1.1) ∧
      (one.after (.called call)).Twins past (two.after (.called call)) := by
  -- Memory has no say in either site, so let both have the same.
  obtain ⟨hsameOne, hafterOne⟩ := one.alike_blank.call hnear call
  obtain ⟨hsameTwo, hafterTwo⟩ := two.alike_blank.call hfar call
  have htwinned : one.engine.Twinned two.engine.areas past false one.blank.world.machine
      two.blank.world.machine :=
    ⟨htwins.device, hnear.steady.rested, fun _ => hnear.steady, Memory.agree_blank _ _,
      Memory.agree_blank _ _⟩
  have htogether := (call.routine_run one.port one.disk?).relocatable one.engine two.engine.areas
    past _ _ hhead hthere htwinned
  have hlikewise : (call.run one.port one.disk?).exec (one.engine.movedTo two.engine.areas)
      two.blank.world = two.blank.exec call := by
    rw [exec, ← htwins.port, ← htwins.disk?, ← htwins.engine]
    rfl
  rw [hlikewise] at htogether
  have hblanks : one.blank.Twins past two.blank :=
    ⟨htwins.port, htwins.disk?, htwins.engine, htwins.device⟩
  obtain ⟨hsame, hleft⟩ := hblanks.of_endTwinned htogether
  exact ⟨by rw [← hsameOne, hsame, hsameTwo], hleft.of_alike hafterOne hafterTwo⟩

theorem Twins.switch (htwins : one.Twins past two) (switch : Switch) :
    (one.after (.switched switch)).Twins past (two.after (.switched switch)) :=
  ⟨htwins.port, htwins.disk?, htwins.engine, htwins.device.switch switch⟩

/-- By induction on the events, an allowed run on twins that were reached has the same answers and
leaves twins. -/
theorem Twins.run (htwins : one.Twins past two) (hreached : Reached config fresh one)
    (hregular : fresh.device.drive.Regular) (hhead : one.engine.areas.Sound)
    (hagain : Reached config again two) (hregular' : again.device.drive.Regular)
    (hthere : two.engine.areas.Sound) {events : List Event}
    (hallowed : ∀ event ∈ events, event.Allowed config) :
    one.answers events = two.answers events ∧ (one.run events).Twins past (two.run events) := by
  induction events generalizing one two with
  | nil => exact ⟨rfl, htwins⟩
  | cons event events ih =>
    rw [List.forall_mem_cons] at hallowed
    have hnext := hreached.after hallowed.1
    have hnext' := hagain.after hallowed.1
    have hareas : (one.after event).engine.areas = one.engine.areas := hnext.areas hreached.granted
    have hareas' : (two.after event).engine.areas = two.engine.areas := hnext'.areas hagain.granted
    have hfurther (hleft : (one.after event).Twins past (two.after event)) :=
      ih hleft hnext (by rwa [hareas]) hnext' (by rwa [hareas']) hallowed.2
    cases event with
    | switched switch => exact hfurther (htwins.switch switch)
    | called call =>
      obtain ⟨hsame, hcalled⟩ := htwins.call (hreached.fits hhead hregular)
        (hagain.fits hthere hregular') ⟨PortAreas.sized_of_allocate hreached.granted, hhead⟩
        ⟨PortAreas.sized_of_allocate hagain.granted, hthere⟩ call
      obtain ⟨hanswers, hleft⟩ := hfurther hcalled
      refine ⟨?_, hleft⟩
      rw [Site.answers, Site.answers, hsame, hanswers]

end Site

/-- On a port that fits, with a device behind it, identification succeeds. -/
theorem Site.exists_answers_probe {site : Site} (hfits : site.engine.Fits site.world.device)
    (hknows : site.Knows) (hpresent : site.world.device.drive.kind ≠ .empty) :
    ∃ disk, site.answers [.called .probe] = [.ok (.disk disk)] := by
  obtain ⟨disk, left, after, issued, hpasses, _⟩ :=
    Disk.exists_probe_passes hfits hpresent hknows.attached
  obtain ⟨changed, hyields⟩ := hpasses.foretold site.world.memory
  obtain ⟨later, hended, _⟩ := hyields site.world rfl
  have hprobed : (Disk.probe site.port).exec site.engine site.world =
    (.ok (.ok disk, left), later) := hended
  refine ⟨disk, ?_⟩
  rw [answers, answers, exec, Call.run, EngineM.exec_bind_ok hprobed]
  rfl

/-! Two lives of a device. -/

namespace SimulatedPort

/-- The same device behind a port that was never used: registers of a new port, nothing fetched, and
no range recorded as discarded. The medium, the tray, the queued faults and the switches are as they
were. -/
def unused (port : SimulatedPort) : SimulatedPort :=
  { drive := { port.drive with discarded := [] }, busy := port.busy, stalled := port.stalled }

/-- The port after some switches were thrown. -/
def thrown (port : SimulatedPort) (switches : List Switch) : SimulatedPort :=
  switches.foldl (fun port switch => switch.apply port) port

theorem registers_thrown (port : SimulatedPort) (switches : List Switch) :
    (port.thrown switches).registers = port.registers := by
  induction switches generalizing port with
  | nil => rfl
  | cons switch switches ih => exact (ih _).trans (by cases switch <;> rfl)

theorem nameplate_thrown (port : SimulatedPort) (switches : List Switch) :
    (port.thrown switches).drive.nameplate = port.drive.nameplate := by
  induction switches generalizing port with
  | nil => rfl
  | cons switch switches ih => exact (ih _).trans (by cases switch <;> rfl)

end SimulatedPort

/-- The ports of two worlds come up with drivers that agree but for the addresses of their areas,
the device is identified with the same answer on both, and every allowed run of events from there
has the same answers on both and leaves twins. -/
def World.LiveAlike (again fresh : World SimulatedPort) (number slots : Nat) (config : Config)
    (areas others : PortAreas) : Prop :=
  ∃ port disk up new,
    (HostM.bringUp (.port number) number slots config).exec again =
      (.ok (.ok (port, .opened number slots config areas)), up) ∧
    (HostM.bringUp (.port number) number slots config).exec fresh =
      (.ok (.ok (port, .opened number slots config others)), new) ∧
    let used : Site := { port, engine := .opened number slots config areas, world := up }
    let unused : Site := { port, engine := .opened number slots config others, world := new }
    used.answers [.called .probe] = [.ok (.disk disk)] ∧
      ∀ events : List Event, (∀ event ∈ events, event.Allowed config) →
        used.answers events = unused.answers events ∧
          (unused.run events).Twins again.device.drive.discarded (used.run events)

/-- A port that is down, with a regular device, is brought up and lives like one that was never used
with the same device behind it. -/
theorem World.Ready.liveAlike {again fresh : World SimulatedPort} {slots : Nat} {config : Config}
    {areas others : PortAreas} (hready : again.Ready slots config areas)
    (hready' : fresh.Ready slots config others) (number : Nat)
    (hdown : again.device.registers.cmd = 0) (hpresent : again.device.drive.kind ≠ .empty)
    (hregular : again.device.drive.Regular) (hunused : fresh.device = again.device.unused) :
    again.LiveAlike fresh number slots config areas others := by
  have hdown' : fresh.device.registers.cmd = 0 := by rw [hunused]; rfl
  have hpresent' : fresh.device.drive.kind ≠ .empty := by rwa [hunused]
  have hregular' : fresh.device.drive.Regular := by
    rw [hunused]
    exact ⟨hregular.page, hregular.sectors, hregular.blocks⟩
  obtain ⟨up, hended, hbrought⟩ := hready.exists_opened number hdown hpresent
  obtain ⟨new, hended', hbrought'⟩ := hready'.exists_opened number hdown' hpresent'
  have hattached : fresh.device.attachment = again.device.attachment := by
    rw [SimulatedPort.attachment_eq, SimulatedPort.attachment_eq, hunused]
    rfl
  have hreached := Site.reached_of_bringUp hready.pos hready.bounded hbrought
  have hreached' := Site.reached_of_bringUp hready'.pos hready'.bounded hbrought'
  rw [hattached] at hended' hreached'
  have htwins : Site.Twins again.device.drive.discarded
      { port := ⟨number, again.device.attachment⟩, engine := .opened number slots config others,
        world := new }
      { port := ⟨number, again.device.attachment⟩, engine := .opened number slots config areas,
        world := up } := by
    refine ⟨rfl, rfl, rfl, ⟨⟨0, SimulatedPort.idleFile, 0, ?_, ?_⟩, ?_, ?_, ?_⟩⟩
    · rw [hbrought'.device]
      rfl
    · rw [hbrought.device]
      rfl
    all_goals
      rw [hbrought.device, hbrought'.device, hunused]
      rfl
  have hthere : up.device.drive.kind ≠ .empty := by rwa [hbrought.device]
  obtain ⟨disk, hprobed⟩ := Site.exists_answers_probe (hreached.fits hready.sound hregular)
    (Site.knows_of_bringUp hbrought) hthere
  refine ⟨_, disk, up, new, hended, hended', hprobed, fun events hallowed => ?_⟩
  obtain ⟨hanswers, hleft⟩ :=
    htwins.run hreached' hregular' hready'.sound hreached hregular hready.sound
    hallowed
  exact ⟨hanswers.symm, hleft⟩

namespace Site

/-- Behind any allowed run of events on a port that was brought up, whatever faults and switches the
run contains, the driver takes the port down. That returns, leaves PxCMD and PxCI clear and
everything else of the port as it was, the device included, and logs nothing. Then any switches may
be thrown. If the port can be brought up again, with any number, slots, config and areas, it comes
up and lives exactly like a port that was never used with the same device behind it: it is
identified with the same answer, and every further run has the same answers. The two may be granted
memory in different places. -/
theorem second_life_run {number slots : Nat} {config : Config} {start ready : World SimulatedPort}
    {port : Port} {engine : Engine} (hpos : 1 ≤ slots) (hdown : start.device.registers.cmd = 0)
    (hbounded : start.device.stalled = true → config.completionLimit.isSome = true)
    (hregular : start.device.drive.Regular)
    (hup : (HostM.bringUp (.port number) number slots config).exec start =
      (.ok (.ok (port, engine)), ready))
    {events : List Event} (hallowed : ∀ event ∈ events, event.Allowed config) :
    let site := Site.run { port, engine, world := ready } events
    ∃ torn, site.engine.takeDown.exec site.world = (.ok (), torn) ∧
      torn.device = site.world.device.withRegisters
        { site.world.device.registers with cmd := 0, ci := 0 } ∧
      torn.log = site.world.log ∧
      ∀ (again fresh : World SimulatedPort) (switches : List Switch) (number slots : Nat)
        (config : Config) (areas others : PortAreas),
        again.device = torn.device.thrown switches → fresh.device = again.device.unused →
        again.Ready slots config areas → fresh.Ready slots config others →
        again.LiveAlike fresh number slots config areas others := by
  intro site
  have hreached : Reached config start site :=
    (reached_of_bringUp hpos hbounded (HostM.broughtUp_of_exec hdown hup)).run hallowed
  obtain ⟨torn, hended, hdevice, hlog⟩ := Engine.exists_takeDown hreached.steady
  refine ⟨torn, hended, hdevice, hlog, ?_⟩
  intro again fresh switches number slots config areas others hswitched hunused hfirst hsecond
  have hsame : again.device.drive.nameplate = start.device.drive.nameplate := by
    rw [hswitched, SimulatedPort.nameplate_thrown, hdevice]
    exact hreached.nameplate
  have hkind : again.device.drive.kind = start.device.drive.kind := congrArg Prod.fst hsame
  refine hfirst.liveAlike hsecond number ?_ ?_ (hregular.of_nameplate hsame) hunused
  · rw [hswitched, SimulatedPort.registers_thrown, hdevice]
    rfl
  · rw [hkind]
    exact HostM.present_of_bringUp hup

/-- The hypotheses are met by a disk that discarded sectors, failed a read and left a write pending:
its driver takes the port down, the stall ends, and another driver waits without a limit. -/
theorem second_life_run_failed_and_stalled :
    let start := World.around (.disk (.blank sectorSize 8))
    let events : List Event :=
      [.called .probe, .called (.onEngine (.discardSectors 1 2)),
        .switched (.inject Opcode.readDmaExt (.taskFile 0x10)),
        .called (.onDisk (.read 0 1024 (List.replicate 1024 0))), .switched (.stall true),
        .called (.onDisk (.write 3 2 [1, 2]))]
    ∃ port engine ready,
      (HostM.bringUp (.port 0) 0 1 { readyLimit := 4, completionLimit := some 4 }).exec start =
        (.ok (.ok (port, engine)), ready) ∧
      let site := Site.run { port, engine, world := ready } events
      ∃ torn, site.engine.takeDown.exec site.world = (.ok (), torn) ∧
        torn.device = site.world.device.withRegisters
          { site.world.device.registers with cmd := 0, ci := 0 } ∧
        torn.log = site.world.log ∧
        let again := { start with device := torn.device.thrown [.stall false] }
        let fresh := { start with device := again.device.unused }
        again.LiveAlike fresh 0 2 { readyLimit := 2, completionLimit := none } risingAreas
          risingAreas := by
  intro start events
  have hpresent : (Drive.disk (.blank sectorSize 8)).kind ≠ .empty := by decide
  let config : Config := { readyLimit := 4, completionLimit := some 4 }
  obtain ⟨port, engine, ready, hup, _⟩ := exists_bringUp_around hpresent 0 1
    (show 0 < config.readyLimit.toNat by decide)
  have hallowed : ∀ event ∈ events, event.Allowed config := by
    intro event hmember
    simp only [events, List.mem_cons, List.not_mem_nil, or_false] at hmember
    rcases hmember with rfl | rfl | rfl | rfl | rfl | rfl
    · exact True.intro
    · exact True.intro
    · exact True.intro
    · exact True.intro
    · exact rfl
    · exact True.intro
  obtain ⟨torn, hended, hdevice, hlog, hlives⟩ := second_life_run (Nat.le_refl 1) rfl (fun _ => rfl)
    (regular_disk rfl) hup hallowed
  refine ⟨port, engine, ready, hup, torn, hended, hdevice, hlog, ?_⟩
  have hgranted (device : SimulatedPort) :
      (PortAreas.allocate.exec { start with device }).1 = .ok (.ok risingAreas) := by
    rw [← allocate_around .empty]
    exact (PortAreas.clerical_allocate.alike _ _ ⟨rfl, rfl⟩).1
  apply hlives _ _ [.stall false] 0 2 _ _ _ rfl rfl
  · exact ⟨by decide, by decide, nofun, hgranted _, sound_risingAreas⟩
  · exact ⟨by decide, by decide, nofun, hgranted _, sound_risingAreas⟩

end Site

end Ahci
