import Ahci.Proofs.DriverCalls
import Ahci.Proofs.PortBringUp
import Ahci.Simulation.RisingFrames

/-!
Runs of a port. A `Site` is a simulated port with what its driver has of it, from its
bring-up on; its events are calls of the driver and switches that are thrown behind its back.
A switch changes nothing that a steady port is known by and a call keeps a steady port
steady, so by induction the port is steady after every event of every run.
-/

namespace Ahci

/-! The events of a run. -/

/-- A change to the hardware that the driver is not told of. -/
inductive Switch where
  /-- A failure is queued for the next command of a code. -/
  | inject (opcode : UInt8) (fault : Fault)
  | busy (on : Bool)
  /-- Commands are left pending. -/
  | stall (on : Bool)

namespace Switch

/-- The port with the switch thrown: a fault is queued behind those there are, and the other two set
a state of the port. -/
def apply : Switch → SimulatedPort → SimulatedPort
  | inject opcode fault, port =>
    { port with drive := { port.drive with faults := port.drive.faults ++ [(opcode, fault)] } }
  | busy on, port => { port with busy := on }
  | stall on, port => { port with stalled := on }

/-- The switches that a run may contain. A port may be stalled only if the driver limits its waits,
since a wait without a limit would not end there. -/
def Allowed (config : Config) : Switch → Prop
  | stall true => config.completionLimit.isSome = true
  | _ => True

end Switch

/-- A call of a client on an identified device. Numbers and buffers are arbitrary: they need fit
neither the device nor each other. -/
inductive DiskCall where
  | read (start bytes : Nat) (buffer : List UInt8)
  | write (start bytes : Nat) (buffer : List UInt8)
  | clear (start bytes : Nat)
  | eject
  | requestSense

/-- What a call does, and its outcome as the client sees it. -/
def DiskCall.run (disk : Disk) : DiskCall → EngineM SimulatedPort Bench.Outcome
  | read start bytes buffer => do
    let (placed, buffer) ← disk.read start bytes buffer
    return .read placed buffer
  | write start bytes buffer =>
    .ofRequest (fun _ => .ok) <$> (disk.write start bytes buffer).run
  | clear start bytes => .ofRequest (fun _ => .ok) <$> (disk.clear start bytes).run
  | eject => .ofRequest (fun _ => .ok) <$> disk.eject.run
  | requestSense => .ofRequest (.sense ∘ some) <$> disk.requestSense.run

/-- A call of the driver on a port that was brought up. -/
inductive Call where
  /-- Identifies the device. -/
  | probe
  /-- Does nothing before the device was identified. -/
  | onDisk (call : DiskCall)
  | onEngine (step : Bench.EngineStep)

/-- What a call answers, and the device as it is known behind it. A call on the device before it was
identified does nothing. -/
def Call.run (port : Port) (disk? : Option Disk) :
    Call → EngineM SimulatedPort (Bench.Outcome × Option Disk)
  | probe => do
    match ← Disk.probe port with
    | .ok disk => return (.disk disk, some disk)
    | .error error => return (.driverError error, none)
  | onDisk call =>
    match disk? with
    | some disk => (·, disk?) <$> call.run disk
    | none => return (.noHandle, none)
  | onEngine step => (·, disk?) <$> step.run

/-- What can happen to a site: a switch thrown in the hardware, or a call made by the driver. -/
inductive Event where
  | switched (switch : Switch)
  | called (call : Call)

/-- Switches are restricted as above; every call is allowed. -/
def Event.Allowed (config : Config) : Event → Prop
  | switched switch => switch.Allowed config
  | called _ => True

/-- A simulated port, with what its driver knows of it and the world around both. -/
structure Site where
  port : Port
  /-- The device, once it was identified. -/
  disk? : Option Disk := none
  engine : Engine
  world : World SimulatedPort

namespace Site

/-- What a call on the site ends with. -/
def exec (site : Site) (call : Call) :
    Except Halt ((Bench.Outcome × Option Disk) × Engine) × World SimulatedPort :=
  (call.run site.port site.disk?).exec site.engine site.world

/-- The site behind an event. A call that halts leaves the engine and the known device as they were,
but its world is the one it halted in. -/
def after (site : Site) : Event → Site
  | .switched switch =>
    { site with world := { site.world with device := switch.apply site.world.device } }
  | .called call =>
    match site.exec call with
    | (.ok ((_, disk?), engine), world) => { site with disk?, engine, world }
    | (.error _, world) => { site with world }

/-- The site behind a list of events, in their order. -/
def run (site : Site) (events : List Event) : Site :=
  events.foldl after site

theorem world_after (site : Site) (call : Call) :
    (site.after (.called call)).world = (site.exec call).2 := by
  rw [after]
  rcases site.exec call with ⟨reason | ⟨⟨outcome, disk?⟩, left⟩, world⟩ <;> rfl

/-- What is known of a site reached from the world in which its port was brought up. Its engine is
steady and keeps its config and areas, the drive is still the one of the start by what its identity
says, every command it fetched since was in slot 0, and the log shows no new error. -/
structure Reached (config : Config) (start : World SimulatedPort) (site : Site) : Prop where
  steady : site.engine.Steady site.world.device
  config : site.engine.config = config
  granted : (PortAreas.allocate.exec start).1 = .ok (.ok site.engine.areas)
  nameplate : site.world.device.drive.nameplate = start.device.drive.nameplate
  fetched : ∃ made, site.world.device.fetched = made ++ start.device.fetched ∧
    ∀ command ∈ made, command.slot = 0
  mild : start.Mild site.world

end Site

namespace DiskCall

theorem driven_run (disk : Disk) (call : DiskCall) : (call.run disk).Driven fun _ => False := by
  cases call with
  | read start bytes buffer =>
    exact (disk.driven_read start bytes buffer).conclude fun _ => .pure not_false
  | write start bytes buffer =>
    exact (disk.driven_write start bytes buffer).map _ fun _ => False.elim
  | clear start bytes => exact (disk.driven_clear start bytes).map _ fun _ => False.elim
  | eject => exact disk.driven_eject.map _ fun _ => False.elim
  | requestSense => exact disk.driven_requestSense.map _ fun _ => id

end DiskCall

namespace Call

theorem driven_run (port : Port) (disk? : Option Disk) (call : Call) :
    (call.run port disk?).Driven fun _ => False := by
  cases call with
  | probe =>
    refine (Disk.driven_probe port).conclude fun answer => ?_
    cases answer <;> exact .pure not_false
  | onDisk call =>
    cases disk? with
    | none => exact .pure _
    | some disk => exact (call.driven_run disk).map _ fun _ => id
  | onEngine step => exact step.driven_run.map _ fun _ => id

end Call

namespace Site

variable {config : Config} {start : World SimulatedPort} {site : Site}

/-- A port that was brought up is reached, with the engine that its bring-up returned, provided it
has a slot and is not stalled without a limit on the waits of the driver. -/
theorem reached_of_bringUp {number slots : Nat} {port : Port} {engine : Engine}
    {ready : World SimulatedPort} (hpos : 0 < slots)
    (hbounded : start.device.stalled = true → config.completionLimit.isSome = true)
    (hup : HostM.BroughtUp (.port number) number slots config start port engine ready) :
    Reached config start { port, engine, world := ready } where
  steady := by
    refine ⟨⟨slots, hpos, ?_⟩, ?_, ?_, ?_⟩
    · rw [hup.configured]
    · rw [hup.configured]
      exact hup.patient
    · exact ⟨0, rfl, congrArg SimulatedPort.registers hup.device⟩
    · rw [hup.configured, hup.device]
      exact hbounded
  config := by rw [hup.configured]
  granted := hup.granted
  nameplate := by rw [hup.device]; rfl
  fetched := ⟨[], by rw [hup.device]; rfl, by simp⟩
  mild := hup.mild

/-- An allowed switch leaves a reached site reached: it touches neither the registers nor the
identity of the drive. -/
theorem Reached.switch (hreached : Reached config start site) {switch : Switch}
    (hallowed : switch.Allowed config) : Reached config start (site.after (.switched switch)) := by
  obtain ⟨status, hsound, hregisters⟩ := hreached.steady.registers
  refine ⟨⟨hreached.steady.free, hreached.steady.patient, ⟨status, hsound, ?_⟩, ?_⟩,
    hreached.config, hreached.granted, ?_, ?_, hreached.mild⟩
  · cases switch <;> exact hregisters
  · intro hstalled
    cases switch with
    | inject opcode fault => exact hreached.steady.bounded hstalled
    | busy on => exact hreached.steady.bounded hstalled
    | stall on =>
      have hsame : on = true := hstalled
      subst hsame
      change site.engine.config.completionLimit.isSome = true
      rw [hreached.config]
      exact hallowed
  · rw [← hreached.nameplate]
    cases switch <;> rfl
  · cases switch <;> exact hreached.fetched

/-- A site is reached from a reached one if its engine differs by at most the sense it remembers,
the port is steady under it, follows from the port before, and the log shows no new error. -/
theorem Reached.of_settled (hreached : Reached config start site) {later : Site}
    (hengine : ∃ sense, later.engine = site.engine.told sense)
    (hsteady : site.engine.Steady later.world.device)
    (hfollows : site.world.device.Follows later.world.device)
    (hmild : site.world.Mild later.world) : Reached config start later := by
  obtain ⟨sense, hsame⟩ := hengine
  obtain ⟨made, hfetched, hslots⟩ := hreached.fetched
  obtain ⟨more, hfurther, hplaces⟩ := hfollows.fetched
  refine ⟨?_, ?_, ?_, hfollows.nameplate.trans hreached.nameplate, ⟨more ++ made, ?_, ?_⟩,
    hreached.mild.trans hmild⟩
  · rw [hsame]
    exact Engine.steady_told.2 hsteady
  · rw [hsame]
    exact hreached.config
  · rw [hsame]
    exact hreached.granted
  · rw [hfurther, hfetched, List.append_assoc]
  · intro command hmember
    rcases List.mem_append.1 hmember with hnew | hold
    · exact hplaces command hnew
    · exact hslots command hold

/-- A call leaves a reached site reached, whatever its arguments, whether it succeeds, fails or
halts. -/
theorem Reached.call (hreached : Reached config start site) (call : Call) :
    Reached config start (site.after (.called call)) := by
  obtain ⟨deeds, hdid, _⟩ := call.driven_run site.port site.disk? site.engine site.world
  obtain ⟨hkept, _⟩ := hdid.keeps hreached.steady
  obtain ⟨issued, hprogress⟩ := hkept.progress
  rcases hended : site.exec call with ⟨reason | ⟨⟨outcome, disk?⟩, left⟩, world⟩
  · have hended' : (call.run site.port site.disk?).exec site.engine site.world =
      (.error reason, world) := hended
    rw [EngineM.Keeps, hended'] at hkept
    rw [hended'] at hprogress
    rw [after, hended]
    exact hreached.of_settled ⟨none, rfl⟩ hkept.steady hkept.follows hprogress.mild
  · have hended' : (call.run site.port site.disk?).exec site.engine site.world =
      (.ok ((outcome, disk?), left), world) := hended
    rw [EngineM.Keeps, hended'] at hkept
    rw [hended'] at hprogress
    rw [after, hended]
    exact hreached.of_settled ⟨_, hkept.left _ _ rfl⟩ hkept.steady hkept.follows hprogress.mild

/-- An allowed event leaves a reached site reached. -/
theorem Reached.after (hreached : Reached config start site) {event : Event}
    (hallowed : event.Allowed config) : Reached config start (site.after event) := by
  cases event with
  | switched switch => exact hreached.switch hallowed
  | called call => exact hreached.call call

/-- By induction on the events, every allowed run leaves a reached site reached. -/
theorem Reached.run (hreached : Reached config start site) {events : List Event}
    (hallowed : ∀ event ∈ events, event.Allowed config) :
    Reached config start (site.run events) := by
  induction events generalizing site with
  | nil => exact hreached
  | cons event events ih =>
    refine ih (hreached.after (hallowed event List.mem_cons_self)) ?_
    exact fun other hmember => hallowed other (List.mem_cons_of_mem event hmember)

theorem Reached.areas (hreached : Reached config start site) {areas : PortAreas}
    (hgranted : (PortAreas.allocate.exec start).1 = .ok (.ok areas)) :
    site.engine.areas = areas := by
  have hsame := hreached.granted.symm.trans hgranted
  simpa using hsame

/-- A site between two calls, seen by its driver and by its port: all slots are free, PxCI is zero,
PxIS shows no error, the engine runs, the device fetched commands from slot 0 only, and neither a
call so far nor the next one is short of a slot. -/
structure Idle (start : World SimulatedPort) (site : Site) : Prop where
  slots : ∀ slot < slotCount, site.engine.slots.state? slot = some .free
  issued : site.world.device.registers.ci = 0
  status : showsError site.world.device.registers.is = false
  running : ∀ bit ∈ [CmdBit.start, CmdBit.listRunning, CmdBit.fisReceive, CmdBit.fisRunning],
    Word.test site.world.device.registers.cmd bit = true
  /-- Every command that the device fetched was in the first slot. -/
  fetched : ∃ made, site.world.device.fetched = made ++ start.device.fetched ∧
    ∀ command ∈ made, command.slot = 0
  /-- No call so far was short of a slot. -/
  plenty : ∀ shortage : SlotShortage, ⟨.error, shortage.message⟩ ∈ site.world.log.lines →
    ⟨.error, shortage.message⟩ ∈ start.log.lines
  /-- The next command will not be short of a slot either. -/
  next : ∀ command, ∃ outcome,
    ((EngineM.runCommand command).exec site.engine site.world).1 = .ok (outcome, site.engine) ∧
      outcome ≠ .error .noSlot

/-- Every reached site is idle, since the parts of being idle follow from a steady port and a mild
log. -/
theorem Reached.idle (hreached : Reached config start site) : site.Idle start := by
  obtain ⟨count, hpos, hfree⟩ := hreached.steady.free
  obtain ⟨status, hsound, hregisters⟩ := hreached.steady.registers
  refine ⟨?_, ?_, ?_, ?_, hreached.fetched, ?_, ?_⟩
  · intro slot hbound
    rw [hfree]
    exact SlotArena.state?_ofCount count hbound
  · rw [hregisters]
    rfl
  · rw [hregisters]
    exact hsound
  · rw [hregisters]
    change ∀ bit ∈ _, Word.test runningCommand bit = true
    decide
  · intro shortage hmember
    obtain ⟨made, hlines, hmild⟩ := hreached.mild
    rw [hlines] at hmember
    rcases List.mem_append.1 hmember with hnew | hold
    · exact absurd rfl (hmild _ hnew)
    · exact hold
  · intro command
    obtain ⟨outcome, after, changed, issued, hyields, hran⟩ :=
      EngineM.exists_runCommand hreached.steady command site.world.memory
    obtain ⟨later, hended, _, _⟩ := hyields site.world rfl
    have hresult : (EngineM.runCommand command).exec site.engine site.world =
      (.ok (outcome, site.engine), later) := hended
    exact ⟨outcome, by rw [hresult], hran.found⟩

/-- Behind every event of every allowed run of a port that was brought up, the site is idle: all
slots are free, PxCI is zero, PxIS shows no error, ST, CR, FRE and FR are set, every command was
fetched from slot 0, and no call was or will be short of a slot. The port has one slot at least and
was down before its bring-up; it may be stalled only if the waits for a completion are limited.
Calls may fail, time out or halt, and the drive may fail any command. -/
theorem idle_run {number slots : Nat} {config : Config} {start ready : World SimulatedPort}
    {port : Port} {engine : Engine} (hpos : 1 ≤ slots)
    (hdown : start.device.registers.cmd = 0)
    (hbounded : start.device.stalled = true → config.completionLimit.isSome = true)
    (hup : (HostM.bringUp (.port number) number slots config).exec start =
      (.ok (.ok (port, engine)), ready))
    {events : List Event} (hallowed : ∀ event ∈ events, event.Allowed config) :
    (Site.run { port, engine, world := ready } events).Idle start := by
  have hreached := reached_of_bringUp hpos hbounded (HostM.broughtUp_of_exec hdown hup)
  exact (hreached.run hallowed).idle

/-- The hypotheses are met by a disk with one slot that fails a read and then leaves a write
pending. -/
theorem idle_run_failed_and_stalled :
    let config : Config := { readyLimit := 4, completionLimit := some 4 }
    let start := World.around (.disk (.blank sectorSize 8))
    let events : List Event :=
      [.called .probe, .switched (.inject Opcode.readDmaExt (.taskFile 0x10)),
        .called (.onDisk (.read 0 1024 (List.replicate 1024 0))), .switched (.stall true),
        .called (.onDisk (.write 3 2 [1, 2]))]
    ∃ port engine ready, (HostM.bringUp (.port 0) 0 1 config).exec start =
        (.ok (.ok (port, engine)), ready) ∧
      (Site.run { port, engine, world := ready } events).Idle start := by
  intro config start events
  have hpresent : (Drive.disk (.blank sectorSize 8)).kind ≠ .empty := by decide
  obtain ⟨port, engine, ready, hup, _⟩ := exists_bringUp_around hpresent 0 1
    (show 0 < config.readyLimit.toNat by decide)
  refine ⟨port, engine, ready, hup, idle_run (Nat.le_refl 1) rfl (fun _ => rfl) hup ?_⟩
  intro event hmember
  simp only [events, List.mem_cons, List.not_mem_nil, or_false] at hmember
  rcases hmember with rfl | rfl | rfl | rfl | rfl
  · exact True.intro
  · exact True.intro
  · exact True.intro
  · exact rfl
  · exact True.intro

end Site

end Ahci
