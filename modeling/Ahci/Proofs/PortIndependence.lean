import Ahci.Proofs.DeviceKnowledge
import Ahci.Proofs.Starting

/-!
Ports by themselves. What comes of starting a port that is independent of the others depends on
nothing but the port and the memory that it is granted, and it is what comes of bringing the port
up. A simulated port is independent, whatever its device does.
-/

namespace Ahci

variable {σ τ : Type}

/-- PxSSTS and PxSIG of a port read as given, however often and in whichever order they are read. -/
def Device.Stable [Device τ] (window : Window) (status signature : UInt32) (port : τ) : Prop :=
  ∃ Kept : τ → Prop, Kept port ∧ ∀ port memory, Kept port →
    let looked := Device.read window PortRegister.ssts port memory
    let told := Device.read window PortRegister.sig port memory
    (looked.1 = status ∧ Kept looked.2) ∧ told.1 = signature ∧ Kept told.2

/-- A world in which a port waits to be started, with the patience and the memory that it would find
there. -/
structure World.Offers (world : World τ) (patience : Nat) (port : τ)
    (grant : Except DriverError PortAreas) : Prop where
  device : world.device = port
  patience : world.patience = patience
  granted : (PortAreas.allocate.exec world).1 = .ok grant

/-- Starts a port behind a look at what is attached to it, as the adapter does. -/
def Adapter.lookAndStart [Device σ] (number slots : Nat) (config : Config) :
    HostM σ (Except DriverError (Disk × Engine)) := do
  let _ ← HostM.attachment (.port number)
  startDevice number slots config

/-- What is known of the ports of an adapter, each by itself: its link status and signature, the
memory it is granted, and how it answers to being started with that. -/
structure PortFamily where
  status : Nat → UInt32
  signature : Nat → UInt32
  grant : Nat → Except DriverError PortAreas
  answer : Nat → Except Halt (Except DriverError (Disk × Engine))

namespace PortFamily

def attached (family : PortFamily) (number : Nat) : Attachment :=
  .classify (family.status number) (family.signature number)

/-- The family describes a port: its link status and signature are stable, and if it hosts a block
device it answers to a start by nothing but itself, its patience and its grant, in every world that
offers them. -/
structure Describes [Device τ] (family : PortFamily) (slots : Nat) (config : Config)
    (patience number : Nat) (port : τ) : Prop where
  stable : Device.Stable (.port number) (family.status number) (family.signature number) port
  independent : (family.attached number).isBlockDevice = true → ∀ world : World τ,
    world.Offers patience port (family.grant number) →
      ((Adapter.lookAndStart number slots config).exec world).1 = family.answer number

/-- Starting a port asks for its memory as the allocator then grants it, and leaves the allocator as
asking for that memory alone would. -/
def Frugal [Device τ] (family : PortFamily) (slots : Nat) (config : Config)
    (patience number : Nat) (port : τ) : Prop :=
  (family.attached number).isBlockDevice = true → ∀ world : World τ,
    world.Offers patience port (family.grant number) →
      World.SameGrants ((Adapter.lookAndStart number slots config).exec world).2
        (PortAreas.allocate.exec world).2

/-- What a port yields to the adapter: a device, none if it hosts no block device or does not start,
or a wait without an end. -/
def yield (family : PortFamily) (number : Nat) : Except Halt (Option (Disk × Engine)) :=
  if (family.attached number).isBlockDevice then (family.answer number).map Except.toOption
  else .ok none

/-- The device that a port yields, if it yields one. -/
def device? (family : PortFamily) (number : Nat) : Option (Disk × Engine) :=
  match family.yield number with
  | .ok device => device
  | .error _ => none

/-- A port with a block device yields the device that its start returns, or none if it fails. -/
theorem device?_of_answer {family : PortFamily} {number : Nat}
    {outcome : Except DriverError (Disk × Engine)}
    (hblock : (family.attached number).isBlockDevice = true)
    (hanswer : family.answer number = .ok outcome) :
    family.device? number = outcome.toOption := by
  rw [device?, yield, if_pos hblock, hanswer]
  rfl

theorem device?_of_vacant {family : PortFamily} {number : Nat}
    (hvacant : (family.attached number).isBlockDevice = false) : family.device? number = none := by
  rw [device?, yield, hvacant]
  rfl

/-- A port whose start returns yields its device, if it has one. -/
theorem yield_of_isOk {family : PortFamily} {number : Nat}
    (hanswered : (family.yield number).isOk = true) :
    family.yield number = .ok (family.device? number) := by
  unfold device?
  cases hyielded : family.yield number with
  | ok device => rfl
  | error reason =>
    rw [hyielded] at hanswered
    cases hanswered

/-- A port without an answer hosts a block device whose start does not return. -/
theorem answer_of_yield_error {family : PortFamily} {number : Nat} {reason : Halt}
    (hyielded : family.yield number = .error reason) :
    (family.attached number).isBlockDevice = true ∧ family.answer number = .error reason := by
  unfold yield at hyielded
  split at hyielded
  · next hblock =>
    refine ⟨hblock, ?_⟩
    cases hanswer : family.answer number with
    | ok outcome =>
      rw [hanswer] at hyielded
      cases hyielded
    | error other =>
      rw [hanswer] at hyielded
      cases hyielded
      rfl
  · cases hyielded

end PortFamily

/-- The look at a stable port always sees what its registers tell, and leaves it stable. -/
theorem HostM.exists_attachment_of_stable [Device τ] {window : Window} {status signature : UInt32}
    {world : World τ} (hstable : Device.Stable window status signature world.device) :
    ∃ looked, (attachment window).exec world = (.ok (.classify status signature), looked) ∧
      Device.Stable window status signature looked.device := by
  obtain ⟨Kept, hkept, hreads⟩ := hstable
  obtain ⟨⟨htold, hkept⟩, _⟩ := hreads world.device world.memory hkept
  obtain ⟨_, hnamed, hkept⟩ := hreads _ world.memory hkept
  rw [attachment, exec_bind_ok (exec_readRegister _ _ _), exec_bind_ok (exec_readRegister _ _ _)]
  refine ⟨_, Prod.ext ?_ rfl, Kept, hkept, hreads⟩
  rw [← htold, ← hnamed]
  rfl

namespace Adapter

variable [Device τ] {family : PortFamily} {config : Config} {slots patience number : Nat}
  {port : τ}

/-- What a described port yields is what comes of bringing it up and, if it comes up, of identifying
the device on it. -/
theorem exists_started_of_describes
    (hdescribes : family.Describes slots config patience number port)
    (hblock : (family.attached number).isBlockDevice = true) {world : World τ}
    (hoffers : world.Offers patience port (family.grant number)) :
    ∃ brought ready, (do
        let _ ← HostM.attachment (.port number)
        HostM.bringUp (.port number) number slots config).exec world = (.ok brought, ready) ∧
      Started number (family.attached number) config brought (family.answer number) := by
  have hstable := hdescribes.stable
  rw [← hoffers.device] at hstable
  obtain ⟨looked, htold, hstill⟩ := HostM.exists_attachment_of_stable hstable
  obtain ⟨_, hseen, _⟩ := HostM.exists_attachment_of_stable hstill
  obtain ⟨brought, ready, hup, hstarted⟩ := exists_started number slots config hseen
  have hanswered := hdescribes.independent hblock world hoffers
  rw [lookAndStart, HostM.exec_bind_ok htold] at hanswered
  rw [hanswered] at hstarted
  exact ⟨brought, ready, by rw [HostM.exec_bind_ok htold, hup], hstarted⟩

end Adapter

/-! Simulated ports. -/

namespace World

theorem SameGrants.trans {first second third : World σ} (hearly : SameGrants first second)
    (hlate : SameGrants second third) : SameGrants first third :=
  ⟨hearly.allocator.trans hlate.allocator, hearly.frameEvents.trans hlate.frameEvents⟩

theorem SameGrants.symm {first second : World σ} (hsame : SameGrants first second) :
    SameGrants second first :=
  ⟨hsame.allocator.symm, hsame.frameEvents.symm⟩

theorem Progress.sameGrants {first second : World σ} {issued : Nat}
    (hprogress : first.Progress second issued) : SameGrants second first :=
  ⟨hprogress.allocator, hprogress.frameEvents⟩

end World

/-- A step on the registers of a port makes no difference to what is granted. -/
theorem HostM.Touches.sameGrants [Device σ] {α : Type} {step : HostM σ α} {window : Window}
    {traffic : Traffic} {reasons : Halt → Prop} (htouches : step.Touches window traffic reasons)
    (world : World σ) : World.SameGrants (step.exec world).2 world :=
  htouches.keeps (fun after => World.SameGrants after world)
    (fun _ _ hsame => ⟨hsame.allocator, hsame.frameEvents⟩)
    (fun _ _ hsame => ⟨hsame.allocator, hsame.frameEvents⟩)
    (fun _ _ _ _ hsame => ⟨hsame.allocator, hsame.frameEvents⟩) world ⟨rfl, rfl⟩

namespace HostM.BringUpEnds

variable [Device σ] {window : Window} {number slots : Nat} {config : Config}
  {attached : Attachment} {looked ready : World σ}

/-- To stop the engine first makes no difference to what is granted, whether the stop succeeds or
not. -/
theorem allocate_of_stop {limit : Nat} {stopped : World σ} {outcome : Except DriverError Unit}
    (hstop : (stopEngine window limit).exec looked = (.ok outcome, stopped)) :
    (PortAreas.allocate.exec stopped).1 = (PortAreas.allocate.exec looked).1 ∧
      World.SameGrants (PortAreas.allocate.exec stopped).2 (PortAreas.allocate.exec looked).2 := by
  have hsame := (touches_stopEngine window limit).sameGrants looked
  rw [hstop] at hsame
  exact PortAreas.clerical_allocate.alike _ _ hsame

/-- A bring-up that succeeded asked for the memory of its port and for nothing else. -/
theorem sameGrants {brought : Port × Engine}
    (hends : BringUpEnds window number slots config attached looked (.ok brought) ready) :
    World.SameGrants ready (PortAreas.allocate.exec looked).2 := by
  cases hends with
  | @up areas stopped owning programmed started log hblock hstop hasked htold hstart =>
    have hgranted := (allocate_of_stop hstop).2
    rw [hasked] at hgranted
    have hprogrammed : World.SameGrants programmed owning := by
      obtain rfl := congrArg Prod.snd htold
      exact ⟨rfl, rfl⟩
    have hlate := (touches_startEngine window config.readyLimit.toNat).sameGrants programmed
    rw [hstart] at hlate
    have hwhole : World.SameGrants started (PortAreas.allocate.exec looked).2 :=
      hlate.trans (hprogrammed.trans hgranted)
    exact ⟨hwhole.allocator, hwhole.frameEvents⟩

/-- A port that could be stopped and is refused memory fails with the reason of the refusal. -/
theorem of_refused {answer : Except DriverError (Port × Engine)} {error : DriverError}
    (hends : BringUpEnds window number slots config attached looked answer ready)
    (hblock : attached.isBlockDevice = true) {stopped : World σ}
    (hstop : (stopEngine window config.readyLimit.toNat).exec looked = (.ok (.ok ()), stopped))
    (hrefused : (PortAreas.allocate.exec looked).1 = .ok (.error error)) :
    answer = .error error ∧ World.SameGrants ready (PortAreas.allocate.exec looked).2 := by
  obtain ⟨houtcome, hsame⟩ := allocate_of_stop hstop
  rw [hrefused] at houtcome
  cases hends with
  | vacant hnone => rw [hblock] at hnone; cases hnone
  | unstopped _ hfailed => rw [hstop] at hfailed; cases hfailed
  | refused _ hstop' hasked =>
    rw [hstop] at hstop'
    cases hstop'
    rw [hasked] at houtcome hsame
    cases houtcome
    exact ⟨rfl, hsame⟩
  | unstarted _ hstop' hasked | up _ hstop' hasked =>
    rw [hstop] at hstop'
    cases hstop'
    rw [hasked] at houtcome
    cases houtcome

end HostM.BringUpEnds

/-- A known device is taken for a packet drive exactly if it is one. -/
theorem Disk.Describes.isOptical_eq {disk : Disk} {drive : Drive}
    (hdescribes : disk.Describes drive) :
    disk.isOptical = decide (drive.kind = .packetDrive) := by
  cases hdescribes <;> simp [isOptical, *]

namespace SimulatedPort

variable {port : SimulatedPort} {config : Config} {slots : Nat}

/-- A simulated port is stable at every window, since reading it changes nothing. -/
theorem stable (port : SimulatedPort) (window : Window) :
    Device.Stable window (port.readRegister PortRegister.ssts)
      (port.readRegister PortRegister.sig) port := by
  refine ⟨(· = port), rfl, ?_⟩
  rintro _ memory rfl
  exact ⟨⟨rfl, rfl⟩, rfl, rfl⟩

theorem isBlockDevice_attachment (hpresent : port.drive.kind ≠ .empty) :
    port.attachment.isBlockDevice = true := by
  rw [attachment_eq]
  cases hkind : port.drive.kind with
  | empty => exact absurd hkind hpresent
  | disk => rfl
  | packetDrive => rfl

theorem exists_attachment (number : Nat) {world : World SimulatedPort}
    (hsame : world.device = port) : ∃ looked,
      (HostM.attachment (.port number)).exec world = (.ok port.attachment, looked) ∧
        looked.device = port ∧ World.SameGrants looked world := by
  subst hsame
  obtain ⟨looked, htold, haround, hprogress⟩ :=
    HostM.yields_attachment (.port number) world.device world.memory world rfl
  exact ⟨looked, htold, congrArg Machine.device haround, hprogress.sameGrants⟩

/-- A simulated port that is down and is refused memory fails with just that reason, whatever its
device is. -/
theorem exists_refusal (number : Nat) (hdown : port.registers.cmd = 0)
    (hpresent : port.drive.kind ≠ .empty) {patience : Nat} {error : DriverError}
    {world : World SimulatedPort} (hoffers : world.Offers patience port (.error error)) :
    ∃ after, (Adapter.lookAndStart number slots config).exec world =
        (.ok (.error error), after) ∧
      World.SameGrants after (PortAreas.allocate.exec world).2 := by
  obtain ⟨looked, htold, hstill, hearly⟩ := exists_attachment number hoffers.device
  obtain ⟨again, hseen, hsame, hlate⟩ := exists_attachment number hstill
  have hasked := PortAreas.clerical_allocate.alike _ _ (hlate.trans hearly)
  obtain ⟨stopped, hstop, _⟩ := HostM.yields_stopEngine_of_down (.port number)
    config.readyLimit.toNat hdown again.memory again (by rw [← hsame]; rfl)
  obtain ⟨answer, ready, hup, hends⟩ := HostM.exists_bringUp_ends number slots config hseen
  obtain ⟨rfl, hgrants⟩ := hends.of_refused (isBlockDevice_attachment hpresent) hstop
    (hasked.1.trans hoffers.granted)
  refine ⟨ready, ?_, hgrants.trans hasked.2⟩
  rw [Adapter.lookAndStart, HostM.exec_bind_ok htold, Adapter.startDevice, HostM.exec_bind_ok hup]
  rfl

/-- A simulated port that is down answers a start by itself and by the memory it is granted, and
takes no other memory. It has a device, known for what it is, if the memory is sound and the port
stalled only under a driver that limits its waits. -/
theorem exists_outcome (number : Nat) (hdown : port.registers.cmd = 0)
    (hpresent : port.drive.kind ≠ .empty) (hregular : port.drive.Regular) (hpos : 1 ≤ slots)
    (hpatient : 0 < config.readyLimit.toNat)
    (hbounded : port.stalled = true → config.completionLimit.isSome = true) (patience : Nat)
    {areas : PortAreas} (hsized : areas.Sized) (hsound : areas.Sound) :
    ∃ disk left, disk.Describes port.drive ∧
      ∀ world : World SimulatedPort, world.Offers patience port (.ok areas) →
        ∃ after, (Adapter.lookAndStart number slots config).exec world =
            (.ok (.ok (disk, left)), after) ∧
          World.SameGrants after (PortAreas.allocate.exec world).2 := by
  let engine : Engine :=
    { window := .port number, number, areas, slots := .ofCount slots, config }
  have hsteady : engine.Steady (port.rested areas) :=
    ⟨⟨slots, hpos, rfl⟩, hpatient, ⟨0, rfl, rfl⟩, hbounded⟩
  have hfits : engine.Fits (port.rested areas) := ⟨hsteady, hsized, hsound.layout hsized, hregular⟩
  have hattached : (⟨number, port.attachment⟩ : Port).attachment =
      (port.rested areas).attachment := by
    rw [attachment_eq (port.rested areas)]
    exact attachment_eq port
  obtain ⟨disk, left, probed, issued, hpasses, hdescribes⟩ :=
    Disk.exists_probe_passes hfits hpresent hattached
  refine ⟨disk, left, hdescribes, fun world hoffers => ?_⟩
  obtain ⟨looked, htold, hstill, hearly⟩ := exists_attachment number hoffers.device
  obtain ⟨again, hseen, hsame, hlate⟩ := exists_attachment number hstill
  have hasked := PortAreas.clerical_allocate.alike _ _ hearly
  have hgranted : (PortAreas.allocate.exec looked).1 = .ok (.ok areas) :=
    hasked.1.trans hoffers.granted
  obtain ⟨answer, ready, hup, hbrought, hforward⟩ :=
    HostM.exists_bringUp (.port number) number slots
    config looked (by rw [hstill]; exact hdown)
  obtain ⟨there, engine_, rfl, hareas⟩ :=
    hforward areas hgranted (by rw [hstill]; exact isBlockDevice_attachment hpresent) hpatient
  obtain ⟨hattached', hconfigured, _, _, _, hdevice, _⟩ := hbrought there engine_ rfl
  have hhead : engine_ = engine := by rw [hconfigured, hareas]
  have hport : there = ⟨number, port.attachment⟩ := by rw [hattached', hstill]
  rw [hareas, hstill] at hdevice
  subst hhead hport
  obtain ⟨_, _, hup', hends⟩ := HostM.exists_bringUp_ends number slots config hseen
  rw [hup] at hup'
  cases hup'
  obtain ⟨changed, hyields⟩ := hpasses.foretold ready.memory
  obtain ⟨after, hended, _, hprogress⟩ := hyields ready (by rw [← hdevice]; rfl)
  refine ⟨after, ?_, ?_⟩
  · rw [Adapter.lookAndStart, HostM.exec_bind_ok htold, Adapter.startDevice,
      HostM.exec_bind_ok hup]
    exact HostM.exec_bind_ok hended
  · have hagain := (PortAreas.clerical_allocate.alike _ _ hlate).2
    exact hprogress.sameGrants.trans (hends.sameGrants.trans (hagain.trans hasked.2))

/-- Simulated ports that are down are described by a family and frugal, whatever each of them is
granted. One that is refused memory fails with that reason, and one that is granted sound memory has
its device. -/
theorem exists_family {ports : Nat → SimulatedPort}
    (hdown : ∀ number, (ports number).registers.cmd = 0)
    (hregular : ∀ number, (ports number).drive.Regular) (hpos : 1 ≤ slots)
    (hpatient : 0 < config.readyLimit.toNat)
    (hbounded : ∀ number, (ports number).stalled = true → config.completionLimit.isSome = true)
    {grant : Nat → Except DriverError PortAreas}
    (hsound : ∀ number areas, grant number = .ok areas → areas.Sized ∧ areas.Sound)
    (patience : Nat) :
    ∃ family : PortFamily, family.grant = grant ∧
      ∀ number, family.attached number = (ports number).attachment ∧
        family.Describes slots config patience number (ports number) ∧
        family.Frugal slots config patience number (ports number) ∧
        ((ports number).drive.kind ≠ .empty → match grant number with
          | .error error => family.answer number = .ok (.error error)
          | .ok _ => ∃ disk left, family.answer number = .ok (.ok (disk, left)) ∧
              disk.Describes (ports number).drive) := by
  have heach (number : Nat) : ∃ answer, (ports number).drive.kind ≠ .empty →
      (∀ world : World SimulatedPort, world.Offers patience (ports number) (grant number) →
        ∃ after, (Adapter.lookAndStart number slots config).exec world = (answer, after) ∧
          World.SameGrants after (PortAreas.allocate.exec world).2) ∧
      match grant number with
        | .error error => answer = .ok (.error error)
        | .ok _ => ∃ disk left, answer = .ok (.ok (disk, left)) ∧
            disk.Describes (ports number).drive := by
    cases hgranted : grant number with
    | error error =>
      refine ⟨.ok (.error error), fun hpresent => ⟨fun world hoffers => ?_, rfl⟩⟩
      exact exists_refusal number (hdown number) hpresent hoffers
    | ok areas =>
      by_cases hpresent : (ports number).drive.kind = .empty
      · exact ⟨.error .unending, fun hother => absurd hpresent hother⟩
      · obtain ⟨hsized, hapart⟩ := hsound number areas hgranted
        obtain ⟨disk, left, hdescribes, hstarts⟩ := exists_outcome number (hdown number) hpresent
          (hregular number) hpos hpatient (hbounded number) patience hsized hapart
        exact ⟨.ok (.ok (disk, left)), fun _ => ⟨hstarts, disk, left, rfl, hdescribes⟩⟩
  obtain ⟨answer, hknown⟩ := Classical.axiomOfChoice heach
  let family : PortFamily :=
    { status := fun number => (ports number).readRegister PortRegister.ssts
      signature := fun number => (ports number).readRegister PortRegister.sig
      grant, answer }
  have hpresent {number : Nat} (hblock : (family.attached number).isBlockDevice = true) :
      (ports number).drive.kind ≠ .empty := by
    intro hempty
    have habsent : (ports number).attachment = .absent := by rw [attachment_eq, hempty]
    have hblock : (ports number).attachment.isBlockDevice = true := hblock
    rw [habsent] at hblock
    cases hblock
  refine ⟨family, rfl, fun number => ⟨rfl, ⟨(ports number).stable _, ?_⟩, ?_, ?_⟩⟩
  · intro hblock world hoffers
    obtain ⟨after, hended, _⟩ := (hknown number (hpresent hblock)).1 world hoffers
    rw [hended]
  · intro hblock world hoffers
    obtain ⟨after, hended, hgrants⟩ := (hknown number (hpresent hblock)).1 world hoffers
    rwa [hended]
  · exact fun hpresent => (hknown number hpresent).2

end SimulatedPort

end Ahci
