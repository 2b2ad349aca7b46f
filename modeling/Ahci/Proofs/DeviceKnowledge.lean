import Ahci.Proofs.FlawlessDisk
import Ahci.Proofs.StaleMemory

/-!
What the driver knows of its device. A disk says its sectors and whether it can discard them in
its page, and a disk that could not be identified and a packet drive say neither. What was
learned once stays true over every run, as a device keeps its page and stays what it is.
-/

namespace Ahci

/-- What the driver can know of a drive. A disk is known by its page, with the capacity and the
support for discards that the page tells; a disk that could not be identified has capacity 0 and no
support; a packet drive has no capacity that is known. -/
inductive Disk.Describes (disk : Disk) (drive : Drive) : Prop where
  | identified (page : IdentifyPage) (hkind : drive.kind = .disk)
      (hbytes : page.bytes = drive.page) (htold : disk.kind = .disk (.ofPage page))
      (hblocks : disk.blockCount = UInt64.ofNat page.sectors)
  | unidentified (hkind : drive.kind = .disk) (htold : disk.kind = .disk .none)
      (hblocks : disk.blockCount = 0)
  | optical (hkind : drive.kind = .packetDrive) (htold : disk.kind = .drive)
      (hblocks : disk.blockCount = unboundedCount)

namespace Disk

/-- What is known of a drive is true of every drive with its nameplate. -/
theorem Describes.of_nameplate {disk : Disk} {drive other : Drive}
    (hdescribes : disk.Describes drive) (hsame : other.nameplate = drive.nameplate) :
    disk.Describes other := by
  simp only [Drive.nameplate, Prod.mk.injEq] at hsame
  obtain ⟨hkind, hpage, _⟩ := hsame
  cases hdescribes with
  | identified found hisDisk hbytes htold hblocks =>
    exact .identified found (hkind.trans hisDisk) (hbytes.trans hpage.symm) htold hblocks
  | unidentified hisDisk htold hblocks => exact .unidentified (hkind.trans hisDisk) htold hblocks
  | optical hisDrive htold hblocks => exact .optical (hkind.trans hisDrive) htold hblocks

variable {engine left : Engine} {slot : Port} {disk : Disk}

section Identifying

variable {port : SimulatedPort}

theorem passes_announce (hfits : engine.Fits port) (disk : Disk) (kind : String) :
    (probe.announce slot disk kind).Passes engine port (.ok disk) engine port 0 := by
  apply EngineM.passes_of_still hfits
  intro machine
  have hnoted := HostM.yields_note ("AHCI: " ++ kind ++ " storage, port " ++
    toString slot.number ++ ": " ++ disk.label) (show Severity.info ≠ .error by decide) machine
  exact (EngineM.yields_onHost hnoted engine).seq (EngineM.yields_pure _ engine _)

/-- Identification of a disk ends alike over all memories, with a disk that describes the drive,
whether IDENTIFY succeeds or not. -/
theorem exists_identifyDisk_passes (hfits : engine.Fits port) (hkind : port.drive.kind = .disk) :
    ∃ disk after issued, (identifyDisk slot).Passes engine port disk engine after issued ∧
      disk.Describes port.drive := by
  obtain ⟨answer, after, issued, hsettles, hsame⟩ := RequestM.exists_settles_identify hfits
  have hasked := hsettles.passes
  cases answer with
  | ok page =>
    refine ⟨_, after, _, hasked.bind (EngineM.passes_pure hasked.fits _), ?_⟩
    exact .identified page hkind (hsame page rfl) rfl rfl
  | error error =>
    have hnoted := EngineM.passes_note hasked.fits .warn
      (fun engine => engine.title ++ " IDENTIFY failed: " ++ error.message) (by decide)
    refine ⟨_, after, _, hasked.bind (hnoted.bind (EngineM.passes_pure hasked.fits _)), ?_⟩
    exact .unidentified hkind rfl rfl

/-- Identification of a packet drive ends alike over all memories, with a disk that describes the
drive, whether INQUIRY succeeds or not. -/
theorem exists_identifyDrive_passes (hfits : engine.Fits port)
    (hkind : port.drive.kind = .packetDrive) :
    ∃ disk left after issued, (identifyDrive slot).Passes engine port disk left after issued ∧
      disk.Describes port.drive := by
  obtain ⟨answer, left, after, issued, hasked⟩ :=
    RequestM.exists_inquiry_passes hfits InquiryData.probeLength
  have hsettled := hasked.fits.of_told hasked.left
  cases answer with
  | ok inquiry =>
    refine ⟨_, left, after, _, hasked.bind (EngineM.passes_pure hsettled _), ?_⟩
    exact .optical hkind rfl rfl
  | error error =>
    have hnoted := EngineM.passes_note hsettled .warn
      (fun engine => engine.title ++ " INQUIRY failed: " ++ error.message) (by decide)
    refine ⟨_, left, after, _, hasked.bind (hnoted.bind (EngineM.passes_pure hsettled _)), ?_⟩
    exact .optical hkind rfl rfl

/-- Identification of a device that is there, on a port that fits, ends alike over all memories, and
its disk describes the drive. -/
theorem exists_probe_passes (hfits : engine.Fits port) (hpresent : port.drive.kind ≠ .empty)
    (hattached : slot.attachment = port.attachment) :
    ∃ disk left after issued, (probe slot).Passes engine port (.ok disk) left after issued ∧
      disk.Describes port.drive := by
  rw [probe, hattached, SimulatedPort.attachment_eq]
  cases hkind : port.drive.kind with
  | disk =>
    obtain ⟨disk, after, issued, hfound, hdescribes⟩ := exists_identifyDisk_passes hfits hkind
    exact ⟨disk, engine, after, _, hfound.bind (passes_announce hfound.fits disk _), hdescribes⟩
  | packetDrive =>
    obtain ⟨disk, left, after, issued, hfound, hdescribes⟩ :=
      exists_identifyDrive_passes hfits hkind
    have hsettled := hfound.fits.of_told hfound.left
    exact ⟨disk, left, after, _, hfound.bind (passes_announce hsettled disk _), hdescribes⟩
  | empty => exact absurd hkind hpresent

end Identifying

/-- A disk that identification returned describes the drive that is there. -/
theorem describes_of_probe {world after : World SimulatedPort} (hfits : engine.Fits world.device)
    (hattached : slot.attachment = world.device.attachment)
    (hended : (probe slot).exec engine world = (.ok (.ok disk, left), after)) :
    disk.Describes world.device.drive := by
  by_cases hpresent : world.device.drive.kind = .empty
  · rw [probe, hattached, SimulatedPort.attachment_eq, hpresent] at hended
    cases hended
  · obtain ⟨found, told, device, issued, hpasses, hdescribes⟩ :=
      exists_probe_passes hfits hpresent hattached
    obtain ⟨changed, hyields⟩ := hpasses.foretold world.memory
    obtain ⟨later, hprobed, _⟩ := hyields world rfl
    have hsame := hended.symm.trans hprobed
    cases hsame
    exact hdescribes

end Disk

theorem EngineM.snd_of_exec_map {α β σ : Type} {step : EngineM σ α} {engine left : Engine}
    {world after : World σ} {b found : β} {a : α}
    (hended : ((fun a => (a, b)) <$> step).exec engine world = (.ok ((a, found), left), after)) :
    found = b := by
  rw [map_eq_pure_bind, exec_bind] at hended
  rcases hfirst : step.exec engine world with ⟨reason | ⟨result, told⟩, middle⟩
  · rw [hfirst] at hended
    cases hended
  · rw [hfirst] at hended
    cases hended
    rfl

namespace Site

/-- A driver that takes its device for what it is: the attachment of its port is what the port
hosts, and a known disk describes the drive. -/
structure Knows (site : Site) : Prop where
  attached : site.port.attachment = site.world.device.attachment
  device : ∀ disk, site.disk? = some disk → disk.Describes site.world.device.drive

variable {config : Config} {start : World SimulatedPort} {site : Site}

/-- A driver knows its device still, behind any event that keeps the nameplate of the drive. -/
theorem Knows.of_nameplate (hknows : site.Knows) {later : Site} (hport : later.port = site.port)
    (hsame : later.world.device.drive.nameplate = site.world.device.drive.nameplate)
    (hdevice : ∀ disk, later.disk? = some disk → disk.Describes site.world.device.drive) :
    later.Knows := by
  constructor
  · have hkind : later.world.device.drive.kind = site.world.device.drive.kind :=
      congrArg Prod.fst hsame
    rw [hport, hknows.attached, SimulatedPort.attachment_eq, SimulatedPort.attachment_eq, hkind]
  · intro disk hknown
    exact (hdevice disk hknown).of_nameplate hsame

/-- An allowed event on a reached site that fits leaves a driver that knows its device. -/
theorem Knows.after (hknows : site.Knows) (hreached : Reached config start site)
    (hfits : site.engine.Fits site.world.device) {event : Event}
    (hallowed : event.Allowed config) : (site.after event).Knows := by
  have hnext := hreached.after hallowed
  have hsame := hnext.nameplate.trans hreached.nameplate.symm
  cases event with
  | switched switch => exact hknows.of_nameplate rfl hsame hknows.device
  | called call =>
    rcases hended : site.exec call with ⟨reason | ⟨⟨outcome, disk?⟩, left⟩, world⟩
    · have hkept : site.after (.called call) = { site with world } := by
        rw [Site.after, hended]
      rw [hkept] at hsame ⊢
      exact hknows.of_nameplate rfl hsame hknows.device
    · have hkept : site.after (.called call) = { site with disk?, engine := left, world } := by
        rw [Site.after, hended]
      rw [hkept] at hsame ⊢
      refine hknows.of_nameplate rfl hsame ?_
      intro disk hknown
      have hlearned : disk? = some disk := hknown
      subst hlearned
      cases call with
      | probe =>
        have hprobed : (Call.probe.run site.port site.disk?).exec site.engine site.world =
          (.ok ((outcome, some disk), left), world) := hended
        rw [Call.run, EngineM.exec_bind] at hprobed
        rcases hfound : (Disk.probe site.port).exec site.engine site.world with
          ⟨reason | ⟨error | device, told⟩, middle⟩
        · rw [hfound] at hprobed
          cases hprobed
        · rw [hfound] at hprobed
          cases hprobed
        · rw [hfound] at hprobed
          cases hprobed
          exact Disk.describes_of_probe hfits hknows.attached hfound
      | onDisk call =>
        cases hbefore : site.disk? with
        | none =>
          rw [exec, hbefore] at hended
          cases hended
        | some device =>
          rw [exec, hbefore] at hended
          refine hknows.device disk (hbefore.trans ?_)
          exact (EngineM.snd_of_exec_map hended).symm
      | onEngine step =>
        exact hknows.device disk (EngineM.snd_of_exec_map hended).symm

/-- By induction on the events, an allowed run on a reached site leaves a driver that knows its
device. -/
theorem Knows.run (hknows : site.Knows) (hreached : Reached config start site)
    (hsound : site.engine.areas.Sound) (hregular : start.device.drive.Regular)
    {events : List Event} (hallowed : ∀ event ∈ events, event.Allowed config) :
    (site.run events).Knows := by
  induction events generalizing site with
  | nil => exact hknows
  | cons event events ih =>
    have hpermitted := hallowed event List.mem_cons_self
    have hnext := hreached.after hpermitted
    have hstill : (site.after event).engine.areas = site.engine.areas :=
      hnext.areas hreached.granted
    apply ih (hknows.after hreached (hreached.fits hsound hregular) hpermitted) hnext
    · rwa [hstill]
    · intro other hmember
      exact hallowed other (List.mem_cons_of_mem event hmember)

/-- A port that was just brought up is known by its attachment, and no disk is known yet. -/
theorem knows_of_bringUp {number slots : Nat} {port : Port} {engine : Engine}
    {ready : World SimulatedPort}
    (hup : HostM.BroughtUp (.port number) number slots config start port engine ready) :
    Knows { port, engine, world := ready } := by
  constructor
  · change port.attachment = ready.device.attachment
    rw [hup.device, hup.attached, SimulatedPort.attachment_eq, SimulatedPort.attachment_eq]
    rfl
  · exact nofun

/-- Behind any allowed run on a port that was brought up on sound areas with a regular device, the
engine fits its port and the driver knows its device. -/
theorem fits_and_knows_run {number slots : Nat} {ready : World SimulatedPort} {port : Port}
    {engine : Engine} (hpos : 1 ≤ slots) (hdown : start.device.registers.cmd = 0)
    (hbounded : start.device.stalled = true → config.completionLimit.isSome = true)
    (hregular : start.device.drive.Regular)
    (hup : (HostM.bringUp (.port number) number slots config).exec start =
      (.ok (.ok (port, engine)), ready))
    (hsound : engine.areas.Sound) {events : List Event}
    (hallowed : ∀ event ∈ events, event.Allowed config) :
    let site := Site.run { port, engine, world := ready } events
    Reached config start site ∧ site.engine.Fits site.world.device ∧ site.Knows := by
  intro site
  have hbrought := HostM.broughtUp_of_exec hdown hup
  have hfirst := reached_of_bringUp hpos hbounded hbrought
  have hreached : Reached config start site := hfirst.run hallowed
  refine ⟨hreached, hreached.fits ?_ hregular, ?_⟩
  · rwa [hreached.areas hbrought.granted]
  · exact (knows_of_bringUp hbrought).run hfirst hsound hregular hallowed

/-- A flawless disk that is brought up and probed is known by the sectors of its page. -/
theorem exists_probed {drive : Drive} {sectors : Nat} {config : Config}
    (hflawless : (World.around drive).device.Flawless)
    (htold : PageBuilder.Standard drive.page sectors) (hfew : sectors ≤ 0x1000000000000)
    (hpatient : 0 < config.readyLimit.toNat) :
    ∃ port engine ready disk, (HostM.bringUp (.port 0) 0 1 config).exec (World.around drive) =
        (.ok (.ok (port, engine)), ready) ∧ engine.areas.Sound ∧
      let site := Site.run { port, engine, world := ready } [.called .probe]
      site.disk? = some disk ∧ disk.isOptical = false ∧ disk.blockCount.toNat = sectors ∧
        site.engine.Mirrors site.world.device drive.medium := by
  obtain ⟨engine, ready, hup, hbrought, hsound, hmirrors⟩ :=
    Engine.exists_mirrors_around hflawless hpatient
  have hpage : PageBuilder.Standard ready.device.drive.page sectors := by
    rw [hbrought.device]
    exact htold
  obtain ⟨disk, after, changed, issued, hprobed, hkept, ⟨trim, hsata⟩, hblocks⟩ :=
    Disk.exists_probe hmirrors hpage (Nat.lt_of_le_of_lt hfew (by decide)) 0 ready.memory
  have hprobing : (Call.probe.run ⟨0, .disk⟩ none).Yields engine ready.machine
      (.ok ((.disk disk, some disk), engine)) ⟨after, changed⟩ issued :=
    EngineM.Yields.finish hprobed (EngineM.yields_pure _ engine _)
  obtain ⟨later, hidentified, haround, _⟩ := hprobing ready rfl
  have hended : Site.exec { port := ⟨0, .disk⟩, engine, world := ready } .probe =
      (.ok ((.disk disk, some disk), engine), later) := hidentified
  have hdevice : later.device = after := congrArg Machine.device haround
  refine ⟨⟨0, .disk⟩, engine, ready, disk, hup, hsound, ?_⟩
  simp only [Site.run, List.foldl_cons, List.foldl_nil, Site.after, hended, hdevice]
  exact ⟨trivial, by rw [Disk.isOptical, hsata], hblocks, hkept⟩

end Site

end Ahci
