import Ahci.Proofs.SharedMemory
import Ahci.Proofs.SteadyPort
import Ahci.Simulation.RisingFrames

/-!
Bringing a simulated port up. Asking for memory touches nothing but the memory and the record
of grants, and what is granted depends on that record alone; what is programmed then replaces
every register that an earlier life of the port could have left behind.
-/

namespace Ahci

variable {α β : Type}

/-- Two worlds in which the allocator and the record of grants and releases agree, so memory is
granted alike. -/
structure World.SameGrants {σ : Type} (first second : World σ) : Prop where
  allocator : first.allocator = second.allocator
  frameEvents : first.frameEvents = second.frameEvents

/-- A step that deals with frames only. It returns from every world, with the same result wherever
memory is granted alike, and leaves the device, the accesses and the log alone. It may zero memory
that is granted. -/
structure HostM.Clerical {σ : Type} (step : HostM σ α) : Prop where
  ends : ∀ world, ∃ a, (step.exec world).1 = .ok a
  alike : ∀ first second, World.SameGrants first second →
    (step.exec first).1 = (step.exec second).1 ∧
      World.SameGrants (step.exec first).2 (step.exec second).2
  device : ∀ world, (step.exec world).2.device = world.device
  accesses : ∀ world, (step.exec world).2.accesses = world.accesses
  log : ∀ world, (step.exec world).2.log = world.log

namespace HostM.Clerical

variable {σ : Type}

theorem pure (a : α) : HostM.Clerical (pure a : HostM σ α) :=
  ⟨fun _ => ⟨a, rfl⟩, fun _ _ hsame => ⟨rfl, hsame⟩, fun _ => rfl, fun _ => rfl, fun _ => rfl⟩

theorem release (region : Region) : HostM.Clerical (HostM.release region : HostM σ Unit) := by
  refine ⟨fun _ => ⟨(), rfl⟩, fun first second hsame => ⟨rfl, hsame.allocator, ?_⟩, fun _ => rfl,
    fun _ => rfl, fun _ => rfl⟩
  exact congrArg (.returned region :: ·) hsame.frameEvents

theorem exec_allocate (frames : Nat) (world : World σ) :
    (HostM.allocate frames).exec world =
      match world.allocator world.frameEvents frames with
      | .ok base =>
        (.ok (.ok ⟨base, frames⟩),
          { world with
            memory :=
              world.memory.zero (Region.address ⟨base, frames⟩ 0) (Region.size ⟨base, frames⟩)
            frameEvents := .granted ⟨base, frames⟩ :: world.frameEvents })
      | .error error =>
        (.ok (.error error),
          { world with frameEvents := .refused frames :: world.frameEvents }) := by
  rfl

theorem allocate (frames : Nat) : HostM.Clerical (HostM.allocate frames : HostM σ _) := by
  refine ⟨fun world => ?_, fun first second hsame => ?_, fun world => ?_, fun world => ?_,
    fun world => ?_⟩
  · rw [exec_allocate]
    cases world.allocator world.frameEvents frames <;> exact ⟨_, rfl⟩
  · rw [exec_allocate, exec_allocate, hsame.allocator, hsame.frameEvents]
    cases second.allocator second.frameEvents frames <;> exact ⟨rfl, rfl, rfl⟩
  all_goals
    rw [exec_allocate]
    cases world.allocator world.frameEvents frames <;> rfl

theorem bind {step : HostM σ α} {next : α → HostM σ β} (hfirst : step.Clerical)
    (hsecond : ∀ a, (next a).Clerical) : (step >>= next).Clerical := by
  have hthrough (world : World σ) : ∃ a, step.exec world = (.ok a, (step.exec world).2) ∧
      (step >>= next).exec world = (next a).exec (step.exec world).2 := by
    obtain ⟨a, hended⟩ := hfirst.ends world
    have hwhole : step.exec world = (.ok a, (step.exec world).2) := Prod.ext hended rfl
    exact ⟨a, hwhole, exec_bind_ok hwhole⟩
  refine ⟨fun world => ?_, fun one other hsame => ?_, fun world => ?_, fun world => ?_,
    fun world => ?_⟩
  · obtain ⟨a, _, hrun⟩ := hthrough world
    rw [hrun]
    exact (hsecond a).ends _
  · obtain ⟨a, hended, hrun⟩ := hthrough one
    obtain ⟨b, hfinished, hlate⟩ := hthrough other
    obtain ⟨halike, hstill⟩ := hfirst.alike one other hsame
    rw [hended, hfinished] at halike
    cases halike
    rw [hrun, hlate]
    exact (hsecond a).alike _ _ hstill
  · obtain ⟨a, _, hrun⟩ := hthrough world
    rw [hrun, (hsecond a).device, hfirst.device]
  · obtain ⟨a, _, hrun⟩ := hthrough world
    rw [hrun, (hsecond a).accesses, hfirst.accesses]
  · obtain ⟨a, _, hrun⟩ := hthrough world
    rw [hrun, (hsecond a).log, hfirst.log]

end HostM.Clerical

namespace PortAreas

variable {σ : Type}

/-- To allocate the four areas of a port is clerical, also where some are refused and the others
released. -/
theorem clerical_allocate : HostM.Clerical (allocate : HostM σ _) := by
  refine (HostM.Clerical.allocate _).bind fun list => ?_
  cases list with
  | error error => exact .pure _
  | ok list =>
    refine (HostM.Clerical.allocate _).bind fun tables => ?_
    cases tables with
    | error error => exact (HostM.Clerical.release _).bind fun _ => .pure _
    | ok tables =>
      refine (HostM.Clerical.allocate _).bind fun read => ?_
      cases read with
      | error error =>
        refine (HostM.Clerical.release _).bind fun _ => ?_
        exact (HostM.Clerical.release _).bind fun _ => .pure _
      | ok read =>
        refine (HostM.Clerical.allocate _).bind fun write => ?_
        cases write with
        | error error =>
          refine (HostM.Clerical.release _).bind fun _ => ?_
          refine (HostM.Clerical.release _).bind fun _ => ?_
          exact (HostM.Clerical.release _).bind fun _ => .pure _
        | ok write => exact .pure _

theorem clerical_release (areas : PortAreas) : HostM.Clerical (areas.release : HostM σ _) := by
  refine (HostM.Clerical.release _).bind fun _ => ?_
  refine (HostM.Clerical.release _).bind fun _ => ?_
  exact (HostM.Clerical.release _).bind fun _ => .release _

/-- A region that is granted has as many frames as were asked for. -/
theorem exists_exec_allocate (frames : Nat) (world : World σ) :
    ∃ answer after, (HostM.allocate frames).exec world = (.ok answer, after) ∧
      ∀ region, answer = .ok region → region.frames = frames := by
  rw [HostM.Clerical.exec_allocate]
  cases world.allocator world.frameEvents frames with
  | error error => exact ⟨_, _, rfl, by simp⟩
  | ok base =>
    refine ⟨_, _, rfl, ?_⟩
    rintro _ ⟨⟩
    rfl

/-- Areas that are granted have the sizes that the driver asks for. -/
theorem sized_of_allocate {world : World σ} {areas : PortAreas}
    (hgranted : (allocate.exec world).1 = .ok (.ok areas)) : areas.Sized := by
  obtain ⟨list, first, hended, hlistSize⟩ := exists_exec_allocate listFrames world
  rw [allocate, HostM.exec_bind_ok hended] at hgranted
  cases list with
  | error error => cases hgranted
  | ok list =>
    obtain ⟨tables, second, hended, htableSize⟩ := exists_exec_allocate tableFrames first
    dsimp only at hgranted
    rw [HostM.exec_bind_ok hended] at hgranted
    cases tables with
    | error error => cases hgranted
    | ok tables =>
      obtain ⟨read, third, hended, hreadSize⟩ := exists_exec_allocate stagingFrames second
      dsimp only at hgranted
      rw [HostM.exec_bind_ok hended] at hgranted
      cases read with
      | error error => cases hgranted
      | ok read =>
        obtain ⟨write, fourth, hended, hwriteSize⟩ := exists_exec_allocate stagingFrames third
        dsimp only at hgranted
        rw [HostM.exec_bind_ok hended] at hgranted
        cases write with
        | error error => cases hgranted
        | ok write =>
          cases hgranted
          exact ⟨hlistSize _ rfl, htableSize _ rfl, hreadSize _ rfl, hwriteSize _ rfl⟩

end PortAreas

/-- What PxSSTS and PxSIG of a port tell of what is attached to it. -/
def SimulatedPort.attachment (port : SimulatedPort) : Attachment :=
  .classify (port.readRegister PortRegister.ssts) (port.readRegister PortRegister.sig)

theorem SimulatedPort.readRegister_ssts (port : SimulatedPort) :
    port.readRegister PortRegister.ssts =
      match port.drive.kind with
      | .empty => 0
      | _ => activeLink :=
  rfl

theorem SimulatedPort.readRegister_sig (port : SimulatedPort) :
    port.readRegister PortRegister.sig =
      match port.drive.kind with
      | .packetDrive => Attachment.packetSignature
      | _ => Attachment.diskSignature :=
  rfl

/-- The registers of a simulated port tell the kind of its drive. -/
theorem SimulatedPort.attachment_eq (port : SimulatedPort) : port.attachment =
    match port.drive.kind with
    | .empty => .absent
    | .disk => .disk
    | .packetDrive => .packetDrive := by
  rw [attachment, readRegister_ssts, readRegister_sig]
  cases port.drive.kind <;> rfl

namespace HostM

theorem yields_attachment (window : Window) (port : SimulatedPort) (memory : Memory) :
    (attachment window).Yields ⟨port, memory⟩ (.ok port.attachment) ⟨port, memory⟩ 0 := by
  refine (yields_readRegister window rfl memory).seq ?_
  refine (yields_readRegister window rfl memory).seq ?_
  exact yields_pure _ _

/-- Programming a port replaces everything that an earlier life left in its registers but PxCMD,
PxTFD and PxCI, and issues nothing. -/
theorem yields_programPort (window : Window) (port : SimulatedPort) (areas : PortAreas)
    (memory : Memory) :
    (programPort window areas).Yields ⟨port, memory⟩ (.ok ())
      ⟨port.withRegisters { areas.registers 0 port.registers.tfd port.registers.ci with
        cmd := port.registers.cmd }, memory⟩ 0 := by
  have hnothing : ~~~allBits = 0 := rfl
  have hsources : interruptSources &&& interruptSources = interruptSources := rfl
  have haddress (low high : Nat) (addr : PhysAddr) {port between later : SimulatedPort}
      (hlowOther : low ≠ PortRegister.ci) (hhighOther : high ≠ PortRegister.ci)
      (hfirst : port.writeRegister low addr.lower memory = (between, memory))
      (hsecond : between.writeRegister high addr.upper memory = (later, memory)) :
      (programAddress window low high addr).Yields ⟨port, memory⟩ (.ok ()) ⟨later, memory⟩ 0 := by
    refine (yields_writeRegister window hlowOther hfirst).seq ?_
    exact yields_writeRegister window hhighOther hsecond
  refine (haddress _ _ _ (by decide) (by decide) rfl rfl).seq ?_
  refine (haddress _ _ _ (by decide) (by decide) rfl rfl).seq ?_
  refine (yields_writeRegister window (by decide) rfl).seq ?_
  refine (yields_writeRegister window (by decide) rfl).seq ?_
  refine yields_writeRegister window (by decide) ?_
  change (port.withRegisters { areas.registers (port.registers.is &&& ~~~allBits)
      port.registers.tfd port.registers.ci with
    cmd := port.registers.cmd, serr := port.registers.serr &&& ~~~allBits
    ie := interruptSources &&& interruptSources }, memory) = _
  rw [hnothing, UInt32.and_zero, UInt32.and_zero, hsources]
  rfl

/-- How a bring-up that succeeded leaves a simulated port: the engine has the given config and all
slots free, its areas are those granted from the world before, the port is at rest on them, nothing
was issued, and the log shows no new error. -/
structure BroughtUp (window : Window) (number slots : Nat) (config : Config)
    (before : World SimulatedPort) (port : Port) (engine : Engine)
    (after : World SimulatedPort) : Prop where
  attached : port = ⟨number, before.device.attachment⟩
  configured : engine =
    { window, number, areas := engine.areas, slots := .ofCount slots, config }
  granted : (PortAreas.allocate.exec before).1 = .ok (.ok engine.areas)
  sized : engine.areas.Sized
  patient : 0 < config.readyLimit.toNat
  device : after.device = before.device.rested engine.areas
  mild : before.Mild after
  issues : after.issues = before.issues

/-- Work on the registers of a port in front of it makes no difference to what is granted. -/
theorem exists_granted {world worked : World SimulatedPort} (hearly : world.Progress worked 0)
    (hsame : worked.device = world.device) :
    ∃ answer owning, PortAreas.allocate.exec worked = (.ok answer, owning) ∧
      (PortAreas.allocate.exec world).1 = .ok answer ∧ owning.device = world.device ∧
      world.Mild owning ∧ owning.issues = world.issues := by
  obtain ⟨answer, hasked⟩ := PortAreas.clerical_allocate.ends worked
  have hgrants : World.SameGrants worked world := ⟨hearly.allocator, hearly.frameEvents⟩
  have halike := (PortAreas.clerical_allocate.alike _ _ hgrants).1
  refine ⟨answer, _, Prod.ext hasked rfl, halike.symm.trans hasked, ?_, ?_, ?_⟩
  · exact (PortAreas.clerical_allocate.device worked).trans hsame
  · rw [World.Mild, PortAreas.clerical_allocate.log]
    exact hearly.mild
  · rw [World.issues, PortAreas.clerical_allocate.accesses]
    exact hearly.issues

/-- On a port whose PxCMD is clear a bring-up always returns. If it succeeds it leaves the port as
one that was brought up. It does succeed if there is a disk or a packet drive, the memory is
granted, and the handshakes may read PxCMD once at least. -/
theorem exists_bringUp (window : Window) (number slots : Nat) (config : Config)
    (world : World SimulatedPort) (hdown : world.device.registers.cmd = 0) :
    ∃ answer after, (bringUp window number slots config).exec world = (.ok answer, after) ∧
      (∀ port engine, answer = .ok (port, engine) →
        BroughtUp window number slots config world port engine after) ∧
      (∀ areas, (PortAreas.allocate.exec world).1 = .ok (.ok areas) →
        world.device.attachment.isBlockDevice = true → 0 < config.readyLimit.toNat →
        ∃ port engine, answer = .ok (port, engine) ∧ engine.areas = areas) := by
  obtain ⟨looked, hended, haroundLooked, htoLooked⟩ :=
    yields_attachment window world.device world.memory world rfl
  rw [bringUp, exec_bind_ok hended]
  cases hblock : world.device.attachment.isBlockDevice with
  | false => exact ⟨_, looked, rfl, by simp, by simp⟩
  | true =>
    obtain ⟨stopped, hended, haroundStopped, htoStopped⟩ :=
      yields_stopEngine_of_down window config.readyLimit.toNat hdown world.memory looked
        haroundLooked
    obtain ⟨answer, owning, hallocated, hgranted, hstill, hmild, hissues⟩ :=
      exists_granted (htoLooked.trans htoStopped) (congrArg Machine.device haroundStopped)
    rw [if_neg (by decide)]
    dsimp only at hended ⊢
    rw [exec_bind_ok hended]
    dsimp only
    rw [exec_bind_ok hallocated]
    cases answer with
    | error error =>
      refine ⟨_, owning, rfl, by simp, ?_⟩
      intro areas hallocated'
      rw [hgranted] at hallocated'
      cases hallocated'
    | ok areas =>
      have haroundOwning : owning.machine = ⟨world.device, owning.memory⟩ := by
        rw [World.machine, hstill]
      obtain ⟨headed, hended, haroundHeaded, htoHeaded⟩ :=
        yields_changeMemory (areas.writeHeaders slotCount) _ owning haroundOwning
      rw [exec_bind_ok hended]
      obtain ⟨programmed, hended, haroundProgrammed, htoProgrammed⟩ :=
        yields_programPort window world.device areas _ headed haroundHeaded
      rw [exec_bind_ok hended]
      have htold : programmed.device = _ := congrArg Machine.device haroundProgrammed
      have hstillDown : programmed.device.registers.cmd = 0 := by
        rw [htold]
        exact hdown
      -- Without a poll the engine counts as not started, and the memory is given back.
      by_cases hpatient : 0 < config.readyLimit.toNat
      · obtain ⟨started, hended, haroundStarted, htoStarted⟩ :=
          yields_startEngine window hpatient hstillDown _ programmed rfl
        rw [exec_bind_ok hended]
        dsimp only
        rw [exec_bind_ok (exec_note _ _ started)]
        refine ⟨_, _, rfl, ?_, ?_⟩
        · rintro _ _ ⟨⟩
          have howned : owning.Progress started 0 :=
            (htoHeaded.trans htoProgrammed).trans htoStarted
          refine ⟨rfl, rfl, hgranted, PortAreas.sized_of_allocate hgranted, hpatient, ?_,
            (hmild.trans howned.mild).trans (.of_record _ (by decide)), ?_⟩
          · change started.machine.device = _
            rw [haroundStarted, htold]
            rfl
          · exact howned.issues.trans hissues
        · intro areas_ hallocated' _ _
          rw [hgranted] at hallocated'
          cases hallocated'
          exact ⟨_, _, rfl, rfl⟩
      · have hnone : config.readyLimit.toNat = 0 := Nat.eq_zero_of_not_pos hpatient
        have htimeout : (startEngine window config.readyLimit.toNat).exec programmed =
            (.ok (.error .timeout), programmed) := by
          rw [hnone]
          rfl
        obtain ⟨_, hreleased⟩ := areas.clerical_release.ends programmed
        rcases hreleasing : areas.release.exec programmed with ⟨result, after⟩
        rw [hreleasing] at hreleased
        subst hreleased
        rw [exec_bind_ok htimeout]
        dsimp only
        rw [exec_bind_ok hreleasing]
        exact ⟨_, after, rfl, by simp, fun _ _ _ hpossible => absurd hpossible hpatient⟩

/-- A bring-up that succeeded, on a port whose PxCMD was clear, leaves the port as one that was
brought up. -/
theorem broughtUp_of_exec {window : Window} {number slots : Nat} {config : Config}
    {world after : World SimulatedPort} {port : Port} {engine : Engine}
    (hdown : world.device.registers.cmd = 0)
    (hup : (bringUp window number slots config).exec world = (.ok (.ok (port, engine)), after)) :
    BroughtUp window number slots config world port engine after := by
  obtain ⟨answer, later, hended, hmade, _⟩ := exists_bringUp window number slots config world hdown
  rw [hup] at hended
  cases hended
  exact hmade port engine rfl

end HostM

/-! A port in a world of its own, with memory that is granted in rising order. -/

/-- What the rising allocator grants the first port that asks. -/
def risingAreas : PortAreas :=
  { list := ⟨.ofNat 0x234500000, 1⟩
    tables := ⟨.ofNat 0x234501000, 2⟩
    read := ⟨.ofNat 0x234503000, 16⟩
    write := ⟨.ofNat 0x234513000, 16⟩ }

theorem sound_risingAreas : risingAreas.Sound := by
  refine ⟨by decide, ?_⟩
  unfold Region.Apart
  decide

/-- The world of a device behind a port that was never brought up, with memory granted in rising
order. -/
def World.around (drive : Drive) : World SimulatedPort :=
  { device := { drive }, memory := {}, allocator := risingAllocator [] }

theorem allocate_around (drive : Drive) :
    (PortAreas.allocate.exec (World.around drive)).1 = .ok (.ok risingAreas) := by
  have hclosed : (PortAreas.allocate.exec (World.around .empty)).1 = .ok (.ok risingAreas) := by
    rfl
  rw [← hclosed]
  exact (PortAreas.clerical_allocate.alike _ _ ⟨rfl, rfl⟩).1

/-- A device in a world of its own is brought up on the first areas of the rising allocator, if the
handshakes may read PxCMD at all. -/
theorem exists_bringUp_around {drive : Drive} (hpresent : drive.kind ≠ .empty)
    (number slots : Nat) {config : Config} (hpatient : 0 < config.readyLimit.toNat) :
    ∃ port engine ready, (HostM.bringUp (.port number) number slots config).exec
        (World.around drive) = (.ok (.ok (port, engine)), ready) ∧
      engine.areas = risingAreas := by
  have hattached : (World.around drive).device.attachment.isBlockDevice = true := by
    rw [SimulatedPort.attachment_eq]
    change (match drive.kind with
      | .empty => Attachment.absent
      | .disk => .disk
      | .packetDrive => .packetDrive).isBlockDevice = true
    cases hkind : drive.kind with
    | empty => exact absurd hkind hpresent
    | disk => rfl
    | packetDrive => rfl
  obtain ⟨answer, ready, hended, _, hforward⟩ :=
    HostM.exists_bringUp (.port number) number slots config (World.around drive) rfl
  obtain ⟨port, engine, rfl, hareas⟩ := hforward _ (allocate_around drive) hattached hpatient
  exact ⟨port, engine, ready, hended, hareas⟩

end Ahci
