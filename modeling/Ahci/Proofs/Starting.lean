import Ahci.Controller.Discovery
import Ahci.Proofs.RequestPlans

/-!
Starting what is attached to a port, over any device. A port that does not come up is not started,
and one that comes up has a disk, whatever becomes of the command that asks who the device is. A
start gives up only over a command that is waited for without a limit.
-/

namespace Ahci

variable {σ α : Type}

/-! Identification. -/

namespace RequestM.Accords

variable [Device σ] {base : Engine} {amends : List Act}

theorem identify (hsized : base.areas.Sized) (hrestart : Act.restart ∈ amends) :
    (RequestM.identify : RequestM σ _).Accords base amends
      [.run { fis := .command Opcode.identifyDevice, data := .toHost IdentifyPage.size,
              label := "identify" }] fun _ => True := by
  apply finish (execute _ hrestart)
  intro _ _
  apply seq (readStaging hsized (by decide))
  intro bytes _
  cases IdentifyPage.parse? bytes with
  | none => exact throw _
  | some page => exact pure trivial

theorem inquiry (hsized : base.areas.Sized) (hrestart : Act.restart ∈ amends)
    (hsense : Act.run .requestSense ∈ amends) (length : UInt8) :
    (RequestM.inquiry length : RequestM σ _).Accords base amends
      [.run (.packet (.inquiry length) (.toHost (length.toNat + length.toNat % 2)) "inquiry")]
      fun _ => True := by
  have hfits : length.toNat ≤ ScatterList.maxBytes :=
    Nat.le_trans (Nat.le_of_lt length.toNat_lt) (by decide)
  apply finish (packet hsized hrestart hsense _ _ _)
  intro _ _
  apply seq (readStaging hsized hfits)
  intro bytes _
  cases InquiryData.parse? bytes with
  | none => exact throw _
  | some inquiry => exact pure trivial

end RequestM.Accords

/-- How a call ends that halts only as a wait without an end: with a good value, or halted under a
config without a limit on completions. -/
def Engine.Answers (engine : Engine) (good : α → Prop) : Except Halt α → Prop
  | .ok a => good a
  | .error reason => reason = .unending ∧ engine.config.completionLimit = none

namespace Disk

variable [Device σ] {engine : Engine} {port : Port}

/-- A device is identified by the answer to a request, or, if the request fails, by what it is
without one. -/
theorem composes_identified {request : RequestM σ α} {plan : List Act}
    {next : Except IoError α → EngineM σ Disk} {good : Disk → Prop}
    (haccords : request.Accords engine [.restart, .run .requestSense] plan fun _ => True)
    (htold : ∀ a, (next (.ok a)).Composes engine fun _ => engine.Answers good)
    (hsilent : ∀ error, (next (.error error)).Composes engine fun _ => engine.Answers good) :
    (request.run >>= next).Composes engine fun _ => engine.Answers good := by
  apply EngineM.Composes.bind haccords
  · intro acts answer _
    cases answer with
    | ok a => exact htold a
    | error error => exact hsilent error
  · rintro acts reason ⟨_, hendless⟩
    exact hendless

/-- Over any device, identification of a disk ends with a disk at its port, unless it waits without
an end. -/
theorem composes_identifyDisk (hsized : engine.areas.Sized) :
    (identifyDisk port : EngineM σ Disk).Composes engine fun _ =>
      engine.Answers fun disk => disk.port = port ∧ disk.isOptical = false := by
  refine composes_identified (.identify hsized (by simp)) (fun page => ?_) fun error => ?_
  · exact .pure ⟨rfl, rfl⟩
  · refine .seq [] (fun _ => True) (.note .warn _ ⟨rfl, (), rfl, trivial⟩) fun _ _ => ?_
    exact .pure ⟨rfl, rfl⟩

/-- Over any device, identification of a packet drive ends with a packet drive at its port, unless
it waits without an end. -/
theorem composes_identifyDrive (hsized : engine.areas.Sized) :
    (identifyDrive port : EngineM σ Disk).Composes engine fun _ =>
      engine.Answers fun disk => disk.port = port ∧ disk.isOptical = true := by
  refine composes_identified (.inquiry hsized (by simp) (by simp) _) (fun inquiry => ?_)
    fun error => ?_
  · exact .pure ⟨rfl, rfl⟩
  · refine .seq [] (fun _ => True) (.note .warn _ ⟨rfl, (), rfl, trivial⟩) fun _ _ => ?_
    exact .pure ⟨rfl, rfl⟩

/-- Over any device, a port that came up with a block device has a disk or packet drive by what is
attached to it, whether or not the device identifies itself. -/
theorem composes_probe (hsized : engine.areas.Sized)
    (hblock : port.attachment.isBlockDevice = true) :
    (probe port : EngineM σ _).Composes engine fun _ => engine.Answers fun outcome =>
      ∃ disk : Disk, outcome = .ok disk ∧ disk.port = port ∧
        (disk.isOptical = true ↔ port.attachment = .packetDrive) := by
  obtain ⟨number, attached⟩ := port
  have hannounced (optical : Bool) (hwhat : optical = true ↔ attached = .packetDrive)
      (kind : String) {identify : EngineM σ Disk}
      (hidentified : identify.Composes engine fun _ => engine.Answers fun disk =>
        disk.port = ⟨number, attached⟩ ∧ disk.isOptical = optical) :
      (identify >>= fun disk => probe.announce ⟨number, attached⟩ disk kind).Composes engine
        fun _ => engine.Answers fun outcome => ∃ disk : Disk, outcome = .ok disk ∧
          disk.port = ⟨number, attached⟩ ∧ (disk.isOptical = true ↔ attached = .packetDrive) := by
    apply hidentified.bind
    · rintro acts disk ⟨hthere, rfl⟩
      refine .seq [] (fun _ => True) (.calm (.note _ _) fun _ => ⟨rfl, (), rfl, trivial⟩) ?_
      exact fun _ _ => .pure ⟨disk, rfl, hthere, hwhat⟩
    · exact fun acts reason hendless => hendless
  cases attached with
  | disk => exact hannounced false (by simp) _ (composes_identifyDisk hsized)
  | packetDrive => exact hannounced true (by simp) _ (composes_identifyDrive hsized)
  | absent | enclosure | multiplier => cases hblock

end Disk

/-! Devices. -/

/-- What becomes of the device on a port: none if the port does not come up, with the error of the
bring-up; and if it comes up a device of the attached kind, unless its identification waits without
an end. -/
inductive Adapter.Started (number : Nat) (attached : Attachment) (config : Config) :
    Except DriverError (Port × Engine) → Except Halt (Except DriverError (Disk × Engine)) → Prop
  | down (error : DriverError) :
      Started number attached config (.error error) (.ok (.error error))
  /-- Nothing is said of how the device answers when it is asked who it is. -/
  | found {port : Port} {engine left : Engine} {disk : Disk}
      (hthere : disk.port = ⟨number, attached⟩)
      (hwhat : disk.isOptical = true ↔ attached = .packetDrive) :
      Started number attached config (.ok (port, engine)) (.ok (.ok (disk, left)))
  | unending {port : Port} {engine : Engine} (hendless : config.completionLimit = none) :
      Started number attached config (.ok (port, engine)) (.error .unending)

/-- Over any device, a start fails exactly as its bring-up does, and behind a bring-up that succeeds
it has the device that was seen on the port, or waits without an end under a config without a
limit. -/
theorem Adapter.exists_started [Device σ] (number slots : Nat) (config : Config)
    {attached : Attachment} {world looked : World σ}
    (hseen : (HostM.attachment (.port number)).exec world = (.ok attached, looked)) :
    ∃ brought ready, (HostM.bringUp (.port number) number slots config).exec world =
        (.ok brought, ready) ∧
      Started number attached config brought ((startDevice number slots config).exec world).1 := by
  obtain ⟨brought, ready, hup, hends⟩ := HostM.exists_bringUp_ends number slots config hseen
  refine ⟨brought, ready, hup, ?_⟩
  rw [startDevice, HostM.exec_bind_ok hup]
  rcases brought with error | ⟨port, engine⟩
  · exact .down error
  obtain ⟨rfl, hblock⟩ : port = ⟨number, attached⟩ ∧ attached.isBlockDevice = true := by
    cases hends with
    | up hblock => exact ⟨rfl, hblock⟩
  have hbuilt := HostM.cameUp_of_exec hup
  have hprobes : (Disk.probe ⟨number, attached⟩ : EngineM σ _).Composes engine _ :=
    Disk.composes_probe hbuilt.sized hblock
  obtain ⟨_, _, htold⟩ := hprobes engine ready (.refl engine)
  dsimp only
  rcases hended : (Disk.probe ⟨number, attached⟩).exec engine ready with
    ⟨reason | ⟨outcome, left⟩, after⟩ <;> rw [hended] at htold
  · obtain ⟨rfl, hendless⟩ := htold
    rw [hbuilt.made] at hendless
    rw [HostM.exec_bind_error hended]
    exact .unending hendless
  · obtain ⟨disk, rfl, hthere, hwhat⟩ := htold
    rw [HostM.exec_bind_ok hended]
    exact .found hthere hwhat

end Ahci
