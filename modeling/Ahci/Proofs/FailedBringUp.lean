import Ahci.Proofs.EngineControl
import Ahci.Proofs.EngineHandshakes

/-!
Bring-ups that are abandoned: the port has been told where its memory is, and then its engine
does not start. The memory is given back, and what the engine was last asked stays asked. An
engine that went on processing commands was last asked to stop receiving frames, if it was asked
anything; one that never showed itself receiving is still asked to receive, into memory that is
no longer its own.
-/

namespace Ahci

variable {σ : Type}

/-! Accesses of a handshake, newest first. -/

/-- A number of reads of PxCMD, all of which showed one of its bits at a value: a wait that
failed. -/
structure Access.Polled (window : Window) (bit : Nat) (value : Bool) (limit : Nat)
    (polls : List Access) : Prop where
  length : polls.length = limit
  shown : ∀ poll ∈ polls, poll.Shows window bit value

/-- The last value that was written to PxCMD, right after PxCMD was read as another. What comes
behind writes nothing there. -/
def Access.LastAsked (window : Window) (made : List Access) (command asked : UInt32) : Prop :=
  ∃ later earlier, made = later ++ .write window PortRegister.cmd asked ::
      .read window PortRegister.cmd command :: earlier ∧
    ∀ access ∈ later, access.command? window = none

namespace Access

variable {window : Window} {made more : List Access} {command asked : UInt32}

theorem LastAsked.behind (hlast : LastAsked window made command asked)
    (hquiet : ∀ access ∈ more, access.command? window = none) :
    LastAsked window (more ++ made) command asked := by
  obtain ⟨later, earlier, hsplit, hsilent⟩ := hlast
  refine ⟨more ++ later, earlier, by rw [hsplit, List.append_assoc], ?_⟩
  intro access hmember
  rcases List.mem_append.1 hmember with hnew | hold
  · exact hquiet access hnew
  · exact hsilent access hold

theorem LastAsked.longer (hlast : LastAsked window made command asked) (older : List Access) :
    LastAsked window (made ++ older) command asked := by
  obtain ⟨later, earlier, hsplit, hsilent⟩ := hlast
  exact ⟨later, earlier ++ older, by simp [hsplit], hsilent⟩

theorem Within.quiet {traffic : Traffic} (hwithin : Within window traffic made)
    (hother : ∀ offset value, traffic offset value → offset ≠ PortRegister.cmd) :
    ∀ access ∈ made, access.command? window = none := by
  intro access hmember
  rcases hwithin access hmember with ⟨offset, value, rfl⟩ | ⟨offset, value, hsent, rfl⟩
  · rfl
  · simp [command?, hother offset value hsent]

/-- A wait that failed read PxCMD as often as it could, and the bit never took the value. -/
theorem WaitedFor.polled {bit limit : Nat} {value : Bool}
    (hwaited : WaitedFor window bit value limit made false) :
    Polled window bit (!value) limit made.reverse := by
  cases hwaited with
  | never hall hmissed =>
    exact ⟨by rw [List.length_reverse, hall],
      fun poll hmember => hmissed poll (List.mem_reverse.1 hmember)⟩

theorem WaitedFor.quiet {bit limit : Nat} {value shown : Bool}
    (hwaited : WaitedFor window bit value limit made shown) :
    ∀ access ∈ made, access.command? window = none := by
  have hsilent {access : Access} {value : Bool} (hshows : Shows window bit value access) :
      access.command? window = none := by
    obtain ⟨command, rfl, _⟩ := hshows
    rfl
  exact hwaited.forall_mem (fun _ => hsilent) fun _ => hsilent

end Access

section Steps

variable [Device σ] {window : Window} {limit : Nat} {world after : World σ}

namespace HostM

/-- A command engine that was stopped was last asked to stop receiving frames, unless it was
found idle. -/
theorem lastAsked_of_stopped
    (hstopped : (stopEngine window limit).exec world = (.ok (.ok ()), after)) :
    ∃ made, after.accesses = made ++ world.accesses ∧
      ((∀ access ∈ made, access.command? window = none) ∨
        ∃ command, Access.LastAsked window made command
          (Word.clear command CmdBit.fisReceive)) := by
  obtain ⟨made, outcome, hstops, hended, hundergone⟩ :=
    (converses_stopEngine window limit world _ after).1 hstopped
  refine ⟨made.reverse, hundergone.accesses, ?_⟩
  cases hended
  cases hstops with
  | idle hquiet => exact .inl (by simp [Access.command?])
  | @stopped found asked seen _ polls more hbusy hcease hceased hdeafen hdeaf =>
    cases Word.turned_clear_iff.1 hdeafen
    refine .inr ⟨seen, more.reverse, polls.reverse ++ [.write window PortRegister.cmd asked,
      .read window PortRegister.cmd found], by simp, fun access hmember => ?_⟩
    exact hdeaf.quiet access (List.mem_reverse.1 hmember)

/-- A command engine that did not start ran out of reads. Either it went on processing commands and
was asked nothing, or it was last asked to receive frames and never showed it. -/
theorem polled_of_unstarted {error : DriverError}
    (hfailed : (startEngine window limit).exec world = (.ok (.error error), after)) :
    error = .timeout ∧ ∃ polls asking, after.accesses = polls ++ asking ++ world.accesses ∧
      (Access.Polled window CmdBit.listRunning true limit polls ∧ asking = [] ∨
        Access.Polled window CmdBit.fisRunning false limit polls ∧
          ∃ command, Access.LastAsked window asking command
            (Word.set command CmdBit.fisReceive)) := by
  obtain ⟨made, outcome, hstarts, hended, hundergone⟩ :=
    (converses_startEngine window limit world _ after).1 hfailed
  have haccesses := hundergone.accesses
  cases hended
  cases hstarts with
  | processing hrunning =>
    exact ⟨rfl, made.reverse, [], by simpa using haccesses, .inl ⟨hrunning.polled, rfl⟩⟩
  | @deaf seen asked polls more hceased hhear hdeaf =>
    cases (Word.turned_set_iff (by decide)).1 hhear
    refine ⟨rfl, more.reverse, .write window PortRegister.cmd (Word.set seen CmdBit.fisReceive) ::
      .read window PortRegister.cmd seen :: polls.reverse, ?_,
      .inr ⟨hdeaf.polled, seen, [], polls.reverse, rfl, by simp⟩⟩
    rw [haccesses]
    simp

theorem touches_attachment (window : Window) :
    (attachment window : HostM σ _).Touches window .none fun _ => False := by
  apply (Touches.readRegister _).bind
  intro status
  exact (Touches.readRegister _).bind fun _ => .pure _

/-- What a bring-up tells a port of its memory: PxCLB gets the address of the command list, and
PxCMD is not written. -/
def programming (areas : PortAreas) : Traffic := fun offset value =>
  offset ≠ PortRegister.cmd ∧
    (offset = PortRegister.clb → value = (areas.list.physAt 0).lower)

theorem touches_programPort (window : Window) (areas : PortAreas) :
    (programPort window areas : HostM σ _).Touches window (programming areas)
      fun _ => False := by
  have hsent {offset : Nat} {value : UInt32} (hother : offset ≠ PortRegister.cmd)
      (helsewhere : offset ≠ PortRegister.clb) :
      (writeRegister window offset value : HostM σ _).Touches window (programming areas)
        fun _ => False :=
    .writeRegister ⟨hother, fun hsame => absurd hsame helsewhere⟩
  have hlisted : (programList window (areas.list.physAt 0) : HostM σ _).Touches window
      (programming areas) fun _ => False :=
    (Touches.writeRegister ⟨by decide, fun _ => rfl⟩).bind fun _ => hsent (by decide) (by decide)
  apply hlisted.bind
  intro _
  apply ((hsent (by decide) (by decide)).bind fun _ => hsent (by decide) (by decide)).bind
  intro _
  apply (hsent (by decide) (by decide)).bind
  intro _
  exact (hsent (by decide) (by decide)).bind fun _ => hsent (by decide) (by decide)

end HostM

end Steps

/-! Memory that is given back. -/

namespace PortAreas

/-- The grants of the areas of a port, newest first. -/
def grants (areas : PortAreas) : List FrameEvent :=
  [.granted areas.write, .granted areas.read, .granted areas.tables, .granted areas.list]

/-- The returns of the areas of a port, newest first. -/
def returns (areas : PortAreas) : List FrameEvent :=
  [.returned areas.write, .returned areas.read, .returned areas.tables, .returned areas.list]

variable {areas : PortAreas} {world after : World σ}

theorem frameEvents_of_allocated
    (hgranted : allocate.exec world = (.ok (.ok areas), after)) :
    after.frameEvents = areas.grants ++ world.frameEvents := by
  have hgrant {frames : Nat} {region : Region} {world after : World σ}
      (hgranted : (HostM.allocate frames).exec world = (.ok (.ok region), after)) :
      after.frameEvents = .granted region :: world.frameEvents := by
    rw [HostM.Clerical.exec_allocate] at hgranted
    split at hgranted <;> cases hgranted
    rfl
  obtain ⟨list, first, hlisted, hrest⟩ := HostM.exists_exec_bind hgranted
  cases list with
  | error error => cases hrest
  | ok list =>
    obtain ⟨tables, second, htabled, hrest⟩ := HostM.exists_exec_bind hrest
    cases tables with
    | error error => cases hrest
    | ok tables =>
      obtain ⟨read, third, hreadable, hrest⟩ := HostM.exists_exec_bind hrest
      cases read with
      | error error => cases hrest
      | ok read =>
        obtain ⟨write, fourth, hwritable, hrest⟩ := HostM.exists_exec_bind hrest
        cases write with
        | error error => cases hrest
        | ok write =>
          cases hrest
          rw [hgrant hwritable, hgrant hreadable, hgrant htabled, hgrant hlisted]
          rfl

theorem frameEvents_of_released (hreleased : areas.release.exec world = (.ok (), after)) :
    after.frameEvents = areas.returns ++ world.frameEvents := by
  cases hreleased
  rfl

end PortAreas

section BringUp

variable [Device σ] {window : Window}

/-- Accesses among which no value was written to PxCLB, so that the port was not told where its
memory is. -/
def Access.Unlisted (window : Window) (made : List Access) : Prop :=
  ∀ base, .write window PortRegister.clb base ∉ made

theorem Access.Within.unlisted {traffic : Traffic} {made : List Access}
    (hwithin : Within window traffic made)
    (hother : ∀ offset value, traffic offset value → offset ≠ PortRegister.clb) :
    Unlisted window made := by
  intro base hmember
  rcases hwithin _ hmember with ⟨offset, value, hsame⟩ | ⟨offset, value, hsent, hsame⟩ <;>
    cases hsame
  exact hother _ _ hsent rfl

theorem Access.Unlisted.append {early late : List Access} (hfirst : Unlisted window late)
    (hsecond : Unlisted window early) : Unlisted window (late ++ early) := fun base hmember =>
  (List.mem_append.1 hmember).elim (hfirst base) (hsecond base)

namespace HostM

/-- Up to its stop, a bring-up writes nothing but PxCMD, and it asked for no memory. -/
theorem exists_made_of_stopped {attached : Attachment}
    {outcome : Except DriverError Unit} {world looked stopped : World σ} {limit : Nat}
    (hseen : (attachment window).exec world = (.ok attached, looked))
    (hstop : (stopEngine window limit).exec looked = (.ok outcome, stopped)) :
    ∃ made, stopped.accesses = made ++ world.accesses ∧ Access.Unlisted window made ∧
      stopped.frameEvents = world.frameEvents ∧
      (outcome = .ok () → (∀ access ∈ made, access.command? window = none) ∨
        ∃ command, Access.LastAsked window made command
          (Word.clear command CmdBit.fisReceive)) := by
  obtain ⟨glances, hglanced, hidle, heventsLooked⟩ :=
    (touches_attachment (σ := σ) window).exists_made world
  obtain ⟨halting, hhalted, hwithin, heventsStopped⟩ :=
    (touches_stopEngine (σ := σ) window limit).exists_made looked
  rw [hseen] at hglanced heventsLooked
  rw [hstop] at hhalted heventsStopped
  have hquiet := hidle.quiet fun _ _ => False.elim
  refine ⟨halting ++ glances, by rw [hhalted, hglanced, List.append_assoc], ?_,
    heventsStopped.trans heventsLooked, ?_⟩
  · refine (hwithin.unlisted ?_).append (hidle.unlisted fun _ _ => False.elim)
    rintro offset _ rfl
    decide
  · rintro rfl
    obtain ⟨made, haccesses, hasked⟩ := lastAsked_of_stopped hstop
    rw [hhalted] at haccesses
    cases List.append_cancel_right haccesses
    rcases hasked with hsilent | ⟨command, hlast⟩
    · exact .inl fun access hmember => (List.mem_append.1 hmember).elim (hsilent access)
        (hquiet access)
    · exact .inr ⟨command, hlast.longer glances⟩

/-- A bring-up over any device that fails after it told the port where its memory is. It fails
because the engine did not start within its reads, and all four regions are given back. Either the
engine went on processing commands: then it was asked nothing since it was stopped, and at that time
to stop receiving frames, unless it was found idle. Or it was last asked to receive frames, never
showed it, and stays asked, with memory that is no longer its own. What else PxCMD asks for is what
it showed just before. -/
theorem bringUp_abandoned {number slots : Nat} {config : Config} {world after : World σ}
    {error : DriverError} {made : List Access} {base : UInt32}
    (hfailed : (bringUp window number slots config).exec world = (.ok (.error error), after))
    (hgrew : after.accesses = made ++ world.accesses)
    (hprogrammed : .write window PortRegister.clb base ∈ made) :
    error = .timeout ∧
      (∃ areas : PortAreas, base = (areas.list.physAt 0).lower ∧
        after.frameEvents = areas.returns ++ areas.grants ++ world.frameEvents) ∧
      ∃ polls asking, made = polls ++ asking ∧
        (Access.Polled window CmdBit.listRunning true config.readyLimit.toNat polls ∧
            ((∀ access ∈ asking, access.command? window = none) ∨
              ∃ command, Access.LastAsked window asking command
                (Word.clear command CmdBit.fisReceive)) ∨
          Access.Polled window CmdBit.fisRunning false config.readyLimit.toNat polls ∧
            ∃ command, Access.LastAsked window asking command
              (Word.set command CmdBit.fisReceive)) := by
  obtain ⟨attached, looked, hseen⟩ := (halts_attachment (σ := σ) window).exists_exec world
  obtain ⟨answer, ready, hended, hends⟩ := exists_bringUp_ends number slots config hseen
  rw [hfailed] at hended
  cases hended
  cases hends with
  | vacant hnone =>
    obtain ⟨glances, hglanced, hidle, _⟩ := (touches_attachment (σ := σ) window).exists_made world
    rw [hseen, hgrew] at hglanced
    cases List.append_cancel_right hglanced
    exact absurd hprogrammed (hidle.unlisted (fun _ _ => False.elim) base)
  | unstopped hblock hstop =>
    obtain ⟨halting, haccesses, hunlisted, _⟩ := exists_made_of_stopped hseen hstop
    rw [hgrew] at haccesses
    cases List.append_cancel_right haccesses
    exact absurd hprogrammed (hunlisted base)
  | @refused _ stopped _ hblock hstop hasked =>
    obtain ⟨halting, haccesses, hunlisted, _⟩ := exists_made_of_stopped hseen hstop
    have hsame := PortAreas.clerical_allocate.accesses stopped
    rw [hasked, hgrew, haccesses] at hsame
    cases List.append_cancel_right hsame
    exact absurd hprogrammed (hunlisted base)
  | @unstarted _ areas stopped owning ready started _ hblock hstop hasked htold hstart hfreed =>
    obtain ⟨halting, hhalted, hunlisted, hunasked, hlast⟩ := exists_made_of_stopped hseen hstop
    obtain ⟨telling, hinformed, hwithin, huntouched⟩ :=
      (touches_programPort (σ := σ) window areas).exists_made
        { owning with memory := areas.writeHeaders slotCount owning.memory }
    rw [htold] at hinformed huntouched
    obtain ⟨starting, hbegun, hhandshake, hunreleased⟩ :=
      (touches_startEngine (σ := σ) window config.readyLimit.toNat).exists_made ready
    rw [hstart] at hbegun hunreleased
    obtain ⟨rfl, polls, asking, hwaited, houtcome⟩ := polled_of_unstarted hstart
    rw [hbegun] at hwaited
    cases List.append_cancel_right hwaited
    have howned := PortAreas.clerical_allocate.accesses stopped
    rw [hasked] at howned
    have hkept := areas.clerical_release.accesses started
    rw [hfreed, hgrew, hbegun, hinformed, howned, hhalted] at hkept
    have hwhole : made = polls ++ (asking ++ (telling ++ halting)) := by
      apply (List.append_left_inj world.accesses).1
      simpa using hkept
    have hquiet := hwithin.quiet fun _ _ hsent => hsent.1
    refine ⟨rfl, ⟨areas, ?_, ?_⟩, polls, _, hwhole, ?_⟩
    · -- Only the programming writes PxCLB.
      rw [hwhole, ← List.append_assoc, List.mem_append,
        List.mem_append (s := telling)] at hprogrammed
      rcases hprogrammed with hlate | hhead | hearly
      · refine absurd hlate (hhandshake.unlisted ?_ base)
        rintro offset _ rfl
        decide
      · rcases hwithin _ hhead with ⟨offset, value, hsame⟩ | ⟨offset, value, hsent, hsame⟩ <;>
          cases hsame
        exact hsent.2 rfl
      · exact absurd hearly (hunlisted base)
    · rw [PortAreas.frameEvents_of_released hfreed, hunreleased, huntouched,
        PortAreas.frameEvents_of_allocated hasked, hunasked, List.append_assoc]
    · rcases houtcome with ⟨hrunning, rfl⟩ | ⟨hdeaf, command, hasked⟩
      · refine .inl ⟨hrunning, ?_⟩
        rcases hlast rfl with hsilent | ⟨command, hasked⟩
        · rw [List.nil_append]
          exact .inl fun access hmember => (List.mem_append.1 hmember).elim (hquiet access)
            (hsilent access)
        · exact .inr ⟨command, hasked.behind hquiet⟩
      · exact .inr ⟨hdeaf, command, hasked.longer _⟩

end HostM

end BringUp

/-- The registers of a port whose engine is running and can be stopped, and which then processes
commands of its own accord. -/
def Script.restless : Script :=
  ⟨[(PortRegister.cmd, [0xC011, 0x4010, 0x4010, 0, 0x8000]),
    (PortRegister.ssts, [0x113]),
    (PortRegister.sig, [0x101])]⟩

/-- The registers of a port whose engine never shows itself receiving frames. -/
def Script.deaf : Script :=
  ⟨[(PortRegister.ssts, [0x113]), (PortRegister.sig, [0x101])]⟩

namespace HostM

/-- The hypotheses are met by a port whose engine goes on processing, and which was last asked to
stop receiving frames. -/
theorem bringUp_abandoned_of_restless :
    let start : World Script :=
      { device := .restless, memory := {}, allocator := risingAllocator [] }
    ∃ after error base, (bringUp (.port 0) 0 1 { readyLimit := 2 }).exec start =
        (.ok (.error error), after) ∧
      .write (.port 0) PortRegister.clb base ∈ after.accesses ∧
      error = .timeout ∧
      (∃ areas : PortAreas, base = (areas.list.physAt 0).lower ∧
        after.frameEvents = areas.returns ++ areas.grants ++ []) ∧
      ∃ polls asking, after.accesses = polls ++ asking ∧
        (Access.Polled (.port 0) CmdBit.listRunning true 2 polls ∧
            ((∀ access ∈ asking, access.command? (.port 0) = none) ∨
              ∃ command, Access.LastAsked (.port 0) asking command
                (Word.clear command CmdBit.fisReceive)) ∨
          Access.Polled (.port 0) CmdBit.fisRunning false 2 polls ∧
            ∃ command, Access.LastAsked (.port 0) asking command
              (Word.set command CmdBit.fisReceive)) := by
  intro start
  have htrial : ((bringUp (.port 0) 0 1 { readyLimit := 2 }).exec start).1.map
        (Except.map fun _ => ()) = .ok (.error .timeout) ∧
      .write (.port 0) PortRegister.clb 0x34500000 ∈
        ((bringUp (.port 0) 0 1 { readyLimit := 2 }).exec start).2.accesses := by
    decide +kernel
  rcases hfailed : (bringUp (.port 0) 0 1 { readyLimit := 2 }).exec start with
    ⟨reason | error | up, after⟩ <;> rw [hfailed] at htrial
  · cases htrial.1
  · refine ⟨after, error, _, rfl, htrial.2, ?_⟩
    exact bringUp_abandoned hfailed (List.append_nil _).symm htrial.2
  · cases htrial.1

/-- A defect of the driver. A port that never shows itself receiving frames is left asked to receive
them, into memory that was given back. -/
theorem bringUp_leaves_receiving :
    let start : World Script :=
      { device := .deaf, memory := {}, allocator := risingAllocator [] }
    ∃ after, (bringUp (.port 0) 0 1 { readyLimit := 2 }).exec start =
        (.ok (.error .timeout), after) ∧
      .write (.port 0) PortRegister.clb (risingAreas.list.physAt 0).lower ∈ after.accesses ∧
      after.frameEvents = risingAreas.returns ++ risingAreas.grants ∧
      ∃ value, after.command? (.port 0) = some value ∧
        Word.test value CmdBit.fisReceive = true := by
  intro start
  have htrial : ((bringUp (.port 0) 0 1 { readyLimit := 2 }).exec start).1.map
        (Except.map fun _ => ()) = .ok (.error .timeout) ∧
      .write (.port 0) PortRegister.clb (risingAreas.list.physAt 0).lower ∈
        ((bringUp (.port 0) 0 1 { readyLimit := 2 }).exec start).2.accesses ∧
      ((bringUp (.port 0) 0 1 { readyLimit := 2 }).exec start).2.frameEvents =
        risingAreas.returns ++ risingAreas.grants ∧
      ((bringUp (.port 0) 0 1 { readyLimit := 2 }).exec start).2.command? (.port 0) =
        some 0x10 := by
    decide +kernel
  rcases hfailed : (bringUp (.port 0) 0 1 { readyLimit := 2 }).exec start with
    ⟨reason | error | up, after⟩ <;> rw [hfailed] at htrial
  · cases htrial.1
  · obtain ⟨hended, htold, hreturned, hasked⟩ := htrial
    cases hended
    exact ⟨after, rfl, htold, hreturned, _, hasked, by decide⟩
  · cases htrial.1

end HostM

end Ahci
