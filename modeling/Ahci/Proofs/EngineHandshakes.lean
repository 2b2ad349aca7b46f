import Ahci.Proofs.RegisterDialogue

/-!
The order that the handshakes with the command engine of a port keep, over any device. Frames may
be received no longer only once the engine has been seen to have ceased processing, and commands
may be processed only once frames have been seen to be received; a device that does not get that
far within the reads of a wait is told nothing more. `Access.Stops` and `Access.Starts` list the
dialogues of the two handshakes, and a handshake has just these.
-/

namespace Ahci

namespace Word

/-- One word differs from another in a single bit, which has the given value in it; that bit may
have had the value before, and then the words are equal. -/
structure Turned (bit : Nat) (value : Bool) (before after : UInt32) : Prop where
  turned : test after bit = value
  kept : ∀ other, other ≠ bit → test after other = test before other

variable {bit : Nat} {before after : UInt32}

/-- Of all words, only the one with the bit cleared is turned so. -/
theorem turned_clear_iff : Turned bit false before after ↔ after = clear before bit := by
  constructor
  · rintro ⟨hturned, hkept⟩
    apply ext
    intro other _
    rw [test_clear]
    by_cases hsame : bit = other
    · subst hsame
      simp [hturned]
    · simp [hsame, hkept other (Ne.symm hsame)]
  · rintro rfl
    refine ⟨by simp [test_clear], fun other hdifferent => ?_⟩
    simp [test_clear, Ne.symm hdifferent]

/-- Of all words, only the one with the bit set is turned so, for the bits that a word has. -/
theorem turned_set_iff (hlow : bit < 32) :
    Turned bit true before after ↔ after = set before bit := by
  constructor
  · rintro ⟨hturned, hkept⟩
    apply ext
    intro other _
    rw [test_set before hlow]
    by_cases hsame : bit = other
    · subst hsame
      simp [hturned]
    · simp [hsame, hkept other (Ne.symm hsame)]
  · rintro rfl
    refine ⟨by simp [test_set before hlow], fun other hdifferent => ?_⟩
    simp [test_set before hlow, Ne.symm hdifferent]

end Word

/-- The bits ST, FRE, FR and CR of PxCMD, by which an engine is asked to run or shows that it
runs. -/
def CmdBit.engine : List Nat :=
  [start, listRunning, fisReceive, fisRunning]

namespace Access

/-- A read of PxCMD in whose value one bit has the given state. -/
def Shows (window : Window) (bit : Nat) (value : Bool) (access : Access) : Prop :=
  ∃ command, access = .read window PortRegister.cmd command ∧ Word.test command bit = value

/-- The reads of PxCMD in a wait for one of its bits to take a value, and whether the wait succeeded
within the limit. -/
abbrev WaitedFor (window : Window) (bit : Nat) (value : Bool) :
    Nat → List Access → Bool → Prop :=
  Waited (Shows window bit !value) (Shows window bit value)

/-- The dialogues in which `stopEngine` can stop an engine, with the outcome of each. There are
four: an engine already idle, a wait for CR to clear that fails, a wait for FR to clear that fails,
and success. The limit bounds each of the two waits on its own. -/
inductive Stops (window : Window) (limit : Nat) : List Access → Except DriverError Unit → Prop where
  /-- An engine that shows none of its four bits is left alone. -/
  | idle {command : UInt32} (hquiet : ∀ bit ∈ CmdBit.engine, Word.test command bit = false) :
      Stops window limit [.read window PortRegister.cmd command] (.ok ())
  /-- The engine is asked to cease processing, and is not seen to. -/
  | processing {command asked : UInt32} {polls : List Access}
      (hbusy : ∃ bit ∈ CmdBit.engine, Word.test command bit = true)
      (hcease : Word.Turned CmdBit.start false command asked)
      (hrunning : WaitedFor window CmdBit.listRunning false limit polls false) :
      Stops window limit
        (.read window PortRegister.cmd command :: .write window PortRegister.cmd asked :: polls)
        (.error .timeout)
  /-- It ceased, is asked to receive no longer, and is not seen to stop. -/
  | receiving {command asked seen told : UInt32} {polls more : List Access}
      (hbusy : ∃ bit ∈ CmdBit.engine, Word.test command bit = true)
      (hcease : Word.Turned CmdBit.start false command asked)
      (hceased : WaitedFor window CmdBit.listRunning false limit polls true)
      (hdeafen : Word.Turned CmdBit.fisReceive false seen told)
      (hhearing : WaitedFor window CmdBit.fisRunning false limit more false) :
      Stops window limit
        (.read window PortRegister.cmd command :: .write window PortRegister.cmd asked ::
          (polls ++ .read window PortRegister.cmd seen :: .write window PortRegister.cmd told ::
            more))
        (.error .timeout)
  /-- It ceased, and was seen to receive no longer. -/
  | stopped {command asked seen told : UInt32} {polls more : List Access}
      (hbusy : ∃ bit ∈ CmdBit.engine, Word.test command bit = true)
      (hcease : Word.Turned CmdBit.start false command asked)
      (hceased : WaitedFor window CmdBit.listRunning false limit polls true)
      (hdeafen : Word.Turned CmdBit.fisReceive false seen told)
      (hdeaf : WaitedFor window CmdBit.fisRunning false limit more true) :
      Stops window limit
        (.read window PortRegister.cmd command :: .write window PortRegister.cmd asked ::
          (polls ++ .read window PortRegister.cmd seen :: .write window PortRegister.cmd told ::
            more))
        (.ok ())

/-- The dialogues in which `startEngine` can start an engine, with the outcome of each. There are
three: a wait for CR to clear that fails, a wait for FR to be set that fails, and success. The limit
bounds each of the two waits on its own. -/
inductive Starts (window : Window) (limit : Nat) :
    List Access → Except DriverError Unit → Prop where
  /-- An engine that is not seen to have ceased processing is asked nothing. -/
  | processing {polls : List Access}
      (hrunning : WaitedFor window CmdBit.listRunning false limit polls false) :
      Starts window limit polls (.error .timeout)
  /-- It is asked to receive, and is not seen to. -/
  | deaf {seen asked : UInt32} {polls more : List Access}
      (hceased : WaitedFor window CmdBit.listRunning false limit polls true)
      (hhear : Word.Turned CmdBit.fisReceive true seen asked)
      (hdeaf : WaitedFor window CmdBit.fisRunning true limit more false) :
      Starts window limit
        (polls ++ .read window PortRegister.cmd seen :: .write window PortRegister.cmd asked ::
          more)
        (.error .timeout)
  /-- It receives, and is asked to process. -/
  | started {seen asked found told : UInt32} {polls more : List Access}
      (hceased : WaitedFor window CmdBit.listRunning false limit polls true)
      (hhear : Word.Turned CmdBit.fisReceive true seen asked)
      (hhearing : WaitedFor window CmdBit.fisRunning true limit more true)
      (hrun : Word.Turned CmdBit.start true found told) :
      Starts window limit
        (polls ++ .read window PortRegister.cmd seen :: .write window PortRegister.cmd asked ::
          (more ++ [.read window PortRegister.cmd found, .write window PortRegister.cmd told]))
        (.ok ())

end Access

namespace HostM

variable {σ : Type} [Device σ] (window : Window) (limit : Nat)

/-- An engine counts as idle if a value of PxCMD shows none of its four bits. -/
theorem isIdle_eq_true_iff (command : UInt32) :
    isIdle command = true ↔ ∀ bit ∈ CmdBit.engine, Word.test command bit = false := by
  simp [isIdle, CmdBit.engine, and_assoc]

/-- An engine counts as busy if a value of PxCMD shows one of its four bits at least. -/
theorem not_isIdle_iff (command : UInt32) :
    ¬isIdle command = true ↔ ∃ bit ∈ CmdBit.engine, Word.test command bit = true := by
  simp [isIdle_eq_true_iff]

/-- Waiting for a bit of PxCMD has the dialogues of such a wait, and returns whether it
succeeded. -/
theorem converses_commandBitBecomes (bit : Nat) (value : Bool) :
    (commandBitBecomes window bit value limit : HostM σ Bool).Converses
      (Access.WaitedFor window bit value limit) := by
  induction limit with
  | zero => exact (Converses.pure false).congr fun made shown => Access.waited_zero_iff.symm
  | succ limit ih =>
    refine Converses.congr (fun made shown => ?_) (.readThen fun command => .ite (.pure true) ih)
    rw [Access.WaitedFor, Access.waited_succ_iff]
    constructor
    · rintro ⟨command, late, rfl, ⟨hshows, rfl, rfl⟩ | ⟨hother, hwaited⟩⟩
      · exact .inl ⟨_, rfl, ⟨command, rfl, by simpa using hshows⟩, rfl⟩
      · exact .inr ⟨_, late, rfl, ⟨command, rfl, by cases value <;> simpa using hother⟩, hwaited⟩
    · rintro (⟨_, rfl, ⟨command, rfl, hshows⟩, rfl⟩ |
        ⟨_, late, rfl, ⟨command, rfl, hother⟩, hwaited⟩)
      · exact ⟨command, [], rfl, .inl ⟨by simpa using hshows, rfl, rfl⟩⟩
      · exact ⟨command, late, rfl, .inr ⟨by cases value <;> simpa using hother, hwaited⟩⟩

/-- A handshake that waits and then goes on: if the wait fails it ends there with a timeout, and if
the wait succeeds the rest of the handshake follows the reads of the wait. -/
theorem Converses.waitThen {wait : HostM σ Bool} {rest : HostM σ (Except DriverError Unit)}
    {waits : List Access → Bool → Prop} {talk : List Access → Except DriverError Unit → Prop}
    (hfirst : wait.Converses waits) (hsecond : rest.Converses talk) :
    (do
      if !(← wait) then
        return .error .timeout
      rest : HostM σ (Except DriverError Unit)).Converses fun made outcome =>
        waits made false ∧ outcome = .error .timeout ∨
          ∃ polls late, made = polls ++ late ∧ waits polls true ∧ talk late outcome := by
  refine Converses.congr (fun made outcome => ?_) (hfirst.bind fun shown => .ite (.pure _) hsecond)
  constructor
  · rintro ⟨polls, shown, late, rfl, hwaited, ⟨hfailed, rfl, rfl⟩ | ⟨hshows, hgoesOn⟩⟩
    · rw [show shown = false by simpa using hfailed] at hwaited
      exact .inl ⟨by rwa [List.append_nil], rfl⟩
    · rw [show shown = true by simpa using hshows] at hwaited
      exact .inr ⟨polls, late, rfl, hwaited, hgoesOn⟩
  · rintro (⟨hwaited, rfl⟩ | ⟨polls, late, rfl, hwaited, hgoesOn⟩)
    · exact ⟨made, false, [], (List.append_nil made).symm, hwaited, .inl ⟨rfl, rfl, rfl⟩⟩
    · exact ⟨polls, true, late, rfl, hwaited, .inr ⟨by decide, hgoesOn⟩⟩

/-- Stopping an engine has just the dialogues of `Access.Stops`, over any device. -/
theorem converses_stopEngine :
    (stopEngine window limit : HostM σ _).Converses (Access.Stops window limit) := by
  have hwaits (bit : Nat) :=
    converses_commandBitBecomes (σ := σ) window limit bit false
  refine Converses.congr (fun made outcome => ?_) (.readThen fun command => .ite (.pure _)
    (.writeThen <| (hwaits CmdBit.listRunning).waitThen <| .readThen fun seen =>
      .writeThen <| (hwaits CmdBit.fisRunning).waitThen <| .pure _))
  constructor
  · rintro ⟨command, _, rfl, ⟨hidle, rfl, rfl⟩ | ⟨hbusy, polls, rfl, hrest⟩⟩
    · exact .idle ((isIdle_eq_true_iff command).1 hidle)
    · have hbusy := (not_isIdle_iff command).1 hbusy
      have hcease := Word.turned_clear_iff.2 (Eq.refl (Word.clear command CmdBit.start))
      rcases hrest with ⟨hrunning, rfl⟩ | ⟨polls, _, rfl, hceased, seen, _, rfl, more, rfl, hrest⟩
      · exact .processing hbusy hcease hrunning
      · have hdeafen := Word.turned_clear_iff.2 (Eq.refl (Word.clear seen CmdBit.fisReceive))
        rcases hrest with ⟨hhearing, rfl⟩ | ⟨more, _, rfl, hdeaf, rfl, rfl⟩
        · exact .receiving hbusy hcease hceased hdeafen hhearing
        · rw [List.append_nil]
          exact .stopped hbusy hcease hceased hdeafen hdeaf
  · rintro (⟨hquiet⟩ | ⟨hbusy, hcease, hrunning⟩ | ⟨hbusy, hcease, hceased, hdeafen, hhearing⟩ |
      @⟨_, _, _, _, _, more, hbusy, hcease, hceased, hdeafen, hdeaf⟩)
    · exact ⟨_, _, rfl, .inl ⟨(isIdle_eq_true_iff _).2 hquiet, rfl, rfl⟩⟩
    · cases Word.turned_clear_iff.1 hcease
      exact ⟨_, _, rfl, .inr ⟨(not_isIdle_iff _).2 hbusy, _, rfl, .inl ⟨hrunning, rfl⟩⟩⟩
    · cases Word.turned_clear_iff.1 hcease
      cases Word.turned_clear_iff.1 hdeafen
      exact ⟨_, _, rfl, .inr ⟨(not_isIdle_iff _).2 hbusy, _, rfl,
        .inr ⟨_, _, rfl, hceased, _, _, rfl, _, rfl, .inl ⟨hhearing, rfl⟩⟩⟩⟩
    · cases Word.turned_clear_iff.1 hcease
      cases Word.turned_clear_iff.1 hdeafen
      exact ⟨_, _, rfl, .inr ⟨(not_isIdle_iff _).2 hbusy, _, rfl,
        .inr ⟨_, _, rfl, hceased, _, _, rfl,
        _, rfl, .inr ⟨more, [], (List.append_nil _).symm, hdeaf, rfl, rfl⟩⟩⟩⟩

/-- Starting an engine has just the dialogues of `Access.Starts`, over any device. -/
theorem converses_startEngine :
    (startEngine window limit : HostM σ _).Converses (Access.Starts window limit) := by
  have hwaits (bit : Nat) (value : Bool) :=
    converses_commandBitBecomes (σ := σ) window limit bit value
  have hreceives : CmdBit.fisReceive < 32 := by decide
  have hstarts : CmdBit.start < 32 := by decide
  refine Converses.congr (fun made outcome => ?_) ((hwaits CmdBit.listRunning false).waitThen <|
    .readThen fun seen => .writeThen <| (hwaits CmdBit.fisRunning true).waitThen <|
      .readThen fun found => .writeThen <| .pure _)
  constructor
  · rintro (⟨hrunning, rfl⟩ | ⟨polls, _, rfl, hceased, seen, _, rfl, more, rfl, hrest⟩)
    · exact .processing hrunning
    · have hhear := (Word.turned_set_iff hreceives).2 (Eq.refl (Word.set seen CmdBit.fisReceive))
      rcases hrest with ⟨hdeaf, rfl⟩ | ⟨more, _, rfl, hhearing, found, _, rfl, _, rfl, rfl, rfl⟩
      · exact .deaf hceased hhear hdeaf
      · exact .started hceased hhear hhearing ((Word.turned_set_iff hstarts).2 rfl)
  · rintro (⟨hrunning⟩ | ⟨hceased, hhear, hdeaf⟩ | ⟨hceased, hhear, hhearing, hrun⟩)
    · exact .inl ⟨hrunning, rfl⟩
    · cases (Word.turned_set_iff hreceives).1 hhear
      exact .inr ⟨_, _, rfl, hceased, _, _, rfl, _, rfl, .inl ⟨hdeaf, rfl⟩⟩
    · cases (Word.turned_set_iff hreceives).1 hhear
      cases (Word.turned_set_iff hstarts).1 hrun
      exact .inr ⟨_, _, rfl, hceased, _, _, rfl, _, rfl,
        .inr ⟨_, _, rfl, hhearing, _, _, rfl, _, rfl, rfl, rfl⟩⟩

/-- Over any device and for any limit, stopping and starting an engine go from one world to another
exactly by the dialogues of `Access.Stops` and `Access.Starts`, and return the outcome that the
dialogue carries. Hence neither ever halts. Stopping writes nothing if PxCMD shows none of ST, FRE,
FR and CR; otherwise it clears ST, waits for CR to read 0, then clears FRE and waits for FR to read
0, and succeeds only behind both waits. Starting waits for CR to read 0, then sets FRE, waits for FR
to read 1, then sets ST. Each write differs from the read just before it in that one bit only. A
wait reads PxCMD at most as often as the limit says, and behind a wait that fails nothing more is
written and the handshake returns a timeout. -/
theorem handshakes_in_order (world after : World σ)
    (result : Except Halt (Except DriverError Unit)) :
    ((stopEngine window limit).exec world = (result, after) ↔
      ∃ made outcome, Access.Stops window limit made outcome ∧ result = .ok outcome ∧
        world.Undergoes made after) ∧
    ((startEngine window limit).exec world = (result, after) ↔
      ∃ made outcome, Access.Starts window limit made outcome ∧ result = .ok outcome ∧
        world.Undergoes made after) :=
  ⟨converses_stopEngine window limit world result after,
    converses_startEngine window limit world result after⟩

end HostM

end Ahci
