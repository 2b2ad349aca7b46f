import Ahci.Proofs.DeviceParametricity

/-!
Ports side by side behind one adapter. Each register window has a device of its own behind it, and
all of them share memory. A step that stays at one window goes as it would on that port alone, and
leaves the other ports as they were. By the rules for what a step is made of, so does all that the
driver does with a port.
-/

namespace Ahci

/-- An adapter, and behind each register window a port of its own. All numbers have a port here;
which of them are implemented is told by the registers of the adapter. -/
structure Backplane (α τ : Type) where
  adapter : α
  ports : Nat → τ

variable {α τ β γ : Type}

namespace Backplane

/-- The backplane with another port behind one window. -/
def plug (plane : Backplane α τ) (number : Nat) (port : τ) : Backplane α τ :=
  { plane with ports := fun other => if other = number then port else plane.ports other }

@[simp] theorem ports_plug_self (plane : Backplane α τ) (number : Nat) (port : τ) :
    (plane.plug number port).ports number = port :=
  if_pos rfl

theorem ports_plug_of_ne (plane : Backplane α τ) {number other : Nat} (port : τ)
    (hdifferent : other ≠ number) : (plane.plug number port).ports other = plane.ports other :=
  if_neg hdifferent

/-- A register answers from behind its window, and nothing else changes. -/
instance [Device α] [Device τ] : Device (Backplane α τ) where
  read window offset plane memory :=
    match window with
    | .hba =>
      let (value, adapter) := Device.read .hba offset plane.adapter memory
      (value, { plane with adapter })
    | .port number =>
      let (value, port) := Device.read (.port number) offset (plane.ports number) memory
      (value, plane.plug number port)
  write window offset value plane memory :=
    match window with
    | .hba =>
      let (adapter, memory) := Device.write .hba offset value plane.adapter memory
      ({ plane with adapter }, memory)
    | .port number =>
      let (port, memory) := Device.write (.port number) offset value (plane.ports number) memory
      (plane.plug number port, memory)

/-- The world of one port alone, with a record of its own: memory, frames and patience are those of
the whole, the accesses and the log are given, since on the backplane other ports have theirs in
between. -/
def alone (world : World (Backplane α τ)) (number : Nat) (accesses : List Access) (log : Log) :
    World τ :=
  { device := world.device.ports number, memory := world.memory, allocator := world.allocator,
    frameEvents := world.frameEvents, accesses, log, patience := world.patience }

end Backplane

namespace Access

/-- The window that an access goes to. -/
def window : Access → Window
  | .read window _ _ => window
  | .write window _ _ => window
  | .opened window => window

/-- The window that is asked for, if one is. -/
def opened? : Access → Option Window
  | .opened window => some window
  | _ => none

/-- An access to a register of a window, and not the asking for the window itself. -/
def At (window : Window) (access : Access) : Prop :=
  access.window = window ∧ access.opened? = none

end Access

/-- One world comes from another by accesses to one port only: the other ports are as they were, and
what was added to the record is accesses to the registers of this port. -/
structure World.Beside (number : Nat) (before after : World (Backplane α τ)) : Prop where
  others : ∀ other ≠ number, after.device.ports other = before.device.ports other
  patience : after.patience = before.patience
  accesses : ∃ made, after.accesses = made ++ before.accesses ∧
    ∀ access ∈ made, access.At (.port number)

namespace World.Beside

variable {number : Nat} {first second third : World (Backplane α τ)}

theorem of_same (hdevice : second.device = first.device)
    (hpatience : second.patience = first.patience) (haccesses : second.accesses = first.accesses) :
    World.Beside number first second :=
  ⟨fun _ _ => by rw [hdevice], hpatience, [], haccesses, nofun⟩

theorem trans (hearly : World.Beside number first second)
    (hlate : World.Beside number second third) : World.Beside number first third := by
  obtain ⟨made, hgrown, hthere⟩ := hearly.accesses
  obtain ⟨more, hfurther, hhead⟩ := hlate.accesses
  refine ⟨fun other hdifferent => ?_, hlate.patience.trans hearly.patience, more ++ made, ?_, ?_⟩
  · exact (hlate.others other hdifferent).trans (hearly.others other hdifferent)
  · rw [hfurther, hgrown, List.append_assoc]
  · intro access hmember
    exact (List.mem_append.1 hmember).elim (hhead access) (hthere access)

end World.Beside

namespace HostM

open Backplane (alone)

/-- A step at one port of a backplane that goes as another one goes on the port alone: from the
world of the port alone, with any record, it ends with the same result and in the world of the port
alone afterwards, and on the backplane it stays beside the other ports. -/
def GoesAs (number : Nat) (step : HostM (Backplane α τ) β) (single : HostM τ β) : Prop :=
  ∀ world accesses log, (∃ more text, single.exec (alone world number accesses log) =
      ((step.exec world).1, alone (step.exec world).2 number more text)) ∧
    World.Beside number world (step.exec world).2

namespace GoesAs

variable {number : Nat}

theorem pure (b : β) :
    GoesAs number (pure b : HostM (Backplane α τ) β) (pure b : HostM τ β) :=
  fun _ accesses log => ⟨⟨accesses, log, rfl⟩, .of_same rfl rfl rfl⟩

theorem halt (reason : Halt) :
    GoesAs number (halt reason : HostM (Backplane α τ) β) (halt reason : HostM τ β) :=
  fun _ accesses log => ⟨⟨accesses, log, rfl⟩, .of_same rfl rfl rfl⟩

theorem changeMemory (f : Memory → Memory) :
    GoesAs number (changeMemory f : HostM (Backplane α τ) Unit) (changeMemory f : HostM τ Unit) :=
  fun _ accesses log => ⟨⟨accesses, log, rfl⟩, .of_same rfl rfl rfl⟩

theorem inspectMemory (f : Memory → β) :
    GoesAs number (inspectMemory f : HostM (Backplane α τ) β) (inspectMemory f : HostM τ β) :=
  fun _ accesses log => ⟨⟨accesses, log, rfl⟩, .of_same rfl rfl rfl⟩

theorem note (severity : Severity) (text : String) :
    GoesAs number (note severity text : HostM (Backplane α τ) Unit)
      (note severity text : HostM τ Unit) :=
  fun _ accesses _ => ⟨⟨accesses, _, rfl⟩, .of_same rfl rfl rfl⟩

theorem patience :
    GoesAs number (patience : HostM (Backplane α τ) Nat) (patience : HostM τ Nat) :=
  fun _ accesses log => ⟨⟨accesses, log, rfl⟩, .of_same rfl rfl rfl⟩

theorem allocate (frames : Nat) :
    GoesAs number (allocate frames : HostM (Backplane α τ) _) (allocate frames : HostM τ _) := by
  intro world accesses log
  rw [Clerical.exec_allocate, Clerical.exec_allocate]
  cases hgranted : world.allocator world.frameEvents frames with
  | ok base =>
    simp only [alone, hgranted]
    exact ⟨⟨accesses, log, rfl⟩, .of_same rfl rfl rfl⟩
  | error error =>
    simp only [alone, hgranted]
    exact ⟨⟨accesses, log, rfl⟩, .of_same rfl rfl rfl⟩

theorem release (region : Region) :
    GoesAs number (release region : HostM (Backplane α τ) Unit)
      (release region : HostM τ Unit) :=
  fun _ accesses log => ⟨⟨accesses, log, rfl⟩, .of_same rfl rfl rfl⟩

/-- What comes behind a step need go alike only for the values that such a step can end with. -/
theorem bind_of (good : β → Prop) {step : HostM (Backplane α τ) β} {single : HostM τ β}
    {next : β → HostM (Backplane α τ) γ} {follow : β → HostM τ γ}
    (hfirst : GoesAs number step single)
    (hends : ∀ world b after, step.exec world = (.ok b, after) → good b)
    (hsecond : ∀ b, good b → GoesAs number (next b) (follow b)) :
    GoesAs number (step >>= next) (single >>= follow) := by
  intro world accesses log
  obtain ⟨⟨more, text, hsingle⟩, hbeside⟩ := hfirst world accesses log
  rw [exec_bind, exec_bind, hsingle]
  rcases hended : step.exec world with ⟨reason | b, after⟩ <;> rw [hended] at hbeside
  · exact ⟨⟨more, text, rfl⟩, hbeside⟩
  · obtain ⟨hlate, hfurther⟩ := hsecond b (hends world b after hended) after more text
    exact ⟨hlate, hbeside.trans hfurther⟩

variable [Device α] [Device τ]

theorem readRegister (offset : Nat) :
    GoesAs number (readRegister (.port number) offset : HostM (Backplane α τ) UInt32)
      (readRegister (.port number) offset : HostM τ UInt32) := by
  intro world accesses log
  let answer := Device.read (.port number) offset (world.device.ports number) world.memory
  refine ⟨⟨.read (.port number) offset answer.1 :: accesses, log, ?_⟩, ?_, rfl,
    [.read (.port number) offset answer.1], rfl, ?_⟩
  · rw [exec_readRegister, exec_readRegister]
    simp only [Device.read, alone, Backplane.ports_plug_self]
    rfl
  · intro other hdifferent
    exact Backplane.ports_plug_of_ne world.device answer.2 hdifferent
  · simp [Access.At, Access.window, Access.opened?]

theorem writeRegister (offset : Nat) (value : UInt32) :
    GoesAs number (writeRegister (.port number) offset value : HostM (Backplane α τ) Unit)
      (writeRegister (.port number) offset value : HostM τ Unit) := by
  intro world accesses log
  let effect := Device.write (.port number) offset value (world.device.ports number) world.memory
  refine ⟨⟨.write (.port number) offset value :: accesses, log, ?_⟩, ?_, rfl,
    [.write (.port number) offset value], rfl, ?_⟩
  · rw [exec_writeRegister, exec_writeRegister]
    simp only [Device.write, alone, Backplane.ports_plug_self]
  · intro other hdifferent
    exact Backplane.ports_plug_of_ne world.device effect.1 hdifferent
  · simp [Access.At, Access.window, Access.opened?]

end GoesAs

/-- By induction over how the two steps are made: what goes through the window of one port of a
backplane goes as it does on the port alone. -/
theorem Counterparts.goesAs [Device α] [Device τ] {number : Nat} {step : HostM (Backplane α τ) β}
    {single : HostM τ β} (hcounterparts : Counterparts (.port number) step single) :
    GoesAs number step single := by
  induction hcounterparts with
  | pure b => exact .pure b
  | halt reason => exact .halt reason
  | patience => exact .patience
  | note severity text => exact .note severity text
  | changeMemory f => exact .changeMemory f
  | inspectMemory f => exact .inspectMemory f
  | allocate frames => exact .allocate frames
  | release region => exact .release region
  | readRegister offset => exact .readRegister offset
  | writeRegister offset value => exact .writeRegister offset value
  | bindOf good _ hends _ hearly hlate => exact hearly.bind_of good hends hlate

end HostM

end Ahci
