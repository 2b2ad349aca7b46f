import Ahci.Register.Mapped

/-!
Registers in mapped memory, reached through windows. A register is named by the windows that lead
to it and by its offset in the last of them, and all that a name comes to is an address. So it does
not matter through which windows a register is accessed: every address keeps what was last written
to it, and the blocks of the ports and the generic block have none in common.
-/

namespace Ahci

/-! Names of registers. -/

/-- A window inside another one. -/
inductive Inset where
  /-- The part that begins at an offset. -/
  | part (offset : Nat)
  /-- The block of a port. -/
  | port (index : Nat)

namespace Inset

def offset : Inset → Nat
  | part offset => offset
  | port index => portOffset index

def of (window : MappedWindow) : Inset → MappedWindow
  | part offset => window.part offset
  | port index => window.ofPort index

end Inset

/-- A register by its name: the windows that lead to it, and its offset in the last of them. One
register has many names. -/
structure RegisterName where
  path : List Inset
  offset : Nat

namespace RegisterName

/-- How far a register lies behind the beginning of the outermost window. -/
def distance (register : RegisterName) : Nat :=
  register.path.foldr (fun inset inner => inset.offset + inner) register.offset

/-- A register in the block of a port, reached through the window of that port. -/
def OfPort (register : RegisterName) (index : Nat) : Prop :=
  ∃ path, register.path = .port index :: path ∧
    distance ⟨path, register.offset⟩ < portBlockSize

/-- A register in the generic block. -/
def Generic (register : RegisterName) : Prop :=
  register.distance < portBlockBase

variable {register other : RegisterName} {index : Nat}

/-- A register in the block of a port lies in the 128 bytes of this block, from the first window
on. -/
theorem OfPort.distance (hinside : register.OfPort index) :
    portOffset index ≤ register.distance ∧
      register.distance < portOffset index + portBlockSize := by
  obtain ⟨path, hthrough, hbelow⟩ := hinside
  have hfurther : register.distance =
      portOffset index + RegisterName.distance ⟨path, register.offset⟩ := by
    rw [RegisterName.distance, hthrough]
    rfl
  omega

/-- A port has no register in common with another port or with the generic block. -/
theorem OfPort.distance_ne (hinside : register.OfPort index)
    (houtside : other.Generic ∨ ∃ another ≠ index, other.OfPort another) :
    register.distance ≠ other.distance := by
  have hhead := hinside.distance
  rcases houtside with hgeneric | ⟨another, hdiffer, hthere⟩
  · have hfirst : portBlockBase ≤ portOffset index := Nat.le_add_right _ _
    unfold Generic at hgeneric
    omega
  · have hthere := hthere.distance
    rcases Nat.lt_or_gt_of_ne hdiffer with hbefore | hbehind
    · have hapart := portOffset_apart hbefore
      omega
    · have hapart := portOffset_apart hbehind
      omega

end RegisterName

/-- An access to a register by its name. -/
inductive NamedAccess where
  | read (register : RegisterName)
  | write (register : RegisterName) (value : UInt32)

def NamedAccess.register : NamedAccess → RegisterName
  | read register => register
  | write register _ => register

/-- The register at an address of memory. -/
def Memory.register (memory : Memory) (address : Nat) : UInt32 :=
  UInt32.ofNat (ofLittleEndian (memory.load address 4))

namespace MappedWindow

variable {window : MappedWindow} {register other : RegisterName} {address : Nat}

/-! One access. -/

/-- The window at the end of a path, which is entered step by step. -/
def enter (window : MappedWindow) (path : List Inset) : MappedWindow :=
  path.foldl Inset.of window

def readNamed (window : MappedWindow) (register : RegisterName) (memory : Memory) : UInt32 :=
  (window.enter register.path).readRegister register.offset memory

def writeNamed (window : MappedWindow) (register : RegisterName) (value : UInt32)
    (memory : Memory) : Memory :=
  (window.enter register.path).writeRegister register.offset value memory

/-- The address of a register, as long as no address overflows: that of the outermost window and the
offsets on the way. -/
def placeOf (window : MappedWindow) (register : RegisterName) : Nat :=
  window.base.toNat + register.distance

/-- A register at an aligned address that does not overflow. Of accesses to others nothing is
said. -/
structure Reaches (window : MappedWindow) (register : RegisterName) : Prop where
  aligned : window.placeOf register % 4 = 0
  below : window.placeOf register < UInt64.size

/-- Of all the offsets on the way to a register, only the sum counts. -/
theorem address_enter (window : MappedWindow) (register : RegisterName) :
    (window.enter register.path).address register.offset = window.address register.distance := by
  obtain ⟨path, offset⟩ := register
  induction path generalizing window with
  | nil => rfl
  | cons inset path ih =>
    have hinner := ih (inset.of window)
    have houter : (inset.of window).address (RegisterName.distance ⟨path, offset⟩) =
        window.address (inset.offset + RegisterName.distance ⟨path, offset⟩) := by
      cases inset <;> exact congrArg VirtAddr.toNat (VirtAddr.add_add _ _ _)
    exact hinner.trans houter

theorem Reaches.address_eq (hreaches : window.Reaches register) :
    (window.enter register.path).address register.offset = window.placeOf register := by
  rw [address_enter, MappedWindow.address, VirtAddr.toNat_add]
  exact Nat.mod_eq_of_lt hreaches.below

theorem readNamed_eq (hreaches : window.Reaches register) (memory : Memory) :
    window.readNamed register memory = memory.register (window.placeOf register) := by
  rw [← hreaches.address_eq]
  rfl

theorem writeNamed_eq (hreaches : window.Reaches register) (value : UInt32) (memory : Memory) :
    window.writeNamed register value memory =
      memory.store (window.placeOf register) (littleEndian 4 value.toNat) := by
  rw [← hreaches.address_eq]
  rfl

/-- A write fills the four bytes of its register, the low byte first, and leaves every other byte of
memory alone. -/
theorem bytes_writeNamed (hreaches : window.Reaches register) (value : UInt32) (memory : Memory) :
    (window.writeNamed register value memory).load (window.placeOf register) 4 =
        littleEndian 4 value.toNat ∧
      ∀ address, address < window.placeOf register ∨ window.placeOf register + 4 ≤ address →
        (window.writeNamed register value memory).byte address = memory.byte address := by
  have hlength := length_littleEndian 4 value.toNat
  rw [writeNamed_eq hreaches]
  constructor
  · have hwhole := Memory.load_store memory (window.placeOf register)
      (littleEndian 4 value.toNat)
    rwa [hlength] at hwhole
  · intro address houtside
    rw [Memory.byte_store, dif_neg (by omega)]

/-- A write is seen in its own register, through whatever windows, and in no other one. Registers at
aligned addresses never overlap in part. -/
theorem register_writeNamed (hreaches : window.Reaches register) (value : UInt32)
    (memory : Memory) (haligned : address % 4 = 0) :
    (window.writeNamed register value memory).register address =
      if window.placeOf register = address then value else memory.register address := by
  split
  · next hsame =>
    rw [← hsame, ← readNamed_eq hreaches]
    exact readRegister_writeRegister _ _ _ _
  · next hdiffer =>
    have hlength := length_littleEndian 4 value.toNat
    have hown := hreaches.aligned
    rw [writeNamed_eq hreaches, Memory.register, Memory.load_store_of_disjoint _ (by omega)]
    rfl

/-! Any number of accesses. -/

def perform (window : MappedWindow) : NamedAccess → Memory → Memory
  | .read _, memory => memory
  | .write register value, memory => window.writeNamed register value memory

/-- The memory behind a history of accesses, newest first. -/
def after (window : MappedWindow) (history : List NamedAccess) (memory : Memory) : Memory :=
  history.foldr window.perform memory

/-- What the reads of a history answer, newest first. -/
def answers (window : MappedWindow) (memory : Memory) : List NamedAccess → List UInt32
  | [] => []
  | .read register :: earlier =>
    window.readNamed register (window.after earlier memory) :: window.answers memory earlier
  | .write _ _ :: earlier => window.answers memory earlier

/-- What an access leaves at an address, if it writes there. -/
def written? (window : MappedWindow) (address : Nat) : NamedAccess → Option UInt32
  | .read _ => none
  | .write register value => if window.placeOf register = address then some value else none

/-- What the reads of a history answer if every address keeps the value that was last written to it,
through whatever windows, and until then what memory held at the start. It looks at no memory in
between. -/
def recalled (window : MappedWindow) (memory : Memory) : List NamedAccess → List UInt32
  | [] => []
  | .read register :: earlier =>
    (earlier.findSome? (window.written? (window.placeOf register))).getD
      (memory.register (window.placeOf register)) :: window.recalled memory earlier
  | .write _ _ :: earlier => window.recalled memory earlier

theorem register_perform {access : NamedAccess} (hreaches : window.Reaches access.register)
    (haligned : address % 4 = 0) (memory : Memory) :
    (window.perform access memory).register address =
      (window.written? address access).getD (memory.register address) := by
  cases access with
  | read register => rfl
  | write register value =>
    have hown : window.Reaches register := hreaches
    rw [perform, register_writeNamed hown value memory haligned, written?]
    split <;> rfl

/-- By induction over the history. A register holds what the newest write to its address left
there. -/
theorem register_after {history : List NamedAccess}
    (hreach : ∀ access ∈ history, window.Reaches access.register) (haligned : address % 4 = 0)
    (memory : Memory) : (window.after history memory).register address =
      (history.findSome? (window.written? address)).getD (memory.register address) :=
  Memory.read_foldr (·.register address)
    (fun access hmember => register_perform (hreach access hmember) haligned) memory

/-- By induction over the history: what was written earlier decides what a read answers. -/
theorem answers_eq_recalled {history : List NamedAccess}
    (hreach : ∀ access ∈ history, window.Reaches access.register) (memory : Memory) :
    window.answers memory history = window.recalled memory history := by
  induction history with
  | nil => rfl
  | cons access history ih =>
    have hearlier : ∀ other ∈ history, window.Reaches other.register :=
      fun other hmember => hreach other (List.mem_cons_of_mem access hmember)
    cases access with
    | write register value => exact ih hearlier
    | read register =>
      have hreaches : window.Reaches register := hreach (.read register) List.mem_cons_self
      rw [answers, recalled, readNamed_eq hreaches,
        register_after hearlier hreaches.aligned memory, ih hearlier]

/-- A write to an address that no later read asks for might as well not have been made. -/
theorem recalled_append_write (memory : Memory) {value : UInt32} {later : List NamedAccess}
    (earlier : List NamedAccess)
    (hunseen : ∀ other, .read other ∈ later → window.placeOf register ≠ window.placeOf other) :
    window.recalled memory (later ++ .write register value :: earlier) =
      window.recalled memory (later ++ earlier) := by
  induction later with
  | nil => rfl
  | cons access later ih =>
    have hrest := ih fun other hmember => hunseen other (List.mem_cons_of_mem access hmember)
    cases access with
    | write => exact hrest
    | read other =>
      have helsewhere : window.written? (window.placeOf other) (.write register value) = none :=
        if_neg (hunseen other List.mem_cons_self)
      simp only [List.cons_append, recalled, List.findSome?_append, List.findSome?_cons,
        helsewhere, hrest]

/-- For every outermost window and every history of accesses through windows inside it, each of them
to an aligned address that does not overflow. A read answers with what was last written to the
address of its register, through whatever windows, and with what memory held before if nothing was.
A part of a part is one part further in. A write in the block of a port changes its own four bytes,
and nothing that is read later in the generic block or in the blocks of other ports tells whether it
was made. This is memory that keeps what is written to it; what a device makes of an access is not
said here. -/
theorem windows_share_registers (window : MappedWindow) :
    (∀ history, (∀ access ∈ history, window.Reaches access.register) → ∀ memory,
      window.answers memory history = window.recalled memory history) ∧
    (∀ a b, (window.part a).part b = window.part (a + b)) ∧
    ∀ index register value, register.OfPort index → window.Reaches register →
      (∀ memory, (window.writeNamed register value memory).load (window.placeOf register) 4 =
          littleEndian 4 value.toNat ∧
        ∀ address, address < window.placeOf register ∨ window.placeOf register + 4 ≤ address →
          (window.writeNamed register value memory).byte address = memory.byte address) ∧
      ∀ later earlier, (∀ access ∈ later ++ earlier, window.Reaches access.register) →
        (∀ other, .read other ∈ later →
          other.Generic ∨ ∃ another ≠ index, other.OfPort another) →
        ∀ memory, window.answers memory (later ++ .write register value :: earlier) =
          window.answers memory (later ++ earlier) := by
  refine ⟨fun history => answers_eq_recalled, window.part_part, ?_⟩
  intro index register value hinside hreaches
  refine ⟨bytes_writeNamed hreaches value, ?_⟩
  intro later earlier hreach houtside memory
  have hmore : ∀ access ∈ later ++ .write register value :: earlier,
      window.Reaches access.register := by
    intro access hmember
    rcases List.mem_append.1 hmember with hlate | hearly
    · exact hreach access (List.mem_append_left _ hlate)
    · rcases List.mem_cons.1 hearly with rfl | hbefore
      · exact hreaches
      · exact hreach access (List.mem_append_right _ hbefore)
  rw [answers_eq_recalled hmore, answers_eq_recalled hreach]
  apply recalled_append_write
  intro other hmember hsame
  exact hinside.distance_ne (houtside other hmember) (Nat.add_left_cancel hsame)

/-- Aligned addresses that do not overflow: a write through the last port is read back through a
part of a part, which has the same address, and is not seen in the first port. -/
theorem windows_share_registers_of_last_port :
    let window : MappedWindow := ⟨⟨0x234500000⟩⟩
    let last : RegisterName := ⟨[.port 31], PortRegister.ci⟩
    let same : RegisterName := ⟨[.part 0x1000, .part 0x80], PortRegister.ci⟩
    let first : RegisterName := ⟨[.port 0], PortRegister.ci⟩
    window.answers {} [.read same, .write last 5, .read last] = [5, 0xCCCCCCCC] ∧
      window.answers {} ([.read first] ++ [.write last 5, .read last]) =
        window.answers {} ([.read first] ++ [.read last]) := by
  intro window last same first
  obtain ⟨hkept, _, hisolated⟩ := windows_share_registers window
  have hnear : window.Reaches last ∧ window.Reaches same ∧ window.Reaches first :=
    ⟨⟨by decide, by decide⟩, ⟨by decide, by decide⟩, by decide, by decide⟩
  refine ⟨?_, ?_⟩
  · refine (hkept _ ?_ {}).trans (by decide)
    simp [NamedAccess.register, hnear]
  · obtain ⟨_, hunseen⟩ := hisolated 31 last 5 ⟨[], rfl, by decide⟩ hnear.1
    refine hunseen [.read first] [.read last] ?_ ?_ {}
    · simp [NamedAccess.register, hnear]
    · intro other hmember
      obtain rfl : other = first := by simpa using hmember
      exact .inr ⟨0, by decide, [], rfl, by decide⟩

end MappedWindow

end Ahci
