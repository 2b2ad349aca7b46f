import Ahci.Word

/-!
The registers of a host bus adapter and of its ports: where each lies in its window, and
what its bits and fields mean. A window is the generic block of the adapter or the block of
one port.
-/

namespace Ahci

/-- A block of registers. -/
inductive Window where
  /-- The generic registers of the adapter. -/
  | hba
  /-- The registers of one port. -/
  | port (index : Nat)
deriving DecidableEq, Repr, Inhabited

/-! Offsets of the generic registers. -/

namespace HbaRegister

def cap : Nat := 0x00
def ghc : Nat := 0x04
def is : Nat := 0x08
def pi : Nat := 0x0C
def vs : Nat := 0x10

def names : List (Nat × String) :=
  [(cap, "CAP"), (ghc, "GHC"), (is, "IS"), (pi, "PI"), (vs, "VS")]

end HbaRegister

/-! Offsets of the registers of one port. -/

namespace PortRegister

def clb : Nat := 0x00
def clbu : Nat := 0x04
def fb : Nat := 0x08
def fbu : Nat := 0x0C
def is : Nat := 0x10
def ie : Nat := 0x14
def cmd : Nat := 0x18
def tfd : Nat := 0x20
def sig : Nat := 0x24
def ssts : Nat := 0x28
def sctl : Nat := 0x2C
def serr : Nat := 0x30
def sact : Nat := 0x34
def ci : Nat := 0x38

def names : List (Nat × String) :=
  [(clb, "CLB"), (clbu, "CLBU"), (fb, "FB"), (fbu, "FBU"), (is, "IS"), (ie, "IE"), (cmd, "CMD"),
    (tfd, "TFD"), (sig, "SIG"), (ssts, "SSTS"), (sctl, "SCTL"), (serr, "SERR"), (sact, "SACT"),
    (ci, "CI")]

def ofName? (name : String) : Option Nat :=
  (names.find? (·.2 == name)).map (·.1)

end PortRegister

/-- Where the block of the first port begins in the block of the adapter. -/
def portBlockBase : Nat := 0x100

def portBlockSize : Nat := 0x80

/-- Where the block of a port begins in the block of the adapter. -/
def portOffset (index : Nat) : Nat :=
  portBlockBase + index * portBlockSize

/-- Two different ports have blocks that do not meet, and no block meets the generic one. -/
theorem portOffset_apart {p q : Nat} (h : p < q) :
    portBlockBase ≤ portOffset p ∧ portOffset p + portBlockSize ≤ portOffset q := by
  simp only [portOffset, portBlockBase, portBlockSize]
  omega

/-! Bits of PxCMD: the engine that works through the command list and the one that receives
frames, each with a request bit and a bit that shows it running. -/

namespace CmdBit

/-- Process the command list. -/
def start : Nat := 0
/-- Receive frames. -/
def fisReceive : Nat := 4
/-- Frames are being received. -/
def fisRunning : Nat := 14
/-- The command list is being processed. -/
def listRunning : Nat := 15

end CmdBit

/-! Bits of PxIS. -/

namespace StatusBit

/-- A register frame arrived from the device. -/
def deviceFrame : Nat := 0
/-- The interface failed. -/
def interfaceFatal : Nat := 27
/-- Data was lost on the system bus. -/
def hostBusData : Nat := 28
/-- The system bus failed. -/
def hostBusFatal : Nat := 29
/-- The device reported an error in its task file. -/
def taskFile : Nat := 30

end StatusBit

/-- Whether PxIS shows that a command ended in failure. -/
def showsError (status : UInt32) : Bool :=
  Word.test status StatusBit.interfaceFatal || Word.test status StatusBit.hostBusData ||
    Word.test status StatusBit.hostBusFatal || Word.test status StatusBit.taskFile

/-- Every bit of a register: acknowledges all of PxIS or PxSERR when written there. -/
def allBits : UInt32 := 0xFFFFFFFF

/-- The bits that PxIE defines and that a port is run with. -/
def interruptSources : UInt32 := 0x7800002F

/-! The task file of a device: its status and its error register. -/

structure TaskFile where
  status : UInt8
  error : UInt8
deriving DecidableEq, Repr

namespace TaskFile

/-- Splits the register into its two bytes. -/
def ofWord (word : UInt32) : TaskFile :=
  ⟨UInt8.ofNat (Word.bits word 0 8), UInt8.ofNat (Word.bits word 8 8)⟩

/-- The device takes a command when it is neither busy nor waiting to move data. -/
def isReady (file : TaskFile) : Bool :=
  !(file.status.toNat.testBit 7 || file.status.toNat.testBit 3)

end TaskFile

/-! Bits of the error register of an ATA device. -/

namespace ErrorBit

def aborted : Nat := 2
def idNotFound : Nat := 4
def mediaChanged : Nat := 5
def uncorrectable : Nat := 6
def interfaceCrc : Nat := 7

/-- The error register in which one bit alone is one. -/
def only (bit : Nat) : UInt8 :=
  ⟨BitVec.twoPow 8 bit⟩

end ErrorBit

/-! Command codes of the task file. -/

namespace Opcode

def dataSetManagement : UInt8 := 0x06
def readDmaExt : UInt8 := 0x25
def writeDmaExt : UInt8 := 0x35
def packet : UInt8 := 0xA0
def identifyDevice : UInt8 := 0xEC

end Opcode

/-- The feature of data set management that discards sectors. -/
def trimFeature : UInt16 := 0x01

/-- The features of a packet command: its data moves by DMA, towards the host. -/
def packetFeatures : UInt16 := 0x05

end Ahci
