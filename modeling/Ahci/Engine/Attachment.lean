import Ahci.Register

/-!
What is attached to a port, told from its link status and its signature.
-/

namespace Ahci

/-- What is attached to a port. -/
inductive Attachment where
  /-- Nothing, or the link is not active. -/
  | absent
  | disk
  /-- A packet device, typically optical. -/
  | packetDrive
  /-- An enclosure management bridge. -/
  | enclosure
  | multiplier
deriving DecidableEq, Repr, Inhabited

namespace Attachment

/-! Signatures. -/

def diskSignature : UInt32 := 0x00000101
def packetSignature : UInt32 := 0xEB140101
def enclosureSignature : UInt32 := 0xC33C0101
def multiplierSignature : UInt32 := 0x96690101

/-- Device detection field of the link status. -/
def detection (status : UInt32) : Nat :=
  Word.bits status 0 4

/-- Power management field of the link status. -/
def powerState (status : UInt32) : Nat :=
  Word.bits status 8 4

/-- A link is active when a device is present, communication is established, and the
interface is not asleep. -/
def linkActive (status : UInt32) : Bool :=
  detection status == 3 && powerState status == 1

/-- Tells what is attached; a signature that nothing else has is that of a disk. -/
def classify (status signature : UInt32) : Attachment :=
  if !linkActive status then absent
  else if signature = packetSignature then packetDrive
  else if signature = enclosureSignature then enclosure
  else if signature = multiplierSignature then multiplier
  else disk

def isBlockDevice : Attachment → Bool
  | disk => true
  | packetDrive => true
  | _ => false

def name : Attachment → String
  | absent => "None"
  | disk => "Sata"
  | packetDrive => "Satapi"
  | enclosure => "Semb"
  | multiplier => "PortMultiplier"

end Attachment

end Ahci
