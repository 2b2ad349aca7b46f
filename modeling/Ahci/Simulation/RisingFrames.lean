import Ahci.Frames

/-!
An allocator that grants frames one after another and never the same ones twice, so what it
grants does not depend on what was given back.
-/

namespace Ahci

def firstFrame : Nat := 0x234500000

def grantedFrames (events : List FrameEvent) : Nat :=
  events.foldl (fun count event =>
    match event with
    | .granted region => count + region.frames
    | _ => count) 0

def requestCount (events : List FrameEvent) : Nat :=
  events.countP fun
    | .returned _ => false
    | _ => true

/-- Grants frames one after another and never the same ones twice. Requests whose number is
listed are refused. -/
def risingAllocator (refused : List Nat) : Allocator := fun events _ =>
  if requestCount events ∈ refused then .error .outOfMemory
  else .ok (.ofNat (firstFrame + grantedFrames events * frameSize))

end Ahci
