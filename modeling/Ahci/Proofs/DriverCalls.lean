import Ahci.Bench.Step
import Ahci.Proofs.SteadyCalls

/-!
Everything a caller can ask of a port that was brought up is driven: the requests on its
disk, with buffers of any content, the identification of its device, and the steps on its
engine.
-/

namespace Ahci

namespace Disk

open EngineM (Driven)

theorem driven_readChunk (kind : DiskKind) (span : Span) :
    (readChunk kind span : RequestM SimulatedPort _).Driven := by
  cases kind with
  | disk trim => exact .readSectors _ _
  | drive => exact .readBlocks _ _

theorem driven_writeChunk (kind : DiskKind) (span : Span) (data : List UInt8) :
    (writeChunk kind span data : RequestM SimulatedPort _).Driven := by
  cases kind with
  | disk trim => exact .writeSectors _ _ _
  | drive => exact .throw _

theorem driven_readSpans (kind : DiskKind) (spans : List Span) (buffer : List UInt8) :
    (readSpans kind spans buffer : EngineM SimulatedPort _).Driven fun _ => False := by
  induction spans generalizing buffer with
  | nil => exact .pure _
  | cons span others ih =>
    refine (Driven.host (.require _ _)).seq fun _ => ?_
    refine Driven.answer (driven_readChunk kind span) (fun data => ?_) fun _ => .pure not_false
    refine (Driven.host (.require _ _)).seq fun _ => ?_
    refine (Driven.host (.require _ _)).seq fun _ => ?_
    exact (ih _).conclude fun _ => .pure not_false

theorem driven_writeSpans (kind : DiskKind) (spans : List Span) (data : List UInt8) :
    (writeSpans kind spans data : RequestM SimulatedPort _).Driven := by
  induction spans generalizing data with
  | nil => exact .pure _
  | cons span others ih =>
    refine (driven_writeChunk kind span _).bind fun _ => ?_
    exact (RequestM.Driven.require _ _).bind fun _ => ih _

theorem driven_read (disk : Disk) (start bytes : Nat) (buffer : List UInt8) :
    (disk.read start bytes buffer : EngineM SimulatedPort _).Driven fun _ => False := by
  rw [read]
  split
  · exact .pure _
  · dsimp only
    split
    · exact .pure _
    · exact Driven.get.seq fun engine => driven_readSpans _ _ _

theorem driven_write (disk : Disk) (start bytes : Nat) (buffer : List UInt8) :
    (disk.write start bytes buffer : RequestM SimulatedPort _).Driven := by
  rw [write]
  dsimp only
  split
  · exact .throw _
  · split
    · exact .throw _
    · split
      · exact .throw _
      · exact (RequestM.Driven.withEngine fun _ => .pure _).bind fun _ => driven_writeSpans _ _ _

theorem driven_clear (disk : Disk) (start bytes : Nat) :
    (disk.clear start bytes : RequestM SimulatedPort _).Driven := by
  rw [clear]
  dsimp only
  split
  · exact .throw _
  · cases disk.kind with
    | drive => exact .note _ (by decide)
    | disk trim =>
      dsimp only
      split
      · exact .discardPieces _ _
      · exact .note _ (by decide)

theorem driven_eject (disk : Disk) : (disk.eject : RequestM SimulatedPort _).Driven := by
  rw [eject]
  split
  · exact .eject
  · exact .throw _

theorem driven_requestSense (disk : Disk) :
    (disk.requestSense.run : EngineM SimulatedPort _).Driven fun _ => False := by
  rw [requestSense]
  split
  · exact .requestSense
  · exact .pure _

/-- The identification of a device is driven, whether the device is announced with a page or
without. -/
theorem driven_probe (port : Port) :
    (probe port : EngineM SimulatedPort _).Driven fun _ => False := by
  have hannounced (disk : Disk) (kind : String) :
      (probe.announce port disk kind : EngineM SimulatedPort _).Concludes fun _ => False :=
    .note (fun _ => "AHCI: " ++ kind ++ " storage, port " ++ toString port.number ++ ": " ++
      disk.label) (by decide) (.pure not_false)
  rw [probe]
  cases port.attachment with
  | disk =>
    refine Driven.conclude ?_ fun disk => hannounced disk _
    refine Driven.answer RequestM.Driven.identify (fun page => ?_) fun _ => ?_
    · exact .pure _
    · exact .note _ (by decide) (.pure not_false)
  | packetDrive =>
    refine Driven.conclude ?_ fun disk => hannounced disk _
    refine Driven.answer (RequestM.Driven.inquiry _) (fun inquiry => ?_) fun _ => ?_
    · exact .pure _
    · exact .note _ (by decide) (.pure not_false)
  | absent => exact .pure _
  | enclosure => exact .pure _
  | multiplier => exact .pure _

end Disk

namespace Bench.EngineStep

/-- Every step on an engine that a client can ask for is driven. -/
theorem driven_run (step : EngineStep) :
    (step.run : EngineM SimulatedPort _).Driven fun _ => False := by
  cases step with
  | identify => exact RequestM.Driven.identify.map _ fun _ => False.elim
  | readSectors lba count => exact (RequestM.Driven.readSectors _ _).map _ fun _ => False.elim
  | writeSectors lba count data =>
    exact (RequestM.Driven.writeSectors _ _ _).map _ fun _ => False.elim
  | discardSectors lba count =>
    exact (RequestM.Driven.discardPieces _ _).map _ fun _ => False.elim
  | packet cdb data label => exact (RequestM.Driven.packet _ _ _).map _ fun _ => False.elim
  | requestSense => exact EngineM.Driven.requestSense.map _ fun _ => id
  | lastSense => exact EngineM.Driven.get.seq fun _ => .pure _
  | inquiry length => exact (RequestM.Driven.inquiry _).map _ fun _ => False.elim
  | readBlocks lba count => exact (RequestM.Driven.readBlocks _ _).map _ fun _ => False.elim
  | eject => exact RequestM.Driven.eject.map _ fun _ => False.elim

end Bench.EngineStep

end Ahci
