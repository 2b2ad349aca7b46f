import Ahci.Proofs.FlawlessDisk

/-!
How calls are put together. A call looks at what does not depend on where the memory of its port
lies, notes, fills and reads the staging areas, remembers sense data and runs commands; and a
command that failed after the adapter had it is followed by a restart before anything else is
done with the port. `Routine` is that discipline, with a restart owed or not before a step and
after it, of a call over two kinds of device at once, since no call looks at what kind of device
answers. Every call of the driver keeps it, and what all its rules keep holds of every call.
-/

namespace Ahci

variable {σ τ α β : Type} [Device σ] [Device τ]

/-- Whether the end of a command leaves a restart to be done before anything else. -/
def CommandError.owes : Except CommandError Unit → Bool
  | .ok _ => false
  | .error error => error.needsRecovery

/-- A function of an engine that gives the same for all engines which differ only in where their
areas lie. -/
def Engine.Placeless (f : Engine → α) : Prop :=
  ∀ engine areas, f { engine with areas } = f engine

namespace EngineM

/-- A step of a call together with the same step over another kind of device. The two flags tell
whether a restart is owed before and after it. Only a restart, or a line of the log, may stand where
one is owed; a command leads to what owes the restart its outcome calls for. -/
inductive Routine : Bool → Bool → {α : Type} → EngineM σ α → EngineM τ α → Prop where
  | pure {α : Type} (a : α) : Routine false false (pure a) (pure a)
  | look {α : Type} {f : Engine → α} (hplaceless : Engine.Placeless f) :
      Routine false false (f <$> get) (f <$> get)
  | note {owing : Bool} (severity : Severity) {text : Engine → String}
      (hplaceless : Engine.Placeless text) :
      Routine owing owing (withEngine fun engine => HostM.note severity (text engine))
        (withEngine fun engine => HostM.note severity (text engine))
  | require (condition : Bool) (reason : Halt) :
      Routine false false (onHost (HostM.require condition reason))
        (onHost (HostM.require condition reason))
  | readStaging (count : Nat) : Routine false false (readStaging count) (readStaging count)
  | fill (bytes : List UInt8) (count : Nat) :
      Routine false false (fillStaging bytes count) (fillStaging bytes count)
  | remember (sense : SenseData) :
      Routine false false (modify fun engine => { engine with lastSense := some sense })
        (modify fun engine => { engine with lastSense := some sense })
  /-- What follows a command takes over the restart that its end may owe. -/
  | run {after : Bool} {α : Type} (command : Command)
      {next : Except CommandError Unit → EngineM σ α}
      {follow : Except CommandError Unit → EngineM τ α}
      (hrest : ∀ outcome, Routine (CommandError.owes outcome) after (next outcome)
        (follow outcome)) :
      Routine false after (runCommand command >>= next) (runCommand command >>= follow)
  | restart {owing : Bool} :
      Routine owing false (withEngine Engine.recover) (withEngine Engine.recover)
  | bind {before between after : Bool} {α β : Type} {step : EngineM σ α} {twin : EngineM τ α}
      {next : α → EngineM σ β} {follow : α → EngineM τ β}
      (hfirst : Routine before between step twin)
      (hsecond : ∀ a, Routine between after (next a) (follow a)) :
      Routine before after (step >>= next) (twin >>= follow)

namespace Routine

theorem map {step : EngineM σ α} {twin : EngineM τ α} (hroutine : Routine false false step twin)
    (f : α → β) : Routine false false (f <$> step) (f <$> twin) := by
  rw [map_eq_pure_bind, map_eq_pure_bind]
  exact hroutine.bind fun a => .pure (f a)

theorem ite {condition : Prop} [Decidable condition] {before after : Bool}
    {step other : EngineM σ α} {twin further : EngineM τ α}
    (hholds : Routine before after step twin) (hfails : Routine before after other further) :
    Routine before after (if condition then step else other)
      (if condition then twin else further) := by
  split
  · exact hholds
  · exact hfails

/-- A step may decide by what it looks up of its engine, as long as that does not tell where memory
lies. -/
theorem get_bind {f : Engine → α} {next : α → EngineM σ β} {follow : α → EngineM τ β}
    (hplaceless : Engine.Placeless f) (hrest : ∀ a, Routine false false (next a) (follow a)) :
    Routine false false (get >>= fun engine => next (f engine))
      (get >>= fun engine => follow (f engine)) := by
  rw [← bind_map_left, ← bind_map_left]
  exact (look hplaceless).bind hrest

theorem plainNote (severity : Severity) (text : String) :
    Routine (σ := σ) (τ := τ) false false (onHost (HostM.note severity text))
      (onHost (HostM.note severity text)) := by
  have hplaceless : Engine.Placeless fun _ => text := fun _ _ => rfl
  exact note severity hplaceless

end Routine

/-- Handling a failure is a line of the log, a restart if the failure calls for one, and the
answer. -/
theorem withEngine_fail (label : String) (error : CommandError) :
    (withEngine (·.fail label error) : EngineM σ IoError) = do
      withEngine fun engine => HostM.note .warn
        (engine.title ++ " " ++ label ++ " failed: " ++ error.message)
      if error.needsRecovery then withEngine Engine.recover
      return error.toIoError := by
  apply StateT.ext
  intro engine
  rw [run_withEngine, StateT.run_bind, run_withEngine, bind_map_left]
  cases hneeds : error.needsRecovery <;>
    simp [Engine.fail, hneeds]

/-- Handling the failure of a command pays the restart that it owes. -/
theorem Routine.fail (label : String) (error : CommandError) :
    Routine (σ := σ) (τ := τ) (CommandError.owes (.error error)) false
      (withEngine (·.fail label error)) (withEngine (·.fail label error)) := by
  rw [withEngine_fail, withEngine_fail]
  refine (note .warn fun _ _ => rfl).bind fun _ => ?_
  rw [CommandError.owes]
  cases error.needsRecovery with
  | false => exact (pure ()).bind fun _ => pure _
  | true => exact restart.bind fun _ => pure _

end EngineM

open EngineM (Routine)

namespace RequestM

/-- A request that runs one command runs it, and handles the failure if there is one. -/
theorem run_execute (command : Command) :
    (RequestM.execute command : RequestM σ Unit).run =
      EngineM.runCommand command >>= fun outcome =>
        match outcome with
        | .ok () => Pure.pure (.ok ())
        | .error error => do
          let error ← EngineM.withEngine (·.fail command.label error)
          return .error error := by
  rw [RequestM.execute, ExceptT.run_bind, run_onEngine, bind_map_left]
  congr
  funext outcome
  cases outcome with
  | ok _ => rfl
  | error error =>
    change (withEngine (·.fail command.label error) >>= fun told =>
      (MonadExcept.throw told : RequestM σ Unit)).run = _
    rw [ExceptT.run_bind, withEngine, run_onEngine, bind_map_left]
    rfl

/-- A request over two kinds of device that starts and ends owing no restart. -/
abbrev Routine (request : RequestM σ α) (twin : RequestM τ α) : Prop :=
  EngineM.Routine false false request.run twin.run

namespace Routine

theorem pure (a : α) : Routine (σ := σ) (τ := τ) (pure a) (pure a) :=
  EngineM.Routine.pure (Except.ok a)

theorem throw (error : IoError) :
    Routine (throw error : RequestM σ α) (throw error : RequestM τ α) :=
  EngineM.Routine.pure (Except.error error)

theorem bind {request : RequestM σ α} {twin : RequestM τ α} {next : α → RequestM σ β}
    {follow : α → RequestM τ β} (hfirst : Routine request twin)
    (hsecond : ∀ a, Routine (next a) (follow a)) :
    Routine (request >>= next) (twin >>= follow) := by
  rw [Routine, ExceptT.run_bind, ExceptT.run_bind]
  apply EngineM.Routine.bind hfirst
  intro answer
  cases answer with
  | ok a => exact hsecond a
  | error error => exact .pure _

theorem ite {condition : Prop} [Decidable condition] {request other : RequestM σ α}
    {twin further : RequestM τ α} (hholds : Routine request twin) (hfails : Routine other further) :
    Routine (if condition then request else other) (if condition then twin else further) := by
  split
  · exact hholds
  · exact hfails

theorem onEngine {step : EngineM σ α} {twin : EngineM τ α}
    (hroutine : EngineM.Routine false false step twin) :
    Routine (onEngine step) (onEngine twin) := by
  rw [Routine, run_onEngine, run_onEngine]
  exact hroutine.map Except.ok

theorem require (condition : Bool) (reason : Halt) :
    Routine (σ := σ) (τ := τ) (RequestM.require condition reason)
      (RequestM.require condition reason) :=
  onEngine (.require condition reason)

theorem note (severity : Severity) {text : Engine → String} (hplaceless : Engine.Placeless text) :
    Routine (σ := σ) (τ := τ) (withEngine fun engine => HostM.note severity (text engine))
      (withEngine fun engine => HostM.note severity (text engine)) :=
  onEngine (.note severity hplaceless)

theorem execute (command : Command) :
    Routine (σ := σ) (τ := τ) (RequestM.execute command) (RequestM.execute command) := by
  rw [Routine, run_execute, run_execute]
  apply EngineM.Routine.run
  intro outcome
  cases outcome with
  | ok _ => exact .pure _
  | error error => exact (EngineM.Routine.fail command.label error).bind fun _ => .pure _

/-! The requests. -/

theorem requestSense :
    Routine (σ := σ) (τ := τ) RequestM.requestSense RequestM.requestSense := by
  apply bind (execute _)
  intro _
  apply bind (onEngine (.readStaging _))
  intro bytes
  cases SenseData.parse? bytes with
  | none => exact throw _
  | some sense => exact bind (onEngine (.remember sense)) fun _ => pure sense

end Routine

end RequestM

namespace EngineM.Routine

theorem checkCondition (label : String) :
    Routine (σ := σ) (τ := τ) false false (EngineM.checkCondition label)
      (EngineM.checkCondition label) := by
  apply bind RequestM.Routine.requestSense
  intro answer
  cases answer with
  | ok sense => exact bind (note .warn fun _ _ => rfl) fun _ => pure _
  | error error => exact bind (note .warn fun _ _ => rfl) fun _ => pure _

theorem packet (cdb : Cdb) (data : DataPhase) (label : String) :
    Routine (σ := σ) (τ := τ) false false (EngineM.packet cdb data label)
      (EngineM.packet cdb data label) := by
  apply run
  intro outcome
  cases outcome with
  | ok _ => exact pure _
  | error error =>
    cases error with
    | checkCondition =>
      apply bind restart
      intro _
      exact bind (checkCondition label) fun error => pure _
    | _ => exact bind (fail label _) fun _ => pure _

end EngineM.Routine

namespace RequestM.Routine

theorem packet (cdb : Cdb) (data : DataPhase) (label : String) :
    Routine (σ := σ) (τ := τ) (RequestM.packet cdb data label) (RequestM.packet cdb data label) :=
  EngineM.Routine.packet cdb data label

theorem identify : Routine (σ := σ) (τ := τ) RequestM.identify RequestM.identify := by
  apply bind (execute _)
  intro _
  apply bind (onEngine (.readStaging _))
  intro bytes
  cases IdentifyPage.parse? bytes with
  | some page => exact pure page
  | none => exact throw _

theorem readSectors (lba sectors : Nat) :
    Routine (σ := σ) (τ := τ) (RequestM.readSectors lba sectors)
      (RequestM.readSectors lba sectors) := by
  apply bind (require _ _)
  intro _
  apply ite (throw _)
  exact bind (execute _) fun _ => onEngine (.readStaging _)

theorem writeSectors (lba sectors : Nat) (data : List UInt8) :
    Routine (σ := σ) (τ := τ) (RequestM.writeSectors lba sectors data)
      (RequestM.writeSectors lba sectors data) := by
  apply bind (require _ _)
  intro _
  apply ite (throw _)
  exact bind (onEngine (.fill _ _)) fun _ => execute _

theorem discardRange (range : Span) :
    Routine (σ := σ) (τ := τ) (RequestM.discardRange range) (RequestM.discardRange range) := by
  apply bind (note .trace fun _ _ => rfl)
  intro _
  exact bind (onEngine (.fill _ _)) fun _ => execute _

theorem discardPieces (left : Nat) (span : Span) :
    Routine (σ := σ) (τ := τ) (RequestM.discardPieces left span)
      (RequestM.discardPieces left span) := by
  induction left generalizing span with
  | zero => exact note .debug fun _ _ => rfl
  | succ left ih =>
    apply bind (discardRange _)
    intro _
    exact bind (require _ _) fun _ => ih _

theorem inquiry (length : UInt8) :
    Routine (σ := σ) (τ := τ) (RequestM.inquiry length) (RequestM.inquiry length) := by
  apply bind (packet _ _ _)
  intro _
  apply bind (onEngine (.readStaging _))
  intro bytes
  cases InquiryData.parse? bytes with
  | some inquiry => exact pure inquiry
  | none => exact throw _

theorem readBlocks (lba blocks : Nat) :
    Routine (σ := σ) (τ := τ) (RequestM.readBlocks lba blocks)
      (RequestM.readBlocks lba blocks) := by
  apply bind (require _ _)
  intro _
  apply ite (throw _)
  apply ite (throw _)
  exact bind (packet _ _ _) fun _ => onEngine (.readStaging _)

theorem eject : Routine (σ := σ) (τ := τ) RequestM.eject RequestM.eject := by
  have hsequence : EngineM.Routine (σ := σ) (τ := τ) false false
      (Eject.sequence fun cdb label => EngineM.packet cdb .none label)
      (Eject.sequence fun cdb label => EngineM.packet cdb .none label) := by
    refine EngineM.Routine.bind (.packet _ _ _) fun unlocked => ?_
    cases unlocked with
    | error error => exact .pure _
    | ok _ =>
      refine EngineM.Routine.bind (.packet _ _ _) fun opened => ?_
      cases opened <;> exact .pure _
  apply bind (onEngine hsequence)
  intro ended
  exact bind (note .debug fun _ _ => rfl) fun _ => EngineM.Routine.pure ended.1

end RequestM.Routine

namespace Disk

theorem routine_readSpans (kind : DiskKind) (spans : List Span) (buffer : List UInt8) :
    Routine (σ := σ) (τ := τ) false false (readSpans kind spans buffer)
      (readSpans kind spans buffer) := by
  induction spans generalizing buffer with
  | nil => exact .pure _
  | cons span others ih =>
    have hchunk : RequestM.Routine (σ := σ) (τ := τ) (readChunk kind span)
        (readChunk kind span) := by
      cases kind with
      | disk trim => exact .readSectors _ _
      | drive => exact .readBlocks _ _
    apply Routine.bind (.require _ _)
    intro _
    apply Routine.bind hchunk
    intro answer
    cases answer with
    | error error => exact .pure _
    | ok data =>
      apply Routine.bind (.require _ _)
      intro _
      apply Routine.bind (.require _ _)
      intro _
      exact Routine.bind (ih _) fun _ => .pure _

theorem routine_writeSpans (kind : DiskKind) (spans : List Span) (data : List UInt8) :
    RequestM.Routine (σ := σ) (τ := τ) (writeSpans kind spans data)
      (writeSpans kind spans data) := by
  induction spans generalizing data with
  | nil => exact .pure _
  | cons span others ih =>
    have hchunk : RequestM.Routine (σ := σ) (τ := τ)
        (writeChunk kind span (data.take (span.count * kind.blockSize)))
        (writeChunk kind span (data.take (span.count * kind.blockSize))) := by
      cases kind with
      | disk trim => exact .writeSectors _ _ _
      | drive => exact .throw _
    apply RequestM.Routine.bind hchunk
    intro _
    exact RequestM.Routine.bind (.require _ _) fun _ => ih _

theorem routine_read (disk : Disk) (start bytes : Nat) (buffer : List UInt8) :
    Routine (σ := σ) (τ := τ) false false (disk.read start bytes buffer)
      (disk.read start bytes buffer) := by
  rw [read, read]
  apply Routine.ite (.pure _)
  apply Routine.ite (.pure _)
  have hspans (config : Config) :
      Routine (σ := σ) (τ := τ) false false
        (readSpans disk.kind
          ((⟨start, min (blocksFor bytes disk.blockSize) (buffer.length / disk.blockSize)⟩ :
            Span).cut (disk.kind.chunk config)) buffer)
        (readSpans disk.kind
          ((⟨start, min (blocksFor bytes disk.blockSize) (buffer.length / disk.blockSize)⟩ :
            Span).cut (disk.kind.chunk config)) buffer) :=
    routine_readSpans _ _ _
  exact .get_bind (f := Engine.config) (fun _ _ => rfl) hspans

theorem routine_write (disk : Disk) (start bytes : Nat) (buffer : List UInt8) :
    RequestM.Routine (σ := σ) (τ := τ) (disk.write start bytes buffer)
      (disk.write start bytes buffer) := by
  have hlooked : Routine (σ := σ) (τ := τ) false false
      (EngineM.withEngine fun engine => pure engine.config)
      (EngineM.withEngine fun engine => pure engine.config) :=
    .get_bind (f := Engine.config) (fun _ _ => rfl) fun config => .pure config
  apply RequestM.Routine.ite (.throw _)
  apply RequestM.Routine.ite (.throw _)
  apply RequestM.Routine.ite (.throw _)
  exact RequestM.Routine.bind (.onEngine hlooked) fun _ => routine_writeSpans _ _ _

theorem routine_clear (disk : Disk) (start bytes : Nat) :
    RequestM.Routine (σ := σ) (τ := τ) (disk.clear start bytes) (disk.clear start bytes) := by
  apply RequestM.Routine.ite (.throw _)
  cases disk.kind with
  | drive => exact .note .trace fun _ _ => rfl
  | disk trim => exact RequestM.Routine.ite (.discardPieces _ _) (.note .trace fun _ _ => rfl)

theorem routine_eject (disk : Disk) :
    RequestM.Routine (σ := σ) (τ := τ) disk.eject disk.eject :=
  .ite .eject (.throw _)

theorem routine_requestSense (disk : Disk) :
    RequestM.Routine (σ := σ) (τ := τ) disk.requestSense disk.requestSense :=
  .ite .requestSense (.throw _)

theorem routine_probe (port : Port) :
    Routine (σ := σ) (τ := τ) false false (probe port) (probe port) := by
  have hannounced (disk : Disk) (kind : String) :
      Routine (σ := σ) (τ := τ) false false (probe.announce port disk kind)
        (probe.announce port disk kind) :=
    Routine.bind (.plainNote _ _) fun _ => .pure _
  rw [probe, probe]
  cases port.attachment with
  | disk =>
    refine Routine.bind ?_ fun disk => hannounced disk _
    apply Routine.bind RequestM.Routine.identify
    intro answer
    cases answer with
    | ok page => exact .pure _
    | error error => exact Routine.bind (.note .warn fun _ _ => rfl) fun _ => .pure _
  | packetDrive =>
    refine Routine.bind ?_ fun disk => hannounced disk _
    apply Routine.bind (RequestM.Routine.inquiry _)
    intro answer
    cases answer with
    | ok inquiry => exact .pure _
    | error error => exact Routine.bind (.note .warn fun _ _ => rfl) fun _ => .pure _
  | absent => exact .pure _
  | enclosure => exact .pure _
  | multiplier => exact .pure _

/-- Every request that a client can make of a block device keeps the discipline. -/
theorem routine_perform (disk : Disk) (request : BlockRequest) :
    Routine (σ := σ) (τ := τ) false false (disk.blockDevice.perform request)
      (disk.blockDevice.perform request) := by
  cases request with
  | read start bytes buffer => exact Routine.bind (routine_read _ _ _ _) fun _ => .pure _
  | write start bytes buffer => exact Routine.map (routine_write _ _ _ _) _
  | clear start bytes => exact Routine.map (routine_clear _ _ _) _

end Disk

namespace Bench

theorem EngineStep.routine_run (step : EngineStep) :
    Routine (σ := σ) (τ := τ) false false step.run step.run := by
  cases step with
  | identify => exact Routine.map RequestM.Routine.identify _
  | readSectors lba count => exact Routine.map (RequestM.Routine.readSectors _ _) _
  | writeSectors lba count data => exact Routine.map (RequestM.Routine.writeSectors _ _ _) _
  | discardSectors lba count => exact Routine.map (RequestM.Routine.discardPieces _ _) _
  | packet cdb data label => exact Routine.map (RequestM.Routine.packet _ _ _) _
  | requestSense => exact Routine.map RequestM.Routine.requestSense _
  | lastSense => exact .get_bind (f := Engine.lastSense) (fun _ _ => rfl) fun _ => .pure _
  | inquiry length => exact Routine.map (RequestM.Routine.inquiry _) _
  | readBlocks lba count => exact Routine.map (RequestM.Routine.readBlocks _ _) _
  | eject => exact Routine.map RequestM.Routine.eject _

theorem DiskStep.routine_run (disk : Disk) (step : DiskStep) :
    Routine (σ := σ) (τ := τ) false false (step.run disk) (step.run disk) := by
  cases step with
  | info => exact .pure _
  | read start bytes room => exact Routine.bind (disk.routine_read _ _ _) fun _ => .pure _
  | write start bytes data => exact Routine.map (disk.routine_write _ _ _) _
  | clear start bytes => exact Routine.map (disk.routine_clear _ _) _
  | eject => exact Routine.map disk.routine_eject _
  | requestSense => exact Routine.map disk.routine_requestSense _
  | lastSense => exact .get_bind (f := Engine.lastSense) (fun _ _ => rfl) fun _ => .pure _

end Bench

theorem DiskCall.routine_run (disk : Disk) (call : DiskCall) :
    Routine false false (call.run disk) (call.run disk) := by
  cases call with
  | read start bytes buffer => exact Routine.bind (disk.routine_read _ _ _) fun _ => .pure _
  | write start bytes buffer => exact Routine.map (disk.routine_write _ _ _) _
  | clear start bytes => exact Routine.map (disk.routine_clear _ _) _
  | eject => exact Routine.map disk.routine_eject _
  | requestSense => exact Routine.map disk.routine_requestSense _

/-- Every call of the driver keeps the discipline, so every command that called for a restart is
followed by one before anything else is done with the port. -/
theorem Call.routine_run (port : Port) (disk? : Option Disk) (call : Call) :
    Routine false false (call.run port disk?) (call.run port disk?) := by
  cases call with
  | probe =>
    apply Routine.bind (Disk.routine_probe port)
    intro answer
    cases answer <;> exact .pure _
  | onDisk call =>
    cases disk? with
    | none => exact .pure _
    | some disk => exact (call.routine_run disk).map _
  | onEngine step => exact step.routine_run.map _

end Ahci
