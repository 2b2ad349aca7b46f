import Ahci.Proofs.Execution
import Ahci.Proofs.LogThreshold

/-!
The locks of a session. The engine of every port is kept behind a lock, and each call takes it and
gives it back. So between the steps of a session no lock is held: no call ever waits for one, and a
call behind a lock is the call on the engine itself.
-/

namespace Ahci.Bench

/-- Nobody holds the lock of the engine, if there is one. -/
def Handle.Unlocked : Handle → Prop
  | .none => True
  | .port _ engine => engine.held = false
  | .disk _ engine => engine.held = false

/-- Behind a lock that nobody holds, a step does what it does on the engine, and the lock is free
again when it has ended. A step that gives up leaves no lock at all: the handle stays as it was. -/
theorem onLocked_of_free {α : Type} {engine : SpinLock Engine} (h : engine.held = false)
    (step : EngineM Rack α) :
    onLocked engine step =
      (fun told => (told.1, { value := told.2 })) <$> step.run engine.value := by
  rw [onLocked, SpinLock.during?_of_free h]

/-- A lock that somebody holds is waited for without end, and nothing else is done meanwhile. -/
theorem onLocked_of_held {α : Type} {engine : SpinLock Engine} (h : engine.held = true)
    (step : EngineM Rack α) : onLocked engine step = HostM.halt .unending := by
  rw [onLocked, (SpinLock.during?_eq_none_iff engine step.run).2 h]

variable {world after : World Rack} {outcome : Outcome} {left : Handle}

/-! What a step leaves. -/

/-- A lock that was free is free again behind every call that ends, whatever the call answers. -/
theorem unlocked_of_onLocked {α : Type} {engine freed : SpinLock Engine}
    {step : EngineM Rack α} {a : α} (h : engine.held = false)
    (hended : (onLocked engine step).exec world = (.ok (a, freed), after)) :
    freed.held = false := by
  rw [onLocked_of_free h, map_eq_pure_bind] at hended
  obtain ⟨told, between, -, hrest⟩ := HostM.exists_exec_bind hended
  cases hrest
  rfl

theorem unlocked_withHandleEngine {handle : Handle} (h : handle.Unlocked)
    {step : EngineM Rack Outcome}
    (hended : (withHandleEngine handle step).exec world = (.ok (outcome, left), after)) :
    left.Unlocked := by
  cases handle with
  | none =>
    cases hended
    trivial
  | port port engine =>
    obtain ⟨told, between, hcall, hrest⟩ := HostM.exists_exec_bind hended
    cases hrest
    exact unlocked_of_onLocked h hcall
  | disk disk engine =>
    obtain ⟨told, between, hcall, hrest⟩ := HostM.exists_exec_bind hended
    cases hrest
    exact unlocked_of_onLocked h hcall

/-- A device that is identified keeps the lock of its port, and one that is given up has none. -/
theorem unlocked_probeHandle {handle : Handle} (h : handle.Unlocked)
    (hended : (probeHandle handle).exec world = (.ok (outcome, left), after)) :
    left.Unlocked := by
  cases handle with
  | none =>
    cases hended
    trivial
  | disk disk engine =>
    cases hended
    exact h
  | port port engine =>
    obtain ⟨⟨answer, freed⟩, between, hcall, hrest⟩ := HostM.exists_exec_bind hended
    cases answer with
    | ok disk =>
      cases hrest
      exact unlocked_of_onLocked h hcall
    | error error =>
      obtain ⟨_, down, -, hgone⟩ := HostM.exists_exec_bind hrest
      cases hgone
      trivial

theorem unlocked_bringUpHandle {index : Nat} {handle : Handle} {number slots : Nat}
    {config : Config}
    (hended : (bringUpHandle index handle number slots config).exec world =
      (.ok (outcome, left), after)) : left.Unlocked := by
  obtain ⟨_, down, -, hrest⟩ := HostM.exists_exec_bind hended
  obtain ⟨answer, up, -, hmade⟩ := HostM.exists_exec_bind hrest
  cases answer with
  | ok made =>
    cases hmade
    rfl
  | error error =>
    cases hmade
    trivial

/-- Every step on a port that ends leaves the lock of its handle free, if it was free before. -/
theorem PortStep.unlocked_run {index : Nat} {handle : Handle} (h : handle.Unlocked)
    (step : PortStep)
    (hended : (step.run index handle).exec world = (.ok (outcome, left), after)) :
    left.Unlocked := by
  -- What is done to a bay, or looked up there, does not go through the lock.
  have hkept {α : Type} (look : HostM Rack α) (tell : α → Outcome)
      (hlooked : (look >>= fun a => pure (tell a, handle)).exec world =
        (.ok (outcome, left), after)) : left.Unlocked := by
    obtain ⟨_, between, -, hrest⟩ := HostM.exists_exec_bind hlooked
    cases hrest
    exact h
  cases step with
  | bringUp number slots config => exact unlocked_bringUpHandle hended
  | probe => exact unlocked_probeHandle h hended
  | drop =>
    obtain ⟨_, down, -, hrest⟩ := HostM.exists_exec_bind hended
    cases hrest
    trivial
  | inject opcode fault => exact hkept _ _ hended
  | busy on => exact hkept _ _ hended
  | stall on => exact hkept _ _ hended
  | addOverride override => exact hkept _ _ hended
  | clearOverrides => exact hkept _ _ hended
  | medium offset length => exact hkept _ _ hended
  | disk step =>
    cases handle with
    | none =>
      cases hended
      trivial
    | port port engine =>
      cases hended
      exact h
    | disk disk engine => exact unlocked_withHandleEngine h hended
  | engine step => exact unlocked_withHandleEngine h hended

/-- The engines of the disks that were found are behind locks that nobody holds. The induction is
on the disks, each of which takes the place of the handle of its port. -/
theorem unlocked_handlesOf (count : Nat) (disks : List NamedDisk) :
    ∀ handle ∈ handlesOf count disks, handle.Unlocked := by
  have hnone : ∀ handle ∈ Array.replicate count Handle.none, handle.Unlocked := by
    intro handle hmember
    rw [Array.mem_replicate] at hmember
    rw [hmember.2]
    trivial
  rw [handlesOf]
  generalize Array.replicate count Handle.none = handles at hnone
  induction disks generalizing handles with
  | nil => exact hnone
  | cons named disks ih =>
    apply ih
    intro handle hmember
    rcases Array.mem_or_eq_of_mem_setIfInBounds hmember with hold | rfl
    · exact hnone handle hold
    · rfl

theorem unlocked_discoverAll {handles found : Array Handle} {config : Config}
    (hended : (discoverAll handles config).exec world = (.ok (outcome, found), after)) :
    ∀ handle ∈ found, handle.Unlocked := by
  obtain ⟨_, _, -, hended⟩ := HostM.exists_exec_bind hended
  obtain ⟨_, _, -, hended⟩ := HostM.exists_exec_bind hended
  obtain ⟨disks, _, -, hended⟩ := HostM.exists_exec_bind hended
  obtain ⟨_, _, -, hended⟩ := HostM.exists_exec_bind hended
  obtain ⟨_, _, -, hended⟩ := HostM.exists_exec_bind hended
  obtain ⟨_, _, -, hended⟩ := HostM.exists_exec_bind hended
  cases hended
  exact unlocked_handlesOf handles.size disks

namespace Session

/-! Sessions. -/

/-- Nobody holds any of the locks of a session. -/
def Unlocked (session : Session) : Prop :=
  ∀ handle ∈ session.handles, handle.Unlocked

/-- A step of a session leaves all its locks free, also a step that gives up: the handles are then
as they were before, or none at all if the whole adapter was searched. -/
theorem Unlocked.step {session : Session} (h : session.Unlocked) (step : Step) :
    (session.step step).2.Unlocked := by
  cases step with
  | onPort index portStep =>
    rw [Session.step]
    split
    · exact h
    · next handle hfound =>
      have hbefore : handle.Unlocked := h handle (Array.mem_of_getElem? hfound)
      rcases hended : (portStep.run index handle).exec session.world with
        ⟨reason | ⟨outcome, left⟩, after⟩
      · exact h
      · intro other hother
        rcases Array.mem_or_eq_of_mem_setIfInBounds hother with hold | rfl
        · exact h other hold
        · exact portStep.unlocked_run hbefore hended
  | discover config =>
    rw [Session.step]
    rcases hended : (discoverAll session.handles config).exec session.world with
      ⟨reason | ⟨outcome, handles⟩, after⟩
    · intro other hother
      obtain ⟨handle, -, rfl⟩ := Array.mem_map.1 hother
      trivial
    · exact unlocked_discoverAll hended

/-- Over every session no lock is held between two steps, and so none is ever waited for. -/
theorem unlocked_after (bays : List Bay) (adapter : AdapterRegisters) (threshold : Severity)
    (dumping : Bool) (refused : List Nat) (steps : List Step) :
    ((start bays adapter threshold dumping refused).after steps).Unlocked := by
  have hstart : (start bays adapter threshold dumping refused).Unlocked := by
    intro handle hmember
    obtain ⟨bay, -, rfl⟩ := List.mem_map.1 (List.mem_toArray.1 hmember)
    trivial
  generalize start bays adapter threshold dumping refused = session at hstart
  induction steps generalizing session with
  | nil => exact hstart
  | cons step steps ih => exact ih _ (hstart.step step)

end Session

end Ahci.Bench
