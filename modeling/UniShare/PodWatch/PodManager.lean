import UniShare.Lib.Gjson

/-!
# The event queues

After `podWatch/pod_mgr.go` and the loop of `VirtualManager.Run` in `resourceManager/manager.go`.
The watcher's callbacks append to one queue each, under its lock; the loop tests a queue's length,
reads its first element and removes it under the lock, in three steps, and starts a handler for it.
-/

namespace UniShare.PodWatch

open Lib

/-- The queues of `PodManager`. -/
structure PodManager where
  podModObj : List Json
  podDelObj : List Json

/-- `NewPodManager`. -/
def newPodManager : PodManager := ⟨[], []⟩

/-- `DoModified`. -/
def PodManager.doModified (podMgr : PodManager) (obj : Json) : PodManager :=
  { podMgr with podModObj := podMgr.podModObj ++ [obj] }

/-- `DoDeleted`. -/
def PodManager.doDeleted (podMgr : PodManager) (obj : Json) : PodManager :=
  { podMgr with podDelObj := podMgr.podDelObj ++ [obj] }

/-- Where the loop of `Run` is: at a length test, at the read of the first element, or at its
removal. -/
inductive RunPoint where
  | testModified
  | readModified
  | removeModified (jsonObj : Json)
  | testDeleted
  | readDeleted
  | removeDeleted (jsonObj : Json)

/-- A handler that the loop starts. -/
inductive Spawn where
  | creatVcudaServer (pod : Json)
  | deletePodPath (pod : Json)

/-- What a step of the loop comes to. -/
inductive RunResult where
  | panic
  | next (podMgr : PodManager) (point : RunPoint) (spawn : Option Spawn)

/-- One step of the loop of `Run`. -/
def runStep (podMgr : PodManager) : RunPoint → RunResult
  | .testModified =>
      .next podMgr (if 0 < podMgr.podModObj.length then .readModified else .testDeleted) none
  | .readModified =>
      match podMgr.podModObj with
      | [] => .panic
      | jsonObj :: _ => .next podMgr (.removeModified jsonObj) none
  | .removeModified jsonObj =>
      match podMgr.podModObj with
      | [] => .panic
      | _ :: rest =>
          .next { podMgr with podModObj := rest } .testDeleted (some (.creatVcudaServer jsonObj))
  | .testDeleted =>
      .next podMgr (if 0 < podMgr.podDelObj.length then .readDeleted else .testModified) none
  | .readDeleted =>
      match podMgr.podDelObj with
      | [] => .panic
      | jsonObj :: _ => .next podMgr (.removeDeleted jsonObj) none
  | .removeDeleted jsonObj =>
      match podMgr.podDelObj with
      | [] => .panic
      | _ :: rest =>
          .next { podMgr with podDelObj := rest } .testModified (some (.deletePodPath jsonObj))

/-- The MODIFIED event that the loop holds. -/
def RunPoint.modified : RunPoint → Option Json
  | .removeModified jsonObj => some jsonObj
  | _ => none

/-- The loop invents no MODIFIED event: what it holds, keeps queued or starts a handler for, was
queued or held before. -/
theorem run_step_modified {podMgr next : PodManager} {point following : RunPoint}
    {spawn : Option Spawn} (h : runStep podMgr point = .next next following spawn) :
    (∀ obj ∈ next.podModObj, obj ∈ podMgr.podModObj) ∧
      (∀ obj, following.modified = some obj → obj ∈ podMgr.podModObj) ∧
      ∀ obj, spawn = some (.creatVcudaServer obj) → point.modified = some obj := by
  cases point with
  | testModified | testDeleted =>
      simp only [runStep, RunResult.next.injEq] at h
      obtain ⟨rfl, rfl, rfl⟩ := h
      refine ⟨fun obj hobj => hobj, fun obj hobj => ?_, nofun⟩
      split at hobj <;> cases hobj
  | readModified =>
      simp only [runStep] at h
      split at h <;> cases h
      rename_i hqueue
      refine ⟨fun obj hobj => hobj, ?_, nofun⟩
      rintro obj ⟨⟩
      simp [hqueue]
  | removeModified jsonObj =>
      simp only [runStep] at h
      split at h <;> cases h
      rename_i hqueue
      refine ⟨fun obj hobj => by simp [hqueue, hobj], nofun, ?_⟩
      rintro obj ⟨⟩
      rfl
  | readDeleted | removeDeleted =>
      simp only [runStep] at h
      split at h <;> cases h
      exact ⟨fun obj hobj => hobj, nofun, nofun⟩

/-- What the loop has read is the first element of its queue. -/
def RunPoint.HoldsHead (podMgr : PodManager) : RunPoint → Prop
  | .removeModified jsonObj => podMgr.podModObj.head? = some jsonObj
  | .removeDeleted jsonObj => podMgr.podDelObj.head? = some jsonObj
  | _ => True

/-- The MODIFIED events that the loop starts a handler for. -/
def startedModified : Option Spawn → List Json
  | some (.creatVcudaServer pod) => [pod]
  | _ => []

/-- The DELETED events that the loop starts a handler for. -/
def startedDeleted : Option Spawn → List Json
  | some (.deletePodPath pod) => [pod]
  | _ => []

/-- A new event leaves the first elements of the queues in place. -/
theorem holds_head_append {podMgr : PodManager} {point : RunPoint} (h : point.HoldsHead podMgr)
    (obj : Json) :
    point.HoldsHead (podMgr.doModified obj) ∧ point.HoldsHead (podMgr.doDeleted obj) := by
  cases point with
  | removeModified jsonObj | removeDeleted jsonObj =>
      obtain ⟨rest, hrest⟩ := List.head?_eq_some_iff.mp h
      simp [RunPoint.HoldsHead, PodManager.doModified, PodManager.doDeleted, hrest]
  | _ => exact ⟨trivial, trivial⟩

/-- The loop neither loses nor repeats an event: what it starts a handler for is taken from the
front of the queue. -/
theorem run_step_queues {podMgr next : PodManager} {point following : RunPoint}
    {spawn : Option Spawn} (hholds : point.HoldsHead podMgr)
    (h : runStep podMgr point = .next next following spawn) :
    following.HoldsHead next ∧ podMgr.podModObj = startedModified spawn ++ next.podModObj ∧
      podMgr.podDelObj = startedDeleted spawn ++ next.podDelObj := by
  cases point with
  | testModified | testDeleted =>
      simp only [runStep, RunResult.next.injEq] at h
      obtain ⟨rfl, rfl, rfl⟩ := h
      refine ⟨?_, rfl, rfl⟩
      split <;> trivial
  | readModified =>
      simp only [runStep] at h
      split at h <;> cases h
      rename_i hqueue
      exact ⟨by simp [RunPoint.HoldsHead, hqueue], rfl, rfl⟩
  | removeModified jsonObj =>
      simp only [runStep] at h
      split at h <;> cases h
      rename_i hqueue
      obtain rfl : _ = jsonObj := by simpa [RunPoint.HoldsHead, hqueue] using hholds
      exact ⟨trivial, hqueue, rfl⟩
  | readDeleted =>
      simp only [runStep] at h
      split at h <;> cases h
      rename_i hqueue
      exact ⟨by simp [RunPoint.HoldsHead, hqueue], rfl, rfl⟩
  | removeDeleted jsonObj =>
      simp only [runStep] at h
      split at h <;> cases h
      rename_i hqueue
      obtain rfl : _ = jsonObj := by simpa [RunPoint.HoldsHead, hqueue] using hholds
      exact ⟨trivial, rfl, hqueue⟩

end UniShare.PodWatch
