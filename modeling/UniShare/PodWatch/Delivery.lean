import UniShare.PodWatch.PodManager
import UniShare.Lib.Execution

/-!
# Delivery of the events

The watcher's calls of `DoModified` and `DoDeleted` interleave with the steps of the loop of `Run`.
The loop takes an event from a queue in three steps, and only the last of them is under the lock
that the watcher's calls take. A ledger for each queue records what has been appended to it and
what has been passed to handlers.
-/

namespace UniShare.PodWatch

open Lib

/-! ## Ledgers -/

/-- The objects that have been appended to a queue, and those that have been passed on. -/
structure Ledger (α : Type*) where
  appended : List α
  passed : List α

namespace Ledger

variable {α : Type*} {ledger : Ledger α} {queue : List α}

/-- A queue without a past. -/
def empty : Ledger α := ⟨[], []⟩

/-- An object is appended to the queue. -/
def append (ledger : Ledger α) (obj : α) : Ledger α :=
  { ledger with appended := ledger.appended ++ [obj] }

/-- Objects are passed on. -/
def pass (ledger : Ledger α) (objs : List α) : Ledger α :=
  { ledger with passed := ledger.passed ++ objs }

/-- What has been appended is what has been passed on, and then what is in the queue. -/
def Balances (ledger : Ledger α) (queue : List α) : Prop :=
  ledger.appended = ledger.passed ++ queue

/-- The ledger balances when the object that is appended goes to the end of the queue. -/
theorem Balances.append (h : ledger.Balances queue) (obj : α) :
    (ledger.append obj).Balances (queue ++ [obj]) := by
  show ledger.appended ++ [obj] = ledger.passed ++ (queue ++ [obj])
  rw [h, List.append_assoc]

/-- The ledger balances when the objects that are passed on come from the front of the queue. -/
theorem Balances.pass {objs rest : List α} (h : ledger.Balances queue)
    (hqueue : queue = objs ++ rest) : (ledger.pass objs).Balances rest := by
  show ledger.appended = ledger.passed ++ objs ++ rest
  rw [h, hqueue, List.append_assoc]

/-- What has been passed on of a queue that balances is a beginning of what has been appended. -/
theorem Balances.passed_isPrefix (h : ledger.Balances queue) : ledger.passed <+: ledger.appended :=
  ⟨queue, h.symm⟩

end Ledger

/-! ## The machine -/

/-- The queues, the loop, whether it has panicked, and the ledgers of the two queues. -/
structure Delivery where
  podMgr : PodManager
  point : RunPoint
  panicked : Bool
  modified : Ledger Json
  deleted : Ledger Json

/-- `Run` is started on new queues. -/
def Delivery.initial : Delivery :=
  ⟨newPodManager, .testModified, false, .empty, .empty⟩

/-- A call of the watcher, or a step of the loop. -/
inductive DeliveryAction where
  | doModified (obj : Json)
  | doDeleted (obj : Json)
  | run

/-- One step. A panic ends the process. -/
def deliveryStep (state : Delivery) (action : DeliveryAction) : Option Delivery :=
  if state.panicked then none
  else
    match action with
    | .doModified obj =>
        some { state with
          podMgr := state.podMgr.doModified obj
          modified := state.modified.append obj }
    | .doDeleted obj =>
        some { state with
          podMgr := state.podMgr.doDeleted obj
          deleted := state.deleted.append obj }
    | .run =>
        match runStep state.podMgr state.point with
        | .panic => some { state with panicked := true }
        | .next podMgr point spawn =>
            some { state with
              podMgr := podMgr
              point := point
              modified := state.modified.pass (startedModified spawn)
              deleted := state.deleted.pass (startedDeleted spawn) }

/-- Each queue hands over every event once: what has been passed to its handlers is a beginning of
what has been appended to it, and no element has been read out of range. -/
structure HandsOver (state : Delivery) : Prop where
  modified : state.modified.passed <+: state.modified.appended
  deleted : state.deleted.passed <+: state.deleted.appended
  in_range : state.panicked = false

/-! ## The loop and its queues -/

/-- The queue whose first element the loop is about to read is not empty. -/
def RunPoint.Ready (podMgr : PodManager) : RunPoint → Prop
  | .readModified => podMgr.podModObj ≠ []
  | .readDeleted => podMgr.podDelObj ≠ []
  | _ => True

/-- A new event empties no queue. -/
theorem ready_append {podMgr : PodManager} {point : RunPoint} (h : point.Ready podMgr)
    (obj : Json) :
    point.Ready (podMgr.doModified obj) ∧ point.Ready (podMgr.doDeleted obj) := by
  cases point with
  | readModified => exact ⟨List.append_ne_nil_of_left_ne_nil h _, h⟩
  | readDeleted => exact ⟨h, List.append_ne_nil_of_left_ne_nil h _⟩
  | _ => exact ⟨trivial, trivial⟩

/-- The loop finds the element that it reads, and the one that it has read when it removes it; and
it goes on to a read only when there is something to read. -/
theorem run_step_ready {podMgr : PodManager} {point : RunPoint} (hready : point.Ready podMgr)
    (hholds : point.HoldsHead podMgr) : ∃ next following spawn,
      runStep podMgr point = .next next following spawn ∧ following.Ready next := by
  cases point with
  | testModified =>
      refine ⟨_, _, _, rfl, ?_⟩
      split
      · rename_i hlength
        exact List.ne_nil_of_length_pos hlength
      · trivial
  | readModified =>
      obtain ⟨jsonObj, rest, hqueue⟩ := List.exists_cons_of_ne_nil hready
      exact ⟨podMgr, .removeModified jsonObj, none, by simp [runStep, hqueue], trivial⟩
  | removeModified jsonObj =>
      obtain ⟨rest, hqueue⟩ := List.head?_eq_some_iff.mp hholds
      exact ⟨{ podMgr with podModObj := rest }, .testDeleted, some (.creatVcudaServer jsonObj),
        by simp [runStep, hqueue], trivial⟩
  | testDeleted =>
      refine ⟨_, _, _, rfl, ?_⟩
      split
      · rename_i hlength
        exact List.ne_nil_of_length_pos hlength
      · trivial
  | readDeleted =>
      obtain ⟨jsonObj, rest, hqueue⟩ := List.exists_cons_of_ne_nil hready
      exact ⟨podMgr, .removeDeleted jsonObj, none, by simp [runStep, hqueue], trivial⟩
  | removeDeleted jsonObj =>
      obtain ⟨rest, hqueue⟩ := List.head?_eq_some_iff.mp hholds
      exact ⟨{ podMgr with podDelObj := rest }, .testModified, some (.deletePodPath jsonObj),
        by simp [runStep, hqueue], trivial⟩

/-! ## The invariant -/

/-- The ledgers balance, the loop holds the first element of the queue it has read, and it has
something to read. -/
structure Delivered (state : Delivery) : Prop where
  modified : state.modified.Balances state.podMgr.podModObj
  deleted : state.deleted.Balances state.podMgr.podDelObj
  holds : state.point.HoldsHead state.podMgr
  ready : state.point.Ready state.podMgr
  in_range : state.panicked = false

/-- Every action can be taken, and keeps the invariant. -/
theorem delivered_step (state : Delivery) (action : DeliveryAction) (h : Delivered state) :
    ∃ next, deliveryStep state action = some next ∧ Delivered next := by
  have hrunning : ¬ state.panicked = true := by simp [h.in_range]
  simp only [deliveryStep, if_neg hrunning]
  cases action with
  | doModified obj =>
      exact ⟨_, rfl, h.modified.append obj, h.deleted, (holds_head_append h.holds obj).1,
        (ready_append h.ready obj).1, h.in_range⟩
  | doDeleted obj =>
      exact ⟨_, rfl, h.modified, h.deleted.append obj, (holds_head_append h.holds obj).2,
        (ready_append h.ready obj).2, h.in_range⟩
  | run =>
      obtain ⟨podMgr, point, spawn, hrun, hready⟩ := run_step_ready h.ready h.holds
      obtain ⟨hholds, hmodified, hdeleted⟩ := run_step_queues h.holds hrun
      rw [hrun]
      exact ⟨_, rfl, h.modified.pass hmodified, h.deleted.pass hdeleted, hholds, hready, h.in_range⟩

/-- In every interleaving of the watcher's calls with the loop, both queues hand over their events:
each one once, in the order in which they were appended, and none out of range. -/
theorem hands_over_once (actions : List DeliveryAction) : ∃ state,
    exec deliveryStep Delivery.initial actions = some state ∧ HandsOver state := by
  have hinitial : Delivered Delivery.initial := ⟨rfl, rfl, trivial, trivial, rfl⟩
  obtain ⟨state, hrun, h⟩ := exec_total delivered_step hinitial actions
  exact ⟨state, hrun, h.modified.passed_isPrefix, h.deleted.passed_isPrefix, h.in_range⟩

end UniShare.PodWatch
