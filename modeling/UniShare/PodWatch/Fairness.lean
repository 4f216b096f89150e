import UniShare.PodWatch.Delivery

/-!
# How long an event waits

The loop of `Run` serves the two queues in turn, one event of each in a round of at most six steps,
so a flood of events of one kind cannot hold up those of the other. `hands_over_within` bounds the
wait: whatever the watcher appends in the meantime, the events that wait in either queue are handed
over in their order, each within six steps of the loop after the one before it.
-/

namespace UniShare.PodWatch

open Lib

/-- The two kinds of events, each with a queue of its own. -/
inductive EventKind where
  | modified
  | deleted

/-- The queue of the kind. -/
def EventKind.queue (podMgr : PodManager) : EventKind → List Json
  | .modified => podMgr.podModObj
  | .deleted => podMgr.podDelObj

/-- The ledger of the kind. -/
def EventKind.ledger (state : Delivery) : EventKind → Ledger Json
  | .modified => state.modified
  | .deleted => state.deleted

/-- The events of the kind that the loop starts a handler for. -/
def EventKind.started (spawn : Option Spawn) : EventKind → List Json
  | .modified => startedModified spawn
  | .deleted => startedDeleted spawn

/-- The steps of the loop, at most, until it hands over an event of the kind. -/
def EventKind.stepsLeft : EventKind → RunPoint → Nat
  | .modified, .testModified | .deleted, .testDeleted => 3
  | .modified, .readModified | .deleted, .readDeleted => 2
  | .modified, .removeModified _ | .deleted, .removeDeleted _ => 1
  | .modified, .testDeleted | .deleted, .testModified => 6
  | .modified, .readDeleted | .deleted, .readModified => 5
  | .modified, .removeDeleted _ | .deleted, .removeModified _ => 4

/-- The action is a step of the loop. -/
def DeliveryAction.isRun : DeliveryAction → Bool
  | .run => true
  | _ => false

variable {kind : EventKind}

/-- The loop hands over an event in its last step, which begins another round, and comes nearer to
it in every other. -/
theorem steps_left_lowered {podMgr next : PodManager} {point following : RunPoint}
    {spawn : Option Spawn} (hqueue : kind.queue podMgr ≠ [])
    (h : runStep podMgr point = .next next following spawn) :
    (kind.started spawn = [] ∧ kind.stepsLeft following < kind.stepsLeft point) ∨
      ∃ obj, kind.started spawn = [obj] ∧ kind.stepsLeft point = 1 ∧
        kind.stepsLeft following = 6 := by
  have hlength : 0 < (kind.queue podMgr).length := List.length_pos_iff.mpr hqueue
  cases point with
  | testModified =>
      simp only [runStep, RunResult.next.injEq] at h
      obtain ⟨rfl, rfl, rfl⟩ := h
      cases kind with
      | modified =>
          rw [if_pos (show 0 < podMgr.podModObj.length from hlength)]
          exact .inl ⟨rfl, Nat.lt_succ_self 2⟩
      | deleted =>
          -- the round goes on with this queue, after an event of the other one or without it
          refine .inl ⟨rfl, ?_⟩
          split
          · exact Nat.lt_succ_self 5
          · exact (by decide : (3 : Nat) < 6)
  | testDeleted =>
      simp only [runStep, RunResult.next.injEq] at h
      obtain ⟨rfl, rfl, rfl⟩ := h
      cases kind with
      | modified =>
          refine .inl ⟨rfl, ?_⟩
          split
          · exact Nat.lt_succ_self 5
          · exact (by decide : (3 : Nat) < 6)
      | deleted =>
          rw [if_pos (show 0 < podMgr.podDelObj.length from hlength)]
          exact .inl ⟨rfl, Nat.lt_succ_self 2⟩
  | readModified | readDeleted =>
      simp only [runStep] at h
      split at h <;> cases h
      cases kind <;> exact .inl ⟨rfl, Nat.lt_succ_self _⟩
  | removeModified jsonObj =>
      simp only [runStep] at h
      split at h <;> cases h
      cases kind with
      | modified => exact .inr ⟨jsonObj, rfl, rfl, rfl⟩
      | deleted => exact .inl ⟨rfl, Nat.lt_succ_self 3⟩
  | removeDeleted jsonObj =>
      simp only [runStep] at h
      split at h <;> cases h
      cases kind with
      | modified => exact .inl ⟨rfl, Nat.lt_succ_self 3⟩
      | deleted => exact .inr ⟨jsonObj, rfl, rfl, rfl⟩

/-- The steps of the loop, at most, until it has handed over this many events of the kind. -/
def wait (kind : EventKind) (target : Nat) (state : Delivery) : Nat :=
  if target ≤ (kind.ledger state).passed.length then 0
  else 6 * (target - (kind.ledger state).passed.length - 1) + kind.stepsLeft state.point

/-- While an event of the kind has to be handed over, some step is left for it. -/
theorem steps_left_bounds (kind : EventKind) (point : RunPoint) :
    0 < kind.stepsLeft point ∧ kind.stepsLeft point ≤ 6 := by
  cases kind <;> cases point <;> simp [EventKind.stepsLeft]

/-- What is waited for has been handed over when no step is left. -/
theorem wait_eq_zero_iff {target : Nat} {state : Delivery} :
    wait kind target state = 0 ↔ target ≤ (kind.ledger state).passed.length := by
  unfold wait
  split
  · rename_i hpassed
    exact iff_of_true rfl hpassed
  · rename_i hpassed
    have hsteps := (steps_left_bounds kind state.point).1
    exact iff_of_false (by omega) hpassed

/-- At most six steps are left for each event that is waited for. -/
theorem wait_le (kind : EventKind) (state : Delivery) (k : Nat) :
    wait kind ((kind.ledger state).passed.length + k) state ≤ 6 * k := by
  unfold wait
  split
  · omega
  · have hsteps := (steps_left_bounds kind state.point).2
    omega

/-- More events take no fewer steps. -/
theorem wait_mono {target larger : Nat} {state : Delivery} (h : target ≤ larger) :
    wait kind target state ≤ wait kind larger state := by
  unfold wait
  split
  · exact Nat.zero_le _
  · rw [if_neg (by omega)]
    omega

section Step

variable {state next : Delivery} {action : DeliveryAction}

/-- A ledger of events only grows, and grows at its end. -/
theorem appended_grows (hstep : deliveryStep state action = some next) :
    (kind.ledger state).appended <+: (kind.ledger next).appended := by
  unfold deliveryStep at hstep
  split at hstep
  · cases hstep
  · cases action with
    | doModified obj =>
        obtain rfl := Option.some.inj hstep
        cases kind with
        | modified => exact List.prefix_append _ _
        | deleted => exact List.prefix_refl _
    | doDeleted obj =>
        obtain rfl := Option.some.inj hstep
        cases kind with
        | modified => exact List.prefix_refl _
        | deleted => exact List.prefix_append _ _
    | run =>
        dsimp only at hstep
        split at hstep <;> cases hstep
        all_goals cases kind <;> exact List.prefix_refl _

/-- A step of the loop brings what is waited for nearer, and no other action puts it off. -/
theorem wait_lowered {target : Nat} (h : Delivered state)
    (htarget : target ≤ (kind.ledger state).appended.length)
    (hstep : deliveryStep state action = some next) :
    wait kind target next ≤ wait kind target state - if action.isRun then 1 else 0 := by
  unfold deliveryStep at hstep
  rw [if_neg (by simp [h.in_range])] at hstep
  cases action with
  | doModified obj | doDeleted obj =>
      obtain rfl := Option.some.inj hstep
      cases kind <;> exact le_refl _
  | run =>
      obtain ⟨podMgr, point, spawn, hrun, -⟩ := run_step_ready h.ready h.holds
      rw [hrun] at hstep
      have hnext := Option.some.inj hstep
      have hpoint : next.point = point := by rw [← hnext]
      have hpassed : (kind.ledger next).passed =
          (kind.ledger state).passed ++ kind.started spawn := by
        rw [← hnext]
        cases kind <;> rfl
      by_cases hdone : target ≤ (kind.ledger state).passed.length
      · have hzero : wait kind target next = 0 := by
          rw [wait_eq_zero_iff, hpassed, List.length_append]
          omega
        omega
      · have hbalances : (kind.ledger state).appended =
            (kind.ledger state).passed ++ kind.queue state.podMgr := by
          cases kind
          · exact h.modified
          · exact h.deleted
        have hqueue : kind.queue state.podMgr ≠ [] := by
          intro hempty
          rw [hbalances, hempty, List.append_nil] at htarget
          exact hdone htarget
        unfold wait
        rw [if_neg hdone, hpoint, hpassed, List.length_append]
        rcases steps_left_lowered hqueue hrun with ⟨hnone, hless⟩ | ⟨obj, hone, hlast, hround⟩
        · rw [hnone, List.length_nil, Nat.add_zero, if_neg hdone]
          simp only [DeliveryAction.isRun, if_true]
          omega
        · rw [hone, List.length_singleton, hlast, hround]
          simp only [DeliveryAction.isRun, if_true]
          split <;> omega

end Step

/-- Over a run, the steps of the loop are taken off what is waited for. -/
theorem wait_run {target : Nat} {start final : Delivery} {actions : List DeliveryAction}
    (h : Delivered start) (htarget : target ≤ (kind.ledger start).appended.length)
    (hrun : exec deliveryStep start actions = some final) :
    wait kind target final ≤ wait kind target start - actions.countP DeliveryAction.isRun ∧
      (kind.ledger start).appended <+: (kind.ledger final).appended ∧ Delivered final := by
  induction actions generalizing start with
  | nil =>
      obtain rfl := Option.some.inj hrun
      exact ⟨le_refl _, List.prefix_refl _, h⟩
  | cons action rest ih =>
      obtain ⟨next, hstep, hrest⟩ := exec_cons_eq_some.mp hrun
      obtain ⟨other, hother, hnext⟩ := delivered_step start action h
      obtain rfl := Option.some.inj (hstep.symm.trans hother)
      have hgrows : (kind.ledger start).appended <+: (kind.ledger next).appended :=
        appended_grows hstep
      have hlowered := wait_lowered h htarget hstep
      obtain ⟨hwait, hprefix, hfinal⟩ := ih hnext (htarget.trans hgrows.length_le) hrest
      refine ⟨?_, hgrows.trans hprefix, hfinal⟩
      rw [List.countP_cons]
      omega

/-- From every reachable state, and whatever the watcher appends in the meantime: while the loop
takes `6 * k` steps, it hands over the next `k` events that wait in either queue, in their order, or
all of them if there are fewer. -/
theorem hands_over_within (kind : EventKind) (earlier later : List DeliveryAction)
    (start final : Delivery) (hearlier : exec deliveryStep Delivery.initial earlier = some start)
    (hlater : exec deliveryStep start later = some final) (k : Nat)
    (hsteps : 6 * k ≤ later.countP DeliveryAction.isRun) :
    (kind.ledger start).appended.take ((kind.ledger start).passed.length + k) <+:
      (kind.ledger final).passed := by
  have hinitial : Delivered Delivery.initial := ⟨rfl, rfl, trivial, trivial, rfl⟩
  have hstart : Delivered start := by
    refine exec_invariant (fun state action next h hstep => ?_) hinitial hearlier
    obtain ⟨other, hother, hnext⟩ := delivered_step state action h
    exact Option.some.inj (hstep.symm.trans hother) ▸ hnext
  let reached := (kind.ledger start).passed.length + k
  let target := min reached (kind.ledger start).appended.length
  have htarget : target ≤ (kind.ledger start).appended.length := min_le_right _ _
  obtain ⟨hwait, hgrows, hfinal⟩ := wait_run hstart htarget hlater
  have hpassed : target ≤ (kind.ledger final).passed.length := by
    have hless : wait kind target start ≤ wait kind reached start := wait_mono (min_le_left _ _)
    have hbound : wait kind reached start ≤ 6 * k := wait_le kind start k
    refine wait_eq_zero_iff.mp ?_
    omega
  have hprefix : (kind.ledger final).passed <+: (kind.ledger final).appended := by
    cases kind
    · exact hfinal.modified.passed_isPrefix
    · exact hfinal.deleted.passed_isPrefix
  have htaken : (kind.ledger start).appended.take reached <+: (kind.ledger final).appended :=
    (List.take_prefix _ _).trans hgrows
  exact List.prefix_of_prefix_length_le htaken hprefix (by rwa [List.length_take])

/-- Each step of the loop comes with another new event: it keeps to the event of the other queue. -/
theorem hands_over_within_flooded : ∃ final,
    exec deliveryStep Delivery.initial
      ([.doModified .null, .doModified .null, .doDeleted (.bool true)] ++
        (List.replicate 6 [.run, .doModified (.bool false)]).flatten) = some final ∧
      final.modified.appended.length = 8 ∧ [.bool true] <+: final.deleted.passed := by
  refine ⟨_, rfl, rfl, ?_⟩
  exact hands_over_within .deleted [.doModified .null, .doModified .null, .doDeleted (.bool true)]
    (List.replicate 6 [.run, .doModified (.bool false)]).flatten _ _ rfl rfl 1 (by decide)

end UniShare.PodWatch
