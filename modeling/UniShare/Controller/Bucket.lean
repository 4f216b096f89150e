import UniShare.Controller.PcAlg

/-!
# Bounds of the token bucket

`Bounded` is the invariant of the bucket under launches of non-negative size at most `bound`, and
`token_bucket_bounds` is what it says of every reachable state, in exact integers.
-/

namespace UniShare.Controller

open Lib

variable {τ : Type} [DecidableEq τ]

/-- A launch that starts has a size between zero and `bound`. -/
def KernelWithin (bound : Int) (_ : State τ) : Action τ → Prop
  | .call _ kernelSize => 0 ≤ kernelSize ∧ kernelSize ≤ bound
  | _ => True

/-- What a launching thread holds is within bounds: at the compare-and-swap it has seen a bucket
that is not in debt. -/
def Launch.Bounded (bound : Int) : Launch → Prop
  | .idle => True
  | .check kernelSize => 0 ≤ kernelSize ∧ kernelSize ≤ bound
  | .cas kernelSize beforeCores => (0 ≤ kernelSize ∧ kernelSize ≤ bound) ∧ 0 ≤ beforeCores

/-- The value that the low-utilisation branch is about to store is within the total. -/
def Control.StoreWithin (totalCores : Int) : Control → Prop
  | .store _ value => 0 ≤ value ∧ value ≤ totalCores
  | _ => True

/-- The share of a started controller, and the value it is about to store, are within the total;
before the prologue the total is zero. -/
structure ControlBounded (ctx : Context) (state : State τ) : Prop where
  total_nonneg : 0 ≤ state.totalCores
  total_started : state.control ≠ .start → state.totalCores = ctx.totalCores
  total_start : state.control = .start → state.totalCores = 0
  share_nonneg : 0 ≤ state.control.share
  share_le : state.control.share ≤ state.totalCores
  store_within : state.control.StoreWithin state.totalCores

/-- The invariant of the bucket. -/
structure Bounded (ctx : Context) (bound : Int) (state : State τ) : Prop where
  control : ControlBounded ctx state
  debt : -bound ≤ state.curCores
  cur_le : state.curCores ≤ state.totalCores
  launches : ∀ thread, (state.launches thread).Bounded bound
  admitted : ∀ admission ∈ state.admitted, 0 ≤ admission.before

/-- A step leaves the controller's part of the state alone, or is one of the controller's own. -/
theorem control_bounded_step {ctx : Context} {state next : State τ} {action : Action τ}
    (h : ControlBounded ctx state) (hstep : step ctx state action = some next) :
    ControlBounded ctx next := by
  obtain ⟨hnonneg, hstarted, hstart, hlow, hhigh, hstore⟩ := h
  cases action with
  | prologue =>
      simp only [step] at hstep
      split at hstep
      · cases hstep
        exact ⟨ctx.total_nonneg, fun _ => rfl, by simp, le_refl _, ctx.total_nonneg, trivial⟩
      · cases hstep
  | tick uti =>
      simp only [step] at hstep
      split at hstep
      · rename_i share hcontrol
        simp only [hcontrol, Control.share] at hlow hhigh
        have hvalue := ctx.delta_bounds hlow hhigh uti.toInt32.toInt
        have htotal := hstarted (by simp [hcontrol])
        split at hstep
        · cases hstep
          exact ⟨hnonneg, fun _ => htotal, by simp, hlow, hhigh, hvalue⟩
        · cases hstep
          exact ⟨hnonneg, fun _ => htotal, by simp, hvalue.1, hvalue.2, trivial⟩
      · cases hstep
  | store | load =>
      simp only [step] at hstep
      split at hstep
      · rename_i hcontrol
        simp only [hcontrol, Control.share] at hlow hhigh
        cases hstep
        exact ⟨hnonneg, fun _ => hstarted (by simp [hcontrol]), by simp, hlow, hhigh, trivial⟩
      · cases hstep
  | cas =>
      simp only [step] at hstep
      split at hstep
      · rename_i hcontrol
        simp only [hcontrol, Control.share] at hlow hhigh
        split at hstep <;> cases hstep <;>
          exact ⟨hnonneg, fun _ => hstarted (by simp [hcontrol]), by simp, hlow, hhigh, trivial⟩
      · cases hstep
  | call thread kernelSize =>
      simp only [step] at hstep
      split at hstep <;> cases hstep
      exact ⟨hnonneg, hstarted, hstart, hlow, hhigh, hstore⟩
  | check thread | commit thread =>
      simp only [step] at hstep
      split at hstep
      · split at hstep <;> cases hstep <;> exact ⟨hnonneg, hstarted, hstart, hlow, hhigh, hstore⟩
      · cases hstep

/-- Moving one thread to a bounded point keeps all of them bounded. -/
theorem set_launch_bounded {bound : Int} {state : State τ}
    (h : ∀ thread, (state.launches thread).Bounded bound) (thread : τ) {launch : Launch}
    (hlaunch : launch.Bounded bound) (other : τ) :
    ((state.setLaunch thread launch).launches other).Bounded bound := by
  by_cases heq : other = thread
  · subst heq
    simpa [State.setLaunch] using hlaunch
  · simpa [State.setLaunch, Function.update_of_ne heq] using h other

/-- Every step with launches within the bound keeps the launching threads within bounds. -/
theorem launches_bounded_step {ctx : Context} {bound : Int} {state next : State τ}
    {action : Action τ} (h : ∀ thread, (state.launches thread).Bounded bound)
    (hkernel : KernelWithin bound state action) (hstep : step ctx state action = some next) :
    ∀ thread, (next.launches thread).Bounded bound := by
  cases action with
  | prologue | store | load =>
      simp only [step] at hstep
      split at hstep <;> cases hstep
      exact h
  | tick | cas =>
      simp only [step] at hstep
      split at hstep
      · split at hstep <;> cases hstep <;> exact h
      · cases hstep
  | call thread kernelSize =>
      simp only [step] at hstep
      split at hstep <;> cases hstep
      exact set_launch_bounded h thread hkernel
  | check thread =>
      simp only [step] at hstep
      split at hstep
      · rename_i kernelSize hpoint
        have hsize := h thread
        rw [hpoint] at hsize
        split at hstep <;> cases hstep
        · exact h
        · exact set_launch_bounded h thread ⟨hsize, by omega⟩
      · cases hstep
  | commit thread =>
      simp only [step] at hstep
      split at hstep
      · rename_i kernelSize beforeCores hpoint
        have hsize := h thread
        rw [hpoint] at hsize
        split at hstep <;> cases hstep
        · exact set_launch_bounded h thread trivial
        · exact set_launch_bounded h thread hsize.1
      · cases hstep

/-- Every step with launches within the bound keeps the bucket bounded. -/
theorem bounded_step {ctx : Context} {bound : Int} (hbound : 0 ≤ bound) {state next : State τ}
    {action : Action τ} (h : Bounded ctx bound state) (hkernel : KernelWithin bound state action)
    (hstep : step ctx state action = some next) : Bounded ctx bound next := by
  have hcontrol := control_bounded_step h.control hstep
  have hlaunches := launches_bounded_step h.launches hkernel hstep
  have hdebt := h.debt
  have hcur := h.cur_le
  cases effect_of_step hstep with
  | quiet _ _ hcores htotal _ hadmitted =>
      exact ⟨hcontrol, hcores ▸ hdebt, hcores ▸ htotal ▸ hcur, hlaunches, hadmitted ▸ h.admitted⟩
  | prologue hpoint hcores htotal _ hadmitted =>
      have hzero := h.control.total_start hpoint
      have hnonneg := ctx.total_nonneg
      exact ⟨hcontrol, hcores ▸ hdebt, by omega, hlaunches, hadmitted ▸ h.admitted⟩
  | store share value hpoint hcores htotal _ hadmitted =>
      have hvalue := h.control.store_within
      simp only [hpoint, Control.StoreWithin] at hvalue
      exact ⟨hcontrol, by omega, by omega, hlaunches, hadmitted ▸ h.admitted⟩
  | grant share hpoint hcores htotal _ hadmitted =>
      have hshare := h.control.share_nonneg
      simp only [hpoint, Control.share] at hshare
      -- the bucket gains at least nothing and at most reaches the total
      have hgain := (cores_after_iff hshare).mpr hcur
      have hcap := cores_after_le state.totalCores state.curCores share
      exact ⟨hcontrol, by omega, by omega, hlaunches, hadmitted ▸ h.admitted⟩
  | admission thread kernelSize hpoint hcores htotal _ hadmitted =>
      have hlaunch := h.launches thread
      rw [hpoint] at hlaunch
      obtain ⟨⟨hsize, hsizeBound⟩, hnodebt⟩ := hlaunch
      refine ⟨hcontrol, by omega, by omega, hlaunches, fun admission hmem => ?_⟩
      rw [hadmitted] at hmem
      rcases List.mem_append.mp hmem with hmem | hmem
      · exact h.admitted admission hmem
      · obtain rfl := List.mem_singleton.mp hmem
        exact hnodebt

omit [DecidableEq τ] in
/-- The invariant holds before anything has run. -/
theorem bounded_initial (ctx : Context) {bound : Int} (hbound : 0 ≤ bound) :
    Bounded ctx bound (State.initial τ) :=
  ⟨⟨le_refl _, fun h => absurd rfl h, fun _ => rfl, le_refl _, le_refl _, trivial⟩,
    by show -bound ≤ 0; omega, le_refl _, fun _ => trivial, nofun⟩

/-- In every state reached by any interleaving of the controller with any number of launching
threads, whose kernel sizes are between zero and `bound`: `cur_cores` is between minus `bound` and
the total, the share is between zero and the total, and every admitted launch found the bucket
free of debt. -/
theorem token_bucket_bounds (ctx : Context) (bound : Int) (hbound : 0 ≤ bound)
    (actions : List (Action τ))
    (hkernels : ∀ thread kernelSize, Action.call thread kernelSize ∈ actions →
      0 ≤ kernelSize ∧ kernelSize ≤ bound)
    (state : State τ) (hrun : exec (step ctx) (State.initial τ) actions = some state) :
    (-bound ≤ state.curCores ∧ state.curCores ≤ state.totalCores) ∧
      (0 ≤ state.control.share ∧ state.control.share ≤ state.totalCores) ∧
      (state.totalCores ≤ ctx.totalCores) ∧
      ∀ admission ∈ state.admitted, 0 ≤ admission.before := by
  have halong : Along (step ctx) (KernelWithin bound) (State.initial τ) actions := by
    refine Along.of_mem _ fun action hmem state => ?_
    cases action with
    | call thread kernelSize => exact hkernels thread kernelSize hmem
    | _ => trivial
  have hinv := exec_invariant_along (fun _ _ _ h hcond hstep => bounded_step hbound h hcond hstep)
    (bounded_initial ctx hbound) halong hrun
  refine ⟨⟨hinv.debt, hinv.cur_le⟩, ⟨hinv.control.share_nonneg, hinv.control.share_le⟩, ?_,
    hinv.admitted⟩
  by_cases hstart : state.control = .start
  · exact (hinv.control.total_start hstart).trans_le ctx.total_nonneg
  · exact (hinv.control.total_started hstart).le

/-- The bounds at a launch of ten blocks followed by an idle tick. -/
theorem token_bucket_bounds_half :
    ∃ state, exec (step halfCard) (State.initial Nat)
        [.prologue, .call 0 10, .check 0, .commit 0, .tick 0, .store] = some state ∧
      (-10 ≤ state.curCores ∧ state.curCores ≤ state.totalCores) ∧
      (0 ≤ state.control.share ∧ state.control.share ≤ state.totalCores) ∧
      (state.totalCores ≤ halfCard.totalCores) ∧
      ∀ admission ∈ state.admitted, 0 ≤ admission.before := by
  refine ⟨_, rfl, token_bucket_bounds halfCard 10 (by decide)
    [.prologue, .call 0 10, .check 0, .commit 0, .tick 0, .store] ?_ _ rfl⟩
  intro thread kernelSize hmem
  simp at hmem
  omega

end UniShare.Controller
