import UniShare.Controller.Both

/-!
# What two accelerators keep together

A side does not decide alone when the other one is active, as `Controller.Both` shows. This module
is about what is kept nevertheless, as long as no `int` operation overflows: with `most` no less
than the cores of either card, the bucket and both shares stay within it, and a debt is never more
than one kernel.
-/

namespace UniShare.Controller

open Lib

/-- The shared variables are within the bounds of both cards. -/
structure CoresWithin (most bound : Int) (cores : Cores) : Prop where
  total_nonneg : 0 ≤ cores.total
  total_le : cores.total ≤ most
  debt : -bound ≤ cores.cur
  cur_le : cores.cur ≤ most

/-- What a side has for itself is within the bounds of both cards. -/
structure SideWithin {τ : Type} (most bound : Int) (side : Side τ) : Prop where
  share_nonneg : 0 ≤ side.control.share
  share_le : side.control.share ≤ most
  store_within : side.control.StoreWithin most
  launches : ∀ thread, (side.launches thread).Bounded bound
  admitted : ∀ admission ∈ side.admitted, 0 ≤ admission.before

section Step

variable {most bound : Int} {ctx : Context}

/-- A tick keeps the share within the larger card, whichever card's total it is clamped by. -/
theorem delta_within {cores threads divisor totalCores upLimit share : Int} (hcores : 0 ≤ cores)
    (hthreads : 0 ≤ threads) (hdivisor : 0 ≤ divisor) (hlimit : 0 ≤ upLimit)
    (htotal : 0 ≤ totalCores) (hmost : totalCores ≤ most) (hlow : 0 ≤ share) (hhigh : share ≤ most)
    (userCurrent : Int) :
    0 ≤ delta cores threads divisor totalCores upLimit userCurrent share ∧
      delta cores threads divisor totalCores upLimit userCurrent share ≤ most := by
  have hstep := increment_nonneg hcores hthreads hdivisor hlimit userCurrent
  unfold delta
  dsimp only
  split <;> split <;> omega

/-- So does the delta function of the accelerator. -/
theorem Context.delta_within {totalCores share : Int} (htotal : 0 ≤ totalCores)
    (hmost : totalCores ≤ most) (hlow : 0 ≤ share) (hhigh : share ≤ most) (userCurrent : Int) :
    0 ≤ ctx.delta totalCores userCurrent share ∧
      ctx.delta totalCores userCurrent share ≤ most := by
  unfold Context.delta
  cases ctx.accelerator with
  | mlu =>
      exact Controller.delta_within ctx.cores_nonneg ctx.threads_nonneg (by decide)
        ctx.limit_nonneg htotal hmost hlow hhigh userCurrent
  | gpu =>
      exact Controller.delta_within ctx.cores_nonneg ctx.threads_nonneg (by decide)
        ctx.limit_nonneg htotal hmost hlow hhigh userCurrent

variable {τ : Type} [DecidableEq τ] {side : Side τ} {cores : Cores} {next : State τ}
  {action : Action τ}

/-- A step keeps the controller of its side within the bounds. -/
theorem control_within_step (hshared : CoresWithin most bound cores)
    (h : SideWithin most bound side) (hmost : 0 ≤ most)
    (hstep : step ctx (side.finds cores) action = some next) :
    (0 ≤ next.control.share ∧ next.control.share ≤ most) ∧ next.control.StoreWithin most := by
  obtain ⟨hlow, hhigh, hstore, -, -⟩ := h
  cases action with
  | prologue =>
      simp only [step] at hstep
      split at hstep <;> cases hstep
      exact ⟨⟨le_refl _, hmost⟩, trivial⟩
  | tick uti =>
      simp only [step] at hstep
      split at hstep
      · rename_i share hcontrol
        change side.control = .wait share at hcontrol
        simp only [hcontrol, Control.share] at hlow hhigh
        have hvalue : 0 ≤ ctx.delta cores.total uti.toInt32.toInt share ∧
            ctx.delta cores.total uti.toInt32.toInt share ≤ most :=
          Context.delta_within hshared.total_nonneg hshared.total_le hlow hhigh uti.toInt32.toInt
        split at hstep <;> cases hstep
        · exact ⟨⟨hlow, hhigh⟩, hvalue⟩
        · exact ⟨hvalue, trivial⟩
      · cases hstep
  | store | load =>
      simp only [step] at hstep
      split at hstep <;> cases hstep
      rename_i hcontrol
      change side.control = _ at hcontrol
      simp only [hcontrol, Control.share] at hlow hhigh
      exact ⟨⟨hlow, hhigh⟩, trivial⟩
  | cas =>
      simp only [step] at hstep
      split at hstep
      · rename_i hcontrol
        change side.control = _ at hcontrol
        simp only [hcontrol, Control.share] at hlow hhigh
        split at hstep <;> cases hstep <;> exact ⟨⟨hlow, hhigh⟩, trivial⟩
      · cases hstep
  | call thread kernelSize =>
      simp only [step] at hstep
      split at hstep <;> cases hstep
      exact ⟨⟨hlow, hhigh⟩, hstore⟩
  | check thread | commit thread =>
      simp only [step] at hstep
      split at hstep
      · split at hstep <;> cases hstep <;> exact ⟨⟨hlow, hhigh⟩, hstore⟩
      · cases hstep

/-- A step of a side keeps the shared variables, and what the side has for itself, within the
bounds, when its card is no larger than `most`. -/
theorem within_step (hbound : 0 ≤ bound) (htotal : ctx.totalCores ≤ most)
    (hshared : CoresWithin most bound cores) (h : SideWithin most bound side)
    (hkernel : KernelWithin bound (side.finds cores) action)
    (hstep : step ctx (side.finds cores) action = some next) :
    CoresWithin most bound ⟨next.curCores, next.totalCores⟩ ∧ SideWithin most bound next.side := by
  have hmost : 0 ≤ most := ctx.total_nonneg.trans htotal
  obtain ⟨hshare, hstore⟩ := control_within_step hshared h hmost hstep
  have hlaunches : ∀ thread, (next.launches thread).Bounded bound :=
    launches_bounded_step h.launches hkernel hstep
  have hkeep : next.admitted = side.admitted → ∀ admission ∈ next.side.admitted,
      0 ≤ admission.before := by
    intro hadmitted
    show ∀ admission ∈ next.admitted, 0 ≤ admission.before
    rw [hadmitted]
    exact h.admitted
  obtain ⟨hnonneg, hle, hdebt, hcur⟩ := hshared
  cases effect_of_step hstep with
  | quiet _ _ hcores htotals _ hadmitted =>
      have hcores : next.curCores = cores.cur := hcores
      have htotals : next.totalCores = cores.total := htotals
      exact ⟨⟨htotals ▸ hnonneg, htotals ▸ hle, hcores ▸ hdebt, hcores ▸ hcur⟩,
        ⟨hshare.1, hshare.2, hstore, hlaunches, hkeep hadmitted⟩⟩
  | prologue _ hcores htotals _ hadmitted =>
      have hcores : next.curCores = cores.cur := hcores
      exact ⟨⟨htotals ▸ ctx.total_nonneg, htotals ▸ htotal, hcores ▸ hdebt, hcores ▸ hcur⟩,
        ⟨hshare.1, hshare.2, hstore, hlaunches, hkeep hadmitted⟩⟩
  | store share value hpoint hcores htotals _ hadmitted =>
      have htotals : next.totalCores = cores.total := htotals
      have hpoint : side.control = .store share value := hpoint
      have hvalue := h.store_within
      simp only [hpoint, Control.StoreWithin] at hvalue
      exact ⟨⟨htotals ▸ hnonneg, htotals ▸ hle, by show -bound ≤ next.curCores; omega,
        by show next.curCores ≤ most; omega⟩,
        ⟨hshare.1, hshare.2, hstore, hlaunches, hkeep hadmitted⟩⟩
  | grant share hpoint hcores htotals _ hadmitted =>
      have htotals : next.totalCores = cores.total := htotals
      have hpoint : side.control = .cas share cores.cur := hpoint
      have hnonnegShare := h.share_nonneg
      simp only [hpoint, Control.share] at hnonnegShare
      -- the bucket falls at most to the total of the other card, which is not negative
      have hafter : next.curCores = coresAfter cores.total cores.cur share := hcores
      have hcap := cores_after_le cores.total cores.cur share
      have hfloor : -bound ≤ coresAfter cores.total cores.cur share := by
        unfold coresAfter
        split <;> omega
      exact ⟨⟨htotals ▸ hnonneg, htotals ▸ hle, by show -bound ≤ next.curCores; omega,
        by show next.curCores ≤ most; omega⟩,
        ⟨hshare.1, hshare.2, hstore, hlaunches, hkeep hadmitted⟩⟩
  | admission thread kernelSize hpoint hcores htotals _ hadmitted =>
      have htotals : next.totalCores = cores.total := htotals
      have hpoint : side.launches thread = .cas kernelSize cores.cur := hpoint
      have hafter : next.curCores = cores.cur - kernelSize := hcores
      have hlaunch := h.launches thread
      rw [hpoint] at hlaunch
      obtain ⟨⟨hsize, hsizeBound⟩, hnodebt⟩ := hlaunch
      refine ⟨⟨htotals ▸ hnonneg, htotals ▸ hle, by show -bound ≤ next.curCores; omega,
        by show next.curCores ≤ most; omega⟩,
        ⟨hshare.1, hshare.2, hstore, hlaunches, ?_⟩⟩
      show ∀ admission ∈ next.admitted, 0 ≤ admission.before
      rw [hadmitted]
      exact List.forall_mem_append.mpr ⟨h.admitted, List.forall_mem_singleton.mpr hnodebt⟩

end Step

variable {τ : Type} [DecidableEq τ]

/-- The shared variables and both sides are within the bounds of both cards. -/
structure BothWithin (most bound : Int) (state : Both τ) : Prop where
  shared : CoresWithin most bound state.shared
  side : ∀ side, SideWithin most bound (state.side side)

/-- No `int` operation of the step overflows. -/
def StepInRange (process : Process) (state : Both τ) (action : Accelerator × Action τ) : Prop :=
  let before := (state.side action.1).finds state.shared
  TickInRange (process.context action.1).toContext before action.2 ∧ SwapInRange before action.2

instance (process : Process) (state : Both τ) (action : Accelerator × Action τ) :
    Decidable (StepInRange process state action) :=
  inferInstanceAs (Decidable (_ ∧ _))

/-- In every state reached by any interleaving of both controllers and of the launches of both
sides, with kernel sizes between zero and `bound` and no step whose `int` operations overflow:
`cur_cores` is between minus `bound` and the cores of the larger card, so are both shares from zero
on, and every launch of either side was admitted into a bucket free of debt. -/
theorem shared_bucket_bounds (process : Process) (most bound : Int) (hbound : 0 ≤ bound)
    (hmost : ∀ side, (process.context side).totalCores ≤ most)
    (actions : List (Accelerator × Action τ))
    (hkernels : ∀ side thread kernelSize, (side, Action.call thread kernelSize) ∈ actions →
      0 ≤ kernelSize ∧ kernelSize ≤ bound)
    (hrange : Along (bothStep process) (StepInRange process) (Both.initial τ) actions)
    (state : Both τ) (hrun : exec (bothStep process) (Both.initial τ) actions = some state) :
    (-bound ≤ state.shared.cur ∧ state.shared.cur ≤ most) ∧
      ∀ side, (0 ≤ (state.side side).control.share ∧ (state.side side).control.share ≤ most) ∧
        ∀ admission ∈ (state.side side).admitted, 0 ≤ admission.before := by
  have hkernel : Along (bothStep process)
      (fun state action => KernelWithin bound ((state.side action.1).finds state.shared) action.2)
      (Both.initial τ) actions := by
    refine Along.of_mem _ fun action hmem state => ?_
    obtain ⟨side, action⟩ := action
    cases action with
    | call thread kernelSize => exact hkernels side thread kernelSize hmem
    | _ => trivial
  have hzero : 0 ≤ most := (process.context .gpu).total_nonneg.trans (hmost .gpu)
  have hdebt : -bound ≤ 0 := by omega
  have hinitial : BothWithin most bound (Both.initial τ) :=
    ⟨⟨le_refl _, hzero, hdebt, hzero⟩,
      fun _ => ⟨le_refl _, hzero, trivial, fun _ => trivial, nofun⟩⟩
  have hinv : BothWithin most bound state := by
    refine exec_invariant_along (fun state action next h hcond hstep => ?_) hinitial
      (hkernel.and hrange) hrun
    obtain ⟨hkernel, htick, hswap⟩ := hcond
    obtain ⟨mover, action⟩ := action
    simp only [bothStep, Option.map_eq_some_iff] at hstep
    obtain ⟨own, hown, rfl⟩ := hstep
    obtain ⟨hshared, hmoved⟩ := within_step hbound (hmost mover) h.shared (h.side mover) hkernel
      (wrapped_step_eq htick hswap hown)
    refine ⟨hshared, fun side => ?_⟩
    by_cases hsame : side = mover
    · subst hsame
      simpa using hmoved
    · simpa [Function.update_of_ne hsame] using h.side side
  exact ⟨⟨hinv.shared.debt, hinv.shared.cur_le⟩, fun side =>
    ⟨⟨(hinv.side side).share_nonneg, (hinv.side side).share_le⟩, (hinv.side side).admitted⟩⟩

/-- The MLU has been clamped by the cores of the GPU, and both sides launch. -/
def clampedAndLaunched : List (Accelerator × Action Nat) :=
  mluAfterGpu ++ [(.gpu, .call 0 10), (.mlu, .call 0 20), (.gpu, .check 0), (.gpu, .commit 0),
    (.mlu, .check 0), (.mlu, .commit 0)]

/-- The bounds in that run. -/
theorem shared_bucket_bounds_clamped : ∃ state,
    exec (bothStep halfProcess) (Both.initial Nat) clampedAndLaunched = some state ∧
      (-20 ≤ state.shared.cur ∧ state.shared.cur ≤ 1310720) ∧
      ∀ side, (0 ≤ (state.side side).control.share ∧
        (state.side side).control.share ≤ 1310720) ∧
        ∀ admission ∈ (state.side side).admitted, 0 ≤ admission.before := by
  refine ⟨_, rfl, shared_bucket_bounds halfProcess 1310720 20 (by decide) ?_ clampedAndLaunched ?_
    (by decide) _ rfl⟩
  · intro side
    cases side <;> decide
  · intro side thread kernelSize hmem
    simp [clampedAndLaunched, mluAfterGpu] at hmem
    omega

end UniShare.Controller
