import UniShare.Lib.Execution

/-!
# The rate controller

After `core/controller/pc_alg.c`. `delta` is the arithmetic that the two functions `delta_for_mlu`
and `delta_for_gpu` share. The machine has one `source_control` thread and any number of threads
in `rate_limiter`; every load, store and compare-and-swap of `cur_cores` is one step. Integers are
exact. The fields `grants` and `admitted` of a state are ghosts: they record what each completed
control tick and each admitted launch did to the bucket.
-/

namespace UniShare.Controller

open Lib

/-- The absolute distance between limit and utilisation, at least five. -/
def utilizationDiff (upLimit userCurrent : Int) : Int :=
  if |upLimit - userCurrent| < 5 then 5 else |upLimit - userCurrent|

/-- The amount by which one tick moves the share. C division truncates. -/
def increment (cores threads divisor upLimit userCurrent : Int) : Int :=
  let diff := utilizationDiff upLimit userCurrent
  let base := (cores * cores * threads * diff).tdiv divisor
  if upLimit.tdiv 2 < diff then (base * diff * 2).tdiv (upLimit + 1) else base

/-- The common body of `delta_for_mlu` and `delta_for_gpu`. -/
def delta (cores threads divisor totalCores upLimit userCurrent share : Int) : Int :=
  let step := increment cores threads divisor upLimit userCurrent
  if userCurrent ≤ upLimit then
    if totalCores < share + step then totalCores else share + step
  else if share - step < 0 then 0 else share - step

/-- `delta_for_mlu`. -/
def deltaForMlu (cardCoreCount cardThreadPreCore totalCores upLimit userCurrent share : Int) :
    Int :=
  delta cardCoreCount cardThreadPreCore 256 totalCores upLimit userCurrent share

/-- `delta_for_gpu`. -/
def deltaForGpu (smNum maxThreadPerSm totalCores upLimit userCurrent share : Int) : Int :=
  delta smNum maxThreadPerSm 2560 totalCores upLimit userCurrent share

/-- The argument of `source_control`. -/
inductive Accelerator where
  | mlu
  | gpu
  deriving DecidableEq, Repr

/-- What the controller is started with: the hardware constants of the card, its total cores, and
the limit read from the configuration. -/
structure Context where
  accelerator : Accelerator
  cores : Int
  threads : Int
  totalCores : Int
  yamlLimit : Int
  cores_nonneg : 0 ≤ cores
  threads_nonneg : 0 ≤ threads
  total_nonneg : 0 ≤ totalCores
  limit_nonneg : 0 ≤ yamlLimit

/-- The delta function of the accelerator. -/
def Context.delta (ctx : Context) (totalCores userCurrent share : Int) : Int :=
  match ctx.accelerator with
  | .mlu => deltaForMlu ctx.cores ctx.threads totalCores ctx.yamlLimit userCurrent share
  | .gpu => deltaForGpu ctx.cores ctx.threads totalCores ctx.yamlLimit userCurrent share

/-- The test `container_total_uti < yaml_limit / 10`; the comparison is unsigned. -/
def Context.lowUtilisation (ctx : Context) (uti : UInt32) : Prop :=
  uti < UInt32.ofInt (ctx.yamlLimit.tdiv 10)

instance (ctx : Context) (uti : UInt32) : Decidable (ctx.lowUtilisation uti) :=
  inferInstanceAs (Decidable (_ < _))

/-- A card with 40 processors of 1024 threads under a limit of 50 percent. -/
def halfCard : Context where
  accelerator := .gpu
  cores := 40
  threads := 1024
  totalCores := 1310720
  yamlLimit := 50
  cores_nonneg := by decide
  threads_nonneg := by decide
  total_nonneg := by decide
  limit_nonneg := by decide

/-- Where the `source_control` thread is, with its local `share`: before its prologue, at the top
of the loop, at the plain store of the low-utilisation branch, and at the load and the
compare-and-swap of `change_token`. -/
inductive Control where
  | start
  | wait (share : Int)
  | store (share value : Int)
  | load (share : Int)
  | cas (share coresBefore : Int)
  deriving DecidableEq, Repr

/-- The local `share` of `source_control`. -/
def Control.share : Control → Int
  | .start => 0
  | .wait share | .store share _ | .load share | .cas share _ => share

/-- Where a launching thread is: outside `rate_limiter`, at the load after `CHECK`, or at the
compare-and-swap. -/
inductive Launch where
  | idle
  | check (kernelSize : Int)
  | cas (kernelSize beforeCores : Int)
  deriving DecidableEq, Repr

/-- A completed control tick: the value that the delta function returned, and `cur_cores` just
before and just after the tick's write. -/
structure Grant where
  value : Int
  before : Int
  after : Int
  deriving DecidableEq, Repr

/-- The net effect of a tick on `cur_cores`. -/
def Grant.amount (grant : Grant) : Int := grant.after - grant.before

/-- An admitted launch: its size, and `cur_cores` when it was admitted. -/
structure Admission where
  kernelSize : Int
  before : Int
  deriving DecidableEq, Repr

/-- The shared variables, the threads, and the ghost records. -/
structure State (τ : Type) where
  curCores : Int
  totalCores : Int
  control : Control
  launches : τ → Launch
  grants : List Grant
  admitted : List Admission

/-- The state in which the library is loaded. -/
def State.initial (τ : Type) : State τ := ⟨0, 0, .start, fun _ => .idle, [], []⟩

/-- One atomic step of a thread. `tick` carries the utilisation that `get_uti` returns. -/
inductive Action (τ : Type) where
  | prologue
  | tick (uti : UInt32)
  | store
  | load
  | cas
  | call (thread : τ) (kernelSize : Int)
  | check (thread : τ)
  | commit (thread : τ)

variable {τ : Type} [DecidableEq τ]

/-- A launching thread moves. -/
def State.setLaunch (state : State τ) (thread : τ) (launch : Launch) : State τ :=
  { state with launches := Function.update state.launches thread launch }

/-- `cores_after` of `change_token`. -/
def coresAfter (totalCores coresBefore share : Int) : Int :=
  if totalCores < coresBefore + share then totalCores else coresBefore + share

/-- One transition, `none` when the thread is not at that point. -/
def step (ctx : Context) (state : State τ) : Action τ → Option (State τ)
  | .prologue =>
      match state.control with
      | .start => some { state with totalCores := ctx.totalCores, control := .wait 0 }
      | _ => none
  | .tick uti =>
      match state.control with
      | .wait share =>
          let value := ctx.delta state.totalCores uti.toInt32.toInt share
          -- the low-utilisation branch keeps the old share and stores the value itself
          if ctx.lowUtilisation uti then some { state with control := .store share value }
          else some { state with control := .load value }
      | _ => none
  | .store =>
      match state.control with
      | .store share value =>
          some { state with
            curCores := value
            control := .wait share
            grants := state.grants ++ [⟨value, state.curCores, value⟩] }
      | _ => none
  | .load =>
      match state.control with
      | .load share => some { state with control := .cas share state.curCores }
      | _ => none
  | .cas =>
      match state.control with
      | .cas share coresBefore =>
          if state.curCores = coresBefore then
            some { state with
              curCores := coresAfter state.totalCores coresBefore share
              control := .wait share
              grants := state.grants ++
                [⟨share, coresBefore, coresAfter state.totalCores coresBefore share⟩] }
          else some { state with control := .load share }
      | _ => none
  | .call thread kernelSize =>
      match state.launches thread with
      | .idle => some (state.setLaunch thread (.check kernelSize))
      | _ => none
  | .check thread =>
      match state.launches thread with
      | .check kernelSize =>
          -- in debt: sleep and go back to `CHECK`
          if state.curCores < 0 then some state
          else some (state.setLaunch thread (.cas kernelSize state.curCores))
      | _ => none
  | .commit thread =>
      match state.launches thread with
      | .cas kernelSize beforeCores =>
          if state.curCores = beforeCores then
            some { state.setLaunch thread .idle with
              curCores := beforeCores - kernelSize
              admitted := state.admitted ++ [⟨kernelSize, beforeCores⟩] }
          else some (state.setLaunch thread (.check kernelSize))
      | _ => none

/-- The step writes nothing to `cur_cores`: it is no plain store and no swap that succeeds. -/
def NoWrite (state : State τ) : Action τ → Prop
  | .store => False
  | .cas => ∀ share, state.control ≠ .cas share state.curCores
  | .commit thread => ∀ kernelSize, state.launches thread ≠ .cas kernelSize state.curCores
  | _ => True

/-- What a step does to `cur_cores`, `total_cores` and the records: nothing, setting the total, the
plain store, a successful swap of `change_token`, or a successful swap of `rate_limiter`. -/
inductive Effect (ctx : Context) (state next : State τ) : Action τ → Prop where
  | quiet (action) : NoWrite state action → next.curCores = state.curCores →
      next.totalCores = state.totalCores → next.grants = state.grants →
      next.admitted = state.admitted → Effect ctx state next action
  | prologue : state.control = .start → next.curCores = state.curCores →
      next.totalCores = ctx.totalCores → next.grants = state.grants →
      next.admitted = state.admitted → Effect ctx state next .prologue
  | store (share value) : state.control = .store share value → next.curCores = value →
      next.totalCores = state.totalCores →
      next.grants = state.grants ++ [⟨value, state.curCores, value⟩] →
      next.admitted = state.admitted → Effect ctx state next .store
  | grant (share) : state.control = .cas share state.curCores →
      next.curCores = coresAfter state.totalCores state.curCores share →
      next.totalCores = state.totalCores →
      next.grants = state.grants ++
        [⟨share, state.curCores, coresAfter state.totalCores state.curCores share⟩] →
      next.admitted = state.admitted → Effect ctx state next .cas
  | admission (thread kernelSize) : state.launches thread = .cas kernelSize state.curCores →
      next.curCores = state.curCores - kernelSize → next.totalCores = state.totalCores →
      next.grants = state.grants →
      next.admitted = state.admitted ++ [⟨kernelSize, state.curCores⟩] →
      Effect ctx state next (.commit thread)

/-- Every step has one of the five effects. -/
theorem effect_of_step {ctx : Context} {state next : State τ} {action : Action τ}
    (hstep : step ctx state action = some next) : Effect ctx state next action := by
  cases action with
  | prologue =>
      simp only [step] at hstep
      split at hstep <;> cases hstep
      rename_i hpoint
      exact .prologue hpoint rfl rfl rfl rfl
  | tick uti =>
      simp only [step] at hstep
      split at hstep
      · split at hstep <;> cases hstep <;> exact .quiet _ trivial rfl rfl rfl rfl
      · cases hstep
  | store =>
      simp only [step] at hstep
      split at hstep <;> cases hstep
      rename_i share value hpoint
      exact .store share value hpoint rfl rfl rfl rfl
  | load | call =>
      simp only [step] at hstep
      split at hstep <;> cases hstep
      exact .quiet _ trivial rfl rfl rfl rfl
  | cas =>
      simp only [step] at hstep
      split at hstep
      · rename_i share coresBefore hpoint
        split at hstep <;> cases hstep
        · rename_i hequal
          subst hequal
          exact .grant share hpoint rfl rfl rfl rfl
        · rename_i hdiffer
          refine .quiet _ (fun other heq => hdiffer ?_) rfl rfl rfl rfl
          exact (Control.cas.inj (hpoint.symm.trans heq)).2.symm
      · cases hstep
  | check thread =>
      simp only [step] at hstep
      split at hstep
      · split at hstep <;> cases hstep <;> exact .quiet _ trivial rfl rfl rfl rfl
      · cases hstep
  | commit thread =>
      simp only [step] at hstep
      split at hstep
      · rename_i kernelSize beforeCores hpoint
        split at hstep <;> cases hstep
        · rename_i hequal
          subst hequal
          exact .admission thread kernelSize hpoint rfl rfl rfl rfl
        · rename_i hdiffer
          refine .quiet _ (fun other heq => hdiffer ?_) rfl rfl rfl rfl
          exact (Launch.cas.inj (hpoint.symm.trans heq)).2.symm
      · cases hstep

/-! ## The launching threads -/

/-- An action of the `source_control` thread. -/
def Action.ofController : Action τ → Bool
  | .prologue | .tick _ | .store | .load | .cas => true
  | .call _ _ | .check _ | .commit _ => false

/-- A call of `rate_limiter` starts in a thread outside it and goes to `CHECK`. -/
theorem launch_of_call {ctx : Context} {state next : State τ} {thread : τ} {kernelSize : Int}
    (hstep : step ctx state (.call thread kernelSize) = some next) :
    state.launches thread = .idle ∧ next = state.setLaunch thread (.check kernelSize) := by
  simp only [step] at hstep
  split at hstep <;> cases hstep
  rename_i hpoint
  exact ⟨hpoint, rfl⟩

/-! ## The arithmetic of a tick -/

/-- With a non-negative limit and non-negative constants a tick moves the share by a non-negative
amount. -/
theorem increment_nonneg {cores threads divisor upLimit : Int} (hcores : 0 ≤ cores)
    (hthreads : 0 ≤ threads) (hdivisor : 0 ≤ divisor) (hlimit : 0 ≤ upLimit) (userCurrent : Int) :
    0 ≤ increment cores threads divisor upLimit userCurrent := by
  have hdiff : 0 ≤ utilizationDiff upLimit userCurrent := by
    unfold utilizationDiff
    split
    · decide
    · exact abs_nonneg _
  have hbase : 0 ≤ (cores * cores * threads * utilizationDiff upLimit userCurrent).tdiv divisor :=
    Int.tdiv_nonneg
      (Int.mul_nonneg (Int.mul_nonneg (Int.mul_nonneg hcores hcores) hthreads) hdiff) hdivisor
  unfold increment
  dsimp only
  split
  · exact Int.tdiv_nonneg (Int.mul_nonneg (Int.mul_nonneg hbase hdiff) (by decide)) (by omega)
  · exact hbase

/-- A tick keeps the share between zero and the total. -/
theorem delta_bounds {cores threads divisor totalCores upLimit share : Int} (hcores : 0 ≤ cores)
    (hthreads : 0 ≤ threads) (hdivisor : 0 ≤ divisor) (hlimit : 0 ≤ upLimit)
    (hlow : 0 ≤ share) (hhigh : share ≤ totalCores) (userCurrent : Int) :
    0 ≤ delta cores threads divisor totalCores upLimit userCurrent share ∧
      delta cores threads divisor totalCores upLimit userCurrent share ≤ totalCores := by
  have hstep := increment_nonneg hcores hthreads hdivisor hlimit userCurrent
  unfold delta
  dsimp only
  split <;> split <;> omega

/-- The delta function of the accelerator keeps the share between zero and the total. -/
theorem Context.delta_bounds (ctx : Context) {totalCores share : Int} (hlow : 0 ≤ share)
    (hhigh : share ≤ totalCores) (userCurrent : Int) :
    0 ≤ ctx.delta totalCores userCurrent share ∧
      ctx.delta totalCores userCurrent share ≤ totalCores := by
  unfold Context.delta
  cases ctx.accelerator with
  | mlu =>
      exact Controller.delta_bounds ctx.cores_nonneg ctx.threads_nonneg (by decide)
        ctx.limit_nonneg hlow hhigh userCurrent
  | gpu =>
      exact Controller.delta_bounds ctx.cores_nonneg ctx.threads_nonneg (by decide)
        ctx.limit_nonneg hlow hhigh userCurrent

/-- `change_token` never leaves more than the total. -/
theorem cores_after_le (totalCores coresBefore share : Int) :
    coresAfter totalCores coresBefore share ≤ totalCores := by
  unfold coresAfter
  split <;> omega

/-- `change_token` adds between nothing and the share exactly when the bucket does not exceed the
total. -/
theorem cores_after_iff {totalCores coresBefore share : Int} (hshare : 0 ≤ share) :
    (0 ≤ coresAfter totalCores coresBefore share - coresBefore ∧
      coresAfter totalCores coresBefore share - coresBefore ≤ share) ↔
        coresBefore ≤ totalCores := by
  unfold coresAfter
  split <;> omega

end UniShare.Controller
