import UniShare.Controller.Overflow
import UniShare.Controller.Bucket

/-!
# The rate controller in wrapping integers

After `core/controller/pc_alg.c`, where `int` operations that overflow wrap around. `wrappedStep`
moves the states of `step`; every integer of a state that it reaches is an `int`. A tick and a swap
in range do what `step` does in exact integers: this is `wrapped_step_eq`.
-/

namespace UniShare.Controller

open Lib

/-! ## The delta functions -/

/-- `utilization_diff`, wrapping. -/
def utilizationDiffWrapped (upLimit userCurrent : Int) : Int :=
  let distance := wrap32 |wrap32 (upLimit - userCurrent)|
  if distance < 5 then 5 else distance

/-- `increment`, wrapping, in the order in which the source evaluates it. -/
def incrementWrapped (cores threads divisor upLimit diff : Int) : Int :=
  let base := (wrap32 (wrap32 (wrap32 (cores * cores) * threads) * diff)).tdiv divisor
  if upLimit.tdiv 2 < diff then
    (wrap32 (wrap32 (base * diff) * 2)).tdiv (wrap32 (upLimit + 1))
  else base

/-- The common body of the two delta functions, wrapping. -/
def deltaWrapped (cores threads divisor totalCores upLimit userCurrent share : Int) : Int :=
  let diff := utilizationDiffWrapped upLimit userCurrent
  let step := incrementWrapped cores threads divisor upLimit diff
  if userCurrent ≤ upLimit then
    if totalCores < wrap32 (share + step) then totalCores else wrap32 (share + step)
  else if wrap32 (share - step) < 0 then 0 else wrap32 (share - step)

/-- `delta_for_mlu`, wrapping. -/
def deltaForMluWrapped
    (cardCoreCount cardThreadPreCore totalCores upLimit userCurrent share : Int) : Int :=
  deltaWrapped cardCoreCount cardThreadPreCore 256 totalCores upLimit userCurrent share

/-- `delta_for_gpu`, wrapping. -/
def deltaForGpuWrapped (smNum maxThreadPerSm totalCores upLimit userCurrent share : Int) : Int :=
  deltaWrapped smNum maxThreadPerSm 2560 totalCores upLimit userCurrent share

/-- The checked distance is the wrapped one, and the exact one. -/
theorem utilization_diff_of_checked {upLimit userCurrent diff : Int}
    (h : utilizationDiffChecked upLimit userCurrent = some diff) :
    utilizationDiffWrapped upLimit userCurrent = diff ∧
      utilizationDiff upLimit userCurrent = diff := by
  unfold utilizationDiffChecked at h
  simp only [Option.bind_eq_bind, checked_bind_eq_some, ← apply_ite some, Option.some.injEq] at h
  obtain ⟨hdistance, hmagnitude, hdiff⟩ := h
  unfold utilizationDiffWrapped utilizationDiff
  rw [wrap32_eq_iff.mpr hdistance, wrap32_eq_iff.mpr hmagnitude]
  exact ⟨hdiff, hdiff⟩

/-- The checked step is the wrapped one, and the exact one. -/
theorem increment_of_checked {cores threads divisor upLimit diff result : Int}
    (h : incrementChecked cores threads divisor upLimit diff = some result) :
    incrementWrapped cores threads divisor upLimit diff = result ∧
      incrementAt cores threads divisor upLimit diff = result := by
  unfold incrementChecked at h
  simp only [Option.bind_eq_bind, checked_bind_eq_some, quotient_bind_eq_some] at h
  obtain ⟨hsquare, hpercent, hproduct, -, -, -, -, h⟩ := h
  unfold incrementWrapped incrementAt
  simp only [wrap32_eq_iff.mpr hsquare, wrap32_eq_iff.mpr hpercent, wrap32_eq_iff.mpr hproduct]
  split at h
  · rename_i hscaled
    simp only [checked_bind_eq_some, quotient_eq_some] at h
    obtain ⟨hmul, hdouble, hbound, -, -, hresult⟩ := h
    simp only [if_pos hscaled, wrap32_eq_iff.mpr hmul, wrap32_eq_iff.mpr hdouble,
      wrap32_eq_iff.mpr hbound]
    exact ⟨hresult, hresult⟩
  · rename_i hbase
    simp only [if_neg hbase]
    exact ⟨Option.some.inj h, Option.some.inj h⟩

/-- A checked tick is the wrapped one, and the exact one. -/
theorem delta_of_checked {cores threads divisor totalCores upLimit userCurrent share result : Int}
    (h : deltaChecked cores threads divisor totalCores upLimit userCurrent share = some result) :
    deltaWrapped cores threads divisor totalCores upLimit userCurrent share = result ∧
      delta cores threads divisor totalCores upLimit userCurrent share = result := by
  unfold deltaChecked at h
  simp only [Option.bind_eq_bind] at h
  obtain ⟨diff, hdiff, h⟩ := Option.bind_eq_some_iff.mp h
  obtain ⟨step, hstep, h⟩ := Option.bind_eq_some_iff.mp h
  obtain ⟨hwrappedDiff, hexactDiff⟩ := utilization_diff_of_checked hdiff
  obtain ⟨hwrapped, hexact⟩ := increment_of_checked hstep
  unfold deltaWrapped delta
  simp only [increment_eq_increment_at, hwrappedDiff, hexactDiff, hwrapped, hexact]
  by_cases hbelow : userCurrent ≤ upLimit
  · rw [if_pos hbelow, checked_bind_eq_some, ← apply_ite some, Option.some.injEq] at h
    obtain ⟨hrange, hresult⟩ := h
    rw [if_pos hbelow, if_pos hbelow, wrap32_eq_iff.mpr hrange]
    exact ⟨hresult, hresult⟩
  · rw [if_neg hbelow, checked_bind_eq_some, ← apply_ite some, Option.some.injEq] at h
    obtain ⟨hrange, hresult⟩ := h
    rw [if_neg hbelow, if_neg hbelow, wrap32_eq_iff.mpr hrange]
    exact ⟨hresult, hresult⟩

/-- A card with 108 processors of 2048 threads that idles under a limit of 100 percent: the share
falls below zero, where exact integers raise it to 1847762. -/
example : deltaForGpuWrapped 108 2048 7077888 100 0 0 = -1474457 ∧
    deltaForGpu 108 2048 7077888 100 0 0 = 1847762 := by decide

/-- What a wrapping delta function returns is an `int`. -/
theorem signed32_delta_wrapped {totalCores : Int} (h : signed32 totalCores)
    (cores threads divisor upLimit userCurrent share : Int) :
    signed32 (deltaWrapped cores threads divisor totalCores upLimit userCurrent share) := by
  unfold deltaWrapped
  dsimp only
  split <;> split
  · exact h
  · exact signed32_wrap32 _
  · exact signed32_zero
  · exact signed32_wrap32 _

/-! ## The machine -/

/-- A controller whose constants are `int`s. -/
structure IntContext extends Context where
  cores_int : signed32 cores
  threads_int : signed32 threads
  total_int : signed32 totalCores
  limit_int : signed32 yamlLimit

/-- The delta function of the accelerator, wrapping. -/
def Context.deltaWrapped (ctx : Context) (totalCores userCurrent share : Int) : Int :=
  match ctx.accelerator with
  | .mlu => deltaForMluWrapped ctx.cores ctx.threads totalCores ctx.yamlLimit userCurrent share
  | .gpu => deltaForGpuWrapped ctx.cores ctx.threads totalCores ctx.yamlLimit userCurrent share

/-- The delta function of the accelerator, checked. -/
def Context.deltaChecked (ctx : Context) (totalCores userCurrent share : Int) : Option Int :=
  match ctx.accelerator with
  | .mlu => deltaForMluChecked ctx.cores ctx.threads totalCores ctx.yamlLimit userCurrent share
  | .gpu => deltaForGpuChecked ctx.cores ctx.threads totalCores ctx.yamlLimit userCurrent share

/-- A card with 40 processors of 1024 threads under a limit of 50 percent. -/
def halfIntCard : IntContext :=
  { halfCard with
    cores_int := by decide
    threads_int := by decide
    total_int := by decide
    limit_int := by decide }

/-- A card with 16 cores of 256 threads under a limit of 50 percent. -/
def mluIntCard : IntContext :=
  { halfCard with
    accelerator := .mlu
    cores := 16
    threads := 256
    totalCores := 131072
    cores_nonneg := by decide
    threads_nonneg := by decide
    total_nonneg := by decide
    cores_int := by decide
    threads_int := by decide
    total_int := by decide
    limit_int := by decide }

/-- `cores_after` of `change_token`, wrapping. -/
def coresAfterWrapped (totalCores coresBefore share : Int) : Int :=
  if totalCores < wrap32 (coresBefore + share) then totalCores else wrap32 (coresBefore + share)

variable {τ : Type} [DecidableEq τ]

/-- One transition in wrapping integers, `none` when the thread is not at that point. -/
def wrappedStep (ctx : IntContext) (state : State τ) : Action τ → Option (State τ)
  | .prologue => step ctx.toContext state .prologue
  | .tick uti =>
      match state.control with
      | .wait share =>
          let value := ctx.deltaWrapped state.totalCores uti.toInt32.toInt share
          -- the low-utilisation branch keeps the old share and stores the value itself
          if ctx.lowUtilisation uti then some { state with control := .store share value }
          else some { state with control := .load value }
      | _ => none
  | .store => step ctx.toContext state .store
  | .load => step ctx.toContext state .load
  | .cas =>
      match state.control with
      | .cas share coresBefore =>
          if state.curCores = coresBefore then
            some { state with
              curCores := coresAfterWrapped state.totalCores coresBefore share
              control := .wait share
              grants := state.grants ++
                [⟨share, coresBefore, coresAfterWrapped state.totalCores coresBefore share⟩] }
          else some { state with control := .load share }
      | _ => none
  -- the argument of `rate_limiter` is an `int`
  | .call thread kernelSize =>
      if signed32 kernelSize then step ctx.toContext state (.call thread kernelSize) else none
  | .check thread => step ctx.toContext state (.check thread)
  | .commit thread =>
      match state.launches thread with
      | .cas kernelSize beforeCores =>
          if state.curCores = beforeCores then
            some { state.setLaunch thread .idle with
              curCores := wrap32 (beforeCores - kernelSize)
              admitted := state.admitted ++ [⟨kernelSize, beforeCores⟩] }
          else some (state.setLaunch thread (.check kernelSize))
      | _ => none

/-! ## Steps in range -/

/-- No operation of the delta function overflows in a tick at this utilisation. -/
def Control.TickInRange (ctx : Context) (totalCores userCurrent : Int) : Control → Prop
  | .wait share => (ctx.deltaChecked totalCores userCurrent share).isSome
  | _ => True

/-- The sum that `change_token` is about to swap in does not overflow. -/
def Control.SwapInRange : Control → Prop
  | .cas share coresBefore => signed32 (coresBefore + share)
  | _ => True

/-- The difference that `rate_limiter` is about to swap in does not overflow. -/
def Launch.SwapInRange : Launch → Prop
  | .cas kernelSize beforeCores => signed32 (beforeCores - kernelSize)
  | _ => True

/-- No operation of a delta function overflows in the step. -/
def TickInRange (ctx : Context) (state : State τ) : Action τ → Prop
  | .tick uti => state.control.TickInRange ctx state.totalCores uti.toInt32.toInt
  | _ => True

/-- No operation of `change_token` and of `rate_limiter` overflows in the step. -/
def SwapInRange (state : State τ) : Action τ → Prop
  | .cas => state.control.SwapInRange
  | .commit thread => (state.launches thread).SwapInRange
  | _ => True

instance (ctx : Context) (totalCores userCurrent : Int) :
    ∀ control : Control, Decidable (control.TickInRange ctx totalCores userCurrent)
  | .wait _ => inferInstanceAs (Decidable (_ = true))
  | .start | .store _ _ | .load _ | .cas _ _ => .isTrue trivial

instance : ∀ control : Control, Decidable control.SwapInRange
  | .cas _ _ => inferInstanceAs (Decidable (signed32 _))
  | .start | .wait _ | .store _ _ | .load _ => .isTrue trivial

instance : ∀ launch : Launch, Decidable launch.SwapInRange
  | .cas _ _ => inferInstanceAs (Decidable (signed32 _))
  | .idle | .check _ => .isTrue trivial

instance (ctx : Context) (state : State τ) :
    ∀ action : Action τ, Decidable (TickInRange ctx state action)
  | .tick _ => inferInstanceAs (Decidable (Control.TickInRange _ _ _ _))
  | .prologue | .store | .load | .cas | .call _ _ | .check _ | .commit _ => .isTrue trivial

instance (state : State τ) : ∀ action : Action τ, Decidable (SwapInRange state action)
  | .cas => inferInstanceAs (Decidable (Control.SwapInRange _))
  | .commit _ => inferInstanceAs (Decidable (Launch.SwapInRange _))
  | .prologue | .tick _ | .store | .load | .call _ _ | .check _ => .isTrue trivial

/-- The delta function of a tick in range is the exact one. -/
theorem delta_wrapped_of_tick {ctx : Context} {totalCores userCurrent share : Int}
    (h : (Control.wait share).TickInRange ctx totalCores userCurrent) :
    ctx.deltaWrapped totalCores userCurrent share = ctx.delta totalCores userCurrent share := by
  obtain ⟨value, hvalue⟩ := Option.isSome_iff_exists.mp h
  unfold Context.deltaChecked at hvalue
  unfold Context.deltaWrapped Context.delta
  cases haccelerator : ctx.accelerator with
  | mlu | gpu =>
      rw [haccelerator] at hvalue
      have hboth := delta_of_checked hvalue
      exact hboth.1.trans hboth.2.symm

/-- A call of `rate_limiter` is the call in exact integers. -/
theorem step_of_wrapped_call {ctx : IntContext} {state next : State τ} {thread : τ}
    {kernelSize : Int} (hstep : wrappedStep ctx state (.call thread kernelSize) = some next) :
    step ctx.toContext state (.call thread kernelSize) = some next := by
  simp only [wrappedStep] at hstep
  split at hstep
  · exact hstep
  · cases hstep

/-- A step in range is a step in exact integers. -/
theorem wrapped_step_eq {ctx : IntContext} {state next : State τ} {action : Action τ}
    (htick : TickInRange ctx.toContext state action) (hswap : SwapInRange state action)
    (hstep : wrappedStep ctx state action = some next) :
    step ctx.toContext state action = some next := by
  cases action with
  | prologue | store | load | check => exact hstep
  | call => exact step_of_wrapped_call hstep
  | tick uti =>
      cases hcontrol : state.control with
      | wait share =>
          simp only [TickInRange, hcontrol] at htick
          simpa only [wrappedStep, step, hcontrol, delta_wrapped_of_tick htick] using hstep
      | start | store | load | cas => simp [wrappedStep, hcontrol] at hstep
  | cas =>
      cases hcontrol : state.control with
      | cas share coresBefore =>
          simp only [SwapInRange, hcontrol, Control.SwapInRange] at hswap
          simpa only [wrappedStep, step, hcontrol, coresAfterWrapped, coresAfter,
            wrap32_eq_iff.mpr hswap] using hstep
      | start | wait | store | load => simp [wrappedStep, hcontrol] at hstep
  | commit thread =>
      cases hlaunch : state.launches thread with
      | cas kernelSize beforeCores =>
          simp only [SwapInRange, hlaunch, Launch.SwapInRange] at hswap
          simpa only [wrappedStep, step, hlaunch, wrap32_eq_iff.mpr hswap] using hstep
      | idle | check => simp [wrappedStep, hlaunch] at hstep

/-- In a step whose tick is in range, the controller moves as in exact integers, whatever its swap
does to `cur_cores`. -/
theorem exact_control_of_wrapped {ctx : IntContext} {state next : State τ} {action : Action τ}
    (htick : TickInRange ctx.toContext state action)
    (hstep : wrappedStep ctx state action = some next) :
    ∃ exact, step ctx.toContext state action = some exact ∧ exact.control = next.control ∧
      exact.totalCores = next.totalCores := by
  cases action with
  | prologue | tick | store | load | call | check =>
      exact ⟨next, wrapped_step_eq htick trivial hstep, rfl, rfl⟩
  | cas =>
      cases hcontrol : state.control with
      | cas share coresBefore =>
          simp only [wrappedStep, hcontrol] at hstep
          simp only [step, hcontrol]
          split at hstep <;> cases hstep
          · rename_i hequal
            exact ⟨_, if_pos hequal, rfl, rfl⟩
          · rename_i hdiffer
            exact ⟨_, if_neg hdiffer, rfl, rfl⟩
      | start | wait | store | load => simp [wrappedStep, hcontrol] at hstep
  | commit thread =>
      cases hlaunch : state.launches thread with
      | cas kernelSize beforeCores =>
          simp only [wrappedStep, hlaunch] at hstep
          simp only [step, hlaunch]
          split at hstep <;> cases hstep
          · rename_i hequal
            exact ⟨_, if_pos hequal, rfl, rfl⟩
          · rename_i hdiffer
            exact ⟨_, if_neg hdiffer, rfl, rfl⟩
      | idle | check => simp [wrappedStep, hlaunch] at hstep

/-- A step whose tick is in range keeps the controller within the total. -/
theorem control_bounded_wrapped {ctx : IntContext} {state next : State τ} {action : Action τ}
    (h : ControlBounded ctx.toContext state) (htick : TickInRange ctx.toContext state action)
    (hstep : wrappedStep ctx state action = some next) : ControlBounded ctx.toContext next := by
  obtain ⟨exact, hexact, hcontrol, htotal⟩ := exact_control_of_wrapped htick hstep
  obtain ⟨hnonneg, hstarted, hstart, hlow, hhigh, hstore⟩ := control_bounded_step h hexact
  rw [hcontrol] at hstarted hstart hlow hhigh hstore
  rw [htotal] at hnonneg hstarted hstart hhigh hstore
  exact ⟨hnonneg, hstarted, hstart, hlow, hhigh, hstore⟩

/-! ## What a step does -/

/-- What a step does to `cur_cores` and the records: nothing, the plain store, a successful swap of
`change_token`, or a successful swap of `rate_limiter`. -/
inductive WrappedEffect (state next : State τ) : Action τ → Prop where
  | quiet (action) : NoWrite state action → next.curCores = state.curCores →
      next.grants = state.grants → next.admitted = state.admitted → WrappedEffect state next action
  | store (share value) : state.control = .store share value → next.curCores = value →
      next.grants = state.grants ++ [⟨value, state.curCores, value⟩] →
      next.admitted = state.admitted → WrappedEffect state next .store
  | grant (share) : state.control = .cas share state.curCores →
      next.curCores = coresAfterWrapped state.totalCores state.curCores share →
      next.grants = state.grants ++
        [⟨share, state.curCores, coresAfterWrapped state.totalCores state.curCores share⟩] →
      next.admitted = state.admitted → WrappedEffect state next .cas
  | admission (thread kernelSize) : state.launches thread = .cas kernelSize state.curCores →
      next.curCores = wrap32 (state.curCores - kernelSize) → next.grants = state.grants →
      next.admitted = state.admitted ++ [⟨kernelSize, state.curCores⟩] →
      WrappedEffect state next (.commit thread)

omit [DecidableEq τ] in
/-- A step that is one of `step` and is no swap has an effect of `step`. -/
theorem wrapped_effect_of_effect {ctx : Context} {state next : State τ} {action : Action τ}
    (hcas : action ≠ .cas) (hcommit : ∀ thread, action ≠ .commit thread)
    (h : Effect ctx state next action) : WrappedEffect state next action := by
  cases h with
  | quiet _ hquiet hcores _ hgrants hadmitted => exact .quiet _ hquiet hcores hgrants hadmitted
  | prologue _ hcores _ hgrants hadmitted => exact .quiet _ trivial hcores hgrants hadmitted
  | store share value hpoint hcores _ hgrants hadmitted =>
      exact .store share value hpoint hcores hgrants hadmitted
  | grant => exact absurd rfl hcas
  | admission thread => exact absurd rfl (hcommit thread)

/-- Every step has one of the four effects. -/
theorem wrapped_effect_of_step {ctx : IntContext} {state next : State τ} {action : Action τ}
    (hstep : wrappedStep ctx state action = some next) : WrappedEffect state next action := by
  cases action with
  | prologue | store | load | check =>
      exact wrapped_effect_of_effect nofun nofun
        (show Effect ctx.toContext state next _ from effect_of_step hstep)
  | call thread kernelSize =>
      have hexact := step_of_wrapped_call hstep
      exact wrapped_effect_of_effect nofun nofun (effect_of_step hexact)
  | tick uti =>
      simp only [wrappedStep] at hstep
      split at hstep
      · split at hstep <;> cases hstep <;> exact .quiet _ trivial rfl rfl rfl
      · cases hstep
  | cas =>
      simp only [wrappedStep] at hstep
      split at hstep
      · rename_i share coresBefore hpoint
        split at hstep <;> cases hstep
        · rename_i hequal
          subst hequal
          exact .grant share hpoint rfl rfl rfl
        · rename_i hdiffer
          refine .quiet _ (fun other heq => hdiffer ?_) rfl rfl rfl
          exact (Control.cas.inj (hpoint.symm.trans heq)).2.symm
      · cases hstep
  | commit thread =>
      simp only [wrappedStep] at hstep
      split at hstep
      · rename_i kernelSize beforeCores hpoint
        split at hstep <;> cases hstep
        · rename_i hequal
          subst hequal
          exact .admission thread kernelSize hpoint rfl rfl rfl
        · rename_i hdiffer
          refine .quiet _ (fun other heq => hdiffer ?_) rfl rfl rfl
          exact (Launch.cas.inj (hpoint.symm.trans heq)).2.symm
      · cases hstep

/-! ## The integers of a state -/

/-- The share, and the value that is about to be stored, are `int`s. -/
def Control.Ints : Control → Prop
  | .store share value => signed32 share ∧ signed32 value
  | control => signed32 control.share

/-- What the two variables and the controller hold are `int`s, and the total is not negative. -/
structure Ints (state : State τ) : Prop where
  cur : signed32 state.curCores
  total : signed32 state.totalCores
  total_nonneg : 0 ≤ state.totalCores
  control : state.control.Ints

/-- The share of a controller that holds `int`s is one. -/
theorem Control.Ints.share {control : Control} (h : control.Ints) : signed32 control.share := by
  cases control with
  | store => exact h.1
  | _ => exact h

/-- What the delta function returns is an `int`. -/
theorem signed32_context_delta {ctx : Context} {totalCores : Int} (h : signed32 totalCores)
    (userCurrent share : Int) : signed32 (ctx.deltaWrapped totalCores userCurrent share) := by
  unfold Context.deltaWrapped
  cases ctx.accelerator with
  | mlu | gpu => exact signed32_delta_wrapped h _ _ _ _ _ _

/-- What `change_token` writes is an `int`. -/
theorem signed32_cores_after {totalCores : Int} (h : signed32 totalCores)
    (coresBefore share : Int) : signed32 (coresAfterWrapped totalCores coresBefore share) := by
  unfold coresAfterWrapped
  split
  · exact h
  · exact signed32_wrap32 _

/-- Every step keeps the integers of the state `int`s. -/
theorem ints_step {ctx : IntContext} {state next : State τ} {action : Action τ} (h : Ints state)
    (hstep : wrappedStep ctx state action = some next) : Ints next := by
  obtain ⟨hcur, htotal, hnonneg, hcontrol⟩ := h
  have hshare := hcontrol.share
  cases action with
  | prologue =>
      simp only [wrappedStep, step] at hstep
      split at hstep <;> cases hstep
      exact ⟨hcur, ctx.total_int, ctx.total_nonneg, signed32_zero⟩
  | tick uti =>
      simp only [wrappedStep] at hstep
      split at hstep
      · rename_i share hpoint
        rw [hpoint] at hshare
        have hvalue : signed32
            (ctx.toContext.deltaWrapped state.totalCores uti.toInt32.toInt share) :=
          signed32_context_delta htotal _ _
        split at hstep <;> cases hstep
        · exact ⟨hcur, htotal, hnonneg, hshare, hvalue⟩
        · exact ⟨hcur, htotal, hnonneg, hvalue⟩
      · cases hstep
  | store =>
      simp only [wrappedStep, step] at hstep
      split at hstep <;> cases hstep
      rename_i hpoint
      rw [hpoint] at hcontrol
      exact ⟨hcontrol.2, htotal, hnonneg, hcontrol.1⟩
  | load =>
      simp only [wrappedStep, step] at hstep
      split at hstep <;> cases hstep
      rename_i hpoint
      rw [hpoint] at hshare
      exact ⟨hcur, htotal, hnonneg, hshare⟩
  | cas =>
      simp only [wrappedStep] at hstep
      split at hstep
      · rename_i share coresBefore hpoint
        rw [hpoint] at hshare
        split at hstep <;> cases hstep
        · exact ⟨signed32_cores_after htotal _ _, htotal, hnonneg, hshare⟩
        · exact ⟨hcur, htotal, hnonneg, hshare⟩
      · cases hstep
  | call thread kernelSize =>
      obtain ⟨-, rfl⟩ := launch_of_call (step_of_wrapped_call hstep)
      exact ⟨hcur, htotal, hnonneg, hcontrol⟩
  | check thread =>
      simp only [wrappedStep, step] at hstep
      split at hstep
      · split at hstep <;> cases hstep <;> exact ⟨hcur, htotal, hnonneg, hcontrol⟩
      · cases hstep
  | commit thread =>
      simp only [wrappedStep] at hstep
      split at hstep
      · split at hstep <;> cases hstep
        · exact ⟨signed32_wrap32 _, htotal, hnonneg, hcontrol⟩
        · exact ⟨hcur, htotal, hnonneg, hcontrol⟩
      · cases hstep

omit [DecidableEq τ] in
/-- The variables hold zero before anything has run. -/
theorem ints_initial : Ints (State.initial τ) :=
  ⟨signed32_zero, signed32_zero, le_refl _, signed32_zero⟩

/-! ## What a launching thread still owes -/

/-- The sizes that a thread inside `rate_limiter` is still to take from `cur_cores`. -/
def Launch.owed : Launch → List Int
  | .idle => []
  | .check kernelSize | .cas kernelSize _ => [kernelSize]

/-- A step of the controller moves no launching thread. -/
theorem launches_of_wrapped_controller {ctx : IntContext} {state next : State τ}
    {action : Action τ} (haction : action.ofController = true)
    (hstep : wrappedStep ctx state action = some next) : next.launches = state.launches := by
  cases action with
  | prologue | store | load =>
      simp only [wrappedStep, step] at hstep
      split at hstep <;> cases hstep
      rfl
  | tick | cas =>
      simp only [wrappedStep] at hstep
      split at hstep
      · split at hstep <;> cases hstep <;> rfl
      · cases hstep
  | call | check | commit => cases haction

/-- Passing `CHECK` moves the thread, which owes the same. -/
theorem launch_of_wrapped_check {ctx : IntContext} {state next : State τ} {thread : τ}
    (hstep : wrappedStep ctx state (.check thread) = some next) :
    (next.launches thread).owed = (state.launches thread).owed ∧
      ∀ other, other ≠ thread → next.launches other = state.launches other := by
  simp only [wrappedStep, step] at hstep
  split at hstep
  · rename_i kernelSize hpoint
    split at hstep <;> cases hstep
    · exact ⟨rfl, fun _ _ => rfl⟩
    · refine ⟨by simp [State.setLaunch, hpoint, Launch.owed], fun other hne => ?_⟩
      simp [State.setLaunch, Function.update_of_ne hne]
  · cases hstep

/-- What the swap of an admission has taken from `cur_cores`. -/
def Admission.taken (admission : Admission) : Int :=
  admission.before - wrap32 (admission.before - admission.kernelSize)

/-- A swap of `rate_limiter` that succeeds takes what its thread owes, and records it; one that
fails takes and records nothing. -/
theorem launch_of_wrapped_commit {ctx : IntContext} {state next : State τ} {thread : τ}
    (hstep : wrappedStep ctx state (.commit thread) = some next) :
    (∃ swaps, next.admitted = state.admitted ++ swaps ∧
        swaps.map Admission.kernelSize ++ (next.launches thread).owed =
          (state.launches thread).owed ∧
        state.curCores - next.curCores = (swaps.map Admission.taken).sum ∧
        ∀ swap ∈ swaps, swap.before = state.curCores) ∧
      ∀ other, other ≠ thread → next.launches other = state.launches other := by
  simp only [wrappedStep] at hstep
  split at hstep
  · rename_i kernelSize beforeCores hpoint
    split at hstep <;> cases hstep
    · rename_i hequal
      subst hequal
      refine ⟨⟨[⟨kernelSize, state.curCores⟩], rfl, ?_, ?_, by simp⟩, fun other hne => ?_⟩
      · simp [State.setLaunch, hpoint, Launch.owed]
      · simp [Admission.taken]
      · simp [State.setLaunch, Function.update_of_ne hne]
    · refine ⟨⟨[], by simp [State.setLaunch], ?_, by simp [State.setLaunch], by simp⟩,
        fun other hne => ?_⟩
      · simp [State.setLaunch, hpoint, Launch.owed]
      · simp [State.setLaunch, Function.update_of_ne hne]
  · cases hstep

end UniShare.Controller
