import UniShare.Controller.Monotone

/-!
# The controller settles

One pass through the loop of `source_control` as a function of its local `share` and of `cur_cores`,
with no launch in between and integers exact. `exec_tick` connects it to the machine of `PcAlg`.
Every tick at or below the limit pays back the debt of the bucket by at least the smallest step, and
every tick above the limit takes at least that step from the share.
-/

namespace UniShare.Controller

open Lib

/-- The divisor of the accelerator's delta function. -/
def Context.divisor (ctx : Context) : Int :=
  match ctx.accelerator with
  | .mlu => 256
  | .gpu => 2560

/-- The increment at the floor of the distance, before any rescaling. -/
def Context.smallestStep (ctx : Context) : Int :=
  ctx.cores * ctx.cores * ctx.threads * 5 / ctx.divisor

/-- What a control tick reads and writes: the local `share`, and `cur_cores`. -/
structure Level where
  share : Int
  curCores : Int
  deriving DecidableEq, Repr

/-- The ranges that the machine keeps. -/
structure Level.Within (ctx : Context) (level : Level) : Prop where
  share_nonneg : 0 ≤ level.share
  share_le : level.share ≤ ctx.totalCores
  cores_le : level.curCores ≤ ctx.totalCores

/-- One pass through the loop of `source_control`. Below a tenth of the limit it stores the value in
`cur_cores` and keeps the share, otherwise it grants the new share through `change_token`. -/
def Context.tick (ctx : Context) (level : Level) (uti : Int) : Level :=
  let value := ctx.delta ctx.totalCores uti level.share
  if uti < ctx.yamlLimit.tdiv 10 then ⟨level.share, value⟩
  else ⟨value, coresAfter ctx.totalCores level.curCores value⟩

/-- The passes of the loop for a sequence of utilisation samples. -/
def Context.ticks (ctx : Context) (level : Level) (samples : List Int) : Level :=
  samples.foldl ctx.tick level

/-- How many moves by `step` cover an amount: the quotient rounded up. -/
def movesFor (amount step : Int) : Nat :=
  ((amount + step - 1) / step).toNat

/-- That many moves cover the amount. -/
theorem amount_le_moves {amount step : Int} (hstep : 0 < step) {count : Nat}
    (hcount : movesFor amount step ≤ count) : amount ≤ count * step := by
  have hquotient : (amount + step - 1) / step ≤ (count : Int) := by
    unfold movesFor at hcount
    omega
  have hround := Int.lt_ediv_add_one_mul_self (amount + step - 1) hstep
  have hmono := Int.mul_le_mul_of_nonneg_right hquotient hstep.le
  rw [Int.add_mul, Int.one_mul] at hround
  omega

/-! ## One tick -/

/-- The delta function of the accelerator is the common body at its divisor. -/
theorem Context.delta_eq (ctx : Context) (totalCores userCurrent share : Int) :
    ctx.delta totalCores userCurrent share =
      Controller.delta ctx.cores ctx.threads ctx.divisor totalCores ctx.yamlLimit userCurrent
        share := by
  unfold Context.delta Context.divisor
  cases ctx.accelerator <;> rfl

/-- Both divisors are positive. -/
theorem Context.divisor_pos (ctx : Context) : 0 < ctx.divisor := by
  unfold Context.divisor
  cases ctx.accelerator <;> decide

/-- Every increment is at least the smallest step. -/
theorem Context.smallest_step_le (ctx : Context) (userCurrent : Int) :
    ctx.smallestStep ≤
      increment ctx.cores ctx.threads ctx.divisor ctx.yamlLimit userCurrent := by
  have hfive := five_le_utilization_diff ctx.yamlLimit userCurrent
  have hproduct : 0 ≤ ctx.cores * ctx.cores * ctx.threads * 5 :=
    Int.mul_nonneg (Int.mul_nonneg (mul_self_nonneg _) ctx.threads_nonneg) (by decide)
  calc ctx.smallestStep
      = (ctx.cores * ctx.cores * ctx.threads * 5).tdiv ctx.divisor := by
        rw [Int.tdiv_eq_ediv_of_nonneg hproduct, Context.smallestStep]
    _ ≤ (ctx.cores * ctx.cores * ctx.threads *
          utilizationDiff ctx.yamlLimit userCurrent).tdiv ctx.divisor :=
        base_mono ctx.cores ctx.threads_nonneg ctx.divisor_pos hfive
    _ ≤ increment ctx.cores ctx.threads ctx.divisor ctx.yamlLimit userCurrent :=
        base_le_increment_at ctx.threads_nonneg ctx.divisor_pos ctx.limit_nonneg (by omega)

/-- A tick keeps the ranges. -/
theorem Context.tick_within (ctx : Context) {level : Level} (h : level.Within ctx) (uti : Int) :
    (ctx.tick level uti).Within ctx := by
  have hbounds := ctx.delta_bounds h.share_nonneg h.share_le uti
  unfold Context.tick
  dsimp only
  split
  · exact ⟨h.share_nonneg, h.share_le, hbounds.2⟩
  · exact ⟨hbounds.1, hbounds.2, cores_after_le _ _ _⟩

/-- A tick at or below the limit pays back at least the smallest step, or the whole total, until the
debt is gone. Both branches of the loop do: the plain store leaves no debt at all. -/
theorem Context.tick_repays (ctx : Context) {level : Level} (h : level.Within ctx) {uti : Int}
    (huti : uti ≤ ctx.yamlLimit) :
    min 0 (level.curCores + min ctx.smallestStep ctx.totalCores) ≤
      (ctx.tick level uti).curCores := by
  have hbounds := ctx.delta_bounds h.share_nonneg h.share_le uti
  have hstep := ctx.smallest_step_le uti
  have hshare := h.share_nonneg
  unfold Context.tick
  dsimp only
  split
  · exact le_trans (min_le_left _ _) hbounds.1
  · have hvalue : min ctx.smallestStep ctx.totalCores ≤
        ctx.delta ctx.totalCores uti level.share := by
      rw [ctx.delta_eq, delta_of_le _ _ huti]
      omega
    have htotal := ctx.total_nonneg
    dsimp only [coresAfter]
    split <;> omega

/-- A tick above the limit takes at least the smallest step from the share, down to zero. -/
theorem Context.tick_lowers (ctx : Context) (level : Level) {uti : Int}
    (huti : ctx.yamlLimit < uti) :
    (ctx.tick level uti).share ≤ max 0 (level.share - ctx.smallestStep) := by
  have hstep := ctx.smallest_step_le uti
  have htenth : ¬ uti < ctx.yamlLimit.tdiv 10 := by
    have := Int.tdiv_le_self 10 ctx.limit_nonneg
    omega
  unfold Context.tick
  dsimp only
  rw [if_neg htenth, ctx.delta_eq, delta_of_lt _ _ huti]
  dsimp only
  omega

/-! ## Sequences of ticks -/

/-- The ranges hold after any sequence of ticks. -/
theorem Context.ticks_within (ctx : Context) {level : Level} (h : level.Within ctx)
    (samples : List Int) : (ctx.ticks level samples).Within ctx := by
  induction samples generalizing level with
  | nil => exact h
  | cons uti rest ih => exact ih (ctx.tick_within h uti)

/-- The debt left after a sequence of ticks at or below the limit. -/
theorem Context.ticks_repay (ctx : Context) (hstep : 0 ≤ ctx.smallestStep) {level : Level}
    (h : level.Within ctx) {samples : List Int} (hsamples : ∀ uti ∈ samples, uti ≤ ctx.yamlLimit) :
    min 0 (level.curCores + samples.length * min ctx.smallestStep ctx.totalCores) ≤
      (ctx.ticks level samples).curCores := by
  induction samples generalizing level with
  | nil =>
      simp only [Context.ticks, List.foldl_nil, List.length_nil]
      omega
  | cons uti rest ih =>
      have hhead := ctx.tick_repays h (hsamples uti (by simp))
      have htail := ih (ctx.tick_within h uti) fun other hother =>
        hsamples other (List.mem_cons_of_mem _ hother)
      have hmove : 0 ≤ (rest.length : Int) * min ctx.smallestStep ctx.totalCores :=
        Int.mul_nonneg (by omega) (le_min hstep ctx.total_nonneg)
      rw [List.length_cons, Nat.cast_succ, Int.add_mul, Int.one_mul]
      exact le_trans (by omega) htail

/-- The share left after a sequence of ticks above the limit. -/
theorem Context.ticks_lower (ctx : Context) (hstep : 0 ≤ ctx.smallestStep) {level : Level}
    (h : level.Within ctx) {samples : List Int} (hsamples : ∀ uti ∈ samples, ctx.yamlLimit < uti) :
    (ctx.ticks level samples).share ≤
      max 0 (level.share - samples.length * ctx.smallestStep) := by
  induction samples generalizing level with
  | nil =>
      simp only [Context.ticks, List.foldl_nil, List.length_nil]
      omega
  | cons uti rest ih =>
      have hhead := ctx.tick_lowers level (hsamples uti (by simp))
      have htail := ih (ctx.tick_within h uti) fun other hother =>
        hsamples other (List.mem_cons_of_mem _ hother)
      have hmove : 0 ≤ (rest.length : Int) * ctx.smallestStep := Int.mul_nonneg (by omega) hstep
      rw [List.length_cons, Nat.cast_succ, Int.add_mul, Int.one_mul]
      exact le_trans htail (by omega)

/-! ## The machine -/

variable {τ : Type} [DecidableEq τ]

/-- For a limit that fits into an `int`, the unsigned comparison is the exact one. -/
theorem Context.low_utilisation_iff (ctx : Context) (hlimit : ctx.yamlLimit < 2 ^ 31)
    (uti : UInt32) : ctx.lowUtilisation uti ↔ (uti.toNat : Int) < ctx.yamlLimit.tdiv 10 := by
  have hnonneg : 0 ≤ ctx.yamlLimit.tdiv 10 := Int.tdiv_nonneg ctx.limit_nonneg (by decide)
  have hle := Int.tdiv_le_self 10 ctx.limit_nonneg
  unfold Context.lowUtilisation
  rw [UInt32.lt_iff_toNat_lt, UInt32.ofInt, UInt32.toNat_ofNat']
  omega

/-- A sample that fits into an `int` keeps its value. -/
theorem toInt_sample {uti : UInt32} (huti : uti.toNat < 2 ^ 31) :
    uti.toInt32.toInt = uti.toNat := by
  rw [← Int32.toInt_toBitVec, UInt32.toBitVec_toInt32]
  exact BitVec.toInt_eq_toNat_of_lt (by rw [uti.toNat_toBitVec]; omega)

/-- Without a launch in between, the controller's steps for one sample are one tick. -/
theorem exec_tick {ctx : Context} (hlimit : ctx.yamlLimit < 2 ^ 31) {state : State τ} {share : Int}
    (hwait : state.control = .wait share) (htotal : state.totalCores = ctx.totalCores)
    {uti : UInt32} (huti : uti.toNat < 2 ^ 31) :
    ∃ actions final, (∀ action ∈ actions, action.ofController = true) ∧
      exec (step ctx) state actions = some final ∧
      final.control = .wait (ctx.tick ⟨share, state.curCores⟩ uti.toNat).share ∧
      final.curCores = (ctx.tick ⟨share, state.curCores⟩ uti.toNat).curCores ∧
      final.totalCores = ctx.totalCores ∧ final.launches = state.launches := by
  have hlow := ctx.low_utilisation_iff hlimit uti
  let value := ctx.delta ctx.totalCores uti.toNat share
  by_cases htenth : (uti.toNat : Int) < ctx.yamlLimit.tdiv 10
  · have htick : step ctx state (.tick uti) =
        some { state with control := .store share value } := by
      simp only [step, hwait, if_pos (hlow.mpr htenth), toInt_sample huti, htotal, value]
    refine ⟨[.tick uti, .store], { state with
      curCores := value
      control := .wait share
      grants := state.grants ++ [⟨value, state.curCores, value⟩] },
      by simp [Action.ofController], ?_, ?_⟩
    · rw [exec, htick]
      rfl
    · simp [Context.tick, if_pos htenth, htotal, value]
  · have htick : step ctx state (.tick uti) = some { state with control := .load value } := by
      simp only [step, hwait, if_neg (mt hlow.mp htenth), toInt_sample huti, htotal, value]
    let after := coresAfter state.totalCores state.curCores value
    refine ⟨[.tick uti, .load, .cas], { state with
      curCores := after
      control := .wait value
      grants := state.grants ++ [⟨value, state.curCores, after⟩] },
      by simp [Action.ofController], ?_, ?_⟩
    · rw [exec, htick]
      simp [exec, step, after]
    · simp [Context.tick, if_neg htenth, htotal, value, after]

/-- A launch that spins in `rate_limiter` passes its check once there is no debt. -/
theorem check_released (ctx : Context) {state : State τ} {thread : τ} {kernelSize : Int}
    (hspin : state.launches thread = .check kernelSize) (hcores : 0 ≤ state.curCores) :
    step ctx state (.check thread) =
      some (state.setLaunch thread (.cas kernelSize state.curCores)) := by
  simp only [step, hspin, if_neg (show ¬ state.curCores < 0 by omega)]

/-! ## The settling times -/

/-- The controller settles and never deadlocks launches. Once enough samples at or below the limit
have repaid the debt, every spinning launch is released; once enough samples above it have come, the
share is zero. -/
theorem controller_settles (ctx : Context) (htotal : 1 ≤ ctx.totalCores)
    (hstep : 1 ≤ ctx.smallestStep) (level : Level) (hwithin : level.Within ctx)
    (samples : List Int) :
    ((∀ uti ∈ samples, uti ≤ ctx.yamlLimit) →
      movesFor (max 0 (-level.curCores)) (min ctx.smallestStep ctx.totalCores) ≤ samples.length →
      0 ≤ (ctx.ticks level samples).curCores ∧
        ∀ (τ : Type) [DecidableEq τ] (state : State τ) (thread : τ) (kernelSize : Int),
          state.curCores = (ctx.ticks level samples).curCores →
          state.launches thread = .check kernelSize →
          step ctx state (.check thread) =
            some (state.setLaunch thread (.cas kernelSize state.curCores))) ∧
    ((∀ uti ∈ samples, ctx.yamlLimit < uti) →
      movesFor level.share ctx.smallestStep ≤ samples.length →
      (ctx.ticks level samples).share = 0) := by
  constructor
  · intro hsamples hcount
    have hrepaid := ctx.ticks_repay (by omega) hwithin hsamples
    have hcovered := amount_le_moves (show 0 < min ctx.smallestStep ctx.totalCores by omega) hcount
    have hcores : 0 ≤ (ctx.ticks level samples).curCores := le_trans (by omega) hrepaid
    exact ⟨hcores, fun _ _ state thread kernelSize hequal hspin =>
      check_released ctx hspin (hequal ▸ hcores)⟩
  · intro hsamples hcount
    have hlowered := ctx.ticks_lower (by omega) hwithin hsamples
    have hcovered := amount_le_moves (show 0 < ctx.smallestStep by omega) hcount
    have hnonneg := (ctx.ticks_within hwithin samples).share_nonneg
    omega

/-- On the half card, a debt of 6500 is gone after three ticks at 20 percent load. -/
theorem controller_settles_half : 0 ≤ (halfCard.ticks ⟨0, -6500⟩ [20, 20, 20]).curCores :=
  ((controller_settles halfCard (by decide) (by decide) ⟨0, -6500⟩
    ⟨by decide, by decide, by decide⟩ [20, 20, 20]).1 (by decide) (by decide)).1

end UniShare.Controller
