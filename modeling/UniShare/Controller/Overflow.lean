import UniShare.Controller.Monotone
import UniShare.Lib.Int32

/-!
# The rate controller in 32-bit integers

`delta_for_mlu` and `delta_for_gpu` of `core/controller/pc_alg.c` with every operation checked
against the range of `int`, in the order in which the source evaluates them. `InRange` is the region
of inputs in which no operation overflows.
-/

namespace UniShare.Controller

open Lib

/-- `utilization_diff`, with its subtraction and its absolute value checked. -/
def utilizationDiffChecked (upLimit userCurrent : Int) : Option Int := do
  let distance ← checked (upLimit - userCurrent)
  let magnitude ← checked |distance|
  if magnitude < 5 then some 5 else some magnitude

/-- `increment`, with its products, sums and quotients checked. -/
def incrementChecked (cores threads divisor upLimit diff : Int) : Option Int := do
  let square ← checked (cores * cores)
  let perPercent ← checked (square * threads)
  let product ← checked (perPercent * diff)
  let base ← quotient product divisor
  let half ← quotient upLimit 2
  if half < diff then do
    let scaled ← checked (base * diff)
    let doubled ← checked (scaled * 2)
    let bound ← checked (upLimit + 1)
    quotient doubled bound
  else some base

/-- The common body of the two delta functions, with every operation checked. -/
def deltaChecked (cores threads divisor totalCores upLimit userCurrent share : Int) :
    Option Int := do
  let diff ← utilizationDiffChecked upLimit userCurrent
  let step ← incrementChecked cores threads divisor upLimit diff
  if userCurrent ≤ upLimit then do
    let sum ← checked (share + step)
    if totalCores < sum then some totalCores else some sum
  else do
    let rest ← checked (share - step)
    if rest < 0 then some 0 else some rest

/-- `delta_for_mlu` in 32-bit integers. -/
def deltaForMluChecked
    (cardCoreCount cardThreadPreCore totalCores upLimit userCurrent share : Int) :
    Option Int :=
  deltaChecked cardCoreCount cardThreadPreCore 256 totalCores upLimit userCurrent share

/-- `delta_for_gpu` in 32-bit integers. -/
def deltaForGpuChecked (smNum maxThreadPerSm totalCores upLimit userCurrent share : Int) :
    Option Int :=
  deltaChecked smNum maxThreadPerSm 2560 totalCores upLimit userCurrent share

/-- The inputs on which no operation overflows: the product under the first division, the product
under the second one when the distance exceeds half of the limit, and the raised share when the
utilisation does not exceed the limit. -/
def InRange (cores threads divisor upLimit userCurrent share : Int) : Prop :=
  let diff := max 5 |upLimit - userCurrent|
  let base := cores * cores * threads * diff / divisor
  cores * cores < 2 ^ 31 ∧ cores * cores * threads * diff < 2 ^ 31 ∧
    (upLimit < 2 * diff → base * diff * 2 < 2 ^ 31 ∧
      (userCurrent ≤ upLimit → share + base * diff * 2 / (upLimit + 1) < 2 ^ 31)) ∧
    (2 * diff ≤ upLimit → userCurrent ≤ upLimit → share + base < 2 ^ 31)

instance (cores threads divisor upLimit userCurrent share : Int) :
    Decidable (InRange cores threads divisor upLimit userCurrent share) :=
  inferInstanceAs (Decidable (_ ∧ _))

/-- The inputs a controller can receive: a device whose total core count is an `int`, a percentage
as limit, a utilisation of at most 1000, and a share of the total. -/
structure Received (cores threads upLimit userCurrent share : Int) : Prop where
  cores_nonneg : 0 ≤ cores
  threads_nonneg : 0 ≤ threads
  total_lt : cores * threads * 32 < 2 ^ 31
  limit_nonneg : 0 ≤ upLimit
  limit_le : upLimit ≤ 100
  user_nonneg : 0 ≤ userCurrent
  user_le : userCurrent ≤ 1000
  share_nonneg : 0 ≤ share
  share_le : share ≤ cores * threads * 32

/-! ## The distance and the step -/

/-- The distance of a received pair never overflows. -/
theorem utilization_diff_checked {upLimit userCurrent : Int} (hlimit : 0 ≤ upLimit)
    (hlimitle : upLimit ≤ 100) (huser : 0 ≤ userCurrent) (huserle : userCurrent ≤ 1000) :
    utilizationDiffChecked upLimit userCurrent = some (utilizationDiff upLimit userCurrent) := by
  unfold utilizationDiffChecked
  simp only [Option.bind_eq_bind]
  rw [checked_bind_eq_some, checked_bind_eq_some]
  have hdistance : |upLimit - userCurrent| ≤ 1000 := abs_le.mpr ⟨by omega, by omega⟩
  refine ⟨(signed32_iff _).mpr ⟨by omega, by omega⟩, ?_, ?_⟩
  · exact (signed32_of_nonneg (abs_nonneg _)).mpr (by omega)
  · unfold utilizationDiff
    split <;> rfl

/-- The distance exceeds half of the limit when its double exceeds the limit. -/
theorem half_lt_iff {upLimit diff : Int} (hlimit : 0 ≤ upLimit) :
    upLimit.tdiv 2 < diff ↔ upLimit < 2 * diff := by
  rw [Int.tdiv_eq_ediv_of_nonneg hlimit]
  omega

/-- The step has a value exactly when its two products are in range, and the value is exact. -/
theorem increment_checked_iff {cores threads divisor upLimit diff result : Int}
    (hthreads : 0 ≤ threads) (hdivisor : 0 < divisor) (hlimit : 0 ≤ upLimit)
    (hlimitle : upLimit ≤ 100) (hdiff : 5 ≤ diff) :
    incrementChecked cores threads divisor upLimit diff = some result ↔
      (cores * cores < 2 ^ 31 ∧ cores * cores * threads * diff < 2 ^ 31 ∧
        (upLimit < 2 * diff →
          (cores * cores * threads * diff).tdiv divisor * diff * 2 < 2 ^ 31)) ∧
        incrementAt cores threads divisor upLimit diff = result := by
  have hsquare : 0 ≤ cores * cores := mul_self_nonneg cores
  have hpercent : 0 ≤ cores * cores * threads := Int.mul_nonneg hsquare hthreads
  have hgrow : cores * cores * threads ≤ cores * cores * threads * diff :=
    le_mul_of_one_le_right hpercent (by omega)
  have hproduct : 0 ≤ cores * cores * threads * diff := hpercent.trans hgrow
  have hbase : 0 ≤ (cores * cores * threads * diff).tdiv divisor :=
    Int.tdiv_nonneg hproduct hdivisor.le
  have hbasele := Int.tdiv_le_self divisor hproduct
  have hhalf : 0 ≤ upLimit.tdiv 2 := Int.tdiv_nonneg hlimit (by decide)
  have hhalfle := Int.tdiv_le_self 2 hlimit
  unfold incrementChecked incrementAt
  simp only [Option.bind_eq_bind, checked_bind_eq_some, quotient_bind_eq_some,
    signed32_of_nonneg hsquare, signed32_of_nonneg hpercent, signed32_of_nonneg hproduct,
    signed32_of_nonneg hbase, signed32_of_nonneg hhalf]
  by_cases hscaled : upLimit.tdiv 2 < diff
  · have htwice := (half_lt_iff hlimit).mp hscaled
    generalize (cores * cores * threads * diff).tdiv divisor = base at *
    have hmul : 0 ≤ base * diff := Int.mul_nonneg hbase (by omega)
    have hdouble : 0 ≤ base * diff * 2 := by omega
    have hquotient : 0 ≤ (base * diff * 2).tdiv (upLimit + 1) :=
      Int.tdiv_nonneg hdouble (by omega)
    have hquotientle := Int.tdiv_le_self (upLimit + 1) hdouble
    simp only [if_pos hscaled, checked_bind_eq_some, quotient_eq_some, signed32_of_nonneg hmul,
      signed32_of_nonneg hdouble, signed32_of_nonneg hquotient,
      signed32_of_nonneg (show 0 ≤ upLimit + 1 by omega)]
    omega
  · have htwice := mt (half_lt_iff hlimit).mpr hscaled
    simp only [if_neg hscaled, Option.some.injEq]
    omega

/-- A step whose products are in range is in range. -/
theorem increment_at_lt {cores threads divisor upLimit diff : Int} (hthreads : 0 ≤ threads)
    (hdivisor : 0 < divisor) (hlimit : 0 ≤ upLimit) (hdiff : 0 ≤ diff)
    (hproduct : cores * cores * threads * diff < 2 ^ 31)
    (hdouble : upLimit < 2 * diff →
      (cores * cores * threads * diff).tdiv divisor * diff * 2 < 2 ^ 31) :
    incrementAt cores threads divisor upLimit diff < 2 ^ 31 := by
  have hnonneg : 0 ≤ cores * cores * threads * diff :=
    Int.mul_nonneg (Int.mul_nonneg (mul_self_nonneg cores) hthreads) hdiff
  have hbase := base_nonneg cores hthreads hdivisor hdiff
  unfold incrementAt
  dsimp only
  split
  · rename_i hscaled
    have hscale := Int.mul_nonneg (Int.mul_nonneg hbase hdiff) (show (0 : Int) ≤ 2 by decide)
    exact lt_of_le_of_lt (Int.tdiv_le_self _ hscale) (hdouble ((half_lt_iff hlimit).mp hscaled))
  · exact lt_of_le_of_lt (Int.tdiv_le_self _ hnonneg) hproduct

/-! ## One tick -/

/-- `InRange` in terms of the step: its products are in range, and so is the raised share. -/
theorem in_range_iff {cores threads divisor upLimit userCurrent share diff : Int}
    (hthreads : 0 ≤ threads) (hdivisor : 0 < divisor) (hlimit : 0 ≤ upLimit)
    (hdiff : utilizationDiff upLimit userCurrent = diff) :
    InRange cores threads divisor upLimit userCurrent share ↔
      (cores * cores < 2 ^ 31 ∧ cores * cores * threads * diff < 2 ^ 31 ∧
        (upLimit < 2 * diff →
          (cores * cores * threads * diff).tdiv divisor * diff * 2 < 2 ^ 31)) ∧
        (userCurrent ≤ upLimit →
          share + incrementAt cores threads divisor upLimit diff < 2 ^ 31) := by
  have hfive : 5 ≤ diff := hdiff ▸ five_le_utilization_diff upLimit userCurrent
  have hproduct : 0 ≤ cores * cores * threads * diff :=
    Int.mul_nonneg (Int.mul_nonneg (mul_self_nonneg cores) hthreads) (by omega)
  have hbase := base_nonneg cores hthreads hdivisor (show 0 ≤ diff by omega)
  have hdouble := Int.mul_nonneg (Int.mul_nonneg hbase (show 0 ≤ diff by omega))
    (show (0 : Int) ≤ 2 by decide)
  unfold InRange incrementAt
  dsimp only
  rw [← utilization_diff_eq_max, hdiff, ← Int.tdiv_eq_ediv_of_nonneg hproduct,
    ← Int.tdiv_eq_ediv_of_nonneg hdouble]
  by_cases hscaled : upLimit.tdiv 2 < diff
  · have htwice := (half_lt_iff hlimit).mp hscaled
    rw [if_pos hscaled]
    omega
  · have htwice := mt (half_lt_iff hlimit).mpr hscaled
    rw [if_neg hscaled]
    omega

/-- The end of a tick has a value exactly when the raised share is in range, and it is exact. -/
theorem clamp_checked_iff {totalCores upLimit userCurrent share step result : Int}
    (hlow : 0 ≤ share) (hshare : share < 2 ^ 31) (hstep : 0 ≤ step) (hsteplt : step < 2 ^ 31) :
    (if userCurrent ≤ upLimit then
        (checked (share + step)).bind fun sum =>
          if totalCores < sum then some totalCores else some sum
      else
        (checked (share - step)).bind fun rest => if rest < 0 then some 0 else some rest) =
        some result ↔
      (userCurrent ≤ upLimit → share + step < 2 ^ 31) ∧
        (if userCurrent ≤ upLimit then
            if totalCores < share + step then totalCores else share + step
          else if share - step < 0 then 0 else share - step) = result := by
  by_cases hbelow : userCurrent ≤ upLimit
  · rw [if_pos hbelow, if_pos hbelow, checked_bind_eq_some, ← apply_ite some, Option.some.injEq,
      signed32_of_nonneg (show 0 ≤ share + step by omega), forall_prop_of_true hbelow]
  · have hrange : signed32 (share - step) := (signed32_iff _).mpr ⟨by omega, by omega⟩
    rw [if_neg hbelow, if_neg hbelow, checked_bind_eq_some, ← apply_ite some, Option.some.injEq,
      and_iff_right hrange, and_iff_right fun hle => absurd hle hbelow]

/-- The checked tick has a value exactly in range, and it is the value of the exact tick. -/
theorem delta_checked_iff {cores threads divisor upLimit userCurrent share result : Int}
    (hdivisor : 0 < divisor) (h : Received cores threads upLimit userCurrent share) :
    deltaChecked cores threads divisor (cores * threads * 32) upLimit userCurrent share =
        some result ↔
      InRange cores threads divisor upLimit userCurrent share ∧
        delta cores threads divisor (cores * threads * 32) upLimit userCurrent share = result := by
  obtain ⟨hcores, hthreads, htotal, hlimit, hlimitle, huser, huserle, hlow, hhigh⟩ := h
  have hfive := five_le_utilization_diff upLimit userCurrent
  have hstep := increment_nonneg hcores hthreads hdivisor.le hlimit userCurrent
  rw [increment_eq_increment_at] at hstep
  rw [in_range_iff hthreads hdivisor hlimit rfl]
  unfold deltaChecked delta
  simp only [Option.bind_eq_bind]
  rw [utilization_diff_checked hlimit hlimitle huser huserle, increment_eq_increment_at,
    Option.bind_some, Option.bind_eq_some_iff]
  constructor
  · intro ⟨step, hincrement, hclamp⟩
    obtain ⟨hproducts, rfl⟩ :=
      (increment_checked_iff hthreads hdivisor hlimit hlimitle hfive).mp hincrement
    have hsteplt := increment_at_lt hthreads hdivisor hlimit (by omega) hproducts.2.1
      hproducts.2.2
    obtain ⟨hraised, hresult⟩ := (clamp_checked_iff hlow (by omega) hstep hsteplt).mp hclamp
    exact ⟨⟨hproducts, hraised⟩, hresult⟩
  · intro ⟨⟨hproducts, hraised⟩, hresult⟩
    have hsteplt := increment_at_lt hthreads hdivisor hlimit (by omega) hproducts.2.1
      hproducts.2.2
    exact ⟨_, (increment_checked_iff hthreads hdivisor hlimit hlimitle hfive).mpr
      ⟨hproducts, rfl⟩, (clamp_checked_iff hlow (by omega) hstep hsteplt).mpr ⟨hraised, hresult⟩⟩

/-- The checked tick computes the exact one, which lies between zero and the total, exactly in
range. -/
theorem delta_checked_eq_iff {cores threads divisor upLimit userCurrent share : Int}
    (hdivisor : 0 < divisor) (h : Received cores threads upLimit userCurrent share) :
    (deltaChecked cores threads divisor (cores * threads * 32) upLimit userCurrent share =
        some (delta cores threads divisor (cores * threads * 32) upLimit userCurrent share) ∧
      0 ≤ delta cores threads divisor (cores * threads * 32) upLimit userCurrent share ∧
      delta cores threads divisor (cores * threads * 32) upLimit userCurrent share ≤
        cores * threads * 32) ↔
      InRange cores threads divisor upLimit userCurrent share := by
  have hbounds := delta_bounds h.cores_nonneg h.threads_nonneg hdivisor.le h.limit_nonneg
    h.share_nonneg h.share_le userCurrent
  rw [delta_checked_iff hdivisor h]
  constructor
  · intro hexact
    exact hexact.1.1
  · intro hrange
    exact ⟨⟨hrange, rfl⟩, hbounds⟩

/-- For every input a controller can receive, all intermediate values of both delta functions are
exact in 32 bits, and the share they return lies between zero and the total, exactly when the input
is in range. -/
theorem arithmetic_exact_iff (cores threads upLimit userCurrent share : Int)
    (h : Received cores threads upLimit userCurrent share) :
    ((deltaForGpuChecked cores threads (cores * threads * 32) upLimit userCurrent share =
        some (deltaForGpu cores threads (cores * threads * 32) upLimit userCurrent share) ∧
      0 ≤ deltaForGpu cores threads (cores * threads * 32) upLimit userCurrent share ∧
      deltaForGpu cores threads (cores * threads * 32) upLimit userCurrent share ≤
        cores * threads * 32) ↔
      InRange cores threads 2560 upLimit userCurrent share) ∧
    ((deltaForMluChecked cores threads (cores * threads * 32) upLimit userCurrent share =
        some (deltaForMlu cores threads (cores * threads * 32) upLimit userCurrent share) ∧
      0 ≤ deltaForMlu cores threads (cores * threads * 32) upLimit userCurrent share ∧
      deltaForMlu cores threads (cores * threads * 32) upLimit userCurrent share ≤
        cores * threads * 32) ↔
      InRange cores threads 256 upLimit userCurrent share) :=
  ⟨delta_checked_eq_iff (by decide) h, delta_checked_eq_iff (by decide) h⟩

/-- A card with 40 processors of 1024 threads under a limit of 50 percent stays in range. -/
theorem arithmetic_exact_half :
    deltaForGpuChecked 40 1024 1310720 50 20 0 = some (deltaForGpu 40 1024 1310720 50 20 0) :=
  ((arithmetic_exact_iff 40 1024 50 20 0 ⟨by decide, by decide, by decide, by decide, by decide,
    by decide, by decide, by decide, by decide⟩).1.mpr (by decide)).1

/-- A card with 108 processors of 2048 threads that idles under a limit of 100 percent: the product
under the first division is 2388787200. -/
theorem arithmetic_exact_counterexample :
    ¬ ∀ cores threads upLimit userCurrent share : Int,
      Received cores threads upLimit userCurrent share →
      (deltaForGpuChecked cores threads (cores * threads * 32) upLimit userCurrent share =
          some (deltaForGpu cores threads (cores * threads * 32) upLimit userCurrent share) ∧
        0 ≤ deltaForGpu cores threads (cores * threads * 32) upLimit userCurrent share ∧
        deltaForGpu cores threads (cores * threads * 32) upLimit userCurrent share ≤
          cores * threads * 32) ∧
      deltaForMluChecked cores threads (cores * threads * 32) upLimit userCurrent share =
          some (deltaForMlu cores threads (cores * threads * 32) upLimit userCurrent share) ∧
        0 ≤ deltaForMlu cores threads (cores * threads * 32) upLimit userCurrent share ∧
        deltaForMlu cores threads (cores * threads * 32) upLimit userCurrent share ≤
          cores * threads * 32 := by
  intro hclaim
  have hgpu := (hclaim 108 2048 100 0 0 ⟨by decide, by decide, by decide, by decide, by decide,
    by decide, by decide, by decide, by decide⟩).1.1
  have hnone : deltaForGpuChecked 108 2048 (108 * 2048 * 32) 100 0 0 = none := by decide
  rw [hnone] at hgpu
  cases hgpu

end UniShare.Controller
