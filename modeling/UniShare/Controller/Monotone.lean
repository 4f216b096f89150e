import UniShare.Controller.PcAlg

/-!
# How a tick depends on load and limit

One tick of `core/controller/pc_alg.c` compared at two utilisations and at two limits, in exact
integers. The step by which a tick moves the share grows with the distance between limit and
utilisation, so more load never earns more share. A larger limit does not always earn more: near a
limit below ten the floored distance exceeds half of the limit, and the rescaling then divides by
the limit.
-/

namespace UniShare.Controller

/-- The increment of a tick as a function of the distance alone. -/
def incrementAt (cores threads divisor upLimit diff : Int) : Int :=
  let base := (cores * cores * threads * diff).tdiv divisor
  if upLimit.tdiv 2 < diff then (base * diff * 2).tdiv (upLimit + 1) else base

/-- The increment depends on the utilisation through the distance. -/
theorem increment_eq_increment_at (cores threads divisor upLimit userCurrent : Int) :
    increment cores threads divisor upLimit userCurrent =
      incrementAt cores threads divisor upLimit (utilizationDiff upLimit userCurrent) := rfl

/-- Truncated quotients compare as the fractions do. -/
theorem tdiv_le_tdiv_of_mul_le {left lower right upper : Int} (hlower : 0 < lower)
    (hupper : 0 < upper) (hleft : 0 ≤ left) (h : left * upper ≤ right * lower) :
    left.tdiv lower ≤ right.tdiv upper := by
  apply Int.le_tdiv_of_mul_le hupper
  refine Int.le_of_mul_le_mul_right ?_ hlower
  calc left.tdiv lower * upper * lower
      = lower * left.tdiv lower * upper := by ring
    _ ≤ left * upper := Int.mul_le_mul_of_nonneg_right (Int.mul_tdiv_self_le hleft) hupper.le
    _ ≤ right * lower := h

/-! ## The distance -/

/-- The distance is the larger of five and the absolute difference. -/
theorem utilization_diff_eq_max (upLimit userCurrent : Int) :
    utilizationDiff upLimit userCurrent = max 5 |upLimit - userCurrent| := by
  unfold utilizationDiff
  split <;> omega

/-- At or below the limit the distance is the larger of five and the headroom. -/
theorem utilization_diff_of_le {upLimit userCurrent : Int} (h : userCurrent ≤ upLimit) :
    utilizationDiff upLimit userCurrent = max 5 (upLimit - userCurrent) := by
  rw [utilization_diff_eq_max, abs_of_nonneg (by omega)]

/-- Above the limit the distance is the larger of five and the excess. -/
theorem utilization_diff_of_lt {upLimit userCurrent : Int} (h : upLimit < userCurrent) :
    utilizationDiff upLimit userCurrent = max 5 (userCurrent - upLimit) := by
  rw [utilization_diff_eq_max, abs_of_neg (by omega), Int.neg_sub]

/-- The distance is at least five. -/
theorem five_le_utilization_diff (upLimit userCurrent : Int) :
    5 ≤ utilizationDiff upLimit userCurrent := by
  rw [utilization_diff_eq_max]
  exact le_max_left _ _

/-! ## The step -/

section Step

variable {cores threads divisor : Int}

/-- The unscaled increment is non-negative. -/
theorem base_nonneg (cores : Int) (hthreads : 0 ≤ threads) (hdivisor : 0 < divisor)
    {diff : Int} (hdiff : 0 ≤ diff) : 0 ≤ (cores * cores * threads * diff).tdiv divisor :=
  Int.tdiv_nonneg
    (Int.mul_nonneg (Int.mul_nonneg (mul_self_nonneg cores) hthreads) hdiff) hdivisor.le

/-- The unscaled increment grows with the distance. -/
theorem base_mono (cores : Int) (hthreads : 0 ≤ threads) (hdivisor : 0 < divisor)
    {lower upper : Int} (hle : lower ≤ upper) :
    (cores * cores * threads * lower).tdiv divisor ≤
      (cores * cores * threads * upper).tdiv divisor :=
  Int.tdiv_le_tdiv hdivisor
    (Int.mul_le_mul_of_nonneg_left hle (Int.mul_nonneg (mul_self_nonneg cores) hthreads))

/-- A distance above half of the limit: the rescaling does not shrink the increment. -/
theorem le_rescaled {upLimit diff base : Int} (hlimit : 0 ≤ upLimit) (hbase : 0 ≤ base)
    (hhalf : upLimit.tdiv 2 < diff) : base ≤ (base * diff * 2).tdiv (upLimit + 1) := by
  have htwice : upLimit + 1 ≤ diff * 2 := by
    rw [Int.tdiv_eq_ediv_of_nonneg hlimit] at hhalf
    omega
  apply Int.le_tdiv_of_mul_le (by omega)
  rw [Int.mul_assoc]
  exact Int.mul_le_mul_of_nonneg_left htwice hbase

/-- The increment is at least its unscaled value. -/
theorem base_le_increment_at (hthreads : 0 ≤ threads) (hdivisor : 0 < divisor)
    {upLimit diff : Int} (hlimit : 0 ≤ upLimit) (hdiff : 0 ≤ diff) :
    (cores * cores * threads * diff).tdiv divisor ≤
      incrementAt cores threads divisor upLimit diff := by
  unfold incrementAt
  dsimp only
  split
  · rename_i hhalf
    exact le_rescaled hlimit (base_nonneg cores hthreads hdivisor hdiff) hhalf
  · exact le_refl _

/-- The increment grows with the distance. The kink at half of the limit only adds. -/
theorem increment_at_mono (hthreads : 0 ≤ threads) (hdivisor : 0 < divisor) {upLimit : Int}
    (hlimit : 0 ≤ upLimit) {lower upper : Int} (hnonneg : 0 ≤ lower) (hle : lower ≤ upper) :
    incrementAt cores threads divisor upLimit lower ≤
      incrementAt cores threads divisor upLimit upper := by
  have hbase := base_mono cores hthreads hdivisor hle
  by_cases hhalf : upLimit.tdiv 2 < lower
  · -- both distances are rescaled
    have hlower := base_nonneg cores hthreads hdivisor hnonneg
    simp only [incrementAt, if_pos hhalf, if_pos (lt_of_lt_of_le hhalf hle)]
    apply Int.tdiv_le_tdiv (by omega)
    have hproduct := Int.mul_le_mul hbase hle hnonneg (le_trans hlower hbase)
    omega
  · calc incrementAt cores threads divisor upLimit lower
        = (cores * cores * threads * lower).tdiv divisor := by
          simp only [incrementAt, if_neg hhalf]
      _ ≤ (cores * cores * threads * upper).tdiv divisor := hbase
      _ ≤ incrementAt cores threads divisor upLimit upper :=
          base_le_increment_at hthreads hdivisor hlimit (by omega)

/-- For one distance the increment falls with the limit. -/
theorem increment_at_antitone_limit (hthreads : 0 ≤ threads) (hdivisor : 0 < divisor)
    {lower upper diff : Int} (hlimit : 0 ≤ lower) (hle : lower ≤ upper) (hdiff : 0 ≤ diff) :
    incrementAt cores threads divisor upper diff ≤
      incrementAt cores threads divisor lower diff := by
  have hbase := base_nonneg cores hthreads hdivisor hdiff
  by_cases hhalf : upper.tdiv 2 < diff
  · have hlower : lower.tdiv 2 < diff := lt_of_le_of_lt (Int.tdiv_le_tdiv (by decide) hle) hhalf
    have hproduct := Int.mul_nonneg (Int.mul_nonneg hbase hdiff) (by decide : (0 : Int) ≤ 2)
    simp only [incrementAt, if_pos hhalf, if_pos hlower]
    exact tdiv_le_tdiv_of_mul_le (by omega) (by omega) hproduct
      (Int.mul_le_mul_of_nonneg_left (by omega) hproduct)
  · calc incrementAt cores threads divisor upper diff
        = (cores * cores * threads * diff).tdiv divisor := by
          simp only [incrementAt, if_neg hhalf]
      _ ≤ incrementAt cores threads divisor lower diff :=
          base_le_increment_at hthreads hdivisor hlimit hdiff

/-- Where the distance is the headroom itself, the increment grows with the limit: the fraction of
the limit that is unused grows too. -/
theorem increment_at_headroom_mono (hthreads : 0 ≤ threads) (hdivisor : 0 < divisor)
    {lower upper userCurrent : Int} (hle : lower ≤ upper) (huser : 0 ≤ userCurrent)
    (hhead : userCurrent ≤ lower) :
    incrementAt cores threads divisor lower (lower - userCurrent) ≤
      incrementAt cores threads divisor upper (upper - userCurrent) := by
  have hbase := base_nonneg cores hthreads hdivisor (show 0 ≤ lower - userCurrent by omega)
  have hmono := base_mono cores hthreads hdivisor
    (show lower - userCurrent ≤ upper - userCurrent by omega)
  by_cases hhalf : lower.tdiv 2 < lower - userCurrent
  · have hupper : upper.tdiv 2 < upper - userCurrent := by
      rw [Int.tdiv_eq_ediv_of_nonneg (by omega)] at hhalf ⊢
      omega
    simp only [incrementAt, if_pos hhalf, if_pos hupper]
    apply tdiv_le_tdiv_of_mul_le (by omega) (by omega)
    · exact Int.mul_nonneg (Int.mul_nonneg hbase (by omega)) (by decide)
    · have hfraction : (lower - userCurrent) * (upper + 1) ≤
          (upper - userCurrent) * (lower + 1) := by
        have := Int.mul_nonneg huser (show 0 ≤ upper - lower by omega)
        linarith
      have hproduct := Int.mul_le_mul hmono hfraction
        (Int.mul_nonneg (by omega) (by omega)) (le_trans hbase hmono)
      linarith
  · calc incrementAt cores threads divisor lower (lower - userCurrent)
        = (cores * cores * threads * (lower - userCurrent)).tdiv divisor := by
          simp only [incrementAt, if_neg hhalf]
      _ ≤ (cores * cores * threads * (upper - userCurrent)).tdiv divisor := hmono
      _ ≤ incrementAt cores threads divisor upper (upper - userCurrent) :=
          base_le_increment_at hthreads hdivisor (by omega) (by omega)

/-! ## One tick -/

/-- At or below the limit the share rises by the increment, up to the total. -/
theorem delta_of_le {upLimit userCurrent : Int} (totalCores share : Int)
    (h : userCurrent ≤ upLimit) :
    delta cores threads divisor totalCores upLimit userCurrent share =
      min totalCores (share + increment cores threads divisor upLimit userCurrent) := by
  unfold delta
  dsimp only
  rw [if_pos h]
  split <;> omega

/-- Above the limit the share falls by the increment, down to zero. -/
theorem delta_of_lt {upLimit userCurrent : Int} (totalCores share : Int)
    (h : upLimit < userCurrent) :
    delta cores threads divisor totalCores upLimit userCurrent share =
      max 0 (share - increment cores threads divisor upLimit userCurrent) := by
  unfold delta
  dsimp only
  rw [if_neg (by omega)]
  split <;> omega

variable {totalCores upLimit share : Int}

/-- At or below the limit a tick takes nothing from the share. -/
theorem share_le_delta (hcores : 0 ≤ cores) (hthreads : 0 ≤ threads) (hdivisor : 0 < divisor)
    (hlimit : 0 ≤ upLimit) (hhigh : share ≤ totalCores) {userCurrent : Int}
    (h : userCurrent ≤ upLimit) :
    share ≤ delta cores threads divisor totalCores upLimit userCurrent share := by
  have hstep := increment_nonneg hcores hthreads hdivisor.le hlimit userCurrent
  rw [delta_of_le totalCores share h]
  omega

/-- Above the limit a tick adds nothing to the share. -/
theorem delta_le_share (hcores : 0 ≤ cores) (hthreads : 0 ≤ threads) (hdivisor : 0 < divisor)
    (hlimit : 0 ≤ upLimit) (hlow : 0 ≤ share) {userCurrent : Int} (h : upLimit < userCurrent) :
    delta cores threads divisor totalCores upLimit userCurrent share ≤ share := by
  have hstep := increment_nonneg hcores hthreads hdivisor.le hlimit userCurrent
  rw [delta_of_lt totalCores share h]
  omega

/-- The higher of two utilisations gets at most the share of the lower one. -/
theorem delta_antitone (hcores : 0 ≤ cores) (hthreads : 0 ≤ threads) (hdivisor : 0 < divisor)
    (hlimit : 0 ≤ upLimit) (hlow : 0 ≤ share) (hhigh : share ≤ totalCores)
    {lower upper : Int} (hle : lower ≤ upper) :
    delta cores threads divisor totalCores upLimit upper share ≤
      delta cores threads divisor totalCores upLimit lower share := by
  by_cases hupper : upper ≤ upLimit
  · -- both below the limit: the higher load has the smaller headroom
    have hstep : increment cores threads divisor upLimit upper ≤
        increment cores threads divisor upLimit lower := by
      rw [increment_eq_increment_at, increment_eq_increment_at]
      apply increment_at_mono hthreads hdivisor hlimit
      · have := five_le_utilization_diff upLimit upper
        omega
      · rw [utilization_diff_of_le hupper, utilization_diff_of_le (hle.trans hupper)]
        omega
    rw [delta_of_le totalCores share hupper, delta_of_le totalCores share (hle.trans hupper)]
    omega
  by_cases hlower : lower ≤ upLimit
  · -- the limit lies between the two
    calc delta cores threads divisor totalCores upLimit upper share
        ≤ share := delta_le_share hcores hthreads hdivisor hlimit hlow (by omega)
      _ ≤ delta cores threads divisor totalCores upLimit lower share :=
          share_le_delta hcores hthreads hdivisor hlimit hhigh hlower
  · -- both above the limit: the higher load has the larger excess
    have hstep : increment cores threads divisor upLimit lower ≤
        increment cores threads divisor upLimit upper := by
      rw [increment_eq_increment_at, increment_eq_increment_at]
      apply increment_at_mono hthreads hdivisor hlimit
      · have := five_le_utilization_diff upLimit lower
        omega
      · rw [utilization_diff_of_lt (by omega), utilization_diff_of_lt (by omega)]
        omega
    rw [delta_of_lt totalCores share (by omega), delta_of_lt totalCores share (by omega)]
    omega

/-- Away from the floor of the distance, or from limit ten on, the increment below the limit grows
with the limit. -/
theorem increment_mono_limit (hthreads : 0 ≤ threads) (hdivisor : 0 < divisor)
    {lower upper userCurrent : Int} (hle : lower ≤ upper) (huser : 0 ≤ userCurrent)
    (hhead : userCurrent ≤ lower) (hfloor : 10 ≤ lower ∨ 5 ≤ lower - userCurrent) :
    increment cores threads divisor lower userCurrent ≤
      increment cores threads divisor upper userCurrent := by
  simp only [increment_eq_increment_at, utilization_diff_of_le hhead,
    utilization_diff_of_le (hhead.trans hle)]
  by_cases hfive : 5 ≤ lower - userCurrent
  · rw [max_eq_right hfive, max_eq_right (show 5 ≤ upper - userCurrent by omega)]
    exact increment_at_headroom_mono hthreads hdivisor hle huser hhead
  · -- the floored distance does not exceed half of the limit, so nothing is rescaled
    have hten : 10 ≤ lower := by omega
    have hhalf : ¬ lower.tdiv 2 < 5 := by
      rw [Int.tdiv_eq_ediv_of_nonneg (by omega)]
      omega
    rw [max_eq_left (show lower - userCurrent ≤ 5 by omega)]
    calc incrementAt cores threads divisor lower 5
        = (cores * cores * threads * 5).tdiv divisor := by
          simp only [incrementAt, if_neg hhalf]
      _ ≤ (cores * cores * threads * max 5 (upper - userCurrent)).tdiv divisor :=
          base_mono cores hthreads hdivisor (le_max_left _ _)
      _ ≤ incrementAt cores threads divisor upper (max 5 (upper - userCurrent)) :=
          base_le_increment_at hthreads hdivisor (by omega) (by omega)

/-- Above both limits the larger limit has the smaller excess and loses less. -/
theorem increment_antitone_limit (hthreads : 0 ≤ threads) (hdivisor : 0 < divisor)
    {lower upper userCurrent : Int} (hlimit : 0 ≤ lower) (hle : lower ≤ upper)
    (hexcess : upper < userCurrent) :
    increment cores threads divisor upper userCurrent ≤
      increment cores threads divisor lower userCurrent := by
  rw [increment_eq_increment_at, increment_eq_increment_at, utilization_diff_of_lt hexcess,
    utilization_diff_of_lt (lt_of_le_of_lt hle hexcess)]
  calc incrementAt cores threads divisor upper (max 5 (userCurrent - upper))
      ≤ incrementAt cores threads divisor lower (max 5 (userCurrent - upper)) :=
        increment_at_antitone_limit hthreads hdivisor hlimit hle (by omega)
    _ ≤ incrementAt cores threads divisor lower (max 5 (userCurrent - lower)) :=
        increment_at_mono hthreads hdivisor hlimit (by omega) (by omega)

/-- When the larger of two limits gets at least the share of the smaller one. -/
theorem delta_le_delta_limit_iff (hcores : 0 ≤ cores) (hthreads : 0 ≤ threads)
    (hdivisor : 0 < divisor) (hlow : 0 ≤ share) (hhigh : share ≤ totalCores)
    {lower upper userCurrent : Int} (hlimit : 0 ≤ lower) (hle : lower ≤ upper)
    (huser : 0 ≤ userCurrent) :
    delta cores threads divisor totalCores lower userCurrent share ≤
        delta cores threads divisor totalCores upper userCurrent share ↔
      lower < userCurrent ∨ 10 ≤ lower ∨ 5 ≤ lower - userCurrent ∨
        increment cores threads divisor lower userCurrent ≤
          increment cores threads divisor upper userCurrent ∨
        totalCores ≤ share + increment cores threads divisor upper userCurrent := by
  by_cases hexcess : upper < userCurrent
  · have hstep : increment cores threads divisor upper userCurrent ≤
        increment cores threads divisor lower userCurrent :=
      increment_antitone_limit hthreads hdivisor hlimit hle hexcess
    rw [delta_of_lt totalCores share (lt_of_le_of_lt hle hexcess),
      delta_of_lt totalCores share hexcess]
    omega
  by_cases hbetween : lower < userCurrent
  · have hdelta : delta cores threads divisor totalCores lower userCurrent share ≤
        delta cores threads divisor totalCores upper userCurrent share :=
      (delta_le_share hcores hthreads hdivisor hlimit hlow hbetween).trans
        (share_le_delta hcores hthreads hdivisor (by omega) hhigh (by omega))
    exact iff_of_true hdelta (.inl hbetween)
  · have hstep : 10 ≤ lower ∨ 5 ≤ lower - userCurrent →
        increment cores threads divisor lower userCurrent ≤
          increment cores threads divisor upper userCurrent :=
      increment_mono_limit hthreads hdivisor hle huser (by omega)
    rw [delta_of_le totalCores share (show userCurrent ≤ lower by omega),
      delta_of_le totalCores share (show userCurrent ≤ upper by omega)]
    omega

end Step

/-! ## The two accelerators -/

/-- More measured load never earns more share, and the limit decides whether a tick gives or
takes. -/
theorem more_load_no_more_share (cores threads totalCores upLimit share : Int)
    (hcores : 0 ≤ cores) (hthreads : 0 ≤ threads) (hlimit : 0 ≤ upLimit) (hlow : 0 ≤ share)
    (hhigh : share ≤ totalCores) :
    (∀ u₁ u₂, u₁ ≤ u₂ →
      deltaForGpu cores threads totalCores upLimit u₂ share ≤
          deltaForGpu cores threads totalCores upLimit u₁ share ∧
        deltaForMlu cores threads totalCores upLimit u₂ share ≤
          deltaForMlu cores threads totalCores upLimit u₁ share) ∧
      (∀ u, u ≤ upLimit →
        share ≤ deltaForGpu cores threads totalCores upLimit u share ∧
          share ≤ deltaForMlu cores threads totalCores upLimit u share) ∧
      (∀ u, upLimit < u →
        deltaForGpu cores threads totalCores upLimit u share ≤ share ∧
          deltaForMlu cores threads totalCores upLimit u share ≤ share) := by
  refine ⟨fun u₁ u₂ hle => ⟨?_, ?_⟩, fun u hle => ⟨?_, ?_⟩, fun u hlt => ⟨?_, ?_⟩⟩
  · exact delta_antitone hcores hthreads (by decide) hlimit hlow hhigh hle
  · exact delta_antitone hcores hthreads (by decide) hlimit hlow hhigh hle
  · exact share_le_delta hcores hthreads (by decide) hlimit hhigh hle
  · exact share_le_delta hcores hthreads (by decide) hlimit hhigh hle
  · exact delta_le_share hcores hthreads (by decide) hlimit hlow hlt
  · exact delta_le_share hcores hthreads (by decide) hlimit hlow hlt

/-- On the card with 40 processors, under a limit of 50 percent and with an empty share, 100 percent
load earns no more than 20 percent load. -/
theorem more_load_no_more_share_half :
    deltaForGpu 40 1024 1310720 50 100 0 ≤ deltaForGpu 40 1024 1310720 50 20 0 :=
  ((more_load_no_more_share 40 1024 1310720 50 0 (by decide) (by decide) (by decide) (by decide)
    (by decide)).1 20 100 (by decide)).1

/-- A larger limit gets at least the share of a smaller one whenever the utilisation exceeds the
smaller limit, the smaller limit is at least ten, or it exceeds the utilisation by at least five.
In the corner that remains, it does exactly when its step is no smaller or fills the total. -/
theorem larger_limit_iff (cores threads totalCores share lower upper userCurrent : Int)
    (hcores : 0 ≤ cores) (hthreads : 0 ≤ threads) (hlow : 0 ≤ share) (hhigh : share ≤ totalCores)
    (hlimit : 0 ≤ lower) (hle : lower ≤ upper) (huser : 0 ≤ userCurrent) :
    (deltaForGpu cores threads totalCores lower userCurrent share ≤
        deltaForGpu cores threads totalCores upper userCurrent share ↔
      lower < userCurrent ∨ 10 ≤ lower ∨ 5 ≤ lower - userCurrent ∨
        increment cores threads 2560 lower userCurrent ≤
          increment cores threads 2560 upper userCurrent ∨
        totalCores ≤ share + increment cores threads 2560 upper userCurrent) ∧
      (deltaForMlu cores threads totalCores lower userCurrent share ≤
          deltaForMlu cores threads totalCores upper userCurrent share ↔
        lower < userCurrent ∨ 10 ≤ lower ∨ 5 ≤ lower - userCurrent ∨
          increment cores threads 256 lower userCurrent ≤
            increment cores threads 256 upper userCurrent ∨
          totalCores ≤ share + increment cores threads 256 upper userCurrent) :=
  ⟨delta_le_delta_limit_iff hcores hthreads (by decide) hlow hhigh hlimit hle huser,
    delta_le_delta_limit_iff hcores hthreads (by decide) hlow hhigh hlimit hle huser⟩

/-- On the card with 40 processors, the limits 10 and 50 at no load. -/
theorem larger_limit_ten :
    deltaForGpu 40 1024 1310720 10 0 0 ≤ deltaForGpu 40 1024 1310720 50 0 0 :=
  (larger_limit_iff 40 1024 1310720 0 10 50 0 (by decide) (by decide) (by decide) (by decide)
    (by decide) (by decide) (by decide)).1.mpr (.inr (.inl (by decide)))

/-- On that card an idle container with an empty share and limit 0 gets 32000 cores, and one with
limit 4 gets 6400. -/
theorem larger_limit_counterexample :
    ¬ ∀ cores threads totalCores share lower upper userCurrent : Int,
      0 ≤ cores → 0 ≤ threads → 0 ≤ share → share ≤ totalCores → 0 ≤ lower → lower ≤ upper →
        0 ≤ userCurrent →
        deltaForGpu cores threads totalCores lower userCurrent share ≤
            deltaForGpu cores threads totalCores upper userCurrent share ∧
          deltaForMlu cores threads totalCores lower userCurrent share ≤
            deltaForMlu cores threads totalCores upper userCurrent share := by
  intro hclaim
  have hgpu := (hclaim 40 1024 1310720 0 0 4 0 (by decide) (by decide) (by decide) (by decide)
    (by decide) (by decide) (by decide)).1
  exact absurd hgpu (by decide)

end UniShare.Controller
