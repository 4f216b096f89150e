import UniShare.Controller.Wrapped

/-!
# Accounts of the token bucket

A control tick grants between nothing and its value, and a launch takes its size, in a whole run,
exactly when every write meets `HarmlessWrite`: this is `charges_kept_iff`, in wrapping integers.
The plain store of the low-utilisation branch is the write that can fail it without an overflow.
-/

namespace UniShare.Controller

open Lib

variable {τ : Type} [DecidableEq τ]

/-- Every completed tick added between nothing and its value. -/
def GrantsExact (state : State τ) : Prop :=
  ∀ grant ∈ state.grants, 0 ≤ grant.amount ∧ grant.amount ≤ grant.value

/-- `cur_cores` is the sum of the ticks' amounts less the sizes of the admitted launches. -/
def Balanced (state : State τ) : Prop :=
  state.curCores = (state.grants.map Grant.amount).sum -
    (state.admitted.map Admission.kernelSize).sum

/-- A write that takes back no charge: the plain store finds a bucket between zero and the value
stored; the swap of `change_token` adds a share that is not negative to a bucket that does not
exceed the total, and its sum is an `int`; and so is the difference that `rate_limiter` swaps
in. -/
def HarmlessWrite (state : State τ) : Action τ → Prop
  | .store => ∀ share value, state.control = .store share value →
      0 ≤ state.curCores ∧ state.curCores ≤ value
  | .cas => ∀ share, state.control = .cas share state.curCores →
      0 ≤ share ∧ state.curCores ≤ state.totalCores ∧ state.curCores + share < 2 ^ 31
  | .commit thread => ∀ kernelSize, state.launches thread = .cas kernelSize state.curCores →
      signed32 (state.curCores - kernelSize)
  | _ => True

/-- `change_token` adds between nothing and the share exactly when the share is not negative, the
bucket does not exceed the total, and their sum does not overflow. -/
theorem cores_after_wrapped_iff {totalCores coresBefore share : Int} (htotal : 0 ≤ totalCores)
    (hbefore : signed32 coresBefore) (hshare : signed32 share) :
    (0 ≤ coresAfterWrapped totalCores coresBefore share - coresBefore ∧
      coresAfterWrapped totalCores coresBefore share - coresBefore ≤ share) ↔
        0 ≤ share ∧ coresBefore ≤ totalCores ∧ coresBefore + share < 2 ^ 31 := by
  obtain ⟨hbeforeLow, hbeforeHigh⟩ := (signed32_iff _).mp hbefore
  obtain ⟨-, hshareHigh⟩ := (signed32_iff _).mp hshare
  by_cases hnegative : share < 0
  · exact ⟨fun h => by omega, fun h => by omega⟩
  unfold coresAfterWrapped
  by_cases hoverflow : 2 ^ 31 ≤ coresBefore + share
  · -- the sum wraps to a negative one, which is less than the bucket
    rw [wrap32_of_le hoverflow (by omega)]
    split <;> omega
  · have hrange : signed32 (coresBefore + share) := (signed32_iff _).mpr ⟨by omega, by omega⟩
    rw [wrap32_eq_iff.mpr hrange]
    split <;> omega

omit [DecidableEq τ] in
/-- The accounts balance after one more tick. -/
theorem balanced_grant {state next : State τ} {grant : Grant} (h : Balanced state)
    (hbefore : grant.before = state.curCores) (hafter : next.curCores = grant.after)
    (hgrants : next.grants = state.grants ++ [grant]) (hadmitted : next.admitted = state.admitted) :
    Balanced next := by
  unfold Balanced at h ⊢
  rw [hafter, hgrants, hadmitted, List.map_append, List.sum_append]
  simp only [List.map_cons, List.map_nil, List.sum_cons, List.sum_nil, Grant.amount]
  omega

omit [DecidableEq τ] in
/-- The accounts balance after one more launch exactly when it took its size. -/
theorem balanced_admission_iff {state next : State τ} {admission : Admission} (h : Balanced state)
    (hgrants : next.grants = state.grants)
    (hadmitted : next.admitted = state.admitted ++ [admission]) :
    Balanced next ↔ next.curCores = state.curCores - admission.kernelSize := by
  unfold Balanced at h ⊢
  rw [hgrants, hadmitted, List.map_append, List.sum_append]
  simp only [List.map_cons, List.map_nil, List.sum_cons, List.sum_nil]
  omega

omit [DecidableEq τ] in
/-- Recording one more tick. -/
theorem grants_exact_append {state next : State τ} {grant : Grant} (h : GrantsExact state)
    (hgrants : next.grants = state.grants ++ [grant]) :
    GrantsExact next ↔ 0 ≤ grant.amount ∧ grant.amount ≤ grant.value := by
  unfold GrantsExact
  rw [hgrants]
  constructor
  · exact fun hall => hall grant (by simp)
  · intro hgrant other hmem
    rcases List.mem_append.mp hmem with hmem | hmem
    · exact h other hmem
    · obtain rfl := List.mem_singleton.mp hmem
      exact hgrant

/-- A step keeps the ticks within their values, and the balance, exactly when it is a harmless
write. -/
theorem accounts_step_iff {ctx : IntContext} {state next : State τ} {action : Action τ}
    (hints : Ints state) (h : GrantsExact state) (hbalanced : Balanced state)
    (hstep : wrappedStep ctx state action = some next) :
    GrantsExact next ∧ Balanced next ↔ HarmlessWrite state action := by
  cases wrapped_effect_of_step hstep with
  | quiet _ hquiet hcores hgrants hadmitted =>
      have hnext : GrantsExact next ∧ Balanced next := by
        unfold GrantsExact Balanced
        rw [hcores, hgrants, hadmitted]
        exact ⟨h, hbalanced⟩
      refine iff_of_true hnext ?_
      cases action with
      | store => exact hquiet.elim
      | cas => exact fun share hpoint => absurd hpoint (hquiet share)
      | commit thread => exact fun kernelSize hpoint => absurd hpoint (hquiet kernelSize)
      | _ => trivial
  | store share value hpoint hcores hgrants hadmitted =>
      rw [and_iff_left (balanced_grant hbalanced rfl hcores hgrants hadmitted),
        grants_exact_append h hgrants]
      simp only [HarmlessWrite, hpoint, Control.store.injEq, Grant.amount]
      constructor
      · rintro ⟨hlow, hhigh⟩ _ _ ⟨rfl, rfl⟩
        omega
      · intro hharmless
        have hbetween := hharmless share value ⟨rfl, rfl⟩
        omega
  | grant share hpoint hcores hgrants hadmitted =>
      have hshare := hints.control.share
      simp only [hpoint, Control.share] at hshare
      rw [and_iff_left (balanced_grant hbalanced rfl hcores hgrants hadmitted),
        grants_exact_append h hgrants]
      simp only [HarmlessWrite, hpoint, Control.cas.injEq, and_true, Grant.amount]
      rw [cores_after_wrapped_iff hints.total_nonneg hints.cur hshare]
      exact ⟨fun hwithin _ heq => heq ▸ hwithin, fun hharmless => hharmless share rfl⟩
  | admission thread kernelSize hpoint hcores hgrants hadmitted =>
      have hkept : GrantsExact next := fun grant hmem => h grant (hgrants ▸ hmem)
      rw [and_iff_right hkept, balanced_admission_iff hbalanced hgrants hadmitted, hcores,
        wrap32_eq_iff]
      simp only [HarmlessWrite, hpoint, Launch.cas.injEq, and_true]
      exact ⟨fun hint _ heq => heq ▸ hint, fun hharmless => hharmless kernelSize rfl⟩

/-- The guarantee for the accounts of a run: in every state `cur_cores` is the sum of the ticks'
amounts less the sizes of the launches admitted so far, and every tick has added between nothing
and the value that its delta function returned. -/
def ChargesKept (ctx : IntContext) (actions : List (Action τ)) : Prop :=
  Always (wrappedStep ctx) (fun state => GrantsExact state ∧ Balanced state) (State.initial τ)
    actions

/-- No charge is lost in a run exactly when every write is harmless. -/
theorem charges_kept_iff (ctx : IntContext) (actions : List (Action τ)) :
    ChargesKept ctx actions ↔
      Along (wrappedStep ctx) HarmlessWrite (State.initial τ) actions := by
  have hpreserve : ∀ (state : State τ) action next, Ints state →
      wrappedStep ctx state action = some next → Ints next := fun _ _ _ => ints_step
  have hexact : ∀ (state : State τ) action next, Ints state →
      GrantsExact state ∧ Balanced state → wrappedStep ctx state action = some next →
      (GrantsExact next ∧ Balanced next ↔ HarmlessWrite state action) :=
    fun _ _ _ hints hgood => accounts_step_iff hints hgood.1 hgood.2
  exact always_iff_along hpreserve hexact actions ints_initial ⟨nofun, rfl⟩

/-- A launch of ten blocks puts the empty bucket in debt, and the plain store of the next, idle
tick wipes the debt out: the tick adds ten more than its value. -/
theorem charges_kept_counterexample :
    ¬ ∀ (ctx : IntContext) (actions : List (Action Nat)), ChargesKept ctx actions := by
  intro h
  have hlast :=
    (h halfIntCard [.prologue, .call 0 10, .check 0, .commit 0, .tick 0, .store]).final rfl
  exact absurd (hlast.1 ⟨62745, -10, 62745⟩ (by decide)) (by decide)

end UniShare.Controller
