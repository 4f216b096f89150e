import UniShare.Lib.Execution

/-!
# Amortised accounts of executions

`sumAlong` adds up a weight over the steps of an execution. When every step costs no more than it
pays, up to what a potential of the state changes by, the same is true of every execution:
`sum_along_le` packages the induction, and `count_along_le` is its case for steps that are counted.
-/

namespace UniShare.Lib

variable {σ α M : Type*} {step : σ → α → Option σ}

/-- The weights of the steps that the execution takes, added up. -/
def sumAlong [Zero M] [Add M] (step : σ → α → Option σ) (weight : σ → α → M) : σ → List α → M
  | _, [] => 0
  | state, action :: rest =>
      match step state action with
      | none => 0
      | some next => weight state action + sumAlong step weight next rest

section Monoid

variable [AddCommMonoid M]

@[simp] theorem sum_along_nil (weight : σ → α → M) (state : σ) :
    sumAlong step weight state [] = 0 := rfl

/-- An execution that takes a step weighs what the step and the rest weigh. -/
theorem sum_along_cons {weight : σ → α → M} {state next : σ} {action : α} {rest : List α}
    (hstep : step state action = some next) :
    sumAlong step weight state (action :: rest) =
      weight state action + sumAlong step weight next rest := by
  simp [sumAlong, hstep]

/-- When all the counted steps weigh the same and the others nothing, the weight of an execution
is a multiple. -/
theorem sum_along_ite {bad : σ → α → Prop} [∀ state action, Decidable (bad state action)]
    (amount : M) (state : σ) (actions : List α) :
    sumAlong step (fun state action => if bad state action then amount else 0) state actions =
      countAlong step bad state actions • amount := by
  induction actions generalizing state with
  | nil => exact (zero_nsmul amount).symm
  | cons action rest ih =>
      cases hstep : step state action with
      | none => simp [sumAlong, countAlong, hstep]
      | some next =>
          rw [sum_along_cons hstep, ih next]
          simp only [countAlong, hstep, add_nsmul]
          split <;> simp

end Monoid

section Order

variable [AddCommMonoid M] [PartialOrder M] [IsOrderedAddMonoid M]
variable {inv : σ → Prop} {cond : σ → α → Prop} {weight pay : σ → α → M} {potential : σ → M}

/-- When every step weighs at most what it pays and what the potential falls by, so does an
execution whose steps all meet `cond`. -/
theorem sum_along_le
    (hpreserve : ∀ state action next, inv state → cond state action →
      step state action = some next → inv next)
    (hstep : ∀ state action next, inv state → cond state action →
      step state action = some next →
      weight state action + potential next ≤ pay state action + potential state)
    {state final : σ} {actions : List α} (hinv : inv state)
    (halong : Along step cond state actions) (hrun : exec step state actions = some final) :
    sumAlong step weight state actions + potential final ≤
      sumAlong step pay state actions + potential state := by
  induction actions generalizing state with
  | nil =>
      obtain rfl := Option.some.inj hrun
      simp
  | cons action rest ih =>
      obtain ⟨next, hnext, hrest⟩ := exec_cons_eq_some.mp hrun
      obtain ⟨hcond, hafter⟩ := halong next hnext
      have hhere := hstep state action next hinv hcond hnext
      have hthen := ih (hpreserve state action next hinv hcond hnext) hafter hrest
      rw [sum_along_cons hnext, sum_along_cons hnext]
      calc weight state action + sumAlong step weight next rest + potential final
          = weight state action + (sumAlong step weight next rest + potential final) :=
            add_assoc _ _ _
        _ ≤ weight state action + (sumAlong step pay next rest + potential next) :=
            add_le_add le_rfl hthen
        _ = weight state action + potential next + sumAlong step pay next rest := by
            rw [add_comm (sumAlong step pay next rest), add_assoc]
        _ ≤ pay state action + potential state + sumAlong step pay next rest :=
            add_le_add hhere le_rfl
        _ = pay state action + sumAlong step pay next rest + potential state :=
            add_right_comm _ _ _

end Order

/-- When a step that is counted uses up a unit of the potential, and only a step that pays can
restore one, an execution counts at most as many steps as it has paid for. -/
theorem count_along_le {bad good : σ → α → Prop} [∀ state action, Decidable (bad state action)]
    [∀ state action, Decidable (good state action)] {potential : σ → Nat}
    (hstep : ∀ state action next, step state action = some next →
      (if bad state action then 1 else 0) + potential next ≤
        (if good state action then 1 else 0) + potential state)
    {state final : σ} {actions : List α} (hrun : exec step state actions = some final) :
    countAlong step bad state actions + potential final ≤
      countAlong step good state actions + potential state := by
  have hpreserve : ∀ state action next, True → True → step state action = some next → True :=
    fun _ _ _ _ _ _ => trivial
  have halong : Along step (fun _ _ => True) state actions :=
    Along.of_forall (fun _ _ _ _ => trivial) state actions
  have hsum := sum_along_le hpreserve
    (fun state action next _ _ hnext => hstep state action next hnext) trivial halong hrun
  simpa only [sum_along_ite, smul_eq_mul, mul_one] using hsum

end UniShare.Lib
