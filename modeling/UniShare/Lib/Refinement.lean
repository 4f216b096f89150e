import UniShare.Lib.Execution

/-!
# Refinement with recorded actions

`exec_matched` is the rule for a machine whose steps are each matched by any number of steps of a
coarser one, none included; `exec_flat_map` is its case for steps that say what they are matched by.
`exec_recorded` and `recorded_exec` let both sides carry the list of what their actions show, so
that the relation between the states can also speak of the order in which things were done.
`exec_restricted` turns a condition on the steps of a run into a machine of its own.
-/

namespace UniShare.Lib

variable {σ τ α β γ : Type*} {step : σ → α → Option σ} {other : τ → β → Option τ}

/-- When every step is matched by steps of the other machine, every run is matched by a run. -/
theorem exec_matched {R : σ → τ → Prop}
    (hmatch : ∀ state image action next, R state image → step state action = some next →
      ∃ others following, exec other image others = some following ∧ R next following)
    {state final : σ} {image : τ} {actions : List α} (hrelated : R state image)
    (hrun : exec step state actions = some final) :
    ∃ others result, exec other image others = some result ∧ R final result := by
  induction actions generalizing state image with
  | nil =>
      obtain rfl := Option.some.inj hrun
      exact ⟨[], image, rfl, hrelated⟩
  | cons action rest ih =>
      obtain ⟨next, hstep, hrest⟩ := exec_cons_eq_some.mp hrun
      obtain ⟨first, following, hfirst, hnext⟩ := hmatch state image action next hrelated hstep
      obtain ⟨second, result, hsecond, hfinal⟩ := ih hnext hrest
      refine ⟨first ++ second, result, ?_, hfinal⟩
      rw [exec_append, hfirst]
      exact hsecond

/-- When what an action is for the other machine depends on the action alone, a run is matched by
what its actions are. -/
theorem exec_flat_map {f : α → List β} {R : σ → τ → Prop}
    (hmatch : ∀ state image action next, R state image → step state action = some next →
      ∃ following, exec other image (f action) = some following ∧ R next following)
    {state final : σ} {image : τ} {actions : List α} (hrelated : R state image)
    (hrun : exec step state actions = some final) :
    ∃ result, exec other image (actions.flatMap f) = some result ∧ R final result := by
  induction actions generalizing state image with
  | nil =>
      obtain rfl := Option.some.inj hrun
      exact ⟨image, rfl, hrelated⟩
  | cons action rest ih =>
      obtain ⟨next, hstep, hrest⟩ := exec_cons_eq_some.mp hrun
      obtain ⟨following, hfirst, hnext⟩ := hmatch state image action next hrelated hstep
      obtain ⟨result, hsecond, hfinal⟩ := ih hnext hrest
      refine ⟨result, ?_, hfinal⟩
      rw [List.flatMap_cons, exec_append, hfirst]
      exact hsecond

/-- A machine that records what its actions show. -/
def recorded (step : σ → α → Option σ) (shown : α → List γ) :
    σ × List γ → α → Option (σ × List γ) :=
  logged step fun _ action => shown action

/-- A recorded step is a step that appends what its action shows. -/
theorem recorded_eq_some {shown : α → List γ} {state next : σ × List γ} {action : α} :
    recorded step shown state action = some next ↔
      step state.1 action = some next.1 ∧ next.2 = state.2 ++ shown action :=
  logged_eq_some

/-- A run can be recorded. -/
theorem exec_recorded (shown : α → List γ) {state final : σ} {actions : List α}
    (record : List γ) (hrun : exec step state actions = some final) :
    exec (recorded step shown) (state, record) actions =
      some (final, record ++ actions.flatMap shown) := by
  induction actions generalizing state record with
  | nil =>
      obtain rfl := Option.some.inj hrun
      simp
  | cons action rest ih =>
      obtain ⟨next, hstep, hrest⟩ := exec_cons_eq_some.mp hrun
      refine exec_cons_eq_some.mpr
        ⟨(next, record ++ shown action), recorded_eq_some.mpr ⟨hstep, rfl⟩, ?_⟩
      rw [ih (record ++ shown action) hrest]
      simp

/-- A recorded run is a run, and the record is what its actions show. -/
theorem recorded_exec {shown : α → List γ} {state final : σ × List γ} {actions : List α}
    (hrun : exec (recorded step shown) state actions = some final) :
    exec step state.1 actions = some final.1 ∧ final.2 = state.2 ++ actions.flatMap shown := by
  induction actions generalizing state with
  | nil =>
      obtain rfl := Option.some.inj hrun
      simp
  | cons action rest ih =>
      obtain ⟨next, hstep, hrest⟩ := exec_cons_eq_some.mp hrun
      obtain ⟨hnext, hrecord⟩ := recorded_eq_some.mp hstep
      obtain ⟨hfinal, hrecords⟩ := ih hrest
      refine ⟨exec_cons_eq_some.mpr ⟨next.1, hnext, hfinal⟩, ?_⟩
      rw [hrecords, hrecord]
      simp

/-- When a step is matched by steps of the other machine, and the relation may speak of what the
actions on both sides have shown so far, every run is matched by a run. -/
theorem exec_matched_recorded {δ : Type*} {shown : α → List γ} {show' : β → List δ}
    {R : σ → List γ → τ → List δ → Prop}
    (hmatch : ∀ state record image record' action next, R state record image record' →
      step state action = some next → ∃ others following, exec other image others = some following ∧
        R next (record ++ shown action) following (record' ++ others.flatMap show'))
    {state final : σ} {image : τ} {actions : List α} (hrelated : R state [] image [])
    (hrun : exec step state actions = some final) :
    ∃ others result, exec other image others = some result ∧
      R final (actions.flatMap shown) result (others.flatMap show') := by
  let Related : σ × List γ → τ × List δ → Prop := fun state image =>
    R state.1 state.2 image.1 image.2
  have hstep : ∀ state image action next, Related state image →
      recorded step shown state action = some next →
      ∃ others following, exec (recorded other show') image others = some following ∧
        Related next following := by
    intro state image action next hrelated hstep
    obtain ⟨hnext, hrecord⟩ := recorded_eq_some.mp hstep
    obtain ⟨others, following, hothers, hfollowing⟩ :=
      hmatch state.1 state.2 image.1 image.2 action next.1 hrelated hnext
    refine ⟨others, _, exec_recorded show' image.2 hothers, ?_⟩
    show R next.1 next.2 following (image.2 ++ others.flatMap show')
    rw [hrecord]
    exact hfollowing
  have hinitial : Related (state, []) (image, []) := hrelated
  obtain ⟨others, result, hresult, hfinal⟩ :=
    exec_matched hstep hinitial (exec_recorded shown [] hrun)
  obtain ⟨hothers, hrecord⟩ := recorded_exec hresult
  refine ⟨others, result.1, hothers, ?_⟩
  rw [List.nil_append] at hrecord
  rw [← hrecord]
  exact hfinal

/-- The machine that takes only the steps that meet a condition. -/
def restricted (step : σ → α → Option σ) (cond : σ → α → Prop)
    [∀ state action, Decidable (cond state action)] (state : σ) (action : α) : Option σ :=
  if cond state action then step state action else none

/-- A run whose steps all meet the condition is a run of that machine. -/
theorem exec_restricted {cond : σ → α → Prop} [∀ state action, Decidable (cond state action)]
    {state final : σ} {actions : List α} (halong : Along step cond state actions)
    (hrun : exec step state actions = some final) :
    exec (restricted step cond) state actions = some final := by
  induction actions generalizing state with
  | nil => exact hrun
  | cons action rest ih =>
      obtain ⟨next, hstep, hrest⟩ := exec_cons_eq_some.mp hrun
      obtain ⟨hcond, hnext⟩ := halong next hstep
      exact exec_cons_eq_some.mpr ⟨next, by rw [restricted, if_pos hcond, hstep], ih hnext hrest⟩

end UniShare.Lib
