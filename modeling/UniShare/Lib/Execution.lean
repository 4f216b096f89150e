import Mathlib

/-!
# Executions of step machines

A machine is a partial step function `step : σ → α → Option σ`; `none` means that the action is
not enabled. `exec` performs a list of actions. `Always` and `Along` say that every state, or
every step, of an execution satisfies a condition. The induction over executions is packaged
once: `exec_invariant` for invariants, `exec_invariant_along` for invariants that need a
condition on every step, `exec_invariant_past` for those that speak of the actions so far, and
`always_iff_along` for conditions that are exact. `exec_own_actions` follows one party of a run
alone. A system keeps its parties in lists, where one moves or joins in a step; the last section is
about what then holds of all of them.
-/

namespace UniShare.Lib

variable {σ α : Type*}

/-- Perform the actions in order; an action that is not enabled stops the run. -/
def exec (step : σ → α → Option σ) : σ → List α → Option σ
  | state, [] => some state
  | state, action :: rest => (step state action).bind fun next => exec step next rest

/-- Every state of the run, the first and the last included, satisfies `good`. -/
def Always (step : σ → α → Option σ) (good : σ → Prop) : σ → List α → Prop
  | state, [] => good state
  | state, action :: rest =>
      good state ∧ ∀ next, step state action = some next → Always step good next rest

/-- Every step that the run takes satisfies `cond` in the state before it. -/
def Along (step : σ → α → Option σ) (cond : σ → α → Prop) : σ → List α → Prop
  | _, [] => True
  | state, action :: rest =>
      ∀ next, step state action = some next → cond state action ∧ Along step cond next rest

variable {step : σ → α → Option σ}

@[simp] theorem exec_nil (state : σ) : exec step state [] = some state := rfl

/-- A run of at least one action is one step followed by a run. -/
theorem exec_cons_eq_some {state final : σ} {action : α} {rest : List α} :
    exec step state (action :: rest) = some final ↔
      ∃ next, step state action = some next ∧ exec step next rest = some final := by
  simp [exec, Option.bind_eq_some_iff]

/-- A run of two sequences is a run of the first, followed by a run of the second. -/
theorem exec_append (state : σ) (first second : List α) :
    exec step state (first ++ second) =
      (exec step state first).bind fun middle => exec step middle second := by
  induction first generalizing state with
  | nil => rfl
  | cons action rest ih => simp [exec, ih, Option.bind_assoc]

/-- A decidable condition can be checked along a run. -/
instance decidableAlong {cond : σ → α → Prop} [∀ state action, Decidable (cond state action)] :
    ∀ (state : σ) (actions : List α), Decidable (Along step cond state actions)
  | _, [] => isTrue trivial
  | state, action :: rest =>
      match hstep : step state action with
      | none => isTrue fun _ hnext => nomatch hstep.symm.trans hnext
      | some next =>
          let _ : Decidable (Along step cond next rest) := decidableAlong next rest
          decidable_of_iff (cond state action ∧ Along step cond next rest)
            ⟨fun h _ hother => Option.some.inj (hstep.symm.trans hother) ▸ h,
              fun h => h next hstep⟩

/-- An invariant that every step under `cond` preserves holds at the end of every run whose
steps all meet `cond`. -/
theorem exec_invariant_along {inv : σ → Prop} {cond : σ → α → Prop}
    (hpreserve : ∀ state action next, inv state → cond state action →
      step state action = some next → inv next)
    {state final : σ} {actions : List α} (hinv : inv state)
    (halong : Along step cond state actions) (hrun : exec step state actions = some final) :
    inv final := by
  induction actions generalizing state with
  | nil =>
      obtain rfl := Option.some.inj hrun
      exact hinv
  | cons action rest ih =>
      obtain ⟨next, hstep, hrest⟩ := exec_cons_eq_some.mp hrun
      obtain ⟨hcond, hnext⟩ := halong next hstep
      exact ih (hpreserve state action next hinv hcond hstep) hnext hrest

/-- Conditions that agree in every state hold along the same runs. -/
theorem Along.congr {cond other : σ → α → Prop}
    (h : ∀ state action, cond state action ↔ other state action) (state : σ) (actions : List α) :
    Along step cond state actions ↔ Along step other state actions := by
  induction actions generalizing state with
  | nil => exact Iff.rfl
  | cons action rest ih =>
      exact forall_congr' fun next => imp_congr_right fun _ =>
        and_congr (h state action) (ih next)

/-- A condition that holds of every step holds along every run. -/
theorem Along.of_forall {cond : σ → α → Prop}
    (h : ∀ state action next, step state action = some next → cond state action)
    (state : σ) (actions : List α) : Along step cond state actions := by
  induction actions generalizing state with
  | nil => trivial
  | cons action rest ih => exact fun next hstep => ⟨h state action next hstep, ih next⟩

/-- A condition that holds of every listed action holds along the run. -/
theorem Along.of_mem {cond : σ → α → Prop} (state : σ) {actions : List α}
    (h : ∀ action ∈ actions, ∀ state, cond state action) : Along step cond state actions := by
  induction actions generalizing state with
  | nil => trivial
  | cons action rest ih =>
      exact fun next _ => ⟨h action (by simp) state, ih next fun other ho => h other (by simp [ho])⟩

/-- A condition that holds along a run holds along every beginning of it. -/
theorem Along.beginning {cond : σ → α → Prop} {state : σ} {before actions : List α}
    (h : Along step cond state actions) (hbefore : before <+: actions) :
    Along step cond state before := by
  induction before generalizing state actions with
  | nil => trivial
  | cons action rest ih =>
      obtain ⟨after, rfl⟩ := hbefore
      intro next hstep
      obtain ⟨hcond, hrest⟩ := h next hstep
      exact ⟨hcond, ih hrest ⟨after, rfl⟩⟩

/-- Two conditions hold along a run together. -/
theorem Along.and {cond other : σ → α → Prop} {state : σ} {actions : List α}
    (h : Along step cond state actions) (hother : Along step other state actions) :
    Along step (fun state action => cond state action ∧ other state action) state actions := by
  induction actions generalizing state with
  | nil => trivial
  | cons action rest ih =>
      intro next hstep
      obtain ⟨hcond, hrest⟩ := h next hstep
      obtain ⟨hcond', hrest'⟩ := hother next hstep
      exact ⟨⟨hcond, hcond'⟩, ih hrest hrest'⟩

/-- An invariant that every step preserves holds at the end of every run. -/
theorem exec_invariant {inv : σ → Prop}
    (hpreserve : ∀ state action next, inv state → step state action = some next → inv next)
    {state final : σ} {actions : List α} (hinv : inv state)
    (hrun : exec step state actions = some final) : inv final := by
  have halong : Along step (fun _ _ => True) state actions :=
    Along.of_forall (fun _ _ _ _ => trivial) state actions
  exact exec_invariant_along
    (fun state action next h _ hstep => hpreserve state action next h hstep) hinv halong hrun

/-- When every action is enabled in a state with the invariant, and its step preserves the
invariant, every list of actions can be performed, and the invariant holds at its end. -/
theorem exec_total {inv : σ → Prop}
    (hstep : ∀ state action, inv state → ∃ next, step state action = some next ∧ inv next)
    {state : σ} (hinv : inv state) (actions : List α) :
    ∃ final, exec step state actions = some final ∧ inv final := by
  induction actions generalizing state with
  | nil => exact ⟨state, rfl, hinv⟩
  | cons action rest ih =>
      obtain ⟨next, hnext, hinvNext⟩ := hstep state action hinv
      obtain ⟨final, hrun, hfinal⟩ := ih hinvNext
      exact ⟨final, exec_cons_eq_some.mpr ⟨next, hnext, hrun⟩, hfinal⟩

/-- An invariant that every step under `cond` preserves holds in every state of a run whose steps
all meet `cond`. -/
theorem always_of_along {inv good : σ → Prop} {cond : σ → α → Prop}
    (hpreserve : ∀ state action next, inv state → cond state action →
      step state action = some next → inv next)
    (hgood : ∀ state, inv state → good state) {state : σ} {actions : List α} (hinv : inv state)
    (halong : Along step cond state actions) : Always step good state actions := by
  induction actions generalizing state with
  | nil => exact hgood state hinv
  | cons action rest ih =>
      refine ⟨hgood state hinv, fun next hstep => ?_⟩
      obtain ⟨hcond, hrest⟩ := halong next hstep
      exact ih (hpreserve state action next hinv hcond hstep) hrest

/-- Every step of such a run, from a state with the invariant, satisfies what the invariant and its
condition imply. -/
theorem along_of_invariant {inv : σ → Prop} {cond other : σ → α → Prop}
    (hpreserve : ∀ state action next, inv state → cond state action →
      step state action = some next → inv next)
    (hother : ∀ state action next, inv state → cond state action →
      step state action = some next → other state action) {state : σ} {actions : List α}
    (hinv : inv state) (halong : Along step cond state actions) :
    Along step other state actions := by
  induction actions generalizing state with
  | nil => trivial
  | cons action rest ih =>
      intro next hstep
      obtain ⟨hcond, hrest⟩ := halong next hstep
      exact ⟨hother state action next hinv hcond hstep,
        ih (hpreserve state action next hinv hcond hstep) hrest⟩

/-- The last state of a run all of whose states are good is good. -/
theorem Always.final {good : σ → Prop} {state final : σ} {actions : List α}
    (h : Always step good state actions) (hrun : exec step state actions = some final) :
    good final := by
  induction actions generalizing state with
  | nil =>
      obtain rfl := Option.some.inj hrun
      exact h
  | cons action rest ih =>
      obtain ⟨next, hstep, hrest⟩ := exec_cons_eq_some.mp hrun
      exact ih (h.2 next hstep) hrest

/-- The first state of a run all of whose states are good is good. -/
theorem Always.first {good : σ → Prop} {state : σ} {actions : List α}
    (h : Always step good state actions) : good state := by
  cases actions with
  | nil => exact h
  | cons action rest => exact h.1

/-- When the steps of a run meet `dom`, and a step under `dom` out of a good state that satisfies
the invariant leads to a good state exactly under `cond`, the run stays good exactly when all of its
steps meet `cond`. -/
theorem always_iff_along_within {inv good : σ → Prop} {dom cond : σ → α → Prop}
    (hpreserve : ∀ state action next, inv state → dom state action →
      step state action = some next → inv next)
    (hexact : ∀ state action next, inv state → good state → dom state action →
      step state action = some next → (good next ↔ cond state action))
    {state : σ} {actions : List α} (hinv : inv state) (hgood : good state)
    (hdom : Along step dom state actions) :
    Always step good state actions ↔ Along step cond state actions := by
  induction actions generalizing state with
  | nil => exact ⟨fun _ => trivial, fun _ => hgood⟩
  | cons action rest ih =>
      constructor
      · rintro ⟨_, hall⟩ next hstep
        obtain ⟨hhere, hrest⟩ := hdom next hstep
        have hgoodNext := (hall next hstep).first
        exact ⟨(hexact state action next hinv hgood hhere hstep).mp hgoodNext,
          (ih (hpreserve state action next hinv hhere hstep) hgoodNext hrest).mp (hall next hstep)⟩
      · intro halong
        refine ⟨hgood, fun next hstep => ?_⟩
        obtain ⟨hhere, hrest⟩ := hdom next hstep
        obtain ⟨hcond, hafter⟩ := halong next hstep
        exact (ih (hpreserve state action next hinv hhere hstep)
          ((hexact state action next hinv hgood hhere hstep).mpr hcond) hrest).mpr hafter

/-- When a step out of a good state that satisfies the invariant leads to a good state exactly
under `cond`, a run stays good exactly when all of its steps meet `cond`. -/
theorem always_iff_along {inv good : σ → Prop} {cond : σ → α → Prop}
    (hpreserve : ∀ state action next, inv state → step state action = some next → inv next)
    (hexact : ∀ state action next, inv state → good state → step state action = some next →
      (good next ↔ cond state action))
    {state : σ} (actions : List α) (hinv : inv state) (hgood : good state) :
    Always step good state actions ↔ Along step cond state actions := by
  have hdom : Along step (fun _ _ => True) state actions :=
    Along.of_forall (fun _ _ _ _ => trivial) state actions
  exact always_iff_along_within
    (fun state action next h _ hstep => hpreserve state action next h hstep)
    (fun state action next h hgood _ hstep => hexact state action next h hgood hstep)
    hinv hgood hdom

/-- What no step brings back holds in every state of a run exactly when it holds in the last one. -/
theorem always_iff_final {inv good : σ → Prop}
    (hpreserve : ∀ state action next, inv state → step state action = some next → inv next)
    (hback : ∀ state action next, inv state → step state action = some next → good next →
      good state)
    {state final : σ} {actions : List α} (hinv : inv state)
    (hrun : exec step state actions = some final) :
    Always step good state actions ↔ good final := by
  refine ⟨fun h => h.final hrun, fun hfinal => ?_⟩
  induction actions generalizing state with
  | nil =>
      obtain rfl := Option.some.inj hrun
      exact hfinal
  | cons action rest ih =>
      obtain ⟨next, hstep, hrest⟩ := exec_cons_eq_some.mp hrun
      have halways := ih (hpreserve state action next hinv hstep) hrest
      refine ⟨hback state action next hinv hstep halways.first, fun other hother => ?_⟩
      obtain rfl := Option.some.inj (hstep.symm.trans hother)
      exact halways

/-! ## The actions so far -/

/-- A run of one more action is a run, followed by a step. -/
theorem exec_concat_eq_some {start final : σ} {past : List α} {action : α} :
    exec step start (past ++ [action]) = some final ↔
      ∃ state, exec step start past = some state ∧ step state action = some final := by
  rw [exec_append, Option.bind_eq_some_iff]
  simp [exec_cons_eq_some]

/-- Every beginning of a run is a run. -/
theorem exec_take {start final : σ} {actions : List α}
    (hrun : exec step start actions = some final) (n : Nat) :
    ∃ state, exec step start (actions.take n) = some state := by
  rw [← List.take_append_drop n actions, exec_append] at hrun
  obtain ⟨state, hstate, -⟩ := Option.bind_eq_some_iff.mp hrun
  exact ⟨state, hstate⟩

/-- A beginning of some actions is one of more actions. -/
theorem exec_take_concat {start : σ} {past : List α} {n : Nat} (hn : n ≤ past.length)
    (action : α) :
    exec step start ((past ++ [action]).take n) = exec step start (past.take n) := by
  rw [List.take_append_of_le_length hn]

/-- An invariant that may speak of the actions so far, and that every step under `cond` preserves,
holds at the end of every run whose steps all meet `cond`. -/
theorem exec_invariant_past_along {inv : List α → σ → Prop} {cond : σ → α → Prop} {start : σ}
    (hpreserve : ∀ past state action next, exec step start past = some state → inv past state →
      cond state action → step state action = some next → inv (past ++ [action]) next)
    {final : σ} {actions : List α} (hinv : inv [] start) (halong : Along step cond start actions)
    (hrun : exec step start actions = some final) : inv actions final := by
  -- induction on the actions that are still to come
  suffices h : ∀ rest past state, exec step start past = some state → inv past state →
      Along step cond state rest → exec step state rest = some final → inv (past ++ rest) final by
    exact h actions [] start rfl hinv halong hrun
  intro rest
  induction rest with
  | nil =>
      intro past state _ hinv _ hrest
      obtain rfl := Option.some.inj hrest
      simpa using hinv
  | cons action rest ih =>
      intro past state hpast hinv halong hrest
      obtain ⟨next, hstep, hrest⟩ := exec_cons_eq_some.mp hrest
      obtain ⟨hcond, halong⟩ := halong next hstep
      have hnext := hpreserve past state action next hpast hinv hcond hstep
      have hlater := ih (past ++ [action]) next
        (exec_concat_eq_some.mpr ⟨state, hpast, hstep⟩) hnext halong hrest
      rwa [List.append_assoc, List.singleton_append] at hlater

/-- An invariant that may speak of the actions so far, and that every step preserves, holds at the
end of every run. -/
theorem exec_invariant_past {inv : List α → σ → Prop} {start : σ}
    (hpreserve : ∀ past state action next, exec step start past = some state → inv past state →
      step state action = some next → inv (past ++ [action]) next)
    {final : σ} {actions : List α} (hinv : inv [] start)
    (hrun : exec step start actions = some final) : inv actions final :=
  exec_invariant_past_along
    (fun past state action next hpast h _ hstep => hpreserve past state action next hpast h hstep)
    hinv (Along.of_forall (fun _ _ _ _ => trivial) start actions) hrun

/-! ## Two machines -/

/-- When every step under `cond` is matched by a step of another machine, a run whose steps all
meet `cond` is matched by a run. -/
theorem exec_simulation {τ β : Type*} {other : τ → β → Option τ} {f : α → β} {R : σ → τ → Prop}
    {cond : σ → α → Prop}
    (hmatch : ∀ state image action next, R state image → cond state action →
      step state action = some next → ∃ following, other image (f action) = some following ∧
        R next following)
    {state final : σ} {image : τ} {actions : List α} (hrelated : R state image)
    (halong : Along step cond state actions) (hrun : exec step state actions = some final) :
    ∃ result, exec other image (actions.map f) = some result ∧ R final result := by
  induction actions generalizing state image with
  | nil =>
      obtain rfl := Option.some.inj hrun
      exact ⟨image, rfl, hrelated⟩
  | cons action rest ih =>
      obtain ⟨next, hstep, hrest⟩ := exec_cons_eq_some.mp hrun
      obtain ⟨hcond, hafter⟩ := halong next hstep
      obtain ⟨following, hother, hnext⟩ := hmatch state image action next hrelated hcond hstep
      obtain ⟨result, hresult, hfinal⟩ := ih hnext hafter hrest
      exact ⟨result, exec_cons_eq_some.mpr ⟨following, hother, hresult⟩, hfinal⟩

/-! ## One party alone -/

/-- The actions of one party, in a list of the actions of all of them. -/
def ownActions {ι : Type*} [DecidableEq ι] (party : ι) (actions : List (ι × α)) : List α :=
  actions.filterMap fun action => if action.1 = party then some action.2 else none

section OwnActions

variable {ι : Type*} [DecidableEq ι]

@[simp] theorem own_actions_nil (party : ι) : ownActions party ([] : List (ι × α)) = [] := rfl

@[simp] theorem own_actions_cons_self (party : ι) (action : α) (rest : List (ι × α)) :
    ownActions party ((party, action) :: rest) = action :: ownActions party rest := by
  simp [ownActions]

theorem own_actions_cons_ne {party other : ι} (hne : other ≠ party) (action : α)
    (rest : List (ι × α)) : ownActions party ((other, action) :: rest) = ownActions party rest := by
  simp [ownActions, hne]

/-- When a step of a party, under `cond`, is a step of the party's own machine on its own part of
the state, and leaves the parts of the others alone, each party's part goes through the run that
the party's actions make alone. -/
theorem exec_own_actions {τ : Type*} {step : σ → ι × α → Option σ} {own : ι → τ → α → Option τ}
    {part : ι → σ → τ} {cond : σ → ι × α → Prop}
    (hown : ∀ state party action next, cond state (party, action) →
      step state (party, action) = some next →
      own party (part party state) action = some (part party next))
    (hother : ∀ state party action next other, other ≠ party →
      step state (party, action) = some next → part other next = part other state)
    {state final : σ} {actions : List (ι × α)} (halong : Along step cond state actions)
    (hrun : exec step state actions = some final) (party : ι) :
    exec (own party) (part party state) (ownActions party actions) = some (part party final) := by
  induction actions generalizing state with
  | nil =>
      obtain rfl := Option.some.inj hrun
      rfl
  | cons action rest ih =>
      obtain ⟨mover, action⟩ := action
      obtain ⟨next, hstep, hrest⟩ := exec_cons_eq_some.mp hrun
      obtain ⟨hcond, hafter⟩ := halong next hstep
      have halone := ih hafter hrest
      by_cases hmover : mover = party
      · subst hmover
        rw [own_actions_cons_self]
        exact exec_cons_eq_some.mpr ⟨_, hown state mover action next hcond hstep, halone⟩
      · have hsame := hother state mover action next party (Ne.symm hmover) hstep
        rw [own_actions_cons_ne hmover, ← hsame]
        exact halone

end OwnActions

/-! ## Counting steps -/

/-- How many steps of the run satisfy `bad` in the state before them. -/
def countAlong (step : σ → α → Option σ) (bad : σ → α → Prop)
    [∀ state action, Decidable (bad state action)] : σ → List α → Nat
  | _, [] => 0
  | state, action :: rest =>
      match step state action with
      | none => 0
      | some next => (if bad state action then 1 else 0) + countAlong step bad next rest

/-- No step is counted exactly when all of them are free of `bad`. -/
theorem count_along_eq_zero_iff {bad : σ → α → Prop}
    [∀ state action, Decidable (bad state action)] (state : σ) (actions : List α) :
    countAlong step bad state actions = 0 ↔
      Along step (fun state action => ¬ bad state action) state actions := by
  induction actions generalizing state with
  | nil => exact iff_of_true rfl trivial
  | cons action rest ih =>
      cases hstep : step state action with
      | none => simp [countAlong, Along, hstep]
      | some next =>
          simp only [countAlong, Along, hstep, Nat.add_eq_zero_iff, ih next, Option.some.injEq,
            forall_eq']
          refine and_congr_left fun _ => ?_
          split <;> simp_all

/-! ## Logs -/

/-- A machine that keeps a log of what is observed of its steps. -/
def logged {β : Type*} (step : σ → α → Option σ) (observe : σ → α → List β) :
    σ × List β → α → Option (σ × List β)
  | (state, log), action => (step state action).map fun next => (next, log ++ observe state action)

/-- A logged step is a step that appends what is observed of it. -/
theorem logged_eq_some {β : Type*} {observe : σ → α → List β} {state next : σ × List β}
    {action : α} :
    logged step observe state action = some next ↔
      step state.1 action = some next.1 ∧ next.2 = state.2 ++ observe state.1 action := by
  obtain ⟨current, log⟩ := state
  obtain ⟨following, log'⟩ := next
  cases hstep : step current action with
  | none => simp [logged, hstep]
  | some reached => simp [logged, hstep, eq_comm]

/-- A condition that does not look at the log holds along a logged run when it holds along the
run. -/
theorem along_logged {β : Type*} {observe : σ → α → List β} {cond : σ → α → Prop}
    (state : σ × List β) (actions : List α) :
    Along (logged step observe) (fun state action => cond state.1 action) state actions ↔
      Along step cond state.1 actions := by
  induction actions generalizing state with
  | nil => exact Iff.rfl
  | cons action rest ih =>
      constructor
      · intro h next hstep
        obtain ⟨hcond, hrest⟩ := h (next, state.2 ++ observe state.1 action)
          (logged_eq_some.mpr ⟨hstep, rfl⟩)
        exact ⟨hcond, (ih _).mp hrest⟩
      · intro h next hstep
        obtain ⟨hcond, hrest⟩ := h next.1 (logged_eq_some.mp hstep).1
        exact ⟨hcond, (ih next).mpr hrest⟩

/-! ## Parties in lists -/

section Parties

variable {τ : Type*} {parties : List τ} {good : τ → Prop}

/-- What holds of all parties and of one that joins holds of all of them then. -/
theorem forall_mem_concat {joined : τ} (h : ∀ party ∈ parties, good party) (hjoined : good joined) :
    ∀ party ∈ parties ++ [joined], good party :=
  List.forall_mem_append.mpr ⟨h, List.forall_mem_singleton.mpr hjoined⟩

/-- What holds of all parties, and of one after it has moved, holds of all of them then. -/
theorem forall_mem_set {i : Nat} {moved : τ} (h : ∀ party ∈ parties, good party)
    (hmoved : good moved) : ∀ party ∈ parties.set i moved, good party := by
  intro party hparty
  rcases List.mem_or_eq_of_mem_set hparty with hold | rfl
  · exact h party hold
  · exact hmoved

/-- The party that has moved is there. -/
theorem moved_mem_set {i : Nat} {party moved : τ} (hparty : parties[i]? = some party) :
    moved ∈ parties.set i moved := by
  obtain ⟨hlt, -⟩ := List.getElem?_eq_some_iff.mp hparty
  exact List.mem_of_getElem? (List.getElem?_set_self hlt)

/-- The other parties are there as they were. -/
theorem mem_set_of_ne {i : Nat} {party other moved : τ} (hparty : parties[i]? = some party)
    (hother : other ∈ parties) (hne : other ≠ party) : other ∈ parties.set i moved := by
  obtain ⟨j, hj⟩ := List.mem_iff_getElem?.mp hother
  have hindex : i ≠ j := by
    rintro rfl
    exact hne (Option.some.inj (hj.symm.trans hparty))
  exact List.mem_of_getElem? ((List.getElem?_set_ne hindex).trans hj)

end Parties

end UniShare.Lib
