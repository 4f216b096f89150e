import UniShare.Controller.Wrapped

/-!
# Both accelerators in one process

`pthread_once` starts one `source_control` thread for the GPU and one for the MLU. `cur_cores` and
`total_cores` are file-scope variables of `pc_alg.c`, so there is one of each for both threads and
for the launches of both sides. Everything else that `wrappedStep` looks at, a side has for itself.
A side that finds the two variables as its own last writes left them does what it would do alone.
-/

namespace UniShare.Controller

open Lib

/-- What the two controllers of a process are started with; the limit is that of `config_data` for
both. -/
structure Process where
  context : Accelerator → IntContext
  accelerator_eq : ∀ side, (context side).accelerator = side
  limit_eq : (context .mlu).yamlLimit = (context .gpu).yamlLimit

/-- Values of `cur_cores` and `total_cores`. -/
structure Cores where
  cur : Int
  total : Int
  deriving DecidableEq, Repr

/-- What a side has for itself: its threads, and the records of its ticks and launches. -/
structure Side (τ : Type) where
  control : Control
  launches : τ → Launch
  grants : List Grant
  admitted : List Admission

/-- A process. `left` is a ghost: what the last write of each side to each variable left in it. -/
structure Both (τ : Type) where
  shared : Cores
  side : Accelerator → Side τ
  left : Accelerator → Cores

variable {τ : Type}

/-- What a controller has for itself. -/
def State.side (state : State τ) : Side τ :=
  ⟨state.control, state.launches, state.grants, state.admitted⟩

/-- The state of the controller of a side that finds these values in the variables. -/
def Side.finds (side : Side τ) (cores : Cores) : State τ :=
  ⟨cores.cur, cores.total, side.control, side.launches, side.grants, side.admitted⟩

/-- The state in which the library is loaded. -/
def Both.initial (τ : Type) : Both τ :=
  ⟨⟨0, 0⟩, fun _ => (State.initial τ).side, fun _ => ⟨0, 0⟩⟩

variable [DecidableEq τ]

/-- What the last writes of a side have left after one more of its steps, from `state` to `next`. -/
def leftAfter (state next : State τ) (left : Cores) : Action τ → Cores
  | .prologue => { left with total := next.totalCores }
  | .store => { left with cur := next.curCores }
  | .cas =>
      match state.control with
      | .cas _ coresBefore =>
          if state.curCores = coresBefore then { left with cur := next.curCores } else left
      | _ => left
  | .commit thread =>
      match state.launches thread with
      | .cas _ beforeCores =>
          if state.curCores = beforeCores then { left with cur := next.curCores } else left
      | _ => left
  | .tick _ | .load | .call _ _ | .check _ => left

/-- One step of one side. -/
def bothStep (process : Process) (state : Both τ) : Accelerator × Action τ → Option (Both τ)
  | (side, action) =>
      let before := (state.side side).finds state.shared
      (wrappedStep (process.context side) before action).map fun next =>
        { shared := ⟨next.curCores, next.totalCores⟩
          side := Function.update state.side side next.side
          left := Function.update state.left side
            (leftAfter before next (state.left side) action) }

/-- What a step with these values in the variables uses of them is what its side has left. -/
def UsesOwn (shared left : Cores) : Action τ → Prop
  | .prologue | .call _ _ => True
  | .tick _ => shared.total = left.total
  -- the store only overwrites `cur_cores`, but what it grants is measured against it
  | .store | .load | .check _ | .commit _ => shared.cur = left.cur
  | .cas => shared = left

instance (shared left : Cores) : ∀ action : Action τ, Decidable (UsesOwn shared left action)
  | .prologue | .call _ _ => .isTrue trivial
  | .tick _ => inferInstanceAs (Decidable (shared.total = left.total))
  | .store | .load | .check _ | .commit _ => inferInstanceAs (Decidable (shared.cur = left.cur))
  | .cas => inferInstanceAs (Decidable (shared = left))

/-- The step finds in the variables that it uses what the last writes of its own side left there. -/
def FindsOwn (state : Both τ) (action : Accelerator × Action τ) : Prop :=
  UsesOwn state.shared (state.left action.1) action.2

instance (state : Both τ) (action : Accelerator × Action τ) : Decidable (FindsOwn state action) :=
  inferInstanceAs (Decidable (UsesOwn _ _ _))

/-- So it does, and no operation of its delta function overflows. -/
def ActsAlone (process : Process) (state : Both τ) (action : Accelerator × Action τ) : Prop :=
  FindsOwn state action ∧
    TickInRange (process.context action.1).toContext ((state.side action.1).finds state.shared)
      action.2

instance (process : Process) (state : Both τ) (action : Accelerator × Action τ) :
    Decidable (ActsAlone process state action) :=
  inferInstanceAs (Decidable (_ ∧ _))

/-- A side decides alone: its own steps, without any step of the other side, bring its threads to
the same points with the same values, and make the same grants and admissions; and its share is
within the cores of its own card. -/
def DecidesAlone (process : Process) (actions : List (Accelerator × Action τ)) (state : Both τ)
    (side : Accelerator) : Prop :=
  (∃ alone, exec (wrappedStep (process.context side)) (State.initial τ)
      (ownActions side actions) = some alone ∧ alone.side = state.side side) ∧
    0 ≤ (state.side side).control.share ∧
    (state.side side).control.share ≤ (process.context side).totalCores

/-! ## A side alone -/

/-- The state of a side alone: it finds what its own last writes left. -/
def Both.alone (side : Accelerator) (state : Both τ) : State τ :=
  (state.side side).finds (state.left side)

/-- A step that uses only what its side has left is a step of the side alone. -/
theorem step_alone {ctx : IntContext} {side : Side τ} {shared left : Cores} {action : Action τ}
    {next : State τ} (huses : UsesOwn shared left action)
    (hstep : wrappedStep ctx (side.finds shared) action = some next) :
    wrappedStep ctx (side.finds left) action =
      some (next.side.finds (leftAfter (side.finds shared) next left action)) := by
  obtain ⟨control, launches, grants, admitted⟩ := side
  obtain ⟨cur, total⟩ := shared
  obtain ⟨leftCur, leftTotal⟩ := left
  change wrappedStep ctx ⟨cur, total, control, launches, grants, admitted⟩ action = some next
    at hstep
  change wrappedStep ctx ⟨leftCur, leftTotal, control, launches, grants, admitted⟩ action = _
  cases action with
  | prologue =>
      simp only [wrappedStep, step] at hstep ⊢
      split at hstep <;> cases hstep
      rfl
  | call =>
      simp only [wrappedStep, step] at hstep ⊢
      split at hstep
      · rename_i hint
        rw [if_pos hint]
        split at hstep <;> cases hstep
        rfl
      · cases hstep
  | tick uti =>
      obtain rfl : total = leftTotal := huses
      simp only [wrappedStep] at hstep ⊢
      split at hstep
      · split at hstep <;> cases hstep <;> simp [State.side, Side.finds, leftAfter, *]
      · cases hstep
  | store | load =>
      obtain rfl : cur = leftCur := huses
      simp only [wrappedStep, step] at hstep ⊢
      split at hstep <;> cases hstep
      rfl
  | cas =>
      obtain ⟨rfl, rfl⟩ := Cores.mk.inj huses
      simp only [wrappedStep] at hstep ⊢
      split at hstep
      · split at hstep <;> cases hstep <;> simp [State.side, Side.finds, leftAfter, *]
      · cases hstep
  | check thread | commit thread =>
      obtain rfl : cur = leftCur := huses
      simp only [wrappedStep, step] at hstep ⊢
      split at hstep
      · split at hstep <;> cases hstep <;>
          simp [State.side, Side.finds, State.setLaunch, leftAfter, *]
      · cases hstep

/-- So it is when the step is one of the process. -/
theorem alone_of_both_step {process : Process} {state next : Both τ} {side : Accelerator}
    {action : Action τ} (h : ActsAlone process state (side, action))
    (hstep : bothStep process state (side, action) = some next) :
    wrappedStep (process.context side) (state.alone side) action = some (next.alone side) := by
  simp only [bothStep, Option.map_eq_some_iff] at hstep
  obtain ⟨own, hown, rfl⟩ := hstep
  simpa [Both.alone] using step_alone h.1 hown

omit [DecidableEq τ] in
/-- A tick that finds its own total is in range when it is in range for the side alone. -/
theorem tick_in_range_alone {process : Process} {state : Both τ} {side : Accelerator}
    {action : Action τ} (h : ActsAlone process state (side, action)) :
    TickInRange (process.context side).toContext (state.alone side) action := by
  obtain ⟨hfinds, htick⟩ := h
  cases action with
  | tick uti =>
      have htotal : state.shared.total = (state.left side).total := hfinds
      show (state.side side).control.TickInRange _ (state.left side).total _
      rw [← htotal]
      exact htick
  | _ => trivial

/-- A step of one side does not touch what the other has for itself, nor what it has left. -/
theorem alone_of_other_step {process : Process} {state next : Both τ} {side other : Accelerator}
    {action : Action τ} (hother : other ≠ side)
    (hstep : bothStep process state (side, action) = some next) :
    next.alone other = state.alone other := by
  simp only [bothStep, Option.map_eq_some_iff] at hstep
  obtain ⟨own, -, rfl⟩ := hstep
  simp [Both.alone, Function.update_of_ne hother]

/-- The controller of each side, alone, is within the total of its side. -/
def AloneBounded (process : Process) (state : Both τ) : Prop :=
  ∀ side, ControlBounded (process.context side).toContext (state.alone side)

/-- A step that acts alone keeps both controllers within the totals of their sides. -/
theorem alone_bounded_step {process : Process} {state next : Both τ}
    {action : Accelerator × Action τ} (h : AloneBounded process state)
    (halone : ActsAlone process state action)
    (hstep : bothStep process state action = some next) : AloneBounded process next := by
  intro side
  obtain ⟨mover, action⟩ := action
  by_cases hmover : side = mover
  · subst hmover
    exact control_bounded_wrapped (h side) (tick_in_range_alone halone)
      (alone_of_both_step halone hstep)
  · rw [alone_of_other_step hmover hstep]
    exact h side

/-! ## The result -/

/-- In every state that is reached in a run whose steps all act alone, each side has decided
alone. -/
theorem decides_alone_along (process : Process) {actions : List (Accelerator × Action τ)}
    (h : Along (bothStep process) (ActsAlone process) (Both.initial τ) actions)
    {before : List (Accelerator × Action τ)} (hbefore : before <+: actions) {state : Both τ}
    (hrun : exec (bothStep process) (Both.initial τ) before = some state) (side : Accelerator) :
    DecidesAlone process before state side := by
  have halong := h.beginning hbefore
  have halone : exec (wrappedStep (process.context side)) (State.initial τ)
      (ownActions side before) = some (state.alone side) :=
    exec_own_actions (fun _ _ _ _ => alone_of_both_step) (fun _ _ _ _ _ => alone_of_other_step)
      halong hrun side
  have hinitial : AloneBounded process (Both.initial τ) :=
    fun side => (bounded_initial (process.context side).toContext (le_refl 0)).control
  have hbounded := exec_invariant_along
    (fun _ _ _ hinv hacts hstep => alone_bounded_step hinv hacts hstep) hinitial halong hrun side
  refine ⟨⟨state.alone side, halone, rfl⟩, hbounded.share_nonneg, ?_⟩
  show (state.alone side).control.share ≤ (process.context side).totalCores
  by_cases hstart : (state.alone side).control = .start
  · rw [hstart]
    exact (process.context side).total_nonneg
  · exact hbounded.total_started hstart ▸ hbounded.share_le

/-- A process with a GPU of 40 processors and an MLU of 16 cores, under a limit of 50 percent. -/
def halfProcess : Process where
  context
    | .gpu => halfIntCard
    | .mlu => mluIntCard
  accelerator_eq side := by cases side <;> rfl
  limit_eq := rfl

/-- Both controllers tick and both sides launch, and only the swap of the MLU's launch has been
made. -/
def takingTurns : List (Accelerator × Action Nat) :=
  [(.mlu, .prologue), (.mlu, .tick 60), (.mlu, .load), (.gpu, .prologue), (.gpu, .tick 20),
    (.mlu, .call 0 10), (.mlu, .check 0), (.gpu, .call 0 5), (.gpu, .check 0), (.mlu, .commit 0)]

/-- Then each side is as it would be without the other. -/
theorem decides_alone_taking_turns : ∃ state,
    exec (bothStep halfProcess) (Both.initial Nat) takingTurns = some state ∧
      ∀ side, DecidesAlone halfProcess takingTurns state side := by
  have halong : Along (bothStep halfProcess) (ActsAlone halfProcess) (Both.initial Nat)
      takingTurns := by decide
  exact ⟨_, rfl, decides_alone_along halfProcess halong (List.prefix_refl _) rfl⟩

/-- The GPU is started after the MLU, and the MLU makes seven ticks. -/
def mluAfterGpu : List (Accelerator × Action Nat) :=
  [(.mlu, .prologue), (.gpu, .prologue)] ++
    (List.replicate 7 [(.mlu, .tick 5), (.mlu, .load), (.mlu, .cas)]).flatten

/-- Then the share of the MLU is more than the cores of its card: it is clamped by those of the
GPU. -/
theorem decides_alone_clamped : ∃ state,
    exec (bothStep halfProcess) (Both.initial Nat) mluAfterGpu = some state ∧
      ¬ DecidesAlone halfProcess mluAfterGpu state .mlu :=
  ⟨_, rfl, fun h => absurd h.2.2 (by decide)⟩

end UniShare.Controller
