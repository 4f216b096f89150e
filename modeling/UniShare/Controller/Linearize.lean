import UniShare.Controller.Bucket
import UniShare.Lib.Amortized
import UniShare.Lib.Refinement

/-!
# The bucket at the granularity of whole operations

`rate_limiter`, and a tick of `source_control`, take several steps each, and other threads move in
between. `Tokens` is the bucket as its users think of it: a launch and a tick are one operation.
`linearizable` says that every interleaving of the steps does what some sequence of operations does,
with the launches in the order of their admissions and the ticks in the order of their samples. The
rest of the module is about the cost and the yield of the steps: how often a compare-and-swap is
retried, and how much a window of the run can admit.
-/

namespace UniShare.Controller

open Lib

/-! ## The bucket of whole operations -/

/-- The bucket: whether the controller has been started, the shared variables, and the share of the
controller. -/
structure Tokens where
  started : Bool
  curCores : Int
  totalCores : Int
  share : Int
  deriving DecidableEq, Repr

/-- What is done to the bucket: the controller is started, it ticks with this utilisation, or a
launch of this size is admitted. -/
inductive Operation where
  | start
  | tick (uti : UInt32)
  | launch (kernelSize : Int)
  deriving DecidableEq, Repr

/-- The bucket before anything has been done. -/
def Tokens.initial : Tokens := ⟨false, 0, 0, 0⟩

/-- One whole operation. A launch waits while the bucket is in debt. A tick under low utilisation
sets the bucket to the new share and forgets it; any other tick keeps the share and adds it. -/
def Tokens.step (ctx : Context) (tokens : Tokens) : Operation → Option Tokens
  | .start =>
      if tokens.started then none
      else some { tokens with started := true, totalCores := ctx.totalCores }
  | .tick uti =>
      let value := ctx.delta tokens.totalCores uti.toInt32.toInt tokens.share
      if ¬ tokens.started then none
      else if ctx.lowUtilisation uti then some { tokens with curCores := value }
      else some { tokens with
        curCores := coresAfter tokens.totalCores tokens.curCores value
        share := value }
  | .launch kernelSize =>
      if tokens.curCores < 0 then none
      else some { tokens with curCores := tokens.curCores - kernelSize }

/-- The utilisation that an operation is a tick for. -/
def Operation.sampled : Operation → List UInt32
  | .tick uti => [uti]
  | _ => []

/-- The size that an operation admits. -/
def Operation.launched : Operation → List Int
  | .launch kernelSize => [kernelSize]
  | _ => []

/-- The utilisation that a step samples. -/
def Action.sampled {τ : Type} : Action τ → List UInt32
  | .tick uti => [uti]
  | _ => []

variable {τ : Type} [DecidableEq τ]

/-! ## The simulation -/

/-- How the controller's point belongs to the bucket, with the utilisations of the finished ticks
and the samples taken. Between its sample and its write a tick is still to come. -/
inductive ControlLinearized (ctx : Context) (tokens : Tokens) (ticks samples : List UInt32) :
    Control → Prop where
  | start : tokens.started = false → tokens.share = 0 → samples = ticks →
      ControlLinearized ctx tokens ticks samples .start
  | wait : tokens.started = true → samples = ticks →
      ControlLinearized ctx tokens ticks samples (.wait tokens.share)
  | store (uti) : tokens.started = true → samples = ticks ++ [uti] → ctx.lowUtilisation uti →
      ControlLinearized ctx tokens ticks samples
        (.store tokens.share (ctx.delta tokens.totalCores uti.toInt32.toInt tokens.share))
  | load (uti) : tokens.started = true → samples = ticks ++ [uti] → ¬ ctx.lowUtilisation uti →
      ControlLinearized ctx tokens ticks samples
        (.load (ctx.delta tokens.totalCores uti.toInt32.toInt tokens.share))
  | cas (uti coresBefore) : tokens.started = true → samples = ticks ++ [uti] →
      ¬ ctx.lowUtilisation uti →
      ControlLinearized ctx tokens ticks samples
        (.cas (ctx.delta tokens.totalCores uti.toInt32.toInt tokens.share) coresBefore)

/-- How a state belongs to the bucket. A thread at its compare-and-swap has seen a bucket without
debt, so that the launch may be admitted whenever the swap succeeds. -/
structure Linearized (ctx : Context) (state : State τ) (samples : List UInt32) (tokens : Tokens)
    (operations : List Operation) : Prop where
  cores : tokens.curCores = state.curCores
  total : tokens.totalCores = state.totalCores
  control : ControlLinearized ctx tokens (operations.flatMap Operation.sampled) samples
    state.control
  launched : operations.flatMap Operation.launched = state.admitted.map Admission.kernelSize
  seen : ∀ thread kernelSize beforeCores,
    state.launches thread = .cas kernelSize beforeCores → 0 ≤ beforeCores

section Simulation

variable {ctx : Context} {state next : State τ} {samples : List UInt32} {tokens : Tokens}
  {operations : List Operation}

/-- The controller's point does not depend on what is in the bucket. -/
theorem ControlLinearized.set_cores {ticks : List UInt32} {control : Control}
    (h : ControlLinearized ctx tokens ticks samples control) (curCores : Int) :
    ControlLinearized ctx { tokens with curCores := curCores } ticks samples control := by
  cases h with
  | start hstarted hshare hsamples => exact .start hstarted hshare hsamples
  | wait hstarted hsamples => exact .wait hstarted hsamples
  | store uti hstarted hsamples hlow => exact .store uti hstarted hsamples hlow
  | load uti hstarted hsamples hlow => exact .load uti hstarted hsamples hlow
  | cas uti coresBefore hstarted hsamples hlow => exact .cas uti coresBefore hstarted hsamples hlow

omit [DecidableEq τ] in
/-- At first nothing has been done. -/
theorem linearized_initial (ctx : Context) :
    Linearized ctx (State.initial τ) [] Tokens.initial [] :=
  ⟨rfl, rfl, .start rfl rfl rfl, rfl, by simp [State.initial]⟩

omit [DecidableEq τ] in
/-- A step of the controller that writes nothing to the bucket is no operation. -/
theorem Linearized.moved (h : Linearized ctx state samples tokens operations) {control : Control}
    {samples' : List UInt32} (hcontrol : ControlLinearized ctx tokens
      (operations.flatMap Operation.sampled) samples' control) :
    Linearized ctx { state with control := control } samples' tokens operations :=
  ⟨h.cores, h.total, hcontrol, h.launched, h.seen⟩

/-- A launching thread that moves without writing is no operation. -/
theorem Linearized.set_launch (h : Linearized ctx state samples tokens operations) (thread : τ)
    {launch : Launch}
    (hseen : ∀ kernelSize beforeCores, launch = .cas kernelSize beforeCores → 0 ≤ beforeCores) :
    Linearized ctx (state.setLaunch thread launch) samples tokens operations := by
  refine ⟨h.cores, h.total, h.control, h.launched, fun other kernelSize beforeCores hother => ?_⟩
  by_cases hsame : other = thread
  · subst hsame
    exact hseen kernelSize beforeCores (by simpa [State.setLaunch] using hother)
  · refine h.seen other kernelSize beforeCores ?_
    simpa [State.setLaunch, Function.update_of_ne hsame] using hother

/-- What a step is at the granularity of operations: nothing or one operation. -/
theorem linearized_step {action : Action τ}
    (h : Linearized ctx state samples tokens operations)
    (hstep : step ctx state action = some next) :
    ∃ others following, exec (Tokens.step ctx) tokens others = some following ∧
      Linearized ctx next (samples ++ action.sampled) following (operations ++ others) := by
  -- steps without a write, that sample nothing
  have hquiet : Linearized ctx next samples tokens operations → action.sampled = [] →
      ∃ others following, exec (Tokens.step ctx) tokens others = some following ∧
        Linearized ctx next (samples ++ action.sampled) following (operations ++ others) := by
    intro hnext hsampled
    exact ⟨[], tokens, rfl, by simpa [hsampled] using hnext⟩
  have hcontrol := h.control
  cases action with
  | prologue =>
      simp only [step] at hstep
      split at hstep <;> cases hstep
      rename_i hpoint
      rw [hpoint] at hcontrol
      cases hcontrol with
      | start hstarted hshare hsamples =>
          let following : Tokens := { tokens with started := true, totalCores := ctx.totalCores }
          have hwait : ControlLinearized ctx following
              ((operations ++ [Operation.start]).flatMap Operation.sampled) (samples ++ [])
              (.wait following.share) :=
            .wait rfl (by simp [Operation.sampled, hsamples])
          rw [show following.share = 0 from hshare] at hwait
          exact ⟨[.start], following, by simp [exec, Tokens.step, hstarted, following], h.cores,
            rfl, hwait, by simp [Operation.launched, h.launched], h.seen⟩
  | tick uti =>
      simp only [step] at hstep
      split at hstep
      · rename_i share hpoint
        rw [hpoint] at hcontrol
        cases hcontrol with
        | wait hstarted hsamples =>
            have hsampled : samples ++ [uti] = operations.flatMap Operation.sampled ++ [uti] := by
              rw [hsamples]
            refine ⟨[], tokens, rfl, ?_⟩
            rw [List.append_nil]
            split at hstep <;> cases hstep
            · rename_i hlow
              have hstore := ControlLinearized.store uti hstarted hsampled hlow
              rw [h.total] at hstore
              exact h.moved hstore
            · rename_i hlow
              have hload := ControlLinearized.load uti hstarted hsampled hlow
              rw [h.total] at hload
              exact h.moved hload
      · cases hstep
  | store =>
      simp only [step] at hstep
      split at hstep <;> cases hstep
      rename_i share value hpoint
      rw [hpoint] at hcontrol
      cases hcontrol with
      | store uti hstarted hsamples hlow =>
          refine ⟨[.tick uti], { tokens with
            curCores := ctx.delta tokens.totalCores uti.toInt32.toInt tokens.share },
            by simp [exec, Tokens.step, hstarted, hlow], rfl, h.total, ?_,
            by simp [Operation.launched, h.launched], h.seen⟩
          exact .wait hstarted (by simp [Operation.sampled, Action.sampled, hsamples])
  | load =>
      simp only [step] at hstep
      split at hstep <;> cases hstep
      rename_i share hpoint
      rw [hpoint] at hcontrol
      cases hcontrol with
      | load uti hstarted hsamples hlow =>
          exact hquiet (h.moved (.cas uti state.curCores hstarted hsamples hlow)) rfl
  | cas =>
      simp only [step] at hstep
      split at hstep
      · rename_i share coresBefore hpoint
        rw [hpoint] at hcontrol
        cases hcontrol with
        | cas uti _ hstarted hsamples hlow =>
            split at hstep <;> cases hstep
            · rename_i hequal
              refine ⟨[.tick uti], { tokens with
                curCores := coresAfter tokens.totalCores tokens.curCores
                  (ctx.delta tokens.totalCores uti.toInt32.toInt tokens.share)
                share := ctx.delta tokens.totalCores uti.toInt32.toInt tokens.share },
                by simp [exec, Tokens.step, hstarted, hlow], ?_, h.total, ?_,
                by simp [Operation.launched, h.launched], h.seen⟩
              · show coresAfter tokens.totalCores tokens.curCores _ = coresAfter _ coresBefore _
                rw [h.cores, h.total, hequal]
              · exact .wait hstarted (by simp [Operation.sampled, Action.sampled, hsamples])
            · exact hquiet (h.moved (.load uti hstarted hsamples hlow)) rfl
      · cases hstep
  | call thread kernelSize =>
      simp only [step] at hstep
      split at hstep <;> cases hstep
      exact hquiet (h.set_launch thread (by simp)) rfl
  | check thread =>
      simp only [step] at hstep
      split at hstep
      · split at hstep <;> cases hstep
        · exact hquiet h rfl
        · rename_i hdebt
          refine hquiet (h.set_launch thread fun _ _ heq => ?_) rfl
          cases heq
          omega
      · cases hstep
  | commit thread =>
      simp only [step] at hstep
      split at hstep
      · rename_i kernelSize beforeCores hpoint
        have hnodebt := h.seen thread kernelSize beforeCores hpoint
        split at hstep <;> cases hstep
        · rename_i hequal
          have hidle : Linearized ctx (state.setLaunch thread .idle) samples tokens operations :=
            h.set_launch thread (by simp)
          refine ⟨[.launch kernelSize], { tokens with curCores := tokens.curCores - kernelSize },
            ?_, ?_, h.total, ?_, ?_, hidle.seen⟩
          · have hcores := h.cores
            simp only [exec, Tokens.step]
            rw [if_neg (by omega)]
            rfl
          · show tokens.curCores - kernelSize = beforeCores - kernelSize
            rw [h.cores, hequal]
          · have hsame := hcontrol.set_cores (tokens.curCores - kernelSize)
            simpa [Operation.sampled, Action.sampled, State.setLaunch] using hsame
          · simp [Operation.launched, h.launched]
        · exact hquiet (h.set_launch thread (by simp)) rfl
      · cases hstep

end Simulation

/-- Every interleaving of `source_control` with threads in `rate_limiter` is linearizable: some
sequence of whole ticks and whole launches leads to the same bucket, admits the same sizes in the
same order, and ticks for the sampled utilisations in their order. Only a tick that has not written
yet may be missing. -/
theorem linearizable (ctx : Context) (actions : List (Action τ)) (state : State τ)
    (hrun : exec (step ctx) (State.initial τ) actions = some state) :
    ∃ operations tokens, exec (Tokens.step ctx) Tokens.initial operations = some tokens ∧
      tokens.curCores = state.curCores ∧ tokens.totalCores = state.totalCores ∧
      operations.flatMap Operation.launched = state.admitted.map Admission.kernelSize ∧
      (∃ pending, pending.length ≤ 1 ∧
        actions.flatMap Action.sampled = operations.flatMap Operation.sampled ++ pending) ∧
      ∀ share, state.control = .wait share → tokens.share = share ∧
        actions.flatMap Action.sampled = operations.flatMap Operation.sampled := by
  have hmatch : ∀ (state : State τ) samples tokens operations action next,
      Linearized ctx state samples tokens operations → step ctx state action = some next →
      ∃ others following, exec (Tokens.step ctx) tokens others = some following ∧
        Linearized ctx next (samples ++ action.sampled) following
          (operations ++ others.flatMap fun operation => [operation]) := by
    intro state samples tokens operations action next h hstep
    rw [funext fun others : List Operation => List.flatMap_singleton' others]
    exact linearized_step h hstep
  obtain ⟨operations, tokens, hoperations, hfinal⟩ :=
    exec_matched_recorded hmatch (linearized_initial ctx) hrun
  rw [List.flatMap_singleton'] at hfinal
  refine ⟨operations, tokens, hoperations, hfinal.cores, hfinal.total, hfinal.launched, ?_, ?_⟩
  · have hcontrol := hfinal.control
    generalize state.control = control at hcontrol
    cases hcontrol with
    | start _ _ hsamples => exact ⟨[], by simp, by simp [hsamples]⟩
    | wait _ hsamples => exact ⟨[], by simp, by simp [hsamples]⟩
    | store uti _ hsamples => exact ⟨[uti], by simp, hsamples⟩
    | load uti _ hsamples => exact ⟨[uti], by simp, hsamples⟩
    | cas uti _ _ hsamples => exact ⟨[uti], by simp, hsamples⟩
  · intro share hwait
    have hcontrol := hfinal.control
    rw [hwait] at hcontrol
    cases hcontrol with
    | wait _ hsamples => exact ⟨rfl, hsamples⟩

/-- Two launches that race for the empty bucket, and the idle tick that lets the second one in. -/
def racing : List (Action Nat) :=
  [.prologue, .call 0 10, .call 1 20, .check 0, .check 1, .commit 0, .commit 1, .check 1, .tick 0,
    .store, .check 1, .commit 1]

/-- The operations that the racing launches come to. -/
theorem linearizable_racing :
    ∃ state, exec (step halfCard) (State.initial Nat) racing = some state ∧
      ∃ operations tokens, exec (Tokens.step halfCard) Tokens.initial operations = some tokens ∧
        tokens.curCores = state.curCores ∧ tokens.totalCores = state.totalCores ∧
        operations.flatMap Operation.launched = state.admitted.map Admission.kernelSize ∧
        (∃ pending, pending.length ≤ 1 ∧
          racing.flatMap Action.sampled = operations.flatMap Operation.sampled ++ pending) ∧
        ∀ share, state.control = .wait share → tokens.share = share ∧
          racing.flatMap Action.sampled = operations.flatMap Operation.sampled :=
  ⟨_, rfl, linearizable halfCard racing _ rfl⟩

/-! ## Retries -/

/-- Who reads and writes the bucket: the controller, or a launching thread. -/
abbrev Party (τ : Type) := Option τ

/-- The party whose write to `cur_cores` the step is. -/
def writer (state : State τ) : Action τ → Option (Party τ)
  | .store =>
      match state.control with
      | .store _ _ => some none
      | _ => none
  | .cas =>
      match state.control with
      | .cas _ coresBefore => if state.curCores = coresBefore then some none else none
      | _ => none
  | .commit thread =>
      match state.launches thread with
      | .cas _ beforeCores => if state.curCores = beforeCores then some (some thread) else none
      | _ => none
  | _ => none

/-- The party whose compare-and-swap the step is. -/
def swapper : Action τ → Option (Party τ)
  | .cas => some none
  | .commit thread => some (some thread)
  | _ => none

/-- The step is a compare-and-swap of the party that fails, so that its loop goes round again. -/
def Retries (party : Party τ) (state : State τ) (action : Action τ) : Prop :=
  swapper action = some party ∧ writer state action = none

/-- The step is a write of another party. -/
def WrittenByOther (party : Party τ) (state : State τ) (action : Action τ) : Prop :=
  ∃ other, writer state action = some other ∧ other ≠ party

instance (party : Party τ) (state : State τ) (action : Action τ) :
    Decidable (Retries party state action) :=
  inferInstanceAs (Decidable (_ ∧ _))

instance (party : Party τ) (state : State τ) (action : Action τ) :
    Decidable (WrittenByOther party state action) :=
  match hwriter : writer state action with
  | none => isFalse (by simp [WrittenByOther, hwriter])
  | some other => decidable_of_iff (other ≠ party) (by simp [WrittenByOther, hwriter])

/-- The value that the party has loaded and is about to swap. -/
def loaded (state : State τ) : Party τ → Option Int
  | none =>
      match state.control with
      | .cas _ coresBefore => some coresBefore
      | _ => none
  | some thread =>
      match state.launches thread with
      | .cas _ beforeCores => some beforeCores
      | _ => none

/-- One when the party has loaded a value that is not there any more. -/
def stale (party : Party τ) (state : State τ) : Nat :=
  match loaded state party with
  | some value => if value = state.curCores then 0 else 1
  | none => 0

section Retries

variable {ctx : Context} {state next : State τ} {action : Action τ} {party : Party τ}

omit [DecidableEq τ] in
theorem stale_le (party : Party τ) (state : State τ) : stale party state ≤ 1 := by
  unfold stale
  split
  · split <;> omega
  · omega

omit [DecidableEq τ] in
/-- What a party has loaded just now is not stale. -/
theorem stale_of_loaded {value : Int} (hloaded : loaded state party = some value)
    (hvalue : value = state.curCores) : stale party state = 0 := by
  simp [stale, hloaded, hvalue]

omit [DecidableEq τ] in
theorem stale_of_none (hloaded : loaded state party = none) : stale party state = 0 := by
  simp [stale, hloaded]

/-- A step that nobody writes with leaves the bucket as it is. -/
theorem cores_of_no_writer (hstep : step ctx state action = some next)
    (hwriter : writer state action = none) : next.curCores = state.curCores := by
  cases effect_of_step hstep with
  | quiet _ _ hcores => exact hcores
  | prologue _ hcores => exact hcores
  | store share value hpoint => simp [writer, hpoint] at hwriter
  | grant share hpoint => simp [writer, hpoint] at hwriter
  | admission thread kernelSize hpoint => simp [writer, hpoint] at hwriter

/-- After its compare-and-swap, which writes when the value that it has loaded is still there, a
party has nothing loaded. -/
theorem loaded_of_swap (hstep : step ctx state action = some next)
    (hswap : swapper action = some party) :
    loaded next party = none ∧ ∃ value, loaded state party = some value ∧
      writer state action = if state.curCores = value then some party else none := by
  cases action with
  | cas =>
      obtain rfl := Option.some.inj hswap
      simp only [step] at hstep
      split at hstep
      · rename_i share coresBefore hpoint
        refine ⟨?_, coresBefore, by simp [loaded, hpoint], by simp [writer, hpoint]⟩
        split at hstep <;> cases hstep <;> rfl
      · cases hstep
  | commit thread =>
      obtain rfl := Option.some.inj hswap
      simp only [step] at hstep
      split at hstep
      · rename_i kernelSize beforeCores hpoint
        refine ⟨?_, beforeCores, by simp [loaded, hpoint], by simp [writer, hpoint]⟩
        split at hstep <;> cases hstep <;> simp [loaded, State.setLaunch]
      · cases hstep
  | prologue | tick | store | load | call | check => cases hswap

/-- Another thread's move leaves a party what it has loaded. -/
theorem loaded_set_launch_of_ne {thread : τ} (hne : party ≠ some thread) (launch : Launch) :
    loaded (state.setLaunch thread launch) party = loaded state party := by
  cases party with
  | none => rfl
  | some other =>
      have hother : other ≠ thread := fun heq => hne (congrArg some heq)
      simp [loaded, State.setLaunch, Function.update_of_ne hother]

/-- A step that is no compare-and-swap of the party leaves it what it has loaded, or lets it load
the present value. -/
theorem loaded_of_step (hstep : step ctx state action = some next)
    (hswap : swapper action ≠ some party) :
    loaded next party = loaded state party ∨ loaded next party = none ∨
      loaded next party = some state.curCores := by
  cases action with
  | prologue | load | store =>
      simp only [step] at hstep
      split at hstep <;> cases hstep
      cases party with
      | none => simp [loaded]
      | some thread => exact .inl rfl
  | tick =>
      simp only [step] at hstep
      split at hstep
      · split at hstep <;> cases hstep <;> cases party <;> simp [loaded]
      · cases hstep
  | cas =>
      cases party with
      | none => exact absurd rfl hswap
      | some thread =>
          simp only [step] at hstep
          split at hstep
          · split at hstep <;> cases hstep <;> exact .inl rfl
          · cases hstep
  | commit thread =>
      have hne : party ≠ some thread := fun heq => hswap (by rw [heq]; rfl)
      simp only [step] at hstep
      split at hstep
      · split at hstep <;> cases hstep
        · refine .inl (Eq.trans ?_ (loaded_set_launch_of_ne hne .idle))
          cases party <;> rfl
        · exact .inl (loaded_set_launch_of_ne hne _)
      · cases hstep
  | call thread kernelSize =>
      obtain ⟨_, rfl⟩ := launch_of_call hstep
      by_cases hparty : party = some thread
      · exact .inr (.inl (by simp [hparty, loaded, State.setLaunch]))
      · exact .inl (loaded_set_launch_of_ne hparty _)
  | check thread =>
      simp only [step] at hstep
      split at hstep
      · split at hstep <;> cases hstep
        · exact .inl rfl
        · by_cases hparty : party = some thread
          · exact .inr (.inr (by simp [hparty, loaded, State.setLaunch]))
          · exact .inl (loaded_set_launch_of_ne hparty _)
      · cases hstep

/-- The plain store is made by the controller, which has nothing loaded then. -/
theorem loaded_of_store (hstep : step ctx state action = some next)
    (hwriter : writer state action = some party) (hswap : swapper action ≠ some party) :
    loaded next party = none := by
  cases action with
  | store =>
      simp only [step] at hstep
      split at hstep <;> cases hstep
      rename_i share value hpoint
      have hparty : party = none := by simpa [writer, hpoint, eq_comm] using hwriter
      rw [hparty]
      rfl
  | cas =>
      simp only [writer] at hwriter
      split at hwriter
      · split at hwriter <;> cases hwriter
        exact absurd rfl hswap
      · cases hwriter
  | commit thread =>
      simp only [writer] at hwriter
      split at hwriter
      · split at hwriter <;> cases hwriter
        exact absurd rfl hswap
      · cases hwriter
  | prologue | tick | load | call | check => cases hwriter

/-- A retry uses up the staleness of the party, which only a write of another party brings about. -/
theorem stale_step (party : Party τ) (hstep : step ctx state action = some next) :
    (if Retries party state action then 1 else 0) + stale party next ≤
      (if WrittenByOther party state action then 1 else 0) + stale party state := by
  by_cases hswap : swapper action = some party
  · obtain ⟨hnext, value, hvalue, hwriter⟩ := loaded_of_swap hstep hswap
    rw [stale_of_none hnext]
    by_cases hsame : state.curCores = value
    · rw [if_pos hsame] at hwriter
      simp [Retries, hwriter]
    · have hstale : stale party state = 1 := by simp [stale, hvalue, Ne.symm hsame]
      rw [hstale]
      split <;> omega
  · have hretries : ¬ Retries party state action := fun h => hswap h.1
    rw [if_neg hretries]
    cases hwriter : writer state action with
    | some other =>
        by_cases hown : other = party
        · subst hown
          rw [stale_of_none (loaded_of_store hstep hwriter hswap)]
          omega
        · have hwritten : WrittenByOther party state action := ⟨other, hwriter, hown⟩
          have hle := stale_le party next
          rw [if_pos hwritten]
          omega
    | none =>
        have hcores := cores_of_no_writer hstep hwriter
        have hle : stale party next ≤ stale party state := by
          rcases loaded_of_step hstep hswap with hsame | hnone | hnow
          · exact le_of_eq (by simp only [stale, hsame, hcores])
          · rw [stale_of_none hnone]
            omega
          · rw [stale_of_loaded hnow hcores.symm]
            omega
        omega

end Retries

/-- In every interleaving, each party goes round its loop because of a failed compare-and-swap at
most once for every write of another party: when one party retries, another one has got on. -/
theorem retries_le_writes (ctx : Context) (party : Party τ) (actions : List (Action τ))
    (state : State τ) (hrun : exec (step ctx) (State.initial τ) actions = some state) :
    countAlong (step ctx) (Retries party) (State.initial τ) actions ≤
      countAlong (step ctx) (WrittenByOther party) (State.initial τ) actions := by
  have hpotential : ∀ (state : State τ) action next, step ctx state action = some next →
      (if Retries party state action then 1 else 0) + stale party next ≤
        (if WrittenByOther party state action then 1 else 0) + stale party state :=
    fun _ _ _ hstep => stale_step party hstep
  have hcount := count_along_le hpotential hrun
  have hinitial : stale party (State.initial τ) = 0 := by cases party <;> rfl
  omega

/-- The second of the racing launches retries once, for the write of the first one or for the
tick. -/
theorem retries_le_writes_racing :
    ∃ state, exec (step halfCard) (State.initial Nat) racing = some state ∧
      countAlong (step halfCard) (Retries (some 1)) (State.initial Nat) racing ≤
        countAlong (step halfCard) (WrittenByOther (some 1)) (State.initial Nat) racing :=
  ⟨_, rfl, retries_le_writes halfCard (some 1) racing _ rfl⟩

example : countAlong (step halfCard) (Retries (some 1)) (State.initial Nat) racing = 1 := by
  decide

/-! ## What a window admits -/

/-- The size that the step admits. -/
def charged (state : State τ) : Action τ → Int
  | .commit thread =>
      match state.launches thread with
      | .cas kernelSize beforeCores => if state.curCores = beforeCores then kernelSize else 0
      | _ => 0
  | _ => 0

/-- The step is the write that finishes a control tick. -/
def Ticked (state : State τ) (action : Action τ) : Prop := writer state action = some none

instance (state : State τ) (action : Action τ) : Decidable (Ticked state action) :=
  inferInstanceAs (Decidable (_ = _))

omit [DecidableEq τ] in
/-- A step that writes nothing admits nothing. -/
theorem charged_of_no_write {state : State τ} {action : Action τ} (hquiet : NoWrite state action) :
    charged state action = 0 := by
  cases action with
  | commit thread =>
      simp only [charged]
      split
      · rename_i kernelSize beforeCores hpoint
        refine if_neg fun hequal => hquiet kernelSize ?_
        rw [hpoint, hequal]
      · rfl
  | _ => rfl

/-- What a step admits is taken out of the bucket, and a tick puts in at most the total and the debt
that it may wipe out. -/
theorem charged_step {ctx : Context} {bound : Int} (hbound : 0 ≤ bound) {state next : State τ}
    {action : Action τ} (h : Bounded ctx bound state) (hkernel : KernelWithin bound state action)
    (hstep : step ctx state action = some next) :
    charged state action + next.curCores ≤
      (if Ticked state action then ctx.totalCores + bound else 0) + state.curCores := by
  have htotal := ctx.total_nonneg
  have hdebt := h.debt
  have hcur := (bounded_step hbound h hkernel hstep).cur_le
  have hstarted : next.control ≠ .start → next.totalCores = ctx.totalCores :=
    (bounded_step hbound h hkernel hstep).control.total_started
  have hpay : (0 : Int) ≤ if Ticked state action then ctx.totalCores + bound else 0 := by
    split <;> omega
  cases effect_of_step hstep with
  | quiet _ hquiet hcores =>
      rw [charged_of_no_write hquiet, hcores]
      omega
  | prologue _ hcores =>
      rw [show charged state .prologue = 0 from rfl, hcores]
      omega
  | store share value hpoint hcores htotals =>
      have hticked : Ticked state .store := by simp [Ticked, writer, hpoint]
      have hctx := h.control.total_started (by simp [hpoint])
      rw [if_pos hticked, show charged state .store = 0 from rfl]
      omega
  | grant share hpoint hcores htotals =>
      have hticked : Ticked state .cas := by simp [Ticked, writer, hpoint]
      have hctx := h.control.total_started (by simp [hpoint])
      rw [if_pos hticked, show charged state .cas = 0 from rfl]
      omega
  | admission thread kernelSize hpoint hcores =>
      have hcharged : charged state (.commit thread) = kernelSize := by simp [charged, hpoint]
      rw [hcharged, hcores]
      omega

/-- In every window of every run, launches whose sizes are between zero and `bound` are admitted for
at most as many times the total and the bound as there are ticks in the window, and once more. -/
theorem window_admits_le (ctx : Context) (bound : Int) (hbound : 0 ≤ bound)
    (earlier window : List (Action τ))
    (hkernels : ∀ thread kernelSize, Action.call thread kernelSize ∈ earlier ++ window →
      0 ≤ kernelSize ∧ kernelSize ≤ bound)
    (start final : State τ) (hearlier : exec (step ctx) (State.initial τ) earlier = some start)
    (hwindow : exec (step ctx) start window = some final) :
    sumAlong (step ctx) charged start window ≤
      (countAlong (step ctx) Ticked start window + 1) * (ctx.totalCores + bound) := by
  have hwithin : ∀ part, part ⊆ earlier ++ window → ∀ state : State τ,
      Along (step ctx) (KernelWithin bound) state part := by
    intro part hpart state
    refine Along.of_mem _ fun action hmem state => ?_
    cases action with
    | call thread kernelSize => exact hkernels thread kernelSize (hpart hmem)
    | _ => trivial
  have hstart : Bounded ctx bound start :=
    exec_invariant_along (fun _ _ _ h hcond hstep => bounded_step hbound h hcond hstep)
      (bounded_initial ctx hbound) (hwithin earlier (by simp) _) hearlier
  have hfinal : Bounded ctx bound final :=
    exec_invariant_along (fun _ _ _ h hcond hstep => bounded_step hbound h hcond hstep)
      hstart (hwithin window (by simp) _) hwindow
  have hsum : sumAlong (step ctx) charged start window + final.curCores ≤
      sumAlong (step ctx) (fun state action =>
        if Ticked state action then ctx.totalCores + bound else 0) start window + start.curCores :=
    sum_along_le (fun _ _ _ h hcond hstep => bounded_step hbound h hcond hstep)
      (fun _ _ _ h hcond hstep => charged_step hbound h hcond hstep) hstart
      (hwithin window (by simp) start) hwindow
  rw [sum_along_ite, nsmul_eq_mul] at hsum
  have htotal : start.totalCores ≤ ctx.totalCores := by
    by_cases hpoint : start.control = .start
    · exact (hstart.control.total_start hpoint).trans_le ctx.total_nonneg
    · exact (hstart.control.total_started hpoint).le
  have hcur := hstart.cur_le
  have hdebt := hfinal.debt
  rw [add_mul, one_mul]
  omega

/-- What the racing launches may admit. -/
theorem window_admits_le_racing :
    ∃ final, exec (step halfCard) (State.initial Nat) racing = some final ∧
      sumAlong (step halfCard) charged (State.initial Nat) racing ≤
        (countAlong (step halfCard) Ticked (State.initial Nat) racing + 1) *
          (halfCard.totalCores + 20) := by
  refine ⟨_, rfl, window_admits_le halfCard 20 (by decide) [] racing ?_ _ _ rfl rfl⟩
  intro thread kernelSize hmem
  simp [racing] at hmem
  omega

end UniShare.Controller
