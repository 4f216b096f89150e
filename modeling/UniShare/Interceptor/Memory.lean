import UniShare.Lib.Execution

/-!
# The hooked memory functions

After `core/interceptor/hijack_mlu.c`. An allocation function compares the bytes in use plus the
request, in 64-bit arithmetic, with the quota, and then either returns an error or calls the driver.
The machine lets any number of calls be between their check and the driver, with frees in between.
Nothing is reserved for a call that has passed its check, so `live_bytes_bound` bounds the live
bytes by the quota only when calls do not overlap, and says exactly which checks keep them within
it.
-/

namespace UniShare.Interceptor

open Lib

/-! ## The functions -/

/-- The allocation functions that are hooked. -/
inductive AllocFunction where
  | cnMalloc
  | cnMallocSecurity
  | cnZmalloc
  | cnMallocConstant
  deriving DecidableEq, Repr

/-- How an allocation function goes on after its check. -/
inductive Checked where
  | outOfMemory
  | driver (function : AllocFunction) (bytes : UInt64)
  deriving DecidableEq, Repr

/-- The check of an allocation function, with what `get_mlu_mem` returns to it. -/
def checkQuota (function : AllocFunction) (totalMem use requestBytes : UInt64) : Checked :=
  if use + requestBytes ≥ totalMem then .outOfMemory else .driver function requestBytes

/-- `cnMalloc`. -/
def cnMalloc (totalMem use bytes : UInt64) : Checked := checkQuota .cnMalloc totalMem use bytes

/-- `cnMallocSecurity`. -/
def cnMallocSecurity (totalMem use bytes : UInt64) : Checked :=
  checkQuota .cnMallocSecurity totalMem use bytes

/-- `cnZmalloc`. -/
def cnZmalloc (totalMem use bytes : UInt64) : Checked := checkQuota .cnZmalloc totalMem use bytes

/-- `cnMallocConstant`. -/
def cnMallocConstant (totalMem use bytes : UInt64) : Checked :=
  checkQuota .cnMallocConstant totalMem use bytes

/-- The body of an allocation function. -/
def AllocFunction.body : AllocFunction → UInt64 → UInt64 → UInt64 → Checked
  | .cnMalloc => Interceptor.cnMalloc
  | .cnMallocSecurity => Interceptor.cnMallocSecurity
  | .cnZmalloc => Interceptor.cnZmalloc
  | .cnMallocConstant => Interceptor.cnMallocConstant

/-- What `cnMemGetInfo` stores for its caller. -/
structure MemInfo where
  freeBytes : UInt64
  totalBytes : UInt64
  deriving DecidableEq, Repr

/-- `cnMemGetInfo`, after the driver's. -/
def cnMemGetInfo (totalMem use : UInt64) : MemInfo := ⟨totalMem - use, totalMem⟩

/-- All allocation functions make the same check. -/
theorem body_eq (function : AllocFunction) : function.body = checkQuota function := by
  cases function <;> rfl

/-! ## The machine -/

namespace Memory

/-- The sizes of the live allocations, and the calls that have passed their check and not yet
returned from the driver. -/
structure State where
  blocks : List UInt64
  calls : List (AllocFunction × UInt64)
  deriving DecidableEq, Repr

/-- Nothing is allocated. -/
def State.initial : State := ⟨[], []⟩

/-- The live bytes. -/
def State.live (state : State) : Nat := (state.blocks.map UInt64.toNat).sum

/-- The bytes of the calls in flight. -/
def State.inFlight (state : State) : Nat := (state.calls.map fun call => call.2.toNat).sum

/-- `get_mlu_mem`, which is taken to return the live bytes. -/
def State.getMluMem (state : State) : UInt64 := UInt64.ofNat state.live

/-- A call makes its check, a call that passed it returns from the driver, or a live allocation is
freed. -/
inductive Action where
  | check (function : AllocFunction) (bytes : UInt64)
  | driver (i : Nat) (ok : Bool)
  | free (i : Nat)
  deriving DecidableEq, Repr

/-- One transition, `none` when there is no such call or allocation. -/
def step (totalMem : UInt64) (state : State) : Action → Option State
  | .check function bytes =>
      match function.body totalMem state.getMluMem bytes with
      | .outOfMemory => some state
      | .driver function bytes => some { state with calls := state.calls ++ [(function, bytes)] }
  | .driver i ok =>
      state.calls[i]?.map fun call =>
        { blocks := if ok then call.2 :: state.blocks else state.blocks
          calls := state.calls.eraseIdx i }
  | .free i =>
      if i < state.blocks.length then some { state with blocks := state.blocks.eraseIdx i }
      else none

/-- The live bytes are within the quota. -/
def WithinQuota (totalMem : UInt64) (state : State) : Prop := state.live ≤ totalMem.toNat

/-- The action lets a call in flight succeed. -/
def Action.finishes : Action → Bool
  | .driver _ ok => ok
  | _ => false

/-- The live bytes are within the quota, and stay so however the calls in flight finish. -/
def SafeToFinish (totalMem : UInt64) (state : State) : Prop :=
  ∀ more, (∀ action ∈ more, Action.finishes action = true) →
    Always (step totalMem) (WithinQuota totalMem) state more

/-- The sum that a check computes is exactly below `limit`. -/
def SumsBelow (limit : Nat) (state : State) : Action → Prop
  | .check _ bytes => state.live + bytes.toNat < limit
  | _ => True

/-- A check is made while fewer than this many calls are in flight. -/
def Overlaps (k : Nat) (state : State) : Action → Prop
  | .check _ _ => state.calls.length < k
  | _ => True

/-- A check that passes would also pass if the calls in flight counted. -/
def Reserved (totalMem : UInt64) (state : State) : Action → Prop
  | .check _ bytes => state.live + bytes.toNat < totalMem.toNat →
      state.live + state.inFlight + bytes.toNat ≤ totalMem.toNat
  | _ => True

instance (limit : Nat) (state : State) : ∀ action, Decidable (SumsBelow limit state action)
  | .check _ _ => inferInstanceAs (Decidable (_ < _))
  | .driver _ _ | .free _ => .isTrue trivial

instance (totalMem : UInt64) (state : State) : ∀ action, Decidable (Reserved totalMem state action)
  | .check _ _ => inferInstanceAs (Decidable (_ → _))
  | .driver _ _ | .free _ => .isTrue trivial

instance (k : Nat) (state : State) : ∀ action, Decidable (Overlaps k state action)
  | .check _ _ => inferInstanceAs (Decidable (_ < _))
  | .driver _ _ | .free _ => .isTrue trivial

/-! ## What a step does -/

/-- What a step does: a check passes or fails, a call returns, or an allocation is freed. -/
inductive Effect (totalMem : UInt64) (state next : State) : Action → Prop where
  | passed (function bytes) : state.live + bytes.toNat < totalMem.toNat →
      next = { state with calls := state.calls ++ [(function, bytes)] } →
      Effect totalMem state next (.check function bytes)
  | refused (function bytes) : totalMem.toNat ≤ state.live + bytes.toNat → next = state →
      Effect totalMem state next (.check function bytes)
  | allocated (i call) : state.calls[i]? = some call →
      next = { blocks := call.2 :: state.blocks, calls := state.calls.eraseIdx i } →
      Effect totalMem state next (.driver i true)
  | failed (i call) : state.calls[i]? = some call →
      next = { state with calls := state.calls.eraseIdx i } →
      Effect totalMem state next (.driver i false)
  | freed (i) : next = { state with blocks := state.blocks.eraseIdx i } →
      Effect totalMem state next (.free i)

/-- The sum that a check computes is exact when it fits. -/
theorem toNat_sum {state : State} {bytes : UInt64} (hsum : state.live + bytes.toNat < 2 ^ 64) :
    (state.getMluMem + bytes).toNat = state.live + bytes.toNat := by
  have hlive : state.live < 2 ^ 64 := Nat.lt_of_le_of_lt (Nat.le_add_right _ _) hsum
  rw [UInt64.toNat_add, State.getMluMem, UInt64.toNat_ofNat_of_lt' hlive]
  exact Nat.mod_eq_of_lt hsum

/-- Every step whose sums fit has one of these effects. -/
theorem effect_of_step {totalMem : UInt64} {state next : State} {action : Action}
    (hfit : SumsBelow (2 ^ 64) state action) (hstep : step totalMem state action = some next) :
    Effect totalMem state next action := by
  cases action with
  | check function bytes =>
      have hexact := toNat_sum hfit
      simp only [step, body_eq, checkQuota] at hstep
      by_cases hfull : state.getMluMem + bytes ≥ totalMem
      · rw [if_pos hfull] at hstep
        cases hstep
        refine .refused function bytes ?_ rfl
        have hle : totalMem.toNat ≤ (state.getMluMem + bytes).toNat :=
          UInt64.le_iff_toNat_le.mp hfull
        omega
      · rw [if_neg hfull] at hstep
        cases hstep
        refine .passed function bytes ?_ rfl
        have hlt : ¬ totalMem.toNat ≤ (state.getMluMem + bytes).toNat :=
          fun hle => hfull (UInt64.le_iff_toNat_le.mpr hle)
        omega
  | driver i ok =>
      obtain ⟨call, hcall, rfl⟩ := Option.map_eq_some_iff.mp hstep
      cases ok with
      | true => exact .allocated i call hcall rfl
      | false => exact .failed i call hcall rfl
  | free i =>
      simp only [step] at hstep
      split at hstep <;> cases hstep
      exact .freed i rfl

/-- Erasing an element takes its size from the sum. -/
theorem sum_erase_idx {α : Type} (size : α → Nat) {items : List α} {i : Nat} {item : α}
    (h : items[i]? = some item) :
    ((items.eraseIdx i).map size).sum + size item = (items.map size).sum := by
  induction items generalizing i with
  | nil => cases h
  | cons first rest ih =>
      cases i with
      | zero =>
          obtain rfl := Option.some.inj h
          simp only [List.eraseIdx_cons_zero, List.map_cons, List.sum_cons]
          omega
      | succ i =>
          have hrest := ih h
          simp only [List.eraseIdx_cons_succ, List.map_cons, List.sum_cons]
          omega

/-- Erasing an element makes no sum larger. -/
theorem sum_erase_idx_le {α : Type} (size : α → Nat) (items : List α) (i : Nat) :
    ((items.eraseIdx i).map size).sum ≤ (items.map size).sum := by
  cases h : items[i]? with
  | none =>
      rw [List.eraseIdx_of_length_le (List.getElem?_eq_none_iff.mp h)]
  | some item =>
      have hsum := sum_erase_idx size h
      omega

/-! ## The bounds -/

/-- The bytes that are live or in flight stay below `k` times the quota, and every call in flight
is below the quota. -/
structure Bounded (totalMem : UInt64) (k : Nat) (state : State) : Prop where
  calls : ∀ call ∈ state.calls, call.2.toNat ≤ totalMem.toNat - 1
  total : state.live + state.inFlight ≤ k * (totalMem.toNat - 1)

/-- A step whose sums fit, and whose check overlaps with fewer than `k` calls, keeps the bound. -/
theorem bounded_step {totalMem : UInt64} {k : Nat} {state next : State} {action : Action}
    (h : Bounded totalMem k state) (hfit : SumsBelow (2 ^ 64) state action)
    (hoverlaps : Overlaps k state action) (hstep : step totalMem state action = some next) :
    Bounded totalMem k next := by
  obtain ⟨hcalls, htotal⟩ := h
  cases effect_of_step hfit hstep with
  | passed function bytes hpassed heq =>
      subst heq
      refine ⟨forall_mem_concat hcalls ?_, ?_⟩
      · show bytes.toNat ≤ totalMem.toNat - 1
        omega
      · -- the calls in flight are at most `k - 1`, each below the quota
        have hflight : state.inFlight ≤ state.calls.length * (totalMem.toNat - 1) := by
          have hsum := List.sum_le_card_nsmul (state.calls.map fun call => call.2.toNat)
            (totalMem.toNat - 1) fun size hsize => by
              obtain ⟨call, hcall, rfl⟩ := List.mem_map.mp hsize
              exact hcalls call hcall
          simpa [State.inFlight] using hsum
        have hk : (state.calls.length + 1) * (totalMem.toNat - 1) ≤ k * (totalMem.toNat - 1) :=
          Nat.mul_le_mul_right _ hoverlaps
        have hnew : State.inFlight { state with calls := state.calls ++ [(function, bytes)] } =
            state.inFlight + bytes.toNat := by
          simp [State.inFlight]
        have hone : (state.calls.length + 1) * (totalMem.toNat - 1) =
            state.calls.length * (totalMem.toNat - 1) + (totalMem.toNat - 1) := by
          rw [Nat.add_mul, Nat.one_mul]
        show state.live +
            State.inFlight { state with calls := state.calls ++ [(function, bytes)] } ≤
          k * (totalMem.toNat - 1)
        omega
  | refused function bytes hrefused heq =>
      subst heq
      exact ⟨hcalls, htotal⟩
  | allocated i call hcall heq =>
      subst heq
      refine ⟨fun other hmem => hcalls other ((List.eraseIdx_sublist _ _).mem hmem), ?_⟩
      have hsum := sum_erase_idx (fun call : AllocFunction × UInt64 => call.2.toNat) hcall
      simp only [State.live, State.inFlight, List.map_cons, List.sum_cons] at htotal ⊢
      omega
  | failed i call hcall heq =>
      subst heq
      refine ⟨fun other hmem => hcalls other ((List.eraseIdx_sublist _ _).mem hmem), ?_⟩
      have hsum := sum_erase_idx (fun call : AllocFunction × UInt64 => call.2.toNat) hcall
      simp only [State.live, State.inFlight] at htotal ⊢
      omega
  | freed i heq =>
      subst heq
      refine ⟨hcalls, ?_⟩
      have hsum := sum_erase_idx_le UInt64.toNat state.blocks i
      simp only [State.live, State.inFlight] at htotal ⊢
      omega

/-- Letting every call in flight succeed makes all of their bytes live. -/
theorem exec_finish (totalMem : UInt64) (state : State) :
    ∃ final, exec (step totalMem) state (List.replicate state.calls.length (.driver 0 true)) =
        some final ∧ final.live = state.live + state.inFlight := by
  obtain ⟨blocks, calls⟩ := state
  induction calls generalizing blocks with
  | nil => exact ⟨_, rfl, rfl⟩
  | cons call rest ih =>
      obtain ⟨final, hrun, hlive⟩ := ih (call.2 :: blocks)
      refine ⟨final, hrun, ?_⟩
      simp only [State.live, State.inFlight, List.map_cons, List.sum_cons] at hlive ⊢
      omega

/-- It is safe to let the calls finish exactly when all of their bytes fit. -/
theorem safe_to_finish_iff (totalMem : UInt64) (state : State) :
    SafeToFinish totalMem state ↔ state.live + state.inFlight ≤ totalMem.toNat := by
  constructor
  · intro h
    obtain ⟨final, hrun, hlive⟩ := exec_finish totalMem state
    have hfinish : ∀ action ∈ List.replicate state.calls.length (Action.driver 0 true),
        action.finishes = true := by
      intro action hmem
      obtain ⟨-, rfl⟩ := List.mem_replicate.mp hmem
      rfl
    have hwithin : final.live ≤ totalMem.toNat := (h _ hfinish).final hrun
    omega
  · intro h more hfinish
    have hall : Along (step totalMem) (fun _ action => Action.finishes action = true) state more :=
      Along.of_mem state fun action hmem _ => hfinish action hmem
    -- a call that succeeds moves its bytes from the calls in flight to the live ones
    have hpreserve : ∀ state action next, state.live + state.inFlight ≤ totalMem.toNat →
        Action.finishes action = true → step totalMem state action = some next →
        next.live + next.inFlight ≤ totalMem.toNat := by
      intro state action next hinv hfinishes hstep
      cases action with
      | check function bytes => cases hfinishes
      | free i => cases hfinishes
      | driver i ok =>
          obtain ⟨call, hcall, rfl⟩ := Option.map_eq_some_iff.mp hstep
          have hsum := sum_erase_idx (fun call : AllocFunction × UInt64 => call.2.toNat) hcall
          obtain rfl : ok = true := hfinishes
          simp only [State.live, State.inFlight, if_true, List.map_cons, List.sum_cons] at hinv ⊢
          omega
    have hwithin : ∀ state : State, state.live + state.inFlight ≤ totalMem.toNat →
        WithinQuota totalMem state := by
      intro state hinv
      show state.live ≤ totalMem.toNat
      omega
    exact always_of_along hpreserve hwithin h hall

/-- A step out of a safe state leads to a safe state exactly when it is reserved for. -/
theorem safe_step_iff {totalMem : UInt64} {state next : State} {action : Action}
    (hsafe : SafeToFinish totalMem state) (hfit : SumsBelow (2 ^ 64) state action)
    (hstep : step totalMem state action = some next) :
    SafeToFinish totalMem next ↔ Reserved totalMem state action := by
  rw [safe_to_finish_iff] at hsafe ⊢
  cases effect_of_step hfit hstep with
  | passed function bytes hpassed heq =>
      subst heq
      have hflight : State.inFlight { state with calls := state.calls ++ [(function, bytes)] } =
          state.inFlight + bytes.toNat := by
        simp [State.inFlight]
      show state.live + State.inFlight { state with calls := state.calls ++ [(function, bytes)] } ≤
        totalMem.toNat ↔ _
      rw [hflight, ← Nat.add_assoc]
      exact ⟨fun h _ => h, fun h => h hpassed⟩
  | refused function bytes hrefused heq =>
      subst heq
      exact ⟨fun _ hpassed => absurd hpassed (Nat.not_lt.mpr hrefused), fun _ => hsafe⟩
  | allocated i call hcall heq =>
      subst heq
      have hsum := sum_erase_idx (fun call : AllocFunction × UInt64 => call.2.toNat) hcall
      refine iff_of_true ?_ trivial
      simp only [State.live, State.inFlight, List.map_cons, List.sum_cons] at hsafe ⊢
      omega
  | failed i call hcall heq =>
      subst heq
      have hsum := sum_erase_idx (fun call : AllocFunction × UInt64 => call.2.toNat) hcall
      refine iff_of_true ?_ trivial
      simp only [State.live, State.inFlight] at hsafe ⊢
      omega
  | freed i heq =>
      subst heq
      have hsum := sum_erase_idx_le UInt64.toNat state.blocks i
      refine iff_of_true ?_ trivial
      simp only [State.live, State.inFlight] at hsafe ⊢
      omega

/-- In every run whose sums fit: when every check is made with fewer than `k` calls in flight, the
live bytes stay within `k` times what one check lets pass; and they stay within the quota however
the calls in flight finish exactly when every check that passes leaves room for those calls. -/
theorem live_bytes_bound (totalMem : UInt64) (actions : List Action)
    (hfit : Along (step totalMem) (SumsBelow (2 ^ 64)) .initial actions) :
    (∀ k, Along (step totalMem) (Overlaps k) .initial actions →
      Always (step totalMem) (fun state => state.live ≤ k * (totalMem.toNat - 1)) .initial
        actions) ∧
    (Always (step totalMem) (SafeToFinish totalMem) .initial actions ↔
      Along (step totalMem) (Reserved totalMem) .initial actions) := by
  constructor
  · intro k hoverlaps
    have hinitial : Bounded totalMem k .initial := ⟨nofun, Nat.zero_le _⟩
    exact always_of_along
      (fun state action next hinv hcond hstep => bounded_step hinv hcond.1 hcond.2 hstep)
      (fun state hinv => Nat.le_trans (Nat.le_add_right _ _) hinv.total) hinitial
      (hfit.and hoverlaps)
  · have hinitial : SafeToFinish totalMem .initial :=
      (safe_to_finish_iff totalMem .initial).mpr (Nat.zero_le _)
    exact always_iff_along_within
      (fun state action next hsafe hcond hstep => trivial)
      (fun state action next _ hsafe hcond hstep => safe_step_iff hsafe hcond hstep)
      trivial hinitial hfit

/-- One call after the other. -/
def calmTrace : List Action :=
  [.check .cnMalloc 60, .driver 0 true, .check .cnZmalloc 39, .driver 0 true,
    .check .cnMallocConstant 1, .free 1, .check .cnMallocSecurity 50, .driver 0 true]

/-- With one call at a time, a quota of 100 bytes leaves at most 99 of them live. -/
theorem live_bytes_bound_calm :
    Along (step 100) (SumsBelow (2 ^ 64)) .initial calmTrace ∧
    Along (step 100) (Overlaps 1) .initial calmTrace ∧
    Always (step 100) (fun state => state.live ≤ 1 * 99) .initial calmTrace ∧
    Always (step 100) (SafeToFinish 100) .initial calmTrace := by
  have hfit : Along (step 100) (SumsBelow (2 ^ 64)) .initial calmTrace := by decide
  have hone : Along (step 100) (Overlaps 1) .initial calmTrace := by decide
  have hreserved : Along (step 100) (Reserved 100) .initial calmTrace := by decide
  have hbound := live_bytes_bound 100 calmTrace hfit
  exact ⟨hfit, hone, hbound.1 1 hone, hbound.2.mpr hreserved⟩

/-- Two requesters check before either allocates: 120 bytes are live under a quota of 100. -/
theorem live_bytes_exceed_quota :
    ¬ ∀ (totalMem : UInt64) (actions : List Action),
      Along (step totalMem) (SumsBelow (2 ^ 64 + 1)) .initial actions →
      Always (step totalMem) (WithinQuota totalMem) .initial actions := by
  intro h
  have hsums : Along (step 100) (SumsBelow (2 ^ 64 + 1)) .initial
      [.check .cnMalloc 60, .check .cnMalloc 60, .driver 0 true, .driver 0 true] := by
    decide
  have hrun : exec (step 100) .initial
      [.check .cnMalloc 60, .check .cnMalloc 60, .driver 0 true, .driver 0 true] =
      some ⟨[60, 60], []⟩ := by decide
  have hwithin : WithinQuota 100 ⟨[60, 60], []⟩ := (h 100 _ hsums).final hrun
  exact absurd hwithin (show ¬ 60 + (60 + 0) ≤ 100 from by omega)

end Memory

end UniShare.Interceptor
