import UniShare.Controller.Wrapped

/-!
# The hooked launch functions

After `core/interceptor/hijack_gpu.c` and `core/interceptor/hijack_mlu.c`. The body of a hooked
launch function is a list of calls, to `rate_limiter` and to the driver; the arguments of
`rate_limiter` are wrapping products of unsigned dimensions, converted to `int`. The machine runs
any number of threads through these bodies over the token bucket, whose integers wrap as well. The
ghosts of a running launch are its own swaps, and what these have taken from `cur_cores`.
`fully_charged_iff` says which launches reach the driver charged with their full size.
-/

namespace UniShare.Interceptor

open Lib Controller

/-- Three unsigned dimensions. -/
structure Dims where
  x : UInt32
  y : UInt32
  z : UInt32
  deriving DecidableEq, Repr

/-- The product in `unsigned int` arithmetic. -/
def Dims.product (dims : Dims) : UInt32 := dims.x * dims.y * dims.z

/-- The mathematical product. -/
def Dims.size (dims : Dims) : Int := dims.x.toNat * dims.y.toNat * dims.z.toNat

/-- Every dimension is at least one. -/
structure Dims.Positive (dims : Dims) : Prop where
  x : 1 ≤ dims.x.toNat
  y : 1 ≤ dims.y.toNat
  z : 1 ≤ dims.z.toNat

/-- A call in the body of a hooked function. -/
inductive Call where
  | rateLimiter (grids blocks : Int32)
  | driver
  deriving DecidableEq, Repr

/-- `cuLaunchKernel`. -/
def cuLaunchKernel (gridDim blockDim : Dims) : List Call :=
  [.rateLimiter gridDim.product.toInt32 blockDim.product.toInt32, .driver]

/-- `cuLaunchCooperativeKernel`. -/
def cuLaunchCooperativeKernel (_gridDim _blockDim : Dims) : List Call :=
  [.driver]

/-- `cnInvokeKernel`. -/
def cnInvokeKernel (dim : Dims) : List Call :=
  [.rateLimiter (dim.x * dim.y).toInt32 dim.product.toInt32, .driver]

/-- A launch through one of the hooked functions, with its dimensions. -/
inductive KernelLaunch where
  | cuLaunchKernel (gridDim blockDim : Dims)
  | cuLaunchCooperativeKernel (gridDim blockDim : Dims)
  | cnInvokeKernel (dim : Dims)
  deriving DecidableEq, Repr

/-- The body that the launch runs. -/
def KernelLaunch.body : KernelLaunch → List Call
  | .cuLaunchKernel gridDim blockDim => Interceptor.cuLaunchKernel gridDim blockDim
  | .cuLaunchCooperativeKernel gridDim blockDim =>
      Interceptor.cuLaunchCooperativeKernel gridDim blockDim
  | .cnInvokeKernel dim => Interceptor.cnInvokeKernel dim

/-- The dimensions of the grid. -/
def KernelLaunch.dims : KernelLaunch → Dims
  | .cuLaunchKernel gridDim _ | .cuLaunchCooperativeKernel gridDim _ => gridDim
  | .cnInvokeKernel dim => dim

/-- A launch between its call and its return: the calls still to make, its swaps that succeeded,
and the amount by which they have decreased `cur_cores`. -/
structure Running where
  launch : KernelLaunch
  pending : List Call
  swaps : List Admission
  charged : Int
  deriving DecidableEq, Repr

/-- A launch that reached the driver, with its swaps and what it had been charged by then. -/
structure Forwarded where
  launch : KernelLaunch
  swaps : List Admission
  charged : Int
  deriving DecidableEq, Repr

/-- The bucket, the running launches, and the launches handed to the driver. -/
structure State (τ : Type) where
  bucket : Controller.State τ
  running : τ → Option Running
  forwarded : List Forwarded

/-- The state in which the library is loaded. -/
def State.initial (τ : Type) : State τ := ⟨.initial τ, fun _ => none, []⟩

/-- One step of a launching thread or of the controller. -/
inductive Action (τ : Type) where
  | invoke (thread : τ) (launch : KernelLaunch)
  | enter (thread : τ)
  | check (thread : τ)
  | commit (thread : τ)
  | driver (thread : τ)
  | finish (thread : τ)
  | control (action : Controller.Action τ)

variable {τ : Type} [DecidableEq τ]

/-- What a thread runs changes. -/
def State.setRunning (state : State τ) (thread : τ) (running : Option Running) : State τ :=
  { state with running := Function.update state.running thread running }

/-- One transition, `none` when the thread is not at that point. -/
def step (ctx : IntContext) (state : State τ) : Action τ → Option (State τ)
  | .invoke thread launch =>
      match state.running thread with
      | none => some (state.setRunning thread (some ⟨launch, launch.body, [], 0⟩))
      | some _ => none
  | .enter thread =>
      match state.running thread with
      | some ⟨launch, .rateLimiter grids _ :: rest, swaps, charged⟩ =>
          (wrappedStep ctx state.bucket (.call thread grids.toInt)).map fun bucket =>
            { state.setRunning thread (some ⟨launch, rest, swaps, charged⟩) with bucket }
      | _ => none
  | .check thread =>
      (wrappedStep ctx state.bucket (.check thread)).map fun bucket => { state with bucket }
  | .commit thread =>
      match state.running thread with
      | some ⟨launch, pending, swaps, charged⟩ =>
          (wrappedStep ctx state.bucket (.commit thread)).map fun bucket =>
            { state.setRunning thread (some ⟨launch, pending,
                swaps ++ bucket.admitted.drop state.bucket.admitted.length,
                charged + (state.bucket.curCores - bucket.curCores)⟩) with bucket }
      | none => none
  | .driver thread =>
      match state.running thread, state.bucket.launches thread with
      | some ⟨launch, .driver :: rest, swaps, charged⟩, .idle =>
          some { state.setRunning thread (some ⟨launch, rest, swaps, charged⟩) with
            forwarded := state.forwarded ++ [⟨launch, swaps, charged⟩] }
      | _, _ => none
  | .finish thread =>
      match state.running thread, state.bucket.launches thread with
      | some ⟨_, [], _, _⟩, .idle => some (state.setRunning thread none)
      | _, _ => none
  | .control action =>
      if action.ofController then
        (wrappedStep ctx state.bucket action).map fun bucket => { state with bucket }
      else none

/-! ## What a launch is charged -/

/-- The size that a call gives to `rate_limiter`. -/
def Call.size : Call → Option Int
  | .rateLimiter grids _ => some grids.toInt
  | .driver => none

/-- The sizes that a list of calls gives to `rate_limiter`. -/
def sizes (calls : List Call) : List Int := calls.filterMap Call.size

@[simp] theorem sizes_nil : sizes [] = [] := rfl

@[simp] theorem sizes_rate_limiter (grids blocks : Int32) (calls : List Call) :
    sizes (.rateLimiter grids blocks :: calls) = grids.toInt :: sizes calls := rfl

@[simp] theorem sizes_driver (calls : List Call) : sizes (.driver :: calls) = sizes calls := rfl

/-- In every hooked function the call of the driver is the last call. -/
theorem driver_last {launch : KernelLaunch} {rest : List Call}
    (h : .driver :: rest <:+ launch.body) : rest = [] := by
  obtain ⟨before, hbefore⟩ := h
  cases launch with
  | cuLaunchKernel | cnInvokeKernel =>
      simp only [KernelLaunch.body, Interceptor.cuLaunchKernel,
        Interceptor.cnInvokeKernel] at hbefore
      match before with
      | [] => cases hbefore
      | [_] =>
          simp only [List.singleton_append, List.cons.injEq, true_and] at hbefore
          exact hbefore.2
      | _ :: _ :: _ => simp at hbefore
  | cuLaunchCooperativeKernel =>
      simp only [KernelLaunch.body, Interceptor.cuLaunchCooperativeKernel] at hbefore
      match before with
      | [] => simpa using hbefore
      | _ :: _ => simp at hbefore

/-- What a launch has been charged is what its swaps have taken, each from an `int`. -/
structure ChargedBy (swaps : List Admission) (charged : Int) : Prop where
  charged_eq : charged = (swaps.map Admission.taken).sum
  before_int : ∀ swap ∈ swaps, signed32 swap.before

/-- The account of a thread: the sizes of its swaps, those it owes inside `rate_limiter` and those
of its remaining calls are the sizes of its body. -/
def Accounted (owed : List Int) : Option Running → Prop
  | none => owed = []
  | some running =>
      running.swaps.map Admission.kernelSize ++ owed ++ sizes running.pending =
          sizes running.launch.body ∧
        running.pending <:+ running.launch.body ∧ ChargedBy running.swaps running.charged

/-- The invariant of the machine: every thread is accounted for, and every launch handed to the
driver had made the swaps of its body. -/
structure Inv (state : State τ) : Prop where
  bucket : Ints state.bucket
  threads : ∀ thread, Accounted (state.bucket.launches thread).owed (state.running thread)
  forwarded : ∀ entry ∈ state.forwarded,
    entry.swaps.map Admission.kernelSize = sizes entry.launch.body ∧
      ChargedBy entry.swaps entry.charged

/-- Swaps that the machine makes of an `int` add to what the launch is charged. -/
theorem charged_by_append {swaps more : List Admission} {charged cur taken : Int}
    (h : ChargedBy swaps charged) (htaken : taken = (more.map Admission.taken).sum)
    (hcur : signed32 cur) (hbefore : ∀ swap ∈ more, swap.before = cur) :
    ChargedBy (swaps ++ more) (charged + taken) := by
  refine ⟨by rw [List.map_append, List.sum_append, h.charged_eq, htaken], fun swap hmem => ?_⟩
  rcases List.mem_append.mp hmem with hmem | hmem
  · exact h.before_int swap hmem
  · exact hbefore swap hmem ▸ hcur

/-- Changing one thread's account keeps the others. -/
theorem accounted_update {state next : State τ} (h : Inv state) (thread : τ)
    {running : Option Running}
    (hrunning : next.running = Function.update state.running thread running)
    (hothers : ∀ other, other ≠ thread →
      next.bucket.launches other = state.bucket.launches other)
    (hthread : Accounted (next.bucket.launches thread).owed running) (other : τ) :
    Accounted (next.bucket.launches other).owed (next.running other) := by
  by_cases heq : other = thread
  · subst heq
    simpa [hrunning] using hthread
  · rw [hrunning, Function.update_of_ne heq, hothers other heq]
    exact h.threads other

/-- Every step keeps the invariant. -/
theorem inv_step {ctx : IntContext} {state next : State τ} {action : Action τ} (h : Inv state)
    (hstep : step ctx state action = some next) : Inv next := by
  cases action with
  | invoke thread launch =>
      simp only [step] at hstep
      split at hstep <;> cases hstep
      rename_i hidle
      have howed : (state.bucket.launches thread).owed = [] := by
        have hthread := h.threads thread
        rwa [hidle] at hthread
      refine ⟨h.bucket, accounted_update h thread rfl (fun _ _ => rfl)
        ⟨?_, List.suffix_rfl, ⟨rfl, nofun⟩⟩, h.forwarded⟩
      show [] ++ (state.bucket.launches thread).owed ++ sizes launch.body = sizes launch.body
      rw [howed, List.append_nil, List.nil_append]
  | enter thread =>
      simp only [step] at hstep
      split at hstep
      · rename_i launch grids blocks rest swaps charged hrunning
        obtain ⟨bucket, hbucket, rfl⟩ := Option.map_eq_some_iff.mp hstep
        have hints := ints_step h.bucket hbucket
        obtain ⟨hidle, rfl⟩ := launch_of_call (step_of_wrapped_call hbucket)
        obtain ⟨hsizes, hsuffix, hcharged⟩ := hrunning ▸ h.threads thread
        simp only [hidle, Launch.owed, sizes_rate_limiter, List.append_nil] at hsizes
        refine ⟨hints, accounted_update h thread rfl (fun other hne => ?_)
          ⟨?_, (List.suffix_cons _ _).trans hsuffix, hcharged⟩, h.forwarded⟩
        · simp [Controller.State.setLaunch, Function.update_of_ne hne]
        · simpa [Controller.State.setLaunch, Launch.owed] using hsizes
      · cases hstep
  | check thread =>
      obtain ⟨bucket, hbucket, rfl⟩ := Option.map_eq_some_iff.mp hstep
      obtain ⟨howed, hothers⟩ := launch_of_wrapped_check hbucket
      refine ⟨ints_step h.bucket hbucket,
        accounted_update h thread (Function.update_eq_self thread _).symm hothers ?_, h.forwarded⟩
      rw [howed]
      exact h.threads thread
  | commit thread =>
      simp only [step] at hstep
      split at hstep
      · rename_i launch pending swaps charged hrunning
        obtain ⟨bucket, hbucket, rfl⟩ := Option.map_eq_some_iff.mp hstep
        obtain ⟨⟨more, hadmitted, howed, htaken, hbefore⟩, hothers⟩ :=
          launch_of_wrapped_commit hbucket
        obtain ⟨hsizes, hsuffix, hcharged⟩ := hrunning ▸ h.threads thread
        refine ⟨ints_step h.bucket hbucket,
          accounted_update h thread rfl hothers ⟨?_, hsuffix, ?_⟩, h.forwarded⟩
        · dsimp only at hsizes ⊢
          rw [← hsizes, ← howed, hadmitted, List.drop_left, List.map_append]
          simp only [List.append_assoc]
        · rw [hadmitted, List.drop_left]
          exact charged_by_append hcharged htaken h.bucket.cur hbefore
      · cases hstep
  | driver thread =>
      simp only [step] at hstep
      split at hstep
      · rename_i launch rest swaps charged hrunning hidle
        cases hstep
        obtain ⟨hsizes, hsuffix, hcharged⟩ := hrunning ▸ h.threads thread
        -- nothing is owed and nothing follows the driver's call
        obtain rfl := driver_last hsuffix
        simp only [hidle, Launch.owed, sizes_driver, sizes_nil, List.append_nil] at hsizes
        refine ⟨h.bucket, accounted_update h thread rfl (fun _ _ => rfl)
          ⟨?_, (List.suffix_cons _ _).trans hsuffix, hcharged⟩, fun entry hmem => ?_⟩
        · simpa [State.setRunning, hidle, Launch.owed] using hsizes
        · rcases List.mem_append.mp hmem with hmem | hmem
          · exact h.forwarded entry hmem
          · obtain rfl := List.mem_singleton.mp hmem
            exact ⟨hsizes, hcharged⟩
      · cases hstep
  | finish thread =>
      simp only [step] at hstep
      split at hstep
      · rename_i hrunning hidle
        cases hstep
        refine ⟨h.bucket, accounted_update h thread rfl (fun _ _ => rfl) ?_, h.forwarded⟩
        simp [State.setRunning, hidle, Launch.owed, Accounted]
      · cases hstep
  | control action =>
      simp only [step] at hstep
      split at hstep
      · rename_i haction
        obtain ⟨bucket, hbucket, rfl⟩ := Option.map_eq_some_iff.mp hstep
        refine ⟨ints_step h.bucket hbucket, fun thread => ?_, h.forwarded⟩
        rw [launches_of_wrapped_controller haction hbucket]
        exact h.threads thread
      · cases hstep

omit [DecidableEq τ] in
/-- The invariant holds before anything has run. -/
theorem inv_initial : Inv (State.initial τ) := ⟨ints_initial, fun _ => rfl, nofun⟩

/-! ## The product and the charge -/

/-- Converting to `int` wraps. -/
theorem to_int32_to_int (value : UInt32) : value.toInt32.toInt = wrap32 value.toNat := by
  rw [wrap32_eq_bmod, Int32.toInt, UInt32.toBitVec_toInt32, BitVec.toInt_eq_toNat_bmod,
    UInt32.toNat_toBitVec]

/-- The wrapping product of two dimensions as an `int`. -/
theorem product_two (x y : UInt32) :
    (x * y).toInt32.toInt = wrap32 ((x.toNat : Int) * y.toNat) := by
  rw [to_int32_to_int, UInt32.toNat_mul, Int.natCast_emod, Int.natCast_mul, wrap32_eq_bmod,
    wrap32_eq_bmod]
  exact Int.emod_bmod _ _

/-- The wrapping product of three dimensions as an `int`. -/
theorem product_three (dims : Dims) : dims.product.toInt32.toInt = wrap32 dims.size := by
  unfold Dims.product Dims.size
  rw [to_int32_to_int, UInt32.toNat_mul, UInt32.toNat_mul, Nat.mod_mul_mod, Int.natCast_emod,
    Int.natCast_mul, Int.natCast_mul, wrap32_eq_bmod, wrap32_eq_bmod]
  exact Int.emod_bmod _ _

/-- A launch with positive dimensions has a positive size. -/
theorem Dims.Positive.size_pos {dims : Dims} (h : dims.Positive) : 0 < dims.size := by
  have hx := h.x
  have hy := h.y
  have hz := h.z
  exact Int.mul_pos (Int.mul_pos (by omega) (by omega)) (by omega)

/-- A swap takes a positive size exactly, though it got it wrapped, when the size does not exceed
`cur_cores` by more than `2 ^ 31`. -/
theorem taken_eq_iff {swap : Admission} {size : Int} (hbefore : signed32 swap.before)
    (hpos : 0 < size) (hsize : swap.kernelSize = wrap32 size) :
    swap.taken = size ↔ size ≤ 2 ^ 31 + swap.before := by
  obtain ⟨-, hhigh⟩ := (signed32_iff _).mp hbefore
  have hint : signed32 (swap.before - size) ↔ size ≤ 2 ^ 31 + swap.before := by
    rw [signed32_iff]
    omega
  unfold Admission.taken
  rw [hsize, wrap32_sub_wrap32, ← hint, ← wrap32_eq_iff]
  omega

/-- A swap that got part of a size never takes the whole. -/
theorem taken_ne_of_part {swap : Admission} {size part : Int} (hbefore : signed32 swap.before)
    (hpos : 0 < part) (hpart : part < size) (hsize : swap.kernelSize = wrap32 part) :
    swap.taken ≠ size := by
  intro heq
  obtain ⟨-, hhigh⟩ := (signed32_iff _).mp hbefore
  obtain ⟨hlow, -⟩ := (signed32_iff _).mp (signed32_wrap32 (swap.before - part))
  unfold Admission.taken at heq
  rw [hsize, wrap32_sub_wrap32] at heq
  -- what is taken differs from the part by a multiple of `2 ^ 32`, and from the whole by less
  have hdvd : ((2 ^ 32 : Nat) : Int) ∣ swap.before - part - wrap32 (swap.before - part) :=
    wrap32_eq_bmod _ ▸ Int.dvd_self_sub_bmod
  have hle := Int.le_of_dvd (by omega) hdvd
  omega

/-- When a launch whose swap finds this value in `cur_cores` is charged its full size:
`cuLaunchKernel` with a product that exceeds it by at most `2 ^ 31`, `cnInvokeKernel` with such a
product and a third dimension of one, `cuLaunchCooperativeKernel` never. -/
def KernelLaunch.ChargedInFull (curCores : Int) : KernelLaunch → Prop
  | .cuLaunchKernel gridDim _ => gridDim.size ≤ 2 ^ 31 + curCores
  | .cuLaunchCooperativeKernel _ _ => False
  | .cnInvokeKernel dim => dim.z = 1 ∧ dim.size ≤ 2 ^ 31 + curCores

/-- `cnInvokeKernel` leaves the third dimension out of the product. -/
theorem cn_invoke_taken_iff {dim : Dims} (h : dim.Positive) {swap : Admission}
    (hbefore : signed32 swap.before) (hsize : swap.kernelSize = (dim.x * dim.y).toInt32.toInt) :
    swap.taken = dim.size ↔ dim.z = 1 ∧ dim.size ≤ 2 ^ 31 + swap.before := by
  have hx := h.x
  have hy := h.y
  have hz := h.z
  have hface : 0 < (dim.x.toNat : Int) * dim.y.toNat := Int.mul_pos (by omega) (by omega)
  rw [product_two] at hsize
  by_cases hone : dim.z = 1
  · have hdim : dim.size = (dim.x.toNat : Int) * dim.y.toNat := by
      simp [Dims.size, hone]
    rw [and_iff_right hone, hdim]
    exact taken_eq_iff hbefore hface hsize
  · have htwo : 2 ≤ dim.z.toNat := by
      have hne : dim.z.toNat ≠ 1 := fun heq => hone (UInt32.toNat_inj.mp heq)
      omega
    have hgrow : (dim.x.toNat : Int) * dim.y.toNat * 2 ≤ dim.size :=
      Int.mul_le_mul_of_nonneg_left (by omega) hface.le
    exact iff_of_false (taken_ne_of_part hbefore hface (by omega) hsize)
      fun hboth => hone hboth.1

/-- What one swap takes is all that a launch with one swap is charged. -/
theorem charged_of_single {swaps : List Admission} {charged size : Int}
    (hsizes : swaps.map Admission.kernelSize = [size]) (h : ChargedBy swaps charged) :
    ∃ swap, swaps = [swap] ∧ swap.kernelSize = size ∧ charged = swap.taken ∧
      signed32 swap.before := by
  obtain ⟨swap, rfl, hsize⟩ := List.map_eq_singleton_iff.mp hsizes
  refine ⟨swap, rfl, hsize, ?_, h.before_int swap (by simp)⟩
  simpa using h.charged_eq

/-- A launch that made the swaps of its body is charged its full size exactly when one of them
meets `ChargedInFull`. -/
theorem body_charged_iff {launch : KernelLaunch} (hdims : launch.dims.Positive)
    {swaps : List Admission} {charged : Int}
    (hsizes : swaps.map Admission.kernelSize = sizes launch.body) (h : ChargedBy swaps charged) :
    charged = launch.dims.size ↔ ∃ swap ∈ swaps, launch.ChargedInFull swap.before := by
  cases launch with
  | cuLaunchKernel gridDim blockDim =>
      obtain ⟨swap, rfl, hsize, rfl, hbefore⟩ := charged_of_single hsizes h
      rw [product_three] at hsize
      simp only [List.mem_singleton, exists_eq_left]
      exact taken_eq_iff hbefore (Dims.Positive.size_pos hdims) hsize
  | cuLaunchCooperativeKernel gridDim blockDim =>
      have hnone : swaps = [] := List.map_eq_nil_iff.mp hsizes
      have hpos := hdims.size_pos
      have hcharged := h.charged_eq
      rw [hnone] at hcharged ⊢
      refine iff_of_false (fun heq => ?_) nofun
      rw [hcharged] at heq
      exact hpos.ne heq
  | cnInvokeKernel dim =>
      obtain ⟨swap, rfl, hsize, rfl, hbefore⟩ := charged_of_single hsizes h
      simp only [List.mem_singleton, exists_eq_left]
      exact cn_invoke_taken_iff hdims hbefore hsize

/-- The guarantee for a launch handed to the driver: by then its own swaps have taken its full
size, which is positive, from `cur_cores`. -/
def Forwarded.FullyCharged (entry : Forwarded) : Prop :=
  entry.charged = entry.launch.dims.size ∧ 0 < entry.charged

/-- In every state reached by any interleaving, a launch with positive dimensions that was handed
to the driver is fully charged exactly when a swap of its own found a value in `cur_cores` with
which it meets `ChargedInFull`. -/
theorem fully_charged_iff (ctx : IntContext) (actions : List (Action τ)) (state : State τ)
    (hrun : exec (step ctx) (State.initial τ) actions = some state) (entry : Forwarded)
    (hentry : entry ∈ state.forwarded) (hdims : entry.launch.dims.Positive) :
    entry.FullyCharged ↔ ∃ swap ∈ entry.swaps, entry.launch.ChargedInFull swap.before := by
  have hinv : Inv state := exec_invariant (fun _ _ _ h => inv_step h) inv_initial hrun
  obtain ⟨hsizes, hcharged⟩ := hinv.forwarded entry hentry
  rw [← body_charged_iff hdims hsizes hcharged]
  exact and_iff_left_of_imp fun heq => heq ▸ hdims.size_pos

/-- A grid of 2 by 3 by 4 blocks is charged 24 before it reaches the driver. -/
theorem fully_charged_small :
    ∃ state, exec (step halfIntCard) (State.initial Nat)
        [.control .prologue, .invoke 0 (.cuLaunchKernel ⟨2, 3, 4⟩ ⟨32, 1, 1⟩), .enter 0, .check 0,
          .commit 0, .driver 0] = some state ∧
      ∃ entry ∈ state.forwarded, entry.FullyCharged := by
  refine ⟨_, rfl, ⟨.cuLaunchKernel ⟨2, 3, 4⟩ ⟨32, 1, 1⟩, [⟨24, 0⟩], 24⟩, by decide, ?_⟩
  have hiff := fully_charged_iff halfIntCard
    [.control .prologue, .invoke 0 (.cuLaunchKernel ⟨2, 3, 4⟩ ⟨32, 1, 1⟩), .enter 0, .check 0,
      .commit 0, .driver 0] _ rfl ⟨.cuLaunchKernel ⟨2, 3, 4⟩ ⟨32, 1, 1⟩, [⟨24, 0⟩], 24⟩ (by decide)
    ⟨by decide, by decide, by decide⟩
  exact hiff.mpr ⟨⟨24, 0⟩, by decide, by show (24 : Int) ≤ 2 ^ 31 + 0; decide⟩

/-- A task of 2 by 3 by 4 is forwarded by `cnInvokeKernel` after a charge of 6. -/
theorem fully_charged_counterexample :
    ¬ ∀ (ctx : IntContext) (actions : List (Action Nat)) (state : State Nat),
        exec (step ctx) (State.initial Nat) actions = some state →
          ∀ entry ∈ state.forwarded, entry.launch.dims.Positive → entry.FullyCharged := by
  intro h
  have hcharged := h mluIntCard
    [.control .prologue, .invoke 0 (.cnInvokeKernel ⟨2, 3, 4⟩), .enter 0, .check 0, .commit 0,
      .driver 0] _ rfl ⟨.cnInvokeKernel ⟨2, 3, 4⟩, [⟨6, 0⟩], 6⟩ (by decide)
    ⟨by decide, by decide, by decide⟩
  exact absurd hcharged.1 (by decide)

end UniShare.Interceptor
