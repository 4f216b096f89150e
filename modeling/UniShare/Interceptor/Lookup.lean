import UniShare.Interceptor.Launch
import UniShare.Interceptor.Memory

/-!
# How a client obtains the hooked functions

After `core/interceptor/hijack_dlsym.c`, `cuGetProcAddress` of `core/interceptor/hijack_gpu.c`, and
the hooked functions. A client obtains functions by linking, by `dlsym` or by `cuGetProcAddress`,
keeps the pointers, and calls them. What `get_mlu_mem` returns may depend on the time and on all
calls that have reached the driver. `enforcement_eq_iff` compares a run with the one in which every
function is linked.
-/

namespace UniShare.Interceptor

open Lib

/-! ## The functions -/

/-- The functions that are hooked. -/
inductive Function where
  | cuDriverGetVersion
  | cuInit
  | cuGetProcAddress
  | cuMemAllocManaged
  | cuMemAlloc
  | cuMemAllocPitch
  | cuArrayCreate
  | cuArray3DCreate
  | cuMipmappedArrayCreate
  | cuDeviceTotalMem
  | cuMemGetInfo
  | cuLaunchKernel
  | cuLaunchCooperativeKernel
  | cnInit
  | cnGetLibVersion
  | cnGetExportFunction
  | cnMemGetInfo
  | cnMalloc
  | cnMallocSecurity
  | cnZmalloc
  | cnMallocConstant
  | cnInvokeKernel
  deriving DecidableEq, Repr

/-- The name of a function. -/
def Function.symbol : Function → String
  | .cuDriverGetVersion => "cuDriverGetVersion"
  | .cuInit => "cuInit"
  | .cuGetProcAddress => "cuGetProcAddress"
  | .cuMemAllocManaged => "cuMemAllocManaged"
  | .cuMemAlloc => "cuMemAlloc"
  | .cuMemAllocPitch => "cuMemAllocPitch"
  | .cuArrayCreate => "cuArrayCreate"
  | .cuArray3DCreate => "cuArray3DCreate"
  | .cuMipmappedArrayCreate => "cuMipmappedArrayCreate"
  | .cuDeviceTotalMem => "cuDeviceTotalMem"
  | .cuMemGetInfo => "cuMemGetInfo"
  | .cuLaunchKernel => "cuLaunchKernel"
  | .cuLaunchCooperativeKernel => "cuLaunchCooperativeKernel"
  | .cnInit => "cnInit"
  | .cnGetLibVersion => "cnGetLibVersion"
  | .cnGetExportFunction => "cnGetExportFunction"
  | .cnMemGetInfo => "cnMemGetInfo"
  | .cnMalloc => "cnMalloc"
  | .cnMallocSecurity => "cnMallocSecurity"
  | .cnZmalloc => "cnZmalloc"
  | .cnMallocConstant => "cnMallocConstant"
  | .cnInvokeKernel => "cnInvokeKernel"

/-- The hooked function charges, checks or answers by the quota. -/
def Function.enforced : Function → Bool
  | .cuLaunchKernel | .cnInvokeKernel | .cnMalloc | .cnMallocSecurity | .cnZmalloc
  | .cnMallocConstant | .cnMemGetInfo => true
  | _ => false

/-- A function pointer: to the hooked function, or to the driver's own. -/
inductive Pointer where
  | hooked (function : Function)
  | driver (function : Function)
  deriving DecidableEq, Repr

/-- The function that a pointer is for. -/
def Pointer.function : Pointer → Function
  | .hooked function | .driver function => function

@[simp] theorem function_hooked (function : Function) :
    (Pointer.hooked function).function = function := rfl

@[simp] theorem function_driver (function : Function) :
    (Pointer.driver function).function = function := rfl

/-- `real_dlsym`, with a handle of the driver library. -/
def realDlsym (function : Function) : Pointer := .driver function

/-- `strncmp` of the first two characters. -/
def sameTwo (left right : String) : Bool := left.toList.take 2 == right.toList.take 2

/-- `dlsym`. -/
def dlsym (function : Function) : Pointer :=
  let symbol := function.symbol
  if !sameTwo symbol "cn" && !sameTwo symbol "cu" then realDlsym function
  else if symbol == "cnGetLibVersion" then .hooked .cnGetLibVersion
  else if symbol == "cnInit" then .hooked .cnInit
  else if symbol == "cnGetExportFunction" then .hooked .cnGetExportFunction
  else if symbol == "cnInvokeKernel" then .hooked .cnInvokeKernel
  else if symbol == "cnMalloc" then .hooked .cnMalloc
  else if symbol == "cuDriverGetVersion" then .hooked .cuDriverGetVersion
  else if symbol == "cuInit" then .hooked .cuInit
  else if symbol == "cuGetProcAddress" then .hooked .cuGetProcAddress
  else if symbol == "cuMemAllocManaged" then .hooked .cuMemAllocManaged
  else if symbol == "cuMemAlloc" then .hooked .cuMemAlloc
  else if symbol == "cuMemAllocPitch" then .hooked .cuMemAllocPitch
  else if symbol == "cuArrayCreate" then .hooked .cuArrayCreate
  else if symbol == "cuArray3DCreate" then .hooked .cuArray3DCreate
  else if symbol == "cuMipmappedArrayCreate" then .hooked .cuMipmappedArrayCreate
  else if symbol == "cuDeviceTotalMem" then .hooked .cuDeviceTotalMem
  else if symbol == "cuMemGetInfo" then .hooked .cuMemGetInfo
  else if symbol == "cuLaunchKernel" then .hooked .cuLaunchKernel
  else if symbol == "cuLaunchCooperativeKernel" then .hooked .cuLaunchCooperativeKernel
  else realDlsym function

/-- What `cuGetProcAddress` stores after the driver's has stored its own function. -/
def procAddress (function : Function) : Pointer :=
  let symbol := function.symbol
  if symbol == "cuGetProcAddress" then .hooked .cuGetProcAddress
  else if symbol == "cuLaunchKernel" then .hooked .cuLaunchKernel
  else if symbol == "cuInit" then .hooked .cuInit
  else if symbol == "cuDriverGetVersion" then .hooked .cuDriverGetVersion
  else if symbol == "cuLaunchKernel" then .hooked .cuLaunchKernel
  else .driver function

namespace Lookup

/-! ## What a call does -/

/-- A call with the arguments that a hooked function reads; a function that takes no enforcement
action passes its arguments on unread. -/
inductive Invocation where
  | launch (kernel : KernelLaunch)
  | alloc (function : AllocFunction) (bytes : UInt64)
  | cnMemGetInfo
  | plain (function : Function) (h : function.enforced = false)
  deriving DecidableEq, Repr

/-- The function that a launch is made through. -/
def launchFunction : KernelLaunch → Function
  | .cuLaunchKernel _ _ => .cuLaunchKernel
  | .cuLaunchCooperativeKernel _ _ => .cuLaunchCooperativeKernel
  | .cnInvokeKernel _ => .cnInvokeKernel

/-- The function that an allocation is made through. -/
def allocFunction : AllocFunction → Function
  | .cnMalloc => .cnMalloc
  | .cnMallocSecurity => .cnMallocSecurity
  | .cnZmalloc => .cnZmalloc
  | .cnMallocConstant => .cnMallocConstant

/-- The function that is called. -/
def Invocation.function : Invocation → Function
  | .launch kernel => launchFunction kernel
  | .alloc function _ => allocFunction function
  | .cnMemGetInfo => .cnMemGetInfo
  | .plain function _ => function

/-- An enforcement action: a charge of `rate_limiter`, a quota check that passes or refuses, or an
answer of `cnMemGetInfo`. -/
inductive Enforcement where
  | charge (grids blocks : Int32)
  | accept (function : AllocFunction) (bytes : UInt64)
  | refuse (function : AllocFunction) (bytes : UInt64)
  | answer (info : MemInfo)
  deriving DecidableEq, Repr

/-- The enforcement actions of a call and the calls that reach the driver. -/
structure Outcome where
  enforced : List Enforcement
  reached : List Invocation
  deriving DecidableEq, Repr

/-- What the calls in the body of a launch function amount to. -/
def callOutcome (kernel : KernelLaunch) : Call → Outcome
  | .rateLimiter grids blocks => ⟨[.charge grids blocks], []⟩
  | .driver => ⟨[], [.launch kernel]⟩

/-- The hooked function runs, with what `get_mlu_mem` returns when the given calls have reached the
driver since the call began. -/
def Invocation.hooked (totalMem : UInt64) (use : List Invocation → UInt64) : Invocation → Outcome
  | .launch kernel =>
      ⟨kernel.body.flatMap fun call => (callOutcome kernel call).enforced,
        kernel.body.flatMap fun call => (callOutcome kernel call).reached⟩
  | .alloc function bytes =>
      match function.body totalMem (use []) bytes with
      | .outOfMemory => ⟨[.refuse function bytes], []⟩
      | .driver called bytes => ⟨[.accept function bytes], [.alloc called bytes]⟩
  | .cnMemGetInfo =>
      ⟨[.answer (Interceptor.cnMemGetInfo totalMem (use [.cnMemGetInfo]))], [.cnMemGetInfo]⟩
  | .plain .cuMemAlloc _ => ⟨[], [.plain .cuMemAllocManaged rfl]⟩
  | .plain function h => ⟨[], [.plain function h]⟩

/-- A call through a pointer. -/
def callPointer (totalMem : UInt64) (use : List Invocation → UInt64) (invocation : Invocation) :
    Pointer → Outcome
  | .hooked _ => invocation.hooked totalMem use
  | .driver _ => ⟨[], [invocation]⟩

/-! ## The client -/

/-- How a pointer was obtained. -/
inductive Source where
  | link
  | dlsym
  | procAddress
  deriving DecidableEq, Repr

/-- The pointers that the client holds, the enforcement actions so far, the calls that have reached
the driver of the MLU, and the number of steps. The source of a pointer is a ghost. -/
structure State where
  pointers : List (Source × Pointer)
  enforced : List Enforcement
  reached : List Invocation
  clock : Nat
  deriving DecidableEq, Repr

/-- The client has obtained nothing yet. -/
def State.initial : State := ⟨[], [], [], 0⟩

/-- The client links a function, obtains one from `dlsym` or from a pointer to `cuGetProcAddress`,
or calls one. -/
inductive Action where
  | link (function : Function)
  | dlsym (function : Function)
  | getProcAddress (i : Nat) (function : Function)
  | call (i : Nat) (invocation : Invocation)
  deriving DecidableEq, Repr

/-- The client obtains a pointer. -/
def State.obtain (state : State) (source : Source) (pointer : Pointer) : State :=
  { state with pointers := state.pointers ++ [(source, pointer)], clock := state.clock + 1 }

/-- The call is one to the driver of the MLU. -/
def Invocation.mlu (invocation : Invocation) : Bool := sameTwo invocation.function.symbol "cn"

/-- A call has had its outcome. -/
def State.record (state : State) (outcome : Outcome) : State :=
  { state with
    enforced := state.enforced ++ outcome.enforced
    reached := state.reached ++ outcome.reached.filter Invocation.mlu
    clock := state.clock + 1 }

/-- The environment of the client: the quota, the functions that the driver's `cuGetProcAddress`
finds, and what `get_mlu_mem` returns at a time, after these calls have reached the driver of the
MLU. -/
structure Environment where
  totalMem : UInt64
  provides : Function → Bool
  use : Nat → List Invocation → UInt64

/-- One transition, `none` when there is no such pointer. -/
def step (env : Environment) (state : State) : Action → Option State
  | .link function => some (state.obtain .link (.hooked function))
  | .dlsym function => some (state.obtain .dlsym (Interceptor.dlsym function))
  | .getProcAddress i function =>
      match state.pointers[i]? with
      | some (_, .hooked .cuGetProcAddress) =>
          if env.provides function then some (state.obtain .procAddress (procAddress function))
          else none
      | some (_, .driver .cuGetProcAddress) =>
          if env.provides function then some (state.obtain .procAddress (.driver function))
          else none
      | _ => none
  | .call i invocation =>
      match state.pointers[i]? with
      | some (_, pointer) =>
          if pointer.function = invocation.function then
            some (state.record (callPointer env.totalMem
              (fun since => env.use state.clock (state.reached ++ since)) invocation pointer))
          else none
      | none => none

/-- The same action with every function linked. -/
def Action.direct : Action → Action
  | .link function | .dlsym function | .getProcAddress _ function => .link function
  | .call i invocation => .call i invocation

/-- The enforced functions that a way of obtaining them does not list. -/
def unlisted : Source → List Function
  | .link => []
  | .dlsym => [.cnMemGetInfo, .cnMallocSecurity, .cnZmalloc, .cnMallocConstant]
  | .procAddress =>
      [.cnInvokeKernel, .cnMalloc, .cnMallocSecurity, .cnZmalloc, .cnMallocConstant, .cnMemGetInfo]

/-- The action calls a function through a pointer from a source that does not list it. -/
def Bypass (state : State) : Action → Prop
  | .call i invocation => ∃ pointer ∈ state.pointers[i]?, invocation.function ∈ unlisted pointer.1
  | _ => False

instance (state : State) : ∀ action, Decidable (Bypass state action)
  | .call i invocation =>
      match h : state.pointers[i]? with
      | some pointer =>
          decidable_of_iff (invocation.function ∈ unlisted pointer.1) (by simp [Bypass, h])
      | none => .isFalse (by simp [Bypass, h])
  | .link _ | .dlsym _ | .getProcAddress _ _ => .isFalse id

/-! ## The lookups -/

/-- What a way of obtaining a function gives, `cuGetProcAddress` being the hooked one. -/
def resolve : Source → Function → Pointer
  | .link, function => .hooked function
  | .dlsym, function => Interceptor.dlsym function
  | .procAddress, function => Interceptor.procAddress function

/-- A lookup gives a pointer to the function that was asked for. -/
@[simp] theorem resolve_function (source : Source) (function : Function) :
    (resolve source function).function = function := by
  cases source <;> cases function <;> rfl

/-- A lookup of an enforced function gives the driver's own exactly when its source does not list
it. -/
theorem resolve_iff (source : Source) {function : Function} (h : function.enforced = true) :
    resolve source function = .driver function ↔ function ∈ unlisted source := by
  cases source <;> cases function <;> first | decide | cases h

/-- No lookup gives the driver's own `cuGetProcAddress`. -/
theorem resolve_get_proc_address (source : Source) :
    resolve source .cuGetProcAddress = .hooked .cuGetProcAddress := by
  cases source <;> rfl

/-- A function that no source misses is enforced. -/
theorem enforced_of_unlisted (source : Source) :
    ∀ function ∈ unlisted source, function.enforced = true := by
  cases source <;> decide

/-- A pointer to the function itself or to the driver's. -/
theorem pointer_cases (pointer : Pointer) :
    pointer = .hooked pointer.function ∨ pointer = .driver pointer.function := by
  cases pointer with
  | hooked function => exact .inl rfl
  | driver function => exact .inr rfl

/-- A hooked function takes one enforcement action when it is one that enforces, and none
otherwise. -/
theorem hooked_enforced_length (totalMem : UInt64) (use : List Invocation → UInt64)
    (invocation : Invocation) :
    (invocation.hooked totalMem use).enforced.length =
      if invocation.function.enforced then 1 else 0 := by
  cases invocation with
  | launch kernel => cases kernel <;> rfl
  | alloc function bytes =>
      have henforced : (allocFunction function).enforced = true := by cases function <;> rfl
      simp only [Invocation.hooked, Invocation.function, henforced, if_true]
      split <;> rfl
  | cnMemGetInfo => rfl
  | plain function h => cases function <;> first | rfl | cases h

/-! ## The invariant -/

/-- Every pointer is what its source gives. -/
def Resolved (state : State) : Prop :=
  ∀ pointer ∈ state.pointers, pointer.2 = resolve pointer.1 pointer.2.function

/-- What a step does in such a state: it obtains a pointer, or calls one. -/
inductive Effect (env : Environment) (state next : State) : Action → Prop where
  | obtained (action source function) : action.direct = .link function → ¬ Bypass state action →
      next = state.obtain source (resolve source function) → Effect env state next action
  | called (i invocation source pointer) : state.pointers[i]? = some (source, pointer) →
      pointer.function = invocation.function →
      next = state.record (callPointer env.totalMem
        (fun since => env.use state.clock (state.reached ++ since)) invocation pointer) →
      Effect env state next (.call i invocation)

/-- Every step has one of these effects. -/
theorem effect_of_step {env : Environment} {state next : State} {action : Action}
    (hresolved : Resolved state) (hstep : step env state action = some next) :
    Effect env state next action := by
  cases action with
  | link function =>
      cases hstep
      exact .obtained _ .link function rfl id rfl
  | dlsym function =>
      cases hstep
      exact .obtained _ .dlsym function rfl id rfl
  | getProcAddress i function =>
      simp only [step] at hstep
      split at hstep
      · split at hstep <;> cases hstep
        exact .obtained _ .procAddress function rfl id rfl
      · -- the driver's own `cuGetProcAddress` is never obtained
        rename_i source hpointer
        have hdriver := hresolved _ (List.mem_of_getElem? hpointer)
        have hfound := resolve_get_proc_address source
        exact absurd (hdriver.trans hfound) nofun
      · cases hstep
  | call i invocation =>
      simp only [step] at hstep
      split at hstep
      · rename_i source pointer hpointer
        split at hstep <;> cases hstep
        rename_i hfunction
        exact .called i invocation source pointer hpointer hfunction rfl
      · cases hstep

/-- Every step keeps the invariant. -/
theorem resolved_step {env : Environment} {state next : State} {action : Action}
    (hresolved : Resolved state) (hstep : step env state action = some next) : Resolved next := by
  cases effect_of_step hresolved hstep with
  | obtained action source function hdirect hbypass heq =>
      subst heq
      exact forall_mem_concat hresolved (by simp only [resolve_function])
  | called i invocation source pointer hpointer hfunction heq =>
      subst heq
      exact hresolved

/-! ## The run with every function linked -/

/-- The second state holds hooked pointers to the functions of the first. -/
structure Linked (state direct : State) : Prop where
  functions : state.pointers.map (fun pointer => pointer.2.function) =
    direct.pointers.map fun pointer => pointer.2.function
  hooked : ∀ pointer ∈ direct.pointers, pointer.2 = .hooked pointer.2.function
  clock : state.clock = direct.clock

/-- The states have seen the same enforcement actions and the same calls to the MLU. -/
structure SameOutput (state direct : State) : Prop where
  enforced : state.enforced = direct.enforced
  reached : state.reached = direct.reached

/-- A linked pointer to the same function is a hooked one. -/
theorem Linked.pointer {state direct : State} (h : Linked state direct) {i : Nat} {source : Source}
    {pointer : Pointer} (hpointer : state.pointers[i]? = some (source, pointer)) :
    ∃ other, direct.pointers[i]? = some (other, .hooked pointer.function) := by
  have hmap := congrArg (fun functions => functions[i]?) h.functions
  simp only [List.getElem?_map, hpointer, Option.map_some] at hmap
  obtain ⟨⟨other, linked⟩, hlinked, hfunction⟩ := Option.map_eq_some_iff.mp hmap.symm
  have hhooked := h.hooked _ (List.mem_of_getElem? hlinked)
  dsimp only at hhooked hfunction
  exact ⟨other, by rw [hlinked, hhooked, hfunction]⟩

/-- A hooked function that enforces nothing lets the call through to the MLU. -/
theorem hooked_plain (totalMem : UInt64) (use : List Invocation → UInt64) {invocation : Invocation}
    (h : invocation.function.enforced = false) :
    (invocation.hooked totalMem use).enforced = [] ∧
      (invocation.hooked totalMem use).reached.filter Invocation.mlu =
        [invocation].filter Invocation.mlu := by
  cases invocation with
  | launch kernel => cases kernel <;> first | exact ⟨rfl, rfl⟩ | cases h
  | alloc function bytes => cases function <;> cases h
  | cnMemGetInfo => cases h
  | plain function hplain =>
      cases function with
      | cuMemAlloc =>
          -- the hooked function calls another one, which is no call to the MLU either
          refine ⟨rfl, ?_⟩
          simp [Invocation.hooked, Invocation.mlu, Invocation.function, Function.symbol, sameTwo]
      | _ => exact ⟨rfl, rfl⟩

/-- A call through a pointer that is what its source gives: hooked, or to a driver's function that
enforces nothing, or a bypass. -/
theorem call_cases {state : State} (hresolved : Resolved state) {i : Nat} {source : Source}
    {pointer : Pointer} {invocation : Invocation}
    (hpointer : state.pointers[i]? = some (source, pointer))
    (hfunction : pointer.function = invocation.function) :
    (Bypass state (.call i invocation) ∧ pointer = .driver invocation.function ∧
      invocation.function.enforced = true) ∨
    (¬ Bypass state (.call i invocation) ∧ (pointer = .hooked invocation.function ∨
      (pointer = .driver invocation.function ∧ invocation.function.enforced = false))) := by
  have hsource := hresolved _ (List.mem_of_getElem? hpointer)
  dsimp only at hsource
  have hbypass : Bypass state (.call i invocation) ↔ invocation.function ∈ unlisted source := by
    simp [Bypass, hpointer]
  rw [hbypass]
  rw [hfunction] at hsource
  by_cases hlisted : invocation.function ∈ unlisted source
  · have henforced := enforced_of_unlisted source _ hlisted
    exact .inl ⟨hlisted, hsource.trans ((resolve_iff source henforced).mpr hlisted), henforced⟩
  · refine .inr ⟨hlisted, ?_⟩
    rcases pointer_cases pointer with hhooked | hdriver
    · exact .inl (hfunction ▸ hhooked)
    · rw [hfunction] at hdriver
      cases henforced : invocation.function.enforced with
      | true =>
          exact absurd ((resolve_iff source henforced).mp (hsource.symm.trans hdriver)) hlisted
      | false => exact .inr ⟨hdriver, rfl⟩

/-- Recording outcomes that the MLU cannot tell apart keeps the outputs the same. -/
theorem SameOutput.record {state direct : State} (h : SameOutput state direct)
    {left right : Outcome} (henforced : left.enforced = right.enforced)
    (hreached : left.reached.filter Invocation.mlu = right.reached.filter Invocation.mlu) :
    SameOutput (state.record left) (direct.record right) :=
  ⟨by simp only [State.record, h.enforced, henforced],
    by simp only [State.record, h.reached, hreached]⟩

/-- Every step is matched by the step with its function linked, which takes one enforcement action
more exactly when the step is a bypass, and the same ones otherwise. -/
theorem linked_step {env : Environment} {state next direct : State} {action : Action}
    (hresolved : Resolved state) (hlinked : Linked state direct)
    (hstep : step env state action = some next) :
    ∃ following, step env direct action.direct = some following ∧ Linked next following ∧
      next.enforced.length + (if Bypass state action then 1 else 0) + direct.enforced.length =
        following.enforced.length + state.enforced.length ∧
      (¬ Bypass state action → SameOutput state direct → SameOutput next following) := by
  obtain ⟨hfunctions, hhooked, hclock⟩ := hlinked
  cases effect_of_step hresolved hstep with
  | obtained action source function hdirect hbypass heq =>
      subst heq
      refine ⟨direct.obtain .link (.hooked function), by rw [hdirect]; rfl, ⟨?_, ?_, ?_⟩, ?_, ?_⟩
      · simp [State.obtain, hfunctions]
      · exact forall_mem_concat hhooked rfl
      · simp [State.obtain, hclock]
      · rw [if_neg hbypass]
        simp only [State.obtain]
        omega
      · exact fun _ hsame => ⟨hsame.enforced, hsame.reached⟩
  | called i invocation source pointer hpointer hfunction heq =>
      subst heq
      obtain ⟨other, hother⟩ := Linked.pointer ⟨hfunctions, hhooked, hclock⟩ hpointer
      have hmatch : step env direct (.call i invocation) = some (direct.record
          (invocation.hooked env.totalMem fun since =>
            env.use direct.clock (direct.reached ++ since))) := by
        simp [step, hother, hfunction, callPointer]
      refine ⟨_, hmatch, ⟨hfunctions, hhooked, by simp [State.record, hclock]⟩, ?_, ?_⟩
      · have hlength := hooked_enforced_length env.totalMem
          (fun since => env.use direct.clock (direct.reached ++ since)) invocation
        have hown := hooked_enforced_length env.totalMem
          (fun since => env.use state.clock (state.reached ++ since)) invocation
        simp only [State.record, List.length_append]
        rcases call_cases hresolved hpointer hfunction with
          ⟨hbypass, rfl, henforced⟩ | ⟨hbypass, rfl | ⟨rfl, hplain⟩⟩
        · rw [if_pos hbypass, hlength, henforced]
          simp only [callPointer, List.length_nil, if_true]
          omega
        · rw [if_neg hbypass, hlength]
          simp only [callPointer]
          omega
        · rw [if_neg hbypass, hlength, hplain]
          simp only [callPointer, List.length_nil, Bool.false_eq_true, if_false]
          omega
      · intro hbypass hsame
        rw [hclock, hsame.reached]
        rcases call_cases hresolved hpointer hfunction with
          ⟨hbypass', -, -⟩ | ⟨-, rfl | ⟨rfl, hplain⟩⟩
        · exact absurd hbypass' hbypass
        · exact hsame.record rfl rfl
        · obtain ⟨henforced, hreached⟩ := hooked_plain env.totalMem
            (fun since => env.use direct.clock (direct.reached ++ since)) hplain
          exact hsame.record henforced.symm hreached.symm

/-- A run and its linked counterpart differ by as many enforcement actions as the run has
bypasses. -/
theorem linked_run_length {env : Environment} {state final direct : State} {actions : List Action}
    (hresolved : Resolved state) (hlinked : Linked state direct)
    (hrun : exec (step env) state actions = some final) :
    ∃ result, exec (step env) direct (actions.map Action.direct) = some result ∧
      final.enforced.length + countAlong (step env) Bypass state actions +
        direct.enforced.length = result.enforced.length + state.enforced.length := by
  induction actions generalizing state direct with
  | nil =>
      obtain rfl := Option.some.inj hrun
      exact ⟨direct, rfl, by simp only [countAlong]; omega⟩
  | cons action rest ih =>
      obtain ⟨next, hstep, hrest⟩ := exec_cons_eq_some.mp hrun
      obtain ⟨following, hfollowing, hnext, hlength, -⟩ := linked_step hresolved hlinked hstep
      obtain ⟨result, hresult, htotal⟩ := ih (resolved_step hresolved hstep) hnext hrest
      refine ⟨result, exec_cons_eq_some.mpr ⟨following, hfollowing, hresult⟩, ?_⟩
      simp only [countAlong, hstep]
      omega

/-- A run without a bypass takes the same enforcement actions as its linked counterpart. -/
theorem linked_run_same {env : Environment} {final : State} {actions : List Action}
    (hrun : exec (step env) .initial actions = some final)
    (hnone : Along (step env) (fun state action => ¬ Bypass state action) .initial actions) :
    ∃ result, exec (step env) .initial (actions.map Action.direct) = some result ∧
      final.enforced = result.enforced := by
  have hmatch : ∀ state direct action next,
      Resolved state ∧ Linked state direct ∧ SameOutput state direct → ¬ Bypass state action →
      step env state action = some next →
      ∃ following, step env direct (Action.direct action) = some following ∧
        Resolved next ∧ Linked next following ∧ SameOutput next following := by
    intro state direct action next ⟨hresolved, hlinked, hsame⟩ hbypass hstep
    obtain ⟨following, hfollowing, hnext, -, houtput⟩ := linked_step hresolved hlinked hstep
    exact ⟨following, hfollowing, resolved_step hresolved hstep, hnext, houtput hbypass hsame⟩
  have hinitial : Resolved .initial ∧ Linked .initial .initial ∧ SameOutput .initial .initial :=
    ⟨nofun, ⟨rfl, nofun, rfl⟩, rfl, rfl⟩
  obtain ⟨result, hresult, -, -, hsame⟩ := exec_simulation hmatch hinitial hnone hrun
  exact ⟨result, hresult, hsame.enforced⟩

/-- Every run of a client can be made with every function linked; it lacks as many enforcement
actions as it has calls through a pointer whose source does not list the function, and takes the
same ones exactly when there is no such call. -/
theorem enforcement_eq_iff (env : Environment) {final : State} {actions : List Action}
    (hrun : exec (step env) .initial actions = some final) :
    ∃ direct, exec (step env) .initial (actions.map Action.direct) = some direct ∧
      (final.enforced = direct.enforced ↔
        Along (step env) (fun state action => ¬ Bypass state action) .initial actions) ∧
      final.enforced.length + countAlong (step env) Bypass .initial actions =
        direct.enforced.length := by
  have hresolved : Resolved .initial := nofun
  have hlinked : Linked .initial .initial := ⟨rfl, nofun, rfl⟩
  obtain ⟨direct, hdirect, hlength⟩ := linked_run_length hresolved hlinked hrun
  refine ⟨direct, hdirect, ⟨fun hsame => ?_, fun hnone => ?_⟩, by simpa using hlength⟩
  · rw [← count_along_eq_zero_iff]
    rw [hsame] at hlength
    omega
  · obtain ⟨result, hresult, hsame⟩ := linked_run_same hrun hnone
    obtain rfl := Option.some.inj (hdirect.symm.trans hresult)
    exact hsame

/-- An MLU of 1000 bytes whose memory use grows with the calls that have reached its driver. -/
def sampleEnvironment : Environment :=
  ⟨1000, fun function => sameTwo function.symbol "cu", fun _ reached =>
    300 * UInt64.ofNat reached.length⟩

/-- A client that mixes the three ways and calls through every pointer. -/
def mixedClient : List Action :=
  [.dlsym .cuGetProcAddress, .getProcAddress 0 .cuLaunchKernel, .getProcAddress 0 .cuMemAlloc,
    .dlsym .cnMalloc, .link .cnMemGetInfo,
    .call 1 (.launch (.cuLaunchKernel ⟨2, 3, 4⟩ ⟨32, 1, 1⟩)), .call 2 (.plain .cuMemAlloc rfl),
    .call 3 (.alloc .cnMalloc 600), .call 4 .cnMemGetInfo, .call 3 (.alloc .cnMalloc 600)]

/-- It is charged, admitted, answered and refused as with linked functions. -/
theorem enforcement_eq_mixed :
    ∃ direct, exec (step sampleEnvironment) .initial (mixedClient.map Action.direct) = some direct ∧
      direct.enforced = [.charge 24 32, .accept .cnMalloc 600, .answer ⟨400, 1000⟩,
        .refuse .cnMalloc 600] := by
  have hrun : (exec (step sampleEnvironment) .initial mixedClient).map State.enforced =
      some [.charge 24 32, .accept .cnMalloc 600, .answer ⟨400, 1000⟩, .refuse .cnMalloc 600] := by
    decide
  have hnone : Along (step sampleEnvironment) (fun state action => ¬ Bypass state action) .initial
      mixedClient := by decide
  obtain ⟨final, hfinal, henforced⟩ := Option.map_eq_some_iff.mp hrun
  obtain ⟨direct, hdirect, hsame, -⟩ := enforcement_eq_iff sampleEnvironment hfinal
  exact ⟨direct, hdirect, (hsame.mpr hnone).symm.trans henforced⟩

/-- A function that `dlsym` does not list is not checked: the allocation is not refused. -/
theorem enforcement_bypassed :
    ¬ ∀ (env : Environment) (actions : List Action) (final direct : State),
      exec (step env) .initial actions = some final →
      exec (step env) .initial (actions.map Action.direct) = some direct →
      final.enforced = direct.enforced := by
  intro h
  have hsame := h sampleEnvironment [.dlsym .cnZmalloc, .call 0 (.alloc .cnZmalloc 5000)]
    ⟨[(.dlsym, .driver .cnZmalloc)], [], [.alloc .cnZmalloc 5000], 2⟩
    ⟨[(.link, .hooked .cnZmalloc)], [.refuse .cnZmalloc 5000], [], 2⟩ (by decide) (by decide)
  exact absurd hsame nofun

end Lookup

end UniShare.Interceptor
