import UniShare.PluginRegister.Binding
import UniShare.PluginRegister.Choice

/-!
# One allocation and the calls it makes

`VcoreResourceServer.Allocate` of `pluginRegister/vcore.go` as a function of the cluster and of
which of its API calls succeed, with nobody else changing the cluster meanwhile. `exec_allocate`
connects it to the machine of `Vcore`. The charge of the GPU comes before the update of the pod and
is not taken back when that update fails, so the call is atomic only under the condition of
`allocate_atomic_iff`.
-/

namespace UniShare.PluginRegister

open Lib DeviceInfo Kube PodWatch

/-- The request of kubelet: the device IDs of each container. -/
structure AllocateRequest where
  containerRequests : List (List String)

/-- Which API calls of one `Allocate` succeed. `getPod` is indexed by the number of polls still to
come. -/
structure AllocateCalls where
  listPods : Bool
  getPod : Nat → Bool
  gpu : GpuCalls
  updatePod : Bool

/-- The pods and the GPU resources that the API server stores. -/
structure Cluster where
  pods : PodStore
  gpus : GpuStore

/-- The loop that polls for the pod's directory, with this many polls left. -/
def awaitReady (calls : AllocateCalls) (pods : PodStore) (confirmPod : Option Pod) :
    Nat → Option Pod
  | 0 => none
  | left + 1 =>
      match readyPod (calls.getPod left) pods confirmPod with
      | some pod => some pod
      | none => awaitReady calls pods confirmPod left

/-- `VcoreResourceServer.Allocate` from the point on where its pod is ready. -/
def allocateReady [Gjson] (server : VcoreResourceServer) (calls : AllocateCalls) (cluster : Cluster)
    (confirmPod : Pod) : Outcome AllocateResponse × Cluster :=
  match getGpuResource calls.gpu cluster.gpus (requestCore confirmPod) (requestMem confirmPod) with
  | (.error message, gpus) => (.error message, { cluster with gpus })
  | (.exit message, gpus) => (.exit message, { cluster with gpus })
  | (.ok uuid, gpus) =>
      match updatePodAnnotations calls.updatePod cluster.pods
          (confirmPod.setAnnotation annAssignedFlag "true") with
      | none => (.error "failed to update pod annotation", { cluster with gpus })
      | some pods =>
          (.ok (allocResp confirmPod.uid (server.devInfo.getMinorNumber uuid)), ⟨pods, gpus⟩)

/-- `VcoreResourceServer.Allocate`. -/
def allocate [Gjson] (server : VcoreResourceServer) (calls : AllocateCalls) (cluster : Cluster)
    (reqs : AllocateRequest) : Outcome AllocateResponse × Cluster :=
  match reqs.containerRequests with
  | [] => (.exit "index out of range", cluster)
  | devicesIDs :: _ =>
      let confirmPod := choosePod resourceCore
        (getPendingPodOnNode calls.listPods server.nodeName cluster.pods) devicesIDs.length
      match awaitReady calls cluster.pods confirmPod 100 with
      | none => (.error "vcuda not ready", cluster)
      | some pod => allocateReady server calls cluster pod

/-! ## The machine -/

section Machine

variable {ι : Type} [DecidableEq ι]

/-- Moving a call twice is moving it to the second point. -/
theorem set_point_set_point (state : State ι) (call : ι) (first second : AllocPoint) :
    (state.setPoint call first).setPoint call second = state.setPoint call second := by
  simp [State.setPoint]

variable [Gjson] (server : ι → VcoreResourceServer)

/-- The waiting loop of a call that runs alone. -/
theorem exec_await_ready (calls : AllocateCalls) {state : State ι} {call : ι} {polls left : Nat}
    {confirmPod : Option Pod} (hwaiting : state.point call = .waiting polls confirmPod)
    (hpolls : polls + left = 100) :
    ∃ actions, exec (step server) state actions =
      some (state.setPoint call
        (match awaitReady calls state.pods confirmPod left with
          | some pod => .ready pod
          | none => .returned (.error "vcuda not ready"))) := by
  induction left generalizing state polls with
  | zero =>
      refine ⟨[.poll call true], ?_⟩
      simp [exec, step, hwaiting, show ¬ polls < 100 by omega, awaitReady]
  | succ left ih =>
      cases hready : readyPod (calls.getPod left) state.pods confirmPod with
      | some pod =>
          refine ⟨[.poll call (calls.getPod left)], ?_⟩
          simp [exec, step, hwaiting, show polls < 100 by omega, awaitReady, hready]
      | none =>
          let next := state.setPoint call (.waiting (polls + 1) confirmPod)
          have hstep : step server state (.poll call (calls.getPod left)) = some next := by
            simp [step, hwaiting, show polls < 100 by omega, hready, next]
          obtain ⟨actions, hactions⟩ := ih
            (show next.point call = .waiting (polls + 1) confirmPod by
              simp [next, State.setPoint])
            (show polls + 1 + left = 100 by omega)
          refine ⟨.poll call (calls.getPod left) :: actions, ?_⟩
          rw [exec, hstep, Option.bind_some, hactions, awaitReady, hready]
          simp only [next, set_point_set_point]
          rfl

/-- The charge and the annotation of a call that runs alone. -/
theorem exec_allocate_ready (calls : AllocateCalls) {state : State ι} {call : ι} {pod : Pod}
    (hready : state.point call = .ready pod) :
    ∃ actions final, exec (step server) state actions = some final ∧
      final.point call =
        .returned (allocateReady (server call) calls ⟨state.pods, state.gpus⟩ pod).1 ∧
      ⟨final.pods, final.gpus⟩ =
        (allocateReady (server call) calls ⟨state.pods, state.gpus⟩ pod).2 := by
  unfold allocateReady
  dsimp only
  rcases hcall : getGpuResource calls.gpu state.gpus (requestCore pod) (requestMem pod) with
    ⟨uuid | message | message, gpus⟩
  · cases hupdate : updatePodAnnotations calls.updatePod state.pods
        (pod.setAnnotation annAssignedFlag "true") with
    | none =>
        refine ⟨[.charge call calls.gpu, .annotate call calls.updatePod], ?refused, ?run, ?_, ?_⟩
        case run =>
          simp only [exec, step, hready, hcall, Option.bind_some, State.setPoint,
            Function.update_self, hupdate]
          rfl
        · simp
        · rfl
    | some pods =>
        refine ⟨[.charge call calls.gpu, .annotate call calls.updatePod], ?stored, ?run, ?_, ?_⟩
        case run =>
          simp only [exec, step, hready, hcall, Option.bind_some, State.setPoint,
            Function.update_self, hupdate]
          rfl
        · simp
        · rfl
  · refine ⟨[.charge call calls.gpu], ?failed, ?run, ?_, ?_⟩
    case run =>
      simp only [exec, step, hready, hcall, Option.bind_some, State.setPoint]
      rfl
    · simp
    · rfl
  · refine ⟨[.charge call calls.gpu], ?exited, ?run, ?_, ?_⟩
    case run =>
      simp only [exec, step, hready, hcall, Option.bind_some, State.setPoint]
      rfl
    · simp
    · rfl

/-- A call that runs alone in the machine does what the function says. -/
theorem exec_allocate (calls : AllocateCalls) {state : State ι} {call : ι}
    {devicesIDs : List String} {others : List (List String)} (hidle : state.point call = .idle) :
    ∃ actions final, exec (step server) state actions = some final ∧
      final.point call = .returned
        (allocate (server call) calls ⟨state.pods, state.gpus⟩ ⟨devicesIDs :: others⟩).1 ∧
      ⟨final.pods, final.gpus⟩ =
        (allocate (server call) calls ⟨state.pods, state.gpus⟩ ⟨devicesIDs :: others⟩).2 := by
  let confirmPod := choosePod resourceCore
    (getPendingPodOnNode calls.listPods (server call).nodeName state.pods) devicesIDs.length
  let waiting := state.setPoint call (.waiting 0 confirmPod)
  have hstart : step server state (.start call devicesIDs calls.listPods) = some waiting := by
    simp only [step, hidle, waiting, confirmPod]
  obtain ⟨polls, hpolls⟩ := exec_await_ready server calls
    (show waiting.point call = .waiting 0 confirmPod by simp [waiting, State.setPoint])
    (show 0 + 100 = 100 from rfl)
  rw [show waiting.pods = state.pods from rfl] at hpolls
  unfold allocate
  dsimp only
  cases hready : awaitReady calls state.pods confirmPod 100 with
  | none =>
      rw [hready] at hpolls
      refine ⟨.start call devicesIDs calls.listPods :: polls,
        waiting.setPoint call (.returned (.error "vcuda not ready")), ?_, ?_, rfl⟩
      · rw [exec, hstart, Option.bind_some, hpolls]
      · simp [State.setPoint]
  | some pod =>
      rw [hready] at hpolls
      obtain ⟨rest, final, hrest, hpoint, hcluster⟩ := exec_allocate_ready server calls
        (show (waiting.setPoint call (.ready pod)).point call = .ready pod by simp [State.setPoint])
      refine ⟨.start call devicesIDs calls.listPods :: (polls ++ rest), final, ?_, hpoint, hcluster⟩
      rw [exec, hstart, Option.bind_some, exec_append, hpolls, Option.bind_some, hrest]

end Machine

/-! ## What one allocation reaches -/

/-- The pod that the call confirms: the one that it infers for the request, whose directory is ready
and at least one of whose hundred polls succeeds. -/
structure Confirmed (server : VcoreResourceServer) (calls : AllocateCalls) (cluster : Cluster)
    (reqs : AllocateRequest) (pod : Pod) : Prop where
  listed : calls.listPods = true
  chosen : ∃ devicesIDs others, reqs.containerRequests = devicesIDs :: others ∧
    choosePod resourceCore (getPendingPodOnNode true server.nodeName cluster.pods)
      devicesIDs.length = some pod
  polled : ∃ i < 100, calls.getPod i = true
  ready : getVCUDAReadyFromPodAnnotation pod ≠ ""

/-- The waiting loop ends with a pod exactly when some poll succeeds and finds it ready. -/
theorem await_ready_eq_some_iff {calls : AllocateCalls} {pods : PodStore} {confirmPod : Option Pod}
    {left : Nat} {pod : Pod} :
    awaitReady calls pods confirmPod left = some pod ↔
      (∃ i < left, calls.getPod i = true) ∧ readyPod true pods confirmPod = some pod := by
  induction left with
  | zero => simp [awaitReady]
  | succ left ih =>
      cases hanswer : calls.getPod left with
      | false =>
          have hnone : readyPod false pods confirmPod = none := rfl
          rw [awaitReady, hanswer, hnone]
          dsimp only
          rw [ih]
          refine and_congr_left fun _ => ⟨fun ⟨i, hi, hget⟩ => ⟨i, by omega, hget⟩, ?_⟩
          rintro ⟨i, hi, hget⟩
          by_cases heq : i = left
          · subst heq
            rw [hanswer] at hget
            cases hget
          · exact ⟨i, by omega, hget⟩
      | true =>
          rw [awaitReady, hanswer]
          cases hready : readyPod true pods confirmPod with
          | none =>
              dsimp only
              rw [ih, hready]
              simp
          | some found =>
              simpa using fun _ => ⟨left, by omega, hanswer⟩

/-- The waiting loop of the call ends with the confirmed pod. -/
theorem await_ready_iff_confirmed {server : VcoreResourceServer} {calls : AllocateCalls}
    {cluster : Cluster} {devicesIDs : List String} {others : List (List String)} {pod : Pod} :
    awaitReady calls cluster.pods (choosePod resourceCore
        (getPendingPodOnNode calls.listPods server.nodeName cluster.pods) devicesIDs.length) 100 =
        some pod ↔
      Confirmed server calls cluster ⟨devicesIDs :: others⟩ pod := by
  rw [await_ready_eq_some_iff]
  constructor
  · intro ⟨hpolled, hready⟩
    obtain ⟨hmem, chosen, hchosen, hkey⟩ := ready_pod_eq_some hready
    have hannotation := (Option.filter_eq_some_iff.mp hready).2
    have hpending := (choose_pod_eq_some_iff.mp hchosen).mem
    cases hlisted : calls.listPods with
    | false =>
        rw [hlisted] at hpending
        cases hpending
    | true =>
        rw [hlisted] at hpending hchosen
        have hstored := (List.mem_filter.mp hpending).1
        obtain rfl := cluster.pods.eq_of_key hmem hstored hkey
        exact ⟨hlisted, ⟨devicesIDs, others, rfl, hchosen⟩, hpolled, of_decide_eq_true hannotation⟩
  · intro h
    obtain ⟨ids, rest, heq, hchosen⟩ := h.chosen
    obtain ⟨rfl, rfl⟩ := List.cons.inj heq
    rw [h.listed, hchosen]
    have hpending := (choose_pod_eq_some_iff.mp hchosen).mem
    have hstored := (List.mem_filter.mp hpending).1
    refine ⟨h.polled, Option.filter_eq_some_iff.mpr ⟨?_, decide_eq_true h.ready⟩⟩
    exact cluster.pods.get_of_mem hstored

/-- A call confirms at most one pod. -/
theorem Confirmed.unique {server : VcoreResourceServer} {calls : AllocateCalls} {cluster : Cluster}
    {reqs : AllocateRequest} {pod other : Pod} (h : Confirmed server calls cluster reqs pod)
    (hother : Confirmed server calls cluster reqs other) : pod = other := by
  obtain ⟨ids, rest, heq, hchosen⟩ := h.chosen
  obtain ⟨ids', rest', heq', hchosen'⟩ := hother.chosen
  obtain ⟨rfl, -⟩ := List.cons.inj (heq.symm.trans heq')
  exact Option.some.inj (hchosen.symm.trans hchosen')

/-- A confirmed pod is stored. -/
theorem Confirmed.mem {server : VcoreResourceServer} {calls : AllocateCalls} {cluster : Cluster}
    {reqs : AllocateRequest} {pod : Pod} (h : Confirmed server calls cluster reqs pod) :
    pod ∈ cluster.pods.items := by
  obtain ⟨ids, rest, heq, hchosen⟩ := h.chosen
  exact (List.mem_filter.mp (choose_pod_eq_some_iff.mp hchosen).mem).1

variable [Gjson]

/-- The call charges this GPU for this pod: it confirms the pod, the API server answers throughout,
and the source's rule selects the GPU. -/
structure Commits (server : VcoreResourceServer) (calls : AllocateCalls) (cluster : Cluster)
    (reqs : AllocateRequest) (pod : Pod) (gpu : GPU) : Prop where
  confirmed : Confirmed server calls cluster reqs pod
  answered : calls.gpu = .answered
  selected : Selected (requestCore pod) (requestMem pod) cluster.gpus.items gpu

/-- A call that charges a GPU changes exactly that GPU, and then answers with a response or, when
the update of the pod fails, with an error. -/
theorem allocate_of_commits {server : VcoreResourceServer} {calls : AllocateCalls}
    {cluster : Cluster} {reqs : AllocateRequest} {pod : Pod} {gpu : GPU}
    (h : Commits server calls cluster reqs pod gpu) :
    allocate server calls cluster reqs =
      match updatePodAnnotations calls.updatePod cluster.pods
          (pod.setAnnotation annAssignedFlag "true") with
      | none => (.error "failed to update pod annotation",
          ⟨cluster.pods, cluster.gpus.charged gpu.name (requestCore pod) (requestMem pod)⟩)
      | some pods => (.ok (allocResp pod.uid (server.devInfo.getMinorNumber gpu.spec.uuid)),
          ⟨pods, cluster.gpus.charged gpu.name (requestCore pod) (requestMem pod)⟩) := by
  obtain ⟨devicesIDs, others, heq, -⟩ := h.confirmed.chosen
  obtain ⟨requests⟩ := reqs
  obtain rfl : requests = devicesIDs :: others := heq
  have hcall : getGpuResource calls.gpu cluster.gpus (requestCore pod) (requestMem pod) =
      (.ok gpu.spec.uuid,
        cluster.gpus.charged gpu.name (requestCore pod) (requestMem pod)) := by
    rw [h.answered]
    rcases get_gpu_resource_answered cluster.gpus (requestCore pod) (requestMem pod) with
      ⟨chosen, hchosen, hcall⟩ | ⟨hnone, -⟩
    · rw [hcall, hchosen.unique h.selected]
    · obtain ⟨other, hother, hok⟩ := h.selected.passes
      exact absurd hok (hnone other hother)
  unfold allocate
  dsimp only
  rw [await_ready_iff_confirmed.mpr h.confirmed]
  simp only [allocateReady, hcall]

/-- A call that charges no GPU changes nothing and returns no response. -/
theorem allocate_of_not_commits {server : VcoreResourceServer} {calls : AllocateCalls}
    {cluster : Cluster} {reqs : AllocateRequest}
    (h : ∀ pod gpu, ¬ Commits server calls cluster reqs pod gpu) :
    (allocate server calls cluster reqs).2 = cluster ∧
      ∀ response, (allocate server calls cluster reqs).1 ≠ .ok response := by
  obtain ⟨requests⟩ := reqs
  cases requests with
  | nil => exact ⟨rfl, by simp [allocate]⟩
  | cons devicesIDs others =>
      unfold allocate
      dsimp only
      cases hready : awaitReady calls cluster.pods (choosePod resourceCore
          (getPendingPodOnNode calls.listPods server.nodeName cluster.pods)
          devicesIDs.length) 100 with
      | none => exact ⟨rfl, by simp⟩
      | some pod =>
          have hconfirmed : Confirmed server calls cluster ⟨devicesIDs :: others⟩ pod :=
            await_ready_iff_confirmed.mp hready
          have hfailed : ∀ uuid, (getGpuResource calls.gpu cluster.gpus (requestCore pod)
              (requestMem pod)).1 ≠ .ok uuid := by
            intro uuid hok
            have hcall : getGpuResource calls.gpu cluster.gpus (requestCore pod) (requestMem pod) =
                (.ok uuid, _) := Prod.ext hok rfl
            obtain ⟨gpu, hgpu, -⟩ := get_gpu_resource_ok hcall
            exact h pod gpu ⟨hconfirmed, calls_answered_of_ok hcall, hgpu⟩
          have hsame := get_gpu_resource_failed hfailed
          dsimp only [allocateReady]
          rcases hcall : getGpuResource calls.gpu cluster.gpus (requestCore pod) (requestMem pod)
            with ⟨uuid | message | message, gpus⟩
          · exact absurd (congrArg Prod.fst hcall) (hfailed uuid)
          all_goals
            rw [hcall] at hsame
            obtain rfl : gpus = cluster.gpus := hsame
            exact ⟨rfl, by simp⟩

/-! ## Atomicity -/

/-- What a failed call must leave as it is: the used amounts of every GPU and the annotations of
every pod. -/
def Cluster.accounts (cluster : Cluster) :
    List (String × R) × List ((String × String) × Option (List (String × String))) :=
  (cluster.gpus.items.map fun gpu => (gpu.name, gpu.spec.used),
    cluster.pods.items.map fun pod => (pod.key, pod.annotations))

/-- The stores differ in this GPU alone, whose used amounts have grown by exactly the pod's
totals. -/
def ChargedExactly (before after : GpuStore) (gpu : GPU) (pod : Pod) : Prop :=
  ∃ used version,
    after.items = before.items.map (fun other =>
      if other.name = gpu.name then
        { gpu with resourceVersion := version, spec := { gpu.spec with used } }
      else other) ∧
    used.coreAmount.toInt = gpu.spec.used.coreAmount.toInt + ownTotal resourceCore pod ∧
    used.memoryAmount.toInt = gpu.spec.used.memoryAmount.toInt + ownTotal resourceMemory pod

/-- The stores differ in this pod alone, in whose annotations the assigned flag has been set. -/
def AssignedOnly (before after : PodStore) (pod : Pod) : Prop :=
  ∃ marked : Pod,
    after.items = before.items.map (fun other => if other.key = pod.key then marked else other) ∧
    marked = { pod with
      annotations := marked.annotations
      resourceVersion := marked.resourceVersion } ∧
    marked.annotation annAssignedFlag = some "true" ∧
    ∀ key, key ≠ annAssignedFlag → marked.annotation key = pod.annotation key

/-- The guarantee for one call: an error leaves the accounts as they were, and a response comes with
exactly one charge and one annotation, for the confirmed pod. -/
structure Atomic (server : VcoreResourceServer) (calls : AllocateCalls) (cluster : Cluster)
    (reqs : AllocateRequest) : Prop where
  failed : ∀ message, (allocate server calls cluster reqs).1 = .error message →
    (allocate server calls cluster reqs).2.accounts = cluster.accounts
  granted : ∀ response, (allocate server calls cluster reqs).1 = .ok response →
    ∃ pod gpu, Confirmed server calls cluster reqs pod ∧ gpu ∈ cluster.gpus.items ∧
      ChargedExactly cluster.gpus (allocate server calls cluster reqs).2.gpus gpu pod ∧
      AssignedOnly cluster.pods (allocate server calls cluster reqs).2.pods pod

/-- The charge adds without overflow. -/
def AddsExactly (pod : Pod) (gpu : GPU) : Prop :=
  gpu.spec.used.coreAmount.toInt + ownTotal resourceCore pod < 2 ^ 63 ∧
    gpu.spec.used.memoryAmount.toInt + ownTotal resourceMemory pod < 2 ^ 63

/-- The charge writes the used amounts that are there already. -/
def ChangesNothing (pod : Pod) (gpu : GPU) : Prop :=
  (charge (requestCore pod) (requestMem pod) gpu).spec.used = gpu.spec.used

/-- A call that charges a GPU either has its pod update succeed, and adds without overflow, or
charges nothing new. -/
def CommitsSafely (server : VcoreResourceServer) (calls : AllocateCalls) (cluster : Cluster)
    (reqs : AllocateRequest) : Prop :=
  ∀ pod gpu, Commits server calls cluster reqs pod gpu →
    if calls.updatePod then AddsExactly pod gpu else ChangesNothing pod gpu

omit [Gjson] in
/-- The code's total of a pod is the exact one in 64 bits. -/
theorem toInt_limit_total_bmod (resource : String) (pod : Pod) :
    (limitTotal resource pod.containers).toInt = (ownTotal resource pod).bmod (2 ^ 64) := by
  rw [limitTotal, toInt_sum, List.map_map]
  rfl

omit [Gjson] in
/-- Adding a pod's total to a used amount is exact when the exact sum fits. -/
theorem add_total_exact_iff (used : Int64) (resource : String) (pod : Pod) :
    (used + limitTotal resource pod.containers).toInt = used.toInt + ownTotal resource pod ↔
      used.toInt + ownTotal resource pod < 2 ^ 63 := by
  have hnonneg := own_total_nonneg resource pod
  have hlow := Int64.le_toInt used
  rw [Int64.toInt_add, toInt_limit_total_bmod, Int.add_bmod_bmod]
  constructor
  · intro heq
    rw [← heq]
    have hbound : (used.toInt + ownTotal resource pod).bmod (2 ^ 64) < (2 ^ 64 + 1) / 2 :=
      Int.bmod_lt (by decide)
    omega
  · intro hfit
    exact Int.bmod_eq_of_le (by omega) (by omega)

omit [Gjson] in
/-- The used amounts that a charge writes. -/
theorem charge_used (pod : Pod) (gpu : GPU) :
    (charge (requestCore pod) (requestMem pod) gpu).spec.used =
      R.ofAmounts (gpu.spec.used.coreAmount + requestCore pod)
        (gpu.spec.used.memoryAmount + requestMem pod) := rfl

omit [Gjson] in
/-- The charged store differs from the store in the charged GPU. -/
theorem charged_items {store : GpuStore} {gpu : GPU} (hgpu : gpu ∈ store.items) (pod : Pod) :
    (store.charged gpu.name (requestCore pod) (requestMem pod)).items =
      store.items.map fun other =>
        if other.name = gpu.name then
          { charge (requestCore pod) (requestMem pod) gpu with
            resourceVersion := gpu.resourceVersion + 1 }
        else other := by
  refine List.map_congr_left fun other hother => ?_
  unfold chargeNamed
  split
  · rename_i hname
    rw [store.eq_of_name hother hgpu hname]
  · rfl

omit [Gjson] in
/-- A charge that does not overflow charges exactly. -/
theorem charged_exactly {store : GpuStore} {gpu : GPU} (hgpu : gpu ∈ store.items) {pod : Pod}
    (hfit : AddsExactly pod gpu) :
    ChargedExactly store (store.charged gpu.name (requestCore pod) (requestMem pod)) gpu pod := by
  refine ⟨R.ofAmounts (gpu.spec.used.coreAmount + requestCore pod)
    (gpu.spec.used.memoryAmount + requestMem pod), gpu.resourceVersion + 1,
    charged_items hgpu pod, ?_, ?_⟩
  · rw [R.coreAmount_ofAmounts]
    exact (add_total_exact_iff _ resourceCore pod).mpr hfit.1
  · rw [R.memoryAmount_ofAmounts]
    exact (add_total_exact_iff _ resourceMemory pod).mpr hfit.2

omit [Gjson] in
/-- A charge that counts as exact for some GPU and the same pod does not overflow at its own GPU. -/
theorem adds_exactly_of_charged {store : GpuStore} {gpu other : GPU} (hgpu : gpu ∈ store.items)
    (hother : other ∈ store.items) {pod : Pod}
    (h : ChargedExactly store (store.charged gpu.name (requestCore pod) (requestMem pod)) other
      pod) : AddsExactly pod gpu := by
  obtain ⟨used, version, hitems, hcore, hmemory⟩ := h
  have hsame := List.map_inj_left.mp ((charged_items hgpu pod).symm.trans hitems) gpu hgpu
  rw [if_pos rfl] at hsame
  by_cases hname : gpu.name = other.name
  · obtain rfl := store.eq_of_name hgpu hother hname
    rw [if_pos rfl] at hsame
    obtain rfl : (charge (requestCore pod) (requestMem pod) gpu).spec.used = used :=
      congrArg (fun charged => charged.spec.used) hsame
    rw [charge_used, R.coreAmount_ofAmounts] at hcore
    rw [charge_used, R.memoryAmount_ofAmounts] at hmemory
    exact ⟨(add_total_exact_iff _ resourceCore pod).mp hcore,
      (add_total_exact_iff _ resourceMemory pod).mp hmemory⟩
  · -- the resource version of the charged GPU is renewed
    rw [if_neg hname] at hsame
    have hversion := congrArg GPU.resourceVersion hsame
    simp at hversion

omit [Gjson] in
/-- A charge that changes nothing leaves the accounts of the GPUs. -/
theorem charged_used_iff {store : GpuStore} {gpu : GPU} (hgpu : gpu ∈ store.items) (pod : Pod) :
    ((store.charged gpu.name (requestCore pod) (requestMem pod)).items.map fun other =>
        (other.name, other.spec.used)) = (store.items.map fun other =>
        (other.name, other.spec.used)) ↔ ChangesNothing pod gpu := by
  rw [charged_items hgpu pod, List.map_map]
  constructor
  · intro heq
    have hsame := List.map_inj_left.mp heq gpu hgpu
    have hused := congrArg Prod.snd hsame
    dsimp only [Function.comp_apply] at hused
    rwa [if_pos rfl] at hused
  · intro hnothing
    refine List.map_congr_left fun other hother => ?_
    dsimp only [Function.comp_apply]
    split
    · rename_i hname
      rw [store.eq_of_name hother hgpu hname]
      exact Prod.ext rfl hnothing
    · rfl

omit [Gjson] in
/-- A confirmed pod has annotations. -/
theorem Confirmed.annotated {server : VcoreResourceServer} {calls : AllocateCalls}
    {cluster : Cluster} {reqs : AllocateRequest} {pod : Pod}
    (h : Confirmed server calls cluster reqs pod) : pod.annotations.isSome := by
  have hready := h.ready
  cases hannotations : pod.annotations with
  | none => simp [hannotations, getVCUDAReadyFromPodAnnotation, Pod.annotation] at hready
  | some annotations => rfl

omit [Gjson] in
/-- Writing the flag back assigns the confirmed pod and no other. -/
theorem update_assigned {server : VcoreResourceServer} {calls : AllocateCalls} {cluster : Cluster}
    {reqs : AllocateRequest} {pod : Pod} (h : Confirmed server calls cluster reqs pod) :
    ∃ pods, cluster.pods.update (pod.setAnnotation annAssignedFlag "true") = some pods ∧
      AssignedOnly cluster.pods pods pod := by
  obtain ⟨pods, hupdate, hitems⟩ := cluster.pods.update_annotation h.mem annAssignedFlag "true"
  refine ⟨pods, hupdate, _, hitems, rfl, ?_, fun key hne => ?_⟩
  · exact annotation_set_annotation h.annotated annAssignedFlag "true"
  · exact annotation_set_annotation_of_ne hne "true"

/-- When the flag cannot be written back, the charge stays and the call fails: it is atomic exactly
when the charge changes nothing. -/
theorem atomic_of_failed {server : VcoreResourceServer} {calls : AllocateCalls} {cluster : Cluster}
    {reqs : AllocateRequest} {pod : Pod} {gpu : GPU}
    (hcommit : Commits server calls cluster reqs pod gpu) (hupdate : calls.updatePod = false) :
    Atomic server calls cluster reqs ↔ ChangesNothing pod gpu := by
  have hfailed : allocate server calls cluster reqs =
      (.error "failed to update pod annotation", ⟨cluster.pods,
        cluster.gpus.charged gpu.name (requestCore pod) (requestMem pod)⟩) := by
    rw [allocate_of_commits hcommit, hupdate]
    rfl
  rw [← charged_used_iff hcommit.selected.mem pod]
  constructor
  · intro hatomic
    have hkept := hatomic.failed _ (congrArg Prod.fst hfailed)
    rw [hfailed] at hkept
    exact congrArg Prod.fst hkept
  · intro hkept
    refine ⟨fun message _ => ?_, fun response hok => ?_⟩
    · rw [hfailed]
      exact Prod.ext hkept rfl
    · rw [hfailed] at hok
      cases hok

/-- When the flag is written back, the call succeeds: it is atomic exactly when the charge adds the
requests of the pod. -/
theorem atomic_of_granted {server : VcoreResourceServer} {calls : AllocateCalls} {cluster : Cluster}
    {reqs : AllocateRequest} {pod : Pod} {gpu : GPU}
    (hcommit : Commits server calls cluster reqs pod gpu) (hupdate : calls.updatePod = true) :
    Atomic server calls cluster reqs ↔ AddsExactly pod gpu := by
  have hgpu := hcommit.selected.mem
  obtain ⟨pods, hpods, hassigned⟩ := update_assigned hcommit.confirmed
  have hgranted : allocate server calls cluster reqs =
      (.ok (allocResp pod.uid (server.devInfo.getMinorNumber gpu.spec.uuid)), ⟨pods,
        cluster.gpus.charged gpu.name (requestCore pod) (requestMem pod)⟩) := by
    rw [allocate_of_commits hcommit, hupdate, updatePodAnnotations, if_pos rfl, hpods]
  constructor
  · intro hatomic
    obtain ⟨pod', gpu', hconfirmed, hgpu', hcharged, -⟩ :=
      hatomic.granted _ (congrArg Prod.fst hgranted)
    obtain rfl := hcommit.confirmed.unique hconfirmed
    rw [hgranted] at hcharged
    exact adds_exactly_of_charged hgpu hgpu' hcharged
  · intro hfit
    refine ⟨fun message herror => ?_, fun response _ => ?_⟩
    · rw [hgranted] at herror
      cases herror
    · rw [hgranted]
      exact ⟨pod, gpu, hcommit.confirmed, hgpu, charged_exactly hgpu hfit, hassigned⟩

/-- For every cluster, every request and every pattern of successes and failures of its API calls,
the call is atomic exactly when it commits safely. -/
theorem allocate_atomic_iff (server : VcoreResourceServer) (calls : AllocateCalls)
    (cluster : Cluster) (reqs : AllocateRequest) :
    Atomic server calls cluster reqs ↔ CommitsSafely server calls cluster reqs := by
  by_cases hcommits : ∃ pod gpu, Commits server calls cluster reqs pod gpu
  · obtain ⟨pod, gpu, hcommit⟩ := hcommits
    have hsafe : CommitsSafely server calls cluster reqs ↔
        if calls.updatePod then AddsExactly pod gpu else ChangesNothing pod gpu := by
      refine ⟨fun hall => hall pod gpu hcommit, fun h pod' gpu' hcommit' => ?_⟩
      obtain rfl := hcommit.confirmed.unique hcommit'.confirmed
      rw [hcommit'.selected.unique hcommit.selected]
      exact h
    rw [hsafe]
    cases hupdate : calls.updatePod with
    | false =>
        rw [if_neg Bool.false_ne_true]
        exact atomic_of_failed hcommit hupdate
    | true =>
        rw [if_pos rfl]
        exact atomic_of_granted hcommit hupdate
  · have hnone : ∀ pod gpu, ¬ Commits server calls cluster reqs pod gpu :=
      fun pod gpu h => hcommits ⟨pod, gpu, h⟩
    obtain ⟨hsame, hnotok⟩ := allocate_of_not_commits hnone
    refine iff_of_true ⟨fun _ _ => by rw [hsame], fun response hok => ?_⟩
      fun pod gpu h => absurd h (hnone pod gpu)
    exact absurd hok (hnotok response)

/-- One pending pod of ten cores and five memory blocks, and one fresh card. -/
def tenCluster : Cluster where
  pods :=
    { items := [tenCorePod "a" "uid-a"]
      keys_nodup := by decide
      uids_nodup := by decide
      named := by decide }
  gpus := freshStore

/-- Every API call succeeds but the update of the pod. -/
def unmarkedCalls : AllocateCalls := ⟨true, fun _ => true, .answered, false⟩

omit [Gjson] in
/-- The equivalence for a call that the API server answers throughout. -/
theorem allocate_atomic_ten :
    letI := Gjson.reader
    Atomic (nodeServer "n1") ⟨true, fun _ => true, .answered, true⟩ tenCluster ⟨[tenDevices]⟩ ↔
      CommitsSafely (nodeServer "n1") ⟨true, fun _ => true, .answered, true⟩ tenCluster
        ⟨[tenDevices]⟩ := by
  let reader := Gjson.reader
  exact allocate_atomic_iff (nodeServer "n1") _ tenCluster ⟨[tenDevices]⟩

omit [Gjson] in
/-- The update of the pod fails: `Allocate` returns an error, and the card keeps a charge of ten
cores and five memory blocks. -/
theorem allocate_atomic_counterexample :
    letI := Gjson.reader
    ¬ ∀ server calls cluster reqs, Atomic server calls cluster reqs := by
  intro hclaim
  let reader := Gjson.reader
  have hatomic := hclaim (nodeServer "n1") unmarkedCalls tenCluster ⟨[tenDevices]⟩
  have herror : (allocate (nodeServer "n1") unmarkedCalls tenCluster ⟨[tenDevices]⟩).1 =
      .error "failed to update pod annotation" := by decide +kernel
  have hgpus := congrArg Prod.fst (hatomic.failed _ herror)
  exact absurd hgpus (by decide +kernel)

end UniShare.PluginRegister
