import UniShare.Kube.Pod
import UniShare.PodWatch.Messenger
import UniShare.Lib.Execution
import UniShare.Lib.Int64

/-!
# Allocation of GPU cores

After `pluginRegister/vcore.go` and the pod queries of `podWatch/messenger.go`. Kubelet's request
names no pod: `choosePod` infers the pod from the number of device IDs. The machine runs any number
of `Allocate` calls, on any nodes, over the API server's pods and GPU resources; a call chooses its
pod, waits until the pod's directory is ready, charges a GPU and annotates the pod, and the stored
pods may change between these steps. The ghosts of a state are `known`, the UIDs that have ever been
stored, and `charges`, one record for each charge.
-/

namespace UniShare.PluginRegister

open Lib DeviceInfo Kube PodWatch

/-! ## Pod queries -/

/-- `GetPendingPodOnNode`; an unanswered request yields no pods. -/
def getPendingPodOnNode (answered : Bool) (nodeName : String) (pods : PodStore) : List Pod :=
  if answered then
    pods.items.filter fun pod => pod.nodeName = nodeName ∧ pod.phase = "Pending"
  else []

/-- `GetPodOnNode`. -/
def getPodOnNode (answered : Bool) (pods : PodStore) (ns name : String) : Option Pod :=
  if answered then pods.get ns name else none

/-- `UpdatePodAnnotations`. -/
def updatePodAnnotations (answered : Bool) (pods : PodStore) (pod : Pod) : Option PodStore :=
  if answered then pods.update pod else none

/-! ## Choosing the pod -/

/-- The loop that builds `candidatePodList`. The flag is not reset between pods. -/
def candidatePodList (resource : String) : Bool → List Pod → List Pod
  | _, [] => []
  | flag, pod :: rest =>
      let flag := flag || pod.containers.any fun cont => cont.hasLimit resource
      if flag then pod :: candidatePodList resource flag rest
      else candidatePodList resource flag rest

/-- The loop that sets `confirmPod`. The count is not reset between pods. -/
def confirmPod (resource : String) (allReqDevice : Int64) : Int64 → List Pod → Option Pod
  | _, [] => none
  | reqDevCount, pod :: rest =>
      let reqDevCount := reqDevCount + limitTotal resource pod.containers
      if reqDevCount = allReqDevice then some pod
      else confirmPod resource allReqDevice reqDevCount rest

/-- The pod that `Allocate` infers for a request of this many devices. -/
def choosePod (resource : String) (pendingPod : List Pod) (allReqDevice : Nat) : Option Pod :=
  confirmPod resource (Int64.ofNat allReqDevice) 0 (candidatePodList resource false pendingPod)

/-- `getVCUDAReadyFromPodAnnotation`. -/
def getVCUDAReadyFromPodAnnotation (pod : Pod) : String :=
  (pod.annotation annVCUDAReady).getD ""

/-! ## The response -/

/-- A mount of the container. -/
structure Mount where
  containerPath : String
  hostPath : String
  readOnly : Bool
  deriving DecidableEq, Repr

/-- A device of the container. -/
structure DeviceSpec where
  containerPath : String
  hostPath : String
  permissions : String
  deriving DecidableEq, Repr

/-- The response for one container. -/
structure ContainerAllocateResponse where
  envs : List (String × String)
  mounts : List Mount
  devices : List DeviceSpec
  annotations : List (String × String)
  deriving DecidableEq, Repr

/-- The response of `Allocate`. -/
structure AllocateResponse where
  containerResponses : List ContainerAllocateResponse
  deriving DecidableEq, Repr

/-- The host directory of a pod. -/
def hostFilePath (podUid : String) : String := "/etc/unishare/vm/" ++ podUid

/-- The path of a card's device. -/
def devicePath (minorNum : Nat) : String := "/dev/nvidia" ++ Nat.repr minorNum

/-- A device given under its own path. -/
def deviceSpec (path : String) : DeviceSpec := ⟨path, path, "rwm"⟩

/-- The response that `VcoreResourceServer.Allocate` builds. -/
def allocResp (podUid : String) (minorNum : Nat) : AllocateResponse where
  containerResponses :=
    [{ envs :=
        [("LD_PRELOAD", "/usr/local/hooklib/libmylibrary.so"),
          ("LD_LIBRARY_PATH", "/usr/local/nvidia/lib64")]
       mounts :=
        [⟨"/usr/local/nvidia", "/usr/local/nvidia", true⟩,
          ⟨"/usr/local/hooklib", "/etc/unishare/hooklib", true⟩,
          ⟨"/etc/unishare/vm", hostFilePath podUid, true⟩]
       devices :=
        [deviceSpec "/dev/nvidiactl", deviceSpec "/dev/nvidia-uvm",
          deviceSpec "/dev/nvidia-uvm-tools", deviceSpec (devicePath minorNum)]
       annotations := [] }]

/-! ## The machine -/

/-- `VcoreResourceServer`: the node that its messenger serves, and the node's device table. -/
structure VcoreResourceServer where
  nodeName : String
  devInfo : GpuInfo

/-- Where a call of `Allocate` is. `waiting` is the loop that polls for the pod's directory, with
the number of polls made; `confirmPod` is `none` for the zero pod. -/
inductive AllocPoint where
  | idle
  | waiting (polls : Nat) (confirmPod : Option Pod)
  | ready (confirmPod : Pod)
  | charged (confirmPod : Pod) (uuid : String)
  | returned (outcome : Outcome AllocateResponse)
  deriving DecidableEq

/-- The record of a charge: the call and its pod, the GPU resources before and after, the name of
the charged resource, and the UUID that the call was told. -/
structure Charge (ι : Type) where
  call : ι
  pod : Pod
  before : GpuStore
  after : GpuStore
  crdName : String
  uuid : String

/-- The API server's pods and GPU resources, the calls, and the ghost records. -/
structure State (ι : Type) where
  pods : PodStore
  gpus : GpuStore
  point : ι → AllocPoint
  known : List String
  charges : List (Charge ι)

/-- No call has started. -/
def State.initial (ι : Type) (pods : PodStore) (gpus : GpuStore) : State ι :=
  ⟨pods, gpus, fun _ => .idle, pods.items.map Pod.uid, []⟩

/-- One step of a call, or a change of the stored pods by others. The flags say whether the API
server answers. -/
inductive Action (ι : Type) where
  | start (call : ι) (devicesIDs : List String) (answered : Bool)
  | poll (call : ι) (answered : Bool)
  | charge (call : ι) (calls : GpuCalls)
  | annotate (call : ι) (answered : Bool)
  | pods (pods : PodStore)

/-- `requestCore` of the pod. -/
def requestCore (pod : Pod) : Int64 := limitTotal resourceCore pod.containers

/-- `requestMem` of the pod. -/
def requestMem (pod : Pod) : Int64 := limitTotal resourceMemory pod.containers

/-- One poll of the waiting loop: the pod as the API server returns it, if it is marked ready. -/
def readyPod (answered : Bool) (pods : PodStore) (confirmPod : Option Pod) : Option Pod :=
  -- the zero pod has empty names, under which nothing is stored
  (getPodOnNode answered pods ((confirmPod.map Pod.ns).getD "")
    ((confirmPod.map Pod.name).getD "")).filter fun pod => getVCUDAReadyFromPodAnnotation pod ≠ ""

/-- Others may create pods with new UIDs, and change or delete the stored ones. -/
def PodChange (state : PodStore) (known : List String) (next : PodStore) : Prop :=
  ∀ pod ∈ next.items,
    (∃ old ∈ state.items, old.uid = pod.uid ∧ old.key = pod.key) ∨ pod.uid ∉ known

instance (state : PodStore) (known : List String) (next : PodStore) :
    Decidable (PodChange state known next) :=
  inferInstanceAs (Decidable (∀ pod ∈ next.items, _))

variable {ι : Type}

/-- One call moves. -/
def State.setPoint [DecidableEq ι] (state : State ι) (call : ι) (point : AllocPoint) : State ι :=
  { state with point := Function.update state.point call point }

/-- One transition, `none` when the call is not at that point. -/
def step [DecidableEq ι] [Gjson] (server : ι → VcoreResourceServer) (state : State ι) :
    Action ι → Option (State ι)
  | .start call devicesIDs answered =>
      match state.point call with
      | .idle =>
          some (state.setPoint call (.waiting 0 (choosePod resourceCore
            (getPendingPodOnNode answered (server call).nodeName state.pods) devicesIDs.length)))
      | _ => none
  | .poll call answered =>
      match state.point call with
      | .waiting polls confirmPod =>
          if polls < 100 then
            match readyPod answered state.pods confirmPod with
            | some pod => some (state.setPoint call (.ready pod))
            | none => some (state.setPoint call (.waiting (polls + 1) confirmPod))
          else some (state.setPoint call (.returned (.error "vcuda not ready")))
      | _ => none
  | .charge call calls =>
      match state.point call with
      | .ready pod =>
          match getGpuResource calls state.gpus (requestCore pod) (requestMem pod) with
          | (.ok uuid, gpus) =>
              some { state.setPoint call (.charged pod uuid) with
                gpus
                charges := state.charges ++
                  [{ call, pod, uuid
                     before := state.gpus
                     after := gpus
                     crdName := ((selectGpu (requestCore pod) (requestMem pod)
                       (gpudataList (gpuListJson state.gpus.items))).map
                        GpuResource.crdName).getD "" }] }
          | (.error message, gpus) =>
              some { state.setPoint call (.returned (.error message)) with gpus }
          | (.exit message, gpus) =>
              some { state.setPoint call (.returned (.exit message)) with gpus }
      | _ => none
  | .annotate call answered =>
      match state.point call with
      | .charged pod uuid =>
          match updatePodAnnotations answered state.pods
              (pod.setAnnotation annAssignedFlag "true") with
          | some pods =>
              some { state.setPoint call (.returned (.ok (allocResp pod.uid
                  ((server call).devInfo.getMinorNumber uuid)))) with pods }
          | none =>
              some (state.setPoint call (.returned (.error "failed to update pod annotation")))
      | _ => none
  | .pods pods =>
      if PodChange state.pods state.known pods then
        some { state with pods, known := state.known ++ pods.items.map Pod.uid }
      else none

/-- What a step does: a call starts, finds its pod ready, polls again, fails, charges the selected
GPU or returns its response, or the stored pods change. -/
inductive Effect [DecidableEq ι] [Gjson] (server : ι → VcoreResourceServer) (state next : State ι) :
    Action ι → Prop where
  | start (call devicesIDs answered) : state.point call = .idle →
      next = state.setPoint call (.waiting 0 (choosePod resourceCore
        (getPendingPodOnNode answered (server call).nodeName state.pods) devicesIDs.length)) →
      Effect server state next (.start call devicesIDs answered)
  | ready (call answered polls confirmPod pod) : state.point call = .waiting polls confirmPod →
      readyPod answered state.pods confirmPod = some pod →
      next = state.setPoint call (.ready pod) → Effect server state next (.poll call answered)
  | again (call answered polls confirmPod) : state.point call = .waiting polls confirmPod →
      next = state.setPoint call (.waiting (polls + 1) confirmPod) →
      Effect server state next (.poll call answered)
  | failed (action call outcome) : (∀ response, outcome ≠ .ok response) →
      (∀ earlier, state.point call ≠ .returned earlier) →
      next = state.setPoint call (.returned outcome) → Effect server state next action
  | charge (call calls pod gpu) : state.point call = .ready pod →
      Selected (requestCore pod) (requestMem pod) state.gpus.items gpu →
      next = { state.setPoint call (.charged pod gpu.spec.uuid) with
        gpus := state.gpus.charged gpu.name (requestCore pod) (requestMem pod)
        charges := state.charges ++ [⟨call, pod, state.gpus,
          state.gpus.charged gpu.name (requestCore pod) (requestMem pod), gpu.name,
          gpu.spec.uuid⟩] } →
      Effect server state next (.charge call calls)
  | respond (call answered pod uuid pods) : state.point call = .charged pod uuid →
      state.pods.update (pod.setAnnotation annAssignedFlag "true") = some pods →
      next = { state.setPoint call (.returned (.ok (allocResp pod.uid
        ((server call).devInfo.getMinorNumber uuid)))) with pods } →
      Effect server state next (.annotate call answered)
  | pods (pods) : PodChange state.pods state.known pods →
      next = { state with pods, known := state.known ++ pods.items.map Pod.uid } →
      Effect server state next (.pods pods)

/-- The call's decision names the selected GPU. -/
theorem selected_crd_name [Gjson] {podCoreReq podMemReq : Int64} {items : List GPU} {gpu : GPU}
    (h : Selected podCoreReq podMemReq items gpu) :
    ((selectGpu podCoreReq podMemReq (gpudataList (gpuListJson items))).map
      GpuResource.crdName).getD "" = gpu.name := by
  rw [select_gpu_eq_some_iff.mpr ⟨gpu, h, rfl⟩]
  simp [entryOf, gpuresource_toJson]

/-- Every step has one of these effects. -/
theorem effect_of_step [DecidableEq ι] [Gjson] {server : ι → VcoreResourceServer}
    {state next : State ι} {action : Action ι} (hstep : step server state action = some next) :
    Effect server state next action := by
  cases action with
  | start call devicesIDs answered =>
      simp only [step] at hstep
      split at hstep <;> cases hstep
      rename_i hidle
      exact .start call devicesIDs answered hidle rfl
  | poll call answered =>
      simp only [step] at hstep
      split at hstep
      · rename_i polls confirmPod hwaiting
        split at hstep
        · split at hstep <;> cases hstep
          · rename_i pod hready
            exact .ready call answered polls confirmPod pod hwaiting hready rfl
          · exact .again call answered polls confirmPod hwaiting rfl
        · cases hstep
          exact .failed _ call _ (by simp) (by simp [hwaiting]) rfl
      · cases hstep
  | charge call calls =>
      simp only [step] at hstep
      split at hstep
      · rename_i pod hready
        have hrunning : ∀ earlier, state.point call ≠ .returned earlier := by simp [hready]
        split at hstep <;> cases hstep
        · rename_i uuid gpus hcall
          obtain ⟨gpu, hgpu, rfl, rfl⟩ := get_gpu_resource_ok hcall
          refine .charge call calls pod gpu hready hgpu ?_
          rw [selected_crd_name hgpu]
        all_goals
          rename_i message gpus hcall
          have hfailed : ∀ uuid, (getGpuResource calls state.gpus (requestCore pod)
              (requestMem pod)).1 ≠ .ok uuid := by simp [hcall]
          have hsame := get_gpu_resource_failed hfailed
          rw [hcall] at hsame
          subst hsame
          exact .failed _ call _ (by simp) hrunning rfl
      · cases hstep
  | annotate call answered =>
      simp only [step] at hstep
      split at hstep
      · rename_i pod uuid hcharged
        split at hstep <;> cases hstep
        · rename_i pods hupdate
          cases answered with
          | false => cases hupdate
          | true => exact .respond call true pod uuid pods hcharged hupdate rfl
        · exact .failed _ call _ (by simp) (by simp [hcharged]) rfl
      · cases hstep
  | pods pods =>
      simp only [step] at hstep
      split at hstep <;> cases hstep
      rename_i hchange
      exact .pods pods hchange rfl

/-! ## What a response rests on -/

/-- A call at this point may have charged a GPU. -/
def AllocPoint.PastCharge : AllocPoint → Prop
  | .charged _ _ | .returned _ => True
  | _ => False

/-- Every charge is that of the selected GPU, and a call has at most one. A call that is past its
charge, or has returned a response, has a record. -/
structure Recorded (server : ι → VcoreResourceServer) [Gjson] (state : State ι) : Prop where
  nodup : (state.charges.map Charge.call).Nodup
  past : ∀ charge ∈ state.charges, (state.point charge.call).PastCharge
  selected : ∀ charge ∈ state.charges, ∃ gpu,
    Selected (requestCore charge.pod) (requestMem charge.pod) charge.before.items gpu ∧
      charge.crdName = gpu.name ∧ charge.uuid = gpu.spec.uuid ∧
      charge.after =
        charge.before.charged gpu.name (requestCore charge.pod) (requestMem charge.pod)
  charged : ∀ call pod uuid, state.point call = .charged pod uuid →
    ∃ charge ∈ state.charges, charge.call = call ∧ charge.pod = pod ∧ charge.uuid = uuid
  returned : ∀ call response, state.point call = .returned (.ok response) →
    ∃ charge ∈ state.charges, charge.call = call ∧
      response = allocResp charge.pod.uid ((server call).devInfo.getMinorNumber charge.uuid)

/-- A call has one record. -/
theorem Recorded.eq_of_call {server : ι → VcoreResourceServer} [Gjson] {state : State ι}
    (h : Recorded server state) {charge other : Charge ι} (hcharge : charge ∈ state.charges)
    (hother : other ∈ state.charges) (hcall : charge.call = other.call) : charge = other :=
  List.inj_on_of_nodup_map h.nodup hcharge hother hcall

/-- A call that moves without a charge keeps the records: from before its charge to a point before
it or to an error, or from its charge to its response. -/
theorem recorded_move [DecidableEq ι] [Gjson] {server : ι → VcoreResourceServer}
    {state next : State ι} (h : Recorded server state) {call : ι} {point : AllocPoint}
    (hpoint : next.point = Function.update state.point call point)
    (hcharges : next.charges = state.charges)
    (hpast : (state.point call).PastCharge → point.PastCharge)
    (hcharged : ∀ pod uuid, point ≠ .charged pod uuid)
    (hreturned : ∀ response, point = .returned (.ok response) →
      ∃ charge ∈ state.charges, charge.call = call ∧
        response = allocResp charge.pod.uid ((server call).devInfo.getMinorNumber charge.uuid)) :
    Recorded server next := by
  refine ⟨hcharges ▸ h.nodup, fun charge hmem => ?_, hcharges ▸ h.selected,
    fun other pod uuid hother => ?_, fun other response hother => ?_⟩
  · rw [hcharges] at hmem
    rw [hpoint]
    by_cases heq : charge.call = call
    · rw [heq, Function.update_self]
      exact hpast (heq ▸ h.past charge hmem)
    · rw [Function.update_of_ne heq]
      exact h.past charge hmem
  · rw [hcharges]
    by_cases heq : other = call
    · subst heq
      rw [hpoint, Function.update_self] at hother
      exact absurd hother (hcharged pod uuid)
    · rw [hpoint, Function.update_of_ne heq] at hother
      exact h.charged other pod uuid hother
  · rw [hcharges]
    by_cases heq : other = call
    · subst heq
      rw [hpoint, Function.update_self] at hother
      exact hreturned response hother
    · rw [hpoint, Function.update_of_ne heq] at hother
      exact h.returned other response hother

/-- The charge of the selected GPU adds its record. -/
theorem recorded_charge [DecidableEq ι] [Gjson] {server : ι → VcoreResourceServer}
    {state : State ι} (h : Recorded server state) {call : ι} {pod : Pod} {gpu : GPU}
    {after : GpuStore} (hready : state.point call = .ready pod)
    (hgpu : Selected (requestCore pod) (requestMem pod) state.gpus.items gpu)
    (hafter : after = state.gpus.charged gpu.name (requestCore pod) (requestMem pod)) :
    Recorded server
      { state.setPoint call (.charged pod gpu.spec.uuid) with
        gpus := after
        charges := state.charges ++
          [⟨call, pod, state.gpus, after, gpu.name, gpu.spec.uuid⟩] } := by
  have hnone : ∀ charge ∈ state.charges, charge.call ≠ call := by
    rintro charge hmem rfl
    have hpast := h.past charge hmem
    rw [hready] at hpast
    exact hpast
  refine ⟨?_, fun charge hmem => ?_, fun charge hmem => ?_, fun other pod' uuid hother => ?_,
    fun other response hother => ?_⟩
  · rw [List.map_append, List.nodup_append]
    refine ⟨h.nodup, by simp, fun other hother final hfinal => ?_⟩
    obtain ⟨charge, hmem, rfl⟩ := List.mem_map.mp hother
    obtain rfl : final = call := by simpa using hfinal
    exact hnone charge hmem
  · rcases List.mem_append.mp hmem with hmem | hmem
    · simpa [State.setPoint, Function.update_of_ne (hnone charge hmem)] using h.past charge hmem
    · obtain rfl := List.mem_singleton.mp hmem
      simp [State.setPoint, AllocPoint.PastCharge]
  · rcases List.mem_append.mp hmem with hmem | hmem
    · exact h.selected charge hmem
    · obtain rfl := List.mem_singleton.mp hmem
      exact ⟨gpu, hgpu, rfl, rfl, hafter⟩
  · by_cases hcall : other = call
    · subst hcall
      simp only [State.setPoint, Function.update_self, AllocPoint.charged.injEq] at hother
      exact ⟨_, List.mem_append_right _ (List.mem_singleton.mpr rfl), rfl, hother.1, hother.2⟩
    · simp only [State.setPoint, Function.update_of_ne hcall] at hother
      obtain ⟨charge, hmem, hrest⟩ := h.charged other pod' uuid hother
      exact ⟨charge, List.mem_append_left _ hmem, hrest⟩
  · by_cases hcall : other = call
    · subst hcall
      simp [State.setPoint] at hother
    · simp only [State.setPoint, Function.update_of_ne hcall] at hother
      obtain ⟨charge, hmem, hrest⟩ := h.returned other response hother
      exact ⟨charge, List.mem_append_left _ hmem, hrest⟩

/-- Every step keeps the records. -/
theorem recorded_step [DecidableEq ι] [Gjson] {server : ι → VcoreResourceServer}
    {state next : State ι} {action : Action ι} (h : Recorded server state)
    (hstep : step server state action = some next) : Recorded server next := by
  cases effect_of_step hstep with
  | start call devicesIDs answered hidle heq =>
      subst heq
      exact recorded_move h rfl rfl (by simp [hidle, AllocPoint.PastCharge]) (by simp) (by simp)
  | ready call answered polls confirmPod pod hwaiting _ heq =>
      subst heq
      exact recorded_move h rfl rfl (by simp [hwaiting, AllocPoint.PastCharge]) (by simp) (by simp)
  | again call answered polls confirmPod hwaiting heq =>
      subst heq
      exact recorded_move h rfl rfl (by simp [hwaiting, AllocPoint.PastCharge]) (by simp) (by simp)
  | failed _ call outcome hfailed _ heq =>
      subst heq
      refine recorded_move h rfl rfl (fun _ => trivial) (by simp) (fun response hresponse => ?_)
      exact absurd (AllocPoint.returned.inj hresponse) (hfailed response)
  | charge call calls pod gpu hready hgpu heq =>
      subst heq
      exact recorded_charge h hready hgpu rfl
  | respond call answered pod uuid pods hcharged _ heq =>
      subst heq
      refine recorded_move h rfl rfl (fun _ => trivial) (by simp) (fun response hresponse => ?_)
      obtain ⟨charge, hmem, hcall, rfl, rfl⟩ := h.charged call pod uuid hcharged
      simp only [AllocPoint.returned.injEq, Outcome.ok.injEq] at hresponse
      exact ⟨charge, hmem, hcall, hresponse.symm⟩
  | pods pods _ heq =>
      subst heq
      exact ⟨h.nodup, h.past, h.selected, h.charged, h.returned⟩

/-- At the start there is nothing to record. -/
theorem recorded_initial [Gjson] (server : ι → VcoreResourceServer) (pods : PodStore)
    (gpus : GpuStore) : Recorded server (State.initial ι pods gpus) :=
  ⟨by simp [State.initial], by simp [State.initial], by simp [State.initial],
    by simp [State.initial], by simp [State.initial]⟩

/-- The records of every reachable state. -/
theorem recorded_of_run [DecidableEq ι] [Gjson] {server : ι → VcoreResourceServer}
    {pods : PodStore} {gpus : GpuStore} {actions : List (Action ι)} {state : State ι}
    (hrun : exec (step server) (State.initial ι pods gpus) actions = some state) :
    Recorded server state :=
  exec_invariant (fun _ _ _ h hstep => recorded_step h hstep) (recorded_initial server pods gpus)
    hrun

/-! ## The choice -/

/-- Some container of the pod has a limit for the resource. -/
def hasLimit (resource : String) (pod : Pod) : Bool :=
  pod.containers.any fun cont => cont.hasLimit resource

/-- The running total of the limits over these pods. -/
def runningTotal (resource : String) (pods : List Pod) : Int64 :=
  (pods.map fun pod => limitTotal resource pod.containers).sum

/-- The first pod, among the pending pods from the first one with a limit for the resource on, at
which the running total of the limits reaches the number of devices. -/
def Picks (resource : String) (pendingPod : List Pod) (allReqDevice : Nat) (pod : Pod) : Prop :=
  ∃ before after,
    pendingPod.dropWhile (fun other => !hasLimit resource other) = before ++ pod :: after ∧
      runningTotal resource (before ++ [pod]) = Int64.ofNat allReqDevice ∧
      ∀ earlier later, before = earlier ++ later → earlier ≠ [] →
        runningTotal resource earlier ≠ Int64.ofNat allReqDevice

@[simp] theorem runningTotal_nil (resource : String) : runningTotal resource [] = 0 := rfl

@[simp] theorem runningTotal_cons (resource : String) (pod : Pod) (pods : List Pod) :
    runningTotal resource (pod :: pods) =
      limitTotal resource pod.containers + runningTotal resource pods := rfl

/-- Once its flag is set, the loop keeps every pod. -/
theorem candidate_pod_list_set (resource : String) (pods : List Pod) :
    candidatePodList resource true pods = pods := by
  induction pods with
  | nil => rfl
  | cons pod rest ih => simp [candidatePodList, ih]

/-- The loop drops the pods before the first one with a limit, and no other. -/
theorem candidate_pod_list_eq (resource : String) (pods : List Pod) :
    candidatePodList resource false pods =
      pods.dropWhile fun pod => !hasLimit resource pod := by
  induction pods with
  | nil => rfl
  | cons pod rest ih =>
      cases hlimit : hasLimit resource pod with
      | false =>
          have hany : (pod.containers.any fun cont => cont.hasLimit resource) = false := hlimit
          simp [candidatePodList, hany, List.dropWhile, hlimit, ih]
      | true =>
          have hany : (pod.containers.any fun cont => cont.hasLimit resource) = true := hlimit
          simp [candidatePodList, hany, List.dropWhile, hlimit, candidate_pod_list_set]

/-- The counting loop stops at the first pod at which the count reaches the number of devices. -/
theorem confirm_pod_eq_some_iff (resource : String) (devices count : Int64) (pods : List Pod)
    (pod : Pod) :
    confirmPod resource devices count pods = some pod ↔
      ∃ before after, pods = before ++ pod :: after ∧
        count + runningTotal resource (before ++ [pod]) = devices ∧
        ∀ earlier later, before = earlier ++ later → earlier ≠ [] →
          count + runningTotal resource earlier ≠ devices := by
  induction pods generalizing count with
  | nil => simp [confirmPod]
  | cons first rest ih =>
      simp only [confirmPod]
      split
      · rename_i hreached
        constructor
        · rintro ⟨⟩
          refine ⟨[], rest, rfl, by simpa using hreached, fun earlier later hsplit hne => ?_⟩
          exact absurd (List.append_eq_nil_iff.mp hsplit.symm).1 hne
        · rintro ⟨before, after, hpods, -, hfirst⟩
          cases before with
          | nil => exact congrArg some (List.cons.inj hpods).1
          | cons head tail =>
              obtain ⟨rfl, -⟩ := List.cons.inj hpods
              exact absurd (by simpa using hreached) (hfirst [first] tail rfl (by simp))
      · rename_i hnot
        rw [ih]
        constructor
        · rintro ⟨before, after, rfl, htotal, hfirst⟩
          refine ⟨first :: before, after, rfl, by simpa [Int64.add_assoc] using htotal, ?_⟩
          intro earlier later hsplit hne
          cases earlier with
          | nil => exact absurd rfl hne
          | cons head tail =>
              obtain ⟨rfl, hrest⟩ := List.cons.inj hsplit
              by_cases htail : tail = []
              · subst htail
                simpa using hnot
              · simpa [Int64.add_assoc] using hfirst tail later hrest htail
        · rintro ⟨before, after, hpods, htotal, hfirst⟩
          cases before with
          | nil =>
              obtain ⟨rfl, -⟩ := List.cons.inj hpods
              exact absurd (by simpa using htotal) hnot
          | cons head tail =>
              obtain ⟨rfl, hrest⟩ := List.cons.inj hpods
              refine ⟨tail, after, hrest, by simpa [Int64.add_assoc] using htotal, ?_⟩
              intro earlier later hsplit hne
              simpa [Int64.add_assoc] using
                hfirst (first :: earlier) later (by rw [hsplit]; rfl) (by simp)

/-- The inferred pod is the one that the rule picks. -/
theorem choose_pod_eq_some_iff {resource : String} {pendingPod : List Pod} {allReqDevice : Nat}
    {pod : Pod} :
    choosePod resource pendingPod allReqDevice = some pod ↔
      Picks resource pendingPod allReqDevice pod := by
  rw [choosePod, candidate_pod_list_eq, confirm_pod_eq_some_iff, Picks]
  simp only [Int64.zero_add]

/-- A picked pod is pending. -/
theorem Picks.mem {resource : String} {pendingPod : List Pod} {allReqDevice : Nat} {pod : Pod}
    (h : Picks resource pendingPod allReqDevice pod) : pod ∈ pendingPod := by
  obtain ⟨before, after, hsplit, -, -⟩ := h
  have hmem : pod ∈ pendingPod.dropWhile fun other => !hasLimit resource other := by
    rw [hsplit]
    simp
  exact (List.dropWhile_sublist _).mem hmem

/-! ## A small cluster -/

/-- The quantity ten. -/
def tenUnits : Quantity := ⟨"10", 10, by decide, by decide, by decide⟩

/-- The quantity five. -/
def fiveUnits : Quantity := ⟨"5", 5, by decide, by decide, by decide⟩

/-- A pending pod on node `n1` with one container of ten cores and five memory blocks, whose
directory is ready. -/
def tenCorePod (name uid : String) : Pod where
  name := name
  ns := "default"
  uid := uid
  resourceVersion := 1
  annotations := some [(annVCUDAReady, "yes")]
  nodeName := "n1"
  containers :=
    [{ name := "main"
       requests := []
       limits := [(resourceCore, tenUnits), (resourceMemory, fiveUnits)] }]
  phase := "Pending"
  containerStatuses := []

/-- Two pods of equal requests. -/
def twinPods : PodStore where
  items := [tenCorePod "a" "uid-a", tenCorePod "b" "uid-b"]
  keys_nodup := by decide
  uids_nodup := by decide
  named := by decide

/-- The card of `freshCard`, as its node sees it. -/
def localCards : List Device := [⟨"GPU-0", 0, true, 17179869184⟩]

/-- The plugin of node `n1`. -/
def nodeServer (_ : String) : VcoreResourceServer := ⟨"n1", nvmlTest localCards⟩

/-- The steps of one call that the API server answers throughout. -/
def answeredCall (call : String) (devicesIDs : List String) : List (Action String) :=
  [.start call devicesIDs true, .poll call true, .charge call .answered, .annotate call true]

/-- Ten device IDs. -/
def tenDevices : List String :=
  (List.range 10).map fun i => resourceCore ++ "-" ++ Nat.repr i

end UniShare.PluginRegister
