import UniShare.PluginRegister.Allocate

/-!
# One allocation of MLU cores

`MluCoreSrv.Allocate` of `pluginRegister/vMluCore.go` as a function of the stored pods and of which
of its API calls succeed, with nobody else changing the pods meanwhile. It finds its pod as
`VcoreResourceServer.Allocate` does, but charges no device: the update of the pod is the only change
that it makes, and comes last. So, unlike its sibling, it is atomic without a condition
(`mlu_allocate_atomic`).
-/

namespace UniShare.PluginRegister

open Lib Kube PodWatch

/-- `MluCoreSrv`: the node that its messenger serves. -/
structure MluCoreSrv where
  nodeName : String

/-- The response that `MluCoreSrv.Allocate` builds. -/
def MluCoreSrv.allocResp : AllocateResponse where
  containerResponses :=
    [{ envs := [("LD_LIBRARY_PATH", "/usr/local/cambricon/lib64")]
       mounts := [⟨"/usr/local/cambricon", "/usr/local/cambricon", true⟩]
       devices :=
        [deviceSpec "/dev/cambricon_ctl", deviceSpec "/dev/cambricon_dev0",
          deviceSpec "/dev/cambricon_ipcm0"]
       annotations := [] }]

/-- `MluCoreSrv.Allocate`. It asks for no GPU, so `calls.gpu` does not matter. -/
def MluCoreSrv.allocate (server : MluCoreSrv) (calls : AllocateCalls) (pods : PodStore)
    (reqs : AllocateRequest) : Outcome AllocateResponse × PodStore :=
  match reqs.containerRequests with
  | [] => (.exit "index out of range", pods)
  | devicesIDs :: _ =>
      let pendingPod := getPendingPodOnNode calls.listPods server.nodeName pods
      match awaitReady calls pods (MluCoreSrv.confirmPod pendingPod devicesIDs) 100 with
      | none => (.error "vcuda not ready", pods)
      | some confirmPod =>
          match updatePodAnnotations calls.updatePod pods
              (confirmPod.setAnnotation annAssignedFlag "true") with
          | none => (.error "failed to update pod annotation", pods)
          | some updated => (.ok MluCoreSrv.allocResp, updated)

/-- The pod that the call confirms: the one that it infers for the request, whose directory is ready
and at least one of whose hundred polls succeeds. -/
structure MluConfirmed (server : MluCoreSrv) (calls : AllocateCalls) (pods : PodStore)
    (reqs : AllocateRequest) (pod : Pod) : Prop where
  listed : calls.listPods = true
  chosen : ∃ devicesIDs others, reqs.containerRequests = devicesIDs :: others ∧
    MluCoreSrv.confirmPod (getPendingPodOnNode true server.nodeName pods) devicesIDs = some pod
  polled : ∃ i < 100, calls.getPod i = true
  ready : getVCUDAReadyFromPodAnnotation pod ≠ ""

/-- A call that confirms a pod and can update it answers with its response, and the flag of this pod
is all that has changed. A call that confirms none, or cannot update the one that it confirms,
returns an error, and one for no container panics; none of them has changed a pod. -/
structure MluAtomic (server : MluCoreSrv) (calls : AllocateCalls) (pods : PodStore)
    (reqs : AllocateRequest) : Prop where
  granted : ∀ pod, MluConfirmed server calls pods reqs pod → calls.updatePod = true →
    (server.allocate calls pods reqs).1 = .ok MluCoreSrv.allocResp ∧
      AssignedOnly pods (server.allocate calls pods reqs).2 pod
  refused : reqs.containerRequests ≠ [] → (∀ pod, ¬ MluConfirmed server calls pods reqs pod) →
    server.allocate calls pods reqs = (.error "vcuda not ready", pods)
  unwritten : ∀ pod, MluConfirmed server calls pods reqs pod → calls.updatePod = false →
    server.allocate calls pods reqs = (.error "failed to update pod annotation", pods)
  empty : reqs.containerRequests = [] →
    server.allocate calls pods reqs = (.exit "index out of range", pods)

section Confirmed

variable {server : MluCoreSrv} {calls : AllocateCalls} {pods : PodStore} {devicesIDs : List String}
  {others : List (List String)} {pod : Pod}

/-- A pending pod is stored. -/
theorem mem_of_confirm_pod {answered : Bool}
    (h : MluCoreSrv.confirmPod (getPendingPodOnNode answered server.nodeName pods) devicesIDs =
      some pod) : answered = true ∧ pod ∈ pods.items := by
  have hpending := (choose_pod_eq_some_iff.mp h).mem
  cases answered with
  | false => cases hpending
  | true => exact ⟨rfl, (List.mem_filter.mp hpending).1⟩

/-- The waiting loop of the call ends with the confirmed pod. -/
theorem await_ready_iff_mlu_confirmed :
    awaitReady calls pods (MluCoreSrv.confirmPod
        (getPendingPodOnNode calls.listPods server.nodeName pods) devicesIDs) 100 = some pod ↔
      MluConfirmed server calls pods ⟨devicesIDs :: others⟩ pod := by
  rw [await_ready_eq_some_iff]
  constructor
  · intro hconfirmed
    obtain ⟨hpolled, hready⟩ := hconfirmed
    obtain ⟨hmem, chosen, hchosen, hkey⟩ := ready_pod_eq_some hready
    obtain ⟨hlisted, hstored⟩ := mem_of_confirm_pod hchosen
    obtain rfl := pods.eq_of_key hmem hstored hkey
    have hannotation := (Option.filter_eq_some_iff.mp hready).2
    rw [hlisted] at hchosen
    exact ⟨hlisted, ⟨devicesIDs, others, rfl, hchosen⟩, hpolled, of_decide_eq_true hannotation⟩
  · intro h
    obtain ⟨ids, rest, heq, hchosen⟩ := h.chosen
    obtain ⟨rfl, rfl⟩ := List.cons.inj heq
    have hstored := (mem_of_confirm_pod hchosen).2
    rw [h.listed, hchosen]
    exact ⟨h.polled, Option.filter_eq_some_iff.mpr
      ⟨pods.get_of_mem hstored, decide_eq_true h.ready⟩⟩

/-- Writing the flag back assigns the confirmed pod and no other. -/
theorem assigned_only_of_update {updated : PodStore} (hmem : pod ∈ pods.items)
    (hready : getVCUDAReadyFromPodAnnotation pod ≠ "")
    (hupdate : pods.update (pod.setAnnotation annAssignedFlag "true") = some updated) :
    AssignedOnly pods updated pod := by
  have hannotated : pod.annotations.isSome := by
    cases hannotations : pod.annotations with
    | none => simp [hannotations, getVCUDAReadyFromPodAnnotation, Pod.annotation] at hready
    | some annotations => rfl
  obtain ⟨stored, hstored, hitems⟩ := pods.update_annotation hmem annAssignedFlag "true"
  obtain rfl := Option.some.inj (hupdate.symm.trans hstored)
  exact ⟨_, hitems, rfl, annotation_set_annotation hannotated annAssignedFlag "true",
    fun key hne => annotation_set_annotation_of_ne hne "true"⟩

end Confirmed

/-- For all stored pods, every request and every pattern of successes and failures of its API
calls, `MluCoreSrv.Allocate` is atomic. -/
theorem mlu_allocate_atomic (server : MluCoreSrv) (calls : AllocateCalls) (pods : PodStore)
    (reqs : AllocateRequest) : MluAtomic server calls pods reqs := by
  obtain ⟨requests⟩ := reqs
  cases requests with
  | nil =>
      have hnone : ∀ pod, ¬ MluConfirmed server calls pods ⟨[]⟩ pod := by
        intro pod h
        obtain ⟨devicesIDs, others, heq, -⟩ := h.chosen
        cases heq
      exact ⟨fun pod h => absurd h (hnone pod), fun hne => absurd rfl hne,
        fun pod h => absurd h (hnone pod), fun _ => rfl⟩
  | cons devicesIDs others =>
      refine ⟨fun pod h hupdate => ?_, fun _ hnone => ?_, fun pod h hupdate => ?_, nofun⟩
      · obtain ⟨ids, rest, heq, hchosen⟩ := h.chosen
        have hmem := (mem_of_confirm_pod hchosen).2
        obtain ⟨updated, hstored, -⟩ := pods.update_annotation hmem annAssignedFlag "true"
        simp only [MluCoreSrv.allocate, await_ready_iff_mlu_confirmed.mpr h, updatePodAnnotations,
          hupdate, if_true, hstored]
        exact ⟨trivial, assigned_only_of_update hmem h.ready hstored⟩
      · cases hready : awaitReady calls pods (MluCoreSrv.confirmPod
            (getPendingPodOnNode calls.listPods server.nodeName pods) devicesIDs) 100 with
        | none => simp [MluCoreSrv.allocate, hready]
        | some pod => exact absurd (await_ready_iff_mlu_confirmed.mp hready) (hnone pod)
      · simp [MluCoreSrv.allocate, await_ready_iff_mlu_confirmed.mpr h, updatePodAnnotations,
          hupdate]

end UniShare.PluginRegister
