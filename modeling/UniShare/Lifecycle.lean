import UniShare.PluginRegister.Vcore
import UniShare.ResourceManager.Machine
import UniShare.ResourceManager.Config

/-!
# Allocation over the life of a pod

The device plugins and the manager around one API server. The plugins' `Allocate` charges GPU
resources; the manager hears of the pods' changes and deletions, and writes annotations. Nothing in
either gives an amount back: `used_eq_charged` says that the used amounts of a GPU are always the
sums of all the requests that were ever charged to it.
-/

namespace UniShare.Lifecycle

open Lib DeviceInfo Kube PodWatch PluginRegister

/-! ## Accounts -/

section Accounts

variable {ι : Type}

/-- The charges to the GPU of this name, as one amount. -/
def chargedTo (amount : Pod → Int64) (charges : List (Charge ι)) (name : String) : Int64 :=
  ((charges.filter fun charge => charge.crdName = name).map fun charge => amount charge.pod).sum

/-- The used amounts of every GPU are the sums of the requests in these charges to it. -/
structure Balanced (charges : List (Charge ι)) (gpus : GpuStore) : Prop where
  core : ∀ gpu ∈ gpus.items, gpu.spec.used.coreAmount = chargedTo requestCore charges gpu.name
  memory : ∀ gpu ∈ gpus.items, gpu.spec.used.memoryAmount = chargedTo requestMem charges gpu.name

/-- One more charge adds its amount to its GPU. -/
theorem charged_to_concat (amount : Pod → Int64) (charges : List (Charge ι)) (charge : Charge ι)
    (name : String) :
    chargedTo amount (charges ++ [charge]) name =
      chargedTo amount charges name + if charge.crdName = name then amount charge.pod else 0 := by
  by_cases hname : charge.crdName = name
  · simp [chargedTo, List.filter_append, hname]
  · simp [chargedTo, List.filter_append, hname]

/-- A charge adds the core request to the GPU of its name. -/
theorem charge_named_core (name : String) (podCoreReq podMemReq : Int64) (gpu : GPU) :
    (chargeNamed name podCoreReq podMemReq gpu).spec.used.coreAmount =
      gpu.spec.used.coreAmount + if name = gpu.name then podCoreReq else 0 := by
  by_cases hname : gpu.name = name
  · simp [chargeNamed, PodWatch.charge, R.coreAmount, hname]
  · simp [chargeNamed, hname, Ne.symm hname]

/-- A charge adds the memory request to the GPU of its name. -/
theorem charge_named_memory (name : String) (podCoreReq podMemReq : Int64) (gpu : GPU) :
    (chargeNamed name podCoreReq podMemReq gpu).spec.used.memoryAmount =
      gpu.spec.used.memoryAmount + if name = gpu.name then podMemReq else 0 := by
  by_cases hname : gpu.name = name
  · simp [chargeNamed, PodWatch.charge, R.memoryAmount, hname]
  · simp [chargeNamed, hname, Ne.symm hname]

/-- A charge that is made and recorded keeps the balance. -/
theorem balanced_charge {charges : List (Charge ι)} {gpus : GpuStore} (h : Balanced charges gpus)
    (charge : Charge ι) :
    Balanced (charges ++ [charge])
      (gpus.charged charge.crdName (requestCore charge.pod) (requestMem charge.pod)) := by
  constructor
  all_goals
    intro gpu hgpu
    obtain ⟨old, hold, rfl⟩ := List.mem_map.mp hgpu
  · rw [charge_named_core, chargeNamed_name, charged_to_concat, h.core old hold]
  · rw [charge_named_memory, chargeNamed_name, charged_to_concat, h.memory old hold]

/-- Every step of the plugins keeps the balance. -/
theorem balanced_step [DecidableEq ι] [Gjson] {server : ι → VcoreResourceServer}
    {state next : PluginRegister.State ι} {action : PluginRegister.Action ι}
    (h : Balanced state.charges state.gpus)
    (hstep : PluginRegister.step server state action = some next) :
    Balanced next.charges next.gpus := by
  cases effect_of_step hstep with
  | start _ _ _ _ heq | ready _ _ _ _ _ _ _ heq | again _ _ _ _ _ heq | failed _ _ _ _ _ heq
  | respond _ _ _ _ _ _ _ heq | pods _ _ heq =>
      subst heq
      exact h
  | charge call calls pod gpu _ _ heq =>
      subst heq
      exact balanced_charge h ⟨call, pod, state.gpus,
        state.gpus.charged gpu.name (requestCore pod) (requestMem pod), gpu.name, gpu.spec.uuid⟩

end Accounts

/-! ## The system -/

/-- The plugins with the API server's pods and GPU resources, the manager, and the UIDs of the pods
whose deletion the manager has handled. -/
structure System (ι : Type) where
  plugin : PluginRegister.State ι
  manager : ResourceManager.State
  deleted : List String

/-- The daemons have started and no call has. -/
def System.initial (ι : Type) (pods : PodStore) (gpus : GpuStore) : System ι :=
  ⟨.initial ι pods gpus, .initial, []⟩

/-- A step of a plugin or of others at the API server, an event of a pod, or a step of the manager.
The flags say whether a file operation succeeds and whether the API server answers. -/
inductive Action (ι : Type) where
  | plugin (action : PluginRegister.Action ι)
  | podModified (pod : Pod)
  | podDeleted (pod : Pod)
  | run
  | handler (i : Nat) (ok answered : Bool)
  | deleter (i : Nat)
  | restart

/-- The pods after these updates; one that is refused changes nothing. -/
def receiveUpdates (pods : PodStore) (updates : List Pod) : PodStore :=
  updates.foldl (fun pods pod => (pods.update pod).getD pods) pods

variable {ι : Type}

/-- What a handler's step is answered: the stored pod of its event's names. -/
def System.answer [Gjson] (state : System ι) (i : Nat) (ok answered : Bool) :
    ResourceManager.Answer where
  ok := ok
  pod :=
    if answered then
      state.manager.handlers[i]?.bind fun handler =>
        state.plugin.pods.get (ResourceManager.podNamespace handler.event)
          (ResourceManager.podName handler.event)
    else none

/-- A step of the manager, whose updates the API server receives. -/
def System.manage [Gjson] (cgroupV2 : Bool) (state : System ι) (action : ResourceManager.Action) :
    Option (System ι) :=
  (ResourceManager.step cgroupV2 state.manager action).map fun manager =>
    { state with
      manager
      plugin := { state.plugin with
        pods := receiveUpdates state.plugin.pods
          (manager.updates.drop state.manager.updates.length) } }

/-- The charges to pods whose deletion has not been handled. -/
def System.liveCharges (state : System ι) : List (Charge ι) :=
  state.plugin.charges.filter fun charge => charge.pod.uid ∉ state.deleted

/-- One transition. An event is about a pod that was stored at some time, and a DELETED event about
one that no longer is. -/
def step [DecidableEq ι] [Gjson] (server : ι → VcoreResourceServer) (cgroupV2 : Bool)
    (state : System ι) : Action ι → Option (System ι)
  | .plugin action =>
      (PluginRegister.step server state.plugin action).map fun plugin => { state with plugin }
  | .podModified pod =>
      if pod.uid ∈ state.plugin.known then state.manage cgroupV2 (.modified pod.toJson) else none
  | .podDeleted pod =>
      if pod.uid ∈ state.plugin.known ∧ pod.uid ∉ state.plugin.pods.items.map Pod.uid then
        state.manage cgroupV2 (.deleted pod.toJson)
      else none
  | .run => state.manage cgroupV2 .run
  | .handler i ok answered => state.manage cgroupV2 (.handler i (state.answer i ok answered))
  | .deleter i =>
      (state.manage cgroupV2 (.deleter i)).map fun next =>
        { next with
          deleted := state.deleted ++
            (state.manager.deleters[i]?.map ResourceManager.podUID).toList }
  | .restart => state.manage cgroupV2 .restart

/-- The used amounts balance with all charges, and the charges are those of the calls. -/
structure Inv [Gjson] (server : ι → VcoreResourceServer) (state : System ι) : Prop where
  balanced : Balanced state.plugin.charges state.plugin.gpus
  recorded : Recorded server state.plugin

/-- The manager reaches neither the GPU resources nor the calls. -/
theorem inv_manage [Gjson] {server : ι → VcoreResourceServer} {cgroupV2 : Bool}
    {state next : System ι} {action : ResourceManager.Action} (h : Inv server state)
    (hstep : state.manage cgroupV2 action = some next) : Inv server next := by
  obtain ⟨manager, -, rfl⟩ := Option.map_eq_some_iff.mp hstep
  exact ⟨h.balanced, h.recorded.nodup, h.recorded.past, h.recorded.selected, h.recorded.charged,
    h.recorded.returned⟩

/-- Every step of the system keeps the invariant. -/
theorem inv_step [DecidableEq ι] [Gjson] {server : ι → VcoreResourceServer} {cgroupV2 : Bool}
    {state next : System ι} {action : Action ι} (h : Inv server state)
    (hstep : step server cgroupV2 state action = some next) : Inv server next := by
  cases action with
  | plugin action =>
      obtain ⟨plugin, hplugin, rfl⟩ := Option.map_eq_some_iff.mp hstep
      exact ⟨balanced_step h.balanced hplugin, recorded_step h.recorded hplugin⟩
  | podModified pod | podDeleted pod =>
      simp only [step] at hstep
      split at hstep
      · exact inv_manage h hstep
      · cases hstep
  | run | handler i ok answered | restart => exact inv_manage h hstep
  | deleter i =>
      obtain ⟨middle, hmiddle, rfl⟩ := Option.map_eq_some_iff.mp hstep
      have hinv := inv_manage h hmiddle
      exact ⟨hinv.balanced, hinv.recorded⟩

/-- From unused GPUs on, in every run, the used amounts of every GPU are the sums of the requests of
all charges to it, whether or not their pods have been deleted since; and there is one charge for
each call that has made one. -/
theorem used_eq_charged [DecidableEq ι] [Gjson] {server : ι → VcoreResourceServer} {cgroupV2 : Bool}
    {pods : PodStore} {gpus : GpuStore}
    (hunused : ∀ gpu ∈ gpus.items,
      gpu.spec.used.coreAmount = 0 ∧ gpu.spec.used.memoryAmount = 0)
    {actions : List (Action ι)} {state : System ι}
    (hrun : exec (step server cgroupV2) (System.initial ι pods gpus) actions = some state) :
    Balanced state.plugin.charges state.plugin.gpus ∧ Recorded server state.plugin := by
  have hinit : Inv server (System.initial ι pods gpus) :=
    ⟨⟨fun gpu hgpu => (hunused gpu hgpu).1, fun gpu hgpu => (hunused gpu hgpu).2⟩,
      recorded_initial server pods gpus⟩
  have hinv := exec_invariant (fun _ _ _ h hstep => inv_step h hstep) hinit hrun
  exact ⟨hinv.balanced, hinv.recorded⟩

/-! ## The life of one pod -/

/-- One pod, before it is assigned. -/
def onePod : PodStore where
  items := [ResourceManager.scheduledPod]
  keys_nodup := by decide
  uids_nodup := by decide
  named := by decide

/-- No pod. -/
def noPods : PodStore where
  items := []
  keys_nodup := by decide
  uids_nodup := by decide
  named := by decide

/-- The manager marks the pod ready, a call binds it, it is deleted, and the manager handles its
deletion. -/
def lifeOfPod : List (Action String) :=
  List.flatten
    [[.podModified ResourceManager.scheduledPod], List.replicate 3 .run,
      List.replicate 7 (.handler 0 true true), (answeredCall "uid-a" tenDevices).map .plugin,
      [.plugin (.pods noPods), .podDeleted ResourceManager.runningPod, .run, .run, .run,
        .deleter 0]]

/-- The card is unused before that. -/
theorem fresh_store_unused : ∀ gpu ∈ freshStore.items,
    gpu.spec.used.coreAmount = 0 ∧ gpu.spec.used.memoryAmount = 0 := by
  decide

/-- What the life of the pod leaves: ten used cores, no live charge, and the handled deletion. -/
theorem life_of_pod_runs :
    letI := Gjson.reader
    (exec (step nodeServer false) (System.initial String onePod freshStore) lifeOfPod).map
        (fun state => (state.plugin.gpus.items.map fun gpu => gpu.spec.used,
          state.liveCharges.map fun charge => charge.pod.uid, state.deleted)) =
      some ([⟨"10", "0"⟩], [], ["uid-a"]) := by
  decide +kernel

/-- The charge of the deleted pod is still in the used amounts. -/
theorem used_eq_charged_deleted :
    letI := Gjson.reader
    ∃ state, exec (step nodeServer false) (System.initial String onePod freshStore) lifeOfPod =
        some state ∧
      state.deleted = ["uid-a"] ∧ Balanced state.plugin.charges state.plugin.gpus ∧
        Recorded nodeServer state.plugin := by
  let reader := Gjson.reader
  obtain ⟨state, hstate, hleft⟩ := Option.map_eq_some_iff.mp life_of_pod_runs
  simp only [Prod.mk.injEq] at hleft
  exact ⟨state, hstate, hleft.2.2, used_eq_charged fresh_store_unused hstate⟩

/-- After the only pod is deleted, ten cores of the card are still used. -/
theorem used_eq_live_counterexample :
    letI := Gjson.reader
    ¬ ∀ (server : String → VcoreResourceServer) cgroupV2 pods gpus actions state,
        (∀ gpu ∈ gpus.items,
          gpu.spec.used.coreAmount = 0 ∧ gpu.spec.used.memoryAmount = 0) →
        exec (step server cgroupV2) (System.initial String pods gpus) actions = some state →
          Balanced state.liveCharges state.plugin.gpus := by
  intro h
  let reader := Gjson.reader
  obtain ⟨state, hstate, hleft⟩ := Option.map_eq_some_iff.mp life_of_pod_runs
  simp only [Prod.mk.injEq] at hleft
  obtain ⟨hused, hlive, -⟩ := hleft
  have hbalanced := h nodeServer false onePod freshStore lifeOfPod state fresh_store_unused hstate
  obtain ⟨gpu, hgpu⟩ := List.length_eq_one_iff.mp
    (by simpa using congrArg List.length hused : state.plugin.gpus.items.length = 1)
  have hcore := hbalanced.core gpu (by simp [hgpu])
  rw [hgpu, List.map_singleton, List.singleton_inj] at hused
  rw [List.map_eq_nil_iff.mp hlive, hused] at hcore
  have hten : R.coreAmount ⟨"10", "0"⟩ = 0 := hcore
  exact absurd hten (by decide)

end UniShare.Lifecycle
