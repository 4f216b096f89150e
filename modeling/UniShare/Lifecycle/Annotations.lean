import UniShare.Lifecycle
import UniShare.PluginRegister.Binding
import UniShare.ResourceManager.Steps
import UniShare.Lib.Optimistic
import UniShare.Lib.Refinement

/-!
# The annotations of a pod

`Allocate` and `creatVcudaServer` each fetch a pod, set one annotation in their copy, and send the
whole copy back; the copy that `Allocate` sends was fetched before its charge.
`updates_refine_patches` says that on the stored pods this comes to patches of single annotations,
so no change that the other component or anyone else has made in between is undone.
`granted_pods_marked` follows what that is for: a pod whose directory is mounted stays marked as
assigned and as ready.
-/

namespace UniShare.Lifecycle

open Lib DeviceInfo Kube PodWatch PluginRegister

/-! ## Patches -/

/-- The stored pod with one annotation set. -/
def patched (key value : String) (pod : Pod) : Pod :=
  { pod.setAnnotation key value with resourceVersion := pod.resourceVersion + 1 }

/-- Set one annotation of the stored pod of this UID, which has annotations. -/
def annotatePod (uid key value : String) (items : List Pod) : Option (List Pod) :=
  if ∃ pod ∈ items, pod.uid = uid ∧ pod.annotations.isSome then
    some (items.map fun pod => if pod.uid = uid then patched key value pod else pod)
  else none

/-- A change of the stored pods: a pod is marked as assigned, or as ready, or others change them. -/
inductive Patch where
  | assigned (uid : String)
  | ready (uid : String)
  | others (pods : PodStore)

/-- The stored pods after a change. -/
def Patch.step (items : List Pod) : Patch → Option (List Pod)
  | .assigned uid => annotatePod uid annAssignedFlag "true" items
  | .ready uid => annotatePod uid annVCUDAReady "yes" items
  | .others pods => some pods.items

/-- The changes by others. -/
def Patch.external : Patch → List PodStore
  | .others pods => [pods]
  | _ => []

/-- A conditional update by an annotated copy that is current patches the stored pod. -/
theorem annotate_pod_of_update {pods next : PodStore} {copy : Pod} {key value : String}
    (hcurrent : Current Pod.uid Pod.resourceVersion pods.items copy)
    (hsome : copy.annotations.isSome)
    (hupdate : pods.update (copy.setAnnotation key value) = some next) :
    annotatePod copy.uid key value pods.items = some next.items := by
  unfold PodStore.update at hupdate
  split at hupdate
  · rename_i hany
    obtain ⟨old, hold, hsame⟩ := List.any_eq_true.mp hany
    obtain ⟨-, huid, hversion⟩ := of_decide_eq_true hsame
    obtain rfl := hcurrent.eq_of_version hold huid hversion
    rw [annotatePod, if_pos ⟨old, hold, rfl, hsome⟩]
    obtain rfl := Option.some.inj hupdate
    refine congrArg some (List.map_congr_left fun other hother => ?_)
    by_cases hother' : other.uid = old.uid
    · obtain rfl := pods.eq_of_uid hother hold hother'
      simp [renewPod, patched, Pod.setAnnotation, Pod.key]
    · have hne : ¬ (other.key = (old.setAnnotation key value).key ∧
          other.uid = (old.setAnnotation key value).uid) := fun h => hother' h.2
      rw [if_neg hother', renewPod, if_neg hne]
  · cases hupdate

/-- A patch renews the version of the pod that it changes. -/
theorem renewed_annotate {uid key value : String} {items next : List Pod} (known : List String)
    (h : annotatePod uid key value items = some next) :
    Renewed Pod.uid Pod.resourceVersion known items next := by
  obtain ⟨-, hnext⟩ := Option.ite_none_right_eq_some.mp h
  obtain rfl := Option.some.inj hnext
  refine renewed_map known fun pod _ => ?_
  by_cases huid : pod.uid = uid
  · rw [if_pos huid]
    exact .inr ⟨rfl, Nat.lt_succ_self _⟩
  · exact .inl (if_neg huid)

/-- A pod after a patch is a stored one, patched if it is the one. -/
theorem annotated_back {uid key value : String} {items next : List Pod}
    (h : annotatePod uid key value items = some next) {pod : Pod} (hpod : pod ∈ next) :
    ∃ old ∈ items, old.uid = pod.uid ∧
      pod = if pod.uid = uid then patched key value old else old := by
  obtain ⟨-, hnext⟩ := Option.ite_none_right_eq_some.mp h
  obtain rfl := Option.some.inj hnext
  obtain ⟨old, hold, rfl⟩ := List.mem_map.mp hpod
  by_cases huid : old.uid = uid
  · refine ⟨old, hold, ?_, ?_⟩
    · rw [if_pos huid]
      rfl
    · rw [if_pos huid]
      exact (if_pos huid).symm
  · refine ⟨old, hold, ?_, ?_⟩
    · rw [if_neg huid]
    · rw [if_neg huid, if_neg huid]

/-! ## Copies -/

/-- A call at this point will send this copy. -/
def Sends (copy : Pod) : AllocPoint → Prop
  | .ready confirmPod => confirmPod = copy
  | .charged confirmPod _ => confirmPod = copy
  | _ => False

variable {ι : Type}

/-- Some call holds this copy. -/
def CallHolds (state : PluginRegister.State ι) (copy : Pod) : Prop :=
  ∃ call, Sends copy (state.point call)

/-- Some handler of the manager holds this copy. -/
def HandlerHolds (state : ResourceManager.State) (copy : Pod) : Prop :=
  ∃ handler ∈ state.handlers, handler.point = .annotate copy

/-- Some call has returned a response that mounts the directory of this pod. -/
def Granted (state : PluginRegister.State ι) (podUid : String) : Prop :=
  ∃ call response, state.point call = .returned (.ok response) ∧ response.Mounts podUid

/-- The copy is current, of a pod that has been stored. -/
def Fresh (state : PluginRegister.State ι) (copy : Pod) : Prop :=
  copy.uid ∈ state.known ∧ Current Pod.uid Pod.resourceVersion state.pods.items copy

/-- The copies that are held are current, and a call's copy is of a pod that was ready. -/
structure CopiesInv (state : System ι) : Prop where
  stored : ∀ pod ∈ state.plugin.pods.items, pod.uid ∈ state.plugin.known
  call : ∀ copy, CallHolds state.plugin copy →
    Fresh state.plugin copy ∧ getVCUDAReadyFromPodAnnotation copy ≠ ""
  handler : ∀ copy, HandlerHolds state.manager copy → Fresh state.plugin copy

/-- A pod that is marked as ready has annotations. -/
theorem annotations_of_ready {pod : Pod} (h : getVCUDAReadyFromPodAnnotation pod ≠ "") :
    pod.annotations.isSome := by
  cases hannotations : pod.annotations with
  | some annotations => rfl
  | none => simp [hannotations, getVCUDAReadyFromPodAnnotation, Pod.annotation] at h

/-- The pods that are granted after a call has moved that had not returned. -/
theorem granted_of_move [DecidableEq ι] {state next : PluginRegister.State ι} {call : ι}
    {point : AllocPoint}
    (hpoint : next.point = Function.update state.point call point)
    (hrunning : ∀ outcome, state.point call ≠ .returned outcome) (podUid : String) :
    Granted next podUid ↔
      (∃ response, point = .returned (.ok response) ∧ response.Mounts podUid) ∨
        Granted state podUid := by
  constructor
  · intro hgranted
    obtain ⟨other, response, hreturned, hmounts⟩ := hgranted
    rw [hpoint] at hreturned
    by_cases hother : other = call
    · subst hother
      rw [Function.update_self] at hreturned
      exact .inl ⟨response, hreturned, hmounts⟩
    · rw [Function.update_of_ne hother] at hreturned
      exact .inr ⟨other, response, hreturned, hmounts⟩
  · intro hgranted
    rcases hgranted with ⟨response, hreturned, hmounts⟩ | ⟨other, response, hreturned, hmounts⟩
    · refine ⟨call, response, ?_, hmounts⟩
      rw [hpoint, Function.update_self]
      exact hreturned
    · have hother : other ≠ call := fun heq => hrunning _ (heq ▸ hreturned)
      refine ⟨other, response, ?_, hmounts⟩
      rw [hpoint, Function.update_of_ne hother]
      exact hreturned

/-- The copies that calls hold after a call has moved. -/
theorem call_holds_of_move [DecidableEq ι] {state next : PluginRegister.State ι} {call : ι}
    {point : AllocPoint}
    (hpoint : next.point = Function.update state.point call point) {copy : Pod}
    (h : CallHolds next copy) : Sends copy point ∨ CallHolds state copy := by
  obtain ⟨other, hholds⟩ := h
  rw [hpoint] at hholds
  by_cases hother : other = call
  · subst hother
    rw [Function.update_self] at hholds
    exact .inl hholds
  · rw [Function.update_of_ne hother] at hholds
    exact .inr ⟨other, hholds⟩

/-! ## What a step does to the stored pods -/

section Manager

open ResourceManager

variable [Gjson] {cgroupV2 : Bool} {state next : ResourceManager.State}
  {action : ResourceManager.Action}

/-- A handler fetches its copy in the step that asks for it. -/
theorem handler_holds_of_step (hstep : ResourceManager.step cgroupV2 state action = some next)
    {copy : Pod} (h : HandlerHolds next copy) :
    HandlerHolds state copy ∨ ∃ i answer, action = .handler i answer ∧ answer.pod = some copy := by
  obtain ⟨holder, hholder, hpoint⟩ := h
  cases effect_of_step hstep with
  | restart heq =>
      subst heq
      cases hholder
  | modified obj heq | deleted obj heq | deleter i pod _ heq | runPanic heq
  | handlerPanic i answer handler _ _ heq =>
      subst heq
      exact .inl ⟨holder, hholder, hpoint⟩
  | run podMgr run spawn _ heq =>
      subst heq
      cases spawn with
      | none => exact .inl ⟨holder, hholder, hpoint⟩
      | some spawn =>
          cases spawn with
          | deletePodPath pod => exact .inl ⟨holder, hholder, hpoint⟩
          | creatVcudaServer pod =>
              rcases List.mem_append.mp hholder with hold | hnew
              · exact .inl ⟨holder, hold, hpoint⟩
              · obtain rfl := List.mem_singleton.mp hnew
                cases hpoint
  | handler i answer handler vm disk point hhandler hmoves heq =>
      subst heq
      rcases List.mem_or_eq_of_mem_set hholder with hold | rfl
      · exact .inl ⟨holder, hold, hpoint⟩
      · obtain rfl : point = .annotate copy := hpoint
        generalize handler.point = before at hmoves
        cases hmoves with
        | getPod copyPod hanswer => exact .inr ⟨i, answer, rfl, hanswer⟩
  | updated i answer handler copyPod pod hhandler _ heq =>
      subst heq
      rcases List.mem_or_eq_of_mem_set hholder with hold | rfl
      · exact .inl ⟨holder, hold, hpoint⟩
      · cases hpoint

/-- A step sends at most one update: the copy of a handler, marked as ready. -/
theorem sent_of_step (hstep : ResourceManager.step cgroupV2 state action = some next) :
    next.updates = state.updates ∨ ∃ copy, HandlerHolds state copy ∧ copy.annotations.isSome ∧
      next.updates = state.updates ++ [copy.setAnnotation annVCUDAReady "yes"] := by
  cases effect_of_step hstep with
  | restart heq | modified obj heq | deleted obj heq | deleter i pod _ heq | runPanic heq
  | handlerPanic i answer handler _ _ heq | handler i answer handler vm disk point _ _ heq =>
      subst heq
      exact .inl rfl
  | run podMgr run spawn _ heq =>
      subst heq
      rcases spawn with - | - | - <;> exact .inl rfl
  | updated i answer handler copyPod pod hhandler hpoint heq =>
      right
      simp only [ResourceManager.step] at hstep
      split at hstep
      · cases hstep
      · rw [hhandler, Option.bind_some, State.handlerNext, hpoint] at hstep
        by_cases hsome : copyPod.annotations.isSome
        · simp only [creatVcudaServer, if_pos hsome, Option.some.injEq] at hstep
          subst hstep
          exact ⟨copyPod, ⟨handler, List.mem_of_getElem? hhandler, hpoint⟩, hsome, rfl⟩
        · simp only [creatVcudaServer, if_neg hsome, Option.some.injEq] at hstep
          have hsame : (state.updates ++ [pod]).length = state.updates.length :=
            congrArg (fun state => state.updates.length) (heq.symm.trans hstep.symm)
          simp at hsame

end Manager

/-- The changes of the stored pods by others. -/
def Action.external : Action ι → List PodStore
  | .plugin (.pods pods) => [pods]
  | _ => []

/-- What a step does to the stored pods: nothing, a patch of one annotation, or a change by others.
Only the patch that marks a pod as assigned grants its directory. -/
inductive StoreEffect (state next : PluginRegister.State ι) (action : Action ι) :
    List Patch → Prop where
  | quiet : action.external = [] → next.pods = state.pods →
      next.known = state.known → (∀ uid, Granted next uid ↔ Granted state uid) →
      StoreEffect state next action []
  | ready (uid) : action.external = [] →
      annotatePod uid annVCUDAReady "yes" state.pods.items = some next.pods.items →
      next.known = state.known → (∀ uid, Granted next uid ↔ Granted state uid) →
      StoreEffect state next action [.ready uid]
  | assigned (copy) : action.external = [] → CallHolds state copy →
      annotatePod copy.uid annAssignedFlag "true" state.pods.items =
        some next.pods.items →
      next.known = state.known →
      (∀ uid, Granted next uid ↔ uid = copy.uid ∨ Granted state uid) →
      StoreEffect state next action [.assigned copy.uid]
  | others (pods) : action = .plugin (.pods pods) →
      PodChange state.pods state.known pods → next.pods = pods →
      next.known = state.known ++ pods.items.map Pod.uid →
      (∀ uid, Granted next uid ↔ Granted state uid) → StoreEffect state next action [.others pods]

/-- A call that moves without a response does nothing to the stored pods. -/
theorem store_effect_of_move [DecidableEq ι] {state next : PluginRegister.State ι}
    {action : Action ι} {call : ι} {point : AllocPoint} (hexternal : action.external = [])
    (hpoint : next.point = Function.update state.point call point)
    (hpods : next.pods = state.pods) (hknown : next.known = state.known)
    (hrunning : ∀ outcome, state.point call ≠ .returned outcome)
    (hpoint' : ∀ response, point ≠ .returned (.ok response)) :
    StoreEffect state next action [] := by
  refine .quiet hexternal hpods hknown fun uid => (granted_of_move hpoint hrunning uid).trans ?_
  refine or_iff_right fun hgranted => ?_
  obtain ⟨response, hreturned, -⟩ := hgranted
  exact hpoint' response hreturned

section Step

variable [Gjson] {server : ι → VcoreResourceServer} {cgroupV2 : Bool} {state next : System ι}

/-- The manager does nothing to the stored pods, or marks one as ready. -/
theorem store_effect_of_manage {action : Action ι} {managerAction : ResourceManager.Action}
    (h : CopiesInv state) (hexternal : action.external = [])
    (hstep : state.manage cgroupV2 managerAction = some next) :
    ∃ patches, StoreEffect state.plugin next.plugin action patches := by
  obtain ⟨manager, hmanager, rfl⟩ := Option.map_eq_some_iff.mp hstep
  rcases sent_of_step hmanager with hnone | ⟨copy, hholds, hsome, hsent⟩
  · refine ⟨[], .quiet hexternal ?_ rfl fun _ => Iff.rfl⟩
    show receiveUpdates _ (manager.updates.drop _) = _
    rw [hnone, List.drop_length]
    rfl
  · have hpods : receiveUpdates state.plugin.pods
        (manager.updates.drop state.manager.updates.length) =
          (state.plugin.pods.update (copy.setAnnotation annVCUDAReady "yes")).getD
            state.plugin.pods := by
      rw [hsent, List.drop_left]
      rfl
    cases hupdate : state.plugin.pods.update (copy.setAnnotation annVCUDAReady "yes") with
    | none =>
        rw [hupdate, Option.getD_none] at hpods
        exact ⟨[], .quiet hexternal hpods rfl fun _ => Iff.rfl⟩
    | some pods =>
        rw [hupdate, Option.getD_some] at hpods
        refine ⟨[.ready copy.uid], .ready copy.uid hexternal ?_ rfl fun _ => Iff.rfl⟩
        rw [annotate_pod_of_update (h.handler copy hholds).2 hsome hupdate]
        exact congrArg (fun pods => some pods.items) hpods.symm

/-- Every step does one of these to the stored pods. -/
theorem store_effect_of_step [DecidableEq ι] {action : Action ι} (h : CopiesInv state)
    (hstep : step server cgroupV2 state action = some next) :
    ∃ patches, StoreEffect state.plugin next.plugin action patches := by
  cases action with
  | plugin pluginAction =>
      obtain ⟨plugin, hplugin, rfl⟩ := Option.map_eq_some_iff.mp hstep
      cases effect_of_step hplugin with
      | start call devicesIDs answered hidle heq =>
          subst heq
          exact ⟨[], store_effect_of_move rfl rfl rfl rfl (by simp [hidle]) (by simp)⟩
      | ready call answered polls confirmPod pod hwaiting _ heq =>
          subst heq
          exact ⟨[], store_effect_of_move rfl rfl rfl rfl (by simp [hwaiting]) (by simp)⟩
      | again call answered polls confirmPod hwaiting heq =>
          subst heq
          exact ⟨[], store_effect_of_move rfl rfl rfl rfl (by simp [hwaiting]) (by simp)⟩
      | failed _ call outcome hfailed hrunning heq =>
          subst heq
          have hexternal : (Action.plugin pluginAction : Action ι).external = [] := by
            cases pluginAction with
            | pods pods =>
                simp only [PluginRegister.step] at hplugin
                split at hplugin
                · have hpoint : state.plugin.point =
                      Function.update state.plugin.point call (.returned outcome) :=
                    congrArg PluginRegister.State.point (Option.some.inj hplugin)
                  have hreturned : state.plugin.point call = .returned outcome :=
                    (congrFun hpoint call).trans (Function.update_self ..)
                  exact absurd hreturned (hrunning outcome)
                · cases hplugin
            | _ => rfl
          refine ⟨[], store_effect_of_move hexternal rfl rfl rfl hrunning fun response heq => ?_⟩
          exact hfailed response (AllocPoint.returned.inj heq)
      | charge call calls pod gpu hready _ heq =>
          subst heq
          exact ⟨[], store_effect_of_move rfl rfl rfl rfl (by simp [hready]) (by simp)⟩
      | respond call answered pod uuid pods hcharged hupdate heq =>
          subst heq
          have hholds : CallHolds state.plugin pod := ⟨call, by rw [hcharged]; rfl⟩
          obtain ⟨hfresh, hready⟩ := h.call pod hholds
          refine ⟨[.assigned pod.uid], .assigned pod rfl hholds
            (annotate_pod_of_update hfresh.2 (annotations_of_ready hready) hupdate) rfl
            fun uid => ?_⟩
          refine (granted_of_move rfl (by simp [hcharged]) uid).trans (or_congr_left ?_)
          simp [mounts_iff]
      | pods pods hchange heq =>
          subst heq
          exact ⟨[.others pods], .others pods rfl hchange rfl rfl fun _ => Iff.rfl⟩
  | podModified pod | podDeleted pod =>
      simp only [step] at hstep
      split at hstep
      · exact store_effect_of_manage h rfl hstep
      · cases hstep
  | run | handler i ok answered | restart => exact store_effect_of_manage h rfl hstep
  | deleter i =>
      obtain ⟨middle, hmiddle, rfl⟩ := Option.map_eq_some_iff.mp hstep
      have heffect : ∃ patches, StoreEffect state.plugin middle.plugin (.deleter i) patches :=
        store_effect_of_manage h rfl hmiddle
      exact heffect

/-- The manager does not reach the calls. -/
theorem call_holds_of_manage {managerAction : ResourceManager.Action}
    (hstep : state.manage cgroupV2 managerAction = some next) {copy : Pod}
    (hholds : CallHolds next.plugin copy) : CallHolds state.plugin copy := by
  obtain ⟨manager, -, rfl⟩ := Option.map_eq_some_iff.mp hstep
  exact hholds

/-- A copy that a call holds after a step was held before, or is read in the step. -/
theorem call_holds_of_step [DecidableEq ι] {action : Action ι}
    (hstep : step server cgroupV2 state action = some next) {copy : Pod}
    (hholds : CallHolds next.plugin copy) :
    CallHolds state.plugin copy ∨
      copy ∈ state.plugin.pods.items ∧ getVCUDAReadyFromPodAnnotation copy ≠ "" := by
  cases action with
  | plugin pluginAction =>
      obtain ⟨plugin, hplugin, rfl⟩ := Option.map_eq_some_iff.mp hstep
      cases effect_of_step hplugin with
      | start _ _ _ _ heq | again _ _ _ _ _ heq | failed _ _ _ _ _ heq
      | respond _ _ _ _ _ _ _ heq =>
          subst heq
          exact .inl ((call_holds_of_move rfl hholds).resolve_left id)
      | ready call answered polls confirmPod pod _ hready heq =>
          subst heq
          rcases call_holds_of_move rfl hholds with hnew | hold
          · obtain rfl : pod = copy := hnew
            obtain ⟨-, hmarked⟩ := Option.filter_eq_some_iff.mp hready
            exact .inr ⟨(ready_pod_eq_some hready).1, by simpa using hmarked⟩
          · exact .inl hold
      | charge call calls pod gpu hready _ heq =>
          subst heq
          rcases call_holds_of_move rfl hholds with hnew | hold
          · obtain rfl : pod = copy := hnew
            exact .inl ⟨call, by rw [hready]; rfl⟩
          · exact .inl hold
      | pods pods _ heq =>
          subst heq
          exact .inl hholds
  | podModified pod | podDeleted pod =>
      simp only [step] at hstep
      split at hstep
      · exact .inl (call_holds_of_manage hstep hholds)
      · cases hstep
  | run | handler i ok answered | restart => exact .inl (call_holds_of_manage hstep hholds)
  | deleter i =>
      obtain ⟨middle, hmiddle, rfl⟩ := Option.map_eq_some_iff.mp hstep
      exact .inl (call_holds_of_manage hmiddle hholds)

/-- The manager's copies come from the stored pods that it is answered with. -/
theorem handler_holds_of_manage {managerAction : ResourceManager.Action}
    (hanswer : ∀ i answer pod, managerAction = .handler i answer → answer.pod = some pod →
      pod ∈ state.plugin.pods.items)
    (hstep : state.manage cgroupV2 managerAction = some next) {copy : Pod}
    (hholds : HandlerHolds next.manager copy) :
    HandlerHolds state.manager copy ∨ copy ∈ state.plugin.pods.items := by
  obtain ⟨manager, hmanager, rfl⟩ := Option.map_eq_some_iff.mp hstep
  rcases handler_holds_of_step hmanager hholds with hold | ⟨i, answer, haction, hpod⟩
  · exact .inl hold
  · exact .inr (hanswer i answer copy haction hpod)

/-- A handler is answered with a stored pod. -/
theorem answer_stored {i : Nat} {ok answered : Bool} {pod : Pod}
    (h : (state.answer i ok answered).pod = some pod) : pod ∈ state.plugin.pods.items := by
  obtain ⟨-, hpod⟩ := Option.ite_none_right_eq_some.mp h
  obtain ⟨handler, -, hget⟩ := Option.bind_eq_some_iff.mp hpod
  exact (PodStore.get_eq_some hget).1

/-- A copy that a handler holds after a step was held before, or is read in the step. -/
theorem handler_holds_of_system_step [DecidableEq ι] {action : Action ι}
    (hstep : step server cgroupV2 state action = some next) {copy : Pod}
    (hholds : HandlerHolds next.manager copy) :
    HandlerHolds state.manager copy ∨ copy ∈ state.plugin.pods.items := by
  cases action with
  | plugin pluginAction =>
      obtain ⟨plugin, -, rfl⟩ := Option.map_eq_some_iff.mp hstep
      exact .inl hholds
  | podModified pod | podDeleted pod =>
      simp only [step] at hstep
      split at hstep
      · exact handler_holds_of_manage (by simp) hstep hholds
      · cases hstep
  | run | restart => exact handler_holds_of_manage (by simp) hstep hholds
  | handler i ok answered =>
      refine handler_holds_of_manage (fun _ answer pod haction hpod => ?_) hstep hholds
      obtain ⟨rfl, rfl⟩ := ResourceManager.Action.handler.inj haction
      exact answer_stored hpod
  | deleter i =>
      obtain ⟨middle, hmiddle, rfl⟩ := Option.map_eq_some_iff.mp hstep
      exact handler_holds_of_manage (by simp) hmiddle hholds

end Step

/-! ## The refinement -/

/-- Others give what they change a later version. -/
def RenewsVersions (state : System ι) : Action ι → Prop
  | .plugin (.pods pods) => ∀ pod ∈ pods.items, ∀ old ∈ state.plugin.pods.items,
      old.uid = pod.uid → pod = old ∨ old.resourceVersion < pod.resourceVersion
  | _ => True

instance (state : System ι) : ∀ action, Decidable (RenewsVersions state action)
  | .plugin (.pods pods) => inferInstanceAs (Decidable (∀ pod ∈ pods.items, _))
  | .plugin (.start ..) | .plugin (.poll ..) | .plugin (.charge ..) | .plugin (.annotate ..)
  | .podModified _ | .podDeleted _ | .run | .handler .. | .deleter _ | .restart => .isTrue trivial

section Effects

variable {state next : System ι} {action : Action ι} {patches : List Patch}

/-- What a step does to the stored pods renews versions. -/
theorem StoreEffect.renewed (h : StoreEffect state.plugin next.plugin action patches)
    (hrenews : RenewsVersions state action) :
    Renewed Pod.uid Pod.resourceVersion state.plugin.known state.plugin.pods.items
      next.plugin.pods.items := by
  cases h with
  | quiet _ hpods =>
      rw [hpods]
      exact Renewed.refl _ _
  | ready uid _ hpatch => exact renewed_annotate _ hpatch
  | assigned copy _ _ hpatch => exact renewed_annotate _ hpatch
  | others pods haction hchange hpods =>
      subst haction
      rw [hpods]
      intro pod hpod
      rcases hchange pod hpod with ⟨old, hold, huid, -⟩ | hnew
      · rcases hrenews pod hpod old hold huid with rfl | hlater
        · exact .inl hold
        · exact .inr (.inl ⟨old, hold, huid, hlater⟩)
      · exact .inr (.inr hnew)

/-- The stored pods are known after a step, and what was known still is. -/
theorem StoreEffect.known (h : StoreEffect state.plugin next.plugin action patches)
    (hstored : ∀ pod ∈ state.plugin.pods.items, pod.uid ∈ state.plugin.known) :
    (∀ pod ∈ next.plugin.pods.items, pod.uid ∈ next.plugin.known) ∧
      ∀ uid ∈ state.plugin.known, uid ∈ next.plugin.known := by
  cases h with
  | quiet _ hpods hknown =>
      rw [hpods, hknown]
      exact ⟨hstored, fun _ => id⟩
  | ready uid _ hpatch hknown | assigned copy _ _ hpatch hknown =>
      rw [hknown]
      refine ⟨fun pod hpod => ?_, fun _ => id⟩
      obtain ⟨old, hold, huid, -⟩ := annotated_back hpatch hpod
      exact huid ▸ hstored old hold
  | others pods _ _ hpods hknown =>
      rw [hpods, hknown]
      refine ⟨fun pod hpod => ?_, fun uid huid => List.mem_append_left _ huid⟩
      exact List.mem_append_right _ (List.mem_map_of_mem hpod)

/-- A step performs its patches. -/
theorem StoreEffect.performed (h : StoreEffect state.plugin next.plugin action patches) :
    exec Patch.step state.plugin.pods.items patches = some next.plugin.pods.items ∧
      patches.flatMap Patch.external = action.external := by
  cases h with
  | quiet hexternal hpods => exact ⟨by rw [hpods]; rfl, hexternal.symm⟩
  | ready uid hexternal hpatch =>
      exact ⟨exec_cons_eq_some.mpr ⟨_, hpatch, rfl⟩, hexternal.symm⟩
  | assigned copy hexternal _ hpatch =>
      exact ⟨exec_cons_eq_some.mpr ⟨_, hpatch, rfl⟩, hexternal.symm⟩
  | others pods haction _ hpods =>
      subst haction
      exact ⟨by rw [hpods]; rfl, rfl⟩

end Effects

/-- A copy that is read is current. -/
theorem fresh_of_mem {state : PluginRegister.State ι}
    (hstored : ∀ pod ∈ state.pods.items, pod.uid ∈ state.known) {copy : Pod}
    (hcopy : copy ∈ state.pods.items) : Fresh state copy :=
  ⟨hstored copy hcopy, current_of_mem state.pods.uids_nodup hcopy⟩

/-- Every step keeps the copies current. -/
theorem copies_inv_step [DecidableEq ι] [Gjson] {server : ι → VcoreResourceServer} {cgroupV2 : Bool}
    {state next : System ι} {action : Action ι} {patches : List Patch} (h : CopiesInv state)
    (hrenews : RenewsVersions state action)
    (heffect : StoreEffect state.plugin next.plugin action patches)
    (hstep : step server cgroupV2 state action = some next) : CopiesInv next := by
  obtain ⟨hstored, hknown⟩ := heffect.known h.stored
  have hkept : ∀ copy, Fresh state.plugin copy → Fresh next.plugin copy := fun copy hfresh =>
    ⟨hknown copy.uid hfresh.1, hfresh.2.renewed hfresh.1 (heffect.renewed hrenews)⟩
  refine ⟨hstored, fun copy hholds => ?_, fun copy hholds => ?_⟩
  · rcases call_holds_of_step hstep hholds with hold | ⟨hread, hready⟩
    · obtain ⟨hfresh, hready⟩ := h.call copy hold
      exact ⟨hkept copy hfresh, hready⟩
    · exact ⟨hkept copy (fresh_of_mem h.stored hread), hready⟩
  · rcases handler_holds_of_system_step hstep hholds with hold | hread
    · exact hkept copy (h.handler copy hold)
    · exact hkept copy (fresh_of_mem h.stored hread)

/-- Nothing is held at the start. -/
theorem copies_inv_initial (pods : PodStore) (gpus : GpuStore) :
    CopiesInv (System.initial ι pods gpus) := by
  refine ⟨fun pod hpod => List.mem_map_of_mem hpod, fun copy hholds => ?_, fun copy hholds => ?_⟩
  · obtain ⟨call, hholds⟩ := hholds
    exact hholds.elim
  · obtain ⟨handler, hhandler, -⟩ := hholds
    cases hhandler

/-- The stored pods are as the patches leave them, the patches contain the changes by others in
their order, and the pods marked as assigned are those whose directory has been granted. -/
structure PatchedBy (state : System ι) (changes : List PodStore) (items : List Pod)
    (patches : List Patch) : Prop where
  copies : CopiesInv state
  items : items = state.plugin.pods.items
  changes : patches.flatMap Patch.external = changes
  granted : ∀ uid, Patch.assigned uid ∈ patches ↔ Granted state.plugin uid

/-- A step adds its patch, if it has one. -/
theorem patched_by_step [DecidableEq ι] [Gjson] {server : ι → VcoreResourceServer} {cgroupV2 : Bool}
    {state next : System ι} {action : Action ι} {changes : List PodStore} {items : List Pod}
    {patches : List Patch} (h : PatchedBy state changes items patches)
    (hrenews : RenewsVersions state action)
    (hstep : step server cgroupV2 state action = some next) :
    ∃ others following, exec Patch.step items others = some following ∧
      PatchedBy next (changes ++ action.external) following (patches ++ others) := by
  obtain ⟨others, heffect⟩ := store_effect_of_step h.copies hstep
  obtain ⟨hexec, hexternal⟩ := heffect.performed
  rw [← h.items] at hexec
  refine ⟨others, _, hexec, copies_inv_step h.copies hrenews heffect hstep, rfl, ?_, fun uid => ?_⟩
  · rw [List.flatMap_append, h.changes, hexternal]
  · rw [List.mem_append, h.granted uid]
    cases heffect with
    | quiet _ _ _ hgranted => simp [hgranted uid]
    | ready _ _ _ _ hgranted => simp [hgranted uid]
    | assigned copy _ _ _ _ hgranted => simp [hgranted uid, or_comm]
    | others pods _ _ _ _ hgranted => simp [hgranted uid]

/-! ## A race -/

/-- The pod after the manager has marked it ready and somebody else has changed its status. -/
def changedPod : Pod :=
  { patched annVCUDAReady "yes" ResourceManager.scheduledPod with
    resourceVersion := 3
    containerStatuses := [⟨"main", ""⟩] }

/-- The pods after that. -/
def changedPods : PodStore where
  items := [changedPod]
  keys_nodup := by decide
  uids_nodup := by decide
  named := by decide

/-- The pod changes between the poll of a call and its update, which is refused; the call that is
made instead succeeds. -/
def racedCalls : List (Action String) :=
  List.flatten
    [[.podModified ResourceManager.scheduledPod], List.replicate 3 .run,
      List.replicate 7 (.handler 0 true true),
      [.plugin (.start "first" tenDevices true), .plugin (.poll "first" true),
        .plugin (.pods changedPods), .plugin (.charge "first" .answered),
        .plugin (.annotate "first" true)],
      (answeredCall "second" tenDevices).map .plugin]

/-- What the two calls leave: one version for each change of the pod, and one response. -/
theorem raced_calls_run :
    letI := Gjson.reader
    (exec (step nodeServer false) (System.initial String onePod freshStore) racedCalls).map
        (fun state => (state.plugin.pods.items.map fun pod => (pod.uid, pod.resourceVersion),
          state.plugin.point "first", state.plugin.point "second")) =
      some ([("uid-a", 4)], .returned (.error "failed to update pod annotation"),
        .returned (.ok (allocResp "uid-a" 0))) := by
  decide +kernel

/-- The change in that run renews the version of the pod. -/
theorem raced_calls_renew :
    letI := Gjson.reader
    Along (step nodeServer false) RenewsVersions (System.initial String onePod freshStore)
      racedCalls := by
  decide +kernel

/-! ## Whole runs -/

/-- When others renew versions, the stored pods of every run are what atomic patches of single
annotations make of the first ones, between the changes by others: whatever happens between a fetch
and the update that sends the copy back, the update changes one annotation of the stored pod or
nothing. The pods that are marked as assigned are exactly those whose directory a call has granted.
-/
theorem updates_refine_patches [DecidableEq ι] [Gjson] (server : ι → VcoreResourceServer)
    (cgroupV2 : Bool) (pods : PodStore) (gpus : GpuStore) (actions : List (Action ι))
    (hrenews : Along (step server cgroupV2) RenewsVersions (System.initial ι pods gpus) actions)
    (state : System ι)
    (hrun : exec (step server cgroupV2) (System.initial ι pods gpus) actions = some state) :
    ∃ patches, exec Patch.step pods.items patches = some state.plugin.pods.items ∧
      patches.flatMap Patch.external = actions.flatMap Action.external ∧
      ∀ uid, Patch.assigned uid ∈ patches ↔ Granted state.plugin uid := by
  have hmatch : ∀ (state : System ι) changes items patches action next,
      PatchedBy state changes items patches →
      restricted (step server cgroupV2) RenewsVersions state action = some next →
      ∃ others following, exec Patch.step items others = some following ∧
        PatchedBy next (changes ++ action.external) following
          (patches ++ others.flatMap fun patch => [patch]) := by
    intro state changes items patches action next h hstep
    obtain ⟨hrenews, hstep⟩ := Option.ite_none_right_eq_some.mp hstep
    obtain ⟨others, following, hexec, hnext⟩ := patched_by_step h hrenews hstep
    exact ⟨others, following, hexec, by rwa [List.flatMap_singleton']⟩
  have hinitial : PatchedBy (System.initial ι pods gpus) [] pods.items [] := by
    refine ⟨copies_inv_initial pods gpus, rfl, rfl, fun uid => ?_⟩
    simp [Granted, System.initial, PluginRegister.State.initial]
  obtain ⟨patches, items, hexec, hfinal⟩ :=
    exec_matched_recorded hmatch hinitial (exec_restricted hrenews hrun)
  rw [List.flatMap_singleton'] at hfinal
  exact ⟨patches, by rw [hexec, hfinal.items], hfinal.changes, hfinal.granted⟩

/-- The two marks and the change between them are the patches of that run. -/
theorem updates_refine_patches_raced :
    letI := Gjson.reader
    ∃ state, exec (step nodeServer false) (System.initial String onePod freshStore) racedCalls =
        some state ∧
      ∃ patches, exec Patch.step onePod.items patches = some state.plugin.pods.items ∧
        patches.flatMap Patch.external = racedCalls.flatMap Action.external ∧
        ∀ uid, Patch.assigned uid ∈ patches ↔ Granted state.plugin uid := by
  let reader := Gjson.reader
  obtain ⟨state, hstate, -⟩ := Option.map_eq_some_iff.mp raced_calls_run
  exact ⟨state, hstate, updates_refine_patches nodeServer false onePod freshStore racedCalls
    raced_calls_renew state hstate⟩

/-! ## The marks of a pod -/

/-- The pod is marked as assigned. -/
def Assigned (pod : Pod) : Prop := pod.annotation annAssignedFlag = some "true"

/-- The pod is marked as ready. -/
def Ready (pod : Pod) : Prop := getVCUDAReadyFromPodAnnotation pod ≠ ""

instance (pod : Pod) : Decidable (Assigned pod) := inferInstanceAs (Decidable (_ = _))

instance (pod : Pod) : Decidable (Ready pod) := inferInstanceAs (Decidable (_ ≠ _))

/-- Others do not take the marks of a pod away. -/
def KeepsMarks (state : System ι) : Action ι → Prop
  | .plugin (.pods pods) => ∀ pod ∈ pods.items, ∀ old ∈ state.plugin.pods.items,
      old.uid = pod.uid → (Assigned old → Assigned pod) ∧ (Ready old → Ready pod)
  | _ => True

instance (state : System ι) : ∀ action, Decidable (KeepsMarks state action)
  | .plugin (.pods pods) => inferInstanceAs (Decidable (∀ pod ∈ pods.items, _))
  | .plugin (.start ..) | .plugin (.poll ..) | .plugin (.charge ..) | .plugin (.annotate ..)
  | .podModified _ | .podDeleted _ | .run | .handler .. | .deleter _ | .restart => .isTrue trivial

/-- A pod with annotations that is marked as assigned is so, and stays ready. -/
theorem marks_of_assigned {pod : Pod} (hsome : pod.annotations.isSome) :
    Assigned (patched annAssignedFlag "true" pod) ∧
      (Ready pod → Ready (patched annAssignedFlag "true" pod)) := by
  have hassigned := annotation_set_annotation hsome annAssignedFlag "true"
  refine ⟨hassigned, fun hready => ?_⟩
  have hsame : Pod.annotation (patched annAssignedFlag "true" pod) annVCUDAReady =
      pod.annotation annVCUDAReady :=
    annotation_set_annotation_of_ne (by decide) "true"
  rwa [Ready, getVCUDAReadyFromPodAnnotation, hsame]

/-- A pod with annotations that is marked as ready is so, and stays assigned. -/
theorem marks_of_ready {pod : Pod} (hsome : pod.annotations.isSome) :
    Ready (patched annVCUDAReady "yes" pod) ∧
      (Assigned pod → Assigned (patched annVCUDAReady "yes" pod)) := by
  have hset : Pod.annotation (patched annVCUDAReady "yes" pod) annVCUDAReady = some "yes" :=
    annotation_set_annotation hsome annVCUDAReady "yes"
  refine ⟨by simp [Ready, getVCUDAReadyFromPodAnnotation, hset], fun hassigned => ?_⟩
  exact (annotation_set_annotation_of_ne (by decide) "yes").trans hassigned

/-- An annotation that a pod has is in its map. -/
theorem annotations_of_assigned {pod : Pod} (h : Assigned pod) : pod.annotations.isSome := by
  cases hannotations : pod.annotations with
  | some annotations => rfl
  | none => simp [Assigned, Pod.annotation, hannotations] at h

/-- A pod that is stored after a step and was known before was stored, and keeps its marks. -/
theorem StoreEffect.marks {state next : System ι} {action : Action ι} {patches : List Patch}
    (h : StoreEffect state.plugin next.plugin action patches) (hkeeps : KeepsMarks state action)
    {pod : Pod} (hpod : pod ∈ next.plugin.pods.items) (hknown : pod.uid ∈ state.plugin.known) :
    ∃ old ∈ state.plugin.pods.items, old.uid = pod.uid ∧
      (Assigned old → Assigned pod) ∧ (Ready old → Ready pod) := by
  cases h with
  | quiet _ hpods => exact ⟨pod, hpods ▸ hpod, rfl, id, id⟩
  | ready uid _ hpatch =>
      obtain ⟨old, hold, huid, hnext⟩ := annotated_back hpatch hpod
      refine ⟨old, hold, huid, ?_⟩
      split at hnext
      · subst hnext
        exact ⟨fun h => (marks_of_ready (annotations_of_assigned h)).2 h,
          fun h => (marks_of_ready (annotations_of_ready h)).1⟩
      · subst hnext
        exact ⟨id, id⟩
  | assigned copy _ _ hpatch =>
      obtain ⟨old, hold, huid, hnext⟩ := annotated_back hpatch hpod
      refine ⟨old, hold, huid, ?_⟩
      split at hnext
      · subst hnext
        exact ⟨fun h => (marks_of_assigned (annotations_of_assigned h)).1,
          fun h => (marks_of_assigned (annotations_of_ready h)).2 h⟩
      · subst hnext
        exact ⟨id, id⟩
  | others pods haction hchange hpods =>
      subst haction
      rw [hpods] at hpod
      rcases hchange pod hpod with ⟨old, hold, huid, -⟩ | hnew
      · exact ⟨old, hold, huid, hkeeps pod hpod old hold huid⟩
      · exact absurd hknown hnew

/-- The copies are current; a pod whose copy a call holds is ready, and a pod whose directory is
granted is ready and assigned. -/
structure MarksInv (state : System ι) : Prop where
  copies : CopiesInv state
  held : ∀ copy, CallHolds state.plugin copy → ∀ pod ∈ state.plugin.pods.items,
    pod.uid = copy.uid → Ready pod
  known : ∀ uid, Granted state.plugin uid → uid ∈ state.plugin.known
  granted : ∀ pod ∈ state.plugin.pods.items, Granted state.plugin pod.uid →
    Assigned pod ∧ Ready pod

/-- A directory that is granted was granted before, or the step marks its pod as assigned. -/
theorem grant_cases {state next : System ι} {action : Action ι} {patches : List Patch}
    (heffect : StoreEffect state.plugin next.plugin action patches) {uid : String}
    (hgranted : Granted next.plugin uid) :
    Granted state.plugin uid ∨ ∃ copy, copy.uid = uid ∧ CallHolds state.plugin copy ∧
      annotatePod uid annAssignedFlag "true" state.plugin.pods.items =
        some next.plugin.pods.items := by
  cases heffect with
  | quiet _ _ _ hsame => exact .inl ((hsame uid).mp hgranted)
  | ready _ _ _ _ hsame => exact .inl ((hsame uid).mp hgranted)
  | others _ _ _ _ _ hsame => exact .inl ((hsame uid).mp hgranted)
  | assigned copy _ hholds hpatch _ hnew =>
      rcases (hnew uid).mp hgranted with rfl | hold
      · exact .inr ⟨copy, rfl, hholds, hpatch⟩
      · exact .inl hold

/-- Every step keeps the marks. -/
theorem marks_inv_step [DecidableEq ι] [Gjson] {server : ι → VcoreResourceServer} {cgroupV2 : Bool}
    {state next : System ι} {action : Action ι} (h : MarksInv state)
    (hrenews : RenewsVersions state action) (hkeeps : KeepsMarks state action)
    (hstep : step server cgroupV2 state action = some next) : MarksInv next := by
  obtain ⟨patches, heffect⟩ := store_effect_of_step h.copies hstep
  obtain ⟨-, hknown⟩ := heffect.known h.copies.stored
  refine ⟨copies_inv_step h.copies hrenews heffect hstep, fun copy hholds pod hpod huid => ?_,
    fun uid hgranted => ?_, fun pod hpod hgranted => ?_⟩
  · rcases call_holds_of_step hstep hholds with hold | ⟨hread, hready⟩
    · have hpodKnown : pod.uid ∈ state.plugin.known := huid ▸ (h.copies.call copy hold).1.1
      obtain ⟨old, hstored, holdUid, -, hkept⟩ := heffect.marks hkeeps hpod hpodKnown
      exact hkept (h.held copy hold old hstored (holdUid.trans huid))
    · have hpodKnown : pod.uid ∈ state.plugin.known := huid ▸ h.copies.stored copy hread
      obtain ⟨old, hstored, holdUid, -, hkept⟩ := heffect.marks hkeeps hpod hpodKnown
      obtain rfl := state.plugin.pods.eq_of_uid hstored hread (holdUid.trans huid)
      exact hkept hready
  · rcases grant_cases heffect hgranted with hold | ⟨copy, rfl, hholds, -⟩
    · exact hknown uid (h.known uid hold)
    · exact hknown copy.uid (h.copies.call copy hholds).1.1
  · rcases grant_cases heffect hgranted with hold | ⟨copy, huid, hholds, hpatch⟩
    · obtain ⟨old, hstored, holdUid, hassigned, hready⟩ :=
        heffect.marks hkeeps hpod (h.known pod.uid hold)
      have hmarks := h.granted old hstored (holdUid ▸ hold)
      exact ⟨hassigned hmarks.1, hready hmarks.2⟩
    · obtain ⟨old, hstored, holdUid, hnext⟩ := annotated_back hpatch hpod
      have hready := h.held copy hholds old hstored (holdUid.trans huid.symm)
      have hmarks := marks_of_assigned (annotations_of_ready hready)
      rw [hnext, if_pos rfl]
      exact ⟨hmarks.1, hmarks.2 hready⟩

/-- When others renew versions and leave the marks alone, a pod whose directory has been granted
stays marked as assigned and as ready for as long as it is stored. -/
theorem granted_pods_marked [DecidableEq ι] [Gjson] (server : ι → VcoreResourceServer)
    (cgroupV2 : Bool) (pods : PodStore) (gpus : GpuStore) (actions : List (Action ι))
    (hrenews : Along (step server cgroupV2) RenewsVersions (System.initial ι pods gpus) actions)
    (hkeeps : Along (step server cgroupV2) KeepsMarks (System.initial ι pods gpus) actions)
    (state : System ι)
    (hrun : exec (step server cgroupV2) (System.initial ι pods gpus) actions = some state) :
    ∀ pod ∈ state.plugin.pods.items, Granted state.plugin pod.uid → Assigned pod ∧ Ready pod := by
  have hnone : ∀ uid, ¬ Granted (System.initial ι pods gpus).plugin uid := by
    simp [Granted, System.initial, PluginRegister.State.initial]
  have hinitial : MarksInv (System.initial ι pods gpus) := by
    refine ⟨copies_inv_initial pods gpus, fun copy hholds => ?_, fun uid h => absurd h (hnone uid),
      fun pod _ h => absurd h (hnone pod.uid)⟩
    obtain ⟨call, hholds⟩ := hholds
    exact hholds.elim
  have hinv : MarksInv state :=
    exec_invariant_along (fun _ _ _ h hcond hstep => marks_inv_step h hcond.1 hcond.2 hstep)
      hinitial (hrenews.and hkeeps) hrun
  exact hinv.granted

/-- The change in that run keeps the marks of the pod. -/
theorem raced_calls_keep :
    letI := Gjson.reader
    Along (step nodeServer false) KeepsMarks (System.initial String onePod freshStore)
      racedCalls := by
  decide +kernel

/-- The pod has both marks after the second call. -/
theorem granted_pods_marked_raced :
    letI := Gjson.reader
    ∃ state, exec (step nodeServer false) (System.initial String onePod freshStore) racedCalls =
        some state ∧
      ∃ pod ∈ state.plugin.pods.items, Granted state.plugin pod.uid ∧ Assigned pod ∧ Ready pod := by
  let reader := Gjson.reader
  obtain ⟨state, hstate, hleft⟩ := Option.map_eq_some_iff.mp raced_calls_run
  simp only [Prod.mk.injEq] at hleft
  obtain ⟨hitems, -, hsecond⟩ := hleft
  obtain ⟨pod, hitem⟩ := List.length_eq_one_iff.mp
    (by simpa using congrArg List.length hitems : state.plugin.pods.items.length = 1)
  have huid : pod.uid = "uid-a" := by
    rw [hitem] at hitems
    exact (Prod.mk.inj (List.singleton_inj.mp hitems)).1
  have hgranted : Granted state.plugin pod.uid :=
    ⟨"second", _, hsecond, mounts_iff.mpr huid⟩
  have hpod : pod ∈ state.plugin.pods.items := by simp [hitem]
  exact ⟨state, hstate, pod, hpod, hgranted, granted_pods_marked nodeServer false onePod freshStore
    racedCalls raced_calls_renew raced_calls_keep state hstate pod hpod hgranted⟩

end UniShare.Lifecycle
