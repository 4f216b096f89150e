import UniShare.PluginRegister.Vcore

/-!
# Pods and the calls that bind them

When two `Allocate` calls bind one pod. A pod stays pending after its call has returned, and the
choice looks at no annotation, so a later call for a pod with the same request can pick it again.
`bound_once` says that no pod is bound twice in a run in which no call picks a pod that has been
charged already or that a running call may still charge.
-/

namespace UniShare.PluginRegister

open Lib DeviceInfo Kube PodWatch

variable {ι : Type}

/-- The UIDs of the pods whose requests have been charged, one for each charge. -/
def State.chargedUids (state : State ι) : List String :=
  state.charges.map fun charge => charge.pod.uid

/-- The response mounts the directory of this pod. -/
def AllocateResponse.Mounts (response : AllocateResponse) (podUid : String) : Prop :=
  ∃ cont ∈ response.containerResponses, ∃ mount ∈ cont.mounts,
    mount.hostPath = hostFilePath podUid

/-- No pod's directory is mounted by two calls, and no pod's request is charged twice. -/
structure BoundOnce (state : State ι) : Prop where
  mounted : ∀ call other response response' podUid,
    state.point call = .returned (.ok response) → state.point other = .returned (.ok response') →
      response.Mounts podUid → response'.Mounts podUid → call = other
  charged : state.chargedUids.Nodup

/-- A call at this point may still charge the request of the stored pod with this UID. -/
def AllocPoint.MayCharge (pods : PodStore) (podUid : String) : AllocPoint → Prop
  | .waiting _ (some confirmPod) =>
      ∃ pod ∈ pods.items, pod.key = confirmPod.key ∧ pod.uid = podUid
  | .ready pod => pod.uid = podUid
  | _ => False

/-- A call at this point waits for the pod of this key. -/
def AllocPoint.Awaits (key : String × String) : AllocPoint → Prop
  | .waiting _ (some confirmPod) => confirmPod.key = key
  | _ => False

/-- When a call starts, the pod that its rule picks has not been charged, and no other call may
charge it. -/
def UnboundPick (server : ι → VcoreResourceServer) (state : State ι) : Action ι → Prop
  | .start call devicesIDs answered =>
      ∀ pod, Picks resourceCore
          (getPendingPodOnNode answered (server call).nodeName state.pods) devicesIDs.length pod →
        pod.uid ∉ state.chargedUids ∧
          ∀ other, ¬ (state.point other).MayCharge state.pods pod.uid
  | _ => True

instance (pods : PodStore) (podUid : String) :
    ∀ point : AllocPoint, Decidable (point.MayCharge pods podUid)
  | .waiting _ (some _) => inferInstanceAs (Decidable (∃ pod ∈ pods.items, _))
  | .ready pod => inferInstanceAs (Decidable (pod.uid = podUid))
  | .waiting _ none | .idle | .charged .. | .returned _ => .isFalse id

instance [Fintype ι] (server : ι → VcoreResourceServer) (state : State ι) :
    ∀ action, Decidable (UnboundPick server state action)
  | .start call devicesIDs answered =>
      decidable_of_iff
        (∀ pod ∈ choosePod resourceCore
            (getPendingPodOnNode answered (server call).nodeName state.pods) devicesIDs.length,
          pod.uid ∉ state.chargedUids ∧ ∀ other, ¬ (state.point other).MayCharge state.pods pod.uid)
        (forall_congr' fun _ => imp_congr_left choose_pod_eq_some_iff)
  | .poll .. | .charge .. | .annotate .. | .pods _ => .isTrue trivial

/-- The invariant of such a run. -/
structure BindingInv (state : State ι) : Prop where
  charged_nodup : state.chargedUids.Nodup
  not_charged : ∀ call podUid, (state.point call).MayCharge state.pods podUid →
    podUid ∉ state.chargedUids
  one_call : ∀ call other podUid, (state.point call).MayCharge state.pods podUid →
    (state.point other).MayCharge state.pods podUid → call = other
  one_waiting : ∀ call other key, (state.point call).Awaits key → (state.point other).Awaits key →
    call = other
  stored_known : ∀ pod ∈ state.pods.items, pod.uid ∈ state.known
  ready_known : ∀ call pod, state.point call = .ready pod → pod.uid ∈ state.known
  charged_known : ∀ podUid ∈ state.chargedUids, podUid ∈ state.known

/-- A call that waits for a stored pod may charge it. -/
theorem may_charge_of_awaits {pods : PodStore} {pod : Pod} (hpod : pod ∈ pods.items)
    {point : AllocPoint} (h : point.Awaits pod.key) : point.MayCharge pods pod.uid := by
  match point with
  | .waiting _ (some confirmPod) => exact ⟨pod, hpod, Eq.symm h, rfl⟩

/-- At most one call is at a point with a property, after one call has moved. -/
theorem exclusive_update [DecidableEq ι] {property : AllocPoint → Prop} {point : ι → AllocPoint}
    {call : ι} {moved : AllocPoint}
    (hold : ∀ first second, property (point first) → property (point second) → first = second)
    (hmoved : property moved → ∀ other, other ≠ call → ¬ property (point other))
    {first second : ι} (hfirst : property (Function.update point call moved first))
    (hsecond : property (Function.update point call moved second)) : first = second := by
  by_cases heq : first = call <;> by_cases heq' : second = call
  · exact heq.trans heq'.symm
  · subst heq
    rw [Function.update_self] at hfirst
    rw [Function.update_of_ne heq'] at hsecond
    exact absurd hsecond (hmoved hfirst second heq')
  · subst heq'
    rw [Function.update_self] at hsecond
    rw [Function.update_of_ne heq] at hfirst
    exact absurd hfirst (hmoved hsecond first heq)
  · rw [Function.update_of_ne heq] at hfirst
    rw [Function.update_of_ne heq'] at hsecond
    exact hold first second hfirst hsecond

/-- A call that moves to a point from which it may charge no pod of another call keeps the
invariant. -/
theorem binding_inv_move [DecidableEq ι] {state next : State ι} (h : BindingInv state) {call : ι}
    {point : AllocPoint} (hpoint : next.point = Function.update state.point call point)
    (hpods : next.pods = state.pods) (hknown : next.known = state.known)
    (hcharges : next.charges = state.charges)
    (hmay : ∀ podUid, point.MayCharge state.pods podUid → podUid ∉ state.chargedUids ∧
      ∀ other, other ≠ call → ¬ (state.point other).MayCharge state.pods podUid)
    (hawaits : ∀ key, point.Awaits key → ∀ other, other ≠ call → ¬ (state.point other).Awaits key)
    (hready : ∀ pod, point = .ready pod → pod.uid ∈ state.known) : BindingInv next := by
  have huids : next.chargedUids = state.chargedUids := by rw [State.chargedUids, hcharges]; rfl
  refine ⟨huids ▸ h.charged_nodup, ?_, ?_, ?_, ?_, ?_, ?_⟩
  · intro other podUid hother
    rw [hpods, hpoint] at hother
    rw [huids]
    by_cases heq : other = call
    · subst heq
      rw [Function.update_self] at hother
      exact (hmay podUid hother).1
    · rw [Function.update_of_ne heq] at hother
      exact h.not_charged other podUid hother
  · intro first second podUid hfirst hsecond
    rw [hpods, hpoint] at hfirst hsecond
    exact exclusive_update (fun first second => h.one_call first second podUid)
      (fun hnew => (hmay podUid hnew).2) hfirst hsecond
  · intro first second key hfirst hsecond
    rw [hpoint] at hfirst hsecond
    exact exclusive_update (fun first second => h.one_waiting first second key) (hawaits key)
      hfirst hsecond
  · rw [hpods, hknown]
    exact h.stored_known
  · intro other pod hother
    rw [hpoint] at hother
    rw [hknown]
    by_cases heq : other = call
    · subst heq
      rw [Function.update_self] at hother
      exact hready pod hother
    · rw [Function.update_of_ne heq] at hother
      exact h.ready_known other pod hother
  · rw [huids, hknown]
    exact h.charged_known

/-- A call that moves and may charge and await no more than before keeps the invariant. -/
theorem binding_inv_shrink [DecidableEq ι] {state : State ι} (h : BindingInv state) (call : ι)
    {point : AllocPoint}
    (hmay : ∀ podUid, point.MayCharge state.pods podUid →
      (state.point call).MayCharge state.pods podUid)
    (hawaits : ∀ key, point.Awaits key → (state.point call).Awaits key)
    (hready : ∀ pod, point = .ready pod → pod.uid ∈ state.known) :
    BindingInv (state.setPoint call point) := by
  refine binding_inv_move h rfl rfl rfl rfl (fun podUid hnew => ?_)
    (fun key hnew other hne hother => ?_) hready
  · have hold := hmay podUid hnew
    refine ⟨h.not_charged call podUid hold, fun other hne hother => hne ?_⟩
    exact h.one_call other call podUid hother hold
  · exact hne (h.one_waiting other call key hother (hawaits key hnew))

/-- Changes of the stored pods keep the invariant. -/
theorem binding_inv_pods {state : State ι} (h : BindingInv state) {pods : PodStore}
    {known : List String} (hchange : PodChange state.pods state.known pods)
    (hknown : ∀ podUid ∈ state.known, podUid ∈ known)
    (hstored : ∀ pod ∈ pods.items, pod.uid ∈ known) :
    BindingInv { state with pods, known } := by
  -- a known UID that a call may charge now, it could charge before
  have hback : ∀ call podUid, podUid ∈ state.known → (state.point call).MayCharge pods podUid →
      (state.point call).MayCharge state.pods podUid := by
    intro call podUid hold hmay
    cases hpoint : state.point call with
    | waiting polls confirmPod =>
        rw [hpoint] at hmay
        match confirmPod with
        | none => exact hmay
        | some confirmPod =>
            obtain ⟨pod, hpod, hkey, rfl⟩ := hmay
            rcases hchange pod hpod with ⟨old, holdMem, huid, hsame⟩ | hfresh
            · exact ⟨old, holdMem, hsame.trans hkey, huid⟩
            · exact absurd hold hfresh
    | _ =>
        rw [hpoint] at hmay
        exact hmay
  refine ⟨h.charged_nodup, ?_, ?_, h.one_waiting, hstored, ?_, ?_⟩
  · intro call podUid hmay hcharged
    exact h.not_charged call podUid (hback call podUid (h.charged_known podUid hcharged) hmay)
      hcharged
  · intro call other podUid hcall hother
    by_cases hold : podUid ∈ state.known
    · exact h.one_call call other podUid (hback call podUid hold hcall)
        (hback other podUid hold hother)
    · -- an unknown UID belongs to a new pod, for whose key at most one call waits
      have hwaits : ∀ caller, (state.point caller).MayCharge pods podUid →
          ∃ pod ∈ pods.items, pod.uid = podUid ∧ (state.point caller).Awaits pod.key := by
        intro caller hmay
        cases hpoint : state.point caller with
        | waiting polls confirmPod =>
            rw [hpoint] at hmay
            match confirmPod with
            | none => exact hmay.elim
            | some confirmPod =>
                obtain ⟨pod, hpod, hkey, huid⟩ := hmay
                exact ⟨pod, hpod, huid, hkey.symm⟩
        | ready pod =>
            rw [hpoint] at hmay
            exact absurd (hmay ▸ h.ready_known caller pod hpoint) hold
        | _ =>
            rw [hpoint] at hmay
            exact hmay.elim
      obtain ⟨pod, hpod, huid, hawaits⟩ := hwaits call hcall
      obtain ⟨pod', hpod', huid', hawaits'⟩ := hwaits other hother
      obtain rfl := pods.eq_of_uid hpod hpod' (huid.trans huid'.symm)
      exact h.one_waiting call other _ hawaits hawaits'
  · exact fun call pod hpoint => hknown _ (h.ready_known call pod hpoint)
  · exact fun podUid hmem => hknown podUid (h.charged_known podUid hmem)

/-- A charge for a known pod that has not been charged, and that no call may charge any more, keeps
the invariant. -/
theorem binding_inv_charge {state : State ι} (h : BindingInv state) {gpus : GpuStore}
    (charge : Charge ι) (hnew : charge.pod.uid ∉ state.chargedUids)
    (hnone : ∀ call, ¬ (state.point call).MayCharge state.pods charge.pod.uid)
    (hknown : charge.pod.uid ∈ state.known) :
    BindingInv { state with gpus, charges := state.charges ++ [charge] } := by
  have huids : ∀ podUid, podUid ∈ (state.charges ++ [charge]).map (fun entry => entry.pod.uid) →
      podUid ∈ state.chargedUids ∨ podUid = charge.pod.uid := by
    intro podUid hmem
    simpa [State.chargedUids] using hmem
  refine ⟨?_, ?_, h.one_call, h.one_waiting, h.stored_known, h.ready_known, ?_⟩
  · show ((state.charges ++ [charge]).map fun entry => entry.pod.uid).Nodup
    rw [List.map_append, List.nodup_append]
    refine ⟨h.charged_nodup, by simp, fun podUid hmem other hother => ?_⟩
    obtain rfl : other = charge.pod.uid := by simpa using hother
    exact fun heq => hnew (heq ▸ hmem)
  · intro call podUid hmay hmem
    rcases huids podUid hmem with hold | rfl
    · exact h.not_charged call podUid hmay hold
    · exact hnone call hmay
  · intro podUid hmem
    rcases huids podUid hmem with hold | rfl
    · exact h.charged_known podUid hold
    · exact hknown

/-- An update keeps the identities of the stored pods. -/
theorem PodStore.update_identities {pods next : PodStore} {pod : Pod}
    (h : pods.update pod = some next) :
    ∀ stored ∈ next.items, ∃ old ∈ pods.items, old.uid = stored.uid ∧ old.key = stored.key := by
  unfold PodStore.update at h
  split at h <;> cases h
  intro stored hstored
  obtain ⟨old, hold, rfl⟩ := List.mem_map.mp hstored
  exact ⟨old, hold, by simp, by simp⟩

/-- A pod that the waiting loop finds ready is stored, under the key that the call waits for. -/
theorem ready_pod_eq_some {answered : Bool} {pods : PodStore} {confirmPod : Option Pod} {pod : Pod}
    (h : readyPod answered pods confirmPod = some pod) :
    pod ∈ pods.items ∧ ∃ confirmed, confirmPod = some confirmed ∧ pod.key = confirmed.key := by
  obtain ⟨hget, -⟩ := Option.filter_eq_some_iff.mp h
  cases answered with
  | false => cases hget
  | true =>
      obtain ⟨hmem, hkey⟩ := PodStore.get_eq_some hget
      cases confirmPod with
      | none => exact absurd (congrArg Prod.snd hkey) (pods.named pod hmem)
      | some confirmed => exact ⟨hmem, confirmed, rfl, hkey⟩

/-- Every step with an unbound pick keeps the invariant. -/
theorem binding_inv_step [DecidableEq ι] [Gjson] {server : ι → VcoreResourceServer}
    {state next : State ι} {action : Action ι} (h : BindingInv state)
    (hpick : UnboundPick server state action) (hstep : step server state action = some next) :
    BindingInv next := by
  cases effect_of_step hstep with
  | start call devicesIDs answered hidle heq =>
      subst heq
      cases hchoose : choosePod resourceCore
          (getPendingPodOnNode answered (server call).nodeName state.pods) devicesIDs.length with
      | none =>
          exact binding_inv_shrink h call (fun _ => False.elim) (fun _ => False.elim) (by simp)
      | some pod =>
          have hpicks := choose_pod_eq_some_iff.mp hchoose
          obtain ⟨huncharged, hunclaimed⟩ := hpick pod hpicks
          have hpending := hpicks.mem
          have hmem : pod ∈ state.pods.items := by
            cases answered with
            | false => cases hpending
            | true => exact (List.mem_filter.mp hpending).1
          refine binding_inv_move h rfl rfl rfl rfl ?_ ?_ (by simp)
          · rintro podUid ⟨stored, hstored, hkey, rfl⟩
            obtain rfl := state.pods.eq_of_key hstored hmem hkey
            exact ⟨huncharged, fun other _ => hunclaimed other⟩
          · rintro key rfl other - hother
            exact hunclaimed other (may_charge_of_awaits hmem hother)
  | ready call answered polls confirmPod pod hwaiting hready heq =>
      subst heq
      obtain ⟨hmem, confirmed, rfl, hkey⟩ := ready_pod_eq_some hready
      refine binding_inv_shrink h call ?_ (fun _ => False.elim) ?_
      · rintro podUid rfl
        rw [hwaiting]
        exact ⟨pod, hmem, hkey, rfl⟩
      · rintro other ⟨⟩
        exact h.stored_known pod hmem
  | again call answered polls confirmPod hwaiting heq =>
      subst heq
      refine binding_inv_shrink h call ?_ ?_ (by simp)
      · intro podUid hmay
        rw [hwaiting]
        cases confirmPod <;> exact hmay
      · intro key hawaits
        rw [hwaiting]
        cases confirmPod <;> exact hawaits
  | failed _ call outcome _ _ heq =>
      subst heq
      exact binding_inv_shrink h call (fun _ => False.elim) (fun _ => False.elim) (by simp)
  | charge call calls pod gpu hready _ heq =>
      subst heq
      have hmay : (state.point call).MayCharge state.pods pod.uid := by
        rw [hready]
        exact rfl
      have hmoved : BindingInv (state.setPoint call (.charged pod gpu.spec.uuid)) :=
        binding_inv_shrink h call (fun _ => False.elim) (fun _ => False.elim) (by simp)
      refine binding_inv_charge hmoved _ (h.not_charged call pod.uid hmay) (fun other hother => ?_)
        (h.ready_known call pod hready)
      -- after its charge the call may charge nothing, and before it no other call could
      by_cases hcall : other = call
      · subst hcall
        simp [State.setPoint, AllocPoint.MayCharge] at hother
      · simp only [State.setPoint, Function.update_of_ne hcall] at hother
        exact hcall (h.one_call other call pod.uid hother hmay)
  | respond call answered pod uuid pods _ hupdate heq =>
      subst heq
      have hmoved : BindingInv (state.setPoint call (.returned (.ok (allocResp pod.uid
          ((server call).devInfo.getMinorNumber uuid))))) :=
        binding_inv_shrink h call (fun _ => False.elim) (fun _ => False.elim) (by simp)
      have hsame := PodStore.update_identities hupdate
      refine binding_inv_pods hmoved (fun stored hstored => .inl (hsame stored hstored))
        (fun _ hmem => hmem) (fun stored hstored => ?_)
      obtain ⟨old, hold, huid, -⟩ := hsame stored hstored
      exact huid ▸ h.stored_known old hold
  | pods pods hchange heq =>
      subst heq
      exact binding_inv_pods h hchange (fun _ hmem => List.mem_append_left _ hmem)
        (fun pod hpod => List.mem_append_right _ (List.mem_map.mpr ⟨pod, hpod, rfl⟩))

/-! ## Runs -/

/-- The directories of two pods differ. -/
theorem host_file_path_inj {podUid other : String} (h : hostFilePath podUid = hostFilePath other) :
    podUid = other :=
  (String.append_right_inj "/etc/unishare/vm/").mp h

/-- A path that does not begin like the directory of a pod is the directory of no pod. -/
theorem host_file_path_ne {path : String} (h : path.toList.take 17 ≠ "/etc/unishare/vm/".toList)
    (podUid : String) : path ≠ hostFilePath podUid := by
  rintro rfl
  apply h
  show ("/etc/unishare/vm/" ++ podUid).toList.take 17 = _
  rw [String.toList_append]
  exact List.take_left' (by decide)

/-- A response mounts the directory of its own pod and of no other. -/
theorem mounts_iff {podUid other : String} {minorNum : Nat} :
    (allocResp podUid minorNum).Mounts other ↔ other = podUid := by
  constructor
  · rintro ⟨cont, hcont, mount, hmount, hpath⟩
    obtain rfl := List.mem_singleton.mp hcont
    rcases List.mem_cons.mp hmount with rfl | hmount
    · exact absurd hpath (host_file_path_ne (by decide) other)
    rcases List.mem_cons.mp hmount with rfl | hmount
    · exact absurd hpath (host_file_path_ne (by decide) other)
    obtain rfl := List.mem_singleton.mp hmount
    exact (host_file_path_inj hpath).symm
  · rintro rfl
    exact ⟨_, List.mem_singleton.mpr rfl, ⟨"/etc/unishare/vm", hostFilePath other, true⟩,
      .tail _ (.tail _ (.head _)), rfl⟩

/-- Two records of one pod are the same record when no pod is charged twice. -/
theorem charge_eq_of_uid {state : State ι} (h : state.chargedUids.Nodup) {charge other : Charge ι}
    (hcharge : charge ∈ state.charges) (hother : other ∈ state.charges)
    (huid : charge.pod.uid = other.pod.uid) : charge = other :=
  List.inj_on_of_nodup_map h hcharge hother huid

/-- In every state that a run with unbound picks reaches, no pod is bound twice. -/
theorem bound_once [DecidableEq ι] [Gjson] (server : ι → VcoreResourceServer) (pods : PodStore)
    (gpus : GpuStore) (actions : List (Action ι)) (state : State ι)
    (hpicks : Along (step server) (UnboundPick server) (State.initial ι pods gpus) actions)
    (hrun : exec (step server) (State.initial ι pods gpus) actions = some state) :
    BoundOnce state := by
  have hinitial : BindingInv (State.initial ι pods gpus) := by
    refine ⟨List.nodup_nil, nofun, nofun, nofun, fun pod hpod => ?_, nofun, nofun⟩
    exact List.mem_map.mpr ⟨pod, hpod, rfl⟩
  have hinv : BindingInv state :=
    exec_invariant_along (fun _ _ _ h hpick hstep => binding_inv_step h hpick hstep) hinitial hpicks
      hrun
  have hrecorded := recorded_of_run hrun
  refine ⟨?_, hinv.charged_nodup⟩
  intro call other response response' podUid hcall hother hmounts hmounts'
  obtain ⟨charge, hmem, rfl, rfl⟩ := hrecorded.returned call response hcall
  obtain ⟨charge', hmem', rfl, rfl⟩ := hrecorded.returned other response' hother
  have huid := (mounts_iff.mp hmounts).symm.trans (mounts_iff.mp hmounts')
  rw [charge_eq_of_uid hinv.charged_nodup hmem hmem' huid]

/-- Kubelet calls once for each pending GPU pod on the node, with as many device IDs as the pod's
only GPU container has cores. Calls are named by the UIDs of their pods. -/
def KubeletCall (server : String → VcoreResourceServer) (state : State String) :
    Action String → Prop
  | .start call devicesIDs _ =>
      ∃ pod ∈ state.pods.items, pod.uid = call ∧ pod.nodeName = (server call).nodeName ∧
        pod.phase = "Pending" ∧
        (pod.containers.filter fun cont => cont.hasLimit resourceCore).length = 1 ∧
        requestCore pod = Int64.ofNat devicesIDs.length
  | _ => True

instance (server : String → VcoreResourceServer) (state : State String) (action : Action String) :
    Decidable (KubeletCall server state action) :=
  match action with
  | .start _ _ _ => inferInstanceAs (Decidable (∃ pod ∈ state.pods.items, _))
  | .poll _ _ | .charge _ _ | .annotate _ _ | .pods _ => isTrue trivial

/-- The pods of `twinPods` once the container of the first runs. -/
def firstRunning : PodStore where
  items := [{ tenCorePod "a" "uid-a" with phase := "Running" }, tenCorePod "b" "uid-b"]
  keys_nodup := by decide
  uids_nodup := by decide
  named := by decide

/-- The plugin of node `n1`, for two calls. -/
def twoCallServer (_ : Bool) : VcoreResourceServer := nodeServer "uid-a"

/-- A call for each pod of `twinPods`; the first pod runs before the second call starts. -/
def twoCalls : List (Action Bool) :=
  [.start false tenDevices true, .poll false true, .charge false .answered, .annotate false true,
    .pods firstRunning, .start true tenDevices true, .poll true true, .charge true .answered,
    .annotate true true]

/-- Neither call picks a pod that is charged or claimed. -/
theorem two_calls_unbound :
    letI := Gjson.reader
    Along (step twoCallServer) (UnboundPick twoCallServer) (State.initial Bool twinPods freshStore)
      twoCalls := by
  decide +kernel

/-- Both calls return a response, and each binds its own pod. -/
theorem bound_once_two :
    letI := Gjson.reader
    ∃ state, exec (step twoCallServer) (State.initial Bool twinPods freshStore) twoCalls =
        some state ∧
      (∀ call, ∃ response, state.point call = .returned (.ok response)) ∧
      state.chargedUids = ["uid-a", "uid-b"] ∧ BoundOnce state := by
  let reader := Gjson.reader
  have hran : (exec (step twoCallServer) (State.initial Bool twinPods freshStore) twoCalls).map
      (fun state => (state.point false, state.point true, state.chargedUids)) =
      some (.returned (.ok (allocResp "uid-a" 0)), .returned (.ok (allocResp "uid-b" 0)),
        ["uid-a", "uid-b"]) := by decide +kernel
  obtain ⟨state, hrun, hfound⟩ := Option.map_eq_some_iff.mp hran
  simp only [Prod.mk.injEq] at hfound
  obtain ⟨hfirst, hsecond, hcharged⟩ := hfound
  refine ⟨state, hrun, Bool.forall_bool.mpr ⟨⟨_, hfirst⟩, ⟨_, hsecond⟩⟩, hcharged, ?_⟩
  exact bound_once twoCallServer twinPods freshStore twoCalls state two_calls_unbound hrun

/-- The second call picks the pod of the first, which is still pending. -/
theorem bound_once_counterexample :
    letI := Gjson.reader
    ¬ ∀ (server : String → VcoreResourceServer) pods gpus actions state,
        Along (step server) (KubeletCall server) (State.initial String pods gpus) actions →
          exec (step server) (State.initial String pods gpus) actions = some state →
            BoundOnce state := by
  intro h
  let reader := Gjson.reader
  have hcharged : (exec (step nodeServer) (State.initial String twinPods freshStore)
      (answeredCall "uid-a" tenDevices ++ answeredCall "uid-b" tenDevices)).map
        State.chargedUids = some ["uid-a", "uid-a"] := by decide +kernel
  have hkubelet : Along (step nodeServer) (KubeletCall nodeServer)
      (State.initial String twinPods freshStore)
      (answeredCall "uid-a" tenDevices ++ answeredCall "uid-b" tenDevices) := by decide +kernel
  obtain ⟨state, hrun, huids⟩ := Option.map_eq_some_iff.mp hcharged
  have honce := (h nodeServer twinPods freshStore _ state hkubelet hrun).charged
  rw [huids] at honce
  exact absurd honce (by decide)

end UniShare.PluginRegister
