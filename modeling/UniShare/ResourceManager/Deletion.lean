import UniShare.ResourceManager.Steps
import UniShare.ResourceManager.Config

/-!
# What a deleted pod leaves behind

A `creatVcudaServer` handler stores entries for every pod with annotations and resource requests,
whether it has accelerator limits or not; `deletePodPath` removes the entries of a visited pod whose
last document has the assignment annotation. `deleted_pods_leave_nothing` says on which deletions
nothing is left once all events of a pod have been handled, and no other pod's entries are touched:
the deletion must come after the pod's other events, be accepted, and find the names of the pod's
containers leading to these only. The machine is run with a log of the pods whose deletion was
received.
-/

namespace UniShare.ResourceManager

open Lib Kube PodWatch

/-- The pods whose deletion is received in a step. -/
def deletions [Gjson] (_ : State) : Action → List String
  | .deleted obj => [podUID obj]
  | _ => []

/-- The directory of a pod. -/
def podPath (uid : String) : List String := baseDir [uid]

/-! ## The entries of a pod -/

/-- Under the pod's UID the maps and the disk have nothing. -/
structure Blank (vm : VirtualManager) (disk : ConfigDisk) (uid : String) : Prop where
  podByUID : (vm.podByUID uid).isNone
  core : (vm.coreRequestByPodUID uid).isNone
  memory : (vm.memoryRequestByPodUID uid).isNone
  podDo : (vm.podDoByUID uid).isNone
  listed : (vm.containerUIDInPodUID uid).isNone
  visited : vm.podVisitedByUID uid ≠ some true
  directory : (disk.entry (podPath uid)).isNone

/-- Nor do they have a name for one of its containers. -/
structure Clean (owner : String → String × String) (vm : VirtualManager) (disk : ConfigDisk)
    (uid : String) : Prop where
  blank : Blank vm disk uid
  names : ∀ cont, (owner cont).1 = uid → (vm.containerNameByUid cont).isNone

/-- The deletion of a pod leaves the entries of all other pods as they are. -/
structure Untouched (owner : String → String × String) (uid : String) (vm after : VirtualManager)
    (disk removed : ConfigDisk) : Prop where
  podByUID : ∀ other, other ≠ uid → after.podByUID other = vm.podByUID other
  core : ∀ other, other ≠ uid → after.coreRequestByPodUID other = vm.coreRequestByPodUID other
  memory : ∀ other, other ≠ uid →
    after.memoryRequestByPodUID other = vm.memoryRequestByPodUID other
  podDo : ∀ other, other ≠ uid → after.podDoByUID other = vm.podDoByUID other
  listed : ∀ other, other ≠ uid → after.containerUIDInPodUID other = vm.containerUIDInPodUID other
  visited : ∀ other, other ≠ uid → after.podVisitedByUID other = vm.podVisitedByUID other
  name : ∀ cont, (owner cont).1 ≠ uid → after.containerNameByUid cont = vm.containerNameByUid cont
  byName : ∀ cont name, (owner cont).1 ≠ uid → vm.containerUIDByName name = some cont →
    after.containerUIDByName name = some cont
  directory : ∀ other, other ≠ uid → PlainElement other → ∀ path, podPath other <+: path →
    removed.entry path = disk.entry path

/-- No event of the pod is queued or held by a running handler. -/
structure Handled [Gjson] (state : State) (uid : String) : Prop where
  modified : ∀ obj ∈ state.podMgr.podModObj, podUID obj ≠ uid
  deleted : ∀ obj ∈ state.podMgr.podDelObj, podUID obj ≠ uid
  handlers : ∀ handler ∈ state.handlers, podUID handler.event = uid → handler.point = .finished
  deleters : ∀ obj ∈ state.deleters, podUID obj ≠ uid

/-- Nothing is left of a pod whose deletion was received once all of its events are handled. -/
def LeavesNothing [Gjson] (owner : String → String × String) (state : State × List String) :
    Prop :=
  ∀ uid ∈ state.2, Handled state.1 uid → Clean owner state.1.vm state.1.disk uid

/-- When the action is a deletion, it leaves the entries of all other pods as they are. -/
def DeletesOwn [Gjson] (owner : String → String × String) (state : State) : Action → Prop
  | .deleter i => ∀ pod ∈ state.deleters[i]?, Untouched owner (podUID pod) state.vm
      (deletePodPath state.vm state.disk pod).1 state.disk
      (deletePodPath state.vm state.disk pod).2
  | _ => True

/-! ## The events -/

/-- A document of a pod: its UID, and the UIDs and names of its containers, are plain, and the
containers are its own. -/
structure WellFormed [Gjson] (owner : String → String × String) (document : Json) : Prop where
  uid : PlainElement (podUID document)
  own : OwnStatuses owner document
  plain : ∀ pairs ∈ recordedPairs (Gjson.forEach (containerStatuses document)), ∀ pair ∈ pairs,
    PlainElement pair.1 ∧ PlainElement pair.2

/-- The events are those of pods; no event of a pod comes after its deletion, and the manager is
not restarted. -/
def Stream [Gjson] (owner : String → String × String) (state : State × List String) :
    Action → Prop
  | .modified obj => WellFormed owner obj ∧ podUID obj ∉ state.2
  | .deleted obj => PlainElement (podUID obj) ∧ podUID obj ∉ state.2
  | .handler _ answer => ∀ pod ∈ answer.pod, WellFormed owner pod.toJson
  | .run | .deleter _ => True
  | .restart => False

/-- A handler at this point can still store something for its pod; one that waits for statuses must
find some first. -/
def HandlerPoint.mayStore : HandlerPoint → Bool
  | .await _ statuses => statuses.isSome
  | .getPod | .annotate _ | .finished => false
  | _ => true

/-- The handler waits for the statuses of its pod. -/
def HandlerPoint.isWaiting : HandlerPoint → Bool
  | .await _ _ => true
  | _ => false

/-- The handler has ended. -/
def HandlerPoint.isFinished : HandlerPoint → Bool
  | .finished => true
  | _ => false

/-- A handler that has ended is at the last point. -/
theorem point_of_is_finished {point : HandlerPoint} (h : point.isFinished = true) :
    point = .finished := by
  cases point <;> first | rfl | cases h

/-- A MODIFIED event of the pod that passes the checks is queued, or a handler of one can still
store something. -/
def MayStore [Gjson] (state : State) (uid : String) : Prop :=
  (∃ obj ∈ state.podMgr.podModObj, podUID obj = uid ∧ accepted obj = true) ∨
    ∃ handler ∈ state.handlers, podUID handler.event = uid ∧ accepted handler.event = true ∧
      handler.point.mayStore = true

/-- The deletion of the pod is queued or about to run. -/
def PendingDelete [Gjson] (state : State) (uid : String) : Prop :=
  (∃ obj ∈ state.podMgr.podDelObj, podUID obj = uid) ∨ ∃ obj ∈ state.deleters, podUID obj = uid

/-- The names of the containers that are listed for the pod lead to containers of the pod. -/
def VirtualManager.NamesLeadTo (owner : String → String × String) (vm : VirtualManager)
    (uid : String) : Prop :=
  ∀ cont ∈ vm.listed uid, ∀ name ∈ vm.containerNameByUid cont,
    ∀ other ∈ vm.containerUIDByName name, (owner other).1 = uid

/-- A deletion comes when no other event of the pod can store something, is accepted unless nothing
is stored, and finds the names of the pod's containers leading to these. A handler that waits for
statuses fetches the pod of its event, and no more after the pod's deletion. -/
def DeletesLast [Gjson] (owner : String → String × String) (state : State × List String) :
    Action → Prop
  | .deleter i => ∀ pod ∈ state.1.deleters[i]?,
      ¬ MayStore state.1 (podUID pod) ∧
        (acceptedDelete pod = true ∨ Blank state.1.vm state.1.disk (podUID pod)) ∧
          state.1.vm.NamesLeadTo owner (podUID pod)
  | .handler i answer => ∀ handler ∈ state.1.handlers[i]?, ∀ pod ∈ answer.pod,
      handler.FetchesOwn pod ∧ (handler.point.isWaiting = true →
        podUID handler.event ∈ state.2 → PendingDelete state.1 (podUID handler.event))
  | _ => True

instance (vm : VirtualManager) (disk : ConfigDisk) (uid : String) :
    Decidable (Blank vm disk uid) :=
  decidable_of_iff
    ((vm.podByUID uid).isNone ∧ (vm.coreRequestByPodUID uid).isNone ∧
      (vm.memoryRequestByPodUID uid).isNone ∧ (vm.podDoByUID uid).isNone ∧
      (vm.containerUIDInPodUID uid).isNone ∧ vm.podVisitedByUID uid ≠ some true ∧
      (disk.entry (podPath uid)).isNone)
    ⟨fun h => ⟨h.1, h.2.1, h.2.2.1, h.2.2.2.1, h.2.2.2.2.1, h.2.2.2.2.2.1, h.2.2.2.2.2.2⟩,
      fun h => ⟨h.podByUID, h.core, h.memory, h.podDo, h.listed, h.visited, h.directory⟩⟩

instance [Gjson] (owner : String → String × String) (document : Json) :
    Decidable (WellFormed owner document) :=
  decidable_of_iff
    (PlainElement (podUID document) ∧ OwnStatuses owner document ∧
      ∀ pairs ∈ recordedPairs (Gjson.forEach (containerStatuses document)), ∀ pair ∈ pairs,
        PlainElement pair.1 ∧ PlainElement pair.2)
    ⟨fun h => ⟨h.1, h.2.1, h.2.2⟩, fun h => ⟨h.uid, h.own, h.plain⟩⟩

instance [Gjson] (owner : String → String × String) (state : State × List String) :
    ∀ action, Decidable (Stream owner state action)
  | .modified _ | .deleted _ => inferInstanceAs (Decidable (_ ∧ _))
  | .handler _ answer => inferInstanceAs (Decidable (∀ pod ∈ answer.pod, _))
  | .run | .deleter _ => .isTrue trivial
  | .restart => .isFalse id

instance [Gjson] (state : State) (uid : String) : Decidable (MayStore state uid) :=
  inferInstanceAs (Decidable (_ ∨ _))

instance [Gjson] (state : State) (uid : String) : Decidable (PendingDelete state uid) :=
  inferInstanceAs (Decidable (_ ∨ _))

instance (owner : String → String × String) (vm : VirtualManager) (uid : String) :
    Decidable (vm.NamesLeadTo owner uid) :=
  inferInstanceAs (Decidable (∀ cont ∈ vm.listed uid, ∀ name ∈ vm.containerNameByUid cont, _))

instance [Gjson] (owner : String → String × String) (state : State × List String) :
    ∀ action, Decidable (DeletesLast owner state action)
  | .deleter i => inferInstanceAs (Decidable (∀ pod ∈ state.1.deleters[i]?, _))
  | .handler i answer =>
      inferInstanceAs (Decidable (∀ handler ∈ state.1.handlers[i]?, ∀ pod ∈ answer.pod, _))
  | .modified _ | .deleted _ | .run | .restart => .isTrue trivial

/-! ## The maps and the directories -/

/-- Forgetting containers deletes their names. -/
theorem forget_containers_name (uids : List String) (vm : VirtualManager) (cont : String) :
    (uids.foldl VirtualManager.forgetContainer vm).containerNameByUid cont =
      if cont ∈ uids then none else vm.containerNameByUid cont := by
  induction uids generalizing vm with
  | nil => simp
  | cons uid rest ih =>
      rw [List.foldl_cons, ih]
      by_cases hrest : cont ∈ rest
      · simp [hrest]
      · by_cases heq : cont = uid
        · simp [heq, VirtualManager.forgetContainer]
        · simp [heq, hrest, VirtualManager.forgetContainer]

/-- Forgetting containers keeps the way from any name that is not theirs. -/
theorem forget_containers_back (uids : List String) (vm : VirtualManager) {name other : String}
    (hback : vm.containerUIDByName name = some other) (hne : name ≠ "")
    (hnot : ∀ cont ∈ uids, vm.containerNameByUid cont ≠ some name) :
    (uids.foldl VirtualManager.forgetContainer vm).containerUIDByName name = some other := by
  induction uids generalizing vm with
  | nil => exact hback
  | cons uid rest ih =>
      have hname : name ≠ (vm.containerNameByUid uid).getD "" := by
        intro heq
        cases hfound : vm.containerNameByUid uid with
        | none => exact hne (by simpa [hfound] using heq)
        | some found =>
            have hsame : name = found := by simpa [hfound] using heq
            exact hnot uid (by simp) (hsame ▸ hfound)
      refine ih (vm.forgetContainer uid) ((Function.update_of_ne hname ..).trans hback)
        fun cont hcont hfound => ?_
      by_cases heq : cont = uid
      · subst heq
        simp [VirtualManager.forgetContainer] at hfound
      · exact hnot cont (by simp [hcont]) ((Function.update_of_ne heq ..).symm.trans hfound)

/-- The directory of a pod is in the manager's. -/
theorem pod_path_plain {uid : String} (h : PlainElement uid) : podPath uid = baseDir [] ++ [uid] :=
  filepath_join_plain [virtualManagerPath] h

/-- Directories of different pods have no common subdirectory. -/
theorem pod_path_inj {uid other : String} (huid : PlainElement uid) (hother : PlainElement other)
    {path : List String} (h : podPath uid <+: path) (h' : podPath other <+: path) :
    uid = other := by
  rw [pod_path_plain huid] at h
  rw [pod_path_plain hother] at h'
  have hlength : (baseDir [] ++ [uid]).length = (baseDir [] ++ [other]).length := by simp
  have heq := (List.prefix_of_prefix_length_le h h' hlength.le).eq_of_length hlength
  exact List.singleton_inj.mp (List.append_cancel_left heq)

/-- A container's directory is in its pod's. -/
theorem pod_path_under {uid name : String} (h : name = "" ∨ PlainElement name) :
    podPath uid <+: baseDir [uid, name] := by
  rcases h with rfl | hplain
  · have hsame : baseDir [uid, ""] = podPath uid :=
      filepath_join_empty [virtualManagerPath, uid]
    rw [hsame]
  · have hjoin : baseDir [uid, name] = podPath uid ++ [name] :=
      filepath_join_plain [virtualManagerPath, uid] hplain
    rw [hjoin]
    exact List.prefix_append ..

/-! ## The handlers -/

/-- Names and UIDs are plain, a container with a name is listed for its pod, and a listed container
is the pod's. -/
structure VirtualManager.Owned (owner : String → String × String) (vm : VirtualManager) :
    Prop where
  named : ∀ cont name, vm.containerNameByUid cont = some name →
    PlainElement name ∧ cont ∈ vm.listed (owner cont).1
  listed : ∀ uid, ∀ cont ∈ vm.listed uid, (owner cont).1 = uid ∧ PlainElement cont
  back : ∀ name cont, vm.containerUIDByName name = some cont → name ≠ ""

/-- The handler records containers of its own pod, and works in the pod's directory. -/
def HandlerPoint.Inside [Gjson] (owner : String → String × String) (uid : String) :
    HandlerPoint → Prop
  | .await _ statuses | .record statuses =>
      ∀ pairs ∈ recordedPairs (Gjson.forEach statuses), ∀ pair ∈ pairs,
        (owner pair.1).1 = uid ∧ PlainElement pair.1 ∧ PlainElement pair.2
  | .dirName rest | .write _ _ rest => ∀ cont ∈ rest, PlainElement cont
  | .mkdir _ path rest | .contName _ path rest | .totals path _ rest | .create path _ rest =>
      podPath uid <+: path ∧ ∀ cont ∈ rest, PlainElement cont
  | _ => True

/-- The handler is between recording containers and marking its pod as visited. -/
def HandlerPoint.beforeMark : HandlerPoint → Bool
  | .list | .dirName _ | .mkdir _ _ _ | .contName _ _ _ | .totals _ _ _ | .create _ _ _
  | .write _ _ _ | .markDone | .visited | .mark => true
  | _ => false

/-- The handler stores something for a pod that it has marked as visited. -/
def HandlerPoint.afterMark : HandlerPoint → Bool
  | .podDir | .requests => true
  | _ => false

/-- A handler that still has to mark its pod can store something. -/
theorem may_store_of_before_mark {point : HandlerPoint} (h : point.beforeMark = true) :
    point.mayStore = true := by
  cases point <;> first | rfl | cases h

/-- A handler that has just marked its pod can store something. -/
theorem may_store_of_after_mark {point : HandlerPoint} (h : point.afterMark = true) :
    point.mayStore = true := by
  cases point <;> first | rfl | cases h

section Handlers

variable {owner : String → String × String} {vm after : VirtualManager} {disk made : ConfigDisk}

/-- Recording a pod's own containers keeps the containers owned. -/
theorem owned_record {podUID : String} (h : vm.Owned owner) {pairs : List (String × String)}
    (hpairs : ∀ pair ∈ pairs,
      (owner pair.1).1 = podUID ∧ PlainElement pair.1 ∧ PlainElement pair.2) :
    (pairs.foldl (VirtualManager.recordPair podUID) vm).Owned owner := by
  refine ⟨fun cont name hname => ?_, fun uid cont hcont => ?_, fun name cont hback => ?_⟩
  · rw [record_pairs_listed]
    rcases record_pairs_name podUID vm pairs cont with
      ⟨found, hmem, hfound⟩ | ⟨-, hfound⟩
    · obtain rfl := Option.some.inj (hfound.symm.trans hname)
      obtain ⟨howner, -, hplain⟩ := hpairs _ hmem
      refine ⟨hplain, ?_⟩
      rw [if_pos howner]
      exact List.mem_append_right _ (List.mem_map.mpr ⟨(cont, found), hmem, rfl⟩)
    · obtain ⟨hplain, hlisted⟩ := h.named cont name (hfound.symm.trans hname)
      refine ⟨hplain, ?_⟩
      split
      · rename_i heq
        exact List.mem_append_left _ (heq ▸ hlisted)
      · exact hlisted
  · rw [record_pairs_listed] at hcont
    split at hcont
    · rename_i heq
      rcases List.mem_append.mp hcont with hold | hnew
      · exact heq ▸ h.listed podUID cont hold
      · obtain ⟨pair, hpair, rfl⟩ := List.mem_map.mp hnew
        obtain ⟨howner, hplain, -⟩ := hpairs pair hpair
        exact ⟨heq ▸ howner, hplain⟩
    · exact h.listed uid cont hcont
  · rcases record_pairs_back podUID vm pairs hback with hmem | hold
    · obtain ⟨pair, hpair, rfl⟩ := List.mem_map.mp hmem
      exact (hpairs pair hpair).2.2.1
    · exact h.back name cont hold

/-- Recording containers adds no entry for another pod. -/
theorem blank_record {podUID uid : String} (hne : uid ≠ podUID) (pairs : List (String × String))
    (h : Blank vm disk uid) :
    Blank (pairs.foldl (VirtualManager.recordPair podUID) vm) disk uid := by
  induction pairs generalizing vm with
  | nil => exact h
  | cons pair rest ih =>
      refine ih ⟨h.podByUID, h.core, h.memory, h.podDo, ?_, h.visited, h.directory⟩
      simpa [VirtualManager.recordPair, Function.update_of_ne hne] using h.listed

/-- What a step of a handler leaves: containers that are owned, a handler in its pod's directory,
no new entry for another pod, and the visits. -/
structure StepKept [Gjson] (owner : String → String × String) (vm after : VirtualManager)
    (disk made : ConfigDisk) (uid : String) (following : HandlerPoint) : Prop where
  owned : after.Owned owner
  inside : following.Inside owner uid
  blank : ∀ other, other ≠ uid → PlainElement other → Blank vm disk other → Blank after made other
  visited : ∀ other, vm.podVisitedByUID other = some true →
    after.podVisitedByUID other = some true

/-- A step that leaves the maps alone, and the directories of other pods. -/
theorem step_kept_disk [Gjson] {uid : String} {following : HandlerPoint} (h : vm.Owned owner)
    (hinside : following.Inside owner uid)
    (hdisk : ∀ other, other ≠ uid → PlainElement other → disk.entry (podPath other) = none →
      made.entry (podPath other) = none) :
    StepKept owner vm vm disk made uid following := by
  refine ⟨h, hinside, fun other hne hplain hblank => ?_, fun _ hvisited => hvisited⟩
  refine ⟨hblank.podByUID, hblank.core, hblank.memory, hblank.podDo, hblank.listed,
    hblank.visited, ?_⟩
  rw [hdisk other hne hplain (Option.isNone_iff_eq_none.mp hblank.directory)]
  rfl

/-- A step that changes what the maps have under the pod's UID. -/
theorem step_kept_maps [Gjson] {uid : String} {following : HandlerPoint} (h : after.Owned owner)
    (hinside : following.Inside owner uid)
    (hblank : ∀ other, other ≠ uid → Blank vm disk other → Blank after disk other)
    (hvisited : ∀ other, vm.podVisitedByUID other = some true →
      after.podVisitedByUID other = some true) :
    StepKept owner vm after disk disk uid following :=
  ⟨h, hinside, fun other hne _ => hblank other hne, hvisited⟩

/-- Directories made in a pod's directory are not those of other pods. -/
theorem made_inside {uid other : String} {path : List String} (huid : PlainElement uid)
    (hother : PlainElement other) (hne : other ≠ uid) (hpath : podPath uid <+: path)
    (hmade : disk.mkdirAll path = some made) :
    made.entry (podPath other) = disk.entry (podPath other) := by
  refine Disk.mkdirAll_entry hmade fun hpart => ?_
  exact hne (pod_path_inj hother huid hpart hpath)

/-- A step of a handler that is in its pod's directory keeps to its pod. -/
theorem step_kept_moves [Gjson] {cgroupV2 : Bool} {event : Json} {answer : Answer}
    {point following : HandlerPoint} (h : vm.Owned owner) (hevent : WellFormed owner event)
    (hinside : point.Inside owner (podUID event))
    (hanswer : ∀ tries statuses, point = .await tries statuses → ∀ pod ∈ answer.pod,
      WellFormed owner pod.toJson ∧ podUID pod.toJson = podUID event)
    (hmoves : Moves cgroupV2 vm disk event answer point after made following) :
    StepKept owner vm after disk made (podUID event) following := by
  have hstatuses : ∀ document, WellFormed owner document → podUID document = podUID event →
      ∀ pairs ∈ recordedPairs (Gjson.forEach (containerStatuses document)), ∀ pair ∈ pairs,
        (owner pair.1).1 = podUID event ∧ PlainElement pair.1 ∧ PlainElement pair.2 := by
    intro document hdocument huid pairs hpairs pair hpair
    refine ⟨?_, hdocument.plain pairs hpairs pair hpair⟩
    rw [(hdocument.own pairs hpairs).2 pair hpair, ← huid]
  cases hmoves with
  | serve =>
      exact step_kept_disk h (hstatuses event hevent rfl) fun _ _ _ hnone => hnone
  | statuses => exact step_kept_disk h hinside fun _ _ _ hnone => hnone
  | again tries statuses reply hreply =>
      obtain ⟨hwell, huid⟩ := hanswer tries statuses rfl reply hreply
      exact step_kept_disk h (hstatuses reply.toJson hwell huid) fun _ _ _ hnone => hnone
  | record statuses pairs hpairs hne =>
      refine step_kept_maps (owned_record h (hinside pairs hpairs)) trivial
        (fun other hother => blank_record hother pairs) fun other hvisited => ?_
      rwa [(record_pairs_frame _ vm pairs).2.1]
  | list =>
      refine step_kept_disk h (fun cont hcont => ?_) fun _ _ _ hnone => hnone
      exact (h.listed _ cont hcont).2
  | dirName cont rest =>
      have hname : ∀ name,
          name = (if cgroupV2 then (vm.containerNameByUid cont).getD "" else cont) →
          name = "" ∨ PlainElement name := by
        rintro name rfl
        split
        · cases hfound : vm.containerNameByUid cont with
          | none => exact .inl rfl
          | some name => exact .inr (h.named cont name hfound).1
        · exact .inr (hinside cont (by simp))
      refine step_kept_disk h ⟨pod_path_under (hname _ rfl), fun other hother => ?_⟩
        fun _ _ _ hnone => hnone
      exact hinside other (by simp [hother])
  | mkdirFailed => exact step_kept_disk h hinside fun _ _ _ hnone => hnone
  | mkdir cont path rest made hmade =>
      refine step_kept_disk h hinside fun other hne hplain hnone => ?_
      rw [made_inside hevent.uid hplain hne hinside.1 hmade, hnone]
  | contName => exact step_kept_disk h hinside fun _ _ _ hnone => hnone
  | totals path containerName rest =>
      refine step_kept_disk h ⟨?_, hinside.2⟩ fun _ _ _ hnone => hnone
      exact hinside.1.trans (List.prefix_append ..)
  | createFailed => exact step_kept_disk h hinside.2 fun _ _ _ hnone => hnone
  | create path data rest inode opened hok hcreate =>
      refine step_kept_disk h hinside.2 fun other hne hplain hnone => ?_
      rw [(Disk.create_eq_some hcreate).1, Function.update_of_ne, hnone]
      intro heq
      exact hne (pod_path_inj hplain hevent.uid ⟨[], by rw [List.append_nil, heq]⟩ hinside.1)
  | writeFailed => exact step_kept_disk h hinside fun _ _ _ hnone => hnone
  | write => exact step_kept_disk h hinside fun _ _ _ hnone => Disk.write_entry_none hnone
  | markDone =>
      refine step_kept_maps ⟨h.named, h.listed, h.back⟩ trivial (fun other hne hblank => ?_)
        fun _ hvisited => hvisited
      refine ⟨hblank.podByUID, hblank.core, hblank.memory, ?_, hblank.listed, hblank.visited,
        hblank.directory⟩
      simpa [VirtualManager.markDone, Function.update_of_ne hne] using hblank.podDo
  | mark =>
      refine step_kept_maps ⟨h.named, h.listed, h.back⟩ trivial (fun other hne hblank => ?_)
        fun other hvisited => ?_
      · refine ⟨?_, hblank.core, hblank.memory, hblank.podDo, hblank.listed, ?_,
          hblank.directory⟩
        · simpa [VirtualManager.markVisited, Function.update_of_ne hne] using hblank.podByUID
        · simpa [VirtualManager.markVisited, Function.update_of_ne hne] using hblank.visited
      · by_cases heq : other = podUID event
        · simp [VirtualManager.markVisited, heq]
        · simpa [VirtualManager.markVisited, Function.update_of_ne heq] using hvisited
  | podDir made hmade =>
      refine step_kept_disk h trivial fun other hne hplain hnone => ?_
      rw [made_inside hevent.uid hplain hne List.prefix_rfl hmade, hnone]
  | requests =>
      refine step_kept_maps ⟨h.named, h.listed, h.back⟩ trivial (fun other hne hblank => ?_)
        fun _ hvisited => hvisited
      refine ⟨hblank.podByUID, ?_, ?_, hblank.podDo, hblank.listed, hblank.visited,
        hblank.directory⟩
      · simpa [VirtualManager.storeRequests, Function.update_of_ne hne] using hblank.core
      · simpa [VirtualManager.storeRequests, Function.update_of_ne hne] using hblank.memory
  | _ => exact step_kept_disk h trivial fun _ _ _ hnone => hnone

end Handlers

/-! ## The deletion of a pod -/

section Delete

variable {owner : String → String × String} {vm : VirtualManager} {disk : ConfigDisk}
  {uid : String}

/-- What the maps have under other pods' UIDs after a pod has been forgotten. -/
theorem forget_pod_frame (vm : VirtualManager) {uid other : String} (hne : other ≠ uid) :
    (vm.forgetPod uid).podByUID other = vm.podByUID other ∧
      (vm.forgetPod uid).podVisitedByUID other = vm.podVisitedByUID other ∧
      (vm.forgetPod uid).podDoByUID other = vm.podDoByUID other ∧
      (vm.forgetPod uid).coreRequestByPodUID other = vm.coreRequestByPodUID other ∧
      (vm.forgetPod uid).memoryRequestByPodUID other = vm.memoryRequestByPodUID other ∧
      (vm.forgetPod uid).containerUIDInPodUID other = vm.containerUIDInPodUID other := by
  simp [VirtualManager.forgetPod, forget_containers_frame, Function.update_of_ne hne]

/-- After a pod has been forgotten and its directory removed, nothing is stored for it. -/
theorem blank_forget_pod (vm : VirtualManager) (disk : ConfigDisk) (uid : String) :
    Blank (vm.forgetPod uid) (disk.removeAll (podPath uid)) uid := by
  refine ⟨?_, ?_, ?_, ?_, ?_, ?_, ?_⟩
  · simp [VirtualManager.forgetPod, forget_containers_frame]
  · simp [VirtualManager.forgetPod, forget_containers_frame]
  · simp [VirtualManager.forgetPod, forget_containers_frame]
  · simp [VirtualManager.forgetPod, forget_containers_frame]
  · simp [VirtualManager.forgetPod]
  · simp [VirtualManager.forgetPod, forget_containers_frame]
  · rw [Disk.removeAll_entry disk List.prefix_rfl]
    rfl

/-- The name of a container after a pod has been forgotten. -/
theorem forget_pod_name (vm : VirtualManager) (uid cont : String) :
    (vm.forgetPod uid).containerNameByUid cont =
      if cont ∈ vm.listed uid then none else vm.containerNameByUid cont :=
  forget_containers_name (vm.listed uid) _ cont

/-- Forgetting a pod keeps the containers owned. -/
theorem owned_forget_pod (h : vm.Owned owner) (uid : String) : (vm.forgetPod uid).Owned owner := by
  have hback : ∀ (uids : List String) (vm : VirtualManager) name cont,
      (uids.foldl VirtualManager.forgetContainer vm).containerUIDByName name = some cont →
        vm.containerUIDByName name = some cont := by
    intro uids
    induction uids with
    | nil => exact fun _ _ _ hfound => hfound
    | cons first rest ih =>
        intro vm name cont hfound
        have hkept := ih (vm.forgetContainer first) name cont hfound
        by_cases heq : name = (vm.containerNameByUid first).getD ""
        · simp [VirtualManager.forgetContainer, heq] at hkept
        · exact (Function.update_of_ne heq ..).symm.trans hkept
  refine ⟨fun cont name hname => ?_, fun other cont hcont => ?_, fun name cont hfound => ?_⟩
  · rw [forget_pod_name] at hname
    split at hname
    · cases hname
    · rename_i hnot
      obtain ⟨hplain, hlisted⟩ := h.named cont name hname
      refine ⟨hplain, ?_⟩
      rw [forget_pod_listed, if_neg]
      · exact hlisted
      · intro heq
        exact hnot (heq ▸ hlisted)
  · rw [forget_pod_listed] at hcont
    split at hcont
    · cases hcont
    · exact h.listed other cont hcont
  · have hkept := hback (vm.listed uid) _ name cont hfound
    exact h.back name cont hkept

/-- Forgetting a pod whose containers' names lead to these leaves the other pods' entries. -/
theorem untouched_forget_pod (h : vm.Owned owner) (huid : PlainElement uid)
    (hlead : vm.NamesLeadTo owner uid) :
    Untouched owner uid vm (vm.forgetPod uid) disk (disk.removeAll (podPath uid)) := by
  have hframe := fun other (hne : other ≠ uid) => forget_pod_frame vm hne
  refine ⟨fun other hne => (hframe other hne).1, fun other hne => (hframe other hne).2.2.2.1,
    fun other hne => (hframe other hne).2.2.2.2.1, fun other hne => (hframe other hne).2.2.1,
    fun other hne => (hframe other hne).2.2.2.2.2, fun other hne => (hframe other hne).2.1,
    fun cont howner => ?_, fun cont name howner hback => ?_, fun other hne hplain path hpath => ?_⟩
  · rw [forget_pod_name, if_neg]
    intro hlisted
    exact howner (h.listed uid cont hlisted).1
  · refine forget_containers_back (vm.listed uid) _ hback (h.back name cont hback) ?_
    exact fun listed hlisted hname => howner (hlead listed hlisted name hname cont hback)
  · refine Disk.removeAll_entry_of_not disk fun hpart => ?_
    exact hne (pod_path_inj hplain huid hpath hpart)

/-- Nothing is touched where nothing is changed. -/
theorem untouched_refl (owner : String → String × String) (uid : String) (vm : VirtualManager)
    (disk : ConfigDisk) : Untouched owner uid vm vm disk disk :=
  ⟨fun _ _ => rfl, fun _ _ => rfl, fun _ _ => rfl, fun _ _ => rfl, fun _ _ => rfl,
    fun _ _ => rfl, fun _ _ => rfl, fun _ _ _ hback => hback, fun _ _ _ _ _ => rfl⟩

/-- What is stored for other pods is as it was. -/
theorem blank_untouched {after : VirtualManager} {removed : ConfigDisk}
    (h : Untouched owner uid vm after disk removed) {other : String} (hne : other ≠ uid)
    (hplain : PlainElement other) : Blank after removed other ↔ Blank vm disk other := by
  have hdir := h.directory other hne hplain (podPath other) List.prefix_rfl
  constructor
  · intro hblank
    exact ⟨h.podByUID other hne ▸ hblank.podByUID, h.core other hne ▸ hblank.core,
      h.memory other hne ▸ hblank.memory, h.podDo other hne ▸ hblank.podDo,
      h.listed other hne ▸ hblank.listed, h.visited other hne ▸ hblank.visited,
      hdir ▸ hblank.directory⟩
  · intro hblank
    refine ⟨?_, ?_, ?_, ?_, ?_, ?_, ?_⟩
    · exact (h.podByUID other hne).symm ▸ hblank.podByUID
    · exact (h.core other hne).symm ▸ hblank.core
    · exact (h.memory other hne).symm ▸ hblank.memory
    · exact (h.podDo other hne).symm ▸ hblank.podDo
    · exact (h.listed other hne).symm ▸ hblank.listed
    · exact (h.visited other hne).symm ▸ hblank.visited
    · exact hdir.symm ▸ hblank.directory

/-- What a deletion leaves: containers that are owned, the other pods' entries, and nothing of a
visited pod. -/
structure Removed [Gjson] (owner : String → String × String) (vm : VirtualManager)
    (disk : ConfigDisk) (pod : Json) : Prop where
  owned : (deletePodPath vm disk pod).1.Owned owner
  untouched : Untouched owner (podUID pod) vm (deletePodPath vm disk pod).1 disk
    (deletePodPath vm disk pod).2
  blank : (acceptedDelete pod = true ∨ Blank vm disk (podUID pod)) →
    (¬ Blank vm disk (podUID pod) → vm.podVisitedByUID (podUID pod) = some true) →
      Blank (deletePodPath vm disk pod).1 (deletePodPath vm disk pod).2 (podUID pod)

/-- The deletion of a pod whose containers' names lead to these. -/
theorem removed_delete_pod_path [Gjson] {pod : Json} (disk : ConfigDisk) (h : vm.Owned owner)
    (huid : PlainElement (podUID pod)) (hlead : vm.NamesLeadTo owner (podUID pod)) :
    Removed owner vm disk pod := by
  by_cases hdelete : acceptedDelete pod = true ∧ vm.podVisitedByUID (podUID pod) = some true
  · have hresult : deletePodPath vm disk pod =
        (vm.forgetPod (podUID pod), disk.removeAll (podPath (podUID pod))) := by
      simp [deletePodPath, hdelete.1, hdelete.2, podPath]
    refine ⟨?_, ?_, fun _ _ => ?_⟩
    · rw [hresult]
      exact owned_forget_pod h (podUID pod)
    · rw [hresult]
      exact untouched_forget_pod h huid hlead
    · rw [hresult]
      exact blank_forget_pod vm disk (podUID pod)
  · have hresult : deletePodPath vm disk pod = (vm, disk) := by
      unfold deletePodPath
      split
      · rfl
      · rename_i haccepted
        rw [if_pos]
        cases hvisited : vm.podVisitedByUID (podUID pod) with
        | none => rfl
        | some visited =>
            cases visited with
            | false => rfl
            | true => exact absurd ⟨by simpa using haccepted, hvisited⟩ hdelete
    refine ⟨?_, ?_, fun haccepted hvisited => ?_⟩
    · rw [hresult]
      exact h
    · rw [hresult]
      exact untouched_refl owner (podUID pod) vm disk
    · rw [hresult]
      rcases haccepted with haccepted | hblank
      · by_contra hblank
        exact hdelete ⟨haccepted, hvisited hblank⟩
      · exact hblank

end Delete

/-! ## Runs -/

/-- The invariant of such a run. A pod with entries is visited, unless a handler of it is on its way
to mark it; a pod whose deletion has run has no entries, and no event that could store any. -/
structure DeletionInv [Gjson] (owner : String → String × String) (state : State × List String) :
    Prop where
  heads : state.1.run.HoldsHead state.1.podMgr
  queued : ∀ obj ∈ state.1.podMgr.podModObj, WellFormed owner obj
  removals : ∀ obj ∈ state.1.podMgr.podDelObj, PlainElement (podUID obj)
  deleters : ∀ obj ∈ state.1.deleters, PlainElement (podUID obj)
  events : ∀ handler ∈ state.1.handlers, WellFormed owner handler.event
  admitted : ∀ handler ∈ state.1.handlers, handler.point ≠ .entry → handler.point ≠ .finished →
    accepted handler.event = true
  inside : ∀ handler ∈ state.1.handlers, handler.point.Inside owner (podUID handler.event)
  owned : state.1.vm.Owned owner
  stored : ∀ uid, PlainElement uid → ¬ Blank state.1.vm state.1.disk uid →
    state.1.vm.podVisitedByUID uid = some true ∨
      ∃ handler ∈ state.1.handlers, podUID handler.event = uid ∧ handler.point.beforeMark = true
  marked : ∀ handler ∈ state.1.handlers, handler.point.afterMark = true →
    state.1.vm.podVisitedByUID (podUID handler.event) = some true
  gone : ∀ uid ∈ state.2, PlainElement uid ∧
    (PendingDelete state.1 uid ∨ ¬ MayStore state.1 uid ∧ Blank state.1.vm state.1.disk uid)

section Runs

variable [Gjson] {owner : String → String × String}

/-- A handler that goes on has passed the checks. -/
theorem moves_admitted {cgroupV2 : Bool} {vm after : VirtualManager} {disk made : ConfigDisk}
    {event : Json} {answer : Answer} {point following : HandlerPoint}
    (hadmitted : point ≠ .entry → point ≠ .finished → accepted event = true)
    (hmoves : Moves cgroupV2 vm disk event answer point after made following)
    (hrunning : following ≠ .finished) : accepted event = true := by
  cases hmoves with
  | refuse => exact absurd rfl hrunning
  | serve haccepted | skip haccepted => exact haccepted
  | _ => exact hadmitted (by simp) (by simp)

/-- A handler can store something only if it could before, unless it waits and fetches its pod. -/
theorem moves_may_store {cgroupV2 : Bool} {vm after : VirtualManager} {disk made : ConfigDisk}
    {event : Json} {answer : Answer} {point following : HandlerPoint}
    (hwaits : point.isWaiting = true → answer.pod = none)
    (hmoves : Moves cgroupV2 vm disk event answer point after made following)
    (hstore : following.mayStore = true) : point.mayStore = true := by
  cases hmoves with
  | statuses tries statuses hsome => exact hsome
  | again tries statuses reply hreply => exact absurd (hreply.symm.trans (hwaits rfl)) (by simp)
  | refuse | giveUp | getPodFailed | getPod => cases hstore
  | _ => rfl

/-- A handler that can store nothing changes nothing. -/
theorem moves_idle {cgroupV2 : Bool} {vm after : VirtualManager} {disk made : ConfigDisk}
    {event : Json} {answer : Answer} {point following : HandlerPoint}
    (hadmitted : point ≠ .entry → point ≠ .finished → accepted event = true)
    (hidle : ¬ (accepted event = true ∧ point.mayStore = true))
    (hmoves : Moves cgroupV2 vm disk event answer point after made following) :
    after = vm ∧ made = disk := by
  cases hmoves with
  | refuse | giveUp | statuses | again | getPodFailed | getPod => exact ⟨rfl, rfl⟩
  | serve haccepted | skip haccepted => exact absurd ⟨haccepted, rfl⟩ hidle
  | _ => exact absurd ⟨hadmitted (by simp) (by simp), rfl⟩ hidle

/-- What a handler does for its own pod: it is on its way to mark it, or the pod is visited, or
nothing has changed. -/
theorem moves_own {cgroupV2 : Bool} {vm after : VirtualManager} {disk made : ConfigDisk}
    {event : Json} {answer : Answer} {point following : HandlerPoint}
    (hmarked : point.afterMark = true → vm.podVisitedByUID (podUID event) = some true)
    (hmoves : Moves cgroupV2 vm disk event answer point after made following) :
    following.beforeMark = true ∨ after.podVisitedByUID (podUID event) = some true ∨
      after = vm ∧ made = disk ∧ point.beforeMark = false := by
  cases hmoves with
  | refuse | serve | giveUp | statuses | again | recordNone | getPodFailed | getPod =>
      exact .inr (.inr ⟨rfl, rfl, rfl⟩)
  | wasVisited hvisited =>
      refine .inr (.inl ?_)
      cases hfound : vm.podVisitedByUID (podUID event) with
      | none => simp [hfound] at hvisited
      | some visited =>
          rw [hfound] at hvisited
          exact congrArg some hvisited
  | mark => exact .inr (.inl (Function.update_self ..))
  | podDirFailed | podDir | requests => exact .inr (.inl (hmarked rfl))
  | _ => exact .inl rfl

/-- A handler that stores something for a visited pod has marked it. -/
theorem moves_marked {cgroupV2 : Bool} {vm after : VirtualManager} {disk made : ConfigDisk}
    {event : Json} {answer : Answer} {point following : HandlerPoint}
    (hmarked : point.afterMark = true → vm.podVisitedByUID (podUID event) = some true)
    (hmoves : Moves cgroupV2 vm disk event answer point after made following)
    (hafter : following.afterMark = true) :
    after.podVisitedByUID (podUID event) = some true := by
  cases hmoves with
  | mark => exact Function.update_self ..
  | podDir => exact hmarked rfl
  | _ => cases hafter

/-- A handled deletion stays pending, or gone for good, over a step that gives its pod neither an
event nor an entry. -/
theorem DeletionInv.gone_of {state next : State} {log : List String} {uid : String}
    (h : DeletionInv owner (state, log)) (hgone : uid ∈ log)
    (hpending : PendingDelete state uid → PendingDelete next uid)
    (hstore : ¬ PendingDelete state uid → MayStore next uid → MayStore state uid)
    (hblank : PlainElement uid → ¬ MayStore state uid → Blank state.vm state.disk uid →
      Blank next.vm next.disk uid) :
    PlainElement uid ∧
      (PendingDelete next uid ∨ ¬ MayStore next uid ∧ Blank next.vm next.disk uid) := by
  obtain ⟨hplain, hcases⟩ := h.gone uid hgone
  by_cases hleft : PendingDelete state uid
  · exact ⟨hplain, .inl (hpending hleft)⟩
  · obtain ⟨hnot, hclean⟩ := hcases.resolve_left hleft
    exact ⟨hplain, .inr ⟨fun hmay => hnot (hstore hleft hmay), hblank hplain hnot hclean⟩⟩

/-- A handler that has moved can store something only if it could before. -/
theorem may_store_of_set {state next : State} {i : Nat} {handler : Handler} {point : HandlerPoint}
    {uid : String} (hhandler : state.handlers[i]? = some handler)
    (hqueue : next.podMgr = state.podMgr)
    (hset : next.handlers = state.handlers.set i { handler with point })
    (hmay : podUID handler.event = uid → point.mayStore = true → handler.point.mayStore = true)
    (h : MayStore next uid) : MayStore state uid := by
  rcases h with hqueued | ⟨other, hother, hsame, haccepted, hstore⟩
  · exact .inl (hqueue ▸ hqueued)
  · rw [hset] at hother
    rcases List.mem_or_eq_of_mem_set hother with hold | rfl
    · exact .inr ⟨other, hold, hsame, haccepted, hstore⟩
    · exact .inr ⟨handler, List.mem_of_getElem? hhandler, hsame, haccepted, hmay hsame hstore⟩

/-- The manager starts with nothing stored. -/
theorem deletion_inv_initial : DeletionInv owner (State.initial, []) := by
  refine ⟨trivial, by simp [State.initial, State.boot, newPodManager],
    by simp [State.initial, State.boot, newPodManager], by simp [State.initial, State.boot],
    by simp [State.initial, State.boot], by simp [State.initial, State.boot],
    by simp [State.initial, State.boot], ⟨?_, ?_, ?_⟩, fun uid hplain hstored => ?_,
    by simp [State.initial, State.boot], by simp⟩
  · simp [State.initial, State.boot, newVirtualManager]
  · simp [State.initial, State.boot, newVirtualManager, VirtualManager.listed]
  · simp [State.initial, State.boot, newVirtualManager]
  · refine absurd ⟨rfl, rfl, rfl, rfl, rfl, by simp [State.initial, State.boot, newVirtualManager],
      ?_⟩ hstored
    have hboot : (Disk.empty ResourceData).mkdirAll (baseDir []) = some State.initial.disk := by
      simp [State.initial, State.boot, Disk.mkdirAll, Disk.isFile, Disk.empty]
    have hlonger : ¬ podPath uid <+: baseDir [] := by
      intro hpart
      have hlength := hpart.length_le
      rw [pod_path_plain hplain, List.length_append, List.length_singleton] at hlength
      omega
    rw [Disk.mkdirAll_entry hboot hlonger, pod_path_plain hplain]
    simp [Disk.empty]

/-- A step of a handler keeps the invariant when it fetches its own pod, and none after the pod's
deletion. -/
theorem deletion_inv_handler {cgroupV2 : Bool} {state : State} {log : List String} {i : Nat}
    {answer : Answer} {handler : Handler} {vm : VirtualManager} {disk : ConfigDisk}
    {point : HandlerPoint} (h : DeletionInv owner (state, log))
    (hhandler : state.handlers[i]? = some handler)
    (hanswer : ∀ tries statuses, handler.point = .await tries statuses → ∀ pod ∈ answer.pod,
      WellFormed owner pod.toJson ∧ podUID pod.toJson = podUID handler.event)
    (hwaits : handler.point.isWaiting = true → podUID handler.event ∈ log →
      ¬ PendingDelete state (podUID handler.event) → answer.pod = none)
    (hmoves : Moves cgroupV2 state.vm state.disk handler.event answer handler.point vm disk
      point) :
    DeletionInv owner
      ({ state with vm, disk, handlers := state.handlers.set i { handler with point } }, log) := by
  have hmem := List.mem_of_getElem? hhandler
  have hadmitted := h.admitted handler hmem
  have hevent := h.events handler hmem
  have hkept := step_kept_moves h.owned hevent (h.inside handler hmem) hanswer hmoves
  refine ⟨h.heads, h.queued, h.removals, h.deleters, forall_mem_set h.events hevent,
    forall_mem_set h.admitted fun _ hrunning => moves_admitted hadmitted hmoves hrunning,
    forall_mem_set h.inside hkept.inside, hkept.owned, fun uid hplain hstored => ?_,
    forall_mem_set (fun other hold hafter => hkept.visited _ (h.marked other hold hafter))
      fun hafter => moves_marked (h.marked handler hmem) hmoves hafter,
    fun uid hgone => h.gone_of hgone id (fun hran => may_store_of_set hhandler rfl rfl ?_)
      fun hplain hnot hblank => ?_⟩
  · by_cases huid : uid = podUID handler.event
    · subst huid
      rcases moves_own (h.marked handler hmem) hmoves with hbefore | hvisited | ⟨rfl, rfl, hidle⟩
      · exact .inr ⟨_, moved_mem_set hhandler, rfl, hbefore⟩
      · exact .inl hvisited
      · rcases h.stored _ hplain hstored with hvisited | ⟨other, hother, hsame, hbefore⟩
        · exact .inl hvisited
        · refine .inr ⟨other, mem_set_of_ne hhandler hother ?_, hsame, hbefore⟩
          rintro rfl
          rw [hidle] at hbefore
          cases hbefore
    · have hold : ¬ Blank state.vm state.disk uid :=
        fun hblank => hstored (hkept.blank uid huid hplain hblank)
      rcases h.stored uid hplain hold with hvisited | ⟨other, hother, hsame, hbefore⟩
      · exact .inl (hkept.visited uid hvisited)
      · refine .inr ⟨other, mem_set_of_ne hhandler hother ?_, hsame, hbefore⟩
        rintro rfl
        exact huid hsame.symm
  · rintro rfl hstore
    exact moves_may_store (fun hwaiting => hwaits hwaiting hgone hran) hmoves hstore
  · by_cases huid : uid = podUID handler.event
    · have hidle : ¬ (accepted handler.event = true ∧ handler.point.mayStore = true) :=
        fun hstore => hnot (.inr ⟨handler, hmem, huid.symm, hstore⟩)
      obtain ⟨rfl, rfl⟩ := moves_idle hadmitted hidle hmoves
      exact hblank
    · exact hkept.blank uid huid hplain hblank

/-- A handler that sends its update and ends keeps the invariant. -/
theorem deletion_inv_finish {state : State} {log : List String} {i : Nat} {handler : Handler}
    {copyPod : Pod} (h : DeletionInv owner (state, log))
    (hhandler : state.handlers[i]? = some handler) (hpoint : handler.point = .annotate copyPod)
    (updates : List Pod) :
    DeletionInv owner
      ({ state with
        handlers := state.handlers.set i { handler with point := .finished }
        updates := updates }, log) := by
  have hmem := List.mem_of_getElem? hhandler
  refine ⟨h.heads, h.queued, h.removals, h.deleters,
    forall_mem_set h.events (h.events handler hmem),
    forall_mem_set h.admitted fun _ hrunning => absurd rfl hrunning,
    forall_mem_set h.inside trivial, h.owned, fun uid hplain hstored => ?_,
    forall_mem_set h.marked (fun hafter => nomatch hafter),
    fun uid hgone => h.gone_of hgone id
      (fun _ => may_store_of_set hhandler rfl rfl fun _ hstore => nomatch hstore)
      fun _ _ hblank => hblank⟩
  rcases h.stored uid hplain hstored with hvisited | ⟨other, hother, hsame, hbefore⟩
  · exact .inl hvisited
  · refine .inr ⟨other, mem_set_of_ne hhandler hother ?_, hsame, hbefore⟩
    rintro rfl
    rw [hpoint] at hbefore
    cases hbefore

/-- The start of a handler keeps the invariant. -/
theorem deletion_inv_serve {state : State} {log : List String} {podMgr : PodManager}
    {run : RunPoint} {pod : Json} (h : DeletionInv owner (state, log))
    (hheads : run.HoldsHead podMgr)
    (hmodified : [pod] ++ podMgr.podModObj = state.podMgr.podModObj)
    (hdeleted : podMgr.podDelObj = state.podMgr.podDelObj) :
    DeletionInv owner
      ({ state with podMgr, run }.spawn (some (.creatVcudaServer pod)), log) := by
  have hpod : pod ∈ state.podMgr.podModObj := by
    rw [← hmodified]
    exact List.mem_append_left _ (List.mem_singleton.mpr rfl)
  have hqueued : ∀ obj ∈ podMgr.podModObj, obj ∈ state.podMgr.podModObj := by
    intro obj hobj
    rw [← hmodified]
    exact List.mem_append_right _ hobj
  refine ⟨hheads, fun obj hobj => h.queued obj (hqueued obj hobj),
    fun obj hobj => h.removals obj (hdeleted ▸ hobj), h.deleters,
    forall_mem_concat h.events (h.queued pod hpod),
    forall_mem_concat h.admitted fun hentry => absurd rfl hentry,
    forall_mem_concat h.inside trivial, h.owned, fun uid hplain hstored => ?_,
    forall_mem_concat h.marked (fun hafter => nomatch hafter),
    fun uid hgone => h.gone_of hgone ?_ ?_ fun _ _ hblank => hblank⟩
  · rcases h.stored uid hplain hstored with hvisited | ⟨other, hother, hsame⟩
    · exact .inl hvisited
    · exact .inr ⟨other, List.mem_append_left _ hother, hsame⟩
  · rintro (⟨obj, hobj, hsame⟩ | hdeleter)
    · exact .inl ⟨obj, hdeleted.symm ▸ hobj, hsame⟩
    · exact .inr hdeleter
  · rintro - (⟨obj, hobj, hstore⟩ | ⟨other, hother, hsame, haccepted, hstore⟩)
    · exact .inl ⟨obj, hqueued obj hobj, hstore⟩
    · rcases List.mem_append.mp hother with hold | hnew
      · exact .inr ⟨other, hold, hsame, haccepted, hstore⟩
      · obtain rfl := List.mem_singleton.mp hnew
        exact .inl ⟨pod, hpod, hsame, haccepted⟩

/-- The start of a deletion keeps the invariant. -/
theorem deletion_inv_remove {state : State} {log : List String} {podMgr : PodManager}
    {run : RunPoint} {pod : Json} (h : DeletionInv owner (state, log))
    (hheads : run.HoldsHead podMgr) (hmodified : podMgr.podModObj = state.podMgr.podModObj)
    (hdeleted : [pod] ++ podMgr.podDelObj = state.podMgr.podDelObj) :
    DeletionInv owner ({ state with podMgr, run }.spawn (some (.deletePodPath pod)), log) := by
  have hpod : pod ∈ state.podMgr.podDelObj := by
    rw [← hdeleted]
    exact List.mem_append_left _ (List.mem_singleton.mpr rfl)
  have hremovals : ∀ obj ∈ podMgr.podDelObj, obj ∈ state.podMgr.podDelObj := by
    intro obj hobj
    rw [← hdeleted]
    exact List.mem_append_right _ hobj
  refine ⟨hheads, fun obj hobj => h.queued obj (hmodified ▸ hobj),
    fun obj hobj => h.removals obj (hremovals obj hobj),
    forall_mem_concat h.deleters (h.removals pod hpod), h.events, h.admitted, h.inside, h.owned,
    h.stored, h.marked, fun uid hgone => h.gone_of hgone ?_ ?_ fun _ _ hblank => hblank⟩
  · rintro (⟨obj, hobj, hsame⟩ | ⟨obj, hobj, hsame⟩)
    · rw [← hdeleted] at hobj
      rcases List.mem_append.mp hobj with hstarted | hleft
      · exact .inr ⟨obj, List.mem_append_right _ hstarted, hsame⟩
      · exact .inl ⟨obj, hleft, hsame⟩
    · exact .inr ⟨obj, List.mem_append_left _ hobj, hsame⟩
  · rintro - (⟨obj, hobj, hstore⟩ | hhandler)
    · exact .inl ⟨obj, hmodified ▸ hobj, hstore⟩
    · exact .inr hhandler

/-- A step of the loop keeps the invariant. -/
theorem deletion_inv_run {state : State} {log : List String} {podMgr : PodManager}
    {run : RunPoint} {spawn : Option Spawn} (h : DeletionInv owner (state, log))
    (hrun : runStep state.podMgr state.run = .next podMgr run spawn) :
    DeletionInv owner ({ state with podMgr, run }.spawn spawn, log) := by
  obtain ⟨hheads, hmodified, hdeleted⟩ := run_step_queues h.heads hrun
  rcases spawn with _ | pod | pod
  · have hsame : podMgr = state.podMgr := by
      cases podMgr
      cases hmgr : state.podMgr
      simp_all [startedModified, startedDeleted]
    subst hsame
    exact ⟨hheads, h.queued, h.removals, h.deleters, h.events, h.admitted, h.inside, h.owned,
      h.stored, h.marked, h.gone⟩
  · exact deletion_inv_serve h hheads hmodified.symm hdeleted.symm
  · exact deletion_inv_remove h hheads hmodified.symm hdeleted.symm

/-- A deletion that comes last keeps the invariant. -/
theorem deletion_inv_deleter {state : State} {log : List String} {i : Nat} {pod : Json}
    (h : DeletionInv owner (state, log)) (hpod : state.deleters[i]? = some pod)
    (hlast : ¬ MayStore state (podUID pod))
    (haccepted : acceptedDelete pod = true ∨ Blank state.vm state.disk (podUID pod))
    (hlead : state.vm.NamesLeadTo owner (podUID pod)) :
    DeletionInv owner
      ({ state with
        vm := (deletePodPath state.vm state.disk pod).1
        disk := (deletePodPath state.vm state.disk pod).2
        deleters := state.deleters.eraseIdx i }, log) := by
  have huid := h.deleters pod (List.mem_of_getElem? hpod)
  have hremoved := removed_delete_pod_path state.disk h.owned huid hlead
  have hother : ∀ uid, uid ≠ podUID pod → PlainElement uid →
      (Blank (deletePodPath state.vm state.disk pod).1 (deletePodPath state.vm state.disk pod).2
          uid ↔ Blank state.vm state.disk uid) :=
    fun uid hne hplain => blank_untouched hremoved.untouched hne hplain
  have hidle : ∀ handler ∈ state.handlers, podUID handler.event = podUID pod →
      handler.point.mayStore = true → handler.point = .entry := by
    intro handler hmem hsame hstore
    by_contra hentry
    refine hlast (.inr ⟨handler, hmem, hsame, ?_, hstore⟩)
    refine h.admitted handler hmem hentry fun hfinished => ?_
    rw [hfinished] at hstore
    cases hstore
  have hblank : Blank (deletePodPath state.vm state.disk pod).1
      (deletePodPath state.vm state.disk pod).2 (podUID pod) := by
    refine hremoved.blank haccepted fun hstored => ?_
    rcases h.stored _ huid hstored with hvisited | ⟨handler, hmem, hsame, hbefore⟩
    · exact hvisited
    · have hentry := hidle handler hmem hsame (may_store_of_before_mark hbefore)
      rw [hentry] at hbefore
      cases hbefore
  refine ⟨h.heads, h.queued, h.removals, fun obj hobj => ?_, h.events, h.admitted, h.inside,
    hremoved.owned, fun uid hplain hstored => ?_, fun handler hmem hafter => ?_,
    fun uid hgone => ?_⟩
  · exact h.deleters obj ((List.eraseIdx_sublist _ _).mem hobj)
  · by_cases hne : uid = podUID pod
    · exact absurd (hne ▸ hblank) hstored
    · have hold : ¬ Blank state.vm state.disk uid :=
        fun h => hstored ((hother uid hne hplain).mpr h)
      rcases h.stored uid hplain hold with hvisited | hhandler
      · exact .inl ((hremoved.untouched.visited uid hne).trans hvisited)
      · exact .inr hhandler
  · by_cases hne : podUID handler.event = podUID pod
    · have hentry := hidle handler hmem hne (may_store_of_after_mark hafter)
      rw [hentry] at hafter
      cases hafter
    · exact (hremoved.untouched.visited _ hne).trans (h.marked handler hmem hafter)
  · obtain ⟨hplain, hcases⟩ := h.gone uid hgone
    refine ⟨hplain, ?_⟩
    by_cases hne : uid = podUID pod
    · subst hne
      exact .inr ⟨hlast, hblank⟩
    · rcases hcases with (hqueued | ⟨obj, hobj, hsame⟩) | ⟨hnot, hold⟩
      · exact .inl (.inl hqueued)
      · obtain ⟨j, hj⟩ := List.mem_iff_getElem?.mp hobj
        refine .inl (.inr ⟨obj, List.mem_eraseIdx_iff_getElem?.mpr ⟨j, ?_, hj⟩, hsame⟩)
        rintro rfl
        obtain rfl := Option.some.inj (hj.symm.trans hpod)
        exact hne hsame.symm
      · exact .inr ⟨hnot, (hother uid hne hplain).mpr hold⟩

/-- Every step of a stream keeps the invariant when deletions come last. -/
theorem deletion_inv_step {cgroupV2 : Bool} {state next : State × List String} {action : Action}
    (h : DeletionInv owner state) (hstream : Stream owner state action)
    (hlast : DeletesLast owner state action)
    (hstep : logged (step cgroupV2) deletions state action = some next) :
    DeletionInv owner next := by
  obtain ⟨state, log⟩ := state
  obtain ⟨following, log'⟩ := next
  obtain ⟨hnext, hlog⟩ := logged_eq_some.mp hstep
  simp only at hnext hlog
  subst hlog
  cases effect_of_step hnext with
  | restart heq => exact hstream.elim
  | modified obj heq =>
      subst heq
      rw [show log ++ deletions state (.modified obj) = log from List.append_nil log]
      refine ⟨(holds_head_append h.heads obj).1, forall_mem_concat h.queued hstream.1, h.removals,
        h.deleters, h.events, h.admitted, h.inside, h.owned, h.stored, h.marked,
        fun uid hgone => h.gone_of hgone id ?_ fun _ _ hblank => hblank⟩
      rintro - (⟨other, hother, hsame, haccepted⟩ | hhandler)
      · rcases List.mem_append.mp hother with hold | hnew
        · exact .inl ⟨other, hold, hsame, haccepted⟩
        · obtain rfl := List.mem_singleton.mp hnew
          exact absurd (hsame ▸ hgone) hstream.2
      · exact .inr hhandler
  | deleted obj heq =>
      subst heq
      refine ⟨(holds_head_append h.heads obj).2, h.queued, forall_mem_concat h.removals hstream.1,
        h.deleters, h.events, h.admitted, h.inside, h.owned, h.stored, h.marked,
        fun uid hgone => ?_⟩
      rcases List.mem_append.mp hgone with hold | hnew
      · refine h.gone_of hold ?_ (fun _ hmay => hmay) fun _ _ hblank => hblank
        rintro (⟨other, hother, hsame⟩ | hdeleter)
        · exact .inl ⟨other, List.mem_append_left _ hother, hsame⟩
        · exact .inr hdeleter
      · obtain rfl := List.mem_singleton.mp hnew
        exact ⟨hstream.1, .inl (.inl ⟨obj, List.mem_append_right _ (by simp), rfl⟩)⟩
  | run podMgr run spawn hrun heq =>
      subst heq
      rw [show log ++ deletions state .run = log from List.append_nil log]
      exact deletion_inv_run h hrun
  | handler i answer handler vm disk point hhandler hmoves heq =>
      subst heq
      rw [show log ++ deletions state (.handler i answer) = log from List.append_nil log]
      refine deletion_inv_handler h hhandler (fun tries statuses hpoint pod hpod => ?_)
        (fun hwaiting hgone hran => ?_) hmoves
      · have hsame := (hlast handler hhandler pod hpod).1
        simp only [Handler.FetchesOwn, hpoint] at hsame
        exact ⟨hstream pod hpod, hsame⟩
      · refine Option.eq_none_iff_forall_not_mem.mpr fun pod hpod => hran ?_
        exact (hlast handler hhandler pod hpod).2 hwaiting hgone
  | updated i answer handler copyPod pod hhandler hpoint heq =>
      subst heq
      rw [show log ++ deletions state (.handler i answer) = log from List.append_nil log]
      exact deletion_inv_finish h hhandler hpoint _
  | runPanic heq =>
      subst heq
      rw [show log ++ deletions state .run = log from List.append_nil log]
      exact ⟨h.heads, h.queued, h.removals, h.deleters, h.events, h.admitted, h.inside, h.owned,
        h.stored, h.marked, h.gone⟩
  | handlerPanic i answer handler hhandler hnone heq =>
      subst heq
      rw [show log ++ deletions state (.handler i answer) = log from List.append_nil log]
      exact ⟨h.heads, h.queued, h.removals, h.deleters, h.events, h.admitted, h.inside, h.owned,
        h.stored, h.marked, h.gone⟩
  | deleter i pod hpod heq =>
      subst heq
      rw [show log ++ deletions state (.deleter i) = log from List.append_nil log]
      obtain ⟨hnot, haccepted, hlead⟩ := hlast pod hpod
      exact deletion_inv_deleter h hpod hnot haccepted hlead

end Runs

/-- In every run over a stream of events in which every deletion comes last, nothing is left of a
deleted pod once all of its events have been handled, in any state reached, and no deletion touches
the entries of another pod. -/
theorem deleted_pods_leave_nothing [Gjson] (cgroupV2 : Bool) (owner : String → String × String)
    (actions : List Action)
    (hstream : Along (logged (step cgroupV2) deletions) (Stream owner) (State.initial, []) actions)
    (hlast : Along (logged (step cgroupV2) deletions) (DeletesLast owner) (State.initial, [])
      actions) :
    Always (logged (step cgroupV2) deletions) (LeavesNothing owner) (State.initial, []) actions ∧
      Along (logged (step cgroupV2) deletions) (fun state => DeletesOwn owner state.1)
        (State.initial, []) actions := by
  have hpreserve : ∀ state action next, DeletionInv owner state →
      Stream owner state action ∧ DeletesLast owner state action →
        logged (step cgroupV2) deletions state action = some next → DeletionInv owner next :=
    fun state action next h hcond hstep => deletion_inv_step h hcond.1 hcond.2 hstep
  constructor
  · refine always_of_along hpreserve (fun state h uid hgone hhandled => ?_) deletion_inv_initial
      (hstream.and hlast)
    obtain ⟨-, (⟨obj, hobj, hsame⟩ | ⟨obj, hobj, hsame⟩) | ⟨-, hblank⟩⟩ := h.gone uid hgone
    · exact absurd hsame (hhandled.deleted obj hobj)
    · exact absurd hsame (hhandled.deleters obj hobj)
    · refine ⟨hblank, fun cont howner => Option.isNone_iff_eq_none.mpr ?_⟩
      cases hname : state.1.vm.containerNameByUid cont with
      | none => rfl
      | some name =>
          have hlisted := (h.owned.named cont name hname).2
          rw [howner, VirtualManager.listed, Option.isNone_iff_eq_none.mp hblank.listed] at hlisted
          cases hlisted
  · refine along_of_invariant hpreserve (fun state action next h hcond _ => ?_) deletion_inv_initial
      (hstream.and hlast)
    cases action with
    | deleter i =>
        intro pod hpod
        obtain ⟨-, -, hlead⟩ := hcond.2 pod hpod
        exact (removed_delete_pod_path state.1.disk h.owned
          (h.deleters pod (List.mem_of_getElem? hpod)) hlead).untouched
    | _ => trivial

/-- The life of a pod: its event is handled, then its deletion, which the loop reaches after as
many steps. -/
def servedThenDeleted (pod : Pod) (steps loop : Nat) : List Action :=
  [handledEvent pod 3 0 steps, [.deleted pod.toJson], List.replicate loop .run,
    [.deleter 0]].flatten

/-- The pod after it has been assigned, before its container has been created. -/
def waitingPod : Pod := { runningPod with containerStatuses := [] }

/-- The pod is stored, and deleted while the handler of its next event waits for the statuses; the
API server does not find the pod any more, and the handler ends. -/
def deletedWhileWaiting : List Action :=
  [handledEvent scheduledPod 3 0 7, handledEvent waitingPod 4 1 1, [.deleted waitingPod.toJson],
    List.replicate 4 .run, [.deleter 0, .handler 1 ⟨true, none⟩]].flatten

/-- That is a stream. -/
theorem deleted_while_waiting_stream :
    letI := Gjson.reader
    Along (logged (step false) deletions) (Stream fun _ => ("uid-a", "main")) (State.initial, [])
      deletedWhileWaiting := by
  decide +kernel

/-- The handler that waits can store nothing when the deletion comes. -/
theorem deleted_while_waiting_last :
    letI := Gjson.reader
    Along (logged (step false) deletions) (DeletesLast fun _ => ("uid-a", "main"))
      (State.initial, []) deletedWhileWaiting := by
  decide +kernel

/-- Nothing is left of the pod afterwards. -/
theorem deleted_pods_leave_nothing_waiting :
    letI := Gjson.reader
    ∃ state, exec (logged (step false) deletions) (State.initial, []) deletedWhileWaiting =
        some state ∧
      state.2 = ["uid-a"] ∧ Handled state.1 "uid-a" ∧
      Clean (fun _ => ("uid-a", "main")) state.1.vm state.1.disk "uid-a" := by
  let reader := Gjson.reader
  have hrun : (exec (logged (step false) deletions) (State.initial, []) deletedWhileWaiting).map
      (fun state => (state.2, [state.1.podMgr.podModObj.length, state.1.podMgr.podDelObj.length,
        state.1.deleters.length], state.1.handlers.map fun handler => handler.point.isFinished)) =
      some (["uid-a"], [0, 0, 0], [true, true]) := by decide +kernel
  obtain ⟨state, hstate, hfound⟩ := Option.map_eq_some_iff.mp hrun
  simp only [Prod.mk.injEq, List.cons.injEq, List.length_eq_zero_iff] at hfound
  obtain ⟨hgone, ⟨hmodified, hdeleted, hdeleters, -⟩, hfinished⟩ := hfound
  have hhandled : Handled state.1 "uid-a" := by
    refine ⟨by simp [hmodified], by simp [hdeleted], fun handler hmem _ => ?_, by simp [hdeleters]⟩
    have hpoint : handler.point.isFinished ∈ [true, true] :=
      hfinished ▸ List.mem_map.mpr ⟨handler, hmem, rfl⟩
    exact point_of_is_finished (by simpa using hpoint)
  have hall := deleted_pods_leave_nothing false (fun _ => ("uid-a", "main")) deletedWhileWaiting
    deleted_while_waiting_stream deleted_while_waiting_last
  exact ⟨state, hstate, hgone, hhandled, hall.1.final hstate "uid-a" (by simp [hgone]) hhandled⟩

/-- A pod with resource requests that is never assigned a GPU. -/
def unassignedPod : Pod :=
  { runningPod with
    annotations := some [("team", "blue")]
    containers :=
      [{ name := "main"
         requests := [("cpu", PluginRegister.tenUnits)]
         limits := [] }]
    containerStatuses := [] }

/-- The life of `unassignedPod` is a stream. -/
theorem unassigned_pod_stream :
    letI := Gjson.reader
    Along (logged (step false) deletions) (Stream fun _ => ("uid-a", "main")) (State.initial, [])
      (servedThenDeleted unassignedPod 7 3) := by
  decide +kernel

/-- Its entries stay when it is deleted. -/
theorem deleted_pods_leave_nothing_counterexample :
    letI := Gjson.reader
    ¬ ∀ (cgroupV2 : Bool) (owner : String → String × String) (actions : List Action),
        Along (logged (step cgroupV2) deletions) (Stream owner) (State.initial, []) actions →
          Always (logged (step cgroupV2) deletions) (LeavesNothing owner) (State.initial, [])
            actions := by
  intro h
  let reader := Gjson.reader
  have hrun : (exec (logged (step false) deletions) (State.initial, [])
      (servedThenDeleted unassignedPod 7 3)).map
        (fun state => (state.2, [state.1.podMgr.podModObj.length, state.1.podMgr.podDelObj.length,
          state.1.deleters.length], state.1.vm.podVisitedByUID "uid-a",
          state.1.handlers.all fun handler => handler.point.isFinished)) =
      some (["uid-a"], [0, 0, 0], some true, true) := by decide +kernel
  obtain ⟨state, hstate, hfound⟩ := Option.map_eq_some_iff.mp hrun
  simp only [Prod.mk.injEq, List.cons.injEq, List.length_eq_zero_iff] at hfound
  obtain ⟨hgone, ⟨hmodified, hdeleted, hdeleters, -⟩, hvisited, hfinished⟩ := hfound
  have hleft := (h false _ _ unassigned_pod_stream).final hstate "uid-a" (by simp [hgone])
    ⟨by simp [hmodified], by simp [hdeleted], fun handler hmem _ => ?_, by simp [hdeleters]⟩
  · exact hleft.blank.visited hvisited
  · exact point_of_is_finished (List.all_eq_true.mp hfinished handler hmem)

end UniShare.ResourceManager
