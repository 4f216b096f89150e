import UniShare.ResourceManager.Machine

/-!
# What the steps of the manager do

`Moves` lists what a step of a `creatVcudaServer` handler can do to the maps, the disk and the
handler's point, and `Effect` what a step of the machine can do. The proofs about runs go by their
cases. The loop over the container statuses is one update of the maps for each container that has
a name and an ID (`record_containers_eq`).
-/

namespace UniShare.ResourceManager

open Lib Kube PodWatch

/-! ## Recording containers -/

/-- The UIDs and names of the containers that have both in a list of statuses; `none` when an ID
has no UID in it. -/
def recordedPairs [Gjson] : List Json → Option (List (String × String))
  | [] => some []
  | value :: rest =>
      let uidStr := Gjson.string (Gjson.get (some value) "containerID")
      let name := Gjson.string (Gjson.get (some value) "name")
      if uidStr = "" then recordedPairs rest
      else if name = "" then recordedPairs rest
      else
        match containerUID uidStr with
        | none => none
        | some uid => (recordedPairs rest).map fun pairs => (uid, name) :: pairs

/-- The container statuses of a document are about distinct containers of its pod: every UID has
one owner, a pod's UID and a container's name. -/
def OwnStatuses [Gjson] (owner : String → String × String) (document : Json) : Prop :=
  ∀ pairs ∈ recordedPairs (Gjson.forEach (containerStatuses document)),
    (pairs.map Prod.fst).Nodup ∧ ∀ pair ∈ pairs, owner pair.1 = (podUID document, pair.2)

/-- The directory of a container of the pod. -/
def containerDir (cgroupV2 : Bool) (owner : String → String × String) (uid cont : String) :
    List String :=
  baseDir [uid, if cgroupV2 then (owner cont).2 else cont]

/-- Record one container of a pod. -/
def VirtualManager.recordPair (podUID : String) (vm : VirtualManager) (pair : String × String) :
    VirtualManager :=
  { vm with
    containerNameByUid := Function.update vm.containerNameByUid pair.1 (some pair.2)
    containerUIDByName := Function.update vm.containerUIDByName pair.2 (some pair.1)
    containerUIDInPodUID := Function.update vm.containerUIDInPodUID podUID
      (some ((vm.containerUIDInPodUID podUID).getD [] ++ [pair.1])) }

/-- The UIDs that are listed for a pod. -/
def VirtualManager.listed (vm : VirtualManager) (podUID : String) : List String :=
  (vm.containerUIDInPodUID podUID).getD []

/-- The loop over the statuses records the containers with a UID and a name one by one. -/
theorem record_containers_eq [Gjson] (podUID : String) (vm : VirtualManager) (flag : Bool)
    (values : List Json) :
    vm.recordContainers podUID flag values =
      (recordedPairs values).map fun pairs =>
        (pairs.foldl (VirtualManager.recordPair podUID) vm, flag || !pairs.isEmpty) := by
  induction values generalizing vm flag with
  | nil => simp [VirtualManager.recordContainers, recordedPairs]
  | cons value rest ih =>
      by_cases hid : Gjson.string (Gjson.get (some value) "containerID") = ""
      · simp [VirtualManager.recordContainers, VirtualManager.recordContainer, recordedPairs, hid,
          ih]
      by_cases hname : Gjson.string (Gjson.get (some value) "name") = ""
      · simp [VirtualManager.recordContainers, VirtualManager.recordContainer, recordedPairs, hid,
          hname, ih]
      cases huid : containerUID (Gjson.string (Gjson.get (some value) "containerID")) with
      | none =>
          simp [VirtualManager.recordContainers, VirtualManager.recordContainer, recordedPairs, hid,
            hname, huid]
      | some uid =>
          simp [VirtualManager.recordContainers, VirtualManager.recordContainer, recordedPairs, hid,
            hname, huid, ih, Function.comp_def, VirtualManager.recordPair]

section Record

variable (podUID : String) (vm : VirtualManager)

/-- Recording a container lists it for its pod. -/
theorem record_pair_listed (pair : String × String) (other : String) :
    (vm.recordPair podUID pair).listed other =
      if other = podUID then vm.listed podUID ++ [pair.1] else vm.listed other := by
  by_cases heq : other = podUID
  · simp [VirtualManager.listed, VirtualManager.recordPair, heq]
  · simp [VirtualManager.listed, VirtualManager.recordPair, heq]

/-- Recording containers lists them for their pod. -/
theorem record_pairs_listed (pairs : List (String × String)) (other : String) :
    (pairs.foldl (VirtualManager.recordPair podUID) vm).listed other =
      if other = podUID then vm.listed podUID ++ pairs.map Prod.fst else vm.listed other := by
  induction pairs generalizing vm with
  | nil => by_cases heq : other = podUID <;> simp [heq]
  | cons pair rest ih =>
      rw [List.foldl_cons, ih]
      by_cases heq : other = podUID
      · simp [heq, record_pair_listed]
      · simp [heq, record_pair_listed]

/-- The name that a container has afterwards is one that was recorded for it, or its old one. -/
theorem record_pairs_name (pairs : List (String × String)) (uid : String) :
    (∃ name, (uid, name) ∈ pairs ∧
        (pairs.foldl (VirtualManager.recordPair podUID) vm).containerNameByUid uid = some name) ∨
      uid ∉ pairs.map Prod.fst ∧
        (pairs.foldl (VirtualManager.recordPair podUID) vm).containerNameByUid uid =
          vm.containerNameByUid uid := by
  induction pairs generalizing vm with
  | nil => exact .inr ⟨by simp, rfl⟩
  | cons pair rest ih =>
      rw [List.foldl_cons]
      rcases ih (vm.recordPair podUID pair) with ⟨name, hmem, hname⟩ | ⟨hnot, hname⟩
      · exact .inl ⟨name, List.mem_cons_of_mem _ hmem, hname⟩
      · by_cases heq : uid = pair.1
        · refine .inl ⟨pair.2, by simp [heq], ?_⟩
          rw [hname, heq]
          exact Function.update_self ..
        · refine .inr ⟨by simpa [heq] using hnot, ?_⟩
          rw [hname]
          exact Function.update_of_ne heq ..

/-- A name that leads to a container afterwards was recorded, or led to it before. -/
theorem record_pairs_back (pairs : List (String × String)) {name cont : String}
    (h : (pairs.foldl (VirtualManager.recordPair podUID) vm).containerUIDByName name = some cont) :
    name ∈ pairs.map Prod.snd ∨ vm.containerUIDByName name = some cont := by
  induction pairs generalizing vm with
  | nil => exact .inr h
  | cons pair rest ih =>
      rcases ih (vm.recordPair podUID pair) h with hmem | hback
      · exact .inl (List.mem_cons_of_mem _ hmem)
      · by_cases heq : name = pair.2
        · exact .inl (by simp [heq])
        · exact .inr ((Function.update_of_ne heq ..).symm.trans hback)

/-- Recording containers leaves the other maps alone. -/
theorem record_pairs_frame (pairs : List (String × String)) :
    (pairs.foldl (VirtualManager.recordPair podUID) vm).podByUID = vm.podByUID ∧
      (pairs.foldl (VirtualManager.recordPair podUID) vm).podVisitedByUID = vm.podVisitedByUID ∧
      (pairs.foldl (VirtualManager.recordPair podUID) vm).podDoByUID = vm.podDoByUID ∧
      (pairs.foldl (VirtualManager.recordPair podUID) vm).coreRequestByPodUID =
        vm.coreRequestByPodUID ∧
      (pairs.foldl (VirtualManager.recordPair podUID) vm).memoryRequestByPodUID =
        vm.memoryRequestByPodUID := by
  induction pairs generalizing vm with
  | nil => exact ⟨rfl, rfl, rfl, rfl, rfl⟩
  | cons pair rest ih => exact ih (vm.recordPair podUID pair)

end Record

/-! ## Forgetting containers -/

/-- Forgetting containers leaves the maps of pods alone. -/
theorem forget_containers_frame (uids : List String) (vm : VirtualManager) :
    (uids.foldl VirtualManager.forgetContainer vm).podByUID = vm.podByUID ∧
      (uids.foldl VirtualManager.forgetContainer vm).podVisitedByUID = vm.podVisitedByUID ∧
      (uids.foldl VirtualManager.forgetContainer vm).podDoByUID = vm.podDoByUID ∧
      (uids.foldl VirtualManager.forgetContainer vm).coreRequestByPodUID =
        vm.coreRequestByPodUID ∧
      (uids.foldl VirtualManager.forgetContainer vm).memoryRequestByPodUID =
        vm.memoryRequestByPodUID ∧
      (uids.foldl VirtualManager.forgetContainer vm).containerUIDInPodUID =
        vm.containerUIDInPodUID := by
  induction uids generalizing vm with
  | nil => exact ⟨rfl, rfl, rfl, rfl, rfl, rfl⟩
  | cons uid rest ih => exact ih (vm.forgetContainer uid)

/-- The lists after a pod has been forgotten. -/
theorem forget_pod_listed (vm : VirtualManager) (podUID other : String) :
    (vm.forgetPod podUID).listed other = if other = podUID then [] else vm.listed other := by
  by_cases heq : other = podUID
  · simp [VirtualManager.listed, VirtualManager.forgetPod, heq]
  · simp [VirtualManager.listed, VirtualManager.forgetPod, heq,
      (forget_containers_frame _ _).2.2.2.2.2]

/-! ## The steps of a handler -/

/-- What a step of a handler does to the maps, the disk and the handler's point. -/
inductive Moves [Gjson] (cgroupV2 : Bool) (vm : VirtualManager) (disk : ConfigDisk) (event : Json)
    (answer : Answer) : HandlerPoint → VirtualManager → ConfigDisk → HandlerPoint → Prop where
  | refuse : accepted event = false → Moves cgroupV2 vm disk event answer .entry vm disk .finished
  | serve : accepted event = true → Gjson.string (assigned event) = "true" →
      (vm.podDoByUID (podUID event)).getD false = false →
      Moves cgroupV2 vm disk event answer .entry vm disk (.await 0 (containerStatuses event))
  | skip : accepted event = true → Moves cgroupV2 vm disk event answer .entry vm disk .visited
  | giveUp (tries statuses) :
      Moves cgroupV2 vm disk event answer (.await tries statuses) vm disk .finished
  | statuses (tries statuses) : statuses.isSome = true →
      Moves cgroupV2 vm disk event answer (.await tries statuses) vm disk (.record statuses)
  | again (tries statuses reply) : answer.pod = some reply →
      Moves cgroupV2 vm disk event answer (.await tries statuses) vm disk
        (.await (tries + 1) (containerStatuses reply.toJson))
  | record (statuses pairs) : recordedPairs (Gjson.forEach statuses) = some pairs → pairs ≠ [] →
      Moves cgroupV2 vm disk event answer (.record statuses)
        (pairs.foldl (VirtualManager.recordPair (podUID event)) vm) disk .list
  | recordNone (statuses) : recordedPairs (Gjson.forEach statuses) = some [] →
      Moves cgroupV2 vm disk event answer (.record statuses) vm disk .finished
  | list : Moves cgroupV2 vm disk event answer .list vm disk (.dirName (vm.listed (podUID event)))
  | allTried : Moves cgroupV2 vm disk event answer (.dirName []) vm disk .markDone
  | dirName (uid rest) :
      Moves cgroupV2 vm disk event answer (.dirName (uid :: rest)) vm disk
        (.mkdir uid (baseDir [podUID event,
          if cgroupV2 then (vm.containerNameByUid uid).getD "" else uid]) rest)
  | mkdirFailed (uid dir rest) :
      Moves cgroupV2 vm disk event answer (.mkdir uid dir rest) vm disk (.contName uid dir rest)
  | mkdir (uid dir rest made) : disk.mkdirAll dir = some made →
      Moves cgroupV2 vm disk event answer (.mkdir uid dir rest) vm made (.contName uid dir rest)
  | contName (uid dir rest) :
      Moves cgroupV2 vm disk event answer (.contName uid dir rest) vm disk
        (.totals dir ((vm.containerNameByUid uid).getD "") rest)
  | totals (dir containerName rest) :
      Moves cgroupV2 vm disk event answer (.totals dir containerName rest) vm disk
        (.create (vcudaFileName dir) (vm.vConfig (podUID event) containerName) rest)
  | createFailed (file data rest) : (if answer.ok then disk.create file else none) = none →
      Moves cgroupV2 vm disk event answer (.create file data rest) vm disk (.dirName rest)
  | create (file data rest inode opened) : answer.ok = true →
      disk.create file = some (inode, opened) →
      Moves cgroupV2 vm disk event answer (.create file data rest) vm opened
        (.write inode data rest)
  | writeFailed (inode data rest) : answer.ok = false →
      Moves cgroupV2 vm disk event answer (.write inode data rest) vm disk (.dirName rest)
  | write (inode data rest) : answer.ok = true →
      Moves cgroupV2 vm disk event answer (.write inode data rest) vm (disk.write inode data)
        (.dirName rest)
  | markDone : Moves cgroupV2 vm disk event answer .markDone (vm.markDone (podUID event)) disk
      .visited
  | wasVisited : (vm.podVisitedByUID (podUID event)).getD false = true →
      Moves cgroupV2 vm disk event answer .visited vm disk .finished
  | firstVisit : (vm.podVisitedByUID (podUID event)).getD false = false →
      Moves cgroupV2 vm disk event answer .visited vm disk .mark
  | mark : Moves cgroupV2 vm disk event answer .mark (vm.markVisited (podUID event) event) disk
      .podDir
  | podDirFailed : Moves cgroupV2 vm disk event answer .podDir vm disk .finished
  | podDir (made) : disk.mkdirAll (baseDir [podUID event]) = some made →
      Moves cgroupV2 vm disk event answer .podDir vm made .requests
  | requests : Moves cgroupV2 vm disk event answer .requests
      (vm.storeRequests (podUID event) (requestTotals event)) disk .getPod
  | getPodFailed : Moves cgroupV2 vm disk event answer .getPod vm disk .finished
  | getPod (copyPod) : answer.pod = some copyPod →
      Moves cgroupV2 vm disk event answer .getPod vm disk (.annotate copyPod)

/-- A handler takes nothing away from the disk. -/
theorem keeps_moves [Gjson] {cgroupV2 : Bool} {vm after : VirtualManager} {disk made : ConfigDisk}
    {event : Json} {answer : Answer} {point following : HandlerPoint}
    (h : Moves cgroupV2 vm disk event answer point after made following) : disk.Keeps made := by
  cases h with
  | mkdir uid dir rest made hmade => exact Disk.keeps_mkdirAll hmade
  | podDir made hmade => exact Disk.keeps_mkdirAll hmade
  | create file data rest inode opened _ hcreate => exact Disk.keeps_create hcreate
  | write inode data rest => exact Disk.keeps_write disk inode data
  | _ => exact .refl disk

/-- A handler that goes on moves in one of these ways. -/
theorem moves_of_next [Gjson] {cgroupV2 : Bool} {vm next : VirtualManager} {disk after : ConfigDisk}
    {event : Json} {answer : Answer} {point following : HandlerPoint}
    (h : creatVcudaServer cgroupV2 vm disk event answer point = .next next after following) :
    Moves cgroupV2 vm disk event answer point next after following := by
  cases point with
  | entry =>
      simp only [creatVcudaServer] at h
      split at h
      · rename_i hrefused
        cases h
        exact .refuse (by simpa using hrefused)
      · rename_i haccepted
        have haccepted : accepted event = true := by simpa using haccepted
        split at h <;> cases h
        · rename_i hserve
          exact .serve haccepted hserve.1 hserve.2
        · exact .skip haccepted
  | await tries statuses =>
      simp only [creatVcudaServer] at h
      split at h
      · cases h
        exact .giveUp tries statuses
      · split at h
        · rename_i hsome
          cases h
          exact .statuses tries statuses hsome
        · split at h <;> cases h
          · exact .giveUp tries statuses
          · rename_i reply hreply
            exact .again tries statuses reply hreply
  | record statuses =>
      simp only [creatVcudaServer, record_containers_eq] at h
      cases hpairs : recordedPairs (Gjson.forEach statuses) with
      | none => simp [hpairs] at h
      | some pairs =>
          cases pairs with
          | nil =>
              rw [hpairs] at h
              cases h
              exact .recordNone statuses hpairs
          | cons pair rest =>
              rw [hpairs] at h
              cases h
              exact .record statuses _ hpairs (by simp)
  | list =>
      cases h
      exact .list
  | dirName contUidList =>
      cases contUidList with
      | nil =>
          cases h
          exact .allTried
      | cons uid rest =>
          cases h
          exact .dirName uid rest
  | mkdir uid dir rest =>
      simp only [creatVcudaServer] at h
      cases h
      cases hmade : (if answer.ok then disk.mkdirAll dir else none) with
      | none => exact .mkdirFailed uid dir rest
      | some made => exact .mkdir uid dir rest made (Option.ite_none_right_eq_some.mp hmade).2
  | contName uid dir rest =>
      cases h
      exact .contName uid dir rest
  | totals dir containerName rest =>
      cases h
      exact .totals dir containerName rest
  | create file data rest =>
      simp only [creatVcudaServer] at h
      split at h <;> cases h
      · rename_i hfailed
        exact .createFailed file data rest hfailed
      · rename_i inode hopened
        obtain ⟨hok, hcreate⟩ := Option.ite_none_right_eq_some.mp hopened
        exact .create file data rest inode _ hok hcreate
  | write inode data rest =>
      simp only [creatVcudaServer] at h
      cases hok : answer.ok with
      | false =>
          rw [hok] at h
          cases h
          exact .writeFailed inode data rest hok
      | true =>
          rw [hok] at h
          cases h
          exact .write inode data rest hok
  | markDone =>
      cases h
      exact .markDone
  | visited =>
      simp only [creatVcudaServer] at h
      split at h <;> cases h
      · rename_i hvisited
        exact .wasVisited hvisited
      · rename_i hvisited
        exact .firstVisit (by simpa using hvisited)
  | mark =>
      cases h
      exact .mark
  | podDir =>
      simp only [creatVcudaServer] at h
      split at h <;> cases h
      · exact .podDirFailed
      · rename_i hmade
        exact .podDir _ (Option.ite_none_right_eq_some.mp hmade).2
  | requests =>
      cases h
      exact .requests
  | getPod =>
      simp only [creatVcudaServer] at h
      split at h <;> cases h
      · exact .getPodFailed
      · rename_i copyPod hpod
        exact .getPod copyPod hpod
  | annotate copyPod =>
      simp only [creatVcudaServer] at h
      split at h <;> cases h
  | finished => cases h

/-- Only the last point of a handler sends an update. -/
theorem annotate_of_update [Gjson] {cgroupV2 : Bool} {vm : VirtualManager} {disk : ConfigDisk}
    {event : Json} {answer : Answer} {point : HandlerPoint} {pod : Pod}
    (h : creatVcudaServer cgroupV2 vm disk event answer point = .update pod) :
    ∃ copyPod, point = .annotate copyPod := by
  cases point with
  | annotate copyPod => exact ⟨copyPod, rfl⟩
  | dirName contUidList => cases contUidList <;> cases h
  | list | mkdir | contName | totals | write | markDone | mark | requests | finished => cases h
  | entry | await | record | create | visited | podDir | getPod =>
      simp only [creatVcudaServer] at h
      repeat' split at h
      all_goals cases h

/-- A handler goes on from every point but the last. -/
theorem finished_of_stuck [Gjson] {cgroupV2 : Bool} {vm : VirtualManager} {disk : ConfigDisk}
    {event : Json} {answer : Answer} {point : HandlerPoint}
    (h : creatVcudaServer cgroupV2 vm disk event answer point = .stuck) : point = .finished := by
  cases point with
  | finished => rfl
  | dirName contUidList => cases contUidList <;> cases h
  | list | mkdir | contName | totals | write | markDone | mark | requests => cases h
  | entry | await | record | create | visited | podDir | getPod | annotate =>
      simp only [creatVcudaServer] at h
      repeat' split at h
      all_goals cases h

/-- Recording statuses panics when an ID has no UID in it. -/
theorem none_of_panic [Gjson] {cgroupV2 : Bool} {vm : VirtualManager} {disk : ConfigDisk}
    {event : Json} {answer : Answer} {statuses : Option Json}
    (h : creatVcudaServer cgroupV2 vm disk event answer (.record statuses) = .panic) :
    recordedPairs (Gjson.forEach statuses) = none := by
  simp only [creatVcudaServer, record_containers_eq] at h
  cases hpairs : recordedPairs (Gjson.forEach statuses) with
  | none => rfl
  | some pairs =>
      rw [hpairs] at h
      cases pairs <;> cases h

/-! ## The steps of the machine -/

/-- The pods of an event or of an answer of the API server have their own statuses. -/
def Action.OwnStatuses [Gjson] (owner : String → String × String) : Action → Prop
  | .modified obj => ResourceManager.OwnStatuses owner obj
  | .handler _ answer => ∀ pod ∈ answer.pod, ResourceManager.OwnStatuses owner pod.toJson
  | _ => True

instance [Gjson] (owner : String → String × String) (document : Json) :
    Decidable (OwnStatuses owner document) :=
  inferInstanceAs (Decidable (∀ pairs ∈ recordedPairs _, _))

instance [Gjson] (owner : String → String × String) :
    ∀ action, Decidable (Action.OwnStatuses owner action)
  | .modified _ => inferInstanceAs (Decidable (ResourceManager.OwnStatuses owner _))
  | .handler _ answer => inferInstanceAs (Decidable (∀ pod ∈ answer.pod, _))
  | .deleted _ | .run | .deleter _ | .restart => .isTrue trivial

/-- A pod that is fetched while the handler waits for statuses is the pod of its event. -/
def Handler.FetchesOwn [Gjson] (handler : Handler) (pod : Pod) : Prop :=
  match handler.point with
  | .await _ _ => podUID pod.toJson = podUID handler.event
  | _ => True

instance [Gjson] (handler : Handler) (pod : Pod) : Decidable (handler.FetchesOwn pod) := by
  unfold Handler.FetchesOwn
  split <;> infer_instance

/-- What a step of the machine does. -/
inductive Effect [Gjson] (cgroupV2 : Bool) (state next : State) : Action → Prop where
  | restart : next = .boot state.disk state.updates → Effect cgroupV2 state next .restart
  | modified (obj) : next = { state with podMgr := state.podMgr.doModified obj } →
      Effect cgroupV2 state next (.modified obj)
  | deleted (obj) : next = { state with podMgr := state.podMgr.doDeleted obj } →
      Effect cgroupV2 state next (.deleted obj)
  | run (podMgr run spawn) : runStep state.podMgr state.run = .next podMgr run spawn →
      next = { state with podMgr, run }.spawn spawn → Effect cgroupV2 state next .run
  | handler (i answer handler vm disk point) : state.handlers[i]? = some handler →
      Moves cgroupV2 state.vm state.disk handler.event answer handler.point vm disk point →
      next = { state with vm, disk, handlers := state.handlers.set i { handler with point } } →
      Effect cgroupV2 state next (.handler i answer)
  | updated (i answer handler copyPod pod) : state.handlers[i]? = some handler →
      handler.point = .annotate copyPod →
      next = { state with
        handlers := state.handlers.set i { handler with point := .finished }
        updates := state.updates ++ [pod] } →
      Effect cgroupV2 state next (.handler i answer)
  | runPanic : next = { state with crashed := true } → Effect cgroupV2 state next .run
  | handlerPanic (i answer handler) : state.handlers[i]? = some handler →
      (∀ statuses, handler.point = .record statuses →
        recordedPairs (Gjson.forEach statuses) = none) →
      next = { state with crashed := true } → Effect cgroupV2 state next (.handler i answer)
  | deleter (i pod) : state.deleters[i]? = some pod →
      next = { state with
        vm := (deletePodPath state.vm state.disk pod).1
        disk := (deletePodPath state.vm state.disk pod).2
        deleters := state.deleters.eraseIdx i } →
      Effect cgroupV2 state next (.deleter i)

/-- Every step has one of these effects. -/
theorem effect_of_step [Gjson] {cgroupV2 : Bool} {state next : State} {action : Action}
    (hstep : step cgroupV2 state action = some next) : Effect cgroupV2 state next action := by
  cases action with
  | restart =>
      cases hstep
      exact .restart rfl
  | modified obj =>
      simp only [step] at hstep
      split at hstep <;> cases hstep
      exact .modified obj rfl
  | deleted obj =>
      simp only [step] at hstep
      split at hstep <;> cases hstep
      exact .deleted obj rfl
  | run =>
      simp only [step] at hstep
      split at hstep <;> cases hstep
      cases hrun : runStep state.podMgr state.run with
      | panic => exact .runPanic (by rw [State.runNext, hrun])
      | next podMgr run spawn => exact .run podMgr run spawn hrun (by rw [State.runNext, hrun])
  | handler i answer =>
      simp only [step] at hstep
      split at hstep
      · cases hstep
      · obtain ⟨handler, hhandler, hnext⟩ := Option.bind_eq_some_iff.mp hstep
        unfold State.handlerNext at hnext
        split at hnext <;> cases hnext
        · rename_i hpanic
          refine .handlerPanic i answer handler hhandler (fun statuses hpoint => ?_) rfl
          exact none_of_panic (hpoint ▸ hpanic)
        · rename_i vm disk point hmoves
          exact .handler i answer handler vm disk point hhandler (moves_of_next hmoves) rfl
        · rename_i pod hupdate
          obtain ⟨copyPod, hpoint⟩ := annotate_of_update hupdate
          exact .updated i answer handler copyPod pod hhandler hpoint rfl
  | deleter i =>
      simp only [step] at hstep
      split at hstep
      · cases hstep
      · obtain ⟨pod, hpod, rfl⟩ := Option.map_eq_some_iff.mp hstep
        exact .deleter i pod hpod rfl

end UniShare.ResourceManager
