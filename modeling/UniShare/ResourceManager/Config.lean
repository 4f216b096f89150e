import UniShare.ResourceManager.Machine
import UniShare.ResourceManager.Request

/-!
# What the configuration files say

A handler writes the files of a pod's containers in one phase and stores the pod's totals in
another. `configs_carry_limit` says on which reads of the totals every written file, in every run,
carries the core limit of its pod. Events, steps of handlers, deletions and restarts come in any
order; a pod keeps its containers.
-/

namespace UniShare.ResourceManager

open Lib Kube PodWatch

/-- The event is the document of a pod, with the containers of its UID. -/
def PodEvent (containers : String → List Container) (event : Json) : Prop :=
  ∃ pod : Pod, event = pod.toJson ∧ pod.containers = containers pod.uid

/-- The path is in the directory of the record's pod, and the record has the sum of the core limits
of that pod's containers. -/
structure CarriesLimit (containers : String → List Container) (path : List String)
    (data : ResourceData) : Prop where
  path : ∃ name, path = vcudaFileName (baseDir [data.podUid, name])
  utilization : data.utilization.toInt = limitSum resourceCore (containers data.podUid)

/-- Every written file carries the limit of its pod. -/
def State.ConfigsCarryLimit (containers : String → List Container) (state : State) : Prop :=
  ∀ path inode data, state.disk.entry path = some (.file inode (some data)) →
    CarriesLimit containers path data

/-- What the maps have for the pod stands for its limits: the core limits are decimal texts or zero,
their sum fits, and it has been stored, or is zero. -/
structure TotalsMeant (vm : VirtualManager) (uid : String) (containers : List Container) :
    Prop where
  core : ∀ cont ∈ containers, Accelerator.gpu.CoreRead cont
  fits : limitSum resourceCore containers < 2 ^ 31
  stored : (vm.coreRequestByPodUID uid).isSome ∨ limitSum resourceCore containers = 0

instance (kind : Accelerator) (cont : Container) : Decidable (kind.CoreRead cont) :=
  match kind with
  | .gpu => inferInstanceAs (Decidable (_ ∨ _))
  | .mlu => inferInstanceAs (Decidable (_ = _))

instance (vm : VirtualManager) (uid : String) (containers : List Container) :
    Decidable (TotalsMeant vm uid containers) :=
  decidable_of_iff
    ((∀ cont ∈ containers, Accelerator.gpu.CoreRead cont) ∧
      limitSum resourceCore containers < 2 ^ 31 ∧
      ((vm.coreRequestByPodUID uid).isSome ∨ limitSum resourceCore containers = 0))
    ⟨fun h => ⟨h.1, h.2.1, h.2.2⟩, fun h => ⟨h.core, h.fits, h.stored⟩⟩

/-- The handler is about to read the totals of its pod. -/
def HandlerPoint.readsTotals : HandlerPoint → Bool
  | .totals _ _ _ => true
  | _ => false

/-- When the action is a handler's read of the totals, these stand for the limits of its pod. -/
def TotalsReady [Gjson] (containers : String → List Container) (state : State) : Action → Prop
  | .handler i _ => ∀ handler ∈ state.handlers[i]?, handler.point.readsTotals = true →
      TotalsMeant state.vm (podUID handler.event) (containers (podUID handler.event))
  | _ => True

instance [Gjson] (containers : String → List Container) (state : State) :
    ∀ action, Decidable (TotalsReady containers state action)
  | .handler i _ => inferInstanceAs (Decidable (∀ handler ∈ state.handlers[i]?, _))
  | .modified _ | .deleted _ | .run | .deleter _ | .restart => .isTrue trivial

/-! ## The maps -/

/-- Every stored total is what is read from the core limits of its pod. -/
def VirtualManager.TotalsOf (containers : String → List Container) (vm : VirtualManager) : Prop :=
  ∀ uid total, vm.coreRequestByPodUID uid = some total → total = parsedCore (containers uid)

/-- Recording containers leaves the totals alone. -/
theorem record_containers_totals [Gjson] {podUID : String} {vm next : VirtualManager}
    {flag recorded : Bool} {values : List Json}
    (h : vm.recordContainers podUID flag values = some (next, recorded)) :
    next.coreRequestByPodUID = vm.coreRequestByPodUID := by
  induction values generalizing vm flag with
  | nil => cases h; rfl
  | cons value rest ih =>
      simp only [VirtualManager.recordContainers] at h
      split at h
      · cases h
      · rename_i middle _ hvalue
        rw [ih h]
        simp only [VirtualManager.recordContainer] at hvalue
        split at hvalue
        · cases hvalue; rfl
        · split at hvalue
          · cases hvalue; rfl
          · split at hvalue <;> cases hvalue
            rfl

/-- Forgetting a pod deletes its totals, and no others. -/
theorem forgetPod_totals (vm : VirtualManager) (podUID : String) :
    (vm.forgetPod podUID).coreRequestByPodUID =
      Function.update vm.coreRequestByPodUID podUID none := by
  have hcontainers : ∀ (uids : List String) (vm : VirtualManager),
      (uids.foldl VirtualManager.forgetContainer vm).coreRequestByPodUID =
        vm.coreRequestByPodUID := by
    intro uids
    induction uids with
    | nil => exact fun _ => rfl
    | cons uid rest ih => exact fun vm => ih (vm.forgetContainer uid)
  exact hcontainers _ _

/-- Deleting a pod's directory keeps the totals, and adds no file. -/
theorem delete_pod_path_kept [Gjson] {containers : String → List Container} {vm : VirtualManager}
    (disk : ConfigDisk) (pod : Json) (h : vm.TotalsOf containers) :
    (deletePodPath vm disk pod).1.TotalsOf containers ∧
      (deletePodPath vm disk pod).2.inodes = disk.inodes ∧
      ∀ path inode content,
        (deletePodPath vm disk pod).2.entry path = some (.file inode content) →
          disk.entry path = some (.file inode content) := by
  unfold deletePodPath
  split
  · exact ⟨h, rfl, fun _ _ _ hfile => hfile⟩
  · split
    · exact ⟨h, rfl, fun _ _ _ hfile => hfile⟩
    · refine ⟨fun uid total htotal => ?_, Disk.removeAll_files disk _⟩
      rw [forgetPod_totals] at htotal
      by_cases heq : uid = podUID pod
      · simp [heq] at htotal
      · rw [Function.update_of_ne heq] at htotal
        exact h uid total htotal

/-- The record carries the sum of the core limits when the totals stand for them. -/
theorem vConfig_utilization {containers : String → List Container} {vm : VirtualManager}
    {uid : String} (htotals : vm.TotalsOf containers)
    (hmeant : TotalsMeant vm uid (containers uid)) (containerName : String) :
    (vm.vConfig uid containerName).utilization.toInt =
      limitSum resourceCore (containers uid) := by
  have hnonneg := limitSum_nonneg resourceCore (containers uid)
  have hfits := hmeant.fits
  have htotal : ((vm.coreRequestByPodUID uid).getD 0).toInt =
      limitSum resourceCore (containers uid) := by
    cases hstored : vm.coreRequestByPodUID uid with
    | none => exact (hmeant.stored.resolve_left (by simp [hstored])).symm
    | some total =>
        rw [Option.getD_some, htotals uid total hstored, parsed_core_eq_total hmeant.core]
        exact limitTotal_toInt (by omega)
  rw [VirtualManager.vConfig, Int64.toInt_toInt32, htotal]
  exact Int.bmod_eq_of_le (by omega) (by omega)

/-! ## The handlers -/

/-- At this point the handler works in the directory of its pod, and what it is about to write
carries the pod's limit. -/
def HandlerPoint.Sound (containers : String → List Container) (disk : ConfigDisk) (uid : String) :
    HandlerPoint → Prop
  | .mkdir _ dir _ | .contName _ dir _ | .totals dir _ _ => ∃ name, dir = baseDir [uid, name]
  | .create file data _ => CarriesLimit containers file data
  | .write inode data _ => disk.Pending (CarriesLimit containers) inode data
  | _ => True

/-- What a step of a handler leaves: right totals and files, the pending writes of the other
handlers, and a sound point. -/
structure Kept (containers : String → List Container) (disk : ConfigDisk) (uid : String)
    (next : VirtualManager) (after : ConfigDisk) (point : HandlerPoint) : Prop where
  totals : next.TotalsOf containers
  files : after.FilesInv (CarriesLimit containers)
  pending : ∀ inode data, disk.Pending (CarriesLimit containers) inode data →
    after.Pending (CarriesLimit containers) inode data
  point : point.Sound containers after uid

section Handlers

variable {containers : String → List Container} {vm next : VirtualManager}
  {disk after : ConfigDisk} {uid : String} {point : HandlerPoint}

/-- A step that touches no file. -/
theorem kept_maps (hfiles : disk.FilesInv (CarriesLimit containers))
    (htotals : next.TotalsOf containers) (hpoint : point.Sound containers disk uid) :
    Kept containers disk uid next disk point :=
  ⟨htotals, hfiles, fun _ _ h => h, hpoint⟩

/-- A step that makes directories. -/
theorem kept_made {path : List String} (hmade : disk.mkdirAll path = some after)
    (hfiles : disk.FilesInv (CarriesLimit containers)) (htotals : vm.TotalsOf containers)
    (hpoint : point.Sound containers after uid) : Kept containers disk uid vm after point := by
  obtain ⟨hinodes, hsame⟩ := Disk.mkdirAll_files hmade
  exact ⟨htotals, Disk.files_inv_shrink hfiles hinodes hsame,
    fun _ _ h => Disk.pending_shrink h hinodes hsame, hpoint⟩

/-- A step of a handler of a pod's event, at a sound point, keeps the totals and the files right;
where it reads the totals they must stand for the pod's limits. -/
theorem creat_vcuda_server_kept [Gjson] {cgroupV2 : Bool} {event : Json} {answer : Answer}
    {following : HandlerPoint} (hevent : PodEvent containers event)
    (htotals : vm.TotalsOf containers) (hfiles : disk.FilesInv (CarriesLimit containers))
    (hsound : point.Sound containers disk (podUID event))
    (hready : point.readsTotals = true →
      TotalsMeant vm (podUID event) (containers (podUID event)))
    (h : creatVcudaServer cgroupV2 vm disk event answer point = .next next after following) :
    Kept containers disk (podUID event) next after following := by
  cases point with
  | entry =>
      simp only [creatVcudaServer] at h
      split at h
      · cases h
        exact kept_maps hfiles htotals trivial
      · split at h <;> cases h
        all_goals exact kept_maps hfiles htotals trivial
  | await tries statuses =>
      simp only [creatVcudaServer] at h
      split at h
      · cases h
        exact kept_maps hfiles htotals trivial
      · split at h
        · cases h
          exact kept_maps hfiles htotals trivial
        · split at h <;> cases h
          all_goals exact kept_maps hfiles htotals trivial
  | record statuses =>
      simp only [creatVcudaServer] at h
      split at h <;> cases h
      all_goals
        rename_i hrecorded
        refine kept_maps hfiles ?_ trivial
        rwa [VirtualManager.TotalsOf, record_containers_totals hrecorded]
  | list =>
      cases h
      exact kept_maps hfiles htotals trivial
  | dirName contUidList =>
      cases contUidList with
      | nil =>
          cases h
          exact kept_maps hfiles htotals trivial
      | cons cont rest =>
          cases h
          exact kept_maps hfiles htotals ⟨_, rfl⟩
  | mkdir cont dir rest =>
      simp only [creatVcudaServer] at h
      cases h
      cases hmade : (if answer.ok then disk.mkdirAll dir else none) with
      | none => exact kept_maps hfiles htotals hsound
      | some made =>
          have hmkdir := (Option.ite_none_right_eq_some.mp hmade).2
          exact kept_made hmkdir hfiles htotals hsound
  | contName cont dir rest =>
      cases h
      exact kept_maps hfiles htotals hsound
  | totals dir containerName rest =>
      cases h
      obtain ⟨name, rfl⟩ := hsound
      exact kept_maps hfiles htotals
        ⟨⟨name, rfl⟩, vConfig_utilization htotals (hready rfl) containerName⟩
  | create file data rest =>
      simp only [creatVcudaServer] at h
      split at h <;> cases h
      · exact kept_maps hfiles htotals trivial
      · rename_i inode hopened
        have hcreate : disk.create file = some (inode, after) :=
          (Option.ite_none_right_eq_some.mp hopened).2
        obtain ⟨hkept, hpending⟩ := Disk.files_inv_create hfiles hcreate
        exact ⟨htotals, hkept, fun _ _ h => Disk.pending_create h hcreate, hpending data hsound⟩
  | write inode data rest =>
      simp only [creatVcudaServer] at h
      cases h
      split
      · exact ⟨htotals, Disk.files_inv_write hfiles hsound, fun _ _ h => Disk.pending_write h,
          trivial⟩
      · exact kept_maps hfiles htotals trivial
  | markDone | mark =>
      cases h
      exact kept_maps hfiles htotals trivial
  | visited =>
      simp only [creatVcudaServer] at h
      split at h <;> cases h
      all_goals exact kept_maps hfiles htotals trivial
  | podDir =>
      simp only [creatVcudaServer] at h
      split at h <;> cases h
      · exact kept_maps hfiles htotals trivial
      · rename_i hmade
        have hmkdir := (Option.ite_none_right_eq_some.mp hmade).2
        exact kept_made hmkdir hfiles htotals trivial
  | requests =>
      cases h
      refine kept_maps hfiles (fun other total htotal => ?_) trivial
      obtain ⟨pod, rfl, hcontainers⟩ := hevent
      rw [VirtualManager.storeRequests, podUID_toJson, requestTotals_toJson, hcontainers] at htotal
      by_cases heq : other = pod.uid
      · simpa [heq] using htotal.symm
      · exact htotals other total (by simpa [Function.update_of_ne heq] using htotal)
  | getPod =>
      simp only [creatVcudaServer] at h
      split at h <;> cases h
      all_goals exact kept_maps hfiles htotals trivial
  | annotate copyPod =>
      simp only [creatVcudaServer] at h
      split at h <;> cases h
  | finished => cases h

end Handlers

/-! ## Runs -/

/-- Every event on its way to a handler is a pod's, the totals and the files are right, and every
handler is at a sound point. -/
structure Inv [Gjson] (containers : String → List Container) (state : State) : Prop where
  queued : ∀ obj ∈ state.podMgr.podModObj, PodEvent containers obj
  held : ∀ obj, state.run.modified = some obj → PodEvent containers obj
  events : ∀ handler ∈ state.handlers, PodEvent containers handler.event
  totals : state.vm.TotalsOf containers
  files : state.disk.FilesInv (CarriesLimit containers)
  points : ∀ handler ∈ state.handlers,
    handler.point.Sound containers state.disk (podUID handler.event)

section Runs

variable [Gjson] {containers : String → List Container} {state : State}

omit [Gjson] in
/-- A handler's soundness depends on the disk only through its pending writes. -/
theorem sound_of_pending {disk after : ConfigDisk} {uid : String} {point : HandlerPoint}
    (hpending : ∀ inode data, disk.Pending (CarriesLimit containers) inode data →
      after.Pending (CarriesLimit containers) inode data)
    (h : point.Sound containers disk uid) : point.Sound containers after uid := by
  cases point with
  | write inode data rest => exact hpending inode data h
  | _ => exact h

/-- The manager starts with empty maps on the disk it finds. -/
theorem inv_boot {disk : ConfigDisk} (hfiles : disk.FilesInv (CarriesLimit containers))
    (updates : List Pod) : Inv containers (.boot disk updates) := by
  refine ⟨by simp [State.boot, newPodManager], by simp [State.boot, RunPoint.modified],
    by simp [State.boot], fun uid total h => by simp [State.boot, newVirtualManager] at h, ?_,
    by simp [State.boot]⟩
  cases hmade : disk.mkdirAll (baseDir []) with
  | none => simpa [State.boot, hmade] using hfiles
  | some made =>
      obtain ⟨hinodes, hsame⟩ := Disk.mkdirAll_files hmade
      simpa [State.boot, hmade] using Disk.files_inv_shrink hfiles hinodes hsame

/-- The loop hands an event over as it was queued. -/
theorem inv_run (h : Inv containers state) : Inv containers state.runNext := by
  unfold State.runNext
  split
  · exact ⟨h.queued, h.held, h.events, h.totals, h.files, h.points⟩
  · rename_i podMgr run spawn hrun
    obtain ⟨hqueued, hheld, hspawn⟩ := run_step_modified hrun
    have hq : ∀ obj ∈ podMgr.podModObj, PodEvent containers obj :=
      fun obj hobj => h.queued obj (hqueued obj hobj)
    have hh : ∀ obj, run.modified = some obj → PodEvent containers obj :=
      fun obj hobj => h.queued obj (hheld obj hobj)
    rcases spawn with _ | pod | pod
    · exact ⟨hq, hh, h.events, h.totals, h.files, h.points⟩
    · have hpod := h.held pod (hspawn pod rfl)
      exact ⟨hq, hh, forall_mem_concat h.events hpod, h.totals, h.files,
        forall_mem_concat h.points trivial⟩
    · exact ⟨hq, hh, h.events, h.totals, h.files, h.points⟩

/-- A step of a handler keeps the invariant when the totals it reads stand for its pod's limits. -/
theorem inv_handler {cgroupV2 : Bool} {next : State} {i : Nat} {answer : Answer}
    {handler : Handler} (h : Inv containers state) (hhandler : state.handlers[i]? = some handler)
    (hready : handler.point.readsTotals = true →
      TotalsMeant state.vm (podUID handler.event) (containers (podUID handler.event)))
    (hstep : state.handlerNext cgroupV2 i answer handler = some next) : Inv containers next := by
  have hmem := List.mem_of_getElem? hhandler
  have hevent := h.events handler hmem
  unfold State.handlerNext at hstep
  split at hstep <;> cases hstep
  · exact ⟨h.queued, h.held, h.events, h.totals, h.files, h.points⟩
  · rename_i vm disk point hnext
    have hkept := creat_vcuda_server_kept hevent h.totals h.files (h.points handler hmem) hready
      hnext
    have hpoints : ∀ other ∈ state.handlers,
        other.point.Sound containers disk (podUID other.event) :=
      fun other hother => sound_of_pending hkept.pending (h.points other hother)
    exact ⟨h.queued, h.held, forall_mem_set h.events hevent, hkept.totals, hkept.files,
      forall_mem_set hpoints hkept.point⟩
  · exact ⟨h.queued, h.held, forall_mem_set h.events hevent, h.totals, h.files,
      forall_mem_set h.points trivial⟩

/-- Every step keeps the invariant when the events it brings are pods' and the totals it reads
stand for their limits. -/
theorem inv_step {cgroupV2 : Bool} {next : State} {action : Action} (h : Inv containers state)
    (hevent : ∀ obj, action = .modified obj → PodEvent containers obj)
    (hready : TotalsReady containers state action)
    (hstep : step cgroupV2 state action = some next) : Inv containers next := by
  cases action with
  | restart =>
      cases hstep
      exact inv_boot h.files state.updates
  | modified obj =>
      simp only [step] at hstep
      split at hstep <;> cases hstep
      exact ⟨forall_mem_concat h.queued (hevent obj rfl), h.held, h.events, h.totals, h.files,
        h.points⟩
  | deleted obj =>
      simp only [step] at hstep
      split at hstep <;> cases hstep
      exact ⟨h.queued, h.held, h.events, h.totals, h.files, h.points⟩
  | run =>
      simp only [step] at hstep
      split at hstep <;> cases hstep
      exact inv_run h
  | handler i answer =>
      simp only [step] at hstep
      split at hstep
      · cases hstep
      · obtain ⟨handler, hhandler, hnext⟩ := Option.bind_eq_some_iff.mp hstep
        exact inv_handler h hhandler (hready handler hhandler) hnext
  | deleter i =>
      simp only [step] at hstep
      split at hstep
      · cases hstep
      · obtain ⟨pod, -, rfl⟩ := Option.map_eq_some_iff.mp hstep
        obtain ⟨htotals, hinodes, hsame⟩ := delete_pod_path_kept state.disk pod h.totals
        have hpending := fun inode data
          (hwrite : state.disk.Pending (CarriesLimit containers) inode data) =>
          Disk.pending_shrink hwrite hinodes hsame
        exact ⟨h.queued, h.held, h.events, htotals, Disk.files_inv_shrink h.files hinodes hsame,
          fun handler hhandler => sound_of_pending hpending (h.points handler hhandler)⟩

end Runs

/-- In every run in which pods keep their containers and every read of a pod's totals finds them
standing for its limits, every written file carries the limit of its pod. -/
theorem configs_carry_limit [Gjson] {cgroupV2 : Bool} {containers : String → List Container}
    {actions : List Action} {state : State}
    (hevents : ∀ obj, .modified obj ∈ actions → PodEvent containers obj)
    (hready : Along (step cgroupV2) (TotalsReady containers) State.initial actions)
    (hrun : exec (step cgroupV2) State.initial actions = some state) :
    state.ConfigsCarryLimit containers := by
  have hgood : Along (step cgroupV2)
      (fun _ action => ∀ obj, action = .modified obj → PodEvent containers obj)
      State.initial actions :=
    Along.of_mem _ fun action hmem _ obj heq => hevents obj (heq ▸ hmem)
  have hinit : Inv containers State.initial := inv_boot Disk.files_inv_empty []
  have hinv := exec_invariant_along
    (fun state action next h hcond hstep => inv_step h hcond.1 hcond.2 hstep) hinit
    (hgood.and hready) hrun
  exact hinv.files.written

/-- A pod of ten cores whose container runs. -/
def runningPod : Pod where
  name := "a"
  ns := "default"
  uid := "uid-a"
  resourceVersion := 2
  annotations := some [(annAssignedFlag, "true")]
  nodeName := "n1"
  containers :=
    [{ name := "main"
       requests := [(resourceCore, PluginRegister.tenUnits)]
       limits := [(resourceCore, PluginRegister.tenUnits)] }]
  phase := "Running"
  containerStatuses := [⟨"main", "docker://c1"⟩]

/-- The same pod before it is assigned. -/
def scheduledPod : Pod :=
  { runningPod with
    resourceVersion := 1
    annotations := some [(annAssignedFlag, "false")]
    phase := "Pending"
    containerStatuses := [] }

/-- Every operation succeeds. -/
def answered : Answer := ⟨true, some scheduledPod⟩

/-- The steps that hand an event to its handler, after as many steps of the loop, and then the
handler's steps. -/
def handledEvent (pod : Pod) (loop i steps : Nat) : List Action :=
  .modified pod.toJson :: (List.replicate loop .run ++ List.replicate steps (.handler i answered))

/-- The file of the pod's container. -/
def containerConfig : List String := vcudaFileName (baseDir ["uid-a", "c1"])

/-- The events of a list of handled events. -/
theorem modified_mem_handled {pod : Pod} {loop i steps : Nat} {obj : Json}
    (h : Action.modified obj ∈ handledEvent pod loop i steps) : obj = pod.toJson := by
  simpa [handledEvent] using h

/-- When the pod is seen before it is assigned, its totals are stored when they are read. -/
theorem scheduled_totals_ready :
    letI := Gjson.reader
    Along (step false) (TotalsReady fun _ => runningPod.containers) State.initial
      (handledEvent scheduledPod 3 0 7 ++ handledEvent runningPod 4 1 10) := by
  decide +kernel

/-- Its file then carries its limit. -/
theorem configs_carry_limit_scheduled :
    letI := Gjson.reader
    ∃ state, exec (step false) State.initial
        (handledEvent scheduledPod 3 0 7 ++ handledEvent runningPod 4 1 10) = some state ∧
      (∃ data, state.disk.entry containerConfig = some (.file 0 (some data)) ∧
        data.utilization = 10) ∧
      state.ConfigsCarryLimit fun _ => runningPod.containers := by
  let reader := Gjson.reader
  have hrun : (exec (step false) State.initial
      (handledEvent scheduledPod 3 0 7 ++ handledEvent runningPod 4 1 10)).map
        (fun state => state.disk.entry containerConfig) =
      some (some (.file 0 (some ⟨"uid-a", "main", 0, 10⟩))) := by decide +kernel
  obtain ⟨state, hstate, hfile⟩ := Option.map_eq_some_iff.mp hrun
  refine ⟨state, hstate, ⟨_, hfile, rfl⟩, configs_carry_limit (fun obj hobj => ?_)
    scheduled_totals_ready hstate⟩
  rcases List.mem_append.mp hobj with hfirst | hsecond
  · exact ⟨scheduledPod, modified_mem_handled hfirst, rfl⟩
  · exact ⟨runningPod, modified_mem_handled hsecond, rfl⟩

/-- When the first event of a pod is already assigned, its file is written before its totals are
stored, with no cores. -/
theorem configs_carry_limit_counterexample :
    letI := Gjson.reader
    ¬ ∀ (cgroupV2 : Bool) (containers : String → List Container) (actions : List Action)
        (state : State), (∀ obj, .modified obj ∈ actions → PodEvent containers obj) →
      exec (step cgroupV2) State.initial actions = some state →
        state.ConfigsCarryLimit containers := by
  intro h
  let reader := Gjson.reader
  have hrun : (exec (step false) State.initial (handledEvent runningPod 3 0 10)).map
        (fun state => state.disk.entry containerConfig) =
      some (some (.file 0 (some ⟨"uid-a", "main", 0, 0⟩))) := by decide +kernel
  obtain ⟨state, hstate, hfile⟩ := Option.map_eq_some_iff.mp hrun
  have hcarries := h false (fun _ => runningPod.containers) _ state
    (fun obj hobj => ⟨runningPod, modified_mem_handled hobj, rfl⟩) hstate _ _ _ hfile
  exact absurd hcarries.utilization (by decide)

end UniShare.ResourceManager
