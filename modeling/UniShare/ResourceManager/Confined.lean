import UniShare.ResourceManager.Deletion

/-!
# Where the configuration files are written

A handler builds the path of a file from the UID of its event's pod and from a container's UID or
name, and `filepath.Join` cleans what it builds. `confined_step` says that, when the documents of
the pods have plain UIDs and names, every file of every run lies in the directory of the pod that
its record is about, whatever handlers, deletions and restarts come in between.
-/

namespace UniShare.ResourceManager

open Lib Kube PodWatch

/-- The pod's UID, and the UIDs and names of its containers, are plain. -/
structure PlainDocument [Gjson] (document : Json) : Prop where
  uid : PlainElement (podUID document)
  containers : ∀ pairs ∈ recordedPairs (Gjson.forEach (containerStatuses document)),
    ∀ pair ∈ pairs, PlainElement pair.1 ∧ PlainElement pair.2

instance [Gjson] (document : Json) : Decidable (PlainDocument document) :=
  decidable_of_iff
    (PlainElement (podUID document) ∧
      ∀ pairs ∈ recordedPairs (Gjson.forEach (containerStatuses document)), ∀ pair ∈ pairs,
        PlainElement pair.1 ∧ PlainElement pair.2)
    ⟨fun h => ⟨h.1, h.2⟩, fun h => ⟨h.uid, h.containers⟩⟩

/-- The directory is that of a container, or of the pod itself when the name is missing. -/
def ContainerDirectory (uid : String) (dir : List String) : Prop :=
  ∃ name, (name = "" ∨ PlainElement name) ∧ dir = baseDir [uid, name]

/-- The path is in the directory of the pod that the record is about. -/
structure InOwnDirectory (path : List String) (data : ResourceData) : Prop where
  uid : PlainElement data.podUid
  path : ∃ dir, ContainerDirectory data.podUid dir ∧ path = vcudaFileName dir

/-- The handler works in the directory of its pod, and goes on with plain UIDs. -/
def HandlerPoint.Confined [Gjson] (disk : ConfigDisk) (uid : String) : HandlerPoint → Prop
  | .await _ statuses | .record statuses =>
      ∀ pairs ∈ recordedPairs (Gjson.forEach statuses), ∀ pair ∈ pairs,
        PlainElement pair.1 ∧ PlainElement pair.2
  | .dirName rest => ∀ cont ∈ rest, PlainElement cont
  | .mkdir _ dir rest | .contName _ dir rest | .totals dir _ rest =>
      ContainerDirectory uid dir ∧ ∀ cont ∈ rest, PlainElement cont
  | .create file data rest => InOwnDirectory file data ∧ ∀ cont ∈ rest, PlainElement cont
  | .write inode data rest =>
      disk.Pending InOwnDirectory inode data ∧ ∀ cont ∈ rest, PlainElement cont
  | _ => True

/-- The maps hold plain UIDs and names. -/
structure VirtualManager.Plain (vm : VirtualManager) : Prop where
  named : ∀ cont name, vm.containerNameByUid cont = some name → PlainElement name
  listed : ∀ uid, ∀ cont ∈ vm.listed uid, PlainElement cont

/-- Every event on its way to a handler is of plain names, so are the maps, every file is in its own
directory, and so will be those that are being written. -/
structure ConfinedInv [Gjson] (state : State) : Prop where
  queued : ∀ obj ∈ state.podMgr.podModObj, PlainDocument obj
  held : ∀ obj, state.run.modified = some obj → PlainDocument obj
  events : ∀ handler ∈ state.handlers, PlainDocument handler.event
  maps : state.vm.Plain
  files : state.disk.FilesInv InOwnDirectory
  points : ∀ handler ∈ state.handlers, handler.point.Confined state.disk (podUID handler.event)

/-! ## The maps -/

section Maps

variable {vm : VirtualManager}

/-- Recording plain containers keeps the maps plain. -/
theorem plain_record {podUID : String} (h : vm.Plain) {pairs : List (String × String)}
    (hpairs : ∀ pair ∈ pairs, PlainElement pair.1 ∧ PlainElement pair.2) :
    (pairs.foldl (VirtualManager.recordPair podUID) vm).Plain := by
  constructor
  · intro cont name hname
    rcases record_pairs_name podUID vm pairs cont with ⟨found, hmem, hfound⟩ | ⟨-, hfound⟩
    · obtain rfl := Option.some.inj (hfound.symm.trans hname)
      exact (hpairs _ hmem).2
    · exact h.named cont name (hfound.symm.trans hname)
  · intro uid cont hcont
    rw [record_pairs_listed] at hcont
    split at hcont
    · rcases List.mem_append.mp hcont with hold | hnew
      · exact h.listed podUID cont hold
      · obtain ⟨pair, hpair, rfl⟩ := List.mem_map.mp hnew
        exact (hpairs pair hpair).1
    · exact h.listed uid cont hcont

/-- Forgetting a pod keeps the maps plain. -/
theorem plain_forget_pod (h : vm.Plain) (uid : String) : (vm.forgetPod uid).Plain := by
  constructor
  · intro cont name hname
    rw [forget_pod_name] at hname
    split at hname
    · cases hname
    · exact h.named cont name hname
  · intro other cont hcont
    rw [forget_pod_listed] at hcont
    split at hcont
    · cases hcont
    · exact h.listed other cont hcont

/-- What a container's directory is named after is plain, or missing. -/
theorem container_directory (h : vm.Plain) (cgroupV2 : Bool) (uid : String) {cont : String}
    (hcont : PlainElement cont) :
    ContainerDirectory uid
      (baseDir [uid, if cgroupV2 then (vm.containerNameByUid cont).getD "" else cont]) := by
  refine ⟨_, ?_, rfl⟩
  cases cgroupV2 with
  | false => exact .inr hcont
  | true =>
      cases hname : vm.containerNameByUid cont with
      | none => exact .inl rfl
      | some name => exact .inr (h.named cont name hname)

end Maps

/-! ## The handlers -/

/-- What a step of a handler leaves: plain maps, files in their own directories, the pending writes
of the other handlers, and a handler that is confined. -/
structure StepConfined [Gjson] (disk : ConfigDisk) (uid : String) (after : VirtualManager)
    (made : ConfigDisk) (following : HandlerPoint) : Prop where
  maps : after.Plain
  files : made.FilesInv InOwnDirectory
  pending : ∀ inode data, disk.Pending InOwnDirectory inode data →
    made.Pending InOwnDirectory inode data
  point : following.Confined made uid

section Handlers

variable [Gjson] {cgroupV2 : Bool} {vm after : VirtualManager} {disk made : ConfigDisk}
  {event : Json} {answer : Answer} {point following : HandlerPoint}

/-- A step that changes no file. -/
theorem confined_maps {uid : String} (hmaps : after.Plain) (hfiles : disk.FilesInv InOwnDirectory)
    (hpoint : following.Confined disk uid) : StepConfined disk uid after disk following :=
  ⟨hmaps, hfiles, fun _ _ h => h, hpoint⟩

/-- A step that makes directories. -/
theorem confined_made {uid : String} {path : List String} (hmade : disk.mkdirAll path = some made)
    (hmaps : after.Plain) (hfiles : disk.FilesInv InOwnDirectory)
    (hpoint : following.Confined made uid) : StepConfined disk uid after made following := by
  obtain ⟨hinodes, hsame⟩ := Disk.mkdirAll_files hmade
  exact ⟨hmaps, Disk.files_inv_shrink hfiles hinodes hsame,
    fun _ _ h => Disk.pending_shrink h hinodes hsame, hpoint⟩

/-- The handler of a plain event that is answered with plain pods stays in its pod's directory. -/
theorem confined_moves (hevent : PlainDocument event)
    (hanswer : ∀ pod ∈ answer.pod, PlainDocument pod.toJson) (hmaps : vm.Plain)
    (hfiles : disk.FilesInv InOwnDirectory) (hpoint : point.Confined disk (podUID event))
    (h : Moves cgroupV2 vm disk event answer point after made following) :
    StepConfined disk (podUID event) after made following := by
  cases h with
  | refuse | skip | giveUp | recordNone | wasVisited | firstVisit | podDirFailed | getPodFailed
  | getPod => exact confined_maps hmaps hfiles trivial
  | serve => exact confined_maps hmaps hfiles hevent.containers
  | statuses tries statuses => exact confined_maps hmaps hfiles hpoint
  | again tries statuses reply hreply =>
      exact confined_maps hmaps hfiles (hanswer reply hreply).containers
  | record statuses pairs hpairs =>
      exact confined_maps (plain_record hmaps (hpoint pairs hpairs)) hfiles trivial
  | list => exact confined_maps hmaps hfiles (hmaps.listed (podUID event))
  | allTried => exact confined_maps hmaps hfiles trivial
  | dirName uid rest =>
      obtain ⟨huid, hrest⟩ := List.forall_mem_cons.mp hpoint
      exact confined_maps hmaps hfiles
        ⟨container_directory hmaps cgroupV2 (podUID event) huid, hrest⟩
  | mkdirFailed | contName => exact confined_maps hmaps hfiles hpoint
  | mkdir uid dir rest made hmade => exact confined_made hmade hmaps hfiles hpoint
  | totals dir containerName rest =>
      exact confined_maps hmaps hfiles ⟨⟨hevent.uid, dir, hpoint.1, rfl⟩, hpoint.2⟩
  | createFailed | writeFailed => exact confined_maps hmaps hfiles hpoint.2
  | create file data rest inode opened _ hcreate =>
      obtain ⟨hopened, hpending⟩ := Disk.files_inv_create hfiles hcreate
      exact ⟨hmaps, hopened, fun _ _ h => Disk.pending_create h hcreate,
        hpending data hpoint.1, hpoint.2⟩
  | write inode data rest =>
      exact ⟨hmaps, Disk.files_inv_write hfiles hpoint.1, fun _ _ h => Disk.pending_write h,
        hpoint.2⟩
  | markDone | mark | requests =>
      exact confined_maps ⟨hmaps.named, hmaps.listed⟩ hfiles trivial
  | podDir made hmade => exact confined_made hmade hmaps hfiles trivial

/-- A confined handler stays so when the pending writes stay good. -/
theorem confined_of_pending {uid : String}
    (hpending : ∀ inode data, disk.Pending InOwnDirectory inode data →
      made.Pending InOwnDirectory inode data)
    (h : point.Confined disk uid) : point.Confined made uid := by
  cases point with
  | write inode data rest => exact ⟨hpending inode data h.1, h.2⟩
  | _ => exact h

end Handlers

/-! ## The machine -/

/-- The documents that the manager is given are plain. -/
def PlainAction [Gjson] : Action → Prop
  | .modified obj => PlainDocument obj
  | .handler _ answer => ∀ pod ∈ answer.pod, PlainDocument pod.toJson
  | _ => True

section Machine

variable [Gjson] {cgroupV2 : Bool} {state next : State} {action : Action}

/-- The manager starts with empty maps on the disk it finds. -/
theorem confined_boot {disk : ConfigDisk} (hfiles : disk.FilesInv InOwnDirectory)
    (updates : List Pod) : ConfinedInv (.boot disk updates) := by
  have hmaps : newVirtualManager.Plain := by
    constructor <;> simp [newVirtualManager, VirtualManager.listed]
  refine ⟨by simp [State.boot, newPodManager], by simp [State.boot, RunPoint.modified],
    by simp [State.boot], hmaps, ?_, by simp [State.boot]⟩
  cases hmade : disk.mkdirAll (baseDir []) with
  | none => simpa [State.boot, hmade] using hfiles
  | some made =>
      obtain ⟨hinodes, hsame⟩ := Disk.mkdirAll_files hmade
      simpa [State.boot, hmade] using Disk.files_inv_shrink hfiles hinodes hsame

/-- The loop hands an event over as it was queued. -/
theorem confined_run {podMgr : PodManager} {run : RunPoint} {spawn : Option Spawn}
    (h : ConfinedInv state) (hrun : runStep state.podMgr state.run = .next podMgr run spawn) :
    ConfinedInv ({ state with podMgr, run }.spawn spawn) := by
  obtain ⟨hqueued, hheld, hspawn⟩ := run_step_modified hrun
  have hq : ∀ obj ∈ podMgr.podModObj, PlainDocument obj :=
    fun obj hobj => h.queued obj (hqueued obj hobj)
  have hh : ∀ obj, run.modified = some obj → PlainDocument obj :=
    fun obj hobj => h.queued obj (hheld obj hobj)
  rcases spawn with _ | pod | pod
  · exact ⟨hq, hh, h.events, h.maps, h.files, h.points⟩
  · exact ⟨hq, hh, forall_mem_concat h.events (h.held pod (hspawn pod rfl)), h.maps, h.files,
      forall_mem_concat h.points trivial⟩
  · exact ⟨hq, hh, h.events, h.maps, h.files, h.points⟩

/-- Every step of the manager keeps the files in their own directories. -/
theorem confined_step (h : ConfinedInv state) (haction : PlainAction action)
    (hstep : step cgroupV2 state action = some next) : ConfinedInv next := by
  cases effect_of_step hstep with
  | restart heq =>
      subst heq
      exact confined_boot h.files state.updates
  | modified obj heq =>
      subst heq
      exact ⟨forall_mem_concat h.queued haction, h.held, h.events, h.maps, h.files, h.points⟩
  | deleted obj heq | runPanic heq | handlerPanic _ _ _ _ _ heq =>
      subst heq
      exact ⟨h.queued, h.held, h.events, h.maps, h.files, h.points⟩
  | run podMgr run spawn hrun heq =>
      subst heq
      exact confined_run h hrun
  | handler i answer handler vm disk point hhandler hmoves heq =>
      subst heq
      have hmem := List.mem_of_getElem? hhandler
      have hkept := confined_moves (h.events handler hmem) haction h.maps h.files
        (h.points handler hmem) hmoves
      have hothers : ∀ other ∈ state.handlers, other.point.Confined disk (podUID other.event) :=
        fun other hother => confined_of_pending hkept.pending (h.points other hother)
      exact ⟨h.queued, h.held, forall_mem_set h.events (h.events handler hmem), hkept.maps,
        hkept.files, forall_mem_set hothers hkept.point⟩
  | updated i answer handler copyPod pod hhandler hpoint heq =>
      subst heq
      have hmem := List.mem_of_getElem? hhandler
      exact ⟨h.queued, h.held, forall_mem_set h.events (h.events handler hmem), h.maps, h.files,
        forall_mem_set h.points trivial⟩
  | deleter i pod _ heq =>
      subst heq
      unfold deletePodPath
      split
      · exact ⟨h.queued, h.held, h.events, h.maps, h.files, h.points⟩
      · split
        · exact ⟨h.queued, h.held, h.events, h.maps, h.files, h.points⟩
        · obtain ⟨hinodes, hsame⟩ := Disk.removeAll_files state.disk (baseDir [podUID pod])
          have hpending := fun inode data
            (hwrite : state.disk.Pending InOwnDirectory inode data) =>
            Disk.pending_shrink hwrite hinodes hsame
          exact ⟨h.queued, h.held, h.events, plain_forget_pod h.maps (podUID pod),
            Disk.files_inv_shrink h.files hinodes hsame,
            fun other hother => confined_of_pending hpending (h.points other hother)⟩

end Machine

end UniShare.ResourceManager
