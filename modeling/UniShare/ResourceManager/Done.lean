import UniShare.ResourceManager.Steps
import UniShare.ResourceManager.Config

/-!
# Pods that are marked done

A handler marks a pod as done after it has gone through the list of the pod's recorded containers,
and no later event of the pod leads to its files again. `done_written` says on which passes every
marked pod has had the file of each of its containers written: the list must cover the containers,
and no file may fail. The machine is run with the disks that it has passed through.
-/

namespace UniShare.ResourceManager

open Lib Kube PodWatch

/-- The disk that a step leaves. -/
def diskAfter [Gjson] (cgroupV2 : Bool) (state : State) (action : Action) : List ConfigDisk :=
  ((step cgroupV2 state action).map State.disk).toList

/-- On one of these disks a container of the pod with this name has its configuration file, under
its own path and about itself. -/
def WrittenFor (cgroupV2 : Bool) (owner : String → String × String) (disks : List ConfigDisk)
    (uid name : String) : Prop :=
  ∃ cont, owner cont = (uid, name) ∧ ∃ disk ∈ disks, ∃ data,
    disk.read (vcudaFileName (containerDir cgroupV2 owner uid cont)) = some data ∧
      data.podUid = uid ∧ data.containerName = name

/-- Every container of a pod that is marked done has had its file written. -/
def DoneWritten (cgroupV2 : Bool) (owner : String → String × String)
    (containers : String → List Container) (state : State × List ConfigDisk) : Prop :=
  ∀ uid, state.1.vm.podDoByUID uid = some true →
    ∀ cont ∈ containers uid, WrittenFor cgroupV2 owner state.2 uid cont.name

/-- One of these UIDs is recorded with the name. -/
def VirtualManager.NameAmong (vm : VirtualManager) (name : String) (uids : List String) : Prop :=
  ∃ uid ∈ uids, vm.containerNameByUid uid = some name

/-- At the start of a pass the list has every container whose file has not been written. A file
that cannot be opened or written is one that has been written before, or that comes again. -/
def PassCovers (containers : String → List Container) (vm : VirtualManager) (disk : ConfigDisk)
    (written : String → String → Prop) (uid : String) (answer : Answer) : HandlerPoint → Prop
  | .list => ∀ cont ∈ containers uid,
      vm.NameAmong cont.name (vm.listed uid) ∨ written uid cont.name
  | .create file data rest => (if answer.ok then disk.create file else none).isSome ∨
      vm.NameAmong data.containerName rest ∨ written data.podUid data.containerName
  | .write _ data rest => answer.ok = true ∨
      vm.NameAmong data.containerName rest ∨ written data.podUid data.containerName
  | _ => True

/-- Every pass over the containers of a pod covers them, and a handler that waits for the statuses
of its pod is answered with that pod. -/
def PassesCover [Gjson] (containers : String → List Container)
    (written : List ConfigDisk → String → String → Prop) (state : State × List ConfigDisk) :
    Action → Prop
  | .handler i answer => ∀ handler ∈ state.1.handlers[i]?,
      PassCovers containers state.1.vm state.1.disk (written state.2) (podUID handler.event) answer
        handler.point ∧ ∀ pod ∈ answer.pod, handler.FetchesOwn pod
  | _ => True

instance (vm : VirtualManager) (name : String) (uids : List String) :
    Decidable (vm.NameAmong name uids) :=
  inferInstanceAs (Decidable (∃ uid ∈ uids, _))

instance (containers : String → List Container) (vm : VirtualManager) (disk : ConfigDisk)
    (written : String → String → Prop) [∀ uid name, Decidable (written uid name)] (uid : String)
    (answer : Answer) (point : HandlerPoint) :
    Decidable (PassCovers containers vm disk written uid answer point) := by
  cases point <;> simp only [PassCovers] <;> infer_instance

instance [Gjson] (containers : String → List Container)
    (written : List ConfigDisk → String → String → Prop)
    [∀ disks uid name, Decidable (written disks uid name)] (state : State × List ConfigDisk) :
    ∀ action, Decidable (PassesCover containers written state action)
  | .handler i _ => inferInstanceAs (Decidable (∀ handler ∈ state.1.handlers[i]?, _ ∧ _))
  | .modified _ | .deleted _ | .run | .deleter _ | .restart => .isTrue trivial

/-- A pass that covers its pod does so when more has been written. -/
theorem PassCovers.mono {containers : String → List Container} {vm : VirtualManager}
    {disk : ConfigDisk} {written later : String → String → Prop} {uid : String} {answer : Answer}
    {point : HandlerPoint} (h : PassCovers containers vm disk written uid answer point)
    (hlater : ∀ uid name, written uid name → later uid name) :
    PassCovers containers vm disk later uid answer point := by
  cases point with
  | list => exact fun cont hcont => (h cont hcont).imp_right (hlater _ _)
  | create | write => exact h.imp_right fun hname => hname.imp_right (hlater _ _)
  | _ => trivial

/-- The passes that cover their pods do so when more has been written. -/
theorem PassesCover.mono [Gjson] {containers : String → List Container}
    {written later : List ConfigDisk → String → String → Prop} {state : State × List ConfigDisk}
    {action : Action} (h : PassesCover containers written state action)
    (hlater : ∀ disks uid name, written disks uid name → later disks uid name) :
    PassesCover containers later state action := by
  cases action with
  | handler i answer =>
      intro handler hhandler
      obtain ⟨hcovers, hfetches⟩ := h handler hhandler
      exact ⟨hcovers.mono (hlater state.2), hfetches⟩
  | _ => trivial

/-! ## A pass -/

/-- Each container of the pod has had its file written, or has one of these names. -/
def Covered (containers : String → List Container) (written : String → String → Prop)
    (uid : String) (names : List String) : Prop :=
  ∀ cont ∈ containers uid, written uid cont.name ∨ cont.name ∈ names

/-- The UIDs are those of containers of the pod, and recorded with the names of these. -/
def VirtualManager.Known (owner : String → String × String) (vm : VirtualManager) (podUID : String)
    (uids : List String) : Prop :=
  ∀ uid ∈ uids, vm.containerNameByUid uid = some (owner uid).2 ∧ (owner uid).1 = podUID

/-- This is the file of a container of the pod with the name. -/
def OwnFile (cgroupV2 : Bool) (owner : String → String × String) (podUID name : String)
    (file : List String) : Prop :=
  ∃ cont, owner cont = (podUID, name) ∧ file = vcudaFileName (containerDir cgroupV2 owner podUID cont)

/-- What the handler has left to do covers the containers of its pod, and what it is about to do it
does to the container's own file. -/
def HandlerPoint.Covers (cgroupV2 : Bool) (containers : String → List Container)
    (owner : String → String × String) (vm : VirtualManager) (disk : ConfigDisk)
    (written : String → String → Prop) (podUID : String) : HandlerPoint → Prop
  | .dirName uids =>
      vm.Known owner podUID uids ∧
        Covered containers written podUID (uids.map fun uid => (owner uid).2)
  | .mkdir uid dir rest | .contName uid dir rest =>
      dir = containerDir cgroupV2 owner podUID uid ∧ vm.Known owner podUID (uid :: rest) ∧
        Covered containers written podUID ((uid :: rest).map fun uid => (owner uid).2)
  | .totals dir name rest =>
      OwnFile cgroupV2 owner podUID name (vcudaFileName dir) ∧ vm.Known owner podUID rest ∧
        Covered containers written podUID (name :: rest.map fun uid => (owner uid).2)
  | .create file data rest =>
      (data.podUid = podUID ∧ OwnFile cgroupV2 owner podUID data.containerName file) ∧
        vm.Known owner podUID rest ∧
        Covered containers written podUID (data.containerName :: rest.map fun uid => (owner uid).2)
  | .write inode data rest =>
      (data.podUid = podUID ∧ ∃ file content,
        OwnFile cgroupV2 owner podUID data.containerName file ∧
          disk.entry file = some (.file inode content)) ∧
        vm.Known owner podUID rest ∧
        Covered containers written podUID (data.containerName :: rest.map fun uid => (owner uid).2)
  | .markDone => Covered containers written podUID []
  | _ => True

/-- The statuses that the handler is about to record are those of containers of its pod. -/
def HandlerPoint.OwnNames [Gjson] (owner : String → String × String) (podUID : String) :
    HandlerPoint → Prop
  | .await _ statuses | .record statuses =>
      ∀ pairs ∈ recordedPairs (Gjson.forEach statuses), ∀ pair ∈ pairs,
        owner pair.1 = (podUID, pair.2)
  | _ => True

/-- Every recorded name is the container's, and every listed UID has one and is the pod's. -/
structure VirtualManager.NamesInv (owner : String → String × String) (vm : VirtualManager) :
    Prop where
  own : ∀ uid name, vm.containerNameByUid uid = some name → name = (owner uid).2
  listed : ∀ podUID, vm.Known owner podUID (vm.listed podUID)

section Pass

variable {cgroupV2 : Bool} {containers : String → List Container}
  {owner : String → String × String} {vm : VirtualManager} {disk : ConfigDisk}
  {written later : String → String → Prop} {podUID : String}

/-- What is covered stays so. -/
theorem Covered.mono {names : List String} (h : Covered containers written podUID names)
    (hlater : ∀ uid name, written uid name → later uid name) :
    Covered containers later podUID names :=
  fun cont hcont => (h cont hcont).imp_left (hlater _ _)

/-- A name that is written, or is among the others, need not be kept. -/
theorem Covered.tail {name : String} {names : List String}
    (h : Covered containers written podUID (name :: names))
    (hname : written podUID name ∨ name ∈ names) : Covered containers written podUID names := by
  intro cont hcont
  rcases h cont hcont with hwritten | hmem
  · exact .inl hwritten
  · rcases List.mem_cons.mp hmem with heq | hrest
    · exact heq ▸ hname
    · exact .inr hrest

/-- A name that is recorded for one of the UIDs is among their names. -/
theorem name_mem_of_among (h : vm.NamesInv owner) {name : String} {uids : List String}
    (hamong : vm.NameAmong name uids) : name ∈ uids.map fun uid => (owner uid).2 := by
  obtain ⟨uid, huid, hname⟩ := hamong
  exact List.mem_map.mpr ⟨uid, huid, (h.own uid name hname).symm⟩

/-- Recording containers of a pod keeps the names. -/
theorem names_inv_record (podUID : String) (h : vm.NamesInv owner) {pairs : List (String × String)}
    (hown : ∀ pair ∈ pairs, owner pair.1 = (podUID, pair.2)) :
    (pairs.foldl (VirtualManager.recordPair podUID) vm).NamesInv owner ∧
      ∀ other uids, vm.Known owner other uids →
        (pairs.foldl (VirtualManager.recordPair podUID) vm).Known owner other uids := by
  have hknown : ∀ other uids, vm.Known owner other uids →
      (pairs.foldl (VirtualManager.recordPair podUID) vm).Known owner other uids := by
    intro other uids huids uid huid
    refine ⟨?_, (huids uid huid).2⟩
    rcases record_pairs_name podUID vm pairs uid with
      ⟨name, hmem, hname⟩ | ⟨-, hname⟩
    · rw [hname, hown _ hmem]
    · rw [hname, (huids uid huid).1]
  refine ⟨⟨fun uid name hname => ?_, fun other uid huid => ?_⟩, hknown⟩
  · rcases record_pairs_name podUID vm pairs uid with
      ⟨name', hmem, hname'⟩ | ⟨-, hname'⟩
    · rw [hname', Option.some.injEq] at hname
      rw [← hname, hown _ hmem]
    · exact h.own uid name (hname'.symm.trans hname)
  · rw [record_pairs_listed] at huid
    split at huid
    · rename_i heq
      subst heq
      rcases List.mem_append.mp huid with hold | hnew
      · exact hknown other _ (h.listed other) uid hold
      · obtain ⟨pair, hpair, rfl⟩ := List.mem_map.mp hnew
        refine ⟨?_, by rw [hown pair hpair]⟩
        rcases record_pairs_name other vm pairs pair.1 with
          ⟨name, hmem, hname⟩ | ⟨hnot, -⟩
        · rw [hname, hown _ hmem]
        · exact absurd hnew hnot
    · exact hknown other _ (h.listed other) uid huid

/-- What a handler has left to do covers its pod as before when the names are kept, nothing is taken
away from the disk and more has been written. -/
theorem HandlerPoint.Covers.mono {after : VirtualManager} {made : ConfigDisk} {point : HandlerPoint}
    (h : point.Covers cgroupV2 containers owner vm disk written podUID)
    (hknown : ∀ other uids, vm.Known owner other uids → after.Known owner other uids)
    (hkeeps : disk.Keeps made) (hlater : ∀ uid name, written uid name → later uid name) :
    point.Covers cgroupV2 containers owner after made later podUID := by
  cases point with
  | dirName uids => exact ⟨hknown _ _ h.1, h.2.mono hlater⟩
  | mkdir uid dir rest | contName uid dir rest =>
      exact ⟨h.1, hknown _ _ h.2.1, h.2.2.mono hlater⟩
  | totals dir name rest => exact ⟨h.1, hknown _ _ h.2.1, h.2.2.mono hlater⟩
  | create file data rest => exact ⟨h.1, hknown _ _ h.2.1, h.2.2.mono hlater⟩
  | write inode data rest =>
      obtain ⟨⟨hpod, file, content, hown, hfile⟩, huids, hleft⟩ := h
      obtain ⟨content, hfile⟩ := hkeeps.files file inode content hfile
      exact ⟨⟨hpod, file, content, hown, hfile⟩, hknown _ _ huids, hleft.mono hlater⟩
  | markDone => exact Covered.mono h hlater
  | _ => trivial

/-- What a step of a handler leaves: the names, and what it has left to do. -/
structure PassKept (cgroupV2 : Bool) (containers : String → List Container)
    (owner : String → String × String) (vm after : VirtualManager) (made : ConfigDisk)
    (later : String → String → Prop) (podUID : String) (following : HandlerPoint) : Prop where
  names : after.NamesInv owner
  known : ∀ other uids, vm.Known owner other uids → after.Known owner other uids
  covers : following.Covers cgroupV2 containers owner after made later podUID
  marked : ∀ uid, after.podDoByUID uid = some true →
    vm.podDoByUID uid = some true ∨ uid = podUID ∧ Covered containers later podUID []

/-- A step that leaves the names and the marks alone. -/
theorem pass_kept {after : VirtualManager} {following : HandlerPoint} (h : vm.NamesInv owner)
    (hnames : after.containerNameByUid = vm.containerNameByUid)
    (hlists : after.containerUIDInPodUID = vm.containerUIDInPodUID)
    (hdone : after.podDoByUID = vm.podDoByUID)
    (hcovers : following.Covers cgroupV2 containers owner after disk later podUID) :
    PassKept cgroupV2 containers owner vm after disk later podUID following := by
  have hknown : ∀ other uids, vm.Known owner other uids → after.Known owner other uids := by
    intro other uids huids uid huid
    rw [hnames]
    exact huids uid huid
  refine ⟨⟨fun uid name hname => h.own uid name (hnames ▸ hname), fun other => ?_⟩, hknown,
    hcovers, fun uid hmarked => .inl (hdone ▸ hmarked)⟩
  rw [VirtualManager.listed, hlists]
  exact hknown other _ (h.listed other)

/-- A step of a handler whose pass covers its pod keeps what it has left to do covering it. -/
theorem pass_moves [Gjson] {after : VirtualManager} {made : ConfigDisk} {event : Json}
    {answer : Answer} {point following : HandlerPoint} (h : vm.NamesInv owner)
    (hlater : ∀ uid name, written uid name → later uid name)
    (hread : ∀ cont data, owner cont = (ResourceManager.podUID event, data.containerName) →
      data.podUid = ResourceManager.podUID event →
      made.read (vcudaFileName (containerDir cgroupV2 owner (ResourceManager.podUID event) cont)) =
        some data → later (ResourceManager.podUID event) data.containerName)
    (hcovers : point.Covers cgroupV2 containers owner vm disk written
      (ResourceManager.podUID event))
    (hown : point.OwnNames owner (ResourceManager.podUID event))
    (hpass : PassCovers containers vm disk written (ResourceManager.podUID event) answer point)
    (hmoves : Moves cgroupV2 vm disk event answer point after made following) :
    PassKept cgroupV2 containers owner vm after made later (ResourceManager.podUID event)
      following := by
  cases hmoves with
  | record statuses pairs hpairs hne =>
      obtain ⟨hnames, hknown⟩ :=
        names_inv_record (ResourceManager.podUID event) h (hown pairs hpairs)
      refine ⟨hnames, hknown, trivial, fun uid hmarked => .inl ?_⟩
      rwa [(record_pairs_frame _ vm pairs).2.2.1] at hmarked
  | list =>
      refine pass_kept h rfl rfl rfl ⟨h.listed _, fun cont hcont => ?_⟩
      rcases hpass cont hcont with hamong | hwritten
      · exact .inr (name_mem_of_among h hamong)
      · exact .inl (hlater _ _ hwritten)
  | allTried => exact pass_kept h rfl rfl rfl (hcovers.2.mono hlater)
  | dirName uid rest =>
      refine pass_kept h rfl rfl rfl ⟨?_, hcovers.1, hcovers.2.mono hlater⟩
      rw [containerDir, (hcovers.1 uid (by simp)).1, Option.getD_some]
  | mkdirFailed uid dir rest =>
      exact pass_kept h rfl rfl rfl ⟨hcovers.1, hcovers.2.1, hcovers.2.2.mono hlater⟩
  | mkdir uid dir rest made hmade =>
      exact pass_kept h rfl rfl rfl ⟨hcovers.1, hcovers.2.1, hcovers.2.2.mono hlater⟩
  | contName uid dir rest =>
      obtain ⟨hdir, hknown, hleft⟩ := hcovers
      obtain ⟨hname, hpod⟩ := hknown uid (by simp)
      refine pass_kept h rfl rfl rfl ⟨⟨uid, ?_, hdir ▸ rfl⟩,
        fun other hother => hknown other (by simp [hother]), ?_⟩
      · rw [hname, ← hpod]
        rfl
      · rw [hname]
        exact hleft.mono hlater
  | totals dir containerName rest =>
      exact pass_kept h rfl rfl rfl ⟨⟨rfl, hcovers.1⟩, hcovers.2.1, hcovers.2.2.mono hlater⟩
  | createFailed file data rest hfailed =>
      obtain ⟨⟨hpod, -⟩, hknown, hleft⟩ := hcovers
      refine pass_kept h rfl rfl rfl ⟨hknown, (hleft.tail ?_).mono hlater⟩
      simp only [PassCovers, hfailed, Option.isSome_none, Bool.false_eq_true, false_or,
        hpod] at hpass
      exact hpass.symm.imp_right fun hamong => name_mem_of_among h hamong
  | create file data rest inode opened hok hcreate =>
      obtain ⟨⟨hpod, hfile⟩, hknown, hleft⟩ := hcovers
      refine pass_kept h rfl rfl rfl ⟨⟨hpod, file, none, hfile, ?_⟩, hknown, hleft.mono hlater⟩
      rw [(Disk.create_eq_some hcreate).1, Function.update_self]
  | writeFailed inode data rest hok =>
      obtain ⟨⟨hpod, -⟩, hknown, hleft⟩ := hcovers
      refine pass_kept h rfl rfl rfl ⟨hknown, (hleft.tail ?_).mono hlater⟩
      simp only [PassCovers, hok, Bool.false_eq_true, false_or, hpod] at hpass
      exact hpass.symm.imp_right fun hamong => name_mem_of_among h hamong
  | write inode data rest hok =>
      obtain ⟨⟨hpod, file, content, ⟨cont, hcont, rfl⟩, hfile⟩, hknown, hleft⟩ := hcovers
      refine pass_kept h rfl rfl rfl ⟨hknown, (hleft.mono hlater).tail (.inl ?_)⟩
      refine hread cont data hcont hpod ?_
      simp [Disk.read, Disk.write, hfile]
  | markDone =>
      refine ⟨⟨h.own, h.listed⟩, fun _ _ huids => huids, trivial, fun uid hmarked => ?_⟩
      by_cases heq : uid = ResourceManager.podUID event
      · exact .inr ⟨heq, Covered.mono hcovers hlater⟩
      · simp only [VirtualManager.markDone, Function.update_of_ne heq] at hmarked
        exact .inl hmarked
  | _ => exact pass_kept h rfl rfl rfl trivial

end Pass

/-! ## Runs -/

/-- No deletion is on its way, the statuses are the pods' own, and what the handlers have left to do
covers their pods. -/
structure DoneInv [Gjson] (cgroupV2 : Bool) (containers : String → List Container)
    (owner : String → String × String) (state : State × List ConfigDisk) : Prop where
  heads : state.1.run.HoldsHead state.1.podMgr
  queued : ∀ obj ∈ state.1.podMgr.podModObj, OwnStatuses owner obj
  events : ∀ handler ∈ state.1.handlers, OwnStatuses owner handler.event
  statuses : ∀ handler ∈ state.1.handlers, handler.point.OwnNames owner (podUID handler.event)
  undeleted : state.1.podMgr.podDelObj = [] ∧ state.1.deleters = []
  names : state.1.vm.NamesInv owner
  covers : ∀ handler ∈ state.1.handlers,
    handler.point.Covers cgroupV2 containers owner state.1.vm state.1.disk
      (WrittenFor cgroupV2 owner state.2) (podUID handler.event)
  done : DoneWritten cgroupV2 owner containers state

/-- A file that has been written on one of the disks stays so as the run goes on. -/
theorem WrittenFor.append {cgroupV2 : Bool} {owner : String → String × String}
    {disks : List ConfigDisk} {uid name : String} (h : WrittenFor cgroupV2 owner disks uid name)
    (more : List ConfigDisk) :
    WrittenFor cgroupV2 owner (disks ++ more) uid name := by
  obtain ⟨cont, hcont, disk, hmem, hdisk⟩ := h
  exact ⟨cont, hcont, disk, List.mem_append_left _ hmem, hdisk⟩

/-- Marked pods have had their files written as the run goes on. -/
theorem DoneWritten.append {cgroupV2 : Bool} {containers : String → List Container}
    {owner : String → String × String} {state next : State} {disks : List ConfigDisk}
    (h : DoneWritten cgroupV2 owner containers (state, disks))
    (hdone : ∀ uid, next.vm.podDoByUID uid = some true → state.vm.podDoByUID uid = some true)
    (more : List ConfigDisk) : DoneWritten cgroupV2 owner containers (next, disks ++ more) :=
  fun uid hmarked cont hcont => (h uid (hdone uid hmarked) cont hcont).append more

section Runs

variable [Gjson] {cgroupV2 : Bool} {containers : String → List Container}
  {owner : String → String × String}

/-- The manager starts with nothing marked. -/
theorem done_inv_boot (owner : String → String × String) (disk : ConfigDisk) (updates : List Pod)
    (disks : List ConfigDisk) :
    DoneInv cgroupV2 containers owner (.boot disk updates, disks) := by
  refine ⟨trivial, by simp [State.boot, newPodManager], by simp [State.boot],
    by simp [State.boot], ⟨rfl, rfl⟩, ⟨?_, ?_⟩, by simp [State.boot], ?_⟩
  · simp [State.boot, newVirtualManager]
  · simp [State.boot, newVirtualManager, VirtualManager.listed, VirtualManager.Known]
  · simp [State.boot, newVirtualManager, DoneWritten]

/-- A step of a handler goes on with statuses that are its own pod's. -/
theorem own_names_moves {vm after : VirtualManager} {disk made : ConfigDisk} {event : Json}
    {answer : Answer} {point following : HandlerPoint} (hevent : OwnStatuses owner event)
    (hanswer : ∀ pod ∈ answer.pod, OwnStatuses owner pod.toJson)
    (hfetches : ∀ pod ∈ answer.pod, Handler.FetchesOwn ⟨event, point⟩ pod)
    (hown : point.OwnNames owner (podUID event))
    (hmoves : Moves cgroupV2 vm disk event answer point after made following) :
    following.OwnNames owner (podUID event) := by
  have hnames : ∀ document, OwnStatuses owner document → podUID document = podUID event →
      ∀ pairs ∈ recordedPairs (Gjson.forEach (containerStatuses document)),
        ∀ pair ∈ pairs, owner pair.1 = (podUID event, pair.2) := by
    intro document hdocument huid pairs hpairs pair hpair
    rw [← huid, (hdocument pairs hpairs).2 pair hpair]
  cases hmoves with
  | serve => exact hnames event hevent rfl
  | statuses => exact hown
  | again tries statuses reply hreply =>
      exact hnames reply.toJson (hanswer reply hreply) (hfetches reply hreply)
  | _ => trivial

/-- A step of a handler whose pass covers its pod keeps the invariant. -/
theorem done_inv_handler {state : State} {disks : List ConfigDisk} {i : Nat}
    {answer : Answer} {handler : Handler} {vm : VirtualManager} {disk : ConfigDisk}
    {point : HandlerPoint} (h : DoneInv cgroupV2 containers owner (state, disks))
    (hhandler : state.handlers[i]? = some handler)
    (hanswer : ∀ pod ∈ answer.pod, OwnStatuses owner pod.toJson)
    (hpass : PassCovers containers state.vm state.disk (WrittenFor cgroupV2 owner disks)
      (podUID handler.event) answer handler.point)
    (hfetches : ∀ pod ∈ answer.pod, handler.FetchesOwn pod)
    (hmoves : Moves cgroupV2 state.vm state.disk handler.event answer handler.point vm disk
      point) :
    DoneInv cgroupV2 containers owner
      ({ state with vm, disk, handlers := state.handlers.set i { handler with point } },
        disks ++ [disk]) := by
  have hmem := List.mem_of_getElem? hhandler
  have hlater : ∀ uid name, WrittenFor cgroupV2 owner disks uid name →
      WrittenFor cgroupV2 owner (disks ++ [disk]) uid name :=
    fun uid name hwritten => hwritten.append [disk]
  have hkept := pass_moves h.names hlater
    (fun cont data hcont hpod hread =>
      ⟨cont, hcont, disk, List.mem_append_right _ (by simp), data, hread, hpod, rfl⟩)
    (h.covers handler hmem) (h.statuses handler hmem) hpass hmoves
  have hevent := h.events handler hmem
  have hstatuses := own_names_moves hevent hanswer hfetches (h.statuses handler hmem) hmoves
  have hcovers : ∀ other ∈ state.handlers, other.point.Covers cgroupV2 containers owner vm disk
      (WrittenFor cgroupV2 owner (disks ++ [disk])) (podUID other.event) :=
    fun other hother => (h.covers other hother).mono hkept.known (keeps_moves hmoves) hlater
  refine ⟨h.heads, h.queued, forall_mem_set h.events hevent,
    forall_mem_set h.statuses hstatuses, h.undeleted, hkept.names,
    forall_mem_set hcovers hkept.covers, fun uid hmarked cont hcont => ?_⟩
  rcases hkept.marked uid hmarked with hold | ⟨rfl, hcovered⟩
  · exact (h.done uid hold cont hcont).append _
  · exact (hcovered cont hcont).resolve_right (by simp)

/-- Every step without a deletion keeps the invariant when the passes cover their pods. -/
theorem done_inv_step {state next : State × List ConfigDisk} {action : Action}
    (h : DoneInv cgroupV2 containers owner state) (hown : action.OwnStatuses owner)
    (hdeleted : ∀ obj, action ≠ .deleted obj)
    (hpass : PassesCover containers (WrittenFor cgroupV2 owner) state action)
    (hstep : logged (step cgroupV2) (diskAfter cgroupV2) state action = some next) :
    DoneInv cgroupV2 containers owner next := by
  obtain ⟨state, disks⟩ := state
  obtain ⟨following, disks'⟩ := next
  obtain ⟨hnext, hdisks⟩ := logged_eq_some.mp hstep
  simp only at hnext hdisks
  have hafter : diskAfter cgroupV2 state action = [following.disk] := by
    simp [diskAfter, hnext]
  rw [hafter] at hdisks
  subst hdisks
  have hlater : ∀ uid name, WrittenFor cgroupV2 owner disks uid name →
      WrittenFor cgroupV2 owner (disks ++ [following.disk]) uid name :=
    fun uid name hwritten => hwritten.append _
  have hcovers : ∀ other ∈ state.handlers,
      other.point.Covers cgroupV2 containers owner state.vm state.disk
        (WrittenFor cgroupV2 owner (disks ++ [following.disk])) (podUID other.event) :=
    fun other hother => (h.covers other hother).mono (fun _ _ huids => huids) (.refl _) hlater
  have hdone : ∀ next : State, (∀ uid, next.vm.podDoByUID uid = some true →
      state.vm.podDoByUID uid = some true) →
      DoneWritten cgroupV2 owner containers (next, disks ++ [following.disk]) :=
    fun next hsame => h.done.append hsame _
  cases effect_of_step hnext with
  | restart heq =>
      subst heq
      exact done_inv_boot owner state.disk state.updates _
  | modified obj heq =>
      subst heq
      exact ⟨(holds_head_append h.heads obj).1, forall_mem_concat h.queued hown, h.events,
        h.statuses, h.undeleted, h.names, hcovers, hdone _ fun _ hmarked => hmarked⟩
  | deleted obj heq => exact absurd rfl (hdeleted obj)
  | run podMgr run spawn hrun heq =>
      obtain ⟨hheads, hmodified, hdel⟩ := run_step_queues h.heads hrun
      rw [h.undeleted.1] at hdel
      obtain ⟨hnone, hempty⟩ := List.append_eq_nil_iff.mp hdel.symm
      have hqueued : ∀ obj ∈ podMgr.podModObj, OwnStatuses owner obj := by
        intro obj hobj
        exact h.queued obj (hmodified ▸ List.mem_append_right _ hobj)
      subst heq
      rcases spawn with _ | pod | pod
      · exact ⟨hheads, hqueued, h.events, h.statuses, ⟨hempty, h.undeleted.2⟩, h.names, hcovers,
          hdone _ fun _ hmarked => hmarked⟩
      · have hpod : OwnStatuses owner pod :=
          h.queued pod (hmodified ▸ List.mem_append_left _ (List.mem_singleton.mpr rfl))
        exact ⟨hheads, hqueued, forall_mem_concat h.events hpod,
          forall_mem_concat h.statuses trivial, ⟨hempty, h.undeleted.2⟩, h.names,
          forall_mem_concat hcovers trivial, hdone _ fun _ hmarked => hmarked⟩
      · cases hnone
  | handler i answer handler vm disk point hhandler hmoves heq =>
      subst heq
      obtain ⟨hcovered, hfetches⟩ := hpass handler hhandler
      exact done_inv_handler h hhandler hown hcovered hfetches hmoves
  | updated i answer handler copyPod pod hhandler hpoint heq =>
      subst heq
      have hmem := List.mem_of_getElem? hhandler
      exact ⟨h.heads, h.queued, forall_mem_set h.events (h.events handler hmem),
        forall_mem_set h.statuses trivial, h.undeleted, h.names,
        forall_mem_set hcovers trivial, hdone _ fun _ hmarked => hmarked⟩
  | runPanic heq =>
      subst heq
      exact ⟨h.heads, h.queued, h.events, h.statuses, h.undeleted, h.names, hcovers,
        hdone _ fun _ hmarked => hmarked⟩
  | handlerPanic i answer handler hhandler hnone heq =>
      subst heq
      exact ⟨h.heads, h.queued, h.events, h.statuses, h.undeleted, h.names, hcovers,
        hdone _ fun _ hmarked => hmarked⟩
  | deleter i pod hpod heq =>
      rw [h.undeleted.2] at hpod
      cases hpod

end Runs

/-- In every run without deletions in which every pass over the containers of a pod covers them,
every pod that is marked done has had the configuration file of each of its containers written, in
every state reached. -/
theorem done_written [Gjson] (cgroupV2 : Bool) (containers : String → List Container)
    (owner : String → String × String) (actions : List Action)
    (hown : ∀ action ∈ actions, Action.OwnStatuses owner action)
    (hundeleted : ∀ obj, .deleted obj ∉ actions)
    (hpass : Along (logged (step cgroupV2) (diskAfter cgroupV2))
      (PassesCover containers (WrittenFor cgroupV2 owner)) (State.initial, []) actions) :
    Always (logged (step cgroupV2) (diskAfter cgroupV2)) (DoneWritten cgroupV2 owner containers)
      (State.initial, []) actions := by
  have hevents : Along (logged (step cgroupV2) (diskAfter cgroupV2))
      (fun _ action => Action.OwnStatuses owner action ∧ ∀ obj, action ≠ .deleted obj)
      (State.initial, []) actions := by
    refine Along.of_mem _ fun action hmem _ => ⟨hown action hmem, fun obj heq => ?_⟩
    exact hundeleted obj (heq ▸ hmem)
  exact always_of_along
    (fun state action next h hcond hstep =>
      done_inv_step h hcond.1.1 hcond.1.2 hcond.2 hstep)
    (fun state h => h.done) (done_inv_boot owner _ [] []) (hevents.and hpass)

/-- A pod of two containers, of which the statuses list the first only. -/
def twoContainerPod : Pod :=
  { runningPod with
    containers := runningPod.containers ++ [{ name := "side", requests := [], limits := [] }] }

/-- The same pod once its second container has been created too. -/
def createdPod : Pod :=
  { twoContainerPod with containerStatuses := [⟨"main", "docker://c1"⟩, ⟨"side", "docker://c2"⟩] }

/-- The containers of the pod. -/
def ownerOfTwo (cont : String) : String × String :=
  if cont = "c1" then ("uid-a", "main")
  else if cont = "c2" then ("uid-a", "side")
  else ("", "")

/-- The pass over both containers. -/
def doublePass : List Action := handledEvent createdPod 3 0 18

/-- The statuses list the containers of `uid-a`. -/
theorem double_pass_own :
    letI := Gjson.reader
    ∀ action ∈ doublePass, Action.OwnStatuses ownerOfTwo action := by
  decide +kernel

/-- The pass covers them, although no file has been written before. -/
theorem double_pass_covers :
    letI := Gjson.reader
    Along (logged (step false) (diskAfter false))
      (PassesCover (fun _ => createdPod.containers) fun _ _ _ => False) (State.initial, [])
      doublePass := by
  decide +kernel

/-- After the pass the pod is marked done, and the file of each container has been written. -/
theorem done_written_double :
    letI := Gjson.reader
    ∃ state, exec (logged (step false) (diskAfter false)) (State.initial, []) doublePass =
        some state ∧
      state.1.vm.podDoByUID "uid-a" = some true ∧
      DoneWritten false ownerOfTwo (fun _ => createdPod.containers) state := by
  let reader := Gjson.reader
  have hrun : (exec (logged (step false) (diskAfter false)) (State.initial, []) doublePass).map
      (fun state => state.1.vm.podDoByUID "uid-a") = some (some true) := by decide +kernel
  obtain ⟨state, hstate, hdone⟩ := Option.map_eq_some_iff.mp hrun
  have hundeleted : ∀ obj, Action.deleted obj ∉ doublePass := by
    intro obj hmem
    simp [doublePass, handledEvent] at hmem
  have hpass : Along (logged (step false) (diskAfter false))
      (PassesCover (fun _ => createdPod.containers) (WrittenFor false ownerOfTwo))
      (State.initial, []) doublePass :=
    along_of_invariant (fun _ _ _ (_ : True) _ _ => trivial)
      (fun _ _ _ _ hcovers _ => hcovers.mono fun _ _ _ hwritten => hwritten.elim) trivial
      double_pass_covers
  have hall := done_written false (fun _ => createdPod.containers) ownerOfTwo doublePass
    double_pass_own hundeleted hpass
  exact ⟨state, hstate, hdone, hall.final hstate⟩

/-- The first container belongs to the pod. -/
theorem two_container_own :
    letI := Gjson.reader
    ∀ action ∈ handledEvent twoContainerPod 3 0 12, Action.OwnStatuses ownerOfTwo action := by
  decide +kernel

/-- The pod is marked done after a pass over its first container, and the second has no file. -/
theorem done_written_counterexample :
    letI := Gjson.reader
    ¬ ∀ (cgroupV2 : Bool) (containers : String → List Container)
        (owner : String → String × String) (actions : List Action),
      (∀ action ∈ actions, Action.OwnStatuses owner action) →
      (∀ obj, .modified obj ∈ actions → PodEvent containers obj) →
      (∀ obj, .deleted obj ∉ actions) →
        Always (logged (step cgroupV2) (diskAfter cgroupV2)) (DoneWritten cgroupV2 owner containers)
          (State.initial, []) actions := by
  intro h
  let reader := Gjson.reader
  have hrun : (exec (logged (step false) (diskAfter false)) (State.initial, [])
        (handledEvent twoContainerPod 3 0 12)).map
      (fun state => (state.1.vm.podDoByUID "uid-a", state.2.all fun disk =>
        (disk.read (vcudaFileName (baseDir ["uid-a", "c2"]))).isNone)) =
      some (some true, true) := by decide +kernel
  obtain ⟨state, hstate, hfound⟩ := Option.map_eq_some_iff.mp hrun
  obtain ⟨hdone, hnone⟩ := Prod.mk.inj hfound
  have hundeleted : ∀ obj, Action.deleted obj ∉ handledEvent twoContainerPod 3 0 12 := by
    intro obj hmem
    simp [handledEvent] at hmem
  have hall := h false (fun _ => twoContainerPod.containers) ownerOfTwo _ two_container_own
    (fun obj hobj => ⟨twoContainerPod, modified_mem_handled hobj, rfl⟩) hundeleted
  obtain ⟨cont, hcont, disk, hdisk, data, hread, -⟩ := (hall.final hstate) "uid-a" hdone
    { name := "side", requests := [], limits := [] } (by decide)
  -- only `c2` is the second container
  have hside : cont = "c2" := by
    unfold ownerOfTwo at hcont
    split at hcont
    · exact absurd hcont (by decide)
    · split at hcont
      · assumption
      · exact absurd hcont (by decide)
  subst hside
  have hempty := List.all_eq_true.mp hnone disk hdisk
  rw [Option.isNone_iff_eq_none] at hempty
  exact absurd (hread.symm.trans hempty) (by simp)

end UniShare.ResourceManager
