import UniShare.ResourceManager.Done
import UniShare.ResourceManager.Confined

/-!
# Pods at rest

Several handlers of one pod may go through the list of its containers at once: one of them empties a
file that another has just written, and a deletion takes the directory away under both. A file that
is not written is owed by a handler that is still on its way to write it. `configured_at_rest`
follows: as long as no file operation fails, every container recorded for a pod has its written
configuration file whenever the handlers of the pod have ended.
-/

namespace UniShare.ResourceManager

open Lib Kube PodWatch

/-- The handlers of the pod's events have ended. -/
def AtRest [Gjson] (state : State) (uid : String) : Prop :=
  ∀ handler ∈ state.handlers, podUID handler.event = uid → handler.point = .finished

/-- Every container that is recorded for a pod at rest has a written configuration file, and the
file is about the pod. -/
def ConfiguredAtRest [Gjson] (cgroupV2 : Bool) (owner : String → String × String) (state : State) :
    Prop :=
  ∀ uid, AtRest state uid → ∀ cont ∈ state.vm.listed uid,
    ∃ data, state.disk.read (vcudaFileName (containerDir cgroupV2 owner uid cont)) = some data ∧
      data.podUid = uid

/-- The documents that the manager is given are well formed, no file operation fails, and a handler
that waits for the statuses of its pod is answered with that pod. -/
def Regular [Gjson] (owner : String → String × String) (state : State) : Action → Prop
  | .modified obj => WellFormed owner obj
  | .handler i answer => answer.ok = true ∧ ∀ pod ∈ answer.pod, WellFormed owner pod.toJson ∧
      ∀ handler ∈ state.handlers[i]?, handler.FetchesOwn pod
  | _ => True

instance [Gjson] (owner : String → String × String) (state : State) :
    ∀ action, Decidable (Regular owner state action)
  | .modified obj => inferInstanceAs (Decidable (WellFormed owner obj))
  | .handler i answer =>
      inferInstanceAs (Decidable (_ ∧ ∀ pod ∈ answer.pod, _ ∧ ∀ handler ∈ state.handlers[i]?, _))
  | .deleted _ | .run | .deleter _ | .restart => .isTrue trivial

/-! ## The layout of the disk -/

/-- A directory in which a handler of the pod writes a file. It is named after a container, or, when
the name is no longer known, it is the pod's own. -/
def HandlerDir (cgroupV2 : Bool) (uid : String) (dir : List String) : Prop :=
  ∃ name, (PlainElement name ∨ cgroupV2 = true ∧ name = "") ∧ dir = baseDir [uid, name]

/-- A path of a configuration file. -/
def FileAt (cgroupV2 : Bool) (path : List String) : Prop :=
  ∃ uid dir, PlainElement uid ∧ HandlerDir cgroupV2 uid dir ∧ path = vcudaFileName dir

/-- A path that is not below the directory of a container. -/
def DirAt (path : List String) : Prop := path.length ≤ (baseDir []).length + 2

/-- A plain name leads from the directory of the pod to a directory in it. -/
theorem base_dir_plain {uid name : String} (h : PlainElement name) :
    baseDir [uid, name] = podPath uid ++ [name] :=
  filepath_join_plain [virtualManagerPath, uid] h

/-- A missing name leads to the directory of the pod. -/
theorem base_dir_empty (uid : String) : baseDir [uid, ""] = podPath uid :=
  filepath_join_empty [virtualManagerPath, uid]

/-- The directory of a pod is one below the manager's. -/
theorem length_pod_path {uid : String} (h : PlainElement uid) :
    (podPath uid).length = (baseDir []).length + 1 := by
  rw [pod_path_plain h, List.length_append, List.length_singleton]

/-- The directory of a handler is in the directory of its pod. -/
theorem HandlerDir.under {cgroupV2 : Bool} {uid : String} {dir : List String}
    (h : HandlerDir cgroupV2 uid dir) : podPath uid <+: dir := by
  obtain ⟨name, hname, rfl⟩ := h
  exact pod_path_under (hname.symm.imp_left fun hempty => hempty.2)

/-- The directory of a handler is not below that of a container. -/
theorem HandlerDir.dir_at {cgroupV2 : Bool} {uid : String} {dir : List String}
    (huid : PlainElement uid) (h : HandlerDir cgroupV2 uid dir) : DirAt dir := by
  obtain ⟨name, hname | ⟨-, rfl⟩, rfl⟩ := h
  · simp only [DirAt, base_dir_plain hname, List.length_append, List.length_singleton,
      length_pod_path huid]
    omega
  · simp only [DirAt, base_dir_empty, length_pod_path huid]
    omega

section Layout

variable {cgroupV2 : Bool} {owner : String → String × String} {uid cont : String}
  {disk : ConfigDisk}

/-- A path in the way of a directory is not below that of a container. -/
theorem dir_at_part {part path : List String} (h : DirAt path) (hpart : part <+: path) :
    DirAt part :=
  hpart.length_le.trans h

/-- No file is in the way of the directory of a container, which has another name than the
files. -/
theorem no_file_in_way (hlaid : disk.LaidOut (FileAt cgroupV2) DirAt) (huid : PlainElement uid)
    {name : String} (hname : PlainElement name) (hfree : cgroupV2 = true → name ≠ configFileName) :
    (disk.mkdirAll (baseDir [uid, name])).isSome := by
  refine Disk.mkdirAll_isSome fun part hpart inode content hfile => ?_
  obtain ⟨other, dir, hother, ⟨key, hkey, rfl⟩, rfl⟩ := hlaid.files part inode content hfile
  have hlength := hpart.length_le
  rw [base_dir_plain hname] at hpart hlength
  rcases hkey with hplain | ⟨hv2, rfl⟩
  · simp only [vcudaFileName, base_dir_plain hplain, List.length_append, List.length_singleton,
      length_pod_path huid, length_pod_path hother] at hlength
    omega
  · simp only [vcudaFileName, base_dir_empty] at hpart
    have heq := hpart.eq_of_length (by simp [length_pod_path huid, length_pod_path hother])
    have hlast := (List.append_inj' heq rfl).2
    exact hfree hv2 (List.singleton_inj.mp hlast).symm

/-- The path of a container's file is not that of a directory. -/
theorem not_dir_at_file (hlaid : disk.LaidOut (FileAt cgroupV2) DirAt) (huid : PlainElement uid)
    {name : String} (hname : PlainElement name) :
    disk.entry (vcudaFileName (baseDir [uid, name])) ≠ some .dir := by
  intro hdir
  have hlength := hlaid.dirs _ hdir
  simp only [DirAt, vcudaFileName, base_dir_plain hname, List.length_append,
    List.length_singleton, length_pod_path huid] at hlength
  omega

/-- A listed container has a plain name for its directory. -/
theorem container_dir_of_listed (cgroupV2 : Bool) {vm : VirtualManager} (howned : vm.Owned owner)
    (hnames : vm.NamesInv owner) (hfree : ∀ cont, (owner cont).2 ≠ configFileName)
    (hcont : cont ∈ vm.listed uid) : ∃ name, PlainElement name ∧
      (cgroupV2 = true → name ≠ configFileName) ∧
        containerDir cgroupV2 owner uid cont = baseDir [uid, name] := by
  cases cgroupV2 with
  | false => exact ⟨cont, (howned.listed uid cont hcont).2, by simp, rfl⟩
  | true =>
      have hname := (hnames.listed uid cont hcont).1
      exact ⟨(owner cont).2, (howned.named cont _ hname).1, fun _ => hfree cont, rfl⟩

end Layout

/-! ## What a handler owes -/

/-- The handler works in the directory of its pod. -/
def HandlerPoint.Targets (cgroupV2 : Bool) (uid : String) : HandlerPoint → Prop
  | .mkdir _ dir _ | .contName _ dir _ | .totals dir _ _ => HandlerDir cgroupV2 uid dir
  | .create file _ _ => ∃ dir, HandlerDir cgroupV2 uid dir ∧ file = vcudaFileName dir
  | _ => True

/-- The handler is on its way to write the file of the container with this directory. -/
def HandlerPoint.Owes (disk : ConfigDisk) (dir : List String) (cont : String) : HandlerPoint → Prop
  | .list => True
  | .dirName rest => cont ∈ rest
  | .mkdir _ path rest => path = dir ∨ cont ∈ rest
  | .contName _ path rest | .totals path _ rest =>
      path = dir ∧ disk.entry dir = some .dir ∨ cont ∈ rest
  | .create file _ rest => file = vcudaFileName dir ∧ disk.entry dir = some .dir ∨ cont ∈ rest
  | .write inode _ rest =>
      (∃ content, disk.entry (vcudaFileName dir) = some (.file inode content)) ∨ cont ∈ rest
  | _ => False

/-- The handler is in a pass over the containers of its pod. -/
def HandlerPoint.InPass : HandlerPoint → Prop
  | .list | .dirName _ | .mkdir .. | .contName .. | .totals .. | .create .. | .write .. => True
  | _ => False

/-- The handler is about to open this file. -/
def HandlerPoint.Opens (file : List String) : HandlerPoint → Prop
  | .create path _ _ => path = file
  | _ => False

instance : ∀ point : HandlerPoint, Decidable point.InPass
  | .list | .dirName _ | .mkdir .. | .contName .. | .totals .. | .create .. | .write .. =>
      .isTrue trivial
  | .entry | .await .. | .record _ | .markDone | .visited | .mark | .podDir | .requests | .getPod
  | .annotate _ | .finished => .isFalse id

instance (file : List String) : ∀ point : HandlerPoint, Decidable (point.Opens file)
  | .create path _ _ => inferInstanceAs (Decidable (path = file))
  | .list | .dirName _ | .mkdir .. | .contName .. | .totals .. | .write .. | .entry | .await ..
  | .record _ | .markDone | .visited | .mark | .podDir | .requests | .getPod | .annotate _
  | .finished => .isFalse id

/-- A handler that owes a file is in a pass. -/
theorem HandlerPoint.Owes.inPass {disk : ConfigDisk} {dir : List String} {cont : String}
    {point : HandlerPoint} (h : point.Owes disk dir cont) : point.InPass := by
  cases point with
  | list | dirName | mkdir | contName | totals | create | write => trivial
  | _ => exact h.elim

/-- The manager has recorded the container, and no handler of its pod is in a pass. -/
def Settled [Gjson] (state : State) (uid cont : String) : Prop :=
  cont ∈ state.vm.listed uid ∧
    ∀ handler ∈ state.handlers, podUID handler.event = uid → ¬ handler.point.InPass

instance [Gjson] (state : State) (uid cont : String) : Decidable (Settled state uid cont) :=
  inferInstanceAs (Decidable (_ ∧ _))

/-- The step opens the container's file again, or deletes its pod. -/
def Reopens [Gjson] (cgroupV2 : Bool) (owner : String → String × String) (uid cont : String)
    (state : State) : Action → Prop
  | .handler i _ => ∃ handler ∈ state.handlers[i]?,
      handler.point.Opens (vcudaFileName (containerDir cgroupV2 owner uid cont))
  | .deleter i => ∃ pod ∈ state.deleters[i]?, podUID pod = uid
  | _ => False

instance [Gjson] (cgroupV2 : Bool) (owner : String → String × String) (uid cont : String)
    (state : State) : ∀ action, Decidable (Reopens cgroupV2 owner uid cont state action)
  | .handler i _ => inferInstanceAs (Decidable (∃ handler ∈ state.handlers[i]?, _))
  | .deleter i => inferInstanceAs (Decidable (∃ pod ∈ state.deleters[i]?, _))
  | .modified _ | .deleted _ | .run | .restart => .isFalse id

/-- The file of the container is written, or a handler of the pod owes it. -/
def Served [Gjson] (cgroupV2 : Bool) (owner : String → String × String) (disk : ConfigDisk)
    (handlers : List Handler) (uid cont : String) : Prop :=
  disk.Complete (vcudaFileName (containerDir cgroupV2 owner uid cont)) ∨
    ∃ handler ∈ handlers, podUID handler.event = uid ∧
      handler.point.Owes disk (containerDir cgroupV2 owner uid cont) cont

/-- A handler owes what it owed when the directory and the file of the container stay. -/
theorem HandlerPoint.Owes.mono {disk made : ConfigDisk} {dir : List String} {cont : String}
    {point : HandlerPoint} (h : point.Owes disk dir cont)
    (hdir : disk.entry dir = some .dir → made.entry dir = some .dir)
    (hfile : ∀ inode content, disk.entry (vcudaFileName dir) = some (.file inode content) →
      ∃ later, made.entry (vcudaFileName dir) = some (.file inode later)) :
    point.Owes made dir cont := by
  cases point with
  | contName | totals | create => exact h.imp_left fun howes => ⟨howes.1, hdir howes.2⟩
  | write inode data rest =>
      refine h.imp_left fun hopened => ?_
      obtain ⟨content, hopened⟩ := hopened
      exact hfile inode content hopened
  | _ => exact h

section Handlers

variable [Gjson] {cgroupV2 : Bool} {owner : String → String × String} {vm after : VirtualManager}
  {disk made : ConfigDisk} {event : Json} {answer : Answer} {point following : HandlerPoint}

/-- A handler lists containers for its own pod, and then owes their files. -/
theorem listed_moves (h : Moves cgroupV2 vm disk event answer point after made following)
    {uid cont : String} (hcont : cont ∈ after.listed uid) :
    cont ∈ vm.listed uid ∨ podUID event = uid ∧ following = .list := by
  cases h with
  | record statuses pairs =>
      rw [record_pairs_listed] at hcont
      split at hcont
      · rename_i huid
        exact .inr ⟨huid.symm, rfl⟩
      · exact .inl hcont
  | _ => exact .inl hcont

/-- A handler leaves the recorded names of the containers right. -/
theorem names_moves (hown : point.OwnNames owner (podUID event)) (hnames : vm.NamesInv owner)
    (h : Moves cgroupV2 vm disk event answer point after made following) :
    after.NamesInv owner := by
  cases h with
  | record statuses pairs hpairs =>
      exact (names_inv_record (podUID event) hnames (hown pairs hpairs)).1
  | _ => exact ⟨hnames.own, hnames.listed⟩

/-- A handler marks its own pod as visited. -/
theorem visited_moves (hevent : PlainElement (podUID event))
    (hvisited : ∀ uid, vm.podVisitedByUID uid = some true → PlainElement uid)
    (h : Moves cgroupV2 vm disk event answer point after made following) (uid : String)
    (huid : after.podVisitedByUID uid = some true) : PlainElement uid := by
  cases h with
  | record statuses pairs =>
      rw [(record_pairs_frame _ vm pairs).2.1] at huid
      exact hvisited uid huid
  | mark =>
      by_cases heq : uid = podUID event
      · exact heq ▸ hevent
      · simp only [VirtualManager.markVisited, Function.update_of_ne heq] at huid
        exact hvisited uid huid
  | _ => exact hvisited uid huid

/-- A handler goes on in the directory of its pod. -/
theorem targets_moves (howned : vm.Owned owner) (hinside : point.Inside owner (podUID event))
    (htargets : point.Targets cgroupV2 (podUID event))
    (h : Moves cgroupV2 vm disk event answer point after made following) :
    following.Targets cgroupV2 (podUID event) := by
  cases h with
  | dirName cont rest =>
      refine ⟨_, ?_, rfl⟩
      cases cgroupV2 with
      | false => exact .inl (hinside cont (by simp))
      | true =>
          cases hname : vm.containerNameByUid cont with
          | none => exact .inr ⟨rfl, rfl⟩
          | some name => exact .inl (howned.named cont name hname).1
  | mkdirFailed | mkdir | contName => exact htargets
  | totals dir containerName rest => exact ⟨dir, htargets, rfl⟩
  | _ => trivial

/-- A handler makes directories and files where they belong. -/
theorem laid_moves (hevent : PlainElement (podUID event))
    (htargets : point.Targets cgroupV2 (podUID event))
    (hlaid : disk.LaidOut (FileAt cgroupV2) DirAt)
    (h : Moves cgroupV2 vm disk event answer point after made following) :
    made.LaidOut (FileAt cgroupV2) DirAt := by
  cases h with
  | mkdir uid dir rest made hmade =>
      have hdir : HandlerDir cgroupV2 (podUID event) dir := htargets
      exact hlaid.mkdirAll hmade fun part => dir_at_part (hdir.dir_at hevent)
  | podDir made hmade =>
      refine hlaid.mkdirAll hmade fun part => dir_at_part ?_
      exact (length_pod_path hevent).le.trans (Nat.le_succ _)
  | create file data rest inode opened _ hcreate =>
      obtain ⟨dir, hdir, rfl⟩ := htargets
      exact hlaid.create hcreate ⟨podUID event, dir, hevent, hdir, rfl⟩
  | write inode data rest => exact hlaid.write inode data
  | _ => exact hlaid

/-- When no file operation fails, a handler that owes the file of a listed container of its pod
writes it or goes on owing it. -/
theorem owes_moves (hevent : PlainElement (podUID event)) (howned : vm.Owned owner)
    (hnames : vm.NamesInv owner) (hfree : ∀ cont, (owner cont).2 ≠ configFileName)
    (hlaid : disk.LaidOut (FileAt cgroupV2) DirAt) (hok : answer.ok = true) {cont : String}
    (hcont : cont ∈ vm.listed (podUID event))
    (h : creatVcudaServer cgroupV2 vm disk event answer point = .next after made following)
    (howes : point.Owes disk (containerDir cgroupV2 owner (podUID event) cont) cont) :
    made.Complete (vcudaFileName (containerDir cgroupV2 owner (podUID event) cont)) ∨
      following.Owes made (containerDir cgroupV2 owner (podUID event) cont) cont := by
  obtain ⟨name, hplain, hname, hdir⟩ :=
    container_dir_of_listed cgroupV2 howned hnames hfree hcont
  have hmoves := moves_of_next h
  cases hmoves with
  | list => exact .inr hcont
  | dirName first rest =>
      refine .inr ((List.mem_cons.mp howes).imp_left ?_)
      rintro rfl
      rw [(hnames.listed _ cont hcont).1]
      rfl
  | mkdirFailed first dir rest =>
      refine .inr (howes.imp_left ?_)
      rintro rfl
      obtain ⟨made, hmade⟩ := Option.isSome_iff_exists.mp (no_file_in_way hlaid hevent hplain hname)
      simp only [creatVcudaServer, hok, if_true, hdir, hmade, Option.getD_some,
        Progress.next.injEq] at h
      obtain ⟨-, rfl, -⟩ := h
      exact ⟨rfl, hdir ▸ Disk.mkdirAll_self hmade⟩
  | mkdir first dir rest made hmade =>
      refine .inr (howes.imp_left ?_)
      rintro rfl
      exact ⟨rfl, Disk.mkdirAll_self hmade⟩
  | contName first dir rest => exact .inr howes
  | totals dir containerName rest =>
      exact .inr (howes.imp_left fun hmade => ⟨congrArg vcudaFileName hmade.1, hmade.2⟩)
  | createFailed file data rest hfailed =>
      refine .inr (howes.resolve_left ?_)
      rintro ⟨rfl, hmade⟩
      rw [if_pos hok, hdir] at hfailed
      have hopened := Disk.create_isSome (hdir ▸ hmade) (not_dir_at_file hlaid hevent hplain)
      rw [vcudaFileName] at hfailed
      rw [hfailed] at hopened
      cases hopened
  | create file data rest inode opened _ hcreate =>
      refine .inr (howes.imp_left ?_)
      rintro ⟨rfl, -⟩
      exact ⟨none, by rw [(Disk.create_eq_some hcreate).1, Function.update_self]⟩
  | writeFailed inode data rest hfailed => exact absurd (hok.symm.trans hfailed) (by decide)
  | write inode data rest =>
      refine howes.imp_left ?_
      rintro ⟨content, hfile⟩
      exact Disk.complete_write_self hfile data
  | allTried => cases howes
  | _ => exact howes.elim

/-- A written file that a handler is not about to open stays so. -/
theorem complete_moved {file : List String} (hopens : ¬ point.Opens file)
    (h : Moves cgroupV2 vm disk event answer point after made following)
    (hcomplete : disk.Complete file) : made.Complete file := by
  cases h with
  | mkdir uid dir rest made hmade => exact hcomplete.mkdirAll hmade
  | podDir made hmade => exact hcomplete.mkdirAll hmade
  | create path data rest inode opened _ hcreate =>
      exact hcomplete.create (fun heq => hopens heq.symm) hcreate
  | write inode data rest => exact hcomplete.write inode data
  | _ => exact hcomplete

/-- A written file stays so, unless a handler of its pod opens it, which then owes it. -/
theorem complete_moves (hevent : PlainElement (podUID event))
    (htargets : point.Targets cgroupV2 (podUID event)) {uid name : String}
    (huid : PlainElement uid) (hname : PlainElement name)
    (h : Moves cgroupV2 vm disk event answer point after made following)
    (hcomplete : disk.Complete (vcudaFileName (baseDir [uid, name]))) (cont : String) :
    made.Complete (vcudaFileName (baseDir [uid, name])) ∨
      podUID event = uid ∧ following.Owes made (baseDir [uid, name]) cont := by
  by_cases hopens : point.Opens (vcudaFileName (baseDir [uid, name]))
  · cases h with
    | create file data rest inode opened _ hcreate =>
        obtain ⟨dir, hdir, rfl⟩ := htargets
        obtain rfl : dir = baseDir [uid, name] := (List.append_inj' hopens rfl).1
        refine .inr ⟨pod_path_inj hevent huid hdir.under (pod_path_under (.inr hname)), .inl ?_⟩
        exact ⟨none, by rw [(Disk.create_eq_some hcreate).1, Function.update_self]⟩
    | createFailed => exact .inl hcomplete
    | _ => cases hopens
  · exact .inl (complete_moved hopens h hcomplete)

end Handlers

/-! ## Runs -/

/-- The documents on their way are well formed, the handlers keep to their pods, the names are
recorded right, the disk is laid out, and every recorded container is served. -/
structure AtRestInv [Gjson] (cgroupV2 : Bool) (owner : String → String × String) (state : State) :
    Prop where
  queued : ∀ obj ∈ state.podMgr.podModObj, WellFormed owner obj
  held : ∀ obj, state.run.modified = some obj → WellFormed owner obj
  events : ∀ handler ∈ state.handlers, WellFormed owner handler.event
  inside : ∀ handler ∈ state.handlers, handler.point.Inside owner (podUID handler.event)
  statuses : ∀ handler ∈ state.handlers, handler.point.OwnNames owner (podUID handler.event)
  targets : ∀ handler ∈ state.handlers, handler.point.Targets cgroupV2 (podUID handler.event)
  owned : state.vm.Owned owner
  names : state.vm.NamesInv owner
  visited : ∀ uid, state.vm.podVisitedByUID uid = some true → PlainElement uid
  pods : ∀ uid, ∀ cont ∈ state.vm.listed uid, PlainElement uid
  laid : state.disk.LaidOut (FileAt cgroupV2) DirAt
  served : ∀ uid, ∀ cont ∈ state.vm.listed uid,
    Served cgroupV2 owner state.disk state.handlers uid cont

section Runs

variable [Gjson] {cgroupV2 : Bool} {owner : String → String × String} {state next : State}

/-- The manager starts without records, on the disk that it finds. -/
theorem at_rest_boot {disk : ConfigDisk} (owner : String → String × String)
    (hlaid : disk.LaidOut (FileAt cgroupV2) DirAt) (updates : List Pod) :
    AtRestInv cgroupV2 owner (.boot disk updates) := by
  have hlisted : ∀ uid cont, cont ∉ newVirtualManager.listed uid := by
    simp [newVirtualManager, VirtualManager.listed]
  refine ⟨by simp [State.boot, newPodManager], by simp [State.boot, RunPoint.modified],
    by simp [State.boot], by simp [State.boot], by simp [State.boot], by simp [State.boot],
    ⟨by simp [State.boot, newVirtualManager], fun uid cont hcont => absurd hcont (hlisted uid cont),
      by simp [State.boot, newVirtualManager]⟩,
    ⟨by simp [State.boot, newVirtualManager],
      fun uid cont hcont => absurd hcont (hlisted uid cont)⟩,
    by simp [State.boot, newVirtualManager], fun uid cont hcont => absurd hcont (hlisted uid cont),
    ?_, fun uid cont hcont => absurd hcont (hlisted uid cont)⟩
  cases hmade : disk.mkdirAll (baseDir []) with
  | none => simpa [State.boot, hmade] using hlaid
  | some made =>
      have hpart : ∀ part, part <+: baseDir [] → DirAt part :=
        fun part => dir_at_part (Nat.le_add_right _ 2)
      simpa [State.boot, hmade] using hlaid.mkdirAll hmade hpart

/-- What a step of a handler comes to. -/
theorem handler_step_cases {i : Nat} {answer : Answer}
    (hstep : step cgroupV2 state (.handler i answer) = some next) :
    ∃ handler, state.handlers[i]? = some handler ∧
      (next = { state with crashed := true } ∨
        (∃ vm disk point, creatVcudaServer cgroupV2 state.vm state.disk handler.event answer
            handler.point = .next vm disk point ∧
          next = { state with vm, disk, handlers := state.handlers.set i { handler with point } }) ∨
        ∃ copyPod pod, handler.point = .annotate copyPod ∧ next = { state with
          handlers := state.handlers.set i { handler with point := .finished }
          updates := state.updates ++ [pod] }) := by
  simp only [step] at hstep
  split at hstep
  · cases hstep
  · obtain ⟨handler, hhandler, hnext⟩ := Option.bind_eq_some_iff.mp hstep
    refine ⟨handler, hhandler, ?_⟩
    unfold State.handlerNext at hnext
    split at hnext <;> cases hnext
    · exact .inl rfl
    · rename_i vm disk point hmoves
      exact .inr (.inl ⟨vm, disk, point, hmoves, rfl⟩)
    · rename_i pod hupdate
      obtain ⟨copyPod, hpoint⟩ := annotate_of_update hupdate
      exact .inr (.inr ⟨copyPod, pod, hpoint, rfl⟩)

/-- A step of a handler leaves every recorded container served. -/
theorem served_handler (h : AtRestInv cgroupV2 owner state)
    (hfree : ∀ cont, (owner cont).2 ≠ configFileName) {i : Nat} {answer : Answer}
    (hok : answer.ok = true) {handler : Handler} (hhandler : state.handlers[i]? = some handler)
    {vm : VirtualManager} {disk : ConfigDisk} {point : HandlerPoint}
    (hnext : creatVcudaServer cgroupV2 state.vm state.disk handler.event answer handler.point =
      .next vm disk point) (uid cont : String) (hcont : cont ∈ vm.listed uid) :
    Served cgroupV2 owner disk (state.handlers.set i { handler with point }) uid cont := by
  have hmem := List.mem_of_getElem? hhandler
  have hmoves := moves_of_next hnext
  have hevent := (h.events handler hmem).uid
  have hmoved : { handler with point } ∈ state.handlers.set i { handler with point } :=
    moved_mem_set hhandler
  rcases listed_moves hmoves hcont with hlisted | ⟨huid, rfl⟩
  · rcases h.served uid cont hlisted with hcomplete | ⟨other, hother, huid, howes⟩
    · obtain ⟨name, hplain, -, hdir⟩ :=
        container_dir_of_listed cgroupV2 h.owned h.names hfree hlisted
      rw [hdir] at hcomplete
      have hkept := complete_moves hevent (h.targets handler hmem) (h.pods uid cont hlisted) hplain
        hmoves hcomplete cont
      rw [← hdir] at hkept
      exact hkept.imp_right fun howes => ⟨_, hmoved, howes⟩
    · by_cases heq : other = handler
      · subst heq
        subst huid
        have howed := owes_moves hevent h.owned h.names hfree h.laid hok hlisted hnext howes
        exact howed.imp_right fun howes => ⟨_, hmoved, rfl, howes⟩
      · refine .inr ⟨other, mem_set_of_ne hhandler hother heq, huid, ?_⟩
        have hkeeps := keeps_moves hmoves
        exact howes.mono (hkeeps.dirs _) (hkeeps.files _)
  · exact .inr ⟨_, hmoved, huid, trivial⟩

/-- A handler's step keeps the invariant when its operation succeeds and its answer is about its
pod. -/
theorem at_rest_handler (h : AtRestInv cgroupV2 owner state)
    (hfree : ∀ cont, (owner cont).2 ≠ configFileName) {i : Nat} {answer : Answer}
    (hregular : Regular owner state (.handler i answer))
    (hstep : step cgroupV2 state (.handler i answer) = some next) :
    AtRestInv cgroupV2 owner next := by
  obtain ⟨handler, hhandler, hcases⟩ := handler_step_cases hstep
  have hmem := List.mem_of_getElem? hhandler
  have hevent := h.events handler hmem
  rcases hcases with rfl | ⟨vm, disk, point, hnext, rfl⟩ | ⟨copyPod, pod, hpoint, rfl⟩
  · exact ⟨h.queued, h.held, h.events, h.inside, h.statuses, h.targets, h.owned, h.names,
      h.visited, h.pods, h.laid, h.served⟩
  · have hmoves := moves_of_next hnext
    have hanswer : ∀ tries statuses, handler.point = .await tries statuses →
        ∀ pod ∈ answer.pod, WellFormed owner pod.toJson ∧
          podUID pod.toJson = podUID handler.event := by
      intro tries statuses hpoint pod hpod
      obtain ⟨hwell, hfetches⟩ := hregular.2 pod hpod
      have hown := hfetches handler hhandler
      rw [Handler.FetchesOwn, hpoint] at hown
      exact ⟨hwell, hown⟩
    have hkept := step_kept_moves h.owned hevent (h.inside handler hmem) hanswer hmoves
    have hstatuses := own_names_moves hevent.own (fun pod hpod => (hregular.2 pod hpod).1.own)
      (fun pod hpod => (hregular.2 pod hpod).2 handler hhandler) (h.statuses handler hmem) hmoves
    have htargets := targets_moves h.owned (h.inside handler hmem) (h.targets handler hmem) hmoves
    refine ⟨h.queued, h.held, forall_mem_set h.events hevent, forall_mem_set h.inside hkept.inside,
      forall_mem_set h.statuses hstatuses, forall_mem_set h.targets htargets, hkept.owned,
      names_moves (h.statuses handler hmem) h.names hmoves,
      visited_moves hevent.uid h.visited hmoves, fun uid cont hcont => ?_,
      laid_moves hevent.uid (h.targets handler hmem) h.laid hmoves,
      served_handler h hfree hregular.1 hhandler hnext⟩
    rcases listed_moves hmoves hcont with hlisted | ⟨huid, -⟩
    · exact h.pods uid cont hlisted
    · exact huid ▸ hevent.uid
  · refine ⟨h.queued, h.held, forall_mem_set h.events hevent, forall_mem_set h.inside trivial,
      forall_mem_set h.statuses trivial, forall_mem_set h.targets trivial, h.owned, h.names,
      h.visited, h.pods, h.laid, fun uid cont hcont => ?_⟩
    refine (h.served uid cont hcont).imp_right fun hserved => ?_
    obtain ⟨other, hother, huid, howes⟩ := hserved
    -- the handler that ends here owes nothing
    have hne : other ≠ handler := by
      rintro rfl
      rw [hpoint] at howes
      exact howes
    exact ⟨other, mem_set_of_ne hhandler hother hne, huid, howes⟩

/-- A pod that is deleted after it has been visited has a plain UID. -/
theorem plain_of_visited (h : AtRestInv cgroupV2 owner state) {uid : String}
    (hvisited : ¬ (!(state.vm.podVisitedByUID uid).getD false) = true) : PlainElement uid := by
  refine h.visited uid ?_
  cases hfound : state.vm.podVisitedByUID uid with
  | none => simp [hfound] at hvisited
  | some visited => simpa [hfound] using hvisited

/-- A deletion takes the records of its pod away with the pod's directory, and leaves the files of
the other pods. -/
theorem at_rest_deleter (h : AtRestInv cgroupV2 owner state)
    (hfree : ∀ cont, (owner cont).2 ≠ configFileName) (pod : Json) (deleters : List Json) :
    AtRestInv cgroupV2 owner { state with
      vm := (deletePodPath state.vm state.disk pod).1
      disk := (deletePodPath state.vm state.disk pod).2
      deleters } := by
  unfold deletePodPath
  split
  · exact ⟨h.queued, h.held, h.events, h.inside, h.statuses, h.targets, h.owned, h.names,
      h.visited, h.pods, h.laid, h.served⟩
  · split
    · exact ⟨h.queued, h.held, h.events, h.inside, h.statuses, h.targets, h.owned, h.names,
        h.visited, h.pods, h.laid, h.served⟩
    · rename_i hvisited
      have hpod := plain_of_visited h hvisited
      have hlisted : ∀ uid, ∀ cont ∈ (state.vm.forgetPod (podUID pod)).listed uid,
          uid ≠ podUID pod ∧ cont ∈ state.vm.listed uid := by
        intro uid cont hcont
        rw [forget_pod_listed] at hcont
        split at hcont
        · cases hcont
        · exact ⟨‹_›, hcont⟩
      refine ⟨h.queued, h.held, h.events, h.inside, h.statuses, h.targets,
        owned_forget_pod h.owned (podUID pod),
        ⟨fun cont name hname => ?_, fun uid cont hcont => ?_⟩,
        fun uid hmarked => ?_, fun uid cont hcont => h.pods uid cont (hlisted uid cont hcont).2,
        h.laid.removeAll _, fun uid cont hcont => ?_⟩
      · rw [forget_pod_name] at hname
        split at hname
        · cases hname
        · exact h.names.own cont name hname
      · obtain ⟨hne, hold⟩ := hlisted uid cont hcont
        refine ⟨?_, (h.names.listed uid cont hold).2⟩
        rw [forget_pod_name, if_neg, (h.names.listed uid cont hold).1]
        intro hmem
        exact hne ((h.owned.listed uid cont hold).1.symm.trans
          (h.owned.listed (podUID pod) cont hmem).1)
      · by_cases heq : uid = podUID pod
        · exact heq ▸ hpod
        · rw [(forget_pod_frame state.vm heq).2.1] at hmarked
          exact h.visited uid hmarked
      · obtain ⟨hne, hold⟩ := hlisted uid cont hcont
        obtain ⟨name, hplain, -, hdir⟩ :=
          container_dir_of_listed cgroupV2 h.owned h.names hfree hold
        have hsame : ∀ path, podPath uid <+: path →
            (state.disk.removeAll (baseDir [podUID pod])).entry path = state.disk.entry path :=
          fun path hpath => Disk.removeAll_entry_of_not state.disk fun hpart =>
            hne (pod_path_inj (h.pods uid cont hold) hpod hpath hpart)
        have hunder : podPath uid <+: baseDir [uid, name] := pod_path_under (.inr hplain)
        have hentry := hsame _ hunder
        have hfile := hsame (vcudaFileName (baseDir [uid, name]))
          (hunder.trans (List.prefix_append _ _))
        rcases h.served uid cont hold with ⟨inode, data, hcomplete⟩ | ⟨other, hother, huid, howes⟩
        · rw [hdir] at hcomplete
          exact .inl ⟨inode, data, by rw [hdir, hfile, hcomplete]⟩
        · rw [hdir] at howes
          refine .inr ⟨other, hother, huid, hdir ▸ howes.mono (fun hmade => hentry.trans hmade) ?_⟩
          exact fun inode content hopened => ⟨content, hfile.trans hopened⟩

/-- The loop hands an event over as it was queued. -/
theorem at_rest_run (h : AtRestInv cgroupV2 owner state) {podMgr : PodManager} {run : RunPoint}
    {spawn : Option Spawn} (hrun : runStep state.podMgr state.run = .next podMgr run spawn) :
    AtRestInv cgroupV2 owner ({ state with podMgr, run }.spawn spawn) := by
  obtain ⟨hqueued, hheld, hspawn⟩ := run_step_modified hrun
  have hq : ∀ obj ∈ podMgr.podModObj, WellFormed owner obj :=
    fun obj hobj => h.queued obj (hqueued obj hobj)
  have hh : ∀ obj, run.modified = some obj → WellFormed owner obj :=
    fun obj hobj => h.queued obj (hheld obj hobj)
  rcases spawn with _ | pod | pod
  · exact ⟨hq, hh, h.events, h.inside, h.statuses, h.targets, h.owned, h.names, h.visited, h.pods,
      h.laid, h.served⟩
  · refine ⟨hq, hh, forall_mem_concat h.events (h.held pod (hspawn pod rfl)),
      forall_mem_concat h.inside trivial, forall_mem_concat h.statuses trivial,
      forall_mem_concat h.targets trivial, h.owned, h.names, h.visited, h.pods, h.laid,
      fun uid cont hcont => ?_⟩
    refine (h.served uid cont hcont).imp_right fun hserved => ?_
    obtain ⟨other, hother, howes⟩ := hserved
    exact ⟨other, List.mem_append_left _ hother, howes⟩
  · exact ⟨hq, hh, h.events, h.inside, h.statuses, h.targets, h.owned, h.names, h.visited, h.pods,
      h.laid, h.served⟩

/-- Every step of the manager keeps the invariant. -/
theorem at_rest_step (hfree : ∀ cont, (owner cont).2 ≠ configFileName) {action : Action}
    (h : AtRestInv cgroupV2 owner state) (hregular : Regular owner state action)
    (hstep : step cgroupV2 state action = some next) : AtRestInv cgroupV2 owner next := by
  cases effect_of_step hstep with
  | restart heq =>
      subst heq
      exact at_rest_boot owner h.laid state.updates
  | modified obj heq =>
      subst heq
      exact ⟨forall_mem_concat h.queued hregular, h.held, h.events, h.inside, h.statuses,
        h.targets, h.owned, h.names, h.visited, h.pods, h.laid, h.served⟩
  | deleted obj heq | runPanic heq =>
      subst heq
      exact ⟨h.queued, h.held, h.events, h.inside, h.statuses, h.targets, h.owned, h.names,
        h.visited, h.pods, h.laid, h.served⟩
  | run podMgr run spawn hrun heq =>
      subst heq
      exact at_rest_run h hrun
  | handler | updated | handlerPanic => exact at_rest_handler h hfree hregular hstep
  | deleter i pod _ heq =>
      subst heq
      exact at_rest_deleter h hfree pod _

/-- The documents are plain. -/
theorem plain_of_regular {action : Action} (h : Regular owner state action) :
    PlainAction action := by
  cases action with
  | modified obj => exact ⟨h.uid, h.plain⟩
  | handler i answer =>
      intro pod hpod
      have hwell := (h.2 pod hpod).1
      exact ⟨hwell.uid, hwell.plain⟩
  | _ => trivial

/-- The invariant of a run in which nothing fails: besides, every file is about its own pod. -/
structure RegularInv (cgroupV2 : Bool) (owner : String → String × String) (state : State) :
    Prop where
  rest : AtRestInv cgroupV2 owner state
  confined : ConfinedInv state

/-- The manager starts on a disk without files. -/
theorem regular_inv_initial (cgroupV2 : Bool) (owner : String → String × String) :
    RegularInv cgroupV2 owner State.initial := by
  refine ⟨at_rest_boot owner ⟨fun path inode content hfile => ?_, fun path hdir => ?_⟩ [],
    confined_boot Disk.files_inv_empty []⟩
  · exact absurd hfile (by simp only [Disk.empty]; split <;> simp)
  · by_cases hroot : path = []
    · exact hroot ▸ Nat.zero_le _
    · simp [Disk.empty, hroot] at hdir

/-- Every step in which nothing fails keeps the invariant. -/
theorem regular_inv_step (hfree : ∀ cont, (owner cont).2 ≠ configFileName) {action : Action}
    (h : RegularInv cgroupV2 owner state) (hregular : Regular owner state action)
    (hstep : step cgroupV2 state action = some next) : RegularInv cgroupV2 owner next :=
  ⟨at_rest_step hfree h.rest hregular hstep,
    confined_step h.confined (plain_of_regular hregular) hstep⟩

/-- The file of a container that has settled is written, and about its own pod. -/
theorem configured_of_settled (hfree : ∀ cont, (owner cont).2 ≠ configFileName)
    (h : RegularInv cgroupV2 owner state) {uid cont : String} (hsettled : Settled state uid cont) :
    ∃ data, state.disk.read (vcudaFileName (containerDir cgroupV2 owner uid cont)) = some data ∧
      data.podUid = uid := by
  obtain ⟨hcont, hended⟩ := hsettled
  rcases h.rest.served uid cont hcont with ⟨inode, data, hentry⟩ | ⟨handler, hmem, huid, howes⟩
  · refine ⟨data, by rw [Disk.read, hentry], ?_⟩
    obtain ⟨name, hplain, -, hdir⟩ :=
      container_dir_of_listed cgroupV2 h.rest.owned h.rest.names hfree hcont
    obtain ⟨hown, dir, ⟨key, hkey, rfl⟩, hpath⟩ := h.confined.files.written _ inode data hentry
    have hsame : containerDir cgroupV2 owner uid cont = baseDir [data.podUid, key] :=
      (List.append_inj' hpath rfl).1
    refine pod_path_inj hown (h.rest.pods uid cont hcont) (pod_path_under hkey) ?_
    rw [← hsame, hdir]
    exact pod_path_under (.inr hplain)
  · exact absurd howes.inPass (hended handler hmem huid)

/-- What a pod at rest has recorded is written, and in its own files. -/
theorem configured_of_inv (hfree : ∀ cont, (owner cont).2 ≠ configFileName)
    (h : RegularInv cgroupV2 owner state) : ConfiguredAtRest cgroupV2 owner state := by
  intro uid hrest cont hcont
  refine configured_of_settled hfree h ⟨hcont, fun handler hmem huid => ?_⟩
  rw [hrest handler hmem huid]
  exact id

/-- A written file below the directory of its pod stays so, unless a handler opens it again or the
pod is deleted. -/
theorem complete_kept (h : AtRestInv cgroupV2 owner state) {uid cont : String}
    (huid : PlainElement uid) (hunder : podPath uid <+: containerDir cgroupV2 owner uid cont)
    {action : Action} (hkept : ¬ Reopens cgroupV2 owner uid cont state action)
    (hstep : step cgroupV2 state action = some next)
    (hcomplete : state.disk.Complete (vcudaFileName (containerDir cgroupV2 owner uid cont))) :
    next.disk.Complete (vcudaFileName (containerDir cgroupV2 owner uid cont)) := by
  cases effect_of_step hstep with
  | restart heq =>
      subst heq
      cases hmade : state.disk.mkdirAll (baseDir []) with
      | none => simpa [State.boot, hmade] using hcomplete
      | some made => simpa [State.boot, hmade] using hcomplete.mkdirAll hmade
  | modified obj heq | deleted obj heq | runPanic heq =>
      subst heq
      exact hcomplete
  | run podMgr run spawn hrun heq =>
      subst heq
      rcases spawn with _ | pod | pod <;> exact hcomplete
  | handler i answer handler vm disk point hhandler hmoves heq =>
      subst heq
      have hopens : ¬ handler.point.Opens (vcudaFileName (containerDir cgroupV2 owner uid cont)) :=
        fun hopens => hkept ⟨handler, hhandler, hopens⟩
      exact complete_moved hopens hmoves hcomplete
  | updated i answer handler copyPod pod _ _ heq | handlerPanic i answer handler _ _ heq =>
      subst heq
      exact hcomplete
  | deleter i pod hpod heq =>
      subst heq
      have hne : podUID pod ≠ uid := fun hsame => hkept ⟨pod, hpod, hsame⟩
      show (deletePodPath state.vm state.disk pod).2.Complete _
      unfold deletePodPath
      split
      · exact hcomplete
      · split
        · exact hcomplete
        · rename_i hvisited
          have hplain := plain_of_visited h hvisited
          obtain ⟨inode, data, hentry⟩ := hcomplete
          refine ⟨inode, data, (Disk.removeAll_entry_of_not _ fun hpart => hne ?_).trans hentry⟩
          exact pod_path_inj hplain huid hpart (hunder.trans (List.prefix_append _ _))

end Runs

/-- In every run in which no file operation fails, whatever handlers, deletions and restarts come in
between: every container that is recorded for a pod has its written configuration file in every
state in which the handlers of the pod have ended. -/
theorem configured_at_rest [Gjson] (cgroupV2 : Bool) (owner : String → String × String)
    (hfree : ∀ cont, (owner cont).2 ≠ configFileName) (actions : List Action)
    (hregular : Along (step cgroupV2) (Regular owner) State.initial actions) :
    Always (step cgroupV2) (ConfiguredAtRest cgroupV2 owner) State.initial actions :=
  always_of_along (fun _ _ _ h haction hstep => regular_inv_step hfree h haction hstep)
    (fun _ h => configured_of_inv hfree h) (regular_inv_initial cgroupV2 owner) hregular

/-- Two events of one pod, whose handlers take turns. -/
def takingTurns : List Action :=
  [.modified runningPod.toJson, .modified runningPod.toJson] ++ List.replicate 7 .run ++
    (List.replicate 24 [.handler 0 answered, .handler 1 answered]).flatten

/-- Nothing fails in their run. -/
theorem taking_turns_regular :
    letI := Gjson.reader
    Along (step false) (Regular fun _ => ("uid-a", "main")) State.initial takingTurns := by
  decide +kernel

/-- Both have ended, and the file of the container that both have recorded is written. -/
theorem configured_at_rest_turns :
    letI := Gjson.reader
    ∃ state, exec (step false) State.initial takingTurns = some state ∧
      AtRest state "uid-a" ∧ state.vm.listed "uid-a" = ["c1", "c1"] ∧
      ConfiguredAtRest false (fun _ => ("uid-a", "main")) state := by
  let reader := Gjson.reader
  have hrun : (exec (step false) State.initial takingTurns).map
      (fun state => (state.handlers.all fun handler => handler.point.isFinished,
        state.vm.listed "uid-a")) = some (true, ["c1", "c1"]) := by decide +kernel
  obtain ⟨state, hstate, hfound⟩ := Option.map_eq_some_iff.mp hrun
  obtain ⟨hfinished, hlisted⟩ := Prod.mk.inj hfound
  have hall := configured_at_rest false (fun _ => ("uid-a", "main")) (fun _ => by decide)
    takingTurns taking_turns_regular
  refine ⟨state, hstate, fun handler hhandler _ => ?_, hlisted, hall.final hstate⟩
  exact point_of_is_finished (List.all_eq_true.mp hfinished handler hhandler)

end UniShare.ResourceManager
