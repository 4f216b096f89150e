import UniShare.Handshake
import UniShare.Lifecycle.Annotations
import UniShare.ResourceManager.Confined

/-!
# Whose configuration a container reads

The path that a hooked process opens is made of what the kernel shows the process, cut to the
length of the library's buffers; the path that the manager writes to is made of a pod's UID and a
container's name or UID. In between stands the mount that `Allocate` has chosen. `own_configuration`
puts the three together: in every run, whatever the kernel files say, a configuration that a process
of a container can read has been written for the pod whose directory is mounted in that container,
unless the kernel files lead the process out of the mount.
-/

namespace UniShare.Handshake

open Lib Kube PodWatch PluginRegister Container Interceptor Lifecycle ResourceManager

/-! ## The path that is opened -/

/-- The name that is found in `/proc/self/mountinfo` is one component of a path. -/
theorem scan_pieces_no_slash {buffers : List (List Char)} {names : List Char × List Char}
    (h : scanPieces buffers = some names) : '/' ∉ names.2 := by
  induction buffers with
  | nil =>
      obtain rfl := Option.some.inj h
      simp
  | cons buffer rest ih =>
      simp only [scanPieces] at h
      split at h
      · exact ih h
      · cases h
      · rename_i poduid podName hfound
        obtain rfl := Option.some.inj h
        exact (names_of_get_str hfound).1

/-- Cutting a text takes no character in. -/
theorem not_mem_prune {c : Char} {needle text : List Char} (h : c ∉ text) :
    c ∉ prune needle text := by
  unfold prune
  split
  · exact fun hmem => h (List.mem_of_mem_take hmem)
  · exact h

/-- The name that is found in `/proc/self/cgroup` is one component of a path. -/
theorem container_of_no_slash {cgroup : List Char} {names : List Char × List Char}
    (h : containerOf cgroup = some names) : '/' ∉ names.2 := by
  unfold containerOf at h
  rcases rsplit_cases '/' cgroup with ⟨hnone, -⟩ | ⟨front, last, hsplit, -, hlast⟩
  · rw [hnone] at h
    cases h
  · have hpruned : '/' ∉ prune ".scope".toList last := not_mem_prune hlast
    rw [hsplit] at h
    dsimp only at h
    split at h
    · cases h
    · split at h
      · rcases rsplit_cases '-' (prune ".scope".toList last) with
          ⟨hnone, -⟩ | ⟨before, after, hdash, heq, -⟩
        · rw [hnone] at h
          cases h
        · rw [hdash] at h
          rw [heq] at hpruned
          split at h
          · rename_i hsome _
            obtain ⟨-, rfl⟩ := Prod.mk.inj (Option.some.inj hsome)
            obtain rfl := Option.some.inj h
            exact fun hmem => hpruned (List.mem_append_right _ (List.mem_cons_of_mem _ hmem))
          · cases h
      · obtain rfl := Option.some.inj h
        exact hpruned

/-- The path that is opened is that of a name without a slash. -/
theorem path_by_cgroup_name {cgroupVersion : Bool} {cgroup mountinfo path : List Char}
    (h : getPathByCgroup cgroupVersion cgroup mountinfo = some path) :
    ∃ key, '/' ∉ key ∧ path = configPath key := by
  unfold getPathByCgroup at h
  split at h
  · obtain ⟨names, hnames, rfl⟩ := Option.map_eq_some_iff.mp h
    exact ⟨names.2, scan_pieces_no_slash hnames, rfl⟩
  · obtain ⟨names, hnames, rfl⟩ := Option.map_eq_some_iff.mp h
    obtain ⟨found, -, hcontainer⟩ := Option.bind_eq_some_iff.mp hnames
    exact ⟨names.2, container_of_no_slash hcontainer, rfl⟩

/-- A prefix of the file's name is no way up. -/
theorem config_name_not_up {name : List Char} (h : name <+: controllerConfigName) :
    name ≠ ['.', '.'] := by
  rintro rfl
  exact absurd h (by decide)

/-- Unless the name is the way up, no component behind the mount is: they are the name, and what is
left of the file's. -/
theorem config_tail_not_up {key : List Char} (hkey : '/' ∉ key) (hup : key ≠ ['.', '.']) :
    ∀ component ∈ splitSlash ((key.take 494 ++ '/' :: controllerConfigName).take 494),
      component ≠ ['.', '.'] := by
  have hcut : '/' ∉ key.take 494 := fun hmem => hkey (List.mem_of_mem_take hmem)
  have hcutUp : key.take 494 ≠ ['.', '.'] := by
    intro heq
    -- a name that is cut is longer
    have hlength := congrArg List.length heq
    rw [List.length_take, List.length_cons, List.length_singleton] at hlength
    rw [List.take_of_length_le (by omega)] at heq
    exact hup heq
  rw [List.take_append]
  cases hroom : 494 - (key.take 494).length with
  | zero =>
      rw [List.take_zero, List.append_nil, List.take_of_length_le (by simp),
        split_slash_plain hcut]
      exact List.forall_mem_singleton.mpr hcutUp
  | succ room =>
      have hname : '/' ∉ controllerConfigName.take room :=
        fun hmem => absurd (List.mem_of_mem_take hmem) (by decide)
      rw [List.take_succ_cons, List.take_of_length_le (by simp), split_slash_append,
        split_slash_plain hcut, split_slash_plain hname]
      exact List.forall_mem_cons.mpr ⟨hcutUp,
        List.forall_mem_singleton.mpr (config_name_not_up (List.take_prefix _ _))⟩

/-- A path in the container's mount is cleaned from the pod's directory on. -/
theorem join_below {uid : String} (huid : PlainElement uid) (tail : List Char) :
    filepathJoin [String.ofList (vmluConfigPath ++ uid.toList ++ '/' :: tail)] =
      ((splitSlash tail).map String.ofList).foldl cleanStep (podPath uid) := by
  have hbase : vmluConfigPath = "/etc/unishare/vm".toList ++ ['/'] := by decide
  have hsplit : splitSlash (vmluConfigPath ++ uid.toList ++ '/' :: tail) =
      splitSlash "/etc/unishare/vm".toList ++ (uid.toList :: splitSlash tail) := by
    rw [hbase, List.append_assoc, List.append_assoc, List.singleton_append, split_slash_append,
      split_slash_append, split_slash_plain huid.2.2.2]
    rfl
  have hpath : podPath uid = filepathJoin [virtualManagerPath] ++ [uid] :=
    filepath_join_plain [virtualManagerPath] huid
  have hstep : cleanStep (filepathJoin [virtualManagerPath]) uid =
      filepathJoin [virtualManagerPath] ++ [uid] := by
    simp [cleanStep, huid.1, huid.2.1, huid.2.2.1]
  rw [hpath, ← hstep]
  simp only [filepathJoin, List.flatMap_cons, List.flatMap_nil, List.append_nil,
    String.toList_ofList, hsplit, List.map_append, List.map_cons, List.foldl_append,
    List.foldl_cons, String.ofList_toList]
  rfl

/-- Components that are no way up keep a path below where it was. -/
theorem prefix_clean_steps {base path : List String} (h : base <+: path)
    {components : List (List Char)} (hup : ∀ component ∈ components, component ≠ ['.', '.']) :
    base <+: (components.map String.ofList).foldl cleanStep path := by
  induction components generalizing path with
  | nil => exact h
  | cons component rest ih =>
      have hcomponent : String.ofList component ≠ ".." := fun heq =>
        hup component (by simp) (String.toList_ofList.symm.trans (congrArg String.toList heq))
      refine ih ?_ fun other hother => hup other (by simp [hother])
      unfold cleanStep
      rw [if_neg hcomponent]
      split
      · exact h
      · exact h.trans (List.prefix_append _ _)

/-- Where the path of a name leads on the host: below the directory of the pod that is mounted, unless
the name is the way up. -/
theorem config_path_on_host {container : Launched} {uid : String} {minorNum : Nat}
    (huid : PlainElement uid) (hresponse : container.response = allocResp uid minorNum)
    {key : List Char} (hkey : '/' ∉ key) :
    match hostPath container.mounts (Container.configPath key) with
    | some host => podPath uid <+: filepathJoin [String.ofList host]
    | none => key = ['.', '.'] := by
  rw [Launched.mounts, hresponse, config_path_eq, host_path_response]
  by_cases hup : key = ['.', '.']
  · subst hup
    rfl
  · have htail := config_tail_not_up hkey hup
    rw [if_pos (stays_below_of_no_up 0 htail)]
    show podPath uid <+: filepathJoin [String.ofList (vmluConfigPath ++ uid.toList ++ '/' ::
      (key.take 494 ++ '/' :: controllerConfigName).take 494)]
    rw [join_below huid]
    exact prefix_clean_steps (List.prefix_refl _) htail

/-- A configuration of the manager's is read in a container only when it is about the pod that is
mounted. -/
theorem own_directory_of_read {uid : String} (huid : PlainElement uid) {file : List String}
    (hbelow : podPath uid <+: file) {data : ResourceData} (hown : InOwnDirectory file data) :
    data.podUid = uid := by
  obtain ⟨dir, ⟨name, hname, rfl⟩, hpath⟩ := hown.path
  refine pod_path_inj hown.uid huid ?_ hbelow
  rw [hpath]
  exact (pod_path_under hname).trans (List.prefix_append _ _)

/-! ## The pods of the node -/

section Node

variable [Gjson]

/-- The container statuses of a pod's document. -/
theorem container_statuses_toJson (pod : Pod) :
    ResourceManager.containerStatuses pod.toJson =
      if pod.containerStatuses.isEmpty then none
      else some (.array (pod.containerStatuses.map ContainerStatus.toJson)) := by
  simp +decide [ResourceManager.containerStatuses, Pod.toJson, Gjson.get_key, List.lookup,
    Json.lookup_omit_empty, lookup_omit_nil_last]

/-- Whether a pod's document is plain depends on its UID and on its containers' states. -/
theorem plain_document_congr {pod other : Pod} (h : PlainDocument other.toJson)
    (huid : pod.uid = other.uid) (hstatuses : pod.containerStatuses = other.containerStatuses) :
    PlainDocument pod.toJson := by
  constructor
  · rw [podUID_toJson, huid, ← podUID_toJson]
    exact h.uid
  · rw [container_statuses_toJson, hstatuses, ← container_statuses_toJson]
    exact h.containers

/-- The stored pods stay plain when a plain one is written. -/
theorem plain_update {pods next : PodStore} {copy : Pod} {key value : String}
    (hpods : ∀ pod ∈ pods.items, PlainDocument pod.toJson) (hcopy : PlainDocument copy.toJson)
    (hupdate : pods.update (copy.setAnnotation key value) = some next) :
    ∀ pod ∈ next.items, PlainDocument pod.toJson := by
  unfold PodStore.update at hupdate
  split at hupdate
  · obtain rfl := Option.some.inj hupdate
    intro pod hpod
    obtain ⟨old, hold, rfl⟩ := List.mem_map.mp hpod
    unfold renewPod
    split
    · exact plain_document_congr hcopy rfl rfl
    · exact hpods old hold
  · cases hupdate

/-- The stored pods and the copies of them are plain, so is the manager, and every response mounts
the directory of a plain UID. -/
structure PlainInv {ι : Type} (node : Lifecycle.System ι) : Prop where
  stored : ∀ pod ∈ node.plugin.pods.items, PlainDocument pod.toJson
  call : ∀ copy, CallHolds node.plugin copy → PlainDocument copy.toJson
  handler : ∀ copy, HandlerHolds node.manager copy → PlainDocument copy.toJson
  returned : ∀ call response, node.plugin.point call = .returned (.ok response) →
    ∃ uid minorNum, PlainElement uid ∧ response = allocResp uid minorNum
  manager : ConfinedInv node.manager

/-- The pods that others store, and those of the events, are plain. -/
def PlainNodeAction {ι : Type} : Lifecycle.Action ι → Prop
  | .plugin (.pods pods) => ∀ pod ∈ pods.items, PlainDocument pod.toJson
  | .podModified pod => PlainDocument pod.toJson
  | _ => True

variable {ι : Type} {cgroupV2 : Bool} {state next : Lifecycle.System ι}

/-- The manager keeps the stored pods plain and the files in their own directories. -/
theorem plain_manage {action : ResourceManager.Action} (h : PlainInv state)
    (haction : PlainAction action) (hstep : state.manage cgroupV2 action = some next) :
    (∀ pod ∈ next.plugin.pods.items, PlainDocument pod.toJson) ∧
      ConfinedInv next.manager ∧ next.plugin.point = state.plugin.point := by
  obtain ⟨manager, hmanager, rfl⟩ := Option.map_eq_some_iff.mp hstep
  refine ⟨?_, confined_step h.manager haction hmanager, rfl⟩
  show ∀ pod ∈ (receiveUpdates state.plugin.pods
    (manager.updates.drop state.manager.updates.length)).items, PlainDocument pod.toJson
  rcases sent_of_step hmanager with hnone | ⟨copy, hholds, -, hsent⟩
  · rw [hnone, List.drop_length]
    exact h.stored
  · rw [hsent, List.drop_left, receiveUpdates, List.foldl_cons, List.foldl_nil]
    cases hupdate : state.plugin.pods.update (copy.setAnnotation annVCUDAReady "yes") with
    | none => exact h.stored
    | some pods => exact plain_update h.stored (h.handler copy hholds) hupdate

variable [DecidableEq ι] {server : ι → VcoreResourceServer}

/-- A plugin's step keeps the stored pods plain, and its response mounts a plain UID. -/
theorem plain_plugin {plugin : PluginRegister.State ι} {action : PluginRegister.Action ι}
    (h : PlainInv state) (haction : PlainNodeAction (.plugin action))
    (hstep : PluginRegister.step server state.plugin action = some plugin) :
    (∀ pod ∈ plugin.pods.items, PlainDocument pod.toJson) ∧
      ∀ call response, plugin.point call = .returned (.ok response) →
        ∃ uid minorNum, PlainElement uid ∧ response = allocResp uid minorNum := by
  -- a call that moves to a point without a response
  have hmoved : ∀ (call : ι) (point : AllocPoint),
      (∀ response, point = .returned (.ok response) →
        ∃ uid minorNum, PlainElement uid ∧ response = allocResp uid minorNum) →
      ∀ other response,
        Function.update state.plugin.point call point other = .returned (.ok response) →
          ∃ uid minorNum, PlainElement uid ∧ response = allocResp uid minorNum := by
    intro call point hpoint other response hother
    by_cases hsame : other = call
    · subst hsame
      rw [Function.update_self] at hother
      exact hpoint response hother
    · rw [Function.update_of_ne hsame] at hother
      exact h.returned other response hother
  cases effect_of_step hstep with
  | start call _ _ _ heq | ready call _ _ _ _ _ _ heq | again call _ _ _ _ heq
  | charge call _ _ _ _ _ heq =>
      subst heq
      exact ⟨h.stored, hmoved call _ (by simp)⟩
  | failed _ call outcome hfailed _ heq =>
      subst heq
      refine ⟨h.stored, hmoved call _ fun response hresponse => ?_⟩
      exact absurd (AllocPoint.returned.inj hresponse) (hfailed response)
  | respond call answered pod uuid pods hcharged hupdate heq =>
      subst heq
      have hpod : PlainDocument pod.toJson := h.call pod ⟨call, by rw [hcharged]; rfl⟩
      refine ⟨plain_update h.stored hpod hupdate, hmoved call _ fun response hresponse => ?_⟩
      refine ⟨pod.uid, _, ?_, (Outcome.ok.inj (AllocPoint.returned.inj hresponse)).symm⟩
      rw [← podUID_toJson]
      exact hpod.uid
  | pods pods _ heq =>
      subst heq
      exact ⟨haction, h.returned⟩

/-- Every step of the daemons keeps the pods plain. -/
theorem plain_node_step {action : Lifecycle.Action ι} (h : PlainInv state)
    (haction : PlainNodeAction action)
    (hstep : Lifecycle.step server cgroupV2 state action = some next) : PlainInv next := by
  have hcall : ∀ copy, CallHolds next.plugin copy → PlainDocument copy.toJson := by
    intro copy hholds
    rcases call_holds_of_step hstep hholds with hold | ⟨hread, -⟩
    · exact h.call copy hold
    · exact h.stored copy hread
  have hhandler : ∀ copy, HandlerHolds next.manager copy → PlainDocument copy.toJson := by
    intro copy hholds
    rcases handler_holds_of_system_step hstep hholds with hold | hread
    · exact h.handler copy hold
    · exact h.stored copy hread
  have hmanaged : ∀ {managerAction : ResourceManager.Action} {after : Lifecycle.System ι},
      state.manage cgroupV2 managerAction = some after → PlainAction managerAction →
      (∀ pod ∈ after.plugin.pods.items, PlainDocument pod.toJson) ∧ ConfinedInv after.manager ∧
        ∀ call response, after.plugin.point call = .returned (.ok response) →
          ∃ uid minorNum, PlainElement uid ∧ response = allocResp uid minorNum := by
    intro managerAction after hmanage hplain
    obtain ⟨hstored, hmanager, hpoint⟩ := plain_manage h hplain hmanage
    exact ⟨hstored, hmanager, hpoint ▸ h.returned⟩
  cases action with
  | plugin pluginAction =>
      obtain ⟨plugin, hplugin, rfl⟩ := Option.map_eq_some_iff.mp hstep
      obtain ⟨hstored, hreturned⟩ := plain_plugin h haction hplugin
      exact ⟨hstored, hcall, hhandler, hreturned, h.manager⟩
  | podModified pod =>
      simp only [Lifecycle.step] at hstep
      split at hstep
      · obtain ⟨hstored, hmanager, hreturned⟩ := hmanaged hstep haction
        exact ⟨hstored, hcall, hhandler, hreturned, hmanager⟩
      · cases hstep
  | podDeleted pod =>
      simp only [Lifecycle.step] at hstep
      split at hstep
      · obtain ⟨hstored, hmanager, hreturned⟩ := hmanaged hstep trivial
        exact ⟨hstored, hcall, hhandler, hreturned, hmanager⟩
      · cases hstep
  | run | restart =>
      obtain ⟨hstored, hmanager, hreturned⟩ := hmanaged hstep trivial
      exact ⟨hstored, hcall, hhandler, hreturned, hmanager⟩
  | handler i ok answered =>
      have hplain : PlainAction (.handler i (state.answer i ok answered)) :=
        fun pod hpod => h.stored pod (answer_stored hpod)
      obtain ⟨hstored, hmanager, hreturned⟩ := hmanaged hstep hplain
      exact ⟨hstored, hcall, hhandler, hreturned, hmanager⟩
  | deleter i =>
      obtain ⟨middle, hmiddle, rfl⟩ := Option.map_eq_some_iff.mp hstep
      obtain ⟨hstored, hmanager, hreturned⟩ := hmanaged hmiddle trivial
      exact ⟨hstored, hcall, hhandler, hreturned, hmanager⟩

end Node

/-! ## Whole runs -/

/-- The pods that others store, and those of the events, are plain. -/
def Action.Plain [Gjson] {ι : Type} : Action ι → Prop
  | .node action => PlainNodeAction action
  | _ => True

instance [Gjson] {ι : Type} : ∀ action : Action ι, Decidable action.Plain
  | .node (.plugin (.pods pods)) => inferInstanceAs (Decidable (∀ pod ∈ pods.items, _))
  | .node (.podModified pod) => inferInstanceAs (Decidable (PlainDocument pod.toJson))
  | .node (.plugin (.start ..)) | .node (.plugin (.poll ..)) | .node (.plugin (.charge ..))
  | .node (.plugin (.annotate ..)) | .node (.podDeleted _) | .node .run | .node (.handler ..)
  | .node (.deleter _) | .node .restart | .create .. | .load _ | .hook .. => .isTrue trivial

/-- The container has been created for a response that mounts the directory of this pod, and unless
the kernel files lead out of the mount, what its processes have read was written for this pod. -/
structure Launched.Isolated (container : Launched) (uid : String) : Prop where
  plain : PlainElement uid
  response : ∃ minorNum, container.response = allocResp uid minorNum
  processes : ¬ container.LeavesMount → ∀ process ∈ container.processes, 0 < process.reads →
    process.configData.podUid = uid

/-- The daemons are plain, and every container is isolated. -/
structure IsolatedInv [Gjson] {ι : Type} (state : System ι) : Prop where
  node : PlainInv state.node
  containers : ∀ container ∈ state.containers, ∃ uid, container.Isolated uid

/-- A step of a process keeps its configuration, or reads the file. -/
theorem config_data_of_step {card : Controller.Accelerator → Startup.Card} {file : Option RcData}
    {process next : Startup.State} {action : Startup.Action}
    (hstep : Startup.step card file process action = some next) :
    (next.configData = process.configData ∧ next.reads = process.reads) ∨
      file = some next.configData := by
  obtain ⟨-, heffect⟩ := Startup.effect_of_step hstep
  cases heffect with
  | called entry heq | started _ _ _ heq =>
      subst heq
      exact .inl ⟨rfl, rfl⟩
  | ticked i uti accelerator yamlLimit share _ heq =>
      obtain ⟨hconfig, hreads, -⟩ :=
        Startup.tick_frame card accelerator yamlLimit share uti i process
      rw [← heq] at hconfig hreads
      exact .inl ⟨hconfig, hreads⟩
  | advanced i created statement rest _ hperformed =>
      cases hperformed with
      | kept _ _ _ heq | created _ _ _ _ heq | exited _ heq =>
          subst heq
          exact .inl ⟨rfl, rfl⟩
      | read data done hfile heq =>
          subst heq
          exact .inr hfile

/-- What can be read in a container, unless the kernel files lead out of its mount, is a file of the
manager's below the directory of the pod that is mounted. -/
theorem configuration_place {ι : Type} {state : System ι} {container : Launched} {uid : String}
    (h : container.Isolated uid) (hmount : ¬ container.LeavesMount) {data : RcData}
    (hread : state.configuration container = some data) :
    ∃ file, podPath uid <+: file ∧ state.node.manager.disk.read file = some data := by
  obtain ⟨path, hpath, hfound⟩ := Option.bind_eq_some_iff.mp hread
  obtain ⟨minorNum, hresponse⟩ := h.response
  obtain ⟨key, hkey, rfl⟩ := path_by_cgroup_name hpath
  have hplace := config_path_on_host h.plain hresponse hkey
  split at hplace
  · rename_i host hhost
    rw [hhost] at hfound
    exact ⟨_, hplace, hfound⟩
  · subst hplace
    exact absurd hpath hmount

/-- What can be read in an isolated container was written for its pod. -/
theorem own_configuration_read [Gjson] {ι : Type} {state : System ι} {container : Launched}
    {uid : String} (hmanager : ConfinedInv state.node.manager) (h : container.Isolated uid)
    (hmount : ¬ container.LeavesMount) {data : RcData}
    (hread : state.configuration container = some data) : data.podUid = uid := by
  obtain ⟨file, hbelow, hdata⟩ := configuration_place h hmount hread
  unfold Disk.read at hdata
  split at hdata
  · rename_i inode content hentry
    subst hdata
    exact own_directory_of_read h.plain hbelow (hmanager.files.written _ _ _ hentry)
  · cases hdata

section Runs

variable {ι : Type} [DecidableEq ι] [Gjson] {server : ι → VcoreResourceServer} {cgroupV2 : Bool}
  {card : Controller.Accelerator → Startup.Card} {state next : System ι} {action : Action ι}

/-- Every step keeps the containers isolated. -/
theorem isolated_step (h : IsolatedInv state) (haction : action.Plain)
    (hstep : step server cgroupV2 card state action = some next) : IsolatedInv next := by
  cases action with
  | node action =>
      simp only [step] at hstep
      split at hstep
      · obtain ⟨node, hnode, rfl⟩ := Option.map_eq_some_iff.mp hstep
        exact ⟨plain_node_step h.node haction hnode, h.containers⟩
      · cases hstep
  | create call containerID kernel image =>
      simp only [step] at hstep
      split at hstep
      · rename_i response hreturned
        split at hstep <;> cases hstep
        obtain ⟨uid, minorNum, hplain, hresponse⟩ := h.node.returned call response hreturned
        exact ⟨h.node, forall_mem_concat h.containers ⟨uid, hplain, ⟨minorNum, hresponse⟩, by simp⟩⟩
      · cases hstep
  | load i =>
      obtain ⟨container, hcontainer, rfl⟩ := Option.map_eq_some_iff.mp hstep
      obtain ⟨uid, hisolated⟩ := h.containers container (List.mem_of_getElem? hcontainer)
      refine ⟨h.node, forall_mem_set h.containers
        ⟨uid, hisolated.plain, hisolated.response, fun hmount => ?_⟩⟩
      exact forall_mem_concat (hisolated.processes hmount) fun hreads => absurd hreads (by decide)
  | hook i j action =>
      obtain ⟨container, hcontainer, hprocesses⟩ := Option.bind_eq_some_iff.mp hstep
      obtain ⟨process, hprocess, hmoved⟩ := Option.bind_eq_some_iff.mp hprocesses
      obtain ⟨after, hafter, rfl⟩ := Option.map_eq_some_iff.mp hmoved
      obtain ⟨uid, hisolated⟩ := h.containers container (List.mem_of_getElem? hcontainer)
      refine ⟨h.node, forall_mem_set h.containers
        ⟨uid, hisolated.plain, hisolated.response, fun hmount => ?_⟩⟩
      have hprocesses := hisolated.processes hmount
      refine forall_mem_set hprocesses fun hreads => ?_
      rcases config_data_of_step hafter with ⟨hconfig, hcount⟩ | hread
      · rw [hconfig]
        rw [hcount] at hreads
        exact hprocesses process (List.mem_of_getElem? hprocess) hreads
      · exact own_configuration_read h.node.manager hisolated hmount hread

end Runs

/-- There is no container at the start. -/
theorem isolated_initial {ι : Type} [Gjson] {pods : PodStore} (gpus : GpuStore)
    (hpods : ∀ pod ∈ pods.items, PlainDocument pod.toJson) :
    IsolatedInv (System.initial ι pods gpus) := by
  refine ⟨⟨hpods, fun copy hholds => ?_, fun copy hholds => ?_, fun call response hreturned => ?_,
    confined_boot Disk.files_inv_empty []⟩, by simp [System.initial]⟩
  · obtain ⟨call, hholds⟩ := hholds
    exact hholds.elim
  · obtain ⟨handler, hhandler, -⟩ := hholds
    cases hhandler
  · cases hreturned

/-- A container that waits for its configuration. -/
def slowContainer : List (Action String) := launch ++ published.map .node ++ firstCuInit

/-- The pods of that run are plain. -/
theorem slow_container_plain :
    letI := Gjson.reader
    (∀ pod ∈ onePod.items, PlainDocument pod.toJson) ∧
      ∀ action ∈ slowContainer, Action.Plain action := by
  decide +kernel

end UniShare.Handshake
