import UniShare.Isolation
import UniShare.ResourceManager.AtRest

/-!
# When a container finds its configuration

Nothing in the handshake makes a process wait for its configuration, so one that reads too early
exits. `finds_configuration` says from when on it cannot come too early: once the manager has
recorded the container and the handlers of its pod have ended, a process that the kernel files lead
to the container's path finds the configuration of its pod, in every run in which no file operation
of the manager fails. `handshake_safe` says so of every read, also of one that comes later.
-/

namespace UniShare.Handshake

open Lib Kube PodWatch PluginRegister Container Interceptor Lifecycle ResourceManager

/-! ## The manager in the system -/

section Manager

variable {ι : Type} [Gjson]

/-- The step of the manager that a step of the system is. -/
def managerAction (state : System ι) : Action ι → Option ResourceManager.Action
  | .node (.podModified pod) => some (.modified pod.toJson)
  | .node (.podDeleted pod) => some (.deleted pod.toJson)
  | .node .run => some .run
  | .node (.handler i ok answered) => some (.handler i (state.node.answer i ok answered))
  | .node (.deleter i) => some (.deleter i)
  | .node .restart => some .restart
  | _ => none

/-- The manager is given well-formed documents, no file operation of it fails, and its handlers are
answered with their own pods. -/
def ManagerRegular (owner : String → String × String) (state : System ι) (action : Action ι) :
    Prop :=
  ∀ step ∈ managerAction state action, Regular owner state.node.manager step

instance (owner : String → String × String) (state : System ι) (action : Action ι) :
    Decidable (ManagerRegular owner state action) :=
  inferInstanceAs (Decidable (∀ step ∈ managerAction state action, _))

/-- The manager does what it is told. -/
theorem manager_of_manage {cgroupV2 : Bool} {node after : Lifecycle.System ι}
    {managed : ResourceManager.Action} (h : node.manage cgroupV2 managed = some after) :
    ResourceManager.step cgroupV2 node.manager managed = some after.manager := by
  obtain ⟨manager, hmanager, rfl⟩ := Option.map_eq_some_iff.mp h
  exact hmanager

variable [DecidableEq ι] {server : ι → VcoreResourceServer} {cgroupV2 : Bool}
  {card : Controller.Accelerator → Startup.Card} {state next : System ι} {action : Action ι}

/-- A step of the system is a step of the manager, or leaves it alone. -/
theorem manager_of_step (hstep : step server cgroupV2 card state action = some next) :
    match managerAction state action with
    | none => next.node.manager = state.node.manager
    | some managed =>
        ResourceManager.step cgroupV2 state.node.manager managed = some next.node.manager := by
  cases action with
  | node action =>
      simp only [step] at hstep
      split at hstep
      · obtain ⟨node, hnode, rfl⟩ := Option.map_eq_some_iff.mp hstep
        cases action with
        | plugin action =>
            obtain ⟨plugin, -, rfl⟩ := Option.map_eq_some_iff.mp hnode
            rfl
        | podModified pod | podDeleted pod =>
            simp only [Lifecycle.step] at hnode
            split at hnode
            · exact manager_of_manage hnode
            · cases hnode
        | run | handler i ok answered | restart => exact manager_of_manage hnode
        | deleter i =>
            obtain ⟨middle, hmiddle, rfl⟩ := Option.map_eq_some_iff.mp hnode
            have hmanager : ResourceManager.step cgroupV2 state.node.manager (.deleter i) =
                some middle.manager := manager_of_manage hmiddle
            exact hmanager
      · cases hstep
  | create call containerID kernel image =>
      simp only [step] at hstep
      split at hstep
      · split at hstep <;> cases hstep
        rfl
      · cases hstep
  | load i =>
      obtain ⟨container, -, rfl⟩ := Option.map_eq_some_iff.mp hstep
      rfl
  | hook i j action =>
      obtain ⟨container, -, hprocesses⟩ := Option.bind_eq_some_iff.mp hstep
      obtain ⟨process, -, hmoved⟩ := Option.bind_eq_some_iff.mp hprocesses
      obtain ⟨after, -, rfl⟩ := Option.map_eq_some_iff.mp hmoved
      rfl

/-- What every step of the manager keeps under a condition, every step of the system keeps under
this condition on its steps of the manager. -/
theorem manager_kept {inv : ResourceManager.State → Prop}
    {cond : ResourceManager.State → ResourceManager.Action → Prop}
    (hpreserve : ∀ manager managed after, inv manager → cond manager managed →
      ResourceManager.step cgroupV2 manager managed = some after → inv after)
    (h : inv state.node.manager)
    (hcond : ∀ managed ∈ managerAction state action, cond state.node.manager managed)
    (hstep : step server cgroupV2 card state action = some next) : inv next.node.manager := by
  have hmanager := manager_of_step hstep
  cases hmanaged : managerAction state action with
  | none =>
      rw [hmanaged] at hmanager
      exact hmanager ▸ h
  | some managed =>
      rw [hmanaged] at hmanager
      exact hpreserve _ managed _ h (hcond managed hmanaged) hmanager

end Manager

/-! ## The file that is found -/

/-- The text of the path of a written file is that of the file. -/
theorem join_written_path (uid key : Identifier) :
    filepathJoin [String.ofList (writtenPath uid key)] =
      vcudaFileName (baseDir [uid.text, key.text]) := by
  have hkey := key.plain_element
  have htail : writtenPath uid key = vmluConfigPath ++ uid.text.toList ++
      '/' :: (key.text.toList ++ '/' :: controllerConfigName) := by
    rw [written_path_eq]
    simp
  have hname : '/' ∉ controllerConfigName := by decide
  have hconfig : String.ofList controllerConfigName = configFileName := by decide
  have hbelow : cleanStep (podPath uid.text) key.text = podPath uid.text ++ [key.text] := by
    simp [cleanStep, hkey.1, hkey.2.1, hkey.2.2.1]
  rw [htail, join_below uid.plain_element, split_slash_append, split_slash_plain hkey.2.2.2,
    split_slash_plain hname, base_dir_plain hkey, List.singleton_append, List.map_cons,
    List.map_singleton, String.ofList_toList, hconfig, List.foldl_cons, List.foldl_cons,
    List.foldl_nil, hbelow]
  exact if_neg (by decide)

/-- The container has been created for the pod, and the kernel files lead its processes to the path
that the manager derives for it. -/
structure Launched.Led (cgroupV2 : Bool) (owner : String → String × String) (container : Launched)
    (uid name : Identifier) (id : ContainerID) (minorNum : Nat) : Prop where
  response : container.response = allocResp uid.text minorNum
  path : openedPath container.kernel.listing container.kernel.cgroup container.kernel.mountinfo uid
    minorNum = some (writtenPath uid (directoryKey cgroupV2 name id))
  name : (owner id.text).2 = name.text

section Led

variable {ι : Type} {cgroupV2 : Bool} {owner : String → String × String} {container : Launched}
  {uid name : Identifier} {id : ContainerID} {minorNum : Nat}

/-- The manager's directory of a container that is led to it. -/
theorem Launched.Led.dir (h : container.Led cgroupV2 owner uid name id minorNum) :
    containerDir cgroupV2 owner uid.text id.text =
      baseDir [uid.text, (directoryKey cgroupV2 name id).text] := by
  unfold containerDir directoryKey
  rw [h.name]
  cases cgroupV2 <;> rfl

/-- That directory is below the pod's. -/
theorem Launched.Led.under (h : container.Led cgroupV2 owner uid name id minorNum) :
    podPath uid.text <+: containerDir cgroupV2 owner uid.text id.text := by
  rw [h.dir]
  exact pod_path_under (.inr (directoryKey cgroupV2 name id).plain_element)

/-- What is read in a container that is led to its directory is the manager's file there. -/
theorem configuration_of_led (state : System ι)
    (h : container.Led cgroupV2 owner uid name id minorNum) :
    state.configuration container = state.node.manager.disk.read
      (vcudaFileName (containerDir cgroupV2 owner uid.text id.text)) := by
  have hopened := h.path
  rw [openedPath, allocatedMounts, ← h.response] at hopened
  obtain ⟨path, hpath, hhost⟩ := Option.bind_eq_some_iff.mp hopened
  have hconfig : container.configPath = some path := hpath
  have hmount : hostPath container.mounts path =
      some (writtenPath uid (directoryKey cgroupV2 name id)) := hhost
  rw [System.configuration, hconfig, Option.bind_some, hmount, h.dir, ← join_written_path]

end Led

/-- Every container whose pod is at rest, and which the kernel files lead to its own path, finds a
configuration of its pod there. -/
def FindsConfiguration [Gjson] {ι : Type} (cgroupV2 : Bool) (owner : String → String × String)
    (state : System ι) : Prop :=
  ∀ container ∈ state.containers, ∀ (uid name : Identifier) (id : ContainerID) (minorNum : Nat),
    container.Led cgroupV2 owner uid name id minorNum →
    id.text ∈ state.node.manager.vm.listed uid.text → AtRest state.node.manager uid.text →
      ∃ data, state.configuration container = some data ∧ data.podUid = uid.text

/-- A manager whose pods at rest have their files lets the containers find them. -/
theorem finds_configuration_of_rest [Gjson] {ι : Type} {cgroupV2 : Bool}
    {owner : String → String × String} {state : System ι}
    (h : ConfiguredAtRest cgroupV2 owner state.node.manager) :
    FindsConfiguration cgroupV2 owner state := by
  intro container _ uid name id minorNum hled hlisted hrest
  obtain ⟨data, hdata, howner⟩ := h uid.text hrest id.text hlisted
  exact ⟨data, (configuration_of_led state hled).trans hdata, howner⟩

/-- A step of the system in which the manager's part is regular keeps its invariant. -/
theorem regular_inv_system {ι : Type} [DecidableEq ι] [Gjson] {server : ι → VcoreResourceServer}
    {cgroupV2 : Bool} {card : Controller.Accelerator → Startup.Card}
    {owner : String → String × String} (hfree : ∀ cont, (owner cont).2 ≠ configFileName)
    {state next : System ι} {action : Action ι} (h : RegularInv cgroupV2 owner state.node.manager)
    (haction : ManagerRegular owner state action)
    (hstep : step server cgroupV2 card state action = some next) :
    RegularInv cgroupV2 owner next.node.manager :=
  manager_kept (fun _ _ _ h hmanaged hnext => regular_inv_step hfree h hmanaged hnext) h haction
    hstep

/-- In every run in which the manager's file operations succeed: a process in a container that the
manager has recorded, and that the kernel files lead to the container's path, finds the
configuration of its pod in every state in which the handlers of the pod have ended. -/
theorem finds_configuration {ι : Type} [DecidableEq ι] [Gjson] (server : ι → VcoreResourceServer)
    (cgroupV2 : Bool) (card : Controller.Accelerator → Startup.Card)
    (owner : String → String × String) (hfree : ∀ cont, (owner cont).2 ≠ configFileName)
    (pods : PodStore) (gpus : GpuStore) (actions : List (Action ι))
    (hregular : Along (step server cgroupV2 card) (ManagerRegular owner)
      (System.initial ι pods gpus) actions) :
    Always (step server cgroupV2 card) (FindsConfiguration cgroupV2 owner)
      (System.initial ι pods gpus) actions :=
  always_of_along (fun _ _ _ h haction hstep => regular_inv_system hfree h haction hstep)
    (fun _ h => finds_configuration_of_rest (configured_of_inv hfree h))
    (regular_inv_initial cgroupV2 owner) hregular

deriving instance DecidableEq for KernelFiles

/-- The manager records the container of `launch`, and its handlers end. -/
def settledContainer : List (Action String) :=
  launch ++ published.map .node ++ List.replicate 3 (.node (.handler 1 true true))

/-- Nothing fails in that run. -/
theorem settled_container_regular :
    letI := Gjson.reader
    Along (step nodeServer false blankCard) (ManagerRegular fun _ => ("uid-a", "main"))
      (System.initial String onePod freshStore) settledContainer := by
  decide +kernel

/-- The UID of the pod in that run. -/
def settledUid : Identifier := ⟨"uid-a", by simp, by simp, by simp⟩

/-- The name of its container. -/
def settledName : Identifier := ⟨"main", by simp, by simp, by simp⟩

/-- The ID of its container. -/
def settledId : ContainerID := ⟨⟨"c1", by simp, by simp, by simp⟩, by simp⟩

/-- The kernel files lead that container to its path. -/
theorem settled_led {container : Launched} (hresponse : container.response = allocResp "uid-a" 0)
    (hkernel : container.kernel = kernelFiles) :
    container.Led false (fun _ => ("uid-a", "main")) settledUid settledName settledId 0 := by
  refine ⟨hresponse, ?_, rfl⟩
  rw [hkernel]
  decide +kernel

/-- The container of that run finds its configuration. -/
theorem finds_configuration_settled :
    letI := Gjson.reader
    ∃ state, exec (step nodeServer false blankCard) (System.initial String onePod freshStore)
        settledContainer = some state ∧
      ∃ container ∈ state.containers, ∃ data, state.configuration container = some data ∧
        data.podUid = "uid-a" := by
  let reader := Gjson.reader
  have hrun : (exec (step nodeServer false blankCard) (System.initial String onePod freshStore)
      settledContainer).map (fun state => (state.containers.map fun container =>
        (container.response, container.kernel), state.node.manager.vm.listed "uid-a",
        state.node.manager.handlers.all fun handler => handler.point.isFinished)) =
      some ([(allocResp "uid-a" 0, kernelFiles)], ["c1"], true) := by
    decide +kernel
  obtain ⟨state, hstate, hfound⟩ := Option.map_eq_some_iff.mp hrun
  simp only [Prod.mk.injEq, List.map_eq_singleton_iff] at hfound
  obtain ⟨⟨container, hcontainers, hresponse, hkernel⟩, hlisted, hfinished⟩ := hfound
  have hmem : container ∈ state.containers := by simp [hcontainers]
  have hled := settled_led hresponse hkernel
  have hrest : AtRest state.node.manager "uid-a" := by
    intro handler hhandler _
    exact point_of_is_finished (List.all_eq_true.mp hfinished handler hhandler)
  have hall := finds_configuration nodeServer false blankCard (fun _ => ("uid-a", "main"))
    (fun _ => by decide) onePod freshStore settledContainer settled_container_regular
  have hrecorded : settledId.text ∈ state.node.manager.vm.listed settledUid.text := by
    rw [show settledUid.text = "uid-a" from rfl, hlisted]
    decide
  exact ⟨state, hstate, container, hmem,
    hall.final hstate container hmem settledUid settledName settledId 0 hled hrecorded hrest⟩

/-! ## The handshake -/

/-- The step of the manager in a step of the system, with the state before it. -/
def managerSteps [Gjson] {ι : Type} (state : System ι) (action : Action ι) :
    List (ResourceManager.State × ResourceManager.Action) :=
  (managerAction state action).toList.map fun managed => (state.node.manager, managed)

/-- In these steps, of which the last comes first, there is one before which the container had
settled, and from which on its file has not been opened again and its pod has not been deleted. -/
def SettledSince [Gjson] (cgroupV2 : Bool) (owner : String → String × String) (uid cont : String) :
    List (ResourceManager.State × ResourceManager.Action) → Prop
  | [] => False
  | (manager, managed) :: earlier =>
      ¬ Reopens cgroupV2 owner uid cont manager managed ∧
        (Settled manager uid cont ∨ SettledSince cgroupV2 owner uid cont earlier)

instance settledSinceDecidable [Gjson] (cgroupV2 : Bool) (owner : String → String × String)
    (uid cont : String) : ∀ steps, Decidable (SettledSince cgroupV2 owner uid cont steps)
  | [] => .isFalse id
  | (_, _) :: earlier =>
      let _ := settledSinceDecidable cgroupV2 owner uid cont earlier
      inferInstanceAs (Decidable (_ ∧ (_ ∨ SettledSince cgroupV2 owner uid cont earlier)))

/-- A container whose process reads its configuration has settled, now or before, and the kernel
files lead it to its own path. -/
def ReadsSettled [Gjson] {ι : Type} (cgroupV2 : Bool) (owner : String → String × String)
    (state : System ι × List (ResourceManager.State × ResourceManager.Action))
    (action : Action ι) : Prop :=
  ∀ container ∈ state.1.reader action, container.configPath.isSome →
    ∃ uid name id minorNum, container.Led cgroupV2 owner uid name id minorNum ∧
      (Settled state.1.node.manager uid.text id.text ∨
        SettledSince cgroupV2 owner uid.text id.text state.2.reverse)

/-- The manager has kept to its invariant, and the files of the containers that had settled are
written. -/
structure SettledInv [Gjson] {ι : Type} (cgroupV2 : Bool) (owner : String → String × String)
    (state : System ι × List (ResourceManager.State × ResourceManager.Action)) : Prop where
  regular : RegularInv cgroupV2 owner state.1.node.manager
  written : ∀ uid cont, PlainElement uid → podPath uid <+: containerDir cgroupV2 owner uid cont →
    SettledSince cgroupV2 owner uid cont state.2.reverse →
      state.1.node.manager.disk.Complete (vcudaFileName (containerDir cgroupV2 owner uid cont))

section Runs

variable {ι : Type} [Gjson] {cgroupV2 : Bool} {owner : String → String × String}

/-- The file of a container that has settled, now or before, is written. -/
theorem SettledInv.complete (hfree : ∀ cont, (owner cont).2 ≠ configFileName)
    {state : System ι × List (ResourceManager.State × ResourceManager.Action)}
    (h : SettledInv cgroupV2 owner state) {uid cont : String} (huid : PlainElement uid)
    (hunder : podPath uid <+: containerDir cgroupV2 owner uid cont)
    (hsettled : Settled state.1.node.manager uid cont ∨
      SettledSince cgroupV2 owner uid cont state.2.reverse) :
    state.1.node.manager.disk.Complete (vcudaFileName (containerDir cgroupV2 owner uid cont)) := by
  rcases hsettled with hnow | hbefore
  · obtain ⟨data, hread, -⟩ := configured_of_settled hfree h.regular hnow
    exact Disk.read_is_some_iff.mp (by rw [hread]; rfl)
  · exact h.written uid cont huid hunder hbefore

/-- Every step in which the manager's part is regular keeps the files of settled containers. -/
theorem settled_inv_step [DecidableEq ι] {server : ι → VcoreResourceServer}
    {card : Controller.Accelerator → Startup.Card}
    (hfree : ∀ cont, (owner cont).2 ≠ configFileName)
    {state next : System ι × List (ResourceManager.State × ResourceManager.Action)}
    {action : Action ι} (h : SettledInv cgroupV2 owner state)
    (haction : ManagerRegular owner state.1 action)
    (hstep : logged (step server cgroupV2 card) managerSteps state action = some next) :
    SettledInv cgroupV2 owner next := by
  obtain ⟨hnext, hsteps⟩ := logged_eq_some.mp hstep
  refine ⟨regular_inv_system hfree h.regular haction hnext, fun uid cont huid hunder => ?_⟩
  have hmanager := manager_of_step hnext
  rw [hsteps, managerSteps]
  cases hmanaged : managerAction state.1 action with
  | none =>
      rw [hmanaged] at hmanager
      rw [hmanager]
      simpa using h.written uid cont huid hunder
  | some managed =>
      rw [hmanaged] at hmanager
      rw [Option.toList_some, List.map_singleton, List.reverse_append, List.reverse_singleton]
      rintro ⟨hkept, hsettled⟩
      exact complete_kept h.regular.rest huid hunder hkept hmanager
        (h.complete hfree huid hunder hsettled)

end Runs

/-- In every run in which the manager is given well-formed documents, no file operation of it fails
and its waiting handlers are answered with their own pods: every configuration that a process opens
exists and is complete, when each process that reads its configuration is led to the path of its
container, which the manager has recorded before with no handler of the pod in a pass, and neither
opened again since nor, with its pod, deleted. -/
theorem handshake_safe {ι : Type} [DecidableEq ι] [Gjson] (server : ι → VcoreResourceServer)
    (cgroupV2 : Bool) (card : Controller.Accelerator → Startup.Card)
    (owner : String → String × String) (hfree : ∀ cont, (owner cont).2 ≠ configFileName)
    (pods : PodStore) (gpus : GpuStore) (actions : List (Action ι))
    (hregular : Along (step server cgroupV2 card) (ManagerRegular owner)
      (System.initial ι pods gpus) actions)
    (hsettled : Along (logged (step server cgroupV2 card) managerSteps)
      (ReadsSettled cgroupV2 owner) (System.initial ι pods gpus, []) actions) :
    Along (step server cgroupV2 card) OpensComplete (System.initial ι pods gpus) actions := by
  have hinitial : SettledInv cgroupV2 owner (System.initial ι pods gpus, []) :=
    ⟨regular_inv_initial cgroupV2 owner, fun _ _ _ _ hsettled => hsettled.elim⟩
  rw [← along_logged (System.initial ι pods gpus, [])] at hregular ⊢
  refine along_of_invariant (fun state action next h hcond hstep =>
    settled_inv_step hfree h hcond.1 hstep) (fun state action next h hcond _ => ?_) hinitial
    (hregular.and hsettled)
  intro container hreader hpath
  obtain ⟨uid, name, id, minorNum, hled, hsettled⟩ := hcond.2 container hreader hpath
  rw [configuration_of_led state.1 hled]
  exact Disk.read_is_some_iff.mpr
    (h.complete hfree uid.plain_element hled.under hsettled)

/-- The container of `settledContainer` reads its configuration after the manager has been
restarted. -/
def settledRead : List (Action String) := settledContainer ++ [.node .restart] ++ firstCuInit

/-- Nothing fails in that run. -/
theorem settled_read_regular :
    letI := Gjson.reader
    Along (step nodeServer false blankCard) (ManagerRegular fun _ => ("uid-a", "main"))
      (System.initial String onePod freshStore) settledRead := by
  decide +kernel

/-- The container that reads in that run has settled before. -/
theorem settled_read_settled :
    letI := Gjson.reader
    Along (logged (step nodeServer false blankCard) managerSteps)
      (fun state action => ∀ container ∈ state.1.reader action,
        container.response = allocResp "uid-a" 0 ∧ container.kernel = kernelFiles ∧
          SettledSince false (fun _ => ("uid-a", "main")) "uid-a" "c1" state.2.reverse)
      (System.initial String onePod freshStore, []) settledRead := by
  decide +kernel

/-- The process of that run reads a complete configuration and goes on. -/
theorem handshake_safe_settled :
    letI := Gjson.reader
    (exec (step nodeServer false blankCard) (System.initial String onePod freshStore)
        settledRead).map (fun state => state.containers.map fun container =>
          container.processes.map fun process => (process.reads, process.exited)) =
      some [[(1, false)]] ∧
    Along (step nodeServer false blankCard) OpensComplete (System.initial String onePod freshStore)
      settledRead := by
  let reader := Gjson.reader
  have hsettled : Along (logged (step nodeServer false blankCard) managerSteps)
      (ReadsSettled false fun _ => ("uid-a", "main")) (System.initial String onePod freshStore, [])
      settledRead := by
    refine along_of_invariant (fun _ _ _ (_ : True) _ _ => trivial)
      (fun state action _ _ hread _ container hreader _ => ?_) trivial settled_read_settled
    obtain ⟨hresponse, hkernel, hbefore⟩ := hread container hreader
    exact ⟨settledUid, settledName, settledId, 0, settled_led hresponse hkernel, .inr hbefore⟩
  exact ⟨by decide +kernel, handshake_safe nodeServer false blankCard (fun _ => ("uid-a", "main"))
    (fun _ => by decide) onePod freshStore settledRead settled_read_regular hsettled⟩

/-- A container whose process does not wait finds no file: nothing that the plugins or kubelet wait
for comes after it is written. -/
theorem handshake_safe_counterexample :
    letI := Gjson.reader
    ¬ ∀ (server : String → VcoreResourceServer) (cgroupV2 : Bool)
        (card : Controller.Accelerator → Startup.Card) (pods : PodStore) (gpus : GpuStore)
        (actions : List (Action String)),
      Along (step server cgroupV2 card) OpensComplete (System.initial String pods gpus)
        actions := by
  intro h
  let reader := Gjson.reader
  have hopens := h nodeServer false blankCard onePod freshStore (launch ++ firstCuInit)
  exact absurd hopens (by decide +kernel)

end UniShare.Handshake
