import UniShare.Lifecycle
import UniShare.ResourceManager.Steps
import UniShare.Container.ConfigPath
import UniShare.Interceptor.Startup

/-!
# The startup handshake

The parties that bring a container up, around one API server and one disk: `creatVcudaServer` of the
manager, which makes the pod's directory and writes the configurations; `Allocate`, which waits for
the directory; kubelet, which creates a container after its call of `Allocate` has returned and
shows the container's ID in the pod's status after that; and the hooked processes of the container,
which read the configuration from the mount that `Allocate` gave it.
-/

namespace UniShare.Handshake

open Lib Kube PodWatch PluginRegister Container Interceptor

/-! ## The system -/

/-- What the kernel shows the processes of a container: the listing of the cgroup mounts,
`/proc/self/cgroup` and `/proc/self/mountinfo`. -/
structure KernelFiles where
  listing : List Char
  cgroup : List Char
  mountinfo : List Char

/-- A container that kubelet has created: its ID, the response of its call of `Allocate`, the record,
if any, that a path out of its mounts leads to in its own image, and its processes that have loaded
the library. -/
structure Launched where
  containerID : String
  response : AllocateResponse
  kernel : KernelFiles
  image : Option RcData
  processes : List Startup.State

/-- The mounts of the container. -/
def Launched.mounts (container : Launched) : List Mount :=
  container.response.containerResponses.flatMap ContainerAllocateResponse.mounts

/-- The path in the container that `read_controller_configuration` opens. -/
def Launched.configPath (container : Launched) : Option (List Char) :=
  getPathByCgroup (checkCgroupVersion container.kernel.listing) container.kernel.cgroup
    container.kernel.mountinfo

/-- The kernel files name the container `..`, and the path leads to the directory above the mount,
which is the container's own. -/
def Launched.LeavesMount (container : Launched) : Prop :=
  container.configPath = some (Container.configPath ['.', '.'])

instance (container : Launched) : Decidable container.LeavesMount :=
  inferInstanceAs (Decidable (_ = _))

/-- The plugins and the manager, the containers, and the container IDs that pods have shown. -/
structure System (ι : Type) where
  node : Lifecycle.System ι
  containers : List Launched
  shown : List String

/-- The container IDs in the statuses of these pods. -/
def containerIDs (pods : List Pod) : List String :=
  (pods.flatMap Pod.containerStatuses).map ContainerStatus.containerID

/-- The daemons have started, and there is no container. -/
def System.initial (ι : Type) (pods : PodStore) (gpus : GpuStore) : System ι :=
  ⟨.initial ι pods gpus, [], containerIDs pods.items⟩

/-- A step of the daemons or of others at the API server, kubelet creates a container for a call of
`Allocate`, a process loads the library in a container, or a process takes a step. -/
inductive Action (ι : Type) where
  | node (action : Lifecycle.Action ι)
  | create (call : ι) (containerID : String) (kernel : KernelFiles) (image : Option RcData)
  | load (i : Nat)
  | hook (i j : Nat) (action : Startup.Action)

variable {ι : Type}

/-- A pod shows the ID of a container that has been created, and an event an ID that a pod has
shown; a status without an ID shows none. -/
def System.Reports (state : System ι) : Lifecycle.Action ι → Prop
  | .plugin (.pods pods) => ∀ containerID ∈ containerIDs pods.items,
      containerID = "" ∨ containerID ∈ state.containers.map Launched.containerID
  | .podModified pod | .podDeleted pod => ∀ containerID ∈ containerIDs [pod],
      containerID = "" ∨ containerID ∈ state.shown
  | _ => True

/-- The IDs that a step shows. -/
def shownBy : Lifecycle.Action ι → List String
  | .plugin (.pods pods) => containerIDs pods.items
  | _ => []

instance (state : System ι) : ∀ action, Decidable (state.Reports action)
  | .plugin (.pods _) | .podModified _ | .podDeleted _ => inferInstanceAs (Decidable (∀ _ ∈ _, _))
  | .plugin (.start ..) | .plugin (.poll ..) | .plugin (.charge ..) | .plugin (.annotate ..) | .run
  | .handler .. | .deleter _ | .restart => .isTrue trivial

/-- What a process of the container finds when it reads its configuration: on the host, or in the
image when the path leaves the mounts. -/
def System.configuration (state : System ι) (container : Launched) : Option RcData :=
  container.configPath.bind fun path =>
    match hostPath container.mounts path with
    | some host => state.node.manager.disk.read (filepathJoin [String.ofList host])
    | none => container.image

/-- One transition. A call that has returned a response may be followed by any number of containers,
and a container may run any number of processes. -/
def step [DecidableEq ι] [Gjson] (server : ι → VcoreResourceServer) (cgroupV2 : Bool)
    (card : Controller.Accelerator → Startup.Card) (state : System ι) :
    Action ι → Option (System ι)
  | .node action =>
      if state.Reports action then
        (Lifecycle.step server cgroupV2 state.node action).map fun node =>
          { state with node, shown := state.shown ++ shownBy action }
      else none
  | .create call containerID kernel image =>
      match state.node.plugin.point call with
      | .returned (.ok response) =>
          if containerID ∈ state.containers.map Launched.containerID then none
          else
            some { state with
              containers := state.containers ++ [⟨containerID, response, kernel, image, []⟩] }
      | _ => none
  | .load i =>
      state.containers[i]?.map fun container =>
        { state with
          containers := state.containers.set i
            { container with processes := container.processes ++ [.initial] } }
  | .hook i j action =>
      state.containers[i]?.bind fun container =>
        container.processes[j]?.bind fun process =>
          (Startup.step card (state.configuration container) process action).map fun next =>
            { state with
              containers := state.containers.set i
                { container with processes := container.processes.set j next } }

/-! ## Reading the configuration -/

/-- The statement runs `read_controller_configuration`, when these guards are done. -/
def runsRead (done : List Once) : Statement → Bool
  | .readControllerConfiguration => true
  | .pthreadOnce guard => guard = .readConfig ∧ guard ∉ done
  | .callEntry => false

/-- The step of the process runs `read_controller_configuration`. -/
def readsConfiguration (process : Startup.State) : Startup.Action → Bool
  | .advance i _ => (process.calls[i]?.bind List.head?).any (runsRead process.done)
  | _ => false

/-- The container whose process reads its configuration in this step. -/
def System.reader (state : System ι) : Action ι → Option Launched
  | .hook i j action =>
      state.containers[i]?.bind fun container =>
        container.processes[j]?.bind fun process =>
          if readsConfiguration process action then some container else none
  | _ => none

/-- A configuration that is opened exists and holds a complete record. -/
def OpensComplete (state : System ι) (action : Action ι) : Prop :=
  ∀ container ∈ state.reader action,
    container.configPath.isSome → (state.configuration container).isSome

instance (state : System ι) (action : Action ι) : Decidable (OpensComplete state action) :=
  inferInstanceAs (Decidable (∀ container ∈ state.reader action, _))

/-- A process that reads the configuration exits exactly when there is nothing to read. -/
theorem exited_iff {card : Controller.Accelerator → Startup.Card} {data : Option RcData}
    {process next : Startup.State} {action : Startup.Action}
    (hreads : readsConfiguration process action = true)
    (hstep : Startup.step card data process action = some next) :
    next.exited = true ↔ data = none := by
  cases action with
  | advance i created =>
      simp only [Startup.step] at hstep
      split at hstep
      · cases hstep
      · rename_i hrunning
        split at hstep
        · rename_i statement rest hcall
          cases hstep
          simp only [readsConfiguration, hcall, Option.bind_some, List.head?_cons,
            Option.any_some] at hreads
          cases statement with
          | callEntry => cases hreads
          | readControllerConfiguration =>
              cases data <;> simp [Startup.perform, Startup.readControllerConfiguration, hrunning]
          | pthreadOnce guard =>
              obtain ⟨rfl, hfirst⟩ := of_decide_eq_true hreads
              cases data <;> simp [Startup.perform, Startup.initRoutine, hfirst,
                Startup.readControllerConfiguration, hrunning]
        · cases hstep
  | call entry | start i | tick i uti => cases hreads

/-! ## A fast container and a slow one -/

/-- Cards without cores. -/
def blankCard (_ : Controller.Accelerator) : Startup.Card := ⟨0, 0, 0⟩

/-- What the kernel shows a container of the pod under version 1. -/
def kernelFiles : KernelFiles where
  listing := sampleListing false
  cgroup := "4:memory:/kubepods/poduid-a/c1\n".toList
  mountinfo := []

/-- The pod while its container runs. -/
def runningStore : PodStore where
  items := [ResourceManager.runningPod]
  keys_nodup := by decide
  uids_nodup := by decide
  named := by decide

/-- The manager marks the pod ready, and its call of `Allocate` returns. -/
def allocated : List (Lifecycle.Action String) :=
  [.podModified ResourceManager.scheduledPod] ++ List.replicate 3 .run ++
    List.replicate 7 (.handler 0 true true) ++ (answeredCall "uid-a" tenDevices).map .plugin

/-- The pod shows its container, and the manager handles the event. -/
def published : List (Lifecycle.Action String) :=
  [.plugin (.pods runningStore), .podModified ResourceManager.runningPod] ++
    List.replicate 4 .run ++ List.replicate 10 (.handler 1 true true)

/-- Kubelet creates the container and starts its process. -/
def launch : List (Action String) :=
  allocated.map .node ++ [.create "uid-a" "docker://c1" kernelFiles none, .load 0]

/-- The process calls `cuInit`, which reads the configuration. -/
def firstCuInit : List (Action String) :=
  [.hook 0 0 (.call .cuInit), .hook 0 0 (.advance 0 true)]

end UniShare.Handshake
