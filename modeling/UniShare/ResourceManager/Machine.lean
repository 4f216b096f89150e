import UniShare.PodWatch.PodManager
import UniShare.ResourceManager.Manager
import UniShare.Lib.Execution

/-!
# The goroutines of the manager

After `resourceManager/manager.go`. The machine runs the loop of `Run` and any number of handlers,
`creatVcudaServer` and `deletePodPath`, over the shared maps and the disk. Each lock region, each
access to a map outside the lock, each file operation and each request to the API server is one
step; what the API server and the file system answer comes with the step. A panic ends the process;
after a restart the maps are empty and the disk is as it was left.
-/

namespace UniShare.ResourceManager

open Lib Kube PodWatch

/-- Where a `creatVcudaServer` handler is. A configuration file goes through `dirName` to `write`
for each container UID of the list. -/
inductive HandlerPoint where
  | entry
  | await (tries : Nat) (statuses : Option Json)
  | record (statuses : Option Json)
  | list
  | dirName (contUidList : List String)
  | mkdir (uid : String) (dir : List String) (rest : List String)
  | contName (uid : String) (dir : List String) (rest : List String)
  | totals (dir : List String) (containerName : String) (rest : List String)
  | create (file : List String) (data : ResourceData) (rest : List String)
  | write (inode : Nat) (data : ResourceData) (rest : List String)
  | markDone
  | visited
  | mark
  | podDir
  | requests
  | getPod
  | annotate (copyPod : Pod)
  | finished

/-- What the environment answers in a step: whether a file operation succeeds, and the pod that the
API server returns, if any. -/
structure Answer where
  ok : Bool
  pod : Option Pod

/-- What a step of a handler comes to. -/
inductive Progress where
  | stuck
  | panic
  | next (vm : VirtualManager) (disk : ConfigDisk) (point : HandlerPoint)
  | update (pod : Pod)

/-- One step of `creatVcudaServer`. -/
def creatVcudaServer [Gjson] (cgroupV2 : Bool) (vm : VirtualManager) (disk : ConfigDisk)
    (pod : Json) (answer : Answer) : HandlerPoint → Progress
  | .entry =>
      if !accepted pod then .next vm disk .finished
      else if Gjson.string (assigned pod) = "true" ∧ (vm.podDoByUID (podUID pod)).getD false = false
      then .next vm disk (.await 0 (containerStatuses pod))
      else .next vm disk .visited
  | .await tries statuses =>
      if tries = 100 then .next vm disk .finished
      else if statuses.isSome then .next vm disk (.record statuses)
      else
        match answer.pod with
        | none => .next vm disk .finished
        | some reply => .next vm disk (.await (tries + 1) (containerStatuses reply.toJson))
  | .record statuses =>
      match vm.recordContainers (podUID pod) false (Gjson.forEach statuses) with
      | none => .panic
      | some (next, true) => .next next disk .list
      | some (next, false) => .next next disk .finished
  | .list => .next vm disk (.dirName ((vm.containerUIDInPodUID (podUID pod)).getD []))
  | .dirName [] => .next vm disk .markDone
  | .dirName (uid :: rest) =>
      let name := if cgroupV2 then (vm.containerNameByUid uid).getD "" else uid
      .next vm disk (.mkdir uid (baseDir [podUID pod, name]) rest)
  | .mkdir uid dir rest =>
      -- a failure is only logged
      .next vm ((if answer.ok then disk.mkdirAll dir else none).getD disk) (.contName uid dir rest)
  | .contName uid dir rest =>
      .next vm disk (.totals dir ((vm.containerNameByUid uid).getD "") rest)
  | .totals dir containerName rest =>
      .next vm disk (.create (vcudaFileName dir) (vm.vConfig (podUID pod) containerName) rest)
  | .create file data rest =>
      match (if answer.ok then disk.create file else none) with
      | none => .next vm disk (.dirName rest)
      | some (inode, opened) => .next vm opened (.write inode data rest)
  | .write inode data rest =>
      .next vm (if answer.ok then disk.write inode data else disk) (.dirName rest)
  | .markDone => .next (vm.markDone (podUID pod)) disk .visited
  | .visited =>
      if (vm.podVisitedByUID (podUID pod)).getD false then .next vm disk .finished
      else .next vm disk .mark
  | .mark => .next (vm.markVisited (podUID pod) pod) disk .podDir
  | .podDir =>
      match (if answer.ok then disk.mkdirAll (baseDir [podUID pod]) else none) with
      | none => .next vm disk .finished
      | some made => .next vm made .requests
  | .requests => .next (vm.storeRequests (podUID pod) (requestTotals pod)) disk .getPod
  | .getPod =>
      match answer.pod with
      | none => .next vm disk .finished
      | some copyPod => .next vm disk (.annotate copyPod)
  | .annotate copyPod =>
      -- an assignment into a nil map panics
      if copyPod.annotations.isSome then .update (copyPod.setAnnotation annVCUDAReady "yes")
      else .panic
  | .finished => .stuck

/-- `deletePodPath`; its checks are on the event, and the rest is one lock region. -/
def deletePodPath [Gjson] (vm : VirtualManager) (disk : ConfigDisk) (pod : Json) :
    VirtualManager × ConfigDisk :=
  if !acceptedDelete pod then (vm, disk)
  else if !(vm.podVisitedByUID (podUID pod)).getD false then (vm, disk)
  else (vm.forgetPod (podUID pod), disk.removeAll (baseDir [podUID pod]))

/-- A `creatVcudaServer` handler and its event. -/
structure Handler where
  event : Json
  point : HandlerPoint

/-- The queues and the loop, the maps, the disk, the handlers, and the updates sent to the API
server. -/
structure State where
  podMgr : PodManager
  run : RunPoint
  vm : VirtualManager
  disk : ConfigDisk
  handlers : List Handler
  deleters : List Json
  updates : List Pod
  crashed : Bool

/-- The manager after it has started on a disk. -/
def State.boot (disk : ConfigDisk) (updates : List Pod) : State where
  podMgr := newPodManager
  run := .testModified
  vm := newVirtualManager
  disk := (disk.mkdirAll (baseDir [])).getD disk
  handlers := []
  deleters := []
  updates := updates
  crashed := false

/-- The first start, on a disk without files. -/
def State.initial : State := .boot (.empty ResourceData) []

/-- One step of the watcher, of the loop or of a handler, or a restart of the daemon. -/
inductive Action where
  | modified (obj : Json)
  | deleted (obj : Json)
  | run
  | handler (i : Nat) (answer : Answer)
  | deleter (i : Nat)
  | restart

/-- The handlers after the loop has started one. -/
def State.spawn (state : State) : Option Spawn → State
  | none => state
  | some (.creatVcudaServer pod) => { state with handlers := state.handlers ++ [⟨pod, .entry⟩] }
  | some (.deletePodPath pod) => { state with deleters := state.deleters ++ [pod] }

/-- The step of the loop. -/
def State.runNext (state : State) : State :=
  match runStep state.podMgr state.run with
  | .panic => { state with crashed := true }
  | .next podMgr run spawn => { state with podMgr, run }.spawn spawn

/-- The step of a handler. -/
def State.handlerNext [Gjson] (cgroupV2 : Bool) (state : State) (i : Nat) (answer : Answer)
    (handler : Handler) : Option State :=
  match creatVcudaServer cgroupV2 state.vm state.disk handler.event answer handler.point with
  | .stuck => none
  | .panic => some { state with crashed := true }
  | .next vm disk point =>
      some { state with vm, disk, handlers := state.handlers.set i { handler with point } }
  | .update pod =>
      some { state with
        handlers := state.handlers.set i { handler with point := .finished }
        updates := state.updates ++ [pod] }

/-- One transition, `none` when nothing is to do. -/
def step [Gjson] (cgroupV2 : Bool) (state : State) : Action → Option State
  | .restart => some (.boot state.disk state.updates)
  | .modified obj =>
      if state.crashed then none else some { state with podMgr := state.podMgr.doModified obj }
  | .deleted obj =>
      if state.crashed then none else some { state with podMgr := state.podMgr.doDeleted obj }
  | .run => if state.crashed then none else some state.runNext
  | .handler i answer =>
      if state.crashed then none
      else state.handlers[i]?.bind (state.handlerNext cgroupV2 i answer)
  | .deleter i =>
      if state.crashed then none
      else
        state.deleters[i]?.map fun pod =>
          { state with
            vm := (deletePodPath state.vm state.disk pod).1
            disk := (deletePodPath state.vm state.disk pod).2
            deleters := state.deleters.eraseIdx i }

end UniShare.ResourceManager
