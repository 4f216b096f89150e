import UniShare.Kube.Pod
import UniShare.Lib.Disk

/-!
# The virtual manager

After `resourceManager/manager.go`. `VirtualManager` holds the maps that the handlers of pod events
share; a key that a Go map does not have is `none` here. The functions below are what a handler
reads in its event, what its lock regions do to the maps, and the record that it writes.
-/

namespace UniShare.ResourceManager

open Lib Kube

/-- The maps of the manager. -/
structure VirtualManager where
  podByUID : String → Option Json
  containerNameByUid : String → Option String
  containerUIDByName : String → Option String
  containerUIDInPodUID : String → Option (List String)
  podVisitedByUID : String → Option Bool
  podDoByUID : String → Option Bool
  coreRequestByPodUID : String → Option Int64
  memoryRequestByPodUID : String → Option Int64

/-- `NewVirtualManager`. -/
def newVirtualManager : VirtualManager where
  podByUID _ := none
  containerNameByUid _ := none
  containerUIDByName _ := none
  containerUIDInPodUID _ := none
  podVisitedByUID _ := none
  podDoByUID _ := none
  coreRequestByPodUID _ := none
  memoryRequestByPodUID _ := none

/-! ## What a handler reads in its event -/

section Event

variable [Gjson]

/-- `pod.Get("metadata")` -/
def metadata (event : Json) : Option Json := Gjson.get (some event) "metadata"

/-- `podName` -/
def podName (event : Json) : String := Gjson.string (Gjson.get (metadata event) "name")

/-- `namespace` -/
def podNamespace (event : Json) : String := Gjson.string (Gjson.get (metadata event) "namespace")

/-- `podUID` -/
def podUID (event : Json) : String := Gjson.string (Gjson.get (metadata event) "uid")

/-- The value of the annotation that marks a pod as assigned. -/
def assigned (event : Json) : Option Json :=
  Gjson.get (Gjson.get (metadata event) "annotations") "doslab\\.io/gpu-assigned"

/-- The containers of the event's specification. -/
def specContainers (event : Json) : List Json :=
  Gjson.forEach (Gjson.get (Gjson.get (some event) "spec") "containers")

/-- `resFlag`: some container has resource requests, whatever they are for. -/
def resFlag (event : Json) : Bool :=
  (specContainers event).any fun value =>
    (Gjson.get (some value) "resources").isSome &&
      (Gjson.get (Gjson.get (some value) "resources") "requests").isSome

/-- The checks at the start of `creatVcudaServer`. -/
def accepted (event : Json) : Bool :=
  (Gjson.get (metadata event) "annotations").isSome && resFlag event && podName event != "" &&
    podNamespace event != "" && podUID event != ""

/-- The checks at the start of `deletePodPath`. -/
def acceptedDelete (event : Json) : Bool :=
  (Gjson.get (metadata event) "annotations").isSome && (assigned event).isSome

/-- `status.Get("containerStatuses")` of a pod document. -/
def containerStatuses (document : Json) : Option Json :=
  Gjson.get (Gjson.get (some document) "status") "containerStatuses"

/-- One container's contribution to the totals `requestCore` and `requestMemory`. -/
def addLimits (totals : Int64 × Int64) (value : Json) : Int64 × Int64 :=
  let resources := Gjson.get (some value) "resources"
  let limits := Gjson.get resources "limits"
  if !resources.isSome then totals
  else if !limits.isSome then totals
  else if (Gjson.get limits "iscas\\.cn/gpu-core").isSome then
    (totals.1 + parseInt (Gjson.string (Gjson.get limits "iscas\\.cn/gpu-core")),
      totals.2 + parseInt (Gjson.string (Gjson.get limits resourceMemory)))
  else if (Gjson.get limits mluResourceCore).isSome && (Gjson.get limits mluResourceMemory).isSome
  then
    (totals.1 + parseInt (Gjson.string (Gjson.get limits mluResourceCore)),
      totals.2 + parseInt (Gjson.string (Gjson.get limits mluResourceMemory)))
  else totals

/-- `requestCore` and `requestMemory` of `creatVcudaServer`. -/
def requestTotals (event : Json) : Int64 × Int64 :=
  (specContainers event).foldl addLimits (0, 0)

end Event

/-! ## The lock regions -/

/-- The text behind the first separator, `none` when there is none. -/
def afterSeparator (separator : List Char) : List Char → Option (List Char)
  | [] => none
  | c :: rest =>
      if separator.isPrefixOf (c :: rest) then some ((c :: rest).drop separator.length)
      else afterSeparator separator rest

/-- The text up to the next separator. -/
def beforeSeparator (separator : List Char) : List Char → List Char
  | [] => []
  | c :: rest =>
      if separator.isPrefixOf (c :: rest) then [] else c :: beforeSeparator separator rest

/-- `strings.Split(uidStr, "docker://")[1]`, `none` when the index is out of range. -/
def containerUID (uidStr : String) : Option String :=
  (afterSeparator "docker://".toList uidStr.toList).map fun rest =>
    String.ofList (beforeSeparator "docker://".toList rest)

/-- The callback of the loop over `containerStatuses`, with the flag that a container was recorded;
`none` when it panics. -/
def VirtualManager.recordContainer [Gjson] (podUID : String) (vm : VirtualManager) (value : Json) :
    Option (VirtualManager × Bool) :=
  let uidStr := Gjson.string (Gjson.get (some value) "containerID")
  let name := Gjson.string (Gjson.get (some value) "name")
  if uidStr = "" then some (vm, false)
  else if name = "" then some (vm, false)
  else
    match containerUID uidStr with
    | none => none
    | some uid =>
        some
          ({ vm with
              containerNameByUid := Function.update vm.containerNameByUid uid (some name)
              containerUIDByName := Function.update vm.containerUIDByName name (some uid)
              containerUIDInPodUID := Function.update vm.containerUIDInPodUID podUID
                (some ((vm.containerUIDInPodUID podUID).getD [] ++ [uid])) },
            true)

/-- The loop over `containerStatuses`, with `contStatusFlag`. -/
def VirtualManager.recordContainers [Gjson] (podUID : String) :
    VirtualManager → Bool → List Json → Option (VirtualManager × Bool)
  | vm, contStatusFlag, [] => some (vm, contStatusFlag)
  | vm, contStatusFlag, value :: rest =>
      match vm.recordContainer podUID value with
      | none => none
      | some (next, recorded) => next.recordContainers podUID (contStatusFlag || recorded) rest

/-- `vm.PodDoByUID[podUID] = true` -/
def VirtualManager.markDone (vm : VirtualManager) (podUID : String) : VirtualManager :=
  { vm with podDoByUID := Function.update vm.podDoByUID podUID (some true) }

/-- The region that records a visit and keeps the event. -/
def VirtualManager.markVisited (vm : VirtualManager) (podUID : String) (pod : Json) :
    VirtualManager :=
  { vm with
    podVisitedByUID := Function.update vm.podVisitedByUID podUID (some true)
    podByUID := Function.update vm.podByUID podUID (some pod) }

/-- The region that stores the totals. -/
def VirtualManager.storeRequests (vm : VirtualManager) (podUID : String) (totals : Int64 × Int64) :
    VirtualManager :=
  { vm with
    coreRequestByPodUID := Function.update vm.coreRequestByPodUID podUID (some totals.1)
    memoryRequestByPodUID := Function.update vm.memoryRequestByPodUID podUID (some totals.2) }

/-- Delete a container's name, and the UID under that name. -/
def VirtualManager.forgetContainer (vm : VirtualManager) (uid : String) : VirtualManager :=
  let name := (vm.containerNameByUid uid).getD ""
  { vm with
    containerNameByUid := Function.update vm.containerNameByUid uid none
    containerUIDByName := Function.update vm.containerUIDByName name none }

/-- What `deletePodPath` does to the maps of a visited pod. -/
def VirtualManager.forgetPod (vm : VirtualManager) (podUID : String) : VirtualManager :=
  let visited :=
    { vm with
      podVisitedByUID := Function.update vm.podVisitedByUID podUID (some false)
      coreRequestByPodUID := Function.update vm.coreRequestByPodUID podUID none
      memoryRequestByPodUID := Function.update vm.memoryRequestByPodUID podUID none
      podByUID := Function.update vm.podByUID podUID none
      podDoByUID := Function.update vm.podDoByUID podUID none }
  let forgotten := ((vm.containerUIDInPodUID podUID).getD []).foldl
    VirtualManager.forgetContainer visited
  { forgotten with
    containerUIDInPodUID := Function.update forgotten.containerUIDInPodUID podUID none }

/-! ## The configuration files -/

/-- `struct resource_data_t`. -/
structure ResourceData where
  podUid : String
  containerName : String
  memory : UInt64
  utilization : Int32
  deriving DecidableEq, Repr

/-- `MemoryBlockSize` -/
def memoryBlockSize : UInt64 := 268435456

/-- The record that `createVCUDAFile` fills in; a missing total reads as zero. -/
def VirtualManager.vConfig (vm : VirtualManager) (podUID containerName : String) :
    ResourceData where
  podUid := podUID
  containerName := containerName
  memory := ((vm.memoryRequestByPodUID podUID).getD 0).toUInt64 * memoryBlockSize
  utilization := ((vm.coreRequestByPodUID podUID).getD 0).toInt32

/-- The file system with the configuration files. -/
abbrev ConfigDisk := Disk ResourceData

/-- `ConfigFileName` -/
def configFileName : String := "vcuda.config"

/-- A directory under the manager's path. -/
def baseDir (elements : List String) : List String :=
  filepathJoin (virtualManagerPath :: elements)

/-- `vcudaFileName` in a directory. -/
def vcudaFileName (dir : List String) : List String := dir ++ [configFileName]

/-! ## Events that are pods -/

section Pods

variable [Gjson]

/-- The containers of a pod's document. -/
theorem spec_containers_toJson (pod : Pod) :
    specContainers pod.toJson = pod.containers.map Container.toJson := by
  simp +decide [specContainers, Pod.toJson, Gjson.get_key, List.lookup]

/-- The UID in a pod's document. -/
theorem podUID_toJson (pod : Pod) : podUID pod.toJson = pod.uid := by
  simp +decide [podUID, metadata, Pod.toJson, Gjson.get_key, Json.lookup_omit_empty,
    lookup_omit_nil_last, List.lookup]
  split <;> simp_all

omit [Gjson] in
/-- Looking a resource up in the document of a resource list. -/
theorem member_resource_list (resources : ResourceList) (resource : String) :
    Json.member (some (resourceListJson resources)) resource =
      (resources.lookup resource).map fun quantity => .string quantity.text := by
  rw [resourceListJson, Json.member_object]
  induction resources with
  | nil => rfl
  | cons entry rest ih =>
      simp only [List.map_cons, List.lookup]
      split
      · simp
      · exact ih

/-- A path of two keys leads nowhere in the document of a resource list. -/
theorem get_unescaped (resources : ResourceList) {path first second : String}
    (hplain : PlainPath path) (hkeys : pathKeys path = [first, second]) :
    Gjson.get (some (resourceListJson resources)) path = none := by
  rw [Gjson.get_path _ hplain, hkeys]
  simp only [List.foldl_cons, List.foldl_nil, member_resource_list]
  cases resources.lookup first <;> rfl

/-- The core limit in the document of a resource list. -/
theorem get_core (resources : ResourceList) :
    Gjson.get (some (resourceListJson resources)) "iscas\\.cn/gpu-core" =
      (resources.lookup resourceCore).map fun quantity => .string quantity.text := by
  rw [Gjson.get_path _ (by decide),
    show pathKeys "iscas\\.cn/gpu-core" = [resourceCore] by decide]
  exact member_resource_list resources resourceCore

/-- The limits in a container's document. -/
theorem limits_toJson (cont : Container) :
    Gjson.get (Gjson.get (some cont.toJson) "resources") "limits" =
      if cont.limits.isEmpty then none else some (resourceListJson cont.limits) := by
  rw [Gjson.get_key (by decide), Gjson.get_key (by decide)]
  simp +decide [Container.toJson, lookup_omit_nil, lookup_omit_nil_last, List.lookup]

/-- What is read from the texts of the core limits, added up. -/
def parsedCore (containers : List Container) : Int64 :=
  (containers.map fun cont => parseInt (cont.limit resourceCore).text).sum

/-- A container adds the integer that is read from the text of its core limit, and no memory: the
path of the memory limit has an unescaped dot. -/
theorem addLimits_toJson (totals : Int64 × Int64) (cont : Container) :
    addLimits totals cont.toJson =
      (totals.1 + parseInt (cont.limit resourceCore).text, totals.2) := by
  have hresources : (Gjson.get (some cont.toJson) "resources").isSome := by
    simp +decide [Gjson.get_key, Container.toJson, List.lookup]
  have hzero : parseInt "0" = 0 := by decide
  have hempty : parseInt "" = 0 := by decide
  unfold addLimits
  simp only [hresources, limits_toJson, Container.limit]
  cases hlimits : cont.limits with
  | nil => simp [Quantity.none, hzero]
  | cons entry rest =>
      simp only [List.isEmpty_cons, Bool.false_eq_true, if_false, get_core,
        get_unescaped _ (show PlainPath resourceMemory by decide)
          (show pathKeys resourceMemory = ["iscas", "cn/gpu-memory"] by decide),
        get_unescaped _ (show PlainPath mluResourceCore by decide)
          (show pathKeys mluResourceCore = ["iscas", "cn/mlu-core"] by decide)]
      cases List.lookup resourceCore (entry :: rest) with
      | none => simp [Quantity.none, hzero]
      | some quantity => simp [hempty]

/-- The totals of a pod: what is read from the core limits, and no memory. -/
theorem requestTotals_toJson (pod : Pod) :
    requestTotals pod.toJson = (parsedCore pod.containers, 0) := by
  have hfold : ∀ (containers : List Container) (totals : Int64 × Int64),
      (containers.map Container.toJson).foldl addLimits totals =
        (totals.1 + parsedCore containers, totals.2) := by
    intro containers
    induction containers with
    | nil => simp [parsedCore]
    | cons cont rest ih =>
        intro totals
        simp only [List.map_cons, List.foldl_cons, addLimits_toJson, ih, parsedCore, List.sum_cons,
          Int64.add_assoc]
  rw [requestTotals, spec_containers_toJson, hfold]
  simp

end Pods

end UniShare.ResourceManager
