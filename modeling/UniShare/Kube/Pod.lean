import UniShare.Lib.Gjson
import UniShare.Lib.Int64

/-!
# Pods

The part of the Kubernetes API that the program reads and writes. A `Quantity` is a resource amount
with its text in a document and its integer value; its laws say how Go's integer parser reads the
text. `Pod.toJson` is the document that the API server sends for a pod, and `PodStore` is the API
server's collection of pods.
-/

namespace UniShare.Kube

open Lib

/-- A non-negative integral resource quantity: its text, and what `Quantity.Value` returns. A text
of digits has the value that the integer parser reads, and no other digits than zero make zero. -/
structure Quantity where
  text : String
  value : Int64
  nonneg : 0 ≤ value
  decimal : IsDecimal text → value = parseInt text
  zero : value = 0 → parseInt text = 0
  deriving DecidableEq

/-- The quantity that a Go map yields for a missing key. -/
def Quantity.none : Quantity := ⟨"0", 0, by decide, by decide, by decide⟩

/-- The amounts of a resource list. -/
abbrev ResourceList := List (String × Quantity)

/-- A container of a pod's specification. -/
structure Container where
  name : String
  requests : ResourceList
  limits : ResourceList
  deriving DecidableEq

/-- `cont.Resources.Limits[resource]`. -/
def Container.limit (cont : Container) (resource : String) : Quantity :=
  (cont.limits.lookup resource).getD Quantity.none

/-- The container has a limit for the resource. -/
def Container.hasLimit (cont : Container) (resource : String) : Bool :=
  (cont.limits.lookup resource).isSome

/-- The state of a container. -/
structure ContainerStatus where
  name : String
  containerID : String
  deriving DecidableEq

/-- A pod, with the fields that the program uses. `annotations` is `none` for a nil map. -/
structure Pod where
  name : String
  ns : String
  uid : String
  resourceVersion : Nat
  annotations : Option (List (String × String))
  nodeName : String
  containers : List Container
  phase : String
  containerStatuses : List ContainerStatus
  deriving DecidableEq

/-- What identifies a stored pod. -/
def Pod.key (pod : Pod) : String × String := (pod.ns, pod.name)

/-- The value of an annotation. -/
def Pod.annotation (pod : Pod) (key : String) : Option String :=
  (pod.annotations.getD []).lookup key

/-- `pod.Annotations[key] = value`, on a map that is not nil. -/
def Pod.setAnnotation (pod : Pod) (key value : String) : Pod :=
  { pod with
    annotations := pod.annotations.map fun annotations =>
      (key, value) :: annotations.filter fun entry => entry.1 ≠ key }

/-- The sum of `Quantity.Value` over the containers' limits for a resource. -/
def limitTotal (resource : String) (containers : List Container) : Int64 :=
  (containers.map fun cont => (cont.limit resource).value).sum

/-- A member that is left out when its list is empty. -/
def omitNil {α : Type} (key : String) (items : List α) (json : List α → Json) :
    List (String × Json) :=
  if items.isEmpty then [] else [(key, json items)]

/-- Looking a key up behind such a member. -/
theorem lookup_omit_nil {α : Type} (key : String) (items : List α) (json : List α → Json)
    (other : String) (rest : List (String × Json)) :
    (omitNil key items json ++ rest).lookup other =
      if other = key then (if items.isEmpty then rest.lookup other else some (json items))
      else rest.lookup other := by
  unfold omitNil
  by_cases hitems : items.isEmpty
  · simp [hitems]
  · by_cases hkey : other = key
    · subst hkey
      simp [hitems]
    · have hbeq : (other == key) = false := by simpa using hkey
      simp [hkey, hitems, List.lookup, hbeq]

/-- Looking a key up in a single such member. -/
theorem lookup_omit_nil_last {α : Type} (key : String) (items : List α) (json : List α → Json)
    (other : String) :
    (omitNil key items json).lookup other =
      if other = key then (if items.isEmpty then none else some (json items)) else none := by
  simpa using lookup_omit_nil key items json other []

/-- The document of a resource list. -/
def resourceListJson (resources : ResourceList) : Json :=
  .object (resources.map fun (name, quantity) => (name, .string quantity.text))

/-- The document of a container. -/
def Container.toJson (cont : Container) : Json :=
  .object [("name", .string cont.name),
    ("resources", .object (omitNil "limits" cont.limits resourceListJson ++
      omitNil "requests" cont.requests resourceListJson))]

/-- The document of a container's state. -/
def ContainerStatus.toJson (status : ContainerStatus) : Json :=
  .object (("name", .string status.name) :: Json.omitEmpty "containerID" status.containerID)

/-- The document of annotations. -/
def annotationsJson (annotations : List (String × String)) : Json :=
  .object (annotations.map fun (key, value) => (key, .string value))

/-- The document of a pod. -/
def Pod.toJson (pod : Pod) : Json :=
  .object
    [("metadata", .object (Json.omitEmpty "name" pod.name ++ (Json.omitEmpty "namespace" pod.ns ++
        (Json.omitEmpty "uid" pod.uid ++ (("resourceVersion", .string pod.resourceVersion.repr) ::
          omitNil "annotations" (pod.annotations.getD []) annotationsJson))))),
      ("spec", .object (("containers", .array (pod.containers.map Container.toJson)) ::
        Json.omitEmpty "nodeName" pod.nodeName)),
      ("status", .object (Json.omitEmpty "phase" pod.phase ++
        omitNil "containerStatuses" pod.containerStatuses
          fun statuses => .array (statuses.map ContainerStatus.toJson)))]

/-! ## Names

The packages `pluginRegister` and `resourceManager` declare the same names in their `const.go`. -/

/-- `ResourceMemory` -/
def resourceMemory : String := "iscas.cn/gpu-memory"

/-- `ResourceCore` -/
def resourceCore : String := "iscas.cn/gpu-core"

/-- `MluResourceMemory` -/
def mluResourceMemory : String := "iscas.cn/mlu-memory"

/-- `MluResourceCore` -/
def mluResourceCore : String := "iscas.cn/mlu-core"

/-- `AnnAssignedFlag` -/
def annAssignedFlag : String := "doslab.io/gpu-assigned"

/-- `AnnVCUDAReady` -/
def annVCUDAReady : String := "doslab.io/vcuda"

/-- `VirtualManagerPath` -/
def virtualManagerPath : String := "/etc/unishare/vm"

/-! ## The stored pods -/

/-- The pods that the API server stores. -/
structure PodStore where
  items : List Pod
  keys_nodup : (items.map Pod.key).Nodup
  uids_nodup : (items.map Pod.uid).Nodup
  named : ∀ pod ∈ items, pod.name ≠ ""

/-- `GetResource("Pod", ns, name)`. -/
def PodStore.get (store : PodStore) (ns name : String) : Option Pod :=
  store.items.find? fun pod => pod.key = (ns, name)

/-- The stored object after an update by `pod`; the API server renews the resource version. -/
def renewPod (pod old : Pod) : Pod :=
  if old.key = pod.key ∧ old.uid = pod.uid then
    { pod with resourceVersion := old.resourceVersion + 1 }
  else old

@[simp] theorem renewPod_key (pod old : Pod) : (renewPod pod old).key = old.key := by
  unfold renewPod
  split
  · rename_i h
    exact h.1.symm
  · rfl

@[simp] theorem renewPod_uid (pod old : Pod) : (renewPod pod old).uid = old.uid := by
  unfold renewPod
  split
  · rename_i h
    exact h.2.symm
  · rfl

/-- `UpdateResource` of a pod: refused when no stored pod has its key, UID and resource version. -/
def PodStore.update (store : PodStore) (pod : Pod) : Option PodStore :=
  if store.items.any fun old =>
      old.key = pod.key ∧ old.uid = pod.uid ∧ old.resourceVersion = pod.resourceVersion
  then
    some
      { items := store.items.map (renewPod pod)
        keys_nodup := by
          rw [List.map_map, show Pod.key ∘ renewPod pod = Pod.key from funext (renewPod_key pod)]
          exact store.keys_nodup
        uids_nodup := by
          rw [List.map_map, show Pod.uid ∘ renewPod pod = Pod.uid from funext (renewPod_uid pod)]
          exact store.uids_nodup
        named := by
          intro next hnext
          obtain ⟨old, hold, rfl⟩ := List.mem_map.mp hnext
          have hkey := congrArg Prod.snd (renewPod_key pod old)
          exact fun hempty => store.named old hold (hkey.symm.trans hempty) }
  else none

/-- A fetched pod is stored, under the key it was asked for. -/
theorem PodStore.get_eq_some {store : PodStore} {ns name : String} {pod : Pod}
    (h : store.get ns name = some pod) : pod ∈ store.items ∧ pod.key = (ns, name) :=
  ⟨List.mem_of_find?_eq_some h, by simpa using List.find?_some h⟩

/-- Two stored pods of one key are the same pod. -/
theorem PodStore.eq_of_key (store : PodStore) {pod other : Pod} (hpod : pod ∈ store.items)
    (hother : other ∈ store.items) (hkey : pod.key = other.key) : pod = other :=
  List.inj_on_of_nodup_map store.keys_nodup hpod hother hkey

/-- Two stored pods of one UID are the same pod. -/
theorem PodStore.eq_of_uid (store : PodStore) {pod other : Pod} (hpod : pod ∈ store.items)
    (hother : other ∈ store.items) (huid : pod.uid = other.uid) : pod = other :=
  List.inj_on_of_nodup_map store.uids_nodup hpod hother huid

/-- Fetching a stored pod by its key. -/
theorem PodStore.get_of_mem (store : PodStore) {pod : Pod} (hpod : pod ∈ store.items) :
    store.get pod.ns pod.name = some pod := by
  cases hget : store.get pod.ns pod.name with
  | none =>
      have hnone := List.find?_eq_none.mp hget pod hpod
      simp [Pod.key] at hnone
  | some other =>
      obtain ⟨hother, hkey⟩ := PodStore.get_eq_some hget
      rw [store.eq_of_key hother hpod hkey]

/-- Writing back an annotated copy of a stored pod annotates the stored pod. -/
theorem PodStore.update_annotation (store : PodStore) {pod : Pod} (hpod : pod ∈ store.items)
    (key value : String) :
    ∃ next, store.update (pod.setAnnotation key value) = some next ∧
      next.items = store.items.map fun other =>
        if other.key = pod.key then
          { pod.setAnnotation key value with resourceVersion := pod.resourceVersion + 1 }
        else other := by
  have hany : (store.items.any fun old => old.key = (pod.setAnnotation key value).key ∧
      old.uid = (pod.setAnnotation key value).uid ∧
      old.resourceVersion = (pod.setAnnotation key value).resourceVersion) = true :=
    List.any_eq_true.mpr ⟨pod, hpod, by simp [Pod.setAnnotation, Pod.key]⟩
  unfold PodStore.update
  rw [if_pos hany]
  refine ⟨_, rfl, List.map_congr_left fun other hother => ?_⟩
  by_cases hkey : other.key = pod.key
  · obtain rfl := store.eq_of_key hother hpod hkey
    simp [renewPod, Pod.setAnnotation, Pod.key]
  · have hne : ¬ (other.key = (pod.setAnnotation key value).key ∧
        other.uid = (pod.setAnnotation key value).uid) := fun h => hkey h.1
    rw [renewPod, if_neg hne, if_neg hkey]

/-- The annotation that was set is read back. -/
theorem annotation_set_annotation {pod : Pod} (h : pod.annotations.isSome) (key value : String) :
    Pod.annotation (pod.setAnnotation key value) key = some value := by
  obtain ⟨annotations, hsome⟩ := Option.isSome_iff_exists.mp h
  simp [Pod.annotation, Pod.setAnnotation, hsome]

/-- Dropping the entries of another key does not change what a key is looked up to. -/
theorem lookup_filter_ne {key other : String} (hne : other ≠ key)
    (entries : List (String × String)) :
    (entries.filter fun entry => entry.1 ≠ key).lookup other = entries.lookup other := by
  induction entries with
  | nil => rfl
  | cons entry rest ih =>
      obtain ⟨name, value⟩ := entry
      by_cases hname : name = key
      · subst hname
        have hbeq : (other == name) = false := by simpa using hne
        rw [List.filter_cons_of_neg (by simp), ih, List.lookup, hbeq]
      · rw [List.filter_cons_of_pos (by simpa using hname), List.lookup, List.lookup, ih]

/-- The other annotations stay. -/
theorem annotation_set_annotation_of_ne {pod : Pod} {key other : String} (hne : other ≠ key)
    (value : String) :
    Pod.annotation (pod.setAnnotation key value) other = Pod.annotation pod other := by
  cases hannotations : pod.annotations with
  | none => simp [Pod.annotation, Pod.setAnnotation, hannotations]
  | some annotations =>
      have hbeq : (other == key) = false := by simpa using hne
      simp only [Pod.annotation, Pod.setAnnotation, hannotations, Option.map_some,
        Option.getD_some, List.lookup, hbeq]
      exact lookup_filter_ne hne annotations

end UniShare.Kube
