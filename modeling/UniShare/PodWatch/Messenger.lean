import UniShare.DeviceInfo.Gpu
import UniShare.Lib.FirstBelow

/-!
# Choosing and charging a GPU

After `podWatch/messenger.go`. `GpuStore` is the API server's collection of GPU resources: names
are unique and an update is refused when its resource version is stale. `getGpuResource` lists the
resources, picks one for a request, fetches it again, adds the request to its used amounts and
writes it back. `selectGpu` is its decision on a list; `select_gpu_eq_some_iff` says what it picks.
-/

namespace UniShare.PodWatch

open Lib DeviceInfo

/-- How a call of the plugin ends: with a value, with an error, or with the process. -/
inductive Outcome (α : Type) where
  | ok (value : α)
  | error (message : String)
  | exit (message : String)
  deriving DecidableEq, Repr

/-- The GPU resources that the API server stores. -/
structure GpuStore where
  items : List GPU
  names_nodup : (items.map GPU.name).Nodup
  named : ∀ gpu ∈ items, gpu.name ≠ ""

/-- `GetResource("GPU", "default", name)`. -/
def GpuStore.get (store : GpuStore) (name : String) : Option GPU :=
  store.items.find? fun gpu => gpu.name = name

/-- The stored object after an update by `data`; the API server renews the resource version. -/
def renew (data gpu : GPU) : GPU :=
  if gpu.name = data.name then { data with resourceVersion := gpu.resourceVersion + 1 } else gpu

@[simp] theorem renew_name (data gpu : GPU) : (renew data gpu).name = gpu.name := by
  unfold renew
  split
  · rename_i h
    exact h.symm
  · rfl

@[simp] theorem map_renew_name (data : GPU) (items : List GPU) :
    (items.map (renew data)).map GPU.name = items.map GPU.name := by
  simp [Function.comp_def]

/-- `UpdateResource`: refused when no object has the name and the resource version of `data`. -/
def GpuStore.update (store : GpuStore) (data : GPU) : Option GpuStore :=
  if store.items.any fun gpu => gpu.name = data.name ∧ gpu.resourceVersion = data.resourceVersion
  then
    some
      { items := store.items.map (renew data)
        names_nodup := by
          rw [map_renew_name]
          exact store.names_nodup
        named := by
          intro gpu hgpu
          obtain ⟨old, hold, rfl⟩ := List.mem_map.mp hgpu
          simpa using store.named old hold }
  else none

/-- What `GetGpuResource` keeps of a listed GPU. -/
structure GpuResource where
  uuid : String
  memTotal : Int64
  coreTotal : Int64
  memUsed : Int64
  coreUsed : Int64
  crdName : String
  deriving DecidableEq, Repr, Inhabited

/-- Which of the API calls of `GetGpuResource` the API server answers. -/
structure GpuCalls where
  list : Bool
  get : Bool
  update : Bool

/-- An API server that answers every call. -/
def GpuCalls.answered : GpuCalls := ⟨true, true, true⟩

section Selection

variable [Gjson]

/-- The entry of `gpudataList` for one listed object, field by field as the source has it. -/
def gpuresource (value : Json) : GpuResource where
  uuid := Gjson.string (Gjson.get (Gjson.get (some value) "spec") "uuid")
  memTotal := Gjson.int (Gjson.get (Gjson.get (Gjson.get (some value) "spec") "capacity") "core")
  coreTotal := Gjson.int (Gjson.get (Gjson.get (Gjson.get (some value) "spec") "capacity") "memory")
  memUsed := Gjson.int (Gjson.get (Gjson.get (Gjson.get (some value) "spec") "used") "core")
  coreUsed := Gjson.int (Gjson.get (Gjson.get (Gjson.get (some value) "spec") "used") "memory")
  crdName := Gjson.string (Gjson.get (Gjson.get (some value) "metadata") "name")

/-- The document that listing the GPU resources returns. -/
def gpuListJson (items : List GPU) : Json :=
  .object [("items", .array (items.map GPU.toJson))]

/-- `gpudataList` for a listed document. -/
def gpudataList (gpuJson : Json) : List GpuResource :=
  (Gjson.forEach (Gjson.get (some gpuJson) "items")).map gpuresource

/-- The feasibility test of a listed GPU. -/
def satisfies (podCoreReq podMemReq : Int64) (gpu : GpuResource) : Bool :=
  gpu.coreTotal - gpu.coreUsed ≥ podCoreReq && gpu.memTotal - gpu.memUsed ≥ podMemReq

/-- The amount by which listed GPUs are compared. -/
def freeSum (gpu : GpuResource) : Int64 :=
  gpu.coreTotal - gpu.coreUsed + gpu.memTotal - gpu.memUsed

/-- The start of the running minimum `sum`. -/
def sumStart : Int64 := 99999

/-- The indices of the GPUs that pass the feasibility test. -/
def statifyArr (podCoreReq podMemReq : Int64) (gpudataList : List GpuResource) : List Nat :=
  (List.range gpudataList.length).filter fun i =>
    satisfies podCoreReq podMemReq (gpudataList.getD i default)

/-- The index that the selection loop ends with; it starts at index `0`. -/
def candidata (gpudataList : List GpuResource) (statifyArr : List Nat) : Nat :=
  firstBelow (fun v => freeSum (gpudataList.getD v default)) sumStart 0 statifyArr

/-- The decision of `GetGpuResource` on a list, `none` when no GPU matches. -/
def selectGpu (podCoreReq podMemReq : Int64) (gpudataList : List GpuResource) :
    Option GpuResource :=
  if statifyArr podCoreReq podMemReq gpudataList = [] then none
  else some (gpudataList.getD
    (candidata gpudataList (statifyArr podCoreReq podMemReq gpudataList)) default)

/-- The fetched object with the request added to its used amounts. -/
def charge (podCoreReq podMemReq : Int64) (data : GPU) : GPU :=
  { data with
    spec :=
      { data.spec with
        used :=
          { core := formatInt (parseInt data.spec.used.core + podCoreReq)
            memory := formatInt (parseInt data.spec.used.memory + podMemReq) } } }

/-- `GetGpuResource`. When the fetch fails the source goes on with an empty object. -/
def getGpuResource (calls : GpuCalls) (store : GpuStore) (podCoreReq podMemReq : Int64) :
    Outcome String × GpuStore :=
  if calls.list then
    match selectGpu podCoreReq podMemReq (gpudataList (gpuListJson store.items)) with
    | none => (.error "no gpu match", store)
    | some gpu =>
        let data := ((if calls.get then store.get gpu.crdName else none)).getD default
        match (if calls.update then store.update (charge podCoreReq podMemReq data) else none) with
        | none => (.error "update crd failed", store)
        | some updated => (.ok gpu.uuid, updated)
  else (.exit "get gpu resource error", store)

end Selection

/-! ## The store -/

/-- Two stored objects of one name are the same object. -/
theorem GpuStore.eq_of_name (store : GpuStore) {gpu other : GPU} (hgpu : gpu ∈ store.items)
    (hother : other ∈ store.items) (hname : gpu.name = other.name) : gpu = other :=
  List.inj_on_of_nodup_map store.names_nodup hgpu hother hname

/-- Fetching a stored object by its name. -/
theorem GpuStore.get_of_mem (store : GpuStore) {gpu : GPU} (hgpu : gpu ∈ store.items) :
    store.get gpu.name = some gpu := by
  cases hget : store.get gpu.name with
  | none =>
      have hnone := List.find?_eq_none.mp hget gpu hgpu
      simp at hnone
  | some other =>
      have hother := List.mem_of_find?_eq_some hget
      have hname : other.name = gpu.name := by simpa using List.find?_some hget
      rw [store.eq_of_name hother hgpu hname]

/-- A fetched object is stored, under the name it was asked for. -/
theorem GpuStore.get_eq_some {store : GpuStore} {name : String} {gpu : GPU}
    (h : store.get name = some gpu) : gpu ∈ store.items ∧ gpu.name = name :=
  ⟨List.mem_of_find?_eq_some h, by simpa using List.find?_some h⟩

/-- A charged object as the API server stores it: the resource version is renewed. -/
def chargeNamed (name : String) (podCoreReq podMemReq : Int64) (gpu : GPU) : GPU :=
  if gpu.name = name then
    { charge podCoreReq podMemReq gpu with resourceVersion := gpu.resourceVersion + 1 }
  else gpu

@[simp] theorem chargeNamed_name (name : String) (podCoreReq podMemReq : Int64) (gpu : GPU) :
    (chargeNamed name podCoreReq podMemReq gpu).name = gpu.name := by
  unfold chargeNamed charge
  split <;> rfl

/-- The store with the resource of this name charged. -/
def GpuStore.charged (store : GpuStore) (name : String) (podCoreReq podMemReq : Int64) :
    GpuStore where
  items := store.items.map (chargeNamed name podCoreReq podMemReq)
  names_nodup := by
    rw [List.map_map, show GPU.name ∘ chargeNamed name podCoreReq podMemReq = GPU.name from
      funext (chargeNamed_name name podCoreReq podMemReq)]
    exact store.names_nodup
  named := by
    intro gpu hgpu
    obtain ⟨old, hold, rfl⟩ := List.mem_map.mp hgpu
    simpa using store.named old hold

@[ext] theorem GpuStore.ext {store other : GpuStore} (h : store.items = other.items) :
    store = other := by
  cases store
  cases other
  cases h
  rfl

/-- Writing back a charged copy of a stored object charges the stored object. -/
theorem GpuStore.update_charge (store : GpuStore) {gpu : GPU} (hgpu : gpu ∈ store.items)
    (podCoreReq podMemReq : Int64) :
    store.update (charge podCoreReq podMemReq gpu) =
      some (store.charged gpu.name podCoreReq podMemReq) := by
  have hany : (store.items.any fun other =>
      other.name = (charge podCoreReq podMemReq gpu).name ∧
        other.resourceVersion = (charge podCoreReq podMemReq gpu).resourceVersion) = true :=
    List.any_eq_true.mpr ⟨gpu, hgpu, by simp [charge]⟩
  rw [GpuStore.update, if_pos hany, Option.some.injEq]
  ext1
  apply List.map_congr_left
  intro other hother
  by_cases hname : other.name = gpu.name
  · obtain rfl := store.eq_of_name hother hgpu hname
    simp [renew, chargeNamed, charge]
  · simp [renew, chargeNamed, charge, hname]

/-- A charge replaces the resource that it names, and no other. -/
theorem mem_charged_iff {store : GpuStore} {gpu : GPU} (h : gpu ∈ store.items) (name : String)
    (podCoreReq podMemReq : Int64) :
    gpu ∈ (store.charged name podCoreReq podMemReq).items ↔ gpu.name ≠ name := by
  constructor
  · intro hmem hname
    obtain ⟨old, hold, hcharged⟩ := List.mem_map.mp hmem
    have hsame : old.name = gpu.name := by
      rw [← hcharged, chargeNamed_name]
    obtain rfl := store.eq_of_name hold h hsame
    have hversion := congrArg GPU.resourceVersion hcharged
    rw [chargeNamed, if_pos hname] at hversion
    exact Nat.succ_ne_self _ hversion
  · intro hname
    exact List.mem_map.mpr ⟨gpu, h, by rw [chargeNamed, if_neg hname]⟩

/-- Charging different GPUs yields different stores: the resource version of the charged GPU is
renewed. -/
theorem charged_name_inj {store : GpuStore} {gpu other : GPU} (hgpu : gpu ∈ store.items)
    {podCoreReq podMemReq : Int64}
    (heq : store.charged gpu.name podCoreReq podMemReq =
      store.charged other.name podCoreReq podMemReq) : gpu.name = other.name := by
  have hitems := congrArg GpuStore.items heq
  have hsame := List.map_inj_left.mp hitems gpu hgpu
  by_contra hne
  have hversion := congrArg GPU.resourceVersion hsame
  simp [chargeNamed, hne] at hversion

/-! ## What is read from a resource -/

/-- The number that `gjson` reads from a text field tagged `omitempty`. -/
def readInt [Gjson] (text : String) : Int64 :=
  Gjson.int (if text = "" then none else some (.string text))

section Reading

variable [Gjson]

/-- A formatted number is read back. -/
theorem read_int_format (n : Int64) : readInt (formatInt n) = n := by
  rw [readInt, if_neg (format_int_ne_empty n), Gjson.int_decimal]

/-- Reading an `omitempty` text field yields the text. -/
theorem string_omit_empty (text : String) :
    Gjson.string (if text = "" then none else some (.string text)) = text := by
  split
  · rename_i h
    rw [h, Gjson.string_none]
  · rw [Gjson.string_string]

/-- The entry read from a marshalled GPU, in terms of the GPU: the `mem` fields hold core amounts
and the `core` fields hold memory amounts. -/
theorem gpuresource_toJson (gpu : GPU) :
    gpuresource gpu.toJson =
      { uuid := gpu.spec.uuid
        memTotal := readInt gpu.spec.capacity.core
        coreTotal := readInt gpu.spec.capacity.memory
        memUsed := readInt gpu.spec.used.core
        coreUsed := readInt gpu.spec.used.memory
        crdName := gpu.name } := by
  simp +decide [gpuresource, GPU.toJson, GPUSpec.toJson, R.toJson, readInt, string_omit_empty,
    Gjson.get_key, Json.lookup_omit_empty, Json.lookup_omit_empty_last, List.lookup]

/-- The entry read from a listed GPU. -/
def entryOf (gpu : GPU) : GpuResource := gpuresource gpu.toJson

/-- Listing yields one entry for each stored GPU, in order. -/
theorem gpudata_list_json (items : List GPU) :
    gpudataList (gpuListJson items) = items.map entryOf := by
  simp +decide [gpudataList, gpuListJson, entryOf, Gjson.get_key]

omit [Gjson] in
/-- Deciding on the entries is the best-fit loop of the library. -/
theorem select_gpu_eq (podCoreReq podMemReq : Int64) (entries : List GpuResource) :
    selectGpu podCoreReq podMemReq entries =
      bestFit (satisfies podCoreReq podMemReq) freeSum sumStart entries := by
  have hhead : (List.range entries.length).headD 0 = 0 := by
    cases entries <;> simp [List.range_succ_eq_map]
  rw [best_fit_indices _ _ _ _ default, best_fit_eq_ite _ _ _ _ 0, hhead, selectGpu, candidata,
    statifyArr]
  split <;> rfl

/-- The GPU that the source's rule picks among the stored ones: the first of least free sum among
those that pass its feasibility test, or the head of the list when all of these reach the start
of the running minimum. -/
def Selected (podCoreReq podMemReq : Int64) (items : List GPU) (gpu : GPU) : Prop :=
  BestFit (fun other => satisfies podCoreReq podMemReq (entryOf other))
    (fun other => freeSum (entryOf other)) sumStart items gpu

/-- A selected GPU is stored. -/
theorem Selected.mem {podCoreReq podMemReq : Int64} {items : List GPU} {gpu : GPU}
    (h : Selected podCoreReq podMemReq items gpu) : gpu ∈ items :=
  BestFit.mem h

/-- When a GPU is selected, some GPU passes the feasibility test. -/
theorem Selected.passes {podCoreReq podMemReq : Int64} {items : List GPU} {gpu : GPU}
    (h : Selected podCoreReq podMemReq items gpu) :
    ∃ other ∈ items, satisfies podCoreReq podMemReq (entryOf other) :=
  BestFit.passes h

/-- The decision on the stored GPUs is the entry of the selected one. -/
theorem select_gpu_map (podCoreReq podMemReq : Int64) (items : List GPU) :
    selectGpu podCoreReq podMemReq (gpudataList (gpuListJson items)) =
      (bestFit (fun gpu => satisfies podCoreReq podMemReq (entryOf gpu))
        (fun gpu => freeSum (entryOf gpu)) sumStart items).map entryOf := by
  rw [gpudata_list_json, select_gpu_eq, best_fit_map]

/-- At most one GPU is selected. -/
theorem Selected.unique {podCoreReq podMemReq : Int64} {items : List GPU} {gpu other : GPU}
    (h : Selected podCoreReq podMemReq items gpu)
    (hother : Selected podCoreReq podMemReq items other) : gpu = other :=
  Option.some.inj ((best_fit_eq_some_iff.mpr h).symm.trans (best_fit_eq_some_iff.mpr hother))

/-- The decision, when no GPU passes the feasibility test. -/
theorem select_gpu_eq_none_iff {podCoreReq podMemReq : Int64} {items : List GPU} :
    selectGpu podCoreReq podMemReq (gpudataList (gpuListJson items)) = none ↔
      ∀ gpu ∈ items, ¬ satisfies podCoreReq podMemReq (entryOf gpu) := by
  rw [select_gpu_map, Option.map_eq_none_iff, best_fit_eq_none_iff]

/-- The decision, when some GPU passes the feasibility test. -/
theorem select_gpu_eq_some_iff {podCoreReq podMemReq : Int64} {items : List GPU}
    {entry : GpuResource} :
    selectGpu podCoreReq podMemReq (gpudataList (gpuListJson items)) = some entry ↔
      ∃ gpu, Selected podCoreReq podMemReq items gpu ∧ entryOf gpu = entry := by
  rw [select_gpu_map, Option.map_eq_some_iff]
  simp only [best_fit_eq_some_iff]
  rfl

/-- A call that the API server answers throughout returns the selected GPU's UUID and charges that
GPU, or fails without a change when no GPU passes. -/
theorem get_gpu_resource_answered (store : GpuStore) (podCoreReq podMemReq : Int64) :
    (∃ gpu, Selected podCoreReq podMemReq store.items gpu ∧
      getGpuResource .answered store podCoreReq podMemReq =
        (.ok gpu.spec.uuid, store.charged gpu.name podCoreReq podMemReq)) ∨
    (∀ gpu ∈ store.items, ¬ satisfies podCoreReq podMemReq (entryOf gpu)) ∧
      getGpuResource .answered store podCoreReq podMemReq = (.error "no gpu match", store) := by
  cases hselect : selectGpu podCoreReq podMemReq (gpudataList (gpuListJson store.items)) with
  | none =>
      right
      exact ⟨select_gpu_eq_none_iff.mp hselect,
        by simp [getGpuResource, GpuCalls.answered, hselect]⟩
  | some entry =>
      left
      obtain ⟨gpu, hgpu, rfl⟩ := select_gpu_eq_some_iff.mp hselect
      refine ⟨gpu, hgpu, ?_⟩
      have hentry : (entryOf gpu).crdName = gpu.name ∧ (entryOf gpu).uuid = gpu.spec.uuid := by
        simp [entryOf, gpuresource_toJson]
      simp only [getGpuResource, GpuCalls.answered, hselect, if_true, hentry,
        store.get_of_mem hgpu.mem, Option.getD_some, store.update_charge hgpu.mem]

omit [Gjson] in
/-- The empty object that a failed fetch leaves is refused: nothing is stored under an empty
name. -/
theorem GpuStore.update_default (store : GpuStore) (podCoreReq podMemReq : Int64) :
    store.update (charge podCoreReq podMemReq default) = none := by
  unfold GpuStore.update
  rw [if_neg]
  intro hany
  obtain ⟨other, hother, hmatch⟩ := List.any_eq_true.mp hany
  exact store.named other hother (of_decide_eq_true hmatch).1

/-- A call that succeeds was answered throughout. -/
theorem calls_answered_of_ok {calls : GpuCalls} {store after : GpuStore}
    {podCoreReq podMemReq : Int64} {uuid : String}
    (h : getGpuResource calls store podCoreReq podMemReq = (.ok uuid, after)) :
    calls = .answered := by
  obtain ⟨list, get, update⟩ := calls
  simp only [getGpuResource] at h
  cases list with
  | false => cases h
  | true =>
      rw [if_pos rfl] at h
      split at h
      · cases h
      · cases update with
        | false => cases h
        | true =>
            cases get with
            | false =>
                simp only [if_true, Bool.false_eq_true, if_false, Option.getD_none,
                  store.update_default] at h
                cases h
            | true => rfl

/-- A call that succeeds returns the selected GPU's UUID and charges that GPU. -/
theorem get_gpu_resource_ok {calls : GpuCalls} {store after : GpuStore}
    {podCoreReq podMemReq : Int64} {uuid : String}
    (h : getGpuResource calls store podCoreReq podMemReq = (.ok uuid, after)) :
    ∃ gpu, Selected podCoreReq podMemReq store.items gpu ∧ gpu.spec.uuid = uuid ∧
      after = store.charged gpu.name podCoreReq podMemReq := by
  obtain rfl := calls_answered_of_ok h
  rcases get_gpu_resource_answered store podCoreReq podMemReq with ⟨gpu, hgpu, hcall⟩ | ⟨-, hcall⟩
  · obtain ⟨huuid, hafter⟩ := Prod.mk.inj (hcall.symm.trans h)
    exact ⟨gpu, hgpu, Outcome.ok.inj huuid, hafter.symm⟩
  · cases hcall.symm.trans h

/-- A call that does not succeed leaves the store as it was. -/
theorem get_gpu_resource_failed {calls : GpuCalls} {store : GpuStore}
    {podCoreReq podMemReq : Int64}
    (h : ∀ uuid, (getGpuResource calls store podCoreReq podMemReq).1 ≠ .ok uuid) :
    (getGpuResource calls store podCoreReq podMemReq).2 = store := by
  simp only [getGpuResource] at h ⊢
  split
  · rename_i hlist
    simp only [hlist, if_true] at h
    split
    · rfl
    · rename_i gpu hselect
      simp only [hselect] at h
      split
      · rfl
      · rename_i updated hupdate
        simp only [hupdate] at h
        exact absurd rfl (h _)
  · rfl

end Reading

/-- A card with 100 cores and 64 memory blocks, as `CreateCRD` registers it. -/
def freshCard : GPU where
  kind := "GPU"
  apiVersion := "doslab.io/v1"
  name := "n1-gpu-0"
  ns := "default"
  resourceVersion := 1
  spec :=
    { uuid := "GPU-0"
      model := "ff"
      family := "tesla"
      capacity := ⟨"100", "64"⟩
      used := ⟨"0", "0"⟩
      node := "n1" }

/-- A cluster with a single fresh card. -/
def freshStore : GpuStore where
  items := [freshCard]
  names_nodup := by decide
  named := by decide

end UniShare.PodWatch
