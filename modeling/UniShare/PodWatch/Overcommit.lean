import UniShare.PodWatch.Messenger
import UniShare.Lib.Execution

/-!
# Commitments and capacities

Runs of `getGpuResource` calls, one after another, against the accounting invariant
`WithinCapacity`. The feasibility test reads a card's memory amounts where it means core amounts
and the other way round (`satisfies_iff`), while the charge uses each amount for its own resource.
`no_overcommit_iff` is the exact condition under which a run keeps the invariant.
-/

namespace UniShare.PodWatch

open Lib DeviceInfo

/-- A request for core and memory of a card. Kubernetes admits no negative limit. -/
structure Request where
  core : Int64
  memory : Int64
  core_nonneg : 0 ≤ core
  memory_nonneg : 0 ≤ memory

/-- Every GPU is within its capacity. -/
def Accounted (store : GpuStore) : Prop :=
  ∀ gpu ∈ store.items, gpu.WithinCapacity

instance (store : GpuStore) : Decidable (Accounted store) :=
  inferInstanceAs (Decidable (∀ gpu ∈ store.items, gpu.WithinCapacity))

/-- The core amount of a GPU that is not used. -/
def freeCore (gpu : GPU) : Int64 :=
  gpu.spec.capacity.coreAmount - gpu.spec.used.coreAmount

/-- The memory amount of a GPU that is not used. -/
def freeMemory (gpu : GPU) : Int64 :=
  gpu.spec.capacity.memoryAmount - gpu.spec.used.memoryAmount

/-- The GPU's own free amounts cover the request. -/
def Covers (request : Request) (gpu : GPU) : Prop :=
  request.core ≤ freeCore gpu ∧ request.memory ≤ freeMemory gpu

instance (request : Request) (gpu : GPU) : Decidable (Covers request gpu) :=
  inferInstanceAs (Decidable (_ ∧ _))

variable [Gjson]

/-- One call, as a step on the store. -/
def callStep (store : GpuStore) (request : Request) : Option GpuStore :=
  some (getGpuResource .answered store request.core request.memory).2

/-- The call charges this GPU. -/
def Charges (store : GpuStore) (request : Request) (gpu : GPU) : Prop :=
  gpu ∈ store.items ∧
    callStep store request = some (store.charged gpu.name request.core request.memory)

/-- The guarantee for a run of calls: in every state each GPU is within its capacity, and a call
charges a GPU only when that GPU's own free amounts cover the request. -/
def NoOvercommit (store : GpuStore) (requests : List Request) : Prop :=
  Always callStep Accounted store requests ∧
    Along callStep (fun state request => ∀ gpu, Charges state request gpu → Covers request gpu)
      store requests

/-- The state before a call is safe for the request when the GPU that the rule singles out has
enough of both amounts of its own. -/
def SelectionCovers (store : GpuStore) (request : Request) : Prop :=
  ∀ gpu, Selected request.core request.memory store.items gpu → Covers request gpu

/-- The number read from the core text of decimal amounts. -/
theorem read_core {r : R} (h : r.Decimal) : readInt r.core = r.coreAmount := by
  rw [h.1, read_int_format]

/-- The number read from the memory text of decimal amounts. -/
theorem read_memory {r : R} (h : r.Decimal) : readInt r.memory = r.memoryAmount := by
  rw [h.2, read_int_format]

/-- The feasibility test compares the core request with the free memory and the memory request
with the free core. -/
theorem satisfies_iff {gpu : GPU} (h : gpu.WithinCapacity) (request : Request) :
    satisfies request.core request.memory (entryOf gpu) ↔
      request.core ≤ freeMemory gpu ∧ request.memory ≤ freeCore gpu := by
  simp [satisfies, entryOf, gpuresource_toJson, read_core h.capacity_decimal,
    read_memory h.capacity_decimal, read_core h.used_decimal, read_memory h.used_decimal,
    freeCore, freeMemory]

omit [Gjson] in
/-- Charging a GPU within its capacity keeps it there exactly when its free amounts cover the
request. -/
theorem charge_named_within_iff {gpu : GPU} (h : gpu.WithinCapacity) (request : Request) :
    (chargeNamed gpu.name request.core request.memory gpu).WithinCapacity ↔
      Covers request gpu := by
  have hcore := request.core_nonneg
  have hmemory := request.memory_nonneg
  have hused : (chargeNamed gpu.name request.core request.memory gpu).spec.used =
      R.ofAmounts (gpu.spec.used.coreAmount + request.core)
        (gpu.spec.used.memoryAmount + request.memory) := by
    simp [chargeNamed, charge, R.ofAmounts, R.coreAmount, R.memoryAmount]
  have hcapacity : (chargeNamed gpu.name request.core request.memory gpu).spec.capacity =
      gpu.spec.capacity := by
    simp [chargeNamed, charge]
  obtain ⟨hcapacityDecimal, _, hcore0, hcore1, hmemory0, hmemory1⟩ := h
  constructor
  · rintro ⟨-, -, hnonneg, hle, hnonneg', hle'⟩
    rw [hused, R.coreAmount_ofAmounts] at hnonneg hle
    rw [hused, R.memoryAmount_ofAmounts] at hnonneg' hle'
    rw [hcapacity] at hle hle'
    unfold Covers freeCore freeMemory
    constructor <;> grind
  · rintro ⟨hfit, hfit'⟩
    unfold freeCore at hfit
    unfold freeMemory at hfit'
    constructor
    · rw [hcapacity]
      exact hcapacityDecimal
    · rw [hused]
      exact R.decimal_ofAmounts _ _
    · rw [hused, R.coreAmount_ofAmounts]
      grind
    · rw [hused, hcapacity, R.coreAmount_ofAmounts]
      grind
    · rw [hused, R.memoryAmount_ofAmounts]
      grind
    · rw [hused, hcapacity, R.memoryAmount_ofAmounts]
      grind

omit [Gjson] in
/-- Charging one GPU of an accounted store keeps it accounted exactly when that GPU's free amounts
cover the request. -/
theorem charged_accounted_iff {store : GpuStore} (h : Accounted store) {gpu : GPU}
    (hgpu : gpu ∈ store.items) (request : Request) :
    Accounted (store.charged gpu.name request.core request.memory) ↔ Covers request gpu := by
  rw [← charge_named_within_iff (h gpu hgpu)]
  constructor
  · intro hall
    exact hall _ (List.mem_map.mpr ⟨gpu, hgpu, rfl⟩)
  · intro hwithin other hother
    obtain ⟨old, hold, rfl⟩ := List.mem_map.mp hother
    by_cases hname : old.name = gpu.name
    · obtain rfl := store.eq_of_name hold hgpu hname
      exact hwithin
    · rw [chargeNamed, if_neg hname]
      exact h old hold

/-- A call charges exactly the selected GPU. -/
theorem charges_iff {store : GpuStore} {request : Request} {gpu : GPU} :
    Charges store request gpu ↔ Selected request.core request.memory store.items gpu := by
  rcases get_gpu_resource_answered store request.core request.memory with
    ⟨chosen, hchosen, hcall⟩ | ⟨hnone, hcall⟩
  · simp only [Charges, callStep, hcall, Option.some.injEq]
    constructor
    · rintro ⟨hgpu, heq⟩
      have hname := charged_name_inj hchosen.mem heq
      rw [← store.eq_of_name hchosen.mem hgpu hname]
      exact hchosen
    · intro hgpu
      rw [hchosen.unique hgpu]
      exact ⟨hgpu.mem, rfl⟩
  · simp only [Charges, callStep, hcall, Option.some.injEq]
    constructor
    · rintro ⟨hgpu, heq⟩
      have hitems := congrArg GpuStore.items heq
      have hsame := List.map_inj_left.mp ((List.map_id _).trans hitems) gpu hgpu
      have hversion := congrArg GPU.resourceVersion hsame
      simp [chargeNamed] at hversion
    · intro hgpu
      obtain ⟨other, hother, hok⟩ := hgpu.passes
      exact absurd hok (hnone other hother)

/-- After a call from an accounted store, the store is accounted exactly when the selected GPU, if
any, covers the request. -/
theorem call_step_accounted_iff {store next : GpuStore} {request : Request}
    (h : Accounted store) (hstep : callStep store request = some next) :
    Accounted next ↔ SelectionCovers store request := by
  rcases get_gpu_resource_answered store request.core request.memory with
    ⟨gpu, hgpu, hcall⟩ | ⟨hnone, hcall⟩
  · simp only [callStep, hcall, Option.some.injEq] at hstep
    subst hstep
    rw [charged_accounted_iff h hgpu.mem]
    exact ⟨fun hcovers other hother => hgpu.unique hother ▸ hcovers, fun hall => hall gpu hgpu⟩
  · simp only [callStep, hcall, Option.some.injEq] at hstep
    subst hstep
    refine ⟨fun _ gpu hgpu => ?_, fun _ => h⟩
    obtain ⟨other, hother, hok⟩ := hgpu.passes
    exact absurd hok (hnone other hother)

/-- A run of calls from an accounted store overcommits no GPU exactly when in every state before a
call the GPU that the crossed rule selects has enough of both amounts of its own. -/
theorem no_overcommit_iff (store : GpuStore) (requests : List Request) (h : Accounted store) :
    NoOvercommit store requests ↔ Along callStep SelectionCovers store requests := by
  have hstates : Always callStep Accounted store requests ↔
      Along callStep SelectionCovers store requests :=
    always_iff_along (fun _ _ _ _ _ => trivial)
      (fun state request next (_ : True) hgood hstep => call_step_accounted_iff hgood hstep)
      requests trivial h
  have hcharges : Along callStep
      (fun state request => ∀ gpu, Charges state request gpu → Covers request gpu) store requests ↔
      Along callStep SelectionCovers store requests :=
    Along.congr (fun state request => forall_congr' fun gpu => imp_congr_left charges_iff)
      store requests
  rw [NoOvercommit, hstates, hcharges, and_self]

omit [Gjson] in
/-- The fresh card is within its capacity. -/
theorem fresh_store_accounted : Accounted freshStore := by decide

/-- A call is safe when the card of the decision's entry has enough. -/
theorem selection_covers_of_entry {store : GpuStore} {request : Request}
    (h : ∀ entry ∈ selectGpu request.core request.memory (gpudataList (gpuListJson store.items)),
      ∀ gpu ∈ store.items, entryOf gpu = entry → Covers request gpu) :
    SelectionCovers store request :=
  fun gpu hgpu => h (entryOf gpu) (select_gpu_eq_some_iff.mpr ⟨gpu, hgpu, rfl⟩) gpu hgpu.mem rfl

/-- A fresh card and one that is partly used. -/
def partlyUsedStore : GpuStore where
  items :=
    [freshCard,
      { freshCard with
        name := "n1-gpu-1"
        spec := { freshCard.spec with uuid := "GPU-1", used := ⟨"40", "10"⟩ } }]
  names_nodup := by decide
  named := by decide

/-- Three requests. -/
def threeRequests : List Request :=
  [⟨15, 20, by decide, by decide⟩, ⟨30, 15, by decide, by decide⟩, ⟨20, 30, by decide, by decide⟩]

omit [Gjson] in
/-- The first two requests go to the partly used card, the third, which no longer fits there, to the
fresh one, and each is covered where it goes. -/
theorem no_overcommit_three :
    letI := Gjson.reader
    (exec callStep partlyUsedStore threeRequests).map (fun store =>
        store.items.map fun gpu => (gpu.spec.used.core, gpu.spec.used.memory)) =
      some [("20", "30"), ("85", "45")] ∧
    Along callStep SelectionCovers partlyUsedStore threeRequests ∧
    NoOvercommit partlyUsedStore threeRequests := by
  let reader := Gjson.reader
  have hentries : Along callStep (fun store request =>
      ∀ entry ∈ selectGpu request.core request.memory (gpudataList (gpuListJson store.items)),
        ∀ gpu ∈ store.items, entryOf gpu = entry → Covers request gpu)
      partlyUsedStore threeRequests := by
    decide +kernel
  have hcovers : Along callStep SelectionCovers partlyUsedStore threeRequests :=
    along_of_invariant (fun _ _ _ (_ : True) _ _ => trivial)
      (fun _ _ _ _ h _ => selection_covers_of_entry h) trivial hentries
  have haccounted : Accounted partlyUsedStore := by decide
  exact ⟨by decide +kernel, hcovers, (no_overcommit_iff partlyUsedStore _ haccounted).mpr hcovers⟩

omit [Gjson] in
/-- Ten cores and eighty memory blocks are granted on a card of 64 blocks, since 80 is at most the
100 free cores and 10 at most the 64 free blocks. -/
theorem overcommit_counterexample :
    letI := Gjson.reader
    ¬ ∀ store requests, Accounted store → NoOvercommit store requests := by
  intro h
  let reader := Gjson.reader
  have hrun := h freshStore [⟨10, 80, by decide, by decide⟩] fresh_store_accounted
  have hlast : Accounted (getGpuResource .answered freshStore 10 80).2 := hrun.1.2 _ rfl
  exact absurd hlast (by decide)

end UniShare.PodWatch
