import UniShare.ResourceManager.Manager
import UniShare.PluginRegister.Vcore

/-!
# What a pod requests, as the manager and the allocator read it

`creatVcudaServer` reads a pod's limits through paths into its document and parses their texts;
`Allocate` reads the same limits as quantities. `requests_agree_when` says when the stored totals are
the sums of the limits, and the totals of `Allocate`.
-/

namespace UniShare.ResourceManager

open Lib Kube PluginRegister

/-- The kinds of accelerator that a pod may ask for. -/
inductive Accelerator where
  | gpu
  | mlu
  deriving DecidableEq, Repr

/-- The core resource of the kind. -/
def Accelerator.core : Accelerator → String
  | .gpu => resourceCore
  | .mlu => mluResourceCore

/-- The memory resource of the kind. -/
def Accelerator.memory : Accelerator → String
  | .gpu => resourceMemory
  | .mlu => mluResourceMemory

/-- The pod has limits of this kind only; a GPU pod is read the same whatever else it has. -/
def Accelerator.Only (kind : Accelerator) (pod : Pod) : Prop :=
  kind = .mlu → ∀ cont ∈ pod.containers,
    cont.hasLimit resourceCore = false ∧ cont.hasLimit resourceMemory = false

/-- The integer sum of the containers' limits for a resource. -/
def limitSum (resource : String) (containers : List Container) : Int :=
  (containers.map fun cont => (cont.limit resource).value.toInt).sum

/-- The maps after `creatVcudaServer` has stored the totals of the pod. -/
def storedTotals [Gjson] (vm : VirtualManager) (pod : Pod) : VirtualManager :=
  vm.storeRequests (podUID pod.toJson) (requestTotals pod.toJson)

/-- The stored totals are the integer sums of the pod's limits, and for a GPU pod `Allocate`
computes the same. -/
structure RequestsAgree [Gjson] (kind : Accelerator) (vm : VirtualManager) (pod : Pod) : Prop where
  core : ∃ total, (storedTotals vm pod).coreRequestByPodUID pod.uid = some total ∧
    total.toInt = limitSum kind.core pod.containers
  memory : ∃ total, (storedTotals vm pod).memoryRequestByPodUID pod.uid = some total ∧
    total.toInt = limitSum kind.memory pod.containers
  allocate_core : kind = .gpu → (requestCore pod).toInt = limitSum resourceCore pod.containers
  allocate_memory : kind = .gpu →
    (requestMem pod).toInt = limitSum resourceMemory pod.containers

/-- The core limit of a container is read as it is meant. Only plain decimal texts are read, and
only for GPUs. -/
def Accelerator.CoreRead (cont : Container) : Accelerator → Prop
  | .gpu => IsDecimal (cont.limit resourceCore).text ∨ (cont.limit resourceCore).value = 0
  | .mlu => (cont.limit mluResourceCore).value = 0

/-- The pods whose limits the manager reads as they are meant: their core limits are decimal texts
or zero, the sum of these fits, and every memory limit is zero. -/
structure ReadAsMeant (kind : Accelerator) (pod : Pod) : Prop where
  core : ∀ cont ∈ pod.containers, kind.CoreRead cont
  fits : limitSum kind.core pod.containers < 2 ^ 63
  memory : ∀ cont ∈ pod.containers, (cont.limit kind.memory).value = 0

/-- No core limit that is not a decimal text starts with digits that leave the 64-bit range. -/
def InRange (pod : Pod) : Prop :=
  ∀ cont ∈ pod.containers, IsDecimal (cont.limit resourceCore).text ∨
    scanText (cont.limit resourceCore).text ≠ .outOfRange

/-- What the integer parser reads from a quantity's text, in range, is at most its value. -/
theorem parse_le_value (quantity : Quantity)
    (h : IsDecimal quantity.text ∨ scanText quantity.text ≠ .outOfRange) :
    0 ≤ parseInt quantity.text ∧ parseInt quantity.text ≤ quantity.value ∧
      (parseInt quantity.text = quantity.value → IsDecimal quantity.text ∨ quantity.value = 0) := by
  have hnonneg := quantity.nonneg
  by_cases hdecimal : IsDecimal quantity.text
  · rw [← quantity.decimal hdecimal]
    exact ⟨hnonneg, le_refl _, fun _ => .inl hdecimal⟩
  · rw [parse_int_not_decimal hdecimal (h.resolve_left hdecimal)]
    exact ⟨le_refl _, hnonneg, fun heq => .inr heq.symm⟩

/-- A quantity that is a decimal text, or zero, is read as its value. -/
theorem parse_eq_value {quantity : Quantity}
    (h : IsDecimal quantity.text ∨ quantity.value = 0) :
    parseInt quantity.text = quantity.value := by
  rcases h with hdecimal | hzero
  · exact (quantity.decimal hdecimal).symm
  · rw [hzero, quantity.zero hzero]

/-- The sum of limits is not negative. -/
theorem limitSum_nonneg (resource : String) (containers : List Container) :
    0 ≤ limitSum resource containers := by
  apply List.sum_nonneg
  intro value hvalue
  obtain ⟨cont, -, rfl⟩ := List.mem_map.mp hvalue
  exact Int64.le_iff_toInt_le.mp (cont.limit resource).nonneg

/-- The sum of limits is zero exactly when every limit is. -/
theorem limitSum_eq_zero_iff {resource : String} {containers : List Container} :
    limitSum resource containers = 0 ↔ ∀ cont ∈ containers, (cont.limit resource).value = 0 := by
  constructor
  · intro hsum cont hcont
    have hzero : (containers.map fun _ => (0 : Int)).sum =
        (containers.map fun cont => (cont.limit resource).value.toInt).sum := by
      simpa [limitSum] using hsum.symm
    have heq := eq_of_sum_eq
      (fun cont _ => Int64.le_iff_toInt_le.mp (cont.limit resource).nonneg) hzero cont hcont
    exact Int64.toInt_inj.mp heq.symm
  · intro hzero
    have hmap : (containers.map fun cont => (cont.limit resource).value.toInt) =
        containers.map fun _ => (0 : Int) :=
      List.map_congr_left fun cont hcont => by rw [hzero cont hcont]; rfl
    rw [limitSum, hmap]
    simp

/-- When the sum of limits fits, the wrapping total of the values is that sum. -/
theorem limitTotal_toInt {resource : String} {containers : List Container}
    (h : limitSum resource containers < 2 ^ 63) :
    (limitTotal resource containers).toInt = limitSum resource containers := by
  have hmap : (containers.map fun cont => (cont.limit resource).value).map Int64.toInt =
      containers.map fun cont => (cont.limit resource).value.toInt := by
    rw [List.map_map]
    rfl
  rw [limitTotal, toInt_sum_of_lt, hmap, limitSum]
  · intro term hterm
    obtain ⟨cont, -, rfl⟩ := List.mem_map.mp hterm
    exact (cont.limit resource).nonneg
  · rw [hmap]
    exact h

/-- The stored core total of a pod. -/
theorem stored_core [Gjson] (vm : VirtualManager) (pod : Pod) :
    (storedTotals vm pod).coreRequestByPodUID pod.uid = some (parsedCore pod.containers) := by
  simp [storedTotals, VirtualManager.storeRequests, podUID_toJson, requestTotals_toJson]

/-- The stored memory total of a pod is zero. -/
theorem stored_memory [Gjson] (vm : VirtualManager) (pod : Pod) :
    (storedTotals vm pod).memoryRequestByPodUID pod.uid = some 0 := by
  simp [storedTotals, VirtualManager.storeRequests, podUID_toJson, requestTotals_toJson]

/-- The core total of containers without a core limit is zero. -/
theorem parsed_core_mlu {containers : List Container}
    (h : ∀ cont ∈ containers, cont.hasLimit resourceCore = false) :
    parsedCore containers = 0 := by
  induction containers with
  | nil => rfl
  | cons cont rest ih =>
      have hnone : cont.limits.lookup resourceCore = none := by
        simpa [Container.hasLimit] using h cont (by simp)
      have hzero : parseInt (cont.limit resourceCore).text = 0 := by
        rw [Container.limit, hnone]
        decide
      have hrest := ih fun other hother => h other (by simp [hother])
      rw [parsedCore] at hrest
      rw [parsedCore, List.map_cons, List.sum_cons, hzero, hrest]
      rfl

/-- In range, the core total of a pod is the sum of its core limits exactly when that fits and
every core limit is read as it is meant. -/
theorem parsed_core_iff {pod : Pod} (hrange : InRange pod) :
    (parsedCore pod.containers).toInt = limitSum resourceCore pod.containers ↔
      (∀ cont ∈ pod.containers, Accelerator.gpu.CoreRead cont) ∧
        limitSum resourceCore pod.containers < 2 ^ 63 := by
  have hread := fun (cont : Container) (hcont : cont ∈ pod.containers) =>
    parse_le_value (cont.limit resourceCore) (hrange cont hcont)
  have hmap : (pod.containers.map fun cont => parseInt (cont.limit resourceCore).text).map
      Int64.toInt =
        pod.containers.map fun cont => (parseInt (cont.limit resourceCore).text).toInt := by
    rw [List.map_map]
    rfl
  have hle : ∀ cont ∈ pod.containers, (parseInt (cont.limit resourceCore).text).toInt ≤
      (cont.limit resourceCore).value.toInt :=
    fun cont hcont => Int64.le_iff_toInt_le.mp (hread cont hcont).2.1
  have hsum : limitSum resourceCore pod.containers < 2 ^ 63 →
      (parsedCore pod.containers).toInt =
        (pod.containers.map fun cont => (parseInt (cont.limit resourceCore).text).toInt).sum := by
    intro hfits
    rw [parsedCore, toInt_sum_of_lt, hmap]
    · intro term hterm
      obtain ⟨cont, hcont, rfl⟩ := List.mem_map.mp hterm
      exact (hread cont hcont).1
    · rw [hmap]
      exact lt_of_le_of_lt (List.sum_le_sum hle) hfits
  constructor
  · intro hagree
    have hfits : limitSum resourceCore pod.containers < 2 ^ 63 :=
      lt_of_eq_of_lt hagree.symm (Int64.toInt_lt _)
    -- a sum of smaller terms that is as large has equal terms
    have heq := eq_of_sum_eq hle ((hsum hfits).symm.trans hagree)
    exact ⟨fun cont hcont => (hread cont hcont).2.2 (Int64.toInt_inj.mp (heq cont hcont)), hfits⟩
  · rintro ⟨hcore, hfits⟩
    rw [hsum hfits, limitSum]
    congr 1
    exact List.map_congr_left fun cont hcont => by rw [parse_eq_value (hcore cont hcont)]

/-- What is read from core limits that are read as they are meant is their wrapping total. -/
theorem parsed_core_eq_total {containers : List Container}
    (h : ∀ cont ∈ containers, Accelerator.gpu.CoreRead cont) :
    parsedCore containers = limitTotal resourceCore containers := by
  rw [parsedCore, limitTotal]
  congr 1
  exact List.map_congr_left fun cont hcont => parse_eq_value (h cont hcont)

/-- For a GPU pod whose limits are read as they are meant, the totals agree. -/
theorem ReadAsMeant.requests_agree [Gjson] {pod : Pod} (h : ReadAsMeant .gpu pod)
    (vm : VirtualManager) : RequestsAgree .gpu vm pod := by
  have hzero := limitSum_eq_zero_iff.mpr h.memory
  have hfits : limitSum resourceMemory pod.containers < 2 ^ 63 := by
    rw [show limitSum resourceMemory pod.containers = 0 from hzero]
    decide
  refine ⟨⟨_, stored_core vm pod, ?_⟩, ⟨0, stored_memory vm pod, hzero.symm⟩,
    fun _ => limitTotal_toInt h.fits, fun _ => limitTotal_toInt hfits⟩
  rw [parsed_core_eq_total h.core]
  exact limitTotal_toInt h.fits

/-- In range, the totals of a GPU pod agree only when its limits are read as they are meant. -/
theorem RequestsAgree.read_as_meant [Gjson] {vm : VirtualManager} {pod : Pod}
    (h : RequestsAgree .gpu vm pod) (hrange : InRange pod) : ReadAsMeant .gpu pod := by
  obtain ⟨⟨core, hcore, hcoreSum⟩, ⟨memory, hmemory, hmemorySum⟩, -, -⟩ := h
  rw [stored_core, Option.some.injEq] at hcore
  rw [stored_memory, Option.some.injEq] at hmemory
  subst hcore hmemory
  obtain ⟨hread, hfits⟩ := (parsed_core_iff hrange).mp hcoreSum
  exact ⟨hread, hfits, limitSum_eq_zero_iff.mp hmemorySum.symm⟩

/-- The stored totals of an MLU pod are zero, so they agree exactly when its limits are. -/
theorem requests_agree_mlu_iff [Gjson] {vm : VirtualManager} {pod : Pod}
    (honly : Accelerator.mlu.Only pod) : RequestsAgree .mlu vm pod ↔ ReadAsMeant .mlu pod := by
  have hstored := stored_core vm pod
  rw [parsed_core_mlu fun cont hcont => (honly rfl cont hcont).1] at hstored
  constructor
  · rintro ⟨⟨core, hcore, hcoreSum⟩, ⟨memory, hmemory, hmemorySum⟩, -, -⟩
    rw [hstored, Option.some.injEq] at hcore
    rw [stored_memory, Option.some.injEq] at hmemory
    subst hcore hmemory
    refine ⟨limitSum_eq_zero_iff.mp hcoreSum.symm, ?_, limitSum_eq_zero_iff.mp hmemorySum.symm⟩
    rw [← hcoreSum]
    decide
  · intro hread
    exact ⟨⟨0, hstored, (limitSum_eq_zero_iff.mpr hread.core).symm⟩,
      ⟨0, stored_memory vm pod, (limitSum_eq_zero_iff.mpr hread.memory).symm⟩, nofun, nofun⟩

/-- For every pod whose limits are read as they are meant, the stored totals, the sums of its
limits and the totals of `Allocate` agree; and no other pod has this, unless a text that is no
decimal number starts with digits that leave the 64-bit range. -/
theorem requests_agree_when [Gjson] (kind : Accelerator) (vm : VirtualManager) (pod : Pod)
    (honly : kind.Only pod) :
    (ReadAsMeant kind pod → RequestsAgree kind vm pod) ∧
      (InRange pod → RequestsAgree kind vm pod → ReadAsMeant kind pod) := by
  cases kind with
  | gpu => exact ⟨fun h => h.requests_agree vm, fun hrange h => h.read_as_meant hrange⟩
  | mlu =>
      exact ⟨(requests_agree_mlu_iff honly).mpr, fun _ => (requests_agree_mlu_iff honly).mp⟩

/-- A pod of ten cores and no memory. -/
def tenCoresOnly : Pod :=
  { tenCorePod "a" "uid-a" with
    containers := [⟨"main", [], [(resourceCore, tenUnits)]⟩] }

/-- A pod of ten cores and no memory is read as it is meant. -/
theorem requests_agree_core_only :
    letI := Gjson.reader
    RequestsAgree .gpu newVirtualManager tenCoresOnly := by
  let reader := Gjson.reader
  refine (requests_agree_when .gpu newVirtualManager tenCoresOnly nofun).1 ⟨?_, by decide, by decide⟩
  intro cont hcont
  obtain rfl := List.mem_singleton.mp hcont
  exact .inl (by decide)

/-- A pod of ten cores and five memory blocks is recorded with no memory. -/
theorem requests_agree_counterexample :
    letI := Gjson.reader
    ¬ ∀ (kind : Accelerator) vm pod, kind.Only pod → RequestsAgree kind vm pod := by
  intro h
  let reader := Gjson.reader
  obtain ⟨memory, hmemory, hsum⟩ := (h .gpu newVirtualManager (tenCorePod "a" "uid-a") nofun).memory
  rw [stored_memory, Option.some.injEq] at hmemory
  subst hmemory
  exact absurd hsum (by decide)

end UniShare.ResourceManager
