import UniShare.PodWatch.Overcommit

/-!
# Best fit

What `GetGpuResource` picks, compared with the first GPU of least free core and memory among those
that pass its feasibility test. The running minimum of the source starts at a sentinel and its
candidate at index `0`, and the sums wrap at 64 bits. `best_fit_iff` says exactly when the pick is
the best one.
-/

namespace UniShare.PodWatch

open Lib DeviceInfo

/-- The amounts of the GPU are numbers, and none of them is negative. -/
structure NonNegative (gpu : GPU) : Prop where
  capacity_decimal : gpu.spec.capacity.Decimal
  used_decimal : gpu.spec.used.Decimal
  capacity_core : 0 ≤ gpu.spec.capacity.coreAmount
  capacity_memory : 0 ≤ gpu.spec.capacity.memoryAmount
  used_core : 0 ≤ gpu.spec.used.coreAmount
  used_memory : 0 ≤ gpu.spec.used.memoryAmount

instance (gpu : GPU) : Decidable (NonNegative gpu) :=
  decidable_of_iff
    (gpu.spec.capacity.Decimal ∧ gpu.spec.used.Decimal ∧ 0 ≤ gpu.spec.capacity.coreAmount ∧
      0 ≤ gpu.spec.capacity.memoryAmount ∧ 0 ≤ gpu.spec.used.coreAmount ∧
        0 ≤ gpu.spec.used.memoryAmount)
    ⟨fun ⟨hcapacity, hused, hcore, hmemory, hcore', hmemory'⟩ =>
      ⟨hcapacity, hused, hcore, hmemory, hcore', hmemory'⟩,
      fun h => ⟨h.1, h.2, h.3, h.4, h.5, h.6⟩⟩

/-- The sum of free core and free memory, as an integer. -/
def freeTotal (gpu : GPU) : Int :=
  (gpu.spec.capacity.coreAmount.toInt - gpu.spec.used.coreAmount.toInt) +
    (gpu.spec.capacity.memoryAmount.toInt - gpu.spec.used.memoryAmount.toInt)

/-- That sum as 64 bits hold it. -/
def wrappedTotal (gpu : GPU) : Int :=
  (freeTotal gpu).bmod (2 ^ 64)

variable [Gjson]

/-- The GPUs that pass the feasibility test, in list order. -/
def passing (podCoreReq podMemReq : Int64) (items : List GPU) : List GPU :=
  items.filter fun gpu => satisfies podCoreReq podMemReq (entryOf gpu)

/-- The first GPU of least free sum among those that pass. -/
def Best (podCoreReq podMemReq : Int64) (items : List GPU) (gpu : GPU) : Prop :=
  FirstLeast freeTotal (passing podCoreReq podMemReq items) gpu

/-- The guarantee for one call: it reports "no gpu match" and changes nothing exactly when no GPU
passes, and otherwise it returns and charges the best one. -/
def BestFitCall (store : GpuStore) (podCoreReq podMemReq : Int64) : Prop :=
  (getGpuResource .answered store podCoreReq podMemReq = (.error "no gpu match", store) ↔
      passing podCoreReq podMemReq store.items = []) ∧
    (passing podCoreReq podMemReq store.items ≠ [] →
      ∃ gpu, Best podCoreReq podMemReq store.items gpu ∧
        getGpuResource .answered store podCoreReq podMemReq =
          (.ok gpu.spec.uuid, store.charged gpu.name podCoreReq podMemReq))

/-- The best GPU is the one that the source's rule finds: its wrapped sum is the first least one too
and is below the sentinel, or no wrapped sum is and the GPU heads the list. -/
def BestFound (podCoreReq podMemReq : Int64) (items : List GPU) : Prop :=
  ∀ gpu, Best podCoreReq podMemReq items gpu →
    FirstLeast wrappedTotal (passing podCoreReq podMemReq items) gpu ∧ wrappedTotal gpu < 99999 ∨
      (∀ other ∈ passing podCoreReq podMemReq items, 99999 ≤ wrappedTotal other) ∧
        items.head? = some gpu

/-- The free sum of a listed GPU is the wrapped one. -/
theorem toInt_free_sum {gpu : GPU} (h : NonNegative gpu) :
    (freeSum (entryOf gpu)).toInt = wrappedTotal gpu := by
  simp only [freeSum, entryOf, gpuresource_toJson, read_core h.capacity_decimal,
    read_memory h.capacity_decimal, read_core h.used_decimal, read_memory h.used_decimal,
    Int64.toInt_sub, Int64.toInt_add, wrappedTotal, freeTotal, Int.bmod_add_bmod,
    Int.bmod_sub_bmod]
  congr 1
  ring

omit [Gjson] in
/-- A sum that 64 bits hold is not wrapped. -/
theorem wrapped_total_eq {gpu : GPU} (hlow : -2 ^ 63 ≤ freeTotal gpu)
    (hhigh : freeTotal gpu < 2 ^ 63) : wrappedTotal gpu = freeTotal gpu :=
  Int.bmod_eq_of_le (by omega) (by omega)

/-- Among GPUs with non-negative amounts, the source orders by the wrapped sums. -/
theorem free_sum_lt_iff {gpu other : GPU} (h : NonNegative gpu) (hother : NonNegative other) :
    freeSum (entryOf gpu) < freeSum (entryOf other) ↔ wrappedTotal gpu < wrappedTotal other := by
  rw [Int64.lt_iff_toInt_lt, toInt_free_sum h, toInt_free_sum hother]

/-- A sum is below the start of the running minimum when its wrapped value is. -/
theorem free_sum_lt_start_iff {gpu : GPU} (h : NonNegative gpu) :
    freeSum (entryOf gpu) < sumStart ↔ wrappedTotal gpu < 99999 := by
  rw [Int64.lt_iff_toInt_lt, toInt_free_sum h]
  rfl

/-- The source's rule in terms of the wrapped sums. -/
theorem selected_iff {podCoreReq podMemReq : Int64} {items : List GPU}
    (h : ∀ gpu ∈ items, NonNegative gpu) (hsome : passing podCoreReq podMemReq items ≠ [])
    (gpu : GPU) :
    Selected podCoreReq podMemReq items gpu ↔
      FirstLeast wrappedTotal (passing podCoreReq podMemReq items) gpu ∧
          wrappedTotal gpu < 99999 ∨
        (∀ other ∈ passing podCoreReq podMemReq items, 99999 ≤ wrappedTotal other) ∧
          items.head? = some gpu := by
  have hitems : ∀ other ∈ passing podCoreReq podMemReq items, NonNegative other :=
    fun other hother => h other (List.mem_filter.mp hother).1
  have hleast : FirstLeast (fun other => freeSum (entryOf other))
      (passing podCoreReq podMemReq items) gpu ↔
        FirstLeast wrappedTotal (passing podCoreReq podMemReq items) gpu :=
    first_least_congr fun one hone two htwo => free_sum_lt_iff (hitems one hone) (hitems two htwo)
  have hall : (∀ other ∈ passing podCoreReq podMemReq items, sumStart ≤ freeSum (entryOf other)) ↔
      ∀ other ∈ passing podCoreReq podMemReq items, 99999 ≤ wrappedTotal other :=
    forall₂_congr fun other hother => by
      rw [← not_lt, free_sum_lt_start_iff (hitems other hother), not_lt]
  have hbelow : FirstLeast wrappedTotal (passing podCoreReq podMemReq items) gpu →
      (freeSum (entryOf gpu) < sumStart ↔ wrappedTotal gpu < 99999) := by
    rintro ⟨before, after, heq, _, _⟩
    exact free_sum_lt_start_iff (hitems gpu (by simp [heq]))
  unfold Selected
  rw [best_fit_iff_first_least]
  change FirstLeast (fun other => freeSum (entryOf other)) (passing podCoreReq podMemReq items)
    gpu ∧ _ ∨ passing podCoreReq podMemReq items ≠ [] ∧
      (∀ other ∈ passing podCoreReq podMemReq items, sumStart ≤ freeSum (entryOf other)) ∧ _ ↔ _
  rw [hleast, hall, and_congr_right hbelow, and_iff_right hsome]

/-- When some GPU passes, there is exactly one best GPU. -/
theorem exists_best {podCoreReq podMemReq : Int64} {items : List GPU}
    (hsome : passing podCoreReq podMemReq items ≠ []) :
    ∃ gpu, Best podCoreReq podMemReq items gpu :=
  exists_first_least freeTotal hsome

/-- A best GPU passes. -/
theorem Best.passes {podCoreReq podMemReq : Int64} {items : List GPU} {gpu : GPU}
    (h : Best podCoreReq podMemReq items gpu) : gpu ∈ passing podCoreReq podMemReq items := by
  obtain ⟨before, after, heq, _, _⟩ := h
  simp [heq]

/-- A best GPU is stored. -/
theorem Best.mem {podCoreReq podMemReq : Int64} {items : List GPU} {gpu : GPU}
    (h : Best podCoreReq podMemReq items gpu) : gpu ∈ items :=
  (List.mem_filter.mp h.passes).1

/-- For GPUs with non-negative amounts and every request, the call keeps the best-fit guarantee
exactly when the best GPU is the one that the source's rule finds. -/
theorem best_fit_call_iff (store : GpuStore) (podCoreReq podMemReq : Int64)
    (h : ∀ gpu ∈ store.items, NonNegative gpu) :
    BestFitCall store podCoreReq podMemReq ↔ BestFound podCoreReq podMemReq store.items := by
  rcases get_gpu_resource_answered store podCoreReq podMemReq with
    ⟨chosen, hchosen, hcall⟩ | ⟨hnone, hcall⟩
  · have hsome : passing podCoreReq podMemReq store.items ≠ [] := by
      obtain ⟨other, hother, hok⟩ := hchosen.passes
      exact List.ne_nil_of_mem (List.mem_filter.mpr ⟨hother, hok⟩)
    unfold BestFitCall BestFound
    rw [hcall]
    constructor
    · intro ⟨_, hbest⟩ gpu hgpu
      obtain ⟨other, hother, heq⟩ := hbest hsome
      -- the charged store tells which GPU was charged
      have hcharged := congrArg Prod.snd heq
      have hname := charged_name_inj hchosen.mem hcharged
      have hsame := store.eq_of_name hchosen.mem hother.mem hname
      rw [← selected_iff h hsome, hgpu.unique hother, ← hsame]
      exact hchosen
    · intro hfound
      refine ⟨iff_of_false (by simp) hsome, fun _ => ?_⟩
      obtain ⟨gpu, hgpu⟩ := exists_best hsome
      have hselected := (selected_iff h hsome gpu).mpr (hfound gpu hgpu)
      exact ⟨gpu, hgpu, by rw [hchosen.unique hselected]⟩
  · have hempty : passing podCoreReq podMemReq store.items = [] :=
      List.filter_eq_nil_iff.mpr fun gpu hgpu => hnone gpu hgpu
    unfold BestFitCall BestFound
    rw [hcall]
    refine iff_of_true ⟨iff_of_true rfl hempty, fun hsome => absurd hempty hsome⟩ fun gpu hgpu => ?_
    have hpasses := hgpu.passes
    rw [hempty] at hpasses
    cases hpasses

/-- When 64 bits hold the free sums of all passing GPUs, the source's rule finds the best one
exactly when its sum is below the sentinel or it heads the list. -/
theorem best_found_iff {podCoreReq podMemReq : Int64} {items : List GPU}
    (hlow : ∀ gpu ∈ passing podCoreReq podMemReq items, -2 ^ 63 ≤ freeTotal gpu)
    (hhigh : ∀ gpu ∈ passing podCoreReq podMemReq items, freeTotal gpu < 2 ^ 63) :
    BestFound podCoreReq podMemReq items ↔
      ∀ gpu, Best podCoreReq podMemReq items gpu →
        freeTotal gpu < 99999 ∨ items.head? = some gpu := by
  have hexact : ∀ gpu ∈ passing podCoreReq podMemReq items, wrappedTotal gpu = freeTotal gpu :=
    fun gpu hgpu => wrapped_total_eq (hlow gpu hgpu) (hhigh gpu hgpu)
  refine forall₂_congr fun gpu hgpu => ?_
  have hwrapped : FirstLeast wrappedTotal (passing podCoreReq podMemReq items) gpu :=
    (first_least_congr fun one hone two htwo => by rw [hexact one hone, hexact two htwo]).mp hgpu
  have hpasses := hgpu.passes
  obtain ⟨before, after, heq, hbefore, hafter⟩ := hgpu
  rw [and_iff_right hwrapped, hexact gpu hpasses]
  constructor
  · rintro (hlt | ⟨_, hhead⟩)
    · exact .inl hlt
    · exact .inr hhead
  · rintro (hlt | hhead)
    · exact .inl hlt
    by_cases hlt : freeTotal gpu < 99999
    · exact .inl hlt
    · -- the least sum reaches the sentinel, so every sum does
      refine .inr ⟨fun other hother => ?_, hhead⟩
      rw [hexact other hother]
      rw [heq] at hother
      rcases List.mem_append.mp hother with hother | hother
      · have := hbefore other hother
        omega
      · rcases List.mem_cons.mp hother with rfl | hother
        · omega
        · have := hafter other hother
          omega

/-- A card without free amounts, listed before a card with very much memory. -/
def largeStore : GpuStore where
  items :=
    [{ freshCard with spec := { freshCard.spec with used := ⟨"100", "64"⟩ } },
      { freshCard with
        name := "n1-gpu-1"
        spec := { freshCard.spec with uuid := "GPU-1", capacity := ⟨"100", "200000"⟩ } }]
  names_nodup := by decide
  named := by decide

omit [Gjson] in
/-- Both cards of `partlyUsedStore` pass for ten cores and twenty memory blocks, and the second, which
has less left, is the best and is charged. -/
theorem best_fit_call_two :
    letI := Gjson.reader
    passing 10 20 partlyUsedStore.items = partlyUsedStore.items ∧
      BestFound 10 20 partlyUsedStore.items ∧ BestFitCall partlyUsedStore 10 20 ∧
        (getGpuResource .answered partlyUsedStore 10 20).1 = .ok "GPU-1" := by
  let reader := Gjson.reader
  have hnonneg : ∀ gpu ∈ partlyUsedStore.items, NonNegative gpu := by decide
  have htotals : ∀ gpu ∈ partlyUsedStore.items, 0 ≤ freeTotal gpu ∧ freeTotal gpu < 99999 := by
    decide
  have hfound : BestFound 10 20 partlyUsedStore.items := by
    refine (best_found_iff (fun gpu hgpu => ?_) fun gpu hgpu => ?_).mpr fun gpu hgpu =>
      .inl (htotals gpu hgpu.mem).2
    · have := htotals gpu (List.mem_filter.mp hgpu).1
      omega
    · have := htotals gpu (List.mem_filter.mp hgpu).1
      omega
  exact ⟨by decide, hfound, (best_fit_call_iff partlyUsedStore 10 20 hnonneg).mpr hfound,
    by decide⟩

omit [Gjson] in
/-- Ten cores and ten memory blocks: only the second card passes, its sum of 200100 is not below the
sentinel, and the first card is charged. -/
theorem best_fit_call_counterexample :
    letI := Gjson.reader
    ¬ ∀ store podCoreReq podMemReq, (∀ gpu ∈ store.items, NonNegative gpu) →
      BestFitCall store podCoreReq podMemReq := by
  intro hclaim
  let reader := Gjson.reader
  have hnonneg : ∀ gpu ∈ largeStore.items, NonNegative gpu := by decide
  have hsome : passing 10 10 largeStore.items ≠ [] := by decide
  obtain ⟨gpu, hbest, hcall⟩ := (hclaim largeStore 10 10 hnonneg).2 hsome
  have hreturned : (getGpuResource .answered largeStore 10 10).1 = .ok "GPU-0" := by decide
  have honly : ∀ other ∈ passing 10 10 largeStore.items, other.spec.uuid = "GPU-1" := by decide
  rw [hcall] at hreturned
  exact absurd ((honly gpu hbest.passes).symm.trans (Outcome.ok.inj hreturned)) (by decide)

end UniShare.PodWatch
