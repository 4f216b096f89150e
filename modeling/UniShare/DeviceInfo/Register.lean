import UniShare.Lib.Execution
import UniShare.PodWatch.Messenger

/-!
# The registration of a node's cards

The loop of `CreateCRD` of `deviceInfo/gpu.go` on the resources of the API server. `main` runs it on
every start of the daemon, and it ends the process with any error that does not say that the
resource has been created. `restartable_iff` says from which resources it comes to its end.
-/

namespace UniShare.DeviceInfo

open Lib PodWatch

/-! ## The API server -/

/-- The text of the error that `CreateResource` returns for a resource that has been created. -/
def statusCreated : String := "request status 201 Created"

/-- The errors of `CreateResource`: for a new name none or the one above, for a name that exists
another one. -/
structure CreateAnswers where
  fresh : GPU → Option String
  existing : GPU → String
  fresh_created : ∀ gpu err, fresh gpu = some err → err = statusCreated
  existing_refused : ∀ gpu, existing gpu ≠ statusCreated

/-- The stored resources with another one, when its name is new. -/
def createGpu (store : GpuStore) (gpu : GPU) : GpuStore :=
  if h : gpu.name ≠ "" ∧ store.get gpu.name = none then
    { items := store.items ++ [{ gpu with resourceVersion := 1 }]
      names_nodup := by
        rw [List.map_append, List.nodup_append]
        refine ⟨store.names_nodup, List.nodup_singleton _, fun name hname other hother heq => ?_⟩
        obtain ⟨known, hknown, rfl⟩ := List.mem_map.mp hname
        obtain rfl := List.mem_singleton.mp hother
        exact List.find?_eq_none.mp h.2 known hknown (by simpa using heq)
      named := forall_mem_concat store.named h.1 }
  else store

/-- `CreateResource`: its error, and the stored resources. -/
def createResource (answers : CreateAnswers) (store : GpuStore) (gpu : GPU) :
    Option String × GpuStore :=
  if (store.get gpu.name).isSome then (some (answers.existing gpu), store)
  else (answers.fresh gpu, createGpu store gpu)

/-! ## The loop -/

/-- What a run of `CreateCRD` comes to. -/
structure Registration where
  -- the process has been ended by `log.Fatalf`
  aborted : Bool
  store : GpuStore

/-- The loop of `CreateCRD` over the resources of the node. -/
def createLoop (answers : CreateAnswers) : List GPU → GpuStore → Registration
  | [], store => ⟨false, store⟩
  | gpu :: rest, store =>
      let (err, store) := createResource answers store gpu
      if err ≠ none ∧ err ≠ some statusCreated then ⟨true, store⟩
      else createLoop answers rest store

/-- `CreateCRD` on a node with these cards. -/
def register (answers : CreateAnswers) (hostname : String) (devices : List Device)
    (store : GpuStore) : Registration :=
  createLoop answers ((nvmlTest devices).createCRD hostname) store

/-- The name of the resource with this index. -/
def resourceName (hostname : String) (i : Nat) : String := hostname ++ "-gpu-" ++ Nat.repr i

/-! ## What a restart asks for -/

/-- The run comes to its end, all resources of the node exist afterwards, and what is used of those
that existed before is kept. -/
structure Restartable (answers : CreateAnswers) (hostname : String) (devices : List Device)
    (store : GpuStore) : Prop where
  completes : (register answers hostname devices store).aborted = false
  exist : ∀ i < devices.length,
    ((register answers hostname devices store).store.get (resourceName hostname i)).isSome
  kept : ∀ i < devices.length, ∀ gpu, store.get (resourceName hostname i) = some gpu →
    ∃ after, (register answers hostname devices store).store.get (resourceName hostname i) =
      some after ∧ after.spec.used = gpu.spec.used

/-- A second run comes to its end like the first one, and changes nothing. -/
structure TwiceAsOnce (answers : CreateAnswers) (hostname : String) (devices : List Device)
    (store : GpuStore) : Prop where
  once : (register answers hostname devices store).aborted = false
  twice : (register answers hostname devices
    (register answers hostname devices store).store).aborted = false
  same : (register answers hostname devices
    (register answers hostname devices store).store).store =
      (register answers hostname devices store).store

/-! ## What the loop does -/

/-- The stored resources after a new one has been created. -/
theorem get_create_gpu {store : GpuStore} {gpu : GPU} (hname : gpu.name ≠ "")
    (hnew : store.get gpu.name = none) (name : String) :
    (createGpu store gpu).get name =
      if gpu.name = name then some { gpu with resourceVersion := 1 } else store.get name := by
  rw [createGpu, dif_pos ⟨hname, hnew⟩]
  unfold GpuStore.get at hnew ⊢
  dsimp only
  rw [List.find?_append]
  by_cases hsame : gpu.name = name
  · rw [if_pos hsame, ← hsame, hnew]
    simp
  · rw [if_neg hsame]
    simp [hsame]

/-- A stored resource stays stored when another one is created. -/
theorem mem_create_gpu {store : GpuStore} {gpu : GPU} (h : gpu ∈ store.items) (other : GPU) :
    gpu ∈ (createGpu store other).items := by
  unfold createGpu
  split
  · exact List.mem_append_left _ h
  · exact h

/-- A resource that exists ends the process. -/
theorem create_loop_existing (answers : CreateAnswers) {gpus : List GPU} {store : GpuStore}
    (h : ∃ gpu ∈ gpus, (store.get gpu.name).isSome = true) (hnames : ∀ gpu ∈ gpus, gpu.name ≠ "") :
    (createLoop answers gpus store).aborted = true := by
  induction gpus generalizing store with
  | nil =>
      obtain ⟨gpu, hgpu, -⟩ := h
      cases hgpu
  | cons gpu rest ih =>
      obtain ⟨hname, hrest⟩ := List.forall_mem_cons.mp hnames
      rw [createLoop, createResource]
      cases hget : store.get gpu.name with
      | some known =>
          have hother : some (answers.existing gpu) ≠ some statusCreated :=
            fun heq => answers.existing_refused gpu (Option.some.inj heq)
          dsimp only [Option.isSome_some, if_true]
          rw [if_pos rfl]
          dsimp only
          rw [if_pos ⟨nofun, hother⟩]
      | none =>
          dsimp only [Option.isSome_none]
          rw [if_neg Bool.false_ne_true]
          dsimp only
          split
          · rfl
          · refine ih ?_ hrest
            obtain ⟨other, hother, hexists⟩ := h
            rcases List.mem_cons.mp hother with rfl | hlater
            · rw [hget] at hexists
              cases hexists
            · refine ⟨other, hlater, ?_⟩
              rw [get_create_gpu hname hget]
              split
              · rfl
              · exact hexists

/-- When none of the resources exists, all of them are created. -/
theorem create_loop_new (answers : CreateAnswers) {gpus : List GPU} {store : GpuStore}
    (h : ∀ gpu ∈ gpus, store.get gpu.name = none) (hnames : ∀ gpu ∈ gpus, gpu.name ≠ "")
    (hdistinct : (gpus.map GPU.name).Nodup) :
    (createLoop answers gpus store).aborted = false ∧
      (∀ gpu ∈ gpus, ((createLoop answers gpus store).store.get gpu.name).isSome = true) ∧
      ∀ name, (store.get name).isSome = true →
        ((createLoop answers gpus store).store.get name).isSome = true := by
  induction gpus generalizing store with
  | nil => exact ⟨rfl, nofun, fun _ h => h⟩
  | cons gpu rest ih =>
      obtain ⟨hname, hrest⟩ := List.forall_mem_cons.mp hnames
      obtain ⟨hnew, hothers⟩ := List.forall_mem_cons.mp h
      obtain ⟨hother, hdistinct⟩ := List.nodup_cons.mp hdistinct
      have hgoes : createLoop answers (gpu :: rest) store =
          createLoop answers rest (createGpu store gpu) := by
        rw [createLoop, createResource, hnew]
        dsimp only [Option.isSome_none]
        rw [if_neg Bool.false_ne_true]
        dsimp only
        rw [if_neg]
        intro herr
        obtain ⟨err, hfresh⟩ := Option.ne_none_iff_exists'.mp herr.1
        exact herr.2 (hfresh.trans (congrArg some (answers.fresh_created gpu err hfresh)))
      have hstill : ∀ next ∈ rest, (createGpu store gpu).get next.name = none := by
        intro next hnext
        rw [get_create_gpu hname hnew, if_neg, hothers next hnext]
        exact fun heq => hother (heq ▸ List.mem_map.mpr ⟨next, hnext, rfl⟩)
      have hkept : ∀ name, (store.get name).isSome = true →
          ((createGpu store gpu).get name).isSome = true := by
        intro name hexists
        rw [get_create_gpu hname hnew]
        split
        · rfl
        · exact hexists
      obtain ⟨hcompletes, hexist, hlater⟩ := ih hstill hrest hdistinct
      rw [hgoes]
      refine ⟨hcompletes, List.forall_mem_cons.mpr ⟨hlater _ ?_, hexist⟩, ?_⟩
      · rw [get_create_gpu hname hnew, if_pos rfl]
        rfl
      · exact fun name hexists => hlater name (hkept name hexists)

/-! ## The resources of the node -/

section Node

variable (hostname : String) (devices : List Device)

/-- A node's resources are named after it and their index. -/
theorem mem_create_crd {gpu : GPU} (h : gpu ∈ (nvmlTest devices).createCRD hostname) :
    ∃ i < devices.length, gpu.name = resourceName hostname i := by
  obtain ⟨i, hi, rfl⟩ := List.mem_map.mp h
  rw [List.mem_range, nvmlTest, (foldl_add_device_uid devices _).2] at hi
  exact ⟨i, hi, rfl⟩

/-- A node has a resource for each index. -/
theorem exists_create_crd {i : Nat} (h : i < devices.length) :
    ∃ gpu ∈ (nvmlTest devices).createCRD hostname, gpu.name = resourceName hostname i := by
  refine ⟨(nvmlTest devices).gpuCRD hostname i, List.mem_map.mpr ⟨i, ?_, rfl⟩, rfl⟩
  rwa [List.mem_range, nvmlTest, (foldl_add_device_uid devices _).2]

/-- The names are not empty. -/
theorem create_crd_named : ∀ gpu ∈ (nvmlTest devices).createCRD hostname, gpu.name ≠ "" := by
  intro gpu hgpu hempty
  obtain ⟨i, -, hname⟩ := mem_create_crd hostname devices hgpu
  have hlist := congrArg String.toList (hname.symm.trans hempty)
  simp [resourceName] at hlist

/-- The names are different. -/
theorem create_crd_distinct : (((nvmlTest devices).createCRD hostname).map GPU.name).Nodup := by
  rw [GpuInfo.createCRD, List.map_map]
  exact List.Nodup.map (numbered_inj (hostname ++ "-gpu-")) List.nodup_range

/-- A run that comes to its end has found none of the resources. -/
theorem none_of_completes {answers : CreateAnswers} {store : GpuStore}
    (h : (register answers hostname devices store).aborted = false) {i : Nat}
    (hi : i < devices.length) : store.get (resourceName hostname i) = none := by
  by_contra hexists
  obtain ⟨gpu, hgpu, hname⟩ := exists_create_crd hostname devices hi
  have haborted := create_loop_existing answers ⟨gpu, hgpu, by
    rw [hname]
    exact Option.isSome_iff_ne_none.mpr hexists⟩ (create_crd_named hostname devices)
  rw [register, haborted] at h
  cases h

/-- A run that finds none of the resources comes to its end, and then all of them exist. -/
theorem completes_of_none (answers : CreateAnswers) {store : GpuStore}
    (h : ∀ i < devices.length, store.get (resourceName hostname i) = none) :
    (register answers hostname devices store).aborted = false ∧ ∀ i < devices.length,
      ((register answers hostname devices store).store.get (resourceName hostname i)).isSome := by
  have hfree : ∀ gpu ∈ (nvmlTest devices).createCRD hostname, store.get gpu.name = none := by
    intro gpu hgpu
    obtain ⟨i, hi, hname⟩ := mem_create_crd hostname devices hgpu
    rw [hname, h i hi]
  obtain ⟨hcompletes, hexist, -⟩ := create_loop_new answers hfree
    (create_crd_named hostname devices) (create_crd_distinct hostname devices)
  refine ⟨hcompletes, fun i hi => ?_⟩
  obtain ⟨gpu, hgpu, hname⟩ := exists_create_crd hostname devices hi
  rw [← hname]
  exact hexist gpu hgpu

end Node

/-! ## The result -/

/-- A run comes to its end as a restart asks for when none of the node's resources exists, and a
second run only on a node without cards. -/
theorem restartable_iff (answers : CreateAnswers) (hostname : String) (devices : List Device)
    (store : GpuStore) :
    (Restartable answers hostname devices store ↔
        ∀ i < devices.length, store.get (resourceName hostname i) = none) ∧
      (TwiceAsOnce answers hostname devices store ↔ devices = []) := by
  constructor
  · constructor
    · exact fun h _ => none_of_completes hostname devices h.completes
    · intro hnew
      obtain ⟨hcompletes, hexist⟩ := completes_of_none hostname devices answers hnew
      refine ⟨hcompletes, hexist, fun i hi gpu hknown => ?_⟩
      rw [hnew i hi] at hknown
      cases hknown
  · constructor
    · intro h
      obtain ⟨-, hexist⟩ := completes_of_none hostname devices answers fun _ =>
        none_of_completes hostname devices h.once
      by_contra hne
      have hpositive := List.length_pos_of_ne_nil hne
      have hgone := none_of_completes hostname devices h.twice hpositive
      have hfound := hexist 0 hpositive
      rw [hgone] at hfound
      cases hfound
    · intro hempty
      subst hempty
      exact ⟨rfl, rfl, rfl⟩

/-- An API server that answers a new name without an error. -/
def plainAnswers : CreateAnswers where
  fresh _ := none
  existing _ := "request status 409 Conflict"
  fresh_created := nofun
  existing_refused _ := by decide

/-- The card of a node. -/
def oneCard : List Device := [⟨"GPU-0", 0, true, 17179869184⟩]

/-- The resources when the daemon has registered the card before. -/
def registered : GpuStore where
  items := (nvmlTest oneCard).createCRD "node"
  names_nodup := create_crd_distinct "node" oneCard
  named := create_crd_named "node" oneCard

/-- A second start of the daemon does not come to its end. -/
theorem restartable_second_start : ¬ Restartable plainAnswers "node" oneCard registered := by
  intro h
  have haborted : (register plainAnswers "node" oneCard registered).aborted = true := by decide
  rw [h.completes] at haborted
  cases haborted

end UniShare.DeviceInfo
