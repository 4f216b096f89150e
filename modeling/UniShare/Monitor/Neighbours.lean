import UniShare.Interceptor.Memory
import UniShare.Interceptor.Startup

/-!
# What the monitor reads from a shared card

After `core/monitor/monitor_gpu.c` and `core/monitor/monitor_mlu.c`. Every sum runs over all
processes that the driver library reports, whatever container they are in. `same_decisions_iff`
says for which pairs of device states with the same own processes a container takes the same
decisions.
-/

namespace UniShare.Monitor

open Controller Interceptor

/-! ## The reports -/

/-- `nvmlProcessUtilizationSample_t`. -/
structure ProcessUtilizationSample where
  timeStamp : UInt64
  smUtil : UInt32
  encUtil : UInt32
  decUtil : UInt32
  deriving DecidableEq, Repr

/-- A process on a card, with what NVML and CNDev report of it. -/
structure Process where
  pid : UInt32
  sample : ProcessUtilizationSample
  ipuUtil : UInt32
  physicalMemoryUsed : UInt64
  deriving DecidableEq, Repr

/-- The result of `gettimeofday`. -/
structure Timeval where
  tvSec : UInt64
  tvUsec : UInt64
  deriving DecidableEq, Repr

/-- `GET_VALID_VALUE`. -/
def getValidValue (x : UInt32) : UInt32 := if x ≤ 100 then x else 0

/-- `CODEC_NORMALIZE`. -/
def codecNormalize (x : UInt32) : UInt32 := x * 85 / 100

/-- `checktime` of `get_gpu_uti`. -/
def checktime (cur : Timeval) : UInt64 := (cur.tvSec - 1) * 1000 * 1000 + cur.tvUsec

/-- One round of the loop of `get_gpu_uti`. -/
def addSample (cur : Timeval) (userCurrent : UInt32) (process : Process) : UInt32 :=
  let sample := process.sample
  if sample.timeStamp ≥ checktime cur then
    let codecUtil := getValidValue sample.encUtil + getValidValue sample.decUtil
    userCurrent + getValidValue sample.smUtil + codecNormalize codecUtil
  else userCurrent

/-- `get_gpu_uti`, with the processes that `nvmlDeviceGetProcessUtilization` reports. -/
def getGpuUti (cur : Timeval) (processesSample : List Process) : UInt32 :=
  processesSample.foldl (addSample cur) 0

/-- `get_mlu_uti`, with the processes that `cndevGetProcessUtilization` reports, or `none` when it
is not supported. -/
def getMluUti : Option (List Process) → UInt32
  | none => 0
  | some procUtil => procUtil.foldl (fun total process => total + process.ipuUtil) 0

/-- `get_mlu_mem`, with the processes that `cndevGetProcessInfo` reports. -/
def getMluMem (procInfo : List Process) : UInt64 :=
  procInfo.foldl (fun used process => used + process.physicalMemoryUsed) 0

/-! ## Sums over a population -/

section Sums

variable {α M : Type*}

/-- A loop that adds what each element contributes computes the sum. -/
theorem foldl_add_eq_sum [AddCommMonoid M] (load : α → M) (items : List α) (start : M) :
    items.foldl (fun total item => total + load item) start = start + (items.map load).sum := by
  induction items generalizing start with
  | nil => simp
  | cons item rest ih =>
      rw [List.foldl_cons, ih, List.map_cons, List.sum_cons, add_assoc]

/-- A sum splits into the elements that satisfy a test and the others. -/
theorem sum_split [AddCommMonoid M] (load : α → M) (test : α → Bool) (items : List α) :
    (items.map load).sum = ((items.filter test).map load).sum +
      ((items.filter fun item => !test item).map load).sum := by
  rw [← List.sum_append, ← List.map_append]
  exact (((List.filter_append_perm test items).map load).sum_eq).symm

/-- When the elements that satisfy the test are the same, the sums agree exactly when those over
the others do. -/
theorem sum_iff_others [AddCommGroup M] (load : α → M) (test : α → Bool) {left right : List α}
    (h : (left.filter test).Perm (right.filter test)) :
    (left.map load).sum = (right.map load).sum ↔
      ((left.filter fun item => !test item).map load).sum =
        ((right.filter fun item => !test item).map load).sum := by
  rw [sum_split load test left, sum_split load test right, (h.map load).sum_eq]
  exact add_right_inj _

end Sums

/-! ## A shared card -/

/-- The processes on a card, each with its container. -/
abbrev Device (κ : Type*) := List (κ × Process)

section Device

variable {κ : Type*}

/-- What the driver libraries report: every process on the card. -/
def reported (device : Device κ) : List Process := device.map Prod.snd

/-- `get_uti`; `supported` says whether CNDev reports utilisations. -/
def getUti (cur : Timeval) (supported : Bool) (device : Device κ) : Accelerator → UInt32
  | .mlu => getMluUti (if supported then some (reported device) else none)
  | .gpu => getGpuUti cur (reported device)

/-- What a process adds to the utilisation of a GPU. -/
def sampleLoad (cur : Timeval) (process : Process) : UInt32 :=
  if process.sample.timeStamp ≥ checktime cur then
    getValidValue process.sample.smUtil + codecNormalize
      (getValidValue process.sample.encUtil + getValidValue process.sample.decUtil)
  else 0

/-- What a process adds to the utilisation that `get_uti` returns. -/
def utiLoad (cur : Timeval) (supported : Bool) : Accelerator → Process → UInt32
  | .mlu, process => if supported then process.ipuUtil else 0
  | .gpu, process => sampleLoad cur process

/-- What `get_uti` returns is the sum of what the processes add. -/
theorem get_uti_eq_sum (cur : Timeval) (supported : Bool) (device : Device κ)
    (accelerator : Accelerator) :
    getUti cur supported device accelerator =
      (device.map fun entry => utiLoad cur supported accelerator entry.2).sum := by
  cases accelerator with
  | mlu =>
      cases supported with
      | false => simp [getUti, getMluUti, utiLoad]
      | true =>
          have hsum := foldl_add_eq_sum Process.ipuUtil (reported device) 0
          simpa [getUti, getMluUti, utiLoad, reported, Function.comp_def] using hsum
  | gpu =>
      have hround : addSample cur = fun total process => total + sampleLoad cur process := by
        funext total process
        by_cases hrecent : process.sample.timeStamp ≥ checktime cur
        · simp only [addSample, sampleLoad, if_pos hrecent]
          rw [add_assoc]
        · simp only [addSample, sampleLoad, if_neg hrecent]
          rw [add_zero]
      have hsum := foldl_add_eq_sum (sampleLoad cur) (reported device) 0
      simpa [getUti, getGpuUti, hround, utiLoad, reported, Function.comp_def] using hsum

/-- What `get_mlu_mem` returns is the sum of what the processes use. -/
theorem get_mlu_mem_eq_sum (device : Device κ) :
    getMluMem (reported device) =
      (device.map fun entry => entry.2.physicalMemoryUsed).sum := by
  have hsum := foldl_add_eq_sum Process.physicalMemoryUsed (reported device) 0
  simpa [getMluMem, reported, Function.comp_def] using hsum

/-! ## Decisions -/

/-- The container takes the same decisions in both states: it obtains the same utilisation on each
accelerator and so makes the same round of the control loop, and it obtains the same memory use
and so admits the same allocations and gives the same answers. -/
structure SameDecisions (cur : Timeval) (supported : Bool) (left right : Device κ) : Prop where
  uti : ∀ accelerator,
    getUti cur supported left accelerator = getUti cur supported right accelerator
  tick : ∀ card accelerator yamlLimit share i state,
    Startup.tick card accelerator yamlLimit share (getUti cur supported left accelerator) i state =
      Startup.tick card accelerator yamlLimit share (getUti cur supported right accelerator) i state
  mem : getMluMem (reported left) = getMluMem (reported right)
  admission : ∀ (function : AllocFunction) totalMem bytes,
    function.body totalMem (getMluMem (reported left)) bytes =
      function.body totalMem (getMluMem (reported right)) bytes
  answer : ∀ totalMem, cnMemGetInfo totalMem (getMluMem (reported left)) =
    cnMemGetInfo totalMem (getMluMem (reported right))

variable [DecidableEq κ]

/-- The processes of a container. -/
def ownProcesses (container : κ) (device : Device κ) : Device κ :=
  device.filter fun entry => entry.1 = container

/-- The processes of other containers. -/
def foreignProcesses (container : κ) (device : Device κ) : Device κ :=
  device.filter fun entry => !decide (entry.1 = container)

/-- The processes of other containers have the same load in both states, in the arithmetic of each
sum. -/
structure SameForeignLoad (container : κ) (cur : Timeval) (supported : Bool)
    (left right : Device κ) : Prop where
  uti : ∀ accelerator,
    ((foreignProcesses container left).map fun entry =>
      utiLoad cur supported accelerator entry.2).sum =
    ((foreignProcesses container right).map fun entry =>
      utiLoad cur supported accelerator entry.2).sum
  mem : ((foreignProcesses container left).map fun entry => entry.2.physicalMemoryUsed).sum =
    ((foreignProcesses container right).map fun entry => entry.2.physicalMemoryUsed).sum

/-- For any two device states with the same processes of a container, the container takes the same
decisions exactly when the processes of other containers have the same load. -/
theorem same_decisions_iff (container : κ) (cur : Timeval) (supported : Bool)
    (left right : Device κ)
    (hown : (ownProcesses container left).Perm (ownProcesses container right)) :
    SameDecisions cur supported left right ↔
      SameForeignLoad container cur supported left right := by
  have huti : ∀ accelerator,
      getUti cur supported left accelerator = getUti cur supported right accelerator ↔
      ((foreignProcesses container left).map fun entry =>
        utiLoad cur supported accelerator entry.2).sum =
      ((foreignProcesses container right).map fun entry =>
        utiLoad cur supported accelerator entry.2).sum := by
    intro accelerator
    rw [get_uti_eq_sum, get_uti_eq_sum]
    exact sum_iff_others _ _ hown
  have hmem : getMluMem (reported left) = getMluMem (reported right) ↔
      ((foreignProcesses container left).map fun entry => entry.2.physicalMemoryUsed).sum =
      ((foreignProcesses container right).map fun entry => entry.2.physicalMemoryUsed).sum := by
    rw [get_mlu_mem_eq_sum, get_mlu_mem_eq_sum]
    exact sum_iff_others _ _ hown
  constructor
  · intro h
    exact ⟨fun accelerator => (huti accelerator).mp (h.uti accelerator), hmem.mp h.mem⟩
  · intro h
    have hsame := fun accelerator => (huti accelerator).mpr (h.uti accelerator)
    have hused := hmem.mpr h.mem
    exact {
      uti := hsame
      tick := fun card accelerator yamlLimit share i state => by rw [hsame accelerator]
      mem := hused
      admission := fun function totalMem bytes => by rw [hused]
      answer := fun totalMem => by rw [hused] }

end Device

/-- A process that uses the given share of the card and memory. -/
def sampleProcess (pid uti : UInt32) (used : UInt64) : Process :=
  ⟨pid, ⟨2000000, uti, 0, 0⟩, uti, used⟩

/-- A neighbour that splits its work over two processes is not noticed. -/
theorem same_decisions_split :
    SameDecisions ⟨2, 0⟩ true [("own", sampleProcess 1 20 4096), ("other", sampleProcess 2 50 8192)]
      [("other", sampleProcess 3 20 4096), ("own", sampleProcess 1 20 4096),
        ("third", sampleProcess 4 30 4096)] := by
  refine (same_decisions_iff "own" ⟨2, 0⟩ true _ _ (by decide)).mpr ⟨fun accelerator => ?_, ?_⟩
  · cases accelerator <;> decide
  · decide

/-- A busy neighbour changes the utilisation and the memory use that a container obtains. -/
theorem busy_neighbour_noticed :
    ¬ ∀ (container : String) (cur : Timeval) (supported : Bool) (left right : Device String),
      (ownProcesses container left).Perm (ownProcesses container right) →
      SameDecisions cur supported left right := by
  intro h
  have hsame := h "own" ⟨2, 0⟩ true [("own", sampleProcess 1 20 4096)]
    [("own", sampleProcess 1 20 4096), ("other", sampleProcess 2 50 8192)] (by decide)
  exact absurd (hsame.uti .gpu) (by decide)

end UniShare.Monitor
