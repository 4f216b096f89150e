import UniShare.Monitor.Neighbours

/-!
# The samples of a card

`get_gpu_uti` of `core/monitor/monitor_gpu.c` with the calls of NVML that it makes, on the array
of samples that it has on its stack. A call that fails is logged and otherwise ignored, and the loop
then runs over all of the array. `uses_delivered_iff` says when that makes no difference.
-/

namespace UniShare.Monitor

/-- `MAX_PIDS` -/
def maxPids : Nat := 1024

/-- The array of samples on the stack. -/
structure SampleArray where
  samples : List ProcessUtilizationSample
  length : samples.length = maxPids

/-- The samples that a call delivers, which fit into the array. -/
structure Delivered where
  samples : List ProcessUtilizationSample
  length : samples.length ≤ maxPids

/-- What a call of NVML comes to: it delivers something, or it returns an error code and leaves its
arguments as they are. -/
inductive Reply (α : Type) where
  | success (delivered : α)
  | error (code : Nat)

/-- `utilization_t`. -/
structure Utilization where
  userCurrent : UInt32
  valid : Bool
  checktime : UInt64
  sysProcessNum : Nat

/-- One round of the loop of `get_gpu_uti`. -/
def sampleRound (utiInfo : Utilization) (sample : ProcessUtilizationSample) : Utilization :=
  if sample.timeStamp ≥ utiInfo.checktime then
    let userCurrent := utiInfo.userCurrent + getValidValue sample.smUtil
    let codecUtil := getValidValue sample.encUtil + getValidValue sample.decUtil
    { utiInfo with valid := true, userCurrent := userCurrent + codecNormalize codecUtil }
  else utiInfo

/-- `get_gpu_uti`, with the replies of `nvmlDeviceGetComputeRunningProcesses` and of
`nvmlDeviceGetProcessUtilization`, and the array as it is at first. -/
def getGpuUtiInPlace (cur : Timeval) (running : Reply Nat) (utilization : Reply Delivered)
    (array : SampleArray) (before : Utilization) : UInt32 :=
  let runningProcesses :=
    match running with
    | .success count => count
    | .error _ => maxPids
  let utiInfo := { before with sysProcessNum := runningProcesses, checktime := checktime cur }
  let (processesSample, processesNum) :=
    match utilization with
    | .success delivered =>
        (delivered.samples ++ array.samples.drop delivered.samples.length, delivered.samples.length)
    -- the number of processes is preset to the size of the array
    | .error _ => (array.samples, maxPids)
  let utiInfo := (processesSample.take processesNum).foldl sampleRound
    { utiInfo with userCurrent := 0 }
  utiInfo.userCurrent

/-! ## What a sample counts -/

/-- The valid values are those up to 100. -/
def validValue (x : Nat) : Nat := if x ≤ 100 then x else 0

/-- What a sample counts: nothing when it is too old. -/
def sampleUse (cur : Timeval) (sample : ProcessUtilizationSample) : Nat :=
  if checktime cur ≤ sample.timeStamp then
    validValue sample.smUtil.toNat +
      85 * (validValue sample.encUtil.toNat + validValue sample.decUtil.toNat) / 100
  else 0

/-- The function returns the sum over the samples that a successful call has delivered. -/
def UsesDelivered (cur : Timeval) (running : Reply Nat) (utilization : Reply Delivered)
    (array : SampleArray) (before : Utilization) : Prop :=
  (getGpuUtiInPlace cur running utilization array before).toNat =
    match utilization with
    | .success delivered => (delivered.samples.map (sampleUse cur)).sum
    | .error _ => 0

/-- The array holds no sample that would count: one that is recent has no valid utilisation of the
processors but 0, and at most one percent for the codecs. -/
def NothingRecent (cur : Timeval) (array : SampleArray) : Prop :=
  ∀ sample ∈ array.samples, checktime cur ≤ sample.timeStamp →
    validValue sample.smUtil.toNat = 0 ∧
      validValue sample.encUtil.toNat + validValue sample.decUtil.toNat ≤ 1

/-! ## The loop -/

/-- `GET_VALID_VALUE` keeps the valid values. -/
theorem get_valid_value_to_nat (x : UInt32) : (getValidValue x).toNat = validValue x.toNat := by
  have hle : x ≤ 100 ↔ x.toNat ≤ 100 := UInt32.le_iff_toNat_le
  unfold getValidValue validValue
  by_cases hvalid : x ≤ 100
  · rw [if_pos hvalid, if_pos (hle.mp hvalid)]
  · rw [if_neg hvalid, if_neg (hle.not.mp hvalid)]
    rfl

/-- A valid value is at most 100. -/
theorem valid_value_le (x : Nat) : validValue x ≤ 100 := by
  unfold validValue
  split <;> omega

/-- A sample counts at most 270. -/
theorem sample_use_le (cur : Timeval) (sample : ProcessUtilizationSample) :
    sampleUse cur sample ≤ 270 := by
  have hsm := valid_value_le sample.smUtil.toNat
  have henc := valid_value_le sample.encUtil.toNat
  have hdec := valid_value_le sample.decUtil.toNat
  unfold sampleUse
  split <;> omega

/-- `CODEC_NORMALIZE` of two valid values. -/
theorem codec_normalize_to_nat (enc dec : UInt32) :
    (codecNormalize (getValidValue enc + getValidValue dec)).toNat =
      85 * (validValue enc.toNat + validValue dec.toNat) / 100 := by
  have henc := valid_value_le enc.toNat
  have hdec := valid_value_le dec.toNat
  have hsum : (getValidValue enc + getValidValue dec).toNat =
      validValue enc.toNat + validValue dec.toNat := by
    rw [UInt32.toNat_add, get_valid_value_to_nat, get_valid_value_to_nat]
    exact Nat.mod_eq_of_lt (by omega)
  have hproduct : ((getValidValue enc + getValidValue dec) * 85).toNat =
      85 * (validValue enc.toNat + validValue dec.toNat) := by
    rw [UInt32.toNat_mul, hsum, show (85 : UInt32).toNat = 85 from rfl, Nat.mul_comm]
    exact Nat.mod_eq_of_lt (by omega)
  rw [codecNormalize, UInt32.toNat_div, hproduct]
  rfl

/-- One round keeps the time of the check, and adds what the sample counts. -/
theorem sample_round {cur : Timeval} {utiInfo : Utilization} {total : Nat}
    (sample : ProcessUtilizationSample) (htime : utiInfo.checktime = checktime cur)
    (htotal : utiInfo.userCurrent.toNat = total) (hroom : total + 270 < 2 ^ 32) :
    (sampleRound utiInfo sample).checktime = checktime cur ∧
      (sampleRound utiInfo sample).userCurrent.toNat = total + sampleUse cur sample := by
  have huse := sample_use_le cur sample
  unfold sampleRound
  rw [htime]
  by_cases hrecent : checktime cur ≤ sample.timeStamp
  · rw [if_pos hrecent]
    unfold sampleUse at huse ⊢
    rw [if_pos hrecent] at huse ⊢
    refine ⟨rfl, ?_⟩
    dsimp only
    rw [UInt32.toNat_add, UInt32.toNat_add, get_valid_value_to_nat, codec_normalize_to_nat, htotal]
    omega
  · rw [if_neg hrecent, sampleUse, if_neg hrecent]
    exact ⟨htime, htotal⟩

/-- The loop adds what the samples count. -/
theorem sample_loop {cur : Timeval} {utiInfo : Utilization} {total : Nat}
    {samples : List ProcessUtilizationSample} (htime : utiInfo.checktime = checktime cur)
    (htotal : utiInfo.userCurrent.toNat = total)
    (hroom : 270 * samples.length + total < 2 ^ 32) :
    (samples.foldl sampleRound utiInfo).userCurrent.toNat =
      total + (samples.map (sampleUse cur)).sum := by
  induction samples generalizing utiInfo total with
  | nil => exact htotal
  | cons sample rest ih =>
      rw [List.length_cons] at hroom
      obtain ⟨htime', htotal'⟩ := sample_round sample htime htotal (by omega)
      have huse := sample_use_le cur sample
      rw [List.foldl_cons, ih htime' htotal' (by omega), List.map_cons, List.sum_cons,
        Nat.add_assoc]

/-- A sample counts nothing when it is too old, or has no valid utilisation. -/
theorem sample_use_eq_zero_iff {cur : Timeval} {sample : ProcessUtilizationSample} :
    sampleUse cur sample = 0 ↔ (checktime cur ≤ sample.timeStamp →
      validValue sample.smUtil.toNat = 0 ∧
        validValue sample.encUtil.toNat + validValue sample.decUtil.toNat ≤ 1) := by
  unfold sampleUse
  split
  · rename_i hrecent
    rw [forall_prop_of_true hrecent]
    omega
  · rename_i hold
    exact iff_of_true rfl fun hrecent => absurd hrecent hold

/-- What a failed call leaves counts as if it had been delivered. -/
theorem in_place_error (cur : Timeval) (running : Reply Nat) (code : Nat) (array : SampleArray)
    (before : Utilization) :
    (getGpuUtiInPlace cur running (.error code) array before).toNat =
      (array.samples.map (sampleUse cur)).sum := by
  have hfull := array.length
  unfold getGpuUtiInPlace
  dsimp only
  rw [← hfull, List.take_length]
  unfold maxPids at hfull
  rw [sample_loop rfl UInt32.toNat_zero (by omega), Nat.zero_add]

/-- What a successful call delivers counts, and nothing else. -/
theorem in_place_success (cur : Timeval) (running : Reply Nat) (delivered : Delivered)
    (array : SampleArray) (before : Utilization) :
    (getGpuUtiInPlace cur running (.success delivered) array before).toNat =
      (delivered.samples.map (sampleUse cur)).sum := by
  have hfits := delivered.length
  unfold maxPids at hfits
  unfold getGpuUtiInPlace
  dsimp only
  rw [List.take_left, sample_loop rfl UInt32.toNat_zero (by omega), Nat.zero_add]

/-! ## The result -/

/-- The reading uses delivered samples only when the call has delivered some, or the array holds
nothing that would count. -/
theorem uses_delivered_iff (cur : Timeval) (running : Reply Nat) (utilization : Reply Delivered)
    (array : SampleArray) (before : Utilization) :
    UsesDelivered cur running utilization array before ↔
      (∃ delivered, utilization = .success delivered) ∨ NothingRecent cur array := by
  unfold UsesDelivered
  cases utilization with
  | success delivered =>
      exact iff_of_true (in_place_success cur running delivered array before)
        (.inl ⟨delivered, rfl⟩)
  | error code =>
      have hnone : ¬ ∃ delivered, (Reply.error code : Reply Delivered) = .success delivered := nofun
      rw [or_iff_right hnone, in_place_error, List.sum_eq_zero_iff]
      unfold NothingRecent
      simp only [List.forall_mem_map, sample_use_eq_zero_iff]

/-- An array in which one sample of an earlier reading is left. -/
def staleArray : SampleArray where
  samples := ⟨5000000, 40, 0, 0⟩ :: List.replicate 1023 ⟨0, 0, 0, 0⟩
  length := by rw [List.length_cons, List.length_replicate, maxPids]

/-- When NVML fails, the sample that is left is counted. -/
theorem uses_delivered_stale :
    ¬ UsesDelivered ⟨5, 0⟩ (.success 1) (.error 6) staleArray ⟨0, false, 0, 0⟩ := by
  intro h
  have hsum := (in_place_error _ _ _ _ _).symm.trans h
  have hfirst := List.sum_eq_zero_iff.mp hsum _ List.mem_cons_self
  exact absurd hfirst (by decide)

end UniShare.Monitor
