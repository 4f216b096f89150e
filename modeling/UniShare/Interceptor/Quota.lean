import UniShare.Monitor.Neighbours

/-!
# The quota of the hooked memory functions

Where the quota of `core/interceptor/hijack_mlu.c` comes from. The allocation functions compare with
the global `total_mem`, which no function assigns; `read_controller_configuration` of
`core/container/contInfoReg.c` fills `config_data` only. `admits_within_quota_iff` says for which
requests the functions nevertheless decide by the configured memory.
-/

namespace UniShare.Interceptor

open Monitor

/-- The globals of the hook library that an allocation depends on. -/
structure Globals where
  configData : RcData
  totalMem : UInt64

/-- The globals when the library is loaded. -/
def Globals.loaded : Globals := ⟨.zero, 0⟩

/-- `read_controller_configuration`, with the record in the file. -/
def Globals.readControllerConfiguration (globals : Globals) (data : RcData) : Globals :=
  { globals with configData := data }

/-- The globals after the configuration has been read this often. Each of the MLU entry points reads
it anew. -/
def Globals.afterReads (records : List RcData) : Globals :=
  records.foldl Globals.readControllerConfiguration .loaded

/-- A call of an allocation function, with the processes that `cndevGetProcessInfo` reports. -/
def AllocFunction.call (function : AllocFunction) (globals : Globals) (procInfo : List Process)
    (bytes : UInt64) : Checked :=
  function.body globals.totalMem (getMluMem procInfo) bytes

/-- The bytes in use; the driver library reports KiB. -/
def usedBytes (procInfo : List Process) : Nat :=
  1024 * (procInfo.map fun process => process.physicalMemoryUsed.toNat).sum

/-- The guarantee for one call: it reaches the driver exactly when the bytes in use and the
requested bytes fit into the configured memory, and otherwise it reports that the memory is
exhausted. -/
def AdmitsWithinQuota (function : AllocFunction) (globals : Globals) (procInfo : List Process)
    (bytes : UInt64) : Prop :=
  function.call globals procInfo bytes =
    if usedBytes procInfo + bytes.toNat ≤ globals.configData.memory.toNat then
      .driver function bytes
    else .outOfMemory

instance (function : AllocFunction) (globals : Globals) (procInfo : List Process) (bytes : UInt64) :
    Decidable (AdmitsWithinQuota function globals procInfo bytes) :=
  inferInstanceAs (Decidable (_ = _))

/-- No reading of the configuration sets `total_mem`. -/
theorem after_reads_total_mem (records : List RcData) :
    (Globals.afterReads records).totalMem = 0 := by
  have hkept : ∀ globals : Globals, globals.totalMem = 0 →
      (records.foldl Globals.readControllerConfiguration globals).totalMem = 0 := by
    induction records with
    | nil => exact fun globals h => h
    | cons data rest ih => exact fun globals h => ih (globals.readControllerConfiguration data) h
  exact hkept .loaded rfl

/-- The last record read is the configuration. -/
theorem after_reads_config_data (records : List RcData) (data : RcData) :
    (Globals.afterReads (records ++ [data])).configData = data := by
  simp [Globals.afterReads, Globals.readControllerConfiguration]

/-- With a quota of zero every allocation is refused. -/
theorem body_zero (function : AllocFunction) (use bytes : UInt64) :
    function.body 0 use bytes = .outOfMemory := by
  rw [body_eq, checkQuota, if_pos]
  exact UInt64.zero_le

/-- After any number of readings, the last of which yields `data`, all four allocation functions
decide by the configured memory exactly when the request does not fit into it. -/
theorem admits_within_quota_iff (records : List RcData) (data : RcData) (procInfo : List Process)
    (bytes : UInt64) :
    (∀ function,
      AdmitsWithinQuota function (Globals.afterReads (records ++ [data])) procInfo bytes) ↔
      data.memory.toNat < usedBytes procInfo + bytes.toNat := by
  have hrefused : ∀ function : AllocFunction,
      function.call (Globals.afterReads (records ++ [data])) procInfo bytes = .outOfMemory := by
    intro function
    rw [AllocFunction.call, after_reads_total_mem, body_zero]
  unfold AdmitsWithinQuota
  simp only [hrefused, after_reads_config_data]
  constructor
  · intro hall
    by_contra hfits
    have hmalloc := hall .cnMalloc
    rw [if_pos (Nat.not_lt.mp hfits)] at hmalloc
    cases hmalloc
  · intro hfull function
    rw [if_neg (Nat.not_le.mpr hfull)]

/-- One byte, with a gigabyte configured and nothing in use. -/
theorem admits_within_quota_counterexample :
    ¬ ∀ (records : List RcData) (data : RcData) (procInfo : List Process) (bytes : UInt64)
      (function : AllocFunction),
      AdmitsWithinQuota function (Globals.afterReads (records ++ [data])) procInfo bytes := by
  intro hclaim
  exact absurd (hclaim [] ⟨"uid-a", "main", 1073741824, 50⟩ [] 1 .cnMalloc) (by decide)

end UniShare.Interceptor
