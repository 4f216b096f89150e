import UniShare.Lib.Int64
import UniShare.Monitor.Neighbours

/-!
# Reported and admitted memory

`cnMemGetInfo` of `core/interceptor/hijack_mlu.c` subtracts the bytes in use from the quota, and the
allocation functions add the request to them; both in 64-bit arithmetic. `verdicts_agree_iff` says
for which requests the two agree.
-/

namespace UniShare.Interceptor

open Lib Monitor

/-- The bytes in use that CNDev reports, as the sum of what it reports of the processes. -/
def reportedBytes (procInfo : List Process) : Nat :=
  (procInfo.map fun process => process.physicalMemoryUsed.toNat).sum % 2 ^ 64

/-- The reported free memory is within the quota, and an allocation function lets a request of this
size pass to the driver when it fits into the free memory, and refuses it when it does not. -/
structure VerdictsAgree (totalMem : UInt64) (procInfo : List Process) (bytes : UInt64) : Prop where
  total : (cnMemGetInfo totalMem (getMluMem procInfo)).totalBytes = totalMem
  free : (cnMemGetInfo totalMem (getMluMem procInfo)).freeBytes ≤
    (cnMemGetInfo totalMem (getMluMem procInfo)).totalBytes
  passes : bytes ≤ (cnMemGetInfo totalMem (getMluMem procInfo)).freeBytes →
    ∀ function : AllocFunction,
      function.body totalMem (getMluMem procInfo) bytes = .driver function bytes
  refuses : (cnMemGetInfo totalMem (getMluMem procInfo)).freeBytes < bytes →
    ∀ function : AllocFunction, function.body totalMem (getMluMem procInfo) bytes = .outOfMemory

/-- What `get_mlu_mem` returns is the sum of what CNDev reports. -/
theorem get_mlu_mem_to_nat (procInfo : List Process) :
    (getMluMem procInfo).toNat = reportedBytes procInfo := by
  rw [getMluMem, foldl_add_eq_sum Process.physicalMemoryUsed, zero_add, toNat_sum, List.map_map]
  rfl

/-- A request passes the check when the sum, in 64 bits, is below the quota. -/
theorem body_eq_driver_iff (function : AllocFunction) (totalMem use bytes : UInt64) :
    function.body totalMem use bytes = .driver function bytes ↔
      (use.toNat + bytes.toNat) % 2 ^ 64 < totalMem.toNat := by
  rw [body_eq, checkQuota, ← UInt64.toNat_add, ← UInt64.lt_iff_toNat_lt]
  split
  · rename_i hfull
    exact iff_of_false (by simp) (UInt64.not_lt.mpr hfull)
  · rename_i hroom
    exact iff_of_true rfl (UInt64.not_le.mp hroom)

/-- A request that does not pass the check is refused. -/
theorem body_eq_out_of_memory_iff (function : AllocFunction) (totalMem use bytes : UInt64) :
    function.body totalMem use bytes = .outOfMemory ↔
      totalMem.toNat ≤ (use.toNat + bytes.toNat) % 2 ^ 64 := by
  rw [body_eq, checkQuota, ← UInt64.toNat_add, ← UInt64.le_iff_toNat_le]
  split
  · rename_i hfull
    exact iff_of_true rfl hfull
  · rename_i hroom
    exact iff_of_false (by simp) hroom

/-- The reported free memory and the admission of a request agree when no more than the quota is in
use, the request is not just the rest of it, and the sum of the bytes in use and the request fits
into 64 bits. -/
theorem verdicts_agree_iff (totalMem : UInt64) (procInfo : List Process) (bytes : UInt64) :
    VerdictsAgree totalMem procInfo bytes ↔
      reportedBytes procInfo ≤ totalMem.toNat ∧
        reportedBytes procInfo + bytes.toNat ≠ totalMem.toNat ∧
          reportedBytes procInfo + bytes.toNat < 2 ^ 64 := by
  have htotal := totalMem.toNat_lt
  have hbytes := bytes.toNat_lt
  have huse := (getMluMem procInfo).toNat_lt
  rw [← get_mlu_mem_to_nat]
  generalize hused : getMluMem procInfo = use at huse ⊢
  -- the free memory as the number that is stored
  have hfree : (totalMem - use).toNat = if use.toNat ≤ totalMem.toNat then
      totalMem.toNat - use.toNat else totalMem.toNat + 2 ^ 64 - use.toNat := by
    rw [UInt64.toNat_sub]
    split <;> omega
  constructor
  · intro h
    obtain ⟨-, hfreeLe, hpasses, hrefuses⟩ := h
    rw [hused] at hfreeLe hpasses hrefuses
    have hwithin : use.toNat ≤ totalMem.toNat := by
      by_contra hover
      have hle : (totalMem - use).toNat ≤ totalMem.toNat := UInt64.le_iff_toNat_le.mp hfreeLe
      rw [hfree, if_neg hover] at hle
      omega
    rw [if_pos hwithin] at hfree
    refine ⟨hwithin, fun hequal => ?_, ?_⟩
    · -- the request for all that is free is refused
      have hfits : bytes ≤ totalMem - use := UInt64.le_iff_toNat_le.mpr (by omega)
      have hroom := (body_eq_driver_iff .cnMalloc _ _ _).mp (hpasses hfits .cnMalloc)
      omega
    · by_contra hwraps
      have hmore : totalMem - use < bytes := UInt64.lt_iff_toNat_lt.mpr (by omega)
      have hfull := (body_eq_out_of_memory_iff .cnMalloc _ _ _).mp (hrefuses hmore .cnMalloc)
      omega
  · intro h
    obtain ⟨hwithin, hother, hexact⟩ := h
    rw [if_pos hwithin] at hfree
    refine ⟨rfl, ?_, ?_, ?_⟩
    · rw [hused]
      exact UInt64.le_iff_toNat_le.mpr (hfree.le.trans (Nat.sub_le _ _))
    · rw [hused]
      intro hfits function
      have hle : bytes.toNat ≤ (totalMem - use).toNat := UInt64.le_iff_toNat_le.mp hfits
      exact (body_eq_driver_iff function _ _ _).mpr (by omega)
    · rw [hused]
      intro hmore function
      have hlt : (totalMem - use).toNat < bytes.toNat := UInt64.lt_iff_toNat_lt.mp hmore
      exact (body_eq_out_of_memory_iff function _ _ _).mpr (by omega)

/-- A process alone on a card with a quota of 8 bytes, three of them in use, asks for the rest. -/
theorem verdicts_disagree_rest :
    ¬ VerdictsAgree 8 [⟨1, ⟨0, 0, 0, 0⟩, 0, 3⟩] 5 := by
  intro h
  have hpasses := h.passes (by decide) .cnMalloc
  cases hpasses

end UniShare.Interceptor
