import UniShare.Lib.Gjson
import UniShare.Lib.Int64

/-!
# GPU custom resources and the local device table

After `deviceInfo/gpu_types.go` and `deviceInfo/gpu.go`. `GPU` is the custom resource that stands
for one card, `nvmlTest` builds the table of the node's own cards, and `createCRD` lists the
resources that a node registers. `WithinCapacity` is the accounting invariant of a resource: its
amounts are decimal texts and what is used is between zero and the capacity.
-/

namespace UniShare.DeviceInfo

open Lib

/-- Amounts of the two resources of a card, as decimal texts. -/
structure R where
  core : String
  memory : String
  deriving DecidableEq, Repr, Inhabited

/-- The specification of a GPU resource. -/
structure GPUSpec where
  uuid : String
  model : String
  family : String
  capacity : R
  used : R
  node : String
  deriving DecidableEq, Repr, Inhabited

/-- A GPU resource, with the fields of its metadata that the program or the API server uses. -/
structure GPU where
  kind : String
  apiVersion : String
  name : String
  ns : String
  resourceVersion : Nat
  spec : GPUSpec
  deriving DecidableEq, Repr, Inhabited

/-- `json.Marshal` of the amounts. -/
def R.toJson (r : R) : Json :=
  .object (Json.omitEmpty "core" r.core ++ Json.omitEmpty "memory" r.memory)

/-- `json.Marshal` of the specification. -/
def GPUSpec.toJson (spec : GPUSpec) : Json :=
  .object (Json.omitEmpty "uuid" spec.uuid ++ (Json.omitEmpty "model" spec.model ++
    (Json.omitEmpty "family" spec.family ++ (("capacity", spec.capacity.toJson) ::
      ("used", spec.used.toJson) :: Json.omitEmpty "node" spec.node))))

/-- `json.Marshal` of a GPU resource. -/
def GPU.toJson (gpu : GPU) : Json :=
  .object (Json.omitEmpty "kind" gpu.kind ++ (Json.omitEmpty "apiVersion" gpu.apiVersion ++
    [("metadata", .object (Json.omitEmpty "name" gpu.name ++ (Json.omitEmpty "namespace" gpu.ns ++
        [("resourceVersion", .string (Nat.repr gpu.resourceVersion))]))),
      ("spec", gpu.spec.toJson), ("status", .object [])]))

/-- The number that the core text stands for. -/
def R.coreAmount (r : R) : Int64 := parseInt r.core

/-- The number that the memory text stands for. -/
def R.memoryAmount (r : R) : Int64 := parseInt r.memory

/-- Both amounts are written as `strconv` formats them. -/
def R.Decimal (r : R) : Prop :=
  r.core = formatInt r.coreAmount ∧ r.memory = formatInt r.memoryAmount

instance (r : R) : Decidable r.Decimal :=
  inferInstanceAs (Decidable (_ ∧ _))

/-- The amounts of a formatted pair. -/
def R.ofAmounts (core memory : Int64) : R := ⟨formatInt core, formatInt memory⟩

@[simp] theorem R.coreAmount_ofAmounts (core memory : Int64) :
    (R.ofAmounts core memory).coreAmount = core := parse_format core

@[simp] theorem R.memoryAmount_ofAmounts (core memory : Int64) :
    (R.ofAmounts core memory).memoryAmount = memory := parse_format memory

/-- Formatted amounts are decimal. -/
theorem R.decimal_ofAmounts (core memory : Int64) : (R.ofAmounts core memory).Decimal := by
  simp [Decimal, ofAmounts, coreAmount, memoryAmount]

/-- The accounting invariant of a GPU resource. -/
structure GPU.WithinCapacity (gpu : GPU) : Prop where
  capacity_decimal : gpu.spec.capacity.Decimal
  used_decimal : gpu.spec.used.Decimal
  core_nonneg : 0 ≤ gpu.spec.used.coreAmount
  core_le : gpu.spec.used.coreAmount ≤ gpu.spec.capacity.coreAmount
  memory_nonneg : 0 ≤ gpu.spec.used.memoryAmount
  memory_le : gpu.spec.used.memoryAmount ≤ gpu.spec.capacity.memoryAmount

/-- The invariant is a conjunction of comparisons. -/
instance (gpu : GPU) : Decidable gpu.WithinCapacity :=
  decidable_of_iff
    (gpu.spec.capacity.Decimal ∧ gpu.spec.used.Decimal ∧
      (0 ≤ gpu.spec.used.coreAmount ∧ gpu.spec.used.coreAmount ≤ gpu.spec.capacity.coreAmount) ∧
      0 ≤ gpu.spec.used.memoryAmount ∧ gpu.spec.used.memoryAmount ≤ gpu.spec.capacity.memoryAmount)
    ⟨fun ⟨hc, hu, ⟨h0, h1⟩, h2, h3⟩ => ⟨hc, hu, h0, h1, h2, h3⟩,
      fun ⟨hc, hu, h0, h1, h2, h3⟩ => ⟨hc, hu, ⟨h0, h1⟩, h2, h3⟩⟩

/-- A card as NVML describes it. `minorKnown` says that reading the minor number succeeds. -/
structure Device where
  uuid : String
  minorNumber : Nat
  minorKnown : Bool
  memoryTotal : UInt64
  deriving DecidableEq, Repr

/-- The minor number that `GetMinorNumber` returns; its error code is ignored, so a failed reading
counts as device `0`. -/
def Device.minNum (device : Device) : Nat :=
  if device.minorKnown then device.minorNumber else 0

/-- The table of the node's own cards. -/
structure GpuInfo where
  count : Nat
  gpuUid : List String
  memInfo : String → Option UInt64
  minorNumberByUUID : String → Option Nat

/-- The empty table. -/
def newGpuInfo : GpuInfo := ⟨0, [], fun _ => none, fun _ => none⟩

/-- One iteration of the loop of `NvmlTest`. -/
def GpuInfo.addDevice (info : GpuInfo) (device : Device) : GpuInfo :=
  { info with
    gpuUid := info.gpuUid ++ [device.uuid]
    minorNumberByUUID := Function.update info.minorNumberByUUID device.uuid (some device.minNum)
    memInfo := Function.update info.memInfo device.uuid (some device.memoryTotal) }

/-- `NvmlTest` on a node whose NVML calls succeed. -/
def nvmlTest (devices : List Device) : GpuInfo :=
  devices.foldl GpuInfo.addDevice { newGpuInfo with count := devices.length }

/-- `GetMinorNumber`: a missing key reads as zero. -/
def GpuInfo.getMinorNumber (info : GpuInfo) (uuid : String) : Nat :=
  (info.minorNumberByUUID uuid).getD 0

/-- The size of a memory block in bytes. -/
def memoryBlockSize : Nat := 268435456

/-- The resource that `CreateCRD` registers for the card with this index. -/
def GpuInfo.gpuCRD (info : GpuInfo) (hostname : String) (i : Nat) : GPU :=
  let uuid := info.gpuUid.getD i ""
  { kind := "GPU"
    apiVersion := "doslab.io/v1"
    name := hostname ++ "-gpu-" ++ Nat.repr i
    ns := "default"
    resourceVersion := 0
    spec :=
      { uuid := uuid
        model := "ff"
        family := "tesla"
        capacity :=
          { core := "100"
            memory := formatInt
              (Int64.ofNat (((info.memInfo uuid).getD 0).toNat / memoryBlockSize)) }
        used := { core := "0", memory := "0" }
        node := hostname } }

/-- The resources that `CreateCRD` registers, in order. -/
def GpuInfo.createCRD (info : GpuInfo) (hostname : String) : List GPU :=
  (List.range info.count).map (info.gpuCRD hostname)

/-- A registered resource starts within its capacity. -/
theorem gpu_crd_within (info : GpuInfo) (hostname : String) (i : Nat) :
    (info.gpuCRD hostname i).WithinCapacity := by
  have hcore : parseInt "100" = 100 := by decide
  have hzero : parseInt "0" = 0 := by decide
  have htotal := ((info.memInfo (info.gpuUid.getD i "")).getD 0).toNat_lt
  constructor
  · simp only [R.Decimal, GpuInfo.gpuCRD, R.coreAmount, R.memoryAmount, hcore, parse_format]
    exact ⟨by decide, trivial⟩
  · simp only [R.Decimal, GpuInfo.gpuCRD, R.coreAmount, R.memoryAmount, hzero]
    exact ⟨by decide, by decide⟩
  · simp [GpuInfo.gpuCRD, R.coreAmount, hzero]
  · simp only [GpuInfo.gpuCRD, R.coreAmount, hzero, hcore]
    decide
  · simp [GpuInfo.gpuCRD, R.memoryAmount, hzero]
  · simp only [GpuInfo.gpuCRD, R.memoryAmount, hzero, parse_format, memoryBlockSize]
    rw [Int64.le_iff_toInt_le, Int64.toInt_ofNat_of_lt (by omega)]
    exact Int.natCast_nonneg _

/-- The UUIDs that the loop has listed. -/
theorem foldl_add_device_uid (devices : List Device) (info : GpuInfo) :
    (devices.foldl GpuInfo.addDevice info).gpuUid = info.gpuUid ++ devices.map Device.uuid ∧
      (devices.foldl GpuInfo.addDevice info).count = info.count := by
  induction devices generalizing info with
  | nil => simp
  | cons device rest ih =>
      rw [List.foldl_cons, (ih _).1, (ih _).2]
      simp [GpuInfo.addDevice]

/-- The memory of a card that the loop does not see again stays as it is. -/
theorem foldl_add_device_mem {devices : List Device} {uuid : String}
    (h : uuid ∉ devices.map Device.uuid) (info : GpuInfo) :
    (devices.foldl GpuInfo.addDevice info).memInfo uuid = info.memInfo uuid := by
  induction devices generalizing info with
  | nil => rfl
  | cons device rest ih =>
      rw [List.map_cons, List.mem_cons, not_or] at h
      rw [List.foldl_cons, ih h.2]
      exact Function.update_of_ne h.1 _ _

/-- The memory that the table has for a local card. -/
theorem mem_info_local {devices : List Device} (hdistinct : (devices.map Device.uuid).Nodup)
    (info : GpuInfo) :
    ∀ device ∈ devices,
      (devices.foldl GpuInfo.addDevice info).memInfo device.uuid = some device.memoryTotal := by
  induction devices generalizing info with
  | nil => nofun
  | cons first rest ih =>
      obtain ⟨hother, hrest⟩ := List.nodup_cons.mp hdistinct
      refine List.forall_mem_cons.mpr ⟨?_, ih hrest _⟩
      rw [List.foldl_cons, foldl_add_device_mem hother]
      exact Function.update_self _ _ _

/-- Looking a UUID up in the table that the loop has built so far. -/
theorem foldl_add_device_minor (devices : List Device) (info : GpuInfo) (uuid : String) :
    (devices.foldl GpuInfo.addDevice info).minorNumberByUUID uuid =
      ((devices.reverse.find? fun device => device.uuid = uuid).map Device.minNum).or
        (info.minorNumberByUUID uuid) := by
  induction devices generalizing info with
  | nil => simp
  | cons device rest ih =>
      rw [List.foldl_cons, ih, List.reverse_cons, List.find?_append, Option.map_or, Option.or_assoc]
      congr 1
      by_cases huuid : device.uuid = uuid
      · simp [GpuInfo.addDevice, huuid]
      · simp [GpuInfo.addDevice, huuid, Function.update_of_ne (Ne.symm huuid)]

/-- With distinct UUIDs, a local card's entry is its own minor number. -/
theorem get_minor_number_local {devices : List Device} (hdistinct : (devices.map Device.uuid).Nodup)
    {device : Device} (hmem : device ∈ devices) :
    (nvmlTest devices).getMinorNumber device.uuid = device.minNum := by
  have hfind : devices.reverse.find? (fun other => other.uuid = device.uuid) = some device := by
    rw [List.find?_eq_some_iff_append]
    obtain ⟨before, after, heq⟩ := List.append_of_mem (List.mem_reverse.mpr hmem)
    refine ⟨by simp, before, after, heq, fun other hother => ?_⟩
    have hnodup : (devices.reverse.map Device.uuid).Nodup := by
      rw [List.map_reverse]
      exact List.nodup_reverse.mpr hdistinct
    rw [heq, List.map_append, List.map_cons, List.nodup_append] at hnodup
    have hne := hnodup.2.2 other.uuid (List.mem_map.mpr ⟨other, hother, rfl⟩) device.uuid (by simp)
    simpa using hne
  simp only [GpuInfo.getMinorNumber, nvmlTest, foldl_add_device_minor, hfind]
  rfl

end UniShare.DeviceInfo
