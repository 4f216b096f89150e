import UniShare.DeviceInfo.Gpu
import UniShare.Kube.Pod

/-!
# What the plugins advertise

The devices that `ListAndWatch` of `pluginRegister/vmemory.go` and `getNvidiaDevice` of
`pluginRegister/vcore.go` tell kubelet of, next to the capacities of the resources that `CreateCRD`
registers. The plugin divides the sum of the memory sizes into blocks, `CreateCRD` divides the
memory of each card; `advertises_capacity_iff` says when that gives the same number.
-/

namespace UniShare.PluginRegister

open Lib DeviceInfo Kube

/-! ## The devices -/

/-- `pluginapi.Device`. -/
structure PluginDevice where
  id : String
  health : String

/-- So many healthy devices of a resource, numbered from zero. -/
def numberedDevices (resourceName : String) (count : Nat) : List PluginDevice :=
  (List.range count).map fun i => ⟨resourceName ++ "-" ++ Nat.repr i, "Healthy"⟩

/-- `getNvidiaDevice` -/
def getNvidiaDevice (info : GpuInfo) : List PluginDevice :=
  numberedDevices resourceCore (info.count * 100)

/-- `totalMemOnNode`, over the keys of the map; their order makes no difference to the sum. -/
def totalMemOnNode (info : GpuInfo) : UInt64 :=
  (info.gpuUid.dedup.map fun uuid => (info.memInfo uuid).getD 0).sum

/-- What `ListAndWatch` of the memory plugin sends. -/
def listAndWatchVmem (info : GpuInfo) : List PluginDevice :=
  numberedDevices resourceMemory (totalMemOnNode info / 268435456).toNat

/-- The number of different IDs of devices. -/
def distinctIds (devices : List PluginDevice) : Nat :=
  (devices.map PluginDevice.id).toFinset.card

/-! ## The cards of a node -/

/-- The cards of a node, which NVML counts in 32 bits and which have UUIDs of their own. -/
structure LocalCards where
  devices : List Device
  distinct : (devices.map Device.uuid).Nodup
  count : devices.length < 2 ^ 32

/-- The advertised devices are as many as the resources of the node account for. -/
structure AdvertisesCapacity (cards : LocalCards) (hostname : String) : Prop where
  memory : (distinctIds (listAndWatchVmem (nvmlTest cards.devices)) : Int) =
    (((nvmlTest cards.devices).createCRD hostname).map fun gpu =>
      gpu.spec.capacity.memoryAmount.toInt).sum
  core : (distinctIds (getNvidiaDevice (nvmlTest cards.devices)) : Int) =
    (((nvmlTest cards.devices).createCRD hostname).map fun gpu =>
      gpu.spec.capacity.coreAmount.toInt).sum

/-- The memory sizes of the cards. -/
def LocalCards.memorySizes (cards : LocalCards) : List Nat :=
  cards.devices.map fun device => device.memoryTotal.toNat

/-! ## The two numbers -/

/-- Numbered devices have different IDs. -/
theorem distinct_ids_numbered (resourceName : String) (count : Nat) :
    distinctIds (numberedDevices resourceName count) = count := by
  have hnodup : ((numberedDevices resourceName count).map PluginDevice.id).Nodup := by
    rw [numberedDevices, List.map_map]
    exact List.Nodup.map (numbered_inj (resourceName ++ "-")) List.nodup_range
  rw [distinctIds, List.toFinset_card_of_nodup hnodup, List.length_map, numberedDevices,
    List.length_map, List.length_range]

/-- Going through the indices of a list is going through the list. -/
theorem map_range_getD {α β : Type} (items : List α) (default : α) (f : α → β) :
    (List.range items.length).map (fun i => f (items.getD i default)) = items.map f := by
  refine List.ext_getElem (by simp) fun i hi _ => ?_
  rw [List.length_map, List.length_range] at hi
  simp [hi]

section Node

variable (cards : LocalCards)

/-- The table of the node lists its cards. -/
theorem nvml_test_uid : (nvmlTest cards.devices).gpuUid = cards.devices.map Device.uuid ∧
    (nvmlTest cards.devices).count = cards.devices.length := by
  obtain ⟨huid, hcount⟩ := foldl_add_device_uid cards.devices
    { newGpuInfo with count := cards.devices.length }
  exact ⟨huid, hcount⟩

/-- What the table has for the cards, in their order. -/
theorem map_mem_info {β : Type} (f : UInt64 → β) :
    (cards.devices.map Device.uuid).map (fun uuid =>
        f (((nvmlTest cards.devices).memInfo uuid).getD 0)) =
      cards.devices.map fun device => f device.memoryTotal := by
  rw [List.map_map]
  refine List.map_congr_left fun device hdevice => ?_
  have hmem := mem_info_local cards.distinct
    { newGpuInfo with count := cards.devices.length } device hdevice
  show f (((nvmlTest cards.devices).memInfo device.uuid).getD 0) = f device.memoryTotal
  rw [nvmlTest, hmem]
  rfl

/-- The plugin advertises the blocks of the sum, which wraps around. -/
theorem distinct_ids_vmem :
    distinctIds (listAndWatchVmem (nvmlTest cards.devices)) =
      cards.memorySizes.sum % 2 ^ 64 / memoryBlockSize := by
  have hsum : totalMemOnNode (nvmlTest cards.devices) =
      (cards.devices.map Device.memoryTotal).sum := by
    rw [totalMemOnNode, (nvml_test_uid cards).1, List.Nodup.dedup cards.distinct]
    exact congrArg List.sum (map_mem_info cards id)
  rw [listAndWatchVmem, distinct_ids_numbered, UInt64.toNat_div, hsum, toNat_sum, List.map_map]
  rfl

/-- The resources of the node account for the blocks of each card. -/
theorem sum_memory_amounts (hostname : String) :
    (((nvmlTest cards.devices).createCRD hostname).map fun gpu =>
        gpu.spec.capacity.memoryAmount.toInt).sum =
      ((cards.memorySizes.map fun size => size / memoryBlockSize).sum : Nat) := by
  obtain ⟨huid, hcount⟩ := nvml_test_uid cards
  have hamounts : ((nvmlTest cards.devices).createCRD hostname).map (fun gpu =>
      gpu.spec.capacity.memoryAmount.toInt) = (cards.devices.map Device.uuid).map fun uuid =>
        (((((nvmlTest cards.devices).memInfo uuid).getD 0).toNat / memoryBlockSize : Nat) :
          Int) := by
    rw [← map_range_getD (cards.devices.map Device.uuid) "", List.length_map, GpuInfo.createCRD,
      hcount, List.map_map]
    refine List.map_congr_left fun i _ => ?_
    have hfits := (((nvmlTest cards.devices).memInfo
      ((cards.devices.map Device.uuid).getD i "")).getD 0).toNat_lt
    show (parseInt (formatInt _)).toInt = _
    rw [parse_format, huid, Int64.toInt_ofNat_of_lt (by unfold memoryBlockSize; omega)]
  have hsizes := map_mem_info cards fun total => ((total.toNat / memoryBlockSize : Nat) : Int)
  rw [hamounts, hsizes, LocalCards.memorySizes, List.map_map, Nat.cast_list_sum, List.map_map]
  rfl

/-- Each resource accounts for a hundred cores. -/
theorem sum_core_amounts (hostname : String) :
    (((nvmlTest cards.devices).createCRD hostname).map fun gpu =>
        gpu.spec.capacity.coreAmount.toInt).sum = (cards.devices.length * 100 : Int) := by
  have hcore : ∀ i, ((nvmlTest cards.devices).gpuCRD hostname i).spec.capacity.coreAmount.toInt =
      100 := by
    intro i
    show (parseInt "100").toInt = 100
    decide
  rw [GpuInfo.createCRD, (nvml_test_uid cards).2, List.map_map]
  have hconst : ((fun gpu : GPU => gpu.spec.capacity.coreAmount.toInt) ∘
      (nvmlTest cards.devices).gpuCRD hostname) = fun _ => (100 : Int) := funext hcore
  rw [hconst]
  simp

end Node

/-- The blocks of a sum are those of its terms, and those of what is left of the terms. -/
theorem sum_div (sizes : List Nat) (block : Nat) :
    sizes.sum = block * (sizes.map fun size => size / block).sum +
      (sizes.map fun size => size % block).sum := by
  induction sizes with
  | nil => rfl
  | cons size rest ih =>
      have hsize := Nat.div_add_mod size block
      rw [List.map_cons, List.map_cons, List.sum_cons, List.sum_cons, List.sum_cons, ih,
        Nat.mul_add]
      omega

/-- What is left of the terms is less than a block for each of them. -/
theorem sum_mod_le (sizes : List Nat) {block : Nat} (hblock : 0 < block) :
    (sizes.map fun size => size % block).sum ≤ sizes.length * (block - 1) := by
  have hbound := List.sum_le_card_nsmul (sizes.map fun size => size % block) (block - 1)
    fun rest hrest => by
      obtain ⟨size, -, rfl⟩ := List.mem_map.mp hrest
      have hlt := Nat.mod_lt size hblock
      omega
  simpa using hbound

/-! ## The result -/

/-- As many devices are advertised as the resources account for when what is left of the cards
behind their last whole blocks is together less than a block, and the blocks do not overflow the sum
of the plugin. -/
theorem advertises_capacity_iff (cards : LocalCards) (hostname : String) :
    AdvertisesCapacity cards hostname ↔
      (cards.memorySizes.map fun size => size % memoryBlockSize).sum < memoryBlockSize ∧
        (cards.memorySizes.map fun size => size / memoryBlockSize).sum < 2 ^ 36 := by
  have hcore : (distinctIds (getNvidiaDevice (nvmlTest cards.devices)) : Int) =
      (((nvmlTest cards.devices).createCRD hostname).map fun gpu =>
        gpu.spec.capacity.coreAmount.toInt).sum := by
    rw [getNvidiaDevice, distinct_ids_numbered, sum_core_amounts, (nvml_test_uid cards).2]
    push_cast
    rfl
  have hcount : cards.memorySizes.length < 2 ^ 32 := by
    rw [LocalCards.memorySizes, List.length_map]
    exact cards.count
  have hsplit := sum_div cards.memorySizes memoryBlockSize
  have hleft := sum_mod_le cards.memorySizes (show 0 < memoryBlockSize from by decide)
  have hmemory : (distinctIds (listAndWatchVmem (nvmlTest cards.devices)) : Int) =
      (((nvmlTest cards.devices).createCRD hostname).map fun gpu =>
        gpu.spec.capacity.memoryAmount.toInt).sum ↔
      cards.memorySizes.sum % 2 ^ 64 / memoryBlockSize =
        (cards.memorySizes.map fun size => size / memoryBlockSize).sum := by
    rw [distinct_ids_vmem, sum_memory_amounts]
    exact Nat.cast_inj
  have hagree : AdvertisesCapacity cards hostname ↔
      cards.memorySizes.sum % 2 ^ 64 / memoryBlockSize =
        (cards.memorySizes.map fun size => size / memoryBlockSize).sum :=
    ⟨fun h => hmemory.mp h.memory, fun h => ⟨hmemory.mpr h, hcore⟩⟩
  rw [hagree]
  generalize (cards.memorySizes.map fun size => size / memoryBlockSize).sum = blocks at hsplit ⊢
  generalize (cards.memorySizes.map fun size => size % memoryBlockSize).sum = rest at hsplit hleft ⊢
  unfold memoryBlockSize at *
  generalize cards.memorySizes.length = count at hcount hleft
  rw [hsplit]
  constructor
  · intro h
    omega
  · intro h
    omega

/-- Two cards of 23028 MiB each. -/
def twoCards : LocalCards where
  devices := [⟨"GPU-0", 0, true, 24146608128⟩, ⟨"GPU-1", 1, true, 24146608128⟩]
  distinct := by decide
  count := by decide

/-- For the two cards a block is advertised that neither of them has. -/
theorem advertises_capacity_two_cards : ¬ AdvertisesCapacity twoCards "node" := by
  intro h
  have hmemory := h.memory
  rw [distinct_ids_vmem, sum_memory_amounts] at hmemory
  exact absurd hmemory (by decide)

end UniShare.PluginRegister
