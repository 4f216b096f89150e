import UniShare.PluginRegister.Vcore

/-!
# The device that a container is given

The GPU that a call charges is chosen among the resources of the whole cluster, while the device
number comes from the table of the call's own node, where a missing UUID reads as device zero.
`mounted_is_charged_iff` says for which choices the device given is the card charged.
-/

namespace UniShare.PluginRegister

open Lib DeviceInfo Kube PodWatch

variable {ι : Type}

/-- The response gives the container the device of this number. -/
def AllocateResponse.Gives (response : AllocateResponse) (minorNumber : Nat) : Prop :=
  ∃ cont ∈ response.containerResponses, ∃ spec ∈ cont.devices,
    spec.hostPath = devicePath minorNumber

/-- The GPU whose used amounts the call increased belongs to the node, and the device given is the
local card with its UUID. -/
def MountedIsCharged (nodeName : String) (devices : List Device) (charge : Charge ι)
    (response : AllocateResponse) : Prop :=
  ∀ gpu ∈ charge.before.items,
    charge.after =
        charge.before.charged gpu.name (requestCore charge.pod) (requestMem charge.pod) →
      gpu.spec.node = nodeName ∧
        ∃ device ∈ devices, device.uuid = gpu.spec.uuid ∧ response.Gives device.minorNumber

/-- The GPU that the rule selects in the whole cluster belongs to the node and is a local card
whose minor number is read, or is zero. -/
def SelectedIsLocal [Gjson] (nodeName : String) (devices : List Device) (charge : Charge ι) :
    Prop :=
  ∀ gpu, Selected (requestCore charge.pod) (requestMem charge.pod) charge.before.items gpu →
    gpu.spec.node = nodeName ∧
      ∃ device ∈ devices, device.uuid = gpu.spec.uuid ∧
        (device.minorKnown ∨ device.minorNumber = 0)

/-- The paths of two devices differ. -/
theorem device_path_inj {n m : Nat} (h : devicePath n = devicePath m) : n = m :=
  numbered_inj "/dev/nvidia" h

/-- A path that goes on with another character than a digit is the path of no numbered device. -/
theorem device_path_ne {path : String} (h : (path.toList.drop 11).any (! Char.isDigit ·))
    (n : Nat) : path ≠ devicePath n := by
  rintro rfl
  obtain ⟨c, hc, hdigit⟩ := List.any_eq_true.mp h
  have hdrop : ("/dev/nvidia" ++ n.repr).toList.drop 11 = n.repr.toList := by
    rw [String.toList_append]
    exact List.drop_left' (by decide)
  rw [show (devicePath n).toList.drop 11 = n.repr.toList from hdrop, Nat.toList_repr] at hc
  rw [Nat.isDigit_of_mem_toDigits (by decide) (by decide) hc] at hdigit
  cases hdigit

/-- A response gives one numbered device. -/
theorem gives_iff {podUid : String} {minorNum minorNumber : Nat} :
    (allocResp podUid minorNum).Gives minorNumber ↔ minorNumber = minorNum := by
  constructor
  · rintro ⟨cont, hcont, spec, hspec, hpath⟩
    obtain rfl := List.mem_singleton.mp hcont
    rcases List.mem_cons.mp hspec with rfl | hspec
    · exact absurd hpath (device_path_ne (by decide) minorNumber)
    rcases List.mem_cons.mp hspec with rfl | hspec
    · exact absurd hpath (device_path_ne (by decide) minorNumber)
    rcases List.mem_cons.mp hspec with rfl | hspec
    · exact absurd hpath (device_path_ne (by decide) minorNumber)
    obtain rfl := List.mem_singleton.mp hspec
    exact (device_path_inj hpath).symm
  · rintro rfl
    exact ⟨_, List.mem_singleton.mpr rfl, deviceSpec (devicePath minorNumber),
      .tail _ (.tail _ (.tail _ (.head _))), rfl⟩

/-- The table gives a local card's own number exactly when that is read, or is zero. -/
theorem minor_number_eq_iff {devices : List Device} (hdistinct : (devices.map Device.uuid).Nodup)
    {device : Device} (hmem : device ∈ devices) :
    device.minorNumber = (nvmlTest devices).getMinorNumber device.uuid ↔
      device.minorKnown ∨ device.minorNumber = 0 := by
  rw [get_minor_number_local hdistinct hmem, Device.minNum]
  cases hknown : device.minorKnown with
  | false => simp
  | true => simp

/-- In every run, a successful call on a node gives its container the card that it charged exactly
when the GPU selected in the whole cluster is a card of that node whose minor number is read, or is
zero. -/
theorem mounted_is_charged_iff [DecidableEq ι] [Gjson] (server : ι → VcoreResourceServer)
    (pods : PodStore) (gpus : GpuStore) (actions : List (Action ι)) (state : State ι)
    (hrun : exec (step server) (State.initial ι pods gpus) actions = some state)
    (charge : Charge ι) (hcharge : charge ∈ state.charges) (response : AllocateResponse)
    (hreturned : state.point charge.call = .returned (.ok response)) (devices : List Device)
    (hdevices : (server charge.call).devInfo = nvmlTest devices)
    (hdistinct : (devices.map Device.uuid).Nodup) :
    MountedIsCharged (server charge.call).nodeName devices charge response ↔
      SelectedIsLocal (server charge.call).nodeName devices charge := by
  have hrecorded := recorded_of_run hrun
  obtain ⟨other, hother, hcall, rfl⟩ := hrecorded.returned charge.call response hreturned
  obtain rfl := hrecorded.eq_of_call hother hcharge hcall
  obtain ⟨gpu, hgpu, -, huuid, hafter⟩ := hrecorded.selected other hother
  -- both sides are about this GPU
  have hmounted : MountedIsCharged (server other.call).nodeName devices other (allocResp
      other.pod.uid ((server other.call).devInfo.getMinorNumber other.uuid)) ↔
      gpu.spec.node = (server other.call).nodeName ∧
        ∃ device ∈ devices, device.uuid = gpu.spec.uuid ∧
          device.minorNumber = (nvmlTest devices).getMinorNumber gpu.spec.uuid := by
    constructor
    · intro h
      simpa [gives_iff, hdevices, huuid] using h gpu hgpu.mem hafter
    · intro h candidate hcandidate hsame
      have hname := charged_name_inj hgpu.mem (hafter.symm.trans hsame)
      obtain rfl := other.before.eq_of_name hgpu.mem hcandidate hname
      simpa [gives_iff, hdevices, huuid] using h
  have hselected : SelectedIsLocal (server other.call).nodeName devices other ↔
      gpu.spec.node = (server other.call).nodeName ∧
        ∃ device ∈ devices, device.uuid = gpu.spec.uuid ∧
          (device.minorKnown ∨ device.minorNumber = 0) :=
    ⟨fun h => h gpu hgpu, fun h candidate hcandidate => hcandidate.unique hgpu ▸ h⟩
  rw [hmounted, hselected]
  refine and_congr_right fun _ => exists_congr fun device => and_congr_right fun hmem =>
    and_congr_right fun hsame => ?_
  rw [← hsame]
  exact minor_number_eq_iff hdistinct hmem

/-- The condition of `mounted_is_charged_iff` at a single call on the only node. -/
theorem mounted_is_charged_single :
    letI := Gjson.reader
    ∃ state, exec (step nodeServer) (State.initial String twinPods freshStore)
        (answeredCall "uid-a" tenDevices) = some state ∧
      ∃ charge ∈ state.charges, ∃ response,
        state.point charge.call = .returned (.ok response) ∧
          (MountedIsCharged "n1" localCards charge response ↔
            SelectedIsLocal "n1" localCards charge) := by
  let reader := Gjson.reader
  have hrun : (exec (step nodeServer) (State.initial String twinPods freshStore)
      (answeredCall "uid-a" tenDevices)).map
        (fun state => (state.charges.map Charge.call, state.point "uid-a")) =
      some (["uid-a"], .returned (.ok (allocResp "uid-a" 0))) := by decide +kernel
  obtain ⟨state, hrun, hstate⟩ := Option.map_eq_some_iff.mp hrun
  obtain ⟨hcalls, hpoint⟩ := Prod.mk.inj hstate
  obtain ⟨charge, hcharges, hcall⟩ := List.map_eq_singleton_iff.mp hcalls
  have hmem : charge ∈ state.charges := by simp [hcharges]
  have hreturned : state.point charge.call = .returned (.ok (allocResp "uid-a" 0)) := by
    rw [hcall, hpoint]
  exact ⟨state, hrun, charge, hmem, _, hreturned,
    mounted_is_charged_iff nodeServer twinPods freshStore (answeredCall "uid-a" tenDevices) state
      hrun charge hmem _ hreturned localCards rfl (by decide)⟩

/-- A card on another node, with half of its amounts used. -/
def halfUsedCard : GPU :=
  { freshCard with
    name := "n2-gpu-0"
    spec := { freshCard.spec with uuid := "GPU-1", used := ⟨"50", "32"⟩, node := "n2" } }

/-- A cluster of two nodes with a card each. -/
def twoNodeStore : GpuStore where
  items := [freshCard, halfUsedCard]
  names_nodup := by decide
  named := by decide

/-- A call on node `n1` charges the card of `n2`, which has less left, and gives the container the
local device zero. -/
theorem mounted_is_charged_counterexample :
    letI := Gjson.reader
    ¬ ∀ (server : String → VcoreResourceServer) pods gpus actions state,
        exec (step server) (State.initial String pods gpus) actions = some state →
          ∀ charge ∈ state.charges, ∀ response,
            state.point charge.call = .returned (.ok response) →
              ∀ devices : List Device, (server charge.call).devInfo = nvmlTest devices →
                (devices.map Device.uuid).Nodup →
                  MountedIsCharged (server charge.call).nodeName devices charge response := by
  intro h
  let reader := Gjson.reader
  have hrun : (exec (step nodeServer) (State.initial String twinPods twoNodeStore)
      (answeredCall "uid-a" tenDevices)).map
        (fun state => (state.charges.map
          (fun charge => (charge.call, charge.before.items, charge.crdName)),
          state.point "uid-a")) =
      some ([("uid-a", [freshCard, halfUsedCard], "n2-gpu-0")],
        .returned (.ok (allocResp "uid-a" 0))) := by decide +kernel
  obtain ⟨state, hrun, hstate⟩ := Option.map_eq_some_iff.mp hrun
  obtain ⟨hcharges, hpoint⟩ := Prod.mk.inj hstate
  obtain ⟨charge, hcharges, hcharge⟩ := List.map_eq_singleton_iff.mp hcharges
  simp only [Prod.mk.injEq] at hcharge
  obtain ⟨hcall, hbefore, hname⟩ := hcharge
  have hmem : charge ∈ state.charges := by simp [hcharges]
  have hmounted := h nodeServer twinPods twoNodeStore _ state hrun charge hmem _
    (by rw [hcall, hpoint]) localCards rfl (by decide)
  obtain ⟨gpu, hgpu, hcrd, -, hafter⟩ := (recorded_of_run hrun).selected charge hmem
  have hnode : gpu.spec.node = "n1" := (hmounted gpu hgpu.mem hafter).1
  have hlisted := hgpu.mem
  rw [hbefore] at hlisted
  rw [hname] at hcrd
  simp only [List.mem_cons, List.not_mem_nil, or_false] at hlisted
  rcases hlisted with rfl | rfl
  · exact absurd hcrd (by decide)
  · exact absurd hnode (by decide)

end UniShare.PluginRegister
