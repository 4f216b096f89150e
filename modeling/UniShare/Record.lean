import UniShare.Container.Configuration
import UniShare.ResourceManager.Manager

/-!
# The configuration record as bytes

The bytes that `createVCUDAFile` of `resourceManager/manager.go` writes by `setting_to_disk`, and
what `read_controller_configuration` of `core/container/contInfoReg.c` makes of them. The two sides
declare the record on their own; `offset_eq` and `size_eq` say that it has the same layout on both,
and `record_round_trip` that what is written is read.
-/

namespace UniShare.Record

open Lib Container ResourceManager

/-! ## The writer -/

/-- `struct resource_data_t`, whose attributes stand on the record. -/
def resourceDataT : Declaration Member where
  members := [(.podUid, .array .char 48), (.containerName, .array .char filenameMax),
    (.memory, .uint64), (.utilization, .int)]
  onRecord := { isPacked := true, aligned := 8 }

/-- The bytes of a Go string. -/
def goBytes (text : String) : List UInt8 := text.toUTF8.data.toList

/-- The bytes of `vConfig`, which are zero when it is declared. -/
def vConfigBytes (vConfig : ResourceData) : List UInt8 :=
  let bytes := List.replicate resourceDataT.size 0
  let bytes := strcpy bytes (resourceDataT.offset .podUid) (goBytes vConfig.podUid)
  let bytes := strcpy bytes (resourceDataT.offset .containerName) (goBytes vConfig.containerName)
  let bytes := store bytes (resourceDataT.offset .memory)
    (bytesOf CType.uint64.size vConfig.memory.toNat)
  store bytes (resourceDataT.offset .utilization)
    (bytesOf CType.int.size vConfig.utilization.toUInt32.toNat)

/-- `setting_to_disk`, where `write` takes this many bytes, or the file cannot be opened: what it
returns, and the file. -/
def settingToDisk (wsize : Option Nat) (data : List UInt8) : Nat × Option (List UInt8) :=
  match wsize with
  | none => (1, none)
  | some wsize => (if wsize ≠ resourceDataT.size then 2 else 0, some (data.take wsize))

/-- `createVCUDAFile`: its error, and the file. -/
def createVCUDAFile (vm : VirtualManager) (wsize : Option Nat) (podUID containerName : String) :
    Option String × Option (List UInt8) :=
  let written := settingToDisk wsize (vConfigBytes (vm.vConfig podUID containerName))
  (if written.1 ≠ 0 then some "create vcuda.config file error" else none, written.2)

/-! ## The reader -/

/-- The members of `config_data`. -/
structure ConfigData where
  podUid : List UInt8
  containerName : List UInt8
  memory : Nat
  utilization : Int
  deriving DecidableEq

/-- What the reader finds at the places of the members. -/
def configData (bytes : List UInt8) : ConfigData where
  podUid := loadText bytes (rcDataT.offset .podUid)
  containerName := loadText bytes (rcDataT.offset .containerName)
  memory := valueOf (load bytes (rcDataT.offset .memory) CType.uint64.size)
  utilization :=
    (UInt32.ofNat (valueOf (load bytes (rcDataT.offset .utilization) CType.int.size))).toInt32.toInt

/-- The C text of a Go string is read; that is the whole of a string without a zero byte. -/
def SameText (read : List UInt8) (original : String) : Prop :=
  read = loadText (goBytes original) 0 ∧ ((0 : UInt8) ∉ goBytes original → read = goBytes original)

/-- The record is read with these members. -/
structure ReadsAs (data : ConfigData) (podUID containerName : String) (blocks cores : Int) :
    Prop where
  podUid : SameText data.podUid podUID
  containerName : SameText data.containerName containerName
  memory : (data.memory : Int) = blocks * 268435456
  utilization : data.utilization = cores

/-! ## The layout -/

/-- In the order of their declaration, the members fall on their natural alignment. -/
theorem falls_naturally : FallsNaturally 0 rcDataT.members := by
  refine ⟨?_, ?_, ?_, ?_, trivial⟩ <;> decide

/-- The members have the same places on both sides. -/
theorem offset_eq (name : Member) : resourceDataT.offset name = rcDataT.offset name := by
  unfold Declaration.offset
  rw [show resourceDataT.members = rcDataT.members from rfl,
    offsets_packed falls_naturally resourceDataT.onRecord rcDataT.onRecord]

/-- The record has the same size on both sides: the writer rounds it up as it has asked for, and the
reader for its widest member. -/
theorem size_eq : resourceDataT.size = rcDataT.size := by
  have halign : recordAlign resourceDataT.onRecord resourceDataT.members =
      recordAlign rcDataT.onRecord rcDataT.members := rfl
  unfold Declaration.size
  rw [halign, show resourceDataT.members = rcDataT.members from rfl,
    offsets_packed falls_naturally resourceDataT.onRecord rcDataT.onRecord]

/-- The places of the members, one behind the other. -/
theorem offsets : rcDataT.offset .podUid = 0 ∧ rcDataT.offset .containerName = 48 ∧
    rcDataT.offset .memory = 4144 ∧ rcDataT.offset .utilization = 4152 ∧ rcDataT.size = 4160 := by
  decide

/-! ## The bytes -/

/-- The bytes of a record of short names: their number, and what lies at the places of the members.
Each store leaves the members ahead of it as they are. -/
theorem v_config_bytes (vConfig : ResourceData) (hpod : (goBytes vConfig.podUid).length < 48)
    (hname : (goBytes vConfig.containerName).length < filenameMax) (rest : List UInt8) :
    (vConfigBytes vConfig).length = 4160 ∧
      configData (vConfigBytes vConfig ++ rest) =
        ⟨loadText (goBytes vConfig.podUid) 0, loadText (goBytes vConfig.containerName) 0,
          vConfig.memory.toNat, vConfig.utilization.toInt⟩ := by
  obtain ⟨hpodPlace, hnamePlace, hmemoryPlace, hutilizationPlace, hsize⟩ := offsets
  have hpodShort := length_load_text_le (goBytes vConfig.podUid) 0
  have hnameShort := length_load_text_le (goBytes vConfig.containerName) 0
  unfold filenameMax at hname
  unfold vConfigBytes configData
  simp only [offset_eq, size_eq, hpodPlace, hnamePlace, hmemoryPlace, hutilizationPlace, hsize,
    CType.size]
  -- the four stores, with the size of the memory behind each
  generalize hblank : List.replicate 4160 (0 : UInt8) = blank
  have hblankLength : blank.length = 4160 := by rw [← hblank, List.length_replicate]
  generalize hpodCopied : strcpy blank 0 (goBytes vConfig.podUid) = first
  have hfirst : first.length = 4160 := by
    rw [← hpodCopied, strcpy, length_store (by simp; omega), hblankLength]
  generalize hnameCopied : strcpy first 48 (goBytes vConfig.containerName) = second
  have hsecond : second.length = 4160 := by
    rw [← hnameCopied, strcpy, length_store (by simp; omega), hfirst]
  generalize hmemoryStored : store second 4144 (bytesOf 8 vConfig.memory.toNat) = third
  have hthird : third.length = 4160 := by
    rw [← hmemoryStored, length_store (by simp; omega), hsecond]
  generalize hutilizationStored :
    store third 4152 (bytesOf 4 vConfig.utilization.toUInt32.toNat) = fourth
  have hfourth : fourth.length = 4160 := by
    rw [← hutilizationStored, length_store (by simp; omega), hthird]
  refine ⟨hfourth, ?_⟩
  have hpodText : loadText (fourth ++ rest) 0 = loadText (goBytes vConfig.podUid) 0 := by
    refine load_text_strcpy blank (by omega) ?_
    rw [load_append _ (by omega), ← hutilizationStored, load_store_ahead (by omega) (by omega),
      ← hmemoryStored, load_store_ahead (by omega) (by omega), ← hnameCopied, strcpy,
      load_store_ahead (by omega) (by omega), hpodCopied]
  have hnameText : loadText (fourth ++ rest) 48 = loadText (goBytes vConfig.containerName) 0 := by
    refine load_text_strcpy first (by omega) ?_
    rw [load_append _ (by omega), ← hutilizationStored, load_store_ahead (by omega) (by omega),
      ← hmemoryStored, load_store_ahead (by omega) (by omega), hnameCopied]
  have hmemory : load (fourth ++ rest) 4144 8 = bytesOf 8 vConfig.memory.toNat := by
    rw [load_append _ (by omega), ← hutilizationStored, load_store_ahead (by omega) (by omega),
      ← hmemoryStored]
    have hstored := load_store_same (bytesOf 8 vConfig.memory.toNat) (show 4144 ≤ second.length
      from by omega)
    rwa [length_bytes_of] at hstored
  have hutilization : load (fourth ++ rest) 4152 4 =
      bytesOf 4 vConfig.utilization.toUInt32.toNat := by
    rw [load_append _ (by omega), ← hutilizationStored]
    have hstored := load_store_same (bytesOf 4 vConfig.utilization.toUInt32.toNat)
      (show 4152 ≤ third.length from by omega)
    rwa [length_bytes_of] at hstored
  have hmemoryFits : vConfig.memory.toNat % 256 ^ 8 = vConfig.memory.toNat :=
    Nat.mod_eq_of_lt vConfig.memory.toNat_lt
  have hutilizationFits : vConfig.utilization.toUInt32.toNat % 256 ^ 4 =
      vConfig.utilization.toUInt32.toNat := Nat.mod_eq_of_lt vConfig.utilization.toUInt32.toNat_lt
  rw [hpodText, hnameText, hmemory, hutilization, value_of_bytes_of, value_of_bytes_of,
    hmemoryFits, hutilizationFits, UInt32.ofNat_toNat, Int32.toInt32_toUInt32]

/-- The numbers in the record of a pod whose requests are in their ranges. -/
theorem v_config_numbers {vm : VirtualManager} {podUID : String} (containerName : String)
    (hblocks : 0 ≤ ((vm.memoryRequestByPodUID podUID).getD 0).toInt ∧
      ((vm.memoryRequestByPodUID podUID).getD 0).toInt < 2 ^ 36)
    (hcores : 0 ≤ ((vm.coreRequestByPodUID podUID).getD 0).toInt ∧
      ((vm.coreRequestByPodUID podUID).getD 0).toInt < 2 ^ 31) :
    ((vm.vConfig podUID containerName).memory.toNat : Int) =
        ((vm.memoryRequestByPodUID podUID).getD 0).toInt * 268435456 ∧
      (vm.vConfig podUID containerName).utilization.toInt =
        ((vm.coreRequestByPodUID podUID).getD 0).toInt := by
  unfold VirtualManager.vConfig
  generalize (vm.memoryRequestByPodUID podUID).getD 0 = blocks at hblocks ⊢
  generalize (vm.coreRequestByPodUID podUID).getD 0 = cores at hcores ⊢
  dsimp only
  constructor
  · have hunsigned : (blocks.toUInt64.toNat : Int) = blocks.toInt := by
      rw [Int64.toNat_toUInt64_of_le (Int64.le_iff_toInt_le.mpr hblocks.1)]
      exact Int.toNat_of_nonneg hblocks.1
    have hsize : memoryBlockSize.toNat = 268435456 := rfl
    rw [UInt64.toNat_mul, hsize]
    omega
  · rw [Int64.toInt_toInt32]
    exact Int.bmod_eq_of_le (by omega) (by omega)

/-- A file without an error is a whole record. -/
theorem create_file_of_no_error {vm : VirtualManager} {wsize : Option Nat}
    {podUID containerName : String}
    (hlength : (vConfigBytes (vm.vConfig podUID containerName)).length = rcDataT.size)
    (h : (createVCUDAFile vm wsize podUID containerName).1 = none) :
    (createVCUDAFile vm wsize podUID containerName).2 =
      some (vConfigBytes (vm.vConfig podUID containerName)) := by
  unfold createVCUDAFile at h ⊢
  cases wsize with
  | none => cases h
  | some wsize =>
      by_cases hwhole : wsize = resourceDataT.size
      · rw [hwhole, size_eq, ← hlength]
        exact congrArg some List.take_length
      · have hret : (settingToDisk (some wsize) (vConfigBytes (vm.vConfig podUID
            containerName))).1 = 2 := if_pos hwhole
        dsimp only at h
        rw [hret] at h
        cases h

/-- What is read of a file: nothing when it is too short, else its bytes in front of
`config_data`. -/
theorem read_record_cases (content before : List UInt8) :
    (content.length < rcDataT.size → readRecord (some content) before = none) ∧
      (content.length = rcDataT.size →
        readRecord (some content) before = some (content ++ before.drop rcDataT.size)) := by
  unfold readRecord
  constructor
  · intro hshort
    exact if_pos (by omega)
  · intro hwhole
    have hsize : min content.length rcDataT.size = rcDataT.size := by omega
    dsimp only
    rw [if_neg (not_not_intro hsize), ← hwhole, List.take_length, store, List.take_zero,
      List.nil_append, Nat.zero_add]

/-- A file that is opened is read. -/
theorem outcome_of_opened {file : List Char → Option (List UInt8)} {files : ProcFiles}
    {arrays : Arrays} {before : List UInt8} {path : List Char} {outcome : Option (List UInt8)}
    (h : readControllerConfiguration file files arrays before = .opened path outcome) :
    outcome = readRecord (file path) before := by
  unfold readControllerConfiguration at h
  split at h
  · cases h
  · split at h
    · cases h
    · cases h
      rfl

/-! ## The result -/

/-- What `createVCUDAFile` writes without an error, `read_controller_configuration` reads back when
it opens that file, and it accepts no file that is shorter than the record. -/
theorem record_round_trip (vm : VirtualManager) (wsize : Option Nat)
    {podUID containerName : String} (hpod : (goBytes podUID).length < 48)
    (hname : (goBytes containerName).length < filenameMax)
    (hblocks : 0 ≤ ((vm.memoryRequestByPodUID podUID).getD 0).toInt ∧
      ((vm.memoryRequestByPodUID podUID).getD 0).toInt < 2 ^ 36)
    (hcores : 0 ≤ ((vm.coreRequestByPodUID podUID).getD 0).toInt ∧
      ((vm.coreRequestByPodUID podUID).getD 0).toInt < 2 ^ 31)
    (file : List Char → Option (List UInt8)) (files : ProcFiles) (arrays : Arrays)
    (before : List UInt8) {path : List Char} {outcome : Option (List UInt8)}
    (hread : readControllerConfiguration file files arrays before = .opened path outcome) :
    ((createVCUDAFile vm wsize podUID containerName).1 = none →
        file path = (createVCUDAFile vm wsize podUID containerName).2 →
          ∃ bytes, outcome = some bytes ∧ ReadsAs (configData bytes) podUID containerName
            ((vm.memoryRequestByPodUID podUID).getD 0).toInt
            ((vm.coreRequestByPodUID podUID).getD 0).toInt) ∧
      ∀ content, file path = some content → content.length < rcDataT.size → outcome = none := by
  have houtcome := outcome_of_opened hread
  constructor
  · intro herror hfile
    obtain ⟨hlength, hdata⟩ := v_config_bytes (vm.vConfig podUID containerName) hpod
      hname (before.drop rcDataT.size)
    obtain ⟨hmemory, hutilization⟩ := v_config_numbers containerName hblocks hcores
    have hwhole : (vConfigBytes (vm.vConfig podUID containerName)).length = rcDataT.size :=
      hlength.trans offsets.2.2.2.2.symm
    rw [create_file_of_no_error hwhole herror] at hfile
    rw [hfile, (read_record_cases _ before).2 hwhole] at houtcome
    refine ⟨_, houtcome, ?_⟩
    rw [hdata]
    exact ⟨⟨rfl, load_text_self⟩, ⟨rfl, load_text_self⟩, hmemory, hutilization⟩
  · intro content hcontent hshort
    rw [houtcome, hcontent]
    exact (read_record_cases content before).1 hshort

/-- A manager that knows of one pod, which asks for 30 cores and 4 blocks. -/
def sampleManager : VirtualManager :=
  { newVirtualManager with
    coreRequestByPodUID := fun _ => some 30
    memoryRequestByPodUID := fun _ => some 4 }

/-- A container of that pod, on a node with version 2 of the cgroups. -/
def sampleFiles : ProcFiles where
  listing := []
  cgroup := []
  mountinfo := "9 1 8:2 /var/lib/kubelet/pods/1f/containers/main/0 /dev/termination-log\n".toList
  cgroupText := List.not_mem_nil
  mountinfoText := by decide

/-- The path that the process of the container finds. -/
theorem sample_paths :
    getPathByCgroupInPlace (checkCgroupVersion sampleFiles.listing) sampleFiles ⟨[], [], [], []⟩ =
      some (pathsOf "main".toList) := by
  decide +kernel

/-- The record of that container is written and read. -/
theorem record_round_trip_sample :
    ∃ bytes, readRecord (createVCUDAFile sampleManager (some 4160) "1f" "main").2 [] = some bytes ∧
      ReadsAs (configData bytes) "1f" "main" 4 30 := by
  have hread : readControllerConfiguration
      (fun _ => (createVCUDAFile sampleManager (some 4160) "1f" "main").2) sampleFiles
        ⟨[], [], [], []⟩ [] =
          .opened (pathsOf "main".toList).configPath
            (readRecord (createVCUDAFile sampleManager (some 4160) "1f" "main").2 []) := by
    rw [readControllerConfiguration, sample_paths]
    rfl
  have hpod : (goBytes "1f").length < 48 := by decide
  have hname : (goBytes "main").length < filenameMax := by decide
  have hround := record_round_trip sampleManager (some 4160) hpod hname (by decide) (by decide) _
    sampleFiles ⟨[], [], [], []⟩ [] hread
  exact hround.1 rfl rfl

end UniShare.Record
