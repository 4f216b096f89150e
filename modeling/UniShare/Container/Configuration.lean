import UniShare.Container.GetStr
import UniShare.Container.InPlace
import UniShare.Lib.CLayout

/-!
# The configuration that a process reads

The rest of `core/container/contInfoReg.c`: `get_cgroupV2_data` on the arrays of its caller, the
paths that `get_path_by_cgroup` builds, and the record that `read_controller_configuration` reads
into `config_data`. `lookup_reported_iff` says for which kernel files a container that is not found
is reported as such.
-/

namespace UniShare.Container

open Lib

/-! ## The container of a mounts file -/

/-- What `get_cgroupV2_data` returns and leaves in the arrays of its caller. -/
structure CgroupV2Data where
  ret : Nat
  podUid : List Char
  contName : List Char

/-- The loop of `get_cgroupV2_data` over the pieces of the file. A read at the end of the file
leaves an empty line, and `getStr` finds nothing in that. -/
def mountLoop : List (List Char) → List Char → List Char → List Char → Option CgroupV2Data
  -- the loop is left in both ways with `ret = 0`
  | [], _, podUid, contName => some ⟨0, podUid, contName⟩
  | piece :: rest, buffer, podUid, contName =>
      let buffer := overwrite (overwrite buffer 0 [nul]) 0 (piece ++ [nul])
      match getStrInPlace buffer prefixPod endPod podUid contName with
      | none => none
      | some names =>
          if names.ret = 0 then mountLoop rest buffer names.poduid names.podName
          else some ⟨0, names.poduid, names.podName⟩

/-- `get_cgroupV2_data`; `none` when a copy faults. -/
def getCgroupV2DataInPlace (mountinfo buffer podUid contName : List Char) : Option CgroupV2Data :=
  mountLoop (pieces bufferSize mountinfo) buffer podUid contName

/-! ## The paths -/

/-- `PIDS_CONFIG_NAME` -/
def pidsConfigName : List Char := "pids.config".toList

/-- What the kernel shows the process: the listing of the cgroup mounts, `/proc/self/cgroup` and
`/proc/self/mountinfo`. They are texts, in which paths have their special bytes escaped. -/
structure ProcFiles where
  listing : List Char
  cgroup : List Char
  mountinfo : List Char
  cgroupText : nul ∉ cgroup
  mountinfoText : nul ∉ mountinfo

/-- The arrays of the functions when they are called, and whatever lies behind them. -/
structure Arrays where
  buffer : List Char
  podUid : List Char
  containerId : List Char
  contName : List Char

/-- What `get_path_by_cgroup` returns, and the paths, which stay as they are when it fails. -/
structure Paths where
  ret : Nat
  baseDir : List Char
  configPath : List Char
  pidPath : List Char
  deriving DecidableEq

/-- The paths in the directory of this name. -/
def pathsOf (key : List Char) : Paths :=
  let baseDir := snprintf pathLength (vmluConfigPath ++ key)
  ⟨0, baseDir, configPath key, snprintf pathLength (baseDir ++ '/' :: pidsConfigName)⟩

/-- `get_path_by_cgroup`; the paths are empty at first. -/
def getPathByCgroupInPlace (cgroupVersion : Bool) (files : ProcFiles) (arrays : Arrays) :
    Option Paths :=
  let contName := overwrite arrays.contName 0 [nul]
  if cgroupVersion then
    (getCgroupV2DataInPlace files.mountinfo arrays.buffer arrays.podUid contName).map fun data =>
      if data.ret ≠ 0 then ⟨1, [], [], []⟩ else pathsOf (cstring data.contName 0)
  else
    let data := getCgroupDataInPlace bufferSize files.cgroup arrays.buffer arrays.podUid
      arrays.containerId
    some (if data.ret ≠ 0 then ⟨1, [], [], []⟩ else pathsOf (cstring data.containerId 0))

/-! ## The record -/

/-- The members of the record. -/
inductive Member where
  | podUid
  | containerName
  | memory
  | utilization
  deriving DecidableEq

/-- `FILENAME_MAX` -/
def filenameMax : Nat := 4096

/-- `rc_data_t`, whose attributes stand on the name of the type. -/
def rcDataT : Declaration Member where
  members := [(.podUid, .array .char 48), (.containerName, .array .char filenameMax),
    (.memory, .uint64), (.utilization, .int)]
  onName := { isPacked := true, aligned := 8 }

/-- What `read_controller_configuration` comes to. -/
inductive Reading where
  -- a copy faults while the container is looked up
  | fault
  -- the process exits before any file is opened
  | stopped
  -- the file at a path is opened; the process exits, or goes on with these bytes as `config_data`
  | opened (path : List Char) (configData : Option (List UInt8))
  deriving DecidableEq

/-- `read` from the file into `config_data`, `none` when the process exits: the file is not there,
or it is too short. -/
def readRecord (file : Option (List UInt8)) (configData : List UInt8) : Option (List UInt8) :=
  match file with
  | none => none
  | some content =>
      let rsize := min content.length rcDataT.size
      let configData := store configData 0 (content.take rcDataT.size)
      if rsize ≠ rcDataT.size then none else some configData

/-- `read_controller_configuration`, where files are opened by their path. -/
def readControllerConfiguration (file : List Char → Option (List UInt8)) (files : ProcFiles)
    (arrays : Arrays) (configData : List UInt8) : Reading :=
  match getPathByCgroupInPlace (checkCgroupVersion files.listing) files arrays with
  | none => .fault
  | some paths =>
      if paths.ret ≠ 0 then .stopped
      else .opened paths.configPath (readRecord (file paths.configPath) configData)

/-! ## Failures -/

/-- `get_cgroupV2_data` returns 0 with the names that a line has, and these are stored. -/
def YieldedV2 (mountinfo : List Char) (data : CgroupV2Data) : Prop :=
  data.ret = 0 ∧ ∃ piece ∈ pieces bufferSize mountinfo, ∃ uid name, NamesPod uid name piece ∧
    uid ≠ [] ∧ name ≠ [] ∧ cstring data.podUid 0 = uid ∧ cstring data.contName 0 = name

/-- `get_cgroup_data` returns 0 with the names in the path of a memory line, which are stored. -/
def YieldedV1 (cgroup : List Char) (data : CgroupData) : Prop :=
  data.ret = 0 ∧ ∃ piece ∈ pieces bufferSize cgroup, ∃ path uid id, HasMemoryPath path piece ∧
    containerOf path = some (uid, id) ∧ uid ≠ [] ∧ id ≠ [] ∧ cstring data.podUid 0 = uid ∧
      cstring data.containerId 0 = id

/-- The paths are not built, and the process exits before it opens a file. -/
def Stops (files : ProcFiles) (arrays : Arrays) : Prop :=
  (∃ paths, getPathByCgroupInPlace (checkCgroupVersion files.listing) files arrays = some paths ∧
      paths.ret ≠ 0) ∧
    ∀ file configData, readControllerConfiguration file files arrays configData = .stopped

/-- The names of a container are found and stored, or the lookup returns non-zero, and with it all
that calls it. -/
def LookupReported (files : ProcFiles) (arrays : Arrays) : Prop :=
  if checkCgroupVersion files.listing then
    ∃ data, getCgroupV2DataInPlace files.mountinfo arrays.buffer arrays.podUid
        (overwrite arrays.contName 0 [nul]) = some data ∧
      (YieldedV2 files.mountinfo data ∨ data.ret ≠ 0 ∧ Stops files arrays)
  else
    let data := getCgroupDataInPlace bufferSize files.cgroup arrays.buffer arrays.podUid
      arrays.containerId
    YieldedV1 files.cgroup data ∨ data.ret ≠ 0 ∧ Stops files arrays

/-- The kernel files for which the lookup is right. With version 2 there has to be a line with both
parts, and the first of them has to name a container; with version 1 the path of the first memory
line, if there is one, has to name whole. -/
def ShowsContainer (files : ProcFiles) : Prop :=
  if checkCgroupVersion files.listing then
    ∃ uid name, uid ≠ [] ∧ name ≠ [] ∧ FirstPod uid name (pieces bufferSize files.mountinfo)
  else ∀ path, FirstPath path (pieces bufferSize files.cgroup) → NamesWhole path

/-! ## What the functions find -/

/-- The loop finds what `scanPieces` finds, and faults where that does; without names it leaves the
arrays as they are. -/
theorem mount_loop_refines {lines : List (List Char)} (h : ∀ piece ∈ lines, nul ∉ piece)
    (buffer podUid contName : List Char) :
    match scanPieces lines with
    | none => mountLoop lines buffer podUid contName = none
    | some (uid, name) => ∃ data, mountLoop lines buffer podUid contName = some data ∧
        data.ret = 0 ∧
          (Holds data.podUid 0 uid ∧ Holds data.contName 0 name ∨
            ∀ piece ∈ lines, ¬ HoldsBoth piece) := by
  induction lines generalizing buffer with
  | nil => exact ⟨_, rfl, rfl, .inr nofun⟩
  | cons piece rest ih =>
      obtain ⟨hpiece, hrest⟩ := List.forall_mem_cons.mp h
      have hread : cstring (overwrite (overwrite buffer 0 [nul]) 0 (piece ++ [nul])) 0 = piece :=
        (holds_overwrite_zero _ hpiece []).cstring_eq
      have hrefines := get_str_in_place_refines
        (overwrite (overwrite buffer 0 [nul]) 0 (piece ++ [nul])) prefixPod endPod podUid contName
      rw [hread] at hrefines
      rw [scanPieces, mountLoop]
      cases hscan : getStr piece prefixPod endPod with
      | fault =>
          rw [hscan] at hrefines
          dsimp only at hrefines ⊢
          rw [hrefines]
      | found uid name =>
          rw [hscan] at hrefines
          obtain ⟨names, hnames, hret, huid, hname⟩ := hrefines
          dsimp only
          rw [hnames]
          dsimp only
          rw [if_neg (by rw [hret]; exact one_ne_zero)]
          exact ⟨_, rfl, rfl, .inl ⟨huid, hname⟩⟩
      | absent =>
          rw [hscan] at hrefines
          dsimp only at hrefines ⊢
          rw [hrefines]
          dsimp only
          rw [if_pos rfl]
          have hgoes := ih hrest (overwrite (overwrite buffer 0 [nul]) 0 (piece ++ [nul]))
          cases hothers : scanPieces rest with
          | none => simpa only [hothers] using hgoes
          | some names =>
              rw [hothers] at hgoes
              obtain ⟨data, hdata, hret, hfound⟩ := hgoes
              refine ⟨data, hdata, hret, hfound.imp_right fun hnone => ?_⟩
              exact List.forall_mem_cons.mpr ⟨(get_str_absent_iff piece).mp hscan, hnone⟩

/-- The names of a container are found in a mounts file and stored exactly when its first line with
both parts has them. -/
theorem yielded_v2_iff {mountinfo : List Char} (h : nul ∉ mountinfo)
    (buffer podUid contName : List Char) :
    (∃ data, getCgroupV2DataInPlace mountinfo buffer podUid contName = some data ∧
        YieldedV2 mountinfo data) ↔
      ∃ uid name, uid ≠ [] ∧ name ≠ [] ∧ FirstPod uid name (pieces bufferSize mountinfo) := by
  have hpieces : ∀ piece ∈ pieces bufferSize mountinfo, nul ∉ piece :=
    fun piece hpiece hmem => h ((infix_of_mem_pieces hpiece).subset hmem)
  have hrefines := mount_loop_refines hpieces buffer podUid contName
  unfold getCgroupV2DataInPlace
  constructor
  · intro hyielded
    obtain ⟨data, hdata, -, piece, hpiece, uid, name, hnames, huid, hname, huidStored,
      hnameStored⟩ := hyielded
    refine ⟨uid, name, huid, hname, (scan_pieces_pod_iff hname _).mp ?_⟩
    cases hscan : scanPieces (pieces bufferSize mountinfo) with
    | none =>
        rw [hscan] at hrefines
        rw [hrefines] at hdata
        cases hdata
    | some found =>
        rw [hscan] at hrefines
        obtain ⟨stored, hstored, -, hfound | hnone⟩ := hrefines
        · obtain rfl := Option.some.inj (hstored.symm.trans hdata)
          rw [← huidStored, ← hnameStored, hfound.1.cstring_eq, hfound.2.cstring_eq]
        · exact absurd hnames.holds_both (hnone piece hpiece)
  · intro hshown
    obtain ⟨uid, name, huid, hname, hfirst⟩ := hshown
    rw [(scan_pieces_pod_iff hname _).mpr hfirst] at hrefines
    obtain ⟨data, hdata, hret, hfound⟩ := hrefines
    obtain ⟨earlier, piece, later, hlines, -, hnames⟩ := hfirst
    have hpiece : piece ∈ pieces bufferSize mountinfo := by
      rw [hlines]
      exact List.mem_append_right _ List.mem_cons_self
    rcases hfound with hheld | hnone
    · exact ⟨data, hdata, hret, piece, hpiece, uid, name, hnames, huid, hname,
        hheld.1.cstring_eq, hheld.2.cstring_eq⟩
    · exact absurd hnames.holds_both (hnone piece hpiece)

/-- Whatever `get_cgroupV2_data` finds, it returns 0. -/
theorem cgroup_v2_ret {mountinfo buffer podUid contName : List Char} {data : CgroupV2Data}
    (h : nul ∉ mountinfo)
    (hdata : getCgroupV2DataInPlace mountinfo buffer podUid contName = some data) :
    data.ret = 0 := by
  have hpieces : ∀ piece ∈ pieces bufferSize mountinfo, nul ∉ piece :=
    fun piece hpiece hmem => h ((infix_of_mem_pieces hpiece).subset hmem)
  have hrefines := mount_loop_refines hpieces buffer podUid contName
  cases hscan : scanPieces (pieces bufferSize mountinfo) with
  | none =>
      rw [hscan] at hrefines
      rw [getCgroupV2DataInPlace, hrefines] at hdata
      cases hdata
  | some names =>
      rw [hscan] at hrefines
      obtain ⟨stored, hstored, hret, -⟩ := hrefines
      rwa [← Option.some.inj (hstored.symm.trans hdata)]

/-- A lookup that fails stops the process. -/
theorem stops_of_ret {files : ProcFiles} {arrays : Arrays}
    (hversion : checkCgroupVersion files.listing = false)
    (h : (getCgroupDataInPlace bufferSize files.cgroup arrays.buffer arrays.podUid
      arrays.containerId).ret ≠ 0) : Stops files arrays := by
  have hpaths : getPathByCgroupInPlace (checkCgroupVersion files.listing) files arrays =
      some ⟨1, [], [], []⟩ := by
    rw [hversion, getPathByCgroupInPlace, if_neg Bool.false_ne_true]
    dsimp only
    rw [if_pos h]
  refine ⟨⟨_, hpaths, one_ne_zero⟩, fun file configData => ?_⟩
  rw [readControllerConfiguration, hpaths]
  rfl

/-- The names in a cgroup file are stored, or its lookup returns non-zero, exactly when the path of
the first memory line names whole. -/
theorem yielded_v1_iff {cgroup : List Char} (h : nul ∉ cgroup)
    (buffer podUid containerId : List Char) :
    (YieldedV1 cgroup (getCgroupDataInPlace bufferSize cgroup buffer podUid containerId) ∨
        (getCgroupDataInPlace bufferSize cgroup buffer podUid containerId).ret ≠ 0) ↔
      ∀ path, FirstPath path (pieces bufferSize cgroup) → NamesWhole path := by
  have hrefines := in_place_refines le_rfl h buffer podUid containerId
  unfold getCgroupData at hrefines
  simp only [← first_path_iff, names_whole_iff]
  constructor
  · intro hright path hpath uid id hnames
    rw [hpath, Option.bind_some, hnames] at hrefines
    rcases hright with ⟨-, -, -, -, uid', id', -, -, huid, hid, huidStored, hidStored⟩ | hret
    · rw [← hrefines.podUid.cstring_eq, ← hrefines.containerId.cstring_eq, huidStored, hidStored]
      exact ⟨huid, hid⟩
    · exact absurd hrefines.ret hret
  · intro hwhole
    cases hpath : (pieces bufferSize cgroup).findSome? memoryPath with
    | none =>
        rw [hpath, Option.bind_none] at hrefines
        exact .inr (by rw [hrefines]; exact one_ne_zero)
    | some path =>
        rw [hpath, Option.bind_some] at hrefines
        cases hnames : containerOf path with
        | none =>
            rw [hnames] at hrefines
            exact .inr (by rw [hrefines]; exact one_ne_zero)
        | some names =>
            obtain ⟨uid, id⟩ := names
            rw [hnames] at hrefines
            obtain ⟨huid, hid⟩ := hwhole path hpath uid id hnames
            obtain ⟨earlier, piece, later, hlines, hmemory, -⟩ := first_path_iff.mp hpath
            have hpiece : piece ∈ pieces bufferSize cgroup := by
              rw [hlines]
              exact List.mem_append_right _ List.mem_cons_self
            exact .inl ⟨hrefines.ret, piece, hpiece, path, uid, id, hmemory, hnames, huid, hid,
              hrefines.podUid.cstring_eq, hrefines.containerId.cstring_eq⟩

/-! ## The result -/

/-- A container that is not found is reported as such for just these kernel files. -/
theorem lookup_reported_iff (files : ProcFiles) (arrays : Arrays) :
    LookupReported files arrays ↔ ShowsContainer files := by
  unfold LookupReported ShowsContainer
  cases hversion : checkCgroupVersion files.listing with
  | true =>
      rw [if_pos rfl, if_pos rfl, ← yielded_v2_iff files.mountinfoText arrays.buffer arrays.podUid
        (overwrite arrays.contName 0 [nul])]
      refine exists_congr fun data => and_congr_right fun hdata => or_iff_left ?_
      exact fun hret => hret.1 (cgroup_v2_ret files.mountinfoText hdata)
  | false =>
      rw [if_neg Bool.false_ne_true, if_neg Bool.false_ne_true,
        ← yielded_v1_iff files.cgroupText arrays.buffer arrays.podUid arrays.containerId]
      refine or_congr_right ?_
      exact and_iff_left_of_imp fun hret => stops_of_ret hversion hret

/-- On a node with version 2 of the cgroups, a process outside of any pod. -/
def hostFiles : ProcFiles where
  listing := "cgroup2 on /sys/fs/cgroup type cgroup2 (rw)\n".toList
  cgroup := "0::/init.scope\n".toList
  mountinfo := "22 1 8:2 / / rw - ext4 /dev/sda2 rw\n".toList
  cgroupText := by decide
  mountinfoText := by decide

/-- The lookup outside of any pod is not reported as failed. -/
theorem lookup_reported_host : ¬ LookupReported hostFiles ⟨[], [], [], []⟩ := by
  have hversion : checkCgroupVersion hostFiles.listing = true := by decide +kernel
  have hnone : ∀ piece ∈ pieces bufferSize hostFiles.mountinfo, strstr prefixPod piece = none := by
    decide +kernel
  unfold LookupReported
  rw [if_pos hversion]
  intro h
  obtain ⟨data, hdata, ⟨-, piece, hpiece, uid, name, hnames, -⟩ | ⟨hret, -⟩⟩ := h
  · exact strstr_eq_none_iff.mp (hnone piece hpiece) hnames.holds_both.1
  · exact hret (cgroup_v2_ret hostFiles.mountinfoText hdata)

end UniShare.Container
