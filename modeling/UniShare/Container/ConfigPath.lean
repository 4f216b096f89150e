import UniShare.Container.ContInfoReg
import UniShare.PluginRegister.Vcore
import UniShare.ResourceManager.Machine

/-!
# Where the configuration is written and where it is read

The manager derives the path of a configuration file from the Kubernetes API, after
`creatVcudaServer` and `isCgroupVersionV2` of `k8sPlugins/resourceManager`; the hooked process
derives it from kernel files and sees it through the mount of `Allocate`.
`config_path_agrees_iff` says when the two are the same.
-/

namespace UniShare.Container

open Lib Kube PluginRegister ResourceManager

/-! ## The writer -/

/-- `isCgroupVersionV2`, with the output of `mount | grep cgroup`; without a line `grep` fails and
the daemon exits. -/
def isCgroupVersionV2 (output : List Char) : Option Bool :=
  if output = [] then none
  else
    some ((output.splitOn '\n').all fun line =>
      (strstr "/sys/fs/cgroup/memory".toList line).isNone)

/-- A name that Kubernetes or Docker gives. -/
structure Identifier where
  text : String
  nonempty : text.toList ≠ []
  plain : ∀ c ∈ text.toList, c.isAlphanum = true ∨ c = '-'
  short : text.toList.length ≤ 253

/-- The ID of a container has no dashes. -/
structure ContainerID extends Identifier where
  undashed : '-' ∉ text.toList

/-- The name of a container's directory: its name under version 2, its ID under version 1. -/
def directoryKey (cgroupV2 : Bool) (name : Identifier) (id : ContainerID) : Identifier :=
  if cgroupV2 then name else id.toIdentifier

/-- The text of a rooted path. -/
def pathText (path : List String) : List Char :=
  path.flatMap fun component => '/' :: component.toList

/-- `vcudaFileName` of a container of a pod. -/
def writtenPath (uid key : Identifier) : List Char :=
  pathText (vcudaFileName (baseDir [uid.text, key.text]))

/-- From the head of the loop over containers to the creation of the file, `creatVcudaServer` comes
to that path. -/
theorem create_vcuda_file [Gjson] (cgroupV2 : Bool) {vm : VirtualManager} {disk : ConfigDisk}
    {pod : Json} {uid name : Identifier} {id : ContainerID} (rest : List String)
    (hpod : podUID pod = uid.text) (hname : vm.containerNameByUid id.text = some name.text)
    (ok : Bool) :
    ∃ dir made,
      creatVcudaServer cgroupV2 vm disk pod ⟨ok, none⟩ (.dirName (id.text :: rest)) =
        .next vm disk (.mkdir id.text dir rest) ∧
      creatVcudaServer cgroupV2 vm disk pod ⟨ok, none⟩ (.mkdir id.text dir rest) =
        .next vm made (.contName id.text dir rest) ∧
      creatVcudaServer cgroupV2 vm made pod ⟨ok, none⟩ (.contName id.text dir rest) =
        .next vm made (.totals dir name.text rest) ∧
      creatVcudaServer cgroupV2 vm made pod ⟨ok, none⟩ (.totals dir name.text rest) =
        .next vm made (.create (vcudaFileName dir) (vm.vConfig uid.text name.text) rest) ∧
      pathText (vcudaFileName dir) = writtenPath uid (directoryKey cgroupV2 name id) := by
  refine ⟨baseDir [uid.text, (directoryKey cgroupV2 name id).text], _, ?_, rfl, ?_, ?_, rfl⟩
  · cases cgroupV2 <;> simp [creatVcudaServer, hpod, hname, directoryKey]
  · simp [creatVcudaServer, hname]
  · simp [creatVcudaServer, hpod]

/-! ## The mount -/

/-- None of the components of a path leads above the directory that the path starts in. -/
def staysBelow : Nat → List (List Char) → Bool
  | _, [] => true
  | depth, component :: rest =>
      if component = ['.', '.'] then 0 < depth && staysBelow (depth - 1) rest
      else staysBelow (if component = [] ∨ component = ['.'] then depth else depth + 1) rest

/-- Components that are no way up stay below. -/
theorem stays_below_of_no_up (depth : Nat) {components : List (List Char)}
    (h : ∀ component ∈ components, component ≠ ['.', '.']) :
    staysBelow depth components = true := by
  induction components generalizing depth with
  | nil => rfl
  | cons component rest ih =>
      rw [staysBelow, if_neg (h component (by simp))]
      exact ih _ fun other hother => h other (by simp [hother])

/-- A path in the container as it is on the host: under the first mount that it is below. The way up
from a mount is in the container, so a path that leaves the mount has no place on the host. -/
def hostPath (mounts : List Mount) (path : List Char) : Option (List Char) :=
  mounts.findSome? fun mount =>
    let below := path.drop mount.containerPath.toList.length
    if mount.containerPath.toList ++ ['/'] <+: path ∧ staysBelow 0 (splitSlash below) then
      some (mount.hostPath.toList ++ below)
    else none

/-- A path that is below the first mount. -/
theorem host_path_below (mount : Mount) (rest : List Mount) {path : List Char}
    (h : mount.containerPath.toList ++ ['/'] <+: path)
    (hstays : staysBelow 0 (splitSlash (path.drop mount.containerPath.toList.length)) = true) :
    hostPath (mount :: rest) path =
      some (mount.hostPath.toList ++ path.drop mount.containerPath.toList.length) := by
  rw [hostPath, List.findSome?_cons, if_pos ⟨h, hstays⟩]

/-- A path that is not below the first mount. -/
theorem host_path_other (mount : Mount) (rest : List Mount) {path : List Char}
    (h : mount.containerPath.toList ++ ['/'] <+: path →
      staysBelow 0 (splitSlash (path.drop mount.containerPath.toList.length)) = false) :
    hostPath (mount :: rest) path = hostPath rest path := by
  rw [hostPath, List.findSome?_cons, if_neg fun hbelow => ?_]
  · rfl
  · exact absurd ((h hbelow.1).symm.trans hbelow.2) (by decide)

/-- The mounts that `Allocate` returns. -/
def allocatedMounts (uid : Identifier) (minorNum : Nat) : List Mount :=
  (allocResp uid.text minorNum).containerResponses.flatMap ContainerAllocateResponse.mounts

/-- The file that the hooked process opens, as it is on the host. -/
def openedPath (listing cgroup mountinfo : List Char) (uid : Identifier) (minorNum : Nat) :
    Option (List Char) :=
  (getPathByCgroup (checkCgroupVersion listing) cgroup mountinfo).bind
    (hostPath (allocatedMounts uid minorNum))

/-! ## The kernel files -/

/-- The quality of service class of a pod, as it shows in the names of cgroups. -/
inductive Qos where
  | guaranteed
  | burstable
  | besteffort
  deriving DecidableEq, Repr

/-- The cgroup drivers. -/
inductive CgroupDriver where
  | systemd
  | cgroupfs
  deriving DecidableEq, Repr

/-- The container runtimes whose cgroups the source knows. -/
inductive Runtime where
  | docker
  | criContainerd
  deriving DecidableEq, Repr

/-- The name of a runtime in a scope. -/
def Runtime.text : Runtime → List Char
  | .docker => "docker".toList
  | .criContainerd => "cri-containerd".toList

/-- The cgroup above that of a pod. -/
def parentPath : CgroupDriver → Qos → List Char
  | .systemd, .guaranteed => "/kubepods.slice".toList
  | .systemd, .burstable => "/kubepods.slice/kubepods-burstable.slice".toList
  | .systemd, .besteffort => "/kubepods.slice/kubepods-besteffort.slice".toList
  | .cgroupfs, .guaranteed => "/kubepods".toList
  | .cgroupfs, .burstable => "/kubepods/burstable".toList
  | .cgroupfs, .besteffort => "/kubepods/besteffort".toList

/-- The name of a pod's slice up to its UID. -/
def sliceStart : Qos → List Char
  | .guaranteed => "kubepods".toList
  | .burstable => "kubepods-burstable".toList
  | .besteffort => "kubepods-besteffort".toList

/-- A slice escapes dashes. -/
def escapeDash (c : Char) : Char := if c = '-' then '_' else c

/-- The name of a pod's cgroup. -/
def podComponent (qos : Qos) (uid : Identifier) : CgroupDriver → List Char
  | .systemd => sliceStart qos ++ "-pod".toList ++ uid.text.toList.map escapeDash ++ ".slice".toList
  | .cgroupfs => "pod".toList ++ uid.text.toList

/-- The name of a container's cgroup. -/
def containerComponent (runtime : Runtime) (id : ContainerID) : CgroupDriver → List Char
  | .systemd => runtime.text ++ '-' :: id.text.toList ++ ".scope".toList
  | .cgroupfs => id.text.toList

/-- The path of a container's cgroup. -/
def kubepodsPath (driver : CgroupDriver) (qos : Qos) (runtime : Runtime) (uid : Identifier)
    (id : ContainerID) : List Char :=
  parentPath driver qos ++ '/' :: podComponent qos uid driver ++
    '/' :: containerComponent runtime id driver

/-- The memory line of the file, the first with a token `memory`, is that of the container. -/
def MemoryLine (uid : Identifier) (id : ContainerID) (cgroup : List Char) : Prop :=
  ∃ before hierarchy driver qos runtime after,
    (before = [] ∨ ∃ body, before = body ++ ['\n']) ∧
    (∀ piece ∈ pieces bufferSize before, memoryPath piece = none) ∧
    (∀ c ∈ hierarchy, c.isDigit = true) ∧ hierarchy.length ≤ 10 ∧
    cgroup = before ++ (hierarchy ++ ":memory:".toList ++ kubepodsPath driver qos runtime uid id) ++
      '\n' :: after

/-! ## Version 1 -/

/-- A character that is neither alphanumeric nor a dash does not occur in an identifier. -/
theorem Identifier.not_mem (identifier : Identifier) {c : Char} (hc : c.isAlphanum = false)
    (hdash : c ≠ '-') : c ∉ identifier.text.toList := by
  intro hmem
  rcases identifier.plain c hmem with halpha | heq
  · rw [hc] at halpha
    cases halpha
  · exact hdash heq

/-- An identifier is one component of a path. -/
theorem Identifier.plain_element (identifier : Identifier) : PlainElement identifier.text := by
  have hdot := identifier.not_mem (show ('.').isAlphanum = false from by decide) (by decide)
  refine ⟨?_, ?_, ?_, identifier.not_mem (by decide) (by decide)⟩
  · intro heq
    exact identifier.nonempty (by rw [heq]; rfl)
  · intro heq
    exact hdot (by rw [heq]; decide)
  · intro heq
    exact hdot (by rw [heq]; decide)

/-- Escaping dashes adds only underscores. -/
theorem not_mem_escaped {c : Char} {text : List Char} (hc : c ≠ '_') (h : c ∉ text) :
    c ∉ text.map escapeDash := by
  intro hmem
  obtain ⟨d, hd, heq⟩ := List.mem_map.mp hmem
  unfold escapeDash at heq
  split at heq
  · exact hc heq.symm
  · exact h (heq ▸ hd)

/-- The container in the path of its cgroup. -/
theorem container_of_kubepods (driver : CgroupDriver) (qos : Qos) (runtime : Runtime)
    (uid : Identifier) (id : ContainerID) :
    ∃ podUid, containerOf (kubepodsPath driver qos runtime uid id) =
      some (podUid, id.text.toList) := by
  have hidDot := id.not_mem (show ('.').isAlphanum = false from by decide) (by decide)
  have hidSlash := id.not_mem (show ('/').isAlphanum = false from by decide) (by decide)
  have huidSlash := uid.not_mem (show ('/').isAlphanum = false from by decide) (by decide)
  cases driver with
  | systemd =>
      have huidDot := uid.not_mem (show ('.').isAlphanum = false from by decide) (by decide)
      exact ⟨_, container_of_scope (by cases qos <;> decide) (by cases qos <;> decide)
        (by cases qos <;> decide) (not_mem_escaped (by decide) huidDot)
        (not_mem_escaped (by decide) huidSlash) (by cases runtime <;> decide)
        (by cases runtime <;> decide) hidDot hidSlash id.undashed⟩
  | cgroupfs =>
      have hsecond : '/' ∉ "pod".toList ++ uid.text.toList := by simp [huidSlash]
      exact ⟨_, container_of_id hsecond hidDot hidSlash⟩

/-- The path of a cgroup has neither colons nor newlines. -/
theorem not_mem_kubepods {driver : CgroupDriver} {qos : Qos} {runtime : Runtime} {uid : Identifier}
    {id : ContainerID} {c : Char} (hc : c = ':' ∨ c = '\n') :
    c ∉ kubepodsPath driver qos runtime uid id := by
  have hplain : c.isAlphanum = false ∧ c ≠ '-' ∧ c ≠ '/' ∧ c ≠ '_' := by
    rcases hc with rfl | rfl <;> decide
  obtain ⟨halpha, hdash, hslash, hunder⟩ := hplain
  have hparent : c ∉ parentPath driver qos := by
    rcases hc with rfl | rfl <;> cases driver <;> cases qos <;> decide
  have huid := uid.not_mem halpha hdash
  have hescaped : c ∉ uid.text.toList.map escapeDash := not_mem_escaped hunder huid
  have hid := id.not_mem halpha hdash
  have hpod : c ∉ podComponent qos uid driver := by
    have hstart : c ∉ sliceStart qos := by rcases hc with rfl | rfl <;> cases qos <;> decide
    have hconst : c ∉ "-pod".toList ∧ c ∉ ".slice".toList ∧ c ∉ "pod".toList := by
      rcases hc with rfl | rfl <;> decide
    cases driver with
    | systemd =>
        simp only [podComponent, List.mem_append, not_or]
        exact ⟨⟨⟨hstart, hconst.1⟩, hescaped⟩, hconst.2.1⟩
    | cgroupfs =>
        simp only [podComponent, List.mem_append, not_or]
        exact ⟨hconst.2.2, huid⟩
  have hcontainer : c ∉ containerComponent runtime id driver := by
    have hruntime : c ∉ runtime.text := by rcases hc with rfl | rfl <;> cases runtime <;> decide
    have hscope : c ∉ ".scope".toList := by rcases hc with rfl | rfl <;> decide
    cases driver with
    | systemd =>
        simp only [containerComponent, List.mem_append, List.mem_cons, not_or]
        exact ⟨⟨hruntime, hdash, hid⟩, hscope⟩
    | cgroupfs => exact hid
  simp only [kubepodsPath, List.mem_append, List.mem_cons, not_or]
  exact ⟨⟨hparent, hslash, hpod⟩, hslash, hcontainer⟩

/-- The path of a cgroup is short. -/
theorem kubepods_length (driver : CgroupDriver) (qos : Qos) (runtime : Runtime) (uid : Identifier)
    (id : ContainerID) : (kubepodsPath driver qos runtime uid id).length < 1000 := by
  have huid := uid.short
  have hid := id.short
  have hparent : (parentPath driver qos).length ≤ 50 := by cases driver <;> cases qos <;> decide
  have hstart : (sliceStart qos).length ≤ 50 := by cases qos <;> decide
  have hruntime : runtime.text.length ≤ 50 := by cases runtime <;> decide
  cases driver <;>
    simp only [kubepodsPath, podComponent, containerComponent, List.length_append, List.length_cons,
      List.length_map, String.length_toList] at * <;>
    simp only [show ("-pod" : String).length = 4 from rfl,
      show ("pod" : String).length = 3 from rfl, show (".slice" : String).length = 6 from rfl,
      show (".scope" : String).length = 6 from rfl] <;>
    omega

/-- From a file with the container's memory line, the container's ID is read. -/
theorem get_cgroup_data_eq {uid : Identifier} {id : ContainerID} {cgroup : List Char}
    (h : MemoryLine uid id cgroup) :
    ∃ podUid, getCgroupData cgroup = some (podUid, id.text.toList) := by
  obtain ⟨before, hierarchy, driver, qos, runtime, after, hends, hnone, hdigits, hshort, rfl⟩ := h
  have hdigit : ∀ c, c.isDigit = false → c ∉ hierarchy := by
    intro c hc hmem
    rw [hdigits c hmem] at hc
    cases hc
  have hline : '\n' ∉ hierarchy ++ ":memory:".toList ++ kubepodsPath driver qos runtime uid id := by
    simp [hdigit '\n' (by decide), not_mem_kubepods]
  have hfits : (hierarchy ++ ":memory:".toList ++
      kubepodsPath driver qos runtime uid id).length + 1 < bufferSize := by
    have hpath := kubepods_length driver qos runtime uid id
    simp [bufferSize]
    omega
  have hname : hierarchy ≠ "memory".toList := by
    rintro rfl
    exact hdigit 'm' (by decide) (by decide)
  have hne : kubepodsPath driver qos runtime uid id ≠ [] := by
    simp [kubepodsPath]
  have hpath : memoryPath (hierarchy ++ ":memory:".toList ++
      kubepodsPath driver qos runtime uid id ++ ['\n']) =
        some (kubepodsPath driver qos runtime uid id) :=
    memory_path_line (hdigit ':' (by decide)) hname (not_mem_kubepods (.inl rfl)) hne
  rw [get_cgroup_data_line after hends hnone hline hfits hpath]
  exact container_of_kubepods driver qos runtime uid id

/-! ## The path -/

/-- The text of the path of a written file. -/
theorem written_path_eq (uid key : Identifier) :
    writtenPath uid key = vmluConfigPath ++ uid.text.toList ++ '/' :: key.text.toList ++
      '/' :: controllerConfigName := by
  have hpod : baseDir [uid.text] = baseDir [] ++ [uid.text] :=
    filepath_join_plain [virtualManagerPath] uid.plain_element
  have hdir : baseDir [uid.text, key.text] = baseDir [uid.text] ++ [key.text] :=
    filepath_join_plain [virtualManagerPath, uid.text] key.plain_element
  have hbase : pathText (baseDir []) ++ ['/'] = vmluConfigPath := by decide
  have hconfig : configFileName.toList = controllerConfigName := rfl
  have hfile : vcudaFileName (baseDir [uid.text, key.text]) =
      baseDir [] ++ [uid.text, key.text, configFileName] := by
    rw [vcudaFileName, hdir, hpod]
    simp
  generalize baseDir [] = dir at hfile hbase
  rw [writtenPath, hfile, ← hbase]
  simp [pathText, hconfig]

/-- The path of the file that is opened: both texts are cut to the length of their buffers. -/
theorem config_path_eq (key : List Char) :
    configPath key = vmluConfigPath ++ (key.take 494 ++ '/' :: controllerConfigName).take 494 := by
  have hlength : vmluConfigPath.length = 17 := by decide
  have hbase : snprintf pathLength (vmluConfigPath ++ key) = vmluConfigPath ++ key.take 494 := by
    rw [snprintf, List.take_append, hlength, List.take_of_length_le (by rw [hlength]; decide)]
    rfl
  rw [configPath, hbase, snprintf, List.append_assoc, List.take_append, hlength,
    List.take_of_length_le (by rw [hlength]; decide)]
  rfl

/-- The first mount of `Allocate`. -/
def nvidiaMount : Mount := ⟨"/usr/local/nvidia", "/usr/local/nvidia", true⟩

/-- The second mount of `Allocate`. -/
def hooklibMount : Mount := ⟨"/usr/local/hooklib", "/etc/unishare/hooklib", true⟩

/-- The mount of a response maps the directory of the configurations to that of its pod, for the
paths that stay in it. -/
theorem host_path_response (uid : String) (minorNum : Nat) (tail : List Char) :
    hostPath ((allocResp uid minorNum).containerResponses.flatMap ContainerAllocateResponse.mounts)
        (vmluConfigPath ++ tail) =
      if staysBelow 0 (splitSlash tail) then some (vmluConfigPath ++ uid.toList ++ '/' :: tail)
      else none := by
  have hother : ∀ rest, ¬ '/' :: 'u' :: rest <+: vmluConfigPath ++ tail := by
    intro rest h
    have hnext := (List.cons_prefix_cons.mp h).2
    exact absurd (List.cons_prefix_cons.mp hnext).1 (by decide)
  have hnvidia : ¬ "/usr/local/nvidia".toList ++ ['/'] <+: vmluConfigPath ++ tail := hother _
  have hhooklib : ¬ "/usr/local/hooklib".toList ++ ['/'] <+: vmluConfigPath ++ tail := hother _
  have hbelow : "/etc/unishare/vm".toList ++ ['/'] <+: vmluConfigPath ++ tail := ⟨tail, rfl⟩
  have hhost : (hostFilePath uid).toList = vmluConfigPath ++ uid.toList := by
    unfold hostFilePath
    exact String.toList_append
  have hdrop : (vmluConfigPath ++ tail).drop "/etc/unishare/vm".toList.length = '/' :: tail := rfl
  have hsplit : staysBelow 0 (splitSlash ('/' :: tail)) = staysBelow 0 (splitSlash tail) := rfl
  have hmounts :
      (allocResp uid minorNum).containerResponses.flatMap ContainerAllocateResponse.mounts =
        [nvidiaMount, hooklibMount, ⟨"/etc/unishare/vm", hostFilePath uid, true⟩] := rfl
  rw [hmounts, host_path_other nvidiaMount _ fun h => absurd h hnvidia,
    host_path_other hooklibMount _ fun h => absurd h hhooklib]
  split
  · rename_i hstays
    rw [host_path_below ⟨"/etc/unishare/vm", hostFilePath uid, true⟩ _ hbelow
      (hdrop ▸ hsplit.trans hstays)]
    exact congrArg₂ (fun host below => some (host ++ below)) hhost hdrop
  · rename_i hleaves
    rw [host_path_other ⟨"/etc/unishare/vm", hostFilePath uid, true⟩ _ fun _ => ?_]
    · rfl
    · rw [hdrop, hsplit]
      exact Bool.not_eq_true _ ▸ hleaves

/-- The mount of `Allocate` maps the directory of the configurations to that of the pod. -/
theorem host_path_eq (uid : Identifier) (minorNum : Nat) (tail : List Char) :
    hostPath (allocatedMounts uid minorNum) (vmluConfigPath ++ tail) =
      if staysBelow 0 (splitSlash tail) then some (vmluConfigPath ++ uid.text.toList ++ '/' :: tail)
      else none :=
  host_path_response uid.text minorNum tail

/-- The hooked process opens the file that was written exactly when it has the right name for the
directory. -/
theorem opened_iff (uid key : Identifier) (minorNum : Nat) (found : List Char) :
    hostPath (allocatedMounts uid minorNum) (configPath found) = some (writtenPath uid key) ↔
      found = key.text.toList := by
  have hname : controllerConfigName.length = 12 := by decide
  have hassoc : vmluConfigPath ++ uid.text.toList ++ '/' :: key.text.toList ++
      '/' :: controllerConfigName = vmluConfigPath ++ uid.text.toList ++
        '/' :: (key.text.toList ++ '/' :: controllerConfigName) := by
    simp
  have hshort := key.short
  rw [config_path_eq, host_path_eq, written_path_eq, hassoc, Option.ite_none_right_eq_some,
    Option.some.injEq, List.append_cancel_left_eq, List.cons.injEq]
  constructor
  · rintro ⟨-, -, heq⟩
    -- a text that was cut would be longer
    have hlengths := congrArg List.length heq
    simp only [List.length_take, List.length_append, List.length_cons, hname] at hlengths
    have hfits : found.length ≤ 494 := by omega
    have hwhole : (found ++ '/' :: controllerConfigName).length ≤ 494 := by
      simp only [List.length_append, List.length_cons, hname]
      omega
    rw [List.take_of_length_le hfits, List.take_of_length_le hwhole] at heq
    exact List.append_cancel_right heq
  · rintro rfl
    rw [List.take_of_length_le (by omega : key.text.toList.length ≤ 494),
      List.take_of_length_le (by simp [hname]; omega)]
    refine ⟨?_, rfl, rfl⟩
    have hplain := key.plain_element
    rw [split_slash_append, split_slash_plain hplain.2.2.2, split_slash_plain (by decide)]
    refine stays_below_of_no_up 0 fun component hmem => ?_
    rcases List.mem_cons.mp hmem with rfl | hmem
    · exact fun hup => hplain.2.2.1 (String.toList_inj.mp hup)
    · rw [List.mem_singleton.mp hmem]
      decide

/-! ## The versions -/

/-- When the hooked process finds version 1, so did the manager. -/
theorem cgroup_v1_of_check {listing : List Char} (h : checkCgroupVersion listing = false) :
    isCgroupVersionV2 listing = some false := by
  obtain ⟨piece, hpiece, hfound⟩ := List.all_eq_false.mp h
  have hin : "/sys/fs/cgroup/memory".toList <:+: piece := by
    refine strstr_is_some_iff.mp ?_
    simpa [Option.isSome_iff_ne_none] using hfound
  obtain ⟨line, hline, hholds⟩ :=
    exists_line_of_infix (by decide) (hin.trans (infix_of_mem_pieces hpiece))
  have hne : listing ≠ [] := by
    rintro rfl
    cases hpiece
  have hsome := strstr_is_some_iff.mpr hholds
  have hall : ((listing.splitOn '\n').all fun line =>
      (strstr "/sys/fs/cgroup/memory".toList line).isNone) = false := by
    refine List.all_eq_false.mpr ⟨line, hline, ?_⟩
    rw [Option.isNone_iff_eq_none]
    exact Option.isSome_iff_ne_none.mp hsome
  rw [isCgroupVersionV2, if_neg hne, hall]

/-- Under version 2 the name that is found decides which file is opened. -/
theorem opened_path_v2 {listing mountinfo podUid found : List Char} (cgroup : List Char)
    (uid : Identifier) (minorNum : Nat) (hversion : checkCgroupVersion listing = true)
    (hscan : scanPieces (pieces bufferSize mountinfo) = some (podUid, found)) :
    openedPath listing cgroup mountinfo uid minorNum =
      hostPath (allocatedMounts uid minorNum) (configPath found) := by
  rw [openedPath, hversion, getPathByCgroup, if_pos rfl, getCgroupV2Data, hscan]
  rfl

/-- In a pod of which the manager has written the configuration of a container, the hooked process
opens that file exactly when it finds version 1, or the first buffer of `/proc/self/mountinfo` with
both parts of a kubelet path names the container's directory. -/
theorem config_path_agrees_iff (uid name : Identifier) (id : ContainerID) (minorNum : Nat)
    (listing cgroup mountinfo : List Char) {cgroupV2 : Bool}
    (hwriter : isCgroupVersionV2 listing = some cgroupV2)
    (hmemory : checkCgroupVersion listing = false → MemoryLine uid id cgroup) :
    openedPath listing cgroup mountinfo uid minorNum =
        some (writtenPath uid (directoryKey cgroupV2 name id)) ↔
      (checkCgroupVersion listing = true →
        FirstNames (directoryKey cgroupV2 name id).text.toList (pieces bufferSize mountinfo)) := by
  cases hversion : checkCgroupVersion listing with
  | false =>
      obtain ⟨podUid, hdata⟩ := get_cgroup_data_eq (hmemory hversion)
      have hv1 := hwriter.symm.trans (cgroup_v1_of_check hversion)
      obtain rfl : cgroupV2 = false := Option.some.inj hv1
      refine iff_of_true ?_ nofun
      rw [openedPath, hversion, getPathByCgroup, if_neg (by decide), hdata]
      exact (opened_iff uid _ minorNum _).mpr rfl
  | true =>
      have hkey := (directoryKey cgroupV2 name id).nonempty
      rw [← scan_pieces_iff hkey]
      simp only [forall_const]
      cases hscan : scanPieces (pieces bufferSize mountinfo) with
      | none =>
          refine iff_of_false ?_ fun ⟨_, h⟩ => nomatch h
          simp [openedPath, hversion, getPathByCgroup, getCgroupV2Data, hscan]
      | some names =>
          obtain ⟨podUid, found⟩ := names
          rw [opened_path_v2 cgroup uid minorNum hversion hscan, opened_iff]
          simp

/-- The file has a line with the kubelet's mount of the container. -/
def KubeletMount (uid name : Identifier) (mountinfo : List Char) : Prop :=
  ∃ before start rest after, mountinfo =
    before ++ (start ++ prefixPod ++ uid.text.toList ++ endPod ++ name.text.toList ++
      '/' :: rest ++ '\n' :: after)

/-- The UID of a pod. -/
def sampleUid : Identifier :=
  ⟨"27882189-b4d9-11e9-b287-ec0d9ae89a20", by simp, by simp, by simp⟩

/-- The name of a container. -/
def sampleName : Identifier := ⟨"trainer", by simp, by simp, by simp⟩

/-- The ID of a container. -/
def sampleId : ContainerID where
  text := "4aa615892ab2a014d52178bdf3da1c4a45c8ddfb5171dd6e39dc910f96693e14"
  nonempty := by simp
  plain := by simp
  short := by simp
  undashed := by simp

/-- A memory line under systemd, behind another line. -/
def sampleCgroup : List Char :=
  "11:cpuset:/\n".toList ++ ("9".toList ++ ":memory:".toList ++
    kubepodsPath .systemd .besteffort .docker sampleUid sampleId) ++ '\n' :: "0::/\n".toList

/-- The mount of a container under a kubelet path. -/
def mountLine (uid name : String) : List Char :=
  "81 79 8:1 ".toList ++ prefixPod ++ uid.toList ++ endPod ++ name.toList ++
    '/' :: "3f9c1a /dev/log rw".toList ++ '\n' :: []

/-- The listing of a host with version 1, and of one with version 2. -/
def sampleListing : Bool → List Char
  | false => "cgroup on /sys/fs/cgroup/memory type cgroup (rw,memory)\n".toList
  | true => "cgroup2 on /sys/fs/cgroup type cgroup2 (rw)\n".toList

/-- The manager and the process find version 1 on the one host. -/
theorem listing_v1 :
    isCgroupVersionV2 (sampleListing false) = some false ∧
      checkCgroupVersion (sampleListing false) = false := by
  decide +kernel

/-- The manager and the process find version 2 on the other. -/
theorem listing_v2 :
    isCgroupVersionV2 (sampleListing true) = some true ∧
      checkCgroupVersion (sampleListing true) = true := by
  decide +kernel

/-- Both ways lead to the file that was written. -/
theorem config_path_agrees_sample :
    openedPath (sampleListing false) sampleCgroup [] sampleUid 0 =
      some (writtenPath sampleUid (directoryKey false sampleName sampleId)) ∧
    openedPath (sampleListing true) [] (mountLine sampleUid.text sampleName.text) sampleUid 0 =
      some (writtenPath sampleUid (directoryKey true sampleName sampleId)) := by
  have hother : ∀ piece ∈ pieces bufferSize "11:cpuset:/\n".toList, memoryPath piece = none := by
    decide +kernel
  have hmemory : MemoryLine sampleUid sampleId sampleCgroup :=
    ⟨"11:cpuset:/\n".toList, "9".toList, .systemd, .besteffort, .docker, "0::/\n".toList,
      .inr ⟨"11:cpuset:/".toList, rfl⟩, hother, by simp, by simp, rfl⟩
  have hfirst : FirstNames (directoryKey true sampleName sampleId).text.toList
      (pieces bufferSize (mountLine sampleUid.text sampleName.text)) :=
    (scan_pieces_iff (directoryKey true sampleName sampleId).nonempty _).mp
      ⟨sampleUid.text.toList, by decide +kernel⟩
  have hnot : ¬ checkCgroupVersion (sampleListing true) = false := by
    rw [listing_v2.2]
    nofun
  have hv1 := config_path_agrees_iff sampleUid sampleName sampleId 0 (sampleListing false)
    sampleCgroup [] listing_v1.1 fun _ => hmemory
  have hv2 := config_path_agrees_iff sampleUid sampleName sampleId 0 (sampleListing true) []
    (mountLine sampleUid.text sampleName.text) listing_v2.1 fun h => absurd h hnot
  refine ⟨hv1.mpr fun h => ?_, hv2.mpr fun _ => hfirst⟩
  rw [listing_v1.2] at h
  cases h

/-- A mount of another container's directory ahead of the own one leads to another file. -/
theorem config_path_misled :
    ¬ ∀ (uid name : Identifier) (id : ContainerID) (minorNum : Nat)
      (listing cgroup mountinfo : List Char) (cgroupV2 : Bool),
      isCgroupVersionV2 listing = some cgroupV2 →
      (checkCgroupVersion listing = false → MemoryLine uid id cgroup) →
      (checkCgroupVersion listing = true → KubeletMount uid name mountinfo) →
      openedPath listing cgroup mountinfo uid minorNum =
        some (writtenPath uid (directoryKey cgroupV2 name id)) := by
  intro h
  let mountinfo := mountLine "other" "sidecar" ++ mountLine sampleUid.text sampleName.text
  have hmount : KubeletMount sampleUid sampleName mountinfo :=
    ⟨mountLine "other" "sidecar", "81 79 8:1 ".toList, "3f9c1a /dev/log rw".toList, [], rfl⟩
  have hnot : ¬ checkCgroupVersion (sampleListing true) = false := by
    rw [listing_v2.2]
    nofun
  have hopened := h sampleUid sampleName sampleId 0 (sampleListing true) [] mountinfo true
    listing_v2.1 (fun hversion => absurd hversion hnot) fun _ => hmount
  have hscan : scanPieces (pieces bufferSize mountinfo) =
      some ("other".toList, "sidecar".toList) := by
    decide +kernel
  have hpath := opened_path_v2 [] sampleUid 0 listing_v2.2 hscan
  have hnamed := (opened_iff sampleUid (directoryKey true sampleName sampleId) 0
    "sidecar".toList).mp (hpath.symm.trans hopened)
  exact absurd hnamed (by decide)

end UniShare.Container
