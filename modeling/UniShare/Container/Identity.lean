import UniShare.Container.ConfigPath
import UniShare.Container.InPlace

/-!
# The identity of a container under cgroup version 1

The paths of cgroups that `get_cgroup_data` is written for, and the files in which one is the path
of the memory cgroup. From every such file the UID of the pod and the ID of the container are
recovered in place (`identity_recovered`). `getCgroupPath` of `resourceManager/util.go` makes such a
path.
-/

namespace UniShare.Container

open Lib Kube ResourceManager

/-! ## The paths -/

/-- The UID of a pod, over letters, digits and dashes. -/
structure PodUid where
  text : List Char
  nonempty : text ≠ []
  plain : ∀ c ∈ text, c.isAlphanum = true ∨ c = '-'

/-- The ID of a container, over letters and digits. -/
structure ScopeId where
  text : List Char
  nonempty : text ≠ []
  plain : ∀ c ∈ text, c.isAlphanum = true

/-- What is ahead of the ID of a container in the name of its scope. -/
structure RuntimePrefix where
  text : List Char
  noSlash : '/' ∉ text
  noColon : ':' ∉ text
  noDot : '.' ∉ text

/-- The name of a class in the names of cgroups. -/
def Qos.text : Qos → List Char
  | .guaranteed => "guaranteed".toList
  | .burstable => "burstable".toList
  | .besteffort => "besteffort".toList

/-- The text that an optional class puts between two others. -/
def optionalQos (before : List Char) (qos : Option Qos) (after : List Char) : List Char :=
  match qos with
  | none => []
  | some qos => before ++ qos.text ++ after

/-- The path of a container's cgroup, as the `cgroupfs` driver or systemd names it. -/
inductive CgroupPath where
  | cgroupfs (qos : Option Qos) (uid : PodUid) (id : ScopeId)
  | systemd (parent qos : Option Qos) (uid : PodUid) (runtime : RuntimePrefix) (id : ScopeId)

/-- The pod's UID. -/
def CgroupPath.uid : CgroupPath → PodUid
  | .cgroupfs _ uid _ => uid
  | .systemd _ _ uid _ _ => uid

/-- The container's ID. -/
def CgroupPath.id : CgroupPath → ScopeId
  | .cgroupfs _ _ id => id
  | .systemd _ _ _ _ id => id

/-- The text of a path. -/
def CgroupPath.text : CgroupPath → List Char
  | .cgroupfs qos uid id =>
      "/kubepods".toList ++ optionalQos ['/'] qos [] ++ '/' :: ("pod".toList ++ uid.text) ++
        '/' :: id.text
  | .systemd parent qos uid runtime id =>
      "/kubepods.slice".toList ++ optionalQos "/kubepods-".toList parent ".slice".toList ++
        '/' :: ("kubepods".toList ++ optionalQos ['-'] qos [] ++ "-pod".toList ++
          uid.text.map escapeDash ++ ".slice".toList) ++
        '/' :: (runtime.text ++ '-' :: id.text ++ ".scope".toList)

/-! ## The files -/

/-- A line without its newline: it fits into the buffer with it. -/
structure IsLine (line : List Char) : Prop where
  noNewline : '\n' ∉ line
  noZero : nul ∉ line
  fits : line.length + 1 < bufferSize

/-- A file whose first line with a field `memory` has this path behind it. -/
structure MemoryFile (path : List Char) where
  earlier : List (List Char)
  hierarchy : List Char
  later : List Char
  earlierLines : ∀ line ∈ earlier, IsLine line ∧ "memory".toList ∉ line.splitOn ':'
  oneField : ':' ∉ hierarchy
  notMemory : hierarchy ≠ "memory".toList
  memoryLine : IsLine (hierarchy ++ ":memory:".toList ++ path)
  noZero : nul ∉ later

/-- The contents of a file. -/
def MemoryFile.text {path : List Char} (file : MemoryFile path) : List Char :=
  (file.earlier.flatMap fun line => line ++ ['\n']) ++
    (file.hierarchy ++ ":memory:".toList ++ path) ++ '\n' :: file.later

/-- The function returns 0 and leaves these texts in the arrays of its caller. -/
structure Recovered (data : CgroupData) (uid : PodUid) (id : ScopeId) : Prop where
  ret : data.ret = 0
  podUid : cstring data.podUid 0 = uid.text
  containerId : cstring data.containerId 0 = id.text

/-! ## The manager's path -/

/-- Go on from a relative path by one component, as `filepath.Clean` does. -/
def relativeStep (path : List String) (component : String) : List String :=
  if component = "" ∨ component = "." then path
  else if component = ".." then
    if path = [] ∨ path.getLast? = some ".." then path ++ [".."] else path.dropLast
  else path ++ [component]

/-- `filepath.Join` of a relative path. -/
def relativeJoin (elements : List String) : String :=
  let path := (elements.flatMap fun element =>
    (splitSlash element.toList).map String.ofList).foldl relativeStep []
  if path = [] then "." else String.ofList (['/'].intercalate (path.map String.toList))

/-- `PodQOSGuaranteed`, `PodQOSBurstable` and `PodQOSBestEffort` -/
def Qos.className : Qos → String
  | .guaranteed => "Guaranteed"
  | .burstable => "Burstable"
  | .besteffort => "BestEffort"

/-- `qosClass` of a pod's document. -/
def qosClass [Gjson] (pod : Json) : String :=
  Gjson.string (Gjson.get (Gjson.get (some pod) "status") "qosClass")

/-- `getCgroupPath`. -/
def getCgroupPath [Gjson] (pod : Json) (containerID : String) : String :=
  if podUID pod = "" then ""
  else if qosClass pod = "" then ""
  else
    let slice := String.ofList ((podUID pod).toList.map escapeDash) ++ ".slice"
    let path :=
      if qosClass pod = Qos.guaranteed.className then
        relativeJoin [relativeJoin ["kubepods.slice", "kubepods-guaranteed.slice"],
          "kubepods-guaranteed-pod" ++ slice]
      else if qosClass pod = Qos.burstable.className then
        relativeJoin [relativeJoin ["kubepods.slice", "kubepods-burstable.slice"],
          "kubepods-burstable-pod" ++ slice]
      else if qosClass pod = Qos.besteffort.className then
        relativeJoin [relativeJoin ["kubepods.slice", "kubepods-besteffort.slice"],
          "kubepods-besteffort-pod" ++ slice]
      else relativeJoin ["kubepods.slice", slice]
    path ++ "/docker-" ++ containerID ++ ".scope"

/-- The document of a pod with a UID and a class. -/
structure QosPod [Gjson] where
  document : Json
  uid : PodUid
  qos : Qos
  hasUid : podUID document = String.ofList uid.text
  hasClass : qosClass document = qos.className

/-- `docker` -/
def dockerPrefix : RuntimePrefix := ⟨"docker".toList, by decide, by decide, by decide⟩

/-! ## Paths of the memory cgroup -/

/-- A byte that is neither alphanumeric nor a dash is not in a UID. -/
theorem PodUid.not_mem (uid : PodUid) {c : Char} (hc : c.isAlphanum = false) (hdash : c ≠ '-') :
    c ∉ uid.text := by
  intro hmem
  rcases uid.plain c hmem with halpha | heq
  · rw [hc] at halpha
    cases halpha
  · exact hdash heq

/-- A byte that is not alphanumeric is not in the ID of a container. -/
theorem ScopeId.not_mem (id : ScopeId) {c : Char} (hc : c.isAlphanum = false) : c ∉ id.text := by
  intro hmem
  rw [id.plain c hmem] at hc
  cases hc

/-- Dashes that a slice escapes come back. -/
theorem PodUid.unescape (uid : PodUid) :
    ((uid.text.map escapeDash).map fun c => if c = '_' then '-' else c) = uid.text := by
  have hback : ∀ c ∈ uid.text, ((fun c => if c = '_' then '-' else c) ∘ escapeDash) c = c := by
    intro c hc
    have hunder : c ≠ '_' := by
      rintro rfl
      exact uid.not_mem (by decide) (by decide) hc
    by_cases hdash : c = '-'
    · simp [escapeDash, hdash]
    · simp [escapeDash, hdash, hunder]
  rw [List.map_map, List.map_congr_left hback, List.map_id']

/-- What the name of a slice starts with has neither a dot nor a slash, and no `-pod`. -/
theorem slice_start (qos : Option Qos) :
    '.' ∉ "kubepods".toList ++ optionalQos ['-'] qos [] ∧
      '/' ∉ "kubepods".toList ++ optionalQos ['-'] qos [] ∧
      strstr "-pod".toList
          ('/' :: ("kubepods".toList ++ optionalQos ['-'] qos [] ++ "-pod".toList)) =
        some (("kubepods".toList ++ optionalQos ['-'] qos []).length + 1) := by
  cases qos with
  | none => decide
  | some qos => cases qos <;> decide

/-- The names in a path are those of its pod and its container. -/
theorem container_of_text (path : CgroupPath) :
    containerOf path.text = some (path.uid.text, path.id.text) := by
  have hdot : ('.').isAlphanum = false := by decide
  have hslash : ('/').isAlphanum = false := by decide
  cases path with
  | cgroupfs qos uid id =>
      have hsecond : '/' ∉ "pod".toList ++ uid.text := by simp [uid.not_mem hslash (by decide)]
      exact container_of_id hsecond (id.not_mem hdot) (id.not_mem hslash)
  | systemd parent qos uid runtime id =>
      obtain ⟨hstartDot, hstartSlash, hfirst⟩ := slice_start qos
      have hnames := fun parent => @container_of_scope parent _ _ _ _ hstartDot hstartSlash hfirst
        (not_mem_escaped (by decide) (uid.not_mem hdot (by decide)))
        (not_mem_escaped (by decide) (uid.not_mem hslash (by decide)))
        runtime.noDot runtime.noSlash (id.not_mem hdot) (id.not_mem hslash)
        (id.not_mem (show ('-').isAlphanum = false from by decide))
      rw [uid.unescape] at hnames
      exact hnames _

/-- The constant parts of a path have no colon. -/
theorem no_colon_in_qos (qos : Option Qos) :
    ':' ∉ optionalQos ['/'] qos [] ∧ ':' ∉ optionalQos ['-'] qos [] ∧
      ':' ∉ optionalQos "/kubepods-".toList qos ".slice".toList := by
  cases qos with
  | none => decide
  | some qos => cases qos <;> decide

/-- A path has no colon. -/
theorem no_colon_in_text (path : CgroupPath) : ':' ∉ path.text := by
  have hcolon : (':').isAlphanum = false := by decide
  cases path with
  | cgroupfs qos uid id =>
      have hqos := (no_colon_in_qos qos).1
      have huid := uid.not_mem hcolon (by decide)
      have hid := id.not_mem hcolon
      show ':' ∉ "/kubepods".toList ++ optionalQos ['/'] qos [] ++
        '/' :: ("pod".toList ++ uid.text) ++ '/' :: id.text
      simp [hqos, huid, hid]
  | systemd parent qos uid runtime id =>
      have hparent := (no_colon_in_qos parent).2.2
      have hqos := (no_colon_in_qos qos).2.1
      have huid := not_mem_escaped (show ':' ≠ '_' from by decide) (uid.not_mem hcolon (by decide))
      have hid := id.not_mem hcolon
      have hruntime := runtime.noColon
      show ':' ∉ "/kubepods.slice".toList ++
        optionalQos "/kubepods-".toList parent ".slice".toList ++
        '/' :: ("kubepods".toList ++ optionalQos ['-'] qos [] ++ "-pod".toList ++
          uid.text.map escapeDash ++ ".slice".toList) ++
        '/' :: (runtime.text ++ '-' :: id.text ++ ".scope".toList)
      simp only [List.mem_append, List.mem_cons, hparent, hqos, huid, hid, hruntime]
      decide

/-- A path is not empty. -/
theorem text_ne_nil (path : CgroupPath) : path.text ≠ [] := by
  cases path with
  | cgroupfs qos uid id => exact List.append_ne_nil_of_right_ne_nil _ (List.cons_ne_nil _ _)
  | systemd parent qos uid runtime id =>
      exact List.append_ne_nil_of_right_ne_nil _ (List.cons_ne_nil _ _)

/-! ## What the file has -/

/-- The names in a file are those of its path. -/
theorem get_cgroup_data_file {path : List Char} (file : MemoryFile path) (hcolon : ':' ∉ path)
    (hne : path ≠ []) : getCgroupData file.text = containerOf path := by
  have hfits : ∀ line ∈ file.earlier, '\n' ∉ line ∧ line.length + 1 < bufferSize := by
    intro line hline
    exact ⟨(file.earlierLines line hline).1.noNewline, (file.earlierLines line hline).1.fits⟩
  have hends : (file.earlier.flatMap fun line => line ++ ['\n']) = [] ∨
      ∃ body, (file.earlier.flatMap fun line => line ++ ['\n']) = body ++ ['\n'] := by
    rcases List.eq_nil_or_concat' file.earlier with hempty | ⟨front, last, hlast⟩
    · exact .inl (by rw [hempty]; rfl)
    · exact .inr ⟨(front.flatMap fun line => line ++ ['\n']) ++ last, by rw [hlast]; simp⟩
  have hnone : ∀ piece ∈ pieces bufferSize (file.earlier.flatMap fun line => line ++ ['\n']),
      memoryPath piece = none := by
    rw [pieces_lines hfits, List.forall_mem_map]
    intro line hline
    have hfields : "memory".toList ∉ tokens ':' line := fun hmem =>
      (file.earlierLines line hline).2 (List.mem_of_mem_filter hmem)
    have hpass : (tokens ':' line).dropWhile (fun token => token != "memory".toList) = [] := by
      rw [List.dropWhile_eq_nil_iff]
      intro token htoken
      simpa using fun heq : token = "memory".toList => hfields (heq ▸ htoken)
    rw [memoryPath, List.dropLast_concat, hpass]
  exact get_cgroup_data_line file.later hends hnone file.memoryLine.noNewline file.memoryLine.fits
    (memory_path_line file.oneField file.notMemory hcolon hne)

/-- A file has no zero. -/
theorem MemoryFile.no_zero {path : List Char} (file : MemoryFile path) : nul ∉ file.text := by
  have hnewline : nul ≠ '\n' := by decide
  intro hmem
  rcases List.mem_append.mp hmem with hlines | hlater
  · rcases List.mem_append.mp hlines with hearlier | hline
    · obtain ⟨line, hline, hin⟩ := List.mem_flatMap.mp hearlier
      rcases List.mem_append.mp hin with hplain | hend
      · exact (file.earlierLines line hline).1.noZero hplain
      · exact hnewline (List.mem_singleton.mp hend)
    · exact file.memoryLine.noZero hline
  · rcases List.mem_cons.mp hlater with hend | hrest
    · exact hnewline hend
    · exact file.noZero hrest

/-- From a file with the path of a cgroup, in place, the names in the path are recovered. -/
theorem recovered_of_path {size : Nat} (hsize : bufferSize ≤ size) (path : CgroupPath)
    (file : MemoryFile path.text) (buffer podUid containerId : List Char) :
    Recovered (getCgroupDataInPlace size file.text buffer podUid containerId) path.uid path.id := by
  have hfound := in_place_refines hsize file.no_zero buffer podUid containerId
  rw [get_cgroup_data_file file (no_colon_in_text path) (text_ne_nil path),
    container_of_text] at hfound
  exact ⟨hfound.ret, hfound.podUid.cstring_eq, hfound.containerId.cstring_eq⟩

/-! ## The path of the manager -/

/-- One more part stands behind one more separator. -/
theorem intercalate_concat {separator last : List Char} {parts : List (List Char)}
    (hne : parts ≠ []) :
    separator.intercalate (parts ++ [last]) =
      separator.intercalate parts ++ (separator ++ last) := by
  induction parts with
  | nil => exact absurd rfl hne
  | cons part parts ih =>
      cases parts with
      | nil => simp [List.intercalate]
      | cons next rest =>
          simp only [List.cons_append, List.intercalate_cons_cons] at ih ⊢
          rw [ih (List.cons_ne_nil _ _)]
          simp

/-- Joining a plain element to a path adds it behind a slash. -/
theorem relative_join_plain {first element : String} {components : List String}
    (hfirst : ((splitSlash first.toList).map String.ofList).foldl relativeStep [] = components)
    (hne : components ≠ []) (helement : PlainElement element) :
    (relativeJoin [first, element]).toList =
      ['/'].intercalate (components.map String.toList) ++ '/' :: element.toList := by
  obtain ⟨hempty, hdot, hdots, hslash⟩ := helement
  have hpath : ([first, element].flatMap fun element =>
      (splitSlash element.toList).map String.ofList).foldl relativeStep [] =
        components ++ [element] := by
    simp [split_slash_plain hslash, hfirst, relativeStep, hempty, hdot, hdots]
  have hjoined : components ++ [element] ≠ [] := by simp
  rw [relativeJoin, hpath]
  simp only [if_neg hjoined, String.toList_ofList, List.map_append, List.map_cons, List.map_nil]
  exact intercalate_concat (by simpa using hne)

/-- A text with more than dots in it, and no slash, is a plain element. -/
theorem plain_of_mem {element : String} {c : Char} (hmem : c ∈ element.toList) (hdot : c ≠ '.')
    (hslash : '/' ∉ element.toList) : PlainElement element := by
  refine ⟨?_, ?_, ?_, hslash⟩ <;>
    · intro heq
      rw [heq] at hmem
      simp [hdot] at hmem

/-- The path of a slice in the slice of a class. -/
theorem relative_join_slice {parent name : String} (uid : PodUid)
    (hparent : ((splitSlash (relativeJoin ["kubepods.slice", parent]).toList).map
      String.ofList).foldl relativeStep [] = ["kubepods.slice", parent])
    (hname : 'k' ∈ name.toList) (hslash : '/' ∉ name.toList) :
    (relativeJoin [relativeJoin ["kubepods.slice", parent],
      name ++ (String.ofList (uid.text.map escapeDash) ++ ".slice")]).toList =
      "kubepods.slice".toList ++ '/' :: parent.toList ++
        '/' :: (name.toList ++ uid.text.map escapeDash ++ ".slice".toList) := by
  have hescaped := not_mem_escaped (show '/' ≠ '_' from by decide)
    (uid.not_mem (show ('/').isAlphanum = false from by decide) (by decide))
  have hplain : PlainElement (name ++ (String.ofList (uid.text.map escapeDash) ++ ".slice")) :=
    plain_of_mem (show 'k' ∈ _ by simp [hname]) (by decide) (by simp [hslash, hescaped])
  rw [relative_join_plain hparent (List.cons_ne_nil _ _) hplain]
  simp [List.intercalate]

/-- The path that the manager makes for a class, when its names are those of the class. -/
theorem class_path_text {parent name : String} (qos : Qos) (uid : PodUid) (id : ScopeId)
    (hparent : ((splitSlash (relativeJoin ["kubepods.slice", parent]).toList).map
      String.ofList).foldl relativeStep [] = ["kubepods.slice", parent])
    (hname : 'k' ∈ name.toList) (hslash : '/' ∉ name.toList)
    (hslice : '/' :: parent.toList = optionalQos "/kubepods-".toList (some qos) ".slice".toList)
    (hpod : name.toList = "kubepods".toList ++ optionalQos ['-'] (some qos) [] ++ "-pod".toList) :
    '/' :: (relativeJoin [relativeJoin ["kubepods.slice", parent],
      name ++ (String.ofList (uid.text.map escapeDash) ++ ".slice")] ++ "/docker-" ++
        String.ofList id.text ++ ".scope").toList =
      (CgroupPath.systemd (some qos) (some qos) uid dockerPrefix id).text := by
  have hdocker : "/docker-".toList = '/' :: ("docker".toList ++ ['-']) := by decide
  have hroot : '/' :: "kubepods.slice".toList = "/kubepods.slice".toList := by decide
  simp only [String.toList_append, String.toList_ofList,
    relative_join_slice uid hparent hname hslash]
  rw [hslice, hpod, hdocker, List.append_assoc, List.append_assoc, List.append_assoc,
    List.append_assoc, ← List.cons_append, hroot]
  show _ = "/kubepods.slice".toList ++
    optionalQos "/kubepods-".toList (some qos) ".slice".toList ++
    '/' :: ("kubepods".toList ++ optionalQos ['-'] (some qos) [] ++ "-pod".toList ++
      uid.text.map escapeDash ++ ".slice".toList) ++
    '/' :: ("docker".toList ++ '-' :: id.text ++ ".scope".toList)
  simp only [List.append_assoc, List.cons_append, List.nil_append]

/-- The path of the manager is that of a container that docker runs. -/
theorem get_cgroup_path_text [Gjson] (pod : QosPod) (id : ScopeId) :
    '/' :: (getCgroupPath pod.document (String.ofList id.text)).toList =
      (CgroupPath.systemd (some pod.qos) (some pod.qos) pod.uid dockerPrefix id).text := by
  obtain ⟨document, uid, qos, hasUid, hasClass⟩ := pod
  have huid : podUID document ≠ "" := by
    rw [hasUid]
    intro heq
    exact uid.nonempty (by simpa using congrArg String.toList heq)
  have hclass : qosClass document ≠ "" := by
    rw [hasClass]
    cases qos <;> decide
  rw [getCgroupPath, if_neg huid, if_neg hclass]
  simp only [hasUid, hasClass, String.toList_ofList]
  cases qos with
  | guaranteed =>
      rw [if_pos rfl]
      exact class_path_text .guaranteed uid id (by decide +kernel) (by decide) (by decide)
        (by decide) (by decide)
  | burstable =>
      rw [if_neg (by decide), if_pos rfl]
      exact class_path_text .burstable uid id (by decide +kernel) (by decide) (by decide)
        (by decide) (by decide)
  | besteffort =>
      rw [if_neg (by decide), if_neg (by decide), if_pos rfl]
      exact class_path_text .besteffort uid id (by decide +kernel) (by decide) (by decide)
        (by decide) (by decide)

/-! ## The identity -/

/-- The identity of a container under cgroup version 1 is recovered, whatever is in the arrays
before; a file with the path that the manager makes is one of these files. -/
theorem identity_recovered [Gjson] {size : Nat} (hsize : bufferSize ≤ size)
    (buffer podUid containerId : List Char) :
    (∀ (path : CgroupPath) (file : MemoryFile path.text),
      Recovered (getCgroupDataInPlace size file.text buffer podUid containerId) path.uid path.id) ∧
    (∀ (pod : QosPod) (id : ScopeId)
      (file : MemoryFile ('/' :: (getCgroupPath pod.document (String.ofList id.text)).toList)),
      Recovered (getCgroupDataInPlace size file.text buffer podUid containerId) pod.uid id) := by
  refine ⟨fun path file => recovered_of_path hsize path file buffer podUid containerId, ?_⟩
  intro pod id
  rw [get_cgroup_path_text]
  exact fun file => recovered_of_path hsize _ file buffer podUid containerId

/-- A pod's UID. -/
def exampleUid : PodUid := ⟨"27882189-b4d9-11e9".toList, by simp, by simp⟩

/-- A container's ID. -/
def exampleId : ScopeId := ⟨"4aa615892ab2".toList, by simp, by simp⟩

/-- The document of a burstable pod. -/
def exampleDocument : Json :=
  .object [("metadata", .object [("uid", .string "27882189-b4d9-11e9")]),
    ("status", .object [("qosClass", .string "Burstable")])]

/-- The document has the UID and the class. -/
theorem example_document :
    letI := Gjson.reader
    podUID exampleDocument = String.ofList exampleUid.text ∧
      qosClass exampleDocument = Qos.burstable.className := by
  decide +kernel

/-- A burstable pod. -/
def examplePod : @QosPod Gjson.reader :=
  @QosPod.mk Gjson.reader exampleDocument exampleUid .burstable example_document.1
    example_document.2

/-- The line of the memory cgroup is a line. -/
theorem example_line :
    letI := Gjson.reader
    IsLine (['9'] ++ ":memory:".toList ++
      '/' :: (getCgroupPath examplePod.document (String.ofList exampleId.text)).toList) := by
  rw [@get_cgroup_path_text Gjson.reader]
  exact ⟨by decide +kernel, by decide +kernel, by decide +kernel⟩

/-- The identity of a container of the pod under `cgroupfs` and under systemd. -/
theorem identity_recovered_example :
    let reader := Gjson.reader
    Recovered (getCgroupDataInPlace bufferSize
      "2:cpuset:/\n9:memory:/kubepods/burstable/pod27882189-b4d9-11e9/4aa615892ab2\n".toList
        [] [] []) exampleUid exampleId ∧
      Recovered (getCgroupDataInPlace bufferSize (['9'] ++ ":memory:".toList ++
        '/' :: (@getCgroupPath reader exampleDocument (String.ofList exampleId.text)).toList ++
          ['\n']) [] [] []) exampleUid exampleId := by
  intro reader
  let direct : MemoryFile (CgroupPath.cgroupfs (some .burstable) exampleUid exampleId).text :=
    { earlier := ["2:cpuset:/".toList], hierarchy := ['9'], later := []
      earlierLines := by
        intro line hline
        rw [List.mem_singleton.mp hline]
        exact ⟨⟨by decide, by decide, by decide⟩, by decide +kernel⟩
      oneField := by decide
      notMemory := by decide
      memoryLine := ⟨by decide, by decide, by decide⟩
      noZero := by decide }
  let managed : MemoryFile
      ('/' :: (@getCgroupPath reader examplePod.document (String.ofList exampleId.text)).toList) :=
    { earlier := [], hierarchy := ['9'], later := []
      earlierLines := nofun
      oneField := by decide
      notMemory := by decide
      memoryLine := example_line
      noZero := by decide }
  have hfound := @identity_recovered reader bufferSize (Nat.le_refl _) [] [] []
  have htext : direct.text =
      "2:cpuset:/\n9:memory:/kubepods/burstable/pod27882189-b4d9-11e9/4aa615892ab2\n".toList := by
    decide +kernel
  refine ⟨?_, ?_⟩
  · rw [← htext]
    exact hfound.1 _ direct
  · exact hfound.2 examplePod exampleId managed

end UniShare.Container
