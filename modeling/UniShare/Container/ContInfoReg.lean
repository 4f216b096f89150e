import UniShare.Lib.CString

/-!
# How a hooked process finds its configuration

After `core/container/contInfoReg.c`, on the contents of `/proc/self/cgroup`, of
`/proc/self/mountinfo` and of the listing of the cgroup mounts. A text that the source prunes by
writing a zero into it is cut here. `none` means that the process exits or faults.
-/

namespace UniShare.Container

open Lib

/-- The size of the buffers that lines are read into. -/
def bufferSize : Nat := 4096

/-- `PATH_LENGTH` -/
def pathLength : Nat := 512

/-- `VMLU_CONFIG_PATH` -/
def vmluConfigPath : List Char := "/etc/unishare/vm/".toList

/-- `CONTROLLER_CONFIG_NAME` -/
def controllerConfigName : List Char := "vcuda.config".toList

/-- `prefix_pod` -/
def prefixPod : List Char := "/var/lib/kubelet/pods/".toList

/-- `end_pod` -/
def endPod : List Char := "/containers/".toList

/-! ## Version 2 -/

/-- What `getStr` comes to: one of the texts is missing, a length wraps around and the copy faults,
or the names are found. -/
inductive Scan where
  | absent
  | fault
  | found (poduid podName : List Char)
  deriving DecidableEq, Repr

/-- `getStr`. -/
def getStr (buffer prefixstr endstr : List Char) : Scan :=
  match strstr prefixstr buffer, strstr endstr buffer with
  | some start, some stop =>
      if stop < start + prefixstr.length then .fault
      else
        let poduid :=
          (buffer.drop (start + prefixstr.length)).take (stop - (start + prefixstr.length))
        let tail := buffer.drop (stop + endstr.length)
        match strstr ['/'] tail with
        | none => .fault
        | some nameEnd => .found poduid (tail.take nameEnd)
  | _, _ => .absent

/-- The loop of `get_cgroupV2_data`; the name stays empty when no line has one. -/
def scanPieces : List (List Char) → Option (List Char × List Char)
  | [] => some ([], [])
  | buffer :: rest =>
      match getStr buffer prefixPod endPod with
      | .absent => scanPieces rest
      | .fault => none
      | .found poduid podName => some (poduid, podName)

/-- `get_cgroupV2_data`: the pod and the name. -/
def getCgroupV2Data (mountinfo : List Char) : Option (List Char × List Char) :=
  scanPieces (pieces bufferSize mountinfo)

/-! ## Version 1 -/

/-- The token behind the token `memory` in a line, whose last character is cut. -/
def memoryPath (buffer : List Char) : Option (List Char) :=
  match (tokens ':' buffer.dropLast).dropWhile fun token => token != "memory".toList with
  | _ :: cgroup :: _ => some cgroup
  | _ => none

/-- Cut a text at the first occurrence of another. -/
def prune (needle text : List Char) : List Char :=
  match strstr needle text with
  | some i => text.take i
  | none => text

/-- The pod and the container in the path of a memory cgroup. -/
def containerOf (cgroup : List Char) : Option (List Char × List Char) :=
  match rsplit '/' cgroup with
  | none => none
  | some (front, last) =>
      let isSystemd := (strstr ".scope".toList last).isSome
      let containerId := prune ".scope".toList last
      match rsplit '/' front with
      | none => none
      | some (_, second) =>
          if isSystemd then
            let podUid := prune ".slice".toList ('/' :: second)
            match rsplit '-' containerId, strstr "-pod".toList podUid with
            | some (_, containerId), some i =>
                some ((podUid.drop (i + 4)).map fun c => if c = '_' then '-' else c, containerId)
            | _, _ => none
          else some (second.drop 3, containerId)

/-- `get_cgroup_data`: the pod and the container. -/
def getCgroupData (cgroup : List Char) : Option (List Char × List Char) :=
  ((pieces bufferSize cgroup).findSome? memoryPath).bind containerOf

/-! ## The path -/

/-- `checkCgroupVersion`, with the output of `mount | grep cgroup`; `true` for version 2. -/
def checkCgroupVersion (listing : List Char) : Bool :=
  (pieces bufferSize listing).all fun buffer =>
    (strstr "/sys/fs/cgroup/memory".toList buffer).isNone

/-- The configuration file in the directory of this name. -/
def configPath (key : List Char) : List Char :=
  let baseDir := snprintf pathLength (vmluConfigPath ++ key)
  snprintf pathLength (baseDir ++ '/' :: controllerConfigName)

/-- `get_path_by_cgroup`, which builds `config_path`. -/
def getPathByCgroup (cgroupVersion : Bool) (cgroup mountinfo : List Char) : Option (List Char) :=
  if cgroupVersion then (getCgroupV2Data mountinfo).map fun names => configPath names.2
  else (getCgroupData cgroup).map fun names => configPath names.2

/-! ## What the functions find -/

/-- The text holds both parts of a kubelet path. -/
def HoldsBoth (piece : List Char) : Prop := prefixPod <:+: piece ∧ endPod <:+: piece

/-- The first `/var/lib/kubelet/pods/` of the text is followed by the first `/containers/`, and that
by the name and a slash. -/
def NamesContainer (name piece : List Char) : Prop :=
  '/' ∉ name ∧ ∃ before uid after,
    piece = before ++ prefixPod ++ uid ++ endPod ++ name ++ '/' :: after ∧
    FirstAt prefixPod before piece ∧ FirstAt endPod (before ++ prefixPod ++ uid) piece

/-- Nothing is found exactly when one of the two parts is missing. -/
theorem get_str_absent_iff (piece : List Char) :
    getStr piece prefixPod endPod = .absent ↔ ¬ HoldsBoth piece := by
  unfold getStr
  cases hstart : strstr prefixPod piece with
  | none => exact iff_of_true rfl fun h => strstr_eq_none_iff.mp hstart h.1
  | some start =>
      cases hstop : strstr endPod piece with
      | none => exact iff_of_true rfl fun h => strstr_eq_none_iff.mp hstop h.2
      | some stop =>
          have hboth : HoldsBoth piece :=
            ⟨strstr_is_some_iff.mp (by rw [hstart]; rfl),
              strstr_is_some_iff.mp (by rw [hstop]; rfl)⟩
          refine iff_of_false ?_ (not_not_intro hboth)
          dsimp only
          split
          · nofun
          · split <;> nofun

/-- The first `/var/lib/kubelet/pods/` of the text is followed by the UID, that by the first
`/containers/`, and that by the name and a slash. -/
def NamesPod (uid name piece : List Char) : Prop :=
  '/' ∉ name ∧ ∃ before after,
    piece = before ++ prefixPod ++ uid ++ endPod ++ name ++ '/' :: after ∧
    FirstAt prefixPod before piece ∧ FirstAt endPod (before ++ prefixPod ++ uid) piece

/-- A text names a container when it names one of some pod. -/
theorem names_container_iff {name piece : List Char} :
    NamesContainer name piece ↔ ∃ uid, NamesPod uid name piece := by
  constructor
  · intro h
    obtain ⟨hname, before, uid, after, hpiece⟩ := h
    exact ⟨uid, hname, before, after, hpiece⟩
  · intro h
    obtain ⟨uid, hname, before, after, hpiece⟩ := h
    exact ⟨hname, before, uid, after, hpiece⟩

/-- What lies between two places of a text. -/
theorem take_between {before mark middle text : List Char}
    (h : before ++ mark ++ middle <+: text) :
    (text.drop (before.length + mark.length)).take
      ((before ++ mark ++ middle).length - (before.length + mark.length)) = middle := by
  have hlength : (before ++ mark ++ middle).length - (before.length + mark.length) =
      middle.length := by
    simp only [List.length_append]
    omega
  obtain ⟨behind, rfl⟩ := h
  rw [hlength, List.append_assoc, ← List.length_append, List.drop_left, List.take_left]

/-- What a text names is found. -/
theorem get_str_of_names {uid name piece : List Char} (h : NamesPod uid name piece) :
    getStr piece prefixPod endPod = .found uid name := by
  obtain ⟨hname, before, after, hpiece, hfirst, hlast⟩ := h
  have hstart : strstr prefixPod piece = some before.length :=
    strstr_eq_length_iff.mpr ⟨before, rfl, hfirst⟩
  have hstop : strstr endPod piece = some (before ++ prefixPod ++ uid).length :=
    strstr_eq_length_iff.mpr ⟨_, rfl, hlast⟩
  have htail : piece.drop ((before ++ prefixPod ++ uid).length + endPod.length) =
      name ++ '/' :: after := by
    have hsplit : piece = (before ++ prefixPod ++ uid ++ endPod) ++ (name ++ '/' :: after) := by
      rw [hpiece]
      simp only [List.append_assoc]
    rw [hsplit, ← List.length_append]
    exact List.drop_left
  have huid : (piece.drop (before.length + prefixPod.length)).take
      ((before ++ prefixPod ++ uid).length - (before.length + prefixPod.length)) = uid :=
    take_between ((List.prefix_append _ endPod).trans hlast.1)
  have hge : ¬ (before ++ prefixPod ++ uid).length < before.length + prefixPod.length := by
    simp only [List.length_append]
    omega
  unfold getStr
  rw [hstart, hstop]
  dsimp only
  rw [if_neg hge, htail, strstr_char_append after hname]
  dsimp only
  rw [List.take_left, huid]

/-- What is found is named. -/
theorem names_of_get_str {uid name piece : List Char}
    (h : getStr piece prefixPod endPod = .found uid name) : NamesPod uid name piece := by
  unfold getStr at h
  cases hstart : strstr prefixPod piece with
  | none =>
      rw [hstart] at h
      cases h
  | some start =>
      cases hstop : strstr endPod piece with
      | none =>
          rw [hstart, hstop] at h
          cases h
      | some stop =>
          rw [hstart, hstop] at h
          dsimp only at h
          obtain ⟨before, rfl, hfirst⟩ := strstr_eq_length_iff.mp hstart
          obtain ⟨front, rfl, hlast⟩ := strstr_eq_length_iff.mp hstop
          split at h
          · cases h
          · rename_i hge
            -- both texts lead up to places in the same piece, so one continues the other
            obtain ⟨middle, rfl⟩ := List.prefix_of_prefix_length_le hfirst.1
              ((List.prefix_append front endPod).trans hlast.1)
              (by simpa only [List.length_append] using Nat.not_lt.mp hge)
            obtain ⟨rest, hrest⟩ := hlast.1
            have htail : piece.drop ((before ++ prefixPod ++ middle).length + endPod.length) =
                rest := by
              rw [← hrest, ← List.length_append]
              exact List.drop_left
            rw [htail] at h
            cases hend : strstr ['/'] rest with
            | none =>
                rw [hend] at h
                cases h
            | some nameEnd =>
                rw [hend] at h
                obtain ⟨hname, after, hafter⟩ := split_of_strstr_char hend
                dsimp only at h
                rw [take_between ((List.prefix_append _ endPod).trans hlast.1)] at h
                obtain ⟨rfl, rfl⟩ := Scan.found.inj h
                refine ⟨hname, before, after, ?_, hfirst, hlast⟩
                rw [← hrest]
                conv_lhs => rw [hafter]
                simp only [List.append_assoc]

/-- A text that is cut at its end loses just that. -/
theorem prune_end {c : Char} {needle front : List Char} (hhead : needle.head? = some c)
    (h : c ∉ front) : prune needle (front ++ needle) = front := by
  rw [prune, strstr_end hhead h]
  exact List.take_left

/-- The names in a path whose last part is not that of a scope. -/
theorem container_of_plain (parent : List Char) {second last : List Char}
    (hsecond : '/' ∉ second) (hlast : '/' ∉ last) (hscope : ¬ ".scope".toList <:+: last) :
    containerOf (parent ++ '/' :: second ++ '/' :: last) = some (second.drop 3, last) := by
  have hnone : strstr ".scope".toList last = none := strstr_eq_none_iff.mpr hscope
  unfold containerOf
  rw [rsplit_append _ hlast]
  dsimp only
  rw [rsplit_append _ hsecond, prune, hnone]
  rfl

/-- The names in a path whose last part is that of a scope. -/
theorem container_of_scope_iff (parent : List Char) {second last uid id : List Char}
    (hsecond : '/' ∉ second) (hlast : '/' ∉ last) (hscope : ".scope".toList <:+: last) :
    containerOf (parent ++ '/' :: second ++ '/' :: last) = some (uid, id) ↔
      ∃ front runtime, FirstAt "-pod".toList front (prune ".slice".toList ('/' :: second)) ∧
        prune ".scope".toList last = runtime ++ '-' :: id ∧ '-' ∉ id ∧
        uid = ((prune ".slice".toList ('/' :: second)).drop (front.length + 4)).map
          fun c => if c = '_' then '-' else c := by
  have hsome : (strstr ".scope".toList last).isSome = true := strstr_is_some_iff.mpr hscope
  unfold containerOf
  rw [rsplit_append _ hlast]
  dsimp only
  rw [rsplit_append _ hsecond, hsome]
  dsimp only
  rw [if_pos rfl]
  rcases rsplit_cases '-' (prune ".scope".toList last) with
    ⟨hnone, hdash⟩ | ⟨runtime, found, hsplit, heq, hplain⟩
  · rw [hnone]
    refine iff_of_false nofun ?_
    intro h
    obtain ⟨front, runtime, -, heq, -⟩ := h
    rw [heq] at hdash
    exact hdash (List.mem_append_right _ List.mem_cons_self)
  · rw [hsplit]
    cases hpod : strstr "-pod".toList (prune ".slice".toList ('/' :: second)) with
    | none =>
        refine iff_of_false nofun ?_
        intro h
        obtain ⟨front, -, hfirst, -⟩ := h
        have hfound := strstr_eq_length_iff.mpr ⟨front, rfl, hfirst⟩
        rw [hpod] at hfound
        cases hfound
    | some i =>
        obtain ⟨front, rfl, hfirst⟩ := strstr_eq_length_iff.mp hpod
        constructor
        · intro h
          obtain ⟨rfl, rfl⟩ := Prod.mk.inj (Option.some.inj h)
          exact ⟨front, runtime, hfirst, heq, hplain, rfl⟩
        · intro h
          obtain ⟨front', runtime', hfirst', heq', hplain', rfl⟩ := h
          have hsame := strstr_eq_length_iff.mpr ⟨front', rfl, hfirst'⟩
          rw [hpod] at hsame
          have hid : rsplit '-' (prune ".scope".toList last) = some (runtime', id) := by
            rw [heq', rsplit_append _ hplain']
          rw [hsplit] at hid
          obtain ⟨rfl, rfl⟩ := Prod.mk.inj (Option.some.inj hid)
          rw [Option.some.inj hsame]

/-- The pod and the container in the path of a scope in the slice of a pod. -/
theorem container_of_scope {parent start pod runtime id : List Char} (hstart : '.' ∉ start)
    (hstartSlash : '/' ∉ start)
    (hfirst : strstr "-pod".toList ('/' :: (start ++ "-pod".toList)) = some (start.length + 1))
    (hpod : '.' ∉ pod) (hpodSlash : '/' ∉ pod) (hruntime : '.' ∉ runtime)
    (hruntimeSlash : '/' ∉ runtime) (hid : '.' ∉ id) (hidSlash : '/' ∉ id) (hidDash : '-' ∉ id) :
    containerOf (parent ++ '/' :: (start ++ "-pod".toList ++ pod ++ ".slice".toList) ++
      '/' :: (runtime ++ '-' :: id ++ ".scope".toList)) =
      some (pod.map fun c => if c = '_' then '-' else c, id) := by
  have hlast : '/' ∉ runtime ++ '-' :: id ++ ".scope".toList := by simp [hruntimeSlash, hidSlash]
  have hsecond : '/' ∉ start ++ "-pod".toList ++ pod ++ ".slice".toList := by
    simp [hstartSlash, hpodSlash]
  have hruntimeDot : '.' ∉ runtime ++ '-' :: id := by simp [hruntime, hid]
  have hstartDot : '.' ∉ '/' :: (start ++ "-pod".toList ++ pod) := by simp [hstart, hpod]
  have hscope : prune ".scope".toList (runtime ++ '-' :: id ++ ".scope".toList) =
      runtime ++ '-' :: id := prune_end rfl hruntimeDot
  have hslice : prune ".slice".toList ('/' :: (start ++ "-pod".toList ++ pod ++ ".slice".toList)) =
      '/' :: (start ++ "-pod".toList ++ pod) := by
    rw [← List.cons_append]
    exact prune_end rfl hstartDot
  obtain ⟨front, hlength, hfront⟩ := strstr_eq_length_iff.mp (strstr_append_right pod hfirst)
  have hdrop : ('/' :: (start ++ "-pod".toList ++ pod)).drop (front.length + 4) = pod := by
    have hplace : front.length + 4 = ('/' :: (start ++ "-pod".toList)).length := by simp [← hlength]
    rw [hplace]
    exact List.drop_left
  refine (container_of_scope_iff parent hsecond hlast (List.suffix_append _ _).isInfix).mpr
    ⟨front, runtime, ?_, hscope, hidDash, ?_⟩
  · rw [hslice]
    exact hfront
  · rw [hslice, hdrop]

/-- The pod and the container in the path of a cgroup named by its ID. -/
theorem container_of_id {parent second id : List Char} (hsecond : '/' ∉ second) (hid : '.' ∉ id)
    (hidSlash : '/' ∉ id) :
    containerOf (parent ++ '/' :: second ++ '/' :: id) = some (second.drop 3, id) :=
  container_of_plain parent hsecond hidSlash fun hscope => hid (hscope.subset (by decide))

/-- The path in a line with three fields, the second being `memory`. -/
theorem memory_path_line {hierarchy path : List Char} (hhierarchy : ':' ∉ hierarchy)
    (hname : hierarchy ≠ "memory".toList) (hpath : ':' ∉ path) (hne : path ≠ []) :
    memoryPath (hierarchy ++ ":memory:".toList ++ path ++ ['\n']) = some path := by
  have hjoined : hierarchy ++ ":memory:".toList ++ path =
      [':'].intercalate [hierarchy, "memory".toList, path] := by
    simp [List.intercalate, List.intersperse]
  have hparts : ∀ part ∈ [hierarchy, "memory".toList, path], ':' ∉ part := by
    simp [hhierarchy, hpath]
  have hpathKept : path.isEmpty = false := by simpa using hne
  rw [memoryPath, List.dropLast_concat, hjoined, tokens_intercalate hparts (by simp)]
  cases hempty : hierarchy.isEmpty with
  | true => simp [hempty, hpathKept]
  | false =>
      have hother : ¬ hierarchy = ['m', 'e', 'm', 'o', 'r', 'y'] := by simpa using hname
      simp [hempty, hpathKept, hother]

/-- The first line with a token `memory` decides which container is found. -/
theorem get_cgroup_data_line {before line path : List Char} (after : List Char)
    (hends : before = [] ∨ ∃ body, before = body ++ ['\n'])
    (hnone : ∀ piece ∈ pieces bufferSize before, memoryPath piece = none) (hline : '\n' ∉ line)
    (hfits : line.length + 1 < bufferSize) (hpath : memoryPath (line ++ ['\n']) = some path) :
    getCgroupData (before ++ line ++ '\n' :: after) = containerOf path := by
  have hskipped : (pieces bufferSize before).findSome? memoryPath = none :=
    List.findSome?_eq_none_iff.mpr hnone
  rw [getCgroupData, List.append_assoc, pieces_append bufferSize _ hends,
    pieces_line after hline hfits, List.findSome?_append, hskipped, Option.none_or,
    List.findSome?_cons, hpath]
  rfl

/-- The first piece that holds both parts names the container. -/
def FirstNames (name : List Char) (buffers : List (List Char)) : Prop :=
  ∃ earlier piece later, buffers = earlier ++ piece :: later ∧
    (∀ other ∈ earlier, ¬ HoldsBoth other) ∧ NamesContainer name piece

/-- The first piece that holds both parts names the container of the pod. -/
def FirstPod (uid name : List Char) (buffers : List (List Char)) : Prop :=
  ∃ earlier piece later, buffers = earlier ++ piece :: later ∧
    (∀ other ∈ earlier, ¬ HoldsBoth other) ∧ NamesPod uid name piece

/-- Pieces name a container first when they name one of some pod first. -/
theorem first_names_iff {name : List Char} {buffers : List (List Char)} :
    FirstNames name buffers ↔ ∃ uid, FirstPod uid name buffers := by
  constructor
  · intro h
    obtain ⟨earlier, piece, later, heq, hearlier, hnames⟩ := h
    obtain ⟨uid, hnames⟩ := names_container_iff.mp hnames
    exact ⟨uid, earlier, piece, later, heq, hearlier, hnames⟩
  · intro h
    obtain ⟨uid, earlier, piece, later, heq, hearlier, hnames⟩ := h
    exact ⟨earlier, piece, later, heq, hearlier, names_container_iff.mpr ⟨uid, hnames⟩⟩

/-- What a text names makes it hold both parts. -/
theorem NamesPod.holds_both {uid name piece : List Char} (h : NamesPod uid name piece) :
    HoldsBoth piece := by
  by_contra hmissing
  have habsent := (get_str_absent_iff piece).mpr hmissing
  rw [get_str_of_names h] at habsent
  cases habsent

/-- The loop finds names exactly when the first piece that holds both parts has them. -/
theorem scan_pieces_pod_iff {uid name : List Char} (hname : name ≠ [])
    (buffers : List (List Char)) :
    scanPieces buffers = some (uid, name) ↔ FirstPod uid name buffers := by
  induction buffers with
  | nil =>
      refine iff_of_false ?_ ?_
      · intro h
        cases h
        exact hname rfl
      · intro h
        obtain ⟨earlier, piece, later, h, -⟩ := h
        cases earlier <;> cases h
  | cons buffer rest ih =>
      by_cases hboth : HoldsBoth buffer
      · have hpresent : getStr buffer prefixPod endPod ≠ .absent :=
          fun h => (get_str_absent_iff buffer).mp h hboth
        constructor
        · intro h
          rw [scanPieces] at h
          split at h
          · rename_i habsent
            exact absurd habsent hpresent
          · cases h
          · rename_i hfound
            cases h
            exact ⟨[], buffer, rest, rfl, nofun, names_of_get_str hfound⟩
        · intro h
          obtain ⟨earlier, piece, later, heq, hearlier, hnames⟩ := h
          cases earlier with
          | nil =>
              cases heq
              rw [scanPieces, get_str_of_names hnames]
          | cons first earlier =>
              cases heq
              exact absurd hboth (hearlier buffer List.mem_cons_self)
      · have habsent := (get_str_absent_iff buffer).mpr hboth
        rw [scanPieces, habsent, ih]
        constructor
        · intro h
          obtain ⟨earlier, piece, later, rfl, hearlier, hnames⟩ := h
          exact ⟨buffer :: earlier, piece, later, rfl,
            List.forall_mem_cons.mpr ⟨hboth, hearlier⟩, hnames⟩
        · intro h
          obtain ⟨earlier, piece, later, heq, hearlier, hnames⟩ := h
          cases earlier with
          | nil =>
              cases heq
              exact absurd hnames.holds_both hboth
          | cons first earlier =>
              cases heq
              exact ⟨earlier, piece, later, rfl, (List.forall_mem_cons.mp hearlier).2, hnames⟩

/-- The loop finds a name exactly when the first piece that holds both parts names it. -/
theorem scan_pieces_iff {name : List Char} (hname : name ≠ []) (buffers : List (List Char)) :
    (∃ uid, scanPieces buffers = some (uid, name)) ↔ FirstNames name buffers := by
  rw [first_names_iff]
  exact exists_congr fun uid => scan_pieces_pod_iff hname buffers

/-! ## What the paths name -/

/-- The line has the token `memory`, and the path behind the first one. -/
def HasMemoryPath (path piece : List Char) : Prop :=
  ∃ others more, tokens ':' piece.dropLast = others ++ "memory".toList :: path :: more ∧
    "memory".toList ∉ others

/-- The path of a line is what stands behind its first token `memory`. -/
theorem memory_path_eq_some_iff {path piece : List Char} :
    memoryPath piece = some path ↔ HasMemoryPath path piece := by
  unfold memoryPath HasMemoryPath
  induction tokens ':' piece.dropLast with
  | nil => simp
  | cons token rest ih =>
      by_cases htoken : token = "memory".toList
      · rw [List.dropWhile_cons_of_neg (by simp [htoken])]
        constructor
        · intro h
          cases rest with
          | nil => cases h
          | cons next more =>
              cases h
              exact ⟨[], more, by rw [htoken, List.nil_append], List.not_mem_nil⟩
        · intro h
          obtain ⟨others, more, heq, hothers⟩ := h
          cases others with
          | nil =>
              obtain ⟨-, rfl⟩ := List.cons_eq_cons.mp heq
              rfl
          | cons other others =>
              obtain ⟨rfl, -⟩ := List.cons_eq_cons.mp heq
              exact absurd (htoken ▸ List.mem_cons_self) hothers
      · rw [List.dropWhile_cons_of_pos (by simpa using htoken), ih]
        constructor
        · intro h
          obtain ⟨others, more, rfl, hothers⟩ := h
          refine ⟨token :: others, more, rfl, ?_⟩
          exact fun hmem => (List.mem_cons.mp hmem).elim (fun heq => htoken heq.symm) hothers
        · intro h
          obtain ⟨others, more, heq, hothers⟩ := h
          cases others with
          | nil =>
              obtain ⟨rfl, -⟩ := List.cons_eq_cons.mp heq
              exact absurd rfl htoken
          | cons other others =>
              obtain ⟨rfl, rfl⟩ := List.cons_eq_cons.mp heq
              exact ⟨others, more, rfl, fun hmem => hothers (List.mem_cons_of_mem _ hmem)⟩

/-- The path of the first line that has one. -/
def FirstPath (path : List Char) (buffers : List (List Char)) : Prop :=
  ∃ earlier piece later, buffers = earlier ++ piece :: later ∧ HasMemoryPath path piece ∧
    ∀ other ∈ earlier, ∀ path, ¬ HasMemoryPath path other

/-- The loop over the lines stops at the first one that has a path. -/
theorem first_path_iff {path : List Char} {buffers : List (List Char)} :
    buffers.findSome? memoryPath = some path ↔ FirstPath path buffers := by
  rw [List.findSome?_eq_some_iff]
  unfold FirstPath
  simp only [memory_path_eq_some_iff, ← Option.not_isSome_iff_eq_none, Option.isSome_iff_exists,
    not_exists]

/-- Neither name in the path is empty, where the path has a pod and a container. The texts that the
function looks for may stand at the end of the parts, and the front of a short part is dropped. -/
def NamesWhole (path : List Char) : Prop :=
  ∀ parent second last, path = parent ++ '/' :: second ++ '/' :: last → '/' ∉ second →
    '/' ∉ last →
      if ".scope".toList <:+: last then
        ∀ front, FirstAt "-pod".toList front (prune ".slice".toList ('/' :: second)) →
          '-' ∈ prune ".scope".toList last →
            prune ".slice".toList ('/' :: second) ≠ front ++ "-pod".toList ∧
              ¬ ['-'] <:+ prune ".scope".toList last
      else 3 < second.length ∧ last ≠ []

/-- The front of a text is all of it when nothing is behind. -/
theorem drop_eq_nil_iff_of_first {needle front text : List Char} (h : FirstAt needle front text) :
    text.drop (front.length + needle.length) = [] ↔ text = front ++ needle := by
  obtain ⟨behind, rfl⟩ := h.1
  rw [← List.length_append, List.drop_left]
  simp

/-- A text that is split at its last separator ends with it when nothing is behind. -/
theorem suffix_iff_of_split {sep : Char} {front behind : List Char} (h : sep ∉ behind) :
    [sep] <:+ front ++ sep :: behind ↔ behind = [] := by
  constructor
  · intro hsuffix
    by_contra hne
    have hlast : (front ++ sep :: behind).getLast? = behind.getLast? := by
      rw [List.getLast?_append, List.getLast?_cons]
      cases behind with
      | nil => exact absurd rfl hne
      | cons c rest => simp [List.getLast?_cons]
    obtain ⟨before, hbefore⟩ := hsuffix
    rw [← hbefore, List.getLast?_concat] at hlast
    exact h (List.mem_of_getLast? hlast.symm)
  · intro hempty
    rw [hempty]
    exact List.suffix_append _ _

/-- A path in which names are found has two slashes. -/
theorem exists_parts {path : List Char} {names : List Char × List Char}
    (h : containerOf path = some names) : ∃ parent second last,
      path = parent ++ '/' :: second ++ '/' :: last ∧ '/' ∉ second ∧ '/' ∉ last := by
  unfold containerOf at h
  rcases rsplit_cases '/' path with ⟨hnone, -⟩ | ⟨front, last, hsome, rfl, hlast⟩
  · rw [hnone] at h
    cases h
  · rw [hsome] at h
    dsimp only at h
    rcases rsplit_cases '/' front with ⟨hnone, -⟩ | ⟨parent, second, -, rfl, hsecond⟩
    · rw [hnone] at h
      cases h
    · exact ⟨parent, second, last, rfl, hsecond, hlast⟩

/-- The names that are found in a path are not empty exactly when the path names whole. -/
theorem names_whole_iff {path : List Char} :
    NamesWhole path ↔ ∀ uid id, containerOf path = some (uid, id) → uid ≠ [] ∧ id ≠ [] := by
  constructor
  · intro h uid id hnames
    obtain ⟨parent, second, last, rfl, hsecond, hlast⟩ := exists_parts hnames
    have hwhole := h parent second last rfl hsecond hlast
    by_cases hscope : ".scope".toList <:+: last
    · rw [if_pos hscope] at hwhole
      obtain ⟨front, runtime, hfirst, heq, hplain, rfl⟩ :=
        (container_of_scope_iff parent hsecond hlast hscope).mp hnames
      have hdash : '-' ∈ prune ".scope".toList last := by
        rw [heq]
        exact List.mem_append_right _ List.mem_cons_self
      obtain ⟨huid, hid⟩ := hwhole front hfirst hdash
      rw [heq, suffix_iff_of_split hplain] at hid
      refine ⟨fun hempty => huid ?_, hid⟩
      exact (drop_eq_nil_iff_of_first hfirst).mp (List.map_eq_nil_iff.mp hempty)
    · rw [if_neg hscope] at hwhole
      rw [container_of_plain parent hsecond hlast hscope] at hnames
      obtain ⟨rfl, rfl⟩ := Prod.mk.inj (Option.some.inj hnames)
      refine ⟨fun hempty => ?_, hwhole.2⟩
      have hshort := List.drop_eq_nil_iff.mp hempty
      omega
  · intro h parent second last hpath hsecond hlast
    subst hpath
    split
    · rename_i hscope
      intro front hfirst hdash
      rcases rsplit_cases '-' (prune ".scope".toList last) with
        ⟨-, hnone⟩ | ⟨runtime, id, -, heq, hplain⟩
      · exact absurd hdash hnone
      · have hnames := (container_of_scope_iff parent hsecond hlast hscope).mpr
          ⟨front, runtime, hfirst, heq, hplain, rfl⟩
        obtain ⟨huid, hid⟩ := h _ _ hnames
        rw [heq, suffix_iff_of_split hplain]
        refine ⟨fun hend => huid ?_, hid⟩
        exact List.map_eq_nil_iff.mpr ((drop_eq_nil_iff_of_first hfirst).mpr hend)
    · rename_i hscope
      obtain ⟨huid, hid⟩ := h _ _ (container_of_plain parent hsecond hlast hscope)
      refine ⟨?_, hid⟩
      by_contra hshort
      exact huid (List.drop_eq_nil_iff.mpr (Nat.not_lt.mp hshort))

end UniShare.Container
