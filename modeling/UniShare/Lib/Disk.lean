import UniShare.Lib.Gjson

/-!
# Paths and files

A file system with contents of any type, as a program sees it that makes directories, removes trees
and writes whole files. A path is the list of its components. An open file is an inode, so a write
to a file that was removed in the meantime reaches no path. `FilesInv` is the invariant rule: when
every pending write is good for the path of its inode, every written file is good. `Complete` files
are kept by everything but an opening of theirs and a removal of their tree.
-/

namespace UniShare.Lib

/-- The components of a path. -/
def splitSlash : List Char → List (List Char)
  | [] => [[]]
  | '/' :: rest => [] :: splitSlash rest
  | c :: rest => consKey c (splitSlash rest)

/-- Go on from a rooted path by one component, as `filepath.Clean` does. -/
def cleanStep (path : List String) (component : String) : List String :=
  if component = "" ∨ component = "." then path
  else if component = ".." then path.dropLast
  else path ++ [component]

/-- `filepath.Join` of a rooted path. -/
def filepathJoin (elements : List String) : List String :=
  (elements.flatMap fun element => (splitSlash element.toList).map String.ofList).foldl cleanStep []

/-- A text that is one component of a path. -/
def PlainElement (element : String) : Prop :=
  element ≠ "" ∧ element ≠ "." ∧ element ≠ ".." ∧ '/' ∉ element.toList

instance plainElementDecidable (element : String) : Decidable (PlainElement element) :=
  inferInstanceAs (Decidable (_ ∧ _))

/-- A text without a slash is not split. -/
theorem split_slash_plain {chars : List Char} (h : '/' ∉ chars) : splitSlash chars = [chars] := by
  induction chars with
  | nil => rfl
  | cons c rest ih =>
      obtain ⟨hc, hrest⟩ := not_or.mp (List.mem_cons.not.mp h)
      rw [splitSlash, ih hrest]
      · rfl
      · intro heq
        exact hc heq.symm

/-- A slash separates the components on its two sides. -/
theorem split_slash_append (first second : List Char) :
    splitSlash (first ++ '/' :: second) = splitSlash first ++ splitSlash second := by
  induction first with
  | nil => rfl
  | cons c rest ih =>
      by_cases hc : c = '/'
      · subst hc
        simp [splitSlash, ih]
      · have hne : splitSlash rest ≠ [] := by
          unfold splitSlash
          split
          · simp
          · simp
          · rename_i c rest _
            cases splitSlash rest <;> simp [consKey]
        rw [List.cons_append, splitSlash, splitSlash, ih]
        · cases hsplit : splitSlash rest with
          | nil => exact absurd hsplit hne
          | cons part parts => rfl
        · exact fun heq => hc heq
        · exact fun heq => hc heq

/-- Joining goes on from the path joined so far. -/
theorem filepath_join_append (elements more : List String) :
    filepathJoin (elements ++ more) =
      (more.flatMap fun element => (splitSlash element.toList).map String.ofList).foldl cleanStep
        (filepathJoin elements) := by
  simp [filepathJoin]

/-- Joining a plain element adds it to the path. -/
theorem filepath_join_plain (elements : List String) {element : String} (h : PlainElement element) :
    filepathJoin (elements ++ [element]) = filepathJoin elements ++ [element] := by
  obtain ⟨hempty, hdot, hdots, hslash⟩ := h
  rw [filepath_join_append]
  simp [split_slash_plain hslash, cleanStep, hempty, hdot, hdots]

/-- Joining an empty element changes nothing. -/
theorem filepath_join_empty (elements : List String) :
    filepathJoin (elements ++ [""]) = filepathJoin elements := by
  rw [filepath_join_append]
  rfl
/-- What is found under a path: a directory, or a file with its inode and, once it is written, its
content. -/
inductive Entry (γ : Type) where
  | dir
  | file (inode : Nat) (content : Option γ)
  deriving DecidableEq, Repr

/-- What is found under each path, and the next inode. -/
structure Disk (γ : Type) where
  entry : List String → Option (Entry γ)
  inodes : Nat

namespace Disk

variable {γ : Type}

/-- A disk with a root only. -/
def empty (γ : Type) : Disk γ := ⟨fun path => if path = [] then some .dir else none, 0⟩

/-- There is a file under the path. -/
def isFile (disk : Disk γ) (path : List String) : Bool :=
  match disk.entry path with
  | some (.file _ _) => true
  | _ => false

/-- `os.MkdirAll`; `none` when a file is in the way. -/
def mkdirAll (disk : Disk γ) (path : List String) : Option (Disk γ) :=
  if path.inits.any disk.isFile then none
  else
    some
      { disk with
        entry := fun other =>
          if other <+: path ∧ (disk.entry other).isNone then some .dir else disk.entry other }

/-- `os.RemoveAll`. -/
def removeAll (disk : Disk γ) (path : List String) : Disk γ :=
  { disk with entry := fun other => if path <+: other then none else disk.entry other }

/-- `open` with `O_CREAT | O_TRUNC | O_WRONLY`: the inode, and the disk with an empty file. -/
def create (disk : Disk γ) (path : List String) : Option (Nat × Disk γ) :=
  match disk.entry path with
  | some .dir => none
  | some (.file inode _) =>
      some (inode, { disk with
        entry := Function.update disk.entry path (some (.file inode none)) })
  | none =>
      match disk.entry path.dropLast with
      | some .dir =>
          some (disk.inodes,
            { entry := Function.update disk.entry path (some (.file disk.inodes none))
              inodes := disk.inodes + 1 })
      | _ => none

/-- A complete `write` to an open file. -/
def write (disk : Disk γ) (inode : Nat) (data : γ) : Disk γ :=
  { disk with
    entry := fun path =>
      match disk.entry path with
      | some (.file other content) =>
          if other = inode then some (.file other (some data)) else some (.file other content)
      | found => found }

/-- Inodes are unique and below the next one, and every written file is good. -/
structure FilesInv (good : List String → γ → Prop) (disk : Disk γ) : Prop where
  unique : ∀ path other inode content content', disk.entry path = some (.file inode content) →
    disk.entry other = some (.file inode content') → path = other
  below : ∀ path inode content, disk.entry path = some (.file inode content) →
    inode < disk.inodes
  written : ∀ path inode data, disk.entry path = some (.file inode (some data)) → good path data

/-- A write of this data to the inode is good wherever the inode is found. -/
def Pending (good : List String → γ → Prop) (disk : Disk γ) (inode : Nat) (data : γ) : Prop :=
  inode < disk.inodes ∧
    ∀ path content, disk.entry path = some (.file inode content) → good path data

variable {good : List String → γ → Prop} {disk next : Disk γ}

/-- An operation that adds no file keeps the invariant. -/
theorem files_inv_shrink (h : FilesInv good disk) (hinodes : next.inodes = disk.inodes)
    (hfiles : ∀ path inode content, next.entry path = some (.file inode content) →
      disk.entry path = some (.file inode content)) : FilesInv good next :=
  ⟨fun path other inode content content' hpath hother =>
      h.unique path other inode content content' (hfiles _ _ _ hpath) (hfiles _ _ _ hother),
    fun path inode content hpath => hinodes ▸ h.below path inode content (hfiles _ _ _ hpath),
    fun path inode data hpath => h.written path inode data (hfiles _ _ _ hpath)⟩

/-- An operation that adds no file keeps a pending write good. -/
theorem pending_shrink {inode : Nat} {data : γ} (h : Pending good disk inode data)
    (hinodes : next.inodes = disk.inodes)
    (hfiles : ∀ path inode content, next.entry path = some (.file inode content) →
      disk.entry path = some (.file inode content)) : Pending good next inode data :=
  ⟨hinodes ▸ h.1, fun path content hpath => h.2 path content (hfiles _ _ _ hpath)⟩

/-- Making directories adds no file. -/
theorem mkdirAll_files {path : List String} (h : disk.mkdirAll path = some next) :
    next.inodes = disk.inodes ∧ ∀ other inode content,
      next.entry other = some (.file inode content) →
        disk.entry other = some (.file inode content) := by
  unfold mkdirAll at h
  split at h <;> cases h
  refine ⟨rfl, fun other inode content hother => ?_⟩
  dsimp only at hother
  split at hother
  · cases hother
  · exact hother

/-- Making directories changes only the directories on the way. -/
theorem mkdirAll_entry {path other : List String} (h : disk.mkdirAll path = some next)
    (hother : ¬ other <+: path) : next.entry other = disk.entry other := by
  unfold mkdirAll at h
  split at h <;> cases h
  simp [hother]

/-- Removing a tree leaves nothing in it. -/
theorem removeAll_entry (disk : Disk γ) {path other : List String} (h : path <+: other) :
    (disk.removeAll path).entry other = none := by
  simp [removeAll, h]

/-- Removing a tree leaves everything outside of it. -/
theorem removeAll_entry_of_not (disk : Disk γ) {path other : List String} (h : ¬ path <+: other) :
    (disk.removeAll path).entry other = disk.entry other := by
  simp [removeAll, h]

/-- A write makes no new entry. -/
theorem write_entry_none {inode : Nat} {data : γ} {path : List String}
    (h : disk.entry path = none) : (disk.write inode data).entry path = none := by
  simp [write, h]

/-- Removing a tree adds no file. -/
theorem removeAll_files (disk : Disk γ) (path : List String) :
    (disk.removeAll path).inodes = disk.inodes ∧ ∀ other inode content,
      (disk.removeAll path).entry other = some (.file inode content) →
        disk.entry other = some (.file inode content) := by
  refine ⟨rfl, fun other inode content hother => ?_⟩
  simp only [removeAll] at hother
  split at hother
  · cases hother
  · exact hother

/-- What opening a file does: the path holds an empty file of the inode, which is that of the file
that was there or a new one, and no other path changes. -/
theorem create_eq_some {path : List String} {inode : Nat}
    (h : disk.create path = some (inode, next)) :
    next.entry = Function.update disk.entry path (some (.file inode none)) ∧
      ((∃ content, disk.entry path = some (.file inode content) ∧ next.inodes = disk.inodes) ∨
        inode = disk.inodes ∧ next.inodes = disk.inodes + 1) := by
  unfold create at h
  split at h
  · cases h
  · rename_i content hfile
    cases h
    exact ⟨rfl, .inl ⟨content, hfile, rfl⟩⟩
  · split at h <;> cases h
    exact ⟨rfl, .inr ⟨rfl, rfl⟩⟩

/-- A file after opening one is the opened file, which is empty, or an old one of another inode. -/
theorem create_entry (h : FilesInv good disk) {path : List String} {inode : Nat}
    (hcreate : disk.create path = some (inode, next)) {other : List String} {index : Nat}
    {content : Option γ} (hfile : next.entry other = some (.file index content)) :
    (other = path ∧ index = inode ∧ content = none) ∨
      disk.entry other = some (.file index content) ∧ index ≠ inode := by
  obtain ⟨hentry, hinode⟩ := create_eq_some hcreate
  rw [hentry] at hfile
  by_cases heq : other = path
  · subst heq
    rw [Function.update_self] at hfile
    cases hfile
    exact .inl ⟨rfl, rfl, rfl⟩
  · rw [Function.update_of_ne heq] at hfile
    refine .inr ⟨hfile, ?_⟩
    rintro rfl
    rcases hinode with ⟨before, hbefore, -⟩ | ⟨rfl, -⟩
    · exact heq (h.unique other path index content before hfile hbefore)
    · exact absurd (h.below other disk.inodes content hfile) (Nat.lt_irrefl _)

/-- Opening a file keeps the invariant, and makes a write that is good for its path pending. -/
theorem files_inv_create (h : FilesInv good disk) {path : List String} {inode : Nat}
    (hcreate : disk.create path = some (inode, next)) :
    FilesInv good next ∧ ∀ data, good path data → Pending good next inode data := by
  have hbelow : inode < next.inodes ∧ disk.inodes ≤ next.inodes := by
    obtain ⟨-, ⟨before, hbefore, hsame⟩ | ⟨rfl, hsame⟩⟩ := create_eq_some hcreate
    · exact ⟨hsame ▸ h.below path inode before hbefore, hsame.ge⟩
    · omega
  refine ⟨⟨?_, ?_, ?_⟩, fun data hgood => ⟨hbelow.1, fun other content hfile => ?_⟩⟩
  · intro first second index content content' hfirst hsecond
    rcases create_entry h hcreate hfirst with ⟨rfl, hnew, -⟩ | ⟨hold, hne⟩
    · rcases create_entry h hcreate hsecond with ⟨rfl, -, -⟩ | ⟨-, hne⟩
      · rfl
      · exact absurd hnew hne
    · rcases create_entry h hcreate hsecond with ⟨-, hnew, -⟩ | ⟨hold', -⟩
      · exact absurd hnew hne
      · exact h.unique first second index content content' hold hold'
  · intro other index content hfile
    rcases create_entry h hcreate hfile with ⟨-, rfl, -⟩ | ⟨hold, -⟩
    · exact hbelow.1
    · exact lt_of_lt_of_le (h.below other index content hold) hbelow.2
  · intro other index data hfile
    rcases create_entry h hcreate hfile with ⟨-, -, hnone⟩ | ⟨hold, -⟩
    · cases hnone
    · exact h.written other index data hold
  · rcases create_entry h hcreate hfile with ⟨rfl, -, -⟩ | ⟨-, hne⟩
    · exact hgood
    · exact absurd rfl hne

/-- Opening a file keeps another pending write good. -/
theorem pending_create {path : List String} {inode index : Nat} {data : γ}
    (h : Pending good disk index data) (hcreate : disk.create path = some (inode, next)) :
    Pending good next index data := by
  obtain ⟨hentry, hinode⟩ := create_eq_some hcreate
  have hle : disk.inodes ≤ next.inodes := by
    rcases hinode with ⟨-, -, hsame⟩ | ⟨-, hsame⟩ <;> omega
  refine ⟨lt_of_lt_of_le h.1 hle, fun other content hfile => ?_⟩
  by_cases heq : other = path
  · subst heq
    rw [hentry, Function.update_self] at hfile
    cases hfile
    rcases hinode with ⟨before, hbefore, -⟩ | ⟨rfl, -⟩
    · exact h.2 other before hbefore
    · exact absurd h.1 (Nat.lt_irrefl _)
  · rw [hentry, Function.update_of_ne heq] at hfile
    exact h.2 other content hfile

/-- The files after a write: those before it, with the data as content of the inode. -/
theorem write_entry {inode : Nat} {data : γ} {path : List String} {index : Nat} {content : Option γ}
    (h : (disk.write inode data).entry path = some (.file index content)) :
    ∃ before, disk.entry path = some (.file index before) ∧
      (content = before ∨ index = inode ∧ content = some data) := by
  simp only [write] at h
  split at h
  · rename_i other before hbefore
    split at h <;> cases h
    · rename_i hinode
      exact ⟨before, hbefore, .inr ⟨hinode, rfl⟩⟩
    · exact ⟨_, hbefore, .inl rfl⟩
  · rename_i hnofile
    exact absurd h (hnofile index content)

/-- A good pending write keeps the invariant. -/
theorem files_inv_write (h : FilesInv good disk) {inode : Nat} {data : γ}
    (hpending : Pending good disk inode data) : FilesInv good (disk.write inode data) := by
  refine ⟨fun path other index content content' hpath hother => ?_,
    fun path index content hpath => ?_, fun path index found hpath => ?_⟩
  · obtain ⟨before, hbefore, -⟩ := write_entry hpath
    obtain ⟨before', hbefore', -⟩ := write_entry hother
    exact h.unique path other index before before' hbefore hbefore'
  · obtain ⟨before, hbefore, -⟩ := write_entry hpath
    exact h.below path index before hbefore
  · obtain ⟨before, hbefore, rfl | ⟨rfl, hcontent⟩⟩ := write_entry hpath
    · exact h.written path index found hbefore
    · cases hcontent
      exact hpending.2 path before hbefore

/-- A write keeps another pending write good. -/
theorem pending_write {inode index : Nat} {data other : γ} (h : Pending good disk index other) :
    Pending good (disk.write inode data) index other := by
  refine ⟨h.1, fun path content hpath => ?_⟩
  obtain ⟨before, hbefore, -⟩ := write_entry hpath
  exact h.2 path before hbefore

/-- A disk without files satisfies the invariant. -/
theorem files_inv_empty : FilesInv good (empty γ) := by
  have hnofile : ∀ path inode content, (empty γ).entry path ≠ some (.file inode content) := by
    intro path inode content hfile
    simp only [empty] at hfile
    split at hfile <;> cases hfile
  exact ⟨fun path _ inode content _ hpath => absurd hpath (hnofile path inode content),
    fun path inode content hpath => absurd hpath (hnofile path inode content),
    fun path inode data hpath => absurd hpath (hnofile path inode (some data))⟩

end Disk

/-! ## Written files -/

namespace Disk

variable {γ : Type} {disk : Disk γ}

/-- The content of the file of a path, when there is one and it is written. -/
def read (disk : Disk γ) (path : List String) : Option γ :=
  match disk.entry path with
  | some (.file _ content) => content
  | _ => none

/-- There is a written file under the path. -/
def Complete (disk : Disk γ) (path : List String) : Prop :=
  ∃ inode data, disk.entry path = some (.file inode (some data))

/-- What can be read is a written file. -/
theorem read_is_some_iff {path : List String} :
    (disk.read path).isSome = true ↔ disk.Complete path := by
  unfold read Complete
  split
  · rename_i inode content hentry
    cases content <;> simp [hentry]
  · rename_i hnofile
    exact iff_of_false (by simp) fun ⟨inode, data, hentry⟩ => hnofile inode (some data) hentry

instance (disk : Disk γ) (path : List String) : Decidable (disk.Complete path) :=
  decidable_of_iff _ read_is_some_iff

/-! ## What stays on a disk -/

section Keeps

variable {γ : Type} {disk next : Disk γ}

/-- The directories stay, and the paths of files keep their inodes. -/
structure Keeps (disk next : Disk γ) : Prop where
  dirs : ∀ path, disk.entry path = some .dir → next.entry path = some .dir
  files : ∀ path inode content, disk.entry path = some (.file inode content) →
    ∃ later, next.entry path = some (.file inode later)

/-- A disk keeps what is on it. -/
theorem Keeps.refl (disk : Disk γ) : disk.Keeps disk :=
  ⟨fun _ hdir => hdir, fun _ _ content hfile => ⟨content, hfile⟩⟩

/-- Making directories takes nothing away. -/
theorem mkdirAll_of_some {path other : List String} {found : Entry γ}
    (hmade : disk.mkdirAll path = some next) (h : disk.entry other = some found) :
    next.entry other = some found := by
  unfold mkdirAll at hmade
  split at hmade <;> cases hmade
  simp [h]

/-- Making directories keeps what is on the disk. -/
theorem keeps_mkdirAll {path : List String} (hmade : disk.mkdirAll path = some next) :
    disk.Keeps next :=
  ⟨fun _ hdir => mkdirAll_of_some hmade hdir,
    fun _ _ content hfile => ⟨content, mkdirAll_of_some hmade hfile⟩⟩

/-- Opening a file keeps what is on the disk, except what was in the file. -/
theorem keeps_create {path : List String} {inode : Nat}
    (hcreate : disk.create path = some (inode, next)) : disk.Keeps next := by
  obtain ⟨hentry, hinode⟩ := create_eq_some hcreate
  refine ⟨fun other hdir => ?_, fun other index content hfile => ?_⟩
  · have hne : other ≠ path := by
      rintro rfl
      unfold create at hcreate
      rw [hdir] at hcreate
      cases hcreate
    rw [hentry, Function.update_of_ne hne, hdir]
  · rw [hentry]
    by_cases heq : other = path
    · subst heq
      rw [Function.update_self]
      unfold create at hcreate
      rw [hfile] at hcreate
      cases hcreate
      exact ⟨none, rfl⟩
    · rw [Function.update_of_ne heq]
      exact ⟨content, hfile⟩

/-- Writing a file keeps what is on the disk, except what was in the file. -/
theorem keeps_write (disk : Disk γ) (inode : Nat) (data : γ) :
    disk.Keeps (disk.write inode data) := by
  refine ⟨fun path hdir => by simp [write, hdir], fun path index content hfile => ?_⟩
  by_cases heq : index = inode
  · exact ⟨some data, by simp [write, hfile, heq]⟩
  · exact ⟨content, by simp [write, hfile, heq]⟩

/-- A path is a directory once it has been made. -/
theorem mkdirAll_self {path : List String} (hmade : disk.mkdirAll path = some next) :
    next.entry path = some .dir := by
  unfold mkdirAll at hmade
  split at hmade <;> cases hmade
  rename_i hnofile
  have hpath : disk.isFile path = false := by
    have hall := List.any_eq_false.mp (Bool.eq_false_iff.mpr hnofile) path (by simp)
    simpa using hall
  cases hentry : disk.entry path with
  | none => simp [hentry]
  | some found =>
      cases found with
      | dir => simp [hentry]
      | file inode content => simp [isFile, hentry] at hpath

/-- Directories can be made where no file is in the way. -/
theorem mkdirAll_isSome {path : List String}
    (h : ∀ part, part <+: path → ∀ inode content, disk.entry part ≠ some (.file inode content)) :
    (disk.mkdirAll path).isSome := by
  unfold mkdirAll
  rw [if_neg]
  · rfl
  · rw [List.any_eq_true]
    intro hway
    obtain ⟨part, hpart, hfile⟩ := hway
    unfold isFile at hfile
    split at hfile
    · rename_i inode content hentry
      exact h part ((List.mem_inits _ _).mp hpart) inode content hentry
    · cases hfile

/-- A file can be opened in a directory. -/
theorem create_isSome {dir : List String} {name : String} (hdir : disk.entry dir = some .dir)
    (hfile : disk.entry (dir ++ [name]) ≠ some .dir) : (disk.create (dir ++ [name])).isSome := by
  unfold create
  cases hentry : disk.entry (dir ++ [name]) with
  | none => simp [hdir]
  | some found =>
      cases found with
      | dir => exact absurd hentry hfile
      | file inode content => simp

/-- A written file stays when directories are made. -/
theorem Complete.mkdirAll {path other : List String} (h : disk.Complete path)
    (hmade : disk.mkdirAll other = some next) : next.Complete path := by
  obtain ⟨inode, data, hentry⟩ := h
  exact ⟨inode, data, mkdirAll_of_some hmade hentry⟩

/-- A written file stays when another one is opened. -/
theorem Complete.create {path other : List String} {inode : Nat} (h : disk.Complete path)
    (hne : path ≠ other) (hcreate : disk.create other = some (inode, next)) :
    next.Complete path := by
  obtain ⟨index, data, hentry⟩ := h
  refine ⟨index, data, ?_⟩
  rw [(create_eq_some hcreate).1, Function.update_of_ne hne, hentry]

/-- A file is written by a write to its inode. -/
theorem complete_write_self {path : List String} {inode : Nat} {content : Option γ}
    (h : disk.entry path = some (.file inode content)) (data : γ) :
    (disk.write inode data).Complete path :=
  ⟨inode, data, by simp [write, h]⟩

/-- A written file stays written. -/
theorem Complete.write {path : List String} (h : disk.Complete path) (inode : Nat) (data : γ) :
    (disk.write inode data).Complete path := by
  obtain ⟨index, found, hentry⟩ := h
  by_cases heq : index = inode
  · subst heq
    exact complete_write_self hentry data
  · exact ⟨index, found, by simp [Disk.write, hentry, heq]⟩

/-- Files are at these paths only, and directories at those. -/
structure LaidOut (fileAt dirAt : List String → Prop) (disk : Disk γ) : Prop where
  files : ∀ path inode content, disk.entry path = some (.file inode content) → fileAt path
  dirs : ∀ path, disk.entry path = some .dir → dirAt path

section LaidOut

variable {fileAt dirAt : List String → Prop}

/-- Making directories keeps the layout when the directories on the way belong to it. -/
theorem LaidOut.mkdirAll {path : List String} (h : disk.LaidOut fileAt dirAt)
    (hmade : disk.mkdirAll path = some next) (hpath : ∀ part, part <+: path → dirAt part) :
    next.LaidOut fileAt dirAt := by
  refine ⟨fun other inode content hfile => ?_, fun other hdir => ?_⟩
  · exact h.files other inode content ((mkdirAll_files hmade).2 other inode content hfile)
  · by_cases hpart : other <+: path
    · exact hpath other hpart
    · rw [mkdirAll_entry hmade hpart] at hdir
      exact h.dirs other hdir

/-- Opening a file keeps the layout when the file belongs to it. -/
theorem LaidOut.create {path : List String} {inode : Nat} (h : disk.LaidOut fileAt dirAt)
    (hcreate : disk.create path = some (inode, next)) (hpath : fileAt path) :
    next.LaidOut fileAt dirAt := by
  have hentry := (create_eq_some hcreate).1
  constructor
  · intro other index content hfile
    by_cases heq : other = path
    · exact heq ▸ hpath
    · rw [hentry, Function.update_of_ne heq] at hfile
      exact h.files other index content hfile
  · intro other hdir
    by_cases heq : other = path
    · subst heq
      rw [hentry, Function.update_self] at hdir
      cases hdir
    · rw [hentry, Function.update_of_ne heq] at hdir
      exact h.dirs other hdir

/-- Writing a file keeps the layout. -/
theorem LaidOut.write (h : disk.LaidOut fileAt dirAt) (inode : Nat) (data : γ) :
    (disk.write inode data).LaidOut fileAt dirAt := by
  refine ⟨fun path index content hfile => ?_, fun path hdir => h.dirs path ?_⟩
  · obtain ⟨before, hbefore, -⟩ := write_entry hfile
    exact h.files path index before hbefore
  · simp only [Disk.write] at hdir
    split at hdir
    · split at hdir <;> cases hdir
    · exact hdir

/-- Removing a tree keeps the layout. -/
theorem LaidOut.removeAll (h : disk.LaidOut fileAt dirAt) (path : List String) :
    (disk.removeAll path).LaidOut fileAt dirAt := by
  refine ⟨fun other inode content hfile => ?_, fun other hdir => ?_⟩
  · exact h.files other inode content ((removeAll_files disk path).2 other inode content hfile)
  · simp only [Disk.removeAll] at hdir
    split at hdir
    · cases hdir
    · exact h.dirs other hdir

end LaidOut

end Keeps

end Disk

end UniShare.Lib
