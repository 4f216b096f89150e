import UniShare.Container.ContInfoReg
import UniShare.Lib.CBuffer

/-!
# The container of a cgroup file, in place

`get_cgroup_data` of `core/container/contInfoReg.c` on the arrays that it works in: the buffer of a
line, and those of the pod and of the container, whatever they and the memory behind them hold at
first. `in_place_refines` says that it finds what `getCgroupData` finds.
-/

namespace UniShare.Container

open Lib

/-! ## The function -/

/-- The loop over the tokens of a line from a place on, with at most this many of them: the place of
the token behind `memory`, and the buffer. -/
def memoryToken : Nat → List Char → Nat → Option Nat × List Char
  | 0, buffer, _ => (none, buffer)
  | left + 1, buffer, place =>
      match strtokR ':' buffer place with
      | (none, buffer, _) => (none, buffer)
      | (some token, buffer, lastPtr) =>
          if cstring buffer token = "memory".toList then
            let next := strtokR ':' buffer lastPtr
            (next.1, next.2.1)
          else memoryToken left buffer lastPtr

/-- The loop over the pieces of the file. -/
def findCgroupPtr : List (List Char) → List Char → Option Nat × List Char
  | [], buffer => (none, overwrite buffer 0 [nul])
  | piece :: rest, buffer =>
      let read := overwrite (overwrite buffer 0 [nul]) 0 (piece ++ [nul])
      -- the last byte of the piece, its newline when the line fits, is cut off
      let buffer := overwrite read ((cstring read 0).length - 1) [nul]
      match memoryToken buffer.length buffer 0 with
      | (some cgroupPtr, buffer) => (some cgroupPtr, buffer)
      | (none, buffer) => findCgroupPtr rest buffer

/-- The loop over the bytes of the path, at a place, for the last slash and the one before it. -/
def lastSlashes : List Char → Nat → Option Nat → Option Nat → Option Nat × Option Nat
  | [], _, lastPtr, lastSecond => (lastPtr, lastSecond)
  | c :: rest, token, lastPtr, lastSecond =>
      if c = nul then (lastPtr, lastSecond)
      else if c = '/' then lastSlashes rest (token + 1) (some token) lastPtr
      else lastSlashes rest (token + 1) lastPtr lastSecond

/-- The loop over the bytes of the container, at a place, for the last dash. -/
def lastDash : List Char → Nat → Option Nat → Option Nat
  | [], _, prunePos => prunePos
  | c :: rest, token, prunePos =>
      if c = nul then prunePos
      else lastDash rest (token + 1) (if c = '-' then some token else prunePos)

/-- A zero at the place that `strstr` has found, if any. -/
def cutAt (array : List Char) : Option Nat → List Char
  | none => array
  | some prunePos => overwrite array prunePos [nul]

/-- What `get_cgroup_data` returns and leaves in the arrays of its caller. -/
structure CgroupData where
  ret : Nat
  podUid : List Char
  containerId : List Char

/-- What becomes of the names of a cgroup that systemd manages. -/
def systemdNames (podUid containerId : List Char) : CgroupData :=
  match lastDash containerId 0 none with
  | none => ⟨1, podUid, containerId⟩
  | some prunePos =>
      -- the length is that of the whole name, so bytes from behind its end come along
      let containerId := memmove containerId 0 (prunePos + 1) (cstring containerId 0).length
      match strstr "-pod".toList (cstring podUid 0) with
      | none => ⟨1, podUid, containerId⟩
      | some found =>
          let prunePos := found + "-pod".toList.length
          let moved := memmove podUid 0 prunePos (cstring podUid prunePos).length
          -- `strlen(prune_pos)` is taken again, on the array after the move
          let podUid := overwrite moved (cstring moved prunePos).length [nul]
          ⟨0, mapText (fun c => if c = '_' then '-' else c) podUid, containerId⟩

/-- `get_cgroup_data`, from the path on. -/
def cgroupNames (size : Nat) (buffer podUid containerId : List Char) (cgroupPtr : Nat) :
    CgroupData :=
  match lastSlashes (buffer.drop cgroupPtr) cgroupPtr none none with
  | (none, _) => ⟨1, podUid, containerId⟩
  | (some lastPtr, lastSecond) =>
      let copied := overwrite (strncpy containerId (cstring buffer (lastPtr + 1)) size) (size - 1)
        [nul]
      let scope := strstr ".scope".toList (cstring copied 0)
      let containerId := cutAt copied scope
      -- the slash ahead of the container ends the text of the pod
      let buffer := overwrite buffer lastPtr [nul]
      match lastSecond with
      | none => ⟨1, podUid, containerId⟩
      | some lastSecond =>
          let podUid := overwrite (strncpy podUid (cstring buffer lastSecond) size) (size - 1) [nul]
          if scope.isSome then
            systemdNames (cutAt podUid (strstr ".slice".toList (cstring podUid 0))) containerId
          else
            ⟨0, memmove podUid 0 "/pod".toList.length (cstring podUid 0).length, containerId⟩

/-- `get_cgroup_data` on a file, with a buffer for its lines and the arrays of its caller. -/
def getCgroupDataInPlace (size : Nat) (cgroup buffer podUid containerId : List Char) : CgroupData :=
  match findCgroupPtr (pieces bufferSize cgroup) buffer with
  | (none, _) => ⟨1, podUid, containerId⟩
  | (some cgroupPtr, buffer) => cgroupNames size buffer podUid containerId cgroupPtr

/-! ## The line -/

/-- What comes behind the token `memory`. -/
def afterMemory : List (List Char) → Option (List Char)
  | [] => none
  | token :: rest => if token = "memory".toList then rest.head? else afterMemory rest

/-- The path of a line in terms of its tokens. -/
theorem memory_path_concat (text : List Char) (c : Char) :
    memoryPath (text ++ [c]) = afterMemory (tokens ':' text) := by
  rw [memoryPath, List.dropLast_concat]
  induction tokens ':' text with
  | nil => rfl
  | cons token rest ih =>
      by_cases htoken : token = "memory".toList
      · rw [afterMemory, if_pos htoken, List.dropWhile_cons_of_neg (by simp [htoken])]
        cases rest <;> rfl
      · rw [afterMemory, if_neg htoken, List.dropWhile_cons_of_pos (by simpa using htoken)]
        exact ih

/-- The loop over the tokens finds the token behind `memory`, or none when there is none. -/
theorem memory_token_of_holds {left place : Nat} {buffer text : List Char}
    (h : Holds buffer place text) (hleft : text.length < left) :
    (∃ cgroupPtr after path, memoryToken left buffer place = (some cgroupPtr, after) ∧
        afterMemory (tokens ':' text) = some path ∧ Holds after cgroupPtr path ∧
        path.length ≤ text.length) ∨
      ∃ after, memoryToken left buffer place = (none, after) ∧
        afterMemory (tokens ':' text) = none := by
  have hcolon : ':' ≠ nul := by decide
  induction left generalizing buffer place text with
  | zero => exact absurd hleft (Nat.not_lt_zero _)
  | succ left ih =>
      cases htokens : tokens ':' text with
      | nil =>
          obtain ⟨following, hstep⟩ := strtok_of_nil hcolon h htokens
          exact .inr ⟨buffer, by rw [memoryToken, hstep], rfl⟩
      | cons token others =>
          obtain ⟨start, after, following, rest, hstep, htoken, hrest, hothers, hlt, -⟩ :=
            strtok_of_cons hcolon h htokens
          by_cases hmemory : token = "memory".toList
          · have hstop : memoryToken (left + 1) buffer place =
                ((strtokR ':' after following).1, (strtokR ':' after following).2.1) := by
              rw [memoryToken, hstep]
              exact if_pos (htoken.cstring_eq.trans hmemory)
            rw [hstop, afterMemory, if_pos hmemory]
            cases others with
            | nil =>
                obtain ⟨_, hnext⟩ := strtok_of_nil hcolon hrest hothers
                exact .inr ⟨after, by rw [hnext], rfl⟩
            | cons path others =>
                obtain ⟨cgroupPtr, last, _, _, hnext, hpath, -, -, -, hle⟩ :=
                  strtok_of_cons hcolon hrest hothers
                exact .inl ⟨cgroupPtr, last, path, by rw [hnext], rfl, hpath, hle.trans hlt.le⟩
          · have hgoes : memoryToken (left + 1) buffer place =
                memoryToken left after following := by
              rw [memoryToken, hstep]
              exact if_neg (fun heq => hmemory (htoken.cstring_eq.symm.trans heq))
            rw [hgoes, afterMemory, if_neg hmemory, ← hothers]
            rcases ih hrest (by omega) with
              ⟨cgroupPtr, last, path, hfound, hpath, hholds, hle⟩ | hnone
            · exact .inl ⟨cgroupPtr, last, path, hfound, hpath, hholds, hle.trans hlt.le⟩
            · exact .inr hnone

/-- The loop over the pieces finds the path of the first line that has one. -/
theorem find_cgroup_ptr_of_pieces {size : Nat} {lines : List (List Char)} (buffer : List Char)
    (hlines : ∀ piece ∈ lines, piece ≠ [] ∧ nul ∉ piece ∧ piece.length < size) :
    (∃ cgroupPtr after path, findCgroupPtr lines buffer = (some cgroupPtr, after) ∧
        lines.findSome? memoryPath = some path ∧ Holds after cgroupPtr path ∧
        path.length < size) ∨
      ∃ after, findCgroupPtr lines buffer = (none, after) ∧ lines.findSome? memoryPath = none := by
  induction lines generalizing buffer with
  | nil => exact .inr ⟨_, rfl, rfl⟩
  | cons piece rest ih =>
      obtain ⟨⟨hne, hnul, hshort⟩, hrest⟩ := List.forall_mem_cons.mp hlines
      obtain ⟨text, c, rfl⟩ := (List.eq_nil_or_concat' piece).resolve_left hne
      have hread : Holds (overwrite (overwrite buffer 0 [nul]) 0 (text ++ [c] ++ [nul])) 0
          (text ++ [c]) := holds_overwrite_zero _ hnul []
      have hcut := hread.cut text.length (by simp)
      rw [List.take_left, Nat.zero_add] at hcut
      have hstrlen : (cstring (overwrite (overwrite buffer 0 [nul]) 0 (text ++ [c] ++ [nul]))
          0).length - 1 = text.length := by
        rw [hread.cstring_eq]
        simp
      rw [List.findSome?_cons, memory_path_concat, findCgroupPtr, hstrlen]
      rcases memory_token_of_holds hcut hcut.length_lt with
        ⟨cgroupPtr, after, path, hfound, hpath, hholds, hle⟩ | ⟨after, hnone, hpath⟩
      · rw [hfound, hpath]
        rw [List.length_append] at hshort
        exact .inl ⟨cgroupPtr, after, path, rfl, rfl, hholds, by omega⟩
      · rw [hnone, hpath]
        exact ih after hrest

/-! ## The names -/

/-- A zero where `strstr` finds the needle prunes the text. -/
theorem cut_at_of_holds {array text : List Char} (needle : List Char) (h : Holds array 0 text) :
    Holds (cutAt array (strstr needle text)) 0 (prune needle text) := by
  unfold prune
  cases hfound : strstr needle text with
  | none => exact h
  | some i =>
      have hcut := h.cut i (strstr_eq_some_iff.mp hfound).2.1
      rwa [Nat.zero_add] at hcut

/-- The loop for the last slashes passes over a text. -/
theorem last_slashes_append {text : List Char} (hnul : nul ∉ text) (more : List Char)
    (token : Nat) (lastPtr lastSecond : Option Nat) :
    ∃ lastPtr' lastSecond', lastSlashes (text ++ more) token lastPtr lastSecond =
        lastSlashes more (token + text.length) lastPtr' lastSecond' ∧
      ('/' ∉ text → lastPtr' = lastPtr ∧ lastSecond' = lastSecond) := by
  induction text generalizing token lastPtr lastSecond with
  | nil => exact ⟨lastPtr, lastSecond, rfl, fun _ => ⟨rfl, rfl⟩⟩
  | cons c text ih =>
      obtain ⟨hc, hrest⟩ := not_or.mp (List.mem_cons.not.mp hnul)
      have hplace : token + (c :: text).length = token + 1 + text.length := by
        simp only [List.length_cons]
        omega
      rw [List.cons_append, lastSlashes, if_neg (Ne.symm hc), hplace]
      by_cases hslash : c = '/'
      · rw [if_pos hslash]
        obtain ⟨lastPtr', lastSecond', heq, -⟩ := ih hrest (token + 1) (some token) lastPtr
        exact ⟨lastPtr', lastSecond', heq, fun h => absurd (hslash ▸ List.mem_cons_self ..) h⟩
      · rw [if_neg hslash]
        obtain ⟨lastPtr', lastSecond', heq, hkept⟩ := ih hrest (token + 1) lastPtr lastSecond
        refine ⟨lastPtr', lastSecond', heq, fun h => hkept ?_⟩
        exact fun hmem => h (List.mem_cons_of_mem _ hmem)

/-- The loop for the last slashes comes to the end of a text without one. -/
theorem last_slashes_plain {text : List Char} (hnul : nul ∉ text) (hslash : '/' ∉ text)
    (rest : List Char) (token : Nat) (lastPtr lastSecond : Option Nat) :
    lastSlashes (text ++ nul :: rest) token lastPtr lastSecond = (lastPtr, lastSecond) := by
  obtain ⟨_, _, heq, hkept⟩ :=
    last_slashes_append hnul (nul :: rest) token lastPtr lastSecond
  obtain ⟨rfl, rfl⟩ := hkept hslash
  rw [heq, lastSlashes, if_pos rfl]

/-- The loop for the last slashes finds where the text is split. -/
theorem last_slashes_of_holds {buffer text : List Char} {place : Nat}
    (h : Holds buffer place text) :
    lastSlashes (buffer.drop place) place none none =
      match rsplit '/' text with
      | none => (none, none)
      | some (front, _) =>
          (some (place + front.length),
            (rsplit '/' front).map fun parts => place + parts.1.length) := by
  obtain ⟨rest, hdrop⟩ := h.drop_eq
  have hnul := h.1
  rw [hdrop]
  rcases rsplit_cases '/' text with ⟨hnone, hslash⟩ | ⟨front, last, hsome, rfl, hlast⟩
  · rw [hnone, last_slashes_plain hnul hslash]
  · have hfrontNul : nul ∉ front := fun hmem => hnul (List.mem_append_left _ hmem)
    have hlastNul : nul ∉ last := fun hmem =>
      hnul (List.mem_append_right _ (List.mem_cons_of_mem _ hmem))
    have hslashNul : '/' ≠ nul := by decide
    rw [hsome, List.append_assoc, List.cons_append]
    dsimp only
    rcases rsplit_cases '/' front with ⟨hnone, hslash⟩ | ⟨first, second, hsecond, rfl, hplain⟩
    · obtain ⟨_, _, heq, hkept⟩ :=
        last_slashes_append hfrontNul ('/' :: (last ++ nul :: rest)) place none none
      obtain ⟨rfl, rfl⟩ := hkept hslash
      rw [hnone, heq, lastSlashes, if_neg hslashNul, if_pos rfl,
        last_slashes_plain hlastNul hlast]
      rfl
    · have hfirstNul : nul ∉ first := fun hmem => hfrontNul (List.mem_append_left _ hmem)
      have hsecondNul : nul ∉ second := fun hmem =>
        hfrontNul (List.mem_append_right _ (List.mem_cons_of_mem _ hmem))
      have hplace : place + (first ++ '/' :: second).length =
          place + first.length + 1 + second.length := by
        simp only [List.length_append, List.length_cons]
        omega
      obtain ⟨lastPtr, lastSecond, hpass, -⟩ := last_slashes_append hfirstNul
        ('/' :: (second ++ '/' :: (last ++ nul :: rest))) place none none
      obtain ⟨_, _, heq, hkept⟩ := last_slashes_append hsecondNul ('/' :: (last ++ nul :: rest))
        (place + first.length + 1) (some (place + first.length)) lastPtr
      obtain ⟨rfl, rfl⟩ := hkept hplain
      rw [hsecond, hplace, List.append_assoc, List.cons_append, hpass, lastSlashes,
        if_neg hslashNul, if_pos rfl, heq, lastSlashes, if_neg hslashNul, if_pos rfl,
        last_slashes_plain hlastNul hlast]
      rfl

/-- The loop for the last dash passes over a text. -/
theorem last_dash_append {text : List Char} (hnul : nul ∉ text) (more : List Char) (token : Nat)
    (prunePos : Option Nat) :
    ∃ prunePos', lastDash (text ++ more) token prunePos =
        lastDash more (token + text.length) prunePos' ∧ ('-' ∉ text → prunePos' = prunePos) := by
  induction text generalizing token prunePos with
  | nil => exact ⟨prunePos, rfl, fun _ => rfl⟩
  | cons c text ih =>
      obtain ⟨hc, hrest⟩ := not_or.mp (List.mem_cons.not.mp hnul)
      have hplace : token + (c :: text).length = token + 1 + text.length := by
        simp only [List.length_cons]
        omega
      obtain ⟨prunePos', heq, hkept⟩ :=
        ih hrest (token + 1) (if c = '-' then some token else prunePos)
      refine ⟨prunePos', ?_, fun h => ?_⟩
      · rw [List.cons_append, lastDash, if_neg (Ne.symm hc), hplace, heq]
      · obtain ⟨hdash, hplain⟩ := not_or.mp (List.mem_cons.not.mp h)
        rw [hkept hplain, if_neg (Ne.symm hdash)]

/-- The loop for the last dash finds where the text is split. -/
theorem last_dash_of_holds {array text : List Char} (h : Holds array 0 text) :
    lastDash array 0 none = (rsplit '-' text).map fun parts => parts.1.length := by
  obtain ⟨rest, hdrop⟩ := h.drop_eq
  obtain rfl : array = text ++ nul :: rest := hdrop
  have hend : ∀ {text : List Char}, nul ∉ text → '-' ∉ text → ∀ token prunePos,
      lastDash (text ++ nul :: rest) token prunePos = prunePos := by
    intro text hnul hdash token prunePos
    obtain ⟨_, heq, hkept⟩ := last_dash_append hnul (nul :: rest) token prunePos
    rw [heq, hkept hdash, lastDash, if_pos rfl]
  rcases rsplit_cases '-' text with ⟨hnone, hdash⟩ | ⟨front, last, hsome, rfl, hlast⟩
  · rw [hnone, hend h.1 hdash]
    rfl
  · have hfrontNul : nul ∉ front := fun hmem => h.1 (List.mem_append_left _ hmem)
    have hlastNul : nul ∉ last := fun hmem =>
      h.1 (List.mem_append_right _ (List.mem_cons_of_mem _ hmem))
    obtain ⟨prunePos, heq, -⟩ :=
      last_dash_append hfrontNul ('-' :: (last ++ nul :: rest)) 0 none
    rw [hsome, List.append_assoc, List.cons_append, heq, lastDash, if_neg (by decide), if_pos rfl,
      hend hlastNul hlast]
    simp

/-- The function returns with these names in the arrays of its caller. -/
structure Found (data : CgroupData) (uid id : List Char) : Prop where
  ret : data.ret = 0
  podUid : Holds data.podUid 0 uid
  containerId : Holds data.containerId 0 id

/-- The names of a cgroup that systemd manages. -/
theorem systemd_names_of_holds {podUid containerId pod id : List Char} (hpod : Holds podUid 0 pod)
    (hid : Holds containerId 0 id) :
    match rsplit '-' id, strstr "-pod".toList pod with
    | some (_, id'), some i =>
        Found (systemdNames podUid containerId)
          ((pod.drop (i + 4)).map fun c => if c = '_' then '-' else c) id'
    | _, _ => (systemdNames podUid containerId).ret = 1 := by
  have hdash := last_dash_of_holds hid
  rcases rsplit_cases '-' id with ⟨hnone, -⟩ | ⟨front, last, hsome, rfl, -⟩
  · rw [hnone] at hdash ⊢
    rw [systemdNames, hdash]
    rfl
  · rw [hsome] at hdash ⊢
    have hmoved : Holds (memmove containerId 0 (front.length + 1)
        (cstring containerId 0).length) 0 last := by
      rw [hid.cstring_eq]
      have hfront : front.length + 1 = (front ++ ['-']).length := by simp
      have hid' : Holds containerId 0 ((front ++ ['-']) ++ last) := by simpa using hid
      rw [hfront]
      exact hid'.memmove_front _ (by simp; omega)
    cases hfound : strstr "-pod".toList pod with
    | none =>
        rw [systemdNames, hdash, Option.map_some]
        dsimp only
        rw [hpod.cstring_eq, hfound]
    | some i =>
        have hfits : i + 4 ≤ pod.length := by
          have hprefix := (strstr_eq_some_iff.mp hfound).1.length_le
          rw [List.length_drop, show "-pod".toList.length = 4 from rfl] at hprefix
          omega
        have hlength : (pod.take (i + 4)).length = i + 4 := List.length_take_of_le hfits
        have hsplit : Holds podUid 0 (pod.take (i + 4) ++ pod.drop (i + 4)) := by
          rwa [List.take_append_drop]
        have hsource : cstring podUid (i + 4) = pod.drop (i + 4) := by
          have htail := hsplit.suffix.cstring_eq
          rwa [Nat.zero_add, hlength] at htail
        obtain ⟨hstrlen, hheld⟩ := hsplit.memmove_part
        rw [hlength, ← hsource] at hstrlen hheld
        have hnames : systemdNames podUid containerId =
            ⟨0, mapText (fun c => if c = '_' then '-' else c)
                (overwrite (memmove podUid 0 (i + 4) (cstring podUid (i + 4)).length)
                  (cstring podUid (i + 4)).length [nul]),
              memmove containerId 0 (front.length + 1) (cstring containerId 0).length⟩ := by
          rw [systemdNames, hdash, Option.map_some]
          dsimp only
          rw [hpod.cstring_eq, hfound]
          dsimp only
          rw [show "-pod".toList.length = 4 from rfl, hstrlen]
        rw [hnames]
        dsimp only
        rw [← hsource]
        refine ⟨rfl, hheld.map fun c hc => ?_, hmoved⟩
        split
        · decide
        · exact fun heq => hheld.1 (heq ▸ hc)

/-- The names of a cgroup that systemd does not manage: what is behind `/pod`, or nothing when the
text is shorter than that. -/
theorem memmove_pod {podUid pod : List Char} {size : Nat} (hsize : 8 ≤ size) (hnul : nul ∉ pod)
    (hne : pod ≠ []) (hfits : pod.length < size) :
    Holds (memmove (overwrite (strncpy podUid pod size) (size - 1) [nul]) 0 4 pod.length) 0
      (pod.drop 4) := by
  rw [strncpy_ended podUid hfits]
  have hpositive := List.length_pos_of_ne_nil hne
  by_cases hshort : pod.length < 4
  · have hdrop : pod.drop 4 = [] := List.drop_of_length_le (by omega)
    -- what is read are the zeros that `strncpy` has put behind the text
    have hzeros : (pod ++ List.replicate (size - pod.length) nul ++ podUid.drop size).drop 4 =
        List.replicate (size - 4) nul ++ podUid.drop size := by
      have hleft : size - pod.length - (4 - pod.length) = size - 4 := by omega
      rw [List.append_assoc, List.drop_append, hdrop, List.nil_append,
        List.drop_append_of_le_length (by simp; omega), List.drop_replicate, hleft]
    have hread : ((pod ++ List.replicate (size - pod.length) nul ++ podUid.drop size).drop 4 ++
        List.replicate pod.length nul).take pod.length =
          [] ++ nul :: List.replicate (pod.length - 1) nul := by
      rw [hzeros, List.append_assoc, List.take_append_of_le_length (by simp; omega),
        List.take_replicate, Nat.min_eq_left (by omega), List.nil_append, ← List.replicate_succ,
        Nat.sub_add_cancel hpositive]
    rw [memmove, hread, hdrop]
    exact holds_overwrite_zero _ List.not_mem_nil _
  · have hheld := holds_replicate hnul (show 0 < size - pod.length by omega) (podUid.drop size)
    have hlength : (pod.take 4).length = 4 := List.length_take_of_le (by omega)
    have hsplit : Holds (pod ++ List.replicate (size - pod.length) nul ++ podUid.drop size) 0
        (pod.take 4 ++ pod.drop 4) := by rwa [List.take_append_drop]
    have hmoved := hsplit.memmove_front pod.length (by simp; omega)
    rwa [hlength] at hmoved

/-- What `strncpy` copies out of a text is held, ended at the size. -/
theorem holds_copied (array : List Char) {text : List Char} {size : Nat} (hnul : nul ∉ text)
    (hfits : text.length < size) :
    Holds (overwrite (strncpy array text size) (size - 1) [nul]) 0 text := by
  rw [strncpy_ended array hfits]
  exact holds_replicate hnul (by omega) _

/-- From the path on, the function finds the names that the path has. -/
theorem cgroup_names_of_holds {size place : Nat} {buffer path : List Char}
    (podUid containerId : List Char) (hsize : bufferSize ≤ size) (h : Holds buffer place path)
    (hfits : path.length < size) :
    match containerOf path with
    | some (uid, id) => Found (cgroupNames size buffer podUid containerId place) uid id
    | none => (cgroupNames size buffer podUid containerId place).ret = 1 := by
  have hslashes := last_slashes_of_holds h
  unfold containerOf
  rcases rsplit_cases '/' path with ⟨hnone, -⟩ | ⟨front, last, hsome, rfl, -⟩
  · rw [hnone] at hslashes ⊢
    rw [cgroupNames, hslashes]
  rw [hsome] at hslashes ⊢
  dsimp only at hslashes ⊢
  rw [List.length_append, List.length_cons] at hfits
  -- the container, behind the last slash
  have hlast : cstring buffer (place + front.length + 1) = last := by
    have hbehind : Holds buffer place ((front ++ ['/']) ++ last) := by simpa using h
    have htext := hbehind.suffix.cstring_eq
    rwa [List.length_append, List.length_singleton, ← Nat.add_assoc] at htext
  have hlastNul : nul ∉ last := fun hmem =>
    h.1 (List.mem_append_right _ (List.mem_cons_of_mem _ hmem))
  have hcopied := holds_copied containerId hlastNul (show last.length < size by omega)
  have hcontainer := cut_at_of_holds ".scope".toList hcopied
  -- the rest of the path, which ends where the last slash was
  have hfront : Holds (overwrite buffer (place + front.length) [nul]) place front := by
    have hcut := h.cut front.length (by simp)
    rwa [List.take_left] at hcut
  rcases rsplit_cases '/' front with ⟨hnone, -⟩ | ⟨first, second, hsecond, rfl, -⟩
  · rw [hnone] at hslashes ⊢
    rw [cgroupNames, hslashes]
    rfl
  rw [hsecond] at hslashes ⊢
  rw [List.length_append, List.length_cons] at hfits
  have hpod : cstring (overwrite buffer (place + (first ++ '/' :: second).length) [nul])
      (place + first.length) = '/' :: second := hfront.suffix.cstring_eq
  have hpodNul : nul ∉ '/' :: second := fun hmem => hfront.1 (List.mem_append_right _ hmem)
  have hpodFits : ('/' :: second).length < size := by
    rw [List.length_cons]
    omega
  have hpodCopied := holds_copied podUid hpodNul hpodFits
  cases hscope : strstr ".scope".toList last with
  | none =>
      have hnames : cgroupNames size buffer podUid containerId place =
          ⟨0, memmove (overwrite (strncpy podUid ('/' :: second) size) (size - 1) [nul]) 0 4
              ('/' :: second).length,
            overwrite (strncpy containerId last size) (size - 1) [nul]⟩ := by
        rw [cgroupNames, hslashes]
        dsimp only [Option.map_some]
        rw [hlast, hcopied.cstring_eq, hscope, hpod, hpodCopied.cstring_eq]
        rfl
      rw [hnames]
      have hwide : 8 ≤ size := le_trans (by decide) hsize
      have hkept : prune ".scope".toList last = last := by rw [prune, hscope]
      rw [hscope] at hcontainer
      rw [hkept] at hcontainer ⊢
      exact ⟨rfl, memmove_pod hwide hpodNul (by simp) hpodFits, hcontainer⟩
  | some i =>
      have hpodCut := cut_at_of_holds ".slice".toList hpodCopied
      have hnames : cgroupNames size buffer podUid containerId place =
          systemdNames
            (cutAt (overwrite (strncpy podUid ('/' :: second) size) (size - 1) [nul])
              (strstr ".slice".toList ('/' :: second)))
            (cutAt (overwrite (strncpy containerId last size) (size - 1) [nul])
              (strstr ".scope".toList last)) := by
        rw [cgroupNames, hslashes]
        dsimp only [Option.map_some]
        rw [hlast, hcopied.cstring_eq, hscope, hpod, hpodCopied.cstring_eq]
        rfl
      have hall := systemd_names_of_holds hpodCut hcontainer
      rw [hnames]
      simp only [Option.isSome_some, if_true]
      cases hdash : rsplit '-' (prune ".scope".toList last) with
      | none => simpa only [hdash] using hall
      | some parts =>
          cases hfound : strstr "-pod".toList (prune ".slice".toList ('/' :: second)) with
          | none => simpa only [hdash, hfound] using hall
          | some start => simpa only [hdash, hfound] using hall

/-- In place, the function returns with the names that the file has, and fails when it has none,
whatever its arrays hold at first. -/
theorem in_place_refines {size : Nat} {cgroup : List Char} (hsize : bufferSize ≤ size)
    (hcgroup : nul ∉ cgroup) (buffer podUid containerId : List Char) :
    match getCgroupData cgroup with
    | some (uid, id) => Found (getCgroupDataInPlace size cgroup buffer podUid containerId) uid id
    | none => (getCgroupDataInPlace size cgroup buffer podUid containerId).ret = 1 := by
  have hpieces : ∀ piece ∈ pieces bufferSize cgroup,
      piece ≠ [] ∧ nul ∉ piece ∧ piece.length < size := by
    intro piece hpiece
    have hshort := length_of_mem_pieces (by decide) hpiece
    exact ⟨ne_nil_of_mem_pieces_from hpiece,
      fun hmem => hcgroup ((infix_of_mem_pieces hpiece).subset hmem), by omega⟩
  unfold getCgroupData
  rcases find_cgroup_ptr_of_pieces buffer hpieces with
    ⟨cgroupPtr, after, path, hptr, hpath, hholds, hfits⟩ | ⟨after, hnone, hpath⟩
  · rw [hpath, getCgroupDataInPlace, hptr]
    exact cgroup_names_of_holds podUid containerId hsize hholds hfits
  · rw [hpath, getCgroupDataInPlace, hnone]
    rfl

end UniShare.Container
