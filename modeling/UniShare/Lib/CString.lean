import Mathlib

/-!
# Texts as the C library reads them

A text is the list of its characters before the terminating zero. `pieces` are the buffers that
successive calls of `fgets` fill, `strstr` gives the place of the first occurrence, `rsplit` splits
at the last separator, and `tokens` are those of `strtok`. A text holds a needle when it is an
infix.
-/

namespace UniShare.Lib

/-! ## Lines and buffers -/

/-- What `fgets` reads, call after call, into a buffer of this size that begins with `start`. -/
def piecesFrom (size : Nat) : List Char → List Char → List (List Char)
  | start, [] => if start = [] then [] else [start]
  | start, c :: rest =>
      if c = '\n' ∨ size ≤ start.length + 2 then (start ++ [c]) :: piecesFrom size [] rest
      else piecesFrom size (start ++ [c]) rest

/-- The buffers that successive calls of `fgets` fill. -/
def pieces (size : Nat) (text : List Char) : List (List Char) := piecesFrom size [] text

/-- A line that fits into the rest of the buffer ends the piece. -/
theorem pieces_from_line {size : Nat} {start line : List Char} (rest : List Char)
    (hline : '\n' ∉ line) (hfits : start.length + line.length + 1 < size) :
    piecesFrom size start (line ++ '\n' :: rest) =
      (start ++ line ++ ['\n']) :: pieces size rest := by
  induction line generalizing start with
  | nil => simp [piecesFrom, pieces]
  | cons c line ih =>
      obtain ⟨hc, hrest⟩ := not_or.mp (List.mem_cons.not.mp hline)
      simp only [List.length_cons] at hfits
      have hgoes : ¬ (c = '\n' ∨ size ≤ start.length + 2) :=
        not_or.mpr ⟨fun heq => hc heq.symm, by omega⟩
      rw [List.cons_append, piecesFrom, if_neg hgoes, ih hrest (by simp; omega)]
      simp

/-- A line that fits into the buffer is a piece. -/
theorem pieces_line {size : Nat} {line : List Char} (rest : List Char) (hline : '\n' ∉ line)
    (hfits : line.length + 1 < size) :
    pieces size (line ++ '\n' :: rest) = (line ++ ['\n']) :: pieces size rest := by
  have hpiece := pieces_from_line rest hline (show ([] : List Char).length + line.length + 1 < size
    from by simpa using hfits)
  simpa [pieces] using hpiece

/-- Behind a newline, reading starts with an empty buffer. -/
theorem pieces_from_append (size : Nat) (start body more : List Char) :
    piecesFrom size start (body ++ '\n' :: more) =
      piecesFrom size start (body ++ ['\n']) ++ pieces size more := by
  induction body generalizing start with
  | nil => simp [piecesFrom, pieces]
  | cons c body ih =>
      simp only [List.cons_append, piecesFrom]
      split
      · rw [ih, List.cons_append]
      · exact ih _

/-- Lines that fit into the buffer are the pieces of their text. -/
theorem pieces_lines {size : Nat} {lines : List (List Char)}
    (h : ∀ line ∈ lines, '\n' ∉ line ∧ line.length + 1 < size) :
    pieces size (lines.flatMap fun line => line ++ ['\n']) =
      lines.map fun line => line ++ ['\n'] := by
  induction lines with
  | nil => rfl
  | cons line rest ih =>
      obtain ⟨⟨hline, hfits⟩, hrest⟩ := List.forall_mem_cons.mp h
      rw [List.flatMap_cons, List.append_assoc, List.singleton_append, pieces_line _ hline hfits,
        ih hrest, List.map_cons]

/-- The pieces of a text that ends with a line come before those of what follows. -/
theorem pieces_append (size : Nat) {text : List Char} (more : List Char)
    (h : text = [] ∨ ∃ body, text = body ++ ['\n']) :
    pieces size (text ++ more) = pieces size text ++ pieces size more := by
  rcases h with rfl | ⟨body, rfl⟩
  · rfl
  · have happend := pieces_from_append size [] body more
    simpa [pieces] using happend

/-- A piece is a part of the text. -/
theorem infix_of_mem_pieces_from {size : Nat} {start text piece : List Char}
    (h : piece ∈ piecesFrom size start text) : piece <:+: start ++ text := by
  induction text generalizing start with
  | nil =>
      simp only [piecesFrom] at h
      split at h
      · cases h
      · obtain rfl := List.mem_singleton.mp h
        simp
  | cons c rest ih =>
      simp only [piecesFrom] at h
      have hshift : start ++ c :: rest = (start ++ [c]) ++ rest := by simp
      split at h
      · rcases List.mem_cons.mp h with rfl | hmem
        · rw [hshift]
          exact (List.prefix_append _ _).isInfix
        · exact (ih hmem).trans ((List.suffix_cons c rest).trans (List.suffix_append _ _)).isInfix
      · rw [hshift]
        exact ih h

/-- A piece is a part of the text. -/
theorem infix_of_mem_pieces {size : Nat} {text piece : List Char} (h : piece ∈ pieces size text) :
    piece <:+: text :=
  infix_of_mem_pieces_from h

/-- A piece is shorter than the buffer. -/
theorem length_of_mem_pieces_from {size : Nat} {start text piece : List Char}
    (hstart : start.length + 1 < size) (h : piece ∈ piecesFrom size start text) :
    piece.length < size := by
  induction text generalizing start with
  | nil =>
      simp only [piecesFrom] at h
      split at h
      · cases h
      · obtain rfl := List.mem_singleton.mp h
        omega
  | cons c rest ih =>
      simp only [piecesFrom] at h
      split at h
      · rcases List.mem_cons.mp h with rfl | hmem
        · simpa using hstart
        · exact ih (by simp only [List.length_nil]; omega) hmem
      · rename_i hgoes
        have hroom := (not_or.mp hgoes).2
        exact ih (by simp only [List.length_append, List.length_singleton]; omega) h

/-- A piece is not empty. -/
theorem ne_nil_of_mem_pieces_from {size : Nat} {start text piece : List Char}
    (h : piece ∈ piecesFrom size start text) : piece ≠ [] := by
  induction text generalizing start with
  | nil =>
      simp only [piecesFrom] at h
      split at h
      · cases h
      · rename_i hne
        exact List.mem_singleton.mp h ▸ hne
  | cons c rest ih =>
      simp only [piecesFrom] at h
      split at h
      · rcases List.mem_cons.mp h with rfl | hmem
        · simp
        · exact ih hmem
      · exact ih h

/-- A piece is shorter than the buffer. -/
theorem length_of_mem_pieces {size : Nat} {text piece : List Char} (hsize : 1 < size)
    (h : piece ∈ pieces size text) : piece.length < size :=
  length_of_mem_pieces_from (by simpa using hsize) h

/-- A needle without a newline at the start of a text is at the start of its first line. -/
theorem prefix_head_split {needle text : List Char} (hneedle : '\n' ∉ needle)
    (h : needle <+: text) : ∃ line ∈ (text.splitOn '\n').head?, needle <+: line := by
  induction text generalizing needle with
  | nil =>
      obtain rfl := List.prefix_nil.mp h
      exact ⟨[], by simp, List.nil_prefix⟩
  | cons c rest ih =>
      cases needle with
      | nil =>
          obtain ⟨line, hline, -⟩ := ih List.not_mem_nil List.nil_prefix
          rw [List.splitOn_cons_eq_if_modifyHead]
          split
          · exact ⟨[], rfl, List.nil_prefix⟩
          · refine ⟨c :: line, ?_, List.nil_prefix⟩
            simp [List.head?_modifyHead, Option.mem_def.mp hline]
      | cons d needle =>
          obtain ⟨rfl, hrest⟩ := List.cons_prefix_cons.mp h
          obtain ⟨hd, htail⟩ := not_or.mp (List.mem_cons.not.mp hneedle)
          obtain ⟨line, hline, hin⟩ := ih htail hrest
          rw [List.splitOn_cons_eq_if_modifyHead, if_neg (by simpa using fun heq => hd heq.symm)]
          refine ⟨d :: line, ?_, List.cons_prefix_cons.mpr ⟨rfl, hin⟩⟩
          simp [List.head?_modifyHead, Option.mem_def.mp hline]

/-- A text that holds a needle without a newline has a line that holds it. -/
theorem exists_line_of_infix {needle text : List Char} (hneedle : '\n' ∉ needle)
    (h : needle <:+: text) : ∃ line ∈ text.splitOn '\n', needle <:+: line := by
  induction text with
  | nil => exact ⟨[], by simp, by simpa using h⟩
  | cons c rest ih =>
      rcases List.infix_cons_iff.mp h with hstart | hlater
      · obtain ⟨line, hline, hin⟩ := prefix_head_split hneedle hstart
        exact ⟨line, List.mem_of_head? hline, hin.isInfix⟩
      · obtain ⟨line, hline, hin⟩ := ih hlater
        rw [List.splitOn_cons_eq_if_modifyHead]
        split
        · exact ⟨line, List.mem_cons_of_mem _ hline, hin⟩
        · cases hsplit : rest.splitOn '\n' with
          | nil =>
              rw [hsplit] at hline
              cases hline
          | cons first others =>
              rw [hsplit] at hline
              rcases List.mem_cons.mp hline with rfl | hmem
              · exact ⟨c :: line, by simp, hin.trans (List.suffix_cons c line).isInfix⟩
              · exact ⟨line, by simp [hmem], hin⟩

/-! ## Searching -/

/-- `strstr`: the place of the first occurrence of a needle. -/
def strstr (needle : List Char) : List Char → Option Nat
  | [] => if needle = [] then some 0 else none
  | c :: rest =>
      if needle <+: c :: rest then some 0 else (strstr needle rest).map (· + 1)

/-- The needle occurs behind `before`, and at no place ahead of that. -/
def FirstAt (needle before text : List Char) : Prop :=
  before ++ needle <+: text ∧ ∀ j < before.length, ¬ needle <+: text.drop j

/-- A place that is found is that of the first occurrence. -/
theorem strstr_eq_some_iff {needle text : List Char} {i : Nat} :
    strstr needle text = some i ↔
      needle <+: text.drop i ∧ i ≤ text.length ∧ ∀ j < i, ¬ needle <+: text.drop j := by
  induction text generalizing i with
  | nil =>
      simp only [strstr, List.drop_nil, List.prefix_nil, List.length_nil, Nat.le_zero_eq]
      split
      · rename_i hempty
        subst hempty
        constructor
        · intro h
          obtain rfl := Option.some.inj h
          exact ⟨rfl, rfl, nofun⟩
        · rintro ⟨-, rfl, -⟩
          rfl
      · rename_i hne
        exact ⟨nofun, fun h => absurd h.1 hne⟩
  | cons c rest ih =>
      simp only [strstr]
      split
      · rename_i hstart
        constructor
        · intro h
          obtain rfl := Option.some.inj h
          exact ⟨hstart, Nat.zero_le _, nofun⟩
        · rintro ⟨-, -, hfirst⟩
          cases i with
          | zero => rfl
          | succ i => exact absurd hstart (hfirst 0 (Nat.succ_pos i))
      · rename_i hstart
        cases i with
        | zero => simpa using hstart
        | succ i =>
            simp only [Option.map_eq_some_iff, Nat.add_right_cancel_iff, exists_eq_right, ih,
              List.drop_succ_cons, List.length_cons, Nat.add_le_add_iff_right]
            refine and_congr_right fun _ => and_congr_right fun _ => ?_
            constructor
            · intro hfirst j hj
              cases j with
              | zero => exact hstart
              | succ j => exact hfirst j (Nat.lt_of_succ_lt_succ hj)
            · intro hfirst j hj
              exact hfirst (j + 1) (Nat.succ_lt_succ hj)

/-- A place is found exactly when the text holds the needle. -/
theorem strstr_is_some_iff {needle text : List Char} :
    (strstr needle text).isSome = true ↔ needle <:+: text := by
  induction text with
  | nil => simp [strstr]
  | cons c rest ih =>
      rw [List.infix_cons_iff, strstr]
      split
      · rename_i hstart
        exact iff_of_true rfl (.inl hstart)
      · rename_i hstart
        simp [hstart, ih]

/-- No place is found exactly when the text does not hold the needle. -/
theorem strstr_eq_none_iff {needle text : List Char} :
    strstr needle text = none ↔ ¬ needle <:+: text := by
  rw [← strstr_is_some_iff, Bool.not_eq_true, Option.isSome_eq_false_iff, Option.isNone_iff_eq_none]

/-- The first occurrence in terms of the texts around it. -/
theorem strstr_eq_length_iff {needle text : List Char} {i : Nat} :
    strstr needle text = some i ↔ ∃ before, before.length = i ∧ FirstAt needle before text := by
  rw [strstr_eq_some_iff]
  constructor
  · rintro ⟨hin, hle, hfirst⟩
    refine ⟨text.take i, List.length_take_of_le hle, ?_, fun j hj => hfirst j ?_⟩
    · have happend : text.take i ++ needle <+: text.take i ++ text.drop i :=
        (List.prefix_append_right_inj _).mpr hin
      rwa [List.take_append_drop] at happend
    · rwa [List.length_take_of_le hle] at hj
  · rintro ⟨before, rfl, ⟨more, rfl⟩, hfirst⟩
    refine ⟨?_, by simp, hfirst⟩
    simp [List.append_assoc]

/-- A needle whose first character does not occur earlier is found where it stands. -/
theorem strstr_append {c : Char} {needle front : List Char} (rest : List Char) (h : c ∉ front) :
    strstr (c :: needle) (front ++ c :: needle ++ rest) = some front.length := by
  rw [strstr_eq_some_iff]
  refine ⟨by simp, by simp, fun j hj hin => h ?_⟩
  -- an earlier occurrence would begin with a character of `front`
  have hdrop : (front ++ c :: needle ++ rest).drop j = front.drop j ++ (c :: needle ++ rest) := by
    rw [List.append_assoc, List.drop_append_of_le_length (Nat.le_of_lt hj)]
  rw [hdrop, List.drop_eq_getElem_cons hj, List.cons_append] at hin
  rw [(List.cons_prefix_cons.mp hin).1]
  exact List.getElem_mem hj

/-- The first occurrence stays where it is when the text goes on. -/
theorem strstr_append_right {needle text : List Char} {i : Nat} (more : List Char)
    (h : strstr needle text = some i) : strstr needle (text ++ more) = some i := by
  obtain ⟨hin, hle, hfirst⟩ := strstr_eq_some_iff.mp h
  have hfits := hin.length_le
  rw [List.length_drop] at hfits
  refine strstr_eq_some_iff.mpr ⟨?_, ?_, fun j hj hearlier => hfirst j hj ?_⟩
  · rw [List.drop_append_of_le_length hle]
    exact hin.trans (List.prefix_append _ _)
  · rw [List.length_append]
    omega
  · -- an earlier occurrence would end inside the text
    rw [List.drop_append_of_le_length (by omega)] at hearlier
    refine List.prefix_of_prefix_length_le hearlier (List.prefix_append _ _) ?_
    rw [List.length_drop]
    omega

/-- A needle at the end of a text is found there when its first character does not occur earlier. -/
theorem strstr_end {c : Char} {needle front : List Char} (hhead : needle.head? = some c)
    (h : c ∉ front) : strstr needle (front ++ needle) = some front.length := by
  obtain ⟨rest, rfl⟩ := List.head?_eq_some_iff.mp hhead
  have hfound : strstr (c :: rest) (front ++ c :: rest ++ []) = some front.length :=
    strstr_append [] h
  rwa [List.append_nil] at hfound

/-- A character is found behind a text without it. -/
theorem strstr_char_append {c : Char} {front : List Char} (rest : List Char) (h : c ∉ front) :
    strstr [c] (front ++ c :: rest) = some front.length := by
  have hfound : strstr [c] (front ++ [c] ++ rest) = some front.length := strstr_append rest h
  rwa [List.append_assoc, List.singleton_append] at hfound

/-- What is ahead of the first occurrence of a character, and what is behind it. -/
theorem split_of_strstr_char {c : Char} {text : List Char} {i : Nat}
    (h : strstr [c] text = some i) :
    c ∉ text.take i ∧ ∃ after, text = text.take i ++ c :: after := by
  obtain ⟨⟨after, hafter⟩, hle, hfirst⟩ := strstr_eq_some_iff.mp h
  constructor
  · intro hmem
    obtain ⟨j, hj, hc⟩ := List.getElem_of_mem hmem
    rw [List.length_take_of_le hle] at hj
    have hlt : j < text.length := Nat.lt_of_lt_of_le hj hle
    refine hfirst j hj ?_
    rw [List.getElem_take] at hc
    rw [List.drop_eq_getElem_cons hlt, hc]
    exact List.cons_prefix_cons.mpr ⟨rfl, List.nil_prefix⟩
  · refine ⟨after, ?_⟩
    have hdrop : text.drop i = c :: after := hafter.symm
    rw [← hdrop, List.take_append_drop]

/-! ## Splitting -/

/-- Split at the last separator. -/
def rsplit (sep : Char) : List Char → Option (List Char × List Char)
  | [] => none
  | c :: rest =>
      match rsplit sep rest with
      | some (before, after) => some (c :: before, after)
      | none => if c = sep then some ([], rest) else none

/-- A text without the separator is not split. -/
theorem rsplit_eq_none {sep : Char} {text : List Char} (h : sep ∉ text) :
    rsplit sep text = none := by
  induction text with
  | nil => rfl
  | cons c rest ih =>
      obtain ⟨hc, hrest⟩ := not_or.mp (List.mem_cons.not.mp h)
      rw [rsplit, ih hrest, if_neg fun heq => hc heq.symm]

/-- The separator behind which there is no other is the last one. -/
theorem rsplit_append {sep : Char} (before : List Char) {after : List Char} (h : sep ∉ after) :
    rsplit sep (before ++ sep :: after) = some (before, after) := by
  induction before with
  | nil => simp [rsplit, rsplit_eq_none h]
  | cons c before ih => simp [rsplit, ih]

/-- A text is not split, or it is split at its last separator. -/
theorem rsplit_cases (sep : Char) (text : List Char) :
    rsplit sep text = none ∧ sep ∉ text ∨
      ∃ before after, rsplit sep text = some (before, after) ∧ text = before ++ sep :: after ∧
        sep ∉ after := by
  by_cases hmem : sep ∈ text
  · obtain ⟨after, before, hreverse, hafter⟩ :=
      List.eq_append_cons_of_mem (List.mem_reverse.mpr hmem)
    have htext : text = before.reverse ++ sep :: after.reverse := by
      rw [← List.reverse_reverse text, hreverse]
      simp
    have hlast : sep ∉ after.reverse := by simpa using hafter
    exact .inr ⟨_, _, by rw [htext, rsplit_append _ hlast], htext, hlast⟩
  · exact .inl ⟨rsplit_eq_none hmem, hmem⟩

/-- The tokens of `strtok`: the parts between separators that are not empty. -/
def tokens (sep : Char) (text : List Char) : List (List Char) :=
  (text.splitOn sep).filter fun token => !token.isEmpty

/-- The tokens of parts joined by the separator. -/
theorem tokens_intercalate {sep : Char} {parts : List (List Char)} (h : ∀ part ∈ parts, sep ∉ part)
    (hne : parts ≠ []) :
    tokens sep ([sep].intercalate parts) = parts.filter fun token => !token.isEmpty := by
  rw [tokens, List.splitOn_intercalate sep h hne]

/-- What `snprintf` leaves in a buffer of this size. -/
def snprintf (size : Nat) (text : List Char) : List Char := text.take (size - 1)

end UniShare.Lib
