import UniShare.Lib.CString

/-!
# Texts in arrays

What the functions of the C library do to an array in place. A text lies in an array behind a place
and ends at the first zero (`Holds`). An array may go on behind what its owner has declared, so that
a read past its end finds whatever lies there. Each function has a lemma that says which text the
array holds afterwards; `cases_of_token` and the lemmas on `tokens` follow `strtok_r` along a text.
-/

namespace UniShare.Lib

/-- The byte that ends a text. -/
def nul : Char := '\x00'

/-- The text at a place of an array: the bytes up to the first zero. -/
def cstring (array : List Char) (place : Nat) : List Char :=
  (array.drop place).takeWhile fun c => c != nul

/-- Write bytes over those at a place. -/
def overwrite (array : List Char) (place : Nat) (bytes : List Char) : List Char :=
  array.take place ++ bytes ++ array.drop (place + bytes.length)

/-- `strncpy` of a text to the front of an array. -/
def strncpy (array text : List Char) (size : Nat) : List Char :=
  overwrite array 0 (text.take size ++ List.replicate (size - text.length) nul)

/-- `memmove` inside an array; what is read is read before anything is written. -/
def memmove (array : List Char) (dest src count : Nat) : List Char :=
  overwrite array dest ((array.drop src ++ List.replicate count nul).take count)

/-- `strtok_r` at a place: the place of the token, the array, and where to go on. -/
def strtokR (sep : Char) (array : List Char) (place : Nat) : Option Nat × List Char × Nat :=
  let start := place + ((array.drop place).takeWhile fun c => c == sep).length
  if array.getD start nul = nul then (none, array, start)
  else
    let stop := start + ((cstring array start).takeWhile fun c => c != sep).length
    if array.getD stop nul = nul then (some start, array, stop)
    else (some start, overwrite array stop [nul], stop + 1)

/-- The array holds the text at a place. -/
def Holds (array : List Char) (place : Nat) (text : List Char) : Prop :=
  nul ∉ text ∧ ∃ before rest, before.length = place ∧ array = before ++ text ++ nul :: rest

section Holds

variable {array text front behind : List Char} {place i : Nat}

/-- A text without a byte is taken whole, up to that byte. -/
theorem take_until {stop : Char} (h : stop ∉ text) (rest : List Char) :
    (text ++ stop :: rest).takeWhile (fun c => c != stop) = text := by
  rw [List.takeWhile_append_of_pos]
  · simp
  · intro c hc
    simpa using fun heq : c = stop => h (heq ▸ hc)

/-- The text that an array holds. -/
theorem Holds.cstring_eq (h : Holds array place text) : cstring array place = text := by
  obtain ⟨hnul, before, rest, rfl, rfl⟩ := h
  rw [cstring, List.append_assoc, List.drop_left]
  exact take_until hnul rest

/-- An array is longer than the text that it holds. -/
theorem Holds.length_lt (h : Holds array place text) : text.length < array.length := by
  obtain ⟨-, before, rest, -, rfl⟩ := h
  simp only [List.length_append, List.length_cons]
  omega

/-- An array from the place of the text on. -/
theorem Holds.drop_eq (h : Holds array place text) :
    ∃ rest, array.drop place = text ++ nul :: rest := by
  obtain ⟨-, before, rest, rfl, rfl⟩ := h
  exact ⟨rest, by rw [List.append_assoc, List.drop_left]⟩

/-- Behind a part of the text, the array holds the rest of it. -/
theorem Holds.suffix (h : Holds array place (front ++ behind)) :
    Holds array (place + front.length) behind := by
  obtain ⟨hnul, before, rest, rfl, rfl⟩ := h
  refine ⟨fun hmem => hnul (List.mem_append_right _ hmem), before ++ front, rest, ?_, ?_⟩
  · exact List.length_append
  · simp only [List.append_assoc]

/-- Writing over a part of an array. -/
theorem overwrite_append {before bytes old : List Char} (rest : List Char)
    (hplace : before.length = place) (hold : old.length = bytes.length) :
    overwrite (before ++ old ++ rest) place bytes = before ++ bytes ++ rest := by
  have htake : (before ++ old ++ rest).take place = before := by
    rw [List.append_assoc, ← hplace, List.take_left]
  have hdrop : (before ++ old ++ rest).drop (place + bytes.length) = rest := by
    rw [← hplace, ← hold, ← List.length_append, List.drop_left]
  rw [overwrite, htake, hdrop]

/-- Writing at the front of an array. -/
theorem overwrite_zero (array bytes : List Char) :
    overwrite array 0 bytes = bytes ++ array.drop bytes.length := by
  rw [overwrite, List.take_zero, List.nil_append, Nat.zero_add]

/-- A zero cuts the text. -/
theorem Holds.cut (h : Holds array place text) (i : Nat) (hi : i ≤ text.length) :
    Holds (overwrite array (place + i) [nul]) place (text.take i) := by
  obtain ⟨hnul, before, rest, rfl, rfl⟩ := h
  have hkept : nul ∉ text.take i := fun hmem => hnul (List.mem_of_mem_take hmem)
  obtain ⟨c, more, hmore⟩ : ∃ c more, text.drop i ++ nul :: rest = c :: more := by
    cases hdrop : text.drop i with
    | nil => exact ⟨nul, rest, rfl⟩
    | cons c more => exact ⟨c, more ++ nul :: rest, rfl⟩
  have hsplit : before ++ text ++ nul :: rest = (before ++ text.take i) ++ [c] ++ more := by
    calc before ++ text ++ nul :: rest
        = before ++ (text.take i ++ text.drop i) ++ nul :: rest := by rw [List.take_append_drop]
      _ = (before ++ text.take i) ++ [c] ++ more := by
          simp only [List.append_assoc, hmore, List.singleton_append]
  refine ⟨hkept, before, more, rfl, ?_⟩
  rw [hsplit, overwrite_append more (by simp [List.length_take_of_le hi])
    (show [c].length = [nul].length from rfl)]
  simp only [List.append_assoc, List.singleton_append]

/-- `strncpy` leaves the text and fills the rest of the size with zeros. -/
theorem strncpy_eq (array : List Char) {size : Nat} (hsize : text.length ≤ size) :
    strncpy array text size =
      text ++ List.replicate (size - text.length) nul ++ array.drop size := by
  have hlength : (text ++ List.replicate (size - text.length) nul).length = size := by
    simp [hsize]
  rw [strncpy, List.take_of_length_le hsize, overwrite_zero, hlength]

/-- A zero that is written into the zeros behind a text changes nothing. -/
theorem overwrite_replicate (text rest : List Char) {zeros : Nat} (hi : i < zeros) :
    overwrite (text ++ List.replicate zeros nul ++ rest) (text.length + i) [nul] =
      text ++ List.replicate zeros nul ++ rest := by
  obtain ⟨more, rfl⟩ : ∃ more, zeros = i + (1 + more) := ⟨zeros - i - 1, by omega⟩
  have hsplit : text ++ List.replicate (i + (1 + more)) nul ++ rest =
      (text ++ List.replicate i nul) ++ [nul] ++ (List.replicate more nul ++ rest) := by
    simp only [List.replicate_add, List.replicate_one, List.append_assoc]
  rw [hsplit, overwrite_append _ (by simp) rfl]

/-- A text with zeros behind it is held. -/
theorem holds_replicate (h : nul ∉ text) {zeros : Nat} (hzeros : 0 < zeros) (rest : List Char) :
    Holds (text ++ List.replicate zeros nul ++ rest) 0 text := by
  obtain ⟨more, rfl⟩ : ∃ more, zeros = more + 1 := ⟨zeros - 1, by omega⟩
  refine ⟨h, [], List.replicate more nul ++ rest, rfl, ?_⟩
  simp [List.replicate_succ]

/-- A text that is copied by `strncpy` and ended at the size is held, with zeros behind it. -/
theorem strncpy_ended (array : List Char) {size : Nat} (hsize : text.length < size) :
    overwrite (strncpy array text size) (size - 1) [nul] =
      text ++ List.replicate (size - text.length) nul ++ array.drop size := by
  have hlast : size - 1 = text.length + (size - 1 - text.length) := by omega
  rw [strncpy_eq array hsize.le, hlast]
  exact overwrite_replicate text _ (by omega)

/-- A text that has been copied to the front is held. -/
theorem holds_overwrite_zero (array : List Char) (h : nul ∉ text) (more : List Char) :
    Holds (overwrite array 0 (text ++ nul :: more)) 0 text := by
  refine ⟨h, [], more ++ array.drop (text ++ nul :: more).length, rfl, ?_⟩
  rw [overwrite_zero]
  simp

/-- A text has no zero. -/
theorem nul_not_mem_cstring (array : List Char) (place : Nat) : nul ∉ cstring array place := by
  intro hmem
  simpa using List.mem_takeWhile_imp hmem

/-- The text at a later place of an array is the rest of its text. -/
theorem cstring_drop {array : List Char} {place : Nat} (hplace : place ≤ (cstring array 0).length) :
    cstring array place = (cstring array 0).drop place := by
  unfold cstring at hplace ⊢
  rw [List.drop_zero] at hplace ⊢
  induction array generalizing place with
  | nil => simp
  | cons c rest ih =>
      cases place with
      | zero => rfl
      | succ place =>
          by_cases hc : c = nul
          · simp [hc] at hplace
          · have hkept : (c != nul) = true := by simpa using hc
            simp only [List.takeWhile_cons, hkept, if_true, List.length_cons] at hplace ⊢
            exact ih (Nat.le_of_succ_le_succ hplace)

/-- The front of a text, copied by `strncpy` and ended behind it, is held. -/
theorem holds_copied_front (array : List Char) (h : nul ∉ front ++ behind) :
    Holds (overwrite (strncpy array (front ++ behind) front.length) front.length [nul]) 0
      front := by
  have hcopied : strncpy array (front ++ behind) front.length =
      front ++ array.drop front.length := by
    rw [strncpy, List.take_left, Nat.sub_eq_zero_of_le (by simp), List.replicate_zero,
      List.append_nil, overwrite_zero]
  refine ⟨?_, [], (array.drop front.length).drop 1, rfl, ?_⟩
  · exact fun hmem => h (List.mem_append_left _ hmem)
  · rw [hcopied, overwrite, List.take_left, List.drop_append]
    simp

/-- What `memmove` reads from a part of a text on, when it also reads the zero behind it. -/
theorem read_past_nul (text rest : List Char) (more : Nat) :
    ∃ past, ((text ++ nul :: rest) ++ List.replicate (text.length + (more + 1)) nul).take
      (text.length + (more + 1)) = text ++ nul :: past := by
  refine ⟨(rest ++ List.replicate (text.length + (more + 1)) nul).take more, ?_⟩
  rw [List.append_assoc, List.take_length_add_append]
  rfl

/-- `memmove` of a part of the text with the zero behind it, and of whatever follows, to the front
leaves that part there. -/
theorem Holds.memmove_front (h : Holds array 0 (front ++ behind)) (count : Nat)
    (hcount : behind.length < count) :
    Holds (memmove array 0 front.length count) 0 behind := by
  obtain ⟨hnul, before, rest, hbefore, rfl⟩ := h
  obtain rfl := List.eq_nil_of_length_eq_zero hbefore
  have hsource : ([] ++ (front ++ behind) ++ nul :: rest).drop front.length =
      behind ++ nul :: rest := by simp [List.append_assoc]
  obtain ⟨more, rfl⟩ : ∃ more, count = behind.length + (more + 1) :=
    ⟨count - behind.length - 1, by omega⟩
  obtain ⟨past, hread⟩ := read_past_nul behind rest more
  rw [memmove, hsource, hread]
  exact holds_overwrite_zero _ (fun hmem => hnul (List.mem_append_right _ hmem)) past

/-- `memmove` of a part of the text without the zero behind it to the front: the text at the old
place of that part has its length, so a zero written there leaves that part in front. -/
theorem Holds.memmove_part (h : Holds array 0 (front ++ behind)) :
    (cstring (memmove array 0 front.length behind.length) front.length).length = behind.length ∧
      Holds (overwrite (memmove array 0 front.length behind.length) behind.length [nul]) 0
        behind := by
  obtain ⟨hnul, before, rest, hbefore, rfl⟩ := h
  obtain rfl := List.eq_nil_of_length_eq_zero hbefore
  -- what lies behind the moved part is the end of the old text
  have hmoved : memmove ([] ++ (front ++ behind) ++ nul :: rest) 0 front.length behind.length =
      (behind ++ (front ++ behind).drop behind.length) ++ nul :: rest := by
    have hread : ((([] ++ (front ++ behind) ++ nul :: rest).drop front.length) ++
        List.replicate behind.length nul).take behind.length = behind := by
      simp [List.append_assoc]
    have hle : behind.length ≤ (front ++ behind).length := by simp
    rw [memmove, hread, overwrite_zero, List.nil_append, List.drop_append_of_le_length hle,
      List.append_assoc]
  have hheld : nul ∉ behind ++ (front ++ behind).drop behind.length := by
    intro hmem
    rcases List.mem_append.mp hmem with hbehind | hdrop
    · exact hnul (List.mem_append_right _ hbehind)
    · exact hnul (List.mem_of_mem_drop hdrop)
  rw [hmoved]
  constructor
  · have hle : front.length ≤ (behind ++ (front ++ behind).drop behind.length).length := by simp
    have hkept : nul ∉ (behind ++ (front ++ behind).drop behind.length).drop front.length :=
      fun hmem => hheld (List.mem_of_mem_drop hmem)
    rw [cstring, List.drop_append_of_le_length hle, take_until hkept]
    simp
  · have hall : Holds ((behind ++ (front ++ behind).drop behind.length) ++ nul :: rest) 0
        (behind ++ (front ++ behind).drop behind.length) := ⟨hheld, [], rest, rfl, rfl⟩
    have hcut := hall.cut behind.length (by simp)
    rwa [Nat.zero_add, List.take_left] at hcut

/-- A loop over a text that changes its bytes in place. -/
def mapText (f : Char → Char) : List Char → List Char
  | [] => []
  | c :: rest => if c = nul then c :: rest else f c :: mapText f rest

/-- The loop changes every byte of the text. -/
theorem Holds.map (h : Holds array 0 text) {f : Char → Char} (hf : ∀ c ∈ text, f c ≠ nul) :
    Holds (mapText f array) 0 (text.map f) := by
  obtain ⟨hnul, before, rest, hbefore, rfl⟩ := h
  obtain rfl := List.eq_nil_of_length_eq_zero hbefore
  have hmap : ∀ text : List Char, nul ∉ text →
      mapText f (text ++ nul :: rest) = text.map f ++ nul :: rest := by
    intro text
    induction text with
    | nil => intro _; rfl
    | cons c text ih =>
        intro hnul
        obtain ⟨hc, hrest⟩ := not_or.mp (List.mem_cons.not.mp hnul)
        rw [List.cons_append, mapText, if_neg (Ne.symm hc), ih hrest, List.map_cons,
          List.cons_append]
  refine ⟨fun hmem => ?_, [], rest, rfl, by rw [List.nil_append, hmap text hnul, List.nil_append]⟩
  obtain ⟨c, hc, heq⟩ := List.mem_map.mp hmem
  exact hf c hc heq

end Holds

/-! ## Tokens -/

section Tokens

variable {sep : Char} {token : List Char}

/-- The text of a token is not empty and does not hold the separator. -/
def IsToken (sep : Char) (token : List Char) : Prop := token ≠ [] ∧ sep ∉ token

/-- A text is empty behind its leading separators, or a token comes, and then nothing or a
separator. -/
theorem cases_of_token (sep : Char) (text : List Char) :
    ∃ count, text = List.replicate count sep ∨
      ∃ token, IsToken sep token ∧
        (text = List.replicate count sep ++ token ∨
          ∃ more, text = List.replicate count sep ++ token ++ sep :: more) := by
  induction text with
  | nil => exact ⟨0, .inl rfl⟩
  | cons c rest ih =>
      by_cases hc : c = sep
      · subst hc
        obtain ⟨count, rfl | ⟨token, htoken, rfl | ⟨more, rfl⟩⟩⟩ := ih
        · exact ⟨count + 1, .inl rfl⟩
        · exact ⟨count + 1, .inr ⟨token, htoken, .inl rfl⟩⟩
        · exact ⟨count + 1, .inr ⟨token, htoken, .inr ⟨more, rfl⟩⟩⟩
      · have hsep : sep ∉ rest.takeWhile fun d => d != sep := by
          intro hmem
          simpa using List.mem_takeWhile_imp hmem
        have htoken : IsToken sep (c :: rest.takeWhile fun d => d != sep) :=
          ⟨by simp, by simpa using ⟨fun h => hc h.symm, hsep⟩⟩
        have hsplit : (rest.takeWhile fun d => d != sep) ++ (rest.dropWhile fun d => d != sep) =
            rest := List.takeWhile_append_dropWhile
        refine ⟨0, .inr ⟨_, htoken, ?_⟩⟩
        cases hdrop : rest.dropWhile fun d => d != sep with
        | nil =>
            rw [hdrop, List.append_nil] at hsplit
            exact .inl (by rw [hsplit]; rfl)
        | cons d more =>
            have hd : d = sep := by
              have hne : (rest.dropWhile fun d => d != sep) ≠ [] := by simp [hdrop]
              have hhead := List.head_dropWhile_not (fun d => d != sep) hne
              simpa [hdrop] using hhead
            rw [hdrop, hd] at hsplit
            refine .inr ⟨more, ?_⟩
            rw [List.replicate_zero, List.nil_append, List.cons_append, hsplit]

/-- The tokens on both sides of a separator. -/
theorem tokens_append (sep : Char) (front more : List Char) :
    tokens sep (front ++ sep :: more) = tokens sep front ++ tokens sep more := by
  rw [tokens, List.splitOn_append_cons_self, List.filter_append]
  rfl

/-- Leading separators make no tokens. -/
theorem tokens_replicate (sep : Char) (count : Nat) (text : List Char) :
    tokens sep (List.replicate count sep ++ text) = tokens sep text := by
  induction count with
  | zero => rfl
  | succ count ih =>
      have hfirst := tokens_append sep [] (List.replicate count sep ++ text)
      rw [List.replicate_succ, List.cons_append]
      exact hfirst.trans ih

/-- A token is the only one in its text. -/
theorem tokens_of_token (h : IsToken sep token) : tokens sep token = [token] := by
  rw [tokens, List.splitOn_eq_singleton h.2]
  simp [h.1]

/-- The byte behind a part of an array. -/
theorem getD_append (front : List Char) (c : Char) (rest : List Char) :
    (front ++ c :: rest).getD front.length nul = c := by
  simp [List.getD]

/-- `strtok_r` passes over the separators at its place. -/
theorem skip_separators (before rest : List Char) (count : Nat) {c : Char} (hc : c ≠ sep) :
    (((before ++ List.replicate count sep ++ c :: rest).drop before.length).takeWhile
      fun d => d == sep).length = count := by
  rw [List.append_assoc, List.drop_left, List.takeWhile_append_of_pos (by simp)]
  simp [hc]

/-- `strtok_r` finds no token behind the last separator. -/
theorem strtok_none (hsep : sep ≠ nul) (before rest : List Char) (count : Nat) :
    strtokR sep (before ++ List.replicate count sep ++ nul :: rest) before.length =
      (none, before ++ List.replicate count sep ++ nul :: rest, before.length + count) := by
  have hstart := getD_append (before ++ List.replicate count sep) nul rest
  rw [List.length_append, List.length_replicate] at hstart
  rw [strtokR, skip_separators before rest count hsep.symm]
  exact if_pos hstart

/-- `strtok_r` finds the token behind the separators at its place, and the byte behind it. -/
theorem strtok_stop (hsep : sep ≠ nul) (htoken : IsToken sep token) (hnul : nul ∉ token)
    {c : Char} (hc : c = sep ∨ c = nul) (before rest : List Char) (count : Nat) :
    strtokR sep (before ++ List.replicate count sep ++ token ++ c :: rest) before.length =
      if c = nul then
        (some (before.length + count), before ++ List.replicate count sep ++ token ++ c :: rest,
          before.length + count + token.length)
      else
        (some (before.length + count), before ++ List.replicate count sep ++ token ++ nul :: rest,
          before.length + count + token.length + 1) := by
  have hplace : (before ++ List.replicate count sep).length = before.length + count := by simp
  have hstop : (before ++ List.replicate count sep ++ token).length =
      before.length + count + token.length := by rw [List.length_append, hplace]
  have hdrop : (before ++ List.replicate count sep ++ token ++ c :: rest).drop
      (before.length + count) = token ++ c :: rest := by
    rw [List.append_assoc _ token, ← hplace, List.drop_left]
  -- the token is all that is ahead of the next separator or zero
  have htext : (cstring (before ++ List.replicate count sep ++ token ++ c :: rest)
      (before.length + count)).takeWhile (fun e => e != sep) = token := by
    rw [cstring, hdrop]
    rcases hc with rfl | rfl
    · have hpass : ∀ e ∈ token, (e != nul) = true := fun e he => by
        simpa using fun h : e = nul => hnul (h ▸ he)
      rw [List.takeWhile_append_of_pos hpass, List.takeWhile_cons_of_pos (by simpa using hsep)]
      exact take_until htoken.2 _
    · rw [take_until hnul, List.takeWhile_eq_self_iff]
      exact fun e he => by simpa using fun h : e = sep => htoken.2 (h ▸ he)
  have hlast := getD_append (before ++ List.replicate count sep ++ token) c rest
  rw [hstop] at hlast
  obtain ⟨d, more, rfl⟩ := List.exists_cons_of_ne_nil htoken.1
  have hd : d ≠ sep := fun h => htoken.2 (h ▸ List.mem_cons_self ..)
  have hdnul : d ≠ nul := fun h => hnul (h ▸ List.mem_cons_self ..)
  have hfirst := getD_append (before ++ List.replicate count sep) d (more ++ c :: rest)
  rw [hplace] at hfirst
  have hskip := skip_separators before (more ++ c :: rest) count hd
  have harray : before ++ List.replicate count sep ++ d :: (more ++ c :: rest) =
      before ++ List.replicate count sep ++ d :: more ++ c :: rest := by simp
  rw [harray] at hfirst hskip
  rw [strtokR, hskip]
  dsimp only
  rw [hfirst, if_neg hdnul, htext, hlast]
  split
  · rfl
  · have hsplit : before ++ List.replicate count sep ++ d :: more ++ c :: rest =
        before ++ List.replicate count sep ++ d :: more ++ [c] ++ rest := by simp
    rw [hsplit, overwrite_append rest hstop (show [c].length = [nul].length from rfl)]
    simp

/-- Without a token in the text at its place, `strtok_r` finds none. -/
theorem strtok_of_nil {array text : List Char} {place : Nat} (hsep : sep ≠ nul)
    (h : Holds array place text) (htokens : tokens sep text = []) :
    ∃ following, strtokR sep array place = (none, array, following) := by
  obtain ⟨-, before, rest, rfl, rfl⟩ := h
  obtain ⟨count, rfl | ⟨token, htoken, rfl | ⟨more, rfl⟩⟩⟩ := cases_of_token sep text
  · exact ⟨_, strtok_none hsep before rest count⟩
  · rw [tokens_replicate, tokens_of_token htoken] at htokens
    cases htokens
  · rw [List.append_assoc, tokens_replicate, tokens_append, tokens_of_token htoken] at htokens
    cases htokens

/-- With a token in the text at its place, `strtok_r` leaves the array holding it, and goes on with
a shorter text that has the other tokens. -/
theorem strtok_of_cons {array text : List Char} {place : Nat} {others : List (List Char)}
    (hsep : sep ≠ nul) (h : Holds array place text) (htokens : tokens sep text = token :: others) :
    ∃ start buffer following left, strtokR sep array place = (some start, buffer, following) ∧
      Holds buffer start token ∧ Holds buffer following left ∧ tokens sep left = others ∧
      left.length < text.length ∧ token.length ≤ text.length := by
  obtain ⟨hnul, before, rest, rfl, rfl⟩ := h
  obtain ⟨count, rfl | ⟨first, hfirst, rfl | ⟨more, rfl⟩⟩⟩ := cases_of_token sep text
  · have hnone := tokens_replicate sep count []
    rw [List.append_nil, htokens] at hnone
    cases hnone
  · rw [tokens_replicate, tokens_of_token hfirst] at htokens
    cases htokens
    have hkept : nul ∉ token := fun hmem => hnul (List.mem_append_right _ hmem)
    have hpositive := List.length_pos_of_ne_nil hfirst.1
    have hstep := strtok_stop hsep hfirst hkept (.inr rfl) before rest count
    rw [if_pos rfl] at hstep
    refine ⟨_, _, _, [], by simpa only [List.append_assoc] using hstep, ?_, ?_, rfl, ?_, by simp⟩
    · exact ⟨hkept, before ++ List.replicate count sep, rest, by simp, by simp⟩
    · refine ⟨by simp, before ++ List.replicate count sep ++ token, rest, by simp; omega, by simp⟩
    · simp
      omega
  · rw [List.append_assoc, tokens_replicate, tokens_append, tokens_of_token hfirst] at htokens
    cases htokens
    have hkept : nul ∉ token := fun hmem =>
      hnul (List.mem_append_left _ (List.mem_append_right _ hmem))
    have hleft : nul ∉ more := fun hmem =>
      hnul (List.mem_append_right _ (List.mem_cons_of_mem _ hmem))
    have hstep := strtok_stop hsep hfirst hkept (.inl rfl) before (more ++ nul :: rest) count
    rw [if_neg hsep] at hstep
    refine ⟨_, _, _, more, by simpa only [List.append_assoc, List.cons_append] using hstep, ?_, ?_,
      rfl, by simp; omega, by simp; omega⟩
    · exact ⟨hkept, before ++ List.replicate count sep, more ++ nul :: rest, by simp, by simp⟩
    · refine ⟨hleft, before ++ List.replicate count sep ++ token ++ [nul], rest, by simp; omega, ?_⟩
      simp

end Tokens

end UniShare.Lib
