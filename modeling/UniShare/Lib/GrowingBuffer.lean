import UniShare.Lib.Completion

/-!
# Asking again with a larger array

A caller hands over an array with the number of entries that it holds. The callee fills it when its
entries fit, and sets the number to how many there are. When they do not fit it says so, and sets
the number likewise, so that the caller can enlarge the array and ask again; meanwhile there may be
more. `query_completes` says that this ends when the entries never exceed a bound, after how many
calls, and that no call writes behind the end of the array.
-/

namespace UniShare.Lib

variable {α β : Type*}

/-- What a call finds: so many entries, or an error. -/
inductive Answer (α : Type*) where
  | entries (entries : List α)
  | error (code : Nat)

/-- What a call returns. `fault` is no value of the callee: it has written behind the end of the
array. -/
inductive Ret where
  | success
  | insufficient
  | error (code : Nat)
  | fault
  deriving DecidableEq, Repr

/-- The caller: how many calls it has made, the number and the array that it hands over, and what
the latest call has returned. -/
structure Query (α : Type*) where
  calls : Nat
  count : Nat
  buffer : List α
  ret : Ret

/-- A call, by the contract of the callee: when the entries do not fit, it sets the number to how many
there are, and leaves the array alone. -/
def Query.call (answers : Nat → Answer α) (query : Query α) : Query α :=
  match answers query.calls with
  | .error code => { query with calls := query.calls + 1, ret := .error code }
  | .entries entries =>
      if query.count < entries.length then
        { query with
          calls := query.calls + 1, count := entries.length, ret := .insufficient }
      else if query.buffer.length < entries.length then
        { query with calls := query.calls + 1, ret := .fault }
      else
        { calls := query.calls + 1
          count := entries.length
          buffer := entries ++ query.buffer.drop entries.length
          ret := .success }

/-- The array at another size; what is there at first in the new part is arbitrary. -/
def resize (fresh : Nat → α) (size : Nat) (buffer : List α) : List α :=
  buffer.take size ++ (List.range' buffer.length (size - buffer.length)).map fresh

/-- The first call, with an array of this size. -/
def Query.start (answers : Nat → Answer α) (fresh : Nat → α) (size : Nat) : Query α :=
  Query.call answers ⟨0, size, resize fresh size [], .insufficient⟩

/-- The next call, which is made when the entries did not fit. -/
def Query.again (answers : Nat → Answer α) (fresh : Nat → α) (query : Query α) :
    Option (Query α) :=
  match query.ret with
  | .insufficient =>
      some (Query.call answers
        { query with buffer := resize fresh query.count query.buffer })
  | _ => none

/-- A loop over so many entries of an array, which stops when it reads behind the end. -/
def foldEntries (f : β → α → β) (start : β) (count : Nat) (buffer : List α) : Option β :=
  (List.range count).foldlM (fun result i => (buffer[i]?).map (f result)) start

/-! ## The loop over the entries -/

/-- A loop that stays within the array folds the entries. -/
theorem fold_entries_eq {f : β → α → β} {start : β} {count : Nat} {buffer : List α}
    (hcount : count ≤ buffer.length) :
    foldEntries f start count buffer = some ((buffer.take count).foldl f start) := by
  unfold foldEntries
  induction count with
  | zero => rfl
  | succ count ih =>
      have hlt : count < buffer.length := hcount
      rw [List.range_succ, List.foldlM_append, ih (Nat.le_of_lt hlt), List.take_add_one,
        List.foldl_append]
      simp [List.getElem?_eq_getElem hlt]

/-! ## What a call keeps -/

theorem length_resize (fresh : Nat → α) (size : Nat) (buffer : List α) :
    (resize fresh size buffer).length = size := by
  simp only [resize, List.length_append, List.length_take, List.length_map, List.length_range']
  omega

/-- What is known after a call: a success has filled the array with what the callee found, an error
is the callee's, and the calls without room have each asked for more than the one before. -/
def Query.Sound (query : Query α) (answers : Nat → Answer α) (size most : Nat) : Prop :=
  query.calls ≤ most - size + 1 ∧
    match query.ret with
    | .success => ∃ entries, answers (query.calls - 1) = .entries entries ∧
        query.count ≤ query.buffer.length ∧ query.buffer.take query.count = entries
    | .insufficient => query.calls + size ≤ query.count ∧ query.count ≤ most
    | .error code => answers (query.calls - 1) = .error code
    | .fault => False

section Sound

variable {answers : Nat → Answer α} {fresh : Nat → α} {size most : Nat} {query : Query α}

/-- A call with an array that holds the announced number of entries is sound. -/
theorem sound_call (hmost : ∀ k entries, answers k = .entries entries → entries.length ≤ most)
    (hlength : query.buffer.length = query.count) (hcalls : query.calls + size ≤ query.count)
    (hbound : query.calls ≤ most - size) : (query.call answers).Sound answers size most := by
  unfold Query.call
  cases hanswer : answers query.calls with
  | error code => exact ⟨by show query.calls + 1 ≤ _; omega, hanswer⟩
  | entries entries =>
      have hfit := hmost query.calls entries hanswer
      dsimp only
      split
      · exact ⟨by show query.calls + 1 ≤ _; omega,
          by show query.calls + 1 + size ≤ entries.length; omega, hfit⟩
      · rename_i hroom
        rw [if_neg (by omega)]
        refine ⟨by show query.calls + 1 ≤ _; omega, entries, hanswer, ?_, ?_⟩
        · simp
        · simp

/-- The first call is sound. -/
theorem sound_start (hmost : ∀ k entries, answers k = .entries entries → entries.length ≤ most) :
    (Query.start answers fresh size).Sound answers size most :=
  sound_call hmost (length_resize fresh size []) (by simp) (Nat.zero_le _)

/-- A further call is sound, and when it does not fit either, it asks for more. -/
theorem sound_again (hmost : ∀ k entries, answers k = .entries entries → entries.length ≤ most)
    {next : Query α} (h : query.Sound answers size most)
    (hstep : query.again answers fresh = some next) :
    next.Sound answers size most ∧
      (next.ret = .insufficient → query.ret = .insufficient ∧ query.count < next.count) := by
  unfold Query.again at hstep
  split at hstep
  · rename_i hret
    obtain rfl := Option.some.inj hstep
    obtain ⟨_, hrest⟩ := h
    rw [hret] at hrest
    obtain ⟨hcalls, hcount⟩ := hrest
    refine ⟨sound_call hmost (length_resize _ _ _) hcalls (by show query.calls ≤ _; omega), ?_⟩
    intro hagain
    refine ⟨hret, ?_⟩
    unfold Query.call at hagain ⊢
    dsimp only at hagain ⊢
    cases hanswer : answers query.calls with
    | error code => simp [hanswer] at hagain
    | entries entries =>
        simp only [hanswer] at hagain ⊢
        split at hagain
        · rename_i hmore
          rw [if_pos hmore]
          exact hmore
        · split at hagain <;> cases hagain
  · cases hstep

end Sound

/-- When there are never more than `most` entries, the calls end after at most `most - size + 1` of
them: in success with an array that starts with what the latest call found, or in the error of the
latest call. -/
theorem query_completes {answers : Nat → Answer α} (fresh : Nat → α) (size : Nat) {most : Nat}
    (hmost : ∀ k entries, answers k = .entries entries → entries.length ≤ most) :
    Completes (Query.again answers fresh)
      (fun final => final.calls ≤ most - size + 1 ∧
        match answers (final.calls - 1) with
        | .entries entries => final.ret = .success ∧ final.count ≤ final.buffer.length ∧
            final.buffer.take final.count = entries
        | .error code => final.ret = .error code)
      (Query.start answers fresh size) := by
  let rank : Query α → Nat := fun query =>
    if query.ret = .insufficient then most + 1 - query.count else 0
  have hlower : ∀ query next : Query α, query.Sound answers size most →
      query.again answers fresh = some next →
      next.Sound answers size most ∧ rank next < rank query := by
    intro query next h hstep
    obtain ⟨hnext, hmore⟩ := sound_again hmost h hstep
    have hret : query.ret = .insufficient := by
      unfold Query.again at hstep
      split at hstep
      · assumption
      · cases hstep
    refine ⟨hnext, ?_⟩
    obtain ⟨_, hcount⟩ := h
    rw [hret] at hcount
    show (if next.ret = .insufficient then most + 1 - next.count else 0) <
      if query.ret = .insufficient then most + 1 - query.count else 0
    rw [if_pos hret]
    split
    · rename_i hagain
      have hlt := (hmore hagain).2
      omega
    · omega
  have hstart : (Query.start answers fresh size).Sound answers size most := sound_start hmost
  have hcompletes := (completes_of_rank rank hlower hstart).stop
  refine hcompletes.mono fun final hfinal => ?_
  obtain ⟨⟨hcalls, hsound⟩, hstop⟩ := hfinal
  refine ⟨hcalls, ?_⟩
  cases hret : final.ret with
  | success =>
      rw [hret] at hsound
      obtain ⟨entries, hanswer, hlength, htake⟩ := hsound
      rw [hanswer]
      exact ⟨rfl, hlength, htake⟩
  | insufficient => simp [Query.again, hret] at hstop
  | error code =>
      rw [hret] at hsound
      rw [hsound]
  | fault =>
      rw [hret] at hsound
      exact hsound.elim

end UniShare.Lib
