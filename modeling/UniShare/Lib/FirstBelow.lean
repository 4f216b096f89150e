import Mathlib

/-!
# The first least element below a bound

`firstBelow f bound fallback xs` is the selection loop that keeps a running minimum, started at
`bound`, and the element that attained it, started at `fallback`. `first_below_iff` says which
element the loop ends with: the first one of least value, or the fallback when no value is below
the bound.

`bestFit` runs the loop over the elements that pass a test, with the head of the list as fallback.
`BestFit` says what it picks (`best_fit_eq_some_iff`), and `best_fit_indices` relates it to a loop
over indices.
-/

namespace UniShare.Lib

variable {α β : Type*} [LinearOrder β]

/-- One iteration of the selection loop: a strictly smaller value replaces the minimum. -/
def keepSmaller (f : α → β) (best : β × α) (x : α) : β × α :=
  if f x < best.1 then (f x, x) else best

/-- The element that the selection loop ends with. -/
def firstBelow (f : α → β) (bound : β) (fallback : α) (xs : List α) : α :=
  (xs.foldl (keepSmaller f) (bound, fallback)).2

/-- `x` is the first element of least value among `xs`. -/
def FirstLeast (f : α → β) (xs : List α) (x : α) : Prop :=
  ∃ before after, xs = before ++ x :: after ∧
    (∀ y ∈ before, f x < f y) ∧ ∀ y ∈ after, f x ≤ f y

/-- A list has at most one first element of least value. -/
theorem FirstLeast.unique {f : α → β} {xs : List α} {x y : α}
    (hx : FirstLeast f xs x) (hy : FirstLeast f xs y) : x = y := by
  obtain ⟨before, after, rfl, hbefore, hafter⟩ := hx
  obtain ⟨front, back, heq, hfront, hback⟩ := hy
  rcases List.append_eq_append_iff.mp heq with ⟨middle, rfl, hmiddle⟩ | ⟨middle, rfl, hmiddle⟩
  · cases middle with
    | nil => simpa using (List.cons.inj (by simpa using hmiddle)).1
    | cons z rest =>
        obtain ⟨rfl, rfl⟩ := List.cons.inj hmiddle
        exact absurd (hfront x (by simp)) (not_lt.mpr (hafter y (by simp)))
  · cases middle with
    | nil => simpa using (List.cons.inj (by simpa using hmiddle)).1.symm
    | cons z rest =>
        obtain ⟨rfl, rfl⟩ := List.cons.inj hmiddle
        exact absurd (hbefore y (by simp)) (not_lt.mpr (hback x (by simp)))

/-- Functions that order the elements of a list alike have the same first least element. -/
theorem first_least_congr {γ : Type*} [LinearOrder γ] {f : α → β} {g : α → γ} {xs : List α} {x : α}
    (hlike : ∀ y ∈ xs, ∀ z ∈ xs, f y < f z ↔ g y < g z) :
    FirstLeast f xs x ↔ FirstLeast g xs x := by
  constructor
  · rintro ⟨before, after, rfl, hbefore, hafter⟩
    refine ⟨before, after, rfl, fun y hy => ?_, fun y hy => ?_⟩
    · exact (hlike x (by simp) y (by simp [hy])).mp (hbefore y hy)
    · exact not_lt.mp fun hlt =>
        not_lt.mpr (hafter y hy) ((hlike y (by simp [hy]) x (by simp)).mpr hlt)
  · rintro ⟨before, after, rfl, hbefore, hafter⟩
    refine ⟨before, after, rfl, fun y hy => ?_, fun y hy => ?_⟩
    · exact (hlike x (by simp) y (by simp [hy])).mpr (hbefore y hy)
    · exact not_lt.mp fun hlt =>
        not_lt.mpr (hafter y hy) ((hlike y (by simp [hy]) x (by simp)).mp hlt)

/-- The loop keeps its start when no value is below it, and otherwise ends with the first
element of least value. -/
theorem foldl_keep_smaller (f : α → β) (best : β × α) (xs : List α) :
    (∀ x ∈ xs, best.1 ≤ f x) ∧ xs.foldl (keepSmaller f) best = best ∨
      ∃ x, FirstLeast f xs x ∧ f x < best.1 ∧ xs.foldl (keepSmaller f) best = (f x, x) := by
  induction xs generalizing best with
  | nil => exact .inl ⟨by simp, rfl⟩
  | cons y rest ih =>
      simp only [List.foldl_cons, keepSmaller]
      split
      · rename_i hlt
        right
        rcases ih (f y, y) with ⟨hge, heq⟩ | ⟨x, ⟨before, after, rfl, hbefore, hafter⟩, hx, heq⟩
        · exact ⟨y, ⟨[], rest, rfl, by simp, hge⟩, hlt, heq⟩
        · refine ⟨x, ⟨y :: before, after, rfl, ?_, hafter⟩, hx.trans hlt, heq⟩
          intro z hz
          rcases List.mem_cons.mp hz with rfl | hz
          · exact hx
          · exact hbefore z hz
      · rename_i hnot
        have hge : best.1 ≤ f y := not_lt.mp hnot
        rcases ih best with ⟨hall, heq⟩ | ⟨x, ⟨before, after, rfl, hbefore, hafter⟩, hx, heq⟩
        · left
          refine ⟨fun z hz => ?_, heq⟩
          rcases List.mem_cons.mp hz with rfl | hz
          · exact hge
          · exact hall z hz
        · right
          refine ⟨x, ⟨y :: before, after, rfl, ?_, hafter⟩, hx, heq⟩
          intro z hz
          rcases List.mem_cons.mp hz with rfl | hz
          · exact hx.trans_le hge
          · exact hbefore z hz

/-- A list that is not empty has a first element of least value. -/
theorem exists_first_least (f : α → β) {xs : List α} (h : xs ≠ []) : ∃ x, FirstLeast f xs x := by
  cases xs with
  | nil => exact absurd rfl h
  | cons y rest =>
      rcases foldl_keep_smaller f (f y, y) rest with ⟨hall, _⟩ | ⟨x, hx, hlt, _⟩
      · exact ⟨y, [], rest, rfl, by simp, hall⟩
      · obtain ⟨before, after, rfl, hbefore, hafter⟩ := hx
        exact ⟨x, y :: before, after, rfl, by simpa [hlt] using hbefore, hafter⟩

/-- The loop ends with `x` exactly when `x` is the first element of least value and is below the
bound, or no value is below the bound and `x` is the fallback. -/
theorem first_below_iff {f : α → β} {bound : β} {fallback x : α} {xs : List α} :
    firstBelow f bound fallback xs = x ↔
      (FirstLeast f xs x ∧ f x < bound) ∨ ((∀ y ∈ xs, bound ≤ f y) ∧ x = fallback) := by
  rcases foldl_keep_smaller f (bound, fallback) xs with ⟨hall, heq⟩ | ⟨z, hz, hlt, heq⟩
  · rw [firstBelow, heq]
    constructor
    · exact fun h => .inr ⟨hall, h.symm⟩
    · rintro (⟨⟨before, after, rfl, _, _⟩, hlt⟩ | ⟨_, rfl⟩)
      · exact absurd hlt (not_lt.mpr (hall x (by simp)))
      · rfl
  · rw [firstBelow, heq]
    constructor
    · rintro rfl
      exact .inl ⟨hz, hlt⟩
    · rintro (⟨hx, _⟩ | ⟨hall, _⟩)
      · exact hz.unique hx
      · obtain ⟨before, after, rfl, _, _⟩ := hz
        exact absurd hlt (not_lt.mpr (hall z (by simp)))

/-- Running the loop over images is running it over the elements. -/
theorem first_below_map {γ : Type*} (f : α → β) (g : γ → α) (bound : β) (fallback : γ)
    (xs : List γ) :
    firstBelow f bound (g fallback) (xs.map g) =
      g (firstBelow (fun x => f (g x)) bound fallback xs) := by
  have hfold : ∀ best : β × γ, (xs.map g).foldl (keepSmaller f) (best.1, g best.2) =
      ((xs.foldl (keepSmaller fun x => f (g x)) best).1,
        g (xs.foldl (keepSmaller fun x => f (g x)) best).2) := by
    induction xs with
    | nil => exact fun best => rfl
    | cons x rest ih =>
        intro best
        simp only [List.map_cons, List.foldl_cons]
        rw [← ih]
        congr 1
        unfold keepSmaller
        split <;> rfl
  exact congrArg Prod.snd (hfold (bound, fallback))

/-- The selection loop over the elements that pass `ok`. When none of them costs less than
`bound` it ends with the head of the list. -/
def bestFit (ok : α → Bool) (cost : α → β) (bound : β) : List α → Option α
  | [] => none
  | head :: rest =>
      if (head :: rest).filter ok = [] then none
      else some (firstBelow cost bound head ((head :: rest).filter ok))

/-- The loop in one expression, with a default for the head of the empty list. -/
theorem best_fit_eq_ite (ok : α → Bool) (cost : α → β) (bound : β) (xs : List α) (default : α) :
    bestFit ok cost bound xs =
      if xs.filter ok = [] then none
      else some (firstBelow cost bound (xs.headD default) (xs.filter ok)) := by
  cases xs with
  | nil => simp [bestFit]
  | cons head rest => rfl

/-- What the best-fit loop picks: the first cheapest element that passes, or the head of the list
when some element passes but none of those costs less than `bound`. -/
inductive BestFit (ok : α → Bool) (cost : α → β) (bound : β) (xs : List α) : α → Prop where
  | least (before after x) : xs = before ++ x :: after → ok x → cost x < bound →
      (∀ y ∈ before, ok y → cost x < cost y) → (∀ y ∈ after, ok y → cost x ≤ cost y) →
      BestFit ok cost bound xs x
  | fallback (x rest) : xs = x :: rest → (∃ y ∈ xs, ok y) → (∀ y ∈ xs, ok y → bound ≤ cost y) →
      BestFit ok cost bound xs x

/-- What the loop picks is an element of the list. -/
theorem BestFit.mem {ok : α → Bool} {cost : α → β} {bound : β} {xs : List α} {x : α}
    (h : BestFit ok cost bound xs x) : x ∈ xs := by
  cases h with
  | least before after _ heq => simp [heq]
  | fallback _ rest heq => simp [heq]

/-- When the loop picks an element, some element passes. -/
theorem BestFit.passes {ok : α → Bool} {cost : α → β} {bound : β} {xs : List α} {x : α}
    (h : BestFit ok cost bound xs x) : ∃ y ∈ xs, ok y := by
  cases h with
  | least before after _ heq hok => exact ⟨x, by simp [heq], hok⟩
  | fallback _ rest _ hsome => exact hsome

/-- The loop picks nothing exactly when no element passes. -/
theorem best_fit_eq_none_iff {ok : α → Bool} {cost : α → β} {bound : β} {xs : List α} :
    bestFit ok cost bound xs = none ↔ ∀ x ∈ xs, ¬ ok x := by
  cases xs with
  | nil => simp [bestFit]
  | cons head rest =>
      rw [bestFit, ite_eq_left_iff, ← List.filter_eq_nil_iff]
      simp

/-- The first least element of the passing sublist, in terms of the whole list. -/
theorem first_least_filter {ok : α → Bool} {cost : α → β} {xs : List α} {x : α} :
    FirstLeast cost (xs.filter ok) x ↔ ∃ before after, xs = before ++ x :: after ∧ ok x ∧
      (∀ y ∈ before, ok y → cost x < cost y) ∧ ∀ y ∈ after, ok y → cost x ≤ cost y := by
  constructor
  · rintro ⟨front, back, heq, hfront, hback⟩
    obtain ⟨before, suffix, rfl, rfl, hsuffix⟩ := List.filter_eq_append_iff.mp heq
    obtain ⟨skipped, after, rfl, hskipped, hx, rfl⟩ := List.filter_eq_cons_iff.mp hsuffix
    refine ⟨before ++ skipped, after, by simp, hx, ?_, ?_⟩
    · intro y hy hok
      rcases List.mem_append.mp hy with hy | hy
      · exact hfront y (List.mem_filter.mpr ⟨hy, hok⟩)
      · exact absurd hok (hskipped y hy)
    · exact fun y hy hok => hback y (List.mem_filter.mpr ⟨hy, hok⟩)
  · rintro ⟨before, after, rfl, hx, hbefore, hafter⟩
    refine ⟨before.filter ok, after.filter ok, by simp [hx], ?_, ?_⟩
    · exact fun y hy => hbefore y (List.mem_filter.mp hy).1 (List.mem_filter.mp hy).2
    · exact fun y hy => hafter y (List.mem_filter.mp hy).1 (List.mem_filter.mp hy).2

/-- What the loop picks, in terms of the passing sublist. -/
theorem best_fit_iff_first_least {ok : α → Bool} {cost : α → β} {bound : β} {xs : List α} {x : α} :
    BestFit ok cost bound xs x ↔
      FirstLeast cost (xs.filter ok) x ∧ cost x < bound ∨
        xs.filter ok ≠ [] ∧ (∀ y ∈ xs.filter ok, bound ≤ cost y) ∧ xs.head? = some x := by
  rw [first_least_filter]
  constructor
  · intro h
    cases h with
    | least before after _ heq hok hlt hbefore hafter =>
        exact .inl ⟨⟨before, after, heq, hok, hbefore, hafter⟩, hlt⟩
    | fallback _ rest heq hsome hall =>
        obtain ⟨y, hy, hok⟩ := hsome
        refine .inr ⟨List.ne_nil_of_mem (List.mem_filter.mpr ⟨hy, hok⟩), fun z hz => ?_, ?_⟩
        · exact hall z (List.mem_filter.mp hz).1 (List.mem_filter.mp hz).2
        · rw [heq, List.head?_cons]
  · rintro (⟨⟨before, after, heq, hok, hbefore, hafter⟩, hlt⟩ | ⟨hsome, hall, hhead⟩)
    · exact .least before after x heq hok hlt hbefore hafter
    · obtain ⟨y, hy⟩ := List.exists_mem_of_ne_nil _ hsome
      obtain ⟨rest, heq⟩ := List.head?_eq_some_iff.mp hhead
      exact .fallback x rest heq ⟨y, (List.mem_filter.mp hy).1, (List.mem_filter.mp hy).2⟩
        fun z hz hok => hall z (List.mem_filter.mpr ⟨hz, hok⟩)

/-- The loop computes `BestFit`. -/
theorem best_fit_eq_some_iff {ok : α → Bool} {cost : α → β} {bound : β} {xs : List α} {x : α} :
    bestFit ok cost bound xs = some x ↔ BestFit ok cost bound xs x := by
  cases xs with
  | nil =>
      simp only [bestFit, reduceCtorEq, false_iff]
      rintro (⟨before, after, _, heq, _⟩ | ⟨_, rest, heq, _⟩)
      · simp at heq
      · simp at heq
  | cons head rest =>
      rw [bestFit]
      by_cases hnone : (head :: rest).filter ok = []
      · rw [if_pos hnone]
        have hall : ∀ y ∈ head :: rest, ¬ ok y := by simpa [List.filter_eq_nil_iff] using hnone
        simp only [reduceCtorEq, false_iff]
        rintro (⟨before, after, _, heq, hok, _⟩ | ⟨_, _, _, ⟨y, hy, hok⟩, _⟩)
        · exact hall x (by simp [heq]) hok
        · exact hall y hy hok
      · rw [if_neg hnone, Option.some.injEq, first_below_iff, first_least_filter]
        have hsome : ∃ y ∈ head :: rest, ok y := by
          by_contra hno
          exact hnone (List.filter_eq_nil_iff.mpr fun y hy hok => hno ⟨y, hy, hok⟩)
        constructor
        · rintro (⟨⟨before, after, heq, hok, hbefore, hafter⟩, hlt⟩ | ⟨hall, rfl⟩)
          · exact .least before after x heq hok hlt hbefore hafter
          · exact .fallback x rest rfl hsome
              fun y hy hok => hall y (List.mem_filter.mpr ⟨hy, hok⟩)
        · rintro (⟨before, after, _, heq, hok, hlt, hbefore, hafter⟩ | ⟨_, tail, heq, _, hall⟩)
          · exact .inl ⟨⟨before, after, heq, hok, hbefore, hafter⟩, hlt⟩
          · exact .inr ⟨fun y hy => hall y (List.mem_filter.mp hy).1 (List.mem_filter.mp hy).2,
              (List.cons.inj heq).1.symm⟩

/-- What the loop picks from a list of images is the image of what it picks from the list. -/
theorem best_fit_map {γ : Type*} (ok : α → Bool) (cost : α → β) (bound : β) (g : γ → α)
    (xs : List γ) :
    bestFit ok cost bound (xs.map g) =
      (bestFit (fun x => ok (g x)) (fun x => cost (g x)) bound xs).map g := by
  cases xs with
  | nil => rfl
  | cons head rest =>
      have hfilter : ((head :: rest).map g).filter ok =
          ((head :: rest).filter fun x => ok (g x)).map g := by
        rw [List.filter_map]
        rfl
      rw [List.map_cons, bestFit, bestFit, ← List.map_cons, hfilter, first_below_map]
      simp only [List.map_eq_nil_iff]
      split <;> rfl

/-- The elements of a list, read at its indices. -/
theorem map_getD_range (xs : List α) (default : α) :
    (List.range xs.length).map (fun i => xs.getD i default) = xs := by
  apply List.ext_getElem
  · simp
  · intro i hi hxs
    simp [List.getElem?_eq_getElem hxs]

/-- A best-fit loop over the indices of the list, with index `0` as fallback, picks the index of
what the loop over the elements picks. -/
theorem best_fit_indices (ok : α → Bool) (cost : α → β) (bound : β) (xs : List α) (default : α) :
    bestFit ok cost bound xs =
      (bestFit (fun i => ok (xs.getD i default)) (fun i => cost (xs.getD i default)) bound
        (List.range xs.length)).map fun i => xs.getD i default := by
  rw [← best_fit_map ok cost bound (fun i => xs.getD i default), map_getD_range]

end UniShare.Lib
