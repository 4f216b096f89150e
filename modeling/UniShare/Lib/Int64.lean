import Mathlib

/-!
# Sums and order of Go's `int64`

Go's `int64` is Lean's `Int64`: two's complement with wrapping addition and subtraction. The sum of
a list is exact modulo `2 ^ 64` (`toInt_sum`, and `toNat_sum` for the unsigned type), hence exact
when the terms are non-negative and their integer sum fits (`toInt_sum_of_lt`).
-/

namespace UniShare.Lib

instance linearOrderInt64 : LinearOrder Int64 where
  le_refl := Int64.le_refl
  le_trans _ _ _ := Int64.le_trans
  le_antisymm _ _ := Int64.le_antisymm
  le_total := Int64.le_total
  lt_iff_le_not_ge a b := by
    rw [Int64.lt_iff_toInt_lt, Int64.le_iff_toInt_le, Int64.le_iff_toInt_le]
    omega
  toDecidableLE := inferInstance
  toDecidableEq := inferInstance
  toDecidableLT := inferInstance

/-- A wrapping sum is the integer sum modulo `2 ^ 64`. -/
theorem toInt_sum (terms : List Int64) :
    terms.sum.toInt = (terms.map Int64.toInt).sum.bmod (2 ^ 64) := by
  induction terms with
  | nil => rfl
  | cons term rest ih =>
      rw [List.sum_cons, Int64.toInt_add, ih, List.map_cons, List.sum_cons, Int.add_bmod_bmod]

/-- A wrapping sum of unsigned terms is the sum of their numbers modulo `2 ^ 64`. -/
theorem toNat_sum (terms : List UInt64) :
    terms.sum.toNat = (terms.map UInt64.toNat).sum % 2 ^ 64 := by
  induction terms with
  | nil => rfl
  | cons term rest ih =>
      rw [List.sum_cons, UInt64.toNat_add, ih, List.map_cons, List.sum_cons, Nat.add_mod_mod]

/-- The integer sum of non-negative terms is non-negative. -/
theorem sum_toInt_nonneg {terms : List Int64} (h : ∀ term ∈ terms, 0 ≤ term) :
    0 ≤ (terms.map Int64.toInt).sum := by
  apply List.sum_nonneg
  intro value hvalue
  obtain ⟨term, hterm, rfl⟩ := List.mem_map.mp hvalue
  exact Int64.le_iff_toInt_le.mp (h term hterm)

/-- A wrapping sum of non-negative terms whose integer sum fits is that sum. -/
theorem toInt_sum_of_lt {terms : List Int64} (hnonneg : ∀ term ∈ terms, 0 ≤ term)
    (hfit : (terms.map Int64.toInt).sum < 2 ^ 63) :
    terms.sum.toInt = (terms.map Int64.toInt).sum := by
  have hlow := sum_toInt_nonneg hnonneg
  rw [toInt_sum]
  exact Int.bmod_eq_of_le (by omega) (by omega)

/-- Terms that are pointwise at most others, with the same sum, are equal to them. -/
theorem eq_of_sum_eq {α : Type*} {lower upper : α → Int} {items : List α}
    (hle : ∀ item ∈ items, lower item ≤ upper item)
    (hsum : (items.map lower).sum = (items.map upper).sum) :
    ∀ item ∈ items, lower item = upper item := by
  induction items with
  | nil => simp
  | cons first rest ih =>
      have hfirst := hle first (by simp)
      have hrest : (rest.map lower).sum ≤ (rest.map upper).sum :=
        List.sum_le_sum fun item hitem => hle item (by simp [hitem])
      rw [List.map_cons, List.map_cons, List.sum_cons, List.sum_cons] at hsum
      intro item hitem
      rcases List.mem_cons.mp hitem with rfl | hitem
      · omega
      · exact ih (fun other hother => hle other (by simp [hother])) (by omega) item hitem

end UniShare.Lib
