import Mathlib

/-!
# Checked 32-bit arithmetic

C's `int` is 32 bits wide. An operation is defined when 32 bits hold its exact result, and a
division also needs a divisor other than zero. `checked` and `quotient` compute in `Option`, so
that a chain of them has a value exactly when every intermediate result is the exact one. `wrap32`
is what 32 bits hold when the exact result does not fit.
-/

namespace UniShare.Lib

/-- The value that 32 bits hold is the exact one. -/
def signed32 (value : Int) : Prop :=
  (Int32.ofInt value).toInt = value

/-- The integers that 32 bits hold exactly are those of the two's-complement range. -/
theorem signed32_iff (value : Int) : signed32 value ↔ -(2 ^ 31) ≤ value ∧ value < 2 ^ 31 := by
  constructor
  · intro h
    rw [← h]
    exact ⟨Int32.le_toInt _, Int32.toInt_lt _⟩
  · intro ⟨hlow, hhigh⟩
    exact Int32.toInt_ofInt_of_le hlow hhigh

/-- `signed32` is decidable by two integer comparisons. -/
instance (value : Int) : Decidable (signed32 value) :=
  decidable_of_iff' _ (signed32_iff value)

theorem signed32_zero : signed32 0 := by decide

/-- A non-negative integer is representable when it is below `2 ^ 31`. -/
theorem signed32_of_nonneg {value : Int} (h : 0 ≤ value) : signed32 value ↔ value < 2 ^ 31 := by
  rw [signed32_iff]
  omega

/-! ## Wrapping -/

/-- The integer that 32 bits hold in the place of this one. -/
def wrap32 (value : Int) : Int :=
  (Int32.ofInt value).toInt

/-- Wrapping leaves an integer alone exactly when 32 bits hold it. -/
theorem wrap32_eq_iff {value : Int} : wrap32 value = value ↔ signed32 value := Iff.rfl

/-- What is wrapped is representable. -/
theorem signed32_wrap32 (value : Int) : signed32 (wrap32 value) := by
  unfold signed32 wrap32
  rw [Int32.ofInt_toInt]

/-- Wrapping is the balanced remainder modulo `2 ^ 32`. -/
theorem wrap32_eq_bmod (value : Int) : wrap32 value = value.bmod (2 ^ 32) :=
  Int32.toInt_ofInt

/-- A result between `2 ^ 31` and `2 ^ 32` wraps around once. -/
theorem wrap32_of_le {value : Int} (hlow : 2 ^ 31 ≤ value) (hhigh : value < 2 ^ 32) :
    wrap32 value = value - 2 ^ 32 := by
  rw [wrap32_eq_bmod]
  unfold Int.bmod
  dsimp only
  split <;> omega

/-- A wrapped part of a difference may as well be exact. -/
theorem wrap32_sub_wrap32 (value other : Int) :
    wrap32 (value - wrap32 other) = wrap32 (value - other) := by
  simp only [wrap32_eq_bmod, Int.sub_bmod_bmod]

/-! ## Checking -/

/-- The result of an operation, when it is representable. -/
def checked (value : Int) : Option Int :=
  if signed32 value then some value else none

/-- C division: it truncates, and it has no value at divisor zero. -/
def quotient (dividend divisor : Int) : Option Int :=
  if divisor = 0 then none else checked (dividend.tdiv divisor)

/-- A chain of operations has a value when the first result is representable and the rest has. -/
theorem checked_bind_eq_some {α : Type} {value : Int} {rest : Int → Option α} {result : α} :
    (checked value).bind rest = some result ↔ signed32 value ∧ rest value = some result := by
  unfold checked
  split <;> simp_all

/-- The same for a chain that starts with a division. -/
theorem quotient_bind_eq_some {α : Type} {dividend divisor : Int} {rest : Int → Option α}
    {result : α} :
    (quotient dividend divisor).bind rest = some result ↔
      divisor ≠ 0 ∧ signed32 (dividend.tdiv divisor) ∧
        rest (dividend.tdiv divisor) = some result := by
  unfold quotient
  split
  · simp_all
  · rw [checked_bind_eq_some]
    simp_all

/-- One operation has its exact result as value when it is representable. -/
theorem checked_eq_some {value result : Int} :
    checked value = some result ↔ signed32 value ∧ value = result := by
  unfold checked
  split <;> simp_all

/-- One division has its exact quotient as value when it is representable. -/
theorem quotient_eq_some {dividend divisor result : Int} :
    quotient dividend divisor = some result ↔
      divisor ≠ 0 ∧ signed32 (dividend.tdiv divisor) ∧ dividend.tdiv divisor = result := by
  unfold quotient
  split
  · simp_all
  · rw [checked_eq_some]
    simp_all

end UniShare.Lib
