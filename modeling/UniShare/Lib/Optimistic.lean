import Mathlib.Data.List.Nodup
import Mathlib.Order.Basic

/-!
# Copies of versioned objects

A collection whose objects have an identity and a version, where every change of an object gives it
a later version. A copy that was read from it stays `Current`: as long as there is an object of its
identity, this object is the copy or has a later version. So a write that is refused unless the
version is the copy's finds the very object that was read (`Current.eq_of_version`), and cannot undo
what others have written in between.
-/

namespace UniShare.Lib

variable {α κ ν : Type*} [Preorder ν] {ident : α → κ} {version : α → ν}

/-- The object of the copy's identity is the copy, or has a later version. -/
def Current (ident : α → κ) (version : α → ν) (items : List α) (copy : α) : Prop :=
  ∀ item ∈ items, ident item = ident copy → item = copy ∨ version copy < version item

/-- Every object of `next` is one of `items`, or a later version of one, or new. -/
def Renewed (ident : α → κ) (version : α → ν) (known : List κ) (items next : List α) : Prop :=
  ∀ item ∈ next, item ∈ items ∨
    (∃ old ∈ items, ident old = ident item ∧ version old < version item) ∨ ident item ∉ known

/-- An object that is read is current. -/
theorem current_of_mem {items : List α} {copy : α} (hnodup : (items.map ident).Nodup)
    (hcopy : copy ∈ items) : Current ident version items copy :=
  fun _ hitem hident => .inl (List.inj_on_of_nodup_map hnodup hitem hcopy hident)

/-- A current copy stays current when versions are renewed. -/
theorem Current.renewed {known : List κ} {items next : List α} {copy : α}
    (h : Current ident version items copy) (hknown : ident copy ∈ known)
    (hnext : Renewed ident version known items next) : Current ident version next copy := by
  intro item hitem hident
  rcases hnext item hitem with hsame | ⟨old, hold, hidents, hlater⟩ | hnew
  · exact h item hsame hident
  · right
    rcases h old hold (hidents.trans hident) with rfl | hbefore
    · exact hlater
    · exact hbefore.trans hlater
  · exact absurd (hident ▸ hknown) hnew

/-- The object with the identity and the version of a current copy is the copy. -/
theorem Current.eq_of_version {items : List α} {copy item : α}
    (h : Current ident version items copy) (hitem : item ∈ items) (hident : ident item = ident copy)
    (hversion : version item = version copy) : item = copy := by
  rcases h item hitem hident with hsame | hlater
  · exact hsame
  · exact absurd hversion hlater.ne'

/-- Nothing has to be renewed where nothing changes. -/
theorem Renewed.refl (known : List κ) (items : List α) : Renewed ident version known items items :=
  fun _ hitem => .inl hitem

/-- Changing objects in place renews versions when every changed object gets a later one. -/
theorem renewed_map {f : α → α} (known : List κ) {items : List α}
    (hf : ∀ item ∈ items, f item = item ∨
      ident (f item) = ident item ∧ version item < version (f item)) :
    Renewed ident version known items (items.map f) := by
  intro item hitem
  obtain ⟨old, hold, rfl⟩ := List.mem_map.mp hitem
  rcases hf old hold with hsame | ⟨hident, hlater⟩
  · exact .inl (by rwa [hsame])
  · exact .inr (.inl ⟨old, hold, hident.symm, hlater⟩)

end UniShare.Lib
