import UniShare.Lib.Execution

/-!
# Running to the end

A machine `f : σ → Option σ` that is left to itself has one run. `Completes` says that the run ends
and what holds of the state where it ends, so it is a total correctness statement: the lemmas below
move it along the run, and `completes_of_rank` proves that a run ends from a rank that every step
lowers.
-/

namespace UniShare.Lib

open Relation StateTransition

variable {σ : Type*} {f : σ → Option σ} {post : σ → Prop} {state next : σ}

/-- The run from the state ends, in a state that satisfies `post`. -/
def Completes (f : σ → Option σ) (post : σ → Prop) (state : σ) : Prop :=
  ∃ final ∈ eval f state, post final

/-- A run ends as it does from any state on its way. -/
theorem completes_iff_of_reaches (h : Reaches f state next) :
    Completes f post state ↔ Completes f post next := by
  rw [Completes, Completes, reaches_eval h]

/-- A run ends as it does after its first step. -/
theorem completes_iff_of_step (h : f state = some next) :
    Completes f post state ↔ Completes f post next :=
  completes_iff_of_reaches (ReflTransGen.single h)

/-- A run ends at once where there is no step. -/
theorem completes_iff_of_stop (hstop : f state = none) : Completes f post state ↔ post state := by
  constructor
  · intro h
    obtain ⟨final, hfinal, hpost⟩ := h
    have hsame : final = state :=
      (eval_maximal (mem_eval.mpr ⟨.refl, hstop⟩)).mp (mem_eval.mp hfinal).1
    exact hsame ▸ hpost
  · intro hpost
    exact ⟨state, mem_eval.mpr ⟨.refl, hstop⟩, hpost⟩

/-- Where a run ends, an invariant of its steps holds too. -/
theorem Completes.invariant {inv : σ → Prop}
    (hpreserve : ∀ state next, inv state → f state = some next → inv next) (hinv : inv state)
    (h : Completes f post state) : ∃ final, inv final ∧ post final := by
  obtain ⟨final, hfinal, hpost⟩ := h
  have hreaches : Reaches f state final := (mem_eval.mp hfinal).1
  refine ⟨final, ?_, hpost⟩
  clear hfinal hpost
  induction hreaches with
  | refl => exact hinv
  | tail _ hstep ih => exact hpreserve _ _ ih hstep

/-- A run ends where there is no step. -/
theorem Completes.stop (h : Completes f post state) :
    Completes f (fun final => post final ∧ f final = none) state := by
  obtain ⟨final, hfinal, hpost⟩ := h
  exact ⟨final, hfinal, hpost, (mem_eval.mp hfinal).2⟩

/-- A run that ends in one way ends in a weaker one. -/
theorem Completes.mono {weaker : σ → Prop} (himp : ∀ final, post final → weaker final)
    (h : Completes f post state) : Completes f weaker state := by
  obtain ⟨final, hfinal, hpost⟩ := h
  exact ⟨final, hfinal, himp final hpost⟩

/-- A run ends when its steps keep an invariant and lower a rank. -/
theorem completes_of_rank {ι : Type*} [LT ι] [WellFoundedLT ι] {inv : σ → Prop} (rank : σ → ι)
    (hlower : ∀ state next, inv state → f state = some next →
      inv next ∧ rank next < rank state) (hinv : inv state) : Completes f inv state := by
  induction hvalue : rank state using WellFoundedLT.induction generalizing state with
  | ind value ih =>
      cases hstep : f state with
      | none => exact (completes_iff_of_stop hstep).mpr hinv
      | some next =>
          obtain ⟨hnext, hlt⟩ := hlower state next hinv hstep
          exact (completes_iff_of_step hstep).mpr (ih (rank next) (hvalue ▸ hlt) hnext rfl)

/-- The machine reaches what a number of its steps computes. -/
theorem reaches_of_exec {final : σ} {n : Nat}
    (h : exec (fun state (_ : Unit) => f state) state (List.replicate n ()) = some final) :
    Reaches f state final := by
  induction n generalizing state with
  | zero =>
      obtain rfl := Option.some.inj h
      exact .refl
  | succ n ih =>
      obtain ⟨next, hstep, hrest⟩ := exec_cons_eq_some.mp h
      exact (ih hrest).head hstep

end UniShare.Lib
