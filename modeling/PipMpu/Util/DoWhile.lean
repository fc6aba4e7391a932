import Mathlib.Order.Basic

/-!
This module contains loops that run their body before they look at the condition, and the rule with which they are
shown to end.
-/

/--
The state after the last pass of the loop, nothing if `fuel` passes are not enough.
-/
def doWhile {σ : Type} (body : σ → σ) (again : σ → Bool) : Nat → σ → Option σ
  | 0, _ => none
  | fuel + 1, s => if again (body s) then doWhile body again fuel (body s) else some (body s)

variable {σ τ : Type} {body : σ → σ} {again : σ → Bool} {fuel : Nat} {s : σ}

/--
A loop whose passes decrease a variant while an invariant holds ends. The last pass starts in a state with the invariant
and leads to one in which the condition fails.
-/
theorem doWhile_rule (inv : σ → Prop) (variant : σ → Nat)
    (hagain : ∀ s, inv s → again (body s) = true → inv (body s) ∧ variant (body s) < variant s)
    (hs : inv s) (hfuel : variant s < fuel)
    : ∃ last, inv last ∧ again (body last) = false ∧ doWhile body again fuel s = some (body last) := by
  induction fuel generalizing s with
  | zero => exact absurd hfuel (Nat.not_lt_zero _)
  | succ fuel ih =>
    unfold doWhile
    cases hlast : again (body s) with
    | false => exact ⟨s, hs, hlast, rfl⟩
    | true =>
      rw [if_pos rfl]
      have hnext := hagain s hs hlast
      exact ih hnext.1 (by omega)

/--
The value of a loop, if it is known after every pass that can be the last one.
-/
theorem doWhile_map_eq {f : σ → τ} {value : τ} (inv : σ → Prop) (variant : σ → Nat)
    (hagain : ∀ s, inv s → again (body s) = true → inv (body s) ∧ variant (body s) < variant s)
    (hlast : ∀ s, inv s → again (body s) = false → f (body s) = value)
    (hs : inv s) (hfuel : variant s < fuel) : (doWhile body again fuel s).map f = some value := by
  rcases doWhile_rule inv variant hagain hs hfuel with ⟨last, hinv, hstop, hrun⟩
  rw [hrun, Option.map_some, hlast last hinv hstop]
