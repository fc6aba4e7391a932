import Mathlib.Order.Defs.Unbundled

/-!
This module contains the rules for relations that an operation on a state establishes between the
state it starts in and the state it ends in.
-/

/--
Whatever state `op` starts in, `R` relates it to the state in which `op` ends.
-/
def Keeps {σ α : Type} (R : σ → σ → Prop) (op : σ → α × σ) : Prop :=
  ∀ s, R s (op s).2

namespace Keeps

variable {σ α β : Type} {R : σ → σ → Prop}

theorem mono {R' : σ → σ → Prop} {op : σ → α × σ} (h : Keeps R op)
    (hle : ∀ s s', R s s' → R' s s') : Keeps R' op := by
  intro s
  exact hle _ _ (h s)

theorem of_eq [Std.Refl R] {op : σ → α × σ} (h : ∀ s, (op s).2 = s) : Keeps R op := by
  intro s
  rw [h s]
  exact Std.Refl.refl s

theorem seq [IsTrans σ R] {op : σ → α × σ} {f : α → σ → β × σ} (h : Keeps R op)
    (hf : ∀ a, Keeps R (f a)) : Keeps R (fun s => f (op s).1 (op s).2) := by
  intro s
  exact IsTrans.trans _ _ _ (h s) (hf _ _)

theorem ite {c : Prop} [Decidable c] {op op' : σ → α × σ} (h : c → Keeps R op)
    (h' : ¬c → Keeps R op') : Keeps R (if c then op else op') := by
  split
  . next hc => exact h hc
  . next hc => exact h' hc

end Keeps
