import Mathlib.Data.Nat.Init
import Mathlib.Data.List.Basic

/-!
This module contains lists of intervals that follow each other without a gap.
-/

/--
The intervals of the list go from `lo` to `hi`, each one starts where the one before it ends.
-/
inductive Tiling {α : Type} (first last : α → Nat) : Nat → Nat → List α → Prop where
  | single (a : α) : Tiling first last (first a) (last a) [a]
  | cons (a : α) {hi : Nat} {l : List α} : Tiling first last (last a) hi l →
      Tiling first last (first a) hi (a :: l)

namespace Tiling

variable {α : Type} {first last : α → Nat} {lo hi : Nat} {l : List α}

theorem le (h : Tiling first last lo hi l) (hle : ∀ a ∈ l, first a ≤ last a) : lo ≤ hi := by
  induction h with
  | single a => exact hle a (by simp)
  | cons a _ ih => exact Nat.le_trans (hle a (by simp)) (ih fun b hb => hle b (by simp [hb]))

/--
The intervals cover exactly the numbers from `lo` to before `hi`.
-/
theorem mem_iff (h : Tiling first last lo hi l) (hle : ∀ a ∈ l, first a ≤ last a) (x : Nat)
    : (∃ a ∈ l, first a ≤ x ∧ x < last a) ↔ lo ≤ x ∧ x < hi := by
  induction h with
  | single a => simp
  | @cons a hi l hrest ih =>
    have hrestle := hrest.le fun b hb => hle b (by simp [hb])
    have hale := hle a (by simp)
    have ih := ih fun b hb => hle b (by simp [hb])
    constructor
    . rintro ⟨b, hb, hx⟩
      rcases List.mem_cons.mp hb with rfl | hb
      . omega
      . have := ih.mp ⟨b, hb, hx⟩
        omega
    . intro hx
      rcases Nat.lt_or_ge x (last a) with hlt | hge
      . exact ⟨a, by simp, hx.1, hlt⟩
      . rcases ih.mpr ⟨hge, hx.2⟩ with ⟨b, hb, hbx⟩
        exact ⟨b, by simp [hb], hbx⟩

theorem congr {first' last' : α → Nat} (h : Tiling first last lo hi l)
    (heq : ∀ a ∈ l, first' a = first a ∧ last' a = last a) : Tiling first' last' lo hi l := by
  induction h with
  | single a =>
    rw [← (heq a (by simp)).1, ← (heq a (by simp)).2]
    exact .single a
  | cons a _ ih =>
    have ih := ih fun b hb => heq b (by simp [hb])
    rw [← (heq a (by simp)).2] at ih
    rw [← (heq a (by simp)).1]
    exact .cons a ih

end Tiling
