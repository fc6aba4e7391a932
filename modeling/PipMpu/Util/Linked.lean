import Mathlib.Data.List.Nodup
import Mathlib.Data.List.Infix

/-!
This module contains linked lists in memory: `Linked next x l` says that following `next` from `x`
visits exactly the cells of `l`, in this order, and ends at 0.
-/

def Linked (next : Nat → Nat) : Nat → List Nat → Prop
  | x, [] => x = 0
  | x, cell :: rest => x = cell ∧ cell ≠ 0 ∧ Linked next (next cell) rest

instance Linked.decidable {next : Nat → Nat} : (x : Nat) → (l : List Nat) → Decidable (Linked next x l)
  | x, [] => inferInstanceAs (Decidable (x = 0))
  | x, cell :: rest =>
    have := @Linked.decidable next (next cell) rest
    inferInstanceAs (Decidable (x = cell ∧ cell ≠ 0 ∧ Linked next (next cell) rest))

/--
The cells that can be reached from `x` by following `next`.
-/
inductive LinkReach (next : Nat → Nat) (x : Nat) : Nat → Prop where
  | first : x ≠ 0 → LinkReach next x x
  | next {cell : Nat} : LinkReach next x cell → next cell ≠ 0 → LinkReach next x (next cell)

theorem LinkReach.eq_of_next_eq_zero {next : Nat → Nat} {x cell : Nat} (h : LinkReach next x cell)
    (hx : next x = 0) : cell = x := by
  induction h with
  | first _ => rfl
  | next _ hne ih =>
    rw [ih] at hne
    exact absurd hx hne

namespace Linked

variable {next next' : Nat → Nat} {x : Nat} {l : List Nat}

@[simp]
theorem linked_nil : Linked next x [] ↔ x = 0 := by
  rfl

@[simp]
theorem linked_cons {cell : Nat} {rest : List Nat}
    : Linked next x (cell :: rest) ↔ x = cell ∧ cell ≠ 0 ∧ Linked next (next cell) rest := by
  rfl

theorem congr (h : Linked next x l) (hnext : ∀ cell ∈ l, next' cell = next cell)
    : Linked next' x l := by
  induction l generalizing x with
  | nil => exact h
  | cons cell rest ih =>
    rcases h with ⟨hx, hne, hrest⟩
    refine ⟨hx, hne, ?_⟩
    rw [hnext cell (by simp)]
    apply ih hrest
    intro other hother
    apply hnext
    simp [hother]

theorem unique {l' : List Nat} (h : Linked next x l) (h' : Linked next x l') : l = l' := by
  induction l generalizing x l' with
  | nil =>
    cases l' with
    | nil => rfl
    | cons cell rest =>
      rcases h' with ⟨hx, hne, -⟩
      exact absurd (hx.symm.trans h) hne
  | cons cell rest ih =>
    rcases h with ⟨hx, hne, hrest⟩
    cases l' with
    | nil => exact absurd (hx.symm.trans h') hne
    | cons cell' rest' =>
      rcases h' with ⟨hx', -, hrest'⟩
      have hcell : cell' = cell := by omega
      subst hcell
      rw [ih hrest hrest']

theorem start_eq {x' : Nat} (h : Linked next x l) (h' : Linked next' x' l) : x' = x := by
  cases l with
  | nil => exact h'.trans h.symm
  | cons cell rest => exact h'.1.trans h.1.symm

theorem next_eq {x' : Nat} (h : Linked next x l) (h' : Linked next' x' l) : ∀ cell ∈ l, next' cell = next cell := by
  induction l generalizing x x' with
  | nil => simp
  | cons cell rest ih =>
    intro other hother
    rcases List.mem_cons.mp hother with rfl | hmem
    . exact h.2.2.start_eq h'.2.2
    . exact ih h.2.2 h'.2.2 other hmem

theorem ne_zero (h : Linked next x l) {cell : Nat} (hcell : cell ∈ l) : cell ≠ 0 := by
  induction l generalizing x with
  | nil => simp at hcell
  | cons head rest ih =>
    rcases h with ⟨-, hne, hrest⟩
    cases List.mem_cons.mp hcell with
    | inl heq => rw [heq]; exact hne
    | inr hmem => exact ih hrest hmem

theorem of_append {l₁ l₂ : List Nat} {cell : Nat} (h : Linked next x (l₁ ++ cell :: l₂))
    : Linked next cell (cell :: l₂) := by
  induction l₁ generalizing x with
  | nil =>
    rcases h with ⟨-, hne, hrest⟩
    exact ⟨rfl, hne, hrest⟩
  | cons head rest ih =>
    rcases h with ⟨-, -, hrest⟩
    exact ih hrest

theorem nodup (h : Linked next x l) : l.Nodup := by
  induction l generalizing x with
  | nil => exact List.nodup_nil
  | cons cell rest ih =>
    rcases h with ⟨hx, hne, hrest⟩
    refine List.nodup_cons.mpr ⟨?_, ih hrest⟩
    intro hmem
    -- a second visit would repeat the rest of the list for ever
    rcases List.append_of_mem hmem with ⟨l₁, l₂, hl⟩
    have hshort : Linked next cell (cell :: l₂) := by
      rw [hl] at hrest
      exact of_append hrest
    have hlong : Linked next cell (cell :: rest) := ⟨rfl, hne, hrest⟩
    have heq := unique hlong hshort
    have hlen : (cell :: rest).length = (cell :: l₂).length := by rw [heq]
    rw [hl] at hlen
    simp only [List.length_cons, List.length_append] at hlen
    omega

/--
Updating the link of a cell outside of the list does not change the list.
-/
theorem update_of_notMem (h : Linked next x l) {cell : Nat} (hcell : cell ∉ l)
    (hnext : ∀ other, other ≠ cell → next' other = next other) : Linked next' x l := by
  apply congr h
  intro other hother
  apply hnext
  intro heq
  exact hcell (heq ▸ hother)

/--
A cell is taken out by linking the cell before it to the one after it.
-/
theorem unlink {l₁ l₂ : List Nat} {pred cell : Nat} (h : Linked next x (l₁ ++ pred :: cell :: l₂))
    (hpred : next' pred = next cell) (hnext : ∀ other, other ≠ pred → next' other = next other)
    : Linked next' x (l₁ ++ pred :: l₂) := by
  have hnodup := h.nodup
  induction l₁ generalizing x with
  | nil =>
    rcases h with ⟨hx, hne, -, -, hrest⟩
    refine ⟨hx, hne, ?_⟩
    rw [hpred]
    apply hrest.update_of_notMem _ hnext
    simp only [List.nil_append, List.nodup_cons, List.mem_cons, not_or] at hnodup
    exact hnodup.1.2
  | cons head rest ih =>
    rcases h with ⟨hx, hne, hrest⟩
    refine ⟨hx, hne, ?_⟩
    simp only [List.cons_append, List.nodup_cons] at hnodup
    rw [hnext head]
    . exact ih hrest hnodup.2
    . rintro rfl
      exact hnodup.1 (by simp)

theorem eq_nil (h : Linked next x l) (hx : x = 0) : l = [] := by
  cases l with
  | nil => rfl
  | cons cell rest => exact absurd (h.1.symm.trans hx) h.2.1

theorem head_eq (h : Linked next x l) (hx : x ≠ 0) : ∃ rest, l = x :: rest := by
  cases l with
  | nil => exact absurd h hx
  | cons cell rest => exact ⟨rest, by rw [h.1]⟩

theorem mem_iff_reach (h : Linked next x l) (cell : Nat) : cell ∈ l ↔ LinkReach next x cell := by
  constructor
  . intro hmem
    rcases List.append_of_mem hmem with ⟨l₁, l₂, hl⟩
    subst hl
    clear hmem
    -- walk to the cell, `x` is reached from itself
    suffices hgo : ∀ start, LinkReach next start x ∨ x = start → LinkReach next start cell by
      exact hgo x (Or.inr rfl)
    induction l₁ generalizing x with
    | nil =>
      rcases h with ⟨hx, hne, -⟩
      intro start hstart
      cases hstart with
      | inl hreach => rw [← hx]; exact hreach
      | inr heq =>
        rw [← heq, ← hx]
        exact LinkReach.first (by rw [hx]; exact hne)
    | cons head rest ih =>
      rcases h with ⟨hx, hne, hrest⟩
      intro start hstart
      have hhead : LinkReach next start head := by
        cases hstart with
        | inl hreach => rw [← hx]; exact hreach
        | inr heq =>
          rw [← heq, ← hx]
          exact LinkReach.first (by rw [hx]; exact hne)
      apply ih hrest
      left
      apply LinkReach.next hhead
      cases rest with
      | nil => rw [hrest.1]; exact hrest.2.1
      | cons cell' rest' => rw [hrest.1]; exact hrest.2.1
  . intro hreach
    induction hreach with
    | first hne =>
      rcases head_eq h hne with ⟨rest, hl⟩
      simp [hl]
    | next hcell hne ih =>
      rcases List.append_of_mem ih with ⟨l₁, l₂, hl⟩
      rw [hl] at h ⊢
      rcases of_append h with ⟨-, -, hrest⟩
      rcases head_eq hrest hne with ⟨rest, hl₂⟩
      simp [hl₂]

theorem next_getLast (h : Linked next x l) (hl : l ≠ []) : next (l.getLast hl) = 0 := by
  induction l generalizing x with
  | nil => exact absurd rfl hl
  | cons cell rest ih =>
    rcases h with ⟨-, -, hrest⟩
    cases rest with
    | nil => exact hrest
    | cons cell' rest' =>
      rw [List.getLast_cons (by simp)]
      exact ih hrest (by simp)

/--
What holds of the first cell and is passed on along the links holds of every cell.
-/
theorem forall_mem (h : Linked next x l) {P : Nat → Prop} (hfirst : x ≠ 0 → P x)
    (hnext : ∀ cell, P cell → next cell ≠ 0 → P (next cell)) : ∀ cell ∈ l, P cell := by
  induction l generalizing x with
  | nil => simp
  | cons cell rest ih =>
    rcases h with ⟨rfl, hne, hrest⟩
    intro other hother
    have hx := hfirst hne
    rcases List.mem_cons.mp hother with rfl | hmem
    . exact hx
    . exact ih hrest (hnext x hx) other hmem

end Linked
