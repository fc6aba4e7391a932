import Mathlib.Data.Set.Basic
import Mathlib.Logic.Relation

/-!
This module contains nested families of blocks: the partitions of a tree each hold blocks, and every
block of a partition below the root lies in a block that the parent lends to this very partition.
Two blocks of such a family that share a point are equal, or one of them lies in the other one,
and the holders of a point are the partitions on a path that starts at the root.
-/

/--
A family of blocks over the points `X`, `mem p b` says that `p` holds the block `b`, and `lent b p`
that the holder of `b` lends it to `p`.
-/
structure Nest (π β X : Type*) where
  root : π
  parent : π → π
  level : π → Nat
  mem : π → β → Prop
  range : β → Set X
  lent : β → π → Prop
  level_root {p : π} {b : β} : mem p b → (level p = 0 ↔ p = root)
  level_parent {p : π} {b : β} : mem p b → p ≠ root → level p = level (parent p) + 1
  lent_unique {b : β} {p q : π} : lent b p → lent b q → p = q
  disjoint {p : π} {a b : β} {x : X} : mem p a → mem p b → x ∈ range a → x ∈ range b → a = b
  host {p : π} {b : β} : mem p b → p ≠ root →
    ∃ B, mem (parent p) B ∧ lent B p ∧ range b ⊆ range B

namespace Nest

variable {π β X : Type*} (N : Nest π β X) {p q : π} {a b : β} {x : X}

/--
Blocks of one level of the tree that share a point are the same block of the same partition.
-/
theorem eq_of_level_eq (ha : N.mem p a) (hb : N.mem q b) (hlevel : N.level p = N.level q)
    (hxa : x ∈ N.range a) (hxb : x ∈ N.range b) : p = q ∧ a = b := by
  induction hn : N.level p generalizing p q a b with
  | zero =>
    have hp : p = N.root := (N.level_root ha).mp hn
    have hq : q = N.root := (N.level_root hb).mp (by omega)
    subst hp hq
    exact ⟨rfl, N.disjoint ha hb hxa hxb⟩
  | succ n ih =>
    have hp : p ≠ N.root := by
      intro h
      have := (N.level_root ha).mpr h
      omega
    have hq : q ≠ N.root := by
      intro h
      have := (N.level_root hb).mpr h
      omega
    rcases N.host ha hp with ⟨A, hA, hAp, haA⟩
    rcases N.host hb hq with ⟨B, hB, hBq, hbB⟩
    have hpn := N.level_parent ha hp
    have hqn := N.level_parent hb hq
    rcases ih hA hB (by omega) (haA hxa) (hbB hxb) (by omega) with ⟨-, hAB⟩
    subst hAB
    have hpq := N.lent_unique hAp hBq
    subst hpq
    exact ⟨rfl, N.disjoint ha hb hxa hxb⟩

/--
A block that shares a point with one further up lies in it, and the one further up is lent.
-/
theorem nested_of_level_lt (ha : N.mem p a) (hb : N.mem q b) (hlevel : N.level q < N.level p)
    (hxa : x ∈ N.range a) (hxb : x ∈ N.range b)
    : N.range a ⊆ N.range b ∧ ∃ r, N.lent b r := by
  induction hn : N.level p generalizing p a with
  | zero => omega
  | succ n ih =>
    have hp : p ≠ N.root := by
      intro h
      have := (N.level_root ha).mpr h
      omega
    rcases N.host ha hp with ⟨A, hA, hAp, haA⟩
    have hpn := N.level_parent ha hp
    by_cases hq : N.level q = n
    . rcases N.eq_of_level_eq hA hb (by omega) (haA hxa) hxb with ⟨-, hAb⟩
      subst hAb
      exact ⟨haA, p, hAp⟩
    . rcases ih hA (by omega) (haA hxa) (by omega) with ⟨hAb, hlent⟩
      exact ⟨haA.trans hAb, hlent⟩

theorem overlap (ha : N.mem p a) (hb : N.mem q b) (hxa : x ∈ N.range a) (hxb : x ∈ N.range b)
    : (p = q ∧ a = b)
        ∨ (N.level q < N.level p ∧ N.range a ⊆ N.range b ∧ ∃ r, N.lent b r)
        ∨ (N.level p < N.level q ∧ N.range b ⊆ N.range a ∧ ∃ r, N.lent a r) := by
  rcases Nat.lt_trichotomy (N.level p) (N.level q) with h | h | h
  . exact Or.inr (Or.inr ⟨h, N.nested_of_level_lt hb ha h hxb hxa⟩)
  . exact Or.inl (N.eq_of_level_eq ha hb h hxa hxb)
  . exact Or.inr (Or.inl ⟨h, N.nested_of_level_lt ha hb h hxa hxb⟩)

/--
Blocks that are not lent are equal as soon as they share a point.
-/
theorem eq_of_not_lent (ha : N.mem p a) (hb : N.mem q b) (hna : ∀ r, ¬N.lent a r)
    (hnb : ∀ r, ¬N.lent b r) (hxa : x ∈ N.range a) (hxb : x ∈ N.range b) : p = q ∧ a = b := by
  rcases N.overlap ha hb hxa hxb with h | ⟨-, -, r, hr⟩ | ⟨-, -, r, hr⟩
  . exact h
  . exact absurd hr (hnb r)
  . exact absurd hr (hna r)

/--
A property of the blocks that goes from a lent block to the blocks inside of it goes down to all
blocks that share a point with it.
-/
theorem inherit {P : β → Prop}
    (hP : ∀ p a B, N.mem p a → p ≠ N.root → N.mem (N.parent p) B → N.lent B p →
      N.range a ⊆ N.range B → P B → P a)
    (ha : N.mem p a) (hb : N.mem q b) (hlevel : N.level q ≤ N.level p) (hxa : x ∈ N.range a)
    (hxb : x ∈ N.range b) (h : P b) : P a := by
  induction hn : N.level p generalizing p a with
  | zero =>
    rcases N.eq_of_level_eq ha hb (by omega) hxa hxb with ⟨-, hab⟩
    rw [hab]
    exact h
  | succ n ih =>
    by_cases hq : N.level q = n + 1
    . rcases N.eq_of_level_eq ha hb (by omega) hxa hxb with ⟨-, hab⟩
      rw [hab]
      exact h
    . have hp : p ≠ N.root := by
        intro hroot
        have := (N.level_root ha).mpr hroot
        omega
      rcases N.host ha hp with ⟨A, hA, hAp, haA⟩
      have hpn := N.level_parent ha hp
      apply hP p a A ha hp hA hAp haA
      exact ih hA (by omega) (haA hxa) (by omega)

/-
The holders of a point
-/

def Child (p q : π) : Prop := q ≠ N.root ∧ N.parent q = p

/--
The partitions above a holder of a point hold it as well.
-/
theorem holder_of_path (hpath : Relation.ReflTransGen N.Child q p) (ha : N.mem p a) (hxa : x ∈ N.range a)
    : ∃ B, N.mem q B ∧ x ∈ N.range B := by
  induction hpath generalizing a with
  | refl => exact ⟨a, ha, hxa⟩
  | tail _ hchild ih =>
    rcases hchild with ⟨hroot, rfl⟩
    rcases N.host ha hroot with ⟨A, hA, -, haA⟩
    exact ih hA (haA hxa)

/--
The way from a holder of a point down to another one.
-/
theorem path_of_level_le (ha : N.mem p a) (hb : N.mem q b) (hlevel : N.level q ≤ N.level p)
    (hxa : x ∈ N.range a) (hxb : x ∈ N.range b) : Relation.ReflTransGen N.Child q p := by
  induction hn : N.level p generalizing p a with
  | zero =>
    rw [(N.eq_of_level_eq ha hb (by omega) hxa hxb).1]
  | succ n ih =>
    by_cases hq : N.level q = n + 1
    . rw [(N.eq_of_level_eq ha hb (by omega) hxa hxb).1]
    . have hp : p ≠ N.root := by
        intro hroot
        have := (N.level_root ha).mpr hroot
        omega
      rcases N.host ha hp with ⟨A, hA, -, haA⟩
      have hpn := N.level_parent ha hp
      exact (ih hA (by omega) (haA hxa) (by omega)).tail ⟨hp, rfl⟩

/--
The holders of a point of a block that is not lent are the partitions on the way to its holder.
-/
theorem holder_iff_path (ha : N.mem p a) (hna : ∀ r, ¬N.lent a r) (hxa : x ∈ N.range a)
    : (∃ B, N.mem q B ∧ x ∈ N.range B) ↔ Relation.ReflTransGen N.Child q p := by
  constructor
  . rintro ⟨B, hB, hxB⟩
    apply N.path_of_level_le ha hB _ hxa hxB
    by_contra hlevel
    rcases (N.nested_of_level_lt hB ha (by omega) hxB hxa).2 with ⟨r, hr⟩
    exact hna r hr
  . exact fun hpath => N.holder_of_path hpath ha hxa

end Nest
