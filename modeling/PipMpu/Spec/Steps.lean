import PipMpu.Spec.Ops.Split
import PipMpu.Spec.Ops.Join
import PipMpu.Spec.Ops.Access
import PipMpu.Spec.Ops.Partition
import PipMpu.Spec.Ops.Structure
import PipMpu.Spec.Ops.Share
import PipMpu.Spec.Sep
import PipMpu.Util.System

/-!
This module contains the transitions of the abstract view, each with its guard, and the invariance
theorem: every transition preserves the invariant.
-/

namespace Conf

def switch (C : Conf) (p : Nat) : Conf := { C with cur := p }

inductive Step (C : Conf) : Conf → Prop where
  | switch {p : Nat} : C.Live p → Step C (C.switch p)
  /-- The order of the free slots does not matter. -/
  | permute {p : Nat} {l : List Nat} : l.Perm (C.free p) → Step C (C.setFree p l)
  | cut {p b f cutAddr : Nat} {rest : List Nat} : C.CanSplit p b f cutAddr rest →
      Step C (C.cut p b f cutAddr rest)
  | merge {p b₁ b₂ : Nat} : C.CanJoin p b₁ b₂ → (C.slot b₁).accessible = true →
      Step C (C.merge p b₁ b₂)
  | access {p b : Nat} {v : Bool} : C.CanAccess p b v → Step C (C.access p b v)
  | addPartition {p b : Nat} : C.CanAddPartition p b → Step C (C.addPartition p b)
  | dropPartition {c : Nat} : C.CanDrop c → Step C (C.dropPartition c)
  | link {t p b : Nat} : C.CanLink t p b → Step C (C.link t p b)
  | unlink {t k b : Nat} : C.CanUnlink t k b → Step C (C.unlink t k b)
  | share {p b c f : Nat} {rest : List Nat} {r w x : Bool} : C.CanShare p b c f rest r w x →
      Step C (C.share b c f rest r w x)
  | unshare {p b c l : Nat} : C.CanUnshare p b c l → Step C (C.unshare b c l)

/--
The transitions that take something away or change who may access a block.
-/
inductive Move (C : Conf) : Conf → Prop where
  | permute {p : Nat} {l : List Nat} : l.Perm (C.free p) → Move C (C.setFree p l)
  | merge {p b₁ b₂ : Nat} : C.CanJoin p b₁ b₂ → (C.slot b₁).accessible = true →
      Move C (C.merge p b₁ b₂)
  | access {p b : Nat} {v : Bool} : C.CanAccess p b v → Move C (C.access p b v)
  | dropPartition {c : Nat} : C.CanDrop c → Move C (C.dropPartition c)
  | unlink {t k b : Nat} : C.CanUnlink t k b → Move C (C.unlink t k b)
  | unshare {p b c l : Nat} : C.CanUnshare p b c l → Move C (C.unshare b c l)

variable {C : Conf}

theorem Move.step {C' : Conf} (h : C.Move C') : C.Step C' := by
  cases h with
  | permute hl => exact .permute hl
  | merge h hacc => exact .merge h hacc
  | access h => exact .access h
  | dropPartition h => exact .dropPartition h
  | unlink h => exact .unlink h
  | unshare h => exact .unshare h

theorem Move.steps {C' : Conf} (h : Relation.ReflTransGen Move C C')
    : Relation.ReflTransGen Step C C' := by
  induction h with
  | refl => exact .refl
  | tail _ hmove ih => exact ih.tail hmove.step

theorem Apart.switch (hC : C.Apart) (p : Nat) : (C.switch p).Apart :=
  ⟨hC.live_ne_zero, hC.parent_live, hC.depth_parent, hC.depth_le, hC.structures_length, hC.structure_ne_zero,
    hC.structures_disjoint, hC.free_nodup, hC.free_sub⟩

theorem Inv.switch (hC : C.Inv) {p : Nat} (hp : C.Live p) : (C.switch p).Inv := by
  rcases hC with ⟨⟨-, h₂, h₃, h₄, h₅, h₆, h₇, h₈, h₉, h₁₀, h₁₁, h₁₂, h₁₃, h₁₄, h₁₅, h₁₆, h₁₇, h₁₈,
    h₁₉, h₂₀, h₂₁, h₂₂, h₂₃, h₂₄, h₂₅, h₂₆, h₂₇, h₂₈⟩, ⟨hflag, hgiven, hown⟩, hcoh⟩
  have hhosts : ∀ q a B, (C.switch p).Hosts q a B ↔ C.Hosts q a B := by
    intro q a B
    constructor
    . rintro ⟨h₁, h₂, h₃, h₄, h₅, h₆, h₇, h₈⟩
      exact ⟨h₁, h₂, h₃, h₄, h₅, h₆, h₇, h₈⟩
    . rintro ⟨h₁, h₂, h₃, h₄, h₅, h₆, h₇, h₈⟩
      exact ⟨h₁, h₂, h₃, h₄, h₅, h₆, h₇, h₈⟩
  refine ⟨⟨hp, h₂, h₃, h₄, h₅, h₆, h₇, h₈, h₉, h₁₀, h₁₁, h₁₂, h₁₃, ?_, h₁₅, h₁₆, h₁₇, h₁₈, ?_,
    h₂₀, h₂₁, h₂₂, h₂₃, h₂₄, h₂₅, h₂₆, h₂₇, h₂₈⟩, ⟨hflag, hgiven, hown⟩, ?_⟩
  . intro q k hq hk
    rcases h₁₄ q k hq hk with h | ⟨H, h⟩
    . exact Or.inl h
    . exact Or.inr ⟨H, h.transfer rfl rfl rfl id fun _ => id⟩
  . intro q a hq ha
    rcases h₁₉ q a hq ha with ⟨B, hB⟩
    exact ⟨B, (hhosts q a B).mpr hB⟩
  . intro q a hq ha B hB
    exact hcoh q a hq ha B ((hhosts q a B).mp hB)

theorem Inv.permute (hC : C.Inv) {p : Nat} {l : List Nat} (hl : l.Perm (C.free p))
    : (C.setFree p l).Inv := by
  rcases hC with ⟨⟨h₁, h₂, h₃, h₄, h₅, h₆, h₇, h₈, h₉, h₁₀, h₁₁, h₁₂, h₁₃, h₁₄, h₁₅, h₁₆, h₁₇, h₁₈,
    h₁₉, h₂₀, h₂₁, h₂₂, h₂₃, h₂₄, h₂₅, hnodup, hmem, h₂₈⟩, ⟨hflag, hgiven, hown⟩, hcoh⟩
  have hhosts : ∀ q a B, (C.setFree p l).Hosts q a B ↔ C.Hosts q a B := by
    intro q a B
    constructor
    . rintro ⟨h₁, h₂, h₃, h₄, h₅, h₆, h₇, h₈⟩
      exact ⟨h₁, h₂, h₃, h₄, h₅, h₆, h₇, h₈⟩
    . rintro ⟨h₁, h₂, h₃, h₄, h₅, h₆, h₇, h₈⟩
      exact ⟨h₁, h₂, h₃, h₄, h₅, h₆, h₇, h₈⟩
  refine ⟨⟨h₁, h₂, h₃, h₄, h₅, h₆, h₇, h₈, h₉, h₁₀, h₁₁, h₁₂, h₁₃, ?_, h₁₅, h₁₆, h₁₇, h₁₈, ?_,
    h₂₀, h₂₁, h₂₂, h₂₃, h₂₄, h₂₅, ?_, ?_, h₂₈⟩, ⟨hflag, hgiven, hown⟩, ?_⟩
  . intro q k hq hk
    rcases h₁₄ q k hq hk with h | ⟨H, h⟩
    . exact Or.inl h
    . exact Or.inr ⟨H, h.transfer rfl rfl rfl id fun _ => id⟩
  . intro q a hq ha
    rcases h₁₉ q a hq ha with ⟨B, hB⟩
    exact ⟨B, (hhosts q a B).mpr hB⟩
  . intro q hq
    by_cases hqp : q = p
    . subst hqp
      simp only [setFree, if_true]
      exact hl.nodup_iff.mpr (hnodup q hq)
    . simp only [setFree, hqp, if_false]
      exact hnodup q hq
  . intro q a hq
    by_cases hqp : q = p
    . subst hqp
      simp only [setFree, if_true]
      rw [hl.mem_iff]
      exact hmem q a hq
    . simp only [setFree, hqp, if_false]
      exact hmem q a hq
  . intro q a hq ha B hB
    exact hcoh q a hq ha B ((hhosts q a B).mp hB)

theorem Inv.step (hC : C.Inv) {C' : Conf} (h : C.Step C') : C'.Inv := by
  cases h with
  | switch hp => exact hC.switch hp
  | permute hl => exact hC.permute hl
  | cut h => exact hC.cut h
  | merge h hacc => exact hC.merge h hacc
  | access h => exact hC.access h
  | addPartition h => exact hC.addPartition h
  | dropPartition h => exact hC.dropPartition h
  | link h => exact hC.link h
  | unlink h => exact hC.unlink h
  | share h => exact hC.share h
  | unshare h => exact hC.unshare h

theorem Inv.steps (hC : C.Inv) {C' : Conf} (h : Relation.ReflTransGen Step C C') : C'.Inv := by
  have hnext : ∀ C C' : Conf, C.Inv → C.Step C' → C'.Inv := fun _ _ hinv hstep => hinv.step hstep
  exact System.invariant_of_reflTransGen hnext hC h

end Conf
