import PipMpu.Spec.Reclaim

/-!
This module contains the view after several blocks of a partition were taken back. It does not depend on the order in
which this was done.
-/

namespace Conf

variable {C : Conf} {p : Nat} {G G' : Nat → Prop}

open scoped Classical in
/--
Nobody has been given the blocks in `G`.
-/
noncomputable def clearAll (C : Conf) (G : Nat → Prop) : Conf :=
  { C with slot := fun a => if G a then (C.slot a).clearSh1 else C.slot a }

/--
Take the blocks in `G` of `p` back.
-/
noncomputable def reclaimAll (C : Conf) (p : Nat) (G : Nat → Prop) : Conf :=
  (C.clearAll G).setAccessible (fun a => ∃ g, G g ∧ C.Reclaims p g a) true

theorem clearAll_slot_of_mem {a : Nat} (h : G a) : (C.clearAll G).slot a = (C.slot a).clearSh1 :=
  if_pos h

theorem clearAll_slot_of_notMem {a : Nat} (h : ¬G a) : (C.clearAll G).slot a = C.slot a :=
  if_neg h

theorem clearAll_fields (C : Conf) (G : Nat → Prop) (a : Nat)
    : ((C.clearAll G).slot a).startAddr = (C.slot a).startAddr
        ∧ ((C.clearAll G).slot a).endAddr = (C.slot a).endAddr
        ∧ ((C.clearAll G).slot a).present = (C.slot a).present
        ∧ (((C.clearAll G).slot a).Uncut ↔ (C.slot a).Uncut) := by
  simp only [clearAll]
  split <;> exact ⟨rfl, rfl, rfl, Iff.rfl⟩

theorem clearAll_has (C : Conf) (G : Nat → Prop) (q a : Nat) : (C.clearAll G).Has q a ↔ C.Has q a := by
  show C.Owns q a ∧ _ ↔ _
  rw [(C.clearAll_fields G a).2.2.1]
  rfl

theorem clearAll_of_none (h : ∀ a, ¬G a) : C.clearAll G = C := by
  refine Conf.ext rfl rfl rfl rfl rfl rfl rfl rfl ?_
  funext a
  exact clearAll_slot_of_notMem (h a)

theorem clearAll_clearAll : (C.clearAll G).clearAll G' = C.clearAll fun a => G a ∨ G' a := by
  refine Conf.ext rfl rfl rfl rfl rfl rfl rfl rfl ?_
  funext a
  by_cases hG : G a
  . rw [clearAll_slot_of_mem (G := fun a => G a ∨ G' a) (.inl hG)]
    by_cases hG' : G' a
    . rw [clearAll_slot_of_mem hG', clearAll_slot_of_mem hG]
      rfl
    . rw [clearAll_slot_of_notMem hG', clearAll_slot_of_mem hG]
  . by_cases hG' : G' a
    . rw [clearAll_slot_of_mem hG', clearAll_slot_of_mem (G := fun a => G a ∨ G' a) (.inr hG'),
        clearAll_slot_of_notMem hG]
    . rw [clearAll_slot_of_notMem hG', clearAll_slot_of_notMem hG, clearAll_slot_of_notMem]
      exact fun h => h.elim hG hG'

theorem clearAll_setAccessible (C : Conf) (G S : Nat → Prop) (v : Bool)
    : (C.setAccessible S v).clearAll G = (C.clearAll G).setAccessible S v := by
  refine Conf.ext rfl rfl rfl rfl rfl rfl rfl rfl ?_
  funext a
  by_cases hG : G a
  . by_cases hS : S a
    . rw [clearAll_slot_of_mem hG, setAccessible.slot_of_mem _ _ _ _ hS, setAccessible.slot_of_mem _ _ _ _ hS,
        clearAll_slot_of_mem hG]
      rfl
    . rw [clearAll_slot_of_mem hG, setAccessible.slot_of_notMem _ _ _ _ hS, setAccessible.slot_of_notMem _ _ _ _ hS,
        clearAll_slot_of_mem hG]
  . by_cases hS : S a
    . rw [clearAll_slot_of_notMem hG, setAccessible.slot_of_mem _ _ _ _ hS, setAccessible.slot_of_mem _ _ _ _ hS,
        clearAll_slot_of_notMem hG]
    . rw [clearAll_slot_of_notMem hG, setAccessible.slot_of_notMem _ _ _ _ hS, setAccessible.slot_of_notMem _ _ _ _ hS,
        clearAll_slot_of_notMem hG]

/--
Which blocks become accessible is a matter of the bounds of the blocks only.
-/
theorem reclaims_reclaimAll (C : Conf) (p : Nat) (G : Nat → Prop) (q g a : Nat)
    : (C.reclaimAll p G).Reclaims q g a ↔ C.Reclaims q g a := by
  have habove : ∀ lo hi, (C.reclaimAll p G).Above lo hi q = C.Above lo hi q := by
    intro lo hi
    unfold reclaimAll
    rw [above_setAccessible]
    apply above_eq
    case hhas => exact C.clearAll_has G
    case hstart => exact fun x => (C.clearAll_fields G x).1
    case hend => exact fun x => (C.clearAll_fields G x).2.1
    all_goals rfl
  unfold Reclaims
  rw [habove]
  unfold reclaimAll
  rw [setAccessible.uncut, setAccessible.startAddr, setAccessible.endAddr, (C.clearAll_fields G g).1,
    (C.clearAll_fields G g).2.1, (C.clearAll_fields G g).2.2.2]

theorem reclaimAll_reclaimAll
    : (C.reclaimAll p G).reclaimAll p G' = C.reclaimAll p fun a => G a ∨ G' a := by
  have hsets : (fun a => (∃ g, G g ∧ C.Reclaims p g a) ∨ ∃ g, G' g ∧ (C.reclaimAll p G).Reclaims p g a) =
      fun a => ∃ g, (G g ∨ G' g) ∧ C.Reclaims p g a := by
    funext a
    simp only [reclaims_reclaimAll]
    apply propext
    constructor
    . rintro (⟨g, hg, ha⟩ | ⟨g, hg, ha⟩)
      . exact ⟨g, .inl hg, ha⟩
      . exact ⟨g, .inr hg, ha⟩
    . rintro ⟨g, hg | hg, ha⟩
      . exact .inl ⟨g, hg, ha⟩
      . exact .inr ⟨g, hg, ha⟩
  unfold reclaimAll at hsets ⊢
  rw [clearAll_setAccessible, clearAll_clearAll, setAccessible_setAccessible, hsets]

theorem reclaim_eq_reclaimAll (C : Conf) (p a : Nat) : C.reclaim p a = C.reclaimAll p (· = a) := by
  have hclear : C.setSlot a (C.slot a).clearSh1 = C.clearAll (· = a) := by
    refine Conf.ext rfl rfl rfl rfl rfl rfl rfl rfl ?_
    funext x
    by_cases hx : x = a
    . rw [clearAll_slot_of_mem (G := (· = a)) hx, hx, setSlot_slot_self]
    . rw [clearAll_slot_of_notMem (G := (· = a)) hx, setSlot_slot_of_ne _ _ hx]
  have hset : (fun x => ∃ g, g = a ∧ C.Reclaims p g x) = C.Reclaims p a := by
    funext x
    simp
  rw [reclaim_eq, hclear, ← hset]
  rfl

theorem reclaimAll_of_none (h : ∀ a, ¬G a) : C.reclaimAll p G = C := by
  unfold reclaimAll
  rw [setAccessible_of_empty, clearAll_of_none h]
  rintro a ⟨g, hg, -⟩
  exact h g hg

namespace reclaimAll

theorem slot_of_mem {a : Nat} (h : G a)
    : (C.reclaimAll p G).slot a = { (C.slot a).clearSh1 with accessible := true } := by
  unfold reclaimAll
  rw [setAccessible.slot_of_mem _ _ _ _ ⟨a, h, .inl rfl⟩, clearAll_slot_of_mem h]

theorem slot_of_above {a g : Nat} (ha : ¬G a) (hg : G g) (huncut : (C.slot g).Uncut)
    (habove : C.Above (C.slot g).startAddr (C.slot g).endAddr p a)
    : (C.reclaimAll p G).slot a = { C.slot a with accessible := true } := by
  unfold reclaimAll
  rw [setAccessible.slot_of_mem _ _ _ _ ⟨g, hg, .inr ⟨huncut, habove⟩⟩, clearAll_slot_of_notMem ha]

theorem slot_other {a : Nat} (ha : ¬G a)
    (hnone : ∀ g, G g → (C.slot g).Uncut → ¬C.Above (C.slot g).startAddr (C.slot g).endAddr p a)
    : (C.reclaimAll p G).slot a = C.slot a := by
  unfold reclaimAll
  rw [setAccessible.slot_of_notMem, clearAll_slot_of_notMem ha]
  rintro ⟨g, hg, rfl | ⟨huncut, habove⟩⟩
  . exact ha hg
  . exact hnone g hg huncut habove

/--
Only the records of the blocks in `G` change.
-/
theorem records {a : Nat} (ha : ¬G a)
    : ((C.reclaimAll p G).slot a).PDchild = (C.slot a).PDchild
        ∧ ((C.reclaimAll p G).slot a).PDflag = (C.slot a).PDflag := by
  unfold reclaimAll
  rw [setAccessible.PDchild, setAccessible.PDflag, clearAll_slot_of_notMem ha]
  exact ⟨rfl, rfl⟩

end reclaimAll

end Conf
