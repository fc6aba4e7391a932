import PipMpu.Spec.Bounds
import PipMpu.Spec.Walk

/-!
This module contains the part of the invariant that also holds in the middle of a service, when the
links between the blocks of a partition and of its child do not agree yet: the structures lie apart,
the blocks of a partition lie apart, and the free slots are not present.
-/

namespace Conf

variable {C : Conf}

structure Apart (C : Conf) : Prop where
  live_ne_zero : ∀ p, C.Live p → p ≠ 0
  parent_live : ∀ p, C.Live p → p ≠ C.root → C.Live (C.parent p)
  depth_parent : ∀ p, C.Live p → p ≠ C.root → C.depth p = C.depth (C.parent p) + 1
  depth_le : ∀ p, C.Live p → C.depth p ≤ 513
  structures_length : ∀ p, C.Live p → (C.structures p).length ≤ 8
  structure_ne_zero : ∀ p k, C.Live p → k ∈ C.structures p → k ≠ 0
  structures_disjoint : ∀ p q k k' x, C.Live p → C.Live q → k ∈ C.structures p →
    k' ∈ C.structures q → x ∈ structureRange k → x ∈ structureRange k' → p = q ∧ k = k'
  free_nodup : ∀ p, C.Live p → (C.free p).Nodup
  free_sub : ∀ p a, C.Live p → a ∈ C.free p → C.Owns p a ∧ (C.slot a).present = false

structure Sep (C : Conf) : Prop extends C.Apart where
  start_lt : ∀ p a, C.Has p a → (C.slot a).startAddr < (C.slot a).endAddr
  disjoint : ∀ p a b, C.Has p a → C.Has p b → a ≠ b →
    (C.slot a).endAddr ≤ (C.slot b).startAddr ∨ (C.slot b).endAddr ≤ (C.slot a).startAddr

theorem Static.sep (hC : C.Static) : C.Sep where
  live_ne_zero _ hp := hC.live_ne_zero hp
  parent_live := hC.parent_live
  depth_parent := hC.depth_parent
  depth_le _ hp := Nat.le_succ_of_le (hC.depth_le hp)
  structures_length := hC.structures_length
  structure_ne_zero _ _ hp hk := hC.structure_ne_zero hp hk
  structures_disjoint _ _ _ _ _ hp hq hk hk' hx hx' := hC.structures_disjoint hp hq hk hk' hx hx'
  free_nodup := hC.free_nodup
  free_sub p a hp ha := (hC.mem_free p a hp).mp ha
  start_lt := hC.start_lt
  disjoint := hC.disjoint

namespace Apart

theorem owns_ne_zero (hC : C.Apart) {p a : Nat} (h : C.Owns p a) : a ≠ 0 := by
  rcases h with ⟨hp, k, hk, ha⟩
  have := hC.structure_ne_zero p k hp hk
  have := slotsOf_le ha
  omega

theorem owns_unique (hC : C.Apart) {p q a : Nat} (h : C.Owns p a) (h' : C.Owns q a) : p = q := by
  rcases h with ⟨hp, k, hk, ha⟩
  rcases h' with ⟨hq, k', hk', ha'⟩
  exact (hC.structures_disjoint p q k k' a hp hq hk hk' (slotsOf_mem_structureRange ha)
    (slotsOf_mem_structureRange ha')).1

theorem free_length_le (hC : C.Apart) {p : Nat} (hp : C.Live p) : (C.free p).length ≤ 64 := by
  have hsub : (C.free p).Subperm (C.slots p) := by
    apply List.Nodup.subperm (hC.free_nodup p hp)
    intro a ha
    exact (mem_slots hp a).mpr (hC.free_sub p a hp ha).1
  exact hsub.length_le.trans (slots_length_le (hC.structures_length p hp))

theorem notMem_free (hC : C.Apart) {p q a : Nat} (hq : C.Live q) (ha : C.Has p a)
    : a ∉ C.free q := by
  intro hmem
  have := (hC.free_sub q a hq hmem).2
  rw [ha.2] at this
  exact absurd this (by simp)

theorem transfer (hC : C.Apart) (C' : Conf) (hroot : C'.root = C.root) (hlive : C'.Live = C.Live)
    (hparent : C'.parent = C.parent) (hdepth : C'.depth = C.depth)
    (hstructures : C'.structures = C.structures)
    (hnodup : ∀ p, C.Live p → (C'.free p).Nodup)
    (hfree : ∀ p a, C.Live p → a ∈ C'.free p → C.Owns p a ∧ (C'.slot a).present = false)
    : C'.Apart := by
  constructor
  . rw [hlive]
    exact hC.live_ne_zero
  . rw [hlive, hparent, hroot]
    exact hC.parent_live
  . rw [hlive, hparent, hdepth, hroot]
    exact hC.depth_parent
  . rw [hlive, hdepth]
    exact hC.depth_le
  . rw [hlive, hstructures]
    exact hC.structures_length
  . rw [hlive, hstructures]
    exact hC.structure_ne_zero
  . rw [hlive, hstructures]
    exact hC.structures_disjoint
  . rw [hlive]
    exact hnodup
  . intro p a hp ha
    rw [hlive] at hp
    rcases hfree p a hp ha with ⟨h, h'⟩
    refine ⟨?_, h'⟩
    unfold Owns
    rw [hlive, hstructures]
    exact h

end Apart

namespace Sep

theorem mem_range_start (hC : C.Sep) {p a : Nat} (h : C.Has p a)
    : (C.slot a).startAddr ∈ (C.slot a).range := by
  have := hC.start_lt p a h
  constructor <;> omega

theorem eq_of_mem_range (hC : C.Sep) {p a b x : Nat} (ha : C.Has p a) (hb : C.Has p b)
    (hxa : x ∈ (C.slot a).range) (hxb : x ∈ (C.slot b).range) : a = b := by
  by_contra hne
  have := hC.disjoint p a b ha hb hne
  rcases hxa with ⟨h₁, h₂⟩
  rcases hxb with ⟨h₃, h₄⟩
  omega

/--
Blocks may disappear as long as the free slots are kept apart from the ones that stay.
-/
theorem transfer (hC : C.Sep) (C' : Conf) (hroot : C'.root = C.root) (hlive : C'.Live = C.Live)
    (hparent : C'.parent = C.parent) (hdepth : C'.depth = C.depth)
    (hstructures : C'.structures = C.structures)
    (hhas : ∀ p a, C'.Has p a → C.Has p a ∧ (C'.slot a).startAddr = (C.slot a).startAddr ∧
      (C'.slot a).endAddr = (C.slot a).endAddr)
    (hnodup : ∀ p, C.Live p → (C'.free p).Nodup)
    (hfree : ∀ p a, C.Live p → a ∈ C'.free p → C.Owns p a ∧ (C'.slot a).present = false)
    : C'.Sep := by
  constructor
  . exact hC.toApart.transfer C' hroot hlive hparent hdepth hstructures hnodup hfree
  . intro p a ha
    rcases hhas p a ha with ⟨ha, hstart, hend⟩
    rw [hstart, hend]
    exact hC.start_lt p a ha
  . intro p a b ha hb hne
    rcases hhas p a ha with ⟨ha, hstart, hend⟩
    rcases hhas p b hb with ⟨hb, hstart', hend'⟩
    rw [hstart, hend, hstart', hend']
    exact hC.disjoint p a b ha hb hne

theorem setAccessible (hC : C.Sep) (S : Nat → Prop) (v : Bool) : (C.setAccessible S v).Sep := by
  refine hC.transfer _ rfl rfl rfl rfl rfl ?_ ?_ ?_
  . intro p a ha
    simpa using ha
  . exact hC.free_nodup
  . simpa using hC.free_sub

end Sep

/--
The walk only depends on the ancestors of `p` and on the bounds of their blocks.
-/
theorem Sep.above_congr (hC : C.Sep) {C' : Conf} {p : Nat} (hroot : C'.root = C.root)
    (hparent : ∀ q, C.Live q → q ≠ C.root → C'.parent q = C.parent q)
    (hhas : ∀ q a, C.depth q < C.depth p → (C'.Has q a ↔ C.Has q a))
    (hbounds : ∀ q a, C.depth q < C.depth p → C.Has q a →
      (C'.slot a).startAddr = (C.slot a).startAddr ∧ (C'.slot a).endAddr = (C.slot a).endAddr)
    (hp : C.Live p) (lo hi A : Nat) : C'.Above lo hi p A ↔ C.Above lo hi p A := by
  constructor
  . intro h
    induction h with
    | @parent p A hne hA hstart hend =>
      rw [hroot] at hne
      have hdepth := hC.depth_parent p hp hne
      rw [hparent _ hp hne, hhas _ _ (by omega)] at hA
      have := hbounds _ _ (by omega) hA
      rw [this.1] at hstart
      rw [this.2] at hend
      exact Above.parent hne hA hstart hend
    | @further p A A' hne hA hstart hend _ ih =>
      rw [hroot] at hne
      have hdepth := hC.depth_parent p hp hne
      rw [hparent _ hp hne] at hA ih
      rw [hhas _ _ (by omega)] at hA
      have := hbounds _ _ (by omega) hA
      rw [this.1] at hstart
      rw [this.2] at hend
      exact Above.further hne hA hstart hend (ih (fun q a hq => hhas q a (by omega))
        (fun q a hq => hbounds q a (by omega)) (hC.parent_live _ hp hne))
  . intro h
    induction h with
    | @parent p A hne hA hstart hend =>
      have hdepth := hC.depth_parent p hp hne
      have := hbounds _ _ (by omega) hA
      rw [← this.1] at hstart
      rw [← this.2] at hend
      rw [← hhas _ _ (by omega), ← hparent _ hp hne] at hA
      exact Above.parent (hroot ▸ hne) hA hstart hend
    | @further p A A' hne hA hstart hend _ ih =>
      have hdepth := hC.depth_parent p hp hne
      have ih := ih (fun q a hq => hhas q a (by omega)) (fun q a hq => hbounds q a (by omega))
        (hC.parent_live _ hp hne)
      have := hbounds _ _ (by omega) hA
      rw [← this.1] at hstart
      rw [← this.2] at hend
      rw [← hhas _ _ (by omega)] at hA
      rw [← hparent _ hp hne] at hA ih
      exact Above.further (hroot ▸ hne) hA hstart hend ih

/-
Changes of a single slot
-/

def setSlot (C : Conf) (a : Nat) (sl : Slot) : Conf :=
  { C with slot := fun b => if b = a then sl else C.slot b }

def setFree (C : Conf) (p : Nat) (l : List Nat) : Conf :=
  { C with free := fun q => if q = p then l else C.free q }

theorem setSlot_slot_self (C : Conf) (a : Nat) (sl : Slot) : (C.setSlot a sl).slot a = sl := by
  simp [setSlot]

theorem setSlot_slot_of_ne (C : Conf) {a b : Nat} (sl : Slot) (h : b ≠ a)
    : (C.setSlot a sl).slot b = C.slot b := by
  simp [setSlot, h]

theorem setSlot_self (C : Conf) (a : Nat) : C.setSlot a (C.slot a) = C := by
  unfold setSlot
  have : (fun b => if b = a then C.slot a else C.slot b) = C.slot := by
    funext b
    by_cases hb : b = a <;> simp [hb]
  rw [this]

theorem setSlot_setSlot (C : Conf) (a : Nat) (sl sl' : Slot)
    : (C.setSlot a sl).setSlot a sl' = C.setSlot a sl' := by
  unfold setSlot
  simp only [Conf.mk.injEq, true_and]
  funext b
  by_cases hb : b = a <;> simp [hb]

theorem setSlot_has {b : Nat} {sl : Slot} (h : sl.present = (C.slot b).present) (q a : Nat)
    : (C.setSlot b sl).Has q a ↔ C.Has q a := by
  show C.Owns q a ∧ _ ↔ _
  by_cases hab : a = b
  . rw [hab, setSlot_slot_self, h]
    rfl
  . rw [setSlot_slot_of_ne C sl hab]
    rfl

theorem setSlot_startAddr {b : Nat} {sl : Slot} (h : sl.startAddr = (C.slot b).startAddr) (a : Nat)
    : ((C.setSlot b sl).slot a).startAddr = (C.slot a).startAddr := by
  by_cases hab : a = b
  . rw [hab, setSlot_slot_self, h]
  . rw [setSlot_slot_of_ne C sl hab]

theorem setSlot_endAddr {b : Nat} {sl : Slot} (h : sl.endAddr = (C.slot b).endAddr) (a : Nat)
    : ((C.setSlot b sl).slot a).endAddr = (C.slot a).endAddr := by
  by_cases hab : a = b
  . rw [hab, setSlot_slot_self, h]
  . rw [setSlot_slot_of_ne C sl hab]

theorem setFree_slot (C : Conf) (p : Nat) (l : List Nat) : (C.setFree p l).slot = C.slot := by
  rfl

theorem Apart.setSlot (hC : C.Apart) (a : Nat) (sl : Slot)
    (hpresent : sl.present = (C.slot a).present) : (C.setSlot a sl).Apart := by
  refine hC.transfer _ rfl rfl rfl rfl rfl hC.free_nodup ?_
  intro p b hp hb
  have := hC.free_sub p b hp hb
  by_cases hab : b = a
  . rw [hab] at this ⊢
    rw [setSlot_slot_self, hpresent]
    exact this
  . rw [setSlot_slot_of_ne C sl hab]
    exact this

/--
A free slot that becomes a block.
-/
theorem Apart.taken (hC : C.Apart) {p f : Nat} {rest : List Nat} (hp : C.Live p)
    (hfree : C.free p = f :: rest) (sl : Slot) : ((C.setSlot f sl).setFree p rest).Apart := by
  have hf := hC.free_sub p f hp (by rw [hfree]; simp)
  have hnodup := hC.free_nodup p hp
  rw [hfree, List.nodup_cons] at hnodup
  refine hC.transfer _ rfl rfl rfl rfl rfl ?_ ?_
  . intro q hq
    by_cases hqp : q = p
    . simp only [setFree, hqp, if_true]
      exact hnodup.2
    . simp only [setFree, hqp, if_false]
      exact hC.free_nodup q hq
  . intro q a hq ha
    rw [setFree_slot]
    have hsub : a ∈ C.free q ∧ a ≠ f := by
      by_cases hqp : q = p
      . simp only [setFree, hqp, if_true] at ha
        refine ⟨by rw [hqp, hfree]; simp [ha], ?_⟩
        intro haf
        exact hnodup.1 (haf ▸ ha)
      . simp only [setFree, hqp, if_false] at ha
        refine ⟨ha, ?_⟩
        intro haf
        have := (hC.free_sub q a hq ha).1
        rw [haf] at this
        exact hqp (hC.owns_unique this hf.1)
    rw [setSlot_slot_of_ne C sl hsub.2]
    exact hC.free_sub q a hq hsub.1

/--
A slot that keeps its bounds.
-/
theorem Sep.setSlot (hC : C.Sep) (a : Nat) (sl : Slot)
    (hpresent : sl.present = (C.slot a).present) (hstart : sl.startAddr = (C.slot a).startAddr)
    (hend : sl.endAddr = (C.slot a).endAddr) : (C.setSlot a sl).Sep := by
  have hfields : ∀ b, ((C.setSlot a sl).slot b).present = (C.slot b).present ∧
      ((C.setSlot a sl).slot b).startAddr = (C.slot b).startAddr ∧
      ((C.setSlot a sl).slot b).endAddr = (C.slot b).endAddr := by
    intro b
    by_cases hab : b = a
    . rw [hab, setSlot_slot_self]
      exact ⟨hpresent, hstart, hend⟩
    . rw [setSlot_slot_of_ne C sl hab]
      exact ⟨rfl, rfl, rfl⟩
  refine hC.transfer _ rfl rfl rfl rfl rfl ?_ ?_ ?_
  . rintro p b ⟨howns, hb⟩
    rw [(hfields b).1] at hb
    exact ⟨⟨howns, hb⟩, (hfields b).2⟩
  . exact hC.free_nodup
  . intro p b hp hb
    rw [(hfields b).1]
    exact hC.free_sub p b hp hb

/--
A block that becomes a free slot.
-/
theorem Sep.freed (hC : C.Sep) {p a : Nat} (ha : C.Has p a)
    : ((C.setSlot a Slot.empty).setFree p (a :: C.free p)).Sep := by
  have hnot : ∀ q, C.Live q → a ∉ C.free q := by
    intro q hq hmem
    have := (hC.free_sub q a hq hmem).2
    rw [ha.2] at this
    exact absurd this (by simp)
  refine hC.transfer _ rfl rfl rfl rfl rfl ?_ ?_ ?_
  . rintro q b ⟨howns, hb⟩
    by_cases hab : b = a
    . rw [hab, setFree_slot, setSlot_slot_self] at hb
      exact absurd hb (by simp [Slot.empty])
    . rw [setFree_slot, setSlot_slot_of_ne C _ hab] at hb ⊢
      exact ⟨⟨howns, hb⟩, rfl, rfl⟩
  . intro q hq
    by_cases hqp : q = p
    . subst hqp
      simp only [setFree, if_true]
      exact List.nodup_cons.mpr ⟨hnot q hq, hC.free_nodup q hq⟩
    . simp only [setFree, hqp, if_false]
      exact hC.free_nodup q hq
  . intro q b hq hb
    rw [setFree_slot]
    by_cases hab : b = a
    . have hqp : q = p := by
        by_contra hqp
        simp only [setFree, hqp, if_false] at hb
        exact hnot q hq (hab ▸ hb)
      rw [hab, setSlot_slot_self]
      exact ⟨hqp ▸ ha.1, rfl⟩
    . rw [setSlot_slot_of_ne C _ hab]
      apply hC.free_sub q b hq
      by_cases hqp : q = p
      . subst hqp
        simp only [setFree, if_true, List.mem_cons, hab, false_or] at hb
        exact hb
      . simp only [setFree, hqp, if_false] at hb
        exact hb

end Conf
