import PipMpu.Spec.Initial
import PipMpu.Spec.Inverse
import PipMpu.Spec.Release

/-!
This module contains the converse of the closed part of the invariant: a block is inaccessible only for what lies in
it or for the child it is shared with. A service may take a block away first and use it then, so the operations are
followed with the blocks for which the property does not hold yet.
-/

namespace Conf

variable {C : Conf} {E : Nat → Prop} {p b : Nat}

/--
All blocks but those in `E` are accessible if they are not shared and hold no kernel data.
-/
def SettledBut (C : Conf) (E : Nat → Prop) : Prop :=
  ∀ p a, C.Has p a → ¬E a → (C.slot a).PDchild = 0 → (C.slot a).PDflag = false →
    (C.slot a).startAddr ∉ C.structures p → (C.slot a).accessible = true

def Settled (C : Conf) : Prop := C.SettledBut fun _ => False

namespace SettledBut

theorem allow (hC : C.SettledBut E) : (C.setAccessible E true).Settled := by
  intro p a ha _
  rw [setAccessible.has] at ha
  simp only [setAccessible.PDchild, setAccessible.PDflag, setAccessible.startAddr, setAccessible.structures]
  intro hchild hflag hmem
  by_cases hE : E a
  . rw [setAccessible.slot_of_mem _ _ _ _ hE]
  . rw [setAccessible.slot_of_notMem _ _ _ _ hE]
    exact hC p a ha hE hchild hflag hmem

theorem raise (hC : C.SettledBut E) (S : Nat → Prop) : (C.setAccessible S true).SettledBut E := by
  intro p a ha hE
  rw [setAccessible.has] at ha
  simp only [setAccessible.PDchild, setAccessible.PDflag, setAccessible.startAddr, setAccessible.structures]
  intro hchild hflag hmem
  by_cases hS : S a
  . rw [setAccessible.slot_of_mem _ _ _ _ hS]
  . rw [setAccessible.slot_of_notMem _ _ _ _ hS]
    exact hC p a ha hE hchild hflag hmem

/--
The block becomes the one of a descriptor.
-/
theorem addPartition (hC : C.SettledBut (· = b)) (h : C.CanAddPartition p b) : (C.addPartition p b).Settled := by
  intro q a ha _ hchild hflag hmem
  have ha := (h.has_iff q a).mp ha
  by_cases hab : a = b
  . rw [hab, CanAddPartition.slot_self] at hflag
    exact absurd hflag (by simp)
  . rw [CanAddPartition.slot_other hab] at hchild hflag hmem ⊢
    refine hC q a ha hab hchild hflag ?_
    have hq : q ≠ (C.slot b).startAddr := fun heq => h.not_live (heq ▸ ha.live)
    rw [(CanAddPartition.tree_other (C := C) (p := p) hq).2.2.2.1] at hmem
    exact hmem

/--
The block becomes the one of a structure.
-/
theorem link {t : Nat} (hC : C.SettledBut (· = b)) (hS : C.Static) (h : C.CanLink t p b)
    : (C.link t p b).Settled := by
  intro q a ha' _ hchild hflag hmem
  have ha := (h.has_iff q a).mp ha'
  have hmem' : (C.slot a).startAddr ∉ C.structures q := by
    rw [(h.fields ha.1).1] at hmem
    exact fun hk => hmem (CanLink.mem_structures hk)
  by_cases hab : a = b
  . subst hab
    have hq := hS.has_unique ha h.has
    subst hq
    -- a block of the partition itself is among its structures now, one for a child is recorded as given
    by_cases htq : t = q
    . subst htq
      rw [h.slot_self, CanLink.structures_self] at hmem
      exact absurd (List.mem_cons_self ..) hmem
    . rw [h.slot_self] at hchild
      simp only [htq, if_false] at hchild
      exact absurd hchild (hS.live_ne_zero h.live)
  . rw [h.slot_other ha.1 hab] at hchild hflag ⊢
    exact hC q a ha hab hchild hflag hmem'

end SettledBut

namespace Settled

theorem cover (hC : C.Settled) {p a : Nat} (ha : C.Has p a) (hchild : (C.slot a).PDchild = 0)
    (hflag : (C.slot a).PDflag = false) (hmem : (C.slot a).startAddr ∉ C.structures p)
    : (C.slot a).accessible = true :=
  hC p a ha id hchild hflag hmem

/--
Blocks that are shared may become inaccessible.
-/
theorem lower (hC : C.Settled) (hS : C.Static) {S : Nat → Prop}
    (hlent : ∀ a, S a → E a ∨ ∃ q, C.Lent a q) : (C.setAccessible S false).SettledBut E := by
  intro q a ha hE
  rw [setAccessible.has] at ha
  simp only [setAccessible.PDchild, setAccessible.PDflag, setAccessible.startAddr, setAccessible.structures]
  intro hchild hflag hmem
  rw [setAccessible.slot_of_notMem]
  . exact hC.cover ha hchild hflag hmem
  . intro hSa
    rcases (hlent a hSa).resolve_left hE with ⟨r, hr⟩
    exact (hS.location_kind q a ha hr.2).1 hchild

theorem access_false (hC : C.Settled) (hS : C.Static) (hb : C.Has p b)
    : (C.access p b false).SettledBut (· = b) := by
  rw [access_eq]
  apply hC.lower hS
  rintro a (hab | ⟨-, habove⟩)
  . exact .inl hab
  . exact .inr (hS.lent_of_above hb habove)

theorem walkFrom_false (hC : C.Settled) (hS : C.Static) (hb : C.Has p b) : (C.walkFrom p b false).Settled := by
  apply hC.lower hS
  rintro a ⟨-, habove⟩
  exact .inr (hS.lent_of_above hb habove)

theorem split (hC : C.Settled) (hS : C.Static) {f cutAddr : Nat} {rest : List Nat}
    (h : C.CanSplit p b f cutAddr rest) : (C.split p b f cutAddr rest).Settled := by
  have hne := h.ne hS
  have hacc := hC.cover h.has h.PDchild_eq h.flag_eq h.notMem
  intro q a ha' _ hchild hflag hmem
  rcases (h.has_iff hS q a).mp ha' with ha | ⟨-, rfl⟩
  . have haf : a ≠ f := fun heq => h.not_has hS q (heq ▸ ha)
    by_cases hab : a = b
    . rw [hab, CanSplit.slot_cut hne]
      exact hacc
    . rw [CanSplit.slot_other hab haf] at hchild hflag hmem ⊢
      exact hC.cover ha hchild hflag hmem
  . rw [CanSplit.slot_new]
    exact hacc

theorem cut (hC : C.Settled) (hS : C.Static) {f cutAddr : Nat} {rest : List Nat}
    (h : C.CanSplit p b f cutAddr rest) : (C.cut p b f cutAddr rest).Settled :=
  (hC.walkFrom_false hS h.has).split (hS.walkFrom p b false) (h.walkFrom false)

theorem join (hC : C.Settled) (hS : C.Static) {b₁ b₂ : Nat} (h : C.CanJoin p b₁ b₂) : (C.join p b₁ b₂).Settled := by
  have hne := h.ne hS
  intro q a ha' _ hchild hflag hmem
  rcases (h.has_iff hS q a).mp ha' with ⟨ha, hab₂⟩
  by_cases hab : a = b₁
  . rw [hab, CanJoin.slot_merged hne]
    exact hC.cover h.has₁ h.PDchild₁ h.flag₁ h.notMem₁
  . rw [CanJoin.slot_other hab hab₂] at hchild hflag hmem ⊢
    exact hC.cover ha hchild hflag hmem

theorem merge (hC : C.Settled) (hS : C.Static) {b₁ b₂ : Nat} (h : C.CanJoin p b₁ b₂) : (C.merge p b₁ b₂).Settled :=
  (hC.join hS h).raise _

theorem share (hC : C.Settled) (hS : C.Static) {c f : Nat} {rest : List Nat} {r w x : Bool}
    (h : C.CanShare p b c f rest r w x) : (C.share b c f rest r w x).Settled := by
  have hne := h.ne hS
  intro q a ha' _ hchild hflag hmem
  rcases (h.has_iff hS q a).mp ha' with ha | ⟨-, rfl⟩
  . have haf : a ≠ f := fun heq => h.not_has hS q (heq ▸ ha)
    by_cases hab : a = b
    . rw [hab, CanShare.slot_self hne] at hchild
      exact absurd hchild (hS.live_ne_zero h.live)
    . rw [CanShare.slot_other hab haf] at hchild hflag hmem ⊢
      exact hC.cover ha hchild hflag hmem
  . rw [CanShare.slot_new]
    rfl

theorem create (hC : C.Settled) (hS : C.Static) (hb : C.Has p b) (h : (C.access p b false).CanAddPartition p b)
    : ((C.access p b false).addPartition p b).Settled :=
  (hC.access_false hS hb).addPartition h

theorem prepare (hC : C.Settled) (hI : C.Inv) {t : Nat} (hcan : C.CanAccess p b false)
    (h : (C.access p b false).CanLink t p b) : ((C.access p b false).link t p b).Settled :=
  (hC.access_false hI.static hcan.has).link (hI.access hcan).static h

theorem unlink (hC : C.Settled) (hS : C.Static) {t k : Nat} (h : C.CanUnlink t k b)
    : (C.unlink t k b).SettledBut (· = b) := by
  intro q a ha hab hchild hflag hmem
  have ha := (h.has_iff hS q a).mp ha
  rw [CanUnlink.slot_other hab] at hchild hflag hmem ⊢
  refine hC.cover ha hchild hflag fun hk => hmem ((h.mem_structures hS).mpr ⟨hk, ?_⟩)
  rintro ⟨-, hstart⟩
  refine hab (h.start_unique hS ha ?_ hstart)
  by_contra hlent
  exact (hS.location_kind q a ha hlent).1 hchild

theorem giveBack (hC : C.Settled) (hS : C.Static) {t k : Nat} (h : C.CanUnlink t k b) (hb : C.Has p b)
    : (C.giveBack t k b).Settled := by
  rw [h.giveBack_eq hS hb, access_eq, ← setAccessible_setAccessible]
  exact (hC.unlink hS h).allow.raise _

/--
What the parent gets back from a partition is accessible.
-/
theorem reclaimAll (hC : C.Settled) (c : Nat) (G : Nat → Prop) : ((C.dropTree c).reclaimAll p G).Settled := by
  intro q a ha _ hchild hflag hmem
  have ha : C.Has q a := by
    unfold Conf.reclaimAll at ha
    rw [setAccessible.has, clearAll_has] at ha
    exact ⟨⟨ha.1.1.1, ha.1.2⟩, ha.2⟩
  by_cases hG : G a
  . rw [reclaimAll.slot_of_mem hG]
  . rcases reclaimAll.records (C := C.dropTree c) (p := p) hG with ⟨hchild', hflag'⟩
    rw [hchild'] at hchild
    rw [hflag'] at hflag
    have hstart : (((C.dropTree c).reclaimAll p G).slot a).startAddr = (C.slot a).startAddr := by
      unfold Conf.reclaimAll
      rw [setAccessible.startAddr, clearAll_slot_of_notMem hG]
      rfl
    rw [hstart] at hmem
    have hacc := hC.cover ha hchild hflag hmem
    unfold Conf.reclaimAll
    by_cases hS : ∃ g, G g ∧ (C.dropTree c).Reclaims p g a
    . rw [setAccessible.slot_of_mem _ _ _ _ hS]
    . rw [setAccessible.slot_of_notMem _ _ _ _ hS, clearAll_slot_of_notMem hG]
      exact hacc

theorem clearGiven (hC : C.Settled) {c : Nat} (hnone : ∀ q a, C.Has q a → ¬(C.slot a).GivenTo c)
    : (C.clearGiven c).Settled := by
  intro q a ha _
  rw [clearGiven_has] at ha
  rw [clearGiven_slot_of_not (hnone q a ha)]
  exact hC.cover ha

end Settled

theorem OnlyRoot.settled (h : C.OnlyRoot) (hacc : ∀ a, C.Has C.root a → (C.slot a).accessible = true) : C.Settled :=
  fun _ a ha _ _ _ _ => hacc a (h.has_root ha)

end Conf
