import PipMpu.Spec.Steps
import PipMpu.Spec.Bounds
import PipMpu.Spec.Initial

/-!
This module contains the account of the addresses: the blocks of the root always cover the same addresses, what is
lent to a child is covered by blocks of the child, so each address ends with a block that is not lent any further.
-/

namespace Conf

variable {C C' : Conf}

/--
The addresses in the blocks of `p`.
-/
def cover (C : Conf) (p : Nat) : Set Nat := {x | ∃ a, C.Has p a ∧ x ∈ (C.slot a).range}

theorem cover_congr {p : Nat} (hhas : ∀ a, C'.Has p a ↔ C.Has p a)
    (hrange : ∀ a, C.Has p a → (C'.slot a).range = (C.slot a).range) : C'.cover p = C.cover p := by
  ext x
  constructor
  . rintro ⟨a, ha, hx⟩
    have ha := (hhas a).mp ha
    exact ⟨a, ha, hrange a ha ▸ hx⟩
  . rintro ⟨a, ha, hx⟩
    exact ⟨a, (hhas a).mpr ha, (hrange a ha).symm ▸ hx⟩

theorem setAccessible.cover (C : Conf) (S : Nat → Prop) (v : Bool) (p : Nat)
    : (C.setAccessible S v).cover p = C.cover p := by
  apply cover_congr
  . exact fun a => setAccessible.has C S v a p
  . intro a _
    unfold Slot.range
    rw [setAccessible.startAddr, setAccessible.endAddr]

namespace Static

/--
The parts of a block cover what the block covered.
-/
theorem cover_split (hC : C.Static) {p b f cutAddr : Nat} {rest : List Nat} (h : C.CanSplit p b f cutAddr rest)
    (q : Nat) : (C.split p b f cutAddr rest).cover q = C.cover q := by
  have hne := h.ne hC
  have hhas := h.has_iff hC q
  have hlt := h.start_lt
  have hlt' := h.lt_end
  ext x
  constructor
  . rintro ⟨a, ha', hx⟩
    rcases (hhas a).mp ha' with ha | ⟨rfl, rfl⟩
    . have haf : a ≠ f := fun heq => h.not_has hC q (heq ▸ ha)
      by_cases hab : a = b
      . subst hab
        rw [CanSplit.slot_cut hne] at hx
        exact ⟨a, ha, hx.1, hx.2.trans hlt'⟩
      . rw [CanSplit.slot_other hab haf] at hx
        exact ⟨a, ha, hx⟩
    . rw [CanSplit.slot_new] at hx
      exact ⟨b, h.has, (Nat.le_of_lt hlt).trans hx.1, hx.2⟩
  . rintro ⟨a, ha, hx⟩
    have haf : a ≠ f := fun heq => h.not_has hC q (heq ▸ ha)
    by_cases hab : a = b
    . subst hab
      have hq := hC.has_unique ha h.has
      subst hq
      rcases Nat.lt_or_ge x cutAddr with hxlt | hxge
      . refine ⟨a, (hhas a).mpr (.inl ha), ?_⟩
        rw [CanSplit.slot_cut hne]
        exact ⟨hx.1, hxlt⟩
      . refine ⟨f, (hhas f).mpr (.inr ⟨rfl, rfl⟩), ?_⟩
        rw [CanSplit.slot_new]
        exact ⟨hxge, hx.2⟩
    . refine ⟨a, (hhas a).mpr (.inl ha), ?_⟩
      rw [CanSplit.slot_other hab haf]
      exact hx

/--
The merged block covers what the two blocks covered.
-/
theorem cover_join (hC : C.Static) {p b₁ b₂ : Nat} (h : C.CanJoin p b₁ b₂) (q : Nat)
    : (C.join p b₁ b₂).cover q = C.cover q := by
  have hne := h.ne hC
  have hhas := h.has_iff hC q
  have hstart := (h.next_kind hC).1
  have hlt₁ := hC.start_lt p b₁ h.has₁
  have hlt₂ := hC.start_lt p b₂ h.has₂
  ext x
  constructor
  . rintro ⟨a, ha', hx⟩
    rcases (hhas a).mp ha' with ⟨ha, hab₂⟩
    by_cases hab : a = b₁
    . subst hab
      have hq := hC.has_unique ha h.has₁
      subst hq
      rw [CanJoin.slot_merged hne] at hx
      rcases Nat.lt_or_ge x (C.slot a).endAddr with hxlt | hxge
      . exact ⟨a, ha, hx.1, hxlt⟩
      . exact ⟨b₂, h.has₂, hstart.le.trans hxge, hx.2⟩
    . rw [CanJoin.slot_other hab hab₂] at hx
      exact ⟨a, ha, hx⟩
  . rintro ⟨a, ha, hx⟩
    have hmerged : ∀ x, (C.slot b₁).startAddr ≤ x → x < (C.slot b₂).endAddr → q = p →
        x ∈ (C.join p b₁ b₂).cover q := by
      rintro x hle hlt rfl
      refine ⟨b₁, (hhas b₁).mpr ⟨h.has₁, hne⟩, ?_⟩
      rw [CanJoin.slot_merged hne]
      exact ⟨hle, hlt⟩
    rcases hx with ⟨hle, hlt⟩
    by_cases hab : a = b₁
    . subst hab
      exact hmerged x hle (by omega) (hC.has_unique ha h.has₁)
    . by_cases hab₂ : a = b₂
      . subst hab₂
        exact hmerged x (by omega) hlt (hC.has_unique ha h.has₂)
      . refine ⟨a, (hhas a).mpr ⟨ha, hab₂⟩, ?_⟩
        rw [CanJoin.slot_other hab hab₂]
        exact ⟨hle, hlt⟩

theorem cover_share (hC : C.Static) {p b c f : Nat} {rest : List Nat} {r w x : Bool}
    (h : C.CanShare p b c f rest r w x) {q : Nat} (hq : q ≠ c)
    : (C.share b c f rest r w x).cover q = C.cover q := by
  have hne := h.ne hC
  have hhas : ∀ a, (C.share b c f rest r w x).Has q a ↔ C.Has q a := by
    intro a
    rw [h.has_iff hC]
    exact or_iff_left fun heq => hq heq.1
  apply cover_congr hhas
  intro a ha
  have haf : a ≠ f := fun heq => h.not_has hC q (heq ▸ ha)
  by_cases hab : a = b
  . rw [hab, CanShare.slot_self hne]
    rfl
  . rw [CanShare.slot_other hab haf]

theorem cover_unshare (hC : C.Static) {p b c l : Nat} (h : C.CanUnshare p b c l) {q : Nat} (hq : q ≠ c)
    : (C.unshare b c l).cover q = C.cover q := by
  have hne := h.ne hC
  have hnot : ∀ a, C.Has q a → a ≠ l := by
    rintro a ha rfl
    exact hq (hC.has_unique ha (h.location hC).1)
  apply cover_congr
  . intro a
    rw [h.has_iff hC]
    exact and_iff_left_of_imp (hnot a)
  . intro a ha
    by_cases hab : a = b
    . rw [hab, CanUnshare.slot_self hne]
      rfl
    . rw [CanUnshare.slot_other hab (hnot a ha)]

/--
The blocks of the root keep covering the same addresses.
-/
theorem cover_root_step (hC : C.Static) (h : C.Step C') : C'.root = C.root ∧ C'.cover C.root = C.cover C.root := by
  cases h with
  | switch _ => exact ⟨rfl, rfl⟩
  | permute _ => exact ⟨rfl, rfl⟩
  | @cut p b f cutAddr rest h =>
    have hsplit := (hC.walkFrom p b false).cover_split (h.walkFrom false) C.root
    exact ⟨rfl, hsplit.trans (setAccessible.cover C _ false C.root)⟩
  | merge h _ =>
    exact ⟨rfl, (setAccessible.cover _ _ true C.root).trans (hC.cover_join h C.root)⟩
  | access _ =>
    rw [access_eq]
    exact ⟨rfl, setAccessible.cover C _ _ C.root⟩
  | @addPartition p b h =>
    refine ⟨rfl, cover_congr (h.has_iff C.root) fun a _ => ?_⟩
    by_cases hab : a = b
    . rw [hab, CanAddPartition.slot_self]
      rfl
    . rw [CanAddPartition.slot_other hab]
  | @dropPartition c h =>
    refine ⟨rfl, cover_congr (fun a => ?_) fun a _ => ?_⟩
    . rw [CanDrop.has_iff]
      exact and_iff_left h.not_below_root
    . unfold Slot.range
      rw [(CanDrop.fields c a).1, (CanDrop.fields c a).2.1]
  | link h =>
    refine ⟨rfl, cover_congr (h.has_iff C.root) fun a ha => ?_⟩
    unfold Slot.range
    rw [(h.fields ha.1).1, (h.fields ha.1).2.1]
  | unlink h =>
    refine ⟨rfl, cover_congr (h.has_iff hC C.root) fun a _ => ?_⟩
    unfold Slot.range
    rw [(CanUnlink.fields a).1, (CanUnlink.fields a).2.1]
  | share h => exact ⟨rfl, hC.cover_share h h.ne_root.symm⟩
  | unshare h => exact ⟨rfl, hC.cover_unshare h (h.child hC).2.2.symm⟩

/-
Where an address ends
-/

/--
The blocks of the child that follow each other from `a` on reach up to the end of the block they were made of.
-/
theorem exists_after (hC : C.Static) {c a B x : Nat} (hc : c ≠ C.root) (ha : C.Has c a) (hB : C.Hosts c a B)
    (hstart : (C.slot a).startAddr ≤ x) (hend : x < (C.slot B).endAddr)
    : ∃ b, C.Has c b ∧ x ∈ (C.slot b).range := by
  induction hn : (C.slot B).endAddr - (C.slot a).startAddr using Nat.strongRecOn generalizing a with
  | ind n ih =>
    by_cases hx : x < (C.slot a).endAddr
    . exact ⟨a, ha, hstart, hx⟩
    . have hnext : (C.slot a).next ≠ 0 := by
        intro hlast
        have := hB.end_eq hlast
        omega
      rcases hC.next_kind c a ha hnext with ⟨hnhas, hnstart, hnorigin⟩
      have hBn : C.Hosts c (C.slot a).next B :=
        hC.hosts_of_origin hc hnhas hB.has (hB.start_eq.trans hnorigin.symm)
      have hlt := hC.start_lt c a ha
      have hnlt := hC.start_lt c _ hnhas
      have hle := hBn.end_le
      exact ih _ (by omega) hnhas hBn (by omega) rfl

/--
The blocks of a child cover each block that is lent to it.
-/
theorem exists_in_child (hC : C.Static) {p B x : Nat} (hB : C.Has p B) (hlent : (C.slot B).inChildLocation ≠ 0)
    (hx : x ∈ (C.slot B).range) : ∃ a, C.Has (C.slot B).PDchild a ∧ x ∈ (C.slot a).range := by
  rcases hC.location_kind p B hB hlent with ⟨hchild, hl, hstart, horigin⟩
  rcases hC.child_kind p B hB hchild with ⟨-, hparent, hroot, -⟩
  have hhosts := hC.hosts_of_origin hroot hl (hparent.symm ▸ hB) horigin.symm
  exact hC.exists_after hroot hl hhosts (hstart.le.trans hx.1) hx.2

/--
Each address of a block ends with a block that is not lent.
-/
theorem exists_end (hC : C.Static) {p a x : Nat} (ha : C.Has p a) (hx : x ∈ (C.slot a).range)
    : ∃ q b, C.Has q b ∧ (C.slot b).inChildLocation = 0 ∧ x ∈ (C.slot b).range := by
  -- each child lies further down, and the tree has a bounded depth
  induction hn : 512 - C.depth p using Nat.strongRecOn generalizing p a with
  | ind n ih =>
    by_cases hlent : (C.slot a).inChildLocation = 0
    . exact ⟨p, a, ha, hlent, hx⟩
    . rcases hC.exists_in_child ha hlent hx with ⟨b, hb, hxb⟩
      have hchild := hC.child_kind p a ha (hC.location_kind p a ha hlent).1
      have hdepth := hC.depth_parent _ hb.live hchild.2.2.1
      have hle := hC.depth_le hb.live
      rw [hchild.2.1] at hdepth
      exact ih _ (by omega) hb hxb rfl

theorem cover_subset_root (hC : C.Static) {p a x : Nat} (ha : C.Has p a) (hx : x ∈ (C.slot a).range)
    : x ∈ C.cover C.root := by
  induction hn : C.depth p generalizing p a with
  | zero =>
    rw [(hC.depth_eq_zero ha.live).mp hn] at ha
    exact ⟨a, ha, hx⟩
  | succ n ih =>
    have hp : p ≠ C.root := by
      intro hroot
      have := (hC.depth_eq_zero ha.live).mpr hroot
      omega
    rcases hC.host p a hp ha with ⟨B, hB⟩
    have hdepth := hC.depth_parent p ha.live hp
    exact ih hB.has (hC.range_subset_host ha hB hx) (by omega)

end Static

end Conf
