import PipMpu.Spec.Lemmas

/-!
This module contains the addresses that a partition uses: they lie in blocks of its parent that are recorded as given
to it, so the children of one partition use different addresses.
-/

namespace Conf

variable {C : Conf} {c c' x : Nat}

/--
The address lies in the descriptor of `p`, in one of its structures, or in one of its blocks.
-/
def Uses (C : Conf) (p x : Nat) : Prop :=
  x ∈ pdRange p ∨ (∃ k ∈ C.structures p, x ∈ structureRange k) ∨ ∃ a, C.Has p a ∧ x ∈ (C.slot a).range

/--
The block `B` is recorded as the one of the descriptor of `c`, or as given to `c`.
-/
def RecordedFor (C : Conf) (B c : Nat) : Prop :=
  ((C.slot B).PDflag = true ∧ (C.slot B).startAddr = c) ∨ (C.slot B).PDchild = c

namespace Static

theorem block_in_parent (hC : C.Static) (hroot : c ≠ C.root) {a : Nat} (ha : C.Has c a) (hx : x ∈ (C.slot a).range)
    : ∃ B, C.Has (C.parent c) B ∧ x ∈ (C.slot B).range ∧ C.RecordedFor B c := by
  rcases hC.host c a hroot ha with ⟨B, hB⟩
  exact ⟨B, hB.has, hC.range_subset_host ha hB hx, .inr hB.lent.1⟩

theorem uses_in_parent (hC : C.Static) (hc : C.Live c) (hroot : c ≠ C.root) (hx : C.Uses c x)
    : ∃ B, C.Has (C.parent c) B ∧ x ∈ (C.slot B).range ∧ C.RecordedFor B c := by
  rcases hx with hpd | ⟨k, hk, hx⟩ | ⟨a, ha, hx⟩
  . rcases hC.pd_house c hc hroot with ⟨H, hH, hflag, hstart, hend, -⟩
    refine ⟨H, hH, ?_, .inl ⟨hflag, hstart⟩⟩
    rcases hpd with ⟨h₁, h₂⟩
    rw [sizeofPDTable_eq] at h₂
    constructor <;> omega
  . rcases hC.structure_house c k hc hk with ⟨hroot', -⟩ | ⟨H, hH⟩
    . exact absurd hroot' hroot
    . have hxH := structureRange_subset hH hx
      rcases hH.holder with ⟨hown, -⟩ | ⟨-, hgiven, hchild⟩
      . exact hC.block_in_parent hroot hown hxH
      . exact ⟨H, hgiven, hxH, .inr hchild⟩
  . exact hC.block_in_parent hroot ha hx

theorem recordedFor_unique (hC : C.Static) {p B : Nat} (hB : C.Has p B) (hc : C.Live c) (hc' : C.Live c')
    (h : C.RecordedFor B c) (h' : C.RecordedFor B c') : c = c' := by
  have hkind := hC.flag_kind p B hB
  have hne := hC.live_ne_zero hc
  have hne' := hC.live_ne_zero hc'
  rcases h with ⟨hflag, hstart⟩ | hchild
  . rcases h' with ⟨-, hstart'⟩ | hchild'
    . exact hstart.symm.trans hstart'
    . exact absurd (hchild'.symm.trans (hkind hflag).1) hne'
  . rcases h' with ⟨hflag', -⟩ | hchild'
    . exact absurd (hchild.symm.trans (hkind hflag').1) hne
    . exact hchild.symm.trans hchild'

/--
Siblings use different addresses.
-/
theorem uses_unique (hC : C.Static) (hc : C.Live c) (hroot : c ≠ C.root) (hc' : C.Live c') (hroot' : c' ≠ C.root)
    (hparent : C.parent c' = C.parent c) (hx : C.Uses c x) (hx' : C.Uses c' x) : c = c' := by
  rcases hC.uses_in_parent hc hroot hx with ⟨B, hB, hxB, hrecord⟩
  rcases hC.uses_in_parent hc' hroot' hx' with ⟨B', hB', hxB', hrecord'⟩
  rw [hparent] at hB'
  rw [← hC.eq_of_mem_range hB hB' hxB hxB'] at hrecord'
  exact hC.recordedFor_unique hB hc hc' hrecord hrecord'

end Static

end Conf
