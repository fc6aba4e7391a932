import PipMpu.Props.Removal
import PipMpu.Props.RemoveChain
import PipMpu.Refine.Delete
import PipMpu.Refine.KernelData

/-!
This module contains what `deletePartition` gives back: exactly the blocks that the child was given and the block of its
descriptor, in the partition and in the ancestors that the blocks were made of. All the rest stays as it is.
-/

open LLI

namespace State

/--
The blocks with the bounds `lo` and `hi` in the ancestors of `p`, up to the first ancestor that has no such block.
-/
inductive Above (s : State) (lo hi : Nat) : Nat → Nat → Prop where
  | parent {p A : Nat} : p ≠ s.constantRootPartM → s.HasBlock (s.pdtables.get p).parent A →
      (s.slotOf A).startAddr = lo → (s.slotOf A).endAddr = hi → Above s lo hi p A
  | further {p A A' : Nat} : p ≠ s.constantRootPartM → s.HasBlock (s.pdtables.get p).parent A →
      (s.slotOf A).startAddr = lo → (s.slotOf A).endAddr = hi → Above s lo hi (s.pdtables.get p).parent A' →
      Above s lo hi p A'

/--
The block `a` of `p` was shared with or prepared for the child with the descriptor in `b`, or is `b` itself.
-/
def Returns (s : State) (p b a : Nat) : Prop :=
  s.HasBlock p a ∧ ((s.slotOf a).PDchild = (s.slotOf b).startAddr ∨ a = b)

/--
The block `x` of an ancestor has the bounds of a block that `p` gets back and that it has not cut.
-/
def ReturnsAbove (s : State) (p b x : Nat) : Prop :=
  ∃ a, s.Returns p b a ∧ (s.slotOf a).Uncut ∧ s.Above (s.slotOf a).startAddr (s.slotOf a).endAddr p x

/--
In `s'` the partition `p` has back what it gave to the child with the descriptor in `b`, and nothing else has changed.
-/
structure ReleasesChild (s : State) (p b : Nat) (s' : State) : Prop where
  returned : ∀ a, s.Returns p b a →
    s'.slotOf a
      =
    { s.slotOf a with accessible := true, PDchild := 0, PDflag := false, inChildLocation := 0 }
  returnedAbove : ∀ x, s.ReturnsAbove p b x → s'.slotOf x = { s.slotOf x with accessible := true }
  others : ∀ q a, s.Partition q → ¬s.Below (s.slotOf b).startAddr q → s.OwnsEntry q a → ¬s.Returns p b a →
    ¬s.ReturnsAbove p b a → s'.blockEntries.get a = s.blockEntries.get a ∧ s'.slotOf a = s.slotOf a
  descriptor : ∀ q, s.Partition q → ¬s.Below (s.slotOf b).startAddr q → s'.pdtables.get q = s.pdtables.get q
  next : ∀ q k, s.Partition q → ¬s.Below (s.slotOf b).startAddr q → s.HasStructure q k →
    s'.nextStructure k = s.nextStructure k
  partition : ∀ q, s'.Partition q ↔ s.Partition q ∧ ¬s.Below (s.slotOf b).startAddr q

end State

namespace Conf

variable {C : Conf}

/--
The ancestors of a partition outside of a subtree lie outside of it too.
-/
theorem above_dropTree {c p : Nat} (hnot : ¬C.Below c p) (lo hi A : Nat)
    : (C.dropTree c).Above lo hi p A ↔ C.Above lo hi p A := by
  constructor
  . intro h
    induction h with
    | parent hne hA hstart hend => exact .parent hne ⟨⟨hA.1.1.1, hA.1.2⟩, hA.2⟩ hstart hend
    | further hne hA hstart hend _ ih =>
      have hnot' : ¬C.Below c _ := hA.1.1.2
      exact .further hne ⟨⟨hA.1.1.1, hA.1.2⟩, hA.2⟩ hstart hend (ih hnot')
  . intro h
    induction h with
    | @parent p A hne hA hstart hend =>
      have hnot' : ¬C.Below c (C.parent p) := fun hbelow => hnot (.child hne hbelow)
      exact .parent hne ⟨⟨⟨hA.1.1, hnot'⟩, hA.1.2⟩, hA.2⟩ hstart hend
    | @further p A A' hne hA hstart hend _ ih =>
      have hnot' : ¬C.Below c (C.parent p) := fun hbelow => hnot (.child hne hbelow)
      exact .further hne ⟨⟨⟨hA.1.1, hnot'⟩, hA.1.2⟩, hA.2⟩ hstart hend (ih hnot')

theorem owns_of_releases {a b : Nat} (hb : C.Has C.cur b) (ha : C.Releases b a) : C.Owns C.cur a := by
  rcases ha with ⟨ha, -⟩ | rfl
  . exact ha
  . exact hb.1

end Conf

namespace Sim

variable {s : State} {C : Conf}

theorem above_iff (h : Sim s C) (hC : C.Static) {lo hi p A : Nat} (hp : C.Live p)
    : s.Above lo hi p A ↔ C.Above lo hi p A := by
  constructor
  . intro habove
    induction habove with
    | @parent p A hne hA hstart hend =>
      rw [h.root] at hne
      rw [h.parent p hp hne] at hA
      have hA' := (h.hasBlock_iff (hC.parent_live p hp hne)).mp hA
      rw [h.slotOf_eq hA'.1] at hstart hend
      exact .parent hne hA' hstart hend
    | @further p A A' hne hA hstart hend _ ih =>
      rw [h.root] at hne
      rw [h.parent p hp hne] at hA ih
      have hlive := hC.parent_live p hp hne
      have hA' := (h.hasBlock_iff hlive).mp hA
      rw [h.slotOf_eq hA'.1] at hstart hend
      exact .further hne hA' hstart hend (ih hlive)
  . intro habove
    induction habove with
    | @parent p A hne hA hstart hend =>
      have hA' := (h.hasBlock_iff (hC.parent_live p hp hne)).mpr hA
      rw [← h.slotOf_eq hA.1] at hstart hend
      rw [← h.parent p hp hne] at hA'
      exact .parent (h.root ▸ hne) hA' hstart hend
    | @further p A A' hne hA hstart hend _ ih =>
      have hlive := hC.parent_live p hp hne
      have hA' := (h.hasBlock_iff hlive).mpr hA
      have ih := ih hlive
      rw [← h.slotOf_eq hA.1] at hstart hend
      rw [← h.parent p hp hne] at hA' ih
      exact .further (h.root ▸ hne) hA' hstart hend ih

theorem below_iff (h : Sim s C) (hC : C.Static) {c q : Nat} (hc : C.Live c) (hq : C.Live q)
    : s.Below c q ↔ C.Below c q := by
  constructor
  . exact fun hbelow => (h.below hC hc hbelow).2
  . intro hbelow
    induction hbelow with
    | self => exact .self
    | @child q hne _ ih =>
      have hparent := hC.parent_live q hq hne
      rcases hC.pd_house q hq hne with ⟨H, hH, hflag, hstart, -⟩
      have hslot := h.slotOf_eq hH.1
      have hchild := State.Below.child (ih hparent) ((h.hasBlock_iff hparent).mpr hH) (hslot ▸ hflag)
      rw [hslot, hstart] at hchild
      exact hchild

section

variable {b : Nat} (h : Sim s C) (hC : C.Static) (hb : C.Has C.cur b) (hflag : (C.slot b).PDflag = true)

include h hC hb

theorem returns_iff (hc : (C.slot b).startAddr ≠ 0) (a : Nat) : s.Returns C.cur b a ↔ C.Releases b a := by
  unfold State.Returns Conf.Releases
  rw [h.hasBlock_iff hb.live, h.slotOf_eq hb.1]
  constructor
  . rintro ⟨ha, hchild | rfl⟩
    . rw [h.slotOf_eq ha.1] at hchild
      exact .inl ⟨ha.1, hchild⟩
    . exact .inr rfl
  . rintro (⟨ha, hchild⟩ | rfl)
    . refine ⟨(hC.has_of_given hc ha (.inl hchild)).1, .inl ?_⟩
      rw [h.slotOf_eq ha]
      exact hchild
    . exact ⟨hb, .inr rfl⟩

theorem returnsAbove_iff (hc : (C.slot b).startAddr ≠ 0) (x : Nat)
    : s.ReturnsAbove C.cur b x
        ↔ ∃ a, C.Releases b a ∧ (C.slot a).Uncut ∧ C.Above (C.slot a).startAddr (C.slot a).endAddr C.cur x := by
  unfold State.ReturnsAbove
  constructor
  . rintro ⟨a, ha, huncut, habove⟩
    have hmem := (h.returns_iff hC hb hc a).mp ha
    rw [h.slotOf_eq (Conf.owns_of_releases hb hmem)] at huncut habove
    exact ⟨a, hmem, huncut, (h.above_iff hC hb.live).mp habove⟩
  . rintro ⟨a, hmem, huncut, habove⟩
    refine ⟨a, (h.returns_iff hC hb hc a).mpr hmem, ?_, ?_⟩
    . rw [h.slotOf_eq (Conf.owns_of_releases hb hmem)]
      exact huncut
    . rw [h.slotOf_eq (Conf.owns_of_releases hb hmem)]
      exact (h.above_iff hC hb.live).mpr habove

end

theorem run_deletePartition_releasesChild (h : Sim s C) (hC : C.Inv) {b : Nat} (hb : C.Has C.cur b)
    (hflag : (C.slot b).PDflag = true)
    : Ensures (deletePartition b) s fun v s' => v = true ∧ s.ReleasesChild C.cur b s' := by
  have hS := hC.static
  apply (h.run_deletePartition_released hC b).mono
  rintro v s' (⟨-, -, hnot⟩ | ⟨rfl, -, -, hdrop, hpd, X, hview, hX, h'⟩)
  . exact absurd ⟨hb, hflag⟩ hnot
  refine ⟨rfl, ?_⟩
  have hc0 := hS.live_ne_zero hdrop.live
  have hcur := hdrop.not_below_cur hS
  have hclear := hC.clear_dropTree hb hflag
  have hreturns := h.returns_iff hS hb hc0
  have habove := h.returnsAbove_iff hS hb hc0
  have hbelow : ∀ {q}, C.Live q → (s.Below (s.slotOf b).startAddr q ↔ C.Below (C.slot b).startAddr q) := by
    intro q hq
    rw [h.slotOf_eq hb.1, h.below_iff hS hdrop.live hq]
  have howns : ∀ {q a}, C.Owns q a → ¬C.Below (C.slot b).startAddr q → X.Owns q a :=
    fun ha hnot => (hX.owns_iff _ _).mpr ⟨ha, hnot⟩
  -- a block above the parent is none that the parent gets back
  have hdisjoint : ∀ a x, C.Above (C.slot a).startAddr (C.slot a).endAddr C.cur x → ¬C.Releases b x := by
    intro a x hx hmem
    have hxcur := Conf.owns_of_releases hb hmem
    have hdepth := hx.depth_lt hS hS.cur_live ⟨hxcur, hx.present⟩
    exact absurd hdepth (Nat.lt_irrefl _)
  constructor
  case returned =>
    intro a ha
    have hmem := (hreturns a).mp ha
    have hown := Conf.owns_of_releases hb hmem
    rw [h'.slotOf_eq (howns hown hcur), h.slotOf_eq hown, hview, Conf.reclaimAll.slot_of_mem hmem]
    rfl
  case returnedAbove =>
    intro x hx
    rcases (habove x).mp hx with ⟨a, hmem, huncut, hax⟩
    have hdropped := (Conf.above_dropTree hcur _ _ _).mpr hax
    rcases hdropped.has with ⟨q, hq⟩
    have hown : C.Owns q x := ⟨hq.1.1.1, hq.1.2⟩
    rw [h'.slotOf_eq (howns hown hq.1.1.2), h.slotOf_eq hown, hview,
      Conf.reclaimAll.slot_of_above (C := C.dropTree (C.slot b).startAddr) (hdisjoint a x hax) hmem huncut hdropped]
    rfl
  case others =>
    intro q a hq hnot hentry hreturn hup
    have hlive := h.live_of_partition hS hq
    have hnot' : ¬C.Below (C.slot b).startAddr q := fun hq' => hnot ((hbelow hlive).mpr hq')
    have hown := (h.ownsEntry_iff hlive).mp hentry
    have hslot : X.slot a = C.slot a := by
      rw [hview, Conf.reclaimAll.slot_other (C := C.dropTree (C.slot b).startAddr) (mt (hreturns a).mpr hreturn)]
      . rfl
      . intro g hg huncut hga
        exact hup ((habove a).mpr ⟨g, hg, huncut, (Conf.above_dropTree hcur _ _ _).mp hga⟩)
    have hown' := howns hown hnot'
    refine ⟨?_, by rw [h'.slotOf_eq hown', h.slotOf_eq hown, hslot]⟩
    rcases hown with ⟨-, k, hk, hak⟩
    rcases (mem_slotsOf k a).mp hak with ⟨i, hi, rfl⟩
    exact (h.entries_eq h' hS hlive hown'.1 hk (hX.structures ▸ hk) hi (by rw [hview]; rfl) hslot).1
  case descriptor =>
    intro q hq hnot
    have hlive := h.live_of_partition hS hq
    exact hpd q (hclear.pd q ⟨hlive, fun hq' => hnot ((hbelow hlive).mpr hq')⟩)
  case next =>
    intro q k hq hnot hk
    have hlive := h.live_of_partition hS hq
    have hlive' : X.Live q := by
      rw [hX.live]
      exact ⟨hlive, fun hq' => hnot ((hbelow hlive).mpr hq')⟩
    have hlinked := h.structures q hlive
    exact hlinked.next_eq (hX.structures ▸ h'.structures q hlive') k ((hlinked.mem_iff_reach k).mpr hk)
  case partition =>
    intro q
    have hsim := h'.clearGiven_of_reclaiming hS hdrop hX fun _ hx => notGiven_of_released hS hb hdrop hX hview hx
    have hlive : (X.clearGiven (C.slot b).startAddr).Live q ↔ C.Live q ∧ ¬C.Below (C.slot b).startAddr q := by
      show X.Live q ↔ _
      rw [hX.live]
      rfl
    rw [hsim.partition_iff (hC.steps (Conf.Move.steps hX.steps)).static, hlive, h.partition_iff hS]
    constructor
    . rintro ⟨hq, hnot⟩
      exact ⟨hq, mt (hbelow hq).mp hnot⟩
    . rintro ⟨hq, hnot⟩
      exact ⟨hq, mt (hbelow hq).mpr hnot⟩

end Sim

/--
In every state of a run, for the partition that runs and every child of it.
-/
theorem deletePartition_releases {s : State} {p b : Nat}
    (h : (ServiceCall.system.restrict State.Whole).Reachable s) (hp : s.Partition p) (hb : s.HasBlock p b)
    (hflag : (s.slotOf b).PDflag = true)
    : let deleted := deletePartition b (s.runBy p)
      deleted.1 = true ∧ (s.runBy p).ReleasesChild p b deleted.2 := by
  rcases ServiceCall.view_of_reachable h with ⟨C, hsim, hC⟩
  have hlive := hsim.live_of_partition hC.static hp
  have hblock := (hsim.hasBlock_iff hlive).mp hb
  rw [hsim.slotOf_eq hblock.1] at hflag
  exact (hsim.switch p).run_deletePartition_releasesChild (hC.switch hlive) hblock hflag

/--
The root deletes its child, which has a child itself and has cut the block that was shared with it.
-/
theorem deletePartition_releases_subtree
    : let deleted := deletePartition 0x2000F111 (beforeShares.runBy 0x2000F000)
      deleted.1 = true ∧ (beforeShares.runBy 0x2000F000).ReleasesChild 0x2000F000 0x2000F111 deleted.2 := by
  have hroot : beforeShares.Partition 0x2000F000 := by
    have hconstant : beforeShares.constantRootPartM = 0x2000F000 := by decide +kernel
    rw [← hconstant]
    exact .root
  have hb : beforeShares.HasBlock 0x2000F000 0x2000F111 :=
    State.hasBlock_of_first (by decide +kernel) (by decide +kernel) (by decide +kernel)
  exact deletePartition_releases beforeShares_reachable hroot hb (by decide +kernel)
