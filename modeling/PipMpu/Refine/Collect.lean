import PipMpu.Refine.Prepare
import PipMpu.Refine.Splice
import PipMpu.Spec.Inverse

/-!
This module contains the run of `collect`: the first structure that is empty and starts with a block of the partition
that runs is taken out of the list, and the block is given back.
-/

namespace NoRun

variable {K l : List Nat}

theorem of_notMem (h : ∀ a ∈ l, a ∉ K) : NoRun K l := by
  induction l with
  | nil => trivial
  | cons x rest ih =>
    have hrest := ih fun a ha => h a (by simp [ha])
    match rest, h, hrest with
    | [], _, _ => trivial
    | [_], _, _ => trivial
    | y :: _ :: _, h, hrest => exact ⟨fun hrun => h y (by simp) hrun.2.1, hrest⟩

theorem cons_of_mem {x : Nat} (hx : x ∈ K) (h : NoRun K l) : NoRun K (x :: l) := by
  match l, h with
  | [], _ => trivial
  | [_], _ => trivial
  | _ :: _ :: _, h => exact ⟨fun hrun => hrun.1 hx, h⟩

theorem append {l' : List Nat} (h : ∀ a ∈ l, a ∈ K) (h' : NoRun K l') : NoRun K (l ++ l') := by
  induction l with
  | nil => exact h'
  | cons x rest ih => exact cons_of_mem (h x (by simp)) (ih fun a ha => h a (by simp [ha]))

end NoRun

/--
The check passes exactly if no slot of the structure is present.
-/
theorem checkStructureEmptyRecAux_run (k : Nat) (s : State) (fuel i : Nat) (hi : i < 8) (hfuel : i < fuel)
    : (checkStructureEmptyRecAux fuel k i s = (true, s) ∧ ∀ j ≤ i, (s.blockEntries.get (slotAddr k j)).present = false)
        ∨ (checkStructureEmptyRecAux fuel k i s = (false, s)
          ∧ ∃ j ≤ i, (s.blockEntries.get (slotAddr k j)).present = true) := by
  induction fuel generalizing i with
  | zero => omega
  | succ fuel ih =>
    have haddr : k + i * sizeofBlockEntry = slotAddr k i := rfl
    unfold checkStructureEmptyRecAux
    simp only [LLI.bind_run, LLI.pure_run, getBlockEntryAddrFromKernelStructureStart,
      readBlockPresentFromBlockEntryAddr, readBlockField, LLI.gets_run, haddr, Index.zero, beqIdx_eq, LLI.ite_run,
      Index.pred, decide_eq_true_eq]
    cases hpresent : (s.blockEntries.get (slotAddr k i)).present with
    | true => exact .inr ⟨rfl, i, Nat.le_refl i, hpresent⟩
    | false =>
      simp only [Bool.false_eq_true, if_false]
      by_cases hzero : i = 0
      . left
        rw [if_pos hzero]
        refine ⟨rfl, fun j hj => ?_⟩
        have hji : j = i := by omega
        rw [hji]
        exact hpresent
      . have hpred : sub32 i 1 = i - 1 := sub32_eq (by omega) (by rw [wordSize_eq]; omega)
        rw [if_neg hzero, hpred]
        rcases ih (i - 1) (by omega) (by omega) with ⟨hrun, hall⟩ | ⟨hrun, j, hj, hjpresent⟩
        . refine .inl ⟨hrun, fun j hj => ?_⟩
          by_cases hji : j = i
          . rw [hji]
            exact hpresent
          . exact hall j (by omega)
        . exact .inr ⟨hrun, j, by omega, hjpresent⟩

/--
Two states that only differ in how the structures in `l` are linked to a list that starts at `t`.
-/
structure Relinked (t : Nat) (l : List Nat) (s s' : State) : Prop where
  cur : s'.currentPartition = s.currentPartition
  root : s'.constantRootPartM = s.constantRootPartM
  pd_other : ∀ p, p ≠ t → s'.pdtables.get p = s.pdtables.get p
  pd : ∃ first, s'.pdtables.get t = { s.pdtables.get t with structurePtr := first }
  blockEntries : s'.blockEntries = s.blockEntries
  sh1Entries : s'.sh1Entries = s.sh1Entries
  scEntries : s'.scEntries = s.scEntries
  next_other : ∀ k, k ∉ l → s'.nextStructure k = s.nextStructure k

/--
The structure behind `pred` leaves the list, `pred` does not matter for the first structure.
-/
theorem removeStructure_relinked {t k pred : Nat} {before after : List Nat} {s : State}
    (hlist : Linked s.nextStructure (s.pdtables.get t).structurePtr (before ++ k :: after))
    (hpred : ∀ x ∈ before.getLast?, x = pred)
    : Relinked t (before ++ k :: after) s (removeStructure t pred k s).2
        ∧ Linked (removeStructure t pred k s).2.nextStructure
          ((removeStructure t pred k s).2.pdtables.get t).structurePtr (before ++ after) := by
  have hread : readNextFromKernelStructureStart k s = (s.nextStructure k, s) := by rfl
  unfold removeStructure readPDStructurePointer getBeqAddr writePDStructurePointer
  simp only [LLI.bind_run, hread, readPDField_run, LLI.pure_run, LLI.ite_run, beqAddr_eq, decide_eq_true_eq,
    modifyPDTable_run, writeNextFromKernelStructureStart_run]
  rcases List.eq_nil_or_concat before with rfl | ⟨front, last, rfl⟩
  . have hfirst : k = (s.pdtables.get t).structurePtr := hlist.1.symm
    rw [if_pos hfirst]
    refine ⟨⟨rfl, rfl, fun p hp => ?_, ⟨s.nextStructure k, ?_⟩, rfl, rfl, rfl, fun _ _ => rfl⟩, ?_⟩
    . exact Mem.get_set_of_ne _ _ (Ne.symm hp)
    . exact Mem.get_set_self _ _ _
    . dsimp only
      rw [Mem.get_set_self]
      exact hlist.2.2
  . have hlast : last = pred := hpred last (by simp)
    subst hlast
    rw [List.concat_eq_append, List.append_assoc, List.singleton_append] at hlist ⊢
    have hnodup := hlist.nodup
    have hne : k ≠ (s.pdtables.get t).structurePtr := by
      intro hfirst
      rw [hfirst] at hnodup
      cases front with
      | nil =>
        rw [hlist.1] at hnodup
        simp at hnodup
      | cons head rest =>
        rw [hlist.1] at hnodup
        simp at hnodup
    rw [if_neg hne]
    have hself : (s.nextPointers.set (last + nextOffset) (s.nextStructure k)).get (last + nextOffset) =
        s.nextStructure k := Mem.get_set_self _ _ _
    have hother : ∀ x, x ≠ last → (s.nextPointers.set (last + nextOffset) (s.nextStructure k)).get (x + nextOffset) =
        s.nextStructure x := by
      intro x hx
      exact Mem.get_set_of_ne _ _ (by omega)
    refine ⟨⟨rfl, rfl, fun _ _ => rfl, ⟨_, rfl⟩, rfl, rfl, rfl, fun x hx => ?_⟩, ?_⟩
    . apply hother
      rintro rfl
      exact hx (by simp)
    . rw [List.append_assoc, List.singleton_append]
      exact hlist.unlink hself hother

namespace Conf

/--
The structure `k` of `t` is empty and starts with the block `b` of the partition that runs.
-/
structure Collectable (C : Conf) (t k b : Nat) : Prop where
  mem : k ∈ C.structures t
  empty : ∀ a ∈ slotsOf k, (C.slot a).present = false
  has : C.Has C.cur b
  start_eq : (C.slot b).startAddr = k

/--
The first structure of `t` that can be collected lies in a block that is not shared, and its slots are found in the
list of free slots.
-/
def CollectsOwn (C : Conf) (t : Nat) : Prop :=
  ∀ before k after b, C.structures t = before ++ k :: after → (∀ k' ∈ before, ∀ b', ¬C.Collectable t k' b') →
    C.Collectable t k b → (C.slot b).inChildLocation = 0 ∧ NoRun (slotsOf k) (C.free t)

theorem Collectable.canUnlink {C : Conf} (hC : C.Static) {t k b : Nat} (h : C.Collectable t k b) (ht : C.Live t)
    (hloc : (C.slot b).inChildLocation = 0) : C.CanUnlink t k b where
  live := ht
  mem := h.mem
  houses := hC.houses_of_start ht h.mem h.has h.start_eq hloc
  empty := h.empty

end Conf

namespace Sim

variable {s : State} {C : Conf}

/--
The loop over the free slots, the new link and the writes to the descriptor take a structure out.
-/
theorem unlinkStructure (h : Sim s C) (hC : C.Apart) {t k : Nat} (ht : C.Live t) {s₁ s₂ s' : State}
    (hs₁ : Respliced t (C.free t) s s₁) (hfree : FreeList s₁ t ((C.free t).filter (· ∉ slotsOf k)))
    (hs₂ : Relinked t (C.structures t) s₁ s₂)
    (hlist : Linked s₂.nextStructure (s₂.pdtables.get t).structurePtr ((C.structures t).erase k))
    (hs' : s' = { s₂ with
      pdtables := s₂.pdtables.set t
        { s₂.pdtables.get t with
          nbprepare := ((C.structures t).erase k).length
          nbfreeslots := ((C.free t).filter (· ∉ slotsOf k)).length } })
    : Sim s' (C.unlinkStructure t k) := by
  have hother : ∀ q, q ≠ t → s'.pdtables.get q = s.pdtables.get q := by
    intro q hq
    rw [hs', ← hs₁.pd_other q hq, ← hs₂.pd_other q hq]
    exact Mem.get_set_of_ne _ _ (Ne.symm hq)
  have hself : s'.pdtables.get t = { s₂.pdtables.get t with
      nbprepare := ((C.structures t).erase k).length
      nbfreeslots := ((C.free t).filter (· ∉ slotsOf k)).length } := by
    rw [hs']
    exact Mem.get_set_self _ _ _
  have hpd : (s₂.pdtables.get t).parent = (s.pdtables.get t).parent
      ∧ (s₂.pdtables.get t).firstfreeslot = (s₁.pdtables.get t).firstfreeslot := by
    rcases hs₁.pd with ⟨first, hpd⟩
    rcases hs₂.pd with ⟨ptr, hpd'⟩
    rw [hpd', hpd]
    exact ⟨rfl, rfl⟩
  have hblocks : s'.blockEntries = s₁.blockEntries := by
    rw [hs']
    exact hs₂.blockEntries
  have hnext₁ : s₁.nextStructure = s.nextStructure := by
    funext x
    unfold State.nextStructure
    rw [hs₁.nextPointers]
  have hnext : s'.nextStructure = s₂.nextStructure := by
    rw [hs']
    rfl
  have hmem : ∀ q k', k' ∈ (C.unlinkStructure t k).structures q → k' ∈ C.structures q := by
    intro q k' hk'
    by_cases hq : q = t
    . subst hq
      simp only [Conf.unlinkStructure, if_true] at hk'
      exact List.mem_of_mem_erase hk'
    . simp only [Conf.unlinkStructure, if_neg hq] at hk'
      exact hk'
  constructor
  case cur =>
    rw [hs']
    exact hs₂.cur.trans (hs₁.cur.trans h.cur)
  case root =>
    rw [hs']
    exact hs₂.root.trans (hs₁.root.trans h.root)
  case parent =>
    intro q hq hroot
    by_cases hqt : q = t
    . subst hqt
      rw [hself]
      exact hpd.1.trans (h.parent q hq hroot)
    . rw [hother q hqt]
      exact h.parent q hq hroot
  case structures =>
    intro q hq
    rw [hnext]
    by_cases hqt : q = t
    . subst hqt
      simp only [Conf.unlinkStructure, if_true, hself]
      exact hlist
    . simp only [Conf.unlinkStructure, if_neg hqt, hother q hqt]
      apply (h.structures q hq).congr
      intro k' hk'
      rw [hs₂.next_other, hnext₁]
      intro hkt
      exact hqt (hC.structures_disjoint q t k' k' k' hq ht hk' hkt (Conf.mem_structureRange_self k')
        (Conf.mem_structureRange_self k')).1
  case free =>
    intro q hq
    by_cases hqt : q = t
    . subst hqt
      simp only [Conf.unlinkStructure, if_true, hself, hpd.2]
      apply hfree.congr
      intro a _
      unfold State.nextFree
      rw [hblocks]
    . simp only [Conf.unlinkStructure, if_neg hqt, hother q hqt]
      apply (h.free q hq).congr
      intro a ha
      unfold State.nextFree
      rw [hblocks, hs₁.entry_other]
      intro hat
      exact hqt (hC.owns_unique (hC.free_sub q a hq ha).1 (hC.free_sub t a ht hat).1)
  case nbfreeslots =>
    intro q hq
    by_cases hqt : q = t
    . subst hqt
      simp only [Conf.unlinkStructure, if_true, hself]
    . simp only [Conf.unlinkStructure, if_neg hqt, hother q hqt]
      exact h.nbfreeslots q hq
  case nbprepare =>
    intro q hq
    by_cases hqt : q = t
    . subst hqt
      simp only [Conf.unlinkStructure, if_true, hself]
    . simp only [Conf.unlinkStructure, if_neg hqt, hother q hqt]
      exact h.nbprepare q hq
  case blockindex =>
    intro q k' i hq hk' hi
    rw [hblocks, hs₁.blockindex]
    exact h.blockindex q k' i hq (hmem q k' hk') hi
  case slot =>
    intro q k' i hq hk' hi
    have hold := hmem q k' hk'
    have hview : s'.slotView k' i = s.slotView k' i := by
      unfold State.slotView
      rw [hs']
      dsimp only
      rw [hs₂.blockEntries, hs₂.sh1Entries, hs₂.scEntries, hs₁.sh1Entries, hs₁.scEntries]
      by_cases hat : slotAddr k' i ∈ C.free t
      . -- only the link of a free slot changes
        have hfreed := hC.free_sub t _ ht hat
        have hpresent := h.present_eq hfreed.1
        rw [hfreed.2] at hpresent
        rcases hs₁.entry (slotAddr k' i) with ⟨e, hentry⟩
        rw [hentry]
        simp only [mkSlot, hpresent, Bool.false_eq_true, if_false]
      . rw [hs₁.entry_other _ hat]
    rw [hview]
    exact h.slot q k' i hq hold hi

theorem indexedIn_free (h : Sim s C) (hC : C.Apart) {t k : Nat} (ht : C.Live t) (hk : k ∈ C.structures t)
    : IndexedIn s k (C.free t) := by
  intro a ha
  have howns := (hC.free_sub t a ht ha).1
  rcases h.view howns with ⟨k', i, hk', hi, rfl, hindex, -⟩
  have hstart : slotAddr k' i - i * sizeofBlockEntry = k' := Nat.add_sub_cancel k' _
  rw [hindex, hstart]
  constructor
  . rintro rfl
    exact slotAddr_mem hi
  . intro hmem
    exact (hC.structures_disjoint t t k' k _ ht ht hk' hk (slotAddr_mem_structureRange k' hi)
      (slotsOf_mem_structureRange hmem)).2

theorem checkStructureEmpty_run (h : Sim s C) {t k : Nat} (ht : C.Live t) (hk : k ∈ C.structures t)
    : (checkStructureEmptyRecAux fuelN k 7 s = (true, s) ∧ ∀ a ∈ slotsOf k, (C.slot a).present = false)
        ∨ (checkStructureEmptyRecAux fuelN k 7 s = (false, s) ∧ ∃ a ∈ slotsOf k, (C.slot a).present = true) := by
  rcases checkStructureEmptyRecAux_run k s fuelN 7 (by omega) (by unfold fuelN; omega) with
    ⟨hrun, hall⟩ | ⟨hrun, i, hi, hpresent⟩
  . refine .inl ⟨hrun, fun a ha => ?_⟩
    have howns : C.Owns t a := ⟨ht, k, hk, ha⟩
    rcases (mem_slotsOf k a).mp ha with ⟨i, hi, rfl⟩
    rw [← h.present_eq howns]
    exact hall i (by omega)
  . have ha : slotAddr k i ∈ slotsOf k := slotAddr_mem (by omega)
    refine .inr ⟨hrun, slotAddr k i, ha, ?_⟩
    rw [← h.present_eq ⟨ht, k, hk, ha⟩]
    exact hpresent

/--
The loop over the structures stops at an empty one that starts with a block of the partition that runs, and takes it
out of the list.
-/
theorem collectStructureRecAux_unlink (h : Sim s C) (hC : C.Static) {t k b pred fuel : Nat} (before : List Nat)
    {after : List Nat} (hunlink : C.CanUnlink t k b)
    (hstructures : C.structures t = before ++ k :: after) (hpred : ∀ x ∈ before.getLast?, x = pred)
    (hb : C.Has C.cur b) (hnorun : NoRun (slotsOf k) (C.free t)) {post : Nat → State → Prop}
    (hrest : ∀ s₁ s₂ s₄, Respliced t (C.free t) s s₁ → Relinked t (C.structures t) s₁ s₂ →
      s₄ = { s₂ with
        pdtables := s₂.pdtables.set t
          { s₂.pdtables.get t with
            nbprepare := ((C.structures t).erase k).length
            nbfreeslots := ((C.free t).filter (· ∉ slotsOf k)).length } } →
      Sim s₄ (C.unlinkStructure t k) →
      LLI.Ensures
        (do
          writeBlockAccessibleFromBlockEntryAddr b true
          let _ ← writeAccessibleToAncestorsIfNotCutRec t b true
          writeSh1EntryFromBlockEntryAddr b nullAddr false nullAddr
          pure b) s₄ post)
    : LLI.Ensures (collectStructureRecAux (fuel + 1) C.cur t pred k) s post := by
  have ht := hunlink.live
  have hk : k ≠ 0 := hC.structure_ne_zero ht hunlink.mem
  have hne := hC.owns_ne_zero hb.1
  have hapart := hC.sep.toApart
  have hcheck : checkStructureEmptyRecAux fuelN k 7 s = (true, s) := by
    rcases h.checkStructureEmpty_run ht hunlink.mem with ⟨hrun, -⟩ | ⟨-, a, ha, hpresent⟩
    . exact hrun
    . rw [hunlink.empty a ha] at hpresent
      exact absurd hpresent (by simp)
  have hlen := hapart.free_length_le ht
  have hfuel : (C.free t).length < fuelN := by
    unfold fuelN
    omega
  have hseven : sub32 kernelStructureEntriesNb 1 = 7 := by rfl
  have hnodup := hC.structures_nodup t ht
  have herase : (C.structures t).erase k = before ++ after := by
    rw [hstructures] at hnodup ⊢
    rw [List.erase_append_right _ fun hmem => ?_, List.erase_cons_head]
    have := (List.nodup_append.mp hnodup).2.2 k hmem k (by simp)
    exact this rfl
  unfold collectStructureRecAux
  rw [beqAddr_eq]
  refine .cond (fun hnull => absurd (of_decide_eq_true hnull) hk) fun _ => ?_
  refine .bind rfl ?_
  refine .bind rfl ?_
  rw [hseven]
  refine .bind hcheck ?_
  refine .cond (fun hnot => absurd hnot (by simp)) fun _ => ?_
  refine .bind (h.run_findBlock_some hC.sep hb hunlink.houses.start_eq) ?_
  refine .bind (compareAddrToNull_run _ _) ?_
  refine .cond (fun hnull => absurd (of_decide_eq_true hnull) hne) fun _ => ?_
  refine .bind (readPDField_run _ _ _) ?_
  refine .step (fun s₁ => Respliced t (C.free t) s s₁ ∧ FreeList s₁ t ((C.free t).filter (· ∉ slotsOf k)))
    (collectFreeSlotsRecAux_run (fun a ha => ha) (h.indexedIn_free hapart ht hunlink.mem) rfl (h.free t ht) hnorun
      hfuel)
    ?_
  rintro - s₁ ⟨hs₁, hfree⟩
  have hlinked₁ : Linked s₁.nextStructure (s₁.pdtables.get t).structurePtr (before ++ k :: after) := by
    rcases hs₁.pd with ⟨first, hpd⟩
    rw [hpd, ← hstructures]
    apply (h.structures t ht).congr
    intro k' _
    unfold State.nextStructure
    rw [hs₁.nextPointers]
  refine .step (fun s₂ => Relinked t (C.structures t) s₁ s₂ ∧
    Linked s₂.nextStructure (s₂.pdtables.get t).structurePtr ((C.structures t).erase k)) ?_ ?_
  . rw [herase, hstructures]
    exact removeStructure_relinked hlinked₁ hpred
  rintro - s₂ ⟨hs₂, hlist⟩
  have hnb : (s₂.pdtables.get t).nbfreeslots = (C.free t).length ∧
      (s₂.pdtables.get t).nbprepare = (C.structures t).length := by
    rcases hs₁.pd with ⟨first, hpd⟩
    rcases hs₂.pd with ⟨ptr, hpd'⟩
    rw [hpd', hpd]
    exact ⟨h.nbfreeslots t ht, h.nbprepare t ht⟩
  refine .bind (readPDField_run _ _ _) ?_
  refine .bind rfl ?_
  refine .step (· = _) rfl fun _ s₃ hs₃ => ?_
  refine .bind (readPDField_run _ _ _) ?_
  refine .bind rfl ?_
  refine .bind rfl ?_
  refine .step (· = _) rfl fun _ s₄ hs₄ => ?_
  have hlength := hunlink.length_free hC
  have height : sub32 (C.free t).length kernelStructureEntriesNb = ((C.free t).filter (· ∉ slotsOf k)).length := by
    show sub32 (C.free t).length 8 = _
    rw [sub32_eq (by omega) (by rw [wordSize_eq]; omega)]
    omega
  have hone : sub32 (C.structures t).length 1 = ((C.structures t).erase k).length := by
    have hle := hC.structures_length t ht
    have hpos := List.length_pos_of_mem hunlink.mem
    rw [List.length_erase_of_mem hunlink.mem, sub32_eq (by omega) (by rw [wordSize_eq]; omega)]
  have hs₄' : s₄ = { s₂ with
      pdtables := s₂.pdtables.set t
        { s₂.pdtables.get t with
          nbprepare := ((C.structures t).erase k).length
          nbfreeslots := ((C.free t).filter (· ∉ slotsOf k)).length } } := by
    simp only [writePDNbPrepare, modifyPDTable_run] at hs₃
    subst hs₃
    simp only [writePDNbFreeSlots, modifyPDTable_run, Mem.get_set_self, Mem.set_set] at hs₄
    rw [hs₄]
    simp only [hnb.1, hnb.2, hone, height]
  exact hrest s₁ s₂ s₄ hs₁ hs₂ hs₄' (h.unlinkStructure hapart ht hs₁ hfree hs₂ hlist hs₄')

/--
The block of the structure is given back.
-/
theorem collectStructureRecAux_take (h : Sim s C) (hC : C.Static) {t k b pred fuel : Nat} (before : List Nat)
    {after : List Nat} (hunlink : C.CanUnlink t k b)
    (hstructures : C.structures t = before ++ k :: after) (hpred : ∀ x ∈ before.getLast?, x = pred)
    (hb : C.Has C.cur b) (hnorun : NoRun (slotsOf k) (C.free t))
    : LLI.Ensures (collectStructureRecAux (fuel + 1) C.cur t pred k) s fun v s' =>
        v = b ∧ Sim s' (C.giveBack t k b) := by
  have ht := hunlink.live
  refine h.collectStructureRecAux_unlink hC before hunlink hstructures hpred hb hnorun fun _ _ s₄ _ _ _ h₄ => ?_
  have hU := hunlink.sep_unlinkStructure hC
  have hbU : (C.unlinkStructure t k).Has C.cur b := (hunlink.has_unlinkStructure hC _ _).mpr hb
  have hV := hU.setAccessible (· = b) true
  have hbV : ((C.unlinkStructure t k).setAccessible (· = b) true).Has C.cur b := by simpa using hbU
  refine .sim (h₄.run_writeAccessible hU.toApart hbU true) fun _ s₅ h₅ => ?_
  rw [Conf.setSlot_accessible] at h₅
  refine .sim (h₅.run_writeAccessibleIfNotCut hV ht hbV true) fun _ s₆ h₆ => ?_
  have hW : (((C.unlinkStructure t k).setAccessible (· = b) true).walkFrom t b true).Sep := hV.setAccessible _ true
  refine .sim (h₆.run_clearSh1 hW.toApart hbV.1) fun _ s₇ h₇ => ?_
  exact .pure ⟨rfl, h₇⟩

/--
The loop goes on behind a structure that is not empty or lies in no block of the partition that runs.
-/
theorem collectStructureRecAux_skip (h : Sim s C) (hC : C.Static) {t k pred fuel : Nat} (ht : C.Live t)
    (hk : k ∈ C.structures t) (hnot : ∀ b, ¬C.Collectable t k b)
    : collectStructureRecAux (fuel + 1) C.cur t pred k s
        =
      collectStructureRecAux fuel C.cur t k (s.nextStructure k) s := by
  have hne : k ≠ 0 := hC.structure_ne_zero ht hk
  have hseven : sub32 kernelStructureEntriesNb 1 = 7 := by rfl
  have hread : readNextFromKernelStructureStart k s = (s.nextStructure k, s) := by rfl
  conv_lhs => unfold collectStructureRecAux
  simp only [beqAddr_eq, getKernelStructureEntriesNb, Index.pred, LLI.bind_run, LLI.pure_run, hseven, LLI.ite_run]
  rw [if_neg (by simpa using show k ≠ nullAddr from hne)]
  rcases h.checkStructureEmpty_run ht hk with ⟨hrun, hempty⟩ | ⟨hrun, -⟩
  . have hnone := h.run_findBlock_none hC.sep hC.cur_live fun b hb hstart => hnot b ⟨hk, hempty, hb, hstart⟩
    simp [hrun, hnone, hread, compareAddrToNull_run]
  . simp [hrun, hread]

/--
The loop ends at the first structure that can be collected, or at the end of the list.
-/
theorem collectStructureRecAux_loop (h : Sim s C) (hC : C.Static) {t : Nat} (ht : C.Live t) (hown : C.CollectsOwn t)
    {post : Nat → State → Prop} (hnone : (∀ k b, ¬C.Collectable t k b) → post 0 s)
    (htake : ∀ (before : List Nat) k after b pred fuel, C.CanUnlink t k b → C.structures t = before ++ k :: after →
      (∀ x ∈ before.getLast?, x = pred) → C.Has C.cur b → NoRun (slotsOf k) (C.free t) →
      LLI.Ensures (collectStructureRecAux (fuel + 1) C.cur t pred k) s post)
    {fuel pred curr : Nat} (before : List Nat) {rest : List Nat} (hstructures : C.structures t = before ++ rest)
    (hcurr : Linked s.nextStructure curr rest) (hpred : ∀ x ∈ before.getLast?, x = pred)
    (hbefore : ∀ k ∈ before, ∀ b, ¬C.Collectable t k b) (hfuel : rest.length < fuel)
    : LLI.Ensures (collectStructureRecAux fuel C.cur t pred curr) s post := by
  induction fuel generalizing pred curr before rest with
  | zero => omega
  | succ fuel ih =>
    cases rest with
    | nil =>
      unfold collectStructureRecAux
      rw [beqAddr_eq]
      refine .cond (fun _ => .pure (hnone fun k b hk => ?_)) fun hne => ?_
      . rw [List.append_nil] at hstructures
        exact hbefore k (hstructures ▸ hk.mem) b hk
      . exact absurd (decide_eq_true (show curr = nullAddr from hcurr)) hne
    | cons k rest =>
      rcases hcurr with ⟨rfl, -, hrest⟩
      by_cases hcollect : ∃ b, C.Collectable t curr b
      . rcases hcollect with ⟨b, hb⟩
        rcases hown before curr rest b hstructures hbefore hb with ⟨hloc, hnorun⟩
        exact htake before curr rest b pred fuel (hb.canUnlink hC ht hloc) hstructures hpred hb.has hnorun
      . have hnot : ∀ b, ¬C.Collectable t curr b := fun b hb => hcollect ⟨b, hb⟩
        have hk : curr ∈ C.structures t := by
          rw [hstructures]
          simp
        unfold LLI.Ensures
        rw [h.collectStructureRecAux_skip hC ht hk hnot]
        refine ih (before ++ [curr]) (by simp [hstructures]) hrest ?_ ?_ (Nat.lt_of_succ_lt_succ hfuel)
        . simp
        . intro k' hk'
          rcases List.mem_append.mp hk' with hk' | hk'
          . exact hbefore k' hk'
          . rw [List.mem_singleton.mp hk']
            exact hnot

theorem run_collectStructureRecAux (h : Sim s C) (hC : C.Static) {t : Nat} (ht : C.Live t) (hown : C.CollectsOwn t)
    {fuel pred curr : Nat} (before : List Nat) {rest : List Nat} (hstructures : C.structures t = before ++ rest)
    (hcurr : Linked s.nextStructure curr rest) (hpred : ∀ x ∈ before.getLast?, x = pred)
    (hbefore : ∀ k ∈ before, ∀ b, ¬C.Collectable t k b) (hfuel : rest.length < fuel)
    : LLI.Ensures (collectStructureRecAux fuel C.cur t pred curr) s fun v s' =>
        (v = 0 ∧ s' = s ∧ ∀ k b, ¬C.Collectable t k b)
          ∨ ∃ k, C.CanUnlink t k v ∧ C.Has C.cur v ∧ Sim s' (C.giveBack t k v) := by
  refine h.collectStructureRecAux_loop hC ht hown (fun hnone => .inl ⟨rfl, rfl, hnone⟩) ?_ before hstructures hcurr
    hpred hbefore hfuel
  intro before k after b pred fuel hunlink hstructures hpred hb hnorun
  refine (h.collectStructureRecAux_take hC before hunlink hstructures hpred hb hnorun).mono ?_
  rintro v s' ⟨rfl, h'⟩
  exact .inr ⟨k, hunlink, hb, h'⟩

/--
The checks of `collect`.
-/
theorem run_collect_checks (h : Sim s C) (hC : C.Static) (idPD : Nat) {post : Nat → State → Prop}
    (hfail : ∀ t, getGlobalIdPDCurrentOrChild C.cur idPD s = (t, s) →
      t = 0 ∨ (t = C.cur ∧ (C.structures t).length = 1) → post 0 s)
    (hloop : ∀ t pred, getGlobalIdPDCurrentOrChild C.cur idPD s = (t, s) → C.Live t →
      ¬(t = C.cur ∧ (C.structures t).length = 1) →
      LLI.Ensures (collectStructureRecAux fuelN C.cur t pred (s.pdtables.get t).structurePtr) s post)
    : LLI.Ensures (collect idPD) s post := by
  rcases h.run_getGlobalIdPD hC hC.cur_live idPD with ⟨t, hglobal, htarget⟩
  have hone : add32 0 1 = 1 := by rfl
  unfold collect
  refine .bind h.run_getCurPartition ?_
  refine .bind hglobal ?_
  refine .bind (compareAddrToNull_run _ _) ?_
  refine .cond (fun hnull => .pure (hfail t hglobal (.inl (of_decide_eq_true hnull)))) fun hne => ?_
  have ht : C.Live t := by
    rcases htarget with rfl | rfl | ⟨ht, -⟩
    . exact absurd rfl hne
    . exact hC.cur_live
    . exact ht
  refine .bind (h.run_readNbPrepare ht) ?_
  refine .bind rfl ?_
  refine .bind rfl ?_
  refine .bind rfl ?_
  refine .bind rfl ?_
  rw [beqAddr_eq, beqIdx_eq, hone]
  refine .cond (fun honly => ?_) fun honly => ?_
  . simp only [Bool.and_eq_true, decide_eq_true_eq] at honly
    exact .pure (hfail t hglobal (.inr ⟨honly.1, honly.2.symm⟩))
  refine .bind (readPDField_run _ _ _) ?_
  refine .bind rfl ?_
  apply hloop _ _ hglobal ht
  rintro ⟨rfl, hlength⟩
  exact honly (by simp [hlength])

/--
`collect` gives a structure back or changes nothing, if what it collects is its own.
-/
theorem run_collect_target (h : Sim s C) (hC : C.Static) (idPD : Nat)
    (hown : ∀ t, getGlobalIdPDCurrentOrChild C.cur idPD s = (t, s) → C.Live t → C.CollectsOwn t)
    : LLI.Ensures (collect idPD) s fun v s' =>
        (v = 0 ∧ s' = s)
          ∨ ∃ t k, getGlobalIdPDCurrentOrChild C.cur idPD s = (t, s)
            ∧ C.CanUnlink t k v ∧ C.Has C.cur v ∧ Sim s' (C.giveBack t k v) := by
  refine h.run_collect_checks hC idPD (fun _ _ _ => .inl ⟨rfl, rfl⟩) fun t pred hglobal ht _ => ?_
  have hfuel : (C.structures t).length < fuelN := by
    have := hC.structures_length t ht
    unfold fuelN
    omega
  refine (h.run_collectStructureRecAux hC ht (hown t hglobal ht) [] rfl (h.structures t ht) (by simp) (by simp)
    hfuel).mono ?_
  rintro v s' (⟨rfl, rfl, -⟩ | ⟨k, hk⟩)
  . exact .inl ⟨rfl, rfl⟩
  . exact .inr ⟨t, k, hglobal, hk⟩

theorem run_collect_cases (h : Sim s C) (hC : C.Static) (idPD : Nat)
    (hown : ∀ t, getGlobalIdPDCurrentOrChild C.cur idPD s = (t, s) → C.Live t → C.CollectsOwn t)
    : LLI.Ensures (collect idPD) s fun v s' =>
        (v = 0 ∧ s' = s)
          ∨ ∃ t k, C.CanUnlink t k v ∧ C.Has C.cur v ∧ Sim s' (C.giveBack t k v) := by
  refine (h.run_collect_target hC idPD hown).mono fun v s' => ?_
  rintro (hnull | ⟨t, k, -, hk⟩)
  . exact .inl hnull
  . exact .inr ⟨t, k, hk⟩

/--
The first structure of the partition is collected at once.
-/
theorem run_collect (h : Sim s C) (hC : C.Static) {idPD t k b : Nat} {ks : List Nat}
    (hglobal : getGlobalIdPDCurrentOrChild C.cur idPD s = (t, s)) (hunlink : C.CanUnlink t k b)
    (hstructures : C.structures t = k :: ks) (hb : C.Has C.cur b) (hnorun : NoRun (slotsOf k) (C.free t))
    (hks : t = C.cur → ks ≠ [])
    : LLI.Ensures (collect idPD) s fun v s' => v = b ∧ Sim s' (C.giveBack t k b) := by
  have ht := hunlink.live
  refine h.run_collect_checks hC idPD ?_ ?_
  . intro t' hglobal' hfail
    rw [hglobal] at hglobal'
    cases hglobal'
    rcases hfail with hzero | ⟨hcur, hlength⟩
    . exact absurd hzero (hC.live_ne_zero ht)
    . rw [hstructures, List.length_cons] at hlength
      exact absurd (List.eq_nil_of_length_eq_zero (by omega)) (hks hcur)
  . intro t' pred hglobal' _ _
    rw [hglobal] at hglobal'
    cases hglobal'
    have hfirst := h.structures t ht
    rw [hstructures] at hfirst
    rw [hfirst.1]
    show LLI.Ensures (collectStructureRecAux (999 + 1) C.cur t pred k) s _
    exact h.collectStructureRecAux_take hC [] hunlink hstructures (by simp) hb hnorun

/--
The descriptor behind `a` only depends on the blocks of `p`, and on where they start and whether they hold a descriptor.
-/
theorem getGlobalIdPD_eq {s' : State} {C' : Conf} (h : Sim s C) (hC : C.Static) (h' : Sim s' C') (hC' : C'.Static)
    {p : Nat} (hp : C.Live p) (hp' : C'.Live p) (hhas : ∀ a, C'.Has p a ↔ C.Has p a)
    (hfields : ∀ a, C.Has p a → (C'.slot a).PDflag = (C.slot a).PDflag ∧
      (C'.slot a).startAddr = (C.slot a).startAddr) (a : Nat)
    : getGlobalIdPDCurrentOrChild p a s' = ((getGlobalIdPDCurrentOrChild p a s).1, s') := by
  unfold getGlobalIdPDCurrentOrChild getBeqAddr
  simp only [LLI.bind_run, LLI.pure_run, LLI.ite_run, beqAddr_eq, decide_eq_true_eq]
  by_cases heq : a = p
  . simp only [if_pos heq]
  . simp only [if_neg heq]
    by_cases ha : C.Has p a
    . have ha' := (hhas a).mpr ha
      rw [h.run_checkChild_of_has hC ha, h'.run_checkChild_of_has hC' ha', (hfields a ha).1]
      cases (C.slot a).PDflag with
      | false => rfl
      | true =>
        simp only [if_true, h.run_readStart ha.1, h'.run_readStart ha'.1, (hfields a ha).2]
    . have hnot : ∀ {s₀ : State} {C₀ : Conf}, Sim s₀ C₀ → C₀.Static → C₀.Live p → ¬C₀.Has p a →
          checkChildOfCurrPart p a s₀ = (false, s₀) := fun h₀ hS₀ hp₀ ha₀ =>
        (h₀.run_checkChild hS₀ hp₀ a).resolve_left fun hfound => ha₀ hfound.1
      rw [hnot h hC hp ha, hnot h' hC' hp' fun ha' => ha ((hhas a).mp ha')]
      rfl

end Sim
