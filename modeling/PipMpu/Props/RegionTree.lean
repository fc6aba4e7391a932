import PipMpu.Props.RegionCalls
import PipMpu.Props.Failures
import PipMpu.Refine.Collect
import PipMpu.Refine.Create
import PipMpu.Refine.Delete

/-!
This module contains the runs of the services that create and delete partitions and structures. The view changes with
them: a new partition starts with empty regions, and the regions of a deleted one are gone.
-/

/--
The view has no partitions but those of the other view, which keep their blocks.
-/
theorem Mapping.transfer {C D : Conf} {stale : Nat → Prop} {s : State} (h : Mapping C stale s)
    (hlive : ∀ p, D.Live p → C.Live p) (howns : ∀ p a, D.Live p → C.Owns p a → s.Offered a → D.Owns p a)
    : Mapping D stale s where
  mpu_length p hp := h.mpu_length p (hlive p hp)
  LUT_length p hp := h.LUT_length p (hlive p hp)
  owns p i hp hi := howns p _ hp (h.owns p i (hlive p hp) hi) (h.offered p i (hlive p hp) hi)
  offered p i hp := h.offered p i (hlive p hp)
  once p hp := h.once p (hlive p hp)
  programmed p i hp := h.programmed p i (hlive p hp)

namespace PDTable

/--
All regions are empty.
-/
structure Blank (pdt : PDTable) : Prop where
  mpu_length : pdt.mpu.length = mpuRegionsNb
  LUT_length : pdt.LUT.length = mpuRegionsNb * 2
  region : ∀ i, pdt.mpu.getD i nullAddr = nullAddr
  registers : ∀ i < mpuRegionsNb, pdt.registers i = clearedLUTEntry i

theorem blank_default : ({ (default : PDTable) with LUT := clearLUT (default : PDTable).LUT } : PDTable).Blank where
  mpu_length := rfl
  LUT_length := rfl
  region i := by
    show (List.replicate mpuRegionsNb 0).getD i nullAddr = nullAddr
    rw [List.getD_eq_getElem?_getD, List.getElem?_replicate]
    split <;> rfl
  registers := by
    have hall : ∀ i ∈ List.range mpuRegionsNb,
        ({ (default : PDTable) with LUT := clearLUT (default : PDTable).LUT } : PDTable).registers i =
          clearedLUTEntry i := by decide +kernel
    exact fun i hi => hall i (List.mem_range.mpr hi)

theorem Blank.of_eq {pdt pdt' : PDTable} (h : pdt.Blank) (hmpu : pdt'.mpu = pdt.mpu) (hLUT : pdt'.LUT = pdt.LUT)
    : pdt'.Blank := by
  refine ⟨by rw [hmpu]; exact h.mpu_length, by rw [hLUT]; exact h.LUT_length, fun i => by rw [hmpu]; exact h.region i,
    fun i hi => ?_⟩
  rw [← h.registers i hi]
  unfold PDTable.registers
  rw [hLUT]

end PDTable

namespace Mapping

variable {C : Conf} {stale : Nat → Prop} {s s' : State}

theorem of_blank (h : ∀ p, C.Live p → (s.pdtables.get p).Blank) : Mapping C stale s := by
  have hregion : ∀ p i, C.Live p → s.region p i = nullAddr := fun p i hp => (h p hp).region i
  constructor
  case mpu_length => exact fun p hp => (h p hp).mpu_length
  case LUT_length => exact fun p hp => (h p hp).LUT_length
  case owns => exact fun p i hp hi => absurd (hregion p i hp) hi
  case offered => exact fun p i hp hi => absurd (hregion p i hp) hi
  case once => exact fun p hp i _ hi => absurd (hregion p i hp) hi
  case programmed =>
    intro p i hp hi _
    rw [hregion p i hp, State.registersFor, if_pos rfl]
    exact (h p hp).registers i hi

/--
A new partition has empty regions.
-/
theorem addLeaf (h : Mapping C stale s) {p c : Nat} (hc : ¬C.Live c)
    (hpd : ∀ q, q ≠ c → s'.pdtables.get q = s.pdtables.get q) (hblank : (s'.pdtables.get c).Blank)
    (hblock : s'.blockEntries = s.blockEntries) : Mapping (C.addLeaf p c) stale s' := by
  have hregion : ∀ q i, q ≠ c → s'.region q i = s.region q i := by
    intro q i hq
    unfold State.region
    rw [hpd q hq]
  have hne : ∀ q, C.Live q → q ≠ c := fun q hq heq => hc (heq ▸ hq)
  have hoffered : ∀ a, s.Offered a → s'.Offered a := by
    intro a ha
    unfold State.Offered
    rw [hblock]
    exact ha
  constructor
  case mpu_length =>
    rintro q (rfl | hq)
    . exact hblank.mpu_length
    . rw [hpd q (hne q hq)]
      exact h.mpu_length q hq
  case LUT_length =>
    rintro q (rfl | hq)
    . exact hblank.LUT_length
    . rw [hpd q (hne q hq)]
      exact h.LUT_length q hq
  case owns =>
    rintro q i (rfl | hq) hi
    . exact absurd (hblank.region i) hi
    . rw [hregion q i (hne q hq)] at hi ⊢
      exact (Conf.addLeaf_owns hc q _).mpr (h.owns q i hq hi)
  case offered =>
    rintro q i (rfl | hq) hi
    . exact absurd (hblank.region i) hi
    . rw [hregion q i (hne q hq)] at hi ⊢
      exact hoffered _ (h.offered q i hq hi)
  case once =>
    rintro q (rfl | hq) i j hi
    . exact absurd (hblank.region i) hi
    . rw [hregion q i (hne q hq)] at hi ⊢
      rw [hregion q j (hne q hq)]
      exact h.once q hq i j hi
  case programmed =>
    rintro q i (rfl | hq) hi hstale
    . have hnull : s'.region q i = nullAddr := hblank.region i
      rw [hnull, State.registersFor, if_pos rfl]
      exact hblank.registers i hi
    . rw [hregion q i (hne q hq)] at hstale ⊢
      rw [hpd q (hne q hq), h.programmed q i hq hi hstale]
      unfold State.registersFor
      rw [hblock]

end Mapping

namespace Mapped

variable {C : Conf} {s : State}

/--
The new child starts with empty regions, and the block that holds its descriptor leaves the regions.
-/
theorem run_createPartition (hm : Mapped C (fun _ => False) s) (h : Sim s C) (hC : C.Inv) {a : Nat}
    (hcreate : (createPartition a s).1 = true)
    : Mapped (C.addLeaf C.cur (C.slot a).startAddr) (fun _ => False) (createPartition a s).2 := by
  have hS := hC.static
  have hfail : ∀ s' : State, false = true →
      Mapped (C.addLeaf C.cur (C.slot a).startAddr) (fun _ => False) s' := fun _ h => absurd h (by simp)
  suffices hrun : LLI.Ensures (createPartition a) s fun v s' => v = true →
    Mapped (C.addLeaf C.cur (C.slot a).startAddr) (fun _ => False) s' from hrun hcreate
  rcases h.run_findWithAddr hS.sep hS.cur_live a with ⟨b, hrun, hb⟩
  unfold createPartition
  refine .bind h.run_getCurPartition ?_
  refine .bind hrun ?_
  refine .bind (compareAddrToNull_run _ _) ?_
  refine .cond (fun _ => .pure (hfail s)) fun hne => ?_
  simp only [decide_eq_true_eq] at hne
  rcases hb hne with ⟨rfl, hb⟩
  refine .bind (h.run_readAccessible hb.1) ?_
  refine .cond (fun _ => .pure (hfail s)) fun hacc => ?_
  refine .bind (h.run_checkBlockInRAM hb) ?_
  refine .cond (fun _ => .pure (hfail s)) fun hram => ?_
  refine .bind (h.run_sizeOfBlock hS hb) ?_
  iterate 2 refine .bind rfl ?_
  refine .cond (fun _ => .pure (hfail s)) fun _ => ?_
  iterate 2 refine .bind rfl ?_
  refine .cond (fun _ => .pure (hfail s)) fun _ => ?_
  refine .bind (h.run_readPDChild hb.1) ?_
  refine .bind (compareAddrToNull_run _ _) ?_
  refine .cond (fun _ => .pure (hfail s)) fun _ => ?_
  refine .bind (h.run_readStart hb.1) ?_
  refine .bind (h.run_readEnd hb) ?_
  simp only [Bool.not_eq_true', Bool.not_eq_false] at hacc
  simp only [Bool.not_eq_true', Bool.not_eq_false, Bool.and_eq_true, decide_eq_true_eq] at hram
  have hclear := hC.clear hb hacc
  have hlive : ¬C.Live (C.slot b).startAddr := fun hlive => hclear.pd _ hlive (hS.mem_range_start hb)
  have hrampos : 0 < ramStart := by decide
  have hsep := hS.sep.addLeaf hS.cur_live (hS.depth_le hS.cur_live) hlive (by omega)
  have hapart := hsep.toApart
  have hcur : (C.addLeaf C.cur (C.slot b).startAddr).Live C.cur := .inr hS.cur_live
  have hown := (Conf.addLeaf_owns (p := C.cur) hlive C.cur b).mpr hb.1
  refine .step (fun s₁ => Sim s₁ C ∧ Mapped C (fun _ => False) s₁)
    ⟨h.outside hS.sep.toApart hclear (SameOutside.of_eraseBlock _ _ s),
      hm.outside hclear (SameOutside.of_eraseBlock _ _ s)⟩ ?_
  rintro _ s₁ ⟨h₁, hm₁⟩
  refine .bind (modifyPDTable_run _ _ _) ?_
  refine .step (Mapped (C.addLeaf C.cur (C.slot b).startAddr) fun _ => False) ?_ fun _ s₂ hm₂ => ?_
  . generalize hs₂ : (writePDParent _ _ _).2 = s₂
    simp only [writePDParent, modifyPDTable_run] at hs₂
    have hpd : ∀ q, q ≠ (C.slot b).startAddr → s₂.pdtables.get q = s₁.pdtables.get q := by
      intro q hq
      rw [← hs₂]
      simp only [Mem.get_set_of_ne _ _ (Ne.symm hq)]
    constructor
    . apply hm₁.mapping.addLeaf hlive hpd
      . rw [← hs₂]
        simp only [Mem.get_set_self]
        exact PDTable.blank_default.of_eq rfl rfl
      . rw [← hs₂]
    . refine (h₁.addLeaf hlive ?_ ?_ hpd ?_ ?_ ?_ ?_ ?_).chained
      case refine_3 =>
        rw [← hs₂]
        simp only [Mem.get_set_self]
        rfl
      all_goals rw [← hs₂]
  refine .step (· = _) rfl fun _ s₃ hs₃ => ?_
  subst hs₃
  refine .step (Mapped (C.addLeaf C.cur (C.slot b).startAddr) fun _ => False) (hm₂.revoke hapart hown)
    fun _ s₄ hm₄ => ?_
  refine .step (Mapped (C.addLeaf C.cur (C.slot b).startAddr) fun _ => False) (hm₄.sh1 _ _) fun _ s₅ hm₅ => ?_
  iterate 4 refine .read rfl ?_
  refine .cond (fun _ => ?_) fun _ => .pure fun _ => hm₅
  refine .step (Mapped (C.addLeaf C.cur (C.slot b).startAddr) fun _ => False)
    (hm₅.ancestors hapart hcur _ _ false) fun _ s₆ hm₆ => ?_
  exact .pure fun _ => hm₆

/--
The entries of the new structure are none of the entries in the regions.
-/
theorem run_prepareBlock (hm : Mapped C (fun _ => False) s) (hC : C.Inv) {t b : Nat}
    (hcan : C.CanPrepare t b)
    : Mapping C (fun _ => False) (prepareBlock C.cur t b (C.slot b).startAddr (C.slot b).endAddr s).2 := by
  have hS := hC.static
  have hapart := hS.sep.toApart
  have hb := hcan.has
  have hsize := hcan.size_le
  have hclear := hC.clear hb hcan.accessible_eq
  have hrange : structureRange (C.slot b).startAddr ⊆ (C.slot b).range := by
    intro x hx
    unfold structureRange at hx
    rw [sizeofKStructure_eq] at hx
    rcases hx with ⟨hlo, hhi⟩
    constructor <;> omega
  have hinit := initStructure_run (C.slot b).startAddr (e := (C.slot b).endAddr)
    (by rw [sizeofKStructure_eq]; omega) s
  show LLI.Ensures (prepareBlock C.cur t b (C.slot b).startAddr (C.slot b).endAddr) s
    fun _ s' => Mapping C (fun _ => False) s'
  unfold prepareBlock
  refine .step (Mapped C fun _ => False) (hm.outside hclear hinit.2.1) fun _ s₁ hm₁ => ?_
  refine .cond (fun _ => .pure hm₁.mapping) fun _ => ?_
  refine .bind rfl ?_
  unfold linkBlock
  refine .step (· = _) rfl fun _ s₂ hs₂ => ?_
  subst hs₂
  refine .step (Mapped C fun _ => False) (hm₁.revoke hapart hb.1) fun _ s₃ hm₃ => ?_
  refine .step (Mapped C fun _ => False) (hm₃.ancestorsIfNotCut hapart hS.cur_live b false) fun _ s₄ hm₄ => ?_
  -- the descriptor points at the new structure from here on
  refine .read rfl ?_
  refine .step (Mapping C fun _ => False) (hm₄.mapping.shrink (fun _ _ => .refl _) fun _ _ _ => rfl)
    fun _ s₅ hm₅ => ?_
  refine .step (Mapping C fun _ => False) (hm₅.table rfl rfl) fun _ s₆ hm₆ => ?_
  refine .bind (a := 7) rfl ?_
  refine .bind (a := slotAddr (C.slot b).startAddr 7) rfl ?_
  refine .read rfl ?_
  have hunmapped : s₆.Unmapped C (slotAddr (C.slot b).startAddr 7) := by
    intro p i hp heq
    have hpos := hS.location_eq_zero hb hcan.PDchild_eq
    have hne : slotAddr (C.slot b).startAddr 7 ≠ nullAddr := by
      rw [slotAddr_eq]
      unfold nullAddr
      omega
    have howns := hm₆.owns p i hp (heq ▸ hne)
    rw [heq] at howns
    rcases howns with ⟨-, k, hk, hmem⟩
    exact hclear.structures p k _ hp hk (slotsOf_mem_structureRange hmem)
      (hrange (slotAddr_mem_structureRange _ (by omega)))
  refine .step (Mapping C fun _ => False) (hm₆.entry_unmapped hunmapped _) fun _ s₇ hm₇ => ?_
  refine .step (Mapping C fun _ => False) (hm₇.table rfl rfl) fun _ s₈ hm₈ => ?_
  iterate 2 refine .read rfl ?_
  refine .step (Mapping C fun _ => False) (hm₈.table rfl rfl) fun _ s₉ hm₉ => ?_
  iterate 2 refine .read rfl ?_
  refine .step (Mapping C fun _ => False) (hm₉.table rfl rfl) fun _ s₁₀ hm₁₀ => ?_
  refine .read rfl ?_
  refine .cond (fun _ => ?_) fun _ => .pure hm₁₀
  refine .step (Mapping C fun _ => False) (hm₁₀.sh1 _) fun _ s₁₁ hm₁₁ => ?_
  exact .pure hm₁₁

/--
The loop over the entries of the caller gives blocks back, none of them leaves a region.
-/
theorem deleteSharedInStruct (hC : C.Apart) {p : Nat} (hp : C.Live p) (timeout k c i : Nat)
    : Keeps (Carries (Mapped C fun _ => False)) (deleteSharedBlocksInStructRecAux timeout p k c i) := by
  have hallow : ∀ a, Keeps (Carries (Mapped C fun _ => False)) (writeBlockAccessibleFromBlockEntryAddr a true) :=
    fun a s hs => hs.allow a
  have hclear : ∀ a, Keeps (Carries (Mapped C fun _ => False))
      (writeSh1EntryFromBlockEntryAddr a nullAddr false nullAddr) :=
    fun a s hs => hs.clearSh1 a
  have hwalk : ∀ lo hi, Keeps (Carries (Mapped C fun _ => False)) (writeAccessibleRec p lo hi true) :=
    fun lo hi s hs => hs.ancestors hC hp lo hi true
  induction timeout generalizing i with
  | zero => exact LLI.keeps_pure false
  | succ timeout ih =>
    have hrest : ∀ n, Keeps (Carries (Mapped C fun _ => False))
        (if beqIdx i n then (pure true : LLI Bool)
          else Index.pred i >>= deleteSharedBlocksInStructRecAux timeout p k c) :=
      fun n => LLI.keeps_guard (LLI.keeps_read (fun _ => rfl) fun _ => ih _)
    unfold deleteSharedBlocksInStructRecAux
    iterate 4 refine LLI.keeps_read (fun _ => rfl) fun _ => ?_
    apply Keeps.ite
    . intro _
      refine LLI.keeps_bind (hallow _) fun _ => ?_
      refine LLI.keeps_bind (hclear _) fun _ => ?_
      refine LLI.keeps_read (checkBlockCut_state _) fun _ => ?_
      apply Keeps.ite
      . intro _
        refine LLI.keeps_bind (hwalk _ _) fun _ => ?_
        exact LLI.keeps_read (fun _ => rfl) fun _ => hrest _
      . intro _
        exact LLI.keeps_read (fun _ => rfl) fun _ => hrest _
    . intro _
      exact LLI.keeps_read (fun _ => rfl) fun _ => hrest _

theorem deleteShared (hC : C.Apart) {p : Nat} (hp : C.Live p) (timeout k c : Nat)
    : Keeps (Carries (Mapped C fun _ => False)) (deleteSharedBlocksRecAux timeout p k c) := by
  induction timeout generalizing k with
  | zero => exact LLI.keeps_pure false
  | succ timeout ih =>
    unfold deleteSharedBlocksRecAux
    refine LLI.keeps_guard ?_
    iterate 2 refine LLI.keeps_read (fun _ => rfl) fun _ => ?_
    refine LLI.keeps_bind (deleteSharedInStruct hC hp _ _ _ _) fun _ => ?_
    exact LLI.keeps_read (fun _ => rfl) fun _ => ih _

/--
The regions of the child and of the partitions below it go with them.
-/
theorem run_deletePartition (hm : Mapped C (fun _ => False) s) (h : Sim s C) (hC : C.Inv) {a : Nat}
    (ha : C.Has C.cur a) (hflag : (C.slot a).PDflag = true)
    : Mapped (C.dropTree (C.slot a).startAddr) (fun _ => False) (deletePartition a s).2 := by
  have hS := hC.static
  rcases hS.flag_kind _ a ha hflag with ⟨-, -, hclive, hparent, hcroot⟩
  have hdrop : C.CanDrop (C.slot a).startAddr := ⟨hclive, hcroot, hparent.symm⟩
  have hX := Conf.Reclaiming.start hS hdrop
  have hapart := hX.sep.toApart
  have hclear := hC.clear_dropTree ha hflag
  have ha₁ := (hX.owns_iff C.cur a).mpr ⟨ha.1, hdrop.not_below_cur hS⟩
  have hcur := ha₁.1
  have hm₀ : Mapped (C.dropTree (C.slot a).startAddr) (fun _ => False) s := by
    refine ⟨hm.mapping.transfer (fun _ hp => hp.1) fun p x hp hx _ => ⟨hp, hx.2⟩, (h.dropTree _).chained⟩
  show LLI.Ensures (deletePartition a) s
    fun _ s' => Mapped (C.dropTree (C.slot a).startAddr) (fun _ => False) s'
  unfold deletePartition
  refine .bind h.run_getCurPartition ?_
  refine .bind (h.run_findWithAddr_some hS.sep ha) ?_
  refine .bind (compareAddrToNull_run _ _) ?_
  refine .cond (fun _ => .pure hm₀) fun _ => ?_
  refine .bind (h.run_readPDFlag ha.1) ?_
  refine .cond (fun _ => .pure hm₀) fun _ => ?_
  refine .bind (h.run_readStart ha.1) ?_
  refine .bind (h.run_readEnd ha) ?_
  refine .step (Mapped (C.dropTree (C.slot a).startAddr) fun _ => False)
    (hm₀.outside hclear (SameOutside.of_eraseBlock _ _ s)) fun _ s₁ hm₁ => ?_
  iterate 3 refine .read rfl ?_
  refine .step (Mapped (C.dropTree (C.slot a).startAddr) fun _ => False) (deleteShared hapart hcur _ _ _ s₁ hm₁)
    fun _ s₂ hm₂ => ?_
  refine .step (Mapped (C.dropTree (C.slot a).startAddr) fun _ => False) (hm₂.allow a) fun _ s₃ hm₃ => ?_
  refine .step (Mapped (C.dropTree (C.slot a).startAddr) fun _ => False) (hm₃.clearSh1 a) fun _ s₄ hm₄ => ?_
  refine .read (checkBlockCut_state a s₄) ?_
  refine .cond (fun _ => .pure hm₄) fun _ => ?_
  refine .step (Mapped (C.dropTree (C.slot a).startAddr) fun _ => False) (hm₄.ancestors hapart hcur _ _ true)
    fun _ s₅ hm₅ => ?_
  exact .pure hm₅

/--
A structure that leaves its list holds no block, so none of its slots is in a region.
-/
theorem unlinkStructure (hm : Mapped C (fun _ => False) s) (h : Sim s C) (hC : C.Static) {t k b : Nat}
    (hunlink : C.CanUnlink t k b) {s₁ s₂ s' : State} (hs₁ : Respliced t (C.free t) s s₁)
    (hs₂ : Relinked t (C.structures t) s₁ s₂) {prepares slots : Nat}
    (hs' : s' = { s₂ with
      pdtables := s₂.pdtables.set t { s₂.pdtables.get t with nbprepare := prepares, nbfreeslots := slots } })
    (hsim' : Sim s' (C.unlinkStructure t k)) : Mapped (C.unlinkStructure t k) (fun _ => False) s' := by
  have hapart := hC.sep.toApart
  refine ⟨?_, hsim'.chained⟩
  have hkept : Mapping C (fun _ => False) s' := by
    refine hm.mapping.step (fun p _ => ?_) fun p i hp hi => ?_
    . rw [hs']
      dsimp only
      rw [Mem.get_set]
      split
      . next heq =>
        subst heq
        rcases hs₁.pd with ⟨first, hpd⟩
        rcases hs₂.pd with ⟨ptr, hpd'⟩
        rw [hpd', hpd]
        exact .of_eq rfl rfl
      . next hne =>
        rw [hs₂.pd_other p (Ne.symm hne), hs₁.pd_other p (Ne.symm hne)]
        exact .refl _
    . have hblocks : s'.blockEntries = s₁.blockEntries := by
        rw [hs']
        exact hs₂.blockEntries
      have hregion : s'.region p i = s.region p i := by
        rw [hs']
        unfold State.region
        dsimp only
        rw [Mem.get_set]
        split
        . next heq =>
          subst heq
          rcases hs₁.pd with ⟨first, hpd⟩
          rcases hs₂.pd with ⟨ptr, hpd'⟩
          rw [hpd', hpd]
        . next hne => rw [hs₂.pd_other p (Ne.symm hne), hs₁.pd_other p (Ne.symm hne)]
      rw [hregion] at hi ⊢
      rw [hblocks, hs₁.entry_other]
      . exact ⟨.refl _, .inr (.refl _)⟩
      . intro hmem
        have hfree := hapart.free_sub t _ hunlink.live hmem
        have hpresent := (hm.mapping.offered p i hp hi).1
        rw [h.present_eq hfree.1, hfree.2] at hpresent
        exact absurd hpresent (by simp)
  refine hkept.transfer (fun _ hp => hp) fun p x hp hx hoffered => ?_
  -- the structure that is gone held no block
  have hpresent : (C.slot x).present = true := by
    rw [← h.present_eq hx, ← hoffered.1, hs']
    rcases hs₁.entry x with ⟨e, hentry⟩
    dsimp only
    rw [hs₂.blockEntries, hentry]
  exact ((hunlink.has_unlinkStructure hC p x).mpr ⟨hx, hpresent⟩).1

/--
`collect` changes nothing or gives a structure back.
-/
theorem run_collect (hm : Mapped C (fun _ => False) s) (h : Sim s C) (hC : C.Static) (idPD : Nat)
    (hown : ∀ t, getGlobalIdPDCurrentOrChild C.cur idPD s = (t, s) → C.Live t → C.CollectsOwn t)
    : LLI.Ensures (collect idPD) s fun v s' =>
        s' = s ∨ ∃ t k, C.CanUnlink t k v ∧ C.Has C.cur v ∧ Sim s' (C.giveBack t k v)
          ∧ Mapping (C.giveBack t k v) (fun _ => False) s' := by
  refine h.run_collect_checks hC idPD (fun _ _ _ => .inl rfl) fun t pred hglobal ht _ => ?_
  have hfuel : (C.structures t).length < fuelN := by
    have := hC.structures_length t ht
    unfold fuelN
    omega
  refine h.collectStructureRecAux_loop hC ht (hown t hglobal ht) (fun _ => .inl rfl) ?_ [] rfl (h.structures t ht)
    (by simp) (by simp) hfuel
  intro before k after b pred fuel hunlink hstructures hpred hb hnorun
  have hapart := (hunlink.sep_unlinkStructure hC).toApart
  have hview : LLI.Ensures (collectStructureRecAux (fuel + 1) C.cur t pred k) s
      fun v s' => v = b ∧ Sim s' (C.giveBack t k b) :=
    h.collectStructureRecAux_take hC before hunlink hstructures hpred hb hnorun
  have hmapping : LLI.Ensures (collectStructureRecAux (fuel + 1) C.cur t pred k) s
      fun _ s' => Mapping (C.unlinkStructure t k) (fun _ => False) s' := by
    refine h.collectStructureRecAux_unlink hC before hunlink hstructures hpred hb hnorun
      fun s₁ s₂ s₄ hs₁ hs₂ hs₄ h₄ => ?_
    have hm₄ := hm.unlinkStructure h hC hunlink hs₁ hs₂ hs₄ h₄
    refine .step (Mapped (C.unlinkStructure t k) fun _ => False) (hm₄.allow b) fun _ s₅ hm₅ => ?_
    refine .step (Mapped (C.unlinkStructure t k) fun _ => False) (hm₅.ancestorsIfNotCut hapart hunlink.live b true)
      fun _ s₆ hm₆ => ?_
    refine .step (Mapped (C.unlinkStructure t k) fun _ => False) (hm₆.clearSh1 b) fun _ s₇ hm₇ => ?_
    exact .pure hm₇.mapping
  rcases hview with ⟨hvalue, h'⟩
  refine .inr ⟨t, k, ?_⟩
  rw [hvalue]
  exact ⟨hunlink, hb, h', hmapping.transfer (fun _ hp => hp) fun _ _ _ ha _ => ha⟩

end Mapped
