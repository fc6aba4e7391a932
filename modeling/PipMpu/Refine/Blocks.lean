import PipMpu.Refine.Ensures

/-!
This module contains the refinement of the services that cut and merge blocks. The virtual MPU is no
part of the abstract view, so the writes to it change nothing there.
-/

namespace Sim

variable {s : State} {C : Conf}

/-
Virtual MPU
-/

theorem of_mpuRegs (h : Sim s C) (regs : MpuRegs) : Sim { s with mpuRegs := regs } C :=
  ⟨h.cur, h.root, h.parent, h.structures, h.free, h.nbfreeslots, h.nbprepare, h.blockindex, h.slot⟩

theorem run_replaceBlock (h : Sim s C) (p b i : Nat)
    : Sim (replaceBlockInPhysicalMPU p b i s).2 C := by
  show LLI.Ensures (replaceBlockInPhysicalMPU p b i) s fun _ s' => Sim s' C
  unfold replaceBlockInPhysicalMPU
  refine .bind (LLI.get_run s) ?_
  refine .sim (h.setPD p _ fun _ => rfl) fun _ s₁ h₁ => ?_
  refine .bind h₁.run_getCurPartition ?_
  refine .cond (fun _ => ?_) fun _ => .pure h₁
  refine .bind (LLI.gets_run _ _) ?_
  exact h₁.of_mpuRegs _

theorem run_enableBlock (h : Sim s C) (p b i : Nat) : Sim (enableBlockInMPU p b i s).2 C := by
  show LLI.Ensures (enableBlockInMPU p b i) s fun _ s' => Sim s' C
  unfold enableBlockInMPU
  refine .bind rfl ?_
  refine .bind rfl ?_
  refine .bind rfl ?_
  refine .bind rfl ?_
  refine .cond (fun _ => .pure h) fun _ => ?_
  refine .sim (h.run_replaceBlock p b i) fun _ s₁ h₁ => ?_
  exact .pure h₁

/-
Cut
-/

theorem run_cutMemoryBlock_cases (h : Sim s C) (hC : C.Inv) (a cutAddr region : Nat)
    : LLI.Ensures (cutMemoryBlock a cutAddr region) s fun v s' => (v = 0 ∧ Sim s' C) ∨
        ∃ rest, C.CanSplit C.cur a v cutAddr rest ∧ (C.slot a).accessible = true
          ∧ Sim s' (C.cut C.cur a v cutAddr rest) := by
  have hS := hC.static
  rcases h.run_findWithAddr hS.sep hS.cur_live a with ⟨b, hrun, hb⟩
  unfold cutMemoryBlock
  refine .bind h.run_getCurPartition ?_
  refine .bind (h.run_readNbFreeSlots hS.cur_live) ?_
  refine .bind rfl ?_
  refine .bind rfl ?_
  refine .cond (fun _ => .pure (.inl ⟨rfl, h⟩)) fun hfull => ?_
  refine .bind hrun ?_
  refine .bind (compareAddrToNull_run _ _) ?_
  refine .cond (fun _ => .pure (.inl ⟨rfl, h⟩)) fun hne => ?_
  simp only [decide_eq_true_eq] at hne
  rcases hb hne with ⟨rfl, hb⟩
  refine .bind (h.run_readAccessible hb.1) ?_
  refine .cond (fun _ => .pure (.inl ⟨rfl, h⟩)) fun hacc => ?_
  refine .bind (h.run_readPDChild hb.1) ?_
  refine .bind (compareAddrToNull_run _ _) ?_
  refine .cond (fun _ => .pure (.inl ⟨rfl, h⟩)) fun hchild => ?_
  refine .bind (h.run_readStart hb.1) ?_
  refine .bind rfl ?_
  refine .cond (fun _ => .pure (.inl ⟨rfl, h⟩)) fun hstart => ?_
  refine .bind (h.run_readEnd hb) ?_
  refine .bind rfl ?_
  refine .cond (fun _ => .pure (.inl ⟨rfl, h⟩)) fun hend => ?_
  refine .bind rfl ?_
  refine .bind rfl ?_
  refine .bind rfl ?_
  refine .bind rfl ?_
  refine .bind rfl ?_
  refine .cond (fun _ => .pure (.inl ⟨rfl, h⟩)) fun _ => ?_
  refine .bind rfl ?_
  refine .cond (fun _ => .pure (.inl ⟨rfl, h⟩)) fun _ => ?_
  simp only [Bool.not_eq_true', Bool.not_eq_false] at hacc
  simp only [Bool.not_eq_true', decide_eq_false_iff_not, Decidable.not_not] at hchild
  rcases hfree : C.free C.cur with _ | ⟨f, rest⟩
  . rw [hfree] at hfull
    exact absurd (decide_eq_true (Nat.le_refl 0)) hfull
  have hstart : (C.slot b).startAddr < cutAddr :=
    Nat.lt_of_not_le fun hle => hstart (decide_eq_true hle)
  have hend : cutAddr < (C.slot b).endAddr :=
    Nat.lt_of_not_le fun hle => hend (decide_eq_true hle)
  have hsplit : C.CanSplit C.cur b f cutAddr rest :=
    ⟨hb, hchild, hC.flag_of_accessible hb hacc, hC.notMem_of_accessible hb hacc, hfree, hstart, hend⟩
  refine .sim (h.run_writeAccessibleIfNotCut hS.sep hS.cur_live hb false) fun _ s₁ h₁ => ?_
  have hsplitw := hsplit.walkFrom false
  have hSw := hS.walkFrom C.cur b false
  have hslotw := hS.slot_walkFrom_self hb false
  have hcut : (C.walkFrom C.cur b false).split C.cur b f cutAddr rest = C.cut C.cur b f cutAddr rest :=
    rfl
  generalize C.walkFrom C.cur b false = Cw at h₁ hsplitw hSw hslotw hcut
  have hbw := hsplitw.has
  have hfw := hsplitw.free_slot hSw
  have hnew := hsplitw.ne hSw
  refine .bind (h₁.run_readEnd hbw) ?_
  refine .bind (h₁.run_readOrigin hbw.1) ?_
  refine .bind (h₁.run_readR hbw.1) ?_
  refine .bind (h₁.run_readW hbw.1) ?_
  refine .bind (h₁.run_readX hbw.1) ?_
  have hinsert := h₁.run_insertNewEntry hSw.sep.toApart hbw.live hsplitw.free_eq cutAddr
    (Cw.slot b).endAddr (Cw.slot b).origin (Cw.slot b).read (Cw.slot b).write (Cw.slot b).exec
  rw [hsplitw.free_eq] at hinsert
  refine .sim_eq hinsert.1 hinsert.2 fun s₂ h₂ => ?_
  -- the new block overlaps `b` until the end of `b` is written
  have hapart₂ := hSw.sep.toApart.taken hbw.live hsplitw.free_eq
    ((Cw.slot f).filled cutAddr (Cw.slot b).endAddr (Cw.slot b).origin (Cw.slot b).read
      (Cw.slot b).write (Cw.slot b).exec)
  generalize hC₂ : (Cw.setSlot f _).setFree C.cur rest = C₂ at h₂ hapart₂
  have hslot₂ : C₂.slot b = Cw.slot b := by
    rw [← hC₂, Conf.setFree_slot, Conf.setSlot_slot_of_ne _ _ hnew]
  have hb₂ : C₂.Has C.cur b := by
    refine ⟨?_, by rw [hslot₂]; exact hbw.2⟩
    rw [← hC₂]
    exact hbw.1
  have hf₂ : C₂.Owns C.cur f := by
    rw [← hC₂]
    exact hfw.1
  refine .sim (h₂.run_writeEnd hapart₂ hb₂ cutAddr) fun _ s₃ h₃ => ?_
  refine .bind rfl ?_
  refine .bind rfl ?_
  refine .bind (readPDField_run _ _ _) ?_
  refine .sim (h₃.run_enableBlock _ _ _) fun _ s₄ h₄ => ?_
  have hapart₃ := hapart₂.setSlot b { C₂.slot b with endAddr := cutAddr } rfl
  have hb₃ : (C₂.setSlot b { C₂.slot b with endAddr := cutAddr }).Owns C.cur b := hb₂.1
  refine .bind (h₄.run_readNext hb₃) ?_
  refine .sim (h₄.run_writeNext hapart₃ (a := f) hf₂ _) fun _ s₅ h₅ => ?_
  refine .sim (h₅.run_writeNext (hapart₃.setSlot _ _ (by rfl)) (a := b) hb₂.1 _) fun _ s₆ h₆ => ?_
  refine .sim (h₆.run_enableBlock _ _ _) fun _ s₇ h₇ => ?_
  apply LLI.Ensures.pure
  refine .inr ⟨rest, hsplit, hacc, ?_⟩
  rw [← hcut]
  have hchildw : (Cw.slot b).PDchild = 0 := hsplitw.PDchild_eq
  have hflagw : (Cw.slot b).PDflag = false := hsplitw.flag_eq
  have hlocw : (Cw.slot b).inChildLocation = 0 := hsplitw.inChild_eq hSw
  have haccw : (Cw.slot b).accessible = true := by
    rw [hslotw]
    exact hacc
  have hpresentw : (Cw.slot b).present = true := hbw.2
  have hemptyw : Cw.slot f = Slot.empty := hSw.free_empty _ f hfw.1 hfw.2
  subst hC₂
  refine Eq.subst (motive := Sim s₇) ?_ h₇
  simp only [Conf.setSlot, Conf.setFree, Conf.split, Conf.mk.injEq, true_and]
  funext a
  by_cases haf : a = f
  . subst haf
    simp [hnew, Ne.symm hnew, hemptyw, Slot.filled, Slot.empty, hchildw, hflagw, hlocw, haccw, hpresentw]
  . by_cases hab : a = b
    . subst hab
      simp [hnew]
    . simp [haf, hab]

theorem run_cutMemoryBlock (h : Sim s C) (hC : C.Inv) (a cutAddr region : Nat)
    : LLI.Ensures (cutMemoryBlock a cutAddr region) s fun _ => C.Follows := by
  apply (h.run_cutMemoryBlock_cases hC a cutAddr region).mono
  rintro v s' (⟨-, h'⟩ | ⟨rest, hsplit, -, h'⟩)
  . exact h'.follows
  . exact h'.follows_step (.cut hsplit)

/-
Merge
-/

theorem run_mergeMemoryBlocks_cases (h : Sim s C) (hC : C.Inv) (a₁ a₂ region : Nat)
    : LLI.Ensures (mergeMemoryBlocks a₁ a₂ region) s fun v s' => (v = 0 ∧ Sim s' C) ∨
        (v = a₁ ∧ C.CanJoin C.cur a₁ a₂ ∧ (C.slot a₁).accessible = true
          ∧ Sim s' (C.merge C.cur a₁ a₂)) := by
  have hS := hC.static
  rcases h.run_findWithAddr hS.sep hS.cur_live a₁ with ⟨b₁, hrun₁, hb₁⟩
  rcases h.run_findWithAddr hS.sep hS.cur_live a₂ with ⟨b₂, hrun₂, hb₂⟩
  unfold mergeMemoryBlocks
  refine .bind h.run_getCurPartition ?_
  refine .bind hrun₁ ?_
  refine .bind (compareAddrToNull_run _ _) ?_
  refine .cond (fun _ => .pure (.inl ⟨rfl, h⟩)) fun hne₁ => ?_
  simp only [decide_eq_true_eq] at hne₁
  rcases hb₁ hne₁ with ⟨rfl, hb₁⟩
  refine .bind hrun₂ ?_
  refine .bind (compareAddrToNull_run _ _) ?_
  refine .cond (fun _ => .pure (.inl ⟨rfl, h⟩)) fun hne₂ => ?_
  simp only [decide_eq_true_eq] at hne₂
  rcases hb₂ hne₂ with ⟨rfl, hb₂⟩
  refine .bind (h.run_readAccessible hb₁.1) ?_
  refine .bind (h.run_readAccessible hb₂.1) ?_
  refine .cond (fun _ => .pure (.inl ⟨rfl, h⟩)) fun hacc => ?_
  refine .bind (h.run_readPDChild hb₁.1) ?_
  refine .bind (compareAddrToNull_run _ _) ?_
  refine .bind (h.run_readPDChild hb₂.1) ?_
  refine .bind (compareAddrToNull_run _ _) ?_
  refine .cond (fun _ => .pure (.inl ⟨rfl, h⟩)) fun hchild => ?_
  refine .bind (h.run_readNext hb₁.1) ?_
  refine .bind rfl ?_
  refine .cond (fun _ => .pure (.inl ⟨rfl, h⟩)) fun hnext => ?_
  simp only [Bool.not_eq_true', Bool.not_eq_false, Bool.and_eq_true] at hacc
  simp only [Bool.or_eq_true, Bool.not_eq_true', decide_eq_false_iff_not, not_or,
    Decidable.not_not] at hchild
  simp only [beqAddr_eq, Bool.not_eq_true', decide_eq_false_iff_not, Decidable.not_not] at hnext
  have hjoin : C.CanJoin C.cur b₁ b₂ :=
    ⟨hb₁, hb₂, hnext.symm, hchild.1, hchild.2, hC.flag_of_accessible hb₁ hacc.1,
      hC.flag_of_accessible hb₂ hacc.2, hC.notMem_of_accessible hb₁ hacc.1,
      hC.notMem_of_accessible hb₂ hacc.2⟩
  have hne := hjoin.ne hS
  have hapart := hS.sep.toApart
  refine .bind (h.run_readNext hb₂.1) ?_
  refine .sim (h.run_writeNext hapart hb₁.1 _) fun _ s₁ h₁ => ?_
  have hapart₁ := hapart.setSlot b₁ { C.slot b₁ with next := (C.slot b₂).next } rfl
  generalize hC₁ : C.setSlot b₁ _ = C₁ at h₁ hapart₁
  have hhas₁ : ∀ q a, C₁.Has q a ↔ C.Has q a := by
    intro q a
    rw [← hC₁, Conf.setSlot_has (by rfl)]
  have hslot₁ : C₁.slot b₂ = C.slot b₂ := by
    rw [← hC₁, Conf.setSlot_slot_of_ne _ _ (Ne.symm hne)]
  refine .bind (h₁.run_readEnd ((hhas₁ _ _).mpr hb₂)) ?_
  -- `b₁` overlaps `b₂` until the slot of `b₂` is free
  refine .sim (h₁.run_writeEnd hapart₁ ((hhas₁ _ _).mpr hb₁) _) fun _ s₂ h₂ => ?_
  have hapart₂ := hapart₁.setSlot b₁ { C₁.slot b₁ with endAddr := (C₁.slot b₂).endAddr }
    rfl
  have hb₂' : (C₁.setSlot b₁ { C₁.slot b₁ with endAddr := (C₁.slot b₂).endAddr }).Has C.cur b₂ := by
    rw [Conf.setSlot_has (by rfl), hhas₁]
    exact hb₂
  refine .sim (show Sim _ (C.join C.cur b₁ b₂) from ?_) fun _ s₃ h₃ => ?_
  . refine Eq.subst (motive := Sim _) ?_ (h₂.run_freeSlot hapart₂ hb₂')
    subst hC₁
    simp only [Conf.setSlot, Conf.setFree, Conf.join, Conf.mk.injEq, true_and]
    funext a
    by_cases ha₂ : a = b₂
    . simp [ha₂]
    . by_cases ha₁ : a = b₁
      . subst ha₁
        simp [ha₂, Ne.symm ha₂]
      . simp [ha₁, ha₂]
  have hSj := hS.join hjoin
  have hb₁j := (hjoin.has_iff hS _ _).mpr ⟨hb₁, hne⟩
  refine .sim (h₃.run_writeAccessibleIfNotCut hSj.sep hSj.cur_live hb₁j true) fun _ s₄ h₄ => ?_
  refine .sim (h₄.run_removeFromMPU _ _) fun _ s₅ h₅ => ?_
  refine .sim (h₅.run_removeFromMPU _ _) fun _ s₆ h₆ => ?_
  refine .sim (h₆.run_enableBlock _ _ _) fun _ s₇ h₇ => ?_
  exact .pure (.inr ⟨rfl, hjoin, hacc.1, h₇⟩)

theorem run_mergeMemoryBlocks (h : Sim s C) (hC : C.Inv) (a₁ a₂ region : Nat)
    : LLI.Ensures (mergeMemoryBlocks a₁ a₂ region) s fun _ => C.Follows := by
  apply (h.run_mergeMemoryBlocks_cases hC a₁ a₂ region).mono
  rintro v s' (⟨-, h'⟩ | ⟨-, hjoin, hacc, h'⟩)
  . exact h'.follows
  . exact h'.follows_step (.merge hjoin hacc)

end Sim
