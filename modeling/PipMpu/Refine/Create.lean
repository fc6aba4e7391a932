import PipMpu.Refine.Ensures

/-!
This module contains the refinement of `createPartition`: it revokes the access to the block and adds
a partition whose descriptor is the block.
-/

namespace Conf

variable {C : Conf}

/--
The view in which `p` has the child `c` without any structures.
-/
def addLeaf (C : Conf) (p c : Nat) : Conf :=
  { C with
    Live := fun q => q = c ∨ C.Live q
    parent := fun q => if q = c then p else C.parent q
    depth := fun q => if q = c then C.depth p + 1 else C.depth q
    structures := fun q => if q = c then [] else C.structures q
    free := fun q => if q = c then [] else C.free q }

theorem addPartition_eq (C : Conf) (p b : Nat)
    : C.addPartition p b
        =
      (C.addLeaf p (C.slot b).startAddr).setSlot b { C.slot b with PDflag := true } := by
  rfl

theorem addLeaf_owns {p c : Nat} (hc : ¬C.Live c) (q a : Nat)
    : (C.addLeaf p c).Owns q a ↔ C.Owns q a := by
  unfold Owns addLeaf
  by_cases hq : q = c
  . subst hq
    simp [hc]
  . simp [hq]

theorem addLeaf_has {p c : Nat} (hc : ¬C.Live c) (q a : Nat)
    : (C.addLeaf p c).Has q a ↔ C.Has q a := by
  unfold Has
  rw [addLeaf_owns hc]
  rfl

theorem Sep.addLeaf (hC : C.Sep) {p c : Nat} (hp : C.Live p) (hdepth : C.depth p ≤ 512)
    (hc : ¬C.Live c) (hc0 : c ≠ 0) : (C.addLeaf p c).Sep := by
  have hpc : p ≠ c := fun h => hc (h ▸ hp)
  have hhas := addLeaf_has (p := p) hc
  have howns := addLeaf_owns (p := p) hc
  constructor
  . constructor
    . rintro q (rfl | hq)
      . exact hc0
      . exact hC.live_ne_zero q hq
    . rintro q (rfl | hq) hroot
      . simp only [Conf.addLeaf, if_true]
        exact Or.inr hp
      . have hqc : q ≠ c := fun h => hc (h ▸ hq)
        simp only [Conf.addLeaf, hqc, if_false]
        exact Or.inr (hC.parent_live q hq hroot)
    . rintro q (rfl | hq) hroot
      . simp [Conf.addLeaf, hpc]
      . have hqc : q ≠ c := fun h => hc (h ▸ hq)
        have hparent := hC.parent_live q hq hroot
        have hparentc : C.parent q ≠ c := fun h => hc (h ▸ hparent)
        simp only [Conf.addLeaf, hqc, hparentc, if_false]
        exact hC.depth_parent q hq hroot
    . rintro q (rfl | hq)
      . simp only [Conf.addLeaf, if_true]
        omega
      . have hqc : q ≠ c := fun h => hc (h ▸ hq)
        simp only [Conf.addLeaf, hqc, if_false]
        exact hC.depth_le q hq
    . rintro q (rfl | hq)
      . simp [Conf.addLeaf]
      . have hqc : q ≠ c := fun h => hc (h ▸ hq)
        simp only [Conf.addLeaf, hqc, if_false]
        exact hC.structures_length q hq
    . rintro q k (rfl | hq) hk
      . simp [Conf.addLeaf] at hk
      . have hqc : q ≠ c := fun h => hc (h ▸ hq)
        simp only [Conf.addLeaf, hqc, if_false] at hk
        exact hC.structure_ne_zero q k hq hk
    . rintro q q' k k' x (rfl | hq) (rfl | hq') hk hk' hx hx'
      . simp [Conf.addLeaf] at hk
      . simp [Conf.addLeaf] at hk
      . simp [Conf.addLeaf] at hk'
      . have hqc : q ≠ c := fun h => hc (h ▸ hq)
        have hqc' : q' ≠ c := fun h => hc (h ▸ hq')
        simp only [Conf.addLeaf, hqc, hqc', if_false] at hk hk'
        exact hC.structures_disjoint q q' k k' x hq hq' hk hk' hx hx'
    . rintro q (rfl | hq)
      . simp [Conf.addLeaf]
      . have hqc : q ≠ c := fun h => hc (h ▸ hq)
        simp only [Conf.addLeaf, hqc, if_false]
        exact hC.free_nodup q hq
    . rintro q a (rfl | hq) ha
      . simp [Conf.addLeaf] at ha
      . have hqc : q ≠ c := fun h => hc (h ▸ hq)
        simp only [Conf.addLeaf, hqc, if_false] at ha
        rw [howns]
        exact hC.free_sub q a hq ha
  . intro q a ha
    exact hC.start_lt q a ((hhas q a).mp ha)
  . intro q a b ha hb
    exact hC.disjoint q a b ((hhas q a).mp ha) ((hhas q b).mp hb)

theorem setAccessible_setFlag (C : Conf) (b : Nat) (S : Nat → Prop) (v flag : Bool)
    : (C.setSlot b { C.slot b with PDflag := flag }).setAccessible S v
        =
      (C.setAccessible S v).setSlot b { (C.setAccessible S v).slot b with PDflag := flag } := by
  simp only [setSlot, setAccessible, Conf.mk.injEq, true_and]
  funext a
  by_cases hab : a = b
  . subst hab
    by_cases hS : S a <;> simp [hS]
  . simp [hab]

/--
The writes of `createPartition` in the order of the code.
-/
theorem addPartition_access (C : Conf) (p b : Nat)
    : (C.access p b false).addPartition p b
        =
      (((C.addLeaf p (C.slot b).startAddr).setAccessible (· = b) false).setSlot b
        { ((C.addLeaf p (C.slot b).startAddr).setAccessible (· = b) false).slot b with
          PDflag := true }).setAccessible
        (fun a => (C.slot b).Uncut ∧ C.Above (C.slot b).startAddr (C.slot b).endAddr p a) false := by
  rw [setAccessible_setFlag, setAccessible_setAccessible]
  rw [access_eq, addPartition_eq]
  simp only [setAccessible.startAddr]
  rfl

end Conf

namespace Sim

variable {s : State} {C : Conf}

theorem addLeaf {s' : State} (h : Sim s C) {p c : Nat} (hc : ¬C.Live c)
    (hcur : s'.currentPartition = s.currentPartition)
    (hroot : s'.constantRootPartM = s.constantRootPartM)
    (hpd : ∀ q, q ≠ c → s'.pdtables.get q = s.pdtables.get q)
    (hcore : (s'.pdtables.get c).core = (0, 0, 0, 0, p))
    (hblock : s'.blockEntries = s.blockEntries) (hsh1 : s'.sh1Entries = s.sh1Entries)
    (hsc : s'.scEntries = s.scEntries) (hnext : s'.nextPointers = s.nextPointers)
    : Sim s' (C.addLeaf p c) := by
  simp only [PDTable.core, Prod.mk.injEq] at hcore
  have hne : ∀ q, C.Live q → q ≠ c := fun q hq h => hc (h ▸ hq)
  have hnextStructure : s'.nextStructure = s.nextStructure := by
    funext x
    simp only [State.nextStructure, hnext]
  have hnextFree : s'.nextFree = s.nextFree := by
    funext x
    simp only [State.nextFree, hblock]
  constructor
  . rw [hcur]
    exact h.cur
  . rw [hroot]
    exact h.root
  . rintro q (rfl | hq) hroot
    . simp [Conf.addLeaf, hcore]
    . simp only [Conf.addLeaf, hne q hq, if_false, hpd q (hne q hq)]
      exact h.parent q hq hroot
  . rintro q (rfl | hq)
    . simp [Conf.addLeaf, hcore]
    . simp only [Conf.addLeaf, hne q hq, if_false, hpd q (hne q hq), hnextStructure]
      exact h.structures q hq
  . rintro q (rfl | hq)
    . simp [Conf.addLeaf, hcore]
    . simp only [Conf.addLeaf, hne q hq, if_false, hpd q (hne q hq), hnextFree]
      exact h.free q hq
  . rintro q (rfl | hq)
    . simp [Conf.addLeaf, hcore]
    . simp only [Conf.addLeaf, hne q hq, if_false, hpd q (hne q hq)]
      exact h.nbfreeslots q hq
  . rintro q (rfl | hq)
    . simp [Conf.addLeaf, hcore]
    . simp only [Conf.addLeaf, hne q hq, if_false, hpd q (hne q hq)]
      exact h.nbprepare q hq
  . rintro q k i (rfl | hq) hk hi
    . simp [Conf.addLeaf] at hk
    . simp only [Conf.addLeaf, hne q hq, if_false] at hk
      rw [hblock]
      exact h.blockindex q k i hq hk hi
  . rintro q k i (rfl | hq) hk hi
    . simp [Conf.addLeaf] at hk
    . simp only [Conf.addLeaf, hne q hq, if_false] at hk
      simp only [State.slotView, hblock, hsh1, hsc]
      exact h.slot q k i hq hk hi

theorem run_createPartition_cases (h : Sim s C) (hC : C.Inv) (a : Nat)
    : LLI.Ensures (createPartition a) s fun v s' => (v = false ∧ Sim s' C) ∨
        (v = true ∧ C.CanAccess C.cur a false ∧ (C.slot a).accessible = true
          ∧ (C.access C.cur a false).CanAddPartition C.cur a
          ∧ Sim s' ((C.access C.cur a false).addPartition C.cur a)) := by
  have hS := hC.static
  rcases h.run_findWithAddr hS.sep hS.cur_live a with ⟨b, hrun, hb⟩
  unfold createPartition
  refine .bind h.run_getCurPartition ?_
  refine .bind hrun ?_
  refine .bind (compareAddrToNull_run _ _) ?_
  refine .cond (fun _ => .pure (.inl ⟨rfl, h⟩)) fun hne => ?_
  simp only [decide_eq_true_eq] at hne
  rcases hb hne with ⟨rfl, hb⟩
  refine .bind (h.run_readAccessible hb.1) ?_
  refine .cond (fun _ => .pure (.inl ⟨rfl, h⟩)) fun hacc => ?_
  refine .bind (h.run_checkBlockInRAM hb) ?_
  refine .cond (fun _ => .pure (.inl ⟨rfl, h⟩)) fun hram => ?_
  refine .bind (h.run_sizeOfBlock hS hb) ?_
  refine .bind rfl ?_
  refine .bind rfl ?_
  refine .cond (fun _ => .pure (.inl ⟨rfl, h⟩)) fun _ => ?_
  refine .bind rfl ?_
  refine .bind rfl ?_
  refine .cond (fun _ => .pure (.inl ⟨rfl, h⟩)) fun hsize => ?_
  refine .bind (h.run_readPDChild hb.1) ?_
  refine .bind (compareAddrToNull_run _ _) ?_
  refine .cond (fun _ => .pure (.inl ⟨rfl, h⟩)) fun hchild => ?_
  refine .bind (h.run_readStart hb.1) ?_
  refine .bind (h.run_readEnd hb) ?_
  simp only [Bool.not_eq_true', Bool.not_eq_false] at hacc
  simp only [Bool.not_eq_true', Bool.not_eq_false, Bool.and_eq_true, decide_eq_true_eq] at hram
  simp only [Bool.not_eq_true', decide_eq_false_iff_not, Decidable.not_not] at hchild
  have hsize : (C.slot b).startAddr + 128 ≤ (C.slot b).endAddr := by
    have : 128 ≤ (C.slot b).endAddr - (C.slot b).startAddr :=
      Nat.le_of_not_lt fun hlt => hsize (decide_eq_true hlt)
    omega
  have hclear := hC.clear hb hacc
  have hlive : ¬C.Live (C.slot b).startAddr :=
    fun hlive => hclear.pd _ hlive (hS.mem_range_start hb)
  have hloc := hS.location_eq_zero hb hchild
  have hflag := hC.flag_of_accessible hb hacc
  have hmem := hC.notMem_of_accessible hb hacc
  have hrampos : 0 < ramStart := by decide
  have haccess : C.CanAccess C.cur b false := ⟨hb, hloc, by simp, by simp, by simp⟩
  have hadd : (C.access C.cur b false).CanAddPartition C.cur b := by
    rw [Conf.access_eq]
    constructor
    case has => simpa using hb
    case accessible_eq => rw [Conf.setAccessible.slot_of_mem _ _ _ _ (Or.inl rfl)]
    case PDchild_eq => simpa using hchild
    case flag_eq => simpa using hflag
    case notMem => simpa using hmem
    case size_le => simpa using hsize
    case ram_le => simpa using hram.1
    case le_ram => simpa using hram.2
    case not_live => simpa using hlive
  have hsep := hS.sep.addLeaf hS.cur_live (hS.depth_le hS.cur_live) hlive (by omega)
  have hb₁ := (Conf.addLeaf_has (p := C.cur) hlive C.cur b).mpr hb
  -- the new descriptor, which no block entry points to yet
  refine .sim (h.outside hS.sep.toApart hclear (SameOutside.of_eraseBlock _ _ s)) fun _ s₁ h₁ => ?_
  refine .bind (modifyPDTable_run _ _ _) ?_
  refine .sim (show Sim _ (C.addLeaf C.cur (C.slot b).startAddr) from ?_) fun _ s₂ h₂ => ?_
  . apply h₁.addLeaf hlive <;> try rfl
    . intro q hq
      simp only [writePDParent, modifyPDTable_run, Mem.get_set_of_ne _ _ (Ne.symm hq)]
    . simp only [writePDParent, modifyPDTable_run, Mem.get_set_self]
      rfl
  refine .sim (h₂.run_writeAccessible hsep.toApart hb₁ false) fun _ s₃ h₃ => ?_
  refine .sim (h₃.run_removeFromMPU _ _) fun _ s₄ h₄ => ?_
  rw [Conf.setSlot_accessible] at h₄
  have hsep := hsep.setAccessible (· = b) false
  have hb₄ : ((C.addLeaf C.cur (C.slot b).startAddr).setAccessible (· = b) false).Has C.cur b := by
    simpa using hb₁
  refine .sim (h₄.run_writePDFlag hsep.toApart hb₄.1 true) fun _ s₅ h₅ => ?_
  have hsep := hsep.setSlot b
    { ((C.addLeaf C.cur (C.slot b).startAddr).setAccessible (· = b) false).slot b with
      PDflag := true } rfl rfl rfl
  generalize hC₅ : ((C.addLeaf C.cur (C.slot b).startAddr).setAccessible (· = b) false).setSlot b _ =
    C₅ at h₅ hsep
  have hb₅ : C₅.Has C.cur b := by
    rw [← hC₅, Conf.setSlot_has (by rfl)]
    exact hb₄
  refine .bind (h₅.run_readOrigin hb₅.1) ?_
  refine .bind (h₅.run_readStart hb₅.1) ?_
  refine .bind (h₅.run_readEnd hb₅) ?_
  refine .bind (h₅.run_readNext hb₅.1) ?_
  have hfinal : ∀ s', Sim s' (C₅.setAccessible (fun a => (C.slot b).Uncut ∧
      C.Above (C.slot b).startAddr (C.slot b).endAddr C.cur a) false) →
      Sim s' ((C.access C.cur b false).addPartition C.cur b) := by
    intro s' h'
    rw [← hC₅, ← Conf.addPartition_access] at h'
    exact h'
  have hslot₅ : C₅.slot b = { C.slot b with accessible := false, PDflag := true } := by
    rw [← hC₅]
    simp [Conf.setSlot, Conf.setAccessible, Conf.addLeaf]
  simp only [hslot₅, beqAddr_eq, Bool.and_eq_true, decide_eq_true_eq, nullAddr]
  refine .cond (fun huncut => ?_) fun hcut => ?_
  . have huncut : (C.slot b).Uncut := ⟨huncut.1.symm, huncut.2⟩
    have hwalk := (h₅.run_writeAccessibleRec hsep hb₅.live (C.slot b).startAddr (C.slot b).endAddr false).1
    have habove : C₅.Above (C.slot b).startAddr (C.slot b).endAddr C.cur =
        C.Above (C.slot b).startAddr (C.slot b).endAddr C.cur := by
      funext A
      apply propext
      apply hS.sep.above_congr _ _ _ _ hS.cur_live
      . rw [← hC₅]
        rfl
      . intro q hq _
        have hqc : q ≠ (C.slot b).startAddr := fun h => hlive (h ▸ hq)
        rw [← hC₅]
        exact if_neg hqc
      . intro q a _
        rw [← hC₅, Conf.setSlot_has (by rfl), Conf.setAccessible.has, Conf.addLeaf_has hlive]
      . intro q a _ _
        rw [← hC₅, Conf.setSlot_startAddr (by rfl), Conf.setSlot_endAddr (by rfl),
          Conf.setAccessible.startAddr, Conf.setAccessible.endAddr]
        exact ⟨rfl, rfl⟩
    refine .sim hwalk fun _ s₆ h₆ => ?_
    refine .pure (.inr ⟨rfl, haccess, hacc, hadd, ?_⟩)
    apply hfinal
    simp only [huncut, true_and]
    rw [Conf.walk, habove] at h₆
    exact h₆
  . refine .pure (.inr ⟨rfl, haccess, hacc, hadd, ?_⟩)
    apply hfinal
    rw [Conf.setAccessible_of_empty]
    . exact h₅
    . rintro a ⟨huncut, -⟩
      exact hcut ⟨huncut.1.symm, huncut.2⟩

theorem run_createPartition (h : Sim s C) (hC : C.Inv) (a : Nat)
    : LLI.Ensures (createPartition a) s fun _ => C.Follows := by
  apply (h.run_createPartition_cases hC a).mono
  rintro v s' (⟨-, h'⟩ | ⟨-, haccess, -, hadd, h'⟩)
  . exact h'.follows
  . exact ⟨_, (Relation.ReflTransGen.single (.access haccess)).tail (.addPartition hadd), h'⟩

end Sim
