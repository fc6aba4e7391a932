import PipMpu.Core.Frame
import PipMpu.Refine.Ensures

/-!
This module contains the refinement of `prepare`: it revokes the access to the block and links the
structure initialised in it to the other structures of the partition.
-/

namespace Conf

variable {C : Conf}

/--
The view in which the structure `k` without any blocks belongs to `t`.
-/
def linkStructure (C : Conf) (t k : Nat) : Conf :=
  { C with
    structures := fun q => if q = t then k :: C.structures t else C.structures q
    free := fun q => if q = t then slotsOf k ++ C.free t else C.free q
    slot := fun a => if a ∈ slotsOf k then Slot.empty else C.slot a }

theorem link_eq {t p b : Nat} (hb : b ∉ slotsOf (C.slot b).startAddr)
    : C.link t p b
        =
      (C.linkStructure t (C.slot b).startAddr).setSlot b
        { C.slot b with PDchild := if t = p then 0 else t } := by
  simp only [link, linkStructure, setSlot, Conf.mk.injEq, true_and]
  funext a
  by_cases hab : a = b
  . subst hab
    simp [hb]
  . simp [hab]

end Conf

theorem slotsOf_eq (k : Nat)
    : slotsOf k = [k, slotAddr k 1, slotAddr k 2, slotAddr k 3, slotAddr k 4, slotAddr k 5,
        slotAddr k 6, slotAddr k 7] := by
  have : slotAddr k 0 = k := by
    rw [slotAddr_eq]
    omega
  unfold slotsOf kernelStructureEntriesNb
  simp [List.range, List.range.loop, this]

/--
The slots of an initialised structure, the last one linked to the slots in `l`.
-/
theorem linked_slotsOf {next : Nat → Nat} {k x : Nat} {l : List Nat} (hk : k ≠ 0)
    (hnext : ∀ i, i < 7 → next (slotAddr k i) = slotAddr k (i + 1)) (hlast : next (slotAddr k 7) = x)
    (hl : Linked next x l) : Linked next k (slotsOf k ++ l) := by
  have h₀ : slotAddr k 0 = k := by
    rw [slotAddr_eq]
    omega
  have hne : ∀ i, slotAddr k i ≠ 0 := by
    intro i
    rw [slotAddr_eq]
    omega
  rw [slotsOf_eq]
  simp only [List.cons_append, List.nil_append, Linked.linked_cons]
  refine ⟨trivial, hk, ?_, hne 1, ?_, hne 2, ?_, hne 3, ?_, hne 4, ?_, hne 5, ?_, hne 6, ?_, hne 7, ?_⟩
  . have := hnext 0 (by omega)
    rw [h₀] at this
    exact this
  . exact hnext 1 (by omega)
  . exact hnext 2 (by omega)
  . exact hnext 3 (by omega)
  . exact hnext 4 (by omega)
  . exact hnext 5 (by omega)
  . exact hnext 6 (by omega)
  . rw [hlast]
    exact hl

/--
What `prepare` does with the block once it has made its checks.
-/
def prepareBlock (currentPart globalIdPD requisitionedBlock blockStart blockEnd : Nat) : LLI Bool := do
  let isStructureInitialised ← initStructure blockStart blockEnd
  if !isStructureInitialised then pure false else do
  let newKStructurePointer ← getAddr blockStart
  linkBlock kernelStructureEntriesNb currentPart globalIdPD requisitionedBlock newKStructurePointer

/--
What the checks of `prepare` make sure of.
-/
structure Conf.CanPrepare (C : Conf) (t b : Nat) : Prop where
  target : t = C.cur ∨ (C.Live t ∧ t ≠ C.root ∧ C.parent t = C.cur)
  length_lt : (C.structures t).length < 8
  has : C.Has C.cur b
  ram_le : ramStart ≤ (C.slot b).startAddr
  size_le : (C.slot b).startAddr + 288 ≤ (C.slot b).endAddr
  accessible_eq : (C.slot b).accessible = true
  PDchild_eq : (C.slot b).PDchild = 0

namespace Sim

variable {s : State} {C : Conf}

theorem linkStructure {s' : State} (h : Sim s C) (hC : C.Apart) {t k : Nat} (ht : C.Live t)
    (hk : k ≠ 0) (hfresh : Fresh s k)
    (hdisj : ∀ q k', C.Live q → k' ∈ C.structures q → ∀ x, x ∈ structureRange k' →
      x ∉ structureRange k)
    (hcur : s'.currentPartition = s.currentPartition)
    (hroot : s'.constantRootPartM = s.constantRootPartM)
    (hpd : ∀ q, q ≠ t → s'.pdtables.get q = s.pdtables.get q)
    (hcore : (s'.pdtables.get t).core = (k, k, (C.free t).length + 8, (C.structures t).length + 1,
      (s.pdtables.get t).parent))
    (hblock : s'.blockEntries = s.blockEntries.set (slotAddr k 7)
      { s.blockEntries.get (slotAddr k 7) with endAddr := (s.pdtables.get t).firstfreeslot })
    (hsh1 : s'.sh1Entries = s.sh1Entries) (hsc : s'.scEntries = s.scEntries)
    (hnext : s'.nextPointers = s.nextPointers.set (k + nextOffset) (s.pdtables.get t).structurePtr)
    : Sim s' (C.linkStructure t k) := by
  simp only [PDTable.core, Prod.mk.injEq] at hcore
  have hslotne : ∀ q k' i, C.Live q → k' ∈ C.structures q → i < 8 → slotAddr k' i ∉ slotsOf k := by
    intro q k' i hq hk' hi hmem
    exact hdisj q k' hq hk' _ (slotAddr_mem_structureRange k' hi) (slotsOf_mem_structureRange hmem)
  have hblock' : ∀ q k' i, C.Live q → k' ∈ C.structures q → i < 8 →
      s'.blockEntries.get (slotAddr k' i) = s.blockEntries.get (slotAddr k' i) := by
    intro q k' i hq hk' hi
    rw [hblock]
    apply Mem.get_set_of_ne
    intro heq
    apply hslotne q k' i hq hk' hi
    rw [← heq]
    exact slotAddr_mem (by omega)
  have hfreshblock : ∀ i, i < 8 → (s'.blockEntries.get (slotAddr k i)).blockindex = i ∧
      (s'.blockEntries.get (slotAddr k i)).present = false ∧
      mkSlot (s'.blockEntries.get (slotAddr k i)) default default = Slot.empty := by
    intro i hi
    rw [hblock, Mem.get_set]
    split
    . next heq =>
      rw [hfresh.blockEntries 7 (by omega), slotAddr_inj heq]
      exact ⟨rfl, rfl, rfl⟩
    . rw [hfresh.blockEntries i hi]
      exact ⟨rfl, rfl, rfl⟩
  have hnextStructure : ∀ q k', C.Live q → k' ∈ C.structures q →
      s'.nextStructure k' = s.nextStructure k' := by
    intro q k' hq hk'
    unfold State.nextStructure
    rw [hnext]
    apply Mem.get_set_of_ne
    intro heq
    have : k' = k := by omega
    subst this
    exact hdisj q k' hq hk' k' (Conf.mem_structureRange_self k') (Conf.mem_structureRange_self k')
  have hnextFree : ∀ q a, C.Live q → a ∈ C.free q → s'.nextFree a = s.nextFree a := by
    intro q a hq ha
    rcases (hC.free_sub q a hq ha).1 with ⟨-, k', hk', hak⟩
    rcases (mem_slotsOf k' a).mp hak with ⟨i, hi, rfl⟩
    unfold State.nextFree
    have := hblock' q k' i hq hk' hi
    rw [slotAddr_eq] at this
    rw [this]
  constructor
  . rw [hcur]
    exact h.cur
  . rw [hroot]
    exact h.root
  . intro q hq hne
    by_cases hqt : q = t
    . subst hqt
      rw [hcore.2.2.2.2]
      exact h.parent q hq hne
    . rw [hpd q hqt]
      exact h.parent q hq hne
  . intro q hq
    by_cases hqt : q = t
    . subst hqt
      simp only [Conf.linkStructure, if_true, hcore.1]
      refine ⟨rfl, hk, ?_⟩
      have : s'.nextStructure k = (s.pdtables.get q).structurePtr := by
        unfold State.nextStructure
        rw [hnext, Mem.get_set_self]
      rw [this]
      exact (h.structures q hq).congr fun k' hk' => hnextStructure q k' hq hk'
    . simp only [Conf.linkStructure, hqt, if_false, hpd q hqt]
      exact (h.structures q hq).congr fun k' hk' => hnextStructure q k' hq hk'
  . intro q hq
    by_cases hqt : q = t
    . subst hqt
      simp only [Conf.linkStructure, if_true, hcore.2.1]
      apply linked_slotsOf hk
      . intro i hi
        have hne : slotAddr k 7 ≠ slotAddr k i := by
          intro heq
          have := slotAddr_inj heq
          omega
        unfold State.nextFree
        rw [hblock, Mem.get_set_of_ne _ _ hne, hfresh.blockEntries i (by omega)]
        simp only [freshEntry, hi, if_true]
      . rfl
      . unfold State.nextFree
        rw [hblock, Mem.get_set_self]
        exact (h.free q hq).congr fun a ha => by
          rw [← hnextFree q a hq ha, State.nextFree, hblock]
    . simp only [Conf.linkStructure, hqt, if_false, hpd q hqt]
      exact (h.free q hq).congr fun a ha => hnextFree q a hq ha
  . intro q hq
    by_cases hqt : q = t
    . subst hqt
      simp only [Conf.linkStructure, if_true, hcore.2.2.1, List.length_append, slotsOf_length]
      omega
    . simp only [Conf.linkStructure, hqt, if_false, hpd q hqt]
      exact h.nbfreeslots q hq
  . intro q hq
    by_cases hqt : q = t
    . subst hqt
      simp only [Conf.linkStructure, if_true, hcore.2.2.2.1, List.length_cons]
    . simp only [Conf.linkStructure, hqt, if_false, hpd q hqt]
      exact h.nbprepare q hq
  . intro q k' i hq hk' hi
    by_cases hmem : k' ∈ C.structures q
    . rw [hblock' q k' i hq hmem hi]
      exact h.blockindex q k' i hq hmem hi
    . have : k' = k := by
        by_cases hqt : q = t
        . subst hqt
          simp only [Conf.linkStructure, if_true, List.mem_cons, hmem, or_false] at hk'
          exact hk'
        . simp only [Conf.linkStructure, hqt, if_false] at hk'
          exact absurd hk' hmem
      subst this
      exact (hfreshblock i hi).1
  . intro q k' i hq hk' hi
    by_cases hmem : k' ∈ C.structures q
    . have hslot : (C.linkStructure t k).slot (slotAddr k' i) = C.slot (slotAddr k' i) :=
        if_neg (hslotne q k' i hq hmem hi)
      rw [hslot, ← h.slot q k' i hq hmem hi]
      unfold State.slotView
      rw [hblock' q k' i hq hmem hi, hsh1, hsc]
    . have : k' = k := by
        by_cases hqt : q = t
        . subst hqt
          simp only [Conf.linkStructure, if_true, List.mem_cons, hmem, or_false] at hk'
          exact hk'
        . simp only [Conf.linkStructure, hqt, if_false] at hk'
          exact absurd hk' hmem
      subst this
      have hslot : (C.linkStructure t k').slot (slotAddr k' i) = Slot.empty :=
        if_pos (slotAddr_mem hi)
      rw [hslot]
      unfold State.slotView
      rw [hsh1, hsc, hfresh.sh1Entries i hi, hfresh.scEntries i hi]
      exact (hfreshblock i hi).2.2

theorem run_prepare_checks (h : Sim s C) (hC : C.Inv) (idPD a : Nat)
    : LLI.Ensures (prepare idPD a) s fun v s' => (v, s') = (false, s) ∨
        ∃ t, (getGlobalIdPDCurrentOrChild C.cur idPD s).1 = t ∧ C.CanPrepare t a
          ∧ (v, s') = prepareBlock C.cur t a (C.slot a).startAddr (C.slot a).endAddr s := by
  have hS := hC.static
  rcases h.run_findWithAddr hS.sep hS.cur_live a with ⟨b, hrun, hb⟩
  rcases h.run_getGlobalIdPD hS hS.cur_live idPD with ⟨t, hglobal, ht⟩
  unfold prepare
  refine .bind h.run_getCurPartition ?_
  refine .bind hglobal ?_
  refine .bind (compareAddrToNull_run _ _) ?_
  refine .cond (fun _ => .pure (.inl rfl)) fun ht0 => ?_
  simp only [decide_eq_true_eq] at ht0
  have ht : t = C.cur ∨ (C.Live t ∧ t ≠ C.root ∧ C.parent t = C.cur) := ht.resolve_left ht0
  have htlive : C.Live t := by
    rcases ht with rfl | ⟨hlive, -⟩
    . exact hS.cur_live
    . exact hlive
  refine .bind (h.run_readNbPrepare htlive) ?_
  refine .bind rfl ?_
  refine .bind rfl ?_
  refine .cond (fun _ => .pure (.inl rfl)) fun hmax => ?_
  refine .bind rfl ?_
  refine .bind hrun ?_
  refine .bind (compareAddrToNull_run _ _) ?_
  refine .cond (fun _ => .pure (.inl rfl)) fun hne => ?_
  simp only [decide_eq_true_eq] at hne
  rcases hb hne with ⟨rfl, hb⟩
  refine .bind (h.run_checkBlockInRAM hb) ?_
  refine .cond (fun _ => .pure (.inl rfl)) fun hram => ?_
  refine .bind (h.run_sizeOfBlock hS hb) ?_
  refine .bind rfl ?_
  refine .bind rfl ?_
  refine .cond (fun _ => .pure (.inl rfl)) fun hsize => ?_
  refine .bind (h.run_readAccessible hb.1) ?_
  refine .cond (fun _ => .pure (.inl rfl)) fun hacc => ?_
  refine .bind (h.run_readPresent hb.1) ?_
  refine .cond (fun _ => .pure (.inl rfl)) fun _ => ?_
  refine .bind (h.run_readPDChild hb.1) ?_
  refine .bind (compareAddrToNull_run _ _) ?_
  refine .cond (fun _ => .pure (.inl rfl)) fun hchild => ?_
  refine .bind (h.run_readStart hb.1) ?_
  refine .bind (h.run_readEnd hb) ?_
  simp only [Bool.not_eq_true', Bool.not_eq_false] at hacc
  simp only [Bool.not_eq_true', Bool.not_eq_false, Bool.and_eq_true, decide_eq_true_eq] at hram
  simp only [Bool.not_eq_true', decide_eq_false_iff_not, Decidable.not_not] at hchild
  have hsize : (C.slot b).startAddr + 288 ≤ (C.slot b).endAddr := by
    have : 288 ≤ (C.slot b).endAddr - (C.slot b).startAddr :=
      Nat.le_of_not_lt fun hlt => hsize (decide_eq_true hlt)
    omega
  have hmax : (C.structures t).length < 8 :=
    Nat.lt_of_not_le fun hle => hmax (decide_eq_true hle)
  exact .inr ⟨t, congrArg Prod.fst hglobal, ⟨ht, hmax, hb, hram.1, hsize, hacc, hchild⟩, rfl⟩

theorem run_prepareBlock (h : Sim s C) (hC : C.Inv) {t b : Nat} (hcan : C.CanPrepare t b)
    : LLI.Ensures (prepareBlock C.cur t b (C.slot b).startAddr (C.slot b).endAddr) s fun v s' =>
        v = true ∧ C.CanAccess C.cur b false ∧ (C.access C.cur b false).CanLink t C.cur b
          ∧ Sim s' ((C.access C.cur b false).link t C.cur b) := by
  have hS := hC.static
  rcases hcan with ⟨ht, hmax, hb, hram, hsize, hacc, hchild⟩
  unfold prepareBlock
  have htlive : C.Live t := by
    rcases ht with rfl | ⟨hlive, -⟩
    . exact hS.cur_live
    . exact hlive
  have hclear := hC.clear hb hacc
  have hrange : structureRange (C.slot b).startAddr ⊆ (C.slot b).range := by
    intro x hx
    unfold structureRange at hx
    rw [sizeofKStructure_eq] at hx
    rcases hx with ⟨h₁, h₂⟩
    constructor <;> omega
  have hdisj : ∀ q k', C.Live q → k' ∈ C.structures q → ∀ x, x ∈ structureRange k' →
      x ∉ structureRange (C.slot b).startAddr :=
    fun q k' hq hk' x hx hmem => hclear.structures q k' x hq hk' hx (hrange hmem)
  have hrampos : 0 < ramStart := by decide
  have hk : (C.slot b).startAddr ≠ 0 := by omega
  have haccess : C.CanAccess C.cur b false :=
    ⟨hb, hS.location_eq_zero hb hchild, by simp, by simp, by simp⟩
  have hinit := initStructure_run (C.slot b).startAddr (e := (C.slot b).endAddr)
    (by rw [sizeofKStructure_eq]; omega) s
  have hlineage : ∀ x ∈ structureRange (C.slot b).startAddr, x ∉ C.lineage C.cur := by
    rintro x hx ⟨q, hq, -, rfl | hxq⟩
    . exact hclear.pd x hq (hrange hx)
    . rcases hxq.1.2 with ⟨k', hk', hxk'⟩
      exact hdisj q k' hq hk' x (slotsOf_mem_structureRange hxk') hx
  have hbmem : b ∈ C.lineage C.cur := ⟨_, hS.cur_live, Conf.Below.self, Or.inr hb⟩
  have hcurmem : C.cur ∈ C.lineage C.cur := ⟨_, hS.cur_live, Conf.Below.self, Or.inl rfl⟩
  -- the structure stays as it was initialised until it is linked
  refine .step_eq (fun s₁ => Sim s₁ C ∧ Fresh s₁ (C.slot b).startAddr) hinit.1
    ⟨h.outside hS.sep.toApart hclear hinit.2.1, hinit.2.2⟩ fun s₁ h₁ => ?_
  refine .cond (fun hfalse => absurd hfalse (by simp)) fun _ => ?_
  refine .bind rfl ?_
  unfold linkBlock
  have hsep := hS.sep.setAccessible (· = b) false
  have hb' : (C.setAccessible (· = b) false).Has C.cur b := by simpa using hb
  refine .step (fun s₂ => Sim s₂ (C.setAccessible (· = b) false) ∧ Fresh s₂ (C.slot b).startAddr) ?_
    fun _ s₂ h₂ => ?_
  . rw [← Conf.setSlot_accessible]
    exact ⟨h₁.1.run_writeAccessible hS.sep.toApart hb false,
      h₁.2.outside (SameOutside.of_modifyBlockEntry hbmem (fun e => { e with accessible := false }) s₁)
        hlineage⟩
  refine .step (fun s₃ => Sim s₃ (C.setAccessible (· = b) false) ∧ Fresh s₃ (C.slot b).startAddr)
    ⟨h₂.1.run_removeFromMPU _ _, h₂.2.outside (SameOutside.of_removeFromMPU hcurmem _ s₂) hlineage⟩
    fun _ s₃ h₃ => ?_
  refine .step (fun s₄ => Sim s₄ (C.access C.cur b false) ∧ Fresh s₄ (C.slot b).startAddr) ?_
    fun _ s₄ h₄ => ?_
  . refine ⟨h₃.1.run_writeAccessibleIfNotCut hsep hS.cur_live hb' false, ?_⟩
    apply h₃.2.outside (h₃.1.outside_writeAccessibleIfNotCut hsep hS.cur_live hb' false)
    rw [Conf.lineage_setAccessible]
    exact hlineage
  rcases h₄ with ⟨h₄, hfresh⟩
  generalize hC₄ : C.access C.cur b false = C₄ at h₄
  have hS₄ : C₄.Static := by
    rw [← hC₄]
    exact (hC.access haccess).static
  have hapart := hS₄.sep.toApart
  have hstr : C₄.structures = C.structures := by
    rw [← hC₄]
    rfl
  have hlive : C₄.Live = C.Live := by
    rw [← hC₄]
    rfl
  have hflag := hC.flag_of_accessible hb hacc
  have hmem := hC.notMem_of_accessible hb hacc
  have hlink : C₄.CanLink t C.cur b := by
    rw [← hC₄, Conf.access_eq]
    constructor
    case has => simpa using hb
    case accessible_eq => rw [Conf.setAccessible.slot_of_mem _ _ _ _ (Or.inl rfl)]
    case PDchild_eq => simpa using hchild
    case flag_eq => simpa using hflag
    case notMem => simpa using hmem
    case size_le =>
      rw [sizeofKStructure_eq, Conf.setAccessible.startAddr, Conf.setAccessible.endAddr]
      omega
    case ram_le => simpa using hram
    case target => exact ht
    case length_lt => exact hmax
    case fresh =>
      intro q k' hq hk'
      rw [Conf.setAccessible.startAddr]
      exact Set.disjoint_left.mpr fun {x} hx => hdisj q k' hq hk' x hx
  have hstart₄ : (C₄.slot b).startAddr = (C.slot b).startAddr := by
    rw [← hC₄, Conf.access_eq, Conf.setAccessible.startAddr]
  refine .bind (readPDField_run _ _ _) ?_
  refine .step (· = _) rfl fun _ s₅ hs₅ => ?_
  refine .step (· = _) rfl fun _ s₆ hs₆ => ?_
  refine .bind rfl ?_
  refine .bind rfl ?_
  refine .bind (readPDField_run _ _ _) ?_
  refine .step (· = _) rfl fun _ s₇ hs₇ => ?_
  refine .step (· = _) rfl fun _ s₈ hs₈ => ?_
  refine .bind (readPDField_run _ _ _) ?_
  refine .bind rfl ?_
  refine .step (· = _) rfl fun _ s₉ hs₉ => ?_
  refine .bind (readPDField_run _ _ _) ?_
  refine .bind rfl ?_
  refine .step (· = _) rfl fun _ s₁₀ hs₁₀ => ?_
  have h₁₀ : Sim s₁₀ (C₄.linkStructure t (C.slot b).startAddr) := by
    have hseven : sub32 kernelStructureEntriesNb 1 = 7 := by rfl
    have haddr : ∀ k j, k + j * sizeofBlockEntry = slotAddr k j := fun _ _ => rfl
    simp only [writeNextFromKernelStructureStart_run] at hs₅
    simp only [writePDStructurePointer, modifyPDTable_run] at hs₆
    simp only [writeBlockEndFromBlockEntryAddr, modifyBlockEntry_run, hseven, haddr] at hs₇
    simp only [writePDFirstFreeSlotPointer, modifyPDTable_run] at hs₈
    simp only [writePDNbFreeSlots, modifyPDTable_run] at hs₉
    simp only [writePDNbPrepare, modifyPDTable_run] at hs₁₀
    subst hs₅ hs₆ hs₇ hs₈ hs₉ hs₁₀
    apply h₄.linkStructure hapart (hlive ▸ htlive) hk hfresh (by rw [hlive, hstr]; exact hdisj) <;>
      try rfl
    . intro q hq
      simp only [Mem.get_set_of_ne _ _ (Ne.symm hq)]
    . have hlen := hapart.free_length_le (hlive ▸ htlive)
      have hnb := h₄.nbfreeslots t (hlive ▸ htlive)
      have hprep := h₄.nbprepare t (hlive ▸ htlive)
      have height : kernelStructureEntriesNb = 8 := by rfl
      simp only [PDTable.core, Mem.get_set_self, hnb, hprep, height, hstr]
      rw [add32_eq (by rw [wordSize_eq]; omega), add32_eq (by rw [wordSize_eq]; omega)]
    . simp only [Mem.get_set_self]
  clear hs₅ hs₆ hs₇ hs₈ hs₉ hs₁₀
  have hbk : b ∉ slotsOf (C₄.slot b).startAddr := by
    rw [hstart₄]
    rcases hb.1.2 with ⟨k', hk', hbk'⟩
    exact fun hmem => hdisj _ k' hb.live hk' b (slotsOf_mem_structureRange hbk')
      (slotsOf_mem_structureRange hmem)
  have heq := Conf.link_eq (t := t) (p := C.cur) hbk
  have hslotb : (C₄.linkStructure t (C₄.slot b).startAddr).slot b = C₄.slot b := if_neg hbk
  rw [← hstart₄] at h₁₀
  generalize hD : C₄.linkStructure t (C₄.slot b).startAddr = D at heq hslotb h₁₀
  rw [← hslotb] at heq
  refine .bind rfl ?_
  simp only [beqAddr_eq]
  refine .cond (fun htcur => ?_) fun htcur => ?_
  . simp only [Bool.not_eq_true', decide_eq_false_iff_not] at htcur
    have hb₁₀ : D.Owns C.cur b := by
      rcases hb.1 with ⟨hcur, k', hk', hbk'⟩
      refine ⟨?_, k', ?_, hbk'⟩
      . rw [← hD]
        exact hlive ▸ hcur
      . simp only [← hD, Conf.linkStructure, Ne.symm htcur, if_false, hstr]
        exact hk'
    have hapart₁₀ : D.Apart := by
      have hSl := hS₄.link hlink
      have := hSl.sep.toApart.setSlot b (D.slot b) (by rw [heq, Conf.setSlot_slot_self])
      rw [heq, Conf.setSlot_setSlot, Conf.setSlot_self] at this
      exact this
    refine .sim (h₁₀.run_writePDChild hapart₁₀ hb₁₀ t) fun _ s₁₁ h₁₁ => ?_
    refine .pure ⟨rfl, haccess, hlink, ?_⟩
    rw [heq, if_neg htcur]
    exact h₁₁
  . simp only [Bool.not_eq_true', decide_eq_false_iff_not, Decidable.not_not] at htcur
    refine .pure ⟨rfl, haccess, hlink, ?_⟩
    have hslot : { D.slot b with PDchild := 0 } = D.slot b := by
      rw [hslotb, ← hlink.PDchild_eq]
    rw [heq, if_pos htcur, hslot, Conf.setSlot_self]
    exact h₁₀

theorem run_prepare_cases (h : Sim s C) (hC : C.Inv) (idPD a : Nat)
    : LLI.Ensures (prepare idPD a) s fun v s' => (v = false ∧ Sim s' C) ∨
        (v = true ∧ ∃ t, (getGlobalIdPDCurrentOrChild C.cur idPD s).1 = t ∧ C.CanAccess C.cur a false
          ∧ (C.slot a).accessible = true ∧ (C.access C.cur a false).CanLink t C.cur a
          ∧ Sim s' ((C.access C.cur a false).link t C.cur a)) := by
  have hchecks := h.run_prepare_checks hC idPD a
  unfold LLI.Ensures at hchecks ⊢
  rcases hchecks with hfailed | ⟨t, hglobal, hcan, hrun⟩
  . rw [Prod.mk.injEq] at hfailed
    exact .inl ⟨hfailed.1, by rw [hfailed.2]; exact h⟩
  . rw [Prod.mk.injEq] at hrun
    rw [hrun.1, hrun.2]
    rcases h.run_prepareBlock hC hcan with ⟨hdone, haccess, hlink, h'⟩
    exact .inr ⟨hdone, t, hglobal, haccess, hcan.accessible_eq, hlink, h'⟩

theorem run_prepare (h : Sim s C) (hC : C.Inv) (idPD a : Nat)
    : LLI.Ensures (prepare idPD a) s fun _ => C.Follows := by
  apply (h.run_prepare_cases hC idPD a).mono
  rintro v s' (⟨-, h'⟩ | ⟨-, t, -, haccess, -, hlink, h'⟩)
  . exact h'.follows
  . exact ⟨_, (Relation.ReflTransGen.single (.access haccess)).tail (.link hlink), h'⟩

end Sim
