import PipMpu.Refine.Walk

/-!
This module contains the effect of initialising a kernel structure in a zeroed block.
-/

/-
Initialisation of a structure
-/

/--
The entry `i` of a structure after its initialisation.
-/
def freshEntry (k i : Nat) : BlockEntry :=
  {
      (default : BlockEntry) with
      blockindex := i
      endAddr := if i < 7 then slotAddr k (i + 1) else 0
  }

/--
The entries of the structure `k` are initialised.
-/
structure Fresh (s : State) (k : Nat) : Prop where
  next : s.nextStructure k = 0
  blockEntries : ∀ i, i < 8 → s.blockEntries.get (slotAddr k i) = freshEntry k i
  sh1Entries : ∀ i, i < 8 → s.sh1Entries.get (sh1Addr k i) = default
  scEntries : ∀ i, i < 8 → s.scEntries.get (scAddr k i) = default

theorem Fresh.outside {W : Set Nat} {s s' : State} {k : Nat} (h : Fresh s k)
    (hs : SameOutside W s s') (hW : ∀ x ∈ structureRange k, x ∉ W) : Fresh s' k := by
  constructor
  . rw [← h.next]
    apply hs.nextPointers
    apply hW
    unfold structureRange
    rw [nextOffset_eq, sizeofKStructure_eq]
    constructor <;> omega
  . intro i hi
    rw [← h.blockEntries i hi]
    exact hs.blockEntries _ (hW _ (slotAddr_mem_structureRange k hi))
  . intro i hi
    rw [← h.sh1Entries i hi]
    exact hs.sh1Entries _ (hW _ (sh1Addr_mem_structureRange k hi))
  . intro i hi
    rw [← h.scEntries i hi]
    exact hs.scEntries _ (hW _ (scAddr_mem_structureRange k hi))

section

variable (k : Nat)

theorem initBlockEntryRecAux_run (fuel i : Nat) (hi : i < 7) (hfuel : i < fuel) (s : State)
    : ∃ mem : Mem BlockEntry, initBlockEntryRecAux fuel k i s = (true, { s with blockEntries := mem })
        ∧ (∀ j, j ≤ i → mem.get (slotAddr k j) = freshEntry k j)
        ∧ (∀ x, (∀ j, j ≤ i → x ≠ slotAddr k j) → mem.get x = s.blockEntries.get x) := by
  induction fuel generalizing i s with
  | zero => omega
  | succ fuel ih =>
    have hsucc : add32 i 1 = i + 1 := add32_eq (by rw [wordSize_eq]; omega)
    have hentry : ({
          startAddr := nullAddr
          endAddr := slotAddr k (i + 1)
          blockindex := i
          read := false
          write := false
          exec := false
          present := false
          accessible := false } : BlockEntry) = freshEntry k i := by
      simp only [freshEntry, hi, if_true]
      rfl
    unfold initBlockEntryRecAux
    simp only [LLI.bind_run, Index.succ, LLI.pure_run, getBlockEntryAddrFromKernelStructureStart, hsucc,
      writeBlockEntryFromBlockEntryAddr_run, Index.zero, beqIdx_eq, LLI.ite_run, Index.pred,
      decide_eq_true_eq]
    have haddr : ∀ j, k + j * sizeofBlockEntry = slotAddr k j := fun _ => rfl
    simp only [haddr, hentry]
    by_cases hzero : i = 0
    . rw [if_pos hzero]
      refine ⟨_, rfl, ?_, ?_⟩
      . intro j hj
        have : j = i := by omega
        rw [this, Mem.get_set_self]
      . intro x hx
        exact Mem.get_set_of_ne _ _ (Ne.symm (hx i (Nat.le_refl i)))
    . rw [if_neg hzero]
      have hpred : sub32 i 1 = i - 1 := sub32_eq (by omega) (by rw [wordSize_eq]; omega)
      rw [hpred]
      rcases ih (i - 1) (by omega) (by omega)
        { s with blockEntries := s.blockEntries.set (slotAddr k i) (freshEntry k i) } with
        ⟨mem, hrun, hfresh, hother⟩
      refine ⟨mem, hrun, ?_, ?_⟩
      . intro j hj
        by_cases hji : j = i
        . rw [hji, hother]
          . exact Mem.get_set_self _ _ _
          . intro j' hj' heq
            have := slotAddr_inj heq
            omega
        . exact hfresh j (by omega)
      . intro x hx
        rw [hother x fun j hj => hx j (by omega)]
        exact Mem.get_set_of_ne _ _ (Ne.symm (hx i (Nat.le_refl i)))

theorem initSh1EntryRecAux_run (fuel i : Nat) (hi : i < 8) (hfuel : i < fuel) (s : State)
    (hidx : ∀ j, j ≤ i → (s.blockEntries.get (slotAddr k j)).blockindex = j)
    : ∃ mem : Mem Sh1Entry, initSh1EntryRecAux fuel k i s = (true, { s with sh1Entries := mem })
        ∧ (∀ j, j ≤ i → mem.get (sh1Addr k j) = default)
        ∧ (∀ x, (∀ j, j ≤ i → x ≠ sh1Addr k j) → mem.get x = s.sh1Entries.get x) := by
  induction fuel generalizing i s with
  | zero => omega
  | succ fuel ih =>
    unfold initSh1EntryRecAux
    simp only [LLI.bind_run, LLI.pure_run, getBlockEntryAddrFromKernelStructureStart, Index.zero,
      beqIdx_eq, LLI.ite_run, Index.pred, decide_eq_true_eq]
    have haddr : k + i * sizeofBlockEntry = slotAddr k i := rfl
    rw [haddr, writeSh1EntryFromBlockEntryAddr_run (hidx i (Nat.le_refl i))]
    by_cases hzero : i = 0
    . rw [if_pos hzero]
      refine ⟨_, rfl, ?_, ?_⟩
      . intro j hj
        have : j = i := by omega
        rw [this, Mem.get_set_self]
        rfl
      . intro x hx
        exact Mem.get_set_of_ne _ _ (Ne.symm (hx i (Nat.le_refl i)))
    . rw [if_neg hzero]
      have hpred : sub32 i 1 = i - 1 := sub32_eq (by omega) (by rw [wordSize_eq]; omega)
      rw [hpred]
      rcases ih (i - 1) (by omega) (by omega)
        { s with
          sh1Entries := s.sh1Entries.set (sh1Addr k i)
            { PDchild := nullAddr, PDflag := false, inChildLocation := nullAddr } }
        (fun j hj => hidx j (by omega)) with
        ⟨mem, hrun, hfresh, hother⟩
      refine ⟨mem, hrun, ?_, ?_⟩
      . intro j hj
        by_cases hji : j = i
        . rw [hji, hother]
          . exact Mem.get_set_self _ _ _
          . intro j' hj' heq
            have := sh1Addr_inj heq
            omega
        . exact hfresh j (by omega)
      . intro x hx
        rw [hother x fun j hj => hx j (by omega)]
        exact Mem.get_set_of_ne _ _ (Ne.symm (hx i (Nat.le_refl i)))

theorem initSCEntryRecAux_run (fuel i : Nat) (hi : i < 8) (hfuel : i < fuel) (s : State)
    (hidx : ∀ j, j ≤ i → (s.blockEntries.get (slotAddr k j)).blockindex = j)
    : ∃ mem : Mem SCEntry, initSCEntryRecAux fuel k i s = (true, { s with scEntries := mem })
        ∧ (∀ j, j ≤ i → mem.get (scAddr k j) = default)
        ∧ (∀ x, (∀ j, j ≤ i → x ≠ scAddr k j) → mem.get x = s.scEntries.get x) := by
  induction fuel generalizing i s with
  | zero => omega
  | succ fuel ih =>
    unfold initSCEntryRecAux
    simp only [LLI.bind_run, LLI.pure_run, getBlockEntryAddrFromKernelStructureStart, Index.zero,
      beqIdx_eq, LLI.ite_run, Index.pred, decide_eq_true_eq]
    have haddr : k + i * sizeofBlockEntry = slotAddr k i := rfl
    rw [haddr, writeSCEntryFromBlockEntryAddr_run (hidx i (Nat.le_refl i))]
    by_cases hzero : i = 0
    . rw [if_pos hzero]
      refine ⟨_, rfl, ?_, ?_⟩
      . intro j hj
        have : j = i := by omega
        rw [this, Mem.get_set_self]
        rfl
      . intro x hx
        exact Mem.get_set_of_ne _ _ (Ne.symm (hx i (Nat.le_refl i)))
    . rw [if_neg hzero]
      have hpred : sub32 i 1 = i - 1 := sub32_eq (by omega) (by rw [wordSize_eq]; omega)
      rw [hpred]
      rcases ih (i - 1) (by omega) (by omega)
        { s with scEntries := s.scEntries.set (scAddr k i) { origin := nullAddr, next := nullAddr } }
        (fun j hj => hidx j (by omega)) with
        ⟨mem, hrun, hfresh, hother⟩
      refine ⟨mem, hrun, ?_, ?_⟩
      . intro j hj
        by_cases hji : j = i
        . rw [hji, hother]
          . exact Mem.get_set_self _ _ _
          . intro j' hj' heq
            have := scAddr_inj heq
            omega
        . exact hfresh j (by omega)
      . intro x hx
        rw [hother x fun j hj => hx j (by omega)]
        exact Mem.get_set_of_ne _ _ (Ne.symm (hx i (Nat.le_refl i)))

theorem initStructure_run {e : Nat} (he : k + sizeofKStructure ≤ e) (s : State)
    : (initStructure k e s).1 = true ∧ SameOutside (Set.Ico k e) s (initStructure k e s).2
        ∧ Fresh (initStructure k e s).2 k := by
  rw [sizeofKStructure_eq] at he
  have houtside := SameOutside.of_eraseBlock k e s
  have herase : (eraseBlock k e s).1 = true := by
    have hlt : ¬e ≤ k := by omega
    unfold eraseBlock
    simp only [LLI.ite_run]
    rw [if_neg hlt]
    rfl
  unfold initStructure initBlocksStructure initSh1Structure initSCStructure
  simp only [LLI.bind_run, herase, getKernelStructureEntriesNb, Index.pred, LLI.pure_run,
    LLI.ite_run, Bool.not_true, Bool.false_eq_true, if_false]
  generalize (eraseBlock k e s).2 = s₁ at houtside ⊢
  have h₇ : sub32 kernelStructureEntriesNb 1 = 7 := by rfl
  have h₆ : sub32 7 1 = 6 := by rfl
  have haddr : ∀ j, k + j * sizeofBlockEntry = slotAddr k j := fun _ => rfl
  rw [h₇, h₆]
  rcases initBlockEntryRecAux_run k fuelN 6 (by omega) (by unfold fuelN; omega) s₁ with
    ⟨mem, hblock, hfresh, hother⟩
  simp only [hblock, Bool.not_true, Bool.false_eq_true, if_false,
    getBlockEntryAddrFromKernelStructureStart, LLI.pure_run, writeBlockEntryFromBlockEntryAddr_run, haddr]
  have hentry : ({
        startAddr := nullAddr
        endAddr := nullAddr
        blockindex := 7
        read := false
        write := false
        exec := false
        present := false
        accessible := false } : BlockEntry) = freshEntry k 7 := by
    rfl
  rw [hentry]
  have hfresh' : ∀ j, j ≤ 7 → (mem.set (slotAddr k 7) (freshEntry k 7)).get (slotAddr k j) =
      freshEntry k j := by
    intro j hj
    by_cases hj7 : j = 7
    . rw [hj7, Mem.get_set_self]
    . rw [Mem.get_set_of_ne]
      . exact hfresh j (by omega)
      . intro heq
        exact hj7 (slotAddr_inj heq).symm
  have hindex : ∀ j, j ≤ 7 →
      ((mem.set (slotAddr k 7) (freshEntry k 7)).get (slotAddr k j)).blockindex = j := by
    intro j hj
    rw [hfresh' j hj]
    rfl
  rcases initSh1EntryRecAux_run k fuelN 7 (by omega) (by unfold fuelN; omega)
    { s₁ with blockEntries := mem.set (slotAddr k 7) (freshEntry k 7) } hindex with
    ⟨memSh1, hsh1, hfreshSh1, hotherSh1⟩
  simp only [hsh1, Bool.not_true, Bool.false_eq_true, if_false]
  rcases initSCEntryRecAux_run k fuelN 7 (by omega) (by unfold fuelN; omega)
    { s₁ with
      blockEntries := mem.set (slotAddr k 7) (freshEntry k 7)
      sh1Entries := memSh1 } hindex with
    ⟨memSC, hsc, hfreshSC, hotherSC⟩
  simp only [hsc, Bool.not_true, Bool.false_eq_true, if_false, LLI.pure_run,
    writeNextFromKernelStructureStart, getNextAddrFromKernelStructureStart, LLI.bind_run,
    LLI.modify_run]
  refine ⟨trivial, houtside.trans ?_, ?_⟩
  . constructor <;> try rfl
    . intro x _
      rfl
    . intro x hx
      have hne : ∀ j, j ≤ 7 → x ≠ slotAddr k j := by
        intro j hj
        rw [slotAddr_eq]
        rw [Set.mem_Ico] at hx
        omega
      simp only [Mem.get_set_of_ne _ _ (Ne.symm (hne 7 (by omega)))]
      exact hother x fun j hj => hne j (by omega)
    . intro x hx
      apply hotherSh1
      intro j hj
      rw [sh1Addr_eq]
      rw [Set.mem_Ico] at hx
      omega
    . intro x hx
      apply hotherSC
      intro j hj
      rw [scAddr_eq]
      rw [Set.mem_Ico] at hx
      omega
    . intro x hx
      apply Mem.get_set_of_ne
      rw [nextOffset_eq]
      rw [Set.mem_Ico] at hx
      omega
    . intro x _
      rfl
  . constructor
    . simp only [State.nextStructure, Mem.get_set_self, nullAddr]
    . intro i hi
      exact hfresh' i (by omega)
    . intro i hi
      exact hfreshSh1 i (by omega)
    . intro i hi
      exact hfreshSC i (by omega)

end
