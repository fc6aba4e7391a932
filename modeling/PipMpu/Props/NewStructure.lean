import PipMpu.Props.PrepareCollect

/-!
This module contains what `prepare` makes of the block it is given, whatever was in the memory of the block: a
structure of empty slots that come before the other free slots of the partition.
-/

namespace State

/--
The slot `i` of the structure `k` is unused.
-/
structure EmptySlot (s : State) (k i : Nat) : Prop where
  present : (s.blockEntries.get (slotAddr k i)).present = false
  blockindex : (s.blockEntries.get (slotAddr k i)).blockindex = i
  startAddr : (s.blockEntries.get (slotAddr k i)).startAddr = nullAddr
  read : (s.blockEntries.get (slotAddr k i)).read = false
  write : (s.blockEntries.get (slotAddr k i)).write = false
  exec : (s.blockEntries.get (slotAddr k i)).exec = false
  accessible : (s.blockEntries.get (slotAddr k i)).accessible = false
  sh1Entry : s.sh1Entries.get (sh1Addr k i) = { PDchild := nullAddr, PDflag := false, inChildLocation := nullAddr }
  scEntry : s.scEntries.get (scAddr k i) = { origin := nullAddr, next := nullAddr }

/--
The memory of the block `a` holds neither the descriptor of `t` and its free slots nor the entries of the block.
-/
structure Spares (s : State) (a t : Nat) (l : List Nat) : Prop where
  pd : t ∉ Set.Ico (s.blockEntries.get a).startAddr (s.blockEntries.get a).endAddr
  free : ∀ f ∈ l, f ∉ Set.Ico (s.blockEntries.get a).startAddr (s.blockEntries.get a).endAddr
  entry : a ∉ Set.Ico (s.blockEntries.get a).startAddr (s.blockEntries.get a).endAddr
  sh1Entry : (getSh1EntryAddrFromBlockEntryAddr a s).1 ∉
    Set.Ico (s.blockEntries.get a).startAddr (s.blockEntries.get a).endAddr

/--
Some blocks are no longer accessible and leave the regions, nothing else that the kernel stores is different.
-/
structure AccessRevoked (s s' : State) : Prop where
  blockEntries : ∀ a, s'.blockEntries.get a = s.blockEntries.get a
    ∨ s'.blockEntries.get a = { s.blockEntries.get a with accessible := false }
  sh1Entries : s'.sh1Entries = s.sh1Entries
  scEntries : s'.scEntries = s.scEntries
  nextPointers : s'.nextPointers = s.nextPointers
  pdtables : ∀ p, (s'.pdtables.get p).core = (s.pdtables.get p).core

namespace AccessRevoked

variable {s s' : State}

theorem trans {s'' : State} (h : AccessRevoked s s') (h' : AccessRevoked s' s'') : AccessRevoked s s'' := by
  refine ⟨?_, h'.sh1Entries.trans h.sh1Entries, h'.scEntries.trans h.scEntries,
    h'.nextPointers.trans h.nextPointers, fun p => (h'.pdtables p).trans (h.pdtables p)⟩
  intro a
  rcases h.blockEntries a with h₁ | h₁ <;> rcases h'.blockEntries a with h₂ | h₂
  . exact .inl (h₂.trans h₁)
  . exact .inr (by rw [h₂, h₁])
  . exact .inr (h₂.trans h₁)
  . exact .inr (by rw [h₂, h₁])

instance : Std.Refl AccessRevoked := ⟨fun _ => ⟨fun _ => .inl rfl, rfl, rfl, rfl, fun _ => rfl⟩⟩

instance : IsTrans State AccessRevoked := ⟨fun _ _ _ h h' => h.trans h'⟩

theorem write (b : Nat) : Keeps AccessRevoked (writeBlockAccessibleFromBlockEntryAddr b false) := by
  intro s
  unfold writeBlockAccessibleFromBlockEntryAddr
  rw [modifyBlockEntry_run]
  refine ⟨?_, rfl, rfl, rfl, fun _ => rfl⟩
  intro a
  simp only [Mem.get_set]
  split
  . next heq => exact .inr (by rw [heq])
  . exact .inl rfl

theorem unmap (pd b : Nat) : Keeps AccessRevoked (removeBlockFromPhysicalMPU pd b) := by
  intro s
  unfold removeBlockFromPhysicalMPU
  rw [modifyPDTable_run]
  refine ⟨fun _ => .inl rfl, rfl, rfl, rfl, ?_⟩
  intro p
  simp only [Mem.get_set]
  split
  . next heq => rw [Sim.unmapBlock_core, heq]
  . rfl

theorem ancestors (pd b : Nat) : Keeps AccessRevoked (writeAccessibleToAncestorsIfNotCutRec pd b false) :=
  writeAccessibleToAncestorsIfNotCutRec_keeps write unmap pd b

/--
The links do not change.
-/
theorem nextFree_eq (h : AccessRevoked s s') (a : Nat) : s'.nextFree a = s.nextFree a := by
  unfold nextFree
  rcases h.blockEntries a with ha | ha <;> rw [ha]

theorem blockindex_eq (h : AccessRevoked s s') (a : Nat)
    : (s'.blockEntries.get a).blockindex = (s.blockEntries.get a).blockindex := by
  rcases h.blockEntries a with ha | ha <;> rw [ha]

theorem fresh (h : AccessRevoked s s') {k : Nat} (hk : Fresh s k) : Fresh s' k := by
  constructor
  . unfold nextStructure
    rw [h.nextPointers]
    exact hk.next
  . intro i hi
    rcases h.blockEntries (slotAddr k i) with ha | ha <;> rw [ha, hk.blockEntries i hi]
    rfl
  . intro i hi
    rw [h.sh1Entries]
    exact hk.sh1Entries i hi
  . intro i hi
    rw [h.scEntries]
    exact hk.scEntries i hi

end AccessRevoked

end State

/-
The checks
-/

theorem findBlockInKSWithAddrAux_result (timeout k a : Nat) (s : State)
    : (findBlockInKSWithAddrAux timeout k a s).1 = nullAddr ∨ (findBlockInKSWithAddrAux timeout k a s).1 = a := by
  induction timeout generalizing k with
  | zero => exact .inl rfl
  | succ timeout ih =>
    unfold findBlockInKSWithAddrAux
    simp only [LLI.bind_run, LLI.ite_run]
    split
    . split
      . exact .inl rfl
      . split
        . exact .inr rfl
        . exact .inl rfl
    . split
      . exact .inl rfl
      . exact ih _

theorem findBlockInKSWithAddr_result (p a : Nat) (s : State)
    : (findBlockInKSWithAddr p a s).1 = nullAddr ∨ (findBlockInKSWithAddr p a s).1 = a := by
  unfold findBlockInKSWithAddr
  simp only [LLI.bind_run, LLI.ite_run]
  split
  . exact .inl rfl
  . exact findBlockInKSWithAddrAux_result _ _ _ _

/--
A size that was computed without a borrow.
-/
theorem le_of_sub32 {lo hi n : Nat} (hlt : lo < hi) (hn : n ≤ sub32 hi lo) : lo + n ≤ hi := by
  unfold sub32 at hn
  rw [wordSize_eq] at hn
  omega

/--
Once `prepare` has made its checks it initialises the structure and links it.
-/
theorem prepare_run (idPD a : Nat) (s : State)
    : LLI.Ensures (prepare idPD a) s fun v s' => v = true →
        ∃ t, (getGlobalIdPDCurrentOrChild s.currentPartition idPD s).1 = t
          ∧ (s.blockEntries.get a).startAddr ≠ nullAddr
          ∧ (s.blockEntries.get a).startAddr + sizeofKStructure ≤ (s.blockEntries.get a).endAddr
          ∧ (v, s') = prepareBlock s.currentPartition t a (s.blockEntries.get a).startAddr
            (s.blockEntries.get a).endAddr s := by
  have hfail : LLI.Ensures (pure false) s fun v s' => v = true →
      ∃ t, (getGlobalIdPDCurrentOrChild s.currentPartition idPD s).1 = t
        ∧ (s.blockEntries.get a).startAddr ≠ nullAddr
        ∧ (s.blockEntries.get a).startAddr + sizeofKStructure ≤ (s.blockEntries.get a).endAddr
        ∧ (v, s') = prepareBlock s.currentPartition t a (s.blockEntries.get a).startAddr
          (s.blockEntries.get a).endAddr s := .pure fun h => absurd h (by simp)
  have hfind := findBlockInKSWithAddr_result s.currentPartition a s
  unfold prepare
  refine .bind rfl ?_
  refine .read (getGlobalIdPDCurrentOrChild_state _ _ s) ?_
  refine .bind (compareAddrToNull_run _ _) ?_
  refine .cond (fun _ => hfail) fun _ => ?_
  refine .read rfl ?_
  refine .read rfl ?_
  refine .read rfl ?_
  refine .cond (fun _ => hfail) fun _ => ?_
  refine .read rfl ?_
  refine .read (findBlockInKSWithAddr_state _ _ s) ?_
  refine .bind (compareAddrToNull_run _ _) ?_
  refine .cond (fun _ => hfail) fun hne => ?_
  simp only [decide_eq_true_eq] at hne
  rw [hfind.resolve_left hne]
  refine .read rfl ?_
  refine .cond (fun _ => hfail) fun hram => ?_
  refine .read rfl ?_
  refine .read rfl ?_
  refine .read rfl ?_
  refine .cond (fun _ => hfail) fun hsize => ?_
  refine .read rfl ?_
  refine .cond (fun _ => hfail) fun _ => ?_
  refine .read rfl ?_
  refine .cond (fun _ => hfail) fun _ => ?_
  refine .read rfl ?_
  refine .bind (compareAddrToNull_run _ _) ?_
  refine .cond (fun _ => hfail) fun _ => ?_
  refine .read rfl ?_
  refine .read rfl ?_
  have hstart : ramStart ≤ (s.blockEntries.get a).startAddr ∧ (s.blockEntries.get a).endAddr ≤ ramEnd := by
    simpa [checkBlockInRAM, readBlockStartFromBlockEntryAddr, readBlockEndFromBlockEntryAddr, readBlockField] using hram
  have hlen : (getKernelStructureTotalLength s).1 ≤
      sub32 (s.blockEntries.get a).endAddr (s.blockEntries.get a).startAddr := by
    simpa [Index.ltb, sizeOfBlock, Paddr.subPaddr, readBlockStartFromBlockEntryAddr, readBlockEndFromBlockEntryAddr,
      readBlockField] using hsize
  by_cases hlt : (s.blockEntries.get a).startAddr < (s.blockEntries.get a).endAddr
  . intro _
    refine ⟨_, rfl, ?_, ?_, rfl⟩
    . have : 0 < ramStart := by decide
      unfold nullAddr
      omega
    . have := le_of_sub32 hlt hlen
      have htotal : (getKernelStructureTotalLength s).1 = 288 := by rfl
      rw [htotal] at this
      rw [sizeofKStructure_eq]
      omega
  . -- an empty block cannot be erased
    have hinit : initStructure (s.blockEntries.get a).startAddr (s.blockEntries.get a).endAddr s = (false, s) := by
      unfold initStructure eraseBlock
      rw [if_pos (Nat.le_of_not_lt hlt)]
      rfl
    refine .bind hinit ?_
    exact .cond (fun _ => hfail) fun h => absurd rfl h

/-
The structure
-/

namespace State

theorem EmptySlot.of_eq {s : State} {k i v : Nat}
    (hentry : s.blockEntries.get (slotAddr k i) = { (default : BlockEntry) with blockindex := i, endAddr := v })
    (hsh1 : s.sh1Entries.get (sh1Addr k i) = default) (hsc : s.scEntries.get (scAddr k i) = default)
    : s.EmptySlot k i := by
  constructor
  case sh1Entry => exact hsh1
  case scEntry => exact hsc
  case blockindex => rw [hentry]
  all_goals
    rw [hentry]
    rfl

/--
The initialised structure is linked in front of the structures of `t` and its slots in front of the free slots.
-/
theorem linkBlock_newStructure {s s₁ : State} {p t a k e : Nat} {l : List Nat} (hk : k ≠ nullAddr)
    (he : k + sizeofKStructure ≤ e) (hfresh : Fresh s₁ k) (hsame : SameOutside (Set.Ico k e) s s₁)
    (hfree : FreeList s t l) (hpd : t ∉ Set.Ico k e) (hslots : ∀ f ∈ l, f ∉ Set.Ico k e) (ha : a ∉ Set.Ico k e)
    (hsh1 : (getSh1EntryAddrFromBlockEntryAddr a s).1 ∉ Set.Ico k e)
    : LLI.Ensures (linkBlock kernelStructureEntriesNb p t a k) s₁ fun _ s' =>
        (∀ i, i < kernelStructureEntriesNb → s'.EmptySlot k i) ∧ FreeList s' t (slotsOf k ++ l) := by
  rw [sizeofKStructure_eq] at he
  unfold linkBlock
  refine .step (AccessRevoked s₁) (AccessRevoked.write a s₁) fun _ s₂ h₂ => ?_
  refine .step (AccessRevoked s₁) (h₂.trans (AccessRevoked.unmap p a s₂)) fun _ s₃ h₃ => ?_
  refine .step (AccessRevoked s₁) (h₃.trans (AccessRevoked.ancestors p a s₃)) fun _ s₄ h₄ => ?_
  have hfresh₄ := h₄.fresh hfresh
  refine .bind (readPDField_run _ _ _) ?_
  refine .step (· = _) rfl fun _ s₅ hs₅ => ?_
  refine .step (· = _) rfl fun _ s₆ hs₆ => ?_
  refine .bind rfl ?_
  refine .bind rfl ?_
  refine .bind (readPDField_run _ _ _) ?_
  refine .step (· = _) rfl fun _ s₇ hs₇ => ?_
  refine .step (· = _) rfl fun _ s₈ hs₈ => ?_
  refine .bind (readPDField_run _ _ _) ?_
  refine .bind rfl ?_
  refine .step (· = _) rfl fun _ s₉ hs₉ => ?_
  refine .bind (readPDField_run _ _ _) ?_
  refine .bind rfl ?_
  refine .step (· = _) rfl fun _ s₁₀ hs₁₀ => ?_
  have hblock₁₀ : s₁₀.blockEntries = s₄.blockEntries.set (slotAddr k 7)
      { s₄.blockEntries.get (slotAddr k 7) with endAddr := (s₄.pdtables.get t).firstfreeslot } := by
    have hseven : sub32 kernelStructureEntriesNb 1 = 7 := by rfl
    have haddr : ∀ k j, k + j * sizeofBlockEntry = slotAddr k j := fun _ _ => rfl
    subst hs₅ hs₆ hs₇ hs₈ hs₉ hs₁₀
    simp only [writeNextFromKernelStructureStart_run, writePDStructurePointer, modifyPDTable_run,
      writeBlockEndFromBlockEntryAddr, modifyBlockEntry_run, hseven, haddr, writePDFirstFreeSlotPointer,
      writePDNbFreeSlots, writePDNbPrepare, Mem.get_set_self]
  have hfirst₁₀ : (s₁₀.pdtables.get t).firstfreeslot = k := by
    subst hs₅ hs₆ hs₇ hs₈ hs₉ hs₁₀
    simp only [writePDFirstFreeSlotPointer, writePDNbFreeSlots, writePDNbPrepare, modifyPDTable_run, Mem.get_set_self]
  have hsh1₁₀ : s₁₀.sh1Entries = s₄.sh1Entries := by
    subst hs₅ hs₆ hs₇ hs₈ hs₉ hs₁₀
    rfl
  have hsc₁₀ : s₁₀.scEntries = s₄.scEntries := by
    subst hs₅ hs₆ hs₇ hs₈ hs₉ hs₁₀
    rfl
  clear hs₅ hs₆ hs₇ hs₈ hs₉ hs₁₀
  have hlast : slotAddr k 7 ∈ Set.Ico k e := by
    rw [slotAddr_eq]
    constructor <;> omega
  have hother : ∀ x, x ∉ Set.Ico k e → s₁₀.blockEntries.get x = s₄.blockEntries.get x := by
    intro x hx
    rw [hblock₁₀]
    apply Mem.get_set_of_ne
    rintro rfl
    exact hx hlast
  have hempty : ∀ i, i < kernelStructureEntriesNb → s₁₀.EmptySlot k i := by
    intro i hi
    have hi : i < 8 := hi
    by_cases hi7 : i = 7
    . subst hi7
      apply EmptySlot.of_eq (v := (s₄.pdtables.get t).firstfreeslot)
      . rw [hblock₁₀, Mem.get_set_self, hfresh₄.blockEntries 7 hi]
        rfl
      . rw [hsh1₁₀]
        exact hfresh₄.sh1Entries 7 hi
      . rw [hsc₁₀]
        exact hfresh₄.scEntries 7 hi
    . apply EmptySlot.of_eq (v := slotAddr k (i + 1))
      . rw [hblock₁₀, Mem.get_set_of_ne _ _ fun heq => hi7 (slotAddr_inj heq).symm, hfresh₄.blockEntries i hi]
        have : i < 7 := by omega
        simp only [freshEntry, this, if_true]
      . rw [hsh1₁₀]
        exact hfresh₄.sh1Entries i hi
      . rw [hsc₁₀]
        exact hfresh₄.scEntries i hi
  have hlist : FreeList s₁₀ t (slotsOf k ++ l) := by
    unfold FreeList
    rw [hfirst₁₀]
    apply linked_slotsOf hk
    . intro i hi
      unfold nextFree
      rw [hblock₁₀, Mem.get_set_of_ne _ _ fun heq => absurd (slotAddr_inj heq) (by omega),
        hfresh₄.blockEntries i (by omega)]
      simp only [freshEntry, hi, if_true]
    . unfold nextFree
      rw [hblock₁₀, Mem.get_set_self]
    . have hcore := h₄.pdtables t
      simp only [PDTable.core, Prod.mk.injEq] at hcore
      rw [hcore.2.1, hsame.pdtables t hpd]
      apply hfree.congr
      intro f hf
      have hnext : s₁₀.nextFree f = s₄.nextFree f := by
        unfold nextFree
        rw [hother f (hslots f hf)]
      have hnext₁ : s₁.nextFree f = s.nextFree f := by
        unfold nextFree
        rw [hsame.blockEntries f (hslots f hf)]
      rw [hnext, h₄.nextFree_eq, hnext₁]
  refine .bind rfl ?_
  refine .cond (fun _ => ?_) fun _ => .pure ⟨hempty, hlist⟩
  -- the entry of the block lies in another structure
  have haddr : getSh1EntryAddrFromBlockEntryAddr a s₁₀ = ((getSh1EntryAddrFromBlockEntryAddr a s).1, s₁₀) := by
    have hindex : (s₁₀.blockEntries.get a).blockindex = (s.blockEntries.get a).blockindex := by
      rw [hother a ha, h₄.blockindex_eq, hsame.blockEntries a ha]
    unfold getSh1EntryAddrFromBlockEntryAddr getKernelStructureStartAddr getSh1EntryAddrFromKernelStructureStart
      readBlockIndexFromBlockEntryAddr readBlockField
    simp only [LLI.bind_run, LLI.gets_run, LLI.pure_run, hindex]
  refine .step (· = _) rfl fun _ s₁₁ hs₁₁ => .pure ?_
  unfold writeSh1PDChildFromBlockEntryAddr modifySh1Entry at hs₁₁
  rw [LLI.bind_run, haddr, LLI.modify_run] at hs₁₁
  subst hs₁₁
  refine ⟨fun i hi => ?_, hlist⟩
  have hslot := hempty i hi
  refine ⟨hslot.present, hslot.blockindex, hslot.startAddr, hslot.read, hslot.write, hslot.exec, hslot.accessible,
    ?_, hslot.scEntry⟩
  rw [← hslot.sh1Entry]
  apply Mem.get_set_of_ne
  intro heq
  apply hsh1
  have hi : i < 8 := hi
  rw [heq, sh1Addr_eq]
  constructor <;> omega

variable {s : State} {idPD a t : Nat} {l : List Nat}

/--
Whatever the block held before, all slots of the new structure are unused, and they are the first free slots of the
partition in the order in which they lie in memory.
-/
theorem prepare_newStructure (hdone : (prepare idPD a s).1 = true)
    (ht : (getGlobalIdPDCurrentOrChild s.currentPartition idPD s).1 = t) (hfree : FreeList s t l)
    (hspares : s.Spares a t l)
    : (∀ i, i < kernelStructureEntriesNb → (prepare idPD a s).2.EmptySlot (s.blockEntries.get a).startAddr i)
        ∧ FreeList (prepare idPD a s).2 t (slotsOf (s.blockEntries.get a).startAddr ++ l) := by
  rcases prepare_run idPD a s hdone with ⟨t', ht', hk, hsize, hrun⟩
  subst ht
  subst ht'
  have hstate := congrArg Prod.snd hrun
  simp only at hstate
  rw [hstate]
  have hinit := initStructure_run (s.blockEntries.get a).startAddr hsize s
  unfold prepareBlock
  rw [LLI.bind_run, hinit.1]
  exact linkBlock_newStructure hk hsize hinit.2.2 hinit.2.1 hfree hspares.pd hspares.free hspares.entry
    hspares.sh1Entry

end State

/--
In the states that the view describes an accessible block holds no kernel data.
-/
theorem Sim.spares {s : State} {C : Conf} (h : Sim s C) (hC : C.Inv) {p b t : Nat} (hb : C.Has p b)
    (hacc : (C.slot b).accessible = true) (ht : C.Live t) : s.Spares b t (C.free t) := by
  have hclear := hC.clear hb hacc
  have hrange : Set.Ico (s.blockEntries.get b).startAddr (s.blockEntries.get b).endAddr = (C.slot b).range := by
    rw [h.startAddr_eq hb.1, h.endAddr_eq hb]
    rfl
  rcases hb.1 with ⟨hp, k, hk, hslot⟩
  rcases (mem_slotsOf k b).mp hslot with ⟨i, hi, rfl⟩
  constructor <;> rw [hrange]
  . exact hclear.pd t ht
  . intro f hf
    rcases ((hC.static.mem_free t f ht).mp hf).1 with ⟨-, k', hk', hf'⟩
    exact hclear.structures t k' f ht hk' (slotsOf_mem_structureRange hf')
  . exact hclear.structures p k _ hp hk (slotsOf_mem_structureRange hslot)
  . have hsh1 := h.run_getSh1EntryAddr hp hk hi
    rw [slotAddr_eq] at hsh1
    rw [hsh1]
    exact hclear.structures p k _ hp hk (sh1Addr_mem_structureRange k hi)

/--
The root makes its second structure of the block of RAM.
-/
theorem State.prepare_newStructure_booted
    : ∃ l, FreeList State.booted 0x2000F000 l
        ∧ (∀ i, i < kernelStructureEntriesNb →
          (prepare 0x2000F000 0x2000F111 State.booted).2.EmptySlot (State.booted.blockEntries.get 0x2000F111).startAddr i)
        ∧ FreeList (prepare 0x2000F000 0x2000F111 State.booted).2 0x2000F000
          (slotsOf (State.booted.blockEntries.get 0x2000F111).startAddr ++ l) := by
  have heval : State.booted.constantRootPartM = 0x2000F000 ∧ (State.booted.pdtables.get 0x2000F000).structurePtr ≠ 0
      ∧ 0x2000F111 ∈ slotsOf (State.booted.pdtables.get 0x2000F000).structurePtr
      ∧ (State.booted.blockEntries.get 0x2000F111).present = true
      ∧ (State.booted.blockEntries.get 0x2000F111).accessible = true
      ∧ (prepare 0x2000F000 0x2000F111 State.booted).1 = true
      ∧ (getGlobalIdPDCurrentOrChild State.booted.currentPartition 0x2000F000 State.booted).1 = 0x2000F000 := by
    decide +kernel
  rcases heval with ⟨hroot, hne, hmem, hpresent, hacc, hdone, hglobal⟩
  rcases ServiceCall.view_of_reachable ServiceCall.reachable_booted with ⟨C, hsim, hC⟩
  have hlive : C.Live 0x2000F000 := by
    rw [← hroot, hsim.root]
    exact hC.static.root_live
  have hb := (hsim.hasBlock_iff hlive).mp (State.hasBlock_of_first hne hmem hpresent)
  rw [hsim.accessible_eq hb.1] at hacc
  exact ⟨_, hsim.free _ hlive, prepare_newStructure hdone hglobal (hsim.free _ hlive) (hsim.spares hC hb hacc hlive)⟩
