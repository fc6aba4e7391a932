import PipMpu.Refine.Search

/-!
This module contains the effect of the writes of the memory abstraction layer on the abstract view,
up to the two functions that take a slot from the free slots and put one back.
-/

theorem modifyBlockEntry_run (a : Nat) (f : BlockEntry → BlockEntry) (s : State)
    : modifyBlockEntry a f s
        =
      ((), { s with blockEntries := s.blockEntries.set a (f (s.blockEntries.get a)) }) := by
  rfl

theorem modifyPDTable_run (p : Nat) (f : PDTable → PDTable) (s : State)
    : modifyPDTable p f s = ((), { s with pdtables := s.pdtables.set p (f (s.pdtables.get p)) }) := by
  rfl

theorem writeNextFromKernelStructureStart_run (k v : Nat) (s : State)
    : writeNextFromKernelStructureStart k v s
        =
      ((), { s with nextPointers := s.nextPointers.set (k + nextOffset) v }) := by
  rfl

theorem readPDField_run {α : Type} (field : PDTable → α) (p : Nat) (s : State)
    : readPDField field p s = (field (s.pdtables.get p), s) := by
  rfl

theorem writeBlockEntryFromBlockEntryAddr_run (a index startAddr endAddr : Nat)
    (accessible present read write exec : Bool) (s : State)
    : writeBlockEntryFromBlockEntryAddr a index startAddr endAddr accessible present read write exec s
        =
      ((), { s with
        blockEntries := s.blockEntries.set a
          {
              startAddr := startAddr
              endAddr := endAddr
              blockindex := index
              read := read
              write := write
              exec := exec
              present := present
              accessible := accessible
          } }) := by
  simp only [writeBlockEntryFromBlockEntryAddr, writeBlockStartFromBlockEntryAddr,
    writeBlockEndFromBlockEntryAddr, writeBlockAccessibleFromBlockEntryAddr,
    writeBlockPresentFromBlockEntryAddr, writeBlockRFromBlockEntryAddr,
    writeBlockWFromBlockEntryAddr, writeBlockXFromBlockEntryAddr, writeBlockIndexFromBlockEntryAddr,
    LLI.bind_run, modifyBlockEntry_run, Mem.get_set_self, Mem.set_set]

section

variable {s : State} {k i : Nat} (hidx : (s.blockEntries.get (slotAddr k i)).blockindex = i)

include hidx

theorem getSh1EntryAddrFromBlockEntryAddr_run
    : getSh1EntryAddrFromBlockEntryAddr (slotAddr k i) s = (sh1Addr k i, s) := by
  unfold getSh1EntryAddrFromBlockEntryAddr getKernelStructureStartAddr
    getSh1EntryAddrFromKernelStructureStart readBlockIndexFromBlockEntryAddr readBlockField
  simp only [LLI.bind_run, LLI.gets_run, LLI.pure_run, hidx]
  simp only [slotAddr, sh1Addr, Nat.add_sub_cancel]

theorem getSCEntryAddrFromBlockEntryAddr_run
    : getSCEntryAddrFromBlockEntryAddr (slotAddr k i) s = (scAddr k i, s) := by
  unfold getSCEntryAddrFromBlockEntryAddr getKernelStructureStartAddr
    getSCEntryAddrFromKernelStructureStart readBlockIndexFromBlockEntryAddr readBlockField
  simp only [LLI.bind_run, LLI.gets_run, LLI.pure_run, hidx]
  simp only [slotAddr, scAddr, Nat.add_sub_cancel]

theorem modifySh1Entry_run (f : Sh1Entry → Sh1Entry)
    : modifySh1Entry (slotAddr k i) f s
        =
      ((), { s with
        sh1Entries := s.sh1Entries.set (sh1Addr k i) (f (s.sh1Entries.get (sh1Addr k i))) }) := by
  unfold modifySh1Entry
  rw [LLI.bind_run, getSh1EntryAddrFromBlockEntryAddr_run hidx, LLI.modify_run]

theorem modifySCEntry_run (f : SCEntry → SCEntry)
    : modifySCEntry (slotAddr k i) f s
        =
      ((), { s with
        scEntries := s.scEntries.set (scAddr k i) (f (s.scEntries.get (scAddr k i))) }) := by
  unfold modifySCEntry
  rw [LLI.bind_run, getSCEntryAddrFromBlockEntryAddr_run hidx, LLI.modify_run]

theorem writeSh1EntryFromBlockEntryAddr_run (PDchild : Nat) (PDflag : Bool) (inChildLocation : Nat)
    : writeSh1EntryFromBlockEntryAddr (slotAddr k i) PDchild PDflag inChildLocation s
        =
      ((), { s with
        sh1Entries := s.sh1Entries.set (sh1Addr k i)
          { PDchild := PDchild, PDflag := PDflag, inChildLocation := inChildLocation } }) := by
  unfold writeSh1EntryFromBlockEntryAddr writeSh1PDChildFromBlockEntryAddr
    writeSh1PDFlagFromBlockEntryAddr writeSh1InChildLocationFromBlockEntryAddr
  simp only [LLI.bind_run]
  rw [modifySh1Entry_run hidx, modifySh1Entry_run (by exact hidx), modifySh1Entry_run (by exact hidx)]
  simp only [Mem.get_set_self, Mem.set_set]

theorem writeSCEntryFromBlockEntryAddr_run (origin next : Nat)
    : writeSCEntryFromBlockEntryAddr (slotAddr k i) origin next s
        =
      ((), { s with
        scEntries := s.scEntries.set (scAddr k i) { origin := origin, next := next } }) := by
  unfold writeSCEntryFromBlockEntryAddr writeSCOriginFromBlockEntryAddr writeSCNextFromBlockEntryAddr
  simp only [LLI.bind_run]
  rw [modifySCEntry_run hidx, modifySCEntry_run (by exact hidx)]
  simp only [Mem.get_set_self, Mem.set_set]

end

theorem slotAddr_inj {k i j : Nat} (h : slotAddr k i = slotAddr k j) : i = j := by
  rw [slotAddr_eq, slotAddr_eq] at h
  omega

theorem sh1Addr_inj {k i j : Nat} (h : sh1Addr k i = sh1Addr k j) : i = j := by
  rw [sh1Addr_eq, sh1Addr_eq] at h
  omega

theorem scAddr_inj {k i j : Nat} (h : scAddr k i = scAddr k j) : i = j := by
  rw [scAddr_eq, scAddr_eq] at h
  omega

theorem slotAddr_mem_structureRange (k : Nat) {i : Nat} (hi : i < 8)
    : slotAddr k i ∈ structureRange k :=
  slotsOf_mem_structureRange (slotAddr_mem hi)

theorem sh1Addr_mem_structureRange (k : Nat) {i : Nat} (hi : i < 8)
    : sh1Addr k i ∈ structureRange k := by
  unfold structureRange
  rw [sh1Addr_eq, sizeofKStructure_eq]
  constructor <;> omega

theorem scAddr_mem_structureRange (k : Nat) {i : Nat} (hi : i < 8)
    : scAddr k i ∈ structureRange k := by
  unfold structureRange
  rw [scAddr_eq, sizeofKStructure_eq]
  constructor <;> omega

namespace Conf

variable {C : Conf}

/--
Different entries of live structures have different addresses.
-/
theorem Apart.addr_ne (hC : C.Apart) {p q k k' i i' : Nat} (hp : C.Live p) (hq : C.Live q)
    (hk : k ∈ C.structures p) (hk' : k' ∈ C.structures q) (hi : i < 8) (hi' : i' < 8)
    (hne : ¬(k' = k ∧ i' = i))
    : slotAddr k' i' ≠ slotAddr k i ∧ sh1Addr k' i' ≠ sh1Addr k i ∧ scAddr k' i' ≠ scAddr k i := by
  have hdisj := fun x => hC.structures_disjoint q p k' k x hq hp hk' hk
  refine ⟨?_, ?_, ?_⟩
  . intro heq
    have hx := slotAddr_mem_structureRange k hi
    rw [← heq] at hx
    have := (hdisj _ (slotAddr_mem_structureRange k' hi') hx).2
    subst this
    exact hne ⟨rfl, slotAddr_inj heq⟩
  . intro heq
    have hx := sh1Addr_mem_structureRange k hi
    rw [← heq] at hx
    have := (hdisj _ (sh1Addr_mem_structureRange k' hi') hx).2
    subst this
    exact hne ⟨rfl, sh1Addr_inj heq⟩
  . intro heq
    have hx := scAddr_mem_structureRange k hi
    rw [← heq] at hx
    have := (hdisj _ (scAddr_mem_structureRange k' hi') hx).2
    subst this
    exact hne ⟨rfl, scAddr_inj heq⟩

theorem setFree_self (C : Conf) (p : Nat) : C.setFree p (C.free p) = C := by
  unfold setFree
  have : (fun q => if q = p then C.free p else C.free q) = C.free := by
    funext q
    by_cases hq : q = p <;> simp [hq]
  rw [this]

end Conf

/--
The slot after `insertNewEntry`.
-/
def Slot.filled (sl : Slot) (startAddr endAddr origin : Nat) (r w e : Bool) : Slot :=
  {
      sl with
      present := true
      accessible := true
      read := r
      write := w
      exec := e
      startAddr := startAddr
      endAddr := endAddr
      origin := origin
  }

namespace Sim

variable {s s' : State} {C : Conf}

/--
A change of one slot and of the free slots of its partition.
-/
theorem update (h : Sim s C) (hC : C.Apart) {p k i : Nat} (hp : C.Live p) (hk : k ∈ C.structures p)
    (hi : i < 8) {sl : Slot} {l : List Nat} (hcur : s'.currentPartition = s.currentPartition)
    (hroot : s'.constantRootPartM = s.constantRootPartM)
    (hnext : s'.nextPointers = s.nextPointers)
    (hpd : ∀ q, q ≠ p → (s'.pdtables.get q).core = (s.pdtables.get q).core)
    (hptr : (s'.pdtables.get p).structurePtr = (s.pdtables.get p).structurePtr)
    (hparent : (s'.pdtables.get p).parent = (s.pdtables.get p).parent)
    (hprepare : (s'.pdtables.get p).nbprepare = (s.pdtables.get p).nbprepare)
    (hblock : ∀ x, x ≠ slotAddr k i → s'.blockEntries.get x = s.blockEntries.get x)
    (hsh1 : ∀ x, x ≠ sh1Addr k i → s'.sh1Entries.get x = s.sh1Entries.get x)
    (hsc : ∀ x, x ≠ scAddr k i → s'.scEntries.get x = s.scEntries.get x)
    (hidx : (s'.blockEntries.get (slotAddr k i)).blockindex = i) (hview : s'.slotView k i = sl)
    (hfree : Linked s'.nextFree (s'.pdtables.get p).firstfreeslot l)
    (hnb : (s'.pdtables.get p).nbfreeslots = l.length)
    : Sim s' ((C.setSlot (slotAddr k i) sl).setFree p l) := by
  have hnextStructure : s'.nextStructure = s.nextStructure := by
    funext x
    simp only [State.nextStructure, hnext]
  have hpd' : ∀ q, (s'.pdtables.get q).structurePtr = (s.pdtables.get q).structurePtr ∧
      (s'.pdtables.get q).parent = (s.pdtables.get q).parent ∧
      (s'.pdtables.get q).nbprepare = (s.pdtables.get q).nbprepare := by
    intro q
    by_cases hq : q = p
    . rw [hq]
      exact ⟨hptr, hparent, hprepare⟩
    . have := hpd q hq
      simp only [PDTable.core, Prod.mk.injEq] at this
      exact ⟨this.1, this.2.2.2.2, this.2.2.2.1⟩
  constructor
  . rw [hcur]
    exact h.cur
  . rw [hroot]
    exact h.root
  . intro q hq hne
    rw [(hpd' q).2.1]
    exact h.parent q hq hne
  . intro q hq
    rw [hnextStructure, (hpd' q).1]
    exact h.structures q hq
  . intro q hq
    by_cases hqp : q = p
    . subst hqp
      simp only [Conf.setFree, if_true]
      exact hfree
    . have hcore := hpd q hqp
      simp only [PDTable.core, Prod.mk.injEq] at hcore
      simp only [Conf.setFree, hqp, if_false, hcore.2.1]
      have hfreeq : (C.setSlot (slotAddr k i) sl).free q = C.free q := rfl
      rw [hfreeq]
      apply (h.free q hq).congr
      intro a ha
      have hne : a ≠ slotAddr k i := by
        intro heq
        apply hqp
        apply hC.owns_unique (hC.free_sub q a hq ha).1
        rw [heq]
        exact ⟨hp, k, hk, slotAddr_mem hi⟩
      simp only [State.nextFree, hblock a hne]
  . intro q hq
    by_cases hqp : q = p
    . subst hqp
      simp only [Conf.setFree, if_true]
      exact hnb
    . have hcore := hpd q hqp
      simp only [PDTable.core, Prod.mk.injEq] at hcore
      simp only [Conf.setFree, hqp, if_false, hcore.2.2.1]
      exact h.nbfreeslots q hq
  . intro q hq
    rw [(hpd' q).2.2]
    exact h.nbprepare q hq
  . intro q k' i' hq hk' hi'
    by_cases heq : k' = k ∧ i' = i
    . rw [heq.1, heq.2]
      exact hidx
    . rw [hblock _ (hC.addr_ne hp hq hk hk' hi hi' heq).1]
      exact h.blockindex q k' i' hq hk' hi'
  . intro q k' i' hq hk' hi'
    rw [Conf.setFree_slot]
    by_cases heq : k' = k ∧ i' = i
    . rw [heq.1, heq.2, Conf.setSlot_slot_self]
      exact hview
    . rcases hC.addr_ne hp hq hk hk' hi hi' heq with ⟨h₁, h₂, h₃⟩
      rw [Conf.setSlot_slot_of_ne C sl h₁, ← h.slot q k' i' hq hk' hi']
      simp only [State.slotView, hblock _ h₁, hsh1 _ h₂, hsc _ h₃]

/--
A change of the block entry of a present slot.
-/
theorem setBlock (h : Sim s C) (hC : C.Apart) {p a : Nat} (ha : C.Has p a)
    (f : BlockEntry → BlockEntry) {g : Slot → Slot} (hidx : ∀ e, (f e).blockindex = e.blockindex)
    (hg : ∀ e sh1 sc, e.present = true → mkSlot (f e) sh1 sc = g (mkSlot e sh1 sc))
    : Sim (modifyBlockEntry a f s).2 (C.setSlot a (g (C.slot a))) := by
  rcases h.view ha.1 with ⟨k, i, hk, hi, rfl, hindex, hview⟩
  have hp := ha.live
  rw [modifyBlockEntry_run]
  have hfree : (C.setSlot (slotAddr k i) (g (C.slot (slotAddr k i)))).free p = C.free p := rfl
  rw [← Conf.setFree_self (C.setSlot (slotAddr k i) (g (C.slot (slotAddr k i)))) p, hfree]
  apply h.update hC hp hk hi <;> try rfl
  . intro q _
    rfl
  . intro x hx
    exact Mem.get_set_of_ne _ _ (Ne.symm hx)
  . intro x _
    rfl
  . intro x _
    rfl
  . simp only [Mem.get_set_self, hidx]
    exact hindex
  . rw [← hview]
    simp only [State.slotView, Mem.get_set_self]
    apply hg
    rw [h.present_eq ha.1]
    exact ha.2
  . apply (h.free p hp).congr
    intro b hb
    have hne : slotAddr k i ≠ b := by
      intro heq
      exact hC.notMem_free hp ha (heq ▸ hb)
    simp only [State.nextFree, Mem.get_set_of_ne _ _ hne]
  . exact h.nbfreeslots p hp

theorem setSh1 (h : Sim s C) (hC : C.Apart) {p a : Nat} (ha : C.Owns p a)
    (f : Sh1Entry → Sh1Entry) {g : Slot → Slot}
    (hg : ∀ e sh1 sc, mkSlot e (f sh1) sc = g (mkSlot e sh1 sc))
    : Sim (modifySh1Entry a f s).2 (C.setSlot a (g (C.slot a))) := by
  rcases h.view ha with ⟨k, i, hk, hi, rfl, hindex, hview⟩
  have hp := ha.1
  rw [modifySh1Entry_run hindex]
  have hfree : (C.setSlot (slotAddr k i) (g (C.slot (slotAddr k i)))).free p = C.free p := rfl
  rw [← Conf.setFree_self (C.setSlot (slotAddr k i) (g (C.slot (slotAddr k i)))) p, hfree]
  apply h.update hC hp hk hi <;> try rfl
  . intro q _
    rfl
  . intro x _
    rfl
  . intro x hx
    exact Mem.get_set_of_ne _ _ (Ne.symm hx)
  . intro x _
    rfl
  . exact hindex
  . rw [← hview]
    simp only [State.slotView, Mem.get_set_self]
    apply hg
  . exact h.free p hp
  . exact h.nbfreeslots p hp

theorem setSC (h : Sim s C) (hC : C.Apart) {p a : Nat} (ha : C.Owns p a)
    (f : SCEntry → SCEntry) {g : Slot → Slot}
    (hg : ∀ e sh1 sc, mkSlot e sh1 (f sc) = g (mkSlot e sh1 sc))
    : Sim (modifySCEntry a f s).2 (C.setSlot a (g (C.slot a))) := by
  rcases h.view ha with ⟨k, i, hk, hi, rfl, hindex, hview⟩
  have hp := ha.1
  rw [modifySCEntry_run hindex]
  have hfree : (C.setSlot (slotAddr k i) (g (C.slot (slotAddr k i)))).free p = C.free p := rfl
  rw [← Conf.setFree_self (C.setSlot (slotAddr k i) (g (C.slot (slotAddr k i)))) p, hfree]
  apply h.update hC hp hk hi <;> try rfl
  . intro q _
    rfl
  . intro x _
    rfl
  . intro x _
    rfl
  . intro x hx
    exact Mem.get_set_of_ne _ _ (Ne.symm hx)
  . exact hindex
  . rw [← hview]
    simp only [State.slotView, Mem.get_set_self]
    apply hg
  . exact h.free p hp
  . exact h.nbfreeslots p hp

/--
A change of a descriptor that keeps the fields the abstract view is about.
-/
theorem setPD (h : Sim s C) (p : Nat) (f : PDTable → PDTable) (hf : ∀ pdt, (f pdt).core = pdt.core)
    : Sim (modifyPDTable p f s).2 C := by
  have hcore : ∀ q, ((modifyPDTable p f s).2.pdtables.get q).core = (s.pdtables.get q).core := by
    intro q
    simp only [modifyPDTable_run, Mem.get_set]
    by_cases hq : p = q
    . rw [if_pos hq, hf, hq]
    . rw [if_neg hq]
  simp only [PDTable.core, Prod.mk.injEq] at hcore
  constructor
  . exact h.cur
  . exact h.root
  . intro q hq hne
    rw [(hcore q).2.2.2.2]
    exact h.parent q hq hne
  . intro q hq
    rw [(hcore q).1]
    exact h.structures q hq
  . intro q hq
    rw [(hcore q).2.1]
    exact h.free q hq
  . intro q hq
    rw [(hcore q).2.2.1]
    exact h.nbfreeslots q hq
  . intro q hq
    rw [(hcore q).2.2.2.1]
    exact h.nbprepare q hq
  . exact h.blockindex
  . exact h.slot

/-
The writes of the services
-/

variable {p a : Nat}

theorem run_writeAccessible (h : Sim s C) (hC : C.Apart) (ha : C.Has p a) (v : Bool)
    : Sim (writeBlockAccessibleFromBlockEntryAddr a v s).2
        (C.setSlot a { C.slot a with accessible := v }) :=
  h.setBlock hC ha (fun entry => { entry with accessible := v }) (fun _ => rfl)
    (g := fun sl => { sl with accessible := v }) fun _ _ _ _ => rfl

theorem run_writeEnd (h : Sim s C) (hC : C.Apart) (ha : C.Has p a) (v : Nat)
    : Sim (writeBlockEndFromBlockEntryAddr a v s).2 (C.setSlot a { C.slot a with endAddr := v }) := by
  refine h.setBlock hC ha (fun entry => { entry with endAddr := v }) (fun _ => rfl)
    (g := fun sl => { sl with endAddr := v }) ?_
  intro e sh1 sc he
  simp only [mkSlot, he, if_true]

theorem run_writePDChild (h : Sim s C) (hC : C.Apart) (ha : C.Owns p a) (v : Nat)
    : Sim (writeSh1PDChildFromBlockEntryAddr a v s).2 (C.setSlot a { C.slot a with PDchild := v }) :=
  h.setSh1 hC ha (fun entry => { entry with PDchild := v }) (g := fun sl => { sl with PDchild := v })
    fun _ _ _ => rfl

theorem run_writePDFlag (h : Sim s C) (hC : C.Apart) (ha : C.Owns p a) (v : Bool)
    : Sim (writeSh1PDFlagFromBlockEntryAddr a v s).2 (C.setSlot a { C.slot a with PDflag := v }) :=
  h.setSh1 hC ha (fun entry => { entry with PDflag := v }) (g := fun sl => { sl with PDflag := v })
    fun _ _ _ => rfl

theorem run_writeInChildLocation (h : Sim s C) (hC : C.Apart) (ha : C.Owns p a) (v : Nat)
    : Sim (writeSh1InChildLocationFromBlockEntryAddr a v s).2
        (C.setSlot a { C.slot a with inChildLocation := v }) :=
  h.setSh1 hC ha (fun entry => { entry with inChildLocation := v })
    (g := fun sl => { sl with inChildLocation := v }) fun _ _ _ => rfl

theorem run_writeNext (h : Sim s C) (hC : C.Apart) (ha : C.Owns p a) (v : Nat)
    : Sim (writeSCNextFromBlockEntryAddr a v s).2 (C.setSlot a { C.slot a with next := v }) :=
  h.setSC hC ha (fun entry => { entry with next := v }) (g := fun sl => { sl with next := v })
    fun _ _ _ => rfl

theorem run_clearSh1 (h : Sim s C) (hC : C.Apart) (ha : C.Owns p a)
    : Sim (writeSh1EntryFromBlockEntryAddr a nullAddr false nullAddr s).2
        (C.setSlot a (C.slot a).clearSh1) := by
  rcases h.view ha with ⟨k, i, -, -, rfl, hindex, -⟩
  have hset := h.setSh1 hC ha (fun _ => default) (g := Slot.clearSh1) fun _ _ _ => rfl
  rw [modifySh1Entry_run hindex] at hset
  rw [writeSh1EntryFromBlockEntryAddr_run hindex]
  exact hset

theorem unmapBlock_core (b : Nat) (l : List Nat) (pdt : PDTable)
    : (l.foldl (PDTable.unmapBlock b) pdt).core = pdt.core := by
  induction l generalizing pdt with
  | nil => rfl
  | cons i rest ih =>
    rw [List.foldl_cons, ih]
    unfold PDTable.unmapBlock
    split <;> rfl

theorem run_removeFromMPU (h : Sim s C) (q b : Nat)
    : Sim (removeBlockFromPhysicalMPU q b s).2 C :=
  h.setPD q _ fun pdt => unmapBlock_core b _ pdt

theorem freeSlot_run (s : State) {k i : Nat}
    (hidx : (s.blockEntries.get (slotAddr k i)).blockindex = i)
    : ∃ pdt : PDTable, pdt.core = ((s.pdtables.get p).structurePtr, slotAddr k i,
          add32 (s.pdtables.get p).nbfreeslots 1, (s.pdtables.get p).nbprepare,
          (s.pdtables.get p).parent)
        ∧ freeSlot p (slotAddr k i) s
          =
        (slotAddr k i, { s with
          pdtables := s.pdtables.set p pdt
          blockEntries := s.blockEntries.set (slotAddr k i)
            {
                (default : BlockEntry) with
                blockindex := i
                endAddr := (s.pdtables.get p).firstfreeslot
            }
          sh1Entries := s.sh1Entries.set (sh1Addr k i) default
          scEntries := s.scEntries.set (scAddr k i) default }) := by
  have hcore := unmapBlock_core (slotAddr k i) (List.range mpuRegionsNb) (s.pdtables.get p)
  unfold freeSlot removeBlockFromPhysicalMPU
  simp only [LLI.bind_run, modifyPDTable_run, readBlockIndexFromBlockEntryAddr, readBlockField,
    LLI.gets_run, hidx, writeBlockEntryFromBlockEntryAddr_run]
  rw [writeSh1EntryFromBlockEntryAddr_run (by simp), writeSCEntryFromBlockEntryAddr_run (by simp)]
  generalize (List.range mpuRegionsNb).foldl (PDTable.unmapBlock (slotAddr k i)) (s.pdtables.get p) =
    pdt at *
  simp only [PDTable.core, Prod.mk.injEq] at hcore
  simp only [writeBlockEndFromBlockEntryAddr, modifyBlockEntry_run, readPDFirstFreeSlotPointer,
    readPDField, LLI.gets_run, Mem.get_set_self, Mem.set_set, writePDFirstFreeSlotPointer,
    readPDNbFreeSlots, writePDNbFreeSlots, modifyPDTable_run, Index.succ, LLI.pure_run]
  refine ⟨{ pdt with
    firstfreeslot := slotAddr k i
    nbfreeslots := add32 pdt.nbfreeslots 1 }, ?_, ?_⟩
  . simp only [PDTable.core, hcore]
  . rw [← hcore.2.1]
    rfl

theorem run_freeSlot (h : Sim s C) (hC : C.Apart) (ha : C.Has p a)
    : Sim (freeSlot p a s).2 ((C.setSlot a Slot.empty).setFree p (a :: C.free p)) := by
  rcases h.view ha.1 with ⟨k, i, hk, hi, rfl, hindex, hview⟩
  have hp := ha.live
  have hne := hC.owns_ne_zero ha.1
  rcases freeSlot_run (p := p) s hindex with ⟨pdt, hcore, hrun⟩
  rw [hrun]
  simp only [PDTable.core, Prod.mk.injEq] at hcore
  apply h.update hC hp hk hi <;> try rfl
  . intro q hq
    simp only [Mem.get_set_of_ne _ _ (Ne.symm hq)]
  . simp only [Mem.get_set_self, hcore]
  . simp only [Mem.get_set_self, hcore]
  . simp only [Mem.get_set_self, hcore]
  . intro x hx
    exact Mem.get_set_of_ne _ _ (Ne.symm hx)
  . intro x hx
    exact Mem.get_set_of_ne _ _ (Ne.symm hx)
  . intro x hx
    exact Mem.get_set_of_ne _ _ (Ne.symm hx)
  . simp only [Mem.get_set_self]
  . simp only [State.slotView, Mem.get_set_self]
    rfl
  . simp only [Mem.get_set_self, hcore]
    refine ⟨rfl, hne, ?_⟩
    have hfirst : State.nextFree { s with
          pdtables := s.pdtables.set p pdt
          blockEntries := s.blockEntries.set (slotAddr k i)
            {
                (default : BlockEntry) with
                blockindex := i
                endAddr := (s.pdtables.get p).firstfreeslot
            }
          sh1Entries := s.sh1Entries.set (sh1Addr k i) default
          scEntries := s.scEntries.set (scAddr k i) default } (slotAddr k i) =
        (s.pdtables.get p).firstfreeslot := by
      simp only [State.nextFree, Mem.get_set_self]
    rw [hfirst]
    apply (h.free p hp).congr
    intro b hb
    have hne' : slotAddr k i ≠ b := by
      intro heq
      exact hC.notMem_free hp ha (heq ▸ hb)
    simp only [State.nextFree, Mem.get_set_of_ne _ _ hne']
  . have hlen := hC.free_length_le hp
    simp only [Mem.get_set_self, hcore, h.nbfreeslots p hp, List.length_cons]
    apply add32_eq
    rw [wordSize_eq]
    omega

theorem run_insertNewEntry (h : Sim s C) (hC : C.Apart) (hp : C.Live p) {f : Nat} {rest : List Nat}
    (hfree : C.free p = f :: rest) (startAddr endAddr origin : Nat) (r w e : Bool)
    : (insertNewEntry p startAddr endAddr origin r w e (C.free p).length s).1 = f
        ∧ Sim (insertNewEntry p startAddr endAddr origin r w e (C.free p).length s).2
          ((C.setSlot f ((C.slot f).filled startAddr endAddr origin r w e)).setFree p rest) := by
  have hf := hC.free_sub p f hp (by rw [hfree]; simp)
  have hlinked := h.free p hp
  have hnodup := hC.free_nodup p hp
  rw [hfree] at hlinked hnodup
  rcases hlinked with ⟨hfirst, hne, hrest⟩
  rcases h.view hf.1 with ⟨k, i, hk, hi, hfk, hindex, hview⟩
  subst hfk
  unfold insertNewEntry
  simp only [LLI.bind_run, readPDFirstFreeSlotPointer, readPDField, LLI.gets_run, hfirst,
    readBlockEndFromBlockEntryAddr, readBlockField, Index.pred, LLI.pure_run,
    writePDFirstFreeSlotPointer, writePDNbFreeSlots, modifyPDTable_run, Mem.get_set_self, Mem.set_set,
    writeBlockStartFromBlockEntryAddr, writeBlockEndFromBlockEntryAddr,
    writeBlockPresentFromBlockEntryAddr, writeBlockAccessibleFromBlockEntryAddr,
    writeBlockRFromBlockEntryAddr, writeBlockWFromBlockEntryAddr, writeBlockXFromBlockEntryAddr,
    modifyBlockEntry_run, writeSCOriginFromBlockEntryAddr]
  rw [modifySCEntry_run (by simp only [Mem.get_set_self]; exact hindex)]
  refine ⟨trivial, ?_⟩
  apply h.update hC hp hk hi <;> try rfl
  . intro q hq
    simp only [Mem.get_set_of_ne _ _ (Ne.symm hq)]
  . simp only [Mem.get_set_self]
  . simp only [Mem.get_set_self]
  . simp only [Mem.get_set_self]
  . intro x hx
    exact Mem.get_set_of_ne _ _ (Ne.symm hx)
  . intro x hx
    rfl
  . intro x hx
    exact Mem.get_set_of_ne _ _ (Ne.symm hx)
  . simp only [Mem.get_set_self]
    exact hindex
  . rw [← hview]
    simp only [State.slotView, Mem.get_set_self, mkSlot, Slot.filled, if_true]
  . simp only [Mem.get_set_self]
    have hrest' : Linked s.nextFree (s.blockEntries.get (slotAddr k i)).endAddr rest := hrest
    apply hrest'.congr
    intro b hb
    have hne' : slotAddr k i ≠ b := by
      intro heq
      exact (List.nodup_cons.mp hnodup).1 (heq ▸ hb)
    simp only [State.nextFree, Mem.get_set_of_ne _ _ hne']
  . have hlen := hC.free_length_le hp
    rw [hfree] at hlen ⊢
    simp only [Mem.get_set_self, List.length_cons] at hlen ⊢
    rw [sub32_eq (by omega) (by rw [wordSize_eq]; omega)]
    omega

end Sim
