import PipMpu.Core.Internal
import PipMpu.Model.Machine
import PipMpu.Util.Keeps

/-!
This module contains the rules of `Keeps` for the two monads, and the functions of `Internal.v` that only
read the state.
-/

namespace LLI

variable {α β : Type} {R : State → State → Prop}

theorem keeps_pure [Std.Refl R] (value : α) : Keeps R (pure value : LLI α) :=
  Keeps.of_eq fun _ => rfl

theorem keeps_bind [IsTrans State R] {op : LLI α} {f : α → LLI β} (h : Keeps R op)
    (hf : ∀ a, Keeps R (f a)) : Keeps R (op >>= f) :=
  Keeps.seq h hf

end LLI

namespace Handler

variable {α β : Type} {R : Machine → Machine → Prop}

theorem keeps_pure [Std.Refl R] (value : α) : Keeps R (pure value : Handler α) :=
  Keeps.of_eq fun _ => rfl

theorem keeps_get [Std.Refl R] : Keeps R Handler.get :=
  Keeps.of_eq fun _ => rfl

theorem keeps_bind [IsTrans Machine R] {op : Handler α} {f : α → Handler β} (h : Keeps R op)
    (hf : ∀ a, Keeps R (f a)) : Keeps R (op >>= f) :=
  Keeps.seq h hf

end Handler

@[simp]
theorem compareAddrToNull_state (p : Paddr) (s : State) : (compareAddrToNull p s).2 = s := by
  rfl

@[simp]
theorem findBlockComp_state (entryaddr referenceaddr : Paddr) (comparator : Index) (s : State)
    : (findBlockComp entryaddr referenceaddr comparator s).2 = s := by
  unfold findBlockComp
  simp only [LLI.bind_run, LLI.ite_run]
  split
  . split <;> rfl
  . split <;> rfl

@[simp]
theorem findExactBlockComp_state (entryaddr startaddr endaddr : Paddr) (s : State)
    : (findExactBlockComp entryaddr startaddr endaddr s).2 = s := by
  unfold findExactBlockComp
  simp only [LLI.bind_run, LLI.ite_run]
  split
  . split <;> rfl
  . rfl

theorem findEntryInStructAux_state {comp : Paddr → LLI Bool} (hcomp : ∀ a s, (comp a s).2 = s)
    (timeout : Nat) (currentidx : Index) (currentkernelstructure : Paddr) (s : State)
    : (findEntryInStructAux comp timeout currentidx currentkernelstructure s).2 = s := by
  induction timeout generalizing currentidx s with
  | zero => rfl
  | succ timeout ih =>
    unfold findEntryInStructAux
    simp only [LLI.bind_run, LLI.ite_run]
    split
    . exact hcomp _ _
    . split
      . exact (ih _ _).trans (hcomp _ _)
      . exact hcomp _ _

theorem findEntryInKSAux_state {comp : Paddr → LLI Bool} (hcomp : ∀ a s, (comp a s).2 = s)
    (timeout : Nat) (currentkernelstructure : Paddr) (s : State)
    : (findEntryInKSAux comp timeout currentkernelstructure s).2 = s := by
  induction timeout generalizing currentkernelstructure s with
  | zero => rfl
  | succ timeout ih =>
    have hstruct := findEntryInStructAux_state hcomp fuelN 0 currentkernelstructure s
    unfold findEntryInKSAux
    simp only [LLI.bind_run, LLI.ite_run]
    split
    . exact hstruct
    . split
      . exact hstruct
      . exact (ih _ _).trans hstruct

@[simp]
theorem findBlockInKS_state (idPD idBlock : Paddr) (s : State)
    : (findBlockInKS idPD idBlock s).2 = s := by
  unfold findBlockInKS
  simp only [LLI.bind_run, LLI.ite_run]
  split
  . rfl
  . exact findEntryInKSAux_state (fun _ _ => findBlockComp_state _ _ _ _) _ _ _

@[simp]
theorem findExactBlockInKS_state (idPD idBlock endBlock : Paddr) (s : State)
    : (findExactBlockInKS idPD idBlock endBlock s).2 = s := by
  unfold findExactBlockInKS
  simp only [LLI.bind_run, LLI.ite_run]
  split
  . rfl
  . exact findEntryInKSAux_state (fun _ _ => findExactBlockComp_state _ _ _ _) _ _ _

@[simp]
theorem findBelongingBlock_state (idPD referenceaddr : Paddr) (s : State)
    : (findBelongingBlock idPD referenceaddr s).2 = s := by
  unfold findBelongingBlock
  simp only [LLI.bind_run, LLI.ite_run]
  split
  . rfl
  . exact findEntryInKSAux_state (fun _ _ => findBlockComp_state _ _ _ _) _ _ _

theorem findBlockInKSWithAddrAux_state (timeout : Nat) (currentkernelstructure blockEntryAddr : Paddr)
    (s : State) : (findBlockInKSWithAddrAux timeout currentkernelstructure blockEntryAddr s).2 = s := by
  induction timeout generalizing currentkernelstructure with
  | zero => rfl
  | succ timeout ih =>
    unfold findBlockInKSWithAddrAux
    simp only [LLI.bind_run, LLI.ite_run]
    split
    . split
      . rfl
      . split <;> rfl
    . split
      . rfl
      . exact ih _

@[simp]
theorem findBlockInKSWithAddr_state (idPD blockEntryAddr : Paddr) (s : State)
    : (findBlockInKSWithAddr idPD blockEntryAddr s).2 = s := by
  unfold findBlockInKSWithAddr
  simp only [LLI.bind_run, LLI.ite_run]
  split
  . rfl
  . exact findBlockInKSWithAddrAux_state _ _ _ _

@[simp]
theorem checkChildOfCurrPart_state (currentPartition idPDchild : Paddr) (s : State)
    : (checkChildOfCurrPart currentPartition idPDchild s).2 = s := by
  unfold checkChildOfCurrPart
  simp only [LLI.bind_run, LLI.ite_run]
  split
  . exact findBlockInKSWithAddr_state _ _ _
  . split <;> exact findBlockInKSWithAddr_state _ _ _

theorem getGlobalIdPDCurrentOrChild_state (currentPartition idPDToCheck : Paddr) (s : State)
    : (getGlobalIdPDCurrentOrChild currentPartition idPDToCheck s).2 = s := by
  have hchild := checkChildOfCurrPart_state currentPartition idPDToCheck s
  unfold getGlobalIdPDCurrentOrChild
  simp only [LLI.bind_run, LLI.ite_run]
  split
  . rfl
  . split
    . exact hchild
    . exact hchild

theorem checkMPUEntryZero_run (addr size : Nat) (s : State)
    : checkMPUEntryZero addr size s = ((checkMPUEntryZero addr size s).1, s) := by
  unfold checkMPUEntryZero
  split <;> rfl

/-
The searches look at the block entries and at the links between the structures only.
-/

structure SameBlocks (s s' : State) : Prop where
  blockEntries_eq : s'.blockEntries = s.blockEntries
  nextPointers_eq : s'.nextPointers = s.nextPointers

theorem SameBlocks.findBlockComp_eq {s s' : State} (h : SameBlocks s s')
    (entryaddr referenceaddr : Paddr) (comparator : Index)
    : (findBlockComp entryaddr referenceaddr comparator s').1
        =
      (findBlockComp entryaddr referenceaddr comparator s).1 := by
  unfold findBlockComp readBlockStartFromBlockEntryAddr readBlockEndFromBlockEntryAddr readBlockField
  simp only [LLI.bind_run, LLI.ite_run, LLI.gets_run, LLI.pure_run, h.blockEntries_eq, Index.zero,
    Paddr.leb, Paddr.ltb]
  split
  . split <;> rfl
  . split <;> rfl

theorem SameBlocks.findEntryInStructAux_eq {s s' : State} (h : SameBlocks s s')
    {comp : Paddr → LLI Bool} (hcomp : ∀ a s, (comp a s).2 = s)
    (heq : ∀ a, (comp a s').1 = (comp a s).1) (timeout : Nat) (currentidx : Index)
    (currentkernelstructure : Paddr)
    : (findEntryInStructAux comp timeout currentidx currentkernelstructure s').1
        =
      (findEntryInStructAux comp timeout currentidx currentkernelstructure s).1 := by
  induction timeout generalizing currentidx with
  | zero => rfl
  | succ timeout ih =>
    unfold findEntryInStructAux readBlockPresentFromBlockEntryAddr readBlockField
    simp only [LLI.bind_run, LLI.ite_run, LLI.gets_run, h.blockEntries_eq, heq,
      getBlockEntryAddrFromKernelStructureStart, LLI.pure_run, hcomp, Index.succ, Index.ltb,
      getKernelStructureEntriesNb]
    split
    . rfl
    . split
      . exact ih _
      . rfl

theorem SameBlocks.findBelongingBlock_eq {s s' : State} (h : SameBlocks s s') {idPD : Paddr}
    (hpd : (s'.pdtables.get idPD).structurePtr = (s.pdtables.get idPD).structurePtr)
    (referenceaddr : Paddr)
    : (findBelongingBlock idPD referenceaddr s').1 = (findBelongingBlock idPD referenceaddr s).1 := by
  have hcomp : ∀ a s, (findBlockComp a referenceaddr (add32 0 1) s).2 = s :=
    fun a s => findBlockComp_state _ _ _ s
  have heq := fun a => h.findBlockComp_eq a referenceaddr (add32 0 1)
  have haux : ∀ timeout k, (findEntryInKSAux (fun a => findBlockComp a referenceaddr (add32 0 1)) timeout
      k s').1 = (findEntryInKSAux (fun a => findBlockComp a referenceaddr (add32 0 1)) timeout k s).1 := by
    intro timeout
    induction timeout with
    | zero => intro k; rfl
    | succ timeout ih =>
      intro k
      have hstruct := h.findEntryInStructAux_eq hcomp heq fuelN 0 k
      have hstate := findEntryInStructAux_state hcomp fuelN 0 k
      unfold findEntryInKSAux readNextFromKernelStructureStart
      simp only [LLI.bind_run, LLI.ite_run, LLI.gets_run, Index.zero, LLI.pure_run, hstruct, hstate,
        compareAddrToNull, getNullAddr, getBeqAddr, getNextAddrFromKernelStructureStart,
        h.nextPointers_eq]
      split
      . rfl
      . split
        . rfl
        . exact ih _
  unfold findBelongingBlock findBlockInKSAux readPDStructurePointer readPDField
  simp only [LLI.bind_run, LLI.ite_run, LLI.gets_run, Index.zero, Index.succ, LLI.pure_run,
    compareAddrToNull, getNullAddr, getBeqAddr, hpd]
  split
  . rfl
  . exact haux _ _

/-
What the searches find.
-/

theorem findEntryInStructAux_found {comp : Paddr → LLI Bool} (hcomp : ∀ a s, (comp a s).2 = s)
    (timeout : Nat) (currentidx : Index) (currentkernelstructure : Paddr) (s : State)
    (h : (findEntryInStructAux comp timeout currentidx currentkernelstructure s).1 ≠ nullAddr)
    : (s.blockEntries.get (findEntryInStructAux comp timeout currentidx currentkernelstructure s).1).present
          = true
        ∧ (comp (findEntryInStructAux comp timeout currentidx currentkernelstructure s).1 s).1 = true := by
  induction timeout generalizing currentidx with
  | zero => exact absurd rfl h
  | succ timeout ih =>
    unfold findEntryInStructAux readBlockPresentFromBlockEntryAddr readBlockField at h ⊢
    simp only [LLI.bind_run, LLI.ite_run, LLI.gets_run, getBlockEntryAddrFromKernelStructureStart,
      LLI.pure_run, hcomp, Index.succ, Index.ltb, getKernelStructureEntriesNb] at h ⊢
    split at h
    . next hfound =>
      rw [if_pos hfound]
      exact Bool.and_eq_true_iff.mp hfound
    . next hfound =>
      rw [if_neg hfound]
      split at h
      . next hlast =>
        rw [if_pos hlast]
        exact ih _ h
      . exact absurd rfl h

theorem findEntryInKSAux_found {comp : Paddr → LLI Bool} (hcomp : ∀ a s, (comp a s).2 = s)
    (timeout : Nat) (currentkernelstructure : Paddr) (s : State)
    (h : (findEntryInKSAux comp timeout currentkernelstructure s).1 ≠ nullAddr)
    : (s.blockEntries.get (findEntryInKSAux comp timeout currentkernelstructure s).1).present = true
        ∧ (comp (findEntryInKSAux comp timeout currentkernelstructure s).1 s).1 = true := by
  induction timeout generalizing currentkernelstructure with
  | zero => exact absurd rfl h
  | succ timeout ih =>
    have hstate := findEntryInStructAux_state hcomp fuelN 0 currentkernelstructure s
    have hfound := findEntryInStructAux_found hcomp fuelN 0 currentkernelstructure s
    unfold findEntryInKSAux readNextFromKernelStructureStart at h ⊢
    simp only [LLI.bind_run, LLI.ite_run, LLI.gets_run, Index.zero, LLI.pure_run, hstate,
      compareAddrToNull, getNullAddr, getBeqAddr, getNextAddrFromKernelStructureStart] at h ⊢
    split at h
    . next hne =>
      rw [if_pos hne]
      apply hfound
      exact h
    . next hne =>
      rw [if_neg hne]
      split at h
      . exact absurd rfl h
      . next hnext =>
        rw [if_neg hnext]
        exact ih _ h

/--
The block that is found contains the address.
-/
theorem findBelongingBlock_found {idPD referenceaddr : Paddr} {s : State}
    (h : (findBelongingBlock idPD referenceaddr s).1 ≠ nullAddr)
    : (s.blockEntries.get (findBelongingBlock idPD referenceaddr s).1).present = true
        ∧ (s.blockEntries.get (findBelongingBlock idPD referenceaddr s).1).startAddr ≤ referenceaddr
        ∧ referenceaddr < (s.blockEntries.get (findBelongingBlock idPD referenceaddr s).1).endAddr := by
  have hcomp : ∀ a s, (findBlockComp a referenceaddr (add32 0 1) s).2 = s :=
    fun a s => findBlockComp_state _ _ _ s
  unfold findBelongingBlock findBlockInKSAux readPDStructurePointer readPDField at h ⊢
  simp only [LLI.bind_run, LLI.ite_run, LLI.gets_run, Index.zero, Index.succ, LLI.pure_run,
    compareAddrToNull, getNullAddr, getBeqAddr] at h ⊢
  split at h
  . exact absurd rfl h
  . next hnull =>
    rw [if_neg hnull]
    have hfound := findEntryInKSAux_found hcomp _ _ s h
    generalize (findEntryInKSAux (fun entryaddr => findBlockComp entryaddr referenceaddr (add32 0 1))
      maxNbPrepare (s.pdtables.get idPD).structurePtr s).1 = b at hfound
    refine ⟨hfound.1, ?_⟩
    have hcontains := hfound.2
    unfold findBlockComp readBlockStartFromBlockEntryAddr readBlockEndFromBlockEntryAddr readBlockField
      at hcontains
    simp only [LLI.bind_run, LLI.ite_run, LLI.gets_run, LLI.pure_run, Index.zero, Paddr.leb, Paddr.ltb]
      at hcontains
    rw [if_neg (by decide)] at hcontains
    split at hcontains
    . next hbounds =>
      have hbounds := Bool.and_eq_true_iff.mp hbounds
      exact ⟨of_decide_eq_true hbounds.1, of_decide_eq_true hbounds.2⟩
    . cases hcontains

/--
The search by address finds the present block at the address or nothing.
-/
theorem findBlockInKSWithAddr_cases (pd addr : Paddr) (s : State)
    : findBlockInKSWithAddr pd addr s = (nullAddr, s)
        ∨ (findBlockInKSWithAddr pd addr s = (addr, s) ∧ (s.blockEntries.get addr).present = true) := by
  have haux : ∀ timeout k, findBlockInKSWithAddrAux timeout k addr s = (nullAddr, s)
      ∨ (findBlockInKSWithAddrAux timeout k addr s = (addr, s)
        ∧ (s.blockEntries.get addr).present = true) := by
    intro timeout
    induction timeout with
    | zero => exact fun k => .inl rfl
    | succ timeout ih =>
      intro k
      unfold findBlockInKSWithAddrAux checkEntry readBlockPresentFromBlockEntryAddr readBlockField
      simp only [LLI.bind_run, LLI.ite_run, LLI.gets_run, LLI.pure_run]
      split
      . split
        . exact .inl rfl
        . split
          . next hpresent => exact .inr ⟨rfl, hpresent⟩
          . exact .inl rfl
      . split
        . exact .inl rfl
        . exact ih _
  unfold findBlockInKSWithAddr
  simp only [LLI.bind_run, LLI.ite_run]
  split
  . exact .inl rfl
  . exact haux _ _
