import PipMpu.Core.Effects
import PipMpu.Core.Services

/-!
This module contains which writes the services are made of: a relation that these writes establish between the
state before and after them is established by each service.
-/

/--
The fields of a partition descriptor that the services on blocks do not write.
-/
def PDTable.SameOwner (pdt pdt' : PDTable) : Prop :=
  pdt'.parent = pdt.parent ∧ pdt'.vidtAddr = pdt.vidtAddr ∧ pdt'.interruptState = pdt.interruptState

/--
The writes that change neither the memory of the partitions nor where structures and descriptors are.
-/
structure Writes (R : State → State → Prop) : Prop where
  block : ∀ entry f, Keeps R (modifyBlockEntry entry f)
  sh1 : ∀ entry f, Keeps R (modifySh1Entry entry f)
  sc : ∀ entry f, Keeps R (modifySCEntry entry f)
  table : ∀ pd f, (∀ pdt : PDTable, pdt.SameOwner (f pdt)) → Keeps R (modifyPDTable pd f)
  load : ∀ LUT, Keeps R (mpuConfigureFromLUT LUT)

/--
The writes with which structures are made and removed.
-/
structure StructureWrites (R : State → State → Prop) : Prop extends Writes R where
  next : ∀ k value, Keeps R (writeNextFromKernelStructureStart k value)
  erase : ∀ lo hi, Keeps R (eraseBlock lo hi)

structure AllWrites (R : State → State → Prop) : Prop extends StructureWrites R where
  init : ∀ pd, Keeps R (initPDTable pd)
  parent : ∀ pd value, Keeps R (writePDParent pd value)
  vidt : ∀ pd value, Keeps R (writePDVidt pd value)

/--
What `prepare` does with the block once the structure `newKStructurePointer` in it is initialised.
-/
def linkBlock (kernelentriesnb : Index) (currentPart globalIdPD requisitionedBlock newKStructurePointer : Paddr)
    : LLI Bool := do
  writeBlockAccessibleFromBlockEntryAddr requisitionedBlock false
  removeBlockFromPhysicalMPU currentPart requisitionedBlock
  let _ ← writeAccessibleToAncestorsIfNotCutRec currentPart requisitionedBlock false
  let oldKStructurePointer ← readPDStructurePointer globalIdPD
  writeNextFromKernelStructureStart newKStructurePointer oldKStructurePointer
  writePDStructurePointer globalIdPD newKStructurePointer
  let lastidx ← Index.pred kernelentriesnb
  let lastBlockEntryAddr ← getBlockEntryAddrFromKernelStructureStart newKStructurePointer lastidx
  let currFirstFreeSlot ← readPDFirstFreeSlotPointer globalIdPD
  writeBlockEndFromBlockEntryAddr lastBlockEntryAddr currFirstFreeSlot
  writePDFirstFreeSlotPointer globalIdPD newKStructurePointer
  let currentNbFreeSlots ← readPDNbFreeSlots globalIdPD
  let newNbFreeSlots ← Index.addIdx currentNbFreeSlots kernelentriesnb
  writePDNbFreeSlots globalIdPD newNbFreeSlots
  let currentNbPrepare ← readPDNbPrepare globalIdPD
  let succCurrentNbPrepare ← Index.succ currentNbPrepare
  writePDNbPrepare globalIdPD succCurrentNbPrepare
  let isCurrentPart ← getBeqAddr globalIdPD currentPart
  if !isCurrentPart then do
    writeSh1PDChildFromBlockEntryAddr requisitionedBlock globalIdPD
    pure true
  else
    pure true

/--
A check after which the function gives up or goes on.
-/
theorem LLI.keeps_guard {α : Type} {R : State → State → Prop} [Std.Refl R] {c : Prop} [Decidable c] {value : α}
    {op : LLI α} (hop : Keeps R op) : Keeps R (if c then (pure value : LLI α) else op) :=
  Keeps.ite (fun _ => LLI.keeps_pure value) fun _ => hop

/-
Functions that only read
-/

theorem checkRights_state (entry : Paddr) (r w x : Bool) (s : State) : (checkRights entry r w x s).2 = s := by
  unfold checkRights compatibleRight
  simp only [LLI.bind_run, LLI.ite_run, LLI.pure_run]
  repeat' split
  all_goals rfl

theorem checkRemoveSubblocksRecAux_state (timeout : Nat) (subblockAddr : Paddr) (s : State)
    : (checkRemoveSubblocksRecAux timeout subblockAddr s).2 = s := by
  induction timeout generalizing subblockAddr with
  | zero => rfl
  | succ timeout ih =>
    unfold checkRemoveSubblocksRecAux
    simp only [LLI.bind_run, LLI.ite_run]
    split
    . rfl
    . split
      . rfl
      . exact ih _

theorem checkBlockCut_state (entry : Paddr) (s : State) : (checkBlockCut entry s).2 = s := by
  unfold checkBlockCut
  simp only [LLI.bind_run, LLI.ite_run]
  split <;> rfl

theorem checkStructureEmptyRecAux_state (timeout : Nat) (structureAddr : Paddr) (currIndex : Index) (s : State)
    : (checkStructureEmptyRecAux timeout structureAddr currIndex s).2 = s := by
  induction timeout generalizing currIndex with
  | zero => rfl
  | succ timeout ih =>
    unfold checkStructureEmptyRecAux
    simp only [LLI.bind_run, LLI.ite_run]
    split
    . rfl
    . split
      . rfl
      . exact ih _

namespace Writes

variable {R : State → State → Prop}

theorem unmap (h : Writes R) (pd entry : Nat) : Keeps R (removeBlockFromPhysicalMPU pd entry) := by
  apply h.table
  intro pdt
  induction List.range mpuRegionsNb generalizing pdt with
  | nil => exact ⟨rfl, rfl, rfl⟩
  | cons i rest ih =>
    have hrest := ih (pdt.unmapBlock entry i)
    have hfirst : pdt.SameOwner (pdt.unmapBlock entry i) := by
      unfold PDTable.unmapBlock
      split <;> exact ⟨rfl, rfl, rfl⟩
    exact ⟨hrest.1.trans hfirst.1, hrest.2.1.trans hfirst.2.1, hrest.2.2.trans hfirst.2.2⟩

variable [IsTrans State R]

theorem writeBlockEntry_keeps (h : Writes R) (entry : Nat) (index startAddr endAddr : Nat)
    (accessible present read write exec : Bool)
    : Keeps R (writeBlockEntryFromBlockEntryAddr entry index startAddr endAddr accessible present read write exec) := by
  unfold writeBlockEntryFromBlockEntryAddr
  iterate 7 refine LLI.keeps_bind (h.block _ _) fun _ => ?_
  exact h.block _ _

theorem writeSh1Entry_keeps (h : Writes R) (entry pdChild : Nat) (pdFlag : Bool) (inChildLocation : Nat)
    : Keeps R (writeSh1EntryFromBlockEntryAddr entry pdChild pdFlag inChildLocation) := by
  unfold writeSh1EntryFromBlockEntryAddr
  iterate 2 refine LLI.keeps_bind (h.sh1 _ _) fun _ => ?_
  exact h.sh1 _ _

theorem writeSCEntry_keeps (h : Writes R) (entry origin next : Nat)
    : Keeps R (writeSCEntryFromBlockEntryAddr entry origin next) :=
  LLI.keeps_bind (h.sc _ _) fun _ => h.sc _ _

variable [Std.Refl R]

theorem ancestors (h : Writes R) (pd lo hi : Nat) (accessiblebit : Bool)
    : Keeps R (writeAccessibleRec pd lo hi accessiblebit) :=
  writeAccessibleRecAux_keeps (fun _ => h.block _ _) _ _ _ _ fun _ => h.unmap

theorem ancestorsIfNotCut (h : Writes R) (pd entry : Nat) (accessiblebit : Bool)
    : Keeps R (writeAccessibleToAncestorsIfNotCutRec pd entry accessiblebit) :=
  writeAccessibleToAncestorsIfNotCutRec_keeps (fun _ => h.block _ _) h.unmap pd entry

theorem insertNewEntry_keeps (h : Writes R) (pd startaddr endaddr origin : Nat) (r w e : Bool) (n : Nat)
    : Keeps R (insertNewEntry pd startaddr endaddr origin r w e n) := by
  unfold insertNewEntry
  iterate 3 refine LLI.keeps_read (fun _ => rfl) fun _ => ?_
  iterate 2 refine LLI.keeps_bind (h.table _ _ fun _ => ⟨rfl, rfl, rfl⟩) fun _ => ?_
  iterate 7 refine LLI.keeps_bind (h.block _ _) fun _ => ?_
  refine LLI.keeps_bind (h.sc _ _) fun _ => ?_
  exact LLI.keeps_pure _

theorem freeSlot_keeps (h : Writes R) (pd entry : Nat) : Keeps R (freeSlot pd entry) := by
  refine LLI.keeps_bind (h.unmap _ _) fun _ => ?_
  refine LLI.keeps_read (fun _ => rfl) fun index => ?_
  refine LLI.keeps_bind (h.writeBlockEntry_keeps _ _ _ _ _ _ _ _ _) fun _ => ?_
  refine LLI.keeps_bind (h.writeSh1Entry_keeps _ _ _ _) fun _ => ?_
  refine LLI.keeps_bind (h.writeSCEntry_keeps _ _ _) fun _ => ?_
  refine LLI.keeps_read (fun _ => rfl) fun currFirstFreeSlot => ?_
  refine LLI.keeps_bind (h.block _ _) fun _ => ?_
  refine LLI.keeps_bind (h.table _ _ fun _ => ⟨rfl, rfl, rfl⟩) fun _ => ?_
  iterate 2 refine LLI.keeps_read (fun _ => rfl) fun _ => ?_
  refine LLI.keeps_bind (h.table _ _ fun _ => ⟨rfl, rfl, rfl⟩) fun _ => ?_
  exact LLI.keeps_pure _

theorem enableBlockInMPU_keeps (h : Writes R) (pd entry n : Nat) : Keeps R (enableBlockInMPU pd entry n) := by
  unfold enableBlockInMPU replaceBlockInPhysicalMPU
  iterate 4 refine LLI.keeps_read (fun _ => rfl) fun _ => ?_
  refine LLI.keeps_guard (LLI.keeps_bind ?_ fun _ => LLI.keeps_pure true)
  refine LLI.keeps_read (fun _ => rfl) fun s => ?_
  refine LLI.keeps_bind (h.table _ _ fun _ => ⟨rfl, rfl, rfl⟩) fun _ => ?_
  refine LLI.keeps_read (fun _ => rfl) fun cur => ?_
  apply Keeps.ite
  . intro _
    exact LLI.keeps_read (fun _ => rfl) fun _ => h.load _
  . intro _
    exact LLI.keeps_pure ()

theorem cutMemoryBlock_keeps (h : Writes R) (idBlockToCut cutAddr MPURegionNb : Nat)
    : Keeps R (cutMemoryBlock idBlockToCut cutAddr MPURegionNb) := by
  unfold cutMemoryBlock
  repeat first
    | with_reducible refine LLI.keeps_guard ?_
    | with_reducible refine LLI.keeps_read (findBlockInKSWithAddr_state _ _) fun _ => ?_
    | refine LLI.keeps_read (fun _ => rfl) fun _ => ?_
  refine LLI.keeps_bind (h.ancestorsIfNotCut _ _ _) fun _ => ?_
  iterate 5 refine LLI.keeps_read (fun _ => rfl) fun _ => ?_
  refine LLI.keeps_bind (h.insertNewEntry_keeps _ _ _ _ _ _ _ _) fun _ => ?_
  refine LLI.keeps_bind (h.block _ _) fun _ => ?_
  iterate 3 refine LLI.keeps_read (fun _ => rfl) fun _ => ?_
  refine LLI.keeps_bind (h.enableBlockInMPU_keeps _ _ _) fun _ => ?_
  refine LLI.keeps_read (fun _ => rfl) fun _ => ?_
  iterate 2 refine LLI.keeps_bind (h.sc _ _) fun _ => ?_
  refine LLI.keeps_bind (h.enableBlockInMPU_keeps _ _ _) fun _ => ?_
  exact LLI.keeps_pure _

theorem mergeMemoryBlocks_keeps (h : Writes R) (idBlockToMerge1 idBlockToMerge2 MPURegionNb : Nat)
    : Keeps R (mergeMemoryBlocks idBlockToMerge1 idBlockToMerge2 MPURegionNb) := by
  unfold mergeMemoryBlocks
  repeat first
    | with_reducible refine LLI.keeps_guard ?_
    | with_reducible refine LLI.keeps_read (findBlockInKSWithAddr_state _ _) fun _ => ?_
    | refine LLI.keeps_read (fun _ => rfl) fun _ => ?_
  refine LLI.keeps_bind (h.sc _ _) fun _ => ?_
  refine LLI.keeps_read (fun _ => rfl) fun _ => ?_
  refine LLI.keeps_bind (h.block _ _) fun _ => ?_
  refine LLI.keeps_bind (h.freeSlot_keeps _ _) fun _ => ?_
  refine LLI.keeps_bind (h.ancestorsIfNotCut _ _ _) fun _ => ?_
  iterate 2 refine LLI.keeps_bind (h.unmap _ _) fun _ => ?_
  refine LLI.keeps_bind (h.enableBlockInMPU_keeps _ _ _) fun _ => ?_
  exact LLI.keeps_pure _

theorem addMemoryBlock_keeps (h : Writes R) (idPDchild idBlockToShare : Nat) (r w e : Bool)
    : Keeps R (addMemoryBlock idPDchild idBlockToShare r w e) := by
  unfold addMemoryBlock
  repeat first
    | with_reducible refine LLI.keeps_guard ?_
    | with_reducible refine LLI.keeps_read (findBlockInKSWithAddr_state _ _) fun _ => ?_
    | with_reducible refine LLI.keeps_read (checkRights_state _ _ _ _) fun _ => ?_
    | with_reducible refine LLI.keeps_read (checkChildOfCurrPart_state _ _) fun _ => ?_
    | with_reducible refine LLI.keeps_bind (h.insertNewEntry_keeps _ _ _ _ _ _ _ _) fun _ => ?_
    | refine LLI.keeps_read (fun _ => rfl) fun _ => ?_
  iterate 2 refine LLI.keeps_bind (h.sh1 _ _) fun _ => ?_
  exact LLI.keeps_pure _

theorem removeBlockInDescendantsRecAux_keeps (h : Writes R) (timeout pd entry : Nat)
    : Keeps R (removeBlockInDescendantsRecAux timeout pd entry) := by
  induction timeout generalizing pd entry with
  | zero => exact LLI.keeps_pure false
  | succ timeout ih =>
    refine LLI.keeps_read (fun _ => rfl) fun isNull => ?_
    refine LLI.keeps_guard ?_
    iterate 2 refine LLI.keeps_read (fun _ => rfl) fun _ => ?_
    exact LLI.keeps_bind (h.freeSlot_keeps _ _) fun _ => ih _ _

theorem removeSubblocksRecAux_keeps (h : Writes R) (timeout pd entry : Nat)
    : Keeps R (removeSubblocksRecAux timeout pd entry) := by
  induction timeout generalizing entry with
  | zero => exact LLI.keeps_pure false
  | succ timeout ih =>
    refine LLI.keeps_read (fun _ => rfl) fun isNull => ?_
    refine LLI.keeps_guard ?_
    refine LLI.keeps_read (fun _ => rfl) fun nextsubblock => ?_
    exact LLI.keeps_bind (h.freeSlot_keeps _ _) fun _ => ih _

theorem removeBlockInChildAndDescendants_keeps (h : Writes R) (currentPart entry pd entryInChild : Nat)
    : Keeps R (removeBlockInChildAndDescendants currentPart entry pd entryInChild) := by
  refine LLI.keeps_read (fun _ => rfl) fun globalIdBlockToRemove => ?_
  refine LLI.keeps_read (checkBlockCut_state _) fun isBlockCut => ?_
  apply Keeps.ite
  . intro _
    refine LLI.keeps_read (fun _ => rfl) fun addrIsAccessible => ?_
    refine LLI.keeps_guard (LLI.keeps_bind (h.removeBlockInDescendantsRecAux_keeps _ _ _) fun _ => ?_)
    exact LLI.keeps_guard (LLI.keeps_pure true)
  . intro _
    refine LLI.keeps_read (checkRemoveSubblocksRecAux_state _ _) fun isRemovePossible => ?_
    refine LLI.keeps_guard (LLI.keeps_bind (h.removeSubblocksRecAux_keeps _ _ _) fun _ => ?_)
    refine LLI.keeps_guard (LLI.keeps_bind (h.block _ _) fun _ => ?_)
    refine LLI.keeps_read (fun _ => rfl) fun endBlockToRemove => ?_
    refine LLI.keeps_bind (h.ancestors _ _ _ _) fun _ => ?_
    exact LLI.keeps_guard (LLI.keeps_pure true)

theorem removeMemoryBlock_keeps (h : Writes R) (idBlockToRemove : Nat)
    : Keeps R (removeMemoryBlock idBlockToRemove) := by
  unfold removeMemoryBlock
  repeat first
    | with_reducible refine LLI.keeps_guard ?_
    | with_reducible refine LLI.keeps_read (findBlockInKSWithAddr_state _ _) fun _ => ?_
    | with_reducible refine LLI.keeps_bind (h.removeBlockInChildAndDescendants_keeps _ _ _ _) fun _ => ?_
    | refine LLI.keeps_read (fun _ => rfl) fun _ => ?_
  refine LLI.keeps_bind (h.writeSh1Entry_keeps _ _ _ _) fun _ => ?_
  exact LLI.keeps_pure true

theorem mapMPU_keeps (h : Writes R) (idPD idBlockToEnable MPURegionNb : Nat)
    : Keeps R (mapMPU idPD idBlockToEnable MPURegionNb) := by
  refine LLI.keeps_read (fun _ => rfl) fun currentPart => ?_
  refine LLI.keeps_read (getGlobalIdPDCurrentOrChild_state _ _) fun globalIdPD => ?_
  refine LLI.keeps_read (fun _ => rfl) fun addrIsNull => ?_
  refine LLI.keeps_guard ?_
  refine LLI.keeps_read (fun _ => rfl) fun blockIsNull => ?_
  refine Keeps.ite (fun _ => h.enableBlockInMPU_keeps _ _ _) fun _ => ?_
  repeat first
    | with_reducible refine LLI.keeps_guard ?_
    | with_reducible refine LLI.keeps_read (findBlockInKSWithAddr_state _ _) fun _ => ?_
    | with_reducible refine LLI.keeps_read (fun s => congrArg Prod.snd (checkMPUEntryZero_run _ _ s)) fun _ => ?_
    | refine LLI.keeps_read (fun _ => rfl) fun _ => ?_
  refine LLI.keeps_bind ?_ fun _ => h.enableBlockInMPU_keeps _ _ _
  unfold removeBlockFromPhysicalMPUIfAlreadyMapped
  iterate 3 refine LLI.keeps_read (fun _ => rfl) fun _ => ?_
  exact LLI.keeps_guard (LLI.keeps_bind (h.enableBlockInMPU_keeps _ _ _) fun _ => LLI.keeps_pure ())

theorem deleteSharedBlocksInStructRecAux_keeps (h : Writes R) (timeout cur k pd index : Nat)
    : Keeps R (deleteSharedBlocksInStructRecAux timeout cur k pd index) := by
  induction timeout generalizing index with
  | zero => exact LLI.keeps_pure false
  | succ timeout ih =>
    have hrest : ∀ zeroIdx : Index, Keeps R (if beqIdx index zeroIdx then (pure true : LLI Bool) else
        Index.pred index >>= fun idxpred => deleteSharedBlocksInStructRecAux timeout cur k pd idxpred) :=
      fun _ => LLI.keeps_guard (LLI.keeps_read (fun _ => rfl) fun idxpred => ih idxpred)
    iterate 4 refine LLI.keeps_read (fun _ => rfl) fun _ => ?_
    apply Keeps.ite
    . intro _
      refine LLI.keeps_bind (h.block _ _) fun _ => ?_
      refine LLI.keeps_bind (h.writeSh1Entry_keeps _ _ _ _) fun _ => ?_
      refine LLI.keeps_read (checkBlockCut_state _) fun isCut => ?_
      apply Keeps.ite
      . intro _
        refine LLI.keeps_bind (h.ancestors _ _ _ _) fun _ => ?_
        exact LLI.keeps_read (fun _ => rfl) hrest
      . intro _
        exact LLI.keeps_read (fun _ => rfl) hrest
    . intro _
      exact LLI.keeps_read (fun _ => rfl) hrest

theorem deleteSharedBlocksRecAux_keeps (h : Writes R) (timeout cur k pd : Nat)
    : Keeps R (deleteSharedBlocksRecAux timeout cur k pd) := by
  induction timeout generalizing k with
  | zero => exact LLI.keeps_pure false
  | succ timeout ih =>
    refine LLI.keeps_guard ?_
    iterate 2 refine LLI.keeps_read (fun _ => rfl) fun _ => ?_
    refine LLI.keeps_bind (h.deleteSharedBlocksInStructRecAux_keeps _ _ _ _ _) fun _ => ?_
    exact LLI.keeps_read (fun _ => rfl) fun nextStructureAddr => ih nextStructureAddr

theorem collectFreeSlotsRecAux_keeps (h : Writes R) (timeout pred entry pd k : Nat)
    : Keeps R (collectFreeSlotsRecAux timeout pred entry pd k) := by
  induction timeout generalizing pred entry with
  | zero => exact LLI.keeps_pure ()
  | succ timeout ih =>
    refine LLI.keeps_guard ?_
    iterate 3 refine LLI.keeps_read (fun _ => rfl) fun _ => ?_
    refine Keeps.ite (fun _ => ?_) fun _ => ih _ _
    refine LLI.keeps_read (fun _ => rfl) fun firstFreeSlotAddr => ?_
    apply Keeps.ite
    . intro _
      exact LLI.keeps_bind (h.table _ _ fun _ => ⟨rfl, rfl, rfl⟩) fun _ => ih _ _
    . intro _
      exact LLI.keeps_bind (h.block _ _) fun _ => ih _ _

/-
Functions that also write which structure comes after another one
-/

variable (hnext : ∀ k value, Keeps R (writeNextFromKernelStructureStart k value))

include hnext

theorem linkBlock_keeps (h : Writes R) (kernelentriesnb currentPart globalIdPD requisitionedBlock k : Nat)
    : Keeps R (linkBlock kernelentriesnb currentPart globalIdPD requisitionedBlock k) := by
  unfold linkBlock
  refine LLI.keeps_bind (h.block _ _) fun _ => ?_
  refine LLI.keeps_bind (h.unmap _ _) fun _ => ?_
  refine LLI.keeps_bind (h.ancestorsIfNotCut _ _ _) fun _ => ?_
  refine LLI.keeps_read (fun _ => rfl) fun oldKStructurePointer => ?_
  refine LLI.keeps_bind (hnext _ _) fun _ => ?_
  refine LLI.keeps_bind (h.table _ _ fun _ => ⟨rfl, rfl, rfl⟩) fun _ => ?_
  iterate 3 refine LLI.keeps_read (fun _ => rfl) fun _ => ?_
  refine LLI.keeps_bind (h.block _ _) fun _ => ?_
  refine LLI.keeps_bind (h.table _ _ fun _ => ⟨rfl, rfl, rfl⟩) fun _ => ?_
  iterate 2 refine LLI.keeps_read (fun _ => rfl) fun _ => ?_
  refine LLI.keeps_bind (h.table _ _ fun _ => ⟨rfl, rfl, rfl⟩) fun _ => ?_
  iterate 2 refine LLI.keeps_read (fun _ => rfl) fun _ => ?_
  refine LLI.keeps_bind (h.table _ _ fun _ => ⟨rfl, rfl, rfl⟩) fun _ => ?_
  refine LLI.keeps_read (fun _ => rfl) fun isCurrentPart => ?_
  apply Keeps.ite
  . intro _
    exact LLI.keeps_bind (h.sh1 _ _) fun _ => LLI.keeps_pure true
  . intro _
    exact LLI.keeps_pure true

theorem removeStructure_keeps (h : Writes R) (pd pred k : Nat) : Keeps R (removeStructure pd pred k) := by
  iterate 3 refine LLI.keeps_read (fun _ => rfl) fun _ => ?_
  exact Keeps.ite (fun _ => h.table _ _ fun _ => ⟨rfl, rfl, rfl⟩) fun _ => hnext _ _

theorem collectStructureRecAux_keeps (h : Writes R) (timeout cur pd pred k : Nat)
    : Keeps R (collectStructureRecAux timeout cur pd pred k) := by
  induction timeout generalizing pred k with
  | zero => exact LLI.keeps_pure nullAddr
  | succ timeout ih =>
    refine LLI.keeps_guard ?_
    iterate 2 refine LLI.keeps_read (fun _ => rfl) fun _ => ?_
    refine LLI.keeps_read (checkStructureEmptyRecAux_state _ _ _) fun isEmpty => ?_
    refine Keeps.ite (fun _ => LLI.keeps_read (fun _ => rfl) fun _ => ih _ _) fun _ => ?_
    refine LLI.keeps_read (findBlockInKS_state _ _) fun blockToCollectAddr => ?_
    refine LLI.keeps_read (fun _ => rfl) fun addrIsNull => ?_
    refine Keeps.ite (fun _ => LLI.keeps_read (fun _ => rfl) fun _ => ih _ _) fun _ => ?_
    refine LLI.keeps_read (fun _ => rfl) fun firstFreeSlotAddr => ?_
    refine LLI.keeps_bind (h.collectFreeSlotsRecAux_keeps _ _ _ _ _) fun _ => ?_
    refine LLI.keeps_bind (h.removeStructure_keeps hnext _ _ _) fun _ => ?_
    iterate 2 refine LLI.keeps_read (fun _ => rfl) fun _ => ?_
    refine LLI.keeps_bind (h.table _ _ fun _ => ⟨rfl, rfl, rfl⟩) fun _ => ?_
    iterate 3 refine LLI.keeps_read (fun _ => rfl) fun _ => ?_
    refine LLI.keeps_bind (h.table _ _ fun _ => ⟨rfl, rfl, rfl⟩) fun _ => ?_
    refine LLI.keeps_bind (h.block _ _) fun _ => ?_
    refine LLI.keeps_bind (h.ancestorsIfNotCut _ _ _) fun _ => ?_
    exact LLI.keeps_bind (h.writeSh1Entry_keeps _ _ _ _) fun _ => LLI.keeps_pure _

theorem collect_keeps (h : Writes R) (idPD : Nat) : Keeps R (collect idPD) := by
  refine LLI.keeps_read (fun _ => rfl) fun currentPart => ?_
  refine LLI.keeps_read (getGlobalIdPDCurrentOrChild_state _ _) fun globalIdPD => ?_
  refine LLI.keeps_read (fun _ => rfl) fun addrIsNull => ?_
  refine LLI.keeps_guard ?_
  iterate 5 refine LLI.keeps_read (fun _ => rfl) fun _ => ?_
  refine LLI.keeps_guard ?_
  iterate 2 refine LLI.keeps_read (fun _ => rfl) fun _ => ?_
  exact h.collectStructureRecAux_keeps hnext _ _ _ _ _

end Writes

theorem readMPU_keeps {R : State → State → Prop} [Std.Refl R] [IsTrans State R] (idPD MPURegionNb : Nat)
    : Keeps R (readMPU idPD MPURegionNb) := by
  refine LLI.keeps_read (fun _ => rfl) fun currentPart => ?_
  refine LLI.keeps_read (getGlobalIdPDCurrentOrChild_state _ _) fun globalIdPD => ?_
  refine LLI.keeps_read (fun _ => rfl) fun addrIsNull => ?_
  refine LLI.keeps_guard ?_
  iterate 4 refine LLI.keeps_read (fun _ => rfl) fun _ => ?_
  exact LLI.keeps_guard (.of_eq fun _ => rfl)

namespace StructureWrites

variable {R : State → State → Prop} [IsTrans State R] [Std.Refl R]

theorem initBlockEntryRecAux_keeps (h : StructureWrites R) (timeout k index : Nat)
    : Keeps R (initBlockEntryRecAux timeout k index) := by
  induction timeout generalizing index with
  | zero => exact LLI.keeps_pure false
  | succ timeout ih =>
    iterate 3 refine LLI.keeps_read (fun _ => rfl) fun _ => ?_
    refine LLI.keeps_bind (h.writeBlockEntry_keeps _ _ _ _ _ _ _ _ _) fun _ => ?_
    refine LLI.keeps_read (fun _ => rfl) fun zeroIdx => ?_
    refine LLI.keeps_guard ?_
    exact LLI.keeps_read (fun _ => rfl) fun idxpred => ih idxpred

theorem initSh1EntryRecAux_keeps (h : StructureWrites R) (timeout k index : Nat)
    : Keeps R (initSh1EntryRecAux timeout k index) := by
  induction timeout generalizing index with
  | zero => exact LLI.keeps_pure false
  | succ timeout ih =>
    refine LLI.keeps_read (fun _ => rfl) fun currEntryPointer => ?_
    refine LLI.keeps_bind (h.writeSh1Entry_keeps _ _ _ _) fun _ => ?_
    refine LLI.keeps_read (fun _ => rfl) fun zeroIdx => ?_
    refine LLI.keeps_guard ?_
    exact LLI.keeps_read (fun _ => rfl) fun idxpred => ih idxpred

theorem initSCEntryRecAux_keeps (h : StructureWrites R) (timeout k index : Nat)
    : Keeps R (initSCEntryRecAux timeout k index) := by
  induction timeout generalizing index with
  | zero => exact LLI.keeps_pure false
  | succ timeout ih =>
    refine LLI.keeps_read (fun _ => rfl) fun currEntryPointer => ?_
    refine LLI.keeps_bind (h.writeSCEntry_keeps _ _ _) fun _ => ?_
    refine LLI.keeps_read (fun _ => rfl) fun zeroIdx => ?_
    refine LLI.keeps_guard ?_
    exact LLI.keeps_read (fun _ => rfl) fun idxpred => ih idxpred

theorem initStructure_keeps (h : StructureWrites R) (lo hi : Nat) : Keeps R (initStructure lo hi) := by
  refine LLI.keeps_bind (h.erase lo hi) fun isBlockErased => ?_
  refine LLI.keeps_guard ?_
  refine LLI.keeps_bind ?_ fun _ => ?_
  . iterate 3 refine LLI.keeps_read (fun _ => rfl) fun _ => ?_
    refine LLI.keeps_bind (h.initBlockEntryRecAux_keeps _ _ _) fun initEnded => ?_
    refine LLI.keeps_guard ?_
    refine LLI.keeps_read (fun _ => rfl) fun lastEntryPointer => ?_
    exact LLI.keeps_bind (h.writeBlockEntry_keeps _ _ _ _ _ _ _ _ _) fun _ => LLI.keeps_pure true
  refine LLI.keeps_bind ?_ fun _ => ?_
  . iterate 2 refine LLI.keeps_read (fun _ => rfl) fun _ => ?_
    exact LLI.keeps_bind (h.initSh1EntryRecAux_keeps _ _ _) fun _ => LLI.keeps_guard (LLI.keeps_pure true)
  refine LLI.keeps_bind ?_ fun _ => ?_
  . iterate 2 refine LLI.keeps_read (fun _ => rfl) fun _ => ?_
    exact LLI.keeps_bind (h.initSCEntryRecAux_keeps _ _ _) fun _ => LLI.keeps_guard (LLI.keeps_pure true)
  exact LLI.keeps_bind (h.next _ _) fun _ => LLI.keeps_pure true

theorem prepare_keeps (h : StructureWrites R) (idPD idRequisitionedBlock : Nat)
    : Keeps R (prepare idPD idRequisitionedBlock) := by
  unfold prepare
  repeat first
    | with_reducible refine LLI.keeps_guard ?_
    | with_reducible refine LLI.keeps_read (findBlockInKSWithAddr_state _ _) fun _ => ?_
    | with_reducible refine LLI.keeps_read (getGlobalIdPDCurrentOrChild_state _ _) fun _ => ?_
    | with_reducible refine LLI.keeps_bind (h.initStructure_keeps _ _) fun _ => ?_
    | refine LLI.keeps_read (fun _ => rfl) fun _ => ?_
  exact h.toWrites.linkBlock_keeps h.next _ _ _ _ _

theorem deletePartition_keeps (h : StructureWrites R) (idPDchildToDelete : Nat)
    : Keeps R (deletePartition idPDchildToDelete) := by
  unfold deletePartition
  repeat first
    | with_reducible refine LLI.keeps_guard ?_
    | with_reducible refine LLI.keeps_read (findBlockInKSWithAddr_state _ _) fun _ => ?_
    | with_reducible refine LLI.keeps_bind (h.erase _ _) fun _ => ?_
    | with_reducible refine LLI.keeps_bind (h.deleteSharedBlocksRecAux_keeps _ _ _ _) fun _ => ?_
    | refine LLI.keeps_read (fun _ => rfl) fun _ => ?_
  refine LLI.keeps_bind (h.deleteSharedBlocksRecAux_keeps _ _ _ _) fun _ => ?_
  refine LLI.keeps_bind (h.block _ _) fun _ => ?_
  refine LLI.keeps_bind (h.writeSh1Entry_keeps _ _ _ _) fun _ => ?_
  refine LLI.keeps_read (checkBlockCut_state _) fun isCut => ?_
  exact LLI.keeps_guard (LLI.keeps_bind (h.ancestors _ _ _ _) fun _ => LLI.keeps_pure true)

theorem collect_keeps (h : StructureWrites R) (idPD : Nat) : Keeps R (collect idPD) :=
  h.toWrites.collect_keeps h.next idPD

end StructureWrites

namespace AllWrites

variable {R : State → State → Prop} [IsTrans State R] [Std.Refl R]

theorem createPartition_keeps (h : AllWrites R) (idBlock : Nat) : Keeps R (createPartition idBlock) := by
  unfold createPartition
  repeat first
    | with_reducible refine LLI.keeps_guard ?_
    | with_reducible refine LLI.keeps_read (findBlockInKSWithAddr_state _ _) fun _ => ?_
    | with_reducible refine LLI.keeps_bind (h.erase _ _) fun _ => ?_
    | refine LLI.keeps_read (fun _ => rfl) fun _ => ?_
  refine LLI.keeps_bind (h.init _) fun _ => ?_
  refine LLI.keeps_bind (h.parent _ _) fun _ => ?_
  refine LLI.keeps_bind (h.block _ _) fun _ => ?_
  refine LLI.keeps_bind (h.unmap _ _) fun _ => ?_
  refine LLI.keeps_bind (h.sh1 _ _) fun _ => ?_
  iterate 4 refine LLI.keeps_read (fun _ => rfl) fun _ => ?_
  apply Keeps.ite
  . intro _
    exact LLI.keeps_bind (h.ancestors _ _ _ _) fun _ => LLI.keeps_pure true
  . intro _
    exact LLI.keeps_pure true

theorem setVIDT_keeps (h : AllWrites R) (pd vidtAddr : Nat) : Keeps R (setVIDT pd vidtAddr) := by
  refine LLI.keeps_read (fun _ => rfl) fun curPd => ?_
  refine LLI.keeps_read (getGlobalIdPDCurrentOrChild_state _ _) fun globalPd => ?_
  refine LLI.keeps_read (fun _ => rfl) fun globalPdNull => ?_
  refine LLI.keeps_guard ?_
  refine LLI.keeps_read (fun _ => rfl) fun vidtAddrNull => ?_
  refine Keeps.ite (fun _ => LLI.keeps_bind (h.vidt _ _) fun _ => LLI.keeps_pure true) fun _ => ?_
  refine LLI.keeps_read (findBelongingBlock_state _ _) fun vidtBlock => ?_
  repeat first
    | with_reducible refine LLI.keeps_guard ?_
    | refine LLI.keeps_read (fun _ => rfl) fun _ => ?_
  apply Keeps.ite
  . intro _
    iterate 2 refine LLI.keeps_read (fun _ => rfl) fun _ => ?_
    exact LLI.keeps_guard (LLI.keeps_bind (h.vidt _ _) fun _ => LLI.keeps_pure true)
  . intro _
    iterate 2 refine LLI.keeps_read (fun _ => rfl) fun _ => ?_
    exact LLI.keeps_guard (LLI.keeps_bind (h.vidt _ _) fun _ => LLI.keeps_pure true)

end AllWrites
