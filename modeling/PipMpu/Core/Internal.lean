import PipMpu.Model.MAL

/-!
This module contains the internal functions of `Internal.v` that the services are made of. Each
recursion takes its fuel explicitly and the wrapper below it fixes the value the services use.
-/

def compareAddrToNull (p : Paddr) : LLI Bool := do
  let nullAddr ← getNullAddr
  getBeqAddr nullAddr p

/--
Comparator 0 compares the start of the entry with `referenceaddr`, any other one asks whether the
block contains it.
-/
def findBlockComp (entryaddr referenceaddr : Paddr) (comparator : Index) : LLI Bool := do
  let blockstart ← readBlockStartFromBlockEntryAddr entryaddr
  let zeroIdx ← Index.zero
  if beqIdx comparator zeroIdx then
    if beqAddr blockstart referenceaddr then pure true else pure false
  else do
    let blockend ← readBlockEndFromBlockEntryAddr entryaddr
    let aboveStart ← Paddr.leb blockstart referenceaddr
    let belowEnd ← Paddr.ltb referenceaddr blockend
    if aboveStart && belowEnd then pure true else pure false

def findExactBlockComp (entryaddr startaddr endaddr : Paddr) : LLI Bool := do
  let blockstart ← readBlockStartFromBlockEntryAddr entryaddr
  let blockend ← readBlockEndFromBlockEntryAddr entryaddr
  if beqAddr blockstart startaddr then
    if beqAddr blockend endaddr then pure true else pure false
  else
    pure false

/--
The search through the entries of one structure that `findBlockInKSInStructAux` and
`findExactBlockInKSInStructAux` have in common.
-/
def findEntryInStructAux (comp : Paddr → LLI Bool) : Nat → Index → Paddr → LLI Paddr
  | 0, _, _ => getNullAddr
  | timeout + 1, currentidx, currentkernelstructure => do
    let entryaddr ← getBlockEntryAddrFromKernelStructureStart currentkernelstructure currentidx
    let ispresent ← readBlockPresentFromBlockEntryAddr entryaddr
    let matchcomp ← comp entryaddr
    if ispresent && matchcomp then
      pure entryaddr
    else do
      let maxentriesnb ← getKernelStructureEntriesNb
      let nextidx ← Index.succ currentidx
      let isnotlastidx ← Index.ltb nextidx maxentriesnb
      if isnotlastidx then
        findEntryInStructAux comp timeout nextidx currentkernelstructure
      else
        pure nullAddr

def findBlockInKSInStructAux (timeout : Nat) (currentidx : Index)
    (currentkernelstructure referenceaddr : Paddr) (compoption : Index) : LLI Paddr :=
  findEntryInStructAux (fun entryaddr => findBlockComp entryaddr referenceaddr compoption) timeout
    currentidx currentkernelstructure

def findExactBlockInKSInStructAux (timeout : Nat) (currentidx : Index)
    (currentkernelstructure startaddr endaddr : Paddr) : LLI Paddr :=
  findEntryInStructAux (fun entryaddr => findExactBlockComp entryaddr startaddr endaddr) timeout
    currentidx currentkernelstructure

/--
The search through the list of structures that `findBlockInKSAux` and `findExactBlockInKSAux` have
in common.
-/
def findEntryInKSAux (comp : Paddr → LLI Bool) : Nat → Paddr → LLI Paddr
  | 0, _ => getNullAddr
  | timeout + 1, currentkernelstructure => do
    let zeroIdx ← Index.zero
    let foundblock ← findEntryInStructAux comp fuelN zeroIdx currentkernelstructure
    let foundblockisnull ← compareAddrToNull foundblock
    if !foundblockisnull then
      pure foundblock
    else do
      let nextkernelstructure ← readNextFromKernelStructureStart currentkernelstructure
      let nextKSisnull ← compareAddrToNull nextkernelstructure
      if nextKSisnull then
        pure nullAddr
      else
        findEntryInKSAux comp timeout nextkernelstructure

def findBlockInKSAux (timeout : Nat) (currentkernelstructure idblock : Paddr) (compoption : Index)
    : LLI Paddr :=
  findEntryInKSAux (fun entryaddr => findBlockComp entryaddr idblock compoption) timeout
    currentkernelstructure

def findExactBlockInKSAux (timeout : Nat) (currentkernelstructure idblock endblock : Paddr)
    : LLI Paddr :=
  findEntryInKSAux (fun entryaddr => findExactBlockComp entryaddr idblock endblock) timeout
    currentkernelstructure

def findBlockInKS (idPD idBlock : Paddr) : LLI Paddr := do
  let zeroIdx ← Index.zero
  let kernelstructurestart ← readPDStructurePointer idPD
  let isnull ← compareAddrToNull kernelstructurestart
  if isnull then
    pure nullAddr
  else
    findBlockInKSAux maxNbPrepare kernelstructurestart idBlock zeroIdx

def findExactBlockInKS (idPD idBlock endBlock : Paddr) : LLI Paddr := do
  let kernelstructurestart ← readPDStructurePointer idPD
  let isnull ← compareAddrToNull kernelstructurestart
  if isnull then
    pure nullAddr
  else
    findExactBlockInKSAux maxNbPrepare kernelstructurestart idBlock endBlock

def findBelongingBlock (idPD referenceaddr : Paddr) : LLI Paddr := do
  let zeroIdx ← Index.zero
  let one ← Index.succ zeroIdx
  let kernelstructurestart ← readPDStructurePointer idPD
  let isnull ← compareAddrToNull kernelstructurestart
  if isnull then
    pure nullAddr
  else
    findBlockInKSAux maxNbPrepare kernelstructurestart referenceaddr one

def findBlockInKSWithAddrAux : Nat → Paddr → Paddr → LLI Paddr
  | 0, _, _ => getNullAddr
  | timeout + 1, currentkernelstructure, blockEntryAddr => do
    let isEntryAddrAboveStart ← Paddr.leb currentkernelstructure blockEntryAddr
    let zeroIdx ← Index.zero
    let maxEntryAddrInStructure ← getSh1EntryAddrFromKernelStructureStart currentkernelstructure zeroIdx
    let isEntryAddrBelowEnd ← Paddr.ltb blockEntryAddr maxEntryAddrInStructure
    if isEntryAddrAboveStart && isEntryAddrBelowEnd then do
      let entryExists ← checkEntry currentkernelstructure blockEntryAddr
      if !entryExists then
        pure nullAddr
      else do
        let isPresent ← readBlockPresentFromBlockEntryAddr blockEntryAddr
        if isPresent then pure blockEntryAddr else pure nullAddr
    else do
      let nextKernelStructure ← readNextFromKernelStructureStart currentkernelstructure
      let isnull ← compareAddrToNull nextKernelStructure
      if isnull then
        pure nullAddr
      else
        findBlockInKSWithAddrAux timeout nextKernelStructure blockEntryAddr

def findBlockInKSWithAddr (idPD blockEntryAddr : Paddr) : LLI Paddr := do
  let kernelstructurestart ← readPDStructurePointer idPD
  let isnull ← compareAddrToNull kernelstructurestart
  if isnull then
    pure nullAddr
  else
    findBlockInKSWithAddrAux maxNbPrepare kernelstructurestart blockEntryAddr

def checkBlockCut (blockentryaddr : Paddr) : LLI Bool := do
  let blockOrigin ← readSCOriginFromBlockEntryAddr blockentryaddr
  let blockStart ← readBlockStartFromBlockEntryAddr blockentryaddr
  let blockNext ← readSCNextFromBlockEntryAddr blockentryaddr
  if beqAddr blockStart blockOrigin && beqAddr blockNext nullAddr then
    pure false
  else
    pure true

/--
Write the accessible bit of the block with the given bounds in the ancestors of `pdbasepartition`,
up to the first one that holds no such block.
-/
def writeAccessibleRecAux : Nat → Paddr → Paddr → Paddr → Bool → LLI Bool
  | 0, _, _, _, _ => pure false
  | timeout + 1, pdbasepartition, idblock, endblock, accessiblebit => do
    let rootPart ← getRootPartition
    if beqAddr pdbasepartition rootPart then
      pure true
    else do
      let pdparent ← readPDParent pdbasepartition
      let blockInParentPartitionAddr ← findExactBlockInKS pdparent idblock endblock
      let addrIsNull ← compareAddrToNull blockInParentPartitionAddr
      if addrIsNull then
        pure false
      else do
        writeBlockAccessibleFromBlockEntryAddr blockInParentPartitionAddr accessiblebit
        removeBlockFromPhysicalMPUIfNotAccessible pdparent blockInParentPartitionAddr accessiblebit
        writeAccessibleRecAux timeout pdparent idblock endblock accessiblebit

def writeAccessibleRec (pdbasepartition idblock endblock : Paddr) (accessiblebit : Bool) : LLI Bool :=
  writeAccessibleRecAux fuelN pdbasepartition idblock endblock accessiblebit

def writeAccessibleToAncestorsIfNotCutRec (pdbasepartition blockentryaddr : Paddr)
    (accessiblebit : Bool) : LLI Bool := do
  let blockOrigin ← readSCOriginFromBlockEntryAddr blockentryaddr
  let blockStart ← readBlockStartFromBlockEntryAddr blockentryaddr
  let blockNext ← readSCNextFromBlockEntryAddr blockentryaddr
  let globalIdBlock ← readBlockStartFromBlockEntryAddr blockentryaddr
  let globalEndBlock ← readBlockEndFromBlockEntryAddr blockentryaddr
  if beqAddr blockStart blockOrigin && beqAddr blockNext nullAddr then do
    let recWriteEnded ← writeAccessibleRec pdbasepartition globalIdBlock globalEndBlock accessiblebit
    if !recWriteEnded then pure false else pure true
  else
    pure true

/--
Take the first free slot of the partition for a new present and accessible block.
-/
def insertNewEntry (pdinsertion startaddr endaddr origin : Paddr) (r w e : Bool)
    (currnbfreeslots : Index) : LLI Paddr := do
  let newBlockEntryAddr ← readPDFirstFreeSlotPointer pdinsertion
  let newFirstFreeSlotAddr ← readBlockEndFromBlockEntryAddr newBlockEntryAddr
  let predCurrentNbFreeSlots ← Index.pred currnbfreeslots
  writePDFirstFreeSlotPointer pdinsertion newFirstFreeSlotAddr
  writePDNbFreeSlots pdinsertion predCurrentNbFreeSlots
  writeBlockStartFromBlockEntryAddr newBlockEntryAddr startaddr
  writeBlockEndFromBlockEntryAddr newBlockEntryAddr endaddr
  writeBlockPresentFromBlockEntryAddr newBlockEntryAddr true
  writeBlockAccessibleFromBlockEntryAddr newBlockEntryAddr true
  writeBlockRFromBlockEntryAddr newBlockEntryAddr r
  writeBlockWFromBlockEntryAddr newBlockEntryAddr w
  writeBlockXFromBlockEntryAddr newBlockEntryAddr e
  writeSCOriginFromBlockEntryAddr newBlockEntryAddr origin
  pure newBlockEntryAddr

/--
Reset the entry and put it at the head of the free slots of the partition.
-/
def freeSlot (pdfree entrytofreeaddr : Paddr) : LLI Paddr := do
  removeBlockFromPhysicalMPU pdfree entrytofreeaddr
  let index ← readBlockIndexFromBlockEntryAddr entrytofreeaddr
  writeBlockEntryFromBlockEntryAddr entrytofreeaddr index nullAddr nullAddr false false false false false
  writeSh1EntryFromBlockEntryAddr entrytofreeaddr nullAddr false nullAddr
  writeSCEntryFromBlockEntryAddr entrytofreeaddr nullAddr nullAddr
  let currFirstFreeSlot ← readPDFirstFreeSlotPointer pdfree
  writeBlockEndFromBlockEntryAddr entrytofreeaddr currFirstFreeSlot
  writePDFirstFreeSlotPointer pdfree entrytofreeaddr
  let nbfreeslots ← readPDNbFreeSlots pdfree
  let nbfreeslotssucc ← Index.succ nbfreeslots
  writePDNbFreeSlots pdfree nbfreeslotssucc
  pure entrytofreeaddr

def checkChildOfCurrPart (currentPartition idPDchild : Paddr) : LLI Bool := do
  let blockInParentPartAddr ← findBlockInKSWithAddr currentPartition idPDchild
  let addrIsNull ← compareAddrToNull blockInParentPartAddr
  if addrIsNull then
    pure false
  else do
    let isChild ← readSh1PDFlagFromBlockEntryAddr blockInParentPartAddr
    if !isChild then pure false else pure true

def removeBlockInDescendantsRecAux : Nat → Paddr → Paddr → LLI Bool
  | 0, _, _ => pure false
  | timeout + 1, currLevelIdPD, currLevelBlockToRemoveAddr => do
    let isNull ← compareAddrToNull currLevelBlockToRemoveAddr
    if isNull then
      pure true
    else do
      -- the references to the next level are gone once the slot is freed
      let nextdescendant ← readSh1PDChildFromBlockEntryAddr currLevelBlockToRemoveAddr
      let blockToRemoveInDescendantAddr ←
        readSh1InChildLocationFromBlockEntryAddr currLevelBlockToRemoveAddr
      let _ ← freeSlot currLevelIdPD currLevelBlockToRemoveAddr
      removeBlockInDescendantsRecAux timeout nextdescendant blockToRemoveInDescendantAddr

def removeBlockInDescendantsRec (currLevelIdPD currLevelBlockToRemoveAddr : Paddr) : LLI Bool :=
  removeBlockInDescendantsRecAux fuelN currLevelIdPD currLevelBlockToRemoveAddr

def checkRemoveSubblocksRecAux : Nat → Paddr → LLI Bool
  | 0, _ => pure false
  | timeout + 1, subblockAddr => do
    let isAccessible ← readBlockAccessibleFromBlockEntryAddr subblockAddr
    let isPresent ← readBlockPresentFromBlockEntryAddr subblockAddr
    let PDChildAddr ← readSh1PDChildFromBlockEntryAddr subblockAddr
    let PDChildAddrIsNull ← compareAddrToNull PDChildAddr
    if !(isAccessible && isPresent && PDChildAddrIsNull) then
      pure false
    else do
      let nextsubblock ← readSCNextFromBlockEntryAddr subblockAddr
      let isnull ← compareAddrToNull nextsubblock
      if isnull then
        pure true
      else
        checkRemoveSubblocksRecAux timeout nextsubblock

def checkRemoveSubblocksRec (subblockAddr : Paddr) : LLI Bool :=
  checkRemoveSubblocksRecAux fuelN subblockAddr

def removeSubblocksRecAux : Nat → Paddr → Paddr → LLI Bool
  | 0, _, _ => pure false
  | timeout + 1, idPDchild, subblockAddr => do
    let isNull ← compareAddrToNull subblockAddr
    if isNull then
      pure true
    else do
      let nextsubblock ← readSCNextFromBlockEntryAddr subblockAddr
      let _ ← freeSlot idPDchild subblockAddr
      removeSubblocksRecAux timeout idPDchild nextsubblock

def removeSubblocksRec (idPDchild subblockAddr : Paddr) : LLI Bool :=
  removeSubblocksRecAux fuelN idPDchild subblockAddr

/--
Remove the block from the child: an uncut block together with its copies in the descendants, a cut
block only if all of its subblocks are accessible, present, and not shared.
-/
def removeBlockInChildAndDescendants (currentPart blockToRemoveInCurrPartAddr idPDchild
    blockToRemoveInChildAddr : Paddr) : LLI Bool := do
  let globalIdBlockToRemove ← readBlockStartFromBlockEntryAddr blockToRemoveInCurrPartAddr
  let isBlockCut ← checkBlockCut blockToRemoveInChildAddr
  if !isBlockCut then do
    let addrIsAccessible ← readBlockAccessibleFromBlockEntryAddr blockToRemoveInChildAddr
    if !addrIsAccessible then
      pure false
    else do
      let recRemoveInDescendantsEnded ←
        removeBlockInDescendantsRec idPDchild blockToRemoveInChildAddr
      if !recRemoveInDescendantsEnded then pure false else pure true
  else do
    let isRemovePossible ← checkRemoveSubblocksRec blockToRemoveInChildAddr
    if !isRemovePossible then
      pure false
    else do
      let recRemoveSubblocksEnded ← removeSubblocksRec idPDchild blockToRemoveInChildAddr
      if !recRemoveSubblocksEnded then
        pure false
      else do
        writeBlockAccessibleFromBlockEntryAddr blockToRemoveInCurrPartAddr true
        let endBlockToRemove ← readBlockEndFromBlockEntryAddr blockToRemoveInCurrPartAddr
        let recWriteEnded ← writeAccessibleRec currentPart globalIdBlockToRemove endBlockToRemove true
        if !recWriteEnded then pure false else pure true

def sizeOfBlock (blockentryaddr : Paddr) : LLI Index := do
  let startAddr ← readBlockStartFromBlockEntryAddr blockentryaddr
  let endAddr ← readBlockEndFromBlockEntryAddr blockentryaddr
  Paddr.subPaddr endAddr startAddr

/--
Link the entries from `indexCurr` down to 0, each one to the entry after it.
-/
def initBlockEntryRecAux : Nat → Paddr → Index → LLI Bool
  | 0, _, _ => pure false
  | timeout + 1, kernelStructureStartAddr, indexCurr => do
    let idxsucc ← Index.succ indexCurr
    let nextEntryPointer ← getBlockEntryAddrFromKernelStructureStart kernelStructureStartAddr idxsucc
    let currEntryPointer ← getBlockEntryAddrFromKernelStructureStart kernelStructureStartAddr indexCurr
    writeBlockEntryFromBlockEntryAddr currEntryPointer indexCurr nullAddr nextEntryPointer false false
      false false false
    let zeroIdx ← Index.zero
    if beqIdx indexCurr zeroIdx then
      pure true
    else do
      let idxpred ← Index.pred indexCurr
      initBlockEntryRecAux timeout kernelStructureStartAddr idxpred

def initBlocksStructure (kernelStructureStartAddr : Paddr) : LLI Bool := do
  let entriesnb ← getKernelStructureEntriesNb
  let lastindex ← Index.pred entriesnb
  let secondlastindex ← Index.pred lastindex
  let initEnded ← initBlockEntryRecAux fuelN kernelStructureStartAddr secondlastindex
  if !initEnded then
    pure false
  else do
    let lastEntryPointer ←
      getBlockEntryAddrFromKernelStructureStart kernelStructureStartAddr lastindex
    writeBlockEntryFromBlockEntryAddr lastEntryPointer lastindex nullAddr nullAddr false false false
      false false
    pure true

def initSh1EntryRecAux : Nat → Paddr → Index → LLI Bool
  | 0, _, _ => pure false
  | timeout + 1, kernelStructureStartAddr, indexCurr => do
    let currEntryPointer ← getBlockEntryAddrFromKernelStructureStart kernelStructureStartAddr indexCurr
    writeSh1EntryFromBlockEntryAddr currEntryPointer nullAddr false nullAddr
    let zeroIdx ← Index.zero
    if beqIdx indexCurr zeroIdx then
      pure true
    else do
      let idxpred ← Index.pred indexCurr
      initSh1EntryRecAux timeout kernelStructureStartAddr idxpred

def initSh1Structure (kernelStructureStartAddr : Paddr) : LLI Bool := do
  let entriesnb ← getKernelStructureEntriesNb
  let lastindex ← Index.pred entriesnb
  let initEnded ← initSh1EntryRecAux fuelN kernelStructureStartAddr lastindex
  if !initEnded then pure false else pure true

def initSCEntryRecAux : Nat → Paddr → Index → LLI Bool
  | 0, _, _ => pure false
  | timeout + 1, kernelStructureStartAddr, indexCurr => do
    let currEntryPointer ← getBlockEntryAddrFromKernelStructureStart kernelStructureStartAddr indexCurr
    writeSCEntryFromBlockEntryAddr currEntryPointer nullAddr nullAddr
    let zeroIdx ← Index.zero
    if beqIdx indexCurr zeroIdx then
      pure true
    else do
      let idxpred ← Index.pred indexCurr
      initSCEntryRecAux timeout kernelStructureStartAddr idxpred

def initSCStructure (kernelStructureStartAddr : Paddr) : LLI Bool := do
  let entriesnb ← getKernelStructureEntriesNb
  let lastindex ← Index.pred entriesnb
  let initEnded ← initSCEntryRecAux fuelN kernelStructureStartAddr lastindex
  if !initEnded then pure false else pure true

def initStructure (kernelStructureStartAddr kernelStructureEndAddr : Paddr) : LLI Bool := do
  let isBlockErased ← eraseBlock kernelStructureStartAddr kernelStructureEndAddr
  if !isBlockErased then
    pure false
  else do
    let _ ← initBlocksStructure kernelStructureStartAddr
    let _ ← initSh1Structure kernelStructureStartAddr
    let _ ← initSCStructure kernelStructureStartAddr
    writeNextFromKernelStructureStart kernelStructureStartAddr nullAddr
    pure true

/--
Take back the blocks of the structure that belong to the child, from the last entry to the first.
-/
def deleteSharedBlocksInStructRecAux : Nat → Paddr → Paddr → Paddr → Index → LLI Bool
  | 0, _, _, _, _ => pure false
  | timeout + 1, currentPart, kernelStructureStartAddr, idPDchildToDelete, currIndex => do
    let currBlockEntryAddr ←
      getBlockEntryAddrFromKernelStructureStart kernelStructureStartAddr currIndex
    let blockID ← readBlockStartFromBlockEntryAddr currBlockEntryAddr
    let endBlock ← readBlockEndFromBlockEntryAddr currBlockEntryAddr
    let currPDChild ← readSh1PDChildFromBlockEntryAddr currBlockEntryAddr
    if beqAddr currPDChild idPDchildToDelete then do
      writeBlockAccessibleFromBlockEntryAddr currBlockEntryAddr true
      writeSh1EntryFromBlockEntryAddr currBlockEntryAddr nullAddr false nullAddr
      let isCut ← checkBlockCut currBlockEntryAddr
      if !isCut then do
        let _ ← writeAccessibleRec currentPart blockID endBlock true
        let zeroIdx ← Index.zero
        if beqIdx currIndex zeroIdx then
          pure true
        else do
          let idxpred ← Index.pred currIndex
          deleteSharedBlocksInStructRecAux timeout currentPart kernelStructureStartAddr
            idPDchildToDelete idxpred
      else do
        let zeroIdx ← Index.zero
        if beqIdx currIndex zeroIdx then
          pure true
        else do
          let idxpred ← Index.pred currIndex
          deleteSharedBlocksInStructRecAux timeout currentPart kernelStructureStartAddr
            idPDchildToDelete idxpred
    else do
      let zeroIdx ← Index.zero
      if beqIdx currIndex zeroIdx then
        pure true
      else do
        let idxpred ← Index.pred currIndex
        deleteSharedBlocksInStructRecAux timeout currentPart kernelStructureStartAddr
          idPDchildToDelete idxpred

def deleteSharedBlocksRecAux : Nat → Paddr → Paddr → Paddr → LLI Bool
  | 0, _, _, _ => pure false
  | timeout + 1, currentPart, currKernelStructureStartAddr, idPDchildToDelete => do
    if beqAddr currKernelStructureStartAddr nullAddr then
      pure true
    else do
      let entriesnb ← getKernelStructureEntriesNb
      let lastindex ← Index.pred entriesnb
      let _ ← deleteSharedBlocksInStructRecAux fuelN currentPart currKernelStructureStartAddr
        idPDchildToDelete lastindex
      let nextStructureAddr ← readNextFromKernelStructureStart currKernelStructureStartAddr
      deleteSharedBlocksRecAux timeout currentPart nextStructureAddr idPDchildToDelete

def deleteSharedBlocksRec (currentPart kernelStructureStartAddr idPDchildToDelete : Paddr)
    : LLI Bool :=
  deleteSharedBlocksRecAux fuelN currentPart kernelStructureStartAddr idPDchildToDelete

def removeStructure (idPD predStructureAddr collectStructureAddr : Paddr) : LLI Unit := do
  let nextStructureAddr ← readNextFromKernelStructureStart collectStructureAddr
  let firstStructure ← readPDStructurePointer idPD
  let isFirstStructure ← getBeqAddr collectStructureAddr firstStructure
  if isFirstStructure then
    writePDStructurePointer idPD nextStructureAddr
  else
    writeNextFromKernelStructureStart predStructureAddr nextStructureAddr

def checkStructureEmptyRecAux : Nat → Paddr → Index → LLI Bool
  | 0, _, _ => pure false
  | timeout + 1, structureAddr, currIndex => do
    let currBlockEntryAddr ← getBlockEntryAddrFromKernelStructureStart structureAddr currIndex
    let isPresent ← readBlockPresentFromBlockEntryAddr currBlockEntryAddr
    if isPresent then
      pure false
    else do
      let zeroIdx ← Index.zero
      if beqIdx currIndex zeroIdx then
        pure true
      else do
        let idxpred ← Index.pred currIndex
        checkStructureEmptyRecAux timeout structureAddr idxpred

/--
Unlink the free slots that lie in the structure to collect from the free slots of the partition.
-/
def collectFreeSlotsRecAux : Nat → Paddr → Paddr → Paddr → Paddr → LLI Unit
  | 0, _, _, _, _ => pure ()
  | timeout + 1, predFreeSlotAddr, currFreeSlotAddr, idPD, structureCollectAddr => do
    if beqAddr currFreeSlotAddr nullAddr then
      pure ()
    else do
      let blockEntryIndex ← readBlockIndexFromBlockEntryAddr currFreeSlotAddr
      let slotKStructureStart ← getKernelStructureStartAddr currFreeSlotAddr blockEntryIndex
      let nextFreeSlotAddr ← readBlockEndFromBlockEntryAddr currFreeSlotAddr
      if beqAddr slotKStructureStart structureCollectAddr then do
        let firstFreeSlotAddr ← readPDFirstFreeSlotPointer idPD
        if beqAddr currFreeSlotAddr firstFreeSlotAddr then do
          writePDFirstFreeSlotPointer idPD nextFreeSlotAddr
          collectFreeSlotsRecAux timeout currFreeSlotAddr nextFreeSlotAddr idPD structureCollectAddr
        else do
          writeBlockEndFromBlockEntryAddr predFreeSlotAddr nextFreeSlotAddr
          collectFreeSlotsRecAux timeout currFreeSlotAddr nextFreeSlotAddr idPD structureCollectAddr
      else
        collectFreeSlotsRecAux timeout currFreeSlotAddr nextFreeSlotAddr idPD structureCollectAddr

def collectStructureRecAux : Nat → Paddr → Paddr → Paddr → Paddr → LLI Paddr
  | 0, _, _, _, _ => pure nullAddr
  | timeout + 1, currentPart, idPD, predStructureAddr, currStructureAddr => do
    if beqAddr currStructureAddr nullAddr then
      pure nullAddr
    else do
      let entriesnb ← getKernelStructureEntriesNb
      let lastindex ← Index.pred entriesnb
      let isEmpty ← checkStructureEmptyRecAux fuelN currStructureAddr lastindex
      if !isEmpty then do
        let nextStructureAddr ← readNextFromKernelStructureStart currStructureAddr
        collectStructureRecAux timeout currentPart idPD currStructureAddr nextStructureAddr
      else do
        -- a structure that is no block of the current partition was given by the parent
        let blockToCollectAddr ← findBlockInKS currentPart currStructureAddr
        let addrIsNull ← compareAddrToNull blockToCollectAddr
        if addrIsNull then do
          let nextStructureAddr ← readNextFromKernelStructureStart currStructureAddr
          collectStructureRecAux timeout currentPart idPD currStructureAddr nextStructureAddr
        else do
          let firstFreeSlotAddr ← readPDFirstFreeSlotPointer idPD
          collectFreeSlotsRecAux fuelN nullAddr firstFreeSlotAddr idPD currStructureAddr
          removeStructure idPD predStructureAddr currStructureAddr
          let nbPrepare ← readPDNbPrepare idPD
          let predNbPrepare ← Index.pred nbPrepare
          writePDNbPrepare idPD predNbPrepare
          let nbFreeSlots ← readPDNbFreeSlots idPD
          let entriesnb ← getKernelStructureEntriesNb
          let subNbFreeSlots ← Index.subIdx nbFreeSlots entriesnb
          writePDNbFreeSlots idPD subNbFreeSlots
          writeBlockAccessibleFromBlockEntryAddr blockToCollectAddr true
          let _ ← writeAccessibleToAncestorsIfNotCutRec idPD blockToCollectAddr true
          writeSh1EntryFromBlockEntryAddr blockToCollectAddr nullAddr false nullAddr
          pure blockToCollectAddr

def collectStructureRec (currentPart idPD predStructureAddr currStructureAddr : Paddr) : LLI Paddr :=
  collectStructureRecAux fuelN currentPart idPD predStructureAddr currStructureAddr

def enableBlockInMPU (idPD blockentryaddr : Paddr) (MPURegionNb : Index) : LLI Bool := do
  let zeroIdx ← Index.zero
  let isBelowZero ← Index.ltb MPURegionNb zeroIdx
  let maxMPURegions ← getMPURegionsNb
  let isAboveMPURegionsNb ← Index.leb maxMPURegions MPURegionNb
  if isBelowZero || isAboveMPURegionsNb then
    pure false
  else do
    replaceBlockInPhysicalMPU idPD blockentryaddr MPURegionNb
    pure true

def removeBlockFromPhysicalMPUIfAlreadyMapped (idPD blockentryaddr : Paddr) : LLI Unit := do
  let kernelentriesnb ← getKernelStructureEntriesNb
  let defaultidx ← Index.succ kernelentriesnb
  let oldMPURegionNb ← findBlockIdxInPhysicalMPU idPD blockentryaddr defaultidx
  if beqIdx oldMPURegionNb defaultidx then
    pure ()
  else do
    let _ ← enableBlockInMPU idPD nullAddr oldMPURegionNb
    pure ()

/--
The descriptor behind `idPDToCheck`: the current partition itself, or a child given by the entry of
its block, null for anything else.
-/
def getGlobalIdPDCurrentOrChild (currentPartition idPDToCheck : Paddr) : LLI Paddr := do
  let isCurrentPart ← getBeqAddr idPDToCheck currentPartition
  if isCurrentPart then
    pure currentPartition
  else do
    let isChildCurrPart ← checkChildOfCurrPart currentPartition idPDToCheck
    if isChildCurrPart then do
      let idPDChild ← readBlockStartFromBlockEntryAddr idPDToCheck
      pure idPDChild
    else
      pure nullAddr

def compatibleRight (originalright newright : Bool) : LLI Bool :=
  if newright then pure (originalright == newright) else pure true

def checkRights (originalblockentryaddr : Paddr) (r w x : Bool) : LLI Bool := do
  if !r then
    pure false
  else do
    let xoriginal ← readBlockXFromBlockEntryAddr originalblockentryaddr
    let woriginal ← readBlockWFromBlockEntryAddr originalblockentryaddr
    let isCompatibleWithX ← compatibleRight xoriginal x
    let isCompatibleWithW ← compatibleRight woriginal w
    if !(isCompatibleWithX && isCompatibleWithW) then pure false else pure true
