import PipMpu.Core.Internal

/-!
This module contains the memory services of `Services.v`, the system calls through which a partition
manages its blocks and its children.
-/

/--
Turn the block into the descriptor of a new child of the current partition.
-/
def createPartition (idBlock : Paddr) : LLI Bool := do
  let currentPart ← getCurPartition
  let blockInCurrentPartitionAddr ← findBlockInKSWithAddr currentPart idBlock
  let addrIsNull ← compareAddrToNull blockInCurrentPartitionAddr
  if addrIsNull then pure false else do
  let addrIsAccessible ← readBlockAccessibleFromBlockEntryAddr blockInCurrentPartitionAddr
  if !addrIsAccessible then pure false else do
  let isInRAM ← checkBlockInRAM blockInCurrentPartitionAddr
  if !isInRAM then pure false else do
  let blockSize ← sizeOfBlock blockInCurrentPartitionAddr
  let minBlockSize ← getMinBlockSize
  let isBlockTooSmall1 ← Index.ltb blockSize minBlockSize
  if isBlockTooSmall1 then pure false else do
  let PDStructureTotalLength ← getPDStructureTotalLength
  let isBlockTooSmall2 ← Index.ltb blockSize PDStructureTotalLength
  if isBlockTooSmall2 then pure false else do
  let PDChildAddr ← readSh1PDChildFromBlockEntryAddr blockInCurrentPartitionAddr
  let PDChildAddrIsNull ← compareAddrToNull PDChildAddr
  if !PDChildAddrIsNull then pure false else do
  let newPDBlockStartAddr ← readBlockStartFromBlockEntryAddr blockInCurrentPartitionAddr
  let newPDBlockEndAddr ← readBlockEndFromBlockEntryAddr blockInCurrentPartitionAddr
  let _ ← eraseBlock newPDBlockStartAddr newPDBlockEndAddr
  initPDTable newPDBlockStartAddr
  writePDParent newPDBlockStartAddr currentPart
  writeBlockAccessibleFromBlockEntryAddr blockInCurrentPartitionAddr false
  removeBlockFromPhysicalMPU currentPart blockInCurrentPartitionAddr
  writeSh1PDFlagFromBlockEntryAddr blockInCurrentPartitionAddr true
  let blockOrigin ← readSCOriginFromBlockEntryAddr blockInCurrentPartitionAddr
  let blockStart ← readBlockStartFromBlockEntryAddr blockInCurrentPartitionAddr
  let blockEnd ← readBlockEndFromBlockEntryAddr blockInCurrentPartitionAddr
  let blockNext ← readSCNextFromBlockEntryAddr blockInCurrentPartitionAddr
  if beqAddr blockOrigin blockStart && beqAddr blockNext nullAddr then do
    let _ ← writeAccessibleRec currentPart blockStart blockEnd false
    pure true
  else
    pure true

/--
Cut the block at the given address, the part from there on becomes a new block.
-/
def cutMemoryBlock (idBlockToCut cutAddr : Paddr) (MPURegionNb : Index) : LLI Paddr := do
  let currentPart ← getCurPartition
  let nbFreeSlots ← readPDNbFreeSlots currentPart
  let zeroIdx ← Index.zero
  let isFull ← Index.leb nbFreeSlots zeroIdx
  if isFull then pure nullAddr else do
  let blockToCutEntryAddr ← findBlockInKSWithAddr currentPart idBlockToCut
  let addrIsNull ← compareAddrToNull blockToCutEntryAddr
  if addrIsNull then pure nullAddr else do
  let blockIsAccessible ← readBlockAccessibleFromBlockEntryAddr blockToCutEntryAddr
  if !blockIsAccessible then pure nullAddr else do
  let PDChildAddr ← readSh1PDChildFromBlockEntryAddr blockToCutEntryAddr
  let PDChildAddrIsNull ← compareAddrToNull PDChildAddr
  if !PDChildAddrIsNull then pure nullAddr else do
  let blockToCutStartAddr ← readBlockStartFromBlockEntryAddr blockToCutEntryAddr
  let isCutAddrBelowStart ← Paddr.leb cutAddr blockToCutStartAddr
  if isCutAddrBelowStart then pure nullAddr else do
  let blockToCutEndAddr ← readBlockEndFromBlockEntryAddr blockToCutEntryAddr
  let isCutAddrAboveEnd ← Paddr.leb blockToCutEndAddr cutAddr
  if isCutAddrAboveEnd then pure nullAddr else do
  let subblock1Size ← Paddr.subPaddr cutAddr blockToCutStartAddr
  let subblock2Size ← Paddr.subPaddr blockToCutEndAddr cutAddr
  let minBlockSize ← getMinBlockSize
  let isBlock1TooSmall ← Index.ltb subblock1Size minBlockSize
  let isBlock2TooSmall ← Index.ltb subblock2Size minBlockSize
  if isBlock1TooSmall || isBlock2TooSmall then pure nullAddr else do
  let isCutAddrValid ← check32Aligned cutAddr
  if !isCutAddrValid then pure nullAddr else do
  let _ ← writeAccessibleToAncestorsIfNotCutRec currentPart blockToCutEntryAddr false
  let blockEndAddr ← readBlockEndFromBlockEntryAddr blockToCutEntryAddr
  let blockOrigin ← readSCOriginFromBlockEntryAddr blockToCutEntryAddr
  let blockR ← readBlockRFromBlockEntryAddr blockToCutEntryAddr
  let blockW ← readBlockWFromBlockEntryAddr blockToCutEntryAddr
  let blockX ← readBlockXFromBlockEntryAddr blockToCutEntryAddr
  let idNewSubblock ←
    insertNewEntry currentPart cutAddr blockEndAddr blockOrigin blockR blockW blockX nbFreeSlots
  writeBlockEndFromBlockEntryAddr blockToCutEntryAddr cutAddr
  let kernelentriesnb ← getKernelStructureEntriesNb
  let defaultidx ← Index.succ kernelentriesnb
  let blockMPURegionNb ← findBlockIdxInPhysicalMPU currentPart blockToCutEntryAddr defaultidx
  let _ ← enableBlockInMPU currentPart blockToCutEntryAddr blockMPURegionNb
  let originalNextSubblock ← readSCNextFromBlockEntryAddr blockToCutEntryAddr
  writeSCNextFromBlockEntryAddr idNewSubblock originalNextSubblock
  writeSCNextFromBlockEntryAddr blockToCutEntryAddr idNewSubblock
  let _ ← enableBlockInMPU currentPart idNewSubblock MPURegionNb
  pure idNewSubblock

/--
Merge the second block into the first one, which it must follow.
-/
def mergeMemoryBlocks (idBlockToMerge1 idBlockToMerge2 : Paddr) (MPURegionNb : Index)
    : LLI Paddr := do
  let currentPart ← getCurPartition
  let block1InCurrPartAddr ← findBlockInKSWithAddr currentPart idBlockToMerge1
  let addrIsNull ← compareAddrToNull block1InCurrPartAddr
  if addrIsNull then pure nullAddr else do
  let block2InCurrPartAddr ← findBlockInKSWithAddr currentPart idBlockToMerge2
  let addrIsNull ← compareAddrToNull block2InCurrPartAddr
  if addrIsNull then pure nullAddr else do
  let isBlock1Accessible ← readBlockAccessibleFromBlockEntryAddr block1InCurrPartAddr
  let isBlock2Accessible ← readBlockAccessibleFromBlockEntryAddr block2InCurrPartAddr
  if !(isBlock1Accessible && isBlock2Accessible) then pure nullAddr else do
  let block1PDChildAddr ← readSh1PDChildFromBlockEntryAddr block1InCurrPartAddr
  let block1PDChildAddrIsNull ← compareAddrToNull block1PDChildAddr
  let block2GlobalIdPDChild ← readSh1PDChildFromBlockEntryAddr block2InCurrPartAddr
  let block2GlobalIdPDChildIsNull ← compareAddrToNull block2GlobalIdPDChild
  if !block1PDChildAddrIsNull || !block2GlobalIdPDChildIsNull then pure nullAddr else do
  let block1Next ← readSCNextFromBlockEntryAddr block1InCurrPartAddr
  let isBlock2Next ← getBeqAddr block2InCurrPartAddr block1Next
  if !isBlock2Next then pure nullAddr else do
  let block2Next ← readSCNextFromBlockEntryAddr block2InCurrPartAddr
  writeSCNextFromBlockEntryAddr block1InCurrPartAddr block2Next
  let block2End ← readBlockEndFromBlockEntryAddr block2InCurrPartAddr
  writeBlockEndFromBlockEntryAddr block1InCurrPartAddr block2End
  let _ ← freeSlot currentPart block2InCurrPartAddr
  let _ ← writeAccessibleToAncestorsIfNotCutRec currentPart block1InCurrPartAddr true
  removeBlockFromPhysicalMPU currentPart block1InCurrPartAddr
  removeBlockFromPhysicalMPU currentPart block2InCurrPartAddr
  let _ ← enableBlockInMPU currentPart block1InCurrPartAddr MPURegionNb
  pure idBlockToMerge1

/--
Turn the requisitioned block into a kernel structure of the current partition or of a child.
-/
def prepare (idPD idRequisitionedBlock : Paddr) : LLI Bool := do
  let currentPart ← getCurPartition
  let globalIdPD ← getGlobalIdPDCurrentOrChild currentPart idPD
  let addrIsNull ← compareAddrToNull globalIdPD
  if addrIsNull then pure false else do
  let nbPrepare ← readPDNbPrepare globalIdPD
  let maxnbprepare ← getMaxNbPrepare
  let isMaxPrepare ← Index.leb maxnbprepare nbPrepare
  if isMaxPrepare then pure false else do
  let kernelentriesnb ← getKernelStructureEntriesNb
  let requisitionedBlockInCurrPartAddr ← findBlockInKSWithAddr currentPart idRequisitionedBlock
  let addrIsNull ← compareAddrToNull requisitionedBlockInCurrPartAddr
  if addrIsNull then pure false else do
  let isInRAM ← checkBlockInRAM requisitionedBlockInCurrPartAddr
  if !isInRAM then pure false else do
  let blockSize ← sizeOfBlock requisitionedBlockInCurrPartAddr
  let kStructureTotalLength ← getKernelStructureTotalLength
  let isBlockTooSmall ← Index.ltb blockSize kStructureTotalLength
  if isBlockTooSmall then pure false else do
  let addrIsAccessible ← readBlockAccessibleFromBlockEntryAddr requisitionedBlockInCurrPartAddr
  if !addrIsAccessible then pure false else do
  let addrIsPresent ← readBlockPresentFromBlockEntryAddr requisitionedBlockInCurrPartAddr
  if !addrIsPresent then pure false else do
  let PDChildAddr ← readSh1PDChildFromBlockEntryAddr requisitionedBlockInCurrPartAddr
  let PDChildAddrIsNull ← compareAddrToNull PDChildAddr
  if !PDChildAddrIsNull then pure false else do
  let requisitionedBlockStart ← readBlockStartFromBlockEntryAddr requisitionedBlockInCurrPartAddr
  let requisitionedBlockEnd ← readBlockEndFromBlockEntryAddr requisitionedBlockInCurrPartAddr
  let isStructureInitialised ← initStructure requisitionedBlockStart requisitionedBlockEnd
  if !isStructureInitialised then pure false else do
  let newKStructurePointer ← getAddr requisitionedBlockStart
  writeBlockAccessibleFromBlockEntryAddr requisitionedBlockInCurrPartAddr false
  removeBlockFromPhysicalMPU currentPart requisitionedBlockInCurrPartAddr
  let _ ← writeAccessibleToAncestorsIfNotCutRec currentPart requisitionedBlockInCurrPartAddr false
  let oldKStructurePointer ← readPDStructurePointer globalIdPD
  writeNextFromKernelStructureStart newKStructurePointer oldKStructurePointer
  writePDStructurePointer globalIdPD newKStructurePointer
  let lastidx ← Index.pred kernelentriesnb
  let lastBlockEntryAddr ← getBlockEntryAddrFromKernelStructureStart newKStructurePointer lastidx
  let currFirstFreeSlot ← readPDFirstFreeSlotPointer globalIdPD
  writeBlockEndFromBlockEntryAddr lastBlockEntryAddr currFirstFreeSlot
  writePDFirstFreeSlotPointer globalIdPD newKStructurePointer
  let currentNbFreeSlots ← readPDNbFreeSlots globalIdPD
  let newNbFreeSlots ← Index.addIdx currentNbFreeSlots kernelentriesnb
  writePDNbFreeSlots globalIdPD newNbFreeSlots
  let currentNbPrepare ← readPDNbPrepare globalIdPD
  let succCurrentNbPrepare ← Index.succ currentNbPrepare
  writePDNbPrepare globalIdPD succCurrentNbPrepare
  let isCurrentPart ← getBeqAddr globalIdPD currentPart
  if !isCurrentPart then do
    writeSh1PDChildFromBlockEntryAddr requisitionedBlockInCurrPartAddr globalIdPD
    pure true
  else
    pure true

/--
Share the block with the child, the block stays accessible in the current partition.
-/
def addMemoryBlock (idPDchild idBlockToShare : Paddr) (r w e : Bool) : LLI Paddr := do
  let currentPart ← getCurPartition
  let blockToShareInCurrPartAddr ← findBlockInKSWithAddr currentPart idBlockToShare
  let addrIsNull ← compareAddrToNull blockToShareInCurrPartAddr
  if addrIsNull then pure nullAddr else do
  let rcheck ← checkRights blockToShareInCurrPartAddr r w e
  if !rcheck then pure nullAddr else do
  let isChildCurrPart ← checkChildOfCurrPart currentPart idPDchild
  if !isChildCurrPart then pure nullAddr else do
  let globalIdPDChild ← readBlockStartFromBlockEntryAddr idPDchild
  let currentFreeSlotsNb ← readPDNbFreeSlots globalIdPDChild
  let zeroIdx ← Index.zero
  let isFull ← Index.leb currentFreeSlotsNb zeroIdx
  if isFull then pure nullAddr else do
  let firstfreeslotInChild ← readPDFirstFreeSlotPointer globalIdPDChild
  let slotIsNull ← compareAddrToNull firstfreeslotInChild
  if slotIsNull then pure nullAddr else do
  let addrIsAccessible ← readBlockAccessibleFromBlockEntryAddr blockToShareInCurrPartAddr
  if !addrIsAccessible then pure nullAddr else do
  let addrIsPresent ← readBlockPresentFromBlockEntryAddr blockToShareInCurrPartAddr
  if !addrIsPresent then pure nullAddr else do
  let PDChildAddr ← readSh1PDChildFromBlockEntryAddr blockToShareInCurrPartAddr
  let PDChildAddrIsNull ← compareAddrToNull PDChildAddr
  if !PDChildAddrIsNull then pure nullAddr else do
  let vidtBlockGlobalId ← readPDVidt globalIdPDChild
  if beqAddr vidtBlockGlobalId blockToShareInCurrPartAddr then pure nullAddr else do
  let blockstart ← readBlockStartFromBlockEntryAddr blockToShareInCurrPartAddr
  let blockend ← readBlockEndFromBlockEntryAddr blockToShareInCurrPartAddr
  let blockToShareChildEntryAddr ←
    insertNewEntry globalIdPDChild blockstart blockend blockstart r w e currentFreeSlotsNb
  writeSh1PDChildFromBlockEntryAddr blockToShareInCurrPartAddr globalIdPDChild
  writeSh1InChildLocationFromBlockEntryAddr blockToShareInCurrPartAddr blockToShareChildEntryAddr
  pure blockToShareChildEntryAddr

/--
Take back a block shared with a child.
-/
def removeMemoryBlock (idBlockToRemove : Paddr) : LLI Bool := do
  let currentPart ← getCurPartition
  let blockToRemoveInCurrPartAddr ← findBlockInKSWithAddr currentPart idBlockToRemove
  let addrIsNull ← compareAddrToNull blockToRemoveInCurrPartAddr
  if addrIsNull then pure false else do
  let idPDchild ← readSh1PDChildFromBlockEntryAddr blockToRemoveInCurrPartAddr
  let pdchildIsNull ← compareAddrToNull idPDchild
  if pdchildIsNull then pure false else do
  let blockToRemoveInChildAddr ←
    readSh1InChildLocationFromBlockEntryAddr blockToRemoveInCurrPartAddr
  let blockInChildIsNull ← compareAddrToNull blockToRemoveInChildAddr
  if blockInChildIsNull then pure false else do
  let vidtBlockGlobalId ← readPDVidt idPDchild
  if beqAddr vidtBlockGlobalId blockToRemoveInCurrPartAddr then pure false else do
  let blockIsRemoved ← removeBlockInChildAndDescendants currentPart blockToRemoveInCurrPartAddr
    idPDchild blockToRemoveInChildAddr
  if !blockIsRemoved then pure false else do
  writeSh1EntryFromBlockEntryAddr blockToRemoveInCurrPartAddr nullAddr false nullAddr
  pure true

/--
Remove the child from the partition tree and take back everything it was given.
-/
def deletePartition (idPDchildToDelete : Paddr) : LLI Bool := do
  let currentPart ← getCurPartition
  let blockToDeleteInCurrPartAddr ← findBlockInKSWithAddr currentPart idPDchildToDelete
  let addrIsNull ← compareAddrToNull blockToDeleteInCurrPartAddr
  if addrIsNull then pure false else do
  let isChild ← readSh1PDFlagFromBlockEntryAddr blockToDeleteInCurrPartAddr
  if !isChild then pure false else do
  let blockStartAddr ← readBlockStartFromBlockEntryAddr blockToDeleteInCurrPartAddr
  let blockEndAddr ← readBlockEndFromBlockEntryAddr blockToDeleteInCurrPartAddr
  let _ ← eraseBlock blockStartAddr blockEndAddr
  let currKernelStructureStart ← readPDStructurePointer currentPart
  let globalIdPDChildToDelete ← readBlockStartFromBlockEntryAddr idPDchildToDelete
  let endPDChildToDelete ← readBlockEndFromBlockEntryAddr idPDchildToDelete
  let _ ← deleteSharedBlocksRec currentPart currKernelStructureStart globalIdPDChildToDelete
  writeBlockAccessibleFromBlockEntryAddr blockToDeleteInCurrPartAddr true
  writeSh1EntryFromBlockEntryAddr blockToDeleteInCurrPartAddr nullAddr false nullAddr
  let isCut ← checkBlockCut blockToDeleteInCurrPartAddr
  if isCut then
    pure true
  else do
    let _ ← writeAccessibleRec currentPart globalIdPDChildToDelete endPDChildToDelete true
    pure true

/--
Take an empty kernel structure back from the current partition or from a child.
-/
def collect (idPD : Paddr) : LLI Paddr := do
  let currentPart ← getCurPartition
  let globalIdPD ← getGlobalIdPDCurrentOrChild currentPart idPD
  let addrIsNull ← compareAddrToNull globalIdPD
  if addrIsNull then pure nullAddr else do
  let nbPrepare ← readPDNbPrepare globalIdPD
  let zeroIdx ← Index.zero
  let one ← Index.succ zeroIdx
  let onlyInitialStructureLeft ← getBeqIdx one nbPrepare
  let isCurrentPart ← getBeqAddr globalIdPD currentPart
  if isCurrentPart && onlyInitialStructureLeft then pure nullAddr else do
  let currStructureAddr ← readPDStructurePointer globalIdPD
  let predStructureAddr ← getPDStructurePointerAddrFromPD globalIdPD
  collectStructureRec currentPart globalIdPD predStructureAddr currStructureAddr

/--
Put a block into a region of the virtual MPU of the current partition or of a child, a null block
empties the region.
-/
def mapMPU (idPD idBlockToEnable : Paddr) (MPURegionNb : Index) : LLI Bool := do
  let currentPart ← getCurPartition
  let globalIdPD ← getGlobalIdPDCurrentOrChild currentPart idPD
  let addrIsNull ← compareAddrToNull globalIdPD
  if addrIsNull then pure false else do
  let blockIsNull ← compareAddrToNull idBlockToEnable
  if blockIsNull then
    enableBlockInMPU globalIdPD nullAddr MPURegionNb
  else do
    let blockToEnableAddr ← findBlockInKSWithAddr globalIdPD idBlockToEnable
    let addrIsNull ← compareAddrToNull blockToEnableAddr
    if addrIsNull then pure false else do
    let addrIsAccessible ← readBlockAccessibleFromBlockEntryAddr blockToEnableAddr
    if !addrIsAccessible then pure false else do
    let addrIsPresent ← readBlockPresentFromBlockEntryAddr blockToEnableAddr
    if !addrIsPresent then pure false else do
    let zeroIdx ← Index.zero
    let size ← sizeOfBlock blockToEnableAddr
    let addrHasCorrectSizeIfZero ← checkMPUEntryZero blockToEnableAddr size
    if !addrHasCorrectSizeIfZero && beqIdx MPURegionNb zeroIdx then pure false else do
    removeBlockFromPhysicalMPUIfAlreadyMapped globalIdPD blockToEnableAddr
    enableBlockInMPU globalIdPD blockToEnableAddr MPURegionNb

def readMPU (idPD : Paddr) (MPURegionNb : Index) : LLI Paddr := do
  let currentPart ← getCurPartition
  let globalIdPD ← getGlobalIdPDCurrentOrChild currentPart idPD
  let addrIsNull ← compareAddrToNull globalIdPD
  if addrIsNull then pure nullAddr else do
  let zeroIdx ← Index.zero
  let isBelowZero ← Index.ltb MPURegionNb zeroIdx
  let maxMPURegions ← getMPURegionsNb
  let isAboveMPURegionsNb ← Index.leb maxMPURegions MPURegionNb
  if isBelowZero || isAboveMPURegionsNb then
    pure nullAddr
  else
    readBlockFromPhysicalMPU globalIdPD MPURegionNb

/--
Record the address of the VIDT of the current partition or of a child, null resets it.
-/
def setVIDT (pd vidtAddr : Paddr) : LLI Bool := do
  let curPd ← getCurPartition
  let globalPd ← getGlobalIdPDCurrentOrChild curPd pd
  let globalPdNull ← compareAddrToNull globalPd
  if globalPdNull then pure false else do
  let vidtAddrNull ← compareAddrToNull vidtAddr
  if vidtAddrNull then do
    writePDVidt globalPd nullAddr
    pure true
  else do
    let vidtBlock ← findBelongingBlock globalPd vidtAddr
    let vidtBlockNull ← compareAddrToNull vidtBlock
    if vidtBlockNull then pure false else do
    let present ← readBlockPresentFromBlockEntryAddr vidtBlock
    if !present then pure false else do
    let accessible ← readBlockAccessibleFromBlockEntryAddr vidtBlock
    if !accessible then pure false else do
    let vidtSize ← getVidtSize
    let vidtEndAddr ← Paddr.addPaddrIdx vidtAddr vidtSize
    let vidtBlockEndAddr ← readBlockEndFromBlockEntryAddr vidtBlock
    let overlap ← Paddr.leb vidtBlockEndAddr vidtEndAddr
    if overlap then pure false else do
    if beqAddr globalPd curPd then do
      let childPd ← readSh1PDChildFromBlockEntryAddr vidtBlock
      let childPdNull ← compareAddrToNull childPd
      if !childPdNull then pure false else do
      writePDVidt globalPd vidtAddr
      pure true
    else do
      let vidtBlockChild ← readSh1InChildLocationFromBlockEntryAddr vidtBlock
      let vidtBlockChildNull ← compareAddrToNull vidtBlockChild
      if !vidtBlockChildNull then pure false else do
      writePDVidt globalPd vidtAddr
      pure true
