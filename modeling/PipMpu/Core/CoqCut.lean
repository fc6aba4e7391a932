import PipMpu.Model.CoqMAL

/-!
This module contains `cutMemoryBlock` and the internal functions it calls, over the memory abstraction layer
of the Coq model.
-/

namespace CoqMAL

variable {c : Constants}

/-
Searching a block
-/

def findExactBlockComp (entryaddr startaddr endaddr : Paddr) : LLI c Bool := do
  let blockstart ← readBlockStartFromBlockEntryAddr entryaddr
  let blockend ← readBlockEndFromBlockEntryAddr entryaddr
  if beqAddr blockstart startaddr then
    if beqAddr blockend endaddr then pure true else pure false
  else
    pure false

def findExactBlockInKSInStructAux : Nat → Index → Paddr → Paddr → Paddr → LLI c Paddr
  | 0, _, _, _, _ => getNullAddr
  | timeout1 + 1, currentidx, currentkernelstructure, startaddr, endaddr => do
    let entryaddr ← getBlockEntryAddrFromKernelStructureStart currentkernelstructure currentidx
    let ispresent ← readBlockPresentFromBlockEntryAddr entryaddr
    let matchcomp ← findExactBlockComp entryaddr startaddr endaddr
    if ispresent && matchcomp then
      pure entryaddr
    else do
      let maxentriesnb ← getKernelStructureEntriesNb
      let nextidx ← Index.succ currentidx
      if decide (nextidx < maxentriesnb) then
        findExactBlockInKSInStructAux timeout1 nextidx currentkernelstructure startaddr endaddr
      else
        pure nullAddr

def findExactBlockInKSAux : Nat → Paddr → Paddr → Paddr → LLI c Paddr
  | 0, _, _, _ => getNullAddr
  | timeout1 + 1, currentkernelstructure, idblock, endblock => do
    let zeroIdx ← Index.zero
    let foundblock ← findExactBlockInKSInStructAux (N c) zeroIdx currentkernelstructure idblock endblock
    let foundblockisnull ← compareAddrToNull foundblock
    if !foundblockisnull then
      pure foundblock
    else do
      let nextkernelstructure ← readNextFromKernelStructureStart currentkernelstructure
      let nextKSisnull ← compareAddrToNull nextkernelstructure
      if nextKSisnull then
        pure nullAddr
      else
        findExactBlockInKSAux timeout1 nextkernelstructure idblock endblock

def findExactBlockInKS (idPD idBlock endBlock : Paddr) : LLI c Paddr := do
  let kernelstructurestart ← readPDStructurePointer idPD
  let isnull ← compareAddrToNull kernelstructurestart
  if isnull then
    pure nullAddr
  else
    findExactBlockInKSAux c.maxNbPrepare kernelstructurestart idBlock endBlock

def findBlockInKSWithAddrAux : Nat → Paddr → Paddr → LLI c Paddr
  | 0, _, _ => getNullAddr
  | timeout1 + 1, currentkernelstructure, blockEntryAddr => do
    let zeroIdx ← Index.zero
    let maxEntryAddrInStructure ← getSh1EntryAddrFromKernelStructureStart currentkernelstructure zeroIdx
    if decide (currentkernelstructure ≤ blockEntryAddr) && decide (blockEntryAddr < maxEntryAddrInStructure) then do
      let entryExists ← checkEntry currentkernelstructure blockEntryAddr
      if !entryExists then
        pure nullAddr
      else do
        let isPresent ← readBlockPresentFromBlockEntryAddr blockEntryAddr
        if isPresent then pure blockEntryAddr else pure nullAddr
    else do
      let nextKernelStructure ← readNextFromKernelStructureStart currentkernelstructure
      let isnull ← compareAddrToNull nextKernelStructure
      if isnull then
        pure nullAddr
      else
        findBlockInKSWithAddrAux timeout1 nextKernelStructure blockEntryAddr

def findBlockInKSWithAddr (idPD blockEntryAddr : Paddr) : LLI c Paddr := do
  let kernelstructurestart ← readPDStructurePointer idPD
  let isnull ← compareAddrToNull kernelstructurestart
  if isnull then
    pure nullAddr
  else
    findBlockInKSWithAddrAux c.maxNbPrepare kernelstructurestart blockEntryAddr

/-
The ancestors
-/

def writeAccessibleRecAux : Nat → Paddr → Paddr → Paddr → Bool → LLI c Bool
  | 0, _, _, _, _ => pure false
  | timeout1 + 1, pdbasepartition, idblock, endblock, accessiblebit =>
    if beqAddr pdbasepartition c.constantRootPartM then
      pure true
    else do
      let pdparent ← readPDParent pdbasepartition
      let blockInParentPartitionAddr ← findExactBlockInKS pdparent idblock endblock
      let addrIsNull ← compareAddrToNull blockInParentPartitionAddr
      if addrIsNull then
        pure false
      else do
        writeBlockAccessibleFromBlockEntryAddr blockInParentPartitionAddr accessiblebit
        removeBlockFromPhysicalMPUIfNotAccessible pdparent blockInParentPartitionAddr accessiblebit
        writeAccessibleRecAux timeout1 pdparent idblock endblock accessiblebit

def writeAccessibleRec (pdbasepartition idblock endblock : Paddr) (accessiblebit : Bool) : LLI c Bool :=
  writeAccessibleRecAux (N c) pdbasepartition idblock endblock accessiblebit

def writeAccessibleToAncestorsIfNotCutRec (pdbasepartition blockentryaddr : Paddr) (accessiblebit : Bool)
    : LLI c Bool := do
  let blockOrigin ← readSCOriginFromBlockEntryAddr blockentryaddr
  let blockStart ← readBlockStartFromBlockEntryAddr blockentryaddr
  let blockNext ← readSCNextFromBlockEntryAddr blockentryaddr
  let globalIdBlock ← readBlockStartFromBlockEntryAddr blockentryaddr
  let globalEndBlock ← readBlockEndFromBlockEntryAddr blockentryaddr
  if beqAddr blockStart blockOrigin && beqAddr blockNext nullAddr then do
    let recWriteEnded ← writeAccessibleRec pdbasepartition globalIdBlock globalEndBlock accessiblebit
    if !recWriteEnded then pure false else pure true
  else
    pure true

/-
The new entry and the MPU
-/

def insertNewEntry (pdinsertion startaddr endaddr origin : Paddr) (r w e : Bool) (currnbfreeslots : Index)
    : LLI c Paddr := do
  let newBlockEntryAddr ← readPDFirstFreeSlotPointer pdinsertion
  let newFirstFreeSlotAddr ← readBlockEndFromBlockEntryAddr newBlockEntryAddr
  let predCurrentNbFreeSlots ← Index.pred currnbfreeslots
  writePDFirstFreeSlotPointer pdinsertion newFirstFreeSlotAddr
  writePDNbFreeSlots pdinsertion predCurrentNbFreeSlots
  writeBlockStartFromBlockEntryAddr newBlockEntryAddr startaddr
  writeBlockEndFromBlockEntryAddr newBlockEntryAddr endaddr
  writeBlockPresentFromBlockEntryAddr newBlockEntryAddr true
  writeBlockAccessibleFromBlockEntryAddr newBlockEntryAddr true
  writeBlockRFromBlockEntryAddr newBlockEntryAddr r
  writeBlockWFromBlockEntryAddr newBlockEntryAddr w
  writeBlockXFromBlockEntryAddr newBlockEntryAddr e
  writeSCOriginFromBlockEntryAddr newBlockEntryAddr origin
  pure newBlockEntryAddr

def enableBlockInMPU (idPD blockentryaddr : Paddr) (MPURegionNb : Index) : LLI c Bool := do
  let zeroIdx ← Index.zero
  let maxMPURegions ← getMPURegionsNb
  if decide (MPURegionNb < zeroIdx) || decide (maxMPURegions ≤ MPURegionNb) then
    pure false
  else do
    replaceBlockInPhysicalMPU idPD blockentryaddr MPURegionNb
    pure true

/-
The service
-/

/--
The cut itself, when all checks have passed.
-/
def cutBlock (currentPart blockToCutEntryAddr cutAddr : Paddr) (nbFreeSlots MPURegionNb : Index)
    : LLI c Paddr := do
  let _ ← writeAccessibleToAncestorsIfNotCutRec currentPart blockToCutEntryAddr false
  let blockEndAddr ← readBlockEndFromBlockEntryAddr blockToCutEntryAddr
  let blockOrigin ← readSCOriginFromBlockEntryAddr blockToCutEntryAddr
  let blockR ← readBlockRFromBlockEntryAddr blockToCutEntryAddr
  let blockW ← readBlockWFromBlockEntryAddr blockToCutEntryAddr
  let blockX ← readBlockXFromBlockEntryAddr blockToCutEntryAddr
  let idNewSubblock ← insertNewEntry currentPart cutAddr blockEndAddr blockOrigin blockR blockW blockX nbFreeSlots
  writeBlockEndFromBlockEntryAddr blockToCutEntryAddr cutAddr
  -- the default index of a block that is not mapped
  let kernelentriesnb ← getKernelStructureEntriesNb
  let defaultidx ← Index.succ kernelentriesnb
  let blockMPURegionNb ← findBlockIdxInPhysicalMPU currentPart blockToCutEntryAddr defaultidx
  let _ ← enableBlockInMPU currentPart blockToCutEntryAddr blockMPURegionNb
  let originalNextSubblock ← readSCNextFromBlockEntryAddr blockToCutEntryAddr
  writeSCNextFromBlockEntryAddr idNewSubblock originalNextSubblock
  writeSCNextFromBlockEntryAddr blockToCutEntryAddr idNewSubblock
  let _ ← enableBlockInMPU currentPart idNewSubblock MPURegionNb
  pure idNewSubblock

def cutMemoryBlock (idBlockToCut cutAddr : Paddr) (MPURegionNb : Index) : LLI c Paddr := do
  let currentPart ← getCurPartition
  let nbFreeSlots ← readPDNbFreeSlots currentPart
  let zeroIdx ← Index.zero
  if decide (nbFreeSlots ≤ zeroIdx) then pure nullAddr else do
  let blockToCutEntryAddr ← findBlockInKSWithAddr currentPart idBlockToCut
  let addrIsNull ← compareAddrToNull blockToCutEntryAddr
  if addrIsNull then pure nullAddr else do
  let blockIsAccessible ← readBlockAccessibleFromBlockEntryAddr blockToCutEntryAddr
  if !blockIsAccessible then pure nullAddr else do
  let PDChildAddr ← readSh1PDChildFromBlockEntryAddr blockToCutEntryAddr
  let PDChildAddrIsNull ← compareAddrToNull PDChildAddr
  if !PDChildAddrIsNull then pure nullAddr else do
  let blockToCutStartAddr ← readBlockStartFromBlockEntryAddr blockToCutEntryAddr
  if decide (cutAddr ≤ blockToCutStartAddr) then pure nullAddr else do
  let blockToCutEndAddr ← readBlockEndFromBlockEntryAddr blockToCutEntryAddr
  if decide (blockToCutEndAddr ≤ cutAddr) then pure nullAddr else do
  let subblock1Size ← Paddr.subPaddr cutAddr blockToCutStartAddr
  let subblock2Size ← Paddr.subPaddr blockToCutEndAddr cutAddr
  let minBlockSize ← getMinBlockSize
  if decide (subblock1Size < minBlockSize) || decide (subblock2Size < minBlockSize) then pure nullAddr else do
  let isCutAddrValid ← check32Aligned cutAddr
  if !isCutAddrValid then pure nullAddr else
  cutBlock currentPart blockToCutEntryAddr cutAddr nbFreeSlots MPURegionNb

end CoqMAL
