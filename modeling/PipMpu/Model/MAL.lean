import PipMpu.Model.MALInternal

/-!
This module contains the memory abstraction layer `mal.c`: the reads and writes of the fields of the
partition descriptors, of the kernel structures, and of the virtual MPU of a partition.
-/

def getCurPartition : LLI Paddr := LLI.gets State.currentPartition

def getRootPartition : LLI Paddr := LLI.gets State.constantRootPartM

def updateCurPartition (descriptor : Paddr) : LLI Unit :=
  LLI.modify fun s => { s with currentPartition := descriptor }

def getKernelStructureStartAddr (blockentryaddr : Paddr) (blockentryindex : Index) : LLI Paddr :=
  pure (blockentryaddr - blockentryindex * sizeofBlockEntry)

def getBlockEntryAddrFromKernelStructureStart (kernelstartaddr : Paddr) (blockentryindex : Index)
    : LLI Paddr :=
  pure (kernelstartaddr + blockentryindex * sizeofBlockEntry)

def getSh1EntryAddrFromKernelStructureStart (kernelstartaddr : Paddr) (blockentryindex : Index)
    : LLI Paddr :=
  pure (kernelstartaddr + sh1Offset + blockentryindex * sizeofSh1Entry)

def getSCEntryAddrFromKernelStructureStart (kernelstartaddr : Paddr) (blockentryindex : Index)
    : LLI Paddr :=
  pure (kernelstartaddr + scOffset + blockentryindex * sizeofSCEntry)

/-
Partition descriptors
-/

def readPDField {α : Type} (field : PDTable → α) (pdaddr : Paddr) : LLI α :=
  LLI.gets fun s => field (s.pdtables.get pdaddr)

def modifyPDTable (pdaddr : Paddr) (f : PDTable → PDTable) : LLI Unit :=
  LLI.modify fun s => { s with pdtables := s.pdtables.set pdaddr (f (s.pdtables.get pdaddr)) }

def readPDStructurePointer : Paddr → LLI Paddr := readPDField PDTable.structurePtr
def readPDFirstFreeSlotPointer : Paddr → LLI Paddr := readPDField PDTable.firstfreeslot
def readPDNbFreeSlots : Paddr → LLI Index := readPDField PDTable.nbfreeslots
def readPDNbPrepare : Paddr → LLI Index := readPDField PDTable.nbprepare
def readPDParent : Paddr → LLI Paddr := readPDField PDTable.parent
def readPDVidt : Paddr → LLI Paddr := readPDField PDTable.vidtAddr

def writePDStructurePointer (pdaddr value : Paddr) : LLI Unit :=
  modifyPDTable pdaddr fun pd => { pd with structurePtr := value }

def writePDFirstFreeSlotPointer (pdaddr value : Paddr) : LLI Unit :=
  modifyPDTable pdaddr fun pd => { pd with firstfreeslot := value }

def writePDNbFreeSlots (pdaddr : Paddr) (value : Index) : LLI Unit :=
  modifyPDTable pdaddr fun pd => { pd with nbfreeslots := value }

def writePDNbPrepare (pdaddr : Paddr) (value : Index) : LLI Unit :=
  modifyPDTable pdaddr fun pd => { pd with nbprepare := value }

def writePDParent (pdaddr value : Paddr) : LLI Unit :=
  modifyPDTable pdaddr fun pd => { pd with parent := value }

def writePDVidt (pdaddr value : Paddr) : LLI Unit :=
  modifyPDTable pdaddr fun pd => { pd with vidtAddr := value }

/-
`DEFAULT_PD_TABLE` leaves the LUT to `clear_LUT`.
-/
def initPDTable (pdtablepaddr : Paddr) : LLI Unit :=
  modifyPDTable pdtablepaddr fun _ =>
    let defaultPDTable : PDTable := default
    { defaultPDTable with LUT := clearLUT defaultPDTable.LUT }

/-
Block entries
-/

def readBlockField {α : Type} (field : BlockEntry → α) (blockentryaddr : Paddr) : LLI α :=
  LLI.gets fun s => field (s.blockEntries.get blockentryaddr)

def modifyBlockEntry (blockentryaddr : Paddr) (f : BlockEntry → BlockEntry) : LLI Unit :=
  LLI.modify fun s =>
    { s with blockEntries := s.blockEntries.set blockentryaddr (f (s.blockEntries.get blockentryaddr)) }

def readBlockStartFromBlockEntryAddr : Paddr → LLI Paddr := readBlockField BlockEntry.startAddr
def readBlockEndFromBlockEntryAddr : Paddr → LLI Paddr := readBlockField BlockEntry.endAddr
def readBlockAccessibleFromBlockEntryAddr : Paddr → LLI Bool := readBlockField BlockEntry.accessible
def readBlockPresentFromBlockEntryAddr : Paddr → LLI Bool := readBlockField BlockEntry.present
def readBlockIndexFromBlockEntryAddr : Paddr → LLI Index := readBlockField BlockEntry.blockindex
def readBlockRFromBlockEntryAddr : Paddr → LLI Bool := readBlockField BlockEntry.read
def readBlockWFromBlockEntryAddr : Paddr → LLI Bool := readBlockField BlockEntry.write
def readBlockXFromBlockEntryAddr : Paddr → LLI Bool := readBlockField BlockEntry.exec

def writeBlockStartFromBlockEntryAddr (blockentryaddr value : Paddr) : LLI Unit :=
  modifyBlockEntry blockentryaddr fun entry => { entry with startAddr := value }

def writeBlockEndFromBlockEntryAddr (blockentryaddr value : Paddr) : LLI Unit :=
  modifyBlockEntry blockentryaddr fun entry => { entry with endAddr := value }

def writeBlockAccessibleFromBlockEntryAddr (blockentryaddr : Paddr) (value : Bool) : LLI Unit :=
  modifyBlockEntry blockentryaddr fun entry => { entry with accessible := value }

def writeBlockPresentFromBlockEntryAddr (blockentryaddr : Paddr) (value : Bool) : LLI Unit :=
  modifyBlockEntry blockentryaddr fun entry => { entry with present := value }

def writeBlockIndexFromBlockEntryAddr (blockentryaddr : Paddr) (value : Index) : LLI Unit :=
  modifyBlockEntry blockentryaddr fun entry => { entry with blockindex := value }

def writeBlockRFromBlockEntryAddr (blockentryaddr : Paddr) (value : Bool) : LLI Unit :=
  modifyBlockEntry blockentryaddr fun entry => { entry with read := value }

def writeBlockWFromBlockEntryAddr (blockentryaddr : Paddr) (value : Bool) : LLI Unit :=
  modifyBlockEntry blockentryaddr fun entry => { entry with write := value }

def writeBlockXFromBlockEntryAddr (blockentryaddr : Paddr) (value : Bool) : LLI Unit :=
  modifyBlockEntry blockentryaddr fun entry => { entry with exec := value }

def writeBlockEntryFromBlockEntryAddr (blockentryaddr : Paddr) (index : Index)
    (startAddr endAddr : Paddr) (accessible present read write exec : Bool) : LLI Unit := do
  writeBlockStartFromBlockEntryAddr blockentryaddr startAddr
  writeBlockEndFromBlockEntryAddr blockentryaddr endAddr
  writeBlockAccessibleFromBlockEntryAddr blockentryaddr accessible
  writeBlockPresentFromBlockEntryAddr blockentryaddr present
  writeBlockRFromBlockEntryAddr blockentryaddr read
  writeBlockWFromBlockEntryAddr blockentryaddr write
  writeBlockXFromBlockEntryAddr blockentryaddr exec
  writeBlockIndexFromBlockEntryAddr blockentryaddr index

/-
Shadow 1 entries
-/

def getSh1EntryAddrFromBlockEntryAddr (blockentryaddr : Paddr) : LLI Paddr := do
  let entryindex ← readBlockIndexFromBlockEntryAddr blockentryaddr
  let kernelStartAddr ← getKernelStructureStartAddr blockentryaddr entryindex
  getSh1EntryAddrFromKernelStructureStart kernelStartAddr entryindex

def readSh1Field {α : Type} (field : Sh1Entry → α) (blockentryaddr : Paddr) : LLI α := do
  let sh1entryaddr ← getSh1EntryAddrFromBlockEntryAddr blockentryaddr
  LLI.gets fun s => field (s.sh1Entries.get sh1entryaddr)

def modifySh1Entry (blockentryaddr : Paddr) (f : Sh1Entry → Sh1Entry) : LLI Unit := do
  let sh1entryaddr ← getSh1EntryAddrFromBlockEntryAddr blockentryaddr
  LLI.modify fun s =>
    { s with sh1Entries := s.sh1Entries.set sh1entryaddr (f (s.sh1Entries.get sh1entryaddr)) }

def readSh1PDChildFromBlockEntryAddr : Paddr → LLI Paddr := readSh1Field Sh1Entry.PDchild
def readSh1PDFlagFromBlockEntryAddr : Paddr → LLI Bool := readSh1Field Sh1Entry.PDflag
def readSh1InChildLocationFromBlockEntryAddr : Paddr → LLI Paddr :=
  readSh1Field Sh1Entry.inChildLocation

def writeSh1PDChildFromBlockEntryAddr (blockentryaddr value : Paddr) : LLI Unit :=
  modifySh1Entry blockentryaddr fun entry => { entry with PDchild := value }

def writeSh1PDFlagFromBlockEntryAddr (blockentryaddr : Paddr) (value : Bool) : LLI Unit :=
  modifySh1Entry blockentryaddr fun entry => { entry with PDflag := value }

def writeSh1InChildLocationFromBlockEntryAddr (blockentryaddr value : Paddr) : LLI Unit :=
  modifySh1Entry blockentryaddr fun entry => { entry with inChildLocation := value }

def writeSh1EntryFromBlockEntryAddr (blockentryaddr pdChild : Paddr) (pdFlag : Bool)
    (inChildLocation : Paddr) : LLI Unit := do
  writeSh1PDChildFromBlockEntryAddr blockentryaddr pdChild
  writeSh1PDFlagFromBlockEntryAddr blockentryaddr pdFlag
  writeSh1InChildLocationFromBlockEntryAddr blockentryaddr inChildLocation

/-
Shadow cut entries
-/

def getSCEntryAddrFromBlockEntryAddr (blockentryaddr : Paddr) : LLI Paddr := do
  let entryindex ← readBlockIndexFromBlockEntryAddr blockentryaddr
  let kernelStartAddr ← getKernelStructureStartAddr blockentryaddr entryindex
  getSCEntryAddrFromKernelStructureStart kernelStartAddr entryindex

def readSCField {α : Type} (field : SCEntry → α) (blockentryaddr : Paddr) : LLI α := do
  let scentryaddr ← getSCEntryAddrFromBlockEntryAddr blockentryaddr
  LLI.gets fun s => field (s.scEntries.get scentryaddr)

def modifySCEntry (blockentryaddr : Paddr) (f : SCEntry → SCEntry) : LLI Unit := do
  let scentryaddr ← getSCEntryAddrFromBlockEntryAddr blockentryaddr
  LLI.modify fun s =>
    { s with scEntries := s.scEntries.set scentryaddr (f (s.scEntries.get scentryaddr)) }

def readSCOriginFromBlockEntryAddr : Paddr → LLI Paddr := readSCField SCEntry.origin
def readSCNextFromBlockEntryAddr : Paddr → LLI Paddr := readSCField SCEntry.next

def writeSCOriginFromBlockEntryAddr (blockentryaddr value : Paddr) : LLI Unit :=
  modifySCEntry blockentryaddr fun entry => { entry with origin := value }

def writeSCNextFromBlockEntryAddr (blockentryaddr value : Paddr) : LLI Unit :=
  modifySCEntry blockentryaddr fun entry => { entry with next := value }

def writeSCEntryFromBlockEntryAddr (blockentryaddr origin next : Paddr) : LLI Unit := do
  writeSCOriginFromBlockEntryAddr blockentryaddr origin
  writeSCNextFromBlockEntryAddr blockentryaddr next

/-
Kernel structures
-/

def getNextAddrFromKernelStructureStart (structureaddr : Paddr) : LLI Paddr :=
  pure (structureaddr + nextOffset)

def readNextFromKernelStructureStart (structureaddr : Paddr) : LLI Paddr := do
  let nextaddr ← getNextAddrFromKernelStructureStart structureaddr
  LLI.gets fun s => s.nextPointers.get nextaddr

def writeNextFromKernelStructureStart (structureaddr newnextstructure : Paddr) : LLI Unit := do
  let nextaddr ← getNextAddrFromKernelStructureStart structureaddr
  LLI.modify fun s => { s with nextPointers := s.nextPointers.set nextaddr newnextstructure }

/-
The structure pointer is the first field of the partition descriptor.
-/
def getPDStructurePointerAddrFromPD (pdaddr : Paddr) : LLI Paddr := pure pdaddr

/--
Zero the memory from `startAddr` up to, but not including, `endAddr`.
-/
def eraseBlock (startAddr endAddr : Paddr) : LLI Bool := do
  if endAddr ≤ startAddr then
    pure false
  else do
    LLI.modify fun s =>
      { s with
        pdtables := s.pdtables.eraseRange startAddr endAddr
        blockEntries := s.blockEntries.eraseRange startAddr endAddr
        sh1Entries := s.sh1Entries.eraseRange startAddr endAddr
        scEntries := s.scEntries.eraseRange startAddr endAddr
        nextPointers := s.nextPointers.eraseRange startAddr endAddr
        bytes := s.bytes.eraseRange startAddr endAddr }
    pure true

/--
The entry must be one of the entries of the structure. For a misaligned address C leaves the difference of the
pointers undefined: here the division rounds down, so that the address is none of the entries, as the comment in
`mal.c` says. The compiled code divides as if there were no remainder and accepts such an address.
-/
def checkEntry (kstructurestart blockentryaddr : Paddr) : LLI Bool :=
  let index := (blockentryaddr - kstructurestart) / sizeofBlockEntry
  pure (kstructurestart + index * sizeofBlockEntry == blockentryaddr)

/-
`__ramStart` and `__ramEnd` of the linker script.
-/
def ramStart : Nat := 0x20000000
def ramEnd : Nat := 0x20010000

def checkBlockInRAM (blockentryaddr : Paddr) : LLI Bool := do
  let startAddr ← readBlockStartFromBlockEntryAddr blockentryaddr
  let endAddr ← readBlockEndFromBlockEntryAddr blockentryaddr
  pure (decide (ramStart ≤ startAddr) && decide (endAddr ≤ ramEnd))

def check32Aligned (addrToCheck : Paddr) : LLI Bool := pure (addrToCheck &&& 0x1F == 0)

def checkMPUEntryZero (addr : Paddr) (size : Word) : LLI Bool :=
  if size < 32 || isPowerOfTwo size == false then
    pure false
  else
    pure (addr % size == 0)

/-
Virtual MPU
-/

/--
The block entry a non-null pointer points to.
-/
def blockEntryAt (blockentryaddr : Paddr) (s : State) : Option BlockEntry :=
  if blockentryaddr = nullAddr then none else some (s.blockEntries.get blockentryaddr)

def mpuConfigureFromLUT (LUT : List Word) : LLI Unit :=
  LLI.modify fun s => { s with mpuRegs := s.mpuRegs.configureFromLUT LUT }

def readBlockFromPhysicalMPU (pd : Paddr) (MPURegionNb : Index) : LLI Paddr :=
  readPDField (fun pdt => pdt.mpu.getD MPURegionNb nullAddr) pd

def PDTable.unmapBlock (blockentryaddr : Paddr) (pdt : PDTable) (i : Index) : PDTable :=
  if pdt.mpu.getD i nullAddr = blockentryaddr then
    { pdt with
      LUT := configureLUTEntry pdt.LUT i none nullAddr
      mpu := pdt.mpu.set i nullAddr }
  else
    pdt

def removeBlockFromPhysicalMPU (pd blockentryaddr : Paddr) : LLI Unit :=
  modifyPDTable pd fun pdt => (List.range mpuRegionsNb).foldl (PDTable.unmapBlock blockentryaddr) pdt

def removeBlockFromPhysicalMPUIfNotAccessible (pd blockentryaddr : Paddr) (accessiblebit : Bool)
    : LLI Unit :=
  if !accessiblebit then
    removeBlockFromPhysicalMPU pd blockentryaddr
  else
    pure ()

def replaceBlockInPhysicalMPU (pd blockblockentryaddr : Paddr) (MPURegionNb : Index) : LLI Unit := do
  let s ← LLI.get
  let startAddr := (s.blockEntries.get blockblockentryaddr).startAddr
  modifyPDTable pd fun pdt =>
    { pdt with
      mpu := pdt.mpu.set MPURegionNb blockblockentryaddr
      LUT := configureLUTEntry pdt.LUT MPURegionNb (blockEntryAt blockblockentryaddr s) startAddr }
  -- the hardware is only reloaded for the current partition
  let cur ← getCurPartition
  if pd = cur then
    let LUT ← readPDField PDTable.LUT pd
    mpuConfigureFromLUT LUT
  else
    pure ()

def findBlockIdxInPhysicalMPU (pd blockToFind : Paddr) (defaultnb : Index) : LLI Index :=
  readPDField
    (fun pdt =>
      match (List.range mpuRegionsNb).find? (fun i => pdt.mpu.getD i nullAddr == blockToFind) with
      | some i => i
      | none => defaultnb) pd

def activate (desc : Paddr) : LLI Unit := do
  let LUT ← readPDField PDTable.LUT desc
  mpuConfigureFromLUT LUT

def updateCurPartAndActivate (calleePartDescGlobalId : Paddr) : LLI Unit := do
  updateCurPartition calleePartDescGlobalId
  activate calleePartDescGlobalId
