import PipMpu.Core.Internal

/-!
This module contains `malinit.c`, which creates the root partition at the boot, and the addresses it gets
from the linker script.
-/

/-
The linker script gives the root all of the RAM but the last 4K, in two regions, and the ROM after the kernel.
-/
def mpuRegion0Start : Nat := 0x20000000
def mpuRegion0End : Nat := 0x20008000
def mpuRegion1Start : Nat := 0x20008000
def mpuRegion1End : Nat := 0x2000F000
def pipRamStart : Nat := 0x2000F000
def romEnd : Nat := 0x80000

/--
The addresses that depend on the size of the code: the static objects of `malinit.c`, which lie in the RAM of
the kernel, the end of the code of the kernel in the ROM, where the code of the root starts, and the VIDT of
the root.
-/
structure Layout where
  rootPartDesc : Nat
  rootKernStruct : Nat
  unusedRomStart : Nat
  rootVidtStart : Nat
  rootPartDesc_le : pipRamStart ≤ rootPartDesc ∧ rootPartDesc + sizeofPDTable ≤ ramEnd
  rootKernStruct_le : pipRamStart ≤ rootKernStruct ∧ rootKernStruct + sizeofKStructure ≤ ramEnd
  apart : rootPartDesc + sizeofPDTable ≤ rootKernStruct ∨ rootKernStruct + sizeofKStructure ≤ rootPartDesc
  unusedRomStart_lt : unusedRomStart + 32 ≤ romEnd

def updateRootPartition (partition : Paddr) : LLI Unit :=
  LLI.modify fun s => { s with constantRootPartM := partition }

def initMPU : LLI Unit :=
  LLI.modify fun s => { s with mpuRegs := MpuRegs.initial }

def addressMinusOne (address : Paddr) : Paddr := sub32 address 1

namespace Layout

variable (layout : Layout)

/-
The result `false` stands for a panic.
-/
def initializeRootPartitionDescriptor : LLI Bool := do
  let rootPartDescEndAddr := layout.rootPartDesc + sizeofPDTable
  let isBlockErased ← eraseBlock layout.rootPartDesc rootPartDescEndAddr
  if !isBlockErased then
    pure false
  else do
    initPDTable layout.rootPartDesc
    pure true

def initializeRootKernelStructure : LLI Bool := do
  let rootKernStructEndAddr := layout.rootKernStruct + sizeofKStructure
  initStructure layout.rootKernStruct rootKernStructEndAddr

def prepareRootPartition : LLI Unit := do
  writePDStructurePointer layout.rootPartDesc layout.rootKernStruct
  writePDFirstFreeSlotPointer layout.rootPartDesc layout.rootKernStruct
  writePDNbFreeSlots layout.rootPartDesc kernelStructureEntriesNb
  writePDNbPrepare layout.rootPartDesc 1

/--
Insert the region as a block of the root, the end of the block is the last address of the region.
-/
def insertRegion (regionStart regionEnd : Paddr) (r w e : Bool) : LLI Paddr := do
  let nbfreeslots ← readPDNbFreeSlots layout.rootPartDesc
  insertNewEntry layout.rootPartDesc regionStart (addressMinusOne regionEnd) regionStart r w e nbfreeslots

def createAndRegisterRootPartition : LLI Bool := do
  let isDescriptorInitialized ← layout.initializeRootPartitionDescriptor
  if !isDescriptorInitialized then pure false else do
  let isStructureInitialized ← layout.initializeRootKernelStructure
  if !isStructureInitialized then pure false else do
  layout.prepareRootPartition
  let mpuRegion0Id ← layout.insertRegion mpuRegion0Start mpuRegion0End true true false
  let mpuRegion1Id ← layout.insertRegion mpuRegion1Start mpuRegion1End true true false
  let mpuRegion2Id ← layout.insertRegion layout.unusedRomStart romEnd true true true
  let _ ← enableBlockInMPU layout.rootPartDesc mpuRegion0Id 0
  let _ ← enableBlockInMPU layout.rootPartDesc mpuRegion1Id 1
  let _ ← enableBlockInMPU layout.rootPartDesc mpuRegion2Id 2
  writePDVidt layout.rootPartDesc layout.rootVidtStart
  updateRootPartition layout.rootPartDesc
  pure true

def malInit : LLI Bool := do
  initMPU
  layout.createAndRegisterRootPartition

/--
The boot handler initialises the memory abstraction layer and switches to the root.
-/
def boot : LLI Bool := do
  let isInitialized ← layout.malInit
  if !isInitialized then
    pure false
  else do
    updateCurPartAndActivate layout.rootPartDesc
    pure true

end Layout
