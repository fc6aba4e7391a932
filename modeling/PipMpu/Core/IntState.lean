import PipMpu.Core.Yield

/-!
This module contains `getIntState` of `pip_interrupt_calls.c`, which reads the interrupt state of a child
through the local id of its descriptor block, and the bytes of a kernel structure it thereby reads.
-/

def wordByte (w i : Nat) : Nat := w / 256 ^ i % 256

/-
The entries as they lie in memory
-/

def BlockEntry.byte (entry : BlockEntry) (i : Nat) : Nat :=
  if i < 4 then wordByte entry.startAddr i
  else if i < 8 then wordByte entry.endAddr (i - 4)
  else if i < 12 then wordByte entry.blockindex (i - 8)
  else if i = 12 then entry.read.toNat
  else if i = 13 then entry.write.toNat
  else if i = 14 then entry.exec.toNat
  else if i = 15 then entry.present.toNat
  else entry.accessible.toNat

def Sh1Entry.byte (entry : Sh1Entry) (i : Nat) : Nat :=
  if i < 4 then wordByte entry.PDchild i
  else if i < 8 then wordByte entry.inChildLocation (i - 4)
  else entry.PDflag.toNat

def SCEntry.byte (entry : SCEntry) (i : Nat) : Nat :=
  if i < 4 then wordByte entry.origin i else wordByte entry.next (i - 4)

/--
The byte at the offset in the kernel structure. Behind the structure is memory of the partitions.
-/
def State.structureByte (s : State) (kernelStartAddr offset : Nat) : Nat :=
  if offset < sh1Offset then
    (s.blockEntries.get (kernelStartAddr + offset / sizeofBlockEntry * sizeofBlockEntry)).byte
      (offset % sizeofBlockEntry)
  else if offset < scOffset then
    let i := offset - sh1Offset
    (s.sh1Entries.get (kernelStartAddr + sh1Offset + i / sizeofSh1Entry * sizeofSh1Entry)).byte
      (i % sizeofSh1Entry)
  else if offset < nextOffset then
    let i := offset - scOffset
    (s.scEntries.get (kernelStartAddr + scOffset + i / sizeofSCEntry * sizeofSCEntry)).byte
      (i % sizeofSCEntry)
  else if offset < sizeofKStructure then
    wordByte (s.nextPointers.get (kernelStartAddr + nextOffset)) (offset - nextOffset)
  else
    s.bytes.get (kernelStartAddr + offset) % 256

def readStructureWord (kernelStartAddr offset : Nat) : LLI Word := LLI.gets fun s =>
  s.structureByte kernelStartAddr offset
    + s.structureByte kernelStartAddr (offset + 1) * 256
    + s.structureByte kernelStartAddr (offset + 2) * 65536
    + s.structureByte kernelStartAddr (offset + 3) * 16777216

/--
The offset of `interruptState` in `PDTable_t`.
-/
def interruptStateOffset : Nat := 4 * 5 + 4 * mpuRegionsNb + 4 * (mpuRegionsNb * 2) + 4

def getIntState (childPartDescBlockLocalId : Paddr) : LLI Word := do
  let currentPartDescBlockGlobalId ← getCurPartition
  let isChild ← checkChildOfCurrPart currentPartDescBlockGlobalId childPartDescBlockLocalId
  if !isChild then
    pure (wordSize - 1)
  else do
    -- the local id is the address of a block entry, not of a descriptor
    let blockindex ← readBlockIndexFromBlockEntryAddr childPartDescBlockLocalId
    let kernelStartAddr ← getKernelStructureStartAddr childPartDescBlockLocalId blockindex
    readStructureWord kernelStartAddr (blockindex * sizeofBlockEntry + interruptStateOffset)
