import PipMpu.Model.CoqMPU

/-!
This module contains the memory abstraction layer of the Coq model as far as `cutMemoryBlock` uses it: the
constants of `ADT.v`, the memory of typed entries, and the reads and writes of `MAL.v`, which are undefined
on an entry of another type.
-/

namespace CoqMAL

/--
The sizes with the axioms of `ADT.v`.
-/
structure Sizes where
  maxAddr : Nat
  maxIdx : Nat
  kernelStructureEntriesNb : Nat
  maxNbPrepare : Nat
  MPURegionsNb : Nat
  maxAddrNotZero : maxAddr > 0
  maxIdxNotZero : maxIdx > 0
  maxIdxBigEnough : maxIdx > 1
  maxIdxBiggerThanNbOfKernels : maxIdx > kernelStructureEntriesNb
  maxIdxEqualMaxAddr : maxIdx = maxAddr
  MPURegionsNbNotZero : MPURegionsNb > 0
  MPURegionsNbBelowMaxIdx : MPURegionsNb ≤ maxIdx
  KSEntriesNbNotZero : kernelStructureEntriesNb > 0
  KSEntriesNbLessThanMaxIdx : kernelStructureEntriesNb < maxIdx - 1
  maxNbPrepareNotZero : maxNbPrepare > 0
  maxNbPrepareNbLessThanMaxIdx : maxNbPrepare < maxIdx - 1

structure Block (z : Sizes) where
  startAddr : Paddr
  endAddr : Paddr
  Hsize : endAddr - startAddr ≤ z.maxIdx
  deriving DecidableEq

structure BlockEntry (z : Sizes) where
  read : Bool
  write : Bool
  exec : Bool
  present : Bool
  accessible : Bool
  blockindex : Index
  blockrange : Block z
  Hidx : blockindex < z.kernelStructureEntriesNb
  deriving DecidableEq

structure PDTable where
  structurePtr : Paddr
  firstfreeslot : Paddr
  nbfreeslots : Index
  nbprepare : Index
  parent : Paddr
  MPU : List Paddr
  vidtAddr : Paddr
  deriving DecidableEq

/--
The parameters of the model.
-/
structure Constants extends Sizes where
  constantRootPartM : Paddr
  index_d : Index
  block_d : Block toSizes
  blockentry_d : BlockEntry toSizes

inductive Value (c : Constants) where
  | BE (entry : BlockEntry c.toSizes)
  | SHE (entry : Sh1Entry)
  | SCE (entry : SCEntry)
  | PDT (entry : PDTable)
  | PADDR (addr : Paddr)
  deriving DecidableEq

structure State (c : Constants) where
  currentPartition : Paddr
  memory : List (Paddr × Value c)
  deriving DecidableEq

inductive Result (c : Constants) (α : Type) where
  | val (a : α) (s : State c)
  | undef (code : Nat) (s : State c)
  deriving DecidableEq

abbrev LLI (c : Constants) (α : Type) : Type := State c → Result c α

instance (c : Constants) : Monad (LLI c) where
  pure a := fun s => .val a s
  bind m f := fun s =>
    match m s with
    | .val a s' => f a s'
    | .undef code s' => .undef code s'

/-
Association lists
-/

def lookup {C : Type} (a : Paddr) : List (Paddr × C) → Option C
  | [] => none
  | (x, y) :: assoc => if beqAddr x a then some y else lookup a assoc

def removeDup {C : Type} (a : Paddr) : List (Paddr × C) → List (Paddr × C)
  | [] => []
  | (p, v) :: assoc => if beqAddr p a then removeDup a assoc else (p, v) :: removeDup a assoc

def add {C : Type} (a : Paddr) (v : C) (assoc : List (Paddr × C)) : List (Paddr × C) :=
  (a, v) :: removeDup a assoc

variable {c : Constants} {α : Type}

/-
Addresses and indices
-/

/--
The fuel of the recursions.
-/
def N (c : Constants) : Nat := c.maxAddr + 1

def CIndex (c : Constants) (p : Nat) : Index := if p ≤ c.maxIdx then p else c.index_d

def CPaddr (c : Constants) (p : Nat) : Paddr := if p ≤ c.maxAddr then p else 0

def CBlock (c : Constants) (startAddr endAddr : Paddr) : Block c.toSizes :=
  if h : endAddr - startAddr ≤ c.maxIdx then
    { startAddr, endAddr, Hsize := h }
  else
    c.block_d

def CBlockEntry (c : Constants) (read write exec present accessible : Bool) (blockindex : Index)
    (blockrange : Block c.toSizes) : BlockEntry c.toSizes :=
  if h : blockindex < c.kernelStructureEntriesNb then
    { read, write, exec, present, accessible, blockindex, blockrange, Hidx := h }
  else
    c.blockentry_d

def blkoffset (c : Constants) : Index := CIndex c 0
def sh1offset (c : Constants) : Index := CIndex c (blkoffset c + c.kernelStructureEntriesNb)
def scoffset (c : Constants) : Index := CIndex c (sh1offset c + c.kernelStructureEntriesNb)
def nextoffset (c : Constants) : Index := CIndex c (scoffset c + c.kernelStructureEntriesNb)

def undefined (code : Nat) : LLI c α := fun s => .undef code s

/--
`res` if it is not above the bound.
-/
def bounded (bound code res : Nat) : LLI c Nat := if res ≤ bound then pure res else undefined code

def Paddr.subPaddrIdx (n : Paddr) (m : Index) : LLI c Paddr := bounded c.maxAddr 71 (n - m)
def Paddr.subPaddr (n m : Paddr) : LLI c Index := bounded c.maxIdx 72 (n - m)

def Index.succ (n : Index) : LLI c Index := bounded c.maxIdx 68 (n + 1)
def Index.pred (n : Index) : LLI c Index := bounded c.maxIdx 71 (n - 1)
def Index.zero : LLI c Index := pure (CIndex c 0)

def getKernelStructureEntriesNb : LLI c Index := pure (CIndex c c.kernelStructureEntriesNb)
def getMPURegionsNb : LLI c Index := pure (CIndex c c.MPURegionsNb)
def getMinBlockSize : LLI c Index := pure (CIndex c 32)

def getNullAddr : LLI c Paddr := pure nullAddr

def compareAddrToNull (addr : Paddr) : LLI c Bool := do
  let null ← getNullAddr
  pure (beqAddr null addr)

def getCurPartition : LLI c Paddr := fun s => .val s.currentPartition s

/-
The entries
-/

/--
The reads look at an entry of one type. `get` gives the entry that the value holds if it is of this type.
-/
def readEntry {β : Type} (get : Value c → Option β) (field : β → α) (codes : Nat × Nat) (addr : Paddr)
    : LLI c α :=
  fun s =>
    match lookup addr s.memory with
    | some v =>
      match get v with
      | some entry => .val (field entry) s
      | none => .undef codes.1 s
    | none => .undef codes.2 s

/--
The writes replace an entry of one type.
-/
def writeEntry {β : Type} (get : Value c → Option β) (put : β → Value c) (codes : Nat × Nat) (addr : Paddr)
    (update : β → β) : LLI c Unit :=
  fun s =>
    match lookup addr s.memory with
    | some v =>
      match get v with
      | some entry => .val () { s with memory := add addr (put (update entry)) s.memory }
      | none => .undef codes.1 s
    | none => .undef codes.2 s

namespace Value

def be? : Value c → Option (BlockEntry c.toSizes)
  | BE entry => some entry
  | _ => none

def she? : Value c → Option Sh1Entry
  | SHE entry => some entry
  | _ => none

def sce? : Value c → Option SCEntry
  | SCE entry => some entry
  | _ => none

def pdt? : Value c → Option PDTable
  | PDT entry => some entry
  | _ => none

def paddr? : Value c → Option Paddr
  | PADDR addr => some addr
  | _ => none

end Value

/-
The partition descriptors
-/

def getPDTRecordField (field : PDTable → α) (pdtablepaddr : Paddr) : LLI c α :=
  readEntry Value.pdt? field (12, 11) pdtablepaddr

def writePDT (pdtablepaddr : Paddr) (update : PDTable → PDTable) : LLI c Unit :=
  writeEntry Value.pdt? Value.PDT (60, 59) pdtablepaddr update

def readPDStructurePointer : Paddr → LLI c Paddr := getPDTRecordField PDTable.structurePtr
def readPDFirstFreeSlotPointer : Paddr → LLI c Paddr := getPDTRecordField PDTable.firstfreeslot
def readPDNbFreeSlots : Paddr → LLI c Index := getPDTRecordField PDTable.nbfreeslots
def readPDParent : Paddr → LLI c Paddr := getPDTRecordField PDTable.parent
def readPDMPU : Paddr → LLI c (List Paddr) := getPDTRecordField PDTable.MPU

def writePDFirstFreeSlotPointer (pdtablepaddr firstfreeslotpaddr : Paddr) : LLI c Unit :=
  writePDT pdtablepaddr fun a => { a with firstfreeslot := firstfreeslotpaddr }

def writePDNbFreeSlots (pdtablepaddr : Paddr) (nbfreeslots : Index) : LLI c Unit :=
  writePDT pdtablepaddr fun a => { a with nbfreeslots }

def writePDMPU (pdtablepaddr : Paddr) (MPUlist : List Paddr) : LLI c Unit :=
  writePDT pdtablepaddr fun a => { a with MPU := MPUlist }

/-
The block entries
-/

def getBlockRecordField (field : BlockEntry c.toSizes → α) (addr : Paddr) : LLI c α :=
  readEntry Value.be? field (12, 11) addr

def writeBE (paddr : Paddr) (update : BlockEntry c.toSizes → BlockEntry c.toSizes) : LLI c Unit :=
  writeEntry Value.be? Value.BE (60, 59) paddr update

def readBlockStartFromBlockEntryAddr (addr : Paddr) : LLI c Paddr := do
  let blockrange ← getBlockRecordField BlockEntry.blockrange addr
  pure blockrange.startAddr

def readBlockEndFromBlockEntryAddr (addr : Paddr) : LLI c Paddr := do
  let blockrange ← getBlockRecordField BlockEntry.blockrange addr
  pure blockrange.endAddr

def readBlockAccessibleFromBlockEntryAddr : Paddr → LLI c Bool := getBlockRecordField BlockEntry.accessible
def readBlockPresentFromBlockEntryAddr : Paddr → LLI c Bool := getBlockRecordField BlockEntry.present
def readBlockRFromBlockEntryAddr : Paddr → LLI c Bool := getBlockRecordField BlockEntry.read
def readBlockWFromBlockEntryAddr : Paddr → LLI c Bool := getBlockRecordField BlockEntry.write
def readBlockXFromBlockEntryAddr : Paddr → LLI c Bool := getBlockRecordField BlockEntry.exec
def readBlockIndexFromBlockEntryAddr : Paddr → LLI c Index := getBlockRecordField BlockEntry.blockindex

def writeBlockStartFromBlockEntryAddr (paddr newstartaddr : Paddr) : LLI c Unit :=
  writeBE paddr fun a =>
    CBlockEntry c a.read a.write a.exec a.present a.accessible a.blockindex
      (CBlock c newstartaddr a.blockrange.endAddr)

def writeBlockEndFromBlockEntryAddr (paddr newendaddr : Paddr) : LLI c Unit :=
  writeBE paddr fun a =>
    CBlockEntry c a.read a.write a.exec a.present a.accessible a.blockindex
      (CBlock c a.blockrange.startAddr newendaddr)

def writeBlockAccessibleFromBlockEntryAddr (paddr : Paddr) (accessiblebit : Bool) : LLI c Unit :=
  writeBE paddr fun a =>
    CBlockEntry c a.read a.write a.exec a.present accessiblebit a.blockindex a.blockrange

def writeBlockPresentFromBlockEntryAddr (paddr : Paddr) (presentbit : Bool) : LLI c Unit :=
  writeBE paddr fun a =>
    CBlockEntry c a.read a.write a.exec presentbit a.accessible a.blockindex a.blockrange

def writeBlockRFromBlockEntryAddr (paddr : Paddr) (newread : Bool) : LLI c Unit :=
  writeBE paddr fun a =>
    CBlockEntry c newread a.write a.exec a.present a.accessible a.blockindex a.blockrange

def writeBlockWFromBlockEntryAddr (paddr : Paddr) (newwrite : Bool) : LLI c Unit :=
  writeBE paddr fun a =>
    CBlockEntry c a.read newwrite a.exec a.present a.accessible a.blockindex a.blockrange

def writeBlockXFromBlockEntryAddr (paddr : Paddr) (newexec : Bool) : LLI c Unit :=
  writeBE paddr fun a =>
    CBlockEntry c a.read a.write newexec a.present a.accessible a.blockindex a.blockrange

/-
The kernel structures
-/

def getKernelStructureStartAddr (blockentryaddr : Paddr) (blockindex : Index) : LLI c Paddr :=
  Paddr.subPaddrIdx blockentryaddr blockindex

def getBlockEntryAddrFromKernelStructureStart (kernelStartAddr : Paddr) (BlockEntryIndex : Index) : LLI c Paddr :=
  pure (CPaddr c (kernelStartAddr + blkoffset c + BlockEntryIndex))

def getSh1EntryAddrFromKernelStructureStart (kernelStartAddr : Paddr) (BlockEntryIndex : Index) : LLI c Paddr :=
  pure (CPaddr c (kernelStartAddr + sh1offset c + BlockEntryIndex))

def getSCEntryAddrFromKernelStructureStart (kernelStartAddr : Paddr) (BlockEntryIndex : Index) : LLI c Paddr :=
  pure (CPaddr c (kernelStartAddr + scoffset c + BlockEntryIndex))

def getSh1EntryAddrFromBlockEntryAddr (blockentryaddr : Paddr) : LLI c Paddr := do
  let BlockEntryIndex ← readBlockIndexFromBlockEntryAddr blockentryaddr
  let kernelStartAddr ← getKernelStructureStartAddr blockentryaddr BlockEntryIndex
  getSh1EntryAddrFromKernelStructureStart kernelStartAddr BlockEntryIndex

def readSh1PDChildFromBlockEntryAddr (blockentryaddr : Paddr) : LLI c Paddr := do
  let Sh1EAddr ← getSh1EntryAddrFromBlockEntryAddr blockentryaddr
  readEntry Value.she? Sh1Entry.PDchild (12, 11) Sh1EAddr

def getSCEntryAddrFromBlockEntryAddr (blockentryaddr : Paddr) : LLI c Paddr := do
  let BlockEntryIndex ← readBlockIndexFromBlockEntryAddr blockentryaddr
  let kernelStartAddr ← getKernelStructureStartAddr blockentryaddr BlockEntryIndex
  getSCEntryAddrFromKernelStructureStart kernelStartAddr BlockEntryIndex

def getSCRecordField (field : SCEntry → α) (addr : Paddr) : LLI c α :=
  readEntry Value.sce? field (12, 11) addr

def writeSCE (addr : Paddr) (update : SCEntry → SCEntry) : LLI c Unit :=
  writeEntry Value.sce? Value.SCE (12, 11) addr update

def readSCOriginFromBlockEntryAddr (blockentryaddr : Paddr) : LLI c Paddr := do
  let SCEAddr ← getSCEntryAddrFromBlockEntryAddr blockentryaddr
  getSCRecordField SCEntry.origin SCEAddr

def readSCNextFromBlockEntryAddr (blockentryaddr : Paddr) : LLI c Paddr := do
  let SCEAddr ← getSCEntryAddrFromBlockEntryAddr blockentryaddr
  getSCRecordField SCEntry.next SCEAddr

def writeSCOriginFromBlockEntryAddr (blockentryaddr neworigin : Paddr) : LLI c Unit := do
  let SCEAddr ← getSCEntryAddrFromBlockEntryAddr blockentryaddr
  writeSCE SCEAddr fun a => { a with origin := neworigin }

def writeSCNextFromBlockEntryAddr (paddr newnext : Paddr) : LLI c Unit := do
  let SCEAddr ← getSCEntryAddrFromBlockEntryAddr paddr
  writeSCE SCEAddr fun a => { a with next := newnext }

def getNextAddrFromKernelStructureStart (kernelStartAddr : Paddr) : LLI c Paddr :=
  pure (CPaddr c (kernelStartAddr + nextoffset c))

def readNextFromKernelStructureStart (structurepaddr : Paddr) : LLI c Paddr := do
  let nextaddr ← getNextAddrFromKernelStructureStart structurepaddr
  readEntry Value.paddr? id (12, 11) nextaddr

def checkEntry (_kernelstructurestart blockentryaddr : Paddr) : LLI c Bool := fun s =>
  match lookup blockentryaddr s.memory with
  | some (.BE _) => .val true s
  | some _ => .val false s
  | none => .val false s

def check32Aligned (addrToCheck : Paddr) : LLI c Bool := pure (addrToCheck % 32 == 0)

/-
The physical MPU
-/

def removeBlockFromPhysicalMPU (pd blockentryaddr : Paddr) : LLI c Unit := do
  let realMPU ← readPDMPU pd
  writePDMPU pd (CoqMPU.removeBlockFromPhysicalMPU realMPU blockentryaddr)

def removeBlockFromPhysicalMPUIfNotAccessible (pd blockentryaddr : Paddr) (accessiblebit : Bool) : LLI c Unit :=
  if !accessiblebit then
    removeBlockFromPhysicalMPU pd blockentryaddr
  else
    pure ()

def replaceBlockInPhysicalMPU (pd blockentryaddr : Paddr) (MPURegionNb : Index) : LLI c Unit := do
  let realMPU ← readPDMPU pd
  writePDMPU pd (CoqMPU.replaceBlockInPhysicalMPU realMPU blockentryaddr MPURegionNb)

def findBlockIdxInPhysicalMPU (idPD blockToFind : Paddr) (defaultidx : Index) : LLI c Index := do
  let realMPU ← readPDMPU idPD
  let foundidx := CoqMPU.findBlockIdxInPhysicalMPU realMPU blockToFind defaultidx
  pure (CIndex c foundidx)

end CoqMAL
