import PipMpu.Util.Mem

/-!
This module contains the data types shared by the services and the memory abstraction layer: the
structures of `ADT.h`, the constants they are sized with, the machine state, and the state monad
`LLI` in which the services are written.
-/

abbrev Paddr := Nat
abbrev Index := Nat
abbrev Word := Nat

def nullAddr : Nat := 0

/--
The range of `uint32_t`.
-/
def wordSize : Nat := 2 ^ 32

theorem wordSize_eq : wordSize = 4294967296 := by rfl

def kernelStructureEntriesNb : Nat := 1 <<< 3
def maxNbPrepare : Nat := 1 <<< 3
def mpuRegionsNb : Nat := 8

/-
The sizes of the packed structures and the offsets of the fields of `KStructure_t`, in bytes.
-/
def sizeofBlockEntry : Nat := 17
def sizeofSh1Entry : Nat := 9
def sizeofSCEntry : Nat := 8
def sh1Offset : Nat := kernelStructureEntriesNb * sizeofBlockEntry
def scOffset : Nat := sh1Offset + kernelStructureEntriesNb * sizeofSh1Entry
def nextOffset : Nat := scOffset + kernelStructureEntriesNb * sizeofSCEntry
def sizeofKStructure : Nat := nextOffset + 4
def sizeofPDTable : Nat := 124

structure BlockEntry where
  startAddr : Nat
  endAddr : Nat
  blockindex : Nat
  read : Bool
  write : Bool
  exec : Bool
  present : Bool
  accessible : Bool
  deriving DecidableEq, Repr

instance : Inhabited BlockEntry where
  default :=
    {
        startAddr := 0
        endAddr := 0
        blockindex := 0
        read := false
        write := false
        exec := false
        present := false
        accessible := false
    }

/--
A readable and writable block.
-/
def ramBlock (startAddr endAddr : Paddr) (blockindex : Index) (accessible : Bool) : BlockEntry :=
  {
      startAddr
      endAddr
      blockindex
      read := true
      write := true
      exec := false
      present := true
      accessible
  }

structure Sh1Entry where
  PDchild : Nat
  PDflag : Bool
  inChildLocation : Nat
  deriving DecidableEq, Repr

instance : Inhabited Sh1Entry where
  default := { PDchild := 0, PDflag := false, inChildLocation := 0 }

structure SCEntry where
  origin : Nat
  next : Nat
  deriving DecidableEq, Repr

instance : Inhabited SCEntry where
  default := { origin := 0, next := 0 }

structure PDTable where
  structurePtr : Nat
  firstfreeslot : Nat
  nbfreeslots : Nat
  nbprepare : Nat
  parent : Nat
  mpu : List Nat
  LUT : List Nat
  vidtAddr : Nat
  interruptState : Nat
  deriving DecidableEq, Repr

instance : Inhabited PDTable where
  default :=
    {
        structurePtr := 0
        firstfreeslot := 0
        nbfreeslots := 0
        nbprepare := 0
        parent := 0
        mpu := List.replicate mpuRegionsNb 0
        LUT := List.replicate (mpuRegionsNb * 2) 0
        vidtAddr := 0
        interruptState := 0
    }

/--
The region registers of the hardware MPU, `rnr` selects the region that a write to RASR reaches.
-/
structure MpuRegs where
  rnr : Nat
  rbar : List Nat
  rasr : List Nat
  deriving DecidableEq, Repr

/--
The machine state. Kernel objects live in one memory per object type, each indexed by the address
of the object; `bytes` is the memory of the partitions themselves.
-/
structure State where
  currentPartition : Nat
  constantRootPartM : Nat
  pdtables : Mem PDTable
  blockEntries : Mem BlockEntry
  sh1Entries : Mem Sh1Entry
  scEntries : Mem SCEntry
  nextPointers : Mem Nat
  bytes : Mem Nat
  mpuRegs : MpuRegs
  deriving DecidableEq, Repr

abbrev LLI (α : Type) : Type := State → α × State

namespace LLI

instance : Monad LLI where
  pure value := fun s => (value, s)
  bind m f := fun s => f (m s).1 (m s).2

def get : LLI State := fun s => (s, s)

def gets {α : Type} (f : State → α) : LLI α := fun s => (f s, s)

def modify (f : State → State) : LLI Unit := fun s => ((), f s)

variable {α β : Type}

@[simp]
theorem pure_run (value : α) (s : State) : (pure value : LLI α) s = (value, s) := by
  rfl

@[simp]
theorem bind_run (m : LLI α) (f : α → LLI β) (s : State) : (m >>= f) s = f (m s).1 (m s).2 := by
  rfl

@[simp]
theorem get_run (s : State) : get s = (s, s) := by
  rfl

@[simp]
theorem gets_run (f : State → α) (s : State) : gets f s = (f s, s) := by
  rfl

@[simp]
theorem modify_run (f : State → State) (s : State) : modify f s = ((), f s) := by
  rfl

@[simp]
theorem ite_run (c : Prop) [Decidable c] (m n : LLI α) (s : State)
    : (if c then m else n) s = if c then m s else n s := by
  split <;> rfl

end LLI
