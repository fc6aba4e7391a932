import PipMpu.Model.MAL

/-!
This module contains the physical MPU of the Coq model: the list operations of `Lib.v` and the functions
of `MAL.v` that read and write the MPU list of a partition descriptor.
-/

namespace CoqMPU

/--
Put the element at the given index, default elements fill up a list that is too short.
-/
def addElementAt : Nat → Paddr → List Paddr → Paddr → List Paddr
  | 0, newelement, [], _ => [newelement]
  | 0, newelement, _ :: post, _ => newelement :: post
  | n + 1, newelement, [], default => default :: addElementAt n newelement [] default
  | n + 1, newelement, p :: post, default => p :: addElementAt n newelement post default

def readElementAt : Nat → List Paddr → Paddr → Paddr
  | 0, [], default => default
  | 0, p :: _, _ => p
  | _ + 1, [], default => default
  | n + 1, _ :: post, default => readElementAt n post default

def indexOf (a : Paddr) : Nat → List Paddr → Nat → Nat
  | _, [], default => default
  | idx, x :: assoc, default => if beqAddr x a then idx else indexOf a (idx + 1) assoc default

def readBlockFromPhysicalMPU (realMPU : List Paddr) (index : Index) : Paddr :=
  readElementAt index realMPU nullAddr

/--
The entry that is found leaves the list, so the entries behind it move up by one region.
-/
def removeBlockFromPhysicalMPUAux (blockentryaddr : Paddr) : List Paddr → List Paddr
  | [] => []
  | realentryaddr :: l =>
    if beqAddr realentryaddr blockentryaddr then
      l
    else
      realentryaddr :: removeBlockFromPhysicalMPUAux blockentryaddr l

def removeBlockFromPhysicalMPU (realMPU : List Paddr) (blockentryaddr : Paddr) : List Paddr :=
  removeBlockFromPhysicalMPUAux blockentryaddr realMPU

def replaceBlockInPhysicalMPU (realMPU : List Paddr) (blockentryaddr : Paddr) (MPURegionNb : Index)
    : List Paddr :=
  addElementAt MPURegionNb blockentryaddr realMPU nullAddr

def findBlockIdxInPhysicalMPU (realMPU : List Paddr) (blockToFind : Paddr) (defaultidx : Index)
    : Index :=
  indexOf blockToFind 0 realMPU defaultidx

end CoqMPU
