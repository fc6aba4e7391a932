import PipMpu.Model.ADT

/-!
This module contains the arithmetic of `malinternal.c`: the 32-bit operations on addresses and
indexes, the sizes of the kernel structures, and the computation of the MPU region that covers an
address of a block together with its encoding as a pair of MPU registers.
-/

def add32 (a b : Word) : Nat := (a + b) % wordSize

def sub32 (a b : Word) : Nat := (a + wordSize - b % wordSize) % wordSize

namespace Index

def zero : LLI Index := pure 0
def leb (x y : Index) : LLI Bool := pure (decide (x ≤ y))
def ltb (x y : Index) : LLI Bool := pure (decide (x < y))
def succ (n : Index) : LLI Index := pure (add32 n 1)
def pred (n : Index) : LLI Index := pure (sub32 n 1)
def addIdx (n m : Index) : LLI Index := pure (add32 n m)
def subIdx (n m : Index) : LLI Index := pure (sub32 n m)

end Index

namespace Paddr

def leb (x y : Paddr) : LLI Bool := pure (decide (x ≤ y))
def ltb (x y : Paddr) : LLI Bool := pure (decide (x < y))
def subPaddr (n m : Paddr) : LLI Index := pure (sub32 n m)
def addPaddrIdx (n : Paddr) (m : Index) : LLI Paddr := pure (add32 n m)

end Paddr

def beqAddr (a b : Paddr) : Bool := a == b
def beqIdx (x y : Index) : Bool := x == y
def getBeqAddr (a b : Paddr) : LLI Bool := pure (beqAddr a b)
def getBeqIdx (x y : Index) : LLI Bool := pure (beqIdx x y)
def getNullAddr : LLI Paddr := pure nullAddr
def getAddr (addr : Paddr) : LLI Paddr := pure addr

/--
The fuel of the recursive functions of `Internal.v`, `uint32_t N = 1000`.
-/
def fuelN : Nat := 1000

def roundUpTo32 (v : Word) : Word := (v + 31) / 32 * 32

def getKernelStructureEntriesNb : LLI Index := pure kernelStructureEntriesNb
def getMaxNbPrepare : LLI Index := pure maxNbPrepare
def getMPURegionsNb : LLI Index := pure mpuRegionsNb
def getMinBlockSize : LLI Index := pure 32
def getVidtSize : LLI Index := pure 228
def getPDStructureTotalLength : LLI Index := pure (roundUpTo32 sizeofPDTable)
def getKernelStructureTotalLength : LLI Index := pure (roundUpTo32 sizeofKStructure)

/--
The position of the highest bit of `v`.
-/
def powlog2 (v : Word) : Word := go 32 v 0
where
  go : Nat → Word → Word → Word
    | 0, _, r => r
    | fuel + 1, v, r => if v >>> 1 = 0 then r else go fuel (v >>> 1) (r + 1)

/--
The best power of two, from 32 on, that the address `v` is aligned on.
-/
def maxPowlog2Alignment (v : Word) : Word := if v = 0 then 31 else go 32 (v >>> 4) 4
where
  -- the `do` loop runs its body once before it looks at the next bit
  go : Nat → Word → Word → Word
    | 0, _, r => r
    | fuel + 1, v, r => if (v >>> 1) % 2 = 1 then r + 1 else go fuel (v >>> 1) (r + 1)

def isPowerOfTwo (v : Word) : Bool := v != 0 && v &&& (v - 1) == 0

def pow32 (k : Word) : Word := 2 ^ k % wordSize

namespace largestCoveringMPURegion

/--
Raise `bottom` by decreasing powers of two until it is inside of the block.
-/
def raiseBottom (startAddr top : Word) : Nat → Word → Word
  | 0, _ => top
  | fuel + 1, k =>
    let bottom := sub32 top (pow32 (k - 1))
    if bottom < startAddr then raiseBottom startAddr top fuel (k - 1) else bottom

/--
Lower `top` by decreasing powers of two until it is inside of the block.
-/
def lowerTop (endAddr bottom : Word) : Nat → Word → Word
  | 0, _ => bottom
  | fuel + 1, k =>
    let top := add32 bottom (pow32 (k - 1))
    if top > endAddr then lowerTop endAddr bottom fuel (k - 1) else top

def go (startAddr endAddr : Word) : Nat → Word → Word → Word × Word
  | 0, bottom, top => (bottom, top)
  | i + 1, bottom, top =>
    let topMaxpow2 := maxPowlog2Alignment top
    let bottomMaxpow2 := maxPowlog2Alignment bottom
    if topMaxpow2 > bottomMaxpow2 then
      let bottom := sub32 top (pow32 topMaxpow2)
      if bottom < startAddr then
        (raiseBottom startAddr top 32 topMaxpow2, top)
      else
        go startAddr endAddr i bottom top
    else
      let top := add32 bottom (pow32 bottomMaxpow2)
      if top > endAddr then
        (bottom, lowerTop endAddr bottom 32 bottomMaxpow2)
      else
        go startAddr endAddr i bottom top

end largestCoveringMPURegion

/--
The largest MPU region within the block that covers `addrtocover`, as its first address and the
first address after it.
-/
def largestCoveringMPURegion (blockentry : BlockEntry) (addrtocover : Paddr) : Paddr × Paddr :=
  let bottom := addrtocover / 32 * 32
  let top := add32 bottom 32
  largestCoveringMPURegion.go blockentry.startAddr (add32 blockentry.endAddr 1) 32 bottom top

def mpuRbarValidMsk : Word := 1 <<< 4
def mpuRbarRegionMsk : Word := 0xF
def mpuRbarAddrMsk : Word := 0xFFFFFFE0
def mpuRasrEnableMsk : Word := 1
def mpuRasrSizePos : Nat := 1
def mpuRasrSizeMsk : Word := 0x1F <<< 1
def mpuRasrAPPos : Nat := 24
def mpuRasrXNPos : Nat := 28

/--
The register pair that disables the region `entryindex`.
-/
def clearedLUTEntry (entryindex : Index) : Word × Word :=
  ((entryindex &&& 0xF) ||| mpuRbarValidMsk, 0)

/--
The register pair that maps the part of the block around `addrtocover` at the region `entryindex`.
-/
def coveringLUTEntry (entryindex : Index) (blockentry : BlockEntry) (addrtocover : Paddr)
    : Word × Word :=
  let coveringBlock := largestCoveringMPURegion blockentry addrtocover
  let size := sub32 coveringBlock.2 coveringBlock.1
  -- the region size is 2 ^ (regionsize + 1), computed in a `uint8_t`
  let regionsize := (powlog2 size % 256 + 255) % 256
  let AP := if blockentry.write then 3 else 2
  let XNbit := if blockentry.exec then 0 else 1
  (
    coveringBlock.1 ||| mpuRbarValidMsk ||| entryindex,
    mpuRasrEnableMsk ||| (regionsize <<< mpuRasrSizePos) ||| (AP <<< mpuRasrAPPos)
      ||| (XNbit <<< mpuRasrXNPos)
  )

def setLUTEntry (LUT : List Word) (entryindex : Index) (entry : Word × Word) : List Word :=
  (LUT.set (entryindex * 2) entry.1).set (entryindex * 2 + 1) entry.2

/--
Configure the LUT entry at the given index, a null block disables the region.
-/
def configureLUTEntry (LUT : List Word) (entryindex : Index) (blockentry : Option BlockEntry)
    (addrtocover : Paddr) : List Word :=
  match blockentry with
  | none => setLUTEntry LUT entryindex (clearedLUTEntry entryindex)
  | some blockentry => setLUTEntry LUT entryindex (coveringLUTEntry entryindex blockentry addrtocover)

def clearLUT (LUT : List Word) : List Word :=
  (List.range mpuRegionsNb).foldl (fun LUT i => configureLUTEntry LUT i none nullAddr) LUT

namespace MpuRegs

def writeRBAR (regs : MpuRegs) (value : Word) : MpuRegs :=
  let rnr := if value &&& mpuRbarValidMsk = 0 then regs.rnr else value &&& mpuRbarRegionMsk
  { regs with rnr, rbar := regs.rbar.set rnr (value &&& mpuRbarAddrMsk) }

def writeRASR (regs : MpuRegs) (value : Word) : MpuRegs :=
  { regs with rasr := regs.rasr.set regs.rnr value }

/--
Write the LUT to the region registers, pair after pair.
-/
def configureFromLUT (regs : MpuRegs) (LUT : List Word) : MpuRegs :=
  (List.range mpuRegionsNb).foldl
    (fun regs i => (regs.writeRBAR (LUT.getD (i * 2) 0)).writeRASR (LUT.getD (i * 2 + 1) 0)) regs

/--
The registers after `mpu_init`.
-/
def initial : MpuRegs :=
  { rnr := mpuRegionsNb - 1, rbar := List.replicate mpuRegionsNb 0, rasr := List.replicate mpuRegionsNb 0 }

end MpuRegs
