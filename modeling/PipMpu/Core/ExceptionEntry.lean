import PipMpu.Core.Yield

/-!
This module contains how a context comes to lie on the stack of a partition and how it leaves it: the
exception entry and return of the ARMv7-M processor, which push and pop the caller saved registers, and the
entry point of `exception_entrypoints.S`, which pushes the others.
-/

/--
The bits of xPSR that an exception return restores: the flags of APSR, IPSR, and the state bits of EPSR. The
others are reserved, the bit 9 of a stacked xPSR is the padding of the stack.
-/
def xpsrMask : Nat := 0xff0ffdff

/--
The registers of a partition when an exception is taken, where `sp` is the process stack pointer. `fp` holds
S0 to S31, and FPSCR at 32.
-/
structure RegisterFile where
  core : Register → Word
  fp : Nat → Word
  core_lt : ∀ r, core r < wordSize
  fp_lt : ∀ i, fp i < wordSize
  aligned : core .sp % 4 = 0
  reserved : core .xpsr &&& xpsrMask = core .xpsr

def storeWords (addr : Paddr) : List Word → LLI Unit
  | [] => pure ()
  | value :: values => do
    writeMemory addr value
    storeWords (addr + 4) values

/-
The processor
-/

def frameSizeOf (extended : Bool) : Nat := if extended then 0x68 else 0x20

def forceAlignOf (extended : Bool) (stkalign : Nat) : Nat := if extended then 1 else stkalign

/--
The frame pointer the processor computes from the stack pointer, and the bit that records the padding.
-/
def framePtrOf (extended : Bool) (stkalign : Nat) (sp : Word) : Nat :=
  sub32 sp (frameSizeOf extended) &&& not32 (forceAlignOf extended stkalign <<< 2)

def framePtrAlignOf (extended : Bool) (stkalign : Nat) (sp : Word) : Nat :=
  (sp >>> 2) &&& forceAlignOf extended stkalign

/--
xPSR as it is stacked, with the padding in bit 9.
-/
def stackedXpsr (framePtrAlign : Nat) (xpsr : Word) : Nat :=
  (xpsr &&& not32 (1 <<< 9)) ||| (framePtrAlign <<< 9)

/--
`PushStack`, with the registers of the FPU already pushed where they are pushed lazily. The result is the new
process stack pointer.
-/
def pushStack (regs : RegisterFile) (extended : Bool) (stkalign : Nat) : LLI Paddr := do
  let framePtrAlign := framePtrAlignOf extended stkalign (regs.core .sp)
  let framePtr := framePtrOf extended stkalign (regs.core .sp)
  storeWords framePtr
    (stackedRegisters.map regs.core ++ [stackedXpsr framePtrAlign (regs.core .xpsr)]
      ++ if extended then (List.range 16).map regs.fp ++ [regs.fp 32] else [])
  pure framePtr

/--
The value of a register after `PopStack`. R4 to R11 are those the kernel loaded before.
-/
def Resumption.popStack (resumption : Resumption) (m : Machine) : Register → Word
  | .r0 => readWord m.state.bytes resumption.psp
  | .r1 => readWord m.state.bytes (resumption.psp + 4)
  | .r2 => readWord m.state.bytes (resumption.psp + 8)
  | .r3 => readWord m.state.bytes (resumption.psp + 0xc)
  | .r12 => readWord m.state.bytes (resumption.psp + 0x10)
  | .lr => readWord m.state.bytes (resumption.psp + 0x14)
  | .pc => readWord m.state.bytes (resumption.psp + 0x18)
  | .xpsr => readWord m.state.bytes (resumption.psp + 0x1c) &&& xpsrMask
  | .sp =>
    let psr := readWord m.state.bytes (resumption.psp + 0x1c)
    let spMask := ((psr >>> 9) &&& forceAlignOf resumption.extended m.stkalign) <<< 2
    add32 resumption.psp (frameSizeOf resumption.extended) ||| spMask
  | .r4 => resumption.highRegs.getD 0 0
  | .r5 => resumption.highRegs.getD 1 0
  | .r6 => resumption.highRegs.getD 2 0
  | .r7 => resumption.highRegs.getD 3 0
  | .r8 => resumption.highRegs.getD 4 0
  | .r9 => resumption.highRegs.getD 5 0
  | .r10 => resumption.highRegs.getD 6 0
  | .r11 => resumption.highRegs.getD 7 0

/-
The entry point
-/

/--
Push the registers the processor has not pushed, the frame type, and the flags. The result is the address of
the context.
-/
def exceptionEntryPoint (regs : RegisterFile) (extended : Bool) (psp : Paddr) : LLI Paddr := do
  -- stmdb r0!, {r2, r4-r11}
  let r0 := sub32 psp (4 * 9)
  storeWords r0 (psp :: savedRegisters.map regs.core)
  -- vstmdbeq r0!, {s16-s31}
  let r0 ←
    if extended then do
      let r0 := sub32 r0 (4 * 16)
      storeWords r0 ((List.range 16).map fun i => regs.fp (16 + i))
      pure r0
    else
      pure r0
  -- strd r2, r3, [r0, #-8]!
  let r0 := sub32 r0 8
  storeWords r0 [if extended then 0 else 1, 0]
  pure r0

/--
An exception is taken while a partition runs with these registers.
-/
def takeException (regs : RegisterFile) (extended : Bool) : Handler Paddr := do
  let m ← .get
  let psp ← .lift (pushStack regs extended m.stkalign)
  .lift (exceptionEntryPoint regs extended psp)

/--
An exception is taken, and the context is saved.
-/
def saveOnException (regs : RegisterFile) (extended : Bool) (ctxSaveAddr : Paddr) (flagsOnWake : Word)
    : Handler Paddr := do
  let context ← takeException regs extended
  resetInitialSp context
  .lift (writeContext context ctxSaveAddr flagsOnWake)
  pure context
