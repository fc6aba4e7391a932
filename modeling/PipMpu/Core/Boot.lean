import PipMpu.Core.Exceptions
import PipMpu.Core.MALInit

/-!
This module contains the boot handler of `main.c`, which ends with the switch to the root partition.
-/

def INITIAL_XPSR : Nat := 0x01000000

def rootStackLimit : Nat := 0x20000000
def rootStackTop : Nat := 0x20000400
def rootVidtSize : Nat := 256

/--
The structure `interface_t` has ten words.
-/
def sizeofInterface : Nat := 40

/--
Write words one after the other.
-/
def writeWords : Paddr → List Word → LLI Unit
  | _, [] => pure ()
  | addr, value :: values => do
    writeMemory addr value
    writeWords (addr + 4) values

namespace Layout

variable (layout : Layout)

/--
What the root finds on its stack.
-/
def interface (partDescBlockId : Paddr) : List Word :=
  [
    partDescBlockId,
    rootStackLimit,
    rootStackTop,
    layout.rootVidtStart,
    layout.rootVidtStart + rootVidtSize,
    layout.unusedRomStart,
    layout.unusedRomStart,
    romEnd,
    layout.rootVidtStart + rootVidtSize,
    mpuRegion1End
  ]

/--
`rootPartCtx` is a local variable of the handler, its address lies on the stack of the kernel.
-/
def Boot_Handler (rootPartCtx : Paddr) : Handler HandlerOutcome := do
  let isInitialized ← .lift layout.malInit
  if !isInitialized then
    pure .panic
  else do
    let rootPartitionDescriptor ← .lift getRootPartition
    let sp := rootStackTop - sizeofInterface
    .lift (writeWords sp (layout.interface rootPartitionDescriptor))
    .lift (writeMemory (isBasicFrameAddr rootPartCtx) 1)
    .lift (writeWords (frameAddr rootPartCtx) (List.replicate basicFrameSize 0))
    .lift (writeMemory (Register.r0.basicAddr rootPartCtx) sp)
    .lift (writeMemory (Register.pc.basicAddr rootPartCtx) layout.unusedRomStart)
    .lift (writeMemory (Register.sp.basicAddr rootPartCtx) sp)
    .lift (writeMemory (Register.xpsr.basicAddr rootPartCtx) INITIAL_XPSR)
    .lift (writeMemory (pipflagsAddr rootPartCtx) 0)
    let outcome ← switchContextCont rootPartitionDescriptor 0 rootPartCtx
    pure (orPanic outcome)

end Layout
