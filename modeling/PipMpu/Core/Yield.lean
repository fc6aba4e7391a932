import PipMpu.Core.Internal
import PipMpu.Model.Machine

/-!
This module contains the interrupt state calls of `pip_interrupt_calls.c` and the continuation functions
of `yield_c.c` through which yields, interrupts and faults switch from one context to another.
-/

inductive YieldReturnCode where
  | yieldSuccess
  | calleeInvalidVidtIndex
  | callerInvalidVidtIndex
  | calleeNotChildOfCaller
  | calleeIsParentOfRoot
  | callerVidtIsNull
  | callerVidtIsNotPresent
  | callerVidtIsNotAccessible
  | callerVidtBlockTooSmall
  | calleeVidtIsNull
  | calleeVidtIsNotPresent
  | calleeVidtIsNotAccessible
  | calleeVidtBlockTooSmall
  | callerContextBlockNotFound
  | callerContextBlockIsNotPresent
  | callerContextBlockIsNotAccessible
  | callerContextBlockIsNotWritable
  | callerContextExceedBlockEnd
  | callerContextMisaligned
  | calleeContextBlockNotFound
  | calleeContextBlockIsNotPresent
  | calleeContextBlockIsNotAccessible
  | calleeContextBlockIsNotReadable
  | calleeContextExceedBlockEnd
  | calleeContextMisaligned
  deriving DecidableEq, Repr

/--
What a partition is resumed with: the context that was loaded, the frame the processor unstacks from
`psp`, and the registers R4 to R11.
-/
structure Resumption where
  partition : Paddr
  context : Paddr
  extended : Bool
  psp : Word
  highRegs : List Word
  deriving DecidableEq, Repr

/--
The functions of `yield_c.c` return an error code, or they do not return because a context was loaded.
-/
inductive YieldOutcome where
  | returned (code : YieldReturnCode)
  | resumed (resumption : Resumption)
  deriving DecidableEq, Repr

/-
The interrupt state
-/

def getSelfIntState : LLI Word := do
  let currentPart ← getCurPartition
  readPDField PDTable.interruptState currentPart

def kernelSetIntState (interruptState : Word) : LLI Unit := do
  let currentPart ← getCurPartition
  modifyPDTable currentPart fun pd => { pd with interruptState }

/--
`1 << (8 - __NVIC_PRIO_BITS)`
-/
def basepriMasking : Nat := 1 <<< (8 - 3)

def setIntState (interruptState : Word) : Handler Unit := do
  .lift (kernelSetIntState interruptState)
  let currentPart ← .lift getCurPartition
  let rootPart ← .lift getRootPartition
  if currentPart = rootPart then
    if interruptState = 0 then
      setBASEPRI basepriMasking
    else
      setBASEPRI 0
  else
    pure ()

/-
Loading a context
-/

def not32 (value : Word) : Nat := wordSize - 1 - value

/--
Copy registers of a context to the words of the frame from `i` on.
-/
def stackRegisters (frame : Paddr) : Nat → List Paddr → Handler Unit
  | _, [] => pure ()
  | i, addr :: addrs => do
    let value ← readContextWord addr
    .lift (writeMemory (frame + 4 * i) value)
    stackRegisters frame (i + 1) addrs

def loadRegisters : List Paddr → Handler (List Word)
  | [] => pure []
  | addr :: addrs => do
    let value ← readContextWord addr
    let values ← loadRegisters addrs
    pure (value :: values)

/--
The registers of the frame the processor unstacks, and those restored by `ldm`.
-/
def stackedRegisters : List Register := [.r0, .r1, .r2, .r3, .r12, .lr, .pc]
def savedRegisters : List Register := [.r4, .r5, .r6, .r7, .r8, .r9, .r10, .r11]

def setMaskingFor (enforceInterrupts : Bool) : Handler Unit :=
  if !enforceInterrupts then setBASEPRI basepriMasking else setBASEPRI 0

def loadBasicContext (context : Paddr) (enforceInterrupts : Bool) : Handler Resumption := do
  let m ← .get
  let forceAlign := m.stkalign
  let spMask := not32 (forceAlign <<< 2)
  let sp ← readContextWord (Register.sp.basicAddr context)
  let framePtrAlign := (sp >>> 2) &&& forceAlign
  let frame := sub32 sp 0x20 &&& spMask
  stackRegisters frame 0 (stackedRegisters.map fun r => r.basicAddr context)
  let xpsr ← readContextWord (Register.xpsr.basicAddr context)
  .lift (writeMemory (frame + 4 * 7) (xpsr ||| (framePtrAlign <<< 9) ||| (1 <<< 24)))
  setMaskingFor enforceInterrupts
  clearFpuRegsIfUsed
  let highRegs ← loadRegisters (savedRegisters.map fun r => r.basicAddr context)
  let partition ← .lift getCurPartition
  pure { partition, context, extended := false, psp := frame, highRegs }

def loadExtendedContext (context : Paddr) (enforceInterrupts : Bool) : Handler Resumption := do
  let forceAlign := 1
  let spMask := not32 (forceAlign <<< 2)
  let sp ← readContextWord (Register.sp.extendedAddr context)
  let framePtrAlign := (sp >>> 2) &&& forceAlign
  let frame := sub32 sp 0x68 &&& spMask
  stackRegisters frame 0 (stackedRegisters.map fun r => r.extendedAddr context)
  let xpsr ← readContextWord (Register.xpsr.extendedAddr context)
  .lift (writeMemory (frame + 4 * 7) (xpsr ||| (framePtrAlign <<< 9) ||| (1 <<< 24)))
  -- S0 to S15 and FPSCR
  stackRegisters frame 8 ((List.range 17).map (lowFpAddr context))
  setMaskingFor enforceInterrupts
  let highFpRegs ← loadRegisters ((List.range 16).map (highFpAddr context))
  let highRegs ← loadRegisters (savedRegisters.map fun r => r.extendedAddr context)
  -- the exception return unstacks the others
  .modify fun m =>
    { m with
      fpRegs := (List.range 16).map (fun i => readWord m.state.bytes (frame + 4 * (8 + i)))
        ++ highFpRegs ++ [readWord m.state.bytes (frame + 4 * 24)] }
  let partition ← .lift getCurPartition
  pure { partition, context, extended := true, psp := frame, highRegs }

def loadContext (context : Paddr) (enforceInterrupts : Bool) : Handler Resumption := do
  let isBasicFrame ← readContextWord (isBasicFrameAddr context)
  if isBasicFrame ≠ 0 then
    loadBasicContext context enforceInterrupts
  else
    loadExtendedContext context enforceInterrupts

def switchContextCont (calleePartDescGlobalId : Paddr) (flagsOnYield : Word) (ctx : Paddr)
    : Handler YieldOutcome := do
  .lift (kernelSetIntState flagsOnYield)
  .lift (updateCurPartAndActivate calleePartDescGlobalId)
  let pipflags ← readContextWord (pipflagsAddr ctx)
  .lift (kernelSetIntState pipflags)
  let rootPart ← .lift getRootPartition
  let pipflags ← readContextWord (pipflagsAddr ctx)
  -- only the root partition can choose to be interrupted or not
  let enforceInterrupts := !(calleePartDescGlobalId == rootPart && pipflags == 0)
  let resumption ← loadContext ctx enforceInterrupts
  pure (.resumed resumption)

/-
Saving a context
-/

/--
Copy the first `n` registers of the frame, one after the other.
-/
def copyFrame (srcContext dstContext : Paddr) : Nat → LLI Unit
  | 0 => pure ()
  | i + 1 => do
    copyFrame srcContext dstContext i
    let register ← readMemory (frameAddr srcContext + 4 * i)
    writeMemory (frameAddr dstContext + 4 * i) register

def writeBasicContext (srcContext dstContext : Paddr) (flagsOnWake : Word) : LLI Unit := do
  copyFrame srcContext dstContext basicFrameSize
  writeMemory (isBasicFrameAddr dstContext) 1
  writeMemory (pipflagsAddr dstContext) flagsOnWake

def writeExtendedContext (srcContext dstContext : Paddr) (flagsOnWake : Word) : LLI Unit := do
  copyFrame srcContext dstContext extendedFrameSize
  writeMemory (isBasicFrameAddr dstContext) 0
  writeMemory (pipflagsAddr dstContext) flagsOnWake

def writeContext (context ctxSaveAddr : Paddr) (flagsOnWake : Word) : LLI Unit := do
  let isBasicFrame ← readMemory (isBasicFrameAddr context)
  if isBasicFrame ≠ 0 then
    writeBasicContext context ctxSaveAddr flagsOnWake
  else
    writeExtendedContext context ctxSaveAddr flagsOnWake

def isNotEnoughSpace (startAddr endAddr : Paddr) (size : Nat) : Bool :=
  decide (sub32 endAddr startAddr < size)

def isMisaligned (addr : Paddr) : Bool := addr &&& 0x3 != 0

/--
The checks on the address where the caller is to be saved, `none` if all of them pass.
-/
def checkCallerContext (callerPartDescGlobalId callerContextSaveAddr : Paddr)
    (callerInterruptedContext : Paddr) : LLI (Option YieldReturnCode) := do
  let callerContextBlockLocalId ← findBelongingBlock callerPartDescGlobalId callerContextSaveAddr
  let isNull ← compareAddrToNull callerContextBlockLocalId
  if isNull then pure (some .callerContextBlockNotFound) else do
  let present ← readBlockPresentFromBlockEntryAddr callerContextBlockLocalId
  if !present then pure (some .callerContextBlockIsNotPresent) else do
  let accessible ← readBlockAccessibleFromBlockEntryAddr callerContextBlockLocalId
  if !accessible then pure (some .callerContextBlockIsNotAccessible) else do
  let writable ← readBlockWFromBlockEntryAddr callerContextBlockLocalId
  if !writable then pure (some .callerContextBlockIsNotWritable) else do
  -- the source returns the code of the callee here
  if isMisaligned callerContextSaveAddr then pure (some .calleeContextMisaligned) else do
  let callerContextBlockEndAddress ← readBlockEndFromBlockEntryAddr callerContextBlockLocalId
  let isBasicFrame ← readMemory (isBasicFrameAddr callerInterruptedContext)
  if isBasicFrame = 1 then
    if isNotEnoughSpace callerContextSaveAddr callerContextBlockEndAddress sizeofBasicContext then
      pure (some .callerContextExceedBlockEnd)
    else
      pure none
  else if isBasicFrame = 0 then
    if isNotEnoughSpace callerContextSaveAddr callerContextBlockEndAddress sizeofExtendedContext then
      pure (some .callerContextExceedBlockEnd)
    else
      pure none
  else
    pure (some .callerContextExceedBlockEnd)

def saveSourcePartCtxCont (calleePartDescGlobalId callerPartDescGlobalId : Paddr)
    (callerContextSaveAddr : Paddr) (flagsOnYield flagsOnWake : Word)
    (callerInterruptedContext targetContext : Paddr) : Handler YieldOutcome := do
  let error ← .lift (checkCallerContext callerPartDescGlobalId callerContextSaveAddr
    callerInterruptedContext)
  match error with
  | some code => pure (.returned code)
  | none =>
    .lift (writeContext callerInterruptedContext callerContextSaveAddr flagsOnWake)
    switchContextCont calleePartDescGlobalId flagsOnYield targetContext

/-
Finding the target context
-/

/--
The checks on the context of the callee, `none` if all of them pass.
-/
def checkCalleeContext (calleePartDescGlobalId calleeContextAddr : Paddr)
    : LLI (Option YieldReturnCode) := do
  let calleeContextBlockLocalId ← findBelongingBlock calleePartDescGlobalId calleeContextAddr
  let isNull ← compareAddrToNull calleeContextBlockLocalId
  if isNull then pure (some .calleeContextBlockNotFound) else do
  let present ← readBlockPresentFromBlockEntryAddr calleeContextBlockLocalId
  if !present then pure (some .calleeContextBlockIsNotPresent) else do
  let accessible ← readBlockAccessibleFromBlockEntryAddr calleeContextBlockLocalId
  if !accessible then pure (some .calleeContextBlockIsNotAccessible) else do
  let readable ← readBlockRFromBlockEntryAddr calleeContextBlockLocalId
  if !readable then pure (some .calleeContextBlockIsNotReadable) else do
  if isMisaligned calleeContextAddr then pure (some .calleeContextMisaligned) else do
  let calleeContextBlockEndAddress ← readBlockEndFromBlockEntryAddr calleeContextBlockLocalId
  if isNotEnoughSpace calleeContextAddr calleeContextBlockEndAddress 4 then
    pure (some .calleeContextExceedBlockEnd)
  else do
  let isBasicFrame ← readMemory (isBasicFrameAddr calleeContextAddr)
  if isBasicFrame = 1 then
    if isNotEnoughSpace calleeContextAddr calleeContextBlockEndAddress sizeofBasicContext then
      pure (some .calleeContextExceedBlockEnd)
    else
      pure none
  else if isBasicFrame = 0 then
    if isNotEnoughSpace calleeContextAddr calleeContextBlockEndAddress sizeofExtendedContext then
      pure (some .calleeContextExceedBlockEnd)
    else
      pure none
  else
    pure (some .calleeContextExceedBlockEnd)

def getTargetPartCtxCont (calleePartDescGlobalId callerPartDescGlobalId calleeVidtAddr : Paddr)
    (callerContextSaveAddr : Paddr) (targetInterrupt : Nat) (flagsOnYield flagsOnWake : Word)
    (callerInterruptedContext : Paddr) : Handler YieldOutcome := do
  let calleeContextAddr ← readVidtContext calleePartDescGlobalId calleeVidtAddr targetInterrupt
  let error ← .lift (checkCalleeContext calleePartDescGlobalId calleeContextAddr)
  match error with
  | some code => pure (.returned code)
  | none =>
    -- a null context reads as the word at address 0
    let isBasicFrame ← readFrameType callerPartDescGlobalId callerInterruptedContext
    .modify fun m => { m with previousContextUseFpu := isBasicFrame == 0 }
    let isNull ← .lift (compareAddrToNull callerContextSaveAddr)
    if !isNull then
      saveSourcePartCtxCont calleePartDescGlobalId callerPartDescGlobalId callerContextSaveAddr
        flagsOnYield flagsOnWake callerInterruptedContext calleeContextAddr
    else
      switchContextCont calleePartDescGlobalId flagsOnYield calleeContextAddr

/--
The error codes of the checks on a VIDT.
-/
structure VidtErrors where
  isNull : YieldReturnCode
  isNotPresent : YieldReturnCode
  isNotAccessible : YieldReturnCode
  blockTooSmall : YieldReturnCode

/--
The checks on the block that contains a VIDT, which are the same for the caller and for the callee.
-/
def checkVidt (errors : VidtErrors) (partDescGlobalId vidtAddr : Paddr)
    : LLI (Option YieldReturnCode) := do
  let vidtBlockEntryAddr ← findBelongingBlock partDescGlobalId vidtAddr
  let isNull ← compareAddrToNull vidtBlockEntryAddr
  if isNull then pure (some errors.isNull) else do
  let present ← readBlockPresentFromBlockEntryAddr vidtBlockEntryAddr
  if !present then pure (some errors.isNotPresent) else do
  let accessible ← readBlockAccessibleFromBlockEntryAddr vidtBlockEntryAddr
  if !accessible then pure (some errors.isNotAccessible) else do
  let vidtBlockEntryStart ← readBlockStartFromBlockEntryAddr vidtBlockEntryAddr
  let vidtBlockEntryEnd ← readBlockEndFromBlockEntryAddr vidtBlockEntryAddr
  let vidtBlockSize := add32 (sub32 vidtBlockEntryEnd vidtBlockEntryStart) 1
  let vidtSize ← getVidtSize
  if vidtBlockSize < vidtSize then pure (some errors.blockTooSmall) else pure none

def checkCallerVidt : Paddr → Paddr → LLI (Option YieldReturnCode) :=
  checkVidt
    {
      isNull := .callerVidtIsNull
      isNotPresent := .callerVidtIsNotPresent
      isNotAccessible := .callerVidtIsNotAccessible
      blockTooSmall := .callerVidtBlockTooSmall
    }

def checkCalleeVidt : Paddr → Paddr → LLI (Option YieldReturnCode) :=
  checkVidt
    {
      isNull := .calleeVidtIsNull
      isNotPresent := .calleeVidtIsNotPresent
      isNotAccessible := .calleeVidtIsNotAccessible
      blockTooSmall := .calleeVidtBlockTooSmall
    }

def getTargetPartVidtCont (calleePartDescGlobalId callerPartDescGlobalId : Paddr)
    (callerContextSaveAddr : Paddr) (targetInterrupt : Nat) (flagsOnYield flagsOnWake : Word)
    (callerInterruptedContext : Paddr) : Handler YieldOutcome := do
  let calleeVidtAddr ← .lift (readPDVidt calleePartDescGlobalId)
  let error ← .lift (checkCalleeVidt calleePartDescGlobalId calleeVidtAddr)
  match error with
  | some code => pure (.returned code)
  | none =>
    writeVidtCurrentInterrupt calleePartDescGlobalId calleeVidtAddr targetInterrupt
    getTargetPartCtxCont calleePartDescGlobalId callerPartDescGlobalId calleeVidtAddr
      callerContextSaveAddr targetInterrupt flagsOnYield flagsOnWake callerInterruptedContext

def getSourcePartVidtCont (calleePartDescGlobalId callerPartDescGlobalId : Paddr)
    (targetInterrupt callerContextSaveIndex : Nat) (flagsOnYield flagsOnWake : Word)
    (callerInterruptedContext : Paddr) : Handler YieldOutcome := do
  let callerVidtAddr ← .lift (readPDVidt callerPartDescGlobalId)
  let error ← .lift (checkCallerVidt callerPartDescGlobalId callerVidtAddr)
  match error with
  | some code => pure (.returned code)
  | none =>
    let callerContextSaveAddr ←
      readVidtContext callerPartDescGlobalId callerVidtAddr callerContextSaveIndex
    getTargetPartVidtCont calleePartDescGlobalId callerPartDescGlobalId callerContextSaveAddr
      targetInterrupt flagsOnYield flagsOnWake callerInterruptedContext

/-
Finding the callee
-/

def getParentPartDescCont (callerPartDescGlobalId : Paddr)
    (targetInterrupt callerContextSaveIndex : Nat) (flagsOnYield flagsOnWake : Word)
    (callerInterruptedContext : Paddr) : Handler YieldOutcome := do
  let rootPartDescGlobalId ← .lift getRootPartition
  if callerPartDescGlobalId = rootPartDescGlobalId then
    pure (.returned .calleeIsParentOfRoot)
  else do
    let calleePartDescGlobalId ← .lift (readPDParent callerPartDescGlobalId)
    getSourcePartVidtCont calleePartDescGlobalId callerPartDescGlobalId targetInterrupt
      callerContextSaveIndex flagsOnYield flagsOnWake callerInterruptedContext

def getChildPartDescCont (callerPartDescGlobalId calleePartDescLocalId : Paddr)
    (targetInterrupt callerContextSaveIndex : Nat) (flagsOnYield flagsOnWake : Word)
    (callerInterruptedContext : Paddr) : Handler YieldOutcome := do
  let isChild ← .lift (checkChildOfCurrPart callerPartDescGlobalId calleePartDescLocalId)
  if !isChild then
    pure (.returned .calleeNotChildOfCaller)
  else do
    let calleePartDescGlobalId ← .lift (readBlockStartFromBlockEntryAddr calleePartDescLocalId)
    getSourcePartVidtCont calleePartDescGlobalId callerPartDescGlobalId targetInterrupt
      callerContextSaveIndex flagsOnYield flagsOnWake callerInterruptedContext

def checkCtxSaveIdxCont (calleePartDescLocalId : Paddr) (targetInterrupt : Nat)
    (userCallerContextSaveIndex : Word) (flagsOnYield flagsOnWake : Word)
    (callerInterruptedContext : Paddr) : Handler YieldOutcome := do
  if !decide (userCallerContextSaveIndex < vidtInterruptNumber) then
    pure (.returned .callerInvalidVidtIndex)
  else do
    let callerPartDescGlobalId ← .lift getCurPartition
    if calleePartDescLocalId = nullAddr then
      getParentPartDescCont callerPartDescGlobalId targetInterrupt userCallerContextSaveIndex
        flagsOnYield flagsOnWake callerInterruptedContext
    else if calleePartDescLocalId = callerPartDescGlobalId then
      getSourcePartVidtCont calleePartDescLocalId callerPartDescGlobalId targetInterrupt
        userCallerContextSaveIndex flagsOnYield flagsOnWake callerInterruptedContext
    else
      getChildPartDescCont callerPartDescGlobalId calleePartDescLocalId targetInterrupt
        userCallerContextSaveIndex flagsOnYield flagsOnWake callerInterruptedContext

def checkIntLevelCont (calleePartDescLocalId : Paddr) (userTargetInterrupt : Word)
    (userCallerContextSaveIndex : Word) (flagsOnYield flagsOnWake : Word)
    (callerInterruptedContext : Paddr) : Handler YieldOutcome :=
  if !decide (userTargetInterrupt < vidtInterruptNumber) then
    pure (.returned .calleeInvalidVidtIndex)
  else
    checkCtxSaveIdxCont calleePartDescLocalId userTargetInterrupt userCallerContextSaveIndex
      flagsOnYield flagsOnWake callerInterruptedContext

/--
Undo what the exception entry did to the stack pointer of the context.
-/
def resetInitialSp (context : Paddr) : Handler Unit := do
  let m ← .get
  let isBasicFrame ← .lift (readMemory (isBasicFrameAddr context))
  if isBasicFrame ≠ 0 then do
    let forceAlign := m.stkalign
    let xpsr ← .lift (readMemory (Register.xpsr.basicAddr context))
    let spMask := ((xpsr >>> 9) &&& forceAlign) <<< 2
    let sp ← .lift (readMemory (Register.sp.basicAddr context))
    .lift (writeMemory (Register.sp.basicAddr context) (add32 sp 0x20 ||| spMask))
  else do
    let forceAlign := 1
    let xpsr ← .lift (readMemory (Register.xpsr.extendedAddr context))
    let spMask := ((xpsr >>> 9) &&& forceAlign) <<< 2
    let sp ← .lift (readMemory (Register.sp.extendedAddr context))
    .lift (writeMemory (Register.sp.extendedAddr context) (add32 sp 0x68 ||| spMask))

def yieldGlue (context calleePartDescLocalId : Paddr) (userTargetInterrupt : Word)
    (userCallerContextSaveIndex : Word) (flagsOnYield flagsOnWake : Word) : Handler YieldOutcome := do
  resetInitialSp context
  checkIntLevelCont calleePartDescLocalId userTargetInterrupt userCallerContextSaveIndex flagsOnYield
    flagsOnWake context
