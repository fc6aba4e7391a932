import PipMpu.Core.Yield

/-!
This module contains the interrupt and fault handlers of `exception_handlers.c`.
-/

/--
A handler resumes a partition or ends in `Kernel_Panic`.
-/
inductive HandlerOutcome where
  | resumed (resumption : Resumption)
  | panic
  deriving DecidableEq, Repr

def CLI_SAVE_INDEX : Nat := 8
def STI_SAVE_INDEX : Nat := 9
def DOUBLE_FAULT_LEVEL : Nat := 10

/--
The codes for which the handlers give up saving the caller.
-/
def abandonsSave : YieldReturnCode → Bool
  | .callerVidtIsNull => true
  | .callerVidtIsNotPresent => true
  | .callerVidtIsNotAccessible => true
  | .callerVidtBlockTooSmall => true
  | .callerContextBlockNotFound => true
  | .callerContextBlockIsNotPresent => true
  | .callerContextBlockIsNotAccessible => true
  | .callerContextBlockIsNotWritable => true
  | .callerContextExceedBlockEnd => true
  | .callerContextMisaligned => true
  | _ => false

/--
A handler ends in `Kernel_Panic` when the continuation it called last returns.
-/
def orPanic : YieldOutcome → HandlerOutcome
  | .returned _ => .panic
  | .resumed resumption => .resumed resumption

def saveIndexOf (interruptState : Word) : Nat :=
  if interruptState = 0 then CLI_SAVE_INDEX else STI_SAVE_INDEX

def Interrupt_Handler_C (context : Paddr) (currentInterrupt : Nat) : Handler HandlerOutcome := do
  let rootPartDesc ← .lift getRootPartition
  let interruptedPartDesc ← .lift getCurPartition
  let interruptedPartIntState ← .lift getSelfIntState
  let saveIndex := saveIndexOf interruptedPartIntState
  resetInitialSp context
  let outcome ← getSourcePartVidtCont rootPartDesc interruptedPartDesc currentInterrupt saveIndex
    interruptedPartIntState interruptedPartIntState context
  match outcome with
  | .resumed resumption => pure (.resumed resumption)
  | .returned yieldErrorCode =>
    if abandonsSave yieldErrorCode then do
      let outcome ← getTargetPartVidtCont rootPartDesc interruptedPartDesc nullAddr currentInterrupt
        0 0 nullAddr
      pure (orPanic outcome)
    else
      pure .panic

/--
The recursion goes up the partition tree, it returns `none` when the fuel is used up.
-/
def propagateFault : Nat → Paddr → Nat → Nat → Word → Word → Paddr → Handler (Option HandlerOutcome)
  | 0, _, _, _, _, _, _ => pure none
  | fuel + 1, currentPartDesc, targetInterrupt, saveIndex, flagOnYield, flagOnWake, context => do
    let outcome ← getParentPartDescCont currentPartDesc targetInterrupt saveIndex flagOnYield
      flagOnWake context
    match outcome with
    | .resumed resumption => pure (some (.resumed resumption))
    | .returned yieldErrorCode =>
      if abandonsSave yieldErrorCode then do
        let parentPartDesc ← .lift (readPDParent currentPartDesc)
        let outcome ← getTargetPartVidtCont parentPartDesc currentPartDesc nullAddr targetInterrupt
          flagOnYield flagOnWake nullAddr
        pure (some (orPanic outcome))
      else if yieldErrorCode = .calleeIsParentOfRoot then
        pure (some .panic)
      else do
        let parentPartDesc ← .lift (readPDParent currentPartDesc)
        propagateFault fuel parentPartDesc targetInterrupt DOUBLE_FAULT_LEVEL flagOnYield flagOnWake
          context

def Fault_Handler_C_Irq (fuel : Nat) (ctx : Paddr) (irq : Nat) : Handler (Option HandlerOutcome) := do
  let state ← .lift getSelfIntState
  let pd ← .lift getCurPartition
  let saveidx := saveIndexOf state
  resetInitialSp ctx
  propagateFault fuel pd irq saveidx state state ctx
