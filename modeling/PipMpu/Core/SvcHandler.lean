import PipMpu.Core.Accessor
import PipMpu.Core.FindBlock
import PipMpu.Core.IntState

/-!
This module contains `SVC_Handler_C` of `svc_handler.c`, through which the partitions call the services: the number of
the call is encoded in the instruction, the arguments are in the registers of the stacked context.
-/

inductive SvcNumber where
  | createPartition
  | cutMemoryBlock
  | mergeMemoryBlock
  | prepare
  | addMemoryBlock
  | removeMemoryBlock
  | deletePartition
  | collect
  | mapMPU
  | readMPU
  | findBlock
  | setVIDT
  | yield
  | getIntState
  | getSelfIntState
  | setIntState
  | in_
  | out
  deriving DecidableEq, Repr

def SvcNumber.ofNat? : Nat → Option SvcNumber
  | 0 => some createPartition
  | 1 => some cutMemoryBlock
  | 2 => some mergeMemoryBlock
  | 3 => some prepare
  | 4 => some addMemoryBlock
  | 5 => some removeMemoryBlock
  | 6 => some deletePartition
  | 7 => some collect
  | 8 => some mapMPU
  | 9 => some readMPU
  | 10 => some findBlock
  | 11 => some setVIDT
  | 12 => some yield
  | 13 => some getIntState
  | 14 => some getSelfIntState
  | 15 => some setIntState
  | 16 => some in_
  | 17 => some out
  | _ => none

/--
The value of the code in `yield_return_code_e`.
-/
def YieldReturnCode.toWord : YieldReturnCode → Word
  | yieldSuccess => 0
  | calleeInvalidVidtIndex => 1
  | callerInvalidVidtIndex => 2
  | calleeNotChildOfCaller => 3
  | calleeIsParentOfRoot => 4
  | callerVidtIsNull => 5
  | callerVidtIsNotPresent => 6
  | callerVidtIsNotAccessible => 7
  | callerVidtBlockTooSmall => 8
  | calleeVidtIsNull => 9
  | calleeVidtIsNotPresent => 10
  | calleeVidtIsNotAccessible => 11
  | calleeVidtBlockTooSmall => 12
  | callerContextBlockNotFound => 13
  | callerContextBlockIsNotPresent => 14
  | callerContextBlockIsNotAccessible => 15
  | callerContextBlockIsNotWritable => 16
  | callerContextExceedBlockEnd => 17
  | callerContextMisaligned => 18
  | calleeContextBlockNotFound => 19
  | calleeContextBlockIsNotPresent => 20
  | calleeContextBlockIsNotAccessible => 21
  | calleeContextBlockIsNotReadable => 22
  | calleeContextExceedBlockEnd => 23
  | calleeContextMisaligned => 24

/--
The address of a register in a stacked context of either type.
-/
def Register.stackedAddr (r : Register) (context : Paddr) (isBasicFrame : Word) : Paddr :=
  if isBasicFrame ≠ 0 then r.basicAddr context else r.extendedAddr context

/--
The second byte of the SVC instruction, which lies before the return address.
-/
def readSvcNumber (pc : Word) : LLI Nat := LLI.gets fun s => s.bytes.get (sub32 pc 2) % 256

/--
Run the service and write its result to the register.
-/
def returnIn {δ : Type} (r0 : Paddr) (service : LLI Word) : BoardHandler δ SvcOutcome := do
  let result ← .service service
  .service (writeMemory r0 result)
  pure .returned

/--
The switch over the numbers of the calls. `addr0` and `addr1` are the addresses of the stacked registers R0 and R1.
-/
def callSvc {δ : Type} (bus : Bus δ) (fuel : Nat) (context addr0 addr1 : Paddr) (r0 r1 r2 r3 r4 : Word)
    : Option SvcNumber → BoardHandler δ SvcOutcome
  | none => pure .returned
  | some .createPartition => returnIn addr0 (Bool.toNat <$> createPartition r0)
  | some .cutMemoryBlock => returnIn addr0 (cutMemoryBlock r0 r1 r2)
  | some .mergeMemoryBlock => returnIn addr0 (mergeMemoryBlocks r0 r1 r2)
  | some .prepare => returnIn addr0 (Bool.toNat <$> prepare r0 r1)
  | some .addMemoryBlock =>
    returnIn addr0 (addMemoryBlock r0 r1 (r2.testBit 2) (r2.testBit 1) (r2.testBit 0))
  | some .removeMemoryBlock => returnIn addr0 (Bool.toNat <$> removeMemoryBlock r0)
  | some .deletePartition => returnIn addr0 (Bool.toNat <$> deletePartition r0)
  | some .collect => returnIn addr0 (collect r0)
  | some .mapMPU => returnIn addr0 (Bool.toNat <$> mapMPU r0 r1 r2)
  | some .readMPU => returnIn addr0 (readMPU r0 r1)
  | some .findBlock => returnIn addr0 (Bool.toNat <$> findBlock r0 r1 r2)
  | some .setVIDT => returnIn addr0 (Bool.toNat <$> setVIDT r0 r1)
  | some .yield => do
    let outcome ← .lift (yieldGlue context r0 r1 r2 r3 r4)
    match outcome with
    | .returned code => do
      .service (writeMemory addr0 code.toWord)
      pure .returned
    | .resumed resumption => pure (.resumed resumption)
  | some .getIntState => returnIn addr0 (getIntState r0)
  | some .getSelfIntState => returnIn addr0 getSelfIntState
  | some .setIntState => do
    .lift (setIntState r0)
    pure .returned
  | some .in_ => in_ bus fuel context r0 addr1
  | some .out => out bus fuel context r0 addr1

def SVC_Handler_C {δ : Type} (bus : Bus δ) (fuel : Nat) (context : Paddr) : BoardHandler δ SvcOutcome := do
  let isBasicFrame ← .service (readMemory (isBasicFrameAddr context))
  let pc ← .service (readMemory (Register.pc.stackedAddr context isBasicFrame))
  let addr0 := Register.r0.stackedAddr context isBasicFrame
  let addr1 := Register.r1.stackedAddr context isBasicFrame
  let r0 ← .service (readMemory addr0)
  let r1 ← .service (readMemory addr1)
  let r2 ← .service (readMemory (Register.r2.stackedAddr context isBasicFrame))
  let r3 ← .service (readMemory (Register.r3.stackedAddr context isBasicFrame))
  let r4 ← .service (readMemory (Register.r4.stackedAddr context isBasicFrame))
  let svc_number ← .service (readSvcNumber pc)
  callSvc bus fuel context addr0 addr1 r0 r1 r2 r3 r4 (SvcNumber.ofNat? svc_number)
