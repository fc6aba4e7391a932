import PipMpu.Core.Boot
import PipMpu.Core.FindBlock
import PipMpu.Core.MemManage
import PipMpu.Props.AllServices
import PipMpu.Refine.Stores
import PipMpu.Switch.Runs

/-!
This module contains the runs of the whole kernel: from the boot of the root on, system calls, interrupts and
faults in any order, with what the partitions do to their memory in between.
-/

inductive KernelEvent where
  -- the code of a partition runs and an exception entry stacks its context, each byte is given with its address
  | user (stores : List (Paddr × Nat)) (fpRegs : List Word)
  | service (call : ServiceCall)
  | findBlock (idPD addrInBlock blockResult : Paddr)
  | setIntState (interruptState : Word)
  | yield (context calleePartDescLocalId : Paddr) (userTargetInterrupt userCallerContextSaveIndex : Word)
      (flagsOnYield flagsOnWake : Word)
  | interrupt (context : Paddr) (currentInterrupt : Nat)
  | fault (fuel : Nat) (ctx : Paddr) (irq : Nat)
  | memManage (fuel : Nat) (scs : MemFaultStatus) (ctx : Paddr) (flag : Nat)

namespace HandlerOutcome

def resumes : HandlerOutcome → Bool
  | resumed _ => true
  | panic => false

end HandlerOutcome

namespace MemManageOutcome

/--
The handler returns to the faulted instruction or a partition is resumed.
-/
def resumes : MemManageOutcome → Bool
  | returned _ _ => true
  | faulted (some outcome) => outcome.resumes
  | faulted none => false

end MemManageOutcome

namespace Machine

/--
The machine on which a partition runs again, there is none after `Kernel_Panic`.
-/
def next (m : Machine) : KernelEvent → Option Machine
  | .user stores fpRegs => some { (Handler.stored (.lift (writeBytes stores)) m).2 with fpRegs }
  | .service call => some { m with state := m.state.after call }
  | .findBlock idPD addrInBlock blockResult =>
    some (Handler.stored (.lift (findBlock idPD addrInBlock blockResult)) m).2
  | .setIntState interruptState => some ((setIntState interruptState).stored m).2
  | .yield context calleePartDescLocalId userTargetInterrupt userCallerContextSaveIndex flagsOnYield flagsOnWake =>
    some ((yieldGlue context calleePartDescLocalId userTargetInterrupt userCallerContextSaveIndex flagsOnYield
      flagsOnWake).stored m).2
  | .interrupt context currentInterrupt =>
    let run := (Interrupt_Handler_C context currentInterrupt).stored m
    if run.1.resumes then some run.2 else none
  | .fault fuel ctx irq =>
    let run := (Fault_Handler_C_Irq fuel ctx irq).stored m
    if run.1.any HandlerOutcome.resumes then some run.2 else none
  | .memManage fuel scs ctx flag =>
    let run := (MemManage_Handler_C fuel scs ctx flag).stored m
    if run.1.resumes then some run.2 else none

theorem stores_user {m m' : Machine} {stores : List (Paddr × Nat)} {fpRegs : List Word}
    (hnext : m.next (.user stores fpRegs) = some m') : ∀ x ∈ m'.state.stores, x ∈ stores.map Prod.fst := by
  rcases Option.some.inj hnext with rfl
  intro x hx
  rcases stores_writeBytes (s := m.state.marked) hx with hmem | hmem
  . exact hmem
  . rw [State.stores_marked] at hmem
    cases hmem

/--
A handler that ends with a partition running again.
-/
theorem next_of_resumes {α : Type} {op : Handler α} (resumes : α → Bool) {m m' : Machine}
    (hnext : (if resumes (op.stored m).1 then some (op.stored m).2 else none) = some m')
    : resumes (op m.marked).1 = true ∧ m' = (op.stored m).2 := by
  rcases Option.ite_none_right_eq_some.mp hnext with ⟨hresumes, heq⟩
  exact ⟨hresumes, (Option.some.inj heq).symm⟩

/--
The boot handler does not return, the first machine is the one on which the root is resumed.
-/
def system : System Machine KernelEvent where
  init m := ∃ layout : Layout, ∃ rootPartCtx m₀,
    (layout.Boot_Handler rootPartCtx m₀).1.resumes = true ∧ m = (layout.Boot_Handler rootPartCtx m₀).2
  step m event m' := m.next event = some m'

/--
The events that the isolation of the partitions relies on: the services are called as in `State.Orderly`, and nothing
else that is written, by a partition or by the kernel on its behalf, reaches the descriptors and structures of the
partitions. In the runs of these events it does not matter that the kernel objects lie in memories of their own and
that a store reaches them only at the end of its event.
-/
def Orderly (m : Machine) : KernelEvent → Prop
  | .service call => m.state.Orderly (m.state.currentPartition, call)
  | event => ∀ m', m.next event = some m' → ∀ x ∈ m'.state.stores, m.state.OutsideKernelData x

theorem Orderly.stores {m m' : Machine} {event : KernelEvent} (h : m.Orderly event)
    (hevent : ∀ call, event ≠ .service call) (hnext : m.next event = some m')
    : ∀ x ∈ m'.state.stores, m.state.OutsideKernelData x := by
  cases event with
  | service call => exact absurd rfl (hevent call)
  | _ => exact h m' hnext

theorem Orderly.of_stores {m m' : Machine} {event : KernelEvent} (hevent : ∀ call, event ≠ .service call)
    (hnext : m.next event = some m') (hstores : ∀ x ∈ m'.state.stores, m.state.OutsideKernelData x)
    : m.Orderly event := by
  have horderly : ∀ m₁, m.next event = some m₁ → ∀ x ∈ m₁.state.stores, m.state.OutsideKernelData x := by
    intro m₁ hm₁
    rw [hnext, Option.some.injEq] at hm₁
    exact hm₁ ▸ hstores
  cases event with
  | service call => exact absurd rfl (hevent call)
  | _ => exact horderly

/--
On a machine with known kernel data the addresses that are written are looked up.
-/
theorem Orderly.of_lists {m m' : Machine} {event : KernelEvent} {tree : List (Nat × List Nat)}
    (hevent : ∀ call, event ≠ .service call) (hlists : m.state.Lists tree) (hnext : m.next event = some m')
    (hstores : ∀ x ∈ m'.state.stores, State.OutsideListed tree x) : m.Orderly event :=
  .of_stores hevent hnext fun x hx => hlists.outsideKernelData (hstores x hx)

end Machine

/--
The machine after the events, if a partition runs again after each of them.
-/
def Machine.run (m : Machine) : List KernelEvent → Option Machine
  | [] => some m
  | event :: events => (m.next event).bind fun m' => m'.run events

theorem Machine.reachable_of_run {m m' : Machine} {events : List KernelEvent} (hm : system.Reachable m)
    (h : m.run events = some m') : system.Reachable m' := by
  induction events generalizing m with
  | nil =>
    cases h
    exact hm
  | cons event events ih =>
    rcases Option.bind_eq_some_iff.mp h with ⟨m₁, hnext, hrun⟩
    exact ih (.step hm hnext) hrun

/-
How a switch ends
-/

/--
A code is returned on a machine that `R` relates to `m`, or a partition is resumed on one that meets `P`.
-/
def Settled (R : Machine → Machine → Prop) (P : Machine → Prop) (m : Machine) : YieldOutcome → Machine → Prop
  | .returned _, m' => R m m'
  | .resumed _, m' => P m'

def Settles (R : Machine → Machine → Prop) (P : Machine → Prop) (op : Handler YieldOutcome) : Prop :=
  ∀ m, op.Ensures m (Settled R P m)

namespace Settles

variable {α : Type} {R : Machine → Machine → Prop} {P : Machine → Prop}

theorem returned [Std.Refl R] (code : YieldReturnCode) : Settles R P (pure (.returned code)) :=
  fun m => Std.Refl.refl m

theorem bind [IsTrans Machine R] {op : Handler α} {f : α → Handler YieldOutcome} (hop : Keeps R op)
    (hf : ∀ a, Settles R P (f a)) : Settles R P (op >>= f) := by
  intro m
  refine .bind (fun _ m' => R m m') (hop m) fun a m₁ h₁ => .mono (hf a m₁) fun outcome m₂ h₂ => ?_
  cases outcome with
  | returned code => exact IsTrans.trans _ _ _ h₁ h₂
  | resumed resumption => exact h₂

theorem ite {c : Prop} [Decidable c] {op op' : Handler YieldOutcome} (h : Settles R P op)
    (h' : Settles R P op') : Settles R P (if c then op else op') := by
  split
  . exact h
  . exact h'

/--
The handlers end with a switch.
-/
theorem handler {op : Handler YieldOutcome} (hop : Settles R P op) (m : Machine)
    : (do
        let outcome ← op
        pure (orPanic outcome) : Handler HandlerOutcome).Ensures m fun outcome m' =>
      outcome.resumes = true → P m' := by
  refine .bind _ (hop m) fun outcome m' hsettled hresumes => ?_
  cases outcome with
  | returned code => exact absurd hresumes (by simp [orPanic, HandlerOutcome.resumes])
  | resumed resumption => exact hsettled

end Settles

/--
The steps of the continuation functions up to the switch.
-/
structure SwitchSteps (R : Machine → Machine → Prop) (P : Machine → Prop) : Prop where
  read : ∀ {α : Type} (op : LLI α), (∀ s, (op s).2 = s) → Keeps R (Handler.lift op)
  write : ∀ addr value, Keeps R (Handler.lift (writeMemory addr value))
  log : ∀ kind partition addr, Keeps R (logAccess kind partition addr)
  fpu : ∀ usesFpu, Keeps R (Handler.modify fun m => { m with previousContextUseFpu := usesFpu })
  switch : ∀ callee flagsOnYield ctx, Settles R P (switchContextCont callee flagsOnYield ctx)

namespace SwitchSteps

variable {R : Machine → Machine → Prop} {P : Machine → Prop} [IsTrans Machine R]

theorem copyFrame_keeps (h : SwitchSteps R P) (srcContext dstContext : Paddr) (n : Nat)
    : Keeps R (Handler.lift (copyFrame srcContext dstContext n)) := by
  induction n with
  | zero => exact h.read _ fun _ => rfl
  | succ n ih =>
    intro m
    exact IsTrans.trans _ _ _ (ih m) (h.write _ _ _)

theorem writeContext_keeps (h : SwitchSteps R P) (context ctxSaveAddr : Paddr) (flagsOnWake : Word)
    : Keeps R (Handler.lift (writeContext context ctxSaveAddr flagsOnWake)) := by
  have hframe : ∀ n isBasicFrame, Keeps R (Handler.lift (do
      copyFrame context ctxSaveAddr n
      writeMemory (isBasicFrameAddr ctxSaveAddr) isBasicFrame
      writeMemory (pipflagsAddr ctxSaveAddr) flagsOnWake)) := by
    intro n isBasicFrame m
    refine IsTrans.trans _ _ _ (h.copyFrame_keeps context ctxSaveAddr n m) ?_
    exact IsTrans.trans _ _ _ (h.write (isBasicFrameAddr ctxSaveAddr) isBasicFrame _) (h.write _ _ _)
  intro m
  unfold writeContext
  rw [Handler.lift_run, LLI.bind_run, LLI.ite_run]
  split
  . exact hframe basicFrameSize 1 m
  . exact hframe extendedFrameSize 0 m

variable [Std.Refl R]

theorem saveSourcePartCtxCont_settles (h : SwitchSteps R P) (callee caller callerContextSaveAddr : Paddr)
    (flagsOnYield flagsOnWake : Word) (callerInterruptedContext targetContext : Paddr)
    : Settles R P (saveSourcePartCtxCont callee caller callerContextSaveAddr flagsOnYield flagsOnWake
        callerInterruptedContext targetContext) := by
  refine .bind (h.read _ (checkCallerContext_state _ _ _)) fun error => ?_
  cases error with
  | some code => exact .returned code
  | none => exact .bind (h.writeContext_keeps _ _ _) fun _ => h.switch _ _ _

theorem getTargetPartCtxCont_settles (h : SwitchSteps R P) (callee caller calleeVidtAddr : Paddr)
    (callerContextSaveAddr : Paddr) (targetInterrupt : Nat) (flagsOnYield flagsOnWake : Word)
    (callerInterruptedContext : Paddr)
    : Settles R P (getTargetPartCtxCont callee caller calleeVidtAddr callerContextSaveAddr targetInterrupt
        flagsOnYield flagsOnWake callerInterruptedContext) := by
  refine .bind (Handler.keeps_bind (h.log _ _ _) fun _ => h.read _ fun _ => rfl) fun calleeContextAddr => ?_
  refine .bind (h.read _ (checkCalleeContext_state _ _)) fun error => ?_
  cases error with
  | some code => exact .returned code
  | none =>
    refine .bind (Handler.keeps_bind (h.log _ _ _) fun _ => h.read _ fun _ => rfl) fun isBasicFrame => ?_
    refine .bind (h.fpu _) fun _ => ?_
    refine .bind (h.read _ fun _ => rfl) fun isNull => ?_
    exact .ite (h.saveSourcePartCtxCont_settles _ _ _ _ _ _ _) (h.switch _ _ _)

theorem getTargetPartVidtCont_settles (h : SwitchSteps R P) (callee caller callerContextSaveAddr : Paddr)
    (targetInterrupt : Nat) (flagsOnYield flagsOnWake : Word) (callerInterruptedContext : Paddr)
    : Settles R P (getTargetPartVidtCont callee caller callerContextSaveAddr targetInterrupt flagsOnYield
        flagsOnWake callerInterruptedContext) := by
  refine .bind (h.read _ fun _ => rfl) fun calleeVidtAddr => ?_
  refine .bind (h.read _ (checkVidt_state _ _ _)) fun error => ?_
  cases error with
  | some code => exact .returned code
  | none =>
    refine .bind (Handler.keeps_bind (h.log _ _ _) fun _ => h.write _ _) fun _ => ?_
    exact h.getTargetPartCtxCont_settles _ _ _ _ _ _ _ _

theorem getSourcePartVidtCont_settles (h : SwitchSteps R P) (callee caller : Paddr)
    (targetInterrupt callerContextSaveIndex : Nat) (flagsOnYield flagsOnWake : Word)
    (callerInterruptedContext : Paddr)
    : Settles R P (getSourcePartVidtCont callee caller targetInterrupt callerContextSaveIndex flagsOnYield
        flagsOnWake callerInterruptedContext) := by
  refine .bind (h.read _ fun _ => rfl) fun callerVidtAddr => ?_
  refine .bind (h.read _ (checkVidt_state _ _ _)) fun error => ?_
  cases error with
  | some code => exact .returned code
  | none =>
    refine .bind (Handler.keeps_bind (h.log _ _ _) fun _ => h.read _ fun _ => rfl) fun callerContextSaveAddr => ?_
    exact h.getTargetPartVidtCont_settles _ _ _ _ _ _ _

theorem getParentPartDescCont_settles (h : SwitchSteps R P) (caller : Paddr)
    (targetInterrupt callerContextSaveIndex : Nat) (flagsOnYield flagsOnWake : Word)
    (callerInterruptedContext : Paddr)
    : Settles R P (getParentPartDescCont caller targetInterrupt callerContextSaveIndex flagsOnYield flagsOnWake
        callerInterruptedContext) := by
  refine .bind (h.read _ fun _ => rfl) fun rootPartDescGlobalId => ?_
  refine .ite (.returned _) ?_
  refine .bind (h.read _ fun _ => rfl) fun calleePartDescGlobalId => ?_
  exact h.getSourcePartVidtCont_settles _ _ _ _ _ _ _

theorem getChildPartDescCont_settles (h : SwitchSteps R P) (caller calleePartDescLocalId : Paddr)
    (targetInterrupt callerContextSaveIndex : Nat) (flagsOnYield flagsOnWake : Word)
    (callerInterruptedContext : Paddr)
    : Settles R P (getChildPartDescCont caller calleePartDescLocalId targetInterrupt callerContextSaveIndex
        flagsOnYield flagsOnWake callerInterruptedContext) := by
  refine .bind (h.read _ (checkChildOfCurrPart_state _ _)) fun isChild => ?_
  refine .ite (.returned _) ?_
  refine .bind (h.read _ fun _ => rfl) fun calleePartDescGlobalId => ?_
  exact h.getSourcePartVidtCont_settles _ _ _ _ _ _ _

theorem checkIntLevelCont_settles (h : SwitchSteps R P) (calleePartDescLocalId : Paddr)
    (userTargetInterrupt userCallerContextSaveIndex flagsOnYield flagsOnWake : Word)
    (callerInterruptedContext : Paddr)
    : Settles R P (checkIntLevelCont calleePartDescLocalId userTargetInterrupt userCallerContextSaveIndex
        flagsOnYield flagsOnWake callerInterruptedContext) := by
  refine .ite (.returned _) ?_
  refine .ite (.returned _) ?_
  refine .bind (h.read _ fun _ => rfl) fun callerPartDescGlobalId => ?_
  refine .ite (h.getParentPartDescCont_settles _ _ _ _ _ _) ?_
  refine .ite (h.getSourcePartVidtCont_settles _ _ _ _ _ _ _) ?_
  exact h.getChildPartDescCont_settles _ _ _ _ _ _ _

theorem resetInitialSp_keeps (h : SwitchSteps R P) (context : Paddr) : Keeps R (resetInitialSp context) := by
  refine Handler.keeps_bind Handler.keeps_get fun m => ?_
  refine Handler.keeps_bind (h.read _ fun _ => rfl) fun isBasicFrame => ?_
  apply Keeps.ite
  . intro _
    iterate 2 refine Handler.keeps_bind (h.read _ fun _ => rfl) fun _ => ?_
    exact h.write _ _
  . intro _
    iterate 2 refine Handler.keeps_bind (h.read _ fun _ => rfl) fun _ => ?_
    exact h.write _ _

theorem yieldGlue_settles (h : SwitchSteps R P) (context calleePartDescLocalId : Paddr)
    (userTargetInterrupt userCallerContextSaveIndex flagsOnYield flagsOnWake : Word)
    : Settles R P (yieldGlue context calleePartDescLocalId userTargetInterrupt userCallerContextSaveIndex
        flagsOnYield flagsOnWake) :=
  .bind (h.resetInitialSp_keeps context) fun _ => h.checkIntLevelCont_settles _ _ _ _ _ _

theorem Interrupt_Handler_C_resumes (h : SwitchSteps R P) (context : Paddr) (currentInterrupt : Nat) (m : Machine)
    : (Interrupt_Handler_C context currentInterrupt).Ensures m fun outcome m' =>
      outcome.resumes = true → P m' := by
  refine .read rfl (.read rfl (.read rfl ?_))
  refine .bind (fun _ _ => True) trivial fun _ m₁ _ => ?_
  refine .bind _ (h.getSourcePartVidtCont_settles _ _ _ _ _ _ _ m₁) fun outcome m₂ hsettled => ?_
  cases outcome with
  | resumed resumption => exact fun _ => hsettled
  | returned code =>
    refine .cond (fun _ => ?_) fun _ => ?_
    . exact (h.getTargetPartVidtCont_settles _ _ _ _ _ _ _).handler m₂
    . exact fun hresumes => absurd hresumes (by simp [HandlerOutcome.resumes])

theorem propagateFault_resumes (h : SwitchSteps R P) (fuel : Nat) (currentPartDesc : Paddr)
    (targetInterrupt saveIndex : Nat) (flagOnYield flagOnWake : Word) (context : Paddr) (m : Machine)
    : (propagateFault fuel currentPartDesc targetInterrupt saveIndex flagOnYield flagOnWake context).Ensures m
        fun outcome m' => outcome.any HandlerOutcome.resumes = true → P m' := by
  induction fuel generalizing currentPartDesc saveIndex m with
  | zero => exact fun hresumes => absurd hresumes (by simp [propagateFault])
  | succ fuel ih =>
    refine .bind _ (h.getParentPartDescCont_settles _ _ _ _ _ _ m) fun outcome m₁ hsettled => ?_
    cases outcome with
    | resumed resumption => exact fun _ => hsettled
    | returned code =>
      refine .cond (fun _ => ?_) fun _ => .cond (fun _ => ?_) fun _ => ?_
      . refine .read rfl ?_
        exact (h.getTargetPartVidtCont_settles _ currentPartDesc nullAddr targetInterrupt flagOnYield
          flagOnWake nullAddr).handler m₁
      . exact fun hresumes => absurd hresumes (by simp [HandlerOutcome.resumes])
      . exact .read rfl (ih _ _ _)

theorem Fault_Handler_C_Irq_resumes (h : SwitchSteps R P) (fuel : Nat) (ctx : Paddr) (irq : Nat) (m : Machine)
    : (Fault_Handler_C_Irq fuel ctx irq).Ensures m fun outcome m' =>
      outcome.any HandlerOutcome.resumes = true → P m' := by
  refine .read rfl (.read rfl ?_)
  refine .bind (fun _ _ => True) trivial fun _ m₁ _ => ?_
  exact h.propagateFault_resumes _ _ _ _ _ _ _ m₁

end SwitchSteps
