import PipMpu.Props.Memory
import PipMpu.Props.Served
import PipMpu.Switch.Delivery
import PipMpu.Switch.Events

/-!
This module contains who runs after a yield, an interrupt or a fault. The functions of a switch leave everything the
view is about as it is, and the partition they hand the processor to is the one they were called for.
-/

/--
The view of the machine is kept.
-/
def Machine.KeepsView (C : Conf) (m m' : Machine) : Prop := Sim m.state C → Sim m'.state C

instance (C : Conf) : Std.Refl (Machine.KeepsView C) := ⟨fun _ h => h⟩

instance (C : Conf) : IsTrans Machine (Machine.KeepsView C) := ⟨fun _ _ _ h h' hm => h' (h hm)⟩

/--
A code is returned and the view is kept, or one of the partitions runs and the view is kept but for that.
-/
def Conf.HandsTo (C : Conf) (callees : Set Nat) : YieldOutcome → Machine → Prop
  | .returned _, m' => Sim m'.state C
  | .resumed _, m' => ∃ q ∈ callees, Sim m'.state (C.switch q)

/--
From machines with the view on, the operation hands the processor to one of the partitions if to any.
-/
def Conf.Hands (C : Conf) (callees : Set Nat) (op : Handler YieldOutcome) : Prop :=
  ∀ m, Sim m.state C → op.Ensures m (C.HandsTo callees)

namespace Sim

variable {s : State} {C : Conf}

theorem of_bytes (h : Sim s C) (bytes : Mem Nat) : Sim { s with bytes } C :=
  ⟨h.cur, h.root, h.parent, h.structures, h.free, h.nbfreeslots, h.nbprepare, h.blockindex, h.slot⟩

theorem kernelSetIntState (h : Sim s C) (interruptState : Nat) : Sim (kernelSetIntState interruptState s).2 C :=
  h.setPD _ _ fun _ => rfl

theorem run_getRootPartition (h : Sim s C) : getRootPartition s = (C.root, s) := by
  unfold getRootPartition
  rw [LLI.gets_run, h.root]

theorem run_readParent (h : Sim s C) {p : Nat} (hp : C.Live p) (hroot : p ≠ C.root)
    : readPDParent p s = (C.parent p, s) := by
  rw [← h.parent p hp hroot]
  rfl

theorem updateCurPartAndActivate (h : Sim s C) (q : Nat) : Sim (updateCurPartAndActivate q s).2 (C.switch q) :=
  (h.switch q).of_mpuRegs _

end Sim

namespace Machine.KeepsView

variable {C : Conf}

theorem read {α : Type} {op : LLI α} (hop : ∀ s, (op s).2 = s) : Keeps (Machine.KeepsView C) (Handler.lift op) := by
  intro m h
  rw [Handler.lift_run, hop]
  exact h

theorem of_writeMemory (addr value : Nat) : Keeps (Machine.KeepsView C) (Handler.lift (writeMemory addr value)) :=
  fun _ h => h.of_bytes _

theorem of_logAccess (kind : AccessKind) (partition addr : Nat)
    : Keeps (Machine.KeepsView C) (logAccess kind partition addr) :=
  fun _ h => h

theorem of_usesFpu (used : Bool)
    : Keeps (Machine.KeepsView C) (Handler.modify fun m => { m with previousContextUseFpu := used }) :=
  fun _ h => h

theorem of_sameKernel {m m' : Machine} (h : SameKernel m m') : Machine.KeepsView C m m' := by
  intro hm
  rw [h]
  exact hm.of_bytes _

theorem of_copyFrame (srcContext dstContext n : Nat)
    : Keeps (Machine.KeepsView C) (Handler.lift (copyFrame srcContext dstContext n)) := by
  induction n with
  | zero => exact fun _ h => h
  | succ n ih => exact fun m h => (ih m h).of_bytes _

theorem of_writeContext (context ctxSaveAddr flagsOnWake : Nat)
    : Keeps (Machine.KeepsView C) (Handler.lift (writeContext context ctxSaveAddr flagsOnWake)) := by
  intro m h
  unfold writeContext
  rw [Handler.lift_run, LLI.bind_run, LLI.ite_run]
  split
  . exact ((of_copyFrame context ctxSaveAddr basicFrameSize m h).of_bytes _).of_bytes _
  . exact ((of_copyFrame context ctxSaveAddr extendedFrameSize m h).of_bytes _).of_bytes _

end Machine.KeepsView

namespace Conf.Hands

variable {C : Conf} {callees : Set Nat} {α : Type}

theorem returned (code : YieldReturnCode) : C.Hands callees (pure (.returned code)) := fun _ h => h

theorem bind {op : Handler α} {f : α → Handler YieldOutcome} (hop : Keeps (Machine.KeepsView C) op)
    (hf : ∀ a, C.Hands callees (f a)) : C.Hands callees (op >>= f) :=
  fun m h => .bind (fun _ m' => Sim m'.state C) (hop m h) fun a m₁ h₁ => hf a m₁ h₁

/--
An operation of the services that only reads the state.
-/
theorem read {op : LLI α} {f : α → Handler YieldOutcome} (hop : ∀ s, (op s).2 = s)
    (hf : ∀ a, C.Hands callees (f a)) : C.Hands callees (Handler.lift op >>= f) :=
  .bind (.read hop) hf

theorem ite {c : Prop} [Decidable c] {op op' : Handler YieldOutcome} (h : C.Hands callees op)
    (h' : C.Hands callees op') : C.Hands callees (if c then op else op') := by
  split
  . exact h
  . exact h'

theorem mono {callees' : Set Nat} {op : Handler YieldOutcome} (h : C.Hands callees op) (hle : callees ⊆ callees')
    : C.Hands callees' op := by
  refine fun m hm => .mono (h m hm) fun outcome m' h' => ?_
  cases outcome with
  | returned code => exact h'
  | resumed resumption =>
    rcases h' with ⟨q, hq, hsim⟩
    exact ⟨q, hle hq, hsim⟩

end Conf.Hands

/-
The functions of `yield_c.c`
-/

section

variable {C : Conf} (callee caller : Nat)

theorem switchContextCont_hands (flagsOnYield ctx : Nat)
    : C.Hands {callee} (switchContextCont callee flagsOnYield ctx) := by
  intro m h
  refine .bind (fun _ m' => Sim m'.state C) (h.kernelSetIntState _) fun _ m₁ h₁ => ?_
  refine .bind (fun _ m' => Sim m'.state (C.switch callee)) (h₁.updateCurPartAndActivate callee) fun _ m₂ h₂ => ?_
  refine .bind (fun _ m' => Sim m'.state (C.switch callee)) h₂ fun pipflags m₃ h₃ => ?_
  refine .bind (fun _ m' => Sim m'.state (C.switch callee)) (h₃.kernelSetIntState _) fun _ m₄ h₄ => ?_
  refine .bind (fun _ m' => Sim m'.state (C.switch callee)) h₄ fun rootPart m₅ h₅ => ?_
  refine .bind (fun _ m' => Sim m'.state (C.switch callee)) h₅ fun pipflags m₆ h₆ => ?_
  have hload := Machine.KeepsView.of_sameKernel (C := C.switch callee)
    (loadContext_keeps ctx (!(callee == rootPart && pipflags == 0)) m₆)
  refine .bind (fun _ m' => Sim m'.state (C.switch callee)) (hload h₆) fun resumption m₇ h₇ => ?_
  exact ⟨callee, rfl, h₇⟩

theorem saveSourcePartCtxCont_hands (callerContextSaveAddr flagsOnYield flagsOnWake : Nat)
    (callerInterruptedContext targetContext : Nat)
    : C.Hands {callee} (saveSourcePartCtxCont callee caller callerContextSaveAddr flagsOnYield flagsOnWake
        callerInterruptedContext targetContext) := by
  refine .read (checkCallerContext_state _ _ _) fun error => ?_
  cases error with
  | some code => exact .returned code
  | none => exact .bind (.of_writeContext _ _ _) fun _ => switchContextCont_hands _ _ _

theorem getTargetPartCtxCont_hands (calleeVidtAddr callerContextSaveAddr targetInterrupt : Nat)
    (flagsOnYield flagsOnWake callerInterruptedContext : Nat)
    : C.Hands {callee} (getTargetPartCtxCont callee caller calleeVidtAddr callerContextSaveAddr targetInterrupt
        flagsOnYield flagsOnWake callerInterruptedContext) := by
  refine .bind (Handler.keeps_bind (.of_logAccess _ _ _) fun _ => .read fun _ => rfl) fun calleeContextAddr => ?_
  refine .read (checkCalleeContext_state _ _) fun error => ?_
  cases error with
  | some code => exact .returned code
  | none =>
    refine .bind (Handler.keeps_bind (.of_logAccess _ _ _) fun _ => .read fun _ => rfl) fun isBasicFrame => ?_
    refine .bind (.of_usesFpu _) fun _ => ?_
    refine .read (fun _ => rfl) fun isNull => ?_
    exact .ite (saveSourcePartCtxCont_hands _ _ _ _ _ _ _) (switchContextCont_hands _ _ _)

theorem getTargetPartVidtCont_hands (callerContextSaveAddr targetInterrupt flagsOnYield flagsOnWake : Nat)
    (callerInterruptedContext : Nat)
    : C.Hands {callee} (getTargetPartVidtCont callee caller callerContextSaveAddr targetInterrupt flagsOnYield
        flagsOnWake callerInterruptedContext) := by
  refine .read (fun _ => rfl) fun calleeVidtAddr => ?_
  refine .read (checkVidt_state _ _ _) fun error => ?_
  cases error with
  | some code => exact .returned code
  | none =>
    refine .bind (Handler.keeps_bind (.of_logAccess _ _ _) fun _ => .of_writeMemory _ _) fun _ => ?_
    exact getTargetPartCtxCont_hands _ _ _ _ _ _ _ _

theorem getSourcePartVidtCont_hands (targetInterrupt callerContextSaveIndex flagsOnYield flagsOnWake : Nat)
    (callerInterruptedContext : Nat)
    : C.Hands {callee} (getSourcePartVidtCont callee caller targetInterrupt callerContextSaveIndex flagsOnYield
        flagsOnWake callerInterruptedContext) := by
  refine .read (fun _ => rfl) fun callerVidtAddr => ?_
  refine .read (checkVidt_state _ _ _) fun error => ?_
  cases error with
  | some code => exact .returned code
  | none =>
    refine .bind (Handler.keeps_bind (.of_logAccess _ _ _) fun _ => .read fun _ => rfl) fun callerContextSaveAddr => ?_
    exact getTargetPartVidtCont_hands _ _ _ _ _ _ _

end

namespace Conf

/--
The partitions above `p`.
-/
inductive HigherUp (C : Conf) (p : Nat) : Nat → Prop where
  | parent : p ≠ C.root → HigherUp C p (C.parent p)
  | step {q : Nat} : HigherUp C p q → q ≠ C.root → HigherUp C p (C.parent q)

/--
The partition itself, its parent, or the child that the block with the descriptor designates.
-/
inductive YieldsTo (C : Conf) (p localId : Nat) : Nat → Prop where
  | self : localId = p → YieldsTo C p localId p
  | parent : localId = 0 → p ≠ C.root → YieldsTo C p localId (C.parent p)
  | child : C.Has p localId → (C.slot localId).PDflag = true → YieldsTo C p localId (C.slot localId).startAddr

theorem HigherUp.live {C : Conf} (hC : C.Static) {p q : Nat} (hp : C.Live p) (h : C.HigherUp p q) : C.Live q := by
  induction h with
  | parent hroot => exact hC.parent_live p hp hroot
  | step _ hroot ih => exact hC.parent_live _ ih hroot

theorem YieldsTo.live {C : Conf} (hC : C.Static) {p localId q : Nat} (hp : C.Live p) (h : C.YieldsTo p localId q)
    : C.Live q := by
  cases h with
  | self _ => exact hp
  | parent _ hroot => exact hC.parent_live p hp hroot
  | child hhas hflag => exact (hC.flag_kind p localId hhas hflag).2.2.1

end Conf

section

variable {C : Conf} {caller : Nat}

theorem getParentPartDescCont_hands (hcaller : C.Live caller) (targetInterrupt callerContextSaveIndex : Nat)
    (flagsOnYield flagsOnWake callerInterruptedContext : Nat)
    : C.Hands {q | caller ≠ C.root ∧ q = C.parent caller} (getParentPartDescCont caller targetInterrupt
        callerContextSaveIndex flagsOnYield flagsOnWake callerInterruptedContext) := by
  intro m h
  refine .read rfl (.cond (fun _ => h) fun hroot => ?_)
  rw [h.root] at hroot
  refine .read (h.run_readParent hcaller hroot) ?_
  refine (getSourcePartVidtCont_hands _ _ _ _ _ _ _).mono ?_ m h
  rintro q rfl
  exact ⟨hroot, rfl⟩

theorem getChildPartDescCont_hands (hC : C.Static) (hcaller : C.Live caller) (calleePartDescLocalId : Nat)
    (targetInterrupt callerContextSaveIndex flagsOnYield flagsOnWake callerInterruptedContext : Nat)
    : C.Hands {q | C.YieldsTo caller calleePartDescLocalId q} (getChildPartDescCont caller calleePartDescLocalId
        targetInterrupt callerContextSaveIndex flagsOnYield flagsOnWake callerInterruptedContext) := by
  intro m h
  rcases h.run_checkChild hC hcaller calleePartDescLocalId with ⟨hhas, hflag, hrun⟩ | hrun
  . refine .read hrun (.cond (fun hfalse => absurd hfalse (by simp)) fun _ => ?_)
    refine .read (h.run_readStart hhas.1) ?_
    exact (getSourcePartVidtCont_hands _ _ _ _ _ _ _).mono (Set.singleton_subset_iff.mpr (.child hhas hflag)) m h
  . exact .read hrun (.cond (fun _ => h) fun htrue => absurd rfl htrue)

theorem yieldGlue_hands (hC : C.Static) (context calleePartDescLocalId : Nat)
    (userTargetInterrupt userCallerContextSaveIndex flagsOnYield flagsOnWake : Nat)
    : C.Hands {q | C.YieldsTo C.cur calleePartDescLocalId q} (yieldGlue context calleePartDescLocalId
        userTargetInterrupt userCallerContextSaveIndex flagsOnYield flagsOnWake) := by
  refine .bind (fun m => .of_sameKernel (resetInitialSp_keeps context m)) fun _ => .ite (.returned _) (.ite (.returned _) ?_)
  intro m h
  refine .read h.run_getCurPartition (.cond (fun hnull => ?_) fun _ => .cond (fun hself => ?_) fun _ => ?_)
  . refine (getParentPartDescCont_hands hC.cur_live _ _ _ _ _).mono ?_ m h
    rintro q ⟨hroot, rfl⟩
    exact .parent hnull hroot
  . rw [hself]
    exact (getSourcePartVidtCont_hands _ _ _ _ _ _ _).mono (Set.singleton_subset_iff.mpr (.self rfl)) m h
  . exact getChildPartDescCont_hands hC hC.cur_live _ _ _ _ _ _ m h

/-
The handlers of `exception_handlers.c`
-/

/--
If a handler resumes a partition, it is one of these and the view is kept but for that.
-/
def Conf.HandlesBy (C : Conf) (callees : Set Nat) (resumes : Bool) (m' : Machine) : Prop :=
  resumes = true → ∃ q ∈ callees, Sim m'.state (C.switch q)

theorem Conf.Hands.handler {callees : Set Nat} {op : Handler YieldOutcome} (hop : C.Hands callees op) {m : Machine}
    (h : Sim m.state C)
    : (do
        let outcome ← op
        pure (orPanic outcome) : Handler HandlerOutcome).Ensures m fun outcome =>
      C.HandlesBy callees outcome.resumes := by
  refine .bind _ (hop m h) fun outcome m' h' hresumes => ?_
  cases outcome with
  | returned code => exact absurd hresumes (by simp [orPanic, HandlerOutcome.resumes])
  | resumed resumption => exact h'

theorem Interrupt_Handler_C_hands (context currentInterrupt : Nat) {m : Machine} (h : Sim m.state C)
    : (Interrupt_Handler_C context currentInterrupt).Ensures m fun outcome =>
      C.HandlesBy {C.root} outcome.resumes := by
  refine .read rfl (.read rfl (.read rfl ?_))
  rw [h.root]
  refine .bind (fun _ m' => Sim m'.state C) (Machine.KeepsView.of_sameKernel (resetInitialSp_keeps context m) h) fun _ m₁ h₁ => ?_
  refine .bind _ (getSourcePartVidtCont_hands _ _ _ _ _ _ _ m₁ h₁) fun outcome m₂ h₂ => ?_
  cases outcome with
  | resumed resumption => exact fun _ => h₂
  | returned code =>
    refine .cond (fun _ => ?_) fun _ hresumes => absurd hresumes (by simp [HandlerOutcome.resumes])
    exact (getTargetPartVidtCont_hands _ _ _ _ _ _ _).handler h₂

/--
The fault goes from a partition to its parent, and on from there.
-/
theorem propagateFault_hands (hC : C.Static) (fuel : Nat) {faulted currentPartDesc : Nat}
    (hcurrent : currentPartDesc = faulted ∨ C.HigherUp faulted currentPartDesc) (hfaulted : C.Live faulted)
    (targetInterrupt saveIndex flagOnYield flagOnWake context : Nat) {m : Machine} (h : Sim m.state C)
    : (propagateFault fuel currentPartDesc targetInterrupt saveIndex flagOnYield flagOnWake context).Ensures m
        fun outcome => C.HandlesBy {q | C.HigherUp faulted q} (outcome.any HandlerOutcome.resumes) := by
  induction fuel generalizing currentPartDesc saveIndex m with
  | zero => exact fun hresumes => absurd hresumes (by simp [propagateFault])
  | succ fuel ih =>
    have hlive : C.Live currentPartDesc := by
      rcases hcurrent with rfl | hup
      . exact hfaulted
      . exact hup.live hC hfaulted
    by_cases hroot : currentPartDesc = C.root
    . -- the root has no parent to go on with
      refine .bind _ (getParentPartDescCont_root (hroot.trans h.root.symm)) fun outcome m₁ houtcome => ?_
      subst houtcome
      exact fun hresumes => absurd hresumes (by simp [abandonsSave, HandlerOutcome.resumes])
    . have hup : C.HigherUp faulted (C.parent currentPartDesc) := by
        rcases hcurrent with rfl | hup
        . exact .parent hroot
        . exact .step hup hroot
      refine .bind _ (getParentPartDescCont_hands hlive _ _ _ _ _ m h) fun outcome m₁ h₁ => ?_
      cases outcome with
      | resumed resumption =>
        rcases h₁ with ⟨q, ⟨-, rfl⟩, hsim⟩
        exact fun _ => ⟨_, hup, hsim⟩
      | returned code =>
        refine .cond (fun _ => ?_) fun _ => .cond (fun _ => ?_) fun _ => ?_
        . refine .read (h₁.run_readParent hlive hroot) ?_
          have hhands := (getTargetPartVidtCont_hands (C := C) (C.parent currentPartDesc) currentPartDesc nullAddr
            targetInterrupt flagOnYield flagOnWake nullAddr).mono (Set.singleton_subset_iff.mpr hup)
          exact hhands.handler h₁
        . exact fun hresumes => absurd hresumes (by simp [HandlerOutcome.resumes])
        . exact .read (h₁.run_readParent hlive hroot) (ih (.inr hup) _ h₁)

theorem Fault_Handler_C_Irq_hands (hC : C.Static) (fuel ctx irq : Nat) {m : Machine} (h : Sim m.state C)
    : (Fault_Handler_C_Irq fuel ctx irq).Ensures m fun outcome =>
      C.HandlesBy {q | C.HigherUp C.cur q} (outcome.any HandlerOutcome.resumes) := by
  refine .read rfl (.read rfl ?_)
  refine .bind (fun _ m' => Sim m'.state C) (Machine.KeepsView.of_sameKernel (resetInitialSp_keeps ctx m) h)
    fun _ m₁ h₁ => ?_
  rw [h.cur]
  exact propagateFault_hands hC fuel (.inl rfl) hC.cur_live _ _ _ _ _ h₁

end

/-
The MemManage handler
-/

namespace Unseen

theorem selectMPURegion (n : Nat) : Keeps Unseen (selectMPURegion n) := fun _ _ h => h.of_mpuRegs _

theorem isMappedInPhysicalMpu (addr idx : Nat) : Keeps Unseen (isMappedInPhysicalMpu addr idx) := by
  have hstart : Keeps Unseen (readPhysicalMPUStartAddr idx) :=
    LLI.keeps_bind (selectMPURegion idx) fun _ => Keeps.of_eq fun _ => rfl
  have hsize : Keeps Unseen (readPhysicalMPUSizeBytes idx) :=
    LLI.keeps_bind (selectMPURegion idx) fun _ => Keeps.of_eq fun _ => rfl
  refine LLI.keeps_bind hstart fun _ => LLI.keeps_bind ?_ fun _ => LLI.keeps_pure _
  exact LLI.keeps_bind hstart fun _ => LLI.keeps_bind hsize fun _ => LLI.keeps_pure _

theorem reconfigureMpu (addr vidx pidx : Nat) : Keeps Unseen (reconfigureMpu addr vidx pidx) := by
  iterate 2 refine LLI.keeps_read (fun _ => rfl) fun _ => ?_
  refine LLI.keeps_bind (fun _ _ h => h.setPD _ _ fun _ => rfl) fun _ => ?_
  exact LLI.keeps_read (fun _ => rfl) fun _ _ _ h => h.of_mpuRegs _

theorem reconfigureOne (addr flag spare : Nat) : Keeps Unseen (reconfigureOne addr flag spare) := by
  refine LLI.keeps_read (findMpuIndex_state addr) fun found => ?_
  cases found with
  | none => exact LLI.keeps_pure none
  | some vidx =>
    refine LLI.keeps_bind (isMappedInPhysicalMpu addr vidx) fun mapped => LLI.keeps_guard ?_
    exact LLI.keeps_bind (reconfigureMpu _ _ _) fun _ => LLI.keeps_pure _

theorem reconfigureTwo (addr flag : Nat) : Keeps Unseen (reconfigureTwo addr flag) := by
  refine LLI.keeps_read (findMpuIndex_state addr) fun found => ?_
  cases found with
  | none => exact LLI.keeps_pure none
  | some vidx =>
    refine LLI.keeps_read (isMappedInVirtualMpu_state _ _) fun inBlock => LLI.keeps_guard ?_
    refine LLI.keeps_bind (isMappedInPhysicalMpu addr vidx) fun mapped => ?_
    refine LLI.keeps_bind (isMappedInPhysicalMpu _ _) fun mapped2 => LLI.keeps_guard ?_
    refine Keeps.ite (fun _ => LLI.keeps_bind (reconfigureMpu _ _ _) fun _ => ?_) fun _ => ?_
    . exact Keeps.ite (fun _ => LLI.keeps_bind (reconfigureMpu _ _ _) fun _ => LLI.keeps_pure _)
        fun _ => LLI.keeps_pure _
    . exact Keeps.ite (fun _ => LLI.keeps_bind (reconfigureMpu _ _ _) fun _ => LLI.keeps_pure _)
        fun _ => LLI.keeps_pure _

/--
`findBlock` writes to the memory of its caller only.
-/
theorem findBlock (idPD addrInBlock blockResult : Nat) : Keeps Unseen (findBlock idPD addrInBlock blockResult) := by
  refine LLI.keeps_read (fun _ => rfl) fun _ => ?_
  refine LLI.keeps_read (getGlobalIdPDCurrentOrChild_state _ _) fun _ => ?_
  repeat first
    | with_reducible refine LLI.keeps_guard ?_
    | with_reducible refine LLI.keeps_read (findBelongingBlock_state _ _) fun _ => ?_
    | with_reducible refine LLI.keeps_read (findBlockInKSWithAddr_state _ _) fun _ => ?_
    | refine LLI.keeps_read (fun _ => rfl) fun _ => ?_
  exact LLI.keeps_bind (fun _ _ h => h.of_bytes _) fun _ => LLI.keeps_pure true

end Unseen

theorem MemManage_Handler_C_hands {C : Conf} (hC : C.Static) (fuel : Nat) (scs : MemFaultStatus) (ctx flag : Nat)
    {m : Machine} (h : Sim m.state C)
    : (MemManage_Handler_C fuel scs ctx flag).Ensures m fun outcome =>
      C.HandlesBy {q | q = C.cur ∨ C.HigherUp C.cur q} outcome.resumes := by
  have hlift : ∀ {α : Type} {op : LLI α}, Keeps Unseen op → Keeps (Machine.KeepsView C) (Handler.lift op) :=
    fun hop m => hop m.state C
  refine .bind (fun _ m' => Sim m'.state C) ?_ fun fault m₁ h₁ => ?_
  . exact hlift (Keeps.of_eq (getFaultedAddress_state scs ctx)) m h
  rcases fault with ⟨addr, cause⟩
  refine .bind (fun _ m' => Sim m'.state C) ?_ fun programmed m₂ h₂ => ?_
  . cases cause with
    | DACCVIOL => exact hlift (Unseen.reconfigureOne _ _ _) m₁ h₁
    | IACCVIOL16 => exact hlift (Unseen.reconfigureOne _ _ _) m₁ h₁
    | IACCVIOL32 => exact hlift (Unseen.reconfigureTwo _ _) m₁ h₁
    | UNKNOWN => exact hlift (LLI.keeps_pure none) m₁ h₁
  cases programmed with
  | some programmed => exact fun _ => ⟨C.cur, .inl rfl, h₂⟩
  | none =>
    refine .bind _ (Fault_Handler_C_Irq_hands hC fuel ctx scs.VECTACTIVE h₂) fun outcome m₃ h₃ hresumes => ?_
    cases outcome with
    | none => exact absurd hresumes (by simp [MemManageOutcome.resumes])
    | some outcome =>
      rcases h₃ hresumes with ⟨q, hq, hsim⟩
      exact ⟨q, .inr hq, hsim⟩
