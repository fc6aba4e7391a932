import PipMpu.Refine.Stores
import PipMpu.Switch.Delivery

/-!
This module contains what a yield that returns an error code leaves behind: of the memory of the partitions only two
words change, and the kernel is as it was if these words are not part of its data.
-/

/--
The codes of the checks on the contexts, which come after `currentInterrupt` was written.
-/
def YieldReturnCode.ofContext : YieldReturnCode → Bool
  | .callerContextBlockNotFound => true
  | .callerContextBlockIsNotPresent => true
  | .callerContextBlockIsNotAccessible => true
  | .callerContextBlockIsNotWritable => true
  | .callerContextExceedBlockEnd => true
  | .callerContextMisaligned => true
  | .calleeContextBlockNotFound => true
  | .calleeContextBlockIsNotPresent => true
  | .calleeContextBlockIsNotAccessible => true
  | .calleeContextBlockIsNotReadable => true
  | .calleeContextExceedBlockEnd => true
  | .calleeContextMisaligned => true
  | _ => false

section Codes

variable {s : State} {pd addr context : Paddr} {code : YieldReturnCode}

theorem checkCallerVidt_ofContext (h : (checkCallerVidt pd addr s).1 = some code)
    : code.ofContext = false := by
  rcases checkVidt_some h with rfl | rfl | rfl | rfl <;> rfl

theorem checkCalleeVidt_ofContext (h : (checkCalleeVidt pd addr s).1 = some code)
    : code.ofContext = false := by
  rcases checkVidt_some h with rfl | rfl | rfl | rfl <;> rfl

theorem checkCalleeContext_ofContext (h : (checkCalleeContext pd addr s).1 = some code)
    : code.ofContext = true := by
  rw [checkCalleeContext_run] at h
  generalize (findBelongingBlock pd addr s).1 = b at h
  generalize readWord s.bytes addr = w at h
  simp only at h
  repeat' split at h
  all_goals cases h
  all_goals rfl

theorem checkCallerContext_ofContext (h : (checkCallerContext pd addr context s).1 = some code)
    : code.ofContext = true := by
  rw [checkCallerContext_run] at h
  generalize (findBelongingBlock pd addr s).1 = b at h
  generalize readWord s.bytes context = w at h
  simp only at h
  repeat' split at h
  all_goals cases h
  all_goals rfl

end Codes

/-
The continuation functions
-/

/--
Neither the masking of the interrupts nor the registers of the FPU change.
-/
structure SameProcessor (m m' : Machine) : Prop where
  basepri : m'.basepri = m.basepri
  fpRegs : m'.fpRegs = m.fpRegs

instance : IsTrans Machine SameProcessor where
  trans _ _ _ h₁₂ h₂₃ := ⟨h₂₃.basepri.trans h₁₂.basepri, h₂₃.fpRegs.trans h₁₂.fpRegs⟩

/--
The state that the failed attempt to switch to `callee` leaves.
-/
def State.attempted (s : State) (callee : Paddr) (interrupt : Nat) (code : YieldReturnCode) : State :=
  if code.ofContext then s.interruptWritten callee interrupt else s

namespace State

variable {s : State} {callee addr : Paddr} {interrupt : Nat} {code : YieldReturnCode}

theorem attempted_kernel (s : State) (callee : Paddr) (interrupt : Nat) (code : YieldReturnCode)
    : ∃ bytes, s.attempted callee interrupt code = { s with bytes } := by
  unfold attempted
  split
  . exact ⟨_, rfl⟩
  . exact ⟨s.bytes, rfl⟩

theorem attempted_get (h : code.ofContext = true → ¬InWord (s.vidtOf callee) addr)
    : (s.attempted callee interrupt code).bytes.get addr = s.bytes.get addr := by
  unfold attempted
  split
  . next hcontext => exact writeWord_get _ _ _ _ (not_inWord.mp (h hcontext))
  . rfl

theorem attempted_stores (h : addr ∈ (s.attempted callee interrupt code).stores)
    : (code.ofContext = true ∧ InWord (s.vidtOf callee) addr) ∨ addr ∈ s.stores := by
  unfold attempted at h
  split at h
  . next hcontext =>
    rcases mem_stores_of_writeWord s h with hword | hmem
    . exact .inl ⟨hcontext, hword⟩
    . exact .inr hmem
  . exact .inr h

theorem attempted_currentInterrupt (h : code.ofContext = true)
    : readWord (s.attempted callee interrupt code).bytes (s.vidtOf callee) = interrupt % wordSize := by
  unfold attempted
  rw [if_pos h]
  exact readWord_writeWord_self _ _ _

end State

/--
If the attempt fails it leaves the state that its code says.
-/
def Rejects (m : Machine) (s : YieldReturnCode → State) (outcome : YieldOutcome) (m' : Machine) : Prop :=
  ∀ code, outcome = .returned code → m'.state = s code ∧ SameProcessor m m'

section Rejects

variable {m m₁ : Machine} {callee caller saveAddr context targetContext pd : Paddr}
  {interrupt saveIndex : Nat} {flagsOnYield flagsOnWake : Word}

theorem Rejects.from {s : YieldReturnCode → State} {outcome : YieldOutcome} {m' : Machine}
    (h : Rejects m₁ s outcome m') (hsame : SameProcessor m m₁) : Rejects m s outcome m' := by
  intro code hcode
  exact ⟨(h code hcode).1, IsTrans.trans _ _ _ hsame (h code hcode).2⟩

theorem switchContextCont_rejects {ctx : Paddr} {post : YieldReturnCode → Machine → Prop}
    : (switchContextCont callee flagsOnYield ctx).Ensures m fun outcome m' =>
      ∀ code, outcome = .returned code → post code m' := by
  refine (switchContextCont_resumes callee ctx flagsOnYield m).mono ?_
  rintro outcome m' ⟨resumption, rfl, -⟩ code hcode
  cases hcode

theorem saveSourcePartCtxCont_rejects
    : (saveSourcePartCtxCont callee caller saveAddr flagsOnYield flagsOnWake context
        targetContext).Ensures m fun outcome m' =>
      ∀ code, outcome = .returned code →
        code.ofContext = true ∧ m'.state = m.state ∧ SameProcessor m m' := by
  refine .check (checkCallerContext_state _ _ _) fun error hcheck => ?_
  cases error with
  | some code =>
    rintro _ ⟨⟩
    exact ⟨checkCallerContext_ofContext hcheck, rfl, rfl, rfl⟩
  | none =>
    refine .bind (fun _ _ => True) trivial fun _ m₁ _ => ?_
    exact switchContextCont_rejects

theorem getTargetPartCtxCont_rejects {vidtAddr : Paddr}
    : (getTargetPartCtxCont callee caller vidtAddr saveAddr interrupt flagsOnYield flagsOnWake
        context).Ensures m fun outcome m' =>
      ∀ code, outcome = .returned code →
        code.ofContext = true ∧ m'.state = m.state ∧ SameProcessor m m' := by
  refine .bind (fun _ m' => m'.state = m.state ∧ SameProcessor m m') ⟨rfl, rfl, rfl⟩
    fun addr m₁ h₁ => ?_
  refine .check (checkCalleeContext_state _ _) fun error hcheck => ?_
  cases error with
  | some code =>
    rintro _ ⟨⟩
    exact ⟨checkCalleeContext_ofContext hcheck, h₁⟩
  | none =>
    refine .bind (fun _ m' => m'.state = m.state ∧ SameProcessor m m') ⟨h₁.1, h₁.2.1, h₁.2.2⟩
      fun isBasicFrame m₂ h₂ => ?_
    refine .bind (fun _ m' => m'.state = m.state ∧ SameProcessor m m') ⟨h₂.1, h₂.2.1, h₂.2.2⟩
      fun _ m₃ h₃ => ?_
    refine .read rfl ?_
    refine .cond (fun _ => ?_) fun _ => ?_
    . refine saveSourcePartCtxCont_rejects.mono fun outcome m' h code hcode => ?_
      rcases h code hcode with ⟨hcontext, hstate, hsame⟩
      exact ⟨hcontext, hstate.trans h₃.1, IsTrans.trans _ _ _ h₃.2 hsame⟩
    . exact switchContextCont_rejects

theorem getTargetPartVidtCont_rejects
    : (getTargetPartVidtCont callee caller saveAddr interrupt flagsOnYield flagsOnWake
        context).Ensures m (Rejects m (m.state.attempted callee interrupt)) := by
  refine .read rfl ?_
  refine .check (checkVidt_state _ _ _) fun error hcheck => ?_
  cases error with
  | some code =>
    rintro _ ⟨⟩
    refine ⟨?_, rfl, rfl⟩
    unfold State.attempted
    rw [checkCalleeVidt_ofContext hcheck]
    rfl
  | none =>
    refine .bind (fun _ m' => m'.state = m.state.interruptWritten callee interrupt ∧ SameProcessor m m')
      ⟨rfl, rfl, rfl⟩ fun _ m₁ h₁ => ?_
    refine getTargetPartCtxCont_rejects.mono fun outcome m' h code hcode => ?_
    rcases h code hcode with ⟨hcontext, hstate, hsame⟩
    refine ⟨?_, IsTrans.trans _ _ _ h₁.2 hsame⟩
    unfold State.attempted
    rw [hcontext, hstate, h₁.1]
    rfl

theorem getSourcePartVidtCont_rejects
    : (getSourcePartVidtCont callee caller interrupt saveIndex flagsOnYield flagsOnWake
        context).Ensures m (Rejects m (m.state.attempted callee interrupt)) := by
  refine .read rfl ?_
  refine .check (checkVidt_state _ _ _) fun error hcheck => ?_
  cases error with
  | some code =>
    rintro _ ⟨⟩
    refine ⟨?_, rfl, rfl⟩
    unfold State.attempted
    rw [checkCallerVidt_ofContext hcheck]
    rfl
  | none =>
    refine .bind (fun _ m' => m'.state = m.state ∧ SameProcessor m m') ⟨rfl, rfl, rfl⟩
      fun saveAddr m₁ h₁ => ?_
    have hrejects : (getTargetPartVidtCont callee caller saveAddr interrupt flagsOnYield flagsOnWake
        context).Ensures m₁ (Rejects m₁ (m₁.state.attempted callee interrupt)) :=
      getTargetPartVidtCont_rejects
    rw [h₁.1] at hrejects
    exact hrejects.mono fun outcome m' h => h.from h₁.2

end Rejects

/-
The yield
-/

/--
The partition that a yield of the current partition designates.
-/
def State.calleeOf (s : State) (calleePartDescLocalId : Paddr) : Paddr :=
  if calleePartDescLocalId = nullAddr then
    s.parentOf s.currentPartition
  else if calleePartDescLocalId = s.currentPartition then
    calleePartDescLocalId
  else
    (s.blockEntries.get calleePartDescLocalId).startAddr

/--
A code of the checks before the VIDTs leaves everything as it was.
-/
theorem rejects_early {m : Machine} {callee : Paddr} {interrupt : Nat} {code : YieldReturnCode}
    (h : code.ofContext = false)
    : Rejects m (m.state.attempted callee interrupt) (.returned code) m := by
  rintro _ ⟨⟩
  refine ⟨?_, rfl, rfl⟩
  unfold State.attempted
  rw [h]
  rfl

theorem checkIntLevelCont_rejects (calleePartDescLocalId context : Paddr)
    (userTargetInterrupt userCallerContextSaveIndex flagsOnYield flagsOnWake : Word) (m : Machine)
    : (checkIntLevelCont calleePartDescLocalId userTargetInterrupt userCallerContextSaveIndex flagsOnYield
        flagsOnWake context).Ensures m
      (Rejects m
        (m.state.attempted (m.state.calleeOf calleePartDescLocalId) userTargetInterrupt)) := by
  unfold State.calleeOf
  refine .cond (fun _ => rejects_early rfl) fun _ => ?_
  refine .cond (fun _ => rejects_early rfl) fun _ => ?_
  refine .read rfl ?_
  refine .cond (fun hnull => ?_) fun hne => ?_
  . -- the parent
    rw [if_pos hnull]
    refine .read rfl ?_
    refine .cond (fun _ => rejects_early rfl) fun _ => ?_
    exact .read rfl getSourcePartVidtCont_rejects
  . rw [if_neg hne]
    refine .cond (fun hself => ?_) fun hother => ?_
    . -- the current partition
      rw [if_pos hself]
      exact getSourcePartVidtCont_rejects
    . -- a child
      rw [if_neg hother]
      refine .check (checkChildOfCurrPart_state _ _) fun isChild _ => ?_
      refine .cond (fun _ => rejects_early rfl) fun _ => ?_
      exact .read rfl getSourcePartVidtCont_rejects

/--
The stack pointer in the interrupted context.
-/
def State.spAddr (s : State) (context : Paddr) : Paddr :=
  if readWord s.bytes context ≠ 0 then Register.sp.basicAddr context else Register.sp.extendedAddr context

theorem State.spAddr_marked (s : State) (context : Paddr) : s.marked.spAddr context = s.spAddr context := by
  unfold spAddr
  rw [readWord_marked]

/--
The state with another stack pointer in the interrupted context.
-/
def State.spWritten (s : State) (context : Paddr) (value : Word) : State :=
  { s with bytes := writeWord s.bytes (s.spAddr context) value }

theorem resetInitialSp_writes (context : Paddr) (m : Machine)
    : (resetInitialSp context).Ensures m fun _ m' =>
      ∃ value, m' = { m with state := m.state.spWritten context value } := by
  refine .bind (fun a m' => a = m ∧ m' = m) ⟨rfl, rfl⟩ fun a m' h => ?_
  rw [h.1, h.2]
  refine .read rfl ?_
  unfold State.spWritten
  refine .cond (fun hbasic => ?_) fun hextended => ?_
  . have hsp : m.state.spAddr context = Register.sp.basicAddr context := if_pos hbasic
    rw [hsp]
    exact .read rfl (.read rfl ⟨_, rfl⟩)
  . have hsp : m.state.spAddr context = Register.sp.extendedAddr context := if_neg hextended
    rw [hsp]
    exact .read rfl (.read rfl ⟨_, rfl⟩)

theorem yieldGlue_rejects (context calleePartDescLocalId : Paddr)
    (userTargetInterrupt userCallerContextSaveIndex flagsOnYield flagsOnWake : Word) (m : Machine)
    : (yieldGlue context calleePartDescLocalId userTargetInterrupt userCallerContextSaveIndex flagsOnYield
        flagsOnWake).Ensures m fun outcome m' =>
      ∃ value, Rejects m ((m.state.spWritten context value).attempted (m.state.calleeOf calleePartDescLocalId)
        userTargetInterrupt) outcome m' := by
  refine .bind _ (resetInitialSp_writes context m) fun _ m₁ h₁ => ?_
  rcases h₁ with ⟨value, rfl⟩
  refine (checkIntLevelCont_rejects calleePartDescLocalId context userTargetInterrupt
    userCallerContextSaveIndex flagsOnYield flagsOnWake _).mono fun outcome m' h => ⟨value, fun code hcode => ?_⟩
  exact ⟨(h code hcode).1, (h code hcode).2.basepri, (h code hcode).2.fpRegs⟩

/--
A yield that returns the code writes to this address: it lies in the stack pointer of the interrupted context, or, if
the checks had come to the contexts, in `currentInterrupt` of the VIDT of the callee.
-/
def State.RejectedWrites (s : State) (context callee : Paddr) (code : YieldReturnCode) (addr : Paddr) : Prop :=
  InWord (s.spAddr context) addr ∨ (code.ofContext = true ∧ InWord (s.vidtOf callee) addr)

/--
The stores of a yield that is rejected are the two words.
-/
theorem State.rejectedWrites_of_attempted {s : State} {context callee addr : Paddr} {value : Word} {interrupt : Nat}
    {code : YieldReturnCode} (haddr : addr ∈ ((s.marked.spWritten context value).attempted callee interrupt code).stores)
    : s.RejectedWrites context callee code addr := by
  rcases State.attempted_stores haddr with hvidt | haddr
  . exact .inr hvidt
  rcases State.mem_stores_of_writeWord _ haddr with hword | haddr
  . rw [State.spAddr_marked] at hword
    exact .inl hword
  . rw [State.stores_marked] at haddr
    cases haddr

/--
What a yield that returned the code has changed.
-/
structure Rejected (m m' : Machine) (context callee : Paddr) (interrupt : Nat) (code : YieldReturnCode)
    : Prop where
  kernel : m.state.SameKernelObjects m'.state
  processor : SameProcessor m m'
  others : ∀ addr, ¬m.state.RejectedWrites context callee code addr →
    m'.state.bytes.get addr = m.state.bytes.get addr
  currentInterrupt : code.ofContext = true →
    readWord m'.state.bytes (m.state.vidtOf callee) = interrupt % wordSize

/--
If the words that are written lie in no descriptor and in no structure, nothing else changes.
-/
theorem yieldGlue_rejected (context calleePartDescLocalId : Paddr)
    (userTargetInterrupt userCallerContextSaveIndex flagsOnYield flagsOnWake : Word) (m : Machine)
    : (yieldGlue context calleePartDescLocalId userTargetInterrupt userCallerContextSaveIndex flagsOnYield
        flagsOnWake).stored.Ensures m fun outcome m' =>
      ∀ code, outcome = .returned code →
        (∀ addr, m.state.RejectedWrites context (m.state.calleeOf calleePartDescLocalId) code addr →
          m.state.OutsideKernelData addr) →
        Rejected m m' context (m.state.calleeOf calleePartDescLocalId) userTargetInterrupt code := by
  intro code hcode houtside
  rcases yieldGlue_rejects context calleePartDescLocalId userTargetInterrupt userCallerContextSaveIndex flagsOnYield
    flagsOnWake m.marked with ⟨value, hrejects⟩
  rcases hrejects code hcode with ⟨hstate, hsame⟩
  rw [Handler.stored_snd]
  generalize (yieldGlue context calleePartDescLocalId userTargetInterrupt userCallerContextSaveIndex flagsOnYield
    flagsOnWake m.marked).2 = m₁ at hstate hsame ⊢
  generalize hcallee : m.state.calleeOf calleePartDescLocalId = callee at houtside ⊢
  have hcallee : m.marked.state.calleeOf calleePartDescLocalId = callee := hcallee
  rw [hcallee, Machine.state_marked] at hstate
  have hsp := State.spAddr_marked m.state context
  have hstores : ∀ addr ∈ m₁.state.stores, m.state.RejectedWrites context callee code addr :=
    fun addr haddr => State.rejectedWrites_of_attempted (hstate ▸ haddr)
  constructor
  case kernel =>
    rcases State.attempted_kernel (m.state.marked.spWritten context value) callee userTargetInterrupt code
      with ⟨bytes, hbytes⟩
    have hkernel : m₁.state = { m.state with bytes } := hstate.trans hbytes
    rw [Machine.state_overlay, hkernel]
    rw [hkernel] at hstores
    exact State.sameKernelObjects_overlay fun addr haddr => houtside addr (hstores addr haddr)
  case processor => exact ⟨hsame.basepri, hsame.fpRegs⟩
  case others =>
    intro addr haddr
    rcases not_or.mp haddr with ⟨hword, hvidt⟩
    rw [← hsp] at hword
    show m₁.state.bytes.get addr = m.state.bytes.get addr
    rw [hstate, State.attempted_get (s := m.state.marked.spWritten context value) (not_and.mp hvidt), State.spWritten,
      writeWord_get _ _ _ _ (not_inWord.mp hword)]
    exact State.get_marked m.state addr
  case currentInterrupt =>
    intro hcontext
    show readWord m₁.state.bytes _ = _
    rw [hstate]
    exact State.attempted_currentInterrupt hcontext

/--
The root and the child of `childRuns` with their structures.
-/
def childRunsTree : List (Nat × List Nat) := [(0x20000000, [0x20000100]), (0x20002000, [0x20002400])]

/--
The child yields with the interrupt 40, for which no VIDT holds a context.
-/
def childYields (callee : Paddr) : Handler YieldOutcome := (yieldGlue 0x20002f00 callee 40 0 0 0).stored

theorem childRuns_rejects
    : (childRuns 0x20002a00).state.Lists childRunsTree
        ∧ (childYields 0x20002000 (childRuns 0x20002a00)).1 = .returned .calleeContextBlockNotFound
        ∧ (childRuns 0x20002a00).state.spAddr 0x20002f00 = 0x20002f08
        ∧ (childRuns 0x20002a00).state.vidtOf ((childRuns 0x20002a00).state.calleeOf 0x20002000) = 0x20002800 := by
  decide +kernel

theorem yieldGlue_rejected_childRuns
    : Rejected (childRuns 0x20002a00) (childYields 0x20002000 (childRuns 0x20002a00)).2 0x20002f00
        ((childRuns 0x20002a00).state.calleeOf 0x20002000) 40 .calleeContextBlockNotFound := by
  rcases childRuns_rejects with ⟨hlists, houtcome, hsp, hvidt⟩
  refine yieldGlue_rejected 0x20002f00 0x20002000 40 0 0 0 (childRuns 0x20002a00) _ houtcome fun addr hwrites => ?_
  unfold State.RejectedWrites at hwrites
  rw [hsp, hvidt] at hwrites
  apply hlists.outsideKernelData
  rcases hwrites with hword | ⟨-, hword⟩
  all_goals
    unfold InWord at hword
    simp only [State.OutsideListed, childRunsTree, List.forall_mem_cons, List.not_mem_nil, false_implies, implies_true,
      and_true, sizeofPDTable_eq, sizeofKStructure_eq]
    omega

/--
The VIDT of the root begins in the last bytes of its block, the descriptor of the child is behind them.
-/
def straddlingVidt : Machine :=
  let m := childRuns 0x20002a00
  let pdt := m.state.pdtables.get 0x20000000
  { m with
    state := { m.state with pdtables := m.state.pdtables.set 0x20000000 { pdt with vidtAddr := 0x20001fff } } }

/--
The child yields to itself: it gets an error code, and `currentInterrupt` in its VIDT has changed. In the same way a
yield to the root is rejected, and its `currentInterrupt` was written over the pointer to the structures of the child.
-/
theorem yieldGlue_writes_vidt
    : ((childYields 0x20002000 (childRuns 0x20002a00)).1 = .returned .calleeContextBlockNotFound
        ∧ readWord (childRuns 0x20002a00).state.bytes 0x20002800 = 0
        ∧ readWord (childYields 0x20002000 (childRuns 0x20002a00)).2.state.bytes 0x20002800 = 40)
      ∧ ((childYields nullAddr straddlingVidt).1 = .returned .calleeContextBlockNotFound
        ∧ (straddlingVidt.state.pdtables.get 0x20002000).structurePtr = 0x20002400
        ∧ ((childYields nullAddr straddlingVidt).2.state.pdtables.get 0x20002000).structurePtr = 0x20000000) := by
  decide +kernel
