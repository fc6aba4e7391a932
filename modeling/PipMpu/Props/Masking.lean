import PipMpu.Props.KernelRuns

/-!
This module contains the proof that only the root masks interrupts: `BASEPRI` is zero unless the root runs with
the interrupt state 0.
-/

namespace Machine

def MasksOnlyRoot (m : Machine) : Prop :=
  m.basepri ≠ 0 →
    m.state.currentPartition = m.state.constantRootPartM
      ∧ (m.state.pdtables.get m.state.constantRootPartM).interruptState = 0

end Machine

/-
The services
-/

/--
The same partitions run and are the root, interrupt states are kept or erased.
-/
structure KeepsMask (s s' : State) : Prop where
  currentPartition : s'.currentPartition = s.currentPartition
  root : s'.constantRootPartM = s.constantRootPartM
  interruptState : ∀ pd, (s'.pdtables.get pd).interruptState = (s.pdtables.get pd).interruptState
    ∨ (s'.pdtables.get pd).interruptState = 0

namespace KeepsMask

theorem of_pdtables {s s' : State} (hcur : s'.currentPartition = s.currentPartition)
    (hroot : s'.constantRootPartM = s.constantRootPartM) (h : s'.pdtables = s.pdtables) : KeepsMask s s' :=
  ⟨hcur, hroot, fun _ => .inl (by rw [h])⟩

instance : Std.Refl KeepsMask := ⟨fun _ => of_pdtables rfl rfl rfl⟩

instance : IsTrans State KeepsMask where
  trans s₁ s₂ s₃ h₁₂ h₂₃ := by
    refine ⟨h₂₃.currentPartition.trans h₁₂.currentPartition, h₂₃.root.trans h₁₂.root, fun pd => ?_⟩
    rcases h₂₃.interruptState pd with hsame | hzero
    . rw [hsame]
      exact h₁₂.interruptState pd
    . exact .inr hzero

theorem table (pd : Nat) (f : PDTable → PDTable)
    (hf : ∀ pdt, (f pdt).interruptState = pdt.interruptState ∨ (f pdt).interruptState = 0)
    : Keeps KeepsMask (modifyPDTable pd f) := by
  intro s
  refine ⟨rfl, rfl, fun pd' => ?_⟩
  unfold modifyPDTable LLI.modify
  by_cases heq : pd = pd'
  . subst heq
    simp only [Mem.get_set_self]
    exact hf _
  . exact Or.inl (congrArg PDTable.interruptState (Mem.get_set_of_ne _ _ heq))

theorem allWrites : AllWrites KeepsMask where
  block _ _ _ := of_pdtables rfl rfl rfl
  sh1 _ _ _ := of_pdtables rfl rfl rfl
  sc _ _ _ := of_pdtables rfl rfl rfl
  table pd f hf := table pd f fun pdt => .inl (hf pdt).2.2
  load _ _ := of_pdtables rfl rfl rfl
  next _ _ _ := of_pdtables rfl rfl rfl
  erase lo hi := by
    unfold eraseBlock
    refine Keeps.ite (fun _ => LLI.keeps_pure false) fun _ => LLI.keeps_bind ?_ fun _ => LLI.keeps_pure true
    intro s
    refine ⟨rfl, rfl, fun pd => ?_⟩
    simp only [LLI.modify, Mem.get_eraseRange]
    split
    . exact .inr rfl
    . exact .inl rfl
  init pd := table pd _ fun _ => Or.inr rfl
  parent pd _ := table pd _ fun _ => Or.inl rfl
  vidt pd _ := table pd _ fun _ => Or.inl rfl

theorem after (s : State) (call : ServiceCall) : KeepsMask s (s.after call) := by
  have h := allWrites
  cases call with
  | createPartition idBlock => exact h.createPartition_keeps idBlock s
  | cutMemoryBlock idBlockToCut cutAddr MPURegionNb =>
    exact h.cutMemoryBlock_keeps idBlockToCut cutAddr MPURegionNb s
  | mergeMemoryBlocks idBlockToMerge1 idBlockToMerge2 MPURegionNb =>
    exact h.mergeMemoryBlocks_keeps idBlockToMerge1 idBlockToMerge2 MPURegionNb s
  | prepare idPD idRequisitionedBlock => exact h.prepare_keeps idPD idRequisitionedBlock s
  | addMemoryBlock idPDchild idBlockToShare r w e => exact h.addMemoryBlock_keeps idPDchild idBlockToShare r w e s
  | removeMemoryBlock idBlockToRemove => exact h.removeMemoryBlock_keeps idBlockToRemove s
  | deletePartition idPDchildToDelete => exact h.deletePartition_keeps idPDchildToDelete s
  | collect idPD => exact h.collect_keeps idPD s
  | mapMPU idPD idBlockToEnable MPURegionNb => exact h.mapMPU_keeps idPD idBlockToEnable MPURegionNb s
  | readMPU idPD MPURegionNb => exact readMPU_keeps idPD MPURegionNb s
  | setVIDT pd vidtAddr => exact h.setVIDT_keeps pd vidtAddr s

theorem findBlock_keeps (idPD addrInBlock blockResult : Nat)
    : Keeps KeepsMask (findBlock idPD addrInBlock blockResult) := by
  unfold findBlock
  repeat first
    | with_reducible refine LLI.keeps_guard ?_
    | with_reducible refine LLI.keeps_read (findBelongingBlock_state _ _) fun _ => ?_
    | with_reducible refine LLI.keeps_read (findBlockInKSWithAddr_state _ _) fun _ => ?_
    | with_reducible refine LLI.keeps_read (getGlobalIdPDCurrentOrChild_state _ _) fun _ => ?_
    | refine LLI.keeps_read (fun _ => rfl) fun _ => ?_
  exact LLI.keeps_bind (fun _ => of_pdtables rfl rfl rfl) fun _ => LLI.keeps_pure true

theorem selectMPURegion_keeps (n : Nat) : Keeps KeepsMask (selectMPURegion n) :=
  fun _ => of_pdtables rfl rfl rfl

theorem isMappedInPhysicalMpu_keeps (addr idx : Nat) : Keeps KeepsMask (isMappedInPhysicalMpu addr idx) := by
  have hstart : Keeps KeepsMask (readPhysicalMPUStartAddr idx) :=
    LLI.keeps_bind (selectMPURegion_keeps idx) fun _ => Keeps.of_eq fun _ => rfl
  have hsize : Keeps KeepsMask (readPhysicalMPUSizeBytes idx) :=
    LLI.keeps_bind (selectMPURegion_keeps idx) fun _ => Keeps.of_eq fun _ => rfl
  refine LLI.keeps_bind hstart fun _ => LLI.keeps_bind ?_ fun _ => LLI.keeps_pure _
  exact LLI.keeps_bind hstart fun _ => LLI.keeps_bind hsize fun _ => LLI.keeps_pure _

theorem reconfigureMpu_keeps (addr vidx pidx : Nat) : Keeps KeepsMask (reconfigureMpu addr vidx pidx) := by
  iterate 2 refine LLI.keeps_read (fun _ => rfl) fun _ => ?_
  refine LLI.keeps_bind (allWrites.table _ _ fun _ => ⟨rfl, rfl, rfl⟩) fun _ => ?_
  exact LLI.keeps_read (fun _ => rfl) fun _ => allWrites.load _

theorem reconfigureOne_keeps (addr flag spare : Nat) : Keeps KeepsMask (reconfigureOne addr flag spare) := by
  refine LLI.keeps_read (findMpuIndex_state addr) fun found => ?_
  cases found with
  | none => exact LLI.keeps_pure none
  | some vidx =>
    refine LLI.keeps_bind (isMappedInPhysicalMpu_keeps addr vidx) fun mapped => LLI.keeps_guard ?_
    exact LLI.keeps_bind (reconfigureMpu_keeps _ _ _) fun _ => LLI.keeps_pure _

theorem reconfigureTwo_keeps (addr flag : Nat) : Keeps KeepsMask (reconfigureTwo addr flag) := by
  refine LLI.keeps_read (findMpuIndex_state addr) fun found => ?_
  cases found with
  | none => exact LLI.keeps_pure none
  | some vidx =>
    refine LLI.keeps_read (isMappedInVirtualMpu_state _ _) fun inBlock => LLI.keeps_guard ?_
    refine LLI.keeps_bind (isMappedInPhysicalMpu_keeps addr vidx) fun mapped => ?_
    refine LLI.keeps_bind (isMappedInPhysicalMpu_keeps _ _) fun mapped2 => LLI.keeps_guard ?_
    refine Keeps.ite (fun _ => LLI.keeps_bind (reconfigureMpu_keeps _ _ _) fun _ => ?_) fun _ => ?_
    . exact Keeps.ite (fun _ => LLI.keeps_bind (reconfigureMpu_keeps _ _ _) fun _ => LLI.keeps_pure _)
        fun _ => LLI.keeps_pure _
    . exact Keeps.ite (fun _ => LLI.keeps_bind (reconfigureMpu_keeps _ _ _) fun _ => LLI.keeps_pure _)
        fun _ => LLI.keeps_pure _

end KeepsMask

/-
The switch
-/

/--
What the invariant reads of a machine stays the same but for erased interrupt states.
-/
structure SameMasking (m m' : Machine) : Prop where
  basepri : m'.basepri = m.basepri
  state : KeepsMask m.state m'.state

namespace SameMasking

instance : Std.Refl SameMasking := ⟨fun m => ⟨rfl, Std.Refl.refl m.state⟩⟩

instance : IsTrans Machine SameMasking where
  trans _ _ _ h₁₂ h₂₃ := ⟨h₂₃.basepri.trans h₁₂.basepri, IsTrans.trans _ _ _ h₁₂.state h₂₃.state⟩

theorem lift {α : Type} {op : LLI α} (h : Keeps KeepsMask op) : Keeps SameMasking (Handler.lift op) :=
  fun m => ⟨rfl, h m.state⟩

theorem masksOnlyRoot {m m' : Machine} (h : SameMasking m m') (hm : m.MasksOnlyRoot) : m'.MasksOnlyRoot := by
  intro hmask
  rw [h.basepri] at hmask
  have hroot := hm hmask
  rw [h.state.currentPartition, h.state.root]
  refine ⟨hroot.1, ?_⟩
  rcases h.state.interruptState m.state.constantRootPartM with hsame | hzero
  . exact hsame.trans hroot.2
  . exact hzero

theorem of_settled {m m' : Machine} {outcome : YieldOutcome} (hm : m.MasksOnlyRoot)
    (h : Settled SameMasking Machine.MasksOnlyRoot m outcome m') : m'.MasksOnlyRoot := by
  cases outcome with
  | returned code => exact SameMasking.masksOnlyRoot h hm
  | resumed resumption => exact h

end SameMasking

theorem loadRegisters_basepri (addrs : List Nat)
    : Keeps (fun m m' : Machine => m'.basepri = m.basepri) (loadRegisters addrs) := by
  induction addrs with
  | nil => exact fun _ => rfl
  | cons addr addrs ih => exact fun m => ih (readContextWord addr m).2

/--
`BASEPRI` after the context is loaded.
-/
def maskingFor (enforceInterrupts : Bool) : Nat := if enforceInterrupts then 0 else basepriMasking

theorem setMaskingFor_basepri (enforceInterrupts : Bool) (m : Machine)
    : (setMaskingFor enforceInterrupts).Ensures m fun _ m' => m'.basepri = maskingFor enforceInterrupts := by
  cases enforceInterrupts <;> rfl

theorem clearFpuRegsIfUsed_basepri (m : Machine) : (clearFpuRegsIfUsed m).2.basepri = m.basepri := by
  unfold clearFpuRegsIfUsed
  rw [Handler.modify_run]
  split <;> rfl

theorem loadContext_basepri (context : Nat) (enforceInterrupts : Bool) (m : Machine)
    : (loadContext context enforceInterrupts).Ensures m fun _ m' => m'.basepri = maskingFor enforceInterrupts := by
  refine .bind (fun _ _ => True) trivial fun isBasicFrame m' _ => ?_
  refine .cond (fun _ => ?_) fun _ => ?_
  . unfold loadBasicContext
    refine .bind (fun _ _ => True) trivial fun m₁ m₂ _ => ?_
    refine .bind (fun _ _ => True) trivial fun sp m₃ _ => ?_
    refine .bind (fun _ _ => True) trivial fun _ m₄ _ => ?_
    refine .bind (fun _ _ => True) trivial fun xpsr m₅ _ => ?_
    refine .bind (fun _ _ => True) trivial fun _ m₆ _ => ?_
    refine .bind _ (setMaskingFor_basepri enforceInterrupts m₆) fun _ m₇ h₇ => ?_
    have h₈ := (clearFpuRegsIfUsed_basepri m₇).trans h₇
    refine .bind (fun _ m => m.basepri = maskingFor enforceInterrupts) h₈ fun _ m₈ h₈ => ?_
    have h₉ := (loadRegisters_basepri (savedRegisters.map fun r => r.basicAddr context) m₈).trans h₈
    refine .bind (fun _ m => m.basepri = maskingFor enforceInterrupts) h₉ fun highRegs m₉ h₉ => ?_
    exact h₉
  . unfold loadExtendedContext
    refine .bind (fun _ _ => True) trivial fun sp m₁ _ => ?_
    refine .bind (fun _ _ => True) trivial fun _ m₂ _ => ?_
    refine .bind (fun _ _ => True) trivial fun xpsr m₃ _ => ?_
    refine .bind (fun _ _ => True) trivial fun _ m₄ _ => ?_
    refine .bind (fun _ _ => True) trivial fun _ m₅ _ => ?_
    refine .bind _ (setMaskingFor_basepri enforceInterrupts m₅) fun _ m₆ h₆ => ?_
    have h₇ := (loadRegisters_basepri ((List.range 16).map (highFpAddr context)) m₆).trans h₆
    refine .bind (fun _ m => m.basepri = maskingFor enforceInterrupts) h₇ fun _ m₇ h₇ => ?_
    have h₈ := (loadRegisters_basepri (savedRegisters.map fun r => r.extendedAddr context) m₇).trans h₇
    refine .bind (fun _ m => m.basepri = maskingFor enforceInterrupts) h₈ fun highRegs m₈ h₈ => ?_
    exact h₈

theorem switchContextCont_settles (callee flagsOnYield ctx : Nat)
    : Settles SameMasking Machine.MasksOnlyRoot (switchContextCont callee flagsOnYield ctx) := by
  intro m
  let pipflags := readWord m.state.bytes (pipflagsAddr ctx)
  let Ready (m' : Machine) : Prop := m'.state.currentPartition = callee
    ∧ (m'.state.pdtables.get callee).interruptState = pipflags
    ∧ readWord m'.state.bytes (pipflagsAddr ctx) = pipflags
  unfold switchContextCont
  refine .bind (fun _ m' => m'.state.bytes = m.state.bytes) rfl fun _ m₁ h₁ => ?_
  refine .bind (fun _ m' => m'.state.bytes = m.state.bytes ∧ m'.state.currentPartition = callee) ⟨h₁, rfl⟩
    fun _ m₂ h₂ => ?_
  refine .bind (fun flags m' => flags = pipflags ∧ m'.state.bytes = m.state.bytes
    ∧ m'.state.currentPartition = callee) ⟨?_, h₂⟩ fun flags m₃ h₃ => ?_
  . exact congrArg (fun bytes => readWord bytes (pipflagsAddr ctx)) h₂.1
  rcases h₃ with ⟨rfl, h₃⟩
  refine .bind (fun _ m' => Ready m') ⟨h₃.2, ?_, ?_⟩ fun _ m₄ h₄ => ?_
  . show (((m₃.state.pdtables.set m₃.state.currentPartition _).get callee)).interruptState = pipflags
    rw [h₃.2, Mem.get_set_self]
  . exact congrArg (fun bytes => readWord bytes (pipflagsAddr ctx)) h₃.1
  refine .bind (fun root m' => root = m'.state.constantRootPartM ∧ Ready m') ⟨rfl, h₄⟩ fun root m₅ h₅ => ?_
  rcases h₅ with ⟨rfl, h₅⟩
  refine .bind (fun flags m' => flags = pipflags ∧ m'.state.constantRootPartM = m₅.state.constantRootPartM
    ∧ Ready m') ⟨h₅.2.2, rfl, h₅⟩ fun flags m₆ h₆ => ?_
  rcases h₆ with ⟨rfl, hroot, h₆⟩
  let enforceInterrupts := !(callee == m₅.state.constantRootPartM && pipflags == 0)
  have hbasepri := loadContext_basepri ctx enforceInterrupts m₆
  have hkeeps := loadContext_keeps ctx enforceInterrupts m₆
  refine .bind (fun _ m' => m'.basepri = maskingFor enforceInterrupts ∧ SameKernel m₆ m') ⟨hbasepri, hkeeps⟩
    fun resumption m₇ h₇ => ?_
  show m₇.MasksOnlyRoot
  intro hmask
  have henforce : enforceInterrupts = false := by
    cases h : enforceInterrupts with
    | false => rfl
    | true =>
      rw [h] at h₇
      exact absurd h₇.1 hmask
  simp only [enforceInterrupts, Bool.not_eq_false', Bool.and_eq_true, beq_iff_eq] at henforce
  have hcallee : callee = m₆.state.constantRootPartM := henforce.1.trans hroot.symm
  have hstate : m₇.state = { m₆.state with bytes := m₇.state.bytes } := h₇.2
  constructor
  . rw [hstate]
    exact h₆.1.trans hcallee
  . rw [hstate]
    show (m₆.state.pdtables.get m₆.state.constantRootPartM).interruptState = 0
    rw [← hcallee, h₆.2.1]
    exact henforce.2

theorem switchSteps : SwitchSteps SameMasking Machine.MasksOnlyRoot where
  read _ hop := SameMasking.lift (Keeps.of_eq hop)
  write _ _ := SameMasking.lift fun _ => KeepsMask.of_pdtables rfl rfl rfl
  log _ _ _ _ := ⟨rfl, Std.Refl.refl _⟩
  fpu _ _ := ⟨rfl, Std.Refl.refl _⟩
  switch := switchContextCont_settles

/-
The runs
-/

theorem setIntState_masksOnlyRoot (interruptState : Nat) (m : Machine) (h : m.MasksOnlyRoot)
    : (setIntState interruptState m).2.MasksOnlyRoot := by
  unfold setIntState
  simp only [Handler.bind_run, Handler.ite_run, Handler.lift_run]
  split
  . next hcur =>
    have hcur : m.state.currentPartition = m.state.constantRootPartM := hcur
    split
    . next hzero =>
      refine fun _ => ⟨hcur, ?_⟩
      show ((m.state.pdtables.set m.state.currentPartition _).get m.state.constantRootPartM).interruptState = 0
      rw [← hcur, Mem.get_set_self]
      exact hzero
    . exact fun hmask => absurd rfl hmask
  . next hcur => exact fun hmask => absurd (h hmask).1 hcur

theorem MemManage_Handler_C_masksOnlyRoot (fuel : Nat) (scs : MemFaultStatus) (ctx flag : Nat) {m : Machine}
    (h : m.MasksOnlyRoot)
    : (MemManage_Handler_C fuel scs ctx flag).Ensures m fun outcome m' =>
      outcome.resumes = true → m'.MasksOnlyRoot := by
  have hread : Keeps SameMasking (Handler.lift (getFaultedAddress scs ctx)) :=
    SameMasking.lift (Keeps.of_eq (getFaultedAddress_state scs ctx))
  refine .bind (fun _ m' => SameMasking m m') (hread m) fun fault m₁ h₁ => ?_
  rcases fault with ⟨addr, cause⟩
  refine .bind (fun _ m' => SameMasking m₁ m') ?_ fun programmed m₂ h₂ => ?_
  . cases cause with
    | DACCVIOL => exact SameMasking.lift (KeepsMask.reconfigureOne_keeps _ _ _) m₁
    | IACCVIOL16 => exact SameMasking.lift (KeepsMask.reconfigureOne_keeps _ _ _) m₁
    | IACCVIOL32 => exact SameMasking.lift (KeepsMask.reconfigureTwo_keeps _ _) m₁
    | UNKNOWN => exact SameMasking.lift (LLI.keeps_pure none) m₁
  cases programmed with
  | some programmed => exact fun _ => h₂.masksOnlyRoot (h₁.masksOnlyRoot h)
  | none =>
    refine .bind _ (switchSteps.Fault_Handler_C_Irq_resumes fuel ctx scs.VECTACTIVE m₂) fun outcome m₃ h₃ => ?_
    intro hresumes
    cases outcome with
    | none => exact absurd hresumes (by simp [MemManageOutcome.resumes])
    | some outcome => exact h₃ hresumes

/--
Stores away from the descriptor of the root leave its interrupt state as it is.
-/
theorem Machine.MasksOnlyRoot.stored {α : Type} {op : Handler α} {m : Machine} (h : (op m.marked).2.MasksOnlyRoot)
    (hstores : ∀ x ∈ (op.stored m).2.state.stores, x ∉ pdRange (op.stored m).2.state.constantRootPartM)
    : (op.stored m).2.MasksOnlyRoot := by
  intro hmask
  have hroot := h hmask
  refine ⟨hroot.1, ?_⟩
  have hdescriptor := overlay_descriptor (s := (op m.marked).2.state) hstores
  exact (congrArg PDTable.interruptState hdescriptor).trans hroot.2

theorem Machine.MasksOnlyRoot.next {m m' : Machine} {event : KernelEvent} (h : m.MasksOnlyRoot)
    (hstores : (∀ call, event ≠ .service call) → ∀ x ∈ m'.state.stores, x ∉ pdRange m'.state.constantRootPartM)
    (hnext : m.next event = some m') : m'.MasksOnlyRoot := by
  have hmarked : m.marked.MasksOnlyRoot := h
  cases event with
  | user stores fpRegs =>
    rcases Option.some.inj hnext with rfl
    have hwritten : (Handler.lift (writeBytes stores) m.marked).2.MasksOnlyRoot := hmarked
    exact Machine.MasksOnlyRoot.stored hwritten (hstores (by simp))
  | service call =>
    rcases Option.some.inj hnext with rfl
    exact SameMasking.masksOnlyRoot (m := m) ⟨rfl, KeepsMask.after m.state call⟩ h
  | findBlock idPD addrInBlock blockResult =>
    rcases Option.some.inj hnext with rfl
    refine Machine.MasksOnlyRoot.stored ?_ (hstores (by simp))
    exact SameMasking.masksOnlyRoot (m := m.marked) ⟨rfl, KeepsMask.findBlock_keeps _ _ _ m.marked.state⟩ hmarked
  | setIntState interruptState =>
    rcases Option.some.inj hnext with rfl
    refine Machine.MasksOnlyRoot.stored ?_ (hstores (by simp))
    exact setIntState_masksOnlyRoot interruptState m.marked hmarked
  | yield context calleePartDescLocalId userTargetInterrupt userCallerContextSaveIndex flagsOnYield flagsOnWake =>
    rcases Option.some.inj hnext with rfl
    refine Machine.MasksOnlyRoot.stored ?_ (hstores (by simp))
    exact SameMasking.of_settled hmarked (switchSteps.yieldGlue_settles _ _ _ _ _ _ m.marked)
  | interrupt context currentInterrupt =>
    rcases next_of_resumes HandlerOutcome.resumes hnext with ⟨hresumes, rfl⟩
    refine Machine.MasksOnlyRoot.stored ?_ (hstores (by simp))
    exact switchSteps.Interrupt_Handler_C_resumes context currentInterrupt m.marked hresumes
  | fault fuel ctx irq =>
    rcases next_of_resumes (Option.any HandlerOutcome.resumes) hnext with ⟨hresumes, rfl⟩
    refine Machine.MasksOnlyRoot.stored ?_ (hstores (by simp))
    exact switchSteps.Fault_Handler_C_Irq_resumes fuel ctx irq m.marked hresumes
  | memManage fuel scs ctx flag =>
    rcases next_of_resumes MemManageOutcome.resumes hnext with ⟨hresumes, rfl⟩
    refine Machine.MasksOnlyRoot.stored ?_ (hstores (by simp))
    exact MemManage_Handler_C_masksOnlyRoot fuel scs ctx flag hmarked hresumes

theorem Layout.Boot_Handler_masksOnlyRoot (layout : Layout) (rootPartCtx : Nat) (m : Machine)
    : (layout.Boot_Handler rootPartCtx).Ensures m fun outcome m' =>
      outcome.resumes = true → m'.MasksOnlyRoot := by
  refine .bind (fun _ _ => True) trivial fun isInitialized m₁ _ => ?_
  refine .cond (fun _ hresumes => absurd hresumes (by simp [HandlerOutcome.resumes])) fun _ => ?_
  iterate 9 refine .bind (fun _ _ => True) trivial fun _ _ _ => ?_
  exact (switchSteps.switch _ _ _).handler _

/--
Of the runs in which nothing is written over kernel data `BASEPRI` masks interrupts only while the root runs with the
interrupt state 0, it is zero while another partition runs.
-/
theorem basepri_of_reachable {m : Machine} (h : (Machine.system.restrict Machine.Orderly).Reachable m)
    : (m.basepri ≠ 0 → m.state.currentPartition = m.state.constantRootPartM
        ∧ (m.state.pdtables.get m.state.currentPartition).interruptState = 0)
      ∧ (m.state.currentPartition ≠ m.state.constantRootPartM → m.basepri = 0) := by
  have hmasks : m.MasksOnlyRoot := by
    induction h with
    | init hm =>
      rcases hm with ⟨layout, rootPartCtx, m₀, hresumes, rfl⟩
      exact layout.Boot_Handler_masksOnlyRoot rootPartCtx m₀ hresumes
    | @step m m' event hreach hstep ih =>
      rcases hstep with ⟨horderly, hnext⟩
      refine ih.next (fun hevent x hx => ?_) hnext
      rcases Machine.exists_layout hreach with ⟨layout, hreach⟩
      rcases Machine.view_of_reachable Machine.kept_settled hreach with ⟨C, hsim, hC, -⟩
      rcases Machine.next_view hsim hC.static hevent horderly hnext with ⟨q, -, -, hsim'⟩
      have hroot : m'.state.constantRootPartM = m.state.constantRootPartM := hsim'.root.trans hsim.root.symm
      rw [hroot]
      exact (horderly.stores hevent hnext x hx _ .root).1
  refine ⟨fun hmask => ?_, fun hcur => ?_⟩
  . have hroot := hmasks hmask
    exact ⟨hroot.1, hroot.1.symm ▸ hroot.2⟩
  . by_contra hmask
    exact hcur (hmasks hmask).1

/-
The root yields to itself with a context whose flags are 0
-/

/--
The VIDT holds the context at 0x20000600 for the interrupt 20, the root is interrupted with the one at 0x20000700.
-/
def selfContext : List (Nat × Nat) :=
  [
    (vidtContextAddr Layout.small.rootVidtStart 20, 0x20000600),
    (isBasicFrameAddr 0x20000600, 1),
    (Register.sp.basicAddr 0x20000600, 0x20000900),
    (isBasicFrameAddr 0x20000700, 1)
  ]

def writeSelfContext : KernelEvent := .user (wordStores selfContext) []

def yieldToSelf : KernelEvent := .yield 0x20000700 Layout.small.rootPartDesc 20 21 0 1

/--
The root lets interrupts in before.
-/
def unmasked : Machine := (Machine.booted.next (.setIntState 1)).getD Machine.booted

def beforeSelfYield : Machine := (unmasked.next writeSelfContext).getD unmasked

def afterSelfYield : Machine := (beforeSelfYield.next yieldToSelf).getD beforeSelfYield

theorem unmasked_eval
    : unmasked.state.Lists rootTree ∧ ∀ x ∈ unmasked.state.stores, State.OutsideListed rootTree x := by
  decide +kernel

theorem selfYield_eval
    : (beforeSelfYield.state.Lists rootTree ∧ ∀ x ∈ beforeSelfYield.state.stores, State.OutsideListed rootTree x)
        ∧ (∀ x ∈ afterSelfYield.state.stores, State.OutsideListed rootTree x) ∧ afterSelfYield.basepri ≠ 0 := by
  decide +kernel

theorem unmasked_next : Machine.booted.next (.setIntState 1) = some unmasked := by
  rfl

theorem beforeSelfYield_next : unmasked.next writeSelfContext = some beforeSelfYield := by
  rfl

theorem afterSelfYield_next : beforeSelfYield.next yieldToSelf = some afterSelfYield := by
  rfl

theorem afterSelfYield_orderly : (Machine.system.restrict Machine.Orderly).Reachable afterSelfYield := by
  have hbooted : (Machine.system.restrict Machine.Orderly).Reachable Machine.booted :=
    .init ⟨Layout.small, _, _, booted_resumes, rfl⟩
  rcases unmasked_eval with ⟨hlists₁, hstores₁⟩
  rcases selfYield_eval with ⟨⟨hlists₂, hstores₂⟩, hstores₃, -⟩
  have h₁ := System.Reachable.step hbooted ⟨.of_lists (by simp) booted_lists unmasked_next hstores₁, unmasked_next⟩
  have h₂ := System.Reachable.step h₁
    ⟨.of_lists (by simp [writeSelfContext]) hlists₁ beforeSelfYield_next hstores₂, beforeSelfYield_next⟩
  exact .step h₂ ⟨.of_lists (by simp [yieldToSelf]) hlists₂ afterSelfYield_next hstores₃, afterSelfYield_next⟩

/--
After the yield interrupts are masked, and the root runs.
-/
theorem basepri_selfYield
    : afterSelfYield.basepri ≠ 0 ∧ afterSelfYield.state.currentPartition = afterSelfYield.state.constantRootPartM
        ∧ (afterSelfYield.state.pdtables.get afterSelfYield.state.currentPartition).interruptState = 0 :=
  ⟨selfYield_eval.2.2, (basepri_of_reachable afterSelfYield_orderly).1 selfYield_eval.2.2⟩

/-
The root writes over its descriptor
-/

/--
The root makes the entry at 0x20009000 of a block and lets `findBlock` write a record over its first bytes: the block
then reaches from 0x2000 to 0xFFFF0001. The second record is written over the end of the descriptor of the root.
-/
def overwriteDescriptor : List KernelEvent :=
  [
    .service (.cutMemoryBlock 0x2000F122 0x10000 8),
    .service (.cutMemoryBlock 0x2000F111 0x20009000 8),
    .service (.prepare 0x2000F000 0x2000F144),
    .service (.cutMemoryBlock 0x2000F100 0x20004000 8),
    .findBlock 0x2000F000 0x10000 0x20008FFE,
    .findBlock 0x2000F000 0x10000 0x2000F074
  ]

theorem overwriteDescriptor_eval
    : (Machine.booted.run overwriteDescriptor).map (fun m =>
          (m.basepri, (m.state.pdtables.get m.state.currentPartition).interruptState))
        =
      some (basepriMasking, 0x2000) := by
  decide +kernel

/--
Interrupts are masked and the root runs with the interrupt state 0x2000.
-/
theorem not_masksOnlyRoot
    : ¬∀ m, Machine.system.Reachable m →
      (m.basepri ≠ 0 → m.state.currentPartition = m.state.constantRootPartM
        ∧ (m.state.pdtables.get m.state.currentPartition).interruptState = 0)
      ∧ (m.state.currentPartition ≠ m.state.constantRootPartM → m.basepri = 0) := by
  intro hall
  rcases Option.map_eq_some_iff.mp overwriteDescriptor_eval with ⟨m, hrun, heq⟩
  rw [Prod.mk.injEq] at heq
  have hreach : Machine.system.Reachable m :=
    Machine.reachable_of_run (.init ⟨Layout.small, _, _, booted_resumes, rfl⟩) hrun
  have hmask : m.basepri ≠ 0 := by
    rw [heq.1]
    decide
  have hzero := ((hall m hreach).1 hmask).2
  rw [heq.2] at hzero
  exact absurd hzero (by decide)
