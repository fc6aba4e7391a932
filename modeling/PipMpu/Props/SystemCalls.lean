import PipMpu.Core.SvcHandler
import PipMpu.Props.KernelRuns

/-!
This module contains the runs of the kernel behind its entry points: a partition that calls a service executes an SVC
instruction, with any number in it and anything in its registers. The runs of the kernel are theirs, and the registers
of the peripherals are those of the root.
-/

namespace State

/--
The register of the context that an SVC instruction stacked.
-/
def stacked (s : State) (context : Nat) (r : Register) : Nat :=
  readWord s.bytes (r.stackedAddr context (readWord s.bytes (isBasicFrameAddr context)))

def svcNumber? (s : State) (context : Nat) : Option SvcNumber :=
  SvcNumber.ofNat? (s.bytes.get (sub32 (s.stacked context .pc) 2) % 256)

/--
The call of a service that the context stands for.
-/
def requested (s : State) (context : Nat) : Option ServiceCall :=
  let r := s.stacked context
  match s.svcNumber? context with
  | some .createPartition => some (.createPartition (r .r0))
  | some .cutMemoryBlock => some (.cutMemoryBlock (r .r0) (r .r1) (r .r2))
  | some .mergeMemoryBlock => some (.mergeMemoryBlocks (r .r0) (r .r1) (r .r2))
  | some .prepare => some (.prepare (r .r0) (r .r1))
  | some .addMemoryBlock =>
    some (.addMemoryBlock (r .r0) (r .r1) ((r .r2).testBit 2) ((r .r2).testBit 1) ((r .r2).testBit 0))
  | some .removeMemoryBlock => some (.removeMemoryBlock (r .r0))
  | some .deletePartition => some (.deletePartition (r .r0))
  | some .collect => some (.collect (r .r0))
  | some .mapMPU => some (.mapMPU (r .r0) (r .r1) (r .r2))
  | some .readMPU => some (.readMPU (r .r0) (r .r1))
  | some .setVIDT => some (.setVIDT (r .r0) (r .r1))
  | _ => none

/--
The state after the service that the context stands for, before its result is written.
-/
def served (s : State) (context : Nat) : State :=
  match s.requested context with
  | some call => s.after call
  | none => s

/--
The context stands for an access to a register of the peripherals.
-/
def AccessesRegister (s : State) (context : Nat) : Prop :=
  s.svcNumber? context = some .in_ ∨ s.svcNumber? context = some .out

instance (s : State) (context : Nat) : Decidable (s.AccessesRegister context) := inferInstanceAs (Decidable (_ ∨ _))

variable (s : State) (context : Nat)

theorem stacked_marked (r : Register) : s.marked.stacked context r = s.stacked context r := by
  unfold stacked
  rw [readWord_marked, readWord_marked]

theorem svcNumber?_marked : s.marked.svcNumber? context = s.svcNumber? context := by
  have hpc := stacked_marked s context .pc
  unfold svcNumber?
  generalize s.marked.stacked context .pc = pc at hpc
  rw [hpc]
  exact congrArg (fun byte => SvcNumber.ofNat? (byte % 256)) (get_marked s (sub32 (s.stacked context .pc) 2))

theorem requested_congr {s s' : State} {context : Nat} (hstacked : s'.stacked context = s.stacked context)
    (hnumber : s'.svcNumber? context = s.svcNumber? context) : s'.requested context = s.requested context := by
  unfold requested
  rw [hnumber, hstacked]

theorem requested_marked : s.marked.requested context = s.requested context :=
  requested_congr (funext (stacked_marked s context)) (svcNumber?_marked s context)

variable {s context}

theorem served_of_none (h : s.requested context = none) : s.served context = s := by
  unfold served
  rw [h]

theorem served_of_some {call : ServiceCall} (h : s.requested context = some call)
    : s.served context = s.after call := by
  unfold served
  rw [h]

end State

namespace SvcOutcome

/--
The handler returns to the caller or a partition is resumed.
-/
def resumes : SvcOutcome → Bool
  | returned => true
  | resumed _ => true
  | faulted outcome => outcome.any HandlerOutcome.resumes

end SvcOutcome

inductive BoardEvent (δ : Type) where
  -- the code of a partition runs, an exception entry stacks its context, and the peripherals work
  | user (stores : List (Paddr × Nat)) (fpRegs : List Word) (peripherals : δ)
  | svc (fuel : Nat) (context : Paddr)
  | interrupt (context : Paddr) (currentInterrupt : Nat)
  | fault (fuel : Nat) (ctx : Paddr) (irq : Nat)
  | memManage (fuel : Nat) (scs : MemFaultStatus) (ctx : Paddr) (flag : Nat)

namespace Board

variable {δ : Type}

def state (b : Board δ) : State := b.machine.state

def marked (b : Board δ) : Board δ := { b with machine := b.machine.marked }

def overlay (b : Board δ) : Board δ := { b with machine := b.machine.overlay }

theorem state_marked (b : Board δ) : b.marked.state = b.state.marked := by
  rfl

theorem state_overlay (b : Board δ) : b.overlay.state = b.state.overlay := by
  rfl

theorem peripherals_overlay (b : Board δ) : b.overlay.peripherals = b.peripherals := by
  rfl

end Board

/--
Run a handler whose stores reach the kernel objects when it has run.
-/
def BoardHandler.stored {δ α : Type} (h : BoardHandler δ α) : BoardHandler δ α := fun b =>
  ((h b.marked).1, (h b.marked).2.overlay)

theorem BoardHandler.stored_snd {δ α : Type} (h : BoardHandler δ α) (b : Board δ)
    : (h.stored b).2 = (h b.marked).2.overlay := by
  rfl

namespace Board

variable {δ : Type}

/--
The board on which a partition runs again.
-/
def next (bus : Bus δ) (b : Board δ) : BoardEvent δ → Option (Board δ)
  | .user stores fpRegs peripherals =>
    (b.machine.next (.user stores fpRegs)).map fun machine => { machine, peripherals }
  | .svc fuel context =>
    let run := (SVC_Handler_C bus fuel context).stored b
    if run.1.resumes then some run.2 else none
  | .interrupt context currentInterrupt =>
    (b.machine.next (.interrupt context currentInterrupt)).map fun machine => { b with machine }
  | .fault fuel ctx irq => (b.machine.next (.fault fuel ctx irq)).map fun machine => { b with machine }
  | .memManage fuel scs ctx flag =>
    (b.machine.next (.memManage fuel scs ctx flag)).map fun machine => { b with machine }

/--
The runs from the boot with this layout.
-/
def systemFrom (layout : Layout) (bus : Bus δ) : System (Board δ) (BoardEvent δ) where
  init b := (Machine.systemFrom layout).init b.machine
  step b event b' := b.next bus event = some b'

/--
The events that the isolation of the partitions relies on: the services are called as in `State.Orderly`, and nothing
else that is written, the result of a service among it, reaches the descriptors and structures of the partitions. As
in `Machine.Orderly` it does not matter then that the kernel objects lie in memories of their own.
-/
def Orderly (bus : Bus δ) (b : Board δ) : BoardEvent δ → Prop
  | .svc fuel context =>
    (∀ call, b.state.requested context = some call → b.state.marked.Orderly (b.state.currentPartition, call))
      ∧ ∀ b', b.next bus (.svc fuel context) = some b' →
        ∀ x ∈ b'.state.stores, (b.state.marked.served context).OutsideKernelData x
  | event => ∀ b', b.next bus event = some b' → ∀ x ∈ b'.state.stores, b.state.OutsideKernelData x

end Board

namespace BoardEvent

variable {δ : Type}

/--
The partitions that may run after the event.
-/
def HandsTo (s : State) : BoardEvent δ → Nat → Prop
  | svc _ context, q => q = s.currentPartition
      ∨ (s.svcNumber? context = some .yield ∧ (KernelEvent.yield context (s.stacked context .r0)
        (s.stacked context .r1) (s.stacked context .r2) (s.stacked context .r3) (s.stacked context .r4)).HandsTo s q)
      ∨ (s.AccessesRegister context ∧ Relation.TransGen s.IsChild q s.currentPartition)
  | interrupt context currentInterrupt, q => (KernelEvent.interrupt context currentInterrupt).HandsTo s q
  | fault fuel ctx irq, q => (KernelEvent.fault fuel ctx irq).HandsTo s q
  | memManage fuel scs ctx flag, q => (KernelEvent.memManage fuel scs ctx flag).HandsTo s q
  | user _ _ _, q => q = s.currentPartition

theorem HandsTo.of_marked {s : State} {fuel context q : Nat}
    (h : (svc fuel context : BoardEvent δ).HandsTo s.marked q) : (svc fuel context : BoardEvent δ).HandsTo s q := by
  rcases h with hself | ⟨hnumber, hhands⟩ | ⟨haccess, hpath⟩
  . exact .inl hself
  . rw [State.svcNumber?_marked] at hnumber
    simp only [State.stacked_marked] at hhands
    exact .inr (.inl ⟨hnumber, hhands⟩)
  . unfold State.AccessesRegister at haccess
    rw [State.svcNumber?_marked] at haccess
    exact .inr (.inr ⟨haccess, hpath⟩)

end BoardEvent

/-
The handler of system calls
-/

section Handler

variable {δ : Type} (bus : Bus δ) (fuel : Nat) (context : Nat) (b : Board δ)

theorem service_readMemory (addr : Nat)
    : BoardHandler.service (readMemory addr) b = (readWord b.state.bytes addr, b) := by
  rfl

theorem service_readSvcNumber (pc : Nat)
    : BoardHandler.service (readSvcNumber pc) b = (b.state.bytes.get (sub32 pc 2) % 256, b) := by
  rfl

theorem SVC_Handler_C_run
    : SVC_Handler_C bus fuel context b
        =
      callSvc bus fuel context (Register.r0.stackedAddr context (readWord b.state.bytes (isBasicFrameAddr context)))
        (Register.r1.stackedAddr context (readWord b.state.bytes (isBasicFrameAddr context)))
        (b.state.stacked context .r0) (b.state.stacked context .r1) (b.state.stacked context .r2)
        (b.state.stacked context .r3) (b.state.stacked context .r4) (b.state.svcNumber? context) b := by
  unfold SVC_Handler_C State.svcNumber? State.stacked
  simp only [BoardHandler.bind_run, service_readMemory, service_readSvcNumber]

/--
The board in whose memory these bytes are, and whose state is that of `s` besides.
-/
def Board.withState (b : Board δ) (s : State) (bytes : Mem Nat) : Board δ :=
  { b with machine := { b.machine with state := { s with bytes } } }

theorem returnIn_run (addr : Nat) (op : LLI Word)
    : ∃ bytes, returnIn addr op b = (.returned, b.withState (op b.state).2 bytes) :=
  ⟨writeWord (op b.state).2.bytes addr (op b.state).1, rfl⟩

theorem returnIn_toNat_run (addr : Nat) (op : LLI Bool)
    : ∃ bytes, returnIn addr (Bool.toNat <$> op) b = (.returned, b.withState (op b.state).2 bytes) :=
  returnIn_run b addr (Bool.toNat <$> op)

/--
The service is run, and its result is written to the memory.
-/
theorem SVC_Handler_C_requested {call : ServiceCall} (hcall : b.state.requested context = some call)
    : ∃ bytes, SVC_Handler_C bus fuel context b = (.returned, b.withState (b.state.after call) bytes) := by
  rw [SVC_Handler_C_run]
  unfold State.requested at hcall
  cases hnumber : b.state.svcNumber? context with
  | none => simp [hnumber] at hcall
  | some number =>
    rw [hnumber] at hcall
    cases number <;> simp only [reduceCtorEq, Option.some.injEq] at hcall
    all_goals
      rw [← hcall, callSvc, State.after]
      first
      | with_reducible exact returnIn_toNat_run b _ _
      | with_reducible exact returnIn_run b _ _

/--
The access to the register that the id stands for.
-/
inductive Performs (b : Board δ) (id val : Nat) : RegisterAccessType → Board δ → Prop where
  | read {entry : RegisterIdToAccessor} (hentry : REGISTER_ID_TO_ACCESSOR[id]? = some entry)
    : Performs b id val .read
        {
          machine := (Handler.lift (writeMemory val (bus.read entry.address b.peripherals).1) b.machine).2
          peripherals := (bus.read entry.address b.peripherals).2
        }
  | write {entry : RegisterIdToAccessor} (hentry : REGISTER_ID_TO_ACCESSOR[id]? = some entry)
    : Performs b id val .write
        { b with peripherals := bus.write entry.address (readWord b.state.bytes val) b.peripherals }

/--
The root has access to the registers of the table, anything else ends in the fault handler.
-/
theorem doAccess_run (type : RegisterAccessType) (id val : Nat)
    : (b.state.currentPartition = b.state.constantRootPartM ∧ (doAccess bus fuel context type id val b).1 = .returned
        ∧ Performs bus b id val type (doAccess bus fuel context type id val b).2)
      ∨ ((b.state.currentPartition ≠ b.state.constantRootPartM ∨ ARRAY_SIZE ≤ id)
        ∧ doAccess bus fuel context type id val b = accessFault fuel context b) := by
  unfold doAccess
  rw [BoardHandler.bind_run, BoardHandler.bind_run, BoardHandler.ite_run]
  split
  . next hroot => exact .inr ⟨.inl (Ne.symm hroot), rfl⟩
  . next hroot =>
    cases hentry : REGISTER_ID_TO_ACCESSOR[id]? with
    | none => exact .inr ⟨.inr (List.getElem?_eq_none_iff.mp hentry), rfl⟩
    | some entry =>
      simp only [accessor_eq (List.mem_of_getElem? hentry)]
      refine .inl ⟨(not_not.mp hroot).symm, ?_⟩
      cases type with
      | read => exact ⟨rfl, .read hentry⟩
      | write => exact ⟨rfl, .write hentry⟩

theorem getIntState_state (childPartDescBlockLocalId : Nat) (s : State)
    : (getIntState childPartDescBlockLocalId s).2 = s := by
  unfold getIntState
  rw [LLI.bind_run, LLI.bind_run, LLI.ite_run, checkChildOfCurrPart_state]
  split <;> rfl

/--
A code is written to the register, or a partition is resumed.
-/
theorem callSvc_yield_view {C : Conf} (addr0 addr1 r0 r1 r2 r3 r4 : Nat)
    (h : Sim (yieldGlue context r0 r1 r2 r3 r4 b.machine).2.state C)
    : Sim (callSvc bus fuel context addr0 addr1 r0 r1 r2 r3 r4 (some .yield) b).2.state C := by
  rw [callSvc, BoardHandler.bind_run, BoardHandler.lift_run]
  generalize yieldGlue context r0 r1 r2 r3 r4 b.machine = run at h
  rcases run with ⟨code | resumption, m⟩
  . exact h.of_bytes _
  . exact h

variable {bus fuel context b}

/--
An access that is not made hands the processor to a partition above the one that runs.
-/
theorem accessFault_view {C : Conf} (h : Sim b.state C) (hC : C.Static)
    (hresumes : (accessFault fuel context b).1.resumes = true)
    : ∃ q, C.Live q ∧ Relation.TransGen b.state.IsChild q b.state.currentPartition
        ∧ Sim (accessFault fuel context b).2.state (C.switch q) := by
  rcases Fault_Handler_C_Irq_hands hC fuel context MEMMANAGE_IRQ_NUMBER h hresumes with ⟨q, hup, hsim⟩
  refine ⟨q, Conf.HigherUp.live hC hC.cur_live hup, ?_, hsim⟩
  rw [h.cur]
  exact h.path_of_higherUp hC hC.cur_live hup

theorem doAccess_view {C : Conf} (h : Sim b.state C) (hC : C.Static) (type : RegisterAccessType) (id val : Nat)
    (hresumes : (doAccess bus fuel context type id val b).1.resumes = true)
    : ∃ q, C.Live q ∧ (q = b.state.currentPartition ∨ Relation.TransGen b.state.IsChild q b.state.currentPartition)
        ∧ Sim (doAccess bus fuel context type id val b).2.state (C.switch q) := by
  rcases doAccess_run bus fuel context b type id val with ⟨-, -, hperforms⟩ | ⟨-, hfault⟩
  . refine ⟨C.cur, hC.cur_live, .inl h.cur.symm, ?_⟩
    generalize (doAccess bus fuel context type id val b).2 = b' at hperforms
    cases hperforms with
    | read hentry => exact h.of_bytes _
    | write hentry => exact h
  . rw [hfault] at hresumes ⊢
    rcases accessFault_view h hC hresumes with ⟨q, hq, hpath, hsim⟩
    exact ⟨q, hq, .inr hpath, hsim⟩

theorem SVC_Handler_C_view {C : Conf} (h : Sim b.state C) (hC : C.Static)
    (hnone : b.state.requested context = none) (hresumes : (SVC_Handler_C bus fuel context b).1.resumes = true)
    : ∃ q, C.Live q ∧ (BoardEvent.svc fuel context : BoardEvent δ).HandsTo b.state q
        ∧ Sim (SVC_Handler_C bus fuel context b).2.state (C.switch q) := by
  have hself : ∀ b' : Board δ, Sim b'.state C → ∃ q, C.Live q
      ∧ (BoardEvent.svc fuel context : BoardEvent δ).HandsTo b.state q ∧ Sim b'.state (C.switch q) :=
    fun b' h' => ⟨C.cur, hC.cur_live, .inl h.cur.symm, h'⟩
  have hreturn : ∀ (addr : Nat) (op : LLI Word), Sim (op b.state).2 C → Sim (returnIn addr op b).2.state C := by
    intro addr op hop
    rcases returnIn_run b addr op with ⟨bytes, hrun⟩
    rw [hrun]
    exact hop.of_bytes bytes
  have hreturn' : ∀ (addr : Nat) (op : LLI Bool), Sim (op b.state).2 C →
      Sim (returnIn addr (Bool.toNat <$> op) b).2.state C := fun addr op hop => hreturn addr _ hop
  rw [SVC_Handler_C_run] at hresumes ⊢
  unfold State.requested at hnone
  cases hnumber : b.state.svcNumber? context with
  | none => exact hself _ h
  | some number =>
    rw [hnumber] at hnone hresumes
    cases number <;> simp only [reduceCtorEq] at hnone
    case findBlock => exact hself _ (hreturn' _ _ (Unseen.findBlock _ _ _ _ _ h))
    case yield =>
      rcases yieldGlue_view (m := b.machine) h hC context (b.state.stacked context .r0) (b.state.stacked context .r1)
        (b.state.stacked context .r2) (b.state.stacked context .r3) (b.state.stacked context .r4)
        with ⟨q, hq, hhands, hsim⟩
      exact ⟨q, hq, .inr (.inl ⟨hnumber, hhands⟩), callSvc_yield_view bus fuel context b _ _ _ _ _ _ _ hsim⟩
    case getIntState => exact hself _ (hreturn _ _ (by rw [getIntState_state]; exact h))
    case getSelfIntState => exact hself _ (hreturn _ _ h)
    case setIntState => exact hself _ (setIntState_view (m := b.machine) h _)
    case in_ =>
      rcases doAccess_view h hC .read _ _ hresumes with ⟨q, hq, hself | hpath, hsim⟩
      . exact ⟨q, hq, .inl hself, hsim⟩
      . exact ⟨q, hq, .inr (.inr ⟨.inl hnumber, hpath⟩), hsim⟩
    case out =>
      rcases doAccess_view h hC .write _ _ hresumes with ⟨q, hq, hself | hpath, hsim⟩
      . exact ⟨q, hq, .inl hself, hsim⟩
      . exact ⟨q, hq, .inr (.inr ⟨.inr hnumber, hpath⟩), hsim⟩

end Handler

/-
The runs
-/

namespace Board

variable {δ : Type} {bus : Bus δ} {layout : Layout} {b b' : Board δ}

/--
An exception is an event of the kernel.
-/
theorem next_machine {event : KernelEvent}
    (hnext : ((b.machine.next event).map fun machine => { b with machine }) = some b')
    : b.machine.next event = some b'.machine := by
  rcases Option.map_eq_some_iff.mp hnext with ⟨machine, hmachine, rfl⟩
  exact hmachine

theorem next_user {stores : List (Paddr × Nat)} {fpRegs : List Word} {peripherals : δ}
    (hnext : b.next bus (.user stores fpRegs peripherals) = some b')
    : b.machine.next (.user stores fpRegs) = some b'.machine := by
  rw [next] at hnext
  rcases Option.map_eq_some_iff.mp hnext with ⟨machine, hmachine, rfl⟩
  exact hmachine

theorem next_of_resumes {op : BoardHandler δ SvcOutcome}
    (hnext : (if (op.stored b).1.resumes then some (op.stored b).2 else none) = some b')
    : (op b.marked).1.resumes = true ∧ b' = (op.stored b).2 := by
  rcases Option.ite_none_right_eq_some.mp hnext with ⟨hresumes, heq⟩
  exact ⟨hresumes, (Option.some.inj heq).symm⟩

theorem next_svc {fuel context : Nat} (hnext : b.next bus (.svc fuel context) = some b')
    : (SVC_Handler_C bus fuel context b.marked).1.resumes = true
        ∧ b' = (SVC_Handler_C bus fuel context b.marked).2.overlay := by
  rw [← BoardHandler.stored_snd]
  exact next_of_resumes hnext

/--
What an event leads to, if it is no call of a service: the view is kept but for the partition that runs.
-/
theorem next_view {C : Conf} (h : Sim b.state C) (hC : C.Static) {event : BoardEvent δ}
    (hevent : ∀ fuel context, event = .svc fuel context → b.state.requested context = none)
    (horderly : b.Orderly bus event) (hnext : b.next bus event = some b')
    : ∃ q, C.Live q ∧ event.HandsTo b.state q ∧ Sim b'.state (C.switch q) := by
  have hkernel : ∀ event : KernelEvent, (∀ call, event ≠ .service call) →
      (∀ x ∈ b'.state.stores, b.state.OutsideKernelData x) → b.machine.next event = some b'.machine →
      ∃ q, C.Live q ∧ event.HandsTo b.state q ∧ Sim b'.state (C.switch q) :=
    fun _ hevent hstores hnext => Machine.next_view h hC hevent (.of_stores hevent hnext hstores) hnext
  cases event with
  | user stores fpRegs peripherals =>
    exact hkernel (.user stores fpRegs) (by simp) (horderly b' hnext) (next_user hnext)
  | svc fuel context =>
    have hnone := hevent fuel context rfl
    have hnone : b.marked.state.requested context = none := (State.requested_marked _ _).trans hnone
    have hstores := horderly.2 b' hnext
    rw [← state_marked, State.served_of_none hnone] at hstores
    have hmarked : Sim b.marked.state C := h.of_bytes _
    rcases next_svc hnext with ⟨hresumes, hb'⟩
    rcases SVC_Handler_C_view hmarked hC hnone hresumes with ⟨q, hq, hhands, hsim⟩
    refine ⟨q, hq, .of_marked hhands, ?_⟩
    rw [hb', state_overlay] at hstores ⊢
    rw [State.stores_overlay] at hstores
    exact hsim.overlay (hC.sep.toApart.switch q) fun x hx => (hmarked.outsideKernelData_iff hC).mp (hstores x hx)
  | interrupt context currentInterrupt =>
    exact hkernel (.interrupt context currentInterrupt) (by simp) (horderly b' hnext) (next_machine hnext)
  | fault fuel ctx irq =>
    exact hkernel (.fault fuel ctx irq) (by simp) (horderly b' hnext) (next_machine hnext)
  | memManage fuel scs ctx flag =>
    exact hkernel (.memManage fuel scs ctx flag) (by simp) (horderly b' hnext) (next_machine hnext)

/--
A service that is called through the handler is the service.
-/
theorem next_requested {fuel context : Nat} {call : ServiceCall} (hcall : b.state.requested context = some call)
    (hnext : b.next bus (.svc fuel context) = some b')
    : ∃ bytes, b'.state = State.overlay { b.state.marked.after call with bytes } := by
  rcases next_svc hnext with ⟨-, rfl⟩
  rcases SVC_Handler_C_requested bus fuel context b.marked ((State.requested_marked _ _).trans hcall) with ⟨bytes, hrun⟩
  exact ⟨bytes, by rw [hrun]; rfl⟩

/--
The result of the service is written outside of the kernel data that the service leaves.
-/
theorem requested_view {C : Conf} {fuel context : Nat} {call : ServiceCall} (hC : C.Static)
    (hcall : b.state.requested context = some call) (horderly : b.Orderly bus (.svc fuel context))
    (hnext : b.next bus (.svc fuel context) = some b') (h : Sim (b.state.marked.after call) C) : Sim b'.state C := by
  have hstores := horderly.2 b' hnext
  rcases next_requested hcall hnext with ⟨bytes, hstate⟩
  rw [State.served_of_some ((State.requested_marked _ _).trans hcall), hstate, State.stores_overlay] at hstores
  rw [hstate]
  exact (h.of_bytes bytes).overlay hC.sep.toApart fun x hx => (h.outsideKernelData_iff hC).mp (hstores x hx)

theorem view_of_reachable {P : Conf → Prop} (hP : Machine.Kept layout P)
    (h : ((systemFrom layout bus).restrict (Orderly bus)).Reachable b) : b.machine.Shows P := by
  induction h with
  | init hb =>
    rcases hb with ⟨rootPartCtx, m₀, hresumes, heq⟩
    rw [heq]
    exact ⟨_, layout.Boot_Handler_view rootPartCtx m₀ hresumes, hP.init⟩
  | @step b b' event _ hstep ih =>
    rcases ih with ⟨C, hsim, hC⟩
    rcases hstep with ⟨horderly, hnext⟩
    by_cases hevent : ∃ fuel context call, event = .svc fuel context ∧ b.state.requested context = some call
    . rcases hevent with ⟨fuel, context, call, rfl, hcall⟩
      have hmarked : Sim b.state.marked C := hsim.of_bytes _
      rcases hP.service _ C call hmarked hC (horderly.1 call hcall) with ⟨C', h', hC'⟩
      exact ⟨C', requested_view (hP.static C' hC') hcall horderly hnext h', hC'⟩
    . have hnone : ∀ fuel context, event = .svc fuel context → b.state.requested context = none :=
        fun fuel context heq => Option.eq_none_iff_forall_ne_some.mpr fun call hcall =>
          hevent ⟨fuel, context, call, heq, hcall⟩
      rcases next_view hsim (hP.static C hC) hnone horderly hnext with ⟨q, hq, -, h'⟩
      exact ⟨_, h', hP.switch C q hC hq⟩

end Board

/--
Behind the entry points the partitions share the memory of the boot as in the runs of the services, whatever numbers
and registers they call the kernel with. The processor goes to another partition by a yield, by an exception, or when
an access to a register is denied.
-/
theorem isolation_of_boardRun {δ : Type} {bus : Bus δ} {layout : Layout} {b : Board δ}
    (h : ((Board.systemFrom layout bus).restrict (Board.Orderly bus)).Reachable b)
    : (b.state.Divides layout.memory ∧ (∀ x p a, b.state.EndsWith x p a → b.state.HeldAlong x p a)
        ∧ b.state.InUse ∧ b.state.FreeSlotsAgree)
      ∧ ∀ event b', b.Orderly bus event → b.next bus event = some b' →
        event.HandsTo b.state b'.state.currentPartition ∧ b'.state.Partition b'.state.currentPartition := by
  refine ⟨Machine.memory_of_shows (Board.view_of_reachable Machine.kept_settled h)
    (Board.view_of_reachable Machine.kept_viewFrom h), fun event b' horderly hnext => ?_⟩
  rcases Board.view_of_reachable Machine.kept_settled h with ⟨C, hsim, hC, hset⟩
  by_cases hevent : ∃ fuel context call, event = .svc fuel context ∧ b.state.requested context = some call
  . rcases hevent with ⟨fuel, context, call, rfl, hcall⟩
    have hmarked : Sim b.state.marked C := hsim.of_bytes _
    have hservice := horderly.1 call hcall
    rcases ServiceCall.served hmarked hC hset call hservice.1 hservice.2 with ⟨C', h'⟩
    have hsim' := Board.requested_view h'.inv.static hcall horderly hnext h'.sim
    rw [hsim'.cur]
    constructor
    . exact .inl (h'.cur.trans hsim.cur.symm)
    . exact (hsim'.partition_iff h'.inv.static).mpr h'.inv.static.cur_live
  . have hnone : ∀ fuel context, event = .svc fuel context → b.state.requested context = none :=
      fun fuel context heq => Option.eq_none_iff_forall_ne_some.mpr fun call hcall =>
        hevent ⟨fuel, context, call, heq, hcall⟩
    rcases Board.next_view hsim hC.static hnone horderly hnext with ⟨q, hq, hhands, h'⟩
    have hcur : b'.state.currentPartition = q := h'.cur
    rw [hcur]
    exact ⟨hhands, (h'.partition_iff (hC.switch hq).static).mpr hq⟩

/-
The registers of the peripherals
-/

namespace RegisterAccessType

def svcNumber : RegisterAccessType → SvcNumber
  | read => .in_
  | write => .out

/--
What the access does to the peripherals.
-/
def perform {δ : Type} (bus : Bus δ) (address : Nat) (value : Word) (peripherals : δ) : RegisterAccessType → δ
  | read => (bus.read address peripherals).2
  | write => bus.write address value peripherals

end RegisterAccessType

namespace Board

variable {δ : Type} (bus : Bus δ) (b b' : Board δ) (context : Nat)

/--
The context makes the root read or write a register of the table, which is none of those that protect the memory.
-/
def RootAccesses : Prop :=
  b.state.currentPartition = b.state.constantRootPartM ∧ ∃ (type : RegisterAccessType) (entry : RegisterIdToAccessor),
    b.state.svcNumber? context = some type.svcNumber
      ∧ REGISTER_ID_TO_ACCESSOR[b.state.stacked context .r0]? = some entry
      ∧ entry.address ∉ protectionRegisters
      ∧ b'.peripherals = type.perform bus entry.address (b.state.stacked context .r1) b.peripherals

/--
The context asks for a register that its partition has no access to, and a partition above handles the fault.
-/
def DeniesAccess : Prop :=
  (b.state.currentPartition ≠ b.state.constantRootPartM ∨ ARRAY_SIZE ≤ b.state.stacked context .r0)
    ∧ b'.peripherals = b.peripherals
    ∧ Relation.TransGen b.state.IsChild b'.state.currentPartition b.state.currentPartition

variable {bus b b' context}

theorem peripherals_callSvc (fuel addr0 addr1 r0 r1 r2 r3 r4 : Nat) {number : Option SvcNumber}
    (hin : number ≠ some .in_) (hout : number ≠ some .out)
    : (callSvc bus fuel context addr0 addr1 r0 r1 r2 r3 r4 number b).2.peripherals = b.peripherals := by
  have hreturn : ∀ (addr : Nat) (op : LLI Word), (returnIn addr op b).2.peripherals = b.peripherals := by
    intro addr op
    rcases returnIn_run b addr op with ⟨bytes, hrun⟩
    rw [hrun, withState]
  cases number with
  | none => rfl
  | some number =>
    cases number
    case in_ => exact absurd rfl hin
    case out => exact absurd rfl hout
    case yield =>
      rw [callSvc, BoardHandler.bind_run, BoardHandler.lift_run]
      generalize yieldGlue context r0 r1 r2 r3 r4 b.machine = run
      rcases run with ⟨code | resumption, m⟩ <;> rfl
    case setIntState => rfl
    all_goals exact hreturn _ _

theorem RootAccesses.of_marked (h : RootAccesses bus b.marked b' context) : RootAccesses bus b b' context := by
  rcases h with ⟨hroot, type, entry, hnumber, hentry, hapart, hperipherals⟩
  rw [state_marked, State.svcNumber?_marked] at hnumber
  rw [state_marked, State.stacked_marked] at hentry hperipherals
  exact ⟨hroot, type, entry, hnumber, hentry, hapart, hperipherals⟩

theorem DeniesAccess.of_marked (h : DeniesAccess b.marked b' context) : DeniesAccess b b' context := by
  rcases h with ⟨hdenied, hperipherals, hpath⟩
  rw [state_marked, State.stacked_marked] at hdenied
  exact ⟨hdenied, hperipherals, hpath⟩

/--
An access that a partition asks for is made if the partition is the root and the register is in the table.
-/
theorem next_doAccess {C : Conf} (h : Sim b.marked.state C) (hC : C.Static) (fuel : Nat) (type : RegisterAccessType)
    (hnumber : b.marked.state.svcNumber? context = some type.svcNumber)
    (hrun : SVC_Handler_C bus fuel context b.marked
        =
      doAccess bus fuel context type (b.marked.state.stacked context .r0)
        (Register.r1.stackedAddr context (readWord b.marked.state.bytes (isBasicFrameAddr context))) b.marked)
    (hnext : b.next bus (.svc fuel context) = some b')
    : RootAccesses bus b.marked b' context ∨ DeniesAccess b.marked b' context := by
  rcases next_svc hnext with ⟨hresumes, rfl⟩
  rw [hrun] at hresumes ⊢
  rcases doAccess_run bus fuel context b.marked type (b.marked.state.stacked context .r0) (Register.r1.stackedAddr
    context (readWord b.marked.state.bytes (isBasicFrameAddr context))) with ⟨hroot, -, hperforms⟩ | ⟨hdenied, hfault⟩
  . generalize (doAccess bus fuel context type (b.marked.state.stacked context .r0) (Register.r1.stackedAddr
      context (readWord b.marked.state.bytes (isBasicFrameAddr context))) b.marked).2 = b₁ at hperforms
    cases hperforms with
    | read hentry =>
      exact .inl ⟨hroot, .read, _, hnumber, hentry, (register_apart _ (List.mem_of_getElem? hentry)).2, rfl⟩
    | write hentry =>
      exact .inl ⟨hroot, .write, _, hnumber, hentry, (register_apart _ (List.mem_of_getElem? hentry)).2, rfl⟩
  . rw [hfault] at hresumes ⊢
    rcases accessFault_view h hC hresumes with ⟨q, -, hpath, hsim⟩
    have hcur : (accessFault fuel context b.marked).2.state.currentPartition = q := hsim.cur
    rw [← hcur] at hpath
    exact .inr ⟨hdenied, rfl, hpath⟩

end Board

/--
Of what the kernel does for the partitions only an access of the root to a register of the table reaches the
peripherals, and none reaches the registers that protect the memory. A partition whose access is denied does not run
on, one of the partitions above it runs.
-/
theorem peripherals_of_boardRun {δ : Type} {bus : Bus δ} {layout : Layout} {b b' : Board δ} {fuel context : Nat}
    (h : ((Board.systemFrom layout bus).restrict (Board.Orderly bus)).Reachable b)
    (hnext : b.next bus (.svc fuel context) = some b')
    : if b.state.AccessesRegister context then Board.RootAccesses bus b b' context ∨ Board.DeniesAccess b b' context
      else b'.peripherals = b.peripherals := by
  rcases Board.view_of_reachable Machine.kept_settled h with ⟨C, hsim, hC, -⟩
  have hmarked : Sim b.marked.state C := hsim.of_bytes _
  have hnumber : b.marked.state.svcNumber? context = b.state.svcNumber? context := State.svcNumber?_marked _ _
  split
  . next haccess =>
    refine .imp .of_marked .of_marked ?_
    rcases haccess with hin | hout
    . have hnumber := hnumber.trans hin
      exact Board.next_doAccess hmarked hC.static fuel .read hnumber (by rw [SVC_Handler_C_run, hnumber]; rfl) hnext
    . have hnumber := hnumber.trans hout
      exact Board.next_doAccess hmarked hC.static fuel .write hnumber (by rw [SVC_Handler_C_run, hnumber]; rfl) hnext
  . next haccess =>
    rcases Board.next_svc hnext with ⟨-, rfl⟩
    rw [Board.peripherals_overlay, SVC_Handler_C_run, hnumber]
    exact Board.peripherals_callSvc _ _ _ _ _ _ _ _ (fun hin => haccess (.inl hin)) fun hout => haccess (.inr hout)

/-
The root cuts a block and writes to a register
-/

/--
Peripherals that record what is written to them.
-/
def recordingBus : Bus (List (Nat × Nat)) where
  read := fun _ written => (0, written)
  write := fun reg value written => (reg, value) :: written

/--
The root has stacked the context of an SVC instruction with these arguments, which lies before the address 0x20000602.
-/
def svcWords (number r0 r1 r2 : Nat) : List (Nat × Nat) :=
  [
    (0x20000600, 0xDF00 + number),
    (isBasicFrameAddr 0x20000700, 1),
    (Register.pc.basicAddr 0x20000700, 0x20000602),
    (Register.r0.basicAddr 0x20000700, r0),
    (Register.r1.basicAddr 0x20000700, r1),
    (Register.r2.basicAddr 0x20000700, r2)
  ]

def svcContext (number r0 r1 r2 : Nat) : BoardEvent (List (Nat × Nat)) :=
  .user (wordStores (svcWords number r0 r1 r2)) [] []

def bootedBoard : Board (List (Nat × Nat)) := ⟨Machine.booted, []⟩

def beforeSvc (number r0 r1 r2 : Nat) : Board (List (Nat × Nat)) :=
  (bootedBoard.next recordingBus (svcContext number r0 r1 r2)).getD bootedBoard

theorem svcWords_outside
    : ∀ x ∈ ((svcWords 0 0 0 0).map Prod.fst).flatMap fun addr => (List.range 4).map (addr + ·),
      State.OutsideListed rootTree x := by
  decide +kernel

theorem svcContext_next (number r0 r1 r2 : Nat)
    : bootedBoard.next recordingBus (svcContext number r0 r1 r2) = some (beforeSvc number r0 r1 r2) :=
  (Option.getD_of_ne_none (by simp [svcContext, Board.next, Machine.next]) bootedBoard).symm

theorem beforeSvc_reachable (number r0 r1 r2 : Nat)
    : ((Board.systemFrom Layout.small recordingBus).restrict (Board.Orderly recordingBus)).Reachable
        (beforeSvc number r0 r1 r2) := by
  refine .step (.init ⟨0x2000FF00, Machine.reset, booted_resumes, rfl⟩) (s := bootedBoard)
    (e := svcContext number r0 r1 r2) ⟨fun b' hnext x hx => ?_, svcContext_next number r0 r1 r2⟩
  have hmem := Machine.stores_user (Board.next_user hnext) x hx
  rw [wordStores_addrs] at hmem
  -- the addresses do not depend on the arguments
  exact booted_lists.outsideKernelData (svcWords_outside x hmem)

/--
The root cuts its block at 0x20009000.
-/
def beforeCut : Board (List (Nat × Nat)) := beforeSvc 1 0x2000F111 0x20009000 8

def afterCut : Board (List (Nat × Nat)) := (beforeCut.next recordingBus (.svc 0 0x20000700)).getD beforeCut

theorem beforeCut_eval
    : beforeCut.state.svcNumber? 0x20000700 = some .cutMemoryBlock
        ∧ (beforeCut.state.marked.served 0x20000700).Lists rootTree
        ∧ ∀ x ∈ afterCut.state.stores, State.OutsideListed rootTree x := by
  decide +kernel

theorem beforeCut_next : beforeCut.next recordingBus (.svc 0 0x20000700) = some afterCut := by
  rfl

theorem afterCut_reachable
    : ((Board.systemFrom Layout.small recordingBus).restrict (Board.Orderly recordingBus)).Reachable afterCut := by
  rcases beforeCut_eval with ⟨hnumber, hlists, hstores⟩
  refine .step (beforeSvc_reachable _ _ _ _) (e := .svc 0 0x20000700) ⟨⟨fun call hcall => ?_, ?_⟩, beforeCut_next⟩
  . rw [State.requested, show (beforeSvc _ _ _ _).state.svcNumber? 0x20000700 = _ from hnumber] at hcall
    cases hcall
    exact ⟨trivial, trivial⟩
  . intro b' hnext x hx
    rw [← Option.some.inj (beforeCut_next.symm.trans hnext)] at hx
    exact hlists.outsideKernelData (hstores x hx)

theorem isolation_afterCut
    : (afterCut.state.Divides Layout.small.memory
        ∧ (∀ x p a, afterCut.state.EndsWith x p a → afterCut.state.HeldAlong x p a)
        ∧ afterCut.state.InUse ∧ afterCut.state.FreeSlotsAgree)
      ∧ ∀ event b', afterCut.Orderly recordingBus event → afterCut.next recordingBus event = some b' →
        event.HandsTo afterCut.state b'.state.currentPartition ∧ b'.state.Partition b'.state.currentPartition :=
  isolation_of_boardRun afterCut_reachable

/--
The root writes 5 to the register with the id 100.
-/
def beforeOut : Board (List (Nat × Nat)) := beforeSvc 17 100 5 0

def afterOut : Board (List (Nat × Nat)) := (beforeOut.next recordingBus (.svc 0 0x20000700)).getD beforeOut

theorem beforeOut_next : beforeOut.next recordingBus (.svc 0 0x20000700) = some afterOut := by
  rfl

theorem peripherals_afterOut
    : if beforeOut.state.AccessesRegister 0x20000700 then
        Board.RootAccesses recordingBus beforeOut afterOut 0x20000700 ∨ Board.DeniesAccess beforeOut afterOut 0x20000700
      else afterOut.peripherals = beforeOut.peripherals :=
  peripherals_of_boardRun (beforeSvc_reachable _ _ _ _) beforeOut_next

example : afterOut.peripherals = [(0x4001F548, 5)] := by decide +kernel
