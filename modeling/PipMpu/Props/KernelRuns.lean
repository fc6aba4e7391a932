import PipMpu.Props.InUse
import PipMpu.Props.Memory
import PipMpu.Props.Accounting
import PipMpu.Switch.Control

/-!
This module contains the runs of the whole kernel, from the boot on: system calls, interrupts, faults and MemManage
exceptions in any order, with what the partitions do to their memory in between. The partition that runs is always one
of the tree, only the partitions close to it come next, and the memory stays divided as in the runs of the services.
-/

namespace KernelEvent

/--
The partitions that may run after the event.
-/
def HandsTo (s : State) : KernelEvent → Nat → Prop
  | yield _ calleePartDescLocalId _ _ _ _, q => q = s.currentPartition
      ∨ (calleePartDescLocalId = nullAddr ∧ s.IsChild q s.currentPartition)
      ∨ (s.HasBlock s.currentPartition calleePartDescLocalId ∧ (s.slotOf calleePartDescLocalId).PDflag = true
        ∧ (s.slotOf calleePartDescLocalId).startAddr = q)
  | interrupt _ _, q => q = s.constantRootPartM
  | fault _ _ _, q => Relation.TransGen s.IsChild q s.currentPartition
  | memManage _ _ _ _, q => Relation.ReflTransGen s.IsChild q s.currentPartition
  | _, q => q = s.currentPartition

end KernelEvent

namespace Machine

/--
The runs from the boot with this layout.
-/
def systemFrom (layout : Layout) : System Machine KernelEvent where
  init m := ∃ rootPartCtx m₀,
    (layout.Boot_Handler rootPartCtx m₀).1.resumes = true ∧ m = (layout.Boot_Handler rootPartCtx m₀).2
  step := system.step

end Machine

/-
The boot
-/

theorem writeWords_view {C : Conf} (addr : Nat) (values : List Nat)
    : Keeps (Machine.KeepsView C) (Handler.lift (writeWords addr values)) := by
  induction values generalizing addr with
  | nil => exact fun _ h => h
  | cons value values ih => exact fun m h => ih (addr + 4) _ (Machine.KeepsView.of_writeMemory addr value m h)

namespace Layout

variable (layout : Layout)

/--
The view of the state before the root runs.
-/
theorem malInit_view (s : State)
    : layout.malInit.Ensures s fun isInitialized s' =>
      isInitialized = true → Sim s' (layout.rootConf.switch s'.currentPartition) := by
  intro hinitialized
  have hboot := layout.run_boot s
  unfold boot LLI.Ensures at hboot
  rw [LLI.bind_run, hinitialized] at hboot
  exact (hboot.2.switch _).of_mpuRegs _

theorem Boot_Handler_view (rootPartCtx : Nat) (m : Machine)
    : (layout.Boot_Handler rootPartCtx).Ensures m fun outcome m' =>
      outcome.resumes = true → Sim m'.state layout.rootConf := by
  refine .bind (fun isInitialized m' => isInitialized = true →
    Sim m'.state (layout.rootConf.switch m'.state.currentPartition)) (layout.malInit_view m.state)
    fun isInitialized m₁ h₁ => ?_
  refine .cond (fun _ hresumes => absurd hresumes (by simp [HandlerOutcome.resumes])) fun hinitialized => ?_
  have h₁ := h₁ (by simpa using hinitialized)
  refine .read h₁.run_getRootPartition ?_
  have hwrite : ∀ {m : Machine} addr value, Sim m.state (layout.rootConf.switch m₁.state.currentPartition) →
      Sim (Handler.lift (writeMemory addr value) m).2.state (layout.rootConf.switch m₁.state.currentPartition) :=
    fun addr value h => Machine.KeepsView.of_writeMemory addr value _ h
  refine .bind (fun _ m' => Sim m'.state _) (writeWords_view _ _ m₁ h₁) fun _ m₂ h₂ => ?_
  refine .bind (fun _ m' => Sim m'.state _) (hwrite _ _ h₂) fun _ m₃ h₃ => ?_
  refine .bind (fun _ m' => Sim m'.state _) (writeWords_view _ _ m₃ h₃) fun _ m₄ h₄ => ?_
  refine .bind (fun _ m' => Sim m'.state _) (hwrite _ _ h₄) fun _ m₅ h₅ => ?_
  refine .bind (fun _ m' => Sim m'.state _) (hwrite _ _ h₅) fun _ m₆ h₆ => ?_
  refine .bind (fun _ m' => Sim m'.state _) (hwrite _ _ h₆) fun _ m₇ h₇ => ?_
  refine .bind (fun _ m' => Sim m'.state _) (hwrite _ _ h₇) fun _ m₈ h₈ => ?_
  refine .bind (fun _ m' => Sim m'.state _) (hwrite _ _ h₈) fun _ m₉ h₉ => ?_
  refine ((switchContextCont_hands _ _ _).handler h₉).mono fun outcome m' h' hresumes => ?_
  rcases h' hresumes with ⟨q, rfl, hsim⟩
  exact hsim

end Layout

/-
The steps
-/

namespace Sim

variable {s : State} {C : Conf} {p q : Nat}

theorem isChild_parent (h : Sim s C) (hC : C.Static) (hp : C.Live p) (hroot : p ≠ C.root) : s.IsChild (C.parent p) p :=
  (h.isChild_iff hC (hC.parent_live p hp hroot)).mpr ⟨hp, hroot, rfl⟩

theorem path_of_higherUp (h : Sim s C) (hC : C.Static) (hp : C.Live p) (hup : C.HigherUp p q)
    : Relation.TransGen s.IsChild q p := by
  induction hup with
  | parent hroot => exact .single (h.isChild_parent hC hp hroot)
  | step hup hroot ih => exact .head (h.isChild_parent hC (hup.live hC hp) hroot) ih

end Sim

/--
A handler is run and nothing that it writes reaches the kernel data.
-/
theorem Handler.stored_view {α : Type} {op : Handler α} {m : Machine} {C : Conf} {q : Nat} (h : Sim m.state C)
    (hC : C.Static) (hstores : ∀ x ∈ (op.stored m).2.state.stores, m.state.OutsideKernelData x)
    (hop : Sim (op m.marked).2.state (C.switch q)) : Sim (op.stored m).2.state (C.switch q) := by
  rw [Handler.stored_snd, Machine.state_overlay] at hstores ⊢
  rw [State.stores_overlay] at hstores
  exact hop.overlay (hC.sep.toApart.switch q) fun x hx => (h.outsideKernelData_iff hC).mp (hstores x hx)

theorem setIntState_view {m : Machine} {C : Conf} (h : Sim m.state C) (interruptState : Nat)
    : Sim (setIntState interruptState m).2.state C := by
  have h' := h.kernelSetIntState interruptState
  unfold setIntState
  simp only [Handler.bind_run, Handler.ite_run]
  split
  . split <;> exact h'
  . exact h'

/--
A yield keeps the view but for the partition that runs.
-/
theorem yieldGlue_view {m : Machine} {C : Conf} (h : Sim m.state C) (hC : C.Static)
    (context calleePartDescLocalId userTargetInterrupt userCallerContextSaveIndex flagsOnYield flagsOnWake : Nat)
    : ∃ q, C.Live q ∧ (KernelEvent.yield context calleePartDescLocalId userTargetInterrupt userCallerContextSaveIndex
        flagsOnYield flagsOnWake).HandsTo m.state q
      ∧ Sim (yieldGlue context calleePartDescLocalId userTargetInterrupt userCallerContextSaveIndex flagsOnYield
        flagsOnWake m).2.state (C.switch q) := by
  have hhands := yieldGlue_hands hC context calleePartDescLocalId userTargetInterrupt userCallerContextSaveIndex
    flagsOnYield flagsOnWake m h
  unfold Handler.Ensures at hhands
  cases houtcome : (yieldGlue context calleePartDescLocalId userTargetInterrupt userCallerContextSaveIndex
    flagsOnYield flagsOnWake m).1 with
  | returned code =>
    rw [houtcome] at hhands
    exact ⟨C.cur, hC.cur_live, .inl h.cur.symm, hhands⟩
  | resumed resumption =>
    rw [houtcome] at hhands
    rcases hhands with ⟨q, hyields, hsim⟩
    refine ⟨q, Conf.YieldsTo.live hC hC.cur_live hyields, ?_, hsim⟩
    cases hyields with
    | self _ => exact .inl h.cur.symm
    | parent hnull hroot => exact .inr (.inl ⟨hnull, h.cur.symm ▸ h.isChild_parent hC hC.cur_live hroot⟩)
    | child hhas hflag =>
      have hslot := h.slotOf_eq hhas.1
      refine .inr (.inr ⟨?_, hslot.symm ▸ hflag, by rw [hslot]⟩)
      rw [h.cur]
      exact (h.hasBlock_iff hC.cur_live).mpr hhas

/--
What an event other than a call of a service leads to: the view is kept but for the partition that runs.
-/
theorem Machine.next_view {m m' : Machine} {C : Conf} (h : Sim m.state C) (hC : C.Static) {event : KernelEvent}
    (hevent : ∀ call, event ≠ .service call) (horderly : m.Orderly event) (hnext : m.next event = some m')
    : ∃ q, C.Live q ∧ event.HandsTo m.state q ∧ Sim m'.state (C.switch q) := by
  have hmarked : Sim m.marked.state C := h.of_bytes _
  have hstores := horderly.stores hevent hnext
  cases event with
  | user stores fpRegs =>
    rcases Option.some.inj hnext with rfl
    exact ⟨C.cur, hC.cur_live, h.cur.symm, Handler.stored_view h hC hstores (hmarked.of_bytes _)⟩
  | service call => exact absurd rfl (hevent call)
  | findBlock idPD addrInBlock blockResult =>
    rcases Option.some.inj hnext with rfl
    refine ⟨C.cur, hC.cur_live, h.cur.symm, Handler.stored_view h hC hstores ?_⟩
    exact Unseen.findBlock idPD addrInBlock blockResult _ _ hmarked
  | setIntState interruptState =>
    rcases Option.some.inj hnext with rfl
    exact ⟨C.cur, hC.cur_live, h.cur.symm,
      Handler.stored_view h hC hstores (setIntState_view hmarked interruptState)⟩
  | yield context calleePartDescLocalId userTargetInterrupt userCallerContextSaveIndex flagsOnYield flagsOnWake =>
    rcases Option.some.inj hnext with rfl
    rcases yieldGlue_view hmarked hC context calleePartDescLocalId userTargetInterrupt
      userCallerContextSaveIndex flagsOnYield flagsOnWake with ⟨q, hq, hhands, hsim⟩
    exact ⟨q, hq, hhands, Handler.stored_view h hC hstores hsim⟩
  | interrupt context currentInterrupt =>
    rcases next_of_resumes HandlerOutcome.resumes hnext with ⟨hresumes, rfl⟩
    rcases Interrupt_Handler_C_hands context currentInterrupt hmarked hresumes with ⟨q, rfl, hsim⟩
    exact ⟨C.root, hC.root_live, h.root.symm, Handler.stored_view h hC hstores hsim⟩
  | fault fuel ctx irq =>
    rcases next_of_resumes (Option.any HandlerOutcome.resumes) hnext with ⟨hresumes, rfl⟩
    rcases Fault_Handler_C_Irq_hands hC fuel ctx irq hmarked hresumes with ⟨q, hup, hsim⟩
    refine ⟨q, Conf.HigherUp.live hC hC.cur_live hup, ?_, Handler.stored_view h hC hstores hsim⟩
    show Relation.TransGen _ _ _
    rw [h.cur]
    exact h.path_of_higherUp hC hC.cur_live hup
  | memManage fuel scs ctx flag =>
    rcases next_of_resumes MemManageOutcome.resumes hnext with ⟨hresumes, rfl⟩
    rcases MemManage_Handler_C_hands hC fuel scs ctx flag hmarked hresumes with ⟨q, rfl | hup, hsim⟩
    . exact ⟨C.cur, hC.cur_live, h.cur ▸ .refl, Handler.stored_view h hC hstores hsim⟩
    . refine ⟨q, Conf.HigherUp.live hC hC.cur_live hup, ?_, Handler.stored_view h hC hstores hsim⟩
      show Relation.ReflTransGen _ _ _
      rw [h.cur]
      exact (h.path_of_higherUp hC hC.cur_live hup).to_reflTransGen

/-
The runs
-/

namespace Machine

/--
The state has a view with the property.
-/
def Shows (P : Conf → Prop) (m : Machine) : Prop := ∃ C, Sim m.state C ∧ P C

/--
The views of the boot have the property, and a switch and each call of a service keep it.
-/
structure Kept (layout : Layout) (P : Conf → Prop) : Prop where
  init : P layout.rootConf
  static : ∀ C, P C → C.Static
  switch : ∀ C q, P C → C.Live q → P (C.switch q)
  service : ∀ s C call, Sim s C → P C → s.Orderly (s.currentPartition, call) → ∃ C', Sim (s.after call) C' ∧ P C'

variable {layout : Layout}

theorem kept_settled : Kept layout fun C => C.Inv ∧ C.Settled := by
  have honly := layout.rootConf_onlyRoot
  constructor
  case init =>
    refine ⟨honly.inv, honly.settled fun a ha => ?_⟩
    rcases layout.rootConf_has ha with ⟨hslot, -⟩ | ⟨hslot, -⟩ | ⟨hslot, -⟩ <;> rw [hslot] <;> rfl
  case static => exact fun C hC => hC.1.static
  case switch => exact fun C q hC hq => ⟨hC.1.switch hq, hC.2⟩
  case service =>
    rintro s C call hsim ⟨hC, hset⟩ ⟨hwhole, hown⟩
    rcases ServiceCall.served hsim hC hset call hwhole hown with ⟨C', h'⟩
    exact ⟨C', h'.sim, h'.inv, h'.settled⟩

theorem kept_viewFrom : Kept layout (ServiceCall.ViewFrom layout) := by
  constructor
  case init => exact ⟨layout.rootConf_onlyRoot.inv, rfl, layout.rootConf_cover⟩
  case static => exact fun C hC => hC.inv.static
  case switch => exact fun C q hC hq => ⟨hC.inv.switch hq, hC.root, hC.cover⟩
  case service =>
    intro s C call hsim hC horderly
    have hcur := (hsim.partition_iff hC.inv.static).mpr hC.inv.static.cur_live
    rw [← hsim.cur] at hcur
    rcases ServiceCall.simulation_orderly.step s (s.currentPartition, call) _ C hsim hC.inv ⟨horderly, hcur, rfl⟩
      with ⟨C', hsteps, h'⟩
    exact ⟨C', h', System.invariant_of_reflTransGen (fun _ _ hC hstep => hC.step hstep) hC hsteps⟩

/--
What holds of the views of all runs of the services, whoever runs, holds of those of the runs of the whole kernel.
-/
theorem view_of_reachable {P : Conf → Prop} (hP : Kept layout P) {m : Machine}
    (h : ((systemFrom layout).restrict Orderly).Reachable m) : m.Shows P := by
  refine h.invariant ?_ ?_
  . rintro m ⟨rootPartCtx, m₀, hresumes, rfl⟩
    exact ⟨_, layout.Boot_Handler_view rootPartCtx m₀ hresumes, hP.init⟩
  . rintro m event m' ⟨C, hsim, hC⟩ ⟨horderly, hnext⟩
    by_cases hevent : ∃ call, event = .service call
    . rcases hevent with ⟨call, rfl⟩
      cases hnext
      exact hP.service _ C call hsim hC horderly
    . rcases next_view hsim (hP.static C hC) (fun call heq => hevent ⟨call, heq⟩) horderly hnext with ⟨q, hq, -, h'⟩
      exact ⟨_, h', hP.switch C q hC hq⟩

theorem exists_layout {ok : Machine → KernelEvent → Prop} {m : Machine} (h : (system.restrict ok).Reachable m)
    : ∃ layout, ((systemFrom layout).restrict ok).Reachable m := by
  induction h with
  | init hm =>
    rcases hm with ⟨layout, rootPartCtx, m₀, hresumes, rfl⟩
    exact ⟨layout, .init ⟨rootPartCtx, m₀, hresumes, rfl⟩⟩
  | step _ hstep ih =>
    rcases ih with ⟨layout, ih⟩
    exact ⟨layout, .step ih hstep⟩

theorem reachable_of_layout {ok : Machine → KernelEvent → Prop} {m : Machine}
    (h : ((systemFrom layout).restrict ok).Reachable m) : (system.restrict ok).Reachable m := by
  induction h with
  | init hm =>
    rcases hm with ⟨rootPartCtx, m₀, hresumes, rfl⟩
    exact .init ⟨layout, rootPartCtx, m₀, hresumes, rfl⟩
  | step _ hstep ih => exact .step ih hstep

/--
The memory is that of the boot, shared along the tree, and all of it is in use or accessible.
-/
theorem memory_of_shows {s : State} (h₁ : ∃ C, Sim s C ∧ C.Inv ∧ C.Settled)
    (h₂ : ∃ C, Sim s C ∧ ServiceCall.ViewFrom layout C)
    : s.Divides layout.memory ∧ (∀ x p a, s.EndsWith x p a → s.HeldAlong x p a) ∧ s.InUse ∧ s.FreeSlotsAgree := by
  rcases h₁ with ⟨C, hsim, hC, hset⟩
  rcases h₂ with ⟨C₁, hsim₁, hC₁⟩
  refine ⟨?_, fun x p a hends => hsim.heldAlong hC.static hends, hsim.inUse hC hset, hsim.freeSlotsAgree hC.static⟩
  rw [← hC₁.cover]
  exact hsim₁.divides hC₁.inv.static

end Machine

/--
Who runs next is the partition that ran, its parent or its child on a yield, the root on an interrupt, and one of the
partitions above on a fault. It is always a partition of the tree.
-/
theorem controlFlow_of_reachable {m m' : Machine} {event : KernelEvent}
    (h : (Machine.system.restrict Machine.Orderly).Reachable m) (horderly : m.Orderly event)
    (hnext : m.next event = some m')
    : event.HandsTo m.state m'.state.currentPartition ∧ m'.state.Partition m'.state.currentPartition := by
  rcases Machine.exists_layout h with ⟨layout, h⟩
  rcases Machine.view_of_reachable Machine.kept_settled h with ⟨C, hsim, hC, hset⟩
  by_cases hevent : ∃ call, event = .service call
  . rcases hevent with ⟨call, rfl⟩
    cases hnext
    rcases ServiceCall.served hsim hC hset call horderly.1 horderly.2 with ⟨C', h'⟩
    constructor
    . exact h'.sim.cur.trans (h'.cur.trans hsim.cur.symm)
    . rw [h'.sim.cur]
      exact (h'.sim.partition_iff h'.inv.static).mpr h'.inv.static.cur_live
  . rcases Machine.next_view hsim hC.static (fun call heq => hevent ⟨call, heq⟩) horderly hnext with ⟨q, hq, hhands, h'⟩
    have hcur : m'.state.currentPartition = q := h'.cur
    rw [hcur]
    exact ⟨hhands, (h'.partition_iff (hC.switch hq).static).mpr hq⟩

/--
In every such run the partitions share the memory of the boot, each address is held along one path of the tree, the
blocks at the ends are accessible unless they hold kernel data, and the free slots are accounted for.
-/
theorem memory_of_kernelRun {layout : Layout} {m : Machine}
    (h : ((Machine.systemFrom layout).restrict Machine.Orderly).Reachable m)
    : m.state.Divides layout.memory ∧ (∀ x p a, m.state.EndsWith x p a → m.state.HeldAlong x p a)
        ∧ m.state.InUse ∧ m.state.FreeSlotsAgree :=
  Machine.memory_of_shows (Machine.view_of_reachable Machine.kept_settled h)
    (Machine.view_of_reachable Machine.kept_viewFrom h)

/-
A run in which the root creates a child and yields to it
-/

/--
The machine at the reset.
-/
def Machine.reset : Machine where
  state :=
    {
        currentPartition := 0
        constantRootPartM := 0
        pdtables := Mem.empty
        blockEntries := Mem.empty
        sh1Entries := Mem.empty
        scEntries := Mem.empty
        nextPointers := Mem.empty
        bytes := Mem.empty
        mpuRegs := MpuRegs.initial
    }
  basepri := 0
  previousContextUseFpu := false
  stkalign := 1
  fpRegs := List.replicate 33 0
  accesses := []

def Machine.booted : Machine := (Layout.small.Boot_Handler 0x2000FF00 Machine.reset).2

theorem booted_resumes : (Layout.small.Boot_Handler 0x2000FF00 Machine.reset).1.resumes = true := by
  decide +kernel

/--
The root with its structure.
-/
def rootTree : List (Nat × List Nat) := [(0x2000F000, [0x2000F100])]

theorem booted_lists : Machine.booted.state.Lists rootTree := by
  decide +kernel

def childCalls : List ServiceCall :=
  [
    .cutMemoryBlock 0x2000F111 0x20009000 8,
    .createPartition 0x2000F111,
    .cutMemoryBlock 0x2000F133 0x2000A000 8,
    .prepare 0x2000F111 0x2000F133,
    .addMemoryBlock 0x2000F111 0x2000F144 true true false,
    .setVIDT 0x2000F111 0x2000A000
  ]

/--
The child has a VIDT, but no context in it yet.
-/
def childReady : Machine :=
  { Machine.booted with state := childCalls.foldl State.after Machine.booted.state }

/--
The root writes a context of the child and the frame it is interrupted with itself.
-/
def contextWords : List (Nat × Nat) :=
  [
    (vidtContextAddr 0x2000A000 0, 0x2000B000),
    (isBasicFrameAddr 0x2000B000, 1),
    (Register.sp.basicAddr 0x2000B000, 0x2000C000),
    (isBasicFrameAddr 0x20000700, 1)
  ]

def writeContexts : KernelEvent := .user (wordStores contextWords) []

def beforeYield : Machine := (childReady.next writeContexts).getD childReady

def yieldToChild : KernelEvent := .yield 0x20000700 0x2000F111 0 1 0 0

def childRunning : Machine := (beforeYield.next yieldToChild).getD beforeYield

/--
The root and its child, each with its structure.
-/
def childTree : List (Nat × List Nat) := [(0x2000F000, [0x2000F100]), (0x20008000, [0x20009000])]

theorem childReady_lists : childReady.state.Lists childTree := by
  decide +kernel

theorem beforeYield_eval
    : beforeYield.state.Lists childTree ∧ ∀ x ∈ beforeYield.state.stores, State.OutsideListed childTree x := by
  decide +kernel

theorem childRunning_eval
    : childRunning.state.currentPartition = 0x20008000
        ∧ ∀ x ∈ childRunning.state.stores, State.OutsideListed childTree x := by
  decide +kernel

theorem Machine.reachable_of_calls {layout : Layout} {calls : List ServiceCall} {m : Machine}
    (hm : ((systemFrom layout).restrict Orderly).Reachable m) (hcalls : ∀ call ∈ calls, ∀ s p, State.Orderly s (p, call))
    : ((systemFrom layout).restrict Orderly).Reachable { m with state := calls.foldl State.after m.state } := by
  induction calls generalizing m with
  | nil => exact hm
  | cons call calls ih =>
    have hnext : ((systemFrom layout).restrict Orderly).Reachable { m with state := m.state.after call } :=
      .step hm (e := .service call) ⟨hcalls call (List.mem_cons_self ..) _ _, rfl⟩
    exact ih hnext fun call' hmem => hcalls call' (List.mem_cons_of_mem _ hmem)

theorem writeContexts_next : childReady.next writeContexts = some beforeYield := by
  rfl

theorem beforeYield_orderly : ((Machine.systemFrom Layout.small).restrict Machine.Orderly).Reachable beforeYield := by
  have hready : ((Machine.systemFrom Layout.small).restrict Machine.Orderly).Reachable childReady := by
    refine Machine.reachable_of_calls (.init ⟨0x2000FF00, Machine.reset, booted_resumes, rfl⟩) fun call hcall s p => ?_
    simp only [childCalls, List.mem_cons, List.not_mem_nil, or_false] at hcall
    rcases hcall with rfl | rfl | rfl | rfl | rfl | rfl <;> exact ⟨trivial, trivial⟩
  exact .step (e := writeContexts) hready
    ⟨.of_lists (by simp [writeContexts]) childReady_lists writeContexts_next beforeYield_eval.2, writeContexts_next⟩

theorem yieldToChild_next : beforeYield.next yieldToChild = some childRunning := by
  rfl

theorem yieldToChild_orderly : beforeYield.Orderly yieldToChild :=
  .of_lists (by simp [yieldToChild]) beforeYield_eval.1 yieldToChild_next childRunning_eval.2

/--
The root yields to the child, whose descriptor is in the block at 0x2000F111.
-/
theorem controlFlow_childRunning
    : childRunning.state.currentPartition = 0x20008000
        ∧ yieldToChild.HandsTo beforeYield.state childRunning.state.currentPartition
        ∧ childRunning.state.Partition childRunning.state.currentPartition :=
  ⟨childRunning_eval.1, controlFlow_of_reachable (Machine.reachable_of_layout beforeYield_orderly)
    yieldToChild_orderly yieldToChild_next⟩

theorem memory_childRunning
    : childRunning.state.Divides Layout.small.memory
        ∧ (∀ x p a, childRunning.state.EndsWith x p a → childRunning.state.HeldAlong x p a)
        ∧ childRunning.state.InUse ∧ childRunning.state.FreeSlotsAgree :=
  memory_of_kernelRun (.step beforeYield_orderly ⟨yieldToChild_orderly, yieldToChild_next⟩)
