import PipMpu.Switch.Checks

/-!
This module contains how the continuation functions of a switch end: with which partition resumed, or with
which code returned and in which state.
-/

namespace Handler

variable {α β : Type}

/--
`op` takes the machine to a result and a machine that meet `post`.
-/
def Ensures (op : Handler α) (m : Machine) (post : α → Machine → Prop) : Prop :=
  post (op m).1 (op m).2

namespace Ensures

variable {op op' : Handler α} {f : α → Handler β} {m : Machine} {post : α → Machine → Prop}
  {post' : β → Machine → Prop}

theorem pure {a : α} (h : post a m) : Ensures (pure a) m post := h

/--
A step that is known to meet a specification.
-/
theorem bind (P : α → Machine → Prop) (hop : Ensures op m P)
    (h : ∀ a m', P a m' → Ensures (f a) m' post') : Ensures (op >>= f) m post' :=
  h _ _ hop

/--
An operation of the services that only reads the state.
-/
theorem read {oper : LLI α} {a : α} (hoper : oper m.state = (a, m.state))
    (h : Ensures (f a) m post') : Ensures (Handler.lift oper >>= f) m post' := by
  unfold Ensures
  rw [bind_run, lift_run, hoper]
  exact h

/--
A check, whose result is looked at afterwards.
-/
theorem check {oper : LLI α} (hoper : ∀ s, (oper s).2 = s)
    (h : ∀ a, (oper m.state).1 = a → Ensures (f a) m post') : Ensures (Handler.lift oper >>= f) m post' :=
  read (Prod.ext rfl (hoper m.state)) (h _ rfl)

/--
An operation of the services that is known to end in `s`.
-/
theorem step {oper : LLI α} {a : α} {s : State} (hoper : oper m.state = (a, s))
    (h : Ensures (f a) { m with state := s } post') : Ensures (Handler.lift oper >>= f) m post' := by
  unfold Ensures
  rw [bind_run, lift_run, hoper]
  exact h

theorem cond {c : Prop} [Decidable c] (hthen : c → Ensures op m post)
    (helse : ¬c → Ensures op' m post) : Ensures (if c then op else op') m post := by
  split
  . next h => exact hthen h
  . next h => exact helse h

theorem mono {post₂ : α → Machine → Prop} (h : Ensures op m post)
    (hpost : ∀ a m', post a m' → post₂ a m') : Ensures op m post₂ :=
  hpost _ _ h

end Ensures

end Handler

theorem readMemory_run (addr : Paddr) (s : State) : readMemory addr s = (readWord s.bytes addr, s) := by
  unfold readMemory
  rw [LLI.gets_run]

/--
Only the memory of the partitions and the processor change.
-/
def SameKernel (m m' : Machine) : Prop :=
  m'.state = { m.state with bytes := m'.state.bytes }

namespace SameKernel

instance : Std.Refl SameKernel where
  refl _ := rfl

instance : IsTrans Machine SameKernel where
  trans m₁ m₂ m₃ h₁₂ h₂₃ := by
    unfold SameKernel at *
    rw [h₂₃, h₁₂]

theorem currentPartition {m m' : Machine} (h : SameKernel m m')
    : m'.state.currentPartition = m.state.currentPartition := by
  rw [h]

end SameKernel

/-
Loading a context
-/

theorem readContextWord_keeps (addr : Paddr) : Keeps SameKernel (readContextWord addr) := by
  intro m
  rfl

theorem writeMemory_keeps (addr : Paddr) (value : Word)
    : Keeps SameKernel (Handler.lift (writeMemory addr value)) := by
  intro m
  rfl

theorem setMaskingFor_keeps (enforceInterrupts : Bool)
    : Keeps SameKernel (setMaskingFor enforceInterrupts) := by
  intro m
  cases enforceInterrupts <;> rfl

theorem clearFpuRegsIfUsed_keeps : Keeps SameKernel clearFpuRegsIfUsed := by
  intro m
  unfold clearFpuRegsIfUsed
  rw [Handler.modify_run]
  split <;> rfl

theorem stackRegisters_keeps (frame : Paddr) (i : Nat) (addrs : List Paddr)
    : Keeps SameKernel (stackRegisters frame i addrs) := by
  induction addrs generalizing i with
  | nil => exact Handler.keeps_pure ()
  | cons addr addrs ih =>
    apply Handler.keeps_bind (readContextWord_keeps addr)
    intro value
    apply Handler.keeps_bind (writeMemory_keeps _ value)
    intro _
    exact ih (i + 1)

theorem loadRegisters_keeps (addrs : List Paddr) : Keeps SameKernel (loadRegisters addrs) := by
  induction addrs with
  | nil => exact Handler.keeps_pure []
  | cons addr addrs ih =>
    apply Handler.keeps_bind (readContextWord_keeps addr)
    intro value
    apply Handler.keeps_bind ih
    intro values
    exact Handler.keeps_pure _

theorem loadBasicContext_keeps (context : Paddr) (enforceInterrupts : Bool)
    : Keeps SameKernel (loadBasicContext context enforceInterrupts) := by
  apply Handler.keeps_bind (R := SameKernel) Handler.keeps_get
  intro m
  apply Handler.keeps_bind (readContextWord_keeps _)
  intro sp
  apply Handler.keeps_bind (stackRegisters_keeps _ _ _)
  intro _
  apply Handler.keeps_bind (readContextWord_keeps _)
  intro xpsr
  apply Handler.keeps_bind (writeMemory_keeps _ _)
  intro _
  apply Handler.keeps_bind (setMaskingFor_keeps _)
  intro _
  apply Handler.keeps_bind clearFpuRegsIfUsed_keeps
  intro _
  apply Handler.keeps_bind (loadRegisters_keeps _)
  intro highRegs _
  rfl

theorem loadExtendedContext_keeps (context : Paddr) (enforceInterrupts : Bool)
    : Keeps SameKernel (loadExtendedContext context enforceInterrupts) := by
  apply Handler.keeps_bind (readContextWord_keeps _)
  intro sp
  apply Handler.keeps_bind (stackRegisters_keeps _ _ _)
  intro _
  apply Handler.keeps_bind (readContextWord_keeps _)
  intro xpsr
  apply Handler.keeps_bind (writeMemory_keeps _ _)
  intro _
  apply Handler.keeps_bind (stackRegisters_keeps _ _ _)
  intro _
  apply Handler.keeps_bind (setMaskingFor_keeps _)
  intro _
  apply Handler.keeps_bind (loadRegisters_keeps _)
  intro highFpRegs
  apply Handler.keeps_bind (loadRegisters_keeps _)
  intro highRegs _
  rfl

theorem loadContext_keeps (context : Paddr) (enforceInterrupts : Bool)
    : Keeps SameKernel (loadContext context enforceInterrupts) := by
  apply Handler.keeps_bind (readContextWord_keeps _)
  intro isBasicFrame
  apply Keeps.ite
  . intro _
    exact loadBasicContext_keeps _ _
  . intro _
    exact loadExtendedContext_keeps _ _

/--
The last step of loading a context looks up the partition that is resumed.
-/
theorem resumption_result (context : Paddr) (extended : Bool) (psp : Word) (highRegs : List Word)
    (m : Machine)
    : Handler.Ensures (do
        let partition ← Handler.lift getCurPartition
        pure { partition, context, extended, psp, highRegs : Resumption }) m fun resumption m' =>
        resumption.context = context ∧ resumption.partition = m'.state.currentPartition :=
  ⟨rfl, rfl⟩

theorem loadContext_result (context : Paddr) (enforceInterrupts : Bool) (m : Machine)
    : (loadContext context enforceInterrupts).Ensures m fun resumption m' =>
        resumption.context = context ∧ resumption.partition = m'.state.currentPartition := by
  refine .bind (fun _ _ => True) trivial fun isBasicFrame m' _ => ?_
  refine .cond (fun _ => ?_) fun _ => ?_
  . unfold loadBasicContext
    refine .bind (fun _ _ => True) trivial fun m₁ m₂ _ => ?_
    refine .bind (fun _ _ => True) trivial fun sp m₃ _ => ?_
    refine .bind (fun _ _ => True) trivial fun _ m₄ _ => ?_
    refine .bind (fun _ _ => True) trivial fun xpsr m₅ _ => ?_
    refine .bind (fun _ _ => True) trivial fun _ m₆ _ => ?_
    refine .bind (fun _ _ => True) trivial fun _ m₇ _ => ?_
    refine .bind (fun _ _ => True) trivial fun _ m₈ _ => ?_
    refine .bind (fun _ _ => True) trivial fun highRegs m₉ _ => ?_
    exact resumption_result _ _ _ _ _
  . unfold loadExtendedContext
    refine .bind (fun _ _ => True) trivial fun sp m₁ _ => ?_
    refine .bind (fun _ _ => True) trivial fun _ m₂ _ => ?_
    refine .bind (fun _ _ => True) trivial fun xpsr m₃ _ => ?_
    refine .bind (fun _ _ => True) trivial fun _ m₄ _ => ?_
    refine .bind (fun _ _ => True) trivial fun _ m₅ _ => ?_
    refine .bind (fun _ _ => True) trivial fun _ m₆ _ => ?_
    refine .bind (fun _ _ => True) trivial fun highFpRegs m₇ _ => ?_
    refine .bind (fun _ _ => True) trivial fun highRegs m₈ _ => ?_
    refine .bind (fun _ _ => True) trivial fun _ m₉ _ => ?_
    exact resumption_result _ _ _ _ _

/-
Switching
-/

/--
The partition is resumed on the context, as the current partition.
-/
def Resumes (partition context : Paddr) (outcome : YieldOutcome) (m : Machine) : Prop :=
  ∃ resumption, outcome = .resumed resumption ∧ resumption.partition = partition
    ∧ resumption.context = context ∧ m.state.currentPartition = partition

theorem switchContextCont_resumes (callee ctx : Paddr) (flagsOnYield : Word) (m : Machine)
    : (switchContextCont callee flagsOnYield ctx).Ensures m (Resumes callee ctx) := by
  refine .bind (fun _ _ => True) trivial fun _ m₁ _ => ?_
  refine .bind (fun _ m => m.state.currentPartition = callee) rfl fun _ m₂ h₂ => ?_
  refine .bind (fun _ m => m.state.currentPartition = callee) h₂ fun _ m₃ h₃ => ?_
  refine .bind (fun _ m => m.state.currentPartition = callee) h₃ fun _ m₄ h₄ => ?_
  refine .bind (fun _ m => m.state.currentPartition = callee) h₄ fun rootPart m₅ h₅ => ?_
  refine .bind (fun _ m => m.state.currentPartition = callee) h₅ fun pipflags m₆ h₆ => ?_
  have hload := loadContext_result ctx (!(callee == rootPart && pipflags == 0)) m₆
  have hkeeps := loadContext_keeps ctx (!(callee == rootPart && pipflags == 0)) m₆
  refine .bind (fun resumption m' => resumption.context = ctx ∧ resumption.partition = callee
    ∧ m'.state.currentPartition = callee) ?_ fun resumption m₇ h₇ => ?_
  . have hcur := hkeeps.currentPartition.trans h₆
    exact ⟨hload.1, hload.2.trans hcur, hcur⟩
  . exact ⟨resumption, rfl, h₇.2.1, h₇.1, h₇.2.2⟩

/-
What the checks say does not depend on the memory of the partitions.
-/

namespace State

variable {s : State}

theorem findBelongingBlock_bytes (bytes : Mem Nat) (pd addr : Paddr)
    : (findBelongingBlock pd addr { s with bytes }).1 = (findBelongingBlock pd addr s).1 := by
  apply SameBlocks.findBelongingBlock_eq
  . exact ⟨rfl, rfl⟩
  . rfl

theorem blockOf_bytes (bytes : Mem Nat) (pd addr : Paddr)
    : { s with bytes }.blockOf pd addr = s.blockOf pd addr := by
  unfold blockOf
  rw [findBelongingBlock_bytes]

theorem opens_bytes (bytes : Mem Nat) (pd addr : Paddr)
    : { s with bytes }.Opens pd addr ↔ s.Opens pd addr := by
  have hfind := findBelongingBlock_bytes bytes pd addr (s := s)
  constructor
  . intro h
    exact ⟨hfind ▸ h.found, hfind ▸ h.present, hfind ▸ h.accessible⟩
  . intro h
    exact ⟨hfind.symm ▸ h.found, hfind.symm ▸ h.present, hfind.symm ▸ h.accessible⟩

theorem vidtPasses_bytes (bytes : Mem Nat) (pd : Paddr)
    : { s with bytes }.VidtPasses pd ↔ s.VidtPasses pd := by
  have hopens := opens_bytes bytes pd (s.vidtOf pd) (s := s)
  have hblock := blockOf_bytes bytes pd (s.vidtOf pd) (s := s)
  constructor
  . intro h
    exact { hopens.mp h.toOpens with size := hblock ▸ h.size }
  . intro h
    exact { hopens.mpr h.toOpens with size := hblock.symm ▸ h.size }

theorem misalignedSave_bytes (bytes : Mem Nat) (pd addr : Paddr)
    : { s with bytes }.MisalignedSave pd addr ↔ s.MisalignedSave pd addr := by
  have hopens := opens_bytes bytes pd addr (s := s)
  have hblock := blockOf_bytes bytes pd addr (s := s)
  constructor
  . intro h
    exact { hopens.mp h.toOpens with write := hblock ▸ h.write, misaligned := h.misaligned }
  . intro h
    exact { hopens.mpr h.toOpens with write := hblock.symm ▸ h.write, misaligned := h.misaligned }

theorem interruptWritten_interruptWritten (pd : Paddr) (interrupt : Nat)
    : (s.interruptWritten pd interrupt).interruptWritten pd interrupt
        =
      s.interruptWritten pd interrupt := by
  unfold interruptWritten vidtOf
  simp only [writeWord_writeWord]

theorem Able.again {pd : Paddr} {interrupt : Nat} (h : s.Able pd interrupt)
    : (s.interruptWritten pd interrupt).Able pd interrupt := by
  constructor
  . exact (vidtPasses_bytes _ pd).mpr h.vidt
  . rw [interruptWritten_interruptWritten, contextAt_interruptWritten]
    exact h.context

/--
The state in which the attempt to switch to the partition leaves the memory, whether it succeeds or not.
-/
def tried (s : State) (pd : Paddr) (interrupt : Nat) : State :=
  if (checkCalleeVidt pd (s.vidtOf pd) s).1 = none then s.interruptWritten pd interrupt else s

theorem Able.tried {pd : Paddr} {interrupt : Nat} (h : s.Able pd interrupt)
    : s.tried pd interrupt = s.interruptWritten pd interrupt :=
  if_pos ((checkVidt_none _ pd).mpr h.vidt)

end State

section Attempts

variable {m : Machine} {callee caller saveAddr context : Paddr} {interrupt : Nat}
  {flagsOnYield flagsOnWake : Word}

end Attempts

/--
The VIDT of the partition passes the checks and holds, for its save index, an address that is not aligned
in a block where the context could be saved.
-/
structure State.SaveMisaligned (s : State) (pd : Paddr) (saveIndex : Nat) : Prop where
  vidt : s.VidtPasses pd
  save_ne : s.contextAt pd saveIndex ≠ nullAddr
  misaligned : s.MisalignedSave pd (s.contextAt pd saveIndex)

section Sources

variable {m : Machine} {callee caller context : Paddr} {interrupt saveIndex : Nat}
  {flagsOnYield flagsOnWake : Word}

end Sources
