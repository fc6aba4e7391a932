import PipMpu.Core.Exceptions
import PipMpu.Core.ReadOnly

/-!
This module contains what the checks on the VIDTs and on the contexts of a switch accept and with which
codes they fail.
-/

/--
The context of the caller is saved if an address for it is given.
-/
theorem saves_iff {saveAddr : Paddr} : (!(nullAddr == saveAddr)) = true ↔ saveAddr ≠ nullAddr := by
  rw [Bool.not_eq_true', beq_eq_false_iff_ne, ne_comm]

/--
The block that contains the address passes the checks every switch makes: it is found, present, and
accessible.
-/
structure State.Opens (s : State) (pd addr : Paddr) : Prop where
  found : (findBelongingBlock pd addr s).1 ≠ nullAddr
  present : (s.blockEntries.get (findBelongingBlock pd addr s).1).present = true
  accessible : (s.blockEntries.get (findBelongingBlock pd addr s).1).accessible = true

namespace State

variable {s s' : State} {pd addr : Paddr}

/--
The entry of the block that contains the address.
-/
def blockOf (s : State) (pd addr : Paddr) : BlockEntry :=
  s.blockEntries.get (findBelongingBlock pd addr s).1

def vidtOf (s : State) (pd : Paddr) : Paddr := (s.pdtables.get pd).vidtAddr

/--
The address that the VIDT of the partition holds at `index`.
-/
def contextAt (s : State) (pd : Paddr) (index : Nat) : Nat :=
  readWord s.bytes (vidtContextAddr (s.vidtOf pd) index)

/--
The VIDT of the partition passes the checks, which compare the size of its block.
-/
structure VidtPasses (s : State) (pd : Paddr) : Prop extends s.Opens pd (s.vidtOf pd) where
  size : 228 ≤ add32
    (sub32 (s.blockOf pd (s.vidtOf pd)).endAddr (s.blockOf pd (s.vidtOf pd)).startAddr) 1

/--
The context of the partition passes the checks of `getTargetPartCtxCont`.
-/
def ContextPasses (s : State) (pd context : Paddr) : Prop :=
  (checkCalleeContext pd context s).1 = none

/--
The state after `currentInterrupt` was written. Should the word lie over a kernel object, this is seen when the
handler has run.
-/
def interruptWritten (s : State) (pd : Paddr) (interrupt : Nat) : State :=
  { s with bytes := writeWord s.bytes (s.vidtOf pd) interrupt }

/--
Writing `currentInterrupt` leaves the addresses of the contexts alone.
-/
theorem contextAt_interruptWritten (s : State) (pd : Paddr) (interrupt index : Nat)
    : (s.interruptWritten pd interrupt).contextAt pd index = s.contextAt pd index := by
  unfold contextAt
  apply readWord_writeWord_of_disjoint
  right
  unfold vidtContextAddr
  exact Nat.le_add_right _ _

/--
The VIDT of the partition and the context it holds for the interrupt pass the checks of the callee. The
checks on the context come after `currentInterrupt` was written.
-/
structure Able (s : State) (pd : Paddr) (interrupt : Nat) : Prop where
  vidt : s.VidtPasses pd
  context : (s.interruptWritten pd interrupt).ContextPasses pd (s.contextAt pd interrupt)

/--
The block of the save address passes all checks, but the address is not aligned.
-/
structure MisalignedSave (s : State) (pd addr : Paddr) : Prop extends s.Opens pd addr where
  write : (s.blockOf pd addr).write = true
  misaligned : isMisaligned addr = true

end State

section Checks

variable {s : State}

theorem checkVidt_run (errors : VidtErrors) (pd addr : Paddr) (s : State)
    : checkVidt errors pd addr s =
      (if nullAddr = (findBelongingBlock pd addr s).1 then some errors.isNull
       else if (s.blockOf pd addr).present = false then some errors.isNotPresent
       else if (s.blockOf pd addr).accessible = false then some errors.isNotAccessible
       else if add32 (sub32 (s.blockOf pd addr).endAddr (s.blockOf pd addr).startAddr) 1 < 228 then
        some errors.blockTooSmall
       else none, s) := by
  unfold checkVidt readBlockPresentFromBlockEntryAddr readBlockAccessibleFromBlockEntryAddr
    readBlockStartFromBlockEntryAddr readBlockEndFromBlockEntryAddr readBlockField compareAddrToNull
    getNullAddr getBeqAddr getVidtSize State.blockOf
  rw [LLI.bind_run, findBelongingBlock_state]
  generalize (findBelongingBlock pd addr s).1 = b
  simp only [LLI.bind_run, LLI.ite_run, LLI.gets_run, LLI.pure_run, beqAddr, beq_iff_eq,
    Bool.not_eq_true']
  split
  . rfl
  . split
    . rfl
    . split
      . rfl
      . split <;> rfl

theorem checkVidt_state (errors : VidtErrors) (pd addr : Paddr) (s : State)
    : (checkVidt errors pd addr s).2 = s := by
  rw [checkVidt_run]

theorem checkVidt_none (errors : VidtErrors) (pd : Paddr)
    : (checkVidt errors pd (s.vidtOf pd) s).1 = none ↔ s.VidtPasses pd := by
  rw [checkVidt_run]
  constructor
  . intro h
    simp only at h
    split at h
    . simp at h
    . next hfound =>
      split at h
      . simp at h
      . next hpresent =>
        split at h
        . simp at h
        . next haccessible =>
          split at h
          . simp at h
          . next hsize =>
            exact
              {
                found := Ne.symm hfound
                present := eq_true_of_ne_false hpresent
                accessible := eq_true_of_ne_false haccessible
                size := Nat.le_of_not_lt hsize
              }
  . intro h
    have hpresent : (s.blockOf pd (s.vidtOf pd)).present = true := h.present
    have haccessible : (s.blockOf pd (s.vidtOf pd)).accessible = true := h.accessible
    rw [if_neg (Ne.symm h.found), hpresent, haccessible, if_neg (Nat.not_lt.mpr h.size)]
    rfl

theorem checkVidt_some {errors : VidtErrors} {pd addr : Paddr} {code : YieldReturnCode}
    (h : (checkVidt errors pd addr s).1 = some code)
    : code = errors.isNull ∨ code = errors.isNotPresent ∨ code = errors.isNotAccessible
        ∨ code = errors.blockTooSmall := by
  rw [checkVidt_run] at h
  simp only at h
  split at h
  . exact .inl (Option.some.inj h).symm
  . split at h
    . exact .inr (.inl (Option.some.inj h).symm)
    . split at h
      . exact .inr (.inr (.inl (Option.some.inj h).symm))
      . split at h
        . exact .inr (.inr (.inr (Option.some.inj h).symm))
        . cases h

/--
The context of the kind that its first word says ends before `endAddr`.
-/
def contextFits (addr endAddr : Paddr) (isBasicFrame : Word) : Bool :=
  if isBasicFrame = 1 then
    !isNotEnoughSpace addr endAddr sizeofBasicContext
  else if isBasicFrame = 0 then
    !isNotEnoughSpace addr endAddr sizeofExtendedContext
  else
    false

theorem checkCalleeContext_run (pd addr : Paddr) (s : State)
    : checkCalleeContext pd addr s =
      (if nullAddr = (findBelongingBlock pd addr s).1 then some .calleeContextBlockNotFound
       else if (s.blockOf pd addr).present = false then some .calleeContextBlockIsNotPresent
       else if (s.blockOf pd addr).accessible = false then some .calleeContextBlockIsNotAccessible
       else if (s.blockOf pd addr).read = false then some .calleeContextBlockIsNotReadable
       else if isMisaligned addr then some .calleeContextMisaligned
       else if isNotEnoughSpace addr (s.blockOf pd addr).endAddr 4 then
        some .calleeContextExceedBlockEnd
       else if contextFits addr (s.blockOf pd addr).endAddr (readWord s.bytes addr) = false then
        some .calleeContextExceedBlockEnd
       else none, s) := by
  unfold checkCalleeContext readBlockPresentFromBlockEntryAddr readBlockAccessibleFromBlockEntryAddr
    readBlockRFromBlockEntryAddr readBlockEndFromBlockEntryAddr readBlockField compareAddrToNull
    getNullAddr getBeqAddr readMemory isBasicFrameAddr State.blockOf
  rw [LLI.bind_run, findBelongingBlock_state]
  generalize (findBelongingBlock pd addr s).1 = b
  simp only [LLI.bind_run, LLI.ite_run, LLI.gets_run, LLI.pure_run, beqAddr, beq_iff_eq,
    Bool.not_eq_true']
  generalize readWord s.bytes addr = w
  split
  . rfl
  . split
    . rfl
    . split
      . rfl
      . split
        . rfl
        . split
          . rfl
          . split
            . rfl
            . unfold contextFits
              split
              . cases isNotEnoughSpace addr (s.blockEntries.get b).endAddr sizeofBasicContext <;> rfl
              . split
                . cases isNotEnoughSpace addr (s.blockEntries.get b).endAddr sizeofExtendedContext <;> rfl
                . rfl

theorem checkCallerContext_run (pd addr context : Paddr) (s : State)
    : checkCallerContext pd addr context s =
      (if nullAddr = (findBelongingBlock pd addr s).1 then some .callerContextBlockNotFound
       else if (s.blockOf pd addr).present = false then some .callerContextBlockIsNotPresent
       else if (s.blockOf pd addr).accessible = false then some .callerContextBlockIsNotAccessible
       else if (s.blockOf pd addr).write = false then some .callerContextBlockIsNotWritable
       else if isMisaligned addr then some .calleeContextMisaligned
       else if contextFits addr (s.blockOf pd addr).endAddr (readWord s.bytes context) = false then
        some .callerContextExceedBlockEnd
       else none, s) := by
  unfold checkCallerContext readBlockPresentFromBlockEntryAddr readBlockAccessibleFromBlockEntryAddr
    readBlockWFromBlockEntryAddr readBlockEndFromBlockEntryAddr readBlockField compareAddrToNull
    getNullAddr getBeqAddr readMemory isBasicFrameAddr State.blockOf
  rw [LLI.bind_run, findBelongingBlock_state]
  generalize (findBelongingBlock pd addr s).1 = b
  simp only [LLI.bind_run, LLI.ite_run, LLI.gets_run, LLI.pure_run, beqAddr, beq_iff_eq,
    Bool.not_eq_true']
  generalize readWord s.bytes context = w
  split
  . rfl
  . split
    . rfl
    . split
      . rfl
      . split
        . rfl
        . split
          . rfl
          . unfold contextFits
            split
            . cases isNotEnoughSpace addr (s.blockEntries.get b).endAddr sizeofBasicContext <;> rfl
            . split
              . cases isNotEnoughSpace addr (s.blockEntries.get b).endAddr sizeofExtendedContext <;> rfl
              . rfl

theorem checkCalleeContext_state (pd addr : Paddr) (s : State)
    : (checkCalleeContext pd addr s).2 = s := by
  rw [checkCalleeContext_run]

theorem checkCallerContext_state (pd addr context : Paddr) (s : State)
    : (checkCallerContext pd addr context s).2 = s := by
  rw [checkCallerContext_run]

/--
What the checks on a context accept.
-/
structure State.ContextFits (s : State) (pd addr : Paddr) : Prop extends s.Opens pd addr where
  read : (s.blockOf pd addr).read = true
  aligned : isMisaligned addr = false
  fits : contextFits addr (s.blockOf pd addr).endAddr (readWord s.bytes addr) = true

theorem State.ContextPasses.fits {pd addr : Paddr} (h : s.ContextPasses pd addr)
    : s.ContextFits pd addr := by
  unfold State.ContextPasses at h
  rw [checkCalleeContext_run] at h
  simp only at h
  split at h
  . cases h
  . next hfound =>
    split at h
    . cases h
    . next hpresent =>
      split at h
      . cases h
      . next haccessible =>
        split at h
        . cases h
        . next hread =>
          split at h
          . cases h
          . next haligned =>
            split at h
            . cases h
            . split at h
              . cases h
              . next hfits =>
                exact
                  {
                    found := Ne.symm hfound
                    present := eq_true_of_ne_false hpresent
                    accessible := eq_true_of_ne_false haccessible
                    read := eq_true_of_ne_false hread
                    aligned := eq_false_of_ne_true haligned
                    fits := eq_true_of_ne_false hfits
                  }

theorem checkCallerContext_none {pd addr context : Paddr}
    (h : (checkCallerContext pd addr context s).1 = none) : ¬s.MisalignedSave pd addr := by
  intro hsave
  rw [checkCallerContext_run] at h
  have hpresent : (s.blockOf pd addr).present = true := hsave.present
  have haccessible : (s.blockOf pd addr).accessible = true := hsave.accessible
  simp only [Ne.symm hsave.found, hpresent, haccessible, hsave.write, hsave.misaligned, if_false,
    if_true, Bool.true_eq_false, reduceCtorEq] at h

end Checks

namespace State

instance (s : State) (pd : Paddr) : Decidable (s.VidtPasses pd) :=
  decidable_of_iff _ (checkVidt_none
    {
      isNull := .calleeVidtIsNull
      isNotPresent := .calleeVidtIsNotPresent
      isNotAccessible := .calleeVidtIsNotAccessible
      blockTooSmall := .calleeVidtBlockTooSmall
    } pd)

instance (s : State) (pd context : Paddr) : Decidable (s.ContextPasses pd context) :=
  inferInstanceAs (Decidable (_ = none))

instance (s : State) (pd : Paddr) (interrupt : Nat) : Decidable (s.Able pd interrupt) :=
  decidable_of_iff
    (s.VidtPasses pd
      ∧ (s.interruptWritten pd interrupt).ContextPasses pd (s.contextAt pd interrupt))
    ⟨fun h => ⟨h.1, h.2⟩, fun h => ⟨h.vidt, h.context⟩⟩

end State
