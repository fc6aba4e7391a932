import PipMpu.Core.Frame
import PipMpu.Props.Removal

/-!
This module contains which calls leave the state as it is when they report a failure. Each service but
`removeMemoryBlock` and `mapMPU` makes all its checks before the first write, and returns neither false nor null from
there on.
-/

namespace LLI

variable {α β : Type}

/--
Whatever state `m` starts in, its result meets `P`.
-/
def Returns (P : α → Prop) (m : LLI α) : Prop := ∀ s, P (m s).1

namespace Returns

variable {P : β → Prop} {m : LLI α} {n n' : LLI β} {f : α → LLI β}

theorem pure {value : β} (h : P value) : Returns P (pure value) := fun _ => h

theorem bind (h : ∀ a, Returns P (f a)) : Returns P (m >>= f) := fun s => h (m s).1 (m s).2

theorem ite {c : Prop} [Decidable c] (h : Returns P n) (h' : Returns P n') : Returns P (if c then n else n') := by
  split
  . exact h
  . exact h'

end Returns

/--
If `m` returns `failure` in the state `s`, it leaves this state as it is.
-/
def FailsClean (failure : α) (m : LLI α) (s : State) : Prop := (m s).1 = failure → (m s).2 = s

namespace FailsClean

variable {failure value : β} {m : LLI α} {n n' : LLI β} {f : α → LLI β} {s : State}

theorem pure : FailsClean failure (pure value) s := fun _ => rfl

/--
A step that only reads the state.
-/
theorem read (hm : ∀ s, (m s).2 = s) (h : ∀ a, (m s).1 = a → FailsClean failure (f a) s)
    : FailsClean failure (m >>= f) s := by
  unfold FailsClean
  rw [LLI.bind_run, hm s]
  exact h _ rfl

theorem ite {c : Prop} [Decidable c] (h : c → FailsClean failure n s) (h' : ¬c → FailsClean failure n' s)
    : FailsClean failure (if c then n else n') s := by
  split
  . next hc => exact h hc
  . next hc => exact h' hc

/--
A check after which the service gives up or goes on.
-/
theorem guard {c : Prop} [Decidable c] (h : ¬c → FailsClean failure n s)
    : FailsClean failure (if c then (Pure.pure value : LLI β) else n) s :=
  .ite (fun _ => .pure) h

/--
From here on the service cannot fail.
-/
theorem of_returns (h : Returns (· ≠ failure) n) : FailsClean failure n s :=
  fun heq => absurd heq (h s)

/--
A step whose result makes sure that the rest cannot fail.
-/
theorem of_result (P : α → Prop) (hm : P (m s).1) (h : ∀ a, P a → Returns (· ≠ failure) (f a))
    : FailsClean failure (m >>= f) s := by
  intro heq
  rw [LLI.bind_run] at heq
  exact absurd heq (h _ hm _)

/--
The first write, in a state from which the rest cannot fail.
-/
theorem of_state (P : State → Prop) (hm : P (m s).2)
    (h : ∀ a s', P s' → Ensures (f a) s' fun result _ => result ≠ failure) : FailsClean failure (m >>= f) s :=
  fun heq => absurd heq (h _ _ hm)

/--
A step that reports its own failure. If it succeeds, the rest of the service cannot fail.
-/
theorem attempt {failed : α} (hm : FailsClean failed m s) (hfailed : FailsClean failure (f failed) s)
    (hdone : ∀ a, a ≠ failed → Returns (· ≠ failure) (f a)) : FailsClean failure (m >>= f) s := by
  intro heq
  rw [LLI.bind_run] at heq ⊢
  by_cases hresult : (m s).1 = failed
  . rw [hresult, hm hresult] at heq ⊢
    exact hfailed heq
  . exact absurd heq (hdone _ hresult _)

end FailsClean

end LLI

open LLI

theorem createPartition_failsClean (idBlock : Nat) (s : State) : FailsClean false (createPartition idBlock) s := by
  unfold createPartition
  repeat first
    | with_reducible refine .guard fun _ => ?_
    | with_reducible refine .read (findBlockInKSWithAddr_state _ _) fun _ _ => ?_
    | refine .read (fun _ => rfl) fun _ _ => ?_
  apply FailsClean.of_returns
  iterate 10 refine .bind fun _ => ?_
  exact .ite (.bind fun _ => .pure (by simp)) (.pure (by simp))

theorem mergeMemoryBlocks_failsClean (idBlockToMerge1 idBlockToMerge2 MPURegionNb : Nat) (s : State)
    : FailsClean nullAddr (mergeMemoryBlocks idBlockToMerge1 idBlockToMerge2 MPURegionNb) s := by
  refine .read (fun _ => rfl) fun currentPart _ => ?_
  refine .read (findBlockInKSWithAddr_state _ _) fun block1 hblock1 => ?_
  refine .read (fun _ => rfl) fun addrIsNull hnull => ?_
  refine .guard fun hne => ?_
  -- the block that was found is the one the caller named
  have hid : idBlockToMerge1 ≠ nullAddr := by
    rintro rfl
    rcases findBlockInKSWithAddr_cases currentPart nullAddr s with hnone | ⟨hsame, -⟩
    . rw [hnone] at hblock1
      rw [← hblock1] at hnull
      exact hne hnull.symm
    . rw [hsame] at hblock1
      rw [← hblock1] at hnull
      exact hne hnull.symm
  repeat first
    | with_reducible refine .guard fun _ => ?_
    | with_reducible refine .read (findBlockInKSWithAddr_state _ _) fun _ _ => ?_
    | refine .read (fun _ => rfl) fun _ _ => ?_
  apply FailsClean.of_returns
  iterate 8 refine .bind fun _ => ?_
  exact .pure hid

theorem eraseBlock_failsClean (startAddr endAddr : Nat) (s : State)
    : FailsClean false (eraseBlock startAddr endAddr) s := by
  refine .ite (fun _ => .pure) fun _ => ?_
  exact .of_returns (.bind fun _ => .pure (by simp))

theorem initStructure_failsClean (startAddr endAddr : Nat) (s : State)
    : FailsClean false (initStructure startAddr endAddr) s := by
  refine .attempt (eraseBlock_failsClean startAddr endAddr s) (.guard fun htrue => absurd rfl htrue)
    fun erased hdone => ?_
  cases erased with
  | false => exact absurd rfl hdone
  | true =>
    iterate 4 refine .bind fun _ => ?_
    exact .pure (by simp)

theorem prepare_failsClean (idPD idRequisitionedBlock : Nat) (s : State)
    : FailsClean false (prepare idPD idRequisitionedBlock) s := by
  unfold prepare
  repeat first
    | with_reducible refine .guard fun _ => ?_
    | with_reducible refine .read (getGlobalIdPDCurrentOrChild_state _ _) fun _ _ => ?_
    | with_reducible refine .read (findBlockInKSWithAddr_state _ _) fun _ _ => ?_
    | refine .read (fun _ => rfl) fun _ _ => ?_
  refine .attempt (initStructure_failsClean _ _ s) (.guard fun htrue => absurd rfl htrue) fun initialised hdone => ?_
  cases initialised with
  | false => exact absurd rfl hdone
  | true =>
    iterate 19 refine .bind fun _ => ?_
    exact .ite (.bind fun _ => .pure (by simp)) (.pure (by simp))

/--
The accessible bits of the ancestors are written without a change to the free slots of a partition.
-/
theorem writeAccessible_firstfreeslot (pd entry p : Nat) (accessiblebit : Bool) (s : State)
    : ((writeAccessibleToAncestorsIfNotCutRec pd entry accessiblebit s).2.pdtables.get p).firstfreeslot
        =
      (s.pdtables.get p).firstfreeslot := by
  let SameFirst : State → State → Prop :=
    fun s s' => (s'.pdtables.get p).firstfreeslot = (s.pdtables.get p).firstfreeslot
  have : Std.Refl SameFirst := ⟨fun _ => rfl⟩
  have : IsTrans State SameFirst := ⟨fun _ _ _ h h' => h'.trans h⟩
  have hkeeps : Keeps SameFirst (writeAccessibleToAncestorsIfNotCutRec pd entry accessiblebit) := by
    apply writeAccessibleToAncestorsIfNotCutRec_keeps
    . exact fun _ _ => rfl
    . intro q b s
      have hcore := Sim.unmapBlock_core b (List.range mpuRegionsNb) (s.pdtables.get q)
      simp only [PDTable.core, Prod.mk.injEq] at hcore
      show ((s.pdtables.set q _).get p).firstfreeslot = _
      rw [Mem.get_set]
      split
      . next heq =>
        rw [← heq]
        exact hcore.2.1
      . rfl
  exact hkeeps s

theorem insertNewEntry_result (pd startaddr endaddr origin : Nat) (r w e : Bool) (n : Nat) (s : State)
    : (insertNewEntry pd startaddr endaddr origin r w e n s).1 = (s.pdtables.get pd).firstfreeslot := by
  rfl

theorem addMemoryBlock_failsClean (idPDchild idBlockToShare : Nat) (r w e : Bool) (s : State)
    : FailsClean nullAddr (addMemoryBlock idPDchild idBlockToShare r w e) s := by
  refine .read (fun _ => rfl) fun currentPart _ => ?_
  refine .read (findBlockInKSWithAddr_state _ _) fun blockToShare _ => ?_
  refine .read (fun _ => rfl) fun _ _ => ?_
  refine .guard fun _ => ?_
  refine .read (checkRights_state _ _ _ _) fun _ _ => ?_
  refine .guard fun _ => ?_
  refine .read (checkChildOfCurrPart_state _ _) fun _ _ => ?_
  refine .guard fun _ => ?_
  refine .read (fun _ => rfl) fun child _ => ?_
  iterate 3 refine .read (fun _ => rfl) fun _ _ => ?_
  refine .guard fun _ => ?_
  refine .read (fun _ => rfl) fun firstfreeslot hfirst => ?_
  refine .read (fun _ => rfl) fun slotIsNull hnull => ?_
  refine .guard fun hne => ?_
  iterate 2
    refine .read (fun _ => rfl) fun _ _ => ?_
    refine .guard fun _ => ?_
  iterate 2 refine .read (fun _ => rfl) fun _ _ => ?_
  refine .guard fun _ => ?_
  refine .read (fun _ => rfl) fun _ _ => ?_
  refine .guard fun _ => ?_
  iterate 2 refine .read (fun _ => rfl) fun _ _ => ?_
  -- the result is the first free slot of the child, which is not null
  refine .of_result (· ≠ nullAddr) ?_ fun entry hentry => .bind fun _ => .bind fun _ => .pure hentry
  rw [insertNewEntry_result]
  rintro heq
  have hfirst : firstfreeslot = nullAddr := hfirst.symm.trans heq
  rw [hfirst] at hnull
  exact hne hnull.symm

theorem collectStructureRecAux_failsClean (timeout currentPart idPD predStructureAddr currStructureAddr : Nat)
    (s : State)
    : FailsClean nullAddr (collectStructureRecAux timeout currentPart idPD predStructureAddr currStructureAddr) s := by
  induction timeout generalizing predStructureAddr currStructureAddr with
  | zero => exact .pure
  | succ timeout ih =>
    refine .guard fun _ => ?_
    iterate 2 refine .read (fun _ => rfl) fun _ _ => ?_
    refine .read (checkStructureEmptyRecAux_state _ _ _) fun _ _ => ?_
    refine .ite (fun _ => ?_) fun _ => ?_
    . refine .read (fun _ => rfl) fun _ _ => ?_
      exact ih _ _
    refine .read (findBlockInKS_state _ _) fun block _ => ?_
    refine .read (fun _ => rfl) fun _ hnull => ?_
    refine .ite (fun _ => ?_) fun hne => ?_
    . refine .read (fun _ => rfl) fun _ _ => ?_
      exact ih _ _
    apply FailsClean.of_returns
    iterate 13 refine .bind fun _ => ?_
    apply Returns.pure
    rintro rfl
    exact hne hnull.symm

theorem collect_failsClean (idPD : Nat) (s : State) : FailsClean nullAddr (collect idPD) s := by
  unfold collect
  repeat first
    | with_reducible refine .guard fun _ => ?_
    | with_reducible refine .read (getGlobalIdPDCurrentOrChild_state _ _) fun _ _ => ?_
    | refine .read (fun _ => rfl) fun _ _ => ?_
  exact collectStructureRecAux_failsClean _ _ _ _ _ s

theorem setVIDT_failsClean (pd vidtAddr : Nat) (s : State) : FailsClean false (setVIDT pd vidtAddr) s := by
  refine .read (fun _ => rfl) fun curPd _ => ?_
  refine .read (getGlobalIdPDCurrentOrChild_state _ _) fun globalPd _ => ?_
  refine .read (fun _ => rfl) fun _ _ => ?_
  refine .guard fun _ => ?_
  refine .read (fun _ => rfl) fun _ _ => ?_
  refine .ite (fun _ => ?_) fun _ => ?_
  . exact .of_returns (.bind fun _ => .pure (by simp))
  refine .read (findBelongingBlock_state _ _) fun vidtBlock _ => ?_
  repeat first
    | with_reducible refine .guard fun _ => ?_
    | refine .read (fun _ => rfl) fun _ _ => ?_
  refine .ite (fun _ => ?_) fun _ => ?_
  all_goals
    repeat first
      | with_reducible refine .guard fun _ => ?_
      | refine .read (fun _ => rfl) fun _ _ => ?_
    exact .of_returns (.bind fun _ => .pure (by simp))

theorem deletePartition_failsClean (idPDchildToDelete : Nat) (s : State)
    : FailsClean false (deletePartition idPDchildToDelete) s := by
  unfold deletePartition
  repeat first
    | with_reducible refine .guard fun _ => ?_
    | with_reducible refine .read (findBlockInKSWithAddr_state _ _) fun _ _ => ?_
    | refine .read (fun _ => rfl) fun _ _ => ?_
  apply FailsClean.of_returns
  iterate 8 refine .bind fun _ => ?_
  exact .ite (.pure (by simp)) (.bind fun _ => .pure (by simp))

namespace State

/--
The number of free slots of each partition is the length of its list of free slots.
-/
def NbFreeSlotsIsNbFreeSlotsInList (s : State) : Prop :=
  ∀ p, s.Partition p → ∃ free : List Nat, Linked s.nextFree (s.pdtables.get p).firstfreeslot free
    ∧ (s.pdtables.get p).nbfreeslots = free.length

/--
The part of the consistency that the services rely on to fail without effect.
-/
structure Consistent (s : State) : Prop where
  currentPartitionInPartitionsList : s.Partition s.currentPartition
  nbFreeSlots : s.NbFreeSlotsIsNbFreeSlotsInList

/--
The call reports a failure, that is false or null.
-/
def Fails (s : State) : ServiceCall → Prop
  | .createPartition idBlock => (createPartition idBlock s).1 = false
  | .cutMemoryBlock idBlockToCut cutAddr MPURegionNb => (cutMemoryBlock idBlockToCut cutAddr MPURegionNb s).1 = nullAddr
  | .mergeMemoryBlocks idBlockToMerge1 idBlockToMerge2 MPURegionNb =>
    (mergeMemoryBlocks idBlockToMerge1 idBlockToMerge2 MPURegionNb s).1 = nullAddr
  | .prepare idPD idRequisitionedBlock => (prepare idPD idRequisitionedBlock s).1 = false
  | .addMemoryBlock idPDchild idBlockToShare r w e => (addMemoryBlock idPDchild idBlockToShare r w e s).1 = nullAddr
  | .removeMemoryBlock idBlockToRemove => (removeMemoryBlock idBlockToRemove s).1 = false
  | .deletePartition idPDchildToDelete => (deletePartition idPDchildToDelete s).1 = false
  | .collect idPD => (collect idPD s).1 = nullAddr
  | .mapMPU idPD idBlockToEnable MPURegionNb => (mapMPU idPD idBlockToEnable MPURegionNb s).1 = false
  | .readMPU idPD MPURegionNb => (readMPU idPD MPURegionNb s).1 = nullAddr
  | .setVIDT pd vidtAddr => (setVIDT pd vidtAddr s).1 = false

end State

/--
The services whose checks all come before their first write.
-/
def ServiceCall.ChecksFirst : ServiceCall → Prop
  | removeMemoryBlock _ => False
  | mapMPU _ _ _ => False
  | _ => True

theorem State.Consistent.firstfreeslot_ne {s : State} (hs : s.Consistent)
    (hnb : (s.pdtables.get s.currentPartition).nbfreeslots ≠ 0)
    : (s.pdtables.get s.currentPartition).firstfreeslot ≠ nullAddr := by
  rcases hs.nbFreeSlots _ hs.currentPartitionInPartitionsList with ⟨free, hfree, hlen⟩
  cases free with
  | nil => exact absurd hlen hnb
  | cons slot rest =>
    rcases hfree with ⟨hfirst, hne, -⟩
    rw [hfirst]
    exact hne

theorem State.WellFormed.consistent {s : State} (hs : s.WellFormed) : s.Consistent := by
  rcases hs with ⟨C, h, hC⟩
  constructor
  . rw [h.cur]
    exact h.partition_of_live hC.static hC.static.cur_live
  . intro p hp
    have hlive := h.live_of_partition hC.static hp
    exact ⟨_, h.free p hlive, h.nbfreeslots p hlive⟩

theorem cutMemoryBlock_failsClean {s : State} (hs : s.Consistent) (idBlockToCut cutAddr MPURegionNb : Nat)
    : FailsClean nullAddr (cutMemoryBlock idBlockToCut cutAddr MPURegionNb) s := by
  refine .read (fun _ => rfl) fun currentPart hcur => ?_
  refine .read (fun _ => rfl) fun nbFreeSlots hnb => ?_
  refine .read (fun _ => rfl) fun zeroIdx hzero => ?_
  refine .read (fun _ => rfl) fun isFull hfull => ?_
  refine .guard fun hnotfull => ?_
  subst hcur hnb hzero hfull
  have hfirst := hs.firstfreeslot_ne (fun heq => hnotfull (decide_eq_true (Nat.le_of_eq heq)))
  repeat first
    | with_reducible refine .guard fun _ => ?_
    | with_reducible refine .read (findBlockInKSWithAddr_state _ _) fun _ _ => ?_
    | refine .read (fun _ => rfl) fun _ _ => ?_
  refine .of_state (fun s' => (s'.pdtables.get s.currentPartition).firstfreeslot ≠ nullAddr) ?_ fun _ s' hfirst' => ?_
  . rw [writeAccessible_firstfreeslot]
    exact hfirst
  iterate 5 refine .bind rfl ?_
  -- the new block is the first free slot
  refine .step_result (P := fun entry _ => entry ≠ nullAddr) hfirst' fun entry _ hentry => ?_
  iterate 9 refine .step (fun _ => True) trivial fun _ _ _ => ?_
  exact hentry

theorem readMPU_failsClean (idPD MPURegionNb : Nat) (s : State) : FailsClean nullAddr (readMPU idPD MPURegionNb) s :=
  fun _ => (readMPU_keeps (R := Eq) idPD MPURegionNb s).symm

/--
A call that fails leaves the complete state as it is.
-/
theorem after_of_fails {s : State} (hs : s.Consistent) {call : ServiceCall} (hcall : call.ChecksFirst)
    (hfails : s.Fails call) : s.after call = s := by
  cases call with
  | createPartition idBlock => exact createPartition_failsClean idBlock s hfails
  | cutMemoryBlock idBlockToCut cutAddr MPURegionNb =>
    exact cutMemoryBlock_failsClean hs idBlockToCut cutAddr MPURegionNb hfails
  | mergeMemoryBlocks idBlockToMerge1 idBlockToMerge2 MPURegionNb =>
    exact mergeMemoryBlocks_failsClean idBlockToMerge1 idBlockToMerge2 MPURegionNb s hfails
  | prepare idPD idRequisitionedBlock => exact prepare_failsClean idPD idRequisitionedBlock s hfails
  | addMemoryBlock idPDchild idBlockToShare r w e =>
    exact addMemoryBlock_failsClean idPDchild idBlockToShare r w e s hfails
  | removeMemoryBlock idBlockToRemove => exact absurd hcall id
  | deletePartition idPDchildToDelete => exact deletePartition_failsClean idPDchildToDelete s hfails
  | collect idPD => exact collect_failsClean idPD s hfails
  | mapMPU idPD idBlockToEnable MPURegionNb => exact absurd hcall id
  | readMPU idPD MPURegionNb => exact readMPU_failsClean idPD MPURegionNb s hfails
  | setVIDT pd vidtAddr => exact setVIDT_failsClean pd vidtAddr s hfails

/--
The address of the cut is not aligned.
-/
theorem after_of_fails_booted
    : State.booted.after (.cutMemoryBlock 0x2000F111 0x20009010 8) = State.booted := by
  have hconsistent := (ServiceCall.wellFormed_of_reachable ServiceCall.reachable_booted).consistent
  have hfails : State.booted.Fails (.cutMemoryBlock 0x2000F111 0x20009010 8) := by
    show _ = nullAddr
    decide +kernel
  exact after_of_fails hconsistent trivial hfails
