import PipMpu.Refine.Outside

/-!
This module contains the walk of `writeAccessibleRec` through the ancestors of a partition.
-/

namespace Conf

variable {C : Conf}

/--
Every proper ancestor of the partition has a block with the bounds `lo` and `hi`.
-/
inductive AllAbove (C : Conf) (lo hi : Nat) : Nat → Prop where
  | root : AllAbove C lo hi C.root
  | parent {p A : Nat} : p ≠ C.root → C.Has (C.parent p) A → (C.slot A).startAddr = lo →
      (C.slot A).endAddr = hi → AllAbove C lo hi (C.parent p) → AllAbove C lo hi p

theorem allAbove_setAccessible (C : Conf) (S : Nat → Prop) (v : Bool) (lo hi p : Nat)
    : (C.setAccessible S v).AllAbove lo hi p ↔ C.AllAbove lo hi p := by
  constructor
  . intro h
    induction h with
    | root => exact AllAbove.root
    | parent hp hA hstart hend _ ih =>
      exact AllAbove.parent hp (by simpa using hA) (by simpa using hstart) (by simpa using hend) ih
  . intro h
    induction h with
    | root => exact AllAbove.root
    | parent hp hA hstart hend _ ih =>
      exact AllAbove.parent hp (by simpa using hA) (by simpa using hstart) (by simpa using hend) ih

/--
The ancestors of `p` keep their exact blocks while only blocks further down change.
-/
theorem AllAbove.congr {C' : Conf} (hC : C.Sep) {p lo hi : Nat} (hroot : C'.root = C.root)
    (hparent : C'.parent = C.parent)
    (hhas : ∀ q a, C.depth q < C.depth p → C.Has q a → C'.Has q a ∧
      (C'.slot a).startAddr = (C.slot a).startAddr ∧ (C'.slot a).endAddr = (C.slot a).endAddr)
    (hp : C.Live p) (h : C.AllAbove lo hi p) : C'.AllAbove lo hi p := by
  induction h with
  | root =>
    rw [← hroot]
    exact AllAbove.root
  | @parent p A hne hA hstart hend _ ih =>
    have hdepth := hC.depth_parent p hp hne
    rcases hhas _ A (by omega) hA with ⟨hA', hstart', hend'⟩
    rw [← hparent] at hA'
    refine AllAbove.parent (hroot ▸ hne) hA' (hstart'.trans hstart) (hend'.trans hend) ?_
    rw [hparent]
    exact ih (fun q a hq => hhas q a (by omega)) (hC.parent_live p hp hne)

theorem setSlot_accessible (C : Conf) (a : Nat) (v : Bool)
    : C.setSlot a { C.slot a with accessible := v } = C.setAccessible (· = a) v := by
  simp only [setSlot, setAccessible, Conf.mk.injEq, true_and]
  funext b
  by_cases hb : b = a
  . simp [hb]
  . simp [hb]

theorem walk_of_none {p lo hi : Nat} {v : Bool}
    (hnone : ¬∃ A, p ≠ C.root ∧ C.Has (C.parent p) A ∧ (C.slot A).startAddr = lo ∧
      (C.slot A).endAddr = hi) : C.walk p lo hi v = C := by
  apply setAccessible_of_empty
  intro a ha
  apply hnone
  cases ha with
  | parent hp hA hstart hend => exact ⟨a, hp, hA, hstart, hend⟩
  | further hp hA hstart hend _ => exact ⟨_, hp, hA, hstart, hend⟩

theorem Sep.walk_step (hC : C.Sep) {p A lo hi : Nat} (v : Bool) (hp : p ≠ C.root)
    (hA : C.Has (C.parent p) A) (hstart : (C.slot A).startAddr = lo) (hend : (C.slot A).endAddr = hi)
    : (C.setAccessible (· = A) v).walk (C.parent p) lo hi v = C.walk p lo hi v := by
  unfold walk
  rw [above_setAccessible, setAccessible_setAccessible]
  congr 1
  funext a
  apply propext
  constructor
  . rintro (rfl | ha)
    . exact Above.parent hp hA hstart hend
    . exact Above.further hp hA hstart hend ha
  . intro ha
    cases ha with
    | parent _ ha' hstart' _ =>
      left
      apply hC.eq_of_mem_range ha' hA (hC.mem_range_start ha')
      rw [hstart', ← hstart]
      exact hC.mem_range_start hA
    | further _ _ _ _ ha' => exact Or.inr ha'

/--
The descriptors of `p` and of its ancestors, and their present blocks.
-/
def lineage (C : Conf) (p : Nat) : Set Nat :=
  { x | ∃ q, C.Live q ∧ C.Below q p ∧ (x = q ∨ C.Has q x) }

theorem lineage_parent_subset {p : Nat} (hp : p ≠ C.root) : C.lineage (C.parent p) ⊆ C.lineage p := by
  rintro x ⟨q, hq, hbelow, hx⟩
  exact ⟨q, hq, Below.child hp hbelow, hx⟩

theorem below_setAccessible (C : Conf) (S : Nat → Prop) (v : Bool) (q p : Nat)
    : (C.setAccessible S v).Below q p ↔ C.Below q p := by
  constructor
  . intro h
    induction h with
    | self => exact Below.self
    | child hne _ ih => exact Below.child hne ih
  . intro h
    induction h with
    | self => exact Below.self
    | child hne _ ih => exact Below.child hne ih

theorem lineage_setAccessible (C : Conf) (S : Nat → Prop) (v : Bool) (p : Nat)
    : (C.setAccessible S v).lineage p = C.lineage p := by
  ext x
  simp only [lineage, Set.mem_ofPred_eq, setAccessible.live, below_setAccessible, setAccessible.has]

end Conf

namespace Sim

variable {s : State} {C : Conf}

theorem run_writeAccessibleRecAux (h : Sim s C) (hC : C.Sep) {fuel p : Nat} (hp : C.Live p)
    (hfuel : C.depth p < fuel) (lo hi : Nat) (v : Bool)
    : Sim (writeAccessibleRecAux fuel p lo hi v s).2 (C.walk p lo hi v)
        ∧ ((writeAccessibleRecAux fuel p lo hi v s).1 = true ↔ C.AllAbove lo hi p) := by
  induction fuel generalizing s C p with
  | zero => omega
  | succ fuel ih =>
    unfold writeAccessibleRecAux
    simp only [LLI.bind_run, getRootPartition, LLI.gets_run, h.root, beqAddr_eq, LLI.ite_run,
      decide_eq_true_eq, LLI.pure_run]
    by_cases hroot : p = C.root
    . rw [if_pos hroot, Conf.walk_of_none]
      . exact ⟨h, by simp [hroot, Conf.AllAbove.root]⟩
      . rintro ⟨A, hne, -⟩
        exact hne hroot
    . have hparent := hC.parent_live p hp hroot
      have hdepth := hC.depth_parent p hp hroot
      rw [if_neg hroot]
      simp only [readPDParent, readPDField, LLI.gets_run, h.parent p hp hroot]
      by_cases hexact : ∃ A, C.Has (C.parent p) A ∧ (C.slot A).startAddr = lo ∧
          (C.slot A).endAddr = hi
      . rcases hexact with ⟨A, hA, hstart, hend⟩
        have hne := hC.owns_ne_zero hA.1
        simp only [h.run_findExactBlock_some hC hA hstart hend, compareAddrToNull_run, hne,
          decide_false, Bool.false_eq_true, if_false]
        have h₁ := h.run_writeAccessible hC.toApart hA v
        rw [Conf.setSlot_accessible] at h₁
        generalize (writeBlockAccessibleFromBlockEntryAddr A v s).2 = s₁ at h₁ ⊢
        have h₂ : Sim (removeBlockFromPhysicalMPUIfNotAccessible (C.parent p) A v s₁).2
            (C.setAccessible (· = A) v) := by
          unfold removeBlockFromPhysicalMPUIfNotAccessible
          cases v with
          | true => exact h₁
          | false => exact h₁.run_removeFromMPU _ _
        generalize (removeBlockFromPhysicalMPUIfNotAccessible (C.parent p) A v s₁).2 = s₂ at h₂ ⊢
        rcases ih h₂ (hC.setAccessible _ v) hparent (by simp only [Conf.setAccessible.depth]; omega)
          with ⟨hsim, hresult⟩
        rw [hC.walk_step v hroot hA hstart hend] at hsim
        refine ⟨hsim, ?_⟩
        rw [hresult, Conf.allAbove_setAccessible]
        constructor
        . exact Conf.AllAbove.parent hroot hA hstart hend
        . intro hall
          cases hall with
          | root => exact absurd rfl hroot
          | parent _ _ _ _ hrest => exact hrest
      . have hnone : ∀ A, C.Has (C.parent p) A → (C.slot A).startAddr = lo →
            (C.slot A).endAddr ≠ hi := fun A hA hstart hend => hexact ⟨A, hA, hstart, hend⟩
        simp only [h.run_findExactBlock_none hC hparent hnone, compareAddrToNull_run, decide_true,
          if_true]
        rw [Conf.walk_of_none]
        . refine ⟨h, ?_⟩
          simp only [Bool.false_eq_true, false_iff]
          intro hall
          cases hall with
          | root => exact hroot rfl
          | parent _ hA hstart hend _ => exact hexact ⟨_, hA, hstart, hend⟩
        . rintro ⟨A, -, hA, hstart, hend⟩
          exact hexact ⟨A, hA, hstart, hend⟩

theorem outside_writeAccessibleRecAux (h : Sim s C) (hC : C.Sep) {fuel p : Nat} (hp : C.Live p)
    (lo hi : Nat) (v : Bool)
    : SameOutside (C.lineage p) s (writeAccessibleRecAux fuel p lo hi v s).2 := by
  induction fuel generalizing s C p with
  | zero => exact SameOutside.refl _ s
  | succ fuel ih =>
    unfold writeAccessibleRecAux
    simp only [LLI.bind_run, getRootPartition, LLI.gets_run, h.root, beqAddr_eq, LLI.ite_run,
      decide_eq_true_eq, LLI.pure_run]
    by_cases hroot : p = C.root
    . rw [if_pos hroot]
      exact SameOutside.refl _ s
    . have hparent := hC.parent_live p hp hroot
      rw [if_neg hroot]
      simp only [readPDParent, readPDField, LLI.gets_run, h.parent p hp hroot]
      by_cases hexact : ∃ A, C.Has (C.parent p) A ∧ (C.slot A).startAddr = lo ∧
          (C.slot A).endAddr = hi
      . rcases hexact with ⟨A, hA, hstart, hend⟩
        have hne := hC.owns_ne_zero hA.1
        have hbelow : C.Below (C.parent p) p := Conf.Below.child hroot Conf.Below.self
        have hAmem : A ∈ C.lineage p := ⟨_, hparent, hbelow, Or.inr hA⟩
        have hpmem : C.parent p ∈ C.lineage p := ⟨_, hparent, hbelow, Or.inl rfl⟩
        simp only [h.run_findExactBlock_some hC hA hstart hend, compareAddrToNull_run, hne,
          decide_false, Bool.false_eq_true, if_false]
        have h₁ := h.run_writeAccessible hC.toApart hA v
        have hs₁ : SameOutside (C.lineage p) s (writeBlockAccessibleFromBlockEntryAddr A v s).2 :=
          SameOutside.of_modifyBlockEntry hAmem (fun entry => { entry with accessible := v }) s
        rw [Conf.setSlot_accessible] at h₁
        generalize (writeBlockAccessibleFromBlockEntryAddr A v s).2 = s₁ at h₁ hs₁ ⊢
        have h₂ : Sim (removeBlockFromPhysicalMPUIfNotAccessible (C.parent p) A v s₁).2
              (C.setAccessible (· = A) v) ∧
            SameOutside (C.lineage p) s₁
              (removeBlockFromPhysicalMPUIfNotAccessible (C.parent p) A v s₁).2 := by
          unfold removeBlockFromPhysicalMPUIfNotAccessible
          cases v with
          | true => exact ⟨h₁, SameOutside.refl _ _⟩
          | false =>
            simp only [Bool.not_false, if_true]
            exact ⟨h₁.run_removeFromMPU _ _, SameOutside.of_removeFromMPU hpmem A s₁⟩
        generalize (removeBlockFromPhysicalMPUIfNotAccessible (C.parent p) A v s₁).2 = s₂ at h₂ ⊢
        have hrest := ih h₂.1 (hC.setAccessible _ v) hparent
        rw [Conf.lineage_setAccessible] at hrest
        exact (hs₁.trans h₂.2).trans (hrest.mono (Conf.lineage_parent_subset hroot))
      . have hnone : ∀ A, C.Has (C.parent p) A → (C.slot A).startAddr = lo →
            (C.slot A).endAddr ≠ hi := fun A hA hstart hend => hexact ⟨A, hA, hstart, hend⟩
        simp only [h.run_findExactBlock_none hC hparent hnone, compareAddrToNull_run, decide_true,
          if_true]
        exact SameOutside.refl _ s

theorem run_writeAccessibleRec (h : Sim s C) (hC : C.Sep) {p : Nat} (hp : C.Live p) (lo hi : Nat)
    (v : Bool)
    : Sim (writeAccessibleRec p lo hi v s).2 (C.walk p lo hi v)
        ∧ ((writeAccessibleRec p lo hi v s).1 = true ↔ C.AllAbove lo hi p) := by
  apply h.run_writeAccessibleRecAux hC hp
  have := hC.depth_le p hp
  unfold fuelN
  omega

theorem outside_writeAccessibleIfNotCut (h : Sim s C) (hC : C.Sep) {p q b : Nat} (hp : C.Live p)
    (hb : C.Has q b) (v : Bool)
    : SameOutside (C.lineage p) s (writeAccessibleToAncestorsIfNotCutRec p b v s).2 := by
  unfold writeAccessibleToAncestorsIfNotCutRec
  simp only [LLI.bind_run, h.run_readOrigin hb.1, h.run_readStart hb.1, h.run_readNext hb.1,
    h.run_readEnd hb, beqAddr_eq, LLI.ite_run, LLI.pure_run]
  have hwalk : SameOutside (C.lineage p) s
      (writeAccessibleRec p (C.slot b).startAddr (C.slot b).endAddr v s).2 :=
    h.outside_writeAccessibleRecAux hC hp _ _ v
  split
  . split
    . exact hwalk
    . exact hwalk
  . exact SameOutside.refl _ s

theorem run_writeAccessibleIfNotCut (h : Sim s C) (hC : C.Sep) {p q b : Nat} (hp : C.Live p)
    (hb : C.Has q b) (v : Bool)
    : Sim (writeAccessibleToAncestorsIfNotCutRec p b v s).2 (C.walkFrom p b v) := by
  unfold writeAccessibleToAncestorsIfNotCutRec
  simp only [LLI.bind_run, h.run_readOrigin hb.1, h.run_readStart hb.1, h.run_readNext hb.1,
    h.run_readEnd hb, beqAddr_eq, LLI.ite_run, Bool.and_eq_true, decide_eq_true_eq, nullAddr]
  by_cases huncut : (C.slot b).Uncut
  . have huncut' := huncut
    unfold Slot.Uncut at huncut'
    rw [if_pos huncut', Conf.walkFrom_of_uncut huncut]
    have hwalk := (h.run_writeAccessibleRec hC hp (C.slot b).startAddr (C.slot b).endAddr v).1
    split
    . exact hwalk
    . exact hwalk
  . have hcut := huncut
    unfold Slot.Uncut at hcut
    rw [if_neg hcut, Conf.walkFrom_of_cut huncut]
    exact h

theorem run_checkBlockCut (h : Sim s C) {q b : Nat} (hb : C.Has q b)
    : ∃ v, checkBlockCut b s = (v, s) ∧ (v = false ↔ (C.slot b).Uncut) := by
  unfold checkBlockCut Slot.Uncut
  simp only [LLI.bind_run, h.run_readOrigin hb.1, h.run_readStart hb.1, h.run_readNext hb.1,
    beqAddr_eq, LLI.ite_run, Bool.and_eq_true, decide_eq_true_eq, nullAddr, LLI.pure_run]
  by_cases huncut : (C.slot b).startAddr = (C.slot b).origin ∧ (C.slot b).next = 0
  . exact ⟨false, by simp [huncut], by simp [huncut]⟩
  . exact ⟨true, by simp [huncut], by simp [huncut]⟩

end Sim
