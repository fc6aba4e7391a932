import PipMpu.Props.KernelRuns
import PipMpu.Spec.Bounds

/-!
This module contains the shape of the kernel data in the runs of the whole kernel: the descriptors form a tree that
the blocks and the parent fields agree on, the structures of each partition form a list that ends, and no two
descriptors or structures overlap.
-/

namespace State

/--
The tree of the partitions, as the parents see it by their blocks and the children by their parent fields.
-/
structure TreeShape (s : State) : Prop where
  child_iff : ∀ p c, s.Partition p →
    (s.IsChild p c ↔ s.Partition c ∧ c ≠ s.constantRootPartM ∧ s.parentOf c = p)
  descriptor_unique : ∀ p q a b, s.Partition p → s.Partition q → s.HasBlock p a → s.HasBlock q b →
    (s.slotOf a).PDflag = true → (s.slotOf b).PDflag = true → (s.slotOf a).startAddr = (s.slotOf b).startAddr →
    p = q ∧ a = b
  rooted : ∀ p, s.Partition p → ∃ n, s.parentOf^[n] p = s.constantRootPartM

/--
The structures of a partition are listed once each, as many as its descriptor says and at most the maximum.
-/
def StructuresListed (s : State) (p : Nat) : Prop :=
  ∃ ks, Linked s.nextStructure (s.pdtables.get p).structurePtr ks ∧ ks.Nodup
    ∧ ks.length = (s.pdtables.get p).nbprepare ∧ ks.length ≤ maxNbPrepare

/--
Descriptors and structures lie apart from each other.
-/
structure ObjectsApart (s : State) : Prop where
  descriptors : ∀ p q x, s.Partition p → s.Partition q → x ∈ pdRange p → x ∈ pdRange q → p = q
  structures : ∀ p q k k' x, s.Partition p → s.Partition q → s.HasStructure p k → s.HasStructure q k' →
    x ∈ structureRange k → x ∈ structureRange k' → p = q ∧ k = k'
  mixed : ∀ p q k, s.Partition p → s.Partition q → s.HasStructure q k → Disjoint (pdRange p) (structureRange k)

end State

namespace Conf.Static

variable {C : Conf} {p q k H x : Nat}

/--
The block of a descriptor.
-/
theorem pdRange_subset (hstart : (C.slot H).startAddr = p) (hend : p + 128 ≤ (C.slot H).endAddr)
    : pdRange p ⊆ (C.slot H).range := by
  intro x hx
  rcases hx with ⟨h₁, h₂⟩
  rw [sizeofPDTable_eq] at h₂
  constructor <;> omega

theorem pd_unique (hC : C.Static) (hp : C.Live p) (hq : C.Live q) (hx : x ∈ pdRange p) (hx' : x ∈ pdRange q)
    : p = q := by
  by_contra hne
  have hroot : ∀ {r}, C.Live r → r ≠ C.root → x ∈ pdRange C.root → x ∉ pdRange r := by
    intro r hr hne hxroot hxr
    rcases hC.pd_house r hr hne with ⟨H, hH, -, hstart, hend, -⟩
    exact Set.disjoint_left.mp (hC.root_disjoint_block hH).1 hxroot (pdRange_subset hstart hend hxr)
  by_cases hpr : p = C.root
  . exact hroot hq (fun hqr => hne (hpr.trans hqr.symm)) (hpr ▸ hx) hx'
  . by_cases hqr : q = C.root
    . exact hroot hp hpr (hqr ▸ hx') hx
    . have hapart := hC.pd_apart hp hq hpr hqr hne
      rcases hx with ⟨h₁, h₂⟩
      rcases hx' with ⟨h₃, h₄⟩
      rw [sizeofPDTable_eq] at h₂ h₄
      omega

theorem pd_disjoint_structure (hC : C.Static) (hp : C.Live p) (hq : C.Live q) (hk : k ∈ C.structures q)
    : Disjoint (pdRange p) (structureRange k) := by
  rw [Set.disjoint_left]
  intro x hx hxk
  by_cases hpr : p = C.root
  . rw [hpr] at hx
    rcases hC.structure_house q k hq hk with ⟨-, rfl⟩ | ⟨H, hH⟩
    . exact Set.disjoint_left.mp hC.root_disjoint hx hxk
    . rcases hH.has with ⟨r, hr⟩
      exact Set.disjoint_left.mp (hC.root_disjoint_block hr).1 hx (structureRange_subset hH hxk)
  . rcases hC.pd_house p hp hpr with ⟨D, hD, hflag, hstart, hend, -⟩
    have hx := pdRange_subset hstart hend hx
    rcases hC.structure_house q k hq hk with ⟨-, rfl⟩ | ⟨H, hH⟩
    . exact Set.disjoint_left.mp (hC.root_disjoint_block hD).2 hxk hx
    . rcases hH.has with ⟨r, hr⟩
      have heq := (hC.eq_of_not_lent hD hr (hC.flag_kind _ D hD hflag).2.1 hH.inChild_eq hx
        (structureRange_subset hH hxk)).2
      rw [heq, hH.flag_eq] at hflag
      exact absurd hflag (by simp)

theorem iterate_parent (hC : C.Static) (hp : C.Live p) : ∃ n, C.parent^[n] p = C.root := by
  induction hdepth : C.depth p generalizing p with
  | zero => exact ⟨0, (hC.depth_eq_zero hp).mp hdepth⟩
  | succ n ih =>
    have hne : p ≠ C.root := by
      rintro rfl
      rw [hC.depth_root] at hdepth
      exact absurd hdepth (by simp)
    have hpred := hC.depth_parent p hp hne
    rcases ih (hC.parent_live p hp hne) (by omega) with ⟨m, hm⟩
    exact ⟨m + 1, hm⟩

end Conf.Static

namespace Sim

variable {s : State} {C : Conf}

theorem iterate_parentOf (h : Sim s C) (hC : C.Static) {p n : Nat} (hp : C.Live p) (hn : C.parent^[n] p = C.root)
    : ∃ m, s.parentOf^[m] p = s.constantRootPartM := by
  rw [h.root]
  induction n generalizing p with
  | zero => exact ⟨0, hn⟩
  | succ n ih =>
    by_cases hroot : p = C.root
    . exact ⟨0, hroot⟩
    . rcases ih (hC.parent_live p hp hroot) hn with ⟨m, hm⟩
      refine ⟨m + 1, ?_⟩
      rw [Function.iterate_succ_apply, State.parentOf, h.parent p hp hroot]
      exact hm

theorem treeShape (h : Sim s C) (hC : C.Static) : s.TreeShape := by
  constructor
  case child_iff =>
    intro p c hp
    have hp := h.live_of_partition hC hp
    rw [h.isChild_iff hC hp, h.partition_iff hC, h.root]
    constructor
    . rintro ⟨hc, hroot, hparent⟩
      exact ⟨hc, hroot, (h.parent c hc hroot).trans hparent⟩
    . rintro ⟨hc, hroot, hparent⟩
      exact ⟨hc, hroot, (h.parent c hc hroot).symm.trans hparent⟩
  case descriptor_unique =>
    intro p q a b hp hq ha hb hflag hflag' hstart
    have ha := (h.hasBlock hC hp).mp ha
    have hb := (h.hasBlock hC hq).mp hb
    rw [h.slotOf_eq ha.1] at hflag hstart
    rw [h.slotOf_eq hb.1] at hflag' hstart
    have hx := hC.mem_range_start ha
    rw [hstart] at hx
    exact hC.eq_of_not_lent ha hb (hC.flag_kind p a ha hflag).2.1 (hC.flag_kind q b hb hflag').2.1 hx
      (hC.mem_range_start hb)
  case rooted =>
    intro p hp
    have hp := h.live_of_partition hC hp
    rcases hC.iterate_parent hp with ⟨n, hn⟩
    exact h.iterate_parentOf hC hp hn

theorem structuresListed (h : Sim s C) (hC : C.Static) {p : Nat} (hp : C.Live p) : s.StructuresListed p :=
  ⟨C.structures p, h.structures p hp, hC.structures_nodup p hp, (h.nbprepare p hp).symm, hC.structures_length p hp⟩

theorem objectsApart (h : Sim s C) (hC : C.Static) : s.ObjectsApart := by
  constructor
  case descriptors =>
    intro p q x hp hq
    exact hC.pd_unique (h.live_of_partition hC hp) (h.live_of_partition hC hq)
  case structures =>
    intro p q k k' x hp hq hk hk'
    have hp := h.live_of_partition hC hp
    have hq := h.live_of_partition hC hq
    exact hC.structures_disjoint hp hq ((h.hasStructure_iff hp).mp hk) ((h.hasStructure_iff hq).mp hk')
  case mixed =>
    intro p q k hp hq hk
    have hq := h.live_of_partition hC hq
    exact hC.pd_disjoint_structure (h.live_of_partition hC hp) hq ((h.hasStructure_iff hq).mp hk)

end Sim

/--
In every run of the whole kernel the descriptors form a tree and the structures lists, and they lie apart.
-/
theorem tree_of_kernelRun {m : Machine} (h : (Machine.system.restrict Machine.Orderly).Reachable m)
    : m.state.TreeShape ∧ (∀ p, m.state.Partition p → m.state.StructuresListed p) ∧ m.state.ObjectsApart := by
  rcases Machine.exists_layout h with ⟨layout, h⟩
  rcases Machine.view_of_reachable Machine.kept_settled h with ⟨C, hsim, hC, -⟩
  have hS := hC.static
  exact ⟨hsim.treeShape hS, fun p hp => hsim.structuresListed hS (hsim.live_of_partition hS hp), hsim.objectsApart hS⟩

theorem tree_childRunning
    : childRunning.state.TreeShape
        ∧ (∀ p, childRunning.state.Partition p → childRunning.state.StructuresListed p)
        ∧ childRunning.state.ObjectsApart :=
  tree_of_kernelRun (Machine.reachable_of_layout (.step beforeYield_orderly ⟨yieldToChild_orderly, yieldToChild_next⟩))
