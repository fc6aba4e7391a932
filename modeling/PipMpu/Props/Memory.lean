import PipMpu.Props.AllServices
import PipMpu.Spec.Cover

/-!
This module contains the account of the memory in all runs of the services: the partitions share exactly the memory
that the boot gave to the root. Each address ends with one partition, and it is in the blocks of this partition and of
the partitions above it.
-/

namespace Layout

/--
The addresses of the blocks of the root at the boot.
-/
def memory (layout : Layout) : Set Nat :=
  Set.Ico mpuRegion0Start (mpuRegion0End - 1) ∪ Set.Ico mpuRegion1Start (mpuRegion1End - 1)
    ∪ Set.Ico layout.unusedRomStart (romEnd - 1)

theorem rootConf_cover (layout : Layout) : layout.rootConf.cover layout.rootConf.root = layout.memory := by
  have hhas : ∀ i < 3, layout.rootConf.Has layout.rootConf.root (slotAddr layout.rootKernStruct i) := by
    intro i hi
    refine ⟨layout.rootConf_owns.mpr ⟨rfl, slotAddr_mem (by omega)⟩, ?_⟩
    have hcases : i = 0 ∨ i = 1 ∨ i = 2 := by omega
    rcases hcases with rfl | rfl | rfl <;> simp [rootConf, slotAddr_eq, regionSlot, Slot.filled]
  ext x
  constructor
  . rintro ⟨a, ha, hx⟩
    rcases layout.rootConf_has ha with ⟨hslot, -⟩ | ⟨hslot, -⟩ | ⟨hslot, -⟩ <;> rw [hslot] at hx
    . exact .inl (.inl hx)
    . exact .inl (.inr hx)
    . exact .inr hx
  . rintro ((hx | hx) | hx)
    . refine ⟨_, hhas 0 (by decide), ?_⟩
      simpa [rootConf, slotAddr_eq, regionSlot, Slot.filled, Slot.range] using hx
    . refine ⟨_, hhas 1 (by decide), ?_⟩
      simpa [rootConf, slotAddr_eq, regionSlot, Slot.filled, Slot.range] using hx
    . refine ⟨_, hhas 2 (by decide), ?_⟩
      simpa [rootConf, slotAddr_eq, regionSlot, Slot.filled, Slot.range] using hx

end Layout

namespace State

/--
The address lies in a block of `p`.
-/
def Holds (s : State) (p x : Nat) : Prop := ∃ a, s.HasBlock p a ∧ x ∈ (s.slotOf a).range

/--
The address lies in the block `a` of `p`, which `p` shares with no child.
-/
structure EndsWith (s : State) (x p a : Nat) : Prop where
  partition : s.Partition p
  has : s.HasBlock p a
  mem : x ∈ (s.slotOf a).range
  kept : (s.slotOf a).inChildLocation = nullAddr

/--
The partitions share the addresses of `M` and no others, and each one ends with exactly one block.
-/
structure Divides (s : State) (M : Set Nat) : Prop where
  within : ∀ p x, s.Partition p → s.Holds p x → x ∈ M
  ends : ∀ x ∈ M, ∃ p a, s.EndsWith x p a ∧ ∀ q b, s.EndsWith x q b → q = p ∧ b = a

/--
The partitions that hold the address are `p` and the ones above it. Those above `p` have lent it to the next one on
the way down to `p`, in a block around the block `a`.
-/
structure HeldAlong (s : State) (x p a : Nat) : Prop where
  holds_iff : ∀ q, s.Partition q → (s.Holds q x ↔ Relation.ReflTransGen s.IsChild q p)
  around : ∀ q B, s.Partition q → s.HasBlock q B → x ∈ (s.slotOf B).range →
    (s.slotOf a).range ⊆ (s.slotOf B).range ∧ (q ≠ p → (s.slotOf B).inChildLocation ≠ nullAddr
      ∧ s.IsChild q (s.slotOf B).PDchild ∧ s.Holds (s.slotOf B).PDchild x)

end State

namespace Sim

variable {s : State} {C : Conf}

theorem holds_iff (h : Sim s C) {p x : Nat} (hp : C.Live p) : s.Holds p x ↔ x ∈ C.cover p := by
  apply exists_congr
  intro a
  rw [h.hasBlock_iff hp, and_congr_right_iff]
  intro ha
  rw [h.slotOf_eq ha.1]

theorem endsWith_iff (h : Sim s C) (hC : C.Static) {p a x : Nat}
    : s.EndsWith x p a ↔ C.Has p a ∧ x ∈ (C.slot a).range ∧ (C.slot a).inChildLocation = 0 := by
  constructor
  . rintro ⟨hp, ha, hx, hkept⟩
    have ha := (h.hasBlock_iff (h.live_of_partition hC hp)).mp ha
    rw [h.slotOf_eq ha.1] at hx hkept
    exact ⟨ha, hx, hkept⟩
  . rintro ⟨ha, hx, hkept⟩
    have hslot := h.slotOf_eq ha.1
    exact ⟨(h.partition_iff hC).mpr ha.live, (h.hasBlock_iff ha.live).mpr ha, hslot.symm ▸ hx, hslot.symm ▸ hkept⟩

theorem divides (h : Sim s C) (hC : C.Static) : s.Divides (C.cover C.root) := by
  constructor
  . intro p x hp hx
    rcases (h.holds_iff (h.live_of_partition hC hp)).mp hx with ⟨a, ha, hx⟩
    exact hC.cover_subset_root ha hx
  . rintro x ⟨a, ha, hx⟩
    rcases hC.exists_end ha hx with ⟨q, b, hb, hkept, hxb⟩
    refine ⟨q, b, (h.endsWith_iff hC).mpr ⟨hb, hxb, hkept⟩, ?_⟩
    intro q' b' hends
    rcases (h.endsWith_iff hC).mp hends with ⟨hb', hxb', hkept'⟩
    exact hC.eq_of_not_lent hb' hb hkept' hkept hxb' hxb

theorem path_iff (h : Sim s C) (hC : C.Static) {p q : Nat} (hp : C.Live p) (hq : C.Live q)
    : Relation.ReflTransGen s.IsChild q p ↔ Relation.ReflTransGen hC.nest.Child q p := by
  constructor
  . intro hpath
    suffices hlive : Relation.ReflTransGen hC.nest.Child q p ∧ C.Live p from hlive.1
    clear hp
    induction hpath with
    | refl => exact ⟨.refl, hq⟩
    | tail _ hchild ih =>
      rcases (h.isChild_iff hC ih.2).mp hchild with ⟨hlive, hroot, hparent⟩
      exact ⟨ih.1.tail ⟨hroot, hparent⟩, hlive⟩
  . intro hpath
    induction hpath with
    | refl => exact .refl
    | tail _ hchild ih =>
      rcases hchild with ⟨hroot, rfl⟩
      have hparent := hC.parent_live _ hp hroot
      exact (ih hparent).tail ((h.isChild_iff hC hparent).mpr ⟨hp, hroot, rfl⟩)

theorem heldAlong (h : Sim s C) (hC : C.Static) {x p a : Nat} (hends : s.EndsWith x p a) : s.HeldAlong x p a := by
  rcases (h.endsWith_iff hC).mp hends with ⟨ha, hx, hkept⟩
  have hna : ∀ r, ¬C.Lent a r := fun r hlent => hlent.2 hkept
  constructor
  . intro q hq
    have hq := h.live_of_partition hC hq
    rw [h.holds_iff hq, h.path_iff hC ha.live hq]
    exact hC.nest.holder_iff_path ha hna hx
  . intro q B hq hB hxB
    have hq := h.live_of_partition hC hq
    have hB := (h.hasBlock_iff hq).mp hB
    rw [h.slotOf_eq hB.1] at hxB ⊢
    rw [h.slotOf_eq ha.1]
    rcases hC.nest.overlap ha hB hx hxB with ⟨rfl, rfl⟩ | ⟨-, hsub, r, hlent⟩ | ⟨-, -, r, hlent⟩
    . exact ⟨fun _ hx => hx, fun hne => absurd rfl hne⟩
    . refine ⟨hsub, fun _ => ?_⟩
      have hchild := hC.child_kind q B hB (hC.location_kind q B hB hlent.2).1
      refine ⟨hlent.2, (h.isChild_iff hC hq).mpr ⟨hchild.1, hchild.2.2.1, hchild.2.1⟩, ?_⟩
      rw [h.holds_iff hchild.1]
      exact hC.exists_in_child hB hlent.2 hxB
    . exact absurd hlent (hna r)

end Sim

namespace ServiceCall

/--
The runs from the boot with this layout.
-/
def systemFrom (layout : Layout) : System State (Nat × ServiceCall) where
  init s := ∃ s₀, s = (layout.boot s₀).2
  step := system.step

/--
The root stays what it was at the boot, and so do the addresses that its blocks cover.
-/
structure ViewFrom (layout : Layout) (C : Conf) : Prop where
  inv : C.Inv
  root : C.root = layout.rootPartDesc
  cover : C.cover C.root = layout.memory

theorem ViewFrom.step {layout : Layout} {C C' : Conf} (hC : ViewFrom layout C) (hstep : C.Step C')
    : ViewFrom layout C' := by
  rcases hC.inv.static.cover_root_step hstep with ⟨hroot, hcover⟩
  refine ⟨hC.inv.step hstep, hroot.trans hC.root, ?_⟩
  rw [hroot, hcover]
  exact hC.cover

theorem viewFrom_of_orderly {layout : Layout} {s : State}
    (h : ((systemFrom layout).restrict State.Orderly).Reachable s) : ∃ C : Conf, Sim s C ∧ ViewFrom layout C := by
  have hsim : System.Simulation ((systemFrom layout).restrict State.Orderly) (· = layout.rootConf) Conf.Step
      (ViewFrom layout) Sim := by
    constructor
    . rintro s ⟨s₀, rfl⟩
      exact ⟨_, rfl, (layout.run_boot s₀).2⟩
    . exact fun s event s' C hs hC hstep => simulation_orderly.step s event s' C hs hC.inv hstep
  refine System.Reachable.simulated ?_ (fun _ _ hC hstep => hC.step hstep) hsim h
  rintro C rfl
  exact ⟨layout.rootConf_onlyRoot.inv, rfl, layout.rootConf_cover⟩

theorem exists_layout {ok : State → Nat × ServiceCall → Prop} {s : State} (h : (system.restrict ok).Reachable s)
    : ∃ layout, ((systemFrom layout).restrict ok).Reachable s := by
  induction h with
  | init hs =>
    rcases hs with ⟨layout, hs⟩
    exact ⟨layout, .init hs⟩
  | step _ hstep ih =>
    rcases ih with ⟨layout, ih⟩
    exact ⟨layout, .step ih hstep⟩

end ServiceCall

/--
In every such run the partitions share the memory of the boot, each address ends with one of them.
-/
theorem divides_of_reachable {layout : Layout} {s : State}
    (h : ((ServiceCall.systemFrom layout).restrict State.Orderly).Reachable s) : s.Divides layout.memory := by
  rcases ServiceCall.viewFrom_of_orderly h with ⟨C, hsim, hC⟩
  rw [← hC.cover]
  exact hsim.divides hC.inv.static

theorem divides_threeLevels : ∃ layout : Layout, threeLevels.Divides layout.memory := by
  rcases ServiceCall.exists_layout threeLevels_orderly with ⟨layout, h⟩
  exact ⟨layout, divides_of_reachable h⟩

/--
In every such run an address is held by the partition it ends with and by those above it, and by no others.
-/
theorem heldAlong_of_reachable {s : State} (h : (ServiceCall.system.restrict State.Orderly).Reachable s) {x p a : Nat}
    (hends : s.EndsWith x p a) : s.HeldAlong x p a := by
  rcases ServiceCall.view_of_orderly h with ⟨C, hsim, hC⟩
  exact hsim.heldAlong hC.static hends

/--
The grandchild keeps the address 0x2000D000 for itself.
-/
theorem endsWith_threeLevels : threeLevels.EndsWith 0x2000D000 0x2000A000 0x2000B000 := by
  have hpath : threeLevels.follow threeLevels.constantRootPartM [0x2000F111, 0x20009000] = some 0x2000A000 := by
    decide +kernel
  constructor
  . exact State.partition_of_follow .root hpath
  . apply State.hasBlock_of_first <;> decide +kernel
  . have hbounds : (threeLevels.slotOf 0x2000B000).startAddr ≤ 0x2000D000
        ∧ 0x2000D000 < (threeLevels.slotOf 0x2000B000).endAddr := by
      decide +kernel
    exact hbounds
  . decide +kernel

theorem heldAlong_threeLevels : threeLevels.HeldAlong 0x2000D000 0x2000A000 0x2000B000 :=
  heldAlong_of_reachable threeLevels_orderly endsWith_threeLevels
