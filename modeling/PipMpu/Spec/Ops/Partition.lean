import PipMpu.Spec.Walk

/-!
This module contains the abstract creation of a partition and the removal of a partition together
with everything below it.
-/

namespace Conf

variable {C : Conf}

/--
Make the block `b` of `p` the descriptor of a new partition.
-/
def addPartition (C : Conf) (p b : Nat) : Conf :=
  { C with
    Live := fun q => q = (C.slot b).startAddr ∨ C.Live q
    parent := fun q => if q = (C.slot b).startAddr then p else C.parent q
    depth := fun q => if q = (C.slot b).startAddr then C.depth p + 1 else C.depth q
    structures := fun q => if q = (C.slot b).startAddr then [] else C.structures q
    free := fun q => if q = (C.slot b).startAddr then [] else C.free q
    slot := fun a => if a = b then { C.slot b with PDflag := true } else C.slot a }

structure CanAddPartition (C : Conf) (p b : Nat) : Prop where
  has : C.Has p b
  accessible_eq : (C.slot b).accessible = false
  PDchild_eq : (C.slot b).PDchild = 0
  flag_eq : (C.slot b).PDflag = false
  notMem : (C.slot b).startAddr ∉ C.structures p
  size_le : (C.slot b).startAddr + 128 ≤ (C.slot b).endAddr
  ram_le : ramStart ≤ (C.slot b).startAddr
  le_ram : (C.slot b).endAddr ≤ ramEnd
  not_live : ¬C.Live (C.slot b).startAddr

namespace CanAddPartition

variable {p b : Nat}

theorem inChild_eq (hC : C.Static) (h : C.CanAddPartition p b)
    : (C.slot b).inChildLocation = 0 := by
  by_contra hne
  exact (hC.location_kind p b h.has hne).1 h.PDchild_eq

theorem slot_self : (C.addPartition p b).slot b = { C.slot b with PDflag := true } := by
  simp [addPartition]

theorem slot_other {a : Nat} (h : a ≠ b) : (C.addPartition p b).slot a = C.slot a := by
  simp [addPartition, h]

theorem tree_other {q : Nat} (hq : q ≠ (C.slot b).startAddr)
    : ((C.addPartition p b).Live q ↔ C.Live q)
        ∧ (C.addPartition p b).parent q = C.parent q
        ∧ (C.addPartition p b).depth q = C.depth q
        ∧ (C.addPartition p b).structures q = C.structures q
        ∧ (C.addPartition p b).free q = C.free q := by
  simp [addPartition, hq]

theorem owns_iff (h : C.CanAddPartition p b) (q a : Nat)
    : (C.addPartition p b).Owns q a ↔ C.Owns q a := by
  unfold Owns
  by_cases hq : q = (C.slot b).startAddr
  . have hlive : ¬C.Live q := hq ▸ h.not_live
    have hstr : (C.addPartition p b).structures q = [] := by simp [addPartition, hq]
    simp [hlive, hstr]
  . rcases tree_other (C := C) (p := p) hq with ⟨hlive, -, -, hstr, -⟩
    rw [hlive, hstr]

theorem has_iff (h : C.CanAddPartition p b) (q a : Nat)
    : (C.addPartition p b).Has q a ↔ C.Has q a := by
  unfold Has
  rw [h.owns_iff]
  by_cases hab : a = b
  . rw [hab, slot_self]
  . rw [slot_other hab]

end CanAddPartition

theorem Static.addPartition (hC : C.Static) {p b : Nat} (h : C.CanAddPartition p b)
    : (C.addPartition p b).Static := by
  have howns := h.owns_iff
  have hhas := h.has_iff
  have hloc := h.inChild_eq hC
  have hself : (C.addPartition p b).slot b = { C.slot b with PDflag := true } :=
    CanAddPartition.slot_self
  have hother : ∀ a, a ≠ b → (C.addPartition p b).slot a = C.slot a := by
    intro a
    exact CanAddPartition.slot_other
  have htree := @CanAddPartition.tree_other C p b
  rcases h with ⟨hb, hacc, hpd, hflag, hmem, hsize, hram, hram', hlive⟩
  have hne : ∀ q, C.Live q → q ≠ (C.slot b).startAddr := by
    intro q hq heq
    exact hlive (heq ▸ hq)
  have hroot : (C.addPartition p b).root = C.root := rfl
  have hrootne := hne _ hC.root_live
  have hp := hne p hb.live
  have hstart : ∀ a, ((C.addPartition p b).slot a).startAddr = (C.slot a).startAddr ∧
      ((C.addPartition p b).slot a).endAddr = (C.slot a).endAddr ∧
      ((C.addPartition p b).slot a).origin = (C.slot a).origin ∧
      ((C.addPartition p b).slot a).next = (C.slot a).next := by
    intro a
    by_cases hab : a = b
    . rw [hab, hself]
      exact ⟨rfl, rfl, rfl, rfl⟩
    . rw [hother a hab]
      exact ⟨rfl, rfl, rfl, rfl⟩
  constructor
  case cur_live => exact Or.inr hC.cur_live
  case root_live => exact Or.inr hC.root_live
  case root_ne => exact hC.root_ne
  case rootStructure_ne => exact hC.rootStructure_ne
  case rootStructure_mem =>
    rw [hroot, (htree hrootne).2.2.2.1]
    exact hC.rootStructure_mem
  case root_disjoint => exact hC.root_disjoint
  case root_pd =>
    intro a ha
    unfold Slot.range
    rw [(hstart a).1, (hstart a).2.1]
    exact hC.root_pd a ((hhas _ _).mp ha)
  case root_structure =>
    intro a ha
    unfold Slot.range
    rw [(hstart a).1, (hstart a).2.1]
    exact hC.root_structure a ((hhas _ _).mp ha)
  case depth_root =>
    rw [hroot, (htree hrootne).2.2.1]
    exact hC.depth_root
  case parent_live =>
    intro q hq hqroot
    by_cases hqc : q = (C.slot b).startAddr
    . right
      simp only [Conf.addPartition, hqc, if_true]
      exact hb.live
    . rw [(htree hqc).2.1]
      right
      exact hC.parent_live q ((htree hqc).1.mp hq) hqroot
  case depth_parent =>
    intro q hq hqroot
    by_cases hqc : q = (C.slot b).startAddr
    . simp [Conf.addPartition, hqc, hp]
    . have hq := (htree hqc).1.mp hq
      have hparent := hne _ (hC.parent_live q hq hqroot)
      rw [(htree hqc).2.1, (htree hqc).2.2.1, (htree hparent).2.2.1]
      exact hC.depth_parent q hq hqroot
  case pd_house =>
    intro q hq hqroot
    by_cases hqc : q = (C.slot b).startAddr
    . refine ⟨b, ?_, ?_, ?_, ?_, ?_, ?_⟩
      . rw [hhas]
        simp only [Conf.addPartition, hqc, if_true]
        exact hb
      . rw [hself]
      . rw [(hstart b).1, hqc]
      . rw [(hstart b).2.1, hqc]
        exact hsize
      . rw [hqc]
        exact hram
      . rw [(hstart b).2.1]
        exact hram'
    . have hq := (htree hqc).1.mp hq
      rcases hC.pd_house q hq hqroot with ⟨H, hH, hHflag, hrest⟩
      refine ⟨H, ?_, ?_⟩
      . rw [hhas, (htree hqc).2.1]
        exact hH
      . rw [hother H (by grind)]
        exact ⟨hHflag, hrest⟩
  case flag_kind =>
    intro q a ha haflag
    have ha := (hhas q a).mp ha
    by_cases hab : a = b
    . have hqp := hC.has_unique ha (hab ▸ hb)
      rw [hab, hself]
      refine ⟨hpd, hloc, Or.inl rfl, ?_, Ne.symm hrootne⟩
      simp [Conf.addPartition, hqp]
    . rw [hother a hab] at haflag ⊢
      rcases hC.flag_kind q a ha haflag with ⟨h₁, h₂, h₃, h₄, h₅⟩
      refine ⟨h₁, h₂, Or.inr h₃, ?_, h₅⟩
      rw [(htree (hne _ h₃)).2.1]
      exact h₄
  case structure_house =>
    intro q k hq hk
    by_cases hqc : q = (C.slot b).startAddr
    . simp [Conf.addPartition, hqc] at hk
    . have hq := (htree hqc).1.mp hq
      rw [(htree hqc).2.2.2.1] at hk
      rcases hC.structure_house q k hq hk with h | ⟨H, hH⟩
      . exact Or.inl h
      . right
        have hHb : H ≠ b := by
          intro heq
          have h₁ := hH.holder
          have h₂ := hH.start_eq
          have h₃ := hC.live_ne_zero hq
          have hunique : C.Has q b → q = p := fun h => hC.has_unique h hb
          grind
        exact ⟨H, hH.transfer rfl (htree hqc).2.1 (hother H hHb) (hhas _ H).mpr
          fun _ => (hhas _ H).mpr⟩
  case structures_nodup =>
    intro q hq
    by_cases hqc : q = (C.slot b).startAddr
    . simp [Conf.addPartition, hqc]
    . rw [(htree hqc).2.2.2.1]
      exact hC.structures_nodup q ((htree hqc).1.mp hq)
  case structures_length =>
    intro q hq
    by_cases hqc : q = (C.slot b).startAddr
    . simp [Conf.addPartition, hqc]
    . rw [(htree hqc).2.2.2.1]
      exact hC.structures_length q ((htree hqc).1.mp hq)
  case child_kind =>
    intro q a ha hapd
    have ha := (hhas q a).mp ha
    by_cases hab : a = b
    . rw [hab, hself] at hapd
      exact absurd hpd hapd
    . rw [hother a hab] at hapd ⊢
      rcases hC.child_kind q a ha hapd with ⟨h₁, h₂, h₃, h₄⟩
      rw [(htree (hne _ h₁)).1, (htree (hne _ h₁)).2.1, (htree (hne _ h₁)).2.2.2.1]
      exact ⟨h₁, h₂, h₃, h₄⟩
  case location_kind =>
    intro q a ha haloc
    have ha := (hhas q a).mp ha
    have := hC.location_kind q a ha
    grind
  case host =>
    intro q a hq ha
    have ha := (hhas q a).mp ha
    rcases hC.host q a hq ha with ⟨B, hB⟩
    have hBb : B ≠ b := by
      intro h
      rw [h] at hB
      exact hB.lent.2 hloc
    have hqc := hne q ha.live
    refine ⟨B, hB.transfer (htree hqc).2.1 ((hhas _ _).mpr hB.has) (hother B hBb) (hstart a).2.2.1
      ?_ ?_ ?_ ?_ ?_⟩
    . rw [(hstart a).2.1]
      exact hB.end_le
    . rw [(hstart a).2.1, (hstart a).2.2.2]
      exact hB.end_eq
    all_goals
      by_cases hab : a = b
      . rw [hab, hself]
      . rw [hother a hab]
  case next_kind =>
    intro q a ha hanext
    have ha := (hhas q a).mp ha
    rw [(hstart a).2.2.2] at hanext ⊢
    rw [hhas, (hstart _).1, (hstart a).2.1, (hstart _).2.2.1, (hstart a).2.2.1]
    exact hC.next_kind q a ha hanext
  case pred_kind =>
    intro q a ha hastart
    have ha := (hhas q a).mp ha
    rw [(hstart a).1, (hstart a).2.2.1] at hastart
    rcases hC.pred_kind q a ha hastart with ⟨a', ha', hnext⟩
    refine ⟨a', (hhas _ _).mpr ha', ?_⟩
    rw [(hstart a').2.2.2]
    exact hnext
  case origin_le =>
    intro q a ha
    rw [(hstart a).1, (hstart a).2.2.1]
    exact hC.origin_le q a ((hhas q a).mp ha)
  case start_lt =>
    intro q a ha
    rw [(hstart a).1, (hstart a).2.1]
    exact hC.start_lt q a ((hhas q a).mp ha)
  case end_lt =>
    intro q a ha
    rw [(hstart a).2.1]
    exact hC.end_lt q a ((hhas q a).mp ha)
  case disjoint =>
    intro q a a' ha ha' haa'
    rw [(hstart a).1, (hstart a).2.1, (hstart a').1, (hstart a').2.1]
    exact hC.disjoint q a a' ((hhas q a).mp ha) ((hhas q a').mp ha') haa'
  case free_nodup =>
    intro q hq
    by_cases hqc : q = (C.slot b).startAddr
    . simp [Conf.addPartition, hqc]
    . rw [(htree hqc).2.2.2.2]
      exact hC.free_nodup q ((htree hqc).1.mp hq)
  case mem_free =>
    intro q a hq
    rw [howns]
    by_cases hqc : q = (C.slot b).startAddr
    . have hnot : ¬C.Owns q a := fun h => hne q h.1 hqc
      simp [Conf.addPartition, hqc, hqc ▸ hnot]
    . rw [(htree hqc).2.2.2.2, hC.mem_free q a ((htree hqc).1.mp hq)]
      by_cases hab : a = b
      . rw [hab, hself]
      . rw [hother a hab]
  case free_empty =>
    intro q a ha hpresent
    have ha := (howns q a).mp ha
    have hab : a ≠ b := by
      intro heq
      rw [heq, hself] at hpresent
      exact absurd (hpresent.symm.trans hb.2) (by simp)
    rw [hother a hab] at hpresent ⊢
    exact hC.free_empty q a ha hpresent

theorem Inv.addPartition (hC : C.Inv) {p b : Nat} (h : C.CanAddPartition p b)
    : (C.addPartition p b).Inv := by
  have hS := hC.static
  have hhas := h.has_iff
  have hself : (C.addPartition p b).slot b = { C.slot b with PDflag := true } :=
    CanAddPartition.slot_self
  have hother : ∀ a, a ≠ b → (C.addPartition p b).slot a = C.slot a := by
    intro a
    exact CanAddPartition.slot_other
  have hne : ∀ q, C.Live q → q ≠ (C.slot b).startAddr := by
    intro q hq heq
    exact h.not_live (heq ▸ hq)
  refine ⟨hS.addPartition h, ⟨?_, ?_, ?_⟩, ?_⟩
  . intro q a ha hflag
    have := hC.closed.flag q a
    have := h.accessible_eq
    grind
  . intro q a ha hpd hloc
    have := hC.closed.given q a
    have := h.PDchild_eq
    grind
  . intro q a ha hk
    have ha := (hhas q a).mp ha
    rw [(CanAddPartition.tree_other (hne q ha.live)).2.2.2.1] at hk
    have := hC.closed.own q a ha
    grind
  . intro q a hq ha B hB
    have ha := (hhas q a).mp ha
    have hBhas := (hhas _ _).mp hB.has
    rw [(CanAddPartition.tree_other (hne q ha.live)).2.1] at hBhas
    have hBb : B ≠ b := by
      intro heq
      have := hB.lent.2
      rw [heq, hself] at this
      exact this (h.inChild_eq hS)
    have hfields : ((C.addPartition p b).slot a).accessible = (C.slot a).accessible ∧
        (((C.addPartition p b).slot a).Uncut ↔ (C.slot a).Uncut) ∧
        ((C.addPartition p b).slot a).origin = (C.slot a).origin := by
      by_cases hab : a = b
      . rw [hab, hself]
        exact ⟨rfl, Iff.rfl, rfl⟩
      . rw [hother a hab]
        exact ⟨rfl, Iff.rfl, rfl⟩
    rw [hfields.1, hfields.2.1, hother B hBb]
    apply hC.coherent q a hq ha B
    apply hS.hosts_of_origin hq ha hBhas
    have hstart := hB.start_eq
    rw [hother B hBb, hfields.2.2] at hstart
    exact hstart

/-
Removal of a partition
-/

/--
The partitions from `c` on downwards.
-/
inductive Below (C : Conf) (c : Nat) : Nat → Prop where
  | self : Below C c c
  | child {q : Nat} : q ≠ C.root → Below C c (C.parent q) → Below C c q

open scoped Classical in
/--
Remove the partition `c` and all partitions below it, the blocks given to `c` are given to nobody.
-/
noncomputable def dropPartition (C : Conf) (c : Nat) : Conf :=
  { C with
    Live := fun q => C.Live q ∧ ¬C.Below c q
    slot := fun a =>
      if (C.slot a).PDchild = c ∨ ((C.slot a).PDflag = true ∧ (C.slot a).startAddr = c) then
        (C.slot a).clearSh1
      else
        C.slot a }

theorem Below.depth_le (hC : C.Static) {c q : Nat} (h : C.Below c q) (hq : C.Live q)
    : C.depth c ≤ C.depth q := by
  induction h with
  | self => exact Nat.le_refl _
  | child hne _ ih =>
    have := hC.depth_parent _ hq hne
    have := ih (hC.parent_live _ hq hne)
    omega

theorem Below.trans {p q r : Nat} (h : C.Below p q) (h' : C.Below q r) : C.Below p r := by
  induction h' with
  | self => exact h
  | child hne _ ih => exact .child hne ih

structure CanDrop (C : Conf) (c : Nat) : Prop where
  live : C.Live c
  ne_root : c ≠ C.root
  cur_eq : C.cur = C.parent c

namespace CanDrop

variable {c : Nat}

theorem not_below_cur (hC : C.Static) (h : C.CanDrop c) : ¬C.Below c C.cur := by
  intro hbelow
  have := hbelow.depth_le hC hC.cur_live
  have := hC.depth_parent c h.live h.ne_root
  rw [h.cur_eq] at *
  omega

theorem not_below_root (h : C.CanDrop c) : ¬C.Below c C.root := by
  intro hbelow
  cases hbelow with
  | self => exact h.ne_root rfl
  | child hne _ => exact hne rfl

theorem not_below_parent {q : Nat} (hq : q ≠ C.root) (h : ¬C.Below c q) : ¬C.Below c (C.parent q) :=
  fun hbelow => h (Below.child hq hbelow)

theorem fields (c a : Nat)
    : ((C.dropPartition c).slot a).startAddr = (C.slot a).startAddr
        ∧ ((C.dropPartition c).slot a).endAddr = (C.slot a).endAddr
        ∧ ((C.dropPartition c).slot a).origin = (C.slot a).origin
        ∧ ((C.dropPartition c).slot a).next = (C.slot a).next
        ∧ ((C.dropPartition c).slot a).present = (C.slot a).present
        ∧ ((C.dropPartition c).slot a).accessible = (C.slot a).accessible
        ∧ ((C.dropPartition c).slot a).read = (C.slot a).read
        ∧ ((C.dropPartition c).slot a).write = (C.slot a).write
        ∧ ((C.dropPartition c).slot a).exec = (C.slot a).exec := by
  simp only [dropPartition, Slot.clearSh1]
  split <;> simp

theorem slot_of_not {a : Nat}
    (h : ¬((C.slot a).PDchild = c ∨ ((C.slot a).PDflag = true ∧ (C.slot a).startAddr = c)))
    : (C.dropPartition c).slot a = C.slot a := by
  simp only [dropPartition, h, if_false]

/--
The fields of a slot that were not cleared belong to another partition.
-/
theorem slot_cases (a : Nat)
    : (((C.dropPartition c).slot a).PDchild = 0 ∧ ((C.dropPartition c).slot a).PDflag = false
          ∧ ((C.dropPartition c).slot a).inChildLocation = 0)
        ∨ ((C.dropPartition c).slot a = C.slot a ∧ (C.slot a).PDchild ≠ c
          ∧ ((C.slot a).PDflag = true → (C.slot a).startAddr ≠ c)) := by
  by_cases h : (C.slot a).PDchild = c ∨ ((C.slot a).PDflag = true ∧ (C.slot a).startAddr = c)
  . left
    simp only [dropPartition, h, if_true, Slot.clearSh1, and_self]
  . right
    refine ⟨slot_of_not h, ?_, ?_⟩
    . exact fun heq => h (Or.inl heq)
    . exact fun hflag heq => h (Or.inr ⟨hflag, heq⟩)

theorem owns_iff (c q a : Nat)
    : (C.dropPartition c).Owns q a ↔ C.Owns q a ∧ ¬C.Below c q := by
  show (C.Live q ∧ ¬C.Below c q) ∧ _ ↔ _
  unfold Owns
  constructor
  . rintro ⟨⟨h₁, h₂⟩, h₃⟩
    exact ⟨⟨h₁, h₃⟩, h₂⟩
  . rintro ⟨⟨h₁, h₃⟩, h₂⟩
    exact ⟨⟨h₁, h₂⟩, h₃⟩

theorem has_iff (c q a : Nat)
    : (C.dropPartition c).Has q a ↔ C.Has q a ∧ ¬C.Below c q := by
  unfold Has
  rw [owns_iff, (fields c a).2.2.2.2.1]
  constructor
  . rintro ⟨⟨h₁, h₂⟩, h₃⟩
    exact ⟨⟨h₁, h₃⟩, h₂⟩
  . rintro ⟨⟨h₁, h₃⟩, h₂⟩
    exact ⟨⟨h₁, h₂⟩, h₃⟩

/--
A block that is lent to another partition, or that holds a structure of one, stays as it is.
-/
theorem slot_of_inChild (hC : C.Static) {q a : Nat} (ha : C.Has q a)
    (hpd : (C.slot a).PDchild ≠ c) (hloc : (C.slot a).inChildLocation ≠ 0)
    : (C.dropPartition c).slot a = C.slot a := by
  apply slot_of_not
  rintro (h | ⟨h, -⟩)
  . exact hpd h
  . exact hloc (hC.flag_kind q a ha h).2.1

end CanDrop

theorem Static.dropPartition (hC : C.Static) {c : Nat} (h : C.CanDrop c)
    : (C.dropPartition c).Static := by
  have hhas := @CanDrop.has_iff C c
  have howns := @CanDrop.owns_iff C c
  have hfields := @CanDrop.fields C c
  have hcases := @CanDrop.slot_cases C c
  have hup := @CanDrop.not_below_parent C c
  have hc : c ≠ 0 := hC.live_ne_zero h.live
  constructor
  case cur_live => exact ⟨hC.cur_live, h.not_below_cur hC⟩
  case root_live => exact ⟨hC.root_live, h.not_below_root⟩
  case root_ne => exact hC.root_ne
  case rootStructure_ne => exact hC.rootStructure_ne
  case rootStructure_mem => exact hC.rootStructure_mem
  case root_disjoint => exact hC.root_disjoint
  case root_pd =>
    intro a ha
    unfold Slot.range
    rw [(hfields a).1, (hfields a).2.1]
    exact hC.root_pd a ((hhas _ _).mp ha).1
  case root_structure =>
    intro a ha
    unfold Slot.range
    rw [(hfields a).1, (hfields a).2.1]
    exact hC.root_structure a ((hhas _ _).mp ha).1
  case depth_root => exact hC.depth_root
  case parent_live =>
    intro q hq hroot
    exact ⟨hC.parent_live q hq.1 hroot, hup hroot hq.2⟩
  case depth_parent =>
    intro q hq hroot
    exact hC.depth_parent q hq.1 hroot
  case pd_house =>
    intro q hq hroot
    rcases hC.pd_house q hq.1 hroot with ⟨H, hH, hflag, hstart, hrest⟩
    refine ⟨H, (hhas _ _).mpr ⟨hH, hup hroot hq.2⟩, ?_⟩
    have hne : q ≠ c := fun heq => hq.2 (heq ▸ Below.self)
    rw [CanDrop.slot_of_not]
    . exact ⟨hflag, hstart, hrest⟩
    . rintro (h | ⟨-, h⟩)
      . exact hc (h.symm.trans (hC.flag_kind _ H hH hflag).1)
      . exact hne (hstart.symm.trans h)
  case flag_kind =>
    intro q a ha hflag
    rcases (hhas q a).mp ha with ⟨ha, hq⟩
    rcases hcases a with ⟨-, h, -⟩ | ⟨h, hpd, hstart⟩
    . rw [h] at hflag
      exact absurd hflag (by simp)
    . rw [h] at hflag ⊢
      rcases hC.flag_kind q a ha hflag with ⟨h₁, h₂, h₃, h₄, h₅⟩
      refine ⟨h₁, h₂, ⟨h₃, ?_⟩, h₄, h₅⟩
      intro hbelow
      cases hbelow with
      | self => exact hstart hflag rfl
      | child _ hbelow =>
        rw [h₄] at hbelow
        exact hq hbelow
  case structure_house =>
    intro q k hq hk
    rcases hC.structure_house q k hq.1 hk with h | ⟨H, hH⟩
    . exact Or.inl h
    . right
      have hne : q ≠ c := fun heq => hq.2 (heq ▸ Below.self)
      have hslot : (C.dropPartition c).slot H = C.slot H := by
        apply CanDrop.slot_of_not
        rintro (h | ⟨h, -⟩)
        . rcases hH.holder with ⟨-, h'⟩ | ⟨-, -, h'⟩
          . exact hc (h.symm.trans h')
          . exact hne (h'.symm.trans h)
        . rw [hH.flag_eq] at h
          exact absurd h (by simp)
      exact ⟨H, hH.transfer rfl rfl hslot (fun h => (hhas _ _).mpr ⟨h, hq.2⟩)
        fun hroot h => (hhas _ _).mpr ⟨h, hup hroot hq.2⟩⟩
  case structures_nodup =>
    intro q hq
    exact hC.structures_nodup q hq.1
  case structures_length =>
    intro q hq
    exact hC.structures_length q hq.1
  case child_kind =>
    intro q a ha hpd
    rcases (hhas q a).mp ha with ⟨ha, hq⟩
    rcases hcases a with ⟨h, -, -⟩ | ⟨h, hne, -⟩
    . exact absurd h hpd
    . rw [h] at hpd ⊢
      rcases hC.child_kind q a ha hpd with ⟨h₁, h₂, h₃, h₄⟩
      refine ⟨⟨h₁, ?_⟩, h₂, h₃, h₄⟩
      intro hbelow
      generalize (C.slot a).PDchild = r at *
      cases hbelow with
      | self => exact hne rfl
      | child _ hbelow =>
        rw [h₂] at hbelow
        exact hq hbelow
  case location_kind =>
    intro q a ha hloc
    rcases (hhas q a).mp ha with ⟨ha, hq⟩
    rcases hcases a with ⟨-, -, h⟩ | ⟨h, hne, -⟩
    . exact absurd h hloc
    . rw [h] at hloc ⊢
      rcases hC.location_kind q a ha hloc with ⟨h₁, h₂, h₃, h₄⟩
      rw [hhas, (hfields _).1, (hfields _).2.2.1]
      refine ⟨h₁, ⟨h₂, ?_⟩, h₃, h₄⟩
      have hparent := (hC.child_kind q a ha h₁).2.1
      generalize (C.slot a).PDchild = r at *
      intro hbelow
      cases hbelow with
      | self => exact hne rfl
      | child _ hbelow =>
        rw [hparent] at hbelow
        exact hq hbelow
  case host =>
    intro q a hroot ha
    rcases (hhas q a).mp ha with ⟨ha, hq⟩
    rcases hC.host q a hroot ha with ⟨B, hB⟩
    have hne : (C.slot B).PDchild ≠ c := by
      intro heq
      exact hq (hB.lent.1.symm.trans heq ▸ Below.self)
    have hslot := CanDrop.slot_of_inChild hC hB.has hne hB.lent.2
    rcases hfields a with ⟨-, h₂, h₃, h₄, -, -, h₇, h₈, h₉⟩
    refine ⟨B, hB.transfer rfl ((hhas _ _).mpr ⟨hB.has, hup hroot hq⟩) hslot h₃ ?_ ?_ h₇ h₈ h₉⟩
    . rw [h₂]
      exact hB.end_le
    . rw [h₂, h₄]
      exact hB.end_eq
  case next_kind =>
    intro q a ha hnext
    rcases (hhas q a).mp ha with ⟨ha, hq⟩
    rw [(hfields a).2.2.2.1] at hnext ⊢
    rcases hC.next_kind q a ha hnext with ⟨h₁, h₂, h₃⟩
    rw [hhas, (hfields _).1, (hfields a).2.1, (hfields _).2.2.1, (hfields a).2.2.1]
    exact ⟨⟨h₁, hq⟩, h₂, h₃⟩
  case pred_kind =>
    intro q a ha hstart
    rcases (hhas q a).mp ha with ⟨ha, hq⟩
    rw [(hfields a).1, (hfields a).2.2.1] at hstart
    rcases hC.pred_kind q a ha hstart with ⟨b, hb, hnext⟩
    refine ⟨b, (hhas _ _).mpr ⟨hb, hq⟩, ?_⟩
    rw [(hfields b).2.2.2.1]
    exact hnext
  case origin_le =>
    intro q a ha
    rw [(hfields a).1, (hfields a).2.2.1]
    exact hC.origin_le q a ((hhas q a).mp ha).1
  case start_lt =>
    intro q a ha
    rw [(hfields a).1, (hfields a).2.1]
    exact hC.start_lt q a ((hhas q a).mp ha).1
  case end_lt =>
    intro q a ha
    rw [(hfields a).2.1]
    exact hC.end_lt q a ((hhas q a).mp ha).1
  case disjoint =>
    intro q a a' ha ha' hne
    rw [(hfields a).1, (hfields a).2.1, (hfields a').1, (hfields a').2.1]
    exact hC.disjoint q a a' ((hhas q a).mp ha).1 ((hhas q a').mp ha').1 hne
  case free_nodup =>
    intro q hq
    exact hC.free_nodup q hq.1
  case mem_free =>
    intro q a hq
    rw [howns, (hfields a).2.2.2.2.1]
    show a ∈ C.free q ↔ _
    rw [hC.mem_free q a hq.1]
    constructor
    . rintro ⟨h₁, h₂⟩
      exact ⟨⟨h₁, hq.2⟩, h₂⟩
    . rintro ⟨⟨h₁, -⟩, h₂⟩
      exact ⟨h₁, h₂⟩
  case free_empty =>
    intro q a ha hpresent
    rw [(hfields a).2.2.2.2.1] at hpresent
    have hempty := hC.free_empty q a ((howns q a).mp ha).1 hpresent
    rw [CanDrop.slot_of_not, hempty]
    rw [hempty]
    rintro (h | ⟨h, -⟩)
    . exact hc h.symm
    . exact absurd h (by simp [Slot.empty])

theorem Inv.dropPartition (hC : C.Inv) {c : Nat} (h : C.CanDrop c)
    : (C.dropPartition c).Inv := by
  have hS := hC.static
  have hhas := @CanDrop.has_iff C c
  have hfields := @CanDrop.fields C c
  have hcases := @CanDrop.slot_cases C c
  refine ⟨hS.dropPartition h, ⟨?_, ?_, ?_⟩, ?_⟩
  . intro q a ha hflag
    have := hC.closed.flag q a ((hhas q a).mp ha).1
    have := hcases a
    grind
  . intro q a ha hpd hloc
    have := hC.closed.given q a ((hhas q a).mp ha).1
    have := hcases a
    grind
  . intro q a ha hk
    rw [(hfields a).1] at hk
    rw [(hfields a).2.2.2.2.2.1]
    exact hC.closed.own q a ((hhas q a).mp ha).1 hk
  . intro q a hq ha B hB
    have ha := ((hhas q a).mp ha).1
    have hBhas := ((hhas _ _).mp hB.has).1
    rcases hfields a with ⟨h₁, -, h₃, h₄, -, h₆, -⟩
    unfold Slot.Uncut
    rw [h₁, h₃, h₄, h₆, (hfields B).2.2.2.2.2.1]
    apply hC.coherent q a hq ha B
    apply hS.hosts_of_origin hq ha hBhas
    have hstart := hB.start_eq
    rw [(hfields B).1, h₃] at hstart
    exact hstart

end Conf
