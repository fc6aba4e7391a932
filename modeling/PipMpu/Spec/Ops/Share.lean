import PipMpu.Spec.Walk
import Mathlib.Order.Interval.Set.Disjoint

/-!
This module contains the abstract sharing of a block with a child and its converse.
-/

namespace Conf

variable {C : Conf}

/--
The slot of a block that was just shared.
-/
def sharedSlot (sl : Slot) (r w x : Bool) : Slot :=
  {
      present := true
      accessible := true
      read := r
      write := w
      exec := x
      startAddr := sl.startAddr
      endAddr := sl.endAddr
      PDchild := 0
      PDflag := false
      inChildLocation := 0
      origin := sl.startAddr
      next := 0
  }

/--
Share the block `b` with `c`, in whose slot `f` it appears.
-/
def share (C : Conf) (b c f : Nat) (rest : List Nat) (r w x : Bool) : Conf :=
  { C with
    slot := fun a =>
      if a = f then
        sharedSlot (C.slot b) r w x
      else if a = b then
        { C.slot b with PDchild := c, inChildLocation := f }
      else
        C.slot a
    free := fun q => if q = c then rest else C.free q }

structure CanShare (C : Conf) (p b c f : Nat) (rest : List Nat) (r w x : Bool) : Prop where
  has : C.Has p b
  accessible_eq : (C.slot b).accessible = true
  PDchild_eq : (C.slot b).PDchild = 0
  flag_eq : (C.slot b).PDflag = false
  notMem : (C.slot b).startAddr ∉ C.structures p
  live : C.Live c
  ne_root : c ≠ C.root
  parent_eq : C.parent c = p
  free_eq : C.free c = f :: rest
  read_eq : r = true
  write_le : w = true → (C.slot b).write = true
  exec_le : x = true → (C.slot b).exec = true

namespace CanShare

variable {p b c f : Nat} {rest : List Nat} {r w x : Bool}

theorem inChild_eq (hC : C.Static) (h : C.CanShare p b c f rest r w x)
    : (C.slot b).inChildLocation = 0 := by
  by_contra hne
  exact (hC.location_kind p b h.has hne).1 h.PDchild_eq

theorem free_slot (hC : C.Static) (h : C.CanShare p b c f rest r w x)
    : C.Owns c f ∧ (C.slot f).present = false := by
  rw [← hC.mem_free c f h.live, h.free_eq]
  simp

theorem ne (hC : C.Static) (h : C.CanShare p b c f rest r w x) : b ≠ f := by
  intro heq
  have := (h.free_slot hC).2
  rw [← heq, h.has.2] at this
  exact absurd this (by simp)

theorem not_has (hC : C.Static) (h : C.CanShare p b c f rest r w x) (q : Nat) : ¬C.Has q f := by
  intro hq
  have := (h.free_slot hC).2.symm.trans hq.2
  exact absurd this (by simp)

theorem slot_new : (C.share b c f rest r w x).slot f = sharedSlot (C.slot b) r w x := by
  simp [share]

theorem slot_self (hne : b ≠ f)
    : (C.share b c f rest r w x).slot b
        =
      { C.slot b with PDchild := c, inChildLocation := f } := by
  simp [share, hne]

theorem slot_other {a : Nat} (hb : a ≠ b) (hf : a ≠ f)
    : (C.share b c f rest r w x).slot a = C.slot a := by
  simp [share, hb, hf]

theorem has_iff (hC : C.Static) (h : C.CanShare p b c f rest r w x) (q a : Nat)
    : (C.share b c f rest r w x).Has q a ↔ C.Has q a ∨ (q = c ∧ a = f) := by
  have hf := h.free_slot hC
  have hne := h.ne hC
  show C.Owns q a ∧ _ ↔ _
  by_cases haf : a = f
  . subst haf
    simp only [slot_new, sharedSlot, Has, hf.2]
    constructor
    . rintro ⟨how, -⟩
      exact Or.inr ⟨hC.owns_unique how hf.1, trivial⟩
    . rintro (⟨-, h⟩ | ⟨rfl, -⟩)
      . exact absurd h (by simp)
      . exact ⟨hf.1, trivial⟩
  . by_cases hab : a = b
    . subst hab
      simp [slot_self hne, haf, Has]
    . simp [slot_other hab haf, haf, Has]

/--
No block of the child lies in `b` before it is shared.
-/
theorem disjoint_child (hC : C.Static) (h : C.CanShare p b c f rest r w x) {a : Nat}
    (ha : C.Has c a) : Disjoint (C.slot a).range (C.slot b).range := by
  refine Set.disjoint_left.mpr fun x hxa hxb => ?_
  have hb := h.has
  rw [← h.parent_eq] at hb
  exact (hC.hosts_of_mem_range h.ne_root ha hb hxa hxb).lent.2 (h.inChild_eq hC)

end CanShare

theorem Static.share (hC : C.Static) {p b c f : Nat} {rest : List Nat} {r w x : Bool}
    (h : C.CanShare p b c f rest r w x) : (C.share b c f rest r w x).Static := by
  have hf := h.free_slot hC
  have hne := h.ne hC
  have hhas := h.has_iff hC
  have hloc := h.inChild_eq hC
  have hnot := h.not_has hC
  have hdisj := @CanShare.disjoint_child C p b c f rest r w x hC h
  have hfne := hC.owns_ne_zero hf.1
  have hslot : ∀ a, a ≠ b → a ≠ f → (C.share b c f rest r w x).slot a = C.slot a := by
    intro a
    exact CanShare.slot_other
  have hnew : (C.share b c f rest r w x).slot f = sharedSlot (C.slot b) r w x := CanShare.slot_new
  have hself : (C.share b c f rest r w x).slot b =
      { C.slot b with PDchild := c, inChildLocation := f } := CanShare.slot_self hne
  rcases h with ⟨hb, hacc, hpd, hflag, hmem, hlive, hcroot, hparent, hfree, hread, hwrite, hexec⟩
  unfold sharedSlot at hnew
  have hclive := hC.live_ne_zero hlive
  have hcp : c ≠ p := by
    rw [← hparent]
    exact (hC.parent_ne hlive hcroot).symm
  constructor
  case cur_live => exact hC.cur_live
  case root_live => exact hC.root_live
  case root_ne => exact hC.root_ne
  case rootStructure_ne => exact hC.rootStructure_ne
  case rootStructure_mem => exact hC.rootStructure_mem
  case root_disjoint => exact hC.root_disjoint
  case depth_root => exact hC.depth_root
  case parent_live => exact hC.parent_live
  case depth_parent => exact hC.depth_parent
  case structures_nodup => exact hC.structures_nodup
  case structures_length => exact hC.structures_length
  case root_pd =>
    intro a ha
    rcases (hhas _ a).mp ha with ha | ⟨hroot, -⟩
    . have := hC.root_pd a ha
      unfold Slot.range at this ⊢
      by_cases hab : a = b
      . rw [hab] at this
        rw [hab, hself]
        exact this
      . rw [hslot a hab (fun h => hnot _ (h ▸ ha))]
        exact this
    . exact absurd hroot.symm hcroot
  case root_structure =>
    intro a ha
    rcases (hhas _ a).mp ha with ha | ⟨hroot, -⟩
    . have := hC.root_structure a ha
      unfold Slot.range at this ⊢
      by_cases hab : a = b
      . rw [hab] at this
        rw [hab, hself]
        exact this
      . rw [hslot a hab (fun h => hnot _ (h ▸ ha))]
        exact this
    . exact absurd hroot.symm hcroot
  case pd_house =>
    intro q hq hroot
    rcases hC.pd_house q hq hroot with ⟨H, hH, hHflag, hrest⟩
    refine ⟨H, (hhas _ _).mpr (Or.inl hH), ?_⟩
    rw [hslot H (by grind) (by grind)]
    exact ⟨hHflag, hrest⟩
  case flag_kind =>
    intro q a ha haflag
    have := hC.flag_kind q a
    have hlive : (C.share b c f rest r w x).Live = C.Live := rfl
    have hparent : (C.share b c f rest r w x).parent = C.parent := rfl
    have hroot : (C.share b c f rest r w x).root = C.root := rfl
    grind
  case structure_house =>
    intro q k hq hk
    rcases hC.structure_house q k hq hk with h | ⟨H, hH⟩
    . exact Or.inl h
    . right
      have hH' : H ≠ b ∧ H ≠ f := by
        have h₁ := hH.holder
        have h₂ := hH.start_eq
        have h₃ := hC.live_ne_zero hq
        have h₄ : C.Has q b → q = p := fun h => hC.has_unique h hb
        have hstr : (C.share b c f rest r w x).structures = C.structures := rfl
        grind
      exact ⟨H, hH.transfer rfl rfl (hslot H hH'.1 hH'.2) (fun hr => (hhas _ H).mpr (Or.inl hr))
        fun _ hr => (hhas _ H).mpr (Or.inl hr)⟩
  case child_kind =>
    intro q a ha hapd
    have := hC.child_kind q a
    have hunique : C.Has q b → q = p := fun h => hC.has_unique h hb
    have hlive' : (C.share b c f rest r w x).Live = C.Live := rfl
    have hparent' : (C.share b c f rest r w x).parent = C.parent := rfl
    have hroot' : (C.share b c f rest r w x).root = C.root := rfl
    have hstr' : (C.share b c f rest r w x).structures = C.structures := rfl
    grind
  case location_kind =>
    intro q a ha haloc
    have := hC.location_kind q a
    grind
  case host =>
    intro q a hroot ha
    rcases (hhas q a).mp ha with ha | ⟨hqc, haf⟩
    . rcases hC.host q a hroot ha with ⟨B, hB⟩
      have hBb : B ≠ b := by
        intro h
        rw [h] at hB
        exact hB.lent.2 hloc
      have hBf : B ≠ f := fun h => hnot _ (h ▸ hB.has)
      have haf : a ≠ f := fun h => hnot _ (h ▸ ha)
      have hBhas := (hhas _ B).mpr (Or.inl hB.has)
      by_cases hab : a = b
      . refine ⟨B, hB.transfer rfl hBhas (hslot B hBb hBf) ?_ ?_ ?_ ?_ ?_ ?_⟩ <;>
          simp only [hab, hself]
        . exact hab ▸ hB.end_le
        . exact hab ▸ hB.end_eq
      . refine ⟨B, hB.transfer rfl hBhas (hslot B hBb hBf) ?_ ?_ ?_ ?_ ?_ ?_⟩ <;>
          rw [hslot a hab haf]
        . exact hB.end_le
        . exact hB.end_eq
    . subst hqc haf
      refine ⟨b, ?_, ?_, ?_, ?_, ?_, ?_, ?_, ?_⟩
      . show (C.share b q a rest r w x).Has (C.parent q) b
        rw [hparent]
        exact (hhas _ _).mpr (Or.inl hb)
      . unfold Lent
        rw [hself]
        exact ⟨rfl, hfne⟩
      . rw [hself, hnew]
      . rw [hself, hnew]
      . rw [hself, hnew]
        exact fun _ => rfl
      . rw [hnew]
        exact hread
      . rw [hself, hnew]
        exact hwrite
      . rw [hself, hnew]
        exact hexec
  case next_kind =>
    intro q a ha hanext
    have := hC.next_kind q a
    grind
  case pred_kind =>
    intro q a ha hstart
    have haf : a ≠ f := by
      intro h
      rw [h, hnew] at hstart
      exact hstart rfl
    have ha : C.Has q a := by grind
    have : (C.slot a).startAddr ≠ (C.slot a).origin := by grind
    rcases hC.pred_kind q a ha this with ⟨a', ha', hnext⟩
    have := hnot q
    exact ⟨a', by grind, by grind⟩
  case origin_le =>
    intro q a ha
    have := hC.origin_le q a
    grind
  case start_lt =>
    intro q a ha
    have := hC.start_lt q a
    have := hC.start_lt p b hb
    grind
  case end_lt =>
    intro q a ha
    have := hC.end_lt q a
    have := hC.end_lt p b hb
    grind
  case disjoint =>
    intro q a a' ha ha' haa'
    have := hC.disjoint q a a'
    have hstartb := hC.start_lt p b hb
    -- the new block lies apart from the older blocks of the child
    have hapart : ∀ a, C.Has c a → (C.slot a).endAddr ≤ (C.slot b).startAddr ∨
        (C.slot b).endAddr ≤ (C.slot a).startAddr := by
      intro a ha
      have hd := hdisj ha
      have hstart := hC.start_lt c a ha
      unfold Slot.range at hd
      rw [Set.Ico_disjoint_Ico] at hd
      omega
    have h₁ := hapart a
    have h₂ := hapart a'
    have hbc : ¬C.Has c b := fun h => hcp (hC.has_unique h hb)
    clear hdisj hapart
    grind
  case free_nodup =>
    intro q hq
    have := hC.free_nodup q hq
    have hfree' : (C.share b c f rest r w x).free q = if q = c then rest else C.free q := rfl
    grind
  case mem_free =>
    intro q a hq
    have := hC.mem_free q a hq
    have := hC.free_nodup c hlive
    have hfree' : (C.share b c f rest r w x).free q = if q = c then rest else C.free q := rfl
    have hunique : C.Owns q f → q = c := fun h => hC.owns_unique h hf.1
    have hpresent := hb.2
    show _ ↔ C.Owns q a ∧ _
    grind
  case free_empty =>
    intro q a ha hpresent
    have := hC.free_empty q a ha
    have := hb.2
    grind

theorem Inv.share (hC : C.Inv) {p b c f : Nat} {rest : List Nat} {r w x : Bool}
    (h : C.CanShare p b c f rest r w x) : (C.share b c f rest r w x).Inv := by
  have hS := hC.static
  have hhas := h.has_iff hS
  have hne := h.ne hS
  have hnot := h.not_has hS
  have hslot : ∀ a, a ≠ b → a ≠ f → (C.share b c f rest r w x).slot a = C.slot a := by
    intro a
    exact CanShare.slot_other
  have hnew : (C.share b c f rest r w x).slot f = sharedSlot (C.slot b) r w x := CanShare.slot_new
  have hself : (C.share b c f rest r w x).slot b =
      { C.slot b with PDchild := c, inChildLocation := f } := CanShare.slot_self hne
  have hfne := hS.owns_ne_zero (h.free_slot hS).1
  have hstr : (C.share b c f rest r w x).structures = C.structures := rfl
  unfold sharedSlot at hnew
  refine ⟨hS.share h, ⟨?_, ?_, ?_⟩, ?_⟩
  . intro q a ha hflag
    have := hC.closed.flag q a
    grind
  . intro q a ha hpd hloc
    have := hC.closed.given q a
    grind
  . intro q a ha hk
    rcases (hhas q a).mp ha with ha | ⟨rfl, rfl⟩
    . have := hC.closed.own q a ha
      have haf : a ≠ f := fun h => hnot _ (h ▸ ha)
      grind
    . -- a structure of the child in the block would have made it unavailable
      rw [hnew, hstr] at hk
      have hx := hS.mem_range_start h.has
      have := hC.structure_notMem_accessible h.has h.accessible_eq h.live hk
        (mem_structureRange_self _)
      exact absurd hx this
  . intro q a hq ha B hB
    rcases (hhas q a).mp ha with ha | ⟨hqc, haf⟩
    . have haf : a ≠ f := fun h => hnot _ (h ▸ ha)
      have hBf : B ≠ f := by
        intro heq
        have := hB.lent.2
        rw [heq, hnew] at this
        exact this rfl
      have hBhas : C.Has (C.parent q) B := by
        rcases (hhas _ B).mp hB.has with h | h
        . exact h
        . exact absurd h.2 hBf
      have hfields : ∀ a, a ≠ f → ((C.share b c f rest r w x).slot a).startAddr = (C.slot a).startAddr ∧
          ((C.share b c f rest r w x).slot a).origin = (C.slot a).origin ∧
          ((C.share b c f rest r w x).slot a).next = (C.slot a).next ∧
          ((C.share b c f rest r w x).slot a).accessible = (C.slot a).accessible := by
        intro a haf
        by_cases hab : a = b
        . rw [hab, hself]
          exact ⟨rfl, rfl, rfl, rfl⟩
        . rw [hslot a hab haf]
          exact ⟨rfl, rfl, rfl, rfl⟩
      rcases hfields a haf with ⟨h₁, h₂, h₃, h₄⟩
      unfold Slot.Uncut
      rw [h₁, h₂, h₃, h₄, (hfields B hBf).2.2.2]
      apply hC.coherent q a hq ha B
      apply hS.hosts_of_origin hq ha hBhas
      have hstart := hB.start_eq
      rw [(hfields B hBf).1, h₂] at hstart
      exact hstart
    . subst hqc haf
      have hBb : B = b := by
        have hS' := hS.share h
        have ha' := (hhas q a).mpr (Or.inr ⟨rfl, rfl⟩)
        have hb : (C.share b q a rest r w x).Has ((C.share b q a rest r w x).parent q) b := by
          show (C.share b q a rest r w x).Has (C.parent q) b
          rw [h.parent_eq]
          exact (hhas _ _).mpr (Or.inl h.has)
        have hhost := hS'.hosts_of_origin hq ha' hb (by rw [hself, hnew])
        exact hS'.hosts_unique ha' hB hhost
      subst hBb
      rw [hself, hnew]
      simp [Slot.Uncut, h.accessible_eq]

/-
Taking a block back
-/

/--
Take the block `b` back from `c`, where it is the block `l`.
-/
def unshare (C : Conf) (b c l : Nat) : Conf :=
  { C with
    slot := fun a =>
      if a = l then
        Slot.empty
      else if a = b then
        { C.slot b with PDchild := 0, inChildLocation := 0 }
      else
        C.slot a
    free := fun q => if q = c then l :: C.free c else C.free q }

structure CanUnshare (C : Conf) (p b c l : Nat) : Prop where
  has : C.Has p b
  lent : C.Lent b c
  location_eq : (C.slot b).inChildLocation = l
  uncut : (C.slot l).Uncut
  PDchild_eq : (C.slot l).PDchild = 0
  flag_eq : (C.slot l).PDflag = false
  notMem : (C.slot l).startAddr ∉ C.structures c

namespace CanUnshare

variable {p b c l : Nat}

theorem PDchild_ne (hC : C.Static) (h : C.CanUnshare p b c l) : (C.slot b).PDchild ≠ 0 :=
  (hC.location_kind p b h.has h.lent.2).1

theorem child (hC : C.Static) (h : C.CanUnshare p b c l)
    : C.Live c ∧ C.parent c = p ∧ c ≠ C.root := by
  have := hC.child_kind p b h.has (h.PDchild_ne hC)
  rw [h.lent.1] at this
  exact ⟨this.1, this.2.1, this.2.2.1⟩

theorem location (hC : C.Static) (h : C.CanUnshare p b c l)
    : C.Has c l ∧ (C.slot l).startAddr = (C.slot b).startAddr
        ∧ (C.slot l).origin = (C.slot b).startAddr := by
  have := hC.location_kind p b h.has h.lent.2
  rw [h.lent.1, h.location_eq] at this
  exact this.2

theorem hosts (hC : C.Static) (h : C.CanUnshare p b c l) : C.Hosts c l b := by
  rcases h.location hC with ⟨hl, -, horigin⟩
  rcases h.child hC with ⟨-, hparent, hroot⟩
  apply hC.hosts_of_origin hroot hl
  . rw [hparent]
    exact h.has
  . rw [horigin]

theorem ne (hC : C.Static) (h : C.CanUnshare p b c l) : b ≠ l := by
  intro heq
  rcases h.location hC with ⟨hl, -, -⟩
  rcases h.child hC with ⟨hlive, hparent, hroot⟩
  have := hC.parent_ne hlive hroot
  rw [hparent] at this
  exact this (hC.has_unique (heq ▸ h.has) hl)

theorem inChild_eq (hC : C.Static) (h : C.CanUnshare p b c l)
    : (C.slot l).inChildLocation = 0 := by
  by_contra hne
  exact (hC.location_kind c l (h.location hC).1 hne).1 h.PDchild_eq

/--
The block is the only one of the child that was made of `b`.
-/
theorem eq_of_hosts (hC : C.Static) (h : C.CanUnshare p b c l) {q a : Nat} (ha : C.Has q a)
    (hb : C.Hosts q a b) : a = l := by
  have hqc : q = c := hb.lent.1.symm.trans h.lent.1
  subst hqc
  rcases h.location hC with ⟨hl, hstart, -⟩
  have hend := (h.hosts hC).end_eq h.uncut.2
  have hx := hC.mem_range_start ha
  apply hC.eq_of_mem_range ha hl hx
  have := hC.range_subset_host ha hb hx
  unfold Slot.range at this ⊢
  rw [hstart, hend]
  exact this

/--
No block of the child goes on with it.
-/
theorem next_ne (hC : C.Static) (h : C.CanUnshare p b c l) {q a : Nat} (ha : C.Has q a)
    (hnext : (C.slot a).next = l) : False := by
  rcases h.location hC with ⟨hl, -, -⟩
  have hne : (C.slot a).next ≠ 0 := by
    rw [hnext]
    exact hC.owns_ne_zero hl.1
  rcases hC.next_kind q a ha hne with ⟨-, hstart, horigin⟩
  rw [hnext] at hstart horigin
  have := h.uncut.1
  have := hC.origin_le q a ha
  have := hC.start_lt q a ha
  omega

theorem slot_freed : (C.unshare b c l).slot l = Slot.empty := by
  simp [unshare]

theorem slot_self (hne : b ≠ l)
    : (C.unshare b c l).slot b = { C.slot b with PDchild := 0, inChildLocation := 0 } := by
  simp [unshare, hne]

theorem slot_other {a : Nat} (hb : a ≠ b) (hl : a ≠ l) : (C.unshare b c l).slot a = C.slot a := by
  simp [unshare, hb, hl]

theorem has_iff (hC : C.Static) (h : C.CanUnshare p b c l) (q a : Nat)
    : (C.unshare b c l).Has q a ↔ C.Has q a ∧ a ≠ l := by
  have hne := h.ne hC
  show C.Owns q a ∧ _ ↔ _
  by_cases hal : a = l
  . subst hal
    simp [slot_freed, Slot.empty]
  . by_cases hab : a = b
    . subst hab
      simp [slot_self hne, hne, Has]
    . simp [slot_other hab hal, hal, Has]

end CanUnshare

theorem Static.unshare (hC : C.Static) {p b c l : Nat} (h : C.CanUnshare p b c l)
    : (C.unshare b c l).Static := by
  have hne := h.ne hC
  have hhas := h.has_iff hC
  have hloc := h.inChild_eq hC
  have hnext := fun q a => @CanUnshare.next_ne C p b c l hC h q a
  have honly := fun q a => @CanUnshare.eq_of_hosts C p b c l hC h q a
  have hslot : ∀ a, a ≠ b → a ≠ l → (C.unshare b c l).slot a = C.slot a := by
    intro a
    exact CanUnshare.slot_other
  have hfreed : (C.unshare b c l).slot l = Slot.empty := CanUnshare.slot_freed
  have hself : (C.unshare b c l).slot b =
      { C.slot b with PDchild := 0, inChildLocation := 0 } := CanUnshare.slot_self hne
  rcases h.location hC with ⟨hl, hlstart, hlorigin⟩
  rcases h.child hC with ⟨hlive, hparent, hcroot⟩
  have hpdne := h.PDchild_ne hC
  have hbkind := hC.closed_of_lent h.has h.lent.2
  have hlent := h.lent
  rcases h with ⟨hb, -, hbl, huncut, hpd, hflag, hmem⟩
  have hclive := hC.live_ne_zero hlive
  have hfields : ∀ a, a ≠ l → ((C.unshare b c l).slot a).startAddr = (C.slot a).startAddr ∧
      ((C.unshare b c l).slot a).endAddr = (C.slot a).endAddr ∧
      ((C.unshare b c l).slot a).origin = (C.slot a).origin ∧
      ((C.unshare b c l).slot a).next = (C.slot a).next ∧
      ((C.unshare b c l).slot a).read = (C.slot a).read ∧
      ((C.unshare b c l).slot a).write = (C.slot a).write ∧
      ((C.unshare b c l).slot a).exec = (C.slot a).exec := by
    intro a hal
    by_cases hab : a = b
    . rw [hab, hself]
      simp
    . rw [hslot a hab hal]
      simp
  constructor
  case cur_live => exact hC.cur_live
  case root_live => exact hC.root_live
  case root_ne => exact hC.root_ne
  case rootStructure_ne => exact hC.rootStructure_ne
  case rootStructure_mem => exact hC.rootStructure_mem
  case root_disjoint => exact hC.root_disjoint
  case depth_root => exact hC.depth_root
  case parent_live => exact hC.parent_live
  case depth_parent => exact hC.depth_parent
  case structures_nodup => exact hC.structures_nodup
  case structures_length => exact hC.structures_length
  case root_pd =>
    intro a ha
    rcases (hhas _ a).mp ha with ⟨ha, hal⟩
    unfold Slot.range
    rw [(hfields a hal).1, (hfields a hal).2.1]
    exact hC.root_pd a ha
  case root_structure =>
    intro a ha
    rcases (hhas _ a).mp ha with ⟨ha, hal⟩
    unfold Slot.range
    rw [(hfields a hal).1, (hfields a hal).2.1]
    exact hC.root_structure a ha
  case pd_house =>
    intro q hq hroot
    rcases hC.pd_house q hq hroot with ⟨H, hH, hHflag, hrest⟩
    have hHb : H ≠ b ∧ H ≠ l := by grind
    refine ⟨H, (hhas _ _).mpr ⟨hH, hHb.2⟩, ?_⟩
    rw [hslot H hHb.1 hHb.2]
    exact ⟨hHflag, hrest⟩
  case flag_kind =>
    intro q a ha haflag
    have := hC.flag_kind q a
    have hlive : (C.unshare b c l).Live = C.Live := rfl
    have hparent : (C.unshare b c l).parent = C.parent := rfl
    have hroot : (C.unshare b c l).root = C.root := rfl
    grind
  case structure_house =>
    intro q k hq hk
    rcases hC.structure_house q k hq hk with h | ⟨H, hH⟩
    . exact Or.inl h
    . right
      have hHb : H ≠ b ∧ H ≠ l := by
        have h₁ := hH.holder
        have h₂ := hH.start_eq
        have h₃ := hH.inChild_eq
        have h₄ := hC.live_ne_zero hq
        have h₅ := hlent.2
        have hunique : C.Has q l → q = c := fun h => hC.has_unique h hl
        have hstr : (C.unshare b c l).structures = C.structures := rfl
        grind
      exact ⟨H, hH.transfer rfl rfl (hslot H hHb.1 hHb.2) (fun hr => (hhas _ H).mpr ⟨hr, hHb.2⟩)
        fun _ hr => (hhas _ H).mpr ⟨hr, hHb.2⟩⟩
  case child_kind =>
    intro q a ha hapd
    have := hC.child_kind q a
    have hlive : (C.unshare b c l).Live = C.Live := rfl
    have hparent : (C.unshare b c l).parent = C.parent := rfl
    have hroot : (C.unshare b c l).root = C.root := rfl
    have hstr : (C.unshare b c l).structures = C.structures := rfl
    grind
  case location_kind =>
    intro q a ha haloc
    rcases (hhas q a).mp ha with ⟨ha, hal⟩
    have hab : a ≠ b := by
      intro heq
      rw [heq, hself] at haloc
      exact haloc rfl
    rw [hslot a hab hal] at haloc ⊢
    rcases hC.location_kind q a ha haloc with ⟨h₁, h₂, h₃, h₄⟩
    have hneql : (C.slot a).inChildLocation ≠ l := by
      intro heq
      rw [heq] at h₂ h₃ h₄
      rcases hC.child_kind q a ha h₁ with ⟨-, hp', hr', -⟩
      have hhost : C.Hosts (C.slot a).PDchild l a := by
        apply hC.hosts_of_origin hr' h₂
        . rw [hp']
          exact ha
        . rw [h₄]
      have hcc := hC.has_unique h₂ hl
      rw [hcc] at hhost
      have hb' : C.Hosts c l b := by
        apply hC.hosts_of_origin hcroot hl
        . rw [hparent]
          exact hb
        . rw [hlorigin]
      exact hab (hC.hosts_unique hl hhost hb')
    rw [hhas, (hfields _ hneql).1, (hfields _ hneql).2.2.1]
    exact ⟨h₁, ⟨h₂, hneql⟩, h₃, h₄⟩
  case host =>
    intro q a hroot ha
    rcases (hhas q a).mp ha with ⟨ha, hal⟩
    rcases hC.host q a hroot ha with ⟨B, hB⟩
    have hBb : B ≠ b := by
      intro heq
      rw [heq] at hB
      exact hal (honly q a ha hB)
    have hBl : B ≠ l := by
      intro heq
      rw [heq] at hB
      exact hB.lent.2 hloc
    rcases hfields a hal with ⟨-, h₂, h₃, h₄, h₅, h₆, h₇⟩
    refine ⟨B, hB.transfer rfl ((hhas _ _).mpr ⟨hB.has, hBl⟩) (hslot B hBb hBl) h₃ ?_ ?_ h₅ h₆ h₇⟩
    . rw [h₂]
      exact hB.end_le
    . rw [h₂, h₄]
      exact hB.end_eq
  case next_kind =>
    intro q a ha hanext
    rcases (hhas q a).mp ha with ⟨ha, hal⟩
    rw [(hfields a hal).2.2.2.1] at hanext ⊢
    have hnl : (C.slot a).next ≠ l := fun heq => hnext q a ha heq
    rcases hC.next_kind q a ha hanext with ⟨h₁, h₂, h₃⟩
    rw [hhas, (hfields _ hnl).1, (hfields a hal).2.1, (hfields _ hnl).2.2.1, (hfields a hal).2.2.1]
    exact ⟨⟨h₁, hnl⟩, h₂, h₃⟩
  case pred_kind =>
    intro q a ha hstart
    rcases (hhas q a).mp ha with ⟨ha, hal⟩
    rw [(hfields a hal).1, (hfields a hal).2.2.1] at hstart
    rcases hC.pred_kind q a ha hstart with ⟨a', ha', hnext'⟩
    have hal' : a' ≠ l := by
      intro heq
      rw [heq, huncut.2] at hnext'
      exact hC.owns_ne_zero ha.1 hnext'.symm
    refine ⟨a', (hhas _ _).mpr ⟨ha', hal'⟩, ?_⟩
    rw [(hfields a' hal').2.2.2.1]
    exact hnext'
  case origin_le =>
    intro q a ha
    rcases (hhas q a).mp ha with ⟨ha, hal⟩
    rw [(hfields a hal).1, (hfields a hal).2.2.1]
    exact hC.origin_le q a ha
  case start_lt =>
    intro q a ha
    rcases (hhas q a).mp ha with ⟨ha, hal⟩
    rw [(hfields a hal).1, (hfields a hal).2.1]
    exact hC.start_lt q a ha
  case end_lt =>
    intro q a ha
    rcases (hhas q a).mp ha with ⟨ha, hal⟩
    rw [(hfields a hal).2.1]
    exact hC.end_lt q a ha
  case disjoint =>
    intro q a a' ha ha' hne'
    rcases (hhas q a).mp ha with ⟨ha, hal⟩
    rcases (hhas q a').mp ha' with ⟨ha', hal'⟩
    rw [(hfields a hal).1, (hfields a hal).2.1, (hfields a' hal').1, (hfields a' hal').2.1]
    exact hC.disjoint q a a' ha ha' hne'
  case free_nodup =>
    intro q hq
    have := hC.free_nodup q hq
    have := hC.mem_free c l hlive
    have := hl.2
    have hfree' : (C.unshare b c l).free q = if q = c then l :: C.free c else C.free q := rfl
    grind
  case mem_free =>
    intro q a hq
    have := hC.mem_free q a hq
    have hfree' : (C.unshare b c l).free q = if q = c then l :: C.free c else C.free q := rfl
    have hunique : C.Owns q l → q = c := fun h => hC.owns_unique h hl.1
    have := hl.1
    have := hb.2
    have : Slot.empty.present = false := rfl
    show _ ↔ C.Owns q a ∧ _
    clear honly hnext hfields
    grind
  case free_empty =>
    intro q a ha hpresent
    have := hC.free_empty q a ha
    have := hb.2
    clear honly hnext hfields
    grind

theorem Inv.unshare (hC : C.Inv) {p b c l : Nat} (h : C.CanUnshare p b c l)
    : (C.unshare b c l).Inv := by
  have hS := hC.static
  have hne := h.ne hS
  have hhas := h.has_iff hS
  have hslot : ∀ a, a ≠ b → a ≠ l → (C.unshare b c l).slot a = C.slot a := by
    intro a
    exact CanUnshare.slot_other
  have hself : (C.unshare b c l).slot b =
      { C.slot b with PDchild := 0, inChildLocation := 0 } := CanUnshare.slot_self hne
  have hfields : ∀ a, a ≠ l → ((C.unshare b c l).slot a).startAddr = (C.slot a).startAddr ∧
      ((C.unshare b c l).slot a).origin = (C.slot a).origin ∧
      ((C.unshare b c l).slot a).next = (C.slot a).next ∧
      ((C.unshare b c l).slot a).accessible = (C.slot a).accessible ∧
      ((C.unshare b c l).slot a).PDflag = (C.slot a).PDflag := by
    intro a hal
    by_cases hab : a = b
    . rw [hab, hself]
      simp
    . rw [hslot a hab hal]
      simp
  refine ⟨hS.unshare h, ⟨?_, ?_, ?_⟩, ?_⟩
  . intro q a ha hflag
    rcases (hhas q a).mp ha with ⟨ha, hal⟩
    rw [(hfields a hal).2.2.2.2] at hflag
    rw [(hfields a hal).2.2.2.1]
    exact hC.closed.flag q a ha hflag
  . intro q a ha hpd hloc
    rcases (hhas q a).mp ha with ⟨ha, hal⟩
    have hab : a ≠ b := by
      intro heq
      rw [heq, hself] at hpd
      exact hpd rfl
    rw [hslot a hab hal] at hpd hloc ⊢
    exact hC.closed.given q a ha hpd hloc
  . intro q a ha hk
    rcases (hhas q a).mp ha with ⟨ha, hal⟩
    rw [(hfields a hal).1] at hk
    rw [(hfields a hal).2.2.2.1]
    exact hC.closed.own q a ha hk
  . intro q a hq ha B hB
    rcases (hhas q a).mp ha with ⟨ha, hal⟩
    rcases (hhas _ B).mp hB.has with ⟨hBhas, hBl⟩
    rcases hfields a hal with ⟨h₁, h₂, h₃, h₄, -⟩
    unfold Slot.Uncut
    rw [h₁, h₂, h₃, h₄, (hfields B hBl).2.2.2.1]
    apply hC.coherent q a hq ha B
    apply hS.hosts_of_origin hq ha hBhas
    have hstart := hB.start_eq
    rw [(hfields B hBl).1, h₂] at hstart
    exact hstart

end Conf
