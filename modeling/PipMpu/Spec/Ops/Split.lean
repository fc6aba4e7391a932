import PipMpu.Spec.Walk

/-!
This module contains the abstract cut of a block in two and the converse merge of a block with the
one after it.
-/

namespace Conf

variable {C : Conf}

/--
Cut the block `b` of `p` at `cutAddr`, the slot `f` takes the second part.
-/
def split (C : Conf) (p b f cutAddr : Nat) (rest : List Nat) : Conf :=
  { C with
    slot := fun a =>
      if a = f then
        { C.slot b with startAddr := cutAddr }
      else if a = b then
        { C.slot b with endAddr := cutAddr, next := f }
      else
        C.slot a
    free := fun q => if q = p then rest else C.free q }

structure CanSplit (C : Conf) (p b f cutAddr : Nat) (rest : List Nat) : Prop where
  has : C.Has p b
  PDchild_eq : (C.slot b).PDchild = 0
  flag_eq : (C.slot b).PDflag = false
  notMem : (C.slot b).startAddr ∉ C.structures p
  free_eq : C.free p = f :: rest
  start_lt : (C.slot b).startAddr < cutAddr
  lt_end : cutAddr < (C.slot b).endAddr

namespace CanSplit

variable {p b f cutAddr : Nat} {rest : List Nat}

theorem inChild_eq (hC : C.Static) (h : C.CanSplit p b f cutAddr rest)
    : (C.slot b).inChildLocation = 0 := by
  by_contra hne
  exact (hC.location_kind p b h.has hne).1 h.PDchild_eq

theorem free_slot (hC : C.Static) (h : C.CanSplit p b f cutAddr rest)
    : C.Owns p f ∧ (C.slot f).present = false := by
  rw [← hC.mem_free p f h.has.live, h.free_eq]
  simp

theorem ne (hC : C.Static) (h : C.CanSplit p b f cutAddr rest) : b ≠ f := by
  intro heq
  have := (h.free_slot hC).2
  rw [← heq, h.has.2] at this
  exact absurd this (by simp)

theorem slot_new : (C.split p b f cutAddr rest).slot f = { C.slot b with startAddr := cutAddr } := by
  simp [split]

theorem slot_cut (hne : b ≠ f)
    : (C.split p b f cutAddr rest).slot b = { C.slot b with endAddr := cutAddr, next := f } := by
  simp [split, hne]

theorem slot_other {a : Nat} (hb : a ≠ b) (hf : a ≠ f)
    : (C.split p b f cutAddr rest).slot a = C.slot a := by
  simp [split, hb, hf]

theorem has_iff (hC : C.Static) (h : C.CanSplit p b f cutAddr rest) (q a : Nat)
    : (C.split p b f cutAddr rest).Has q a ↔ C.Has q a ∨ (q = p ∧ a = f) := by
  have hf := h.free_slot hC
  have hne := h.ne hC
  show C.Owns q a ∧ _ ↔ _
  by_cases haf : a = f
  . subst haf
    simp only [slot_new, h.has.2, Has, hf.2]
    constructor
    . rintro ⟨how, -⟩
      exact Or.inr ⟨hC.owns_unique how hf.1, trivial⟩
    . rintro (⟨-, h⟩ | ⟨rfl, -⟩)
      . exact absurd h (by simp)
      . exact ⟨hf.1, trivial⟩
  . by_cases hab : a = b
    . subst hab
      simp [slot_cut hne, haf, Has]
    . simp [slot_other hab haf, haf, Has]

theorem not_has (hC : C.Static) (h : C.CanSplit p b f cutAddr rest) (q : Nat) : ¬C.Has q f := by
  intro hq
  have := (h.free_slot hC).2.symm.trans hq.2
  exact absurd this (by simp)

end CanSplit

theorem Static.split (hC : C.Static) {p b f cutAddr : Nat} {rest : List Nat}
    (h : C.CanSplit p b f cutAddr rest) : (C.split p b f cutAddr rest).Static := by
  have hf := h.free_slot hC
  have hne := h.ne hC
  have hhas := h.has_iff hC
  have hloc := h.inChild_eq hC
  have hb := h.has
  have hnot := h.not_has hC
  have hslot : ∀ a, a ≠ b → a ≠ f → (C.split p b f cutAddr rest).slot a = C.slot a := by
    intro a
    exact CanSplit.slot_other
  have hnew : (C.split p b f cutAddr rest).slot f = { C.slot b with startAddr := cutAddr } :=
    CanSplit.slot_new
  have hcut : (C.split p b f cutAddr rest).slot b = { C.slot b with endAddr := cutAddr, next := f } :=
    CanSplit.slot_cut hne
  rcases h with ⟨-, hpd, hflag, hmem, hfree, hlt, hlt'⟩
  have hsub : ∀ q a, (C.split p b f cutAddr rest).Has q a → ∃ B, C.Has q B ∧
      ((C.split p b f cutAddr rest).slot a).range ⊆ (C.slot B).range := by
    intro q a ha
    by_cases haf : a = f
    . subst haf
      refine ⟨b, by grind, ?_⟩
      rw [hnew]
      exact Set.Ico_subset_Ico_left (by simp only; omega)
    . by_cases hab : a = b
      . subst hab
        refine ⟨a, by grind, ?_⟩
        rw [hcut]
        exact Set.Ico_subset_Ico_right (by simp only; omega)
      . rw [hslot a hab haf]
        exact ⟨a, by grind, Set.Subset.rfl⟩
  constructor
  case cur_live => exact hC.cur_live
  case root_live => exact hC.root_live
  case root_ne => exact hC.root_ne
  case rootStructure_ne => exact hC.rootStructure_ne
  case rootStructure_mem => exact hC.rootStructure_mem
  case root_disjoint => exact hC.root_disjoint
  case depth_root => exact hC.depth_root
  case parent_live => exact hC.parent_live
  case depth_parent => exact hC.depth_parent
  case structures_nodup => exact hC.structures_nodup
  case structures_length => exact hC.structures_length
  case root_pd =>
    intro a ha
    rcases hsub _ a ha with ⟨B, hB, hsub⟩
    exact (hC.root_pd B hB).mono_right hsub
  case root_structure =>
    intro a ha
    rcases hsub _ a ha with ⟨B, hB, hsub⟩
    exact (hC.root_structure B hB).mono_right hsub
  case pd_house =>
    intro q hq hroot
    rcases hC.pd_house q hq hroot with ⟨H, hH, hHflag, hrest⟩
    refine ⟨H, (hhas _ _).mpr (Or.inl hH), ?_⟩
    rw [hslot H (by grind) (by grind)]
    exact ⟨hHflag, hrest⟩
  case flag_kind =>
    intro q a ha haflag
    have := hC.flag_kind q a
    have hlive : (C.split p b f cutAddr rest).Live = C.Live := rfl
    have hparent : (C.split p b f cutAddr rest).parent = C.parent := rfl
    have hroot : (C.split p b f cutAddr rest).root = C.root := rfl
    grind
  case structure_house =>
    intro q k hq hk
    rcases hC.structure_house q k hq hk with h | ⟨H, hH⟩
    . exact Or.inl h
    . right
      refine ⟨H, hH.transfer rfl rfl (hslot H ?_ ?_) (fun hr => (hhas _ H).mpr (Or.inl hr))
        fun _ hr => (hhas _ H).mpr (Or.inl hr)⟩
      . have := hH.holder
        have := hH.start_eq
        have := hC.live_ne_zero hq
        have := @hC.has_unique
        have hstr : (C.split p b f cutAddr rest).structures = C.structures := rfl
        grind
      . have := hH.has
        grind
  case child_kind =>
    intro q a ha hapd
    have := hC.child_kind q a
    have hlive : (C.split p b f cutAddr rest).Live = C.Live := rfl
    have hparent : (C.split p b f cutAddr rest).parent = C.parent := rfl
    have hroot : (C.split p b f cutAddr rest).root = C.root := rfl
    have hstr : (C.split p b f cutAddr rest).structures = C.structures := rfl
    grind
  case location_kind =>
    intro q a ha haloc
    have := hC.location_kind q a
    grind
  case host =>
    intro q a hq ha
    -- both parts stay in the block that `b` was made of
    have horigin : ∃ a', C.Has q a' ∧
        ((C.split p b f cutAddr rest).slot a).origin = (C.slot a').origin ∧
        ((C.split p b f cutAddr rest).slot a).endAddr ≤ (C.slot a').endAddr ∧
        (((C.split p b f cutAddr rest).slot a).next = 0 → (C.slot a').next = 0 ∧
          ((C.split p b f cutAddr rest).slot a).endAddr = (C.slot a').endAddr) ∧
        ((C.split p b f cutAddr rest).slot a).read = (C.slot a').read ∧
        ((C.split p b f cutAddr rest).slot a).write = (C.slot a').write ∧
        ((C.split p b f cutAddr rest).slot a).exec = (C.slot a').exec := by
      have := hC.owns_ne_zero hf.1
      by_cases haf : a = f
      . refine ⟨b, by grind, ?_⟩
        rw [haf, hnew]
        simp
      . refine ⟨a, by grind, ?_⟩
        by_cases hab : a = b
        . rw [hab, hcut]
          simp only
          grind
        . rw [hslot a hab haf]
          simp
    rcases horigin with ⟨a', ha', ho, hend, hnext, hr, hw, hx⟩
    rcases hC.host q a' hq ha' with ⟨B, hB⟩
    have hBb : B ≠ b := by
      intro h
      rw [h] at hB
      exact hB.lent.2 hloc
    have hBf : B ≠ f := by
      intro h
      exact hnot _ (h ▸ hB.has)
    refine ⟨B, hB.transfer rfl ((hhas _ _).mpr (Or.inl hB.has)) (hslot B hBb hBf) ho
      (hend.trans hB.end_le) ?_ hr hw hx⟩
    intro h
    rw [(hnext h).2]
    exact hB.end_eq (hnext h).1
  case next_kind =>
    intro q a ha hanext
    have := hC.next_kind q a
    have := hC.next_kind p b hb
    have := hC.start_lt p b hb
    have := hnot q
    have hunique : C.Has q b → q = p := fun h => hC.has_unique h hb
    clear hsub
    grind
  case pred_kind =>
    intro q a ha hstart
    by_cases haf : a = f
    . refine ⟨b, by grind, ?_⟩
      rw [hcut, haf]
    . have hold : C.Has q a := by grind
      have : (C.slot a).startAddr ≠ (C.slot a).origin := by grind
      rcases hC.pred_kind q a hold this with ⟨a', ha', hnext⟩
      by_cases hab : a' = b
      . refine ⟨f, by grind [hC.has_unique], ?_⟩
        rw [hnew, ← hnext, hab]
      . have := hnot q
        exact ⟨a', by grind, by grind⟩
  case origin_le =>
    intro q a ha
    have := hC.origin_le q a
    have := hC.origin_le p b hb
    grind
  case start_lt =>
    intro q a ha
    have := hC.start_lt q a
    grind
  case end_lt =>
    intro q a ha
    have := hC.end_lt q a
    have := hC.end_lt p b hb
    grind
  case disjoint =>
    intro q a a' ha ha' haa'
    have := hC.disjoint q
    grind
  case free_nodup =>
    intro q hq
    have := hC.free_nodup q hq
    have hfree' : (C.split p b f cutAddr rest).free q = if q = p then rest else C.free q := rfl
    grind
  case mem_free =>
    intro q a hq
    have := hC.mem_free q a hq
    have := hC.free_nodup p hb.live
    have hfree' : (C.split p b f cutAddr rest).free q = if q = p then rest else C.free q := rfl
    have hunique : C.Owns q f → q = p := fun h => hC.owns_unique h hf.1
    have hpresent := hb.2
    show _ ↔ C.Owns q a ∧ _
    grind
  case free_empty =>
    intro q a ha hpresent
    have := hC.free_empty q a ha
    have := hb.2
    grind

theorem Closed.split (hS : C.Static) (hC : C.Closed) {p b f cutAddr : Nat} {rest : List Nat}
    (h : C.CanSplit p b f cutAddr rest) : (C.split p b f cutAddr rest).Closed := by
  have hhas := h.has_iff hS
  have hne := h.ne hS
  have hnew : (C.split p b f cutAddr rest).slot f = { C.slot b with startAddr := cutAddr } :=
    CanSplit.slot_new
  have hcut : (C.split p b f cutAddr rest).slot b = { C.slot b with endAddr := cutAddr, next := f } :=
    CanSplit.slot_cut hne
  have hslot : ∀ a, a ≠ b → a ≠ f → (C.split p b f cutAddr rest).slot a = C.slot a := by
    intro a
    exact CanSplit.slot_other
  have hb := h.has
  constructor
  . intro q a ha hflag
    have := hC.flag q a
    have := h.flag_eq
    grind
  . intro q a ha hpd hloc
    have := hC.given q a
    have := h.PDchild_eq
    grind
  . intro q a ha hk
    have hk : ((C.split p b f cutAddr rest).slot a).startAddr ∈ C.structures q := hk
    have := hC.own q a
    have := h.notMem
    have := h.start_lt
    have := h.lt_end
    have hcutAddr : cutAddr ∉ C.structures p := by
      intro hmem
      have := (hS.start_eq_of_structure hb hmem ⟨by omega, by omega⟩).1
      omega
    have hunique : C.Has q b → q = p := fun h => hS.has_unique h hb
    have := h.not_has hS q
    grind

/--
The abstract `cutMemoryBlock`: the ancestors lose access to an uncut block before it is cut.
-/
noncomputable def cut (C : Conf) (p b f cutAddr : Nat) (rest : List Nat) : Conf :=
  (C.walkFrom p b false).split p b f cutAddr rest

theorem Static.coherent_split (hS : C.Static) {p b f cutAddr : Nat} {rest : List Nat}
    (h : C.CanSplit p b f cutAddr rest)
    (hcoh : ∀ q a, q ≠ C.root → C.Has q a → a ≠ b → C.CoherentAt q a)
    (hhost : ∀ B, p ≠ C.root → C.Hosts p b B → (C.slot B).accessible = false)
    : (C.split p b f cutAddr rest).Coherent := by
  have hhas := h.has_iff hS
  have hne := h.ne hS
  have hnew : (C.split p b f cutAddr rest).slot f = { C.slot b with startAddr := cutAddr } :=
    CanSplit.slot_new
  have hcut : (C.split p b f cutAddr rest).slot b = { C.slot b with endAddr := cutAddr, next := f } :=
    CanSplit.slot_cut hne
  have hslot : ∀ a, a ≠ b → a ≠ f → (C.split p b f cutAddr rest).slot a = C.slot a := by
    intro a
    exact CanSplit.slot_other
  have hloc := h.inChild_eq hS
  have hb := h.has
  have hlt := h.start_lt
  have hlt' := h.lt_end
  intro q a hq ha B hB
  have hBb : B ≠ b := by
    intro h
    have := hB.lent.2
    rw [h, hcut] at this
    exact this hloc
  have hBf : B ≠ f := by
    intro h
    have := hB.lent.2
    rw [h, hnew] at this
    exact this hloc
  have hBhas : C.Has (C.parent q) B := by
    rcases (hhas _ _).mp hB.has with h | h
    . exact h
    . exact absurd h.2 hBf
  have hBslot := hslot B hBb hBf
  have hstart := hB.start_eq
  rw [hBslot] at hstart ⊢
  by_cases hab : a = b ∨ a = f
  . -- both parts are cut, and the block `b` was made of is not accessible
    have hqp : q = p := by
      have hunique : C.Has q b → q = p := fun h => hS.has_unique h hb
      have := h.not_has hS q
      grind
    subst hqp
    have horigin := hS.origin_le q b hb
    have hacc : (C.slot B).accessible = false := by
      apply hhost B hq
      apply hS.hosts_of_origin hq hb hBhas
      rcases hab with hab | hab
      . rw [hab, hcut] at hstart
        exact hstart
      . rw [hab, hnew] at hstart
        exact hstart
    have hcutted : ¬((C.split q b f cutAddr rest).slot a).Uncut := by
      rintro ⟨h₁, h₂⟩
      rcases hab with hab | hab
      . rw [hab, hcut] at h₂
        exact hS.owns_ne_zero (h.free_slot hS).1 h₂
      . rw [hab, hnew] at h₁
        simp only at h₁
        omega
    simp [hacc, hcutted]
  . have haslot := hslot a (by grind) (by grind)
    have hahas : C.Has q a := by grind
    rw [haslot] at hstart ⊢
    have hhosts := hS.hosts_of_origin hq hahas hBhas hstart
    exact hcoh q a hq hahas (by grind) B hhosts

theorem CanSplit.walk {p b f cutAddr : Nat} {rest : List Nat} (h : C.CanSplit p b f cutAddr rest)
    (q lo hi : Nat) (v : Bool) : (C.walk q lo hi v).CanSplit p b f cutAddr rest := by
  rcases h with ⟨h₁, h₂, h₃, h₄, h₅, h₆, h₇⟩
  constructor <;> simpa [Conf.walk]

theorem CanSplit.walkFrom {p b f cutAddr : Nat} {rest : List Nat}
    (h : C.CanSplit p b f cutAddr rest) (v : Bool) : (C.walkFrom p b v).CanSplit p b f cutAddr rest := by
  by_cases huncut : (C.slot b).Uncut
  . rw [walkFrom_of_uncut huncut]
    exact h.walk p _ _ v
  . rw [walkFrom_of_cut huncut]
    exact h

theorem Inv.cut (hC : C.Inv) {p b f cutAddr : Nat} {rest : List Nat}
    (h : C.CanSplit p b f cutAddr rest) : (C.cut p b f cutAddr rest).Inv := by
  have hS := hC.static
  unfold Conf.cut
  by_cases huncut : (C.slot b).Uncut
  . rw [walkFrom_of_uncut huncut]
    have hSw := hS.walk p (C.slot b).startAddr (C.slot b).endAddr false
    have hCw := hC.closed.walk hS h.has false
    have hw := h.walk p (C.slot b).startAddr (C.slot b).endAddr false
    refine ⟨hSw.split hw, hCw.split hSw hw, hSw.coherent_split hw ?_ ?_⟩
    . intro q a hq ha hab
      simp only [Conf.walk, setAccessible.root, setAccessible.has] at hq ha
      refine hS.coherentAt_walk h.has huncut ?_ false hq ha fun h => absurd h hab
      intro q a hq ha _
      exact hC.coherent q a hq ha
    . intro B hp hB
      simp only [Conf.walk, setAccessible.root, setAccessible.hosts] at hp hB
      exact hS.accessible_walk_host hp h.has huncut hB false
  . rw [walkFrom_of_cut huncut]
    refine ⟨hS.split h, hC.closed.split hS h, hS.coherent_split h ?_ ?_⟩
    . intro q a hq ha _
      exact hC.coherent q a hq ha
    . intro B hp hB
      have := hC.coherent p b hp h.has B hB
      simpa [huncut] using this

end Conf
