import PipMpu.Spec.Walk

/-!
This module contains the abstract merge of a block with the one after it.
-/

namespace Conf

variable {C : Conf}

/--
Merge the block `b₂` of `p` into the block `b₁` before it.
-/
def join (C : Conf) (p b₁ b₂ : Nat) : Conf :=
  { C with
    slot := fun a =>
      if a = b₂ then
        Slot.empty
      else if a = b₁ then
        { C.slot b₁ with endAddr := (C.slot b₂).endAddr, next := (C.slot b₂).next }
      else
        C.slot a
    free := fun q => if q = p then b₂ :: C.free p else C.free q }

structure CanJoin (C : Conf) (p b₁ b₂ : Nat) : Prop where
  has₁ : C.Has p b₁
  has₂ : C.Has p b₂
  next_eq : (C.slot b₁).next = b₂
  PDchild₁ : (C.slot b₁).PDchild = 0
  PDchild₂ : (C.slot b₂).PDchild = 0
  flag₁ : (C.slot b₁).PDflag = false
  flag₂ : (C.slot b₂).PDflag = false
  notMem₁ : (C.slot b₁).startAddr ∉ C.structures p
  notMem₂ : (C.slot b₂).startAddr ∉ C.structures p

namespace CanJoin

variable {p b₁ b₂ : Nat}

theorem next_kind (hC : C.Static) (h : C.CanJoin p b₁ b₂)
    : (C.slot b₂).startAddr = (C.slot b₁).endAddr ∧ (C.slot b₂).origin = (C.slot b₁).origin := by
  have hne : (C.slot b₁).next ≠ 0 := by
    rw [h.next_eq]
    exact hC.owns_ne_zero h.has₂.1
  have := (hC.next_kind p b₁ h.has₁ hne).2
  rw [h.next_eq] at this
  exact this

theorem ne (hC : C.Static) (h : C.CanJoin p b₁ b₂) : b₁ ≠ b₂ := by
  intro heq
  have := (h.next_kind hC).1
  have := hC.start_lt p b₁ h.has₁
  rw [← heq] at *
  omega

theorem slot_freed : (C.join p b₁ b₂).slot b₂ = Slot.empty := by
  simp [join]

theorem slot_merged (hne : b₁ ≠ b₂)
    : (C.join p b₁ b₂).slot b₁
        =
      { C.slot b₁ with endAddr := (C.slot b₂).endAddr, next := (C.slot b₂).next } := by
  simp [join, hne]

theorem slot_other {a : Nat} (h₁ : a ≠ b₁) (h₂ : a ≠ b₂) : (C.join p b₁ b₂).slot a = C.slot a := by
  simp [join, h₁, h₂]

theorem has_iff (hC : C.Static) (h : C.CanJoin p b₁ b₂) (q a : Nat)
    : (C.join p b₁ b₂).Has q a ↔ C.Has q a ∧ a ≠ b₂ := by
  have hne := h.ne hC
  show C.Owns q a ∧ _ ↔ _
  by_cases h₂ : a = b₂
  . subst h₂
    simp [slot_freed, Slot.empty]
  . by_cases h₁ : a = b₁
    . subst h₁
      simp [slot_merged hne, hne, Has]
    . simp [slot_other h₁ h₂, h₂, Has]

theorem inChild_eq (hC : C.Static) (h : C.CanJoin p b₁ b₂)
    : (C.slot b₁).inChildLocation = 0 ∧ (C.slot b₂).inChildLocation = 0 := by
  constructor
  . by_contra hne
    exact (hC.location_kind p b₁ h.has₁ hne).1 h.PDchild₁
  . by_contra hne
    exact (hC.location_kind p b₂ h.has₂ hne).1 h.PDchild₂

/--
Only `b₁` goes on with `b₂`.
-/
theorem pred_unique (hC : C.Static) (h : C.CanJoin p b₁ b₂) {q a : Nat} (ha : C.Has q a)
    (hnext : (C.slot a).next = b₂) : a = b₁ := by
  have hne : (C.slot a).next ≠ 0 := by
    rw [hnext]
    exact hC.owns_ne_zero h.has₂.1
  rcases hC.next_kind q a ha hne with ⟨hhas, hstart, -⟩
  rw [hnext] at hhas hstart
  have hqp := hC.has_unique hhas h.has₂
  subst hqp
  by_contra hab
  have := hC.disjoint q a b₁ ha h.has₁ hab
  have := hC.start_lt q a ha
  have := hC.start_lt q b₁ h.has₁
  have := (h.next_kind hC).1
  omega

end CanJoin

theorem Static.join (hC : C.Static) {p b₁ b₂ : Nat} (h : C.CanJoin p b₁ b₂)
    : (C.join p b₁ b₂).Static := by
  have hne := h.ne hC
  have hhas := h.has_iff hC
  have hloc := h.inChild_eq hC
  have hkind := h.next_kind hC
  have hpred := @CanJoin.pred_unique C p b₁ b₂ hC h
  have hfreed : (C.join p b₁ b₂).slot b₂ = Slot.empty := CanJoin.slot_freed
  have hmerged : (C.join p b₁ b₂).slot b₁ =
      { C.slot b₁ with endAddr := (C.slot b₂).endAddr, next := (C.slot b₂).next } :=
    CanJoin.slot_merged hne
  have hslot : ∀ a, a ≠ b₁ → a ≠ b₂ → (C.join p b₁ b₂).slot a = C.slot a := by
    intro a
    exact CanJoin.slot_other
  rcases h with ⟨hb₁, hb₂, hnext, hpd₁, hpd₂, hflag₁, hflag₂, hmem₁, hmem₂⟩
  have hlt₁ := hC.start_lt p b₁ hb₁
  have hlt₂ := hC.start_lt p b₂ hb₂
  have hcover : ∀ q a x, (C.join p b₁ b₂).Has q a → x ∈ ((C.join p b₁ b₂).slot a).range →
      ∃ B, C.Has q B ∧ x ∈ (C.slot B).range := by
    intro q a x ha hx
    have hahas := (hhas q a).mp ha
    by_cases hab : a = b₁
    . subst hab
      have hqp := hC.has_unique hahas.1 hb₁
      subst hqp
      rw [hmerged] at hx
      rcases hx with ⟨h₁, h₂⟩
      by_cases hx₁ : x < (C.slot a).endAddr
      . exact ⟨a, hb₁, h₁, hx₁⟩
      . exact ⟨b₂, hb₂, by omega, h₂⟩
    . rw [hslot a hab hahas.2] at hx
      exact ⟨a, hahas.1, hx⟩
  constructor
  case cur_live => exact hC.cur_live
  case root_live => exact hC.root_live
  case root_ne => exact hC.root_ne
  case rootStructure_ne => exact hC.rootStructure_ne
  case rootStructure_mem => exact hC.rootStructure_mem
  case root_disjoint => exact hC.root_disjoint
  case depth_root => exact hC.depth_root
  case parent_live => exact hC.parent_live
  case depth_parent => exact hC.depth_parent
  case structures_nodup => exact hC.structures_nodup
  case structures_length => exact hC.structures_length
  case root_pd =>
    intro a ha
    refine Set.disjoint_left.mpr fun x hx hxa => ?_
    rcases hcover _ a x ha hxa with ⟨B, hB, hxB⟩
    exact Set.disjoint_left.mp (hC.root_pd B hB) hx hxB
  case root_structure =>
    intro a ha
    refine Set.disjoint_left.mpr fun x hx hxa => ?_
    rcases hcover _ a x ha hxa with ⟨B, hB, hxB⟩
    exact Set.disjoint_left.mp (hC.root_structure B hB) hx hxB
  case pd_house =>
    intro q hq hroot
    rcases hC.pd_house q hq hroot with ⟨H, hH, hHflag, hrest⟩
    refine ⟨H, (hhas _ _).mpr ⟨hH, by grind⟩, ?_⟩
    rw [hslot H (by grind) (by grind)]
    exact ⟨hHflag, hrest⟩
  case flag_kind =>
    intro q a ha haflag
    have := hC.flag_kind q a
    have hlive : (C.join p b₁ b₂).Live = C.Live := rfl
    have hparent : (C.join p b₁ b₂).parent = C.parent := rfl
    have hroot : (C.join p b₁ b₂).root = C.root := rfl
    grind
  case structure_house =>
    intro q k hq hk
    rcases hC.structure_house q k hq hk with h | ⟨H, hH⟩
    . exact Or.inl h
    . right
      have hstr : (C.join p b₁ b₂).structures = C.structures := rfl
      have hH' : H ≠ b₁ ∧ H ≠ b₂ := by
        have := hH.holder
        have := hH.start_eq
        have := hC.live_ne_zero hq
        have h₁ : C.Has q b₁ → q = p := fun h => hC.has_unique h hb₁
        have h₂ : C.Has q b₂ → q = p := fun h => hC.has_unique h hb₂
        grind
      exact ⟨H, hH.transfer rfl rfl (hslot H hH'.1 hH'.2) 
        (fun hr => (hhas _ H).mpr ⟨hr, hH'.2⟩) fun _ hr => (hhas _ H).mpr ⟨hr, hH'.2⟩⟩
  case child_kind =>
    intro q a ha hapd
    have := hC.child_kind q a
    have hlive : (C.join p b₁ b₂).Live = C.Live := rfl
    have hparent : (C.join p b₁ b₂).parent = C.parent := rfl
    have hroot : (C.join p b₁ b₂).root = C.root := rfl
    have hstr : (C.join p b₁ b₂).structures = C.structures := rfl
    grind
  case location_kind =>
    intro q a ha haloc
    have := hC.location_kind q a
    have := hC.origin_le p b₁ hb₁
    grind
  case host =>
    intro q a hq ha
    have hahas := (hhas q a).mp ha
    rcases hC.host q a hq hahas.1 with ⟨B, hB⟩
    have hBb : B ≠ b₁ ∧ B ≠ b₂ := by
      constructor
      . intro h
        rw [h] at hB
        exact hB.lent.2 hloc.1
      . intro h
        rw [h] at hB
        exact hB.lent.2 hloc.2
    have hBhas := (hhas _ B).mpr ⟨hB.has, hBb.2⟩
    have hBslot := hslot B hBb.1 hBb.2
    by_cases hab : a = b₁
    . -- the second block has the same host
      subst hab
      have hqp := hC.has_unique hahas.1 hb₁
      subst hqp
      rcases hC.host q b₂ hq hb₂ with ⟨B', hB'⟩
      have hBB' : B' = B := by
        apply hC.eq_of_mem_range hB'.has hB.has (hC.mem_range_start hB'.has)
        rw [hB'.start_eq, hkind.2, ← hB.start_eq]
        exact hC.mem_range_start hB.has
      rw [hBB'] at hB'
      refine ⟨B, hB.transfer rfl hBhas hBslot ?_ ?_ ?_ ?_ ?_ ?_⟩ <;> rw [hmerged]
      . exact hB'.end_le
      . exact hB'.end_eq
    . have haslot := hslot a hab hahas.2
      refine ⟨B, hB.transfer rfl hBhas hBslot ?_ ?_ ?_ ?_ ?_ ?_⟩ <;> rw [haslot]
      . exact hB.end_le
      . exact hB.end_eq
  case next_kind =>
    intro q a ha hanext
    have := hC.next_kind q a
    have := hC.next_kind p b₂ hb₂
    have hunique : C.Has q b₁ → q = p := fun h => hC.has_unique h hb₁
    have := @hpred q a
    grind
  case pred_kind =>
    intro q a ha hstart
    have hahas := (hhas q a).mp ha
    have hstart' : (C.slot a).startAddr ≠ (C.slot a).origin := by grind
    rcases hC.pred_kind q a hahas.1 hstart' with ⟨a', ha', hnext'⟩
    by_cases ha'b₂ : a' = b₂
    . refine ⟨b₁, (hhas _ _).mpr ⟨?_, hne⟩, ?_⟩
      . rw [ha'b₂] at ha'
        rw [hC.has_unique ha' hb₂]
        exact hb₁
      . rw [hmerged, ← ha'b₂]
        exact hnext'
    . exact ⟨a', by grind, by grind⟩
  case origin_le =>
    intro q a ha
    have := hC.origin_le q a
    grind
  case start_lt =>
    intro q a ha
    have := hC.start_lt q a
    grind
  case end_lt =>
    intro q a ha
    have := hC.end_lt q a
    have := hC.end_lt p b₂ hb₂
    grind
  case disjoint =>
    intro q a a' ha ha' haa'
    have := hC.disjoint q a a'
    have := hC.disjoint p b₂ a hb₂
    have := hC.disjoint p b₂ a' hb₂
    have := hC.disjoint p b₁ a hb₁
    have := hC.disjoint p b₁ a' hb₁
    have hunique : C.Has q b₁ → q = p := fun h => hC.has_unique h hb₁
    have := hC.start_lt q a
    have := hC.start_lt q a'
    grind
  case free_nodup =>
    intro q hq
    have := hC.free_nodup q hq
    have := hC.mem_free p b₂ hb₁.live
    have := hb₂.2
    have hfree' : (C.join p b₁ b₂).free q = if q = p then b₂ :: C.free p else C.free q := rfl
    grind
  case mem_free =>
    intro q a hq
    have := hC.mem_free q a hq
    have hfree' : (C.join p b₁ b₂).free q = if q = p then b₂ :: C.free p else C.free q := rfl
    have hunique : C.Owns q b₂ → q = p := fun h => hC.owns_unique h hb₂.1
    have := hb₂.1
    have := hb₁.2
    have : Slot.empty.present = false := rfl
    show _ ↔ C.Owns q a ∧ _
    grind
  case free_empty =>
    intro q a ha hpresent
    have := hC.free_empty q a ha
    have := hb₁.2
    grind

theorem Closed.join (hS : C.Static) (hC : C.Closed) {p b₁ b₂ : Nat} (h : C.CanJoin p b₁ b₂)
    : (C.join p b₁ b₂).Closed := by
  have hhas := h.has_iff hS
  have hmerged : (C.join p b₁ b₂).slot b₁ =
      { C.slot b₁ with endAddr := (C.slot b₂).endAddr, next := (C.slot b₂).next } :=
    CanJoin.slot_merged (h.ne hS)
  have hslot : ∀ a, a ≠ b₁ → a ≠ b₂ → (C.join p b₁ b₂).slot a = C.slot a := by
    intro a
    exact CanJoin.slot_other
  constructor
  . intro q a ha hflag
    have := hC.flag q a
    grind
  . intro q a ha hpd hloc
    have := hC.given q a
    grind
  . intro q a ha hk
    have hk : ((C.join p b₁ b₂).slot a).startAddr ∈ C.structures q := hk
    have := hC.own q a
    grind

theorem Static.coherentAt_join (hS : C.Static) {p b₁ b₂ : Nat} (h : C.CanJoin p b₁ b₂)
    (hcoh : C.Coherent) {q a : Nat} (hq : q ≠ C.root) (ha : (C.join p b₁ b₂).Has q a)
    (hab : a = b₁ → ¬((C.join p b₁ b₂).slot b₁).Uncut) : (C.join p b₁ b₂).CoherentAt q a := by
  have hhas := h.has_iff hS
  have hmerged : (C.join p b₁ b₂).slot b₁ =
      { C.slot b₁ with endAddr := (C.slot b₂).endAddr, next := (C.slot b₂).next } :=
    CanJoin.slot_merged (h.ne hS)
  have hslot : ∀ a, a ≠ b₁ → a ≠ b₂ → (C.join p b₁ b₂).slot a = C.slot a := by
    intro a
    exact CanJoin.slot_other
  have hloc := h.inChild_eq hS
  intro B hB
  have hBhas := (hhas _ B).mp hB.has
  have hBb : B ≠ b₁ := by
    intro heq
    have := hB.lent.2
    rw [heq, hmerged] at this
    exact this hloc.1
  have hBslot := hslot B hBb hBhas.2
  have hahas := (hhas q a).mp ha
  have hhosts : C.Hosts q a B := by
    apply hS.hosts_of_origin hq hahas.1 hBhas.1
    have hstart := hB.start_eq
    rw [hBslot] at hstart
    by_cases hab₁ : a = b₁
    . rw [hab₁, hmerged] at hstart
      rw [hab₁]
      exact hstart
    . rw [hslot a hab₁ hahas.2] at hstart
      exact hstart
  have hold := hcoh q a hq hahas.1 B hhosts
  rw [hBslot]
  by_cases hab₁ : a = b₁
  . subst hab₁
    have hcut : ¬(C.slot a).Uncut := by
      intro hu
      have := hS.owns_ne_zero h.has₂.1
      rw [← h.next_eq] at this
      exact this hu.2
    simp only [hcut, false_and, iff_false] at hold
    simp [hold, hab rfl]
  . rw [hslot a hab₁ hahas.2]
    exact hold

/--
The abstract `mergeMemoryBlocks`: the ancestors regain access to the block once it is whole again.
-/
noncomputable def merge (C : Conf) (p b₁ b₂ : Nat) : Conf :=
  (C.join p b₁ b₂).walkFrom p b₁ true

theorem Inv.merge (hC : C.Inv) {p b₁ b₂ : Nat} (h : C.CanJoin p b₁ b₂)
    (hacc : (C.slot b₁).accessible = true) : (C.merge p b₁ b₂).Inv := by
  have hS := hC.static
  have hSj := hS.join h
  have hCj := hC.closed.join hS h
  have hhas : (C.join p b₁ b₂).Has p b₁ := (h.has_iff hS p b₁).mpr ⟨h.has₁, h.ne hS⟩
  have haccj : ((C.join p b₁ b₂).slot b₁).accessible = true := by
    rw [CanJoin.slot_merged (h.ne hS)]
    exact hacc
  unfold Conf.merge
  by_cases huncut : ((C.join p b₁ b₂).slot b₁).Uncut
  . rw [walkFrom_of_uncut huncut]
    refine ⟨hSj.walk _ _ _ _, hCj.walk hSj hhas true, ?_⟩
    rw [← haccj]
    apply Coherent.walk hSj hhas huncut
    intro q a hq ha hab
    exact hS.coherentAt_join h hC.coherent hq ha fun heq => absurd heq hab
  . rw [walkFrom_of_cut huncut]
    refine ⟨hSj, hCj, ?_⟩
    intro q a hq ha
    exact hS.coherentAt_join h hC.coherent hq ha fun _ => huncut

end Conf
