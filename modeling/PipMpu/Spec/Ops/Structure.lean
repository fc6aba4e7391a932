import PipMpu.Spec.Walk

/-!
This module contains the abstract change of the list of kernel structures: a block becomes a new
structure, and an empty structure becomes a block again.
-/

namespace Conf

variable {C : Conf}

/--
Make the block `b` of `p` the first structure of `t`.
-/
def link (C : Conf) (t p b : Nat) : Conf :=
  { C with
    structures := fun q =>
      if q = t then (C.slot b).startAddr :: C.structures t else C.structures q
    free := fun q => if q = t then slotsOf (C.slot b).startAddr ++ C.free t else C.free q
    slot := fun a =>
      if a ∈ slotsOf (C.slot b).startAddr then
        Slot.empty
      else if a = b then
        { C.slot b with PDchild := if t = p then 0 else t }
      else
        C.slot a }

structure CanLink (C : Conf) (t p b : Nat) : Prop where
  has : C.Has p b
  accessible_eq : (C.slot b).accessible = false
  PDchild_eq : (C.slot b).PDchild = 0
  flag_eq : (C.slot b).PDflag = false
  notMem : (C.slot b).startAddr ∉ C.structures p
  size_le : (C.slot b).startAddr + sizeofKStructure ≤ (C.slot b).endAddr
  ram_le : ramStart ≤ (C.slot b).startAddr
  target : t = p ∨ (C.Live t ∧ t ≠ C.root ∧ C.parent t = p)
  length_lt : (C.structures t).length < 8
  fresh : ∀ q k, C.Live q → k ∈ C.structures q →
    Disjoint (structureRange k) (structureRange (C.slot b).startAddr)

namespace CanLink

variable {t p b : Nat}

theorem inChild_eq (hC : C.Static) (h : C.CanLink t p b) : (C.slot b).inChildLocation = 0 := by
  by_contra hne
  exact (hC.location_kind p b h.has hne).1 h.PDchild_eq

theorem live (h : C.CanLink t p b) : C.Live t := by
  rcases h.target with h' | ⟨h', -⟩
  . rw [h']
    exact h.has.live
  . exact h'

theorem not_owns_new (h : C.CanLink t p b) {q a : Nat} (ha : a ∈ slotsOf (C.slot b).startAddr)
    : ¬C.Owns q a := by
  rintro ⟨hq, k, hk, hak⟩
  exact Set.disjoint_left.mp (h.fresh q k hq hk) (slotsOf_mem_structureRange hak)
    (slotsOf_mem_structureRange ha)

theorem slot_new {a : Nat} (ha : a ∈ slotsOf (C.slot b).startAddr)
    : (C.link t p b).slot a = Slot.empty := by
  simp [link, ha]

theorem slot_self (h : C.CanLink t p b)
    : (C.link t p b).slot b = { C.slot b with PDchild := if t = p then 0 else t } := by
  have hb : b ∉ slotsOf (C.slot b).startAddr := fun hb => h.not_owns_new hb h.has.1
  simp [link, hb]

theorem slot_other (h : C.CanLink t p b) {q a : Nat} (ha : C.Owns q a) (hab : a ≠ b)
    : (C.link t p b).slot a = C.slot a := by
  have ha : a ∉ slotsOf (C.slot b).startAddr := fun ha' => h.not_owns_new ha' ha
  simp [link, ha, hab]

theorem owns_iff (h : C.CanLink t p b) (q a : Nat)
    : (C.link t p b).Owns q a ↔ C.Owns q a ∨ (q = t ∧ a ∈ slotsOf (C.slot b).startAddr) := by
  have hlive := h.live
  unfold Owns link
  by_cases hq : q = t
  . subst hq
    simp [hlive]
    grind
  . simp [hq]

theorem has_iff (h : C.CanLink t p b) (q a : Nat) : (C.link t p b).Has q a ↔ C.Has q a := by
  unfold Has
  rw [h.owns_iff]
  constructor
  . rintro ⟨ha | ⟨-, ha⟩, hpresent⟩
    . refine ⟨ha, ?_⟩
      by_cases hab : a = b
      . rw [hab]
        exact h.has.2
      . rw [h.slot_other ha hab] at hpresent
        exact hpresent
    . rw [slot_new ha] at hpresent
      exact absurd hpresent (by simp [Slot.empty])
  . rintro ⟨ha, hpresent⟩
    refine ⟨Or.inl ha, ?_⟩
    by_cases hab : a = b
    . rw [hab, h.slot_self]
      exact h.has.2
    . rw [h.slot_other ha hab]
      exact hpresent

/--
Only the child of `b` changes, all other slots of live partitions keep their fields.
-/
theorem fields (h : C.CanLink t p b) {q a : Nat} (ha : C.Owns q a)
    : ((C.link t p b).slot a).startAddr = (C.slot a).startAddr
        ∧ ((C.link t p b).slot a).endAddr = (C.slot a).endAddr
        ∧ ((C.link t p b).slot a).origin = (C.slot a).origin
        ∧ ((C.link t p b).slot a).next = (C.slot a).next
        ∧ ((C.link t p b).slot a).accessible = (C.slot a).accessible
        ∧ ((C.link t p b).slot a).PDflag = (C.slot a).PDflag
        ∧ ((C.link t p b).slot a).inChildLocation = (C.slot a).inChildLocation
        ∧ ((C.link t p b).slot a).read = (C.slot a).read
        ∧ ((C.link t p b).slot a).write = (C.slot a).write
        ∧ ((C.link t p b).slot a).exec = (C.slot a).exec
        ∧ ((C.link t p b).slot a).present = (C.slot a).present := by
  by_cases hab : a = b
  . rw [hab, h.slot_self]
    simp
  . rw [h.slot_other ha hab]
    simp

theorem structures_self : (C.link t p b).structures t = (C.slot b).startAddr :: C.structures t := by
  simp [link]

theorem structures_other {q : Nat} (hq : q ≠ t) : (C.link t p b).structures q = C.structures q := by
  simp [link, hq]

theorem mem_structures {q k : Nat} (hk : k ∈ C.structures q) : k ∈ (C.link t p b).structures q := by
  by_cases hq : q = t
  . subst hq
    rw [structures_self]
    exact List.mem_cons_of_mem _ hk
  . rw [structures_other hq]
    exact hk

theorem notMem_target (h : C.CanLink t p b) : (C.slot b).startAddr ∉ C.structures t := by
  intro hk
  exact Set.disjoint_left.mp (h.fresh t _ h.live hk) (mem_structureRange_self _)
    (mem_structureRange_self _)

theorem houses (hC : C.Static) (h : C.CanLink t p b)
    : (C.link t p b).Houses t (C.slot b).startAddr b := by
  have hhas : (C.link t p b).Has p b := (h.has_iff p b).mpr h.has
  have hself := h.slot_self
  constructor
  case start_eq => rw [hself]
  case end_le =>
    rw [hself]
    exact h.size_le
  case ram_le => exact h.ram_le
  case flag_eq =>
    rw [hself]
    exact h.flag_eq
  case inChild_eq =>
    rw [hself]
    exact h.inChild_eq hC
  case holder =>
    rw [hself]
    rcases h.target with rfl | ⟨hlive, hroot, hparent⟩
    . exact .inl ⟨hhas, if_pos rfl⟩
    . right
      have hne : t ≠ p := by
        rw [← hparent]
        exact (hC.parent_ne hlive hroot).symm
      refine ⟨hroot, ?_, if_neg hne⟩
      show (C.link t p b).Has (C.parent t) b
      rw [hparent]
      exact hhas

end CanLink

theorem Static.link (hC : C.Static) {t p b : Nat} (h : C.CanLink t p b) : (C.link t p b).Static := by
  have hhas := h.has_iff
  have hfields := @CanLink.fields C t p b h
  have hloc := h.inChild_eq hC
  have hb := h.has
  have hslot := fun q a (ha : C.Has q a) => h.slot_other (q := q) (a := a) ha.1
  have hself := h.slot_self
  have hkeep := @CanLink.mem_structures C t p b
  constructor
  case cur_live => exact hC.cur_live
  case root_live => exact hC.root_live
  case root_ne => exact hC.root_ne
  case rootStructure_ne => exact hC.rootStructure_ne
  case rootStructure_mem => exact hkeep hC.rootStructure_mem
  case root_disjoint => exact hC.root_disjoint
  case root_pd =>
    intro a ha
    have ha := (hhas _ a).mp ha
    unfold Slot.range
    rw [(hfields ha.1).1, (hfields ha.1).2.1]
    exact hC.root_pd a ha
  case root_structure =>
    intro a ha
    have ha := (hhas _ a).mp ha
    unfold Slot.range
    rw [(hfields ha.1).1, (hfields ha.1).2.1]
    exact hC.root_structure a ha
  case depth_root => exact hC.depth_root
  case parent_live => exact hC.parent_live
  case depth_parent => exact hC.depth_parent
  case pd_house =>
    intro q hq hroot
    rcases hC.pd_house q hq hroot with ⟨H, hH, hflag, hrest⟩
    refine ⟨H, (hhas _ _).mpr hH, ?_⟩
    rw [hslot _ H hH (by have := h.flag_eq; grind)]
    exact ⟨hflag, hrest⟩
  case flag_kind =>
    intro q a ha hflag
    replace ha := (hhas q a).mp ha
    rw [(hfields ha.1).2.2.2.2.2.1] at hflag
    rw [hslot q a ha (by have := h.flag_eq; grind)]
    exact hC.flag_kind q a ha hflag
  case structure_house =>
    intro q k hq hk
    by_cases hnew : q = t ∧ k = (C.slot b).startAddr
    . rcases hnew with ⟨rfl, rfl⟩
      exact Or.inr ⟨b, h.houses hC⟩
    . have hk : k ∈ C.structures q := by
        by_cases hqt : q = t
        . subst hqt
          rw [CanLink.structures_self] at hk
          rcases List.mem_cons.mp hk with hk | hk
          . exact absurd ⟨rfl, hk⟩ hnew
          . exact hk
        . rw [CanLink.structures_other hqt] at hk
          exact hk
      rcases hC.structure_house q k hq hk with h' | ⟨H, hH⟩
      . exact Or.inl h'
      . right
        have hHb : H ≠ b := by
          intro heq
          have h₁ := hH.holder
          have h₂ := hH.start_eq
          have h₃ := hC.live_ne_zero hq
          have h₄ := h.PDchild_eq
          have h₅ := h.notMem
          have hunique : C.Has q b → q = p := fun h => hC.has_unique h hb
          grind
        rcases hH.has with ⟨r, hr⟩
        exact ⟨H, hH.transfer rfl rfl (hslot r H hr hHb) (hhas _ H).mpr fun _ => (hhas _ H).mpr⟩
  case structures_nodup =>
    intro q hq
    by_cases hqt : q = t
    . subst hqt
      rw [CanLink.structures_self]
      exact List.nodup_cons.mpr ⟨h.notMem_target, hC.structures_nodup q hq⟩
    . rw [CanLink.structures_other hqt]
      exact hC.structures_nodup q hq
  case structures_length =>
    intro q hq
    by_cases hqt : q = t
    . subst hqt
      rw [CanLink.structures_self]
      have := h.length_lt
      simp only [List.length_cons]
      omega
    . rw [CanLink.structures_other hqt]
      exact hC.structures_length q hq
  case child_kind =>
    intro q a ha hpd
    replace ha := (hhas q a).mp ha
    by_cases hab : a = b
    . subst hab
      have hqp := hC.has_unique ha hb
      subst hqp
      rw [hself] at hpd ⊢
      rcases h.target with heq | ⟨hlive, hroot, hparent⟩
      . exact absurd hpd (by simp [heq])
      . have hne : t ≠ q := by
          rw [← hparent]
          exact (hC.parent_ne hlive hroot).symm
        simp only [hne, if_false, CanLink.structures_self]
        exact ⟨hlive, hparent, hroot, fun _ => List.mem_cons_self⟩
    . rw [hslot q a ha hab] at hpd ⊢
      rcases hC.child_kind q a ha hpd with ⟨h₁, h₂, h₃, h₄⟩
      exact ⟨h₁, h₂, h₃, fun h => hkeep (h₄ h)⟩
  case location_kind =>
    intro q a ha haloc
    replace ha := (hhas q a).mp ha
    rw [(hfields ha.1).2.2.2.2.2.2.1] at haloc ⊢
    have hab : a ≠ b := by
      intro heq
      rw [heq] at haloc
      exact haloc hloc
    rw [hslot q a ha hab]
    rcases hC.location_kind q a ha haloc with ⟨h₁, h₂, h₃, h₄⟩
    rw [hhas, (hfields h₂.1).1, (hfields h₂.1).2.2.1]
    exact ⟨h₁, h₂, h₃, h₄⟩
  case host =>
    intro q a hroot ha
    replace ha := (hhas q a).mp ha
    rcases hC.host q a hroot ha with ⟨B, hB⟩
    have hBb : B ≠ b := by
      intro heq
      rw [heq] at hB
      exact hB.lent.2 hloc
    rcases hfields ha.1 with ⟨-, h₂, h₃, h₄, -, -, -, h₈, h₉, h₁₀, -⟩
    refine ⟨B, hB.transfer rfl ((hhas _ _).mpr hB.has) (hslot _ B hB.has hBb) h₃ ?_ ?_ h₈ h₉ h₁₀⟩
    . rw [h₂]
      exact hB.end_le
    . rw [h₂, h₄]
      exact hB.end_eq
  case next_kind =>
    intro q a ha hnext
    replace ha := (hhas q a).mp ha
    rw [(hfields ha.1).2.2.2.1] at hnext ⊢
    rcases hC.next_kind q a ha hnext with ⟨h₁, h₂, h₃⟩
    rw [hhas, (hfields h₁.1).1, (hfields ha.1).2.1, (hfields h₁.1).2.2.1, (hfields ha.1).2.2.1]
    exact ⟨h₁, h₂, h₃⟩
  case pred_kind =>
    intro q a ha hstart
    replace ha := (hhas q a).mp ha
    rw [(hfields ha.1).1, (hfields ha.1).2.2.1] at hstart
    rcases hC.pred_kind q a ha hstart with ⟨a', ha', hnext⟩
    refine ⟨a', (hhas _ _).mpr ha', ?_⟩
    rw [(hfields ha'.1).2.2.2.1]
    exact hnext
  case origin_le =>
    intro q a ha
    replace ha := (hhas q a).mp ha
    rw [(hfields ha.1).1, (hfields ha.1).2.2.1]
    exact hC.origin_le q a ha
  case start_lt =>
    intro q a ha
    replace ha := (hhas q a).mp ha
    rw [(hfields ha.1).1, (hfields ha.1).2.1]
    exact hC.start_lt q a ha
  case end_lt =>
    intro q a ha
    replace ha := (hhas q a).mp ha
    rw [(hfields ha.1).2.1]
    exact hC.end_lt q a ha
  case disjoint =>
    intro q a a' ha ha' hne
    replace ha := (hhas q a).mp ha
    have ha' := (hhas q a').mp ha'
    rw [(hfields ha.1).1, (hfields ha.1).2.1, (hfields ha'.1).1, (hfields ha'.1).2.1]
    exact hC.disjoint q a a' ha ha' hne
  case free_nodup =>
    intro q hq
    by_cases hqt : q = t
    . subst hqt
      have hfree : (C.link q p b).free q = slotsOf (C.slot b).startAddr ++ C.free q := by
        simp [Conf.link]
      rw [hfree]
      refine List.Nodup.append (slotsOf_nodup _) (hC.free_nodup q hq) ?_
      intro a ha ha'
      exact h.not_owns_new ha ((hC.mem_free q a hq).mp ha').1
    . have hfree : (C.link t p b).free q = C.free q := by simp [Conf.link, hqt]
      rw [hfree]
      exact hC.free_nodup q hq
  case mem_free =>
    intro q a hq
    rw [h.owns_iff]
    have hfree := hC.mem_free q a hq
    have hold : C.Owns q a → ((C.link t p b).slot a).present = (C.slot a).present :=
      fun h => (hfields h).2.2.2.2.2.2.2.2.2.2
    have hnew : a ∈ slotsOf (C.slot b).startAddr → ((C.link t p b).slot a).present = false := by
      intro ha
      rw [CanLink.slot_new ha]
      rfl
    by_cases hqt : q = t
    . subst hqt
      have hfree' : (C.link q p b).free q = slotsOf (C.slot b).startAddr ++ C.free q := by
        simp [Conf.link]
      rw [hfree', List.mem_append, hfree]
      grind
    . have hfree' : (C.link t p b).free q = C.free q := by simp [Conf.link, hqt]
      rw [hfree', hfree]
      grind
  case free_empty =>
    intro q a ha hpresent
    rcases (h.owns_iff q a).mp ha with ha | ⟨-, ha⟩
    . rw [(hfields ha).2.2.2.2.2.2.2.2.2.2] at hpresent
      have hab : a ≠ b := by
        intro heq
        rw [heq, hb.2] at hpresent
        exact absurd hpresent (by simp)
      rw [h.slot_other ha hab]
      exact hC.free_empty q a ha hpresent
    . exact CanLink.slot_new ha

theorem Inv.link (hC : C.Inv) {t p b : Nat} (h : C.CanLink t p b) : (C.link t p b).Inv := by
  have hS := hC.static
  have hhas := h.has_iff
  have hfields := @CanLink.fields C t p b h
  have hself := h.slot_self
  refine ⟨hS.link h, ⟨?_, ?_, ?_⟩, ?_⟩
  . intro q a ha hflag
    replace ha := (hhas q a).mp ha
    rw [(hfields ha.1).2.2.2.2.2.1] at hflag
    rw [(hfields ha.1).2.2.2.2.1]
    exact hC.closed.flag q a ha hflag
  . intro q a ha hpd hloc
    replace ha := (hhas q a).mp ha
    rw [(hfields ha.1).2.2.2.2.2.2.1] at hloc
    rw [(hfields ha.1).2.2.2.2.1]
    by_cases hab : a = b
    . rw [hab]
      exact h.accessible_eq
    . rw [h.slot_other ha.1 hab] at hpd
      exact hC.closed.given q a ha hpd hloc
  . intro q a ha hk
    replace ha := (hhas q a).mp ha
    rw [(hfields ha.1).1] at hk
    rw [(hfields ha.1).2.2.2.2.1]
    by_cases hmem : (C.slot a).startAddr ∈ C.structures q
    . exact hC.closed.own q a ha hmem
    . -- only the block of the new structure can start there
      have hqt : q = t := by
        by_contra hqt
        rw [CanLink.structures_other hqt] at hk
        exact hmem hk
      subst hqt
      rw [CanLink.structures_self] at hk
      have hstart : (C.slot a).startAddr = (C.slot b).startAddr := by
        rcases List.mem_cons.mp hk with hk | hk
        . exact hk
        . exact absurd hk hmem
      have hx := hS.mem_range_start ha
      have hxb := hS.mem_range_start h.has
      rw [← hstart] at hxb
      rcases h.target with heq | ⟨-, hroot, hparent⟩
      . subst heq
        rw [hS.eq_of_mem_range ha h.has hx hxb]
        exact h.accessible_eq
      . have hb := h.has
        rw [← hparent] at hb
        exact absurd (h.inChild_eq hS) (hS.hosts_of_mem_range hroot ha hb hx hxb).lent.2
  . intro q a hq ha B hB
    replace ha := (hhas q a).mp ha
    have hBhas := (hhas _ B).mp hB.has
    rcases hfields ha.1 with ⟨h₁, -, h₃, h₄, h₅, -⟩
    unfold Slot.Uncut
    rw [h₁, h₃, h₄, h₅, (hfields hBhas.1).2.2.2.2.1]
    apply hC.coherent q a hq ha B
    apply hS.hosts_of_origin hq ha hBhas
    have hstart := hB.start_eq
    rw [(hfields hBhas.1).1, h₃] at hstart
    exact hstart

/-
Removal of an empty structure
-/

/--
Take the structure `k`, which lies in the block `b`, out of the structures of `t`.
-/
def unlink (C : Conf) (t k b : Nat) : Conf :=
  { C with
    structures := fun q => if q = t then (C.structures t).erase k else C.structures q
    free := fun q => if q = t then (C.free t).filter (· ∉ slotsOf k) else C.free q
    slot := fun a => if a = b then (C.slot b).clearSh1 else C.slot a }

structure CanUnlink (C : Conf) (t k b : Nat) : Prop where
  live : C.Live t
  mem : k ∈ C.structures t
  houses : C.Houses t k b
  empty : ∀ a ∈ slotsOf k, (C.slot a).present = false

namespace CanUnlink

variable {t k b : Nat}

theorem slot_self : (C.unlink t k b).slot b = (C.slot b).clearSh1 := by
  simp [unlink]

theorem slot_other {a : Nat} (hab : a ≠ b) : (C.unlink t k b).slot a = C.slot a := by
  simp [unlink, hab]

theorem fields (a : Nat)
    : ((C.unlink t k b).slot a).startAddr = (C.slot a).startAddr
        ∧ ((C.unlink t k b).slot a).endAddr = (C.slot a).endAddr
        ∧ ((C.unlink t k b).slot a).origin = (C.slot a).origin
        ∧ ((C.unlink t k b).slot a).next = (C.slot a).next
        ∧ ((C.unlink t k b).slot a).accessible = (C.slot a).accessible
        ∧ ((C.unlink t k b).slot a).read = (C.slot a).read
        ∧ ((C.unlink t k b).slot a).write = (C.slot a).write
        ∧ ((C.unlink t k b).slot a).exec = (C.slot a).exec
        ∧ ((C.unlink t k b).slot a).present = (C.slot a).present := by
  by_cases hab : a = b
  . rw [hab, slot_self]
    simp [Slot.clearSh1]
  . rw [slot_other hab]
    simp

theorem mem_structures (hC : C.Static) (h : C.CanUnlink t k b) {q k' : Nat}
    : k' ∈ (C.unlink t k b).structures q ↔ k' ∈ C.structures q ∧ ¬(q = t ∧ k' = k) := by
  by_cases hq : q = t
  . subst hq
    simp only [unlink, if_true, (hC.structures_nodup q h.live).mem_erase_iff]
    grind
  . simp [unlink, hq]

theorem owns_iff (hC : C.Static) (h : C.CanUnlink t k b) (q a : Nat)
    : (C.unlink t k b).Owns q a ↔ C.Owns q a ∧ ¬(q = t ∧ a ∈ slotsOf k) := by
  constructor
  . rintro ⟨hq, k', hk', ha⟩
    rcases (h.mem_structures hC).mp hk' with ⟨hmem, hne⟩
    refine ⟨⟨hq, k', hmem, ha⟩, ?_⟩
    rintro ⟨rfl, ha'⟩
    exact hne ⟨rfl, (hC.structures_disjoint hq hq hmem h.mem (slotsOf_mem_structureRange ha)
      (slotsOf_mem_structureRange ha')).2⟩
  . rintro ⟨⟨hq, k', hk', ha⟩, hne⟩
    refine ⟨hq, k', (h.mem_structures hC).mpr ⟨hk', ?_⟩, ha⟩
    rintro ⟨rfl, rfl⟩
    exact hne ⟨rfl, ha⟩

theorem has_iff (hC : C.Static) (h : C.CanUnlink t k b) (q a : Nat)
    : (C.unlink t k b).Has q a ↔ C.Has q a := by
  unfold Has
  rw [h.owns_iff hC, (fields a).2.2.2.2.2.2.2.2]
  constructor
  . rintro ⟨⟨h₁, -⟩, h₂⟩
    exact ⟨h₁, h₂⟩
  . rintro ⟨h₁, h₂⟩
    refine ⟨⟨h₁, ?_⟩, h₂⟩
    rintro ⟨-, ha⟩
    rw [h.empty a ha] at h₂
    exact absurd h₂ (by simp)

/--
The block of a structure holds no other one.
-/
theorem start_unique (hC : C.Static) (h : C.CanUnlink t k b) {q a : Nat} (ha : C.Has q a)
    (hloc : (C.slot a).inChildLocation = 0) (hstart : (C.slot a).startAddr = k) : a = b := by
  rcases h.houses.has with ⟨r, hr⟩
  have hx := hC.mem_range_start ha
  have hxb := hC.mem_range_start hr
  rw [h.houses.start_eq, ← hstart] at hxb
  exact (hC.eq_of_not_lent ha hr hloc h.houses.inChild_eq hx hxb).2

end CanUnlink

theorem Static.unlink (hC : C.Static) {t k b : Nat} (h : C.CanUnlink t k b)
    : (C.unlink t k b).Static := by
  have hhas := h.has_iff hC
  have hfields := @CanUnlink.fields C t k b
  have hslot := @CanUnlink.slot_other C t k b
  have hself := @CanUnlink.slot_self C t k b
  have hmem := fun q k' => @CanUnlink.mem_structures C t k b hC h q k'
  have hb := h.houses
  constructor
  case cur_live => exact hC.cur_live
  case root_live => exact hC.root_live
  case root_ne => exact hC.root_ne
  case rootStructure_ne => exact hC.rootStructure_ne
  case rootStructure_mem =>
    refine (hmem _ _).mpr ⟨hC.rootStructure_mem, ?_⟩
    rintro ⟨-, heq⟩
    rcases hb.has with ⟨r, hr⟩
    refine Set.disjoint_left.mp (hC.root_disjoint_block hr).2 (mem_structureRange_self _) ?_
    have hx := hC.mem_range_start hr
    rw [hb.start_eq, ← heq] at hx
    exact hx
  case root_disjoint => exact hC.root_disjoint
  case root_pd =>
    intro a ha
    unfold Slot.range
    rw [(hfields a).1, (hfields a).2.1]
    exact hC.root_pd a ((hhas _ a).mp ha)
  case root_structure =>
    intro a ha
    unfold Slot.range
    rw [(hfields a).1, (hfields a).2.1]
    exact hC.root_structure a ((hhas _ a).mp ha)
  case depth_root => exact hC.depth_root
  case parent_live => exact hC.parent_live
  case depth_parent => exact hC.depth_parent
  case pd_house =>
    intro q hq hroot
    rcases hC.pd_house q hq hroot with ⟨H, hH, hflag, hrest⟩
    refine ⟨H, (hhas _ _).mpr hH, ?_⟩
    rw [hslot (by have := hb.flag_eq; grind)]
    exact ⟨hflag, hrest⟩
  case flag_kind =>
    intro q a ha hflag
    have hab : a ≠ b := by
      intro heq
      rw [heq, hself] at hflag
      exact absurd hflag (by simp [Slot.clearSh1])
    rw [hslot hab] at hflag ⊢
    exact hC.flag_kind q a ((hhas q a).mp ha) hflag
  case structure_house =>
    intro q k' hq hk'
    rcases (hmem q k').mp hk' with ⟨hk', hne⟩
    rcases hC.structure_house q k' hq hk' with h' | ⟨H, hH⟩
    . exact Or.inl h'
    . right
      have hHb : H ≠ b := by
        intro heq
        subst heq
        rcases hC.houses_unique hH hb hq h.live with ⟨hqt, hkk⟩
        exact hne ⟨hqt, hkk⟩
      exact ⟨H, hH.transfer rfl rfl (hslot hHb) (hhas _ H).mpr fun _ => (hhas _ H).mpr⟩
  case structures_nodup =>
    intro q hq
    by_cases hqt : q = t
    . subst hqt
      simp only [Conf.unlink, if_true]
      exact (hC.structures_nodup q hq).erase k
    . simp only [Conf.unlink, hqt, if_false]
      exact hC.structures_nodup q hq
  case structures_length =>
    intro q hq
    by_cases hqt : q = t
    . subst hqt
      simp only [Conf.unlink, if_true]
      exact (List.length_erase_le).trans (hC.structures_length q hq)
    . simp only [Conf.unlink, hqt, if_false]
      exact hC.structures_length q hq
  case child_kind =>
    intro q a ha hpd
    replace ha := (hhas q a).mp ha
    have hab : a ≠ b := by
      intro heq
      rw [heq, hself] at hpd
      exact hpd rfl
    rw [hslot hab] at hpd ⊢
    rcases hC.child_kind q a ha hpd with ⟨h₁, h₂, h₃, h₄⟩
    refine ⟨h₁, h₂, h₃, ?_⟩
    intro hloc
    refine (hmem _ _).mpr ⟨h₄ hloc, ?_⟩
    rintro ⟨-, hstart⟩
    exact hab (h.start_unique hC ha hloc hstart)
  case location_kind =>
    intro q a ha hloc
    replace ha := (hhas q a).mp ha
    have hab : a ≠ b := by
      intro heq
      rw [heq, hself] at hloc
      exact hloc rfl
    rw [hslot hab] at hloc ⊢
    rw [hhas, (hfields _).1, (hfields _).2.2.1]
    exact hC.location_kind q a ha hloc
  case host =>
    intro q a hroot ha
    replace ha := (hhas q a).mp ha
    rcases hC.host q a hroot ha with ⟨B, hB⟩
    have hBb : B ≠ b := by
      intro heq
      rw [heq] at hB
      exact hB.lent.2 hb.inChild_eq
    rcases hfields a with ⟨-, h₂, h₃, h₄, -, h₆, h₇, h₈, -⟩
    refine ⟨B, hB.transfer rfl ((hhas _ _).mpr hB.has) (hslot hBb) h₃ ?_ ?_ h₆ h₇ h₈⟩
    . rw [h₂]
      exact hB.end_le
    . rw [h₂, h₄]
      exact hB.end_eq
  case next_kind =>
    intro q a ha hnext
    rw [(hfields a).2.2.2.1] at hnext ⊢
    rw [hhas, (hfields _).1, (hfields a).2.1, (hfields _).2.2.1, (hfields a).2.2.1]
    exact hC.next_kind q a ((hhas q a).mp ha) hnext
  case pred_kind =>
    intro q a ha hstart
    rw [(hfields a).1, (hfields a).2.2.1] at hstart
    rcases hC.pred_kind q a ((hhas q a).mp ha) hstart with ⟨a', ha', hnext⟩
    refine ⟨a', (hhas _ _).mpr ha', ?_⟩
    rw [(hfields a').2.2.2.1]
    exact hnext
  case origin_le =>
    intro q a ha
    rw [(hfields a).1, (hfields a).2.2.1]
    exact hC.origin_le q a ((hhas q a).mp ha)
  case start_lt =>
    intro q a ha
    rw [(hfields a).1, (hfields a).2.1]
    exact hC.start_lt q a ((hhas q a).mp ha)
  case end_lt =>
    intro q a ha
    rw [(hfields a).2.1]
    exact hC.end_lt q a ((hhas q a).mp ha)
  case disjoint =>
    intro q a a' ha ha' hne
    rw [(hfields a).1, (hfields a).2.1, (hfields a').1, (hfields a').2.1]
    exact hC.disjoint q a a' ((hhas q a).mp ha) ((hhas q a').mp ha') hne
  case free_nodup =>
    intro q hq
    by_cases hqt : q = t
    . subst hqt
      simp only [Conf.unlink, if_true]
      exact (hC.free_nodup q hq).filter _
    . simp only [Conf.unlink, hqt, if_false]
      exact hC.free_nodup q hq
  case mem_free =>
    intro q a hq
    rw [h.owns_iff hC, (hfields a).2.2.2.2.2.2.2.2]
    have := hC.mem_free q a hq
    by_cases hqt : q = t
    . subst hqt
      simp only [Conf.unlink, if_true, List.mem_filter, decide_eq_true_eq, this]
      grind
    . simp only [Conf.unlink, hqt, if_false, this]
      grind
  case free_empty =>
    intro q a ha hpresent
    rw [(hfields a).2.2.2.2.2.2.2.2] at hpresent
    have hold := ((h.owns_iff hC q a).mp ha).1
    have hab : a ≠ b := by
      intro heq
      rcases hb.has with ⟨r, hr⟩
      rw [heq, hr.2] at hpresent
      exact absurd hpresent (by simp)
    rw [hslot hab]
    exact hC.free_empty q a hold hpresent

theorem Inv.unlink (hC : C.Inv) {t k b : Nat} (h : C.CanUnlink t k b) : (C.unlink t k b).Inv := by
  have hS := hC.static
  have hhas := h.has_iff hS
  have hfields := @CanUnlink.fields C t k b
  have hslot := @CanUnlink.slot_other C t k b
  have hself := @CanUnlink.slot_self C t k b
  refine ⟨hS.unlink h, ⟨?_, ?_, ?_⟩, ?_⟩
  . intro q a ha hflag
    have := hC.closed.flag q a ((hhas q a).mp ha)
    by_cases hab : a = b
    . rw [hab, hself] at hflag
      exact absurd hflag (by simp [Slot.clearSh1])
    . rw [hslot hab] at hflag ⊢
      exact this hflag
  . intro q a ha hpd hloc
    have := hC.closed.given q a ((hhas q a).mp ha)
    by_cases hab : a = b
    . rw [hab, hself] at hpd
      exact absurd rfl hpd
    . rw [hslot hab] at hpd hloc ⊢
      exact this hpd hloc
  . intro q a ha hk
    rw [(hfields a).1] at hk
    rw [(hfields a).2.2.2.2.1]
    exact hC.closed.own q a ((hhas q a).mp ha) ((h.mem_structures hS).mp hk).1
  . intro q a hq ha B hB
    replace ha := (hhas q a).mp ha
    have hBhas := (hhas _ B).mp hB.has
    rcases hfields a with ⟨h₁, -, h₃, h₄, h₅, -⟩
    unfold Slot.Uncut
    rw [h₁, h₃, h₄, h₅, (hfields B).2.2.2.2.1]
    apply hC.coherent q a hq ha B
    apply hS.hosts_of_origin hq ha hBhas
    have hstart := hB.start_eq
    rw [(hfields B).1, h₃] at hstart
    exact hstart

end Conf
