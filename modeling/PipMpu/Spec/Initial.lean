import PipMpu.Spec.Sep
import PipMpu.Spec.Inv

/-!
This module contains the views in which the root is the only partition and has shared nothing yet. The boot
leads to one of them.
-/

namespace Conf

/--
The root is the only partition. It has one structure, and none of its blocks is cut or used for anything.
-/
structure OnlyRoot (C : Conf) : Prop where
  cur_eq : C.cur = C.root
  live_iff : ∀ p, C.Live p ↔ p = C.root
  root_ne : C.root ≠ 0
  depth_root : C.depth C.root = 0
  structures_root : C.structures C.root = [C.rootStructure]
  rootStructure_ne : C.rootStructure ≠ 0
  disjoint_pd : Disjoint (pdRange C.root) (structureRange C.rootStructure)
  plain : ∀ a, C.Has C.root a → (C.slot a).PDchild = 0 ∧ (C.slot a).PDflag = false
    ∧ (C.slot a).inChildLocation = 0 ∧ (C.slot a).startAddr = (C.slot a).origin ∧ (C.slot a).next = 0
  bounds : ∀ a, C.Has C.root a →
    (C.slot a).startAddr < (C.slot a).endAddr ∧ (C.slot a).endAddr < wordSize
  outside : ∀ a, C.Has C.root a → Disjoint (pdRange C.root) (C.slot a).range
    ∧ Disjoint (structureRange C.rootStructure) (C.slot a).range
  disjoint : ∀ a b, C.Has C.root a → C.Has C.root b → a ≠ b →
    (C.slot a).endAddr ≤ (C.slot b).startAddr ∨ (C.slot b).endAddr ≤ (C.slot a).startAddr
  free_nodup : (C.free C.root).Nodup
  mem_free : ∀ a, a ∈ C.free C.root ↔ C.Owns C.root a ∧ (C.slot a).present = false
  free_empty : ∀ a, C.Owns C.root a → (C.slot a).present = false → C.slot a = Slot.empty

namespace OnlyRoot

variable {C : Conf}

theorem eq_root (h : C.OnlyRoot) {p : Nat} (hp : C.Live p) : p = C.root := (h.live_iff p).mp hp

theorem has_root (h : C.OnlyRoot) {p a : Nat} (ha : C.Has p a) : C.Has C.root a := by
  rw [h.eq_root ha.1.1] at ha
  exact ha

theorem static (h : C.OnlyRoot) : C.Static := by
  have hroot : C.Live C.root := (h.live_iff _).mpr rfl
  constructor
  case cur_live =>
    rw [h.cur_eq]
    exact hroot
  case root_live => exact hroot
  case root_ne => exact h.root_ne
  case rootStructure_ne => exact h.rootStructure_ne
  case rootStructure_mem =>
    rw [h.structures_root]
    exact List.mem_singleton_self _
  case root_disjoint => exact h.disjoint_pd
  case root_pd => exact fun a ha => (h.outside a ha).1
  case root_structure => exact fun a ha => (h.outside a ha).2
  case depth_root => exact h.depth_root
  case parent_live => exact fun p hp hne => absurd (h.eq_root hp) hne
  case depth_parent => exact fun p hp hne => absurd (h.eq_root hp) hne
  case pd_house => exact fun p hp hne => absurd (h.eq_root hp) hne
  case flag_kind =>
    intro p a ha hflag
    rw [(h.plain a (h.has_root ha)).2.1] at hflag
    exact absurd hflag (by simp)
  case structure_house =>
    intro p k hp hk
    rw [h.eq_root hp, h.structures_root] at hk
    exact .inl ⟨h.eq_root hp, List.mem_singleton.mp hk⟩
  case structures_nodup =>
    intro p hp
    rw [h.eq_root hp, h.structures_root]
    exact List.nodup_singleton _
  case structures_length =>
    intro p hp
    rw [h.eq_root hp, h.structures_root]
    simp
  case child_kind => exact fun p a ha hchild => absurd (h.plain a (h.has_root ha)).1 hchild
  case location_kind => exact fun p a ha hloc => absurd (h.plain a (h.has_root ha)).2.2.1 hloc
  case host => exact fun p a hne ha => absurd (h.eq_root ha.1.1) hne
  case next_kind => exact fun p a ha hnext => absurd (h.plain a (h.has_root ha)).2.2.2.2 hnext
  case pred_kind => exact fun p a ha hstart => absurd (h.plain a (h.has_root ha)).2.2.2.1 hstart
  case origin_le => exact fun p a ha => (h.plain a (h.has_root ha)).2.2.2.1.ge
  case start_lt => exact fun p a ha => (h.bounds a (h.has_root ha)).1
  case end_lt => exact fun p a ha => (h.bounds a (h.has_root ha)).2
  case disjoint => exact fun p a b ha hb => h.disjoint a b (h.has_root ha) (h.has_root hb)
  case free_nodup =>
    intro p hp
    rw [h.eq_root hp]
    exact h.free_nodup
  case mem_free =>
    intro p a hp
    rw [h.eq_root hp]
    exact h.mem_free a
  case free_empty =>
    intro p a ha
    rw [h.eq_root ha.1] at ha
    exact h.free_empty a ha

theorem inv (h : C.OnlyRoot) : C.Inv := by
  constructor
  case static => exact h.static
  case closed =>
    constructor
    case flag =>
      intro p a ha hflag
      rw [(h.plain a (h.has_root ha)).2.1] at hflag
      exact absurd hflag (by simp)
    case given => exact fun p a ha hchild _ => absurd (h.plain a (h.has_root ha)).1 hchild
    case own =>
      -- the structure of the root lies outside of its blocks
      intro p a ha hmem
      rw [h.eq_root ha.1.1, h.structures_root] at hmem
      have hroot := h.has_root ha
      have hstart : (C.slot a).startAddr ∈ (C.slot a).range := ⟨le_rfl, (h.bounds a hroot).1⟩
      have hself : (C.slot a).startAddr ∈ structureRange C.rootStructure := by
        rw [List.mem_singleton.mp hmem]
        exact mem_structureRange_self _
      exact absurd hstart (Set.disjoint_left.mp (h.outside a hroot).2 hself)
  case coherent => exact fun p a hne ha => absurd (h.eq_root ha.1.1) hne

end OnlyRoot

end Conf
