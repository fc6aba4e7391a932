import PipMpu.Spec.Bounds
import PipMpu.Spec.Settled

/-!
This module contains why the accessible bits are determined by the rest of the view: a block that is not shared is
accessible exactly if it holds no kernel data, and a block that is shared exactly if the child has not cut it and it
is accessible there.
-/

/--
The slots agree in all fields but the accessible bit.
-/
def Slot.SameRecord (sl sl' : Slot) : Prop := sl' = { sl with accessible := sl'.accessible }

namespace Slot.SameRecord

theorem refl (sl : Slot) : sl.SameRecord sl := by
  rfl

theorem trans {sl sl' sl'' : Slot} (h : sl.SameRecord sl') (h' : sl'.SameRecord sl'') : sl.SameRecord sl'' := by
  unfold Slot.SameRecord at *
  rw [h', h]

theorem eq {sl sl' : Slot} (h : sl.SameRecord sl') (hacc : sl'.accessible = sl.accessible) : sl' = sl := by
  rw [h, hacc]

theorem present {sl sl' : Slot} (h : sl.SameRecord sl') : sl'.present = sl.present := by
  rw [h]

theorem startAddr {sl sl' : Slot} (h : sl.SameRecord sl') : sl'.startAddr = sl.startAddr := by
  rw [h]

theorem endAddr {sl sl' : Slot} (h : sl.SameRecord sl') : sl'.endAddr = sl.endAddr := by
  rw [h]

theorem PDchild {sl sl' : Slot} (h : sl.SameRecord sl') : sl'.PDchild = sl.PDchild := by
  rw [h]

theorem PDflag {sl sl' : Slot} (h : sl.SameRecord sl') : sl'.PDflag = sl.PDflag := by
  rw [h]

theorem inChildLocation {sl sl' : Slot} (h : sl.SameRecord sl') : sl'.inChildLocation = sl.inChildLocation := by
  rw [h]

theorem uncut {sl sl' : Slot} (h : sl.SameRecord sl') : sl'.Uncut ↔ sl.Uncut := by
  rw [h]
  rfl

theorem clearSh1 {sl sl' : Slot} (h : sl.SameRecord sl') : sl.clearSh1.SameRecord sl'.clearSh1 := by
  unfold Slot.SameRecord Slot.clearSh1 at *
  rw [h]

theorem setAccessible (sl : Slot) (v : Bool) : sl.SameRecord { sl with accessible := v } := by
  rfl

end Slot.SameRecord

namespace Conf

variable {C C' : Conf} {T : Nat → Prop}

theorem setAccessible.sameRecord (C : Conf) (S : Nat → Prop) (v : Bool) (a : Nat)
    : (C.slot a).SameRecord ((C.setAccessible S v).slot a) := by
  by_cases hS : S a
  . rw [setAccessible.slot_of_mem _ _ _ _ hS]
    exact .setAccessible _ v
  . rw [setAccessible.slot_of_notMem _ _ _ _ hS]
    exact .refl _

/--
A block that is not shared is accessible exactly if it holds no kernel data.
-/
theorem Settled.accessible_iff (hC : C.Settled) (hI : C.Inv) {p a : Nat} (ha : C.Has p a)
    (hkept : (C.slot a).inChildLocation = 0)
    : (C.slot a).accessible = true
        ↔ (C.slot a).PDchild = 0 ∧ (C.slot a).PDflag = false ∧ (C.slot a).startAddr ∉ C.structures p := by
  constructor
  . intro hacc
    refine ⟨?_, hI.flag_of_accessible ha hacc, hI.notMem_of_accessible ha hacc⟩
    by_contra hchild
    rw [hI.closed.given p a ha hchild hkept] at hacc
    exact absurd hacc (by simp)
  . rintro ⟨hchild, hflag, hmem⟩
    exact hC.cover ha hchild hflag hmem

/--
The partitions of `T` have the same structures in both views, with the same slots but for the accessible bits, and
they share their blocks with partitions of `T` only.
-/
structure SameRecords (C C' : Conf) (T : Nat → Prop) : Prop where
  root : C'.root = C.root
  live : ∀ r, T r → C.Live r ∧ C'.Live r
  structures : ∀ r, T r → C'.structures r = C.structures r
  slot : ∀ r a, T r → C.Owns r a → (C.slot a).SameRecord (C'.slot a)
  child : ∀ r a, T r → C.Has r a → (C.slot a).inChildLocation ≠ 0 → T (C.slot a).PDchild

namespace SameRecords

variable {r a : Nat}

theorem has (h : C.SameRecords C' T) (hr : T r) (ha : C.Has r a) : C'.Has r a := by
  rcases ha with ⟨⟨hlive, k, hk, hak⟩, hpresent⟩
  refine ⟨⟨(h.live r hr).2, k, (h.structures r hr).symm ▸ hk, hak⟩, ?_⟩
  rw [(h.slot r a hr ⟨hlive, k, hk, hak⟩).present]
  exact hpresent

/--
The block of the child that was made of the whole block decides about the access to the block.
-/
theorem accessible_of_lent (hC : C.Inv) (ha : C.Has r a) (hlent : (C.slot a).inChildLocation ≠ 0)
    : C.Has (C.slot a).PDchild (C.slot a).inChildLocation
        ∧ ((C.slot a).accessible = true ↔ (C.slot (C.slot a).inChildLocation).Uncut
          ∧ (C.slot (C.slot a).inChildLocation).accessible = true) := by
  have hS := hC.static
  rcases hS.location_kind r a ha hlent with ⟨hchild, hl, -, horigin⟩
  rcases hS.child_kind r a ha hchild with ⟨-, hparent, hroot, -⟩
  have hhosts := hS.hosts_of_origin hroot hl (hparent.symm ▸ ha) horigin.symm
  exact ⟨hl, hC.coherent _ _ hroot hl _ hhosts⟩

/--
The accessible bits are determined: by induction on how far the partition is from the deepest possible one.
-/
theorem accessible (h : C.SameRecords C' T) (hC : C.Inv) (hset : C.Settled) (hC' : C'.Inv) (hset' : C'.Settled)
    (hr : T r) (ha : C.Has r a) : (C'.slot a).accessible = (C.slot a).accessible := by
  rw [Bool.eq_iff_iff]
  induction hn : 512 - C.depth r using Nat.strongRecOn generalizing r a with
  | ind n ih =>
    have ha' := h.has hr ha
    have hrecord := h.slot r a hr ha.1
    by_cases hkept : (C.slot a).inChildLocation = 0
    . rw [hset.accessible_iff hC ha hkept, hset'.accessible_iff hC' ha' (hrecord.inChildLocation.trans hkept),
        hrecord.PDchild, hrecord.PDflag, hrecord.startAddr, h.structures r hr]
    . have hT := h.child r a hr ha hkept
      rcases accessible_of_lent hC ha hkept with ⟨hl, hiff⟩
      rcases accessible_of_lent hC' ha' (fun heq => hkept (hrecord.inChildLocation.symm.trans heq)) with ⟨-, hiff'⟩
      rw [hrecord.inChildLocation] at hiff'
      have hchild := hC.static.child_kind r a ha (hC.static.location_kind r a ha hkept).1
      have hdepth := hC.static.depth_parent _ hl.live hchild.2.2.1
      have hle := hC.static.depth_le hl.live
      rw [hchild.2.1] at hdepth
      rw [hiff, hiff', (h.slot _ _ hT hl.1).uncut, ih _ (by omega) hT hl rfl]

theorem slot_eq (h : C.SameRecords C' T) (hC : C.Inv) (hset : C.Settled) (hC' : C'.Inv) (hset' : C'.Settled)
    (hr : T r) (ha : C.Owns r a) : C'.slot a = C.slot a := by
  have hrecord := h.slot r a hr ha
  by_cases hpresent : (C.slot a).present = true
  . exact hrecord.eq (h.accessible hC hset hC' hset' hr ⟨ha, hpresent⟩)
  . simp only [Bool.not_eq_true] at hpresent
    have ha' : C'.Owns r a := by
      rcases ha with ⟨-, k, hk, hak⟩
      exact ⟨(h.live r hr).2, k, (h.structures r hr).symm ▸ hk, hak⟩
    rw [hC.static.free_empty r a ha hpresent, hC'.static.free_empty r a ha' (hrecord.present.trans hpresent)]

end SameRecords

end Conf
