import PipMpu.Spec.Confined
import PipMpu.Spec.Cover
import PipMpu.Spec.Inverse
import PipMpu.Spec.Release

/-!
This module contains why the life of a child leaves no trace in the view: what the child does stays in its subtree, what
its parent does for it shows in the records of the blocks given to it only, and these are cleared with the child.
-/

/--
The slot without the record of what the partition `c` was given.
-/
def Slot.forget (c : Nat) (sl : Slot) : Slot := if sl.PDchild = c then sl.clearSh1 else sl

namespace Slot

variable {sl sl' : Slot} {c : Nat}

theorem forget_of_eq (h : sl.PDchild = c) : sl.forget c = sl.clearSh1 := if_pos h

theorem forget_of_ne (h : sl.PDchild ≠ c) : sl.forget c = sl := if_neg h

theorem forget_clearSh1 (hc : c ≠ 0) (sl : Slot) : sl.clearSh1.forget c = sl.clearSh1 := forget_of_ne hc.symm

theorem clearSh1_forget (c : Nat) (sl : Slot) : (sl.forget c).clearSh1 = sl.clearSh1 := by
  unfold forget
  split <;> rfl

theorem forget_startAddr (c : Nat) (sl : Slot) : (sl.forget c).startAddr = sl.startAddr := by
  unfold forget
  split <;> rfl

theorem forget_endAddr (c : Nat) (sl : Slot) : (sl.forget c).endAddr = sl.endAddr := by
  unfold forget
  split <;> rfl

theorem forget_present (c : Nat) (sl : Slot) : (sl.forget c).present = sl.present := by
  unfold forget
  split <;> rfl

theorem clearSh1_eq (hchild : sl.PDchild = 0) (hflag : sl.PDflag = false) (hlocation : sl.inChildLocation = 0)
    : sl.clearSh1 = sl := by
  rcases sl with ⟨_, _, _, _, _, _, _, _, _, _, _, _⟩
  simp only at hchild hflag hlocation
  rw [hchild, hflag, hlocation]
  rfl

theorem SameRecord.forget (h : sl.SameRecord sl') : (sl.forget c).SameRecord (sl'.forget c) := by
  by_cases hchild : sl.PDchild = c
  . rw [forget_of_eq hchild, forget_of_eq (h.PDchild.trans hchild)]
    exact h.clearSh1
  . rw [forget_of_ne hchild, forget_of_ne (by rwa [h.PDchild])]
    exact h

end Slot

namespace Conf

variable {C C' C'' : Conf} {c p b : Nat}

/--
Outside of the subtree of `c` nothing but accessible bits and the records of what `c` was given differs.
-/
structure Serves (C : Conf) (c : Nat) (C' : Conf) : Prop extends KeepsOutside C c C' where
  slot : ∀ r a, C.Owns r a → ¬C.Below c r → ((C.slot a).forget c).SameRecord ((C'.slot a).forget c)

theorem Confined.serves (h : C.Confined c C') : C.Serves c C' :=
  ⟨h.toKeepsOutside, fun r a ha hr => (h.slot r a ha hr).forget⟩

namespace Serves

theorem refl (C : Conf) (c : Nat) : C.Serves c C := (Confined.refl C c).serves

theorem trans (h : C.Serves c C') (h' : C'.Serves c C'') : C.Serves c C'' where
  toKeepsOutside := h.toKeepsOutside.trans h'.toKeepsOutside
  slot r a ha hr := by
    have hr' := (h.tree r).mpr ⟨ha.1, hr⟩
    exact (h.slot r a ha hr).trans (h'.slot r a (h.owns ha hr) hr'.2)

/--
A transition that leaves the tree alone.
-/
theorem of_tree_eq (hroot : C'.root = C.root) (hparent : C'.parent = C.parent) (hlive : C'.Live = C.Live)
    (hlists : ∀ r, C.Live r → ¬C.Below c r → C'.structures r = C.structures r ∧ C'.free r = C.free r)
    (hslot : ∀ r a, C.Owns r a → ¬C.Below c r → ((C.slot a).forget c).SameRecord ((C'.slot a).forget c))
    : C.Serves c C' where
  root := hroot
  tree r := by rw [hlive, below_congr hroot hparent]
  parent _ _ _ := by rw [hparent]
  structures r hlive hr := (hlists r hlive hr).1
  free r hlive hr := (hlists r hlive hr).2
  slot := hslot

/--
A block of the parent whose record is made or cleared.
-/
theorem forget_of_given (hc : c ≠ 0) {sl sl' : Slot} (hclear : sl.PDchild = c ∨ sl.clearSh1 = sl)
    (hclear' : sl'.PDchild = c ∨ sl'.clearSh1 = sl') (hrecord : sl.clearSh1.SameRecord sl'.clearSh1)
    : (sl.forget c).SameRecord (sl'.forget c) := by
  have hforget : ∀ {sl : Slot}, sl.PDchild = c ∨ sl.clearSh1 = sl → sl.forget c = sl.clearSh1 := by
    rintro sl (hchild | hclear)
    . exact Slot.forget_of_eq hchild
    . rw [← hclear, Slot.forget_clearSh1 hc]
      rfl
  rw [hforget hclear, hforget hclear']
  exact hrecord

theorem share (hC : C.Static) {f : Nat} {rest : List Nat} {r w x : Bool} (h : C.CanShare p b c f rest r w x)
    : C.Serves c (C.share b c f rest r w x) := by
  have hne := h.ne hC
  refine of_tree_eq rfl rfl rfl (fun r _ hr => ⟨rfl, if_neg (Below.self.ne hr)⟩) fun r a ha hr => ?_
  have haf := Confined.ne_of_owns hC (h.free_slot hC).1 .self ha hr
  by_cases hab : a = b
  . subst hab
    rw [CanShare.slot_self hne]
    refine forget_of_given (hC.live_ne_zero h.live) (.inr ?_) (.inl rfl) (.refl _)
    exact Slot.clearSh1_eq h.PDchild_eq h.flag_eq (h.inChild_eq hC)
  . rw [CanShare.slot_other hab haf]
    exact .refl _

theorem link (hC : C.Static) (h : C.CanLink c p b) (hcp : c ≠ p) : C.Serves c (C.link c p b) := by
  refine of_tree_eq rfl rfl rfl (fun r _ hr => ⟨if_neg (Below.self.ne hr), if_neg (Below.self.ne hr)⟩) fun r a ha hr => ?_
  by_cases hab : a = b
  . subst hab
    rw [h.slot_self, if_neg hcp]
    refine forget_of_given (hC.live_ne_zero h.live) (.inr ?_) (.inl rfl) (.refl _)
    exact Slot.clearSh1_eq h.PDchild_eq h.flag_eq (h.inChild_eq hC)
  . rw [h.slot_other ha hab]
    exact .refl _

theorem unlink (hC : C.Static) {k : Nat} (h : C.CanUnlink c k b) (hchild : (C.slot b).PDchild = c)
    : C.Serves c (C.unlink c k b) := by
  refine of_tree_eq rfl rfl rfl (fun r _ hr => ⟨if_neg (Below.self.ne hr), if_neg (Below.self.ne hr)⟩) fun r a ha hr => ?_
  by_cases hab : a = b
  . subst hab
    rw [CanUnlink.slot_self]
    exact forget_of_given (hC.live_ne_zero h.live) (.inl hchild) (.inr rfl) (.refl _)
  . rw [CanUnlink.slot_other hab]
    exact .refl _

/--
The block of the descriptor of `c` stays as it is.
-/
theorem descriptor (h : C.Serves c C') (hp : ¬C.Below c p) (hb : C.Has p b) (hflag : (C.slot b).PDflag = true)
    (hchild : (C.slot b).PDchild ≠ c)
    : C'.Has p b ∧ (C'.slot b).PDflag = true ∧ (C'.slot b).startAddr = (C.slot b).startAddr
        ∧ (C'.slot b).endAddr = (C.slot b).endAddr := by
  have hrecord := h.slot p b hb.1 hp
  rw [Slot.forget_of_ne hchild] at hrecord
  have hflag' := hrecord.PDflag.trans hflag
  have hpresent := hrecord.present.trans hb.2
  have hstart := hrecord.startAddr
  have hend := hrecord.endAddr
  rw [Slot.forget_present] at hpresent
  rw [Slot.forget_startAddr] at hstart
  rw [Slot.forget_endAddr] at hend
  refine ⟨⟨h.owns hb.1 hp, hpresent⟩, ?_, hstart, hend⟩
  by_cases hchild' : (C'.slot b).PDchild = c
  . rw [Slot.forget_of_eq hchild'] at hflag'
    exact absurd hflag' (by simp [Slot.clearSh1])
  . rwa [Slot.forget_of_ne hchild'] at hflag'

theorem cover (h : C.Serves c C') {r : Nat} (hr : C.Live r) (hnot : ¬C.Below c r) : C'.cover r = C.cover r := by
  have hslot : ∀ a, C.Owns r a → ((C.slot a).forget c).SameRecord ((C'.slot a).forget c) := fun a ha =>
    h.slot r a ha hnot
  apply cover_congr
  . intro a
    constructor
    . rintro ⟨⟨-, k, hk, hak⟩, hpresent⟩
      rw [h.structures r hr hnot] at hk
      have ha : C.Owns r a := ⟨hr, k, hk, hak⟩
      have hrecord := (hslot a ha).present
      rw [Slot.forget_present, Slot.forget_present] at hrecord
      exact ⟨ha, hrecord ▸ hpresent⟩
    . rintro ⟨ha, hpresent⟩
      have hrecord := (hslot a ha).present
      rw [Slot.forget_present, Slot.forget_present] at hrecord
      exact ⟨h.owns ha hnot, hrecord.trans hpresent⟩
  . intro a ha
    have hrecord := hslot a ha.1
    unfold Slot.range
    have hstart := hrecord.startAddr
    have hend := hrecord.endAddr
    simp only [Slot.forget_startAddr, Slot.forget_endAddr] at hstart hend
    rw [hstart, hend]

end Serves

/--
The new partition lies below none of the others.
-/
theorem CanAddPartition.not_below (h : C.CanAddPartition p b) (hC : C.Static) {r : Nat} (hr : C.Live r)
    : ¬(C.addPartition p b).Below (C.slot b).startAddr r := by
  intro hbelow
  induction hbelow with
  | self => exact h.not_live hr
  | @child r hne _ ih =>
    have hrc : r ≠ (C.slot b).startAddr := fun heq => h.not_live (heq ▸ hr)
    rw [(tree_other (C := C) (p := p) hrc).2.1] at ih
    exact ih (hC.parent_live r hr hne)

/--
Outside of the new partition nothing has changed in the tree.
-/
theorem KeepsOutside.addPartition (hC : C.Static) (h : C.CanAddPartition p b)
    : C.KeepsOutside (C.slot b).startAddr (C.addPartition p b) := by
  have hother : ∀ {r}, C.Live r → r ≠ (C.slot b).startAddr := fun hr heq => h.not_live (heq ▸ hr)
  constructor
  case root => rfl
  case tree =>
    intro r
    constructor
    . rintro ⟨hlive, hr⟩
      have hrc : r ≠ (C.slot b).startAddr := fun heq => hr (heq ▸ .self)
      have hlive := (CanAddPartition.tree_other (C := C) (p := p) hrc).1.mp hlive
      exact ⟨hlive, fun hbelow => h.not_live (hbelow.live hC hlive)⟩
    . rintro ⟨hlive, -⟩
      exact ⟨(CanAddPartition.tree_other (hother hlive)).1.mpr hlive, h.not_below hC hlive⟩
  case parent => exact fun r hlive _ => (CanAddPartition.tree_other (hother hlive)).2.1
  case structures => exact fun r hlive _ => (CanAddPartition.tree_other (hother hlive)).2.2.2.1
  case free => exact fun r hlive _ => (CanAddPartition.tree_other (hother hlive)).2.2.2.2

/--
Nor has it when the partition is dropped.
-/
theorem KeepsOutside.dropTree (hroot : C'.root = C.root) (hparent : C'.parent = C.parent)
    (hstructures : C'.structures = C.structures) (hfree : C'.free = C.free)
    (hlive : ∀ r, C'.Live r ↔ C.Live r ∧ ¬C.Below c r) : C.KeepsOutside c C' where
  root := hroot
  tree r := by
    rw [hlive, below_congr hroot hparent]
    tauto
  parent _ _ _ := by rw [hparent]
  structures _ _ _ := by rw [hstructures]
  free _ _ _ := by rw [hfree]

end Conf
