import PipMpu.Spec.Steps
import PipMpu.Spec.Bounds

/-!
This module contains the removal of a partition in the order of the code: the tree shrinks first, then
the blocks that were given to the partition are taken back one after the other.
-/

/--
The block was given to the partition `c`, or holds its descriptor.
-/
def Slot.GivenTo (sl : Slot) (c : Nat) : Prop :=
  sl.PDchild = c ∨ (sl.PDflag = true ∧ sl.startAddr = c)

instance (sl : Slot) (c : Nat) : Decidable (sl.GivenTo c) :=
  inferInstanceAs (Decidable (sl.PDchild = c ∨ (sl.PDflag = true ∧ sl.startAddr = c)))

namespace Conf

variable {C : Conf}

/--
Remove the partitions from `c` on downwards and keep the slots as they are.
-/
def dropTree (C : Conf) (c : Nat) : Conf := { C with Live := fun q => C.Live q ∧ ¬C.Below c q }

def clearGiven (C : Conf) (c : Nat) : Conf :=
  { C with slot := fun a => if (C.slot a).GivenTo c then (C.slot a).clearSh1 else C.slot a }

theorem dropPartition_eq (C : Conf) (c : Nat) : C.dropPartition c = (C.dropTree c).clearGiven c := by
  rfl

/--
Take the block `a` of `p` back.
-/
noncomputable def reclaim (C : Conf) (p a : Nat) : Conf :=
  (C.setSlot a (C.slot a).clearSh1).access p a true

theorem clearGiven_bounds (C : Conf) (c a : Nat)
    : ((C.clearGiven c).slot a).startAddr = (C.slot a).startAddr
        ∧ ((C.clearGiven c).slot a).endAddr = (C.slot a).endAddr
        ∧ ((C.clearGiven c).slot a).present = (C.slot a).present := by
  simp only [clearGiven]
  split <;> exact ⟨rfl, rfl, rfl⟩

theorem clearGiven_has (C : Conf) (c q a : Nat) : (C.clearGiven c).Has q a ↔ C.Has q a := by
  show C.Owns q a ∧ _ ↔ _
  rw [(C.clearGiven_bounds c a).2.2]
  rfl

theorem clearGiven_above (C : Conf) (c lo hi p : Nat)
    : (C.clearGiven c).Above lo hi p = C.Above lo hi p :=
  above_eq (by rfl) (by rfl) (C.clearGiven_has c) (fun a => (C.clearGiven_bounds c a).1)
    (fun a => (C.clearGiven_bounds c a).2.1) lo hi p

theorem clearGiven_slot_of_given {c a : Nat} (h : (C.slot a).GivenTo c)
    : (C.clearGiven c).slot a = (C.slot a).clearSh1 :=
  if_pos h

theorem clearGiven_slot_of_not {c a : Nat} (h : ¬(C.slot a).GivenTo c)
    : (C.clearGiven c).slot a = C.slot a :=
  if_neg h

theorem clearGiven_setAccessible (C : Conf) (c : Nat) (S : Nat → Prop) (v : Bool)
    : (C.setAccessible S v).clearGiven c = (C.clearGiven c).setAccessible S v := by
  have hgiven : ∀ x, ((C.setAccessible S v).slot x).GivenTo c ↔ (C.slot x).GivenTo c := by
    intro x
    unfold Slot.GivenTo
    rw [setAccessible.PDchild, setAccessible.PDflag, setAccessible.startAddr]
  refine Conf.ext rfl rfl rfl rfl rfl rfl rfl rfl ?_
  funext x
  by_cases hx : (C.slot x).GivenTo c
  . rw [clearGiven_slot_of_given ((hgiven x).mpr hx)]
    by_cases hS : S x
    . rw [setAccessible.slot_of_mem _ _ _ _ hS, setAccessible.slot_of_mem _ _ _ _ hS,
        clearGiven_slot_of_given hx]
      rfl
    . rw [setAccessible.slot_of_notMem _ _ _ _ hS, setAccessible.slot_of_notMem _ _ _ _ hS,
        clearGiven_slot_of_given hx]
  . rw [clearGiven_slot_of_not (mt (hgiven x).mp hx)]
    by_cases hS : S x
    . rw [setAccessible.slot_of_mem _ _ _ _ hS, setAccessible.slot_of_mem _ _ _ _ hS,
        clearGiven_slot_of_not hx]
    . rw [setAccessible.slot_of_notMem _ _ _ _ hS, setAccessible.slot_of_notMem _ _ _ _ hS,
        clearGiven_slot_of_not hx]

theorem clearGiven_setSlot {c a : Nat} (hc : c ≠ 0) (h : (C.slot a).GivenTo c)
    : (C.setSlot a (C.slot a).clearSh1).clearGiven c = C.clearGiven c := by
  refine Conf.ext rfl rfl rfl rfl rfl rfl rfl rfl ?_
  funext x
  by_cases hx : x = a
  . subst hx
    rw [clearGiven_slot_of_given h, clearGiven_slot_of_not, setSlot_slot_self]
    rw [setSlot_slot_self]
    rintro (hchild | ⟨hflag, -⟩)
    . exact hc hchild.symm
    . exact absurd hflag (by simp [Slot.clearSh1])
  . simp only [clearGiven, setSlot_slot_of_ne _ _ hx]

/--
The blocks that `reclaim` makes accessible.
-/
def Reclaims (C : Conf) (p a x : Nat) : Prop :=
  x = a ∨ ((C.slot a).Uncut ∧ C.Above (C.slot a).startAddr (C.slot a).endAddr p x)

theorem reclaim_eq (C : Conf) (p a : Nat)
    : C.reclaim p a = (C.setSlot a (C.slot a).clearSh1).setAccessible (C.Reclaims p a) true := by
  unfold reclaim
  rw [access_eq, setSlot_slot_self, above_eq (C := C)]
  . rfl
  . rfl
  . rfl
  . exact setSlot_has (by rfl)
  . exact setSlot_startAddr (by rfl)
  . exact setSlot_endAddr (by rfl)

theorem access_clearGiven {c a : Nat} (h : (C.slot a).GivenTo c) (p : Nat)
    : (C.clearGiven c).access p a true = (C.clearGiven c).setAccessible (C.Reclaims p a) true := by
  rw [access_eq, clearGiven_above, clearGiven_slot_of_given h]
  rfl

/--
Taking a block back is the same before and after all the records of the partition are cleared.
-/
theorem clearGiven_reclaim {c p a : Nat} (hc : c ≠ 0) (h : (C.slot a).GivenTo c)
    : (C.reclaim p a).clearGiven c = (C.clearGiven c).access p a true := by
  rw [access_clearGiven h, reclaim_eq, clearGiven_setAccessible, clearGiven_setSlot hc h]

/--
The blocks of `c` are being taken back by its parent, `X` is the view so far. What the code still has
to clear is cleared in `X.clearGiven c`, the view that transitions lead to.
-/
structure Reclaiming (C : Conf) (c : Nat) (X : Conf) : Prop where
  sep : X.Sep
  steps : Relation.ReflTransGen Move C (X.clearGiven c)
  cur : X.cur = C.cur
  live : X.Live = (C.dropTree c).Live
  structures : X.structures = C.structures
  present : ∀ a, (X.slot a).present = (C.slot a).present
  startAddr : ∀ a, (X.slot a).startAddr = (C.slot a).startAddr
  endAddr : ∀ a, (X.slot a).endAddr = (C.slot a).endAddr
  given : ∀ a, (X.slot a).GivenTo c → (C.slot a).GivenTo c

theorem Static.given_notMem (hC : C.Static) {p a c : Nat} (hc : c ≠ 0) (ha : C.Has p a)
    (hgiven : (C.slot a).GivenTo c) : (C.slot a).startAddr ∉ C.structures p := by
  intro hmem
  rcases hC.start_eq_of_structure ha hmem (hC.mem_range_start ha) with ⟨-, hchild, -, hflag⟩
  rcases hgiven with h | ⟨h, -⟩
  . exact hc (h.symm.trans hchild)
  . exact absurd (h.symm.trans hflag) (by simp)

/--
The blocks given to `c` are blocks of its parent.
-/
theorem Static.has_of_given (hC : C.Static) {q a c : Nat} (hc : c ≠ 0) (ha : C.Owns q a)
    (hgiven : (C.slot a).GivenTo c) : C.Has q a ∧ C.parent c = q := by
  have hpresent : (C.slot a).present = true := by
    by_contra hfree
    have hempty := hC.free_empty q a ha (Bool.eq_false_iff.mpr hfree)
    rw [hempty] at hgiven
    rcases hgiven with h | ⟨h, -⟩
    . exact hc h.symm
    . exact absurd h (by simp [Slot.empty])
  refine ⟨⟨ha, hpresent⟩, ?_⟩
  rcases hgiven with h | ⟨h, hstart⟩
  . have := (hC.child_kind q a ⟨ha, hpresent⟩ (by rw [h]; exact hc)).2.1
    rw [h] at this
    exact this
  . have := (hC.flag_kind q a ⟨ha, hpresent⟩ h).2.2.2.1
    rw [hstart] at this
    exact this

namespace Reclaiming

variable {X : Conf} {c : Nat}

theorem owns_iff (h : C.Reclaiming c X) (q a : Nat) : X.Owns q a ↔ C.Owns q a ∧ ¬C.Below c q := by
  unfold Owns
  rw [h.live, h.structures]
  simp only [dropTree]
  constructor
  . rintro ⟨⟨hq, hbelow⟩, hk⟩
    exact ⟨⟨hq, hk⟩, hbelow⟩
  . rintro ⟨⟨hq, hk⟩, hbelow⟩
    exact ⟨⟨hq, hbelow⟩, hk⟩

theorem start (hC : C.Static) (hdrop : C.CanDrop c) : C.Reclaiming c (C.dropTree c) where
  sep := by
    have hsep := (hC.dropPartition hdrop).sep
    rw [dropPartition_eq] at hsep
    refine hsep.transfer (C.dropTree c) rfl rfl rfl rfl rfl ?_ hsep.free_nodup ?_
    . intro q a ha
      have hbounds := (C.dropTree c).clearGiven_bounds c a
      exact ⟨((C.dropTree c).clearGiven_has c q a).mpr ha, hbounds.1.symm, hbounds.2.1.symm⟩
    . intro q a hq ha
      have := hsep.free_sub q a hq ha
      rw [((C.dropTree c).clearGiven_bounds c a).2.2] at this
      exact this
  steps := Relation.ReflTransGen.single (C.dropPartition_eq c ▸ Move.dropPartition hdrop)
  cur := rfl
  live := rfl
  structures := rfl
  present _ := rfl
  startAddr _ := rfl
  endAddr _ := rfl
  given _ h := h

theorem reclaim (hC : C.Static) (hc : c ≠ 0) (h : C.Reclaiming c X) {a : Nat} (ha : X.Has C.cur a)
    (hgiven : (X.slot a).GivenTo c)
    : C.Reclaiming c (X.reclaim C.cur a)
        ∧ (∀ x, x ≠ a → ((X.reclaim C.cur a).slot x).PDchild = (X.slot x).PDchild ∧
          ((X.reclaim C.cur a).slot x).PDflag = (X.slot x).PDflag)
        ∧ ¬((X.reclaim C.cur a).slot a).GivenTo c := by
  have hself : (X.reclaim C.cur a).slot a = { (X.slot a).clearSh1 with accessible := true } := by
    rw [reclaim_eq, setAccessible.slot_of_mem _ _ _ _ (Or.inl rfl), setSlot_slot_self]
  have hother : ∀ x, x ≠ a → ((X.reclaim C.cur a).slot x).PDchild = (X.slot x).PDchild ∧
      ((X.reclaim C.cur a).slot x).PDflag = (X.slot x).PDflag ∧
      ((X.reclaim C.cur a).slot x).startAddr = (X.slot x).startAddr := by
    intro x hx
    rw [reclaim_eq, setAccessible.PDchild, setAccessible.PDflag, setAccessible.startAddr,
      setSlot_slot_of_ne _ _ hx]
    exact ⟨rfl, rfl, rfl⟩
  have hnot : ¬((X.reclaim C.cur a).slot a).GivenTo c := by
    rw [hself]
    rintro (hchild | ⟨hflag, -⟩)
    . exact hc hchild.symm
    . exact absurd hflag (by simp [Slot.clearSh1])
  have hless : ∀ x, ((X.reclaim C.cur a).slot x).GivenTo c → (X.slot x).GivenTo c := by
    intro x hx
    by_cases hxa : x = a
    . subst hxa
      exact absurd hx hnot
    . unfold Slot.GivenTo at hx ⊢
      rw [(hother x hxa).1, (hother x hxa).2.1, (hother x hxa).2.2] at hx
      exact hx
  have hhas : C.Has C.cur a := by
    refine ⟨((h.owns_iff _ a).mp ha.1).1, ?_⟩
    rw [← h.present]
    exact ha.2
  refine ⟨?_, fun x hx => ⟨(hother x hx).1, (hother x hx).2.1⟩, hnot⟩
  constructor
  case sep =>
    rw [reclaim_eq]
    exact (h.sep.setSlot a (X.slot a).clearSh1 rfl rfl rfl).setAccessible _ _
  case steps =>
    rw [clearGiven_reclaim hc hgiven]
    refine h.steps.tail (Move.access ?_)
    have hslot := clearGiven_slot_of_given hgiven
    constructor
    case has => exact (X.clearGiven_has c _ a).mpr ha
    case inChild_eq =>
      rw [hslot]
      rfl
    case flag_eq =>
      rw [hslot]
      exact fun _ => rfl
    case PDchild_eq =>
      rw [hslot]
      exact fun _ => rfl
    case notMem =>
      intro _
      rw [(X.clearGiven_bounds c a).1, h.startAddr]
      show _ ∉ X.structures C.cur
      rw [h.structures]
      exact hC.given_notMem hc hhas (h.given a hgiven)
  case cur => exact h.cur
  case live => exact h.live
  case structures => exact h.structures
  case present =>
    intro x
    rw [reclaim_eq, setAccessible.present, ← h.present]
    by_cases hx : x = a
    . subst hx
      rw [setSlot_slot_self]
      rfl
    . rw [setSlot_slot_of_ne _ _ hx]
  case startAddr =>
    intro x
    rw [reclaim_eq, setAccessible.startAddr, ← h.startAddr, setSlot_startAddr (by rfl)]
  case endAddr =>
    intro x
    rw [reclaim_eq, setAccessible.endAddr, ← h.endAddr, setSlot_endAddr (by rfl)]
  case given => exact fun x hx => h.given x (hless x hx)

end Reclaiming

end Conf
