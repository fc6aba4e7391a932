import PipMpu.Spec.Removal

/-!
This module contains transitions that undo each other: a merge the cut before it, and giving back the
structure that was linked last its link.
-/

theorem Slot.eq_of_unused {sl : Slot} (hacc : sl.accessible = true) (hchild : sl.PDchild = 0)
    (hflag : sl.PDflag = false) (hloc : sl.inChildLocation = 0)
    : { sl with accessible := true, PDchild := 0, PDflag := false, inChildLocation := 0 } = sl := by
  rw [← hflag, ← hacc]
  rcases sl with ⟨_, _, _, _, _, _, _, _, _, _, _, _⟩
  dsimp only at hchild hloc
  rw [hchild, hloc]

namespace Conf

variable {C : Conf} {p b f cutAddr : Nat} {rest : List Nat}

theorem slot_eq_of_free (hC : C.Static) {q a : Nat} (ha : C.Owns q a) (hpresent : (C.slot a).present = false)
    : Slot.empty = C.slot a :=
  (hC.free_empty q a ha hpresent).symm

/-
Walks
-/

/--
The blocks above an accessible block with the same bounds are accessible.
-/
theorem Inv.accessible_above (hC : C.Inv) {lo hi A : Nat} (h : C.Above lo hi p A) (hb : C.Has p b)
    (hlo : (C.slot b).startAddr = lo) (hhi : (C.slot b).endAddr = hi) (hacc : (C.slot b).accessible = true)
    : (C.slot A).accessible = true := by
  have hhost : ∀ {q a B : Nat}, q ≠ C.root → C.Has q a → (C.slot a).startAddr = lo → (C.slot a).endAddr = hi →
      (C.slot a).accessible = true → C.Has (C.parent q) B → (C.slot B).startAddr = lo →
      (C.slot B).endAddr = hi → (C.slot B).accessible = true := by
    intro q a B hq ha hlo hhi hacc hB hBlo hBhi
    have hstart : (C.slot B).startAddr = (C.slot a).startAddr := hBlo.trans hlo.symm
    have hend : (C.slot B).endAddr = (C.slot a).endAddr := hBhi.trans hhi.symm
    have hhosts := hC.static.hosts_of_exact hq ha hB hstart
    have huncut := (hC.static.uncut_iff hq ha hhosts).mpr ⟨hstart, hend⟩
    exact (hC.coherent q a hq ha B hhosts).mpr ⟨huncut, hacc⟩
  induction h generalizing b with
  | parent hp hA hAlo hAhi => exact hhost hp hb hlo hhi hacc hA hAlo hAhi
  | further hp hA hAlo hAhi _ ih => exact ih hA hAlo hAhi (hhost hp hb hlo hhi hacc hA hAlo hAhi)

/--
Taking the blocks above from the ancestors and giving them back changes nothing.
-/
theorem Inv.walk_walk (hC : C.Inv) {lo hi : Nat} (hb : C.Has p b) (hlo : (C.slot b).startAddr = lo)
    (hhi : (C.slot b).endAddr = hi) (hacc : (C.slot b).accessible = true)
    : (C.walk p lo hi false).walk p lo hi true = C := by
  unfold walk
  rw [above_setAccessible]
  refine Conf.ext rfl rfl rfl rfl rfl rfl rfl rfl ?_
  funext a
  by_cases ha : C.Above lo hi p a
  . rw [setAccessible.slot_of_mem _ _ _ _ ha, setAccessible.slot_of_mem _ _ _ _ ha]
    have habove := hC.accessible_above ha hb hlo hhi hacc
    dsimp only
    rw [← habove]
  . rw [setAccessible.slot_of_notMem _ _ _ _ ha, setAccessible.slot_of_notMem _ _ _ _ ha]

theorem Inv.walkFrom_walkFrom (hC : C.Inv) (hb : C.Has p b) (hacc : (C.slot b).accessible = true)
    : (C.walkFrom p b false).walkFrom p b true = C := by
  by_cases huncut : (C.slot b).Uncut
  . have huncut' : ((C.walkFrom p b false).slot b).Uncut := by
      rw [hC.static.slot_walkFrom_self hb]
      exact huncut
    rw [walkFrom_of_uncut huncut', hC.static.slot_walkFrom_self hb, walkFrom_of_uncut huncut]
    exact hC.walk_walk hb rfl rfl hacc
  . have hcut : ¬((C.walkFrom p b false).slot b).Uncut := by
      rw [hC.static.slot_walkFrom_self hb]
      exact huncut
    rw [walkFrom_of_cut hcut, walkFrom_of_cut huncut]

/-
Cut and merge
-/

theorem CanSplit.join_split (hC : C.Static) (h : C.CanSplit p b f cutAddr rest)
    : (C.split p b f cutAddr rest).join p b f = C := by
  have hne := h.ne hC
  have hf := h.free_slot hC
  refine Conf.ext rfl rfl rfl rfl rfl rfl rfl ?_ ?_
  . funext q
    by_cases hq : q = p
    . subst hq
      simp only [join, split, if_true]
      exact h.free_eq.symm
    . simp only [join, split, if_neg hq]
  . funext a
    by_cases haf : a = f
    . subst haf
      rw [CanJoin.slot_freed]
      exact slot_eq_of_free hC hf.1 hf.2
    . by_cases hab : a = b
      . subst hab
        rw [CanJoin.slot_merged hne, CanSplit.slot_cut hne, CanSplit.slot_new]
      . rw [CanJoin.slot_other hab haf, CanSplit.slot_other hab haf]

theorem CanSplit.canJoin (hC : C.Static) (h : C.CanSplit p b f cutAddr rest)
    : (C.split p b f cutAddr rest).CanJoin p b f := by
  have hne := h.ne hC
  constructor
  case has₁ => exact (h.has_iff hC p b).mpr (.inl h.has)
  case has₂ => exact (h.has_iff hC p f).mpr (.inr ⟨rfl, rfl⟩)
  case next_eq => rw [CanSplit.slot_cut hne]
  case PDchild₁ =>
    rw [CanSplit.slot_cut hne]
    exact h.PDchild_eq
  case PDchild₂ =>
    rw [CanSplit.slot_new]
    exact h.PDchild_eq
  case flag₁ =>
    rw [CanSplit.slot_cut hne]
    exact h.flag_eq
  case flag₂ =>
    rw [CanSplit.slot_new]
    exact h.flag_eq
  case notMem₁ =>
    rw [CanSplit.slot_cut hne]
    exact h.notMem
  case notMem₂ =>
    rw [CanSplit.slot_new]
    intro hmem
    have hstart := (hC.start_eq_of_structure h.has hmem ⟨Nat.le_of_lt h.start_lt, h.lt_end⟩).1
    have hlt : (C.slot b).startAddr < cutAddr := h.start_lt
    rw [hstart] at hlt
    exact absurd hlt (Nat.lt_irrefl _)

/--
What a cut leaves can be merged, and the merge leads back.
-/
theorem Inv.merge_cut (hC : C.Inv) (h : C.CanSplit p b f cutAddr rest) (hacc : (C.slot b).accessible = true)
    : (C.cut p b f cutAddr rest).CanJoin p b f
        ∧ ((C.cut p b f cutAddr rest).slot b).accessible = true
        ∧ ((C.cut p b f cutAddr rest).slot f).accessible = true
        ∧ (C.cut p b f cutAddr rest).merge p b f = C := by
  have hw := h.walkFrom false
  have hS := hC.static.walkFrom p b false
  have hself := hC.static.slot_walkFrom_self h.has false
  unfold Conf.cut
  refine ⟨hw.canJoin hS, ?_, ?_, ?_⟩
  . rw [CanSplit.slot_cut (hw.ne hS), hself]
    exact hacc
  . rw [CanSplit.slot_new, hself]
    exact hacc
  . unfold Conf.merge
    rw [hw.join_split hS]
    exact hC.walkFrom_walkFrom h.has hacc

/-
A structure that is given back
-/

/--
Take the structure `k` out of the structures of `t`, its block stays as it is.
-/
def unlinkStructure (C : Conf) (t k : Nat) : Conf :=
  { C with
    structures := fun q => if q = t then (C.structures t).erase k else C.structures q
    free := fun q => if q = t then (C.free t).filter (· ∉ slotsOf k) else C.free q }

/--
Take the structure `k` out of the structures of `t` and make the block `b` that it lies in accessible. The walk starts
in `t`.
-/
noncomputable def giveBack (C : Conf) (t k b : Nat) : Conf :=
  let taken := ((C.unlinkStructure t k).setAccessible (· = b) true).walkFrom t b true
  taken.setSlot b (taken.slot b).clearSh1

section

variable {t k : Nat}

theorem unlink_eq : C.unlink t k b = (C.unlinkStructure t k).setSlot b (C.slot b).clearSh1 := by
  rfl

theorem CanUnlink.sep_unlinkStructure (hC : C.Static) (h : C.CanUnlink t k b) : (C.unlinkStructure t k).Sep := by
  have hsep := (hC.unlink h).sep
  rw [unlink_eq] at hsep
  have hback := hsep.setSlot b (C.slot b) (by rw [setSlot_slot_self]; rfl) (by rw [setSlot_slot_self]; rfl)
    (by rw [setSlot_slot_self]; rfl)
  rw [setSlot_setSlot] at hback
  exact setSlot_self (C.unlinkStructure t k) b ▸ hback

/--
All slots of an empty structure are free.
-/
theorem CanUnlink.length_free (hC : C.Static) (h : C.CanUnlink t k b)
    : (C.free t).length = ((C.free t).filter (· ∉ slotsOf k)).length + 8 := by
  have hslots : ((C.free t).filter (· ∈ slotsOf k)).Perm (slotsOf k) := by
    rw [List.perm_ext_iff_of_nodup ((hC.free_nodup t h.live).filter _) (slotsOf_nodup k)]
    intro a
    rw [List.mem_filter, decide_eq_true_eq, and_iff_right_iff_imp]
    intro ha
    exact (hC.mem_free t a h.live).mpr ⟨⟨h.live, k, h.mem, ha⟩, h.empty a ha⟩
  have hsum := List.length_eq_length_filter_add (l := C.free t) (decide <| · ∈ slotsOf k)
  rw [hslots.length_eq, slotsOf_length] at hsum
  simp only [decide_not]
  omega

theorem CanUnlink.has_unlinkStructure (hC : C.Static) (h : C.CanUnlink t k b) (q a : Nat)
    : (C.unlinkStructure t k).Has q a ↔ C.Has q a := by
  rw [← h.has_iff hC, unlink_eq, setSlot_has]
  rfl

namespace CanLink

/--
A structure that was just linked can be taken out again.
-/
theorem canUnlink (hC : C.Static) (h : C.CanLink t p b)
    : (C.link t p b).CanUnlink t (C.slot b).startAddr b where
  live := h.live
  mem := by
    rw [structures_self]
    exact List.mem_cons_self
  houses := h.houses hC
  empty a ha := by
    rw [slot_new ha]
    rfl

theorem structures_unlinkStructure (q : Nat)
    : ((C.link t p b).unlinkStructure t (C.slot b).startAddr).structures q = C.structures q := by
  by_cases hq : q = t
  . subst hq
    simp only [unlinkStructure, structures_self, if_true, List.erase_cons_head]
  . simp only [unlinkStructure, structures_other hq, if_neg hq]

theorem notMem_free (hC : C.Static) (h : C.CanLink t p b) : ∀ a ∈ C.free t, a ∉ slotsOf (C.slot b).startAddr := by
  intro a ha hmem
  exact h.not_owns_new hmem ((hC.mem_free t a h.live).mp ha).1

theorem filter_free (hC : C.Static) (h : C.CanLink t p b)
    : ((C.link t p b).free t).filter (· ∉ slotsOf (C.slot b).startAddr) = C.free t := by
  have hfree : (C.link t p b).free t = slotsOf (C.slot b).startAddr ++ C.free t := if_pos rfl
  have hnew : (slotsOf (C.slot b).startAddr).filter (· ∉ slotsOf (C.slot b).startAddr) = [] := by
    rw [List.filter_eq_nil_iff]
    intro a ha
    simp [ha]
  rw [hfree, List.filter_append, hnew, List.nil_append, List.filter_eq_self]
  intro a ha
  simpa using h.notMem_free hC a ha

theorem free_unlinkStructure (hC : C.Static) (h : C.CanLink t p b) (q : Nat)
    : ((C.link t p b).unlinkStructure t (C.slot b).startAddr).free q = C.free q := by
  by_cases hq : q = t
  . subst hq
    simp only [unlinkStructure, if_true]
    exact h.filter_free hC
  . simp only [unlinkStructure, link, if_neg hq]

/--
The walk from `t` reaches what the walk from `p` reaches, and `b` itself if `t` is a child of `p`.
-/
theorem above_link (hC : C.Static) (h : C.CanLink t p b) {a : Nat} (hab : a ≠ b)
    : (C.link t p b).Above (C.slot b).startAddr (C.slot b).endAddr t a
        ↔ C.Above (C.slot b).startAddr (C.slot b).endAddr p a := by
  have hbounds := h.fields h.has.1
  have hup : (C.link t p b).Above (C.slot b).startAddr (C.slot b).endAddr p a ↔
      C.Above (C.slot b).startAddr (C.slot b).endAddr p a := by
    apply hC.sep.above_congr _ _ _ _ h.has.live
    . rfl
    . exact fun _ _ _ => rfl
    . exact fun q x _ => h.has_iff q x
    . exact fun _ _ _ hx => ⟨(h.fields hx.1).1, (h.fields hx.1).2.1⟩
  rcases h.target with rfl | ⟨-, hroot, hparent⟩
  . exact hup
  . have hchild := (hC.link h).sep.above_child hroot (b := b)
      (by show (C.link t p b).Has (C.parent t) b; rw [hparent]; exact (h.has_iff p b).mpr h.has) a
    rw [hbounds.1, hbounds.2.1] at hchild
    rw [hchild, or_iff_right hab, ← hup]
    show (C.link t p b).Above _ _ (C.parent t) a ↔ _
    rw [hparent]

end CanLink

theorem giveBack_structures (q : Nat) : (C.giveBack t k b).structures q = (C.unlinkStructure t k).structures q := by
  rfl

theorem giveBack_free (q : Nat) : (C.giveBack t k b).free q = (C.unlinkStructure t k).free q := by
  rfl

theorem giveBack_cur : (C.giveBack t k b).cur = C.cur := by
  rfl

theorem giveBack_root : (C.giveBack t k b).root = C.root := by
  rfl

theorem giveBack_live : (C.giveBack t k b).Live = C.Live := by
  rfl

theorem giveBack_parent : (C.giveBack t k b).parent = C.parent := by
  rfl

theorem giveBack_slot_self
    : (C.giveBack t k b).slot b
        =
      { C.slot b with accessible := true, PDchild := 0, PDflag := false, inChildLocation := 0 } := by
  unfold giveBack walkFrom
  rw [setSlot_slot_self, setAccessible_setAccessible, setAccessible.slot_of_mem _ _ _ _ (.inl rfl)]
  rfl

theorem giveBack_slot_of_ne {a : Nat} (hab : a ≠ b)
    : (C.giveBack t k b).slot a = ((C.unlinkStructure t k).walkFrom t b true).slot a := by
  unfold giveBack
  rw [setSlot_slot_of_ne _ _ hab]
  unfold walkFrom
  rw [setAccessible_setAccessible, above_setAccessible]
  simp only [setAccessible.uncut, setAccessible.startAddr, setAccessible.endAddr]
  by_cases ha : ((C.unlinkStructure t k).slot b).Uncut ∧ (C.unlinkStructure t k).Above
      ((C.unlinkStructure t k).slot b).startAddr ((C.unlinkStructure t k).slot b).endAddr t a
  . rw [setAccessible.slot_of_mem _ _ _ _ (.inr ha), setAccessible.slot_of_mem _ _ _ _ ha]
  . rw [setAccessible.slot_of_notMem, setAccessible.slot_of_notMem _ _ _ _ ha]
    simp [hab, ha]

/--
The walk from the block of an empty structure is the same with and without the structure.
-/
theorem CanUnlink.above_unlinkStructure (hC : C.Static) (h : C.CanUnlink t k b) (lo hi q : Nat)
    : (C.unlinkStructure t k).Above lo hi q = C.Above lo hi q := by
  apply above_eq
  case hhas => exact h.has_unlinkStructure hC
  all_goals first | rfl | exact fun _ => rfl

/--
Taking a block for a structure and giving it back changes no slot that was there before.
-/
theorem Inv.slot_giveBack (hC : C.Inv) (hacc : (C.slot b).accessible = true) (hcan : C.CanAccess p b false)
    (h : (C.access p b false).CanLink t p b) {q a : Nat} (ha : C.Owns q a)
    : (((C.access p b false).link t p b).giveBack t (C.slot b).startAddr b).slot a = C.slot a := by
  have hE := (hC.access hcan).static
  have haccess := access_eq C p b false
  generalize C.access p b false = E at h hE haccess
  have hstart : (E.slot b).startAddr = (C.slot b).startAddr := by
    rw [haccess, setAccessible.startAddr]
  have hEb : E.slot b = { C.slot b with accessible := false } := by
    rw [haccess, setAccessible.slot_of_mem _ _ _ _ (.inl rfl)]
  rw [← hstart]
  by_cases hab : a = b
  . subst hab
    have hchild := h.PDchild_eq
    have hflag := h.flag_eq
    have hloc := h.inChild_eq hE
    rw [hEb] at hchild hflag hloc
    rw [giveBack_slot_self, h.slot_self, hEb]
    exact Slot.eq_of_unused hacc hchild hflag hloc
  . have habove : E.Above (E.slot b).startAddr (E.slot b).endAddr p =
        C.Above (C.slot b).startAddr (C.slot b).endAddr p := by
      rw [haccess, above_setAccessible, setAccessible.startAddr, setAccessible.endAddr]
    have huncut : (E.slot b).Uncut ↔ (C.slot b).Uncut := by
      rw [haccess, setAccessible.uncut]
    have hEa : E.Owns q a := by
      rw [haccess]
      exact ha
    have hwalk : (((E.link t p b).slot b).Uncut ∧ ((E.link t p b).unlinkStructure t (E.slot b).startAddr).Above
        ((E.link t p b).slot b).startAddr ((E.link t p b).slot b).endAddr t a) ↔
        ((C.slot b).Uncut ∧ C.Above (C.slot b).startAddr (C.slot b).endAddr p a) := by
      rw [(h.canUnlink hE).above_unlinkStructure (hE.link h), h.slot_self]
      show (E.slot b).Uncut ∧ (E.link t p b).Above (E.slot b).startAddr (E.slot b).endAddr t a ↔ _
      rw [h.above_link hE hab, habove, huncut]
    have hslot : (E.link t p b).slot a = E.slot a := h.slot_other hEa hab
    rw [giveBack_slot_of_ne hab]
    unfold walkFrom
    by_cases hmem : (C.slot b).Uncut ∧ C.Above (C.slot b).startAddr (C.slot b).endAddr p a
    . rw [setAccessible.slot_of_mem _ _ _ _ (hwalk.mpr hmem)]
      show { (E.link t p b).slot a with accessible := true } = _
      rw [hslot, haccess, setAccessible.slot_of_mem _ _ _ _ (.inr hmem)]
      have habove := hC.accessible_above hmem.2 hcan.has rfl rfl hacc
      dsimp only
      rw [← habove]
    . rw [setAccessible.slot_of_notMem _ _ _ _ fun h => hmem (hwalk.mp h)]
      show (E.link t p b).slot a = _
      rw [hslot, haccess, setAccessible.slot_of_notMem _ _ _ _ (by simp [hab, hmem])]

/--
A block that is not shared is the block of the structure that it starts with.
-/
theorem Static.houses_of_start (hC : C.Static) (ht : C.Live t) (hk : k ∈ C.structures t) (hb : C.Has p b)
    (hstart : (C.slot b).startAddr = k) (hloc : (C.slot b).inChildLocation = 0) : C.Houses t k b := by
  have hxb := hC.mem_range_start hb
  rw [hstart] at hxb
  rcases hC.structure_house t k ht hk with ⟨-, hk₀⟩ | ⟨H, hH⟩
  . rw [hk₀] at hxb
    exact absurd hxb (Set.disjoint_left.mp (hC.root_disjoint_block hb).2 (mem_structureRange_self _))
  . rcases hH.has with ⟨r, hr⟩
    have hxH := Static.structureRange_subset hH (mem_structureRange_self k)
    rw [(hC.eq_of_not_lent hb hr hloc hH.inChild_eq hxb hxH).2]
    exact hH

namespace CanUnlink

theorem holder (hC : C.Static) (h : C.CanUnlink t k b) (hb : C.Has p b)
    : t = p ∨ (t ≠ C.root ∧ C.parent t = p) := by
  rcases h.houses.holder with ⟨hown, -⟩ | ⟨hroot, hgiven, -⟩
  . exact Or.inl (hC.has_unique hown hb)
  . exact Or.inr ⟨hroot, hC.has_unique hgiven hb⟩

theorem canAccess (hC : C.Static) (h : C.CanUnlink t k b) (hb : C.Has p b)
    : (C.unlink t k b).CanAccess p b true where
  has := (h.has_iff hC p b).mpr hb
  inChild_eq := by rw [slot_self]; rfl
  flag_eq _ := by rw [slot_self]; rfl
  PDchild_eq _ := by rw [slot_self]; rfl
  notMem _ := by
    rw [(fields b).1, h.houses.start_eq, h.mem_structures hC]
    rintro ⟨hk, hne⟩
    exact hne ⟨(hC.structures_disjoint hb.live h.live hk h.mem (mem_structureRange_self k)
      (mem_structureRange_self k)).1, rfl⟩

/--
A structure is given back in two steps: it is taken out, then its block becomes accessible.
-/
theorem giveBack_eq (hC : C.Static) (h : C.CanUnlink t k b) (hb : C.Has p b)
    : C.giveBack t k b = (C.unlink t k b).access p b true := by
  have habove : ∀ lo hi, (C.unlink t k b).Above lo hi p = C.Above lo hi p := by
    intro lo hi
    apply above_eq
    case hhas => exact h.has_iff hC
    case hstart => exact fun a => (fields a).1
    case hend => exact fun a => (fields a).2.1
    all_goals rfl
  have huncut : ((C.unlink t k b).slot b).Uncut ↔ (C.slot b).Uncut := by
    unfold Slot.Uncut
    rw [(fields b).1, (fields b).2.2.1, (fields b).2.2.2.1]
  rw [access_eq, huncut, habove, (fields b).1, (fields b).2.1]
  refine Conf.ext rfl rfl rfl rfl rfl rfl rfl rfl ?_
  funext a
  by_cases hab : a = b
  . rw [hab, giveBack_slot_self, setAccessible.slot_of_mem _ _ _ _ (.inl rfl), slot_self]
    rfl
  . rw [giveBack_slot_of_ne hab]
    unfold walkFrom
    rw [h.above_unlinkStructure hC]
    have hsame : (C.slot b).Uncut ∧ C.Above (C.slot b).startAddr (C.slot b).endAddr t a ↔
        a = b ∨ (C.slot b).Uncut ∧ C.Above (C.slot b).startAddr (C.slot b).endAddr p a := by
      rw [or_iff_right hab]
      rcases h.holder hC hb with rfl | ⟨hroot, rfl⟩
      . rfl
      . rw [hC.sep.above_child hroot hb, or_iff_right hab]
    by_cases ha : (C.slot b).Uncut ∧ C.Above (C.slot b).startAddr (C.slot b).endAddr t a
    . rw [setAccessible.slot_of_mem _ _ _ _ ha, setAccessible.slot_of_mem _ _ _ _ (hsame.mp ha), slot_other hab]
      rfl
    . rw [setAccessible.slot_of_notMem _ _ _ _ ha, setAccessible.slot_of_notMem _ _ _ _ fun ha' => ha (hsame.mpr ha'),
        slot_other hab]
      rfl

end CanUnlink

end

end Conf
