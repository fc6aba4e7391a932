import PipMpu.Spec.Removal

/-!
This module contains chains of shares: a partition shares a block with a child, the child shares what it received with
a child of its own, and so on. Freeing all slots of such a chain leads back to the view before the first share.
-/

namespace Conf

/--
From the view `C` on, the block `b` of `p` is shared on with the partitions of the list, in whose slots it appears.
-/
inductive SharedDown : Conf → Nat → Nat → List (Nat × Nat) → Conf → Prop where
  | nil {C : Conf} {p b : Nat} : SharedDown C p b [] C
  | cons {C C' : Conf} {p b c f : Nat} {rest : List Nat} {r w x : Bool} {l : List (Nat × Nat)} :
      C.CanShare p b c f rest r w x → SharedDown ((C.switch p).share b c f rest r w x) c f l C' →
      SharedDown C p b ((c, f) :: l) C'

theorem CanShare.switch {C : Conf} {p b c f q : Nat} {rest : List Nat} {r w x : Bool}
    (h : C.CanShare p b c f rest r w x) : (C.switch q).CanShare p b c f rest r w x :=
  ⟨h.has, h.accessible_eq, h.PDchild_eq, h.flag_eq, h.notMem, h.live, h.ne_root, h.parent_eq, h.free_eq, h.read_eq,
    h.write_le, h.exec_le⟩

theorem CanShare.depth_eq {C : Conf} (hC : C.Static) {p b c f : Nat} {rest : List Nat} {r w x : Bool}
    (h : C.CanShare p b c f rest r w x) : C.depth c = C.depth p + 1 := by
  rw [hC.depth_parent c h.live h.ne_root, h.parent_eq]

theorem Inv.shared {C : Conf} (hC : C.Inv) {p b c f : Nat} {rest : List Nat} {r w x : Bool}
    (h : C.CanShare p b c f rest r w x) : ((C.switch p).share b c f rest r w x).Inv :=
  (hC.switch h.has.live).share h.switch

theorem Copies.unique {C : Conf} {p a : Nat} {l l' : List (Nat × Nat)} (h : C.Copies p a l) (h' : C.Copies p a l')
    : l = l' := by
  induction h generalizing l' with
  | last hlast =>
    cases h' with
    | last _ => rfl
    | next hne _ => exact absurd hlast hne
  | next hne _ ih =>
    cases h' with
    | last hlast => exact absurd hlast hne
    | next _ hrest => rw [ih hrest]

namespace SharedDown

variable {C C' : Conf} {p b : Nat} {l : List (Nat × Nat)}

theorem inv (h : SharedDown C p b l C') (hC : C.Inv) : C'.Inv := by
  induction h with
  | nil => exact hC
  | cons hshare _ ih => exact ih (hC.shared hshare)

/--
The slots of the chain lie below the partition it starts in.
-/
theorem owns_lt (h : SharedDown C p b l C') (hC : C.Inv) : ∀ x ∈ l, C.Owns x.1 x.2 ∧ C.depth p < C.depth x.1 := by
  induction h with
  | nil => simp
  | @cons C C' p b c f rest r w x l hshare _ ih =>
    have hdepth := hshare.depth_eq hC.static
    intro y hy
    rcases List.mem_cons.mp hy with rfl | hmem
    . have hlt : C.depth p < C.depth c := by omega
      exact ⟨(hshare.free_slot hC.static).1, hlt⟩
    . rcases ih (hC.shared hshare) y hmem with ⟨howns, hlt⟩
      have hlt : C.depth c < C.depth y.1 := hlt
      exact ⟨howns, by omega⟩

/--
What a share writes lies above the slots that the chain goes on with.
-/
theorem not_mem (h : SharedDown C p b l C') (hC : C.Inv) {q a : Nat} (ha : C.Owns q a)
    (hdepth : C.depth q ≤ C.depth p) : a ∉ l.map Prod.snd := by
  intro hmem
  rcases List.mem_map.mp hmem with ⟨x, hx, rfl⟩
  rcases h.owns_lt hC x hx with ⟨howns, hlt⟩
  rw [hC.static.owns_unique ha howns] at hdepth
  omega

theorem slot_eq (h : SharedDown C p b l C') {a : Nat} (hab : a ≠ b) (ha : a ∉ l.map Prod.snd)
    : C'.slot a = C.slot a := by
  induction h with
  | nil => rfl
  | @cons C C' p b c f rest r w x l _ _ ih =>
    rw [List.map_cons, List.mem_cons, not_or] at ha
    rw [ih ha.1 ha.2]
    exact CanShare.slot_other hab ha.1

theorem slot_first {c f : Nat} (h : SharedDown C p b ((c, f) :: l) C') (hC : C.Inv)
    : C'.slot b = { C.slot b with PDchild := c, inChildLocation := f } := by
  cases h with
  | cons hshare hrest =>
    have hne := hshare.ne hC.static
    have hC₁ := hC.shared hshare
    have hdepth := hshare.depth_eq hC.static
    have hlt : C.depth p ≤ C.depth c := by omega
    have hb := hrest.not_mem hC₁ (q := p) hshare.has.1 hlt
    rw [hrest.slot_eq hne hb]
    exact CanShare.slot_self hne

/--
The copies of the block are the slots of the chain.
-/
theorem copies (h : SharedDown C p b l C') (hC : C.Inv) (hlast : (C.slot b).inChildLocation = 0)
    : C'.Copies p b ((p, b) :: l) := by
  induction h with
  | nil => exact .last hlast
  | @cons C C' p b c f rest r w x l hshare hrest ih =>
    have hC₁ := hC.shared hshare
    have hself := (SharedDown.cons hshare hrest).slot_first hC
    have hnew : (((C.switch p).share b c f rest r w x).slot f).inChildLocation = 0 := by
      rw [CanShare.slot_new]
      rfl
    have hcopies := ih hC₁ hnew
    have hf := hC.static.owns_ne_zero (hshare.free_slot hC.static).1
    refine .next ?_ ?_
    . rw [hself]
      exact hf
    . rw [hself]
      exact hcopies

/--
If the slots of the chain are freed and the record of the block is as before, everything is.
-/
theorem freeAll_setSlot (h : SharedDown C p b l C') (hC : C.Inv)
    : (C'.freeAll l).setSlot b (C.slot b) = C.switch C'.cur := by
  induction h with
  | @nil C p b =>
    rw [freeAll_nil]
    refine Conf.ext rfl rfl rfl rfl rfl rfl rfl rfl ?_
    funext a
    by_cases hab : a = b
    . rw [hab, setSlot_slot_self]
      rfl
    . rw [setSlot_slot_of_ne _ _ hab]
      rfl
  | @cons C C' p b c f rest r w x l hshare hrest ih =>
    have hS := hC.static
    have hC₁ := hC.shared hshare
    have hf := hshare.free_slot hS
    have hback := ih hC₁
    have hc : l.filter (fun x => x.1 = c) = [] := by
      rw [List.filter_eq_nil_iff]
      intro y hy heq
      have hlt := (hrest.owns_lt hC₁ y hy).2
      rw [of_decide_eq_true heq] at hlt
      exact absurd hlt (Nat.lt_irrefl _)
    refine Conf.ext rfl ?_ ?_ ?_ ?_ ?_ ?_ ?_ ?_
    case refine_1 =>
      have hroot := congrArg Conf.root hback
      exact hroot
    case refine_2 =>
      have hrootStructure := congrArg Conf.rootStructure hback
      exact hrootStructure
    case refine_3 =>
      have hlive := congrArg Conf.Live hback
      exact hlive
    case refine_4 =>
      have hparent := congrArg Conf.parent hback
      exact hparent
    case refine_5 =>
      have hdepth := congrArg Conf.depth hback
      exact hdepth
    case refine_6 =>
      have hstructures := congrArg Conf.structures hback
      exact hstructures
    case refine_7 =>
      funext q
      have hfree := congrFun (congrArg Conf.free hback) q
      simp only [setSlot, freeAll, Conf.switch, share] at hfree ⊢
      by_cases hq : q = c
      . subst hq
        rw [hc, if_pos rfl] at hfree
        rw [List.filter_cons_of_pos (by simp), hc, hshare.free_eq, ← hfree]
        rfl
      . rw [if_neg hq] at hfree
        rw [List.filter_cons_of_neg (by simpa using Ne.symm hq)]
        exact hfree
    case refine_8 =>
      funext a
      have hslot := congrFun (congrArg Conf.slot hback) a
      by_cases hab : a = b
      . rw [hab, setSlot_slot_self]
        rfl
      . rw [setSlot_slot_of_ne _ _ hab]
        by_cases haf : a = f
        . subst haf
          have hmem : a ∈ ((c, a) :: l).map Prod.snd := by simp
          have hempty := hS.free_empty c a hf.1 hf.2
          exact (if_pos hmem).trans hempty.symm
        . rw [setSlot_slot_of_ne _ _ haf] at hslot
          have hother : ((C.switch p).share b c f rest r w x).slot a = C.slot a := CanShare.slot_other hab haf
          refine Eq.trans ?_ (hslot.trans hother)
          simp only [freeAll, List.map_cons, List.mem_cons, haf, false_or]

end SharedDown

end Conf
