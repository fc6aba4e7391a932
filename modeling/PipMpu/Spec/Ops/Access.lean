import PipMpu.Spec.Walk

/-!
This module contains the abstract change of access to a block that is not shared: the bit is written
to the block itself and, while the block spans the whole block it was made of, to the ancestors.
-/

namespace Conf

variable {C : Conf}

noncomputable def access (C : Conf) (p b : Nat) (v : Bool) : Conf :=
  (C.setAccessible (· = b) v).walkFrom p b v

theorem access_eq (C : Conf) (p b : Nat) (v : Bool)
    : C.access p b v
        =
      C.setAccessible
        (fun a => a = b ∨
          ((C.slot b).Uncut ∧ C.Above (C.slot b).startAddr (C.slot b).endAddr p a)) v := by
  simp only [access, walkFrom, above_setAccessible, setAccessible_setAccessible, setAccessible.uncut,
    setAccessible.startAddr, setAccessible.endAddr]

theorem access_of_uncut {p b : Nat} {v : Bool} (h : (C.slot b).Uncut)
    : C.access p b v
        =
      (C.setAccessible (· = b) v).walk p (C.slot b).startAddr (C.slot b).endAddr v := by
  unfold access
  rw [walkFrom_of_uncut (by simpa using h), setAccessible.startAddr, setAccessible.endAddr]

theorem access_of_cut {p b : Nat} {v : Bool} (h : ¬(C.slot b).Uncut)
    : C.access p b v = C.setAccessible (· = b) v := by
  unfold access
  rw [walkFrom_of_cut (by simpa using h)]

/--
A block may become accessible once it holds no kernel data.
-/
structure CanAccess (C : Conf) (p b : Nat) (v : Bool) : Prop where
  has : C.Has p b
  inChild_eq : (C.slot b).inChildLocation = 0
  flag_eq : v = true → (C.slot b).PDflag = false
  PDchild_eq : v = true → (C.slot b).PDchild = 0
  notMem : v = true → (C.slot b).startAddr ∉ C.structures p

variable {p b : Nat} {v : Bool}

theorem Closed.setAccessible_self (hS : C.Static) (hC : C.Closed) (h : C.CanAccess p b v)
    : (C.setAccessible (· = b) v).Closed := by
  have hself : (C.setAccessible (· = b) v).slot b = { C.slot b with accessible := v } :=
    setAccessible.slot_of_mem C (· = b) v b rfl
  have hother : ∀ a, a ≠ b → (C.setAccessible (· = b) v).slot a = C.slot a := by
    intro a hab
    exact setAccessible.slot_of_notMem C (· = b) v a hab
  constructor
  . intro q a ha hflag
    simp only [setAccessible.has, setAccessible.PDflag] at ha hflag
    have := hC.flag q a ha hflag
    have := h.flag_eq
    grind
  . intro q a ha hpd hloc
    simp only [setAccessible.has, setAccessible.PDchild, setAccessible.inChildLocation] at ha hpd hloc
    have := hC.given q a ha hpd hloc
    have := h.PDchild_eq
    grind
  . intro q a ha hk
    simp only [setAccessible.has, setAccessible.startAddr, setAccessible.structures] at ha hk
    have := hC.own q a ha hk
    have := h.notMem
    have hunique : a = b → q = p := fun hab => hS.has_unique (hab ▸ ha) h.has
    grind

theorem Coherent.setAccessible_self (hC : C.Coherent) (h : C.CanAccess p b v)
    {q a : Nat} (hq : q ≠ C.root) (ha : C.Has q a) (hab : a = b → ¬(C.slot b).Uncut)
    : (C.setAccessible (· = b) v).CoherentAt q a := by
  intro B hB
  simp only [setAccessible.hosts, setAccessible.uncut] at hB ⊢
  have hBb : B ≠ b := by
    intro heq
    rw [heq] at hB
    exact hB.lent.2 h.inChild_eq
  rw [setAccessible.slot_of_notMem C (· = b) v B hBb]
  have hold := hC q a hq ha B hB
  by_cases heq : a = b
  . have hcut := hab heq
    rw [heq] at hold ⊢
    simp only [hcut, false_and, iff_false] at hold
    simp [hold, hcut]
  . rw [setAccessible.slot_of_notMem C (· = b) v a heq]
    exact hold

theorem Inv.access (hC : C.Inv) (h : C.CanAccess p b v) : (C.access p b v).Inv := by
  have hS := hC.static
  have hS₁ : (C.setAccessible (· = b) v).Static := by
    apply hS.setAccessible
    intro a ha
    rw [ha]
    exact h.has.2
  have hC₁ := hC.closed.setAccessible_self hS h
  have hhas : (C.setAccessible (· = b) v).Has p b := by simpa using h.has
  by_cases huncut : (C.slot b).Uncut
  . rw [access_of_uncut huncut]
    have hstart := setAccessible.startAddr C (· = b) v b
    have hend := setAccessible.endAddr C (· = b) v b
    have hacc : ((C.setAccessible (· = b) v).slot b).accessible = v := by
      rw [setAccessible.slot_of_mem C (· = b) v b rfl]
    rw [← hstart, ← hend]
    refine ⟨hS₁.walk _ _ _ _, hC₁.walk hS₁ hhas v, ?_⟩
    have hwalk := Coherent.walk hS₁ hhas (by simpa using huncut) (b := b) ?_
    . rw [hacc] at hwalk
      exact hwalk
    . intro q a hq ha hab
      simp only [setAccessible.has] at ha
      exact hC.coherent.setAccessible_self h hq ha fun heq => absurd heq hab
  . rw [access_of_cut huncut]
    refine ⟨hS₁, hC₁, ?_⟩
    intro q a hq ha
    simp only [setAccessible.has] at ha
    exact hC.coherent.setAccessible_self h hq ha fun _ => huncut

end Conf
