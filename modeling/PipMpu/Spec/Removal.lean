import PipMpu.Spec.Steps
import PipMpu.Util.Linked

/-!
This module contains the removals of more than one slot, as sequences of transitions: of a shared
block together with its copies further down the tree, and of a block that the child has cut.
-/

namespace Conf

variable {C : Conf}

/--
Free the slots of the list one after the other, each is given with its partition.
-/
def freeAll (C : Conf) (l : List (Nat × Nat)) : Conf :=
  { C with
    slot := fun a => if a ∈ l.map Prod.snd then Slot.empty else C.slot a
    free := fun q => ((l.filter (fun x => x.1 = q)).map Prod.snd).reverse ++ C.free q }

/--
The block `l` of a child can be taken back from it: it is whole and accessible, or it is cut and its subblocks are
all accessible and not shared.
-/
def Removable (C : Conf) (l : Nat) : Prop :=
  ((C.slot l).Uncut ∧ (C.slot l).accessible = true)
    ∨ (¬(C.slot l).Uncut ∧ ∃ rest, Linked (fun a => (C.slot a).next) l (l :: rest)
      ∧ ∀ a ∈ l :: rest, (C.slot a).accessible = true ∧ (C.slot a).PDchild = 0)

theorem freeAll_nil (C : Conf) : C.freeAll [] = C := by
  simp [freeAll]

theorem freeAll_cons (C : Conf) (c a : Nat) (l : List (Nat × Nat))
    : C.freeAll ((c, a) :: l) = ((C.setSlot a Slot.empty).setFree c (a :: C.free c)).freeAll l := by
  simp only [freeAll, setSlot, setFree, Conf.mk.injEq, true_and]
  constructor
  . funext q
    by_cases hq : c = q
    . subst hq
      simp
    . simp [hq, Ne.symm hq]
  . funext b
    by_cases hb : b ∈ l.map Prod.snd
    . simp [hb]
    . by_cases hba : b = a <;> simp [hba, hb]

/--
The slots of one partition come back in the opposite order.
-/
theorem freeAll_free (C : Conf) (c : Nat) (l : List Nat) (q : Nat)
    : (C.freeAll (l.map fun a => (c, a))).free q = if q = c then l.reverse ++ C.free c else C.free q := by
  simp only [freeAll]
  by_cases hq : q = c
  . subst hq
    have : (l.map fun a => (q, a)).filter (fun x => x.1 = q) = l.map fun a => (q, a) := by
      rw [List.filter_eq_self]
      simp
    rw [this]
    simp [Function.comp_def]
  . have : (l.map fun a => (c, a)).filter (fun x => x.1 = q) = [] := by
      rw [List.filter_eq_nil_iff]
      simp [Ne.symm hq]
    rw [this]
    simp [hq]

theorem freeAll_setSlot (C : Conf) (l : List (Nat × Nat)) (a : Nat) (sl sl' : Slot)
    : ((C.setSlot a sl).freeAll l).setSlot a sl' = (C.freeAll l).setSlot a sl' := by
  simp only [freeAll, setSlot, Conf.mk.injEq, true_and]
  funext b
  by_cases hb : b = a <;> simp [hb]

theorem join_eq (C : Conf) {p b₁ b₂ : Nat} (hne : b₁ ≠ b₂)
    : C.join p b₁ b₂
        =
      (C.freeAll [(p, b₂)]).setSlot b₁
        { C.slot b₁ with endAddr := (C.slot b₂).endAddr, next := (C.slot b₂).next } := by
  simp only [freeAll, setSlot, join, Conf.mk.injEq, true_and]
  constructor
  . funext q
    by_cases hq : q = p
    . simp [hq]
    . simp [hq, Ne.symm hq]
  . funext a
    by_cases ha : a = b₁
    . simp [ha, hne]
    . by_cases ha' : a = b₂
      . simp [ha', Ne.symm hne]
      . simp [ha, ha']

theorem freeAll_slot_of_notMem {l : List (Nat × Nat)} {a : Nat} (h : a ∉ l.map Prod.snd)
    : (C.freeAll l).slot a = C.slot a :=
  if_neg h

theorem freeAll_present {l : List (Nat × Nat)} {a : Nat} (h : ((C.freeAll l).slot a).present = true)
    : (C.slot a).present = true ∧ ((C.freeAll l).slot a).startAddr = (C.slot a).startAddr
        ∧ ((C.freeAll l).slot a).endAddr = (C.slot a).endAddr := by
  by_cases ha : a ∈ l.map Prod.snd
  . have hempty : (C.freeAll l).slot a = Slot.empty := if_pos ha
    rw [hempty] at h
    exact absurd h (by simp [Slot.empty])
  . rw [freeAll_slot_of_notMem ha] at h ⊢
    exact ⟨h, rfl, rfl⟩

theorem freeAll_has {l : List (Nat × Nat)} (p a : Nat)
    : (C.freeAll l).Has p a ↔ C.Has p a ∧ a ∉ l.map Prod.snd := by
  show C.Owns p a ∧ _ ↔ _
  by_cases h : a ∈ l.map Prod.snd
  . have : (C.freeAll l).slot a = Slot.empty := if_pos h
    simp [this, h, Slot.empty]
  . rw [freeAll_slot_of_notMem h]
    simp only [h, not_false_eq_true, and_true]
    rfl

/--
The block `a` of `p` and its copies in the partitions it was shared on with.
-/
inductive Copies (C : Conf) : Nat → Nat → List (Nat × Nat) → Prop where
  | last {p a : Nat} : (C.slot a).inChildLocation = 0 → Copies C p a [(p, a)]
  | next {p a : Nat} {l : List (Nat × Nat)} : (C.slot a).inChildLocation ≠ 0 →
      Copies C (C.slot a).PDchild (C.slot a).inChildLocation l → Copies C p a ((p, a) :: l)

theorem Copies.congr {C' : Conf} {p a : Nat} {l : List (Nat × Nat)} (h : C.Copies p a l)
    (hslot : ∀ x ∈ l, C'.slot x.2 = C.slot x.2) : C'.Copies p a l := by
  induction h with
  | @last p a hlast =>
    have := hslot (p, a) (by simp)
    exact Copies.last (by rw [this]; exact hlast)
  | @next p a l hnext _ ih =>
    have := hslot (p, a) (by simp)
    have ih := ih fun x hx => hslot x (by simp [hx])
    exact Copies.next (by rw [this]; exact hnext) (by rw [this]; exact ih)

/--
The copies are in partitions further and further down.
-/
theorem Copies.all_below (hC : C.Static) {p a : Nat} {l : List (Nat × Nat)} (h : C.Copies p a l) (ha : C.Has p a)
    : ∀ x ∈ l, C.Below p x.1 := by
  induction h with
  | last _ =>
    intro x hx
    rw [List.mem_singleton.mp hx]
    exact .self
  | @next p a l hnext _ ih =>
    rcases hC.location_kind p a ha hnext with ⟨hchild, hl, -⟩
    rcases hC.child_kind p a ha hchild with ⟨-, hparent, hroot, -⟩
    intro x hx
    rcases List.mem_cons.mp hx with rfl | hx
    . exact .self
    . have hbelow : C.Below p (C.slot a).PDchild := .child hroot (hparent.symm ▸ .self)
      exact hbelow.trans (ih hl x hx)

/--
Freeing slots of the partitions from `c` on downwards changes nothing elsewhere.
-/
theorem freeAll_outside (hC : C.Static) {l : List (Nat × Nat)} {c r : Nat}
    (hl : ∀ x ∈ l, C.Has x.1 x.2 ∧ C.Below c x.1) (hr : ¬C.Below c r)
    : (C.freeAll l).free r = C.free r ∧ ∀ a, C.Owns r a → (C.freeAll l).slot a = C.slot a := by
  constructor
  . have hnone : l.filter (fun x => x.1 = r) = [] := by
      rw [List.filter_eq_nil_iff]
      intro x hx
      simp only [decide_eq_true_eq]
      rintro rfl
      exact hr (hl x hx).2
    show ((l.filter fun x => x.1 = r).map Prod.snd).reverse ++ C.free r = C.free r
    rw [hnone]
    rfl
  . intro a ha
    apply freeAll_slot_of_notMem
    intro hmem
    rcases List.mem_map.mp hmem with ⟨x, hx, rfl⟩
    rw [hC.owns_unique ha (hl x hx).1.1] at hr
    exact hr (hl x hx).2

/--
An accessible uncut block of a child can be taken back with all of its copies, from the last one up.
-/
theorem Inv.copies (hC : C.Inv) {p b c l : Nat} (hb : C.Has p b) (hlent : C.Lent b c)
    (hloc : (C.slot b).inChildLocation = l) (huncut : (C.slot l).Uncut)
    (hacc : (C.slot l).accessible = true)
    : ∃ chain, C.Copies c l chain
        ∧ (∀ x ∈ chain, C.Has x.1 x.2 ∧ C.depth c ≤ C.depth x.1)
        ∧ (chain.map Prod.snd).Nodup ∧ chain.length + C.depth c ≤ 513
        ∧ Relation.ReflTransGen Move C
          ((C.freeAll chain).setSlot b { C.slot b with PDchild := 0, inChildLocation := 0 }) := by
  have hS := hC.static
  have hchild := hS.child_kind p b hb (hS.location_kind p b hb hlent.2).1
  have hkind := hS.location_kind p b hb hlent.2
  rw [hlent.1] at hchild hkind
  rw [hloc] at hkind
  rcases hchild with ⟨hclive, hparent, hcroot, -⟩
  rcases hkind with ⟨-, hl, hstart, horigin⟩
  induction hn : 513 - C.depth c generalizing p b c l with
  | zero =>
    have := hS.depth_le hclive
    omega
  | succ n ih =>
    have hdepthp := hS.depth_parent c hclive hcroot
    rw [hparent] at hdepthp
    have hbl : b ≠ l := by
      intro heq
      have hcp := hS.has_unique (heq ▸ hb) hl
      rw [hcp] at hdepthp
      omega
    have hflag := hC.flag_of_accessible hl hacc
    have hnotMem := hC.notMem_of_accessible hl hacc
    by_cases hlast : (C.slot l).inChildLocation = 0
    . have hchild : (C.slot l).PDchild = 0 := by
        by_contra hne
        rw [hC.closed.given c l hl hne hlast] at hacc
        exact absurd hacc (by simp)
      refine ⟨[(c, l)], Copies.last hlast, by simp [hl], by simp, ?_, ?_⟩
      . have := hS.depth_le hclive
        simp only [List.length_singleton]
        omega
      . have hcan : C.CanUnshare p b c l := ⟨hb, hlent, hloc, huncut, hchild, hflag, hnotMem⟩
        refine Relation.ReflTransGen.single ?_
        have heq : (C.freeAll [(c, l)]).setSlot b { C.slot b with PDchild := 0, inChildLocation := 0 } =
            C.unshare b c l := by
          simp only [freeAll, setSlot, Conf.unshare, Conf.mk.injEq, true_and]
          constructor
          . funext q
            by_cases hq : q = c
            . simp [hq]
            . simp [hq, Ne.symm hq]
          . funext a
            by_cases hal : a = l
            . simp [hal, Ne.symm hbl]
            . simp [hal]
        rw [heq]
        exact Move.unshare hcan
    . -- the copy is shared on, so its own copy is uncut and accessible too
      have hkind' := hS.location_kind c l hl hlast
      have hchild' := hS.child_kind c l hl hkind'.1
      have hhosts : C.Hosts (C.slot l).PDchild (C.slot l).inChildLocation l := by
        apply hS.hosts_of_origin hchild'.2.2.1 hkind'.2.1
        . rw [hchild'.2.1]
          exact hl
        . rw [hkind'.2.2.2]
      have hcoh := (hC.coherent _ _ hchild'.2.2.1 hkind'.2.1 l hhosts).mp hacc
      have hdepth' := hS.depth_parent _ hchild'.1 hchild'.2.2.1
      rw [hchild'.2.1] at hdepth'
      rcases ih hl ⟨rfl, hlast⟩ rfl hcoh.1 hcoh.2 hchild'.1 hchild'.2.1 hchild'.2.2.1 hkind'.2.1
        hkind'.2.2.1 hkind'.2.2.2 (by omega) with
        ⟨chain, hcopies, hchain, hnodup, hlength, hsteps⟩
      have hnot : ∀ q a, C.Has q a → C.depth q ≤ C.depth c → a ∉ chain.map Prod.snd := by
        intro q a ha hq hmem
        rcases List.mem_map.mp hmem with ⟨x, hx, rfl⟩
        rcases hchain x hx with ⟨hxhas, hxdepth⟩
        rw [hS.has_unique ha hxhas] at hq
        omega
      have hnotb := hnot p b hb (by omega)
      have hnotl := hnot c l hl (Nat.le_refl _)
      refine ⟨(c, l) :: chain, Copies.next hlast hcopies, ?_, ?_, ?_, ?_⟩
      . intro x hx
        rcases List.mem_cons.mp hx with rfl | hx
        . exact ⟨hl, Nat.le_refl _⟩
        . have := hchain x hx
          exact ⟨this.1, by omega⟩
      . rw [List.map_cons, List.nodup_cons]
        exact ⟨hnotl, hnodup⟩
      . simp only [List.length_cons]
        omega
      . have hslotl : (C.freeAll chain).slot l = C.slot l := freeAll_slot_of_notMem hnotl
        have hslotb : (C.freeAll chain).slot b = C.slot b := freeAll_slot_of_notMem hnotb
        have hfree : chain.filter (fun x => x.1 = c) = [] := by
          rw [List.filter_eq_nil_iff]
          intro x hx
          rw [decide_eq_true_eq]
          intro heq
          have := (hchain x hx).2
          rw [heq, hdepth'] at this
          omega
        refine hsteps.tail ?_
        generalize hC₁ : (C.freeAll chain).setSlot l _ = C₁
        have hb₁ : C₁.slot b = C.slot b := by
          rw [← hC₁, setSlot_slot_of_ne _ _ hbl, hslotb]
        have hl₁ : C₁.slot l = { C.slot l with PDchild := 0, inChildLocation := 0 } := by
          rw [← hC₁, setSlot_slot_self]
        have hcan : C₁.CanUnshare p b c l := by
          constructor
          case has =>
            refine ⟨?_, by rw [hb₁]; exact hb.2⟩
            rw [← hC₁]
            exact hb.1
          case lent =>
            unfold Lent
            rw [hb₁]
            exact hlent
          case location_eq => rw [hb₁, hloc]
          case uncut =>
            rw [hl₁]
            exact huncut
          case PDchild_eq => rw [hl₁]
          case flag_eq =>
            rw [hl₁]
            exact hflag
          case notMem =>
            rw [hl₁, ← hC₁]
            exact hnotMem
        have heq : (C.freeAll ((c, l) :: chain)).setSlot b
            { C.slot b with PDchild := 0, inChildLocation := 0 } = C₁.unshare b c l := by
          subst hC₁
          simp only [freeAll, setSlot, Conf.unshare, Conf.mk.injEq, true_and]
          constructor
          . funext q
            by_cases hq : q = c
            . subst hq
              simp [hfree]
            . simp [hq, Ne.symm hq]
          . funext a
            by_cases hab : a = b
            . subst hab
              simp only [hbl, if_false, if_true, hnotb]
            . by_cases hal : a = l
              . simp [hal, Ne.symm hbl]
              . simp only [hab, hal, if_false, List.map_cons, List.mem_cons, false_or]
        rw [heq]
        exact Move.unshare hcan

theorem CanJoin.above_join (hC : C.Static) {p b₁ b₂ : Nat} (h : C.CanJoin p b₁ b₂) (lo hi : Nat)
    : (C.join p b₁ b₂).Above lo hi p = C.Above lo hi p := by
  have hne : ∀ q a, C.depth q < C.depth p → C.Has q a → a ≠ b₁ ∧ a ≠ b₂ := by
    intro q a hq ha
    constructor
    . rintro rfl
      rw [hC.has_unique ha h.has₁] at hq
      omega
    . rintro rfl
      rw [hC.has_unique ha h.has₂] at hq
      omega
  funext A
  apply propext
  apply hC.sep.above_congr
  . rfl
  . intro q _ _
    rfl
  . intro q a hq
    rw [h.has_iff hC]
    exact ⟨fun ha => ha.1, fun ha => ⟨ha, (hne q a hq ha).2⟩⟩
  . intro q a hq ha
    rw [CanJoin.slot_other (hne q a hq ha).1 (hne q a hq ha).2]
    exact ⟨rfl, rfl⟩
  . exact h.has₁.live

/--
Merge a block with all the blocks after it, up to the end `hi` of the block it was cut from.
-/
theorem Inv.mergeAll (hC : C.Inv) {c l hi : Nat} {rest : List Nat} (hl : C.Has c l)
    (hstart : (C.slot l).startAddr = (C.slot l).origin)
    (hlinked : Linked (fun a => (C.slot a).next) l (l :: rest)) (hrest : rest ≠ [])
    (hplain : ∀ a ∈ l :: rest, (C.slot a).accessible = true ∧ (C.slot a).PDchild = 0)
    (hlast : (C.slot (rest.getLast hrest)).endAddr = hi)
    : Relation.ReflTransGen Move C
        (((C.freeAll (rest.map fun a => (c, a))).setSlot l
          { C.slot l with endAddr := hi, next := 0 }).setAccessible
          (C.Above (C.slot l).startAddr hi c) true) := by
  induction rest generalizing C with
  | nil => exact absurd rfl hrest
  | cons x rest ih =>
    have hS := hC.static
    have hnodup := hlinked.nodup
    rcases hlinked with ⟨-, hl0, hx, hx0, hlinked⟩
    replace hx : (C.slot l).next = x := hx
    have haccl := hplain l (by simp)
    have haccx := hplain x (by simp)
    have hnext := (hS.next_kind c l hl (by rw [hx]; exact hx0)).1
    rw [hx] at hnext
    have hjoin : C.CanJoin c l x :=
      ⟨hl, hnext, hx, haccl.2, haccx.2, hC.flag_of_accessible hl haccl.1,
        hC.flag_of_accessible hnext haccx.1, hC.notMem_of_accessible hl haccl.1,
        hC.notMem_of_accessible hnext haccx.1⟩
    have hne := hjoin.ne hS
    have hmerged := CanJoin.slot_merged (C := C) (p := c) hne
    have hstep := Move.merge hjoin haccl.1
    have habove := hjoin.above_join hS (C.slot l).startAddr hi
    have hlj := (hjoin.has_iff hS c l).mpr ⟨hl, hne⟩
    cases rest with
    | nil =>
      simp only [List.getLast_singleton] at hlast
      have hzero : (C.slot x).next = 0 := hlinked
      refine Relation.ReflTransGen.single ?_
      have huncut : ((C.join c l x).slot l).Uncut := by
        rw [hmerged]
        exact ⟨hstart, hzero⟩
      unfold Conf.merge at hstep
      rw [walkFrom_of_uncut huncut, hmerged, walk, hlast, habove, C.join_eq hne, hzero, hlast] at hstep
      exact hstep
    | cons y rest =>
      have hy0 : y ≠ 0 := hlinked.2.1
      have hy : (C.slot x).next = y := hlinked.1
      have hcut : ¬((C.join c l x).slot l).Uncut := by
        rw [hmerged]
        rintro ⟨-, hzero⟩
        exact hy0 (hy.symm.trans hzero)
      unfold Conf.merge at hstep
      rw [walkFrom_of_cut hcut] at hstep
      have hslot : ∀ a ∈ y :: rest, (C.join c l x).slot a = C.slot a := by
        intro a ha
        simp only [List.nodup_cons, List.mem_cons, not_or] at hnodup
        apply CanJoin.slot_other
        . rintro rfl
          rcases List.mem_cons.mp ha with heq | hmem
          . exact hnodup.1.2.1 heq
          . exact hnodup.1.2.2 hmem
        . rintro rfl
          rcases List.mem_cons.mp ha with heq | hmem
          . exact hnodup.2.1.1 heq
          . exact hnodup.2.1.2 hmem
      have hrec := ih (hC.step hstep.step) hlj (by rw [hmerged]; exact hstart) ?_ (by simp) ?_ ?_
      . refine (Relation.ReflTransGen.single hstep).trans ?_
        have hall : ∀ L, (C.freeAll [(c, x)]).freeAll L = C.freeAll ((c, x) :: L) := by
          intro L
          rw [freeAll_cons, freeAll_nil, freeAll_cons]
        rw [hmerged] at hrec
        simp only at hrec
        rw [habove] at hrec
        rw [List.map_cons, ← hall, ← freeAll_setSlot (C.freeAll [(c, x)]) _ l, ← C.join_eq hne]
        exact hrec
      . refine ⟨rfl, hl0, ?_⟩
        simp only [hmerged, hy]
        refine ⟨rfl, hy0, ?_⟩
        simp only [hslot y (by simp)]
        apply hlinked.2.2.congr
        intro a ha
        rw [hslot a (by simp [ha])]
      . intro a ha
        rcases List.mem_cons.mp ha with rfl | ha
        . rw [hmerged]
          exact haccl
        . rw [hslot a ha]
          exact hplain a (by simp [ha])
      . rw [hslot _ (List.getLast_mem _)]
        simpa using hlast

/--
The walk from a child starts with the block of the parent, if this block has the bounds.
-/
theorem Sep.above_child (hC : C.Sep) {c b : Nat} (hc : c ≠ C.root) (hb : C.Has (C.parent c) b)
    (A : Nat)
    : C.Above (C.slot b).startAddr (C.slot b).endAddr c A
        ↔ A = b ∨ C.Above (C.slot b).startAddr (C.slot b).endAddr (C.parent c) A := by
  constructor
  . intro h
    cases h with
    | parent _ hA hstart _ =>
      left
      apply hC.eq_of_mem_range hA hb (hC.mem_range_start hA)
      rw [hstart]
      exact hC.mem_range_start hb
    | further _ _ _ _ h => exact Or.inr h
  . rintro (rfl | h)
    . exact Above.parent hc hb rfl rfl
    . exact Above.further hc hb rfl rfl h

/--
A block that the child has cut can be taken back once all of its parts are accessible and nothing was
made of them.
-/
theorem Inv.removeCut (hC : C.Inv) {p b c l : Nat} {rest : List Nat} (hb : C.Has p b)
    (hlent : C.Lent b c) (hloc : (C.slot b).inChildLocation = l)
    (hlinked : Linked (fun a => (C.slot a).next) l (l :: rest)) (hrest : rest ≠ [])
    (hplain : ∀ a ∈ l :: rest, (C.slot a).accessible = true ∧ (C.slot a).PDchild = 0)
    : Relation.ReflTransGen Move C
        (((C.freeAll ((l :: rest).map fun a => (c, a))).setSlot b
          { C.slot b with accessible := true, PDchild := 0, inChildLocation := 0 }).setAccessible
          (C.Above (C.slot b).startAddr (C.slot b).endAddr p) true) := by
  have hS := hC.static
  have hchild := hS.child_kind p b hb (hS.location_kind p b hb hlent.2).1
  have hkind := hS.location_kind p b hb hlent.2
  rw [hlent.1] at hchild hkind
  rw [hloc] at hkind
  rcases hchild with ⟨hclive, hparent, hcroot, -⟩
  rcases hkind with ⟨-, hl, hstart, horigin⟩
  have hdepth := hS.depth_parent c hclive hcroot
  rw [hparent] at hdepth
  have hchain : ∀ a ∈ l :: rest, C.Has c a ∧ (C.slot a).origin = (C.slot b).startAddr := by
    apply hlinked.forall_mem (P := fun a => C.Has c a ∧ (C.slot a).origin = (C.slot b).startAddr)
    . intro _
      exact ⟨hl, horigin⟩
    . rintro a ⟨ha, hao⟩ hne
      have := hS.next_kind c a ha hne
      exact ⟨this.1, this.2.2.trans hao⟩
  have hlast : (C.slot (rest.getLast hrest)).endAddr = (C.slot b).endAddr := by
    have hmem : rest.getLast hrest ∈ l :: rest := List.mem_cons_of_mem _ (List.getLast_mem hrest)
    have hhosts := hS.hosts_of_origin hcroot (hchain _ hmem).1 (B := b) (by rw [hparent]; exact hb)
      (hchain _ hmem).2.symm
    apply hhosts.end_eq
    have := hlinked.next_getLast (by simp)
    rw [List.getLast_cons hrest] at this
    exact this
  have hmerge := hC.mergeAll hl (by rw [hstart, horigin]) hlinked hrest hplain hlast
  rw [hstart] at hmerge
  have hnodup := List.nodup_cons.mp hlinked.nodup
  have habove : ∀ A, C.Above (C.slot b).startAddr (C.slot b).endAddr c A ↔
      A = b ∨ C.Above (C.slot b).startAddr (C.slot b).endAddr p A := by
    intro A
    rw [← hparent]
    exact hS.sep.above_child hcroot (by rw [hparent]; exact hb) A
  -- the walk stays above the child, so it meets neither `b` again nor a slot of the child
  have hnotb : ¬C.Above (C.slot b).startAddr (C.slot b).endAddr p b := by
    intro h
    have := h.depth_lt hS hb.live hb
    omega
  have hnotc : ∀ a ∈ l :: rest, ¬C.Above (C.slot b).startAddr (C.slot b).endAddr p a := by
    intro a ha h
    have := h.depth_lt hS hb.live (hchain a ha).1
    omega
  have hbc : ∀ a ∈ l :: rest, a ≠ b := by
    rintro a ha rfl
    have := hS.has_unique hb (hchain a ha).1
    rw [this] at hdepth
    omega
  have hbrest : b ∉ (rest.map fun a => (c, a)).map Prod.snd := by
    simp only [List.map_map, List.mem_map, Function.comp, not_exists, not_and]
    intro a ha
    exact hbc a (by simp [ha])
  generalize hC₁ : ((C.freeAll (rest.map fun a => (c, a))).setSlot l _).setAccessible _ true = C₁
    at hmerge
  have hinv₁ := hC.steps (Move.steps hmerge)
  have hb₁ : C₁.slot b = { C.slot b with accessible := true } := by
    rw [← hC₁, setAccessible.slot_of_mem _ _ _ _ ((habove b).mpr (Or.inl rfl)),
      setSlot_slot_of_ne _ _ (Ne.symm (hbc l (by simp))), freeAll_slot_of_notMem hbrest]
  have hl₁ : C₁.slot l = { C.slot l with endAddr := (C.slot b).endAddr, next := 0 } := by
    rw [← hC₁, setAccessible.slot_of_notMem, setSlot_slot_self]
    rw [habove]
    rintro (heq | h)
    . exact hbc l (by simp) heq
    . exact hnotc l (by simp) h
  have haccl := hplain l (by simp)
  have hcan : C₁.CanUnshare p b c l := by
    constructor
    case has =>
      refine ⟨?_, by rw [hb₁]; exact hb.2⟩
      rw [← hC₁]
      exact hb.1
    case lent =>
      unfold Lent
      rw [hb₁]
      exact hlent
    case location_eq => rw [hb₁, hloc]
    case uncut =>
      rw [hl₁]
      exact ⟨by rw [hstart, horigin], rfl⟩
    case PDchild_eq =>
      rw [hl₁]
      exact haccl.2
    case flag_eq =>
      rw [hl₁]
      exact hC.flag_of_accessible hl haccl.1
    case notMem =>
      rw [hl₁, ← hC₁]
      exact hC.notMem_of_accessible hl haccl.1
  have hfree₁ : C₁.free = (C.freeAll (rest.map fun a => (c, a))).free := by
    rw [← hC₁]
    rfl
  have hperm : ((l :: rest).reverse ++ C.free c).Perm ((C₁.unshare b c l).free c) := by
    simp only [Conf.unshare, if_true, hfree₁, freeAll_free, List.reverse_cons, List.append_assoc]
    exact List.perm_middle
  refine ((hmerge.tail (Move.unshare hcan)).tail (Move.permute hperm)).trans ?_
  have heq : (C₁.unshare b c l).setFree c ((l :: rest).reverse ++ C.free c) =
      ((C.freeAll ((l :: rest).map fun a => (c, a))).setSlot b
        { C.slot b with accessible := true, PDchild := 0, inChildLocation := 0 }).setAccessible
        (C.Above (C.slot b).startAddr (C.slot b).endAddr p) true := by
    have hslot₁ : ∀ a, a ≠ b → a ≠ l → C₁.slot a =
        ((C.freeAll (rest.map fun a => (c, a))).setAccessible
          (C.Above (C.slot b).startAddr (C.slot b).endAddr p) true).slot a := by
      intro a hab hal
      rw [← hC₁]
      by_cases hA : C.Above (C.slot b).startAddr (C.slot b).endAddr p a
      . rw [setAccessible.slot_of_mem _ _ _ _ hA,
          setAccessible.slot_of_mem _ _ _ _ ((habove a).mpr (Or.inr hA)), setSlot_slot_of_ne _ _ hal]
      . have hA' : ¬C.Above (C.slot b).startAddr (C.slot b).endAddr c a := by
          rw [habove]
          exact fun h => h.elim hab hA
        rw [setAccessible.slot_of_notMem _ _ _ _ hA, setAccessible.slot_of_notMem _ _ _ _ hA',
          setSlot_slot_of_ne _ _ hal]
    refine Conf.ext ?_ ?_ ?_ ?_ ?_ ?_ ?_ ?_ ?_
    case refine_8 =>
      funext q
      show _ = (C.freeAll ((l :: rest).map fun a => (c, a))).free q
      rw [freeAll_free C c (l :: rest)]
      simp only [setFree, Conf.unshare, hfree₁]
      by_cases hq : q = c
      . rw [if_pos hq, if_pos hq]
      . rw [if_neg hq, if_neg hq, if_neg hq, freeAll_free, if_neg hq]
    case refine_9 =>
      funext a
      rw [setFree_slot]
      by_cases hal : a = l
      . subst hal
        rw [CanUnshare.slot_freed, setAccessible.slot_of_notMem _ _ _ _ (hnotc a (by simp)),
          setSlot_slot_of_ne _ _ (hbc a (by simp))]
        simp [freeAll]
      . by_cases hab : a = b
        . subst hab
          rw [CanUnshare.slot_self hal, setAccessible.slot_of_notMem _ _ _ _ hnotb, setSlot_slot_self,
            hb₁]
        . rw [CanUnshare.slot_other hab hal, hslot₁ a hab hal]
          have hslot : (C.freeAll (rest.map fun a => (c, a))).slot a =
              ((C.freeAll ((l :: rest).map fun a => (c, a))).setSlot b
                { C.slot b with accessible := true, PDchild := 0, inChildLocation := 0 }).slot a := by
            rw [setSlot_slot_of_ne _ _ hab]
            simp only [freeAll, List.map_cons, List.mem_cons, hal, false_or]
          by_cases hA : C.Above (C.slot b).startAddr (C.slot b).endAddr p a
          . rw [setAccessible.slot_of_mem _ _ _ _ hA, setAccessible.slot_of_mem _ _ _ _ hA, hslot]
          . rw [setAccessible.slot_of_notMem _ _ _ _ hA, setAccessible.slot_of_notMem _ _ _ _ hA, hslot]
    all_goals
      rw [← hC₁]
      rfl
  rw [heq]

theorem Sep.freeAll (hC : C.Sep) {l : List (Nat × Nat)} (hhas : ∀ x ∈ l, C.Has x.1 x.2)
    (hnodup : (l.map Prod.snd).Nodup) : (C.freeAll l).Sep := by
  induction l generalizing C with
  | nil =>
    rw [freeAll_nil]
    exact hC
  | cons x rest ih =>
    rcases x with ⟨c, a⟩
    rw [List.map_cons, List.nodup_cons] at hnodup
    have ha : C.Has c a := hhas (c, a) (by simp)
    rw [freeAll_cons]
    apply ih (hC.freed ha) _ hnodup.2
    intro y hy
    have hya : y.2 ≠ a := by
      intro heq
      have hmem := List.mem_map_of_mem (f := Prod.snd) hy
      rw [heq] at hmem
      exact hnodup.1 hmem
    have hyhas := hhas y (by simp [hy])
    refine ⟨hyhas.1, ?_⟩
    rw [setFree_slot, setSlot_slot_of_ne _ _ hya]
    exact hyhas.2

end Conf
