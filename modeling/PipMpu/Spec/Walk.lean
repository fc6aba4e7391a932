import PipMpu.Spec.Lemmas

/-!
This module contains the changes of the accessible bits: the walk that writes the bit of a block to
the blocks with the same bounds in the ancestors, and what it does to the three parts of the
invariant.
-/

namespace Conf

variable {C : Conf}

open scoped Classical in
noncomputable def setAccessible (C : Conf) (S : Nat → Prop) (v : Bool) : Conf :=
  { C with slot := fun a => if S a then { C.slot a with accessible := v } else C.slot a }

/--
The blocks with the bounds `lo` and `hi` in the ancestors of `p`, up to the first ancestor that has
no such block.
-/
inductive Above (C : Conf) (lo hi : Nat) : Nat → Nat → Prop where
  | parent {p A : Nat} : p ≠ C.root → C.Has (C.parent p) A → (C.slot A).startAddr = lo →
      (C.slot A).endAddr = hi → Above C lo hi p A
  | further {p A A' : Nat} : p ≠ C.root → C.Has (C.parent p) A → (C.slot A).startAddr = lo →
      (C.slot A).endAddr = hi → Above C lo hi (C.parent p) A' → Above C lo hi p A'

/--
Write `v` to the accessible bits of the blocks with the bounds `lo` and `hi` in the ancestors of `p`.
-/
noncomputable def walk (C : Conf) (p lo hi : Nat) (v : Bool) : Conf :=
  C.setAccessible (C.Above lo hi p) v

namespace setAccessible

variable (C : Conf) (S : Nat → Prop) (v : Bool) (a : Nat)

theorem slot_of_mem (h : S a)
    : (C.setAccessible S v).slot a = { C.slot a with accessible := v } := by
  simp [setAccessible, h]

theorem slot_of_notMem (h : ¬S a) : (C.setAccessible S v).slot a = C.slot a := by
  simp [setAccessible, h]

@[simp]
theorem startAddr : ((C.setAccessible S v).slot a).startAddr = (C.slot a).startAddr := by
  simp only [setAccessible]
  split <;> rfl

@[simp]
theorem endAddr : ((C.setAccessible S v).slot a).endAddr = (C.slot a).endAddr := by
  simp only [setAccessible]
  split <;> rfl

@[simp]
theorem present : ((C.setAccessible S v).slot a).present = (C.slot a).present := by
  simp only [setAccessible]
  split <;> rfl

@[simp]
theorem read : ((C.setAccessible S v).slot a).read = (C.slot a).read := by
  simp only [setAccessible]
  split <;> rfl

@[simp]
theorem write : ((C.setAccessible S v).slot a).write = (C.slot a).write := by
  simp only [setAccessible]
  split <;> rfl

@[simp]
theorem exec : ((C.setAccessible S v).slot a).exec = (C.slot a).exec := by
  simp only [setAccessible]
  split <;> rfl

@[simp]
theorem PDchild : ((C.setAccessible S v).slot a).PDchild = (C.slot a).PDchild := by
  simp only [setAccessible]
  split <;> rfl

@[simp]
theorem PDflag : ((C.setAccessible S v).slot a).PDflag = (C.slot a).PDflag := by
  simp only [setAccessible]
  split <;> rfl

@[simp]
theorem inChildLocation
    : ((C.setAccessible S v).slot a).inChildLocation = (C.slot a).inChildLocation := by
  simp only [setAccessible]
  split <;> rfl

@[simp]
theorem origin : ((C.setAccessible S v).slot a).origin = (C.slot a).origin := by
  simp only [setAccessible]
  split <;> rfl

@[simp]
theorem next : ((C.setAccessible S v).slot a).next = (C.slot a).next := by
  simp only [setAccessible]
  split <;> rfl

@[simp]
theorem range : ((C.setAccessible S v).slot a).range = (C.slot a).range := by
  simp only [Slot.range, startAddr, endAddr]

@[simp]
theorem uncut : ((C.setAccessible S v).slot a).Uncut ↔ (C.slot a).Uncut := by
  simp only [Slot.Uncut, startAddr, origin, next]

@[simp]
theorem cur : (C.setAccessible S v).cur = C.cur := by
  rfl

@[simp]
theorem root : (C.setAccessible S v).root = C.root := by
  rfl

@[simp]
theorem rootStructure : (C.setAccessible S v).rootStructure = C.rootStructure := by
  rfl

@[simp]
theorem live : (C.setAccessible S v).Live = C.Live := by
  rfl

@[simp]
theorem parent : (C.setAccessible S v).parent = C.parent := by
  rfl

@[simp]
theorem depth : (C.setAccessible S v).depth = C.depth := by
  rfl

@[simp]
theorem structures : (C.setAccessible S v).structures = C.structures := by
  rfl

@[simp]
theorem free : (C.setAccessible S v).free = C.free := by
  rfl

variable (p : Nat)

@[simp]
theorem owns : (C.setAccessible S v).Owns p a ↔ C.Owns p a := by
  rfl

@[simp]
theorem has : (C.setAccessible S v).Has p a ↔ C.Has p a := by
  simp only [Has, owns, present]

@[simp]
theorem lent : (C.setAccessible S v).Lent a p ↔ C.Lent a p := by
  simp only [Lent, PDchild, inChildLocation]

@[simp]
theorem hosts (B : Nat) : (C.setAccessible S v).Hosts p a B ↔ C.Hosts p a B := by
  constructor
  . rintro ⟨h₁, h₂, h₃, h₄, h₅, h₆, h₇, h₈⟩
    simp only [has, lent, startAddr, endAddr, origin, next, read, write, exec, parent] at *
    exact ⟨h₁, h₂, h₃, h₄, h₅, h₆, h₇, h₈⟩
  . rintro ⟨h₁, h₂, h₃, h₄, h₅, h₆, h₇, h₈⟩
    constructor <;> simpa

@[simp]
theorem houses (k H : Nat) : (C.setAccessible S v).Houses p k H ↔ C.Houses p k H := by
  constructor
  . rintro ⟨h₁, h₂, h₃, h₄, h₅, h₆⟩
    simp only [has, startAddr, endAddr, PDflag, PDchild, inChildLocation, parent, root] at *
    exact ⟨h₁, h₂, h₃, h₄, h₅, h₆⟩
  . rintro ⟨h₁, h₂, h₃, h₄, h₅, h₆⟩
    constructor <;> simpa

end setAccessible

theorem setAccessible_setAccessible (C : Conf) (S T : Nat → Prop) (v : Bool)
    : (C.setAccessible S v).setAccessible T v = C.setAccessible (fun a => S a ∨ T a) v := by
  simp only [setAccessible, Conf.mk.injEq, true_and]
  funext a
  by_cases hS : S a <;> by_cases hT : T a <;> simp [hS, hT]

theorem setAccessible_of_empty (C : Conf) {S : Nat → Prop} (v : Bool) (hS : ∀ a, ¬S a)
    : C.setAccessible S v = C := by
  simp only [setAccessible, hS, if_false]

theorem Above.congr {C' : Conf} {lo hi p A : Nat} (hroot : C'.root = C.root)
    (hparent : C'.parent = C.parent) (hhas : ∀ q a, C.Has q a → C'.Has q a)
    (hstart : ∀ a, (C'.slot a).startAddr = (C.slot a).startAddr)
    (hend : ∀ a, (C'.slot a).endAddr = (C.slot a).endAddr) (h : C.Above lo hi p A)
    : C'.Above lo hi p A := by
  induction h with
  | @parent p A hp hA hlo hhi =>
    refine Above.parent (hroot ▸ hp) ?_ ((hstart A).trans hlo) ((hend A).trans hhi)
    rw [hparent]
    exact hhas _ _ hA
  | @further p A A' hp hA hlo hhi _ ih =>
    refine Above.further (hroot ▸ hp) ?_ ((hstart A).trans hlo) ((hend A).trans hhi) ?_
    . rw [hparent]
      exact hhas _ _ hA
    . rw [hparent]
      exact ih

/--
The walk only depends on the tree and on the bounds of the blocks.
-/
theorem above_eq {C' : Conf} (hroot : C'.root = C.root) (hparent : C'.parent = C.parent)
    (hhas : ∀ q a, C'.Has q a ↔ C.Has q a)
    (hstart : ∀ a, (C'.slot a).startAddr = (C.slot a).startAddr)
    (hend : ∀ a, (C'.slot a).endAddr = (C.slot a).endAddr) (lo hi p : Nat)
    : C'.Above lo hi p = C.Above lo hi p := by
  funext A
  apply propext
  constructor
  . intro h
    exact h.congr hroot.symm hparent.symm (fun q a => (hhas q a).mp) (fun a => (hstart a).symm)
      fun a => (hend a).symm
  . intro h
    exact h.congr hroot hparent (fun q a => (hhas q a).mpr) hstart hend

theorem above_setAccessible (C : Conf) (S : Nat → Prop) (v : Bool) (lo hi p : Nat)
    : (C.setAccessible S v).Above lo hi p = C.Above lo hi p := by
  apply above_eq <;> simp

/--
The walk from the block `b`, it only starts while `b` spans the whole block it was made of.
-/
noncomputable def walkFrom (C : Conf) (p b : Nat) (v : Bool) : Conf :=
  C.setAccessible
    (fun a => (C.slot b).Uncut ∧ C.Above (C.slot b).startAddr (C.slot b).endAddr p a) v

theorem walkFrom_of_uncut {p b : Nat} {v : Bool} (h : (C.slot b).Uncut)
    : C.walkFrom p b v = C.walk p (C.slot b).startAddr (C.slot b).endAddr v := by
  simp only [walkFrom, walk, h, true_and]

theorem walkFrom_of_cut {p b : Nat} {v : Bool} (h : ¬(C.slot b).Uncut) : C.walkFrom p b v = C := by
  apply setAccessible_of_empty
  rintro a ⟨huncut, -⟩
  exact h huncut

theorem Static.setAccessible (hC : C.Static) {S : Nat → Prop} (v : Bool)
    (hS : ∀ a, S a → (C.slot a).present = true) : (C.setAccessible S v).Static where
  cur_live := hC.cur_live
  root_live := hC.root_live
  root_ne := hC.root_ne
  rootStructure_ne := hC.rootStructure_ne
  rootStructure_mem := hC.rootStructure_mem
  root_disjoint := hC.root_disjoint
  root_pd := by simpa using hC.root_pd
  root_structure := by simpa using hC.root_structure
  depth_root := hC.depth_root
  parent_live := hC.parent_live
  depth_parent := hC.depth_parent
  pd_house := by simpa using hC.pd_house
  flag_kind := by simpa using hC.flag_kind
  structure_house := by simpa using hC.structure_house
  structures_nodup := hC.structures_nodup
  structures_length := hC.structures_length
  child_kind := by simpa using hC.child_kind
  location_kind := by simpa using hC.location_kind
  host := by simpa using hC.host
  next_kind := by simpa using hC.next_kind
  pred_kind := by simpa using hC.pred_kind
  origin_le := by simpa using hC.origin_le
  start_lt := by simpa using hC.start_lt
  end_lt := by simpa using hC.end_lt
  disjoint := by simpa using hC.disjoint
  free_nodup := hC.free_nodup
  mem_free := by simpa using hC.mem_free
  free_empty := by
    intro p a ha hpresent
    simp only [setAccessible.owns, setAccessible.present] at ha hpresent
    rw [setAccessible.slot_of_notMem]
    . exact hC.free_empty p a ha hpresent
    . intro hSa
      rw [hS a hSa] at hpresent
      exact absurd hpresent (by simp)

/-
Blocks that span the whole block they were made of
-/

theorem Static.uncut_iff (hC : C.Static) {p a B : Nat} (hp : p ≠ C.root) (ha : C.Has p a)
    (hB : C.Hosts p a B)
    : (C.slot a).Uncut
        ↔ (C.slot B).startAddr = (C.slot a).startAddr ∧ (C.slot B).endAddr = (C.slot a).endAddr := by
  constructor
  . rintro ⟨hstart, hnext⟩
    exact ⟨by rw [hB.start_eq, hstart], (hB.end_eq hnext).symm⟩
  . rintro ⟨hstart, hend⟩
    refine ⟨by rw [← hstart, hB.start_eq], ?_⟩
    by_contra hnext
    -- the next block would have to lie behind the end of the host
    rcases hC.next_kind p a ha hnext with ⟨hn, hnstart, hnorigin⟩
    have hlt := hC.start_lt p _ hn
    rcases hC.host p _ hp hn with ⟨B', hB'⟩
    have heq : B = B' := by
      apply hC.eq_of_mem_range hB.has hB'.has (hC.mem_range_start hB.has)
      rw [hB.start_eq, ← hnorigin, ← hB'.start_eq]
      exact hC.mem_range_start hB'.has
    have := hB'.end_le
    rw [← heq] at this
    omega

theorem Static.hosts_of_exact (hC : C.Static) {p a B : Nat} (hp : p ≠ C.root) (ha : C.Has p a)
    (hB : C.Has (C.parent p) B) (hstart : (C.slot B).startAddr = (C.slot a).startAddr)
    : C.Hosts p a B := by
  apply hC.hosts_of_mem_range hp ha hB (hC.mem_range_start ha)
  rw [← hstart]
  exact hC.mem_range_start hB

namespace Above

variable {lo hi p A : Nat}

theorem start_eq (h : C.Above lo hi p A) : (C.slot A).startAddr = lo := by
  induction h with
  | parent _ _ hstart _ => exact hstart
  | further _ _ _ _ _ ih => exact ih

theorem end_eq (h : C.Above lo hi p A) : (C.slot A).endAddr = hi := by
  induction h with
  | parent _ _ _ hend => exact hend
  | further _ _ _ _ _ ih => exact ih

theorem has (h : C.Above lo hi p A) : ∃ q, C.Has q A := by
  induction h with
  | parent _ hA _ _ => exact ⟨_, hA⟩
  | further _ _ _ _ _ ih => exact ih

theorem present (h : C.Above lo hi p A) : (C.slot A).present = true := by
  rcases h.has with ⟨q, hq⟩
  exact hq.2

/--
A block on the walk lies above the base partition or above a partition with a block on the walk.
-/
theorem source (h : C.Above lo hi p A) : ∃ q, q ≠ C.root ∧ C.Has (C.parent q) A ∧
    (q = p ∨ ∃ a, C.Above lo hi p a ∧ C.Has q a) := by
  induction h with
  | parent hp hA _ _ => exact ⟨_, hp, hA, Or.inl rfl⟩
  | further hp hA hstart hend _ ih =>
    rcases ih with ⟨q, hq, hqA, hbelow⟩
    refine ⟨q, hq, hqA, Or.inr ?_⟩
    rcases hbelow with heq | ⟨a, ha, hqa⟩
    . exact ⟨_, Above.parent hp hA hstart hend, by rw [heq]; exact hA⟩
    . exact ⟨a, Above.further hp hA hstart hend ha, hqa⟩

theorem above (hC : C.Static) {q B : Nat} (h : C.Above lo hi p A) (hA : C.Has q A) (hq : q ≠ C.root)
    (hB : C.Has (C.parent q) B) (hstart : (C.slot B).startAddr = lo)
    (hend : (C.slot B).endAddr = hi) : C.Above lo hi p B := by
  induction h with
  | parent hp hA' hstart' hend' =>
    have := hC.has_unique hA hA'
    subst this
    exact Above.further hp hA' hstart' hend' (Above.parent hq hB hstart hend)
  | further hp hA' hstart' hend' _ ih => exact Above.further hp hA' hstart' hend' (ih hA)

theorem depth_lt (hC : C.Static) (hp : C.Live p) {q : Nat} (h : C.Above lo hi p A)
    (hA : C.Has q A) : C.depth q < C.depth p := by
  induction h with
  | parent hne hA' _ _ =>
    have := hC.depth_parent _ hp hne
    rw [hC.has_unique hA hA']
    omega
  | further hne hA' _ _ _ ih =>
    have := hC.depth_parent _ hp hne
    have := ih hA'.live hA
    omega

end Above

theorem Static.slot_walk_self (hC : C.Static) {p b : Nat} (hb : C.Has p b) (v : Bool)
    : (C.walk p (C.slot b).startAddr (C.slot b).endAddr v).slot b = C.slot b := by
  apply setAccessible.slot_of_notMem
  intro h
  have := h.depth_lt hC hb.live hb
  omega

/--
The walk from an uncut block reaches the block it was made of.
-/
theorem Static.accessible_walk_host (hC : C.Static) {p b B : Nat} (hp : p ≠ C.root)
    (hb : C.Has p b) (huncut : (C.slot b).Uncut) (hB : C.Hosts p b B) (v : Bool)
    : ((C.walk p (C.slot b).startAddr (C.slot b).endAddr v).slot B).accessible = v := by
  rcases (hC.uncut_iff hp hb hB).mp huncut with ⟨hstart, hend⟩
  rw [Conf.walk, setAccessible.slot_of_mem]
  exact Above.parent hp hB.has hstart hend

/--
If all blocks but `b` agree with the blocks they were made of, then after writing `v` to the
ancestors of `b` they still do.
-/
theorem Static.coherentAt_walk (hC : C.Static) {p b : Nat} (hb : C.Has p b)
    (huncut : (C.slot b).Uncut) (hcoh : ∀ q a, q ≠ C.root → C.Has q a → a ≠ b → C.CoherentAt q a)
    (v : Bool) {q a : Nat} (hq : q ≠ C.root) (ha : C.Has q a)
    (hv : a = b → (C.slot b).accessible = v)
    : (C.walk p (C.slot b).startAddr (C.slot b).endAddr v).CoherentAt q a := by
  intro B hB
  simp only [Conf.walk, setAccessible.hosts, setAccessible.uncut] at hB ⊢
  generalize hS : C.Above (C.slot b).startAddr (C.slot b).endAddr p = S
  have hmem : ∀ A, S A ↔ C.Above (C.slot b).startAddr (C.slot b).endAddr p A := by
    intro A
    rw [hS]
  have hbS : ¬S b := by
    intro h
    have := Above.depth_lt hC hb.live ((hmem b).mp h) hb
    omega
  by_cases hBS : S B
  . rw [setAccessible.slot_of_mem _ _ _ _ hBS]
    have hB' := (hmem B).mp hBS
    by_cases haS : S a
    . rw [setAccessible.slot_of_mem _ _ _ _ haS]
      have ha' := (hmem a).mp haS
      have : (C.slot a).Uncut := by
        rw [hC.uncut_iff hq ha hB, hB'.start_eq, hB'.end_eq, ha'.start_eq, ha'.end_eq]
        exact ⟨rfl, rfl⟩
      simp [this]
    . -- the walk came to `B` from a block with the same bounds, which leaves `a` only that place
      have hab : a = b := by
        have hxa := hC.mem_range_start ha
        have hxB := hC.range_subset_host ha hB hxa
        have hrange : (C.slot B).range = (C.slot b).range := by
          simp only [Slot.range, hB'.start_eq, hB'.end_eq]
        rcases hB'.source with ⟨r, hr, hrB, hbelow⟩
        rcases hbelow with heq | ⟨a', ha', hra'⟩
        . subst heq
          have hbB := hC.hosts_of_exact hr hb hrB hB'.start_eq
          have hqr : q = r := hB.lent.1.symm.trans hbB.lent.1
          subst hqr
          rw [hrange] at hxB
          exact hC.eq_of_mem_range ha hb hxa hxB
        . have ha'B := hC.hosts_of_exact hr hra' hrB (hB'.start_eq.trans ha'.start_eq.symm)
          have hqr : q = r := hB.lent.1.symm.trans ha'B.lent.1
          subst hqr
          have hrange' : (C.slot a').range = (C.slot b).range := by
            simp only [Slot.range, ha'.start_eq, ha'.end_eq]
          rw [hrange, ← hrange'] at hxB
          have := hC.eq_of_mem_range ha hra' hxa hxB
          rw [this] at haS
          exact absurd ((hmem a').mpr ha') haS
      subst hab
      rw [setAccessible.slot_of_notMem _ _ _ _ haS, hv rfl]
      simp [huncut]
  . rw [setAccessible.slot_of_notMem _ _ _ _ hBS]
    by_cases haS : S a
    . have ha' := (hmem a).mp haS
      have hcut : ¬(C.slot a).Uncut := by
        rw [hC.uncut_iff hq ha hB]
        rintro ⟨hstart, hend⟩
        apply hBS
        rw [hmem]
        exact ha'.above hC ha hq hB.has (hstart.trans ha'.start_eq) (hend.trans ha'.end_eq)
      have hab : a ≠ b := by
        intro h
        rw [h] at haS
        exact hbS haS
      have := hcoh q a hq ha hab B hB
      simp only [hcut, false_and, iff_false] at this ⊢
      exact this
    . rw [setAccessible.slot_of_notMem _ _ _ _ haS]
      have hab : a ≠ b := by
        intro h
        subst h
        apply hBS
        rw [hmem]
        have hpq := hC.has_unique ha hb
        subst hpq
        rcases (hC.uncut_iff hq ha hB).mp huncut with ⟨hstart, hend⟩
        exact Above.parent hq hB.has hstart hend
      exact hcoh q a hq ha hab B hB

theorem Coherent.walk (hC : C.Static) {p b : Nat} (hb : C.Has p b) (huncut : (C.slot b).Uncut)
    (hcoh : ∀ q a, q ≠ C.root → C.Has q a → a ≠ b → C.CoherentAt q a)
    : (C.walk p (C.slot b).startAddr (C.slot b).endAddr (C.slot b).accessible).Coherent := by
  intro q a hq ha
  simp only [Conf.walk, setAccessible.root, setAccessible.has] at hq ha
  exact hC.coherentAt_walk hb huncut hcoh _ hq ha fun _ => rfl

/--
The blocks on a walk are shared, so they hold no kernel data.
-/
theorem Static.lent_of_above (hC : C.Static) {p b A : Nat} (hb : C.Has p b)
    (h : C.Above (C.slot b).startAddr (C.slot b).endAddr p A) : ∃ q, C.Lent A q := by
  rcases h.source with ⟨q, hq, hA, hbelow⟩
  rcases hbelow with heq | ⟨a, ha, hqa⟩
  . subst heq
    exact ⟨q, (hC.hosts_of_exact hq hb hA h.start_eq).lent⟩
  . exact ⟨q, (hC.hosts_of_exact hq hqa hA (h.start_eq.trans ha.start_eq.symm)).lent⟩

theorem Static.closed_of_lent (hC : C.Static) {p a : Nat} (ha : C.Has p a)
    (hlent : (C.slot a).inChildLocation ≠ 0)
    : (C.slot a).PDflag = false ∧ (C.slot a).startAddr ∉ C.structures p := by
  constructor
  . by_contra hflag
    simp only [Bool.not_eq_false] at hflag
    exact hlent (hC.flag_kind p a ha hflag).2.1
  . intro hk
    exact hlent (hC.start_eq_of_structure ha hk (hC.mem_range_start ha)).2.2.1

theorem Closed.walk (hS : C.Static) (hC : C.Closed) {p b : Nat} (hb : C.Has p b) (v : Bool)
    : (C.walk p (C.slot b).startAddr (C.slot b).endAddr v).Closed := by
  have hnot : ∀ q a, C.Has q a → (C.slot a).inChildLocation = 0 →
      ¬C.Above (C.slot b).startAddr (C.slot b).endAddr p a := by
    intro q a _ hloc h
    rcases hS.lent_of_above hb h with ⟨r, hr⟩
    exact hr.2 hloc
  constructor
  . intro q a ha hflag
    simp only [Conf.walk, setAccessible.has, setAccessible.PDflag] at ha hflag
    rw [Conf.walk, setAccessible.slot_of_notMem]
    . exact hC.flag q a ha hflag
    . exact hnot q a ha (hS.flag_kind q a ha hflag).2.1
  . intro q a ha hpd hloc
    simp only [Conf.walk, setAccessible.has, setAccessible.PDchild,
      setAccessible.inChildLocation] at ha hpd hloc
    rw [Conf.walk, setAccessible.slot_of_notMem]
    . exact hC.given q a ha hpd hloc
    . exact hnot q a ha hloc
  . intro q a ha hk
    simp only [Conf.walk, setAccessible.has, setAccessible.startAddr,
      setAccessible.structures] at ha hk
    rw [Conf.walk, setAccessible.slot_of_notMem]
    . exact hC.own q a ha hk
    . apply hnot q a ha
      by_contra hloc
      exact (hS.closed_of_lent ha hloc).2 hk

theorem Static.walk (hC : C.Static) (p lo hi : Nat) (v : Bool) : (C.walk p lo hi v).Static :=
  hC.setAccessible v fun _ h => h.present

theorem Static.walkFrom (hC : C.Static) (p b : Nat) (v : Bool) : (C.walkFrom p b v).Static :=
  hC.setAccessible v fun _ h => h.2.present

theorem Static.slot_walkFrom_self (hC : C.Static) {p b : Nat} (hb : C.Has p b) (v : Bool)
    : (C.walkFrom p b v).slot b = C.slot b := by
  by_cases huncut : (C.slot b).Uncut
  . rw [walkFrom_of_uncut huncut]
    exact hC.slot_walk_self hb v
  . rw [walkFrom_of_cut huncut]

end Conf
