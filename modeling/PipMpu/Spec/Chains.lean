import PipMpu.Spec.Initial
import PipMpu.Spec.Steps
import PipMpu.Util.Linked
import PipMpu.Util.Tiling

/-!
This module contains what the invariant says about the blocks that a cut leaves behind: they form chains, the blocks
of a chain follow each other without a gap, have the same rights, and together they are what was shared.
-/

namespace Slot

/--
The fields of a block that stay as they are unless it is cut or merged, and the child it is shared with, if it still
is.
-/
structure Keeps (sl sl' : Slot) : Prop where
  startAddr : sl'.startAddr = sl.startAddr
  endAddr : sl'.endAddr = sl.endAddr
  origin : sl'.origin = sl.origin
  next : sl'.next = sl.next
  read : sl'.read = sl.read
  write : sl'.write = sl.write
  exec : sl'.exec = sl.exec
  shared : sl'.inChildLocation ≠ 0 →
    sl'.inChildLocation = sl.inChildLocation ∧ sl'.PDchild = sl.PDchild

theorem Keeps.refl (sl : Slot) : sl.Keeps sl :=
  ⟨rfl, rfl, rfl, rfl, rfl, rfl, rfl, fun _ => ⟨rfl, rfl⟩⟩

theorem Keeps.trans {sl sl' sl'' : Slot} (h : sl.Keeps sl') (h' : sl'.Keeps sl'') : sl.Keeps sl'' := by
  constructor
  . rw [h'.startAddr, h.startAddr]
  . rw [h'.endAddr, h.endAddr]
  . rw [h'.origin, h.origin]
  . rw [h'.next, h.next]
  . rw [h'.read, h.read]
  . rw [h'.write, h.write]
  . rw [h'.exec, h.exec]
  . intro hne
    rcases h'.shared hne with ⟨hloc, hchild⟩
    rcases h.shared (hloc ▸ hne) with ⟨hloc', hchild'⟩
    exact ⟨hloc.trans hloc', hchild.trans hchild'⟩

def SameRights (sl sl' : Slot) : Prop := sl.read = sl'.read ∧ sl.write = sl'.write ∧ sl.exec = sl'.exec

theorem SameRights.trans {sl sl' sl'' : Slot} (h : sl.SameRights sl') (h' : sl'.SameRights sl'')
    : sl.SameRights sl'' :=
  ⟨h.1.trans h'.1, h.2.1.trans h'.2.1, h.2.2.trans h'.2.2⟩

theorem SameRights.symm {sl sl' : Slot} (h : sl.SameRights sl') : sl'.SameRights sl :=
  ⟨h.1.symm, h.2.1.symm, h.2.2.symm⟩

theorem Keeps.sameRights {sl sl' : Slot} (h : sl.Keeps sl') : sl'.SameRights sl := ⟨h.read, h.write, h.exec⟩

end Slot

namespace Conf

variable {C C' C'' : Conf}

/--
No block is new, and each one that is left keeps its bounds, its links and its rights.
-/
def Tame (C C' : Conf) : Prop :=
  ∀ q a, C'.Has q a → C.Has q a ∧ (C.slot a).Keeps (C'.slot a)

namespace Tame

theorem refl (C : Conf) : C.Tame C := fun _ a h => ⟨h, Slot.Keeps.refl (C.slot a)⟩

theorem trans (h : C.Tame C') (h' : C'.Tame C'') : C.Tame C'' := by
  intro q a ha
  rcases h' q a ha with ⟨ha', hkeeps'⟩
  rcases h q a ha' with ⟨ha, hkeeps⟩
  exact ⟨ha, hkeeps.trans hkeeps'⟩

theorem switch (C : Conf) (p : Nat) : C.Tame (C.switch p) := fun _ a h => ⟨h, Slot.Keeps.refl (C.slot a)⟩

theorem permute (C : Conf) (p : Nat) (l : List Nat) : C.Tame (C.setFree p l) :=
  fun _ a h => ⟨h, Slot.Keeps.refl (C.slot a)⟩

theorem setAccessible (C : Conf) (S : Nat → Prop) (v : Bool) : C.Tame (C.setAccessible S v) := by
  intro q a ha
  refine ⟨(setAccessible.has _ _ _ _ _).mp ha, ?_⟩
  constructor <;> simp

theorem access (C : Conf) (p b : Nat) (v : Bool) : C.Tame (C.access p b v) := by
  rw [access_eq]
  exact setAccessible C _ v

theorem addPartition {p b : Nat} (h : C.CanAddPartition p b) : C.Tame (C.addPartition p b) := by
  intro q a ha
  refine ⟨(h.has_iff q a).mp ha, ?_⟩
  by_cases hab : a = b
  . rw [hab, CanAddPartition.slot_self]
    exact ⟨rfl, rfl, rfl, rfl, rfl, rfl, rfl, fun _ => ⟨rfl, rfl⟩⟩
  . rw [CanAddPartition.slot_other hab]
    exact Slot.Keeps.refl _

theorem dropPartition (C : Conf) (c : Nat) : C.Tame (C.dropPartition c) := by
  intro q a ha
  refine ⟨((CanDrop.has_iff c q a).mp ha).1, ?_⟩
  rcases CanDrop.fields (C := C) c a with ⟨h₁, h₂, h₃, h₄, -, -, h₇, h₈, h₉⟩
  refine ⟨h₁, h₂, h₃, h₄, h₇, h₈, h₉, ?_⟩
  rcases CanDrop.slot_cases (C := C) (c := c) a with ⟨-, -, hloc⟩ | ⟨heq, -, -⟩
  . exact fun hne => absurd hloc hne
  . rw [heq]
    exact fun _ => ⟨rfl, rfl⟩

theorem link {t p b : Nat} (hC : C.Static) (h : C.CanLink t p b) : C.Tame (C.link t p b) := by
  intro q a ha
  have ha := (h.has_iff q a).mp ha
  refine ⟨ha, ?_⟩
  rcases h.fields ha.1 with ⟨h₁, h₂, h₃, h₄, -, -, h₇, h₈, h₉, h₁₀, -⟩
  refine ⟨h₁, h₂, h₃, h₄, h₈, h₉, h₁₀, ?_⟩
  intro hne
  refine ⟨h₇, ?_⟩
  by_cases hab : a = b
  . subst hab
    exact absurd (h₇.trans (h.inChild_eq hC)) hne
  . rw [h.slot_other ha.1 hab]

theorem unlink {t k b : Nat} (hC : C.Static) (h : C.CanUnlink t k b) : C.Tame (C.unlink t k b) := by
  intro q a ha
  refine ⟨(h.has_iff hC q a).mp ha, ?_⟩
  by_cases hab : a = b
  . rw [hab, CanUnlink.slot_self]
    exact ⟨rfl, rfl, rfl, rfl, rfl, rfl, rfl, fun hne => absurd rfl hne⟩
  . rw [CanUnlink.slot_other hab]
    exact Slot.Keeps.refl _

theorem unshare {p b c l : Nat} (hC : C.Static) (h : C.CanUnshare p b c l) : C.Tame (C.unshare b c l) := by
  intro q a ha
  rcases (h.has_iff hC q a).mp ha with ⟨ha, hal⟩
  refine ⟨ha, ?_⟩
  by_cases hab : a = b
  . rw [hab, CanUnshare.slot_self (h.ne hC)]
    exact ⟨rfl, rfl, rfl, rfl, rfl, rfl, rfl, fun hne => absurd rfl hne⟩
  . rw [CanUnshare.slot_other hab hal]
    exact Slot.Keeps.refl _

end Tame

/-
Rights along a chain
-/

theorem setAccessible.sameRights (C : Conf) (S : Nat → Prop) (v : Bool) (a : Nat)
    : ((C.setAccessible S v).slot a).SameRights (C.slot a) := by
  constructor <;> simp

/--
Both parts of a block that is cut have the rights of the block.
-/
theorem CanSplit.sameRights {p b f cutAddr : Nat} {rest : List Nat} (hC : C.Static)
    (h : C.CanSplit p b f cutAddr rest) (a : Nat)
    : ((C.split p b f cutAddr rest).slot a).SameRights (C.slot (if a = f then b else a)) := by
  by_cases haf : a = f
  . rw [if_pos haf, haf, slot_new]
    exact ⟨rfl, rfl, rfl⟩
  . rw [if_neg haf]
    by_cases hab : a = b
    . rw [hab, slot_cut (h.ne hC)]
      exact ⟨rfl, rfl, rfl⟩
    . rw [slot_other hab haf]
      exact ⟨rfl, rfl, rfl⟩

theorem CanSplit.cut_sameRights {p b f cutAddr : Nat} {rest : List Nat} (hC : C.Static)
    (h : C.CanSplit p b f cutAddr rest) (a : Nat)
    : ((C.cut p b f cutAddr rest).slot a).SameRights (C.slot (if a = f then b else a)) :=
  ((h.walkFrom false).sameRights (hC.walkFrom p b false) a).trans (setAccessible.sameRights _ _ _ _)

/--
A merge changes the rights of no block that is left.
-/
theorem CanJoin.sameRights {p b₁ b₂ : Nat} (hC : C.Static) (h : C.CanJoin p b₁ b₂) {a : Nat} (ha : a ≠ b₂)
    : ((C.join p b₁ b₂).slot a).SameRights (C.slot a) := by
  by_cases hab : a = b₁
  . rw [hab, slot_merged (h.ne hC)]
    exact ⟨rfl, rfl, rfl⟩
  . rw [slot_other hab ha]
    exact ⟨rfl, rfl, rfl⟩

theorem CanJoin.merge_sameRights {p b₁ b₂ : Nat} (hC : C.Static) (h : C.CanJoin p b₁ b₂) {a : Nat}
    (ha : a ≠ b₂) : ((C.merge p b₁ b₂).slot a).SameRights (C.slot a) :=
  (setAccessible.sameRights _ _ _ _).trans (h.sameRights hC ha)

/--
A block and the one after it have the same rights.
-/
def Even (C : Conf) : Prop :=
  ∀ p a, C.Has p a → (C.slot a).next ≠ 0 → (C.slot (C.slot a).next).SameRights (C.slot a)

theorem OnlyRoot.even (h : C.OnlyRoot) : C.Even :=
  fun _ a ha hnext => absurd (h.plain a (h.has_root ha)).2.2.2.2 hnext

namespace Even

theorem of_tame (hC : C.Even) (hC' : C'.Static) (h : C.Tame C') : C'.Even := by
  intro p a ha hnext
  have hnhas := (hC'.next_kind p a ha hnext).1
  rcases h p a ha with ⟨ha, hkeeps⟩
  have hkeepsn := (h p _ hnhas).2
  rw [hkeeps.next] at hnext hkeepsn ⊢
  exact hkeepsn.sameRights.trans ((hC p a ha hnext).trans hkeeps.sameRights.symm)

theorem split (hC : C.Even) (hS : C.Static) {p b f cutAddr : Nat} {rest : List Nat}
    (h : C.CanSplit p b f cutAddr rest) : (C.split p b f cutAddr rest).Even := by
  have hne := h.ne hS
  have hnot := h.not_has hS
  intro q a ha hnext
  -- no link led to the free slot before
  have heven : ∀ x, C.Has q x → (C.slot x).next ≠ 0 →
      ((C.split p b f cutAddr rest).slot (C.slot x).next).SameRights (C.slot x) := by
    intro x hx hxnext
    have hr := h.sameRights hS (C.slot x).next
    have hnf : (C.slot x).next ≠ f := fun heq => hnot q (heq ▸ (hS.next_kind q x hx hxnext).1)
    rw [if_neg hnf] at hr
    exact hr.trans (hC q x hx hxnext)
  rcases (h.has_iff hS q a).mp ha with ha | ⟨rfl, rfl⟩
  . have haf : a ≠ f := fun heq => hnot q (heq ▸ ha)
    by_cases hab : a = b
    . subst hab
      rw [CanSplit.slot_cut hne, CanSplit.slot_new]
      exact ⟨rfl, rfl, rfl⟩
    . rw [CanSplit.slot_other hab haf] at hnext ⊢
      exact heven a ha hnext
  . rw [CanSplit.slot_new] at hnext ⊢
    exact heven b h.has hnext

/--
The blocks that are merged have the same rights.
-/
theorem joined (hC : C.Even) (hS : C.Static) {p b₁ b₂ : Nat} (h : C.CanJoin p b₁ b₂)
    : (C.slot b₂).SameRights (C.slot b₁) := by
  have hr := hC p b₁ h.has₁ (by rw [h.next_eq]; exact hS.owns_ne_zero h.has₂.1)
  rw [h.next_eq] at hr
  exact hr

theorem join (hC : C.Even) (hS : C.Static) {p b₁ b₂ : Nat} (h : C.CanJoin p b₁ b₂)
    : (C.join p b₁ b₂).Even := by
  have hne := h.ne hS
  intro q a ha hnext
  have hnhas := (h.has_iff hS q _).mp ((hS.join h).next_kind q a ha hnext).1
  have hr := h.sameRights hS hnhas.2
  rcases (h.has_iff hS q a).mp ha with ⟨ha, hab₂⟩
  by_cases hab : a = b₁
  . subst hab
    rw [CanJoin.slot_merged hne] at hnext hr ⊢
    exact hr.trans ((hC p b₂ h.has₂ hnext).trans (hC.joined hS h))
  . rw [CanJoin.slot_other hab hab₂] at hnext hr ⊢
    exact hr.trans (hC q a ha hnext)

theorem share (hC : C.Even) (hS : C.Static) {p b c f : Nat} {rest : List Nat} {r w x : Bool}
    (h : C.CanShare p b c f rest r w x) : (C.share b c f rest r w x).Even := by
  have hne := h.ne hS
  have hnot := h.not_has hS
  intro q a ha hnext
  rcases (h.has_iff hS q a).mp ha with ha | ⟨rfl, rfl⟩
  . have haf : a ≠ f := fun heq => hnot q (heq ▸ ha)
    have hfields : ((C.share b c f rest r w x).slot a).next = (C.slot a).next
        ∧ ((C.share b c f rest r w x).slot a).SameRights (C.slot a) := by
      by_cases hab : a = b
      . rw [hab, CanShare.slot_self hne]
        exact ⟨rfl, rfl, rfl, rfl⟩
      . rw [CanShare.slot_other hab haf]
        exact ⟨rfl, rfl, rfl, rfl⟩
    rw [hfields.1] at hnext ⊢
    have hnhas := (hS.next_kind q a ha hnext).1
    have hnf : (C.slot a).next ≠ f := fun heq => hnot q (heq ▸ hnhas)
    have h' := hC q a ha hnext
    have hr := hfields.2
    by_cases hnb : (C.slot a).next = b
    . rw [hnb, CanShare.slot_self hne]
      rw [hnb] at h'
      exact ⟨h'.1.trans hr.1.symm, h'.2.1.trans hr.2.1.symm, h'.2.2.trans hr.2.2.symm⟩
    . rw [CanShare.slot_other hnb hnf]
      exact ⟨h'.1.trans hr.1.symm, h'.2.1.trans hr.2.1.symm, h'.2.2.trans hr.2.2.symm⟩
  . rw [CanShare.slot_new] at hnext
    exact absurd rfl hnext

theorem step (hC : C.Even) (hI : C.Inv) (h : C.Step C') : C'.Even := by
  have hS := hI.static
  have hS' := (hI.step h).static
  cases h with
  | switch _ => exact hC.of_tame hS' (.switch C _)
  | permute _ => exact hC.of_tame hS' (.permute C _ _)
  | @cut p b f cutAddr rest h =>
    have hwalk : (C.walkFrom p b false).Even :=
      hC.of_tame (hS.walkFrom p b false) (.setAccessible C _ false)
    exact hwalk.split (hS.walkFrom p b false) (h.walkFrom false)
  | merge h _ => exact (hC.join hS h).of_tame hS' (.setAccessible _ _ true)
  | access _ => exact hC.of_tame hS' (.access C _ _ _)
  | addPartition h => exact hC.of_tame hS' (.addPartition h)
  | dropPartition _ => exact hC.of_tame hS' (.dropPartition C _)
  | link h => exact hC.of_tame hS' (.link hS h)
  | unlink h => exact hC.of_tame hS' (.unlink hS h)
  | share h => exact hC.share hS h
  | unshare h => exact hC.of_tame hS' (.unshare hS h)

theorem steps (hC : C.Even) (hI : C.Inv) (h : Relation.ReflTransGen Step C C') : C'.Even := by
  induction h with
  | refl => exact hC
  | tail hsteps hstep ih => exact ih.step (hI.steps hsteps) hstep

end Even

/-
Chains
-/

/--
The blocks of the list are linked from `x` on. They are blocks of `p` with one origin and the same rights, and they
follow each other from `lo` to `hi`.
-/
structure CutChain (C : Conf) (p x lo hi : Nat) (l : List Nat) : Prop where
  linked : Linked (fun a => (C.slot a).next) x l
  has : ∀ a ∈ l, C.Has p a
  origin : ∀ a ∈ l, (C.slot a).origin = (C.slot x).origin
  rights : ∀ a ∈ l, (C.slot a).SameRights (C.slot x)
  tiling : Tiling (fun a => (C.slot a).startAddr) (fun a => (C.slot a).endAddr) lo hi l

/--
From any block on the chain goes up to the end of the block that was shared.
-/
theorem Even.chain (hE : C.Even) (hC : C.Static) {p a B : Nat} (hp : p ≠ C.root) (ha : C.Has p a)
    (hB : C.Hosts p a B)
    : ∃ l, C.CutChain p a (C.slot a).startAddr (C.slot B).endAddr l := by
  induction hn : (C.slot B).endAddr - (C.slot a).endAddr using Nat.strongRecOn generalizing a with
  | ind n ih =>
    have hne := hC.owns_ne_zero ha.1
    by_cases hlast : (C.slot a).next = 0
    . refine ⟨[a], ⟨rfl, hne, hlast⟩, by simpa using ha, by simp, by simp [Slot.SameRights], ?_⟩
      rw [← hB.end_eq hlast]
      exact .single a
    . rcases hC.next_kind p a ha hlast with ⟨hnhas, hnstart, hnorigin⟩
      have hBn : C.Hosts p (C.slot a).next B := by
        apply hC.hosts_of_origin hp hnhas hB.has
        rw [hB.start_eq, hnorigin]
      have hlt := hC.start_lt p _ hnhas
      have hle := hBn.end_le
      rcases ih _ (by omega) hnhas hBn rfl with ⟨l, hl⟩
      have hrights := hE p a ha hlast
      refine ⟨a :: l, ⟨rfl, hne, hl.linked⟩, ?_, ?_, ?_, ?_⟩
      . intro b hb
        rcases List.mem_cons.mp hb with rfl | hb
        . exact ha
        . exact hl.has b hb
      . intro b hb
        rcases List.mem_cons.mp hb with rfl | hb
        . rfl
        . rw [hl.origin b hb, hnorigin]
      . intro b hb
        rcases List.mem_cons.mp hb with rfl | hb
        . exact ⟨rfl, rfl, rfl⟩
        . have hb := hl.rights b hb
          exact ⟨hb.1.trans hrights.1, hb.2.1.trans hrights.2.1, hb.2.2.trans hrights.2.2⟩
      . have htiling := hl.tiling
        rw [hnstart] at htiling
        exact .cons a htiling

/--
The links lead from a block to blocks of the same partition with the same origin.
-/
theorem Static.has_of_reach (hC : C.Static) {p x a : Nat} (hx : C.Has p x)
    (h : LinkReach (fun b => (C.slot b).next) x a) : C.Has p a ∧ (C.slot a).origin = (C.slot x).origin := by
  induction h with
  | first _ => exact ⟨hx, rfl⟩
  | next _ hnext ih =>
    rcases hC.next_kind p _ ih.1 hnext with ⟨hhas, -, horigin⟩
    exact ⟨hhas, horigin.trans ih.2⟩

/--
Each block is reached from the one at the origin.
-/
theorem Static.reached (hC : C.Static) {p a : Nat} (ha : C.Has p a)
    : ∃ x, C.Has p x ∧ (C.slot x).origin = (C.slot x).startAddr ∧ (C.slot x).origin = (C.slot a).origin
        ∧ LinkReach (fun b => (C.slot b).next) x a := by
  induction hn : (C.slot a).startAddr using Nat.strongRecOn generalizing a with
  | ind n ih =>
    by_cases hfirst : (C.slot a).startAddr = (C.slot a).origin
    . exact ⟨a, ha, hfirst.symm, rfl, .first (hC.owns_ne_zero ha.1)⟩
    . rcases hC.pred_kind p a ha hfirst with ⟨b, hb, hnext⟩
      have hne : (C.slot b).next ≠ 0 := by
        rw [hnext]
        exact hC.owns_ne_zero ha.1
      rcases hC.next_kind p b hb hne with ⟨-, hstart, horigin⟩
      rw [hnext] at hstart horigin
      have hlt := hC.start_lt p b hb
      rcases ih _ (by omega) hb rfl with ⟨x, hx, hself, heq, hreach⟩
      refine ⟨x, hx, hself, heq.trans horigin.symm, ?_⟩
      rw [← hnext]
      exact hreach.next hne

/--
The block at the origin is the one that the parent recorded when it shared the block.
-/
theorem Static.location_of_hosts (hC : C.Static) {p a B : Nat} (ha : C.Has p a) (hB : C.Hosts p a B)
    (hfirst : (C.slot a).origin = (C.slot a).startAddr) : (C.slot B).inChildLocation = a := by
  rcases hC.location_kind _ B hB.has hB.lent.2 with ⟨-, hl, hstart, -⟩
  rw [hB.lent.1] at hl
  apply hC.eq_of_mem_range hl ha (hC.mem_range_start hl)
  rw [hstart, hB.start_eq, hfirst]
  exact hC.mem_range_start ha

end Conf
