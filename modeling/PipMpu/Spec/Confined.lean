import PipMpu.Spec.Determined

/-!
This module contains how far a transition of a partition reaches: outside of the subtree of the partition the tree,
the structures and the slots stay as they are, but for accessible bits.
-/

namespace Conf

variable {C C' C'' : Conf} {q p b : Nat}

theorem below_congr (hroot : C'.root = C.root) (hparent : C'.parent = C.parent) (q r : Nat)
    : C'.Below q r ↔ C.Below q r := by
  constructor
  . intro h
    induction h with
    | self => exact .self
    | child hne _ ih => exact .child (hroot ▸ hne) (hparent ▸ ih)
  . intro h
    induction h with
    | self => exact .self
    | child hne _ ih => exact .child (hroot.symm ▸ hne) (hparent.symm ▸ ih)

theorem Below.of_parent {c : Nat} (hparent : C.parent c = p) (hroot : c ≠ C.root) (h : C.Below q p) : C.Below q c :=
  .child hroot (hparent.symm ▸ h)

theorem Below.ne {r : Nat} (h : C.Below q p) (hr : ¬C.Below q r) : r ≠ p := by
  rintro rfl
  exact hr h

theorem Below.live (h : C.Below q p) (hC : C.Static) (hp : C.Live p) : C.Live q := by
  induction h with
  | self => exact hp
  | child hne _ ih => exact ih (hC.parent_live _ hp hne)

theorem Below.antisymm (h : C.Below q p) (h' : C.Below p q) (hC : C.Static) (hp : C.Live p) : q = p := by
  have hle := h'.depth_le hC (h.live hC hp)
  cases h with
  | self => rfl
  | child hne hbelow =>
    have hle' := hbelow.depth_le hC (hC.parent_live p hp hne)
    have hdepth := hC.depth_parent p hp hne
    omega

/--
The tree outside of the subtree of `q` and the lists of the partitions in it are the same.
-/
structure KeepsOutside (C : Conf) (q : Nat) (C' : Conf) : Prop where
  root : C'.root = C.root
  tree : ∀ r, (C'.Live r ∧ ¬C'.Below q r) ↔ (C.Live r ∧ ¬C.Below q r)
  parent : ∀ r, C.Live r → ¬C.Below q r → C'.parent r = C.parent r
  structures : ∀ r, C.Live r → ¬C.Below q r → C'.structures r = C.structures r
  free : ∀ r, C.Live r → ¬C.Below q r → C'.free r = C.free r

/--
Outside of the subtree of `q` nothing but accessible bits differs.
-/
structure Confined (C : Conf) (q : Nat) (C' : Conf) : Prop extends KeepsOutside C q C' where
  self : C'.parent q = C.parent q
  slot : ∀ r a, C.Owns r a → ¬C.Below q r → (C.slot a).SameRecord (C'.slot a)

namespace KeepsOutside

theorem refl (C : Conf) (q : Nat) : C.KeepsOutside q C where
  root := rfl
  tree _ := Iff.rfl
  parent _ _ _ := rfl
  structures _ _ _ := rfl
  free _ _ _ := rfl

theorem owns (h : C.KeepsOutside q C') {r a : Nat} (ha : C.Owns r a) (hr : ¬C.Below q r) : C'.Owns r a := by
  rcases ha with ⟨hlive, k, hk, hak⟩
  exact ⟨((h.tree r).mpr ⟨hlive, hr⟩).1, k, (h.structures r hlive hr).symm ▸ hk, hak⟩

theorem trans (h : C.KeepsOutside q C') (h' : C'.KeepsOutside q C'') : C.KeepsOutside q C'' where
  root := h'.root.trans h.root
  tree r := (h'.tree r).trans (h.tree r)
  parent r hlive hr := by
    have hr' := (h.tree r).mpr ⟨hlive, hr⟩
    exact (h'.parent r hr'.1 hr'.2).trans (h.parent r hlive hr)
  structures r hlive hr := by
    have hr' := (h.tree r).mpr ⟨hlive, hr⟩
    exact (h'.structures r hr'.1 hr'.2).trans (h.structures r hlive hr)
  free r hlive hr := by
    have hr' := (h.tree r).mpr ⟨hlive, hr⟩
    exact (h'.free r hr'.1 hr'.2).trans (h.free r hlive hr)

/--
Partitions outside have the same ancestors as before.
-/
theorem below_iff (h : C.KeepsOutside q C') (hC : C.Static) {r : Nat} (hlive : C.Live r) (hr : ¬C.Below q r) (c : Nat)
    : C'.Below c r ↔ C.Below c r := by
  induction hn : C.depth r generalizing r with
  | zero =>
    have hroot := (hC.depth_eq_zero hlive).mp hn
    constructor
    . intro hbelow
      cases hbelow with
      | self => exact .self
      | child hne _ => exact absurd (hroot.trans h.root.symm) hne
    . intro hbelow
      cases hbelow with
      | self => exact .self
      | child hne _ => exact absurd hroot hne
  | succ n ih =>
    have hne : r ≠ C.root := by
      intro hroot
      have := (hC.depth_eq_zero hlive).mpr hroot
      omega
    have hdepth := hC.depth_parent r hlive hne
    have hup : ¬C.Below q (C.parent r) := fun hbelow => hr (.child hne hbelow)
    have ih := ih (hC.parent_live r hlive hne) hup (by omega)
    constructor
    . intro hbelow
      cases hbelow with
      | self => exact .self
      | child _ hbelow =>
        rw [h.parent r hlive hr] at hbelow
        exact .child hne (ih.mp hbelow)
    . intro hbelow
      cases hbelow with
      | self => exact .self
      | child _ hbelow =>
        refine .child (h.root.symm ▸ hne) ?_
        rw [h.parent r hlive hr]
        exact ih.mpr hbelow

end KeepsOutside

namespace Confined

theorem refl (C : Conf) (q : Nat) : C.Confined q C := ⟨.refl C q, rfl, fun _ _ _ _ => .refl _⟩

theorem trans (h : C.Confined q C') (h' : C'.Confined q C'') : C.Confined q C'' where
  toKeepsOutside := h.toKeepsOutside.trans h'.toKeepsOutside
  self := h'.self.trans h.self
  slot r a ha hr := by
    have hr' := (h.tree r).mpr ⟨ha.1, hr⟩
    exact (h.slot r a ha hr).trans (h'.slot r a (h.owns ha hr) hr'.2)

/--
The ancestors of `q` stay above it.
-/
theorem above_self (h : C.Confined q C') (hC : C.Static) (hq : C.Live q) {c : Nat} (hc : C.Below c q)
    : C'.Below c q := by
  cases hc with
  | self => exact .self
  | child hne hbelow =>
    have hparent := hC.parent_live q hq hne
    have hout : ¬C.Below q (C.parent q) := by
      intro h
      have hle := h.depth_le hC hparent
      have := hC.depth_parent q hq hne
      omega
    refine .child (h.root.symm ▸ hne) ?_
    rw [h.self]
    exact (h.below_iff hC hparent hout c).mpr hbelow

/--
What reaches no further than the subtree of `q` reaches no further than one around it.
-/
theorem widen (h : C.Confined q C') (hC : C.Static) (hq : C.Live q) {c : Nat} (hc : C.Below c q)
    : C.Confined c C' := by
  have hself : C'.parent c = C.parent c := by
    by_cases hcq : c = q
    . rw [hcq]
      exact h.self
    . exact h.parent c (hc.live hC hq) fun hbelow => hcq (hc.antisymm hbelow hC hq)
  have hout : ∀ r, ¬C.Below c r → ¬C.Below q r := fun r hr hbelow => hr (hc.trans hbelow)
  refine ⟨⟨h.root, fun r => ?_, fun r hlive hr => h.parent r hlive (hout r hr),
    fun r hlive hr => h.structures r hlive (hout r hr), fun r hlive hr => h.free r hlive (hout r hr)⟩, hself,
    fun r a ha hr => h.slot r a ha (hout r hr)⟩
  constructor
  . rintro ⟨hlive, hr⟩
    have hout' : ¬C'.Below q r := fun hbelow => hr ((h.above_self hC hq hc).trans hbelow)
    rcases (h.tree r).mp ⟨hlive, hout'⟩ with ⟨hlive, hout⟩
    exact ⟨hlive, fun hbelow => hr ((h.below_iff hC hlive hout c).mpr hbelow)⟩
  . rintro ⟨hlive, hr⟩
    have hout' := hout r hr
    exact ⟨((h.tree r).mpr ⟨hlive, hout'⟩).1, fun hbelow => hr ((h.below_iff hC hlive hout' c).mp hbelow)⟩

/--
A transition that leaves the tree alone.
-/
theorem of_tree_eq (hroot : C'.root = C.root) (hparent : C'.parent = C.parent) (hlive : C'.Live = C.Live)
    (hlists : ∀ r, C.Live r → ¬C.Below q r → C'.structures r = C.structures r ∧ C'.free r = C.free r)
    (hslot : ∀ r a, C.Owns r a → ¬C.Below q r → (C.slot a).SameRecord (C'.slot a)) : C.Confined q C' where
  root := hroot
  self := by rw [hparent]
  tree r := by rw [hlive, below_congr hroot hparent]
  parent _ _ _ := by rw [hparent]
  structures r hlive hr := (hlists r hlive hr).1
  free r hlive hr := (hlists r hlive hr).2
  slot := hslot

theorem switch (C : Conf) (q r : Nat) : C.Confined q (C.switch r) :=
  of_tree_eq rfl rfl rfl (fun _ _ _ => ⟨rfl, rfl⟩) fun _ _ _ _ => .refl _

theorem setAccessible (C : Conf) (q : Nat) (S : Nat → Prop) (v : Bool) : C.Confined q (C.setAccessible S v) :=
  of_tree_eq rfl rfl rfl (fun _ _ _ => ⟨rfl, rfl⟩) fun _ a _ _ => setAccessible.sameRecord C S v a

theorem access (C : Conf) (q p b : Nat) (v : Bool) : C.Confined q (C.access p b v) := by
  rw [access_eq]
  exact setAccessible C q _ v

/--
A slot outside of the subtree is none of the slots of a partition in it.
-/
theorem ne_of_owns (hC : C.Static) {r a x : Nat} (hx : C.Owns p x) (hp : C.Below q p) (ha : C.Owns r a)
    (hr : ¬C.Below q r) : a ≠ x := by
  rintro rfl
  exact hr (hC.owns_unique hx ha ▸ hp)

theorem split (hC : C.Static) {f cutAddr : Nat} {rest : List Nat} (h : C.CanSplit p b f cutAddr rest)
    (hp : C.Below q p) : C.Confined q (C.split p b f cutAddr rest) := by
  refine of_tree_eq rfl rfl rfl (fun r _ hr => ⟨rfl, if_neg (hp.ne hr)⟩) fun r a ha hr => ?_
  rw [CanSplit.slot_other (ne_of_owns hC h.has.1 hp ha hr) (ne_of_owns hC (h.free_slot hC).1 hp ha hr)]
  exact .refl _

theorem cut (hC : C.Static) {f cutAddr : Nat} {rest : List Nat} (h : C.CanSplit p b f cutAddr rest)
    (hp : C.Below q p) : C.Confined q (C.cut p b f cutAddr rest) := by
  have hwalk : C.Confined q (C.walkFrom p b false) := setAccessible C q _ false
  refine hwalk.trans (split (hC.walkFrom p b false) (h.walkFrom false) ?_)
  exact (@below_congr C (C.walkFrom p b false) rfl rfl q p).mpr hp

theorem merge (hC : C.Static) {b₁ b₂ : Nat} (h : C.CanJoin p b₁ b₂) (hp : C.Below q p)
    : C.Confined q (C.merge p b₁ b₂) := by
  have hjoin : C.Confined q (C.join p b₁ b₂) := by
    refine of_tree_eq rfl rfl rfl (fun r _ hr => ⟨rfl, if_neg (hp.ne hr)⟩) fun r a ha hr => ?_
    rw [CanJoin.slot_other (ne_of_owns hC h.has₁.1 hp ha hr) (ne_of_owns hC h.has₂.1 hp ha hr)]
    exact .refl _
  exact hjoin.trans (setAccessible _ q _ true)

theorem share (hC : C.Static) {c f : Nat} {rest : List Nat} {r w x : Bool} (h : C.CanShare p b c f rest r w x)
    (hp : C.Below q p) : C.Confined q (C.share b c f rest r w x) := by
  have hc : C.Below q c := .of_parent h.parent_eq h.ne_root hp
  refine of_tree_eq rfl rfl rfl (fun r _ hr => ⟨rfl, if_neg (hc.ne hr)⟩) fun r a ha hr => ?_
  rw [CanShare.slot_other (ne_of_owns hC h.has.1 hp ha hr) (ne_of_owns hC (h.free_slot hC).1 hc ha hr)]
  exact .refl _

theorem link (hC : C.Static) {t : Nat} (h : C.CanLink t p b) (hp : C.Below q p) : C.Confined q (C.link t p b) := by
  have ht : C.Below q t := by
    rcases h.target with rfl | ⟨-, hroot, hparent⟩
    . exact hp
    . exact .of_parent hparent hroot hp
  refine of_tree_eq rfl rfl rfl (fun r _ hr => ⟨if_neg (ht.ne hr), if_neg (ht.ne hr)⟩) fun r a ha hr => ?_
  rw [h.slot_other ha (ne_of_owns hC h.has.1 hp ha hr)]
  exact .refl _

theorem unlink (hC : C.Static) {t k : Nat} (h : C.CanUnlink t k b) (hb : C.Has p b) (hp : C.Below q p)
    : C.Confined q (C.unlink t k b) := by
  have ht : C.Below q t := by
    rcases h.holder hC hb with rfl | ⟨hroot, hparent⟩
    . exact hp
    . exact .of_parent hparent hroot hp
  refine of_tree_eq rfl rfl rfl (fun r _ hr => ⟨if_neg (ht.ne hr), if_neg (ht.ne hr)⟩) fun r a ha hr => ?_
  rw [CanUnlink.slot_other (ne_of_owns hC hb.1 hp ha hr)]
  exact .refl _

theorem addPartition (hC : C.Static) (h : C.CanAddPartition p b) (hp : C.Below q p) (hq : C.Live q)
    : C.Confined q (C.addPartition p b) := by
  have hother : ∀ {r}, C.Live r → r ≠ (C.slot b).startAddr := fun hr heq => h.not_live (heq ▸ hr)
  have hbelow : ∀ c r, C.Live r → ((C.addPartition p b).Below c r ↔ C.Below c r) := by
    intro c r hr
    induction hn : C.depth r using Nat.strongRecOn generalizing r with
    | ind n ih =>
      have hparent := (CanAddPartition.tree_other (C := C) (p := p) (hother hr)).2.1
      constructor
      . intro hbelow
        cases hbelow with
        | self => exact .self
        | child hne hbelow =>
          have hdepth := hC.depth_parent r hr hne
          rw [hparent] at hbelow
          exact .child hne ((ih _ (by omega) _ (hC.parent_live r hr hne) rfl).mp hbelow)
      . intro hbelow
        cases hbelow with
        | self => exact .self
        | child hne hbelow =>
          have hdepth := hC.depth_parent r hr hne
          refine .child hne ?_
          rw [hparent]
          exact (ih _ (by omega) _ (hC.parent_live r hr hne) rfl).mpr hbelow
  refine ⟨⟨?root, ?tree, ?parent, ?structures, ?free⟩, ?self, ?slot⟩
  case root => rfl
  case self => exact (CanAddPartition.tree_other (hother hq)).2.1
  case tree =>
    intro r
    by_cases hr : r = (C.slot b).startAddr
    . -- the new partition lies below the one that makes it
      have hnew : (C.addPartition p b).parent r = p := by simp [Conf.addPartition, hr]
      have hroot : r ≠ C.root := fun heq => h.not_live (hr ▸ heq ▸ hC.root_live)
      have hin : (C.addPartition p b).Below q r :=
        .child hroot (hnew.symm ▸ (hbelow q p h.has.live).mpr hp)
      exact ⟨fun hout => absurd hin hout.2, fun hout => absurd (hr ▸ hout.1) h.not_live⟩
    . rw [(CanAddPartition.tree_other (C := C) (p := p) hr).1]
      exact and_congr_right fun hlive => not_congr (hbelow q r hlive)
  case parent => exact fun r hlive _ => (CanAddPartition.tree_other (hother hlive)).2.1
  case structures => exact fun r hlive _ => (CanAddPartition.tree_other (hother hlive)).2.2.2.1
  case free => exact fun r hlive _ => (CanAddPartition.tree_other (hother hlive)).2.2.2.2
  case slot =>
    intro r a ha hr
    rw [CanAddPartition.slot_other (ne_of_owns hC h.has.1 hp ha hr)]
    exact .refl _

/--
A child of `p` is dropped and its blocks are taken back by `p`.
-/
theorem reclaimAll {c : Nat} (hC : C.Static) (hdrop : C.CanDrop c) (hcur : C.Below q C.cur) {G : Nat → Prop}
    (hG : ∀ a, G a → C.Owns C.cur a) : C.Confined q ((C.dropTree c).reclaimAll C.cur G) := by
  have hc : C.Below q c := .of_parent hdrop.cur_eq.symm hdrop.ne_root hcur
  refine ⟨⟨?root, ?tree, ?parent, ?structures, ?free⟩, ?self, ?slot⟩
  case root => rfl
  case self => rfl
  case tree =>
    intro r
    have hbelow : ((C.dropTree c).reclaimAll C.cur G).Below q r ↔ C.Below q r :=
      @below_congr C ((C.dropTree c).reclaimAll C.cur G) rfl rfl q r
    rw [hbelow]
    constructor
    . rintro ⟨⟨hlive, -⟩, hr⟩
      exact ⟨hlive, hr⟩
    . rintro ⟨hlive, hr⟩
      exact ⟨⟨hlive, fun hin => hr (hc.trans hin)⟩, hr⟩
  case parent => exact fun _ _ _ => rfl
  case structures => exact fun _ _ _ => rfl
  case free => exact fun _ _ _ => rfl
  case slot =>
    intro r a ha hr
    have hnot : ¬G a := fun hGa => ne_of_owns hC (hG a hGa) hcur ha hr rfl
    have hrecord := setAccessible.sameRecord ((C.dropTree c).clearAll G)
      (fun a => ∃ g, G g ∧ (C.dropTree c).Reclaims C.cur g a) true a
    rw [clearAll_slot_of_notMem hnot] at hrecord
    exact hrecord

end Confined

end Conf
