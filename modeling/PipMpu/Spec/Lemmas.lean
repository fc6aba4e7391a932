import PipMpu.Spec.Inv

/-!
This module contains what the invariant says about overlaps: blocks that share an address are nested
along the partition tree, descriptors and structures do not overlap, and none of them lies in an
accessible block.
-/

namespace Conf

variable {C : Conf}

theorem Has.live {p a : Nat} (h : C.Has p a) : C.Live p := h.1.1

theorem Houses.has {p k H : Nat} (h : C.Houses p k H) : ∃ q, C.Has q H := by
  rcases h.holder with ⟨h, -⟩ | ⟨-, h, -⟩
  . exact ⟨p, h⟩
  . exact ⟨C.parent p, h⟩

namespace Static

theorem depth_eq_zero (hC : C.Static) {p : Nat} (hp : C.Live p) : C.depth p = 0 ↔ p = C.root := by
  constructor
  . intro h
    by_contra hne
    have := hC.depth_parent p hp hne
    omega
  . intro h
    rw [h]
    exact hC.depth_root

theorem parent_ne (hC : C.Static) {p : Nat} (hp : C.Live p) (hne : p ≠ C.root) : C.parent p ≠ p := by
  intro h
  have := hC.depth_parent p hp hne
  rw [h] at this
  omega

theorem live_ne_zero (hC : C.Static) {p : Nat} (hp : C.Live p) : p ≠ 0 := by
  by_cases hroot : p = C.root
  . rw [hroot]
    exact hC.root_ne
  . rcases hC.pd_house p hp hroot with ⟨_, _, _, _, _, hram, _⟩
    have : 0 < ramStart := by decide
    omega

theorem structure_ne_zero (hC : C.Static) {p k : Nat} (hp : C.Live p) (hk : k ∈ C.structures p)
    : k ≠ 0 := by
  rcases hC.structure_house p k hp hk with ⟨-, h⟩ | ⟨H, hH⟩
  . rw [h]
    exact hC.rootStructure_ne
  . have := hH.ram_le
    have : 0 < ramStart := by decide
    omega

theorem owns_ne_zero (hC : C.Static) {p a : Nat} (h : C.Owns p a) : a ≠ 0 := by
  rcases h with ⟨hp, k, hk, ha⟩
  have := hC.structure_ne_zero hp hk
  have := slotsOf_le ha
  omega

theorem mem_range_start (hC : C.Static) {p a : Nat} (h : C.Has p a)
    : (C.slot a).startAddr ∈ (C.slot a).range := by
  have := hC.start_lt p a h
  constructor <;> omega

/--
Blocks of one partition that share an address are equal.
-/
theorem eq_of_mem_range (hC : C.Static) {p a b x : Nat} (ha : C.Has p a) (hb : C.Has p b)
    (hxa : x ∈ (C.slot a).range) (hxb : x ∈ (C.slot b).range) : a = b := by
  by_contra hne
  have := hC.disjoint p a b ha hb hne
  rcases hxa with ⟨h₁, h₂⟩
  rcases hxb with ⟨h₃, h₄⟩
  omega

theorem eq_of_start_eq (hC : C.Static) {p a b : Nat} (ha : C.Has p a) (hb : C.Has p b)
    (hstart : (C.slot a).startAddr = (C.slot b).startAddr) : a = b := by
  apply hC.eq_of_mem_range ha hb (hC.mem_range_start ha)
  rw [hstart]
  exact hC.mem_range_start hb

theorem range_subset_host (hC : C.Static) {p a B : Nat} (ha : C.Has p a) (h : C.Hosts p a B)
    : (C.slot a).range ⊆ (C.slot B).range := by
  intro x hx
  have := hC.origin_le p a ha
  have := h.start_eq
  have := h.end_le
  rcases hx with ⟨h₁, h₂⟩
  constructor <;> omega

/--
The blocks of the partitions as nested blocks.
-/
def nest (hC : C.Static) : Nest Nat Nat Nat where
  root := C.root
  parent := C.parent
  level := C.depth
  mem := C.Has
  range a := (C.slot a).range
  lent a p := C.Lent a p
  level_root h := hC.depth_eq_zero h.live
  level_parent h hne := hC.depth_parent _ h.live hne
  lent_unique h h' := h.1.symm.trans h'.1
  disjoint ha hb hxa hxb := hC.eq_of_mem_range ha hb hxa hxb
  host h hne := by
    rcases hC.host _ _ hne h with ⟨B, hB⟩
    exact ⟨B, hB.has, hB.lent, hC.range_subset_host h hB⟩

theorem eq_of_not_lent (hC : C.Static) {p q a b x : Nat} (ha : C.Has p a) (hb : C.Has q b)
    (hna : (C.slot a).inChildLocation = 0) (hnb : (C.slot b).inChildLocation = 0)
    (hxa : x ∈ (C.slot a).range) (hxb : x ∈ (C.slot b).range) : p = q ∧ a = b :=
  hC.nest.eq_of_not_lent ha hb (fun _ h => h.2 hna) (fun _ h => h.2 hnb) hxa hxb

/--
The block a block was made of is unique, any block of the parent that shares an address will do.
-/
theorem hosts_of_mem_range (hC : C.Static) {p a B x : Nat} (hp : p ≠ C.root) (ha : C.Has p a)
    (hB : C.Has (C.parent p) B) (hxa : x ∈ (C.slot a).range) (hxB : x ∈ (C.slot B).range)
    : C.Hosts p a B := by
  rcases hC.host p a hp ha with ⟨B', hB'⟩
  have := hC.eq_of_mem_range hB'.has hB (hC.range_subset_host ha hB' hxa) hxB
  rw [← this]
  exact hB'

theorem hosts_of_origin (hC : C.Static) {p a B : Nat} (hp : p ≠ C.root) (ha : C.Has p a)
    (hB : C.Has (C.parent p) B) (hstart : (C.slot B).startAddr = (C.slot a).origin)
    : C.Hosts p a B := by
  rcases hC.host p a hp ha with ⟨B', hB'⟩
  have hx := hC.mem_range_start hB
  have hx' := hC.mem_range_start hB'.has
  rw [hB'.start_eq, ← hstart] at hx'
  rw [hC.eq_of_mem_range hB hB'.has hx hx']
  exact hB'

theorem hosts_unique (hC : C.Static) {p a B B' : Nat} (ha : C.Has p a) (hB : C.Hosts p a B)
    (hB' : C.Hosts p a B') : B = B' := by
  have hx := hC.mem_range_start ha
  exact hC.eq_of_mem_range hB.has hB'.has (hC.range_subset_host ha hB hx)
    (hC.range_subset_host ha hB' hx)

/-
Descriptors and structures
-/

theorem structureRange_subset {p k H : Nat} (h : C.Houses p k H)
    : structureRange k ⊆ (C.slot H).range := by
  intro x hx
  have := h.start_eq
  have := h.end_le
  rcases hx with ⟨h₁, h₂⟩
  constructor <;> omega

/--
A block holds the structure of one partition only.
-/
theorem houses_unique (hC : C.Static) {p q k k' H : Nat} (h : C.Houses p k H)
    (h' : C.Houses q k' H) (hp : C.Live p) (hq : C.Live q) : p = q ∧ k = k' := by
  refine ⟨?_, h.start_eq.symm.trans h'.start_eq⟩
  rcases h.holder with ⟨hH, hpd⟩ | ⟨hne, hH, hpd⟩
  . rcases h'.holder with ⟨hH', -⟩ | ⟨-, hH', hpd'⟩
    . exact (hC.eq_of_not_lent hH hH' h.inChild_eq h.inChild_eq (hC.mem_range_start hH)
        (hC.mem_range_start hH)).1
    . exact absurd (hpd'.symm.trans hpd) (hC.live_ne_zero hq)
  . rcases h'.holder with ⟨-, hpd'⟩ | ⟨-, -, hpd'⟩
    . exact absurd (hpd.symm.trans hpd') (hC.live_ne_zero hp)
    . exact hpd.symm.trans hpd'

theorem root_disjoint_block (hC : C.Static) {p a : Nat} (h : C.Has p a)
    : Disjoint (pdRange C.root) (C.slot a).range
        ∧ Disjoint (structureRange C.rootStructure) (C.slot a).range := by
  induction hn : C.depth p generalizing p a with
  | zero =>
    have hp := (hC.depth_eq_zero h.live).mp hn
    subst hp
    exact ⟨hC.root_pd a h, hC.root_structure a h⟩
  | succ n ih =>
    have hp : p ≠ C.root := by
      intro hroot
      have := (hC.depth_eq_zero h.live).mpr hroot
      omega
    rcases hC.host p a hp h with ⟨B, hB⟩
    have hdepth := hC.depth_parent p h.live hp
    have hsub := hC.range_subset_host h hB
    rcases ih hB.has (by omega) with ⟨hpd, hks⟩
    exact ⟨hpd.mono_right hsub, hks.mono_right hsub⟩

theorem structures_disjoint (hC : C.Static) {p q k k' x : Nat} (hp : C.Live p) (hq : C.Live q)
    (hk : k ∈ C.structures p) (hk' : k' ∈ C.structures q) (hx : x ∈ structureRange k)
    (hx' : x ∈ structureRange k') : p = q ∧ k = k' := by
  rcases hC.structure_house p k hp hk with ⟨hp', hk₀⟩ | ⟨H, hH⟩
  . rcases hC.structure_house q k' hq hk' with ⟨hq', hk₀'⟩ | ⟨H', hH'⟩
    . exact ⟨hp'.trans hq'.symm, hk₀.trans hk₀'.symm⟩
    . rcases hH'.has with ⟨r, hr⟩
      have := (hC.root_disjoint_block hr).2
      rw [hk₀] at hx
      exact absurd (structureRange_subset hH' hx') (Set.disjoint_left.mp this hx)
  . rcases hC.structure_house q k' hq hk' with ⟨hq', hk₀'⟩ | ⟨H', hH'⟩
    . rcases hH.has with ⟨r, hr⟩
      have := (hC.root_disjoint_block hr).2
      rw [hk₀'] at hx'
      exact absurd (structureRange_subset hH hx) (Set.disjoint_left.mp this hx')
    . rcases hH.has with ⟨r, hr⟩
      rcases hH'.has with ⟨r', hr'⟩
      rcases hC.eq_of_not_lent hr hr' hH.inChild_eq hH'.inChild_eq (structureRange_subset hH hx)
        (structureRange_subset hH' hx') with ⟨-, hHH'⟩
      rw [hHH'] at hH
      exact hC.houses_unique hH hH' hp hq

theorem owns_unique (hC : C.Static) {p q a : Nat} (h : C.Owns p a) (h' : C.Owns q a) : p = q := by
  rcases h with ⟨hp, k, hk, ha⟩
  rcases h' with ⟨hq, k', hk', ha'⟩
  exact (hC.structures_disjoint hp hq hk hk' (slotsOf_mem_structureRange ha)
    (slotsOf_mem_structureRange ha')).1

theorem location_eq_zero (hC : C.Static) {p a : Nat} (ha : C.Has p a)
    (hchild : (C.slot a).PDchild = 0) : (C.slot a).inChildLocation = 0 := by
  by_contra hloc
  exact (hC.location_kind p a ha hloc).1 hchild

theorem has_unique (hC : C.Static) {p q a : Nat} (h : C.Has p a) (h' : C.Has q a) : p = q :=
  hC.owns_unique h.1 h'.1

end Static

theorem mem_structureRange_self (k : Nat) : k ∈ structureRange k := by
  unfold structureRange
  rw [sizeofKStructure_eq]
  constructor <;> omega

/--
A block with a structure of its own partition in it is the block of this structure.
-/
theorem Static.start_eq_of_structure (hC : C.Static) {p a k : Nat} (ha : C.Has p a)
    (hk : k ∈ C.structures p) (hx : k ∈ (C.slot a).range)
    : (C.slot a).startAddr = k ∧ (C.slot a).PDchild = 0 ∧ (C.slot a).inChildLocation = 0
        ∧ (C.slot a).PDflag = false := by
  rcases hC.structure_house p k ha.live hk with ⟨-, hk₀⟩ | ⟨H, hH⟩
  . rw [hk₀] at hx
    exact absurd hx (Set.disjoint_left.mp (hC.root_disjoint_block ha).2 (mem_structureRange_self _))
  . have hxH := Static.structureRange_subset hH (mem_structureRange_self k)
    rcases hH.holder with ⟨hhas, hpd⟩ | ⟨hne, hhas, -⟩
    . rw [hC.eq_of_mem_range ha hhas hx hxH]
      exact ⟨hH.start_eq, hpd, hH.inChild_eq, hH.flag_eq⟩
    . exact absurd hH.inChild_eq (hC.hosts_of_mem_range hne ha hhas hx hxH).lent.2

theorem Houses.transfer {C' : Conf} {p k H : Nat} (h : C.Houses p k H) (hroot : C'.root = C.root)
    (hparent : C'.parent p = C.parent p) (hslot : C'.slot H = C.slot H)
    (hown : C.Has p H → C'.Has p H)
    (hgiven : p ≠ C.root → C.Has (C.parent p) H → C'.Has (C.parent p) H) : C'.Houses p k H := by
  rcases h with ⟨hstart, hend, hram, hflag, hloc, hholder⟩
  constructor
  . rw [hslot]
    exact hstart
  . rw [hslot]
    exact hend
  . exact hram
  . rw [hslot]
    exact hflag
  . rw [hslot]
    exact hloc
  . rw [hslot, hroot, hparent]
    rcases hholder with ⟨hH, hpd⟩ | ⟨hp, hH, hpd⟩
    . exact Or.inl ⟨hown hH, hpd⟩
    . exact Or.inr ⟨hp, hgiven hp hH, hpd⟩

theorem Hosts.transfer {C' : Conf} {p a a' B : Nat} (h : C.Hosts p a B)
    (hparent : C'.parent p = C.parent p) (hhas : C'.Has (C.parent p) B)
    (hslot : C'.slot B = C.slot B) (horigin : (C'.slot a').origin = (C.slot a).origin)
    (hend : (C'.slot a').endAddr ≤ (C.slot B).endAddr)
    (hnext : (C'.slot a').next = 0 → (C'.slot a').endAddr = (C.slot B).endAddr)
    (hread : (C'.slot a').read = (C.slot a).read) (hwrite : (C'.slot a').write = (C.slot a).write)
    (hexec : (C'.slot a').exec = (C.slot a).exec) : C'.Hosts p a' B := by
  constructor
  . rw [hparent]
    exact hhas
  . unfold Lent
    rw [hslot]
    exact h.lent
  . rw [hslot, horigin]
    exact h.start_eq
  . rw [hslot]
    exact hend
  . rw [hslot]
    exact hnext
  . rw [hread]
    exact h.read_eq
  . rw [hslot, hwrite]
    exact h.write_le
  . rw [hslot, hexec]
    exact h.exec_le

namespace Inv

/--
A block that lies below an accessible block is accessible.
-/
theorem accessible_of_overlap (hC : C.Inv) {p q a b x : Nat} (ha : C.Has p a) (hb : C.Has q b)
    (hna : (C.slot a).inChildLocation = 0) (hxa : x ∈ (C.slot a).range)
    (hxb : x ∈ (C.slot b).range) (hacc : (C.slot b).accessible = true)
    : (C.slot a).accessible = true := by
  have hS := hC.static
  have hdown : C.depth q ≤ C.depth p := by
    by_contra hlt
    rcases hS.nest.nested_of_level_lt hb ha (by exact Nat.lt_of_not_le hlt) hxb hxa with ⟨-, r, hr⟩
    exact hr.2 hna
  refine hS.nest.inherit (P := fun a => (C.slot a).accessible = true) ?_ ha hb hdown hxa hxb hacc
  intro p a B ha hp hB hlent hsub hP
  have hx := hS.mem_range_start ha
  have hhost := hS.hosts_of_mem_range hp ha hB hx (hsub hx)
  exact ((hC.coherent p a hp ha B hhost).mp hP).2

theorem flag_of_accessible (hC : C.Inv) {p a : Nat} (ha : C.Has p a)
    (hacc : (C.slot a).accessible = true) : (C.slot a).PDflag = false := by
  by_contra hflag
  simp only [Bool.not_eq_false] at hflag
  rw [hC.closed.flag p a ha hflag] at hacc
  exact absurd hacc (by simp)

theorem notMem_of_accessible (hC : C.Inv) {p a : Nat} (ha : C.Has p a)
    (hacc : (C.slot a).accessible = true) : (C.slot a).startAddr ∉ C.structures p := by
  intro hmem
  rw [hC.closed.own p a ha hmem] at hacc
  exact absurd hacc (by simp)

theorem pd_notMem_accessible (hC : C.Inv) {p q a x : Nat} (ha : C.Has p a)
    (hacc : (C.slot a).accessible = true) (hq : C.Live q) (hx : x ∈ pdRange q)
    : x ∉ (C.slot a).range := by
  intro hxa
  by_cases hroot : q = C.root
  . rw [hroot] at hx
    exact Set.disjoint_left.mp (hC.static.root_disjoint_block ha).1 hx hxa
  . rcases hC.static.pd_house q hq hroot with ⟨H, hH, hflag, hstart, hend, -, -⟩
    have hkind := hC.static.flag_kind _ H hH hflag
    have hxH : x ∈ (C.slot H).range := by
      rcases hx with ⟨h₁, h₂⟩
      rw [sizeofPDTable_eq] at h₂
      constructor <;> omega
    have := hC.accessible_of_overlap hH ha hkind.2.1 hxH hxa hacc
    rw [hC.closed.flag _ H hH hflag] at this
    exact absurd this (by simp)

theorem houses_accessible (hC : C.Inv) {p k H : Nat} (hp : C.Live p) (hk : k ∈ C.structures p)
    (h : C.Houses p k H) : (C.slot H).accessible = false := by
  rcases h.holder with ⟨hH, -⟩ | ⟨-, hH, hpd⟩
  . apply hC.closed.own p H hH
    rw [h.start_eq]
    exact hk
  . apply hC.closed.given _ H hH _ h.inChild_eq
    rw [hpd]
    exact hC.static.live_ne_zero hp

theorem structure_notMem_accessible (hC : C.Inv) {p q a k x : Nat} (ha : C.Has p a)
    (hacc : (C.slot a).accessible = true) (hq : C.Live q) (hk : k ∈ C.structures q)
    (hx : x ∈ structureRange k) : x ∉ (C.slot a).range := by
  intro hxa
  rcases hC.static.structure_house q k hq hk with ⟨-, hk₀⟩ | ⟨H, hH⟩
  . rw [hk₀] at hx
    exact Set.disjoint_left.mp (hC.static.root_disjoint_block ha).2 hx hxa
  . rcases hH.has with ⟨r, hr⟩
    have := hC.accessible_of_overlap hr ha hH.inChild_eq (Static.structureRange_subset hH hx) hxa hacc
    rw [hC.houses_accessible hq hk hH] at this
    exact absurd this (by simp)

end Inv

end Conf
