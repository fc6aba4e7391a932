import PipMpu.Props.Removal
import PipMpu.Refine.Chains

/-!
This module contains what the subblocks of a block that was shared form over whole runs: a finite chain that tiles
the block, to which each subblock belongs in exactly one way.
-/

namespace State

/--
The first subblock of a block of `p`.
-/
def IsFirst (s : State) (p x : Nat) : Prop := s.HasBlock p x ∧ (s.slotOf x).origin = (s.slotOf x).startAddr

/--
The blocks of the list are linked from `x` on, and nothing follows the last one. They have one origin and the same
rights, and they follow each other over exactly the addresses from `lo` to before `hi`.
-/
structure TilesShared (s : State) (p x lo hi : Nat) (l : List Nat) : Prop where
  linked : Linked (fun a => (s.slotOf a).next) x l
  nodup : l.Nodup
  has : ∀ a ∈ l, s.HasBlock p a
  origin : ∀ a ∈ l, (s.slotOf a).origin = (s.slotOf x).origin
  rights : ∀ a ∈ l, (s.slotOf a).SameRights (s.slotOf x)
  tiling : Tiling (fun a => (s.slotOf a).startAddr) (fun a => (s.slotOf a).endAddr) lo hi l
  cover : ∀ y, (∃ a ∈ l, y ∈ (s.slotOf a).range) ↔ lo ≤ y ∧ y < hi

end State

namespace Sim

variable {s : State} {C : Conf} {p x lo hi : Nat} {l : List Nat}

theorem isFirst_iff (h : Sim s C) (hp : C.Live p)
    : s.IsFirst p x ↔ C.Has p x ∧ (C.slot x).origin = (C.slot x).startAddr := by
  unfold State.IsFirst
  rw [h.hasBlock_iff hp]
  apply and_congr_right
  intro hx
  rw [h.slotOf_eq hx.1]

theorem tilesShared (h : Sim s C) (hC : C.Static) (hx : C.Has p x) (hl : C.CutChain p x lo hi l)
    : s.TilesShared p x lo hi l := by
  have hslot : ∀ a ∈ l, s.slotOf a = C.slot a := fun a ha => h.slotOf_eq (hl.has a ha).1
  have hle : ∀ a ∈ l, (C.slot a).startAddr ≤ (C.slot a).endAddr :=
    fun a ha => Nat.le_of_lt (hC.start_lt p a (hl.has a ha))
  constructor
  . exact hl.linked.congr fun a ha => by rw [hslot a ha]
  . exact hl.linked.nodup
  . exact fun a ha => (h.hasBlock_iff hx.live).mpr (hl.has a ha)
  . intro a ha
    rw [hslot a ha, h.slotOf_eq hx.1]
    exact hl.origin a ha
  . intro a ha
    rw [hslot a ha, h.slotOf_eq hx.1]
    exact hl.rights a ha
  . apply hl.tiling.congr
    intro a ha
    rw [hslot a ha]
    exact ⟨rfl, rfl⟩
  . intro y
    rw [← hl.tiling.mem_iff hle y]
    constructor
    . rintro ⟨a, ha, hy⟩
      rw [hslot a ha] at hy
      exact ⟨a, ha, hy⟩
    . rintro ⟨a, ha, hy⟩
      refine ⟨a, ha, ?_⟩
      rw [hslot a ha]
      exact hy

end Sim

/--
In every run of the services the subblocks from each first one on tile what was shared under this entry, and each
block of a child is in the chain of exactly one first subblock.
-/
theorem tilesShared_of_reachable {s : State} {ledger : Ledger}
    (h : (ServiceCall.recorded.restrict fun x => x.1.Whole).Reachable (s, ledger)) {p : Nat}
    (hp : s.Partition p) (hroot : p ≠ s.constantRootPartM)
    : (∀ x, s.IsFirst p x → ∃ l, s.TilesShared p x (ledger x).1 (ledger x).2 l)
        ∧ ∀ a, s.HasBlock p a → ∃ x l, s.IsFirst p x ∧ s.TilesShared p x (ledger x).1 (ledger x).2 l ∧ a ∈ l
          ∧ ∀ x' l', s.IsFirst p x' → Linked (fun a => (s.slotOf a).next) x' l' → a ∈ l' → x' = x ∧ l' = l := by
  rcases ServiceCall.recordedView_of_reachable h with ⟨C, hsim, hC, hE, hL⟩
  have hS := hC.static
  have hlive := hsim.live_of_partition hS hp
  rw [hsim.root] at hroot
  have htiles : ∀ x, s.IsFirst p x → ∃ l, C.CutChain p x (ledger x).1 (ledger x).2 l
      ∧ s.TilesShared p x (ledger x).1 (ledger x).2 l := by
    intro x hx
    rcases (hsim.isFirst_iff hlive).mp hx with ⟨hx, hfirst⟩
    rcases hL.chain hE hS hroot hx hfirst with ⟨l, hl⟩
    exact ⟨l, hl, hsim.tilesShared hS hx hl⟩
  constructor
  . intro x hx
    rcases htiles x hx with ⟨l, -, hl⟩
    exact ⟨l, hl⟩
  . intro a ha
    have ha := (hsim.hasBlock_iff hlive).mp ha
    rcases hS.reached ha with ⟨x, hx, hfirst, horigin, hreach⟩
    have hxfirst := (hsim.isFirst_iff hlive).mpr ⟨hx, hfirst⟩
    rcases htiles x hxfirst with ⟨l, hchain, hl⟩
    refine ⟨x, l, hxfirst, hl, (hchain.linked.mem_iff_reach a).mpr hreach, ?_⟩
    intro x' l' hx' hl' ha'
    -- both chains have the origin of the block
    rcases htiles x' hx' with ⟨l'', hchain', htiles'⟩
    have hll := hl'.unique htiles'.linked
    rcases (hsim.isFirst_iff hlive).mp hx' with ⟨hx', hfirst'⟩
    have horigin' := hchain'.origin a (hll ▸ ha')
    have hstart : (C.slot x').startAddr = (C.slot x).startAddr := by
      rw [← hfirst, ← hfirst', horigin, horigin']
    have heq := hS.eq_of_start_eq hx' hx hstart
    subst heq
    exact ⟨rfl, hl'.unique hl.linked⟩

/--
The child has cut the block of the root twice.
-/
theorem tilesShared_threeLevels
    : ∃ ledger : Ledger, ∃ l, threeLevels.TilesShared 0x20008000 0x20009000 (ledger 0x20009000).1
        (ledger 0x20009000).2 l := by
  rcases ServiceCall.exists_ledger threeLevels_reachable with ⟨ledger, h⟩
  have hpath : threeLevels.follow threeLevels.constantRootPartM [0x2000F111] = some 0x20008000 := by
    decide +kernel
  refine ⟨ledger, (tilesShared_of_reachable h (State.partition_of_follow .root hpath) ?_).1 0x20009000 ⟨?_, ?_⟩⟩
  . decide +kernel
  . apply State.hasBlock_of_first <;> decide +kernel
  . decide +kernel
