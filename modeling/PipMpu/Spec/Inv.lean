import PipMpu.Spec.Conf

/-!
This module contains the invariant of the abstract view. It has three parts: `Static` does not look
at the accessible bits, `Closed` says which blocks are inaccessible for what lies in them, and
`Coherent` links the accessible bit of a block to the one of the block it was made of.
-/

namespace Conf

structure Static (C : Conf) : Prop where
  cur_live : C.Live C.cur
  root_live : C.Live C.root
  root_ne : C.root ≠ 0
  rootStructure_ne : C.rootStructure ≠ 0
  rootStructure_mem : C.rootStructure ∈ C.structures C.root
  root_disjoint : Disjoint (pdRange C.root) (structureRange C.rootStructure)
  root_pd : ∀ a, C.Has C.root a → Disjoint (pdRange C.root) (C.slot a).range
  root_structure : ∀ a, C.Has C.root a → Disjoint (structureRange C.rootStructure) (C.slot a).range
  depth_root : C.depth C.root = 0
  parent_live : ∀ p, C.Live p → p ≠ C.root → C.Live (C.parent p)
  depth_parent : ∀ p, C.Live p → p ≠ C.root → C.depth p = C.depth (C.parent p) + 1
  pd_house : ∀ p, C.Live p → p ≠ C.root → ∃ H, C.Has (C.parent p) H ∧ (C.slot H).PDflag = true ∧
    (C.slot H).startAddr = p ∧ p + 128 ≤ (C.slot H).endAddr ∧ ramStart ≤ p ∧
    (C.slot H).endAddr ≤ ramEnd
  flag_kind : ∀ p a, C.Has p a → (C.slot a).PDflag = true → (C.slot a).PDchild = 0 ∧
    (C.slot a).inChildLocation = 0 ∧ C.Live (C.slot a).startAddr ∧
    C.parent (C.slot a).startAddr = p ∧ (C.slot a).startAddr ≠ C.root
  structure_house : ∀ p k, C.Live p → k ∈ C.structures p →
    (p = C.root ∧ k = C.rootStructure) ∨ ∃ H, C.Houses p k H
  structures_nodup : ∀ p, C.Live p → (C.structures p).Nodup
  structures_length : ∀ p, C.Live p → (C.structures p).length ≤ 8
  child_kind : ∀ p a, C.Has p a → (C.slot a).PDchild ≠ 0 → C.Live (C.slot a).PDchild ∧
    C.parent (C.slot a).PDchild = p ∧ (C.slot a).PDchild ≠ C.root ∧
    ((C.slot a).inChildLocation = 0 → (C.slot a).startAddr ∈ C.structures (C.slot a).PDchild)
  location_kind : ∀ p a, C.Has p a → (C.slot a).inChildLocation ≠ 0 → (C.slot a).PDchild ≠ 0 ∧
    C.Has (C.slot a).PDchild (C.slot a).inChildLocation ∧
    (C.slot (C.slot a).inChildLocation).startAddr = (C.slot a).startAddr ∧
    (C.slot (C.slot a).inChildLocation).origin = (C.slot a).startAddr
  host : ∀ p a, p ≠ C.root → C.Has p a → ∃ B, C.Hosts p a B
  next_kind : ∀ p a, C.Has p a → (C.slot a).next ≠ 0 → C.Has p (C.slot a).next ∧
    (C.slot (C.slot a).next).startAddr = (C.slot a).endAddr ∧
    (C.slot (C.slot a).next).origin = (C.slot a).origin
  pred_kind : ∀ p a, C.Has p a → (C.slot a).startAddr ≠ (C.slot a).origin →
    ∃ b, C.Has p b ∧ (C.slot b).next = a
  origin_le : ∀ p a, C.Has p a → (C.slot a).origin ≤ (C.slot a).startAddr
  start_lt : ∀ p a, C.Has p a → (C.slot a).startAddr < (C.slot a).endAddr
  end_lt : ∀ p a, C.Has p a → (C.slot a).endAddr < wordSize
  disjoint : ∀ p a b, C.Has p a → C.Has p b → a ≠ b →
    (C.slot a).endAddr ≤ (C.slot b).startAddr ∨ (C.slot b).endAddr ≤ (C.slot a).startAddr
  free_nodup : ∀ p, C.Live p → (C.free p).Nodup
  mem_free : ∀ p a, C.Live p → (a ∈ C.free p ↔ C.Owns p a ∧ (C.slot a).present = false)
  free_empty : ∀ p a, C.Owns p a → (C.slot a).present = false → C.slot a = Slot.empty

/--
Blocks that hold kernel data are not accessible.
-/
structure Closed (C : Conf) : Prop where
  flag : ∀ p a, C.Has p a → (C.slot a).PDflag = true → (C.slot a).accessible = false
  given : ∀ p a, C.Has p a → (C.slot a).PDchild ≠ 0 → (C.slot a).inChildLocation = 0 →
    (C.slot a).accessible = false
  own : ∀ p a, C.Has p a → (C.slot a).startAddr ∈ C.structures p → (C.slot a).accessible = false

/--
The block `a` of `p` agrees with the block it was made of: that block is accessible exactly if `a`
still spans all of it and is accessible itself.
-/
def CoherentAt (C : Conf) (p a : Nat) : Prop :=
  ∀ B, C.Hosts p a B →
    ((C.slot B).accessible = true ↔ (C.slot a).Uncut ∧ (C.slot a).accessible = true)

def Coherent (C : Conf) : Prop :=
  ∀ p a, p ≠ C.root → C.Has p a → C.CoherentAt p a

structure Inv (C : Conf) : Prop where
  static : C.Static
  closed : C.Closed
  coherent : C.Coherent

end Conf
