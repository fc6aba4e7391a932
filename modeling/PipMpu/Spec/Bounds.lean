import PipMpu.Spec.Lemmas
import Mathlib.Data.Finset.Card
import Mathlib.Order.Interval.Finset.Nat
import Mathlib.Data.List.Perm.Subperm

/-!
This module contains the bounds that the fuel of the recursive functions relies on: the number of
slots of a partition, and the depth of the partition tree, whose descriptors share the RAM.
-/

namespace Conf

variable {C : Conf}

def slots (C : Conf) (p : Nat) : List Nat := (C.structures p).flatMap slotsOf

theorem mem_slots (hp : C.Live p) (a : Nat) : a ∈ C.slots p ↔ C.Owns p a := by
  unfold slots Owns
  simp [hp]

theorem slots_length_le {p : Nat} (hlen : (C.structures p).length ≤ 8)
    : (C.slots p).length ≤ 64 := by
  have : ∀ l : List Nat, (l.flatMap slotsOf).length = 8 * l.length := by
    intro l
    induction l with
    | nil => rfl
    | cons k rest ih =>
      rw [List.flatMap_cons, List.length_append, ih, slotsOf_length, List.length_cons]
      omega
  unfold slots
  rw [this]
  omega

namespace Static

/--
A list of different slots of one partition is short.
-/
theorem length_le_of_owns (hC : C.Static) {p : Nat} (hp : C.Live p) {l : List Nat}
    (hnodup : l.Nodup) (hl : ∀ a ∈ l, C.Owns p a) : l.length ≤ 64 := by
  have hsub : l.Subperm (C.slots p) := by
    apply List.Nodup.subperm hnodup
    intro a ha
    exact (mem_slots hp a).mpr (hl a ha)
  exact hsub.length_le.trans (slots_length_le (hC.structures_length p hp))

/--
Every partition descriptor below the root takes up 128 bytes of its own.
-/
theorem pd_apart (hC : C.Static) {p q : Nat} (hp : C.Live p) (hq : C.Live q) (hpr : p ≠ C.root)
    (hqr : q ≠ C.root) (hne : p ≠ q) : p + 128 ≤ q ∨ q + 128 ≤ p := by
  rcases hC.pd_house p hp hpr with ⟨H, hH, hflag, hstart, hend, -, -⟩
  rcases hC.pd_house q hq hqr with ⟨H', hH', hflag', hstart', hend', -, -⟩
  by_contra hcon
  have hx : max p q ∈ (C.slot H).range := by
    constructor <;> omega
  have hx' : max p q ∈ (C.slot H').range := by
    constructor <;> omega
  have := (hC.eq_of_not_lent hH hH' (hC.flag_kind _ H hH hflag).2.1
    (hC.flag_kind _ H' hH' hflag').2.1 hx hx').2
  rw [this, hstart'] at hstart
  exact hne hstart.symm

theorem ancestor_live (hC : C.Static) {p : Nat} (hp : C.Live p) (i : Nat) (hi : i ≤ C.depth p)
    : C.Live (C.parent^[i] p) ∧ C.depth (C.parent^[i] p) + i = C.depth p := by
  induction i with
  | zero => exact ⟨hp, rfl⟩
  | succ i ih =>
    rcases ih (by omega) with ⟨hlive, hdepth⟩
    have hne : C.parent^[i] p ≠ C.root := by
      intro heq
      rw [heq, hC.depth_root] at hdepth
      omega
    rw [Function.iterate_succ_apply']
    have := hC.depth_parent _ hlive hne
    exact ⟨hC.parent_live _ hlive hne, by omega⟩

theorem depth_le (hC : C.Static) {p : Nat} (hp : C.Live p) : C.depth p ≤ 512 := by
  have hcard : (Finset.range (C.depth p)).card ≤ (Finset.Ico (ramStart / 128) (ramEnd / 128)).card := by
    apply Finset.card_le_card_of_injOn (fun i => C.parent^[i] p / 128)
    . intro i hi
      have hi := Finset.mem_range.mp (Finset.mem_coe.mp hi)
      rcases hC.ancestor_live hp i (by omega) with ⟨hlive, hdepth⟩
      have hne : C.parent^[i] p ≠ C.root := by
        intro heq
        rw [heq, hC.depth_root] at hdepth
        omega
      rcases hC.pd_house _ hlive hne with ⟨_, _, _, _, hend, hram, hram'⟩
      simp only [Finset.coe_Ico, Set.mem_Ico]
      unfold ramStart ramEnd at *
      omega
    . intro i hi j hj hij
      have hi := Finset.mem_range.mp (Finset.mem_coe.mp hi)
      have hj := Finset.mem_range.mp (Finset.mem_coe.mp hj)
      rcases hC.ancestor_live hp i (by omega) with ⟨hlive, hdepth⟩
      rcases hC.ancestor_live hp j (by omega) with ⟨hlive', hdepth'⟩
      have hne : C.parent^[i] p ≠ C.root := by
        intro heq
        rw [heq, hC.depth_root] at hdepth
        omega
      have hne' : C.parent^[j] p ≠ C.root := by
        intro heq
        rw [heq, hC.depth_root] at hdepth'
        omega
      by_contra hcon
      have hdiff : C.parent^[i] p ≠ C.parent^[j] p := by
        intro heq
        rw [heq] at hdepth
        omega
      have := hC.pd_apart hlive hlive' hne hne' hdiff
      simp only at hij
      omega
  rw [Finset.card_range, Nat.card_Ico] at hcard
  exact hcard

end Static

end Conf
