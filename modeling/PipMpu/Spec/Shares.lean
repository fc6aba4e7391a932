import PipMpu.Spec.Chains

/-!
This module contains that a block that is shared stays as it is, and what a ledger of the shared blocks says about
them.
-/

namespace Conf

variable {C C' C'' : Conf}

/--
Each shared block was already shared, with the same bounds and under the same entry.
-/
def KeepsShares (C C' : Conf) : Prop :=
  ∀ q B, C'.Has q B → (C'.slot B).inChildLocation ≠ 0 → C.Has q B
    ∧ (C'.slot B).inChildLocation = (C.slot B).inChildLocation
    ∧ (C'.slot B).startAddr = (C.slot B).startAddr ∧ (C'.slot B).endAddr = (C.slot B).endAddr

namespace KeepsShares

theorem refl (C : Conf) : C.KeepsShares C := fun _ _ hB _ => ⟨hB, rfl, rfl, rfl⟩

theorem trans (h : C.KeepsShares C') (h' : C'.KeepsShares C'') : C.KeepsShares C'' := by
  intro q B hB hloc
  rcases h' q B hB hloc with ⟨hB', hloc', hstart', hend'⟩
  rw [hloc'] at hloc
  rcases h q B hB' hloc with ⟨hB, hloc, hstart, hend⟩
  exact ⟨hB, hloc'.trans hloc, hstart'.trans hstart, hend'.trans hend⟩

theorem of_tame (h : C.Tame C') : C.KeepsShares C' := by
  intro q B hB hloc
  rcases h q B hB with ⟨hB, hkeeps⟩
  exact ⟨hB, (hkeeps.shared hloc).1, hkeeps.startAddr, hkeeps.endAddr⟩

theorem split (hC : C.Static) {p b f cutAddr : Nat} {rest : List Nat} (h : C.CanSplit p b f cutAddr rest)
    : C.KeepsShares (C.split p b f cutAddr rest) := by
  intro q B hB hloc
  have hBf : B ≠ f := by
    rintro rfl
    rw [CanSplit.slot_new] at hloc
    exact hloc (h.inChild_eq hC)
  have hBb : B ≠ b := by
    rintro rfl
    rw [CanSplit.slot_cut (h.ne hC)] at hloc
    exact hloc (h.inChild_eq hC)
  rw [CanSplit.slot_other hBb hBf]
  exact ⟨((h.has_iff hC q B).mp hB).resolve_right fun heq => hBf heq.2, rfl, rfl, rfl⟩

theorem join (hC : C.Static) {p b₁ b₂ : Nat} (h : C.CanJoin p b₁ b₂) : C.KeepsShares (C.join p b₁ b₂) := by
  intro q B hB hloc
  rcases (h.has_iff hC q B).mp hB with ⟨hB, hBb₂⟩
  have hBb₁ : B ≠ b₁ := by
    rintro rfl
    rw [CanJoin.slot_merged (h.ne hC)] at hloc
    exact hloc (h.inChild_eq hC).1
  rw [CanJoin.slot_other hBb₁ hBb₂]
  exact ⟨hB, rfl, rfl, rfl⟩

theorem cut (hC : C.Static) {p b f cutAddr : Nat} {rest : List Nat} (h : C.CanSplit p b f cutAddr rest)
    : C.KeepsShares (C.cut p b f cutAddr rest) :=
  (of_tame (.setAccessible C _ false)).trans (split (hC.walkFrom p b false) (h.walkFrom false))

theorem merge (hC : C.Static) {p b₁ b₂ : Nat} (h : C.CanJoin p b₁ b₂) : C.KeepsShares (C.merge p b₁ b₂) :=
  (join hC h).trans (of_tame (.setAccessible _ _ true))

theorem move (hC : C.Static) (h : C.Move C') : C.KeepsShares C' := by
  cases h with
  | permute _ => exact of_tame (.permute C _ _)
  | merge h _ => exact merge hC h
  | access _ => exact of_tame (.access C _ _ _)
  | dropPartition _ => exact of_tame (.dropPartition C _)
  | unlink h => exact of_tame (.unlink hC h)
  | unshare h => exact of_tame (.unshare hC h)

theorem moves (hC : C.Inv) (h : Relation.ReflTransGen Move C C') : C.KeepsShares C' := by
  induction h with
  | refl => exact refl C
  | tail hmoves hmove ih => exact ih.trans (move (hC.steps (Move.steps hmoves)).static hmove)

end KeepsShares

/--
The ledger has the bounds of each block that is shared, at the entry of the child it was shared under.
-/
def Recorded (C : Conf) (ledger : Nat → Nat × Nat) : Prop :=
  ∀ q B, C.Has q B → (C.slot B).inChildLocation ≠ 0 →
    ledger (C.slot B).inChildLocation = ((C.slot B).startAddr, (C.slot B).endAddr)

theorem OnlyRoot.recorded (h : C.OnlyRoot) (ledger : Nat → Nat × Nat) : C.Recorded ledger :=
  fun _ B hB hloc => absurd (h.plain B (h.has_root hB)).2.2.1 hloc

namespace Recorded

variable {ledger : Nat → Nat × Nat}

theorem keeps (hC : C.Recorded ledger) (h : C.KeepsShares C') : C'.Recorded ledger := by
  intro q B hB hloc
  rcases h q B hB hloc with ⟨hB, heq, hstart, hend⟩
  rw [heq] at hloc ⊢
  rw [hstart, hend]
  exact hC q B hB hloc

/--
Sharing a block is recorded at the entry that was free.
-/
theorem share (hC : C.Recorded ledger) (hS : C.Static) {p b c f : Nat} {rest : List Nat} {r w x : Bool}
    (h : C.CanShare p b c f rest r w x)
    : (C.share b c f rest r w x).Recorded
        (Function.update ledger f ((C.slot b).startAddr, (C.slot b).endAddr)) := by
  intro q B hB hloc
  have hBf : B ≠ f := by
    rintro rfl
    rw [CanShare.slot_new] at hloc
    exact hloc rfl
  have hB := ((h.has_iff hS q B).mp hB).resolve_right fun heq => hBf heq.2
  by_cases hBb : B = b
  . rw [hBb, CanShare.slot_self (h.ne hS)]
    exact Function.update_self ..
  . rw [CanShare.slot_other hBb hBf] at hloc ⊢
    have hne : (C.slot B).inChildLocation ≠ f := by
      intro heq
      have hl := (hS.location_kind q B hB hloc).2.1
      rw [heq] at hl
      exact h.not_has hS _ hl
    rw [Function.update_of_ne hne]
    exact hC q B hB hloc

/--
A chain goes from its first block over what the ledger has for it.
-/
theorem chain (hL : C.Recorded ledger) (hE : C.Even) (hC : C.Static) {p x : Nat} (hp : p ≠ C.root)
    (hx : C.Has p x) (hfirst : (C.slot x).origin = (C.slot x).startAddr)
    : ∃ l, C.CutChain p x (ledger x).1 (ledger x).2 l := by
  rcases hC.host p x hp hx with ⟨B, hB⟩
  have hloc := hC.location_of_hosts hx hB hfirst
  rcases hE.chain hC hp hx hB with ⟨l, hl⟩
  refine ⟨l, ?_⟩
  have hrec := hL _ B hB.has hB.lent.2
  rw [hloc] at hrec
  rw [hrec, hB.start_eq, hfirst]
  exact hl

end Recorded

end Conf
