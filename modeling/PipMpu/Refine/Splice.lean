import PipMpu.Refine.Ensures

/-!
This module contains `collectFreeSlotsRec`, which takes the slots of a structure out of the list of the
free slots of a partition. The loop keeps the slot it has just taken out as the predecessor of the next
one, so it misses the second of two such slots that follow a slot of another structure.
-/

/--
No slot outside of `K` is followed by two slots of `K`.
-/
def NoRun (K : List Nat) : List Nat → Prop
  | x :: y :: z :: rest => ¬(x ∉ K ∧ y ∈ K ∧ z ∈ K) ∧ NoRun K (y :: z :: rest)
  | _ => True

theorem NoRun.tail {K : List Nat} {x : Nat} {l : List Nat} (h : NoRun K (x :: l)) : NoRun K l := by
  match l, h with
  | [], _ => trivial
  | [_], _ => trivial
  | _ :: _ :: _, h => exact h.2

/--
Two states that only differ in how the slots in `l` are linked to a list that starts at `t`.
-/
structure Respliced (t : Nat) (l : List Nat) (s s' : State) : Prop where
  cur : s'.currentPartition = s.currentPartition
  root : s'.constantRootPartM = s.constantRootPartM
  pd_other : ∀ p, p ≠ t → s'.pdtables.get p = s.pdtables.get p
  pd : ∃ first, s'.pdtables.get t = { s.pdtables.get t with firstfreeslot := first }
  entry : ∀ a, ∃ e, s'.blockEntries.get a = { s.blockEntries.get a with endAddr := e }
  entry_other : ∀ a, a ∉ l → s'.blockEntries.get a = s.blockEntries.get a
  sh1Entries : s'.sh1Entries = s.sh1Entries
  scEntries : s'.scEntries = s.scEntries
  nextPointers : s'.nextPointers = s.nextPointers

namespace Respliced

variable {t : Nat} {l : List Nat} {s s' s'' : State}

theorem refl (t : Nat) (l : List Nat) (s : State) : Respliced t l s s :=
  ⟨rfl, rfl, fun _ _ => rfl, ⟨_, rfl⟩, fun _ => ⟨_, rfl⟩, fun _ _ => rfl, rfl, rfl, rfl⟩

theorem trans (h : Respliced t l s s') (h' : Respliced t l s' s'') : Respliced t l s s'' where
  cur := h'.cur.trans h.cur
  root := h'.root.trans h.root
  pd_other p hp := (h'.pd_other p hp).trans (h.pd_other p hp)
  pd := by
    rcases h.pd with ⟨_, hpd⟩
    rcases h'.pd with ⟨first, hpd'⟩
    exact ⟨first, by rw [hpd', hpd]⟩
  entry a := by
    rcases h.entry a with ⟨_, hentry⟩
    rcases h'.entry a with ⟨e, hentry'⟩
    exact ⟨e, by rw [hentry', hentry]⟩
  entry_other a ha := (h'.entry_other a ha).trans (h.entry_other a ha)
  sh1Entries := h'.sh1Entries.trans h.sh1Entries
  scEntries := h'.scEntries.trans h.scEntries
  nextPointers := h'.nextPointers.trans h.nextPointers

theorem of_writeFirst (t v : Nat) (l : List Nat) (s : State)
    : Respliced t l s (writePDFirstFreeSlotPointer t v s).2 := by
  unfold writePDFirstFreeSlotPointer
  rw [modifyPDTable_run]
  refine ⟨rfl, rfl, ?_, ⟨v, ?_⟩, fun _ => ⟨_, rfl⟩, fun _ _ => rfl, rfl, rfl, rfl⟩
  . intro p hp
    exact Mem.get_set_of_ne _ _ (Ne.symm hp)
  . exact Mem.get_set_self _ _ _

theorem of_writeEnd {a : Nat} (ha : a ∈ l) (t v : Nat) (s : State)
    : Respliced t l s (writeBlockEndFromBlockEntryAddr a v s).2 := by
  unfold writeBlockEndFromBlockEntryAddr
  rw [modifyBlockEntry_run]
  refine ⟨rfl, rfl, fun _ _ => rfl, ⟨_, rfl⟩, ?_, ?_, rfl, rfl, rfl⟩
  . intro b
    by_cases hb : b = a
    . subst hb
      exact ⟨v, Mem.get_set_self _ _ _⟩
    . exact ⟨_, Mem.get_set_of_ne _ _ (Ne.symm hb)⟩
  . intro b hb
    exact Mem.get_set_of_ne _ _ fun heq => hb (heq ▸ ha)

theorem blockindex (h : Respliced t l s s') (a : Nat)
    : (s'.blockEntries.get a).blockindex = (s.blockEntries.get a).blockindex := by
  rcases h.entry a with ⟨e, hentry⟩
  rw [hentry]

end Respliced

theorem writeFirst_first (t v : Nat) (s : State)
    : ((writePDFirstFreeSlotPointer t v s).2.pdtables.get t).firstfreeslot = v := by
  unfold writePDFirstFreeSlotPointer
  rw [modifyPDTable_run, Mem.get_set_self]

theorem writeEnd_nextFree_self (a v : Nat) (s : State)
    : (writeBlockEndFromBlockEntryAddr a v s).2.nextFree a = v := by
  unfold writeBlockEndFromBlockEntryAddr State.nextFree
  rw [modifyBlockEntry_run, Mem.get_set_self]

theorem writeEnd_nextFree_of_ne {a b : Nat} (v : Nat) (s : State) (hb : b ≠ a)
    : (writeBlockEndFromBlockEntryAddr a v s).2.nextFree b = s.nextFree b := by
  unfold writeBlockEndFromBlockEntryAddr State.nextFree
  rw [modifyBlockEntry_run, Mem.get_set_of_ne _ _ (Ne.symm hb)]

/--
The index of a slot tells which structure it lies in.
-/
def IndexedIn (s : State) (k : Nat) (l : List Nat) : Prop :=
  ∀ a ∈ l, a - (s.blockEntries.get a).blockindex * sizeofBlockEntry = k ↔ a ∈ slotsOf k

/--
The list of the free slots of `t`, the slots in `l` are all that it may consist of.
-/
def FreeList (s : State) (t : Nat) (l : List Nat) : Prop :=
  Linked s.nextFree (s.pdtables.get t).firstfreeslot l

section

variable {t k : Nat} {l : List Nat}

/--
The loop behind a slot `x` of another structure, `done` are the slots before it.
-/
theorem collectFreeSlotsRecAux_behind {fuel pred curr x : Nat} {done rest : List Nat} {s : State}
    (hl : ∀ a ∈ done ++ x :: rest, a ∈ l) (hindex : IndexedIn s k l)
    (hfull : FreeList s t (done ++ x :: rest)) (hcurr : Linked s.nextFree curr rest)
    (hkeep : ∀ a ∈ done ++ [x], a ∉ slotsOf k) (hrun : NoRun (slotsOf k) (x :: rest))
    (hpred : ∀ a ∈ rest.head?, a ∈ slotsOf k → pred = x) (hfuel : rest.length < fuel)
    : Respliced t l s (collectFreeSlotsRecAux fuel pred curr t k s).2
        ∧ FreeList (collectFreeSlotsRecAux fuel pred curr t k s).2 t
          (done ++ x :: rest.filter (· ∉ slotsOf k)) := by
  induction fuel generalizing s pred curr x done rest with
  | zero => omega
  | succ fuel ih =>
    show LLI.Ensures (collectFreeSlotsRecAux (fuel + 1) pred curr t k) s fun _ s' =>
      Respliced t l s s' ∧ FreeList s' t (done ++ x :: rest.filter (· ∉ slotsOf k))
    unfold collectFreeSlotsRecAux
    rw [beqAddr_eq]
    cases rest with
    | nil =>
      refine .cond (fun _ => .pure ⟨Respliced.refl t l s, hfull⟩) fun hne => ?_
      exact absurd (decide_eq_true (show curr = nullAddr from hcurr)) hne
    | cons y rest =>
      rcases hcurr with ⟨rfl, hne, hrest⟩
      have hmem := hindex curr (hl curr (by simp))
      have hfuel : rest.length < fuel := Nat.lt_of_succ_lt_succ hfuel
      refine .cond (fun hzero => absurd (of_decide_eq_true hzero) hne) fun _ => ?_
      refine .bind rfl ?_
      refine .bind rfl ?_
      refine .bind rfl ?_
      rw [beqAddr_eq]
      refine .cond (fun hin => ?_) fun hout => ?_
      . have hin : curr ∈ slotsOf k := hmem.mp (of_decide_eq_true hin)
        have hpred : pred = x := hpred curr (by simp) hin
        subst hpred
        refine .bind rfl ?_
        rw [beqAddr_eq]
        refine .cond (fun hfirst => ?_) fun _ => ?_
        . -- the first free slot is not in the structure
          exfalso
          have hfirst : curr = (s.pdtables.get t).firstfreeslot := of_decide_eq_true hfirst
          cases done with
          | nil => exact hkeep pred (by simp) (hfull.1 ▸ hfirst ▸ hin)
          | cons d done => exact hkeep d (by simp) (hfull.1 ▸ hfirst ▸ hin)
        . have hx := hl pred (by simp)
          have hs₁ := Respliced.of_writeEnd hx t (s.nextFree curr) s
          have hself := writeEnd_nextFree_self pred (s.nextFree curr) s
          have hother := fun b => writeEnd_nextFree_of_ne (a := pred) (b := b) (s.nextFree curr) s
          refine .step (fun s₁ => Respliced t l s s₁ ∧ s₁.nextFree pred = s.nextFree curr ∧
            (∀ b, b ≠ pred → s₁.nextFree b = s.nextFree b) ∧
            (s₁.pdtables.get t).firstfreeslot = (s.pdtables.get t).firstfreeslot)
            ⟨hs₁, hself, hother, rfl⟩ ?_
          rintro - s₁ ⟨hs₁, hself, hother, hfirst⟩
          have hfull₁ : FreeList s₁ t (done ++ pred :: rest) := by
            unfold FreeList
            rw [hfirst]
            exact hfull.unlink hself hother
          have hnotMem : pred ∉ rest := by
            have := hfull₁.nodup
            rw [List.nodup_append] at this
            exact (List.nodup_cons.mp this.2.1).1
          rw [List.filter_cons_of_neg (by simpa using hin)]
          have hstep : Respliced t l s₁ (collectFreeSlotsRecAux fuel curr (s.nextFree curr) t k s₁).2 ∧
              FreeList (collectFreeSlotsRecAux fuel curr (s.nextFree curr) t k s₁).2 t
                (done ++ pred :: rest.filter (· ∉ slotsOf k)) := by
            apply ih (fun a ha => hl a (by grind))
              (fun a ha => by rw [hs₁.blockindex]; exact hindex a ha) hfull₁
              (hrest.update_of_notMem hnotMem hother) hkeep _ _ hfuel
            . -- the slot after the one taken out is not in the structure
              match rest, hrun with
              | [], _ => trivial
              | [_], _ => trivial
              | z :: w :: rest, hrun =>
                exact ⟨fun h => hrun.1 ⟨h.1, hin, h.2.1⟩, hrun.tail.tail⟩
            . match rest, hrun with
              | [], _ => simp
              | z :: rest, hrun =>
                intro a ha haz
                simp only [List.head?_cons, Option.mem_def, Option.some.injEq] at ha
                subst ha
                exact absurd ⟨hkeep pred (by simp), hin, haz⟩ hrun.1
          exact ⟨hs₁.trans hstep.1, hstep.2⟩
      . have hout : curr ∉ slotsOf k := fun hin => hout (decide_eq_true (hmem.mpr hin))
        rw [List.filter_cons_of_pos (by simpa using hout)]
        have hassoc : ∀ L : List Nat, done ++ x :: curr :: L = (done ++ [x]) ++ curr :: L := by simp
        rw [hassoc] at hfull hl ⊢
        apply ih hl hindex hfull hrest _ hrun.tail (fun _ _ _ => rfl) hfuel
        intro a ha
        rcases List.mem_append.mp ha with ha | ha
        . exact hkeep a ha
        . rw [List.mem_singleton.mp ha]
          exact hout

/--
The whole loop, which starts with the slots of the structure at the head of the list.
-/
theorem collectFreeSlotsRecAux_run {fuel pred curr : Nat} {rest : List Nat} {s : State}
    (hl : ∀ a ∈ rest, a ∈ l) (hindex : IndexedIn s k l)
    (hcurr : (s.pdtables.get t).firstfreeslot = curr) (hfull : FreeList s t rest)
    (hrun : NoRun (slotsOf k) rest) (hfuel : rest.length < fuel)
    : Respliced t l s (collectFreeSlotsRecAux fuel pred curr t k s).2
        ∧ FreeList (collectFreeSlotsRecAux fuel pred curr t k s).2 t
          (rest.filter (· ∉ slotsOf k)) := by
  induction fuel generalizing s pred curr rest with
  | zero => omega
  | succ fuel ih =>
    show LLI.Ensures (collectFreeSlotsRecAux (fuel + 1) pred curr t k) s fun _ s' =>
      Respliced t l s s' ∧ FreeList s' t (rest.filter (· ∉ slotsOf k))
    unfold collectFreeSlotsRecAux
    rw [beqAddr_eq]
    cases rest with
    | nil =>
      have hzero : curr = nullAddr := hcurr.symm.trans hfull
      refine .cond (fun _ => .pure ⟨Respliced.refl t l s, hfull⟩) fun hne => ?_
      exact absurd (decide_eq_true hzero) hne
    | cons y rest =>
      have hfull' := hfull
      rcases hfull' with ⟨hy, hne, hrest⟩
      have hycurr : curr = y := hcurr.symm.trans hy
      subst hycurr
      have hmem := hindex curr (hl curr (by simp))
      have hfuel : rest.length < fuel := Nat.lt_of_succ_lt_succ hfuel
      refine .cond (fun hzero => absurd (of_decide_eq_true hzero) hne) fun _ => ?_
      refine .bind rfl ?_
      refine .bind rfl ?_
      refine .bind rfl ?_
      rw [beqAddr_eq]
      refine .cond (fun hin => ?_) fun hout => ?_
      . have hin : curr ∈ slotsOf k := hmem.mp (of_decide_eq_true hin)
        refine .bind rfl ?_
        rw [beqAddr_eq]
        refine .cond (fun _ => ?_) fun hfirst => absurd (decide_eq_true hcurr.symm) hfirst
        have hs₁ := Respliced.of_writeFirst t (s.nextFree curr) l s
        have hfirst := writeFirst_first t (s.nextFree curr) s
        refine .step (fun s₁ => Respliced t l s s₁ ∧ s₁.nextFree = s.nextFree ∧
          (s₁.pdtables.get t).firstfreeslot = s.nextFree curr) ⟨hs₁, rfl, hfirst⟩ ?_
        rintro - s₁ ⟨hs₁, hnext, hfirst⟩
        rw [List.filter_cons_of_neg (by simpa using hin)]
        have hfull₁ : FreeList s₁ t rest := by
          unfold FreeList
          rw [hfirst, hnext]
          exact hrest
        have hstep : Respliced t l s₁ (collectFreeSlotsRecAux fuel curr (s.nextFree curr) t k s₁).2 ∧
            FreeList (collectFreeSlotsRecAux fuel curr (s.nextFree curr) t k s₁).2 t
              (rest.filter (· ∉ slotsOf k)) :=
          ih (fun a ha => hl a (by simp [ha]))
            (fun a ha => by rw [hs₁.blockindex]; exact hindex a ha) hfirst hfull₁ hrun.tail hfuel
        exact ⟨hs₁.trans hstep.1, hstep.2⟩
      . have hout : curr ∉ slotsOf k := fun hin => hout (decide_eq_true (hmem.mpr hin))
        rw [List.filter_cons_of_pos (by simpa using hout)]
        rw [← List.nil_append (curr :: rest.filter _)]
        apply collectFreeSlotsRecAux_behind hl hindex hfull hrest _ hrun (fun _ _ _ => rfl) hfuel
        intro a ha
        rw [List.mem_singleton.mp ha]
        exact hout

end
