import PipMpu.Core.Internal
import PipMpu.Props.Accounting
import PipMpu.Util.Linked
import Mathlib.Data.List.Chain

/-!
This module contains what `collectFreeSlotsRec` leaves of the free slots of a partition: it unlinks the
slots of the collected structure one after the other, and always takes the slot in front of the current one
for its predecessor, even if that one has just been unlinked.
-/

/-
What is left of a list
-/

/--
What is left of a list behind a cell that is still linked, or, if `alive` is false, that is not.
-/
def unlinked (collected : Nat → Bool) : Nat → Bool → List Nat → List Nat
  | 0, _, l => l
  | _ + 1, _, [] => []
  | timeout + 1, alive, cell :: rest =>
    if alive && collected cell then
      unlinked collected timeout false rest
    else
      cell :: unlinked collected timeout true rest

/--
What is left of a whole list, whose first cells are unlinked without a predecessor.
-/
def unlinkedFirst (collected : Nat → Bool) : Nat → List Nat → List Nat
  | 0, l => l
  | _ + 1, [] => []
  | timeout + 1, cell :: rest =>
    if collected cell then
      unlinkedFirst collected timeout rest
    else
      cell :: unlinked collected timeout true rest

/--
No two cells in a row are collected.
-/
def Separated (collected : Nat → Bool) (l : List Nat) : Prop :=
  l.IsChain fun a b => ¬(collected a = true ∧ collected b = true)

/--
Behind the cells at the head, no two cells in a row are collected, and none beyond the first `timeout` ones.
-/
def Collectable (collected : Nat → Bool) (timeout : Nat) (l : List Nat) : Prop :=
  Separated collected ((l.take timeout).dropWhile collected)
    ∧ ∀ cell ∈ l.drop timeout, collected cell = false

section Lists

variable {collected : Nat → Bool} {l : List Nat}

theorem filter_eq_self_iff
    : l = l.filter (fun cell => !collected cell) ↔ ∀ cell ∈ l, collected cell = false := by
  rw [eq_comm, List.filter_eq_self]
  simp only [Bool.not_eq_true']

theorem cons_eq_filter_iff {cell : Nat} {rest : List Nat} (collected : Nat → Bool) (left : List Nat)
    (hcell : cell ∉ rest)
    : cell :: left = (cell :: rest).filter (fun cell => !collected cell)
        ↔
      collected cell = false ∧ left = rest.filter (fun cell => !collected cell) := by
  cases hcollected : collected cell with
  | true =>
    rw [List.filter_cons_of_neg (by simp [hcollected])]
    apply iff_of_false
    . intro heq
      have hmem : cell ∈ rest.filter fun cell => !collected cell := by
        rw [← heq]
        exact List.mem_cons_self ..
      exact hcell (List.mem_filter.mp hmem).1
    . intro h
      cases h.1
  | false =>
    rw [List.filter_cons_of_pos (by simp [hcollected])]
    simp

theorem separated_cons_iff {cell : Nat} {rest : List Nat}
    : Separated collected (cell :: rest)
        ↔
      (collected cell = true → ∀ next ∈ rest.head?, collected next = false)
        ∧ Separated collected rest := by
  unfold Separated
  rw [List.isChain_cons]
  apply and_congr _ Iff.rfl
  constructor
  . intro h hcell next hnext
    exact eq_false_of_ne_true fun heq => h next hnext ⟨hcell, heq⟩
  . intro h next hnext hboth
    rw [h hboth.1 next hnext] at hboth
    cases hboth.2

/--
Whether the first cell is among the first `timeout` ones or beyond them, it is not collected.
-/
theorem head_take_iff {timeout : Nat} {p : Prop}
    : (∀ next ∈ l.head?, collected next = false) ∧ p ∧ (∀ cell ∈ l.drop timeout, collected cell = false)
        ↔
      (∀ next ∈ (l.take timeout).head?, collected next = false) ∧ p
        ∧ (∀ cell ∈ l.drop timeout, collected cell = false) := by
  cases timeout with
  | zero =>
    simp only [List.take_zero, List.drop_zero, List.head?_nil]
    constructor
    . exact fun h => ⟨fun _ => nofun, h.2⟩
    . exact fun h => ⟨fun next hnext => h.2.2 next (List.mem_of_mem_head? hnext), h.2⟩
  | succ timeout =>
    cases l with
    | nil => simp
    | cons cell rest => simp

/--
The filter is left if no two cells in a row are collected. Behind an unlinked cell, the next one must not be
collected either.
-/
theorem unlinked_eq_filter_iff (timeout : Nat) (hnodup : l.Nodup)
    : (unlinked collected timeout true l = l.filter (fun cell => !collected cell)
        ↔ Separated collected (l.take timeout) ∧ ∀ cell ∈ l.drop timeout, collected cell = false)
      ∧ (unlinked collected timeout false l = l.filter (fun cell => !collected cell)
        ↔ (∀ next ∈ l.head?, collected next = false)
          ∧ Separated collected (l.take timeout) ∧ ∀ cell ∈ l.drop timeout, collected cell = false) := by
  induction timeout generalizing l with
  | zero =>
    unfold unlinked
    rw [filter_eq_self_iff]
    simp only [List.take_zero, List.drop_zero]
    constructor
    . simp [Separated]
    . constructor
      . intro h
        exact ⟨fun next hnext => h next (List.mem_of_mem_head? hnext), List.isChain_nil, h⟩
      . exact fun h => h.2.2
  | succ timeout ih =>
    cases l with
    | nil => simp [unlinked, Separated]
    | cons cell rest =>
      rcases List.nodup_cons.mp hnodup with ⟨hcell, hrest⟩
      have ih := ih hrest
      have hkeep := cons_eq_filter_iff collected (unlinked collected timeout true rest) hcell
      rw [ih.1] at hkeep
      simp only [List.take_succ_cons, List.drop_succ_cons, separated_cons_iff]
      cases hcollected : collected cell with
      | true =>
        rw [hcollected] at hkeep
        constructor
        . rw [List.filter_cons_of_neg (by simp [hcollected])]
          unfold unlinked
          simp only [hcollected, Bool.true_and, if_true, true_imp_iff]
          rw [ih.2, head_take_iff, and_assoc]
        . unfold unlinked
          simp only [Bool.false_and, Bool.false_eq_true, if_false]
          rw [hkeep]
          simp [hcollected]
      | false =>
        rw [hcollected] at hkeep
        unfold unlinked
        simp only [hcollected, Bool.and_false, Bool.false_eq_true, if_false]
        rw [hkeep]
        simp [hcollected]

theorem unlinkedFirst_eq_filter_iff (timeout : Nat) (hnodup : l.Nodup)
    : unlinkedFirst collected timeout l = l.filter (fun cell => !collected cell)
        ↔ Collectable collected timeout l := by
  unfold Collectable
  induction timeout generalizing l with
  | zero =>
    unfold unlinkedFirst
    rw [filter_eq_self_iff]
    simp [Separated]
  | succ timeout ih =>
    cases l with
    | nil => simp [unlinkedFirst, Separated]
    | cons cell rest =>
      rcases List.nodup_cons.mp hnodup with ⟨hcell, hrest⟩
      unfold unlinkedFirst
      rw [List.take_succ_cons, List.drop_succ_cons]
      cases hcollected : collected cell with
      | true =>
        rw [List.filter_cons_of_neg (by simp [hcollected]), List.dropWhile_cons_of_pos hcollected]
        exact ih hrest
      | false =>
        have hkeep := cons_eq_filter_iff collected (unlinked collected timeout true rest) hcell
        rw [List.dropWhile_cons_of_neg (by simp [hcollected]), separated_cons_iff]
        simp only [Bool.false_eq_true, if_false]
        rw [hkeep, (unlinked_eq_filter_iff timeout hrest).1]
        simp [hcollected]

end Lists

/-
The run on the state
-/

def State.endOf (s : State) (entry : Nat) : Nat := (s.blockEntries.get entry).endAddr

def State.firstFreeSlot (s : State) (pd : Nat) : Nat := (s.pdtables.get pd).firstfreeslot

/--
The slot lies in the kernel structure.
-/
def State.inStructure (s : State) (structureAddr entry : Nat) : Bool :=
  entry - (s.blockEntries.get entry).blockindex * sizeofBlockEntry == structureAddr

/--
From `s` to `s'`, at most the first free slot of the partition and the links of the given slots change.
-/
structure OnlyRelinked (pd : Nat) (slots : List Nat) (s s' : State) : Prop where
  state : s' = { s with pdtables := s'.pdtables, blockEntries := s'.blockEntries }
  tables : ∀ p ≠ pd, s'.pdtables.get p = s.pdtables.get p
  table : s'.pdtables.get pd = { s.pdtables.get pd with firstfreeslot := s'.firstFreeSlot pd }
  entries : ∀ entry ∉ slots, s'.blockEntries.get entry = s.blockEntries.get entry
  entry : ∀ entry, s'.blockEntries.get entry = { s.blockEntries.get entry with endAddr := s'.endOf entry }

namespace OnlyRelinked

variable {pd : Nat} {slots : List Nat} {s s' s'' : State}

theorem refl : OnlyRelinked pd slots s s where
  state := rfl
  tables _ _ := rfl
  table := rfl
  entries _ _ := rfl
  entry _ := rfl

theorem trans (h : OnlyRelinked pd slots s s') (h' : OnlyRelinked pd slots s' s'')
    : OnlyRelinked pd slots s s'' where
  state := by
    rw [h'.state, h.state]
  tables p hp := (h'.tables p hp).trans (h.tables p hp)
  table := by
    rw [h'.table, h.table]
  entries entry hentry := (h'.entries entry hentry).trans (h.entries entry hentry)
  entry entry := by
    rw [h'.entry, h.entry]

end OnlyRelinked

section Run

variable {pd structureAddr : Nat} {s : State} {slots l : List Nat}

/--
The state after the current slot was looked at.
-/
def visitSlot (pred curr pd structureAddr : Nat) (s : State) : State :=
  if s.inStructure structureAddr curr then
    if curr = s.firstFreeSlot pd then
      (writePDFirstFreeSlotPointer pd (s.endOf curr) s).2
    else
      (writeBlockEndFromBlockEntryAddr pred (s.endOf curr) s).2
  else
    s

theorem collectFreeSlotsRecAux_null (timeout pred : Nat)
    : collectFreeSlotsRecAux timeout pred 0 pd structureAddr s = ((), s) := by
  cases timeout <;> rfl

theorem collectFreeSlotsRecAux_succ {timeout pred curr : Nat} (hcurr : curr ≠ 0)
    : collectFreeSlotsRecAux (timeout + 1) pred curr pd structureAddr s
        =
      collectFreeSlotsRecAux timeout curr (s.endOf curr) pd structureAddr
        (visitSlot pred curr pd structureAddr s) := by
  have hnull : ¬beqAddr curr nullAddr = true := by simp [beqAddr, nullAddr, hcurr]
  unfold visitSlot State.inStructure State.firstFreeSlot State.endOf
  rw [collectFreeSlotsRecAux, if_neg hnull]
  simp only [LLI.bind_run, LLI.ite_run, LLI.pure_run, readBlockIndexFromBlockEntryAddr,
    readBlockEndFromBlockEntryAddr, readBlockField, LLI.gets_run,
    getKernelStructureStartAddr, readPDFirstFreeSlotPointer, readPDField, beqAddr, beq_iff_eq]
  split
  . split
    . rfl
    . rfl
  . rfl

/--
A visit of a slot of a list writes at most the first free slot and the end of its predecessor in the list.
-/
theorem visitSlot_onlyRelinked {pred curr : Nat} (structureAddr : Nat)
    (hpred : pred ∈ slots ∨ curr = s.firstFreeSlot pd)
    : OnlyRelinked pd slots s (visitSlot pred curr pd structureAddr s) := by
  unfold visitSlot
  split
  . split
    . exact
        {
          state := rfl
          tables := fun p hp => Mem.get_set_of_ne _ _ (Ne.symm hp)
          table := by
            show (Mem.set _ _ _).get pd = _
            unfold State.firstFreeSlot writePDFirstFreeSlotPointer modifyPDTable
            simp only [LLI.modify_run, Mem.get_set_self]
          entries := fun _ _ => rfl
          entry := fun _ => rfl
        }
    . next hfirst =>
      have hpred := hpred.resolve_right hfirst
      exact
        {
          state := rfl
          tables := fun _ _ => rfl
          table := rfl
          entries := fun entry hentry => by
            apply Mem.get_set_of_ne
            intro heq
            exact hentry (heq ▸ hpred)
          entry := fun entry => by
            show (Mem.set _ _ _).get entry = _
            unfold State.endOf writeBlockEndFromBlockEntryAddr modifyBlockEntry
            simp only [LLI.modify_run, Mem.get_set]
            split
            . next heq => rw [heq]
            . rfl
        }
  . exact .refl

theorem visitSlot_inStructure {pred curr : Nat} (addr entry : Nat)
    : (visitSlot pred curr pd structureAddr s).inStructure addr entry = s.inStructure addr entry := by
  unfold visitSlot
  split
  . split
    . rfl
    . unfold State.inStructure writeBlockEndFromBlockEntryAddr modifyBlockEntry
      simp only [LLI.modify_run, Mem.get_set]
      split
      . next heq => rw [heq]
      . rfl
  . rfl

theorem visitSlot_kept {pred curr : Nat} (h : s.inStructure structureAddr curr = false)
    : visitSlot pred curr pd structureAddr s = s := by
  unfold visitSlot
  rw [h]
  rfl

/--
The current slot is the first one: it is unlinked from the descriptor.
-/
theorem visitSlot_first {curr : Nat} (pred : Nat) (h : s.inStructure structureAddr curr = true)
    (hfirst : curr = s.firstFreeSlot pd)
    : (visitSlot pred curr pd structureAddr s).endOf = s.endOf
        ∧ (visitSlot pred curr pd structureAddr s).firstFreeSlot pd = s.endOf curr := by
  unfold visitSlot
  rw [if_pos h, if_pos hfirst]
  constructor
  . rfl
  . unfold State.firstFreeSlot writePDFirstFreeSlotPointer modifyPDTable
    simp only [LLI.modify_run, Mem.get_set_self]

/--
The current slot is not the first one: the predecessor is linked to the next slot.
-/
theorem visitSlot_next {curr : Nat} (pred : Nat) (h : s.inStructure structureAddr curr = true)
    (hfirst : curr ≠ s.firstFreeSlot pd)
    : (visitSlot pred curr pd structureAddr s).endOf pred = s.endOf curr
        ∧ (∀ other, other ≠ pred →
          (visitSlot pred curr pd structureAddr s).endOf other = s.endOf other)
        ∧ (visitSlot pred curr pd structureAddr s).firstFreeSlot pd = s.firstFreeSlot pd := by
  unfold visitSlot
  rw [if_pos h, if_neg hfirst]
  unfold State.endOf writeBlockEndFromBlockEntryAddr modifyBlockEntry
  simp only [LLI.modify_run, Mem.get_set_self]
  refine ⟨trivial, ?_, rfl⟩
  intro other hother
  rw [Mem.get_set_of_ne _ _ (Ne.symm hother)]

/--
The rest of the list behind the slots in `kept`, which are still linked. The induction follows the visits,
`alive` says whether the predecessor is the last one of them or has been unlinked.
-/
theorem collectFreeSlotsRecAux_rest {timeout pred curr : Nat} {kept : List Nat} (alive : Bool)
    (hlist : Linked s.endOf (s.firstFreeSlot pd) (kept ++ l)) (hcurr : Linked s.endOf curr l)
    (hkept : kept ≠ [])
    (hpred : if alive then ∃ before, kept = before ++ [pred] else pred ∉ kept ++ l)
    : let s' := (collectFreeSlotsRecAux timeout pred curr pd structureAddr s).2
      Linked s'.endOf (s'.firstFreeSlot pd)
        (kept ++ unlinked (s.inStructure structureAddr) timeout alive l) := by
  induction timeout generalizing pred curr kept alive l s with
  | zero => exact hlist
  | succ timeout ih =>
    cases l with
    | nil =>
      have hcurr : curr = 0 := hcurr
      rw [hcurr, collectFreeSlotsRecAux_null]
      exact hlist
    | cons slot rest =>
      rcases hcurr with ⟨rfl, hne, hrest⟩
      have hnodup := hlist.nodup
      have hfirst : curr ≠ s.firstFreeSlot pd := by
        intro heq
        cases kept with
        | nil => exact hkept rfl
        | cons first kept =>
          rw [← heq] at hlist
          have hhead : curr = first := hlist.1
          subst hhead
          simp at hnodup
      have hin : ∀ pred, (visitSlot pred curr pd structureAddr s).inStructure structureAddr
          = s.inStructure structureAddr := by
        intro pred
        funext entry
        exact visitSlot_inStructure _ _
      intro s'
      have hs' : s' = (collectFreeSlotsRecAux timeout curr (s.endOf curr) pd structureAddr
          (visitSlot pred curr pd structureAddr s)).2 := by
        show (collectFreeSlotsRecAux (timeout + 1) pred curr pd structureAddr s).2 = _
        rw [collectFreeSlotsRecAux_succ hne]
      rw [hs']
      have hlist' : Linked s.endOf (s.firstFreeSlot pd) ((kept ++ [curr]) ++ rest) := by
        rw [List.append_assoc]
        exact hlist
      have hlast : if true then ∃ before, kept ++ [curr] = before ++ [curr]
          else curr ∉ (kept ++ [curr]) ++ rest := ⟨kept, rfl⟩
      unfold unlinked
      cases hcollected : s.inStructure structureAddr curr with
      | false =>
        rw [visitSlot_kept hcollected, Bool.and_false, if_neg Bool.false_ne_true]
        have hkeep := ih true hlist' hrest (by simp) hlast
        rw [List.append_assoc] at hkeep
        exact hkeep
      | true =>
        rcases visitSlot_next pred hcollected hfirst with ⟨hnext, hothers, hsame⟩
        cases alive with
        | true =>
          rcases hpred with ⟨before, rfl⟩
          rw [Bool.true_and, if_pos rfl]
          have hnotMem : curr ∉ (before ++ [pred]) ++ rest := by
            intro hmem
            rw [List.nodup_append] at hnodup
            rcases List.mem_append.mp hmem with hmem | hmem
            . exact hnodup.2.2 curr hmem curr (List.mem_cons_self ..) rfl
            . exact (List.nodup_cons.mp hnodup.2.1).1 hmem
          have hpred : pred ∉ rest := by
            intro hmem
            rw [List.nodup_append] at hnodup
            exact hnodup.2.2 pred (by simp) pred (List.mem_cons_of_mem _ hmem) rfl
          have hlist : Linked s.endOf (s.firstFreeSlot pd) (before ++ pred :: curr :: rest) := by
            rw [List.append_assoc] at hlist
            exact hlist
          have hlist := hlist.unlink hnext hothers
          have hrest := hrest.update_of_notMem hpred hothers
          rw [← hin pred]
          apply ih
          . rw [hsame, List.append_assoc]
            exact hlist
          . exact hrest
          . exact hkept
          . exact hnotMem
        | false =>
          have hpred : pred ∉ kept ++ curr :: rest := hpred
          have hpred' : pred ∉ rest := by
            intro hmem
            exact hpred (List.mem_append_right _ (List.mem_cons_of_mem _ hmem))
          rw [Bool.false_and, if_neg Bool.false_ne_true]
          have hlist' := hlist'.update_of_notMem (by simpa using hpred) hothers
          have hrest := hrest.update_of_notMem hpred' hothers
          rw [← hsame] at hlist'
          have hkeep := ih true hlist' hrest (by simp) hlast
          rw [hin, List.append_assoc] at hkeep
          exact hkeep

/--
The list from its first slot on. Slots at the head are unlinked from the descriptor, whatever the predecessor.
-/
theorem collectFreeSlotsRecAux_first (timeout pred structureAddr : Nat)
    (hlist : Linked s.endOf (s.firstFreeSlot pd) l)
    : let s' := (collectFreeSlotsRecAux timeout pred (s.firstFreeSlot pd) pd structureAddr s).2
      Linked s'.endOf (s'.firstFreeSlot pd)
        (unlinkedFirst (s.inStructure structureAddr) timeout l) := by
  induction timeout generalizing pred l s with
  | zero => exact hlist
  | succ timeout ih =>
    cases l with
    | nil =>
      have hfirst : s.firstFreeSlot pd = 0 := hlist
      rw [hfirst, collectFreeSlotsRecAux_null]
      exact hlist
    | cons slot rest =>
      rcases hlist with ⟨hfirst, hne, hrest⟩
      intro s'
      have hs' : s' = (collectFreeSlotsRecAux timeout slot (s.endOf slot) pd structureAddr
          (visitSlot pred slot pd structureAddr s)).2 := by
        show (collectFreeSlotsRecAux (timeout + 1) pred (s.firstFreeSlot pd) pd structureAddr s).2 = _
        rw [hfirst, collectFreeSlotsRecAux_succ hne]
      have hin : (visitSlot pred slot pd structureAddr s).inStructure structureAddr
          = s.inStructure structureAddr := by
        funext entry
        exact visitSlot_inStructure _ _
      rw [hs']
      unfold unlinkedFirst
      cases hcollected : s.inStructure structureAddr slot with
      | true =>
        rcases visitSlot_first pred hcollected hfirst.symm with ⟨hends, hnext⟩
        rw [if_pos rfl, ← hin, ← hnext]
        apply ih
        rw [hends, hnext]
        exact hrest
      | false =>
        have hlist : Linked s.endOf (s.firstFreeSlot pd) ([slot] ++ rest) := ⟨hfirst, hne, hrest⟩
        rw [visitSlot_kept hcollected, if_neg Bool.false_ne_true]
        exact collectFreeSlotsRecAux_rest true hlist hrest (by simp) ⟨[], rfl⟩

/--
Only slots of the list are written: the predecessor of a slot behind the head is one of them.
-/
theorem collectFreeSlotsRecAux_onlyRelinked {timeout pred curr : Nat}
    (hcurr : Linked s.endOf curr l) (hslots : ∀ slot ∈ l, slot ∈ slots)
    (hpred : (pred ∈ slots ∧ pred ∉ l) ∨ curr = s.firstFreeSlot pd)
    : OnlyRelinked pd slots s (collectFreeSlotsRecAux timeout pred curr pd structureAddr s).2 := by
  induction timeout generalizing pred curr l s with
  | zero => exact .refl
  | succ timeout ih =>
    cases l with
    | nil =>
      have hcurr : curr = 0 := hcurr
      rw [hcurr, collectFreeSlotsRecAux_null]
      exact .refl
    | cons slot rest =>
      have hnodup := hcurr.nodup
      rcases hcurr with ⟨rfl, hne, hrest⟩
      have hmem := hslots curr (List.mem_cons_self ..)
      have hcurr := (List.nodup_cons.mp hnodup).1
      rw [collectFreeSlotsRecAux_succ hne]
      have hvisit := visitSlot_onlyRelinked structureAddr (hpred.imp And.left id)
      apply hvisit.trans
      cases hcollected : s.inStructure structureAddr curr with
      | false =>
        rw [visitSlot_kept hcollected]
        exact ih hrest (fun slot hslot => hslots slot (List.mem_cons_of_mem _ hslot))
          (.inl ⟨hmem, hcurr⟩)
      | true =>
        by_cases hfirst : curr = s.firstFreeSlot pd
        . rcases visitSlot_first pred hcollected hfirst with ⟨hends, hnext⟩
          have hrest : Linked (visitSlot pred curr pd structureAddr s).endOf (s.endOf curr) rest := by
            rw [hends]
            exact hrest
          exact ih hrest (fun slot hslot => hslots slot (List.mem_cons_of_mem _ hslot))
            (.inl ⟨hmem, hcurr⟩)
        . rcases visitSlot_next pred hcollected hfirst with ⟨-, hothers, -⟩
          have hnotMem : pred ∉ rest := by
            intro hpredRest
            exact (hpred.resolve_right hfirst).2 (List.mem_cons_of_mem _ hpredRest)
          have hrest := hrest.update_of_notMem hnotMem hothers
          exact ih hrest (fun slot hslot => hslots slot (List.mem_cons_of_mem _ hslot))
            (.inl ⟨hmem, hcurr⟩)

end Run

/--
The free slots of the partition in `s'` are those of the list that lie outside of the structure, in the same
order, and nothing but their links was written.
-/
structure FiltersSlots (pd structureAddr : Nat) (slots : List Nat) (s s' : State) : Prop where
  list : Linked s'.endOf (s'.firstFreeSlot pd)
    (slots.filter fun slot => !s.inStructure structureAddr slot)
  frame : OnlyRelinked pd slots s s'

theorem filtersSlots_iff_unlinkedFirst {s : State} {pd : Nat} {slots : List Nat}
    (hslots : Linked s.endOf (s.firstFreeSlot pd) slots) (structureAddr : Nat)
    : FiltersSlots pd structureAddr slots s
          (collectFreeSlotsRecAux fuelN nullAddr (s.firstFreeSlot pd) pd structureAddr s).2
        ↔
      unlinkedFirst (s.inStructure structureAddr) fuelN slots
        = slots.filter fun slot => !s.inStructure structureAddr slot := by
  have hlist := collectFreeSlotsRecAux_first fuelN nullAddr structureAddr hslots
  constructor
  . intro hfilters
    exact hlist.unique hfilters.list
  . intro heq
    rw [heq] at hlist
    exact
      {
        list := hlist
        frame := collectFreeSlotsRecAux_onlyRelinked hslots (fun _ hslot => hslot) (.inr rfl)
      }

/--
The free slots that lie in the structure are unlinked exactly if behind those at the head no two of them are
in a row.
-/
theorem collectFreeSlotsRec_filters_iff {s : State} {pd : Nat} {slots : List Nat}
    (hslots : Linked s.endOf (s.firstFreeSlot pd) slots) (structureAddr : Nat)
    : FiltersSlots pd structureAddr slots s
          (collectFreeSlotsRecAux fuelN nullAddr (s.firstFreeSlot pd) pd structureAddr s).2
        ↔
      Collectable (s.inStructure structureAddr) fuelN slots := by
  rw [filtersSlots_iff_unlinkedFirst hslots]
  exact unlinkedFirst_eq_filter_iff fuelN hslots.nodup

/--
The free slots of the root after it has prepared the structure at 0x20009000 and merged two blocks.
-/
def slotsBeforeCollect : List Nat := 0x2000F155 :: slotsOf 0x20009000 ++ [0x2000F166, 0x2000F177]

theorem slotBeforeStructure_linked
    : Linked slotBeforeStructure.endOf (slotBeforeStructure.firstFreeSlot 0x2000F000) slotsBeforeCollect := by
  decide +kernel

theorem collectFreeSlotsRec_filters_slotBeforeStructure
    : FiltersSlots 0x2000F000 0x20009000 slotsBeforeCollect slotBeforeStructure
          (collectFreeSlotsRecAux fuelN nullAddr (slotBeforeStructure.firstFreeSlot 0x2000F000) 0x2000F000 0x20009000
            slotBeforeStructure).2
        ↔
      Collectable (slotBeforeStructure.inStructure 0x20009000) fuelN slotsBeforeCollect :=
  collectFreeSlotsRec_filters_iff slotBeforeStructure_linked 0x20009000

theorem slotsBeforeCollect_unlinked
    : unlinkedFirst (slotBeforeStructure.inStructure 0x20009000) fuelN slotsBeforeCollect
        ≠ slotsBeforeCollect.filter fun slot => !slotBeforeStructure.inStructure 0x20009000 slot := by
  decide +kernel

/--
The root has made these calls after the boot. When it collects the structure, every other slot of it stays.
-/
theorem collectFreeSlotsRec_not_filters
    : ServiceCall.system.Reachable slotBeforeStructure
        ∧ ¬FiltersSlots 0x2000F000 0x20009000 slotsBeforeCollect slotBeforeStructure
          (collectFreeSlotsRecAux fuelN nullAddr (slotBeforeStructure.firstFreeSlot 0x2000F000) 0x2000F000 0x20009000
            slotBeforeStructure).2 := by
  refine ⟨slotBeforeStructure_reachable, fun hfilters => ?_⟩
  have hunlinked := (filtersSlots_iff_unlinkedFirst slotBeforeStructure_linked 0x20009000).mp hfilters
  exact slotsBeforeCollect_unlinked hunlinked
