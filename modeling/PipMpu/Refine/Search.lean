import Mathlib.Data.List.Find
import PipMpu.Refine.Sim

/-!
This module contains the results of the searches through the kernel structures of a partition: each
returns the first slot of the list of structures that is present and matches, or null.
-/

/--
The slots from the index `i` on.
-/
def slotsFrom (k i : Nat) : List Nat := (List.range' i (8 - i)).map (slotAddr k)

theorem slotsFrom_zero (k : Nat) : slotsFrom k 0 = slotsOf k := by
  rfl

theorem slotsFrom_succ (k : Nat) {i : Nat} (hi : i < 8)
    : slotsFrom k i = slotAddr k i :: slotsFrom k (i + 1) := by
  unfold slotsFrom
  have : 8 - i = (8 - (i + 1)) + 1 := by omega
  rw [this, List.range'_succ, List.map_cons]

theorem compareAddrToNull_run (a : Nat) (s : State)
    : compareAddrToNull a s = (decide (a = 0), s) := by
  unfold compareAddrToNull getNullAddr getBeqAddr beqAddr nullAddr
  simp only [LLI.bind_run, LLI.pure_run, Prod.mk.injEq, and_true]
  by_cases h : a = 0
  . simp [h]
  . have : ¬(0 : Nat) = a := fun h' => h h'.symm
    simp [h, this]

theorem beqAddr_eq (a b : Nat) : beqAddr a b = decide (a = b) := by
  by_cases h : a = b <;> simp [beqAddr, h]

theorem beqIdx_eq (a b : Nat) : beqIdx a b = decide (a = b) := by
  by_cases h : a = b <;> simp [beqIdx, h]

theorem add32_eq {a b : Nat} (h : a + b < wordSize) : add32 a b = a + b :=
  Nat.mod_eq_of_lt h

theorem sub32_eq {a b : Nat} (hb : b ≤ a) (ha : a < wordSize) : sub32 a b = a - b := by
  unfold sub32
  rw [wordSize_eq] at *
  have : b % 4294967296 = b := Nat.mod_eq_of_lt (by omega)
  omega

section

variable {s : State} {comp : Nat → LLI Bool} {c : Nat → Bool}

theorem findEntryInStructAux_run (hcomp : ∀ a, comp a s = (c a, s)) (k timeout i : Nat)
    (hi : i < 8) (htimeout : 8 ≤ timeout + i)
    : findEntryInStructAux comp timeout i k s
        =
      (((slotsFrom k i).find? fun a => (s.blockEntries.get a).present && c a).getD 0, s) := by
  induction timeout generalizing i with
  | zero => omega
  | succ timeout ih =>
    unfold findEntryInStructAux
    simp only [LLI.bind_run, LLI.pure_run, getBlockEntryAddrFromKernelStructureStart,
      readBlockPresentFromBlockEntryAddr, readBlockField, LLI.gets_run, hcomp, LLI.ite_run]
    rw [slotsFrom_succ k hi, List.find?_cons]
    have haddr : k + i * sizeofBlockEntry = slotAddr k i := rfl
    rw [haddr]
    cases hmatch : (s.blockEntries.get (slotAddr k i)).present && c (slotAddr k i) with
    | true => simp
    | false =>
      have hsucc : add32 i 1 = i + 1 := add32_eq (by rw [wordSize_eq]; omega)
      simp only [Bool.false_eq_true, if_false, getKernelStructureEntriesNb, Index.succ, Index.ltb,
        LLI.pure_run, hsucc, decide_eq_true_eq]
      by_cases hlast : i + 1 < 8
      . have hlt : i + 1 < kernelStructureEntriesNb := hlast
        rw [if_pos hlt]
        exact ih (i + 1) hlast (by omega)
      . have hlt : ¬i + 1 < kernelStructureEntriesNb := hlast
        have hi7 : i = 7 := by omega
        rw [if_neg hlt]
        subst hi7
        rfl

theorem findEntryInKSAux_run (hcomp : ∀ a, comp a s = (c a, s)) {timeout k : Nat}
    {ks : List Nat} (hks : Linked s.nextStructure k ks) (hk : k ≠ 0)
    (htimeout : ks.length ≤ timeout)
    : findEntryInKSAux comp timeout k s
        =
      (((ks.flatMap slotsOf).find? fun a => (s.blockEntries.get a).present && c a).getD 0, s) := by
  induction ks generalizing timeout k with
  | nil => exact absurd hks hk
  | cons head rest ih =>
    rcases hks with ⟨rfl, -, hrest⟩
    cases timeout with
    | zero => simp at htimeout
    | succ timeout =>
      unfold findEntryInKSAux
      simp only [LLI.bind_run, LLI.pure_run, Index.zero,
        findEntryInStructAux_run hcomp k fuelN 0 (by omega)
          (by unfold fuelN; omega),
        compareAddrToNull_run, LLI.ite_run, slotsFrom_zero, readNextFromKernelStructureStart,
        getNextAddrFromKernelStructureStart, LLI.gets_run]
      rw [List.flatMap_cons, List.find?_append]
      cases hfound : (slotsOf k).find? fun a => (s.blockEntries.get a).present && c a with
      | some a =>
        have ha := List.mem_of_find?_eq_some hfound
        have := slotsOf_le ha
        have hne : a ≠ 0 := by omega
        simp [hne]
      | none =>
        have hnext : s.nextPointers.get (k + nextOffset) = s.nextStructure k := rfl
        simp only [Option.getD_none, decide_true, Bool.not_true, Bool.false_eq_true, if_false,
          Option.none_or, hnext, decide_eq_true_eq]
        by_cases hnull : s.nextStructure k = 0
        . rw [if_pos hnull]
          cases rest with
          | nil => rfl
          | cons cell rest' => exact absurd (hrest.1.symm.trans hnull) hrest.2.1
        . rw [if_neg hnull]
          apply ih hrest hnull
          simp only [List.length_cons] at htimeout
          omega

end

theorem mem_slotsOf_iff_checkEntry {k a : Nat} (hk : k ≤ a) (ha : a < k + 136)
    : a ∈ slotsOf k ↔ k + (a - k) / sizeofBlockEntry * sizeofBlockEntry = a := by
  rw [mem_slotsOf]
  unfold sizeofBlockEntry
  constructor
  . rintro ⟨i, hi, rfl⟩
    omega
  . intro h
    exact ⟨(a - k) / 17, by omega, h.symm⟩

section

variable {s : State} {p k a : Nat} {ks : List Nat}

theorem findBlockInKSWithAddrAux_run {timeout : Nat} (hks : Linked s.nextStructure k ks) (hk : k ≠ 0)
    (htimeout : ks.length ≤ timeout)
    (hapart : ks.Pairwise fun k k' => Disjoint (structureRange k) (structureRange k'))
    : ((∃ k ∈ ks, a ∈ slotsOf k) → (s.blockEntries.get a).present = true →
          findBlockInKSWithAddrAux timeout k a s = (a, s))
        ∧ (((∃ k ∈ ks, a ∈ slotsOf k) → (s.blockEntries.get a).present ≠ true) →
          findBlockInKSWithAddrAux timeout k a s = (0, s)) := by
  induction ks generalizing timeout k with
  | nil => exact absurd hks hk
  | cons head rest ih =>
    rcases hks with ⟨rfl, -, hrest⟩
    rcases List.pairwise_cons.mp hapart with ⟨hhead, hapart⟩
    cases timeout with
    | zero => simp at htimeout
    | succ timeout =>
      unfold findBlockInKSWithAddrAux
      simp only [LLI.bind_run, LLI.pure_run, Paddr.leb, Paddr.ltb, Index.zero,
        getSh1EntryAddrFromKernelStructureStart, LLI.ite_run, compareAddrToNull_run, checkEntry,
        readBlockPresentFromBlockEntryAddr, readBlockField, LLI.gets_run,
        readNextFromKernelStructureStart, getNextAddrFromKernelStructureStart, Bool.and_eq_true,
        decide_eq_true_eq, sh1Offset_eq, Nat.zero_mul, Nat.add_zero]
      by_cases hin : k ≤ a ∧ a < k + 136
      . rw [if_pos hin]
        have hentry := mem_slotsOf_iff_checkEntry hin.1 hin.2
        by_cases hslot : a ∈ slotsOf k
        . simp only [hentry.mp hslot, beq_self_eq_true, Bool.not_true, Bool.false_eq_true, if_false]
          constructor
          . intro _ hpresent
            simp [hpresent]
          . intro hpresent
            have := hpresent ⟨k, by simp, hslot⟩
            simp [this, nullAddr]
        . -- an address between two entries belongs to no other structure
          have hnot : ¬∃ k' ∈ k :: rest, a ∈ slotsOf k' := by
            rintro ⟨k', hk', ha'⟩
            rcases List.mem_cons.mp hk' with rfl | hmem
            . exact hslot ha'
            . have hx : a ∈ structureRange k := by
                unfold structureRange
                rw [sizeofKStructure_eq]
                exact ⟨hin.1, by omega⟩
              exact Set.disjoint_left.mp (hhead k' hmem) hx (slotsOf_mem_structureRange ha')
          have hbeq : (k + (a - k) / sizeofBlockEntry * sizeofBlockEntry == a) = false := by
            rw [beq_eq_false_iff_ne]
            exact fun heq => hslot (hentry.mpr heq)
          rw [hbeq]
          constructor
          . intro hex
            exact absurd hex hnot
          . intro _
            rfl
      . rw [if_neg hin]
        have hslot : a ∉ slotsOf k := fun ha => hin (slotsOf_le ha)
        have hnext : s.nextPointers.get (k + nextOffset) = s.nextStructure k := rfl
        rw [hnext]
        have hex : (∃ k' ∈ k :: rest, a ∈ slotsOf k') ↔ ∃ k' ∈ rest, a ∈ slotsOf k' := by
          simp [hslot]
        rw [hex]
        by_cases hnull : s.nextStructure k = 0
        . rw [if_pos hnull]
          cases rest with
          | nil => simp [nullAddr]
          | cons cell rest' => exact absurd (hrest.1.symm.trans hnull) hrest.2.1
        . rw [if_neg hnull]
          apply ih hrest hnull _ hapart
          simp only [List.length_cons] at htimeout
          omega

theorem findBlockInKSWithAddr_run (hks : Linked s.nextStructure (s.pdtables.get p).structurePtr ks)
    (hlength : ks.length ≤ maxNbPrepare)
    (hapart : ks.Pairwise fun k k' => Disjoint (structureRange k) (structureRange k')) (a : Nat)
    : ((∃ k ∈ ks, a ∈ slotsOf k) → (s.blockEntries.get a).present = true →
          findBlockInKSWithAddr p a s = (a, s))
        ∧ (((∃ k ∈ ks, a ∈ slotsOf k) → (s.blockEntries.get a).present ≠ true) →
          findBlockInKSWithAddr p a s = (0, s)) := by
  unfold findBlockInKSWithAddr
  simp only [LLI.bind_run, readPDStructurePointer, readPDField, LLI.gets_run, compareAddrToNull_run,
    LLI.ite_run, LLI.pure_run, decide_eq_true_eq]
  by_cases hnull : (s.pdtables.get p).structurePtr = 0
  . rw [if_pos hnull, hks.eq_nil hnull]
    simp [nullAddr]
  . rw [if_neg hnull]
    exact findBlockInKSWithAddrAux_run hks hnull hlength hapart

/--
The search for an entry that meets the condition `c`, in all structures of `p`.
-/
theorem findEntry_run {comp : Nat → LLI Bool} {c : Nat → Bool} (hcomp : ∀ a, comp a s = (c a, s))
    (hks : Linked s.nextStructure (s.pdtables.get p).structurePtr ks) (hlength : ks.length ≤ maxNbPrepare)
    : (do
        let kernelstructurestart ← readPDStructurePointer p
        let isnull ← compareAddrToNull kernelstructurestart
        if isnull then
          pure nullAddr
        else
          findEntryInKSAux comp maxNbPrepare kernelstructurestart : LLI Nat) s
        =
      (((ks.flatMap slotsOf).find? fun a => (s.blockEntries.get a).present && c a).getD 0, s) := by
  simp only [LLI.bind_run, readPDStructurePointer, readPDField, LLI.gets_run, compareAddrToNull_run,
    LLI.ite_run, LLI.pure_run, decide_eq_true_eq]
  by_cases hnull : (s.pdtables.get p).structurePtr = 0
  . rw [if_pos hnull, hks.eq_nil hnull]
    rfl
  . rw [if_neg hnull]
    exact findEntryInKSAux_run hcomp hks hnull hlength

end

namespace Sim

variable {s : State} {C : Conf} {p : Nat}

/--
The search for a block that meets the condition `c`, in all structures of `p`.
-/
theorem run_findEntry (h : Sim s C) (hC : C.Sep) (hp : C.Live p) {comp : Nat → LLI Bool}
    {c : Nat → Bool} (hcomp : ∀ a, comp a s = (c a, s))
    : (do
        let kernelstructurestart ← readPDStructurePointer p
        let isnull ← compareAddrToNull kernelstructurestart
        if isnull then
          pure nullAddr
        else
          findEntryInKSAux comp maxNbPrepare kernelstructurestart : LLI Nat) s
        =
      (((C.slots p).find? fun a => (C.slot a).present && c a).getD 0, s) := by
  rw [findEntry_run hcomp (h.structures p hp) (hC.structures_length p hp)]
  have hfind : ((C.slots p).find? fun a => (s.blockEntries.get a).present && c a) =
      (C.slots p).find? fun a => (C.slot a).present && c a := by
    apply List.find?_congr
    intro a ha
    rw [h.present_eq ((Conf.mem_slots hp a).mp ha)]
  rw [← hfind]
  rfl

theorem find?_eq_some_of_unique {α : Type} {l : List α} {c : α → Bool} {a : α} (ha : a ∈ l)
    (hca : c a = true) (hunique : ∀ b ∈ l, c b = true → b = a) : l.find? c = some a := by
  cases hfound : l.find? c with
  | none => exact absurd hca (List.find?_eq_none.mp hfound a ha)
  | some b => rw [hunique b (List.mem_of_find?_eq_some hfound) (List.find?_some hfound)]

/--
The search finds the only block that meets the condition.
-/
theorem run_findEntry_some (h : Sim s C) (hC : C.Sep) {comp : Nat → LLI Bool} {c : Nat → Bool}
    (hcomp : ∀ a, comp a s = (c a, s)) {a : Nat} (ha : C.Has p a) (hca : c a = true)
    (hunique : ∀ b, C.Has p b → c b = true → b = a)
    : (do
        let kernelstructurestart ← readPDStructurePointer p
        let isnull ← compareAddrToNull kernelstructurestart
        if isnull then
          pure nullAddr
        else
          findEntryInKSAux comp maxNbPrepare kernelstructurestart : LLI Nat) s
        =
      (a, s) := by
  rw [h.run_findEntry hC ha.live hcomp, find?_eq_some_of_unique (a := a)]
  . rfl
  . exact (Conf.mem_slots ha.live a).mpr ha.1
  . simp [ha.2, hca]
  . intro b hb hcb
    rw [Bool.and_eq_true] at hcb
    exact hunique b ⟨(Conf.mem_slots ha.live b).mp hb, hcb.1⟩ hcb.2

theorem run_findEntry_none (h : Sim s C) (hC : C.Sep) (hp : C.Live p) {comp : Nat → LLI Bool}
    {c : Nat → Bool} (hcomp : ∀ a, comp a s = (c a, s)) (hnone : ∀ b, C.Has p b → c b = false)
    : (do
        let kernelstructurestart ← readPDStructurePointer p
        let isnull ← compareAddrToNull kernelstructurestart
        if isnull then
          pure nullAddr
        else
          findEntryInKSAux comp maxNbPrepare kernelstructurestart : LLI Nat) s
        =
      (0, s) := by
  rw [h.run_findEntry hC hp hcomp, List.find?_eq_none.mpr]
  . rfl
  . intro b hb hcb
    rw [Bool.and_eq_true] at hcb
    have := hnone b ⟨(Conf.mem_slots hp b).mp hb, hcb.1⟩
    rw [this] at hcb
    exact absurd hcb.2 (by simp)

/-
The searches of the services
-/

theorem findExactBlockComp_run (s : State) (lo hi a : Nat)
    : findExactBlockComp a lo hi s
        =
      (decide ((s.blockEntries.get a).startAddr = lo)
        && decide ((s.blockEntries.get a).endAddr = hi), s) := by
  simp only [findExactBlockComp, readBlockStartFromBlockEntryAddr, readBlockEndFromBlockEntryAddr,
    readBlockField, LLI.bind_run, LLI.gets_run, LLI.ite_run, LLI.pure_run, beqAddr_eq,
    decide_eq_true_eq]
  by_cases h₁ : (s.blockEntries.get a).startAddr = lo
  . by_cases h₂ : (s.blockEntries.get a).endAddr = hi <;> simp [h₁, h₂]
  . simp [h₁]

theorem findBlockComp_zero_run (s : State) (lo a : Nat)
    : findBlockComp a lo 0 s = (decide ((s.blockEntries.get a).startAddr = lo), s) := by
  simp only [findBlockComp, readBlockStartFromBlockEntryAddr, readBlockField, LLI.bind_run,
    LLI.gets_run, Index.zero, LLI.pure_run, beqIdx_eq, if_true, LLI.ite_run, beqAddr_eq,
    decide_eq_true_eq]
  by_cases h : (s.blockEntries.get a).startAddr = lo <;> simp [h]

theorem run_findExactBlock_some (h : Sim s C) (hC : C.Sep) {a lo hi : Nat} (ha : C.Has p a)
    (hlo : (C.slot a).startAddr = lo) (hhi : (C.slot a).endAddr = hi)
    : findExactBlockInKS p lo hi s = (a, s) := by
  apply h.run_findEntry_some hC (findExactBlockComp_run s lo hi) ha
  . rw [h.startAddr_eq ha.1, h.endAddr_eq ha]
    simp [hlo, hhi]
  . intro b hb hcb
    rw [Bool.and_eq_true, decide_eq_true_eq, decide_eq_true_eq, h.startAddr_eq hb.1] at hcb
    apply hC.eq_of_mem_range hb ha (hC.mem_range_start hb)
    rw [hcb.1, ← hlo]
    exact hC.mem_range_start ha

theorem run_findExactBlock_none (h : Sim s C) (hC : C.Sep) (hp : C.Live p) {lo hi : Nat}
    (hnone : ∀ a, C.Has p a → (C.slot a).startAddr = lo → (C.slot a).endAddr ≠ hi)
    : findExactBlockInKS p lo hi s = (0, s) := by
  apply h.run_findEntry_none hC hp (findExactBlockComp_run s lo hi)
  intro b hb
  rw [h.startAddr_eq hb.1, h.endAddr_eq hb]
  have := hnone b hb
  by_cases hlo : (C.slot b).startAddr = lo
  . simp [hlo, this hlo]
  . simp [hlo]

theorem findBlockInKS_eq (p lo : Nat)
    : findBlockInKS p lo
        =
      (do
        let kernelstructurestart ← readPDStructurePointer p
        let isnull ← compareAddrToNull kernelstructurestart
        if isnull then
          pure nullAddr
        else
          findEntryInKSAux (fun entryaddr => findBlockComp entryaddr lo 0) maxNbPrepare
            kernelstructurestart : LLI Nat) := by
  rfl

theorem run_findBlock_some (h : Sim s C) (hC : C.Sep) {a lo : Nat} (ha : C.Has p a)
    (hlo : (C.slot a).startAddr = lo) : findBlockInKS p lo s = (a, s) := by
  rw [findBlockInKS_eq]
  apply h.run_findEntry_some hC (findBlockComp_zero_run s lo) ha
  . rw [h.startAddr_eq ha.1]
    simp [hlo]
  . intro b hb hcb
    rw [decide_eq_true_eq, h.startAddr_eq hb.1] at hcb
    apply hC.eq_of_mem_range hb ha (hC.mem_range_start hb)
    rw [hcb, ← hlo]
    exact hC.mem_range_start ha

theorem run_findBlock_none (h : Sim s C) (hC : C.Sep) (hp : C.Live p) {lo : Nat}
    (hnone : ∀ a, C.Has p a → (C.slot a).startAddr ≠ lo) : findBlockInKS p lo s = (0, s) := by
  rw [findBlockInKS_eq]
  apply h.run_findEntry_none hC hp (findBlockComp_zero_run s lo)
  intro b hb
  rw [h.startAddr_eq hb.1]
  simp [hnone b hb]

theorem findBlockComp_one_run (s : State) (addr a : Nat)
    : findBlockComp a addr 1 s
        =
      (decide ((s.blockEntries.get a).startAddr ≤ addr)
        && decide (addr < (s.blockEntries.get a).endAddr), s) := by
  simp only [findBlockComp, readBlockStartFromBlockEntryAddr, readBlockEndFromBlockEntryAddr,
    readBlockField, LLI.bind_run, LLI.gets_run, Index.zero, LLI.pure_run, beqIdx_eq, Paddr.leb,
    Paddr.ltb, LLI.ite_run, decide_eq_true_eq]
  rw [if_neg (by decide)]
  cases decide ((s.blockEntries.get a).startAddr ≤ addr) && decide (addr < (s.blockEntries.get a).endAddr) <;> rfl

theorem findBelongingBlock_eq (p addr : Nat)
    : findBelongingBlock p addr
        =
      (do
        let kernelstructurestart ← readPDStructurePointer p
        let isnull ← compareAddrToNull kernelstructurestart
        if isnull then
          pure nullAddr
        else
          findEntryInKSAux (fun entryaddr => findBlockComp entryaddr addr 1) maxNbPrepare
            kernelstructurestart : LLI Nat) := by
  rfl

theorem run_findBelonging_some (h : Sim s C) (hC : C.Sep) {a addr : Nat} (ha : C.Has p a)
    (haddr : addr ∈ (C.slot a).range) : findBelongingBlock p addr s = (a, s) := by
  rw [findBelongingBlock_eq]
  apply h.run_findEntry_some hC (findBlockComp_one_run s addr) ha
  . rw [h.startAddr_eq ha.1, h.endAddr_eq ha]
    simp [haddr.1, haddr.2]
  . intro b hb hcb
    rw [Bool.and_eq_true, decide_eq_true_eq, decide_eq_true_eq, h.startAddr_eq hb.1, h.endAddr_eq hb] at hcb
    exact hC.eq_of_mem_range hb ha hcb haddr

theorem run_findBelonging_none (h : Sim s C) (hC : C.Sep) (hp : C.Live p) {addr : Nat}
    (hnone : ∀ a, C.Has p a → addr ∉ (C.slot a).range) : findBelongingBlock p addr s = (0, s) := by
  rw [findBelongingBlock_eq]
  apply h.run_findEntry_none hC hp (findBlockComp_one_run s addr)
  intro b hb
  rw [h.startAddr_eq hb.1, h.endAddr_eq hb, ← Bool.not_eq_true, Bool.and_eq_true, decide_eq_true_eq,
    decide_eq_true_eq]
  exact fun hcb => hnone b hb hcb

theorem findBlockInKSWithAddr_cases (h : Sim s C) (hC : C.Sep) (hp : C.Live p) (a : Nat)
    : (C.Has p a → findBlockInKSWithAddr p a s = (a, s))
        ∧ (¬C.Has p a → findBlockInKSWithAddr p a s = (0, s)) := by
  have hlinked := h.structures p hp
  have hapart : (C.structures p).Pairwise fun k k' => Disjoint (structureRange k) (structureRange k') := by
    apply hlinked.nodup.pairwise_of_forall_ne
    intro k hk k' hk' hne
    rw [Set.disjoint_left]
    intro x hx hx'
    exact hne (hC.structures_disjoint p p k k' x hp hp hk hk' hx hx').2
  have hrun := findBlockInKSWithAddr_run hlinked (hC.structures_length p hp) hapart a
  constructor
  . rintro ⟨⟨-, k, hk, ha⟩, hpresent⟩
    exact hrun.1 ⟨k, hk, ha⟩ ((h.present_eq ⟨hp, k, hk, ha⟩).trans hpresent)
  . intro hnot
    apply hrun.2
    rintro ⟨k, hk, ha⟩ hpresent
    exact hnot ⟨⟨hp, k, hk, ha⟩, (h.present_eq ⟨hp, k, hk, ha⟩).symm.trans hpresent⟩

theorem run_findWithAddr_some (h : Sim s C) (hC : C.Sep) {a : Nat} (ha : C.Has p a)
    : findBlockInKSWithAddr p a s = (a, s) :=
  (h.findBlockInKSWithAddr_cases hC ha.live a).1 ha

theorem run_findWithAddr_none (h : Sim s C) (hC : C.Sep) (hp : C.Live p) {a : Nat}
    (ha : ¬C.Has p a) : findBlockInKSWithAddr p a s = (0, s) :=
  (h.findBlockInKSWithAddr_cases hC hp a).2 ha

theorem run_checkChild_of_has (h : Sim s C) (hC : C.Static) {a : Nat} (ha : C.Has p a)
    : checkChildOfCurrPart p a s = ((C.slot a).PDflag, s) := by
  have hne := hC.owns_ne_zero ha.1
  unfold checkChildOfCurrPart
  simp only [LLI.bind_run, h.run_findWithAddr_some hC.sep ha, compareAddrToNull_run, hne, decide_false,
    Bool.false_eq_true, if_false, h.run_readPDFlag ha.1, LLI.ite_run, LLI.pure_run]
  cases (C.slot a).PDflag <;> rfl

/--
A child is designated by the block of its descriptor.
-/
theorem run_checkChild (h : Sim s C) (hC : C.Static) (hp : C.Live p) (a : Nat)
    : (C.Has p a ∧ (C.slot a).PDflag = true ∧ checkChildOfCurrPart p a s = (true, s))
        ∨ checkChildOfCurrPart p a s = (false, s) := by
  by_cases ha : C.Has p a
  . rw [h.run_checkChild_of_has hC ha]
    cases hflag : (C.slot a).PDflag with
    | true => exact Or.inl ⟨ha, rfl, rfl⟩
    | false => exact Or.inr rfl
  . right
    unfold checkChildOfCurrPart
    simp [h.run_findWithAddr_none hC.sep hp ha, compareAddrToNull_run]

/--
What `getGlobalIdPDCurrentOrChild` accepts is the partition itself or one of its children.
-/
theorem run_getGlobalIdPD (h : Sim s C) (hC : C.Static) (hp : C.Live p) (a : Nat)
    : ∃ t : Nat, getGlobalIdPDCurrentOrChild p a s = (t, s)
        ∧ (t = 0 ∨ t = p ∨ (C.Live t ∧ t ≠ C.root ∧ C.parent t = p)) := by
  unfold getGlobalIdPDCurrentOrChild getBeqAddr
  simp only [LLI.bind_run, LLI.pure_run, LLI.ite_run, beqAddr_eq, decide_eq_true_eq]
  by_cases heq : a = p
  . rw [if_pos heq]
    exact ⟨p, rfl, Or.inr (Or.inl rfl)⟩
  . rw [if_neg heq]
    rcases h.run_checkChild hC hp a with ⟨ha, hflag, hrun⟩ | hrun
    . rw [hrun]
      simp only [if_true]
      refine ⟨(C.slot a).startAddr, h.run_readStart ha.1, Or.inr (Or.inr ?_)⟩
      rcases hC.flag_kind p a ha hflag with ⟨-, -, hlive, hparent, hroot⟩
      exact ⟨hlive, hroot, hparent⟩
    . rw [hrun]
      exact ⟨0, rfl, Or.inl rfl⟩

/-
The checks of the size and of the place of a block
-/

theorem run_checkBlockInRAM (h : Sim s C) {a : Nat} (ha : C.Has p a)
    : checkBlockInRAM a s
        =
      (decide (ramStart ≤ (C.slot a).startAddr) && decide ((C.slot a).endAddr ≤ ramEnd), s) := by
  unfold checkBlockInRAM
  simp only [LLI.bind_run, h.run_readStart ha.1, h.run_readEnd ha, LLI.pure_run]

theorem run_sizeOfBlock (h : Sim s C) (hC : C.Static) {a : Nat} (ha : C.Has p a)
    : sizeOfBlock a s = ((C.slot a).endAddr - (C.slot a).startAddr, s) := by
  have hstart := hC.start_lt p a ha
  have hend := hC.end_lt p a ha
  unfold sizeOfBlock Paddr.subPaddr
  simp only [LLI.bind_run, h.run_readStart ha.1, h.run_readEnd ha, LLI.pure_run]
  rw [sub32_eq (by omega) hend]

theorem run_readNbFreeSlots (h : Sim s C) (hp : C.Live p)
    : readPDNbFreeSlots p s = ((C.free p).length, s) := by
  unfold readPDNbFreeSlots readPDField
  rw [LLI.gets_run, h.nbfreeslots p hp]

theorem run_readNbPrepare (h : Sim s C) (hp : C.Live p)
    : readPDNbPrepare p s = ((C.structures p).length, s) := by
  unfold readPDNbPrepare readPDField
  rw [LLI.gets_run, h.nbprepare p hp]

theorem run_getCurPartition (h : Sim s C) : getCurPartition s = (C.cur, s) := by
  unfold getCurPartition
  rw [LLI.gets_run, h.cur]

end Sim
