import PipMpu.Core.IntState
import PipMpu.Switch.Delivery

/-!
This module contains what `getIntState` reports about a child. It looks for the field at its offset from the
block entry that designates the child, which is in the middle of a kernel structure of the caller, and never
at the descriptor of the child.
-/

/-
The check
-/

/--
The states agree on what the check of a child looks at.
-/
structure SameChecks (s s' : State) : Prop where
  currentPartition : s'.currentPartition = s.currentPartition
  structurePtr : ∀ p, (s'.pdtables.get p).structurePtr = (s.pdtables.get p).structurePtr
  nextPointers : s'.nextPointers = s.nextPointers
  present : ∀ a, (s'.blockEntries.get a).present = (s.blockEntries.get a).present
  blockindex : ∀ a, (s'.blockEntries.get a).blockindex = (s.blockEntries.get a).blockindex
  startAddr : ∀ a, (s'.blockEntries.get a).startAddr = (s.blockEntries.get a).startAddr
  PDflag : ∀ a, (s'.sh1Entries.get a).PDflag = (s.sh1Entries.get a).PDflag

namespace SameChecks

variable {s s' : State}

theorem findBlockInKSWithAddrAux_eq (h : SameChecks s s') (timeout k id : Nat)
    : (findBlockInKSWithAddrAux timeout k id s').1 = (findBlockInKSWithAddrAux timeout k id s).1 := by
  induction timeout generalizing k with
  | zero => rfl
  | succ timeout ih =>
    unfold findBlockInKSWithAddrAux readBlockPresentFromBlockEntryAddr readBlockField checkEntry
      readNextFromKernelStructureStart
    simp only [LLI.bind_run, LLI.ite_run, LLI.gets_run, LLI.pure_run, Paddr.leb, Paddr.ltb, Index.zero,
      getSh1EntryAddrFromKernelStructureStart, getNextAddrFromKernelStructureStart, compareAddrToNull,
      getNullAddr, getBeqAddr, h.present, h.nextPointers]
    split
    . split
      . rfl
      . split <;> rfl
    . split
      . rfl
      . exact ih _

theorem findBlockInKSWithAddr_eq (h : SameChecks s s') (p id : Nat)
    : (findBlockInKSWithAddr p id s').1 = (findBlockInKSWithAddr p id s).1 := by
  unfold findBlockInKSWithAddr readPDStructurePointer readPDField
  simp only [LLI.bind_run, LLI.ite_run, LLI.gets_run, LLI.pure_run, compareAddrToNull, getNullAddr,
    getBeqAddr, h.structurePtr]
  split
  . rfl
  . exact h.findBlockInKSWithAddrAux_eq _ _ _

theorem checkChildOfCurrPart_eq (h : SameChecks s s') (p id : Nat)
    : (checkChildOfCurrPart p id s').1 = (checkChildOfCurrPart p id s).1 := by
  unfold checkChildOfCurrPart readSh1PDFlagFromBlockEntryAddr readSh1Field
    getSh1EntryAddrFromBlockEntryAddr readBlockIndexFromBlockEntryAddr readBlockField
  simp only [LLI.bind_run, LLI.ite_run, LLI.gets_run, LLI.pure_run, compareAddrToNull, getNullAddr,
    getBeqAddr, findBlockInKSWithAddr_state, h.findBlockInKSWithAddr_eq, getKernelStructureStartAddr,
    getSh1EntryAddrFromKernelStructureStart, h.blockindex, h.PDflag]
  split
  . rfl
  . split <;> rfl

end SameChecks

namespace State

variable {s s' : State} {id c : Paddr}

/--
The current partition designates its child `c` by the local id.
-/
structure DesignatesChild (s : State) (id c : Paddr) : Prop where
  isChild : (checkChildOfCurrPart s.currentPartition id s).1 = true
  startAddr : (s.blockEntries.get id).startAddr = c

theorem DesignatesChild.congr (h : s.DesignatesChild id c) (hsame : SameChecks s s')
    : s'.DesignatesChild id c := by
  constructor
  . rw [hsame.currentPartition, hsame.checkChildOfCurrPart_eq]
    exact h.isChild
  . rw [hsame.startAddr]
    exact h.startAddr

/--
The word of the kernel structure that holds the entry at `id`.
-/
def wordBehind (s : State) (id : Paddr) : Word :=
  let blockindex := (s.blockEntries.get id).blockindex
  (readStructureWord (id - blockindex * sizeofBlockEntry)
    (blockindex * sizeofBlockEntry + interruptStateOffset) s).1

theorem getIntState_designatesChild (h : s.DesignatesChild id c) : (getIntState id s).1 = s.wordBehind id := by
  unfold getIntState readBlockIndexFromBlockEntryAddr readBlockField getCurPartition wordBehind
  simp only [LLI.bind_run, LLI.ite_run, LLI.gets_run, LLI.pure_run, checkChildOfCurrPart_state, h.isChild,
    getKernelStructureStartAddr, Bool.not_true, Bool.false_eq_true, if_false]

end State

/-
The bytes of a structure
-/

theorem wordByte_add_self (w i : Nat) : wordByte (w + 256 ^ i) i ≠ wordByte w i := by
  unfold wordByte
  rw [Nat.add_div_right _ (Nat.pow_pos (by decide))]
  omega

theorem wordByte_add_of_lt (w : Nat) {i j : Nat} (h : j < i) : wordByte (w + 256 ^ i) j = wordByte w j := by
  unfold wordByte
  obtain ⟨k, rfl⟩ := Nat.exists_eq_add_of_lt h
  rw [Nat.pow_succ, Nat.pow_add, Nat.mul_assoc, Nat.add_mul_div_left _ _ (Nat.pow_pos (by decide)),
    Nat.add_mul_mod_self_right]

section Bytes

variable {s : State} {k e j : Nat}

theorem structureByte_block (he : e < 8) (hj : j < 17)
    : s.structureByte k (17 * e + j) = (s.blockEntries.get (k + 17 * e)).byte j := by
  have hlt : 17 * e + j < sh1Offset := by
    show _ < 136
    omega
  have hdiv : (17 * e + j) / sizeofBlockEntry * sizeofBlockEntry = 17 * e := by
    show (17 * e + j) / 17 * 17 = _
    omega
  have hmod : (17 * e + j) % sizeofBlockEntry = j := by
    show (17 * e + j) % 17 = _
    omega
  unfold State.structureByte
  rw [if_pos hlt, hdiv, hmod]

theorem structureByte_sh1 (he : e < 8) (hj : j < 9)
    : s.structureByte k (136 + 9 * e + j) = (s.sh1Entries.get (k + 136 + 9 * e)).byte j := by
  have hge : ¬136 + 9 * e + j < sh1Offset := by
    show ¬_ < 136
    omega
  have hlt : 136 + 9 * e + j < scOffset := by
    show _ < 208
    omega
  have hdiv : (136 + 9 * e + j - sh1Offset) / sizeofSh1Entry * sizeofSh1Entry = 9 * e := by
    show (136 + 9 * e + j - 136) / 9 * 9 = _
    omega
  have hmod : (136 + 9 * e + j - sh1Offset) % sizeofSh1Entry = j := by
    show (136 + 9 * e + j - 136) % 9 = _
    omega
  unfold State.structureByte
  rw [if_neg hge, if_pos hlt]
  simp only [hdiv, hmod]
  rfl

theorem structureByte_sc (he : e < 8) (hj : j < 8)
    : s.structureByte k (208 + 8 * e + j) = (s.scEntries.get (k + 208 + 8 * e)).byte j := by
  have hge : ¬208 + 8 * e + j < sh1Offset := by
    show ¬_ < 136
    omega
  have hge' : ¬208 + 8 * e + j < scOffset := by
    show ¬_ < 208
    omega
  have hlt : 208 + 8 * e + j < nextOffset := by
    show _ < 272
    omega
  have hdiv : (208 + 8 * e + j - scOffset) / sizeofSCEntry * sizeofSCEntry = 8 * e := by
    show (208 + 8 * e + j - 208) / 8 * 8 = _
    omega
  have hmod : (208 + 8 * e + j - scOffset) % sizeofSCEntry = j := by
    show (208 + 8 * e + j - 208) % 8 = _
    omega
  unfold State.structureByte
  rw [if_neg hge, if_neg hge', if_pos hlt]
  simp only [hdiv, hmod]
  rfl

theorem structureByte_behind {offset : Nat} (h : 276 ≤ offset)
    : s.structureByte k offset = s.bytes.get (k + offset) % 256 := by
  have hge : ¬offset < sh1Offset := by
    show ¬_ < 136
    omega
  have hge' : ¬offset < scOffset := by
    show ¬_ < 208
    omega
  have hge'' : ¬offset < nextOffset := by
    show ¬_ < 272
    omega
  have hlt : ¬offset < sizeofKStructure := by
    show ¬_ < 276
    omega
  unfold State.structureByte
  rw [if_neg hge, if_neg hge', if_neg hge'', if_neg hlt]

end Bytes

/-
Entries that differ in a byte
-/

theorem BlockEntry.exists_raised (old : BlockEntry) {b : Nat} (hb : b < 4)
    : ∃ new : BlockEntry, new.present = old.present ∧ new.blockindex = old.blockindex
        ∧ new.startAddr = old.startAddr ∧ (∀ j < 4 + b, new.byte j = old.byte j)
        ∧ new.byte (4 + b) ≠ old.byte (4 + b) := by
  refine ⟨{ old with endAddr := old.endAddr + 256 ^ b }, rfl, rfl, rfl, fun j hj => ?_, ?_⟩
  . unfold BlockEntry.byte
    by_cases h : j < 4
    . rw [if_pos h, if_pos h]
    . rw [if_neg h, if_neg h, if_pos (by omega), if_pos (by omega)]
      exact wordByte_add_of_lt _ (by omega)
  . unfold BlockEntry.byte
    rw [if_neg (by omega), if_pos (by omega), if_neg (by omega), if_pos (by omega), Nat.add_sub_cancel_left]
    exact wordByte_add_self _ _

theorem Sh1Entry.exists_raised (old : Sh1Entry) {b : Nat} (hb : b < 8)
    : ∃ new : Sh1Entry, new.PDflag = old.PDflag ∧ (∀ j < b, new.byte j = old.byte j)
        ∧ new.byte b ≠ old.byte b := by
  by_cases h4 : b < 4
  . refine ⟨{ old with PDchild := old.PDchild + 256 ^ b }, rfl, fun j hj => ?_, ?_⟩
    . unfold Sh1Entry.byte
      rw [if_pos (by omega), if_pos (by omega)]
      exact wordByte_add_of_lt _ hj
    . unfold Sh1Entry.byte
      rw [if_pos h4, if_pos h4]
      exact wordByte_add_self _ _
  . refine ⟨{ old with inChildLocation := old.inChildLocation + 256 ^ (b - 4) }, rfl, fun j hj => ?_, ?_⟩
    . unfold Sh1Entry.byte
      by_cases h : j < 4
      . rw [if_pos h, if_pos h]
      . rw [if_neg h, if_neg h, if_pos (by omega), if_pos (by omega)]
        exact wordByte_add_of_lt _ (by omega)
    . unfold Sh1Entry.byte
      rw [if_neg h4, if_pos hb, if_neg h4, if_pos hb]
      exact wordByte_add_self _ _

theorem SCEntry.exists_raised (old : SCEntry) {b : Nat} (hb : b < 4)
    : ∃ new : SCEntry, (∀ j < b, new.byte j = old.byte j) ∧ new.byte b ≠ old.byte b := by
  refine ⟨{ old with origin := old.origin + 256 ^ b }, fun j hj => ?_, ?_⟩
  . unfold SCEntry.byte
    rw [if_pos (by omega), if_pos (by omega)]
    exact wordByte_add_of_lt _ hj
  . unfold SCEntry.byte
    rw [if_pos hb, if_pos hb]
    exact wordByte_add_self _ _

/-
A byte that the descriptors do not hold
-/

/--
The byte at the offset `o` of the structure is another one, those before it are the same, and neither the
descriptors nor the check of a child see the difference.
-/
structure Raises (k o : Nat) (s s' : State) : Prop where
  checks : SameChecks s s'
  pdtables : s'.pdtables = s.pdtables
  below : ∀ j < o, s'.structureByte k j = s.structureByte k j
  raised : s'.structureByte k o ≠ s.structureByte k o

section Raises

variable {k e b : Nat} (s : State)

theorem raises_block (he : e < 8) (hb : b < 4) : ∃ s', Raises k (17 * e + (4 + b)) s s' := by
  rcases (s.blockEntries.get (k + 17 * e)).exists_raised hb
    with ⟨new, hpresent, hindex, hstart, hbelow, hraised⟩
  have hfield : ∀ {α : Type} (field : BlockEntry → α), field new = field (s.blockEntries.get (k + 17 * e)) →
      ∀ a, field ((s.blockEntries.set (k + 17 * e) new).get a) = field (s.blockEntries.get a) := by
    intro α field hsame a
    rw [Mem.get_set]
    split
    . next ha => rw [hsame, ha]
    . rfl
  refine ⟨{ s with blockEntries := s.blockEntries.set (k + 17 * e) new }, ?_, rfl, fun j hj => ?_, ?_⟩
  . exact ⟨rfl, fun _ => rfl, rfl, hfield _ hpresent, hfield _ hindex, hfield _ hstart, fun _ => rfl⟩
  . obtain ⟨e', b', he', hb', rfl⟩ : ∃ e' b', e' < 8 ∧ b' < 17 ∧ j = 17 * e' + b' :=
      ⟨j / 17, j % 17, by omega, by omega, by omega⟩
    rw [structureByte_block he' hb', structureByte_block he' hb', Mem.get_set]
    split
    . next ha => rw [hbelow b' (by omega), ha]
    . rfl
  . rw [structureByte_block he (by omega), structureByte_block he (by omega), Mem.get_set, if_pos rfl]
    exact hraised

theorem raises_sh1 (he : e < 8) (hb : b < 8) : ∃ s', Raises k (136 + 9 * e + b) s s' := by
  rcases (s.sh1Entries.get (k + 136 + 9 * e)).exists_raised hb with ⟨new, hflag, hbelow, hraised⟩
  refine ⟨{ s with sh1Entries := s.sh1Entries.set (k + 136 + 9 * e) new }, ?_, rfl, fun j hj => ?_, ?_⟩
  . refine ⟨rfl, fun _ => rfl, rfl, fun _ => rfl, fun _ => rfl, fun _ => rfl, fun a => ?_⟩
    rw [Mem.get_set]
    split
    . next ha => rw [hflag, ha]
    . rfl
  . by_cases hregion : j < 136
    . obtain ⟨e', b', he', hb', rfl⟩ : ∃ e' b', e' < 8 ∧ b' < 17 ∧ j = 17 * e' + b' :=
        ⟨j / 17, j % 17, by omega, by omega, by omega⟩
      rw [structureByte_block he' hb', structureByte_block he' hb']
    . obtain ⟨e', b', he', hb', rfl⟩ : ∃ e' b', e' < 8 ∧ b' < 9 ∧ j = 136 + 9 * e' + b' :=
        ⟨(j - 136) / 9, (j - 136) % 9, by omega, by omega, by omega⟩
      rw [structureByte_sh1 he' hb', structureByte_sh1 he' hb', Mem.get_set]
      split
      . next ha => rw [hbelow b' (by omega), ha]
      . rfl
  . rw [structureByte_sh1 he (by omega), structureByte_sh1 he (by omega), Mem.get_set, if_pos rfl]
    exact hraised

theorem raises_sc (he : e < 8) (hb : b < 4) : ∃ s', Raises k (208 + 8 * e + b) s s' := by
  rcases (s.scEntries.get (k + 208 + 8 * e)).exists_raised hb with ⟨new, hbelow, hraised⟩
  refine ⟨{ s with scEntries := s.scEntries.set (k + 208 + 8 * e) new }, ?_, rfl, fun j hj => ?_, ?_⟩
  . exact ⟨rfl, fun _ => rfl, rfl, fun _ => rfl, fun _ => rfl, fun _ => rfl, fun _ => rfl⟩
  . by_cases hregion : j < 136
    . obtain ⟨e', b', he', hb', rfl⟩ : ∃ e' b', e' < 8 ∧ b' < 17 ∧ j = 17 * e' + b' :=
        ⟨j / 17, j % 17, by omega, by omega, by omega⟩
      rw [structureByte_block he' hb', structureByte_block he' hb']
    . by_cases hregion : j < 208
      . obtain ⟨e', b', he', hb', rfl⟩ : ∃ e' b', e' < 8 ∧ b' < 9 ∧ j = 136 + 9 * e' + b' :=
          ⟨(j - 136) / 9, (j - 136) % 9, by omega, by omega, by omega⟩
        rw [structureByte_sh1 he' hb', structureByte_sh1 he' hb']
      . obtain ⟨e', b', he', hb', rfl⟩ : ∃ e' b', e' < 8 ∧ b' < 8 ∧ j = 208 + 8 * e' + b' :=
          ⟨(j - 208) / 8, (j - 208) % 8, by omega, by omega, by omega⟩
        rw [structureByte_sc he' hb', structureByte_sc he' hb', Mem.get_set]
        split
        . next ha => rw [hbelow b' (by omega), ha]
        . rfl
  . rw [structureByte_sc he (by omega), structureByte_sc he (by omega), Mem.get_set, if_pos rfl]
    exact hraised

theorem raises_behind {o : Nat} (ho : 276 ≤ o) : ∃ s', Raises k o s s' := by
  refine ⟨{ s with bytes := s.bytes.set (k + o) (s.bytes.get (k + o) + 1) }, ?_, rfl, fun j hj => ?_, ?_⟩
  . exact ⟨rfl, fun _ => rfl, rfl, fun _ => rfl, fun _ => rfl, fun _ => rfl, fun _ => rfl⟩
  . by_cases hregion : j < 276
    . unfold State.structureByte
      simp only [show j < sizeofKStructure from hregion, if_true]
    . rw [structureByte_behind (by omega), structureByte_behind (by omega), Mem.get_set,
        if_neg (by omega)]
  . rw [structureByte_behind ho, structureByte_behind ho, Mem.get_set, if_pos rfl]
    omega

/--
The last byte of the word that is read for the entry `i` can be another one.
-/
theorem exists_raises (k i : Nat) : ∃ s', Raises k (17 * i + 123) s s' := by
  by_cases hi : i < 9
  . have hcases : i = 0 ∨ i = 1 ∨ i = 2 ∨ i = 3 ∨ i = 4 ∨ i = 5 ∨ i = 6 ∨ i = 7 ∨ i = 8 := by omega
    rcases hcases with rfl | rfl | rfl | rfl | rfl | rfl | rfl | rfl | rfl
    . exact raises_block s (e := 7) (b := 0) (by decide) (by decide)
    . exact raises_sh1 s (e := 0) (b := 4) (by decide) (by decide)
    . exact raises_sh1 s (e := 2) (b := 3) (by decide) (by decide)
    . exact raises_sh1 s (e := 4) (b := 2) (by decide) (by decide)
    . exact raises_sh1 s (e := 6) (b := 1) (by decide) (by decide)
    . exact raises_sc s (e := 0) (b := 0) (by decide) (by decide)
    . exact raises_sc s (e := 2) (b := 1) (by decide) (by decide)
    . exact raises_sc s (e := 4) (b := 2) (by decide) (by decide)
    . exact raises_sc s (e := 6) (b := 3) (by decide) (by decide)
  . exact raises_behind s (by omega)

end Raises

/-
The report
-/

namespace State

variable {s : State} {id c : Paddr}

/--
`getIntState` returns the interrupt state that was recorded last for the child, and reads nothing but the
descriptor of the child: on every state with the same descriptor it returns the same.
-/
structure ReportsIntState (s : State) (id c : Paddr) (recorded : Word) : Prop where
  value : (getIntState id s).1 = recorded
  onlyPD : ∀ s' : State, s'.DesignatesChild id c → s'.pdtables.get c = s.pdtables.get c →
    (getIntState id s').1 = recorded

theorem wordBehind_ne {s' : State} (h : Raises (id - (s.blockEntries.get id).blockindex * 17)
    (17 * (s.blockEntries.get id).blockindex + 123) s s') : s'.wordBehind id ≠ s.wordBehind id := by
  have hbelow := fun j hj => h.below (17 * (s.blockEntries.get id).blockindex + 120 + j) hj
  have h0 := hbelow 0 (by omega)
  have h1 := hbelow 1 (by omega)
  have h2 := hbelow 2 (by omega)
  have h3 := h.raised
  have hoffset : ∀ j, (s.blockEntries.get id).blockindex * sizeofBlockEntry + interruptStateOffset + j
      = 17 * (s.blockEntries.get id).blockindex + 120 + j := by
    intro j
    show (s.blockEntries.get id).blockindex * 17 + 120 + j = _
    omega
  have hword : ∀ s₁ : State, (s₁.blockEntries.get id).blockindex = (s.blockEntries.get id).blockindex →
      ∃ f : Nat → Nat, (∀ j, f j = s₁.structureByte (id - (s.blockEntries.get id).blockindex * 17)
          (17 * (s.blockEntries.get id).blockindex + 120 + j))
        ∧ s₁.wordBehind id = f 0 + f 1 * 256 + f 2 * 65536 + f 3 * 16777216 := by
    intro s₁ hindex
    refine ⟨_, fun j => rfl, ?_⟩
    unfold wordBehind readStructureWord
    simp only [LLI.gets_run, hindex, ← hoffset, Nat.add_zero]
    rfl
  rcases hword s rfl with ⟨f, hf, hs⟩
  rcases hword s' (h.checks.blockindex id) with ⟨f', hf', hs'⟩
  have e0 : f' 0 = f 0 := by rw [hf, hf']; exact h0
  have e1 : f' 1 = f 1 := by rw [hf, hf']; exact h1
  have e2 : f' 2 = f 2 := by rw [hf, hf']; exact h2
  have e3 : f' 3 ≠ f 3 := by rw [hf, hf']; exact h3
  intro heq
  have heq : f' 0 + f' 1 * 256 + f' 2 * 65536 + f' 3 * 16777216
      = f 0 + f 1 * 256 + f 2 * 65536 + f 3 * 16777216 := hs'.symm.trans (heq.trans hs)
  omega

/--
Whatever was recorded for the child, and whatever state the kernel is in.
-/
theorem not_reportsIntState (h : s.DesignatesChild id c) (recorded : Word) : ¬s.ReportsIntState id c recorded := by
  intro hreports
  rcases exists_raises s (id - (s.blockEntries.get id).blockindex * 17) (s.blockEntries.get id).blockindex
    with ⟨s', hraises⟩
  have h' := h.congr hraises.checks
  apply wordBehind_ne hraises
  have hvalue := hreports.value
  have hother := hreports.onlyPD s' h' (by rw [hraises.pdtables])
  rw [getIntState_designatesChild h] at hvalue
  rw [getIntState_designatesChild h'] at hother
  rw [hother, hvalue]

end State

/-
The child sets its interrupt state to 1 and is interrupted, the root asks for it.
-/

def afterInterrupt : Machine :=
  (Interrupt_Handler_C 0x20002f00 17 (setIntState 1 (childRuns 0x20002a00)).2).2

theorem not_reportsIntState_childRuns : ¬afterInterrupt.state.ReportsIntState 0x20000111 0x20002000 1 :=
  State.not_reportsIntState ⟨by decide +kernel, by decide +kernel⟩ 1

/--
The interrupt state 1 is recorded in the descriptor of the child, the root gets the word in the middle of
its own kernel structure.
-/
theorem getIntState_misses
    : (checkChildOfCurrPart afterInterrupt.state.currentPartition 0x20000111 afterInterrupt.state).1 = true
        ∧ (afterInterrupt.state.blockEntries.get 0x20000111).startAddr = 0x20002000
        ∧ (afterInterrupt.state.pdtables.get 0x20002000).interruptState = 1
        ∧ (getIntState 0x20000111 afterInterrupt.state).1 = 0 := by
  decide +kernel
