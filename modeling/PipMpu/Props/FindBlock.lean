import PipMpu.Core.FindBlock
import PipMpu.Props.Removal

/-!
This module contains what `findBlock` finds and where it writes. The service looks for the block of the buffer in the
partition that is queried and not in its caller, so that a query about a child never succeeds, and it checks that the
buffer starts in a block of the caller but not that the whole record fits in there.
-/

/--
The bytes of the record about the entry at `blockSource`.
-/
def attrBytes (blockSource : Paddr) (entry : BlockEntry) : List Nat :=
  let word (value : Nat) : List Nat := [value % 256, value / 256 % 256, value / 65536 % 256, value / 16777216 % 256]
  let bool (value : Bool) : Nat := if value then 1 else 0
  word blockSource ++ word entry.startAddr ++ word entry.endAddr
    ++ [bool entry.read, bool entry.write, bool entry.exec, bool entry.accessible]

def sizeofBlockAttr : Nat := 16

theorem copyBlock_bytes (blockTarget blockSource : Nat) (s : State)
    : (copyBlock blockTarget blockSource s).2
        =
      { s with bytes := s.bytes.setList blockTarget (attrBytes blockSource (s.blockEntries.get blockSource)) } := by
  rfl

namespace State

/--
What the argument `idPD` of a call by the current partition stands for: its own descriptor, or the block of the
descriptor of a child.
-/
def Designates (s : State) (idPD t : Nat) : Prop :=
  (idPD = s.currentPartition ∧ t = s.currentPartition)
    ∨ (idPD ≠ s.currentPartition ∧ s.HasBlock s.currentPartition idPD ∧ (s.slotOf idPD).PDflag = true
      ∧ t = (s.slotOf idPD).startAddr)

/--
The address `x` lies in the present block `a` of `p`.
-/
structure Covers (s : State) (p a x : Nat) : Prop where
  has : s.HasBlock p a
  mem_range : x ∈ (s.slotOf a).range

/--
The address lies in a block of the current partition into which the partition may write itself.
-/
structure Buffer (s : State) (r x : Nat) : Prop extends s.Covers s.currentPartition r x where
  accessible : (s.slotOf r).accessible = true
  read : (s.slotOf r).read = true
  write : (s.slotOf r).write = true

end State

namespace Sim

variable {s : State} {C : Conf}

theorem covers_iff (h : Sim s C) {p a x : Nat} (hp : C.Live p)
    : s.Covers p a x ↔ C.Has p a ∧ x ∈ (C.slot a).range := by
  constructor
  . rintro ⟨hblock, hx⟩
    have ha := (h.hasBlock_iff hp).mp hblock
    exact ⟨ha, h.slotOf_eq ha.1 ▸ hx⟩
  . rintro ⟨ha, hx⟩
    exact ⟨(h.hasBlock_iff hp).mpr ha, (h.slotOf_eq ha.1).symm ▸ hx⟩

theorem covers_unique (h : Sim s C) (hC : C.Static) {a b x : Nat} (ha : s.Covers s.currentPartition a x)
    (hb : s.Covers s.currentPartition b x) : a = b := by
  rw [h.cur] at ha hb
  have ha' := (h.covers_iff hC.cur_live).mp ha
  have hb' := (h.covers_iff hC.cur_live).mp hb
  exact hC.eq_of_mem_range ha'.1 hb'.1 ha'.2 hb'.2

theorem live_of_designates (h : Sim s C) (hC : C.Static) {idPD t : Nat} (ht : s.Designates idPD t) : C.Live t := by
  rcases ht with ⟨-, rfl⟩ | ⟨-, hblock, hflag, rfl⟩
  . exact h.cur.symm ▸ hC.cur_live
  . rw [h.cur] at hblock
    have ha := (h.hasBlock_iff hC.cur_live).mp hblock
    rw [h.slotOf_eq ha.1] at hflag ⊢
    exact (hC.flag_kind _ _ ha hflag).2.2.1

theorem run_getGlobalIdPD_designates (h : Sim s C) (hC : C.Static) {idPD t : Nat} (ht : s.Designates idPD t)
    : getGlobalIdPDCurrentOrChild C.cur idPD s = (t, s) := by
  unfold getGlobalIdPDCurrentOrChild getBeqAddr
  simp only [LLI.bind_run, LLI.pure_run, LLI.ite_run, beqAddr_eq, decide_eq_true_eq]
  rw [← h.cur]
  rcases ht with ⟨hself, rfl⟩ | ⟨hne, hblock, hflag, rfl⟩
  . rw [if_pos hself]
  . rw [if_neg hne]
    rw [h.cur] at hblock ⊢
    have ha := (h.hasBlock_iff hC.cur_live).mp hblock
    rw [h.slotOf_eq ha.1] at hflag ⊢
    unfold checkChildOfCurrPart
    simp only [LLI.bind_run, h.run_findWithAddr_some hC.sep ha, compareAddrToNull_run, hC.owns_ne_zero ha.1,
      decide_false, Bool.false_eq_true, if_false, h.run_readPDFlag ha.1, hflag, Bool.not_true, LLI.ite_run,
      LLI.pure_run, if_true, h.run_readStart ha.1]

theorem run_getGlobalIdPD_cases (h : Sim s C) (hC : C.Static) (idPD : Nat)
    : (∃ t : Nat, s.Designates idPD t) ∨ getGlobalIdPDCurrentOrChild C.cur idPD s = (0, s) := by
  by_cases hself : idPD = s.currentPartition
  . exact .inl ⟨_, .inl ⟨hself, rfl⟩⟩
  . rcases h.run_checkChild hC hC.cur_live idPD with ⟨ha, hflag, -⟩ | hrun
    . refine .inl ⟨_, .inr ⟨hself, ?_, ?_, rfl⟩⟩
      . rw [h.cur]
        exact (h.hasBlock_iff hC.cur_live).mpr ha
      . rw [h.slotOf_eq ha.1]
        exact hflag
    . right
      unfold getGlobalIdPDCurrentOrChild getBeqAddr
      simp only [LLI.bind_run, LLI.pure_run, LLI.ite_run, beqAddr_eq, decide_eq_true_eq]
      rw [← h.cur] at hrun ⊢
      rw [if_neg hself, hrun]
      rfl

theorem buffer_iff (h : Sim s C) (hC : C.Static) {r x : Nat}
    : s.Buffer r x
        ↔
      (C.Has C.cur r ∧ x ∈ (C.slot r).range) ∧ (C.slot r).accessible = true ∧ (C.slot r).read = true
        ∧ (C.slot r).write = true := by
  have hcovers := h.covers_iff (a := r) (x := x) hC.cur_live
  rw [← hcovers]
  constructor
  . rintro ⟨hx, haccessible, hread, hwrite⟩
    rw [h.cur] at hx
    have hr := (hcovers.mp hx).1
    rw [h.slotOf_eq hr.1] at haccessible hread hwrite
    exact ⟨hx, haccessible, hread, hwrite⟩
  . rintro ⟨hx, haccessible, hread, hwrite⟩
    have hr := (hcovers.mp hx).1
    rw [← h.slotOf_eq hr.1] at haccessible hread hwrite
    exact ⟨h.cur.symm ▸ hx, haccessible, hread, hwrite⟩

/--
A query succeeds if it finds the block, and the buffer in the same partition and among the blocks of the caller.
-/
theorem run_findBlock_designates (h : Sim s C) (hC : C.Static) {idPD t : Nat} (ht : s.Designates idPD t)
    (addrInBlock blockResult : Nat)
    : (∃ b r, C.Has t b ∧ addrInBlock ∈ (C.slot b).range ∧ C.Has t r ∧ s.Buffer r blockResult
          ∧ findBlock idPD addrInBlock blockResult s = (true, (copyBlock blockResult b s).2))
        ∨ (findBlock idPD addrInBlock blockResult s = (false, s)
          ∧ ¬∃ b r, C.Has t b ∧ addrInBlock ∈ (C.slot b).range ∧ C.Has t r ∧ s.Buffer r blockResult) := by
  have hlive := h.live_of_designates hC ht
  have hne := hC.live_ne_zero hlive
  unfold findBlock
  simp only [LLI.bind_run, h.run_getCurPartition, h.run_getGlobalIdPD_designates hC ht, compareAddrToNull_run, hne,
    decide_false, Bool.false_eq_true, if_false]
  by_cases hb : ∃ b, C.Has t b ∧ addrInBlock ∈ (C.slot b).range
  case neg =>
    rw [h.run_findBelonging_none hC.sep hlive (fun b hb' haddr => hb ⟨b, hb', haddr⟩)]
    exact .inr ⟨rfl, fun ⟨b, r, hb', haddr, _⟩ => hb ⟨b, hb', haddr⟩⟩
  rcases hb with ⟨b, hb, haddr⟩
  simp only [LLI.bind_run, h.run_findBelonging_some hC.sep hb haddr, compareAddrToNull_run, hC.owns_ne_zero hb.1,
    decide_false, Bool.false_eq_true, if_false]
  by_cases hr : ∃ r, C.Has t r ∧ blockResult ∈ (C.slot r).range
  case neg =>
    rw [h.run_findBelonging_none hC.sep hlive (fun r hr' hresult => hr ⟨r, hr', hresult⟩)]
    refine .inr ⟨rfl, fun ⟨b, r, _, _, hr', hbuffer⟩ => hr ⟨r, hr', ?_⟩⟩
    exact ((h.buffer_iff hC).mp hbuffer).1.2
  rcases hr with ⟨r, hr, hresult⟩
  have hsame : ∀ r', C.Has t r' → s.Buffer r' blockResult → r' = r :=
    fun r' hr' hbuffer => hC.eq_of_mem_range hr' hr ((h.buffer_iff hC).mp hbuffer).1.2 hresult
  simp only [LLI.bind_run, h.run_findBelonging_some hC.sep hr hresult, compareAddrToNull_run, hC.owns_ne_zero hr.1,
    decide_false, Bool.false_eq_true, if_false]
  by_cases hcur : C.Has C.cur r
  case neg =>
    rw [h.run_findWithAddr_none hC.sep hC.cur_live hcur]
    refine .inr ⟨rfl, fun ⟨_, r', _, _, hr', hbuffer⟩ => hcur ?_⟩
    rw [← hsame r' hr' hbuffer]
    exact ((h.buffer_iff hC).mp hbuffer).1.1
  simp only [LLI.bind_run, h.run_findWithAddr_some hC.sep hcur, hC.owns_ne_zero hr.1, decide_false,
    Bool.false_eq_true, if_false, h.run_readAccessible hr.1, h.run_readR hr.1, h.run_readW hr.1, LLI.bind_run,
    LLI.ite_run, LLI.pure_run]
  by_cases hrights : (C.slot r).accessible = true ∧ (C.slot r).read = true ∧ (C.slot r).write = true
  . rcases hrights with ⟨haccessible, hread, hwrite⟩
    refine .inl ⟨b, r, hb, haddr, hr, (h.buffer_iff hC).mpr ⟨⟨hcur, hresult⟩, haccessible, hread, hwrite⟩, ?_⟩
    simp only [haccessible, hread, hwrite, Bool.not_true, Bool.false_eq_true, if_false]
  . refine .inr ⟨?_, fun ⟨_, r', _, _, hr', hbuffer⟩ => hrights ?_⟩
    . grind
    . rw [← hsame r' hr' hbuffer]
      exact ((h.buffer_iff hC).mp hbuffer).2

end Sim

namespace State

end State

theorem State.booted_wellFormed : State.booted.WellFormed :=
  ServiceCall.wellFormed_of_reachable ServiceCall.reachable_booted

/--
Some content of the memory of the partitions is changed at the address `x`.
-/
def LLI.WritesByte {α : Type} (op : LLI α) (s : State) (x : Nat) : Prop :=
  ∃ bytes, (op { s with bytes := bytes }).2.bytes.get x ≠ bytes.get x

/--
Every byte that the query writes lies in the block of the buffer, and so neither in kernel data nor in a partition that
is not above or below the caller.
-/
structure State.CopyConfined (s : State) (idPD addrInBlock blockResult : Nat) : Prop where
  inside : ∀ x, (findBlock idPD addrInBlock blockResult).WritesByte s x →
    ∃ r, s.Buffer r blockResult ∧ x ∈ (s.slotOf r).range
  descriptor : ∀ x, (findBlock idPD addrInBlock blockResult).WritesByte s x → ∀ p, s.Partition p → x ∉ pdRange p
  kernelStructure : ∀ x, (findBlock idPD addrInBlock blockResult).WritesByte s x → ∀ p k, s.Partition p →
    LinkReach s.nextStructure (s.pdtables.get p).structurePtr k → x ∉ structureRange k
  others : ∀ x, (findBlock idPD addrInBlock blockResult).WritesByte s x → ∀ p a, s.Partition p → s.Covers p a x →
    s.Below p s.currentPartition ∨ s.Below s.currentPartition p

namespace Sim

variable {s : State} {C : Conf}

theorem setBytes (h : Sim s C) (bytes : Mem Nat) : Sim { s with bytes := bytes } C :=
  ⟨h.cur, h.root, h.parent, h.structures, h.free, h.nbfreeslots, h.nbprepare, h.blockindex, h.slot⟩

/--
A query that succeeds copies the record about a block of the caller, whatever the memory of the partitions holds.
-/
theorem run_findBlock_accepted (h : Sim s C) (hC : C.Static) {idPD addrInBlock blockResult : Nat}
    (hrun : (findBlock idPD addrInBlock blockResult s).1 = true)
    : ∃ b r, s.Buffer r blockResult
        ∧ ∀ bytes, findBlock idPD addrInBlock blockResult { s with bytes := bytes }
            = (true, (copyBlock blockResult b { s with bytes := bytes }).2) := by
  rcases h.run_getGlobalIdPD_cases hC idPD with ⟨t, ht⟩ | hnull
  . rcases h.run_findBlock_designates hC ht addrInBlock blockResult with
      ⟨b, r, hb, haddr, hr, hbuffer, -⟩ | ⟨hfalse, -⟩
    . refine ⟨b, r, hbuffer, fun bytes => ?_⟩
      rcases (h.setBytes bytes).run_findBlock_designates hC ht addrInBlock blockResult with
        ⟨b', r', hb', haddr', -, -, hrun'⟩ | ⟨-, hnot⟩
      . rw [← hC.eq_of_mem_range hb' hb haddr' haddr]
        exact hrun'
      . have hbuffer' := ((h.setBytes bytes).buffer_iff hC).mpr ((h.buffer_iff hC).mp hbuffer)
        exact absurd ⟨b, r, hb, haddr, hr, hbuffer'⟩ hnot
    . rw [hfalse] at hrun
      exact absurd hrun (by simp)
  . unfold findBlock at hrun
    simp only [LLI.bind_run, h.run_getCurPartition, hnull, compareAddrToNull_run, decide_true, if_true] at hrun
    exact absurd hrun (by simp)

/--
The bytes that a query writes are those of the record.
-/
theorem writesByte_findBlock_iff (h : Sim s C) (hC : C.Static) {idPD addrInBlock blockResult : Nat}
    (hrun : (findBlock idPD addrInBlock blockResult s).1 = true) (x : Nat)
    : (findBlock idPD addrInBlock blockResult).WritesByte s x
        ↔
      (blockResult ≤ x ∧ x < blockResult + sizeofBlockAttr) := by
  rcases h.run_findBlock_accepted hC hrun with ⟨b, r, -, hcopy⟩
  have hget : ∀ bytes : Mem Nat, (findBlock idPD addrInBlock blockResult { s with bytes := bytes }).2.bytes.get x
      = if blockResult ≤ x ∧ x < blockResult + sizeofBlockAttr then
          (attrBytes b (s.blockEntries.get b)).getD (x - blockResult) 0
        else
          bytes.get x := by
    intro bytes
    rw [hcopy, copyBlock_bytes]
    exact bytes.get_setList blockResult _ x
  unfold LLI.WritesByte
  simp only [hget]
  constructor
  . rintro ⟨bytes, hne⟩
    by_contra hout
    rw [if_neg hout] at hne
    exact hne rfl
  . intro hin
    refine ⟨s.bytes.set x ((attrBytes b (s.blockEntries.get b)).getD (x - blockResult) 0 + 1), ?_⟩
    rw [if_pos hin, Mem.get_set_self]
    omega

/--
Partitions whose blocks overlap lie on one path of the tree.
-/
theorem below_of_overlap (h : Sim s C) (hC : C.Static) {p q a b x : Nat} (ha : C.Has p a) (hb : C.Has q b)
    (hlevel : C.depth q ≤ C.depth p) (hxa : x ∈ (C.slot a).range) (hxb : x ∈ (C.slot b).range) : s.Below q p := by
  have hbelow : ∀ p', C.Has p' a → s.Below q p' := by
    refine hC.nest.inherit (P := fun a => ∀ p', C.Has p' a → s.Below q p') ?_ ha hb hlevel hxa hxb ?_
    . intro p a B ha hp hB _ _ ih p' ha'
      rw [hC.has_unique ha' ha]
      rcases hC.pd_house p ha.live hp with ⟨H, hH, hflag, hstart, -⟩
      have hchild := State.Below.child (ih _ hB) ((h.hasBlock_iff hH.live).mpr hH) ((h.slotOf_eq hH.1).symm ▸ hflag)
      rw [h.slotOf_eq hH.1, hstart] at hchild
      exact hchild
    . intro p' hb'
      rw [hC.has_unique hb' hb]
      exact .self
  exact hbelow p ha

end Sim

/--
The privileged copy stays in the block of the buffer exactly if the record fits between the address of the buffer and
the end of that block.
-/
theorem findBlock_copyConfined_iff {s : State} {idPD addrInBlock blockResult : Nat} (hs : s.WellFormed)
    (hrun : (findBlock idPD addrInBlock blockResult s).1 = true)
    : s.CopyConfined idPD addrInBlock blockResult
        ↔
      ∀ r, s.Covers s.currentPartition r blockResult → blockResult + sizeofBlockAttr ≤ (s.slotOf r).endAddr := by
  rcases hs with ⟨C, h, hC⟩
  have hS := hC.static
  have hwrites := h.writesByte_findBlock_iff hS hrun
  rcases h.run_findBlock_accepted hS hrun with ⟨-, r, hbuffer, -⟩
  rcases (h.buffer_iff hS).mp hbuffer with ⟨⟨hr, hresult⟩, haccessible, -, -⟩
  have hcovers : ∀ r', s.Covers s.currentPartition r' blockResult → r' = r :=
    fun r' hr' => h.covers_unique hS hr' hbuffer.toCovers
  constructor
  . intro hok r' hr'
    rw [hcovers r' hr']
    -- the last byte of the record
    have hlast := (hwrites (blockResult + 15)).mpr (by unfold sizeofBlockAttr; omega)
    rcases hok.inside _ hlast with ⟨r₁, hbuffer₁, hmem⟩
    rw [hcovers r₁ hbuffer₁.toCovers] at hmem
    have := hmem.2
    unfold sizeofBlockAttr
    omega
  . intro hfits
    have hfit := hfits r hbuffer.toCovers
    rw [h.slotOf_eq hr.1] at hfit
    have hmem : ∀ x, (findBlock idPD addrInBlock blockResult).WritesByte s x → x ∈ (C.slot r).range := by
      intro x hx
      have hrange := (hwrites x).mp hx
      have := hresult.1
      constructor <;> omega
    constructor
    . intro x hx
      exact ⟨r, hbuffer, (h.slotOf_eq hr.1).symm ▸ hmem x hx⟩
    . intro x hx p hp hpd
      exact hC.pd_notMem_accessible hr haccessible (h.live_of_partition hS hp) hpd (hmem x hx)
    . intro x hx p k hp hk hks
      have hlive := h.live_of_partition hS hp
      exact hC.structure_notMem_accessible hr haccessible hlive (((h.structures p hlive).mem_iff_reach k).mpr hk) hks
        (hmem x hx)
    . intro x hx p a hp hcov
      have ha := (h.covers_iff (h.live_of_partition hS hp)).mp hcov
      rw [h.cur]
      by_cases hlevel : C.depth p ≤ C.depth C.cur
      . exact .inl (h.below_of_overlap hS hr ha.1 hlevel (hmem x hx) ha.2)
      . exact .inr (h.below_of_overlap hS ha.1 hr (by omega) ha.2 (hmem x hx))

theorem State.booted_hasBlock : State.booted.HasBlock State.booted.currentPartition 0x2000F111 := by
  apply State.hasBlock_of_first <;> decide +kernel

theorem findBlock_copyConfined_booted
    : State.booted.CopyConfined State.booted.currentPartition 0x20008000 0x20008000 := by
  apply (findBlock_copyConfined_iff State.booted_wellFormed (by decide +kernel)).mpr
  intro r hr
  rcases State.booted_wellFormed with ⟨C, h, hC⟩
  have hrange : 0x20008000 ∈ (State.booted.slotOf 0x2000F111).range := by
    constructor <;> decide +kernel
  rw [h.covers_unique hC.static hr ⟨State.booted_hasBlock, hrange⟩]
  decide +kernel

/--
The block of the buffer is followed by the descriptor of the root, and the last bytes of the record go there.
-/
theorem findBlock_not_copyConfined
    : State.booted.WellFormed
        ∧ (findBlock State.booted.currentPartition 0x20008000 0x2000EFF8 State.booted).1 = true
        ∧ ¬State.booted.CopyConfined State.booted.currentPartition 0x20008000 0x2000EFF8 := by
  have hwell := State.booted_wellFormed
  have hrun : (findBlock State.booted.currentPartition 0x20008000 0x2000EFF8 State.booted).1 = true := by
    decide +kernel
  refine ⟨hwell, hrun, fun hok => ?_⟩
  rcases hwell with ⟨C, h, hC⟩
  have hwrites := (h.writesByte_findBlock_iff hC.static hrun 0x2000F000).mpr (by decide)
  refine hok.descriptor _ hwrites _ .root ?_
  constructor <;> decide +kernel
