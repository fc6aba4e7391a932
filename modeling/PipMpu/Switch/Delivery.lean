import PipMpu.Switch.Runs

/-!
This module contains where interrupts and faults end up: an interrupt reaches the root and a fault the
nearest ancestor that is able to handle it, exactly as long as no save address on the way is misaligned
and no VIDT on the way fails the checks.
-/

theorem resetInitialSp_keeps (context : Paddr) : Keeps SameKernel (resetInitialSp context) := by
  intro m
  unfold resetInitialSp
  simp only [Handler.bind_run, Handler.get_run, Handler.ite_run]
  split <;> rfl

section Retry

variable {m : Machine} {callee caller context : Paddr} {interrupt : Nat} {flagsOnYield flagsOnWake : Word}

end Retry

/--
A root that handles the exceptions 3 and 17, and its only child, which runs. The root has cut its memory
into a part for itself, the descriptor and the structure of the child, and a block it shares with the
child. The child wants to be saved at the given address.
-/
def childRuns (saveAddr : Paddr) : Machine :=
  let pdt : PDTable := default
  let root := 0x20000000
  let child := 0x20002000
  let rootStructure := 0x20000100
  let childStructure := 0x20002400
  let sh1 : Sh1Entry := default
  let words : List (Paddr × Word) :=
    [
      (0x20001010, 0x20001200),
      (0x20001048, 0x20001200),
      (0x20001200, 1),
      (0x20001208, 0x20001f00),
      (0x20002824, saveAddr),
      (0x20002828, saveAddr),
      (0x20002f00, 1)
    ]
  {
      state :=
        {
            currentPartition := child
            constantRootPartM := root
            pdtables :=
              (Mem.empty.set root { pdt with structurePtr := rootStructure, vidtAddr := 0x20001000 }).set child
                { pdt with structurePtr := childStructure, parent := root, vidtAddr := 0x20002800 }
            blockEntries :=
              ((((Mem.empty.set rootStructure (ramBlock 0x20001000 0x20002000 0 true)).set
                (rootStructure + 17) (ramBlock child 0x20002400 1 false)).set
                (rootStructure + 34) (ramBlock childStructure 0x20002800 2 false)).set
                (rootStructure + 51) (ramBlock 0x20002800 0x20003000 3 true)).set
                childStructure (ramBlock 0x20002800 0x20003000 0 true)
            sh1Entries :=
              ((Mem.empty.set (rootStructure + 145) { sh1 with PDflag := true }).set
                (rootStructure + 154) { sh1 with PDchild := child }).set
                (rootStructure + 163) { sh1 with PDchild := child, inChildLocation := childStructure }
            scEntries :=
              ((((Mem.empty.set (rootStructure + 208) ⟨0x20001000, rootStructure + 17⟩).set
                (rootStructure + 216) ⟨0x20001000, rootStructure + 34⟩).set
                (rootStructure + 224) ⟨0x20001000, rootStructure + 51⟩).set
                (rootStructure + 232) ⟨0x20001000, nullAddr⟩).set
                (childStructure + 208) ⟨0x20002800, nullAddr⟩
            nextPointers := Mem.empty
            bytes := words.foldl (fun bytes word => writeWord bytes word.1 word.2) Mem.empty
            mpuRegs := MpuRegs.initial
        }
      basepri := 0
      previousContextUseFpu := false
      stkalign := 1
      fpRegs := List.replicate 33 0
      accesses := []
  }

/-
Interrupts
-/

section Interrupts

variable {m : Machine} {context : Paddr} {currentInterrupt : Nat}

/--
The save index of the interrupted partition.
-/
def State.saveIndex (s : State) : Nat :=
  saveIndexOf (s.pdtables.get s.currentPartition).interruptState

end Interrupts

/-
Faults
-/

namespace State

variable {s : State} {pd : Paddr} {interrupt : Nat}

def parentOf (s : State) (pd : Paddr) : Paddr := (s.pdtables.get pd).parent

/--
The partition is `depth` levels below the root.
-/
def HasDepth (s : State) : Nat → Paddr → Prop
  | 0, pd => pd = s.constantRootPartM
  | depth + 1, pd => pd ≠ s.constantRootPartM ∧ s.HasDepth depth (s.parentOf pd)

theorem HasDepth.unique {d d' : Nat} (h : s.HasDepth d pd) (h' : s.HasDepth d' pd) : d = d' := by
  induction d generalizing d' pd with
  | zero =>
    cases d' with
    | zero => rfl
    | succ d' => exact absurd h h'.1
  | succ d ih =>
    cases d' with
    | zero => exact absurd h' h.1
    | succ d' => rw [ih h.2 h'.2]

end State

section Faults

variable {m : Machine} {pd context : Paddr} {interrupt saveIndex : Nat} {flagOnYield flagOnWake : Word}

theorem getParentPartDescCont_root (h : pd = m.state.constantRootPartM)
    : (getParentPartDescCont pd interrupt saveIndex flagOnYield flagOnWake
        context).Ensures m fun outcome _ => outcome = .returned .calleeIsParentOfRoot := by
  refine .read rfl ?_
  refine .cond (fun _ => rfl) fun hne => absurd h hne

end Faults
