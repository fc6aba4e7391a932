import PipMpu.Refine.Init

/-!
This module contains the rules with which the services are executed step by step: `Ensures m s post`
says that `m` takes the state `s` to a result and a state that meet `post`.
-/

namespace LLI

variable {α β : Type}

def Ensures (m : LLI α) (s : State) (post : α → State → Prop) : Prop := post (m s).1 (m s).2

namespace Ensures

variable {m n : LLI α} {f : α → LLI β} {s : State} {post : α → State → Prop}
  {post' : β → State → Prop}

theorem pure {a : α} (h : post a s) : Ensures (pure a) s post := h

/--
A step whose result is known.
-/
theorem bind {a : α} {s' : State} (hm : m s = (a, s')) (h : Ensures (f a) s' post')
    : Ensures (m >>= f) s post' := by
  unfold Ensures
  rw [LLI.bind_run, hm]
  exact h

/--
A step that only reads the state.
-/
theorem read (hm : (m s).2 = s) (h : Ensures (f (m s).1) s post') : Ensures (m >>= f) s post' := by
  unfold Ensures
  rw [LLI.bind_run, hm]
  exact h

/--
A step of which only the effect on the state is known.
-/
theorem step (P : State → Prop) (hm : P (m s).2)
    (h : ∀ a s', P s' → Ensures (f a) s' post') : Ensures (m >>= f) s post' :=
  h _ _ hm

/--
A step that is known to meet a specification.
-/
theorem step_result {P : α → State → Prop} (hm : Ensures m s P)
    (h : ∀ a s', P a s' → Ensures (f a) s' post') : Ensures (m >>= f) s post' :=
  h _ _ hm

/--
A step that leads from one view to another one.
-/
theorem sim {C' : Conf} (hm : Sim (m s).2 C') (h : ∀ a s', Sim s' C' → Ensures (f a) s' post')
    : Ensures (m >>= f) s post' :=
  h _ _ hm

theorem step_eq {a : α} (P : State → Prop) (hval : (m s).1 = a) (hm : P (m s).2)
    (h : ∀ s', P s' → Ensures (f a) s' post') : Ensures (m >>= f) s post' := by
  unfold Ensures
  rw [LLI.bind_run, hval]
  exact h _ hm

theorem sim_eq {C' : Conf} {a : α} (hval : (m s).1 = a) (hm : Sim (m s).2 C')
    (h : ∀ s', Sim s' C' → Ensures (f a) s' post') : Ensures (m >>= f) s post' :=
  step_eq (Sim · C') hval hm h

theorem cond {c : Prop} [Decidable c] (hthen : c → Ensures m s post)
    (helse : ¬c → Ensures n s post) : Ensures (if c then m else n) s post := by
  split
  . next h => exact hthen h
  . next h => exact helse h

theorem mono {post₂ : α → State → Prop} (h : Ensures m s post) (hpost : ∀ a s', post a s' → post₂ a s')
    : Ensures m s post₂ :=
  hpost _ _ h

end Ensures

end LLI

/--
The state is one of those that abstract transitions from `C` lead to.
-/
def Conf.Follows (C : Conf) (s' : State) : Prop :=
  ∃ C', Relation.ReflTransGen Conf.Step C C' ∧ Sim s' C'

/--
The state is one of those that abstract moves from `C` lead to.
-/
def Conf.Moves (C : Conf) (s' : State) : Prop :=
  ∃ C', Relation.ReflTransGen Conf.Move C C' ∧ Sim s' C'

theorem Conf.Moves.follows {C : Conf} {s' : State} (h : C.Moves s') : C.Follows s' := by
  rcases h with ⟨C', hmoves, h'⟩
  exact ⟨C', Conf.Move.steps hmoves, h'⟩

namespace Sim

variable {s : State} {C : Conf}

theorem moves (h : Sim s C) : C.Moves s :=
  ⟨C, Relation.ReflTransGen.refl, h⟩

theorem follows (h : Sim s C) : C.Follows s :=
  ⟨C, Relation.ReflTransGen.refl, h⟩

theorem follows_step {C₁ : Conf} (h : Sim s C₁) (hstep : C.Step C₁) : C.Follows s :=
  ⟨C₁, Relation.ReflTransGen.single hstep, h⟩

/--
The search by address finds the block itself or nothing.
-/
theorem run_findWithAddr (h : Sim s C) (hC : C.Sep) {p : Nat} (hp : C.Live p) (a : Nat)
    : ∃ b : Nat, findBlockInKSWithAddr p a s = (b, s) ∧ (b ≠ 0 → b = a ∧ C.Has p a) := by
  by_cases ha : C.Has p a
  . exact ⟨a, h.run_findWithAddr_some hC ha, fun _ => ⟨rfl, ha⟩⟩
  . exact ⟨0, h.run_findWithAddr_none hC hp ha, fun hne => absurd rfl hne⟩

end Sim
