import Mathlib.Logic.Relation

/-!
This module contains transition systems: their reachable states, the rule for invariants, and the
forward simulations along which the reachable states of one system are those of another one.
-/

structure System (σ ε : Type) where
  init : σ → Prop
  step : σ → ε → σ → Prop

namespace System

variable {σ ε τ : Type} {S : System σ ε}

inductive Reachable (S : System σ ε) : σ → Prop where
  | init {s : σ} : S.init s → Reachable S s
  | step {s s' : σ} {e : ε} : Reachable S s → S.step s e s' → Reachable S s'

/--
The runs of `S` all of whose steps meet the condition `ok`.
-/
def restrict (S : System σ ε) (ok : σ → ε → Prop) : System σ ε where
  init := S.init
  step s e s' := ok s e ∧ S.step s e s'

namespace Reachable

theorem invariant {Inv : σ → Prop} (hinit : ∀ s, S.init s → Inv s)
    (hstep : ∀ s e s', Inv s → S.step s e s' → Inv s') {s : σ} (h : Reachable S s) : Inv s := by
  induction h with
  | init hs => exact hinit _ hs
  | step _ hs ih => exact hstep _ _ _ ih hs

theorem of_restrict {ok : σ → ε → Prop} {s : σ} (h : Reachable (S.restrict ok) s)
    : Reachable S s := by
  induction h with
  | init hs => exact Reachable.init hs
  | step _ hs ih => exact Reachable.step ih hs.2

theorem restrict_mono {ok ok' : σ → ε → Prop} (hok : ∀ s e, ok s e → ok' s e) {s : σ}
    (h : Reachable (S.restrict ok) s) : Reachable (S.restrict ok') s := by
  induction h with
  | init hs => exact Reachable.init hs
  | step _ hs ih => exact Reachable.step ih ⟨hok _ _ hs.1, hs.2⟩

end Reachable

/--
`R` relates the states of `S` to those of an abstract transition relation that takes any number of
transitions for a step of `S`. One step may rely on the abstract invariant `Inv`.
-/
structure Simulation (S : System σ ε) (init : τ → Prop) (next : τ → τ → Prop) (Inv : τ → Prop)
    (R : σ → τ → Prop) : Prop where
  init : ∀ s, S.init s → ∃ t, init t ∧ R s t
  step : ∀ s e s' t, R s t → Inv t → S.step s e s' →
    ∃ t', Relation.ReflTransGen next t t' ∧ R s' t'

variable {init : τ → Prop} {next : τ → τ → Prop} {Inv : τ → Prop} {R : σ → τ → Prop}

theorem invariant_of_reflTransGen (hnext : ∀ t t', Inv t → next t t' → Inv t') {t t' : τ}
    (hinv : Inv t) (h : Relation.ReflTransGen next t t') : Inv t' := by
  induction h with
  | refl => exact hinv
  | tail _ hstep ih => exact hnext _ _ ih hstep

/--
Each reachable state is related to an abstract one, which meets every invariant of the abstract
transitions.
-/
theorem Reachable.simulated (hinit : ∀ t, init t → Inv t)
    (hnext : ∀ t t', Inv t → next t t' → Inv t') (hsim : Simulation S init next Inv R) {s : σ}
    (h : Reachable S s) : ∃ t, R s t ∧ Inv t := by
  induction h with
  | init hs =>
    rcases hsim.init _ hs with ⟨t, ht, hR⟩
    exact ⟨t, hR, hinit t ht⟩
  | step _ hs ih =>
    rcases ih with ⟨t, hR, hinv⟩
    rcases hsim.step _ _ _ t hR hinv hs with ⟨t', ht', hR'⟩
    exact ⟨t', hR', invariant_of_reflTransGen hnext hinv ht'⟩

end System
