import Mathlib.Logic.Relation

/-! Runs of a transition system: the states that a step relation reaches from a state, and the
rules by which a fact about one step becomes a fact about a whole run. -/

namespace CyberAccountant.Library

variable {σ : Type*} {Step : σ → σ → Prop}

/-- `Step` leads from the first state to the second in any number of steps. -/
abbrev Run (Step : σ → σ → Prop) : σ → σ → Prop := Relation.ReflTransGen Step

/-- An invariant that every step keeps holds at the end of a run that starts in it. -/
theorem Run.invariant {Inv : σ → Prop} (keeps : ∀ s s', Inv s → Step s s' → Inv s') {s s' : σ}
    (hRun : Run Step s s') (hs : Inv s) : Inv s' := by
  induction hRun with
  | refl => exact hs
  | tail _ hStep ih => exact keeps _ _ ih hStep

/-- A reflexive and transitive relation that every step from an invariant state respects holds
between the ends of a run. -/
theorem Run.relates {Inv : σ → Prop} {R : σ → σ → Prop} (hRefl : ∀ s, R s s)
    (hTrans : ∀ a b c, R a b → R b c → R a c) (keeps : ∀ s s', Inv s → Step s s' → Inv s')
    (hStep : ∀ s s', Inv s → Step s s' → R s s') {s s' : σ} (hRun : Run Step s s') (hs : Inv s) :
    R s s' := by
  induction hRun with
  | refl => exact hRefl _
  | tail hBefore hLast ih =>
    exact hTrans _ _ _ ih (hStep _ _ (Run.invariant keeps hBefore hs) hLast)

/-- A run of a smaller step relation is a run of a larger one. -/
theorem Run.mono {Step' : σ → σ → Prop} (h : ∀ s s', Step s s' → Step' s s') {s s' : σ}
    (hRun : Run Step s s') : Run Step' s s' :=
  Relation.ReflTransGen.mono (fun a b => h a b) _ _ hRun

end CyberAccountant.Library
