import NestQuickfix.Lib.Run

/-!
# Refinement of systems

A system refines another one if its steps, seen through a view of its states, are steps of
the other one, apart from steps that the view does not show. Whatever holds in all reached
states of the other system then holds of the view of every reached state.
-/

namespace Lib.System

variable {σ ε τ δ : Type*} {S : System σ ε} {T : System τ δ} {view : σ → τ}
  {event : σ → ε → Option δ} {guard : σ → ε → Prop} {guard' : τ → δ → Prop}

/-- `S` refines `T`: the view of a step is the step of its event, if it has one. -/
structure Refines (S : System σ ε) (T : System τ δ) (view : σ → τ)
    (event : σ → ε → Option δ) : Prop where
  init : ∀ s, S.init s → T.init (view s)
  step : ∀ s e s' d, event s e = some d → S.step s e = some s' →
    T.step (view s) d = some (view s')
  unseen : ∀ s e s', event s e = none → S.step s e = some s' → view s' = view s

/-- The view of a reached state is reached. -/
theorem Refines.reached (h : Refines S T view event)
    (hguard : ∀ s e d, guard s e → event s e = some d → guard' (view s) d) {s : σ}
    (hs : S.Reached guard s) : T.Reached guard' (view s) := by
  induction hs with
  | init hinit => exact .init (h.init _ hinit)
  | @step s s' e _ he hstep ih =>
    cases hevent : event s e with
    | none => rwa [h.unseen s e s' hevent hstep]
    | some d => exact .step ih (hguard s e d he hevent) (h.step s e s' d hevent hstep)

/-- An invariant of the other system holds of the view. -/
theorem Refines.of_invariant (h : Refines S T view event) {P : τ → Prop}
    (hP : T.Invariant guard' P)
    (hguard : ∀ s e d, guard s e → event s e = some d → guard' (view s) d) {s : σ}
    (hs : S.Reached guard s) : P (view s) :=
  hP.of_reached (h.reached hguard hs)

end Lib.System
