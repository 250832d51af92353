import Mathlib.Data.List.Basic

/-!
# Runs of a system

A system takes one event at a time; an event that cannot happen in a state has
no successor. A guard restricts the events of a run by the state they happen
in. A property that holds initially and is kept by every guarded step holds of
every state such a run reaches.
-/

namespace Lib

/-- Initial states, and the state after an event, if the event can happen. -/
structure System (σ ε : Type*) where
  /-- The states a run may start in. -/
  init : σ → Prop
  /-- The state after one event. -/
  step : σ → ε → Option σ

namespace System

variable {σ ε : Type*} {S : System σ ε} {guard guard' : σ → ε → Prop} {s s' : σ}

/-- The states reached by runs whose events all meet the guard. -/
inductive Reached (S : System σ ε) (guard : σ → ε → Prop) : σ → Prop
  | init {s : σ} : S.init s → Reached S guard s
  | step {s s' : σ} {e : ε} : Reached S guard s → guard s e → S.step s e = some s' →
      Reached S guard s'

/-- An invariant: it holds initially, and guarded steps keep it. -/
structure Invariant (S : System σ ε) (guard : σ → ε → Prop) (P : σ → Prop) : Prop where
  init : ∀ s, S.init s → P s
  step : ∀ s e s', P s → guard s e → S.step s e = some s' → P s'

/-- An invariant holds of every reached state. -/
theorem Invariant.of_reached {P : σ → Prop} (hP : Invariant S guard P) (h : Reached S guard s) :
    P s := by
  induction h with
  | init hinit => exact hP.init _ hinit
  | step _ hguard hstep ih => exact hP.step _ _ _ ih hguard hstep

/-- A weaker guard allows more runs. -/
theorem Reached.mono (hguard : ∀ s e, guard s e → guard' s e) (h : Reached S guard s) :
    Reached S guard' s := by
  induction h with
  | init hinit => exact .init hinit
  | step _ he hstep ih => exact .step ih (hguard _ _ he) hstep

/-- The state after a list of events. -/
def exec (S : System σ ε) : σ → List ε → Option σ
  | s, [] => some s
  | s, e :: es => (S.step s e).bind fun s' => S.exec s' es

/-- What every step keeps is kept by a run. -/
theorem exec_keeps {P : σ → Prop} (hstep : ∀ s e s', P s → S.step s e = some s' → P s')
    {es : List ε} (hs : P s) (hexec : S.exec s es = some s') : P s' := by
  induction es generalizing s with
  | nil =>
    obtain rfl := Option.some.inj hexec
    exact hs
  | cons e es ih =>
    obtain ⟨s1, hs1, hrest⟩ := Option.bind_eq_some_iff.mp hexec
    exact ih (hstep s e s1 hs hs1) hrest

/-- A system whose steps are those of another one, with more to its states, has its runs. -/
theorem exec_map {τ : Type*} {T : System τ ε} {f : τ → σ}
    (hstep : ∀ t e, (T.step t e).map f = S.step (f t) e) (t : τ) (es : List ε) :
    (T.exec t es).map f = S.exec (f t) es := by
  induction es generalizing t with
  | nil => rfl
  | cons e es ih =>
    rw [exec, exec, ← hstep]
    cases T.step t e with
    | none => rfl
    | some t' => exact ih t'

/-- The events of a list all meet the guard in the state they happen in. -/
def Guarded (S : System σ ε) (guard : σ → ε → Prop) : σ → List ε → Prop
  | _, [] => True
  | s, e :: es => guard s e ∧ ∀ s' ∈ S.step s e, S.Guarded guard s' es

instance decidableGuarded [hguard : ∀ s e, Decidable (guard s e)] :
    ∀ s es, Decidable (S.Guarded guard s es)
  | _, [] => inferInstanceAs (Decidable True)
  | s, e :: es =>
    have : ∀ s', Decidable (S.Guarded guard s' es) := fun s' => decidableGuarded s' es
    match hs : S.step s e with
    | none => decidable_of_iff (guard s e) (by simp [Guarded, hs])
    | some s' => decidable_of_iff (guard s e ∧ S.Guarded guard s' es) (by simp [Guarded, hs])

/-- A run that is guarded stays so when there is more to its states. -/
theorem guarded_map {τ : Type*} {T : System τ ε} {f : τ → σ}
    (hstep : ∀ t e, (T.step t e).map f = S.step (f t) e) {t : τ} {es : List ε}
    (h : S.Guarded guard (f t) es) : T.Guarded (fun t e => guard (f t) e) t es := by
  induction es generalizing t with
  | nil => trivial
  | cons e es ih =>
    refine ⟨h.1, fun t' ht' => ih (h.2 (f t') ?_)⟩
    rw [← hstep, ht']
    rfl

/-- What guarded steps keep is kept by a guarded run. -/
theorem exec_keeps_of_guarded {P : σ → Prop}
    (hstep : ∀ s e s', P s → guard s e → S.step s e = some s' → P s') {es : List ε}
    (hes : S.Guarded guard s es) (hs : P s) (hexec : S.exec s es = some s') : P s' := by
  induction es generalizing s with
  | nil =>
    obtain rfl := Option.some.inj hexec
    exact hs
  | cons e es ih =>
    obtain ⟨s1, hs1, hrest⟩ := Option.bind_eq_some_iff.mp hexec
    exact ih (hes.2 s1 hs1) (hstep s e s1 hs hes.1 hs1) hrest

/-- A guard that always holds admits every list of events. -/
theorem guarded_of_forall (hguard : ∀ s e, guard s e) (es : List ε) : S.Guarded guard s es := by
  induction es generalizing s with
  | nil => trivial
  | cons e es ih => exact ⟨hguard s e, fun _ _ => ih⟩

/-- A weaker guard admits more lists of events. -/
theorem guarded_mono (hguard : ∀ s e, guard s e → guard' s e) {es : List ε}
    (hes : S.Guarded guard s es) : S.Guarded guard' s es := by
  induction es generalizing s with
  | nil => trivial
  | cons e es ih => exact ⟨hguard s e hes.1, fun s' hs' => ih (hes.2 s' hs')⟩

/-- Events that meet two guards meet both. -/
theorem guarded_and {P Q : σ → ε → Prop} {es : List ε} (hP : S.Guarded P s es)
    (hQ : S.Guarded Q s es) : S.Guarded (fun s e => P s e ∧ Q s e) s es := by
  induction es generalizing s with
  | nil => trivial
  | cons e es ih => exact ⟨⟨hP.1, hQ.1⟩, fun s' hs' => ih (hP.2 s' hs') (hQ.2 s' hs')⟩

/-- The rest of a guarded list of events is guarded. -/
theorem guarded_append {P : σ → ε → Prop} {es es' : List ε} (h : S.Guarded P s (es ++ es'))
    (hexec : S.exec s es = some s') : S.Guarded P s' es' := by
  induction es generalizing s with
  | nil =>
    obtain rfl := Option.some.inj hexec
    exact h
  | cons e es ih =>
    obtain ⟨s1, hstep, hrest⟩ := Option.bind_eq_some_iff.mp hexec
    exact ih (h.2 s1 hstep) hrest

/-- Guards that agree in the states of a run admit the same lists of events. -/
theorem Reached.guarded_congr {P Q : σ → ε → Prop}
    (hPQ : ∀ s e, S.Reached guard' s → (P s e ↔ Q s e)) (hguard' : ∀ s e, guard' s e)
    {es : List ε} (h : S.Reached guard' s) : S.Guarded P s es ↔ S.Guarded Q s es := by
  induction es generalizing s with
  | nil => exact Iff.rfl
  | cons e es ih =>
    refine and_congr (hPQ s e h) (forall₂_congr fun s' hs' => ?_)
    exact ih (.step h (hguard' s e) hs')

/-- Guards that agree in the states of a run that has met one of them admit the same lists. -/
theorem Reached.guarded_iff {P Q : σ → ε → Prop}
    (hPQ : ∀ s e, S.Reached Q s → (P s e ↔ Q s e)) {es : List ε} (h : S.Reached Q s) :
    S.Guarded P s es ↔ S.Guarded Q s es := by
  induction es generalizing s with
  | nil => exact Iff.rfl
  | cons e es ih =>
    have hhead := hPQ s e h
    constructor
    · intro hP
      have hQ := hhead.mp hP.1
      exact ⟨hQ, fun s' hs' => (ih (.step h hQ hs')).mp (hP.2 s' hs')⟩
    · intro hQ
      exact ⟨hhead.mpr hQ.1, fun s' hs' => (ih (.step h hQ.1 hs')).mpr (hQ.2 s' hs')⟩

/-- In the states of a run that meets one guard another guard may be known to hold. -/
theorem Reached.guarded_imp {P Q : σ → ε → Prop}
    (hPQ : ∀ s e, S.Reached P s → P s e → Q s e) {es : List ε} (h : S.Reached P s)
    (hes : S.Guarded P s es) : S.Guarded Q s es := by
  induction es generalizing s with
  | nil => trivial
  | cons e es ih => exact ⟨hPQ s e h hes.1, fun s' hs' => ih (.step h hes.1 hs') (hes.2 s' hs')⟩

/-- If every step keeps a property exactly when it meets the guard, a run keeps the property
exactly when all its steps meet the guard. -/
theorem Reached.exec_iff_guarded {P : σ → Prop}
    (hstep : ∀ s e s', S.Reached guard' s → S.step s e = some s' → (P s' ↔ P s ∧ guard s e))
    (hguard' : ∀ s e, guard' s e) {es : List ε} (h : S.Reached guard' s)
    (hexec : S.exec s es = some s') : P s' ↔ P s ∧ S.Guarded guard s es := by
  induction es generalizing s with
  | nil =>
    obtain rfl := Option.some.inj hexec
    simp [Guarded]
  | cons e es ih =>
    obtain ⟨s1, hs1, hrest⟩ := Option.bind_eq_some_iff.mp hexec
    have hguarded : S.Guarded guard s (e :: es) ↔ guard s e ∧ S.Guarded guard s1 es := by
      simp [Guarded, hs1]
    rw [ih (.step h (hguard' s e) hs1) hrest, hstep s e s1 h hs1, hguarded, and_assoc]

/-- Executing guarded events from a reached state reaches the final state. -/
theorem Reached.exec {es : List ε} (h : Reached S guard s) (hguard : S.Guarded guard s es)
    (hexec : S.exec s es = some s') : Reached S guard s' := by
  induction es generalizing s with
  | nil =>
    obtain rfl := Option.some.inj hexec
    exact h
  | cons e es ih =>
    obtain ⟨s1, hstep, hrest⟩ := Option.bind_eq_some_iff.mp hexec
    exact ih (.step h hguard.1 hstep) (hguard.2 s1 hstep) hrest

/-- A property holds in every state of a run. -/
def Throughout (S : System σ ε) (P : σ → Prop) : σ → List ε → Prop
  | s, [] => P s
  | s, e :: es => P s ∧ ∀ s' ∈ S.step s e, S.Throughout P s' es

theorem Throughout.head {P : σ → Prop} {es : List ε} (h : S.Throughout P s es) : P s := by
  cases es with
  | nil => exact h
  | cons e es => exact h.1

theorem Throughout.last {P : σ → Prop} {es : List ε} (h : S.Throughout P s es)
    (hexec : S.exec s es = some s') : P s' := by
  induction es generalizing s with
  | nil =>
    obtain rfl := Option.some.inj hexec
    exact h
  | cons e es ih =>
    obtain ⟨s1, hs1, hrest⟩ := Option.bind_eq_some_iff.mp hexec
    exact ih (h.2 s1 hs1) hrest

/-- If, under an invariant, a step keeps a property exactly when it meets a guard, the property
holds throughout a run exactly when all steps of the run meet the guard. -/
theorem throughout_iff {I P : σ → Prop}
    (hI : ∀ s e s', I s → guard' s e → S.step s e = some s' → I s')
    (hstep : ∀ s e s', I s → P s → guard' s e → S.step s e = some s' → (P s' ↔ guard s e))
    {es : List ε} (hes : S.Guarded guard' s es) (hs : I s) (hP : P s)
    (hexec : S.exec s es = some s') : S.Throughout P s es ↔ S.Guarded guard s es := by
  induction es generalizing s with
  | nil => exact iff_of_true hP trivial
  | cons e es ih =>
    obtain ⟨s1, hs1, hrest⟩ := Option.bind_eq_some_iff.mp hexec
    have hI1 : I s1 := hI s e s1 hs hes.1 hs1
    have hiff := hstep s e s1 hs hP hes.1 hs1
    have hother : ∀ s' ∈ S.step s e, s' = s1 := fun s' hs' =>
      Option.some.inj (hs'.symm.trans hs1)
    constructor
    · intro hthrough
      have hrest1 := hthrough.2 s1 hs1
      refine ⟨hiff.mp hrest1.head, fun s' hs' => ?_⟩
      rw [hother s' hs']
      exact (ih (hes.2 s1 hs1) hI1 hrest1.head hrest).mp hrest1
    · intro hguarded
      refine ⟨hP, fun s' hs' => ?_⟩
      rw [hother s' hs']
      exact (ih (hes.2 s1 hs1) hI1 (hiff.mpr hguarded.1) hrest).mpr (hguarded.2 s1 hs1)

/-- Without a guard every run leads to a reached state. -/
theorem Reached.of_exec {es : List ε} (hinit : S.init s) (hexec : S.exec s es = some s') :
    S.Reached (fun _ _ => True) s' :=
  Reached.exec (.init hinit) (guarded_of_forall (fun _ _ => trivial) es) hexec

/-! ## Systems that end -/

/-- A system that is ended for good by a fatal step; the flag says whether it has ended. -/
def halting (S : System σ ε) (fatal : σ → ε → Prop) [∀ s e, Decidable (fatal s e)] :
    System (σ × Bool) ε where
  init p := S.init p.1 ∧ p.2 = false
  step p e := if p.2 then none else (S.step p.1 e).map fun s' => (s', decide (fatal p.1 e))

/-- A run without a fatal step does not end the system. -/
theorem exec_halting {fatal : σ → ε → Prop} [∀ s e, Decidable (fatal s e)] {es : List ε}
    (hes : S.Guarded (fun s e => ¬ fatal s e) s es) (hexec : S.exec s es = some s') :
    (S.halting fatal).exec (s, false) es = some (s', false) := by
  induction es generalizing s with
  | nil => exact congrArg (Option.map fun s => (s, false)) hexec
  | cons e es ih =>
    obtain ⟨s1, hs1, hrest⟩ := Option.bind_eq_some_iff.mp hexec
    have hstep : (S.halting fatal).step (s, false) e = some (s1, false) := by
      have hmap : (S.halting fatal).step (s, false) e =
          (S.step s e).map fun s' => (s', decide (fatal s e)) := rfl
      rw [hmap, hs1, decide_eq_false hes.1]
      rfl
    rw [exec, hstep]
    exact ih (hes.2 s1 hs1) hrest

/-! ## Records -/

variable {φ : Type*} {note : σ → ε → List φ} {guardR : σ × List φ → ε → Prop} {p p' : σ × List φ}

/-- A system that keeps a record: every step adds what is worth noting of it. -/
def recorded (S : System σ ε) (note : σ → ε → List φ) : System (σ × List φ) ε where
  init p := S.init p.1 ∧ p.2 = []
  step p e := (S.step p.1 e).map fun s' => (s', p.2 ++ note p.1 e)

theorem recorded_step {e : ε} : (S.recorded note).step p e = some p' ↔
    S.step p.1 e = some p'.1 ∧ p'.2 = p.2 ++ note p.1 e := by
  constructor
  · intro h
    obtain ⟨s', hs', rfl⟩ := Option.map_eq_some_iff.mp h
    exact ⟨hs', rfl⟩
  · rintro ⟨hs', hrecord⟩
    refine Option.map_eq_some_iff.mpr ⟨p'.1, hs', ?_⟩
    rw [← hrecord]

/-- What follows an entry of a record, after one more entry. -/
theorem cons_suffix_concat {l later : List φ} {x y : φ} (h : y :: later <:+ l ++ [x]) :
    y = x ∧ later = [] ∨ ∃ later', later = later' ++ [x] ∧ y :: later' <:+ l := by
  rcases List.suffix_concat_iff.mp h with hnil | ⟨t, ht, hsuffix⟩
  · cases hnil
  · cases t with
    | nil => exact Or.inl (List.cons.inj ht)
    | cons z t =>
      obtain ⟨rfl, hlater⟩ := List.cons.inj ht
      exact Or.inr ⟨t, hlater, hsuffix⟩

/-- An entry of a longer record is new, or everything new follows it. -/
theorem cons_suffix_append {l later xs : List φ} {y : φ} (h : y :: later <:+ l ++ xs) :
    y ∈ xs ∨ ∃ later', later = later' ++ xs ∧ y :: later' <:+ l := by
  obtain ⟨t, ht⟩ := h
  rcases List.append_eq_append_iff.mp ht with ⟨t', rfl, heq⟩ | ⟨t', rfl, heq⟩
  · cases t' with
    | nil =>
      rw [List.nil_append] at heq
      exact Or.inl (by rw [← heq]; exact List.mem_cons_self)
    | cons z t' =>
      obtain ⟨rfl, hlater⟩ := List.cons.inj heq
      exact Or.inr ⟨t', hlater, List.suffix_append t _⟩
  · refine Or.inl ?_
    rw [heq]
    exact List.mem_append_right t' List.mem_cons_self

/-- A run with its record is a run. -/
theorem Reached.of_recorded (hguard : ∀ p e, guardR p e → guard p.1 e)
    (h : (S.recorded note).Reached guardR p) : S.Reached guard p.1 := by
  induction h with
  | init hinit => exact .init hinit.1
  | step _ he hstep ih => exact .step ih (hguard _ _ he) (recorded_step.mp hstep).1

end System

end Lib
