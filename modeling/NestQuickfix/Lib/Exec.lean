import Mathlib.Logic.Basic

/-!
# Computations that change a state and can throw

`Exec ε σ` is the monad of imperative code: changes of the state made before an
error is thrown stay. A triple relates the state before a computation to the
state after it, for both ways it can end. `Ensures` is the special case
of a relation between the two states that does not care how the computation ends;
for a reflexive and transitive relation it is checked statement by statement.
-/

namespace Lib

universe u v

/-- A sequence succeeds exactly when both of its parts do. -/
theorem except_bind_eq_ok_iff {ε : Type u} {α β : Type v} {x : Except ε α} {f : α → Except ε β}
    {b : β} : (x >>= f) = .ok b ↔ ∃ a, x = .ok a ∧ f a = .ok b := by
  cases x with
  | error e => simp [bind, Except.bind]
  | ok a => simp [bind, Except.bind]

/-- Imperative code with a state and errors. -/
abbrev Exec (ε σ α : Type u) : Type u := ExceptT ε (StateM σ) α

namespace Exec

variable {ε σ α β : Type u}

/-- How a computation ends, and the state it ends in. -/
def result (x : Exec ε σ α) (s : σ) : Except ε α × σ := x.run.run s

/-- The state a computation ends in. -/
def after (x : Exec ε σ α) (s : σ) : σ := (x.result s).2

theorem after_of_result {x : Exec ε σ α} {r : Except ε α} {s s' : σ}
    (hr : x.result s = (r, s')) : x.after s = s' := congrArg Prod.snd hr

/-- Catch an error and return it. -/
def attempt (x : Exec ε σ α) : Exec ε σ (Except ε α) :=
  ExceptT.mk (x.run >>= fun r => pure (.ok r))

/-- Run an action for the elements of a list; an error ends the loop. -/
def forEach : List α → (α → Exec ε σ PUnit) → Exec ε σ PUnit
  | [], _ => pure PUnit.unit
  | a :: as, f => f a >>= fun _ => forEach as f

@[simp] theorem result_pure (a : α) (s : σ) : (pure a : Exec ε σ α).result s = (.ok a, s) := rfl

@[simp] theorem result_throw (e : ε) (s : σ) :
    (throw e : Exec ε σ α).result s = (.error e, s) := rfl

@[simp] theorem result_get (s : σ) : (get : Exec ε σ σ).result s = (.ok s, s) := rfl

@[simp] theorem result_set (s s' : σ) :
    (set s' : Exec ε σ PUnit).result s = (.ok PUnit.unit, s') := rfl

@[simp] theorem result_modify (f : σ → σ) (s : σ) :
    (modify f : Exec ε σ PUnit).result s = (.ok PUnit.unit, f s) := rfl

@[simp] theorem result_attempt (x : Exec ε σ α) (s : σ) :
    (attempt x).result s = (.ok (x.result s).1, (x.result s).2) := rfl

theorem result_bind (x : Exec ε σ α) (f : α → Exec ε σ β) (s : σ) :
    (x >>= f).result s =
      match x.result s with
      | (.ok a, s') => (f a).result s'
      | (.error e, s') => (.error e, s') := by
  have hbind : (x >>= f).result s =
      (ExceptT.bindCont f (x.result s).1).run (x.result s).2 := rfl
  rw [hbind]
  rcases x.result s with ⟨e | a, s'⟩ <;> rfl

/-- From states with `P`, the computation ends in `Q`, or throws and ends in `E`. -/
def Triple (P : σ → Prop) (x : Exec ε σ α) (Q : α → σ → Prop) (E : σ → Prop) : Prop :=
  ∀ s, P s → (∀ a s', x.result s = (.ok a, s') → Q a s') ∧
    ∀ e s', x.result s = (.error e, s') → E s'

namespace Triple

variable {P P' E E' : σ → Prop} {Q Q' : α → σ → Prop} {R : β → σ → Prop} {x : Exec ε σ α}

theorem pure {a : α} (h : ∀ s, P s → Q a s) : Triple P (pure a : Exec ε σ α) Q E := by
  intro s hs
  refine ⟨fun a' s' heq => ?_, fun e s' heq => ?_⟩
  · obtain ⟨h1, rfl⟩ := Prod.mk.inj heq
    obtain rfl := Except.ok.inj h1
    exact h s hs
  · cases (Prod.mk.inj heq).1

theorem throw {e : ε} (h : ∀ s, P s → E s) : Triple P (throw e : Exec ε σ α) Q E := by
  intro s hs
  refine ⟨fun a' s' heq => ?_, fun e s' heq => ?_⟩
  · cases (Prod.mk.inj heq).1
  · obtain ⟨_, rfl⟩ := Prod.mk.inj heq
    exact h s hs

/-- The rule of sequences. -/
theorem bind {f : α → Exec ε σ β} (hx : Triple P x Q E) (hf : ∀ a, Triple (Q a) (f a) R E) :
    Triple P (x >>= f) R E := by
  intro s hs
  obtain ⟨hok, herror⟩ := hx s hs
  rw [result_bind]
  rcases hr : x.result s with ⟨e | a, s'⟩
  · refine ⟨fun b s'' heq => ?_, fun e' s'' heq => ?_⟩
    · cases (Prod.mk.inj heq).1
    · obtain ⟨_, rfl⟩ := Prod.mk.inj heq
      exact herror e s' hr
  · exact hf a s' (hok a s' hr)

theorem modify {f : σ → σ} {Q : PUnit → σ → Prop} (h : ∀ s, P s → Q PUnit.unit (f s)) :
    Triple P (modify f : Exec ε σ PUnit) Q E := by
  intro s hs
  refine ⟨fun a' s' heq => ?_, fun e s' heq => ?_⟩
  · obtain ⟨_, rfl⟩ := Prod.mk.inj heq
    exact h s hs
  · cases (Prod.mk.inj heq).1

/-- Reading the state: the rest may use what is known of it. -/
theorem get_bind {f : σ → Exec ε σ β} (h : ∀ s, P s → Triple (fun s' => s' = s) (f s) R E) :
    Triple P (get >>= f) R E := by
  intro s hs
  rw [result_bind, result_get]
  exact h s hs s rfl

theorem conseq (hx : Triple P x Q E) (hP : ∀ s, P' s → P s) (hQ : ∀ a s, Q a s → Q' a s)
    (hE : ∀ s, E s → E' s) : Triple P' x Q' E' := fun s hs =>
  ⟨fun a s' heq => hQ a s' ((hx s (hP s hs)).1 a s' heq),
    fun e s' heq => hE s' ((hx s (hP s hs)).2 e s' heq)⟩

/-- A caught error is returned. -/
theorem attempt (hx : Triple P x Q E) :
    Triple P (attempt x) (fun r s => match r with | .ok a => Q a s | .error _ => E s) E' := by
  intro s hs
  obtain ⟨hok, herror⟩ := hx s hs
  refine ⟨fun r s' heq => ?_, fun e s' heq => ?_⟩
  · rw [result_attempt] at heq
    rcases hr : x.result s with ⟨e | a, s''⟩
    · rw [hr] at heq
      obtain ⟨h1, rfl⟩ := Prod.mk.inj heq
      obtain rfl := Except.ok.inj h1
      exact herror e s'' hr
    · rw [hr] at heq
      obtain ⟨h1, rfl⟩ := Prod.mk.inj heq
      obtain rfl := Except.ok.inj h1
      exact hok a s'' hr
  · cases (Prod.mk.inj heq).1

/-- Two things are known of the same computation. -/
theorem and {F F' : σ → Prop} {S : α → σ → Prop} (h : Triple P x Q E) (h' : Triple F x S F') :
    Triple (fun s => P s ∧ F s) x (fun a s => Q a s ∧ S a s) fun s => E s ∧ F' s := by
  rintro s ⟨hP, hF⟩
  exact ⟨fun a s' heq => ⟨(h s hP).1 a s' heq, (h' s hF).1 a s' heq⟩,
    fun e s' heq => ⟨(h s hP).2 e s' heq, (h' s hF).2 e s' heq⟩⟩

/-- The loop rule. -/
theorem forEach {P : σ → Prop} {f : α → Exec ε σ PUnit} (as : List α)
    (hf : ∀ a, Triple P (f a) (fun _ => P) E) : Triple P (forEach as f) (fun _ => P) E := by
  induction as with
  | nil => exact pure fun _ => id
  | cons a as ih => exact bind (hf a) fun _ => ih

/-- What is known of the state after a computation, whichever way it ends. -/
theorem of_after (h : ∀ s, P s → E (x.after s)) : Triple P x (fun _ => E) E := by
  intro s hs
  have hafter := h s hs
  exact ⟨fun a s' heq => after_of_result heq ▸ hafter, fun e s' heq => after_of_result heq ▸ hafter⟩

/-- The state after a computation, whichever way it ends. -/
theorem after (hx : Triple P x (fun _ => fun s => E s) E) {s : σ} (hs : P s) : E (x.after s) := by
  obtain ⟨hok, herror⟩ := hx s hs
  rcases hr : x.result s with ⟨e | a, s'⟩
  · rw [after_of_result hr]
    exact herror e s' hr
  · rw [after_of_result hr]
    exact hok a s' hr

end Triple

/-- A computation that never throws. -/
def NoThrow (x : Exec ε σ α) : Prop := ∀ s, ∃ a, (x.result s).1 = .ok a

namespace NoThrow

variable {x : Exec ε σ α} {f : α → Exec ε σ β}

theorem pure (a : α) : NoThrow (pure a : Exec ε σ α) := fun _ => ⟨a, rfl⟩

theorem modify (f : σ → σ) : NoThrow (modify f : Exec ε σ PUnit) := fun _ => ⟨PUnit.unit, rfl⟩

theorem bind (hx : NoThrow x) (hf : ∀ a, NoThrow (f a)) : NoThrow (x >>= f) := by
  intro s
  obtain ⟨a, ha⟩ := hx s
  rw [result_bind]
  rcases hr : x.result s with ⟨e | a, s'⟩
  · rw [hr] at ha
    cases ha
  · exact hf a s'

theorem get_bind {f : σ → Exec ε σ β} (hf : ∀ s, NoThrow (f s)) : NoThrow (get >>= f) :=
  bind (fun s => ⟨s, rfl⟩) hf

theorem forEach {f : α → Exec ε σ PUnit} (as : List α) (hf : ∀ a, NoThrow (f a)) :
    NoThrow (forEach as f) := by
  induction as with
  | nil => exact pure PUnit.unit
  | cons a as ih => exact bind (hf a) fun _ => ih

theorem attempt (x : Exec ε σ α) : NoThrow (attempt x) := fun s => ⟨(x.result s).1, rfl⟩

theorem ite {p : Prop} [Decidable p] {y : Exec ε σ α} (hx : NoThrow x) (hy : NoThrow y) :
    NoThrow (if p then x else y) := by
  split
  · exact hx
  · exact hy

/-- What holds after an error does not matter. -/
theorem triple {P E E' : σ → Prop} {Q : α → σ → Prop} (hx : NoThrow x) (h : Triple P x Q E) :
    Triple P x Q E' := by
  intro s hs
  refine ⟨(h s hs).1, fun e s' heq => ?_⟩
  obtain ⟨a, ha⟩ := hx s
  rw [heq] at ha
  cases ha

end NoThrow

/-- A computation keeps `P`, whichever way it ends. -/
abbrev Keeps (P : σ → Prop) (x : Exec ε σ α) : Prop := Triple P x (fun _ => P) P

/-- Reading the state: what is kept is known of it. -/
theorem keeps_get_bind {P : σ → Prop} {f : σ → Exec ε σ α} (h : ∀ s, P s → Keeps P (f s)) :
    Keeps P (get >>= f) :=
  .get_bind fun s hs => .conseq (h s hs) (fun _ heq => heq ▸ hs) (fun _ _ => id) fun _ => id

/-- The states before and after a computation are related. -/
def Ensures (R : σ → σ → Prop) (x : Exec ε σ α) : Prop := ∀ s, R s (x.after s)

namespace Ensures

variable {R : σ → σ → Prop} {x : Exec ε σ α} {P : σ → Prop}

theorem pure (hrefl : ∀ s, R s s) (a : α) : Ensures R (pure a : Exec ε σ α) := hrefl

theorem throw (hrefl : ∀ s, R s s) (e : ε) : Ensures R (throw e : Exec ε σ α) := hrefl

theorem get (hrefl : ∀ s, R s s) : Ensures R (get : Exec ε σ σ) := hrefl

theorem modify {f : σ → σ} (h : ∀ s, R s (f s)) : Ensures R (modify f : Exec ε σ PUnit) := h

theorem attempt (hx : Ensures R x) : Ensures R (attempt x) := hx

/-- A transitive relation is kept by sequences. -/
theorem bind {f : α → Exec ε σ β} (htrans : ∀ {s s' s''}, R s s' → R s' s'' → R s s'')
    (hx : Ensures R x) (hf : ∀ a, Ensures R (f a)) : Ensures R (x >>= f) := by
  intro s
  have h1 := hx s
  unfold after at h1 ⊢
  rw [result_bind]
  rcases hr : x.result s with ⟨e | a, s'⟩
  · rwa [hr] at h1
  · rw [hr] at h1
    exact htrans h1 (hf a s')

/-- A transitive relation is kept by loops. -/
theorem forEach {f : α → Exec ε σ PUnit} (hrefl : ∀ s, R s s)
    (htrans : ∀ {s s' s''}, R s s' → R s' s'' → R s s'') (as : List α)
    (hf : ∀ a, Ensures R (f a)) : Ensures R (forEach as f) := by
  induction as with
  | nil => exact pure hrefl PUnit.unit
  | cons a as ih => exact bind htrans (hf a) fun _ => ih

/-- A property that related states share is kept. -/
theorem keeps (hx : Ensures R x) (hP : ∀ s s', R s s' → P s → P s') : Keeps P x :=
  .of_after fun s => hP s _ (hx s)

end Ensures

end Exec

end Lib
