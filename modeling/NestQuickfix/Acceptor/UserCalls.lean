import NestQuickfix.Acceptor.System

/-!
# Calls of user code

The handlers and listeners of users are called one after the other, and the first one that
throws cuts the code short. How many of them a function calls depends on the handlers
of the session alone, so it is known beforehand whether the function comes to its end.
-/

namespace NestQuickfix.Acceptor

open Lib Lib.Exec

/-! ## The input -/

/-- None of the next `n` calls of user code throws. -/
def Input.calmFor (input : Input) (n : ℕ) : Bool := (input.thrown.take n).all Option.isNone

/-- The input after `n` calls of user code. -/
def Input.afterCalls (input : Input) (n : ℕ) : Input :=
  { input with thrown := input.thrown.drop n }

@[simp] theorem Input.calmFor_zero (input : Input) : input.calmFor 0 = true := rfl

@[simp] theorem Input.afterCalls_zero (input : Input) : input.afterCalls 0 = input := rfl

theorem Input.calmFor_add (input : Input) (m n : ℕ) :
    input.calmFor (m + n) = (input.calmFor m && (input.afterCalls m).calmFor n) := by
  unfold Input.calmFor Input.afterCalls
  rw [List.take_add, List.all_append]

theorem Input.afterCalls_afterCalls (input : Input) (m n : ℕ) :
    (input.afterCalls m).afterCalls n = input.afterCalls (m + n) := by
  unfold Input.afterCalls
  rw [List.drop_drop]

theorem Input.calmFor_one (input : Input) : input.calmFor 1 = (input.thrown.headD none).isNone := by
  unfold Input.calmFor
  cases input.thrown with
  | nil => rfl
  | cons x xs => simp

theorem Input.calmFor_of_le {input : Input} {m n : ℕ} (hmn : m ≤ n)
    (h : input.calmFor n = true) : input.calmFor m = true := by
  obtain ⟨k, rfl⟩ := Nat.exists_eq_add_of_le hmn
  rw [Input.calmFor_add, Bool.and_eq_true] at h
  exact h.1

/-! ## Counting calls -/

/-- Sessions keep their handlers, sockets and ids. -/
def SameSetup (st st' : AcceptorState) : Prop :=
  ∀ s, (st'.sessions s).handlers = (st.sessions s).handlers ∧
    (st'.sessions s).socket = (st.sessions s).socket ∧
    (st'.sessions s).config = (st.sessions s).config

theorem SameSetup.refl (st : AcceptorState) : SameSetup st st := fun _ => ⟨rfl, rfl, rfl⟩

theorem SameSetup.trans {st st' st'' : AcceptorState} (h : SameSetup st st')
    (h' : SameSetup st' st'') : SameSetup st st'' := fun s =>
  ⟨(h' s).1.trans (h s).1, (h' s).2.1.trans (h s).2.1, (h' s).2.2.trans (h s).2.2⟩

/-- The number of calls of user code in `handleDisconnect`. -/
def AcceptorState.disconnectCalls (st : AcceptorState) (s : ℕ) : ℕ :=
  ((st.sessions s).handlers.simple .disconnected).length + 1

/-- The number of calls of user code that a session makes when it gets a Logout, up to
the end of `handleDisconnect`. -/
def AcceptorState.logoutCalls (st : AcceptorState) (s : ℕ) : ℕ :=
  ((st.sessions s).handlers.simple .logout).length + (1 + st.disconnectCalls s)

theorem SameSetup.disconnectCalls {st st' : AcceptorState} (h : SameSetup st st') (s : ℕ) :
    st'.disconnectCalls s = st.disconnectCalls s := by
  unfold AcceptorState.disconnectCalls
  rw [(h s).1]

/-- From a state on, the code makes `n` calls of user code and comes to its end exactly
when none of them throws. -/
structure Calls {α : Type} (n : ℕ) (st : AcceptorState) (x : AcceptorM α) : Prop where
  setup : SameSetup st (x.after st)
  ok : ∀ a st', x.result st = (.ok a, st') →
    st.input.calmFor n = true ∧ st'.input = st.input.afterCalls n
  error : ∀ e st', x.result st = (.error e, st') → st.input.calmFor n = false

namespace Calls

variable {α β : Type} {m n : ℕ} {st : AcceptorState} {x : AcceptorM α}

theorem setup_of_result {r : Except JSError α} {st' : AcceptorState} (h : Calls n st x)
    (hr : x.result st = (r, st')) : SameSetup st st' := by
  rw [← after_of_result hr]
  exact h.setup

theorem pure (a : α) : Calls 0 st (Pure.pure a : AcceptorM α) := by
  refine ⟨.refl st, fun a' st' hr => ?_, fun e st' hr => ?_⟩
  · obtain ⟨_, rfl⟩ := Prod.mk.inj hr
    exact ⟨rfl, rfl⟩
  · cases (Prod.mk.inj hr).1

theorem modify {f : AcceptorState → AcceptorState} (hsetup : SameSetup st (f st))
    (hinput : (f st).input = st.input) : Calls 0 st (modify f : AcceptorM Unit) := by
  refine ⟨hsetup, fun a' st' hr => ?_, fun e st' hr => ?_⟩
  · obtain ⟨_, rfl⟩ := Prod.mk.inj hr
    exact ⟨rfl, hinput⟩
  · cases (Prod.mk.inj hr).1

theorem get_bind {f : AcceptorState → AcceptorM β} (hf : Calls n st (f st)) :
    Calls n st (get >>= f) := by
  have hresult : (get >>= f).result st = (f st).result st := by rw [result_bind, result_get]
  refine ⟨?_, fun a st' hr => hf.ok a st' (hresult ▸ hr), fun e st' hr =>
    hf.error e st' (hresult ▸ hr)⟩
  have hafter : (get >>= f).after st = (f st).after st := congrArg Prod.snd hresult
  rw [hafter]
  exact hf.setup

/-- The calls of a sequence. -/
theorem bind {f : α → AcceptorM β} (hx : Calls m st x)
    (hf : ∀ a st', x.result st = (.ok a, st') → Calls n st' (f a)) :
    Calls (m + n) st (x >>= f) := by
  rcases hr : x.result st with ⟨e | a, st1⟩
  · have hresult : (x >>= f).result st = (.error e, st1) := by rw [result_bind, hr]
    refine ⟨?_, fun a st' hr' => ?_, fun e' st' _ => ?_⟩
    · rw [after_of_result hresult]
      exact hx.setup_of_result hr
    · rw [hresult] at hr'
      cases (Prod.mk.inj hr').1
    · rw [Input.calmFor_add, hx.error e st1 hr, Bool.false_and]
  · have hresult : (x >>= f).result st = (f a).result st1 := by rw [result_bind, hr]
    obtain ⟨hcalm, hinput⟩ := hx.ok a st1 hr
    have hrest := hf a st1 hr
    refine ⟨?_, fun b st' hr' => ?_, fun e' st' hr' => ?_⟩
    · have hafter : (x >>= f).after st = (f a).after st1 := congrArg Prod.snd hresult
      rw [hafter]
      exact (hx.setup_of_result hr).trans hrest.setup
    · rw [hresult] at hr'
      obtain ⟨hcalm', hinput'⟩ := hrest.ok b st' hr'
      rw [hinput] at hcalm' hinput'
      exact ⟨by rw [Input.calmFor_add, hcalm, hcalm', Bool.true_and],
        hinput'.trans (Input.afterCalls_afterCalls ..)⟩
    · rw [hresult] at hr'
      have hcalm' := hrest.error e' st' hr'
      rw [hinput] at hcalm'
      rw [Input.calmFor_add, hcalm', Bool.and_false]

/-- The calls of a loop whose body makes one. -/
theorem forEach {f : α → AcceptorM Unit} (as : List α) (hf : ∀ a st, Calls 1 st (f a)) :
    Calls as.length st (Exec.forEach as f) := by
  induction as generalizing st with
  | nil => exact pure ()
  | cons a as ih =>
    rw [List.length_cons, Nat.add_comm]
    exact (hf a st).bind fun _ _ _ => ih

theorem congr (h : Calls m st x) (hmn : m = n) : Calls n st x := hmn ▸ h

/-- The code comes to its end exactly when none of its calls throws. -/
theorem ok_iff (h : Calls n st x) :
    (∃ a, (x.result st).1 = .ok a) ↔ st.input.calmFor n = true := by
  rcases hr : x.result st with ⟨e | a, st'⟩
  · simp [h.error e st' hr]
  · simp [(h.ok a st' hr).1]

end Calls

/-! ## The calls of the acceptor -/

variable {st : AcceptorState}

theorem calls_updateSession {s : ℕ} {f : Session → Session}
    (hhandlers : ∀ x, (f x).handlers = x.handlers) (hsocket : ∀ x, (f x).socket = x.socket)
    (hconfig : ∀ x, (f x).config = x.config) : Calls 0 st (updateSession s f) := by
  refine .modify (fun x => ?_) rfl
  by_cases hx : x = s
  · subst x
    simp [hhandlers, hsocket, hconfig]
  · simp [hx]

theorem result_callUser (st : AcceptorState) : callUser.result st =
    ((st.input.thrown.headD none).elim (.ok ()) .error,
      { st with input := { st.input with thrown := st.input.thrown.tail } }) := by
  unfold callUser
  simp only [result_bind, result_get, result_modify]
  cases st.input.thrown.headD none <;> rfl

theorem calls_callUser : Calls 1 st callUser := by
  have hresult := result_callUser st
  have hsetup : SameSetup st (callUser.after st) := by
    rw [after_of_result hresult]
    exact SameSetup.refl st
  cases h : st.input.thrown.headD none with
  | none =>
    rw [h] at hresult
    refine ⟨hsetup, fun a st' hr => ?_, fun e st' hr => ?_⟩
    · rw [hresult] at hr
      obtain ⟨_, rfl⟩ := Prod.mk.inj hr
      refine ⟨by rw [Input.calmFor_one, h]; rfl, ?_⟩
      unfold Input.afterCalls
      rw [List.drop_one]
    · rw [hresult] at hr
      cases (Prod.mk.inj hr).1
  | some e =>
    rw [h] at hresult
    refine ⟨hsetup, fun a st' hr => ?_, fun e st' hr => ?_⟩
    · rw [hresult] at hr
      cases (Prod.mk.inj hr).1
    · rw [Input.calmFor_one, h]
      rfl

theorem calls_observe (o : Observation) : Calls 0 st (observe o) := .modify (.refl st) rfl

theorem calls_emit (s : ℕ) (event : SessionEvent) : Calls 1 st (emit s event) :=
  ((calls_observe _).bind fun _ _ _ => calls_callUser).congr (Nat.zero_add 1)

theorem calls_runHandlers (s : ℕ) (kind : HandlerKind) :
    Calls ((st.sessions s).handlers.simple kind).length st (runHandlers s kind) := by
  refine ((calls_observe (.ran s kind)).bind fun _ st' hr => .get_bind ?_).congr (Nat.zero_add _)
  obtain ⟨_, rfl⟩ := Prod.mk.inj hr
  exact .forEach _ fun _ _ => calls_callUser

theorem calls_removeAllListeners (s : ℕ) : Calls 0 st (removeAllListeners s) :=
  .get_bind (.modify (.refl st) rfl)

theorem calls_handleDisconnect (s : ℕ) :
    Calls (st.disconnectCalls s) st (handleDisconnect s) := by
  have hupdate : Calls 0 st
      (updateSession s fun x => Session.clearTimers { x with state := .disconnected }) :=
    calls_updateSession (fun _ => rfl) (fun _ => rfl) fun _ => rfl
  refine (hupdate.bind fun _ st1 hr =>
    ((calls_runHandlers s .disconnected).congr ?_).bind fun _ _ _ =>
      (calls_emit s .disconnect).bind fun _ _ _ => calls_removeAllListeners s).congr
        (Nat.zero_add _)
  rw [((hupdate.setup_of_result hr) s).1]

theorem calls_endSocket (c : ℕ) : Calls 0 st (endSocket c) := .modify (.refl st) rfl

theorem calls_endWritable (s : ℕ) : Calls 0 st (endWritable s) := by
  refine .get_bind ?_
  split
  · exact calls_endSocket _
  · exact .pure ()

theorem calls_removeSession (sessionId : JSString) : Calls 0 st (removeSession sessionId) := by
  refine .get_bind ?_
  split
  · exact .modify (.refl st) rfl
  · exact .pure ()

theorem calls_removeId (s : ℕ) : Calls 0 st (removeId s) := .get_bind (calls_removeSession _)

end NestQuickfix.Acceptor
