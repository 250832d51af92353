import NestQuickfix.Acceptor.Authentication
import NestQuickfix.Acceptor.Outcomes

/-!
# What strangers get to hear

With authentication configured, sessions only act for peers whose Logon has been accepted:
whatever a session writes, reports or hands to the application goes back to such a Logon.
All that other peers get to hear is a Logout that refuses a message of their own connection.
-/

namespace NestQuickfix.Acceptor

open Lib Lib.Exec

/-- The session that acts, or is acted on, in an observation. -/
def Observation.session : Observation → Option ℕ
  | .dispatched _ s _ | .wrote s _ _ | .answered s | .ran s _ | .emitted s _ | .handled s _ _ =>
    some s
  | _ => none

/-- A text is a Logout that refuses a message. -/
def Refuses (config : AcceptorConfig) (m : Message) (raw : JSString) : Prop :=
  ∃ sendingTime reason, (createLogoutMessage config sendingTime m reason).toString = .ok raw

/-- An observation is covered by the record: its session was created for an authenticated Logon or
by the application, and a refusal answers a message received on the same connection. -/
structure Observation.Accounted (st : AcceptorState) (facts : List LogonFact) (o : Observation) :
    Prop where
  session : ∀ s, o.session = some s →
    (∃ c m, BornOf st facts s c m) ∨ .constructed s ∈ facts
  refusal : ∀ c raw, o = .refused c raw → ∃ m, .received c m ∈ facts ∧ Refuses st.config m raw

variable {guard : AcceptorState → Step → Prop} {st st' : AcceptorState} {e : Step} {a : Act}
  {s c x : ℕ} {m : Message} {rest : List Message} {origin : Origin} {frame : Frame}
  {facts : List LogonFact} {α β : Type}

/-! ## The sessions of acts -/

/-- The session an act reports of. -/
def Act.tells : Act → Option ℕ
  | .observe o => o.session
  | .disconnect s => some s
  | _ => none

/-- Acts that report of no session but one. -/
def About (s : ℕ) : Set Act := {a | ∀ x, a.tells = some x → x = s}

/-- Every new entry of the trace is about the session of its act. -/
theorem tells_of_mem {o : Observation} (h : o ∈ (a.apply st).trace) :
    o ∈ st.trace ∨ a.tells = o.session := by
  cases hobserves : a.observes with
  | false =>
    rw [trace_apply hobserves] at h
    exact Or.inl h
  | true =>
    cases a with
    | observe o' =>
      refine (List.mem_append.mp h).imp_right fun h => ?_
      rw [List.mem_singleton.mp h]
      rfl
    | disconnect s =>
      refine (List.mem_append.mp h).imp_right fun h => ?_
      rw [List.mem_singleton.mp h]
      rfl
    | _ => cases hobserves

theorem about_send (ha : a ∈ sendActs s) : a ∈ About s := by
  rcases ha with rfl | ⟨_, _, rfl⟩ <;> intro x hx
  · cases hx
  · exact (Option.some.inj hx).symm

theorem about_ran {kind : HandlerKind} (ha : a ∈ ranActs s kind) : a ∈ About s := by
  rcases ha with rfl | rfl <;> intro x hx
  · exact (Option.some.inj hx).symm
  · cases hx

theorem about_emit {event : SessionEvent} (ha : a ∈ emitActs s event) : a ∈ About s := by
  rcases ha with rfl | rfl <;> intro x hx
  · exact (Option.some.inj hx).symm
  · cases hx

theorem about_tearDown {p : Prop} (ha : a ∈ tearDownActs s p) : a ∈ About s := by
  rcases ha with (rfl | rfl | rfl | ⟨_, rfl⟩) | ⟨_, rfl | rfl⟩ <;> intro x hx
  on_goal 2 => exact (Option.some.inj hx).symm
  on_goal 2 => exact (Option.some.inj hx).symm
  all_goals cases hx

theorem about_settleMessage (ha : a ∈ settleMessageActs origin) : a ∈ About s := by
  cases origin with
  | user => cases ha
  | chunk c rest logon => rcases ha with rfl | rfl <;> intro x hx <;> cases hx

theorem about_settleLogout {caller : LogoutCaller} {result : Except JSError Unit}
    (ha : a ∈ settleLogoutActs caller result) : a ∈ About s := by
  cases caller with
  | user => cases ha
  | registration x dropped =>
    obtain rfl := Set.mem_singleton_iff.mp ha
    rintro _ ⟨⟩
  | closeAll k =>
    obtain rfl := Set.mem_singleton_iff.mp ha
    rintro _ ⟨⟩

theorem about_logout {caller : LogoutCaller} (ha : a ∈ logoutActs st s caller) : a ∈ About s := by
  rcases ha with ⟨_, ha⟩ | ⟨_, rfl | ha | ⟨_, rfl⟩⟩
  · exact about_settleLogout ha
  · rintro _ ⟨⟩
  · exact about_send ha
  · rintro _ ⟨⟩

theorem tells_finish (ha : a ∈ finishActs st s) : a.tells = none := by
  rcases ha with ⟨_, rfl⟩ | ⟨_, rfl⟩ <;> rfl

theorem about_runMessageHandlers (ha : a ∈ runMessageHandlersActs origin s m) : a ∈ About s := by
  rcases ha with ha | rfl | ⟨_, rfl⟩ | ⟨_, rfl⟩
  · exact about_settleMessage ha
  · rintro _ ⟨⟩
  · exact fun x hx => (Option.some.inj hx).symm
  · rintro _ ⟨⟩

theorem about_handleMessage (ha : a ∈ handleMessageActs st origin s m) : a ∈ About s := by
  unfold handleMessageActs at ha
  split at ha
  · rcases ha with ha | rfl | rfl | ⟨_, rfl⟩
    · exact about_send ha
    · rintro _ ⟨⟩
    · exact fun x hx => (Option.some.inj hx).symm
    · rintro _ ⟨⟩
  · split at ha
    · rcases ha with ((((ha | ha) | rfl) | ha) | ha) | rfl
      · exact about_ran ha
      · exact about_emit ha
      · rintro _ ⟨⟩
      · exact about_tearDown ha
      · exact about_settleMessage ha
      · rintro _ ⟨⟩
    · split at ha
      · rcases ha with ha | ⟨_, rfl⟩
        · exact about_send ha
        · rintro _ ⟨⟩
      · exact about_runMessageHandlers ha

/-! ## Sessions that act were created before -/

theorem lt_of_register (hwf : WellFormed st.lifecycle) {dropped : Bool}
    (ha : a ∈ registerActs st s dropped) (hx : a.tells = some x) : x < st.nextSession := by
  rcases ha with ⟨_, ha⟩ | ⟨old, hold, ha⟩
  · rw [tells_finish ha] at hx
    cases hx
  · rw [about_logout ha x hx]
    exact (hwf.entry _ _ hold).2

theorem lt_of_process (hwf : WellFormed st.lifecycle) {ms : List Message}
    (ha : a ∈ processActs st c ms) (hx : a.tells = some x) : x < st.nextSession := by
  cases ms with
  | nil => cases ha
  | cons m rest =>
    rcases ha with ⟨rfl, _⟩ | ⟨_, rfl⟩ | rfl | rfl | ⟨_, ⟨_, rfl, _⟩ | ⟨rfl, _⟩⟩ |
      ⟨_, ((rfl | ⟨_, rfl⟩ | ⟨_, rfl⟩) | ⟨_, rfl⟩ | rfl | rfl) | ⟨s, hs, rfl | ha⟩⟩
    on_goal 13 =>
      rw [← Option.some.inj hx]
      exact (hwf.entry _ _ hs).2
    on_goal 13 =>
      rw [about_handleMessage ha x hx]
      exact (hwf.entry _ _ hs).2
    all_goals cases hx

theorem lt_of_nextListener (hwf : WellFormed st.lifecycle) (ha : a ∈ nextListenerActs st)
    (hx : a.tells = some x) : x < st.nextSession := by
  unfold nextListenerActs at ha
  split at ha
  · cases ha
  · obtain rfl := Set.mem_singleton_iff.mp ha
    cases hx
  · next c listener listeners hclosing =>
    rcases ha with ha | rfl | rfl | ⟨_, rfl⟩
    · cases listener with
      | acceptor =>
        rcases ha with rfl | ⟨s, hs, _, ha⟩
        · cases hx
        · rw [about_tearDown ha x hx]
          exact lt_nextSession_of_mem_values hwf hs
      | session s =>
        rw [about_tearDown ha x hx]
        exact ((hwf.closing _ _ hclosing).2 s List.mem_cons_self).2
    all_goals cases hx

theorem lt_of_closeAll (hwf : WellFormed st.lifecycle) {stopping : Bool}
    (ha : a ∈ closeAllActs st stopping) (hx : a.tells = some x) : x < st.nextSession := by
  rcases ha with rfl | ⟨s, hs, ha⟩
  · cases hx
  · rw [about_logout ha x hx]
    exact lt_nextSession_of_mem_values hwf hs

theorem lt_of_resume (hwf : WellFormed st.lifecycle) {i : ℕ} (hf : st.tasks[i]? = some frame)
    (hsession : ∀ s, frame.session = some s → s < st.nextSession) (ha : a ∈ resumeActs st frame)
    (hx : a.tells = some x) : x < st.nextSession := by
  cases frame with
  | nextMessage c rest => exact lt_of_process hwf ha hx
  | validateCredentials c m rest => rcases ha with ⟨_, rfl, _⟩ | ⟨rfl, _⟩ <;> cases hx
  | getAllowedSenderCompIds c m rest =>
    obtain ⟨_, rfl, _⟩ := ha
    cases hx
  | validated c m rest verdict =>
    cases verdict with
    | valid =>
      rcases ha with (rfl | rfl) | ha
      · cases hx
      · cases hx
      · rcases ha with ⟨_, ha⟩ | ⟨old, hold, ha⟩
        · rw [tells_finish ha] at hx
          cases hx
        · rw [about_logout ha x hx]
          exact (hwf.entry _ old hold).2
    | _ => rcases ha with (rfl | ⟨_, rfl⟩ | ⟨_, rfl⟩) | ⟨_, rfl⟩ | rfl | rfl <;> cases hx
  | closeDelay c rest => rcases ha with rfl | rfl <;> cases hx
  | created c s m rest => rcases ha with ⟨_, _, rfl⟩ | rfl <;> cases hx
  | handlersSet c s m rest =>
    rcases ha with rfl | ha
    · cases hx
    · rw [about_handleMessage ha x hx]
      exact (hwf.starting c s (mem_pending_of_task hf rfl)).2
  | logonResponse origin s m error =>
    have hs : s < st.nextSession := hsession s rfl
    rcases ha with (((ha | ha) | ha) | ha) | rfl | rfl
    · rwa [about_ran ha x hx]
    · rwa [about_ran ha x hx]
    · rwa [about_emit ha x hx]
    · rwa [about_settleMessage (s := s) ha x hx]
    · cases hx
    · cases hx
  | testRequestReply origin s m error =>
    rcases ha with ha | rfl
    · rw [about_settleMessage (s := s) ha x hx]
      exact hsession s rfl
    · cases hx
  | messageHandlers origin s m =>
    rw [about_runMessageHandlers ha x hx]
    exact hsession s rfl
  | handlerPending origin s m next =>
    rw [about_runMessageHandlers ha x hx]
    exact hsession s rfl
  | logoutSent s caller error =>
    have hs : s < st.nextSession := hsession s rfl
    rcases ha with ((ha | ha) | ha) | ⟨_, ha, _⟩
    · rwa [about_emit ha x hx]
    · rwa [about_emit ha x hx]
    · rwa [about_tearDown ha x hx]
    · rwa [about_settleLogout (s := s) ha x hx]
  | registration s dropped =>
    rw [tells_finish ha] at hx
    cases hx
  | allClosed k stopping => rcases ha with rfl | rfl <;> cases hx
  | closeAllSockets => rcases ha with rfl | ⟨_, _, rfl⟩ <;> cases hx

/-- The sessions that act in a step were created before it. -/
theorem lt_of_event (hreached : acceptor.Reached guard st) (henabled : st.enabled e.event = true)
    (ha : a ∈ eventActs (st.meets e) e.event) (hx : a.tells = some x) : x < st.nextSession := by
  have hwf : WellFormed st.lifecycle := wellFormed_of_reached hreached
  rcases e with ⟨event, input⟩
  change x < (st.meets ⟨event, input⟩).nextSession
  have hwf' : WellFormed (st.meets ⟨event, input⟩).lifecycle := hwf
  have hcalled : ∀ s, (decide (s < st.nextSession)) = true → a ∈ About s → x < st.nextSession := by
    intro s hs habout
    rw [habout x hx]
    exact of_decide_eq_true hs
  cases event with
  | data c data => exact lt_of_process hwf' ha.2 hx
  | socketError c err => rcases ha with ⟨_, rfl⟩ | ⟨_, rfl⟩ | rfl <;> cases hx
  | nextListener => exact lt_of_nextListener hwf' ha hx
  | resume i =>
    obtain ⟨frame, hf, rfl | ha⟩ := ha
    · cases hx
    · exact lt_of_resume hwf' hf
        (session_lt_nextSession hreached frame (List.mem_of_getElem? hf)) ha hx
  | heartbeat s =>
    rw [about_send ha x hx]
    exact hwf.timer s (Bool.and_eq_true_iff.mp (Bool.and_eq_true_iff.mp henabled).2).2
  | send s m => exact hcalled s (Bool.and_eq_true_iff.mp henabled).2 (about_send ha)
  | logout s reason => exact hcalled s (Bool.and_eq_true_iff.mp henabled).2 (about_logout ha)
  | handleMessage s m =>
    exact hcalled s (Bool.and_eq_true_iff.mp henabled).2 (about_handleMessage ha)
  | stop => exact lt_of_closeAll hwf' ha hx
  | closeAll => exact lt_of_closeAll hwf' ha hx
  | registerSession s => exact lt_of_register hwf' ha hx
  | createSession config c => rcases ha with rfl | rfl <;> cases hx
  | _ =>
    obtain rfl := Set.mem_singleton_iff.mp ha
    cases hx

/-- The sessions of the trace have been created. -/
theorem lt_of_observed (h : acceptor.Reached guard st) :
    ∀ o ∈ st.trace, ∀ s, o.session = some s → s < st.nextSession := by
  induction h with
  | init hinit =>
    obtain ⟨config, rfl⟩ := hinit
    exact fun o ho => by cases ho
  | @step st st' e hreached _ hstep ih =>
    intro o ho s hs
    refine Nat.lt_of_lt_of_le ?_ (nextSession_le_step hstep)
    refine (step_path hstep).keeps (P := fun st1 => ∀ o ∈ st1.trace, ∀ s, o.session = some s →
      s < st.nextSession) (fun st1 a _ ha h1 o ho s hs => ?_) ih o ho s hs
    rcases tells_of_mem ho with hold | htells
    · exact h1 o hold s hs
    · exact lt_of_event hreached (step_enabled hstep) ha (htells.trans hs)

/-! ## Refusals -/

/-- New refusals answer messages of a kind, and new validations are of messages of that kind. -/
structure Answers (P : ℕ → Message → Prop) (st st' : AcceptorState) : Prop where
  config : st'.config = st.config
  tasks : ∀ frame ∈ st'.tasks, frame ∈ st.tasks ∨ ∀ y ∈ frame.validates, P y.1 y.2
  refusals : ∀ c raw, .refused c raw ∈ st'.trace → .refused c raw ∈ st.trace ∨
    ∃ m, P c m ∧ Refuses st.config m raw

variable {P : ℕ → Message → Prop}

namespace Answers

theorem refl (st : AcceptorState) : Answers P st st :=
  ⟨rfl, fun _ => Or.inl, fun _ _ => Or.inl⟩

theorem trans {st'' : AcceptorState} (h : Answers P st st') (h' : Answers P st' st'') :
    Answers P st st'' := by
  refine ⟨h'.config.trans h.config, fun frame hframe => ?_, fun c raw hraw => ?_⟩
  · rcases h'.tasks frame hframe with hold | hnew
    · exact h.tasks frame hold
    · exact Or.inr hnew
  · rcases h'.refusals c raw hraw with hold | ⟨m, hm, hrefuses⟩
    · exact h.refusals c raw hold
    · exact Or.inr ⟨m, hm, h.config ▸ hrefuses⟩

theorem neutral (ha : a.neutral = true) (st : AcceptorState) : Answers P st (a.apply st) := by
  refine ⟨config_apply a st, fun frame hframe => ?_, fun c raw hraw => ?_⟩
  · refine ((tasks_neutral (c := 0) ha st).2 frame hframe).imp_right fun hnone y hy => ?_
    rw [hnone] at hy
    cases hy
  · cases hobserves : a.observes with
    | false =>
      rw [trace_apply hobserves] at hraw
      exact Or.inl hraw
    | true =>
      cases a with
      | observe o =>
        rcases List.mem_append.mp hraw with hold | hnew
        · exact Or.inl hold
        · obtain rfl := List.mem_singleton.mp hnew
          cases ha
      | disconnect s =>
        rcases List.mem_append.mp hraw with hold | hnew
        · exact Or.inl hold
        · cases List.mem_singleton.mp hnew
      | _ => cases hobserves

theorem observe {o : Observation} (ho : ∀ c raw, o ≠ .refused c raw) (st : AcceptorState) :
    Answers P st ((Act.observe o).apply st) := by
  refine ⟨rfl, fun _ => Or.inl, fun c raw hraw => Or.inl ?_⟩
  rcases List.mem_append.mp hraw with hold | hnew
  · exact hold
  · exact absurd (List.mem_singleton.mp hnew).symm (ho c raw)

theorem refuse {raw : JSString} (hm : P c m) (hrefuses : Refuses st.config m raw) :
    Answers P st ((Act.observe (.refused c raw)).apply st) := by
  refine ⟨rfl, fun _ => Or.inl, fun d raw' hraw => ?_⟩
  rcases List.mem_append.mp hraw with hold | hnew
  · exact Or.inl hold
  · cases List.mem_singleton.mp hnew
    exact Or.inr ⟨m, hm, hrefuses⟩

theorem suspend (hframe : ∀ y ∈ frame.validates, P y.1 y.2) (st : AcceptorState) :
    Answers P st ((Act.suspend frame).apply st) := by
  refine ⟨rfl, fun frame' hmem => ?_, fun _ _ => Or.inl⟩
  rcases List.mem_append.mp hmem with hold | hnew
  · exact Or.inl hold
  · obtain rfl := List.mem_singleton.mp hnew
    exact Or.inr hframe

theorem take (i : ℕ) (st : AcceptorState) : Answers P st ((Act.take i).apply st) :=
  ⟨rfl, fun _ hmem => Or.inl (List.mem_of_mem_eraseIdx hmem), fun _ _ => Or.inl⟩

theorem create (config : SessionConfig) (c : ℕ) (st : AcceptorState) :
    Answers P st ((Act.create config c).apply st) :=
  ⟨rfl, fun _ => Or.inl, fun _ _ => Or.inl⟩

end Answers

theorem answers_of_performs {A : Set Act} {y : AcceptorM α} (hy : Performs A st y)
    (hA : ∀ a ∈ A, a.neutral = true) : Answers P st (y.after st) :=
  hy.keeps (P := Answers P st) (fun st1 a _ ha h => h.trans (.neutral (hA a ha) st1)) (.refl st)

/-- A message is refused, or what its refusal throws is handled. -/
theorem answers_refusal (hm : P c m) (rest : List Message) (reason : JSString)
    {f : Except JSError Unit → AcceptorM Unit} (hok : f (.ok ()) = pure ())
    (herror : ∀ err, Ensures (Answers P) (f (.error err))) :
    Ensures (Answers P) (attempt (sendLogoutAndClose c m rest reason) >>= f) := by
  intro st
  rw [after_refusal c m rest reason hok]
  cases hraw : (createLogoutMessage st.config st.input.sendingTime m reason).toString with
  | error err => exact herror err st
  | ok raw =>
    exact ((Answers.refuse hm ⟨_, _, hraw⟩).trans (answers_of_performs
      (performs_failEndedWrite fun _ => id) fun _ => neutral_failWrite)).trans
        (.neutral (a := .suspend _) rfl _)

theorem answers_refuseMessage (hm : P c m) (rest : List Message) (reason : JSString) :
    Ensures (Answers P) (refuseMessage c m rest reason) :=
  answers_refusal hm rest reason rfl fun _ st => .neutral (a := .suspend _) rfl st

theorem answers_refuseThrownLogon (hm : P c m) (rest : List Message) (reason : JSString) :
    Ensures (Answers P) (refuseThrownLogon c m rest reason) :=
  answers_refusal hm rest reason rfl fun _ st =>
    (Answers.neutral (a := .destroy c) rfl st).trans (.neutral (a := .suspend _) rfl _)

theorem answers_refuseLogon (hm : P c m) (rest : List Message) (reason : JSString) :
    Ensures (Answers P) (refuseLogon c m rest reason) :=
  answers_refusal hm rest reason rfl fun err => answers_refuseThrownLogon hm rest err

/-! ## Validation and routing -/

theorem answers_get_bind {f : AcceptorState → AcceptorM Unit}
    (hf : ∀ st, Ensures (Answers P) (f st)) : Ensures (Answers P) (get >>= f) := by
  intro st
  rw [after_bind_of_ok (result_get st)]
  exact hf st st

theorem answers_suspend (hframe : ∀ y ∈ frame.validates, P y.1 y.2) :
    Ensures (Answers P) (suspend frame) := fun st => .suspend hframe st

/-- The task that goes on with the validation of a message. -/
theorem validates_imp (hm : P c m) (hframe : frame.validates = some (c, m)) :
    ∀ y ∈ frame.validates, P y.1 y.2 := by
  intro y hy
  obtain rfl := Option.some.inj (hframe.symm.trans hy)
  exact hm

theorem answers_validateLogon (hm : P c m) (rest : List Message) :
    Ensures (Answers P) (validateLogon c m rest) := by
  refine answers_get_bind fun st => ?_
  split
  · exact answers_suspend (validates_imp hm rfl)
  · split
    · exact answers_suspend (validates_imp hm rfl)
    · split <;> exact answers_suspend (validates_imp hm rfl)

theorem answers_afterValidateCredentials (hm : P c m) (rest : List Message) :
    Ensures (Answers P) (afterValidateCredentials c m rest) := by
  refine answers_get_bind fun st => ?_
  split
  · exact answers_suspend (validates_imp hm rfl)
  · split <;> exact answers_suspend (validates_imp hm rfl)

theorem answers_afterGetAllowedSenderCompIds (hm : P c m) (rest : List Message) :
    Ensures (Answers P) (afterGetAllowedSenderCompIds c m rest) := by
  refine answers_get_bind fun st => ?_
  split
  · exact answers_suspend (validates_imp hm rfl)
  · split <;> exact answers_suspend (validates_imp hm rfl)

theorem answers_afterValidated (hm : P c m) (rest : List Message) (verdict : LogonVerdict) :
    Ensures (Answers P) (afterValidated c m rest verdict) := by
  cases verdict with
  | thrown err => exact answers_refuseThrownLogon hm rest err
  | invalid reason => exact answers_refuseLogon hm rest _
  | valid =>
    intro st
    have hpath : Path Act.apply _ _ ((afterValidated c m rest .valid).after st) :=
      path_afterValidated fun _ => id
    refine hpath.keeps
      (P := Answers P st) (fun st1 a _ ha h => h.trans (.neutral ?_ st1)) (.create _ c st)
    rcases ha with rfl | ha
    · rfl
    · exact neutral_register ha

theorem answers_handleNonLogonMessage (hm : P c m) (rest : List Message) :
    Ensures (Answers P) (handleNonLogonMessage c m rest) := by
  refine answers_get_bind fun st => ?_
  split
  · exact answers_refuseMessage hm rest _
  · next s _ =>
    refine .bind Answers.trans (fun st => .observe (by rintro _ _ ⟨⟩) st) fun _ st => ?_
    exact answers_of_performs (performs_handleMessage fun _ => id) fun a ha =>
      neutral_of_routine (routine_handleMessage ha)

theorem answers_processMessages {ms : List Message} (hms : ∀ m ∈ ms.head?, P c m) :
    Ensures (Answers P) (processMessages c ms) := by
  cases ms with
  | nil => exact .pure Answers.refl _
  | cons m rest =>
    have hm : P c m := hms m rfl
    rw [processMessages]
    split
    · split
      · exact fun st => (Answers.neutral (a := .observe (.failed _)) rfl st).trans
          (.neutral (a := .destroy c) rfl _)
      · refine .bind Answers.trans (fun st => .observe (by rintro _ _ ⟨⟩) st) fun _ => ?_
        split
        · exact answers_validateLogon hm rest
        · exact answers_handleNonLogonMessage hm rest
    · exact fun st => .neutral (a := .suspend _) rfl st

/-! ## Steps -/

/-- An event comes to a message in the loop over a chunk, or goes on with its validation. -/
def AcceptorState.Considers (st : AcceptorState) (e : Event) (c : ℕ) (m : Message) : Prop :=
  (∃ rest, st.incoming e = some (c, m :: rest)) ∨
    ∃ frame, st.GoesOn e frame ∧ frame.validates = some (c, m)

theorem considers_of_incoming {event : Event} {ms : List Message}
    (h : st.incoming event = some (c, ms)) : ∀ m ∈ ms.head?, st.Considers event c m := by
  intro m hm
  cases ms with
  | nil => cases hm
  | cons m' rest =>
    obtain rfl := Option.some.inj hm
    exact Or.inl ⟨rest, h⟩

theorem answers_resume {i : ℕ} (hf : st.tasks[i]? = some frame) :
    Ensures (Answers (st.Considers (.resume i))) (resume frame) := by
  have hvalidates : ∀ c m, frame.validates = some (c, m) → st.Considers (.resume i) c m :=
    fun c m hm => Or.inr ⟨frame, ⟨i, rfl, hf⟩, hm⟩
  cases frame with
  | nextMessage c rest =>
    exact answers_processMessages (considers_of_incoming (by simp [AcceptorState.incoming, hf]))
  | validateCredentials c m rest => exact answers_afterValidateCredentials (hvalidates c m rfl) rest
  | getAllowedSenderCompIds c m rest =>
    exact answers_afterGetAllowedSenderCompIds (hvalidates c m rfl) rest
  | validated c m rest verdict => exact answers_afterValidated (hvalidates c m rfl) rest verdict
  | _ =>
    refine fun st => answers_of_performs (performs_resume fun _ => id) fun a ha =>
      neutral_resume rfl ?_ ha
    rintro _ _ ⟨⟩

/-- What a step answers and begins to validate. -/
theorem answers_step (hstep : st.step e = some st') :
    Answers (st.Considers e.event) (st.meets e) st' := by
  by_cases hcreates : e.event.createsSession = true
  · refine (step_path hstep).keeps (P := Answers _ (st.meets e)) (fun st1 a _ ha h =>
      h.trans ?_) (.refl _)
    rcases e with ⟨event, input⟩
    cases event with
    | newSession config c =>
      obtain rfl := Set.mem_singleton_iff.mp ha
      exact .create config c st1
    | createSession config c =>
      rcases ha with rfl | rfl
      · exact .create config c st1
      · exact .neutral (a := .register _) rfl st1
    | _ => cases hcreates
  rcases e with ⟨event, input⟩
  by_cases hdata : ∃ c data, event = .data c data
  · obtain ⟨c, data, rfl⟩ := hdata
    rw [← after_of_step hstep]
    unfold perform receive
    rw [after_bind_of_ok (result_get _)]
    split
    · next hlistener =>
      have hin : st.incoming (.data c data) = some (c, processData data) := if_pos hlistener
      exact answers_processMessages (considers_of_incoming hin) _
    · exact .refl _
  by_cases hresume : ∃ i, event = .resume i
  · obtain ⟨i, rfl⟩ := hresume
    obtain ⟨frame, hf⟩ := exists_task_of_step hstep rfl
    rw [← after_resume_step hstep rfl hf]
    exact (Answers.take i _).trans (answers_resume hf _)
  · exact (step_path hstep).keeps (P := Answers _ _) (fun st1 a _ ha h => h.trans (.neutral
      (neutral_event (Bool.eq_false_iff.mpr hcreates) (fun c data heq => hdata ⟨c, data, heq⟩)
        (fun i heq => hresume ⟨i, heq⟩) ha) st1)) (.refl _)

/-! ## The record -/

/-- Every validation and every refusal is of a message that was received. -/
structure Told (st : AcceptorState) (facts : List LogonFact) : Prop where
  tasks : ∀ frame ∈ st.tasks, ∀ y ∈ frame.validates, .received y.1 y.2 ∈ facts
  refusals : ∀ c raw, .refused c raw ∈ st.trace →
    ∃ m, .received c m ∈ facts ∧ Refuses st.config m raw

theorem Told.step (h : Told st facts) (hstep : st.step e = some st') :
    Told st' (facts ++ st.logonFacts e) := by
  have hanswers := answers_step hstep
  have hreceived : ∀ c m, st.Considers e.event c m →
      .received c m ∈ facts ++ st.logonFacts e := by
    rintro c m (⟨rest, hin⟩ | ⟨frame, ⟨i, _, hf⟩, hvalidates⟩)
    · exact List.mem_append_right _ (received_mem hin)
    · exact List.mem_append_left _ (h.tasks frame (List.mem_of_getElem? hf) (c, m) hvalidates)
  refine ⟨fun frame hframe y hy => ?_, fun c raw hraw => ?_⟩
  · rcases hanswers.tasks frame hframe with hold | hnew
    · exact List.mem_append_left _ (h.tasks frame hold y hy)
    · exact hreceived y.1 y.2 (hnew y hy)
  · rw [config_step hstep]
    rcases hanswers.refusals c raw hraw with hold | ⟨m, hm, hrefuses⟩
    · obtain ⟨m, hm, hrefuses⟩ := h.refusals c raw hold
      exact ⟨m, List.mem_append_left _ hm, hrefuses⟩
    · exact ⟨m, hreceived c m hm, hrefuses⟩

/-- The record of a run of an acceptor with authentication backs it and tells of its refusals. -/
theorem backed_of_recorded {p : AcceptorState × List LogonFact}
    (h : recordedAcceptor.Reached (fun _ _ => True) p) (hauth : p.1.config.auth = true) :
    Backed p.1 p.2 ∧ Told p.1 p.2 := by
  induction h with
  | init hinit =>
    obtain ⟨⟨config, hconfig⟩, hfacts⟩ := hinit
    rw [hconfig] at hauth ⊢
    rw [hfacts]
    refine ⟨⟨hauth, ?_, ?_, ?_, ?_⟩, ?_, ?_⟩
    · exact fun _ hframe => by cases hframe
    · exact fun _ _ _ hs => by cases hs
    · exact fun _ hs => by cases hs
    · exact fun _ hs => by cases hs
    · exact fun _ hframe => by cases hframe
    · exact fun _ _ hraw => by cases hraw
  | step _ _ hstep ih =>
    obtain ⟨hstep, hfacts⟩ := System.recorded_step.mp hstep
    rw [config_step hstep] at hauth
    rw [hfacts]
    exact ⟨(ih hauth).1.step hstep, (ih hauth).2.step hstep⟩

/-- In every run of an acceptor with authentication, a session that writes, gets a message, runs
handlers or emits an event was created for an authenticated Logon of the connection it writes to,
or by the application; everything else that is written is a Logout which refuses a message that
was received on the same connection. -/
theorem accounted_of_reached {p : AcceptorState × List LogonFact}
    (h : recordedAcceptor.Reached (fun _ _ => True) p) (hauth : p.1.config.auth = true) :
    ∀ o ∈ p.1.trace, o.Accounted p.1 p.2 := by
  obtain ⟨hbacked, htold⟩ := backed_of_recorded h hauth
  intro o ho
  refine ⟨fun s hs => ?_, fun c raw heq => htold.refusals c raw (heq ▸ ho)⟩
  have hreached : acceptor.Reached (fun _ _ => True) p.1 := .of_recorded (fun _ _ => id) h
  have hlt : s < p.1.nextSession := lt_of_observed hreached o ho s hs
  rcases hbacked.makers s hlt with ⟨c, m, hcreated⟩ | hconstructed
  · exact Or.inl ⟨c, m, (hbacked.created s c m hcreated).2⟩
  · exact Or.inr hconstructed

/-- A client is accepted, and a stranger sends a message without a Logon. -/
def intrudingSteps : List Step :=
  acceptedSteps ++ [Event.resume 0, .resume 0, .resume 0, .connect (js "stranger:1"),
    .data 1 (clientBytes (js "0") (js "STRANGER") [])].map Event.calmly

/-- The client gets a response, and the stranger a Logout. -/
theorem accounted_of_reached_intruding :
    ∃ p ∈ recordedAcceptor.exec (authenticatingBroker, []) intrudingSteps,
      p.1.trace.countP (fun o => o.session = some 0) = 5 ∧ p.1.refusals 1 = 1 ∧
        ∀ o ∈ p.1.trace, o.Accounted p.1 p.2 := by
  have hrun : ∃ p ∈ recordedAcceptor.exec (authenticatingBroker, []) intrudingSteps,
      p.1.trace.countP (fun o => o.session = some 0) = 5 ∧ p.1.refusals 1 = 1 ∧
        p.1.config.auth = true := by decide +kernel
  obtain ⟨p, hp, hcount, hrefusals, hauth⟩ := hrun
  have hreached : recordedAcceptor.Reached (fun _ _ => True) p := .of_exec ⟨⟨_, rfl⟩, rfl⟩ hp
  exact ⟨p, hp, hcount, hrefusals, accounted_of_reached hreached hauth⟩

end NestQuickfix.Acceptor
