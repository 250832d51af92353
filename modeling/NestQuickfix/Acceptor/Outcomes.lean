import NestQuickfix.Acceptor.Routine
import NestQuickfix.Acceptor.Settling

/-!
# What becomes of the messages

A message whose processing has begun is passed to a session, is refused with a Logout, or is
a Logon for which a session is created; until then it waits for its validation. Nothing is
dropped silently, and nothing is answered twice.
-/

namespace NestQuickfix.Acceptor

open Lib Lib.Exec

/-! ## Tallies -/

/-- The processing of a message of a connection begins. -/
def Observation.begins (c : ℕ) : Observation → Bool
  | .processing x _ => x = c
  | _ => false

/-- A message of a connection is passed to a session. -/
def Observation.dispatches (c : ℕ) : Observation → Bool
  | .dispatched x _ _ => x = c
  | _ => false

/-- A message of a connection is refused. -/
def Observation.refuses (c : ℕ) : Observation → Bool
  | .refused x _ => x = c
  | _ => false

namespace AcceptorState

/-- How many messages of a connection have begun to be processed. -/
def begun (st : AcceptorState) (c : ℕ) : ℕ := st.trace.countP (Observation.begins c)

/-- How many messages of a connection were passed to a session. -/
def dispatches (st : AcceptorState) (c : ℕ) : ℕ := st.trace.countP (Observation.dispatches c)

/-- How many messages of a connection were refused. -/
def refusals (st : AcceptorState) (c : ℕ) : ℕ := st.trace.countP (Observation.refuses c)

/-- How many sessions were created for a connection. -/
def sessionsOn (st : AcceptorState) (c : ℕ) : ℕ :=
  (List.range st.nextSession).countP fun s => (st.sessions s).socket = c

/-- How many Logons of a connection are being validated. -/
def validating (st : AcceptorState) (c : ℕ) : ℕ :=
  st.tasks.countP fun frame => frame.validates.map Prod.fst = some c

end AcceptorState

/-- Of the messages of a connection that have begun, `n` are not accounted for yet. -/
structure Owes (c n : ℕ) (st : AcceptorState) : Prop where
  beginString : st.config.beginString.Printable
  refusable : ∀ frame ∈ st.tasks, ∀ x ∈ frame.validates, Refusable st.config x.2
  count : st.begun c = st.dispatches c + st.refusals c + st.sessionsOn c + st.validating c + n

/-- Whether a message of connection `x` counts for connection `c`. -/
def countsFor (x c : ℕ) : ℕ := if x = c then 1 else 0

variable {st st' : AcceptorState} {e : Step} {c n x : ℕ} {m : Message} {rest : List Message}
  {frame : Frame} {a : Act} {α β : Type}

/-! ## Acts -/

/-- An act that has nothing to do with the outcome of a message. -/
def Act.neutral : Act → Bool
  | .take _ | .create .. => false
  | .suspend frame => frame.validates.isNone
  | .observe (.processing ..) | .observe (.dispatched ..) | .observe (.refused ..) => false
  | _ => true

theorem begun_observe (o : Observation) (st : AcceptorState) :
    ((Act.observe o).apply st).begun c = st.begun c + if o.begins c then 1 else 0 := by
  have htrace : ((Act.observe o).apply st).trace = st.trace ++ [o] := rfl
  rw [AcceptorState.begun, htrace, List.countP_append, List.countP_singleton]
  rfl

theorem dispatches_observe (o : Observation) (st : AcceptorState) :
    ((Act.observe o).apply st).dispatches c =
      st.dispatches c + if o.dispatches c then 1 else 0 := by
  have htrace : ((Act.observe o).apply st).trace = st.trace ++ [o] := rfl
  rw [AcceptorState.dispatches, htrace, List.countP_append, List.countP_singleton]
  rfl

theorem refusals_observe (o : Observation) (st : AcceptorState) :
    ((Act.observe o).apply st).refusals c = st.refusals c + if o.refuses c then 1 else 0 := by
  have htrace : ((Act.observe o).apply st).trace = st.trace ++ [o] := rfl
  rw [AcceptorState.refusals, htrace, List.countP_append, List.countP_singleton]
  rfl

/-- The observations of a neutral act are not counted. -/
theorem trace_neutral (ha : a.neutral = true) (st : AcceptorState) :
    (a.apply st).begun c = st.begun c ∧ (a.apply st).dispatches c = st.dispatches c ∧
      (a.apply st).refusals c = st.refusals c := by
  cases hobserves : a.observes with
  | false =>
    unfold AcceptorState.begun AcceptorState.dispatches AcceptorState.refusals
    rw [trace_apply hobserves]
    exact ⟨rfl, rfl, rfl⟩
  | true =>
    cases a with
    | observe o =>
      rw [begun_observe, dispatches_observe, refusals_observe]
      cases o with
      | processing | dispatched | refused => cases ha
      | _ => exact ⟨rfl, rfl, rfl⟩
    | disconnect s =>
      unfold AcceptorState.begun AcceptorState.dispatches AcceptorState.refusals
      have htrace : ((Act.disconnect s).apply st).trace = st.trace ++ [.ran s .disconnected] := rfl
      rw [htrace, List.countP_append, List.countP_append, List.countP_append]
      exact ⟨rfl, rfl, rfl⟩
    | _ => cases hobserves

/-- Sessions stay on their sockets. -/
theorem sessionsOn_apply (ha : ∀ config x, a ≠ .create config x) (st : AcceptorState) :
    (a.apply st).sessionsOn c = st.sessionsOn c := by
  unfold AcceptorState.sessionsOn
  rw [nextSession_apply ha]
  refine List.countP_congr fun s hs => ?_
  rw [(session_apply a (List.mem_range.mp hs)).2]

/-- The tasks of a neutral act validate no Logon. -/
theorem tasks_neutral (ha : a.neutral = true) (st : AcceptorState) :
    (a.apply st).validating c = st.validating c ∧ ∀ frame ∈ (a.apply st).tasks,
      frame ∈ st.tasks ∨ frame.validates = none := by
  have htake : ∀ i, a ≠ .take i := by
    rintro i rfl
    cases ha
  have hadds : ∀ frame ∈ a.adds st, frame.validates = none := by
    intro frame hframe
    rcases mem_adds hframe with rfl | ⟨k, stopping, rfl⟩
    · exact Option.isNone_iff_eq_none.mp ha
    · rfl
  constructor
  · have hzero : (a.adds st).countP (fun frame => frame.validates.map Prod.fst = some c) = 0 := by
      refine List.countP_eq_zero.mpr fun frame hframe => ?_
      rw [hadds frame hframe]
      simp
    unfold AcceptorState.validating
    rw [tasks_apply htake, List.countP_append, hzero, Nat.add_zero]
  · intro frame hframe
    rw [tasks_apply htake] at hframe
    exact (List.mem_append.mp hframe).imp_right (hadds frame)

namespace Owes

theorem neutral (h : Owes c n st) (ha : a.neutral = true) : Owes c n (a.apply st) := by
  have hcreate : ∀ config x, a ≠ .create config x := by
    rintro config x rfl
    cases ha
  obtain ⟨hbegun, hdispatches, hrefusals⟩ := trace_neutral (c := c) ha st
  obtain ⟨hvalidating, htasks⟩ := tasks_neutral (c := c) ha st
  refine ⟨?_, fun frame hframe y hy => ?_, ?_⟩
  · rw [config_apply]
    exact h.beginString
  · rw [config_apply]
    rcases htasks frame hframe with hold | hnone
    · exact h.refusable frame hold y hy
    · rw [hnone] at hy
      cases hy
  · rw [hbegun, hdispatches, hrefusals, hvalidating, sessionsOn_apply hcreate]
    exact h.count

/-- An observation changes what is owed as it is counted. -/
theorem observe {k : ℕ} (h : Owes c k st) (o : Observation)
    (hn : k + (if o.begins c then 1 else 0) =
      n + (if o.dispatches c then 1 else 0) + if o.refuses c then 1 else 0) :
    Owes c n ((Act.observe o).apply st) := by
  refine ⟨h.beginString, h.refusable, ?_⟩
  have hcount := h.count
  have hsessions : ((Act.observe o).apply st).sessionsOn c = st.sessionsOn c := rfl
  have hvalidating : ((Act.observe o).apply st).validating c = st.validating c := rfl
  rw [begun_observe, dispatches_observe, refusals_observe]
  omega

theorem begin (h : Owes c n st) (x : ℕ) (m : Message) :
    Owes c (n + countsFor x c) ((Act.observe (.processing x m)).apply st) :=
  h.observe _ (by simp [Observation.begins, Observation.dispatches, Observation.refuses, countsFor])

theorem dispatch (h : Owes c (n + countsFor x c) st) (s : ℕ) (m : Message) :
    Owes c n ((Act.observe (.dispatched x s m)).apply st) :=
  h.observe _ (by simp [Observation.begins, Observation.dispatches, Observation.refuses, countsFor])

theorem refuse (h : Owes c (n + countsFor x c) st) (raw : JSString) :
    Owes c n ((Act.observe (.refused x raw)).apply st) :=
  h.observe _ (by simp [Observation.begins, Observation.dispatches, Observation.refuses, countsFor])

/-- A Logon is owed while it is not suspended. -/
theorem suspend (h : Owes c (n + countsFor x c) st) (hframe : frame.validates = some (x, m))
    (hm : Refusable st.config m) : Owes c n ((Act.suspend frame).apply st) := by
  have htasks : ((Act.suspend frame).apply st).tasks = st.tasks ++ [frame] := rfl
  refine ⟨h.beginString, fun frame' hmem y hy => ?_, ?_⟩
  · rw [htasks, List.mem_append, List.mem_singleton] at hmem
    rcases hmem with hmem | rfl
    · exact h.refusable frame' hmem y hy
    · obtain rfl := Option.some.inj (hframe.symm.trans hy)
      exact hm
  · have hcount := h.count
    have hvalidating : ((Act.suspend frame).apply st).validating c =
        st.validating c + countsFor x c := by
      rw [AcceptorState.validating, htasks, List.countP_append, List.countP_singleton, hframe]
      simp [AcceptorState.validating, countsFor]
    have hbegun : ((Act.suspend frame).apply st).begun c = st.begun c := rfl
    have hdispatches : ((Act.suspend frame).apply st).dispatches c = st.dispatches c := rfl
    have hrefusals : ((Act.suspend frame).apply st).refusals c = st.refusals c := rfl
    have hsessions : ((Act.suspend frame).apply st).sessionsOn c = st.sessionsOn c := rfl
    omega

/-- Taking a task makes its Logon owed. -/
theorem take (h : Owes c n st) {i : ℕ} (hf : st.tasks[i]? = some frame) :
    Owes c (n + (frame.validates.map fun y => countsFor y.1 c).getD 0)
      ((Act.take i).apply st) := by
  have htasks : ((Act.take i).apply st).tasks = st.tasks.eraseIdx i := rfl
  refine ⟨h.beginString, fun frame' hmem => h.refusable frame' (List.mem_of_mem_eraseIdx hmem), ?_⟩
  have hcount := h.count
  have hvalidating : st.validating c = ((Act.take i).apply st).validating c +
      (frame.validates.map fun y => countsFor y.1 c).getD 0 := by
    obtain ⟨hi, hframe⟩ := List.getElem?_eq_some_iff.mp hf
    have hsplit : st.tasks = st.tasks.take i ++ frame :: st.tasks.drop (i + 1) := by
      rw [← hframe, List.getElem_cons_drop, List.take_append_drop]
    unfold AcceptorState.validating
    rw [htasks, List.eraseIdx_eq_take_drop_succ]
    conv_lhs => rw [hsplit]
    rw [List.countP_append, List.countP_append, List.countP_cons]
    cases frame.validates with
    | none => simp
    | some y => simp [countsFor, Nat.add_assoc]
  have hbegun : ((Act.take i).apply st).begun c = st.begun c := rfl
  have hdispatches : ((Act.take i).apply st).dispatches c = st.dispatches c := rfl
  have hrefusals : ((Act.take i).apply st).refusals c = st.refusals c := rfl
  have hsessions : ((Act.take i).apply st).sessionsOn c = st.sessionsOn c := rfl
  omega

/-- A new session accounts for its Logon. -/
theorem create (h : Owes c (n + countsFor x c) st) (config : SessionConfig) :
    Owes c n ((Act.create config x).apply st) := by
  refine ⟨h.beginString, h.refusable, ?_⟩
  have hcount := h.count
  have hnext : ((Act.create config x).apply st).nextSession = st.nextSession + 1 := rfl
  have hsessions : ((Act.create config x).apply st).sessionsOn c =
      st.sessionsOn c + countsFor x c := by
    have hold : ∀ s ∈ List.range st.nextSession,
        ((((Act.create config x).apply st).sessions s).socket = c) = ((st.sessions s).socket = c) :=
      fun s hs => by rw [(session_apply (.create config x) (List.mem_range.mp hs)).2]
    have hnew : (((Act.create config x).apply st).sessions st.nextSession).socket = x := by
      rw [sessions_apply_eq, Act.onSession, if_pos rfl]
      rfl
    unfold AcceptorState.sessionsOn
    rw [hnext, List.range_succ, List.countP_append, List.countP_singleton, hnew]
    congr 1
    · exact List.countP_congr fun s hs => by simp [hold s hs]
    · simp [countsFor]
  have hbegun : ((Act.create config x).apply st).begun c = st.begun c := rfl
  have hdispatches : ((Act.create config x).apply st).dispatches c = st.dispatches c := rfl
  have hrefusals : ((Act.create config x).apply st).refusals c = st.refusals c := rfl
  have hvalidating : ((Act.create config x).apply st).validating c = st.validating c := rfl
  omega

end Owes

/-! ## Code -/

/-- A computation that has nothing to do with outcomes. -/
def Indifferent (x : AcceptorM α) : Prop := ∀ c n, Exec.Keeps (Owes c n) x

theorem indifferent_of_performs {x : AcceptorM α}
    (h : ∀ st, ∃ A, Performs A st x ∧ ∀ a ∈ A, a.neutral = true) : Indifferent x := by
  refine fun c n => .of_after fun st hst => ?_
  obtain ⟨A, hx, hA⟩ := h st
  exact hx.keeps (P := Owes c n) (fun st1 a _ ha howes => howes.neutral (hA a ha)) hst

/-- Routine acts have nothing to do with outcomes. -/
theorem neutral_of_routine (ha : a.routine = true) : a.neutral = true := by
  cases a with
  | take | create | beginLogout => cases ha
  | suspend frame => exact ha
  | observe o => cases o <;> first | rfl | cases ha
  | _ => rfl

theorem neutral_logout {s : ℕ} {caller : LogoutCaller} (ha : a ∈ logoutActs st s caller) :
    a.neutral = true := by
  rcases ha with ⟨_, ha⟩ | ⟨_, rfl | ha | ⟨_, rfl⟩⟩
  · exact neutral_of_routine (routine_settleLogout ha)
  · rfl
  · exact neutral_of_routine (routine_send ha)
  · rfl

theorem neutral_finish {s : ℕ} (ha : a ∈ finishActs st s) : a.neutral = true := by
  rcases ha with ⟨_, rfl⟩ | ⟨_, rfl⟩ <;> rfl

theorem neutral_register {s : ℕ} {dropped : Bool} (ha : a ∈ registerActs st s dropped) :
    a.neutral = true := by
  rcases ha with ⟨_, ha⟩ | ⟨_, _, ha⟩
  · exact neutral_finish ha
  · exact neutral_logout ha

theorem indifferent_handleMessage (origin : Origin) (s : ℕ) (m : Message) :
    Indifferent (handleMessage origin s m) :=
  indifferent_of_performs fun _ => ⟨_, performs_handleMessage fun _ => id,
    fun _ ha => neutral_of_routine (routine_handleMessage ha)⟩

/-! ## Refusals -/

theorem neutral_failWrite {x : ℕ} (ha : a ∈ failWriteActs x) : a.neutral = true := by
  rcases ha with rfl | ⟨_, rfl⟩ | ⟨_, rfl⟩ <;> rfl

theorem indifferent_failEndedWrite (x : ℕ) : Indifferent (failEndedWrite x) :=
  indifferent_of_performs fun _ => ⟨_, performs_failEndedWrite fun _ => id,
    fun _ => neutral_failWrite⟩

/-- A computation that accounts for one message of a connection, if it can be refused. -/
def Settles (x : ℕ) (m : Message) (y : AcceptorM Unit) : Prop :=
  ∀ st c n, Refusable st.config m → Owes c (n + countsFor x c) st → Owes c n (y.after st)

/-- What a refusal that has been sent accounts for. -/
theorem settles_attempt_refusal (x : ℕ) (m : Message) (rest : List Message) (reason : JSString)
    {f : Except JSError Unit → AcceptorM Unit} (hok : f (.ok ()) = pure ()) :
    Settles x m (attempt (sendLogoutAndClose x m rest reason) >>= f) := by
  intro st c n hm h
  obtain ⟨raw, hraw⟩ := refusable_iff.mp hm
  rw [after_refusal x m rest reason hok, hraw]
  exact ((indifferent_failEndedWrite x c n).after (h.refuse raw)).neutral
    (a := .suspend (.closeDelay x rest)) rfl

theorem settles_refuseMessage (x : ℕ) (m : Message) (rest : List Message) (reason : JSString) :
    Settles x m (refuseMessage x m rest reason) := settles_attempt_refusal x m rest reason rfl

theorem settles_refuseThrownLogon (x : ℕ) (m : Message) (rest : List Message)
    (reason : JSString) : Settles x m (refuseThrownLogon x m rest reason) :=
  settles_attempt_refusal x m rest reason rfl

theorem settles_refuseLogon (x : ℕ) (m : Message) (rest : List Message) (reason : JSString) :
    Settles x m (refuseLogon x m rest reason) := settles_attempt_refusal x m rest reason rfl

/-! ## Validation -/

theorem Settles.get_bind {f : AcceptorState → AcceptorM Unit} (hf : ∀ st, Settles x m (f st)) :
    Settles x m (get >>= f) := by
  intro st c n hm h
  rw [after_bind_of_ok (result_get st)]
  exact hf st st c n hm h

theorem settles_suspend (hframe : frame.validates = some (x, m)) :
    Settles x m (suspend frame) := fun _ _ _ hm h => h.suspend hframe hm

theorem settles_validateLogon (x : ℕ) (m : Message) (rest : List Message) :
    Settles x m (validateLogon x m rest) := by
  refine .get_bind fun st => ?_
  split
  · exact settles_suspend rfl
  · split
    · exact settles_suspend rfl
    · split <;> exact settles_suspend rfl

theorem settles_afterValidateCredentials (x : ℕ) (m : Message) (rest : List Message) :
    Settles x m (afterValidateCredentials x m rest) := by
  refine .get_bind fun st => ?_
  split
  · exact settles_suspend rfl
  · split <;> exact settles_suspend rfl

theorem settles_afterGetAllowedSenderCompIds (x : ℕ) (m : Message) (rest : List Message) :
    Settles x m (afterGetAllowedSenderCompIds x m rest) := by
  refine .get_bind fun st => ?_
  split
  · exact settles_suspend rfl
  · split <;> exact settles_suspend rfl

/-- A valid Logon is accounted for by its session. -/
theorem settles_afterValidated (x : ℕ) (m : Message) (rest : List Message)
    (verdict : LogonVerdict) : Settles x m (afterValidated x m rest verdict) := by
  cases verdict with
  | thrown e => exact settles_refuseThrownLogon x m rest e
  | invalid reason => exact settles_refuseLogon x m rest _
  | valid =>
    intro st c n _ h
    have hpath : Path Act.apply _ _ ((afterValidated x m rest .valid).after st) :=
      path_afterValidated fun _ => id
    refine hpath.keeps
      (P := Owes c n) (fun st1 a _ ha howes => howes.neutral ?_) (h.create _)
    rcases ha with rfl | ha
    · rfl
    · exact neutral_register ha

/-! ## Processing -/

theorem settles_handleNonLogonMessage (x : ℕ) (m : Message) (rest : List Message) :
    Settles x m (handleNonLogonMessage x m rest) := by
  refine .get_bind fun st => ?_
  split
  · exact settles_refuseMessage x m rest _
  · next s hs =>
    intro st c n _ h
    rw [after_bind_of_ok (result_observe _)]
    exact (indifferent_handleMessage _ s m c n).after (h.dispatch s m)

/-- A message that can be logged can be refused. -/
theorem refusable_of_toString {config : AcceptorConfig} (h : config.beginString.Printable)
    {raw : JSString} (hraw : m.toString = .ok raw) : Refusable config m := by
  obtain ⟨hrequired, hprintable⟩ := Message.exists_toString_iff.mp ⟨raw, hraw⟩
  exact ⟨h, hprintable _ (hrequired _ (by decide)) (by decide) (by decide),
    hprintable _ (hrequired _ (by decide)) (by decide) (by decide)⟩

/-- The loop over the messages of a chunk accounts for the message it begins. -/
theorem Owes.processMessages (h : Owes c n st) (x : ℕ) (ms : List Message) :
    Owes c n ((processMessages x ms).after st) := by
  cases ms with
  | nil => exact h
  | cons m rest =>
    rw [Acceptor.processMessages]
    split
    · split
      · next e _ =>
        exact (h.neutral (a := .observe (.failed e)) rfl).neutral (a := .destroy x) rfl
      · next raw hraw =>
        rw [after_bind_of_ok (result_observe _)]
        have hm := refusable_of_toString h.beginString hraw
        have hbegin := h.begin x m
        split
        · exact settles_validateLogon x m rest _ c n hm hbegin
        · exact settles_handleNonLogonMessage x m rest _ c n hm hbegin
    · exact h.neutral (a := .suspend (.nextMessage x rest)) rfl

/-! ## Steps -/

/-- Whether a user creates a session. -/
def Event.createsSession : Event → Bool
  | .newSession .. | .createSession .. => true
  | _ => false

/-- Going on with any other task has nothing to do with outcomes. -/
theorem neutral_resume (hframe : frame.validates = none)
    (hnext : ∀ x rest, frame ≠ .nextMessage x rest) (ha : a ∈ resumeActs st frame) :
    a.neutral = true := by
  by_cases hregistration : ∃ s dropped, frame = .registration s dropped
  · obtain ⟨s, dropped, rfl⟩ := hregistration
    exact neutral_finish ha
  · exact neutral_of_routine (routine_resume hframe hnext
      (fun s dropped heq => hregistration ⟨s, dropped, heq⟩) ha)

theorem neutral_nextListener (ha : a ∈ nextListenerActs st) : a.neutral = true := by
  unfold nextListenerActs at ha
  split at ha
  · cases ha
  · obtain rfl := Set.mem_singleton_iff.mp ha
    rfl
  · rcases ha with ha | rfl | rfl | ⟨_, rfl⟩
    · exact neutral_of_routine (routine_listener ha)
    all_goals rfl

theorem neutral_closeAll {stopping : Bool} (ha : a ∈ closeAllActs st stopping) :
    a.neutral = true := by
  rcases ha with rfl | ⟨_, _, ha⟩
  · rfl
  · exact neutral_logout ha

/-- An event that neither processes a message nor creates a session has nothing to do with
outcomes. -/
theorem neutral_event {event : Event} (hcreates : event.createsSession = false)
    (hdata : ∀ x data, event ≠ .data x data) (hresume : ∀ i, event ≠ .resume i)
    (ha : a ∈ eventActs st event) : a.neutral = true := by
  cases event with
  | data x data => exact absurd rfl (hdata x data)
  | resume i => exact absurd rfl (hresume i)
  | newSession | createSession => cases hcreates
  | nextListener => exact neutral_nextListener ha
  | heartbeat | send => exact neutral_of_routine (routine_send ha)
  | logout => exact neutral_logout ha
  | handleMessage => exact neutral_of_routine (routine_handleMessage ha)
  | stop | closeAll => exact neutral_closeAll ha
  | registerSession => exact neutral_register ha
  | socketError => rcases ha with ⟨_, rfl⟩ | ⟨_, rfl⟩ | rfl <;> rfl
  | connect | close | reject | join | leave | registerHandlers | removeSession =>
    obtain rfl := Set.mem_singleton_iff.mp ha
    rfl

/-- After a step nothing is owed again. -/
theorem Owes.step (h : Owes c 0 st) (hstep : st.step e = some st')
    (hcreates : e.event.createsSession = false) : Owes c 0 st' := by
  have hmeets : Owes c 0 (st.meets e) := ⟨h.beginString, h.refusable, h.count⟩
  rcases e with ⟨event, input⟩
  by_cases hdata : ∃ x data, event = .data x data
  · obtain ⟨x, data, rfl⟩ := hdata
    rw [← after_of_step hstep]
    unfold perform receive
    rw [after_bind_of_ok (result_get _)]
    split
    · exact hmeets.processMessages x _
    · exact hmeets
  by_cases hresume : ∃ i, event = .resume i
  · obtain ⟨i, rfl⟩ := hresume
    obtain ⟨frame, hf⟩ := exists_task_of_step hstep rfl
    have hf' : (st.meets ⟨.resume i, input⟩).tasks[i]? = some frame := hf
    have htaken := hmeets.take hf'
    have hrefusable := hmeets.refusable frame (List.mem_of_getElem? hf')
    rw [← after_resume_step hstep rfl hf]
    cases hframe : frame.validates with
    | none =>
      rw [hframe] at htaken
      by_cases hnext : ∃ x rest, frame = .nextMessage x rest
      · obtain ⟨x, rest, rfl⟩ := hnext
        exact htaken.processMessages x rest
      · have hnext' : ∀ x rest, frame ≠ .nextMessage x rest :=
          fun x rest heq => hnext ⟨x, rest, heq⟩
        exact (performs_resume fun _ => id).keeps (P := Owes c 0)
          (fun st1 a _ ha howes => howes.neutral (neutral_resume hframe hnext' ha)) htaken
    | some y =>
      have hy := hrefusable y hframe
      rw [hframe] at htaken
      cases frame with
      | validateCredentials x m rest =>
        cases hframe
        exact settles_afterValidateCredentials x m rest _ c 0 hy htaken
      | getAllowedSenderCompIds x m rest =>
        cases hframe
        exact settles_afterGetAllowedSenderCompIds x m rest _ c 0 hy htaken
      | validated x m rest verdict =>
        cases hframe
        exact settles_afterValidated x m rest verdict _ c 0 hy htaken
      | _ => cases hframe
  · exact (step_path hstep).keeps (P := Owes c 0) (fun st1 a _ ha howes => howes.neutral
      (neutral_event hcreates (fun x data heq => hdata ⟨x, data, heq⟩)
        (fun i heq => hresume ⟨i, heq⟩) ha)) hmeets

theorem owes_of_reached (h : acceptor.Reached (fun _ e => e.event.createsSession = false) st)
    (hbegin : st.config.beginString.Printable) (c : ℕ) : Owes c 0 st := by
  induction h with
  | init hinit =>
    obtain ⟨config, rfl⟩ := hinit
    exact ⟨hbegin, fun frame hframe => absurd hframe List.not_mem_nil, rfl⟩
  | step _ hcreates hstep ih =>
    rw [config_step hstep] at hbegin
    exact (ih hbegin).step hstep hcreates

/-- In every run in which users create no sessions themselves, and for every connection: of the
messages whose processing has begun, each was passed to a session, was refused, or is a Logon
that has a session or is still being validated; when the acceptor has come to rest, none is. -/
theorem begun_eq_outcomes
    (h : acceptor.Reached (fun _ e => e.event.createsSession = false) st)
    (hbegin : st.config.beginString.Printable) (c : ℕ) :
    st.begun c = st.dispatches c + st.refusals c + st.sessionsOn c + st.validating c ∧
      (st.Settled → st.validating c = 0) := by
  refine ⟨(owes_of_reached h hbegin c).count, fun hsettled => ?_⟩
  rw [AcceptorState.validating, hsettled.tasks]
  rfl

/-- A client logs on and sends a Heartbeat, and another one under the name of a stranger. -/
def strangerSteps : List Step :=
  (Event.connect (js "client:1")).calmly :: logonSteps 0 (js "CLIENT") ++
    [.data 0 (clientBytes (js "0") (js "CLIENT") []), .resume 0,
      .data 0 (clientBytes (js "0") (js "STRANGER") []), .resume 0, .resume 0].map Event.calmly

/-- The Logon has a session, the first Heartbeat is passed to it, the second one is refused. -/
theorem begun_eq_outcomes_stranger : ∃ st ∈ acceptor.exec (broker 1) strangerSteps,
    (st.begun 0, st.dispatches 0, st.refusals 0, st.sessionsOn 0) = (3, 1, 1, 1) ∧
      st.begun 0 = st.dispatches 0 + st.refusals 0 + st.sessionsOn 0 + st.validating 0 ∧
        (st.Settled → st.validating 0 = 0) := by
  have hrun : ∃ st ∈ acceptor.exec (broker 1) strangerSteps,
      (st.begun 0, st.dispatches 0, st.refusals 0, st.sessionsOn 0) = (3, 1, 1, 1) ∧
        st.config.beginString = .str (js "FIX.4.4") := by decide +kernel
  obtain ⟨st, hst, hcounts, hbegin⟩ := hrun
  have hinit : acceptor.Reached (fun _ e => e.event.createsSession = false) (broker 1) :=
    .init ⟨_, rfl⟩
  have hreached := hinit.exec (by decide +kernel) hst
  exact ⟨st, hst, hcounts, begun_eq_outcomes hreached (by rw [hbegin]; rfl) 0⟩

end NestQuickfix.Acceptor
