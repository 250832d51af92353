import NestQuickfix.Acceptor.Changes
import NestQuickfix.Acceptor.Tasks
import NestQuickfix.Session.SequenceNumbers

/-!
# The outgoing sides of the sessions

All sends of a session, whatever code of the acceptor asks for them, go through one
`sendMessage` with one counter. Seen from a session, a run of the acceptor is a run of
its outgoing side: the sends can be read off the states in which the steps begin, and
nothing else writes to the socket in the name of the session or moves its counter.
-/

namespace NestQuickfix.Acceptor

open Lib Lib.Exec

/-! ## The sends of a session -/

/-- The message that a session writes. -/
def Observation.writtenBy (s : ℕ) : Observation → Option Message
  | .wrote x m _ => if x = s then some m else none
  | _ => none

namespace AcceptorState

/-- The messages that a session has written, in order. -/
def writesOf (st : AcceptorState) (s : ℕ) : List Message :=
  st.trace.filterMap (Observation.writtenBy s)

/-- What a send of a session meets. -/
def sendEnv (st : AcceptorState) (s : ℕ) : SendEnv :=
  ⟨st.input.sendingTime, st.writable (st.sessions s).socket, none⟩

/-- The sends of session `s` when `logout` of session `x` is called. -/
def logoutSends (st : AcceptorState) (s x : ℕ) (reason : Value) : List SendEvent :=
  if x = s ∧ (st.sessions s).state ≠ .disconnected then [.logout reason (st.sendEnv s)] else []

/-- The sends of session `s` when session `x` handles a message. -/
def replySends (st : AcceptorState) (s x : ℕ) (m : Message) : List SendEvent :=
  if x ≠ s then []
  else if m.getField Fields.msgType = MsgType.logon then [.sendLogonResponse (st.sendEnv s)]
  else if m.getField Fields.msgType = MsgType.logout then []
  else if m.getField Fields.msgType = MsgType.testRequest then
    [.handleTestRequest (m.getField Fields.testReqID) (st.sendEnv s)]
  else []

/-- The sends of session `s` when a session is registered under an id. -/
def registrationSends (st : AcceptorState) (s : ℕ) (id : JSString) : List SendEvent :=
  match st.registry.get? id with
  | none => []
  | some old => st.logoutSends s old
    (.str (js "Duplicate session detected - logging out existing session"))

/-- The sends of a session in an event. A user's message is a fresh object. -/
def sends (st : AcceptorState) (s : ℕ) (e : Event) : List SendEvent :=
  match st.incoming e with
  | some (_, m :: _) => (st.lifecycle.routed m).elim [] fun x => st.replySends s x m
  | some (_, []) => []
  | none =>
    match e with
    | .heartbeat x =>
      if x = s ∧ (st.sessions s).state = .loggedOn then [.heartbeat (st.sendEnv s)] else []
    | .send x m => if x = s then [.assign 0 m, .send 0 (st.sendEnv s)] else []
    | .logout x reason => st.logoutSends s x reason
    | .handleMessage x m => st.replySends s x m
    | .registerSession x => st.registrationSends s (st.sessions x).sessionId
    | .stop | .closeAll => st.registry.values.flatMap fun x => st.logoutSends s x .undefined
    | .resume i =>
      match st.tasks[i]? with
      | some (.handlersSet _ x m _) => st.replySends s x m
      | some (.validated _ m _ .valid) => st.registrationSends s (buildSessionId m)
      | _ => []
    | _ => []

end AcceptorState

/-- The sends of a session in a run. -/
def sendsIn (s : ℕ) : AcceptorState → List Step → List SendEvent
  | _, [] => []
  | st, e :: es => (st.meets e).sends s e.event ++ (st.step e).elim [] fun st' => sendsIn s st' es

/-- The outgoing side of a session as a state of the acceptor shows it. A session that is not
created yet has not counted. -/
structure Records (s : ℕ) (o : OutgoingState) (st : AcceptorState) : Prop where
  writes : st.writesOf s = o.writes
  number : (st.sessions s).nextOutgoingSeqNum = o.nextOutgoingSeqNum
  uncreated : st.nextSession ≤ s → o.nextOutgoingSeqNum = 1

/-- Between two states a session has sent `events`, which it only can once it is created. -/
structure Sends (s : ℕ) (events : List SendEvent) (st st' : AcceptorState) : Prop where
  created : events ≠ [] → s < st'.nextSession
  keeps : s < st.nextSession →
    s < st'.nextSession ∧ (st'.sessions s).config = (st.sessions s).config
  records : ∀ o, Records s o st →
    Records s (events.foldl (OutgoingState.step (st'.sessions s).config) o) st'

variable {guard : AcceptorState → Step → Prop} {st st' st'' : AcceptorState} {e : Step} {s x : ℕ}
  {m : Message} {o : OutgoingState} {a : Act} {A : Set Act} {α β : Type} {config : SessionConfig}
  {origin : Origin} {frame : Frame} {events events' : List SendEvent}

/-! ## Acts that send nothing -/

/-- An act that is not part of a send of a session. -/
def Act.mute (s : ℕ) : Act → Bool
  | .count x | .observe (.wrote x _ _) => x ≠ s
  | _ => true

theorem writesOf_mute (ha : a.mute s = true) (st : AcceptorState) :
    (a.apply st).writesOf s = st.writesOf s := by
  unfold AcceptorState.writesOf
  cases hobserves : a.observes with
  | false => rw [trace_apply hobserves]
  | true =>
    cases a with
    | observe o =>
      have htrace : ((Act.observe o).apply st).trace = st.trace ++ [o] := rfl
      have hnone : o.writtenBy s = none := by
        cases o with
        | wrote x m raw => exact if_neg (of_decide_eq_true ha)
        | _ => rfl
      rw [htrace, List.filterMap_append, List.filterMap_cons_none hnone]
      exact List.append_nil _
    | disconnect x =>
      have htrace : ((Act.disconnect x).apply st).trace = st.trace ++ [.ran x .disconnected] := rfl
      rw [htrace, List.filterMap_append]
      exact List.append_nil _
    | _ => cases hobserves

theorem Records.mute (h : Records s o st) (ha : a.mute s = true) : Records s o (a.apply st) := by
  refine ⟨(writesOf_mute ha st).trans h.writes, ?_,
    fun hs => h.uncreated ((nextSession_le_apply a st).trans hs)⟩
  rw [sessions_apply_eq, ← h.number]
  cases a with
  | count y => exact congrArg Session.nextOutgoingSeqNum (if_neg (of_decide_eq_true ha))
  | create config c =>
    simp only [Act.onSession]
    split
    · next hs => exact (h.number.trans (h.uncreated hs.le)).symm
    · rfl
  | addHandlers y metadata =>
    simp only [Act.onSession, Session.withHandlers]
    split
    · split <;> rfl
    · rfl
  | _ => first | rfl | (simp only [Act.onSession]; split <;> rfl)

theorem Sends.refl (st : AcceptorState) : Sends s [] st st :=
  ⟨fun h => absurd rfl h, fun hs => ⟨hs, rfl⟩, fun _ => id⟩

/-- One after the other. Whoever sends first keeps the configuration. -/
theorem Sends.trans (h : Sends s events st st') (h' : Sends s events' st' st'') :
    Sends s (events ++ events') st st'' := by
  refine ⟨fun hne => ?_, fun hs => ?_, fun o ho => ?_⟩
  · by_cases hnil : events' = []
    · rw [hnil, List.append_nil] at hne
      exact (h'.keeps (h.created hne)).1
    · exact h'.created hnil
  · obtain ⟨hs', hconfig⟩ := h.keeps hs
    obtain ⟨hs'', hconfig'⟩ := h'.keeps hs'
    exact ⟨hs'', hconfig'.trans hconfig⟩
  · rw [List.foldl_append]
    refine h'.records _ ?_
    by_cases hnil : events = []
    · have hrecords := h.records o ho
      rwa [hnil] at hrecords ⊢
    · rw [(h'.keeps (h.created hnil)).2]
      exact h.records o ho

/-- What goes before a send and sends nothing. -/
theorem Sends.of_quiet (h : Sends s [] st st') (h' : Sends s events st' st'') :
    Sends s events st st'' :=
  h.trans h'

theorem sends_mute (ha : a.mute s = true) (st : AcceptorState) : Sends s [] st (a.apply st) :=
  ⟨fun h => absurd rfl h,
    fun hs => ⟨hs.trans_le (nextSession_le_apply a st), (session_apply a hs).1⟩,
    fun _ ho => ho.mute ha⟩

theorem sends_of_path (h : Path Act.apply A st st') (hA : ∀ a ∈ A, a.mute s = true) :
    Sends s [] st st' :=
  h.keeps (P := Sends s [] st) (fun st1 a _ ha h1 => h1.trans (sends_mute (hA a ha) st1))
    (Sends.refl st)

/-- What follows a send sends nothing more. -/
theorem Sends.bind {y : AcceptorM α} {f : α → AcceptorM β} (hy : Sends s events st (y.after st))
    (hf : ∀ r st1, Sends s [] st1 ((f r).after st1)) :
    Sends s events st ((y >>= f).after st) := by
  unfold Exec.after at hy ⊢
  rw [result_bind]
  rcases hr : y.result st with ⟨err | r, st1⟩
  · rwa [hr] at hy
  · rw [hr] at hy
    have hthen := hy.trans (hf r st1)
    rwa [List.append_nil] at hthen

theorem mute_send (hx : x ≠ s) (ha : a ∈ sendActs x) : a.mute s = true := by
  rcases ha with rfl | ⟨_, _, rfl⟩ <;> exact decide_eq_true hx

theorem mute_tearDown {p : Prop} (ha : a ∈ tearDownActs x p) : a.mute s = true := by
  rcases ha with (rfl | rfl | rfl | ⟨_, rfl⟩) | ⟨_, rfl | rfl⟩ <;> rfl

theorem mute_settleMessage (ha : a ∈ settleMessageActs origin) : a.mute s = true := by
  cases origin with
  | user => cases ha
  | chunk c rest logon => rcases ha with rfl | rfl <;> rfl

theorem mute_runMessageHandlers (ha : a ∈ runMessageHandlersActs origin x m) :
    a.mute s = true := by
  rcases ha with ha | rfl | ⟨_, rfl⟩ | ⟨_, rfl⟩
  · exact mute_settleMessage ha
  all_goals rfl

theorem mute_handleLogout (ha : a ∈ handleLogoutActs st x) : a.mute s = true := by
  rcases ha with (((rfl | rfl) | rfl | rfl) | rfl) | ha
  on_goal 6 => exact mute_tearDown ha
  all_goals rfl

theorem mute_settleLogout {caller : LogoutCaller} {result : Except JSError Unit}
    (ha : a ∈ settleLogoutActs caller result) : a.mute s = true := by
  cases caller with
  | user => cases ha
  | registration y dropped =>
    obtain rfl := Set.mem_singleton_iff.mp ha
    rfl
  | closeAll k =>
    obtain rfl := Set.mem_singleton_iff.mp ha
    rfl

theorem mute_finish (ha : a ∈ finishActs st x) : a.mute s = true := by
  rcases ha with ⟨_, rfl⟩ | ⟨_, rfl⟩ <;> rfl

theorem mute_refuse {c : ℕ} {rest : List Message} (ha : a ∈ refuseActs c rest) :
    a.mute s = true := by
  rcases ha with (rfl | ⟨_, rfl⟩ | ⟨_, rfl⟩) | ⟨_, rfl⟩ | rfl | rfl <;> rfl

/-- Other sessions handle their messages without a send of this one. -/
theorem mute_handleMessage (hx : x ≠ s) (ha : a ∈ handleMessageActs st origin x m) :
    a.mute s = true := by
  unfold handleMessageActs at ha
  split at ha
  · rcases ha with ha | rfl | rfl | ⟨_, rfl⟩
    · exact mute_send hx ha
    all_goals rfl
  · split at ha
    · rcases ha with (ha | ha) | rfl
      · exact mute_handleLogout ha
      · exact mute_settleMessage ha
      · rfl
    · split at ha
      · rcases ha with ha | ⟨_, rfl⟩
        · exact mute_send hx ha
        · rfl
      · exact mute_runMessageHandlers ha

theorem mute_logout {caller : LogoutCaller} (hx : x = s → (st.sessions s).state = .disconnected)
    (ha : a ∈ logoutActs st x caller) : a.mute s = true := by
  rcases ha with ⟨_, ha⟩ | ⟨hstate, rfl | ha | ⟨_, rfl⟩⟩
  · exact mute_settleLogout ha
  · rfl
  · refine mute_send ?_ ha
    rintro rfl
    exact hstate (hx rfl)
  · rfl

/-! ## Sends -/

/-- `startSend` takes a number and writes, or not. -/
theorem after_startSend (s : ℕ) (m : Message) : (startSend s m).after st =
    match (sendMessage (st.sessions s).config (st.sessions s).nextOutgoingSeqNum (st.sendEnv s)
      m).written with
    | none => (Act.count s).apply st
    | some (written, raw) =>
      (Act.observe (.wrote s written raw)).apply ((Act.count s).apply st) := by
  unfold startSend
  rw [after_bind_of_ok (result_get st)]
  dsimp only
  rw [after_bind_of_ok (result_updateSession s _), ← AcceptorState.sendEnv]
  cases (sendMessage (st.sessions s).config (st.sessions s).nextOutgoingSeqNum (st.sendEnv s)
    m).written <;> rfl

/-- The message objects of the users do not matter. -/
theorem Records.keepObject (h : Records s o st) (message : Message) (event : SendEvent) :
    Records s (o.keepObject message event) st := by
  obtain ⟨hwrites, _, hnumber⟩ := OutgoingState.writes_keepObject o message event
  exact ⟨h.writes.trans hwrites.symm, h.number.trans hnumber.symm,
    fun hle => hnumber.trans (h.uncreated hle)⟩

/-- What an attempt to send does to the outgoing side is what `startSend` leaves behind. -/
theorem Records.record (h : Records s o st) (hs : s < st.nextSession) (attempt : SendAttempt) :
    Records s (o.record attempt) (match attempt.written with
      | none => (Act.count s).apply st
      | some (written, raw) =>
        (Act.observe (.wrote s written raw)).apply ((Act.count s).apply st)) := by
  have hnumber : (((Act.count s).apply st).sessions s).nextOutgoingSeqNum =
      o.nextOutgoingSeqNum + 1 := by
    rw [sessions_apply_eq, Act.onSession, if_pos rfl, ← h.number]
  unfold OutgoingState.record
  cases attempt.written with
  | none => exact ⟨h.writes, hnumber, fun hle => absurd hs (Nat.not_lt_of_le hle)⟩
  | some w =>
    obtain ⟨written, raw⟩ := w
    refine ⟨?_, hnumber, fun hle => absurd hs (Nat.not_lt_of_le hle)⟩
    have htrace : ((Act.observe (.wrote s written raw)).apply ((Act.count s).apply st)).trace =
        st.trace ++ [.wrote s written raw] := rfl
    have hself : (Observation.wrote s written raw).writtenBy s = some written := if_pos rfl
    rw [AcceptorState.writesOf, htrace, List.filterMap_append, List.filterMap_cons_some hself,
      List.filterMap_nil]
    exact congrArg (· ++ [written]) h.writes

/-- A send of the session is a send of its outgoing side. -/
theorem records_startSend {event : SendEvent} (h : Records s o st) (hs : s < st.nextSession)
    (hsends : event.outgoing (st.sessions s).config o = some (m, st.sendEnv s)) :
    Records s (o.step (st.sessions s).config event) ((startSend s m).after st) := by
  unfold OutgoingState.step
  rw [hsends, after_startSend, h.number]
  exact (h.record hs _).keepObject _ _

/-- A session sends when its `startSend` is called. -/
theorem sends_startSend (hs : s < st.nextSession) (hrecords : ∀ o, Records s o st →
      Records s (events.foldl (OutgoingState.step (st.sessions s).config) o)
        ((startSend s m).after st)) : Sends s events st ((startSend s m).after st) := by
  have hpath : Path Act.apply (sendActs s) st ((startSend s m).after st) :=
    performs_startSend s m fun _ => id
  have hkeeps : s < ((startSend s m).after st).nextSession ∧
      (((startSend s m).after st).sessions s).config = (st.sessions s).config := by
    refine hpath.keeps (P := fun st1 => s < st1.nextSession ∧
      (st1.sessions s).config = (st.sessions s).config) ?_ ⟨hs, rfl⟩
    rintro st1 a _ _ ⟨hs1, hconfig⟩
    exact ⟨hs1.trans_le (nextSession_le_apply a st1), (session_apply a hs1).1.trans hconfig⟩
  refine ⟨fun _ => hkeeps.1, fun _ => hkeeps, fun o ho => ?_⟩
  rw [hkeeps.2]
  exact hrecords o ho

/-- A session sends a message that does not depend on the objects of its users. -/
theorem sends_one {event : SendEvent} (hs : s < st.nextSession)
    (hsends : ∀ o, event.outgoing (st.sessions s).config o = some (m, st.sendEnv s)) :
    Sends s [event] st ((startSend s m).after st) :=
  sends_startSend hs fun o ho => records_startSend ho hs (hsends o)

/-- A user sends a message. -/
theorem sends_user (hs : s < st.nextSession) :
    Sends s [.assign 0 m, .send 0 (st.sendEnv s)] st ((startSend s m).after st) := by
  refine sends_startSend hs fun o ho => ?_
  have hassign : Records s (o.step (st.sessions s).config (.assign 0 m)) st :=
    ⟨ho.writes, ho.number, ho.uncreated⟩
  have hsend : Records s ((o.step (st.sessions s).config (.assign 0 m)).step
      (st.sessions s).config (.send 0 (st.sendEnv s))) ((startSend s m).after st) :=
    records_startSend hassign hs (by simp [SendEvent.outgoing, OutgoingState.step])
  exact hsend

/-! ## Code that sends -/

/-- What a send meets is not changed by acts that leave the sockets alone. -/
theorem sendEnv_apply (ha : a.changesSockets = false) (hs : s < st.nextSession) :
    (a.apply st).sendEnv s = st.sendEnv s := by
  have hinput : (a.apply st).input.sendingTime = st.input.sendingTime ∧
      (a.apply st).input.writable = st.input.writable := by
    cases a with
    | remove id =>
      have hsame := withoutEntry_congr st id (f := AcceptorState.input) fun _ _ => rfl
      exact ⟨congrArg Input.sendingTime hsame, congrArg Input.writable hsame⟩
    | removeId y =>
      have hsame := withoutEnded_congr st y (f := AcceptorState.input) fun _ _ => rfl
      exact ⟨congrArg Input.sendingTime hsame, congrArg Input.writable hsame⟩
    | settleCloseAll k result =>
      have hsame := settled_congr st k result (f := AcceptorState.input) fun _ _ => rfl
      exact ⟨congrArg Input.sendingTime hsame, congrArg Input.writable hsame⟩
    | _ => exact ⟨rfl, rfl⟩
  unfold AcceptorState.sendEnv AcceptorState.writable
  rw [hinput.1, hinput.2, (session_apply a hs).2, (sameSockets_apply ha st).sockets]

theorem sends_suspend (frame : Frame) (st : AcceptorState) :
    Sends s [] st ((suspend frame).after st) :=
  sends_mute (a := .suspend frame) rfl st

theorem sends_logout (reason : Value) (caller : LogoutCaller) (hx : x = s → s < st.nextSession) :
    Sends s (st.logoutSends s x reason) st ((logout x reason caller).after st) := by
  unfold AcceptorState.logoutSends
  split
  · next h =>
    obtain ⟨rfl, hstate⟩ := h
    have hs := hx rfl
    have hbegin : st.withSessionAs x (fun y => { y with state := .loggingOut }) =
        (Act.beginLogout x).apply st := by
      simp only [Act.apply, AcceptorState.withSessionAs, if_neg hstate]
    unfold logout
    rw [after_bind_of_ok (result_get st), if_neg hstate,
      after_bind_of_ok (result_updateSession x _), hbegin,
      ← sendEnv_apply (a := .beginLogout x) rfl hs]
    refine (sends_mute (a := .beginLogout x) rfl st).of_quiet (Sends.bind ?_ fun error st1 =>
      sends_suspend _ st1)
    exact sends_one hs fun _ => rfl
  · next h =>
    refine sends_of_path (performs_logout x reason caller fun _ => id) fun a ha => mute_logout ?_ ha
    intro hxs
    by_contra hstate
    exact h ⟨hxs, hstate⟩

theorem sends_handleMessage (st : AcceptorState) (origin : Origin) (m : Message)
    (hx : x = s → s < st.nextSession) :
    Sends s (st.replySends s x m) st ((handleMessage origin x m).after st) := by
  unfold AcceptorState.replySends
  split
  · next hxs =>
    exact sends_of_path (performs_handleMessage fun _ => id) fun a ha => mute_handleMessage hxs ha
  · next hxs =>
    obtain rfl := not_not.mp hxs
    have hs := hx rfl
    unfold handleMessage
    split
    · unfold startLogon
      rw [after_bind_of_ok (result_updateSession x _),
        ← sendEnv_apply (a := .setState x .loggedOn) rfl hs]
      refine (sends_mute (a := .setState x .loggedOn) rfl st).of_quiet (Sends.bind ?_
        fun error st1 => sends_suspend _ st1)
      unfold sendLogonResponse
      rw [after_bind_of_ok (result_get _)]
      refine Sends.bind (sends_one hs fun _ => rfl) fun error st1 => ?_
      cases error with
      | none =>
        exact Sends.bind (sends_mute (a := .observe (.answered x)) rfl st1) fun _ => Sends.refl
      | some err => exact Sends.refl st1
    · split
      · have hlogout : Performs (handleLogoutActs st x) st (Exec.attempt (handleLogout x)) :=
          (performs_handleLogout x fun _ => id).attempt
        refine Sends.bind (sends_of_path hlogout fun a ha => mute_handleLogout ha)
          fun result st1 => ?_
        cases result with
        | ok _ => exact sends_suspend _ st1
        | error err =>
          exact sends_of_path (performs_settleMessage _ fun _ => id) fun a ha =>
            mute_settleMessage ha
      · split
        · exact Sends.bind (sends_one hs fun _ => rfl)
            fun error st1 => sends_suspend _ st1
        · exact sends_of_path (performs_runMessageHandlers 0 fun _ => id)
            fun a ha => mute_runMessageHandlers ha

/-- A registration logs out the session that has the id. -/
theorem sends_registerSession (dropped : Bool) {sessionId : JSString}
    (hid : (st.sessions x).sessionId = sessionId)
    (hold : ∀ old, st.registry.get? sessionId = some old → old = s → s < st.nextSession) :
    Sends s (st.registrationSends s sessionId) st ((registerSession x dropped).after st) := by
  unfold AcceptorState.registrationSends registerSession
  rw [after_bind_of_ok (result_get st), hid]
  cases hget : st.registry.get? sessionId with
  | none => exact sends_of_path (performs_finishRegistration x dropped fun _ => id) fun a ha =>
      mute_finish ha
  | some old => exact sends_logout _ _ (hold old hget)

theorem noThrow_logoutOf (x : ℕ) (reason : Value) (k : ℕ) :
    NoThrow (logout x reason (.closeAll k)) := by
  refine .get_bind fun st => .ite (.get_bind fun st => ?_) ?_
  · split
    · exact .pure ()
    · exact .bind (.modify _) fun _ => .ite (.modify _) (.pure ())
  · exact .bind (.modify _) fun _ => .bind (noThrow_startSend x _) fun _ => .modify _

theorem changesSockets_logout {caller : LogoutCaller} (ha : a ∈ logoutActs st x caller) :
    a.changesSockets = false := by
  rcases ha with ⟨_, ha⟩ | ⟨_, rfl | (rfl | ⟨_, _, rfl⟩) | ⟨_, rfl⟩⟩
  · cases caller with
    | user => cases ha
    | _ =>
      obtain rfl := Set.mem_singleton_iff.mp ha
      rfl
  all_goals rfl

/-- Other sessions log out without a send of this one. -/
theorem logoutSends_of_ne {reason : Value} (h : x ≠ s) : st.logoutSends s x reason = [] :=
  if_neg fun hx => h hx.1

/-- A logout does not change what another logout sends. -/
theorem logoutSends_logout {y : ℕ} (caller : LogoutCaller) (reason reason' : Value)
    (hy : y = s → s < st.nextSession) :
    ((logout x reason caller).after st).logoutSends s y reason' = st.logoutSends s y reason' := by
  by_cases hys : y = s
  · have hkept : s < ((logout x reason caller).after st).nextSession ∧
        ((logout x reason caller).after st).sendEnv s = st.sendEnv s ∧
        (((((logout x reason caller).after st).sessions s).state = .disconnected) ↔
          (st.sessions s).state = .disconnected) := by
      have hpath : Path Act.apply (logoutActs st x caller) st ((logout x reason caller).after st) :=
        performs_logout x reason caller fun _ => id
      refine hpath.keeps (P := fun st1 => s < st1.nextSession ∧ st1.sendEnv s = st.sendEnv s ∧
        ((st1.sessions s).state = .disconnected ↔ (st.sessions s).state = .disconnected)) ?_
        ⟨hy hys, rfl, Iff.rfl⟩
      rintro st1 a _ ha ⟨hs, henv, hstate⟩
      exact ⟨hs.trans_le (nextSession_le_apply a st1),
        (sendEnv_apply (changesSockets_logout ha) hs).trans henv,
        (disconnected_apply_iff ha st1).trans hstate⟩
    unfold AcceptorState.logoutSends
    rw [hkept.2.1]
    exact if_congr (and_congr_right fun _ => not_congr hkept.2.2) rfl rfl
  · rw [logoutSends_of_ne hys, logoutSends_of_ne hys]

/-- The sends of a session in the logouts of `closeAll`, in the order of the loop. -/
theorem sends_logouts (st : AcceptorState) (k : ℕ) (xs : List ℕ)
    (hxs : s ∈ xs → s < st.nextSession) :
    Sends s (xs.flatMap fun x => st.logoutSends s x .undefined) st
      ((Exec.forEach xs fun x => logout x .undefined (.closeAll k)).after st) := by
  induction xs generalizing st with
  | nil => exact Sends.refl st
  | cons x xs ih =>
    have hmem : ∀ y ∈ x :: xs, y = s → s < st.nextSession := by
      rintro y hy rfl
      exact hxs hy
    obtain ⟨u, hu⟩ := noThrow_logoutOf x .undefined k st
    have hresult : (logout x .undefined (.closeAll k)).result st =
        (.ok u, (logout x .undefined (.closeAll k)).after st) := Prod.ext hu rfl
    have hsame : (xs.flatMap fun y => st.logoutSends s y .undefined) =
        xs.flatMap fun y =>
          ((logout x .undefined (.closeAll k)).after st).logoutSends s y .undefined :=
      List.flatMap_congr fun y hy =>
        (logoutSends_logout _ _ _ (hmem y (List.mem_cons_of_mem x hy))).symm
    have hhead := sends_logout .undefined (.closeAll k) (hmem x List.mem_cons_self)
    rw [Exec.forEach, after_bind_of_ok hresult, List.flatMap_cons, hsame]
    refine hhead.trans (ih _ fun hs => ?_)
    exact (hhead.keeps (hxs (List.mem_cons_of_mem x hs))).1

theorem sends_closeAll (stopping : Bool) (hvalues : s ∈ st.registry.values → s < st.nextSession) :
    Sends s (st.registry.values.flatMap fun x => st.logoutSends s x .undefined) st
      ((closeAll stopping).after st) := by
  have hcall : Sends s [] st ((Act.callCloseAll stopping).apply st) :=
    sends_mute (a := .callCloseAll stopping) rfl st
  unfold closeAll
  rw [after_bind_of_ok (result_get st)]
  dsimp only
  rw [after_bind_of_ok (result_modify _ st)]
  split
  · next hnil =>
    simp only [Act.apply, AcceptorState.withCloseAll, if_pos hnil] at hcall
    have hsends : (st.registry.values.flatMap fun x => st.logoutSends s x .undefined) = [] := by
      rw [hnil]
      rfl
    rw [hsends]
    exact hcall
  · next hnil =>
    simp only [Act.apply, AcceptorState.withCloseAll, if_neg hnil, List.append_nil] at hcall
    exact hcall.of_quiet (sends_logouts { st with
      closeAlls := st.closeAlls ++ [⟨st.registry.values.length, false, stopping⟩] } _ _ hvalues)

/-- A message of a chunk is passed to the session it is routed to. -/
theorem sends_processMessages (st : AcceptorState) (c : ℕ) (m : Message) (rest : List Message)
    (hrouted : st.lifecycle.routed m = some s → s < st.nextSession) :
    Sends s ((st.lifecycle.routed m).elim [] fun x => st.replySends s x m) st
      ((processMessages c (m :: rest)).after st) := by
  cases hsome : st.lifecycle.routed m with
  | none =>
    refine sends_of_path (performs_processMessages fun _ => id) fun a ha => ?_
    rcases ha with ⟨rfl, _⟩ | ⟨_, rfl⟩ | rfl | rfl | ⟨_, ha⟩ | ⟨hroutable, ha | ⟨y, hy, _⟩⟩
    · rfl
    · rfl
    · rfl
    · rfl
    · rcases ha with ⟨_, rfl, _⟩ | ⟨rfl, _⟩ <;> rfl
    · exact mute_refuse ha
    · rw [Lifecycle.routed, if_pos hroutable] at hsome
      have hy' : st.registry.get? (buildSessionId m) = none := hsome
      rw [hy'] at hy
      cases hy
  | some x =>
    have hhandled := hsome
    unfold Lifecycle.routed at hhandled
    split at hhandled
    · next hroutable =>
      simp only [routable, Bool.and_eq_true, decide_eq_true_eq] at hroutable
      obtain ⟨⟨htype, hraw⟩, hlogon⟩ := hroutable
      cases hresult : m.toString with
      | error err =>
        rw [hresult] at hraw
        cases hraw
      | ok raw =>
        have hget : ((Act.observe (.processing c m)).apply st).registry.get? (buildSessionId m) =
            some x := hhandled
        rw [processMessages, if_pos htype, hresult]
        dsimp only
        rw [after_bind_of_ok (result_observe _), if_neg hlogon, handleNonLogonMessage,
          after_bind_of_ok (result_get _), hget]
        dsimp only
        rw [after_bind_of_ok (result_observe _)]
        have hdispatched := (sends_mute (s := s) (a := .observe (.processing c m)) rfl st).of_quiet
          (sends_mute (a := .observe (.dispatched c x m)) rfl _)
        have hcreated : x = s → s < st.nextSession := by
          rintro rfl
          exact hrouted hsome
        exact hdispatched.of_quiet (sends_handleMessage ((Act.observe (.dispatched c x m)).apply
          ((Act.observe (.processing c m)).apply st)) (.chunk c rest false) m hcreated)
    · cases hhandled

/-! ## Steps and runs -/

/-- Going on with a task sends nothing, unless it handles a message or registers a session. -/
theorem mute_resume (hincoming : ∀ c rest, frame ≠ .nextMessage c rest)
    (hhandles : ∀ c x m rest, frame ≠ .handlersSet c x m rest)
    (hcreates : ∀ c m rest, frame ≠ .validated c m rest .valid) (ha : a ∈ resumeActs st frame) :
    a.mute s = true := by
  cases frame with
  | nextMessage c rest => exact absurd rfl (hincoming c rest)
  | validateCredentials c m rest =>
    rcases ha with ⟨_, rfl, _⟩ | ⟨rfl, _⟩ <;> rfl
  | getAllowedSenderCompIds c m rest =>
    obtain ⟨_, rfl, _⟩ := ha
    rfl
  | validated c m rest verdict =>
    cases verdict with
    | valid => exact absurd rfl (hcreates c m rest)
    | _ => exact mute_refuse ha
  | closeDelay c rest => rcases ha with rfl | rfl <;> rfl
  | created c x m rest => rcases ha with ⟨_, _, rfl⟩ | rfl <;> rfl
  | handlersSet c x m rest => exact absurd rfl (hhandles c x m rest)
  | logonResponse origin x m error =>
    rcases ha with (ha | ha) | rfl | rfl
    · rcases ha with ((rfl | rfl) | rfl | rfl) | rfl | rfl <;> rfl
    · exact mute_settleMessage ha
    · rfl
    · rfl
  | testRequestReply origin x m error =>
    rcases ha with ha | rfl
    · exact mute_settleMessage ha
    · rfl
  | messageHandlers origin x m => exact mute_runMessageHandlers ha
  | handlerPending origin x m next => exact mute_runMessageHandlers ha
  | logoutSent x caller error =>
    rcases ha with (ha | ha) | ⟨_, ha, _⟩
    · rcases ha with (rfl | rfl) | rfl | rfl <;> rfl
    · exact mute_tearDown ha
    · exact mute_settleLogout ha
  | registration x dropped => exact mute_finish ha
  | allClosed k stopping => rcases ha with rfl | rfl <;> rfl
  | closeAllSockets => rcases ha with rfl | ⟨_, _, rfl⟩ <;> rfl

/-- Listeners of a `close` event send nothing. -/
theorem mute_nextListener (ha : a ∈ nextListenerActs st) : a.mute s = true := by
  unfold nextListenerActs at ha
  split at ha
  · cases ha
  · obtain rfl := Set.mem_singleton_iff.mp ha
    rfl
  · next c listener listeners _ =>
    rcases ha with ha | rfl | rfl | ⟨_, rfl⟩
    · cases listener with
      | acceptor =>
        rcases ha with rfl | ⟨_, _, _, ha⟩
        · rfl
        · exact mute_tearDown ha
      | session x => exact mute_tearDown ha
    all_goals rfl

/-- A new `close` listener does not change what a send meets. -/
theorem sendEnv_listen (c x : ℕ) (st : AcceptorState) :
    ((Act.listen c x).apply st).sendEnv s = st.sendEnv s := by
  have hsockets : ∀ y, ((Act.listen c x).apply st).writable y = st.writable y := by
    intro y
    unfold AcceptorState.writable
    simp only [Act.apply]
    exact withSocketAs_sockets (P := fun z => (st.input.writable y && !z.ended && !z.destroyed &&
      !z.closed) = (st.input.writable y && !(st.sockets y).ended && !(st.sockets y).destroyed &&
      !(st.sockets y).closed)) (fun h => h ▸ rfl) fun _ => rfl
  unfold AcceptorState.sendEnv
  rw [hsockets]
  rfl

/-- A new session does not change what the registration of another one sends. -/
theorem registrationSends_create {c : ℕ} {sessionId : JSString}
    (hold : ∀ old, st.registry.get? sessionId = some old → old < st.nextSession) :
    ((Act.create config c).apply st).registrationSends s sessionId =
      st.registrationSends s sessionId := by
  have hregistry : ((Act.create config c).apply st).registry = st.registry := rfl
  unfold AcceptorState.registrationSends
  rw [hregistry]
  cases hget : st.registry.get? sessionId with
  | none => rfl
  | some old =>
    dsimp only
    by_cases hs : old = s
    · have hcreated : s < st.nextSession := hs ▸ hold old hget
      have hsession : ((Act.create config c).apply st).sessions s = st.sessions s := by
        rw [sessions_apply_eq, Act.onSession, if_neg (Nat.ne_of_gt hcreated)]
      unfold AcceptorState.logoutSends
      rw [hsession, sendEnv_apply rfl hcreated]
    · rw [logoutSends_of_ne hs, logoutSends_of_ne hs]

/-- The session for a valid Logon is created and registered. -/
theorem sends_afterValidated (st : AcceptorState) (c : ℕ) (m : Message) (rest : List Message)
    (hold : ∀ old, st.registry.get? (buildSessionId m) = some old → old < st.nextSession) :
    Sends s (st.registrationSends s (buildSessionId m)) st
      ((afterValidated c m rest .valid).after st) := by
  have hcreate := sends_mute (s := s) (a := .create (buildSessionConfig st.config m) c) rfl st
  have hid : (((Act.create (buildSessionConfig st.config m) c).apply st).sessions
      st.nextSession).sessionId = buildSessionId m := by
    simp [Act.apply, Session.sessionId, buildSessionConfig, buildSessionId]
  have hregister := sends_registerSession (s := s) true hid fun old hget hs =>
    hs ▸ Nat.lt_succ_of_lt (hold old hget)
  rw [registrationSends_create hold] at hregister
  unfold afterValidated
  dsimp only
  rw [after_bind_congr (result_createNewSession c m)]
  exact hcreate.of_quiet (Sends.bind (Sends.bind hregister fun _ => Sends.refl)
    fun x st1 => sends_suspend _ st1)

/-- What a task sends. -/
theorem sends_resume (hwf : WellFormed st.lifecycle) {i : ℕ} (hf : st.tasks[i]? = some frame) :
    Sends s (st.sends s (.resume i)) st ((resume frame).after ((Act.take i).apply st)) := by
  have htake : Sends s [] st ((Act.take i).apply st) := sends_mute (a := .take i) rfl st
  refine htake.of_quiet ?_
  by_cases hquiet : (∀ c rest, frame ≠ .nextMessage c rest) ∧
      (∀ c x m rest, frame ≠ .handlersSet c x m rest) ∧
      ∀ c m rest, frame ≠ .validated c m rest .valid
  · obtain ⟨hincoming, hhandles, hcreates⟩ := hquiet
    have hnone : st.sends s (.resume i) = [] := by
      unfold AcceptorState.sends AcceptorState.incoming
      dsimp only
      rw [hf]
      cases frame with
      | nextMessage c rest => exact absurd rfl (hincoming c rest)
      | handlersSet c x m rest => exact absurd rfl (hhandles c x m rest)
      | validated c m rest verdict =>
        cases verdict with
        | valid => exact absurd rfl (hcreates c m rest)
        | _ => rfl
      | _ => rfl
    rw [hnone]
    exact sends_of_path (performs_resume fun _ => id) fun a ha =>
      mute_resume hincoming hhandles hcreates ha
  · unfold AcceptorState.sends AcceptorState.incoming
    dsimp only
    rw [hf]
    cases frame with
    | nextMessage c ms =>
      cases ms with
      | nil => exact Sends.refl _
      | cons m rest =>
        exact sends_processMessages ((Act.take i).apply st) c m rest fun hrouted =>
          lt_nextSession_of_routed hwf hrouted
    | handlersSet c x m rest =>
      have hx : x < st.nextSession := (hwf.starting c x (mem_pending_of_task hf rfl)).2
      have hlisten := sends_mute (s := s) (a := .listen c x) rfl ((Act.take i).apply st)
      have hsends : ((Act.listen c x).apply ((Act.take i).apply st)).replySends s x m =
          st.replySends s x m := by
        unfold AcceptorState.replySends
        rw [sendEnv_listen]
        rfl
      have hhandle := sends_handleMessage ((Act.listen c x).apply ((Act.take i).apply st))
        (.chunk c rest true) m fun hxs : x = s => hxs ▸ hx
      rw [hsends] at hhandle
      exact hlisten.of_quiet hhandle
    | validated c m rest verdict =>
      cases verdict with
      | valid =>
        exact sends_afterValidated ((Act.take i).apply st) c m rest fun old hget =>
          (hwf.entry _ old hget).2
      | _ => exact absurd ⟨by simp, by simp, by simp⟩ hquiet
    | _ => exact absurd ⟨by simp, by simp, by simp⟩ hquiet

theorem sends_heartbeat (hx : x < st.nextSession) :
    Sends s (st.sends s (.heartbeat x)) st ((perform (.heartbeat x)).after st) := by
  have hsends : st.sends s (.heartbeat x) =
      if x = s ∧ (st.sessions s).state = .loggedOn then [.heartbeat (st.sendEnv s)] else [] := rfl
  rw [hsends]
  by_cases hxs : x = s
  · subst hxs
    unfold perform heartbeat
    rw [after_bind_of_ok (result_get st)]
    split
    · next h =>
      rw [if_pos h.2]
      exact Sends.bind (sends_one hx fun _ => rfl) fun _ => Sends.refl
    · next h =>
      rw [if_neg fun hstate => h ⟨rfl, hstate⟩]
      exact Sends.refl st
  · rw [if_neg fun h => hxs h.1]
    exact sends_of_path (performs_heartbeat x fun _ => id) fun a ha => mute_send hxs ha

theorem sends_send (m : Message) (hx : x < st.nextSession) :
    Sends s (st.sends s (.send x m)) st ((perform (.send x m)).after st) := by
  have hsends : st.sends s (.send x m) =
      if x = s then [.assign 0 m, .send 0 (st.sendEnv s)] else [] := rfl
  rw [hsends]
  split
  · next hxs =>
    subst hxs
    exact Sends.bind (sends_user hx) fun _ => Sends.refl
  · next hxs =>
    have hsend : Performs (sendActs x) st (startSend x m) := performs_startSend x m fun _ => id
    exact Sends.bind (sends_of_path hsend fun a ha => mute_send hxs ha) fun _ => Sends.refl

/-- What an event sends. -/
theorem sends_perform (hwf : WellFormed st.lifecycle) {event : Event}
    (henabled : st.enabled event = true) :
    Sends s (st.sends s event) st ((perform event).after st) := by
  have hnone : ∀ a : Act, a.mute s = true → Sends s [] st (a.apply st) :=
    fun a ha => sends_mute ha st
  cases event with
  | connect remoteAddress => exact hnone (.connect remoteAddress) rfl
  | data c data =>
    unfold perform receive
    rw [after_bind_of_ok (result_get st)]
    split
    · next hlistener =>
      have hin : st.incoming (.data c data) = some (c, processData data) := if_pos hlistener
      unfold AcceptorState.sends
      rw [hin]
      cases processData data with
      | nil => exact Sends.refl st
      | cons m rest =>
        exact sends_processMessages st c m rest fun hrouted => lt_nextSession_of_routed hwf hrouted
    · next hlistener =>
      have hin : st.incoming (.data c data) = none := if_neg hlistener
      unfold AcceptorState.sends
      rw [hin]
      exact Sends.refl st
  | socketError c err =>
    refine sends_of_path (performs_socketError c err fun _ => id) fun a ha => ?_
    rcases ha with ⟨_, rfl⟩ | ⟨_, rfl⟩ | rfl <;> rfl
  | close c =>
    rw [perform, after_beginClose]
    exact hnone (.close c) rfl
  | nextListener =>
    exact sends_of_path (performs_callNextListener fun _ => id) fun a ha => mute_nextListener ha
  | resume i =>
    cases hf : st.tasks[i]? with
    | none => simp [AcceptorState.enabled, AcceptorState.canResume, hf] at henabled
    | some frame =>
      rw [after_resume hf]
      exact sends_resume hwf hf
  | heartbeat x =>
    have hx : x < st.nextSession := hwf.timer x (Bool.and_eq_true_iff.mp
      (Bool.and_eq_true_iff.mp henabled).2).2
    exact sends_heartbeat hx
  | reject x err => exact hnone (.observe (.rejected x err)) rfl
  | send x m =>
    have hx : x < st.nextSession := of_decide_eq_true (Bool.and_eq_true_iff.mp henabled).2
    exact sends_send m hx
  | logout x reason =>
    exact sends_logout reason .user fun hx =>
      hx ▸ of_decide_eq_true (Bool.and_eq_true_iff.mp henabled).2
  | join x roomId => exact hnone (.join x roomId) rfl
  | leave x roomId => exact hnone (.leave x roomId) rfl
  | handleMessage x m =>
    exact sends_handleMessage st .user m fun hx =>
      hx ▸ of_decide_eq_true (Bool.and_eq_true_iff.mp henabled).2
  | registerHandlers x metadata => exact hnone (.addHandlers x metadata) rfl
  | stop => exact sends_closeAll true fun hs => lt_nextSession_of_mem_values hwf hs
  | closeAll => exact sends_closeAll false fun hs => lt_nextSession_of_mem_values hwf hs
  | newSession config c => exact hnone (.create config c) rfl
  | createSession config c =>
    refine sends_of_path (A := {.create config c, .register st.nextSession})
      (performs_createSession config c (Or.inl rfl) (Or.inr rfl)) fun a ha => ?_
    rcases ha with rfl | rfl <;> rfl
  | registerSession x =>
    exact sends_registerSession false rfl fun old hold hs => hs ▸ (hwf.entry _ old hold).2
  | removeSession sessionId =>
    rw [perform, after_removeSession]
    exact hnone (.remove sessionId) rfl

/-- What a step sends. -/
theorem sends_step (hreached : acceptor.Reached guard st) (hstep : st.step e = some st') :
    Sends s ((st.meets e).sends s e.event) st st' := by
  have hwf : WellFormed st.lifecycle := wellFormed_of_reached hreached
  have hmeets : WellFormed (st.meets e).lifecycle := hwf
  have henabled : (st.meets e).enabled e.event = true := step_enabled hstep
  have hperform := sends_perform (s := s) hmeets henabled
  rw [after_of_step hstep] at hperform
  exact ⟨hperform.created, hperform.keeps, fun o ho => hperform.records o
    ⟨ho.writes, ho.number, ho.uncreated⟩⟩

/-- What a run sends. -/
theorem sends_exec {es : List Step} (hreached : acceptor.Reached (fun _ _ => True) st)
    (hexec : acceptor.exec st es = some st') :
    Sends s (sendsIn s st es) st st' := by
  induction es generalizing st with
  | nil =>
    obtain rfl := Option.some.inj hexec
    exact Sends.refl st
  | cons e es ih =>
    obtain ⟨st1, hstep, hrest⟩ := Option.bind_eq_some_iff.mp hexec
    have hstep' : st.step e = some st1 := hstep
    rw [sendsIn, hstep', Option.elim_some]
    exact (sends_step hreached hstep').trans
      (ih (hreached.step trivial hstep) hrest)

/-- After a run the outgoing side is what the state of the acceptor shows. -/
theorem records_exec {acceptorConfig : AcceptorConfig} {es : List Step}
    (hexec : acceptor.exec (.new acceptorConfig) es = some st) (s : ℕ) :
    Records s (OutgoingState.run (st.sessions s).config (fun _ => .empty)
      (sendsIn s (.new acceptorConfig) es)) st :=
  (sends_exec (.init ⟨acceptorConfig, rfl⟩) hexec).records _ ⟨rfl, rfl, fun _ => rfl⟩

/-- In every run, the messages that a session has written and its counter are those of its
outgoing side after the sends that were asked of it. -/
theorem outgoing_exec {acceptorConfig : AcceptorConfig} {es : List Step}
    (hexec : acceptor.exec (.new acceptorConfig) es = some st) (s : ℕ) :
    st.writesOf s = (OutgoingState.run (st.sessions s).config (fun _ => .empty)
        (sendsIn s (.new acceptorConfig) es)).writes ∧
      (st.sessions s).nextOutgoingSeqNum = (OutgoingState.run (st.sessions s).config
        (fun _ => .empty) (sendsIn s (.new acceptorConfig) es)).nextOutgoingSeqNum :=
  ⟨(records_exec hexec s).writes, (records_exec hexec s).number⟩

/-- A client logs on, the timer of its session fires, and a user logs the session out. -/
def chattingSteps : List Step :=
  (Event.connect (js "client:1")).calmly :: logonSteps 0 (js "CLIENT") ++
    ([.heartbeat 0, .send 0 (heartbeatMessage (.str (js "PING"))), .logout 0 .undefined].map
      Event.calmly)

/-- The session answers the Logon and sends three more messages. -/
theorem outgoing_exec_chatting : ∃ st ∈ acceptor.exec (broker 0) chattingSteps,
    ((st.writesOf 0).length, (st.sessions 0).nextOutgoingSeqNum) = (4, 5) ∧
      st.writesOf 0 = (OutgoingState.run (st.sessions 0).config (fun _ => .empty)
        (sendsIn 0 (broker 0) chattingSteps)).writes := by
  have hrun : ∃ st ∈ acceptor.exec (broker 0) chattingSteps,
      ((st.writesOf 0).length, (st.sessions 0).nextOutgoingSeqNum) = (4, 5) := by decide +kernel
  obtain ⟨st, hst, hcounts⟩ := hrun
  exact ⟨st, hst, hcounts, (outgoing_exec hst 0).1⟩

end NestQuickfix.Acceptor
