import NestQuickfix.Acceptor.OutgoingSides

/-!
# Numbers on the wire

What a session sends of its own accord never carries a MsgSeqNum beforehand, and neither do
fresh messages of users. So long as users hand over nothing else, the numbers that a session
writes rise from message to message, however its sends are interleaved with each other
and with the rest of the acceptor, and although some of them are lost.
-/

namespace NestQuickfix

open Lib

/-- The session sends a message of its own. -/
def SendEvent.own : SendEvent → Bool
  | .assign .. | .send .. => false
  | _ => true

/-- A message that a session makes has no MsgSeqNum. -/
theorem hasField_of_own {event : SendEvent} {config : SessionConfig} {o : OutgoingState}
    {m : Message} {env : SendEnv} (hown : event.own = true)
    (hsends : event.outgoing config o = some (m, env)) : m.hasField Fields.msgSeqNum = false := by
  have hlogon : ∀ reset, (logonMessage config.heartbeatInterval (.int 0) reset).hasField
      Fields.msgSeqNum = false := by
    intro reset
    cases reset <;> simp [logonMessage, Message.setFields, Message.hasField_setField] <;> decide
  have hheartbeat : ∀ id, (heartbeatMessage id).hasField Fields.msgSeqNum = false := by
    intro id
    unfold heartbeatMessage
    dsimp only
    split <;> simp [Message.setFields, Message.hasField_setField] <;> decide
  have hlogout : ∀ reason, (logoutMessage reason).hasField Fields.msgSeqNum = false := by
    intro reason
    unfold logoutMessage
    dsimp only
    split <;> simp [Message.setFields, Message.hasField_setField] <;> decide
  cases event with
  | assign | send => cases hown
  | heartbeat env =>
    cases hsends
    exact hheartbeat _
  | logon env =>
    cases hsends
    exact hlogon _
  | sendLogonResponse env =>
    cases hsends
    exact hlogon _
  | handleTestRequest id env =>
    cases hsends
    exact hheartbeat _
  | logout reason env =>
    cases hsends
    exact hlogout _

/-! ## The outgoing side -/

/-- The numbers that have been written rise, and the counter is above them. -/
structure Numbered (ns : List ℕ) (o : OutgoingState) : Prop where
  written : (o.writes.map fun m => m.getField Fields.msgSeqNum) =
    ns.map fun n => .num (.int (n : ℕ))
  rising : ns.Pairwise (· < ·)
  bounds : ∀ n ∈ ns, 0 < n ∧ n < o.nextOutgoingSeqNum
  positive : 0 < o.nextOutgoingSeqNum

/-- There are such numbers. -/
def OutgoingState.Rising (o : OutgoingState) : Prop := ∃ ns, Numbered ns o

variable {o : OutgoingState} {config : SessionConfig} {event : SendEvent}

/-- A message without MsgSeqNum gets a number above all that were written before. -/
theorem OutgoingState.Rising.step (h : o.Rising) (hfresh : ∀ m env,
    event.outgoing config o = some (m, env) → m.hasField Fields.msgSeqNum = false) :
    (o.step config event).Rising := by
  obtain ⟨ns, hns⟩ := h
  rcases OutgoingState.step_cases config o event with ⟨_, hwrites, _, hnext⟩ |
    ⟨m, env, hsends, hnext, ⟨_, hwrites, _⟩ | ⟨_, _, written, raw, hwritten, hwrites⟩⟩
  · refine ⟨ns, ?_, hns.rising, ?_, ?_⟩
    · rw [hwrites, hns.written]
    · rw [hnext]
      exact hns.bounds
    · rw [hnext]
      exact hns.positive
  · -- the send is lost, and its number with it
    refine ⟨ns, ?_, hns.rising, fun n hn => ?_, ?_⟩
    · rw [hwrites, hns.written]
    · rw [hnext]
      exact ⟨(hns.bounds n hn).1, Nat.lt_succ_of_lt (hns.bounds n hn).2⟩
    · rw [hnext]
      exact Nat.succ_pos _
  · have hnumber := getField_msgSeqNum_of_written hwritten
    rw [hfresh m env hsends, if_neg Bool.false_ne_true] at hnumber
    refine ⟨ns ++ [o.nextOutgoingSeqNum], ?_, ?_, fun n hn => ?_, ?_⟩
    · rw [hwrites, List.map_append, List.map_append, hns.written, List.map_singleton,
        List.map_singleton, hnumber]
    · rw [List.pairwise_append]
      refine ⟨hns.rising, List.pairwise_singleton _ _, fun n hn k hk => ?_⟩
      rw [List.mem_singleton.mp hk]
      exact (hns.bounds n hn).2
    · rw [hnext]
      rcases List.mem_append.mp hn with hn | hn
      · exact ⟨(hns.bounds n hn).1, Nat.lt_succ_of_lt (hns.bounds n hn).2⟩
      · rw [List.mem_singleton.mp hn]
        exact ⟨hns.positive, Nat.lt_succ_self _⟩
    · rw [hnext]
      exact Nat.succ_pos _

/-- The session's own messages. -/
theorem OutgoingState.Rising.own {events : List SendEvent} (h : o.Rising)
    (hown : ∀ event ∈ events, event.own = true) :
    (events.foldl (OutgoingState.step config) o).Rising := by
  induction events generalizing o with
  | nil => exact h
  | cons event events ih =>
    have hstep : (o.step config event).Rising := h.step fun m env hsends =>
      hasField_of_own (hown event List.mem_cons_self) hsends
    exact ih hstep fun event' h' => hown event' (List.mem_cons_of_mem event h')

/-- A fresh message of a user. -/
theorem OutgoingState.Rising.user {m : Message} (h : o.Rising)
    (hm : m.hasField Fields.msgSeqNum = false) (env : SendEnv) :
    ((o.step config (.assign 0 m)).step config (.send 0 env)).Rising := by
  have hassigned : (o.step config (.assign 0 m)).Rising :=
    h.step fun m' env' hsends => by cases hsends
  refine hassigned.step fun m' env' hsends => ?_
  have hobject : (o.step config (.assign 0 m)).messages 0 = m := by
    simp [OutgoingState.step, SendEvent.outgoing]
  rw [SendEvent.outgoing, hobject] at hsends
  cases hsends
  exact hm

namespace Acceptor

/-! ## The acceptor -/

/-- The message that a user sends with a session. -/
def Event.sentBy (s : ℕ) : Event → Option Message
  | .send x m => if x = s then some m else none
  | _ => none

variable {st : AcceptorState} {s : ℕ}

theorem own_logoutSends {x : ℕ} {reason : Value} :
    ∀ event ∈ st.logoutSends s x reason, event.own = true := by
  unfold AcceptorState.logoutSends
  split
  · exact fun event hevent => List.mem_singleton.mp hevent ▸ rfl
  · exact fun event hevent => by cases hevent

theorem own_replySends {x : ℕ} {m : Message} :
    ∀ event ∈ st.replySends s x m, event.own = true := by
  unfold AcceptorState.replySends
  split
  · exact fun event hevent => by cases hevent
  · split
    · exact fun event hevent => List.mem_singleton.mp hevent ▸ rfl
    · split
      · exact fun event hevent => by cases hevent
      · split
        · exact fun event hevent => List.mem_singleton.mp hevent ▸ rfl
        · exact fun event hevent => by cases hevent

theorem own_registrationSends {sessionId : JSString} :
    ∀ event ∈ st.registrationSends s sessionId, event.own = true := by
  unfold AcceptorState.registrationSends
  split
  · exact fun event hevent => by cases hevent
  · exact own_logoutSends

theorem own_closeSends {xs : List ℕ} :
    ∀ event ∈ xs.flatMap (fun x => st.logoutSends s x .undefined), event.own = true := by
  intro event hevent
  obtain ⟨x, _, hx⟩ := List.mem_flatMap.mp hevent
  exact own_logoutSends event hx

theorem event_of_sentBy {e : Event} {m : Message} (h : e.sentBy s = some m) : e = .send s m := by
  cases e with
  | send x m' =>
    by_cases hx : x = s
    · rw [Event.sentBy, if_pos hx] at h
      rw [hx, Option.some.inj h]
    · rw [Event.sentBy, if_neg hx] at h
      cases h
  | _ => cases h

/-- Unless a user sends a message, the session sends its own. -/
theorem own_sends {e : Event} (h : e.sentBy s = none) :
    ∀ event ∈ st.sends s e, event.own = true := by
  unfold AcceptorState.sends
  split
  · next c m rest hin =>
    cases st.lifecycle.routed m with
    | none => exact fun event hevent => by cases hevent
    | some x => exact own_replySends
  · exact fun event hevent => by cases hevent
  · split
    · split
      · exact fun event hevent => List.mem_singleton.mp hevent ▸ rfl
      · exact fun event hevent => by cases hevent
    · next x m _ =>
      have hx : x ≠ s := fun hx => by simp [Event.sentBy, hx] at h
      rw [if_neg hx]
      exact fun event hevent => by cases hevent
    · exact own_logoutSends
    · exact own_replySends
    · exact own_registrationSends
    · exact own_closeSends
    · exact own_closeSends
    · split
      · exact own_replySends
      · exact own_registrationSends
      · exact fun event hevent => by cases hevent
    · exact fun event hevent => by cases hevent

/-- A run. -/
theorem rising_sendsIn {o : OutgoingState} {config : SessionConfig} {es : List Step}
    (h : o.Rising)
    (hfresh : ∀ e ∈ es, ∀ m ∈ e.event.sentBy s, m.hasField Fields.msgSeqNum = false) :
    ((sendsIn s st es).foldl (OutgoingState.step config) o).Rising := by
  induction es generalizing st o with
  | nil => exact h
  | cons e es ih =>
    have hstep : (((st.meets e).sends s e.event).foldl (OutgoingState.step config) o).Rising := by
      cases hsent : e.event.sentBy s with
      | none => exact h.own (own_sends hsent)
      | some m =>
        have hevent := event_of_sentBy hsent
        have hsends : (st.meets e).sends s (.send s m) =
            [.assign 0 m, .send 0 ((st.meets e).sendEnv s)] := if_pos rfl
        rw [hevent, hsends]
        exact h.user (hfresh e List.mem_cons_self m hsent) _
    rw [sendsIn, List.foldl_append]
    cases hnext : st.step e with
    | none => exact hstep
    | some st' => exact ih hstep fun e' he' => hfresh e' (List.mem_cons_of_mem e he')

/-- In every run in which users hand a session no message with a MsgSeqNum, the numbers that the
session writes rise strictly, and its counter is above them. -/
theorem numbers_exec {acceptorConfig : AcceptorConfig} {es : List Step}
    (hfresh : ∀ e ∈ es, ∀ m ∈ e.event.sentBy s, m.hasField Fields.msgSeqNum = false)
    (hexec : acceptor.exec (.new acceptorConfig) es = some st) :
    ∃ ns : List ℕ, ((st.writesOf s).map fun m => m.getField Fields.msgSeqNum) =
        (ns.map fun n => .num (.int (n : ℕ))) ∧ ns.Pairwise (· < ·) ∧
      ∀ n ∈ ns, 0 < n ∧ n < (st.sessions s).nextOutgoingSeqNum := by
  have hstart : (OutgoingState.new fun _ => .empty).Rising :=
    ⟨[], rfl, List.Pairwise.nil, List.forall_mem_nil _, Nat.one_pos⟩
  have hrecords := records_exec hexec s
  have hrising : ((sendsIn s (.new acceptorConfig) es).foldl
      (OutgoingState.step (st.sessions s).config) (.new fun _ => .empty)).Rising :=
    rising_sendsIn hstart hfresh
  obtain ⟨ns, hns⟩ := hrising
  refine ⟨ns, ?_, hns.rising, ?_⟩
  · rw [hrecords.writes]
    exact hns.written
  · rw [hrecords.number]
    exact hns.bounds

/-- A user sends two messages of its own, and the second send fails. -/
def reportingSteps : List Step :=
  (Event.connect (js "client:1")).calmly :: logonSteps 0 (js "CLIENT") ++
    [(Event.send 0 (heartbeatMessage .undefined)).calmly,
      ⟨.send 0 (heartbeatMessage .undefined), { Input.calm with writable := fun _ => false }⟩,
      (Event.send 0 (heartbeatMessage .undefined)).calmly]

/-- The numbers 1, 2 and 4 are written. -/
theorem numbers_exec_reporting : ∃ st ∈ acceptor.exec (broker 0) reportingSteps,
    ((st.writesOf 0).map fun m => m.getField Fields.msgSeqNum) =
        [.num (.int 1), .num (.int 2), .num (.int 4)] ∧
      ∃ ns : List ℕ, ((st.writesOf 0).map fun m => m.getField Fields.msgSeqNum) =
          (ns.map fun n => .num (.int (n : ℕ))) ∧ ns.Pairwise (· < ·) ∧
        ∀ n ∈ ns, 0 < n ∧ n < (st.sessions 0).nextOutgoingSeqNum := by
  have hfresh : ∀ e ∈ reportingSteps, ∀ m ∈ e.event.sentBy 0,
      m.hasField Fields.msgSeqNum = false := by decide +kernel
  have hrun : ∃ st ∈ acceptor.exec (broker 0) reportingSteps,
      ((st.writesOf 0).map fun m => m.getField Fields.msgSeqNum) =
        [.num (.int 1), .num (.int 2), .num (.int 4)] := by decide +kernel
  obtain ⟨st, hst, hnumbers⟩ := hrun
  exact ⟨st, hst, hnumbers, numbers_exec hfresh hst⟩

end Acceptor

end NestQuickfix
