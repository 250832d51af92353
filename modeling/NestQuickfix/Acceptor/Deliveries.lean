import NestQuickfix.Acceptor.Ordering
import NestQuickfix.Acceptor.Settling

/-!
# Delivery to message handlers

A message that is passed to a session is brought from `await` to `await` to the handlers of its
type, one after the other, until one of them fails. Which handler comes next is kept as an
index, so that handlers added on the way do not disturb the count: no handler gets the message
twice, and none misses it unless something fails before.
-/

namespace NestQuickfix.Acceptor

open Lib Lib.Exec

/-! ## Counting -/

/-- The message that a task brings to the message handlers of a session. -/
def Frame.delivers : Frame → Option (ℕ × Message)
  | .created _ s m _ | .handlersSet _ s m _ | .logonResponse _ s m _ | .testRequestReply _ s m _
  | .messageHandlers _ s m | .handlerPending _ s m _ => some (s, m)
  | _ => none

/-- Whether a task brings a message to handler `i` of a session. -/
def Frame.brings (s : ℕ) (m : Message) (i : ℕ) : Frame → Bool
  | .handlerPending _ x m' next => decide (x = s ∧ m' = m ∧ next ≤ i)
  | frame => frame.delivers = some (s, m)

/-- The message that a session is given or gives to one of its handlers. -/
def Observation.concerns : Observation → Option (ℕ × Message)
  | .dispatched _ s m | .handled s m _ => some (s, m)
  | _ => none

/-- A message is passed to a session. -/
def Observation.passesTo (s : ℕ) (m : Message) : Observation → Bool
  | .dispatched _ x m' => decide (x = s ∧ m' = m)
  | _ => false

/-- Whether a handler is called for messages of a type. -/
def MessageHandler.takes (handler : MessageHandler) (m : Message) : Bool :=
  !handler.msgType.truthy || handler.msgType = m.getField Fields.msgType

namespace AcceptorState

/-- How often a message was passed to a session. -/
def passedTo (st : AcceptorState) (s : ℕ) (m : Message) : ℕ :=
  st.trace.countP (Observation.passesTo s m)

/-- How often handler `i` of a session was called with a message. -/
def handledBy (st : AcceptorState) (s : ℕ) (m : Message) (i : ℕ) : ℕ :=
  st.trace.count (.handled s m i)

/-- How often a message is on its way to handler `i` of a session. -/
def awaiting (st : AcceptorState) (s : ℕ) (m : Message) (i : ℕ) : ℕ :=
  st.tasks.countP (Frame.brings s m i)

/-- How often a message was passed to a session, but is not on its way to handler `i`, nor has
it come there. -/
def missed (st : AcceptorState) (s : ℕ) (m : Message) (i : ℕ) : ℤ :=
  st.passedTo s m - st.handledBy s m i - st.awaiting s m i

/-- Handler `i` of a session is called for messages like `m`. -/
def Takes (st : AcceptorState) (s : ℕ) (m : Message) (i : ℕ) : Prop :=
  ∃ handler ∈ (st.sessions s).handlers.message[i]?, handler.takes m = true

/-- The message that a session handles in an event. -/
def handling (st : AcceptorState) (e : Event) : Option (ℕ × Message) :=
  match st.incoming e with
  | some (_, m :: _) => (st.lifecycle.routed m).map (·, m)
  | _ =>
    match e with
    | .handleMessage s m => some (s, m)
    | .resume i => st.tasks[i]?.bind Frame.delivers
    | _ => none

end AcceptorState

/-- Whether what a task has waited for has failed. -/
def Frame.fails (input : Input) : Frame → Bool
  | .logonResponse _ _ _ error | .testRequestReply _ _ _ error =>
    (error.or input.settledError).isSome
  | .handlerPending .. => input.settledError.isSome
  | _ => false

/-- Whether the task that an event goes on with has waited for something that has failed. -/
def AcceptorState.awaitFailed (st : AcceptorState) (e : Step) : Bool :=
  match e.event with
  | .resume i => st.tasks[i]?.any (Frame.fails e.input)
  | _ => false

/-- Nothing fails when a session handles a message: no user code throws, and the promise that
was awaited is fulfilled. -/
def HandlesWell (s : ℕ) (m : Message) (st : AcceptorState) (e : Step) : Prop :=
  st.handling e.event = some (s, m) →
    (∀ t ∈ e.input.thrown, t = none) ∧ st.awaitFailed e = false

instance (s : ℕ) (m : Message) : ∀ st e, Decidable (HandlesWell s m st e) := fun st e =>
  inferInstanceAs (Decidable (st.handling e.event = some (s, m) →
    (∀ t ∈ e.input.thrown, t = none) ∧ st.awaitFailed e = false))

/-- How often users pass a message to a session in a step. -/
def Event.calls (s : ℕ) (m : Message) : Event → ℕ
  | .handleMessage x m' => if x = s ∧ m' = m then 1 else 0
  | _ => 0

/-- The session has the handler, which has missed the message `d` times. -/
structure Misses (s : ℕ) (m : Message) (i : ℕ) (d : ℤ) (st : AcceptorState) : Prop where
  created : s < st.nextSession
  takes : st.Takes s m i
  missed : st.missed s m i = d

variable {st st' : AcceptorState} {e : Step} {s i next : ℕ} {m : Message} {d : ℤ} {a : Act}
  {frame : Frame} {α : Type} {Φ : Prop}

/-! ## Acts -/

/-- An act that has nothing to do with a message for a session. -/
def Act.aside (s : ℕ) (m : Message) : Act → Bool
  | .take _ => false
  | .suspend frame => frame.delivers ≠ some (s, m)
  | .observe o => o.concerns ≠ some (s, m)
  | _ => true

/-- Only frames that deliver the message bring it. -/
theorem brings_eq_false (h : frame.delivers ≠ some (s, m)) : frame.brings s m i = false := by
  cases frame with
  | handlerPending origin x m' next =>
    refine decide_eq_false fun ⟨hx, hm, _⟩ => h ?_
    rw [Frame.delivers, hx, hm]
  | _ => exact decide_eq_false h

/-- Handlers are only added. -/
theorem takes_apply (hs : s < st.nextSession) (h : st.Takes s m i) : (a.apply st).Takes s m i := by
  obtain ⟨handler, hhandler, htakes⟩ := h
  refine ⟨handler, ?_, htakes⟩
  rw [sessions_apply_eq]
  cases a with
  | create config c => rwa [Act.onSession, if_neg (Nat.ne_of_gt hs)]
  | addHandlers y metadata =>
    simp only [Act.onSession, Session.withHandlers]
    have hadd : ∀ (h : Handlers) (kind : HandlerKind) (o : Option ℕ),
        (h.addIf kind o).message = h.message := by
      intro h kind o
      cases o with
      | none => rfl
      | some handler =>
        rw [Handlers.addIf, Handlers.add]
        split <;> rfl
    split
    · split
      · simpa only [hadd] using hhandler
      · dsimp only
        simp only [hadd]
        obtain ⟨hi, _⟩ := List.getElem?_eq_some_iff.mp hhandler
        rwa [List.getElem?_append_left hi]
    · exact hhandler
  | _ =>
    first
    | exact hhandler
    | (simp only [Act.onSession]; split <;> exact hhandler)

/-- What an observation adds. -/
theorem missed_observe (o : Observation) (st : AcceptorState) :
    ((Act.observe o).apply st).missed s m i = st.missed s m i +
      (if o.passesTo s m then 1 else 0) - if o = .handled s m i then 1 else 0 := by
  have htrace : ((Act.observe o).apply st).trace = st.trace ++ [o] := rfl
  have htasks : ((Act.observe o).apply st).tasks = st.tasks := rfl
  unfold AcceptorState.missed AcceptorState.passedTo AcceptorState.handledBy AcceptorState.awaiting
  rw [htrace, htasks, List.countP_append, List.countP_singleton, List.count_append,
    List.count_singleton]
  by_cases hpasses : o.passesTo s m = true <;> by_cases hhandled : o = .handled s m i <;>
    simp [hpasses, hhandled] <;> omega

/-- What a suspended task adds. -/
theorem missed_suspend (frame : Frame) (st : AcceptorState) :
    ((Act.suspend frame).apply st).missed s m i =
      st.missed s m i - if frame.brings s m i then 1 else 0 := by
  have htrace : ((Act.suspend frame).apply st).trace = st.trace := rfl
  have htasks : ((Act.suspend frame).apply st).tasks = st.tasks ++ [frame] := rfl
  unfold AcceptorState.missed AcceptorState.passedTo AcceptorState.handledBy AcceptorState.awaiting
  rw [htrace, htasks, List.countP_append, List.countP_singleton]
  split <;> push_cast <;> omega

/-- What taking a task removes. -/
theorem missed_take {j : ℕ} (hf : st.tasks[j]? = some frame) :
    ((Act.take j).apply st).missed s m i =
      st.missed s m i + if frame.brings s m i then 1 else 0 := by
  have htrace : ((Act.take j).apply st).trace = st.trace := rfl
  have htasks : ((Act.take j).apply st).tasks = st.tasks.eraseIdx j := rfl
  obtain ⟨hj, hframe⟩ := List.getElem?_eq_some_iff.mp hf
  have hsplit : st.tasks = st.tasks.take j ++ frame :: st.tasks.drop (j + 1) := by
    rw [← hframe, List.getElem_cons_drop, List.take_append_drop]
  have hcount : st.awaiting s m i = ((Act.take j).apply st).awaiting s m i +
      if frame.brings s m i then 1 else 0 := by
    unfold AcceptorState.awaiting
    rw [htasks, List.eraseIdx_eq_take_drop_succ]
    conv_lhs => rw [hsplit]
    rw [List.countP_append, List.countP_append, List.countP_cons, Nat.add_assoc]
  unfold AcceptorState.missed AcceptorState.passedTo AcceptorState.handledBy
  rw [htrace, hcount]
  split <;> push_cast <;> omega

/-- The observations of an act that stands aside are not counted. -/
theorem trace_aside (ha : a.aside s m = true) (st : AcceptorState) :
    (a.apply st).passedTo s m = st.passedTo s m ∧
      (a.apply st).handledBy s m i = st.handledBy s m i := by
  unfold AcceptorState.passedTo AcceptorState.handledBy
  cases hobserves : a.observes with
  | false =>
    rw [trace_apply hobserves]
    exact ⟨rfl, rfl⟩
  | true =>
    cases a with
    | observe o =>
      have htrace : ((Act.observe o).apply st).trace = st.trace ++ [o] := rfl
      have hconcerns : o.concerns ≠ some (s, m) := of_decide_eq_true ha
      rw [htrace, List.countP_append, List.count_append]
      cases o with
      | dispatched c x m' =>
        have hne : ¬ (x = s ∧ m' = m) := fun ⟨hx, hm⟩ => hconcerns (by rw [hx, hm]; rfl)
        simp [Observation.passesTo, hne]
      | handled x m' j =>
        have hne : Observation.handled x m' j ≠ .handled s m i := by
          rintro heq
          cases heq
          exact hconcerns rfl
        simp [Observation.passesTo, hne]
      | _ => simp [Observation.passesTo]
    | disconnect x =>
      have htrace : ((Act.disconnect x).apply st).trace = st.trace ++ [.ran x .disconnected] := rfl
      rw [htrace, List.countP_append, List.count_append]
      simp [Observation.passesTo]
    | _ => cases hobserves

/-- The tasks of an act that stands aside bring no message. -/
theorem awaiting_aside (ha : a.aside s m = true) (st : AcceptorState) :
    (a.apply st).awaiting s m i = st.awaiting s m i := by
  have htake : ∀ j, a ≠ .take j := by
    rintro j rfl
    cases ha
  have hzero : (a.adds st).countP (Frame.brings s m i) = 0 := by
    refine List.countP_eq_zero.mpr fun frame hframe => ?_
    rw [Bool.not_eq_true]
    rcases mem_adds hframe with rfl | ⟨k, stopping, rfl⟩
    · exact brings_eq_false (of_decide_eq_true ha)
    · rfl
  unfold AcceptorState.awaiting
  rw [tasks_apply htake, List.countP_append, hzero, Nat.add_zero]

namespace Misses

theorem aside (h : Misses s m i d st) (ha : a.aside s m = true) :
    Misses s m i d (a.apply st) := by
  refine ⟨Nat.lt_of_lt_of_le h.created (nextSession_le_apply a st), takes_apply h.created h.takes,
    ?_⟩
  obtain ⟨hpassed, hhandled⟩ := trace_aside (i := i) ha st
  rw [← h.missed, AcceptorState.missed, hpassed, hhandled, awaiting_aside ha]
  rfl

/-- A message that is taken out of the queue of tasks is missed for the moment. -/
theorem take (h : Misses s m i d st) {j : ℕ} (hf : st.tasks[j]? = some frame) :
    Misses s m i (d + if frame.brings s m i then 1 else 0) ((Act.take j).apply st) :=
  ⟨h.created, h.takes, by rw [missed_take hf, h.missed]⟩

theorem suspend (h : Misses s m i (d + 1) st) (hframe : frame.brings s m i = true) :
    Misses s m i d ((Act.suspend frame).apply st) :=
  ⟨h.created, h.takes, by rw [missed_suspend, h.missed, if_pos hframe, add_sub_cancel_right]⟩

theorem suspend_of_not_brings (h : Misses s m i d st) (hframe : frame.brings s m i = false) :
    Misses s m i d ((Act.suspend frame).apply st) := by
  refine ⟨h.created, h.takes, ?_⟩
  rw [missed_suspend, h.missed, hframe]
  exact sub_zero d

theorem dispatch (h : Misses s m i d st) (c : ℕ) :
    Misses s m i (d + 1) ((Act.observe (.dispatched c s m)).apply st) := by
  refine ⟨h.created, h.takes, ?_⟩
  rw [missed_observe, h.missed]
  simp [Observation.passesTo]

theorem handle (h : Misses s m i d st) (j : ℕ) :
    Misses s m i (d - if j = i then 1 else 0) ((Act.observe (.handled s m j)).apply st) := by
  refine ⟨h.created, h.takes, ?_⟩
  rw [missed_observe, h.missed]
  simp [Observation.passesTo]

end Misses

/-! ## Code -/

/-- A message is in hand. It is known that no user code throws if `Φ` holds. -/
def InHand (s : ℕ) (m : Message) (i : ℕ) (d : ℤ) (Φ : Prop) (st : AcceptorState) : Prop :=
  Misses s m i (d + 1) st ∧ (Φ → Calm st)

/-- The message has been handed on, or it is lost, which only happens if `Φ` does not hold. -/
def HandedOn (s : ℕ) (m : Message) (i : ℕ) (d : ℤ) (Φ : Prop) (st : AcceptorState) : Prop :=
  Misses s m i d st ∨ ¬ Φ ∧ Misses s m i (d + 1) st

/-- A computation that hands a message on. -/
def HandsOn (s : ℕ) (m : Message) (i : ℕ) (x : AcceptorM α) : Prop :=
  ∀ d Φ, Triple (InHand s m i d Φ) x (fun _ => HandedOn s m i d Φ) (HandedOn s m i d Φ)

/-- User code stays calm. -/
theorem Calm.apply (h : Calm st) (a : Act) : Calm (a.apply st) := by
  cases a with
  | consume => exact fun e he => h e (List.mem_of_mem_tail he)
  | remove _ => exact (withoutEntry_congr st _ (f := Calm) fun _ _ => rfl).mpr h
  | removeId _ => exact (withoutEnded_congr st _ (f := Calm) fun _ _ => rfl).mpr h
  | settleCloseAll _ _ => exact (settled_congr st _ _ (f := Calm) fun _ _ => rfl).mpr h
  | _ => exact h

theorem misses_of_performs {x : AcceptorM α}
    (h : ∀ st, ∃ A, Performs A st x ∧ ∀ a ∈ A, a.aside s m = true) :
    Exec.Keeps (Misses s m i d) x :=
  .of_after fun st hst => by
    obtain ⟨A, hx, hA⟩ := h st
    exact hx.keeps (P := Misses s m i d) (fun _ a _ ha hst => hst.aside (hA a ha)) hst

theorem inHand_of_performs {x : AcceptorM α}
    (h : ∀ st, ∃ A, Performs A st x ∧ ∀ a ∈ A, a.aside s m = true) :
    Exec.Keeps (InHand s m i d Φ) x :=
  .of_after fun st hst => by
    obtain ⟨A, hx, hA⟩ := h st
    exact hx.keeps (P := InHand s m i d Φ)
      (fun _ a _ ha hst => ⟨hst.1.aside (hA a ha), fun hΦ => (hst.2 hΦ).apply a⟩) hst

/-- Code that only fails when user code throws. -/
theorem inHand_of_calm {x : AcceptorM α}
    (h : ∀ st, ∃ A, Performs A st x ∧ ∀ a ∈ A, a.aside s m = true)
    (hcalm : Triple Calm x (fun _ => Calm) fun _ => False) :
    Triple (InHand s m i d Φ) x (fun _ => InHand s m i d Φ)
      (fun st => ¬ Φ ∧ Misses s m i (d + 1) st) := by
  have hkeeps := inHand_of_performs (i := i) (d := d) (Φ := Φ) h
  by_cases hΦ : Φ
  · exact (hkeeps.and hcalm).conseq (fun st hst => ⟨hst, hst.2 hΦ⟩) (fun _ _ h => h.1)
      fun _ h => h.2.elim
  · exact hkeeps.conseq (fun _ => id) (fun _ _ => id) fun _ h => ⟨hΦ, h.1⟩

theorem aside_send {x : ℕ} (ha : a ∈ sendActs x) : a.aside s m = true := by
  rcases ha with rfl | ⟨_, _, rfl⟩ <;> rfl

theorem aside_tearDown {x : ℕ} {p : Prop} (ha : a ∈ tearDownActs x p) : a.aside s m = true := by
  rcases ha with (rfl | rfl | rfl | ⟨_, rfl⟩) | ⟨_, rfl | rfl⟩ <;> rfl

theorem aside_settleMessage {origin : Origin} (ha : a ∈ settleMessageActs origin) :
    a.aside s m = true := by
  cases origin with
  | user => cases ha
  | chunk c rest logon => rcases ha with rfl | rfl <;> rfl

theorem aside_handleLogout {x : ℕ} (ha : a ∈ handleLogoutActs st x) : a.aside s m = true := by
  rcases ha with (((rfl | rfl) | rfl | rfl) | rfl) | ha
  on_goal 6 => exact aside_tearDown ha
  all_goals rfl

theorem aside_afterLogonResponse {x : ℕ} (ha : a ∈ afterLogonResponseActs x) :
    a.aside s m = true := by
  rcases ha with ((rfl | rfl) | rfl | rfl) | rfl | rfl <;> rfl

/-- A task that brings the message hands it on. -/
theorem handsOn_suspend (hframe : frame.brings s m i = true) : HandsOn s m i (suspend frame) :=
  fun _ _ => .modify fun _ hst => Or.inl (hst.1.suspend hframe)

/-- A task other than one between two handlers brings the message to all of them. -/
theorem brings_of_delivers (hframe : frame.delivers = some (s, m))
    (hpending : ∀ origin x m' next, frame ≠ .handlerPending origin x m' next) :
    frame.brings s m i = true := by
  cases frame with
  | handlerPending origin x m' next => exact absurd rfl (hpending origin x m' next)
  | _ => exact decide_eq_true hframe

/-- Ending `handleMessage` with an error loses the message. -/
theorem lost_settleMessage (origin : Origin) (result : Except JSError Unit) :
    Exec.Keeps (Misses s m i d) (settleMessage origin result) :=
  misses_of_performs fun _ => ⟨_, performs_settleMessage result fun _ => id,
    fun _ => aside_settleMessage⟩

theorem handedOn_settleMessage (origin : Origin) (e : JSError) :
    Triple (fun st => ¬ Φ ∧ Misses s m i (d + 1) st) (settleMessage origin (.error e))
      (fun _ => HandedOn s m i d Φ) (HandedOn s m i d Φ) := by
  by_cases hΦ : Φ
  · exact fun st hst => absurd hΦ hst.1
  · exact (lost_settleMessage origin _).conseq (fun _ h => h.2) (fun _ _ h => Or.inr ⟨hΦ, h⟩)
      fun _ h => Or.inr ⟨hΦ, h⟩

/-- So does a Logon that fails after the response. -/
theorem handedOn_failedLogon (origin : Origin) (x : ℕ) (e : JSError) :
    Triple (fun st => ¬ Φ ∧ Misses s m i (d + 1) st)
      (updateSession x (fun y => { y with state := .error }) >>= fun _ =>
        settleMessage origin (.error e))
      (fun _ => HandedOn s m i d Φ) (HandedOn s m i d Φ) :=
  .bind (.modify fun _ hst => ⟨hst.1, hst.2.aside (a := .setState x .error) rfl⟩) fun _ =>
    handedOn_settleMessage origin e

/-! ## Message handlers -/

/-- A handler at or behind the place that is looked at. -/
theorem le_of_nextHandler {msgType : Value} {handlers : List MessageHandler} {k j : ℕ}
    (h : nextHandler msgType handlers k = some j) : k ≤ j := by
  induction handlers generalizing k with
  | nil => cases h
  | cons handler handlers ih =>
    rw [nextHandler] at h
    split at h
    · exact (Option.some.inj h).le
    · exact (Nat.le_succ k).trans (ih h)

/-- The next handler for a message comes no later than one that takes it. -/
theorem exists_nextHandler {handlers : List MessageHandler} {handler : MessageHandler} {k n : ℕ}
    (hn : handlers[n]? = some handler) (htakes : handler.takes m = true) :
    ∃ j ≤ k + n, nextHandler (m.getField Fields.msgType) handlers k = some j := by
  induction handlers generalizing k n with
  | nil => cases hn
  | cons first handlers ih =>
    rw [nextHandler]
    cases htakes' : first.takes m with
    | true =>
      exact ⟨k, Nat.le_add_right k n, if_pos (by simpa [MessageHandler.takes] using htakes')⟩
    | false =>
      have hnot : ¬ (!first.msgType.truthy ||
          first.msgType = m.getField Fields.msgType) = true := by
        simpa [MessageHandler.takes] using htakes'
      rw [if_neg (by simpa using hnot)]
      cases n with
      | zero =>
        cases hn
        rw [htakes] at htakes'
        cases htakes'
      | succ n =>
        obtain ⟨j, hj, hnext⟩ := ih (k := k + 1) hn
        exact ⟨j, by omega, hnext⟩

/-- User code has nothing to do with the message. -/
theorem misses_callUser : Exec.Keeps (Misses s m i d) callUser :=
  misses_of_performs fun _ => ⟨{.consume}, performs_callUser rfl, by rintro _ rfl; rfl⟩

theorem inHand_callUser : Triple (InHand s m i d Φ) callUser (fun _ => InHand s m i d Φ)
    (fun st => ¬ Φ ∧ Misses s m i (d + 1) st) :=
  inHand_of_calm (fun _ => ⟨{.consume}, performs_callUser rfl, by rintro _ rfl; rfl⟩)
    triple_callUser_calm

/-- A handler is called: one before handler `i` hands the message on unless it throws. -/
theorem handsOn_runMessageHandlers (origin : Origin) (h : next ≤ i) :
    HandsOn s m i (runMessageHandlers origin s m next) := by
  intro d Φ
  refine .get_bind fun st hst => ?_
  obtain ⟨handler, hhandler, htakes⟩ := hst.1.takes
  have hdrop : ((st.sessions s).handlers.message.drop next)[i - next]? = some handler := by
    rw [List.getElem?_drop, Nat.add_sub_cancel' h, hhandler]
  obtain ⟨j, hj, hnext⟩ := exists_nextHandler (k := next) hdrop htakes
  rw [Nat.add_sub_cancel' h] at hj
  rw [hnext]
  dsimp only
  by_cases hji : j = i
  · -- the message has come to handler `i`, whatever the handler does
    refine .bind (Q := fun _ => Misses s m i d) (.modify ?_) fun _ =>
      .bind (Q := fun _ => Misses s m i d) ?_ fun result => ?_
    · rintro _ rfl
      have hhandled := hst.1.handle j
      rwa [if_pos hji, add_sub_cancel_right] at hhandled
    · exact misses_callUser.attempt.conseq (fun _ => id) (fun r _ h => by cases r <;> exact h)
        fun _ => Or.inl
    · cases result with
      | ok _ =>
        refine .modify fun st1 h1 => Or.inl (h1.suspend_of_not_brings (decide_eq_false ?_))
        omega
      | error e =>
        exact (lost_settleMessage origin _).conseq (fun _ => id) (fun _ _ => Or.inl)
          fun _ => Or.inl
  · refine .bind (Q := fun _ => InHand s m i d Φ) (.modify ?_) fun _ =>
      .bind inHand_callUser.attempt fun result => ?_
    · rintro _ rfl
      have hhandled := hst.1.handle j
      rw [if_neg hji, sub_zero] at hhandled
      exact ⟨hhandled, hst.2⟩
    · cases result with
      | ok _ =>
        refine handsOn_suspend ?_ d Φ
        exact decide_eq_true ⟨rfl, rfl, by omega⟩
      | error e => exact handedOn_settleMessage origin e

/-- Calling handlers behind handler `i` does not concern it. -/
theorem misses_runMessageHandlers (origin : Origin) (h : i < next) :
    Exec.Keeps (Misses s m i d) (runMessageHandlers origin s m next) := by
  refine keeps_get_bind fun st hst => ?_
  split
  · exact lost_settleMessage origin _
  · next j hj =>
    have hij : i < j := Nat.lt_of_lt_of_le h (le_of_nextHandler hj)
    refine .bind (Q := fun _ => Misses s m i d) (.modify fun st1 h1 => ?_) fun _ =>
      .bind (Q := fun _ => Misses s m i d) ?_ fun result => ?_
    · have hhandled := h1.handle j
      rwa [if_neg (Nat.ne_of_gt hij), sub_zero] at hhandled
    · exact misses_callUser.attempt.conseq (fun _ => id) (fun r _ h => by cases r <;> exact h)
        fun _ => id
    · cases result with
      | ok _ =>
        refine .modify fun st1 h1 => h1.suspend_of_not_brings (decide_eq_false ?_)
        omega
      | error e => exact lost_settleMessage origin _

/-! ## Handling a message -/

theorem inHand_startSend (x : ℕ) (m' : Message) :
    Exec.Keeps (InHand s m i d Φ) (startSend x m') :=
  inHand_of_performs fun _ => ⟨_, performs_startSend x m' fun _ => id, fun _ => aside_send⟩

theorem inHand_sendLogonResponse (x : ℕ) :
    Exec.Keeps (InHand s m i d Φ) (sendLogonResponse x) := by
  refine keeps_get_bind fun st _ => .bind (inHand_startSend x _) fun error => ?_
  cases error with
  | none =>
    refine .bind (inHand_of_performs fun _ => ⟨{.observe (.answered x)}, performs_observe rfl, ?_⟩)
      fun _ => .pure fun _ => id
    rintro _ rfl
    rfl
  | some e => exact .pure fun _ => id

theorem triple_runHandlers_calm (x : ℕ) (kind : HandlerKind) :
    Triple Calm (runHandlers x kind) (fun _ => Calm) fun _ => False :=
  .bind (triple_modify_calm fun _ => rfl) fun _ =>
    triple_get_calm fun _ => .forEach _ fun _ => triple_callUser_calm

theorem triple_handleLogout_calm (x : ℕ) :
    Triple Calm (handleLogout x) (fun _ => Calm) fun _ => False :=
  .bind (triple_runHandlers_calm x _) fun _ => .bind (triple_modify_calm fun _ => rfl) fun _ =>
    .bind (triple_emit_calm x _) fun _ => .bind (triple_handleDisconnect_calm x) fun _ =>
      .bind (triple_get_calm fun _ => triple_modify_calm fun _ => rfl) fun _ =>
        triple_removeId_calm x

/-- Every message is handed on to the message handlers, after what the session does itself. -/
theorem handsOn_handleMessage (origin : Origin) (s : ℕ) (m : Message) :
    HandsOn s m i (handleMessage origin s m) := by
  intro d Φ
  unfold handleMessage
  split
  · refine .bind (Q := fun _ => InHand s m i d Φ) (.modify ?_) fun _ =>
      .bind ((noThrow_sendLogonResponse s).triple (inHand_sendLogonResponse s)) fun error =>
        handsOn_suspend (brings_of_delivers rfl (by simp)) d Φ
    exact fun st hst => ⟨hst.1.aside (a := .setState s .loggedOn) rfl, hst.2⟩
  · split
    · refine .bind (inHand_of_calm (fun _ => ⟨_, performs_handleLogout s fun _ => id,
        fun _ => aside_handleLogout⟩) (triple_handleLogout_calm s)).attempt fun result => ?_
      cases result with
      | ok _ => exact handsOn_suspend (brings_of_delivers rfl (by simp)) d Φ
      | error e => exact handedOn_settleMessage origin e
    · split
      · exact .bind ((noThrow_startSend s _).triple (inHand_startSend s _)) fun error =>
          handsOn_suspend (brings_of_delivers rfl (by simp)) d Φ
      · exact handsOn_runMessageHandlers origin (Nat.zero_le i) d Φ

/-- A message of a chunk is missed when it is passed to the session, and then handed on. -/
theorem handsOn_processMessages {c : ℕ} {rest : List Message}
    (hrouted : st.lifecycle.routed m = some s) (h : Misses s m i d st) (hcalm : Φ → Calm st) :
    HandedOn s m i d Φ ((processMessages c (m :: rest)).after st) := by
  unfold Lifecycle.routed at hrouted
  split at hrouted
  · next hroutable =>
    simp only [routable, Bool.and_eq_true, decide_eq_true_eq] at hroutable
    obtain ⟨⟨htype, hraw⟩, hlogon⟩ := hroutable
    cases hresult : m.toString with
    | error e =>
      rw [hresult] at hraw
      cases hraw
    | ok raw =>
      have hget : ((Act.observe (.processing c m)).apply st).registry.get? (buildSessionId m) =
          some s := hrouted
      rw [processMessages, if_pos htype, hresult]
      dsimp only
      rw [after_bind_of_ok (result_observe _), if_neg hlogon, handleNonLogonMessage,
        after_bind_of_ok (result_get _), hget]
      dsimp only
      rw [after_bind_of_ok (result_observe _)]
      have hpassed := (h.aside (a := .observe (.processing c m)) rfl).dispatch c
      exact (handsOn_handleMessage _ s m d Φ).after ⟨hpassed, hcalm⟩
  · cases hrouted

theorem handsOn_setupDisconnectHandler (c x : ℕ) :
    Triple (InHand s m i d Φ) (setupDisconnectHandler c x) (fun _ => InHand s m i d Φ)
      (HandedOn s m i d Φ) :=
  .modify fun _ hst => ⟨hst.1.aside (a := .listen c x) rfl, hst.2⟩

theorem triple_afterLogonResponse_calm (x : ℕ) :
    Triple Calm (afterLogonResponse x none) (fun _ => Calm) fun _ => False :=
  .bind (triple_runHandlers_calm x _) fun _ => .bind (triple_runHandlers_calm x _) fun _ =>
    triple_emit_calm x _

/-- Going on with a task that brings the message hands it on, unless what was awaited has
failed. -/
theorem handsOn_resume (hdelivers : frame.delivers = some (s, m))
    (hbrings : frame.brings s m i = true) (h : InHand s m i d Φ st)
    (hfails : Φ → frame.fails st.input = false) :
    HandedOn s m i d Φ ((resume frame).after st) := by
  cases frame with
  | created c x m' rest =>
    cases hdelivers
    refine Triple.after (.bind ((noThrow_setupSessionHandlers s).triple (inHand_of_performs
      fun st => ⟨{a | ∃ metadata, a = .addHandlers s metadata}, performs_setupSessionHandlers s
        fun metadata _ => ⟨metadata, rfl⟩, ?_⟩)) fun _ =>
          handsOn_suspend (brings_of_delivers rfl (by simp)) d Φ) h
    rintro _ ⟨metadata, rfl⟩
    rfl
  | handlersSet c x m' rest =>
    cases hdelivers
    exact Triple.after (.bind (handsOn_setupDisconnectHandler c s) fun _ =>
      handsOn_handleMessage _ s m d Φ) h
  | logonResponse origin x m' error =>
    cases hdelivers
    have hresult : (sendError error).result st = (.ok (error.or st.input.settledError), st) := rfl
    rw [resume, after_bind_of_ok hresult]
    cases herror : error.or st.input.settledError with
    | none =>
      refine Triple.after (.bind (inHand_of_calm (fun _ => ⟨_, performs_afterLogonResponse none
        fun _ => id, fun _ => aside_afterLogonResponse⟩)
          (triple_afterLogonResponse_calm s)).attempt fun result => ?_) h
      cases result with
      | ok _ => exact handsOn_suspend (brings_of_delivers rfl (by simp)) d Φ
      | error e => exact handedOn_failedLogon origin s e
    | some e =>
      have hΦ : ¬ Φ := fun hΦ => by simpa [Frame.fails, herror] using hfails hΦ
      have hthrown : (attempt (afterLogonResponse s (some e))).result st =
          (.ok (.error e), st) := rfl
      rw [after_bind_of_ok hthrown]
      exact (handedOn_failedLogon origin s e).after ⟨hΦ, h.1⟩
  | testRequestReply origin x m' error =>
    cases hdelivers
    have hresult : (sendError error).result st = (.ok (error.or st.input.settledError), st) := rfl
    rw [resume, after_bind_of_ok hresult]
    cases herror : error.or st.input.settledError with
    | none => exact (handsOn_suspend (brings_of_delivers rfl (by simp)) d Φ).after h
    | some e =>
      have hΦ : ¬ Φ := fun hΦ => by simpa [Frame.fails, herror] using hfails hΦ
      exact (handedOn_settleMessage origin e).after ⟨hΦ, h.1⟩
  | messageHandlers origin x m' =>
    cases hdelivers
    exact (handsOn_runMessageHandlers origin (Nat.zero_le i) d Φ).after h
  | handlerPending origin x m' next =>
    cases hdelivers
    rw [resume, after_bind_of_ok (result_get st)]
    cases hsettled : st.input.settled with
    | ok _ =>
      exact (handsOn_runMessageHandlers origin (of_decide_eq_true hbrings).2.2 d Φ).after h
    | error e =>
      have hΦ : ¬ Φ := fun hΦ => by
        simpa [Frame.fails, Input.settledError, hsettled] using hfails hΦ
      exact (handedOn_settleMessage origin e).after ⟨hΦ, h.1⟩
  | _ => cases hdelivers

/-! ## Steps -/

theorem handling_of_incoming {event : Event} {c : ℕ} {rest : List Message}
    (hin : st.incoming event = some (c, m :: rest)) :
    st.handling event = (st.lifecycle.routed m).map (·, m) := by
  unfold AcceptorState.handling
  rw [hin]

theorem handling_of_task {j : ℕ} (hf : st.tasks[j]? = some frame)
    (hdelivers : frame.delivers = some (s, m)) : st.handling (.resume j) = some (s, m) := by
  have hin : st.incoming (.resume j) = none := by
    unfold AcceptorState.incoming
    dsimp only
    rw [hf]
    cases frame with
    | nextMessage => cases hdelivers
    | _ => rfl
  unfold AcceptorState.handling
  rw [hin]
  dsimp only
  rw [hf]
  exact hdelivers

theorem handling_of_goesOn {event : Event} (hf : st.GoesOn event frame)
    (hdelivers : frame.delivers = some (s, m)) : st.handling event = some (s, m) := by
  obtain ⟨j, rfl, hf⟩ := hf
  exact handling_of_task hf hdelivers

theorem handling_of_handles {event : Event} {origin : Origin}
    (h : st.Handles event origin s m) : st.handling event = some (s, m) := by
  cases h with
  | routed hin hs => rw [handling_of_incoming hin, hs, Option.map_some]
  | started hf => exact handling_of_task hf rfl
  | called => rfl

theorem handling_of_serves {event : Event} {origin : Origin}
    (h : st.Serves event origin s m) : st.handling event = some (s, m) := by
  rcases h with h | ⟨frame, hf, hserves⟩
  · exact handling_of_handles h
  · refine handling_of_goesOn hf ?_
    cases frame <;> cases hserves <;> rfl

/-! Message handlers are only called for the message that an event handles. -/

theorem handled_handleMessage {origin : Origin} {x : ℕ} {m' : Message}
    (ha : .observe (.handled s m i) ∈ handleMessageActs st origin x m') : (x, m') = (s, m) := by
  unfold handleMessageActs at ha
  split at ha
  · simp [startLogonActs, sendActs] at ha
  · split at ha
    · cases origin <;> simp [handleLogoutActs, ranActs, emitActs, tearDownActs, disconnectActs,
        settleMessageActs] at ha
    · split at ha
      · simp [startTestRequestReplyActs, sendActs] at ha
      · cases origin <;> simpa [runMessageHandlersActs, settleMessageActs, eq_comm] using ha

theorem handled_process {event : Event} {c : ℕ} {ms : List Message}
    (hin : st.incoming event = some (c, ms))
    (ha : .observe (.handled s m i) ∈ processActs st c ms) : st.handling event = some (s, m) := by
  cases ms with
  | nil => cases ha
  | cons m' rest =>
    rcases ha with ⟨ha, _⟩ | ⟨_, ha⟩ | ha | ha | ⟨_, ha⟩ | ⟨hroutable, ha | ⟨x, hx, ha | ha⟩⟩
    · cases ha
    · cases ha
    · cases ha
    · cases ha
    · simp [validateLogonActs] at ha
    · simp [refuseActs, failWriteActs] at ha
    · cases ha
    · cases handled_handleMessage ha
      have hrouted : st.lifecycle.routed m = some s := (if_pos hroutable).trans hx
      rw [handling_of_incoming hin, hrouted, Option.map_some]

theorem handled_resume {j : ℕ} (hf : st.tasks[j]? = some frame)
    (ha : .observe (.handled s m i) ∈ resumeActs st frame) :
    st.handling (.resume j) = some (s, m) := by
  have hhandlers : ∀ {origin : Origin} {x : ℕ} {m' : Message},
      .observe (.handled s m i) ∈ runMessageHandlersActs origin x m' → (x, m') = (s, m) := by
    intro origin x m' ha
    cases origin <;> simpa [runMessageHandlersActs, settleMessageActs, eq_comm] using ha
  cases frame with
  | nextMessage c rest => exact handled_process (by simp [AcceptorState.incoming, hf]) ha
  | validated c m' rest verdict =>
    cases verdict with
    | valid =>
      simp [resumeActs, createActs, registerActs, finishActs, logoutActs, sendActs,
        settleLogoutActs] at ha
    | _ => simp [resumeActs, refuseActs, failWriteActs] at ha
  | handlersSet c x m' rest =>
    rcases ha with ha | ha
    · cases ha
    · cases handled_handleMessage ha
      exact handling_of_task hf rfl
  | logonResponse origin x m' error =>
    cases origin <;> simp [resumeActs, afterLogonResponseActs, ranActs, emitActs,
      settleMessageActs] at ha
  | testRequestReply origin x m' error =>
    cases origin <;> simp [resumeActs, settleMessageActs] at ha
  | messageHandlers origin x m' =>
    cases hhandlers ha
    exact handling_of_task hf rfl
  | handlerPending origin x m' next =>
    cases hhandlers ha
    exact handling_of_task hf rfl
  | logoutSent x caller error =>
    cases caller <;> simp [resumeActs, afterLogoutActs, emitActs, tearDownActs, disconnectActs,
      settleLogoutActs] at ha
  | _ =>
    simp [resumeActs, afterValidateCredentialsActs, afterGetAllowedSenderCompIdsActs,
      finishActs] at ha

theorem handling_of_handled {event : Event}
    (ha : .observe (.handled s m i) ∈ eventActs st event) : st.handling event = some (s, m) := by
  cases event with
  | data c data => exact handled_process (if_pos ha.1) ha.2
  | resume j =>
    obtain ⟨frame, hf, ha | ha⟩ := ha
    · cases ha
    · exact handled_resume hf ha
  | handleMessage x m' =>
    cases handled_handleMessage ha
    rfl
  | nextListener =>
    change _ ∈ nextListenerActs st at ha
    unfold nextListenerActs at ha
    split at ha
    · cases ha
    · cases ha
    · next listener _ _ =>
      cases listener <;> simp [listenerActs, cleanupActs, tearDownActs, disconnectActs] at ha
  | _ =>
    simp [eventActs, closeAllActs, logoutActs, sendActs, settleLogoutActs, registerActs,
      finishActs] at ha

/-- Other events have nothing to do with the message. -/
theorem aside_of_event {event : Event} (hhandling : st.handling event ≠ some (s, m))
    (hs : s < st.nextSession) (ha : a ∈ eventActs st event) (htake : ∀ j, a ≠ .take j) :
    a.aside s m = true := by
  have hcaused := causedBy_of_mem ha
  cases a with
  | take j => exact absurd rfl (htake j)
  | observe o =>
    refine decide_eq_true fun hconcerns => hhandling ?_
    cases o with
    | dispatched c x m' =>
      cases hconcerns
      obtain ⟨rest, hin, hrouted⟩ := hcaused
      rw [handling_of_incoming hin, hrouted, Option.map_some]
    | handled x m' j =>
      cases hconcerns
      exact handling_of_handled ha
    | _ => cases hconcerns
  | suspend frame =>
    refine decide_eq_true fun hdelivers => hhandling ?_
    cases frame with
    | created c x m' rest =>
      cases hdelivers
      exact absurd hcaused.1 (Nat.ne_of_lt hs)
    | handlersSet c x m' rest =>
      cases hdelivers
      exact handling_of_goesOn hcaused rfl
    | logonResponse origin x m' error =>
      cases hdelivers
      exact handling_of_handles hcaused.1
    | testRequestReply origin x m' error =>
      cases hdelivers
      exact handling_of_handles hcaused
    | messageHandlers origin x m' =>
      cases hdelivers
      exact handling_of_serves hcaused
    | handlerPending origin x m' next =>
      cases hdelivers
      exact handling_of_serves hcaused
    | _ => cases hdelivers
  | _ => rfl

/-- The input of a step does not matter. -/
theorem Misses.meets (h : Misses s m i d st) (e : Step) : Misses s m i d (st.meets e) :=
  ⟨h.created, h.takes, h.missed⟩

/-- A step that does not handle the message leaves it alone. -/
theorem Misses.step_aside (h : Misses s m i d st) (hstep : st.step e = some st')
    (hhandling : st.handling e.event ≠ some (s, m)) : Misses s m i d st' := by
  have hhandling' : (st.meets e).handling e.event ≠ some (s, m) := hhandling
  have haside : ∀ a ∈ eventActs (st.meets e) e.event, (∀ j, a ≠ .take j) → a.aside s m = true :=
    fun a ha htake => aside_of_event hhandling' h.created ha htake
  by_cases hresume : ∃ j, e.event = .resume j
  · obtain ⟨j, hevent⟩ := hresume
    obtain ⟨frame, hf⟩ := exists_task_of_step hstep hevent
    rw [hevent] at hhandling haside
    rw [← after_resume_step hstep hevent hf]
    refine (performs_resume fun _ => id).keeps (P := Misses s m i d) (fun st1 a _ ha h1 => ?_) ?_
    · have ha' : a ∈ resumeActs (st.meets e) frame := by cases frame <;> exact ha
      exact h1.aside (haside a ⟨frame, hf, Or.inr ha'⟩ (ne_take_of_resume ha'))
    · have hf' : (st.meets e).tasks[j]? = some frame := hf
      have hbrings : frame.brings s m i = false :=
        brings_eq_false fun hdelivers => hhandling (handling_of_task hf hdelivers)
      have htaken := (h.meets e).take hf'
      rwa [hbrings, if_neg Bool.false_ne_true, add_zero] at htaken
  · refine (step_path hstep).keeps (P := Misses s m i d) (fun st1 a _ ha h1 => ?_) (h.meets e)
    refine h1.aside (haside a ha ?_)
    rintro j rfl
    exact hresume ⟨j, causedBy_of_mem ha⟩

/-- The message that an event handles is the first one of the chunk it goes on with. -/
theorem routed_of_handling {event : Event} {c : ℕ} {ms : List Message}
    (hin : st.incoming event = some (c, ms)) (h : st.handling event = some (s, m)) :
    ∃ rest, ms = m :: rest ∧ st.lifecycle.routed m = some s := by
  cases ms with
  | nil =>
    unfold AcceptorState.handling at h
    rw [hin] at h
    cases event with
    | resume j =>
      unfold AcceptorState.incoming at hin
      dsimp only at h hin
      split at hin
      · next hf =>
        rw [hf] at h
        cases h
      · cases hin
    | data c data => cases h
    | _ => cases hin
  | cons m' rest =>
    rw [handling_of_incoming hin, Option.map_eq_some_iff] at h
    obtain ⟨x, hx, heq⟩ := h
    cases heq
    exact ⟨rest, rfl, hx⟩

theorem calls_eq_zero {event : Event} (h : event ≠ .handleMessage s m) :
    event.calls s m = 0 := by
  cases event with
  | handleMessage x m' => exact if_neg fun ⟨hx, hm⟩ => h (by rw [hx, hm])
  | _ => rfl

theorem handedOn_data {c : ℕ} {data : List UInt8} (h : Misses s m i d st)
    (hhandling : st.handling (.data c data) = some (s, m)) (hcalm : Φ → Calm st) :
    HandedOn s m i d Φ ((receive c data).after st) := by
  rw [receive, after_bind_of_ok (result_get st)]
  split
  · next hlistener =>
    have hin : st.incoming (.data c data) = some (c, processData data) := if_pos hlistener
    obtain ⟨rest, hms, hrouted⟩ := routed_of_handling hin hhandling
    rw [hms]
    exact handsOn_processMessages hrouted h hcalm
  · next hlistener =>
    have hin : st.incoming (.data c data) = none := if_neg hlistener
    unfold AcceptorState.handling at hhandling
    rw [hin] at hhandling
    cases hhandling

theorem handedOn_task {j : ℕ} (h : Misses s m i d st) (hf : st.tasks[j]? = some frame)
    (hhandling : st.handling (.resume j) = some (s, m)) (hcalm : Φ → Calm st)
    (hfails : Φ → frame.fails st.input = false) :
    HandedOn s m i d Φ ((resume frame).after ((Act.take j).apply st)) := by
  have htaken := h.take hf
  by_cases hnext : ∃ c ms, frame = .nextMessage c ms
  · obtain ⟨c, ms, rfl⟩ := hnext
    have hin : st.incoming (.resume j) = some (c, ms) := by simp [AcceptorState.incoming, hf]
    obtain ⟨rest, rfl, hrouted⟩ := routed_of_handling hin hhandling
    rw [brings_eq_false (by simp [Frame.delivers]), if_neg Bool.false_ne_true, add_zero] at htaken
    exact handsOn_processMessages hrouted htaken hcalm
  · have hin : st.incoming (.resume j) = none := by
      unfold AcceptorState.incoming
      dsimp only
      rw [hf]
      cases frame with
      | nextMessage c ms => exact absurd ⟨c, ms, rfl⟩ hnext
      | _ => rfl
    have hdelivers : frame.delivers = some (s, m) := by
      unfold AcceptorState.handling at hhandling
      rw [hin] at hhandling
      dsimp only at hhandling
      rwa [hf] at hhandling
    cases hbrings : frame.brings s m i with
    | true =>
      rw [hbrings, if_pos rfl] at htaken
      exact handsOn_resume hdelivers hbrings ⟨htaken, hcalm⟩ hfails
    | false =>
      -- the handlers that are left come behind handler `i`
      rw [hbrings, if_neg Bool.false_ne_true, add_zero] at htaken
      cases frame with
      | handlerPending origin x m' next =>
        cases hdelivers
        have hnext : i < next := by
          by_contra hle
          rw [Frame.brings, decide_eq_true ⟨rfl, rfl, Nat.le_of_not_lt hle⟩] at hbrings
          cases hbrings
        refine Or.inl ?_
        rw [resume, after_bind_of_ok (result_get _)]
        split
        · exact (misses_runMessageHandlers origin hnext).after htaken
        · exact (lost_settleMessage origin _).after htaken
      | _ =>
        rw [brings_of_delivers hdelivers (by simp)] at hbrings
        cases hbrings

/-- What a step does: it hands the message on if it handles it. -/
theorem Misses.step (h : Misses s m i d st) (hstep : st.step e = some st') :
    HandedOn s m i (d - e.event.calls s m) (HandlesWell s m st e) st' := by
  by_cases hhandling : st.handling e.event = some (s, m)
  · have hcalm : HandlesWell s m st e → Calm (st.meets e) := fun hwell err herr =>
      absurd ((hwell hhandling).1 _ herr) (Option.some_ne_none err)
    have hfails : HandlesWell s m st e → st.awaitFailed e = false :=
      fun hwell => (hwell hhandling).2
    generalize HandlesWell s m st e = Φ at hcalm hfails ⊢
    rcases e with ⟨event, input⟩
    cases event with
    | handleMessage x m' =>
      cases hhandling
      rw [← after_of_step hstep]
      refine (handsOn_handleMessage _ s m _ Φ).after ⟨?_, hcalm⟩
      simp only [Event.calls, and_self, if_true, Nat.cast_one, sub_add_cancel]
      exact h.meets _
    | data c data =>
      rw [calls_eq_zero (by simp), Nat.cast_zero, sub_zero, ← after_of_step hstep]
      exact handedOn_data (h.meets _) hhandling hcalm
    | resume j =>
      rw [calls_eq_zero (by simp), Nat.cast_zero, sub_zero]
      obtain ⟨frame, hf⟩ := exists_task_of_step hstep rfl
      rw [← after_resume_step hstep rfl hf]
      have hframe : Φ → frame.fails input = false := fun hΦ => by
        simpa [AcceptorState.awaitFailed, hf] using hfails hΦ
      exact handedOn_task (h.meets _) hf hhandling hcalm hframe
    | _ => cases hhandling
  · refine Or.inl ?_
    have hcall : e.event ≠ .handleMessage s m := fun hevent => hhandling (by rw [hevent]; rfl)
    rw [calls_eq_zero hcall, Nat.cast_zero, sub_zero]
    exact h.step_aside hstep hhandling

/-! ## Runs -/

/-- How often users pass a message to a session in a run. -/
def callsIn (s : ℕ) (m : Message) (es : List Step) : ℕ :=
  (es.map fun e => e.event.calls s m).sum

/-- In a run a handler misses a message once for every time that something fails while the
session handles it. -/
theorem Misses.exec {es : List Step} (h : Misses s m i d st)
    (hexec : acceptor.exec st es = some st') :
    ∃ k : ℕ, Misses s m i (d - callsIn s m es + k) st' ∧
      (acceptor.Guarded (HandlesWell s m) st es → k = 0) := by
  induction es generalizing st d with
  | nil =>
    obtain rfl := Option.some.inj hexec
    refine ⟨0, ?_, fun _ => rfl⟩
    simpa [callsIn] using h
  | cons e es ih =>
    obtain ⟨st1, hstep, hrest⟩ := Option.bind_eq_some_iff.mp hexec
    have hcalls : callsIn s m (e :: es) = e.event.calls s m + callsIn s m es := List.sum_cons
    rcases h.step hstep with h1 | ⟨hfails, h1⟩
    · obtain ⟨k, hk, hzero⟩ := ih h1 hrest
      refine ⟨k, ⟨hk.created, hk.takes, ?_⟩, fun hes => hzero (hes.2 st1 hstep)⟩
      rw [hk.missed, hcalls]
      omega
    · obtain ⟨k, hk, _⟩ := ih h1 hrest
      refine ⟨k + 1, ⟨hk.created, hk.takes, ?_⟩, fun hes => absurd hes.1 hfails⟩
      rw [hk.missed, hcalls]
      omega

/-- From any state on, a handler of a session is called with a message at most once for every
time that the message is on its way to it or is passed to the session; exactly once as long as
nothing fails while the session handles the message, and when the acceptor has come to rest no
call is left to be made. -/
theorem handled_once {es : List Step} (hs : s < st.nextSession) (hi : st.Takes s m i)
    (hexec : acceptor.exec st es = some st') :
    st'.handledBy s m i + st'.awaiting s m i + st.passedTo s m ≤
        st.handledBy s m i + st.awaiting s m i + st'.passedTo s m + callsIn s m es ∧
      (acceptor.Guarded (HandlesWell s m) st es →
        st'.handledBy s m i + st'.awaiting s m i + st.passedTo s m =
          st.handledBy s m i + st.awaiting s m i + st'.passedTo s m + callsIn s m es) ∧
      (st'.Settled → st'.awaiting s m i = 0) := by
  have hstart : Misses s m i (st.missed s m i) st := ⟨hs, hi, rfl⟩
  obtain ⟨k, hk, hzero⟩ := hstart.exec hexec
  have hmissed := hk.missed
  unfold AcceptorState.missed at hmissed
  refine ⟨by omega, fun hes => ?_, fun hsettled => ?_⟩
  · have hk0 := hzero hes
    omega
  · rw [AcceptorState.awaiting, hsettled.tasks]
    rfl

/-- A client logs on, and the application adds two handlers, the second one for Heartbeats. -/
def subscribingSteps : List Step :=
  (Event.connect (js "client:1")).calmly :: logonSteps 0 (js "CLIENT") ++
    ([.registerHandlers 0 ⟨none, none, none, none, some ⟨0, .undefined⟩⟩,
      .registerHandlers 0 ⟨none, none, none, none, some ⟨1, .str (js "0")⟩⟩].map Event.calmly)

/-- The client sends a Heartbeat. -/
def notifyingSteps : List Step :=
  (Event.data 0 (heartbeatBytes (js "CLIENT")) :: List.replicate 3 (.resume 0)).map Event.calmly

/-- The second handler is called once. -/
theorem handled_once_heartbeat : ∃ st ∈ acceptor.exec (broker 0) subscribingSteps,
    ∃ st' ∈ acceptor.exec st notifyingSteps, ∃ m ∈ processData (heartbeatBytes (js "CLIENT")),
      (st.awaiting 0 m 1, st'.awaiting 0 m 1, st'.passedTo 0 m, st'.handledBy 0 m 1) =
        (0, 0, 1, 1) ∧ st'.handledBy 0 m 1 + st'.awaiting 0 m 1 + st.passedTo 0 m =
          st.handledBy 0 m 1 + st.awaiting 0 m 1 + st'.passedTo 0 m +
            callsIn 0 m notifyingSteps := by
  have hrun : ∃ st ∈ acceptor.exec (broker 0) subscribingSteps,
      ∃ st' ∈ acceptor.exec st notifyingSteps, ∃ m ∈ processData (heartbeatBytes (js "CLIENT")),
        (st.awaiting 0 m 1, st'.awaiting 0 m 1, st'.passedTo 0 m, st'.handledBy 0 m 1) =
          (0, 0, 1, 1) ∧ 0 < st.nextSession ∧
            (∃ handler ∈ (st.sessions 0).handlers.message[1]?, handler.takes m = true) ∧
              acceptor.Guarded (HandlesWell 0 m) st notifyingSteps := by decide +kernel
  obtain ⟨st, hst, st', hst', m, hm, hcounts, hs, htakes, hguarded⟩ := hrun
  exact ⟨st, hst, st', hst', m, hm, hcounts, (handled_once hs htakes hst').2.1 hguarded⟩

end NestQuickfix.Acceptor
