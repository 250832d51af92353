import NestQuickfix.Acceptor.Tasks

/-!
# Loops over the messages of a chunk

A loop awaits every message it passes on, and the task that is suspended meanwhile holds the
messages that are left. A step that goes on with a loop passes on at most one message; then the
rest is left in one task, or the loop ends: after its last message, or at a message that cannot
be logged.
-/

namespace NestQuickfix.Acceptor

open Lib Lib.Exec

/-- The connection of a loop that waits for `handleMessage`, and the messages that are left. -/
def Origin.left : Origin → Option (ℕ × List Message)
  | .chunk c rest _ => some (c, rest)
  | .user => none

/-- The connection of the loop that goes on with a task, and the messages that are left. -/
def Frame.left : Frame → Option (ℕ × List Message)
  | .nextMessage c rest | .validateCredentials c _ rest | .getAllowedSenderCompIds c _ rest
  | .validated c _ rest _ | .closeDelay c rest | .created c _ _ rest
  | .handlersSet c _ _ rest => some (c, rest)
  | .logonResponse origin _ _ _ | .testRequestReply origin _ _ _ | .messageHandlers origin _ _
  | .handlerPending origin _ _ _ => origin.left
  | _ => none

/-- The message that a loop passes on to `handleLogon` or `handleNonLogonMessage`, with its
connection. -/
def Observation.passed : Observation → Option (ℕ × Message)
  | .processing c m => some (c, m)
  | _ => none

/-- What a loop passes on: the messages with a MsgType, up to one that cannot be logged. -/
def passes (c : ℕ) : List Message → List (ℕ × Message)
  | [] => []
  | m :: rest =>
    if m.hasField Fields.msgType then
      match m.toString with
      | .error _ => []
      | .ok _ => (c, m) :: passes c rest
    else passes c rest

/-- The loop that an event begins or goes on with. -/
def AcceptorState.loopOf (st : AcceptorState) : Event → Option (ℕ × List Message)
  | .data c data => if (st.sockets c).dataListener then some (c, processData data) else none
  | .resume i => st.tasks[i]?.bind Frame.left
  | _ => none

variable {st0 st st' : AcceptorState} {e : Step} {c : ℕ} {m : Message} {ms rest : List Message}
  {p : List (ℕ × Message)} {loops : List (ℕ × List Message)} {frame : Frame} {a : Act} {α : Type}

theorem loop_eq_left (frame : Frame) : frame.loop = frame.left.map Prod.fst := by
  have horigin : ∀ origin : Origin, origin.loop = origin.left.map Prod.fst := by
    rintro (_ | _) <;> rfl
  cases frame <;> first | rfl | exact horigin _

theorem left_eq_none_iff : frame.left = none ↔ frame.loop = none := by
  rw [loop_eq_left, Option.map_eq_none_iff]

/-! ## What a computation adds -/

/-- Since `st0` the messages of `p` have been passed on, and the loops of `loops` suspended. -/
def Looped (st0 : AcceptorState) (p : List (ℕ × Message)) (loops : List (ℕ × List Message))
    (st : AcceptorState) : Prop :=
  ∃ frames observations, st.tasks = st0.tasks ++ frames ∧ st.trace = st0.trace ++ observations ∧
    frames.filterMap Frame.left = loops ∧ observations.filterMap Observation.passed = p

/-- An act that takes no task, suspends no loop and passes on no message. -/
def Act.idle : Act → Bool
  | .take _ => false
  | .suspend frame => frame.left.isNone
  | .observe o => o.passed.isNone
  | _ => true

theorem Looped.refl (st : AcceptorState) : Looped st [] [] st :=
  ⟨[], [], (List.append_nil _).symm, (List.append_nil _).symm, rfl, rfl⟩

theorem Looped.suspend (h : Looped st0 p loops st) (frame : Frame) :
    Looped st0 p (loops ++ frame.left.toList) ((Act.suspend frame).apply st) := by
  obtain ⟨frames, observations, htasks, htrace, hloops, hpassed⟩ := h
  refine ⟨frames ++ [frame], observations, ?_, htrace, ?_, hpassed⟩
  · rw [← List.append_assoc, ← htasks]
    rfl
  · rw [List.filterMap_append, hloops]
    cases hleft : frame.left <;> simp [hleft]

theorem Looped.observe (h : Looped st0 p loops st) (o : Observation) :
    Looped st0 (p ++ o.passed.toList) loops ((Act.observe o).apply st) := by
  obtain ⟨frames, observations, htasks, htrace, hloops, hpassed⟩ := h
  refine ⟨frames, observations ++ [o], htasks, ?_, hloops, ?_⟩
  · rw [← List.append_assoc, ← htrace]
    rfl
  · rw [List.filterMap_append, hpassed]
    cases ho : o.passed <;> simp [ho]

/-- The trace after an idle act. -/
theorem trace_idle (ha : a.idle = true) (st : AcceptorState) :
    ∃ observations, (a.apply st).trace = st.trace ++ observations ∧
      observations.filterMap Observation.passed = [] := by
  cases hobserves : a.observes with
  | false => exact ⟨[], by rw [trace_apply hobserves, List.append_nil], rfl⟩
  | true =>
    cases a with
    | observe o =>
      have ho : o.passed = none := Option.isNone_iff_eq_none.mp ha
      exact ⟨[o], rfl, by simp [ho]⟩
    | disconnect s => exact ⟨[.ran s .disconnected], rfl, rfl⟩
    | _ => cases hobserves

/-- The tasks after an idle act. -/
theorem tasks_idle (ha : a.idle = true) (st : AcceptorState) :
    ∃ frames, (a.apply st).tasks = st.tasks ++ frames ∧ frames.filterMap Frame.left = [] := by
  have htake : ∀ i, a ≠ .take i := by
    rintro i rfl
    cases ha
  refine ⟨a.adds st, tasks_apply htake st, List.filterMap_eq_nil_iff.mpr fun frame hframe => ?_⟩
  rcases mem_adds hframe with rfl | ⟨k, stopping, rfl⟩
  · exact Option.isNone_iff_eq_none.mp ha
  · rfl

theorem Looped.idle (h : Looped st0 p loops st) (ha : a.idle = true) :
    Looped st0 p loops (a.apply st) := by
  obtain ⟨frames, observations, htasks, htrace, hloops, hpassed⟩ := h
  obtain ⟨frames', htasks', hloops'⟩ := tasks_idle ha st
  obtain ⟨observations', htrace', hpassed'⟩ := trace_idle ha st
  refine ⟨frames ++ frames', observations ++ observations', ?_, ?_, ?_, ?_⟩
  · rw [htasks', htasks, List.append_assoc]
  · rw [htrace', htrace, List.append_assoc]
  · rw [List.filterMap_append, hloops, hloops', List.append_nil]
  · rw [List.filterMap_append, hpassed, hpassed', List.append_nil]

/-! ## Idle code -/

/-- A computation that has nothing to do with loops. -/
def Idles (x : AcceptorM α) : Prop := ∀ st0 p loops, Exec.Keeps (Looped st0 p loops) x

theorem idles_of_performs {x : AcceptorM α}
    (h : ∀ st, ∃ A, Performs A st x ∧ ∀ a ∈ A, a.idle = true) : Idles x := by
  refine fun st0 p loops => .of_after fun st hst => ?_
  obtain ⟨A, hx, hA⟩ := h st
  exact hx.keeps (P := Looped st0 p loops) (fun st1 a _ ha hlooped => hlooped.idle (hA a ha)) hst

/-- A change of the state that leaves the tasks and the trace alone. -/
theorem idles_modify {f : AcceptorState → AcceptorState} (htasks : ∀ st, (f st).tasks = st.tasks)
    (htrace : ∀ st, (f st).trace = st.trace) : Idles (modify f : AcceptorM Unit) := by
  refine fun st0 p loops => .modify fun st hst => ?_
  unfold Looped
  rwa [htasks, htrace]

theorem Idles.bind {x : AcceptorM α} {β : Type} {f : α → AcceptorM β} (hx : Idles x)
    (hf : ∀ a, Idles (f a)) : Idles (x >>= f) := fun st0 p loops =>
  .bind (hx st0 p loops) fun a => hf a st0 p loops

theorem Idles.get_bind {f : AcceptorState → AcceptorM α} (hf : ∀ st, Idles (f st)) :
    Idles (get >>= f) := fun st0 p loops => keeps_get_bind fun st _ => hf st st0 p loops

theorem idles_pure (a : α) : Idles (pure a) := fun _ _ _ => .pure fun _ => id

theorem idles_observe {o : Observation} (h : o.passed = none) : Idles (observe o) :=
  idles_of_performs fun _ => ⟨{.observe o}, performs_observe rfl, by
    rintro a rfl
    exact Option.isNone_iff_eq_none.mpr h⟩

theorem idles_destroy (x : ℕ) : Idles (destroy x) := idles_modify (fun _ => rfl) fun _ => rfl

theorem idle_send {s : ℕ} (ha : a ∈ sendActs s) : a.idle = true := by
  rcases ha with rfl | ⟨_, _, rfl⟩ <;> rfl

theorem idle_tearDown {s : ℕ} {q : Prop} (ha : a ∈ tearDownActs s q) : a.idle = true := by
  rcases ha with (rfl | rfl | rfl | ⟨_, rfl⟩) | ⟨_, rfl | rfl⟩ <;> rfl

theorem idle_register {s : ℕ} {dropped : Bool} (ha : a ∈ registerActs st s dropped) :
    a.idle = true := by
  rcases ha with ⟨_, ⟨_, rfl⟩ | ⟨_, rfl⟩⟩ | ⟨old, _, ⟨_, ha⟩ | ⟨_, rfl | ha | ⟨_, rfl⟩⟩⟩
  · rfl
  · rfl
  · obtain rfl := Set.mem_singleton_iff.mp ha
    rfl
  · rfl
  · exact idle_send ha
  · rfl

theorem idle_handleLogout {s : ℕ} (ha : a ∈ handleLogoutActs st s) : a.idle = true := by
  rcases ha with (((rfl | rfl) | rfl | rfl) | rfl) | ha
  on_goal 6 => exact idle_tearDown ha
  all_goals rfl

theorem idle_afterLogonResponse {s : ℕ} (ha : a ∈ afterLogonResponseActs s) : a.idle = true := by
  rcases ha with ((rfl | rfl) | rfl | rfl) | rfl | rfl <;> rfl

theorem idles_startSend (s : ℕ) (m : Message) : Idles (startSend s m) :=
  idles_of_performs fun _ => ⟨_, performs_startSend s m fun _ => id, fun _ => idle_send⟩

theorem idles_callUser : Idles callUser :=
  idles_of_performs fun _ => ⟨{.consume}, performs_callUser rfl, by
    rintro a rfl
    rfl⟩

theorem idles_sendError (error : Option JSError) : Idles (sendError error) :=
  .get_bind fun _ => idles_pure _

theorem idles_sendLogonResponse (s : ℕ) : Idles (sendLogonResponse s) := by
  refine .get_bind fun st => .bind (idles_startSend s _) fun error => ?_
  cases error with
  | none => exact .bind (idles_observe rfl) fun _ => idles_pure _
  | some _ => exact idles_pure _

theorem noThrow_sendLogonResponse (s : ℕ) : NoThrow (sendLogonResponse s) := by
  refine .get_bind fun st => .bind (noThrow_startSend s _) fun error => ?_
  cases error with
  | none => exact .bind (.modify _) fun _ => .pure _
  | some _ => exact .pure _

theorem noThrow_logout (s : ℕ) (reason : Value) (x : ℕ) (dropped : Bool) :
    NoThrow (logout s reason (.registration x dropped)) := by
  refine .get_bind fun st => .ite (.modify _) ?_
  exact .bind (.modify _) fun _ => .bind (noThrow_startSend s _) fun _ => .modify _

theorem noThrow_createNewSession (x : ℕ) (m : Message) : NoThrow (createNewSession x m) := by
  refine .get_bind fun st => .bind ?_ fun s => .bind ?_ fun _ => .pure s
  · exact .get_bind fun _ => .bind (.modify _) fun _ => .pure _
  · refine .get_bind fun st => ?_
    split
    · exact .get_bind fun _ => .ite (.ite (.modify _) (.pure ())) (.modify _)
    · exact noThrow_logout _ _ s true

theorem idles_createNewSession (x : ℕ) (m : Message) : Idles (createNewSession x m) := by
  refine idles_of_performs fun st => ⟨{.create (buildSessionConfig st.config m) x} ∪
    registerActs ((Act.create (buildSessionConfig st.config m) x).apply st) st.nextSession true,
    ?_, ?_⟩
  · unfold createNewSession
    refine Does.get_bind (Does.bind_of_path (result_newSession _ x) (.single (Or.inl rfl)) ?_)
    exact Does.bind (performs_registerSession _ true fun a ha => Or.inr ha) fun _ _ => Does.pure _
  · rintro a (rfl | ha)
    · rfl
    · exact idle_register ha

theorem idles_updateSession (s : ℕ) (f : Session → Session) : Idles (updateSession s f) :=
  idles_modify (fun _ => rfl) fun _ => rfl

theorem idles_setupSessionHandlers (s : ℕ) : Idles (setupSessionHandlers s) :=
  .get_bind fun _ st0 p loops => .forEach _ fun _ => idles_updateSession s _ st0 p loops

theorem noThrow_setupSessionHandlers (s : ℕ) : NoThrow (setupSessionHandlers s) :=
  .get_bind fun _ => .forEach _ fun _ => .modify _

/-! ## Code that leaves the rest of a loop for later -/

/-- A computation that ends with the rest of a loop suspended. -/
def Leaves (c : ℕ) (rest : List Message) (x : AcceptorM Unit) : Prop :=
  ∀ st0 p, Triple (Looped st0 p []) x (fun _ => Looped st0 p [(c, rest)]) fun _ => False

theorem leaves_suspend (h : frame.left = some (c, rest)) : Leaves c rest (suspend frame) := by
  refine fun st0 p => .modify fun st hst => ?_
  have hsuspended := hst.suspend frame
  rwa [h] at hsuspended

/-- The rest of a loop may be left after idle code that does not throw. -/
theorem Leaves.after {x : AcceptorM α} {f : α → AcceptorM Unit} (hx : Idles x) (hno : NoThrow x)
    (hf : ∀ a, Leaves c rest (f a)) : Leaves c rest (x >>= f) := fun st0 p =>
  .bind (hno.triple (hx st0 p [])) fun a => hf a st0 p

theorem Leaves.get_bind {f : AcceptorState → AcceptorM Unit} (hf : ∀ st, Leaves c rest (f st)) :
    Leaves c rest (get >>= f) := fun st0 p =>
  .get_bind fun st hst => (hf st st0 p).conseq (fun _ h => h ▸ hst) (fun _ _ => id) fun _ => id

/-- The rest of a loop is left whether or not idle code throws. -/
theorem Leaves.attempt {x : AcceptorM Unit} {f : Except JSError Unit → AcceptorM Unit}
    (hx : Idles x) (hf : ∀ r, Leaves c rest (f r)) : Leaves c rest (attempt x >>= f) := by
  refine .after (fun st0 p loops => ?_) (.attempt x) hf
  refine (hx st0 p loops).attempt.conseq (fun _ => id) (fun r st h => ?_) fun _ => id
  cases r <;> exact h

/-- What throws has not left the rest of the loop yet. -/
theorem Leaves.attemptMore {x : AcceptorM Unit} {f : Except JSError Unit → AcceptorM Unit}
    (hx : ∀ st0 p, Triple (Looped st0 p []) x (fun _ => Looped st0 p [(c, rest)])
      (Looped st0 p [])) (hok : f (.ok ()) = pure ()) (herror : ∀ e, Leaves c rest (f (.error e))) :
    Leaves c rest (Lib.Exec.attempt x >>= f) := by
  intro st0 p
  refine .bind (hx st0 p).attempt fun r => ?_
  cases r with
  | ok _ =>
    rw [hok]
    exact .pure fun _ => id
  | error e => exact herror e st0 p

section Origins

variable {origin : Origin}

theorem leaves_settleMessage (h : origin.left = some (c, rest)) (result : Except JSError Unit) :
    Leaves c rest (settleMessage origin result) := by
  cases origin with
  | user => cases h
  | chunk x rest' logon =>
    cases h
    refine .after ?_ ?_ fun _ => leaves_suspend rfl
    · unfold destroyFailed
      cases result with
      | ok _ => exact idles_pure ()
      | error e =>
        dsimp only
        split
        · exact idles_destroy c
        · exact idles_pure ()
    · cases result with
      | ok _ => exact .pure ()
      | error e => exact .ite (.modify _) (.pure ())

theorem leaves_runMessageHandlers (h : origin.left = some (c, rest)) (s : ℕ) (m : Message)
    (next : ℕ) : Leaves c rest (runMessageHandlers origin s m next) := by
  refine .get_bind fun st => ?_
  split
  · exact leaves_settleMessage h _
  · refine .after (idles_observe rfl) (.modify _) fun _ => .attempt idles_callUser fun r => ?_
    cases r with
    | ok _ => exact leaves_suspend h
    | error _ => exact leaves_settleMessage h _

theorem leaves_startLogon (h : origin.left = some (c, rest)) (s : ℕ) (m : Message) :
    Leaves c rest (startLogon origin s m) :=
  .after (idles_updateSession s _) (.modify _) fun _ =>
    .after (idles_sendLogonResponse s) (noThrow_sendLogonResponse s) fun _ => leaves_suspend h

theorem leaves_handleMessage (h : origin.left = some (c, rest)) (s : ℕ) (m : Message) :
    Leaves c rest (handleMessage origin s m) := by
  unfold handleMessage
  split
  · exact leaves_startLogon h s m
  · split
    · refine .attempt ?_ fun r => ?_
      · exact idles_of_performs fun st => ⟨_, performs_handleLogout s fun _ => id,
          fun _ => idle_handleLogout⟩
      · cases r with
        | ok _ => exact leaves_suspend h
        | error _ => exact leaves_settleMessage h _
    · split
      · exact .after (idles_startSend s _) (noThrow_startSend s _) fun _ => leaves_suspend h
      · exact leaves_runMessageHandlers h s m 0

end Origins

/-! ## Refusals and Logons -/

theorem idles_failEndedWrite (c : ℕ) : Idles (failEndedWrite c) :=
  idles_of_performs fun _ => ⟨_, performs_failEndedWrite fun _ => id, by
    rintro a (rfl | ⟨_, rfl⟩ | ⟨_, rfl⟩) <;> rfl⟩

/-- A Logout that cannot be encoded is thrown before anything is left. -/
theorem looped_sendLogoutAndClose (st0 : AcceptorState) (p : List (ℕ × Message)) (c : ℕ)
    (m : Message) (rest : List Message) (reason : JSString) :
    Triple (Looped st0 p []) (sendLogoutAndClose c m rest reason)
      (fun _ => Looped st0 p [(c, rest)]) (Looped st0 p []) := by
  refine .get_bind fun st hst => ?_
  split
  · exact .throw fun _ h => h ▸ hst
  · refine .conseq (.bind (.bind (idles_observe rfl st0 p []) fun _ =>
      idles_failEndedWrite c st0 p []) fun _ => ?_) (fun _ h => h ▸ hst)
      (fun _ _ => id) fun _ => id
    exact (leaves_suspend rfl st0 p).conseq (fun _ => id) (fun _ _ => id) fun _ => False.elim

theorem leaves_refuseMessage (c : ℕ) (m : Message) (rest : List Message) (reason : JSString) :
    Leaves c rest (refuseMessage c m rest reason) :=
  .attemptMore (fun st0 p => looped_sendLogoutAndClose st0 p c m rest reason) rfl fun _ =>
    leaves_suspend rfl

theorem leaves_refuseThrownLogon (c : ℕ) (m : Message) (rest : List Message) (reason : JSString) :
    Leaves c rest (refuseThrownLogon c m rest reason) :=
  .attemptMore (fun st0 p => looped_sendLogoutAndClose st0 p c m rest reason) rfl fun _ =>
    .after (idles_destroy c) (.modify _) fun _ => leaves_suspend rfl

theorem leaves_refuseLogon (c : ℕ) (m : Message) (rest : List Message) (reason : JSString) :
    Leaves c rest (refuseLogon c m rest reason) :=
  .attemptMore (fun st0 p => looped_sendLogoutAndClose st0 p c m rest reason) rfl fun e =>
    leaves_refuseThrownLogon c m rest e

theorem leaves_validateLogon (c : ℕ) (m : Message) (rest : List Message) :
    Leaves c rest (validateLogon c m rest) := by
  refine .get_bind fun st => ?_
  split
  · exact leaves_suspend rfl
  · split
    · exact leaves_suspend rfl
    · split <;> exact leaves_suspend rfl

theorem leaves_afterValidateCredentials (c : ℕ) (m : Message) (rest : List Message) :
    Leaves c rest (afterValidateCredentials c m rest) := by
  refine .get_bind fun st => ?_
  split
  · exact leaves_suspend rfl
  · split <;> exact leaves_suspend rfl

theorem leaves_afterGetAllowedSenderCompIds (c : ℕ) (m : Message) (rest : List Message) :
    Leaves c rest (afterGetAllowedSenderCompIds c m rest) := by
  refine .get_bind fun st => ?_
  split
  · exact leaves_suspend rfl
  · split <;> exact leaves_suspend rfl

theorem leaves_afterValidated (c : ℕ) (m : Message) (rest : List Message)
    (verdict : LogonVerdict) : Leaves c rest (afterValidated c m rest verdict) := by
  cases verdict with
  | valid =>
    exact .after (idles_createNewSession c m) (noThrow_createNewSession c m) fun _ =>
      leaves_suspend rfl
  | invalid reason => exact leaves_refuseLogon c m rest _
  | thrown e => exact leaves_refuseThrownLogon c m rest e

theorem leaves_handleNonLogonMessage (c : ℕ) (m : Message) (rest : List Message) :
    Leaves c rest (handleNonLogonMessage c m rest) := by
  refine .get_bind fun st => ?_
  split
  · exact leaves_refuseMessage c m rest _
  · exact .after (idles_observe rfl) (.modify _) fun _ => leaves_handleMessage rfl _ m

/-- Whatever a loop waits for, it goes on with the messages that are left. -/
theorem leaves_resume (hnext : ∀ c rest, frame ≠ .nextMessage c rest)
    (h : frame.left = some (c, rest)) : Leaves c rest (resume frame) := by
  cases frame with
  | nextMessage x rest' => exact absurd rfl (hnext x rest')
  | validateCredentials x m rest' =>
    cases h
    exact leaves_afterValidateCredentials c m rest
  | getAllowedSenderCompIds x m rest' =>
    cases h
    exact leaves_afterGetAllowedSenderCompIds c m rest
  | validated x m rest' verdict =>
    cases h
    exact leaves_afterValidated c m rest verdict
  | closeDelay x rest' => exact .after (idles_destroy x) (.modify _) fun _ => leaves_suspend h
  | created x s m rest' =>
    exact .after (idles_setupSessionHandlers s) (noThrow_setupSessionHandlers s) fun _ =>
      leaves_suspend h
  | handlersSet x s m rest' =>
    cases h
    exact .after (idles_modify (fun _ => rfl) fun _ => rfl) (.modify _) fun _ =>
      leaves_handleMessage rfl s m
  | logonResponse origin s m error =>
    refine .after (idles_sendError error) (.get_bind fun _ => .pure _) fun error' => .attempt ?_ ?_
    · exact idles_of_performs fun _ => ⟨_, performs_afterLogonResponse error' fun _ => id,
        fun _ => idle_afterLogonResponse⟩
    · rintro (e | _)
      · exact .after (idles_updateSession s _) (.modify _) fun _ => leaves_settleMessage h _
      · exact leaves_suspend h
  | testRequestReply origin s m error =>
    refine .after (idles_sendError error) (.get_bind fun _ => .pure _) fun error' => ?_
    cases error' with
    | none => exact leaves_suspend h
    | some _ => exact leaves_settleMessage h _
  | messageHandlers origin s m => exact leaves_runMessageHandlers h s m 0
  | handlerPending origin s m next =>
    refine .get_bind fun st => ?_
    split
    · exact leaves_runMessageHandlers h s m next
    · exact leaves_settleMessage h _
  | _ => cases h

/-! ## Steps -/

/-- From `st` to `st'` the loop over `ms` has ended, or its rest is left: what has been passed on
and what the rest passes on are together what the loop passes on. -/
def Continued (c : ℕ) (ms : List Message) (st st' : AcceptorState) : Prop :=
  Looped st (passes c ms) [] st' ∨
    ∃ p rest, Looped st p [(c, rest)] st' ∧ passes c ms = p ++ passes c rest

/-- What a computation leaves. -/
theorem Leaves.looped {x : AcceptorM Unit} (hx : Leaves c rest x) (h : Looped st0 p [] st) :
    Looped st0 p [(c, rest)] (x.after st) :=
  ((hx st0 p).conseq (fun _ => id) (fun _ _ => id) fun _ => False.elim).after h

theorem continued_processMessages (c : ℕ) (ms : List Message) (st : AcceptorState) :
    Continued c ms st ((processMessages c ms).after st) := by
  cases ms with
  | nil => exact Or.inl (.refl st)
  | cons m rest =>
    cases htype : m.hasField Fields.msgType with
    | false =>
      right
      refine ⟨[], rest, ?_, ?_⟩
      · rw [processMessages, htype]
        exact (leaves_suspend rfl).looped (.refl st)
      · rw [passes, htype]
        rfl
    | true =>
      cases hraw : m.toString with
      | error err =>
        left
        have hpasses : passes c (m :: rest) = [] := by rw [passes, if_pos htype, hraw]
        have hidle : Idles (handleDataError err c) :=
          .bind (idles_observe rfl) fun _ => idles_destroy c
        rw [hpasses, processMessages, if_pos htype, hraw]
        exact (hidle st [] []).after (.refl st)
      | ok raw =>
        right
        refine ⟨[(c, m)], rest, ?_, by rw [passes, if_pos htype, hraw]; rfl⟩
        rw [processMessages, if_pos htype, hraw]
        dsimp only
        rw [after_bind_of_ok (result_observe _)]
        have hpassed : Looped st [(c, m)] [] ((Act.observe (.processing c m)).apply st) :=
          (Looped.refl st).observe (.processing c m)
        split
        · exact (leaves_validateLogon c m rest).looped hpassed
        · exact (leaves_handleNonLogonMessage c m rest).looped hpassed

theorem continued_resume (h : frame.left = some (c, rest)) (st : AcceptorState) :
    Continued c rest st ((resume frame).after st) := by
  by_cases hnext : ∀ c rest, frame ≠ .nextMessage c rest
  · exact Or.inr ⟨[], rest, (leaves_resume hnext h).looped (.refl st), rfl⟩
  · push Not at hnext
    obtain ⟨x, rest', rfl⟩ := hnext
    cases h
    exact continued_processMessages c rest st

/-- A step goes on with the loop of its event. -/
theorem continued_step (hstep : st.step e = some st')
    (hloop : st.loopOf e.event = some (c, ms)) : Continued c ms (st.taken e) st' := by
  have hafter := after_of_step hstep
  rcases e with ⟨event, input⟩
  cases event with
  | data x data =>
    dsimp only [AcceptorState.loopOf] at hloop
    split at hloop
    · next hlistener =>
      cases hloop
      have hreceive : (receive c data).after (st.meets ⟨.data c data, input⟩) = st' := hafter
      have hmeets : ((st.meets ⟨.data c data, input⟩).sockets c).dataListener = true := hlistener
      unfold receive at hreceive
      rw [after_bind_of_ok (result_get _), if_pos hmeets] at hreceive
      rw [← hreceive]
      exact continued_processMessages c _ _
    · cases hloop
  | resume i =>
    obtain ⟨frame, hf, hleft⟩ := Option.bind_eq_some_iff.mp hloop
    rw [← after_resume_step hstep rfl hf]
    exact continued_resume hleft _
  | _ => cases hloop

/-- The loop of an event over which messages are processed. -/
theorem exists_loopOf_of_processes {event : Event} (h : st.Processes event c) :
    ∃ ms, st.loopOf event = some (c, ms) := by
  rcases h with ⟨ms, hin⟩ | ⟨frame, ⟨i, rfl, hf⟩, hloop⟩
  · cases event with
    | data x data => exact ⟨ms, hin⟩
    | resume i =>
      dsimp only [AcceptorState.incoming] at hin
      split at hin
      · next x rest hf =>
        cases hin
        exact ⟨ms, by rw [AcceptorState.loopOf, hf]; rfl⟩
      · cases hin
    | _ => cases hin
  · rw [loop_eq_left] at hloop
    obtain ⟨⟨x, ms⟩, hleft, rfl⟩ := Option.map_eq_some_iff.mp hloop
    exact ⟨ms, by rw [AcceptorState.loopOf, hf]; exact hleft⟩

/-- The acts of other steps are idle. -/
theorem idle_of_causedBy {event : Event} (ha : a.CausedBy st event) (htake : ∀ i, a ≠ .take i)
    (h : st.loopOf event = none) : a.idle = true := by
  have hnone : ∀ c, ¬ st.Processes event c := by
    intro c hc
    obtain ⟨ms, hms⟩ := exists_loopOf_of_processes hc
    rw [h] at hms
    cases hms
  cases a with
  | take i => exact absurd rfl (htake i)
  | suspend frame =>
    refine Option.isNone_iff_eq_none.mpr (left_eq_none_iff.mpr ?_)
    cases hloop : frame.loop with
    | none => rfl
    | some c => exact absurd (processes_of_causedBy ha hloop) (hnone c)
  | observe o =>
    cases o with
    | processing c m =>
      obtain ⟨rest, hin⟩ := ha
      exact absurd (processes_of_incoming hin) (hnone c)
    | _ => rfl
  | _ => rfl

/-- Other steps have nothing to do with loops. -/
theorem looped_step (hstep : st.step e = some st') (hloop : st.loopOf e.event = none) :
    Looped (st.taken e) [] [] st' :=
  step_keeps_taken hstep (.refl _) fun _ _ ha htake hlooped =>
    hlooped.idle (idle_of_causedBy ha htake hloop)

end NestQuickfix.Acceptor
