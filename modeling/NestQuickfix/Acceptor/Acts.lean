import NestQuickfix.Acceptor.Steps
import NestQuickfix.Acceptor.UserCalls
import NestQuickfix.Lib.Acts

/-!
# The acts of an acceptor

All code of the acceptor changes its state by the elementary acts listed here. For each
function there is the set of the acts it can perform, and a step performs acts of
the set of its event. Invariants about parts of the state that the life of
sessions leaves out are checked against these sets.
-/

namespace NestQuickfix.Acceptor

open Lib Lib.Exec

/-- An elementary change of the state. -/
inductive Act where
  /-- User code is called. -/
  | consume
  | observe (o : Observation)
  | suspend (frame : Frame)
  /-- Task `i` is taken. -/
  | take (i : ℕ)
  | setState (s : ℕ) (state : SessionState)
  /-- A session enters LOGGING_OUT unless it is DISCONNECTED. -/
  | beginLogout (s : ℕ)
  /-- A session takes a sequence number. -/
  | count (s : ℕ)
  /-- A session is disconnected and begins to run its handlers. -/
  | disconnect (s : ℕ)
  | addHandlers (s : ℕ) (metadata : FixMetadata)
  | create (config : SessionConfig) (c : ℕ)
  | register (s : ℕ)
  | remove (sessionId : JSString)
  /-- The entry under the id of a session is removed, once the session has been ended. -/
  | removeId (s : ℕ)
  | clear
  /-- The socket of a session loses its listeners. -/
  | strip (s : ℕ)
  | destroy (c : ℕ)
  /-- The socket of a session is ended. -/
  | endSocket (s : ℕ)
  | listen (c s : ℕ)
  | connect (remoteAddress : JSString)
  | close (c : ℕ)
  /-- A socket is taken out of `activeSockets`. -/
  | forget (c : ℕ)
  | setClosing (closing : Option (ℕ × List CloseListener))
  /-- The server stops listening, and `activeSockets` is cleared. -/
  | shut
  | callCloseAll (stopping : Bool)
  /-- A `closeAll` hears of the end of one of its logouts. -/
  | settleCloseAll (k : ℕ) (result : Except JSError Unit)
  | join (s : ℕ) (roomId : JSString)
  | leave (s : ℕ) (roomId : JSString)

namespace AcceptorState

/-- Change a session. -/
def withSessionAs (st : AcceptorState) (s : ℕ) (f : Session → Session) : AcceptorState :=
  { st with sessions := Function.update st.sessions s (f (st.sessions s)) }

/-- Change a socket. -/
def withSocketAs (st : AcceptorState) (c : ℕ) (f : Connection → Connection) : AcceptorState :=
  { st with sockets := Function.update st.sockets c (f (st.sockets c)) }

/-- Remove the entry under an id, and its memberships. -/
def withoutEntry (st : AcceptorState) (sessionId : JSString) : AcceptorState :=
  if st.registry.has sessionId then
    { st with
      rooms := st.rooms.leaveAllRooms sessionId
      registry := st.registry.erase sessionId }
  else st

/-- Remove the entry under the id of a session that has been ended. -/
def withoutEnded (st : AcceptorState) (s : ℕ) : AcceptorState :=
  if (st.sessions s).heartbeatTimer then st else st.withoutEntry (st.sessions s).sessionId

/-- Tell a `closeAll` of the end of one of its logouts; it goes on after the last one. -/
def settled (st : AcceptorState) (k : ℕ) (result : Except JSError Unit) : AcceptorState :=
  match st.closeAlls[k]? with
  | none => st
  | some c => { st with
    closeAlls := st.closeAlls.set k (c.settle result)
    tasks := st.tasks ++ if (c.settle result).complete then [.allClosed k c.stopping] else [] }

/-- Call `closeAll`, which goes on at once when no session is registered. -/
def withCloseAll (st : AcceptorState) (stopping : Bool) : AcceptorState :=
  { st with
    closeAlls := st.closeAlls ++ [⟨st.registry.values.length, false, stopping⟩]
    tasks := st.tasks ++
      if st.registry.values = [] then [.allClosed st.closeAlls.length stopping] else [] }

/-- Only the calls of `closeAll` and the tasks change. -/
theorem settled_eq (st : AcceptorState) (k : ℕ) (result : Except JSError Unit) :
    st.settled k result = { st with
      closeAlls := (st.settled k result).closeAlls
      tasks := (st.settled k result).tasks } := by
  unfold settled
  cases st.closeAlls[k]? <;> rfl

/-- Only the memberships and the registry change. -/
theorem withoutEntry_eq (st : AcceptorState) (sessionId : JSString) :
    st.withoutEntry sessionId = { st with
      rooms := (st.withoutEntry sessionId).rooms
      registry := st.registry.erase sessionId } := by
  unfold withoutEntry
  split
  · rfl
  · next hhas =>
    rw [OrderedMap.has_iff] at hhas
    rw [OrderedMap.erase_of_notMem hhas]

end AcceptorState

/-- What registering handlers does to a session. -/
def Session.withHandlers (x : Session) (metadata : FixMetadata) : Session :=
  let handlers := (((x.handlers.addIf .logon metadata.onLogon).addIf .logout
    metadata.onLogout).addIf .connected metadata.onConnected).addIf .disconnected
    metadata.onDisconnected
  match metadata.onMessage with
  | none => { x with handlers := handlers }
  | some onMessage =>
    { x with handlers := { handlers with message := handlers.message ++ [onMessage] } }

/-- The state after an act. -/
def Act.apply (a : Act) (st : AcceptorState) : AcceptorState :=
  match a with
  | .consume => { st with input := { st.input with thrown := st.input.thrown.tail } }
  | .observe o => { st with trace := st.trace ++ [o] }
  | .suspend frame => { st with tasks := st.tasks ++ [frame] }
  | .take i => { st with tasks := st.tasks.eraseIdx i }
  | .setState s state => st.withSessionAs s fun x => { x with state := state }
  | .beginLogout s => st.withSessionAs s fun x =>
      if x.state = .disconnected then x else { x with state := .loggingOut }
  | .count s => st.withSessionAs s fun x =>
      { x with nextOutgoingSeqNum := x.nextOutgoingSeqNum + 1 }
  | .disconnect s => { st.withSessionAs s fun x =>
        Session.clearTimers { x with state := .disconnected } with
      trace := st.trace ++ [.ran s .disconnected] }
  | .addHandlers s metadata => st.withSessionAs s fun x => x.withHandlers metadata
  | .create config c => { st with
      sessions := Function.update st.sessions st.nextSession
        ⟨config, c, .disconnected, true, 1, ⟨fun _ => [], []⟩⟩
      nextSession := st.nextSession + 1 }
  | .register s => { st with registry := st.registry.set (st.sessions s).sessionId s }
  | .remove sessionId => st.withoutEntry sessionId
  | .removeId s => st.withoutEnded s
  | .clear => { st with registry := .empty }
  | .strip s => st.withSocketAs (st.sessions s).socket Connection.removeAllListeners
  | .destroy c => st.withSocketAs c fun x => { x with destroyed := true }
  | .endSocket s => st.withSocketAs (st.sessions s).socket fun x => { x with ended := true }
  | .listen c s => st.withSocketAs c fun x =>
      { x with closeListeners := x.closeListeners ++ [.session s] }
  | .connect remoteAddress =>
    { st.withSocketAs st.nextSocket fun x =>
        { x with remoteAddress := remoteAddress }.setupSocketEventHandlers with
      nextSocket := st.nextSocket + 1
      activeSockets := st.activeSockets.set remoteAddress st.nextSocket }
  | .close c => { st.withSocketAs c fun x => { x with closed := true } with
      closing := some (c, (st.sockets c).closeListeners) }
  | .forget c => { st with
      activeSockets := st.activeSockets.erase (st.sockets c).remoteAddress }
  | .setClosing closing => { st with closing := closing }
  | .shut => { st with activeSockets := .empty, listening := false }
  | .callCloseAll stopping => st.withCloseAll stopping
  | .settleCloseAll k result => st.settled k result
  | .join s roomId => { st with rooms := st.rooms.join roomId (st.sessions s).sessionId }
  | .leave s roomId => { st with rooms := st.rooms.leave roomId (st.sessions s).sessionId }

/-! ## What acts leave alone -/

/-- Whether an act changes a session or creates one. -/
def Act.changesSessions : Act → Bool
  | .setState .. | .beginLogout _ | .count _ | .disconnect _ | .addHandlers .. | .create .. => true
  | _ => false

/-- Whether an act is recorded. -/
def Act.observes : Act → Bool
  | .observe _ | .disconnect _ => true
  | _ => false

/-- Whether an act changes the registry. -/
def Act.changesRegistry : Act → Bool
  | .register _ | .remove _ | .removeId _ | .clear => true
  | _ => false

/-- Whether an act changes the rooms. -/
def Act.changesRooms : Act → Bool
  | .remove _ | .removeId _ | .join .. | .leave .. => true
  | _ => false

/-- Whether an act changes a socket, `activeSockets` or the `close` event under way. -/
def Act.changesSockets : Act → Bool
  | .strip _ | .destroy _ | .endSocket _ | .listen .. | .connect _ | .close _ | .forget _
  | .setClosing _ | .shut => true
  | _ => false

/-- Removing an entry only changes the rooms and the registry. -/
theorem withoutEntry_congr {β : Type} {f : AcceptorState → β} (st : AcceptorState)
    (sessionId : JSString)
    (hf : ∀ rooms registry, f { st with rooms := rooms, registry := registry } = f st) :
    f (st.withoutEntry sessionId) = f st := by
  rw [AcceptorState.withoutEntry_eq, hf]

/-- So does removing the entry of an ended session. -/
theorem withoutEnded_congr {β : Type} {f : AcceptorState → β} (st : AcceptorState) (s : ℕ)
    (hf : ∀ rooms registry, f { st with rooms := rooms, registry := registry } = f st) :
    f (st.withoutEnded s) = f st := by
  unfold AcceptorState.withoutEnded
  split
  · rfl
  · exact withoutEntry_congr st _ hf

/-- Settling a logout only changes the calls of `closeAll` and the tasks. -/
theorem settled_congr {β : Type} {f : AcceptorState → β} (st : AcceptorState) (k : ℕ)
    (result : Except JSError Unit)
    (hf : ∀ closeAlls tasks, f { st with closeAlls := closeAlls, tasks := tasks } = f st) :
    f (st.settled k result) = f st := by
  rw [AcceptorState.settled_eq, hf]

theorem sessions_apply {a : Act} (h : a.changesSessions = false) (st : AcceptorState) :
    (a.apply st).sessions = st.sessions := by
  cases a with
  | remove _ => exact withoutEntry_congr st _ fun _ _ => rfl
  | removeId _ => exact withoutEnded_congr st _ fun _ _ => rfl
  | settleCloseAll _ _ => exact settled_congr st _ _ fun _ _ => rfl
  | _ => first | rfl | cases h

theorem nextSession_apply {a : Act} (h : ∀ config c, a ≠ .create config c) (st : AcceptorState) :
    (a.apply st).nextSession = st.nextSession := by
  cases a with
  | create config c => exact absurd rfl (h config c)
  | remove _ => exact withoutEntry_congr st _ fun _ _ => rfl
  | removeId _ => exact withoutEnded_congr st _ fun _ _ => rfl
  | settleCloseAll _ _ => exact settled_congr st _ _ fun _ _ => rfl
  | _ => rfl

theorem nextSession_le_apply (a : Act) (st : AcceptorState) :
    st.nextSession ≤ (a.apply st).nextSession := by
  by_cases h : ∀ config c, a ≠ .create config c
  · exact Nat.le_of_eq (nextSession_apply h st).symm
  · push Not at h
    obtain ⟨config, c, rfl⟩ := h
    exact Nat.le_succ _

theorem trace_apply {a : Act} (h : a.observes = false) (st : AcceptorState) :
    (a.apply st).trace = st.trace := by
  cases a with
  | remove _ => exact withoutEntry_congr st _ fun _ _ => rfl
  | removeId _ => exact withoutEnded_congr st _ fun _ _ => rfl
  | settleCloseAll _ _ => exact settled_congr st _ _ fun _ _ => rfl
  | _ => first | rfl | cases h

/-- What has been recorded stays. -/
theorem mem_trace_apply (a : Act) {st : AcceptorState} {o : Observation} (h : o ∈ st.trace) :
    o ∈ (a.apply st).trace := by
  cases hobserves : a.observes with
  | false => rwa [trace_apply hobserves]
  | true =>
    cases a with
    | observe o' => exact List.mem_append_left _ h
    | disconnect s => exact List.mem_append_left _ h
    | _ => cases hobserves

theorem rooms_apply {a : Act} (h : a.changesRooms = false) (st : AcceptorState) :
    (a.apply st).rooms = st.rooms := by
  cases a with
  | settleCloseAll _ _ => exact settled_congr st _ _ fun _ _ => rfl
  | _ => first | rfl | cases h

theorem registry_apply {a : Act} (h : a.changesRegistry = false) (st : AcceptorState) :
    (a.apply st).registry = st.registry := by
  cases a with
  | settleCloseAll _ _ => exact settled_congr st _ _ fun _ _ => rfl
  | _ => first | rfl | cases h

/-- Only `closeAll` and the ends of its logouts change the calls of `closeAll`. -/
theorem closeAlls_apply {a : Act} (hcall : ∀ stopping, a ≠ .callCloseAll stopping)
    (hsettle : ∀ k result, a ≠ .settleCloseAll k result) (st : AcceptorState) :
    (a.apply st).closeAlls = st.closeAlls := by
  cases a with
  | callCloseAll stopping => exact absurd rfl (hcall stopping)
  | settleCloseAll k result => exact absurd rfl (hsettle k result)
  | remove _ => exact withoutEntry_congr st _ fun _ _ => rfl
  | removeId _ => exact withoutEnded_congr st _ fun _ _ => rfl
  | _ => rfl

theorem get?_of_withoutEntry {st : AcceptorState} {sessionId id : JSString} {x : ℕ}
    (h : (st.withoutEntry sessionId).registry.get? id = some x) :
    st.registry.get? id = some x := by
  rw [st.withoutEntry_eq] at h
  rw [OrderedMap.get?_erase] at h
  split at h
  · cases h
  · exact h

/-- Nothing but a registration adds an entry. -/
theorem get?_of_apply {a : Act} (ha : ∀ s, a ≠ .register s) {st : AcceptorState} {id : JSString}
    {x : ℕ} (h : (a.apply st).registry.get? id = some x) : st.registry.get? id = some x := by
  cases a with
  | register s => exact absurd rfl (ha s)
  | remove _ => exact get?_of_withoutEntry h
  | removeId s =>
    unfold Act.apply AcceptorState.withoutEnded at h
    dsimp only at h
    split at h
    · exact h
    · exact get?_of_withoutEntry h
  | clear => cases h
  | settleCloseAll _ _ =>
    exact settled_congr st _ _ (f := AcceptorState.registry) (fun _ _ => rfl) ▸ h
  | _ => exact h

/-- The same sockets, `activeSockets` and `close` event. -/
structure SameSockets (st st' : AcceptorState) : Prop where
  sockets : st'.sockets = st.sockets
  nextSocket : st'.nextSocket = st.nextSocket
  activeSockets : st'.activeSockets = st.activeSockets
  closing : st'.closing = st.closing

theorem sameSockets_withoutEntry (st : AcceptorState) (sessionId : JSString) :
    SameSockets st (st.withoutEntry sessionId) := by
  rw [st.withoutEntry_eq]
  exact ⟨rfl, rfl, rfl, rfl⟩

theorem sameSockets_withoutEnded (st : AcceptorState) (s : ℕ) :
    SameSockets st (st.withoutEnded s) := by
  unfold AcceptorState.withoutEnded
  split
  · exact ⟨rfl, rfl, rfl, rfl⟩
  · exact sameSockets_withoutEntry st _

theorem sameSockets_settled (st : AcceptorState) (k : ℕ) (result : Except JSError Unit) :
    SameSockets st (st.settled k result) := by
  rw [st.settled_eq]
  exact ⟨rfl, rfl, rfl, rfl⟩

theorem sameSockets_apply {a : Act} (h : a.changesSockets = false) (st : AcceptorState) :
    SameSockets st (a.apply st) := by
  cases a with
  | remove _ => exact sameSockets_withoutEntry st _
  | removeId _ => exact sameSockets_withoutEnded st _
  | settleCloseAll k result => exact sameSockets_settled st k result
  | _ => first | exact ⟨rfl, rfl, rfl, rfl⟩ | cases h

theorem nextSocket_apply {a : Act} (h : ∀ r, a ≠ .connect r) (st : AcceptorState) :
    (a.apply st).nextSocket = st.nextSocket := by
  cases a with
  | connect r => exact absurd rfl (h r)
  | remove _ => exact (sameSockets_withoutEntry st _).nextSocket
  | removeId _ => exact (sameSockets_withoutEnded st _).nextSocket
  | settleCloseAll _ _ => exact (sameSockets_settled st _ _).nextSocket
  | _ => rfl

/-- A change of a socket changes no other one. -/
theorem withSocketAs_sockets {P : Connection → Prop} {st : AcceptorState} {x c : ℕ}
    {f : Connection → Connection} (hself : c = x → P (f (st.sockets x)))
    (hother : c ≠ x → P (st.sockets c)) : P ((st.withSocketAs x f).sockets c) := by
  have hsockets : (st.withSocketAs x f).sockets c =
      if c = x then f (st.sockets x) else st.sockets c := Function.update_apply ..
  rw [hsockets]
  split
  · next hc => exact hself hc
  · next hc => exact hother hc

/-- Sockets stay closed. -/
theorem closed_apply (a : Act) {st : AcceptorState} {c : ℕ} (hc : (st.sockets c).closed = true) :
    ((a.apply st).sockets c).closed = true := by
  have hupdate : ∀ (x : ℕ) (f : Connection → Connection),
      ((st.sockets x).closed = true → (f (st.sockets x)).closed = true) →
      ((st.withSocketAs x f).sockets c).closed = true := by
    intro x f hf
    refine withSocketAs_sockets (P := fun y => y.closed = true) ?_ fun _ => hc
    rintro rfl
    exact hf hc
  cases a with
  | strip s =>
    simp only [Act.apply]
    exact hupdate _ _ id
  | destroy x =>
    simp only [Act.apply]
    exact hupdate _ _ id
  | endSocket s =>
    simp only [Act.apply]
    exact hupdate _ _ id
  | listen x s =>
    simp only [Act.apply]
    exact hupdate _ _ id
  | connect r =>
    exact hupdate st.nextSocket (fun x => { x with remoteAddress := r }.setupSocketEventHandlers) id
  | close x => exact hupdate x (fun x => { x with closed := true }) fun _ => rfl
  | forget _ => exact hc
  | setClosing _ => exact hc
  | shut => exact hc
  | _ => rwa [(sameSockets_apply rfl st).sockets]

/-- The options of the acceptor stay. -/
theorem config_apply (a : Act) (st : AcceptorState) : (a.apply st).config = st.config := by
  cases a with
  | remove _ => exact withoutEntry_congr st _ fun _ _ => rfl
  | removeId _ => exact withoutEnded_congr st _ fun _ _ => rfl
  | settleCloseAll _ _ => exact settled_congr st _ _ fun _ _ => rfl
  | _ => rfl

/-- A session as `new Session` makes it. -/
def Session.new (config : SessionConfig) (c : ℕ) : Session :=
  ⟨config, c, .disconnected, true, 1, ⟨fun _ => [], []⟩⟩

/-- What an act does to session `s`, when `next` is the number of the next session. -/
def Act.onSession (next s : ℕ) (x : Session) : Act → Session
  | .setState y state => if y = s then { x with state := state } else x
  | .beginLogout y =>
    if y = s ∧ x.state ≠ .disconnected then { x with state := .loggingOut } else x
  | .count y => if y = s then { x with nextOutgoingSeqNum := x.nextOutgoingSeqNum + 1 } else x
  | .disconnect y => if y = s then Session.clearTimers { x with state := .disconnected } else x
  | .addHandlers y metadata => if y = s then x.withHandlers metadata else x
  | .create config c => if next = s then Session.new config c else x
  | _ => x

theorem update_sessions (st : AcceptorState) (y s : ℕ) (x : Session) :
    Function.update st.sessions y x s = if y = s then x else st.sessions s := by
  rw [Function.update_apply]
  exact if_congr eq_comm rfl rfl

theorem withSessionAs_sessions (st : AcceptorState) (y s : ℕ) (f : Session → Session) :
    (st.withSessionAs y f).sessions s = if y = s then f (st.sessions s) else st.sessions s := by
  refine (update_sessions st y s _).trans ?_
  split
  · next hys => rw [hys]
  · rfl

/-- Acts change sessions as described. -/
theorem sessions_apply_eq (a : Act) (st : AcceptorState) (s : ℕ) :
    (a.apply st).sessions s = a.onSession st.nextSession s (st.sessions s) := by
  cases a with
  | setState y state =>
    simp only [Act.apply]
    exact withSessionAs_sessions st y s _
  | beginLogout y =>
    simp only [Act.apply, Act.onSession]
    rw [withSessionAs_sessions]
    by_cases hys : y = s
    · by_cases hstate : (st.sessions s).state = .disconnected <;> simp [hys, hstate]
    · simp [hys]
  | count y =>
    simp only [Act.apply]
    exact withSessionAs_sessions st y s _
  | disconnect y =>
    exact withSessionAs_sessions st y s fun x =>
      Session.clearTimers { x with state := .disconnected }
  | addHandlers y metadata =>
    simp only [Act.apply]
    exact withSessionAs_sessions st y s _
  | create config c => exact update_sessions st st.nextSession s _
  | _ => rw [sessions_apply rfl]; rfl

/-- Sessions keep their configuration and their socket. -/
theorem session_apply (a : Act) {st : AcceptorState} {s : ℕ} (hs : s < st.nextSession) :
    ((a.apply st).sessions s).config = (st.sessions s).config ∧
      ((a.apply st).sessions s).socket = (st.sessions s).socket := by
  rw [sessions_apply_eq]
  cases a with
  | create config c =>
    rw [Act.onSession, if_neg (Nat.ne_of_gt hs)]
    exact ⟨rfl, rfl⟩
  | addHandlers y metadata =>
    simp only [Act.onSession, Session.withHandlers]
    split
    · split <;> exact ⟨rfl, rfl⟩
    · exact ⟨rfl, rfl⟩
  | _ => first | exact ⟨rfl, rfl⟩ | (simp only [Act.onSession]; split <;> exact ⟨rfl, rfl⟩)

/-- Only `handleDisconnect` stops timers. -/
theorem timer_apply {a : Act} {st : AcceptorState} {s : ℕ} (h : a ≠ .disconnect s)
    (hs : s < st.nextSession) :
    ((a.apply st).sessions s).heartbeatTimer = (st.sessions s).heartbeatTimer := by
  rw [sessions_apply_eq]
  cases a with
  | create config c => rw [Act.onSession, if_neg (Nat.ne_of_gt hs)]
  | disconnect y =>
    have hys : y ≠ s := fun hys => h (congrArg Act.disconnect hys)
    rw [Act.onSession, if_neg hys]
  | addHandlers y metadata =>
    simp only [Act.onSession, Session.withHandlers]
    split
    · split <;> rfl
    · rfl
  | _ => first | rfl | (simp only [Act.onSession]; split <;> rfl)

theorem timer_disconnect {st : AcceptorState} {s : ℕ} :
    (((Act.disconnect s).apply st).sessions s).heartbeatTimer = false := by
  rw [sessions_apply_eq, Act.onSession, if_pos rfl, Session.clearTimers]

/-- A session only becomes LOGGED_ON when that is assigned. -/
theorem loggedOn_apply {a : Act} {st : AcceptorState} {s : ℕ}
    (h : ((a.apply st).sessions s).state = .loggedOn) :
    (st.sessions s).state = .loggedOn ∨ a = .setState s .loggedOn := by
  rw [sessions_apply_eq] at h
  cases a with
  | setState y state =>
    simp only [Act.onSession] at h
    split at h
    · next hys =>
      subst hys
      exact Or.inr (congrArg (Act.setState y) h)
    · exact Or.inl h
  | addHandlers y metadata =>
    simp only [Act.onSession, Session.withHandlers] at h
    split at h
    · split at h <;> exact Or.inl h
    · exact Or.inl h
  | beginLogout y =>
    simp only [Act.onSession] at h
    split at h
    · cases h
    · exact Or.inl h
  | disconnect y =>
    simp only [Act.onSession] at h
    split at h
    · cases h
    · exact Or.inl h
  | create config c =>
    simp only [Act.onSession] at h
    split at h
    · cases h
    · exact Or.inl h
  | count y =>
    simp only [Act.onSession] at h
    split at h <;> exact Or.inl h
  | _ => exact Or.inl h

/-- The tasks that an act adds. -/
def Act.adds (st : AcceptorState) : Act → List Frame
  | .suspend frame => [frame]
  | .callCloseAll stopping =>
    if st.registry.values = [] then [.allClosed st.closeAlls.length stopping] else []
  | .settleCloseAll k result =>
    match st.closeAlls[k]? with
    | none => []
    | some c => if (c.settle result).complete then [.allClosed k c.stopping] else []
  | _ => []

/-- Acts add tasks behind those that there are. -/
theorem tasks_apply {a : Act} (h : ∀ i, a ≠ .take i) (st : AcceptorState) :
    (a.apply st).tasks = st.tasks ++ a.adds st := by
  cases a with
  | take i => exact absurd rfl (h i)
  | remove sessionId =>
    have hsame := withoutEntry_congr st sessionId (f := AcceptorState.tasks) fun _ _ => rfl
    exact hsame.trans (List.append_nil _).symm
  | removeId s =>
    have hsame := withoutEnded_congr st s (f := AcceptorState.tasks) fun _ _ => rfl
    exact hsame.trans (List.append_nil _).symm
  | settleCloseAll k result =>
    simp only [Act.apply, Act.adds, AcceptorState.settled]
    cases st.closeAlls[k]? with
    | none => exact (List.append_nil _).symm
    | some c => rfl
  | suspend frame => rfl
  | callCloseAll stopping => rfl
  | _ => exact (List.append_nil _).symm

theorem mem_adds {a : Act} {st : AcceptorState} {frame : Frame} (h : frame ∈ a.adds st) :
    a = .suspend frame ∨ ∃ k stopping, frame = .allClosed k stopping := by
  cases a with
  | suspend f => exact Or.inl (congrArg Act.suspend (List.mem_singleton.mp h).symm)
  | callCloseAll stopping =>
    simp only [Act.adds] at h
    split at h
    · exact Or.inr ⟨_, _, List.mem_singleton.mp h⟩
    · cases h
  | settleCloseAll k result =>
    simp only [Act.adds] at h
    split at h
    · cases h
    · split at h
      · exact Or.inr ⟨_, _, List.mem_singleton.mp h⟩
      · cases h
  | _ => cases h

theorem mem_tasks_apply {a : Act} {st : AcceptorState} {frame : Frame}
    (h : frame ∈ (a.apply st).tasks) :
    frame ∈ st.tasks ∨ a = .suspend frame ∨ ∃ k stopping, frame = .allClosed k stopping := by
  by_cases htake : ∃ i, a = .take i
  · obtain ⟨i, rfl⟩ := htake
    exact Or.inl (List.mem_of_mem_eraseIdx h)
  · rw [tasks_apply (not_exists.mp htake)] at h
    exact (List.mem_append.mp h).imp_right mem_adds

/-! ## The acts of a session -/

/-- The acts of running a handler set, other than that for disconnects. -/
def ranActs (s : ℕ) (kind : HandlerKind) : Set Act := {.observe (.ran s kind), .consume}

/-- The acts of emitting an event. -/
def emitActs (s : ℕ) (event : SessionEvent) : Set Act := {.observe (.emitted s event), .consume}

/-- The acts of sending a message. -/
def sendActs (s : ℕ) : Set Act := {a | a = .count s ∨ ∃ m raw, a = .observe (.wrote s m raw)}

/-- The acts of `handleDisconnect`. The listeners are only removed when no user code throws
before. -/
def disconnectActs (s : ℕ) (completes : Prop) : Set Act :=
  {a | a = .consume ∨ a = .disconnect s ∨ a = .observe (.emitted s .disconnect) ∨
    completes ∧ a = .strip s}

/-- The acts of ending a session. The entry is only removed when no user code throws before. -/
def tearDownActs (s : ℕ) (completes : Prop) : Set Act :=
  disconnectActs s completes ∪ {a | completes ∧ (a = .endSocket s ∨ a = .removeId s)}

/-- The acts that follow a logout. -/
def settleLogoutActs : LogoutCaller → Except JSError Unit → Set Act
  | .user, _ => ∅
  | .registration s dropped, _ => {.suspend (.registration s dropped)}
  | .closeAll k, result => {.settleCloseAll k result}

/-- The acts of `logout` up to its `await`. -/
def logoutActs (st : AcceptorState) (s : ℕ) (caller : LogoutCaller) : Set Act :=
  {a | (st.sessions s).state = .disconnected ∧
      a ∈ settleLogoutActs caller (.error (js "Session already disconnected")) ∨
    (st.sessions s).state ≠ .disconnected ∧
      (a = .beginLogout s ∨ a ∈ sendActs s ∨ ∃ error, a = .suspend (.logoutSent s caller error))}

/-- The acts of `logout` after its message. -/
def afterLogoutActs (st : AcceptorState) (s : ℕ) : Set Act :=
  emitActs s .loggingOut ∪ emitActs s .loggedOut ∪
    tearDownActs s (st.input.calmFor (1 + st.disconnectCalls s) = true)

/-- The acts of `handleLogout`. -/
def handleLogoutActs (st : AcceptorState) (s : ℕ) : Set Act :=
  ranActs s .logout ∪ emitActs s .loggedOut ∪ {.setState s .disconnected} ∪
    tearDownActs s (st.input.calmFor (st.logoutCalls s) = true)

/-- The acts of ending a registration. -/
def finishActs (st : AcceptorState) (s : ℕ) : Set Act :=
  {a | st.limitReached = false ∧ a = .register s ∨ ∃ e, a = .observe (.unhandled s e)}

/-- The acts of `registerSession`. -/
def registerActs (st : AcceptorState) (s : ℕ) (dropped : Bool) : Set Act :=
  {a | st.registry.get? (st.sessions s).sessionId = none ∧ a ∈ finishActs st s ∨
    ∃ old, st.registry.get? (st.sessions s).sessionId = some old ∧
      a ∈ logoutActs st old (.registration s dropped)}

/-- The acts of `closeAll`. -/
def closeAllActs (st : AcceptorState) (stopping : Bool) : Set Act :=
  {a | a = .callCloseAll stopping ∨ ∃ s ∈ st.registry.values,
    a ∈ logoutActs st s (.closeAll st.closeAlls.length)}

/-! ## The acts of handling a message -/

/-- The acts that follow `handleMessage`. -/
def settleMessageActs : Origin → Set Act
  | .user => ∅
  | .chunk c rest _ => {.destroy c, .suspend (.nextMessage c rest)}

/-- The acts of calling message handlers. -/
def runMessageHandlersActs (origin : Origin) (s : ℕ) (m : Message) : Set Act :=
  settleMessageActs origin ∪ {a | a = .consume ∨ (∃ i, a = .observe (.handled s m i)) ∨
    ∃ next, a = .suspend (.handlerPending origin s m next)}

/-- The acts of `handleLogon` of a session. -/
def startLogonActs (origin : Origin) (s : ℕ) (m : Message) : Set Act :=
  sendActs s ∪ {a | a = .setState s .loggedOn ∨ a = .observe (.answered s) ∨
    ∃ error, a = .suspend (.logonResponse origin s m error)}

/-- The acts of `handleLogon` of a session after its response. -/
def afterLogonResponseActs (s : ℕ) : Set Act :=
  ranActs s .connected ∪ ranActs s .logon ∪ emitActs s .loggedOn

/-- The acts of `handleTestRequest`. -/
def startTestRequestReplyActs (origin : Origin) (s : ℕ) (m : Message) : Set Act :=
  sendActs s ∪ {a | ∃ error, a = .suspend (.testRequestReply origin s m error)}

/-- The acts of `handleMessage`. -/
def handleMessageActs (st : AcceptorState) (origin : Origin) (s : ℕ) (m : Message) : Set Act :=
  if m.getField Fields.msgType = MsgType.logon then startLogonActs origin s m
  else if m.getField Fields.msgType = MsgType.logout then
    handleLogoutActs st s ∪ settleMessageActs origin ∪ {.suspend (.messageHandlers origin s m)}
  else if m.getField Fields.msgType = MsgType.testRequest then startTestRequestReplyActs origin s m
  else runMessageHandlersActs origin s m

/-! ## The acts of the acceptor -/

/-- The acts of a write that fails. -/
def failWriteActs (c : ℕ) : Set Act :=
  {a | a = .destroy c ∨ (∃ e, a = .observe (.failed e)) ∨ ∃ e, a = .observe (.uncaught e)}

/-- The acts of refusing a message. -/
def refuseActs (c : ℕ) (rest : List Message) : Set Act :=
  {a | a ∈ failWriteActs c ∨ (∃ raw, a = .observe (.refused c raw)) ∨
    a = .suspend (.closeDelay c rest) ∨ a = .suspend (.nextMessage c rest)}

/-- A Logon has the required fields and names the acceptor. -/
def AcceptorConfig.accepts (config : AcceptorConfig) (m : Message) : Prop :=
  m.requireFields logonFields = .ok () ∧ m.getField Fields.targetCompID = config.targetCompID

/-- The acts of `validateLogon` up to its first `await`. -/
def validateLogonActs (st : AcceptorState) (c : ℕ) (m : Message) (rest : List Message) : Set Act :=
  {a | (∃ verdict, a = .suspend (.validated c m rest verdict) ∧
      (verdict = .valid → st.config.accepts m ∧ st.config.auth = false)) ∨
    a = .suspend (.validateCredentials c m rest) ∧ st.config.accepts m}

/-- The acts of `validateAuthentication` after `validateCredentials`. -/
def afterValidateCredentialsActs (st : AcceptorState) (c : ℕ) (m : Message)
    (rest : List Message) : Set Act :=
  {a | (∃ verdict, a = .suspend (.validated c m rest verdict) ∧ verdict ≠ .valid) ∨
    a = .suspend (.getAllowedSenderCompIds c m rest) ∧ st.input.settled = .ok () ∧
      st.input.credentials = true}

/-- The acts of `validateAuthentication` after `getAllowedSenderCompIds`. -/
def afterGetAllowedSenderCompIdsActs (st : AcceptorState) (c : ℕ) (m : Message)
    (rest : List Message) : Set Act :=
  {a | ∃ verdict, a = .suspend (.validated c m rest verdict) ∧ (verdict = .valid →
    st.input.settled = .ok () ∧ m.getField Fields.senderCompID ∈ st.input.allowedSenderCompIds)}

/-- The acts of creating and registering a session. -/
def createActs (st : AcceptorState) (c : ℕ) (m : Message) (rest : List Message) : Set Act :=
  {.create (buildSessionConfig st.config m) c, .suspend (.created c st.nextSession m rest)} ∪
    registerActs ((Act.create (buildSessionConfig st.config m) c).apply st) st.nextSession true

/-- The acts of processing the messages of a chunk. -/
def processActs (st : AcceptorState) (c : ℕ) : List Message → Set Act
  | [] => ∅
  | m :: rest => {a | a = .suspend (.nextMessage c rest) ∧ m.hasField Fields.msgType = false ∨
      (∃ e, a = .observe (.failed e)) ∨ a = .destroy c ∨ a = .observe (.processing c m) ∨
      m.getField Fields.msgType = MsgType.logon ∧ a ∈ validateLogonActs st c m rest ∨
      routable m = true ∧ (a ∈ refuseActs c rest ∨
        ∃ s, st.registry.get? (buildSessionId m) = some s ∧ (a = .observe (.dispatched c s m) ∨
          a ∈ handleMessageActs st (.chunk c rest false) s m))}

/-- The sessions of a list whose entries are removed when socket `c` closes, after `n` calls
of user code. -/
def AcceptorState.cleanedUp (st : AcceptorState) (c : ℕ) : ℕ → List ℕ → List ℕ
  | _, [] => []
  | n, s :: sessions =>
    if (st.sessions s).socket = c then
      if st.input.calmFor (n + st.disconnectCalls s) then
        s :: st.cleanedUp c (n + st.disconnectCalls s) sessions
      else []
    else st.cleanedUp c n sessions

/-- The acts of ending the sessions of a list that are on a socket. -/
def cleanupActs (st : AcceptorState) (c n : ℕ) (sessions : List ℕ) : Set Act :=
  {a | ∃ s ∈ sessions, (st.sessions s).socket = c ∧
    a ∈ tearDownActs s (s ∈ st.cleanedUp c n sessions)}

/-- The acts of a `close` listener. -/
def listenerActs (st : AcceptorState) (c : ℕ) : CloseListener → Set Act
  | .acceptor => {.forget c} ∪ cleanupActs st c 0 st.registry.values
  | .session s => tearDownActs s (st.input.calmFor (st.disconnectCalls s) = true)

/-- The acts of calling the next `close` listener. -/
def nextListenerActs (st : AcceptorState) : Set Act :=
  match st.closing with
  | none => ∅
  | some (_, []) => {.setClosing none}
  | some (c, listener :: listeners) => listenerActs st c listener ∪
    {a | a = .setClosing (some (c, listeners)) ∨ a = .setClosing none ∨
      ∃ e, a = .observe (.uncaught e)}

/-- The acts of going on with a task. -/
def resumeActs (st : AcceptorState) : Frame → Set Act
  | .nextMessage c rest => processActs st c rest
  | .validateCredentials c m rest => afterValidateCredentialsActs st c m rest
  | .getAllowedSenderCompIds c m rest => afterGetAllowedSenderCompIdsActs st c m rest
  | .validated c m rest .valid => createActs st c m rest
  | .validated c _ rest _ => refuseActs c rest
  | .closeDelay c rest => {.destroy c, .suspend (.nextMessage c rest)}
  | .created c s m rest => {a | (∃ metadata ∈ st.config.metadata, a = .addHandlers s metadata) ∨
      a = .suspend (.handlersSet c s m rest)}
  | .handlersSet c s m rest => {.listen c s} ∪ handleMessageActs st (.chunk c rest true) s m
  | .logonResponse origin s m _ => afterLogonResponseActs s ∪ settleMessageActs origin ∪
      {.setState s .error, .suspend (.messageHandlers origin s m)}
  | .testRequestReply origin s m _ => settleMessageActs origin ∪
      {.suspend (.messageHandlers origin s m)}
  | .messageHandlers origin s m => runMessageHandlersActs origin s m
  | .handlerPending origin s m _ => runMessageHandlersActs origin s m
  | .logoutSent s caller _ => afterLogoutActs st s ∪
      {a | ∃ result, a ∈ settleLogoutActs caller result ∧
        (∀ e, result = .error e → st.input.calmFor (2 + st.disconnectCalls s) = false)}
  | .registration s _ => finishActs st s
  | .allClosed .. => {.clear, .suspend .closeAllSockets}
  | .closeAllSockets => {a | a = .shut ∨ ∃ c ∈ st.activeSockets.values, a = .destroy c}

/-- The acts of an event, in the state with the input of its step. -/
def eventActs (st : AcceptorState) : Event → Set Act
  | .connect remoteAddress => {.connect remoteAddress}
  | .data c data => {a | (st.sockets c).dataListener = true ∧ a ∈ processActs st c (processData data)}
  | .socketError c e => {a | (st.sockets c).errorListener = true ∧ a = .observe (.failed e) ∨
      (st.sockets c).errorListener = false ∧ a = .observe (.uncaught e) ∨ a = .destroy c}
  | .close c => {.close c}
  | .nextListener => nextListenerActs st
  | .resume i => {a | ∃ frame, st.tasks[i]? = some frame ∧ (a = .take i ∨ a ∈ resumeActs st frame)}
  | .heartbeat s => sendActs s
  | .reject s e => {.observe (.rejected s e)}
  | .send s _ => sendActs s
  | .logout s _ => logoutActs st s .user
  | .join s roomId => {.join s roomId}
  | .leave s roomId => {.leave s roomId}
  | .handleMessage s m => handleMessageActs st .user s m
  | .registerHandlers s metadata => {.addHandlers s metadata}
  | .stop => closeAllActs st true
  | .closeAll => closeAllActs st false
  | .newSession config c => {.create config c}
  | .createSession config c => {.create config c, .register st.nextSession}
  | .registerSession s => registerActs st s false
  | .removeSession sessionId => {.remove sessionId}

end NestQuickfix.Acceptor
