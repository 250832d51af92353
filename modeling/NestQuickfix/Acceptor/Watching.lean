import NestQuickfix.Acceptor.Tasks

/-!
# Listeners of open sockets

`setupSocketEventHandlers` installs the acceptor's listeners on a socket once, and
`handleDisconnect` of a session strips its socket of all listeners. An open socket is
watched as long as no session on it is ended, and `activeSockets` holds it until its
`close` event reaches the acceptor.
-/

namespace NestQuickfix.Acceptor

open Lib Lib.Exec

/-- A socket has closed: its `close` event has been emitted, and if the acceptor listens to it,
the acceptor has been called. -/
def AcceptorState.hasClosed (st : AcceptorState) (c : ℕ) : Prop :=
  (st.sockets c).closed = true ∧ ∀ ls, st.closing = some (c, ls) → .acceptor ∉ ls

/-- The `error` and `close` listeners of the acceptor are installed on every accepted socket
that has not closed, and `activeSockets` holds exactly these sockets. -/
structure AcceptorState.WatchesSockets (st : AcceptorState) : Prop where
  error : ∀ c < st.nextSocket, ¬ st.hasClosed c → (st.sockets c).errorListener = true
  close : ∀ c < st.nextSocket, ¬ st.hasClosed c → .acceptor ∈ (st.sockets c).closeListeners
  active : ∀ c, c ∈ st.activeSockets.values ↔ c < st.nextSocket ∧ ¬ st.hasClosed c

/-- The remote address of a new connection. -/
def Event.remoteAddress : Event → Option JSString
  | .connect remoteAddress => some remoteAddress
  | _ => none

/-- Whether an event closes the sockets at the end of `stop`. -/
def AcceptorState.shuts (st : AcceptorState) : Event → Bool
  | .resume i =>
    match st.tasks[i]? with
    | some .closeAllSockets => true
    | _ => false
  | _ => false

/-- The condition: no session of an open socket is ended completely, `stop` only comes to close
the sockets when they have closed, and the address of a new connection is that of no
open socket. -/
structure KeepsWatch (st : AcceptorState) (e : Step) : Prop where
  ends : ∀ s ∈ (st.meets e).completes e.event, (st.sessions s).socket < st.nextSocket →
    (st.sockets (st.sessions s).socket).closed = true
  shuts : st.shuts e.event = true → ∀ c < st.nextSocket, (st.sockets c).closed = true
  fresh : ∀ a ∈ e.event.remoteAddress, ∀ c < st.nextSocket, (st.sockets c).remoteAddress = a →
    (st.sockets c).closed = true

instance : ∀ (st : AcceptorState) (e : Step), Decidable (KeepsWatch st e) := fun st e =>
  have : Decidable (∀ s ∈ (st.meets e).completes e.event,
      (st.sessions s).socket < st.nextSocket →
        (st.sockets (st.sessions s).socket).closed = true) :=
    List.decidableBAll (fun s => (st.sessions s).socket < st.nextSocket →
      (st.sockets (st.sessions s).socket).closed = true) _
  decidable_of_iff ((∀ s ∈ (st.meets e).completes e.event,
      (st.sessions s).socket < st.nextSocket →
        (st.sockets (st.sessions s).socket).closed = true) ∧
    (st.shuts e.event = true → ∀ c < st.nextSocket, (st.sockets c).closed = true) ∧
    ∀ a ∈ e.event.remoteAddress, ∀ c < st.nextSocket, (st.sockets c).remoteAddress = a →
      (st.sockets c).closed = true)
    ⟨fun ⟨h1, h2, h3⟩ => ⟨h1, h2, h3⟩, fun ⟨h1, h2, h3⟩ => ⟨h1, h2, h3⟩⟩

/-! ## Watched sockets -/

/-- Open sockets are watched and known under their addresses; the acceptor is the first
listener of a `close` event. -/
structure Watched (st : AcceptorState) : Prop where
  error : ∀ c < st.nextSocket, ¬ st.hasClosed c → (st.sockets c).errorListener = true
  close : ∀ c < st.nextSocket, ¬ st.hasClosed c → .acceptor ∈ (st.sockets c).closeListeners
  active : ∀ a c, st.activeSockets.get? a = some c ↔
    c < st.nextSocket ∧ ¬ st.hasClosed c ∧ (st.sockets c).remoteAddress = a
  fresh : ∀ c, st.nextSocket ≤ c →
    (st.sockets c).closed = false ∧ (st.sockets c).closeListeners = []
  first : ∀ c, .acceptor ∉ (st.sockets c).closeListeners.tail
  closing : ∀ c ls, st.closing = some (c, ls) →
    (st.sockets c).closed = true ∧ c < st.nextSocket ∧ .acceptor ∉ ls.tail

variable {guard : AcceptorState → Step → Prop} {st st' : AcceptorState} {e : Step} {c : ℕ}

theorem hasClosed_iff (h : ∀ ls, st.closing = some (c, ls) → .acceptor ∉ ls) :
    st.hasClosed c ↔ (st.sockets c).closed = true :=
  ⟨fun hc => hc.1, fun hc => ⟨hc, h⟩⟩

theorem hasClosed_congr (hclosed : (st'.sockets c).closed = (st.sockets c).closed)
    (hclosing : st'.closing = st.closing) : st'.hasClosed c ↔ st.hasClosed c := by
  unfold AcceptorState.hasClosed
  rw [hclosed, hclosing]

namespace Watched

theorem watchesSockets (h : Watched st) : st.WatchesSockets := by
  refine ⟨h.error, h.close, fun c => ?_⟩
  rw [OrderedMap.mem_values_iff]
  constructor
  · rintro ⟨a, ha⟩
    obtain ⟨hlt, hopen, _⟩ := (h.active a c).mp ha
    exact ⟨hlt, hopen⟩
  · rintro ⟨hlt, hopen⟩
    exact ⟨_, (h.active _ c).mpr ⟨hlt, hopen, rfl⟩⟩

theorem congr (h : Watched st) (hst : SameSockets st st') : Watched st' := by
  obtain ⟨hsockets, hnext, hactive, hclosing⟩ := hst
  have hclosed : ∀ c, st'.hasClosed c ↔ st.hasClosed c := fun c =>
    hasClosed_congr (congrArg (fun f => (f c).closed) hsockets) hclosing
  refine ⟨fun c => ?_, fun c => ?_, fun a c => ?_, fun c => ?_, fun c => ?_, fun c ls => ?_⟩
  · rw [hnext, hsockets, hclosed]
    exact h.error c
  · rw [hnext, hsockets, hclosed]
    exact h.close c
  · rw [hnext, hsockets, hclosed, hactive]
    exact h.active a c
  · rw [hnext, hsockets]
    exact h.fresh c
  · rw [hsockets]
    exact h.first c
  · rw [hnext, hsockets, hclosing]
    exact h.closing c ls

/-- A change of a socket that keeps the listeners of the acceptor on open sockets. -/
theorem updateSocket (h : Watched st) {x : ℕ} {f : Connection → Connection}
    (hclosed : (f (st.sockets x)).closed = (st.sockets x).closed)
    (haddress : (f (st.sockets x)).remoteAddress = (st.sockets x).remoteAddress)
    (hwatch : x < st.nextSocket → ¬ st.hasClosed x →
      (f (st.sockets x)).errorListener = true ∧ .acceptor ∈ (f (st.sockets x)).closeListeners)
    (hfresh : st.nextSocket ≤ x → (f (st.sockets x)).closeListeners = [])
    (hfirst : .acceptor ∉ (f (st.sockets x)).closeListeners.tail) :
    Watched (st.withSocketAs x f) := by
  have hsame : ∀ c, ((st.withSocketAs x f).sockets c).closed = (st.sockets c).closed ∧
      ((st.withSocketAs x f).sockets c).remoteAddress = (st.sockets c).remoteAddress := by
    intro c
    refine withSocketAs_sockets (P := fun y => y.closed = (st.sockets c).closed ∧
      y.remoteAddress = (st.sockets c).remoteAddress) ?_ fun _ => ⟨rfl, rfl⟩
    rintro rfl
    exact ⟨hclosed, haddress⟩
  have hopen : ∀ c, (st.withSocketAs x f).hasClosed c ↔ st.hasClosed c :=
    fun c => hasClosed_congr (hsame c).1 rfl
  refine ⟨fun c hlt hc => ?_, fun c hlt hc => ?_, fun a c => ?_, fun c hle => ?_, fun c => ?_,
    fun c ls hls => ?_⟩
  · rw [hopen] at hc
    refine withSocketAs_sockets (P := fun y => y.errorListener = true) ?_
      fun _ => h.error c hlt hc
    rintro rfl
    exact (hwatch hlt hc).1
  · rw [hopen] at hc
    refine withSocketAs_sockets (P := fun y => .acceptor ∈ y.closeListeners) ?_
      fun _ => h.close c hlt hc
    rintro rfl
    exact (hwatch hlt hc).2
  · rw [hopen, (hsame c).2]
    exact h.active a c
  · refine ⟨(hsame c).1.trans (h.fresh c hle).1, ?_⟩
    refine withSocketAs_sockets (P := fun y => y.closeListeners = []) ?_
      fun _ => (h.fresh c hle).2
    rintro rfl
    exact hfresh hle
  · refine withSocketAs_sockets (P := fun y => .acceptor ∉ y.closeListeners.tail) ?_
      fun _ => h.first c
    rintro rfl
    exact hfirst
  · rw [(hsame c).1]
    exact h.closing c ls hls

/-- A closed socket may lose its listeners. -/
theorem removeAllListeners (h : Watched st) {x : ℕ}
    (hx : x < st.nextSocket → st.hasClosed x) :
    Watched (st.withSocketAs x Connection.removeAllListeners) := by
  refine h.updateSocket rfl rfl (fun hlt hopen => absurd (hx hlt) hopen) (fun _ => rfl) ?_
  exact List.not_mem_nil

theorem listen (h : Watched st) {x s : ℕ} (hx : x < st.nextSocket) :
    Watched ((Act.listen x s).apply st) := by
  simp only [Act.apply]
  refine h.updateSocket rfl rfl (fun hlt hopen => ?_) (fun hle => ?_) ?_
  · exact ⟨h.error x hlt hopen, List.mem_append_left _ (h.close x hlt hopen)⟩
  · omega
  · have hfirst := h.first x
    cases hls : (st.sockets x).closeListeners with
    | nil => simp
    | cons l ls =>
      rw [hls] at hfirst
      simpa using hfirst

/-- When the acceptor has been called, the rest of a `close` event does not matter. -/
theorem setClosing (h : Watched st) {closing : Option (ℕ × List CloseListener)}
    (hst : ∀ c ls, st.closing = some (c, ls) → .acceptor ∉ ls)
    (hclosing : ∀ c ls, closing = some (c, ls) →
      (st.sockets c).closed = true ∧ c < st.nextSocket ∧ .acceptor ∉ ls) :
    Watched ((Act.setClosing closing).apply st) := by
  have hopen : ∀ c, ((Act.setClosing closing).apply st).hasClosed c ↔ st.hasClosed c := by
    intro c
    rw [hasClosed_iff (hst c), hasClosed_iff fun ls hls => (hclosing c ls hls).2.2]
    exact Iff.rfl
  refine ⟨fun c hlt hc => ?_, fun c hlt hc => ?_, fun a c => ?_, h.fresh, h.first,
    fun c ls hls => ?_⟩
  · rw [hopen] at hc
    exact h.error c hlt hc
  · rw [hopen] at hc
    exact h.close c hlt hc
  · rw [hopen]
    exact h.active a c
  · obtain ⟨hclosed, hlt, hls⟩ := hclosing c ls hls
    exact ⟨hclosed, hlt, fun hmem => hls (List.mem_of_mem_tail hmem)⟩

/-- Nothing is lost when no socket is open. -/
theorem shut (h : Watched st) (hclosed : ∀ c < st.nextSocket, st.hasClosed c) :
    Watched (Act.shut.apply st) := by
  refine ⟨h.error, h.close, fun a c => ?_, h.fresh, h.first, h.closing⟩
  constructor
  · intro hget
    cases hget
  · rintro ⟨hlt, hopen, _⟩
    exact absurd (hclosed c hlt) hopen

/-- A new connection is watched. -/
theorem connect (h : Watched st) {a : JSString} (hclosing : st.closing = none)
    (ha : ∀ c < st.nextSocket, (st.sockets c).remoteAddress = a → (st.sockets c).closed = true) :
    Watched ((Act.connect a).apply st) := by
  have hother : ∀ c, c ≠ st.nextSocket →
      ((Act.connect a).apply st).sockets c = st.sockets c := fun c hc => Function.update_of_ne hc ..
  have hself : ((Act.connect a).apply st).sockets st.nextSocket =
      { st.sockets st.nextSocket with remoteAddress := a }.setupSocketEventHandlers :=
    Function.update_self ..
  have hlt : ∀ c, c ≠ st.nextSocket → c < ((Act.connect a).apply st).nextSocket →
      c < st.nextSocket := fun c hc hlt => by
    have hle : c < st.nextSocket + 1 := hlt
    omega
  have hopen : ∀ c, c ≠ st.nextSocket →
      (((Act.connect a).apply st).hasClosed c ↔ st.hasClosed c) := fun c hc =>
    hasClosed_congr (congrArg Connection.closed (hother c hc)) rfl
  have hnew : ¬ ((Act.connect a).apply st).hasClosed st.nextSocket := by
    rintro ⟨hclosed, _⟩
    rw [hself] at hclosed
    exact Bool.eq_false_iff.mp (h.fresh _ (Nat.le_refl _)).1 hclosed
  refine ⟨fun c hc hc' => ?_, fun c hc hc' => ?_, fun a' c => ?_, fun c hle => ?_, fun c => ?_,
    fun c ls hls => ?_⟩
  · by_cases hcn : c = st.nextSocket
    · subst c
      rw [hself]
      rfl
    · rw [hother c hcn]
      exact h.error c (hlt c hcn hc) (mt (hopen c hcn).mpr hc')
  · by_cases hcn : c = st.nextSocket
    · subst c
      rw [hself]
      exact List.mem_append_right _ (List.mem_singleton_self _)
    · rw [hother c hcn]
      exact h.close c (hlt c hcn hc) (mt (hopen c hcn).mpr hc')
  · have hget : ((Act.connect a).apply st).activeSockets.get? a' =
        if a' = a then some st.nextSocket else st.activeSockets.get? a' := OrderedMap.get?_set ..
    rw [hget]
    by_cases hcn : c = st.nextSocket
    · subst c
      rw [hself]
      constructor
      · intro hsome
        refine ⟨Nat.lt_succ_self _, hnew, ?_⟩
        split at hsome
        · next haa => exact haa.symm
        · exact absurd ((h.active a' _).mp hsome).1 (Nat.lt_irrefl _)
      · rintro ⟨_, _, rfl⟩
        exact if_pos rfl
    · rw [hother c hcn, hopen c hcn]
      constructor
      · intro hsome
        split at hsome
        · exact absurd (Option.some.inj hsome).symm hcn
        · obtain ⟨hc, hc', haddress⟩ := (h.active a' c).mp hsome
          exact ⟨Nat.lt_succ_of_lt hc, hc', haddress⟩
      · rintro ⟨hc, hc', haddress⟩
        have hne : a' ≠ a := by
          rintro rfl
          refine hc' ⟨ha c (hlt c hcn hc) haddress, fun ls hls => ?_⟩
          rw [hclosing] at hls
          cases hls
        rw [if_neg hne]
        exact (h.active a' c).mpr ⟨hlt c hcn hc, hc', haddress⟩
  · have hle' : st.nextSocket + 1 ≤ c := hle
    have hcn : c ≠ st.nextSocket := by omega
    rw [hother c hcn]
    exact h.fresh c (by omega)
  · by_cases hcn : c = st.nextSocket
    · subst c
      rw [hself]
      have hnil := (h.fresh _ (Nat.le_refl _)).2
      simp [Connection.setupSocketEventHandlers, hnil]
    · rw [hother c hcn]
      exact h.first c
  · have hls' : st.closing = some (c, ls) := hls
    rw [hclosing] at hls'
    cases hls'

/-- A `close` event begins. -/
theorem beginClose (h : Watched st) (hclosing : st.closing = none) (hc : c < st.nextSocket)
    (hclosed : (st.sockets c).closed = false) : Watched ((Act.close c).apply st) := by
  have hother : ∀ x, x ≠ c → ((Act.close c).apply st).sockets x = st.sockets x :=
    fun x hx => Function.update_of_ne hx ..
  have hself : ((Act.close c).apply st).sockets c = { st.sockets c with closed := true } :=
    Function.update_self ..
  have hlisteners : ∀ ls, ((Act.close c).apply st).closing = some (c, ls) →
      ls = (st.sockets c).closeListeners := fun ls hls =>
    (congrArg Prod.snd (Option.some.inj hls)).symm
  have hsame : ∀ x, (((Act.close c).apply st).sockets x).errorListener =
        (st.sockets x).errorListener ∧
      (((Act.close c).apply st).sockets x).closeListeners = (st.sockets x).closeListeners ∧
      (((Act.close c).apply st).sockets x).remoteAddress = (st.sockets x).remoteAddress := by
    intro x
    by_cases hx : x = c
    · subst x
      rw [hself]
      exact ⟨rfl, rfl, rfl⟩
    · rw [hother x hx]
      exact ⟨rfl, rfl, rfl⟩
  have hopen : ∀ x, ((Act.close c).apply st).hasClosed x ↔ st.hasClosed x := by
    intro x
    by_cases hx : x = c
    · subst x
      have hnot : ¬ st.hasClosed c := fun hdone => Bool.eq_false_iff.mp hclosed hdone.1
      refine iff_of_false (fun hdone => ?_) hnot
      exact hdone.2 _ rfl (h.close c hc hnot)
    · have hnone : ∀ ls, st.closing = some (x, ls) → .acceptor ∉ ls := by
        rw [hclosing]
        rintro ls ⟨⟩
      rw [hasClosed_iff hnone, hasClosed_iff, hother x hx]
      intro ls hls
      exact absurd (congrArg Prod.fst (Option.some.inj hls)).symm hx
  refine ⟨fun x hlt hx => ?_, fun x hlt hx => ?_, fun a x => ?_, fun x hle => ?_, fun x => ?_,
    fun x ls hls => ?_⟩
  · rw [(hsame x).1]
    exact h.error x hlt (mt (hopen x).mpr hx)
  · rw [(hsame x).2.1]
    exact h.close x hlt (mt (hopen x).mpr hx)
  · rw [hopen, (hsame x).2.2]
    exact h.active a x
  · have hle' : st.nextSocket ≤ x := hle
    have hx : x ≠ c := by omega
    rw [hother x hx]
    exact h.fresh x hle
  · rw [(hsame x).2.1]
    exact h.first x
  · obtain rfl : c = x := congrArg Prod.fst (Option.some.inj hls)
    rw [hself, hlisteners ls hls]
    exact ⟨rfl, hc, h.first c⟩

/-- The acceptor hears of a `close` event and forgets the socket. -/
theorem forget (h : Watched st) {ls : List CloseListener}
    (hclosing : st.closing = some (c, .acceptor :: ls)) :
    Watched ((Act.forget c).apply ((Act.setClosing (some (c, ls))).apply st)) := by
  obtain ⟨hclosed, hc, hls⟩ := h.closing c _ hclosing
  have hself : ((Act.forget c).apply ((Act.setClosing (some (c, ls))).apply st)).hasClosed c := by
    refine ⟨hclosed, fun ls' hls' => ?_⟩
    obtain rfl : ls = ls' := congrArg Prod.snd (Option.some.inj hls')
    exact hls
  have hbefore : ¬ st.hasClosed c := fun hdone => hdone.2 _ hclosing List.mem_cons_self
  have hopen : ∀ x, x ≠ c →
      (((Act.forget c).apply ((Act.setClosing (some (c, ls))).apply st)).hasClosed x ↔
        st.hasClosed x) := by
    intro x hx
    rw [hasClosed_iff, hasClosed_iff]
    · exact Iff.rfl
    · intro ls' hls'
      rw [hclosing] at hls'
      exact absurd (congrArg Prod.fst (Option.some.inj hls')).symm hx
    · intro ls' hls'
      exact absurd (congrArg Prod.fst (Option.some.inj hls')).symm hx
  have hne : ∀ x, ¬ ((Act.forget c).apply ((Act.setClosing (some (c, ls))).apply st)).hasClosed x →
      x ≠ c := by
    rintro x hx rfl
    exact hx hself
  refine ⟨fun x hlt hx => ?_, fun x hlt hx => ?_, fun a x => ?_, h.fresh, h.first,
    fun x ls' hls' => ?_⟩
  · exact h.error x hlt (mt (hopen x (hne x hx)).mpr hx)
  · exact h.close x hlt (mt (hopen x (hne x hx)).mpr hx)
  · have hget : ((Act.forget c).apply ((Act.setClosing (some (c, ls))).apply st)).activeSockets.get?
        a = if a = (st.sockets c).remoteAddress then none else st.activeSockets.get? a :=
      OrderedMap.get?_erase ..
    rw [hget]
    constructor
    · intro hsome
      split at hsome
      · cases hsome
      · next ha =>
        obtain ⟨hlt, hx, haddress⟩ := (h.active a x).mp hsome
        have hxc : x ≠ c := by
          rintro rfl
          exact ha haddress.symm
        exact ⟨hlt, mt (hopen x hxc).mp hx, haddress⟩
    · rintro ⟨hlt, hx, haddress⟩
      have hsome := (h.active a x).mpr ⟨hlt, mt (hopen x (hne x hx)).mpr hx, haddress⟩
      rw [if_neg, hsome]
      rintro rfl
      rw [(h.active _ c).mpr ⟨hc, hbefore, rfl⟩] at hsome
      exact hne x hx (Option.some.inj hsome).symm
  · obtain rfl : c = x := congrArg Prod.fst (Option.some.inj hls')
    obtain rfl : ls = ls' := congrArg Prod.snd (Option.some.inj hls')
    exact ⟨hclosed, hc, fun hmem => hls (List.mem_of_mem_tail hmem)⟩

end Watched

/-! ## Steps -/

/-- No listener of the acceptor is still to be called in a `close` event. -/
def AcceptorState.Heard (st : AcceptorState) : Prop :=
  ∀ c ls, st.closing = some (c, ls) → .acceptor ∉ ls

/-- What the acts of a step do not change: sockets stay closed, none is accepted, and sessions
keep their sockets. -/
structure SameOrigins (st st' : AcceptorState) : Prop where
  nextSocket : st'.nextSocket = st.nextSocket
  closed : ∀ c, (st.sockets c).closed = true → (st'.sockets c).closed = true
  nextSession : st.nextSession ≤ st'.nextSession
  socket : ∀ s < st.nextSession, (st'.sessions s).socket = (st.sessions s).socket

theorem SameOrigins.act (h : SameOrigins st st') {a : Act} (ha : ∀ r, a ≠ .connect r) :
    SameOrigins st (a.apply st') := by
  obtain ⟨hnext, hclosed, hsessions, hsocket⟩ := h
  refine ⟨?_, fun c hc => ?_, hsessions.trans (nextSession_le_apply a st'), fun s hs => ?_⟩
  · rw [nextSocket_apply ha, hnext]
  · exact closed_apply a (hclosed c hc) 
  · rw [(session_apply a (Nat.lt_of_lt_of_le hs hsessions)).2, hsocket s hs]

/-- A path of a step along which the acceptor has heard of every `close` event: open sockets
stay watched. -/
structure KeptOn (st st' : AcceptorState) : Prop where
  origins : SameOrigins st st'
  watched : Watched st'
  heard : st'.Heard

theorem heard_apply (h : st.Heard) {a : Act} (hclose : ∀ c, a ≠ .close c)
    (hclosing : ∀ closing, a = .setClosing closing → ∀ c ls, closing = some (c, ls) →
      .acceptor ∉ ls) : (a.apply st).Heard := by
  have hsame : (a.apply st).closing = st.closing → (a.apply st).Heard := fun heq c ls hls =>
    h c ls (heq ▸ hls)
  cases a with
  | close c => exact absurd rfl (hclose c)
  | setClosing closing => exact hclosing closing rfl
  | remove _ => exact hsame (sameSockets_withoutEntry st _).closing
  | removeId _ => exact hsame (sameSockets_withoutEnded st _).closing
  | settleCloseAll _ _ => exact hsame (sameSockets_settled st _ _).closing
  | _ => exact h

/-- Every act of a step that meets the condition keeps open sockets watched, apart from those
that begin the life of a socket or end it. -/
theorem KeptOn.act {a : Act} (h : KeptOn st st') (hreached : acceptor.Reached guard st)
    (hst : Watched st) (henabled : st.enabled e.event = true) (hguard : KeepsWatch st e)
    (ha : a.CausedBy (st.meets e) e.event) (hconnect : ∀ r, a ≠ .connect r)
    (hclose : ∀ c, a ≠ .close c) (hforget : ∀ c, a ≠ .forget c) : KeptOn st (a.apply st') := by
  obtain ⟨horigins, hwatched, hheard⟩ := h
  have hclosing : ∀ closing, a = .setClosing closing → ∀ c ls, closing = some (c, ls) →
      (st.sockets c).closed = true ∧ c < st.nextSocket ∧ .acceptor ∉ ls := by
    rintro closing rfl c ls rfl
    obtain ⟨_, c', ls', hclosing, hnone | hsome⟩ := ha
    · cases hnone
    · cases hsome
      exact hst.closing _ _ hclosing
  have hclosed : ∀ c, (st.sockets c).closed = true → st'.hasClosed c :=
    fun c hc => ⟨horigins.closed c hc, hheard c⟩
  refine ⟨horigins.act hconnect, ?_, heard_apply hheard hclose fun closing hc c ls hls =>
    (hclosing closing hc c ls hls).2.2⟩
  cases a with
  | connect r => exact absurd rfl (hconnect r)
  | close c => exact absurd rfl (hclose c)
  | forget c => exact absurd rfl (hforget c)
  | strip s =>
    have hends : s ∈ (st.meets e).ends e.event := ends_of_completes ha
    have hs : s < st.nextSession := lt_nextSession_of_ends hreached henabled hends
    simp only [Act.apply]
    refine hwatched.removeAllListeners fun hlt => ?_
    rw [horigins.socket s hs] at hlt ⊢
    exact hclosed _ (hguard.ends s ha (horigins.nextSocket ▸ hlt))
  | destroy c =>
    simp only [Act.apply]
    exact hwatched.updateSocket rfl rfl (fun hlt hopen => ⟨hwatched.error c hlt hopen,
      hwatched.close c hlt hopen⟩) (fun hle => (hwatched.fresh c hle).2) (hwatched.first c)
  | endSocket s =>
    simp only [Act.apply]
    exact hwatched.updateSocket rfl rfl (fun hlt hopen => ⟨hwatched.error _ hlt hopen,
      hwatched.close _ hlt hopen⟩) (fun hle => (hwatched.fresh _ hle).2) (hwatched.first _)
  | listen c s =>
    obtain ⟨m, rest, i, _, hf⟩ := ha
    refine hwatched.listen ?_
    rw [horigins.nextSocket]
    exact loop_lt_nextSocket hreached _ (List.mem_of_getElem? hf) c rfl
  | setClosing closing =>
    refine hwatched.setClosing hheard fun c ls hls => ?_
    obtain ⟨hc, hlt, hacceptor⟩ := hclosing closing rfl c ls hls
    exact ⟨horigins.closed c hc, horigins.nextSocket ▸ hlt, hacceptor⟩
  | shut =>
    obtain ⟨i, hi, hf⟩ := ha
    have hshuts : st.shuts e.event = true := by
      have hf' : st.tasks[i]? = some .closeAllSockets := hf
      simp [hi, AcceptorState.shuts, hf']
    exact hwatched.shut fun c hlt => hclosed c (hguard.shuts hshuts c (horigins.nextSocket ▸ hlt))
  | _ => exact hwatched.congr (sameSockets_apply rfl st')

/-- After the acceptor has forgotten a socket, the rest of its listener ends the sessions on it. -/
theorem path_acceptorListener {ls : List CloseListener}
    (hclosing : st.closing = some (c, .acceptor :: ls)) :
    Path Act.apply (cleanupActs st c 0 st.registry.values ∪
        {a | a = .setClosing none ∨ ∃ err, a = .observe (.uncaught err)})
      ((Act.forget c).apply ((Act.setClosing (some (c, ls))).apply st))
      (callNextListener.after st) := by
  have hcleanup : Performs (cleanupActs st c 0 st.registry.values ∪
        {a | a = .setClosing none ∨ ∃ err, a = .observe (.uncaught err)})
      ((Act.forget c).apply ((Act.setClosing (some (c, ls))).apply st))
      (cleanupSocketSessions c) := by
    have hinput : ((Act.forget c).apply ((Act.setClosing (some (c, ls))).apply st)).input =
        st.input := rfl
    refine performs_cleanupSocketSessions hinput (SameSetup.refl st) ?_
    exact Set.subset_union_left
  unfold callNextListener
  rw [after_bind_of_ok (result_get st), hclosing]
  dsimp only
  rw [after_bind_of_ok (result_modify _ st)]
  unfold callCloseListener
  rw [after_attempt_bind_of_ok (result_modify _ _)]
  refine Does.bind hcleanup.attempt fun result _ => ?_
  cases result with
  | ok _ => exact Does.pure ()
  | error err =>
    exact Does.bind (performs_observe (Or.inr (Or.inr ⟨err, rfl⟩))) fun _ _ =>
      Does.modify (.setClosing none) (Or.inr (Or.inl rfl)) rfl

/-- The acceptor has heard of a `close` event once it is no more the next to be called. -/
theorem Watched.heard (h : Watched st)
    (hnext : ∀ c ls, st.closing ≠ some (c, .acceptor :: ls)) : st.Heard := by
  intro c ls hls hmem
  cases ls with
  | nil => cases hmem
  | cons l ls =>
    rcases List.mem_cons.mp hmem with rfl | hmem
    · exact hnext c ls hls
    · exact (h.closing c _ hls).2.2 hmem

/-- The acceptor's own listener keeps the sockets that are still open watched. -/
theorem Watched.acceptorListener (h : Watched st) (hreached : acceptor.Reached guard st)
    (hguard : KeepsWatch st e) (henabled : st.enabled e.event = true)
    (hevent : e.event = .nextListener) {ls : List CloseListener}
    (hclosing : st.closing = some (c, .acceptor :: ls)) :
    Watched (callNextListener.after (st.meets e)) := by
  have hmeets : Watched (st.meets e) := h.congr ⟨rfl, rfl, rfl, rfl⟩
  have hstart : KeptOn st ((Act.forget c).apply ((Act.setClosing (some (c, ls))).apply
      (st.meets e))) := by
    refine ⟨⟨rfl, fun _ => id, Nat.le_refl _, fun _ _ => rfl⟩, hmeets.forget hclosing, ?_⟩
    intro c' ls' hls'
    obtain rfl : ls = ls' := congrArg Prod.snd (Option.some.inj hls')
    exact (h.closing c _ hclosing).2.2
  have hclosing' : (st.meets e).closing = some (c, .acceptor :: ls) := hclosing
  have hpath := path_acceptorListener hclosing'
  refine (hpath.keeps (P := KeptOn st) (fun st1 a _ ha hkept => ?_) hstart).watched
  have hmem : a ∈ nextListenerActs (st.meets e) := by
    unfold nextListenerActs
    rw [show (st.meets e).closing = st.closing from rfl, hclosing]
    rcases ha with ha | rfl | ⟨err, rfl⟩
    · exact Or.inl (Or.inr ha)
    · exact Or.inr (Or.inr (Or.inl rfl))
    · exact Or.inr (Or.inr (Or.inr ⟨err, rfl⟩))
  have hcause : a.CausedBy (st.meets e) e.event := by
    rw [hevent]
    exact causedBy_of_mem (e := .nextListener) hmem
  refine hkept.act hreached h henabled hguard hcause ?_ ?_ ?_
  all_goals
    rintro x rfl
    rcases ha with ⟨s, _, _, (ha | ha | ha | ⟨_, ha⟩) | ⟨_, ha | ha⟩⟩ | ha | ⟨err, ha⟩ <;> cases ha

/-- Every step that meets the condition keeps open sockets watched. -/
theorem Watched.step (h : Watched st) (hreached : acceptor.Reached guard st)
    (hguard : KeepsWatch st e) (hstep : st.step e = some st') : Watched st' := by
  have henabled := step_enabled hstep
  have hmeets : Watched (st.meets e) := h.congr ⟨rfl, rfl, rfl, rfl⟩
  have hafter := after_of_step hstep
  by_cases hnext : ∀ c ls, st.closing ≠ some (c, .acceptor :: ls)
  · have hopens : (∃ r, e.event = .connect r) ∨ (∃ c, e.event = .close c) ∨
        (∀ r, e.event ≠ .connect r) ∧ ∀ c, e.event ≠ .close c := by
      cases e.event <;> simp
    rcases hopens with ⟨r, hr⟩ | ⟨c, hc⟩ | ⟨hconnect, hclose⟩
    · have hnone := closing_eq_none henabled (by simp [hr])
      have hfresh := hguard.fresh r (by simp [hr, Event.remoteAddress])
      rw [hr] at hafter
      rw [← hafter]
      exact hmeets.connect hnone hfresh
    · have hnone := closing_eq_none henabled (by simp [hc])
      rw [hc] at hafter henabled
      rw [← hafter, perform, after_beginClose]
      simp only [AcceptorState.enabled, Bool.and_eq_true, decide_eq_true_eq,
        Bool.not_eq_true'] at henabled
      exact hmeets.beginClose hnone henabled.2.1.2 henabled.2.2
    · have hstart : KeptOn st (st.meets e) :=
        ⟨⟨rfl, fun _ => id, Nat.le_refl _, fun _ _ => rfl⟩, hmeets, h.heard hnext⟩
      refine (step_keeps hstep (P := KeptOn st) hstart fun st1 a _ ha hkept => ?_).watched
      refine hkept.act hreached h henabled hguard ha ?_ ?_ ?_
      · rintro r rfl
        exact hconnect r ha
      · rintro c rfl
        exact hclose c ha
      · rintro c rfl
        obtain ⟨_, ls, hls⟩ := ha
        exact hnext c ls hls
  · push Not at hnext
    obtain ⟨c, ls, hclosing⟩ := hnext
    have hevent : e.event = .nextListener := by
      by_contra hne
      rw [closing_eq_none henabled hne] at hclosing
      cases hclosing
    rw [hevent] at hafter
    rw [← hafter]
    exact h.acceptorListener hreached hguard henabled hevent hclosing

/-- In every run in which no session of an open socket is ended, and no open socket is given up
by `stop`, the acceptor watches exactly the open sockets. -/
theorem watchesSockets_of_reached (h : acceptor.Reached KeepsWatch st) : st.WatchesSockets := by
  have hwatched : Watched st := by
    induction h with
    | init hinit =>
      obtain ⟨config, rfl⟩ := hinit
      refine ⟨fun _ hc => ?_, fun _ hc => ?_, fun a c => ?_, fun _ _ => ⟨rfl, rfl⟩,
        fun _ => List.not_mem_nil, fun _ _ hclosing => ?_⟩
      · cases hc
      · cases hc
      · refine iff_of_false (fun hget => ?_) fun hc => ?_
        · cases hget
        · cases hc.1
      · cases hclosing
    | step hreached hguard hstep ih => exact ih.step hreached hguard hstep
  exact hwatched.watchesSockets

/-- A client logs on over one of two connections and leaves; the other one stays open. -/
theorem watchesSockets_leavingSteps : ∃ st ∈ acceptor.exec (broker 0)
    (leavingSteps ++ [(Event.connect (js "client:2")).calmly]),
      st.nextSocket = 2 ∧ st.WatchesSockets := by
  have hguarded : acceptor.Guarded KeepsWatch (broker 0)
      (leavingSteps ++ [(Event.connect (js "client:2")).calmly]) := by decide +kernel
  have hrun : ∃ st ∈ acceptor.exec (broker 0)
      (leavingSteps ++ [(Event.connect (js "client:2")).calmly]), st.nextSocket = 2 := by
    decide +kernel
  obtain ⟨st, hst, hnext⟩ := hrun
  have hreached : acceptor.Reached KeepsWatch (broker 0) := .init ⟨_, rfl⟩
  exact ⟨st, hst, hnext, watchesSockets_of_reached (hreached.exec hguarded hst)⟩

/-- A client logs on and off; its connection is still open. -/
def departingSteps : List Step :=
  (Event.connect (js "client:1")).calmly :: logonSteps 0 (js "CLIENT") ++
    [(Event.data 0 (clientBytes (js "5") (js "CLIENT") [])).calmly]

/-- An error of the connection would now be thrown. -/
theorem not_watchesSockets_departing :
    ∃ st ∈ acceptor.exec (broker 0) departingSteps, ¬ st.WatchesSockets := by
  have hrun : ∃ st ∈ acceptor.exec (broker 0) departingSteps, 0 < st.nextSocket ∧
      (st.sockets 0).closed = false ∧ (st.sockets 0).errorListener = false := by decide +kernel
  obtain ⟨st, hst, hlt, hclosed, hlistener⟩ := hrun
  refine ⟨st, hst, fun h => ?_⟩
  have hopen : ¬ st.hasClosed 0 := fun hdone => Bool.eq_false_iff.mp hclosed hdone.1
  rw [h.error 0 hlt hopen] at hlistener
  cases hlistener

end NestQuickfix.Acceptor
