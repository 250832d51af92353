import NestQuickfix.Acceptor.WellFormed

/-!
# Isolation of connections

A message other than Logon is passed to the session registered under the CompIDs the
message carries, whatever connection it came on. Connections are isolated exactly as
long as none of them names the session of another one.
-/

namespace NestQuickfix.Acceptor

open Lib Lifecycle

/-- A dispatched message came on the socket of the session it was passed to. -/
def Observation.Isolated (st : AcceptorState) : Observation → Prop
  | .dispatched c s _ => (st.sessions s).socket = c
  | _ => True

instance (st : AcceptorState) : (o : Observation) → Decidable (o.Isolated st)
  | .dispatched c s _ => inferInstanceAs (Decidable ((st.sessions s).socket = c))
  | .processing .. | .wrote .. | .answered _ | .refused .. | .ran .. | .emitted .. | .handled ..
  | .failed _ | .unhandled .. | .rejected .. | .uncaught _ => inferInstanceAs (Decidable True)

/-- All messages were passed to sessions of the connections they came on. -/
def AcceptorState.Isolated (st : AcceptorState) : Prop := ∀ o ∈ st.trace, o.Isolated st

instance (st : AcceptorState) : Decidable st.Isolated :=
  inferInstanceAs (Decidable (∀ o ∈ st.trace, o.Isolated st))

/-- The session, if any, that is registered under the CompIDs of the message whose
processing the event begins, belongs to the connection of the message. -/
def NamesOwnSession (st : AcceptorState) (e : Step) : Prop :=
  ∀ p ∈ st.incoming e.event, ∀ m ∈ p.2.head?, ∀ s ∈ st.lifecycle.routed m,
    (st.sessions s).socket = p.1

instance : ∀ (st : AcceptorState) (e : Step), Decidable (NamesOwnSession st e) := fun st e =>
  inferInstanceAs (Decidable (∀ p ∈ st.incoming e.event, ∀ m ∈ p.2.head?,
    ∀ s ∈ st.lifecycle.routed m, (st.sessions s).socket = p.1))

/-! ## Dispatches -/

variable {k k' : Lifecycle} {c s : ℕ} {m : Message}

theorem dispatched_observe {o : Observation} (ho : ∀ c s m, o ≠ .dispatched c s m) :
    .dispatched c s m ∈ (k.observe o).trace ↔ .dispatched c s m ∈ k.trace := by
  rw [Lifecycle.observe, List.mem_append, List.mem_singleton, or_iff_left]
  exact fun heq => ho c s m heq.symm

theorem dispatched_tearDowns {ss : List ℕ} (h : TearDowns ss k k') :
    .dispatched c s m ∈ k'.trace ↔ .dispatched c s m ∈ k.trace :=
  h.mem_trace (by simp [disconnectReports])

theorem dispatched_handled {x : ℕ} {n : Message} (h : Handled x n k k') :
    .dispatched c s m ∈ k'.trace ↔ .dispatched c s m ∈ k.trace := by
  cases h with
  | unanswered => rfl
  | answered => exact dispatched_observe (k := k.logOn x) (by simp)
  | logout _ hk => exact dispatched_tearDowns hk
  | other => rfl

theorem dispatched_registered {x : ℕ} (h : Registered x k k') :
    .dispatched c s m ∈ k'.trace ↔ .dispatched c s m ∈ k.trace := by
  cases h with
  | stored => rfl
  | refused => rfl
  | unhandled => exact dispatched_observe (by simp)

theorem dispatched_registering {states : ℕ → SessionState} {x : ℕ}
    (h : Registering states x k k') :
    .dispatched c s m ∈ k'.trace ↔ .dispatched c s m ∈ k.trace := by
  cases h with
  | finished _ hk => exact dispatched_registered hk
  | retry => rfl
  | waiting => rfl

/-- The messages a step passes to a session. -/
def AcceptorState.Dispatches (st : AcceptorState) (e : Step) (c s : ℕ) (m : Message) : Prop :=
  ∃ ms, st.incoming e.event = some (c, ms) ∧ ms.head? = some m ∧ st.lifecycle.routed m = some s

/-- A change adds the message that is routed, and no other. -/
theorem dispatched_change {st : AcceptorState} {e : Step} (h : Change st e k') :
    .dispatched c s m ∈ k'.trace ↔
      .dispatched c s m ∈ st.lifecycle.trace ∨ st.Dispatches e c s m := by
  have hkept : ∀ {k0 k1 : Lifecycle}, st.incoming e.event = none →
      (.dispatched c s m ∈ k1.trace ↔ .dispatched c s m ∈ k0.trace) →
      k0.trace = st.lifecycle.trace → k'.trace = k1.trace →
      (.dispatched c s m ∈ k'.trace ↔
        .dispatched c s m ∈ st.lifecycle.trace ∨ st.Dispatches e c s m) := by
    intro k0 k1 hnone hmem h0 h1
    rw [h1, hmem, h0, or_iff_left]
    rintro ⟨ms, hms, _⟩
    rw [hnone] at hms
    cases hms
  have hresume : ∀ {i : ℕ} {frame : Frame}, st.tasks[i]? = some frame →
      (∀ c rest, frame ≠ .nextMessage c rest) → st.incoming (.resume i) = none := by
    intro i frame hf hn
    unfold AcceptorState.incoming
    dsimp only
    rw [hf]
    cases frame with
    | nextMessage c rest => exact absurd rfl (hn c rest)
    | _ => rfl
  cases h with
  | kept h => exact hkept h Iff.rfl rfl rfl
  | processed h hk =>
    cases hk with
    | routed hm hs hk =>
      rw [dispatched_handled hk, Lifecycle.observe, List.mem_append, List.mem_singleton]
      refine or_congr_right ⟨fun heq => ?_, fun ⟨ms, hms, hm', hs'⟩ => ?_⟩
      · cases heq
        exact ⟨_, h, hm, hs⟩
      · rw [h] at hms
        obtain ⟨rfl, rfl⟩ := Prod.mk.inj (Option.some.inj hms)
        obtain rfl := Option.some.inj (hm.symm.trans hm')
        obtain rfl := Option.some.inj (hs.symm.trans hs')
        rfl
    | unrouted hnone =>
      rw [or_iff_left]
      rintro ⟨ms, hms, hm, hs⟩
      rw [h] at hms
      obtain ⟨rfl, rfl⟩ := Prod.mk.inj (Option.some.inj hms)
      rw [hm, Option.bind_some, hs] at hnone
      cases hnone
  | connected => exact hkept rfl Iff.rfl rfl rfl
  | created hf hk => exact hkept (hresume hf (by simp)) (dispatched_registering hk) rfl rfl
  | started hf hk => exact hkept (hresume hf (by simp)) (dispatched_handled hk) rfl rfl
  | @loggedOut _ _ caller _ _ k1 hf hk =>
    refine hkept (hresume hf (by simp)) (dispatched_tearDowns hk) ?_ ?_
    · rw [taken_eq]
    · rw [settled_eq]
  | registered hf hk => exact hkept (hresume hf (by simp)) (dispatched_registered hk) rfl rfl
  | cleared hf => exact hkept (hresume hf (by simp)) Iff.rfl rfl rfl
  | closed => exact hkept rfl Iff.rfl rfl rfl
  | ended => exact hkept rfl Iff.rfl rfl rfl
  | cleaned _ hk => exact hkept rfl (dispatched_tearDowns hk) rfl rfl
  | listened _ hk => exact hkept rfl (dispatched_tearDowns hk.tearDowns) rfl rfl
  | threw _ hk => exact hkept rfl (dispatched_tearDowns hk.tearDowns) rfl rfl
  | handled hk => exact hkept rfl (dispatched_handled hk) rfl rfl
  | created' => exact hkept rfl Iff.rfl rfl rfl
  | stored => exact hkept rfl Iff.rfl rfl rfl
  | registering hk => exact hkept rfl (dispatched_registering hk) rfl rfl
  | removed => exact hkept rfl Iff.rfl rfl rfl

/-! ## Runs -/

theorem isolated_iff {st : AcceptorState} :
    st.Isolated ↔ ∀ c s m, .dispatched c s m ∈ st.lifecycle.trace → (st.sessions s).socket = c := by
  constructor
  · intro h c s m hmem
    exact h _ (List.mem_of_mem_filter hmem)
  · rintro h (_ | ⟨c, s, m⟩ | _ | _ | _ | _ | _ | _ | _ | _ | _) hmem
    · trivial
    · exact h c s m (List.mem_filter.mpr ⟨hmem, rfl⟩)
    all_goals trivial

/-- A dispatched message was passed to a created session. -/
theorem dispatched_lt_nextSession {guard : AcceptorState → Step → Prop} {st : AcceptorState}
    (h : acceptor.Reached guard st) :
    ∀ c s m, .dispatched c s m ∈ st.lifecycle.trace → s < st.lifecycle.nextSession := by
  have hboth := lifecycle_of_reached (P := fun k => WellFormed k ∧
    ∀ c s m, .dispatched c s m ∈ k.trace → s < k.nextSession)
    (fun config => ⟨wellFormed_new config, fun _ _ _ hd => by cases hd⟩) ?_ ?_ h
  · exact hboth.2
  · rintro k _ ⟨hwf, hlt⟩ ⟨l, hl, rfl⟩
    exact ⟨hwf.lowered ⟨l, hl, rfl⟩, hlt⟩
  · rintro st e k' ⟨hwf, hlt⟩ _ henabled hk'
    refine ⟨hwf.change henabled hk', fun c s m hd => ?_⟩
    refine Nat.lt_of_lt_of_le ?_ (keepsSessions_change hk').nextSession
    rcases (dispatched_change hk').mp hd with hd | ⟨_, _, _, hs⟩
    · exact hlt c s m hd
    · exact lt_nextSession_of_routed hwf hs

/-- One step keeps connections isolated exactly when the message it begins with, if any,
names no session of another connection. -/
theorem isolated_step_iff {st st' : AcceptorState} {e : Step}
    (h : acceptor.Reached (fun _ _ => True) st) (hstep : st.step e = some st') :
    st'.Isolated ↔ st.Isolated ∧ NamesOwnSession st e := by
  obtain ⟨k', hk', hst'⟩ := step_change hstep
  have hwf := wellFormed_of_reached h
  have hmem : ∀ c s m, .dispatched c s m ∈ st'.lifecycle.trace ↔
      .dispatched c s m ∈ st.lifecycle.trace ∨ st.Dispatches e c s m := by
    intro c s m
    rw [hst'.trace]
    exact dispatched_change hk'
  have hsocket : ∀ s, s < st.nextSession → (st'.sessions s).socket = (st.sessions s).socket :=
    fun s hs => (hst'.socket s).trans ((keepsSessions_change hk').socket s hs)
  have hrouted : ∀ m s, st.lifecycle.routed m = some s → s < st.nextSession :=
    fun _ _ => lt_nextSession_of_routed hwf
  rw [isolated_iff, isolated_iff]
  constructor
  · intro hiso
    refine ⟨fun c s m hd => ?_, ?_⟩
    · rw [← hsocket s (dispatched_lt_nextSession h c s m hd)]
      exact hiso c s m ((hmem c s m).mpr (Or.inl hd))
    · rintro ⟨c, ms⟩ hp m hm s hs
      rw [← hsocket s (hrouted m s hs)]
      exact hiso c s m ((hmem c s m).mpr (Or.inr ⟨ms, hp, hm, hs⟩))
  · rintro ⟨hiso, hnames⟩ c s m hd
    rcases (hmem c s m).mp hd with hd | ⟨ms, hp, hm, hs⟩
    · rw [hsocket s (dispatched_lt_nextSession h c s m hd)]
      exact hiso c s m hd
    · rw [hsocket s (hrouted m s hs)]
      exact hnames (c, ms) hp m hm s hs

/-- In a run from the start, every message other than Logon that was passed to a session
came on that session's socket exactly when no message named the session of another
connection. -/
theorem isolated_exec_iff {config : AcceptorConfig} {es : List Step} {st : AcceptorState}
    (h : acceptor.exec (.new config) es = some st) :
    st.Isolated ↔ acceptor.Guarded NamesOwnSession (.new config) es := by
  have hnew : (AcceptorState.new config).Isolated := fun o ho => by cases ho
  rw [System.Reached.exec_iff_guarded (fun _ _ _ => isolated_step_iff) (fun _ _ => trivial)
    (.init ⟨config, rfl⟩) h, and_iff_right hnew]

/-- A client logs on and sends a news message. -/
def newsSteps : List Step :=
  (Event.connect (js "client:1")).calmly :: logonSteps 0 (js "CLIENT") ++
    [(Event.data 0 (clientBytes (js "B") (js "CLIENT") [(148, js "hi")])).calmly]

/-- A client that only uses its own CompIDs. -/
theorem isolated_exec_iff_news : ∃ st ∈ acceptor.exec (broker 0) newsSteps,
    (∃ m, .dispatched 0 0 m ∈ st.trace) ∧
      (st.Isolated ↔ acceptor.Guarded NamesOwnSession (broker 0) newsSteps) := by
  have hrun : ∃ st ∈ acceptor.exec (broker 0) newsSteps,
      ∃ o ∈ st.trace, ∃ m ∈ processData (clientBytes (js "B") (js "CLIENT") [(148, js "hi")]),
        o = .dispatched 0 0 m := by decide +kernel
  obtain ⟨st, hst, _, ho, m, _, rfl⟩ := hrun
  exact ⟨st, hst, ⟨m, ho⟩, isolated_exec_iff hst⟩

/-- A client sends a Logout in the name of another one. -/
def impostorSteps : List Step :=
  (Event.connect (js "client:1")).calmly :: logonSteps 0 (js "CLIENT") ++
    [(Event.connect (js "client:2")).calmly,
      (Event.data 1 (clientBytes (js "5") (js "CLIENT") [])).calmly]

/-- The broker passes the Logout of the impostor to the client's session. -/
theorem not_isolated_impostor :
    ∃ st ∈ acceptor.exec (broker 0) impostorSteps, ¬ st.Isolated := by
  decide +kernel

end NestQuickfix.Acceptor
