import NestQuickfix.Acceptor.Tasks

/-!
# Authenticated sessions

With authentication configured, a session is only created for a Logon that the acceptor has
checked and whose credentials and SenderCompID the user's callbacks have accepted. What they
have answered is kept in the record of a run, so that the answers of suspended validations
are told apart.
-/

namespace NestQuickfix.Acceptor

open Lib Lib.Exec

/-- What is recorded of a run about Logons. -/
inductive LogonFact where
  /-- The loop over a chunk of connection `c` has come to message `m`. -/
  | received (c : ℕ) (m : Message)
  /-- `validateCredentials` has answered for a message. -/
  | credentials (m : Message) (valid : Bool)
  /-- `getAllowedSenderCompIds` has answered for an account. -/
  | allowed (account : Value) (senderCompIds : List Value)
  /-- The acceptor has created session `s` for Logon `m` of connection `c`. -/
  | created (s c : ℕ) (m : Message)
  /-- The application has created a session itself. -/
  | constructed (s : ℕ)
  /-- The application has passed a Logon to `handleMessage` of a session itself. -/
  | handed (s : ℕ)

/-- What a task that goes on adds to the record; `next` is the number of the next session. -/
def Frame.facts (next : ℕ) (input : Input) : Frame → List LogonFact
  | .validateCredentials _ m _ =>
    match input.settled with
    | .ok () => [.credentials m input.credentials]
    | .error _ => []
  | .getAllowedSenderCompIds _ m _ =>
    match input.settled with
    | .ok () => [.allowed (m.getField Fields.account) input.allowedSenderCompIds]
    | .error _ => []
  | .validated c m _ .valid => [.created next c m]
  | _ => []

/-- The message to which the loop over a chunk comes in an event. -/
def AcceptorState.receives (st : AcceptorState) (e : Event) : List LogonFact :=
  match st.incoming e with
  | some (c, m :: _) => [.received c m]
  | _ => []

/-- What a step adds to the record. -/
def AcceptorState.logonFacts (st : AcceptorState) (e : Step) : List LogonFact :=
  st.receives e.event ++
    match e.event with
    | .resume i => (st.tasks[i]?).toList.flatMap (Frame.facts st.nextSession e.input)
    | .newSession _ _ => [.constructed st.nextSession]
    | .createSession _ _ => if st.limitReached then [] else [.constructed st.nextSession]
    | .handleMessage s m =>
      if m.getField Fields.msgType = MsgType.logon then [.handed s] else []
    | _ => []

/-- An acceptor with the record of its Logons. -/
abbrev recordedAcceptor : System (AcceptorState × List LogonFact) Step :=
  acceptor.recorded AcceptorState.logonFacts

/-- A Logon with the required fields that names the acceptor, with valid credentials and an
allowed SenderCompID. -/
structure Authenticated (config : AcceptorConfig) (facts : List LogonFact) (c : ℕ) (m : Message) :
    Prop where
  received : .received c m ∈ facts
  msgType : m.getField Fields.msgType = MsgType.logon
  fields : ∀ field ∈ [Fields.senderCompID, Fields.targetCompID, Fields.heartBtInt,
    Fields.encryptMethod], m.hasField field = true
  targetCompID : m.getField Fields.targetCompID = config.targetCompID
  credentials : .credentials m true ∈ facts
  allowed : ∃ senderCompIds, .allowed (m.getField Fields.account) senderCompIds ∈ facts ∧
    m.getField Fields.senderCompID ∈ senderCompIds

/-- A session was created for an authenticated Logon of its connection and has its CompIDs. -/
structure BornOf (st : AcceptorState) (facts : List LogonFact) (s c : ℕ) (m : Message) : Prop where
  created : .created s c m ∈ facts
  authenticated : Authenticated st.config facts c m
  socket : (st.sessions s).socket = c
  senderCompId : (st.sessions s).config.senderCompId = m.getField Fields.senderCompID
  targetCompId : (st.sessions s).config.targetCompId = m.getField Fields.targetCompID

/-- Every session that is LOGGED_ON was created for an authenticated Logon, unless the
application has created it and passed it a Logon itself. -/
def OnlyAuthenticated (st : AcceptorState) (facts : List LogonFact) : Prop :=
  ∀ s, (st.sessions s).state = .loggedOn →
    (∃ c m, BornOf st facts s c m) ∨ .constructed s ∈ facts ∧ .handed s ∈ facts

/-! ## The record -/

variable {guard : AcceptorState × List LogonFact → Step → Prop} {st st' : AcceptorState} {e : Step}
  {facts facts' : List LogonFact}

theorem received_mem {c : ℕ} {m : Message} {rest : List Message}
    (h : st.incoming e.event = some (c, m :: rest)) : .received c m ∈ st.logonFacts e := by
  refine List.mem_append_left _ ?_
  rw [AcceptorState.receives, h]
  exact List.mem_singleton_self _

/-- The facts of a task that an event goes on with. -/
theorem facts_mem {frame : Frame} (h : st.GoesOn e.event frame) {fact : LogonFact}
    (hfact : fact ∈ frame.facts st.nextSession e.input) : fact ∈ st.logonFacts e := by
  obtain ⟨i, hevent, hf⟩ := h
  refine List.mem_append_right _ ?_
  rw [hevent]
  dsimp only
  rw [hf]
  exact List.mem_flatMap.mpr ⟨frame, List.mem_singleton_self _, hfact⟩

/-- A session is recorded as created by the acceptor in the step that creates it. -/
theorem goesOn_of_created {s c : ℕ} {m : Message} (h : .created s c m ∈ st.logonFacts e) :
    s = st.nextSession ∧ ∃ rest, st.GoesOn e.event (.validated c m rest .valid) := by
  rcases e with ⟨event, input⟩
  rcases List.mem_append.mp h with h | h
  · unfold AcceptorState.receives at h
    split at h
    · cases List.mem_singleton.mp h
    · cases h
  · dsimp only at h
    split at h
    · obtain ⟨frame, hf, hfact⟩ := List.mem_flatMap.mp h
      unfold Frame.facts at hfact
      split at hfact
      · split at hfact <;> simp at hfact
      · split at hfact <;> simp at hfact
      · cases List.mem_singleton.mp hfact
        exact ⟨rfl, _, _, rfl, Option.mem_toList.mp hf⟩
      · cases hfact
    · cases List.mem_singleton.mp h
    · split at h <;> simp at h
    · split at h <;> simp at h
    · cases h

/-- Every new session is recorded. -/
theorem makers_mem (hstep : st.step e = some st') {s : ℕ} (hs : s < st'.nextSession)
    (hnew : ¬ s < st.nextSession) :
    (∃ c m, .created s c m ∈ st.logonFacts e) ∨ .constructed s ∈ st.logonFacts e := by
  rw [nextSession_step hstep] at hs
  split at hs
  · next hmakes =>
    obtain rfl : s = st.nextSession := by omega
    rcases e with ⟨event, input⟩
    unfold AcceptorState.makes at hmakes
    dsimp only at hmakes
    split at hmakes
    · split at hmakes
      · next hf => exact Or.inl ⟨_, _, facts_mem ⟨_, rfl, hf⟩ (List.mem_singleton_self _)⟩
      · cases hmakes
    · exact Or.inr (List.mem_append_right _ (List.mem_singleton_self _))
    · rw [Bool.not_eq_true'] at hmakes
      refine Or.inr (List.mem_append_right _ ?_)
      dsimp only
      rw [hmakes]
      exact List.mem_singleton_self _
    · cases hmakes
  · exact absurd hs hnew

theorem Authenticated.mono {config : AcceptorConfig} {c : ℕ} {m : Message}
    (h : Authenticated config facts c m) (hfacts : facts ⊆ facts') :
    Authenticated config facts' c m := by
  obtain ⟨ids, hids, hmem⟩ := h.allowed
  exact ⟨hfacts h.received, h.msgType, h.fields, h.targetCompID, hfacts h.credentials,
    ids, hfacts hids, hmem⟩

theorem BornOf.mono {s c : ℕ} {m : Message} (h : BornOf st facts s c m)
    (hfacts : facts ⊆ facts') : BornOf st facts' s c m :=
  ⟨hfacts h.created, h.authenticated.mono hfacts, h.socket, h.senderCompId, h.targetCompId⟩

/-! ## The invariant -/

/-- What the record holds of a task for a Logon. -/
def Frame.Backed (config : AcceptorConfig) (facts : List LogonFact) : Frame → Prop
  | .validateCredentials c m _ => .received c m ∈ facts ∧
      m.getField Fields.msgType = MsgType.logon ∧ config.accepts m
  | .getAllowedSenderCompIds c m _ => .received c m ∈ facts ∧
      m.getField Fields.msgType = MsgType.logon ∧ config.accepts m ∧ .credentials m true ∈ facts
  | .validated c m _ .valid => Authenticated config facts c m
  | .created c s m _ => .created s c m ∈ facts
  | .handlersSet c s m _ => .created s c m ∈ facts
  | _ => True

/-- Every task, every session and every LOGGED_ON state is backed by the record. -/
structure Backed (st : AcceptorState) (facts : List LogonFact) : Prop where
  auth : st.config.auth = true
  tasks : ∀ frame ∈ st.tasks, frame.Backed st.config facts
  created : ∀ s c m, .created s c m ∈ facts → s < st.nextSession ∧ BornOf st facts s c m
  makers : ∀ s < st.nextSession, (∃ c m, .created s c m ∈ facts) ∨ .constructed s ∈ facts
  loggedOn : ∀ s, (st.sessions s).state = .loggedOn →
    (∃ c m, .created s c m ∈ facts) ∨ .constructed s ∈ facts ∧ .handed s ∈ facts

theorem Frame.Backed.mono {config : AcceptorConfig} {frame : Frame}
    (h : frame.Backed config facts) (hfacts : facts ⊆ facts') : frame.Backed config facts' := by
  cases frame with
  | validateCredentials c m rest => exact ⟨hfacts h.1, h.2⟩
  | getAllowedSenderCompIds c m rest => exact ⟨hfacts h.1, h.2.1, h.2.2.1, hfacts h.2.2.2⟩
  | validated c m rest verdict =>
    cases verdict with
    | valid => exact Authenticated.mono h hfacts
    | _ => trivial
  | created c s m rest => exact hfacts h
  | handlersSet c s m rest => exact hfacts h
  | _ => trivial

/-- The record backs the tasks that a step suspends. -/
theorem Frame.CausedBy.backed {frame : Frame} (h : frame.CausedBy (st.meets e) e.event)
    (hauth : st.config.auth = true) (htasks : ∀ frame ∈ st.tasks, frame.Backed st.config facts) :
    frame.Backed st.config (facts ++ st.logonFacts e) := by
  have hold : ∀ frame, st.GoesOn e.event frame → frame.Backed st.config facts := by
    rintro frame ⟨i, _, hf⟩
    exact htasks frame (List.mem_of_getElem? hf)
  have hnew : ∀ frame fact, st.GoesOn e.event frame → fact ∈ frame.facts st.nextSession e.input →
      fact ∈ facts ++ st.logonFacts e :=
    fun frame fact hgoes hfact => List.mem_append_right _ (facts_mem hgoes hfact)
  cases frame with
  | validateCredentials c m rest =>
    obtain ⟨hin, hlogon, haccepts⟩ := h
    exact ⟨List.mem_append_right _ (received_mem hin), hlogon, haccepts⟩
  | getAllowedSenderCompIds c m rest =>
    obtain ⟨hgoes, hsettled, hvalid⟩ := h
    obtain ⟨hreceived, hlogon, haccepts⟩ := hold _ hgoes
    refine ⟨List.mem_append_left _ hreceived, hlogon, haccepts, hnew _ _ hgoes ?_⟩
    have hsettled' : e.input.settled = .ok () := hsettled
    have hvalid' : e.input.credentials = true := hvalid
    simp [Frame.facts, hsettled', hvalid']
  | validated c m rest verdict =>
    cases verdict with
    | valid =>
      rcases h.2 rfl with ⟨hnoauth, _⟩ | ⟨hgoes, hsettled, hallowed⟩
      · rw [show (st.meets e).config.auth = st.config.auth from rfl, hauth] at hnoauth
        cases hnoauth
      · obtain ⟨hreceived, hlogon, ⟨hfields, htarget⟩, hcredentials⟩ := hold _ hgoes
        refine ⟨List.mem_append_left _ hreceived, hlogon,
          Message.requireFields_eq_ok_iff.mp hfields, htarget,
          List.mem_append_left _ hcredentials, e.input.allowedSenderCompIds, hnew _ _ hgoes ?_,
          hallowed⟩
        have hsettled' : e.input.settled = .ok () := hsettled
        simp [Frame.facts, hsettled']
    | _ => trivial
  | created c s m rest =>
    obtain ⟨rfl, hgoes⟩ := h
    exact hnew _ _ hgoes (List.mem_singleton_self _)
  | handlersSet c s m rest =>
    have hcreated : .created s c m ∈ facts := hold _ h
    exact List.mem_append_left _ hcreated
  | _ => trivial

/-- The sessions that a step changes to LOGGED_ON. -/
theorem loggedOn_step (hstep : st.step e = some st') {s : ℕ}
    (hs : (st'.sessions s).state = .loggedOn) :
    (st.sessions s).state = .loggedOn ∨ st.logsOn e.event = some s := by
  refine step_keeps hstep (P := fun st1 => ∀ s, (st1.sessions s).state = .loggedOn →
    (st.sessions s).state = .loggedOn ∨ st.logsOn e.event = some s) (fun _ => Or.inl) ?_ s hs
  intro st1 a _ ha ih s hs
  rcases loggedOn_apply hs with hs | rfl
  · exact ih s hs
  · rcases ha with ⟨_, hlogsOn⟩ | ⟨hstate, _⟩ | ⟨hstate, _⟩
    · exact Or.inr hlogsOn
    · cases hstate
    · cases hstate

namespace Backed

theorem born_step (h : Backed st facts) (hstep : st.step e = some st') {s c : ℕ} {m : Message}
    (hs : .created s c m ∈ facts ++ st.logonFacts e) :
    s < st'.nextSession ∧ BornOf st' (facts ++ st.logonFacts e) s c m := by
  have hfacts : facts ⊆ facts ++ st.logonFacts e := List.subset_append_left ..
  rcases List.mem_append.mp hs with hold | hnew
  · obtain ⟨hlt, hborn⟩ := h.created s c m hold
    obtain ⟨hconfig, hsocket⟩ := binding_step hstep hlt
    refine ⟨Nat.lt_of_lt_of_le hlt (nextSession_le_step hstep), hs, ?_, ?_, ?_, ?_⟩
    · rw [config_step hstep]
      exact hborn.authenticated.mono hfacts
    · rw [hsocket, hborn.socket]
    · rw [hconfig, hborn.senderCompId]
    · rw [hconfig, hborn.targetCompId]
  · obtain ⟨rfl, rest, i, hevent, hf⟩ := goesOn_of_created hnew
    obtain ⟨hnext, hconfig, hsocket⟩ := created_step hstep hevent hf
    have hvalid : Authenticated st.config facts c m := h.tasks _ (List.mem_of_getElem? hf)
    refine ⟨?_, hs, ?_, hsocket, ?_, ?_⟩
    · rw [hnext]
      exact Nat.lt_succ_self _
    · rw [config_step hstep]
      exact hvalid.mono hfacts
    · rw [hconfig]
      rfl
    · rw [hconfig]
      rfl

/-- A session only handles Logons that the acceptor or the application has passed to it. -/
theorem logsOn_mem (h : Backed st facts) (henabled : st.enabled e.event = true) {s : ℕ}
    (hs : st.logsOn e.event = some s) :
    (∃ c m, .created s c m ∈ facts ++ st.logonFacts e) ∨
      .constructed s ∈ facts ++ st.logonFacts e ∧ .handed s ∈ facts ++ st.logonFacts e := by
  rcases e with ⟨event, input⟩
  unfold AcceptorState.logsOn at hs
  dsimp only at hs
  split at hs
  · split at hs
    · next s' m hlogon =>
      cases hs
      have hlt : s < st.nextSession := of_decide_eq_true (Bool.and_eq_true_iff.mp henabled).2
      rcases h.makers s hlt with ⟨c, m, hcreated⟩ | hconstructed
      · exact Or.inl ⟨c, m, List.mem_append_left _ hcreated⟩
      · refine Or.inr ⟨List.mem_append_left _ hconstructed, List.mem_append_right _ ?_⟩
        refine List.mem_append_right _ ?_
        dsimp only
        rw [if_pos hlogon]
        exact List.mem_singleton_self _
    · cases hs
  · split at hs
    · next hf =>
      split at hs
      · cases hs
        have hcreated := h.tasks _ (List.mem_of_getElem? hf)
        exact Or.inl ⟨_, _, List.mem_append_left _ hcreated⟩
      · cases hs
    · cases hs
  · cases hs

/-- Every step keeps the record backing. -/
theorem step (h : Backed st facts) (hstep : st.step e = some st') :
    Backed st' (facts ++ st.logonFacts e) := by
  have hfacts : facts ⊆ facts ++ st.logonFacts e := List.subset_append_left ..
  refine ⟨?_, fun frame hframe => ?_, fun s c m hs => h.born_step hstep hs, fun s hs => ?_,
    fun s hs => ?_⟩
  · rw [config_step hstep]
    exact h.auth
  · rw [config_step hstep]
    rcases step_tasks hstep frame hframe with hold | hcause | ⟨k, stopping, rfl⟩
    · exact (h.tasks frame hold).mono hfacts
    · exact hcause.backed h.auth h.tasks
    · trivial
  · by_cases hlt : s < st.nextSession
    · rcases h.makers s hlt with ⟨c, m, hcreated⟩ | hconstructed
      · exact Or.inl ⟨c, m, hfacts hcreated⟩
      · exact Or.inr (hfacts hconstructed)
    · rcases makers_mem hstep hs hlt with ⟨c, m, hcreated⟩ | hconstructed
      · exact Or.inl ⟨c, m, List.mem_append_right _ hcreated⟩
      · exact Or.inr (List.mem_append_right _ hconstructed)
  · rcases loggedOn_step hstep hs with hold | hlogsOn
    · rcases h.loggedOn s hold with ⟨c, m, hcreated⟩ | ⟨hconstructed, hhanded⟩
      · exact Or.inl ⟨c, m, hfacts hcreated⟩
      · exact Or.inr ⟨hfacts hconstructed, hfacts hhanded⟩
    · exact h.logsOn_mem (step_enabled hstep) hlogsOn

end Backed

/-- In every run of an acceptor with authentication, every session that is LOGGED_ON was created
for an authenticated Logon, unless the application has created it and passed it a Logon itself. -/
theorem onlyAuthenticated_of_reached {p : AcceptorState × List LogonFact}
    (h : recordedAcceptor.Reached (fun _ _ => True) p) (hauth : p.1.config.auth = true) :
    OnlyAuthenticated p.1 p.2 := by
  have hbacked : Backed p.1 p.2 := by
    induction h with
    | init hinit =>
      obtain ⟨⟨config, hconfig⟩, hfacts⟩ := hinit
      rw [hconfig] at hauth ⊢
      rw [hfacts]
      refine ⟨hauth, fun _ hs => ?_, fun _ _ _ hs => ?_, fun _ hs => ?_, fun _ hs => ?_⟩
      all_goals cases hs
    | step _ _ hstep ih =>
      obtain ⟨hstep, hfacts⟩ := System.recorded_step.mp hstep
      rw [config_step hstep] at hauth
      rw [hfacts]
      exact (ih hauth).step hstep
  intro s hs
  rcases hbacked.loggedOn s hs with ⟨c, m, hcreated⟩ | hforeign
  · exact Or.inl ⟨c, m, (hbacked.created s c m hcreated).2⟩
  · exact Or.inr hforeign

/-- A broker with authentication. -/
def authenticatingBroker : AcceptorState := .new
  ⟨.str (js "BROKER"), .str (js "FIX.4.4"), true, 0, []⟩

/-- A client logs on, and the callbacks accept it. -/
def acceptedSteps : List Step :=
  (Event.connect (js "client:1") :: .data 0 (logonBytes (js "CLIENT")) ::
    List.replicate 5 (.resume 0)).map fun e =>
      ⟨e, { Input.calm with allowedSenderCompIds := [.str (js "CLIENT")] }⟩

/-- The session of an accepted client is LOGGED_ON. -/
theorem onlyAuthenticated_acceptedSteps :
    ∃ p ∈ recordedAcceptor.exec (authenticatingBroker, []) acceptedSteps,
      (p.1.sessions 0).state = .loggedOn ∧ OnlyAuthenticated p.1 p.2 := by
  have hrun : ∃ p ∈ recordedAcceptor.exec (authenticatingBroker, []) acceptedSteps,
      (p.1.sessions 0).state = .loggedOn ∧ p.1.config.auth = true := by decide +kernel
  obtain ⟨p, hp, hstate, hauth⟩ := hrun
  have hreached : recordedAcceptor.Reached (fun _ _ => True) p := .of_exec ⟨⟨_, rfl⟩, rfl⟩ hp
  exact ⟨p, hp, hstate, onlyAuthenticated_of_reached hreached hauth⟩

end NestQuickfix.Acceptor
