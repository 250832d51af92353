import NestQuickfix.Acceptor.Performs
import NestQuickfix.Lib.Run
import NestQuickfix.Service.FixService

/-!
# Callers of the service and their rooms

A caller names a room and then sends. All callers share the room that the service stores, so
a message reaches the room its caller has named if the last `to` of any caller has named the
same sessions, and no other `send` has ended since.
-/

namespace NestQuickfix.Service

open Lib Lib.Exec Acceptor

/-- What is recorded of a run about targets. -/
inductive CallFact where
  | named (caller : ℕ) (targetId : JSString)
  | called (caller : ℕ)
  /-- A call of `send` has ended. -/
  | ended
  deriving DecidableEq

/-- Whether `send` ends at once, because its room is empty. -/
def FixService.endsAtOnce (st : FixService) : Bool :=
  st.target.any fun targetId => st.acceptor.rooms.getSessionsInRoom targetId = []

/-- What a call adds to the record. -/
def FixService.callFacts (st : FixService) : Call → List CallFact
  | .acceptor _ => []
  | .toTarget caller targetId => [.named caller targetId]
  | .send caller _ _ => .called caller :: if st.endsAtOnce then [.ended] else []
  | .settled => [.ended]

/-- The service with the record of its targets. -/
abbrev recordedService : System (FixService × List CallFact) Call :=
  service.recorded FixService.callFacts

/-- The room that a caller has named for its next `send`, after one more fact. -/
def CallFact.own (caller : ℕ) (targetId : Option JSString) : CallFact → Option JSString
  | .named i targetId' => if i = caller then some targetId' else targetId
  | .called i => if i = caller then none else targetId
  | .ended => targetId

/-- The room that a caller has named for its next `send`. -/
def ownTarget (facts : List CallFact) (caller : ℕ) : Option JSString :=
  facts.foldl (CallFact.own caller) none

/-- The room that any caller has named since a `send` has ended, after one more fact. -/
def CallFact.current (targetId : Option JSString) : CallFact → Option JSString
  | .named _ targetId' => some targetId'
  | .called _ => targetId
  | .ended => none

/-- The room that any caller has named last, if no `send` has ended since. -/
def currentTarget (facts : List CallFact) : Option JSString := facts.foldl CallFact.current none

/-- A call of `send` does not throw, and passes its message to exactly the sessions in a room. -/
def FixService.DeliversTo (st : FixService) (message : Message) (targetId : JSString) : Prop :=
  ∃ st', (FixService.send message).result st = (.ok (), st') ∧
    ∃ deliveries, st'.sent = st.sent ++ deliveries ∧ deliveries.Perm
      ((st.sessionsInRoom targetId).map fun s => (s, st.addressed message s))

/-- A message goes to the sessions in the room that its caller has named. -/
def Undisturbed (p : FixService × List CallFact) : Call → Prop
  | .send caller message input =>
    ∀ targetId ∈ ownTarget p.2 caller, (p.1.meets input).DeliversTo message targetId
  | _ => True

/-- The condition: when a caller sends, the last `to` of any caller has named a room with the
same sessions, other than the empty string, and no `send` has ended since. -/
def KeepsTarget (p : FixService × List CallFact) : Call → Prop
  | .send caller _ _ => ∀ targetId ∈ ownTarget p.2 caller, ∃ current ∈ currentTarget p.2,
    current ≠ [] ∧ (p.1.sessionsInRoom current).Perm (p.1.sessionsInRoom targetId)
  | _ => True

instance : ∀ (p : FixService × List CallFact) (e : Call), Decidable (KeepsTarget p e)
  | p, .send caller _ _ => inferInstanceAs (Decidable (∀ targetId ∈ ownTarget p.2 caller,
      ∃ current ∈ currentTarget p.2, current ≠ [] ∧
        (p.1.sessionsInRoom current).Perm (p.1.sessionsInRoom targetId)))
  | _, .acceptor _ | _, .toTarget .. | _, .settled => inferInstanceAs (Decidable True)

variable {guard : FixService × List CallFact → Call → Prop} {p : FixService × List CallFact}
  {st st' : FixService} {message : Message}

/-! ## Sending -/

/-- Sending a message keeps the configurations of all sessions. -/
theorem config_startSend (st : AcceptorState) (s : ℕ) (m : Message) (y : ℕ) :
    (((startSend s m).after st).sessions y).config = (st.sessions y).config := by
  have hpath : Performs (sendActs s) st (startSend s m) := performs_startSend s m fun _ => id
  refine hpath.eq_of (f := fun st => (st.sessions y).config) ?_
  rintro st1 a (rfl | ⟨_, _, rfl⟩)
  · rw [sessions_apply_eq]
    unfold Act.onSession
    dsimp only
    split <;> rfl
  · rfl

/-- The loop of `send` passes the message to all sessions of the list. -/
theorem result_delivers (message : Message) (sessions : List ℕ) (st : FixService) :
    ∃ st', (Exec.forEach sessions (deliver message)).result st = (.ok (), st') ∧
      st'.targetId = st.targetId ∧
      st'.sent = st.sent ++ sessions.map fun s => (s, st.addressed message s) := by
  induction sessions generalizing st with
  | nil => exact ⟨st, rfl, rfl, (List.append_nil _).symm⟩
  | cons s sessions ih =>
    obtain ⟨st1, hst1⟩ : ∃ st1, st1 = { st with
      acceptor := (startSend s (st.addressed message s)).after st.acceptor
      sent := st.sent ++ [(s, st.addressed message s)] } := ⟨_, rfl⟩
    have hr1 : (deliver message s).result st = (.ok (), st1) := by
      rw [hst1]
      rfl
    obtain ⟨st', hr, htarget, hsent⟩ := ih st1
    have haddressed : st1.addressed message = st.addressed message := by
      funext y
      unfold FixService.addressed
      rw [hst1]
      dsimp only
      rw [config_startSend]
    refine ⟨st', ?_, ?_, ?_⟩
    · rw [Exec.forEach, result_bind, hr1]
      exact hr
    · rw [htarget, hst1]
    · rw [hsent, haddressed, hst1, List.append_assoc]
      rfl

/-- Without a target `send` throws. -/
theorem result_send_of_none (h : st.target = none) : (FixService.send message).result st =
    (.error (js "Target ID must be specified using to() method"), st) := by
  unfold FixService.send
  rw [result_bind, result_get]
  dsimp only
  rw [h]
  rfl

/-- With a target `send` passes the message to the sessions in the room, and ends at once if
the room lists no session. -/
theorem result_send_of_some (message : Message) {targetId : JSString}
    (h : st.target = some targetId) :
    ∃ st', (FixService.send message).result st = (.ok (), st') ∧
      st'.targetId = (if st.endsAtOnce then none else st.targetId) ∧
      st'.sent = st.sent ++
        (st.sessionsInRoom targetId).map fun s => (s, st.addressed message s) := by
  have hends : st.endsAtOnce = decide (st.acceptor.rooms.getSessionsInRoom targetId = []) := by
    rw [FixService.endsAtOnce, h, Option.any_some]
  unfold FixService.send
  rw [result_bind, result_get]
  dsimp only
  rw [h, hends]
  dsimp only
  by_cases hempty : st.acceptor.rooms.getSessionsInRoom targetId = []
  · rw [if_pos hempty, if_pos (decide_eq_true hempty)]
    refine ⟨_, result_modify _ st, rfl, ?_⟩
    have hnone : st.sessionsInRoom targetId = [] := by
      rw [FixService.sessionsInRoom, hempty]
      rfl
    rw [hnone]
    exact (List.append_nil _).symm
  · rw [if_neg hempty, if_neg fun h => hempty (of_decide_eq_true h)]
    obtain ⟨st', hr, htarget, hsent⟩ := result_delivers message (st.sessionsInRoom targetId) st
    rw [result_bind, hr]
    exact ⟨_, result_modify _ st', htarget, hsent⟩

/-- A call of `send` delivers to a room exactly when it has a target with the same sessions. -/
theorem deliversTo_iff {targetId : JSString} : st.DeliversTo message targetId ↔
    ∃ current, st.target = some current ∧
      (st.sessionsInRoom current).Perm (st.sessionsInRoom targetId) := by
  have hinj : Function.Injective fun s => (s, st.addressed message s) :=
    fun _ _ h => congrArg Prod.fst h
  unfold FixService.DeliversTo
  cases htarget : st.target with
  | none =>
    rw [result_send_of_none htarget]
    refine ⟨?_, ?_⟩
    · rintro ⟨st', hr, _⟩
      cases (Prod.mk.inj hr).1
    · rintro ⟨current, hcurrent, _⟩
      cases hcurrent
  | some current =>
    obtain ⟨st1, hr, _, hsent⟩ := result_send_of_some message htarget
    rw [hr]
    constructor
    · rintro ⟨st', hr', deliveries, hsent', hperm⟩
      obtain rfl := (Prod.mk.inj hr').2
      have hsame := List.append_cancel_left (hsent'.symm.trans hsent)
      rw [hsame] at hperm
      exact ⟨current, rfl, (List.map_perm_map_iff hinj).mp hperm⟩
    · rintro ⟨current', hcurrent, hperm⟩
      obtain rfl := Option.some.inj hcurrent
      exact ⟨st1, rfl, _, hsent, hperm.map _⟩

/-! ## Runs -/

/-- The stored target after a call of `send`. -/
theorem targetId_send (message : Message) (st : FixService) :
    ((FixService.send message).after st).targetId =
      if st.endsAtOnce then none else st.targetId := by
  rw [Exec.after]
  cases htarget : st.target with
  | none =>
    rw [result_send_of_none htarget, FixService.endsAtOnce, htarget]
    rfl
  | some targetId =>
    obtain ⟨st', hr, hstored, _⟩ := result_send_of_some message htarget
    rw [hr]
    exact hstored

/-- A call changes the stored target as it changes the record. -/
theorem targetId_perform (st : FixService) (e : Call) :
    (st.perform e).targetId = (st.callFacts e).foldl CallFact.current st.targetId := by
  cases e with
  | acceptor e => rfl
  | toTarget caller targetId => rfl
  | send caller message input =>
    refine (targetId_send message (st.meets input)).trans ?_
    have hends : (st.meets input).endsAtOnce = st.endsAtOnce := rfl
    have hstored : (st.meets input).targetId = st.targetId := rfl
    rw [hends, hstored, FixService.callFacts, List.foldl_cons]
    split <;> rfl
  | settled => rfl

/-- In every run the service stores the room that any caller has named last, until a `send`
ends. -/
theorem targetId_of_reached (h : recordedService.Reached guard p) :
    p.1.targetId = currentTarget p.2 := by
  induction h with
  | init hinit =>
    obtain ⟨⟨config, hst⟩, hfacts⟩ := hinit
    rw [hst, hfacts]
    rfl
  | @step p p' e _ _ hstep ih =>
    obtain ⟨hservice, hfacts⟩ := System.recorded_step.mp hstep
    have hperform : p.1.perform e = p'.1 := by
      dsimp only [service] at hservice
      split at hservice
      · exact Option.some.inj hservice
      · cases hservice
    rw [← hperform, targetId_perform, ih, hfacts, currentTarget, currentTarget, List.foldl_append]

/-- A message goes to the sessions in the room its caller has named exactly when the condition
holds. -/
theorem undisturbed_iff (h : recordedService.Reached guard p) (e : Call) :
    Undisturbed p e ↔ KeepsTarget p e := by
  cases e with
  | acceptor e => exact Iff.rfl
  | toTarget caller targetId => exact Iff.rfl
  | settled => exact Iff.rfl
  | send caller message input =>
    refine forall₂_congr fun targetId _ => deliversTo_iff.trans ?_
    have htarget : (p.1.meets input).target =
        (currentTarget p.2).filter fun targetId => targetId ≠ [] := by
      rw [← targetId_of_reached h]
      rfl
    have hsessions : ∀ roomId,
        (p.1.meets input).sessionsInRoom roomId = p.1.sessionsInRoom roomId := fun _ => rfl
    rw [htarget]
    simp only [hsessions, Option.filter_eq_some_iff, decide_eq_true_eq, and_assoc,
      Option.mem_def]

/-- In every run of callers, of the acceptor and of ends of `send`, all messages go to the
sessions in the rooms their callers have named exactly when every call meets the condition. -/
theorem undisturbed_guarded_iff (config : AcceptorConfig) (es : List Call) :
    recordedService.Guarded Undisturbed (⟨.new config, none, 0, []⟩, []) es ↔
      recordedService.Guarded KeepsTarget (⟨.new config, none, 0, []⟩, []) es :=
  System.Reached.guarded_congr (fun _ e h => undisturbed_iff h e) (fun _ _ => trivial)
    (.init ⟨⟨config, rfl⟩, rfl⟩)

/-- Two clients log on and join a room each. -/
def roomCalls : List Call :=
  ((Event.connect (js "client:1")).calmly :: (Event.connect (js "client:2")).calmly ::
    logonSteps 0 (js "ALICE") ++ logonSteps 1 (js "BOB") ++
    ([Event.join 0 (js "bonds"), .join 1 (js "shares")].map Event.calmly)).map .acceptor

/-- The message of a caller. -/
def quote : Message := .ofStrings [(35, js "S"), (117, js "1")]

/-- Two callers name their rooms before either of them sends. -/
def crossedCalls : List Call :=
  roomCalls ++ [.toTarget 0 (js "bonds"), .toTarget 1 (js "shares")]

/-- A caller names a room while the writes of the other one are waited for. -/
def interruptedCalls : List Call :=
  roomCalls ++ [.toTarget 0 (js "bonds"), .send 0 quote .calm, .toTarget 1 (js "shares"), .settled]

/-- The message of the first caller goes to the session of the second one, and the message of
a caller whose room was cleared goes to no session. -/
theorem not_undisturbed :
    (∃ p ∈ recordedService.exec (⟨broker 0, none, 0, []⟩, []) crossedCalls,
      ¬ Undisturbed p (.send 0 quote .calm)) ∧
    ∃ p ∈ recordedService.exec (⟨broker 0, none, 0, []⟩, []) interruptedCalls,
      ¬ Undisturbed p (.send 1 quote .calm) := by
  have hcrossed : ∃ p ∈ recordedService.exec (⟨broker 0, none, 0, []⟩, []) crossedCalls,
      ¬ KeepsTarget p (.send 0 quote .calm) := by decide +kernel
  have hinterrupted : ∃ p ∈ recordedService.exec (⟨broker 0, none, 0, []⟩, []) interruptedCalls,
      ¬ KeepsTarget p (.send 1 quote .calm) := by decide +kernel
  have hreached : ∀ {calls p}, p ∈ recordedService.exec (⟨broker 0, none, 0, []⟩, []) calls →
      recordedService.Reached (fun _ _ => True) p := fun hp => .of_exec ⟨⟨_, rfl⟩, rfl⟩ hp
  constructor
  · obtain ⟨p, hp, hkeeps⟩ := hcrossed
    exact ⟨p, hp, fun h => hkeeps ((undisturbed_iff (hreached hp) _).mp h)⟩
  · obtain ⟨p, hp, hkeeps⟩ := hinterrupted
    exact ⟨p, hp, fun h => hkeeps ((undisturbed_iff (hreached hp) _).mp h)⟩

end NestQuickfix.Service
