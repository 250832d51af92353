import NestQuickfix.Lib.Exec
import NestQuickfix.Lib.Run
import NestQuickfix.Message.Message

/-!
# The protocol manager

`ProtocolManager.processIncoming` validates a message and then handles it, or queues it until
a Logon has been handled. Handling a Logon drains the queue through the same handler.
-/

namespace NestQuickfix.Protocol

open Lib

/-! ## Validation -/

/-- The fields that `FIX44Validator` requires. -/
def requiredFields : List FieldType :=
  [Fields.beginString, Fields.bodyLength, Fields.msgType, Fields.senderCompID,
    Fields.targetCompID, Fields.msgSeqNum, Fields.sendingTime]

/-- `validateRequiredFields`. -/
def validateRequiredFields (m : Message) : Except JSError Unit := m.requireFields requiredFields

/-- `validateFieldOrder`, which accepts every order. -/
def validateFieldOrder (_ : Message) : Bool := true

/-- `validateLogon`. -/
def validateLogon (m : Message) : Except JSError Unit :=
  if m.hasField Fields.heartBtInt then .ok ()
  else .error (js "Logon message must contain HeartBtInt")

/-- `validateFieldValues`. -/
def validateFieldValues (m : Message) : Except JSError Unit :=
  if m.getField Fields.msgType = MsgType.logon then validateLogon m else .ok ()

/-! ## Messages -/

/-- The state of the manager. -/
structure ProtocolManager where
  messageQueue : List Message
  isLoggedOn : Bool
  /-- The messages passed to `handleMessage`, each with `isLoggedOn` at this moment. -/
  handled : List (Message × Bool)

/-- A constructed manager. -/
def ProtocolManager.new : ProtocolManager := ⟨[], false, []⟩

/-- `shouldQueueMessage`. -/
def shouldQueueMessage (st : ProtocolManager) (m : Message) : Bool :=
  !st.isLoggedOn && decide (m.getField Fields.msgType ≠ MsgType.logon)

/-- `handleMessage`, given what it does for a Logon. A Heartbeat has no effect. -/
def handleMessage (handleLogon : ProtocolManager → ProtocolManager) (st : ProtocolManager)
    (m : Message) : ProtocolManager :=
  let st := { st with handled := st.handled ++ [(m, st.isLoggedOn)] }
  if m.getField Fields.msgType = MsgType.logon then handleLogon st
  else if m.getField Fields.msgType = MsgType.logout then { st with isLoggedOn := false }
  else st

/-- The loop of `handleLogon`, for at most `n` messages. A Logon in the queue would start a
loop of its own. -/
def drain : ℕ → ProtocolManager → ProtocolManager
  | 0, st => st
  | n + 1, st =>
    match st.messageQueue with
    | [] => st
    | m :: queue => drain n
        (handleMessage (fun st => drain n { st with isLoggedOn := true })
          { st with messageQueue := queue } m)

/-- `handleLogon`. The loop ends after as many messages as are queued. -/
def handleLogon (st : ProtocolManager) : ProtocolManager :=
  drain st.messageQueue.length { st with isLoggedOn := true }

/-- `processIncoming`. -/
def processIncoming (st : ProtocolManager) (m : Message) : Except JSError ProtocolManager := do
  validateRequiredFields m
  let _ := validateFieldOrder m
  validateFieldValues m
  if shouldQueueMessage st m then return { st with messageQueue := st.messageQueue ++ [m] }
  return handleMessage handleLogon st m

/-- Calls of `processIncoming`; a call that throws changes nothing. -/
def manager : System ProtocolManager Message where
  init st := st = .new
  step st m :=
    match processIncoming st m with
    | .ok st' => some st'
    | .error _ => some st

/-- The message of a call that does not throw. -/
def accepted (st : ProtocolManager) (m : Message) : List Message :=
  match processIncoming st m with
  | .ok _ => [m]
  | .error _ => []

/-- The manager with the record of all accepted messages. -/
abbrev recordedManager : System (ProtocolManager × List Message) Message :=
  manager.recorded accepted

/-! ## What a call does -/

/-- Whether the manager is logged on after a message has been handled. -/
def switch (isLoggedOn : Bool) (m : Message) : Bool :=
  if m.getField Fields.msgType = MsgType.logon then true
  else if m.getField Fields.msgType = MsgType.logout then false
  else isLoggedOn

/-- Messages that are handled one after the other, with `isLoggedOn` at each of them. -/
def passed : Bool → List Message → List (Message × Bool)
  | _, [] => []
  | isLoggedOn, m :: ms => (m, isLoggedOn) :: passed (switch isLoggedOn m) ms

/-- The messages are handled in their order. -/
theorem map_passed (isLoggedOn : Bool) (ms : List Message) :
    (passed isLoggedOn ms).map Prod.fst = ms := by
  induction ms generalizing isLoggedOn with
  | nil => rfl
  | cons m ms ih => rw [passed, List.map_cons, ih]

/-- Draining handles all queued messages in order. -/
theorem drain_eq {n : ℕ} {st : ProtocolManager} (h : st.messageQueue.length ≤ n) :
    drain n st = ⟨[], st.messageQueue.foldl switch st.isLoggedOn,
      st.handled ++ passed st.isLoggedOn st.messageQueue⟩ := by
  have hempty : ∀ st : ProtocolManager, st.messageQueue = [] →
      st = ⟨[], st.messageQueue.foldl switch st.isLoggedOn,
        st.handled ++ passed st.isLoggedOn st.messageQueue⟩ := by
    intro st hst
    cases st
    simp_all [passed]
  induction n generalizing st with
  | zero => exact hempty st (List.length_eq_zero_iff.mp (Nat.le_zero.mp h))
  | succ n ih =>
    rcases hqueue : st.messageQueue with _ | ⟨m, queue⟩
    · have hst := hempty st hqueue
      rw [hqueue] at hst
      rw [drain, hqueue]
      exact hst
    · have hlength : queue.length ≤ n := by
        rw [hqueue, List.length_cons] at h
        omega
      rw [drain, hqueue]
      dsimp only
      rw [handleMessage, List.foldl_cons, passed, switch]
      dsimp only
      split
      · -- the inner loop empties the queue, and the outer one has nothing left
        have hinner : drain n ⟨queue, true, st.handled ++ [(m, st.isLoggedOn)]⟩ = _ := ih hlength
        have houter : ∀ st : ProtocolManager, st.messageQueue = [] → drain n st = st :=
          fun st hst => (ih (by simp [hst])).trans (hempty st hst).symm
        rw [hinner, houter _ rfl]
        simp
      · split
        · rw [ih hlength]
          simp
        · rw [ih hlength]
          simp

/-- What a call that does not throw does: it queues the message, handles a Logon and with it
the queue, or handles the message alone. -/
theorem processIncoming_cases {st st' : ProtocolManager} {m : Message}
    (h : processIncoming st m = .ok st') :
    (m.getField Fields.msgType ≠ MsgType.logon ∧ st.isLoggedOn = false ∧
      st' = { st with messageQueue := st.messageQueue ++ [m] }) ∨
    (m.getField Fields.msgType = MsgType.logon ∧
      st' = ⟨[], st.messageQueue.foldl switch true,
        st.handled ++ (m, st.isLoggedOn) :: passed true st.messageQueue⟩) ∨
    (m.getField Fields.msgType ≠ MsgType.logon ∧ st.isLoggedOn = true ∧
      st' = ⟨st.messageQueue, switch true m, st.handled ++ [(m, true)]⟩) := by
  simp only [processIncoming, except_bind_eq_ok_iff] at h
  obtain ⟨_, _, _, _, h⟩ := h
  by_cases hqueue : shouldQueueMessage st m = true
  · rw [if_pos hqueue] at h
    simp only [shouldQueueMessage, Bool.and_eq_true, Bool.not_eq_true', decide_eq_true_eq] at hqueue
    exact Or.inl ⟨hqueue.2, hqueue.1, (Except.ok.inj h).symm⟩
  · rw [if_neg hqueue] at h
    right
    have hst' := (Except.ok.inj h).symm
    rw [handleMessage] at hst'
    by_cases hlogon : m.getField Fields.msgType = MsgType.logon
    · left
      have hdrain : drain st.messageQueue.length
          ⟨st.messageQueue, true, st.handled ++ [(m, st.isLoggedOn)]⟩ = _ := drain_eq (Nat.le_refl _)
      rw [if_pos hlogon, handleLogon] at hst'
      refine ⟨hlogon, (hst'.trans hdrain).trans ?_⟩
      rw [List.append_assoc, List.singleton_append]
    · right
      have hon : st.isLoggedOn = true := by
        simpa [shouldQueueMessage, hlogon] using hqueue
      rw [if_neg hlogon] at hst'
      refine ⟨hlogon, hon, ?_⟩
      rw [hst', switch, if_neg hlogon, ← hon]
      split <;> rfl

end NestQuickfix.Protocol
