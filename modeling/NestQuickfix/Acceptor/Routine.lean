import NestQuickfix.Acceptor.Acts

/-!
# Routine acts

What sessions do in the course of handling messages and of ending. An invariant that routine
acts keep is kept by most of the code, and only has to be checked where messages are routed,
Logons are validated, and sessions are created, registered or logged out.
-/

namespace NestQuickfix.Acceptor

open Lib

/-- The Logon whose validation goes on in a task, with its connection. -/
def Frame.validates : Frame → Option (ℕ × Message)
  | .validateCredentials c m _ | .getAllowedSenderCompIds c m _ | .validated c m _ _ => some (c, m)
  | _ => none

/-- What sessions report of themselves. -/
def Observation.routine : Observation → Bool
  | .wrote .. | .answered _ | .ran .. | .emitted .. | .handled .. => true
  | _ => false

/-- An act that sessions perform of their own accord. -/
def Act.routine : Act → Bool
  | .take _ | .create .. | .beginLogout _ => false
  | .setState _ state => state ≠ .loggingOut
  | .suspend frame => frame.validates.isNone
  | .observe o => o.routine
  | _ => true

variable {st : AcceptorState} {a : Act} {s : ℕ} {m : Message} {origin : Origin} {frame : Frame}

theorem routine_send (ha : a ∈ sendActs s) : a.routine = true := by
  rcases ha with rfl | ⟨_, _, rfl⟩ <;> rfl

theorem routine_tearDown {p : Prop} (ha : a ∈ tearDownActs s p) : a.routine = true := by
  rcases ha with (rfl | rfl | rfl | ⟨_, rfl⟩) | ⟨_, rfl | rfl⟩ <;> rfl

theorem routine_settleLogout {caller : LogoutCaller} {result : Except JSError Unit}
    (ha : a ∈ settleLogoutActs caller result) : a.routine = true := by
  cases caller with
  | user => cases ha
  | registration s dropped =>
    obtain rfl := Set.mem_singleton_iff.mp ha
    rfl
  | closeAll k =>
    obtain rfl := Set.mem_singleton_iff.mp ha
    rfl

theorem routine_settleMessage (ha : a ∈ settleMessageActs origin) : a.routine = true := by
  cases origin with
  | user => cases ha
  | chunk c rest logon => rcases ha with rfl | rfl <;> rfl

theorem routine_runMessageHandlers (ha : a ∈ runMessageHandlersActs origin s m) :
    a.routine = true := by
  rcases ha with ha | rfl | ⟨_, rfl⟩ | ⟨_, rfl⟩
  · exact routine_settleMessage ha
  all_goals rfl

theorem routine_handleLogout (ha : a ∈ handleLogoutActs st s) : a.routine = true := by
  rcases ha with (((rfl | rfl) | rfl | rfl) | rfl) | ha
  on_goal 6 => exact routine_tearDown ha
  all_goals rfl

/-- Handling a message is routine. -/
theorem routine_handleMessage (ha : a ∈ handleMessageActs st origin s m) : a.routine = true := by
  unfold handleMessageActs at ha
  split at ha
  · rcases ha with ha | rfl | rfl | ⟨_, rfl⟩
    · exact routine_send ha
    all_goals rfl
  · split at ha
    · rcases ha with (ha | ha) | rfl
      · exact routine_handleLogout ha
      · exact routine_settleMessage ha
      · rfl
    · split at ha
      · rcases ha with ha | ⟨_, rfl⟩
        · exact routine_send ha
        · rfl
      · exact routine_runMessageHandlers ha

theorem routine_logonResponse (ha : a ∈ afterLogonResponseActs s) : a.routine = true := by
  rcases ha with ((rfl | rfl) | rfl | rfl) | rfl | rfl <;> rfl

theorem routine_afterLogout (ha : a ∈ afterLogoutActs st s) : a.routine = true := by
  rcases ha with (ha | ha) | ha
  · rcases ha with rfl | rfl <;> rfl
  · rcases ha with rfl | rfl <;> rfl
  · exact routine_tearDown ha

/-- A `close` listener ends sessions. -/
theorem routine_listener {c : ℕ} {listener : CloseListener} (ha : a ∈ listenerActs st c listener) :
    a.routine = true := by
  cases listener with
  | acceptor =>
    rcases ha with rfl | ⟨_, _, _, ha⟩
    · rfl
    · exact routine_tearDown ha
  | session s => exact routine_tearDown ha

/-- Going on with a task is routine, unless it is one of routing, validation or registration. -/
theorem routine_resume (hvalidates : frame.validates = none)
    (hnext : ∀ c rest, frame ≠ .nextMessage c rest)
    (hregistration : ∀ s dropped, frame ≠ .registration s dropped)
    (ha : a ∈ resumeActs st frame) : a.routine = true := by
  cases frame with
  | nextMessage c rest => exact absurd rfl (hnext c rest)
  | validateCredentials | getAllowedSenderCompIds | validated => cases hvalidates
  | closeDelay | allClosed => rcases ha with rfl | rfl <;> rfl
  | created => rcases ha with ⟨_, _, rfl⟩ | rfl <;> rfl
  | handlersSet =>
    rcases ha with rfl | ha
    · rfl
    · exact routine_handleMessage ha
  | logonResponse =>
    rcases ha with (ha | ha) | rfl | rfl
    · exact routine_logonResponse ha
    · exact routine_settleMessage ha
    · rfl
    · rfl
  | testRequestReply =>
    rcases ha with ha | rfl
    · exact routine_settleMessage ha
    · rfl
  | messageHandlers | handlerPending => exact routine_runMessageHandlers ha
  | logoutSent =>
    rcases ha with ha | ⟨_, ha, _⟩
    · exact routine_afterLogout ha
    · exact routine_settleLogout ha
  | registration s dropped => exact absurd rfl (hregistration s dropped)
  | closeAllSockets => rcases ha with rfl | ⟨_, _, rfl⟩ <;> rfl

end NestQuickfix.Acceptor
