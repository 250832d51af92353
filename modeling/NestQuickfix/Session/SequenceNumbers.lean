import Mathlib.Data.List.Induction
import Mathlib.Logic.Function.Basic
import NestQuickfix.Lib.Splitting
import NestQuickfix.Session.Outgoing

/-!
# Outgoing sequence numbers

All sends of a session take their number from one counter. A send that ends
before its write has used up its number, and a message that is sent again, or
came with a MsgSeqNum, keeps the old one. The numbers on the wire are therefore
gapless exactly when every write that follows a lost send carries a preset number,
and every preset number happens to be the next one.
-/

namespace NestQuickfix

open Lib

/-- The outgoing side of a session. -/
structure OutgoingState where
  nextOutgoingSeqNum : ℕ
  /-- The message objects of the users. -/
  messages : ℕ → Message
  /-- The messages handed to `socket.write`, in order. -/
  writes : List Message
  /-- The number of sends that ended before the write. -/
  lost : ℕ

/-- What happens on the outgoing side of a session. -/
inductive SendEvent where
  /-- A user creates or changes a message object. -/
  | assign (ref : ℕ) (message : Message)
  /-- A user calls `sendMessage`. -/
  | send (ref : ℕ) (env : SendEnv)
  /-- The heartbeat timer fires in state LOGGED_ON. -/
  | heartbeat (env : SendEnv)
  /-- The user logs on as initiator. -/
  | logon (env : SendEnv)
  | sendLogonResponse (env : SendEnv)
  | handleTestRequest (testReqId : Value) (env : SendEnv)
  | logout (reason : Value) (env : SendEnv)

/-- The message that an event sends, and what the send meets. -/
def SendEvent.outgoing (config : SessionConfig) (s : OutgoingState) :
    SendEvent → Option (Message × SendEnv)
  | .assign _ _ => none
  | .send ref env => some (s.messages ref, env)
  | .heartbeat env => some (heartbeatMessage .undefined, env)
  | .logon env => some (logonMessage config.heartbeatInterval (.int 0) true, env)
  | .sendLogonResponse env => some (logonMessage config.heartbeatInterval (.int 0) false, env)
  | .handleTestRequest testReqId env => some (heartbeatMessage testReqId, env)
  | .logout reason env => some (logoutMessage reason, env)

namespace OutgoingState

/-- A new session and the message objects of its users. -/
def new (messages : ℕ → Message) : OutgoingState := ⟨1, messages, [], 0⟩

/-- Record what a send has done. -/
def record (s : OutgoingState) (attempt : SendAttempt) : OutgoingState :=
  match attempt.written with
  | none => { s with nextOutgoingSeqNum := s.nextOutgoingSeqNum + 1, lost := s.lost + 1 }
  | some (message, _) =>
    { s with nextOutgoingSeqNum := s.nextOutgoingSeqNum + 1, writes := s.writes ++ [message] }

/-- The objects a send leaves behind: a user's message keeps the added fields. -/
def keepObject (s : OutgoingState) (message : Message) : SendEvent → OutgoingState
  | .send ref _ => { s with messages := Function.update s.messages ref message }
  | _ => s

/-- One event. -/
def step (config : SessionConfig) (s : OutgoingState) (e : SendEvent) : OutgoingState :=
  match e.outgoing config s with
  | some (message, env) =>
    let attempt := sendMessage config s.nextOutgoingSeqNum env message
    (s.record attempt).keepObject attempt.message e
  | none =>
    match e with
    | .assign ref message => { s with messages := Function.update s.messages ref message }
    | _ => s

/-- The state of a new session after some events. -/
def run (config : SessionConfig) (messages : ℕ → Message) (es : List SendEvent) :
    OutgoingState :=
  es.foldl (step config) (new messages)

/-- The texts of MsgSeqNum in the order of the writes. -/
def seqNums (s : OutgoingState) : List JSString :=
  s.writes.map fun m => (m.getField Fields.msgSeqNum).printed

/-- The written sequence numbers are 1, 2, 3 and so on. -/
def Gapless (s : OutgoingState) : Prop :=
  s.seqNums = (List.range s.writes.length).map fun j => natText (j + 1)

instance (s : OutgoingState) : Decidable s.Gapless :=
  inferInstanceAs (Decidable (s.seqNums = (List.range s.writes.length).map _))

/-- A send gets as far as the write: the socket is writable and the encoder accepts
the completed message. -/
def ReachesWrite (config : SessionConfig) (s : OutgoingState) (message : Message)
    (env : SendEnv) : Prop :=
  env.writable = true ∧ ∃ raw, (addRequiredFields config s.nextOutgoingSeqNum env.sendingTime
    message).createReverse.toString = .ok raw

/-- A message that will be written either has the number of its position already, or
has none and no send was lost before. -/
def FitsPosition (config : SessionConfig) (s : OutgoingState) (e : SendEvent) : Prop :=
  ∀ message env, e.outgoing config s = some (message, env) → s.ReachesWrite config message env →
    if message.hasField Fields.msgSeqNum
    then (message.getField Fields.msgSeqNum).printed = natText (s.writes.length + 1)
    else s.lost = 0

theorem written_isSome_iff {config : SessionConfig} {s : OutgoingState} {message : Message}
    {env : SendEnv} :
    (∃ w, (sendMessage config s.nextOutgoingSeqNum env message).written = some w) ↔
      s.ReachesWrite config message env := by
  unfold sendMessage ReachesWrite
  dsimp only
  split
  · next hwritable => simp at hwritable; simp [hwritable]
  · next hwritable =>
    simp only [Bool.not_eq_true', Bool.not_eq_false] at hwritable
    split <;> simp_all

theorem writes_keepObject (s : OutgoingState) (message : Message) (e : SendEvent) :
    (s.keepObject message e).writes = s.writes ∧ (s.keepObject message e).lost = s.lost ∧
      (s.keepObject message e).nextOutgoingSeqNum = s.nextOutgoingSeqNum := by
  cases e <;> exact ⟨rfl, rfl, rfl⟩

/-- What an event does on the outgoing side: nothing, lose a number, or write a message. -/
theorem step_cases (config : SessionConfig) (s : OutgoingState) (e : SendEvent) :
    (e.outgoing config s = none ∧ (s.step config e).writes = s.writes ∧
        (s.step config e).lost = s.lost ∧
        (s.step config e).nextOutgoingSeqNum = s.nextOutgoingSeqNum) ∨
      ∃ message env, e.outgoing config s = some (message, env) ∧
        (s.step config e).nextOutgoingSeqNum = s.nextOutgoingSeqNum + 1 ∧
        ((¬ s.ReachesWrite config message env ∧ (s.step config e).writes = s.writes ∧
            (s.step config e).lost = s.lost + 1) ∨
          (s.ReachesWrite config message env ∧ (s.step config e).lost = s.lost ∧
            ∃ written raw, (sendMessage config s.nextOutgoingSeqNum env message).written =
                some (written, raw) ∧
              (s.step config e).writes = s.writes ++ [written])) := by
  unfold step
  cases hout : e.outgoing config s with
  | none =>
    left
    refine ⟨rfl, ?_⟩
    cases e <;> exact ⟨rfl, rfl, rfl⟩
  | some p =>
    obtain ⟨message, env⟩ := p
    right
    refine ⟨message, env, rfl, ?_⟩
    dsimp only
    obtain ⟨hwrites, hlost, hnext⟩ := writes_keepObject
      (s.record (sendMessage config s.nextOutgoingSeqNum env message))
      (sendMessage config s.nextOutgoingSeqNum env message).message e
    rw [hwrites, hlost, hnext]
    have hreaches : (∃ w, (sendMessage config s.nextOutgoingSeqNum env message).written = some w) ↔
        s.ReachesWrite config message env := written_isSome_iff
    cases hw : (sendMessage config s.nextOutgoingSeqNum env message).written with
    | none =>
      rw [hw] at hreaches
      rw [record, hw]
      refine ⟨rfl, Or.inl ⟨?_, rfl, rfl⟩⟩
      intro h
      obtain ⟨w, hw⟩ := hreaches.mpr h
      cases hw
    | some w =>
      obtain ⟨written, raw⟩ := w
      rw [record, hw]
      exact ⟨rfl, Or.inr ⟨hreaches.mp ⟨_, hw⟩, rfl, written, raw, rfl, rfl⟩⟩

/-- The counter counts the writes and the lost sends. -/
theorem nextOutgoingSeqNum_run (config : SessionConfig) (messages : ℕ → Message)
    (es : List SendEvent) :
    (run config messages es).nextOutgoingSeqNum =
      (run config messages es).writes.length + (run config messages es).lost + 1 := by
  induction es using List.reverseRecOn with
  | nil => rfl
  | append_singleton es e ih =>
    have hrun : run config messages (es ++ [e]) = (run config messages es).step config e := by
      simp [run]
    rw [hrun]
    rcases step_cases config (run config messages es) e with
      ⟨_, h1, h2, h3⟩ | ⟨_, _, _, h3, ⟨_, h1, h2⟩ | ⟨_, h2, _, _, _, h1⟩⟩
    · rw [h1, h2, h3, ih]
    · rw [h1, h2, h3, ih]
      omega
    · rw [h1, h2, h3, ih, List.length_append, List.length_singleton]
      omega

/-- One more write keeps the numbers gapless when it carries the next one. -/
theorem gapless_of_writes_eq {s s' : OutgoingState} {written : Message}
    (h : s'.writes = s.writes ++ [written]) :
    s'.Gapless ↔ s.Gapless ∧
      (written.getField Fields.msgSeqNum).printed = natText (s.writes.length + 1) := by
  unfold Gapless seqNums
  rw [h, List.length_append, List.length_singleton, List.range_succ, List.map_append,
    List.map_append, List.map_singleton, List.map_singleton]
  constructor
  · intro heq
    obtain ⟨h1, h2⟩ := List.append_inj heq (by simp)
    exact ⟨h1, (List.cons.inj h2).1⟩
  · rintro ⟨h1, h2⟩
    rw [h1, h2]

/-- The written sequence numbers of a session are 1, 2, 3 and so on exactly when every
message that was written fitted its position. -/
theorem gapless_run_iff (config : SessionConfig) (messages : ℕ → Message) (es : List SendEvent) :
    (run config messages es).Gapless ↔ ∀ earlier e later, es = earlier ++ e :: later →
      (run config messages earlier).FitsPosition config e := by
  induction es using List.reverseRecOn with
  | nil =>
    constructor
    · intro _ earlier e later h
      simp at h
    · intro _
      rfl
  | append_singleton es e ih =>
    have hrun : run config messages (es ++ [e]) = (run config messages es).step config e := by
      simp [run]
    have hcount := nextOutgoingSeqNum_run config messages es
    rw [hrun, forall_append_cons_concat, ← ih]
    rcases step_cases config (run config messages es) e with
      ⟨hout, hwrites, _⟩ | ⟨message, env, hout, _, ⟨hno, hwrites, _⟩ |
        ⟨hyes, _, written, raw, hwritten, hwrites⟩⟩
    · have hfits : (run config messages es).FitsPosition config e := by
        intro message env h
        rw [hout] at h
        cases h
      simp only [Gapless, seqNums, hwrites, hfits, and_true]
    · have hfits : (run config messages es).FitsPosition config e := by
        intro message' env' h hreaches
        rw [hout] at h
        obtain ⟨rfl, rfl⟩ := Prod.mk.inj (Option.some.inj h)
        exact absurd hreaches hno
      simp only [Gapless, seqNums, hwrites, hfits, and_true]
    · rw [gapless_of_writes_eq hwrites]
      refine and_congr_right fun _ => ?_
      have hnumber := getField_msgSeqNum_of_written hwritten
      have hfits : (run config messages es).FitsPosition config e ↔
          if message.hasField Fields.msgSeqNum
          then (message.getField Fields.msgSeqNum).printed =
            natText ((run config messages es).writes.length + 1)
          else (run config messages es).lost = 0 := by
        constructor
        · exact fun h => h message env hout hyes
        · intro h message' env' hout' _
          rw [hout] at hout'
          obtain ⟨rfl, rfl⟩ := Prod.mk.inj (Option.some.inj hout')
          exact h
      rw [hfits, hnumber]
      by_cases hhas : message.hasField Fields.msgSeqNum = true
      · rw [if_pos hhas, if_pos hhas]
      · rw [if_neg hhas, if_neg hhas]
        have hprinted : (Value.num (.int ((run config messages es).nextOutgoingSeqNum : ℤ))).printed =
            natText (run config messages es).nextOutgoingSeqNum := rfl
        rw [hprinted, natText_injective.eq_iff, hcount]
        omega

/-- A session of a broker with a client. -/
def brokerConfig : SessionConfig :=
  ⟨.str (js "BROKER"), .str (js "CLIENT"), .int 30, .str (js "FIX.4.4")⟩

/-- A send at a fixed time on a writable socket, or on one that is not writable. -/
def sendNow (writable : Bool) : SendEnv := ⟨js "20250101-00:00:00", writable, none⟩

/-- A heartbeat that meets a socket that is not writable uses up number 1, and a
message that is sent twice keeps it. -/
theorem not_gapless_run :
    (run brokerConfig (fun _ => .empty)
        [.heartbeat (sendNow false), .heartbeat (sendNow true)]).seqNums = [js "2"] ∧
      ¬ (run brokerConfig (fun _ => .empty)
        [.heartbeat (sendNow false), .heartbeat (sendNow true)]).Gapless ∧
      (run brokerConfig (fun _ => logoutMessage .undefined)
        [.send 0 (sendNow true), .send 0 (sendNow true)]).seqNums = [js "1", js "1"] ∧
      ¬ (run brokerConfig (fun _ => logoutMessage .undefined)
        [.send 0 (sendNow true), .send 0 (sendNow true)]).Gapless := by
  decide +kernel

end OutgoingState

end NestQuickfix
