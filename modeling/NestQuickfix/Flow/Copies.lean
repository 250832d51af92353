import NestQuickfix.Flow.Sessions

/-!
# Copies of a message

A message that is sent again is written again. The first send completes the message object,
so all copies are the same text, whichever session writes them and whatever was sent in
between; and on the socket of one session, the sequence number tells which messages are
copies of each other.
-/

namespace NestQuickfix

open Lib

/-- A message has all the fields a session adds. -/
def Message.Complete (m : Message) : Prop :=
  ∀ t ∈ [Fields.beginString, Fields.msgSeqNum, Fields.senderCompID, Fields.sendingTime,
    Fields.targetCompID], m.hasField t = true

theorem complete_addRequiredFields (config : SessionConfig) (seqNum : ℕ)
    (sendingTime : JSString) (m : Message) :
    (addRequiredFields config seqNum sendingTime m).Complete :=
  fun _ ht => hasField_addRequiredFields_iff.mpr (Or.inr ht)

/-- No session changes a complete message. -/
theorem Message.Complete.addRequiredFields_eq {m : Message} (h : m.Complete)
    (config : SessionConfig) (seqNum : ℕ) (sendingTime : JSString) :
    addRequiredFields config seqNum sendingTime m = m := by
  refine setMissing_eq_self fun f hf => h f.1 ?_
  exact sessionFields_keys config seqNum sendingTime ▸ List.mem_map_of_mem hf

namespace SendingSessions

variable {configs : ℕ → SessionConfig} {t : SendingSessions} {x ref : ℕ} {queued : Bool}
  {env : SendEnv}

theorem messages_sendThrough : (t.sendThrough configs x ref queued env).1.messages =
    Function.update t.messages ref (addRequiredFields (configs x) (t.nextOutgoingSeqNum x)
      env.sendingTime (t.messages ref)) := by
  rw [← message_sendMessage]
  rfl

/-- A send leaves complete messages alone. -/
theorem messages_sendThrough_of_complete {ref' : ℕ} (h : (t.messages ref').Complete) :
    (t.sendThrough configs x ref queued env).1.messages ref' = t.messages ref' := by
  rw [messages_sendThrough, Function.update_apply]
  split
  · next heq =>
    subst heq
    exact h.addRequiredFields_eq _ _ _
  · rfl

theorem sends_sendThrough : (t.sendThrough configs x ref queued env).1.sends =
    t.sends ++ [(x, ref)] := rfl

theorem mem_sends_sendThrough {p : ℕ × ℕ} :
    p ∈ (t.sendThrough configs x ref queued env).1.sends ↔ p ∈ t.sends ∨ p = (x, ref) := by
  rw [sends_sendThrough, List.mem_append, List.mem_singleton]

theorem nextOutgoingSeqNum_sendThrough :
    (t.sendThrough configs x ref queued env).1.nextOutgoingSeqNum =
      Function.update t.nextOutgoingSeqNum x (t.nextOutgoingSeqNum x + 1) := rfl

/-- Counters only grow. -/
theorem nextOutgoingSeqNum_le (y : ℕ) : t.nextOutgoingSeqNum y ≤
    (t.sendThrough configs x ref queued env).1.nextOutgoingSeqNum y := by
  rw [nextOutgoingSeqNum_sendThrough, Function.update_apply]
  split
  · next heq => exact heq ▸ Nat.le_succ _
  · exact Nat.le_refl _

theorem messages_assign (t : SendingSessions) (ref : ℕ) (message : Message) :
    (t.assign ref message).messages = Function.update t.messages ref message := rfl

/-- A written text is an old one, or that of the message as the send leaves it. -/
theorem mem_writes_sendThrough {w : WrittenText}
    (h : w ∈ (t.sendThrough configs x ref queued env).1.writes) :
    w ∈ t.writes ∨ w.session = x ∧ w.message = ref ∧ w.queued = queued ∧
      w.written = ((t.sendThrough configs x ref queued env).1.messages ref).createReverse ∧
        w.written.toString = .ok w.text := by
  rcases List.mem_append.mp h with hold | hnew
  · exact Or.inl hold
  · obtain ⟨⟨written, raw⟩, hwritten, rfl⟩ :=
      Option.map_eq_some_iff.mp (Option.mem_toList.mp hnew)
    obtain ⟨hreverse, htext⟩ := of_written hwritten
    refine Or.inr ⟨rfl, rfl, rfl, ?_, htext⟩
    rw [messages_sendThrough, Function.update_self]
    exact hreverse

/-! ## The same text -/

/-- Every text is that of its message object, to which no session adds anything more. -/
def WrittenAsTheyAre (t : SendingSessions) : Prop :=
  ∀ w ∈ t.writes, (t.messages w.message).Complete ∧
    w.written = (t.messages w.message).createReverse ∧ w.written.toString = .ok w.text

theorem WrittenAsTheyAre.sendThrough (h : t.WrittenAsTheyAre) :
    (t.sendThrough configs x ref queued env).1.WrittenAsTheyAre := by
  intro w hw
  rcases mem_writes_sendThrough hw with hold | ⟨-, rfl, -, hwritten, htext⟩
  · rw [messages_sendThrough_of_complete (h w hold).1]
    exact h w hold
  · refine ⟨?_, hwritten, htext⟩
    rw [messages_sendThrough, Function.update_self]
    exact complete_addRequiredFields _ _ _ _

end SendingSessions

namespace SendingState

open SendingSessions OutgoingState

variable {options : MessageQueueConfig} {configs : ℕ → SessionConfig} {s s' : SendingState}
  {e : SendingEvent}

/-- No user changes a message object that was written. -/
def LeavesWritten (s : SendingState) : SendingEvent → Prop
  | .assign ref _ => ∀ w ∈ s.sessions.writes, w.message ≠ ref
  | _ => True

instance : ∀ (s : SendingState) (e : SendingEvent), Decidable (LeavesWritten s e)
  | s, .assign ref _ => inferInstanceAs (Decidable (∀ w ∈ s.sessions.writes, w.message ≠ ref))
  | _, .enqueue .. | _, .tick .. | _, .settle .. | _, .pause | _, .resume | _, .shutdown ..
  | _, .poll .. | _, .register .. | _, .remove .. | _, .send .. =>
    inferInstanceAs (Decidable True)

theorem writtenAsTheyAre_sends {t : SendingSessions} (hs : s.sessions.WrittenAsTheyAre)
    (he : LeavesWritten s e) (h : Sends configs s e t) : t.WrittenAsTheyAre := by
  cases h with
  | nothing | register _ | remove _ => exact hs
  | queued | other => exact hs.sendThrough
  | @assign ref message heq =>
    subst heq
    intro w hw
    have hmessage : (s.sessions.assign ref message).messages w.message =
        s.sessions.messages w.message := Function.update_of_ne (he w hw) _ _
    rw [hmessage]
    exact hs w hw

theorem writtenAsTheyAre : System.Invariant (sendingQueue options configs) LeavesWritten
    fun s => s.sessions.WrittenAsTheyAre where
  init := by
    rintro s ⟨retryCount, sessionManager, rfl⟩ w hw
    cases hw
  step s e s' hs he hstep := writtenAsTheyAre_sends hs he (does_of_step hstep).sessions

/-- In every run in which no user changes a message that was written, all copies of a message
are the same text, with the same sequence number and the same time. -/
theorem copies_eq_of_reached (h : (sendingQueue options configs).Reached LeavesWritten s) :
    ∀ w ∈ s.sessions.writes, ∀ w' ∈ s.sessions.writes, w.message = w'.message →
      w.written = w'.written ∧ w.text = w'.text := by
  intro w hw w' hw' heq
  obtain ⟨-, hwritten, htext⟩ := writtenAsTheyAre.of_reached h w hw
  obtain ⟨-, hwritten', htext'⟩ := writtenAsTheyAre.of_reached h w' hw'
  have hsame : w.written = w'.written := by rw [hwritten, hwritten', heq]
  rw [hsame] at htext
  exact ⟨hsame, Except.ok.inj (htext.symm.trans htext')⟩

/-- A queue with `maxRetries = 1`, and sessions of one counterparty. -/
def clientQueue : System SendingState SendingEvent :=
  sendingQueue ⟨none, some 1⟩ fun _ => brokerConfig

/-- Before anything is enqueued. -/
def newClientQueue : SendingState :=
  ⟨⟨newMessageQueue ⟨none, some 1⟩ fun _ => none, [], []⟩, [], true, .new⟩

/-- The socket reports an error for the first write of an order, and a heartbeat is sent
before the order is sent again. -/
def resentOrder : List SendingEvent :=
  [.register 0, .assign 0 (Message.ofStrings [(35, js "D"), (49, js "BROKER"),
      (56, js "CLIENT")]), .enqueue 0 none,
    .tick ⟨js "20250101-00:00:00", true, some (js "EPIPE")⟩,
    .settle 0 (fun _ => false) (sendNow true), .assign 1 (heartbeatMessage .undefined),
    .send 0 1 (sendNow true), .tick ⟨js "20250101-00:00:01", true, none⟩]

/-- Both copies of the order have number 1. -/
theorem copies_eq_resentOrder : ∃ s ∈ clientQueue.exec newClientQueue resentOrder,
    s.sessions.writes.map WrittenText.message = [0, 1, 0] ∧
      ∀ w ∈ s.sessions.writes, ∀ w' ∈ s.sessions.writes, w.message = w'.message →
        w.written = w'.written ∧ w.text = w'.text := by
  have hrun : ∃ s ∈ clientQueue.exec newClientQueue resentOrder,
      s.sessions.writes.map WrittenText.message = [0, 1, 0] := by decide +kernel
  obtain ⟨s, hs, hwrites⟩ := hrun
  have hreached : clientQueue.Reached LeavesWritten newClientQueue := .init ⟨_, _, rfl⟩
  exact ⟨s, hs, hwrites, copies_eq_of_reached (hreached.exec (by decide +kernel) hs)⟩

end SendingState

/-! ## Sequence numbers -/

namespace SendingSessions

variable {configs : ℕ → SessionConfig} {t t' : SendingSessions} {x ref : ℕ} {queued : Bool}
  {env : SendEnv}

/-- Every message object was sent by one session only. -/
def OneSession (t : SendingSessions) : Prop :=
  ∀ p ∈ t.sends, ∀ p' ∈ t.sends, p.2 = p'.2 → p.1 = p'.1

instance (t : SendingSessions) : Decidable t.OneSession :=
  inferInstanceAs (Decidable (∀ p ∈ t.sends, ∀ p' ∈ t.sends, p.2 = p'.2 → p.1 = p'.1))

theorem OneSession.mono (h : t'.OneSession) (hsends : t.sends ⊆ t'.sends) : t.OneSession :=
  fun p hp p' hp' => h p (hsends hp) p' (hsends hp')

/-- A message object has a sequence number when it has been sent: one that the counter of its
session has passed, and that no other message object of the session has. -/
structure Numbered (t : SendingSessions) : Prop where
  unsent : ∀ ref, (∀ p ∈ t.sends, p.2 ≠ ref) →
    (t.messages ref).hasField Fields.msgSeqNum = false
  complete : ∀ p ∈ t.sends, (t.messages p.2).Complete
  number : ∀ p ∈ t.sends, ∃ k < t.nextOutgoingSeqNum p.1,
    (t.messages p.2).getField Fields.msgSeqNum = .num (.int k)
  distinct : ∀ p ∈ t.sends, ∀ p' ∈ t.sends, p.1 = p'.1 →
    (t.messages p.2).getField Fields.msgSeqNum = (t.messages p'.2).getField Fields.msgSeqNum →
      p.2 = p'.2
  written : ∀ w ∈ t.writes, (w.session, w.message) ∈ t.sends

namespace Numbered

/-- What was sent before keeps its message. -/
theorem messages_eq (h : t.Numbered) {p : ℕ × ℕ} (hp : p ∈ t.sends) :
    (t.sendThrough configs x ref queued env).1.messages p.2 = t.messages p.2 :=
  messages_sendThrough_of_complete (h.complete p hp)

theorem unsent_sendThrough (h : t.Numbered) {r : ℕ}
    (hr : ∀ p ∈ (t.sendThrough configs x ref queued env).1.sends, p.2 ≠ r) :
    ((t.sendThrough configs x ref queued env).1.messages r).hasField Fields.msgSeqNum =
      false := by
  have hne : r ≠ ref := (hr _ (mem_sends_sendThrough.mpr (Or.inr rfl))).symm
  rw [messages_sendThrough, Function.update_of_ne hne]
  exact h.unsent r fun p hp => hr p (mem_sends_sendThrough.mpr (Or.inl hp))

theorem written_sendThrough (h : t.Numbered) {w : WrittenText}
    (hw : w ∈ (t.sendThrough configs x ref queued env).1.writes) :
    (w.session, w.message) ∈ (t.sendThrough configs x ref queued env).1.sends := by
  rcases mem_writes_sendThrough hw with hold | ⟨rfl, rfl, -⟩
  · exact mem_sends_sendThrough.mpr (Or.inl (h.written w hold))
  · exact mem_sends_sendThrough.mpr (Or.inr rfl)

/-- A message that is sent again by its session keeps its number. -/
theorem resend (h : t.Numbered) (hsent : (x, ref) ∈ t.sends) :
    (t.sendThrough configs x ref queued env).1.Numbered := by
  have hmem : ∀ p ∈ (t.sendThrough configs x ref queued env).1.sends, p ∈ t.sends := by
    intro p hp
    rcases mem_sends_sendThrough.mp hp with hp | rfl
    · exact hp
    · exact hsent
  refine ⟨fun _ => h.unsent_sendThrough, fun p hp => ?_, fun p hp => ?_,
    fun p hp p' hp' hsession heq => ?_, fun _ => h.written_sendThrough⟩
  · rw [h.messages_eq (hmem p hp)]
    exact h.complete p (hmem p hp)
  · obtain ⟨k, hk, hnumber⟩ := h.number p (hmem p hp)
    rw [h.messages_eq (hmem p hp)]
    exact ⟨k, hk.trans_le (nextOutgoingSeqNum_le p.1), hnumber⟩
  · rw [h.messages_eq (hmem p hp), h.messages_eq (hmem p' hp')] at heq
    exact h.distinct p (hmem p hp) p' (hmem p' hp') hsession heq

/-- The first send of a message takes the number of the counter, which no message of the
session has yet. -/
theorem firstSend (h : t.Numbered) (hnew : ∀ p ∈ t.sends, p.2 ≠ ref) :
    (t.sendThrough configs x ref queued env).1.Numbered := by
  have hself : (t.sendThrough configs x ref queued env).1.messages ref =
      addRequiredFields (configs x) (t.nextOutgoingSeqNum x) env.sendingTime
        (t.messages ref) := by
    rw [messages_sendThrough, Function.update_self]
  have hnumber : ((t.sendThrough configs x ref queued env).1.messages ref).getField
      Fields.msgSeqNum = .num (.int (t.nextOutgoingSeqNum x)) := by
    rw [hself, getField_msgSeqNum_addRequiredFields, h.unsent ref hnew,
      if_neg Bool.false_ne_true]
  have hfresh : ∀ p ∈ t.sends, p.1 = x → (t.messages p.2).getField Fields.msgSeqNum ≠
      ((t.sendThrough configs x ref queued env).1.messages ref).getField Fields.msgSeqNum := by
    intro p hp hsession heq
    obtain ⟨k, hk, hnumber'⟩ := h.number p hp
    rw [hnumber', hnumber] at heq
    have hk' : (k : ℤ) = t.nextOutgoingSeqNum x := Number.int.inj (Value.num.inj heq)
    rw [hsession] at hk
    omega
  refine ⟨fun _ => h.unsent_sendThrough, fun p hp => ?_, fun p hp => ?_,
    fun p hp p' hp' hsession heq => ?_, fun _ => h.written_sendThrough⟩
  · rcases mem_sends_sendThrough.mp hp with hp | rfl
    · rw [h.messages_eq hp]
      exact h.complete p hp
    · rw [hself]
      exact complete_addRequiredFields _ _ _ _
  · rcases mem_sends_sendThrough.mp hp with hp | rfl
    · obtain ⟨k, hk, hnumber'⟩ := h.number p hp
      rw [h.messages_eq hp]
      exact ⟨k, hk.trans_le (nextOutgoingSeqNum_le p.1), hnumber'⟩
    · refine ⟨t.nextOutgoingSeqNum x, ?_, hnumber⟩
      rw [nextOutgoingSeqNum_sendThrough, Function.update_self]
      exact Nat.lt_succ_self _
  · rcases mem_sends_sendThrough.mp hp with hp | rfl <;>
      rcases mem_sends_sendThrough.mp hp' with hp' | rfl
    · rw [h.messages_eq hp, h.messages_eq hp'] at heq
      exact h.distinct p hp p' hp' hsession heq
    · rw [h.messages_eq hp] at heq
      exact absurd heq (hfresh p hp hsession)
    · rw [h.messages_eq hp'] at heq
      exact absurd heq.symm (hfresh p' hp' hsession.symm)
    · rfl

theorem sendThrough (h : t.Numbered)
    (hone : (t.sendThrough configs x ref queued env).1.OneSession) :
    (t.sendThrough configs x ref queued env).1.Numbered := by
  by_cases hsent : ∃ p ∈ t.sends, p.2 = ref
  · obtain ⟨p, hp, rfl⟩ := hsent
    obtain rfl : p.1 = x := hone p (mem_sends_sendThrough.mpr (Or.inl hp)) (x, p.2)
      (mem_sends_sendThrough.mpr (Or.inr rfl)) rfl
    exact h.resend hp
  · exact h.firstSend fun p hp heq => hsent ⟨p, hp, heq⟩

/-- A message object that was not sent yet may be changed, if it gets no number. -/
theorem assign (h : t.Numbered) {message : Message}
    (hmessage : message.hasField Fields.msgSeqNum = false) (href : ∀ p ∈ t.sends, p.2 ≠ ref) :
    (t.assign ref message).Numbered := by
  have hsame : ∀ p ∈ t.sends, (t.assign ref message).messages p.2 = t.messages p.2 :=
    fun p hp => Function.update_of_ne (href p hp) _ _
  refine ⟨fun r hr => ?_, fun p hp => ?_, fun p hp => ?_, fun p hp p' hp' hsession heq => ?_,
    h.written⟩
  · by_cases hr' : r = ref
    · subst hr'
      rwa [messages_assign, Function.update_self]
    · rw [messages_assign, Function.update_of_ne hr']
      exact h.unsent r hr
  · rw [hsame p hp]
    exact h.complete p hp
  · rw [hsame p hp]
    exact h.number p hp
  · rw [hsame p hp, hsame p' hp'] at heq
    exact h.distinct p hp p' hp' hsession heq

end Numbered

end SendingSessions

namespace SendingState

open SendingSessions

variable {options : MessageQueueConfig} {configs : ℕ → SessionConfig} {s s' : SendingState}
  {e : SendingEvent}

/-- Users change only message objects that no session has tried to send, and preset no
sequence numbers. -/
def AssignsUnsent (s : SendingState) : SendingEvent → Prop
  | .assign ref message => message.hasField Fields.msgSeqNum = false ∧
    ∀ p ∈ s.sessions.sends, p.2 ≠ ref
  | _ => True

instance : ∀ (s : SendingState) (e : SendingEvent), Decidable (AssignsUnsent s e)
  | s, .assign ref message => inferInstanceAs (Decidable
    (message.hasField Fields.msgSeqNum = false ∧ ∀ p ∈ s.sessions.sends, p.2 ≠ ref))
  | _, .enqueue .. | _, .tick .. | _, .settle .. | _, .pause | _, .resume | _, .shutdown ..
  | _, .poll .. | _, .register .. | _, .remove .. | _, .send .. =>
    inferInstanceAs (Decidable True)

theorem AssignsUnsent.leavesWritten (h : s.sessions.Numbered) (he : AssignsUnsent s e) :
    LeavesWritten s e := by
  cases e with
  | assign ref message => exact fun w hw => he.2 _ (h.written w hw)
  | _ => trivial

/-- A step sends once at most. -/
theorem sends_subset {t : SendingSessions} (h : Sends configs s e t) :
    s.sessions.sends ⊆ t.sends := by
  cases h with
  | nothing | register | remove | assign => exact fun _ hp => hp
  | queued | other => exact List.subset_append_left _ _

theorem numbered_sends {t : SendingSessions} (hs : s.sessions.Numbered)
    (he : AssignsUnsent s e) (h : Sends configs s e t) (hone : t.OneSession) : t.Numbered := by
  cases h with
  | nothing => exact hs
  | register | remove => exact ⟨hs.unsent, hs.complete, hs.number, hs.distinct, hs.written⟩
  | queued | other => exact hs.sendThrough hone
  | assign heq =>
    subst heq
    exact hs.assign he.1 he.2

/-- As long as every message object is sent by one session only, the numbers of each session
are those of its messages. -/
theorem numbered : System.Invariant (sendingQueue options configs) AssignsUnsent
    fun s => s.sessions.OneSession → s.sessions.Numbered ∧ s.sessions.WrittenAsTheyAre where
  init := by
    rintro s ⟨retryCount, sessionManager, rfl⟩ -
    refine ⟨⟨fun _ _ => rfl, ?_, ?_, ?_, ?_⟩, ?_⟩ <;> simp [SendingSessions.new, WrittenAsTheyAre]
  step := by
    intro s e s' hs he hstep hone
    have hsends := (does_of_step hstep).sessions
    obtain ⟨hnumbered, hwritten⟩ := hs (hone.mono (sends_subset hsends))
    exact ⟨numbered_sends hnumbered he hsends hone,
      writtenAsTheyAre_sends hwritten (he.leavesWritten hnumbered) hsends⟩

theorem getField_written {t : SendingSessions} (h : t.WrittenAsTheyAre) {w : WrittenText}
    (hw : w ∈ t.writes) : w.written.getField Fields.msgSeqNum =
      (t.messages w.message).getField Fields.msgSeqNum := by
  rw [(h w hw).2.1, Message.getField_createReverse, if_neg (by decide), if_neg (by decide)]

/-- In every run in which users preset no sequence numbers, change no message that a session
has tried to send, and send every message through one session only, two texts of a session
have the same number exactly if they are copies of one message. -/
theorem seqNum_eq_iff_of_reached (h : (sendingQueue options configs).Reached AssignsUnsent s)
    (hone : s.sessions.OneSession) {w w' : WrittenText} (hw : w ∈ s.sessions.writes)
    (hw' : w' ∈ s.sessions.writes) (hsession : w.session = w'.session) :
    (w.written.getField Fields.msgSeqNum).printed =
        (w'.written.getField Fields.msgSeqNum).printed ↔ w.message = w'.message := by
  obtain ⟨hnumbered, hwritten⟩ := numbered.of_reached h hone
  obtain ⟨k, -, hk⟩ := hnumbered.number _ (hnumbered.written w hw)
  obtain ⟨k', -, hk'⟩ := hnumbered.number _ (hnumbered.written w' hw')
  have hdistinct := hnumbered.distinct _ (hnumbered.written w hw) _ (hnumbered.written w' hw')
  rw [getField_written hwritten hw, getField_written hwritten hw']
  constructor
  · intro heq
    refine hdistinct hsession ?_
    rw [hk, hk'] at heq ⊢
    have hkk' : k = k' := natText_injective heq
    rw [hkk']
  · intro heq
    rw [heq]

/-- The order and its copy have one number, the heartbeat has another one. -/
theorem seqNum_eq_iff_resentOrder : ∃ s ∈ clientQueue.exec newClientQueue resentOrder,
    s.sessions.writes.map WrittenText.message = [0, 1, 0] ∧
      ∀ w ∈ s.sessions.writes, ∀ w' ∈ s.sessions.writes, w.session = w'.session →
        ((w.written.getField Fields.msgSeqNum).printed =
          (w'.written.getField Fields.msgSeqNum).printed ↔ w.message = w'.message) := by
  have hrun : ∃ s ∈ clientQueue.exec newClientQueue resentOrder,
      s.sessions.writes.map WrittenText.message = [0, 1, 0] ∧ s.sessions.OneSession := by
    decide +kernel
  obtain ⟨s, hs, hwrites, hone⟩ := hrun
  have hreached : clientQueue.Reached AssignsUnsent newClientQueue := .init ⟨_, _, rfl⟩
  exact ⟨s, hs, hwrites, fun w hw w' hw' hsession =>
    seqNum_eq_iff_of_reached (hreached.exec (by decide +kernel) hs) hone hw hw' hsession⟩

/-! ## The number of copies -/

/-- How many copies of a message the queue has put on the wire. -/
def copies (t : SendingSessions) (ref : ℕ) : ℕ :=
  t.writes.countP fun w => w.queued && decide (w.message = ref)

theorem copies_sendThrough_le (t : SendingSessions) (x ref r : ℕ) (queued : Bool)
    (env : SendEnv) : copies (t.sendThrough configs x ref queued env).1 r ≤
      copies t r + if queued ∧ ref = r then 1 else 0 := by
  have hnew : ∀ o : Option (Message × JSString),
      (o.map fun w => (⟨x, ref, w.1, w.2, queued⟩ : WrittenText)).toList.countP
        (fun w => w.queued && decide (w.message = r)) ≤ if queued ∧ ref = r then 1 else 0 := by
    intro o
    cases o with
    | none => simp
    | some w => by_cases h : queued ∧ ref = r <;> simp [h]
  rw [copies, SendingSessions.sendThrough, List.countP_append]
  exact Nat.add_le_add_left (hnew _) _

/-- Only an attempt of the queue makes a copy. -/
theorem copies_le_of_sends {t : SendingSessions} (h : Sends configs s e t) (r : ℕ) :
    copies t r ≤ copies s.sessions r ∨
      ∃ d, s.queueEvent e = some d ∧
        copies t r ≤ copies s.sessions r + (s.queue.queue.started d).count r := by
  cases h with
  | nothing | register | remove | assign => exact Or.inl (Nat.le_refl _)
  | @other x ref env =>
    have hle : copies (s.sessions.sendThrough configs x ref false env).1 r ≤ _ :=
      copies_sendThrough_le s.sessions x ref r false env
    simp only [Bool.false_eq_true, false_and, if_false] at hle
    exact Or.inl hle
  | @queued d ref x env hevent hstarted _ =>
    refine Or.inr ⟨d, hevent, (copies_sendThrough_le s.sessions x ref r true env).trans
      (Nat.add_le_add_left ?_ _)⟩
    split
    · next heq => exact List.count_pos_iff.mpr (heq.2 ▸ hstarted)
    · exact Nat.zero_le _

/-- The queue puts no more copies of a message on the wire than it makes attempts at it. -/
theorem copies_le_attempts : System.Invariant (sendingQueue options configs) (fun _ _ => True)
    fun s => ∀ r, copies s.sessions r ≤ s.queue.attempts.count r where
  init := by
    rintro s ⟨retryCount, sessionManager, rfl⟩ r
    exact Nat.le_refl 0
  step := by
    intro s e s' hs _ hstep r
    have hdoes := does_of_step hstep
    have hattempts : ∀ d, s.queueEvent e = some d → s'.queue.attempts.count r =
        s.queue.attempts.count r + (s.queue.queue.started d).count r := by
      intro d hevent
      obtain ⟨queue, -, hqueue⟩ := Option.map_eq_some_iff.mp (hdoes.queue d hevent)
      rw [← hqueue, List.count_append]
    have hold := hs r
    rcases copies_le_of_sends hdoes.sessions r with hle | ⟨d, hevent, hle⟩
    · cases hevent : s.queueEvent e with
      | none =>
        rw [hdoes.unseen hevent]
        exact hle.trans hold
      | some d =>
        have hcount := hattempts d hevent
        omega
    · have hcount := hattempts d hevent
      omega

/-- Users enqueue new messages, and no batch fails with a message that was put back `n` times
already. -/
def RetriesBounded (n : ℕ) (s : SendingState) (e : SendingEvent) : Prop :=
  ∀ d ∈ s.queueEvent e, EnqueuesNew s.queue.queue d ∧ RetriesLeft n s.queue.queue d

instance (n : ℕ) (s : SendingState) (e : SendingEvent) : Decidable (RetriesBounded n s e) :=
  inferInstanceAs (Decidable (∀ d ∈ s.queueEvent e, _))

/-- The queue with its sessions refines the queue whose sends end in any way, and in such runs it
puts at most `maxRetries + 1` copies of a message on the wire. -/
theorem copies_le_of_reached {n : ℕ} (hn : options.maxRetries = some (n : ℤ)) :
    System.Refines (sendingQueue options configs) (watchedQueue ℕ n) queue queueEvent ∧
      ∀ s, (sendingQueue options configs).Reached (RetriesBounded n) s →
        ∀ r, copies s.sessions r ≤ n + 1 := by
  refine ⟨refines hn, fun s h r => ?_⟩
  have hcharged : AttemptLog.Charged n s.queue :=
    (refines hn).of_invariant (AttemptLog.charged_watchedQueue n)
      (fun s e d he hevent => he d hevent) h
  have hcopies := copies_le_attempts.of_reached (h.mono fun _ _ _ => trivial) r
  by_cases hr : r ∈ s.queue.attempts
  · exact hcopies.trans (hcharged.withinRetries.1 r hr)
  · rw [List.count_eq_zero.mpr hr] at hcopies
    exact hcopies.trans (Nat.zero_le _)

/-- With one retry left, the order is written twice. -/
theorem copies_le_resentOrder : ∃ s ∈ clientQueue.exec newClientQueue resentOrder,
    copies s.sessions 0 = 2 ∧ ∀ r, copies s.sessions r ≤ 2 := by
  have hrun : ∃ s ∈ clientQueue.exec newClientQueue resentOrder, copies s.sessions 0 = 2 := by
    decide +kernel
  obtain ⟨s, hs, hcopies⟩ := hrun
  have hreached : clientQueue.Reached (RetriesBounded 1) newClientQueue := .init ⟨_, _, rfl⟩
  exact ⟨s, hs, hcopies, (copies_le_of_reached rfl).2 s (hreached.exec (by decide +kernel) hs)⟩

end SendingState

end NestQuickfix
