import NestQuickfix.Flow.Entries

/-!
# The order of sends

Two messages that wait in the queue together are sent in the order in which they stand there, if
they never wait together again. While one batch at most is under way, the message in front is
taken first. Then it is sent before the other one, or its batch fails and both wait again, or
one of them is never sent.
-/

namespace NestQuickfix

open Lib QueueState

variable {α : Type*} [DecidableEq α]

/-- Both messages wait in the queue, and neither was sent. -/
def WaitTogether (a b : α) (s : QueueState α) : Prop :=
  a ∈ s.queue.contents ∧ b ∈ s.queue.contents ∧ a ∉ s.sent ∧ b ∉ s.sent

instance (a b : α) (s : QueueState α) : Decidable (WaitTogether a b s) :=
  inferInstanceAs (Decidable (_ ∧ _ ∧ _ ∧ _))

/-- After the step the messages do not wait together. -/
def Parted (a b : α) (s : QueueState α) (e : QueueEvent α) : Prop :=
  ∀ s' ∈ s.step e, ¬ WaitTogether a b s'

instance (a b : α) (s : QueueState α) (e : QueueEvent α) : Decidable (Parted a b s e) :=
  inferInstanceAs (Decidable (∀ s' ∈ s.step e, _))

/-- Since two messages waited together, `a` in front of `b`, the batch under way has come to `a`
first, or `a` was sent first, or one of them is gone unsent. -/
inductive Ahead (a b : α) (s : QueueState α) : Prop
  | inFront (batch : Batch α) : s.inFlight = [batch] →
      batch.pending.idxOf a < batch.pending.idxOf b → a ∉ s.sent → b ∉ s.sent → Ahead a b s
  | sentFirst : s.sent.idxOf a < s.sent.idxOf b → Ahead a b s
  | gone (x : α) : x = a ∨ x = b → s.held x = 0 → x ∉ s.sent → Ahead a b s

/-- Whatever is appended, the element in front stays in front. -/
theorem idxOf_append_lt {l : List α} {a b : α} (h : l.idxOf a < l.idxOf b) (l' : List α) :
    (l ++ l').idxOf a < (l ++ l').idxOf b := by
  have ha : a ∈ l := List.idxOf_lt_length_iff.mp (h.trans_le List.idxOf_le_length)
  rw [List.idxOf_append_of_mem ha]
  by_cases hb : b ∈ l
  · rwa [List.idxOf_append_of_mem hb]
  · rw [List.idxOf_append_of_notMem hb]
    exact (List.idxOf_lt_length_of_mem ha).trans_le (Nat.le_add_right _ _)

/-- A front part of a list holds the first of two elements, or neither of them. -/
theorem idxOf_take_lt {l : List α} {a b : α} (h : l.idxOf a < l.idxOf b) (size : ℕ) :
    (l.take size).idxOf a < (l.take size).idxOf b ∨ a ∉ l.take size ∧ b ∉ l.take size := by
  rw [← List.take_append_drop size l] at h
  by_cases ha : a ∈ l.take size
  · left
    by_cases hb : b ∈ l.take size
    · rwa [List.idxOf_append_of_mem ha, List.idxOf_append_of_mem hb] at h
    · rw [List.idxOf_eq_length hb]
      exact List.idxOf_lt_length_of_mem ha
  · right
    refine ⟨ha, fun hb => ?_⟩
    have hlt := List.idxOf_lt_length_of_mem hb
    rw [List.idxOf_append_of_notMem ha, List.idxOf_append_of_mem hb] at h
    omega

namespace QueueState

omit [DecidableEq α] in
theorem processing_of_taker {s : QueueState α} {e : QueueEvent α} (h : s.taker e ≠ none) :
    s.processing = false := by
  cases hprocessing : s.processing with
  | false => rfl
  | true =>
    refine absurd ?_ h
    cases e <;> simp [taker, hprocessing]

theorem enqueued_exec {s s' : QueueState α} {es : List (QueueEvent α)}
    (hexec : (messageQueue α).exec s es = some s') : s.enqueued <+: s'.enqueued := by
  refine System.exec_keeps (P := fun s' : QueueState α => s.enqueued <+: s'.enqueued) ?_
    List.prefix_rfl hexec
  intro s1 e s2 hprefix hstep
  rw [enqueued_step hstep]
  exact hprefix.trans (List.prefix_append _ _)

/-- A message that is enqueued once does not arrive again. -/
theorem count_arriving {s s1 s' : QueueState α} {e : QueueEvent α} {es : List (QueueEvent α)}
    {x : α}
    (hx : x ∈ s.enqueued) (hstep : s.step e = some s1)
    (hrest : (messageQueue α).exec s1 es = some s') (hcount : s'.enqueued.count x ≤ 1) :
    (arriving e).count x = 0 := by
  have hle := (enqueued_exec hrest).sublist.count_le x
  have hpos := List.count_pos_iff.mpr hx
  rw [enqueued_step hstep, List.count_append] at hle
  omega

end QueueState

omit [DecidableEq α] in
/-- When a batch is taken, no other one is under way. -/
theorem OneBatch.inFlight_eq_nil {s : QueueState α} {e : QueueEvent α} (h : OneBatch s)
    (hguard : TakesAfterShutdown s e) (htaker : s.taker e ≠ none) : s.inFlight = [] :=
  List.map_eq_nil_iff.mp (h.callers_eq_nil (processing_of_taker htaker) (hguard htaker))

/-- A message that waits in the queue and is held once is not in a batch. -/
theorem current_ne {s : QueueState α} {i : ℕ} {b : Batch α} (hb : s.inFlight[i]? = some b)
    {x : α} (hx : x ∈ s.queue.contents) (hheld : s.held x ≤ 1) : b.current ≠ x := by
  rintro rfl
  have herase := held_eraseIdx hb b.current
  have hmessages := count_messages b b.current
  have hpos := List.count_pos_iff.mpr hx
  rw [List.count_singleton_self] at hmessages
  simp only [held] at herase hheld
  omega

/-- After they waited together the messages still do, or the one in front was taken. -/
theorem WaitTogether.step {a b : α} {s s' : QueueState α} {e : QueueEvent α}
    (h : WaitTogether a b s) (hone : OneBatch s) (hguard : TakesAfterShutdown s e)
    (ha : s.held a ≤ 1) (hb : s.held b ≤ 1)
    (horder : s.queue.contents.idxOf a < s.queue.contents.idxOf b) (hstep : s.step e = some s') :
    WaitTogether a b s' ∨ Ahead a b s' := by
  obtain ⟨hmema, hmemb, hsenta, hsentb⟩ := h
  have hstay : ∀ {entries : List (PriorityItem α)} {x : α},
      s'.queue = enterAll s.queue entries → x ∈ s.queue.contents → x ∈ s'.queue.contents := by
    intro entries x hqueue hx
    rw [hqueue]
    exact (contents_enterAll _ _).mem_iff.mpr (List.mem_append_right _ hx)
  rcases outcome_step hstep with ⟨_, _, hsent, hqueue⟩ |
    ⟨size, batch, htaker, _, hdelivered, hmessages, hitems, hflight, hsent⟩ |
    ⟨i, batch, hbatch, _, hqueue, hsent, _⟩ | ⟨_, _, _, _, _, _, hsent, hqueue⟩
  · left
    exact ⟨hstay hqueue hmema, hstay hqueue hmemb, hsent ▸ hsenta, hsent ▸ hsentb⟩
  · rw [hone.inFlight_eq_nil hguard htaker, List.nil_append] at hflight
    have hpending : batch.pending = s.queue.contents.take size := by
      rw [← hmessages, Batch.messages, hdelivered]
      rfl
    rcases idxOf_take_lt horder size with hlt | ⟨hnota, hnotb⟩
    · right
      exact .inFront batch hflight (hpending ▸ hlt) (hsent ▸ hsenta) (hsent ▸ hsentb)
    · left
      have hrest : s'.queue.contents = s.queue.contents.drop size := by
        rw [PriorityQueue.contents, hitems, List.map_drop]
        rfl
      rw [← List.take_append_drop size s.queue.contents, List.mem_append] at hmema hmemb
      rw [WaitTogether, hrest, hsent]
      exact ⟨hmema.resolve_left hnota, hmemb.resolve_left hnotb, hsenta, hsentb⟩
  · left
    have hnea := current_ne hbatch hmema ha
    have hneb := current_ne hbatch hmemb hb
    rw [WaitTogether, hqueue, hsent]
    refine ⟨hmema, hmemb, ?_, ?_⟩
    · simpa [hsenta] using hnea.symm
    · simpa [hsentb] using hneb.symm
  · left
    exact ⟨hstay hqueue hmema, hstay hqueue hmemb, hsent ▸ hsenta, hsent ▸ hsentb⟩

namespace Ahead

variable {a b : α} {s s' : QueueState α} {e : QueueEvent α}

/-- The batch that has come to `a` first goes on, or fails. -/
theorem step_inFront {batch : Batch α} (hflight : s.inFlight = [batch])
    (horder : batch.pending.idxOf a < batch.pending.idxOf b) (hsenta : a ∉ s.sent)
    (hsentb : b ∉ s.sent) (hone : OneBatch s) (hguard : TakesAfterShutdown s e)
    (hstep : s.step e = some s') : WaitTogether a b s' ∨ Ahead a b s' := by
  have honly : ∀ {i : ℕ} {b' : Batch α}, s.inFlight[i]? = some b' → i = 0 ∧ b' = batch := by
    intro i b' hb'
    obtain ⟨hi, hget⟩ := List.getElem?_eq_some_iff.mp hb'
    obtain rfl : i = 0 := by
      rw [hflight, List.length_singleton] at hi
      omega
    simp only [hflight, List.getElem_cons_zero] at hget
    exact ⟨rfl, hget.symm⟩
  rcases outcome_step hstep with ⟨_, hsame, hsent, _⟩ | ⟨_, _, htaker, _⟩ |
    ⟨i, b', hb', _, _, hsent, hlater⟩ | ⟨i, b', hb', _, _, herase, hsent, _⟩
  · right
    exact .inFront batch (hsame.trans hflight) horder (hsent ▸ hsenta) (hsent ▸ hsentb)
  · rw [hone.inFlight_eq_nil hguard htaker] at hflight
    cases hflight
  · right
    obtain ⟨rfl, rfl⟩ := honly hb'
    have hne : a ≠ b := by
      rintro rfl
      exact lt_irrefl _ horder
    by_cases ha : b'.current = a
    · refine .sentFirst ?_
      rw [hsent, ha, List.idxOf_append_of_notMem hsenta, List.idxOf_append_of_notMem hsentb,
        List.idxOf_cons_self, List.idxOf_cons_ne [] hne]
      omega
    · have hb : b'.current ≠ b := by
        rintro rfl
        rw [Batch.pending, List.idxOf_cons_self] at horder
        omega
      rw [Batch.pending, List.idxOf_cons_ne _ ha, List.idxOf_cons_ne _ hb] at horder
      rcases hlater with ⟨hnil, _⟩ | ⟨next, later, hcons, hset⟩
      · rw [hnil] at horder
        exact absurd horder (lt_irrefl _)
      · rw [hflight] at hset
        refine .inFront _ hset ?_ ?_ ?_
        · rw [hcons] at horder
          exact Nat.succ_lt_succ_iff.mp horder
        · simpa [hsent, hsenta] using Ne.symm ha
        · simpa [hsent, hsentb] using Ne.symm hb
  · obtain ⟨rfl, rfl⟩ := honly hb'
    have hheld : ∀ x, s'.held x = s'.queue.contents.count x := by
      intro x
      rw [held, herase, hflight]
      rfl
    by_cases ha : a ∈ s'.queue.contents
    · by_cases hb : b ∈ s'.queue.contents
      · exact Or.inl ⟨ha, hb, hsent ▸ hsenta, hsent ▸ hsentb⟩
      · exact Or.inr (.gone b (Or.inr rfl) (by rw [hheld, List.count_eq_zero_of_not_mem hb])
          (hsent ▸ hsentb))
    · exact Or.inr (.gone a (Or.inl rfl) (by rw [hheld, List.count_eq_zero_of_not_mem ha])
        (hsent ▸ hsenta))

/-- A message that is gone does not come back. -/
theorem step_gone {x : α} (hheld : s.held x = 0) (hsent : x ∉ s.sent)
    (harriving : (arriving e).count x = 0) (hstep : s.step e = some s') :
    s'.held x = 0 ∧ x ∉ s'.sent := by
  have hle := held_step hstep x
  refine ⟨by omega, ?_⟩
  rcases outcome_step hstep with ⟨_, _, hsame, _⟩ | ⟨_, _, _, _, _, _, _, _, hsame⟩ |
    ⟨i, b', hb', _, _, hsends, _⟩ | ⟨_, _, _, _, _, _, hsame, _⟩
  · rwa [hsame]
  · rwa [hsame]
  · have herase := held_eraseIdx hb' x
    have hmessages := count_messages b' x
    rw [hsends, List.mem_append, List.mem_singleton]
    rintro (hmem | rfl)
    · exact hsent hmem
    · rw [List.count_singleton_self] at hmessages
      omega
  · rwa [hsame]

/-- Sent messages are only added. -/
theorem step_sentFirst (horder : s.sent.idxOf a < s.sent.idxOf b) (hstep : s.step e = some s') :
    s'.sent.idxOf a < s'.sent.idxOf b := by
  rcases outcome_step hstep with ⟨_, _, hsame, _⟩ | ⟨_, _, _, _, _, _, _, _, hsame⟩ |
    ⟨_, _, _, _, _, hsends, _⟩ | ⟨_, _, _, _, _, _, hsame, _⟩
  · rwa [hsame]
  · rwa [hsame]
  · rw [hsends]
    exact idxOf_append_lt horder _
  · rwa [hsame]

theorem step (h : Ahead a b s) (hone : OneBatch s) (hguard : TakesAfterShutdown s e)
    (ha : (arriving e).count a = 0) (hb : (arriving e).count b = 0)
    (hstep : s.step e = some s') : WaitTogether a b s' ∨ Ahead a b s' := by
  rcases h with ⟨batch, hflight, horder, hsenta, hsentb⟩ | horder | ⟨x, hx, hheld, hsent⟩
  · exact step_inFront hflight horder hsenta hsentb hone hguard hstep
  · exact Or.inr (.sentFirst (step_sentFirst horder hstep))
  · have harriving : (arriving e).count x = 0 := by
      rcases hx with rfl | rfl
      · exact ha
      · exact hb
    obtain ⟨hheld', hsent'⟩ := step_gone hheld hsent harriving hstep
    exact Or.inr (.gone x hx hheld' hsent')

/-- The run from there on. -/
theorem exec (h : Ahead a b s) {es : List (QueueEvent α)}
    (hreached : (messageQueue α).Reached TakesAfterShutdown s)
    (ha : a ∈ s.enqueued) (hb : b ∈ s.enqueued)
    (hguard : (messageQueue α).Guarded
      (fun s e => TakesAfterShutdown s e ∧ Parted a b s e) s es)
    (hexec : (messageQueue α).exec s es = some s')
    (hcounta : s'.enqueued.count a ≤ 1) (hcountb : s'.enqueued.count b ≤ 1) : Ahead a b s' := by
  induction es generalizing s with
  | nil =>
    obtain rfl := Option.some.inj hexec
    exact h
  | cons e es ih =>
    obtain ⟨s1, hstep, hrest⟩ := Option.bind_eq_some_iff.mp hexec
    obtain ⟨⟨htakes, hparted⟩, hguard'⟩ := hguard
    have hgrows : s.enqueued ⊆ s1.enqueued := by
      rw [enqueued_step hstep]
      exact List.subset_append_left _ _
    have hahead : Ahead a b s1 :=
      (h.step (oneBatch_of_reached hreached) htakes (count_arriving ha hstep hrest hcounta)
        (count_arriving hb hstep hrest hcountb) hstep).resolve_left (hparted s1 hstep)
    exact ih hahead (hreached.step htakes hstep) (hgrows ha) (hgrows hb) (hguard' s1 hstep) hrest

end Ahead

/-- Two messages that are enqueued once each and both sent in the end are first sent in the order
of their last entries at the moment when they last waited in the queue together: the higher
priority first, and at equal priorities the earlier entry. The priority of an entry is the one
given by the user, and after a failed batch the retry count. -/
theorem idxOf_sent_lt {a b : α} {p : QueueState α × List (PriorityItem α)} {s' : QueueState α}
    {es : List (QueueEvent α)}
    (hreached : ((messageQueue α).recorded entering).Reached
      (fun p e => TakesAfterShutdown p.1 e) p)
    (hwait : WaitTogether a b p.1) (hprecedes : Precedes p.2 a b)
    (hguard : (messageQueue α).Guarded TakesAfterShutdown p.1 es)
    (hparted : (messageQueue α).Guarded (Parted a b) p.1 es)
    (hexec : (messageQueue α).exec p.1 es = some s')
    (hcounta : s'.enqueued.count a = 1) (hcountb : s'.enqueued.count b = 1)
    (ha : a ∈ s'.sent) (hb : b ∈ s'.sent) : s'.sent.idxOf a < s'.sent.idxOf b := by
  have hreached' : (messageQueue α).Reached TakesAfterShutdown p.1 :=
    hreached.of_recorded fun _ _ h => h
  have hgrows := (enqueued_exec hexec).sublist
  have hheld : ∀ x, p.1.held x ≤ p.1.enqueued.count x := fun x =>
    (held_le_count_enqueued x).of_reached (hreached'.mono fun _ _ _ => trivial)
  have honcea : p.1.enqueued.count a ≤ 1 := (hgrows.count_le a).trans hcounta.le
  have honceb : p.1.enqueued.count b ≤ 1 := (hgrows.count_le b).trans hcountb.le
  have henqueued : ∀ x ∈ p.1.queue.contents, x ∈ p.1.enqueued := by
    intro x hx
    have hpos := List.count_pos_iff.mpr hx
    have hle := hheld x
    rw [held] at hle
    exact List.count_pos_iff.mp (by omega)
  have horder := (entered_of_reached hreached).idxOf_lt honcea honceb hwait.1 hwait.2.1 hprecedes
  have hahead : Ahead a b s' := by
    cases es with
    | nil =>
      obtain rfl := Option.some.inj hexec
      exact absurd ha hwait.2.2.1
    | cons e es =>
      obtain ⟨s1, hstep, hrest⟩ := Option.bind_eq_some_iff.mp hexec
      have hgrows1 : p.1.enqueued ⊆ s1.enqueued := by
        rw [enqueued_step hstep]
        exact List.subset_append_left _ _
      have hfirst : Ahead a b s1 :=
        (hwait.step (oneBatch_of_reached hreached') hguard.1 ((hheld a).trans honcea)
          ((hheld b).trans honceb) horder hstep).resolve_left (hparted.1 s1 hstep)
      exact hfirst.exec (hreached'.step hguard.1 hstep)
        (hgrows1 (henqueued a hwait.1)) (hgrows1 (henqueued b hwait.2.1))
        (System.guarded_and (hguard.2 s1 hstep) (hparted.2 s1 hstep)) hrest hcounta.le hcountb.le
  rcases hahead with ⟨_, _, _, hsenta, _⟩ | horder' | ⟨x, hx, _, hsent⟩
  · exact absurd ha hsenta
  · exact horder'
  · rcases hx with rfl | rfl
    · exact absurd ha hsent
    · exact absurd hb hsent

/-- The first message fails, and is put back with a lower priority than that of the second. -/
def firstFails : List (QueueEvent ℕ) :=
  [.enqueue 0 (some 10), .enqueue 1 (some 5), .tick, settleFirst (.error [])]

/-- Two batches with one message each, both sent. -/
def sendBoth : List (QueueEvent ℕ) := [.tick, settleFirst (.ok ()), .tick, settleFirst (.ok ())]

/-- The queue with its entries after the failure. -/
def afterFailure : QueueState ℕ × List (PriorityItem ℕ) :=
  (((messageQueue ℕ).recorded entering).exec (singleQueue, []) firstFails).get (by decide +kernel)

theorem idxOf_sent_lt_firstFails : ∃ s', (messageQueue ℕ).exec afterFailure.1 sendBoth = some s' ∧
    s'.sent.idxOf 1 < s'.sent.idxOf 0 := by
  have hguarded : ((messageQueue ℕ).recorded entering).Guarded
      (fun p e => TakesAfterShutdown p.1 e) (singleQueue, []) firstFails := by decide +kernel
  have hreached : ((messageQueue ℕ).recorded entering).Reached
      (fun p e => TakesAfterShutdown p.1 e) afterFailure :=
    System.Reached.exec (.init ⟨⟨_, _, rfl⟩, rfl⟩) hguarded (Option.some_get _).symm
  have hprecedes : Precedes afterFailure.2 1 0 :=
    ⟨5, 1, by decide +kernel, by decide +kernel, by decide +kernel⟩
  exact ⟨_, (Option.some_get (by decide +kernel)).symm,
    idxOf_sent_lt hreached (by decide +kernel) hprecedes (by decide +kernel) (by decide +kernel)
      (Option.some_get (by decide +kernel)).symm (by decide +kernel) (by decide +kernel)
      (by decide +kernel) (by decide +kernel)⟩

/-- The calls of `enqueue` in a run. -/
def enqueues : List (QueueEvent α) → List (PriorityItem α) :=
  List.filterMap fun
    | .enqueue message priority => some ⟨message, priority.getD 1⟩
    | _ => none

/-- If two messages wait in the queue together and both are sent in the end, they are first sent
in the order of their priorities when they were enqueued, and in that of the calls at equal
priorities. -/
def KeepsEnqueueOrder (a b : α) (s : QueueState α) (es : List (QueueEvent α)) : Prop :=
  ∀ es1 es2 s1 s', es = es1 ++ es2 → (messageQueue α).exec s es1 = some s1 →
    (messageQueue α).exec s1 es2 = some s' → WaitTogether a b s1 → a ∈ s'.sent → b ∈ s'.sent →
      Precedes (enqueues es) a b → s'.sent.idxOf a < s'.sent.idxOf b

/-- The second message is sent before the first one. -/
theorem not_keepsEnqueueOrder_firstFails :
    ¬ KeepsEnqueueOrder 0 1 singleQueue (firstFails ++ sendBoth) := by
  intro h
  have hprecedes : Precedes (enqueues (firstFails ++ sendBoth)) 0 1 :=
    ⟨10, 5, by decide +kernel, by decide +kernel, by decide +kernel⟩
  have hlt := h [.enqueue 0 (some 10), .enqueue 1 (some 5)]
    ([.tick, settleFirst (.error [])] ++ sendBoth) _ _ rfl
    (Option.some_get (by decide +kernel)).symm (Option.some_get (by decide +kernel)).symm
    (by decide +kernel) (by decide +kernel) (by decide +kernel) hprecedes
  revert hlt
  decide +kernel

end NestQuickfix
