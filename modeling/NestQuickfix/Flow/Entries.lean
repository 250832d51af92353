import NestQuickfix.Flow.Batches
import NestQuickfix.Flow.Retries
import NestQuickfix.Lib.StableSort

/-!
# Entries into the queue

A message enters the queue when it is enqueued, and again each time its batch fails. A record of
all entries tells the order of the queue: the priorities of the last entries decide, and among
equal ones the earlier entry.
-/

namespace NestQuickfix

open Lib

variable {α : Type*} [DecidableEq α]

/-! ## The record -/

/-- The priority with which a message entered last. -/
def lastPriority (log : List (PriorityItem α)) (m : α) : Option ℚ :=
  (log.reverse.find? fun x => x.item = m).map PriorityItem.priority

/-- How many entries followed the last one of a message. -/
def followers (log : List (PriorityItem α)) (m : α) : ℕ :=
  log.reverse.findIdx fun x => x.item = m

/-- The last entry of `a` has a higher priority than that of `b`, or it is the earlier one of two
with equal priorities. -/
def Precedes (log : List (PriorityItem α)) (a b : α) : Prop :=
  ∃ p q, lastPriority log a = some p ∧ lastPriority log b = some q ∧
    (q < p ∨ p = q ∧ followers log b < followers log a)

theorem lastPriority_concat (log : List (PriorityItem α)) (x : PriorityItem α) (m : α) :
    lastPriority (log ++ [x]) m = if x.item = m then some x.priority else lastPriority log m := by
  rw [lastPriority, List.reverse_concat, List.find?_cons]
  by_cases hx : x.item = m
  · simp [hx]
  · simp [hx, lastPriority]

theorem followers_concat (log : List (PriorityItem α)) (x : PriorityItem α) (m : α) :
    followers (log ++ [x]) m = if x.item = m then 0 else followers log m + 1 := by
  rw [followers, List.reverse_concat, List.findIdx_cons]
  by_cases hx : x.item = m
  · simp [hx]
  · simp [hx, followers]

/-- Of two messages at most one precedes the other. -/
theorem Precedes.asymm {log : List (PriorityItem α)} {a b : α} (h : Precedes log a b) :
    ¬ Precedes log b a := by
  obtain ⟨p, q, hp, hq, hpq⟩ := h
  rintro ⟨q', p', hq', hp', hqp⟩
  obtain rfl := Option.some.inj (hp.symm.trans hp')
  obtain rfl := Option.some.inj (hq.symm.trans hq')
  rcases hpq with hlt | ⟨rfl, hfollow⟩
  · rcases hqp with hlt' | ⟨rfl, _⟩
    · exact lt_asymm hlt hlt'
    · exact lt_irrefl _ hlt
  · rcases hqp with hlt' | ⟨_, hfollow'⟩
    · exact lt_irrefl _ hlt'
    · exact lt_asymm hfollow hfollow'

/-- The queue after some entries. -/
def enterAll (q : PriorityQueue α) (entries : List (PriorityItem α)) : PriorityQueue α :=
  entries.foldl (fun q x => q.enqueue x.item x.priority) q

omit [DecidableEq α] in
theorem contents_enterAll (q : PriorityQueue α) (entries : List (PriorityItem α)) :
    (enterAll q entries).contents.Perm (entries.map PriorityItem.item ++ q.contents) := by
  induction entries generalizing q with
  | nil => exact List.Perm.refl _
  | cons x entries ih =>
    refine (ih _).trans (List.Perm.trans ?_ List.perm_middle)
    exact List.Perm.append_left _ (q.contents_enqueue x.item x.priority)

/-- The record tells the order of the queue, for messages that can be in it once only. -/
structure Entered (once : α → Prop) (q : PriorityQueue α) (log : List (PriorityItem α)) :
    Prop where
  priority : ∀ x ∈ q.items, once x.item → lastPriority log x.item = some x.priority
  order : q.items.Pairwise fun x y => once x.item → once y.item → x.priority = y.priority →
    followers log y.item < followers log x.item

namespace Entered

variable {once once' : α → Prop} {q q' : PriorityQueue α} {log : List (PriorityItem α)}

theorem mono (h : Entered once q log) (honce : ∀ m, once' m → once m) : Entered once' q log :=
  ⟨fun x hx hm => h.priority x hx (honce _ hm),
    h.order.imp fun hxy hx hy => hxy (honce _ hx) (honce _ hy)⟩

/-- Taking items from the front keeps the order. -/
theorem suffix (h : Entered once q log) (hq : q'.items <:+ q.items) : Entered once q' log :=
  ⟨fun x hx => h.priority x (hq.subset hx), h.order.sublist hq.sublist⟩

/-- An entry goes behind the items of its priority and above. -/
theorem enqueue (h : Entered once q log) {m : α} (hm : once m → m ∉ q.contents) (p : ℚ) :
    Entered once (q.enqueue m p) (log ++ [⟨m, p⟩]) := by
  have hne : ∀ x ∈ q.items, once x.item → m ≠ x.item := by
    rintro x hx honce rfl
    exact hm honce (List.mem_map_of_mem hx)
  have hitems : (q.enqueue m p).items = insertBehind PriorityItem.Before ⟨m, p⟩ q.items := by
    change List.insertionSort PriorityItem.Before (q.items ++ [⟨m, p⟩]) = _
    rw [insertionSort_concat, q.sorted.insertionSort_eq]
  constructor
  · intro x hx honce
    rw [lastPriority_concat]
    rw [hitems, insertBehind, List.mem_append, List.mem_cons, or_left_comm, ← List.mem_append,
      List.takeWhile_append_dropWhile] at hx
    rcases hx with rfl | hx
    · exact if_pos rfl
    · rw [if_neg (hne x hx honce)]
      exact h.priority x hx honce
  · rw [hitems]
    refine pairwise_insertBehind _ q.sorted ?_ ?_ ?_
    · refine h.order.imp_of_mem fun {x y} hx hy hxy honcex honcey heq => ?_
      rw [followers_concat, followers_concat, if_neg (hne x hx honcex),
        if_neg (hne y hy honcey)]
      exact Nat.succ_lt_succ (hxy honcex honcey heq)
    · intro x hx _ honcex _ _
      rw [followers_concat, followers_concat, if_pos rfl, if_neg (hne x hx honcex)]
      exact Nat.succ_pos _
    · intro x _ hbefore _ _ heq
      exact absurd heq.le hbefore

/-- Entries keep the order if each brings a message that is not in the queue. -/
theorem enterAll (h : Entered once q log) {entries : List (PriorityItem α)}
    (hcount : ∀ m, once m → q.contents.count m + (entries.map PriorityItem.item).count m ≤ 1) :
    Entered once (NestQuickfix.enterAll q entries) (log ++ entries) := by
  induction entries generalizing q log with
  | nil => rwa [List.append_nil]
  | cons x entries ih =>
    have hsplit : ∀ m, ((x :: entries).map PriorityItem.item).count m =
        (entries.map PriorityItem.item).count m + [x.item].count m := by
      intro m
      rw [List.map_cons, List.count_cons, List.count_singleton]
    have hx : once x.item → x.item ∉ q.contents := by
      intro honce hmem
      have hle := hcount x.item honce
      have hpos := List.count_pos_iff.mpr hmem
      rw [hsplit, List.count_singleton_self] at hle
      omega
    rw [List.append_cons]
    refine ih (h.enqueue hx x.priority) fun m honce => ?_
    have hperm := (q.contents_enqueue x.item x.priority).count_eq m
    have hle := hcount m honce
    rw [hsplit, List.count_singleton] at hle
    rw [hperm, List.count_cons]
    omega

/-- Items stand in the queue in the order of their last entries. -/
theorem precedes (h : Entered once q log) :
    q.items.Pairwise fun x y => once x.item → once y.item → Precedes log x.item y.item := by
  refine (h.order.and q.sorted).imp_of_mem fun {x y} hx hy hxy honcex honcey => ?_
  refine ⟨_, _, h.priority x hx honcex, h.priority y hy honcey, ?_⟩
  rcases lt_or_eq_of_le hxy.2 with hlt | heq
  · exact Or.inl hlt
  · exact Or.inr ⟨heq.symm, hxy.1 honcex honcey heq.symm⟩

/-- In the queue the message that precedes the other one stands in front of it. -/
theorem idxOf_lt (h : Entered once q log) {a b : α} (ha : once a) (hb : once b)
    (hmema : a ∈ q.contents) (hmemb : b ∈ q.contents) (hprecedes : Precedes log a b) :
    q.contents.idxOf a < q.contents.idxOf b := by
  have hia := List.idxOf_lt_length_iff.mpr hmema
  have hib := List.idxOf_lt_length_iff.mpr hmemb
  have hgeta : q.contents[q.contents.idxOf a] = a := List.getElem_idxOf hia
  have hgetb : q.contents[q.contents.idxOf b] = b := List.getElem_idxOf hib
  have hlength : q.contents.length = q.items.length := List.length_map _
  by_contra hnot
  rcases Nat.lt_or_eq_of_le (not_lt.mp hnot) with hlt | heq
  · have hpair := List.pairwise_iff_getElem.mp h.precedes _ _ (hlength ▸ hib) (hlength ▸ hia) hlt
    have hitema : q.items[q.contents.idxOf a].item = a := by
      rw [← List.getElem_map PriorityItem.item]
      exact hgeta
    have hitemb : q.items[q.contents.idxOf b].item = b := by
      rw [← List.getElem_map PriorityItem.item]
      exact hgetb
    rw [hitema, hitemb] at hpair
    exact hprecedes.asymm (hpair hb ha)
  · obtain rfl := (List.idxOf_inj hmemb).mp heq
    exact hprecedes.asymm hprecedes

end Entered

/-! ## The entries of a step -/

namespace QueueState

/-- The entries that `handleSendError` makes. -/
def reentries (listenerThrows : α → Bool) : List α → QueueState α → List (PriorityItem α)
  | [], _ => []
  | message :: messages, s =>
    let retryCount := (s.retryCount message).getD 0
    if retryCount ≤ s.maxRetries then
      let s := { s with retryCount := Function.update s.retryCount message (some (retryCount + 1)) }
      ⟨message, retryCount + 1⟩ ::
        reentries listenerThrows messages (s.put message (some (retryCount + 1)))
    else if listenerThrows message then []
    else reentries listenerThrows messages (s.handleFailedMessage message)

/-- The entries into the queue in this step. -/
def entering (s : QueueState α) : QueueEvent α → List (PriorityItem α)
  | .enqueue message priority => [⟨message, priority.getD 1⟩]
  | .settle i hasMsgType session listenerThrows =>
    match s.inFlight[i]?, processMessage hasMsgType session with
    | some b, .error _ =>
      reentries listenerThrows b.messages { s with inFlight := s.inFlight.eraseIdx i }
    | _, _ => []
  | _ => []

theorem queue_eq_enterAll (listenerThrows : α → Bool) (ms : List α) (s : QueueState α) :
    (handleSendError listenerThrows ms s).queue =
      enterAll s.queue (reentries listenerThrows ms s) := by
  induction ms generalizing s with
  | nil => rfl
  | cons m ms ih =>
    simp only [handleSendError, reentries]
    split
    · rw [ih]
      rfl
    · split
      · rfl
      · rw [ih]
        rfl

theorem sublist_reentries (listenerThrows : α → Bool) (ms : List α) (s : QueueState α) :
    ((reentries listenerThrows ms s).map PriorityItem.item).Sublist ms := by
  induction ms generalizing s with
  | nil => exact List.Sublist.refl _
  | cons m ms ih =>
    simp only [reentries]
    split
    · exact (ih _).cons_cons m
    · split
      · exact List.nil_sublist _
      · exact (ih _).cons m

/-- What a step does to the queue, the batches under way and the sent messages. -/
inductive Outcome (s s' : QueueState α) (e : QueueEvent α) : Prop
  | rests : (s.entering e).map PriorityItem.item = arriving e → s'.inFlight = s.inFlight →
      s'.sent = s.sent → s'.queue = enterAll s.queue (s.entering e) → Outcome s s' e
  | takes (size : ℕ) (b : Batch α) : s.taker e ≠ none → s.entering e = [] → b.delivered = [] →
      b.messages = s.queue.contents.take size → s'.queue.items = s.queue.items.drop size →
      s'.inFlight = s.inFlight ++ [b] → s'.sent = s.sent → Outcome s s' e
  | sends (i : ℕ) (b : Batch α) : s.inFlight[i]? = some b →
      s.entering e = [] → s'.queue = s.queue → s'.sent = s.sent ++ [b.current] →
      (b.later = [] ∧ s'.inFlight = s.inFlight.eraseIdx i ∨ ∃ next later, b.later = next :: later ∧
        s'.inFlight = s.inFlight.set i ⟨b.delivered ++ [b.current], next, later, b.caller⟩) →
      Outcome s s' e
  | fails (i : ℕ) (b : Batch α) : s.inFlight[i]? = some b → arriving e = [] →
      ((s.entering e).map PriorityItem.item).Sublist b.messages →
      s'.inFlight = s.inFlight.eraseIdx i → s'.sent = s.sent →
      s'.queue = enterAll s.queue (s.entering e) → Outcome s s' e

omit [DecidableEq α] in
theorem takeBatch_eq_take (size : ℕ) (q : PriorityQueue α) :
    (takeBatch size q).1 = q.contents.take size := by
  have hrest : (takeBatch size q).2.contents = q.contents.drop size := by
    rw [PriorityQueue.contents, items_takeBatch, List.map_drop]
    rfl
  have hsplit := contents_takeBatch size q
  rw [hrest] at hsplit
  nth_rewrite 1 [← List.take_append_drop size q.contents] at hsplit
  exact (List.append_cancel_right hsplit).symm

omit [DecidableEq α] in
/-- A batch is taken from a queue that is not empty, if there is room for a message. -/
theorem inFlight_processBatch {s : QueueState α} (hqueue : s.queue.isEmpty = false)
    (caller : BatchCaller) :
    ((s.processBatch caller).inFlight = s.inFlight ∧ (s.processBatch caller).queue = s.queue ∧
        (s.processBatch caller).sent = s.sent) ∨
      ∃ b : Batch α, b.delivered = [] ∧
        b.messages = s.queue.contents.take s.maxBatchSize.toNat ∧
        (s.processBatch caller).inFlight = s.inFlight ++ [b] ∧
        (s.processBatch caller).sent = s.sent := by
  by_cases hsize : 0 < s.maxBatchSize.toNat
  · obtain ⟨m, ms, q, htake⟩ := takeBatch_eq_cons hsize hqueue
    right
    refine ⟨⟨[], m, ms, caller⟩, rfl, ?_, ?_, ?_⟩
    · rw [← takeBatch_eq_take, htake]
      rfl
    · rw [processBatch, htake]
    · rw [processBatch, htake]
  · have htake : takeBatch s.maxBatchSize.toNat s.queue = ([], s.queue) := takeBatch_of_size hsize
    left
    rw [processBatch, htake]
    cases caller <;> exact ⟨rfl, rfl, rfl⟩

theorem outcome_processBatch {s t : QueueState α} {e : QueueEvent α} {caller : BatchCaller}
    (htaker : s.taker e ≠ none) (hempty : s.queue.isEmpty = false)
    (harriving : arriving e = []) (hentering : s.entering e = []) (hqueue : t.queue = s.queue)
    (hinFlight : t.inFlight = s.inFlight) (hsent : t.sent = s.sent) :
    Outcome s (t.processBatch caller) e := by
  rcases inFlight_processBatch (hqueue ▸ hempty) caller with
    ⟨hbatches, hsame, hsends⟩ | ⟨b, hdelivered, hmessages, hbatches, hsends⟩
  · refine .rests ?_ (hbatches.trans hinFlight) (hsends.trans hsent) ?_
    · rw [hentering, harriving, List.map_nil]
    · rw [hsame, hqueue, hentering]
      rfl
  · refine .takes t.maxBatchSize.toNat b htaker hentering hdelivered ?_ ?_ ?_ (hsends.trans hsent)
    · rw [hmessages, hqueue]
    · rw [items_processBatch, hqueue]
    · rw [hbatches, hinFlight]

/-- A step that changes flags only. -/
theorem Outcome.flags {s s' : QueueState α} {e : QueueEvent α} (harriving : arriving e = [])
    (hentering : s.entering e = []) (hqueue : s'.queue = s.queue)
    (hinFlight : s'.inFlight = s.inFlight) (hsent : s'.sent = s.sent) : Outcome s s' e := by
  refine .rests ?_ hinFlight hsent ?_
  · rw [hentering, harriving, List.map_nil]
  · rw [hentering, hqueue]
    rfl

theorem outcome_drain {s t : QueueState α} {e : QueueEvent α}
    (htaker : s.queue.isEmpty = false → s.taker e ≠ none) (harriving : arriving e = [])
    (hentering : s.entering e = []) (hqueue : t.queue = s.queue)
    (hinFlight : t.inFlight = s.inFlight) (hsent : t.sent = s.sent) : Outcome s t.drain e := by
  unfold drain
  split
  · exact .flags harriving hentering hqueue hinFlight hsent
  · next hne =>
    have hempty : s.queue.isEmpty = false := by
      rw [← hqueue]
      exact Bool.eq_false_iff.mpr hne
    exact outcome_processBatch (htaker hempty) hempty harriving hentering hqueue hinFlight hsent

theorem outcome_step {s s' : QueueState α} {e : QueueEvent α} (h : s.step e = some s') :
    Outcome s s' e := by
  cases e with
  | enqueue m priority =>
    obtain rfl := Option.some.inj h
    exact .rests rfl rfl rfl rfl
  | tick =>
    obtain rfl := Option.some.inj h
    unfold tick
    split
    · exact .flags rfl rfl rfl rfl rfl
    · next hskip =>
      have htaker : s.taker .tick ≠ none := by simp [taker, hskip]
      simp only [Bool.or_eq_true, not_or, Bool.not_eq_true] at hskip
      exact outcome_processBatch htaker hskip.2 rfl rfl rfl rfl rfl
  | settle i hasMsgType session listenerThrows =>
    obtain ⟨b, hb, ⟨hok, rfl⟩ | ⟨error, herror, rfl⟩⟩ := settle_cases h
    · have hentering : s.entering (.settle i hasMsgType session listenerThrows) = [] := by
        simp [entering, hb, hok]
      unfold sendNext
      cases hlater : b.later with
      | nil =>
        refine .sends i b hb hentering ?_ ?_ (Or.inl ⟨hlater, ?_⟩)
        all_goals cases b.caller <;> rfl
      | cons next later =>
        exact .sends i b hb hentering rfl rfl (Or.inr ⟨next, later, hlater, rfl⟩)
    · have hentering : s.entering (.settle i hasMsgType session listenerThrows) =
          reentries listenerThrows b.messages { s with inFlight := s.inFlight.eraseIdx i } := by
        simp [entering, hb, herror]
      have hfinish := sent_finish (handleSendError listenerThrows b.messages
        { s with inFlight := s.inFlight.eraseIdx i }) b.caller
      have herrors := sent_handleSendError listenerThrows b.messages
        { s with inFlight := s.inFlight.eraseIdx i }
      refine .fails i b hb rfl ?_ (hfinish.2.trans herrors.2) (hfinish.1.trans herrors.1) ?_
      · rw [hentering]
        exact sublist_reentries _ _ _
      · have hqueue := queue_eq_enterAll listenerThrows b.messages
          { s with inFlight := s.inFlight.eraseIdx i }
        rw [hentering]
        refine Eq.trans ?_ hqueue
        cases b.caller <;> rfl
  | pause | resume =>
    obtain rfl := Option.some.inj h
    exact .flags rfl rfl rfl rfl rfl
  | shutdown =>
    simp only [step] at h
    split at h
    · obtain rfl := Option.some.inj h
      exact .flags rfl rfl rfl rfl rfl
    · next hprocessing =>
      obtain rfl := Option.some.inj h
      exact outcome_drain (fun hempty => by simp [taker, hprocessing, hempty]) rfl rfl rfl rfl rfl
  | poll =>
    simp only [step] at h
    split at h
    · cases h
    · next hwaiting =>
      split at h
      · obtain rfl := Option.some.inj h
        exact .flags rfl rfl rfl rfl rfl
      · next hprocessing =>
        obtain rfl := Option.some.inj h
        refine outcome_drain (fun hempty => ?_) rfl rfl rfl rfl rfl
        simp [taker, hwaiting, hprocessing, hempty]

/-! ## Runs -/

theorem count_enterAll {q q' : PriorityQueue α} {entries : List (PriorityItem α)}
    (h : q' = enterAll q entries) (x : α) : q'.contents.count x =
      (entries.map PriorityItem.item).count x + q.contents.count x := by
  rw [h, (contents_enterAll q entries).count_eq, List.count_append]

/-- A message that enters is not in the queue, as often as it can be held once only. -/
theorem count_entering {s s' : QueueState α} {e : QueueEvent α} (h : s.step e = some s') (x : α) :
    s.queue.contents.count x + ((s.entering e).map PriorityItem.item).count x ≤
      s.held x + (arriving e).count x := by
  have hcontents : s.queue.contents.count x ≤ s.held x := Nat.le_add_right _ _
  rcases outcome_step h with ⟨harriving, _⟩ | ⟨_, _, _, hentering, _⟩ | ⟨_, _, _, hentering, _⟩ |
    ⟨i, b, hb, _, hsub, _⟩
  · rw [harriving]
    omega
  · rw [hentering, List.map_nil, List.count_nil]
    omega
  · rw [hentering, List.map_nil, List.count_nil]
    omega
  · have hcount := hsub.count_le x
    have herase := held_eraseIdx hb x
    have hrest : s.queue.contents.count x ≤
      { s with inFlight := s.inFlight.eraseIdx i }.held x := Nat.le_add_right _ _
    omega

/-- A step brings a message into the queue and the batches only by its arrival. -/
theorem held_step {s s' : QueueState α} {e : QueueEvent α} (h : s.step e = some s') (x : α) :
    s'.held x ≤ s.held x + (arriving e).count x := by
  rcases outcome_step h with ⟨harriving, hflight, _, hqueue⟩ |
    ⟨size, b, _, _, hdelivered, hmessages, hitems, hflight, _⟩ |
    ⟨i, b, hb, _, hqueue, _, ⟨_, hflight⟩ | ⟨next, later, hlater, hflight⟩⟩ |
    ⟨i, b, hb, harriving, hsub, hflight, _, hqueue⟩
  · rw [held, held, count_enterAll hqueue, hflight, harriving]
    omega
  · have hrest : s'.queue.contents = s.queue.contents.drop size := by
      rw [PriorityQueue.contents, hitems, List.map_drop]
      rfl
    have hsplit := congrArg (List.count x) (List.take_append_drop size s.queue.contents)
    rw [List.count_append] at hsplit
    simp only [held, hflight, hrest, List.map_append, List.sum_append, List.map_cons,
      List.map_nil, List.sum_cons, List.sum_nil, hmessages]
    omega
  · have herase := held_eraseIdx hb x
    simp only [held, hqueue, hflight] at herase ⊢
    omega
  · have hset := sum_map_set hb ⟨b.delivered ++ [b.current], next, later, b.caller⟩
      fun b => b.messages.count x
    have hmessages : (b.delivered ++ [b.current]) ++ next :: later = b.messages := by
      rw [Batch.messages, hlater, List.append_assoc]
      rfl
    simp only [held, hqueue, hflight, Batch.messages, hmessages] at hset ⊢
    omega
  · have herase := held_eraseIdx hb x
    have hcount := hsub.count_le x
    simp only [held, count_enterAll hqueue, hflight] at herase ⊢
    omega

/-- A message is queued or in a batch as often as it was enqueued, at most. -/
theorem held_le_count_enqueued (x : α) : System.Invariant (messageQueue α) (fun _ _ => True)
    fun s => s.held x ≤ s.enqueued.count x where
  init := by
    rintro s ⟨config, retryCount, rfl⟩
    exact Nat.le_refl 0
  step := by
    intro s e s' hle _ hstep
    have hheld := held_step hstep x
    rw [enqueued_step hstep, List.count_append]
    omega

/-- After every run the record of entries tells the order of the messages enqueued once. -/
theorem entered_of_reached {guard : QueueState α × List (PriorityItem α) → QueueEvent α → Prop}
    {p : QueueState α × List (PriorityItem α)}
    (h : ((messageQueue α).recorded entering).Reached guard p) :
    Entered (fun m => p.1.enqueued.count m ≤ 1) p.1.queue p.2 := by
  induction h with
  | init hinit =>
    obtain ⟨⟨config, retryCount, hs⟩, hlog⟩ := hinit
    rw [hs, hlog]
    exact ⟨fun x hx => absurd hx List.not_mem_nil, List.Pairwise.nil⟩
  | @step p p' e hreached _ hstep ih =>
    obtain ⟨hs', hlog⟩ := System.recorded_step.mp hstep
    have hreached' : System.Reached (messageQueue α) (fun _ _ => True) p.1 :=
      hreached.of_recorded fun _ _ _ => trivial
    have henqueued : ∀ m, p'.1.enqueued.count m = p.1.enqueued.count m + (arriving e).count m := by
      intro m
      rw [enqueued_step hs', List.count_append]
    have hold : Entered (fun m => p'.1.enqueued.count m ≤ 1) p.1.queue p.2 :=
      ih.mono fun m hm => by
        rw [henqueued] at hm
        omega
    have hcount : ∀ m, p'.1.enqueued.count m ≤ 1 →
        p.1.queue.contents.count m + ((p.1.entering e).map PriorityItem.item).count m ≤ 1 := by
      intro m hm
      have hentering := count_entering hs' m
      have hheld := (held_le_count_enqueued m).of_reached hreached'
      rw [henqueued] at hm
      omega
    rw [hlog]
    rcases outcome_step hs' with ⟨_, _, _, hqueue⟩ | ⟨size, _, _, hentering, _, _, hitems, _⟩ |
      ⟨_, _, _, hentering, hqueue, _⟩ | ⟨_, _, _, _, _, _, _, hqueue⟩
    · rw [hqueue]
      exact hold.enterAll hcount
    · rw [hentering, List.append_nil]
      exact hold.suffix (hitems ▸ List.drop_suffix _ _)
    · rw [hentering, List.append_nil, hqueue]
      exact hold
    · rw [hqueue]
      exact hold.enterAll hcount

end QueueState

end NestQuickfix
