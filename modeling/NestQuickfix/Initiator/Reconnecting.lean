import NestQuickfix.Initiator.Stopping

/-!
# Reconnecting

One call of `start` may lead to a chain of attempts: an attempt fails, a timer is set, and it
starts the next attempt. The chain is described by a small machine of its own, whose phases
determine all the counters of the initiator. So the attempts and the timers are bounded in every
run, and it is said exactly in which runs the end of the chain is reported.
-/

namespace NestQuickfix.Initiator

open Lib Lib.Exec Acceptor

/-! ## The phases of a chain of attempts -/

/-- The numbers that a chain of attempts changes. -/
structure Counts where
  starts : ℕ
  reconnectAttempts : ℕ
  timers : ℕ
  waiting : ℕ
  failures : ℕ
  reports : ℕ

/-- How far a chain of attempts has come. The attempts are numbered from zero on. -/
inductive Progress where
  | fresh
  | attempting (k : ℕ)
  /-- Attempt `k` has failed, and a timer is set. -/
  | pausing (k : ℕ)
  /-- Attempt `k` has failed and is the last one, which may have been reported. -/
  | ended (k : ℕ) (reported : Bool)

namespace Progress

def counts : Progress → Counts
  | .fresh => ⟨0, 0, 0, 0, 0, 0⟩
  | .attempting k => ⟨k + 1, k, 0, 1, k, 0⟩
  | .pausing k => ⟨k + 1, k, 1, 0, k + 1, 0⟩
  | .ended k reported => ⟨k + 1, k, 0, 0, k + 1, if reported then 1 else 0⟩

/-- With `n` reconnects attempt `n` is the last one, and only that one is reported. -/
def Within (n : ℕ) : Progress → Prop
  | .fresh => True
  | .attempting k => k ≤ n
  | .pausing k => k < n
  | .ended k reported => k ≤ n ∧ (reported = true → k = n)

/-- The first attempt begins. -/
def begin : Progress → Progress
  | .fresh => .attempting 0
  | p => p

/-- The timer of the next attempt. -/
def expire : Progress → Progress
  | .pausing k => .attempting (k + 1)
  | p => p

/-- An attempt fails. What follows is skipped if the emission of its error throws. -/
def fail (n : ℕ) (heard : Bool) : Progress → Progress
  | .attempting k =>
    if heard then if k < n then .pausing k else .ended k true else .ended k false
  | p => p

variable {n : ℕ} {p : Progress}

theorem Within.begin (h : p.Within n) : p.begin.Within n := by
  cases p with
  | fresh => exact Nat.zero_le n
  | _ => exact h

theorem Within.expire (h : p.Within n) : p.expire.Within n := by
  cases p with
  | pausing k => exact h
  | _ => exact h

theorem Within.fail (h : p.Within n) (heard : Bool) : (p.fail n heard).Within n := by
  cases p with
  | attempting k =>
    have hk : k ≤ n := h
    unfold Progress.fail
    dsimp only
    cases heard with
    | false => exact ⟨hk, Bool.noConfusion⟩
    | true =>
      rw [if_pos rfl]
      split
      · next hlt => exact hlt
      · next hlt => exact ⟨hk, fun _ => Nat.le_antisymm hk (Nat.le_of_not_lt hlt)⟩
  | _ => exact h

/-- The counters are bounded in every phase. -/
theorem Within.counts_le (h : p.Within n) :
    p.counts.starts ≤ n + 1 ∧ p.counts.timers ≤ 1 ∧ p.counts.reports ≤ 1 := by
  cases p with
  | fresh => exact ⟨Nat.zero_le _, Nat.zero_le _, Nat.zero_le _⟩
  | attempting k => exact ⟨Nat.succ_le_succ h, Nat.zero_le _, Nat.zero_le _⟩
  | pausing k => exact ⟨Nat.succ_le_succ (Nat.le_of_lt h), le_rfl, Nat.zero_le _⟩
  | ended k reported =>
    refine ⟨Nat.succ_le_succ h.1, Nat.zero_le _, ?_⟩
    cases reported <;> simp [counts]

/-- If all attempts have failed, the chain is over, and it has been reported unless the phase
says that it has not. -/
theorem Within.reports_eq (h : p.Within n) (hp : p ≠ .ended n false)
    (hall : p.counts.failures = n + 1) : p.counts.reports = 1 := by
  cases p with
  | fresh => cases hall
  | attempting k =>
    have hk : k ≤ n := h
    exact absurd hall (Nat.ne_of_lt (Nat.lt_succ_of_le hk))
  | pausing k => exact absurd (Nat.succ.inj hall) (Nat.ne_of_lt h)
  | ended k reported =>
    obtain rfl : k = n := Nat.succ.inj hall
    cases reported with
    | false => exact absurd rfl hp
    | true => rfl

end Progress

/-! ## The phase of an initiator -/

/-- Whether a task belongs to an attempt to connect. -/
def Waiting.isConnect : Waiting → Bool
  | .connecting .. | .connected .. => true
  | _ => false

def InitiatorState.counts (st : InitiatorState) : Counts where
  starts := st.starts
  reconnectAttempts := st.reconnectAttempts
  timers := st.timers.length
  waiting := st.waiting.length
  failures := st.failures
  reports := st.reports

/-- An initiator that reconnects `n` times is in a phase of its chain of attempts. -/
structure Describes (n : ℕ) (st : InitiatorState) (p : Progress) : Prop where
  config : st.config.reconnect = some ⟨true, n⟩
  tasks : ∀ w ∈ st.waiting, w.isConnect = true
  counts : st.counts = p.counts
  within : p.Within n

variable {n j : ℕ} {st st' : InitiatorState} {p : Progress} {e : InitiatorStep}

theorem describes_new {config : StartConfig} (hconfig : config.reconnect = some ⟨true, n⟩) :
    Describes n (.new config) .fresh :=
  ⟨hconfig, fun _ hw => (by cases hw), rfl, trivial⟩

/-- Nothing that counts has changed. -/
theorem Describes.of_counts (h : Describes n st p) (hconfig : st'.config = st.config)
    (htasks : ∀ w ∈ st'.waiting, w.isConnect = true) (hcounts : st'.counts = st.counts) :
    Describes n st' p :=
  ⟨hconfig ▸ h.config, htasks, hcounts.trans h.counts, h.within⟩

theorem Describes.keeps_onManager {α : Type} (x : AcceptorM α) :
    Keeps (fun st => Describes n st p) (onManager x) := by
  refine .of_after fun st h => ?_
  unfold after
  rw [result_onManager]
  exact h.of_counts rfl h.tasks rfl

theorem Describes.meets (h : Describes n st p) (e : InitiatorStep) : Describes n (st.meets e) p :=
  h.of_counts rfl h.tasks rfl

/-! ### Socket events -/

theorem isConnect_settle {w : Waiting} (hw : w.isConnect = true) (listeners : List ℕ)
    (result : Except JSError Unit) : (w.settle listeners result).isConnect = true := by
  cases w with
  | connecting k caller =>
    by_cases hk : k ∈ listeners
    · rw [Waiting.settle, if_pos hk]
      rfl
    · rw [Waiting.settle, if_neg hk]
      rfl
  | connected k caller r => rfl
  | logonSent => cases hw
  | logoutSent => cases hw

/-- A socket event that settles attempts, with observations that do not count. -/
theorem Describes.settle (h : Describes n st p) (result : Except JSError Unit)
    {os : List InitiatorObservation}
    (hos : ∀ o ∈ os, o.isFailure = false ∧ o ≠ .maxReconnectAttempts) :
    Describes n { st with
      waiting := st.waiting.map (Waiting.settle st.listeners result)
      trace := st.trace ++ os } p := by
  refine h.of_counts rfl (fun w hw => ?_) ?_
  · obtain ⟨w', hw', rfl⟩ := List.mem_map.mp hw
    exact isConnect_settle (h.tasks w' hw') _ _
  · have hfailures : os.countP InitiatorObservation.isFailure = 0 :=
      List.countP_eq_zero.mpr fun o ho => by simp [(hos o ho).1]
    have hreports : os.count .maxReconnectAttempts = 0 :=
      List.count_eq_zero.mpr fun hmem => (hos _ hmem).2 rfl
    unfold InitiatorState.counts InitiatorState.failures InitiatorState.reports
    simp only [List.length_map, List.countP_append, List.count_append, hfailures, hreports,
      Nat.add_zero]

theorem Describes.keeps_socketConnect : Keeps (fun st => Describes n st p) socketConnect := by
  refine .modify fun st h => h.settle _ fun o ho => ?_
  obtain ⟨_, _, rfl⟩ := List.mem_map.mp ho
  exact ⟨rfl, by simp⟩

theorem Describes.keeps_socketError (error : JSError) :
    Keeps (fun st => Describes n st p) (socketError error) := by
  refine .bind (keeps_get_bind fun st _ => ?_) fun _ => Describes.keeps_onManager _
  split
  · refine .modify fun st h => ?_
    have hnone : ∀ o ∈ ([] : List InitiatorObservation),
        o.isFailure = false ∧ o ≠ .maxReconnectAttempts := fun _ ho => by cases ho
    have hsettled := h.settle (.error error) hnone
    rwa [List.append_nil] at hsettled
  · refine .of_after fun st h => ?_
    have hadds : Adds 0 0 st ((note (.uncaught error)).after st) := adds_note (.uncaught error) st
    refine h.of_counts rfl h.tasks ?_
    unfold InitiatorState.counts
    rw [hadds.failures, hadds.reports]
    rfl

/-! ### Attempts -/

/-- `start` adds a task that waits for its `connect`. -/
theorem after_start (caller : StartCaller) (st : InitiatorState) : ∃ manager listeners,
    (start caller).after st = { st with
      manager := manager
      listeners := listeners
      starts := st.starts + 1
      waiting := st.waiting ++ [.connecting st.starts caller] } :=
  ⟨_, _, rfl⟩

/-- Before the first attempt there has been no `start`. -/
theorem Describes.eq_fresh (h : Describes n st p) (hstarts : st.starts = 0) : p = .fresh := by
  have hcounts : st.starts = p.counts.starts := congrArg Counts.starts h.counts
  rw [hstarts] at hcounts
  cases p with
  | fresh => rfl
  | _ => cases hcounts

/-- A timer is set between two attempts only. -/
theorem Describes.eq_pausing (h : Describes n st p) {id : ℕ} (hid : id ∈ st.timers) :
    ∃ k, p = .pausing k := by
  have hcounts : st.timers.length = p.counts.timers := congrArg Counts.timers h.counts
  have hpos : 0 < p.counts.timers := hcounts ▸ List.length_pos_of_mem hid
  cases p with
  | pausing k => exact ⟨k, rfl⟩
  | _ => cases hpos

/-- Only an attempt has a task that waits. -/
theorem Describes.eq_attempting (h : Describes n st p) {w : Waiting} (hw : w ∈ st.waiting) :
    ∃ k, p = .attempting k := by
  have hcounts : st.waiting.length = p.counts.waiting := congrArg Counts.waiting h.counts
  have hpos : 0 < p.counts.waiting := hcounts ▸ List.length_pos_of_mem hw
  cases p with
  | attempting k => exact ⟨k, rfl⟩
  | _ => cases hpos

/-- What the counters are. -/
theorem counts_eq_iff {c : Counts} : st.counts = c ↔ st.starts = c.starts ∧
    st.reconnectAttempts = c.reconnectAttempts ∧ st.timers.length = c.timers ∧
    st.waiting.length = c.waiting ∧ st.failures = c.failures ∧ st.reports = c.reports := by
  cases c
  exact Counts.mk.injEq .. ▸ Iff.rfl

/-- The task that `start` adds belongs to an attempt. -/
theorem Describes.tasks_append (h : Describes n st p) (k : ℕ) (caller : StartCaller) :
    ∀ w ∈ st.waiting ++ [.connecting k caller], w.isConnect = true := by
  intro w hw
  rcases List.mem_append.mp hw with hw | hw
  · exact h.tasks w hw
  · rw [List.mem_singleton.mp hw]
    rfl

/-- The first attempt. -/
theorem Describes.start (h : Describes n st p) (hstarts : st.starts = 0) :
    Describes n ((start .user).after st) p.begin := by
  obtain rfl := h.eq_fresh hstarts
  obtain ⟨manager, listeners, hafter⟩ := after_start .user st
  obtain ⟨-, hattempts, htimers, hwaiting, hfailures, hreports⟩ := counts_eq_iff.mp h.counts
  rw [hafter]
  refine ⟨h.config, h.tasks_append _ _, counts_eq_iff.mpr ⟨?_, hattempts, htimers, ?_, hfailures,
    hreports⟩, h.within.begin⟩
  · exact congrArg Nat.succ hstarts
  · rw [List.length_append, hwaiting]
    rfl

/-- The timer begins the next attempt. -/
theorem Describes.fireTimer (h : Describes n st p) {id : ℕ} (hid : id ∈ st.timers) :
    Describes n ((fireTimer id).after st) p.expire := by
  obtain ⟨k, rfl⟩ := h.eq_pausing hid
  obtain ⟨hstarts, hattempts, htimers, hwaiting, hfailures, hreports⟩ := counts_eq_iff.mp h.counts
  unfold Initiator.fireTimer
  rw [after_bind_of_ok (result_modify _ _)]
  obtain ⟨manager, listeners, hafter⟩ := after_start .timer { st with
    timers := st.timers.erase id
    reconnectAttempts := st.reconnectAttempts + 1 }
  rw [hafter]
  refine ⟨h.config, h.tasks_append _ _, counts_eq_iff.mpr ⟨?_, ?_, ?_, ?_, hfailures, hreports⟩,
    h.within.expire⟩
  · exact congrArg Nat.succ hstarts
  · exact congrArg Nat.succ hattempts
  · dsimp only
    rw [List.length_erase_of_mem hid, htimers]
    rfl
  · rw [List.length_append, hwaiting]
    rfl

/-- What an attempt that fails does to the initiator, as its phase says. -/
theorem Describes.retries_eq (h : Describes n st (.attempting j)) :
    st.retries = (st.manager.input.calmFor 1 && decide (j < n)) ∧
      st.givesUp = (st.manager.input.calmFor 1 && decide (n ≤ j)) := by
  have hattempts : st.reconnectAttempts = j := congrArg Counts.reconnectAttempts h.counts
  have hreconnects : st.config.reconnects = true := by
    rw [StartConfig.reconnects, h.config]
    rfl
  unfold InitiatorState.retries InitiatorState.givesUp
  rw [hreconnects, h.config, hattempts, Bool.and_true]
  exact ⟨rfl, rfl⟩

/-- Setting a timer changes one counter. -/
theorem counts_withTimer (b : Bool) (st : InitiatorState) :
    let st' := if b then st.withTimer else st
    st'.config = st.config ∧ st'.starts = st.starts ∧
      st'.reconnectAttempts = st.reconnectAttempts ∧
      st'.timers.length = st.timers.length + if b then 1 else 0 := by
  cases b with
  | false => exact ⟨rfl, rfl, rfl, rfl⟩
  | true => exact ⟨rfl, rfl, rfl, List.length_append⟩

/-- An attempt that fails. -/
theorem Describes.finishStart (h : Describes n st (.attempting j)) {i : ℕ} {w : Waiting}
    (hw : st.waiting[i]? = some w) (k : ℕ) (caller : StartCaller) (error : JSError) :
    Describes n ((finishStart k caller (.error error)).after (st.taken i))
      (Progress.fail n (st.manager.input.calmFor 1) (.attempting j)) := by
  obtain ⟨hstarts, hattempts, htimers, hwaiting, hfailures, hreports⟩ := counts_eq_iff.mp h.counts
  obtain ⟨st1, hsame, hafter, hadds⟩ := after_finishStart k caller error (st.taken i)
  generalize (Initiator.finishStart k caller (.error error)).after (st.taken i) = st' at hafter hadds
  have hretries : (st.taken i).retries = (st.manager.input.calmFor 1 && decide (j < n)) :=
    h.retries_eq.1
  have hgivesUp : (st.taken i).givesUp = (st.manager.input.calmFor 1 && decide (n ≤ j)) :=
    h.retries_eq.2
  rw [hretries] at hafter
  rw [hgivesUp] at hadds
  obtain ⟨hconfig1, hstarts1, hattempts1, htimers1⟩ :=
    counts_withTimer (st.manager.input.calmFor 1 && decide (j < n)) st1
  have hnone : st'.waiting = [] := by
    have hi : i < st.waiting.length := (List.getElem?_eq_some_iff.mp hw).1
    have hone : st.waiting.length = 1 := hwaiting
    refine hadds.waiting.trans (List.length_eq_zero_iff.mp ?_)
    exact (List.length_eraseIdx_of_lt hi).trans (by omega)
  have hconfig' : st'.config = st.config := hafter.config.trans (hconfig1.trans hsame.config)
  have hstarts' : st'.starts = j + 1 :=
    hafter.starts.trans (hstarts1.trans (hsame.starts.trans hstarts))
  have hattempts' : st'.reconnectAttempts = j :=
    hafter.reconnectAttempts.trans (hattempts1.trans (hsame.reconnectAttempts.trans hattempts))
  have htimers' : st'.timers.length =
      if (st.manager.input.calmFor 1 && decide (j < n)) = true then 1 else 0 := by
    have hzero : st1.timers.length = 0 := (congrArg List.length hsame.timers).trans htimers
    rw [hafter.timers, htimers1, hzero, Nat.zero_add]
  have hfailures' : st'.failures = j + 1 :=
    hadds.failures.trans (congrArg Nat.succ hfailures)
  have hreports' : st'.reports =
      if (st.manager.input.calmFor 1 && decide (n ≤ j)) = true then 1 else 0 := by
    have hzero : (st.taken i).reports = 0 := hreports
    rw [hadds.reports, hzero, Nat.zero_add]
  have hwithin := h.within.fail (st.manager.input.calmFor 1)
  refine ⟨hconfig' ▸ h.config, fun w hw => ?_, counts_eq_iff.mpr ?_, hwithin⟩
  · rw [hnone] at hw
    cases hw
  · unfold Progress.fail
    dsimp only
    cases hcalm : st.manager.input.calmFor 1 with
    | false =>
      rw [hcalm] at htimers' hreports'
      exact ⟨hstarts', hattempts', htimers', congrArg List.length hnone, hfailures', hreports'⟩
    | true =>
      rw [hcalm, Bool.true_and] at htimers' hreports'
      rw [if_pos rfl]
      by_cases hj : j < n
      · rw [if_pos hj]
        rw [if_pos (decide_eq_true hj)] at htimers'
        rw [if_neg (by simpa using hj)] at hreports'
        exact ⟨hstarts', hattempts', htimers', congrArg List.length hnone, hfailures', hreports'⟩
      · rw [if_neg hj]
        rw [if_neg (by simpa using hj)] at htimers'
        rw [if_pos (by simpa using hj)] at hreports'
        exact ⟨hstarts', hattempts', htimers', congrArg List.length hnone, hfailures', hreports'⟩

/-! ## Steps -/

/-- The user calls `start` once, and never `stop`. -/
def StartedOnce (st : InitiatorState) (e : InitiatorStep) : Prop :=
  match e.call with
  | .start => st.starts = 0
  | .stop => False
  | _ => True

instance (st : InitiatorState) (e : InitiatorStep) : Decidable (StartedOnce st e) :=
  match e with
  | ⟨.start, _⟩ => inferInstanceAs (Decidable (st.starts = 0))
  | ⟨.stop, _⟩ => .isFalse id
  | ⟨.socketConnect, _⟩ | ⟨.socketError _, _⟩ | ⟨.socketClose, _⟩ | ⟨.timer _, _⟩
  | ⟨.resume _, _⟩ | ⟨.session _, _⟩ => .isTrue trivial

/-- The phase after an event. -/
def Progress.after (n : ℕ) (e : InitiatorStep) (p : Progress) : Progress :=
  match e.call with
  | .start => p.begin
  | .timer _ => p.expire
  | .resume _ => p.fail n (e.input.calmFor 1)
  | _ => p

/-- An attempt that goes on fails, since no session is CONNECTED. -/
theorem Describes.resume (h : Describes n st p) (hst : Unstarted [] st) {i : ℕ} {input : Input}
    (hstep : startedInitiator.step st ⟨.resume i, input⟩ = some st') :
    Describes n st' (p.fail n (input.calmFor 1)) := by
  obtain ⟨henabled, rfl⟩ := step_eq_some hstep
  obtain ⟨task, htask, hwait⟩ := task_of_enabled henabled
  have hmem : task ∈ st.waiting := List.mem_of_getElem? htask
  have hconnect := h.tasks task hmem
  have hafter : (performCall (.resume i)).after (st.meets ⟨.resume i, input⟩) =
      (Initiator.resume task).after ((st.meets ⟨.resume i, input⟩).taken i) :=
    after_resumeWaiting htask
  obtain ⟨j, rfl⟩ := h.eq_attempting hmem
  cases task with
  | connecting k caller => exact absurd rfl hwait
  | connected k caller result =>
    have hoffline : Offline ((st.meets ⟨.resume i, input⟩).taken i).manager := hst.offline
    obtain ⟨error, hfails⟩ := after_resume_connecting hoffline k caller result
    dsimp only
    rw [hafter, hfails]
    exact (h.meets ⟨.resume i, input⟩).finishStart htask k caller error
  | logonSent => cases hconnect
  | logoutSent => cases hconnect

/-- A step of the initiator is a step of its chain of attempts. -/
theorem Describes.step (h : Describes n st p) (hst : Unstarted [] st) (hguard : StartedOnce st e)
    (hstep : startedInitiator.step st e = some st') : Describes n st' (p.after n e) := by
  rcases e with ⟨call, input⟩
  cases call with
  | resume i => exact h.resume hst hstep
  | stop => exact hguard.elim
  | start =>
    obtain ⟨-, rfl⟩ := step_eq_some hstep
    exact (h.meets _).start hguard
  | timer id =>
    obtain ⟨henabled, rfl⟩ := step_eq_some hstep
    have hid : id ∈ st.timers := of_decide_eq_true (Bool.and_eq_true_iff.mp henabled).2
    exact (h.meets _).fireTimer hid
  | socketConnect =>
    obtain ⟨-, rfl⟩ := step_eq_some hstep
    exact Describes.keeps_socketConnect.after (h.meets _)
  | socketError error =>
    obtain ⟨-, rfl⟩ := step_eq_some hstep
    exact (Describes.keeps_socketError error).after (h.meets _)
  | socketClose =>
    obtain ⟨-, rfl⟩ := step_eq_some hstep
    exact (Describes.keeps_onManager _).after (h.meets _)
  | session event =>
    obtain ⟨-, rfl⟩ := step_eq_some hstep
    exact (Describes.keeps_onManager _).after (h.meets _)

/-! ## Runs -/

/-- With `n` reconnects at most `n + 1` attempts have been made and at most one timer is set; it
has been reported once that there are no more attempts if all have failed, and never if one
has succeeded. -/
structure BoundedReconnects (n : ℕ) (st : InitiatorState) : Prop where
  starts : st.starts ≤ n + 1
  timers : st.timers.length ≤ 1
  failed : st.failures = n + 1 → st.reports = 1
  succeeded : (∃ k, .started k ∈ st.trace) → st.reports = 0

/-- When the last attempt fails, no listener of its error throws, and there is one. -/
def ReportsLastFailure (n : ℕ) (st : InitiatorState) (e : InitiatorStep) : Prop :=
  match e.call with
  | .resume _ => n ≤ st.reconnectAttempts → e.input.calmFor 1 = true
  | _ => True

instance (n : ℕ) (st : InitiatorState) (e : InitiatorStep) :
    Decidable (ReportsLastFailure n st e) :=
  match e with
  | ⟨.resume _, input⟩ =>
    inferInstanceAs (Decidable (n ≤ st.reconnectAttempts → input.calmFor 1 = true))
  | ⟨.start, _⟩ | ⟨.stop, _⟩ | ⟨.socketConnect, _⟩ | ⟨.socketError _, _⟩ | ⟨.socketClose, _⟩
  | ⟨.timer _, _⟩ | ⟨.session _, _⟩ => .isTrue trivial

/-- The only phase that breaks the bounds is the one after a last failure without a report. -/
theorem Describes.bounded_iff (h : Describes n st p) (hst : Unstarted [] st) :
    BoundedReconnects n st ↔ p ≠ .ended n false := by
  obtain ⟨hstarts, -, htimers, -, hfailures, hreports⟩ := counts_eq_iff.mp h.counts
  have hwithin := h.within
  constructor
  · rintro hbounded rfl
    have hone := hbounded.failed hfailures
    rw [hreports] at hone
    cases hone
  · intro hp
    obtain ⟨hstartsle, htimersle, -⟩ := hwithin.counts_le
    refine ⟨hstarts ▸ hstartsle, htimers ▸ htimersle, fun hall => ?_,
      fun ⟨k, hk⟩ => absurd hk (hst.started k)⟩
    rw [hreports]
    exact hwithin.reports_eq hp (hfailures.symm.trans hall)

/-- The phase without a report is reached exactly by a last failure that is not heard. -/
theorem Progress.fail_ne_iff {heard : Bool} (hj : (Progress.attempting j).Within n) :
    (Progress.attempting j).fail n heard ≠ .ended n false ↔ (n ≤ j → heard = true) := by
  have hle : j ≤ n := hj
  unfold Progress.fail
  dsimp only
  cases heard with
  | true =>
    refine iff_of_true ?_ fun _ => rfl
    rw [if_pos rfl]
    split <;> simp
  | false =>
    rw [if_neg Bool.false_ne_true]
    constructor
    · intro hne hnj
      exact absurd (congrArg (Progress.ended · false) (Nat.le_antisymm hle hnj)) hne
    · intro hheard heq
      cases heq
      exact Bool.false_ne_true (hheard le_rfl)

/-- A step keeps the bounds exactly when it meets the condition. -/
theorem Describes.after_ne_iff (h : Describes n st p) (hp : p ≠ .ended n false)
    (hstep : startedInitiator.step st e = some st') :
    p.after n e ≠ .ended n false ↔ ReportsLastFailure n st e := by
  rcases e with ⟨call, input⟩
  cases call with
  | resume i =>
    obtain ⟨task, htask, -⟩ := task_of_enabled (step_eq_some hstep).1
    obtain ⟨j, rfl⟩ := h.eq_attempting (List.mem_of_getElem? htask)
    have hattempts : st.reconnectAttempts = j := congrArg Counts.reconnectAttempts h.counts
    unfold ReportsLastFailure
    dsimp only
    rw [hattempts]
    exact Progress.fail_ne_iff h.within
  | start =>
    refine iff_of_true ?_ trivial
    unfold Progress.after Progress.begin
    dsimp only
    split
    · simp
    · exact hp
  | timer id =>
    refine iff_of_true ?_ trivial
    unfold Progress.after Progress.expire
    dsimp only
    split
    · simp
    · exact hp
  | _ => exact iff_of_true hp trivial

theorem Describes.keeps (hst : Unstarted [] st ∧ ∃ p, Describes n st p)
    (hguard : StartedOnce st e) (hstep : startedInitiator.step st e = some st') :
    Unstarted [] st' ∧ ∃ p, Describes n st' p := by
  obtain ⟨hunstarted, p, hp⟩ := hst
  exact ⟨hunstarted.step hstep, p.after n e, hp.step hunstarted hguard hstep⟩

/-- Whoever listens, a described state has `n + 1` attempts at most, one timer and one report. -/
theorem Describes.counts_le (h : Describes n st p) :
    st.starts ≤ n + 1 ∧ st.timers.length ≤ 1 ∧ st.reports ≤ 1 := by
  obtain ⟨hstarts, -, htimers, -, -, hreports⟩ := counts_eq_iff.mp h.counts
  obtain ⟨hstartsle, htimersle, hreportsle⟩ := h.within.counts_le
  exact ⟨hstarts ▸ hstartsle, htimers ▸ htimersle, hreports ▸ hreportsle⟩

/-- In every run that begins with one `start` of a fresh initiator, whatever happens to its
socket and its session, there are at most `n + 1` attempts, one timer and one report, and all
that is said of them holds in every state exactly when the failure of the last attempt is
heard. -/
theorem boundedReconnects_throughout_iff {config : StartConfig}
    (hconfig : config.reconnect = some ⟨true, n⟩) {es : List InitiatorStep}
    (hes : startedInitiator.Guarded StartedOnce (.new config) es)
    (hexec : startedInitiator.exec (.new config) es = some st) :
    (st.starts ≤ n + 1 ∧ st.timers.length ≤ 1 ∧ st.reports ≤ 1) ∧
      (startedInitiator.Throughout (BoundedReconnects n) (.new config) es ↔
        startedInitiator.Guarded (ReportsLastFailure n) (.new config) es) := by
  have hnew := describes_new hconfig
  have hbounded : BoundedReconnects n (.new config) :=
    (hnew.bounded_iff (unstarted_new config)).mpr (by simp)
  constructor
  · obtain ⟨-, p, hp⟩ := System.exec_keeps_of_guarded
      (P := fun st => Unstarted [] st ∧ ∃ p, Describes n st p) (fun _ _ _ => Describes.keeps) hes
      ⟨unstarted_new config, _, hnew⟩ hexec
    exact hp.counts_le
  · refine System.throughout_iff (I := fun st => Unstarted [] st ∧ ∃ p, Describes n st p)
      (fun _ _ _ => Describes.keeps) (fun st e st' hst hP hguard hstep => ?_) hes
      ⟨unstarted_new config, _, hnew⟩ hbounded hexec
    obtain ⟨hunstarted, p, hp⟩ := hst
    rw [(hp.step hunstarted hguard hstep).bounded_iff (hunstarted.step hstep)]
    exact hp.after_ne_iff ((hp.bounded_iff hunstarted).mp hP) hstep

/-- An attempt is refused. -/
def refusedAttempt : List InitiatorStep := [refused, ⟨.resume 0, .calm⟩]

/-- All four attempts of a client that reconnects three times are refused. -/
def refusedAttempts : List InitiatorStep :=
  [⟨.start, .calm⟩] ++ refusedAttempt ++ [⟨.timer 0, .calm⟩] ++ refusedAttempt ++
    [⟨.timer 1, .calm⟩] ++ refusedAttempt ++ [⟨.timer 2, .calm⟩] ++ refusedAttempt

theorem boundedReconnects_refusedAttempts :
    (∃ st ∈ startedInitiator.exec (.new reconnectingConfig) refusedAttempts,
      st.failures = 4 ∧ st.reports = 1) ∧
    startedInitiator.Throughout (BoundedReconnects 3) (.new reconnectingConfig)
      refusedAttempts := by
  have hrun : ∃ st ∈ startedInitiator.exec (.new reconnectingConfig) refusedAttempts,
      st.failures = 4 ∧ st.reports = 1 := by decide +kernel
  obtain ⟨st, hst, hcounts⟩ := hrun
  refine ⟨⟨st, hst, hcounts⟩, ?_⟩
  exact (boundedReconnects_throughout_iff rfl (by decide +kernel) hst).2.mpr (by decide +kernel)

/-- The connection is refused, and nobody listens to errors of the initiator. -/
def unheardAttempt : List InitiatorStep :=
  [⟨.start, .calm⟩, refused,
    ⟨.resume 0, { Input.calm with thrown := [some (js "connect ECONNREFUSED")] }⟩]

/-- A client with no reconnects has made its only attempt, but there is no report. -/
theorem not_boundedReconnects_unheardAttempt :
    let config := { clientConfig with reconnect := some ⟨true, 0⟩ }
    startedInitiator.Guarded StartedOnce (.new config) unheardAttempt ∧
    (∃ st ∈ startedInitiator.exec (.new config) unheardAttempt,
      st.starts = 1 ∧ st.failures = 1 ∧ st.reports = 0 ∧ st.timers = []) ∧
    ¬ startedInitiator.Throughout (BoundedReconnects 0) (.new config) unheardAttempt := by
  intro config
  have hrun : ∃ st ∈ startedInitiator.exec (.new config) unheardAttempt,
      st.starts = 1 ∧ st.failures = 1 ∧ st.reports = 0 ∧ st.timers = [] := by decide +kernel
  refine ⟨by decide +kernel, hrun, fun hthrough => ?_⟩
  obtain ⟨st, hst, -, hfailures, hreports, -⟩ := hrun
  have hone := (hthrough.last hst).failed hfailures
  omega

end NestQuickfix.Initiator
