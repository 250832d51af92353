import NestQuickfix.Protocol.Manager

/-!
# Order and gate of the protocol manager

The queue delays messages but keeps their order. It does not keep the gate: a Logout that was
queued logs the manager off again while the queue is drained, and the messages behind it are
handled all the same.
-/

namespace NestQuickfix.Protocol

open Lib

variable {guard : ProtocolManager × List Message → Message → Prop}
  {p p' : ProtocolManager × List Message} {m : Message}

/-! ## Order -/

/-- The messages of a list other than Logons. -/
def nonLogons (ms : List Message) : List Message :=
  ms.filter fun m => m.getField Fields.msgType ≠ MsgType.logon

/-- The handled messages and then the queued ones are the accepted ones in order, Logons
apart; and nothing is queued while the manager is logged on. -/
structure HandledInOrder (p : ProtocolManager × List Message) : Prop where
  order : nonLogons (p.1.handled.map Prod.fst) ++ p.1.messageQueue = nonLogons p.2
  drained : p.1.isLoggedOn = true → p.1.messageQueue = []

/-- A call either is accepted, or throws and changes nothing. -/
theorem recordedManager_step (h : recordedManager.step p m = some p') :
    (processIncoming p.1 m = .ok p'.1 ∧ p'.2 = p.2 ++ [m] ∧ accepted p.1 m = [m]) ∨
      (p' = p ∧ accepted p.1 m = []) := by
  obtain ⟨hstep, hrecord⟩ := System.recorded_step.mp h
  cases hresult : processIncoming p.1 m with
  | ok st' =>
    have haccepted : accepted p.1 m = [m] := by rw [accepted, hresult]
    simp only [manager, hresult] at hstep
    rw [haccepted] at hrecord
    exact Or.inl ⟨by rw [Option.some.inj hstep], hrecord, haccepted⟩
  | error e =>
    have haccepted : accepted p.1 m = [] := by rw [accepted, hresult]
    simp only [manager, hresult] at hstep
    rw [haccepted, List.append_nil] at hrecord
    exact Or.inr ⟨Prod.ext (Option.some.inj hstep).symm hrecord, haccepted⟩

/-- Every call ends. -/
theorem exists_step (p : ProtocolManager × List Message) (m : Message) :
    ∃ p', recordedManager.step p m = some p' := by
  cases hresult : processIncoming p.1 m with
  | ok st' => exact ⟨_, by simp [System.recorded, manager, hresult]; rfl⟩
  | error e => exact ⟨_, by simp [System.recorded, manager, hresult]; rfl⟩

theorem nonLogons_append (ms ms' : List Message) :
    nonLogons (ms ++ ms') = nonLogons ms ++ nonLogons ms' := List.filter_append ..

theorem nonLogons_singleton (h : m.getField Fields.msgType ≠ MsgType.logon) :
    nonLogons [m] = [m] := by
  simp [nonLogons, h]

/-- No Logon is queued. -/
theorem HandledInOrder.queue {p : ProtocolManager × List Message} (h : HandledInOrder p) :
    ∀ queued ∈ p.1.messageQueue, queued.getField Fields.msgType ≠ MsgType.logon := by
  intro queued hqueued
  have hmem : queued ∈ nonLogons p.2 := by
    rw [← h.order]
    exact List.mem_append_right _ hqueued
  simpa using (List.mem_filter.mp hmem).2

/-- A call keeps the order. -/
theorem HandledInOrder.step (h : HandledInOrder p) (hstep : recordedManager.step p m = some p') :
    HandledInOrder p' := by
  rcases recordedManager_step hstep with ⟨hresult, hrecord, _⟩ | ⟨rfl, _⟩
  · have horder := h.order
    rcases processIncoming_cases hresult with ⟨hm, hoff, hst'⟩ | ⟨hm, hst'⟩ | ⟨hm, hon, hst'⟩
    · constructor
      · rw [hst', hrecord, nonLogons_append, nonLogons_singleton hm, ← horder, List.append_assoc]
      · intro hon
        rw [hst'] at hon
        exact absurd (hoff.symm.trans hon) Bool.false_ne_true
    · have hqueue : nonLogons p.1.messageQueue = p.1.messageQueue :=
        List.filter_eq_self.mpr fun queued hqueued => by simpa using h.queue queued hqueued
      have hlogon : nonLogons (m :: p.1.messageQueue) = nonLogons p.1.messageQueue := by
        simp [nonLogons, hm]
      have hrest : nonLogons [m] = [] := by simp [nonLogons, hm]
      constructor
      · rw [hst', hrecord, List.map_append, List.map_cons, map_passed, nonLogons_append, hlogon,
          hqueue, nonLogons_append, hrest, List.append_nil, List.append_nil, horder]
      · intro _
        rw [hst']
    · constructor
      · have hempty := h.drained hon
        rw [hempty, List.append_nil] at horder
        rw [hst', hrecord, hempty, List.append_nil, List.map_append, nonLogons_append,
          nonLogons_append, horder]
        rfl
      · intro _
        rw [hst']
        exact h.drained hon
  · exact h

/-- The order is an invariant. -/
theorem handledInOrder_invariant : recordedManager.Invariant guard HandledInOrder where
  init p hinit := by
    obtain ⟨hst, hrecord⟩ := hinit
    constructor
    · rw [hst, hrecord]
      rfl
    · intro _
      rw [hst]
      rfl
  step _ _ _ h _ hstep := h.step hstep

/-- In every run of calls, accepted messages are handled exactly once and in order. -/
theorem handledInOrder_of_reached (h : recordedManager.Reached guard p) : HandledInOrder p :=
  handledInOrder_invariant.of_reached h

/-! ## The gate -/

/-- The last Logon or Logout of a list. -/
def lastSwitch (ms : List Message) : Option Message :=
  (ms.filter fun m => m.getField Fields.msgType = MsgType.logon ∨
    m.getField Fields.msgType = MsgType.logout).getLast?

/-- Messages other than Logons are handled while the manager is logged on, and it is logged on
exactly if the last Logon or Logout that was accepted is a Logon. -/
structure Gated (p : ProtocolManager × List Message) : Prop where
  gate : ∀ x ∈ p.1.handled, x.1.getField Fields.msgType ≠ MsgType.logon → x.2 = true
  flag : p.1.isLoggedOn = true ↔
    ∃ m ∈ lastSwitch p.2, m.getField Fields.msgType = MsgType.logon

/-- The condition: no Logout waits in the queue when a Logon is accepted. -/
def NoLogoutWaits (p : ProtocolManager × List Message) (m : Message) : Prop :=
  m.getField Fields.msgType = MsgType.logon → accepted p.1 m ≠ [] →
    ∀ queued ∈ p.1.messageQueue, queued.getField Fields.msgType ≠ MsgType.logout

/-- A Logon or Logout becomes the last one. -/
theorem lastSwitch_concat (ms : List Message) (m : Message) : lastSwitch (ms ++ [m]) =
    if m.getField Fields.msgType = MsgType.logon ∨ m.getField Fields.msgType = MsgType.logout
    then some m else lastSwitch ms := by
  rw [lastSwitch, List.filter_append]
  split
  · next h => simp [h]
  · next h => simp [h, lastSwitch]

theorem logout_ne_logon : MsgType.logout ≠ MsgType.logon := by decide

/-- Draining leaves the manager logged on exactly if no Logout is drained. -/
theorem foldl_switch_iff {ms : List Message}
    (hms : ∀ m ∈ ms, m.getField Fields.msgType ≠ MsgType.logon) (isLoggedOn : Bool) :
    ms.foldl switch isLoggedOn = true ↔
      isLoggedOn = true ∧ ∀ m ∈ ms, m.getField Fields.msgType ≠ MsgType.logout := by
  induction ms generalizing isLoggedOn with
  | nil => simp
  | cons m ms ih =>
    rw [List.forall_mem_cons] at hms
    rw [List.foldl_cons, ih hms.2, switch, if_neg hms.1, List.forall_mem_cons]
    split
    · next hlogout => simp [hlogout]
    · next hlogout => simp [hlogout]

/-- If no Logout is drained, all messages are drained while the manager is logged on. -/
theorem eq_true_of_mem_passed {ms : List Message}
    (hms : ∀ m ∈ ms, m.getField Fields.msgType ≠ MsgType.logout) :
    ∀ x ∈ passed true ms, x.2 = true := by
  induction ms with
  | nil => exact fun x hx => by cases hx
  | cons m ms ih =>
    rw [List.forall_mem_cons] at hms
    have hswitch : switch true m = true := by
      rw [switch, if_neg hms.1]
      split <;> rfl
    rw [passed, hswitch, List.forall_mem_cons]
    exact ⟨rfl, ih hms.2⟩

/-- From a gated state a call leads to one exactly if it meets the condition. -/
theorem gated_step_iff (horder : HandledInOrder p) (h : Gated p)
    (hstep : recordedManager.step p m = some p') : Gated p' ↔ NoLogoutWaits p m := by
  have hflag := h.flag
  rcases recordedManager_step hstep with ⟨hresult, hrecord, haccepted⟩ | ⟨rfl, haccepted⟩
  · rcases processIncoming_cases hresult with ⟨hm, hoff, hst'⟩ | ⟨hm, hst'⟩ | ⟨hm, hon, hst'⟩
    · refine iff_of_true ⟨?_, ?_⟩ fun hlogon => absurd hlogon hm
      · rw [hst']
        exact h.gate
      · rw [hrecord, lastSwitch_concat, hst']
        split
        · simp [hoff, hm]
        · exact hflag
    · have hlast : ∃ logon ∈ lastSwitch p'.2, logon.getField Fields.msgType = MsgType.logon :=
        ⟨m, by rw [hrecord, lastSwitch_concat, if_pos (Or.inl hm)]; rfl, hm⟩
      have hiff := foldl_switch_iff horder.queue true
      constructor
      · intro hgated _ _
        have hon := hgated.flag.mpr hlast
        rw [hst'] at hon
        exact (hiff.mp hon).2
      · intro hwaits
        have hlogouts := hwaits hm (by rw [haccepted]; exact List.cons_ne_nil m [])
        constructor
        · intro x hx hx'
          rw [hst', List.mem_append, List.mem_cons] at hx
          rcases hx with hx | rfl | hx
          · exact h.gate x hx hx'
          · exact absurd hm hx'
          · exact eq_true_of_mem_passed hlogouts x hx
        · refine iff_of_true ?_ hlast
          rw [hst']
          exact hiff.mpr ⟨rfl, hlogouts⟩
    · refine iff_of_true ⟨?_, ?_⟩ fun hlogon => absurd hlogon hm
      · intro x hx hx'
        rw [hst', List.mem_append, List.mem_singleton] at hx
        rcases hx with hx | rfl
        · exact h.gate x hx hx'
        · rfl
      · rw [hrecord, lastSwitch_concat, hst']
        dsimp only
        rw [switch, if_neg hm]
        by_cases hlogout : m.getField Fields.msgType = MsgType.logout
        · simp [hlogout, logout_ne_logon]
        · rw [if_neg hlogout, if_neg (by simp [hm, hlogout]), ← hflag]
          simp [hon]
  · exact iff_of_true h fun _ hne => absurd haccepted hne

/-- In every run of calls, all states after a call are gated exactly if no Logout waits in the
queue whenever a Logon is accepted. -/
theorem gated_guarded_iff (ms : List Message) :
    recordedManager.Guarded (fun p m => ∀ p' ∈ recordedManager.step p m, Gated p') (.new, []) ms ↔
      recordedManager.Guarded NoLogoutWaits (.new, []) ms := by
  have hgated : ∀ p, recordedManager.Reached NoLogoutWaits p → Gated p := by
    intro p hp
    induction hp with
    | init hinit =>
      obtain ⟨hst, hrecord⟩ := hinit
      constructor
      · intro x hx
        rw [hst] at hx
        cases hx
      · rw [hst, hrecord]
        simp [ProtocolManager.new, lastSwitch]
    | step hp hwaits hstep ih =>
      exact (gated_step_iff (handledInOrder_invariant.of_reached hp) ih hstep).mpr hwaits
  refine System.Reached.guarded_iff (fun p m hp => ?_) (.init ⟨rfl, rfl⟩)
  have hiff : ∀ p', recordedManager.step p m = some p' → (Gated p' ↔ NoLogoutWaits p m) :=
    fun p' => gated_step_iff (handledInOrder_invariant.of_reached hp) (hgated p hp)
  obtain ⟨p', hp'⟩ := exists_step p m
  constructor
  · exact fun h => (hiff p' hp').mp (h p' hp')
  · exact fun h p'' hp'' => (hiff p'' hp'').mpr h

/-- A message with the required fields. -/
def incoming (msgType : JSString) : Message :=
  .ofStrings [(8, js "FIX.4.4"), (9, js "5"), (35, msgType), (49, js "CLIENT"), (56, js "BROKER"),
    (34, js "1"), (52, js "20250101-00:00:00"), (108, js "30")]

/-- A Logout and a News arrive before the Logon. -/
def backlog : List Message := [incoming (js "5"), incoming (js "B"), incoming (js "A")]

/-- All three are accepted and handled, the Logon first. -/
theorem handledInOrder_backlog : ∃ p ∈ recordedManager.exec (.new, []) backlog,
    p.2 = backlog ∧ p.1.handled.map Prod.fst = [incoming (js "A"), incoming (js "5"),
      incoming (js "B")] ∧ HandledInOrder p := by
  have hrun : ∃ p ∈ recordedManager.exec (.new, []) backlog, p.2 = backlog ∧
      p.1.handled.map Prod.fst = [incoming (js "A"), incoming (js "5"), incoming (js "B")] := by
    decide +kernel
  obtain ⟨p, hp, hrecord, hhandled⟩ := hrun
  have hinit : recordedManager.init (.new, []) := ⟨rfl, rfl⟩
  have hreached : recordedManager.Reached (fun _ _ => True) p := .of_exec hinit hp
  exact ⟨p, hp, hrecord, hhandled, handledInOrder_of_reached hreached⟩

/-- The News is handled while the manager is logged off, and it stays logged off although the
Logon came last. -/
theorem not_gated_backlog : ∃ p ∈ recordedManager.exec (.new, []) backlog,
    p.2 = backlog ∧ (incoming (js "B"), false) ∈ p.1.handled ∧ p.1.isLoggedOn = false ∧
      ¬ Gated p := by
  have hrun : ∃ p ∈ recordedManager.exec (.new, []) backlog, p.2 = backlog ∧
      (incoming (js "B"), false) ∈ p.1.handled ∧ p.1.isLoggedOn = false := by decide +kernel
  have hnews : (incoming (js "B")).getField Fields.msgType ≠ MsgType.logon := by decide +kernel
  obtain ⟨p, hp, hrecord, hhandled, hoff⟩ := hrun
  exact ⟨p, hp, hrecord, hhandled, hoff, fun h => Bool.false_ne_true (h.gate _ hhandled hnews)⟩

end NestQuickfix.Protocol
