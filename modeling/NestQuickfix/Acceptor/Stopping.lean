import NestQuickfix.Acceptor.CloseCalls

/-!
# Closing all sessions

`closeAll` waits for the logouts of the sessions that are registered when it is called, and
then empties the registry. It resolves unless one of these logouts fails, and it disconnects
every session it removes unless one that still runs stands in the registry at its end.
-/

namespace NestQuickfix.Acceptor

open Lib Lib.Exec

/-- An acceptor with the record of its steps and of the states they happened in. -/
abbrev tracedAcceptor : System (AcceptorState × List (AcceptorState × Step)) Step :=
  acceptor.recorded fun st e => [(st, e)]

/-- In a step the `k`th call of `closeAll` resolves. -/
def Resolves (k : ℕ) (y : AcceptorState × Step) : Prop :=
  ∃ stopping, y.1.GoesOn y.2.event (.allClosed k stopping)

/-- In a step `stop` goes on with the sockets and the server. -/
def ShutsDown (y : AcceptorState × Step) : Prop := y.1.GoesOn y.2.event .closeAllSockets

/-- Calls of `closeAll` are complete, and `stop` goes on. -/
structure ClosesAll (st : AcceptorState) (run : List (AcceptorState × Step)) : Prop where
  /-- A call is not rejected, and until it has resolved there is a task that goes on with it. -/
  resolves : ∀ k c, st.closeAlls[k]? = some c → c.failed = false ∧
    ((∃ frame ∈ st.tasks, frame.call = some k) ∨ ∃ y ∈ run, Resolves k y)
  /-- Each logout that ends leaves one less to wait for, and no logout is added to a call. -/
  awaited : ∀ k y later, y :: later <:+ run → k < y.1.closeAlls.length →
    y.1.tasks.countP (Frame.awaited k) = st.tasks.countP (Frame.awaited k) +
      (y :: later).countP fun z => z.1.endsAwaited k z.2.event
  /-- When a call has resolved, no session is registered. -/
  empty : ∀ k y, run.getLast? = some y → Resolves k y → st.registry.values = []
  /-- When a call has resolved, `handleDisconnect` has run on all sessions that have been
  registered since the call. -/
  disconnected : ∀ k y, run.getLast? = some y → Resolves k y →
    ∀ z ∈ run, k < z.1.closeAlls.length → ∀ s ∈ z.1.registry.values,
      .ran s .disconnected ∈ st.trace
  /-- After its call has resolved, `stop` goes on with the sockets and the server. -/
  stops : ∀ k c, st.closeAlls[k]? = some c → c.stopping = true → ∀ y later,
    y :: later <:+ run → Resolves k y → .closeAllSockets ∈ st.tasks ∨ ∃ z ∈ later, ShutsDown z
  /-- It then destroys the sockets and closes the server. -/
  shuts : ∀ y, run.getLast? = some y → ShutsDown y → st.listening = false ∧
    ∀ c ∈ y.1.activeSockets.values, (st.sockets c).destroyed = true

/-! ## The condition -/

/-- The sessions that an event logs out by calling `closeAll`. -/
def AcceptorState.closes (st : AcceptorState) : Event → List ℕ
  | .stop | .closeAll => st.registry.values
  | _ => []

/-- The session for whose logout `closeAll` waits and whose logout goes on. -/
def AcceptorState.awaitedEnd (st : AcceptorState) : Event → Option ℕ
  | .resume i =>
    match st.tasks[i]? with
    | some (.logoutSent s (.closeAll _) _) => some s
    | _ => none
  | _ => none

/-- The sessions whose entries an event removes by emptying the registry. -/
def AcceptorState.emptied (st : AcceptorState) : Event → List ℕ
  | .resume i =>
    match st.tasks[i]? with
    | some (.allClosed ..) => st.registry.values
    | _ => []
  | _ => []

/-- Whether a task is the logout of session `s` that the `k`th call of `closeAll` waits for. -/
def Frame.awaits (k s : ℕ) : Frame → Bool
  | .logoutSent x (.closeAll j) _ => decide (x = s ∧ j = k)
  | _ => false

/-- The condition for `closeAll` to be complete. -/
structure StopsCalmly (st : AcceptorState) (e : Step) : Prop where
  /-- No registered session is DISCONNECTED when `closeAll` is called. -/
  connected : ∀ s ∈ st.closes e.event, (st.sessions s).state ≠ .disconnected
  /-- No user code throws in a logout that `closeAll` waits for. -/
  calm : ∀ s ∈ st.awaitedEnd e.event, e.input.calmFor (2 + st.disconnectCalls s) = true
  /-- No running session is registered when `closeAll` empties the registry. -/
  ended : ∀ s ∈ st.emptied e.event, (st.sessions s).heartbeatTimer = false
  /-- While `closeAll` waits, a running session only loses its entry without being ended if its
  logout is awaited. -/
  spared : ∀ x ∈ (st.meets e).evicts e.event, (st.sessions x).heartbeatTimer = true →
    ∀ frame ∈ st.tasks, ∀ k ∈ frame.call, ∃ frame' ∈ st.tasks, frame'.awaits k x = true

instance : ∀ (st : AcceptorState) (e : Step), Decidable (StopsCalmly st e) := fun st e =>
  have : Decidable (∀ s ∈ st.closes e.event, (st.sessions s).state ≠ .disconnected) :=
    List.decidableBAll (fun s => (st.sessions s).state ≠ .disconnected) _
  have : Decidable (∀ s ∈ st.emptied e.event, (st.sessions s).heartbeatTimer = false) :=
    List.decidableBAll (fun s => (st.sessions s).heartbeatTimer = false) _
  have : Decidable (∀ x ∈ (st.meets e).evicts e.event, (st.sessions x).heartbeatTimer = true →
      ∀ frame ∈ st.tasks, ∀ k ∈ frame.call, ∃ frame' ∈ st.tasks, frame'.awaits k x = true) :=
    List.decidableBAll (fun x => (st.sessions x).heartbeatTimer = true →
      ∀ frame ∈ st.tasks, ∀ k ∈ frame.call, ∃ frame' ∈ st.tasks, frame'.awaits k x = true) _
  decidable_of_iff ((∀ s ∈ st.closes e.event, (st.sessions s).state ≠ .disconnected) ∧
    (∀ s ∈ st.awaitedEnd e.event, e.input.calmFor (2 + st.disconnectCalls s) = true) ∧
    (∀ s ∈ st.emptied e.event, (st.sessions s).heartbeatTimer = false) ∧
    ∀ x ∈ (st.meets e).evicts e.event, (st.sessions x).heartbeatTimer = true →
      ∀ frame ∈ st.tasks, ∀ k ∈ frame.call, ∃ frame' ∈ st.tasks, frame'.awaits k x = true)
    ⟨fun h => ⟨h.1, h.2.1, h.2.2.1, h.2.2.2⟩,
      fun h => ⟨h.connected, h.calm, h.ended, h.spared⟩⟩

variable {guard : AcceptorState → Step → Prop} {st st' : AcceptorState} {e : Step} {k : ℕ}
  {run : List (AcceptorState × Step)}

theorem mem_awaitedEnd {i s : ℕ} {error : Option JSError}
    (hf : st.tasks[i]? = some (.logoutSent s (.closeAll k) error)) :
    s ∈ st.awaitedEnd (.resume i) := by
  unfold AcceptorState.awaitedEnd
  dsimp only
  rw [hf]
  rfl

theorem mem_emptied {s : ℕ} {stopping : Bool} (h : st.GoesOn e.event (.allClosed k stopping))
    (hs : s ∈ st.registry.values) : s ∈ st.emptied e.event := by
  obtain ⟨i, hevent, hf⟩ := h
  unfold AcceptorState.emptied
  rw [hevent]
  dsimp only
  rw [hf]
  exact hs

theorem awaited_of_awaits {frame : Frame} {s : ℕ} (h : frame.awaits k s = true) :
    frame.awaited k = true := by
  cases frame with
  | logoutSent x caller error =>
    cases caller with
    | closeAll j =>
      have hj : x = s ∧ j = k := of_decide_eq_true h
      exact decide_eq_true hj.2
    | _ => cases h
  | _ => cases h

/-- What any step does with the calls of `closeAll` when the condition holds. -/
theorem calls_step (hcalm : StopsCalmly st e) (hstep : st.step e = some st')
    (hfresh : ∀ frame ∈ st.calls, ∀ k, frame.call = some k → k < st.closeAlls.length) :
    CallsStep st e st' := by
  have hafter := after_of_step hstep
  have hcalled : ∀ stopping, (closeAll stopping).after (st.meets e) = st' →
      (∀ frame, st.GoesOn e.event frame → frame.isCall = false) →
      (∀ s ∈ st.registry.values, (st.sessions s).state ≠ .disconnected) → CallsStep st e st' := by
    intro stopping hafter hgoes hrun
    obtain ⟨frames, hcalls, hcloseAlls, hframes⟩ := calls_called (st.meets e) stopping hrun
    rw [hafter] at hcalls hcloseAlls
    exact .called hcloseAlls hcalls hframes hgoes
  have hother : e.event ≠ .stop → e.event ≠ .closeAll →
      (∀ frame, st.GoesOn e.event frame → frame.isCall = false) → CallsStep st e st' := by
    intro hstop hcloseAll hgoes
    obtain ⟨hcloseAlls, hcalls⟩ := calls_kept hstep hstop hcloseAll hgoes
    exact .none hcloseAlls hcalls hgoes
  rcases e with ⟨event, input⟩
  cases event with
  | stop =>
    refine hcalled true hafter ?_ hcalm.connected
    rintro frame ⟨i, hi, _⟩
    cases hi
  | closeAll =>
    refine hcalled false hafter ?_ hcalm.connected
    rintro frame ⟨i, hi, _⟩
    cases hi
  | resume i =>
    by_cases hcall : ∃ frame, st.tasks[i]? = some frame ∧ frame.isCall = true
    · obtain ⟨frame, hf, hcall⟩ := hcall
      have hmem : frame ∈ st.calls := List.mem_filter.mpr ⟨List.mem_of_getElem? hf, hcall⟩
      have hf' : (st.meets ⟨.resume i, input⟩).tasks[i]? = some frame := hf
      dsimp only at hafter
      cases frame with
      | logoutSent s caller error =>
        cases caller with
        | closeAll k =>
          have hk : k < st.closeAlls.length := hfresh _ hmem k rfl
          have hc : st.closeAlls[k]? = some st.closeAlls[k] := List.getElem?_eq_getElem hk
          obtain ⟨hcloseAlls, hcalls, _⟩ :=
            calls_settled hf' (hcalm.calm s (mem_awaitedEnd hf)) hc
          rw [hafter] at hcloseAlls hcalls
          exact .settled ⟨i, rfl, hf⟩ hc hcloseAlls hcalls
        | _ => cases hcall
      | allClosed k stopping =>
        obtain ⟨hcloseAlls, hcalls, hempty, hstop⟩ := calls_resolved hf'
        rw [hafter] at hcloseAlls hcalls hempty hstop
        exact .resolved ⟨i, rfl, hf⟩ hcloseAlls hcalls hempty hstop
      | _ => cases hcall
    · refine hother Event.noConfusion Event.noConfusion ?_
      rintro frame ⟨j, hj, hf⟩
      obtain rfl := Event.resume.inj hj
      exact Bool.eq_false_iff.mpr fun h => hcall ⟨frame, hf, h⟩
  | _ =>
    refine hother Event.noConfusion Event.noConfusion ?_
    rintro frame ⟨i, hi, _⟩
    cases hi

/-! ## The invariant of a call -/

/-- What is known of the `k`th call of `closeAll` in a calm run. -/
structure CallKept (st : AcceptorState) (run : List (AcceptorState × Step)) (k : ℕ)
    (c : CloseAll) : Prop where
  unfailed : c.failed = false
  pending : c.pending = st.calls.countP (Frame.awaited k)
  going : c.pending = 0 → .allClosed k c.stopping ∈ st.calls ∨ ∃ y ∈ run, Resolves k y
  last : ∀ stopping, .allClosed k stopping ∈ st.calls → c.pending = 0 ∧ stopping = c.stopping

/-- Tasks of other calls that come and go do not concern a call. -/
theorem CallKept.others {y : AcceptorState × Step} {c : CloseAll} (h : CallKept st run k c)
    (gone added : List Frame)
    (hperm : (gone ++ st'.calls).Perm (st.calls ++ added))
    (hgone : ∀ frame ∈ gone, ∃ j, frame.call = some j ∧ j ≠ k)
    (hadded : ∀ frame ∈ added, ∃ j, frame.call = some j ∧ j ≠ k) :
    CallKept st' (run ++ [y]) k c := by
  have hcount : ∀ frames : List Frame, (∀ frame ∈ frames, ∃ j, frame.call = some j ∧ j ≠ k) →
      frames.countP (Frame.awaited k) = 0 := by
    refine fun frames hframes => List.countP_eq_zero.mpr fun frame hframe => ?_
    obtain ⟨j, hj, hne⟩ := hframes frame hframe
    exact Bool.eq_false_iff.mp (not_awaited_of_ne hj hne)
  have hmem : ∀ stopping, .allClosed k stopping ∈ st'.calls ↔ .allClosed k stopping ∈ st.calls := by
    intro stopping
    have hforeign : ∀ frames : List Frame, (∀ frame ∈ frames, ∃ j, frame.call = some j ∧ j ≠ k) →
        .allClosed k stopping ∉ frames := by
      intro frames hframes hframe
      obtain ⟨j, hj, hne⟩ := hframes _ hframe
      exact hne (Option.some.inj hj).symm
    have hiff := hperm.mem_iff (a := Frame.allClosed k stopping)
    rw [List.mem_append, List.mem_append, or_iff_right (hforeign gone hgone),
      or_iff_left (hforeign added hadded)] at hiff
    exact hiff
  refine ⟨h.unfailed, ?_, fun hzero => ?_, fun stopping hlast => h.last stopping ((hmem _).mp hlast)⟩
  · have hsum := hperm.countP_eq (Frame.awaited k)
    rw [List.countP_append, List.countP_append, hcount gone hgone, hcount added hadded] at hsum
    have hpending := h.pending
    omega
  · rcases h.going hzero with hgoing | ⟨z, hz, hresolves⟩
    · exact Or.inl ((hmem _).mpr hgoing)
    · exact Or.inr ⟨z, List.mem_append_left _ hz, hresolves⟩

/-- A new call waits for all its logouts, or goes on at once. -/
theorem CallKept.called {n : ℕ} {stopping : Bool}
    {frames : List Frame} (hfresh : ∀ frame ∈ st.calls, frame.call ≠ some k)
    (hcalls : st'.calls = st.calls ++ frames)
    (hframes : n = 0 ∧ frames = [.allClosed k stopping] ∨
      0 < n ∧ frames.length = n ∧ ∀ frame ∈ frames, frame.awaited k = true) :
    CallKept st' run k ⟨n, false, stopping⟩ := by
  have hold : st.calls.countP (Frame.awaited k) = 0 := by
    refine List.countP_eq_zero.mpr fun frame hframe hawaited => ?_
    exact hfresh frame hframe (call_of_awaited hawaited)
  have hadded : ∀ b, .allClosed k b ∈ st'.calls → .allClosed k b ∈ frames := by
    intro b hb
    rw [hcalls] at hb
    exact (List.mem_append.mp hb).resolve_left fun hmem => hfresh _ hmem rfl
  rcases hframes with ⟨rfl, rfl⟩ | ⟨hpos, hlength, hawaited⟩
  · refine ⟨rfl, ?_, fun _ => Or.inl ?_, fun b hb => ⟨rfl, ?_⟩⟩
    · rw [hcalls, List.countP_append, hold]
      rfl
    · rw [hcalls]
      exact List.mem_append_right _ (List.mem_singleton_self _)
    · cases List.mem_singleton.mp (hadded b hb)
      rfl
  · refine ⟨rfl, ?_, fun hzero => ?_, fun b hb => ?_⟩
    · rw [hcalls, List.countP_append, hold, List.countP_eq_length.mpr hawaited, Nat.zero_add]
      exact hlength.symm
    · exact absurd hzero (Nat.ne_of_gt hpos)
    · cases hawaited _ (hadded b hb)

/-- A call hears of the end of one of its logouts. -/
theorem CallKept.settled {run run' : List (AcceptorState × Step)} {s : ℕ}
    {error : Option JSError} {c : CloseAll} (h : CallKept st run k c)
    (hmem : .logoutSent s (.closeAll k) error ∈ st.calls)
    (hcalls : (.logoutSent s (.closeAll k) error :: st'.calls).Perm (st.calls ++
      if (c.settle (.ok ())).complete then [.allClosed k c.stopping] else [])) :
    CallKept st' run' k (c.settle (.ok ())) := by
  have hframe : (Frame.logoutSent s (.closeAll k) error).awaited k = true := decide_eq_true rfl
  have hpos : 0 < st.calls.countP (Frame.awaited k) :=
    List.countP_pos_iff.mpr ⟨_, hmem, hframe⟩
  have hpending : c.pending = st.calls.countP (Frame.awaited k) := h.pending
  have hcomplete : (c.settle (.ok ())).complete = decide (c.pending - 1 = 0) := by
    simp [CloseAll.complete, CloseAll.settle, h.unfailed]
  have hlast : ∀ b, .allClosed k b ∉ st.calls := fun b hb => by
    have hzero := (h.last b hb).1
    omega
  refine ⟨h.unfailed, ?_, fun hzero => Or.inl ?_, fun b hb => ?_⟩
  · have hadded : (if (c.settle (.ok ())).complete then [Frame.allClosed k c.stopping]
        else []).countP (Frame.awaited k) = 0 := by
      split <;> rfl
    have hsum := hcalls.countP_eq (Frame.awaited k)
    rw [List.countP_append, hadded, List.countP_cons_of_pos hframe] at hsum
    have hsettle : (c.settle (.ok ())).pending = c.pending - 1 := rfl
    omega
  · have hdone : (c.settle (.ok ())).complete = true := hcomplete.trans (decide_eq_true hzero)
    rw [if_pos hdone] at hcalls
    have hgoing : .allClosed k c.stopping ∈ .logoutSent s (.closeAll k) error :: st'.calls :=
      hcalls.mem_iff.mpr (List.mem_append_right _ (List.mem_singleton_self _))
    rcases List.mem_cons.mp hgoing with heq | hgoing
    · cases heq
    · exact hgoing
  · have hmem' := hcalls.mem_iff.mp (List.mem_cons_of_mem _ hb)
    have hnew := (List.mem_append.mp hmem').resolve_left (hlast b)
    split at hnew
    · next hdone =>
      obtain ⟨-, rfl⟩ := Frame.allClosed.inj (List.mem_singleton.mp hnew)
      exact ⟨of_decide_eq_true (hcomplete.symm.trans hdone), rfl⟩
    · cases hnew

/-- When a call resolves, nothing of it is left. -/
theorem CallKept.resolved {stopping : Bool} {c : CloseAll}
    (h : CallKept st run k c) (hgoes : st.GoesOn e.event (.allClosed k stopping))
    (hcalls : (.allClosed k stopping :: st'.calls).Perm st.calls) :
    CallKept st' (run ++ [(st, e)]) k c := by
  have hresolves : ∃ y ∈ run ++ [(st, e)], Resolves k y :=
    ⟨(st, e), List.mem_append_right _ (List.mem_singleton_self _), stopping, hgoes⟩
  refine ⟨h.unfailed, ?_, fun _ => Or.inr hresolves, fun b hb =>
    h.last b (hcalls.mem_iff.mp (List.mem_cons_of_mem _ hb))⟩
  have hsum := hcalls.countP_eq (Frame.awaited k)
  rw [List.countP_cons_of_neg Bool.false_ne_true] at hsum
  exact h.pending.trans hsum.symm

/-- What is known of all calls of `closeAll` in a calm run. -/
structure Closing (st : AcceptorState) (run : List (AcceptorState × Step)) : Prop where
  fresh : ∀ frame ∈ st.calls, ∀ k, frame.call = some k → k < st.closeAlls.length
  kept : ∀ k c, st.closeAlls[k]? = some c → CallKept st run k c

theorem Closing.step (h : Closing st run)
    (hcalls : CallsStep st e st') : Closing st' (run ++ [(st, e)]) := by
  cases hcalls with
  | none hcloseAlls hcalls =>
    refine ⟨?_, fun k c hc => ?_⟩
    · rw [hcloseAlls, hcalls]
      exact h.fresh
    · rw [hcloseAlls] at hc
      refine (h.kept k c hc).others [] [] ?_ ?_ ?_
      · rw [hcalls, List.append_nil]
        rfl
      · exact List.forall_mem_nil _
      · exact List.forall_mem_nil _
  | @called n stopping frames hcloseAlls hcalls hframes =>
    have hnew : ∀ frame ∈ frames, frame.call = some st.closeAlls.length := by
      intro frame hframe
      rcases hframes with ⟨_, rfl⟩ | ⟨_, _, hawaited⟩
      · exact call_of_allClosed (List.mem_singleton.mp hframe)
      · exact call_of_awaited (hawaited frame hframe)
    refine ⟨fun frame hframe k hk => ?_, fun k c hc => ?_⟩
    · rw [hcloseAlls, List.length_append]
      rw [hcalls] at hframe
      rcases List.mem_append.mp hframe with hframe | hframe
      · exact Nat.lt_add_right _ (h.fresh frame hframe k hk)
      · rw [hnew frame hframe] at hk
        obtain rfl := Option.some.inj hk
        exact Nat.lt_succ_self _
    · rw [hcloseAlls] at hc
      rcases Nat.lt_trichotomy k st.closeAlls.length with hlt | rfl | hgt
      · rw [List.getElem?_append_left hlt] at hc
        refine (h.kept k c hc).others [] frames ?_ ?_ ?_
        · rw [hcalls]
          rfl
        · exact List.forall_mem_nil _
        · exact fun frame hframe => ⟨_, hnew frame hframe, Nat.ne_of_gt hlt⟩
      · rw [List.getElem?_concat_length] at hc
        obtain rfl := Option.some.inj hc
        refine .called (fun frame hframe hk => ?_) hcalls hframes
        exact Nat.lt_irrefl _ (h.fresh frame hframe _ hk)
      · rw [List.getElem?_eq_none] at hc
        · cases hc
        · rw [List.length_append]
          exact hgt
  | @settled j s error c' hgoes hc' hcloseAlls hcalls =>
    have hmem : .logoutSent s (.closeAll j) error ∈ st.calls := mem_calls_of_goesOn hgoes rfl
    have hj : j < st.closeAlls.length := h.fresh _ hmem j rfl
    have hadded : ∀ frame ∈ (if (c'.settle (.ok ())).complete then
        [Frame.allClosed j c'.stopping] else []), frame.call = some j := by
      intro frame hframe
      split at hframe
      · exact call_of_allClosed (List.mem_singleton.mp hframe)
      · cases hframe
    refine ⟨fun frame hframe k hk => ?_, fun k c hc => ?_⟩
    · rw [hcloseAlls, List.length_set]
      have hmem' := hcalls.mem_iff.mp (List.mem_cons_of_mem _ hframe)
      rcases List.mem_append.mp hmem' with hold | hnew
      · exact h.fresh frame hold k hk
      · rw [hadded frame hnew] at hk
        obtain rfl := Option.some.inj hk
        exact hj
    · rw [hcloseAlls] at hc
      by_cases hk : j = k
      · subst hk
        rw [List.getElem?_set_self hj] at hc
        obtain rfl := Option.some.inj hc
        exact (h.kept j c' hc').settled hmem hcalls
      · rw [List.getElem?_set_ne hk] at hc
        refine (h.kept k c hc).others [_] _ hcalls ?_ ?_
        · exact fun frame hframe => ⟨j, List.mem_singleton.mp hframe ▸ rfl, hk⟩
        · exact fun frame hframe => ⟨j, hadded frame hframe, hk⟩
  | @resolved j stopping hgoes hcloseAlls hcalls =>
    refine ⟨fun frame hframe k hk => ?_, fun k c hc => ?_⟩
    · rw [hcloseAlls]
      exact h.fresh frame (hcalls.mem_iff.mp (List.mem_cons_of_mem _ hframe)) k hk
    · rw [hcloseAlls] at hc
      by_cases hk : j = k
      · subst hk
        exact (h.kept j c hc).resolved hgoes hcalls
      · refine (h.kept k c hc).others [.allClosed j stopping] [] ?_ ?_ ?_
        · rw [List.append_nil]
          exact hcalls
        · exact fun frame hframe => ⟨j, List.mem_singleton.mp hframe ▸ rfl, hk⟩
        · exact List.forall_mem_nil _

/-! ## Sessions registered since a call -/

/-- A created session that still runs is registered, or its logout is awaited by a call. -/
def AcceptorState.Accounts (st : AcceptorState) (k s : ℕ) : Prop :=
  s < st.nextSession ∧ ((st.sessions s).heartbeatTimer = true →
    s ∈ st.registry.values ∨ ∃ frame ∈ st.tasks, frame.awaits k s = true)

/-- The end of an awaited logout disconnects its session. -/
theorem timer_awaited {s : ℕ} {frame : Frame} (hcalm : StopsCalmly st e)
    (hstep : st.step e = some st')
    (hfresh : ∀ frame ∈ st.calls, ∀ k, frame.call = some k → k < st.closeAlls.length)
    (hgoes : st.GoesOn e.event frame) (hawaits : frame.awaits k s = true) :
    (st'.sessions s).heartbeatTimer = false := by
  rcases e with ⟨event, input⟩
  obtain ⟨i, rfl, hf⟩ := hgoes
  cases frame with
  | logoutSent x caller error =>
    cases caller with
    | closeAll j =>
      obtain ⟨rfl, rfl⟩ : x = s ∧ j = k := of_decide_eq_true hawaits
      have hmem : .logoutSent x (.closeAll j) error ∈ st.calls :=
        List.mem_filter.mpr ⟨List.mem_of_getElem? hf, rfl⟩
      have hj : j < st.closeAlls.length := hfresh _ hmem j rfl
      have hf' : (st.meets ⟨.resume i, input⟩).tasks[i]? =
          some (.logoutSent x (.closeAll j) error) := hf
      obtain ⟨_, _, htimer⟩ := calls_settled hf' (hcalm.calm x (mem_awaitedEnd hf))
        (List.getElem?_eq_getElem hj)
      rwa [after_of_step hstep] at htimer
    | _ => cases hawaits
  | _ => cases hawaits

/-- While a call is under way, steps keep its sessions accounted for. -/
theorem accounts_step {s : ℕ} (hreached : acceptor.Reached guard st) (hcalm : StopsCalmly st e)
    (hstep : st.step e = some st')
    (hfresh : ∀ frame ∈ st.calls, ∀ k, frame.call = some k → k < st.closeAlls.length)
    {frame : Frame} (hframe : frame ∈ st.calls) (hk : frame.call = some k)
    (h : st.Accounts k s) : st'.Accounts k s := by
  obtain ⟨hlt, haccounts⟩ := h
  refine ⟨Nat.lt_of_lt_of_le hlt (nextSession_le_step hstep), fun htimer' => ?_⟩
  have htimer : (st.sessions s).heartbeatTimer = true := by
    by_contra htimer
    rw [timer_step hstep hlt (Bool.eq_false_iff.mpr htimer)] at htimer'
    cases htimer'
  have hawaited : (∃ frame' ∈ st.tasks, frame'.awaits k s = true) →
      ∃ frame' ∈ st'.tasks, frame'.awaits k s = true := by
    rintro ⟨frame', hmem, hawaits⟩
    rcases mem_tasks_step hstep hmem with hmem' | hgoes
    · exact ⟨frame', hmem', hawaits⟩
    · rw [timer_awaited hcalm hstep hfresh hgoes hawaits] at htimer'
      cases htimer'
  rcases haccounts htimer with hentry | hawaits
  · obtain ⟨id, hid⟩ := OrderedMap.mem_values_iff.mp hentry
    rcases entry_step hreached hstep hid with hentry' | hended | hevicted | hgoes
    · exact Or.inl (OrderedMap.mem_values_iff.mpr ⟨id, hentry'⟩)
    · rw [hended] at htimer'
      cases htimer'
    · have hmem : frame ∈ st.tasks := List.mem_of_mem_filter hframe
      exact Or.inr (hawaited (hcalm.spared s hevicted htimer frame hmem k hk))
    · rw [hcalm.ended s (mem_emptied hgoes hentry)] at htimer
      cases htimer
  · exact Or.inr (hawaited hawaits)

/-! ## The end of a call -/

/-- What is known of a calm run in which calls of `closeAll` are under way. -/
structure Stopping (st : AcceptorState) (run : List (AcceptorState × Step)) : Prop
    extends Closing st run where
  past : ∀ y ∈ run, y.1.closeAlls.length ≤ st.closeAlls.length ∧
    ∀ k, Resolves k y → k < y.1.closeAlls.length
  accounted : ∀ frame ∈ st.calls, ∀ k, frame.call = some k → ∀ y ∈ run,
    k < y.1.closeAlls.length → ∀ s ∈ y.1.registry.values, st.Accounts k s
  awaited : ∀ k y later, y :: later <:+ run → k < y.1.closeAlls.length →
    y.1.calls.countP (Frame.awaited k) = st.calls.countP (Frame.awaited k) +
      (y :: later).countP fun z => z.1.endsAwaited k z.2.event
  stops : ∀ k c, st.closeAlls[k]? = some c → c.stopping = true → ∀ y later,
    y :: later <:+ run → Resolves k y → .closeAllSockets ∈ st.tasks ∨ ∃ z ∈ later, ShutsDown z

/-- The sessions that are registered or were registered since a call are accounted for. -/
theorem Stopping.accounts (h : Stopping st run) (hreached : acceptor.Reached guard st)
    {frame : Frame} (hframe : frame ∈ st.calls) (hk : frame.call = some k) :
    ∀ y ∈ run ++ [(st, e)], k < y.1.closeAlls.length → ∀ s ∈ y.1.registry.values,
      st.Accounts k s := by
  intro y hy hlt s hs
  rcases List.mem_append.mp hy with hy | hy
  · exact h.accounted frame hframe k hk y hy hlt s hs
  · obtain rfl := List.mem_singleton.mp hy
    exact ⟨lt_nextSession_of_mem_values (wellFormed_of_reached hreached) hs, fun _ => Or.inl hs⟩

theorem Stopping.step (h : Stopping st run) (hreached : acceptor.Reached guard st)
    (hcalm : StopsCalmly st e) (hstep : st.step e = some st') :
    Stopping st' (run ++ [(st, e)]) := by
  have hcalls := calls_step hcalm hstep h.fresh
  have hlength := hcalls.length_le
  have hpast : ∀ y ∈ run ++ [(st, e)], y.1.closeAlls.length ≤ st.closeAlls.length ∧
      ∀ k, Resolves k y → k < y.1.closeAlls.length := by
    intro y hy
    rcases List.mem_append.mp hy with hy | hy
    · exact h.past y hy
    · obtain rfl := List.mem_singleton.mp hy
      refine ⟨Nat.le_refl _, ?_⟩
      rintro k ⟨stopping, hgoes⟩
      exact h.fresh _ (mem_calls_of_goesOn hgoes rfl) k rfl
  refine ⟨h.toClosing.step hcalls, fun y hy => ?_, fun frame hframe k hk y hy hlt s hs => ?_,
    fun k y later hsuffix hlt => ?_, fun k c hc hstopping y later hsuffix hresolves => ?_⟩
  · exact ⟨(hpast y hy).1.trans hlength, (hpast y hy).2⟩
  · have hlt' : k < st.closeAlls.length := Nat.lt_of_lt_of_le hlt (hpast y hy).1
    obtain ⟨frame', hframe', hk'⟩ := hcalls.underWay hframe hk hlt'
    exact accounts_step hreached hcalm hstep h.fresh hframe' hk'
      (h.accounts hreached hframe' hk' y hy hlt s hs)
  · have hy : y ∈ run ++ [(st, e)] := hsuffix.subset List.mem_cons_self
    have hsum := hcalls.awaited (Nat.lt_of_lt_of_le hlt (hpast y hy).1)
    rcases System.cons_suffix_concat hsuffix with ⟨rfl, rfl⟩ | ⟨later, rfl, hsuffix'⟩
    · rw [List.countP_singleton]
      exact hsum
    · have hbefore := h.awaited k y later hsuffix' hlt
      rw [← List.cons_append, List.countP_append, List.countP_singleton]
      dsimp only
      omega
  · have hy : y ∈ run ++ [(st, e)] := hsuffix.subset List.mem_cons_self
    have hk : k < st.closeAlls.length :=
      Nat.lt_of_lt_of_le ((hpast y hy).2 k hresolves) (hpast y hy).1
    obtain ⟨c', hc', hsame⟩ := hcalls.stopping hc hk
    rcases System.cons_suffix_concat hsuffix with ⟨rfl, rfl⟩ | ⟨later, rfl, hsuffix'⟩
    · obtain ⟨stopping, hgoes⟩ := hresolves
      have hmem : .allClosed k stopping ∈ st.calls := mem_calls_of_goesOn hgoes rfl
      refine Or.inl ((hcalls.of_resolves hgoes).2.2 ?_)
      rw [((h.kept k c' hc').last stopping hmem).2, hsame]
      exact hstopping
    · rcases h.stops k c' hc' (hsame.trans hstopping) y later hsuffix' hresolves with
        htask | ⟨z, hz, hshuts⟩
      · rcases mem_tasks_step hstep htask with htask' | hgoes
        · exact Or.inl htask'
        · exact Or.inr ⟨(st, e), List.mem_append_right _ (List.mem_singleton_self _), hgoes⟩
      · exact Or.inr ⟨z, List.mem_append_left _ hz, hshuts⟩

/-- When a call resolves, all sessions registered since the call have been disconnected. -/
theorem Stopping.disconnected (h : Stopping st run) (hreached : acceptor.Reached guard st)
    (hcalm : StopsCalmly st e) (hresolves : Resolves k (st, e)) :
    ∀ y ∈ run ++ [(st, e)], k < y.1.closeAlls.length → ∀ s ∈ y.1.registry.values,
      .ran s .disconnected ∈ st.trace := by
  intro y hy hlt s hs
  obtain ⟨stopping, hgoes⟩ := hresolves
  have hmem : .allClosed k stopping ∈ st.calls := mem_calls_of_goesOn hgoes rfl
  obtain ⟨hcreated, haccounts⟩ := h.accounts hreached hmem rfl y hy hlt s hs
  refine timersRun_of_reached hreached s hcreated (Bool.eq_false_iff.mpr fun htimer => ?_)
  rcases haccounts htimer with hentry | ⟨frame, hframe, hawaits⟩
  · rw [hcalm.ended s (mem_emptied hgoes hentry)] at htimer
    cases htimer
  · have hk : k < st.closeAlls.length := h.fresh _ hmem k rfl
    have hkept := h.kept k _ (List.getElem?_eq_getElem hk)
    have hzero := hkept.pending.symm.trans (hkept.last stopping hmem).1
    have hawaited := awaited_of_awaits hawaits
    have hcall : frame ∈ st.calls := by
      refine List.mem_filter.mpr ⟨hframe, ?_⟩
      rw [Frame.isCall, call_of_awaited hawaited]
      rfl
    exact List.countP_eq_zero.mp hzero frame hcall hawaited

/-- All sockets of a list are destroyed. -/
theorem result_destroys (st : AcceptorState) (sockets : List ℕ) :
    ∃ st', (Exec.forEach sockets destroy).result st = (.ok (), st') ∧
      ∀ c, c ∈ sockets ∨ (st.sockets c).destroyed = true → (st'.sockets c).destroyed = true := by
  induction sockets generalizing st with
  | nil => exact ⟨st, rfl, fun c hc => hc.resolve_left List.not_mem_nil⟩
  | cons x sockets ih =>
    obtain ⟨st1, hst1⟩ : ∃ st1, (destroy x).result st = (.ok (), st1) ∧
        ∀ c, c = x ∨ (st.sockets c).destroyed = true → (st1.sockets c).destroyed = true := by
      refine ⟨_, result_modify _ st, fun c hc => ?_⟩
      dsimp only
      by_cases hx : c = x
      · rw [hx, Function.update_self]
      · rw [Function.update_of_ne hx]
        exact hc.resolve_left hx
    obtain ⟨st', hr, hdestroyed⟩ := ih st1
    refine ⟨st', ?_, fun c hc => hdestroyed c ?_⟩
    · rw [Exec.forEach, result_bind, hst1.1]
      exact hr
    · rcases hc with hc | hc
      · exact (List.mem_cons.mp hc).elim (fun hx => Or.inr (hst1.2 c (Or.inl hx))) Or.inl
      · exact Or.inr (hst1.2 c (Or.inr hc))

/-- `stop` destroys the sockets and closes the server. -/
theorem shutDown_step (hstep : st.step e = some st') (hgoes : ShutsDown (st, e)) :
    st'.listening = false ∧
      ∀ c ∈ st.activeSockets.values, (st'.sockets c).destroyed = true := by
  rcases e with ⟨event, input⟩
  obtain ⟨i, hi, hf⟩ := hgoes
  obtain rfl : event = .resume i := hi
  have hafter := after_resume_step hstep rfl hf
  obtain ⟨st1, hr, hdestroyed⟩ := result_destroys
    ((Act.take i).apply (st.meets ⟨.resume i, input⟩)) st.activeSockets.values
  unfold resume closeAllSockets at hafter
  rw [after_bind_of_ok (result_get _)] at hafter
  have hr' : (Exec.forEach (AcceptorState.activeSockets ((Act.take i).apply
      (st.meets ⟨.resume i, input⟩))).values destroy).result _ = _ := hr
  rw [after_bind_of_ok hr'] at hafter
  rw [← hafter]
  exact ⟨rfl, fun c hc => hdestroyed c (Or.inl hc)⟩

/-! ## Calm runs -/

variable {p : AcceptorState × List (AcceptorState × Step)}

theorem stopping_of_reached (h : tracedAcceptor.Reached (fun p e => StopsCalmly p.1 e) p) :
    Stopping p.1 p.2 := by
  induction h with
  | init hinit =>
    obtain ⟨⟨config, hconfig⟩, hrun⟩ := hinit
    rw [hconfig, hrun]
    refine ⟨⟨fun _ h => ?_, fun _ _ h => ?_⟩, fun _ h => ?_, fun _ h => ?_,
      fun _ _ _ h => ?_, fun _ _ h => ?_⟩
    on_goal 5 => cases List.suffix_nil.mp h
    all_goals cases h
  | step hreached hcalm hstep ih =>
    obtain ⟨hstep, hrun⟩ := System.recorded_step.mp hstep
    rw [hrun]
    have hplain : acceptor.Reached StopsCalmly _ := hreached.of_recorded fun _ _ => id
    exact ih.step hplain hcalm hstep

/-- In every run in which the condition holds at every step, calls of `closeAll` are complete,
and `stop` goes on to close the sockets and the server. -/
theorem closesAll_of_reached (h : tracedAcceptor.Reached (fun p e => StopsCalmly p.1 e) p) :
    ClosesAll p.1 p.2 := by
  have hstopping := stopping_of_reached h
  have hresolves : ∀ k c, p.1.closeAlls[k]? = some c → c.failed = false ∧
      ((∃ frame ∈ p.1.tasks, frame.call = some k) ∨ ∃ y ∈ p.2, Resolves k y) := by
    intro k c hc
    have hkept := hstopping.kept k c hc
    refine ⟨hkept.unfailed, ?_⟩
    rcases Nat.eq_zero_or_pos c.pending with hzero | hpos
    · rcases hkept.going hzero with hmem | hresolved
      · exact Or.inl ⟨_, List.mem_of_mem_filter hmem, rfl⟩
      · exact Or.inr hresolved
    · rw [hkept.pending] at hpos
      obtain ⟨frame, hframe, hawaited⟩ := List.countP_pos_iff.mp hpos
      exact Or.inl ⟨frame, List.mem_of_mem_filter hframe, call_of_awaited hawaited⟩
  have hawaited : ∀ k y later, y :: later <:+ p.2 → k < y.1.closeAlls.length →
      y.1.tasks.countP (Frame.awaited k) = p.1.tasks.countP (Frame.awaited k) +
        (y :: later).countP fun z => z.1.endsAwaited k z.2.event := by
    intro k y later hsuffix hlt
    rw [countP_awaited, countP_awaited]
    exact hstopping.awaited k y later hsuffix hlt
  cases h with
  | init hinit =>
    have hlast : ∀ y, p.2.getLast? ≠ some y := by
      intro y hy
      rw [show p.2 = [] from hinit.2] at hy
      cases hy
    exact ⟨hresolves, hawaited, fun _ y hy => absurd hy (hlast y), fun _ y hy => absurd hy (hlast y),
      hstopping.stops, fun y hy => absurd hy (hlast y)⟩
  | @step p0 _ e hreached hcalm hstep =>
    obtain ⟨hstep, hrun⟩ := System.recorded_step.mp hstep
    have hbefore := stopping_of_reached hreached
    have hplain : acceptor.Reached StopsCalmly p0.1 := hreached.of_recorded fun _ _ => id
    have hlast : ∀ y, p.2.getLast? = some y → y = (p0.1, e) := by
      intro y hy
      rw [hrun, List.getLast?_concat] at hy
      exact (Option.some.inj hy).symm
    refine ⟨hresolves, hawaited, fun k y hy hy' => ?_, fun k y hy hy' => ?_, hstopping.stops,
      fun y hy hy' => ?_⟩
    · obtain rfl := hlast y hy
      obtain ⟨stopping, hgoes⟩ := hy'
      rw [((calls_step hcalm hstep hbefore.fresh).of_resolves hgoes).2.1]
      rfl
    · obtain rfl := hlast y hy
      intro z hz hlt s hs
      rw [hrun] at hz
      have hran := hbefore.disconnected hplain hcalm hy' z hz hlt s hs
      exact step_keeps hstep (P := fun st1 => .ran s .disconnected ∈ st1.trace) hran
        fun st1 a _ _ => mem_trace_apply a
    · obtain rfl := hlast y hy
      exact shutDown_step hstep hy'

/-! ## Examples of runs -/

/-- Two clients log on, and the acceptor is stopped. -/
def stoppingSteps : List Step :=
  (Event.connect (js "client:1")).calmly :: (Event.connect (js "client:2")).calmly ::
    logonSteps 0 (js "ALICE") ++ logonSteps 1 (js "BOB") ++
    (Event.stop :: List.replicate 4 (.resume 0)).map Event.calmly

/-- The call of `closeAll` is complete, and the server is closed. -/
theorem closesAll_stoppingSteps : ∃ p ∈ tracedAcceptor.exec (broker 0, []) stoppingSteps,
    p.1.listening = false ∧ ClosesAll p.1 p.2 := by
  have hguarded : tracedAcceptor.Guarded (fun p e => StopsCalmly p.1 e) (broker 0, [])
      stoppingSteps := by decide +kernel
  have hrun : ∃ p ∈ tracedAcceptor.exec (broker 0, []) stoppingSteps,
      p.1.listening = false := by decide +kernel
  obtain ⟨p, hp, hlistening⟩ := hrun
  have hinit : tracedAcceptor.Reached (fun p e => StopsCalmly p.1 e) (broker 0, []) :=
    .init ⟨⟨_, rfl⟩, rfl⟩
  exact ⟨p, hp, hlistening, closesAll_of_reached (hinit.exec hguarded hp)⟩

/-- The acceptor is stopped between the registration of a session and its Logon. -/
def earlyStopSteps : List Step :=
  [Event.connect (js "client:1"), .data 0 (logonBytes (js "CLIENT")), .resume 0, .stop].map
    Event.calmly

/-- A second client logs on while `stop` waits for the logout of the first one. -/
def lateLogonSteps : List Step :=
  (Event.connect (js "client:1")).calmly :: (Event.connect (js "client:2")).calmly ::
    logonSteps 0 (js "ALICE") ++
    (Event.stop :: .data 1 (logonBytes (js "BOB")) ::
      (List.replicate 6 (.resume 1) ++ List.replicate 2 (.resume 0))).map Event.calmly

/-- Whether the `k`th call of `closeAll` resolves in a step. -/
def AcceptorState.resolves (st : AcceptorState) (k : ℕ) : Event → Bool
  | .resume i =>
    match st.tasks[i]? with
    | some (.allClosed j _) => decide (j = k)
    | _ => false
  | _ => false

theorem resolves_of_event {y : AcceptorState × Step} (h : y.1.resolves k y.2.event = true) :
    Resolves k y := by
  unfold AcceptorState.resolves at h
  split at h
  · next i hevent =>
    split at h
    · next j stopping hf =>
      obtain rfl : j = k := of_decide_eq_true h
      exact ⟨stopping, i, hevent, hf⟩
    · cases h
  · cases h

/-- In the first run the logout of the new session fails, so that `closeAll` is rejected and
nothing goes on; in the second one `closeAll` drops the second session, which goes on running. -/
theorem not_closesAll : (∃ p ∈ tracedAcceptor.exec (broker 0, []) earlyStopSteps,
      p.1.tasks.all (fun frame => frame.call = none) = true ∧ ¬ ClosesAll p.1 p.2) ∧
    ∃ p ∈ tracedAcceptor.exec (broker 0, []) lateLogonSteps, ¬ ClosesAll p.1 p.2 := by
  constructor
  · have hrun : ∃ p ∈ tracedAcceptor.exec (broker 0, []) earlyStopSteps,
        p.1.tasks.all (fun frame => frame.call = none) = true ∧
          ∃ c ∈ p.1.closeAlls[0]?, c.failed = true := by decide +kernel
    obtain ⟨p, hp, htasks, c, hc, hfailed⟩ := hrun
    refine ⟨p, hp, htasks, fun h => ?_⟩
    rw [(h.resolves 0 c hc).1] at hfailed
    cases hfailed
  · have hrun : ∃ p ∈ tracedAcceptor.exec (broker 0, []) lateLogonSteps,
        ∃ y ∈ p.2.getLast?, y.1.resolves 0 y.2.event = true ∧ 0 < y.1.closeAlls.length ∧
          1 ∈ y.1.registry.values ∧ .ran 1 .disconnected ∉ p.1.trace := by decide +kernel
    obtain ⟨p, hp, y, hy, hresolves, hlt, hentry, hran⟩ := hrun
    refine ⟨p, hp, fun h => hran ?_⟩
    exact h.disconnected 0 y hy (resolves_of_event hresolves) y (List.mem_of_getLast? hy) hlt 1
      hentry

end NestQuickfix.Acceptor
