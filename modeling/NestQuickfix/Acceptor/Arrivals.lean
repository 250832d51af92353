import NestQuickfix.Acceptor.Ordering
import NestQuickfix.Acceptor.Settling
import NestQuickfix.Message.CleanValues
import NestQuickfix.Session.FailedSends

/-!
# What arrives on a connection

The chunks that a connection delivers determine the messages that the acceptor processes.
As long as chunks arrive alone, the processing of the messages of a connection begins in the
order in which they arrive, none of them twice, and what has not begun yet is left in the
one loop of the connection. A peer that sends whole messages is thus understood: what it
has encoded is processed message by message.
-/

namespace NestQuickfix.Acceptor

open Lib Lib.Exec

/-- The chunk that an event passes to the loop over its messages. -/
def AcceptorState.received (st : AcceptorState) : Event → List (ℕ × List UInt8)
  | .data c data => if (st.sockets c).dataListener then [(c, data)] else []
  | _ => []

/-- An acceptor with the record of the chunks it has received. -/
abbrev receivingAcceptor : System (AcceptorState × List (ℕ × List UInt8)) Step :=
  acceptor.recorded fun st e => st.received e.event

/-- What a loop passes on, if it is one of connection `c`. -/
def passesOn (c : ℕ) (loop : ℕ × List Message) : List (ℕ × Message) :=
  if loop.1 = c then passes c loop.2 else []

/-- The messages of a connection whose processing has begun. -/
def processed (c : ℕ) (trace : List Observation) : List (ℕ × Message) :=
  (trace.filterMap Observation.passed).filter fun x => x.1 = c

/-- The messages of a connection whose processing will begin. -/
def AcceptorState.left (st : AcceptorState) (c : ℕ) : List (ℕ × Message) :=
  (st.tasks.filterMap Frame.left).flatMap (passesOn c)

/-- The messages of the chunks of a connection. -/
def due (c : ℕ) (chunks : List (ℕ × List UInt8)) : List (ℕ × Message) :=
  chunks.flatMap fun x => passesOn c (x.1, processData x.2)

variable {guard : AcceptorState → Step → Prop} {st st' : AcceptorState} {e : Step} {c x : ℕ}
  {ms : List Message} {p : List (ℕ × Message)} {loops : List (ℕ × List Message)}

theorem due_eq_filter (c : ℕ) (chunks : List (ℕ × List UInt8)) :
    due c chunks =
      (chunks.filter fun x => x.1 = c).flatMap fun x => passes c (processData x.2) := by
  induction chunks with
  | nil => rfl
  | cons x chunks ih =>
    rw [due, List.flatMap_cons, ← due, ih, passesOn]
    by_cases hx : x.1 = c <;> simp [hx]

/-! ## Loops of a connection -/

/-- The messages of a loop belong to its connection. -/
theorem fst_of_mem_passes {y : ℕ × Message} (h : y ∈ passes c ms) : y.1 = c := by
  induction ms with
  | nil => cases h
  | cons m rest ih =>
    rw [passes] at h
    split at h
    · split at h
      · cases h
      · rcases List.mem_cons.mp h with rfl | hrest
        · rfl
        · exact ih hrest
    · exact ih h

theorem filter_passes (c x : ℕ) (ms : List Message) :
    ((passes x ms).filter fun y => y.1 = c) = passesOn c (x, ms) := by
  unfold passesOn
  split
  · next hx =>
    subst hx
    exact List.filter_eq_self.mpr fun y hy => decide_eq_true (fst_of_mem_passes hy)
  · next hx =>
    refine List.filter_eq_nil_iff.mpr fun y hy hc => hx ?_
    exact (fst_of_mem_passes hy).symm.trans (of_decide_eq_true hc)

/-- What a step that continues a loop adds to what has been processed and to what is left. -/
theorem processed_of_looped (h : Looped st p loops st') (c : ℕ) :
    processed c st'.trace = processed c st.trace ++ p.filter fun y => y.1 = c := by
  obtain ⟨_, observations, _, htrace, _, hpassed⟩ := h
  rw [processed, htrace, List.filterMap_append, List.filter_append, hpassed]
  rfl

theorem left_of_looped (h : Looped st p loops st') (c : ℕ) :
    st'.left c = st.left c ++ loops.flatMap (passesOn c) := by
  obtain ⟨frames, _, htasks, _, hloops, _⟩ := h
  rw [AcceptorState.left, htasks, List.filterMap_append, List.flatMap_append, hloops]
  rfl

/-- What begins in a step that continues a loop, and what is left, is what was left and what the
loop passes on, unless another loop has messages of the connection. -/
theorem processed_left_of_continued (h : Continued x ms st st')
    (hleft : passesOn c (x, ms) ≠ [] → st.left c = []) :
    processed c st'.trace ++ st'.left c =
      processed c st.trace ++ st.left c ++ passesOn c (x, ms) := by
  obtain ⟨p, loops, hlooped, hpasses⟩ : ∃ p loops, Looped st p loops st' ∧
      (p.filter fun y => y.1 = c) ++ loops.flatMap (passesOn c) = passesOn c (x, ms) := by
    rw [← filter_passes]
    rcases h with hended | ⟨p, rest, hrest, hpasses⟩
    · exact ⟨_, _, hended, List.append_nil _⟩
    · refine ⟨_, _, hrest, ?_⟩
      rw [hpasses, List.filter_append, filter_passes, List.flatMap_singleton]
  rw [processed_of_looped hlooped, left_of_looped hlooped]
  by_cases hnil : passesOn c (x, ms) = []
  · rw [hnil, List.append_eq_nil_iff] at hpasses
    rw [hpasses.1, hpasses.2, hnil]
    simp
  · rw [hleft hnil, ← hpasses]
    simp

/-! ## What is left -/

theorem left_eq_nil (h : st.loops c = 0) : st.left c = [] := by
  refine List.flatMap_eq_nil_iff.mpr fun y hy => if_neg fun hc => ?_
  obtain ⟨frame, hframe, hleft⟩ := List.mem_filterMap.mp hy
  have hloop : frame.isLoop c = true := by
    rw [Frame.isLoop, loop_eq_left, hleft]
    exact decide_eq_true (congrArg some hc)
  exact List.countP_eq_zero.mp h frame hframe hloop

/-- Taking a task takes what is left in it. -/
theorem exists_left_take {i : ℕ} {frame : Frame} (hf : st.tasks[i]? = some frame) (c : ℕ) :
    ∃ before after, st.left c = before ++ frame.left.toList.flatMap (passesOn c) ++ after ∧
      ((Act.take i).apply st).left c = before ++ after := by
  obtain ⟨hi, hframe⟩ := List.getElem?_eq_some_iff.mp hf
  have hsplit : st.tasks = st.tasks.take i ++ frame :: st.tasks.drop (i + 1) := by
    rw [← hframe, List.getElem_cons_drop, List.take_append_drop]
  have htaken : ((Act.take i).apply st).tasks = st.tasks.take i ++ st.tasks.drop (i + 1) :=
    List.eraseIdx_eq_take_drop_succ st.tasks i
  refine ⟨((st.tasks.take i).filterMap Frame.left).flatMap (passesOn c),
    ((st.tasks.drop (i + 1)).filterMap Frame.left).flatMap (passesOn c), ?_, ?_⟩
  · conv_lhs => rw [AcceptorState.left, hsplit]
    rw [List.filterMap_append, List.flatMap_append, List.filterMap_cons]
    cases frame.left <;> simp
  · rw [AcceptorState.left, htaken, List.filterMap_append, List.flatMap_append]

/-! ## Steps -/

theorem processed_taken (c : ℕ) (st : AcceptorState) (e : Step) :
    processed c (st.taken e).trace = processed c st.trace := by
  rcases e with ⟨event, input⟩
  cases event <;> rfl

/-- A step without a loop takes no message of any connection. -/
theorem left_taken_of_loopOf_none (hloop : st.loopOf e.event = none) (c : ℕ) :
    (st.taken e).left c = st.left c := by
  rcases e with ⟨event, input⟩
  cases event with
  | resume i =>
    cases hf : st.tasks[i]? with
    | none =>
      have herase : st.tasks.eraseIdx i = st.tasks :=
        List.eraseIdx_of_length_le (List.getElem?_eq_none_iff.mp hf)
      have htasks : (st.taken ⟨.resume i, input⟩).tasks = st.tasks := herase
      rw [AcceptorState.left, htasks]
      rfl
    | some frame =>
      have hleft : frame.left = none := by
        rw [AcceptorState.loopOf, hf] at hloop
        exact hloop
      have hf' : (st.meets ⟨.resume i, input⟩).tasks[i]? = some frame := hf
      obtain ⟨before, after, hst, htaken⟩ := exists_left_take hf' c
      rw [hleft, Option.toList_none, List.flatMap_nil, List.append_nil] at hst
      exact htaken.trans hst.symm
  | _ => rfl

/-- A step of the system begins messages of a connection as they have arrived. -/
theorem processed_left_step (hstep : st.step e = some st') (halone : ArrivesAlone st e)
    (hone : st.loops c ≤ 1) : processed c st'.trace ++ st'.left c =
      processed c st.trace ++ st.left c ++ due c (st.received e.event) := by
  rw [← processed_taken c st e]
  cases hloop : st.loopOf e.event with
  | none =>
    have hlooped : Looped (st.taken e) [] [] st' := looped_step hstep hloop
    have hdue : due c (st.received e.event) = [] := by
      cases hevent : e.event with
      | data x data =>
        rw [hevent, AcceptorState.loopOf] at hloop
        split at hloop
        · cases hloop
        · next hlistener =>
          rw [AcceptorState.received, if_neg hlistener]
          rfl
      | _ => rfl
    rw [processed_of_looped hlooped, left_of_looped hlooped, left_taken_of_loopOf_none hloop, hdue]
    simp
  | some loop =>
    obtain ⟨x, ms⟩ := loop
    have hcontinued := continued_step hstep hloop
    cases hevent : e.event with
    | data y data =>
      rw [hevent, AcceptorState.loopOf] at hloop
      obtain ⟨hlistener, hchunk⟩ : (st.sockets y).dataListener = true ∧
          (y, processData data) = (x, ms) := by
        split at hloop
        · next hlistener => exact ⟨hlistener, Option.some.inj hloop⟩
        · cases hloop
      obtain ⟨rfl, rfl⟩ := Prod.mk.inj hchunk
      have hdue : due c (st.received (.data y data)) = passesOn c (y, processData data) := by
        rw [AcceptorState.received, if_pos hlistener]
        exact List.append_nil _
      have htaken : (st.taken e).left c = st.left c := by
        rw [AcceptorState.taken, hevent]
        rfl
      rw [processed_left_of_continued hcontinued fun hne => ?_, htaken, hdue]
      have hy : y = c := by
        by_contra hy
        exact hne (if_neg hy)
      subst hy
      have hmessages : processData data ≠ [] := by
        intro hnil
        rw [hnil] at hne
        exact hne (ite_self _)
      obtain ⟨event, input⟩ := e
      obtain rfl : event = .data y data := hevent
      exact htaken.trans
        (left_eq_nil (loops_eq_zero_of_alone hstep halone hlistener hmessages))
    | resume i =>
      rw [hevent] at hloop
      obtain ⟨frame, hf, hleft⟩ := Option.bind_eq_some_iff.mp hloop
      have hf' : (st.meets e).tasks[i]? = some frame := hf
      have htakes : st.taken e = (Act.take i).apply (st.meets e) := by
        rw [AcceptorState.taken, hevent]
      obtain ⟨before, after, hst, htaken⟩ := exists_left_take hf' c
      rw [hleft, Option.toList_some, List.flatMap_singleton] at hst
      have hmeets : (st.meets e).left c = st.left c := rfl
      have hnone : passesOn c (x, ms) ≠ [] → before = [] ∧ after = [] := by
        intro hne
        have hx : x = c := by
          by_contra hx
          exact hne (if_neg hx)
        have hloop' : frame.loop = some c := by
          rw [loop_eq_left, hleft, hx]
          rfl
        have htake := loops_take hf' hloop'
        have hone' : (st.meets e).loops c ≤ 1 := hone
        have hzero : ((Act.take i).apply (st.meets e)).loops c = 0 := by omega
        rw [left_eq_nil hzero] at htaken
        exact List.append_eq_nil_iff.mp htaken.symm
      rw [processed_left_of_continued hcontinued fun hne => ?_, ← hmeets, hst, htakes, htaken]
      · by_cases hnil : passesOn c (x, ms) = []
        · simp [hnil, AcceptorState.received, due]
        · simp [hnone hnil, AcceptorState.received, due]
      · rw [htakes, htaken, (hnone hne).1, (hnone hne).2]
        rfl
    | _ =>
      rw [hevent] at hloop
      cases hloop

/-- The messages whose processing has begun and those that are left are, in order, the messages
of the chunks that the connection has delivered. -/
theorem processed_eq_due {p : AcceptorState × List (ℕ × List UInt8)}
    (h : receivingAcceptor.Reached (fun p e => ArrivesAlone p.1 e) p) (c : ℕ) :
    processed c p.1.trace ++ p.1.left c = due c p.2 := by
  have hreached : ∀ {p : AcceptorState × List (ℕ × List UInt8)},
      receivingAcceptor.Reached (fun p e => ArrivesAlone p.1 e) p →
        acceptor.Reached ArrivesAlone p.1 := System.Reached.of_recorded fun _ _ => id
  induction h with
  | init hinit =>
    obtain ⟨⟨config, hconfig⟩, hnil⟩ := hinit
    rw [hconfig, hnil]
    rfl
  | @step p p' e h halone hstep ih =>
    obtain ⟨hstep', hchunks⟩ := System.recorded_step.mp hstep
    rw [processed_left_step hstep' halone (oneLoop_of_reached (hreached h) c), ih, hchunks, due,
      due, due, List.flatMap_append]

/-- In every run whose chunks arrive alone, and for every connection, whatever bytes it delivers:
the messages whose processing has begun are the first of those it has delivered, in their order
and none of them twice, and they are all of them exactly when none is left. -/
theorem processed_prefix {p : AcceptorState × List (ℕ × List UInt8)}
    (h : receivingAcceptor.Reached (fun p e => ArrivesAlone p.1 e) p) (c : ℕ) :
    processed c p.1.trace <+: due c p.2 ∧
      (processed c p.1.trace = due c p.2 ↔ p.1.left c = []) := by
  have hall := processed_eq_due h c
  rw [← hall]
  exact ⟨List.prefix_append _ _, List.self_eq_append_right⟩

/-- The messages of a client that logs on and sends a Heartbeat. -/
def clientMessages : List Message :=
  [(Message.ofStrings [(8, js "FIX.4.4"), (35, js "A"), (49, js "CLIENT"), (56, js "BROKER"),
    (52, js "20250101-00:00:00"), (98, js "0"), (108, js "30")]).setField Fields.msgSeqNum (.num (.int 1)),
    (Message.ofStrings [(8, js "FIX.4.4"), (35, js "0"), (49, js "CLIENT"), (56, js "BROKER"),
      (52, js "20250101-00:00:01")]).setField Fields.msgSeqNum (.num (.int 2))]

/-- They arrive in one chunk, and the Logon is handled first. -/
def clientSteps : List Step :=
  (Event.connect (js "client:1") :: .data 0 (toUtf8 (streamText clientMessages)) ::
    List.replicate 3 (.resume 0)).map Event.calmly

/-- The Heartbeat is left while the Logon is handled. -/
theorem processed_prefix_client : ∃ p ∈ receivingAcceptor.exec (broker 1, []) clientSteps,
    (processed 0 p.1.trace).length = 1 ∧ processed 0 p.1.trace <+: due 0 p.2 ∧
      (processed 0 p.1.trace = due 0 p.2 ↔ p.1.left 0 = []) := by
  have hguarded : receivingAcceptor.Guarded (fun p e => ArrivesAlone p.1 e) (broker 1, [])
      clientSteps := by decide +kernel
  have hrun : ∃ p ∈ receivingAcceptor.exec (broker 1, []) clientSteps,
      (processed 0 p.1.trace).length = 1 := by decide +kernel
  obtain ⟨p, hp, hlength⟩ := hrun
  have hreached : receivingAcceptor.Reached (fun p e => ArrivesAlone p.1 e) (broker 1, []) :=
    .init ⟨⟨_, rfl⟩, rfl⟩
  exact ⟨p, hp, hlength, processed_prefix (hreached.exec hguarded hp) 0⟩

/-! ## Peers that send whole messages -/

/-- A message that a peer can send and the parser can read back: it can be encoded, its tags
are safe, and its values are printed without separators. -/
structure Sendable (m : Message) : Prop where
  tags : ∀ f ∈ m.fields.entries, f.1.IsSafeTag
  clean : m.CleanFields
  encodes : m.toString = .ok m.wireText

/-- A message has what is printed of the fields of another one, apart from the two fields that
the encoder computes. -/
def SameContent (m m' : Message) : Prop :=
  ∀ t, t ≠ Fields.bodyLength → t ≠ Fields.checkSum →
    m'.fields.get? t = (m.fields.get? t).map fun v => .str v.printed

theorem sameContent_received {m : Message} (h : Sendable m) : SameContent m m.received := by
  intro t h9 h10
  obtain ⟨hrequired, _⟩ := Message.toString_eq_ok_iff.mp h.encodes
  refine Option.ext fun v => ?_
  rw [OrderedMap.get?_eq_some_iff, Option.map_eq_some_iff]
  constructor
  · intro hmem
    obtain ⟨f, hf, hprinted⟩ := List.mem_map.mp hmem
    obtain ⟨rfl, rfl⟩ := Prod.mk.inj hprinted
    exact ⟨f.2, OrderedMap.get?_eq_some_iff.mpr
      ((Message.mem_wireFields_iff hrequired h9 h10).mp hf), rfl⟩
  · rintro ⟨u, hu, rfl⟩
    exact List.mem_map.mpr ⟨(t, u), (Message.mem_wireFields_iff hrequired h9 h10).mpr
      (OrderedMap.get?_eq_some_iff.mp hu), rfl⟩

/-- What is received of a message can be encoded again. -/
theorem exists_toString_received {m : Message} (h : Sendable m) :
    ∃ raw, m.received.toString = .ok raw := by
  rw [Message.exists_toString_iff]
  refine ⟨fun t ht => ?_, fun t hhas _ _ => ?_⟩
  · exact Message.hasField_iff.mpr
      ⟨_, OrderedMap.get?_eq_some_iff.mpr (Message.mem_printedFields h.encodes ht)⟩
  · obtain ⟨f, _, hprinted⟩ := List.mem_map.mp (Message.mem_of_hasField hhas)
    rw [← (Prod.mk.inj hprinted).2]
    rfl

/-- A chunk of whole messages is passed on message by message. -/
theorem passes_received {ms : List Message} (h : ∀ m ∈ ms, Sendable m) (c : ℕ) :
    passes c (processData (toUtf8 (streamText ms))) = ms.map fun m => (c, m.received) := by
  rw [processData_toUtf8_streamText fun m hm =>
    (h m hm).clean.readable (Message.toString_eq_ok_iff.mp (h m hm).encodes).1]
  induction ms with
  | nil => rfl
  | cons m ms ih =>
    obtain ⟨hm, hms⟩ := List.forall_mem_cons.mp h
    obtain ⟨raw, hraw⟩ := exists_toString_received hm
    have htype : m.received.hasField Fields.msgType = true :=
      (Message.toString_eq_ok_iff.mp hraw).1 _ (by decide)
    rw [List.map_cons, passes, if_pos htype, hraw, List.map_cons, ih hms]

/-- A peer that sends whole messages, any number of them in a chunk, is understood: when its
chunks arrive alone, the messages whose processing has begun are the first messages of the peer,
in order and with what is printed of their fields, and they are all its messages when nothing is
left to go on with. -/
theorem processed_sameContent {p : AcceptorState × List (ℕ × List UInt8)}
    (h : receivingAcceptor.Reached (fun p e => ArrivesAlone p.1 e) p) {c : ℕ}
    {mss : List (List Message)} (hmss : ∀ ms ∈ mss, ∀ m ∈ ms, Sendable m)
    (hchunks : (p.2.filter fun x => x.1 = c) = mss.map fun ms => (c, toUtf8 (streamText ms))) :
    List.Forall₂ SameContent (mss.flatten.take (processed c p.1.trace).length)
      ((processed c p.1.trace).map Prod.snd) ∧
    (p.1.Settled → (processed c p.1.trace).length = mss.flatten.length) := by
  have hdue : due c p.2 = mss.flatten.map fun m => (c, m.received) := by
    rw [due_eq_filter, hchunks, List.flatMap_map, List.map_flatten, ← List.flatMap_def]
    exact List.flatMap_congr fun ms hms => passes_received (hmss ms hms) c
  have hall := (processed_eq_due h c).trans hdue
  have hprocessed : processed c p.1.trace =
      (mss.flatten.take (processed c p.1.trace).length).map fun m => (c, m.received) := by
    rw [List.map_take, ← hall, List.take_left]
  refine ⟨?_, fun hsettled => ?_⟩
  · have hmessages : (processed c p.1.trace).map Prod.snd =
        (mss.flatten.take (processed c p.1.trace).length).map Message.received := by
      conv_lhs => rw [hprocessed, List.map_map]
      rfl
    rw [hmessages, List.forall₂_map_right_iff, List.forall₂_same]
    intro m hm
    obtain ⟨ms, hms, hm⟩ := List.mem_flatten.mp (List.mem_of_mem_take hm)
    exact sameContent_received (hmss ms hms m hm)
  · have hleft : p.1.left c = [] := by
      rw [AcceptorState.left, hsettled.tasks]
      rfl
    rw [hleft, List.append_nil] at hall
    rw [hall, List.length_map]

/-- The messages of the client are understood when the acceptor has come to rest. -/
theorem processed_sameContent_client :
    ∃ p ∈ receivingAcceptor.exec (broker 1, [])
        (clientSteps ++ List.replicate 4 (Event.resume 0).calmly),
      (processed 0 p.1.trace).length = 2 ∧
        List.Forall₂ SameContent clientMessages ((processed 0 p.1.trace).map Prod.snd) := by
  have hguarded : receivingAcceptor.Guarded (fun p e => ArrivesAlone p.1 e) (broker 1, [])
      (clientSteps ++ List.replicate 4 (Event.resume 0).calmly) := by decide +kernel
  have hrun : ∃ p ∈ receivingAcceptor.exec (broker 1, [])
      (clientSteps ++ List.replicate 4 (Event.resume 0).calmly), p.1.tasks.length = 0 ∧
        p.1.closing = none ∧ (p.2.filter fun x => x.1 = 0) =
          [clientMessages].map fun ms => (0, toUtf8 (streamText ms)) := by decide +kernel
  obtain ⟨p, hp, htasks, hclosing, hchunks⟩ := hrun
  have hsettled : p.1.Settled := ⟨List.eq_nil_of_length_eq_zero htasks, hclosing⟩
  have hsendable : ∀ ms ∈ [clientMessages], ∀ m ∈ ms, Sendable m := by
    rw [List.forall_mem_singleton, clientMessages, List.forall_mem_cons, List.forall_mem_singleton]
    exact ⟨⟨by decide +kernel, by decide +kernel, by decide +kernel⟩,
      ⟨by decide +kernel, by decide +kernel, by decide +kernel⟩⟩
  have hreached : receivingAcceptor.Reached (fun p e => ArrivesAlone p.1 e) (broker 1, []) :=
    .init ⟨⟨_, rfl⟩, rfl⟩
  obtain ⟨hsame, hlength⟩ :=
    processed_sameContent (hreached.exec hguarded hp) hsendable hchunks
  have htwo : (processed 0 p.1.trace).length = 2 := hlength hsettled
  rw [htwo] at hsame
  exact ⟨p, hp, htwo, hsame⟩

end NestQuickfix.Acceptor
