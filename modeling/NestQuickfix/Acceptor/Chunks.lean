import NestQuickfix.Acceptor.Answers
import NestQuickfix.Acceptor.Escapes
import NestQuickfix.Acceptor.Loops
import NestQuickfix.Message.Spelling
import NestQuickfix.Session.FailedSends

/-!
# Whole chunks

Every call of `handleIncomingData` has a loop of its own over the messages of its chunk, and its
tasks are told apart here by the call. A call passes on its messages in order. As long as no
error escapes, which ends the process, it passes on all of them exactly when each has the fields
that encoding requires, since a message is encoded for the log outside of the `try` that keeps
the loop going.
-/

namespace NestQuickfix.Acceptor

open Lib Lib.Exec

/-- A call of `handleIncomingData`: its socket, its data, and what it has passed on so far. -/
structure DataCall where
  socket : ℕ
  data : List UInt8
  passed : List (ℕ × Message)

/-- An acceptor with the calls of `handleIncomingData` in order, and its suspended tasks with the
call that goes on with each. -/
structure Tracked where
  acceptor : AcceptorState
  calls : List DataCall
  tasks : List (Frame × Option ℕ)

/-- The call that begins with an event. -/
def Tracked.begun (x : Tracked) : Event → List DataCall
  | .data c data => if (x.acceptor.sockets c).dataListener then [⟨c, data, []⟩] else []
  | _ => []

/-- The call that begins or goes on with an event. -/
def Tracked.owner (x : Tracked) : Event → Option ℕ
  | .data c _ => if (x.acceptor.sockets c).dataListener then some x.calls.length else none
  | .resume i => x.tasks[i]?.bind Prod.snd
  | _ => none

/-- The tasks that an event leaves suspended. -/
def Tracked.others (x : Tracked) : Event → List (Frame × Option ℕ)
  | .resume i => x.tasks.eraseIdx i
  | _ => x.tasks

/-- What a call has passed on after a step that begins or goes on with `owner`. -/
def DataCall.extend (call : DataCall) (owner : Option ℕ) (g : ℕ) (p : List (ℕ × Message)) :
    DataCall :=
  if owner = some g then { call with passed := call.passed ++ p } else call

/-- A task after a step that begins or goes on with `owner`: only loops belong to the call. -/
def Frame.ownedBy (owner : Option ℕ) (frame : Frame) : Frame × Option ℕ :=
  (frame, if frame.left.isSome then owner else none)

/-- After an event: what is new in the trace and among the tasks belongs to its call. -/
def Tracked.next (x : Tracked) (e : Event) (st : AcceptorState) : Tracked where
  acceptor := st
  calls := (x.calls ++ x.begun e).mapIdx fun g call => call.extend (x.owner e) g
    ((st.trace.drop x.acceptor.trace.length).filterMap Observation.passed)
  tasks := x.others e ++ (st.tasks.drop (x.others e).length).map (Frame.ownedBy (x.owner e))

/-- The acceptor with its calls of `handleIncomingData`. -/
def tracked : System Tracked Step where
  init x := ∃ config, x = ⟨.new config, [], []⟩
  step x e := (x.acceptor.step e).map (x.next e.event)

/-- The process that runs the acceptor: an error that escapes ends it. -/
def process : System (Tracked × Bool) Step :=
  tracked.halting fun x e => x.acceptor.escapes e ≠ []

/-- The messages of a call with a MsgType, with its socket. -/
def DataCall.typed (call : DataCall) : List (ℕ × Message) :=
  ((processData call.data).filter fun m => m.hasField Fields.msgType).map (Prod.mk call.socket)

/-- The condition: the messages of a call with a MsgType have all fields that encoding requires. -/
def DataCall.Loggable (call : DataCall) : Prop :=
  ∀ m ∈ processData call.data, m.hasField Fields.msgType = true →
    ∀ t ∈ Message.requiredFields, m.hasField t = true

instance (call : DataCall) : Decidable call.Loggable :=
  inferInstanceAs (Decidable (∀ m ∈ processData call.data, m.hasField Fields.msgType = true →
    ∀ t ∈ Message.requiredFields, m.hasField t = true))

variable {guard : Tracked → Step → Prop} {x x' : Tracked} {st st' : AcceptorState} {e : Step}
  {g : ℕ} {call : DataCall} {c : ℕ} {ms : List Message}

/-! ## What a loop passes on -/

/-- A received message can be encoded when it has the required fields. -/
theorem exists_toString_of_mem_processData {data : List UInt8} {m : Message}
    (hm : m ∈ processData data) : (∃ raw, m.toString = .ok raw) ↔
      ∀ t ∈ Message.requiredFields, m.hasField t = true := by
  rw [Message.exists_toString_iff]
  refine and_iff_left fun t hhas _ _ => ?_
  obtain ⟨rawMsg, _, hpart⟩ := List.mem_filterMap.mp hm
  obtain ⟨_, rfl⟩ := parsePart_eq_some_iff.mp hpart
  have hstored : ∀ {f : Field} {fs : List Field},
      f ∈ (Message.empty.setFields fs).fields.entries → f ∈ fs := by
    intro f fs hf
    obtain ⟨before, after, rfl, _⟩ := Message.mem_setFields_iff.mp hf
    exact List.mem_append_right before List.mem_cons_self
  obtain ⟨field, _, hread⟩ := List.mem_filterMap.mp (hstored (Message.mem_of_hasField hhas))
  obtain ⟨s, hs, _⟩ := value_of_reading hread
  dsimp only at hs
  rw [hs]
  rfl

theorem passes_cons_of_untyped {m : Message} (h : m.hasField Fields.msgType = false) (c : ℕ)
    (rest : List Message) : passes c (m :: rest) = passes c rest := by
  rw [passes, h]
  rfl

/-- A loop passes on messages in order. -/
theorem passes_prefix (c : ℕ) (ms : List Message) :
    passes c ms <+: (ms.filter fun m => m.hasField Fields.msgType).map (Prod.mk c) := by
  induction ms with
  | nil => exact List.prefix_rfl
  | cons m rest ih =>
    cases htype : m.hasField Fields.msgType with
    | false =>
      rw [passes_cons_of_untyped htype, List.filter_cons_of_neg (by simp [htype])]
      exact ih
    | true =>
      rw [passes, if_pos htype, List.filter_cons_of_pos (by simpa using htype), List.map_cons]
      cases m.toString with
      | error e => exact List.nil_prefix
      | ok raw => exact (List.cons_prefix_cons).mpr ⟨rfl, ih⟩

/-- A loop passes on all messages when all can be encoded. -/
theorem passes_eq_iff (c : ℕ) (ms : List Message) :
    passes c ms = (ms.filter fun m => m.hasField Fields.msgType).map (Prod.mk c) ↔
      ∀ m ∈ ms, m.hasField Fields.msgType = true → ∃ raw, m.toString = .ok raw := by
  induction ms with
  | nil => simp [passes]
  | cons m rest ih =>
    rw [List.forall_mem_cons]
    cases htype : m.hasField Fields.msgType with
    | false =>
      rw [passes_cons_of_untyped htype, List.filter_cons_of_neg (by simp [htype]), ih]
      simp
    | true =>
      rw [passes, if_pos htype, List.filter_cons_of_pos (by simpa using htype), List.map_cons]
      cases hraw : m.toString with
      | error e => simp
      | ok raw =>
        rw [List.cons_inj_right, ih]
        simp

theorem DataCall.passes_eq_typed_iff (call : DataCall) :
    passes call.socket (processData call.data) = call.typed ↔ call.Loggable := by
  rw [DataCall.typed, passes_eq_iff]
  refine forall₃_congr fun m hm _ => exists_toString_of_mem_processData hm

/-! ## Tasks of a call -/

/-- The loop that a task of call `g` goes on with. -/
def loopIn (g : ℕ) (task : Frame × Option ℕ) : Option (ℕ × List Message) :=
  if task.2 = some g then task.1.left else none

/-- The loops of a call among the suspended tasks. -/
def Tracked.loops (x : Tracked) (g : ℕ) : List (ℕ × List Message) := x.tasks.filterMap (loopIn g)

/-- Tasks that are suspended for a call are its loops. -/
theorem filterMap_ownedBy (owner : Option ℕ) (g : ℕ) (frames : List Frame) :
    (frames.map (Frame.ownedBy owner)).filterMap (loopIn g) =
      if owner = some g then frames.filterMap Frame.left else [] := by
  rw [List.filterMap_map]
  have hloop : ∀ frame : Frame, loopIn g (frame.ownedBy owner) =
      if owner = some g then frame.left else none := by
    intro frame
    cases hleft : frame.left <;> simp [loopIn, Frame.ownedBy, hleft]
  split
  · next howner => exact List.filterMap_congr fun frame _ => (hloop frame).trans (if_pos howner)
  · next howner =>
    exact List.filterMap_eq_nil_iff.mpr fun frame _ => (hloop frame).trans (if_neg howner)

/-- Erasing an element that contributes nothing. -/
theorem filterMap_eraseIdx_of_none {α β : Type} {f : α → Option β} {l : List α} {i : ℕ} {a : α}
    (ha : l[i]? = some a) (hf : f a = none) : (l.eraseIdx i).filterMap f = l.filterMap f := by
  obtain ⟨hi, rfl⟩ := List.getElem?_eq_some_iff.mp ha
  conv_rhs => rw [← List.take_append_drop i l, List.drop_eq_getElem_cons hi]
  rw [List.eraseIdx_eq_take_drop_succ, List.filterMap_append, List.filterMap_append,
    List.filterMap_cons_none hf]

/-- Erasing the only element that contributes something. -/
theorem filterMap_eraseIdx_of_some {α β : Type} {f : α → Option β} {l : List α} {i : ℕ} {a : α}
    {b b' : β} (ha : l[i]? = some a) (hf : f a = some b) (hl : l.filterMap f = [b']) :
    b = b' ∧ (l.eraseIdx i).filterMap f = [] := by
  obtain ⟨hi, rfl⟩ := List.getElem?_eq_some_iff.mp ha
  rw [← List.take_append_drop i l, List.drop_eq_getElem_cons hi, List.filterMap_append,
    List.filterMap_cons_some hf] at hl
  obtain ⟨htake, heq⟩ : (l.take i).filterMap f = [] ∧
      b :: (l.drop (i + 1)).filterMap f = [b'] := by
    rcases List.append_eq_singleton_iff.mp hl with h | h
    · exact h
    · cases h.2
  obtain ⟨rfl, hdrop⟩ := List.cons.inj heq
  rw [List.eraseIdx_eq_take_drop_succ, List.filterMap_append, htake, hdrop]
  exact ⟨rfl, rfl⟩

/-! ## Runs -/

/-- The state of a call: its loop has ended, or one task holds the messages that are left. -/
def Tracked.Follows (x : Tracked) (g : ℕ) (call : DataCall) : Prop :=
  x.loops g = [] ∧ call.passed = passes call.socket (processData call.data) ∨
    ∃ rest, x.loops g = [(call.socket, rest)] ∧
      passes call.socket (processData call.data) = call.passed ++ passes call.socket rest

/-- Every loop belongs to a call, and every call follows its loop. -/
structure Tracked.Consistent (x : Tracked) : Prop where
  tasks : x.tasks.map Prod.fst = x.acceptor.tasks
  owned : ∀ task ∈ x.tasks, task.1.left.isSome = true → ∃ g < x.calls.length, task.2 = some g
  unowned : ∀ task ∈ x.tasks, task.1.left = none → task.2 = none
  follows : ∀ g call, x.calls[g]? = some call → x.Follows g call

theorem map_fst_others (h : x.Consistent) (e : Step) :
    (x.others e.event).map Prod.fst = (x.acceptor.taken e).tasks := by
  rcases e with ⟨event, input⟩
  cases event with
  | resume i =>
    rw [Tracked.others, ← List.eraseIdx_map, h.tasks]
    rfl
  | _ => exact h.tasks

/-- The state after a step that has passed on the messages of `p`. -/
theorem next_of_looped {p : List (ℕ × Message)} {loops : List (ℕ × List Message)}
    (h : x.Consistent) (hlooped : Looped (x.acceptor.taken e) p loops st') :
    ∃ frames, frames.filterMap Frame.left = loops ∧
      st'.tasks = (x.acceptor.taken e).tasks ++ frames ∧
      x.next e.event st' = ⟨st',
        (x.calls ++ x.begun e.event).mapIdx fun g call => call.extend (x.owner e.event) g p,
        x.others e.event ++ frames.map (Frame.ownedBy (x.owner e.event))⟩ := by
  obtain ⟨frames, observations, htasks, htrace, hloops, hpassed⟩ := hlooped
  have htrace' : st'.trace = x.acceptor.trace ++ observations := by
    rw [htrace]
    rcases e with ⟨event, input⟩
    cases event <;> rfl
  have hlength : (x.others e.event).length = (x.acceptor.taken e).tasks.length := by
    rw [← map_fst_others h, List.length_map]
  refine ⟨frames, hloops, htasks, ?_⟩
  rw [Tracked.next, htrace', List.drop_left, hpassed, hlength, htasks, List.drop_left]

/-- An event without a loop belongs to no call. -/
theorem owner_of_loopOf_none (h : x.Consistent) {event : Event}
    (hloop : x.acceptor.loopOf event = none) : x.owner event = none ∧ x.begun event = [] ∧
      ∀ g, (x.others event).filterMap (loopIn g) = x.loops g := by
  cases event with
  | data c data =>
    have hlistener : ¬ (x.acceptor.sockets c).dataListener = true := by
      intro hlistener
      rw [AcceptorState.loopOf, if_pos hlistener] at hloop
      cases hloop
    exact ⟨if_neg hlistener, if_neg hlistener, fun _ => rfl⟩
  | resume i =>
    cases htask : x.tasks[i]? with
    | none =>
      refine ⟨by rw [Tracked.owner, htask]; rfl, rfl, fun g => ?_⟩
      rw [Tracked.others, List.eraseIdx_of_length_le (List.getElem?_eq_none_iff.mp htask)]
      rfl
    | some task =>
      have hframe : x.acceptor.tasks[i]? = some task.1 := by
        rw [← h.tasks, List.getElem?_map, htask]
        rfl
      have hleft : task.1.left = none := by
        rw [AcceptorState.loopOf, hframe] at hloop
        exact hloop
      refine ⟨?_, rfl, fun g => filterMap_eraseIdx_of_none htask ?_⟩
      · rw [Tracked.owner, htask]
        exact h.unowned task (List.mem_of_getElem? htask) hleft
      · rw [loopIn, hleft, ite_self]
  | _ => exact ⟨rfl, rfl, fun _ => rfl⟩

/-- The call of a loop before the step that goes on with the loop. -/
structure Tracked.Prepared (x : Tracked) (e : Event) (c : ℕ) (ms : List Message) (g : ℕ)
    (call : DataCall) : Prop where
  owner : x.owner e = some g
  present : (x.calls ++ x.begun e)[g]? = some call
  socket : call.socket = c
  loops : (x.others e).filterMap (loopIn g) = []
  rest : passes call.socket (processData call.data) = call.passed ++ passes c ms
  loops_others : ∀ g' ≠ g, (x.others e).filterMap (loopIn g') = x.loops g'
  calls_others : ∀ g' ≠ g, (x.calls ++ x.begun e)[g']? = x.calls[g']?

/-- The first step of a call. -/
theorem prepared_data (h : x.Consistent) {data : List UInt8}
    (hlistener : (x.acceptor.sockets c).dataListener = true) :
    x.Prepared (.data c data) c (processData data) x.calls.length ⟨c, data, []⟩ where
  owner := if_pos hlistener
  present := by
    rw [Tracked.begun, if_pos hlistener]
    exact List.getElem?_concat_length
  socket := rfl
  loops := by
    refine List.filterMap_eq_nil_iff.mpr fun task htask => ?_
    rw [loopIn]
    split
    · next howner =>
      cases hleft : task.1.left with
      | none => rfl
      | some loop =>
        obtain ⟨g, hg, howner'⟩ := h.owned task htask (by rw [hleft]; rfl)
        rw [howner] at howner'
        obtain rfl := Option.some.inj howner'
        exact absurd hg (Nat.lt_irrefl _)
    · rfl
  rest := rfl
  loops_others := fun _ _ => rfl
  calls_others := by
    intro g hg
    rw [Tracked.begun, if_pos hlistener]
    rcases Nat.lt_or_ge g x.calls.length with hlt | hge
    · exact List.getElem?_append_left hlt
    · rw [List.getElem?_eq_none_iff.mpr hge, List.getElem?_eq_none_iff]
      rw [List.length_append, List.length_singleton]
      omega

/-- A step that goes on with a task of a call. -/
theorem prepared_resume (h : x.Consistent) {i : ℕ} {frame : Frame}
    (hf : x.acceptor.tasks[i]? = some frame) (hleft : frame.left = some (c, ms)) :
    ∃ g call, x.Prepared (.resume i) c ms g call := by
  obtain ⟨task, htask, rfl⟩ : ∃ task, x.tasks[i]? = some task ∧ task.1 = frame := by
    rw [← h.tasks, List.getElem?_map] at hf
    exact Option.map_eq_some_iff.mp hf
  obtain ⟨g, hg, howner⟩ := h.owned task (List.mem_of_getElem? htask) (by rw [hleft]; rfl)
  have hcall : x.calls[g]? = some x.calls[g] := List.getElem?_eq_getElem hg
  have hloopIn : loopIn g task = some (c, ms) := (if_pos howner).trans hleft
  have hne : x.loops g ≠ [] := fun hnil => by
    have hnone := List.filterMap_eq_nil_iff.mp hnil task (List.mem_of_getElem? htask)
    rw [hloopIn] at hnone
    cases hnone
  obtain ⟨hnil, _⟩ | ⟨rest, hloops, hrest⟩ := h.follows g _ hcall
  · exact absurd hnil hne
  · obtain ⟨heq, hothers⟩ := filterMap_eraseIdx_of_some htask hloopIn hloops
    obtain ⟨rfl, rfl⟩ := Prod.mk.inj heq
    have hbegun : x.calls ++ x.begun (.resume i) = x.calls := List.append_nil _
    refine ⟨g, x.calls[g], ?_, ?_, rfl, hothers, hrest, fun g' hg' => ?_, fun g' _ => ?_⟩
    · rw [Tracked.owner, htask]
      exact howner
    · rw [hbegun]
      exact hcall
    · refine filterMap_eraseIdx_of_none htask (if_neg fun howner' => hg' ?_)
      rw [howner] at howner'
      exact (Option.some.inj howner').symm
    · rw [hbegun]

/-- A step with a loop begins a call or goes on with one. -/
theorem exists_prepared (h : x.Consistent) {event : Event}
    (hloop : x.acceptor.loopOf event = some (c, ms)) : ∃ g call, x.Prepared event c ms g call := by
  cases event with
  | data c data =>
    dsimp only [AcceptorState.loopOf] at hloop
    split at hloop
    · next hlistener =>
      cases hloop
      exact ⟨_, _, prepared_data h hlistener⟩
    · cases hloop
  | resume i =>
    obtain ⟨frame, hf, hleft⟩ := Option.bind_eq_some_iff.mp hloop
    exact prepared_resume h hf hleft
  | _ => cases hloop

/-- The tasks of the state after a step. -/
theorem tasks_next {frames : List Frame} {owner : Option ℕ} (h : x.Consistent)
    (htasks : st'.tasks = (x.acceptor.taken e).tasks ++ frames) :
    (x.others e.event ++ frames.map (Frame.ownedBy owner)).map Prod.fst = st'.tasks := by
  have hframes : frames.map (Prod.fst ∘ Frame.ownedBy owner) = frames := List.map_id' frames
  rw [List.map_append, map_fst_others h, List.map_map, hframes, htasks]

theorem mem_others {task : Frame × Option ℕ} {event : Event} (h : task ∈ x.others event) :
    task ∈ x.tasks := by
  cases event with
  | resume i => exact List.mem_of_mem_eraseIdx h
  | _ => exact h

/-- A step without a loop. -/
theorem consistent_of_loopOf_none (h : x.Consistent)
    (hlooped : Looped (x.acceptor.taken e) [] [] st') (hloop : x.acceptor.loopOf e.event = none) :
    (x.next e.event st').Consistent := by
  obtain ⟨frames, hframes, htasks, hnext⟩ := next_of_looped h hlooped
  obtain ⟨howner, hbegun, hothers⟩ := owner_of_loopOf_none h hloop
  have hcalls : x.calls.mapIdx (fun g call => call.extend none g []) = x.calls := by
    refine List.ext_getElem? fun g => ?_
    rw [List.getElem?_mapIdx]
    cases x.calls[g]? <;> rfl
  rw [howner, hbegun, List.append_nil, hcalls] at hnext
  have hnew : ∀ task ∈ frames.map (Frame.ownedBy none), task.1.left = none ∧ task.2 = none := by
    intro task htask
    obtain ⟨frame, hframe, rfl⟩ := List.mem_map.mp htask
    exact ⟨List.filterMap_eq_nil_iff.mp hframes frame hframe, ite_self _⟩
  rw [hnext]
  refine ⟨tasks_next h htasks, fun task htask hleft => ?_, fun task htask hleft => ?_,
    fun g call hcall => ?_⟩
  · rcases List.mem_append.mp htask with hold | hnew'
    · exact h.owned task (mem_others hold) hleft
    · rw [(hnew task hnew').1] at hleft
      cases hleft
  · rcases List.mem_append.mp htask with hold | hnew'
    · exact h.unowned task (mem_others hold) hleft
    · exact (hnew task hnew').2
  · have hloops : Tracked.loops ⟨st', x.calls, x.others e.event ++
        frames.map (Frame.ownedBy none)⟩ g = x.loops g := by
      rw [Tracked.loops, List.filterMap_append, hothers, filterMap_ownedBy, if_neg (by simp),
        List.append_nil]
    unfold Tracked.Follows
    rw [hloops]
    exact h.follows g call hcall

/-- A step with a loop. -/
theorem consistent_of_continued (h : x.Consistent) (hprepared : x.Prepared e.event c ms g call)
    (hcontinued : Continued c ms (x.acceptor.taken e) st') : (x.next e.event st').Consistent := by
  obtain ⟨p, loops, hlooped, hloops⟩ : ∃ p loops, Looped (x.acceptor.taken e) p loops st' ∧
      (loops = [] ∧ passes c ms = p ∨
        ∃ rest, loops = [(c, rest)] ∧ passes c ms = p ++ passes c rest) := by
    rcases hcontinued with hended | ⟨p, rest, hleft, hpasses⟩
    · exact ⟨_, _, hended, Or.inl ⟨rfl, rfl⟩⟩
    · exact ⟨p, _, hleft, Or.inr ⟨rest, rfl, hpasses⟩⟩
  obtain ⟨frames, hframes, htasks, hnext⟩ := next_of_looped h hlooped
  rw [hprepared.owner] at hnext
  obtain rfl := hprepared.socket
  have hlength : (x.calls ++ x.begun e.event).length ≥ x.calls.length := by
    rw [List.length_append]
    exact Nat.le_add_right _ _
  have hg := (List.getElem?_eq_some_iff.mp hprepared.present).1
  rw [hnext]
  refine ⟨tasks_next h htasks, fun task htask hleft => ?_, fun task htask hleft => ?_,
    fun g' call' hcall' => ?_⟩
  · dsimp only
    rw [List.length_mapIdx]
    rcases List.mem_append.mp htask with hold | hnew
    · obtain ⟨g', hg', howner⟩ := h.owned task (mem_others hold) hleft
      exact ⟨g', Nat.lt_of_lt_of_le hg' hlength, howner⟩
    · obtain ⟨frame, _, rfl⟩ := List.mem_map.mp hnew
      exact ⟨g, hg, if_pos hleft⟩
  · rcases List.mem_append.mp htask with hold | hnew
    · exact h.unowned task (mem_others hold) hleft
    · obtain ⟨frame, _, rfl⟩ := List.mem_map.mp hnew
      have hleft' : frame.left = none := hleft
      rw [Frame.ownedBy, hleft']
      rfl
  · dsimp only at hcall'
    rw [List.getElem?_mapIdx] at hcall'
    unfold Tracked.Follows Tracked.loops
    dsimp only
    rw [List.filterMap_append, filterMap_ownedBy, hframes]
    by_cases hsame : g' = g
    · subst hsame
      rw [hprepared.present, Option.map_some, DataCall.extend, if_pos rfl] at hcall'
      obtain rfl := Option.some.inj hcall'
      dsimp only
      rw [hprepared.loops, if_pos rfl, List.nil_append, hprepared.rest]
      rcases hloops with ⟨hnil, hpasses⟩ | ⟨rest, hrest, hpasses⟩
      · exact Or.inl ⟨hnil, by rw [hpasses]⟩
      · exact Or.inr ⟨rest, hrest, by rw [hpasses, List.append_assoc]⟩
    · have hne : some g ≠ some g' := fun heq => hsame (Option.some.inj heq).symm
      rw [hprepared.calls_others g' hsame] at hcall'
      obtain ⟨call0, hcall0, rfl⟩ := Option.map_eq_some_iff.mp hcall'
      rw [hprepared.loops_others g' hsame, if_neg hne, List.append_nil, DataCall.extend, if_neg hne]
      exact h.follows g' call0 hcall0

/-- Every step of the acceptor is tracked. -/
theorem step_tracked (x : Tracked) (e : Step) :
    (tracked.step x e).map Tracked.acceptor = acceptor.step x.acceptor e := by
  unfold tracked acceptor
  dsimp only
  cases x.acceptor.step e <;> rfl

/-- In every run, every call follows its loop. -/
theorem consistent_of_reached (h : tracked.Reached guard x) : x.Consistent := by
  induction h with
  | init hinit =>
    obtain ⟨config, rfl⟩ := hinit
    refine ⟨rfl, fun _ h => ?_, fun _ h => ?_, fun _ _ h => ?_⟩ <;> cases h
  | @step x x' e _ _ hstep ih =>
    obtain ⟨st', hst', rfl⟩ := Option.map_eq_some_iff.mp hstep
    cases hloop : x.acceptor.loopOf e.event with
    | none => exact consistent_of_loopOf_none ih (looped_step hst' hloop) hloop
    | some loop =>
      obtain ⟨c, ms⟩ := loop
      obtain ⟨g, call, hprepared⟩ := exists_prepared ih hloop
      exact consistent_of_continued ih hprepared (continued_step hst' hloop)

/-- In every run a call passes on its messages with a MsgType in order, and when no task of the
call is left, it has passed on all of them exactly when they have the fields that encoding
requires. -/
theorem passed_of_reached (h : tracked.Reached guard x) (hcall : x.calls[g]? = some call) :
    call.passed <+: call.typed ∧
      (some g ∉ x.tasks.map Prod.snd → (call.passed = call.typed ↔ call.Loggable)) := by
  have hprefix : passes call.socket (processData call.data) <+: call.typed := passes_prefix _ _
  have hfollows := (consistent_of_reached h).follows g call hcall
  constructor
  · rcases hfollows with ⟨_, hpassed⟩ | ⟨rest, _, hpasses⟩
    · rw [hpassed]
      exact hprefix
    · rw [hpasses] at hprefix
      exact (List.prefix_append _ _).trans hprefix
  · intro hended
    obtain ⟨_, hpassed⟩ | ⟨rest, hloops, _⟩ := hfollows
    · rw [hpassed, call.passes_eq_typed_iff]
    · have hmem : (call.socket, rest) ∈ x.loops g := by rw [hloops]; exact List.mem_cons_self
      obtain ⟨⟨frame, owner⟩, htask, hloop⟩ := List.mem_filterMap.mp hmem
      rw [loopIn] at hloop
      split at hloop
      · next howner =>
        exact absurd (List.mem_map.mpr ⟨_, htask, howner⟩) hended
      · cases hloop

/-- In every run in which no step lets an error escape, the process goes on, a call passes on its
messages with a MsgType in order, and when no task of the call is left, it has passed on all of
them exactly when they have the fields that encoding requires. -/
theorem passed_eq_typed_iff {config : AcceptorConfig} {es : List Step}
    (hescapes : acceptor.Guarded (fun st e => st.escapes e = []) (.new config) es)
    (hexec : acceptor.exec (.new config) es = some st) :
    ∃ x, process.exec (⟨.new config, [], []⟩, false) es = some (x, false) ∧ x.acceptor = st ∧
      ∀ g call, x.calls[g]? = some call → call.passed <+: call.typed ∧
        (some g ∉ x.tasks.map Prod.snd → (call.passed = call.typed ↔ call.Loggable)) := by
  have hruns : (tracked.exec ⟨.new config, [], []⟩ es).map Tracked.acceptor = some st :=
    (System.exec_map step_tracked _ es).trans hexec
  obtain ⟨x, hx, rfl⟩ := Option.map_eq_some_iff.mp hruns
  have hguarded := System.guarded_map step_tracked (t := ⟨.new config, [], []⟩) hescapes
  have hgoes : tracked.Guarded (fun x e => ¬ x.acceptor.escapes e ≠ [])
      ⟨.new config, [], []⟩ es := System.guarded_mono (fun _ _ => not_not.mpr) hguarded
  have hreached : tracked.Reached (fun _ _ => True) x := .of_exec ⟨config, rfl⟩ hx
  exact ⟨x, System.exec_halting hgoes hx, rfl, fun g call => passed_of_reached hreached⟩

/-- A client sends a Logon and a Heartbeat in one chunk. -/
def batchSteps : List Step :=
  (Event.connect (js "client:1") :: .data 0 (logonBytes (js "CLIENT") ++
    clientBytes (js "0") (js "CLIENT") []) :: List.replicate 7 (.resume 0)).map Event.calmly

/-- Both messages are passed on. -/
theorem passed_eq_typed_batch : ∃ x,
    process.exec (⟨broker 1, [], []⟩, false) batchSteps = some (x, false) ∧
      ∃ call ∈ x.calls[0]?, call.typed.length = 2 ∧ call.passed = call.typed := by
  have hrun : ∃ p ∈ process.exec (⟨broker 1, [], []⟩, false) batchSteps,
      ∃ call ∈ p.1.calls[0]?, call.typed.length = 2 ∧ some 0 ∉ p.1.tasks.map Prod.snd ∧
        call.Loggable := by decide +kernel
  obtain ⟨st, hst⟩ : ∃ st, acceptor.exec (broker 1) batchSteps = some st :=
    Option.isSome_iff_exists.mp (by decide +kernel)
  obtain ⟨x, hx, -, hpassed⟩ := passed_eq_typed_iff (by decide +kernel) hst
  obtain ⟨p, hp, call, hcall, hlength, hended, hloggable⟩ := hrun
  obtain rfl := Option.some.inj (hx.symm.trans hp)
  exact ⟨x, hx, call, hcall, hlength, ((hpassed 0 call hcall).2 hended).mpr hloggable⟩

/-- A client sends a Heartbeat without SenderCompID, and a whole one behind it. -/
def brokenBatchSteps : List Step :=
  [Event.connect (js "client:1"), .data 0 (toUtf8 (js "8=FIX.4.4\x0135=0\x01") ++
    clientBytes (js "0") (js "CLIENT") [])].map Event.calmly

/-- A client that has logged on sends a Logout, and whole messages behind it. -/
def leavingBatchSteps : List Step :=
  (Event.connect (js "client:1")).calmly :: logonSteps 0 (js "CLIENT") ++
    (Event.data 0 (clientBytes (js "5") (js "CLIENT") [] ++ clientBytes (js "0") (js "CLIENT") [] ++
      clientBytes (js "B") (js "CLIENT") []) :: List.replicate 2 (.resume 0)).map Event.calmly

/-- Behind the first message the loop ends, and the second one, which has all required fields, is
passed on to no one. Behind a Logout the refusal of the second message ends the process, and the
third one is passed on to no one, though all of them have the required fields. -/
theorem not_passed_brokenBatch :
    (∃ p ∈ process.exec (⟨broker 1, [], []⟩, false) brokenBatchSteps,
      ∃ call ∈ p.1.calls[0]?, some 0 ∉ p.1.tasks.map Prod.snd ∧
        (∃ m ∈ (call.typed[1]?).map Prod.snd,
          ∀ t ∈ Message.requiredFields, m.hasField t = true) ∧
        call.typed.length = 2 ∧ call.passed = []) ∧
    ∃ p ∈ process.exec (⟨broker 1, [], []⟩, false) leavingBatchSteps,
      p.2 = true ∧ ∃ call ∈ p.1.calls[1]?, call.Loggable ∧ call.typed.length = 3 ∧
        call.passed = call.typed.take 2 := by
  constructor
  · decide +kernel
  · decide +kernel

end NestQuickfix.Acceptor
