import NestQuickfix.Acceptor.Acts
import NestQuickfix.Acceptor.MessageHandler

/-!
# Registering the decorated methods

`FixMetadataExplorer` goes through the instances of the application and collects their decorated
methods, each bound to its instance by a new function. A session adds these functions to its
handler sets. The sets cannot see that two functions have been made of the same method, so an
instance that is listed twice is called twice.
-/

namespace NestQuickfix.Service

open Lib Lib.Exec Acceptor

/-! ## The application -/

/-! The keys of the metadata. -/

namespace FixMetadataKey

def logon : JSString := js "fix:logon"
def logout : JSString := js "fix:logout"
def message : JSString := js "fix:message"
def connected : JSString := js "fix:connected"
def disconnected : JSString := js "fix:disconnected"
def messageType : JSString := js "fix:message:type"

end FixMetadataKey

/-- The application with its instances, of type `ι`, and its functions, of type `φ`. -/
structure Application (ι φ : Type) where
  /-- What `getAllMethodNames` lists for the prototype of an instance. -/
  methodNames : ι → List JSString
  /-- No name is listed twice. -/
  nodup : ∀ x, (methodNames x).Nodup
  /-- The function `instance[method]`, or what reading its `bind` and calling it throws. -/
  member : ι → JSString → Except JSError φ
  /-- `Reflect.getMetadata(key, function)`. -/
  metadata : JSString → φ → Value

/-- A method with its instance. -/
structure BoundMethod (ι : Type) where
  target : ι
  method : JSString
  deriving DecidableEq

/-- Code of the explorer. A function that it has made of a method is known by the place of the
method in the state. -/
abbrev ExploreM (ι : Type) := Exec JSError (List (BoundMethod ι))

/-! ## Exploring -/

section Exploring

variable {ι φ : Type}

/-- `instance[method].bind(instance)` makes a new function. -/
def bindMethod (x : ι) (method : JSString) : ExploreM ι ℕ := do
  let bound ← get
  set (bound ++ [BoundMethod.mk x method])
  pure bound.length

/-- What the metadata of a function make of its bound version. -/
def Application.fixMetadata (app : Application ι φ) (f : φ) (handler : ℕ) : FixMetadata where
  onLogon := if (app.metadata FixMetadataKey.logon f).truthy then some handler else none
  onLogout := if (app.metadata FixMetadataKey.logout f).truthy then some handler else none
  onConnected := if (app.metadata FixMetadataKey.connected f).truthy then some handler else none
  onDisconnected :=
    if (app.metadata FixMetadataKey.disconnected f).truthy then some handler else none
  onMessage :=
    if (app.metadata FixMetadataKey.message f).truthy then
      some ⟨handler, app.metadata FixMetadataKey.messageType f⟩
    else none

/-- `extractMethodMetadata`. -/
def Application.extractMethodMetadata (app : Application ι φ) (x : ι) (method : JSString) :
    ExploreM ι FixMetadata :=
  match app.member x method with
  | .error e => throw e
  | .ok f => do
    let handler ← bindMethod x method
    pure (app.fixMetadata f handler)

/-- `Object.keys(meta)`. -/
def fixMetadataKeys (entry : FixMetadata) : List JSString :=
  (entry.onLogon.map fun _ => js "onLogon").toList ++
    (entry.onLogout.map fun _ => js "onLogout").toList ++
    (entry.onConnected.map fun _ => js "onConnected").toList ++
    (entry.onDisconnected.map fun _ => js "onDisconnected").toList ++
    (entry.onMessage.map fun _ => js "onMessage").toList

/-- The metadata of the methods of an instance. -/
def Application.extractMethods (app : Application ι φ) (x : ι) :
    List JSString → ExploreM ι (List FixMetadata)
  | [] => pure []
  | method :: methods => do
    let entry ← app.extractMethodMetadata x method
    let metadata ← app.extractMethods x methods
    pure (if 0 < (fixMetadataKeys entry).length then entry :: metadata else metadata)

/-- `extractMetadataFromInstances`. -/
def Application.extractMetadataFromInstances (app : Application ι φ) :
    List ι → ExploreM ι (List FixMetadata)
  | [] => pure []
  | x :: instances => do
    let metadata ← app.extractMethods x (app.methodNames x)
    let rest ← app.extractMetadataFromInstances instances
    pure (metadata ++ rest)

/-- `getAllInstances`, from the instances of the wrappers, which may be missing. -/
def getAllInstances (providers controllers : List (Option ι)) : List ι :=
  (providers ++ controllers).reduceOption

/-- `explore`. -/
def Application.explore (app : Application ι φ) (providers controllers : List (Option ι)) :
    ExploreM ι (List FixMetadata) :=
  app.extractMetadataFromInstances (getAllInstances providers controllers)

end Exploring

/-! ## Calling the handlers of a session -/

/-- What a session calls handlers for: one of its four sets, or a message of a type. -/
inductive Trigger where
  | kind (kind : HandlerKind)
  | message (msgType : Value)

/-- Session code with the handlers it has called, which return. -/
abbrev CallsM := Exec JSError (List ℕ)

def callHandler (handler : ℕ) : CallsM Unit := modify fun calls => calls ++ [handler]

/-- The loop over the handlers. -/
def notifyHandlers (handlers : Handlers) : Trigger → CallsM Unit
  | .kind kind => Exec.forEach (handlers.simple kind) callHandler
  | .message msgType => Exec.forEach handlers.message fun h =>
    if !h.msgType.truthy || h.msgType = msgType then callHandler h.handler else pure ()

/-- The calls of one loop. -/
def handlerCalls (handlers : Handlers) (trigger : Trigger) : List ℕ :=
  (notifyHandlers handlers trigger).after []

/-! ## What is to be registered -/

/-- The key of the metadata for a handler set. -/
def kindKey : HandlerKind → JSString
  | .logon => FixMetadataKey.logon
  | .logout => FixMetadataKey.logout
  | .connected => FixMetadataKey.connected
  | .disconnected => FixMetadataKey.disconnected

section Decorations

variable {ι φ : Type}

/-- Whether a function is decorated for a trigger. -/
def Application.answers (app : Application ι φ) (f : φ) : Trigger → Bool
  | .kind kind => (app.metadata (kindKey kind) f).truthy
  | .message msgType => (app.metadata FixMetadataKey.message f).truthy &&
    (!(app.metadata FixMetadataKey.messageType f).truthy ||
      decide (app.metadata FixMetadataKey.messageType f = msgType))

/-- Whether a function is decorated. -/
def Application.decorates (app : Application ι φ) (f : φ) : Bool :=
  (app.metadata FixMetadataKey.logon f).truthy || (app.metadata FixMetadataKey.logout f).truthy ||
    (app.metadata FixMetadataKey.connected f).truthy ||
    (app.metadata FixMetadataKey.disconnected f).truthy ||
    (app.metadata FixMetadataKey.message f).truthy

/-- Whether the function of a method has a property. -/
def Application.holdsOf (app : Application ι φ) (p : φ → Bool) (q : BoundMethod ι) : Bool :=
  match app.member q.target q.method with
  | .error _ => false
  | .ok f => p f

/-- A method of one of the instances. -/
def Application.IsMethod (app : Application ι φ) (instances : List ι) (q : BoundMethod ι) : Prop :=
  q.target ∈ instances ∧ q.method ∈ app.methodNames q.target

variable [DecidableEq ι]

instance (app : Application ι φ) (instances : List ι) (q : BoundMethod ι) :
    Decidable (app.IsMethod instances q) :=
  inferInstanceAs (Decidable (_ ∧ _))

/-- The handlers of an entry. -/
def entryHandlers (entry : FixMetadata) : List ℕ :=
  entry.onLogon.toList ++ entry.onLogout.toList ++ entry.onConnected.toList ++
    entry.onDisconnected.toList ++ (entry.onMessage.map MessageHandler.handler).toList

/-- Whether an entry is one of a method: it has handlers, all of which have been made of it. -/
def isEntryOf (bound : List (BoundMethod ι)) (q : BoundMethod ι) (entry : FixMetadata) : Bool :=
  entryHandlers entry ≠ [] && (entryHandlers entry).all fun h => bound[h]? = some q

/-- Every decorated method has one entry, and a new session calls it once for each trigger that
it is decorated for. -/
structure RegisteredOnce (app : Application ι φ) (instances : List ι)
    (metadata : List FixMetadata) (bound : List (BoundMethod ι)) : Prop where
  entries : ∀ q, metadata.countP (isEntryOf bound q) =
    if app.IsMethod instances q ∧ app.holdsOf app.decorates q then 1 else 0
  noOthers : ∀ entry ∈ metadata, ∃ q, isEntryOf bound q entry = true
  calls : ∀ (st : AcceptorState) s, st.config.metadata = metadata →
    (st.sessions s).handlers = ⟨fun _ => [], []⟩ → ∀ trigger q,
      (handlerCalls (((setupSessionHandlers s).after st).sessions s).handlers trigger).countP
        (fun h => bound[h]? = some q) =
      if app.IsMethod instances q ∧ app.holdsOf (app.answers · trigger) q then 1 else 0

end Decorations

/-! ## What the explorer finds -/

section Explored

variable {ι φ : Type} {app : Application ι φ}

/-- The methods of instances in the order of the explorer. -/
def Application.scanned (app : Application ι φ) (instances : List ι) : List (BoundMethod ι) :=
  instances.flatMap fun x => (app.methodNames x).map (BoundMethod.mk x)

/-- The entry of a method whose bound version has a number. -/
def Application.entry (app : Application ι φ) (q : BoundMethod ι) (handler : ℕ) :
    Option FixMetadata :=
  match app.member q.target q.method with
  | .error _ => none
  | .ok f => if app.decorates f then some (app.fixMetadata f handler) else none

/-- The entries of methods whose bound versions are numbered from a number on. -/
def Application.entries (app : Application ι φ) (methods : List (BoundMethod ι)) (start : ℕ) :
    List FixMetadata :=
  (methods.zipIdx start).filterMap fun x => app.entry x.1 x.2

theorem entries_cons (app : Application ι φ) (q : BoundMethod ι) (methods : List (BoundMethod ι))
    (start : ℕ) : app.entries (q :: methods) start =
      (app.entry q start).toList ++ app.entries methods (start + 1) := by
  unfold Application.entries
  rw [List.zipIdx_cons, List.filterMap_cons]
  cases app.entry q start <;> rfl

theorem entries_append (app : Application ι φ) (methods later : List (BoundMethod ι))
    (start : ℕ) : app.entries (methods ++ later) start =
      app.entries methods start ++ app.entries later (start + methods.length) := by
  unfold Application.entries
  rw [List.zipIdx_append, List.filterMap_append, Nat.add_comm]

theorem keys_pos_iff (app : Application ι φ) (f : φ) (handler : ℕ) :
    0 < (fixMetadataKeys (app.fixMetadata f handler)).length ↔ app.decorates f = true := by
  unfold fixMetadataKeys Application.fixMetadata Application.decorates
  dsimp only
  cases (app.metadata FixMetadataKey.logon f).truthy <;>
  cases (app.metadata FixMetadataKey.logout f).truthy <;>
  cases (app.metadata FixMetadataKey.connected f).truthy <;>
  cases (app.metadata FixMetadataKey.disconnected f).truthy <;>
  cases (app.metadata FixMetadataKey.message f).truthy <;> simp

theorem entry_of_ok {q : BoundMethod ι} {f : φ} (hf : app.member q.target q.method = .ok f)
    (handler : ℕ) : app.entry q handler =
      if app.decorates f then some (app.fixMetadata f handler) else none := by
  unfold Application.entry
  rw [hf]

/-- An entry comes of a decorated function. -/
theorem exists_of_entry_eq_some {q : BoundMethod ι} {handler : ℕ} {entry : FixMetadata}
    (h : app.entry q handler = some entry) :
    ∃ f, app.decorates f = true ∧ entry = app.fixMetadata f handler := by
  unfold Application.entry at h
  split at h
  · cases h
  · next f _ =>
    split at h
    · next hdecorates => exact ⟨f, hdecorates, (Option.some.inj h).symm⟩
    · cases h

theorem result_extract_of_ok {x : ι} {method : JSString} {f : φ}
    (hf : app.member x method = .ok f) (bound : List (BoundMethod ι)) :
    (app.extractMethodMetadata x method).result bound =
      (.ok (app.fixMetadata f bound.length), bound ++ [⟨x, method⟩]) := by
  unfold Application.extractMethodMetadata
  rw [hf]
  rfl

theorem result_extract_of_error {x : ι} {method : JSString} {e : JSError}
    (he : app.member x method = .error e) (bound : List (BoundMethod ι)) :
    (app.extractMethodMetadata x method).result bound = (.error e, bound) := by
  unfold Application.extractMethodMetadata
  rw [he]
  rfl

/-- The methods of one instance that can all be bound. -/
theorem result_extractMethods (x : ι) {methods : List JSString}
    (hcallable : ∀ method ∈ methods, ∃ f, app.member x method = .ok f)
    (bound : List (BoundMethod ι)) : (app.extractMethods x methods).result bound =
      (.ok (app.entries (methods.map (BoundMethod.mk x)) bound.length),
        bound ++ methods.map (BoundMethod.mk x)) := by
  induction methods generalizing bound with
  | nil => simp [Application.extractMethods, Application.entries]
  | cons method methods ih =>
    obtain ⟨f, hf⟩ := hcallable method List.mem_cons_self
    have hrest := ih (fun m hm => hcallable m (List.mem_cons_of_mem method hm))
      (bound ++ [⟨x, method⟩])
    have hentry : app.entry ⟨x, method⟩ bound.length = _ := entry_of_ok hf bound.length
    unfold Application.extractMethods
    rw [result_bind, result_extract_of_ok hf]
    dsimp only
    rw [result_bind, hrest]
    dsimp only
    rw [List.map_cons, entries_cons, hentry, result_pure, List.length_append, List.append_assoc,
      if_congr (keys_pos_iff app f bound.length) rfl rfl]
    split <;> rfl

/-- Exploring an instance throws if one of its methods cannot be bound. -/
theorem callable_of_extractMethods {x : ι} {methods : List JSString}
    {bound bound' : List (BoundMethod ι)} {metadata : List FixMetadata}
    (h : (app.extractMethods x methods).result bound = (.ok metadata, bound')) :
    ∀ method ∈ methods, ∃ f, app.member x method = .ok f := by
  induction methods generalizing bound bound' metadata with
  | nil => exact fun _ hm => absurd hm List.not_mem_nil
  | cons method methods ih =>
    unfold Application.extractMethods at h
    rw [result_bind] at h
    cases hf : app.member x method with
    | error e =>
      rw [result_extract_of_error hf] at h
      cases (Prod.mk.inj h).1
    | ok f =>
      rw [result_extract_of_ok hf] at h
      dsimp only at h
      rw [result_bind] at h
      rcases hrest : (app.extractMethods x methods).result (bound ++ [⟨x, method⟩]) with
        ⟨e | rest, bound1⟩
      · rw [hrest] at h
        cases (Prod.mk.inj h).1
      · intro m hm
        rcases List.mem_cons.mp hm with rfl | hm
        · exact ⟨f, hf⟩
        · exact ih hrest m hm

/-- All methods of the instances can be bound. -/
def Application.Callable (app : Application ι φ) (instances : List ι) : Prop :=
  ∀ x ∈ instances, ∀ method ∈ app.methodNames x, ∃ f, app.member x method = .ok f

theorem result_extractMetadataFromInstances {instances : List ι} (h : app.Callable instances)
    (bound : List (BoundMethod ι)) : (app.extractMetadataFromInstances instances).result bound =
      (.ok (app.entries (app.scanned instances) bound.length), bound ++ app.scanned instances) := by
  induction instances generalizing bound with
  | nil => simp [Application.extractMetadataFromInstances, Application.entries, Application.scanned]
  | cons x instances ih =>
    have hscanned : app.scanned (x :: instances) =
        (app.methodNames x).map (BoundMethod.mk x) ++ app.scanned instances := List.flatMap_cons
    have hrest := ih (fun y hy => h y (List.mem_cons_of_mem x hy))
      (bound ++ (app.methodNames x).map (BoundMethod.mk x))
    unfold Application.extractMetadataFromInstances
    rw [result_bind, result_extractMethods x (h x List.mem_cons_self)]
    dsimp only
    rw [result_bind, hrest]
    dsimp only
    rw [hscanned, entries_append, result_pure, List.length_append, List.append_assoc]

theorem callable_of_extractMetadata {instances : List ι} {bound bound' : List (BoundMethod ι)}
    {metadata : List FixMetadata}
    (h : (app.extractMetadataFromInstances instances).result bound = (.ok metadata, bound')) :
    app.Callable instances := by
  induction instances generalizing bound bound' metadata with
  | nil => exact fun _ hx => absurd hx List.not_mem_nil
  | cons x instances ih =>
    unfold Application.extractMetadataFromInstances at h
    rw [result_bind] at h
    rcases hfirst : (app.extractMethods x (app.methodNames x)).result bound with
      ⟨e | first, bound1⟩
    · rw [hfirst] at h
      cases (Prod.mk.inj h).1
    · rw [hfirst] at h
      dsimp only at h
      rw [result_bind] at h
      rcases hrest : (app.extractMetadataFromInstances instances).result bound1 with
        ⟨e | rest, bound2⟩
      · rw [hrest] at h
        cases (Prod.mk.inj h).1
      · intro y hy
        rcases List.mem_cons.mp hy with rfl | hy
        · exact callable_of_extractMethods hfirst
        · exact ih hrest y hy

/-! ### The handlers of an entry -/

/-- The handler of an entry for a trigger. -/
def handlerFor (entry : FixMetadata) : Trigger → Option ℕ
  | .kind .logon => entry.onLogon
  | .kind .logout => entry.onLogout
  | .kind .connected => entry.onConnected
  | .kind .disconnected => entry.onDisconnected
  | .message msgType => entry.onMessage.bind fun h =>
    if !h.msgType.truthy || h.msgType = msgType then some h.handler else none

theorem handlerFor_fixMetadata (app : Application ι φ) (f : φ) (handler : ℕ) (trigger : Trigger) :
    handlerFor (app.fixMetadata f handler) trigger =
      if app.answers f trigger then some handler else none := by
  cases trigger with
  | kind kind => cases kind <;> rfl
  | message msgType =>
    unfold handlerFor Application.fixMetadata Application.answers
    dsimp only
    cases (app.metadata FixMetadataKey.message f).truthy with
    | false => rfl
    | true => simp

theorem decorates_of_answers {f : φ} {trigger : Trigger} (h : app.answers f trigger = true) :
    app.decorates f = true := by
  unfold Application.decorates
  cases trigger with
  | kind kind =>
    cases kind <;> (unfold Application.answers kindKey at h; simp [h])
  | message msgType =>
    unfold Application.answers at h
    simp [(Bool.and_eq_true_iff.mp h).1]

/-- All handlers of an entry are the same function. -/
theorem mem_entryHandlers {f : φ} {handler h : ℕ} :
    h ∈ entryHandlers (app.fixMetadata f handler) ↔ h = handler ∧ app.decorates f = true := by
  have hsimple (b : Bool) : h ∈ (if b then some handler else none).toList ↔
      h = handler ∧ b = true := by cases b <;> simp
  have hmessage (b : Bool) (type : Value) :
      h ∈ ((if b then some (MessageHandler.mk handler type) else none).map
        MessageHandler.handler).toList ↔ h = handler ∧ b = true := by cases b <;> simp
  unfold entryHandlers Application.fixMetadata Application.decorates
  simp only [List.mem_append, hsimple, hmessage, Bool.or_eq_true, and_or_left]

section Counting

variable [DecidableEq ι] {methods : List (BoundMethod ι)} {q : BoundMethod ι}

/-- Counting the elements of a list with their places. -/
theorem countP_zipIdx {α : Type} [DecidableEq α] (l : List α) (p : α → Bool) (a : α) :
    l.zipIdx.countP (fun x => p x.1 && decide (l[x.2]? = some a)) =
      if p a then l.count a else 0 := by
  have hplace : ∀ x ∈ l.zipIdx, (p x.1 && decide (l[x.2]? = some a)) = true ↔
      ((fun b => p b && decide (b = a)) ∘ Prod.fst) x = true := by
    intro x hx
    rw [List.mem_zipIdx_iff_getElem?.mp hx]
    simp
  rw [List.countP_congr hplace, ← List.countP_map, List.zipIdx_map_fst]
  by_cases ha : p a = true
  · rw [if_pos ha, List.count_eq_countP]
    refine List.countP_congr fun b _ => ?_
    by_cases hb : b = a
    · simp [hb, ha]
    · simp [hb]
  · rw [if_neg ha]
    refine List.countP_eq_zero.mpr fun b _ hb => ha ?_
    obtain ⟨hpb, hba⟩ := Bool.and_eq_true_iff.mp hb
    exact of_decide_eq_true hba ▸ hpb

theorem isEntryOf_fixMetadata (f : φ) (handler : ℕ) :
    isEntryOf methods q (app.fixMetadata f handler) =
      (app.decorates f && decide (methods[handler]? = some q)) := by
  unfold isEntryOf
  rw [Bool.eq_iff_iff, Bool.and_eq_true, Bool.and_eq_true, decide_eq_true_iff, decide_eq_true_iff,
    List.all_eq_true]
  constructor
  · rintro ⟨hne, hall⟩
    obtain ⟨h, hmem⟩ := List.exists_mem_of_ne_nil _ hne
    obtain ⟨rfl, hdecorates⟩ := mem_entryHandlers.mp hmem
    exact ⟨hdecorates, of_decide_eq_true (hall h hmem)⟩
  · rintro ⟨hdecorates, hplace⟩
    refine ⟨List.ne_nil_of_mem (mem_entryHandlers.mpr ⟨rfl, hdecorates⟩), fun h hmem => ?_⟩
    obtain ⟨rfl, -⟩ := mem_entryHandlers.mp hmem
    exact decide_eq_true hplace

/-- How many entries there are of a method. -/
theorem countP_entries (app : Application ι φ) (methods : List (BoundMethod ι))
    (q : BoundMethod ι) : (app.entries methods 0).countP (isEntryOf methods q) =
      if app.holdsOf app.decorates q then methods.count q else 0 := by
  unfold Application.entries
  rw [List.countP_filterMap, ← countP_zipIdx]
  refine List.countP_congr fun x _ => ?_
  unfold Application.entry Application.holdsOf
  cases app.member x.1.target x.1.method with
  | error e => simp
  | ok f =>
    dsimp only
    cases hf : app.decorates f with
    | false => simp
    | true => simp [isEntryOf_fixMetadata, hf]

/-- How often a method is called by the handlers of the entries. -/
theorem countP_handlers (app : Application ι φ) (methods : List (BoundMethod ι))
    (q : BoundMethod ι) (trigger : Trigger) :
    ((app.entries methods 0).filterMap (handlerFor · trigger)).countP
        (fun h => decide (methods[h]? = some q)) =
      if app.holdsOf (app.answers · trigger) q then methods.count q else 0 := by
  unfold Application.entries
  rw [List.countP_filterMap, List.countP_filterMap, ← countP_zipIdx]
  refine List.countP_congr fun x _ => ?_
  unfold Application.entry Application.holdsOf
  cases app.member x.1.target x.1.method with
  | error e => simp
  | ok f =>
    dsimp only
    cases hf : app.answers f trigger with
    | false =>
      split <;> simp [handlerFor_fixMetadata, hf]
    | true =>
      rw [if_pos (decorates_of_answers hf)]
      simp [handlerFor_fixMetadata, hf]

/-- The explorer comes to a method as often as its instance is listed. -/
theorem count_scanned (app : Application ι φ) (instances : List ι) (q : BoundMethod ι) :
    (app.scanned instances).count q =
      if q.method ∈ app.methodNames q.target then instances.count q.target else 0 := by
  induction instances with
  | nil => simp [Application.scanned]
  | cons x instances ih =>
    have hscanned : app.scanned (x :: instances) =
        (app.methodNames x).map (BoundMethod.mk x) ++ app.scanned instances := List.flatMap_cons
    have hfirst : ((app.methodNames x).map (BoundMethod.mk x)).count q =
        if x = q.target ∧ q.method ∈ app.methodNames q.target then 1 else 0 := by
      rcases q with ⟨y, method⟩
      by_cases hx : x = y
      · subst hx
        rw [List.count_map_of_injective _ _ fun _ _ h => (BoundMethod.mk.inj h).2]
        rw [List.Nodup.count (app.nodup x)]
        simp
      · rw [if_neg fun h => hx h.1, List.count_eq_zero]
        rintro hmem
        obtain ⟨_, -, heq⟩ := List.mem_map.mp hmem
        exact hx (BoundMethod.mk.inj heq).1
    rw [hscanned, List.count_append, hfirst, ih, List.count_cons]
    by_cases hmethod : q.method ∈ app.methodNames q.target
    · simp [hmethod, Nat.add_comm]
    · simp [hmethod]

end Counting

end Explored

/-! ## A new session -/

section Registering

/-- Registering entries in a session. -/
theorem sessions_setupSessionHandlers (st : AcceptorState) (s : ℕ) :
    ((setupSessionHandlers s).after st).sessions s =
      st.config.metadata.foldl Session.withHandlers (st.sessions s) := by
  have hloop : ∀ (metadata : List FixMetadata) (st : AcceptorState),
      ((Exec.forEach metadata (registerSessionHandlers s)).after st).sessions s =
        metadata.foldl Session.withHandlers (st.sessions s) := by
    intro metadata
    induction metadata with
    | nil => exact fun _ => rfl
    | cons entry metadata ih =>
      intro st
      have hregister : (registerSessionHandlers s entry).result st =
          (.ok (), st.withSessionAs s fun x => x.withHandlers entry) := rfl
      have hsession : (st.withSessionAs s fun x => x.withHandlers entry).sessions s =
          (st.sessions s).withHandlers entry := by
        unfold AcceptorState.withSessionAs
        dsimp only
        rw [Function.update_self]
      rw [Exec.forEach, after_bind_of_ok hregister, ih, hsession]
      rfl
  unfold setupSessionHandlers
  rw [after_bind_of_ok (result_get st)]
  exact hloop _ st

theorem simple_addIf (handlers : Handlers) (kind kind' : HandlerKind) (handler : Option ℕ) :
    (handlers.addIf kind' handler).simple kind =
      if kind = kind' then
        handlers.simple kind ++ handler.toList.filter fun h => h ∉ handlers.simple kind
      else handlers.simple kind := by
  cases handler with
  | none => simp [Handlers.addIf]
  | some h =>
    unfold Handlers.addIf Handlers.add
    dsimp only
    by_cases hkind : kind = kind'
    · subst hkind
      by_cases hmem : h ∈ handlers.simple kind
      · simp [hmem]
      · simp [hmem]
    · rw [if_neg hkind]
      split
      · rfl
      · exact Function.update_of_ne hkind _ _

/-- An entry adds its handler to a set, unless the set has it. -/
theorem simple_withHandlers (x : Session) (entry : FixMetadata) (kind : HandlerKind) :
    (x.withHandlers entry).handlers.simple kind = x.handlers.simple kind ++
      (handlerFor entry (.kind kind)).toList.filter fun h => h ∉ x.handlers.simple kind := by
  have hsimple : (x.withHandlers entry).handlers.simple kind =
      ((((x.handlers.addIf .logon entry.onLogon).addIf .logout entry.onLogout).addIf .connected
        entry.onConnected).addIf .disconnected entry.onDisconnected).simple kind := by
    unfold Session.withHandlers
    split <;> rfl
  rw [hsimple]
  simp only [simple_addIf]
  cases kind <;> simp [handlerFor]

theorem message_addIf (handlers : Handlers) (kind : HandlerKind) (handler : Option ℕ) :
    (handlers.addIf kind handler).message = handlers.message := by
  cases handler with
  | none => rfl
  | some h =>
    unfold Handlers.addIf Handlers.add
    dsimp only
    split <;> rfl

theorem message_withHandlers (x : Session) (entry : FixMetadata) :
    (x.withHandlers entry).handlers.message = x.handlers.message ++ entry.onMessage.toList := by
  unfold Session.withHandlers
  cases entry.onMessage with
  | none => simp [message_addIf]
  | some onMessage => simp [message_addIf]

/-- Handlers with different numbers are all added. -/
theorem simple_foldl (x : Session) (metadata : List FixMetadata) (kind : HandlerKind)
    (hnodup : (x.handlers.simple kind ++
      metadata.filterMap (handlerFor · (.kind kind))).Nodup) :
    (metadata.foldl Session.withHandlers x).handlers.simple kind =
      x.handlers.simple kind ++ metadata.filterMap (handlerFor · (.kind kind)) := by
  induction metadata generalizing x with
  | nil => simp
  | cons entry metadata ih =>
    have hcons : (entry :: metadata).filterMap (handlerFor · (.kind kind)) =
        (handlerFor entry (.kind kind)).toList ++
          metadata.filterMap (handlerFor · (.kind kind)) := by
      rw [List.filterMap_cons]
      cases handlerFor entry (.kind kind) <;> rfl
    rw [hcons, ← List.append_assoc] at hnodup
    have hadded : (x.withHandlers entry).handlers.simple kind =
        x.handlers.simple kind ++ (handlerFor entry (.kind kind)).toList := by
      rw [simple_withHandlers, List.filter_eq_self.mpr]
      intro h hmem
      have hdisjoint := (List.nodup_append.mp (List.nodup_append.mp hnodup).1).2.2
      exact decide_eq_true fun hold => hdisjoint h hold h hmem rfl
    rw [List.foldl_cons, hcons, ← List.append_assoc, ← hadded]
    rw [← hadded] at hnodup
    exact ih _ hnodup

theorem message_foldl (x : Session) (metadata : List FixMetadata) :
    (metadata.foldl Session.withHandlers x).handlers.message =
      x.handlers.message ++ metadata.filterMap FixMetadata.onMessage := by
  induction metadata generalizing x with
  | nil => simp
  | cons entry metadata ih =>
    rw [List.foldl_cons, ih, message_withHandlers, List.filterMap_cons]
    cases entry.onMessage <;> simp

/-! ### The calls of a session -/

theorem after_forEach_callHandler (handlers calls : List ℕ) :
    (Exec.forEach handlers callHandler).after calls = calls ++ handlers := by
  induction handlers generalizing calls with
  | nil => exact (List.append_nil calls).symm
  | cons h handlers ih =>
    have hcall : (callHandler h).result calls = (.ok (), calls ++ [h]) := rfl
    rw [Exec.forEach, after_bind_of_ok hcall, ih]
    exact List.append_assoc calls [h] handlers

theorem handlerCalls_kind (handlers : Handlers) (kind : HandlerKind) :
    handlerCalls handlers (.kind kind) = handlers.simple kind :=
  after_forEach_callHandler _ []

theorem handlerCalls_message (handlers : Handlers) (msgType : Value) :
    handlerCalls handlers (.message msgType) = handlers.message.filterMap fun h =>
      if !h.msgType.truthy || h.msgType = msgType then some h.handler else none := by
  have hloop : ∀ (message : List MessageHandler) (calls : List ℕ),
      (Exec.forEach message fun h =>
        if !h.msgType.truthy || h.msgType = msgType then callHandler h.handler
        else pure ()).after calls = calls ++ message.filterMap fun h =>
          if !h.msgType.truthy || h.msgType = msgType then some h.handler else none := by
    intro message
    induction message with
    | nil => exact fun calls => (List.append_nil calls).symm
    | cons h message ih =>
      intro calls
      rw [List.filterMap_cons, Exec.forEach]
      by_cases hmatches : (!h.msgType.truthy || decide (h.msgType = msgType)) = true
      · have hcall : (if !h.msgType.truthy || h.msgType = msgType then callHandler h.handler
            else pure ()).result calls = (.ok (), calls ++ [h.handler]) := by
          rw [if_pos hmatches]
          rfl
        rw [after_bind_of_ok hcall, ih, if_pos hmatches]
        exact List.append_assoc calls [h.handler] _
      · have hskip : (if !h.msgType.truthy || h.msgType = msgType then callHandler h.handler
            else pure ()).result calls = (.ok (), calls) := by
          rw [if_neg hmatches]
          rfl
        rw [after_bind_of_ok hskip, ih, if_neg hmatches]
  exact hloop handlers.message []

/-- A new session calls the handlers of the entries for each trigger. -/
theorem handlerCalls_setup {st : AcceptorState} {s : ℕ}
    (hnew : (st.sessions s).handlers = ⟨fun _ => [], []⟩) (trigger : Trigger)
    (hnodup : (st.config.metadata.filterMap (handlerFor · trigger)).Nodup) :
    handlerCalls (((setupSessionHandlers s).after st).sessions s).handlers trigger =
      st.config.metadata.filterMap (handlerFor · trigger) := by
  rw [sessions_setupSessionHandlers]
  cases trigger with
  | kind kind =>
    have hnone : (st.sessions s).handlers.simple kind = [] := by rw [hnew]
    rw [handlerCalls_kind, simple_foldl _ _ _ (by rwa [hnone]), hnone, List.nil_append]
  | message msgType =>
    rw [handlerCalls_message, message_foldl, hnew, List.nil_append, List.filterMap_filterMap]
    rfl

end Registering

/-! ## Exactly once -/

section Once

variable {ι φ : Type} {app : Application ι φ}

/-- The handlers of the entries are different functions. -/
theorem nodup_handlers (app : Application ι φ) (methods : List (BoundMethod ι))
    (trigger : Trigger) : ((app.entries methods 0).filterMap (handlerFor · trigger)).Nodup := by
  have hplaces : methods.zipIdx.Pairwise fun a b => a.2 ≠ b.2 := by
    refine List.pairwise_map.mp ?_
    rw [List.zipIdx_map_snd]
    exact List.nodup_range'
  have hplace : ∀ x : BoundMethod ι × ℕ, ∀ h,
      (app.entry x.1 x.2).bind (handlerFor · trigger) = some h → h = x.2 := by
    intro x h hh
    obtain ⟨entry, hentry, hfor⟩ := Option.bind_eq_some_iff.mp hh
    obtain ⟨f, -, rfl⟩ := exists_of_entry_eq_some hentry
    rw [handlerFor_fixMetadata] at hfor
    split at hfor
    · exact (Option.some.inj hfor).symm
    · cases hfor
  unfold Application.entries
  rw [List.filterMap_filterMap]
  refine hplaces.filterMap _ fun a b hab h hh h' hh' => ?_
  rw [hplace a h hh, hplace b h' hh']
  exact hab

variable [DecidableEq ι]

/-- Every instance with a decorated method is listed once. -/
def Application.ListedOnce (app : Application ι φ) (instances : List ι) : Prop :=
  ∀ q, app.IsMethod instances q → app.holdsOf app.decorates q = true →
    instances.count q.target = 1

/-- How often the explorer comes to a method of one of the instances. -/
theorem count_scanned_of_listedOnce {instances : List ι} (h : app.ListedOnce instances)
    {p : φ → Bool} (hp : ∀ f, p f = true → app.decorates f = true) (q : BoundMethod ι) :
    (if app.holdsOf p q then (app.scanned instances).count q else 0) =
      if app.IsMethod instances q ∧ app.holdsOf p q then 1 else 0 := by
  rw [count_scanned]
  by_cases hholds : app.holdsOf p q = true
  · have hdecorated : app.holdsOf app.decorates q = true := by
      unfold Application.holdsOf at hholds ⊢
      split at hholds
      · cases hholds
      · exact hp _ hholds
    rw [if_pos hholds]
    by_cases hmethod : app.IsMethod instances q
    · rw [if_pos hmethod.2, if_pos ⟨hmethod, hholds⟩]
      exact h q hmethod hdecorated
    · have hnone : ¬ (app.IsMethod instances q ∧ app.holdsOf p q = true) :=
        fun hboth => hmethod hboth.1
      rw [if_neg hnone]
      by_cases hname : q.method ∈ app.methodNames q.target
      · rw [if_pos hname]
        exact List.count_eq_zero.mpr fun hmem => hmethod ⟨hmem, hname⟩
      · rw [if_neg hname]
  · rw [if_neg hholds, if_neg fun hboth => hholds hboth.2]

/-- Every entry is one of a method. -/
theorem exists_isEntryOf {methods : List (BoundMethod ι)} {entry : FixMetadata}
    (h : entry ∈ app.entries methods 0) : ∃ q, isEntryOf methods q entry = true := by
  obtain ⟨x, hx, hentry⟩ := List.mem_filterMap.mp h
  obtain ⟨f, hdecorates, rfl⟩ := exists_of_entry_eq_some hentry
  refine ⟨x.1, ?_⟩
  rw [isEntryOf_fixMetadata, hdecorates, List.mem_zipIdx_iff_getElem?.mp hx]
  simp

/-- The decorated methods of the listed instances are registered once, each with one entry, and
called once by a new session for whatever they are decorated for, exactly when all methods can
be bound and no instance with a decorated method is listed twice. -/
theorem registeredOnce_iff (app : Application ι φ) (providers controllers : List (Option ι)) :
    (∃ metadata bound, (app.explore providers controllers).result [] = (.ok metadata, bound) ∧
      RegisteredOnce app (getAllInstances providers controllers) metadata bound) ↔
    app.Callable (getAllInstances providers controllers) ∧
      app.ListedOnce (getAllInstances providers controllers) := by
  generalize hinstances : getAllInstances providers controllers = instances
  unfold Application.explore
  rw [hinstances]
  constructor
  · rintro ⟨metadata, bound, hexplored, honce⟩
    have hcallable := callable_of_extractMetadata hexplored
    refine ⟨hcallable, fun q hmethod hdecorated => ?_⟩
    rw [result_extractMetadataFromInstances hcallable] at hexplored
    obtain ⟨hmetadata, rfl⟩ := Prod.mk.inj hexplored
    obtain rfl := Except.ok.inj hmetadata
    have hentries := honce.entries q
    rw [List.length_nil, List.nil_append, countP_entries, if_pos hdecorated, count_scanned,
      if_pos hmethod.2, if_pos ⟨hmethod, hdecorated⟩] at hentries
    exact hentries
  · rintro ⟨hcallable, hlisted⟩
    refine ⟨_, _, result_extractMetadataFromInstances hcallable [], fun q => ?_,
      fun entry hentry => ?_, fun st s hmetadata hnew trigger q => ?_⟩
    · rw [List.length_nil, List.nil_append, countP_entries]
      exact count_scanned_of_listedOnce hlisted (fun _ => id) q
    · exact exists_isEntryOf hentry
    · rw [List.length_nil] at hmetadata
      rw [handlerCalls_setup hnew, hmetadata, List.nil_append, countP_handlers]
      · exact count_scanned_of_listedOnce hlisted (fun _ => decorates_of_answers) q
      · rw [hmetadata]
        exact nodup_handlers app _ trigger

end Once

/-- An application with one instance, whose method is decorated for new orders. -/
def orderApplication : Application Unit Unit where
  methodNames _ := [js "onOrder"]
  nodup _ := List.nodup_singleton _
  member _ _ := .ok ()
  metadata key _ :=
    if key = FixMetadataKey.message then .other (some (js "true"))
    else if key = FixMetadataKey.messageType then .str (js "D")
    else .undefined

/-- The method of the instance. -/
def onOrder : BoundMethod Unit := ⟨(), js "onOrder"⟩

/-- If the instance is also provided under an alias, a new order is handled twice. -/
theorem not_registeredOnce_alias :
    (∃ metadata, (orderApplication.explore [some (), some ()] []).result [] =
        (.ok metadata, [onOrder, onOrder]) ∧ metadata.length = 2 ∧
      handlerCalls (((setupSessionHandlers 0).after
        (.new ⟨.undefined, .undefined, false, 0, metadata⟩)).sessions 0).handlers
          (.message (.str (js "D"))) = [0, 1]) ∧
    ¬ ∃ metadata bound,
      (orderApplication.explore [some (), some ()] []).result [] = (.ok metadata, bound) ∧
        RegisteredOnce orderApplication (getAllInstances [some (), some ()] []) metadata bound := by
  refine ⟨⟨_, rfl, rfl, by decide +kernel⟩, ?_⟩
  rintro ⟨metadata, bound, hexplored, honce⟩
  obtain ⟨hmetadata, rfl⟩ := Prod.mk.inj hexplored
  obtain rfl := Except.ok.inj hmetadata
  have htwo := honce.entries onOrder
  revert htwo
  decide +kernel

end NestQuickfix.Service
