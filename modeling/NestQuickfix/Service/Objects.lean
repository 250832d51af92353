import NestQuickfix.Service.Targets

/-!
# The service on message objects

A caller hands the service a message object. The service clones it for every session, and
the session sets missing fields of the object it is given. Here these objects are explicit: what
the service does is what it does with the messages themselves, and only objects of its own change.
-/

namespace NestQuickfix.Service

open Lib Lib.Exec Acceptor

/-- The service with the message objects there are. -/
structure ObjectState where
  service : FixService
  objects : List Message

/-- Service code on objects. -/
abbrev ObjectM := Exec JSError ObjectState

/-- The message of an object. -/
def ObjectState.message (st : ObjectState) (ref : ℕ) : Message := st.objects.getD ref .empty

/-- `clone`: a new object with the fields of another one. -/
def cloneObject (ref : ℕ) : ObjectM ℕ := do
  let st ← get
  set { st with objects := st.objects ++ [(st.message ref).clone] }
  pure st.objects.length

/-- Change the message of an object. -/
def updateObject (ref : ℕ) (f : Message → Message) : ObjectM Unit :=
  modify fun st => { st with objects := st.objects.set ref (f (st.message ref)) }

/-- `sendMessage` on an object, up to its `await`. `addRequiredFields` changes the object. -/
def sendObject (ref s : ℕ) : ObjectM Unit := do
  let st ← get
  let session := st.service.acceptor.sessions s
  updateObject ref (addRequiredFields session.config session.nextOutgoingSeqNum
    st.service.acceptor.input.sendingTime)
  modify fun st' => { st' with service := { st'.service with
    acceptor := (startSend s (st.message ref)).after st'.service.acceptor
    sent := st'.service.sent ++ [(s, st.message ref)] } }

/-- Pass a clone of an object to `sendMessage` of a session. -/
def deliverObject (ref s : ℕ) : ObjectM Unit := do
  let messageClone ← cloneObject ref
  let st ← get
  updateObject messageClone fun m => m.setField Fields.targetCompID
    (st.service.acceptor.sessions s).config.targetCompId
  sendObject messageClone s

/-- `send` on an object, up to its `await`; when the room is empty, to its end. -/
def sendFrom (ref : ℕ) : ObjectM Unit := do
  let st ← get
  match st.service.target with
  | none => throw (js "Target ID must be specified using to() method")
  | some targetId =>
    if st.service.acceptor.rooms.getSessionsInRoom targetId = [] then
      modify fun st => { st with service := { st.service with targetId := none } }
    else do
      Exec.forEach (st.service.sessionsInRoom targetId) (deliverObject ref)
      modify fun st => { st with service := { st.service with sending := st.service.sending + 1 } }

/-! ## Objects and messages -/

variable {st : FixService} {objects : List Message} {ref : ℕ} {m : Message}

theorem message_eq (href : objects[ref]? = some m) :
    (ObjectState.mk st objects).message ref = m := by
  rw [ObjectState.message, List.getD_eq_getElem?_getD, href, Option.getD_some]

theorem message_last (st : FixService) (objects : List Message) (m : Message) :
    (ObjectState.mk st (objects ++ [m])).message objects.length = m :=
  message_eq List.getElem?_concat_length

theorem set_last (objects : List Message) (m m' : Message) :
    (objects ++ [m]).set objects.length m' = objects ++ [m'] := by
  rw [List.set_append_right _ _ le_rfl, Nat.sub_self]
  rfl

theorem result_cloneObject (href : objects[ref]? = some m) :
    (cloneObject ref).result ⟨st, objects⟩ =
      (.ok objects.length, ⟨st, objects ++ [m.clone]⟩) := by
  have hresult : (cloneObject ref).result ⟨st, objects⟩ = (.ok objects.length,
      ⟨st, objects ++ [((ObjectState.mk st objects).message ref).clone]⟩) := rfl
  rw [hresult, message_eq href]

/-- Changing the newest object. -/
theorem result_updateLast (f : Message → Message) :
    (updateObject objects.length f).result ⟨st, objects ++ [m]⟩ =
      (.ok (), ⟨st, objects ++ [f m]⟩) := by
  have hresult : (updateObject objects.length f).result ⟨st, objects ++ [m]⟩ =
      (.ok (), ⟨st, (objects ++ [m]).set objects.length
        (f ((ObjectState.mk st (objects ++ [m])).message objects.length))⟩) := rfl
  rw [hresult, message_last, set_last]

/-- Sending the newest object completes it, and sends what it was. -/
theorem result_sendLast (s : ℕ) : (sendObject objects.length s).result ⟨st, objects ++ [m]⟩ =
    (.ok (), ⟨{ st with
      acceptor := (startSend s m).after st.acceptor
      sent := st.sent ++ [(s, m)] }, objects ++ [addRequiredFields (st.acceptor.sessions s).config
        (st.acceptor.sessions s).nextOutgoingSeqNum st.acceptor.input.sendingTime m]⟩) := by
  rw [sendObject, result_bind, result_get]
  dsimp only
  rw [result_bind, result_updateLast, message_last]
  rfl

/-- Delivering an object delivers its message, and leaves one more object behind. -/
theorem result_deliverObject (href : objects[ref]? = some m) (s : ℕ) :
    ∃ copy, (deliverObject ref s).result ⟨st, objects⟩ =
      (.ok (), ⟨(deliver m s).after st, objects ++ [copy]⟩) := by
  refine ⟨addRequiredFields (st.acceptor.sessions s).config
    (st.acceptor.sessions s).nextOutgoingSeqNum st.acceptor.input.sendingTime
      (st.addressed m s), ?_⟩
  rw [deliverObject, result_bind, result_cloneObject href]
  dsimp only
  rw [result_bind, result_get]
  dsimp only
  rw [result_bind, result_updateLast]
  exact result_sendLast s

/-- The loop of `send` delivers the message of the object, which stays as it is. -/
theorem result_deliverObjects (sessions : List ℕ) (st : FixService) {objects : List Message}
    (href : objects[ref]? = some m) :
    ∃ copies, (Exec.forEach sessions (deliverObject ref)).result ⟨st, objects⟩ =
      (.ok (), ⟨(Exec.forEach sessions (deliver m)).after st, objects ++ copies⟩) := by
  induction sessions generalizing st objects with
  | nil => exact ⟨[], by rw [List.append_nil]; rfl⟩
  | cons s sessions ih =>
    obtain ⟨copy, hdeliver⟩ : ∃ copy, (deliverObject ref s).result ⟨st, objects⟩ =
        (.ok (), ⟨(deliver m s).after st, objects ++ [copy]⟩) := result_deliverObject href s
    have href' : (objects ++ [copy])[ref]? = some m := by
      rw [List.getElem?_append_left (List.getElem?_eq_some_iff.mp href).1, href]
    obtain ⟨copies, hrest⟩ := ih ((deliver m s).after st) href'
    refine ⟨copy :: copies, ?_⟩
    rw [Exec.forEach, result_bind, hdeliver]
    dsimp only
    rw [hrest, List.append_assoc]
    have hafter : (Exec.forEach (s :: sessions) (deliver m)).after st =
        (Exec.forEach sessions (deliver m)).after ((deliver m s).after st) := by
      rw [Exec.forEach, Exec.after, result_bind]
      rfl
    rw [hafter]
    rfl

/-- Sending an object does what sending its message does, and adds objects to those there are. -/
theorem result_sendFrom (st : FixService) (href : objects[ref]? = some m) :
    ∃ copies, (sendFrom ref).result ⟨st, objects⟩ = (((FixService.send m).result st).1,
      ⟨(FixService.send m).after st, objects ++ copies⟩) := by
  unfold sendFrom FixService.send
  rw [result_bind, result_get, Exec.after, result_bind, result_get]
  dsimp only
  cases st.target with
  | none => exact ⟨[], by rw [List.append_nil]; rfl⟩
  | some targetId =>
    dsimp only
    by_cases hempty : st.acceptor.rooms.getSessionsInRoom targetId = []
    · rw [if_pos hempty, if_pos hempty]
      exact ⟨[], by rw [List.append_nil]; rfl⟩
    · rw [if_neg hempty, if_neg hempty]
      obtain ⟨copies, hloop⟩ := result_deliverObjects (st.sessionsInRoom targetId) st href
      have hvalues : (Exec.forEach (st.sessionsInRoom targetId) (deliver m)).result st =
          (.ok (), (Exec.forEach (st.sessionsInRoom targetId) (deliver m)).after st) := by
        obtain ⟨st', hr, _⟩ := result_delivers m (st.sessionsInRoom targetId) st
        rw [Exec.after, hr]
      refine ⟨copies, ?_⟩
      rw [result_bind, hloop, result_bind, hvalues]
      rfl

end NestQuickfix.Service
