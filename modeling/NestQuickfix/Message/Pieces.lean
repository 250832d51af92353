import NestQuickfix.Message.RoundTrip

/-!
# Pieces of a message

What the parser makes of a part of a message. A piece that contains no whole
field before MsgType, or not the beginning of MsgType, is dropped; any other one is
returned with the fields it has. Only a piece that lacks nothing but a leading
`8=` and the last SOH is returned as the message.
-/

namespace NestQuickfix

open Lib

/-! ## Fields the parser reads whole -/

/-- A field with a numeric tag and a nonempty string value without separators. -/
def CleanField (f : Field) : Prop :=
  ∃ (n : ℕ) (s : JSString), f = (.tag n, .str s) ∧ s ≠ [] ∧ SOH ∉ s ∧ EQ ∉ s

theorem CleanField.plainField {f : Field} (h : CleanField f) : PlainField f := by
  obtain ⟨n, s, rfl, _, hs, _⟩ := h
  exact ⟨n, s, rfl, hs⟩

theorem CleanField.storedField_eq {f : Field} (h : CleanField f) : storedField f = some f := by
  obtain ⟨n, s, rfl, hs, _, heq⟩ := h
  rw [storedField_str, readable_eq_self heq, if_neg hs]

/-- A part of a field text either adds nothing or stores a part of its value. -/
theorem CleanField.parseField_cases {f : Field} (hf : CleanField f) {part : JSString}
    (h : part <+: bareText f) (m : Message) :
    parseField m part = m ∨ ∃ v, part = f.1.text ++ EQ :: v ∧
      parseField m part = m.setField f.1 (.str v) := by
  obtain ⟨n, s, rfl, _, _, heq⟩ := hf
  rcases List.prefix_or_prefix_of_prefix h (List.prefix_append (natText n) _) with hp | ⟨r, rfl⟩
  · exact Or.inl (parseField_of_notMem m fun hmem => EQ_notMem_natText n (hp.subset hmem))
  · have hr : r <+: EQ :: s := (List.prefix_append_right_inj (natText n)).mp h
    cases r with
    | nil =>
      rw [List.append_nil]
      exact Or.inl (parseField_of_notMem m (EQ_notMem_natText n))
    | cons u v =>
      obtain ⟨rfl, hv⟩ := List.cons_prefix_cons.mp hr
      have hread : readable v = v := readable_eq_self fun hmem => heq (hv.subset hmem)
      rw [parseField_natText, hread]
      by_cases hnil : v = []
      · exact Or.inl (if_pos hnil)
      · exact Or.inr ⟨v, rfl, if_neg hnil⟩

/-- Reading fields leaves the other keys alone. -/
theorem get?_readFields_of_notMem {m : Message} {fs : List Field} {k : FieldType}
    (h : k ∉ fs.map Prod.fst) : (readFields m fs).fields.get? k = m.fields.get? k := by
  induction fs generalizing m with
  | nil => rfl
  | cons f fs ih =>
    rw [List.map_cons, List.mem_cons, not_or] at h
    have hstep : (readField m f).fields.get? k = m.fields.get? k := by
      unfold readField
      split
      · rfl
      · exact OrderedMap.get?_set_of_ne _ _ h.1
    exact (ih h.2).trans hstep

/-! ## Pieces of a text of fields -/

/-- `p` lies between `x` and `y` in the text of `fs`: it starts in the field `f`
behind `gs`, continues with the fields `hs`, and ends with `part`, the beginning
of what remains. -/
structure IsPiece (fs : List Field) (x p y : JSString) (gs : List Field) (f : Field)
    (hs rest : List Field) (first part : JSString) : Prop where
  fields_eq : fs = gs ++ f :: (hs ++ rest)
  piece_eq : p = first ++ SOH :: (fieldsText hs ++ part)
  notMem : SOH ∉ first
  before_eq : x ++ first = fieldsText gs ++ bareText f
  after_eq : part ++ y = fieldsText rest
  part_cases : part = [] ∨ ∃ g rest', rest = g :: rest' ∧ part <+: bareText g

/-- Every piece that contains an SOH is described by `IsPiece`. -/
theorem exists_isPiece {fs : List Field} (hfs : ∀ f ∈ fs, PlainField f) {x p y : JSString}
    (h : fieldsText fs = x ++ p ++ y) (hsoh : SOH ∈ p) :
    ∃ gs f hs rest first part, IsPiece fs x p y gs f hs rest first part := by
  obtain ⟨first, p', rfl, hfirst⟩ := List.eq_append_cons_of_mem hsoh
  have hcut : fieldsText fs = (x ++ first) ++ SOH :: (p' ++ y) := by simpa using h
  obtain ⟨gs, f, hs, rfl, hbefore, hafter⟩ := exists_of_fieldsText_eq_append_cons hfs hcut
  have hhs : ∀ g ∈ hs, PlainField g := fun g hg => hfs g (by simp [hg])
  have hprefix : p' <+: fieldsText hs := ⟨y, hafter⟩
  rcases exists_of_isPrefix_fieldsText hhs hprefix with rfl | ⟨hs', g, rest, part, rfl, rfl, hpart⟩
  · have hy : y = [] := by simpa using hafter
    exact ⟨gs, f, hs, [], first, [], by simp, by simp, hfirst, hbefore, by simp [hy], Or.inl rfl⟩
  · refine ⟨gs, f, hs', g :: rest, first, part, rfl, rfl, hfirst, hbefore, ?_,
      Or.inr ⟨g, rest, rfl, hpart⟩⟩
    simpa using hafter

/-- What the parser stores for the beginning of a part. -/
def firstField (first : JSString) : Message := parseField .empty (restoreBeginMark first)

/-- The message the parser builds from a piece before it checks it. -/
def pieceMessage (hs : List Field) (first part : JSString) : Message :=
  parseField (readFields (firstField first) hs) part

theorem SOH_notMem_restoreBeginMark {s : JSString} (h : SOH ∉ s) : SOH ∉ restoreBeginMark s := by
  have hmark : SOH ∉ beginMark := by decide
  unfold restoreBeginMark
  split
  · exact h
  · simp [hmark, h]

/-- The beginning of a part can only store BeginString. -/
theorem get?_firstField {first : JSString} {k : FieldType} (hk : k ≠ Fields.beginString) :
    (firstField first).fields.get? k = none := by
  have hmark : ∃ v, restoreBeginMark first = natText 8 ++ EQ :: v := by
    rw [natText_eight]
    by_cases h : beginMark <+: first
    · obtain ⟨v, hv⟩ := h
      exact ⟨v, by rw [← hv, restoreBeginMark, if_pos (List.prefix_append _ _), beginMark_eq]; rfl⟩
    · exact ⟨first, by rw [restoreBeginMark, if_neg h, beginMark_eq]; rfl⟩
  obtain ⟨v, hv⟩ := hmark
  rw [firstField, hv, parseField_natText]
  split
  · rfl
  · exact OrderedMap.get?_set_of_ne _ _ hk

namespace IsPiece

variable {fs gs hs rest : List Field} {f : Field} {x p y first part : JSString}

theorem parsePart_eq (h : IsPiece fs x p y gs f hs rest first part)
    (hfs : ∀ g ∈ fs, PlainField g) (hpart : SOH ∉ part) :
    parsePart p = acceptMessage (pieceMessage hs first part) := by
  have hhs : ∀ g ∈ hs, PlainField g := fun g hg => hfs g (by simp [h.fields_eq, hg])
  rw [NestQuickfix.parsePart_eq, h.piece_eq, restoreBeginMark_append_cons, readText_append_cons,
    readText_of_notMem _ (SOH_notMem_restoreBeginMark h.notMem), readText_fieldsText_append hhs,
    readText_of_notMem _ hpart]
  rfl

/-- A key other than BeginString that the parser found in a piece: its field lies
behind the field the piece starts in, and its text starts in the piece. -/
theorem cases_of_get? (h : IsPiece fs x p y gs f hs rest first part) (hfs : ∀ g ∈ fs, CleanField g)
    (hnodup : (fs.map Prod.fst).Nodup) {before after : List Field} {g : Field}
    (hcut : fs = before ++ g :: after) (hg : g.1 ≠ Fields.beginString) {v : Value}
    (hv : (pieceMessage hs first part).fields.get? g.1 = some v) :
    (∃ hs1 hs2, before = gs ++ f :: hs1 ∧ hs = hs1 ++ g :: hs2 ∧ after = hs2 ++ rest) ∨
      (before = gs ++ f :: hs ∧ rest = g :: after ∧
        ∃ s, v = .str s ∧ part = g.1.text ++ EQ :: s) := by
  by_cases hmem : g.1 ∈ hs.map Prod.fst
  · left
    obtain ⟨g', hg', hkey⟩ := List.mem_map.mp hmem
    obtain ⟨hs1, hs2, hsplit⟩ := List.append_of_mem hg'
    have hcut' : before ++ g :: after = (gs ++ f :: hs1) ++ g' :: (hs2 ++ rest) := by
      rw [← hcut, h.fields_eq, hsplit]
      simp
    obtain ⟨hbefore, rfl, hafter⟩ := append_cons_inj_of_nodup_map (hcut ▸ hnodup) hcut' hkey.symm
    exact ⟨hs1, hs2, hbefore, hsplit, hafter⟩
  · right
    have hnone : (readFields (firstField first) hs).fields.get? g.1 = none := by
      rw [get?_readFields_of_notMem hmem, get?_firstField hg]
    have hunread : pieceMessage hs first part ≠ readFields (firstField first) hs := by
      intro heq
      rw [heq, hnone] at hv
      cases hv
    rcases h.part_cases with rfl | ⟨g', rest', hrest, hpart⟩
    · exact absurd (parseField_of_notMem _ (by simp)) hunread
    · have hclean : CleanField g' := hfs g' (by simp [h.fields_eq, hrest])
      rcases hclean.parseField_cases hpart (readFields (firstField first) hs) with heq | ⟨s, hs', heq⟩
      · exact absurd heq hunread
      · rw [pieceMessage, heq] at hv
        have hkey : g.1 = g'.1 := by
          by_contra hne
          rw [Message.setField, OrderedMap.get?_set_of_ne _ _ hne, hnone] at hv
          cases hv
        have hcut' : before ++ g :: after = (gs ++ f :: hs) ++ g' :: rest' := by
          rw [← hcut, h.fields_eq, hrest]
          simp
        obtain ⟨hbefore, rfl, rfl⟩ := append_cons_inj_of_nodup_map (hcut ▸ hnodup) hcut' hkey
        rw [Message.setField, OrderedMap.get?_set_self] at hv
        exact ⟨hbefore, hrest, s, (Option.some.inj hv).symm, hs'⟩

/-- Where the text of a field found in a piece starts. -/
theorem length_of_get? (h : IsPiece fs x p y gs f hs rest first part) (hfs : ∀ g ∈ fs, CleanField g)
    (hnodup : (fs.map Prod.fst).Nodup) {before after : List Field} {g : Field}
    (hcut : fs = before ++ g :: after) (hg : g.1 ≠ Fields.beginString) {v : Value}
    (hv : (pieceMessage hs first part).fields.get? g.1 = some v) :
    x.length < (fieldsText before).length ∧ (fieldsText before).length < (x ++ p).length := by
  have hx := congrArg List.length h.before_eq
  have hxp : x ++ p = fieldsText (gs ++ f :: hs) ++ part := by
    rw [h.piece_eq, ← List.append_assoc, h.before_eq]
    simp [fieldText_eq]
  rcases h.cases_of_get? hfs hnodup hcut hg hv with
    ⟨hs1, hs2, rfl, rfl, _⟩ | ⟨rfl, _, s, _, rfl⟩
  · rw [hxp]
    simp only [List.length_append, fieldsText_append, fieldsText_cons, fieldText_eq,
      List.length_singleton] at hx ⊢
    omega
  · rw [hxp]
    simp only [List.length_append, fieldsText_append, fieldsText_cons, fieldText_eq,
      List.length_cons] at hx ⊢
    omega

/-- The beginning of a piece decides the keys that no later field has. -/
theorem get?_eq_firstField (h : IsPiece fs x p y gs f hs rest first part)
    (hfs : ∀ g ∈ fs, CleanField g) {k : FieldType} (hk : k ∉ (hs ++ rest).map Prod.fst) :
    (pieceMessage hs first part).fields.get? k = (firstField first).fields.get? k := by
  rw [List.map_append, List.mem_append, not_or] at hk
  have hread := get?_readFields_of_notMem (m := firstField first) hk.1
  rcases h.part_cases with rfl | ⟨g, rest', hrest, hpart⟩
  · rw [pieceMessage, parseField_of_notMem _ (by simp), hread]
  · have hclean : CleanField g := hfs g (by simp [h.fields_eq, hrest])
    rcases hclean.parseField_cases hpart (readFields (firstField first) hs) with heq | ⟨s, _, heq⟩
    · rw [pieceMessage, heq, hread]
    · have hne : k ≠ g.1 := fun heq' => hk.2 (by simp [hrest, heq'])
      rw [pieceMessage, heq, Message.setField, OrderedMap.get?_set_of_ne _ _ hne, hread]

end IsPiece

/-- A piece that starts inside the value of BeginString keeps only the end of it. -/
theorem eq_of_get?_firstField {x first b : JSString} (hclean : EQ ∉ b)
    (h : x ++ first = beginMark ++ b)
    (hget : (firstField first).fields.get? Fields.beginString = some (.str b)) :
    x = [] ∨ x = beginMark := by
  have hread : ∀ {v : JSString}, EQ ∉ v → restoreBeginMark first = beginMark ++ v → v = b := by
    intro v hv hrestore
    have hmark : beginMark ++ v = natText 8 ++ EQ :: v := by
      rw [natText_eight, beginMark_eq]
      rfl
    rw [firstField, hrestore, hmark, parseField_natText, readable_eq_self hv] at hget
    split at hget
    · cases hget
    · have hsame := Option.some.inj ((OrderedMap.get?_set_self _ _ _).symm.trans hget)
      simpa using hsame
  rw [beginMark_eq] at h
  rcases x with _ | ⟨u, _ | ⟨v, x'⟩⟩
  · exact Or.inl rfl
  · exfalso
    have hfirst : first = EQ :: b := (List.cons.inj h).2
    have hempty : firstField (EQ :: b) = .empty := by
      have hnot : ¬ beginMark <+: EQ :: b := by
        rw [beginMark_eq]
        exact fun hp => absurd (List.cons_prefix_cons.mp hp).1 (by decide)
      have hmark : beginMark ++ EQ :: b = natText 8 ++ EQ :: EQ :: b := by
        rw [natText_eight, beginMark_eq]
        rfl
      rw [firstField, restoreBeginMark, if_neg hnot, hmark, parseField_natText]
      rfl
    rw [hfirst, hempty] at hget
    cases hget
  · obtain ⟨rfl, h'⟩ := List.cons.inj h
    obtain ⟨rfl, hb⟩ : v = EQ ∧ x' ++ first = b := List.cons.inj h'
    have hfirst : EQ ∉ first := fun hmem => hclean (hb ▸ List.mem_append_right x' hmem)
    have hnot : ¬ beginMark <+: first := by
      intro hp
      exact hfirst (hp.subset (by decide))
    have hsame := hread hfirst (if_neg hnot)
    have hx' : x' = [] := by simpa [← hsame] using hb
    exact Or.inr (by rw [hx', beginMark_eq])

/-! ## Pieces of one message -/

/-- A begin mark needs a `=`. -/
theorem not_beginMark_isPrefix {b : JSString} (h : EQ ∉ b) (t : JSString) :
    ¬ beginMark <+: b ++ SOH :: t := by
  rw [beginMark_eq]
  intro hp
  match b, h, hp with
  | [], _, hp => exact absurd (List.cons_prefix_cons.mp hp).1 (by decide)
  | [u], _, hp =>
    have hp' := (List.cons_prefix_cons.mp hp).2
    exact absurd (List.cons_prefix_cons.mp hp').1 (by decide)
  | u :: v :: b, h, hp =>
    have hp' := (List.cons_prefix_cons.mp hp).2
    exact h (by simp [← (List.cons_prefix_cons.mp hp').1])

namespace Message

/-- Every field on the wire is read whole. -/
def Clean (m : Message) : Prop :=
  (∀ f ∈ requiredFields, m.hasField f = true) ∧ ∀ f ∈ m.wireFields, CleanField f

namespace Clean

variable {m r : Message} {x p y : JSString}

theorem plainField (hm : m.Clean) : ∀ f ∈ m.wireFields, PlainField f :=
  fun f hf => (hm.2 f hf).plainField

/-- The text of a message contains no separator. -/
theorem not_isInfix_separator (hm : m.Clean) (h : m.wireText = x ++ p ++ y) :
    ¬ (SOH :: beginMark) <:+: p := by
  obtain ⟨fs, hfs, hkey⟩ := m.wireFields_eq_cons
  have hwhole : ¬ (SOH :: beginMark) <:+: m.wireText := by
    rw [wireText, hfs]
    exact NestQuickfix.not_isInfix_separator (fun g hg => hm.plainField g (hfs ▸ hg)) hkey
  intro hp
  exact hwhole (hp.trans ⟨x, y, h.symm⟩)

/-- A piece of a message is one part. -/
theorem processText_eq (hm : m.Clean) (h : m.wireText = x ++ p ++ y) :
    processText p = (parsePart p).toList := by
  rw [processText, splitSeq_eq_singleton (hm.not_isInfix_separator h)]
  cases hp : parsePart p <;> simp [hp]

/-- A piece that is returned as a message starts before the third field and has
all fields it returns. -/
theorem exists_isPiece (hm : m.Clean) (h : m.wireText = x ++ p ++ y) (hr : parsePart p = some r) :
    ∃ gs f hs rest first part, IsPiece m.wireFields x p y gs f hs rest first part ∧
      r = pieceMessage hs first part ∧ r.hasField Fields.beginString = true ∧
      r.hasField Fields.msgType = true := by
  have haccept : ∀ m', acceptMessage m' = some r → r = m' ∧
      r.hasField Fields.beginString = true ∧ r.hasField Fields.msgType = true := by
    intro m' hm'
    unfold acceptMessage at hm'
    split at hm'
    · next hboth =>
      obtain rfl := Option.some.inj hm'
      rw [Bool.and_eq_true] at hboth
      exact ⟨rfl, hboth⟩
    · cases hm'
  by_cases hsoh : SOH ∈ p
  · obtain ⟨gs, f, hs, rest, first, part, hpiece⟩ :=
      NestQuickfix.exists_isPiece hm.plainField h hsoh
    have hpart : SOH ∉ part := by
      rcases hpiece.part_cases with rfl | ⟨g, rest', hrest, hpart⟩
      · simp
      · have hg : PlainField g := hm.plainField g (by simp [hpiece.fields_eq, hrest])
        exact fun hmem => hg.notMem (hpart.subset hmem)
    rw [hpiece.parsePart_eq hm.plainField hpart] at hr
    exact ⟨gs, f, hs, rest, first, part, hpiece, haccept _ hr⟩
  · rw [parsePart_eq, readText_of_notMem _ (SOH_notMem_restoreBeginMark hsoh)] at hr
    obtain ⟨rfl, _, htype⟩ := haccept _ hr
    obtain ⟨v, hv⟩ := hasField_iff.mp htype
    have hnone : (firstField p).fields.get? Fields.msgType = none := get?_firstField (by decide)
    rw [firstField] at hnone
    rw [hnone] at hv
    cases hv

/-- The place in the text of a message that every returned piece contains: the
beginning of MsgType. -/
def typeOffset (m : Message) : ℕ := (fieldsText [m.beginField, m.lengthField]).length

theorem typeOffset_of_parsePart (hm : m.Clean) (h : m.wireText = x ++ p ++ y)
    (hr : parsePart p = some r) :
    x.length < typeOffset m ∧ typeOffset m < (x ++ p).length := by
  obtain ⟨gs, f, hs, rest, first, part, hpiece, rfl, _, htype⟩ := hm.exists_isPiece h hr
  obtain ⟨v, hv⟩ := hasField_iff.mp htype
  have hcut : ∃ after, m.wireFields = [m.beginField, m.lengthField] ++
      (Fields.msgType, m.getField Fields.msgType) :: after := ⟨_, rfl⟩
  obtain ⟨after, hcut⟩ := hcut
  exact hpiece.length_of_get? hm.2 m.wireFields_keys_nodup hcut
    (by decide : Fields.msgType ≠ Fields.beginString) hv

/-- A piece returned as the whole message has all of it except a leading `8=`
and the last SOH. -/
theorem eq_of_parsePart_encoded (hm : m.Clean) (h : m.wireText = x ++ p ++ y)
    (hr : parsePart p = some m.encoded) :
    (x = [] ∨ x = beginMark) ∧ (y = [] ∨ y = [SOH]) := by
  obtain ⟨gs, f, hs, rest, first, part, hpiece, hmessage, _⟩ := hm.exists_isPiece h hr
  have hget : ∀ g ∈ m.wireFields,
      (pieceMessage hs first part).fields.get? g.1 = some g.2 := by
    intro g hg
    rw [← hmessage]
    exact OrderedMap.get?_eq_some_iff.mpr hg
  constructor
  · -- BodyLength is found, so the piece starts in BeginString
    have hcut : m.wireFields = [m.beginField] ++ m.lengthField ::
        (m.bodyFields ++ [m.checkSumField]) := rfl
    have hstart : ∃ tail, [m.beginField] = gs ++ f :: tail := by
      rcases hpiece.cases_of_get? hm.2 m.wireFields_keys_nodup hcut
        (by decide : Fields.bodyLength ≠ Fields.beginString)
        (hget m.lengthField (by simp [wireFields])) with ⟨hs1, _, h, _⟩ | ⟨h, _⟩
      · exact ⟨hs1, h⟩
      · exact ⟨hs, h⟩
    obtain ⟨tail, hstart⟩ := hstart
    obtain ⟨rfl, rfl⟩ : gs = [] ∧ f = m.beginField := by
      cases gs with
      | nil => exact ⟨rfl, (List.cons.inj hstart).1.symm⟩
      | cons g gs => simp at hstart
    obtain ⟨n, b, hb, _, _, hclean⟩ := hm.2 m.beginField (by simp [wireFields])
    have hrest : m.wireFields = m.beginField :: (hs ++ rest) := hpiece.fields_eq
    have hfresh : Fields.beginString ∉ (hs ++ rest).map Prod.fst := by
      have hnodup := m.wireFields_keys_nodup
      rw [hrest, List.map_cons, List.nodup_cons] at hnodup
      exact hnodup.1
    have hvalue := hget m.beginField (by simp [wireFields])
    have hfirst := hpiece.get?_eq_firstField hm.2 hfresh
    rw [show m.beginField.1 = Fields.beginString from rfl, hfirst, hb] at hvalue
    have hbefore := hpiece.before_eq
    have hbare : bareText m.beginField = beginMark ++ b := by
      rw [bareText, hb, beginMark_eq]
      have hn : (.tag n : FieldType) = Fields.beginString := (congrArg Prod.fst hb).symm
      rw [hn]
      rfl
    rw [fieldsText_nil, List.nil_append, hbare] at hbefore
    exact eq_of_get?_firstField hclean hbefore hvalue
  · -- CheckSum is found whole, so the piece ends behind it
    have hcut : m.wireFields = (m.beginField :: m.lengthField :: m.bodyFields) ++
        m.checkSumField :: [] := rfl
    rcases hpiece.cases_of_get? hm.2 m.wireFields_keys_nodup hcut
      (by decide : Fields.checkSum ≠ Fields.beginString)
      (hget m.checkSumField (by simp [wireFields])) with
      ⟨_, hs2, _, _, hrest⟩ | ⟨_, hrest, s, hs', hpart⟩
    · left
      obtain ⟨_, rfl⟩ := List.append_eq_nil_iff.mp hrest.symm
      exact (List.append_eq_nil_iff.mp hpiece.after_eq).2
    · right
      have hafter := hpiece.after_eq
      rw [hrest, fieldsText_cons, fieldText_eq, bareText, hpart, hs'] at hafter
      simpa using hafter

/-- The text of a message as the parser reads it in one piece. -/
theorem processText_wireText (hm : m.Clean) : processText m.wireText = [m.encoded] := by
  have hread : readFields .empty m.wireFields = m.encoded := by
    ext1
    apply OrderedMap.ext
    exact entries_readFields_of_stored m.wireFields_keys_nodup fun f hf => (hm.2 f hf).storedField_eq
  obtain ⟨fs, hfs, hkey⟩ := m.wireFields_eq_cons
  rw [wireText, hfs, processText_fieldsText (fun f hf => hm.plainField f (hfs ▸ hf)) rfl hkey,
    ← hfs, hread, acceptMessage_encoded hm.1]
  rfl

/-- A message starts with `8=` and a value without a second begin mark, and ends in SOH. -/
theorem wireText_eq (hm : m.Clean) : ∃ b t, m.wireText = beginMark ++ (b ++ SOH :: (t ++ [SOH])) ∧
    EQ ∉ b := by
  obtain ⟨n, b, hb, _, _, hclean⟩ := hm.2 m.beginField (by simp [wireFields])
  have hn : (.tag n : FieldType) = Fields.beginString := (congrArg Prod.fst hb).symm
  refine ⟨b, fieldsText (m.lengthField :: m.bodyFields) ++ bareText m.checkSumField, ?_, hclean⟩
  rw [wireText, wireFields, fieldsText_cons, fieldText_eq, bareText, hb, hn, beginMark_eq]
  simp [fieldText_eq]
  rfl

/-- A piece that has all of a message except a leading `8=` and the last SOH is
returned as the whole message. -/
theorem processText_eq_singleton (hm : m.Clean) (h : m.wireText = x ++ p ++ y)
    (hx : x = [] ∨ x = beginMark) (hy : y = [] ∨ y = [SOH]) : processText p = [m.encoded] := by
  have hend : processText (p ++ y) = processText p := by
    rcases hy with rfl | rfl
    · rw [List.append_nil]
    · exact processText_append_cons p (Or.inl rfl)
  rw [← hend, ← hm.processText_wireText, h, List.append_assoc]
  rcases hx with rfl | rfl
  · rfl
  · obtain ⟨b, t, hwire, hb⟩ := hm.wireText_eq
    have htail : p ++ y = b ++ SOH :: (t ++ [SOH]) := by
      have hsame : beginMark ++ (p ++ y) = beginMark ++ (b ++ SOH :: (t ++ [SOH])) := by
        rw [← hwire, h, List.append_assoc]
      exact List.append_cancel_left hsame
    rw [processText_beginMark_append (htail ▸ not_beginMark_isPrefix hb _)]

end Clean

end Message

end NestQuickfix
