import Mathlib.Data.ENat.Basic
import Mathlib.Data.List.Sort
import NestQuickfix.Lib.Json
import NestQuickfix.Message.Frames
import NestQuickfix.Message.Injection

/-!
# Messages as JSON

`stringify` stores the fields of a message as an object with the tags as keys. An object
enumerates its integer-like keys in ascending order and the others behind them in insertion
order, so the message that is read back has its fields in that order. Which integers count as
integer-like is left open.
-/

namespace NestQuickfix

open Lib Lib.OrderedMap

section Objects

variable (isIndex : ℕ → Bool)

/-- Where an object enumerates a key: at its number, or behind all numbers. -/
def keyRank (key : JSString) : ℕ∞ :=
  if key = natText (digitsValue 10 key) ∧ isIndex (digitsValue 10 key) = true then
    (digitsValue 10 key : ℕ)
  else ⊤

/-- `Object.entries` of an object whose properties were created in the order of the map. -/
def objectEntries {ν : Type*} (properties : OrderedMap JSString ν) : List (JSString × ν) :=
  properties.entries.insertionSort fun a b => keyRank isIndex a.1 ≤ keyRank isIndex b.1

end Objects

/-- The number written by decimal digits. -/
def decimalValue (s : JSString) : Option ℕ :=
  if s ≠ [] ∧ s.all (isRadixDigit 10) then some (digitsValue 10 s) else none

/-- A text without the white space around it. -/
def trim (s : JSString) : JSString :=
  ((s.dropWhile isWhiteSpace).reverse.dropWhile isWhiteSpace).reverse

/-- `Number(s)` of a text that is a decimal integer; other number formats are not read. -/
def toNumber (s : JSString) : Number :=
  match trim s with
  | [] => .int 0
  | 45 :: t => (decimalValue t).elim .nan fun n => .int (-n)
  | 43 :: t => (decimalValue t).elim .nan fun n => .int n
  | t => (decimalValue t).elim .nan fun n => .int n

/-- The JSON representation of a message. -/
structure MessageJSON where
  fields : OrderedMap JSString Value

/-- What a JSON text says of a value. Only strings are written. -/
def Value.toJson : Value → Option Json
  | .str s => some (.string s)
  | _ => none

/-- A value of a JSON text. -/
def storedValue : Json → Value
  | .string s => .str s
  | .object _ => .other (some (js "[object Object]"))

namespace Message

/-- `toJSON`. -/
def toJSON (m : Message) : MessageJSON :=
  ⟨ofList (m.fields.entries.map fun f => (f.1.text, f.2))⟩

/-- `fromJSON` of the entries of the `fields` property. -/
def fromEntries (entries : List (JSString × Value)) : Message :=
  empty.setFields (entries.map fun e => (.num (toNumber e.1), e.2))

variable (isIndex : ℕ → Bool)

/-- `stringify`. There is no text if a value is not a string. -/
def stringify (m : Message) : Option JSString := do
  let members ← (objectEntries isIndex m.toJSON.fields).mapM fun e =>
    e.2.toJson.map fun value => (e.1, value)
  return (Json.object [(js "fields", .object members)]).text

/-- `parse`: `Object.entries` throws if there is no `fields` property, and takes the code units
of a string one by one. -/
def parse (jsonString : JSString) : Option Message := do
  match ← Json.parse jsonString with
  | .string _ => none
  | .object members =>
    match ← lastValue members (js "fields") with
    | .string s => return fromEntries (s.mapIdx fun i u => (natText i, .str [u]))
    | .object fields =>
      return fromEntries (objectEntries isIndex (ofList (fields.map fun e => (e.1, storedValue e.2))))

/-! ## Storing and reading back -/

/-- The fields in the order in which an object enumerates their tags. -/
def enumeratedFields (m : Message) : List Field :=
  m.fields.entries.insertionSort fun f g => keyRank isIndex f.1.text ≤ keyRank isIndex g.1.text

theorem enumeratedFields_perm (m : Message) :
    (m.enumeratedFields isIndex).Perm m.fields.entries :=
  List.perm_insertionSort _ _

end Message

/-- A printed number is read back by `Number`. -/
theorem toNumber_natText (n : ℕ) : toNumber (natText n) = .int n := by
  have hspace : ∀ u ∈ natText n, isWhiteSpace u = false := by
    intro u hu
    have hdigit := natText_digits n u hu
    simp only [isWhiteSpace, decide_eq_false_iff_not, List.mem_cons, List.not_mem_nil, or_false]
    omega
  have hdrop : ∀ s : JSString, (∀ u ∈ s, u ∈ natText n) → s.dropWhile isWhiteSpace = s := by
    intro s hs
    refine List.dropWhile_eq_self_iff.mpr fun hpos => ?_
    rw [hspace _ (hs _ (List.getElem_mem hpos))]
    exact Bool.false_ne_true
  have htrim : trim (natText n) = natText n := by
    rw [trim, hdrop _ fun _ hu => hu, hdrop _ fun _ hu => List.mem_reverse.mp hu,
      List.reverse_reverse]
  have hdecimal : decimalValue (natText n) = some n := by
    have hall : (natText n).all (isRadixDigit 10) = true :=
      List.all_eq_true.mpr fun u hu => isRadixDigit_of_digit (natText_digits n u hu)
    rw [decimalValue, if_pos ⟨natText_ne_nil n, hall⟩, digitsValue_natText]
  have hdigits := natText_digits n
  rw [toNumber, htrim]
  split
  · next heq => exact absurd heq (natText_ne_nil n)
  · next t heq => exact absurd (hdigits 45 (by simp [heq])) (by decide)
  · next t heq => exact absurd (hdigits 43 (by simp [heq])) (by decide)
  · rw [hdecimal]
    rfl

theorem text_nodup {fs : List Field} (hfs : ∀ f ∈ fs, StringField f)
    (hnodup : (fs.map Prod.fst).Nodup) : (fs.map fun f => f.1.text).Nodup := by
  have hmap : (fs.map fun f => f.1.text) = (fs.map Prod.fst).map FieldType.text := by
    rw [List.map_map]
    rfl
  rw [hmap]
  refine hnodup.map_on ?_
  intro t ht t' ht' htext
  obtain ⟨f, hf, rfl⟩ := List.mem_map.mp ht
  obtain ⟨g, hg, rfl⟩ := List.mem_map.mp ht'
  obtain ⟨n, v, rfl⟩ := hfs f hf
  obtain ⟨k, w, rfl⟩ := hfs g hg
  exact congrArg FieldType.tag (natText_injective htext)

namespace Message

variable (isIndex : ℕ → Bool) {m : Message}

/-- The entries of the object that `toJSON` returns. -/
theorem objectEntries_toJSON (hfields : ∀ f ∈ m.fields.entries, StringField f) :
    objectEntries isIndex m.toJSON.fields =
      (m.enumeratedFields isIndex).map fun f => (f.1.text, f.2) := by
  have hnodup := text_nodup hfields m.fields.nodup
  have hentries : m.toJSON.fields.entries = m.fields.entries.map fun f => (f.1.text, f.2) := by
    refine entries_ofList ?_
    rw [List.map_map]
    exact hnodup
  rw [objectEntries, hentries, enumeratedFields]
  exact (List.map_insertionSort
    (fun f g : Field => keyRank isIndex f.1.text ≤ keyRank isIndex g.1.text)
    (fun a b : JSString × Value => keyRank isIndex a.1 ≤ keyRank isIndex b.1) _ _
    fun _ _ _ _ => Iff.rfl).symm

/-- The members of the object in the text. -/
def storedMembers (m : Message) : List (JSString × Json) :=
  (m.enumeratedFields isIndex).map fun f => (f.1.text, .string f.2.printed)

theorem stringify_eq (hfields : ∀ f ∈ m.fields.entries, StringField f) : m.stringify isIndex =
    some (Json.object [(js "fields", .object (m.storedMembers isIndex))]).text := by
  have hmembers : ∀ fs : List Field, (∀ f ∈ fs, StringField f) →
      (fs.map fun f => (f.1.text, f.2)).mapM
        (fun e => e.2.toJson.map fun value => (e.1, value)) =
          some (fs.map fun f => (f.1.text, Json.string f.2.printed)) := by
    intro fs hfs
    induction fs with
    | nil => rfl
    | cons f fs ih =>
      obtain ⟨n, v, rfl⟩ := hfs f List.mem_cons_self
      rw [List.map_cons, List.mapM_cons, ih fun g hg => hfs g (List.mem_cons_of_mem _ hg)]
      rfl
  have hsorted : ∀ f ∈ m.enumeratedFields isIndex, StringField f := fun f hf =>
    hfields f ((m.enumeratedFields_perm isIndex).mem_iff.mp hf)
  rw [stringify, objectEntries_toJSON isIndex hfields, hmembers _ hsorted]
  rfl

/-- The object that is read enumerates its members in the order of the text. -/
theorem objectEntries_storedMembers (hfields : ∀ f ∈ m.fields.entries, StringField f) :
    objectEntries isIndex (ofList ((m.storedMembers isIndex).map fun e => (e.1, storedValue e.2))) =
      (m.enumeratedFields isIndex).map fun f => (f.1.text, f.2) := by
  have hperm := m.enumeratedFields_perm isIndex
  have hsorted : ∀ f ∈ m.enumeratedFields isIndex, StringField f := fun f hf =>
    hfields f (hperm.mem_iff.mp hf)
  have hmembers : (m.storedMembers isIndex).map (fun e => (e.1, storedValue e.2)) =
      (m.enumeratedFields isIndex).map fun f => (f.1.text, f.2) := by
    rw [storedMembers, List.map_map]
    refine List.map_congr_left fun f hf => ?_
    obtain ⟨n, v, rfl⟩ := hsorted f hf
    rfl
  have hnodup : ((m.enumeratedFields isIndex).map fun f => f.1.text).Nodup :=
    text_nodup hsorted ((hperm.map Prod.fst).nodup_iff.mpr m.fields.nodup)
  rw [objectEntries, hmembers, entries_ofList (by rw [List.map_map]; exact hnodup)]
  refine List.Pairwise.insertionSort_eq (List.pairwise_map.mpr ?_)
  exact List.pairwise_insertionSort _ _

/-- What is stored is read back in the order of enumeration. -/
theorem parse_stringify (hfields : ∀ f ∈ m.fields.entries, StringField f) :
    ∃ text m', m.stringify isIndex = some text ∧ parse isIndex text = some m' ∧
      m'.fields.entries = m.enumeratedFields isIndex := by
  have hperm := m.enumeratedFields_perm isIndex
  have hback : ((m.enumeratedFields isIndex).map fun f => (f.1.text, f.2)).map
      (fun e => (FieldType.num (toNumber e.1), e.2)) = m.enumeratedFields isIndex := by
    rw [List.map_map]
    refine (List.map_congr_left fun f hf => ?_).trans (List.map_id _)
    obtain ⟨n, v, rfl⟩ := hfields f (hperm.mem_iff.mp hf)
    exact congrArg (fun k => (FieldType.num k, Value.str v)) (toNumber_natText n)
  refine ⟨_, fromEntries ((m.enumeratedFields isIndex).map fun f => (f.1.text, f.2)),
    stringify_eq isIndex hfields, ?_, ?_⟩
  · rw [parse, Json.parse_text, ← objectEntries_storedMembers isIndex hfields]
    rfl
  · rw [fromEntries, hback, fields_setFields_empty,
      entries_ofList ((hperm.map Prod.fst).nodup_iff.mpr m.fields.nodup)]

/-! ## The wire form -/

/-- Two orders of the same fields have different texts. -/
theorem fieldsText_perm_inj {fs gs : List Field} (hperm : fs.Perm gs)
    (hfs : ∀ f ∈ fs, StringField f) (hnodup : (fs.map Prod.fst).Nodup)
    (htext : fieldsText fs = fieldsText gs) : fs = gs := by
  induction fs generalizing gs with
  | nil => exact hperm.nil_eq
  | cons f fs ih =>
    cases gs with
    | nil => exact hperm.eq_nil
    | cons g gs =>
      have hg : g ∈ f :: fs := hperm.mem_iff.mpr List.mem_cons_self
      have hkey : f.1 = g.1 := by
        obtain ⟨n, v, rfl⟩ := hfs f List.mem_cons_self
        obtain ⟨k, w, rfl⟩ := hfs g hg
        simp only [fieldsText_cons, fieldText, List.append_assoc, List.cons_append] at htext
        have htag := (append_cons_inj_of_notMem_left (EQ_notMem_natText n) (EQ_notMem_natText k)
          htext).1
        exact congrArg FieldType.tag (natText_injective htag)
      obtain rfl : f = g := List.inj_on_of_nodup_map hnodup List.mem_cons_self hg hkey
      rw [fieldsText_cons, fieldsText_cons, List.append_cancel_left_eq] at htext
      rw [ih hperm.cons_inv (fun h hh => hfs h (List.mem_cons_of_mem _ hh))
        (List.nodup_cons.mp hnodup).2 htext]

/-- A stored message is written as before. -/
def StoredAlike (m : Message) : Prop :=
  ∃ text m', m.stringify isIndex = some text ∧ parse isIndex text = some m' ∧
    m'.toString = m.toString

/-- The condition: the fields without a place of their own are in the order of enumeration. -/
def InKeyOrder (m : Message) : Prop :=
  m.otherFields.Pairwise fun f g => keyRank isIndex f.1.text ≤ keyRank isIndex g.1.text

theorem otherFields_enumerated_eq_iff {m' : Message}
    (h : m'.fields.entries = m.enumeratedFields isIndex) :
    m'.otherFields = m.otherFields ↔ m.InKeyOrder isIndex := by
  have hpairwise : m'.otherFields.Pairwise fun f g =>
      keyRank isIndex f.1.text ≤ keyRank isIndex g.1.text := by
    rw [otherFields, h]
    exact (List.pairwise_insertionSort _ _).sublist List.filter_sublist
  constructor
  · intro heq
    rw [InKeyOrder, ← heq]
    exact hpairwise
  · intro horder
    -- the sort is stable, so it keeps fields that are in order already
    have hstable : m.otherFields.Sublist (m.enumeratedFields isIndex) :=
      List.sublist_insertionSort horder List.filter_sublist
    have hfilter := hstable.filter fun f => decide (f.1 ∉ placedFields)
    have hsub : m.otherFields.Sublist m'.otherFields := by
      rw [← h] at hfilter
      have hself : (m.otherFields.filter fun f => decide (f.1 ∉ placedFields)) = m.otherFields :=
        List.filter_eq_self.mpr fun f hf => (List.mem_filter.mp hf).2
      rwa [hself] at hfilter
    have hperm : m'.otherFields.Perm m.otherFields := by
      rw [otherFields, otherFields, h]
      exact (m.enumeratedFields_perm isIndex).filter _
    exact (hsub.eq_of_length hperm.length_eq.symm).symm

theorem bodyFields_perm {m' : Message} (hperm : m'.fields.entries.Perm m.fields.entries)
    (hget : ∀ t, m'.getField t = m.getField t)
    (hrequired : ∀ f ∈ requiredFields, m.hasField f = true)
    (hrequired' : ∀ f ∈ requiredFields, m'.hasField f = true) :
    m'.bodyFields.Perm m.bodyFields := by
  rw [← laidOutBody_eq hrequired, ← laidOutBody_eq hrequired', laidOutBody, laidOutBody]
  simp only [hget]
  exact (hperm.filter _).append_left _

/-- Messages with the same fields are written alike exactly when the fields without a place of
their own are in the same order. -/
theorem wireText_eq_iff {m' : Message} (hperm : m'.fields.entries.Perm m.fields.entries)
    (hfields : ∀ f ∈ m.fields.entries, StringField f)
    (hget : ∀ t, m'.getField t = m.getField t)
    (hrequired : ∀ f ∈ requiredFields, m.hasField f = true)
    (hrequired' : ∀ f ∈ requiredFields, m'.hasField f = true) :
    m'.wireText = m.wireText ↔ m'.otherFields = m.otherFields := by
  have hbody : m'.bodyFields = m.bodyFields ↔ m'.otherFields = m.otherFields := by
    rw [← laidOutBody_eq hrequired, ← laidOutBody_eq hrequired', laidOutBody, laidOutBody]
    simp only [hget, List.append_cancel_left_eq]
  rw [← hbody]
  have hbegin : m'.beginField = m.beginField := by rw [beginField, beginField, hget]
  constructor
  · intro htext
    have hbodies := bodyFields_perm hperm hget hrequired hrequired'
    have hlength : m'.bodyText.length = m.bodyText.length := by
      rw [bodyText, bodyText, fieldsText, fieldsText, List.length_flatMap, List.length_flatMap]
      exact (hbodies.map _).sum_eq
    have hlengthField : m'.lengthField = m.lengthField := by
      rw [lengthField, lengthField, hlength]
    have hown : ∀ f ∈ m'.bodyFields, StringField f := by
      intro f hf
      refine hfields f ?_
      have hmem := hbodies.mem_iff.mp hf
      obtain ⟨_, h9, h10⟩ := key_of_mem_bodyFields hmem
      refine (mem_wireFields_iff hrequired h9 h10).mp ?_
      simp [wireFields, hmem]
    rw [wireText, wireText, wireFields, wireFields, hbegin, hlengthField] at htext
    simp only [fieldsText_cons, fieldsText_append, List.append_cancel_left_eq] at htext
    exact fieldsText_perm_inj hbodies hown m'.bodyFields_keys_nodup
      (List.append_inj htext hlength).1
  · intro heq
    simp only [wireText, wireFields, checkSumField, checkedText, lengthField, bodyText, hbegin, heq]

/-- Storing keeps the wire form exactly when the fields without a place of their own stand in
the order in which an object enumerates them. -/
theorem storedAlike_iff {raw : JSString} (hraw : m.toString = .ok raw)
    (hfields : ∀ f ∈ m.fields.entries, ∃ n s, 0 < n ∧ f = (.tag n, .str s)) :
    m.StoredAlike isIndex ↔ m.InKeyOrder isIndex := by
  have hstring : ∀ f ∈ m.fields.entries, StringField f := by
    intro f hf
    obtain ⟨n, s, _, hfield⟩ := hfields f hf
    exact ⟨n, s, hfield⟩
  obtain ⟨hrequired, hbegin, hbody, rfl⟩ := toString_eq_ok_iff.mp hraw
  obtain ⟨text, m', htext, hparse, hentries⟩ := parse_stringify isIndex hstring
  have hperm : m'.fields.entries.Perm m.fields.entries := by
    rw [hentries]
    exact m.enumeratedFields_perm isIndex
  have hlookup : ∀ t, m'.fields.get? t = m.fields.get? t := by
    intro t
    ext v
    rw [get?_eq_some_iff, get?_eq_some_iff, hperm.mem_iff]
  have hget : ∀ t, m'.getField t = m.getField t := fun t => by rw [getField, getField, hlookup]
  have hrequired' : ∀ f ∈ requiredFields, m'.hasField f = true := by
    intro f hf
    rw [hasField, has_eq_isSome, hlookup, ← has_eq_isSome]
    exact hrequired f hf
  have hraw' : m'.toString = .ok m'.wireText := by
    refine toString_eq_ok_iff.mpr ⟨hrequired', ?_, fun f hf => hbody f ?_, rfl⟩
    · rw [hget]
      exact hbegin
    · exact (bodyFields_perm hperm hget hrequired hrequired').mem_iff.mp hf
  have halike : m.StoredAlike isIndex ↔ m'.toString = m.toString := by
    constructor
    · rintro ⟨text', m'', htext', hparse', heq⟩
      obtain rfl := Option.some.inj (htext'.symm.trans htext)
      obtain rfl := Option.some.inj (hparse'.symm.trans hparse)
      exact heq
    · exact fun heq => ⟨text, m', htext, hparse, heq⟩
  rw [halike, hraw, hraw', Except.ok.injEq, wireText_eq_iff hperm hstring hget hrequired hrequired',
    otherFields_enumerated_eq_iff isIndex hentries]

/-- A news message with a signature behind its length. -/
def signedNews : Message :=
  ofStrings [(8, js "FIX.4.4"), (35, js "B"), (49, js "A"), (56, js "B"), (34, js "1"),
    (52, js "20250101-00:00:00"), (93, js "3"), (89, js "abc")]

/-- The same message written with all integers as integer-like keys. -/
theorem storedAlike_iff_signedNews :
    signedNews.StoredAlike (fun _ => true) ↔ signedNews.InKeyOrder fun _ => true := by
  have hraw : signedNews.toString = .ok signedNews.wireText := by decide +kernel
  refine storedAlike_iff _ hraw fun f hf => ?_
  obtain ⟨p, hp, rfl⟩ := mem_of_mem_ofStrings hf
  refine ⟨p.1, p.2, ?_, rfl⟩
  revert p
  decide

/-- The signature is read back in front of its length. -/
theorem not_storedAlike_signedNews :
    ((signedNews.stringify fun _ => true).bind (parse fun _ => true)).map otherFields =
        some [(.tag 89, .str (js "abc")), (.tag 93, .str (js "3"))] ∧
      ¬ signedNews.StoredAlike fun _ => true := by
  refine ⟨by decide +kernel, ?_⟩
  rintro ⟨text, m', htext, hparse, heq⟩
  have hstored : ((signedNews.stringify fun _ => true).bind (parse fun _ => true)).map toString =
      some signedNews.toString := by
    rw [htext, Option.bind_some, hparse, Option.map_some, heq]
  exact absurd hstored (by decide +kernel)

end Message

end NestQuickfix
