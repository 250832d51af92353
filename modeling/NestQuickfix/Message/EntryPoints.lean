import NestQuickfix.Message.Spelling
import NestQuickfix.Protocol.Parser

/-!
# The two entry points of the parser

`parse` reads a string and `processData` a chunk of data. Both split at SOH and `=`, but
`processData` ignores a piece without tag, `=` or value, and `parse` stores what there is of it.
-/

namespace NestQuickfix

open Lib Lib.OrderedMap

/-- `parse`. Its `parseFields` is the same code as that of the protocol package, and nothing in it
throws. -/
def FIXMessageParser.parse (rawMessage : JSString) : Message :=
  Message.empty.setFields (Protocol.parseFields rawMessage).entries

/-- What `parse` stores for a piece that is not empty. -/
def pairField (pair : JSString) : Field :=
  (.num (parseInt (readable pair)), (pair.splitOn EQ)[1]?.elim .undefined .str)

/-- The pieces that `parse` does not skip. -/
def pairs (text : JSString) : List JSString := (text.splitOn SOH).filter (· ≠ [])

theorem parsePair_eq (fields : OrderedMap FieldType Value) {pair : JSString} (h : pair ≠ []) :
    Protocol.parsePair fields pair = fields.set (pairField pair).1 (pairField pair).2 := by
  obtain ⟨rest, hsplit⟩ := splitOn_eq_readable_cons pair
  rw [Protocol.parsePair, if_neg h, pairField, hsplit]
  cases rest <;> rfl

/-- `parse` stores the fields of the pieces one after the other. -/
theorem fields_parse (text : JSString) :
    (FIXMessageParser.parse text).fields = ofList ((pairs text).map pairField) := by
  have hfold : ∀ (texts : List JSString) (fields : OrderedMap FieldType Value),
      texts.foldl Protocol.parsePair fields = ((texts.filter (· ≠ [])).map pairField).foldl
        (fun m e => m.set e.1 e.2) fields := by
    intro texts
    induction texts with
    | nil => exact fun _ => rfl
    | cons text texts ih =>
      intro fields
      rw [List.foldl_cons, ih]
      by_cases htext : text = []
      · rw [htext, Protocol.parsePair, if_pos rfl, List.filter_cons_of_neg (by simp)]
      · rw [parsePair_eq fields htext, List.filter_cons_of_pos (by simpa using htext)]
        rfl
  have hparse : FIXMessageParser.parse text = ⟨Protocol.parseFields text⟩ :=
    Message.setFields_empty_entries ⟨Protocol.parseFields text⟩
  rw [hparse]
  exact hfold (text.splitOn SOH) .empty

/-- `processData` takes from a piece what `parse` stores for it, or ignores it. -/
theorem reading_eq {piece : JSString} {f : Field} (h : reading piece = some f) :
    piece ≠ [] ∧ pairField piece = f := by
  refine ⟨?_, ?_⟩
  · rintro rfl
    cases h
  · obtain ⟨rest, hsplit⟩ := splitOn_eq_readable_cons piece
    rw [reading, hsplit] at h
    rw [pairField, hsplit]
    rcases rest with _ | ⟨value, rest⟩
    · cases h
    · dsimp only at h
      split at h
      · exact Option.some.inj h
      · cases h

/-- A piece with a tag is ignored if it has no value. -/
theorem value_of_ignored {piece : JSString} (h : reading piece = none)
    (htag : readable piece ≠ []) :
    (pairField piece).2 = .undefined ∨ (pairField piece).2 = .str [] := by
  obtain ⟨rest, hsplit⟩ := splitOn_eq_readable_cons piece
  rw [reading, hsplit] at h
  rw [pairField, hsplit]
  rcases rest with _ | ⟨value, rest⟩
  · exact Or.inl rfl
  · dsimp only at h
    right
    split at h
    · cases h
    · next hread =>
      rw [not_and, not_not] at hread
      rw [← hread htag]
      rfl

/-! ## Agreement -/

/-- Two messages have the same tags and the same values. -/
def SameFields (m n : Message) : Prop := ∀ t, m.fields.get? t = n.fields.get? t

/-- The condition: a piece without tag, `=` or value is followed by another piece with its tag,
or it has an empty tag and repeats the last value that came with a tag that is no number. -/
def IgnoredWithoutEffect (text : JSString) : Prop :=
  ∀ before piece after, text.splitOn SOH = before ++ piece :: after → piece ≠ [] →
    reading piece = none → (∃ later ∈ after, later ≠ [] ∧ (pairField later).1 = (pairField piece).1) ∨
      (readable piece = [] ∧
        lastValue (before.filterMap reading) (.num .nan) = some (pairField piece).2)

section LastPieces

variable {texts after : List JSString} {piece : JSString} {t : FieldType}

/-- What `parse` and `processData` store for a tag of which a piece is the last one. -/
theorem lastValue_of_last (before : List JSString) (hpiece : piece ≠ [])
    (hlast : ∀ later ∈ after, later ≠ [] → (pairField later).1 ≠ (pairField piece).1) :
    lastValue (((before ++ piece :: after).filter (· ≠ [])).map pairField) (pairField piece).1 =
        some (pairField piece).2 ∧
      lastValue ((before ++ piece :: after).filterMap reading) (pairField piece).1 =
        if reading piece = none then lastValue (before.filterMap reading) (pairField piece).1
        else some (pairField piece).2 := by
  have hpairs : (pairField piece).1 ∉ ((after.filter (· ≠ [])).map pairField).map Prod.fst := by
    simp only [List.mem_map, List.mem_filter, decide_eq_true_eq, not_exists, not_and]
    rintro _ ⟨later, ⟨hlater, hne⟩, rfl⟩
    exact hlast later hlater hne
  have hreadings : (pairField piece).1 ∉ (after.filterMap reading).map Prod.fst := by
    simp only [List.mem_map, List.mem_filterMap, not_exists, not_and]
    rintro f ⟨later, hlater, hread⟩
    obtain ⟨hne, rfl⟩ := reading_eq hread
    exact hlast later hlater hne
  constructor
  · rw [List.filter_append, List.filter_cons_of_pos (by simpa using hpiece), List.map_append,
      List.map_cons, lastValue_append_cons hpairs]
  · cases hread : reading piece with
    | none =>
      rw [if_pos rfl, List.filterMap_append, List.filterMap_cons_none hread, lastValue_append,
        lastValue_eq_none_iff.mpr hreadings]
      rfl
    | some f =>
      obtain ⟨_, rfl⟩ := reading_eq hread
      rw [if_neg (by simp), List.filterMap_append, List.filterMap_cons_some hread,
        lastValue_append_cons hreadings]

/-- Every tag that `parse` stores has a last piece. -/
theorem exists_last_piece (h : t ∈ ((texts.filter (· ≠ [])).map pairField).map Prod.fst) :
    ∃ before piece after, texts = before ++ piece :: after ∧ piece ≠ [] ∧
      (pairField piece).1 = t ∧ ∀ later ∈ after, later ≠ [] → (pairField later).1 ≠ t := by
  induction texts with
  | nil => cases h
  | cons text texts ih =>
    by_cases hlater : t ∈ ((texts.filter (· ≠ [])).map pairField).map Prod.fst
    · obtain ⟨before, piece, after, rfl, hrest⟩ := ih hlater
      exact ⟨text :: before, piece, after, rfl, hrest⟩
    · have htext : text ≠ [] := by
        rintro rfl
        exact hlater h
      rw [List.filter_cons_of_pos (by simpa using htext), List.map_cons, List.map_cons,
        List.mem_cons] at h
      refine ⟨[], text, texts, rfl, htext, (h.resolve_right hlater).symm, ?_⟩
      rintro later hmem hne rfl
      exact hlater (List.mem_map_of_mem (List.mem_map_of_mem
        (List.mem_filter.mpr ⟨hmem, by simpa using hne⟩)))

/-- A piece without a tag is stored under the tag that is no number. -/
theorem tag_of_readable (h : readable piece = []) : (pairField piece).1 = .num .nan := by
  rw [pairField, h]
  rfl

/-- An ignored piece that repeats a value of another one has no tag: what is read is not empty. -/
theorem readable_of_repeated (hignored : reading piece = none)
    (hvalue : lastValue (texts.filterMap reading) t = some (pairField piece).2) :
    readable piece = [] := by
  obtain ⟨taken, _, hread⟩ := List.mem_filterMap.mp (mem_of_lastValue_eq_some hvalue)
  obtain ⟨s, hs, hne, _⟩ := value_of_reading hread
  by_contra htag
  rcases value_of_ignored hignored htag with hnone | hempty
  · rw [hnone] at hs
    cases hs
  · rw [hempty] at hs
    exact hne (Value.str.inj hs).symm

end LastPieces

/-- The message of data that begins with `8=` and has no SOH before another `8=`. -/
theorem fields_of_processData {data : List UInt8} {m : Message} (h : processData data = [m])
    (hbegin : beginMark <+: ofUtf8 data) (hone : ¬ SOH :: beginMark <:+: ofUtf8 data) :
    m.fields = ofList (((ofUtf8 data).splitOn SOH).filterMap reading) := by
  rw [processData, processText, splitSeq_eq_singleton hone, List.filterMap_cons,
    List.filterMap_nil] at h
  have hpart : parsePart (ofUtf8 data) = some m := by
    cases hpart : parsePart (ofUtf8 data) with
    | none =>
      rw [hpart] at h
      cases h
    | some m' =>
      rw [hpart] at h
      exact congrArg some (List.cons.inj h).1
  obtain ⟨_, rfl⟩ := parsePart_eq_some_iff.mp hpart
  rw [Message.fields_setFields_empty, fieldTexts, restoreBeginMark, if_pos hbegin]

/-- On data that is one message, `parse` returns what `processData` returns exactly when no
ignored piece has an effect. -/
theorem sameFields_parse_iff {data : List UInt8} {m : Message} (h : processData data = [m])
    (hbegin : beginMark <+: ofUtf8 data) (hone : ¬ SOH :: beginMark <:+: ofUtf8 data) :
    SameFields m (FIXMessageParser.parse (ofUtf8 data)) ↔ IgnoredWithoutEffect (ofUtf8 data) := by
  unfold SameFields
  rw [fields_of_processData h hbegin hone, fields_parse]
  simp only [get?_ofList, pairs]
  constructor
  · intro hsame before piece after hsplit hpiece hignored
    by_cases hlater : ∃ later ∈ after, later ≠ [] ∧ (pairField later).1 = (pairField piece).1
    · exact Or.inl hlater
    · right
      push Not at hlater
      obtain ⟨hparse, hdata⟩ := lastValue_of_last before hpiece hlater
      have hvalue := hsame (pairField piece).1
      rw [hsplit, hparse, hdata, if_pos hignored] at hvalue
      have htag := readable_of_repeated hignored hvalue
      rw [tag_of_readable htag] at hvalue
      exact ⟨htag, hvalue⟩
  · intro hcond t
    by_cases htag : t ∈ ((((ofUtf8 data).splitOn SOH).filter (· ≠ [])).map pairField).map Prod.fst
    · obtain ⟨before, piece, after, hsplit, hpiece, rfl, hlast⟩ := exists_last_piece htag
      obtain ⟨hparse, hdata⟩ := lastValue_of_last before hpiece hlast
      rw [hsplit, hparse, hdata]
      split
      · next hignored =>
        rcases hcond before piece after hsplit hpiece hignored with ⟨later, hlater, hne, hkey⟩ |
          ⟨hempty, hvalue⟩
        · exact absurd hkey (hlast later hlater hne)
        · rw [tag_of_readable hempty]
          exact hvalue
      · rfl
    · rw [lastValue_eq_none_iff.mpr htag, lastValue_eq_none_iff]
      rintro hmem
      obtain ⟨f, hf, rfl⟩ := List.mem_map.mp hmem
      obtain ⟨piece, hpiece, hread⟩ := List.mem_filterMap.mp hf
      obtain ⟨hne, rfl⟩ := reading_eq hread
      exact htag (List.mem_map_of_mem (List.mem_map_of_mem
        (List.mem_filter.mpr ⟨hpiece, by simpa using hne⟩)))

/-- A news message without a text. -/
def newsWithoutText : List UInt8 := toUtf8 (js "8=FIX.4.4\x0135=B\x0158=\x01")

theorem sameFields_parse_iff_newsWithoutText :
    ∃ m, processData newsWithoutText = [m] ∧
      (SameFields m (FIXMessageParser.parse (ofUtf8 newsWithoutText)) ↔
        IgnoredWithoutEffect (ofUtf8 newsWithoutText)) := by
  obtain ⟨m, hm⟩ : ∃ m, processData newsWithoutText = [m] :=
    List.length_eq_one_iff.mp (by decide +kernel)
  exact ⟨m, hm, sameFields_parse_iff hm (by decide +kernel) (by decide +kernel)⟩

/-- `parse` returns the field with its empty value, `processData` returns no such field. -/
theorem not_sameFields_newsWithoutText : ∃ m, processData newsWithoutText = [m] ∧
    m.fields.get? Fields.text = none ∧
    (FIXMessageParser.parse (ofUtf8 newsWithoutText)).fields.get? Fields.text = some (.str []) ∧
    ¬ SameFields m (FIXMessageParser.parse (ofUtf8 newsWithoutText)) := by
  obtain ⟨m, hm, htext⟩ : ∃ m ∈ processData newsWithoutText, m.fields.get? Fields.text = none := by
    decide +kernel
  have hone : (processData newsWithoutText).length = 1 := by decide +kernel
  obtain ⟨m', hm'⟩ := List.length_eq_one_iff.mp hone
  have hparse : (FIXMessageParser.parse (ofUtf8 newsWithoutText)).fields.get? Fields.text =
      some (.str []) := by decide +kernel
  rw [hm', List.mem_singleton] at hm
  refine ⟨m, hm ▸ hm', htext, hparse, fun h => ?_⟩
  have hsame := h Fields.text
  rw [htext, hparse] at hsame
  cases hsame

end NestQuickfix
