import NestQuickfix.Message.Pieces

/-!
# Messages across chunks

The acceptor hands every chunk of data to `processData` on its own, and the
parser keeps no rest. A message is therefore found whole only if one chunk
carries it. Two cuts are harmless: the parser adds back a missing `8=`, and it
does not need the last SOH. A stream of encoded messages is read as it would be
read in one piece exactly when every message has such a chunk.
-/

namespace NestQuickfix

open Lib

/-! ## Chunks that carry a message -/

/-- A chunk of `size` units at `offset` carries the message of `length` units at
`start`: it begins no later than the message, or exactly behind its `8=`, and
lacks at most the last SOH. -/
def Covers (offset size start length : ℕ) : Prop :=
  (offset ≤ start ∨ offset = start + 2) ∧ start + length ≤ offset + size + 1

/-- Of consecutive chunks from `offset` on, one carries the message at `start`. -/
def CarriedFrom (offset : ℕ) (sizes : List ℕ) (start length : ℕ) : Prop :=
  ∃ before size after, sizes = before ++ size :: after ∧
    Covers (offset + before.sum) size start length

/-- One of the chunks of a stream carries the message at `start`. -/
def CarriedBy (sizes : List ℕ) (start length : ℕ) : Prop := CarriedFrom 0 sizes start length

theorem carriedFrom_nil {offset start length : ℕ} : ¬ CarriedFrom offset [] start length := by
  rintro ⟨before, size, after, h, _⟩
  simp at h

theorem carriedFrom_cons {offset size start length : ℕ} {sizes : List ℕ} :
    CarriedFrom offset (size :: sizes) start length ↔
      Covers offset size start length ∨ CarriedFrom (offset + size) sizes start length := by
  constructor
  · rintro ⟨before, chunk, after, h, hcovers⟩
    cases before with
    | nil =>
      obtain ⟨rfl, _⟩ := List.cons.inj h
      exact Or.inl hcovers
    | cons s before =>
      obtain ⟨rfl, rfl⟩ := List.cons.inj h
      exact Or.inr ⟨before, chunk, after, rfl, by simpa [Nat.add_assoc] using hcovers⟩
  · rintro (h | ⟨before, chunk, after, rfl, hcovers⟩)
    · exact ⟨[], size, sizes, rfl, h⟩
    · exact ⟨size :: before, chunk, after, rfl, by simpa [Nat.add_assoc] using hcovers⟩

theorem carriedFrom_append {offset start length : ℕ} {sizes sizes' : List ℕ} :
    CarriedFrom offset (sizes ++ sizes') start length ↔
      CarriedFrom offset sizes start length ∨
        CarriedFrom (offset + sizes.sum) sizes' start length := by
  induction sizes generalizing offset with
  | nil => simp [carriedFrom_nil]
  | cons s sizes ih =>
    rw [List.cons_append, carriedFrom_cons, carriedFrom_cons, ih, or_assoc, List.sum_cons,
      Nat.add_assoc]

/-- Chunks behind the `8=` of a message do not carry it. -/
theorem not_carriedFrom_of_lt {offset start length : ℕ} {sizes : List ℕ} (h : start + 2 < offset) :
    ¬ CarriedFrom offset sizes start length := by
  rintro ⟨before, size, after, _, hcovers, _⟩
  omega

/-- Chunks that end before a message do not carry it. -/
theorem not_carriedFrom_of_sum_lt {offset start length : ℕ} {sizes : List ℕ}
    (h : offset + sizes.sum + 1 < start + length) : ¬ CarriedFrom offset sizes start length := by
  rintro ⟨before, size, after, rfl, _, hcovers⟩
  simp only [List.sum_append, List.sum_cons] at h
  omega

/-- Only the distance between chunks and message matters. -/
theorem carriedFrom_add_left {d offset start length : ℕ} {sizes : List ℕ} :
    CarriedFrom (d + offset) sizes (d + start) length ↔ CarriedFrom offset sizes start length := by
  have hcovers : ∀ before size, Covers (d + offset + before) size (d + start) length ↔
      Covers (offset + before) size start length := by
    intro before size
    unfold Covers
    omega
  simp only [CarriedFrom, hcovers]

/-- Cutting a chunk at the end of a message: the first part decides about that message. -/
theorem carriedFrom_cut_left {sizes sizes' : List ℕ} {p q length : ℕ}
    (hlength : sizes.sum + p = length) (h2 : 2 < length) :
    CarriedBy (sizes ++ (p + q) :: sizes') 0 length ↔ CarriedBy (sizes ++ [p]) 0 length := by
  have hlater : ¬ CarriedFrom (0 + sizes.sum + (p + q)) sizes' 0 length :=
    not_carriedFrom_of_lt (by omega)
  have hcovers : Covers (0 + sizes.sum) (p + q) 0 length ↔ Covers (0 + sizes.sum) p 0 length := by
    unfold Covers
    omega
  simp only [CarriedBy, carriedFrom_append, carriedFrom_cons, hlater, hcovers, carriedFrom_nil,
    or_false]

/-- The second part and the later chunks decide about the messages behind. -/
theorem carriedFrom_cut_right {sizes sizes' : List ℕ} {p q d start length : ℕ}
    (hd : sizes.sum + p = d) (hlength : 2 ≤ length) (hp : 0 < p) :
    CarriedBy (sizes ++ (p + q) :: sizes') (d + start) length ↔
      CarriedBy (q :: sizes') start length := by
  have hearlier : ¬ CarriedFrom 0 sizes (d + start) length :=
    not_carriedFrom_of_sum_lt (by omega)
  have hcovers : Covers (0 + sizes.sum) (p + q) (d + start) length ↔ Covers 0 q start length := by
    unfold Covers
    omega
  have hlater : CarriedFrom (0 + sizes.sum + (p + q)) sizes' (d + start) length ↔
      CarriedFrom (0 + q) sizes' start length := by
    have hoffset : 0 + sizes.sum + (p + q) = d + (0 + q) := by omega
    rw [hoffset, carriedFrom_add_left]
  simp only [CarriedBy, carriedFrom_append, carriedFrom_cons, hearlier, hcovers, hlater, false_or]

/-! ## One message in pieces -/

namespace Message.Clean

variable {m : Message}

/-- At most one piece of a message is returned, and none behind the beginning of MsgType. -/
theorem flatMap_processText_cases (hm : m.Clean) {x : JSString} {ps : List JSString}
    (h : m.wireText = x ++ ps.flatten) :
    (ps.flatMap processText).length ≤ 1 ∧
      (typeOffset m ≤ x.length → ps.flatMap processText = []) := by
  induction ps generalizing x with
  | nil => simp
  | cons p ps ih =>
    have hsplit : m.wireText = x ++ p ++ ps.flatten := by simpa using h
    obtain ⟨hle, hnil⟩ := ih hsplit
    rw [List.flatMap_cons, hm.processText_eq hsplit]
    cases hp : parsePart p with
    | none =>
      refine ⟨hle, fun hx => hnil ?_⟩
      rw [List.length_append]
      omega
    | some r =>
      obtain ⟨hbefore, hbehind⟩ := hm.typeOffset_of_parsePart hsplit hp
      rw [hnil hbehind.le]
      exact ⟨by simp, fun hx => absurd hbefore (by omega)⟩

theorem two_lt_length (hm : m.Clean) : 2 < m.wireText.length := by
  obtain ⟨b, t, hwire, _⟩ := hm.wireText_eq
  have hmark : beginMark.length = 2 := by decide
  rw [hwire]
  simp only [List.length_append, List.length_cons, hmark]
  omega

/-- A piece carries a message when it lacks only a leading `8=` and the last SOH. -/
theorem covers_iff (hm : m.Clean) {x p y : JSString} (h : m.wireText = x ++ p ++ y) :
    Covers x.length p.length 0 m.wireText.length ↔
      (x = [] ∨ x = beginMark) ∧ (y = [] ∨ y = [SOH]) := by
  obtain ⟨b, t, hwire, _⟩ := hm.wireText_eq
  have hmark : beginMark.length = 2 := by decide
  have hlength : m.wireText.length = x.length + p.length + y.length := by
    rw [h, List.length_append, List.length_append]
  unfold Covers
  constructor
  · rintro ⟨hx, hy⟩
    constructor
    · rcases hx with hx | hx
      · exact Or.inl (List.length_eq_zero_iff.mp (by omega))
      · right
        have hboth : x <+: m.wireText := ⟨p ++ y, by rw [h, List.append_assoc]⟩
        exact (List.prefix_of_prefix_length_le hboth ⟨_, hwire.symm⟩ (by omega)).eq_of_length
          (by omega)
    · match y, hlength, h with
      | [], _, _ => exact Or.inl rfl
      | [u], _, h =>
        have hlast : (x ++ p) ++ [u] = (beginMark ++ (b ++ SOH :: t)) ++ [SOH] := by
          rw [← h, hwire]
          simp
        exact Or.inr (List.append_inj_right' hlast rfl)
      | u :: v :: y, hlength, _ =>
        simp only [List.length_cons] at hlength
        omega
  · rintro ⟨rfl | rfl, rfl | rfl⟩ <;> simp_all

/-- The pieces of a message give the message exactly when one of them carries it. -/
theorem flatMap_processText_eq_singleton_iff (hm : m.Clean) {x : JSString} {ps : List JSString}
    (h : m.wireText = x ++ ps.flatten) :
    ps.flatMap processText = [m.encoded] ↔
      CarriedFrom x.length (ps.map List.length) 0 m.wireText.length := by
  induction ps generalizing x with
  | nil => simp [carriedFrom_nil]
  | cons p ps ih =>
    have hsplit : m.wireText = x ++ p ++ ps.flatten := by simpa using h
    have hrest := ih hsplit
    have hwhole := hm.covers_iff hsplit
    rw [List.length_append] at hrest
    rw [List.map_cons, carriedFrom_cons, ← hrest, hwhole, List.flatMap_cons,
      hm.processText_eq hsplit]
    cases hp : parsePart p with
    | none =>
      have hnot : ¬ ((x = [] ∨ x = beginMark) ∧ (ps.flatten = [] ∨ ps.flatten = [SOH])) := by
        rintro ⟨hx, hy⟩
        have hprocess := hm.processText_eq_singleton hsplit hx hy
        rw [hm.processText_eq hsplit, hp] at hprocess
        cases hprocess
      rw [Option.toList_none, List.nil_append, or_iff_right hnot]
    | some r =>
      obtain ⟨_, hbehind⟩ := hm.typeOffset_of_parsePart hsplit hp
      have hnil := (hm.flatMap_processText_cases hsplit).2 hbehind.le
      simp only [hnil, Option.toList_some, List.append_nil]
      constructor
      · intro hr
        obtain rfl := (List.cons.inj hr).1
        exact Or.inl (hm.eq_of_parsePart_encoded hsplit hp)
      · rintro (⟨hx, hy⟩ | hfalse)
        · have hprocess := hm.processText_eq_singleton hsplit hx hy
          rw [hm.processText_eq hsplit, hp] at hprocess
          exact hprocess
        · cases hfalse

end Message.Clean

/-! ## A stream of messages in chunks -/

/-- The text of several messages one after the other. -/
def streamText (ms : List Message) : JSString := ms.flatMap Message.wireText

/-- Behind a message follows nothing or the beginning of another message. -/
theorem messageStart_of_isPrefix {ms : List Message} (hms : ∀ m ∈ ms, m.Clean) {t : JSString}
    (h : t <+: streamText ms) : MessageStart t := by
  cases ms with
  | nil => exact Or.inl (List.prefix_nil.mp h)
  | cons m ms =>
    obtain ⟨b, t', hwire, hb⟩ := (hms m (by simp)).wireText_eq
    have hstream : streamText (m :: ms) =
        beginMark ++ (b ++ SOH :: (t' ++ [SOH] ++ streamText ms)) := by
      rw [streamText, List.flatMap_cons, hwire]
      simp [streamText]
    rw [hstream, beginMark_eq] at h
    match t, h with
    | [], _ => exact Or.inl rfl
    | [u], h => exact Or.inr (Or.inl (by rw [(List.cons_prefix_cons.mp h).1]))
    | u :: v :: t, h =>
      obtain ⟨rfl, h'⟩ := List.cons_prefix_cons.mp h
      obtain ⟨rfl, ht⟩ := List.cons_prefix_cons.mp h'
      refine Or.inr (Or.inr ⟨t, by rw [beginMark_eq]; rfl, fun hmark => ?_⟩)
      exact not_beginMark_isPrefix hb _ (hmark.trans ht)

/-- The chunks of a stream split at the end of its first message. -/
theorem exists_split_chunks {m : Message} {ms : List Message} (hms : ∀ n ∈ m :: ms, n.Clean)
    {cs : List JSString} (h : cs.flatten = streamText (m :: ms)) :
    ∃ cs1 p q cs2, cs = cs1 ++ (p ++ q) :: cs2 ∧ 0 < p.length ∧
      m.wireText = (cs1 ++ [p]).flatten ∧ (q :: cs2).flatten = streamText ms ∧
      cs.flatMap processText =
        (cs1 ++ [p]).flatMap processText ++ (q :: cs2).flatMap processText := by
  obtain ⟨b, t, hwire, _⟩ := (hms m (by simp)).wireText_eq
  have hne : m.wireText ≠ [] := by simp [hwire, beginMark_eq]
  have hstream : cs.flatten = m.wireText ++ streamText ms := h
  obtain ⟨cs1, p, q, cs2, rfl, hp, hleft, hright⟩ := exists_split_flatten hne hstream
  refine ⟨cs1, p, q, cs2, rfl, List.length_pos_iff.mpr hp, by simpa using hleft.symm, hright, ?_⟩
  have hlast : ∃ p', p = p' ++ [SOH] := by
    have hsuffix : [SOH] <:+ m.wireText := ⟨beginMark ++ (b ++ SOH :: t), by rw [hwire]; simp⟩
    have hpsuffix : p <:+ m.wireText := ⟨_, hleft⟩
    have hle : [SOH].length ≤ p.length := List.length_pos_iff.mpr hp
    obtain ⟨p', hp'⟩ := List.suffix_of_suffix_length_le hsuffix hpsuffix hle
    exact ⟨p', hp'.symm⟩
  obtain ⟨p', rfl⟩ := hlast
  have hq : MessageStart q :=
    messageStart_of_isPrefix (fun n hn => hms n (by simp [hn])) ⟨_, hright⟩
  simp only [List.flatMap_append, List.flatMap_cons, List.flatMap_nil, List.append_nil,
    processText_append_messageStart p' hq]
  simp only [List.append_assoc]

/-- Chunks of a stream give at most as many messages as there are. -/
theorem length_flatMap_processText_le {ms : List Message} (hms : ∀ m ∈ ms, m.Clean)
    {cs : List JSString} (h : cs.flatten = streamText ms) :
    (cs.flatMap processText).length ≤ ms.length := by
  induction ms generalizing cs with
  | nil =>
    have hnil : ∀ c ∈ cs, c = [] := by simpa [streamText] using h
    have hprocess : ∀ c ∈ cs, processText c = [] := fun c hc => by
      rw [hnil c hc]
      rfl
    simp [List.flatMap_eq_nil_iff.mpr hprocess]
  | cons m ms ih =>
    obtain ⟨cs1, p, q, cs2, rfl, _, hleft, hright, hsplit⟩ := exists_split_chunks hms h
    have hm : m.Clean := hms m (by simp)
    have hfirst := (hm.flatMap_processText_cases (x := []) hleft).1
    have hlater := ih (fun n hn => hms n (by simp [hn])) hright
    rw [hsplit, List.length_append, List.length_cons]
    omega

/-- Chunks of a stream give its messages exactly when every message is carried by a chunk. -/
theorem flatMap_processText_eq_iff {ms : List Message} (hms : ∀ m ∈ ms, m.Clean)
    {cs : List JSString} (h : cs.flatten = streamText ms) :
    cs.flatMap processText = ms.map Message.encoded ↔
      ∀ earlier m later, ms = earlier ++ m :: later →
        CarriedBy (cs.map List.length) (streamText earlier).length m.wireText.length := by
  induction ms generalizing cs with
  | nil =>
    have hle := length_flatMap_processText_le hms h
    have hnil : cs.flatMap processText = [] := List.length_eq_zero_iff.mp (by simpa using hle)
    simp [hnil]
  | cons m ms ih =>
    obtain ⟨cs1, p, q, cs2, rfl, hp, hleft, hright, hsplit⟩ := exists_split_chunks hms h
    have hm : m.Clean := hms m (by simp)
    have hms' : ∀ n ∈ ms, n.Clean := fun n hn => hms n (by simp [hn])
    have hfirst := hm.flatMap_processText_eq_singleton_iff (x := []) hleft
    have hle := (hm.flatMap_processText_cases (x := []) hleft).1
    have hle' := length_flatMap_processText_le hms' hright
    have hlength : (cs1.map List.length).sum + p.length = m.wireText.length := by
      rw [hleft]
      simp [List.length_flatten]
    have hboth : (cs1 ++ (p ++ q) :: cs2).flatMap processText = (m :: ms).map Message.encoded ↔
        (cs1 ++ [p]).flatMap processText = [m.encoded] ∧
          (q :: cs2).flatMap processText = ms.map Message.encoded := by
      rw [hsplit]
      constructor
      · intro heq
        have hlen := congrArg List.length heq
        simp only [List.length_append, List.length_map, List.length_cons] at hlen
        have hparts : (cs1 ++ [p]).flatMap processText ++ (q :: cs2).flatMap processText =
            [m.encoded] ++ ms.map Message.encoded := heq
        exact List.append_inj hparts (by rw [List.length_singleton]; omega)
      · rintro ⟨h1, h2⟩
        rw [h1, h2]
        rfl
    have hcut : (cs1 ++ (p ++ q) :: cs2).map List.length =
        cs1.map List.length ++ (p.length + q.length) :: cs2.map List.length := by simp
    have hmap : (cs1 ++ [p]).map List.length = cs1.map List.length ++ [p.length] := by simp
    have hleftIff : CarriedBy (cs1.map List.length ++ (p.length + q.length) ::
        cs2.map List.length) 0 m.wireText.length ↔
          CarriedBy (cs1.map List.length ++ [p.length]) 0 m.wireText.length :=
      carriedFrom_cut_left hlength hm.two_lt_length
    have hrightIff : ∀ (earlier : List Message), ∀ n ∈ ms, CarriedBy (cs1.map List.length ++
        (p.length + q.length) :: cs2.map List.length) (streamText (m :: earlier)).length
          n.wireText.length ↔
        CarriedBy ((q :: cs2).map List.length) (streamText earlier).length n.wireText.length := by
      intro earlier n hn
      have hstart : (streamText (m :: earlier)).length =
          m.wireText.length + (streamText earlier).length := by simp [streamText]
      have htwo : 2 ≤ n.wireText.length := (hms' n hn).two_lt_length.le
      rw [hstart, carriedFrom_cut_right hlength htwo hp]
      rfl
    rw [hboth, hfirst, ih hms' hright, hcut, hmap]
    constructor
    · rintro ⟨hcarried, hlater⟩ earlier n later heq
      cases earlier with
      | nil =>
        obtain ⟨rfl, _⟩ := List.cons.inj heq
        exact hleftIff.mpr hcarried
      | cons m' earlier =>
        obtain ⟨rfl, rfl⟩ := List.cons.inj heq
        exact (hrightIff earlier n (by simp)).mpr (hlater earlier n later rfl)
    · intro hall
      refine ⟨hleftIff.mp (hall [] m ms rfl), ?_⟩
      rintro earlier n later rfl
      exact (hrightIff earlier n (by simp)).mp (hall (m :: earlier) n later rfl)

/-- One call on the whole stream returns all messages. -/
theorem processText_streamText {ms : List Message} (hms : ∀ m ∈ ms, m.Clean) :
    processText (streamText ms) = ms.map Message.encoded := by
  have h : [streamText ms].flatten = streamText ms := List.flatten_singleton
  have hwhole := (flatMap_processText_eq_iff hms h).mpr ?_
  · simpa using hwhole
  · rintro earlier m later rfl
    refine ⟨[], (streamText (earlier ++ m :: later)).length, [], rfl, Or.inl (Nat.zero_le _), ?_⟩
    simp only [streamText, List.flatMap_append, List.flatMap_cons, List.length_append,
      List.sum_nil]
    omega

/-! ## Bytes -/

/-- The values for which messages are framed on the wire. -/
def Framed (s : JSString) : Prop := IsAscii s ∧ SOH ∉ s ∧ EQ ∉ s

instance (s : JSString) : Decidable (Framed s) :=
  inferInstanceAs (Decidable (IsAscii s ∧ SOH ∉ s ∧ EQ ∉ s))

theorem Message.FieldsSatisfy.clean {m : Message}
    (hrequired : ∀ f ∈ Message.requiredFields, m.hasField f = true) (h : m.FieldsSatisfy Framed) :
    m.Clean ∧ IsAscii m.wireText := by
  have hfield : ∀ f ∈ m.wireFields, CleanField f ∧ IsAscii (fieldText f) := by
    have hascii : ∀ {n : ℕ} {s : JSString}, IsAscii s → IsAscii (fieldText (.tag n, .str s)) := by
      intro n s hs u hu
      simp only [fieldText, FieldType.text, FieldType.tag, Number.text, Value.printed_str,
        List.mem_append, List.mem_cons, List.not_mem_nil, or_false] at hu
      rcases hu with hu | rfl | hu | rfl
      · exact isAscii_natText n u hu
      · decide
      · exact hs u hu
      · decide
    intro f hf
    obtain ⟨l, c, hl, hc, hl0, hc0, hdigits⟩ := m.computed_digits
    have hdigit : ∀ s : JSString, (∀ u ∈ s, u ∈ l ++ c) → IsAscii s ∧ SOH ∉ s ∧ EQ ∉ s := by
      intro s hs
      refine ⟨fun u hu => ?_, fun hmem => absurd (hdigits SOH (hs SOH hmem)) (by decide),
        fun hmem => absurd (hdigits EQ (hs EQ hmem)) (by decide)⟩
      have hu' := hdigits u (hs u hu)
      omega
    have hl' := hdigit l fun u hu => by simp [hu]
    have hc' := hdigit c fun u hu => by simp [hu]
    rcases Message.mem_wireFields_cases hrequired hf with hmem | rfl | rfl
    · obtain ⟨n, s, _, rfl, hs, hs'⟩ := h f hmem
      exact ⟨⟨n, s, rfl, hs, hs'.2⟩, hascii hs'.1⟩
    · rw [hl]
      exact ⟨⟨9, l, rfl, hl0, hl'.2⟩, hascii hl'.1⟩
    · rw [hc]
      exact ⟨⟨10, c, rfl, hc0, hc'.2⟩, hascii hc'.1⟩
  refine ⟨⟨hrequired, fun f hf => (hfield f hf).1⟩, fun u hu => ?_⟩
  obtain ⟨f, hf, hu⟩ := List.mem_flatMap.mp hu
  exact (hfield f hf).2 u hu

/-- Encoded messages of such values are clean and ASCII. -/
theorem clean_of_framed {ms : List Message} {ws : List JSString}
    (hms : ∀ m ∈ ms, m.FieldsSatisfy Framed)
    (hws : List.Forall₂ (fun m w => m.toString = .ok w) ms ws) :
    ws = ms.map Message.wireText ∧ ∀ m ∈ ms, m.Clean ∧ IsAscii m.wireText := by
  induction hws with
  | nil => simp
  | cons hw _ ih =>
    obtain ⟨hws, hclean⟩ := ih fun m hm => hms m (by simp [hm])
    obtain ⟨hrequired, _, _, rfl⟩ := Message.toString_eq_ok_iff.mp hw
    refine ⟨by rw [hws]; rfl, ?_⟩
    rw [List.forall_mem_cons]
    exact ⟨(hms _ (by simp)).clean hrequired, hclean⟩

/-- Chunks of ASCII bytes can be converted one by one. -/
theorem map_ofUtf8_of_isAscii {s : JSString} (hs : IsAscii s) {chunks : List (List UInt8)}
    (hchunks : chunks.flatten = toUtf8 s) :
    (chunks.map ofUtf8).flatten = s ∧
      (chunks.map ofUtf8).map List.length = chunks.map List.length := by
  have hbytes : ∀ c ∈ chunks, ∀ b ∈ c, b.toNat < 128 := by
    intro c hc b hb
    have hmem : b ∈ toUtf8 s := hchunks ▸ List.mem_flatten.mpr ⟨c, hc, hb⟩
    rw [toUtf8_of_isAscii hs] at hmem
    obtain ⟨u, hu, rfl⟩ := List.mem_map.mp hmem
    have hlt := hs u hu
    rw [UInt8.toNat_ofNat']
    omega
  have hunits : ∀ c ∈ chunks, ofUtf8 c = c.map fun b => UInt16.ofNat b.toNat :=
    fun c hc => ofUtf8_of_ascii (hbytes c hc)
  have htext : ofUtf8 chunks.flatten = s := by
    rw [hchunks, ofUtf8_toUtf8, hs.wellFormed]
  constructor
  · rw [← htext, List.map_congr_left hunits, ← List.map_flatten, ofUtf8_of_ascii]
    intro b hb
    obtain ⟨c, hc, hb⟩ := List.mem_flatten.mp hb
    exact hbytes c hc b hb
  · rw [List.map_map]
    exact List.map_congr_left fun c hc => by simp [hunits c hc]

/-- For messages of ASCII values without separators, calling `processData` on the
chunks of their bytes one after the other returns what one call on all bytes
returns exactly when some chunk carries each message. -/
theorem flatMap_processData_eq_iff {ms : List Message} {ws : List JSString}
    (hms : ∀ m ∈ ms, m.FieldsSatisfy Framed)
    (hws : List.Forall₂ (fun m w => m.toString = .ok w) ms ws) {chunks : List (List UInt8)}
    (hchunks : chunks.flatten = toUtf8 ws.flatten) :
    chunks.flatMap processData = processData chunks.flatten ↔
      ∀ earlier w later, ws = earlier ++ w :: later →
        CarriedBy (chunks.map List.length) earlier.flatten.length w.length := by
  obtain ⟨rfl, hall⟩ := clean_of_framed hms hws
  have hclean : ∀ m ∈ ms, m.Clean := fun m hm => (hall m hm).1
  have hstream : (ms.map Message.wireText).flatten = streamText ms := rfl
  have hascii : IsAscii (streamText ms) := by
    intro u hu
    obtain ⟨m, hm, hu⟩ := List.mem_flatMap.mp hu
    exact (hall m hm).2 u hu
  rw [hstream] at hchunks
  obtain ⟨hcut, hsizes⟩ := map_ofUtf8_of_isAscii hascii hchunks
  have hflat : chunks.flatMap processData = (chunks.map ofUtf8).flatMap processText := by
    rw [List.flatMap_map]
    rfl
  have hwhole : processData chunks.flatten = ms.map Message.encoded := by
    rw [processData, hchunks, ofUtf8_toUtf8, hascii.wellFormed, processText_streamText hclean]
  rw [hflat, hwhole, flatMap_processText_eq_iff hclean hcut, hsizes]
  constructor
  · intro hcarried earlier w later heq
    obtain ⟨ms1, ms', rfl, rfl, hms'⟩ := List.map_eq_append_iff.mp heq
    obtain ⟨m, ms2, rfl, rfl, rfl⟩ := List.map_eq_cons_iff.mp hms'
    exact hcarried ms1 m ms2 rfl
  · rintro hcarried earlier m later rfl
    exact hcarried (earlier.map Message.wireText) m.wireText (later.map Message.wireText) (by simp)

/-- The bytes of a message in two chunks. -/
def newsInTwo (size : ℕ) : List (List UInt8) :=
  [(toUtf8 (Message.news (js "hi")).wireText).take size,
    (toUtf8 (Message.news (js "hi")).wireText).drop size]

/-- A cut behind `8=`. -/
theorem flatMap_processData_eq_iff_news :
    (newsInTwo 2).flatMap processData = processData (newsInTwo 2).flatten ↔
      ∀ earlier w later, [(Message.news (js "hi")).wireText] = earlier ++ w :: later →
        CarriedBy ((newsInTwo 2).map List.length) earlier.flatten.length w.length := by
  have hms : ∀ m ∈ [Message.news (js "hi")], m.FieldsSatisfy Framed := by
    rw [List.forall_mem_singleton]
    exact Message.fieldsSatisfy_ofStrings (by decide)
  exact flatMap_processData_eq_iff hms (.cons (by decide +kernel) .nil) (by simp [newsInTwo])

/-- A cut inside a value: the first chunk gives a message with a shorter text, and
the second one nothing. -/
theorem flatMap_processData_news_ne :
    (Message.news (js "hi")).toString = .ok (Message.news (js "hi")).wireText ∧
      (Message.news (js "hi")).FieldsSatisfy Framed ∧
      (newsInTwo 60).flatten = toUtf8 (Message.news (js "hi")).wireText ∧
      (newsInTwo 60).flatMap processData ≠ processData (newsInTwo 60).flatten :=
  ⟨by decide +kernel, Message.fieldsSatisfy_ofStrings (by decide), by simp [newsInTwo],
    by decide +kernel⟩

end NestQuickfix
