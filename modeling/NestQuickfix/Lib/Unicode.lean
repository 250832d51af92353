import Mathlib.Data.Char
import Mathlib.Tactic.Linarith
import Mathlib.Tactic.NormNum

/-!
# UTF-16 strings and their UTF-8 bytes

Strings of JavaScript are sequences of 16-bit code units, in which surrogates
may stand alone. Sockets and buffers exchange UTF-8 bytes. Both directions are
total: a lone surrogate, and every maximal ill-formed part of a byte sequence,
becomes the replacement character U+FFFD. The encoder of single characters is
the one of core, `String.utf8EncodeChar`.
-/

namespace Lib

/-- The character that replaces ill-formed input. -/
def replacementChar : Char := '\uFFFD'

/-! ## UTF-16 -/

/-- The code units of one character: one below U+10000, else a surrogate pair. -/
def utf16EncodeChar (c : Char) : List UInt16 :=
  if c.toNat < 0x10000 then [UInt16.ofNat c.toNat]
  else [UInt16.ofNat (0xD800 + (c.toNat - 0x10000) / 0x400),
    UInt16.ofNat (0xDC00 + (c.toNat - 0x10000) % 0x400)]

/-- The code units of a sequence of characters. -/
def utf16Encode (cs : List Char) : List UInt16 := cs.flatMap utf16EncodeChar

/-- A code unit that opens a surrogate pair. -/
def isHighSurrogate (u : UInt16) : Bool := decide (0xD800 ≤ u.toNat ∧ u.toNat < 0xDC00)

/-- A code unit that closes a surrogate pair. -/
def isLowSurrogate (u : UInt16) : Bool := decide (0xDC00 ≤ u.toNat ∧ u.toNat < 0xE000)

/-- A code unit that stands for no character by itself. -/
def isSurrogate (u : UInt16) : Bool := isHighSurrogate u || isLowSurrogate u

/-- The character of a code unit outside a surrogate pair. -/
def utf16DecodeUnit (u : UInt16) : Char :=
  if isSurrogate u then replacementChar else Char.ofNat u.toNat

/-- The character of a surrogate pair. -/
def utf16DecodePair (u v : UInt16) : Char :=
  Char.ofNat (0x10000 + (u.toNat - 0xD800) * 0x400 + (v.toNat - 0xDC00))

/-- The characters of a code unit sequence, lone surrogates replaced. -/
def utf16Decode : List UInt16 → List Char
  | [] => []
  | [u] => [utf16DecodeUnit u]
  | u :: v :: s =>
    if isHighSurrogate u && isLowSurrogate v then utf16DecodePair u v :: utf16Decode s
    else utf16DecodeUnit u :: utf16Decode (v :: s)

/-- Replace the lone surrogates of a string. -/
def toWellFormed (s : List UInt16) : List UInt16 := utf16Encode (utf16Decode s)

/-- A string without lone surrogates. -/
def WellFormed (s : List UInt16) : Prop := toWellFormed s = s

instance (s : List UInt16) : Decidable (WellFormed s) := inferInstanceAs (Decidable (_ = _))

/-! ## UTF-8 -/

/-- Where the decoder stands between bytes: at a character boundary, or with
`needed` continuation bytes missing, of which the next lies in `lower..upper`. -/
inductive Utf8State where
  | boundary
  | pending (needed lower upper value : ℕ)
  deriving DecidableEq

/-- The UTF-8 bytes of a sequence of characters. -/
def utf8Encode (cs : List Char) : List UInt8 := cs.flatMap String.utf8EncodeChar

/-- Decode a byte at a character boundary. -/
def utf8Lead (b : ℕ) : List Char × Utf8State :=
  if b ≤ 0x7F then ([Char.ofNat b], .boundary)
  else if 0xC2 ≤ b ∧ b ≤ 0xDF then ([], .pending 1 0x80 0xBF (b - 0xC0))
  else if b = 0xE0 then ([], .pending 2 0xA0 0xBF 0)
  else if b = 0xED then ([], .pending 2 0x80 0x9F 0xD)
  else if 0xE1 ≤ b ∧ b ≤ 0xEF then ([], .pending 2 0x80 0xBF (b - 0xE0))
  else if b = 0xF0 then ([], .pending 3 0x90 0xBF 0)
  else if 0xF1 ≤ b ∧ b ≤ 0xF3 then ([], .pending 3 0x80 0xBF (b - 0xF0))
  else if b = 0xF4 then ([], .pending 3 0x80 0x8F 4)
  else ([replacementChar], .boundary)

/-- Decode one byte. A byte that cannot continue a pending sequence ends it with
a replacement character and is decoded again as a first byte. -/
def utf8Step : Utf8State → ℕ → List Char × Utf8State
  | .boundary, b => utf8Lead b
  | .pending needed lower upper value, b =>
    if lower ≤ b ∧ b ≤ upper then
      if needed = 1 then ([Char.ofNat (value * 64 + (b - 0x80))], .boundary)
      else ([], .pending (needed - 1) 0x80 0xBF (value * 64 + (b - 0x80)))
    else (replacementChar :: (utf8Lead b).1, (utf8Lead b).2)

/-- Decode bytes from a decoder state. An unfinished sequence is replaced. -/
def utf8DecodeFrom : Utf8State → List UInt8 → List Char
  | .boundary, [] => []
  | .pending _ _ _ _, [] => [replacementChar]
  | st, b :: bs => (utf8Step st b.toNat).1 ++ utf8DecodeFrom (utf8Step st b.toNat).2 bs

/-- The characters of a byte sequence, ill-formed parts replaced. -/
def utf8Decode (bs : List UInt8) : List Char := utf8DecodeFrom .boundary bs

/-- The bytes a socket writes for a string. -/
def toUtf8 (s : List UInt16) : List UInt8 := utf8Encode (utf16Decode s)

/-- The string a buffer of bytes is converted to. -/
def ofUtf8 (bs : List UInt8) : List UInt16 := utf16Encode (utf8Decode bs)

/-! ## Round trips -/

/-- The code of a character is a Unicode scalar value. -/
theorem toNat_scalar (c : Char) :
    c.toNat < 0xD800 ∨ (0xDFFF < c.toNat ∧ c.toNat < 0x110000) := c.valid

theorem utf8DecodeFrom_cons (st : Utf8State) (b : UInt8) (bs : List UInt8) :
    utf8DecodeFrom st (b :: bs) =
      (utf8Step st b.toNat).1 ++ utf8DecodeFrom (utf8Step st b.toNat).2 bs := by
  cases st <;> rfl

/-- The last continuation byte completes the character. -/
theorem utf8DecodeFrom_pending_one {lower upper value : ℕ} {b : UInt8} (bs : List UInt8)
    (hl : lower ≤ b.toNat) (hu : b.toNat ≤ upper) :
    utf8DecodeFrom (.pending 1 lower upper value) (b :: bs) =
      Char.ofNat (value * 64 + (b.toNat - 0x80)) :: utf8DecodeFrom .boundary bs := by
  rw [utf8DecodeFrom_cons, utf8Step, if_pos ⟨hl, hu⟩, if_pos rfl]
  rfl

/-- An earlier continuation byte adds six bits. -/
theorem utf8DecodeFrom_pending_succ {needed lower upper value : ℕ} {b : UInt8} (bs : List UInt8)
    (hl : lower ≤ b.toNat) (hu : b.toNat ≤ upper) :
    utf8DecodeFrom (.pending (needed + 2) lower upper value) (b :: bs) =
      utf8DecodeFrom (.pending (needed + 1) 0x80 0xBF (value * 64 + (b.toNat - 0x80))) bs := by
  rw [utf8DecodeFrom_cons, utf8Step, if_pos ⟨hl, hu⟩, if_neg (by omega)]
  rfl

/-- The first byte of a character of several bytes only moves the decoder. -/
theorem utf8DecodeFrom_lead {b : UInt8} {st : Utf8State} (bs : List UInt8)
    (h : utf8Lead b.toNat = ([], st)) :
    utf8DecodeFrom .boundary (b :: bs) = utf8DecodeFrom st bs := by
  rw [utf8DecodeFrom_cons, utf8Step, h]
  rfl

/-- The first byte of a two-byte character. -/
theorem utf8Lead_two {v : ℕ} (h1 : 0x7F < v) (h2 : v ≤ 0x7FF) :
    utf8Lead (v / 64 + 0xC0) = ([], .pending 1 0x80 0xBF (v / 64)) := by
  rw [utf8Lead, if_neg (by omega), if_pos (by omega), Nat.add_sub_cancel]

/-- The first byte of a three-byte character, and the bounds its second byte meets. -/
theorem utf8Lead_three {v : ℕ} (h1 : 0x7FF < v) (h2 : v ≤ 0xFFFF)
    (hs : v < 0xD800 ∨ 0xDFFF < v) :
    ∃ lower upper, utf8Lead (v / 4096 + 0xE0) = ([], .pending 2 lower upper (v / 4096)) ∧
      lower ≤ v / 64 % 64 + 0x80 ∧ v / 64 % 64 + 0x80 ≤ upper := by
  rcases Nat.eq_zero_or_pos (v / 4096) with h0 | hpos
  · refine ⟨0xA0, 0xBF, ?_, by omega, by omega⟩
    rw [h0]
    rfl
  · by_cases hd : v / 4096 = 0xD
    · refine ⟨0x80, 0x9F, ?_, by omega, by omega⟩
      rw [hd]
      rfl
    · refine ⟨0x80, 0xBF, ?_, by omega, by omega⟩
      rw [utf8Lead, if_neg (by omega), if_neg (by omega), if_neg (by omega), if_neg (by omega),
        if_pos (by omega), Nat.add_sub_cancel]

/-- The first byte of a four-byte character, and the bounds its second byte meets. -/
theorem utf8Lead_four {v : ℕ} (h1 : 0xFFFF < v) (h2 : v < 0x110000) :
    ∃ lower upper, utf8Lead (v / 262144 + 0xF0) = ([], .pending 3 lower upper (v / 262144)) ∧
      lower ≤ v / 4096 % 64 + 0x80 ∧ v / 4096 % 64 + 0x80 ≤ upper := by
  rcases Nat.eq_zero_or_pos (v / 262144) with h0 | hpos
  · refine ⟨0x90, 0xBF, ?_, by omega, by omega⟩
    rw [h0]
    rfl
  · by_cases h4 : v / 262144 = 4
    · refine ⟨0x80, 0x8F, ?_, by omega, by omega⟩
      rw [h4]
      rfl
    · refine ⟨0x80, 0xBF, ?_, by omega, by omega⟩
      rw [utf8Lead, if_neg (by omega), if_neg (by omega), if_neg (by omega), if_neg (by omega),
        if_neg (by omega), if_neg (by omega), if_pos (by omega), Nat.add_sub_cancel]

theorem toNat_ofNat_uint8 {n : ℕ} (h : n < 256) : (UInt8.ofNat n).toNat = n := by
  simp [Nat.mod_eq_of_lt h]

/-- The encoding of one character is decoded to that character. -/
theorem utf8DecodeFrom_encodeChar_append (c : Char) (bs : List UInt8) :
    utf8DecodeFrom .boundary (String.utf8EncodeChar c ++ bs) =
      c :: utf8DecodeFrom .boundary bs := by
  have hscalar := toNat_scalar c
  have hval : c.val.toNat = c.toNat := rfl
  have hc : Char.ofNat c.toNat = c := Char.ofNat_toNat c
  unfold String.utf8EncodeChar
  simp only [hval]
  generalize c.toNat = v at *
  split
  · next h1 =>
    rw [List.singleton_append, utf8DecodeFrom_cons, toNat_ofNat_uint8 (by omega), utf8Step,
      utf8Lead, if_pos h1, hc]
    rfl
  split
  · next h1 h2 =>
    have hb : (UInt8.ofNat (v / 64 % 32 + 192)).toNat = v / 64 + 0xC0 := by
      rw [toNat_ofNat_uint8 (by omega)]
      omega
    have hlead := utf8DecodeFrom_lead (UInt8.ofNat (v % 64 + 128) :: bs)
      (hb ▸ utf8Lead_two (by omega) h2)
    have hv : v / 64 * 64 + (v % 64 + 128 - 0x80) = v := by omega
    rw [List.cons_append, List.singleton_append, hlead,
      utf8DecodeFrom_pending_one _ (by rw [toNat_ofNat_uint8 (by omega)]; omega)
        (by rw [toNat_ofNat_uint8 (by omega)]; omega),
      toNat_ofNat_uint8 (by omega), hv, hc]
  split
  · next h1 h2 h3 =>
    obtain ⟨lower, upper, hl, hlo, hup⟩ := utf8Lead_three (v := v) (by omega) h3 (by omega)
    have hb : (UInt8.ofNat (v / 4096 % 16 + 224)).toNat = v / 4096 + 0xE0 := by
      rw [toNat_ofNat_uint8 (by omega)]
      omega
    have hlead := utf8DecodeFrom_lead
      (UInt8.ofNat (v / 64 % 64 + 128) :: UInt8.ofNat (v % 64 + 128) :: bs) (hb ▸ hl)
    have hv : (v / 4096 * 64 + (v / 64 % 64 + 128 - 0x80)) * 64 + (v % 64 + 128 - 0x80) = v := by
      omega
    rw [List.cons_append, List.cons_append, List.singleton_append, hlead,
      utf8DecodeFrom_pending_succ _ (by rwa [toNat_ofNat_uint8 (by omega)])
        (by rwa [toNat_ofNat_uint8 (by omega)]),
      utf8DecodeFrom_pending_one _ (by rw [toNat_ofNat_uint8 (by omega)]; omega)
        (by rw [toNat_ofNat_uint8 (by omega)]; omega),
      toNat_ofNat_uint8 (by omega), toNat_ofNat_uint8 (by omega), hv, hc]
  · next h1 h2 h3 =>
    obtain ⟨lower, upper, hl, hlo, hup⟩ := utf8Lead_four (v := v) (by omega) (by omega)
    have hb : (UInt8.ofNat (v / 262144 % 8 + 240)).toNat = v / 262144 + 0xF0 := by
      rw [toNat_ofNat_uint8 (by omega)]
      omega
    have hlead := utf8DecodeFrom_lead
      (UInt8.ofNat (v / 4096 % 64 + 128) :: UInt8.ofNat (v / 64 % 64 + 128) ::
        UInt8.ofNat (v % 64 + 128) :: bs) (hb ▸ hl)
    have hv : ((v / 262144 * 64 + (v / 4096 % 64 + 128 - 0x80)) * 64 +
        (v / 64 % 64 + 128 - 0x80)) * 64 + (v % 64 + 128 - 0x80) = v := by
      omega
    rw [List.cons_append, List.cons_append, List.cons_append, List.singleton_append, hlead,
      utf8DecodeFrom_pending_succ _ (by rwa [toNat_ofNat_uint8 (by omega)])
        (by rwa [toNat_ofNat_uint8 (by omega)]),
      utf8DecodeFrom_pending_succ _ (by rw [toNat_ofNat_uint8 (by omega)]; omega)
        (by rw [toNat_ofNat_uint8 (by omega)]; omega),
      utf8DecodeFrom_pending_one _ (by rw [toNat_ofNat_uint8 (by omega)]; omega)
        (by rw [toNat_ofNat_uint8 (by omega)]; omega),
      toNat_ofNat_uint8 (by omega), toNat_ofNat_uint8 (by omega), toNat_ofNat_uint8 (by omega),
      hv, hc]

/-- Decoding undoes encoding. -/
theorem utf8Decode_utf8Encode (cs : List Char) : utf8Decode (utf8Encode cs) = cs := by
  induction cs with
  | nil => rfl
  | cons c cs ih =>
    rw [utf8Encode, List.flatMap_cons, utf8Decode, utf8DecodeFrom_encodeChar_append]
    exact congrArg _ ih

/-- A buffer gives back the written string with its lone surrogates replaced. -/
theorem ofUtf8_toUtf8 (s : List UInt16) : ofUtf8 (toUtf8 s) = toWellFormed s := by
  rw [ofUtf8, toUtf8, utf8Decode_utf8Encode, toWellFormed]

theorem isSurrogate_eq_false_iff {u : UInt16} :
    isSurrogate u = false ↔ u.toNat < 0xD800 ∨ 0xE000 ≤ u.toNat := by
  simp only [isSurrogate, isHighSurrogate, isLowSurrogate, Bool.or_eq_false_iff,
    decide_eq_false_iff_not]
  omega

theorem toNat_ofNat_char {n : ℕ} (h : n.isValidChar) : (Char.ofNat n).toNat = n := by
  rw [Char.ofNat, dif_pos h]
  rfl

/-- A code unit that is no surrogate encodes its character. -/
theorem utf16EncodeChar_decodeUnit {u : UInt16} (h : isSurrogate u = false) :
    utf16EncodeChar (utf16DecodeUnit u) = [u] := by
  have hu := isSurrogate_eq_false_iff.mp h
  have hlt : u.toNat < 65536 := u.toNat_lt
  have hvalid : u.toNat.isValidChar := by unfold Nat.isValidChar; omega
  rw [utf16DecodeUnit, h, if_neg Bool.false_ne_true, utf16EncodeChar, toNat_ofNat_char hvalid,
    if_pos hlt, UInt16.ofNat_toNat]

/-- A surrogate pair encodes its character. -/
theorem utf16EncodeChar_decodePair {u v : UInt16} (hu : isHighSurrogate u = true)
    (hv : isLowSurrogate v = true) : utf16EncodeChar (utf16DecodePair u v) = [u, v] := by
  simp only [isHighSurrogate, isLowSurrogate, decide_eq_true_eq] at hu hv
  have hvalid : (0x10000 + (u.toNat - 0xD800) * 0x400 + (v.toNat - 0xDC00)).isValidChar := by
    unfold Nat.isValidChar
    omega
  rw [utf16DecodePair, utf16EncodeChar, toNat_ofNat_char hvalid, if_neg (by omega)]
  have h1 : 0xD800 + (0x10000 + (u.toNat - 0xD800) * 0x400 + (v.toNat - 0xDC00) - 0x10000) / 0x400
      = u.toNat := by omega
  have h2 : 0xDC00 + (0x10000 + (u.toNat - 0xD800) * 0x400 + (v.toNat - 0xDC00) - 0x10000) % 0x400
      = v.toNat := by omega
  rw [h1, h2, UInt16.ofNat_toNat, UInt16.ofNat_toNat]

@[simp] theorem toWellFormed_nil : toWellFormed [] = [] := rfl

/-- What replacing lone surrogates makes of a code unit outside a pair. -/
theorem utf16EncodeChar_decodeUnit_eq (u : UInt16) :
    utf16EncodeChar (utf16DecodeUnit u) = [if isSurrogate u then 0xFFFD else u] := by
  cases h : isSurrogate u with
  | false => rw [utf16EncodeChar_decodeUnit h, if_neg Bool.false_ne_true]
  | true =>
    rw [utf16DecodeUnit, h, if_pos rfl, if_pos rfl]
    rfl

/-- A code unit that is no surrogate is kept, whatever follows it. -/
theorem toWellFormed_cons {u : UInt16} (s : List UInt16) (h : isSurrogate u = false) :
    toWellFormed (u :: s) = u :: toWellFormed s := by
  have hhigh : isHighSurrogate u = false := (Bool.or_eq_false_iff.mp h).1
  cases s with
  | nil => simp [toWellFormed, utf16Decode, utf16Encode, utf16EncodeChar_decodeUnit h]
  | cons v s =>
    simp [toWellFormed, utf16Decode, hhigh, utf16Encode, utf16EncodeChar_decodeUnit h]

/-- A surrogate pair is kept. -/
theorem toWellFormed_pair {u v : UInt16} (s : List UInt16) (hu : isHighSurrogate u = true)
    (hv : isLowSurrogate v = true) : toWellFormed (u :: v :: s) = u :: v :: toWellFormed s := by
  simp [toWellFormed, utf16Decode, hu, hv, utf16Encode, utf16EncodeChar_decodePair hu hv]

/-- A code unit that opens no pair is treated by itself. -/
theorem toWellFormed_lone {u v : UInt16} (s : List UInt16)
    (h : (isHighSurrogate u && isLowSurrogate v) = false) :
    toWellFormed (u :: v :: s) =
      (if isSurrogate u then 0xFFFD else u) :: toWellFormed (v :: s) := by
  rw [toWellFormed, utf16Decode, h, if_neg Bool.false_ne_true, utf16Encode, List.flatMap_cons,
    utf16EncodeChar_decodeUnit_eq]
  rfl

/-- Replacing lone surrogates works separately on both sides of any other code unit. -/
theorem toWellFormed_append_cons {u : UInt16} (h : isSurrogate u = false) (s t : List UInt16) :
    toWellFormed (s ++ u :: t) = toWellFormed s ++ u :: toWellFormed t := by
  induction s using utf16Decode.induct with
  | case1 => simp [toWellFormed_cons t h]
  | case2 x =>
    have hx : (isHighSurrogate x && isLowSurrogate u) = false := by
      rw [(Bool.or_eq_false_iff.mp h).2, Bool.and_false]
    rw [List.singleton_append, toWellFormed_lone t hx, toWellFormed_cons t h]
    simp [toWellFormed, utf16Decode, utf16Encode, utf16EncodeChar_decodeUnit_eq]
  | case3 x y s hxy ih =>
    obtain ⟨hx, hy⟩ := Bool.and_eq_true_iff.mp hxy
    rw [List.cons_append, List.cons_append, toWellFormed_pair _ hx hy, ih,
      toWellFormed_pair _ hx hy]
    rfl
  | case4 x y s hxy ih =>
    have hxy' : (isHighSurrogate x && isLowSurrogate y) = false := by simpa using hxy
    rw [List.cons_append] at ih ⊢
    rw [List.cons_append, toWellFormed_lone _ hxy', ih, toWellFormed_lone _ hxy']
    rfl

/-- Replacing lone surrogates keeps the number of code units. -/
@[simp] theorem length_toWellFormed (s : List UInt16) : (toWellFormed s).length = s.length := by
  induction s using utf16Decode.induct with
  | case1 => rfl
  | case2 x => simp [toWellFormed, utf16Decode, utf16Encode, utf16EncodeChar_decodeUnit_eq]
  | case3 x y s hxy ih =>
    obtain ⟨hx, hy⟩ := Bool.and_eq_true_iff.mp hxy
    simp [toWellFormed_pair _ hx hy, ih]
  | case4 x y s hxy ih =>
    have hxy' : (isHighSurrogate x && isLowSurrogate y) = false := by simpa using hxy
    rw [toWellFormed_lone _ hxy', List.length_cons, ih]
    rfl

/-- Replacing lone surrogates brings in no code unit but the replacement character. -/
theorem mem_of_mem_toWellFormed {s : List UInt16} {u : UInt16} (hu : u ≠ 0xFFFD)
    (h : u ∈ toWellFormed s) : u ∈ s := by
  induction s using utf16Decode.induct with
  | case1 => exact h
  | case2 x =>
    simp only [toWellFormed, utf16Decode, utf16Encode, List.flatMap_cons, List.flatMap_nil,
      List.append_nil, utf16EncodeChar_decodeUnit_eq, List.mem_singleton] at h ⊢
    split at h
    · exact absurd h hu
    · exact h
  | case3 x y s hxy ih =>
    obtain ⟨hx, hy⟩ := Bool.and_eq_true_iff.mp hxy
    rw [toWellFormed_pair _ hx hy, List.mem_cons, List.mem_cons] at h
    rcases h with rfl | rfl | h
    · simp
    · simp
    · simp [ih h]
  | case4 x y s hxy ih =>
    have hxy' : (isHighSurrogate x && isLowSurrogate y) = false := by simpa using hxy
    rw [toWellFormed_lone _ hxy', List.mem_cons] at h
    rcases h with h | h
    · split at h
      · exact absurd h hu
      · simp [h]
    · exact List.mem_cons_of_mem _ (ih h)

/-- Decoding the code units of a character sequence gives the sequence back. -/
theorem utf16Decode_encodeChar_append (c : Char) (s : List UInt16) :
    utf16Decode (utf16EncodeChar c ++ s) = c :: utf16Decode s := by
  have hscalar := toNat_scalar c
  by_cases hc : c.toNat < 0x10000
  · have hu : (UInt16.ofNat c.toNat).toNat = c.toNat := by simp [Nat.mod_eq_of_lt hc]
    have hns : isSurrogate (UInt16.ofNat c.toNat) = false := by
      rw [isSurrogate_eq_false_iff, hu]
      omega
    have hdec : utf16DecodeUnit (UInt16.ofNat c.toNat) = c := by
      rw [utf16DecodeUnit, hns, if_neg Bool.false_ne_true, hu, Char.ofNat_toNat]
    rw [utf16EncodeChar, if_pos hc, List.singleton_append]
    cases s with
    | nil => simp [utf16Decode, hdec]
    | cons v s => simp [utf16Decode, hdec, (Bool.or_eq_false_iff.mp hns).1]
  · have hu : (UInt16.ofNat (0xD800 + (c.toNat - 0x10000) / 0x400)).toNat =
        0xD800 + (c.toNat - 0x10000) / 0x400 := by
      simp only [UInt16.toNat_ofNat']
      omega
    have hv : (UInt16.ofNat (0xDC00 + (c.toNat - 0x10000) % 0x400)).toNat =
        0xDC00 + (c.toNat - 0x10000) % 0x400 := by
      simp only [UInt16.toNat_ofNat']
      omega
    have hhigh : isHighSurrogate (UInt16.ofNat (0xD800 + (c.toNat - 0x10000) / 0x400)) = true := by
      simp only [isHighSurrogate, hu, decide_eq_true_eq]
      omega
    have hlow : isLowSurrogate (UInt16.ofNat (0xDC00 + (c.toNat - 0x10000) % 0x400)) = true := by
      simp only [isLowSurrogate, hv, decide_eq_true_eq]
      omega
    have hval : 0x10000 + (0xD800 + (c.toNat - 0x10000) / 0x400 - 0xD800) * 0x400 +
        (0xDC00 + (c.toNat - 0x10000) % 0x400 - 0xDC00) = c.toNat := by omega
    rw [utf16EncodeChar, if_neg hc, List.cons_append, List.singleton_append, utf16Decode, hhigh,
      hlow, Bool.and_self, if_pos rfl, utf16DecodePair, hu, hv, hval, Char.ofNat_toNat]

/-- Decoding undoes the encoding of characters. -/
@[simp] theorem utf16Decode_utf16Encode (cs : List Char) : utf16Decode (utf16Encode cs) = cs := by
  induction cs with
  | nil => rfl
  | cons c cs ih =>
    rw [utf16Encode, List.flatMap_cons, utf16Decode_encodeChar_append]
    exact congrArg _ ih

/-! ## ASCII -/

/-- A string of code units below 128. -/
def IsAscii (s : List UInt16) : Prop := ∀ u ∈ s, u.toNat < 128

instance (s : List UInt16) : Decidable (IsAscii s) :=
  List.decidableBAll (fun u : UInt16 => u.toNat < 128) s

theorem isSurrogate_of_lt {u : UInt16} (h : u.toNat < 128) : isSurrogate u = false :=
  isSurrogate_eq_false_iff.mpr (by omega)

/-- ASCII strings are well-formed. -/
theorem IsAscii.wellFormed {s : List UInt16} (h : IsAscii s) : WellFormed s := by
  induction s with
  | nil => rfl
  | cons u s ih =>
    have hu : u.toNat < 128 := h u (by simp)
    have hs : toWellFormed s = s := ih fun v hv => h v (by simp [hv])
    rw [WellFormed, toWellFormed_cons s (isSurrogate_of_lt hu), hs]

/-- Each ASCII code unit is one character. -/
theorem utf16Decode_cons_of_lt {u : UInt16} (s : List UInt16) (h : u.toNat < 128) :
    utf16Decode (u :: s) = Char.ofNat u.toNat :: utf16Decode s := by
  have hs := isSurrogate_of_lt h
  have hhigh : isHighSurrogate u = false := (Bool.or_eq_false_iff.mp hs).1
  cases s with
  | nil => simp [utf16Decode, utf16DecodeUnit, hs]
  | cons v s => simp [utf16Decode, utf16DecodeUnit, hs, hhigh]

theorem toNat_ofNat_of_lt {n : ℕ} (h : n < 128) : (Char.ofNat n).toNat = n :=
  toNat_ofNat_char (Or.inl (by omega))

/-- A character below 128 is its own byte. -/
theorem utf8EncodeChar_of_lt {c : Char} (h : c.toNat < 128) :
    String.utf8EncodeChar c = [UInt8.ofNat c.toNat] := by
  have hval : c.val.toNat ≤ 127 := Nat.le_of_lt_succ h
  simp only [String.utf8EncodeChar, if_pos hval]
  rfl

/-- ASCII strings are written one byte a code unit. -/
theorem toUtf8_of_isAscii {s : List UInt16} (h : IsAscii s) :
    toUtf8 s = s.map (fun u => UInt8.ofNat u.toNat) := by
  induction s with
  | nil => rfl
  | cons u s ih =>
    have hu : u.toNat < 128 := h u (by simp)
    have hc := toNat_ofNat_of_lt hu
    have hs : utf8Encode (utf16Decode s) = s.map (fun u => UInt8.ofNat u.toNat) :=
      ih fun v hv => h v (by simp [hv])
    rw [toUtf8, utf16Decode_cons_of_lt s hu, utf8Encode, List.flatMap_cons,
      utf8EncodeChar_of_lt (by omega), hc, ← utf8Encode, hs]
    rfl

/-- ASCII bytes are read one code unit a byte. -/
theorem ofUtf8_of_ascii {bs : List UInt8} (h : ∀ b ∈ bs, b.toNat < 128) :
    ofUtf8 bs = bs.map (fun b => UInt16.ofNat b.toNat) := by
  induction bs with
  | nil => rfl
  | cons b bs ih =>
    have hb : b.toNat < 128 := h b (by simp)
    have hc := toNat_ofNat_of_lt hb
    have hbs : utf16Encode (utf8Decode bs) = bs.map (fun b => UInt16.ofNat b.toNat) :=
      ih fun x hx => h x (by simp [hx])
    have hdec : utf8Decode (b :: bs) = Char.ofNat b.toNat :: utf8Decode bs := by
      rw [utf8Decode, utf8DecodeFrom_cons, utf8Step, utf8Lead, if_pos (by omega)]
      rfl
    rw [ofUtf8, hdec, utf16Encode, List.flatMap_cons, utf16EncodeChar, hc, if_pos (by omega),
      ← utf16Encode, hbs]
    rfl

/-! ## Sizes of characters -/

/-- A character has at least as many bytes as code units. -/
theorem length_utf16EncodeChar_le (c : Char) :
    (utf16EncodeChar c).length ≤ (String.utf8EncodeChar c).length := by
  have hval : c.val.toNat = c.toNat := rfl
  unfold utf16EncodeChar String.utf8EncodeChar
  simp only [hval]
  split_ifs
  all_goals simp
  omega

/-- It has equally many exactly below 128. -/
theorem length_utf8EncodeChar_eq_iff (c : Char) :
    (String.utf8EncodeChar c).length = (utf16EncodeChar c).length ↔ c.toNat < 128 := by
  have hval : c.val.toNat = c.toNat := rfl
  unfold utf16EncodeChar String.utf8EncodeChar
  simp only [hval]
  split_ifs <;> simp <;> omega

/-- A character sequence has at least as many bytes as code units. -/
theorem length_utf16Encode_le (cs : List Char) :
    (utf16Encode cs).length ≤ (utf8Encode cs).length := by
  induction cs with
  | nil => simp [utf16Encode, utf8Encode]
  | cons c cs ih =>
    have hc := length_utf16EncodeChar_le c
    simp only [utf16Encode, utf8Encode, List.flatMap_cons, List.length_append] at ih ⊢
    omega

/-- The byte length is the code unit length exactly on ASCII text. -/
theorem length_utf8Encode_eq_iff (cs : List Char) :
    (utf8Encode cs).length = (utf16Encode cs).length ↔ ∀ c ∈ cs, c.toNat < 128 := by
  induction cs with
  | nil => simp [utf16Encode, utf8Encode]
  | cons c cs ih =>
    have hc := length_utf16EncodeChar_le c
    have hcs := length_utf16Encode_le cs
    have hiff := length_utf8EncodeChar_eq_iff c
    simp only [utf16Encode, utf8Encode, List.flatMap_cons, List.length_append,
      List.forall_mem_cons] at ih hcs ⊢
    rw [← ih, ← hiff]
    omega

/-! ## Bytes of concatenations -/

/-- A code unit that is no surrogate separates the texts on both sides. -/
theorem utf16Decode_append_cons {u : UInt16} (h : isSurrogate u = false) (s t : List UInt16) :
    utf16Decode (s ++ u :: t) = utf16Decode s ++ utf16Decode (u :: t) := by
  have hdecode : ∀ s : List UInt16, utf16Decode s = utf16Decode (toWellFormed s) := fun s =>
    (utf16Decode_utf16Encode _).symm
  have hsplit : toWellFormed (s ++ u :: t) = utf16Encode (utf16Decode s ++ utf16Decode (u :: t)) := by
    rw [toWellFormed_append_cons h, ← toWellFormed_cons t h]
    simp [toWellFormed, utf16Encode]
  rw [hdecode, hsplit, utf16Decode_utf16Encode]

theorem toUtf8_append_cons {u : UInt16} (h : isSurrogate u = false) (s t : List UInt16) :
    toUtf8 (s ++ u :: t) = toUtf8 s ++ toUtf8 (u :: t) := by
  rw [toUtf8, utf16Decode_append_cons h]
  simp [toUtf8, utf8Encode]

theorem toUtf8_cons_of_lt {u : UInt16} (h : u.toNat < 128) (s : List UInt16) :
    toUtf8 (u :: s) = UInt8.ofNat u.toNat :: toUtf8 s := by
  have hc := toNat_ofNat_of_lt h
  rw [toUtf8, utf16Decode_cons_of_lt s h, utf8Encode, List.flatMap_cons,
    utf8EncodeChar_of_lt (by omega), hc]
  rfl

/-- The bytes below 128 are those of the ASCII code units. -/
theorem mem_of_mem_toUtf8 {s : List UInt16} {b : UInt8} (hb : b.toNat < 128) (h : b ∈ toUtf8 s) :
    UInt16.ofNat b.toNat ∈ s := by
  obtain ⟨c, hc, hmem⟩ := List.mem_flatMap.mp h
  have hval : c.val.toNat = c.toNat := rfl
  have hcode : c.toNat = b.toNat := by
    unfold String.utf8EncodeChar at hmem
    simp only [hval] at hmem
    split at hmem
    · rw [List.mem_singleton.mp hmem, toNat_ofNat_uint8 (by omega)]
    · -- the bytes of longer encodings are above 127
      exfalso
      split_ifs at hmem <;> simp only [List.mem_cons, List.not_mem_nil, or_false] at hmem
      · rcases hmem with rfl | rfl <;> rw [toNat_ofNat_uint8 (by omega)] at hb <;> omega
      · rcases hmem with rfl | rfl | rfl <;> rw [toNat_ofNat_uint8 (by omega)] at hb <;> omega
      · rcases hmem with rfl | rfl | rfl | rfl <;> rw [toNat_ofNat_uint8 (by omega)] at hb <;> omega
  have hunits : utf16EncodeChar c = [UInt16.ofNat b.toNat] := by
    rw [utf16EncodeChar, if_pos (by omega), hcode]
  have hwell : UInt16.ofNat b.toNat ∈ toWellFormed s :=
    List.mem_flatMap.mpr ⟨c, hc, by simp [hunits]⟩
  refine mem_of_mem_toWellFormed (fun heq => ?_) hwell
  have hnat := congrArg UInt16.toNat heq
  rw [UInt16.toNat_ofNat'] at hnat
  simp at hnat
  omega

/-- A code unit that stands for a character below 128 is that character. -/
theorem toNat_lt_of_utf16DecodeUnit {u : UInt16} (h : (utf16DecodeUnit u).toNat < 128) :
    u.toNat < 128 := by
  cases hu : isSurrogate u with
  | true =>
    rw [utf16DecodeUnit, if_pos hu] at h
    exact absurd h (by decide)
  | false =>
    have hvalid : u.toNat.isValidChar := by
      have hrange := isSurrogate_eq_false_iff.mp hu
      have hlt := u.toNat_lt
      unfold Nat.isValidChar
      omega
    rwa [utf16DecodeUnit, if_neg (by simp [hu]), toNat_ofNat_char hvalid] at h

/-- Text whose characters are below 128 is ASCII. -/
theorem isAscii_of_utf16Decode {s : List UInt16} (h : ∀ c ∈ utf16Decode s, c.toNat < 128) :
    IsAscii s := by
  induction s using utf16Decode.induct with
  | case1 => exact fun u hu => absurd hu (by simp)
  | case2 x =>
    intro u hu
    rw [List.mem_singleton.mp hu]
    exact toNat_lt_of_utf16DecodeUnit (h _ (by simp [utf16Decode]))
  | case3 x y s hxy ih =>
    exfalso
    have hpair := h (utf16DecodePair x y) (by simp [utf16Decode, hxy])
    have hunits : utf16EncodeChar (utf16DecodePair x y) = [x, y] := by
      obtain ⟨hx, hy⟩ := Bool.and_eq_true_iff.mp hxy
      exact utf16EncodeChar_decodePair hx hy
    rw [utf16EncodeChar, if_pos (by omega)] at hunits
    simp at hunits
  | case4 x y s hxy ih =>
    rw [utf16Decode, if_neg hxy, List.forall_mem_cons] at h
    intro u hu
    rcases List.mem_cons.mp hu with rfl | hu
    · exact toNat_lt_of_utf16DecodeUnit h.1
    · exact ih h.2 u hu

/-- Text has as many bytes as code units exactly when it is ASCII. -/
theorem length_toUtf8_eq_iff {s : List UInt16} : (toUtf8 s).length = s.length ↔ IsAscii s := by
  constructor
  · intro h
    rw [← length_toWellFormed s, toUtf8, toWellFormed, length_utf8Encode_eq_iff] at h
    exact isAscii_of_utf16Decode h
  · intro h
    rw [toUtf8_of_isAscii h, List.length_map]

end Lib
