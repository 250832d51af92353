import NestQuickfix.Lib.Unicode

/-!
# ASCII bytes in UTF-8

An ASCII byte never belongs to a longer sequence: whatever precedes it, well formed or not, it
is decoded to its own character, and no other byte is. So decoding can be split at separators
that are ASCII characters.
-/

namespace Lib

/-- A decoder state whose pending sequence continues with bytes above the ASCII range, and
stands for a character above it. -/
def Utf8State.AboveAscii : Utf8State → Prop
  | .boundary => True
  | .pending needed lower _ value => 0x80 ≤ lower ∧
      (needed = 1 ∧ 0x80 ≤ value * 64 + (lower - 0x80) ∨
        needed = 2 ∧ 0x80 ≤ value * 4096 + (lower - 0x80) * 64 ∨
        needed = 3 ∧ 0x80 ≤ value * 262144 + (lower - 0x80) * 4096)

/-- A first byte leads to such a state. -/
theorem aboveAscii_utf8Lead (b : ℕ) : (utf8Lead b).2.AboveAscii := by
  unfold utf8Lead
  repeat' split
  all_goals simp [Utf8State.AboveAscii]
  all_goals omega

/-- The next byte leads to such a state. -/
theorem Utf8State.AboveAscii.step {st : Utf8State} (h : st.AboveAscii) (b : ℕ) :
    (utf8Step st b).2.AboveAscii := by
  cases st with
  | boundary => exact aboveAscii_utf8Lead b
  | pending needed lower upper value =>
    obtain ⟨hlower, hneeded⟩ := h
    unfold utf8Step
    dsimp only
    split
    · split
      · trivial
      · simp only [AboveAscii]
        omega
    · exact aboveAscii_utf8Lead b

/-- The value of a code point, or zero where there is no character. -/
theorem toNat_ofNat_char_cases (n : ℕ) : (Char.ofNat n).toNat = n ∨ (Char.ofNat n).toNat = 0 := by
  by_cases h : n.isValidChar
  · exact Or.inl (toNat_ofNat_char h)
  · right
    rw [Char.ofNat, dif_neg h]
    rfl

theorem toNat_replacementChar : replacementChar.toNat = 0xFFFD := by decide

/-- An ASCII character decoded at a first byte is this byte. -/
theorem toNat_of_mem_utf8Lead {b : ℕ} {c : Char} (h : c ∈ (utf8Lead b).1) (hpos : 0 < c.toNat)
    (hascii : c.toNat < 0x80) : c.toNat = b := by
  have hreplacement := toNat_replacementChar
  have hcases := toNat_ofNat_char_cases b
  unfold utf8Lead at h
  repeat' split at h
  all_goals simp only [List.mem_singleton, List.not_mem_nil] at h
  all_goals subst h; omega

/-- An ASCII character is decoded from the same byte. -/
theorem Utf8State.AboveAscii.toNat_of_mem {st : Utf8State} (hst : st.AboveAscii) {b : ℕ} {c : Char}
    (h : c ∈ (utf8Step st b).1) (hpos : 0 < c.toNat) (hascii : c.toNat < 0x80) : c.toNat = b := by
  cases st with
  | boundary => exact toNat_of_mem_utf8Lead h hpos hascii
  | pending needed lower upper value =>
    obtain ⟨hlower, hneeded⟩ := hst
    have hreplacement := toNat_replacementChar
    unfold utf8Step at h
    dsimp only at h
    split at h
    · split at h
      · have hcases := toNat_ofNat_char_cases (value * 64 + (b - 0x80))
        rw [List.mem_singleton] at h
        rw [← h] at hcases
        omega
      · cases h
    · rcases List.mem_cons.mp h with rfl | h
      · omega
      · exact toNat_of_mem_utf8Lead h hpos hascii

/-- An ASCII byte ends what is pending and is decoded by itself. -/
theorem Utf8State.AboveAscii.step_ascii {st : Utf8State} (hst : st.AboveAscii) {b : ℕ}
    (hb : b < 0x80) :
    utf8Step st b = (utf8DecodeFrom st [] ++ [Char.ofNat b], .boundary) := by
  have hlead : utf8Lead b = ([Char.ofNat b], .boundary) := if_pos (by omega)
  cases st with
  | boundary => rw [utf8Step, hlead, utf8DecodeFrom, List.nil_append]
  | pending needed lower upper value =>
    have hlower := hst.1
    rw [utf8Step, if_neg (by omega), hlead]
    rfl

/-- Decoding works separately on both sides of an ASCII byte. -/
theorem utf8DecodeFrom_append_cons {st : Utf8State} (hst : st.AboveAscii) {b : UInt8}
    (hb : b.toNat < 0x80) (xs ys : List UInt8) :
    utf8DecodeFrom st (xs ++ b :: ys) =
      utf8DecodeFrom st xs ++ Char.ofNat b.toNat :: utf8Decode ys := by
  induction xs generalizing st with
  | nil =>
    rw [List.nil_append, utf8DecodeFrom_cons, hst.step_ascii hb, List.append_assoc]
    rfl
  | cons x xs ih =>
    rw [List.cons_append, utf8DecodeFrom_cons, utf8DecodeFrom_cons, ih (hst.step x.toNat),
      List.append_assoc]

/-- An ASCII character in the decoded text is a byte of the data. -/
theorem mem_of_mem_utf8DecodeFrom {st : Utf8State} (hst : st.AboveAscii) {bs : List UInt8}
    {c : Char} (h : c ∈ utf8DecodeFrom st bs) (hpos : 0 < c.toNat) (hascii : c.toNat < 0x80) :
    ∃ b ∈ bs, b.toNat = c.toNat := by
  induction bs generalizing st with
  | nil =>
    have hreplacement := toNat_replacementChar
    cases st with
    | boundary => cases h
    | pending needed lower upper value =>
      obtain rfl := List.mem_singleton.mp h
      omega
  | cons b bs ih =>
    rw [utf8DecodeFrom_cons, List.mem_append] at h
    rcases h with h | h
    · exact ⟨b, by simp, (hst.toNat_of_mem h hpos hascii).symm⟩
    · obtain ⟨b', hb', heq⟩ := ih (hst.step b.toNat) h
      exact ⟨b', List.mem_cons_of_mem b hb', heq⟩

/-- Only the end of the data at a character boundary decodes to nothing. -/
theorem eq_nil_of_utf8DecodeFrom {st : Utf8State} {bs : List UInt8}
    (h : utf8DecodeFrom st bs = []) : st = .boundary ∧ bs = [] := by
  induction bs generalizing st with
  | nil =>
    cases st with
    | boundary => exact ⟨rfl, rfl⟩
    | pending needed lower upper value => cases h
  | cons b bs ih =>
    rw [utf8DecodeFrom_cons, List.append_eq_nil_iff] at h
    obtain ⟨hnil, hrest⟩ := h
    have hboundary := (ih hrest).1
    exfalso
    have hlead : ∀ n, (utf8Lead n).2 = .boundary → (utf8Lead n).1 ≠ [] := by
      intro n
      unfold utf8Lead
      repeat' split
      all_goals simp
    cases st with
    | boundary => exact hlead _ hboundary hnil
    | pending needed lower upper value =>
      unfold utf8Step at hnil hboundary
      dsimp only at hnil hboundary
      split at hnil
      · next hrange =>
        rw [if_pos hrange] at hboundary
        split at hnil
        · cases hnil
        · next hneeded =>
          rw [if_neg hneeded] at hboundary
          cases hboundary
      · cases hnil

/-! ## Code units -/

theorem utf16Encode_append (cs ds : List Char) :
    utf16Encode (cs ++ ds) = utf16Encode cs ++ utf16Encode ds := List.flatMap_append

theorem utf16Encode_cons (c : Char) (cs : List Char) :
    utf16Encode (c :: cs) = utf16EncodeChar c ++ utf16Encode cs := List.flatMap_cons

/-- Converting data works separately on both sides of an ASCII byte. -/
theorem ofUtf8_append_cons {b : UInt8} (hb : b.toNat < 0x80) (xs ys : List UInt8) :
    ofUtf8 (xs ++ b :: ys) = ofUtf8 xs ++ UInt16.ofNat b.toNat :: ofUtf8 ys := by
  have hchar : (Char.ofNat b.toNat).toNat = b.toNat := toNat_ofNat_char (Or.inl (by omega))
  have hboundary : Utf8State.boundary.AboveAscii := trivial
  have hunit : utf16EncodeChar (Char.ofNat b.toNat) = [UInt16.ofNat b.toNat] := by
    rw [utf16EncodeChar, hchar, if_pos (by omega)]
  rw [ofUtf8, utf8Decode, utf8DecodeFrom_append_cons hboundary hb, utf16Encode_append,
    utf16Encode_cons, hunit]
  rfl

/-- An ASCII code unit in the converted text is a byte of the data. -/
theorem mem_of_mem_ofUtf8 {u : UInt16} {bs : List UInt8} (h : u ∈ ofUtf8 bs)
    (hpos : 0 < u.toNat) (hascii : u.toNat < 0x80) : ∃ b ∈ bs, b.toNat = u.toNat := by
  obtain ⟨c, hc, hu⟩ := List.mem_flatMap.mp h
  have hchar : c.toNat = u.toNat := by
    unfold utf16EncodeChar at hu
    split at hu
    · next hbmp =>
      obtain rfl := List.mem_singleton.mp hu
      simp only [UInt16.toNat_ofNat']
      omega
    · have hvalid := toNat_scalar c
      rcases List.mem_cons.mp hu with rfl | hu
      · simp only [UInt16.toNat_ofNat'] at hascii
        omega
      · obtain rfl := List.mem_singleton.mp hu
        simp only [UInt16.toNat_ofNat'] at hascii
        omega
  have hboundary : Utf8State.boundary.AboveAscii := trivial
  obtain ⟨b, hb, heq⟩ := mem_of_mem_utf8DecodeFrom hboundary hc (by omega) (by omega)
  exact ⟨b, hb, heq.trans hchar⟩

/-- Some data is converted to some text. -/
theorem ofUtf8_ne_nil {bs : List UInt8} (h : bs ≠ []) : ofUtf8 bs ≠ [] := by
  intro hnil
  have hdecoded : utf8Decode bs = [] := by
    cases hcs : utf8Decode bs with
    | nil => rfl
    | cons c cs =>
      rw [ofUtf8, hcs, utf16Encode_cons, List.append_eq_nil_iff] at hnil
      unfold utf16EncodeChar at hnil
      split at hnil <;> exact absurd hnil.1 (List.cons_ne_nil _ _)
  exact h (eq_nil_of_utf8DecodeFrom hdecoded).2

end Lib
