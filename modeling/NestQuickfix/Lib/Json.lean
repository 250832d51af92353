import NestQuickfix.Lib.Unicode

/-!
# JSON texts of strings and objects

Writing and reading of the JSON values that are made of strings and objects, over UTF-16 code
units. The writer escapes quotes, backslashes, control characters and lone surrogates. The
reader takes what the writer leaves, with white space between the tokens. Numbers, arrays and
the literals are left out.
-/

namespace Lib

/-- A JSON value made of strings and objects, with the members in the order of the text. -/
inductive Json where
  | string (s : List UInt16)
  | object (members : List (List UInt16 × Json))

namespace Json

/-! ## Writing -/

/-- The code unit of a hexadecimal digit. -/
def hexDigit (n : ℕ) : UInt16 := if n < 10 then UInt16.ofNat (48 + n) else UInt16.ofNat (87 + n)

/-- `\u` and the four hexadecimal digits of a code unit. -/
def unicodeEscape (u : UInt16) : List UInt16 :=
  [92, 117, hexDigit (u.toNat / 4096), hexDigit (u.toNat / 256 % 16), hexDigit (u.toNat / 16 % 16),
    hexDigit (u.toNat % 16)]

/-- The text of a code unit that is no surrogate. -/
def escapeUnit (u : UInt16) : List UInt16 :=
  if u = 34 then [92, 34]
  else if u = 92 then [92, 92]
  else if u = 8 then [92, 98]
  else if u = 9 then [92, 116]
  else if u = 10 then [92, 110]
  else if u = 12 then [92, 102]
  else if u = 13 then [92, 114]
  else if u < 32 then unicodeEscape u
  else [u]

/-- The text of a string without its quotes. Surrogates are only kept in pairs. -/
def escape : List UInt16 → List UInt16
  | [] => []
  | [u] => if isSurrogate u then unicodeEscape u else escapeUnit u
  | u :: v :: s =>
    if isHighSurrogate u && isLowSurrogate v then u :: v :: escape s
    else if isSurrogate u then unicodeEscape u ++ escape (v :: s)
    else escapeUnit u ++ escape (v :: s)

/-- The text of a string. -/
def quote (s : List UInt16) : List UInt16 := 34 :: (escape s ++ [34])

mutual

/-- The text of a value. -/
def text : Json → List UInt16
  | .string s => quote s
  | .object members => 123 :: membersText members

/-- The text of the members of an object behind its opening brace. -/
def membersText : List (List UInt16 × Json) → List UInt16
  | [] => [125]
  | (key, value) :: members => quote key ++ 58 :: (text value ++ laterText members)

/-- The text of the members behind another one. -/
def laterText : List (List UInt16 × Json) → List UInt16
  | [] => [125]
  | (key, value) :: members => 44 :: (quote key ++ 58 :: (text value ++ laterText members))

end

/-! ## Reading -/

/-- The white space between tokens. -/
def skipSpace (s : List UInt16) : List UInt16 :=
  s.dropWhile fun u => u = 9 || u = 10 || u = 13 || u = 32

/-- The value of a hexadecimal digit. -/
def hexValue (u : UInt16) : Option ℕ :=
  if 48 ≤ u.toNat ∧ u.toNat ≤ 57 then some (u.toNat - 48)
  else if 97 ≤ u.toNat ∧ u.toNat ≤ 102 then some (u.toNat - 87)
  else if 65 ≤ u.toNat ∧ u.toNat ≤ 70 then some (u.toNat - 55)
  else none

/-- The code unit of four hexadecimal digits. -/
def hexUnit (a b c d : UInt16) : Option UInt16 := do
  let a ← hexValue a
  let b ← hexValue b
  let c ← hexValue c
  let d ← hexValue d
  return UInt16.ofNat (4096 * a + 256 * b + 16 * c + d)

/-- The code unit that a letter behind a backslash stands for. -/
def simpleEscape (u : UInt16) : Option UInt16 :=
  if u = 34 ∨ u = 92 ∨ u = 47 then some u
  else if u = 98 then some 8
  else if u = 116 then some 9
  else if u = 110 then some 10
  else if u = 102 then some 12
  else if u = 114 then some 13
  else none

/-- A string behind its opening quote, and the rest of the text. -/
def readString : List UInt16 → Option (List UInt16 × List UInt16)
  | [] => none
  | 34 :: rest => some ([], rest)
  | 92 :: 117 :: a :: b :: c :: d :: rest =>
    match hexUnit a b c d with
    | some u => (readString rest).map fun p => (u :: p.1, p.2)
    | none => none
  | 92 :: e :: rest =>
    match simpleEscape e with
    | some u => (readString rest).map fun p => (u :: p.1, p.2)
    | none => none
  | u :: rest => if u < 32 ∨ u = 92 then none else (readString rest).map fun p => (u :: p.1, p.2)

mutual

/-- A value at the begin of a text, and the rest of the text. -/
def readValue : ℕ → List UInt16 → Option (Json × List UInt16)
  | 0, _ => none
  | fuel + 1, s =>
    match skipSpace s with
    | 34 :: rest => (readString rest).map fun p => (.string p.1, p.2)
    | 123 :: rest =>
      match skipSpace rest with
      | 125 :: rest => some (.object [], rest)
      | rest => (readMembers fuel rest).map fun p => (.object p.1, p.2)
    | _ => none

/-- The members of an object from a key on. -/
def readMembers : ℕ → List UInt16 → Option (List (List UInt16 × Json) × List UInt16)
  | 0, _ => none
  | fuel + 1, s =>
    match skipSpace s with
    | 34 :: rest => do
      let (key, rest) ← readString rest
      match skipSpace rest with
      | 58 :: rest =>
        let (value, rest) ← readValue fuel rest
        match skipSpace rest with
        | 125 :: rest => some ([(key, value)], rest)
        | 44 :: rest => (readMembers fuel rest).map fun p => ((key, value) :: p.1, p.2)
        | _ => none
      | _ => none
    | _ => none

end

/-- Read a whole text. -/
def parse (s : List UInt16) : Option Json := do
  let (value, rest) ← readValue s.length s
  if skipSpace rest = [] then return value else none

/-! ## Reading back -/

theorem hexUnit_hexDigit (u : UInt16) : hexUnit (hexDigit (u.toNat / 4096))
    (hexDigit (u.toNat / 256 % 16)) (hexDigit (u.toNat / 16 % 16)) (hexDigit (u.toNat % 16)) =
      some u := by
  have hdigit : ∀ n < 16, hexValue (hexDigit n) = some n := by decide
  have hlt := u.toNat_lt
  have hvalue : 4096 * (u.toNat / 4096) + 256 * (u.toNat / 256 % 16) +
      16 * (u.toNat / 16 % 16) + u.toNat % 16 = u.toNat := by omega
  rw [hexUnit, hdigit _ (by omega), hdigit _ (by omega), hdigit _ (by omega), hdigit _ (by omega)]
  simp only [Option.bind_eq_bind, Option.bind_some, hvalue, UInt16.ofNat_toNat]
  rfl

theorem readString_unicodeEscape (u : UInt16) (t : List UInt16) :
    readString (unicodeEscape u ++ t) = (readString t).map fun p => (u :: p.1, p.2) := by
  simp only [unicodeEscape, List.cons_append, List.nil_append, readString, hexUnit_hexDigit]

/-- A code unit that needs no escape is read as it is. -/
theorem readString_cons {u : UInt16} (h : u ≠ 34 ∧ u ≠ 92 ∧ ¬ u < 32) (t : List UInt16) :
    readString (u :: t) = (readString t).map fun p => (u :: p.1, p.2) := by
  obtain ⟨h34, h92, h32⟩ := h
  rw [readString.eq_def]
  split
  · next heq => cases heq
  · next rest heq => exact absurd (List.cons.inj heq).1 h34
  · next heq => exact absurd (List.cons.inj heq).1 h92
  · next heq => exact absurd (List.cons.inj heq).1 h92
  · next v rest _ _ _ heq =>
    obtain ⟨rfl, rfl⟩ := List.cons.inj heq
    rw [if_neg (not_or.mpr ⟨h32, h92⟩)]

/-- A letter behind a backslash. -/
theorem readString_simpleEscape {e u : UInt16} (he : e ≠ 117) (hu : simpleEscape e = some u)
    (t : List UInt16) :
    readString (92 :: e :: t) = (readString t).map fun p => (u :: p.1, p.2) := by
  rw [readString.eq_def]
  split
  · next heq => cases heq
  · next rest heq => cases heq
  · next a b c d rest heq =>
    simp only [List.cons.injEq] at heq
    exact absurd heq.2.1 he
  · next e' rest _ heq =>
    simp only [List.cons.injEq] at heq
    obtain ⟨_, rfl, rfl⟩ := heq
    rw [hu]
  · next v rest _ _ h4 heq =>
    simp only [List.cons.injEq] at heq
    exact (h4 e t heq.1.symm heq.2.symm).elim

theorem readString_escapeUnit (u : UInt16) (t : List UInt16) :
    readString (escapeUnit u ++ t) = (readString t).map fun p => (u :: p.1, p.2) := by
  unfold escapeUnit
  by_cases h34 : u = 34
  · rw [if_pos h34, h34]
    exact readString_simpleEscape (by decide) rfl t
  rw [if_neg h34]
  by_cases h92 : u = 92
  · rw [if_pos h92, h92]
    exact readString_simpleEscape (by decide) rfl t
  rw [if_neg h92]
  split_ifs with h8 h9 h10 h12 h13 h32
  · rw [h8]
    exact readString_simpleEscape (by decide) rfl t
  · rw [h9]
    exact readString_simpleEscape (by decide) rfl t
  · rw [h10]
    exact readString_simpleEscape (by decide) rfl t
  · rw [h12]
    exact readString_simpleEscape (by decide) rfl t
  · rw [h13]
    exact readString_simpleEscape (by decide) rfl t
  · exact readString_unicodeEscape u t
  · exact readString_cons ⟨h34, h92, h32⟩ t

/-- Surrogates are read as they are. -/
theorem readString_surrogate {u : UInt16} (h : isSurrogate u = true) (t : List UInt16) :
    readString (u :: t) = (readString t).map fun p => (u :: p.1, p.2) := by
  apply readString_cons
  simp only [isSurrogate, isHighSurrogate, isLowSurrogate, Bool.or_eq_true, decide_eq_true_eq] at h
  refine ⟨?_, ?_, ?_⟩
  · rintro rfl
    simp at h
  · rintro rfl
    simp at h
  · rw [UInt16.lt_iff_toNat_lt]
    have h32 : (32 : UInt16).toNat = 32 := rfl
    omega

/-- A written string is read back, whatever follows it. -/
theorem readString_escape (s rest : List UInt16) :
    readString (escape s ++ 34 :: rest) = some (s, rest) := by
  have hend : readString (34 :: rest) = some ([], rest) := by rw [readString]
  fun_induction escape s with
  | case1 => exact hend
  | case2 u h => rw [readString_unicodeEscape, hend]; rfl
  | case3 u h => rw [readString_escapeUnit, hend]; rfl
  | case4 u v s h ih =>
    rw [Bool.and_eq_true] at h
    rw [List.cons_append, List.cons_append, readString_surrogate (by simp [isSurrogate, h.1]),
      readString_surrogate (by simp [isSurrogate, h.2]), ih]
    rfl
  | case5 u v s hpair h ih => rw [List.append_assoc, readString_unicodeEscape, ih]; rfl
  | case6 u v s hpair h ih => rw [List.append_assoc, readString_escapeUnit, ih]; rfl

/-- Nothing is skipped in front of a token. -/
theorem skipSpace_cons {u : UInt16} (h : (u = 9 || u = 10 || u = 13 || u = 32) = false)
    (t : List UInt16) : skipSpace (u :: t) = u :: t := List.dropWhile_cons_of_neg (by simp [h])

mutual

/-- A written value is read back, whatever follows it. -/
theorem readValue_text (fuel : ℕ) (value : Json) (rest : List UInt16)
    (hfuel : value.text.length ≤ fuel) :
    readValue fuel (value.text ++ rest) = some (value, rest) := by
  cases fuel with
  | zero => cases value <;> simp [text, quote] at hfuel
  | succ fuel =>
    cases value with
    | string s =>
      rw [text, quote, List.cons_append, List.append_assoc, List.singleton_append, readValue,
        skipSpace_cons rfl]
      simp only [readString_escape, Option.map_some]
    | object members =>
      rw [text, List.cons_append, readValue, skipSpace_cons rfl]
      cases members with
      | nil => rfl
      | cons member members =>
        obtain ⟨key, value⟩ := member
        have hlength : (membersText ((key, value) :: members)).length ≤ fuel := by
          rw [text, List.length_cons] at hfuel
          omega
        have hread := readMembers_text fuel key value members rest hlength
        rw [membersText, quote, List.cons_append, List.cons_append] at hread ⊢
        simp only [skipSpace_cons (u := 34) rfl]
        split
        · next heq => exact absurd (List.cons.inj heq).1 (by decide)
        · rw [hread, Option.map_some]

/-- The written members of an object are read back, whatever follows them. -/
theorem readMembers_text (fuel : ℕ) (key : List UInt16) (value : Json)
    (members : List (List UInt16 × Json)) (rest : List UInt16)
    (hfuel : (membersText ((key, value) :: members)).length ≤ fuel) :
    readMembers fuel (membersText ((key, value) :: members) ++ rest) =
      some ((key, value) :: members, rest) := by
  cases fuel with
  | zero => simp [membersText] at hfuel
  | succ fuel =>
    have hkey : membersText ((key, value) :: members) ++ rest =
        34 :: (escape key ++ 34 :: (58 :: (value.text ++ (laterText members ++ rest)))) := by
      rw [membersText, quote]
      simp only [List.cons_append, List.append_assoc, List.nil_append]
    rw [membersText, quote] at hfuel
    simp only [List.length_append, List.length_cons, List.length_nil] at hfuel
    have hvalue := readValue_text fuel value (laterText members ++ rest) (by omega)
    rw [hkey, readMembers, skipSpace_cons rfl]
    simp only [readString_escape, Option.bind_eq_bind, Option.bind_some]
    rw [skipSpace_cons rfl]
    simp only [hvalue, Option.bind_some]
    cases members with
    | nil => rfl
    | cons member members =>
      obtain ⟨key', value'⟩ := member
      have hlater : laterText ((key', value') :: members) =
          44 :: membersText ((key', value') :: members) := by rw [laterText, membersText]
      have hmembers := readMembers_text fuel key' value' members rest (by
        rw [hlater, List.length_cons] at hfuel
        omega)
      rw [laterText, List.cons_append, skipSpace_cons rfl]
      rw [membersText] at hmembers
      simp only [hmembers, Option.map_some]

end

/-- A written value is read back. -/
theorem parse_text (value : Json) : parse value.text = some value := by
  have hread := readValue_text value.text.length value [] le_rfl
  rw [List.append_nil] at hread
  rw [parse, hread]
  rfl

end Json

end Lib
