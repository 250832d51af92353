import Mathlib.Data.List.TakeWhile
import NestQuickfix.Lib.Unicode

/-!
# Text and numbers of the source language

The strings of the source are UTF-16 code unit sequences. Its numbers are
modelled by the integers and NaN: nothing in the modelled code computes a
fraction. Left out are the rounding of integers from 2^53 on and the exponents
that are printed from 10^21 on. This file has the conversions between the two
that the source uses, template-literal printing and `parseInt`.
-/

namespace NestQuickfix

open Lib

/-- A string: its UTF-16 code units. -/
abbrev JSString := List UInt16

/-- A string literal of the source. -/
def js (s : String) : JSString := utf16Encode s.toList

/-- The field separator `'\x01'`. -/
def SOH : UInt16 := 1

/-- The separator `'='` between tag and value. -/
def EQ : UInt16 := 61

/-- A number of the source. -/
inductive Number where
  | int (z : ℤ)
  | nan
  deriving DecidableEq

/-- The decimal digits of a natural number. -/
def natText (n : ℕ) : JSString := (Nat.toDigits 10 n).map (fun c => UInt16.ofNat c.toNat)

/-- The conversion of a number to a string. -/
def Number.text : Number → JSString
  | .int (.ofNat n) => natText n
  | .int (.negSucc n) => 45 :: natText (n + 1)
  | .nan => js "NaN"

/-- `padStart(width, '0')`. -/
def padStart (width : ℕ) (s : JSString) : JSString := List.replicate (width - s.length) 48 ++ s

/-- The white space and line terminators that `parseInt` skips. -/
def isWhiteSpace (u : UInt16) : Bool :=
  decide (u.toNat ∈ [9, 10, 11, 12, 13, 32, 0xA0, 0x1680, 0x2028, 0x2029, 0x202F, 0x205F, 0x3000,
    0xFEFF] ∨ (0x2000 ≤ u.toNat ∧ u.toNat ≤ 0x200A))

/-- The value of a digit or letter. -/
def digitValue (u : UInt16) : Option ℕ :=
  if 48 ≤ u.toNat ∧ u.toNat ≤ 57 then some (u.toNat - 48)
  else if 97 ≤ u.toNat ∧ u.toNat ≤ 122 then some (u.toNat - 87)
  else if 65 ≤ u.toNat ∧ u.toNat ≤ 90 then some (u.toNat - 55)
  else none

/-- Whether a code unit is a digit of the radix. -/
def isRadixDigit (radix : ℕ) (u : UInt16) : Bool := (digitValue u).any (fun d => decide (d < radix))

/-- The number written by digits of the radix, most significant first. -/
def digitsValue (radix : ℕ) (ds : JSString) : ℕ :=
  ds.foldl (fun acc u => acc * radix + (digitValue u).getD 0) 0

/-- `parseInt` without its leading white space and sign: an optional `0x`, then
the longest run of digits; NaN when there is none. -/
def parseMagnitude (s : JSString) : Option ℕ :=
  match s with
  | 48 :: x :: t =>
    if x = 120 ∨ x = 88 then
      let ds := t.takeWhile (isRadixDigit 16)
      if ds = [] then none else some (digitsValue 16 ds)
    else some (digitsValue 10 (s.takeWhile (isRadixDigit 10)))
  | _ =>
    let ds := s.takeWhile (isRadixDigit 10)
    if ds = [] then none else some (digitsValue 10 ds)

/-- `parseInt(s)`. -/
def parseInt (s : JSString) : Number :=
  match s.dropWhile isWhiteSpace with
  | 45 :: t => (parseMagnitude t).elim .nan (fun n => .int (-n))
  | 43 :: t => (parseMagnitude t).elim .nan (fun n => .int n)
  | t => (parseMagnitude t).elim .nan (fun n => .int n)

example : parseInt (js " -12abc") = .int (-12) ∧ parseInt (js "0x1F") = .int 31 ∧
    parseInt (js "abc") = .nan := by decide

/-! ## Printing and reading back -/

/-- The code unit of a decimal digit. -/
theorem toNat_digitUnit {d : ℕ} (h : d < 10) :
    (UInt16.ofNat (Nat.digitChar d).toNat).toNat = 48 + d := by
  rw [Nat.toNat_digitChar_of_lt_ten h, UInt16.toNat_ofNat']
  omega

/-- The digits of a number of several digits: those of its tenth, then the last one. -/
theorem natText_of_le {n : ℕ} (h : 10 ≤ n) :
    natText n = natText (n / 10) ++ [UInt16.ofNat (Nat.digitChar (n % 10)).toNat] := by
  rw [natText, Nat.toDigits_of_base_le (by omega) h, List.map_append]
  rfl

theorem natText_of_lt {n : ℕ} (h : n < 10) :
    natText n = [UInt16.ofNat (Nat.digitChar n).toNat] := by
  rw [natText, Nat.toDigits_of_lt_base h]
  rfl

/-- A property of digits holds of every code unit of a printed number. -/
theorem forall_mem_natText {p : UInt16 → Prop}
    (hp : ∀ d < 10, p (UInt16.ofNat (Nat.digitChar d).toNat)) (n : ℕ) : ∀ u ∈ natText n, p u := by
  induction n using Nat.strongRecOn with
  | ind n ih =>
    by_cases h : n < 10
    · rw [natText_of_lt h]
      simpa using hp n h
    · rw [natText_of_le (by omega)]
      intro u hu
      rcases List.mem_append.mp hu with hu | hu
      · exact ih (n / 10) (by omega) u hu
      · rw [List.mem_singleton.mp hu]
        exact hp _ (by omega)

/-- Printed numbers consist of the code units of `0` to `9`. -/
theorem natText_digits (n : ℕ) : ∀ u ∈ natText n, 48 ≤ u.toNat ∧ u.toNat ≤ 57 := by
  apply forall_mem_natText
  intro d hd
  rw [toNat_digitUnit hd]
  omega

theorem natText_ne_nil (n : ℕ) : natText n ≠ [] := by
  simp [natText]

/-- The digits of a number have its value. -/
theorem digitsValue_natText (n : ℕ) : digitsValue 10 (natText n) = n := by
  induction n using Nat.strongRecOn with
  | ind n ih =>
    have hdigit : ∀ d < 10, (digitValue (UInt16.ofNat (Nat.digitChar d).toNat)).getD 0 = d := by
      intro d hd
      rw [digitValue, toNat_digitUnit hd, if_pos (by omega), Option.getD_some]
      omega
    by_cases h : n < 10
    · rw [natText_of_lt h, digitsValue, List.foldl_cons, hdigit n h]
      simp
    · have hlt : n / 10 < n := by omega
      have hprev := ih (n / 10) hlt
      rw [digitsValue] at hprev
      rw [natText_of_le (by omega), digitsValue, List.foldl_append, hprev, List.foldl_cons,
        hdigit _ (by omega)]
      simp only [List.foldl_nil]
      omega

/-- Different numbers are printed differently. -/
theorem natText_injective : Function.Injective natText := fun m n h => by
  rw [← digitsValue_natText m, h, digitsValue_natText]

theorem isRadixDigit_of_digit {u : UInt16} (h : 48 ≤ u.toNat ∧ u.toNat ≤ 57) :
    isRadixDigit 10 u = true := by
  rw [isRadixDigit, digitValue, if_pos h]
  simp
  omega

/-- Taking the leading digits of a printed number takes all of it. -/
theorem takeWhile_natText (n : ℕ) : (natText n).takeWhile (isRadixDigit 10) = natText n :=
  List.takeWhile_eq_self_iff.mpr fun u hu => isRadixDigit_of_digit (natText_digits n u hu)

theorem parseMagnitude_natText (n : ℕ) : parseMagnitude (natText n) = some n := by
  have hvalue := digitsValue_natText n
  have htake := takeWhile_natText n
  have hdigits := natText_digits n
  have hne := natText_ne_nil n
  unfold parseMagnitude
  split
  · next x t heq =>
    have hx := hdigits x (by simp [heq])
    have hx' : ¬ (x = 120 ∨ x = 88) := by
      rintro (rfl | rfl) <;> simp at hx
    rw [if_neg hx', htake, hvalue]
  · simp only [htake, hvalue, if_neg hne]

/-- `parseInt` reads a printed number back. -/
theorem parseInt_natText (n : ℕ) : parseInt (natText n) = .int n := by
  have hmag := parseMagnitude_natText n
  have hdigits := natText_digits n
  have hdrop : (natText n).dropWhile isWhiteSpace = natText n := by
    apply List.dropWhile_eq_self_iff.mpr
    intro hpos hspace
    have hu := hdigits _ (List.getElem_mem hpos)
    simp only [isWhiteSpace, decide_eq_true_eq, List.mem_cons, List.not_mem_nil,
      or_false] at hspace
    omega
  unfold parseInt
  rw [hdrop]
  split
  · next t heq => exact absurd (hdigits 45 (by simp [heq])) (by decide)
  · next t heq => exact absurd (hdigits 43 (by simp [heq])) (by decide)
  · rw [hmag]
    rfl

end NestQuickfix
