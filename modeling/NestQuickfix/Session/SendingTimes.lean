import Mathlib.Tactic.Ring
import NestQuickfix.Lib.Calendar
import NestQuickfix.Message.Trailer
import NestQuickfix.Session.SequenceNumbers

/-!
# Sending times

`FixDateFormat` writes an instant in UTC: the year as it is, the other components with a
fixed number of digits. Behind the year everything has a fixed length, so the text gives the
instant away, and for years of four digits the texts are ordered as the instants are.
-/

namespace NestQuickfix

open Lib Lib.Calendar

namespace FixDateFormat

/-! ## The components of an instant -/

/-- The day of an instant, which is given in milliseconds since 1970. -/
def date (t : ℤ) : Date := .ofDay (t / 86400000)

/-- The milliseconds since midnight. -/
def timeWithinDay (t : ℤ) : ℕ := (t % 86400000).toNat

def getUTCFullYear (t : ℤ) : ℤ := (date t).year

def getUTCMonth (t : ℤ) : ℕ := (date t).month

def getUTCDate (t : ℤ) : ℕ := (date t).day

def getUTCHours (t : ℤ) : ℕ := timeWithinDay t / 3600000

def getUTCMinutes (t : ℤ) : ℕ := timeWithinDay t / 60000 % 60

def getUTCSeconds (t : ℤ) : ℕ := timeWithinDay t / 1000 % 60

def getUTCMilliseconds (t : ℤ) : ℕ := timeWithinDay t % 1000

/-- A number with leading zeros. -/
def padded (width n : ℕ) : JSString := padStart width (natText n)

/-- `formatDateTime`. -/
def formatDateTime (t : ℤ) : JSString :=
  (Number.int (getUTCFullYear t)).text ++ padded 2 (getUTCMonth t + 1) ++ padded 2 (getUTCDate t) ++
    js "-" ++ padded 2 (getUTCHours t) ++ js ":" ++ padded 2 (getUTCMinutes t) ++ js ":" ++
    padded 2 (getUTCSeconds t) ++ js "." ++ padded 3 (getUTCMilliseconds t)

example : formatDateTime 1709210096789 = js "20240229-12:34:56.789" ∧
    formatDateTime (-1) = js "19691231-23:59:59.999" := by decide +kernel

variable {t u : ℤ} {m n w : ℕ}

/-! ## Numerals of a fixed length -/

/-- The first of two differing parts decides the order of two texts. -/
theorem append_lt_append_iff {a b x y : JSString} (h : a.length = b.length) :
    a ++ x < b ++ y ↔ a < b ∨ a = b ∧ x < y := by
  induction a generalizing b with
  | nil =>
    obtain rfl := List.length_eq_zero_iff.mp h.symm
    simp
  | cons c a ih =>
    cases b with
    | nil => cases h
    | cons d b =>
      rw [List.cons_append, List.cons_append, List.cons_lt_cons_iff, List.cons_lt_cons_iff,
        ih (Nat.succ.inj h), List.cons.injEq]
      tauto

theorem digitsValue_cons (c : UInt16) (s : JSString) : digitsValue 10 (c :: s) =
    (digitValue c).getD 0 * 10 ^ s.length + digitsValue 10 s := by
  have hfold : ∀ (s : JSString) acc, s.foldl (fun acc c => acc * 10 + (digitValue c).getD 0) acc =
      acc * 10 ^ s.length + digitsValue 10 s := by
    intro s
    induction s with
    | nil => simp [digitsValue]
    | cons c s ih =>
      intro acc
      rw [digitsValue, List.foldl_cons, List.foldl_cons, ih, ih, List.length_cons, Nat.pow_succ]
      ring
  rw [digitsValue, List.foldl_cons, hfold, Nat.zero_mul, Nat.zero_add]

/-- A text of digits. -/
def Digits (s : JSString) : Prop := ∀ c ∈ s, 48 ≤ c.toNat ∧ c.toNat ≤ 57

theorem digitValue_of_digit {c : UInt16} (h : 48 ≤ c.toNat ∧ c.toNat ≤ 57) :
    (digitValue c).getD 0 = c.toNat - 48 := by
  rw [digitValue, if_pos h]
  rfl

theorem digitsValue_lt {s : JSString} (h : Digits s) : digitsValue 10 s < 10 ^ s.length := by
  induction s with
  | nil => exact Nat.one_pos
  | cons c s ih =>
    obtain ⟨hc, hs⟩ := List.forall_mem_cons.mp h
    have hlt := ih hs
    rw [digitsValue_cons, digitValue_of_digit hc, List.length_cons, Nat.pow_succ]
    have hmul : (c.toNat - 48) * 10 ^ s.length ≤ 9 * 10 ^ s.length :=
      Nat.mul_le_mul_right _ (by omega)
    omega

/-- Numerals of the same length are ordered as their values are. -/
theorem lt_iff_digitsValue_lt {s u : JSString} (hs : Digits s) (hu : Digits u)
    (hlength : s.length = u.length) : s < u ↔ digitsValue 10 s < digitsValue 10 u := by
  induction s generalizing u with
  | nil =>
    obtain rfl := List.length_eq_zero_iff.mp hlength.symm
    simp
  | cons c s ih =>
    cases u with
    | nil => cases hlength
    | cons d u =>
      obtain ⟨hc, hs⟩ := List.forall_mem_cons.mp hs
      obtain ⟨hd, hu⟩ := List.forall_mem_cons.mp hu
      have hlength' : s.length = u.length := Nat.succ.inj hlength
      have hlts := digitsValue_lt hs
      have hltu := digitsValue_lt hu
      rw [List.cons_lt_cons_iff, ih hs hu hlength', digitsValue_cons, digitsValue_cons,
        digitValue_of_digit hc, digitValue_of_digit hd, UInt16.lt_iff_toNat_lt,
        ← UInt16.toNat_inj]
      rw [hlength'] at hlts ⊢
      obtain ⟨a, ha⟩ : ∃ a, c.toNat = 48 + a := ⟨c.toNat - 48, by omega⟩
      obtain ⟨b, hb⟩ : ∃ b, d.toNat = 48 + b := ⟨d.toNat - 48, by omega⟩
      rw [ha, hb, Nat.add_sub_cancel_left, Nat.add_sub_cancel_left]
      rcases lt_trichotomy a b with hab | rfl | hab
      · have hmul : (a + 1) * 10 ^ u.length ≤ b * 10 ^ u.length := Nat.mul_le_mul_right _ hab
        rw [Nat.add_mul, Nat.one_mul] at hmul
        exact iff_of_true (Or.inl (by omega)) (by omega)
      · simp
      · have hmul : (b + 1) * 10 ^ u.length ≤ a * 10 ^ u.length := Nat.mul_le_mul_right _ hab
        rw [Nat.add_mul, Nat.one_mul] at hmul
        exact iff_of_false (by omega) (by omega)

theorem digits_padded (w n : ℕ) : Digits (padded w n) := by
  intro c hc
  rcases List.mem_append.mp hc with hc | hc
  · rw [(List.mem_replicate.mp hc).2]
    decide
  · exact natText_digits n c hc

theorem length_padded (hw : 0 < w) (h : n < 10 ^ w) : (padded w n).length = w := by
  have hle : (natText n).length ≤ w := by
    rw [natText, List.length_map]
    exact (Nat.length_toDigits_le_iff (by decide) hw).mpr h
  rw [padded, padStart, List.length_append, List.length_replicate]
  omega

theorem padded_lt_iff (hw : 0 < w) (hm : m < 10 ^ w) (hn : n < 10 ^ w) :
    padded w m < padded w n ↔ m < n := by
  rw [lt_iff_digitsValue_lt (digits_padded w m) (digits_padded w n)
    ((length_padded hw hm).trans (length_padded hw hn).symm), padded, padded, digitsValue_padStart,
    digitsValue_padStart]

/-- A padded number decides the order of the texts it begins. -/
theorem padded_append_lt_iff {x y : JSString} (hw : 0 < w) (hm : m < 10 ^ w) (hn : n < 10 ^ w) :
    padded w m ++ x < padded w n ++ y ↔ m < n ∨ m = n ∧ x < y := by
  rw [append_lt_append_iff ((length_padded hw hm).trans (length_padded hw hn).symm),
    padded_lt_iff hw hm hn]
  exact or_congr_right (and_congr_left' padStart_natText_inj)

theorem append_left_lt_iff (a : JSString) {x y : JSString} : a ++ x < a ++ y ↔ x < y := by
  rw [append_lt_append_iff rfl]
  simp

/-! ## Instants and their components -/

/-- The components within the day, with their bounds. -/
theorem components_lt (t : ℤ) : getUTCMonth t + 1 < 10 ^ 2 ∧ getUTCDate t < 10 ^ 2 ∧
    getUTCHours t < 24 ∧ getUTCMinutes t < 60 ∧ getUTCSeconds t < 60 ∧
      getUTCMilliseconds t < 10 ^ 3 := by
  have hmonth : getUTCMonth t < 12 := (date t).month_lt
  have hday : getUTCDate t ≤ 31 := by
    have hall : ∀ leap : Bool, ∀ m < 12, monthLength leap m ≤ 31 := by decide
    exact (date t).day_le.trans (hall _ _ (date t).month_lt)
  have htime : timeWithinDay t < 86400000 := by
    unfold timeWithinDay
    omega
  unfold getUTCHours getUTCMinutes getUTCSeconds getUTCMilliseconds
  omega

/-- The order of instants is that of their components. -/
theorem lt_iff_components : t < u ↔ (date t).Before (date u) ∨ date t = date u ∧
    (getUTCHours t < getUTCHours u ∨ getUTCHours t = getUTCHours u ∧
      (getUTCMinutes t < getUTCMinutes u ∨ getUTCMinutes t = getUTCMinutes u ∧
        (getUTCSeconds t < getUTCSeconds u ∨ getUTCSeconds t = getUTCSeconds u ∧
          getUTCMilliseconds t < getUTCMilliseconds u))) := by
  have hdate : date t = date u ↔ t / 86400000 = u / 86400000 := by
    refine ⟨fun h => ?_, fun h => by rw [date, h, date]⟩
    have hday := congrArg Date.toDay h
    rwa [date, date, Date.toDay_ofDay, Date.toDay_ofDay] at hday
  rw [← Date.toDay_lt_iff, hdate, date, date, Date.toDay_ofDay, Date.toDay_ofDay]
  unfold getUTCHours getUTCMinutes getUTCSeconds getUTCMilliseconds timeWithinDay
  omega

/-! ## The text of an instant -/

/-- The text behind the year. -/
def afterYear (t : ℤ) : JSString :=
  padded 2 (getUTCMonth t + 1) ++ (padded 2 (getUTCDate t) ++ (js "-" ++
    (padded 2 (getUTCHours t) ++ (js ":" ++ (padded 2 (getUTCMinutes t) ++ (js ":" ++
      (padded 2 (getUTCSeconds t) ++ (js "." ++ padded 3 (getUTCMilliseconds t)))))))))

theorem formatDateTime_eq (t : ℤ) :
    formatDateTime t = (Number.int (getUTCFullYear t)).text ++ afterYear t := by
  simp only [formatDateTime, afterYear, List.append_assoc]

theorem length_afterYear (t : ℤ) : (afterYear t).length = 17 := by
  obtain ⟨hmonth, hday, hhours, hminutes, hseconds, hmilliseconds⟩ := components_lt t
  simp only [afterYear, List.length_append]
  rw [length_padded (by decide) hmonth, length_padded (by decide) hday,
    length_padded (by decide) (by omega), length_padded (by decide) (by omega),
    length_padded (by decide) (by omega), length_padded (by decide) hmilliseconds]
  rfl

/-- Texts behind a year are compared component by component. -/
theorem afterYear_lt_iff : afterYear t < afterYear u ↔ getUTCMonth t < getUTCMonth u ∨
    getUTCMonth t = getUTCMonth u ∧ (getUTCDate t < getUTCDate u ∨ getUTCDate t = getUTCDate u ∧
      (getUTCHours t < getUTCHours u ∨ getUTCHours t = getUTCHours u ∧
        (getUTCMinutes t < getUTCMinutes u ∨ getUTCMinutes t = getUTCMinutes u ∧
          (getUTCSeconds t < getUTCSeconds u ∨ getUTCSeconds t = getUTCSeconds u ∧
            getUTCMilliseconds t < getUTCMilliseconds u)))) := by
  obtain ⟨hmonth, hday, hhours, hminutes, hseconds, hmilliseconds⟩ := components_lt t
  obtain ⟨hmonth', hday', hhours', hminutes', hseconds', hmilliseconds'⟩ := components_lt u
  rw [afterYear, afterYear, padded_append_lt_iff (by decide) hmonth hmonth',
    padded_append_lt_iff (by decide) hday hday', append_left_lt_iff,
    padded_append_lt_iff (by decide) (by omega) (by omega), append_left_lt_iff,
    padded_append_lt_iff (by decide) (by omega) (by omega), append_left_lt_iff,
    padded_append_lt_iff (by decide) (by omega) (by omega), append_left_lt_iff,
    padded_lt_iff (by decide) hmilliseconds hmilliseconds']
  omega

/-- The text behind the year compares two instants of one year. -/
theorem afterYear_lt_iff_of_year (h : getUTCFullYear t = getUTCFullYear u) :
    afterYear t < afterYear u ↔ t < u := by
  have hdate : date t = date u ↔ getUTCMonth t = getUTCMonth u ∧ getUTCDate t = getUTCDate u :=
    ⟨fun heq => ⟨congrArg Date.month heq, congrArg Date.day heq⟩,
      fun heq => Date.ext h heq.1 heq.2⟩
  have hbefore : (date t).Before (date u) ↔ getUTCMonth t < getUTCMonth u ∨
      getUTCMonth t = getUTCMonth u ∧ getUTCDate t < getUTCDate u := by
    have hyear : (date t).year = (date u).year := h
    simp only [Date.Before, hyear, lt_irrefl, true_and, false_or]
    rfl
  rw [afterYear_lt_iff, lt_iff_components, hbefore, hdate]
  omega

theorem text_injective : Function.Injective fun y : ℤ => (Number.int y).text := by
  have hminus : ∀ {m n : ℕ}, natText m ≠ 45 :: natText n := by
    intro m n h
    have hdigit := natText_digits m 45 (h ▸ List.mem_cons_self)
    exact absurd hdigit (by decide)
  intro y z h
  cases y with
  | ofNat m =>
    cases z with
    | ofNat n => exact congrArg Int.ofNat (natText_injective h)
    | negSucc n => exact absurd h hminus
  | negSucc m =>
    cases z with
    | ofNat n => exact absurd h.symm hminus
    | negSucc n =>
      exact congrArg Int.negSucc (Nat.succ.inj (natText_injective (List.cons.inj h).2))

/-- The text of an instant gives it away. -/
theorem formatDateTime_injective : Function.Injective formatDateTime := by
  intro t u h
  rw [formatDateTime_eq, formatDateTime_eq] at h
  obtain ⟨hyear, hafter⟩ :=
    List.append_inj' h ((length_afterYear t).trans (length_afterYear u).symm)
  have hyear' : getUTCFullYear t = getUTCFullYear u := text_injective hyear
  rcases lt_trichotomy t u with hlt | heq | hlt
  · have hafter' := (afterYear_lt_iff_of_year hyear').mpr hlt
    rw [hafter] at hafter'
    exact absurd hafter' (List.lt_irrefl _)
  · exact heq
  · have hafter' := (afterYear_lt_iff_of_year hyear'.symm).mpr hlt
    rw [hafter] at hafter'
    exact absurd hafter' (List.lt_irrefl _)

/-- A year with four digits. -/
def FourDigitYear (t : ℤ) : Prop := 1000 ≤ getUTCFullYear t ∧ getUTCFullYear t ≤ 9999

instance (t : ℤ) : Decidable (FourDigitYear t) := inferInstanceAs (Decidable (_ ∧ _))

theorem yearText_eq (h : FourDigitYear t) :
    ∃ n : ℕ, getUTCFullYear t = n ∧ n < 10 ^ 4 ∧
      (Number.int (getUTCFullYear t)).text = padded 4 n := by
  obtain ⟨hle, hle'⟩ := h
  obtain ⟨n, hn⟩ := Int.eq_ofNat_of_zero_le (show 0 ≤ getUTCFullYear t by omega)
  refine ⟨n, hn, by omega, ?_⟩
  have hlong : ¬ (natText n).length ≤ 3 := by
    rw [natText, List.length_map, Nat.length_toDigits_le_iff (by decide) (by decide)]
    omega
  have hzeros : 4 - (natText n).length = 0 := by omega
  rw [hn, padded, padStart, hzeros]
  rfl

/-- Texts with years of four digits all have 21 characters, and are ordered as their instants. -/
theorem formatDateTime_lt_iff (ht : FourDigitYear t) (hu : FourDigitYear u) :
    (formatDateTime t).length = 21 ∧ (formatDateTime t < formatDateTime u ↔ t < u) := by
  obtain ⟨m, hm, hmlt, hmtext⟩ := yearText_eq ht
  obtain ⟨n, hn, hnlt, hntext⟩ := yearText_eq hu
  rw [formatDateTime_eq, formatDateTime_eq, hmtext, hntext, List.length_append,
    length_padded (by decide) hmlt, length_afterYear, padded_append_lt_iff (by decide) hmlt hnlt]
  refine ⟨rfl, ?_⟩
  rcases lt_trichotomy m n with hlt | heq | hlt
  · have hyear : (date t).year < (date u).year := by
      have hyears : getUTCFullYear t < getUTCFullYear u := by omega
      exact hyears
    exact iff_of_true (Or.inl hlt) (lt_iff_components.mpr (Or.inl (Or.inl hyear)))
  · have hyear : getUTCFullYear t = getUTCFullYear u := by rw [hm, hn, heq]
    rw [← afterYear_lt_iff_of_year hyear, heq]
    simp
  · have hyear : (date u).year < (date t).year := by
      have hyears : getUTCFullYear u < getUTCFullYear t := by omega
      exact hyears
    have hafter : u < t := lt_iff_components.mpr (Or.inl (Or.inl hyear))
    exact iff_of_false (by omega) (by omega)

end FixDateFormat

/-! ## The clock of a session -/

namespace OutgoingState

open FixDateFormat

/-- The texts of SendingTime in the order of the writes. -/
def sendingTimes (s : OutgoingState) : List JSString :=
  s.writes.map fun m => (m.getField Fields.sendingTime).printed

/-- An event at instant `t`, which sends only a message that has no SendingTime yet. -/
def SendsAt (config : SessionConfig) (s : OutgoingState) (e : SendEvent) (t : ℤ) : Prop :=
  ∀ message env, e.outgoing config s = some (message, env) →
    env.sendingTime = formatDateTime t ∧ message.hasField Fields.sendingTime = false

/-- A written message has the SendingTime of the caller's message, or else that of the clock. -/
theorem getField_sendingTime_of_written {config : SessionConfig} {seqNum : ℕ} {env : SendEnv}
    {m written : Message} {raw : JSString}
    (h : (sendMessage config seqNum env m).written = some (written, raw))
    (hm : m.hasField Fields.sendingTime = false) :
    written.getField Fields.sendingTime = .str env.sendingTime := by
  have h49 : Fields.sendingTime ≠ Fields.senderCompID := by decide
  have h56 : Fields.sendingTime ≠ Fields.targetCompID := by decide
  rw [(of_written h).1, Message.createReverse_eq, Message.getField_setField, if_neg h56,
    Message.getField_setField, if_neg h49, addRequiredFields,
    Message.getField_setMissing (by simp only [sessionFields, List.map_cons, List.map_nil]; decide)
      (show (Fields.sendingTime, .str env.sendingTime) ∈ sessionFields config seqNum env.sendingTime
        by simp [sessionFields]), hm]
  rfl

/-- The written times are those of some of the events. -/
theorem sendingTimes_run (config : SessionConfig) (messages : ℕ → Message)
    (es : List (SendEvent × ℤ))
    (h : ∀ earlier e later, es = earlier ++ e :: later →
      (run config messages (earlier.map Prod.fst)).SendsAt config e.1 e.2) :
    ∃ ts : List ℤ, ts.Sublist (es.map Prod.snd) ∧
      (run config messages (es.map Prod.fst)).sendingTimes = ts.map formatDateTime := by
  induction es using List.reverseRecOn with
  | nil => exact ⟨[], List.Sublist.refl [], rfl⟩
  | append_singleton es e ih =>
    have hlast := h es e [] rfl
    obtain ⟨ts, hts, htimes⟩ := ih fun earlier e' later heq =>
      h earlier e' (later ++ [e]) (by rw [heq, List.append_assoc]; rfl)
    have hrun : run config messages ((es ++ [e]).map Prod.fst) =
        (run config messages (es.map Prod.fst)).step config e.1 := by
      simp [run]
    have hkept : ts.Sublist ((es ++ [e]).map Prod.snd) := by
      rw [List.map_append]
      exact hts.trans (List.sublist_append_left _ _)
    rw [hrun]
    rcases step_cases config (run config messages (es.map Prod.fst)) e.1 with
      ⟨_, hwrites, _⟩ | ⟨message, env, hout, _, ⟨_, hwrites, _⟩ |
        ⟨_, _, written, raw, hwritten, hwrites⟩⟩
    · exact ⟨ts, hkept, by rw [sendingTimes, hwrites]; exact htimes⟩
    · exact ⟨ts, hkept, by rw [sendingTimes, hwrites]; exact htimes⟩
    · obtain ⟨htime, hmissing⟩ := hlast message env hout
      refine ⟨ts ++ [e.2], ?_, ?_⟩
      · rw [List.map_append]
        exact hts.append (List.Sublist.refl _)
      · rw [sendingTimes, hwrites, List.map_append, List.map_append, ← htimes, List.map_singleton,
          List.map_singleton, getField_sendingTime_of_written hwritten hmissing, htime]
        rfl

/-- As long as the clock does not run backwards and has a year of four digits, the SendingTimes
on the wire do not run backwards either, whatever sends fail. -/
theorem sendingTimes_sorted (config : SessionConfig) (messages : ℕ → Message)
    (es : List (SendEvent × ℤ)) (hclock : (es.map Prod.snd).Pairwise (· ≤ ·))
    (hyears : ∀ t ∈ es.map Prod.snd, FourDigitYear t)
    (h : ∀ earlier e later, es = earlier ++ e :: later →
      (run config messages (earlier.map Prod.fst)).SendsAt config e.1 e.2) :
    (run config messages (es.map Prod.fst)).sendingTimes.Pairwise (· ≤ ·) := by
  obtain ⟨ts, hts, htimes⟩ := sendingTimes_run config messages es h
  rw [htimes, List.pairwise_map]
  refine (hclock.sublist hts).imp_of_mem fun {t u} ht hu hle hlt => ?_
  have hiff := (formatDateTime_lt_iff (hyears u (hts.subset hu)) (hyears t (hts.subset ht))).2
  exact absurd (hiff.mp hlt) (not_lt.mpr hle)

/-- Two heartbeats at the turn of a year; the socket is not writable in between. -/
def newYearHeartbeats : List (SendEvent × ℤ) :=
  [(1735689599999, true), (1735689600000, false), (1735689600001, true)].map fun x =>
    (.heartbeat ⟨formatDateTime x.1, x.2, none⟩, x.1)

theorem sendingTimes_sorted_newYear :
    (run brokerConfig (fun _ => .empty) (newYearHeartbeats.map Prod.fst)).sendingTimes =
      [js "20241231-23:59:59.999", js "20250101-00:00:00.001"] ∧
    (run brokerConfig (fun _ => .empty) (newYearHeartbeats.map Prod.fst)).sendingTimes.Pairwise
      (· ≤ ·) := by
  refine ⟨by decide +kernel, sendingTimes_sorted _ _ _ (by decide) (by decide +kernel) ?_⟩
  intro earlier e later heq message env hout
  have hmem : e ∈ newYearHeartbeats := heq ▸ List.mem_append_right _ List.mem_cons_self
  obtain ⟨x, _, rfl⟩ := List.mem_map.mp hmem
  obtain ⟨rfl, rfl⟩ := Prod.mk.inj (Option.some.inj hout)
  exact ⟨rfl, by decide⟩

end OutgoingState

end NestQuickfix
