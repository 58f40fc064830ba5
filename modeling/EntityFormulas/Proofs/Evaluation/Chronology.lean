/-
  EntityFormulas/Proofs/Evaluation/Chronology.lean
  ================================================
  **When times are ordered like the instants they denote.**

  Times are ordered by their texts.  Date and time of day have a fixed width, so
  their digits are in the order of the numbers they denote, and these in the order
  of the calendar (`CivilDate.chars_lt_iff`, `ClockTime.chars_lt_iff`).  The
  fraction of a second has as many digits as the writer chose.  Where two fractions
  differ in a digit, the first such digit decides, for the texts and for the instants;
  where one goes on after the digits of the other, a digit or the point is compared
  with the final `Z`, and the longer text is the smaller one although its instant is
  not (`fractionChars_of_longer`).  This is the only exception
  (`Value.compare_times_iff`).
-/
import Mathlib.Algebra.Order.Field.Rat
import Mathlib.Data.Prod.Lex
import Mathlib.Data.String.Basic
import Mathlib.Order.Fin.Basic
import Mathlib.Tactic.Linarith
import EntityFormulas.Evaluation.Arithmetic

namespace EntityFormulas

/-! ### Dates, times of day and their instants -/

def isLeapYear (year : Nat) : Bool :=
  year % 4 == 0 && (year % 100 != 0 || year % 400 == 0)

/-- The days of a month; January has the number 1. -/
def monthLength (year : Nat) : Nat → Nat
  | 2 => if isLeapYear year then 29 else 28
  | 4 | 6 | 9 | 11 => 30
  | _ => 31

/-- The days of the first months of a year. -/
def daysOfMonths (year : Nat) : Nat → Nat
  | 0 => 0
  | n + 1 => daysOfMonths year n + monthLength year (n + 1)

/-- The days of the first years, from the year 0. -/
def daysOfYears : Nat → Nat
  | 0 => 0
  | n + 1 => daysOfYears n + daysOfMonths n 12

/-- A date with a year of four digits. -/
@[ext]
structure CivilDate where
  year : Nat
  month : Nat
  day : Nat
  year_lt : year < 10000
  month_pos : 0 < month
  month_le : month ≤ 12
  day_pos : 0 < day
  day_le : day ≤ monthLength year month

/-- A time of day; the last minute of a day may have a leap second. -/
@[ext]
structure ClockTime where
  hour : Nat
  minute : Nat
  second : Nat
  hour_lt : hour < 24
  minute_lt : minute < 60
  second_lt : second < 60 ∨ second = 60 ∧ hour = 23 ∧ minute = 59

/-- A time in universal time; a time without a fraction of a second has no digits of it. -/
structure UtcTime where
  date : CivilDate
  clock : ClockTime
  fraction : List (Fin 10)

/-- The number of a day, from the first of January of the year 0. -/
def CivilDate.number (d : CivilDate) : Nat :=
  daysOfYears d.year + daysOfMonths d.year (d.month - 1) + d.day

/-- The full seconds since midnight. -/
def ClockTime.seconds (c : ClockTime) : Nat := 3600 * c.hour + 60 * c.minute + c.second

/-- The fraction that the digits after the point denote. -/
def fractionValue : List (Fin 10) → ℚ
  | [] => 0
  | d :: ds => ((d : Nat) + fractionValue ds) / 10

/-- The instant that a time denotes: the day, and the seconds into it.  Days are not added up to
    seconds, so that a leap second stays before the day that follows. -/
def UtcTime.instant (t : UtcTime) : ℕ ×ₗ ℚ :=
  toLex (t.date.number, t.clock.seconds + fractionValue t.fraction)

/-! ### Their texts -/

/-- The last digits of a number. -/
def fixedWidth : Nat → Nat → List Char
  | 0, _ => []
  | w + 1, n => fixedWidth w (n / 10) ++ [Nat.digitChar (n % 10)]

def CivilDate.chars (d : CivilDate) : List Char :=
  fixedWidth 4 d.year ++ '-' :: (fixedWidth 2 d.month ++ '-' :: fixedWidth 2 d.day)

def ClockTime.chars (c : ClockTime) : List Char :=
  fixedWidth 2 c.hour ++ ':' :: (fixedWidth 2 c.minute ++ ':' :: fixedWidth 2 c.second)

/-- The digits of a fraction and the end of the text. -/
def digitsToEnd (ds : List (Fin 10)) : List Char := ds.map (fun d : Fin 10 => Nat.digitChar d) ++ ['Z']

/-- What follows the seconds. -/
def fractionChars : List (Fin 10) → List Char
  | [] => digitsToEnd []
  | d :: ds => '.' :: digitsToEnd (d :: ds)

/-- The text of a time, with the given letter between date and time of day. -/
def UtcTime.text (separator : Char) (t : UtcTime) : String :=
  String.ofList (t.date.chars ++ separator :: (t.clock.chars ++ fractionChars t.fraction))

/-! ### Fixed widths -/

theorem digitChar_lt_iff {m n : Nat} (hm : m < 10) (hn : n < 10) :
    Nat.digitChar m < Nat.digitChar n ↔ m < n := by
  have h : ∀ a b : Fin 10, Nat.digitChar a < Nat.digitChar b ↔ a < b := by decide
  exact h ⟨m, hm⟩ ⟨n, hn⟩

theorem digitChar_inj {m n : Nat} (hm : m < 10) (hn : n < 10) :
    Nat.digitChar m = Nat.digitChar n ↔ m = n := by
  have h : ∀ a b : Fin 10, Nat.digitChar a = Nat.digitChar b ↔ (a : Nat) = b := by decide
  exact h ⟨m, hm⟩ ⟨n, hn⟩

theorem cons_lt_cons_same (c : Char) {x y : List Char} : c :: x < c :: y ↔ x < y := by
  rw [List.cons_lt_cons_iff]
  simp

/-- Digits of a fixed width are in the order of the numbers, then comes what follows. -/
theorem fixedWidth_lt_iff {w m n : Nat} (hm : m < 10 ^ w) (hn : n < 10 ^ w) {x y : List Char} :
    fixedWidth w m ++ x < fixedWidth w n ++ y ↔ m < n ∨ m = n ∧ x < y := by
  induction w generalizing m n x y with
  | zero =>
    obtain rfl : m = 0 := by simpa using hm
    obtain rfl : n = 0 := by simpa using hn
    simp [fixedWidth]
  | succ w ih =>
    rw [Nat.pow_succ] at hm hn
    have hlast : m % 10 < 10 ∧ n % 10 < 10 := by omega
    rw [fixedWidth, fixedWidth, List.append_assoc, List.append_assoc, ih (by omega) (by omega),
      List.singleton_append, List.singleton_append, List.cons_lt_cons_iff,
      digitChar_lt_iff hlast.1 hlast.2, digitChar_inj hlast.1 hlast.2]
    by_cases hxy : x < y <;> simp only [hxy, and_true, and_false, or_false] <;> omega

/-- Three parts in lexicographic order are in the order of a number that grows with it. -/
theorem lexicographic_iff {a b c a' b' c' n n' : Nat} {P : Prop}
    (hlt : (a < a' ∨ a = a' ∧ (b < b' ∨ b = b' ∧ c < c')) → n < n')
    (hgt : (a' < a ∨ a' = a ∧ (b' < b ∨ b' = b ∧ c' < c)) → n' < n)
    (heq : a = a' ∧ b = b' ∧ c = c' → n = n') :
    (a < a' ∨ a = a' ∧ (b < b' ∨ b = b' ∧ (c < c' ∨ c = c' ∧ P))) ↔ n < n' ∨ n = n' ∧ P := by
  by_cases hP : P <;> simp only [hP, and_true, and_false, or_false] <;> omega

/-! ### Days -/

theorem daysOfMonths_mono (year : Nat) : Monotone (daysOfMonths year) :=
  monotone_nat_of_le_succ fun _ => Nat.le_add_right _ _

theorem daysOfYears_mono : Monotone daysOfYears :=
  monotone_nat_of_le_succ fun _ => Nat.le_add_right _ _

namespace CivilDate

/-- A day is in the days of the months up to its own. -/
theorem within_months (d : CivilDate) :
    daysOfMonths d.year (d.month - 1) + d.day ≤ daysOfMonths d.year d.month := by
  have hmonth : d.month = d.month - 1 + 1 := by
    have := d.month_pos
    omega
  have hlength := d.day_le
  rw [hmonth] at hlength
  conv_rhs => rw [hmonth, daysOfMonths]
  omega

/-- A day is in the days of the years up to its own. -/
theorem within_years (d : CivilDate) : d.number ≤ daysOfYears (d.year + 1) := by
  have hmonths := d.within_months
  have hyear := daysOfMonths_mono d.year d.month_le
  rw [number, daysOfYears]
  omega

theorem number_lt {d e : CivilDate} (h : d.year < e.year ∨
    d.year = e.year ∧ (d.month < e.month ∨ d.month = e.month ∧ d.day < e.day)) :
    d.number < e.number := by
  rcases h with h | ⟨hyear, h | ⟨hmonth, h⟩⟩
  · calc d.number ≤ daysOfYears (d.year + 1) := d.within_years
      _ ≤ daysOfYears e.year := daysOfYears_mono h
      _ < e.number := by
        have := e.day_pos
        rw [number]
        omega
  · have hd := d.within_months
    have hmonths : daysOfMonths d.year d.month ≤ daysOfMonths e.year (e.month - 1) := by
      rw [hyear]
      exact daysOfMonths_mono _ (Nat.le_sub_one_of_lt h)
    have he := e.day_pos
    rw [number, number, hyear]
    rw [hyear] at hd hmonths
    omega
  · rw [number, number, hyear, hmonth]
    omega

/-- Dates of equal numbers are equal. -/
theorem number_inj {d e : CivilDate} : d.number = e.number ↔ d = e := by
  constructor
  · intro h
    have hlt := mt (number_lt (d := d) (e := e)) (by omega)
    have hgt := mt (number_lt (d := e) (e := d)) (by omega)
    ext <;> omega
  · intro h
    rw [h]

/-- The texts of two dates are in the order of the days, then comes what follows. -/
theorem chars_lt_iff {d e : CivilDate} {x y : List Char} :
    d.chars ++ x < e.chars ++ y ↔ d.number < e.number ∨ d.number = e.number ∧ x < y := by
  have hd := d.day_le
  have he := e.day_le
  have hlength : ∀ year month, monthLength year month ≤ 31 := by
    intro year month
    unfold monthLength
    repeat' split
    all_goals omega
  have hd' := hlength d.year d.month
  have he' := hlength e.year e.month
  have hdm := d.month_le
  have hem := e.month_le
  simp only [chars, List.append_assoc, List.cons_append]
  rw [fixedWidth_lt_iff d.year_lt e.year_lt, cons_lt_cons_same,
    fixedWidth_lt_iff (by omega) (by omega), cons_lt_cons_same,
    fixedWidth_lt_iff (by omega) (by omega)]
  refine lexicographic_iff number_lt number_lt ?_
  rintro ⟨hyear, hmonth, hday⟩
  rw [number, number, hyear, hmonth, hday]

end CivilDate

/-! ### Seconds -/

namespace ClockTime

theorem seconds_lt {c d : ClockTime} (h : c.hour < d.hour ∨
    c.hour = d.hour ∧ (c.minute < d.minute ∨ c.minute = d.minute ∧ c.second < d.second)) :
    c.seconds < d.seconds := by
  have hc := c.second_lt
  have hcm := c.minute_lt
  have hd := d.hour_lt
  have hdm := d.minute_lt
  unfold seconds
  omega

/-- Times of day with equal numbers of seconds are equal. -/
theorem seconds_inj {c d : ClockTime} : c.seconds = d.seconds ↔ c = d := by
  constructor
  · intro h
    have hlt := mt (seconds_lt (c := c) (d := d)) (by omega)
    have hgt := mt (seconds_lt (c := d) (d := c)) (by omega)
    ext <;> omega
  · intro h
    rw [h]

/-- The texts of two times of day are in the order of the seconds, then comes what follows. -/
theorem chars_lt_iff {c d : ClockTime} {x y : List Char} :
    c.chars ++ x < d.chars ++ y ↔ c.seconds < d.seconds ∨ c.seconds = d.seconds ∧ x < y := by
  have hc := c.second_lt
  have hd := d.second_lt
  have hch := c.hour_lt
  have hdh := d.hour_lt
  have hcm := c.minute_lt
  have hdm := d.minute_lt
  simp only [chars, List.append_assoc, List.cons_append]
  rw [fixedWidth_lt_iff (by omega) (by omega), cons_lt_cons_same,
    fixedWidth_lt_iff (by omega) (by omega), cons_lt_cons_same,
    fixedWidth_lt_iff (by omega) (by omega)]
  refine lexicographic_iff seconds_lt seconds_lt ?_
  rintro ⟨hhour, hminute, hsecond⟩
  rw [seconds, seconds, hhour, hminute, hsecond]

end ClockTime

/-! ### Fractions -/

theorem fractionValue_nonneg (ds : List (Fin 10)) : 0 ≤ fractionValue ds := by
  induction ds with
  | nil => exact le_refl 0
  | cons d ds ih =>
    rw [fractionValue]
    have hd : (0 : ℚ) ≤ (d : Nat) := by exact_mod_cast Nat.zero_le d
    linarith

theorem fractionValue_lt_one (ds : List (Fin 10)) : fractionValue ds < 1 := by
  induction ds with
  | nil => exact one_pos
  | cons d ds ih =>
    rw [fractionValue]
    have hd : ((d : Nat) : ℚ) ≤ 9 := by exact_mod_cast Nat.le_of_lt_succ d.isLt
    linarith

/-- The first digit in which two fractions differ is smaller in the one than in the other. -/
def Diverges (f g : List (Fin 10)) : Prop :=
  ∃ ds a b f' g', f = ds ++ a :: f' ∧ g = ds ++ b :: g' ∧ a < b

/-- Two fractions differ in a digit, unless one continues the other. -/
theorem diverges_or_begins (f g : List (Fin 10)) :
    Diverges f g ∨ Diverges g f ∨ f <+: g ∨ g <+: f := by
  induction f generalizing g with
  | nil => exact .inr (.inr (.inl List.nil_prefix))
  | cons a f ih =>
    cases g with
    | nil => exact .inr (.inr (.inr List.nil_prefix))
    | cons b g =>
      rcases lt_trichotomy a b with h | rfl | h
      · exact .inl ⟨[], a, b, f, g, rfl, rfl, h⟩
      · rcases ih g with ⟨ds, c, d, f', g', rfl, rfl, h⟩ | ⟨ds, c, d, f', g', rfl, rfl, h⟩ | h | h
        · exact .inl ⟨a :: ds, c, d, f', g', rfl, rfl, h⟩
        · exact .inr (.inl ⟨a :: ds, c, d, f', g', rfl, rfl, h⟩)
        · exact .inr (.inr (.inl ((List.prefix_cons_inj a).2 h)))
        · exact .inr (.inr (.inr ((List.prefix_cons_inj a).2 h)))
      · exact .inr (.inl ⟨[], b, a, g, f, rfl, rfl, h⟩)

/-- Digits in front do not change the order of two fractions. -/
theorem fractionValue_append_lt (ds : List (Fin 10)) {f g : List (Fin 10)}
    (h : fractionValue f < fractionValue g) : fractionValue (ds ++ f) < fractionValue (ds ++ g) := by
  induction ds with
  | nil => exact h
  | cons d ds ih =>
    rw [List.cons_append, List.cons_append, fractionValue, fractionValue]
    linarith

theorem fractionValue_le_append (f g : List (Fin 10)) :
    fractionValue f ≤ fractionValue (f ++ g) := by
  induction f with
  | nil => exact fractionValue_nonneg g
  | cons d f ih =>
    rw [List.cons_append, fractionValue, fractionValue]
    linarith

theorem fractionValue_of_diverges {f g : List (Fin 10)} (h : Diverges f g) :
    fractionValue f < fractionValue g := by
  obtain ⟨ds, a, b, f', g', rfl, rfl, hab⟩ := h
  apply fractionValue_append_lt
  rw [fractionValue, fractionValue]
  have hstep : ((a : Nat) : ℚ) + 1 ≤ (b : Nat) := by exact_mod_cast hab
  have hf := fractionValue_lt_one f'
  have hg := fractionValue_nonneg g'
  linarith

/-- A text that goes on with a digit is smaller than one that ends. -/
theorem digitsToEnd_cons_lt_nil (d : Fin 10) (ds : List (Fin 10)) :
    digitsToEnd (d :: ds) < digitsToEnd [] := by
  have hend : ∀ d : Fin 10, Nat.digitChar d < 'Z' := by decide
  rw [digitsToEnd, digitsToEnd, List.map_cons, List.map_nil, List.cons_append, List.nil_append,
    List.cons_lt_cons_iff]
  exact .inl (hend d)

theorem digitsToEnd_append_lt (ds : List (Fin 10)) {f g : List (Fin 10)}
    (h : digitsToEnd f < digitsToEnd g) : digitsToEnd (ds ++ f) < digitsToEnd (ds ++ g) := by
  unfold digitsToEnd at h ⊢
  rw [List.map_append, List.map_append, List.append_assoc, List.append_assoc]
  exact List.append_left_lt h

theorem fractionChars_of_diverges {f g : List (Fin 10)} (h : Diverges f g) :
    fractionChars f < fractionChars g := by
  have hdigits : digitsToEnd f < digitsToEnd g := by
    obtain ⟨ds, a, b, f', g', rfl, rfl, hab⟩ := h
    apply digitsToEnd_append_lt
    rw [digitsToEnd, digitsToEnd, List.map_cons, List.map_cons, List.cons_append, List.cons_append,
      List.cons_lt_cons_iff]
    exact .inl ((digitChar_lt_iff a.isLt b.isLt).2 hab)
  -- Both fractions have a digit, so both begin with the point.
  obtain ⟨ds, a, b, f', g', rfl, rfl, -⟩ := h
  cases ds with
  | nil => exact (cons_lt_cons_same '.').2 hdigits
  | cons d ds => exact (cons_lt_cons_same '.').2 hdigits

/-- A fraction with more digits after those of the other has the smaller text. -/
theorem fractionChars_of_longer {f g : List (Fin 10)} (h : f <+: g) (hne : f ≠ g) :
    fractionChars g < fractionChars f := by
  obtain ⟨tail, rfl⟩ := h
  cases tail with
  | nil => exact absurd (List.append_nil f).symm hne
  | cons d tail =>
    cases f with
    | nil =>
      have hpoint : '.' < 'Z' := by decide
      rw [List.nil_append, fractionChars, fractionChars]
      exact List.cons_lt_cons_iff.2 (.inl hpoint)
    | cons c f =>
      have hdigits := digitsToEnd_append_lt (c :: f) (digitsToEnd_cons_lt_nil d tail)
      rw [List.append_nil] at hdigits
      exact (cons_lt_cons_same '.').2 hdigits

/-- Texts and values of two fractions have the same order unless one goes on after the other. -/
theorem fraction_order_iff (f g : List (Fin 10)) :
    ((fractionChars f < fractionChars g ↔ fractionValue f < fractionValue g) ∧
      (fractionChars g < fractionChars f ↔ fractionValue g < fractionValue f)) ↔
    (f <+: g ∨ g <+: f → f = g) := by
  -- A fraction that goes on after another would have to be smaller.
  have hlonger : ∀ {f g : List (Fin 10)}, f <+: g →
      (fractionChars g < fractionChars f → fractionValue g < fractionValue f) → f = g := by
    intro f g h horder
    by_contra hne
    have hvalue := horder (fractionChars_of_longer h hne)
    obtain ⟨tail, rfl⟩ := h
    exact absurd hvalue (not_lt.2 (fractionValue_le_append f tail))
  -- A difference in a digit decides both orders.
  have hdiverges : ∀ {f g : List (Fin 10)}, Diverges f g →
      (fractionChars f < fractionChars g ↔ fractionValue f < fractionValue g) ∧
      (fractionChars g < fractionChars f ↔ fractionValue g < fractionValue f) := by
    intro f g h
    have hchars := fractionChars_of_diverges h
    have hvalue := fractionValue_of_diverges h
    exact ⟨iff_of_true hchars hvalue, iff_of_false (lt_asymm hchars) (lt_asymm hvalue)⟩
  constructor
  · rintro ⟨hfg, hgf⟩ (h | h)
    · exact hlonger h hgf.1
    · exact (hlonger h hfg.1).symm
  · intro hsame
    rcases diverges_or_begins f g with h | h | h | h
    · exact hdiverges h
    · exact (hdiverges h).symm
    · rw [hsame (.inl h)]
      simp
    · rw [hsame (.inr h)]
      simp

/-! ### Times -/

namespace UtcTime

variable {separator : Char} {s t : UtcTime}

theorem text_lt_iff : s.text separator < t.text separator ↔
    s.date.number < t.date.number ∨ s.date.number = t.date.number ∧
      (s.clock.seconds < t.clock.seconds ∨ s.clock.seconds = t.clock.seconds ∧
        fractionChars s.fraction < fractionChars t.fraction) := by
  rw [String.lt_iff_toList_lt, text, text, String.toList_ofList, String.toList_ofList,
    CivilDate.chars_lt_iff, cons_lt_cons_same, ClockTime.chars_lt_iff]

/-- Numbers with fractions are in the order of the numbers, then of the fractions. -/
theorem seconds_fraction_lt_iff {m n : Nat} {f g : List (Fin 10)} :
    (m : ℚ) + fractionValue f < n + fractionValue g ↔
      m < n ∨ m = n ∧ fractionValue f < fractionValue g := by
  have hf := fractionValue_nonneg f
  have hf' := fractionValue_lt_one f
  have hg := fractionValue_nonneg g
  have hg' := fractionValue_lt_one g
  rcases lt_trichotomy m n with h | rfl | h
  · have hstep : (m : ℚ) + 1 ≤ n := by exact_mod_cast h
    exact iff_of_true (by linarith) (.inl h)
  · simp
  · have hstep : (n : ℚ) + 1 ≤ m := by exact_mod_cast h
    exact iff_of_false (by linarith) (by omega)

theorem instant_lt_iff : s.instant < t.instant ↔
    s.date.number < t.date.number ∨ s.date.number = t.date.number ∧
      (s.clock.seconds < t.clock.seconds ∨ s.clock.seconds = t.clock.seconds ∧
        fractionValue s.fraction < fractionValue t.fraction) := by
  rw [instant, instant, Prod.Lex.toLex_lt_toLex]
  rw [seconds_fraction_lt_iff]

/-- Two times are the same up to the second, and the digits of the one's fraction are only the
    first digits of the other's. -/
def Continues (s t : UtcTime) : Prop :=
  s.date = t.date ∧ s.clock = t.clock ∧ s.fraction ≠ t.fraction ∧
    (s.fraction <+: t.fraction ∨ t.fraction <+: s.fraction)

/-- Texts and instants of two times have the same order unless one continues the other. -/
theorem order_iff (separator : Char) (s t : UtcTime) :
    ((s.text separator < t.text separator ↔ s.instant < t.instant) ∧
      (t.text separator < s.text separator ↔ t.instant < s.instant)) ↔ ¬s.Continues t := by
  rw [text_lt_iff, text_lt_iff, instant_lt_iff, instant_lt_iff]
  by_cases hsecond : s.date.number = t.date.number ∧ s.clock.seconds = t.clock.seconds
  · obtain ⟨hdate, hclock⟩ := hsecond
    have hfractions := fraction_order_iff s.fraction t.fraction
    simp only [hdate, hclock, lt_irrefl, true_and, false_or]
    rw [hfractions, Continues, ← CivilDate.number_inj, ← ClockTime.seconds_inj]
    tauto
  · -- The second decides.
    have hcontinues : ¬s.Continues t := by
      rintro ⟨hdate, hclock, -⟩
      exact hsecond ⟨CivilDate.number_inj.2 hdate, ClockTime.seconds_inj.2 hclock⟩
    refine iff_of_true ⟨?_, ?_⟩ hcontinues
    · by_cases hdate : s.date.number = t.date.number
      · simp [hdate, show s.clock.seconds ≠ t.clock.seconds from fun h => hsecond ⟨hdate, h⟩]
      · simp [hdate]
    · by_cases hdate : t.date.number = s.date.number
      · simp [hdate, show t.clock.seconds ≠ s.clock.seconds from
          fun h => hsecond ⟨hdate.symm, h.symm⟩]
      · simp [hdate]

end UtcTime

/-! ### The ordering operators -/

/-- The ordering operators on two times answer by the texts. -/
theorem Value.compare_dateTime (s t : String) :
    Value.compare .lt (.dateTime s) (.dateTime t) = .ok (decide (s < t)) ∧
    Value.compare .lte (.dateTime s) (.dateTime t) = .ok (decide (¬t < s)) ∧
    Value.compare .gt (.dateTime s) (.dateTime t) = .ok (decide (t < s)) ∧
    Value.compare .gte (.dateTime s) (.dateTime t) = .ok (decide (¬s < t)) := by
  simp only [Value.compare, Value.order, Value.holds, Value.textOrder]
  by_cases hlt : s < t
  · have hgt : ¬t < s := lt_asymm hlt
    simp [hlt, hgt]
  · by_cases hgt : t < s <;> simp [hlt, hgt]

/-- All ordering operators answer on the texts of two times as the order of their instants. -/
structure UtcTime.Chronological (separator : Char) (s t : UtcTime) : Prop where
  lt : Value.compare .lt (.dateTime (s.text separator)) (.dateTime (t.text separator)) =
    .ok (decide (s.instant < t.instant))
  lte : Value.compare .lte (.dateTime (s.text separator)) (.dateTime (t.text separator)) =
    .ok (decide (s.instant ≤ t.instant))
  gt : Value.compare .gt (.dateTime (s.text separator)) (.dateTime (t.text separator)) =
    .ok (decide (s.instant > t.instant))
  gte : Value.compare .gte (.dateTime (s.text separator)) (.dateTime (t.text separator)) =
    .ok (decide (s.instant ≥ t.instant))

/-- Times are ordered like the instants they denote, except where one continues the other. -/
theorem Value.compare_times_iff (separator : Char) (s t : UtcTime) :
    UtcTime.Chronological separator s t ↔ ¬s.Continues t := by
  obtain ⟨hlt, hlte, hgt, hgte⟩ :=
    Value.compare_dateTime (s.text separator) (t.text separator)
  rw [← UtcTime.order_iff separator]
  constructor
  · intro h
    have hlt' := hlt.symm.trans h.lt
    have hgt' := hgt.symm.trans h.gt
    exact ⟨decide_eq_decide.1 (Except.ok.inj hlt'), decide_eq_decide.1 (Except.ok.inj hgt')⟩
  · rintro ⟨hst, hts⟩
    refine ⟨hlt.trans ?_, hlte.trans ?_, hgt.trans ?_, hgte.trans ?_⟩
    · rw [decide_eq_decide.2 hst]
    · rw [decide_eq_decide.2 ((not_congr hts).trans not_lt)]
    · rw [decide_eq_decide.2 hts]
    · rw [decide_eq_decide.2 ((not_congr hst).trans not_lt)]

/-- The midnight at which 2024 begins, or a fraction of a second after it. -/
def UtcTime.newYear (fraction : List (Fin 10)) : UtcTime :=
  ⟨⟨2024, 1, 1, by decide, by decide, by decide, by decide, by decide⟩,
    ⟨0, 0, 0, by decide, by decide, by decide⟩, fraction⟩

/-- Midnight is not found to be before half a second past it. -/
theorem Value.midnight_not_before_half_second :
    (UtcTime.newYear []).text 'T' = "2024-01-01T00:00:00Z" ∧
    (UtcTime.newYear [5]).text 'T' = "2024-01-01T00:00:00.5Z" ∧
    (UtcTime.newYear []).instant < (UtcTime.newYear [5]).instant ∧
    Value.compare .lt (.dateTime "2024-01-01T00:00:00Z") (.dateTime "2024-01-01T00:00:00.5Z") =
      .ok false := by
  refine ⟨?_, ?_, ?_, ?_⟩
  · apply String.toList_inj.1
    rw [UtcTime.text, String.toList_ofList]
    decide
  · apply String.toList_inj.1
    rw [UtcTime.text, String.toList_ofList]
    decide
  · rw [UtcTime.instant_lt_iff]
    refine .inr ⟨rfl, .inr ⟨rfl, ?_⟩⟩
    norm_num [UtcTime.newYear, fractionValue]
  · have hnot : ¬"2024-01-01T00:00:00Z" < "2024-01-01T00:00:00.5Z" := by decide
    rw [(Value.compare_dateTime _ _).1, decide_eq_false hnot]

end EntityFormulas
