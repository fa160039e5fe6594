import CfdiVault.Library.Calendar
import Mathlib.Tactic.Common

/-!
# The text of a wall-clock reading reads back

`fromisoformat (isoformat t) = some t` for every reading, with and without an offset
from UTC.  The proof has three parts: a padded number is read back digit by digit, the
calendar date of an ordinal has that ordinal, and the parser meets the separators that
the printer wrote.
-/

namespace CfdiVault

open Calendar

/-! ## Padded numbers -/

namespace Text

theorem toList_padded {width n : Nat} :
    (padded width n).toList =
      List.replicate (width - (Nat.toDigits 10 n).length) '0' ++ Nat.toDigits 10 n := by
  rw [padded, String.toList_ofList]

theorem length_padded {width n : Nat} (hpos : 0 < width) (h : n < 10 ^ width) :
    (padded width n).toList.length = width := by
  have hle := (Nat.length_toDigits_le_iff (by decide) hpos).mpr h
  rw [toList_padded, List.length_append, List.length_replicate]
  omega

/-- The last digit of a padded number stands behind the others. -/
theorem toList_padded_succ {width n : Nat} (hpos : 0 < width) :
    (padded (width + 1) n).toList =
      (padded width (n / 10)).toList ++ [Nat.digitChar (n % 10)] := by
  rw [toList_padded, toList_padded]
  by_cases hn : n < 10
  · obtain ⟨w, rfl⟩ := Nat.exists_eq_add_of_lt hpos
    rw [Nat.toDigits_of_lt_base hn, Nat.div_eq_of_lt hn, Nat.mod_eq_of_lt hn, Nat.toDigits_zero]
    simp only [List.length_singleton, Nat.zero_add, Nat.add_sub_cancel]
    rw [← List.replicate_succ']
  · rw [Nat.toDigits_of_base_le (by decide) (Nat.le_of_not_lt hn), List.length_append,
      List.length_singleton, Nat.add_sub_add_right, List.append_assoc]

theorem isDigit_of_mem_padded {width n : Nat} {c : Char} (h : c ∈ (padded width n).toList) :
    c.isDigit = true := by
  rw [toList_padded] at h
  rcases List.mem_append.mp h with hzero | hdigit
  · rw [(List.mem_replicate.mp hzero).2]
    rfl
  · exact Nat.isDigit_of_mem_toDigits (by decide) (by decide) hdigit

end Text

namespace DateTime

theorem digit?_digitChar {d : Nat} (h : d < 10) : digit? (Nat.digitChar d) = some d := by
  have hall : ∀ d < 10, digit? (Nat.digitChar d) = some d := by decide
  exact hall d h

theorem digits?_succ_eq_some {n v : Nat} {cs rest : List Char} :
    digits? (n + 1) cs = some (v, rest) ↔
      ∃ c tail d v', cs = c :: tail ∧ digit? c = some d ∧ digits? n tail = some (v', rest) ∧
        v = d * 10 ^ n + v' := by
  cases cs with
  | nil => simp [digits?]
  | cons c tail =>
      simp only [digits?, Option.bind_eq_bind, Option.bind_eq_some_iff, Option.some.injEq,
        Prod.mk.injEq, List.cons.injEq, Prod.exists]
      constructor
      · rintro ⟨d, hd, v', r, hr, rfl, rfl⟩
        exact ⟨c, tail, d, v', ⟨rfl, rfl⟩, hd, hr, rfl⟩
      · rintro ⟨c', tail', d, v', ⟨rfl, rfl⟩, hd, hr, rfl⟩
        exact ⟨d, hd, v', rest, hr, rfl, rfl⟩

/-- One more digit behind the digits already read. -/
theorem digits?_snoc {n v d : Nat} {c : Char} {cs rest : List Char}
    (h : digits? n cs = some (v, c :: rest)) (hd : digit? c = some d) :
    digits? (n + 1) cs = some (v * 10 + d, rest) := by
  induction n generalizing cs v with
  | zero =>
      cases h
      exact digits?_succ_eq_some.mpr ⟨c, rest, d, 0, rfl, hd, rfl, by omega⟩
  | succ n ih =>
      obtain ⟨x, tail, dx, v', rfl, hx, htail, rfl⟩ := digits?_succ_eq_some.mp h
      refine digits?_succ_eq_some.mpr ⟨x, tail, dx, v' * 10 + d, rfl, hx, ih htail, ?_⟩
      rw [Nat.pow_succ]
      ring

/-- A padded number reads back, whatever follows it. -/
theorem digits?_padded {width n : Nat} {rest : List Char} (hpos : 0 < width)
    (h : n < 10 ^ width) :
    digits? width ((Text.padded width n).toList ++ rest) = some (n, rest) := by
  induction width, hpos using Nat.le_induction generalizing n rest with
  | base =>
      have hone : (Text.padded 1 n).toList = [Nat.digitChar n] := by
        rw [Text.toList_padded, Nat.toDigits_of_lt_base (by omega)]
        rfl
      rw [hone]
      exact digits?_succ_eq_some.mpr ⟨_, rest, n, 0, rfl, digit?_digitChar (by omega), rfl, by omega⟩
  | succ w hpos ih =>
      rw [Text.toList_padded_succ hpos, List.append_assoc]
      have hinit := @ih (n / 10) ([Nat.digitChar (n % 10)] ++ rest)
        (by rw [Nat.pow_succ] at h; omega)
      rw [digits?_snoc hinit (digit?_digitChar (Nat.mod_lt n (by decide)))]
      congr 2
      omega

theorem number?_padded {width n : Nat} (hpos : 0 < width) (h : n < 10 ^ width) :
    number? (Text.padded width n).toList = some n := by
  have hread := @digits?_padded _ _ [] hpos h
  rw [List.append_nil] at hread
  rw [number?, Text.length_padded hpos h, hread]

end DateTime

/-! ## Dates -/

namespace Calendar

theorem daysInMonth_congr {a b : Nat} (h : isLeap a = isLeap b) (month : Nat) :
    daysInMonth a month = daysInMonth b month := by
  rw [daysInMonth, daysInMonth, h]

theorem daysBeforeMonth_congr {a b : Nat} (h : isLeap a = isLeap b) (month : Nat) :
    daysBeforeMonth a month = daysBeforeMonth b month := by
  unfold daysBeforeMonth
  congr 1
  exact List.map_congr_left fun i _ => daysInMonth_congr h (i + 1)

/-- The month and the day of the month of a day of a year. -/
def monthOf (year day : Nat) : Nat × Nat :=
  let month := (day + 50) / 32
  if daysBeforeMonth year month > day then (month - 1, day - daysBeforeMonth year (month - 1) + 1)
  else (month, day - daysBeforeMonth year month + 1)

theorem ite_monthOf (year day : Nat) :
    (if daysBeforeMonth year ((day + 50) / 32) > day then
      (year, (day + 50) / 32 - 1, day - daysBeforeMonth year ((day + 50) / 32 - 1) + 1)
    else (year, (day + 50) / 32, day - daysBeforeMonth year ((day + 50) / 32) + 1)) =
      (year, monthOf year day) := by
  unfold monthOf
  dsimp only
  split <;> rfl

/-- What the month guess is good for, in one kind of year. -/
def MonthCorrect (year day : Nat) : Prop :=
  1 ≤ (monthOf year day).1 ∧ (monthOf year day).1 ≤ 12 ∧ 1 ≤ (monthOf year day).2 ∧
    (monthOf year day).2 ≤ daysInMonth year (monthOf year day).1 ∧
    daysBeforeMonth year (monthOf year day).1 + (monthOf year day).2 = day + 1

instance (year day : Nat) : Decidable (MonthCorrect year day) := by
  unfold MonthCorrect
  infer_instance

theorem monthOf_correct (year : Nat) {day : Nat} (h : day < 365) : MonthCorrect year day := by
  have hcommon : ∀ d < 365, MonthCorrect 1 d := by decide +kernel
  have hleap : ∀ d < 365, MonthCorrect 4 d := by decide +kernel
  have hcongr : ∀ y, isLeap year = isLeap y → MonthCorrect y day → MonthCorrect year day := by
    intro y hy hcorrect
    unfold MonthCorrect monthOf at hcorrect ⊢
    simp only [daysBeforeMonth_congr hy, daysInMonth_congr hy]
    exact hcorrect
  cases hyear : isLeap year with
  | false => exact hcongr 1 (by rw [hyear]; decide) (hcommon day h)
  | true => exact hcongr 4 (by rw [hyear]; decide) (hleap day h)

/-- The days before a year, by the cycles that precede it. -/
theorem daysBeforeYear_cycles {a b c e : Nat} (hb : b ≤ 3) (hc : c ≤ 24) (he : e ≤ 3) :
    daysBeforeYear (a * 400 + 1 + b * 100 + c * 4 + e) =
      a * 146097 + b * 36524 + c * 1461 + e * 365 := by
  have hyear : a * 400 + 1 + b * 100 + c * 4 + e - 1 = a * 400 + b * 100 + c * 4 + e := by omega
  have h4 : (a * 400 + b * 100 + c * 4 + e) / 4 = a * 100 + b * 25 + c := by omega
  have h100 : (a * 400 + b * 100 + c * 4 + e) / 100 = a * 4 + b := by omega
  have h400 : (a * 400 + b * 100 + c * 4 + e) / 400 = a := by omega
  unfold daysBeforeYear
  simp only [hyear, h4, h100, h400]
  omega

/-- The last day of a leap year ends a cycle of four or of 400 years. -/
theorem lastDay_cycles {a b c e : Nat}
    (h : (b = 4 ∧ c = 0 ∧ e = 0) ∨ (b ≤ 3 ∧ c ≤ 23 ∧ e = 4)) :
    isLeap (a * 400 + b * 100 + c * 4 + e) = true ∧
      ymdToOrd (a * 400 + b * 100 + c * 4 + e) 12 31 =
        a * 146097 + b * 36524 + c * 1461 + e * 365 + 1 := by
  have hleap : isLeap (a * 400 + b * 100 + c * 4 + e) = true := by
    have h4 : (a * 400 + b * 100 + c * 4 + e) % 4 = 0 := by omega
    have h100 : (a * 400 + b * 100 + c * 4 + e) % 100 ≠ 0 ∨
        (a * 400 + b * 100 + c * 4 + e) % 400 = 0 := by omega
    simpa [isLeap, h4] using h100
  refine ⟨hleap, ?_⟩
  have hmonths : daysBeforeMonth (a * 400 + b * 100 + c * 4 + e) 12 = 335 := by
    rw [daysBeforeMonth_congr (b := 4) (by rw [hleap]; decide)]
    decide
  have hyears : daysBeforeYear (a * 400 + b * 100 + c * 4 + e) + 366 =
      a * 146097 + b * 36524 + c * 1461 + e * 365 + 1 := by
    rcases h with ⟨rfl, rfl, rfl⟩ | ⟨hb, hc, rfl⟩
    · have hyear : a * 400 + 4 * 100 + 0 * 4 + 0 = a * 400 + 1 + 3 * 100 + 24 * 4 + 3 := by omega
      have hbefore := daysBeforeYear_cycles (a := a) (b := 3) (c := 24) (e := 3) (by omega)
        (by omega) (by omega)
      rw [hyear]
      omega
    · have hyear : a * 400 + b * 100 + c * 4 + 4 = a * 400 + 1 + b * 100 + c * 4 + 3 := by omega
      have hbefore := daysBeforeYear_cycles (a := a) (b := b) (c := c) (e := 3) hb (by omega)
        (by omega)
      rw [hyear]
      omega
  rw [ymdToOrd, hmonths]
  omega

theorem validDate_iff {year month day : Nat} :
    validDate year month day = true ↔ 1 ≤ year ∧ year ≤ 9999 ∧ 1 ≤ month ∧ month ≤ 12 ∧ 1 ≤ day ∧
      day ≤ daysInMonth year month := by
  simp [validDate, and_assoc]

/-- The calendar date of an ordinal is valid and has that ordinal. -/
theorem ordToYmd_correct {ordinal : Nat} (hpos : 1 ≤ ordinal) (hmax : ordinal ≤ maxOrdinal) :
    validDate (ordToYmd ordinal).1 (ordToYmd ordinal).2.1 (ordToYmd ordinal).2.2 = true ∧
      ymdToOrd (ordToYmd ordinal).1 (ordToYmd ordinal).2.1 (ordToYmd ordinal).2.2 = ordinal := by
  unfold maxOrdinal at hmax
  have hn := Nat.div_add_mod (ordinal - 1) 146097
  have hn' := Nat.mod_lt (ordinal - 1) (show 0 < 146097 by decide)
  have hr := Nat.div_add_mod ((ordinal - 1) % 146097) 36524
  have hr' := Nat.mod_lt ((ordinal - 1) % 146097) (show 0 < 36524 by decide)
  have hs := Nat.div_add_mod ((ordinal - 1) % 146097 % 36524) 1461
  have hs' := Nat.mod_lt ((ordinal - 1) % 146097 % 36524) (show 0 < 1461 by decide)
  have ht := Nat.div_add_mod ((ordinal - 1) % 146097 % 36524 % 1461) 365
  have ht' := Nat.mod_lt ((ordinal - 1) % 146097 % 36524 % 1461) (show 0 < 365 by decide)
  unfold ordToYmd
  dsimp only
  generalize (ordinal - 1) % 146097 % 36524 % 1461 % 365 = day at ht ht' ⊢
  generalize (ordinal - 1) % 146097 % 36524 % 1461 / 365 = e at ht ⊢
  generalize (ordinal - 1) % 146097 % 36524 % 1461 = s at hs hs' ht
  generalize (ordinal - 1) % 146097 % 36524 / 1461 = c at hs ⊢
  generalize (ordinal - 1) % 146097 % 36524 = r at hr hr' hs
  generalize (ordinal - 1) % 146097 / 36524 = b at hr ⊢
  generalize (ordinal - 1) % 146097 = n at hn hn' hr
  generalize (ordinal - 1) / 146097 = a at hn ⊢
  have hordinal : ordinal = a * 146097 + b * 36524 + c * 1461 + e * 365 + day + 1 := by omega
  by_cases hlast : e = 4 ∨ b = 4
  · -- the last day of a leap year
    rw [if_pos hlast]
    have hcycle : (b = 4 ∧ c = 0 ∧ e = 0) ∨ (b ≤ 3 ∧ c ≤ 23 ∧ e = 4) := by omega
    have hday : day = 0 := by omega
    have hyear : a * 400 + 1 + b * 100 + c * 4 + e - 1 = a * 400 + b * 100 + c * 4 + e := by omega
    obtain ⟨-, hord⟩ := lastDay_cycles (a := a) hcycle
    dsimp only
    rw [hyear]
    refine ⟨validDate_iff.mpr ⟨by omega, by omega, by decide, by decide, by decide, le_refl 31⟩, ?_⟩
    rw [hord]
    omega
  · rw [if_neg hlast]
    obtain ⟨hmonth, hmonth', hdom, hdom', hsum⟩ :=
      monthOf_correct (a * 400 + 1 + b * 100 + c * 4 + e) ht'
    have hyears := daysBeforeYear_cycles (a := a) (b := b) (c := c) (e := e) (by omega) (by omega)
      (by omega)
    rw [ite_monthOf]
    dsimp only
    refine ⟨validDate_iff.mpr ⟨by omega, by omega, hmonth, hmonth', hdom, hdom'⟩, ?_⟩
    rw [ymdToOrd, hyears]
    omega

end Calendar

/-! ## Reading back -/

namespace DateTime

theorem digit?_isSome_of_isDigit {c : Char} (h : c.isDigit = true) : (digit? c).isSome = true := by
  have hrange : 48 ≤ c.val ∧ c.val ≤ 57 := by simpa [Char.isDigit] using h
  rw [digit?, if_pos (show '0' ≤ c ∧ c ≤ '9' from hrange)]
  rfl

/-- A digit is none of the separators of a reading. -/
theorem isDigit_ne {c x : Char} (h : c.isDigit = true) (hx : x.isDigit = false) : c ≠ x := by
  rintro rfl
  rw [h] at hx
  cases hx

theorem head_padded {width n : Nat} {rest : List Char} :
    ∃ c tail, (Text.padded width n).toList ++ rest = c :: tail ∧ c.isDigit = true := by
  cases hs : (Text.padded width n).toList with
  | nil =>
      rw [Text.toList_padded] at hs
      exact absurd (List.append_eq_nil_iff.mp hs).2 Nat.toDigits_ne_nil
  | cons c tail =>
      refine ⟨c, tail ++ rest, rfl, @Text.isDigit_of_mem_padded width n _ ?_⟩
      rw [hs]
      exact List.mem_cons_self

theorem parseDate_format {y m d : Nat} (h : validDate y m d = true) :
    parseDate ((Text.padded 4 y).toList ++ '-' :: ((Text.padded 2 m).toList ++
      '-' :: (Text.padded 2 d).toList)) = some (ymdToOrd y m d) := by
  obtain ⟨-, hy, -, hm, -, hd⟩ := validDate_iff.mp h
  have hdays : daysInMonth y m ≤ 31 := by
    unfold daysInMonth
    split_ifs <;> decide
  obtain ⟨c, tail, hc, hdigit⟩ := @head_padded 2 m ('-' :: (Text.padded 2 d).toList)
  have hW : c ≠ 'W' := isDigit_ne hdigit (by decide)
  -- the year, and a separator that is no week marker
  rw [parseDate, digits?_padded (by decide) (by omega), Option.bind_eq_bind, Option.bind_some]
  dsimp only
  rw [List.head?_cons, List.tail_cons, beq_self_eq_true, if_pos rfl, hc, List.head?_cons,
    if_neg (fun hweek => hW (Option.some.inj (beq_iff_eq.mp hweek)))]
  -- the month, and the day that ends the text
  rw [← hc, digits?_padded (by decide) (by omega), Option.bind_eq_bind, Option.bind_some]
  dsimp only
  rw [List.head?_cons, beq_self_eq_true, bne_self_eq_false, if_neg Bool.false_ne_true, if_pos rfl,
    List.tail_cons, ← List.append_nil (Text.padded 2 d).toList, digits?_padded (by decide) (by omega),
    Option.bind_some]
  dsimp only
  rw [List.isEmpty_nil, Bool.true_and, if_pos h]

/-- The characters of hours and minutes, with what follows them. -/
def clockText (hour minute : Nat) (rest : List Char) : List Char :=
  (Text.padded 2 hour).toList ++ ':' :: ((Text.padded 2 minute).toList ++ rest)

/-- The characters of seconds, with what follows them. -/
def secondText (second : Nat) (rest : List Char) : List Char :=
  ':' :: ((Text.padded 2 second).toList ++ rest)

theorem parseFraction_padded {micro : Nat} (h : micro < 1000000) :
    parseFraction (Text.padded 6 micro).toList = some micro := by
  have hlength := @Text.length_padded 6 micro (by decide) h
  have hall : (Text.padded 6 micro).toList.all (fun c => (digit? c).isSome) = true :=
    List.all_eq_true.mpr fun c hc => digit?_isSome_of_isDigit (Text.isDigit_of_mem_padded hc)
  have hnonempty : (Text.padded 6 micro).toList.isEmpty = false := by
    rw [List.isEmpty_eq_false_iff]
    intro hnil
    rw [hnil] at hlength
    cases hlength
  have htake : (Text.padded 6 micro).toList.take 6 = (Text.padded 6 micro).toList := by
    rw [List.take_of_length_le (le_of_eq hlength)]
  rw [parseFraction, htake, hnonempty, hall]
  dsimp only
  rw [hlength, number?_padded (by decide) h]
  simp

theorem parseTimeParts_minutes {hour minute : Nat} (hh : hour < 100) (hm : minute < 100) :
    parseTimeParts (clockText hour minute []) = some (hour, minute, 0, 0) := by
  rw [parseTimeParts, clockText, digits?_padded (by decide) hh]
  simp only [Option.bind_eq_bind, Option.bind_some, List.isEmpty_cons, Bool.false_eq_true, if_false,
    List.head?_cons, beq_self_eq_true, if_true, List.tail_cons]
  rw [digits?_padded (by decide) hm]
  simp

theorem parseTimeParts_seconds {hour minute second : Nat} (hh : hour < 100) (hm : minute < 100)
    (hs : second < 100) :
    parseTimeParts (clockText hour minute (secondText second [])) = some (hour, minute, second, 0) := by
  rw [parseTimeParts, clockText, digits?_padded (by decide) hh]
  simp only [Option.bind_eq_bind, Option.bind_some, List.isEmpty_cons, Bool.false_eq_true, if_false,
    List.head?_cons, beq_self_eq_true, if_true, List.tail_cons]
  rw [digits?_padded (by decide) hm, secondText]
  simp only [Option.bind_some, List.isEmpty_cons, Bool.false_eq_true, if_false, List.head?_cons,
    bne_self_eq_false, Bool.and_false, List.tail_cons]
  rw [digits?_padded (by decide) hs]
  rfl

theorem parseTimeParts_micros {hour minute second micro : Nat} (hh : hour < 100) (hm : minute < 100)
    (hs : second < 100) (hf : micro < 1000000) :
    parseTimeParts (clockText hour minute (secondText second ('.' :: (Text.padded 6 micro).toList))) =
      some (hour, minute, second, micro) := by
  rw [parseTimeParts, clockText, digits?_padded (by decide) hh]
  simp only [Option.bind_eq_bind, Option.bind_some, List.isEmpty_cons, Bool.false_eq_true, if_false,
    List.head?_cons, beq_self_eq_true, if_true, List.tail_cons]
  rw [digits?_padded (by decide) hm, secondText]
  simp only [Option.bind_some, List.isEmpty_cons, Bool.false_eq_true, if_false, List.head?_cons,
    bne_self_eq_false, Bool.and_false, List.tail_cons]
  rw [digits?_padded (by decide) hs]
  simp only [Option.bind_some, true_or, if_true]
  rw [parseFraction_padded hf]
  rfl

/-- The characters of a fraction, none where it is zero. -/
def fractionText (micro : Nat) : List Char :=
  if micro = 0 then [] else '.' :: (Text.padded 6 micro).toList

theorem parseTimeParts_fraction {hour minute second micro : Nat} (hh : hour < 100)
    (hm : minute < 100) (hs : second < 100) (hf : micro < 1000000) :
    parseTimeParts (clockText hour minute (secondText second (fractionText micro))) =
      some (hour, minute, second, micro) := by
  unfold fractionText
  split
  case isTrue hzero => rw [hzero, parseTimeParts_seconds hh hm hs]
  case isFalse => exact parseTimeParts_micros hh hm hs hf

theorem toList_formatTime (micros : Nat) :
    (formatTime micros).toList = clockText (micros / 3600000000) (micros / 60000000 % 60)
      (secondText (micros / 1000000 % 60) (fractionText (micros % 1000000))) := by
  unfold formatTime fractionText clockText secondText
  by_cases h : micros % 1000000 = 0
  · rw [if_pos h, if_pos h]
    simp [String.toList_append]
  · rw [if_neg h, if_neg h]
    simp [String.toList_append]

theorem timeMicros_split {n : Nat} :
    timeMicros (n / 3600000000) (n / 60000000 % 60) (n / 1000000 % 60) (n % 1000000) = n := by
  unfold timeMicros
  omega

/-- The sign character of an offset. -/
def signOf (o : UtcOffset) : Char := if o.micros < 0 then '-' else '+'

/-- The characters of an offset after its sign. -/
def offsetText (o : UtcOffset) : List Char :=
  let n := o.micros.natAbs
  clockText (n / 3600000000) (n / 60000000 % 60)
    (if n / 1000000 % 60 = 0 ∧ n % 1000000 = 0 then []
    else secondText (n / 1000000 % 60) (fractionText (n % 1000000)))

theorem toList_format (o : UtcOffset) : o.format.toList = signOf o :: offsetText o := by
  unfold UtcOffset.format signOf offsetText clockText secondText fractionText
  by_cases hsign : o.micros < 0 <;> by_cases hs : o.micros.natAbs / 1000000 % 60 = 0 <;>
    by_cases hf : o.micros.natAbs % 1000000 = 0 <;> simp [hsign, hs, hf, String.toList_append]

theorem parseOffset_format (o : UtcOffset) : parseOffset (signOf o) (offsetText o) = some o := by
  have hlower := o.lower
  have hupper := o.upper
  have hparts : parseTimeParts (offsetText o) = some (o.micros.natAbs / 3600000000,
      o.micros.natAbs / 60000000 % 60, o.micros.natAbs / 1000000 % 60, o.micros.natAbs % 1000000) := by
    unfold offsetText
    dsimp only
    split
    case isTrue hzero => rw [hzero.1, hzero.2, parseTimeParts_minutes (by omega) (by omega)]
    case isFalse => exact parseTimeParts_fraction (by omega) (by omega) (by omega) (by omega)
  have hlength : 5 ≤ (offsetText o).length := by
    have hh := @Text.length_padded 2 (o.micros.natAbs / 3600000000) (by decide) (by omega)
    have hm := @Text.length_padded 2 (o.micros.natAbs / 60000000 % 60) (by decide) (by omega)
    unfold offsetText clockText
    rw [List.length_append, List.length_cons, List.length_append, hh, hm]
    omega
  have hZ : signOf o ≠ 'Z' := by
    unfold signOf
    split <;> decide
  have hvalue : UtcOffset.ofMicros?
      (if signOf o = '-' then -(o.micros.natAbs : Int) else (o.micros.natAbs : Int)) = some o := by
    have hmicros : (if signOf o = '-' then -(o.micros.natAbs : Int) else (o.micros.natAbs : Int)) =
        o.micros := by
      unfold signOf
      by_cases hsign : o.micros < 0
      · rw [if_pos hsign, if_pos rfl]
        omega
      · rw [if_neg hsign, if_neg (by decide)]
        omega
    rw [hmicros, UtcOffset.ofMicros?, dif_pos ⟨hlower, hupper⟩]
  rw [parseOffset, if_neg hZ, if_neg (by omega), hparts]
  simp only [Option.bind_eq_bind, Option.bind_some]
  rw [timeMicros_split]
  exact hvalue

/-! ### The characters of a reading -/

/-- A character of a time of day. -/
def IsClockChar (c : Char) : Prop := c.isDigit = true ∨ c = ':' ∨ c = '.'

theorem IsClockChar.ne {c x : Char} (h : IsClockChar c)
    (hx : x.isDigit = false ∧ x ≠ ':' ∧ x ≠ '.') : c ≠ x := by
  obtain hdigit | rfl | rfl := h
  · exact isDigit_ne hdigit hx.1
  · exact hx.2.1.symm
  · exact hx.2.2.symm

theorem padded_chars {width n : Nat} {c : Char} (h : c ∈ (Text.padded width n).toList) :
    IsClockChar c := .inl (Text.isDigit_of_mem_padded h)

theorem fractionText_chars {micro : Nat} {c : Char} (h : c ∈ fractionText micro) : IsClockChar c := by
  unfold fractionText at h
  split at h
  · cases h
  · rcases List.mem_cons.mp h with rfl | h
    · exact .inr (.inr rfl)
    · exact padded_chars h

theorem secondText_chars {second : Nat} {rest : List Char} {c : Char} (h : c ∈ secondText second rest)
    (hrest : c ∈ rest → IsClockChar c) : IsClockChar c := by
  rcases List.mem_cons.mp h with rfl | h
  · exact .inr (.inl rfl)
  rcases List.mem_append.mp h with h | h
  · exact padded_chars h
  · exact hrest h

theorem clockText_chars {hour minute : Nat} {rest : List Char} {c : Char}
    (h : c ∈ clockText hour minute rest) (hrest : c ∈ rest → IsClockChar c) : IsClockChar c := by
  rcases List.mem_append.mp h with h | h
  · exact padded_chars h
  rcases List.mem_cons.mp h with rfl | h
  · exact .inr (.inl rfl)
  rcases List.mem_append.mp h with h | h
  · exact padded_chars h
  · exact hrest h

theorem formatTime_chars {micros : Nat} {c : Char} (h : c ∈ (formatTime micros).toList) :
    IsClockChar c := by
  rw [toList_formatTime] at h
  exact clockText_chars h fun h => secondText_chars h fractionText_chars

theorem offsetText_chars {o : UtcOffset} {c : Char} (h : c ∈ offsetText o) : IsClockChar c := by
  refine clockText_chars h fun h => ?_
  split at h
  · cases h
  · exact secondText_chars h fractionText_chars

/-- Neither a digit nor a separator of a time of day starts an offset. -/
theorem clock_no_sign {micros : Nat} {c : Char} (h : c ∈ (formatTime micros).toList) :
    (!(c == '+' || c == '-' || c == 'Z')) = true := by
  have hclock := formatTime_chars h
  simp [hclock.ne (x := '+') (by decide), hclock.ne (x := '-') (by decide),
    hclock.ne (x := 'Z') (by decide)]

theorem parseTime_format {micros : Nat} (h : micros < dayMicros) (offset : Option UtcOffset) :
    parseTime ((formatTime micros).toList ++ ((offset.map UtcOffset.format).getD "").toList) =
      some (micros, offset) := by
  unfold dayMicros at h
  have hparts : parseTimeParts (formatTime micros).toList = some (micros / 3600000000,
      micros / 60000000 % 60, micros / 1000000 % 60, micros % 1000000) := by
    rw [toList_formatTime]
    exact parseTimeParts_fraction (by omega) (by omega) (by omega) (by omega)
  have hrange : ¬ (micros / 3600000000 > 23 ∨ micros / 60000000 % 60 > 59 ∨
      micros / 1000000 % 60 > 59) := by omega
  have hclock : ((formatTime micros).toList ++ ((offset.map UtcOffset.format).getD "").toList).takeWhile
      (fun c => !(c == '+' || c == '-' || c == 'Z')) = (formatTime micros).toList := by
    rw [List.takeWhile_append_of_pos fun c hc => clock_no_sign hc]
    cases offset with
    | none => exact List.append_nil _
    | some o =>
        rw [Option.map_some, Option.getD_some, toList_format, List.takeWhile_cons_of_neg,
          List.append_nil]
        unfold signOf
        split <;> decide
  rw [parseTime]
  dsimp only
  rw [hclock, hparts]
  simp only [Option.bind_eq_bind, Option.bind_some]
  rw [if_neg hrange, List.drop_left]
  cases offset with
  | none =>
      rw [Option.map_none, Option.getD_none]
      exact congrArg (fun n => some (n, none)) timeMicros_split
  | some o =>
      rw [Option.map_some, Option.getD_some, toList_format]
      dsimp only
      rw [parseOffset_format]
      exact congrArg (fun n => some (n, some o)) timeMicros_split

/-- The characters of a date. -/
def dateText (y m d : Nat) : List Char :=
  (Text.padded 4 y).toList ++ '-' :: ((Text.padded 2 m).toList ++ '-' :: (Text.padded 2 d).toList)

theorem separatorIndex_format {y m d : Nat} {rest : List Char} (h : validDate y m d = true) :
    (dateText y m d).length = 10 ∧ separatorIndex (dateText y m d ++ 'T' :: rest) = some 10 := by
  obtain ⟨-, hy, -, hm, -, hd⟩ := validDate_iff.mp h
  have hdays : daysInMonth y m ≤ 31 := by
    unfold daysInMonth
    split_ifs <;> decide
  have hlength : (dateText y m d).length = 10 := by
    rw [dateText, List.length_append, List.length_cons, List.length_append, List.length_cons,
      Text.length_padded (by decide) (show y < 10 ^ 4 by omega),
      Text.length_padded (by decide) (show m < 10 ^ 2 by omega),
      Text.length_padded (by decide) (show d < 10 ^ 2 by omega)]
  refine ⟨hlength, ?_⟩
  have hyear : (Text.padded 4 y).toList.length = 4 :=
    Text.length_padded (by decide) (show y < 10 ^ 4 by omega)
  obtain ⟨c, tail, hc, hdigit⟩ := @head_padded 2 m ('-' :: (Text.padded 2 d).toList)
  have hW : c ≠ 'W' := isDigit_ne hdigit (by decide)
  have htext : dateText y m d ++ 'T' :: rest =
      (Text.padded 4 y).toList ++ '-' :: c :: (tail ++ 'T' :: rest) := by
    rw [dateText, hc, List.append_assoc]
    rfl
  have htotal : (dateText y m d ++ 'T' :: rest).length = 11 + rest.length := by
    rw [List.length_append, hlength, List.length_cons]
    omega
  have h4 : (dateText y m d ++ 'T' :: rest)[4]? = some '-' := by
    rw [htext, List.getElem?_append_right (by omega), hyear]
    rfl
  have h5 : (dateText y m d ++ 'T' :: rest)[5]? = some c := by
    rw [htext, List.getElem?_append_right (by omega), hyear]
    rfl
  rw [separatorIndex, htotal, if_neg (by omega), if_neg (by omega), h4, h5, if_pos (by decide),
    if_neg (by simpa using hW)]

theorem ofOrdinal?_eq_some {ordinal micros : Nat} (hpos : 1 ≤ ordinal)
    (h : (ordinal - 1) * dayMicros = micros) (hmax : micros < maxOrdinal * dayMicros) :
    Instant.ofOrdinal? ordinal = some ⟨micros, hmax⟩ := by
  rw [Instant.ofOrdinal?, if_pos hpos, h]
  exact Instant.ofMicros?_self ⟨micros, hmax⟩

/-- A printed reading reads back. -/
theorem fromisoformat_isoformat (t : DateTime) : fromisoformat t.isoformat = some t := by
  have hbound := t.wall.lt_max
  have hpos : 1 ≤ t.wall.ordinal := Nat.le_add_left 1 _
  have hmax : t.wall.ordinal ≤ maxOrdinal := t.wall.date.le_max
  obtain ⟨hvalid, hordinal⟩ := ordToYmd_correct hpos hmax
  -- the reading as midnight of its day and the time of day
  obtain ⟨start, hstart⟩ : ∃ start, (t.wall.ordinal - 1) * dayMicros = start := ⟨_, rfl⟩
  obtain ⟨clock, hclock⟩ : ∃ clock, t.wall.micros % dayMicros = clock := ⟨_, rfl⟩
  have hsum : start + clock = t.wall.micros := by
    rw [← hstart, ← hclock, Instant.ordinal, Nat.add_sub_cancel]
    exact Nat.div_add_mod' _ _
  have hclockMax : clock < dayMicros := by
    rw [← hclock]
    exact Nat.mod_lt _ (by decide)
  have hwall : Instant.ofMicros? ((start + clock : Nat) : Int) = some t.wall := by
    rw [hsum, Instant.ofMicros?_self]
  have hday := ofOrdinal?_eq_some hpos hstart (Nat.lt_of_le_of_lt (Nat.le_of_add_right_le hsum.le) hbound)
  rcases hymd : ordToYmd t.wall.ordinal with ⟨y, m, d⟩
  rw [hymd] at hvalid hordinal
  dsimp only at hvalid hordinal
  let rest := (formatTime clock).toList ++ ((t.offset.map UtcOffset.format).getD "").toList
  have htext : t.isoformat.toList = dateText y m d ++ 'T' :: rest := by
    rw [isoformat, formatDate, hymd, hclock]
    simp [dateText, rest, String.toList_append]
  obtain ⟨hlength, hseparator⟩ := @separatorIndex_format _ _ _ rest hvalid
  have hrest : (dateText y m d ++ 'T' :: rest).drop (10 + 1) = rest := by
    rw [← hlength, List.drop_append, List.drop_of_length_le (Nat.le_succ _), Nat.add_sub_cancel_left]
    rfl
  have hnonempty : 0 < rest.length := by
    rw [List.length_append, toList_formatTime, clockText, List.length_append, Text.length_padded
      (by decide) (by unfold dayMicros at hclockMax; omega)]
    omega
  have hlong : ¬ ((dateText y m d ++ 'T' :: rest).length ≤ 10 ∨
      ((dateText y m d ++ 'T' :: rest).length = 10 + 1 ∧
        ((dateText y m d ++ 'T' :: rest)[10]?.all fun c => c.toNat < 128) = true)) := by
    rw [List.length_append, hlength, List.length_cons]
    omega
  rw [fromisoformat, htext, hseparator]
  simp only [Option.bind_eq_bind, Option.bind_some]
  rw [hrest, List.take_left' hlength, dateText, parseDate_format hvalid]
  simp only [Option.bind_some]
  rw [hordinal, hday]
  simp only [Option.bind_some]
  rw [dateText] at hlong
  rw [if_neg hlong, parseTime_format hclockMax]
  simp only [Option.bind_some]
  rw [hwall, Option.bind_some]

/-- Two readings that are printed alike are the same. -/
theorem isoformat_injective {t u : DateTime} (h : t.isoformat = u.isoformat) : t = u := by
  have hread := congrArg fromisoformat h
  rw [fromisoformat_isoformat, fromisoformat_isoformat] at hread
  exact Option.some.inj hread

theorem toList_formatDate {ordinal y m d : Nat} (h : ordToYmd ordinal = (y, m, d)) :
    (formatDate ordinal).toList = dateText y m d := by
  rw [formatDate, h]
  simp [dateText, String.toList_append]

/-- A printed date reads back. -/
theorem parseDate_formatDate {ordinal : Nat} (hpos : 1 ≤ ordinal) (hmax : ordinal ≤ maxOrdinal) :
    parseDate (formatDate ordinal).toList = some ordinal := by
  obtain ⟨hvalid, hordinal⟩ := ordToYmd_correct hpos hmax
  rcases hymd : ordToYmd ordinal with ⟨y, m, d⟩
  rw [hymd] at hvalid hordinal
  rw [toList_formatDate hymd, dateText, parseDate_format hvalid, hordinal]

/-- A printed reading consists of digits and the separators of ISO 8601. -/
theorem isoformat_chars {t : DateTime} {c : Char} (h : c ∈ t.isoformat.toList) :
    IsClockChar c ∨ c = '-' ∨ c = '+' ∨ c = 'T' := by
  rcases hymd : ordToYmd t.wall.ordinal with ⟨y, m, d⟩
  simp only [isoformat, String.toList_append, toList_formatDate hymd, dateText, List.mem_append,
    List.mem_cons] at h
  rcases h with (((hyear | rfl | hmonth | rfl | hday) | hsep) | hclock) | hoffset
  · exact .inl (padded_chars hyear)
  · exact .inr (.inl rfl)
  · exact .inl (padded_chars hmonth)
  · exact .inr (.inl rfl)
  · exact .inl (padded_chars hday)
  · exact .inr (.inr (.inr (List.mem_singleton.mp hsep)))
  · exact .inl (formatTime_chars hclock)
  · rcases hset : t.offset with _ | o
    · rw [hset] at hoffset
      cases hoffset
    · rw [hset, Option.map_some, Option.getD_some, toList_format] at hoffset
      rcases List.mem_cons.mp hoffset with rfl | hoffset
      · unfold signOf
        split_ifs
        · exact .inr (.inl rfl)
        · exact .inr (.inr (.inl rfl))
      · exact .inl (offsetText_chars hoffset)

/-- A reading is printed without a `Z`. -/
theorem isoformat_no_zulu {t : DateTime} {c : Char} (h : c ∈ t.isoformat.toList) : c ≠ 'Z' := by
  rcases isoformat_chars h with hclock | rfl | rfl | rfl
  · exact hclock.ne (by decide)
  all_goals decide

/-- A reading is printed without white space. -/
theorem isoformat_no_space {t : DateTime} {c : Char} (h : c ∈ t.isoformat.toList) :
    Text.isSpace c = false := by
  rcases isoformat_chars h with (hdigit | rfl | rfl) | rfl | rfl | rfl
  · have hrange : 48 ≤ c.val ∧ c.val ≤ 57 := by simpa [Char.isDigit] using hdigit
    have hlow : 48 ≤ c.toNat := hrange.1
    have hhigh : c.toNat ≤ 57 := hrange.2
    exact Text.isSpace_of_visible (by omega)
  all_goals decide

/-! ## Readings in UTC -/

/-- The instant of a text that is in UTC unless it says otherwise. -/
def readUtc (text : String) : Option Instant :=
  (fromisoformat (Text.replaceChar 'Z' "+00:00" text)).bind toInstant?

theorem replaceChar_of_not_mem {old : Char} {new s : String} (h : ∀ c ∈ s.toList, c ≠ old) :
    Text.replaceChar old new s = s := by
  have hsame : (s.toList.flatMap fun c => if c = old then new.toList else [c]) =
      s.toList.flatMap fun c => [c] :=
    List.flatMap_congr fun c hc => if_neg (h c hc)
  rw [Text.replaceChar, hsame, List.flatMap_singleton', String.ofList_toList]

theorem replaceChar_append {old : Char} {new s t : String} :
    Text.replaceChar old new (s ++ t) = Text.replaceChar old new s ++ Text.replaceChar old new t := by
  rw [Text.replaceChar, String.toList_append, List.flatMap_append, String.ofList_append]
  rfl

theorem readUtc_naive (t : Instant) : readUtc (isoformat ⟨t, none⟩) = some t := by
  rw [readUtc, replaceChar_of_not_mem fun c hc => isoformat_no_zulu hc, fromisoformat_isoformat]
  exact toInstant?_utc t

theorem isoformat_utc (t : Instant) : isoformat ⟨t, none⟩ ++ "+00:00" = (utc t).isoformat := by
  simp only [isoformat, utc, Option.map_none, Option.map_some, Option.getD_none, Option.getD_some,
    String.append_empty]
  rw [show UtcOffset.zero.format = "+00:00" by decide]

theorem readUtc_zulu (t : Instant) : readUtc (isoformat ⟨t, none⟩ ++ "Z") = some t := by
  rw [readUtc, replaceChar_append, replaceChar_of_not_mem fun c hc => isoformat_no_zulu hc,
    show Text.replaceChar 'Z' "+00:00" "Z" = "+00:00" by decide, isoformat_utc, fromisoformat_isoformat]
  exact toInstant?_utc t

end DateTime

end CfdiVault
