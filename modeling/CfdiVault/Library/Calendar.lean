import CfdiVault.Library.Text

/-!
# Calendar

Date-times of the proleptic Gregorian calendar, years 1 to 9999, with microsecond
resolution: bounded instants, bounded durations, checked addition, and the ISO
8601 text form in both directions.

An `Instant` is a count of microseconds since `0001-01-01T00:00`, together with
the proof that it lies before the end of year 9999; a `Timedelta` is a count of
microseconds within the range of the host's duration type.  Leaving either range
is the host's `OverflowError`, so the operations that can leave it return an
`Option`.

`DateTime` is a wall-clock reading with an optional offset from UTC.
`DateTime.isoformat` prints it and `DateTime.fromisoformat` reads the ISO 8601
forms that the host accepts: calendar and week dates, with or without
separators, any one-character date/time separator, a fraction of the second of
any length (truncated to six digits), and an offset down to microseconds.
-/

namespace CfdiVault

namespace Calendar

/-- Microseconds in one day. -/
abbrev dayMicros : Nat := 86400000000

/-- The ordinal of 9999-12-31. -/
abbrev maxOrdinal : Nat := 3652059

def isLeap (year : Nat) : Bool :=
  year % 4 == 0 && (year % 100 != 0 || year % 400 == 0)

def daysInMonth (year month : Nat) : Nat :=
  if month = 2 then (if isLeap year then 29 else 28)
  else if month = 4 ∨ month = 6 ∨ month = 9 ∨ month = 11 then 30
  else 31

/-- Days before January 1st of `year`. -/
def daysBeforeYear (year : Nat) : Nat :=
  let y := year - 1
  y * 365 + y / 4 - y / 100 + y / 400

/-- Days of `year` before the first day of `month`. -/
def daysBeforeMonth (year month : Nat) : Nat :=
  ((List.range (month - 1)).map fun i => daysInMonth year (i + 1)).sum

/-- Ordinal of a calendar date; January 1st of year 1 is day 1. -/
def ymdToOrd (year month day : Nat) : Nat :=
  daysBeforeYear year + daysBeforeMonth year month + day

/-- A year, month and day that name a date of the supported range. -/
def validDate (year month day : Nat) : Bool :=
  1 ≤ year && year ≤ 9999 && 1 ≤ month && month ≤ 12 && 1 ≤ day &&
    day ≤ daysInMonth year month

/-- Year, month and day of an ordinal: peel off the 400-, 100-, 4- and 1-year
cycles, then guess the month from the day of the year and correct the guess. -/
def ordToYmd (ordinal : Nat) : Nat × Nat × Nat :=
  let n := ordinal - 1
  let n400 := n / 146097
  let n := n % 146097
  let n100 := n / 36524
  let n := n % 36524
  let n4 := n / 1461
  let n := n % 1461
  let n1 := n / 365
  let n := n % 365
  let year := n400 * 400 + 1 + n100 * 100 + n4 * 4 + n1
  -- the last day of a leap cycle overflows into a fifth year or century
  if n1 = 4 ∨ n100 = 4 then (year - 1, 12, 31)
  else
    let month := (n + 50) / 32
    if daysBeforeMonth year month > n then
      (year, month - 1, n - daysBeforeMonth year (month - 1) + 1)
    else (year, month, n - daysBeforeMonth year month + 1)

/-- Ordinal of the Monday of ISO week 1. -/
def isoWeek1Monday (year : Nat) : Nat :=
  let first := ymdToOrd year 1 1
  let weekday := (first + 6) % 7
  if weekday > 3 then first - weekday + 7 else first - weekday

/-- Ordinal of an ISO week date. -/
def isoWeekToOrd (year week day : Nat) : Option Nat :=
  let firstWeekday := ymdToOrd year 1 1 % 7
  let longYear := firstWeekday == 4 || (firstWeekday == 3 && isLeap year)
  if 1 ≤ year ∧ year ≤ 9999 ∧ 1 ≤ week ∧ (week ≤ 52 ∨ (week = 53 ∧ longYear = true)) ∧
      1 ≤ day ∧ day ≤ 7 then
    let ordinal := isoWeek1Monday year + (week - 1) * 7 + (day - 1)
    if 1 ≤ ordinal ∧ ordinal ≤ maxOrdinal then some ordinal else none
  else none

end Calendar

open Calendar

/-! ## Durations and instants -/

/-- A duration: a signed number of microseconds within ±999999999 days. -/
structure Timedelta where
  micros : Int
  lower : -(999999999 * 86400000000) ≤ micros
  upper : micros < 1000000000 * 86400000000
  deriving DecidableEq

namespace Timedelta

/-- A duration from a count of microseconds, when it is representable. -/
def ofMicros? (micros : Int) : Option Timedelta :=
  if h : -(999999999 * 86400000000) ≤ micros ∧ micros < 1000000000 * 86400000000 then
    some ⟨micros, h.1, h.2⟩
  else none

/-- A duration of `n` minutes. -/
def minutes (n : Nat) (h : Nat.blt n 1000000 = true := by exact Eq.refl true) : Timedelta :=
  have hlt : n < 1000000 := Nat.blt_eq.mp h
  ⟨n * 60000000, by omega, by omega⟩

/-- A duration of `n` hours. -/
def hours (n : Nat) (h : Nat.blt n 1000000 = true := by exact Eq.refl true) : Timedelta :=
  have hlt : n < 1000000 := Nat.blt_eq.mp h
  ⟨n * 3600000000, by omega, by omega⟩

/-- `int(td.total_seconds())`: whole seconds, truncated toward zero. -/
def wholeSeconds (d : Timedelta) : Int := d.micros.tdiv 1000000

/-- `d + timedelta(seconds=n)`. -/
def addSeconds? (d : Timedelta) (n : Nat) : Option Timedelta :=
  ofMicros? (d.micros + n * 1000000)

/-- `a - b`. -/
def sub? (a b : Timedelta) : Option Timedelta := ofMicros? (a.micros - b.micros)

end Timedelta

/-- A point of the supported time line, in microseconds since 0001-01-01T00:00. -/
structure Instant where
  micros : Nat
  lt_max : micros < maxOrdinal * dayMicros
  deriving DecidableEq

namespace Instant

/-- The instant a count of microseconds names, taken modulo the length of the time line. -/
instance instOfNat (n : Nat) : OfNat Instant n :=
  ⟨⟨n % (maxOrdinal * dayMicros), Nat.mod_lt n (by decide)⟩⟩

instance : LE Instant := ⟨fun a b => a.micros ≤ b.micros⟩

instance : LT Instant := ⟨fun a b => a.micros < b.micros⟩

instance decidableLe (a b : Instant) : Decidable (a ≤ b) :=
  inferInstanceAs (Decidable (a.micros ≤ b.micros))

instance decidableLt (a b : Instant) : Decidable (a < b) :=
  inferInstanceAs (Decidable (a.micros < b.micros))

theorem not_le {a b : Instant} : ¬ a ≤ b ↔ b < a :=
  Nat.not_le

theorem le_refl (a : Instant) : a ≤ a := Nat.le_refl a.micros

theorem le_trans {a b c : Instant} (hab : a ≤ b) (hbc : b ≤ c) : a ≤ c :=
  Nat.le_trans hab hbc

/-- An instant from a signed count of microseconds, when it is representable. -/
def ofMicros? (micros : Int) : Option Instant :=
  if h : 0 ≤ micros ∧ micros.toNat < maxOrdinal * dayMicros then some ⟨micros.toNat, h.2⟩
  else none

/-- `instant + duration`; `none` is the host's `OverflowError`. -/
def add? (a : Instant) (d : Timedelta) : Option Instant :=
  ofMicros? (a.micros + d.micros)

/-- Ordinal of the day of an instant. -/
def ordinal (a : Instant) : Nat := a.micros / dayMicros + 1

/-- Midnight of the day with the given ordinal. -/
def ofOrdinal? (ordinal : Nat) : Option Instant :=
  if 1 ≤ ordinal then ofMicros? (((ordinal - 1) * dayMicros : Nat) : Int) else none

theorem ofMicros?_eq_some {micros : Int} {a : Instant} (h : ofMicros? micros = some a) :
    (a.micros : Int) = micros := by
  unfold ofMicros? at h
  split at h
  · next hr =>
    cases h
    exact Int.toNat_of_nonneg hr.1
  · cases h

theorem add?_eq_some {a b : Instant} {d : Timedelta} (h : a.add? d = some b) :
    (b.micros : Int) = a.micros + d.micros :=
  ofMicros?_eq_some h

/-- Adding a non-negative duration overflows only past the end of year 9999. -/
theorem add?_isSome_of_lt {a : Instant} {d : Timedelta} (hd : 0 ≤ d.micros)
    (h : (a.micros : Int) + d.micros < (maxOrdinal * dayMicros : Nat)) :
    (a.add? d).isSome := by
  unfold add? ofMicros?
  rw [dif_pos ⟨by omega, by omega⟩]
  rfl

/-- If the longer of two durations can be added, the shorter one can. -/
theorem add?_isSome_mono {a : Instant} {d e : Timedelta} (hd : 0 ≤ d.micros)
    (hde : d.micros ≤ e.micros) (h : (a.add? e).isSome) : (a.add? d).isSome := by
  obtain ⟨b, hb⟩ := Option.isSome_iff_exists.mp h
  have hsum := add?_eq_some hb
  have hmax := b.lt_max
  exact add?_isSome_of_lt hd (by omega)

theorem ofMicros?_self (a : Instant) : ofMicros? a.micros = some a := by
  unfold ofMicros?
  rw [dif_pos ⟨by omega, by rw [Int.toNat_natCast]; exact a.lt_max⟩]
  rfl

end Instant

/-! ## Dates -/

/-- A calendar date. -/
structure Date where
  ordinal : Nat
  pos : 1 ≤ ordinal
  le_max : ordinal ≤ maxOrdinal
  deriving DecidableEq

namespace Date

theorem eq_of_ordinal {a b : Date} (h : a.ordinal = b.ordinal) : a = b := by
  cases a
  cases b
  cases h
  rfl

/-- The date `n` days later; `none` is the host's `OverflowError`. -/
def addDays? (d : Date) (n : Nat) : Option Date :=
  if h : d.ordinal + n ≤ maxOrdinal then some ⟨d.ordinal + n, Nat.le_add_right_of_le d.pos, h⟩
  else none

/-- The earlier of two dates. -/
def earlier (a b : Date) : Date := if b.ordinal < a.ordinal then b else a

/-- `datetime.combine(d, time.min)`. -/
def midnight (d : Date) : Instant where
  micros := (d.ordinal - 1) * dayMicros
  lt_max := by
    have hpos := d.pos
    have hmax := d.le_max
    unfold maxOrdinal at hmax
    unfold maxOrdinal dayMicros
    omega

/-- `datetime.combine(d, time.max)`. -/
def lastMicrosecond (d : Date) : Instant where
  micros := d.ordinal * dayMicros - 1
  lt_max := by
    have hpos := d.pos
    have hmax := d.le_max
    unfold maxOrdinal at hmax
    unfold maxOrdinal dayMicros
    omega

end Date

/-- The day of an instant. -/
def Instant.date (a : Instant) : Date where
  ordinal := a.ordinal
  pos := Nat.le_add_left 1 _
  le_max := by
    have hmax := a.lt_max
    unfold maxOrdinal dayMicros at hmax
    unfold ordinal maxOrdinal dayMicros
    omega

/-! ## Wall-clock readings and their text form -/

/-- A distance from UTC, strictly between minus and plus one day. -/
structure UtcOffset where
  micros : Int
  lower : -86400000000 < micros
  upper : micros < 86400000000
  deriving DecidableEq

namespace UtcOffset

/-- The offset of UTC itself. -/
def zero : UtcOffset := ⟨0, by decide, by decide⟩

/-- One hour ahead of UTC. -/
def hourAhead : UtcOffset := ⟨3600000000, by decide, by decide⟩

def ofMicros? (micros : Int) : Option UtcOffset :=
  if h : -86400000000 < micros ∧ micros < 86400000000 then some ⟨micros, h.1, h.2⟩ else none

/-- `+HH:MM`, followed by seconds and microseconds where these are not zero. -/
def format (o : UtcOffset) : String :=
  let sign := if o.micros < 0 then "-" else "+"
  let n := o.micros.natAbs
  let base := sign ++ Text.padded 2 (n / 3600000000) ++ ":" ++
    Text.padded 2 (n / 60000000 % 60)
  let seconds := n / 1000000 % 60
  let fraction := n % 1000000
  if seconds = 0 ∧ fraction = 0 then base
  else if fraction = 0 then base ++ ":" ++ Text.padded 2 seconds
  else base ++ ":" ++ Text.padded 2 seconds ++ "." ++ Text.padded 6 fraction

end UtcOffset

/-- A wall-clock reading, naive when it carries no offset from UTC. -/
structure DateTime where
  wall : Instant
  offset : Option UtcOffset
  deriving DecidableEq

namespace DateTime

/-- A UTC reading. -/
def utc (a : Instant) : DateTime := ⟨a, some UtcOffset.zero⟩

/-- Year, month and day on the clock. -/
def ymd (t : DateTime) : Nat × Nat × Nat := ordToYmd t.wall.ordinal

/-- The instant a reading denotes; a naive one is taken as UTC.  `none` is the
`OverflowError` of a conversion that leaves the supported range. -/
def toInstant? (t : DateTime) : Option Instant :=
  Instant.ofMicros? ((t.wall.micros : Int) - (t.offset.getD UtcOffset.zero).micros)

theorem toInstant?_utc (a : Instant) : (utc a).toInstant? = some a := by
  show Instant.ofMicros? ((a.micros : Int) - 0) = some a
  rw [Int.sub_zero, Instant.ofMicros?_self]

/-- `YYYY-MM-DD`. -/
def formatDate (ordinal : Nat) : String :=
  let (y, m, d) := ordToYmd ordinal
  Text.padded 4 y ++ "-" ++ Text.padded 2 m ++ "-" ++ Text.padded 2 d

/-- `HH:MM:SS`, followed by the microseconds where they are not zero. -/
def formatTime (micros : Nat) : String :=
  let base := Text.padded 2 (micros / 3600000000) ++ ":" ++
    Text.padded 2 (micros / 60000000 % 60) ++ ":" ++ Text.padded 2 (micros / 1000000 % 60)
  if micros % 1000000 = 0 then base else base ++ "." ++ Text.padded 6 (micros % 1000000)

/-- `isoformat()`. -/
def isoformat (t : DateTime) : String :=
  formatDate t.wall.ordinal ++ "T" ++ formatTime (t.wall.micros % dayMicros) ++
    (t.offset.map UtcOffset.format).getD ""

/-! ### Reading ISO 8601 -/

/-- The value of an ASCII digit. -/
def digit? (c : Char) : Option Nat :=
  if '0' ≤ c ∧ c ≤ '9' then some (c.toNat - 48) else none

/-- Read exactly `n` digits; the number read and what follows. -/
def digits? : Nat → List Char → Option (Nat × List Char)
  | 0, cs => some (0, cs)
  | n + 1, c :: cs => do
      let d ← digit? c
      let (v, rest) ← digits? n cs
      some (d * 10 ^ n + v, rest)
  | _ + 1, [] => none

/-- A number made of all the given digits. -/
def number? (cs : List Char) : Option Nat :=
  match digits? cs.length cs with
  | some (v, []) => some v
  | _ => none

/-- `YYYY-MM-DD`, `YYYYMMDD`, `YYYY-Www`, `YYYY-Www-D`, `YYYYWww` or `YYYYWwwD`. -/
def parseDate (cs : List Char) : Option Nat := do
  let (year, rest) ← digits? 4 cs
  let hasSep := rest.head? == some '-'
  let rest := if hasSep then rest.tail else rest
  if rest.head? == some 'W' then
    let (week, rest) ← digits? 2 rest.tail
    match rest, hasSep with
    | [], _ => isoWeekToOrd year week 1
    | '-' :: d :: [], true => isoWeekToOrd year week (← digit? d)
    | d :: [], false => isoWeekToOrd year week (← digit? d)
    | _, _ => none
  else
    let (month, rest) ← digits? 2 rest
    if (rest.head? == some '-') != hasSep then none
    let (day, rest) ← digits? 2 (if hasSep then rest.tail else rest)
    if rest.isEmpty && validDate year month day then some (ymdToOrd year month day) else none

/-- A fraction of a second, at least one digit, truncated to microseconds. -/
def parseFraction (cs : List Char) : Option Nat := do
  if cs.isEmpty || !(cs.all fun c => (digit? c).isSome) then none
  let kept := cs.take 6
  let v ← number? kept
  some (v * 10 ^ (6 - kept.length))

/-- `HH[:MM[:SS[.ffffff]]]`, with separators throughout or nowhere. -/
def parseTimeParts (cs : List Char) : Option (Nat × Nat × Nat × Nat) := do
  let (hour, rest) ← digits? 2 cs
  if rest.isEmpty then return (hour, 0, 0, 0)
  let hasSep := rest.head? == some ':'
  let (minute, rest) ← digits? 2 (if hasSep then rest.tail else rest)
  if rest.isEmpty then return (hour, minute, 0, 0)
  if hasSep && rest.head? != some ':' then none
  let (second, rest) ← digits? 2 (if hasSep then rest.tail else rest)
  match rest with
  | [] => return (hour, minute, second, 0)
  | c :: fraction =>
      if c = '.' ∨ c = ',' then return (hour, minute, second, ← parseFraction fraction)
      else none

/-- Microseconds since midnight. -/
def timeMicros (hour minute second micro : Nat) : Nat :=
  ((hour * 60 + minute) * 60 + second) * 1000000 + micro

/-- The offset part, after its sign character. -/
def parseOffset (sign : Char) (cs : List Char) : Option UtcOffset := do
  if sign = 'Z' then
    if cs.isEmpty then return UtcOffset.zero else none
  if cs.length = 0 ∨ cs.length = 1 ∨ cs.length = 3 then none
  let (h, m, s, f) ← parseTimeParts cs
  let n : Int := timeMicros h m s f
  UtcOffset.ofMicros? (if sign = '-' then -n else n)

/-- The time of day with its optional offset. -/
def parseTime (cs : List Char) : Option (Nat × Option UtcOffset) := do
  let isSign := fun c : Char => c == '+' || c == '-' || c == 'Z'
  let clock := cs.takeWhile fun c => !isSign c
  let (hour, minute, second, micro) ← parseTimeParts clock
  if hour > 23 ∨ minute > 59 ∨ second > 59 then none
  let offset ← match cs.drop clock.length with
    | [] => some none
    | sign :: rest => (parseOffset sign rest).map some
  some (timeMicros hour minute second micro, offset)

/-- Length of the date part: the position of the date/time separator. -/
def separatorIndex (cs : List Char) : Option Nat :=
  if cs.length < 7 then none
  else if cs.length = 7 then some 7
  else if cs[4]? == some '-' then
    if cs[5]? == some 'W' then
      if cs.length > 8 ∧ cs[8]? = some '-' then
        if cs.length = 9 then none
        -- `YYYY-Www-##`: the hyphen separates date from time
        else if ((cs[10]?).bind digit?).isSome then some 8
        else some 10
      else some 8
    else some 10
  else if cs[4]? == some 'W' then
    let idx := 7 + ((cs.drop 7).takeWhile fun c => (digit? c).isSome).length
    if idx < 9 then some idx else if idx % 2 = 0 then some 7 else some 8
  else some 8

/-- `fromisoformat`; `none` is the host's `ValueError`. -/
def fromisoformat (s : String) : Option DateTime := do
  let cs := s.toList
  let sep ← separatorIndex cs
  let ordinal ← parseDate (cs.take sep)
  let midnight ← Instant.ofOrdinal? ordinal
  -- one ASCII separator with nothing behind it is passed over
  if cs.length ≤ sep ∨ (cs.length = sep + 1 ∧ (cs[sep]?.all fun c => c.toNat < 128) = true) then
    return ⟨midnight, none⟩
  let (micros, offset) ← parseTime (cs.drop (sep + 1))
  let wall ← Instant.ofMicros? ((midnight.micros + micros : Nat) : Int)
  some ⟨wall, offset⟩

end DateTime

end CfdiVault
