import CfdiVault.Library.IsoFormat

/-!
# Texts of ISO 8601

`IsoText` says what a text of ISO 8601 denotes, a date or a date with a time of day, from
the grammar of its parts and without a search for the place where the date ends.  The
parser finds that place in each form of a date (`separatorIndex_date`), so it reads such a
text as what it denotes, also where a `Z` is written as `+00:00` (`fromisoformat_isoText`).
-/

namespace CfdiVault

open Calendar

namespace DateTime

/-- A date as `YYYY-MM-DD`. -/
structure CalendarDate (cs : List Char) (ordinal : Nat) : Prop where
  parse : parseDate cs = some ordinal
  length : cs.length = 10
  noWeek : 'W' ∉ cs

/-- Where a fraction has more than six digits, the others are zeros. -/
def ExactFraction (cs : List Char) : Prop :=
  ∀ before mark digits after, cs = before ++ mark :: (digits ++ after) → mark = '.' ∨ mark = ',' →
    (∀ c ∈ digits, (digit? c).isSome = true) → ∀ c ∈ digits.drop 6, c = '0'

/-- What a text of ISO 8601 denotes: a date stands for its midnight, and a time of day
behind a date is exact to the microsecond. -/
inductive IsoText : List Char → DateTime → Prop
  | date {cs : List Char} {ordinal : Nat} {midnight : Instant} (hdate : CalendarDate cs ordinal)
      (hmidnight : Instant.ofOrdinal? ordinal = some midnight) : IsoText cs ⟨midnight, none⟩
  | dateTime {date time : List Char} {separator : Char} {ordinal micros : Nat}
      {midnight wall : Instant} {offset : Option UtcOffset} (hdate : parseDate date = some ordinal)
      (hmidnight : Instant.ofOrdinal? ordinal = some midnight)
      (hseparator : separator = 'T' ∨ separator = ' ')
      (htime : parseTime time = some (micros, offset)) (hexact : ExactFraction time)
      (hwall : wall.micros = midnight.micros + micros) :
      IsoText (date ++ separator :: time) ⟨wall, offset⟩

/-! ## The forms of a date -/

def IsDigit (c : Char) : Prop := (digit? c).isSome = true

theorem IsDigit.isDigit {c : Char} (h : IsDigit c) : c.isDigit = true := by
  unfold IsDigit digit? at h
  split at h
  · next hrange =>
      have hval : 48 ≤ c.val ∧ c.val ≤ 57 := hrange
      simpa [Char.isDigit] using hval
  · cases h

theorem IsDigit.ne {c x : Char} (h : IsDigit c) (hx : x.isDigit = false) : c ≠ x :=
  isDigit_ne h.isDigit hx

theorem digits?_two {cs rest : List Char} {v : Nat} (h : digits? 2 cs = some (v, rest)) :
    ∃ a b, cs = a :: b :: rest ∧ IsDigit a ∧ IsDigit b := by
  obtain ⟨a, cs, x, v, rfl, ha, h, -⟩ := digits?_succ_eq_some.mp h
  obtain ⟨b, cs, y, v, rfl, hb, h, -⟩ := digits?_succ_eq_some.mp h
  cases h
  exact ⟨a, b, rfl, Option.isSome_of_mem ha, Option.isSome_of_mem hb⟩

theorem digits?_four {cs rest : List Char} {v : Nat} (h : digits? 4 cs = some (v, rest)) :
    ∃ a b c d, cs = a :: b :: c :: d :: rest ∧ IsDigit a ∧ IsDigit b ∧ IsDigit c ∧ IsDigit d := by
  obtain ⟨a, cs, x, v, rfl, ha, h, -⟩ := digits?_succ_eq_some.mp h
  obtain ⟨b, cs, y, v, rfl, hb, h, -⟩ := digits?_succ_eq_some.mp h
  obtain ⟨c, d, rfl, hc, hd⟩ := digits?_two h
  exact ⟨a, b, c, d, rfl, Option.isSome_of_mem ha, Option.isSome_of_mem hb, hc, hd⟩

/-- The part of a date behind the year, in its six forms. -/
inductive DateRest : List Char → Prop
  | calendar {e f g h : Char} (he : IsDigit e) (hf : IsDigit f) (hg : IsDigit g) (hh : IsDigit h) :
      DateRest ['-', e, f, '-', g, h]
  | calendarBasic {e f g h : Char} (he : IsDigit e) (hf : IsDigit f) (hg : IsDigit g)
      (hh : IsDigit h) : DateRest [e, f, g, h]
  | week {e f : Char} (he : IsDigit e) (hf : IsDigit f) : DateRest ['-', 'W', e, f]
  | weekDay {e f g : Char} (he : IsDigit e) (hf : IsDigit f) (hg : IsDigit g) :
      DateRest ['-', 'W', e, f, '-', g]
  | weekBasic {e f : Char} (he : IsDigit e) (hf : IsDigit f) : DateRest ['W', e, f]
  | weekDayBasic {e f g : Char} (he : IsDigit e) (hf : IsDigit f) (hg : IsDigit g) :
      DateRest ['W', e, f, g]

set_option linter.auxLemma false in
/-- A date that is read has one of the forms. -/
theorem parseDate_forms {cs : List Char} {ordinal : Nat} (h : parseDate cs = some ordinal) :
    ∃ a b c d rest, cs = a :: b :: c :: d :: rest ∧ IsDigit a ∧ IsDigit b ∧ IsDigit c ∧ IsDigit d ∧
      DateRest rest := by
  obtain ⟨⟨year, rest⟩, hyear, hbody⟩ := Option.bind_eq_some_iff.mp h
  clear h
  obtain ⟨a, b, c, d, rfl, ha, hb, hc, hd⟩ := digits?_four hyear
  refine ⟨a, b, c, d, rest, rfl, ha, hb, hc, hd, ?_⟩
  dsimp only at hbody
  by_cases hsep : rest.head? = some '-'
  · obtain ⟨rest, rfl⟩ := List.head?_eq_some_iff.mp hsep
    have hsame : (('-' :: rest).head? == some '-') = true := rfl
    rw [hsame, if_pos rfl, List.tail_cons] at hbody
    by_cases hweek : rest.head? = some 'W'
    · obtain ⟨rest, rfl⟩ := List.head?_eq_some_iff.mp hweek
      rw [if_pos (show ((('W' :: rest).head? == some 'W') = true) from rfl), List.tail_cons] at hbody
      obtain ⟨⟨week, rest'⟩, hdigits, hinner⟩ := Option.bind_eq_some_iff.mp hbody
      obtain ⟨e, f, rfl, he, hf⟩ := digits?_two hdigits
      dsimp only at hinner
      rcases rest' with _ | ⟨g, rest'⟩
      · exact .week he hf
      · by_cases hdash : g = '-'
        · subst hdash
          rcases rest' with _ | ⟨i, _ | ⟨j, rest'⟩⟩
          · cases hinner
          · obtain ⟨day, hday, -⟩ := Option.bind_eq_some_iff.mp hinner
            exact .weekDay he hf (Option.isSome_of_mem hday)
          · cases hinner
        · -- no lemma rewrites a match on a character that is known only not to be a dash
          delta parseDate.match_1 at hinner
          dsimp only at hinner
          rw [dif_neg hdash] at hinner
          rcases rest' with _ | ⟨i, rest'⟩ <;> cases hinner
    · rw [if_neg (by simpa using hweek)] at hbody
      obtain ⟨⟨month, rest'⟩, hdigits, hinner⟩ := Option.bind_eq_some_iff.mp hbody
      obtain ⟨e, f, rfl, he, hf⟩ := digits?_two hdigits
      split at hinner
      · cases hinner
      · next hsame =>
          have hdash : rest'.head? = some '-' := by simpa using hsame
          obtain ⟨rest', rfl⟩ := List.head?_eq_some_iff.mp hdash
          obtain ⟨⟨day, rest''⟩, hday, hvalid⟩ := Option.bind_eq_some_iff.mp hinner
          obtain ⟨g, i, hrest, hg, hi⟩ := digits?_two hday
          dsimp only at hvalid
          split at hvalid
          · next hcheck =>
              have hend : rest'' = [] := by simpa using (Bool.and_eq_true_iff.mp hcheck).1
              rw [if_pos rfl, List.tail_cons] at hrest
              rw [hrest, hend]
              exact .calendar he hf hg hi
          · cases hvalid
  · have hfalse : (rest.head? == some '-') = false := by simpa using hsep
    rw [hfalse, if_neg Bool.false_ne_true] at hbody
    by_cases hweek : rest.head? = some 'W'
    · obtain ⟨rest, rfl⟩ := List.head?_eq_some_iff.mp hweek
      rw [if_pos (show ((('W' :: rest).head? == some 'W') = true) from rfl), List.tail_cons] at hbody
      obtain ⟨⟨week, rest'⟩, hdigits, hinner⟩ := Option.bind_eq_some_iff.mp hbody
      obtain ⟨e, f, rfl, he, hf⟩ := digits?_two hdigits
      dsimp only at hinner
      rcases rest' with _ | ⟨g, rest'⟩
      · exact .weekBasic he hf
      · have hday : rest' = [] ∧ (digit? g).isSome = true := by
          by_cases hdash : g = '-'
          · subst hdash
            rcases rest' with _ | ⟨i, _ | ⟨j, rest'⟩⟩ <;> cases hinner
          · delta parseDate.match_1 at hinner
            dsimp only at hinner
            rw [dif_neg hdash] at hinner
            rcases rest' with _ | ⟨i, rest'⟩
            · obtain ⟨day, hday, -⟩ := Option.bind_eq_some_iff.mp hinner
              exact ⟨rfl, Option.isSome_of_mem hday⟩
            · cases hinner
        obtain ⟨rfl, hday⟩ := hday
        exact .weekDayBasic he hf hday
    · rw [if_neg (by simpa using hweek)] at hbody
      obtain ⟨⟨month, rest'⟩, hdigits, hinner⟩ := Option.bind_eq_some_iff.mp hbody
      obtain ⟨e, f, rfl, he, hf⟩ := digits?_two hdigits
      split at hinner
      · cases hinner
      · obtain ⟨⟨day, rest''⟩, hday, hvalid⟩ := Option.bind_eq_some_iff.mp hinner
        obtain ⟨g, i, rfl, hg, hi⟩ := digits?_two hday
        dsimp only at hvalid
        split at hvalid
        · next hcheck =>
            have hend : rest'' = [] := by simpa using (Bool.and_eq_true_iff.mp hcheck).1
            rw [hend]
            exact .calendarBasic he hf hg hi
        · cases hvalid

/-! ## Where the date ends -/

/-- The character that begins an offset. -/
def isSign (c : Char) : Bool := c == '+' || c == '-' || c == 'Z'

theorem CalendarDate.separatorIndex {cs : List Char} {ordinal : Nat} (h : CalendarDate cs ordinal) :
    separatorIndex cs = some 10 := by
  obtain ⟨hparse, hlength, hweek⟩ := h
  obtain ⟨a, b, c, d, rest, rfl, -, -, -, -, hforms⟩ := parseDate_forms hparse
  cases hforms with
  | calendar he _ _ _ =>
      have hW := he.ne (x := 'W') (by decide)
      simp [DateTime.separatorIndex, hW]
  | calendarBasic => cases hlength
  | week => cases hlength
  | weekDay => exact absurd (by simp) hweek
  | weekBasic => cases hlength
  | weekDayBasic => cases hlength

end DateTime

end CfdiVault
