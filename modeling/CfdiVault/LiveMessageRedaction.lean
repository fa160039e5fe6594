import Mathlib.Data.List.Find
import CfdiVault.Library.Substitution
import CfdiVault.LiveRequestState

/-!
# Redaction of stored messages

`_safe_message` replaces what looks like an identifier before a message of SAT is stored: runs of
16 to 122 hexadecimal digits and dashes between word boundaries.  A UUID has no such run around it
when a letter or an underscore stands on both of its sides, or when the digits beside it make the
run too long.  `stored_message_iff` says that this is the only way for a UUID to be stored, and
that in it every UUID in the first 256 characters of the text is.
-/

namespace CfdiVault

open LiveRequestState

namespace MessageRedaction

variable {rt : Runtime} {cs front mid digits rest : List Char} {n : Nat} {c : Char}

/-- What the redaction needs of the classification of characters: a hexadecimal digit is
alphanumeric, a dash is not. -/
structure HexWords (rt : Runtime) : Prop where
  hex : ∀ c, isHexDigit c = true → rt.alnum c = true
  dash : rt.alnum '-' = false

/-- A character of an identifier. -/
def isIdentifierChar (c : Char) : Bool := isHexDigit c || c == '-'

theorem HexWords.word (h : HexWords rt) (hc : isHexDigit c = true) : isWordChar rt c = true := by
  rw [isWordChar, h.hex c hc, Bool.or_true]

theorem HexWords.dash_not_word (h : HexWords rt) : isWordChar rt '-' = false := by
  rw [isWordChar, h.dash]
  decide

/-- A word character of an identifier is a digit. -/
theorem HexWords.hex_of_word (h : HexWords rt) (hc : isIdentifierChar c = true)
    (hword : isWordChar rt c = true) : isHexDigit c = true := by
  rcases Bool.or_eq_true_iff.mp hc with hhex | hdash
  · exact hhex
  · rw [eq_of_beq hdash, h.dash_not_word] at hword
    cases hword

theorem isIdentifierChar_of_hex (h : isHexDigit c = true) : isIdentifierChar c = true := by
  rw [isIdentifierChar, h, Bool.true_or]

/-! ## Matches of the pattern -/

/-- The first `n` characters match the pattern of identifiers. -/
structure Matched (rt : Runtime) (n : Nat) (cs : List Char) : Prop where
  least : 16 ≤ n
  most : n ≤ 122
  le : n ≤ cs.length
  chars : ∀ c ∈ cs.take n, isIdentifierChar c = true
  head : ∃ c, cs.head? = some c ∧ isHexDigit c = true
  last : ∃ c, cs[n - 1]? = some c ∧ isHexDigit c = true
  boundary : ∀ c, cs[n]? = some c → isWordChar rt c = false

/-- The test of one length in `identifierLength`. -/
def matchesAt (rt : Runtime) (cs : List Char) (n : Nat) : Bool :=
  let found := cs.take n
  found.length == n && found.all (fun c => isHexDigit c || c == '-') &&
    (found.head?.map isHexDigit).getD false && (found.getLast?.map isHexDigit).getD false &&
    !((cs[n]?.map (isWordChar rt)).getD false)

theorem map_getD_eq_true {p : Char → Bool} {o : Option Char} :
    (o.map p).getD false = true ↔ ∃ c, o = some c ∧ p c = true := by
  cases o <;> simp

theorem map_getD_eq_false {p : Char → Bool} {o : Option Char} :
    (o.map p).getD false = false ↔ ∀ c, o = some c → p c = false := by
  cases o <;> simp

theorem matchesAt_iff (hleast : 16 ≤ n) (hmost : n ≤ 122) : matchesAt rt cs n = true ↔ Matched rt n cs := by
  have hhead : 0 < n → (cs.take n).head? = cs.head? := fun hn => by
    rw [List.head?_take, if_neg (by omega)]
  have hlast : n ≤ cs.length → (cs.take n).getLast? = cs[n - 1]? := fun hle => by
    rw [List.getLast?_eq_getElem?, List.length_take, Nat.min_eq_left hle, List.getElem?_take,
      if_pos (by omega)]
  simp only [matchesAt, Bool.and_eq_true, beq_iff_eq, List.length_take, List.all_eq_true,
    Bool.not_eq_true', map_getD_eq_true, map_getD_eq_false, min_eq_left_iff]
  constructor
  · rintro ⟨⟨⟨⟨hle, hchars⟩, hfirst⟩, hfinal⟩, hboundary⟩
    rw [hhead (by omega)] at hfirst
    rw [hlast hle] at hfinal
    exact ⟨hleast, hmost, hle, hchars, hfirst, hfinal, hboundary⟩
  · intro h
    refine ⟨⟨⟨⟨h.le, h.chars⟩, ?_⟩, ?_⟩, h.boundary⟩
    · rw [hhead (by omega)]
      exact h.head
    · rw [hlast h.le]
      exact h.last

/-- The lengths that are tried, the longest first. -/
theorem mem_lengths : n ∈ (List.range 107).map (122 - ·) ↔ 16 ≤ n ∧ n ≤ 122 := by
  rw [List.mem_map]
  constructor
  · rintro ⟨k, hk, rfl⟩
    have := List.mem_range.mp hk
    omega
  · rintro ⟨hleast, hmost⟩
    exact ⟨122 - n, List.mem_range.mpr (by omega), by omega⟩

theorem matched_of_identifierLength (h : identifierLength rt cs = some n) : Matched rt n cs := by
  rw [identifierLength] at h
  have hn := mem_lengths.mp (List.mem_of_find?_eq_some h)
  exact (matchesAt_iff hn.1 hn.2).mp (List.find?_some h)

theorem identifierLength_eq_none_iff : identifierLength rt cs = none ↔ ∀ n, ¬ Matched rt n cs := by
  rw [identifierLength, List.find?_eq_none]
  constructor
  · intro h n hn
    exact h n (mem_lengths.mpr ⟨hn.least, hn.most⟩) ((matchesAt_iff hn.least hn.most).mpr hn)
  · intro h n hn hmatches
    have hbounds := mem_lengths.mp hn
    exact h n ((matchesAt_iff hbounds.1 hbounds.2).mp hmatches)

/-- Texts with the same matches have the same match. -/
theorem identifierLength_congr {cs' : List Char} (h : ∀ n, Matched rt n cs ↔ Matched rt n cs') :
    identifierLength rt cs = identifierLength rt cs' := by
  rw [identifierLength, identifierLength]
  refine List.find?_congr fun n hn => ?_
  have hbounds := mem_lengths.mp hn
  have hmatches := (matchesAt_iff hbounds.1 hbounds.2).trans ((h n).trans
    (matchesAt_iff hbounds.1 hbounds.2).symm)
  exact Bool.eq_iff_iff.mpr hmatches

theorem wordMatches (hh : HexWords rt) : Text.WordMatches (isWordChar rt) (identifierLength rt) where
  pos s n h := by
    have := (matched_of_identifierLength h).least
    omega
  le s n h := (matched_of_identifierLength h).le
  endsInWord s n h := by
    obtain ⟨c, hlast, hhex⟩ := (matched_of_identifierLength h).last
    exact ⟨c, hlast, hh.word hhex⟩
  atBoundary s n c h hc := (matched_of_identifierLength h).boundary c hc

/-- Identifier characters that begin and end with a digit. -/
structure Framed (front : List Char) : Prop where
  chars : ∀ c ∈ front, isIdentifierChar c = true
  head : ∃ c, front.head? = some c ∧ isHexDigit c = true
  last : ∃ c, front.getLast? = some c ∧ isHexDigit c = true

theorem framed_digits (hdigits : ∀ c ∈ digits, isHexDigit c = true) (hne : digits ≠ []) : Framed digits where
  chars c hc := isIdentifierChar_of_hex (hdigits c hc)
  head := ⟨_, List.head?_eq_some_head hne, hdigits _ (List.head_mem hne)⟩
  last := ⟨_, List.getLast?_eq_some_getLast hne, hdigits _ (List.getLast_mem hne)⟩

/-- Framed texts with identifier characters between them. -/
theorem Framed.append (h : Framed front) (hmid : ∀ c ∈ mid, isIdentifierChar c = true) (h' : Framed digits) :
    Framed (front ++ (mid ++ digits)) where
  chars := List.forall_mem_append.mpr ⟨h.chars, List.forall_mem_append.mpr ⟨hmid, h'.chars⟩⟩
  head := by
    obtain ⟨c, hc, hhex⟩ := h.head
    exact ⟨c, by rw [List.head?_append, hc]; rfl, hhex⟩
  last := by
    obtain ⟨c, hc, hhex⟩ := h'.last
    exact ⟨c, by rw [List.getLast?_append, List.getLast?_append, hc]; rfl, hhex⟩

/-- A framed front of a length in the window, with no word character behind it, matches. -/
theorem matched_front (h : Framed front) (hleast : 16 ≤ front.length) (hmost : front.length ≤ 122)
    (hrest : ∀ c, rest.head? = some c → isWordChar rt c = false) :
    Matched rt front.length (front ++ rest) where
  least := hleast
  most := hmost
  le := by rw [List.length_append]; omega
  chars := by rw [List.take_left]; exact h.chars
  head := by
    obtain ⟨c, hc, hhex⟩ := h.head
    exact ⟨c, by rw [List.head?_append, hc]; rfl, hhex⟩
  last := by
    rw [List.getElem?_append_left (by omega), ← List.getLast?_eq_getElem?]
    exact h.last
  boundary c hc := by
    rw [List.getElem?_append_right (Nat.le_refl _), Nat.sub_self, ← List.head?_eq_getElem?] at hc
    exact hrest c hc

theorem identifierLength_ne_none (h : Framed front) (hleast : 16 ≤ front.length) (hmost : front.length ≤ 122)
    (hrest : ∀ c, rest.head? = some c → isWordChar rt c = false) :
    identifierLength rt (front ++ rest) ≠ none :=
  fun hnone => identifierLength_eq_none_iff.mp hnone _ (matched_front h hleast hmost hrest)

/-- A match that ends before the end of `cs` does not depend on what follows. -/
theorem matched_append_iff (h : n < cs.length) : Matched rt n (cs ++ rest) ↔ Matched rt n cs := by
  have hne : cs ≠ [] := List.ne_nil_of_length_pos (by omega)
  have htake : (cs ++ rest).take n = cs.take n := List.take_append_of_le_length (by omega)
  have hhead : (cs ++ rest).head? = cs.head? := List.head?_append_of_ne_nil _ hne
  have hlast : (cs ++ rest)[n - 1]? = cs[n - 1]? := List.getElem?_append_left (by omega)
  have hnext : (cs ++ rest)[n]? = cs[n]? := List.getElem?_append_left h
  constructor
  · rintro ⟨hleast, hmost, -, hchars, hfirst, hfinal, hboundary⟩
    rw [htake] at hchars
    rw [hhead] at hfirst
    rw [hlast] at hfinal
    rw [hnext] at hboundary
    exact ⟨hleast, hmost, by omega, hchars, hfirst, hfinal, hboundary⟩
  · rintro ⟨hleast, hmost, -, hchars, hfirst, hfinal, hboundary⟩
    refine ⟨hleast, hmost, by rw [List.length_append]; omega, ?_, ?_, ?_, ?_⟩
    · rwa [htake]
    · rwa [hhead]
    · rwa [hlast]
    · rwa [hnext]

/-- A match that goes into a run of digits takes all of it. -/
theorem Matched.passes (hh : HexWords rt) (h : Matched rt n (front ++ (digits ++ rest)))
    (hdigits : ∀ c ∈ digits, isHexDigit c = true) (hfront : front.length < n) :
    front.length + digits.length ≤ n := by
  by_contra hinside
  have hindex : n - front.length < digits.length := by omega
  have hnext : (front ++ (digits ++ rest))[n]? = some digits[n - front.length] := by
    rw [List.getElem?_append_right (by omega), List.getElem?_append_left hindex,
      List.getElem?_eq_getElem hindex]
  have hword := hh.word (hdigits _ (List.getElem_mem hindex))
  rw [h.boundary _ hnext] at hword
  cases hword

/-- No match begins fewer than 16 characters in front of a run of digits that a letter ends, or
that is too long. -/
theorem identifierLength_of_blocked (hh : HexWords rt) (hdigits : ∀ c ∈ digits, isHexDigit c = true)
    (hmid : mid.length ≤ 15)
    (hblocked : (∃ c, rest.head? = some c ∧ isHexDigit c = false ∧ isWordChar rt c = true) ∨
      122 < mid.length + digits.length) :
    identifierLength rt (mid ++ (digits ++ rest)) = none := by
  rw [identifierLength_eq_none_iff]
  intro n h
  have hleast := h.least
  have hmost := h.most
  have hpasses := h.passes hh hdigits (by omega)
  rcases hblocked with ⟨c, hc, hhex, hword⟩ | hlong
  · have hnext : (mid ++ (digits ++ rest))[mid.length + digits.length]? = some c := by
      rw [List.getElem?_append_right (by omega), List.getElem?_append_right (by omega),
        ← hc, List.head?_eq_getElem?]
      congr 1
      omega
    rcases Nat.eq_or_lt_of_le hpasses with heq | hlt
    · rw [heq] at hnext
      rw [h.boundary c hnext] at hword
      cases hword
    · have hmem : c ∈ (mid ++ (digits ++ rest)).take n := by
        refine List.mem_of_getElem? (i := mid.length + digits.length) ?_
        rw [List.getElem?_take, if_pos hlt, hnext]
      rw [hh.hex_of_word (h.chars c hmem) hword] at hhex
      cases hhex
  · omega

/-! ## Identifiers -/

/-- A UUID: hexadecimal digits in groups of 8, 4, 4, 4 and 12. -/
structure Uuid where
  first : List Char
  second : List Char
  third : List Char
  fourth : List Char
  last : List Char
  lengths : first.length = 8 ∧ second.length = 4 ∧ third.length = 4 ∧ fourth.length = 4 ∧ last.length = 12
  hex : ∀ group ∈ [first, second, third, fourth, last], ∀ c ∈ group, isHexDigit c = true

namespace Uuid

/-- What stands before the last group. -/
def groups (u : Uuid) : List Char :=
  u.first ++ '-' :: (u.second ++ '-' :: (u.third ++ '-' :: (u.fourth ++ ['-'])))

/-- The text of a UUID. -/
def text (u : Uuid) : List Char :=
  u.first ++ '-' :: (u.second ++ '-' :: (u.third ++ '-' :: (u.fourth ++ '-' :: u.last)))

variable (u : Uuid)

theorem first_hex : ∀ c ∈ u.first, isHexDigit c = true := u.hex _ (by simp)

theorem second_hex : ∀ c ∈ u.second, isHexDigit c = true := u.hex _ (by simp)

theorem third_hex : ∀ c ∈ u.third, isHexDigit c = true := u.hex _ (by simp)

theorem fourth_hex : ∀ c ∈ u.fourth, isHexDigit c = true := u.hex _ (by simp)

theorem last_hex : ∀ c ∈ u.last, isHexDigit c = true := u.hex _ (by simp)

theorem text_eq : u.text = u.groups ++ u.last := by
  simp only [text, groups, List.append_assoc, List.cons_append, List.nil_append]

theorem length_text : u.text.length = 36 := by
  obtain ⟨hfirst, hsecond, hthird, hfourth, hlast⟩ := u.lengths
  simp only [text, List.length_append, List.length_cons, hfirst, hsecond, hthird, hfourth, hlast]

theorem groups_chars : ∀ c ∈ u.groups, isIdentifierChar c = true := by
  intro c hc
  simp only [groups, List.mem_append, List.mem_cons, List.not_mem_nil, or_false] at hc
  have hdash : isIdentifierChar '-' = true := by decide
  rcases hc with h | rfl | h | rfl | h | rfl | h | rfl
  · exact isIdentifierChar_of_hex (u.first_hex c h)
  · exact hdash
  · exact isIdentifierChar_of_hex (u.second_hex c h)
  · exact hdash
  · exact isIdentifierChar_of_hex (u.third_hex c h)
  · exact hdash
  · exact isIdentifierChar_of_hex (u.fourth_hex c h)
  · exact hdash

theorem text_chars : ∀ c ∈ u.text, isIdentifierChar c = true := by
  intro c hc
  rw [text_eq, List.mem_append] at hc
  rcases hc with h | h
  · exact u.groups_chars c h
  · exact isIdentifierChar_of_hex (u.last_hex c h)

end Uuid

/-! ## Where a UUID is kept -/

/-- The length of what is written for a text, computed from the matches in it: each leaves its
first and last four characters around three dots. -/
def redactedLength (rt : Runtime) (text : List Char) : Nat :=
  text.length - ((Text.foundLengths (isWordChar rt) (identifierLength rt) false 0 text).map (· - 11)).sum

/-- A UUID stands between two runs of digits, and `base` and `rest` stand around these.  On each
side there is a letter or an underscore, or the digits make every match of the pattern too long.
What is written of it lies in the first 256 characters. -/
structure ExposedAt (rt : Runtime) (text : List Char) (u : Uuid) (base run followers rest : List Char) :
    Prop where
  text_eq : text = base ++ (run ++ u.text ++ (followers ++ rest))
  run_hex : ∀ c ∈ run, isHexDigit c = true
  followers_hex : ∀ c ∈ followers, isHexDigit c = true
  base_end : ∀ c, base.getLast? = some c → isHexDigit c = false
  rest_start : ∀ c, rest.head? = some c → isHexDigit c = false
  left : (∃ c, base.getLast? = some c ∧ isWordChar rt c = true) ∨ 114 < run.length
  right : (∃ c, rest.head? = some c ∧ isWordChar rt c = true) ∨ 110 < followers.length
  fits : redactedLength rt base + run.length + 36 ≤ 256

/-- Some UUID of the text is exposed. -/
def Exposed (rt : Runtime) (text : List Char) : Prop :=
  ∃ u base run followers rest, ExposedAt rt text u base run followers rest

variable {u : Uuid} {text base run followers : List Char} {afterWord : Bool}

/-- What `_safe_message` writes of a cleaned text, before it is cut. -/
def redacted (rt : Runtime) (afterWord : Bool) (text : List Char) : List Char :=
  Text.substitute (isWordChar rt) (identifierLength rt) redactIdentifier afterWord 0 text

/-- What a match is replaced by. -/
theorem redactIdentifier_toList (h : 16 ≤ digits.length) :
    (redactIdentifier (String.ofList digits)).toList =
      digits.take 4 ++ '.' :: '.' :: '.' :: digits.drop (digits.length - 4) := by
  have hlength : (String.ofList digits).length = digits.length := by
    rw [← String.length_toList, String.toList_ofList]
  have hne : String.ofList digits ≠ "" := fun hempty => by
    rw [hempty] at hlength
    have : ("" : String).length = 0 := rfl
    omega
  rw [redactIdentifier, if_neg hne, if_neg (by omega)]
  simp only [Text.takeChars, Text.takeLast, String.toList_append, String.toList_ofList, List.append_assoc]
  rfl

theorem length_replacement (h : 16 ≤ digits.length) :
    (redactIdentifier (String.ofList digits)).toList.length = 11 := by
  rw [redactIdentifier_toList h, List.length_append, List.length_take, List.length_cons, List.length_cons,
    List.length_cons, List.length_drop]
  omega

theorem length_redacted (hh : HexWords rt) : (redacted rt false text).length = redactedLength rt text := by
  have hwidth : ∀ s n, identifierLength rt s = some n →
      11 ≤ n ∧ (redactIdentifier (String.ofList (s.take n))).toList.length = 11 := by
    intro s n h
    have hm := matched_of_identifierLength h
    have hleast := hm.least
    have htake : (s.take n).length = n := by rw [List.length_take, Nat.min_eq_left hm.le]
    exact ⟨by omega, length_replacement (by omega)⟩
  have hlength := @Text.length_substitute _ _ _ false text (wordMatches hh) 11 0 hwidth (Nat.zero_le _)
  rw [redactedLength]
  exact Nat.eq_sub_of_add_eq hlength

/-- The characters of `front` are written as they are, with `rest` behind it. -/
abbrev Spared (rt : Runtime) (afterWord : Bool) (front rest : List Char) : Prop :=
  Text.Kept (isWordChar rt) (identifierLength rt) afterWord front rest

theorem lastWord_digits (hh : HexWords rt) (hdigits : ∀ c ∈ digits, isHexDigit c = true) (hne : digits ≠ []) :
    Text.lastWord (isWordChar rt) afterWord digits = true := by
  rw [Text.lastWord, List.getLast?_eq_some_getLast hne, Option.map_some, Option.getD_some]
  exact hh.word (hdigits _ (List.getLast_mem hne))

/-- Digits are kept if no match begins at the first of them. -/
theorem spared_digits_iff (hh : HexWords rt) (hdigits : ∀ c ∈ digits, isHexDigit c = true) (hne : digits ≠ []) :
    Spared rt afterWord (digits ++ mid) rest ↔
      (afterWord = true ∨ identifierLength rt (digits ++ (mid ++ rest)) = none) ∧ Spared rt true mid rest := by
  rw [Spared, Text.kept_append, lastWord_digits hh hdigits hne]
  refine and_congr_left fun _ => ?_
  cases digits with
  | nil => exact absurd rfl hne
  | cons c digits =>
      refine ⟨And.left, fun hstart => ⟨hstart, Text.kept_of_words (fun d hd => ?_) ?_⟩⟩
      · exact hh.word (hdigits d (List.mem_cons_of_mem c hd))
      · exact hh.word (hdigits c (List.mem_cons_self ..))

/-- The dash behind a digit is kept. -/
theorem spared_dash_iff (hh : HexWords rt) (hdigits : ∀ c ∈ digits, isHexDigit c = true) (hne : digits ≠ []) :
    Spared rt true ('-' :: (digits ++ mid)) rest ↔
      identifierLength rt (digits ++ (mid ++ rest)) = none ∧ Spared rt true mid rest := by
  refine (and_iff_right (.inl rfl)).trans ?_
  rw [hh.dash_not_word]
  exact (spared_digits_iff hh hdigits hne).trans (and_congr_left fun _ => or_iff_right Bool.false_ne_true)

/-- A UUID behind digits is kept if no match begins at the first of the digits or at the start of
a later group. -/
theorem spared_text_iff (hh : HexWords rt) (hrun : ∀ c ∈ run, isHexDigit c = true) :
    Spared rt afterWord (run ++ u.text) rest ↔
      (afterWord = true ∨ identifierLength rt (run ++ (u.text ++ rest)) = none) ∧
      identifierLength rt (u.second ++ ('-' :: (u.third ++ '-' :: (u.fourth ++ '-' :: u.last)) ++ rest)) = none ∧
      identifierLength rt (u.third ++ ('-' :: (u.fourth ++ '-' :: u.last) ++ rest)) = none ∧
      identifierLength rt (u.fourth ++ ('-' :: u.last ++ rest)) = none ∧
      identifierLength rt (u.last ++ rest) = none := by
  obtain ⟨hfirst, hsecond, hthird, hfourth, hlast⟩ := u.lengths
  have hne : ∀ group : List Char, 0 < group.length → group ≠ [] := fun _ => List.ne_nil_of_length_pos
  have hstart := List.forall_mem_append.mpr ⟨hrun, u.first_hex⟩
  have hnil : Spared rt true ('-' :: u.last) rest ↔ identifierLength rt (u.last ++ rest) = none := by
    have h := @spared_dash_iff rt [] u.last rest hh u.last_hex (hne _ (by omega))
    rw [List.append_nil, List.nil_append] at h
    rw [h]
    exact and_iff_left trivial
  rw [Uuid.text, ← List.append_assoc,
    spared_digits_iff hh hstart (hne _ (by rw [List.length_append]; omega)),
    spared_dash_iff hh u.second_hex (hne _ (by omega)), spared_dash_iff hh u.third_hex (hne _ (by omega)),
    spared_dash_iff hh u.fourth_hex (hne _ (by omega)), hnil]
  simp only [List.append_assoc]

/-- Between letters, or among enough digits, a UUID is kept. -/
theorem ExposedAt.spared (hh : HexWords rt) (h : ExposedAt rt text u base run followers rest) :
    Spared rt (Text.lastWord (isWordChar rt) false base) (run ++ u.text) (followers ++ rest) := by
  obtain ⟨hfirst, hsecond, hthird, hfourth, hlast⟩ := u.lengths
  -- every later group stands at most 15 characters in front of the last digits
  have hdigits := List.forall_mem_append.mpr ⟨u.last_hex, h.followers_hex⟩
  have hblocked : ∀ mid : List Char, mid.length ≤ 15 →
      identifierLength rt (mid ++ (u.last ++ (followers ++ rest))) = none := by
    intro mid hmid
    rw [← List.append_assoc u.last]
    refine identifierLength_of_blocked hh hdigits hmid ?_
    rcases h.right with ⟨c, hc, hword⟩ | hlong
    · exact .inl ⟨c, hc, h.rest_start c hc, hword⟩
    · rw [List.length_append]
      exact .inr (by omega)
  rw [spared_text_iff hh h.run_hex]
  refine ⟨?_, ?_, ?_, ?_, hblocked [] (Nat.zero_le _)⟩
  · rcases h.left with ⟨c, hc, hword⟩ | hlong
    · refine .inl ?_
      rw [Text.lastWord, hc]
      exact hword
    · have hstart := List.forall_mem_append.mpr ⟨h.run_hex, u.first_hex⟩
      have hnone := @identifierLength_of_blocked rt [] (run ++ u.first) ('-' :: (u.second ++ '-' ::
        (u.third ++ '-' :: (u.fourth ++ '-' :: u.last))) ++ (followers ++ rest)) hh hstart (Nat.zero_le _)
        (.inr (by rw [List.length_nil, List.length_append]; omega))
      refine .inr ?_
      rw [Uuid.text]
      simpa only [List.append_assoc, List.cons_append, List.nil_append] using hnone
  · have := hblocked (u.second ++ '-' :: (u.third ++ '-' :: (u.fourth ++ ['-']))) (by
      simp only [List.length_append, List.length_cons, List.length_nil]; omega)
    simpa only [List.append_assoc, List.cons_append, List.nil_append] using this
  · have := hblocked (u.third ++ '-' :: (u.fourth ++ ['-'])) (by
      simp only [List.length_append, List.length_cons, List.length_nil]; omega)
    simpa only [List.append_assoc, List.cons_append, List.nil_append] using this
  · have := hblocked (u.fourth ++ ['-']) (by
      simp only [List.length_append, List.length_cons, List.length_nil]; omega)
    simpa only [List.append_assoc, List.cons_append, List.nil_append] using this

/-- No match goes from a text into the digits behind it, if the text ends in a letter or there are
too many digits. -/
theorem matched_before_digits (hh : HexWords rt) (hne : cs ≠ [])
    (hend : ∀ c, cs.getLast? = some c → isHexDigit c = false)
    (hdigits : ∀ c ∈ digits, isHexDigit c = true)
    (hleft : (∃ c, cs.getLast? = some c ∧ isWordChar rt c = true) ∨ 122 < digits.length) :
    Matched rt n (cs ++ (digits ++ rest)) ↔ Matched rt n cs := by
  have hpos := List.length_pos_iff.mpr hne
  by_cases hinside : n < cs.length
  · exact matched_append_iff hinside
  · refine iff_of_false (fun h => ?_) (fun h => ?_)
    · rcases Nat.eq_or_lt_of_le (Nat.le_of_not_lt hinside) with rfl | hpast
      · obtain ⟨c, hc, hhex⟩ := h.last
        rw [List.getElem?_append_left (by omega), ← List.getLast?_eq_getElem?] at hc
        rw [hend c hc] at hhex
        cases hhex
      · rcases hleft with ⟨c, hc, hword⟩ | hlong
        · have hmem : c ∈ (cs ++ (digits ++ rest)).take n := by
            rw [List.take_append, List.take_of_length_le (by omega)]
            exact List.mem_append_left _ (List.mem_of_getLast? hc)
          have hhex := hh.hex_of_word (h.chars c hmem) hword
          rw [hend c hc] at hhex
          cases hhex
        · have hpasses := h.passes hh hdigits hpast
          have hmost := h.most
          omega
    · obtain ⟨c, hc, hhex⟩ := h.last
      have hlength : n = cs.length := Nat.le_antisymm h.le (Nat.le_of_not_lt hinside)
      rw [hlength, ← List.getLast?_eq_getElem?] at hc
      rw [hend c hc] at hhex
      cases hhex

/-- What stands in front of such digits is written for itself. -/
theorem redacted_before_digits (hh : HexWords rt)
    (hend : ∀ c, base.getLast? = some c → isHexDigit c = false)
    (hdigits : ∀ c ∈ digits, isHexDigit c = true)
    (hleft : (∃ c, base.getLast? = some c ∧ isWordChar rt c = true) ∨ 122 < digits.length) :
    redacted rt afterWord (base ++ (digits ++ rest)) =
      redacted rt afterWord base ++ redacted rt (Text.lastWord (isWordChar rt) afterWord base) (digits ++ rest) := by
  refine Text.substitute_append (wordMatches hh) (fun s hne hs => ?_) (Nat.zero_le _)
  have hlast : s.getLast? = base.getLast? := by
    obtain ⟨before, rfl⟩ := hs
    rw [List.getLast?_append_of_ne_nil _ hne]
  rw [← hlast] at hleft
  exact identifierLength_congr fun n =>
    matched_before_digits hh hne (fun c hc => hend c (hlast ▸ hc)) hdigits hleft

/-- The same with the digits in front of a UUID and its first group. -/
theorem redacted_before_uuid (hh : HexWords rt) (hrun : ∀ c ∈ run, isHexDigit c = true)
    (hend : ∀ c, base.getLast? = some c → isHexDigit c = false)
    (hleft : (∃ c, base.getLast? = some c ∧ isWordChar rt c = true) ∨ 114 < run.length) :
    redacted rt afterWord (base ++ (run ++ u.text ++ rest)) = redacted rt afterWord base ++
      redacted rt (Text.lastWord (isWordChar rt) afterWord base) (run ++ u.text ++ rest) := by
  have hfirst := u.lengths.1
  have hshape : run ++ u.text ++ rest = (run ++ u.first) ++ ('-' :: (u.second ++ '-' ::
      (u.third ++ '-' :: (u.fourth ++ '-' :: u.last))) ++ rest) := by
    simp only [Uuid.text, List.append_assoc]
  rw [hshape]
  refine redacted_before_digits hh hend (List.forall_mem_append.mpr ⟨hrun, u.first_hex⟩) ?_
  refine hleft.imp_right fun hlong => ?_
  rw [List.length_append]
  omega

/-- An exposed UUID is written behind its base and the digits in front of it. -/
theorem ExposedAt.written (hh : HexWords rt) (h : ExposedAt rt text u base run followers rest) :
    ∃ written, redacted rt false text = redacted rt false base ++ (run ++ u.text) ++ written := by
  have hkept : redacted rt (Text.lastWord (isWordChar rt) false base) (run ++ u.text ++ (followers ++ rest)) = _ :=
    (h.spared hh).substitute
  rw [h.text_eq, redacted_before_uuid hh h.run_hex h.base_end h.left, hkept, ← List.append_assoc]
  exact ⟨_, rfl⟩

/-! ## Where a written UUID comes from -/

/-- Four characters into a replacement there are dots. -/
theorem dot_in_replacement (h : 16 ≤ digits.length) {k : Nat} (hk : 4 ≤ k ∧ k ≤ 6) (written : List Char) :
    ((redactIdentifier (String.ofList digits)).toList ++ written)[k]? = some '.' := by
  have htake : (digits.take 4).length = 4 := by rw [List.length_take]; omega
  rw [redactIdentifier_toList h, List.append_assoc, List.getElem?_append_right (by omega), htake]
  obtain rfl | rfl | rfl : k = 4 ∨ k = 5 ∨ k = 6 := by omega
  all_goals rfl

/-- A replacement does not begin with five characters of an identifier. -/
theorem replacement_ne {found left written : List Char} (hfound : 16 ≤ found.length)
    (hfront : ∀ c ∈ front, isIdentifierChar c = true) (hlong : 5 ≤ front.length) :
    (redactIdentifier (String.ofList found)).toList ++ left ≠ front ++ written := by
  intro heq
  have hdot := dot_in_replacement hfound ⟨Nat.le_refl 4, by omega⟩ left
  rw [heq, List.getElem?_append_left (by omega)] at hdot
  exact absurd (hfront '.' (List.mem_of_getElem? hdot)) (by decide)

/-- Identifier characters that are written first, five digits last, were read first and kept. -/
theorem spared_of_written (hh : HexWords rt) {written : List Char}
    (hfront : ∀ c ∈ front, isIdentifierChar c = true) (hdigits : ∀ c ∈ digits, isHexDigit c = true)
    (hlong : 5 ≤ digits.length) (h : redacted rt afterWord text = front ++ digits ++ written) :
    ∃ rest, text = front ++ digits ++ rest ∧ Spared rt afterWord (front ++ digits) rest := by
  have hm := wordMatches hh
  have hdigitChars := fun c hc => isIdentifierChar_of_hex (hdigits c hc)
  induction front generalizing afterWord text with
  | nil =>
      obtain ⟨c, digits, rfl⟩ := List.exists_cons_of_length_pos (by omega : 0 < digits.length)
      rcases Text.written_cons hm h with ⟨rest, rfl, hkeep, hrest⟩ | ⟨-, found, rest, -, -, hfound, heq⟩
      · have hword := hh.word (hdigits c (List.mem_cons_self ..))
        have hwords : ∀ d ∈ digits, isWordChar rt d = true :=
          fun d hd => hh.word (hdigits d (List.mem_cons_of_mem c hd))
        rw [hword] at hrest
        obtain ⟨rest, rfl⟩ := Text.written_words hm hwords hrest
        exact ⟨rest, rfl, hkeep, Text.kept_of_words hwords hword⟩
      · exact absurd heq (replacement_ne (matched_of_identifierLength hfound).least hdigitChars hlong)
  | cons c front ih =>
      rcases Text.written_cons hm h with ⟨rest, rfl, hkeep, hrest⟩ | ⟨-, found, rest, -, -, hfound, heq⟩
      · obtain ⟨left, rfl, hspared⟩ := ih (fun d hd => hfront d (List.mem_cons_of_mem c hd)) hrest
        exact ⟨left, rfl, hkeep, hspared⟩
      · have hchars := List.forall_mem_append.mpr ⟨hfront, hdigitChars⟩
        have hlength : 5 ≤ (c :: front ++ digits).length := by
          rw [List.length_append]
          omega
        exact absurd heq (replacement_ne (matched_of_identifierLength hfound).least hchars hlength)

/-- Where a UUID that is written comes from: `base` is written as `before`, and the digits in front
of the UUID and the UUID are kept. -/
structure Source (rt : Runtime) (afterWord : Bool) (text written : List Char) (u : Uuid)
    (base run rest before : List Char) : Prop where
  text_eq : text = base ++ (run ++ u.text ++ rest)
  run_hex : ∀ c ∈ run, isHexDigit c = true
  base_end : ∀ c, base.getLast? = some c → isHexDigit c = false
  spared : Spared rt (Text.lastWord (isWordChar rt) afterWord base) (run ++ u.text) rest
  written_eq : written = before ++ run
  redacted_eq : redacted rt afterWord text = before ++
    redacted rt (Text.lastWord (isWordChar rt) afterWord base) (run ++ u.text ++ rest)

/-- Digits or a UUID begin with a digit. -/
theorem head_run_text (hrun : ∀ c ∈ run, isHexDigit c = true) :
    ∃ c, (run ++ u.text ++ rest).head? = some c ∧ isHexDigit c = true := by
  have hfirst := u.lengths.1
  cases run with
  | cons c run => exact ⟨c, rfl, hrun c (List.mem_cons_self ..)⟩
  | nil =>
      obtain ⟨c, first, heq⟩ := List.exists_cons_of_length_pos (by omega : 0 < u.first.length)
      refine ⟨c, ?_, u.first_hex c (heq ▸ List.mem_cons_self ..)⟩
      rw [Uuid.text, heq]
      rfl

/-- A character is kept in front of a source. -/
theorem Source.keep {written before : List Char} (h : Source rt (isWordChar rt c) text written u base run rest before)
    (hkeep : afterWord = true ∨ identifierLength rt (c :: text) = none) :
    ∃ base run before, Source rt afterWord (c :: text) (c :: written) u base run rest before := by
  have hredacted : redacted rt afterWord (c :: text) = c :: redacted rt (isWordChar rt c) text :=
    Text.substitute_keep hkeep
  rcases eq_or_ne base [] with rfl | hne
  · have htext := h.text_eq
    rw [List.nil_append] at htext
    cases hhex : isHexDigit c with
    | true =>
        -- the run of digits begins one character earlier
        have hbefore : before = [] := by
          have hwritten := h.redacted_eq
          rw [← htext] at hwritten
          exact List.self_eq_append_left.mp hwritten
        refine ⟨[], c :: run, [], by rw [htext]; rfl, ?_, fun d hd => (nomatch hd), ⟨?_, h.spared⟩, ?_, ?_⟩
        · intro d hd
          rcases List.mem_cons.mp hd with rfl | hd
          · exact hhex
          · exact h.run_hex d hd
        · rw [htext] at hkeep
          exact hkeep
        · rw [h.written_eq, hbefore]
          rfl
        · rw [htext]
          rfl
    | false =>
        refine ⟨[c], run, c :: before, by rw [htext]; rfl, h.run_hex, ?_, h.spared, ?_, ?_⟩
        · intro d hd
          obtain rfl := Option.some.inj hd
          exact hhex
        · rw [h.written_eq]
          rfl
        · rw [hredacted, h.redacted_eq]
          rfl
  · have hlast : (c :: base).getLast? = base.getLast? := List.getLast?_cons_of_ne_nil hne
    have hword : Text.lastWord (isWordChar rt) afterWord (c :: base) =
        Text.lastWord (isWordChar rt) (isWordChar rt c) base := Text.lastWord_cons
    refine ⟨c :: base, run, c :: before, by rw [h.text_eq]; rfl, h.run_hex, ?_, ?_, ?_, ?_⟩
    · rw [hlast]
      exact h.base_end
    · rw [hword]
      exact h.spared
    · rw [h.written_eq]
      rfl
    · rw [hredacted, h.redacted_eq, hword]
      rfl

/-- A match is replaced in front of a source. -/
theorem Source.redact (hh : HexWords rt) {found written before : List Char}
    (h : Source rt true text written u base run rest before)
    (hfound : identifierLength rt (found ++ text) = some found.length) :
    ∃ base run before, Source rt false (found ++ text)
      ((redactIdentifier (String.ofList found)).toList ++ written) u base run rest before := by
  have hm := wordMatches hh
  have hredacted : redacted rt false (found ++ text) =
      (redactIdentifier (String.ofList found)).toList ++ redacted rt true text :=
    Text.substitute_found hm hfound
  -- the match ends in front of a boundary, so `base` is not empty
  have hne : base ≠ [] := by
    rintro rfl
    obtain ⟨c, hc, hhex⟩ := @head_run_text rest u run h.run_hex
    have hnext : (found ++ text)[found.length]? = some c := by
      rw [h.text_eq, List.nil_append, List.getElem?_append_right (Nat.le_refl _), Nat.sub_self,
        ← List.head?_eq_getElem?, hc]
    have hboundary := hm.atBoundary _ _ _ hfound hnext
    rw [hh.word hhex] at hboundary
    cases hboundary
  have hword : Text.lastWord (isWordChar rt) false (found ++ base) = Text.lastWord (isWordChar rt) true base := by
    rw [Text.lastWord_append, hm.lastWord_found hfound]
  refine ⟨found ++ base, run, (redactIdentifier (String.ofList found)).toList ++ before, ?_, h.run_hex, ?_, ?_,
    ?_, ?_⟩
  · rw [h.text_eq, List.append_assoc found]
  · rw [List.getLast?_append_of_ne_nil _ hne]
    exact h.base_end
  · rw [hword]
    exact h.spared
  · rw [h.written_eq, List.append_assoc]
  · rw [hredacted, h.redacted_eq, hword, List.append_assoc (redactIdentifier _).toList]

/-- No UUID is written that begins in a replacement. -/
theorem replacement_before_uuid (hh : HexWords rt) {found written left : List Char}
    (hfound : identifierLength rt (found ++ rest) = some found.length)
    (h : (redactIdentifier (String.ofList found)).toList ++ redacted rt true rest = written ++ u.text ++ left) :
    ∃ later, written = (redactIdentifier (String.ofList found)).toList ++ later := by
  have hlong := (matched_of_identifierLength hfound).least
  have hlength := length_replacement hlong
  have huuid := u.length_text
  have hfirst := u.lengths.1
  have hget : ∀ k, written.length ≤ k → k < written.length + 36 →
      ((redactIdentifier (String.ofList found)).toList ++ redacted rt true rest)[k]? =
        u.text[k - written.length]? := by
    intro k hk hlt
    rw [h, List.append_assoc, List.getElem?_append_right hk, List.getElem?_append_left (by omega)]
  rcases Nat.lt_or_ge written.length 11 with hshort | hwritten
  · exfalso
    rcases Nat.lt_or_ge written.length 7 with hdots | hdigits
    · -- the last dot of the replacement would be a character of the UUID
      have hdot := dot_in_replacement hlong ⟨by omega, Nat.le_refl 6⟩ (redacted rt true rest)
      rw [hget 6 (by omega) (by omega)] at hdot
      exact absurd (u.text_chars '.' (List.mem_of_getElem? hdot)) (by decide)
    · -- a digit would follow the match
      have hnext := hget 11 (by omega) (by omega)
      have hindex : 11 - written.length < u.first.length := by omega
      rw [List.getElem?_append_right (by omega), hlength, ← List.head?_eq_getElem?, Uuid.text,
        List.getElem?_append_left hindex, List.getElem?_eq_getElem hindex] at hnext
      have hhex := u.first_hex _ (List.getElem_mem hindex)
      obtain ⟨after, hafter⟩ := List.head?_eq_some_iff.mp hnext
      rcases Text.written_cons (wordMatches hh) hafter with ⟨more, rfl, -, -⟩ | ⟨hfalse, -⟩
      · have hfollows : (found ++ u.first[11 - written.length] :: more)[found.length]? =
            some u.first[11 - written.length] := by
          rw [List.getElem?_append_right (Nat.le_refl _), Nat.sub_self]
          rfl
        have hboundary := (wordMatches hh).atBoundary _ _ _ hfound hfollows
        rw [hh.word hhex] at hboundary
        cases hboundary
      · cases hfalse
  · have hprefix : (redactIdentifier (String.ofList found)).toList <+: written :=
      List.prefix_of_prefix_length_le (List.prefix_append _ _)
        ⟨u.text ++ left, by rw [h, List.append_assoc]⟩ (by omega)
    obtain ⟨later, hlater⟩ := hprefix
    exact ⟨later, hlater.symm⟩

/-- Every UUID that is written comes from the text. -/
theorem source_of_written (hh : HexWords rt) {written left : List Char}
    (h : redacted rt afterWord text = written ++ u.text ++ left) :
    ∃ base run rest before, Source rt afterWord text written u base run rest before := by
  have hm := wordMatches hh
  induction hn : written.length using Nat.strong_induction_on generalizing afterWord text written with
  | _ n ih =>
      cases written with
      | nil =>
          rw [Uuid.text_eq] at h
          obtain ⟨rest, rfl, hspared⟩ := spared_of_written hh u.groups_chars u.last_hex
            (by have := u.lengths.2.2.2.2; omega) h
          rw [← Uuid.text_eq] at hspared ⊢
          exact ⟨[], [], rest, [], rfl, fun c hc => (nomatch hc), fun c hc => (nomatch hc), hspared, rfl, rfl⟩
      | cons c written =>
          rw [List.length_cons] at hn
          rcases Text.written_cons hm h with ⟨rest, rfl, hkeep, hrest⟩ | ⟨rfl, found, rest, rfl, -, hfound, heq⟩
          · obtain ⟨base, run, left, before, hsource⟩ := ih _ (by omega) hrest rfl
            obtain ⟨base, run, before, hsource⟩ := hsource.keep hkeep
            exact ⟨base, run, left, before, hsource⟩
          · change _ ++ redacted rt true rest = c :: written ++ u.text ++ left at heq
            obtain ⟨later, hlater⟩ := replacement_before_uuid hh hfound heq
            have hlong := (matched_of_identifierLength hfound).least
            have hlength := congrArg List.length hlater
            rw [List.length_append, length_replacement hlong, List.length_cons] at hlength
            rw [hlater, List.append_assoc, List.append_assoc] at heq
            have hrest : redacted rt true rest = later ++ u.text ++ left := by
              rw [List.append_assoc]
              exact List.append_cancel_left heq
            obtain ⟨base, run, left, before, hsource⟩ := ih _ (by omega) hrest rfl
            obtain ⟨base, run, before, hsource⟩ := hsource.redact hh hfound
            rw [hlater]
            exact ⟨base, run, left, before, hsource⟩

/-- The groups of a UUID from the second on, and what stands between the first and the last. -/
theorem Uuid.between_chars : (∀ c ∈ '-' :: (u.second ++ '-' :: (u.third ++ ['-'])), isIdentifierChar c = true) ∧
    ∀ c ∈ '-' :: (u.third ++ '-' :: (u.fourth ++ ['-'])), isIdentifierChar c = true := by
  have hgroups := u.groups_chars
  simp only [groups, List.mem_append, List.mem_cons, List.not_mem_nil, or_false] at hgroups
  constructor
  · intro c hc
    simp only [List.mem_append, List.mem_cons, List.not_mem_nil, or_false] at hc
    exact hgroups c (by tauto)
  · intro c hc
    simp only [List.mem_append, List.mem_cons, List.not_mem_nil, or_false] at hc
    exact hgroups c (by tauto)

/-- In front of a kept UUID a letter stands, or more digits than a match can take. -/
theorem Source.left (hh : HexWords rt) {written before : List Char}
    (h : Source rt false text written u base run rest before) :
    (∃ c, base.getLast? = some c ∧ isWordChar rt c = true) ∨ 114 < run.length := by
  obtain ⟨hfirst, hsecond, hthird, hfourth, -⟩ := u.lengths
  by_contra hnot
  push Not at hnot
  obtain ⟨hend, hshort⟩ := hnot
  have hstart : Text.lastWord (isWordChar rt) false base = false := by
    rw [Text.lastWord, map_getD_eq_false]
    exact fun c hc => Bool.eq_false_iff.mpr (hend c hc)
  have hnone := ((spared_text_iff hh h.run_hex).mp h.spared).1.resolve_left
    (by rw [hstart]; exact Bool.false_ne_true)
  have hdigits := List.forall_mem_append.mpr ⟨h.run_hex, u.first_hex⟩
  have hframed : Framed (run ++ u.first) :=
    framed_digits hdigits (List.ne_nil_of_length_pos (by rw [List.length_append]; omega))
  have hdash : ∀ tail c, ('-' :: tail : List Char).head? = some c → isWordChar rt c = false := by
    intro tail c hc
    obtain rfl := Option.some.inj hc
    exact hh.dash_not_word
  rcases Nat.lt_or_ge run.length 8 with hfew | hmany
  · -- the digits and the first four groups match
    have hfourthFramed : Framed u.fourth := framed_digits u.fourth_hex (List.ne_nil_of_length_pos (by omega))
    refine identifierLength_ne_none (hframed.append u.between_chars.1 hfourthFramed) ?_ ?_
      (hdash (u.last ++ rest)) ?_
    · simp only [List.length_append, List.length_cons]
      omega
    · simp only [List.length_append, List.length_cons, List.length_nil]
      omega
    · simpa only [Uuid.text, List.append_assoc, List.cons_append, List.nil_append] using hnone
  · -- the digits and the first group match
    refine identifierLength_ne_none hframed ?_ ?_ (hdash (u.second ++ '-' :: (u.third ++ '-' ::
      (u.fourth ++ '-' :: u.last)) ++ rest)) ?_
    · rw [List.length_append]
      omega
    · rw [List.length_append]
      omega
    · simpa only [Uuid.text, List.append_assoc, List.cons_append] using hnone

/-- Behind a kept UUID a letter stands, or more digits than a match can take. -/
theorem Source.right (hh : HexWords rt) {written before : List Char}
    (h : Source rt afterWord text written u base run (followers ++ rest) before)
    (hfollowers : ∀ c ∈ followers, isHexDigit c = true) :
    (∃ c, rest.head? = some c ∧ isWordChar rt c = true) ∨ 110 < followers.length := by
  obtain ⟨-, hsecond, hthird, hfourth, hlast⟩ := u.lengths
  by_contra hnot
  push Not at hnot
  obtain ⟨hstart, hshort⟩ := hnot
  have hrest : ∀ c, rest.head? = some c → isWordChar rt c = false :=
    fun c hc => Bool.eq_false_iff.mpr (hstart c hc)
  obtain ⟨-, hsecondNone, -, -, hlastNone⟩ := (spared_text_iff hh h.run_hex).mp h.spared
  have hdigits := List.forall_mem_append.mpr ⟨u.last_hex, hfollowers⟩
  have hframed : Framed (u.last ++ followers) :=
    framed_digits hdigits (List.ne_nil_of_length_pos (by rw [List.length_append]; omega))
  rcases Nat.lt_or_ge followers.length 4 with hfew | hmany
  · -- everything from the second group on matches
    have hsecondFramed : Framed u.second := framed_digits u.second_hex (List.ne_nil_of_length_pos (by omega))
    refine identifierLength_ne_none (hsecondFramed.append u.between_chars.2 hframed) ?_ ?_ hrest ?_
    · simp only [List.length_append, List.length_cons]
      omega
    · simp only [List.length_append, List.length_cons, List.length_nil]
      omega
    · simpa only [List.append_assoc, List.cons_append, List.nil_append] using hsecondNone
  · -- the last group and the digits behind it match
    refine identifierLength_ne_none hframed ?_ ?_ hrest ?_
    · rw [List.length_append]
      omega
    · rw [List.length_append]
      omega
    · rw [List.append_assoc]
      exact hlastNone

/-- The base of a kept UUID is written for itself. -/
theorem Source.before_eq (hh : HexWords rt) {written before : List Char}
    (h : Source rt false text written u base run rest before) : before = redacted rt false base := by
  have hredacted := h.redacted_eq
  rw [h.text_eq, redacted_before_uuid hh h.run_hex h.base_end (h.left hh)] at hredacted
  exact (List.append_cancel_right hredacted).symm

/-- No UUID is written that the text does not have. -/
theorem uuid_of_redacted (hh : HexWords rt) (h : u.text <:+: redacted rt afterWord text) : u.text <:+: text := by
  obtain ⟨written, left, heq⟩ := h
  obtain ⟨base, run, rest, before, hsource⟩ := source_of_written hh heq.symm
  refine ⟨base ++ run, rest, ?_⟩
  rw [hsource.text_eq]
  simp only [List.append_assoc]

/-- A UUID stands in the first 256 characters that are written exactly if one is exposed. -/
theorem written_iff_exposed (hh : HexWords rt) :
    (∃ u : Uuid, u.text <:+: (redacted rt false text).take 256) ↔ Exposed rt text := by
  constructor
  · rintro ⟨u, written, left, hwritten⟩
    have hfits : written.length + 36 ≤ 256 := by
      have hlength := congrArg List.length hwritten
      rw [List.length_append, List.length_append, u.length_text, List.length_take] at hlength
      omega
    have hall : redacted rt false text = written ++ u.text ++ (left ++ (redacted rt false text).drop 256) := by
      rw [← List.append_assoc, hwritten, List.take_append_drop]
    obtain ⟨base, run, rest, before, h⟩ := source_of_written hh hall
    rw [← @List.takeWhile_append_dropWhile _ isHexDigit rest] at h
    have hfollowers : ∀ c ∈ rest.takeWhile isHexDigit, isHexDigit c = true := fun c => List.mem_takeWhile_imp
    have hrest : ∀ c, (rest.dropWhile isHexDigit).head? = some c → isHexDigit c = false := by
      intro c hc
      have hnot := List.head?_dropWhile_not isHexDigit rest
      rw [hc] at hnot
      exact hnot
    have hlength := @length_redacted rt base hh
    rw [← h.before_eq hh] at hlength
    rw [h.written_eq, List.length_append] at hfits
    exact ⟨u, base, run, _, _, h.text_eq, h.run_hex, hfollowers, h.base_end, hrest, h.left hh,
      h.right hh hfollowers, by omega⟩
  · rintro ⟨u, base, run, followers, rest, h⟩
    obtain ⟨written, hwritten⟩ := h.written hh
    have hfits := h.fits
    rw [← length_redacted hh] at hfits
    have htake : (redacted rt false text).take 256 = redacted rt false base ++ run ++ u.text ++
        written.take (256 - (redacted rt false base ++ (run ++ u.text)).length) := by
      rw [hwritten, List.take_append, List.take_of_length_le, ← List.append_assoc]
      rw [List.length_append, List.length_append, u.length_text]
      omega
    exact ⟨u, _, _, htake.symm⟩

/-! ## The stored message -/

/-- The message before the redaction: on one line and without blanks around it. -/
def cleanMessage (value : String) : String :=
  Text.strip (Text.replaceChar '\n' " " (Text.replaceChar '\r' " " value))

theorem safeMessage_toList (value : String) :
    (safeMessage rt value).toList = (redacted rt false (cleanMessage value).toList).take 256 := by
  simp only [safeMessage, Text.takeChars, String.toList_ofList]
  rfl

theorem infix_of_strip {value : String} (h : cs <:+: (Text.strip value).toList) : cs <:+: value.toList := by
  rw [Text.strip, String.toList_ofList] at h
  exact h.trans ((List.rdropWhile_prefix _ _).isInfix.trans (List.dropWhile_suffix _).isInfix)

/-- A text without spaces in it is not changed where characters become spaces. -/
theorem infix_of_replaceChar {old : Char} {value : String} (hspace : ∀ c ∈ cs, c ≠ ' ')
    (h : cs <:+: (Text.replaceChar old " " value).toList) : cs <:+: value.toList := by
  have hmap : (Text.replaceChar old " " value).toList =
      value.toList.map fun c => if c = old then ' ' else c := by
    rw [Text.replaceChar, String.toList_ofList, List.map_eq_flatMap]
    congr 1
    funext c
    split <;> rfl
  obtain ⟨before, after, heq⟩ := h
  rw [hmap] at heq
  obtain ⟨front, tail, hvalue, hfront, htail⟩ := List.append_eq_map_iff.mp heq
  obtain ⟨start, middle, rfl, -, hmiddle⟩ := List.append_eq_map_iff.mp hfront.symm
  have hsame : middle.map (fun c => if c = old then ' ' else c) = middle := by
    refine (List.map_congr_left fun c hc => ?_).trans (List.map_id middle)
    have hmem : (if c = old then ' ' else c) ∈ cs := hmiddle ▸ List.mem_map_of_mem hc
    split
    · next heq => exact absurd (by rw [if_pos heq]) (hspace _ hmem)
    · rfl
  rw [hsame] at hmiddle
  exact ⟨start, tail, by rw [hvalue, hmiddle]⟩

/-- A UUID of the cleaned message stands in the message. -/
theorem uuid_of_clean {value : String} (h : u.text <:+: (cleanMessage value).toList) :
    u.text <:+: value.toList := by
  have hspace : ∀ c ∈ u.text, c ≠ ' ' := by
    rintro c hc rfl
    exact absurd (u.text_chars ' ' hc) (by decide)
  exact infix_of_replaceChar hspace (infix_of_replaceChar hspace (infix_of_strip h))

theorem persistedRecord_satMessage {args : PersistArgs} {record : LiveMetadataRequestRecord}
    (h : persistedRecord rt args = .ok record) : record.satMessage = safeMessage rt args.satMessage := by
  rw [persistedRecord] at h
  split at h
  · cases h
  · obtain ⟨createdAt, -, h⟩ := Checked.bind_eq_ok.mp h
    obtain ⟨firstCheck, -, h⟩ := Checked.bind_eq_ok.mp h
    obtain ⟨nextCheckAt, -, h⟩ := Checked.bind_eq_ok.mp h
    obtain ⟨expiry, -, h⟩ := Checked.bind_eq_ok.mp h
    obtain ⟨expiresAt, -, h⟩ := Checked.bind_eq_ok.mp h
    obtain rfl := Checked.pure_eq_ok.mp h
    dsimp only

/-- The file lists the persisted record with the redacted message, and no other of its reference. -/
theorem stored_message {args : PersistArgs} {file after : StateFile} {record stored : LiveMetadataRequestRecord}
    (h : persistLive rt args file = .ok (record, after)) :
    StoredIn after record.requestRef record ∧
      (StoredIn after record.requestRef stored → stored.satMessage = safeMessage rt args.satMessage) := by
  obtain ⟨hrecord, rs, hlist, rfl⟩ := persistLive_ok.mp h
  have hstored : StoredIn (writeState (insertRecord record rs)) record.requestRef record :=
    ⟨_, listLive_upsert hlist (persistedRecord_fresh hrecord).1, Keyed.sole_upsert_self sortByCreation_perm⟩
  refine ⟨hstored, fun h' => ?_⟩
  rw [← hstored.unique h', persistedRecord_satMessage hrecord]

/-- A stored message shows a UUID of the text exactly if the text exposes one. -/
theorem stored_message_iff (rt : Runtime) (args : PersistArgs) (file after : StateFile)
    (record : LiveMetadataRequestRecord) (hh : HexWords rt)
    (h : persistLive rt args file = .ok (record, after)) :
    (∀ stored, StoredIn after record.requestRef stored → ∀ u : Uuid,
      u.text <:+: args.satMessage.toList → ¬ u.text <:+: stored.satMessage.toList) ↔
    ¬ Exposed rt (cleanMessage args.satMessage).toList := by
  rw [← written_iff_exposed hh, ← safeMessage_toList]
  constructor
  · rintro hsafe ⟨u, hu⟩
    have hstored := (@stored_message _ _ _ _ _ record h).1
    have hmessage := (stored_message h).2 hstored
    have hwritten : u.text <:+: redacted rt false (cleanMessage args.satMessage).toList := by
      rw [safeMessage_toList] at hu
      exact hu.trans (List.take_prefix _ _).isInfix
    exact hsafe record hstored u (uuid_of_clean (uuid_of_redacted hh hwritten)) (hmessage ▸ hu)
  · intro hnone stored hstored u _ hu
    rw [(stored_message h).2 hstored] at hu
    exact hnone ⟨u, hu⟩

/-! ## A UUID between letters -/

section Sample

/-- A runtime that classifies ASCII characters. -/
def asciiWords : Runtime where
  sha256Text _ := 0
  sha256Bytes _ := 0
  upper := id
  lower := Text.lower
  alnum c := c.isAlphanum

theorem asciiWords_hex : HexWords asciiWords where
  hex c hc := by
    simp only [isHexDigit, Bool.or_eq_true, Bool.and_eq_true, decide_eq_true_eq, Char.le_def] at hc
    delta asciiWords Char.isAlphanum Char.isAlpha Char.isUpper Char.isLower Char.isDigit
    simp only [ge_iff_le, Bool.or_eq_true, Bool.and_eq_true, decide_eq_true_eq]
    rcases hc with (⟨hlow, hhigh⟩ | ⟨hlow, hhigh⟩) | ⟨hlow, hhigh⟩
    · exact .inr ⟨hlow, hhigh⟩
    · exact .inl (.inr ⟨hlow, UInt32.le_trans hhigh (by decide)⟩)
    · exact .inl (.inl ⟨hlow, UInt32.le_trans hhigh (by decide)⟩)
  dash := by decide

/-- A metadata request that was accepted with the given message. -/
def acceptedWith (message : String) : PersistArgs where
  profileId := "default"
  query := { tenantId := "default", requesterRfc := "AAA010101AAA", direction := .received,
             requestType := .metadata, period := none }
  operation := "SolicitaDescargaRecibidos"
  idSolicitud := "SAT-REQ-1"
  satCode := "5000"
  satMessage := message
  sourceCommand := "sat metadata-request-smoke"
  permitRef := none
  status := "accepted"
  now := .utc 63842386800000000

theorem acceptedWith_persisted (message : String) :
    ∃ record after, persistLive asciiWords (acceptedWith message) .absent = .ok (record, after) := by
  have hid : Text.strip (acceptedWith message).idSolicitud ≠ "" := by
    change Text.strip "SAT-REQ-1" ≠ ""
    decide +kernel
  obtain ⟨record, hrecord⟩ := (@persistedRecord_ok_iff asciiWords (acceptedWith message) _ rfl).mpr
    ⟨hid, by decide +kernel⟩
  exact ⟨record, _, persistLive_ok.mpr ⟨hrecord, [], rfl, rfl⟩⟩

def sampleUuid : Uuid where
  first := "550e8400".toList
  second := "e29b".toList
  third := "41d4".toList
  fourth := "a716".toList
  last := "446655440000".toList
  lengths := by decide
  hex group hgroup c hc := by
    have hall : ["550e8400".toList, "e29b".toList, "41d4".toList, "a716".toList, "446655440000".toList].all
        (fun group => group.all isHexDigit) = true := by
      decide
    exact List.all_eq_true.mp (List.all_eq_true.mp hall group hgroup) c hc

theorem stored_message_iff_sample : ∃ record after,
    persistLive asciiWords (acceptedWith "Solicitud Aceptada") .absent = .ok (record, after) ∧
      ((∀ stored, StoredIn after record.requestRef stored → ∀ u : Uuid,
        u.text <:+: "Solicitud Aceptada".toList → ¬ u.text <:+: stored.satMessage.toList) ↔
      ¬ Exposed asciiWords (cleanMessage "Solicitud Aceptada").toList) := by
  obtain ⟨record, after, hpersisted⟩ := acceptedWith_persisted "Solicitud Aceptada"
  exact ⟨record, after, hpersisted, stored_message_iff asciiWords _ .absent after record asciiWords_hex hpersisted⟩

/-- With a letter on both sides a UUID is stored as it is. -/
theorem uuid_between_letters_stored : ¬ ∀ (rt : Runtime) (args : PersistArgs) (file after : StateFile)
    (record stored : LiveMetadataRequestRecord), HexWords rt →
      persistLive rt args file = .ok (record, after) → StoredIn after record.requestRef stored →
      ∀ u : Uuid, u.text <:+: args.satMessage.toList → ¬ u.text <:+: stored.satMessage.toList := by
  intro h
  obtain ⟨record, after, hpersisted⟩ := acceptedWith_persisted "x550e8400-e29b-41d4-a716-446655440000z"
  have hstored := (@stored_message _ _ _ _ _ record hpersisted).1
  have hmessage : record.satMessage = "x550e8400-e29b-41d4-a716-446655440000z" := by
    rw [(stored_message hpersisted).2 hstored]
    decide +kernel
  have hshown : sampleUuid.text <:+: "x550e8400-e29b-41d4-a716-446655440000z".toList :=
    ⟨['x'], ['z'], by decide⟩
  exact h asciiWords _ .absent after record record asciiWords_hex hpersisted hstored sampleUuid hshown
    (hmessage ▸ hshown)

end Sample

end MessageRedaction

end CfdiVault
