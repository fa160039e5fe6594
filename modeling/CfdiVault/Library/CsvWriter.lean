import CfdiVault.Library.CsvLines

/-!
# Writing delimited text

The writer sets a field in quotes where it holds a delimiter, a quote or a line break, and
doubles the quotes in it.  The reader gives back the rows of a written text as long as no
field is over its limit (`readText_writeText`), and refuses the text otherwise
(`readText_tooLong`).

A quoted field may run over line ends, so the number of lines that a record takes is not
followed.
-/

namespace CfdiVault

namespace Csv

section Writer

variable (delimiter : Char)

def isSpecial (c : Char) : Bool := c == delimiter || c == '"' || isNewline c

/-- The field with its quotes doubled. -/
def doubled (f : List Char) : List Char := f.flatMap fun c => if c = '"' then ['"', '"'] else [c]

def writeField (f : List Char) : List Char :=
  if f.any (isSpecial delimiter) then '"' :: (doubled f ++ ['"']) else f

def writeRow (row : List (List Char)) : List Char :=
  [delimiter].intercalate (row.map (writeField delimiter)) ++ ['\r', '\n']

def writeText (rows : List (List (List Char))) : List Char := rows.flatMap (writeRow delimiter)

end Writer

section RoundTrip

variable {limit taken : Nat} {delimiter c s : Char} {text cs field f : List Char}
variable {fields row : List (List Char)} {rows : List (List (List Char))} {st : ReadState}

open Reader

/-! ## Scanning a field -/

theorem scan_append {r : Reader} (h : '\n' ∉ cs) :
    scan limit delimiter r taken (cs ++ text) =
      r.readAll limit delimiter cs >>= fun r => scan limit delimiter r taken text := by
  induction cs generalizing r with
  | nil => rfl
  | cons c cs ih =>
      obtain ⟨hc, hcs⟩ := List.ne_and_not_mem_of_not_mem_cons h
      rw [List.cons_append, scan_cons (Ne.symm hc), readAll_cons, bind_assoc]
      exact bind_congr fun r => ih hcs

/-- A character inside quotes belongs to the field, a line end too. -/
theorem scan_quoted_char (hc : c ≠ '"') (htext : text ≠ []) :
    ∃ taken', scan limit delimiter ⟨.inQuotedField, field, fields⟩ taken (c :: text) =
      (⟨.inQuotedField, field, fields⟩ : Reader).addChar limit c .inQuotedField >>=
        fun r => scan limit delimiter r taken' text := by
  have hread : (⟨.inQuotedField, field, fields⟩ : Reader).read limit delimiter c =
      (⟨.inQuotedField, field, fields⟩ : Reader).addChar limit c .inQuotedField := by
    simp [Reader.read, hc]
  by_cases hn : c = '\n'
  · subst hn
    refine ⟨taken + 1, ?_⟩
    rw [scan_newline, hread, addChar]
    split
    · rfl
    · show records limit delimiter ⟨.inQuotedField, field ++ ['\n'], fields⟩ (taken + 1)
        (lines text) = _
      exact records_lines htext
  · exact ⟨taken, by rw [scan_cons hn, hread]⟩

theorem scan_quoted_quote :
    scan limit delimiter ⟨.inQuotedField, field, fields⟩ taken ('"' :: '"' :: text) =
      (⟨.quoteInQuotedField, field, fields⟩ : Reader).addChar limit '"' .inQuotedField >>=
        fun r => scan limit delimiter r taken text := by
  rw [scan_cons (by decide)]
  show scan limit delimiter ⟨.quoteInQuotedField, field, fields⟩ taken ('"' :: text) = _
  rw [scan_cons (by decide)]
  rfl

theorem doubled_cons : doubled (c :: f) = (if c = '"' then ['"', '"'] else [c]) ++ doubled f := rfl

/-- The first character of a quoted text is added to the field. -/
theorem scan_doubled_cons :
    ∃ taken', scan limit delimiter ⟨.inQuotedField, field, fields⟩ taken
        (doubled (c :: f) ++ '"' :: text) =
      if limit ≤ field.length then .error .fieldTooLong
      else scan limit delimiter ⟨.inQuotedField, field ++ [c], fields⟩ taken'
        (doubled f ++ '"' :: text) := by
  rw [doubled_cons]
  by_cases hc : c = '"'
  · subst hc
    refine ⟨taken, ?_⟩
    rw [if_pos rfl, List.append_assoc]
    show scan limit delimiter _ taken ('"' :: '"' :: (doubled f ++ '"' :: text)) = _
    rw [scan_quoted_quote, addChar]
    split <;> rfl
  · rw [if_neg hc, List.append_assoc, List.singleton_append]
    obtain ⟨taken', hscan⟩ := @scan_quoted_char limit taken delimiter c (doubled f ++ '"' :: text) field
      fields hc (by simp)
    refine ⟨taken', ?_⟩
    rw [hscan, addChar]
    split <;> rfl

theorem scan_doubled (hlimit : field.length + f.length ≤ limit) :
    ∃ taken', scan limit delimiter ⟨.inQuotedField, field, fields⟩ taken (doubled f ++ '"' :: text) =
      scan limit delimiter ⟨.quoteInQuotedField, field ++ f, fields⟩ taken' text := by
  induction f generalizing field taken with
  | nil =>
      refine ⟨taken, ?_⟩
      rw [List.append_nil]
      exact scan_cons (by decide)
  | cons c f ih =>
      rw [List.length_cons] at hlimit
      obtain ⟨taken₁, hfirst⟩ := @scan_doubled_cons limit taken delimiter c text field f fields
      obtain ⟨taken₂, hrest⟩ := @ih taken₁ (field ++ [c]) (by simp; omega)
      refine ⟨taken₂, ?_⟩
      rw [hfirst, if_neg (by omega), hrest, List.append_assoc, List.singleton_append]

theorem scan_doubled_tooLong (hfield : field.length ≤ limit) (hlimit : limit < field.length + f.length) :
    scan limit delimiter ⟨.inQuotedField, field, fields⟩ taken (doubled f ++ '"' :: text) =
      .error .fieldTooLong := by
  induction f generalizing field taken with
  | nil =>
      rw [List.length_nil] at hlimit
      omega
  | cons c f ih =>
      rw [List.length_cons] at hlimit
      obtain ⟨taken', hfirst⟩ := @scan_doubled_cons limit taken delimiter c text field f fields
      rw [hfirst]
      split
      · rfl
      · exact ih (by simp; omega) (by simp; omega)

/-- What ends a written field: the delimiter, or the end of the row. -/
def Ends (delimiter s : Char) : Prop := s = delimiter ∨ s = '\r'

/-- The reader behind a field and its end. -/
def closed (delimiter s : Char) : ReadState := if s = delimiter then .startField else .eatCrnl

theorem Ends.ne (h : Ends delimiter s) (hsep : Separates delimiter) : s ≠ '\n' ∧ s ≠ '"' := by
  obtain rfl | rfl := h
  · refine ⟨?_, hsep.notQuote⟩
    rintro rfl
    exact absurd hsep.notNewline (by decide)
  · decide

theorem read_end (hsep : Separates delimiter) (hend : Ends delimiter s)
    (hst : st = .startField ∨ st = .inField ∨ st = .quoteInQuotedField ∨
      (st = .startRecord ∧ s = delimiter)) :
    (⟨st, f, fields⟩ : Reader).read limit delimiter s =
      .ok ⟨closed delimiter s, [], fields ++ [f]⟩ := by
  have hn := hsep.notNewline
  have hq := (hend.ne hsep).2
  by_cases hs : s = delimiter
  · subst hs
    obtain rfl | rfl | rfl | ⟨rfl, -⟩ := hst <;> simp [Reader.read, readStart, hn, hq, closed, saveField]
  · have hr : isNewline s = true := by
      rw [hend.resolve_left hs]
      rfl
    obtain rfl | rfl | rfl | ⟨-, hs'⟩ := hst
    · simp [Reader.read, readStart, hr, hs, closed, saveField]
    · simp [Reader.read, hr, hs, closed, saveField]
    · simp [Reader.read, hr, hs, hq, closed, saveField]
    · exact absurd hs' hs

theorem plain_of_not_any (h : ¬ f.any (isSpecial delimiter) = true) :
    (∀ c ∈ f, isNewline c = false) ∧ delimiter ∉ f ∧ '"' ∉ f := by
  have hall : ∀ c ∈ f, isSpecial delimiter c = false := by simpa using h
  refine ⟨fun c hc => ?_, fun hmem => ?_, fun hmem => ?_⟩
  · have hspecial := hall c hc
    rw [isSpecial, Bool.or_eq_false_iff] at hspecial
    exact hspecial.2
  · simpa [isSpecial] using hall _ hmem
  · simpa [isSpecial] using hall _ hmem

/-- A written field is read back. -/
theorem scan_field (hsep : Separates delimiter) (hst : AtField st) (hend : Ends delimiter s)
    (hopen : s = delimiter ∨ st = .startField) (hlimit : f.length ≤ limit) :
    ∃ taken', scan limit delimiter ⟨st, [], fields⟩ taken (writeField delimiter f ++ s :: text) =
      scan limit delimiter ⟨closed delimiter s, [], fields ++ [f]⟩ taken' text := by
  have hs := (hend.ne hsep).1
  rw [writeField]
  split
  · obtain ⟨taken', hscan⟩ := @scan_doubled limit taken delimiter (s :: text) [] f fields (by simpa)
    refine ⟨taken', ?_⟩
    rw [List.cons_append, List.append_assoc, List.singleton_append, scan_cons (by decide),
      read_atField hst (by decide), readStart_quote]
    show scan limit delimiter ⟨.inQuotedField, [], fields⟩ taken _ = _
    rw [hscan, List.nil_append, scan_cons hs, read_end hsep hend (.inr (.inr (.inl rfl)))]
    rfl
  · next hplain =>
      obtain ⟨hn, hd, hq⟩ := plain_of_not_any hplain
      refine ⟨taken, ?_⟩
      have hfield : PlainField limit f :=
        ⟨fun h => hq (List.mem_of_mem_head? h), hlimit⟩
      rw [scan_append fun hmem => absurd (hn _ hmem) (by decide), readAll_plain hst hn hd hfield]
      show scan limit delimiter ⟨afterChars st f, f, fields⟩ taken (s :: text) = _
      rw [scan_cons hs, read_end hsep hend]
      · rfl
      · unfold afterChars
        split
        · obtain rfl | rfl := hst
          · exact .inr (.inr (.inr ⟨rfl, hopen.resolve_right (by simp)⟩))
          · exact .inl rfl
        · exact .inr (.inl rfl)

theorem scan_field_tooLong (hst : AtField st) (hlimit : limit < f.length) :
    scan limit delimiter ⟨st, [], fields⟩ taken (writeField delimiter f ++ s :: text) =
      .error .fieldTooLong := by
  rw [writeField]
  split
  · rw [List.cons_append, List.append_assoc, List.singleton_append, scan_cons (by decide),
      read_atField hst (by decide), readStart_quote]
    exact scan_doubled_tooLong (Nat.zero_le limit) (by simpa)
  · next hplain =>
      obtain ⟨hn, hd, hq⟩ := plain_of_not_any hplain
      rw [scan_append fun hmem => absurd (hn _ hmem) (by decide),
        readAll_plain_tooLong hst hn hd (fun h => hq (List.mem_of_mem_head? h)) hlimit]
      rfl

/-! ## Scanning a row -/

theorem writeRow_singleton : writeRow delimiter [f] = writeField delimiter f ++ ['\r', '\n'] := by
  simp [writeRow]

theorem writeRow_cons (h : row ≠ []) :
    writeRow delimiter (f :: row) = writeField delimiter f ++ delimiter :: writeRow delimiter row := by
  cases row with
  | nil => exact absurd rfl h
  | cons g row => simp [writeRow, List.intercalate]

/-- A written row is read back, and the reader goes on behind it. -/
theorem scan_row (hsep : Separates delimiter) (hst : AtField st) (hrow : row ≠ [])
    (hopen : st = .startField ∨ 2 ≤ row.length) (hlimit : ∀ f ∈ row, f.length ≤ limit) :
    ∃ taken', scan limit delimiter ⟨st, [], fields⟩ taken (writeRow delimiter row ++ text) =
      records limit delimiter .fresh 0 (lines text) >>=
        fun more => .ok (⟨fields ++ row, taken'⟩ :: more) := by
  induction row generalizing st fields taken with
  | nil => exact absurd rfl hrow
  | cons f row ih =>
      obtain ⟨hf, hrest⟩ := List.forall_mem_cons.mp hlimit
      by_cases hlast : row = []
      · subst hlast
        obtain ⟨taken', hscan⟩ := @scan_field limit taken delimiter '\r' ('\n' :: text) f fields st hsep
          hst (.inr rfl) (.inr (hopen.resolve_right (by simp))) hf
        refine ⟨taken' + 1, ?_⟩
        have hcr : closed delimiter '\r' = .eatCrnl := if_neg fun h =>
          absurd (h ▸ hsep.notNewline) (by decide)
        rw [writeRow_singleton, List.append_assoc]
        show scan limit delimiter ⟨st, [], fields⟩ taken (writeField delimiter f ++ '\r' :: '\n' :: text) = _
        rw [hscan, scan_newline, hcr]
        rfl
      · obtain ⟨taken₁, hfirst⟩ := @scan_field limit taken delimiter delimiter
          (writeRow delimiter row ++ text) f fields st hsep hst (.inl rfl) (.inl rfl) hf
        obtain ⟨taken₂, hscan⟩ := @ih taken₁ (fields ++ [f]) .startField (.inr rfl) hlast (.inl rfl) hrest
        refine ⟨taken₂, ?_⟩
        have hclosed : closed delimiter delimiter = .startField := if_pos rfl
        rw [writeRow_cons hlast, List.append_assoc, List.cons_append, hfirst, hclosed, hscan,
          List.append_assoc, List.singleton_append]

theorem scan_row_tooLong (hsep : Separates delimiter) (hst : AtField st)
    (hlong : ∃ f ∈ row, limit < f.length) :
    scan limit delimiter ⟨st, [], fields⟩ taken (writeRow delimiter row ++ text) =
      .error .fieldTooLong := by
  induction row generalizing st fields taken with
  | nil =>
      obtain ⟨f, hf, -⟩ := hlong
      cases hf
  | cons f row ih =>
      by_cases hlast : row = []
      · subst hlast
        obtain ⟨g, hg, hlong⟩ := hlong
        rw [List.mem_singleton.mp hg] at hlong
        rw [writeRow_singleton, List.append_assoc]
        exact scan_field_tooLong hst hlong
      · rw [writeRow_cons hlast, List.append_assoc, List.cons_append]
        by_cases hf : limit < f.length
        · exact scan_field_tooLong hst hf
        · obtain ⟨taken', hfirst⟩ := @scan_field limit taken delimiter delimiter
            (writeRow delimiter row ++ text) f fields st hsep hst (.inl rfl) (.inl rfl) (Nat.not_lt.mp hf)
          have hclosed : closed delimiter delimiter = .startField := if_pos rfl
          rw [hfirst, hclosed]
          refine ih (.inr rfl) ?_
          obtain ⟨g, hg, hlong⟩ := hlong
          obtain rfl | hg := List.mem_cons.mp hg
          · exact absurd hlong hf
          · exact ⟨g, hg, hlong⟩

/-! ## Reading a written text -/

theorem writeRow_ne_nil : writeRow delimiter row ≠ [] := by simp [writeRow]

theorem records_writeText_cons :
    records limit delimiter .fresh 0 (lines (writeText delimiter (row :: rows))) =
      scan limit delimiter ⟨.startRecord, [], []⟩ 0 (writeRow delimiter row ++ writeText delimiter rows) :=
  records_lines (by simp [writeText, writeRow_ne_nil])

/-- The rows of a written text are read back. -/
theorem readText_writeText (hsep : Separates delimiter) (hrows : ∀ row ∈ rows, 2 ≤ row.length)
    (hlimit : ∀ row ∈ rows, ∀ f ∈ row, f.length ≤ limit) :
    ∃ rs, readText limit delimiter (writeText delimiter rows) = .ok rs ∧ rs.map (·.fields) = rows := by
  induction rows with
  | nil => exact ⟨[], rfl, rfl⟩
  | cons row rows ih =>
      obtain ⟨hrow, hrest⟩ := List.forall_mem_cons.mp hrows
      obtain ⟨hfields, hothers⟩ := List.forall_mem_cons.mp hlimit
      obtain ⟨rs, hread, hrs⟩ := ih hrest hothers
      obtain ⟨taken', hscan⟩ := @scan_row limit 0 delimiter (writeText delimiter rows) [] row .startRecord
        hsep (.inl rfl) (by rintro rfl; cases hrow) (.inr hrow) hfields
      refine ⟨⟨row, taken'⟩ :: rs, ?_, by rw [List.map_cons, hrs]⟩
      rw [readText, records_writeText_cons, hscan,
        show records limit delimiter .fresh 0 (lines (writeText delimiter rows)) = .ok rs from hread]
      rfl

/-- A written text with a field over the limit is refused. -/
theorem readText_tooLong (hsep : Separates delimiter) (hrows : ∀ row ∈ rows, 2 ≤ row.length)
    (hlong : ∃ row ∈ rows, ∃ f ∈ row, limit < f.length) :
    readText limit delimiter (writeText delimiter rows) = .error .fieldTooLong := by
  induction rows with
  | nil =>
      obtain ⟨row, hrow, -⟩ := hlong
      cases hrow
  | cons row rows ih =>
      obtain ⟨hrow, hrest⟩ := List.forall_mem_cons.mp hrows
      rw [readText, records_writeText_cons]
      by_cases hhere : ∃ f ∈ row, limit < f.length
      · exact scan_row_tooLong hsep (.inl rfl) hhere
      · have hfields : ∀ f ∈ row, f.length ≤ limit :=
          fun f hf => Nat.not_lt.mp fun h => hhere ⟨f, hf, h⟩
        obtain ⟨taken', hscan⟩ := @scan_row limit 0 delimiter (writeText delimiter rows) [] row .startRecord
          hsep (.inl rfl) (by rintro rfl; cases hrow) (.inr hrow) hfields
        obtain ⟨other, hother, hlong⟩ := hlong
        have hlater : other ∈ rows := by
          obtain rfl | hmem := List.mem_cons.mp hother
          · exact absurd hlong hhere
          · exact hmem
        rw [hscan, show records limit delimiter .fresh 0 (lines (writeText delimiter rows)) =
          .error .fieldTooLong from ih hrest ⟨other, hlater, hlong⟩]
        rfl

end RoundTrip

end Csv

end CfdiVault
