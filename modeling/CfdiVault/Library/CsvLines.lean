import CfdiVault.Library.CsvReader

/-!
# Text that is read line by line

A text in which no field begins with a quote, and none is too long, is read line by line,
each line at its delimiters.  These are the only such texts: the first field that begins
with a quote comes out with fewer quotes at its front than it has, whatever follows it
(`Lags.read`), and a reader whose present record is wrong in one field never repairs it
(`Astray.read`).
-/

namespace CfdiVault

namespace Csv

/-- A field that the reader takes as it stands. -/
def PlainField (limit : Nat) (f : List Char) : Prop := f.head? ≠ some '"' ∧ f.length ≤ limit

instance (limit : Nat) (f : List Char) : Decidable (PlainField limit f) := by
  unfold PlainField
  infer_instance

/-- A line without its end. -/
def content (line : List Char) : List Char := line.takeWhile fun c => !isNewline c

/-- The fields of a line, split at every delimiter. -/
def fieldsOf (delimiter : Char) (line : List Char) : List (List Char) :=
  (content line).splitOn delimiter

/-- Line breaks stand only at the end of the line. -/
def Whole (line : List Char) : Prop := ∀ c ∈ line.dropWhile fun c => !isNewline c, isNewline c = true

instance (line : List Char) : Decidable (Whole line) :=
  decidable_of_iff ((line.dropWhile fun c => !isNewline c).all isNewline = true) List.all_eq_true

/-- A character that can separate fields. -/
structure Separates (delimiter : Char) : Prop where
  notNewline : isNewline delimiter = false
  notQuote : delimiter ≠ '"'

/-- The rows that are not blank. -/
def rows (rs : List Record) : List (List (List Char)) := (rs.map (·.fields)).filter (· ≠ [])

/-- The fields of the lines that are not empty. -/
def ownRows (delimiter : Char) (ls : List (List Char)) : List (List (List Char)) :=
  (ls.filter fun line => content line ≠ []).map (fieldsOf delimiter)

/-- Every line has its end, the last one perhaps not. -/
def Lined : List (List Char) → Prop
  | [] => True
  | line :: rest => line ≠ [] ∧ (rest ≠ [] → line.getLast? = some '\n') ∧ Lined rest

theorem lined_lines (text : List Char) : Lined (lines text) := by
  induction text with
  | nil => exact trivial
  | cons c cs ih =>
      rw [lines]
      split
      · next hc => exact ⟨List.cons_ne_nil c [], fun _ => by rw [hc]; rfl, ih⟩
      · split
        · exact ⟨List.cons_ne_nil c [], fun h => absurd rfl h, trivial⟩
        · next line rest hlines =>
            rw [hlines] at ih
            obtain ⟨hne, hlast, hrest⟩ := ih
            refine ⟨List.cons_ne_nil c line, fun h => ?_, hrest⟩
            rw [List.getLast?_cons_of_ne_nil hne]
            exact hlast h

/-! ## Fields read as they stand -/

section Plain

variable {limit : Nat} {delimiter c : Char} {field f : List Char} {fields fs : List (List Char)}
variable {s : ReadState}

namespace Reader

theorem addChar_ok {r : Reader} {next : ReadState} (h : r.field.length < limit) :
    r.addChar limit c next = .ok ⟨next, r.field ++ [c], r.fields⟩ :=
  if_neg (Nat.not_le.mpr h)

theorem readStart_char {r : Reader} (hn : isNewline c = false) (hq : c ≠ '"') (hd : c ≠ delimiter) :
    r.readStart limit delimiter c = r.addChar limit c .inField := by
  simp [readStart, hn, hq, hd]

theorem readStart_quote {r : Reader} :
    r.readStart limit delimiter '"' = .ok { r with state := .inQuotedField } := by
  simp [readStart, isNewline]

theorem readStart_delimiter {r : Reader} (hn : isNewline delimiter = false) (hq : delimiter ≠ '"') :
    r.readStart limit delimiter delimiter = .ok (r.saveField .startField) := by
  simp [readStart, hn, hq]

/-- The reader is about to start a field. -/
def AtField (s : ReadState) : Prop := s = .startRecord ∨ s = .startField

theorem read_atField (hs : AtField s) (hn : isNewline c = false) :
    (⟨s, field, fields⟩ : Reader).read limit delimiter c =
      (⟨s, field, fields⟩ : Reader).readStart limit delimiter c := by
  obtain rfl | rfl := hs
  · simp [read, hn]
  · rfl

theorem read_inField (hn : isNewline c = false) (hd : c ≠ delimiter) :
    (⟨.inField, field, fields⟩ : Reader).read limit delimiter c =
      (⟨.inField, field, fields⟩ : Reader).addChar limit c .inField := by
  simp [read, hn, hd]

/-- The rest of a field. -/
theorem readAll_inField (hn : ∀ c ∈ f, isNewline c = false) (hd : delimiter ∉ f)
    (hlimit : (field ++ f).length ≤ limit) :
    (⟨.inField, field, fields⟩ : Reader).readAll limit delimiter f =
      .ok ⟨.inField, field ++ f, fields⟩ := by
  induction f generalizing field with
  | nil => simp [pure, Except.pure]
  | cons c f ih =>
      obtain ⟨hc, hf⟩ := List.forall_mem_cons.mp hn
      obtain ⟨hne, hmem⟩ := List.ne_and_not_mem_of_not_mem_cons hd
      rw [List.length_append, List.length_cons] at hlimit
      rw [readAll_cons, read_inField hc (Ne.symm hne), addChar_ok (by show field.length < limit; omega)]
      show Reader.readAll limit delimiter ⟨.inField, field ++ [c], fields⟩ f = _
      rw [ih hf hmem (by simp; omega), List.append_assoc, List.singleton_append]

/-- A field that is too long is refused. -/
theorem readAll_tooLong (hn : ∀ c ∈ f, isNewline c = false) (hd : delimiter ∉ f)
    (hfield : field.length ≤ limit) (hlimit : limit < (field ++ f).length) :
    (⟨.inField, field, fields⟩ : Reader).readAll limit delimiter f = .error .fieldTooLong := by
  induction f generalizing field with
  | nil =>
      rw [List.append_nil] at hlimit
      omega
  | cons c f ih =>
      obtain ⟨hc, hf⟩ := List.forall_mem_cons.mp hn
      obtain ⟨hne, hmem⟩ := List.ne_and_not_mem_of_not_mem_cons hd
      rw [readAll_cons, read_inField hc (Ne.symm hne), addChar]
      split
      · rfl
      · next hroom =>
          have hroom' : field.length < limit := Nat.not_le.mp hroom
          show Reader.readAll limit delimiter ⟨.inField, field ++ [c], fields⟩ f = _
          refine ih hf hmem ?_ ?_
          · rw [List.length_append, List.length_singleton]
            exact hroom'
          · simpa using hlimit

/-- Where the reader stands after the characters of a field. -/
def afterChars (s : ReadState) (f : List Char) : ReadState := if f = [] then s else .inField

theorem readAll_plain (hs : AtField s) (hn : ∀ c ∈ f, isNewline c = false) (hd : delimiter ∉ f)
    (hplain : PlainField limit f) :
    (⟨s, [], fields⟩ : Reader).readAll limit delimiter f = .ok ⟨afterChars s f, f, fields⟩ := by
  cases f with
  | nil => rfl
  | cons c f =>
      obtain ⟨hc, hf⟩ := List.forall_mem_cons.mp hn
      obtain ⟨hne, hmem⟩ := List.ne_and_not_mem_of_not_mem_cons hd
      have hquote : c ≠ '"' := fun h => hplain.1 (congrArg some h)
      have hlength : f.length + 1 ≤ limit := hplain.2
      rw [readAll_cons, read_atField hs hc, readStart_char hc hquote (Ne.symm hne),
        addChar_ok (by show 0 < limit; omega)]
      show Reader.readAll limit delimiter ⟨.inField, [c], fields⟩ f = _
      rw [readAll_inField hf hmem (by simpa [Nat.add_comm] using hlength)]
      rfl

theorem readAll_plain_tooLong (hs : AtField s) (hn : ∀ c ∈ f, isNewline c = false)
    (hd : delimiter ∉ f) (hquote : f.head? ≠ some '"') (hlimit : limit < f.length) :
    (⟨s, [], fields⟩ : Reader).readAll limit delimiter f = .error .fieldTooLong := by
  cases f with
  | nil => exact absurd hlimit (Nat.not_lt_zero limit)
  | cons c f =>
      obtain ⟨hc, hf⟩ := List.forall_mem_cons.mp hn
      obtain ⟨hne, hmem⟩ := List.ne_and_not_mem_of_not_mem_cons hd
      have hquote' : c ≠ '"' := fun h => hquote (congrArg some h)
      rw [readAll_cons, read_atField hs hc, readStart_char hc hquote' (Ne.symm hne), addChar]
      split
      · rfl
      · next hroom =>
          have hroom' : 0 < limit := Nat.not_le.mp hroom
          show Reader.readAll limit delimiter ⟨.inField, [c], fields⟩ f = _
          refine readAll_tooLong hf hmem ?_ ?_
          · exact hroom'
          · simpa [Nat.add_comm] using hlimit

/-- A delimiter ends the field before it. -/
theorem read_delimiter (hs : AtField s) (hn : isNewline delimiter = false)
    (hq : f = [] → delimiter ≠ '"') :
    (⟨afterChars s f, f, fields⟩ : Reader).read limit delimiter delimiter =
      .ok ⟨.startField, [], fields ++ [f]⟩ := by
  unfold afterChars
  split
  · next hnil =>
      rw [read_atField hs hn, readStart_delimiter hn (hq hnil)]
      rfl
  · simp [read, hn, saveField]

/-- Fields before delimiters, read as they stand. -/
theorem readAll_fields (hsep : Separates delimiter) (hs : AtField s)
    (hn : ∀ f ∈ fs, ∀ c ∈ f, isNewline c = false) (hd : ∀ f ∈ fs, delimiter ∉ f)
    (hplain : ∀ f ∈ fs, PlainField limit f) :
    ∃ s', AtField s' ∧ (fs ≠ [] → s' = .startField) ∧ (⟨s, [], fields⟩ : Reader).readAll limit
      delimiter (fs.flatMap (· ++ [delimiter])) = .ok ⟨s', [], fields ++ fs⟩ := by
  induction fs generalizing s fields with
  | nil => exact ⟨s, hs, fun h => absurd rfl h, by simp [pure, Except.pure]⟩
  | cons f fs ih =>
      obtain ⟨hf, hfs⟩ := List.forall_mem_cons.mp hn
      obtain ⟨hdf, hdfs⟩ := List.forall_mem_cons.mp hd
      obtain ⟨hpf, hpfs⟩ := List.forall_mem_cons.mp hplain
      obtain ⟨s', hs', hstart, hrest⟩ := @ih (fields ++ [f]) .startField (.inr rfl) hfs hdfs hpfs
      have hstart' : s' = .startField := by
        by_cases hnil : fs = []
        · rw [hnil] at hrest
          simpa [pure, Except.pure, eq_comm] using hrest
        · exact hstart hnil
      refine ⟨s', hs', fun _ => hstart', ?_⟩
      rw [List.flatMap_cons, List.append_assoc, readAll_append, readAll_plain hs hf hdf hpf]
      show Reader.readAll limit delimiter _ ([delimiter] ++ fs.flatMap (· ++ [delimiter])) = _
      rw [List.singleton_append, readAll_cons,
        read_delimiter hs hsep.notNewline fun _ => hsep.notQuote]
      show Reader.readAll limit delimiter _ _ = _
      rw [hrest, List.append_assoc, List.singleton_append]

/-- Line breaks behind a line. -/
theorem readAll_newlines {r : Reader} {e : List Char} (hr : r.state = .eatCrnl)
    (he : ∀ c ∈ e, isNewline c = true) : r.readAll limit delimiter e = .ok r := by
  induction e with
  | nil => rfl
  | cons c e ih =>
      obtain ⟨hc, he⟩ := List.forall_mem_cons.mp he
      rw [readAll_cons, show r.read limit delimiter c = .ok r by simp only [read, hr, hc, if_pos]]
      exact ih he

/-- The end of a line behind a field. -/
theorem readAll_end {e : List Char} (hs : s = .startField ∨ s = .inField)
    (he : ∀ c ∈ e, isNewline c = true) :
    ∃ r, (⟨s, f, fields⟩ : Reader).readAll limit delimiter e = .ok r ∧
      r.endLine = ⟨.startRecord, [], fields ++ [f]⟩ := by
  cases e with
  | nil =>
      refine ⟨_, rfl, ?_⟩
      obtain rfl | rfl := hs <;> rfl
  | cons c e =>
      obtain ⟨hc, he⟩ := List.forall_mem_cons.mp he
      have hread : (⟨s, f, fields⟩ : Reader).read limit delimiter c =
          .ok ⟨.eatCrnl, [], fields ++ [f]⟩ := by
        obtain rfl | rfl := hs
        · simp only [read, readStart, if_pos hc, saveField]
        · simp only [read, if_pos hc, saveField]
      rw [readAll_cons, hread]
      exact ⟨_, readAll_newlines rfl he, rfl⟩

end Reader

end Plain

/-! ## Fields that come out changed -/

section Astray

variable {limit k n : Nat} {delimiter c : Char} {f cs : List Char} {r r' : Reader}
variable {ls : List (List Char)} {rs : List Record}

/-- The reader is inside a field. -/
def Inside (s : ReadState) : Prop :=
  s = .inField ∨ s = .inQuotedField ∨ s = .quoteInQuotedField

/-- Field `k` of the present record will not be `f`: it is another text already, or it has
begun otherwise. -/
def Astray (k : Nat) (f : List Char) (r : Reader) : Prop :=
  (∃ x, r.fields[k]? = some x ∧ x ≠ f) ∨
    (r.fields.length = k ∧ ¬ r.field <+: f ∧ Inside r.state)

/-- A record is read, if any, and its field `k` is not `f`. -/
def FirstDiffers (k : Nat) (f : List Char) (rs : List Record) : Prop :=
  ∀ first ∈ rs.head?, ∃ x, first.fields[k]? = some x ∧ x ≠ f

theorem Astray.saveField (h : Astray k f r) (next : ReadState) : Astray k f (r.saveField next) := by
  obtain ⟨x, hx, hne⟩ | ⟨hlength, hpre, -⟩ := h
  · refine .inl ⟨x, ?_, hne⟩
    show (r.fields ++ [r.field])[k]? = some x
    rw [List.getElem?_append_left (List.getElem?_eq_some_iff.mp hx).1, hx]
  · refine .inl ⟨r.field, ?_, fun h => hpre (h ▸ List.prefix_refl f)⟩
    show (r.fields ++ [r.field])[k]? = some r.field
    rw [← hlength, List.getElem?_concat_length]

theorem Astray.addChar (h : Astray k f r) {next : ReadState} (hnext : Inside next)
    (hr : r.addChar limit c next = .ok r') : Astray k f r' := by
  unfold Reader.addChar at hr
  split at hr
  · cases hr
  · cases hr
    obtain hx | ⟨hlength, hpre, -⟩ := h
    · exact .inl hx
    · exact .inr ⟨hlength, fun hlonger => hpre ((List.prefix_append _ _).trans hlonger), hnext⟩

/-- The reader stands elsewhere, with the same fields. -/
theorem Astray.turn (h : Astray k f r) {next : ReadState} (hnext : Inside next ∨ ¬ Inside r.state) :
    Astray k f { r with state := next } := by
  obtain hx | ⟨hlength, hpre, hinside⟩ := h
  · exact .inl hx
  · exact .inr ⟨hlength, hpre, hnext.resolve_right (not_not_intro hinside)⟩

theorem Astray.readStart (h : Astray k f r) (hr : r.readStart limit delimiter c = .ok r') :
    Astray k f r' := by
  unfold Reader.readStart at hr
  split_ifs at hr
  · cases hr
    exact h.saveField _
  · cases hr
    exact h.turn (.inl (.inr (.inl rfl)))
  · cases hr
    exact h.saveField _
  · exact h.addChar (.inl rfl) hr

/-- No character repairs the record. -/
theorem Astray.read (h : Astray k f r) (hr : r.read limit delimiter c = .ok r') :
    Astray k f r' := by
  unfold Reader.read at hr
  split at hr
  · next hstate =>
      split_ifs at hr
      · cases hr
        exact h.turn (.inr (by simp [hstate, Inside]))
      · exact h.readStart hr
  · exact h.readStart hr
  · split_ifs at hr
    · cases hr
      exact h.saveField _
    · cases hr
      exact h.saveField _
    · exact h.addChar (.inl rfl) hr
  · split_ifs at hr
    · cases hr
      exact h.turn (.inl (.inr (.inr rfl)))
    · exact h.addChar (.inr (.inl rfl)) hr
  · split_ifs at hr
    · exact h.addChar (.inr (.inl rfl)) hr
    · cases hr
      exact h.saveField _
    · cases hr
      exact h.saveField _
    · exact h.addChar (.inl rfl) hr
  · split_ifs at hr
    cases hr
    exact h

theorem Astray.readAll (h : Astray k f r) (hr : r.readAll limit delimiter cs = .ok r') :
    Astray k f r' := by
  induction cs generalizing r with
  | nil =>
      cases hr
      exact h
  | cons c cs ih =>
      rw [readAll_cons] at hr
      cases hread : r.read limit delimiter c with
      | error e =>
          rw [hread] at hr
          cases hr
      | ok r₁ =>
          rw [hread] at hr
          exact ih (h.read hread) hr

theorem Astray.endLine (h : Astray k f r) : Astray k f r.endLine := by
  unfold Reader.endLine
  split
  · exact h
  · exact h.saveField _
  · exact h.saveField _
  · exact h.saveField _
  · exact h
  · next hstate => exact h.turn (.inr (by simp [hstate, Inside]))

theorem Astray.differs (h : Astray k f r) (hs : r.state = .startRecord) {taken : Nat} :
    FirstDiffers k f (⟨r.fields, taken⟩ :: rs) := by
  rintro first ⟨⟩
  obtain hx | ⟨-, -, hinside⟩ := h
  · exact hx
  · rw [hs] at hinside
    simp [Inside] at hinside

/-- At the end of a line the record ends, or goes on. -/
theorem Astray.ends {taken : Nat} (h : Astray k f r)
    (hmore : ∀ {r : Reader} {taken : Nat}, Astray k f r →
      records limit delimiter r taken ls = .ok rs → FirstDiffers k f rs)
    (hrs : afterLine limit delimiter r taken ls = .ok rs) : FirstDiffers k f rs := by
  unfold afterLine at hrs
  split at hrs
  · next hstart =>
      cases hrest : records limit delimiter .fresh 0 ls with
      | error e =>
          rw [hrest] at hrs
          cases hrs
      | ok more =>
          rw [hrest] at hrs
          cases hrs
          exact h.endLine.differs hstart
  · exact hmore h.endLine hrs

/-- The record of an astray reader differs, wherever it ends. -/
theorem Astray.records {taken : Nat} (h : Astray k f r)
    (hrs : records limit delimiter r taken ls = .ok rs) : FirstDiffers k f rs := by
  induction ls generalizing r taken with
  | nil =>
      unfold Csv.records at hrs
      split at hrs
      · cases hrs
        exact (h.saveField .startRecord).differs rfl
      · cases hrs
        rintro first ⟨⟩
  | cons line rest ih =>
      unfold Csv.records at hrs
      cases hread : r.readAll limit delimiter line with
      | error e =>
          rw [hread] at hrs
          cases hrs
      | ok r₁ =>
          rw [hread] at hrs
          exact (h.readAll hread).ends ih hrs

theorem Astray.afterLine {taken : Nat} (h : Astray k f r)
    (hrs : afterLine limit delimiter r taken ls = .ok rs) : FirstDiffers k f rs :=
  h.ends (fun h hrs => h.records hrs) hrs

end Astray

/-! ## Fields that begin with a quote -/

section Quoted

variable {limit k n : Nat} {delimiter c : Char} {f g cs : List Char} {r r' : Reader}
variable {rs : List Record}

/-- Inside a field that begins with a quote, `n` quotes have been read and fewer are kept. -/
structure Lags (k n : Nat) (r : Reader) : Prop where
  quoted : r.state = .inQuotedField ∨ r.state = .quoteInQuotedField
  length : r.fields.length = k
  fewer : ∃ m < n, r.field = List.replicate m '"'

/-- One more quote, and the reader still lags. -/
theorem Lags.quote (h : Lags k n r) (hr : r.read limit delimiter '"' = .ok r') :
    Lags k (n + 1) r' := by
  obtain ⟨hquoted, hlength, m, hm, hfield⟩ := h
  unfold Reader.read at hr
  obtain hstate | hstate := hquoted
  · simp only [hstate, if_pos] at hr
    cases hr
    exact ⟨.inr rfl, hlength, m, Nat.lt_succ_of_lt hm, hfield⟩
  · simp only [hstate, if_pos, Reader.addChar] at hr
    split at hr
    · cases hr
    · cases hr
      refine ⟨.inl rfl, hlength, m + 1, Nat.succ_lt_succ hm, ?_⟩
      rw [hfield, List.replicate_succ']

/-- A field that ends, or goes on with another character, has too few quotes at its front. -/
theorem Lags.fewer_quotes {m : Nat} (hm : m < n) (hf : List.replicate n '"' <+: f) :
    List.replicate m '"' ≠ f ∧ (c ≠ '"' → ¬ List.replicate m '"' ++ [c] <+: f) := by
  constructor
  · intro h
    have hlength := hf.length_le
    rw [← h, List.length_replicate, List.length_replicate] at hlength
    omega
  · intro hc hpre
    have hat : f[m]? = some c := by
      rw [List.prefix_iff_getElem?.mp hpre m (by simp)]
      simp
    have hquote : f[m]? = some '"' := by
      rw [List.prefix_iff_getElem?.mp hf m (by simpa using hm)]
      simp
    rw [hat] at hquote
    exact hc (Option.some.inj hquote)

theorem Lags.other (h : Lags k n r) (hf : List.replicate n '"' <+: f) (hc : c ≠ '"')
    (hr : r.read limit delimiter c = .ok r') : Astray k f r' := by
  obtain ⟨hquoted, hlength, m, hm, hfield⟩ := h
  obtain ⟨hne, hpre⟩ := @Lags.fewer_quotes n c f m hm hf
  have hadd : ∀ {next : ReadState}, Inside next → r.addChar limit c next = .ok r' →
      Astray k f r' := by
    intro next hnext hr
    unfold Reader.addChar at hr
    split at hr
    · cases hr
    · cases hr
      exact .inr ⟨hlength, by rw [hfield]; exact hpre hc, hnext⟩
  have hsave : ∀ next, Astray k f (r.saveField next) := by
    intro next
    refine .inl ⟨r.field, ?_, by rw [hfield]; exact hne⟩
    show (r.fields ++ [r.field])[k]? = some r.field
    rw [← hlength, List.getElem?_concat_length]
  unfold Reader.read at hr
  obtain hstate | hstate := hquoted
  · simp only [hstate, if_neg hc] at hr
    exact hadd (.inr (.inl rfl)) hr
  · simp only [hstate, if_neg hc] at hr
    split_ifs at hr
    · cases hr
      exact hsave _
    · cases hr
      exact hsave _
    · exact hadd (.inl rfl) hr

/-- The rest of the field: the record is astray, or the field has quotes only. -/
theorem Lags.readAll (h : Lags k n r) (hr : r.readAll limit delimiter g = .ok r') :
    Astray k (List.replicate n '"' ++ g) r' ∨
      (Lags k (n + g.length) r' ∧ g = List.replicate g.length '"') := by
  induction g generalizing n r with
  | nil =>
      cases hr
      exact .inr ⟨h, rfl⟩
  | cons c g ih =>
      rw [readAll_cons] at hr
      cases hread : r.read limit delimiter c with
      | error e =>
          rw [hread] at hr
          cases hr
      | ok r₁ =>
          rw [hread] at hr
          by_cases hc : c = '"'
          · subst hc
            obtain hastray | ⟨hlags, hg⟩ := ih (h.quote hread) hr
            · rw [List.replicate_succ', List.append_assoc, List.singleton_append] at hastray
              exact .inl hastray
            · refine .inr ⟨?_, ?_⟩
              · rw [List.length_cons, Nat.add_comm g.length 1, ← Nat.add_assoc]
                exact hlags
              · rw [List.length_cons, List.replicate_succ, ← hg]
          · exact .inl ((h.other (List.prefix_append _ _) hc hread).readAll hr)

/-- Where the text ends behind a lagging reader, the field is kept with too few quotes. -/
theorem Lags.last (h : Lags k n r) {taken : Nat}
    (hrs : afterLine limit delimiter r taken [] = .ok rs) :
    FirstDiffers k (List.replicate n '"') rs := by
  obtain ⟨hquoted, hlength, m, hm, hfield⟩ := h
  have hne : r.field ≠ List.replicate n '"' := by
    rw [hfield]
    exact (@Lags.fewer_quotes n 'a' _ m hm (List.prefix_refl _)).1
  have hkept : (r.fields ++ [r.field])[k]? = some r.field := by
    rw [← hlength, List.getElem?_concat_length]
  obtain hstate | hstate := hquoted
  · simp only [afterLine, Reader.endLine, hstate, reduceCtorEq, if_false, records, true_or,
      if_true] at hrs
    cases hrs
    rintro first ⟨⟩
    exact ⟨r.field, hkept, hne⟩
  · simp only [afterLine, Reader.endLine, hstate, Reader.saveField, if_true] at hrs
    cases hrs
    rintro first ⟨⟩
    exact ⟨r.field, hkept, hne⟩

end Quoted

/-! ## Lines -/

section Lines

variable {limit taken : Nat} {delimiter separator c : Char} {f line cs : List Char}
variable {fs before after : List (List Char)} {rest ls : List (List Char)} {rs : List Record}

theorem not_mem_of_mem_splitOn (h : f ∈ line.splitOn delimiter) : delimiter ∉ f := by
  induction line generalizing f with
  | nil =>
      rw [List.splitOn_nil, List.mem_singleton] at h
      subst h
      exact List.not_mem_nil
  | cons c cs ih =>
      rw [List.splitOn_cons_eq_if_modifyHead] at h
      split at h
      · obtain rfl | h := List.mem_cons.mp h
        · exact List.not_mem_nil
        · exact ih h
      · next hc =>
          obtain ⟨first, more, hsplit⟩ := List.exists_cons_of_ne_nil (List.splitOn_ne_nil delimiter cs)
          rw [hsplit] at h ih
          obtain rfl | h := List.mem_cons.mp h
          · refine List.not_mem_cons_of_ne_of_not_mem (fun heq => hc (by simp [heq])) ?_
            exact ih List.mem_cons_self
          · exact ih (List.mem_cons_of_mem _ h)

theorem intercalate_cons :
    [delimiter].intercalate (f :: after) = f ++ after.flatMap (delimiter :: ·) := by
  induction after generalizing f with
  | nil => simp
  | cons g after ih =>
      rw [List.intercalate_cons_cons, ih]
      simp

theorem intercalate_append :
    [delimiter].intercalate (before ++ f :: after) =
      before.flatMap (· ++ [delimiter]) ++ (f ++ after.flatMap (delimiter :: ·)) := by
  induction before with
  | nil => exact intercalate_cons
  | cons g before ih =>
      obtain ⟨h, more, hmore⟩ : ∃ h more, before ++ f :: after = h :: more :=
        List.exists_cons_of_ne_nil (by simp)
      rw [List.cons_append, hmore, List.intercalate_cons_cons, ← hmore, ih]
      simp

theorem intercalate_fieldsOf : [delimiter].intercalate (fieldsOf delimiter line) = content line :=
  List.intercalate_splitOn delimiter

/-- A line around one of its fields. -/
theorem line_around (h : fieldsOf delimiter line = before ++ f :: after) :
    line = before.flatMap (· ++ [delimiter]) ++ (f ++ (after.flatMap (delimiter :: ·) ++
      line.dropWhile fun c => !isNewline c)) := by
  have hcontent : content line = before.flatMap (· ++ [delimiter]) ++
      (f ++ after.flatMap (delimiter :: ·)) := by
    rw [← intercalate_append, ← h, intercalate_fieldsOf]
  conv_lhs => rw [← @List.takeWhile_append_dropWhile _ (fun c => !isNewline c) line]
  rw [show line.takeWhile (fun c => !isNewline c) = _ from hcontent]
  simp only [List.append_assoc]

theorem content_clean (h : c ∈ content line) : isNewline c = false := by
  simpa using List.mem_takeWhile_imp h

theorem fieldsOf_clean (hf : f ∈ fieldsOf delimiter line) : ∀ c ∈ f, isNewline c = false := by
  intro c hc
  refine @content_clean c line ?_
  obtain ⟨before, after, hsplit⟩ := List.append_of_mem hf
  rw [← @intercalate_fieldsOf delimiter line, hsplit, intercalate_append]
  simp [hc]

/-- A line of plain fields is read as its fields. -/
theorem readAll_line (hsep : Separates delimiter) (hwhole : Whole line) (hne : content line ≠ [])
    (hplain : ∀ f ∈ fieldsOf delimiter line, PlainField limit f) :
    ∃ r, Reader.fresh.readAll limit delimiter line = .ok r ∧
      r.endLine = ⟨.startRecord, [], fieldsOf delimiter line⟩ := by
  obtain ⟨init, last, hfields⟩ : ∃ init last, fieldsOf delimiter line = init ++ [last] :=
    ⟨_, _, (List.dropLast_concat_getLast (List.splitOn_ne_nil delimiter (content line))).symm⟩
  have hclean := fun f (hf : f ∈ init ++ [last]) => @fieldsOf_clean delimiter f line (hfields ▸ hf)
  have hfree := fun f (hf : f ∈ init ++ [last]) =>
    @not_mem_of_mem_splitOn delimiter f (content line)
      (show f ∈ fieldsOf delimiter line from hfields ▸ hf)
  rw [hfields] at hplain
  obtain ⟨hplain', hlast⟩ := List.forall_mem_append.mp hplain
  obtain ⟨hclean', hlast'⟩ := List.forall_mem_append.mp hclean
  obtain ⟨hfree', hlast''⟩ := List.forall_mem_append.mp hfree
  obtain ⟨s, hs, hstart, hinit⟩ := @Reader.readAll_fields limit delimiter [] init .startRecord hsep
    (.inl rfl) hclean' hfree' hplain'
  have hread := @Reader.readAll_plain limit delimiter last init s hs (hlast' last (by simp))
    (hlast'' last (by simp)) (hlast last (by simp))
  have hstands : Reader.afterChars s last = .startField ∨ Reader.afterChars s last = .inField := by
    unfold Reader.afterChars
    split
    · next hnil =>
        refine .inl (hstart fun hinit => hne ?_)
        rw [← @intercalate_fieldsOf delimiter line, hfields, hinit, hnil]
        rfl
    · exact .inr rfl
  obtain ⟨r, hend, hrecord⟩ := @Reader.readAll_end limit delimiter last init _ _ hstands hwhole
  refine ⟨r, ?_, by rw [hrecord, hfields]⟩
  rw [line_around (hfields.trans rfl), readAll_append]
  show (Reader.readAll limit delimiter ⟨.startRecord, [], []⟩ _ >>= _) = _
  rw [hinit]
  show Reader.readAll limit delimiter ⟨s, [], [] ++ init⟩ (last ++ ([] ++ _)) = _
  rw [List.nil_append, List.nil_append, readAll_append, hread]
  exact hend

/-- The characters of a line that have been read, and those to come. -/
theorem records_cons_ok {line' : List Char} {r : Reader} (hline : line = line' ++ cs)
    (hread : Reader.fresh.readAll limit delimiter line' = .ok r)
    (hrs : records limit delimiter .fresh 0 (line :: rest) = .ok rs) :
    ∃ r', r.readAll limit delimiter cs = .ok r' ∧ afterLine limit delimiter r' 0 rest = .ok rs := by
  rw [records, hline, readAll_append, hread] at hrs
  cases hcs : r.readAll limit delimiter cs with
  | error e =>
      change (Reader.readAll limit delimiter r cs >>= _) = _ at hrs
      rw [hcs] at hrs
      cases hrs
  | ok r' =>
      change (Reader.readAll limit delimiter r cs >>= _) = _ at hrs
      rw [hcs] at hrs
      exact ⟨r', rfl, hrs⟩

/-- A field that begins with a quote comes out changed, whatever follows it. -/
theorem quoted_differs {s : ReadState} {r : Reader} {g : List Char} (hs : Reader.AtField s)
    (hnext : ∀ c ∈ cs.head?, c ≠ '"') (hlast : cs = [] → rest = [])
    (hread : (⟨s, [], before⟩ : Reader).readAll limit delimiter ('"' :: g ++ cs) = .ok r)
    (hrs : afterLine limit delimiter r 0 rest = .ok rs) :
    FirstDiffers before.length ('"' :: g) rs := by
  rw [List.cons_append, readAll_cons, Reader.read_atField hs (by decide), Reader.readStart_quote]
    at hread
  change Reader.readAll limit delimiter ⟨.inQuotedField, [], before⟩ (g ++ cs) = _ at hread
  rw [readAll_append] at hread
  have hlags : Lags before.length 1 ⟨.inQuotedField, [], before⟩ :=
    ⟨.inl rfl, rfl, 0, Nat.one_pos, rfl⟩
  cases hg : Reader.readAll limit delimiter ⟨.inQuotedField, [], before⟩ g with
  | error e =>
      rw [hg] at hread
      cases hread
  | ok r₁ =>
      rw [hg] at hread
      change Reader.readAll limit delimiter r₁ cs = _ at hread
      obtain hastray | ⟨hlags', hquotes⟩ := hlags.readAll hg
      · exact (hastray.readAll hread).afterLine hrs
      · have hall : '"' :: g = List.replicate (1 + g.length) '"' := by
          rw [Nat.add_comm, List.replicate_succ, ← hquotes]
        rw [hall]
        cases cs with
        | nil =>
            cases hread
            rw [hlast rfl] at hrs
            exact hlags'.last hrs
        | cons c cs =>
            rw [readAll_cons] at hread
            cases hc : r₁.read limit delimiter c with
            | error e =>
                rw [hc] at hread
                cases hread
            | ok r₂ =>
                rw [hc] at hread
                have hastray := hlags'.other (List.prefix_refl _) (hnext c rfl) hc
                exact (hastray.readAll hread).afterLine hrs

/-- Behind a field stands a delimiter or the end of the line. -/
theorem next_not_quote (hsep : separator ≠ '"') (hwhole : Whole line) :
    ∀ c ∈ (after.flatMap (separator :: ·) ++ line.dropWhile fun c => !isNewline c).head?,
      c ≠ '"' := by
  intro c hc
  cases after with
  | nil =>
      have hend : c ∈ line.dropWhile fun c => !isNewline c := List.mem_of_mem_head? hc
      rintro rfl
      exact Bool.false_ne_true (hwhole _ hend)
  | cons g after =>
      have hc : c = separator := by simpa [eq_comm] using hc
      exact hc ▸ hsep

/-- Where nothing stands behind a field, the line is the last one. -/
theorem last_of_nil (hlined : Lined (line :: rest))
    (hnil : after.flatMap (separator :: ·) ++ line.dropWhile (fun c => !isNewline c) = []) :
    rest = [] := by
  by_contra hne
  have hend := (List.append_eq_nil_iff.mp hnil).2
  have hlast := List.mem_of_getLast? (hlined.2.1 hne)
  have hnew := List.dropWhile_eq_nil_iff.mp hend '\n' hlast
  cases hnew

/-- A line with a field that is not plain is not read as its fields. -/
theorem bad_line (hsep : Separates delimiter) (hlined : Lined (line :: rest)) (hwhole : Whole line)
    (hfields : fieldsOf delimiter line = before ++ f :: after)
    (hbefore : ∀ g ∈ before, PlainField limit g) (hf : ¬ PlainField limit f)
    (hrs : records limit delimiter .fresh 0 (line :: rest) = .ok rs) :
    FirstDiffers before.length f rs := by
  have hclean := fun g (hg : g ∈ before ++ f :: after) =>
    @fieldsOf_clean delimiter g line (hfields ▸ hg)
  have hfree := fun g (hg : g ∈ before ++ f :: after) =>
    @not_mem_of_mem_splitOn delimiter g (content line)
      (show g ∈ fieldsOf delimiter line from hfields ▸ hg)
  obtain ⟨hclean', hclean''⟩ := List.forall_mem_append.mp hclean
  obtain ⟨hfree', hfree''⟩ := List.forall_mem_append.mp hfree
  obtain ⟨s, hs, -, hread⟩ := @Reader.readAll_fields limit delimiter [] before .startRecord hsep
    (.inl rfl) hclean' hfree' hbefore
  obtain ⟨r, hr, hafter⟩ := records_cons_ok (line_around hfields) hread hrs
  rw [List.nil_append] at hr
  by_cases hquote : f.head? = some '"'
  · obtain ⟨g, rfl⟩ := List.head?_eq_some_iff.mp hquote
    exact quoted_differs hs (next_not_quote hsep.notQuote hwhole) (last_of_nil hlined) hr hafter
  · have hlong : limit < f.length := Nat.not_le.mp fun hle => hf ⟨hquote, hle⟩
    rw [readAll_append, @Reader.readAll_plain_tooLong limit delimiter f before s hs
      (hclean'' f (by simp)) (hfree'' f (by simp)) hquote hlong] at hr
    cases hr

/-- A line read at another character than its delimiter begins with another field. -/
theorem other_delimiter (hlined : Lined (line :: rest)) (hseparator : Separates separator) (hne : separator ≠ delimiter) (hwhole : Whole line)
    (hfields : fieldsOf separator line = f :: after) (hafter : after ≠ [])
    (hrs : records limit delimiter .fresh 0 (line :: rest) = .ok rs) :
    FirstDiffers 0 f rs := by
  have hclean := @fieldsOf_clean separator f line (hfields ▸ List.mem_cons_self)
  have hline := @line_around separator f line [] after hfields
  rw [List.flatMap_nil, List.nil_append] at hline
  by_cases hquote : f.head? = some '"'
  · obtain ⟨g, rfl⟩ := List.head?_eq_some_iff.mp hquote
    obtain ⟨r, hr, hend⟩ := @records_cons_ok limit delimiter line _ rest rs [] Reader.fresh
      hline rfl hrs
    exact @quoted_differs limit delimiter _ [] rest rs _ r g (.inl rfl)
      (next_not_quote hseparator.notQuote hwhole) (last_of_nil hlined) hr hend
  obtain ⟨next, more, rfl⟩ := List.exists_cons_of_ne_nil hafter
  rw [List.flatMap_cons, List.cons_append, List.cons_append] at hline
  by_cases hmem : delimiter ∈ f
  · -- the field is cut at the first character that the reader takes for a delimiter
    obtain ⟨a, b, rfl, hfree⟩ := List.eq_append_cons_of_mem hmem
    have hcut : ∀ c ∈ a, isNewline c = false := fun c hc => hclean c (by simp [hc])
    have hquote' : a.head? ≠ some '"' := by
      cases a with
      | nil => simp
      | cons c a => exact hquote
    by_cases hshort : a.length ≤ limit
    · rw [List.append_assoc, List.cons_append] at hline
      obtain ⟨r, hr, hend⟩ := records_cons_ok hline
        (@Reader.readAll_plain limit delimiter a [] .startRecord (.inl rfl) hcut hfree
          ⟨hquote', hshort⟩) hrs
      have hcutQuote : a = [] → delimiter ≠ '"' := by
        rintro rfl rfl
        exact hquote rfl
      rw [readAll_cons, Reader.read_delimiter (.inl rfl) (hclean delimiter (by simp)) hcutQuote] at hr
      have hastray : Astray 0 (a ++ delimiter :: b) ⟨.startField, [], [] ++ [a]⟩ :=
        .inl ⟨a, rfl, by simp⟩
      exact (hastray.readAll hr).afterLine hend
    · have hlong := @Reader.readAll_plain_tooLong limit delimiter a [] .startRecord (.inl rfl) hcut
        hfree hquote' (Nat.not_le.mp hshort)
      rw [records, hline, List.append_assoc, readAll_append] at hrs
      change ((Reader.readAll limit delimiter ⟨.startRecord, [], []⟩ a >>= _) >>= _) = _ at hrs
      rw [hlong] at hrs
      cases hrs
  · -- the field runs on over its own delimiter
    by_cases hshort : f.length ≤ limit
    · obtain ⟨r, hr, hend⟩ := records_cons_ok hline
        (@Reader.readAll_plain limit delimiter f [] .startRecord (.inl rfl) hclean hmem
          ⟨hquote, hshort⟩) hrs
      rw [readAll_cons] at hr
      have hread : (⟨Reader.afterChars .startRecord f, f, []⟩ : Reader).read limit delimiter separator =
          (⟨Reader.afterChars .startRecord f, f, []⟩ : Reader).addChar limit separator .inField := by
        unfold Reader.afterChars
        split
        · rw [Reader.read_atField (.inl rfl) hseparator.notNewline,
            Reader.readStart_char hseparator.notNewline hseparator.notQuote hne]
        · exact Reader.read_inField hseparator.notNewline hne
      rw [hread] at hr
      unfold Reader.addChar at hr
      split at hr
      · cases hr
      · have hastray : Astray 0 f ⟨.inField, f ++ [separator], []⟩ := by
          refine .inr ⟨rfl, fun hpre => ?_, .inl rfl⟩
          have hlength := hpre.length_le
          rw [List.length_append, List.length_singleton] at hlength
          omega
        exact (hastray.readAll hr).afterLine hend
    · have hlong := @Reader.readAll_plain_tooLong limit delimiter f [] .startRecord (.inl rfl) hclean
        hmem hquote (Nat.not_le.mp hshort)
      rw [records, hline, readAll_append] at hrs
      change ((Reader.readAll limit delimiter ⟨.startRecord, [], []⟩ f >>= _) >>= _) = _ at hrs
      rw [hlong] at hrs
      cases hrs

/-! ## The law -/

/-- An empty line is read as a blank row. -/
theorem readAll_blank (hwhole : Whole line) (hne : line ≠ []) (hblank : content line = []) :
    ∃ r, Reader.fresh.readAll limit delimiter line = .ok r ∧ r.endLine = .fresh := by
  cases line with
  | nil => exact absurd rfl hne
  | cons c cs =>
      have hc : isNewline c = true := by
        simpa using List.takeWhile_eq_nil_iff.mp hblank (Nat.succ_pos _)
      have hend : ∀ d ∈ cs, isNewline d = true := by
        intro d hd
        refine hwhole d ?_
        rw [List.dropWhile_cons_of_neg (by simp [hc])]
        exact List.mem_cons_of_mem c hd
      refine ⟨⟨.eatCrnl, [], []⟩, ?_, rfl⟩
      rw [readAll_cons, show Reader.fresh.read limit delimiter c = .ok ⟨.eatCrnl, [], []⟩ by
        simp [Reader.read, Reader.fresh, hc]]
      exact Reader.readAll_newlines rfl hend

/-- A record that takes one line. -/
theorem records_line {r : Reader} (hread : Reader.fresh.readAll limit delimiter line = .ok r)
    (hend : r.endLine = ⟨.startRecord, [], fs⟩) :
    records limit delimiter .fresh 0 (line :: rest) =
      (records limit delimiter .fresh 0 rest).map (⟨fs, 1⟩ :: ·) := by
  rw [records, hread]
  show (if r.endLine.state = .startRecord then _ else _) = _
  rw [hend, if_pos rfl]
  cases records limit delimiter .fresh 0 rest <;> rfl

theorem fieldsOf_ne_nil : fieldsOf delimiter line ≠ [] := List.splitOn_ne_nil delimiter _

theorem FirstDiffers.ne {first : Record} {more : List Record}
    (h : FirstDiffers before.length f (first :: more)) :
    first.fields ≠ before ++ f :: after ∧ first.fields ≠ [] := by
  obtain ⟨x, hx, hne⟩ := h first rfl
  constructor
  · intro hfields
    rw [hfields, List.getElem?_append_right (Nat.le_refl _), Nat.sub_self] at hx
    exact hne (Option.some.inj hx).symm
  · intro hnil
    rw [hnil] at hx
    cases hx

/-- Where a line has a field that is not plain, the first record is another row. -/
theorem first_ne {first : Record} {more : List Record} (hsep : Separates delimiter)
    (hlined : Lined (line :: rest)) (hwhole : Whole line)
    (hplain : ¬ ∀ f ∈ fieldsOf delimiter line, PlainField limit f)
    (hrs : records limit delimiter .fresh 0 (line :: rest) = .ok (first :: more)) :
    first.fields ≠ fieldsOf delimiter line ∧ first.fields ≠ [] := by
  -- the first field that is not plain comes out changed
  obtain ⟨f, hfound⟩ : ∃ f, (fieldsOf delimiter line).find?
      (fun f => decide (¬ PlainField limit f)) = some f := by
    rw [← Option.isSome_iff_exists, List.find?_isSome]
    simpa using hplain
  obtain ⟨hf, before, after, hfields, hbefore⟩ := List.find?_eq_some_iff_append.mp hfound
  have hdiffers := bad_line hsep hlined hwhole hfields (by simpa using hbefore)
    (of_decide_eq_true hf) hrs
  rw [hfields]
  exact hdiffers.ne

/-- A text is read line by line exactly if all its fields are plain. -/
theorem rows_eq_iff (hsep : Separates delimiter) (hlined : Lined ls)
    (hwhole : ∀ line ∈ ls, Whole line) :
    (∃ rs, records limit delimiter .fresh 0 ls = .ok rs ∧ rows rs = ownRows delimiter ls) ↔
      ∀ line ∈ ls, ∀ f ∈ fieldsOf delimiter line, PlainField limit f := by
  induction ls with
  | nil => simp [records, Reader.fresh, rows, ownRows]
  | cons line rest ih =>
      obtain ⟨hline, hrest⟩ := List.forall_mem_cons.mp hwhole
      have hrests := ih hlined.2.2 hrest
      rw [List.forall_mem_cons, ← hrests]
      by_cases hblank : content line = []
      · -- a blank row is left out on both sides
        obtain ⟨r, hread, hend⟩ := @readAll_blank limit delimiter line hline hlined.1 hblank
        have hplain : ∀ f ∈ fieldsOf delimiter line, PlainField limit f := by
          rw [fieldsOf, hblank, List.splitOn_nil]
          simp [PlainField]
        rw [records_line hread hend]
        cases records limit delimiter .fresh 0 rest with
        | error e => simp [Except.map]
        | ok more => simpa [Except.map, rows, ownRows, hblank] using fun _ => hplain
      · by_cases hplain : ∀ f ∈ fieldsOf delimiter line, PlainField limit f
        · obtain ⟨r, hread, hend⟩ := readAll_line hsep hline hblank hplain
          rw [records_line hread hend]
          cases records limit delimiter .fresh 0 rest with
          | error e => simp [Except.map]
          | ok more =>
              simpa [Except.map, rows, ownRows, hblank, fieldsOf_ne_nil] using fun _ => hplain
        · refine iff_of_false ?_ fun h => hplain h.1
          rintro ⟨rs, hrs, hrows⟩
          have hown : ownRows delimiter (line :: rest) =
              fieldsOf delimiter line :: ownRows delimiter rest := by
            simp [ownRows, hblank]
          rw [hown] at hrows
          cases rs with
          | nil => cases hrows
          | cons first more =>
              obtain ⟨hne, hfirst⟩ := first_ne hsep hlined hline hplain hrs
              simp only [rows, List.map_cons, List.filter_cons, decide_eq_true hfirst, if_true] at hrows
              exact hne (List.cons.inj hrows).1

/-- The same with the first line kept apart, as a header is. -/
theorem header_rows_iff (hsep : Separates delimiter) (hlined : Lined (line :: rest))
    (hwhole : ∀ l ∈ line :: rest, Whole l) (hne : content line ≠ []) :
    (∃ first more, records limit delimiter .fresh 0 (line :: rest) = .ok (first :: more) ∧
        first.fields = fieldsOf delimiter line ∧ rows more = ownRows delimiter rest) ↔
      ∀ l ∈ line :: rest, ∀ f ∈ fieldsOf delimiter l, PlainField limit f := by
  obtain ⟨hline, hrest⟩ := List.forall_mem_cons.mp hwhole
  rw [List.forall_mem_cons, ← rows_eq_iff hsep hlined.2.2 hrest]
  by_cases hplain : ∀ f ∈ fieldsOf delimiter line, PlainField limit f
  · obtain ⟨r, hread, hend⟩ := readAll_line hsep hline hne hplain
    rw [records_line hread hend]
    cases records limit delimiter .fresh 0 rest with
    | error e => simp [Except.map]
    | ok more => simpa [Except.map] using fun _ => hplain
  · refine iff_of_false ?_ fun h => hplain h.1
    rintro ⟨first, more, hrs, hfirst, -⟩
    exact (first_ne hsep hlined hline hplain hrs).1 hfirst

end Lines

end Csv

end CfdiVault
