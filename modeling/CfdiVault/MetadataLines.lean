import CfdiVault.MetadataParser
import CfdiVault.Library.CsvLines
import CfdiVault.SatRequestBuilders

/-!
# Lines and rows of a metadata file

A SAT TXT file has one row in each line, its values between `~` or `|`.  The parser reads
it with the quoting rules of CSV, so a row is a line only where no value begins with a
quote (`readLineByLine_iff`).

The rows are numbered as they come from the reader, which has passed over blank lines and
joined lines by then.  `lineNumbers_eq_iff` says when the number of a refused row is the
line it starts on.
-/

namespace CfdiVault

namespace Metadata

theorem fieldTexts_injective : Function.Injective fieldTexts :=
  List.map_injective_iff.mpr fun _ _ h => String.ofList_injective h

/-! ## One row for each line -/

section LineByLine

variable (rt : Runtime) (printable : Char → Bool)

/-- The column names of a text: the fields of its first line. -/
def ownNames (d : Char) (text : String) : List String :=
  fieldTexts (Csv.fieldsOf d ((Csv.lines text.toList).headD []))

/-- The fields of its other lines, the empty ones left out. -/
def ownRows (d : Char) (text : String) : List (List String) :=
  (Csv.ownRows d (Csv.lines text.toList).tail).map fieldTexts

/-- Every data line that is not empty is one row with the values between its delimiters,
and the answer has its entry or its refusal, in the order of the lines. -/
structure ReadLineByLine (d : Char) (text : String) (content : Bytes) (delimiter : Option String)
    (sourcePackageId : String) : Prop where
  rows : ∃ records, readRecords content delimiter = .ok records ∧
    dictReader records = (ownNames d text, ownRows d text)
  answer : ∃ result, parseMetadataBytes rt printable content delimiter sourcePackageId = .ok result ∧
    result.entries = (outcomes rt printable (ownNames d text) sourcePackageId 2
      (ownRows d text)).filterMap Except.toOption ∧
    result.invalidRows = (outcomes rt printable (ownNames d text) sourcePackageId 2
      (ownRows d text)).filterMap refusal?

variable {rt printable} {content : Bytes} {text : String} {delimiter : Option String}
variable {sourcePackageId : String} {d : Char}

theorem readRecords_eq (htext : Utf8.decodeSig? content = some text) {e : Char}
    (he : delimiterOf delimiter text.toList = .ok e) :
    readRecords content delimiter =
      (Csv.readText fieldSizeLimit e text.toList).mapError .csv := by
  simp only [readRecords, htext, he]
  rfl

/-- The records of a text that is given by its characters. -/
theorem readRecords_ofList {cs : List Char} {e : Char} {records : List Csv.Record}
    (hhead : (cs.flatMap String.utf8EncodeChar).head? ≠ some 0xEF) (he : delimiterOf none cs = .ok e)
    (hread : Csv.readText fieldSizeLimit e cs = .ok records) :
    readRecords (Utf8.encode (String.ofList cs)) none = .ok records := by
  have htext : Utf8.decodeSig? (Utf8.encode (String.ofList cs)) = some (String.ofList cs) := by
    refine Utf8.decodeSig?_encode ?_
    rw [Utf8.encode, String.toList_ofList]
    exact hhead
  rw [readRecords_eq htext (by rw [String.toList_ofList]; exact he), String.toList_ofList, hread]
  rfl

theorem separates_tildeOrPipe (hd : d = '~' ∨ d = '|') : Csv.Separates d := by
  obtain rfl | rfl := hd
  · exact ⟨by decide, by decide⟩
  · exact ⟨by decide, by decide⟩

theorem dictReader_rows {first : Csv.Record} {more : List Csv.Record} :
    dictReader (first :: more) = (fieldTexts first.fields, (Csv.rows more).map fieldTexts) := by
  rw [dictReader, Csv.rows, List.filter_map, List.map_map]
  rfl

/-- The answer follows from the rows. -/
theorem readLineByLine_iff_rows :
    ReadLineByLine rt printable d text content delimiter sourcePackageId ↔
      ∃ records, readRecords content delimiter = .ok records ∧
        dictReader records = (ownNames d text, ownRows d text) := by
  refine ⟨ReadLineByLine.rows, fun h => ⟨h, ?_⟩⟩
  obtain ⟨records, hrecords, hrows⟩ := h
  refine ⟨collectRows rt printable (ownNames d text) sourcePackageId 2 (ownRows d text), ?_, ?_⟩
  · rw [parseMetadataBytes, hrecords]
    show Except.ok (collectRows rt printable (dictReader records).1 sourcePackageId 2
      (dictReader records).2) = _
    rw [hrows]
  · rw [collectRows_eq]
    exact ⟨rfl, rfl⟩

/-- A line with a delimiter has two fields. -/
theorem fieldsOf_two {line : List Char} (h : d ∈ Csv.content line) :
    ∃ f after, Csv.fieldsOf d line = f :: after ∧ after ≠ [] := by
  obtain ⟨a, b, hcontent, hfree⟩ := List.eq_append_cons_of_mem h
  refine ⟨a, b.splitOn d, ?_, List.splitOn_ne_nil d b⟩
  rw [Csv.fieldsOf, hcontent, List.splitOn_append_cons_self_of_not_mem hfree]

/-- Where the rows are the lines, the reader has taken the delimiter of the header. -/
theorem records_of_rows {header : List Char} {rest : List (List Char)} {records : List Csv.Record}
    (hsep : Csv.Separates d) (htext : Utf8.decodeSig? content = some text)
    (hlines : Csv.lines text.toList = header :: rest) (hlined : Csv.Lined (header :: rest))
    (hwhole : Csv.Whole header) (hheader : d ∈ Csv.content header)
    (hrecords : readRecords content delimiter = .ok records)
    (hread : dictReader records =
      (fieldTexts (Csv.fieldsOf d header), (Csv.ownRows d rest).map fieldTexts)) :
    delimiterOf delimiter text.toList = .ok d ∧ ∃ first more,
      Csv.records fieldSizeLimit d .fresh 0 (header :: rest) = .ok (first :: more) ∧
        first.fields = Csv.fieldsOf d header ∧ Csv.rows more = Csv.ownRows d rest := by
  cases he : delimiterOf delimiter text.toList with
  | error e =>
      simp only [readRecords, htext, he] at hrecords
      cases hrecords
  | ok e =>
      rw [readRecords_eq htext he, Csv.readText, hlines] at hrecords
      cases hrs : Csv.records fieldSizeLimit e .fresh 0 (header :: rest) with
      | error error =>
          rw [hrs] at hrecords
          cases hrecords
      | ok rs =>
          rw [hrs] at hrecords
          cases hrecords
          cases records with
          | nil =>
              have hnil : fieldTexts [] = fieldTexts (Csv.fieldsOf d header) :=
                (Prod.ext_iff.mp hread).1
              exact absurd (fieldTexts_injective hnil).symm Csv.fieldsOf_ne_nil
          | cons first more =>
              rw [dictReader_rows] at hread
              have hfirst := fieldTexts_injective (Prod.ext_iff.mp hread).1
              have hmore := List.map_injective_iff.mpr fieldTexts_injective
                (Prod.ext_iff.mp hread).2
              have hed : e = d := by
                by_contra hne
                obtain ⟨f, after, hfields, hafter⟩ := fieldsOf_two hheader
                obtain ⟨x, hx, hxf⟩ := Csv.other_delimiter hlined hsep (Ne.symm hne) hwhole hfields
                  hafter hrs first rfl
                rw [hfirst, hfields] at hx
                exact hxf (Option.some.inj hx).symm
              rw [hed] at hrs ⊢
              exact ⟨rfl, first, more, hrs, hfirst, hmore⟩

/-- A SAT TXT file is read line by line exactly if its delimiter is recognised and no field
begins with a quote or is over the limit of the reader. -/
theorem readLineByLine_iff (hd : d = '~' ∨ d = '|') (htext : Utf8.decodeSig? content = some text)
    (hheader : d ∈ Csv.content ((Csv.lines text.toList).headD []))
    (hwhole : ∀ line ∈ Csv.lines text.toList, Csv.Whole line) :
    ReadLineByLine rt printable d text content delimiter sourcePackageId ↔
      delimiterOf delimiter text.toList = .ok d ∧
        ∀ line ∈ Csv.lines text.toList, ∀ f ∈ Csv.fieldsOf d line,
          Csv.PlainField fieldSizeLimit f := by
  have hsep := separates_tildeOrPipe hd
  have hlined := Csv.lined_lines text.toList
  rw [readLineByLine_iff_rows, ownNames, ownRows]
  cases hlines : Csv.lines text.toList with
  | nil =>
      rw [hlines] at hheader
      cases hheader
  | cons header rest =>
      rw [hlines] at hheader hwhole hlined
      change d ∈ Csv.content header at hheader
      have hne : Csv.content header ≠ [] := List.ne_nil_of_mem hheader
      have hrows := @Csv.header_rows_iff fieldSizeLimit d header rest hsep hlined hwhole hne
      rw [List.headD_cons, List.tail_cons, ← hrows]
      constructor
      · rintro ⟨records, hrecords, hread⟩
        exact records_of_rows hsep htext hlines hlined (hwhole header List.mem_cons_self) hheader
          hrecords hread
      · rintro ⟨he, first, more, hread, hfirst, hmore⟩
        refine ⟨first :: more, ?_, ?_⟩
        · rw [readRecords_eq htext he, Csv.readText, hlines, hread]
          rfl
        · rw [dictReader_rows, hfirst, hmore]

/-! ### A quote in a name -/

section Sample

/-- Two rows, the name in the first with a quote at its front. -/
def quotedRows : String := String.ofList
  ['u', '~', 'n', '\n', 'A', '~', '"', 'x', '\n', 'B', '~', 'y', '\n']

/-- The same rows with the quote inside the name. -/
def plainRows : String := String.ofList
  ['u', '~', 'n', '\n', 'A', '~', 'x', '"', '\n', 'B', '~', 'y', '\n']

theorem readLineByLine_iff_sample :
    ReadLineByLine SatRequest.asciiTables (fun _ => true) '~' plainRows (Utf8.encode plainRows) none
      "" := by
  refine (readLineByLine_iff (.inl rfl) (Utf8.decodeSig?_encode ?_) ?_ ?_).mpr ⟨?_, ?_⟩
  · rw [Utf8.encode, plainRows, String.toList_ofList]
    decide +kernel
  · rw [plainRows, String.toList_ofList]
    decide +kernel
  · rw [plainRows, String.toList_ofList]
    decide +kernel
  · rw [plainRows, String.toList_ofList]
    decide +kernel
  · rw [plainRows, String.toList_ofList]
    decide +kernel

/-- The quoted name swallows the row behind it: one row is read of the two. -/
theorem quoted_name_swallows :
    ¬ ReadLineByLine SatRequest.asciiTables (fun _ => true) '~' quotedRows (Utf8.encode quotedRows)
      none "" := by
  rintro ⟨⟨records, hrecords, hread⟩, -⟩
  have hone : readRecords (Utf8.encode quotedRows) none = .ok
      [⟨[['u'], ['n']], 1⟩, ⟨[['A'], ['x', '\n', 'B', '~', 'y', '\n']], 2⟩] :=
    @readRecords_ofList _ '~' _ (by decide) (by decide) (by decide +kernel)
  rw [hone] at hrecords
  cases hrecords
  have htwo : (ownRows '~' quotedRows).length = 2 := by
    rw [ownRows, quotedRows, String.toList_ofList]
    decide +kernel
  have hrows : _ = ownRows '~' quotedRows := (Prod.ext_iff.mp hread).2
  rw [← hrows] at htwo
  cases htwo

end Sample

end LineByLine

/-! ## The numbers of refused rows -/

section LineNumbers

variable (rt : Runtime) (printable : Char → Bool) (fieldnames : List String) (sourcePackageId : String)

/-- A record that is no blank row, and is refused. -/
def Refused (record : Csv.Record) : Prop :=
  record.fields ≠ [] ∧ (entryFromRow rt
    (normalize printable (dictRow fieldnames (fieldTexts record.fields))) sourcePackageId).toOption = none

instance (record : Csv.Record) : Decidable (Refused rt printable fieldnames sourcePackageId record) := by
  unfold Refused
  infer_instance

/-- The lines on which the refused ones of the given records start. -/
def refusedStarts (records : List (Nat × Csv.Record)) : List Nat :=
  (records.filter fun s => Refused rt printable fieldnames sourcePackageId s.2).map Prod.fst

/-- The rows that are not blank. -/
def rowsOf (records : List Csv.Record) : List (List String) :=
  (records.filter fun r => r.fields ≠ []).map fun r => fieldTexts r.fields

variable {rt printable fieldnames sourcePackageId}

/-- The numbers given to the refused rows. -/
theorem invalidRows_cons {offset : Nat} {record : Csv.Record} {records : List Csv.Record} :
    (collectRows rt printable fieldnames sourcePackageId offset
        (rowsOf (record :: records))).invalidRows.map (·.lineNumber) =
      if record.fields = [] then
        (collectRows rt printable fieldnames sourcePackageId offset
          (rowsOf records)).invalidRows.map (·.lineNumber)
      else
        (if Refused rt printable fieldnames sourcePackageId record then [offset] else []) ++
          (collectRows rt printable fieldnames sourcePackageId (offset + 1)
            (rowsOf records)).invalidRows.map (·.lineNumber) := by
  by_cases hblank : record.fields = []
  · simp [rowsOf, hblank]
  · have hrows : rowsOf (record :: records) = fieldTexts record.fields :: rowsOf records := by
      simp [rowsOf, hblank]
    rw [if_neg hblank, hrows, collectRows]
    cases hentry : entryFromRow rt (normalize printable (dictRow fieldnames
        (fieldTexts record.fields))) sourcePackageId with
    | ok entry => simp [Refused, hentry, Except.toOption]
    | error errors => simp [Refused, hblank, hentry, Except.toOption]

theorem refusedStarts_cons {start : Nat} {record : Csv.Record} {records : List Csv.Record} :
    refusedStarts rt printable fieldnames sourcePackageId (Csv.starts start (record :: records)) =
      (if Refused rt printable fieldnames sourcePackageId record then [start] else []) ++
        refusedStarts rt printable fieldnames sourcePackageId
          (Csv.starts (start + record.lines) records) := by
  rw [refusedStarts, Csv.starts, List.filter_cons]
  by_cases hrefused : Refused rt printable fieldnames sourcePackageId record
  · simp [hrefused, refusedStarts]
  · simp [hrefused, refusedStarts]

/-- From a record on: the number that comes next is at most the line that comes next, and
they stay the same as long as no line is blank and each record takes one. -/
theorem invalidRows_eq_iff {offset start : Nat} {records : List Csv.Record} (hle : offset ≤ start)
    (hpos : ∀ record ∈ records, 0 < record.lines) :
    (collectRows rt printable fieldnames sourcePackageId offset
        (rowsOf records)).invalidRows.map (·.lineNumber) =
        refusedStarts rt printable fieldnames sourcePackageId (Csv.starts start records) ↔
      ∀ i record, records[i]? = some record →
        Refused rt printable fieldnames sourcePackageId record →
        offset = start ∧ ∀ earlier ∈ records.take i, earlier.lines = 1 ∧ earlier.fields ≠ [] := by
  induction records generalizing offset start with
  | nil => simp [rowsOf, collectRows, refusedStarts, Csv.starts]
  | cons record records ih =>
      obtain ⟨hlines, hpos'⟩ := List.forall_mem_cons.mp hpos
      -- the first record, then the others
      have hsplit : ∀ P : Nat → Csv.Record → Prop, (∀ i r, (record :: records)[i]? = some r → P i r) ↔
          P 0 record ∧ ∀ i r, records[i]? = some r → P (i + 1) r := by
        intro P
        constructor
        · exact fun h => ⟨h 0 record rfl, fun i r hr => h (i + 1) r hr⟩
        · rintro ⟨h0, hrest⟩ (_ | i) r hr
          · cases hr
            exact h0
          · exact hrest i r hr
      rw [invalidRows_cons, refusedStarts_cons, hsplit]
      simp only [List.take_zero, List.not_mem_nil, false_implies, implies_true, and_true,
        List.take_succ_cons, List.forall_mem_cons]
      by_cases hblank : record.fields = []
      · -- a blank row takes a line and no number
        have hnot : ¬ Refused rt printable fieldnames sourcePackageId record := fun h => h.1 hblank
        rw [if_pos hblank, if_neg hnot, List.nil_append, ih (by omega) hpos']
        simp only [hnot, false_implies, true_and, hblank, ne_eq, not_true_eq_false, and_false, false_and]
        refine forall₄_congr fun i r hr hrefused => ?_
        exact iff_of_false (fun h => by omega) fun h => h
      · have hnext := @ih (offset + 1) (start + record.lines) (by omega) hpos'
        have hstep : ∀ Q : Prop, (offset + 1 = start + record.lines ∧ Q) ↔
            offset = start ∧ (record.lines = 1 ∧ record.fields ≠ []) ∧ Q := by
          intro Q
          constructor
          · exact fun h => ⟨by omega, ⟨by omega, hblank⟩, h.2⟩
          · exact fun h => ⟨by omega, h.2.2⟩
        simp only [hstep] at hnext
        rw [if_neg hblank]
        by_cases hrefused : Refused rt printable fieldnames sourcePackageId record
        · rw [if_pos hrefused, if_pos hrefused, List.singleton_append, List.singleton_append,
            List.cons_eq_cons, hnext]
          simp only [hrefused, true_implies]
        · rw [if_neg hrefused, if_neg hrefused, List.nil_append, List.nil_append, hnext]
          simp only [hrefused, false_implies, true_and]

theorem readRecords_ok {content : Bytes} {delimiter : Option String} {records : List Csv.Record}
    (h : readRecords content delimiter = .ok records) :
    ∃ text e, Csv.readText fieldSizeLimit e text = .ok records := by
  unfold readRecords at h
  split at h
  · cases h
  · next text _ =>
      cases he : delimiterOf delimiter text.toList with
      | error error =>
          rw [he] at h
          cases h
      | ok e =>
          rw [he] at h
          refine ⟨text.toList, e, ?_⟩
          cases hread : Csv.readText fieldSizeLimit e text.toList with
          | error error =>
              change (Csv.readText fieldSizeLimit e text.toList).mapError _ = _ at h
              rw [hread] at h
              cases h
          | ok read =>
              change (Csv.readText fieldSizeLimit e text.toList).mapError _ = _ at h
              rw [hread] at h
              cases h
              rfl

/-- The numbers of the refused rows are the lines on which they start exactly if no blank
line and no record of several lines stands before one. -/
theorem lineNumbers_eq_iff {content : Bytes} {delimiter : Option String} {records : List Csv.Record}
    {result : Recovery.MetadataParseResult} (hrecords : readRecords content delimiter = .ok records)
    (hresult : parseMetadataBytes rt printable content delimiter sourcePackageId = .ok result) :
    result.invalidRows.map (·.lineNumber) =
        refusedStarts rt printable (dictReader records).1 sourcePackageId
          (Csv.starts 1 records).tail ↔
      ∀ i record, records[i + 1]? = some record →
        Refused rt printable (dictReader records).1 sourcePackageId record →
        (∀ earlier ∈ records.take (i + 1), earlier.lines = 1) ∧
          ∀ earlier ∈ (records.take (i + 1)).tail, earlier.fields ≠ [] := by
  rw [parseMetadataBytes, hrecords] at hresult
  cases hresult
  cases records with
  | nil => simp [dictReader, collectRows, refusedStarts, Csv.starts]
  | cons header records =>
      obtain ⟨text, e, hread⟩ := readRecords_ok hrecords
      obtain ⟨hheader, hpos⟩ := List.forall_mem_cons.mp (Csv.readText_take hread).2
      have hiff := @invalidRows_eq_iff rt printable (fieldTexts header.fields) sourcePackageId 2
        (1 + header.lines) records (by omega) hpos
      refine hiff.trans ?_
      simp only [List.getElem?_cons_succ, List.take_succ_cons, List.tail_cons, List.forall_mem_cons]
      refine forall₄_congr fun i record _ _ => ?_
      rw [forall₂_and, ← and_assoc]
      refine and_congr_left fun _ => and_congr_left fun _ => ?_
      omega

/-! ### A blank line before a bad row -/

section Sample

/-- A bad row on the third line, behind a blank one. -/
def blankLine : String := String.ofList ['u', 'u', 'i', 'd', '\n', '\n', 'x', '\n']

/-- A bad row on the second line. -/
def noBlankLine : String := String.ofList ['u', 'u', 'i', 'd', '\n', 'x', '\n']

/-- With the row on the second line, number and line agree. -/
theorem lineNumbers_eq_iff_sample : ∃ records result,
    readRecords (Utf8.encode noBlankLine) none = .ok records ∧
    parseMetadataBytes SatRequest.asciiTables (fun _ => true) (Utf8.encode noBlankLine) = .ok result ∧
    result.invalidRows.map (·.lineNumber) = refusedStarts SatRequest.asciiTables (fun _ => true)
      (dictReader records).1 "" (Csv.starts 1 records).tail := by
  have hrecords : readRecords (Utf8.encode noBlankLine) none =
      .ok [⟨[['u', 'u', 'i', 'd']], 1⟩, ⟨[['x']], 1⟩] :=
    @readRecords_ofList _ '~' _ (by decide) (by decide) (by decide +kernel)
  refine ⟨_, collectRows SatRequest.asciiTables (fun _ => true) ["uuid"] "" 2 [["x"]], hrecords, ?_, ?_⟩
  · rw [parseMetadataBytes, hrecords]
    rfl
  · refine (lineNumbers_eq_iff hrecords (by rw [parseMetadataBytes, hrecords]; rfl)).mpr ?_
    rintro (_ | i) record hrecord _
    · exact ⟨by simp, by simp⟩
    · simp at hrecord

/-- Behind a blank line, the number of the bad row is one less than its line. -/
theorem blank_line_shifts : ∃ records result,
    readRecords (Utf8.encode blankLine) none = .ok records ∧
    parseMetadataBytes SatRequest.asciiTables (fun _ => true) (Utf8.encode blankLine) = .ok result ∧
    result.invalidRows.map (·.lineNumber) = [2] ∧
    refusedStarts SatRequest.asciiTables (fun _ => true) (dictReader records).1 ""
      (Csv.starts 1 records).tail = [3] := by
  have hrecords : readRecords (Utf8.encode blankLine) none =
      .ok [⟨[['u', 'u', 'i', 'd']], 1⟩, ⟨[], 1⟩, ⟨[['x']], 1⟩] :=
    @readRecords_ofList _ '~' _ (by decide) (by decide) (by decide +kernel)
  refine ⟨_, collectRows SatRequest.asciiTables (fun _ => true) ["uuid"] "" 2 [["x"]], hrecords, ?_, ?_⟩
  · rw [parseMetadataBytes, hrecords]
    rfl
  · exact ⟨by decide +kernel, by decide +kernel⟩

end Sample

end LineNumbers

end Metadata

end CfdiVault
