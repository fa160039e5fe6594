import CfdiVault.MetadataAcceptance
import CfdiVault.RecoveryRuns
import CfdiVault.Library.CsvWriter

/-!
# Replaying the metadata index

The index that the recovery service stores for a request is a metadata file that the parser
reads without refusing a row.  It has no column for the total and none for the names, so the
entries come back with a total of zero and the default names (`parseMetadataBytes_index`),
and an ingestion of the index overwrites the ledger with these.

`replays_iff` says when the index gives back what was written and the ledger stays.
-/

namespace CfdiVault

namespace Decimal

/-- The coefficient with its sign. -/
def signed (negative : Bool) (coefficient : Nat) : Int :=
  if negative then -(coefficient : Int) else coefficient

/-- The same number, whatever the exponents that it is kept with. -/
def Same : Decimal → Decimal → Prop
  | .finite m c e, .finite n d f =>
      signed m c * 10 ^ (e - min e f).toNat = signed n d * 10 ^ (f - min e f).toNat
  | a, b => a = b

theorem Same.refl (a : Decimal) : Same a a := by
  cases a with
  | finite => exact rfl
  | infinite => exact rfl
  | nan => exact rfl

theorem same_zero {a : Decimal} :
    Same a (.finite false 0 0) ↔ ∃ negative exponent, a = .finite negative 0 exponent := by
  cases a with
  | infinite => simp [Same]
  | nan => simp [Same]
  | finite m c e =>
      have hpower : (10 : Int) ^ (e - min e 0).toNat ≠ 0 := pow_ne_zero _ (by decide)
      have hsigned : signed m c = 0 ↔ c = 0 := by
        unfold signed
        split <;> omega
      have hzero : signed false 0 = 0 := rfl
      show signed m c * _ = signed false 0 * _ ↔ _
      rw [hzero, Int.zero_mul, mul_eq_zero, or_iff_left hpower, hsigned]
      constructor
      · rintro rfl
        exact ⟨m, e, rfl⟩
      · rintro ⟨_, _, heq⟩
        cases heq
        rfl

end Decimal

namespace Metadata

open Recovery

/-! ## The text of the index -/

section Index

variable {requestId : String} {packages : List String} {metadata : List MetadataEntry}
variable {entry : MetadataEntry}

theorem toList_csvField (s : String) : (csvField s).toList = Csv.writeField ',' s.toList := by
  have hspecial : (fun c : Char => c == ',' || c == '"' || c == '\r' || c == '\n') = Csv.isSpecial ',' := by
    funext c
    rw [Csv.isSpecial, Csv.isNewline, Bool.or_assoc _ (c == '\r'), Bool.or_comm (c == '\r')]
  unfold csvField Csv.writeField
  rw [hspecial]
  split
  · simp only [String.toList_append, Text.replaceChar, String.toList_ofList]
    rfl
  · rfl

theorem toList_csvLine (fields : List String) :
    (csvLine fields).toList = Csv.writeRow ',' (fields.map String.toList) := by
  have hfields : (fields.map csvField).map String.toList =
      (fields.map String.toList).map (Csv.writeField ',') := by
    rw [List.map_map, List.map_map]
    exact List.map_congr_left fun s _ => toList_csvField s
  rw [csvLine, String.toList_append, String.toList_intercalate, hfields]
  rfl

/-- The columns of the index. -/
def indexColumns : List String :=
  ["idSolicitud", "idPaquete", "uuid", "rfcEmisor", "rfcReceptor", "fechaEmision",
    "estadoComprobante", "tipoComprobante"]

/-- The package that the index names for an entry. -/
def indexPackage (packages : List String) (entry : MetadataEntry) : String :=
  if entry.sourcePackageId = "" then packages.headD "" else entry.sourcePackageId

/-- The fields of an entry in the index. -/
def indexFields (requestId : String) (packages : List String) (entry : MetadataEntry) : List String :=
  [requestId, indexPackage packages entry, entry.uuid, entry.issuerRfc, entry.receiverRfc,
    entry.issueDate.isoformat, entry.status, entry.effect]

def sortedByUuid (metadata : List MetadataEntry) : List MetadataEntry :=
  metadata.insertionSort fun a b => a.uuid ≤ b.uuid

/-- The rows of the index, the one of its columns first. -/
def indexRows (requestId : String) (packages : List String) (metadata : List MetadataEntry) :
    List (List (List Char)) :=
  (indexColumns :: (sortedByUuid metadata).map (indexFields requestId packages)).map
    (·.map String.toList)

theorem metadataCsvBytes_eq : metadataCsvBytes requestId packages metadata =
    Utf8.encode (String.ofList (Csv.writeText ',' (indexRows requestId packages metadata))) := by
  have htext : ∀ rows : List (List String),
      (String.join (rows.map csvLine)).toList = Csv.writeText ',' (rows.map (·.map String.toList)) := by
    intro rows
    rw [String.toList_join, Csv.writeText, List.flatMap_map, List.flatMap_map]
    exact List.flatMap_congr fun fields _ => toList_csvLine fields
  have hrows : metadataCsvBytes requestId packages metadata = utf8 (String.join
      ((indexColumns :: (sortedByUuid metadata).map (indexFields requestId packages)).map csvLine)) := by
    rw [List.map_cons, List.map_map]
    rfl
  rw [hrows, indexRows, ← htext, String.ofList_toList]
  rfl

/-- The text of the index begins with its columns. -/
theorem writeText_index : ∃ rest, Csv.writeText ',' (indexRows requestId packages metadata) =
    ("idSolicitud,idPaquete,uuid,rfcEmisor,rfcReceptor,fechaEmision,estadoComprobante," ++
      "tipoComprobante").toList ++ '\r' :: rest := by
  refine ⟨'\n' :: Csv.writeText ',' (((sortedByUuid metadata).map
    (indexFields requestId packages)).map (·.map String.toList)), ?_⟩
  rw [indexRows, List.map_cons, Csv.writeText, List.flatMap_cons,
    show Csv.writeRow ',' (indexColumns.map String.toList) =
      ("idSolicitud,idPaquete,uuid,rfcEmisor,rfcReceptor,fechaEmision,estadoComprobante," ++
        "tipoComprobante").toList ++ ['\r', '\n'] by decide +kernel,
    List.append_assoc]
  rfl

theorem delimiterOf_index :
    delimiterOf none (Csv.writeText ',' (indexRows requestId packages metadata)) = .ok ',' := by
  obtain ⟨rest, hrest⟩ := @writeText_index requestId packages metadata
  have hplain : ("idSolicitud,idPaquete,uuid,rfcEmisor,rfcReceptor,fechaEmision,estadoComprobante," ++
      "tipoComprobante").toList.all (fun c => !isLineBoundary c) = true := by decide +kernel
  have hfirst : firstLine (Csv.writeText ',' (indexRows requestId packages metadata)) =
      ("idSolicitud,idPaquete,uuid,rfcEmisor,rfcReceptor,fechaEmision,estadoComprobante," ++
        "tipoComprobante").toList := by
    rw [hrest, firstLine, List.takeWhile_append_of_pos (List.all_eq_true.mp hplain),
      @List.takeWhile_cons_of_neg _ (fun c => !isLineBoundary c) '\r' rest (by decide), List.append_nil]
  show Except.ok (detectDelimiter _) = _
  rw [detectDelimiter, hfirst]
  decide +kernel

/-- No field of the entry is over the limit of the reader. -/
def FieldsFit (requestId : String) (packages : List String) (entry : MetadataEntry) : Prop :=
  ∀ f ∈ indexFields requestId packages entry, f.length ≤ fieldSizeLimit

theorem readRecords_text {records : Except Csv.CsvError (List Csv.Record)}
    (hread : Csv.readText fieldSizeLimit ',' (Csv.writeText ',' (indexRows requestId packages metadata)) =
      records) :
    readRecords (metadataCsvBytes requestId packages metadata) none = records.mapError .csv := by
  obtain ⟨rest, hrest⟩ := @writeText_index requestId packages metadata
  have htext : Utf8.decodeSig? (metadataCsvBytes requestId packages metadata) =
      some (String.ofList (Csv.writeText ',' (indexRows requestId packages metadata))) := by
    rw [metadataCsvBytes_eq]
    refine Utf8.decodeSig?_encode ?_
    rw [Utf8.encode, String.toList_ofList, hrest]
    show some _ ≠ _
    decide
  rw [readRecords_eq htext (by rw [String.toList_ofList]; exact delimiterOf_index), String.toList_ofList,
    hread]

theorem separates_comma : Csv.Separates ',' := ⟨by decide, by decide⟩

theorem length_indexRows {row : List (List Char)} (h : row ∈ indexRows requestId packages metadata) :
    2 ≤ row.length := by
  obtain ⟨fields, hfields, rfl⟩ := List.mem_map.mp h
  rw [List.length_map]
  obtain rfl | hentry := List.mem_cons.mp hfields
  · decide
  · obtain ⟨entry, -, rfl⟩ := List.mem_map.mp hentry
    show 2 ≤ 8
    decide

/-- The records of the index are its rows. -/
theorem readRecords_index (hfit : ∀ entry ∈ metadata, FieldsFit requestId packages entry) :
    ∃ records, readRecords (metadataCsvBytes requestId packages metadata) none = .ok records ∧
      dictReader records =
        (indexColumns, (sortedByUuid metadata).map (indexFields requestId packages)) := by
  have hlimit : ∀ row ∈ indexRows requestId packages metadata, ∀ f ∈ row, f.length ≤ fieldSizeLimit := by
    intro row hrow f hf
    obtain ⟨fields, hfields, rfl⟩ := List.mem_map.mp hrow
    obtain ⟨s, hs, rfl⟩ := List.mem_map.mp hf
    rw [String.length_toList]
    obtain rfl | hentry := List.mem_cons.mp hfields
    · revert s
      decide
    · obtain ⟨entry, hmem, rfl⟩ := List.mem_map.mp hentry
      exact hfit entry ((List.mem_insertionSort _).mp hmem) s hs
  obtain ⟨records, hread, hfields⟩ := @Csv.readText_writeText fieldSizeLimit ',' _ separates_comma
    (fun row hrow => length_indexRows hrow) hlimit
  refine ⟨records, readRecords_text hread, ?_⟩
  have hback : ∀ fields : List String, fieldTexts (fields.map String.toList) = fields := by
    intro fields
    simp [fieldTexts, Function.comp_def]
  cases records with
  | nil => cases hfields
  | cons first more =>
      rw [indexRows, List.map_cons, List.map_cons] at hfields
      obtain ⟨hfirst, hmore⟩ := List.cons.inj hfields
      rw [dictReader_rows, hfirst, hback, Csv.rows, hmore, List.filter_eq_self.mpr ?_, List.map_map]
      · simp only [Function.comp_def, hback, List.map_id']
      · intro row hrow
        obtain ⟨fields, hfields, rfl⟩ := List.mem_map.mp hrow
        obtain ⟨entry, -, rfl⟩ := List.mem_map.mp hfields
        rfl

/-- A field over the limit of the reader makes the index unreadable. -/
theorem readRecords_index_tooLong (hlong : ∃ entry ∈ metadata, ¬ FieldsFit requestId packages entry) :
    readRecords (metadataCsvBytes requestId packages metadata) none = .error (.csv .fieldTooLong) := by
  refine readRecords_text (Csv.readText_tooLong separates_comma (fun row hrow => length_indexRows hrow) ?_)
  obtain ⟨entry, hentry, hlong⟩ := hlong
  obtain ⟨s, hs, hlimit⟩ : ∃ s ∈ indexFields requestId packages entry, fieldSizeLimit < s.length := by
    simpa [FieldsFit] using hlong
  refine ⟨(indexFields requestId packages entry).map String.toList, ?_, s.toList,
    List.mem_map_of_mem hs, by rw [String.length_toList]; exact hlimit⟩
  refine List.mem_map_of_mem (List.mem_cons_of_mem _ (List.mem_map_of_mem ?_))
  exact (List.mem_insertionSort _).mpr hentry

end Index

/-! ## The rows of the index -/

section Rows

variable {rt : Runtime} {printable : Char → Bool} {requestId : String} {packages : List String}
variable {metadata : List MetadataEntry} {entry : MetadataEntry}

/-- An entry as a download lists it: a UUID in upper case, RFCs that are stripped and in upper
case, a status and an effect that are stripped, and a date with an offset. -/
structure Listed (rt : Runtime) (entry : MetadataEntry) : Prop where
  uuid : List.Forall₂ (fun (p : Char → Bool) c => p c = true) uuidClasses entry.uuid.toList
  upperUuid : rt.upper entry.uuid = entry.uuid
  issuerRfc : entry.issuerRfc ≠ "" ∧ Text.strip entry.issuerRfc = entry.issuerRfc ∧
    rt.upper entry.issuerRfc = entry.issuerRfc
  receiverRfc : entry.receiverRfc ≠ "" ∧ Text.strip entry.receiverRfc = entry.receiverRfc ∧
    rt.upper entry.receiverRfc = entry.receiverRfc
  status : entry.status ≠ "" ∧ Text.strip entry.status = entry.status
  effect : entry.effect ≠ "" ∧ Text.strip entry.effect = entry.effect
  issueDate : entry.issueDate.offset ≠ none

/-- The entry that an index gives back: a total of zero, the default names, and the package
that is written for it. -/
def replayed (packages : List String) (entry : MetadataEntry) : MetadataEntry :=
  { entry with
    issuerName := "Synthetic Issuer"
    receiverName := "Synthetic Receiver"
    total := .finite false 0 0
    sourcePackageId := Text.strip (indexPackage packages entry) }

theorem visible_of_isHex {c : Char} (h : isHex c = true) : 32 < c.toNat ∧ c.toNat < 127 := by
  simp only [isHex, Bool.or_eq_true, Bool.and_eq_true, decide_eq_true_eq] at h
  obtain (⟨hlow, hhigh⟩ | ⟨hlow, hhigh⟩) | ⟨hlow, hhigh⟩ := h
  · have hl : 48 ≤ c.toNat := hlow
    have hh : c.toNat ≤ 57 := hhigh
    omega
  · have hl : 65 ≤ c.toNat := hlow
    have hh : c.toNat ≤ 70 := hhigh
    omega
  · have hl : 97 ≤ c.toNat := hlow
    have hh : c.toNat ≤ 102 := hhigh
    omega

/-- The classes of a UUID hold visible characters only. -/
theorem visible_of_uuidClass {p : Char → Bool} (hp : p ∈ uuidClasses) {c : Char} (hc : p c = true) :
    32 < c.toNat ∧ c.toNat < 127 := by
  have hdash : ∀ {c : Char}, (c == '-') = true → 32 < c.toNat ∧ c.toNat < 127 := by
    intro c hc
    rw [beq_iff_eq.mp hc]
    decide
  simp only [uuidClasses, List.mem_append, List.mem_cons, List.mem_replicate] at hp
  obtain ⟨-, rfl⟩ | rfl | ⟨-, rfl⟩ | rfl | rfl | ⟨-, rfl⟩ | rfl | rfl | ⟨-, rfl⟩ | rfl | ⟨-, rfl⟩ := hp
  · exact visible_of_isHex hc
  · exact hdash hc
  · exact visible_of_isHex hc
  · exact hdash hc
  · simp only [Bool.and_eq_true, decide_eq_true_eq] at hc
    have hl : 49 ≤ c.toNat := hc.1
    have hh : c.toNat ≤ 53 := hc.2
    omega
  · exact visible_of_isHex hc
  · exact hdash hc
  · have hmem : c ∈ ['8', '9', 'A', 'B', 'a', 'b'] := by simpa using hc
    have hall : ['8', '9', 'A', 'B', 'a', 'b'].all
        (fun c => decide (32 < c.toNat ∧ c.toNat < 127)) = true := by decide
    exact of_decide_eq_true (List.all_eq_true.mp hall c hmem)
  · exact visible_of_isHex hc
  · exact hdash hc
  · exact visible_of_isHex hc

theorem Listed.strip_uuid (h : Listed rt entry) : Text.strip entry.uuid = entry.uuid := by
  refine Text.strip_of_no_space fun c hc => ?_
  obtain ⟨hlength, hzip⟩ := List.forall₂_iff_zip.mp h.uuid
  obtain ⟨i, hi, rfl⟩ := List.getElem_of_mem hc
  have hclass : i < uuidClasses.length := by
    rw [hlength]
    exact hi
  have hpair : (uuidClasses[i], entry.uuid.toList[i]) ∈ uuidClasses.zip entry.uuid.toList := by
    rw [List.mem_iff_getElem]
    exact ⟨i, by simpa using ⟨hclass, hi⟩, List.getElem_zip⟩
  exact Text.isSpace_of_visible (visible_of_uuidClass (List.getElem_mem hclass) (hzip hpair))

theorem Listed.uuid_ne_empty (h : Listed rt entry) : entry.uuid ≠ "" := by
  intro hempty
  have hlength := h.uuid.length_eq
  rw [hempty] at hlength
  cases hlength

/-- The first alias gives the value where the others are no columns. -/
theorem value_first {row : List (String × String)} {field : MetadataField} {first : String}
    {others : List String} (halias : fieldAliases field = first :: others)
    (hothers : ∀ name ∈ others, row.lookup name = none) :
    value row field = (row.lookup first).getD "" := by
  have hnone : (others.find? fun name => (row.lookup name).getD "" ≠ "") = none := by
    refine List.find?_eq_none.mpr fun name hname => ?_
    rw [hothers name hname]
    decide
  rw [value, halias, List.find?_cons, hnone]
  by_cases hempty : (row.lookup first).getD "" = ""
  · simp [hempty]
  · simp [hempty]

/-- A field without a column has no value. -/
theorem value_missing {row : List (String × String)} {field : MetadataField}
    (h : ∀ name ∈ fieldAliases field, row.lookup name = none) : value row field = "" := by
  have hnone : ((fieldAliases field).find? fun name => (row.lookup name).getD "" ≠ "") = none := by
    refine List.find?_eq_none.mpr fun name hname => ?_
    rw [h name hname]
    decide
  rw [value, hnone]
  rfl

/-- A row with a value for each column, under the stripped names. -/
theorem normalize_dictRow {columns fields : List String} (hlength : columns.length = fields.length)
    (hcolumns : columns.Nodup) (hstripped : ∀ name ∈ columns, Text.strip name = name) :
    normalize printable (dictRow columns fields) = columns.zip (fields.map Text.strip) := by
  have hfst : (columns.zip fields).map Prod.fst = columns := List.map_fst_zip (Nat.le_of_eq hlength)
  have hnamed : dictRow columns fields =
      (columns.zip fields).map fun item => (some item.1, Cell.text item.2) := by
    rw [dictRow, if_neg (by omega), ← hlength, List.drop_length]
    have hkeys : (((columns.zip fields).map fun item => (some item.1, Cell.text item.2)).map
        Prod.fst).Nodup := by
      rw [List.map_map]
      show ((columns.zip fields).map (some ∘ Prod.fst)).Nodup
      rw [← List.map_map, hfst]
      exact hcolumns.map (Option.some_injective String)
    exact @Dictionary.assignAll_of_nodup (Option String) Cell _ [] _ hkeys
  have hitems : (dictRow columns fields).map (fun item => (Text.strip (item.1.getD ""),
      Text.strip (cellText printable item.2))) = columns.zip (fields.map Text.strip) := by
    rw [hnamed, List.map_map, List.zip_map_right]
    refine List.map_congr_left fun item hitem => ?_
    exact Prod.ext (hstripped item.1 (List.of_mem_zip hitem).1) rfl
  have hkeys : ((columns.zip (fields.map Text.strip)).map Prod.fst).Nodup := by
    rw [List.map_fst_zip (by rw [List.length_map]; exact Nat.le_of_eq hlength)]
    exact hcolumns
  rw [normalize, hitems]
  exact @Dictionary.assignAll_of_nodup String String _ [] _ hkeys

theorem lookup_zip_none {names values : List String} {name : String} (h : name ∉ names) :
    (names.zip values).lookup name = none := by
  refine List.lookup_eq_none_iff.mpr fun item hitem => ?_
  rw [bne_iff_ne]
  rintro rfl
  exact h (List.of_mem_zip hitem).1

/-- The row of an entry under the columns of the index, its values stripped. -/
def indexRow (requestId : String) (packages : List String) (entry : MetadataEntry) :
    List (String × String) :=
  indexColumns.zip ((indexFields requestId packages entry).map Text.strip)

theorem normalize_index :
    normalize printable (dictRow indexColumns (indexFields requestId packages entry)) =
      indexRow requestId packages entry :=
  normalize_dictRow rfl (by decide) (by decide +kernel)

/-- The value of a field under the first of its aliases. -/
theorem value_index {field : MetadataField} {first s : String} {others : List String}
    (halias : fieldAliases field = first :: others) (hothers : ∀ name ∈ others, name ∉ indexColumns)
    (hfirst : (indexRow requestId packages entry).lookup first = some (Text.strip s)) :
    value (indexRow requestId packages entry) field = Text.strip s := by
  have hnone : ∀ name ∈ others, (indexRow requestId packages entry).lookup name = none :=
    fun name hname => lookup_zip_none (hothers name hname)
  rw [value_first halias hnone, hfirst]
  rfl

theorem value_index_missing {field : MetadataField}
    (h : ∀ name ∈ fieldAliases field, name ∉ indexColumns) :
    value (indexRow requestId packages entry) field = "" :=
  value_missing fun name hname => lookup_zip_none (h name hname)

theorem entryFromRow_index (h : Listed rt entry) :
    entryFromRow rt (indexRow requestId packages entry) "" = .ok (replayed packages entry) := by
  have huuid : value (indexRow requestId packages entry) .uuid = entry.uuid :=
    (value_index rfl (by decide) rfl).trans h.strip_uuid
  have hissuer : value (indexRow requestId packages entry) .issuerRfc = entry.issuerRfc :=
    (value_index rfl (by decide) rfl).trans h.issuerRfc.2.1
  have hreceiver : value (indexRow requestId packages entry) .receiverRfc = entry.receiverRfc :=
    (value_index rfl (by decide) rfl).trans h.receiverRfc.2.1
  have hstatus : value (indexRow requestId packages entry) .status = entry.status :=
    (value_index rfl (by decide) rfl).trans h.status.2
  have heffect : value (indexRow requestId packages entry) .effect = entry.effect :=
    (value_index rfl (by decide) rfl).trans h.effect.2
  have hdate : value (indexRow requestId packages entry) .issueDate = entry.issueDate.isoformat :=
    (value_index rfl (by decide) rfl).trans (Text.strip_of_no_space fun _ => DateTime.isoformat_no_space)
  have hpackage : value (indexRow requestId packages entry) .sourcePackageId =
      Text.strip (indexPackage packages entry) :=
    value_index rfl (by decide) rfl
  have htotal : totalText (indexRow requestId packages entry) = "0" := by
    rw [totalText, value_index_missing (by decide)]
    rfl
  have hissuerName : value (indexRow requestId packages entry) .issuerName = "" := value_index_missing (by decide)
  have hreceiverName : value (indexRow requestId packages entry) .receiverName = "" :=
    value_index_missing (by decide)
  have hread : Decimal.read? "0" = some (.finite false 0 0) := by decide +kernel
  have hparsed : parseDatetime entry.issueDate.isoformat = some entry.issueDate := by
    have hne : entry.issueDate.isoformat ≠ "" := by
      intro hempty
      have hback := DateTime.fromisoformat_isoformat entry.issueDate
      rw [hempty] at hback
      cases hback
    rw [parseDatetime, if_neg hne,
      DateTime.replaceChar_of_not_mem fun c hc => DateTime.isoformat_no_zulu hc,
      DateTime.fromisoformat_isoformat]
    obtain ⟨offset, hoffset⟩ := Option.ne_none_iff_exists'.mp h.issueDate
    show some (orUtc entry.issueDate) = _
    rw [orUtc, hoffset, Option.getD_some, ← hoffset]
  have hentry : entryOf rt (indexRow requestId packages entry) "" entry.issueDate (.finite false 0 0) =
      replayed packages entry := by
    rw [entryOf, huuid, hissuer, hreceiver, hstatus, heffect, hpackage, hissuerName, hreceiverName,
      h.upperUuid, h.issuerRfc.2.2, h.receiverRfc.2.2]
    simp [orElse, replayed]
  refine entryFromRow_ok_iff.mpr ⟨⟨?_, ?_, ?_, ?_, ?_, ?_, ?_⟩, entry.issueDate, .finite false 0 0, ?_, ?_, ?_⟩
  · rw [huuid, h.upperUuid]
    exact matchClasses_iff.mpr (.inl h.uuid)
  · rw [hissuer, h.issuerRfc.2.2]
    exact h.issuerRfc.1
  · rw [hreceiver, h.receiverRfc.2.2]
    exact h.receiverRfc.1
  · rw [hstatus]
    exact h.status.1
  · rw [heffect]
    exact h.effect.1
  · rw [hdate, hparsed]
    rfl
  · rw [htotal, hread]
    rfl
  · rw [hdate, hparsed]
  · rw [htotal, hread]
  · exact hentry.symm

theorem collectRows_index {offset : Nat} (h : ∀ entry ∈ metadata, Listed rt entry) :
    collectRows rt printable indexColumns "" offset (metadata.map (indexFields requestId packages)) =
      ⟨metadata.map (replayed packages), []⟩ := by
  induction metadata generalizing offset with
  | nil => rfl
  | cons entry rest ih =>
      obtain ⟨hentry, hrest⟩ := List.forall_mem_cons.mp h
      rw [List.map_cons, collectRows, normalize_index, entryFromRow_index hentry, ih hrest]
      rfl

/-- The index gives its entries back with a total of zero and the default names. -/
theorem parseMetadataBytes_index (h : ∀ entry ∈ metadata, Listed rt entry)
    (hfit : ∀ entry ∈ metadata, FieldsFit requestId packages entry) :
    parseMetadataBytes rt printable (metadataCsvBytes requestId packages metadata) none "" =
      .ok ⟨(sortedByUuid metadata).map (replayed packages), []⟩ := by
  obtain ⟨records, hrecords, hrows⟩ := readRecords_index hfit
  rw [parseMetadataBytes, hrecords]
  show Except.ok (collectRows rt printable (dictReader records).1 "" 2 (dictReader records).2) = _
  have hsorted : ∀ entry ∈ sortedByUuid metadata, Listed rt entry :=
    fun entry hentry => h entry ((List.mem_insertionSort _).mp hentry)
  rw [hrows, collectRows_index hsorted]

theorem parseMetadataBytes_index_tooLong
    (hlong : ∃ entry ∈ metadata, ¬ FieldsFit requestId packages entry) :
    parseMetadataBytes rt printable (metadataCsvBytes requestId packages metadata) none "" =
      .error (.csv .fieldTooLong) := by
  rw [parseMetadataBytes, readRecords_index_tooLong hlong]
  rfl

end Rows

/-! ## Replaying the index -/

section Replay

/-- Two entries that are equal in every field. -/
structure SameEntry (a b : MetadataEntry) : Prop where
  uuid : a.uuid = b.uuid
  issuerRfc : a.issuerRfc = b.issuerRfc
  issuerName : a.issuerName = b.issuerName
  receiverRfc : a.receiverRfc = b.receiverRfc
  receiverName : a.receiverName = b.receiverName
  issueDate : a.issueDate = b.issueDate
  total : Decimal.Same a.total b.total
  status : a.status = b.status
  effect : a.effect = b.effect
  sourcePackageId : a.sourcePackageId = b.sourcePackageId

/-- Two ledger rows with the same business fields. -/
structure SameBusiness (before after : CfdiMetadataLedger) : Prop where
  issuerRfc : after.issuerRfc = before.issuerRfc
  issuerName : after.issuerName = before.issuerName
  receiverRfc : after.receiverRfc = before.receiverRfc
  receiverName : after.receiverName = before.receiverName
  issueDate : after.issueDate = before.issueDate
  total : Decimal.Same before.total after.total
  status : after.status = before.status
  effect : after.effect = before.effect
  sourcePackageId : after.sourcePackageId = before.sourcePackageId

theorem SameBusiness.refl (row : CfdiMetadataLedger) : SameBusiness row row :=
  ⟨rfl, rfl, rfl, rfl, rfl, .refl _, rfl, rfl, rfl⟩

/-- The row of a key has the same business fields afterwards, or there is none before and
none afterwards. -/
def RowKept : Option CfdiMetadataLedger → Option CfdiMetadataLedger → Prop
  | some before, some after => SameBusiness before after
  | none, none => True
  | _, _ => False

theorem RowKept.refl (row : Option CfdiMetadataLedger) : RowKept row row := by
  cases row with
  | none => trivial
  | some row => exact SameBusiness.refl row

/-- A file whose ingestion keeps the business fields of a ledger that has the given entries,
for a service that reads metadata with the parser. -/
def LedgerKept (rt : Runtime) (printable : Char → Bool) (content : Bytes)
    (metadata : List MetadataEntry) : Prop :=
  ∀ (env : Env) (q : DownloadQuery) (w : World), env.rt = rt →
    (∀ content delimiter sourcePackageId, env.parseMetadata content delimiter sourcePackageId =
      (parseMetadataBytes rt printable content delimiter sourcePackageId).mapError MetadataError.name) →
    (∀ entry ∈ metadata, ∃ row metadataSha256,
      findLedger q.tenantId entry.uuid q.direction.value w.db = some row ∧
        LedgerCarries entry metadataSha256 row) →
    ∀ tenantId uuid direction, RowKept (findLedger tenantId uuid direction w.db)
      (findLedger tenantId uuid direction ((ingestMetadataFile env q content none "").exec w).2.db)

/-- The stored index can be replayed: it is read without a refusal as the entries in the
order of their UUIDs, and its ingestion keeps the ledger. -/
structure Replays (rt : Runtime) (printable : Char → Bool) (requestId : String)
    (packages : List String) (metadata : List MetadataEntry) : Prop where
  read : ∃ sorted parsed, sorted.Perm metadata ∧ sorted.Pairwise (fun a b => a.uuid ≤ b.uuid) ∧
    parseMetadataBytes rt printable (metadataCsvBytes requestId packages metadata) none "" =
      .ok ⟨parsed, []⟩ ∧
    List.Forall₂ SameEntry sorted parsed
  ledger : LedgerKept rt printable (metadataCsvBytes requestId packages metadata) metadata

/-- An entry that the index holds in full: a total of zero, the default names, its own
package, and no field over the limit of the reader. -/
structure Replayable (requestId : String) (packages : List String) (entry : MetadataEntry) : Prop where
  total : ∃ negative exponent, entry.total = .finite negative 0 exponent
  issuerName : entry.issuerName = "Synthetic Issuer"
  receiverName : entry.receiverName = "Synthetic Receiver"
  package : Text.strip (indexPackage packages entry) = entry.sourcePackageId
  fit : FieldsFit requestId packages entry

variable {rt : Runtime} {printable : Char → Bool} {requestId : String} {packages : List String}
variable {metadata : List MetadataEntry} {entry : MetadataEntry}

theorem sameEntry_replayed : SameEntry entry (replayed packages entry) ↔
    (∃ negative exponent, entry.total = .finite negative 0 exponent) ∧
      entry.issuerName = "Synthetic Issuer" ∧ entry.receiverName = "Synthetic Receiver" ∧
      Text.strip (indexPackage packages entry) = entry.sourcePackageId := by
  rw [← Decimal.same_zero]
  constructor
  · exact fun h => ⟨h.total, h.issuerName, h.receiverName, h.sourcePackageId.symm⟩
  · rintro ⟨htotal, hissuer, hreceiver, hpackage⟩
    exact ⟨rfl, rfl, hissuer, rfl, hreceiver, rfl, htotal, rfl, rfl, hpackage.symm⟩

/-- A list in the order of UUIDs that are all different is the only one. -/
theorem eq_sortedByUuid (hdistinct : (metadata.map (·.uuid)).Nodup) {sorted : List MetadataEntry}
    (hperm : sorted.Perm metadata) (hsorted : sorted.Pairwise fun a b => a.uuid ≤ b.uuid) :
    sorted = sortedByUuid metadata := by
  have hinj : ∀ a ∈ metadata, ∀ b ∈ metadata, a.uuid = b.uuid → a = b :=
    fun a ha b hb h => List.inj_on_of_nodup_map hdistinct ha hb h
  have hunique : ∀ a b, a ∈ sorted → b ∈ sortedByUuid metadata → a.uuid ≤ b.uuid →
      b.uuid ≤ a.uuid → a = b := fun a b ha hb hab hba =>
    hinj a (hperm.mem_iff.mp ha) b ((List.mem_insertionSort _).mp hb) (String.le_antisymm hab hba)
  exact List.Perm.eq_of_pairwise hunique hsorted (List.pairwise_insertionSort _ metadata)
    (hperm.trans (List.perm_insertionSort _ metadata).symm)

/-- A row that carries an entry, and one that carries the entry that comes back. -/
theorem sameBusiness_replayed {before after : CfdiMetadataLedger} {sha sha' : String}
    (h : SameEntry entry (replayed packages entry)) (hbefore : LedgerCarries entry sha before)
    (hafter : LedgerCarries (replayed packages entry) sha' after) : SameBusiness before after where
  issuerRfc := hafter.issuerRfc.trans (h.issuerRfc.symm.trans hbefore.issuerRfc.symm)
  issuerName := hafter.issuerName.trans (h.issuerName.symm.trans hbefore.issuerName.symm)
  receiverRfc := hafter.receiverRfc.trans (h.receiverRfc.symm.trans hbefore.receiverRfc.symm)
  receiverName := hafter.receiverName.trans (h.receiverName.symm.trans hbefore.receiverName.symm)
  issueDate := hafter.issueDate.trans (h.issueDate.symm.trans hbefore.issueDate.symm)
  total := by
    rw [hbefore.total, hafter.total]
    exact h.total
  status := hafter.status.trans ((congrArg some h.status.symm).trans hbefore.status.symm)
  effect := hafter.effect.trans (h.effect.symm.trans hbefore.effect.symm)
  sourcePackageId :=
    hafter.sourcePackageId.trans (h.sourcePackageId.symm.trans hbefore.sourcePackageId.symm)

theorem lastEntry_mem {uuid : String} {last : MetadataEntry} (h : lastEntry uuid metadata = some last) :
    last ∈ metadata ∧ last.uuid = uuid := by
  induction metadata with
  | nil => cases h
  | cons entry rest ih =>
      obtain hrest | ⟨huuid, rfl, -⟩ := lastEntry_cons h
      · exact ⟨List.mem_cons_of_mem _ (ih hrest).1, (ih hrest).2⟩
      · exact ⟨List.mem_cons_self, huuid⟩

/-- Where the entries come back as they are, the ingestion of the index keeps the ledger. -/
theorem ledgerKept_index (hlisted : ∀ entry ∈ metadata, Listed rt entry)
    (h : ∀ entry ∈ metadata, Replayable requestId packages entry) :
    LedgerKept rt printable (metadataCsvBytes requestId packages metadata) metadata := by
  intro env q w hrt hparser hcarried tenantId uuid direction
  have hparsed : env.parseMetadata (metadataCsvBytes requestId packages metadata) none "" =
      .ok ⟨(sortedByUuid metadata).map (replayed packages), []⟩ := by
    rw [hparser, parseMetadataBytes_index hlisted fun entry hentry => (h entry hentry).fit]
    rfl
  have hspec := @ingestMetadataFile_turns env q w.db (metadataCsvBytes requestId packages metadata)
    none "" w rfl
  rcases hx : (ingestMetadataFile env q (metadataCsvBytes requestId packages metadata) none "").exec w
    with ⟨e | result, v⟩
  · rw [hx] at hspec
    have hbooks : SameBooks w.db v.db := hspec
    show RowKept _ (findLedger tenantId uuid direction v.db)
    rw [hbooks.findLedger]
    exact .refl _
  · rw [hx] at hspec
    obtain ⟨parsed, hread, hsteps⟩ := hspec
    rw [hparsed] at hread
    cases hread
    have heffect := batchEffect hsteps
    show RowKept _ (findLedger tenantId uuid direction v.db)
    by_cases hin : tenantId = q.tenantId ∧
        (∃ entry ∈ (sortedByUuid metadata).map (replayed packages), entry.uuid = uuid) ∧
        direction = q.direction.value
    · obtain ⟨rfl, ⟨touched, htouched, rfl⟩, rfl⟩ := hin
      cases hlast : lastEntry touched.uuid ((sortedByUuid metadata).map (replayed packages)) with
      | none => exact absurd rfl (lastEntry_eq_none.mp hlast touched htouched)
      | some last =>
          obtain ⟨after, hafter, hcarries⟩ := heffect.ledger _ last hlast
          obtain ⟨hmem, huuid⟩ := lastEntry_mem hlast
          obtain ⟨entry, hentry, rfl⟩ := List.mem_map.mp hmem
          have hentry' : entry ∈ metadata := (List.mem_insertionSort _).mp hentry
          obtain ⟨before, sha, hbefore, hcarried⟩ := hcarried entry hentry'
          have hreplayable := h entry hentry'
          rw [hafter, ← huuid, show (replayed packages entry).uuid = entry.uuid from rfl, hbefore]
          exact sameBusiness_replayed (sameEntry_replayed.mpr ⟨hreplayable.total, hreplayable.issuerName,
            hreplayable.receiverName, hreplayable.package⟩) hcarried hcarries
    · rw [heffect.otherLedger tenantId uuid direction hin]
      exact .refl _

/-- The stored index can be replayed exactly if it holds every entry in full. -/
theorem replays_iff (hlisted : ∀ entry ∈ metadata, Listed rt entry)
    (hdistinct : (metadata.map (·.uuid)).Nodup) :
    Replays rt printable requestId packages metadata ↔
      ∀ entry ∈ metadata, Replayable requestId packages entry := by
  constructor
  · rintro ⟨⟨sorted, parsed, hperm, hsorted, hread, hsame⟩, -⟩ entry hentry
    have hfit : ∀ entry ∈ metadata, FieldsFit requestId packages entry := by
      by_contra hnot
      rw [parseMetadataBytes_index_tooLong (by simpa using hnot)] at hread
      cases hread
    rw [parseMetadataBytes_index hlisted hfit] at hread
    cases hread
    obtain rfl := eq_sortedByUuid hdistinct hperm hsorted
    rw [List.forall₂_map_right_iff, List.forall₂_same] at hsame
    obtain ⟨htotal, hissuer, hreceiver, hpackage⟩ :=
      sameEntry_replayed.mp (hsame entry ((List.mem_insertionSort _).mpr hentry))
    exact ⟨htotal, hissuer, hreceiver, hpackage, hfit entry hentry⟩
  · intro h
    refine ⟨⟨sortedByUuid metadata, _, List.perm_insertionSort _ metadata,
      List.pairwise_insertionSort _ metadata,
      parseMetadataBytes_index hlisted fun entry hentry => (h entry hentry).fit, ?_⟩,
      ledgerKept_index hlisted h⟩
    rw [List.forall₂_map_right_iff, List.forall₂_same]
    intro entry hentry
    have hentry' := h entry ((List.mem_insertionSort _).mp hentry)
    exact sameEntry_replayed.mpr ⟨hentry'.total, hentry'.issuerName, hentry'.receiverName,
      hentry'.package⟩

/-! ### An amount that the index does not hold -/

section Sample

/-- An invoice of January 2024 with the given amount, under the default names. -/
def invoiceOf (amount : Nat) : MetadataEntry where
  uuid := "11111111-1111-4111-8111-111111111111"
  issuerRfc := "AAA010101AAA"
  issuerName := "Synthetic Issuer"
  receiverRfc := "BBB020202BBB"
  receiverName := "Synthetic Receiver"
  issueDate := .utc 63840000000000000
  total := .finite false amount 0
  status := "vigente"
  effect := "I"
  sourcePackageId := "PKG-1"

theorem listed_invoiceOf (amount : Nat) : Listed SatRequest.asciiTables (invoiceOf amount) where
  uuid := by
    have hmatches : uuidMatches (invoiceOf amount).uuid = true := by
      show uuidMatches "11111111-1111-4111-8111-111111111111" = true
      decide +kernel
    refine (matchClasses_iff.mp hmatches).resolve_right ?_
    rintro ⟨ds, hds, -⟩
    have hlast := congrArg List.getLast? hds
    rw [List.getLast?_concat] at hlast
    revert hlast
    show "11111111-1111-4111-8111-111111111111".toList.getLast? ≠ some '\n'
    decide +kernel
  upperUuid := by
    show SatRequest.asciiTables.upper "11111111-1111-4111-8111-111111111111" =
      "11111111-1111-4111-8111-111111111111"
    decide +kernel
  issuerRfc := by
    show "AAA010101AAA" ≠ "" ∧ Text.strip "AAA010101AAA" = "AAA010101AAA" ∧
      SatRequest.asciiTables.upper "AAA010101AAA" = "AAA010101AAA"
    decide +kernel
  receiverRfc := by
    show "BBB020202BBB" ≠ "" ∧ Text.strip "BBB020202BBB" = "BBB020202BBB" ∧
      SatRequest.asciiTables.upper "BBB020202BBB" = "BBB020202BBB"
    decide +kernel
  status := by
    show "vigente" ≠ "" ∧ Text.strip "vigente" = "vigente"
    decide +kernel
  effect := by
    show "I" ≠ "" ∧ Text.strip "I" = "I"
    decide +kernel
  issueDate := by
    show some UtcOffset.zero ≠ none
    simp

theorem fieldsFit_invoiceOf (amount : Nat) : FieldsFit "REQ-1" ["PKG-1"] (invoiceOf amount) := by
  show ∀ f ∈ ["REQ-1", indexPackage ["PKG-1"] (invoiceOf 0), "11111111-1111-4111-8111-111111111111",
    "AAA010101AAA", "BBB020202BBB", (DateTime.utc 63840000000000000).isoformat, "vigente", "I"],
    f.length ≤ fieldSizeLimit
  decide +kernel

/-- An invoice over nothing is replayed. -/
theorem replays_iff_sample :
    Replays SatRequest.asciiTables (fun _ => true) "REQ-1" ["PKG-1"] [invoiceOf 0] := by
  refine (replays_iff (List.forall_mem_singleton.mpr (listed_invoiceOf 0)) (by simp)).mpr ?_
  refine List.forall_mem_singleton.mpr ⟨⟨false, 0, rfl⟩, rfl, rfl, ?_, fieldsFit_invoiceOf 0⟩
  show Text.strip "PKG-1" = "PKG-1"
  decide +kernel

/-- An invoice over an amount comes back with a total of zero. -/
theorem amount_is_lost : Listed SatRequest.asciiTables (invoiceOf 1160) ∧
    ¬ Replays SatRequest.asciiTables (fun _ => true) "REQ-1" ["PKG-1"] [invoiceOf 1160] := by
  refine ⟨listed_invoiceOf 1160, ?_⟩
  rintro ⟨⟨sorted, parsed, hperm, -, hread, hsame⟩, -⟩
  rw [parseMetadataBytes_index (List.forall_mem_singleton.mpr (listed_invoiceOf 1160))
    (List.forall_mem_singleton.mpr (fieldsFit_invoiceOf 1160))] at hread
  cases hread
  rw [List.perm_singleton.mp hperm] at hsame
  cases hsame with
  | cons hentry _ =>
      obtain ⟨negative, exponent, htotal⟩ := Decimal.same_zero.mp hentry.total
      cases htotal

end Sample

end Replay

end Metadata

end CfdiVault
