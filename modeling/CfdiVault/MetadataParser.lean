import CfdiVault.RecoveryWorld
import CfdiVault.Library.CsvReader
import CfdiVault.Library.Dictionary
import CfdiVault.Library.UnicodeDigits
import CfdiVault.Library.Utf8

/-!
# The metadata parser

Parser for SAT-like metadata TXT/CSV inventories: the text of the file, its delimiter, the
rows of the CSV reader as dictionaries, and the entry or the errors of each row.

The printable characters of the host stay abstract.  They matter only for the surplus
fields of a row, which its raw text renders as a list.
-/

namespace CfdiVault

namespace Metadata

/-! ## The rows of a file -/

/-- Why no row of a file is read: the file is not UTF-8, the delimiter is no single
character, or the CSV reader gives up. -/
inductive MetadataError where
  | unicode
  | delimiter
  | csv (error : Csv.CsvError)
  deriving DecidableEq

/-- The name of the exception. -/
def MetadataError.name : MetadataError → String
  | .unicode => "UnicodeDecodeError"
  | .delimiter => "TypeError"
  | .csv _ => "Error"

/-- `csv.field_size_limit()`. -/
def fieldSizeLimit : Nat := 131072

/-- The line boundaries of `str.splitlines`. -/
def isLineBoundary (c : Char) : Bool :=
  let n := c.toNat
  (10 ≤ n && n ≤ 13) || (28 ≤ n && n ≤ 30) || n == 0x85 || n == 0x2028 || n == 0x2029

/-- `text.splitlines()[0]`, empty for an empty text. -/
def firstLine (text : List Char) : List Char := text.takeWhile fun c => !isLineBoundary c

/-- `max(candidates, key=count)`: the first of the largest. -/
def mostFrequent (count : Char → Nat) (best : Char) : List Char → Char
  | [] => best
  | c :: cs => mostFrequent count (if count best < count c then c else best) cs

/-- `_detect_delimiter`. -/
def detectDelimiter (text : List Char) : Char :=
  let header := firstLine text
  if header = [] then ',' else mostFrequent header.count '~' ['|', ',', '\t']

/-- `delimiter or _detect_delimiter(text)`, refused by the reader if it is longer than one
character. -/
def delimiterOf (delimiter : Option String) (text : List Char) : Except MetadataError Char :=
  match (delimiter.getD "").toList with
  | [] => .ok (detectDelimiter text)
  | [c] => .ok c
  | _ => .error .delimiter

/-- The records of a file, as the CSV reader gives them. -/
def readRecords (content : Bytes) (delimiter : Option String) :
    Except MetadataError (List Csv.Record) :=
  match Utf8.decodeSig? content with
  | none => .error .unicode
  | some text => do
      let delimiter ← delimiterOf delimiter text.toList
      (Csv.readText fieldSizeLimit delimiter text.toList).mapError .csv

def fieldTexts (fields : List (List Char)) : List String := fields.map String.ofList

/-! ## A row as a dictionary -/

/-- What `csv.DictReader` gives for a column: its text, the surplus fields of a row, or
nothing where the row is short. -/
inductive Cell where
  | text (s : String)
  | surplus (fields : List String)
  | missing

/-- One row under the names of the columns; the surplus has no name. -/
def dictRow (fieldnames row : List String) : List (Option String × Cell) :=
  let named := Dictionary.assignAll []
    ((fieldnames.zip row).map fun item => (some item.1, Cell.text item.2))
  if fieldnames.length < row.length then
    Dictionary.assign named none (.surplus (row.drop fieldnames.length))
  else Dictionary.assignAll named
    ((fieldnames.drop row.length).map fun key => (some key, Cell.missing))

/-- Lower-case hexadecimal digits, at least `width` of them. -/
def hexDigits (width n : Nat) : String :=
  let ds := Nat.toDigits 16 n
  String.ofList (List.replicate (width - ds.length) '0' ++ ds)

section Raw

variable (printable : Char → Bool)

/-- One character of `repr(text)`. -/
def reprChar (quote c : Char) : String :=
  let n := c.toNat
  if c = quote ∨ c = '\\' then String.ofList ['\\', c]
  else if c = '\n' then "\\n"
  else if c = '\r' then "\\r"
  else if c = '\t' then "\\t"
  else if 32 ≤ n ∧ n < 127 ∨ (127 < n ∧ printable c) then String.singleton c
  else if n < 256 then "\\x" ++ hexDigits 2 n
  else if n < 65536 then "\\u" ++ hexDigits 4 n
  else "\\U" ++ hexDigits 8 n

/-- `repr(text)`. -/
def reprText (s : String) : String :=
  let quote := if s.toList.contains '\'' && !s.toList.contains '"' then '"' else '\''
  String.singleton quote ++ String.join (s.toList.map (reprChar printable quote)) ++
    String.singleton quote

/-- `str(value or "")`. -/
def cellText : Cell → String
  | .text s => s
  | .surplus fields => "[" ++ String.intercalate ", " (fields.map (reprText printable)) ++ "]"
  | .missing => ""

/-- The row with stripped names and values. -/
def normalize (row : List (Option String × Cell)) : List (String × String) :=
  Dictionary.assignAll []
    (row.map fun item => (Text.strip (item.1.getD ""), Text.strip (cellText printable item.2)))

end Raw

/-! ## The fields of an entry -/

/-- The fields of an entry that a row can give. -/
inductive MetadataField where
  | uuid
  | issuerRfc
  | issuerName
  | receiverRfc
  | receiverName
  | issueDate
  | total
  | status
  | effect
  | sourcePackageId
  deriving DecidableEq

/-- `FIELD_ALIASES`. -/
def fieldAliases : MetadataField → List String
  | .uuid => ["uuid", "folioFiscal", "uuidComprobante"]
  | .issuerRfc => ["rfcEmisor", "issuer_rfc", "emisorRfc"]
  | .issuerName => ["nombreEmisor", "issuer_name", "emisorNombre"]
  | .receiverRfc => ["rfcReceptor", "receiver_rfc", "receptorRfc"]
  | .receiverName => ["nombreReceptor", "receiver_name", "receptorNombre"]
  | .issueDate => ["fechaEmision", "fecha", "issue_date"]
  | .total => ["montoTotal", "total", "importeTotal"]
  | .status => ["estadoComprobante", "estado", "status"]
  | .effect => ["tipoComprobante", "efectoComprobante", "effect"]
  | .sourcePackageId => ["idPaquete", "package_id", "source_package_id"]

/-- `_value`: the first alias with a value. -/
def value (row : List (String × String)) (canonical : MetadataField) : String :=
  ((fieldAliases canonical).find? fun name => (row.lookup name).getD "" ≠ "").elim ""
    fun name => (row.lookup name).getD ""

/-- A value, or another one where it is empty. -/
def orElse (value default : String) : String := if value = "" then default else value

def isHex (c : Char) : Bool :=
  ('0' ≤ c && c ≤ '9') || ('A' ≤ c && c ≤ 'F') || ('a' ≤ c && c ≤ 'f')

/-- The character classes of `UUID_PATTERN`. -/
def uuidClasses : List (Char → Bool) :=
  let dash := fun c => c == '-'
  List.replicate 8 isHex ++ dash :: (List.replicate 4 isHex ++
    dash :: (fun c => '1' ≤ c && c ≤ '5') :: (List.replicate 3 isHex ++
      dash :: (fun c => "89ABab".toList.contains c) :: (List.replicate 3 isHex ++
        dash :: List.replicate 12 isHex)))

/-- A match of classes up to `$`, which also stands before a line end that ends the text. -/
def matchClasses : List (Char → Bool) → List Char → Bool
  | [], cs => cs == [] || cs == ['\n']
  | class' :: classes, c :: cs => class' c && matchClasses classes cs
  | _ :: _, [] => false

/-- `UUID_PATTERN.match`. -/
def uuidMatches (s : String) : Bool := matchClasses uuidClasses s.toList

/-- A naive reading is taken as UTC. -/
def orUtc (t : DateTime) : DateTime := ⟨t.wall, some (t.offset.getD UtcOffset.zero)⟩

/-- `_parse_datetime`: what does not read as a whole is read by its first ten characters. -/
def parseDatetime (value : String) : Option DateTime :=
  if value = "" then none
  else
    match DateTime.fromisoformat (Text.replaceChar 'Z' "+00:00" value) with
    | some parsed => some (orUtc parsed)
    | none => (DateTime.fromisoformat (Text.takeChars 10 value)).map orUtc

/-- The error of a check that fails. -/
def required (ok : Bool) (message : String) : List String := if ok then [] else [message]

/-- `_value(row, "total") or "0"`. -/
def totalText (row : List (String × String)) : String := orElse (value row .total) "0"

section Rows

variable (rt : Runtime)

/-- The errors of a row, in the order of the checks. -/
def rowErrors (row : List (String × String)) : List String :=
  required (uuidMatches (rt.upper (value row .uuid))) "uuid must be a valid UUID" ++
  required (rt.upper (value row .issuerRfc) ≠ "") "rfcEmisor is required" ++
  required (rt.upper (value row .receiverRfc) ≠ "") "rfcReceptor is required" ++
  required (value row .status ≠ "") "estadoComprobante is required" ++
  required (value row .effect ≠ "") "tipoComprobante is required" ++
  required (parseDatetime (value row .issueDate)).isSome
    "fechaEmision must be ISO datetime or YYYY-MM-DD" ++
  required (Decimal.read? (totalText row)).isSome "montoTotal must be decimal"

/-- `_entry_from_row`: the entry of a row, or its errors.  The empty entry beside the errors
is never read. -/
def entryFromRow (row : List (String × String)) (sourcePackageId : String) :
    Except (List String) MetadataEntry :=
  match rowErrors rt row, parseDatetime (value row .issueDate), Decimal.read? (totalText row) with
  | [], some issueDate, some total => .ok {
      uuid := rt.upper (value row .uuid)
      issuerRfc := rt.upper (value row .issuerRfc)
      issuerName := orElse (value row .issuerName) "Synthetic Issuer"
      receiverRfc := rt.upper (value row .receiverRfc)
      receiverName := orElse (value row .receiverName) "Synthetic Receiver"
      issueDate := issueDate
      total := total
      status := value row .status
      effect := value row .effect
      sourcePackageId := orElse (value row .sourcePackageId) sourcePackageId }
  | errors, _, _ => .error errors

variable (printable : Char → Bool)

/-- The loop over the rows, numbered from `offset`. -/
def collectRows (fieldnames : List String) (sourcePackageId : String) (offset : Nat) :
    List (List String) → Recovery.MetadataParseResult
  | [] => ⟨[], []⟩
  | row :: rest =>
      let normalized := normalize printable (dictRow fieldnames row)
      let result := collectRows fieldnames sourcePackageId (offset + 1) rest
      match entryFromRow rt normalized sourcePackageId with
      | .ok entry => { result with entries := entry :: result.entries }
      | .error errors =>
          { result with invalidRows := ⟨offset, errors, normalized⟩ :: result.invalidRows }

/-- The column names and the rows of `csv.DictReader`, which passes over blank rows. -/
def dictReader : List Csv.Record → List String × List (List String)
  | [] => ([], [])
  | header :: records =>
      (fieldTexts header.fields, (records.filter fun r => r.fields ≠ []).map fun r => fieldTexts r.fields)

/-- Parse SAT-like metadata bytes as CSV, pipe-delimited TXT, or tab-delimited TXT. -/
def parseMetadataBytes (content : Bytes) (delimiter : Option String := none)
    (sourcePackageId : String := "") : Except MetadataError Recovery.MetadataParseResult := do
  let records ← readRecords content delimiter
  let (fieldnames, rows) := dictReader records
  .ok (collectRows rt printable fieldnames sourcePackageId 2 rows)

/-! ### Rows and their outcomes -/

/-- What a row becomes: an entry, or the row kept for feedback. -/
def rowOutcome (fieldnames : List String) (sourcePackageId : String) (offset : Nat)
    (row : List String) : Except Recovery.InvalidMetadataRow MetadataEntry :=
  let normalized := normalize printable (dictRow fieldnames row)
  (entryFromRow rt normalized sourcePackageId).mapError fun errors => ⟨offset, errors, normalized⟩

/-- The outcomes of the rows, numbered from `offset`. -/
def outcomes (fieldnames : List String) (sourcePackageId : String) (offset : Nat)
    (rows : List (List String)) : List (Except Recovery.InvalidMetadataRow MetadataEntry) :=
  (rows.zipIdx offset).map fun item => rowOutcome rt printable fieldnames sourcePackageId item.2 item.1

/-- The refusal of an outcome. -/
def refusal? {ε α : Type} : Except ε α → Option ε
  | .error e => some e
  | .ok _ => none

/-- The loop gives each row its outcome, and keeps the two kinds in order. -/
theorem collectRows_eq {fieldnames : List String} {sourcePackageId : String} {offset : Nat}
    {rows : List (List String)} :
    collectRows rt printable fieldnames sourcePackageId offset rows =
      ⟨(outcomes rt printable fieldnames sourcePackageId offset rows).filterMap Except.toOption,
        (outcomes rt printable fieldnames sourcePackageId offset rows).filterMap refusal?⟩ := by
  induction rows generalizing offset with
  | nil => rfl
  | cons row rest ih =>
      rw [collectRows, ih]
      simp only [outcomes, List.zipIdx_cons, List.map_cons, rowOutcome]
      cases entryFromRow rt (normalize printable (dictRow fieldnames row)) sourcePackageId <;> rfl

end Rows

end Metadata

end CfdiVault
