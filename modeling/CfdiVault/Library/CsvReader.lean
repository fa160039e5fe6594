import Mathlib.Algebra.GroupWithZero.Nat
import Mathlib.Data.List.DropRight
import Mathlib.Tactic.Common

/-!
# Reading delimited text

The reader of delimited text as the host has it: a field that begins with a quote runs to
the closing quote, over delimiters and line ends, and a doubled quote in it is one quote.

A reader is fed a line character by character and then its end.  It has a record when it is
back at the start of one; before that the next line continues the record.  `records` reads
the lines of a text, `scan` the text itself from the middle of a line, and `records_lines`
says that they agree.
-/

namespace CfdiVault

namespace Csv

/-- Where the reader stands. -/
inductive ReadState where
  | startRecord
  | startField
  | inField
  | inQuotedField
  | quoteInQuotedField
  | eatCrnl
  deriving DecidableEq

/-- What the reader refuses: a line break inside an unquoted line, and a field over the limit. -/
inductive CsvError where
  | newLineInLine
  | fieldTooLong
  deriving DecidableEq

/-- A reader inside a record: the field it is at and the fields before it. -/
structure Reader where
  state : ReadState
  field : List Char
  fields : List (List Char)
  deriving DecidableEq

/-- A record and the number of lines that it takes. -/
structure Record where
  fields : List (List Char)
  lines : Nat
  deriving DecidableEq

def isNewline (c : Char) : Bool := c == '\n' || c == '\r'

namespace Reader

/-- The reader before a record. -/
def fresh : Reader := ⟨.startRecord, [], []⟩

/-- The field is complete. -/
def saveField (r : Reader) (next : ReadState) : Reader := ⟨next, [], r.fields ++ [r.field]⟩

section Reading

variable (limit : Nat) (delimiter : Char)

/-- One more character of the field. -/
def addChar (r : Reader) (c : Char) (next : ReadState) : Except CsvError Reader :=
  if limit ≤ r.field.length then .error .fieldTooLong
  else .ok ⟨next, r.field ++ [c], r.fields⟩

/-- A character at the start of a field. -/
def readStart (r : Reader) (c : Char) : Except CsvError Reader :=
  if isNewline c then .ok (r.saveField .eatCrnl)
  else if c = '"' then .ok { r with state := .inQuotedField }
  else if c = delimiter then .ok (r.saveField .startField)
  else r.addChar limit c .inField

/-- A character of a line. -/
def read (r : Reader) (c : Char) : Except CsvError Reader :=
  match r.state with
  | .startRecord =>
      if isNewline c then .ok { r with state := .eatCrnl } else r.readStart limit delimiter c
  | .startField => r.readStart limit delimiter c
  | .inField =>
      if isNewline c then .ok (r.saveField .eatCrnl)
      else if c = delimiter then .ok (r.saveField .startField)
      else r.addChar limit c .inField
  | .inQuotedField =>
      if c = '"' then .ok { r with state := .quoteInQuotedField }
      else r.addChar limit c .inQuotedField
  | .quoteInQuotedField =>
      if c = '"' then r.addChar limit c .inQuotedField
      else if c = delimiter then .ok (r.saveField .startField)
      else if isNewline c then .ok (r.saveField .eatCrnl)
      else r.addChar limit c .inField
  | .eatCrnl => if isNewline c then .ok r else .error .newLineInLine

/-- The characters of a line, without its end. -/
def readAll (r : Reader) (cs : List Char) : Except CsvError Reader :=
  cs.foldlM (fun r c => r.read limit delimiter c) r

end Reading

/-- The end of a line.  A quoted field stays open over it. -/
def endLine (r : Reader) : Reader :=
  match r.state with
  | .startRecord => r
  | .startField | .inField | .quoteInQuotedField => r.saveField .startRecord
  | .inQuotedField => r
  | .eatCrnl => { r with state := .startRecord }

end Reader

/-- The lines of a text, each with its line end. -/
def lines : List Char → List (List Char)
  | [] => []
  | c :: cs =>
      if c = '\n' then [c] :: lines cs
      else
        match lines cs with
        | [] => [[c]]
        | line :: rest => (c :: line) :: rest

section Records

variable (limit : Nat) (delimiter : Char)

/-- The records of the lines that follow, the reader having taken `taken` lines of the
present record.  A record that the text leaves open ends with it. -/
def records (r : Reader) (taken : Nat) : List (List Char) → Except CsvError (List Record)
  | [] =>
      if r.state = .inQuotedField ∨ r.field ≠ [] then
        .ok [⟨(r.saveField .startRecord).fields, taken⟩]
      else .ok []
  | line :: rest => do
      let r ← r.readAll limit delimiter line
      if r.endLine.state = .startRecord then
        let more ← records .fresh 0 rest
        .ok (⟨r.endLine.fields, taken + 1⟩ :: more)
      else records r.endLine (taken + 1) rest

/-- `csv.reader(StringIO(text))`. -/
def readText (text : List Char) : Except CsvError (List Record) :=
  records limit delimiter .fresh 0 (lines text)

/-- The records from the end of a line on. -/
def afterLine (r : Reader) (taken : Nat) (rest : List (List Char)) :
    Except CsvError (List Record) :=
  if r.endLine.state = .startRecord then do
    let more ← records limit delimiter .fresh 0 rest
    .ok (⟨r.endLine.fields, taken + 1⟩ :: more)
  else records limit delimiter r.endLine (taken + 1) rest

/-- The records from the middle of a line on. -/
def scan (r : Reader) (taken : Nat) (text : List Char) : Except CsvError (List Record) :=
  match lines text with
  | [] => afterLine limit delimiter r taken []
  | line :: rest => do
      let r ← r.readAll limit delimiter line
      afterLine limit delimiter r taken rest

end Records

/-- The physical line on which each record starts, counted from `start`. -/
def starts (start : Nat) : List Record → List (Nat × Record)
  | [] => []
  | record :: rest => (start, record) :: starts (start + record.lines) rest

/-! ## Lines and characters -/

section Scanning

variable {limit : Nat} {delimiter c : Char} {r : Reader} {taken : Nat} {text cs : List Char}

@[simp] theorem isNewline_iff : isNewline c = true ↔ c = '\n' ∨ c = '\r' := by
  simp [isNewline]

@[simp] theorem lines_newline : lines ('\n' :: text) = ['\n'] :: lines text := by
  simp [lines]

theorem lines_eq_nil : lines text = [] ↔ text = [] := by
  cases text with
  | nil => simp [lines]
  | cons c cs =>
      simp only [lines, reduceCtorEq, iff_false]
      split
      · simp
      · split <;> simp

/-- The lines of a text make up the text. -/
theorem flatten_lines : (lines text).flatten = text := by
  induction text with
  | nil => rfl
  | cons c cs ih =>
      rw [lines]
      split
      · simp [ih]
      · split
        · next hnil => simp [lines_eq_nil.mp hnil]
        · next hlines =>
            rw [hlines] at ih
            simp [← ih]

@[simp] theorem readAll_nil : r.readAll limit delimiter [] = pure r := rfl

theorem readAll_cons :
    r.readAll limit delimiter (c :: cs) =
      r.read limit delimiter c >>= fun r => r.readAll limit delimiter cs := rfl

theorem readAll_append {ds : List Char} :
    r.readAll limit delimiter (cs ++ ds) =
      r.readAll limit delimiter cs >>= fun r => r.readAll limit delimiter ds :=
  List.foldlM_append

theorem scan_nil : scan limit delimiter r taken [] = afterLine limit delimiter r taken [] := rfl

theorem scan_newline :
    scan limit delimiter r taken ('\n' :: text) =
      r.read limit delimiter '\n' >>= fun r => afterLine limit delimiter r taken (lines text) := by
  simp only [scan, lines_newline, readAll_cons, readAll_nil, bind_assoc, pure_bind]

theorem scan_cons (hc : c ≠ '\n') :
    scan limit delimiter r taken (c :: text) =
      r.read limit delimiter c >>= fun r => scan limit delimiter r taken text := by
  simp only [scan, lines, if_neg hc]
  cases lines text with
  | nil => simp only [readAll_cons, readAll_nil, bind_assoc, pure_bind]
  | cons line rest => simp only [readAll_cons, bind_assoc]

/-- Reading the lines of a text is reading the text. -/
theorem records_lines (h : text ≠ []) :
    records limit delimiter r taken (lines text) = scan limit delimiter r taken text := by
  rw [scan]
  cases hlines : lines text with
  | nil => exact absurd (lines_eq_nil.mp hlines) h
  | cons line rest => rfl

end Scanning

/-! ## The lines that records take -/

section Counting

variable {limit : Nat} {delimiter : Char} {r : Reader} {taken : Nat} {ls : List (List Char)}
variable {rs : List Record}

/-- Between two lines the reader is at the start of a record or inside a quoted field. -/
def BetweenLines (r : Reader) (taken : Nat) : Prop :=
  (r = .fresh ∧ taken = 0) ∨ (r.state = .inQuotedField ∧ 0 < taken)

theorem BetweenLines.endLine (h : r.endLine.state ≠ .startRecord) :
    BetweenLines r.endLine (taken + 1) := by
  refine .inr ⟨?_, Nat.succ_pos taken⟩
  unfold Reader.endLine at h ⊢
  split at h <;> simp_all [Reader.saveField]

/-- The records of a text take its lines, each at least one. -/
theorem records_take (hbetween : BetweenLines r taken)
    (hrs : records limit delimiter r taken ls = .ok rs) :
    (rs.map (·.lines)).sum = taken + ls.length ∧ ∀ record ∈ rs, 0 < record.lines := by
  induction ls generalizing r taken rs with
  | nil =>
      unfold records at hrs
      obtain ⟨rfl, rfl⟩ | ⟨hstate, hpos⟩ := hbetween
      · rw [if_neg (by simp [Reader.fresh])] at hrs
        cases hrs
        simp
      · rw [if_pos (.inl hstate)] at hrs
        cases hrs
        simpa using hpos
  | cons line rest ih =>
      unfold records at hrs
      cases hread : r.readAll limit delimiter line with
      | error e =>
          rw [hread] at hrs
          cases hrs
      | ok r₁ =>
          rw [hread] at hrs
          change (if r₁.endLine.state = .startRecord then _ else _) = _ at hrs
          split at hrs
          · cases hmore : records limit delimiter .fresh 0 rest with
            | error e =>
                rw [hmore] at hrs
                cases hrs
            | ok more =>
                rw [hmore] at hrs
                cases hrs
                obtain ⟨hsum, hpos⟩ := ih (.inl ⟨rfl, rfl⟩) hmore
                refine ⟨?_, List.forall_mem_cons.mpr ⟨Nat.succ_pos taken, hpos⟩⟩
                rw [List.map_cons, List.sum_cons, hsum, List.length_cons]
                show taken + 1 + _ = _
                omega
          · next hopen =>
              obtain ⟨hsum, hpos⟩ := ih (BetweenLines.endLine hopen) hrs
              refine ⟨?_, hpos⟩
              rw [hsum, List.length_cons]
              omega

/-- The records of a text take its lines, each at least one. -/
theorem readText_take {text : List Char} (hrs : readText limit delimiter text = .ok rs) :
    (rs.map (·.lines)).sum = (lines text).length ∧ ∀ record ∈ rs, 0 < record.lines := by
  have hall := records_take (.inl ⟨rfl, rfl⟩) hrs
  rwa [Nat.zero_add] at hall

end Counting

end Csv

end CfdiVault
