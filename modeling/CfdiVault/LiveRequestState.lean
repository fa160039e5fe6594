import CfdiVault.Domain
import CfdiVault.Library.Keyed
import CfdiVault.Library.Program

/-!
# Local state of live metadata requests

The JSON file that remembers every accepted live metadata request, and the
operations on it: decode, list, load, upsert, persist and summarize.

The file is a `StateFile`: absent, broken in one of the ways the reader
distinguishes, or a decoded JSON document with any content.  A record read from
a document is not the document's text: `fromDocument` normalizes the status and
fills in `updatedAt`, `expiresAt` and the check time of a pending record.
`Normal` collects what reading guarantees, and `fromDocument_toDocument` shows
that a normal record survives being written and read again.  From that the one
fact every later argument uses: `upsert_ok`, the effect of an upsert on the
decoded list, with `list_writeState` to read it back.

The write itself, a temporary file that atomically replaces the state file, is
taken to succeed; what precedes it (reading and decoding the old file) is where
an operation fails.
-/

namespace CfdiVault

namespace LiveRequestState

/-! ## Statuses -/

abbrev REQUEST_ACCEPTED := "REQUEST_ACCEPTED"
abbrev VERIFY_SCHEDULED := "VERIFY_SCHEDULED"
abbrev VERIFY_IN_PROGRESS := "VERIFY_IN_PROGRESS"
abbrev VERIFY_IN_PROGRESS_SAT := "VERIFY_IN_PROGRESS_SAT"
abbrev VERIFY_FINISHED := "VERIFY_FINISHED"
abbrev VERIFY_NO_DATA := "VERIFY_NO_DATA"
abbrev VERIFY_REJECTED := "VERIFY_REJECTED"
abbrev VERIFY_EXPIRED := "VERIFY_EXPIRED"
abbrev VERIFY_FAILED_RETRYABLE := "VERIFY_FAILED_RETRYABLE"
abbrev VERIFY_FAILED_PERMANENT := "VERIFY_FAILED_PERMANENT"
abbrev PACKAGE_READY := "PACKAGE_READY"
abbrev PACKAGE_DOWNLOAD_SCHEDULED := "PACKAGE_DOWNLOAD_SCHEDULED"
abbrev PACKAGE_DOWNLOADED := "PACKAGE_DOWNLOADED"

/-- Pending statuses of files written before the scheduler existed. -/
def LEGACY_PENDING_VERIFY_STATUSES : List String := ["accepted", "submitted"]

/-- Statuses from which a later run may still select a request. -/
def PENDING_VERIFY_STATUSES : List String :=
  [REQUEST_ACCEPTED, VERIFY_SCHEDULED, VERIFY_IN_PROGRESS_SAT, VERIFY_FAILED_RETRYABLE] ++
    LEGACY_PENDING_VERIFY_STATUSES

/-- Statuses in which verification is over. -/
def TERMINAL_VERIFY_STATUSES : List String :=
  [VERIFY_FINISHED, VERIFY_NO_DATA, VERIFY_REJECTED, VERIFY_EXPIRED, VERIFY_FAILED_PERMANENT,
    PACKAGE_READY, PACKAGE_DOWNLOAD_SCHEDULED, PACKAGE_DOWNLOADED]

/-- No status is both pending and terminal. -/
theorem not_pending_of_terminal {status : String} (h : status ∈ TERMINAL_VERIFY_STATUSES) :
    status ∉ PENDING_VERIFY_STATUSES := by
  have hall : ∀ s ∈ TERMINAL_VERIFY_STATUSES, s ∉ PENDING_VERIFY_STATUSES := by decide +kernel
  exact hall status h

/-- `_normalize_status`: the legacy words and `REQUEST_ACCEPTED` become
`VERIFY_SCHEDULED`, and so does a blank status. -/
def normalizeStatus (value : String) : String :=
  let status := Text.strip value
  if Text.lower status ∈ LEGACY_PENDING_VERIFY_STATUSES ∨ status = REQUEST_ACCEPTED then
    VERIFY_SCHEDULED
  else if status = "" then VERIFY_SCHEDULED
  else status

theorem normalizeStatus_scheduled : normalizeStatus VERIFY_SCHEDULED = VERIFY_SCHEDULED := by
  decide +kernel

theorem normalizeStatus_idem (value : String) :
    normalizeStatus (normalizeStatus value) = normalizeStatus value := by
  by_cases h : Text.lower (Text.strip value) ∈ LEGACY_PENDING_VERIFY_STATUSES ∨
      Text.strip value = REQUEST_ACCEPTED
  · have hv : normalizeStatus value = VERIFY_SCHEDULED := by
      rw [normalizeStatus]
      exact if_pos h
    rw [hv, normalizeStatus_scheduled]
  · by_cases hb : Text.strip value = ""
    · have hv : normalizeStatus value = VERIFY_SCHEDULED := by
        rw [normalizeStatus, if_neg h, if_pos hb]
      rw [hv, normalizeStatus_scheduled]
    · have hv : normalizeStatus value = Text.strip value := by
        rw [normalizeStatus, if_neg h, if_neg hb]
      rw [hv, normalizeStatus, Text.strip_strip, if_neg h, if_neg hb]

/-! ## Failures and timestamps -/

/-- What an operation on the state file raises. -/
inductive StateFault where
  /-- `LiveRequestStateError(reason)` -/
  | liveRequest (reason : String)
  /-- `OverflowError` of date arithmetic -/
  | overflow
  /-- `UnicodeDecodeError` of a file that is not UTF-8 -/
  | unicode
  deriving DecidableEq

/-- The fault of a document that does not have the expected shape. -/
def invalid : StateFault := .liveRequest "request-state-invalid"

abbrev DEFAULT_VERIFY_INITIAL_DELAY : Timedelta := Timedelta.minutes 5
abbrev DEFAULT_VERIFY_MAX_AGE : Timedelta := Timedelta.hours 72

/-- The value of an option, or the given fault. -/
def orFault {α : Type} (fault : StateFault) : Option α → Except StateFault α
  | some a => .ok a
  | none => .error fault

theorem orFault_eq_ok {α : Type} {fault : StateFault} {o : Option α} {a : α}
    (h : orFault fault o = .ok a) : o = some a := by
  cases o with
  | none => cases h
  | some b => cases h; rfl

/-- `_normalize_dt`. -/
def normalizeDt (t : DateTime) : Except StateFault Instant := orFault .overflow t.toInstant?

/-- `_parse_dt`, also `parse_state_datetime`. -/
def parseStateDatetime (value : String) : Except StateFault Instant := do
  if value = "" then .error invalid
  let parsed ← orFault invalid (DateTime.fromisoformat (Text.replaceChar 'Z' "+00:00" value))
  normalizeDt parsed

/-- `_format_dt` of a UTC reading, whose offset prints as `+00:00` and is then
replaced by `Z`. -/
def formatInstant (t : Instant) : String := DateTime.isoformat ⟨t, none⟩ ++ "Z"

/-- `_format_dt`, also `format_state_datetime`. -/
def formatStateDatetime (t : DateTime) : Except StateFault String := do
  let instant ← normalizeDt t
  pure (formatInstant instant)

/-- `value + delta` on the wall clock of `value`. -/
def addDt (t : DateTime) (d : Timedelta) : Except StateFault DateTime := do
  let wall ← orFault .overflow (t.wall.add? d)
  pure ⟨wall, t.offset⟩

/-- `instant + delta`. -/
def addInstant (t : Instant) (d : Timedelta) : Except StateFault Instant :=
  orFault .overflow (t.add? d)

theorem formatInstant_ne_empty (t : Instant) : formatInstant t ≠ "" := by
  intro h
  have hlen := congrArg (fun s => s.toList.length) h
  simp [formatInstant, String.toList_append] at hlen

theorem formatStateDatetime_ne_empty {t : DateTime} {text : String}
    (h : formatStateDatetime t = .ok text) : text ≠ "" := by
  obtain ⟨instant, -, h⟩ := Checked.bind_eq_ok.mp h
  rw [← Checked.pure_eq_ok.mp h]
  exact formatInstant_ne_empty instant

/-! ## Redaction -/

/-- `redact_identifier`. -/
def redactIdentifier (value : String) : String :=
  if value = "" then ""
  else if value.length ≤ 8 then "<redacted>"
  else Text.takeChars 4 value ++ "..." ++ Text.takeLast 4 value

/-- `redact_package_ref`. -/
def redactPackageRef (rt : Runtime) (value : String) : String :=
  let text := Text.strip value
  if text = "" then ""
  else "pkg-" ++ Text.takeChars 12 (rt.sha256Text text).hex

/-- The reference of an id that is not blank has no blanks around it. -/
theorem redactPackageRef_strip {rt : Runtime} {value : String} (h : Text.strip value ≠ "") :
    Text.strip (redactPackageRef rt value) = redactPackageRef rt value ∧
      redactPackageRef rt value ≠ "" := by
  rw [redactPackageRef, if_neg h]
  constructor
  · refine Text.strip_of_no_space fun c hc => ?_
    rw [String.toList_append] at hc
    rcases List.mem_append.mp hc with hpkg | hhex
    · have hprefixed : "pkg-".toList.any Text.isSpace = false := by decide
      exact Bool.eq_false_iff.mpr (List.any_eq_false.mp hprefixed c hpkg)
    · rw [Text.takeChars, String.toList_ofList] at hhex
      exact Digest.hex_no_space _ c (List.mem_of_mem_take hhex)
  · intro hempty
    have hlist := congrArg String.toList hempty
    rw [String.toList_append] at hlist
    exact absurd (List.append_eq_nil_iff.mp hlist).1 (by decide)

/-- `_request_ref`. -/
def requestRefOf (rt : Runtime) (profileId criteriaHash idSolicitud : String) : String :=
  let digest := (rt.sha256Text (profileId ++ ":" ++ criteriaHash ++ ":" ++ idSolicitud)).hex
  "req-" ++ Text.takeChars 12 criteriaHash ++ "-" ++ Text.takeChars 12 digest

/-- `_hash_optional`. -/
def hashOptional (rt : Runtime) : Option String → String
  | none => ""
  | some s => if s = "" then "" else Text.takeChars 16 (rt.sha256Text s).hex

/-- A hexadecimal digit of either case. -/
def isHexDigit (c : Char) : Bool :=
  ('0' ≤ c && c ≤ '9') || ('a' ≤ c && c ≤ 'f') || ('A' ≤ c && c ≤ 'F')

/-- A word character of the pattern language. -/
def isWordChar (rt : Runtime) (c : Char) : Bool := c == '_' || rt.alnum c

/-- Length of the longest match of `[0-9a-f][0-9a-f-]{14,120}[0-9a-f]\b` at the
start of the text. -/
def identifierLength (rt : Runtime) (cs : List Char) : Option Nat :=
  let matchesAt := fun n =>
    let found := cs.take n
    found.length == n && found.all (fun c => isHexDigit c || c == '-') &&
      (found.head?.map isHexDigit).getD false && (found.getLast?.map isHexDigit).getD false &&
      !((cs[n]?.map (isWordChar rt)).getD false)
  ((List.range 107).map (122 - ·)).find? matchesAt

/-- `_safe_message`. -/
def safeMessage (rt : Runtime) (value : String) : String :=
  let text := Text.strip (Text.replaceChar '\n' " " (Text.replaceChar '\r' " " value))
  Text.takeChars 256 (String.ofList (Text.substitute (isWordChar rt) (identifierLength rt)
    redactIdentifier false 0 text.toList))

end LiveRequestState

open LiveRequestState

/-! ## Records -/

/-- Recoverable local reference to one accepted live metadata request. -/
structure LiveMetadataRequestRecord where
  requestRef : String
  profileId : String
  direction : String
  kind : String
  operation : String
  fechaInicial : String
  fechaFinal : String
  criteriaHash : String
  idSolicitud : String
  idSolicitudRedacted : String
  satCode : String
  satMessage : String
  createdAt : String
  live : Bool
  sourceCommand : String
  permitIdHash : String
  status : String
  attemptCount : Int := 0
  nextCheckAt : String := ""
  lastCheckedAt : String := ""
  lastErrorKind : String := ""
  lastHttpStatus : Option Int := none
  satEstadoSolicitud : String := ""
  satCodigoEstado : String := ""
  numeroCfdis : Int := 0
  packageIds : List String := []
  packageRefsRedacted : List String := []
  updatedAt : String := ""
  expiresAt : String := ""
  deriving DecidableEq

namespace LiveMetadataRequestRecord

/-- `to_document`. -/
def toDocument (r : LiveMetadataRequestRecord) : List (String × Json) := [
  ("requestRef", .str r.requestRef),
  ("profileId", .str r.profileId),
  ("direction", .str r.direction),
  ("kind", .str r.kind),
  ("operation", .str r.operation),
  ("fechaInicial", .str r.fechaInicial),
  ("fechaFinal", .str r.fechaFinal),
  ("criteriaHash", .str r.criteriaHash),
  ("idSolicitud", .str r.idSolicitud),
  ("idSolicitudRedacted", .str r.idSolicitudRedacted),
  ("satCode", .str r.satCode),
  ("satMessage", .str r.satMessage),
  ("createdAt", .str r.createdAt),
  ("live", .bool r.live),
  ("sourceCommand", .str r.sourceCommand),
  ("permitIdHash", .str r.permitIdHash),
  ("status", .str r.status),
  ("attemptCount", .int r.attemptCount),
  ("nextCheckAt", .str r.nextCheckAt),
  ("lastCheckedAt", .str r.lastCheckedAt),
  ("lastErrorKind", .str r.lastErrorKind),
  ("lastHttpStatus", (r.lastHttpStatus.map Json.int).getD .null),
  ("satEstadoSolicitud", .str r.satEstadoSolicitud),
  ("satCodigoEstado", .str r.satCodigoEstado),
  ("numeroCfdis", .int r.numeroCfdis),
  ("packageIds", .arr (r.packageIds.map Json.str)),
  ("packageRefsRedacted", .arr (r.packageRefsRedacted.map Json.str)),
  ("updatedAt", .str r.updatedAt),
  ("expiresAt", .str r.expiresAt)]

end LiveMetadataRequestRecord

namespace LiveRequestState

/-- A field that must be present with the given type. -/
def required {α : Type} (read : Json → Option α) (ms : List (String × Json)) (key : String) :
    Except StateFault α :=
  orFault invalid (read (Json.field ms key))

/-- A field that may be missing or `null`, and must otherwise have the given type. -/
def optional {α : Type} (read : Json → Option α) (default : α) (ms : List (String × Json))
    (key : String) : Except StateFault α :=
  match Json.field ms key with
  | .null => .ok default
  | value => orFault invalid (read value)

def requiredStr := required Json.str?
def requiredBool := required Json.bool?
def optionalStr := optional Json.str? ""
def optionalInt := optional Json.int? 0
def optionalIntOrNone := optional (fun value => (Json.int? value).map some) none
def optionalStrTuple := optional Json.strs? []

/-- The fields of a document that `from_document` normalizes or fills in. -/
structure StoredTimes where
  createdAt : String
  status : String
  updatedAt : String
  expiresAt : String
  nextCheckAt : String

/-- The stored text, or a time computed from the creation time when it is blank. -/
def orAfterCreation (stored createdAt : String) (delay : Timedelta) : Except StateFault String :=
  if stored = "" then do
    let created ← parseStateDatetime createdAt
    let later ← addInstant created delay
    pure (formatInstant later)
  else pure stored

/-- The check time of a record: a pending one always gets one. -/
def checkTime (status stored createdAt : String) : Except StateFault String :=
  if status ∈ PENDING_VERIFY_STATUSES then
    orAfterCreation stored createdAt DEFAULT_VERIFY_INITIAL_DELAY
  else pure stored

/-- The first statements of `from_document`. -/
def readTimes (ms : List (String × Json)) : Except StateFault StoredTimes := do
  let createdAt ← requiredStr ms "createdAt"
  let storedStatus ← requiredStr ms "status"
  let status := normalizeStatus storedStatus
  let storedUpdated ← optionalStr ms "updatedAt"
  let updatedAt := if storedUpdated = "" then createdAt else storedUpdated
  let storedExpires ← optionalStr ms "expiresAt"
  let expiresAt ← orAfterCreation storedExpires createdAt DEFAULT_VERIFY_MAX_AGE
  let storedNext ← optionalStr ms "nextCheckAt"
  let nextCheckAt ← checkTime status storedNext createdAt
  pure ⟨createdAt, status, updatedAt, expiresAt, nextCheckAt⟩

/-- `LiveMetadataRequestRecord.from_document`. -/
def fromDocument (ms : List (String × Json)) : Except StateFault LiveMetadataRequestRecord := do
  let times ← readTimes ms
  pure {
    requestRef := ← requiredStr ms "requestRef"
    profileId := ← requiredStr ms "profileId"
    direction := ← requiredStr ms "direction"
    kind := ← requiredStr ms "kind"
    operation := ← requiredStr ms "operation"
    fechaInicial := ← requiredStr ms "fechaInicial"
    fechaFinal := ← requiredStr ms "fechaFinal"
    criteriaHash := ← requiredStr ms "criteriaHash"
    idSolicitud := ← requiredStr ms "idSolicitud"
    idSolicitudRedacted := ← requiredStr ms "idSolicitudRedacted"
    satCode := ← requiredStr ms "satCode"
    satMessage := ← requiredStr ms "satMessage"
    createdAt := times.createdAt
    live := ← requiredBool ms "live"
    sourceCommand := ← requiredStr ms "sourceCommand"
    permitIdHash := ← requiredStr ms "permitIdHash"
    status := times.status
    attemptCount := ← optionalInt ms "attemptCount"
    nextCheckAt := times.nextCheckAt
    lastCheckedAt := ← optionalStr ms "lastCheckedAt"
    lastErrorKind := ← optionalStr ms "lastErrorKind"
    lastHttpStatus := ← optionalIntOrNone ms "lastHttpStatus"
    satEstadoSolicitud := ← optionalStr ms "satEstadoSolicitud"
    satCodigoEstado := ← optionalStr ms "satCodigoEstado"
    numeroCfdis := ← optionalInt ms "numeroCfdis"
    packageIds := ← optionalStrTuple ms "packageIds"
    packageRefsRedacted := ← optionalStrTuple ms "packageRefsRedacted"
    updatedAt := times.updatedAt
    expiresAt := times.expiresAt }

/-- What reading a record guarantees about it. -/
structure Normal (r : LiveMetadataRequestRecord) : Prop where
  status : normalizeStatus r.status = r.status
  expiresAt : r.expiresAt ≠ ""
  updatedAt : r.updatedAt = "" → r.createdAt = ""
  nextCheckAt : r.status ∈ PENDING_VERIFY_STATUSES → r.nextCheckAt ≠ ""

theorem orAfterCreation_of_ne {stored createdAt : String} {delay : Timedelta} (h : stored ≠ "") :
    orAfterCreation stored createdAt delay = .ok stored := by
  rw [orAfterCreation, if_neg h]
  rfl

theorem orAfterCreation_ne_empty {stored createdAt text : String} {delay : Timedelta}
    (h : orAfterCreation stored createdAt delay = .ok text) : text ≠ "" := by
  by_cases hs : stored = ""
  · rw [orAfterCreation, if_pos hs] at h
    obtain ⟨created, -, h⟩ := Checked.bind_eq_ok.mp h
    obtain ⟨later, -, h⟩ := Checked.bind_eq_ok.mp h
    rw [← Checked.pure_eq_ok.mp h]
    exact formatInstant_ne_empty later
  · rw [orAfterCreation_of_ne hs] at h
    injection h with h
    rw [← h]
    exact hs

/-- The times of a normal record read back as written. -/
theorem readTimes_toDocument {r : LiveMetadataRequestRecord} (h : Normal r) :
    readTimes r.toDocument =
      .ok ⟨r.createdAt, r.status, r.updatedAt, r.expiresAt, r.nextCheckAt⟩ := by
  have hcreated : requiredStr r.toDocument "createdAt" = .ok r.createdAt := rfl
  have hstatus : requiredStr r.toDocument "status" = .ok r.status := rfl
  have hupdated : optionalStr r.toDocument "updatedAt" = .ok r.updatedAt := rfl
  have hexpires : optionalStr r.toDocument "expiresAt" = .ok r.expiresAt := rfl
  have hnext : optionalStr r.toDocument "nextCheckAt" = .ok r.nextCheckAt := rfl
  have hupdatedAt : (if r.updatedAt = "" then r.createdAt else r.updatedAt) = r.updatedAt := by
    by_cases hu : r.updatedAt = ""
    · rw [if_pos hu, hu, h.updatedAt hu]
    · rw [if_neg hu]
  have hnextAt : checkTime r.status r.nextCheckAt r.createdAt = .ok r.nextCheckAt := by
    by_cases hp : r.status ∈ PENDING_VERIFY_STATUSES
    · rw [checkTime, if_pos hp, orAfterCreation_of_ne (h.nextCheckAt hp)]
    · rw [checkTime, if_neg hp]
      rfl
  simp only [readTimes, hcreated, hstatus, hupdated, hexpires, hnext, Checked.ok_bind, h.status,
    orAfterCreation_of_ne h.expiresAt, hnextAt, hupdatedAt]
  rfl

/-- A normal record survives being written and read again. -/
theorem fromDocument_toDocument {r : LiveMetadataRequestRecord} (h : Normal r) :
    fromDocument r.toDocument = .ok r := by
  have hpackages : optionalStrTuple r.toDocument "packageIds" = .ok r.packageIds := by
    change orFault invalid (Json.strs? (.arr (r.packageIds.map Json.str))) = _
    rw [Json.strs?_map_str]
    rfl
  have hrefs : optionalStrTuple r.toDocument "packageRefsRedacted" = .ok r.packageRefsRedacted := by
    change orFault invalid (Json.strs? (.arr (r.packageRefsRedacted.map Json.str))) = _
    rw [Json.strs?_map_str]
    rfl
  have hhttp : optionalIntOrNone r.toDocument "lastHttpStatus" = .ok r.lastHttpStatus := by
    change optional (fun value => (Json.int? value).map some) none
      [("lastHttpStatus", (r.lastHttpStatus.map Json.int).getD .null)] "lastHttpStatus" = _
    cases r.lastHttpStatus <;> rfl
  -- the other fields are read back by evaluation
  rw [fromDocument, readTimes_toDocument h, Checked.ok_bind]
  change (do
    let lastHttpStatus ← optionalIntOrNone r.toDocument "lastHttpStatus"
    let packageIds ← optionalStrTuple r.toDocument "packageIds"
    let packageRefsRedacted ← optionalStrTuple r.toDocument "packageRefsRedacted"
    pure { r with
      lastHttpStatus := lastHttpStatus
      packageIds := packageIds
      packageRefsRedacted := packageRefsRedacted }) = _
  rw [hhttp, hpackages, hrefs]
  rfl

/-- The times read from a document are those of a normal record. -/
theorem readTimes_normal {ms : List (String × Json)} {t : StoredTimes}
    (h : readTimes ms = .ok t) : normalizeStatus t.status = t.status ∧ t.expiresAt ≠ "" ∧
      (t.updatedAt = "" → t.createdAt = "") ∧
      (t.status ∈ PENDING_VERIFY_STATUSES → t.nextCheckAt ≠ "") := by
  obtain ⟨createdAt, -, h⟩ := Checked.bind_eq_ok.mp h
  obtain ⟨storedStatus, -, h⟩ := Checked.bind_eq_ok.mp h
  obtain ⟨storedUpdated, -, h⟩ := Checked.bind_eq_ok.mp h
  obtain ⟨storedExpires, -, h⟩ := Checked.bind_eq_ok.mp h
  obtain ⟨expiresAt, hexpires, h⟩ := Checked.bind_eq_ok.mp h
  obtain ⟨storedNext, -, h⟩ := Checked.bind_eq_ok.mp h
  obtain ⟨nextCheckAt, hnext, h⟩ := Checked.bind_eq_ok.mp h
  have ht := Checked.pure_eq_ok.mp h
  subst ht
  dsimp only
  refine ⟨normalizeStatus_idem storedStatus, orAfterCreation_ne_empty hexpires, ?_, ?_⟩
  · intro hu
    by_cases hs : storedUpdated = ""
    · simpa [hs] using hu
    · simp [hs] at hu
  · intro hp
    rw [checkTime, if_pos hp] at hnext
    exact orAfterCreation_ne_empty hnext

/-- A record read from a document is normal. -/
theorem fromDocument_normal {ms : List (String × Json)} {r : LiveMetadataRequestRecord}
    (h : fromDocument ms = .ok r) : Normal r := by
  obtain ⟨t, ht, h⟩ := Checked.bind_eq_ok.mp h
  obtain ⟨hstatus, hexpires, hupdated, hnext⟩ := readTimes_normal ht
  iterate 24 obtain ⟨_, -, h⟩ := Checked.bind_eq_ok.mp h
  have hr := Checked.pure_eq_ok.mp h
  subst hr
  exact ⟨hstatus, hexpires, hupdated, hnext⟩

/-! ## The state file -/

/-- What is found at the path of the state file. -/
inductive StateFile where
  /-- no regular file -/
  | absent
  /-- reading fails with an `OSError` -/
  | unreadable
  /-- the content is not UTF-8 -/
  | notUtf8
  /-- the content is not JSON -/
  | notJson
  /-- the decoded content -/
  | json (document : Json)

/-- `_read_state`: the list under `requests` of a supported document. -/
def readState : StateFile → Except StateFault (List Json)
  | .absent => .ok []
  | .unreadable => .error (.liveRequest "request-state-io-error")
  | .notUtf8 => .error .unicode
  | .notJson => .error (.liveRequest "request-state-invalid-json")
  | .json document =>
      match document.members? with
      | none => .error invalid
      | some ms =>
          if (Json.field ms "schemaVersion").equalsInt 1 then
            match Json.field ms "requests" with
            | .arr items => .ok items
            | _ => .error invalid
          else .error (.liveRequest "request-state-unsupported-version")

/-- Decode the entries of the list that are objects; the others are skipped. -/
def decodeRecords (items : List Json) : Except StateFault (List LiveMetadataRequestRecord) :=
  (items.filterMap Json.members?).mapM fromDocument

/-- `list_live_metadata_requests`. -/
def listLive (file : StateFile) : Except StateFault (List LiveMetadataRequestRecord) := do
  let items ← readState file
  decodeRecords items

/-- `_write_state`. -/
def writeState (records : List LiveMetadataRequestRecord) : StateFile :=
  .json (.obj [("schemaVersion", .int 1),
    ("requests", .arr (records.map fun r => .obj r.toDocument))])

/-- Newest first; records created at the same time keep their order. -/
def sortByCreation (records : List LiveMetadataRequestRecord) : List LiveMetadataRequestRecord :=
  records.insertionSort fun a b => b.createdAt ≤ a.createdAt

/-- The list after an upsert by request reference. -/
def insertRecord (record : LiveMetadataRequestRecord) (records : List LiveMetadataRequestRecord) :
    List LiveMetadataRequestRecord :=
  Keyed.upsert LiveMetadataRequestRecord.requestRef sortByCreation record records

/-- `upsert_live_metadata_request`. -/
def upsertLive (record : LiveMetadataRequestRecord) (file : StateFile) :
    Except StateFault StateFile := do
  let records ← listLive file
  pure (writeState (insertRecord record records))

/-- `load_live_metadata_request`. -/
def loadLive (file : StateFile) (requestRef : String) :
    Except StateFault LiveMetadataRequestRecord := do
  let requested := Text.strip requestRef
  if requested = "" then .error (.liveRequest "request-ref-required")
  let records ← listLive file
  orFault (.liveRequest "request-state-not-found") (records.find? fun r => r.requestRef = requested)

theorem sortByCreation_perm (records : List LiveMetadataRequestRecord) :
    (sortByCreation records).Perm records :=
  List.perm_insertionSort _ records

theorem mem_insertRecord {r record : LiveMetadataRequestRecord}
    {records : List LiveMetadataRequestRecord} : r ∈ insertRecord record records ↔
      r = record ∨ (r ∈ records ∧ r.requestRef ≠ record.requestRef) :=
  Keyed.mem_upsert sortByCreation_perm

/-- Every listed record is normal. -/
theorem listLive_normal {file : StateFile} {records : List LiveMetadataRequestRecord}
    (h : listLive file = .ok records) : ∀ r ∈ records, Normal r := by
  intro r hr
  obtain ⟨items, -, h⟩ := Checked.bind_eq_ok.mp h
  obtain ⟨ms, -, hdec⟩ := Checked.of_mem_mapM h hr
  exact fromDocument_normal hdec

/-- A written file is read by decoding every record that was encoded. -/
theorem listLive_writeState_eq (records : List LiveMetadataRequestRecord) :
    listLive (writeState records) =
      (records.map LiveMetadataRequestRecord.toDocument).mapM fromDocument := by
  have hread : readState (writeState records) =
      .ok (records.map fun r => .obj r.toDocument) := rfl
  have hmembers : (records.map fun r => Json.obj r.toDocument).filterMap Json.members? =
      records.map LiveMetadataRequestRecord.toDocument := by
    rw [List.filterMap_map]
    exact List.filterMap_eq_map (f := LiveMetadataRequestRecord.toDocument) ▸ rfl
  rw [listLive, hread, Checked.ok_bind, decodeRecords, hmembers]

/-- A written list of normal records is the list that is read. -/
theorem listLive_writeState {records : List LiveMetadataRequestRecord}
    (h : ∀ r ∈ records, Normal r) : listLive (writeState records) = .ok records := by
  rw [listLive_writeState_eq]
  exact Checked.mapM_map fun r hr => fromDocument_toDocument (h r hr)

/-- The effect of an upsert on a readable file. -/
theorem upsertLive_ok {file : StateFile} {record : LiveMetadataRequestRecord}
    {records : List LiveMetadataRequestRecord} (h : listLive file = .ok records) :
    upsertLive record file = .ok (writeState (insertRecord record records)) := by
  rw [upsertLive, h, Checked.ok_bind]
  rfl

/-- After an upsert of a normal record the file reads as the updated list. -/
theorem listLive_upsert {file : StateFile} {record : LiveMetadataRequestRecord}
    {records : List LiveMetadataRequestRecord} (h : listLive file = .ok records)
    (hn : Normal record) :
    listLive (writeState (insertRecord record records)) = .ok (insertRecord record records) := by
  refine listLive_writeState fun r hr => ?_
  rcases mem_insertRecord.mp hr with rfl | ⟨hmem, -⟩
  · exact hn
  · exact listLive_normal h r hmem

/-- A file that cannot be listed cannot be updated either, with the same fault. -/
theorem upsertLive_error {file : StateFile} {record : LiveMetadataRequestRecord} {fault : StateFault}
    (h : listLive file = .error fault) : upsertLive record file = .error fault := by
  rw [upsertLive, h, Checked.error_bind]

/-! ## The only record of a request -/

/-- The file lists `r` as its only record of the request. -/
def StoredIn (file : StateFile) (ref : String) (r : LiveMetadataRequestRecord) : Prop :=
  ∃ rs, listLive file = .ok rs ∧ Keyed.Sole (·.requestRef) ref r rs

theorem StoredIn.unique {file : StateFile} {ref : String} {r r' : LiveMetadataRequestRecord}
    (h : StoredIn file ref r) (h' : StoredIn file ref r') : r = r' := by
  obtain ⟨rs, hlist, hsole⟩ := h
  obtain ⟨rs', hlist', hsole'⟩ := h'
  rw [hlist] at hlist'
  cases hlist'
  exact hsole.unique hsole'

theorem StoredIn.normal {file : StateFile} {ref : String} {r : LiveMetadataRequestRecord}
    (h : StoredIn file ref r) : Normal r := by
  obtain ⟨rs, hlist, hsole⟩ := h
  exact listLive_normal hlist r hsole.mem

/-- A record that replaced the only one of its request is the only one. -/
theorem StoredIn.upsert {file : StateFile} {r r' : LiveMetadataRequestRecord}
    (h : StoredIn file r.requestRef r) (hr' : Normal r') (href : r'.requestRef = r.requestRef) :
    ∃ file', upsertLive r' file = .ok file' ∧ StoredIn file' r.requestRef r' := by
  obtain ⟨rs, hlist, -⟩ := h
  refine ⟨_, upsertLive_ok hlist, _, listLive_upsert hlist hr', ?_⟩
  have hsole := @Keyed.sole_upsert_self _ _ _ LiveMetadataRequestRecord.requestRef _ r' rs
      sortByCreation_perm
  rwa [href] at hsole

/-- Loading a request by its reference finds its only record. -/
theorem StoredIn.load {file : StateFile} {ref : String} {r : LiveMetadataRequestRecord}
    (h : StoredIn file (Text.strip ref) r) (href : Text.strip ref ≠ "") :
    loadLive file ref = .ok r := by
  obtain ⟨rs, hlist, hsole⟩ := h
  have hfound : (rs.find? fun s => s.requestRef = Text.strip ref) = some r := by
    rw [← List.head?_filter, hsole]
    rfl
  have hguard : loadLive file ref = (do
      let records ← listLive file
      orFault (.liveRequest "request-state-not-found")
        (records.find? fun s => s.requestRef = Text.strip ref)) := by
    rw [loadLive, if_neg href]
  rw [hguard, hlist, Checked.ok_bind, hfound]
  rfl

/-! ## Persisting an accepted request -/

/-- The arguments of `persist_live_metadata_request`. -/
structure PersistArgs where
  profileId : String
  query : DownloadQuery
  operation : String
  idSolicitud : String
  satCode : String
  satMessage : String
  sourceCommand : String
  permitRef : Option String
  status : String := VERIFY_SCHEDULED
  now : DateTime

/-- The record that `persist_live_metadata_request` builds. -/
def persistedRecord (rt : Runtime) (args : PersistArgs) :
    Except StateFault LiveMetadataRequestRecord := do
  let requestId := Text.strip args.idSolicitud
  if requestId = "" then .error (.liveRequest "id-solicitud-required")
  let criteriaHash := args.query.criteriaHash rt
  let createdAt ← formatStateDatetime args.now
  let firstCheck ← addDt args.now DEFAULT_VERIFY_INITIAL_DELAY
  let nextCheckAt ← formatStateDatetime firstCheck
  let expiry ← addDt args.now DEFAULT_VERIFY_MAX_AGE
  let expiresAt ← formatStateDatetime expiry
  pure {
    requestRef := requestRefOf rt args.profileId criteriaHash requestId
    profileId := args.profileId
    direction := args.query.direction.value
    kind := args.query.requestType.value
    operation := args.operation
    fechaInicial := (args.query.period.map fun p => p.start.isoformat).getD ""
    fechaFinal := (args.query.period.map fun p => p.end.isoformat).getD ""
    criteriaHash := criteriaHash
    idSolicitud := requestId
    idSolicitudRedacted := redactIdentifier requestId
    satCode := args.satCode
    satMessage := safeMessage rt args.satMessage
    createdAt := createdAt
    live := true
    sourceCommand := args.sourceCommand
    permitIdHash := hashOptional rt args.permitRef
    status := normalizeStatus args.status
    attemptCount := 0
    nextCheckAt := nextCheckAt
    updatedAt := createdAt
    expiresAt := expiresAt }

/-- What every later argument needs of a freshly persisted record. -/
theorem persistedRecord_fresh {rt : Runtime} {args : PersistArgs} {r : LiveMetadataRequestRecord}
    (h : persistedRecord rt args = .ok r) : Normal r ∧ r.attemptCount = 0 ∧ r.live = true ∧
      r.idSolicitud = Text.strip args.idSolicitud ∧ r.profileId = args.profileId ∧
      r.criteriaHash = args.query.criteriaHash rt := by
  rw [persistedRecord] at h
  split at h
  · cases h
  · obtain ⟨createdAt, hcreated, h⟩ := Checked.bind_eq_ok.mp h
    obtain ⟨firstCheck, -, h⟩ := Checked.bind_eq_ok.mp h
    obtain ⟨nextCheckAt, hnext, h⟩ := Checked.bind_eq_ok.mp h
    obtain ⟨expiry, -, h⟩ := Checked.bind_eq_ok.mp h
    obtain ⟨expiresAt, hexpires, h⟩ := Checked.bind_eq_ok.mp h
    have hr := Checked.pure_eq_ok.mp h
    subst hr
    refine ⟨⟨?_, ?_, ?_, ?_⟩, rfl, rfl, rfl, rfl, rfl⟩ <;> dsimp only
    · exact normalizeStatus_idem args.status
    · exact formatStateDatetime_ne_empty hexpires
    · intro hempty
      exact absurd hempty (formatStateDatetime_ne_empty hcreated)
    · intro _
      exact formatStateDatetime_ne_empty hnext

/-- What a persisted record names and what it keeps of its query. -/
theorem persistedRecord_fields {rt : Runtime} {args : PersistArgs} {r : LiveMetadataRequestRecord}
    (h : persistedRecord rt args = .ok r) :
    r.requestRef = requestRefOf rt args.profileId (args.query.criteriaHash rt) (Text.strip args.idSolicitud) ∧
      r.status = normalizeStatus args.status ∧ r.direction = args.query.direction.value ∧
      r.kind = args.query.requestType.value ∧
      r.fechaInicial = (args.query.period.map fun p => p.start.isoformat).getD "" ∧
      r.fechaFinal = (args.query.period.map fun p => p.end.isoformat).getD "" := by
  rw [persistedRecord] at h
  split at h
  · cases h
  · obtain ⟨createdAt, -, h⟩ := Checked.bind_eq_ok.mp h
    obtain ⟨firstCheck, -, h⟩ := Checked.bind_eq_ok.mp h
    obtain ⟨nextCheckAt, -, h⟩ := Checked.bind_eq_ok.mp h
    obtain ⟨expiry, -, h⟩ := Checked.bind_eq_ok.mp h
    obtain ⟨expiresAt, -, h⟩ := Checked.bind_eq_ok.mp h
    obtain rfl := Checked.pure_eq_ok.mp h
    refine ⟨?_, ?_, ?_, ?_, ?_, ?_⟩ <;> dsimp only

theorem formatStateDatetime_utc (t : Instant) :
    formatStateDatetime (.utc t) = .ok (formatInstant t) := by
  rw [formatStateDatetime, normalizeDt, DateTime.toInstant?_utc]
  rfl

theorem addDt_utc (t : Instant) (d : Timedelta) :
    addDt (.utc t) d = (addInstant t d).map DateTime.utc := by
  show (orFault .overflow (t.add? d) >>= fun wall => pure (DateTime.utc wall)) = _
  rw [addInstant]
  cases t.add? d <;> rfl

/-- A record can be built for every id that is not blank, up to 72 hours before the end
of the calendar. -/
theorem persistedRecord_ok_iff {rt : Runtime} {args : PersistArgs} {now : Instant}
    (hnow : args.now = .utc now) : (∃ r, persistedRecord rt args = .ok r) ↔
      Text.strip args.idSolicitud ≠ "" ∧ (now.add? DEFAULT_VERIFY_MAX_AGE).isSome := by
  by_cases hid : Text.strip args.idSolicitud = ""
  · refine iff_of_false ?_ fun h => h.1 hid
    rintro ⟨r, h⟩
    rw [persistedRecord, if_pos hid] at h
    cases h
  · rw [persistedRecord, if_neg hid, hnow, formatStateDatetime_utc, Checked.ok_bind, addDt_utc,
      addDt_utc]
    cases hexpiry : now.add? DEFAULT_VERIFY_MAX_AGE with
    | none =>
        refine iff_of_false ?_ fun h => absurd h.2 (by simp)
        rintro ⟨r, h⟩
        obtain ⟨firstCheck, -, h⟩ := Checked.bind_eq_ok.mp h
        obtain ⟨nextCheckAt, -, h⟩ := Checked.bind_eq_ok.mp h
        obtain ⟨expiry, hbad, -⟩ := Checked.bind_eq_ok.mp h
        rw [addInstant, hexpiry] at hbad
        cases hbad
    | some expiry =>
        refine iff_of_true ?_ ⟨hid, rfl⟩
        obtain ⟨first, hfirst⟩ := Option.isSome_iff_exists.mp
          (Instant.add?_isSome_mono (a := now) (d := DEFAULT_VERIFY_INITIAL_DELAY)
            (e := DEFAULT_VERIFY_MAX_AGE) (by decide) (by decide) (by rw [hexpiry]; rfl))
        have hcheck : (addInstant now DEFAULT_VERIFY_INITIAL_DELAY).map DateTime.utc =
            .ok (.utc first) := by
          rw [addInstant, hfirst]
          rfl
        have hlast : (addInstant now DEFAULT_VERIFY_MAX_AGE).map DateTime.utc =
            .ok (.utc expiry) := by
          rw [addInstant, hexpiry]
          rfl
        rw [hcheck, Checked.ok_bind, formatStateDatetime_utc, Checked.ok_bind, hlast,
          Checked.ok_bind, formatStateDatetime_utc, Checked.ok_bind]
        exact ⟨_, rfl⟩

/-- `persist_live_metadata_request`: the record and the file it leaves. -/
def persistLive (rt : Runtime) (args : PersistArgs) (file : StateFile) :
    Except StateFault (LiveMetadataRequestRecord × StateFile) := do
  let record ← persistedRecord rt args
  let updated ← upsertLive record file
  pure (record, updated)

/-- A request is persisted exactly when its record can be built and the file listed. -/
theorem persistLive_ok {rt : Runtime} {args : PersistArgs} {file file' : StateFile}
    {r : LiveMetadataRequestRecord} :
    persistLive rt args file = .ok (r, file') ↔ persistedRecord rt args = .ok r ∧
      ∃ rs, listLive file = .ok rs ∧ file' = writeState (insertRecord r rs) := by
  constructor
  · intro h
    obtain ⟨record, hrecord, h⟩ := Checked.bind_eq_ok.mp h
    obtain ⟨updated, hfile, h⟩ := Checked.bind_eq_ok.mp h
    cases Checked.pure_eq_ok.mp h
    refine ⟨hrecord, ?_⟩
    cases hlist : listLive file with
    | error fault => rw [upsertLive_error hlist] at hfile; cases hfile
    | ok rs =>
        rw [upsertLive_ok hlist] at hfile
        cases hfile
        exact ⟨rs, rfl, rfl⟩
  · rintro ⟨hrecord, rs, hlist, rfl⟩
    rw [persistLive, hrecord, Checked.ok_bind, upsertLive_ok hlist]
    rfl

/-! ## Summary -/

/-- Safe aggregate status for the local async verify scheduler. -/
structure LiveMetadataRequestSummary where
  pendingVerifyCount : Nat
  dueVerifyCount : Nat
  nextDueVerification : String
  finishedRequests : Nat
  failedRequests : Nat
  packageReadyCount : Nat
  deriving DecidableEq

/-- `_is_due`. -/
def isDue (now : Instant) (r : LiveMetadataRequestRecord) : Except StateFault Bool :=
  if r.nextCheckAt = "" then .ok false
  else do
    let next ← parseStateDatetime r.nextCheckAt
    pure (decide (next ≤ now))

/-- `summarize_live_metadata_requests`. -/
def summarize (records : List LiveMetadataRequestRecord) (now : Instant) :
    Except StateFault LiveMetadataRequestSummary := do
  let pending := records.filter fun r => r.status ∈ PENDING_VERIFY_STATUSES
  let due ← Checked.filter (isDue now) pending
  let scheduled := ((pending.map fun r => r.nextCheckAt).filter fun s => s ≠ "").insertionSort
    fun a b => a ≤ b
  let count := fun statuses : List String => (records.filter fun r => r.status ∈ statuses).length
  pure {
    pendingVerifyCount := pending.length
    dueVerifyCount := due.length
    nextDueVerification := scheduled.head?.getD ""
    finishedRequests := count [VERIFY_FINISHED, PACKAGE_READY]
    failedRequests := count [VERIFY_FAILED_PERMANENT, VERIFY_REJECTED, VERIFY_EXPIRED]
    packageReadyCount := count [PACKAGE_READY] }

end LiveRequestState

end CfdiVault
