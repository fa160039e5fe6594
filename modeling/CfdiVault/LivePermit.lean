import CfdiVault.Library.IsoFormat
import CfdiVault.LiveCommands

/-!
# Live permits

One-time local permits for guarded live SAT operations: the permit document and its
decoding, the checks at issue (`_validated_request`) and at use
(`_validate_document_policy`), and the two calls over the permit folder,
`create_live_execution_permit` and `validate_and_consume_live_permit`.

The folder maps the name of a file to what is found there.  `PermitHost` is what the calls
take from the machine: its time zone, the resolution of explicit paths, and whether the
permit folder lies inside the repository.  Writing a document is a file operation that
succeeds.
-/

namespace CfdiVault

open LiveRequestState LiveCommands

namespace LivePermit

/-- The scopes that need no credentials. -/
def PROBE_SCOPES : List String :=
  ["transport_probe", "auth_post_probe", "verify_post_probe", "auth_matrix_probe"]

def CREDENTIAL_REQUIRED_SCOPES : List String :=
  ["auth_live_smoke", METADATA_LIVE_SMOKE_SCOPE, BACKFILL_SUBMIT_SCOPE, PACKAGE_DOWNLOAD_SCOPE]

def ALLOWED_SCOPES : List String := PROBE_SCOPES ++ CREDENTIAL_REQUIRED_SCOPES

abbrev MAX_EXPIRES_MINUTES : Nat := 15

abbrev MAX_RANGE_DAYS : Nat := 1

abbrev MAX_ATTEMPTS : Int := 1

abbrev AUTH_ENVELOPE_VARIANT_SECURITY_ONLY := "security_only"

def AUTH_ENVELOPE_VARIANTS : List String :=
  [AUTH_ENVELOPE_VARIANT_SECURITY_ONLY, "action_before_security", "security_before_action"]

abbrev DEFAULT_AUTH_ENVELOPE_VARIANT := AUTH_ENVELOPE_VARIANT_SECURITY_ONLY

/-! ## Refusals -/

inductive PermitFault where
  /-- `LivePermitError`, by its reason -/
  | permit (reason : String)
  | overflow
  | unicode
  /-- an `OSError` -/
  | io
  /-- `AttributeError`, on a document that is no object -/
  | attribute
  deriving DecidableEq

/-- `if condition: raise LivePermitError(reason)`. -/
def refuseIf (condition : Prop) [Decidable condition] (reason : String) : Except PermitFault Unit :=
  if condition then .error (.permit reason) else .ok ()

theorem refuseIf_eq_ok {condition : Prop} [Decidable condition] {reason : String} {u : Unit} :
    refuseIf condition reason = .ok u ↔ ¬ condition := by
  unfold refuseIf
  split_ifs with h
  · exact iff_of_false (fun heq => (nomatch heq)) (not_not.mpr h)
  · exact iff_of_true rfl h

theorem refuseIf_of_not {condition : Prop} [Decidable condition] {reason : String} (h : ¬ condition) :
    refuseIf condition reason = .ok () := refuseIf_eq_ok.mpr h

def orRefuse {α : Type} (fault : PermitFault) : Option α → Except PermitFault α
  | some a => .ok a
  | none => .error fault

theorem orRefuse_eq_ok {α : Type} {fault : PermitFault} {o : Option α} {a : α} :
    orRefuse fault o = .ok a ↔ o = some a := by
  cases o with
  | none => exact iff_of_false (fun h => (nomatch h)) fun h => (nomatch h)
  | some b => simp [orRefuse]

/-! ## Values -/

/-- The offset of the machine's time zone at a wall-clock reading. -/
abbrev TimeZone := Instant → UtcOffset

/-- `astimezone(timezone.utc)`; a naive reading is one of the machine's zone. -/
def astimezoneUtc (zone : TimeZone) (t : DateTime) : Option Instant :=
  Instant.ofMicros? ((t.wall.micros : Int) - (t.offset.getD (zone t.wall)).micros)

/-- `_parse_dt` -/
def parseDt (zone : TimeZone) (value : String) : Except PermitFault Instant := do
  let text := if value.toList.getLast? = some 'Z' then
    String.ofList value.toList.dropLast ++ "+00:00" else value
  let parsed ← orRefuse (.permit "permit-invalid-datetime") (DateTime.fromisoformat text)
  orRefuse .overflow (astimezoneUtc zone parsed)

/-- `_utc_now`, on the time given to a call or else a reading of the clock. -/
def utcNow (now : Option DateTime) (reading : Instant) : Except PermitFault Instant :=
  match now with
  | some value => orRefuse .overflow value.toInstant?
  | none => .ok reading

/-- `_parse_date` -/
def parseDate (value : String) : Except PermitFault Nat :=
  orRefuse (.permit "invalid-date") (DateTime.parseDate value.toList)

/-- `_validate_date_range` -/
def validateDateRange (dateFrom dateTo : String) (maxDays : Int) : Except PermitFault Unit := do
  let start ← parseDate dateFrom
  let «end» ← parseDate dateTo
  refuseIf («end» < start) "invalid-date-range"
  refuseIf (((«end» : Int) - start) + 1 > maxDays) "range-too-wide"

/-- `_max_range_days` -/
def maxRangeDays (scope : String) : Nat :=
  if scope ∈ [BACKFILL_SUBMIT_SCOPE, METADATA_LIVE_SMOKE_SCOPE, PACKAGE_DOWNLOAD_SCOPE] then
    MAX_BACKFILL_RANGE_DAYS
  else MAX_RANGE_DAYS

/-- `PROFILE_ID_PATTERN.fullmatch` -/
def isProfileId (value : String) : Bool :=
  match value.toList with
  | [] => false
  | c :: rest => c.isAlphanum && decide (1 ≤ rest.length ∧ rest.length ≤ 63) &&
      rest.all fun c => c.isAlphanum || c == '_' || c == '.' || c == '-'

/-- `_safe_profile_id` -/
def safeProfileId (value : String) : Except PermitFault String :=
  if isProfileId (Text.strip value) then .ok (Text.strip value)
  else .error (.permit "invalid-profile")

/-- `PERMIT_ID_PATTERN.fullmatch` -/
def isPermitId (value : String) : Bool :=
  decide (8 ≤ value.length ∧ value.length ≤ 128) &&
    value.toList.all fun c => c.isAlphanum || c == '_' || c == '-'

/-- A checkout: the output of `git rev-parse HEAD` if it succeeds, and the resolved path. -/
structure Repository where
  head : Option String
  root : String

/-- `current_repo_identity` -/
def currentRepoIdentity (rt : Runtime) (repo : Repository) : String :=
  if Text.strip (repo.head.getD "") ≠ "" then Text.strip (repo.head.getD "")
  else (rt.sha256Text repo.root).hex

/-! ## The permit document -/

/-- Auditable one-time authorization for one scoped live operation. -/
structure LiveExecutionPermit where
  permitId : String
  scope : String
  profileId : String
  kind : String
  direction : String
  dateFrom : String
  dateTo : String
  maxRangeDays : Int
  maxAttempts : Int
  allowRealSat : Bool
  allowRealCredentials : Bool
  createdAt : Instant
  expiresAt : Instant
  issuedBy : String
  reason : String
  consumed : Bool
  consumedAt : Option Instant
  redactionRequired : Bool
  repoRootHash : String
  authEnvelopeVariant : Option String := none
  wcfActionHeaderEnabled : Option Bool := none
  deriving DecidableEq

/-- `to_document` -/
def LiveExecutionPermit.toDocument (permit : LiveExecutionPermit) : List (String × Json) := [
  ("permitId", .str permit.permitId),
  ("scope", .str permit.scope),
  ("profileId", .str permit.profileId),
  ("kind", .str permit.kind),
  ("direction", .str permit.direction),
  ("dateFrom", .str permit.dateFrom),
  ("dateTo", .str permit.dateTo),
  ("maxRangeDays", .int permit.maxRangeDays),
  ("maxAttempts", .int permit.maxAttempts),
  ("allowRealSat", .bool permit.allowRealSat),
  ("allowRealCredentials", .bool permit.allowRealCredentials),
  ("createdAt", .str (formatInstant permit.createdAt)),
  ("expiresAt", .str (formatInstant permit.expiresAt)),
  ("issuedBy", .str permit.issuedBy),
  ("reason", .str permit.reason),
  ("consumed", .bool permit.consumed),
  ("consumedAt", (permit.consumedAt.map fun t => Json.str (formatInstant t)).getD .null),
  ("redactionRequired", .bool permit.redactionRequired),
  ("repoRootHash", .str permit.repoRootHash),
  ("authEnvelopeVariant", (permit.authEnvelopeVariant.map Json.str).getD .null),
  ("wcfActionHeaderEnabled", (permit.wcfActionHeaderEnabled.map Json.bool).getD .null)]

/-- A field that must be present and pass a reader. -/
def requiredField {α : Type} (read : Json → Option α) (document : List (String × Json)) (key : String) :
    Except PermitFault α :=
  orRefuse (.permit ("permit-" ++ key ++ "-invalid")) (read (Json.field document key))

/-- A text that is not blank. -/
def nonBlank? (value : Json) : Option String :=
  value.str?.filter fun text => Text.strip text ≠ ""

/-- An integer that is no boolean. -/
def strictInt? : Json → Option Int
  | .int n => some n
  | _ => none

def requiredStr := requiredField nonBlank?

def requiredBool := requiredField Json.bool?

def requiredInt := requiredField strictInt?

/-- A field that may be absent or null. -/
def optionalField {α : Type} (read : Json → Except PermitFault α) (document : List (String × Json))
    (key : String) : Except PermitFault (Option α) :=
  match Json.field document key with
  | .null => .ok none
  | value => (read value).map some

/-- `_optional_dt` -/
def optionalDt (zone : TimeZone) := optionalField fun value => do
  let text ← orRefuse (.permit "permit-invalid-consumed-at") value.str?
  parseDt zone text

/-- `_optional_str` -/
def optionalStr := optionalField fun value =>
  orRefuse (.permit "permit-optional-string-invalid") (nonBlank? value)

/-- `_optional_bool` -/
def optionalBool := optionalField fun value =>
  orRefuse (.permit "permit-optional-bool-invalid") value.bool?

/-- `from_document` -/
def fromDocument (zone : TimeZone) (document : List (String × Json)) :
    Except PermitFault LiveExecutionPermit := do
  pure {
    permitId := ← requiredStr document "permitId"
    scope := ← requiredStr document "scope"
    profileId := ← requiredStr document "profileId"
    kind := ← requiredStr document "kind"
    direction := ← requiredStr document "direction"
    dateFrom := ← requiredStr document "dateFrom"
    dateTo := ← requiredStr document "dateTo"
    maxRangeDays := ← requiredInt document "maxRangeDays"
    maxAttempts := ← requiredInt document "maxAttempts"
    allowRealSat := ← requiredBool document "allowRealSat"
    allowRealCredentials := ← requiredBool document "allowRealCredentials"
    createdAt := ← requiredStr document "createdAt" >>= parseDt zone
    expiresAt := ← requiredStr document "expiresAt" >>= parseDt zone
    issuedBy := ← requiredStr document "issuedBy"
    reason := ← requiredStr document "reason"
    consumed := ← requiredBool document "consumed"
    consumedAt := ← optionalDt zone document "consumedAt"
    redactionRequired := ← requiredBool document "redactionRequired"
    repoRootHash := ← requiredStr document "repoRootHash"
    authEnvelopeVariant := ← optionalStr document "authEnvelopeVariant"
    wcfActionHeaderEnabled := ← optionalBool document "wcfActionHeaderEnabled" }

/-- A permit whose texts are not blank. -/
structure Legible (permit : LiveExecutionPermit) : Prop where
  permitId : Text.strip permit.permitId ≠ ""
  scope : Text.strip permit.scope ≠ ""
  profileId : Text.strip permit.profileId ≠ ""
  kind : Text.strip permit.kind ≠ ""
  direction : Text.strip permit.direction ≠ ""
  dateFrom : Text.strip permit.dateFrom ≠ ""
  dateTo : Text.strip permit.dateTo ≠ ""
  issuedBy : Text.strip permit.issuedBy ≠ ""
  reason : Text.strip permit.reason ≠ ""
  repoRootHash : Text.strip permit.repoRootHash ≠ ""
  variant : ∀ variant, permit.authEnvelopeVariant = some variant → Text.strip variant ≠ ""

section Document

variable {zone : TimeZone} {document : List (String × Json)} {key : String}

theorem requiredStr_of_field {text : String} (hfield : Json.field document key = .str text)
    (htext : Text.strip text ≠ "") : requiredStr document key = .ok text := by
  rw [requiredStr, requiredField, hfield, nonBlank?, Json.str?, Option.filter_some,
    if_pos (decide_eq_true htext)]
  rfl

theorem requiredStr_not_blank {text : String} (h : requiredStr document key = .ok text) :
    Text.strip text ≠ "" := by
  obtain ⟨-, hfilter⟩ := Option.filter_eq_some_iff.mp (orRefuse_eq_ok.mp h)
  exact of_decide_eq_true hfilter

/-- A printed instant, whose `Z` is read as `+00:00`, is read back. -/
theorem parseDt_formatInstant (t : Instant) : parseDt zone (formatInstant t) = .ok t := by
  have hlist : (formatInstant t).toList = (DateTime.isoformat ⟨t, none⟩).toList ++ ['Z'] := by
    rw [formatInstant, String.toList_append]
    rfl
  rw [parseDt, hlist, List.getLast?_concat, if_pos rfl, List.dropLast_concat, String.ofList_toList,
    DateTime.isoformat_utc, DateTime.fromisoformat_isoformat]
  change orRefuse PermitFault.overflow (Instant.ofMicros? ((t.micros : Int) - 0)) = _
  rw [Int.sub_zero, Instant.ofMicros?_self]
  rfl

theorem formatInstant_not_blank (t : Instant) : Text.strip (formatInstant t) ≠ "" := by
  refine Text.strip_ne_empty (c := 'Z') ?_ (by decide)
  rw [formatInstant, String.toList_append]
  exact List.mem_append_right _ (List.mem_singleton.mpr rfl)

theorem optionalField_null {α : Type} {read : Json → Except PermitFault α}
    (hfield : Json.field document key = .null) : optionalField read document key = .ok none := by
  rw [optionalField, hfield]

theorem optionalField_value {α : Type} {read : Json → Except PermitFault α} {value : Json} {a : α}
    (hfield : Json.field document key = value) (hvalue : value ≠ .null) (hread : read value = .ok a) :
    optionalField read document key = .ok (some a) := by
  rw [optionalField, hfield]
  cases value with
  | null => exact absurd rfl hvalue
  | bool | int | float | str | arr | obj =>
      dsimp only
      rw [hread]
      rfl

theorem optionalDt_str {text : String} (hfield : Json.field document key = .str text) :
    optionalDt zone document key = (parseDt zone text).map some := by
  rw [optionalDt, optionalField, hfield]
  rfl

/-- A legible permit survives being written and read again. -/
theorem fromDocument_toDocument {permit : LiveExecutionPermit} (h : Legible permit) :
    fromDocument zone permit.toDocument = .ok permit := by
  have hstr : ∀ key text, Json.field permit.toDocument key = .str text → Text.strip text ≠ "" →
      requiredStr permit.toDocument key = .ok text := fun _ _ => requiredStr_of_field
  have htime : ∀ key t, Json.field permit.toDocument key = .str (formatInstant t) →
      (requiredStr permit.toDocument key >>= parseDt zone) = .ok t := by
    intro key t hfield
    rw [hstr key _ hfield (formatInstant_not_blank t), Checked.ok_bind, parseDt_formatInstant]
  have hconsumedAt : optionalDt zone permit.toDocument "consumedAt" = .ok permit.consumedAt := by
    have hfield : Json.field permit.toDocument "consumedAt" =
        (permit.consumedAt.map fun t => Json.str (formatInstant t)).getD .null := rfl
    cases hset : permit.consumedAt with
    | none =>
        rw [hset] at hfield
        exact optionalField_null hfield
    | some t =>
        rw [hset] at hfield
        rw [optionalDt_str hfield, parseDt_formatInstant]
        rfl
  have hvariant : optionalStr permit.toDocument "authEnvelopeVariant" = .ok permit.authEnvelopeVariant := by
    have hfield : Json.field permit.toDocument "authEnvelopeVariant" =
        (permit.authEnvelopeVariant.map Json.str).getD .null := rfl
    rw [optionalStr]
    cases hset : permit.authEnvelopeVariant with
    | none =>
        rw [hset] at hfield
        exact optionalField_null hfield
    | some variant =>
        rw [hset] at hfield
        refine optionalField_value hfield (fun h => (nomatch h)) (orRefuse_eq_ok.mpr ?_)
        exact Option.filter_eq_some_iff.mpr ⟨rfl, decide_eq_true (h.variant variant hset)⟩
  have hheader : optionalBool permit.toDocument "wcfActionHeaderEnabled" =
      .ok permit.wcfActionHeaderEnabled := by
    have hfield : Json.field permit.toDocument "wcfActionHeaderEnabled" =
        (permit.wcfActionHeaderEnabled.map Json.bool).getD .null := rfl
    rw [optionalBool]
    cases hset : permit.wcfActionHeaderEnabled with
    | none =>
        rw [hset] at hfield
        exact optionalField_null hfield
    | some header =>
        rw [hset] at hfield
        exact optionalField_value hfield (fun h => (nomatch h)) rfl
  have hmaxRangeDays : requiredInt permit.toDocument "maxRangeDays" = .ok permit.maxRangeDays := rfl
  have hmaxAttempts : requiredInt permit.toDocument "maxAttempts" = .ok permit.maxAttempts := rfl
  have hallowRealSat : requiredBool permit.toDocument "allowRealSat" = .ok permit.allowRealSat := rfl
  have hcredentials : requiredBool permit.toDocument "allowRealCredentials" =
      .ok permit.allowRealCredentials := rfl
  have hconsumed : requiredBool permit.toDocument "consumed" = .ok permit.consumed := rfl
  have hredaction : requiredBool permit.toDocument "redactionRequired" =
      .ok permit.redactionRequired := rfl
  simp only [fromDocument, Checked.ok_bind, hstr "permitId" _ rfl h.permitId,
    hstr "scope" _ rfl h.scope, hstr "profileId" _ rfl h.profileId, hstr "kind" _ rfl h.kind,
    hstr "direction" _ rfl h.direction, hstr "dateFrom" _ rfl h.dateFrom, hstr "dateTo" _ rfl h.dateTo,
    hmaxRangeDays, hmaxAttempts, hallowRealSat, hcredentials, htime "createdAt" _ rfl,
    htime "expiresAt" _ rfl, hstr "issuedBy" _ rfl h.issuedBy, hstr "reason" _ rfl h.reason, hconsumed,
    hconsumedAt, hredaction, hstr "repoRootHash" _ rfl h.repoRootHash, hvariant, hheader]
  rfl

end Document

/-! ## Checks -/

/-- What is asked of `create_live_execution_permit`. -/
structure LivePermitRequest where
  scope : String
  profileId : String
  kind : String
  direction : String
  dateFrom : String
  dateTo : String
  reason : String
  expiresMinutes : Int := MAX_EXPIRES_MINUTES
  issuedBy : String := "carlos-local"
  authEnvelopeVariant : Option String := none
  wcfActionHeaderEnabled : Option Bool := none
  deriving DecidableEq

/-- The envelope variant and the header flag of a request. -/
def requestedEnvelope (request : LivePermitRequest) :
    Except PermitFault (Option String × Option Bool) :=
  if request.scope = "auth_live_smoke" then do
    let given := request.authEnvelopeVariant.getD ""
    let variant := if given = "" then DEFAULT_AUTH_ENVELOPE_VARIANT else given
    refuseIf (variant ∉ AUTH_ENVELOPE_VARIANTS) "invalid-auth-envelope-variant"
    let header := request.wcfActionHeaderEnabled.getD
      (decide (variant ≠ AUTH_ENVELOPE_VARIANT_SECURITY_ONLY))
    refuseIf (variant ≠ AUTH_ENVELOPE_VARIANT_SECURITY_ONLY ∧ header ≠ true) "wcf-action-header-required"
    pure (some variant, some header)
  else do
    refuseIf (request.authEnvelopeVariant ≠ none ∨ request.wcfActionHeaderEnabled ≠ none)
      "auth-envelope-options-not-applicable"
    pure (none, none)

/-- `_validated_request` -/
def validatedRequest (request : LivePermitRequest) : Except PermitFault LivePermitRequest := do
  refuseIf (request.scope ∉ ALLOWED_SCOPES) "invalid-scope"
  let profileId ← safeProfileId request.profileId
  refuseIf (request.kind ≠ RequestType.metadata.value) "metadata-only-required"
  refuseIf (request.direction ∉ [DownloadDirection.received.value, DownloadDirection.issued.value])
    "invalid-direction"
  validateDateRange request.dateFrom request.dateTo (LivePermit.maxRangeDays request.scope)
  refuseIf (Text.strip request.reason = "") "reason-required"
  refuseIf (request.issuedBy ≠ "carlos-local") "invalid-issuer"
  refuseIf (request.expiresMinutes < 1 ∨ request.expiresMinutes > MAX_EXPIRES_MINUTES)
    "invalid-expiration-window"
  let (variant, header) ← requestedEnvelope request
  pure { request with
    profileId := profileId
    reason := Text.strip request.reason
    authEnvelopeVariant := variant
    wcfActionHeaderEnabled := header }

/-- The envelope rules at use. -/
def validateEnvelope (permit : LiveExecutionPermit) : Except PermitFault Unit :=
  if permit.scope = "auth_live_smoke" then do
    refuseIf (permit.authEnvelopeVariant ∉ AUTH_ENVELOPE_VARIANTS.map some)
      "permit-auth-envelope-variant-required"
    refuseIf (permit.authEnvelopeVariant ≠ some AUTH_ENVELOPE_VARIANT_SECURITY_ONLY ∧
      permit.wcfActionHeaderEnabled ≠ some true) "permit-wcf-action-header-required"
  else refuseIf (permit.authEnvelopeVariant ≠ none ∨ permit.wcfActionHeaderEnabled ≠ none)
    "permit-auth-envelope-options-not-applicable"

/-- `_validate_document_policy` -/
def validateDocumentPolicy (rt : Runtime) (permit : LiveExecutionPermit) (now : Instant)
    (repo : Repository) : Except PermitFault Unit := do
  refuseIf (permit.consumed = true) "permit-already-consumed"
  refuseIf (permit.expiresAt ≤ now) "permit-expired"
  refuseIf (permit.maxRangeDays ≠ LivePermit.maxRangeDays permit.scope) "permit-range-policy-invalid"
  refuseIf (permit.maxAttempts ≠ MAX_ATTEMPTS) "permit-attempt-policy-invalid"
  refuseIf (permit.kind ≠ RequestType.metadata.value) "metadata-only-required"
  validateDateRange permit.dateFrom permit.dateTo permit.maxRangeDays
  refuseIf (permit.allowRealSat ≠ true) "permit-real-sat-not-allowed"
  refuseIf (permit.scope ∈ CREDENTIAL_REQUIRED_SCOPES ∧ permit.allowRealCredentials ≠ true)
    "permit-real-credentials-not-allowed"
  refuseIf (permit.scope ∈ PROBE_SCOPES ∧ permit.allowRealCredentials = true)
    "permit-unneeded-credentials"
  refuseIf (permit.scope ∉ ALLOWED_SCOPES) "invalid-scope"
  validateEnvelope permit
  refuseIf (permit.redactionRequired ≠ true) "permit-redaction-required"
  refuseIf (permit.repoRootHash ≠ currentRepoIdentity rt repo) "permit-repo-identity-mismatch"

/-! ## The permit folder -/

/-- What is found under a name of the permit folder. -/
inductive PermitFile where
  | absent
  /-- reading fails with an `OSError` -/
  | unreadable
  | notUtf8
  | notJson
  | json (document : Json)

/-- What the calls take from the machine. `inFolder` gives the name under which the permit
folder holds the file that an explicit path resolves to, and `none` if it lies outside. -/
structure PermitHost where
  rt : Runtime
  zone : TimeZone
  inFolder : String → Option String
  rootInsideRepo : Repository → Bool

/-- The files of the permit folder. -/
abbrev PermitFolder := String → PermitFile

abbrev PermitProg := Prog PermitFolder PermitFault

/-- The name of the document of a permit id. -/
def permitName (permitId : String) : String := "live-permit-" ++ permitId ++ ".json"

/-- One letter of URL-safe Base64. -/
def urlsafeChar (n : Fin 64) : Char :=
  if n.val < 26 then Char.ofNat (65 + n.val)
  else if n.val < 52 then Char.ofNat (71 + n.val)
  else if n.val < 62 then Char.ofNat (n.val - 4)
  else if n.val = 62 then '-' else '_'

/-- `secrets.token_urlsafe(12)`, by what was drawn for each of its letters. -/
def tokenUrlsafe (draw : Fin 16 → Fin 64) : String :=
  String.ofList (List.ofFn fun i => urlsafeChar (draw i))

/-- `_write_permit_document`, as the content of the file. -/
def permitFile (permit : LiveExecutionPermit) : PermitFile := .json (.obj permit.toDocument)

/-- Replace one file of the folder. -/
def writePermitDocument (name : String) (permit : LiveExecutionPermit) : PermitProg PUnit :=
  modify fun folder => Function.update folder name (permitFile permit)

/-- `resolve_live_permit_reference` and `_validated_permit_path`.  An id has no dot, so it
never ends in `.json`, and it names a file of the folder. -/
def resolvePermitReference (host : PermitHost) (permitRef : String) : Except PermitFault String := do
  let raw := Text.strip permitRef
  refuseIf (raw = "") "permit-required"
  if isPermitId raw then pure (permitName raw)
  else orRefuse (.permit "permit-outside-appdata") (host.inFolder raw)

/-- The permit in a file. -/
def readPermit (zone : TimeZone) : PermitFile → Except PermitFault LiveExecutionPermit
  | .absent => .error (.permit "permit-not-found")
  | .unreadable => .error .io
  | .notUtf8 => .error .unicode
  | .notJson => .error (.permit "permit-invalid-json")
  | .json document => do
      let members ← orRefuse .attribute document.members?
      fromDocument zone members

/-- The permit of a validated request. -/
def newPermit (rt : Runtime) (request : LivePermitRequest) (permitId : String)
    (createdAt expiresAt : Instant) (repo : Repository) : LiveExecutionPermit where
  permitId := permitId
  scope := request.scope
  profileId := request.profileId
  kind := request.kind
  direction := request.direction
  dateFrom := request.dateFrom
  dateTo := request.dateTo
  maxRangeDays := LivePermit.maxRangeDays request.scope
  maxAttempts := MAX_ATTEMPTS
  allowRealSat := true
  allowRealCredentials := decide (request.scope ∈ CREDENTIAL_REQUIRED_SCOPES)
  createdAt := createdAt
  expiresAt := expiresAt
  issuedBy := request.issuedBy
  reason := request.reason
  consumed := false
  consumedAt := none
  redactionRequired := true
  repoRootHash := currentRepoIdentity rt repo
  authEnvelopeVariant := request.authEnvelopeVariant
  wcfActionHeaderEnabled := request.wcfActionHeaderEnabled

/-- `created_at + timedelta(minutes=n)` -/
def addMinutes (createdAt : Instant) (minutes : Int) : Option Instant :=
  Instant.ofMicros? (createdAt.micros + minutes * 60000000)

/-- `create_live_execution_permit`.  The time is the given one or else the clock's, and the
id is the random one drawn. -/
def createLiveExecutionPermit (host : PermitHost) (request : LivePermitRequest) (now : Option DateTime)
    (reading : Instant) (permitId : String) (repo : Repository) : PermitProg LiveExecutionPermit := do
  let safeRequest ← Prog.ofExcept (validatedRequest request)
  let createdAt ← Prog.ofExcept (utcNow now reading)
  Prog.ofExcept (refuseIf (host.rootInsideRepo repo = true) "permit-root-inside-repo")
  let expiresAt ← Prog.ofExcept (orRefuse .overflow (addMinutes createdAt safeRequest.expiresMinutes))
  let permit := newPermit host.rt safeRequest permitId createdAt expiresAt repo
  writePermitDocument (permitName permitId) permit
  pure permit

/-- The arguments of `validate_and_consume_live_permit`, with the readings of the clock that
it takes where no time is given. -/
structure PermitCall where
  permitRef : String
  scope : String
  profileId : String
  kind : String
  direction : String
  dateFrom : String
  dateTo : String
  authEnvelopeVariant : Option String := none
  wcfActionHeaderEnabled : Option Bool := none
  now : Option DateTime := none
  clock : Nat → Instant
  repo : Repository

/-- The comparison of a permit with the operation that is to be done. -/
def matchExpected (call : PermitCall) (permit : LiveExecutionPermit) : Except PermitFault Unit := do
  refuseIf (call.scope = "auth_live_smoke" ∧
    (call.authEnvelopeVariant = none ∨ call.wcfActionHeaderEnabled = none))
    "permit-auth-envelope-expectation-required"
  let profileId ← safeProfileId call.profileId
  refuseIf (permit.scope ≠ call.scope) "permit-scope-mismatch"
  refuseIf (permit.profileId ≠ profileId) "permit-profileId-mismatch"
  refuseIf (permit.kind ≠ call.kind) "permit-kind-mismatch"
  refuseIf (permit.direction ≠ call.direction) "permit-direction-mismatch"
  refuseIf (permit.dateFrom ≠ call.dateFrom) "permit-dateFrom-mismatch"
  refuseIf (permit.dateTo ≠ call.dateTo) "permit-dateTo-mismatch"
  refuseIf (∃ variant ∈ call.authEnvelopeVariant, permit.authEnvelopeVariant.getD "" ≠ variant)
    "permit-authEnvelopeVariant-mismatch"
  refuseIf (∃ header ∈ call.wcfActionHeaderEnabled, permit.wcfActionHeaderEnabled ≠ some header)
    "permit-wcfActionHeaderEnabled-mismatch"

/-- The consumed permit of a call that has loaded a permit, or its refusal. -/
def consumed (rt : Runtime) (call : PermitCall) (permit : LiveExecutionPermit) :
    Except PermitFault LiveExecutionPermit := do
  matchExpected call permit
  let now ← utcNow call.now (call.clock 0)
  validateDocumentPolicy rt permit now call.repo
  let consumedAt ← utcNow call.now (call.clock 1)
  pure { permit with consumed := true, consumedAt := some consumedAt }

/-- `validate_and_consume_live_permit` -/
def validateAndConsumeLivePermit (host : PermitHost) (call : PermitCall) :
    PermitProg LiveExecutionPermit := do
  let name ← Prog.ofExcept (resolvePermitReference host call.permitRef)
  let folder ← get
  let permit ← Prog.ofExcept (readPermit host.zone (folder name))
  let used ← Prog.ofExcept (consumed host.rt call permit)
  writePermitDocument name used
  pure used

/-- `permit_expectation_from_query`, as a call for the query's period. -/
def PermitCall.ofQuery (call : PermitCall) (scope profileId : String) (query : DownloadQuery)
    (period : DateTimePeriod) : PermitCall :=
  let expectation := permitExpectation scope profileId query period
  { call with
    scope := expectation.scope
    profileId := expectation.profileId
    kind := expectation.kind
    direction := expectation.direction
    dateFrom := expectation.dateFrom
    dateTo := expectation.dateTo
    authEnvelopeVariant := none
    wcfActionHeaderEnabled := none }

end LivePermit

end CfdiVault
