import CfdiVault.Library.Calendar
import CfdiVault.Library.JsonDocument
import CfdiVault.Library.Report
import Mathlib.Data.List.Infix

/-!
# The safe configuration

`validate_config` reads the operating profiles of a configuration document.  Every check adds its
errors to one list, and a document is accepted if the list is empty at the end.

A pattern `^…$` is matched with `match`, so that its `$` also stands in front of a newline that ends
the text; its `\d` is a decimal digit of any script, and `IGNORECASE` compares simple case folds.
-/

namespace CfdiVault

namespace Config

open CodeText

/-! ## Patterns -/

/-- `pattern.match(text)` for a pattern `^…$` with the given `fullmatch`. -/
def matchLine (fullmatch : CodeText → Bool) (text : CodeText) : Bool :=
  fullmatch text || (text.getLast? == some (.scalar '\n') && fullmatch text.dropLast)

/-- The letter with which `IGNORECASE` compares a character. -/
def foldChar (c : Char) : Char :=
  if 'A' ≤ c ∧ c ≤ 'Z' then Char.ofNat (c.toNat + 32)
  else if c = 'Ñ' then 'ñ'
  else if c.toNat = 0x130 ∨ c.toNat = 0x131 then 'i'
  else if c.toNat = 0x17F then 's'
  else if c.toNat = 0x212A then 'k'
  else c

def isLower (c : Char) : Bool := 'a' ≤ c && c ≤ 'z'

def isDigit (c : Char) : Bool := '0' ≤ c && c ≤ '9'

/-- `[A-Z&Ñ]`, ignoring case -/
def isRfcLetter (c : Char) : Bool := isLower (foldChar c) || c == '&' || foldChar c == 'ñ'

/-- `[A-Z0-9]`, ignoring case -/
def isRfcAlnum (c : Char) : Bool := isLower (foldChar c) || isDigit c

/-- `[A-Za-z0-9_.-]` -/
def isIdChar (c : Char) : Bool := c.isAlphanum || c == '_' || c == '.' || c == '-'

/-- `[a-fA-F0-9]` -/
def isHex (c : Char) : Bool := isDigit c || ('a' ≤ c && c ≤ 'f') || ('A' ≤ c && c ≤ 'F')

/-- `RFC_PATTERN.fullmatch` for a given class of digits. -/
def rfcShape (letter digit alnum : Char → Bool) (text : CodeText) : Bool :=
  let letters := text.length - 9
  decide (text.length = 12 ∨ text.length = 13) && (text.take letters).all (CodePoint.is letter) &&
    ((text.drop letters).take 6).all (CodePoint.is digit) && (text.drop (letters + 6)).all (CodePoint.is alnum)

/-- `RFC_PATTERN.match` -/
def RFC_PATTERN : CodeText → Bool := matchLine (rfcShape isRfcLetter isDecimal isRfcAlnum)

/-- `[A-Za-z0-9][A-Za-z0-9_.-]{1,63}` -/
def profileIdShape : CodeText → Bool
  | first :: rest =>
      first.is Char.isAlphanum && decide (1 ≤ rest.length ∧ rest.length ≤ 63) && rest.all (CodePoint.is isIdChar)
  | [] => false

/-- `PROFILE_ID_PATTERN.match` -/
def PROFILE_ID_PATTERN : CodeText → Bool := matchLine profileIdShape

/-- `[a-fA-F0-9]{64}` -/
def fingerprintShape (text : CodeText) : Bool := decide (text.length = 64) && text.all (CodePoint.is isHex)

/-- `FINGERPRINT_PATTERN.match` -/
def FINGERPRINT_PATTERN : CodeText → Bool := matchLine fingerprintShape

/-- `([01]\d|2[0-3]):[0-5]\d` for a given class of digits. -/
def timeShape (digit : Char → Bool) : CodeText → Bool
  | [h, h', colon, m, m'] =>
      ((h.is (fun c => c == '0' || c == '1') && h'.is digit) ||
        (h.is (· == '2') && h'.is fun c => '0' ≤ c && c ≤ '3')) &&
      colon.is (· == ':') && m.is (fun c => '0' ≤ c && c ≤ '5') && m'.is digit
  | _ => false

/-- `TIME_PATTERN.match` -/
def TIME_PATTERN : CodeText → Bool := matchLine (timeShape isDecimal)

/-! ### Material that must not stand in a configuration -/

/-- What follows a word, ignoring case. -/
def dropWord : List Char → CodeText → Option CodeText
  | [], text => some text
  | c :: word, point :: text => if point.is (fun d => foldChar d == c) then dropWord word text else none
  | _ :: _, [] => none

/-- `BEGIN (?:RSA |DSA |EC |ENCRYPTED |OPENSSH )?PRIVATE KEY` at the start of a text. -/
def startsPrivateKey (text : CodeText) : Bool :=
  match dropWord "begin ".toList text with
  | some rest => ["", "rsa ", "dsa ", "ec ", "encrypted ", "openssh "].any fun kind =>
      (dropWord (kind ++ "private key").toList rest).isSome
  | none => false

/-- `[A-Za-z0-9+/]` -/
def isBase64 (c : Char) : Bool := c.isAlphanum || c == '+' || c == '/'

/-- `MII[A-Za-z0-9+/]{20,}={0,2}\b` at the start of a text. -/
def startsCertificate (isWord : Char → Bool) (text : CodeText) : Bool :=
  let rest := text.drop 3
  decide (text.take 3 = CodeText.of "MII") &&
    (List.range ((rest.takeWhile (CodePoint.is isBase64)).length + 1)).any fun n => decide (20 ≤ n) &&
      (List.range 3).any fun m =>
        let padding := List.replicate m (CodePoint.scalar '=')
        let last := (rest.take n ++ padding).getLast?
        (rest.drop n).take m == padding &&
          last.any (CodePoint.is isWord) != ((rest.drop (n + m)).head?.any (CodePoint.is isWord))

structure Url where
  scheme : CodeText
  netloc : CodeText
  path : CodeText

/-- What is taken from the host: the case mappings, the class of alphanumeric characters, and
`urlparse`, which may raise. -/
structure ConfigHost where
  upper : CodeText → CodeText
  lower : CodeText → CodeText
  alnum : Char → Bool
  urlparse : CodeText → Option Url

/-- `\w` -/
def isWordChar (host : ConfigHost) (c : Char) : Bool := host.alnum c || c == '_'

/-- The certificate pattern is found behind a given word character or none. -/
def searchCertificate (isWord : Char → Bool) (inWord : Bool) : CodeText → Bool
  | [] => false
  | point :: rest => (!inWord && startsCertificate isWord (point :: rest)) ||
      searchCertificate isWord (point.is isWord) rest

/-- One of `SENSITIVE_STRING_PATTERNS` is found in a text. -/
def isSensitive (host : ConfigHost) (text : CodeText) : Bool :=
  text.tails.any startsPrivateKey || searchCertificate (isWordChar host) false text

def ALLOWED_REFERENCE_SCHEMES : List String := ["windows-credential-manager", "vault", "kms", "local-dev-dummy"]

def SENSITIVE_FIELD_MARKERS : List String := ["password", "passphrase", "privatekey", "secret", "token"]

def SENSITIVE_PATH_MARKERS : List String :=
  ["certificatepath", "certpath", "cerpath", "keypath", "efirmapath", "fielpath", "csdpath"]

def DANGEROUS_REFERENCE_SUFFIXES : List String := [".cer", ".key", ".pem", ".pfx", ".p12"]

/-! ## The configuration -/

structure DownloadSettings where
  issued : Bool
  received : Bool
  metadataFirst : Bool

/-- Dates stand as their ordinals. -/
structure InitialRange where
  startDate : Nat
  endDate : Option Nat

structure ScheduleSettings where
  enabled : Bool
  intervalMinutes : Option Int
  dailyAt : Option CodeText
  timezone : CodeText

structure CredentialReferences where
  certificateRef : CodeText
  privateKeyRef : CodeText
  phraseRef : CodeText

structure ProfileConfig where
  profileId : CodeText
  rfc : CodeText
  storageRoot : CodeText
  download : DownloadSettings
  maxConcurrency : Int
  schedule : ScheduleSettings
  certificateFingerprint : CodeText
  credentialRefs : CredentialReferences
  initialRange : Option InitialRange
  lookbackDays : Option Int

structure AppConfig where
  schemaVersion : Nat
  profiles : List ProfileConfig

/-- What `validate_config` raises: `ConfigValidationError` with its errors, or the `ValueError` of
`urlparse`. -/
inductive ConfigFault where
  | validation (errors : List CodeText)
  | urlparse

/-- A check of the configuration. -/
abbrev Check (α : Type) := Report ConfigFault CodeText α

/-! ## Fields -/

/-- `f"{path}.{key}"` -/
def fieldPath (path : CodeText) (key : String) : CodeText := path ++ CodeText.of ("." ++ key)

def error (path : CodeText) (message : String) : Check Unit := Report.add (path ++ CodeText.of message)

def errorIf (condition : Prop) [Decidable condition] (path : CodeText) (message : String) : Check Unit :=
  if condition then error path message else pure ()

/-- The error that stands for a missing value. -/
def refused {α : Type} (path : CodeText) (message : String) : Check (Option α) := do
  error path message
  pure none

/-- `_reject_unknown_keys` -/
def rejectUnknownKeys (data : Members) (path : CodeText) (allowedKeys : List String) : Check Unit :=
  Report.addAll ((data.map (·.1)).filterMap fun key =>
    if key ∈ allowedKeys.map CodeText.of then none
    else some (path ++ CodeText.of "." ++ key ++ CodeText.of " is not allowed by the safe config schema"))

/-- `_required_string` -/
def requiredString (data : Members) (key : String) (path : CodeText) : Check (Option CodeText) :=
  match (Members.get data key).str? with
  | some value =>
      if CodeText.strip value = [] then refused (fieldPath path key) " must be a non-empty string"
      else pure (some value)
  | none => refused (fieldPath path key) " must be a non-empty string"

/-- `_parse_date` -/
def parseDate (value : Document) (path : CodeText) (required : Bool) : Check (Option Nat) :=
  match value with
  | .null => if required then refused path " is required" else pure none
  | .str text =>
      match (text.mapM CodePoint.char?).bind DateTime.parseDate with
      | some date => pure (some date)
      | none => refused path " must be an ISO date string"
  | _ => refused path " must be an ISO date string"

/-- `_parse_positive_int` -/
def parsePositiveInt (value : Document) (path : CodeText) (required : Bool) : Check (Option Int) :=
  match value with
  | .null => if required then refused path " is required" else pure none
  | .int n =>
      if n < 1 then refused path " must be a positive integer" else pure (some n)
  | _ => refused path " must be a positive integer"

/-- `_parse_download` -/
def parseDownload (value : Document) (path : CodeText) : Check (Option DownloadSettings) :=
  match value with
  | .obj data => do
      rejectUnknownKeys data path ["issued", "received", "metadataFirst"]
      let issued := (Members.get data "issued").bool?
      let received := (Members.get data "received").bool?
      let metadataFirst := (Members.get data "metadataFirst").bool?
      errorIf issued.isNone path ".issued must be true or false"
      errorIf received.isNone path ".received must be true or false"
      errorIf metadataFirst.isNone path ".metadataFirst must be true or false"
      errorIf (issued = some false ∧ received = some false) path " must enable issued or received downloads"
      match issued, received, metadataFirst with
      | some issued, some received, some metadataFirst => pure (some ⟨issued, received, metadataFirst⟩)
      | _, _, _ => pure none
  | _ => refused path " must be an object"

/-- `_parse_initial_range` -/
def parseInitialRange (value : Document) (path : CodeText) : Check (Option InitialRange) :=
  match value with
  | .null => pure none
  | .obj data => do
      rejectUnknownKeys data path ["startDate", "endDate"]
      let start ← parseDate (Members.get data "startDate") (fieldPath path "startDate") true
      let «end» ← parseDate (Members.get data "endDate") (fieldPath path "endDate") false
      match start with
      | some start => do
          errorIf («end».any (· < start)) path ".endDate must be greater than or equal to startDate"
          pure (some ⟨start, «end»⟩)
      | none => pure none
  | _ => refused path " must be an object"

/-- `daily_at`, which is dropped if it is malformed. -/
def parseDailyAt (value : Document) (path : CodeText) : Check (Option CodeText) :=
  match value with
  | .null => pure none
  | .str text =>
      if TIME_PATTERN text then pure (some text) else refused path ".dailyAt must use HH:MM 24-hour format"
  | _ => refused path ".dailyAt must use HH:MM 24-hour format"

/-- `timezone`, for which `"UTC"` stands in. -/
def parseTimezone (data : Members) (path : CodeText) : Check CodeText :=
  let value := if Members.has data "timezone" then Members.get data "timezone" else .str (CodeText.of "UTC")
  match value.str? with
  | some timezone =>
      if CodeText.strip timezone = [] then do
        error path ".timezone must be a non-empty string"
        pure (CodeText.of "UTC")
      else pure timezone
  | none => do
      error path ".timezone must be a non-empty string"
      pure (CodeText.of "UTC")

/-- `_parse_schedule` -/
def parseSchedule (value : Document) (path : CodeText) : Check (Option ScheduleSettings) :=
  match value with
  | .obj data => do
      rejectUnknownKeys data path ["enabled", "intervalMinutes", "dailyAt", "timezone"]
      match (Members.get data "enabled").bool? with
      | none => refused path ".enabled must be true or false"
      | some enabled => do
          let intervalMinutes ← parsePositiveInt (Members.get data "intervalMinutes")
            (fieldPath path "intervalMinutes") false
          let dailyAt ← parseDailyAt (Members.get data "dailyAt") path
          let timezone ← parseTimezone data path
          errorIf (enabled ∧ intervalMinutes.isNone ∧ dailyAt.isNone) path
            " must define intervalMinutes or dailyAt when enabled"
          pure (some ⟨enabled, intervalMinutes, dailyAt, timezone⟩)
  | _ => refused path " must be an object"

/-- The text up to the first point that satisfies a test. -/
def upTo (c : Char) (text : CodeText) : CodeText := text.takeWhile (· ≠ .scalar c)

/-- `_reference_contains_credential_file_segment` -/
def containsCredentialFileSegment (host : ConfigHost) (url : Url) : Bool :=
  let path := url.path.map fun point => if point = .scalar '\\' then .scalar '/' else point
  (url.netloc :: path.splitOn (.scalar '/')).any fun segment =>
    let clean := host.lower (upTo '#' (upTo '?' segment))
    DANGEROUS_REFERENCE_SUFFIXES.any fun suffix => (CodeText.of suffix).isSuffixOf clean

/-- `_required_reference` -/
def requiredReference (host : ConfigHost) (data : Members) (key : String) (path : CodeText) :
    Check (Option CodeText) := do
  match ← requiredString data key path with
  | none => pure none
  | some value =>
      match host.urlparse value with
      | none => Report.raise .urlparse
      | some url => do
          errorIf (url.scheme ∉ ALLOWED_REFERENCE_SCHEMES.map CodeText.of ∨ url.netloc = []) (fieldPath path key)
            (" must use one of these reference schemes: " ++
              "kms, local-dev-dummy, vault, windows-credential-manager")
          errorIf (containsCredentialFileSegment host url) (fieldPath path key)
            " must be a credential reference, not a credential file path"
          pure (some value)

/-- `_parse_credential_refs` -/
def parseCredentialRefs (host : ConfigHost) (value : Document) (path : CodeText) :
    Check (Option CredentialReferences) :=
  match value with
  | .obj data => do
      rejectUnknownKeys data path ["certificateRef", "privateKeyRef", "passphraseRef"]
      let certificateRef ← requiredReference host data "certificateRef" path
      let privateKeyRef ← requiredReference host data "privateKeyRef" path
      let phraseRef ← requiredReference host data "passphraseRef" path
      match certificateRef, privateKeyRef, phraseRef with
      | some certificateRef, some privateKeyRef, some phraseRef =>
          pure (some ⟨certificateRef, privateKeyRef, phraseRef⟩)
      | _, _, _ => pure none
  | _ => refused path " must be an object"

/-! ## Profiles -/

/-- The shapes of the texts of a profile. -/
def checkShapes (path : CodeText) (profileId rfc storageRoot certificateFingerprint : Option CodeText) :
    Check Unit := do
  errorIf (profileId.any fun value => !PROFILE_ID_PATTERN value) path
    ".profileId must use 2-64 letters, numbers, dot, underscore, or dash"
  errorIf (rfc.any fun value => !RFC_PATTERN value) path ".rfc must be an RFC-shaped value"
  errorIf (storageRoot.any fun value => CodeText.strip value ≠ value) path
    ".storageRoot must not have leading or trailing whitespace"
  errorIf (certificateFingerprint.any fun value => !FINGERPRINT_PATTERN value) path
    ".certificateFingerprint must be a 64-character SHA-256 hex fingerprint"

/-- `_parse_profile` -/
def parseProfile (host : ConfigHost) (data : Members) (path : CodeText) : Check (Option ProfileConfig) := do
  rejectUnknownKeys data path ["profileId", "rfc", "storageRoot", "download", "initialRange", "lookbackDays",
    "maxConcurrency", "schedule", "certificateFingerprint", "credentialRefs"]
  let profileId ← requiredString data "profileId" path
  let rfc ← requiredString data "rfc" path
  let storageRoot ← requiredString data "storageRoot" path
  let certificateFingerprint ← requiredString data "certificateFingerprint" path
  checkShapes path profileId rfc storageRoot certificateFingerprint
  let download ← parseDownload (Members.get data "download") (fieldPath path "download")
  let initialRange ← parseInitialRange (Members.get data "initialRange") (fieldPath path "initialRange")
  let lookbackDays ← parsePositiveInt (Members.get data "lookbackDays") (fieldPath path "lookbackDays") false
  errorIf (initialRange.isNone ∧ lookbackDays.isNone) path " must define initialRange or lookbackDays"
  errorIf (initialRange.isSome ∧ lookbackDays.isSome) path " must not define both initialRange and lookbackDays"
  let maxConcurrency ← parsePositiveInt (Members.get data "maxConcurrency") (fieldPath path "maxConcurrency") true
  errorIf (maxConcurrency.any (· > 10)) path ".maxConcurrency must be 10 or less"
  let schedule ← parseSchedule (Members.get data "schedule") (fieldPath path "schedule")
  let credentialRefs ← parseCredentialRefs host (Members.get data "credentialRefs") (fieldPath path "credentialRefs")
  match profileId, rfc, storageRoot, download, maxConcurrency, schedule, credentialRefs,
    certificateFingerprint with
  | some profileId, some rfc, some storageRoot, some download, some maxConcurrency, some schedule,
    some credentialRefs, some certificateFingerprint => pure (some {
      profileId := profileId
      rfc := host.upper rfc
      storageRoot := storageRoot
      download := download
      maxConcurrency := maxConcurrency
      schedule := schedule
      certificateFingerprint := host.lower certificateFingerprint
      credentialRefs := credentialRefs
      initialRange := initialRange
      lookbackDays := lookbackDays })
  | _, _, _, _, _, _, _, _ => pure none

/-- `f"profiles[{index}]"` -/
def profilePath (index : Nat) : CodeText := CodeText.of ("profiles[" ++ toString index ++ "]")

/-- The profiles of the array from an index on, given the ids in front of it. -/
def parseProfiles (host : ConfigHost) : Nat → List CodeText → List Document → Check (List ProfileConfig)
  | _, _, [] => pure []
  | index, seen, rawProfile :: rest =>
      match rawProfile with
      | .obj data => do
          match ← parseProfile host data (profilePath index) with
          | none => parseProfiles host (index + 1) seen rest
          | some profile => do
              errorIf (profile.profileId ∈ seen) (profilePath index) ".profileId must be unique"
              let profiles ← parseProfiles host (index + 1) (profile.profileId :: seen) rest
              pure (profile :: profiles)
      | _ => do
          error (profilePath index) " must be an object"
          parseProfiles host (index + 1) seen rest

/-! ## Raw credentials -/

/-- `_looks_like_raw_credential_key` -/
def looksLikeRawCredentialKey (normalizedKey : List Char) : Bool :=
  if "ref".toList.isSuffixOf normalizedKey || "refs".toList.isSuffixOf normalizedKey then false
  else if normalizedKey = "certificatefingerprint".toList ∨ normalizedKey = "credentialrefs".toList then false
  else if SENSITIVE_FIELD_MARKERS.any fun marker => decide (marker.toList <:+: normalizedKey) then true
  else SENSITIVE_PATH_MARKERS.any fun marker => marker.toList = normalizedKey

/-- `re.sub(r"[^a-z0-9]", "", key.lower())` -/
def normalizedKey (host : ConfigHost) (key : CodeText) : List Char :=
  ((host.lower key).filterMap CodePoint.char?).filter fun c => isLower c || isDigit c

/-- The error of a member's key. -/
def rawCredentialKey (host : ConfigHost) (path key : CodeText) : List CodeText :=
  if looksLikeRawCredentialKey (normalizedKey host key) then
    [path ++ CodeText.of "." ++ key ++
      CodeText.of " must be a credential reference, not a raw credential field"]
  else []

/-- `_find_sensitive_string_value` -/
def findSensitiveStringValue (host : ConfigHost) (path value : CodeText) : List CodeText :=
  if isSensitive host value then [path ++ CodeText.of " contains private key or certificate-like material"]
  else []

mutual

/-- `_find_raw_credential_fields` -/
def findRawCredentialFields (host : ConfigHost) (path : CodeText) : Document → List CodeText
  | .obj members => findInMembers host path members
  | .arr items => findInItems host path 0 items
  | .str text => findSensitiveStringValue host path text
  | _ => []

def findInMembers (host : ConfigHost) (path : CodeText) : List (CodeText × Document) → List CodeText
  | [] => []
  | member :: rest => findInMember host path member ++ findInMembers host path rest

def findInMember (host : ConfigHost) (path : CodeText) : CodeText × Document → List CodeText
  | (key, nested) => rawCredentialKey host path key ++
      findRawCredentialFields host (path ++ CodeText.of "." ++ key) nested

def findInItems (host : ConfigHost) (path : CodeText) (index : Nat) : List Document → List CodeText
  | [] => []
  | nested :: rest =>
      findRawCredentialFields host (path ++ CodeText.of ("[" ++ toString index ++ "]")) nested ++
        findInItems host path (index + 1) rest

end

/-! ## The document -/

/-- The checks of `validate_config`. -/
def checkConfig (host : ConfigHost) (data : Members) : Check (List ProfileConfig) := do
  Report.addAll (findRawCredentialFields host (CodeText.of "config") (.obj data))
  rejectUnknownKeys data (CodeText.of "config") ["schemaVersion", "profiles"]
  errorIf (!(Members.get data "schemaVersion").equalsOne) [] "schemaVersion must be 1"
  match Members.get data "profiles" with
  | .arr (first :: rest) => parseProfiles host 0 [] (first :: rest)
  | _ => do
      error [] "profiles must be a non-empty array"
      pure []

/-- `validate_config` -/
def validateConfig (host : ConfigHost) (data : Members) : Except ConfigFault AppConfig :=
  match checkConfig host data with
  | .error fault => .error fault
  | .ok (profiles, []) => .ok ⟨1, profiles⟩
  | .ok (_, first :: rest) => .error (.validation (first :: rest))

end Config

end CfdiVault
