import CfdiVault.Library.Text

/-!
# Local profiles

A local profile belongs to an id that can safely become a folder name.  The id is taken
from the operator with surrounding white space, which `validate_profile_id` strips, and is
written into the profile document without it.
-/

namespace CfdiVault

namespace Setup

/-- An exception of the setup, by origin. -/
inductive SetupFault where
  /-- `SetupError` -/
  | setup (errors : List String)
  /-- `OSError` -/
  | os (message : String)
  /-- `CredentialProviderError` -/
  | credential (message : String)
  /-- Any other `Exception`. -/
  | other (message : String)
  deriving DecidableEq

/-- `[A-Za-z0-9]` -/
def isIdStart (c : Char) : Bool :=
  ('A' ≤ c && c ≤ 'Z') || ('a' ≤ c && c ≤ 'z') || ('0' ≤ c && c ≤ '9')

/-- `[A-Za-z0-9_.-]` -/
def isIdChar (c : Char) : Bool := isIdStart c || c == '_' || c == '.' || c == '-'

/-- `PROFILE_ID_PATTERN.fullmatch` -/
def matchesProfileId (text : String) : Bool :=
  match text.toList with
  | first :: rest => isIdStart first && rest.all isIdChar && 1 ≤ rest.length && rest.length ≤ 63
  | [] => false

/-- `validate_profile_id` -/
def validateProfileId (value : String) : Except SetupFault String :=
  let normalized := Text.strip value
  if matchesProfileId normalized then .ok normalized
  else .error (.setup ["profile id must use 2-64 letters, numbers, dot, underscore, or dash"])

/-- `validate_rfc`, with `RFC_PATTERN.fullmatch` of the host. -/
def validateRfc (rt : Runtime) (matchesRfc : String → Bool) (value : String) : Except SetupFault String :=
  let normalized := rt.upper (Text.strip value)
  if matchesRfc normalized then .ok normalized
  else .error (.setup ["RFC must be 12 or 13 uppercase RFC-shaped characters"])

/-- `default_phrase_reference` of a validated id -/
def defaultPhraseReference (safeProfileId : String) : String :=
  "windows-credential-manager://cfdi-vault/setup/" ++ safeProfileId ++ "/private-key-phrase"

/-- How local credential file paths are represented in the profile. -/
inductive CredentialMode where
  | copied
  | referenced
  deriving DecidableEq

def CredentialMode.value : CredentialMode → String
  | .copied => "copied"
  | .referenced => "referenced"

/-- Persisted setup readiness status for the local profile. -/
inductive LocalProfileStatus where
  | ready
  | missing
  | insecure
  deriving DecidableEq

def LocalProfileStatus.value : LocalProfileStatus → String
  | .ready => "ready"
  | .missing => "missing"
  | .insecure => "insecure"

/-- Local AppData profile document for one RFC, with paths as their texts. -/
structure LocalProfile where
  profileId : String
  rfc : String
  storageRoot : String
  credentialMode : CredentialMode
  certificatePath : String
  privateKeyPath : String
  phraseRef : String
  status : LocalProfileStatus
  certificateFingerprint : String
  deriving DecidableEq

/-- The stable JSON shape stored in profile.json. -/
def LocalProfile.toDocument (profile : LocalProfile) : List (String × String) := [
  ("profileId", profile.profileId),
  ("rfc", profile.rfc),
  ("storageRoot", profile.storageRoot),
  ("credentialMode", profile.credentialMode.value),
  ("certificatePath", profile.certificatePath),
  ("privateKeyPath", profile.privateKeyPath),
  ("passwordRef", profile.phraseRef),
  ("status", profile.status.value),
  ("certificateFingerprint", profile.certificateFingerprint)]

theorem validateProfileId_eq_ok {value id : String} (h : validateProfileId value = .ok id) :
    id = Text.strip value ∧ matchesProfileId id = true := by
  rw [validateProfileId] at h
  split_ifs at h with hmatches
  cases h
  exact ⟨rfl, hmatches⟩

/-- A validated id validates to itself. -/
theorem validateProfileId_self {value id : String} (h : validateProfileId value = .ok id) :
    validateProfileId id = .ok id := by
  obtain ⟨rfl, hmatches⟩ := validateProfileId_eq_ok h
  rw [validateProfileId, Text.strip_strip]
  exact if_pos hmatches

end Setup

end CfdiVault
