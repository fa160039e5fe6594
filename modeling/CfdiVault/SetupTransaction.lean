import Mathlib.Logic.Function.Basic
import CfdiVault.Library.Program
import CfdiVault.SetupCore

/-!
# Setting up a profile

`run_setup` puts two credential files, a profile document and a phrase in place.  The
files are staged in an `.incoming` directory first; then a transaction stores the phrase,
moves the files into place with backups, and replaces the document last.  An exception
inside the transaction is followed by a rollback.

The operations of the transaction may each raise, and so may those of the rollback.
-/

namespace CfdiVault

namespace Setup

/-! ## Files -/

/-- The names of the files in the credentials directory: a certificate and a private key
with one of its two suffixes. -/
inductive FinalName where
  | certificate
  | privateKey
  | privateKeyPem
  deriving DecidableEq

def FinalName.suffix : FinalName → String
  | .certificate => ".cer"
  | .privateKey => ".key"
  | .privateKeyPem => ".pem"

/-- A credential file: in the credentials directory, in its `.incoming` directory under the
same name, under this name with `.bak`, or under another one, or anywhere else. -/
inductive CredentialPath where
  | final (name : FinalName)
  | staged (name : FinalName)
  | backup (name : FinalName)
  | stray (name : String)
  | elsewhere (path : String)
  deriving DecidableEq

/-- The file lies in the `.incoming` directory. -/
def CredentialPath.incoming : CredentialPath → Bool
  | .staged _ => true
  | .backup _ => true
  | .stray _ => true
  | _ => false

inductive SetupPath where
  | file (path : CredentialPath)
  | profileJson
  | profileJsonTmp
  deriving DecidableEq

/-- Concrete source files selected for credential intake. -/
structure CredentialSelection where
  certificatePath : CredentialPath
  privateKeyPath : CredentialPath
  deriving DecidableEq

/-- Staged credential import that can be committed or rolled back. -/
structure PendingCredentialImport where
  finalSelection : CredentialSelection
  stagedSelection : CredentialSelection
  /-- `temp_dir` is set. -/
  tempDir : Bool := false
  backups : List (CredentialPath × CredentialPath) := []
  installedFinals : List CredentialPath := []

/-- The files, whether there is an `.incoming` directory, the stored phrases by reference,
the two variables of `run_setup` that its handler reads, and the operations so far. -/
structure SetupWorld where
  files : SetupPath → Option Bytes
  incoming : Bool
  phrases : String → Option String
  pending : PendingCredentialImport
  phraseBackup : Option (Option String) := none
  ops : Nat := 0
  undoOps : Nat := 0

/-- What an operation that raises leaves behind besides its exception: the provider may
have stored the value, and a document may be written in part. -/
structure Failure where
  fault : SetupFault
  stored : Bool := false
  written : Option Bytes := none

/-- What setup takes from outside.  `candidates` is what `guard_credential_intake` and the
choice among the source files come to; they only read.  An operation of the transaction
fails by the number of operations before it, and so does one of the rollback. -/
structure SetupHost where
  rt : Runtime
  matchesRfc : String → Bool
  candidates : Except SetupFault CredentialSelection
  insideRepository : CredentialPath → Bool
  looksLikeUnencryptedPem : Bytes → Bool
  /-- `Path(text).suffix.lower()` -/
  lowerSuffix : String → String
  pathText : CredentialPath → String
  storageRoot : String → String
  /-- The text of a profile document, as UTF-8. -/
  encodeDocument : List (String × String) → Bytes
  fails : Nat → Option Failure
  undoFails : Nat → Option SetupFault

abbrev SetupProg := Prog SetupWorld SetupFault

/-! ## Operations -/

section Operations

variable (host : SetupHost)

/-- An operation of the transaction.  One that raises may leave a trace. -/
def operation {α : Type} (step : SetupWorld → Except SetupFault α × SetupWorld)
    (trace : Failure → SetupWorld → SetupWorld) : SetupProg α :=
  Prog.act fun w =>
    match host.fails w.ops with
    | some failure => (.error failure.fault, trace failure { w with ops := w.ops + 1 })
    | none => step { w with ops := w.ops + 1 }

/-- An operation of the rollback; one that raises does nothing. -/
def undoOperation (change : SetupWorld → SetupWorld) : SetupProg PUnit :=
  Prog.act fun w =>
    match host.undoFails w.undoOps with
    | some fault => (.error fault, { w with undoOps := w.undoOps + 1 })
    | none => (.ok ⟨⟩, change { w with undoOps := w.undoOps + 1 })

def SetupWorld.setFile (w : SetupWorld) (path : SetupPath) (content : Option Bytes) : SetupWorld :=
  { w with files := Function.update w.files path content }

/-- The file at one path is moved to another one. -/
def SetupWorld.move (w : SetupWorld) (source destination : SetupPath) : SetupWorld :=
  (w.setFile source none).setFile destination (w.files source)

def SetupWorld.setPhrase (w : SetupWorld) (reference : String) (phrase : Option String) : SetupWorld :=
  { w with phrases := Function.update w.phrases reference phrase }

/-- The `.incoming` directory and its files are gone. -/
def SetupWorld.removeIncoming (w : SetupWorld) : SetupWorld where
  files
    | .file path => if path.incoming then none else w.files (.file path)
    | path => w.files path
  incoming := false
  phrases := w.phrases
  pending := w.pending
  phraseBackup := w.phraseBackup
  ops := w.ops
  undoOps := w.undoOps

/-- `os.replace` -/
def replace (source destination : SetupPath) : SetupProg PUnit :=
  operation host
    (fun w =>
      if w.files source = none then (.error (.os "no such file"), w)
      else (.ok ⟨⟩, w.move source destination))
    fun _ w => w

/-- `write_profile` -/
def writeProfile (profile : LocalProfile) (path : SetupPath) : SetupProg PUnit :=
  operation host (fun w => (.ok ⟨⟩, w.setFile path (some (host.encodeDocument profile.toDocument))))
    fun failure w =>
      match failure.written with
      | some content => w.setFile path (some content)
      | none => w

/-- `provider.exists` -/
def providerExists (reference : String) : SetupProg Bool :=
  operation host (fun w => (.ok (w.phrases reference).isSome, w)) fun _ w => w

/-- `provider.resolve` -/
def providerResolve (reference : String) : SetupProg String :=
  operation host
    (fun w =>
      match w.phrases reference with
      | some phrase => (.ok phrase, w)
      | none => (.error (.credential "credential reference not found"), w))
    fun _ w => w

/-- `provider.store` -/
def providerStore (reference phrase : String) : SetupProg PUnit :=
  operation host (fun w => (.ok ⟨⟩, w.setPhrase reference (some phrase)))
    fun failure w => if failure.stored then w.setPhrase reference (some phrase) else w

/-! ## The import -/

/-- `temp_dir / f"{final_path.name}.bak"` -/
def backupOf : CredentialPath → CredentialPath
  | .final name => .backup name
  | path => path

/-- `except OSError: pass` -/
def ignoringOs (p : SetupProg PUnit) : SetupProg PUnit :=
  Prog.catching p fun
    | .os _ => pure ⟨⟩
    | fault => throw fault

/-- `shutil.rmtree(…, ignore_errors=True)` -/
def removeTree : SetupProg PUnit :=
  Prog.catching (undoOperation host SetupWorld.removeIncoming) fun _ => pure ⟨⟩

/-- Remove an installed file. -/
def unlinkFinal (path : CredentialPath) : SetupProg PUnit :=
  ignoringOs do
    let w ← get
    if w.files (.file path) = none then pure ⟨⟩
    else undoOperation host (·.setFile (.file path) none)

/-- Put a backup back in place; says whether that went well. -/
def restoreBackup (entry : CredentialPath × CredentialPath) : SetupProg Bool :=
  Prog.catching
    (do
      let w ← get
      if w.files (.file entry.2) = none then pure true
      else do
        undoOperation host (·.move (.file entry.2) (.file entry.1))
        pure true)
    fun
      | .os _ =>
          Prog.catching
            (do
              undoOperation host fun w => w.setFile (.file entry.1) (w.files (.file entry.2))
              undoOperation host (·.setFile (.file entry.2) none)
              pure true)
            fun
              | .os _ => pure false
              | fault => throw fault
      | fault => throw fault

/-- `PendingCredentialImport.rollback` -/
def rollback : SetupProg PUnit := do
  let w ← get
  if w.pending.tempDir = false then pure ⟨⟩
  else do
    Prog.each w.pending.installedFinals fun path => unlinkFinal host path
    let restored ← Prog.collect w.pending.backups fun entry => restoreBackup host entry
    if restored.all id then do
      removeTree host
      modify fun w => { w with
        pending := { w.pending with tempDir := false, backups := [], installedFinals := [] } }
    else pure ⟨⟩

/-- A final file that exists is moved to its backup. -/
def moveAside (final : CredentialPath) : SetupProg PUnit := do
  let w ← get
  if w.files (.file final) = none then pure ⟨⟩
  else do
    replace host (.file final) (.file (backupOf final))
    modify fun w => { w with
      pending := { w.pending with backups := w.pending.backups ++ [(final, backupOf final)] } }

/-- One pass of the loop of `commit`. -/
def install (staged final : CredentialPath) : SetupProg PUnit := do
  moveAside host final
  Prog.catching
    (do
      replace host (.file staged) (.file final)
      modify fun w => { w with
        pending := { w.pending with installedFinals := w.pending.installedFinals ++ [final] } })
    fun
      | .os message => do
          rollback host
          throw (.os message)
      | fault => throw fault

/-- `PendingCredentialImport.commit` -/
def commit : SetupProg PUnit := do
  let w ← get
  if w.pending.tempDir = false then pure ⟨⟩
  else do
    modify fun w => { w with pending := { w.pending with backups := [], installedFinals := [] } }
    install host w.pending.stagedSelection.certificatePath w.pending.finalSelection.certificatePath
    install host w.pending.stagedSelection.privateKeyPath w.pending.finalSelection.privateKeyPath

/-- `PendingCredentialImport.finalize` -/
def finalize : SetupProg PUnit := do
  let w ← get
  if w.pending.tempDir = false then pure ⟨⟩
  else do
    removeTree host
    modify fun w => { w with pending := { w.pending with tempDir := false } }

/-- `path.suffix.lower()` -/
def suffixOf : CredentialPath → String
  | .final name => name.suffix
  | .staged name => name.suffix
  | .backup _ => ".bak"
  | .stray name => host.lowerSuffix name
  | .elsewhere path => host.lowerSuffix path

/-- What `_validate_selected_credentials` finds in one file. -/
def contentErrors (w : SetupWorld) (label : String) (path : CredentialPath) : List String :=
  match w.files (.file path) with
  | none => [label ++ " file is not readable: " ++ host.pathText path ++ " (no such file)"]
  | some content =>
      (if content = [] then [label ++ " file must not be empty"] else []) ++
      if suffixOf host path = ".pem" ∧ host.looksLikeUnencryptedPem content then
        ["PEM private key appears unencrypted; use encrypted key material"]
      else []

/-- `_validate_selected_credentials` -/
def validateSelectedCredentials (w : SetupWorld) (selection : CredentialSelection) :
    Except SetupFault PUnit :=
  let errors :=
    (if suffixOf host selection.certificatePath ≠ ".cer" then
      ["certificate file must use .cer extension"] else []) ++
    (if ¬ (suffixOf host selection.privateKeyPath = ".key" ∨
        suffixOf host selection.privateKeyPath = ".pem") then
      ["private key file must use .key or .pem extension"] else []) ++
    contentErrors host w "certificate" selection.certificatePath ++
    contentErrors host w "private key" selection.privateKeyPath
  if errors = [] then .ok ⟨⟩ else .error (.setup errors)

/-- `_guard_selected_paths` -/
def guardSelectedPaths (selection : CredentialSelection) : Except SetupFault PUnit :=
  let errors :=
    (if host.insideRepository selection.certificatePath then
      ["certificate file must be outside the repository"] else []) ++
    if host.insideRepository selection.privateKeyPath then
      ["private key file must be outside the repository"] else []
  if errors = [] then .ok ⟨⟩ else .error (.setup errors)

/-- The name of the private key in the credentials directory, with the suffix of the source. -/
def privateKeyDestination (selection : CredentialSelection) : FinalName :=
  if suffixOf host selection.privateKeyPath = ".pem" then .privateKeyPem else .privateKey

/-- Copy a file while staging. -/
def stageFile (source destination : CredentialPath) : SetupProg PUnit :=
  Prog.act fun w =>
    match w.files (.file source) with
    | some content => (.ok ⟨⟩, w.setFile (.file destination) (some content))
    | none => (.error (.os "no such file"), w)

/-- `stage_credentials_for_appdata` -/
def stageCredentialsForAppdata (selection : CredentialSelection) (mode : CredentialMode) :
    SetupProg PUnit :=
  match mode with
  | .referenced => modify fun w => { w with pending := ⟨selection, selection, false, [], []⟩ }
  | .copied => do
      let keyName := privateKeyDestination host selection
      modify fun w => { w.removeIncoming with incoming := true }
      Prog.catching
        (do
          stageFile selection.certificatePath (.staged .certificate)
          stageFile selection.privateKeyPath (.staged keyName))
        fun fault => do
          removeTree host
          throw fault
      modify fun w => { w with
        pending := ⟨⟨.final .certificate, .final keyName⟩, ⟨.staged .certificate, .staged keyName⟩, true, [], []⟩ }

/-! ## The transaction -/

/-- `_backup_phrase_for_rollback` -/
def backupPhraseForRollback (phraseRef : String) : SetupProg (Option String) :=
  Prog.catching
    (do
      let stored ← providerExists host phraseRef
      if stored then do
        let phrase ← providerResolve host phraseRef
        pure (some phrase)
      else pure none)
    fun
      | .credential _ =>
          throw (.setup ["private-key phrase reference could not be prepared for safe rollback"])
      | fault => throw fault

/-- `except CredentialProviderError` around an operation of the provider. -/
def ignoringCredential (p : SetupProg PUnit) : SetupProg PUnit :=
  Prog.catching p fun
    | .credential _ => pure ⟨⟩
    | fault => throw fault

/-- `_restore_phrase_after_failure`, with a provider that has `delete` -/
def restorePhraseAfterFailure (phraseRef : String) (phraseBackup : Option String) : SetupProg PUnit :=
  match phraseBackup with
  | some phrase => ignoringCredential (undoOperation host (·.setPhrase phraseRef (some phrase)))
  | none => ignoringCredential (undoOperation host (·.setPhrase phraseRef none))

/-- The inputs of `run_setup` that the transaction uses, validated. -/
structure SetupInput where
  profileId : String
  rfc : String
  phraseValue : String
  mode : CredentialMode

/-- The statements under `try`. -/
def transact (profile : LocalProfile) (phraseValue : String) : SetupProg PUnit := do
  writeProfile host profile .profileJsonTmp
  let phraseBackup ← backupPhraseForRollback host profile.phraseRef
  modify fun w => { w with phraseBackup := some phraseBackup }
  providerStore host profile.phraseRef phraseValue
  commit host
  replace host .profileJsonTmp .profileJson
  finalize host

/-- `if phrase_backup_loaded:` -/
def restoreSavedPhrase (phraseRef : String) : SetupProg PUnit := do
  let w ← get
  match w.phraseBackup with
  | some phraseBackup => restorePhraseAfterFailure host phraseRef phraseBackup
  | none => pure ⟨⟩

/-- The statements under `except Exception`. -/
def undoTransaction (profile : LocalProfile) (fault : SetupFault) : SetupProg PUnit := do
  rollback host
  restoreSavedPhrase host profile.phraseRef
  ignoringOs (undoOperation host (·.setFile .profileJsonTmp none))
  throw fault

/-- Everything before the transaction: the checks of the input, the intake, and the staging
of the files. -/
def prepare (input : SetupInput) : SetupProg LocalProfile := do
  let safeProfileId ← Prog.ofExcept (validateProfileId input.profileId)
  let normalizedRfc ← Prog.ofExcept (validateRfc host.rt host.matchesRfc input.rfc)
  let selection ← Prog.ofExcept host.candidates
  let source ← get
  Prog.ofExcept (validateSelectedCredentials host source selection)
  Prog.ofExcept (guardSelectedPaths host selection)
  Prog.raiseIf (Text.strip input.phraseValue = "")
    (.setup ["private-key phrase must be provided and is stored only through the secret provider"])
  stageCredentialsForAppdata host selection input.mode
  let w ← get
  let fingerprint ← Prog.ofExcept
    (match w.files (.file w.pending.stagedSelection.certificatePath) with
    | some content => .ok (host.rt.sha256Bytes content).hex
    | none => .error (.os "no such file"))
  pure {
    profileId := safeProfileId
    rfc := normalizedRfc
    storageRoot := host.storageRoot safeProfileId
    credentialMode := input.mode
    certificatePath := host.pathText w.pending.finalSelection.certificatePath
    privateKeyPath := host.pathText w.pending.finalSelection.privateKeyPath
    phraseRef := defaultPhraseReference safeProfileId
    status := .ready
    certificateFingerprint := fingerprint }

/-- `run_setup` -/
def runSetup (input : SetupInput) : SetupProg LocalProfile := do
  let profile ← prepare host input
  modify fun w => { w with phraseBackup := none }
  Prog.catching (transact host profile input.phraseValue) (undoTransaction host profile)
  pure profile

end Operations

end Setup

end CfdiVault
