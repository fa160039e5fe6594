import CfdiVault.LiveRequestState
import CfdiVault.SatContract

/-!
# One-shot SAT verification scheduler

`runVerifyDue` selects the due requests of one profile from the state file and
verifies them one after the other.  One verification (`verifyOne`) either closes
the request without asking SAT (expired, or no attempts left) or replaces the
state file twice: first with the request marked `VERIFY_IN_PROGRESS`, then, after
the verifier answered, with the outcome.

The world of a run is the state file together with the trace of what the run did
to the outside: every atomic replacement of the file, with the content it left,
and every call of the verifier.  The trace is what the run properties talk about;
the program itself reads only the file.  The verifier may answer anything, and
differently every time, so it is a function of the whole history.

`recordResult` and `retryOrPermanent` return the record that the source stores in
the same breath; `verifyOne` stores it.
-/

namespace CfdiVault

open LiveRequestState

namespace AsyncVerify

/-- `_NO_DATA_CODES` -/
def NO_DATA_CODES : List String := ["301", "302", "5003", "5004", "no_data"]

/-! ## Backoff policy -/

/-- Configurable one-shot verification backoff policy. -/
structure VerifyBackoffPolicy where
  maxAttempts : Int := 12
  maxAge : Timedelta := Timedelta.hours 72
  initialDelay : Timedelta := Timedelta.minutes 5
  secondDelay : Timedelta := Timedelta.minutes 15
  thirdDelay : Timedelta := Timedelta.minutes 30
  fourthDelay : Timedelta := Timedelta.hours 1
  laterMinDelay : Timedelta := Timedelta.hours 2
  laterMaxDelay : Timedelta := Timedelta.hours 4

/-- `next_delay`: the delay after the given number of completed attempts.  From
the fourth on it is jittered by a digest of the request and the attempt; sums
that leave the duration type are the host's `OverflowError`. -/
def VerifyBackoffPolicy.nextDelay (rt : Runtime) (policy : VerifyBackoffPolicy)
    (completedAttempts : Int) (requestRef : String) : Except StateFault Timedelta :=
  if completedAttempts ≤ 0 then .ok policy.initialDelay
  else if completedAttempts = 1 then .ok policy.secondDelay
  else if completedAttempts = 2 then .ok policy.thirdDelay
  else if completedAttempts = 3 then .ok policy.fourthDelay
  else do
    let span ← orFault .overflow (policy.laterMaxDelay.sub? policy.laterMinDelay)
    let jitterWindow := (max span.wholeSeconds 0).toNat
    if jitterWindow = 0 then pure policy.laterMinDelay
    else
      let digest := rt.sha256Text (requestRef ++ ":" ++ toString completedAttempts)
      orFault .overflow (policy.laterMinDelay.addSeconds? (digest.prefix32 % (jitterWindow + 1)))

/-! ## The verifier -/

/-- An attribute read with `getattr(value, name, None)`, as far as the scheduler
distinguishes its type and truth value. -/
inductive Attr where
  | none
  | int (n : Int)
  | text (s : String)
  | other (truthy : Bool)
  deriving DecidableEq

/-- Truth value of an attribute. -/
def Attr.truthy : Attr → Bool
  | .none => false
  | .int n => n != 0
  | .text s => s != ""
  | .other b => b

/-- An exception raised by the verifier: whether it is a `TimeoutError`, and the
attributes that the scheduler looks up. -/
structure VerifierException where
  isTimeout : Bool := false
  diagnosticErrorKind : Attr := .none
  errorKind : Attr := .none
  statusCode : Attr := .none
  httpStatus : Attr := .none
  diagnosticHttpStatus : Attr := .none
  deriving DecidableEq

/-- What one call of the verifier gives. -/
abbrev VerifierAnswer := Except VerifierException SatVerificationResult

/-- `_error_kind` -/
def errorKind (exc : VerifierException) : String :=
  let own :=
    match exc.errorKind with
    | .text s => if s = "" then "transport_error" else s
    | _ => "transport_error"
  if exc.isTimeout then "transport_timeout"
  else
    match exc.diagnosticErrorKind with
    | .text s =>
        if s = "" then own
        else if s ∈ ["timeout", "verify_read_timeout", "transport_timeout"] then "transport_timeout"
        else s
    | _ => own

/-- `_http_status` -/
def httpStatus (exc : VerifierException) : Option Int :=
  let status :=
    if exc.statusCode.truthy then exc.statusCode
    else if exc.httpStatus.truthy then exc.httpStatus
    else exc.diagnosticHttpStatus
  match status with
  | .int n => some n
  | _ => none

/-! ## The world of a run -/

/-- What a run does to the outside. -/
inductive VerifyEvent where
  /-- the state file was replaced, by an upsert of `record`, with `file` -/
  | replaced (record : LiveMetadataRequestRecord) (file : StateFile)
  /-- the verifier was asked about `record` and gave `answer` -/
  | called (record : LiveMetadataRequestRecord) (now : Instant) (answer : VerifierAnswer)

/-- The state file and the history of a run. -/
structure VerifyWorld where
  file : StateFile
  trace : List VerifyEvent := []

/-- `SatVerificationPort`: the answer to a request id after a history. -/
abbrev Verifier := List VerifyEvent → String → VerifierAnswer

abbrev VerifyProg := Prog VerifyWorld StateFault

/-- `upsert_live_metadata_request` -/
def upsert (record : LiveMetadataRequestRecord) : VerifyProg Unit := do
  let w ← get
  let file ← Prog.ofExcept (upsertLive record w.file)
  set ({ file := file, trace := w.trace ++ [.replaced record file] } : VerifyWorld)

/-- `_store` -/
def store (record : LiveMetadataRequestRecord) : VerifyProg LiveMetadataRequestRecord := do
  upsert record
  pure record

/-- Ask the verifier about the request of `record`. -/
def askVerifier (verifier : Verifier) (now : Instant) (record : LiveMetadataRequestRecord) :
    VerifyProg VerifierAnswer := do
  let w ← get
  let answer := verifier w.trace record.idSolicitud
  set ({ w with trace := w.trace ++ [.called record now answer] } : VerifyWorld)
  pure answer

/-! ## One verification -/

section Verify

variable (rt : Runtime) (policy : VerifyBackoffPolicy)

/-- When a request expires: its own expiry, or the maximal age after its creation. -/
def expiryOf (record : LiveMetadataRequestRecord) : Except StateFault Instant :=
  if record.expiresAt = "" then do
    let created ← parseStateDatetime record.createdAt
    addInstant created policy.maxAge
  else parseStateDatetime record.expiresAt

/-- `_is_expired` -/
def isExpired (now : Instant) (record : LiveMetadataRequestRecord) : Except StateFault Bool := do
  let expiresAt ← expiryOf policy record
  pure (decide (expiresAt ≤ now))

/-- `_next_check_at`: the delay is added first, and the sum then cut off at the
expiry of the request. -/
def nextCheckAt (now : Instant) (completedAttempts : Int) (record : LiveMetadataRequestRecord) :
    Except StateFault String := do
  let delay ← policy.nextDelay rt completedAttempts record.requestRef
  let nextAt ← addInstant now delay
  let expiresAt ← expiryOf policy record
  pure (formatInstant (if expiresAt < nextAt then expiresAt else nextAt))

/-- `_is_no_data` -/
def isNoData (result : SatVerificationResult) : Bool :=
  Text.lower (Text.strip result.satCode) ∈ NO_DATA_CODES

/-- The part of the record that every result updates in the same way. -/
def withResult (now : Instant) (record : LiveMetadataRequestRecord)
    (result : SatVerificationResult) : LiveMetadataRequestRecord :=
  { record with
    attemptCount := record.attemptCount + 1
    lastCheckedAt := formatInstant now
    lastErrorKind := ""
    lastHttpStatus := none
    satEstadoSolicitud := result.state.value
    satCodigoEstado := result.satCode
    numeroCfdis := result.packageIds.length
    updatedAt := formatInstant now }

/-- `_record_result`: the record stored for a result of the verifier. -/
def recordResult (now : Instant) (record : LiveMetadataRequestRecord)
    (result : SatVerificationResult) : Except StateFault LiveMetadataRequestRecord :=
  let common := withResult now record result
  if result.action = .finished then
    .ok { common with
      status := PACKAGE_READY
      nextCheckAt := ""
      packageIds := result.packageIds
      packageRefsRedacted := result.packageIds.map (redactPackageRef rt) }
  else if isNoData result then
    .ok { common with status := VERIFY_NO_DATA, nextCheckAt := "" }
  else if result.action = .expired ∨ result.state = .expired then
    .ok { common with
      status := VERIFY_EXPIRED, nextCheckAt := "", lastErrorKind := "expired_request" }
  else if result.state = .rejected then
    .ok { common with status := VERIFY_REJECTED, nextCheckAt := "", lastErrorKind := "rejected" }
  else if result.action = .unauthorized then
    .ok { common with
      status := VERIFY_FAILED_PERMANENT, nextCheckAt := "", lastErrorKind := "unauthorized" }
  else if result.action = .permanentFailure then
    .ok { common with
      status := VERIFY_FAILED_PERMANENT, nextCheckAt := "", lastErrorKind := "permanent_failure" }
  else if result.action ∈ [.accepted, .inProgress, .retry, .duplicate] then
    if policy.maxAttempts ≤ common.attemptCount then
      .ok { common with
        status := VERIFY_FAILED_PERMANENT
        nextCheckAt := ""
        lastErrorKind := "max_attempts_reached" }
    else do
      let next ← nextCheckAt rt policy now common.attemptCount common
      let status :=
        if result.action ∈ [.accepted, .inProgress] then VERIFY_IN_PROGRESS_SAT
        else VERIFY_FAILED_RETRYABLE
      pure { common with status := status, nextCheckAt := next }
  else do
    let next ← nextCheckAt rt policy now common.attemptCount common
    pure { common with status := VERIFY_FAILED_RETRYABLE, nextCheckAt := next }

/-- `_retry_or_permanent`: the record stored after the verifier raised. -/
def retryOrPermanent (now : Instant) (record : LiveMetadataRequestRecord)
    (kind : String) (http : Option Int) : Except StateFault LiveMetadataRequestRecord :=
  let attemptCount := record.attemptCount + 1
  let updated := { record with
    attemptCount := attemptCount
    lastCheckedAt := formatInstant now
    lastHttpStatus := http
    updatedAt := formatInstant now }
  if policy.maxAttempts ≤ attemptCount then
    .ok { updated with
      status := VERIFY_FAILED_PERMANENT
      nextCheckAt := ""
      lastErrorKind := if kind = "transport_timeout" then "max_attempts_reached" else kind }
  else do
    let next ← nextCheckAt rt policy now attemptCount record
    pure { updated with
      status := VERIFY_FAILED_RETRYABLE, nextCheckAt := next, lastErrorKind := kind }

/-- The record stored for an answer of the verifier. -/
def recordAnswer (now : Instant) (record : LiveMetadataRequestRecord) :
    VerifierAnswer → Except StateFault LiveMetadataRequestRecord
  | .error exc => retryOrPermanent rt policy now record (errorKind exc) (httpStatus exc)
  | .ok result => recordResult rt policy now record result

/-- A request past its expiry. -/
def markExpired (now : Instant) (record : LiveMetadataRequestRecord) : LiveMetadataRequestRecord :=
  { record with
    status := VERIFY_EXPIRED
    nextCheckAt := ""
    lastCheckedAt := formatInstant now
    lastErrorKind := "expired_request"
    updatedAt := formatInstant now }

/-- A request without attempts left. -/
def markExhausted (now : Instant) (record : LiveMetadataRequestRecord) : LiveMetadataRequestRecord :=
  { record with
    status := VERIFY_FAILED_PERMANENT
    nextCheckAt := ""
    lastCheckedAt := formatInstant now
    lastErrorKind := "max_attempts_reached"
    updatedAt := formatInstant now }

/-- A request whose verification is under way. -/
def markInProgress (now : Instant) (record : LiveMetadataRequestRecord) : LiveMetadataRequestRecord :=
  { record with
    status := VERIFY_IN_PROGRESS
    lastCheckedAt := formatInstant now
    updatedAt := formatInstant now }

/-- `_verify_one` -/
def verifyOne (verifier : Verifier) (now : Instant) (record : LiveMetadataRequestRecord) :
    VerifyProg LiveMetadataRequestRecord := do
  let expired ← Prog.ofExcept (isExpired policy now record)
  if expired then store (markExpired now record)
  else if policy.maxAttempts ≤ record.attemptCount then store (markExhausted now record)
  else do
    let inProgress := markInProgress now record
    upsert inProgress
    let answer ← askVerifier verifier now record
    let outcome ← Prog.ofExcept (recordAnswer rt policy now inProgress answer)
    store outcome

/-! ## Selection and report -/

/-- A pending request whose check time has come. -/
def isDueRecord (now : Instant) (record : LiveMetadataRequestRecord) : Except StateFault Bool :=
  if record.status ∈ PENDING_VERIFY_STATUSES then isDue now record else .ok false

/-- Order of the due requests: check time, creation time, reference, as texts. -/
def dueBefore (a b : LiveMetadataRequestRecord) : Prop :=
  a.nextCheckAt < b.nextCheckAt ∨ a.nextCheckAt = b.nextCheckAt ∧
    (a.createdAt < b.createdAt ∨ a.createdAt = b.createdAt ∧ a.requestRef ≤ b.requestRef)

instance dueBeforeDecidable (a b : LiveMetadataRequestRecord) : Decidable (dueBefore a b) :=
  inferInstanceAs (Decidable (_ ∨ _))

/-- `_due_records` -/
def dueRecords (records : List LiveMetadataRequestRecord) (now : Instant) :
    Except StateFault (List LiveMetadataRequestRecord) := do
  let due ← Checked.filter (isDueRecord now) records
  pure (due.insertionSort dueBefore)

/-- Safe per-request result for one verify-due run. -/
structure VerifyDueItem where
  requestRef : String
  status : String
  nextCheckAt : String
  attemptCount : Int
  lastErrorKind : String
  packageCount : Int
  deriving DecidableEq

/-- `_item_from_record` -/
def itemFromRecord (record : LiveMetadataRequestRecord) : VerifyDueItem where
  requestRef := record.requestRef
  status := record.status
  nextCheckAt := record.nextCheckAt
  attemptCount := record.attemptCount
  lastErrorKind := record.lastErrorKind
  packageCount := record.numeroCfdis

/-- Safe aggregate result for one one-shot verify worker run. -/
structure VerifyDueReport where
  profileId : String
  dryRun : Bool
  dueCount : Nat
  selectedCount : Nat
  processedCount : Nat
  pendingVerifyCount : Nat
  nextDueVerification : String
  packageReadyCount : Nat
  failedRequests : Nat
  items : List VerifyDueItem
  deriving DecidableEq

/-- The arguments of `run_verify_due` other than the policy and the storage root. -/
structure VerifyDueArgs where
  profileId : String
  verifier : Verifier
  limit : Int := 1
  dryRun : Bool := false
  requestRef : Option String := none
  now : DateTime

/-- The listed records that a run looks at. -/
def candidates (args : VerifyDueArgs) (records : List LiveMetadataRequestRecord) :
    List LiveMetadataRequestRecord :=
  let ofProfile := records.filter fun r => r.profileId = args.profileId
  match args.requestRef with
  | none => ofProfile
  | some ref => ofProfile.filter fun r => r.requestRef = Text.strip ref

/-- The report of a run. -/
def reportOf (args : VerifyDueArgs) (dueCount selectedCount processedCount : Nat)
    (summary : LiveMetadataRequestSummary) (items : List VerifyDueItem) : VerifyDueReport where
  profileId := args.profileId
  dryRun := args.dryRun
  dueCount := dueCount
  selectedCount := selectedCount
  processedCount := processedCount
  pendingVerifyCount := summary.pendingVerifyCount
  nextDueVerification := summary.nextDueVerification
  packageReadyCount := summary.packageReadyCount
  failedRequests := summary.failedRequests
  items := items

/-- What a run reads before it verifies anything. -/
structure Selection where
  current : Instant
  records : List LiveMetadataRequestRecord
  due : List LiveMetadataRequestRecord

/-- The first statements of `run_verify_due`. -/
def selection (args : VerifyDueArgs) (file : StateFile) : Except StateFault Selection := do
  let current ← normalizeDt args.now
  let listed ← listLive file
  let due ← dueRecords (candidates args listed) current
  pure ⟨current, candidates args listed, due⟩

/-- The report of a run that verified, over the records of the profile as the file
now lists them. -/
def finalReport (args : VerifyDueArgs) (sel : Selection) (selectedCount : Nat)
    (processed : List LiveMetadataRequestRecord) (file : StateFile) :
    Except StateFault VerifyDueReport := do
  let relisted ← listLive file
  let refreshed := relisted.filter fun r => r.profileId = args.profileId
  let summary ← summarize refreshed sel.current
  pure (reportOf args sel.due.length selectedCount processed.length summary
    (processed.map itemFromRecord))

/-- The report of a run that only looks. -/
def dryReport (args : VerifyDueArgs) (sel : Selection)
    (selected : List LiveMetadataRequestRecord) : Except StateFault VerifyDueReport := do
  let summary ← summarize sel.records sel.current
  pure (reportOf args sel.due.length selected.length 0 summary (selected.map itemFromRecord))

/-- `run_verify_due` -/
def runVerifyDue (args : VerifyDueArgs) : VerifyProg VerifyDueReport := do
  let w ← get
  let sel ← Prog.ofExcept (selection args w.file)
  let selected := Text.sliceTo args.limit sel.due
  if args.dryRun then Prog.ofExcept (dryReport args sel selected)
  else do
    let processed ← Prog.collect selected (verifyOne rt policy args.verifier sel.current)
    let after ← get
    Prog.ofExcept (finalReport args sel selected.length processed after.file)

end Verify

end AsyncVerify

end CfdiVault
