import CfdiVault.LiveCommands
import CfdiVault.SatBackfill
import CfdiVault.SatContract

/-!
# Live submission of metadata requests

Two commands submit a metadata request to SAT, `sat metadata-request-smoke` for one
day and `sat backfill submit` for the first window of a plan that has no request yet.
They share the routine that sends the request and then persists what SAT accepted.

Before it sends, `sat backfill submit` has read the state file to build its plan;
`sat metadata-request-smoke` reads it for the first time when it persists.
`Lawful` states what a submission owes to the state file, and `submission_iff` when
each command pays.
-/

namespace CfdiVault

open LiveRequestState LiveCommands SatBackfill

namespace LiveSubmit

/-! ## The surroundings -/

/-- What an invocation does to the outside. -/
inductive SubmitEvent where
  /-- a request was sent to SAT, and this was the answer or the failure -/
  | submitted (query : DownloadQuery) (answer : Except CliFault SatRequestResult)
  /-- the state file was replaced, by an upsert of `record` -/
  | replaced (record : LiveMetadataRequestRecord)

/-- The state file and the history of the invocations. -/
structure SubmitWorld where
  file : StateFile
  trace : List SubmitEvent := []

/-- The parts of a submission that are SAT's or the credentials': authentication and
the signed envelope, and the request itself. -/
structure SubmitPorts where
  prepare : DownloadQuery → Except CliFault Unit
  send : List SubmitEvent → DownloadQuery → Except CliFault SatRequestResult

abbrev SubmitProg := Prog SubmitWorld CliFault

/-! ## The adapter -/

/-- SAT v1.5 specialized request operations. -/
inductive SatV15RequestOperation where
  | issued
  | received
  | folio
  deriving DecidableEq

def SatV15RequestOperation.value : SatV15RequestOperation → String
  | issued => "SolicitaDescargaEmitidos"
  | received => "SolicitaDescargaRecibidos"
  | folio => "SolicitaDescargaFolio"

/-- `resolve_v15_request_operation` -/
def resolveV15RequestOperation (query : DownloadQuery) : SatV15RequestOperation :=
  if query.uuid.getD "" ≠ "" then .folio
  else
    match query.direction with
    | .folio => .folio
    | .received => .received
    | .issued => .issued

/-- `_v15_guard_error`, as the commands print it. -/
def v15GuardError (hint : String) : CliFault := .exit "live_adapter_failed" [hint]

/-- `_validate_v15_live_metadata_query` -/
def validateV15LiveMetadataQuery (query : DownloadQuery) (maxRangeDays : Int) :
    Except CliFault Unit :=
  if maxRangeDays < 1 then .error (v15GuardError "invalid-max-range-days")
  else if resolveV15RequestOperation query = .folio then
    if query.uuid.getD "" = "" then .error (v15GuardError "uuid-required-for-folio-request")
    else .ok ()
  else
    match query.period with
    | none => .error (v15GuardError "date-range-required")
    | some period =>
        let elapsed := elapsedMicros period
        if elapsed ≤ 0 then .error (v15GuardError "fecha-inicial-must-be-before-fecha-final")
        else if elapsed < 2000000 then .error (v15GuardError "minimum-two-second-range-required")
        else if 86400000000 * maxRangeDays < elapsed then .error (v15GuardError "range-too-wide")
        else .ok ()

/-- `_require_metadata_only` -/
def requireMetadataOnly (query : DownloadQuery) (maxRangeDays : Int) : Except CliFault Unit :=
  if query.requestType ≠ .metadata then
    .error (v15GuardError "metadata-only live smoke is required")
  else validateV15LiveMetadataQuery query maxRangeDays

/-- The summary of a submission. -/
structure SatLiveSmokeSummary where
  result : String
  auth : String
  request : String
  verification : String := "not_run"
  operation : String
  idSolicitud : String
  idSolicitudRedacted : String
  satCode : String
  satMessage : String
  deriving DecidableEq

/-- `_request_summary` -/
def requestSummary (query : DownloadQuery) (answer : SatRequestResult) : SatLiveSmokeSummary where
  result :=
    if answer.action = .accepted then "metadata-request-submitted" else "request-not-accepted"
  auth := "authenticated"
  request := answer.action.value
  operation := (resolveV15RequestOperation query).value
  idSolicitud := answer.requestId
  idSolicitudRedacted := redactIdentifier answer.requestId
  satCode := answer.satCode
  satMessage := answer.message

/-- Send a request to SAT. -/
def sendRequest (ports : SubmitPorts) (query : DownloadQuery) : SubmitProg SatRequestResult := do
  let w ← get
  let answer := ports.send w.trace query
  set ({ w with trace := w.trace ++ [.submitted query answer] } : SubmitWorld)
  Prog.ofExcept answer

/-- `metadata_request_smoke` -/
def metadataRequestSmoke (ports : SubmitPorts) (query : DownloadQuery) (maxRangeDays : Int) :
    SubmitProg SatLiveSmokeSummary := do
  Prog.ofExcept (requireMetadataOnly query maxRangeDays)
  Prog.ofExcept (ports.prepare query)
  let answer ← sendRequest ports query
  pure (requestSummary query answer)

/-! ## Send, then persist -/

/-- The arguments of the shared routine. -/
structure RequestSmokeArgs where
  profileId : String
  query : DownloadQuery
  permitRef : Option String
  sourceCommand : String := "sat metadata-request-smoke"
  status : String := "accepted"
  maxRangeDays : Int := 1

/-- Redacted result of a submission. -/
structure LiveSmokeCliResult where
  result : String
  auth : String
  request : String
  verification : String
  operation : String
  requestRef : String
  idSolicitudRedacted : String
  deriving DecidableEq

/-- `_live_smoke_cli_result` -/
def liveSmokeCliResult (summary : SatLiveSmokeSummary) (requestRef : String) :
    LiveSmokeCliResult where
  result := summary.result
  auth := summary.auth
  request := summary.request
  verification := summary.verification
  operation := summary.operation
  requestRef := requestRef
  idSolicitudRedacted := summary.idSolicitudRedacted

section Commands

variable (rt : Runtime) (env : LiveEnv) (ports : SubmitPorts)

/-- What is persisted of an accepted submission. -/
def persistArgs (args : RequestSmokeArgs) (summary : SatLiveSmokeSummary) : PersistArgs where
  profileId := args.profileId
  query := args.query
  operation := summary.operation
  idSolicitud := summary.idSolicitud
  satCode := summary.satCode
  satMessage := summary.satMessage
  sourceCommand := args.sourceCommand
  permitRef := args.permitRef
  status := args.status
  now := .utc (env.clock 0)

/-- `persist_live_metadata_request` -/
def persistRequest (args : PersistArgs) : SubmitProg LiveMetadataRequestRecord := do
  let w ← get
  let (record, file) ← Prog.ofExcept
    ((persistLive rt args w.file).mapError (stateFault "request_state_persist_failed"))
  set ({ file := file, trace := w.trace ++ [.replaced record] } : SubmitWorld)
  pure record

/-- `_run_live_metadata_request_smoke` -/
def runLiveMetadataRequestSmoke (args : RequestSmokeArgs) : SubmitProg LiveSmokeCliResult := do
  let _ ← Prog.ofExcept (env.loadProfile args.profileId)
  let summary ← metadataRequestSmoke ports args.query args.maxRangeDays
  if summary.request = "accepted" ∧ summary.idSolicitud ≠ "" then do
    let stored ← persistRequest rt (persistArgs env args summary)
    pure (liveSmokeCliResult summary stored.requestRef)
  else pure (liveSmokeCliResult summary "")

/-! ## `sat metadata-request-smoke` -/

/-- The options of `sat metadata-request-smoke`. -/
structure RequestSmokeOptions where
  profile : String
  fromDate : String
  toDate : String
  direction : String := "received"
  manualRealSat : Bool := false
  permit : Option String := none

/-- A `typer.BadParameter`, which ends the command with a usage error. -/
def badParameter : CliFault := .raised "BadParameter"

/-- `_parse_download_direction` -/
def parseDownloadDirection (value : String) : Except CliFault DownloadDirection :=
  let normalized := Text.lower (Text.strip value)
  if normalized = DownloadDirection.received.value then .ok .received
  else if normalized = DownloadDirection.issued.value then .ok .issued
  else .error badParameter

/-- `_parse_cli_datetime`: a date alone means its first or its last microsecond, and a
reading without offset is UTC. -/
def parseCliDatetime (endOfDay : Bool) (value : String) : Option DateTime := do
  let normalized := Text.strip value
  let hasTime := normalized.toList.any fun c => c == 'T' || c == ' '
  let parsed ← DateTime.fromisoformat
    (if hasTime then Text.replaceChar 'Z' "+00:00" normalized else normalized)
  if hasTime then some ⟨parsed.wall, some (parsed.offset.getD UtcOffset.zero)⟩
  else
    let date := parsed.wall.date
    some (.utc (if endOfDay then date.lastMicrosecond else date.midnight))

/-- `_parse_download_date` -/
def parseDownloadDate (endOfDay : Bool) (value : String) : Except CliFault DateTime :=
  match parseCliDatetime endOfDay value with
  | some t => .ok t
  | none => .error badParameter

/-- The query of a profile over a range of readings. -/
def profileQuery (localProfile : LocalProfile) (direction : DownloadDirection)
    (start «end» : DateTime) : Except CliFault DownloadQuery :=
  if h : DateTime.orderedAfter? «end» start = some true then
    let query : DownloadQuery := {
      tenantId := localProfile.profileId
      requesterRfc := localProfile.rfc
      direction := direction
      requestType := .metadata
      period := some ⟨start, «end», h⟩ }
    match query.validate with
    | [] => .ok query
    | errors => .error (.exit "invalid_download_query" errors)
  else .error (.exit "invalid_date_range" ["--from must be before or equal to --to"])

/-- `_build_profile_download_query_with_profile` for a metadata query. -/
def buildProfileDownloadQuery (options : RequestSmokeOptions) :
    Except CliFault (DownloadQuery × LocalProfile) := do
  let direction ← parseDownloadDirection options.direction
  let start ← parseDownloadDate false options.fromDate
  let «end» ← parseDownloadDate true options.toDate
  let localProfile ← env.loadProfile options.profile
  let query ← profileQuery localProfile direction start «end»
  pure (query, localProfile)

/-- The arguments of the shared routine under `sat metadata-request-smoke`. -/
def RequestSmokeOptions.args (options : RequestSmokeOptions) (query : DownloadQuery) :
    RequestSmokeArgs where
  profileId := options.profile
  query := query
  permitRef := options.permit

/-- `sat_metadata_request_smoke` -/
def satMetadataRequestSmoke (options : RequestSmokeOptions) : SubmitProg LiveSmokeCliResult := do
  let (query, _) ← Prog.ofExcept (buildProfileDownloadQuery env options)
  let _ ← Prog.ofExcept (validateLiveSmokeGuard env options.profile options.manualRealSat query
    (isMinimalLiveSmokeRange query) options.permit METADATA_LIVE_SMOKE_SCOPE)
  runLiveMetadataRequestSmoke rt env ports (options.args query)

/-! ## `sat backfill submit` -/

/-- The options of `sat backfill submit`. -/
structure BackfillSubmitOptions where
  profile : String := "default"
  fromDate : String
  toDate : String
  direction : String := "received"
  kind : String := "metadata"
  window : String := "weekly"
  limitWindows : Option Nat := none
  manualRealSat : Bool := false
  permit : Option String := none

/-- `_deny_backfill_submit` -/
def denyBackfillSubmit (reason : String) : CliFault := .exit "backfill_submit_denied" [reason]

/-- `_parse_backfill_date` -/
def parseBackfillDate (value : String) : Except CliFault Date :=
  match DateTime.fromisoformat (Text.strip value) with
  | some t => .ok t.wall.date
  | none => .error badParameter

/-- `_parse_download_kind` -/
def parseDownloadKind (value : String) : Except CliFault RequestType :=
  match requestTypeOfValue? (Text.lower (Text.strip value)) with
  | some kind => .ok kind
  | none => .error badParameter

/-- A failure to plan, as the command reports it; a `UnicodeDecodeError` is a
`ValueError`. -/
def planFault : PlanFault → CliFault
  | .state (.liveRequest reason) => .exit "request_state_unavailable" [reason]
  | .state .unicode => .exit "invalid_backfill_submit" []
  | .state .overflow => .raised "OverflowError"
  | .value message => .exit "invalid_backfill_submit" [message]
  | .overflow => .raised "OverflowError"

/-- What the options ask to plan. -/
def planArgs (options : BackfillSubmitOptions) (localProfile : LocalProfile) :
    Except CliFault PlanArgs := do
  let startDate ← parseBackfillDate options.fromDate
  let endDate ← parseBackfillDate options.toDate
  let direction ← parseDownloadDirection options.direction
  let kind ← parseDownloadKind options.kind
  pure {
    profileId := localProfile.profileId
    requesterRfc := localProfile.rfc
    startDate := startDate
    endDate := endDate
    direction := direction
    kind := kind
    window := options.window }

/-- The checks before the plan. -/
def backfillGate (options : BackfillSubmitOptions) : Except CliFault Unit :=
  if options.manualRealSat = false then .error (denyBackfillSubmit "manual-real-sat-required")
  else if options.permit = none then .error (denyBackfillSubmit "permit-required-for-live")
  else
    match options.limitWindows with
    | none => .error (denyBackfillSubmit "limit-windows-required")
    | some limit =>
        if limit ≠ 1 then .error (denyBackfillSubmit "limit-one-required") else .ok ()

/-- The plan of an invocation on a state file, with the profile it is for. -/
def submitPlan (options : BackfillSubmitOptions) (file : StateFile) :
    Except CliFault (LocalProfile × BackfillPlan) := do
  backfillGate options
  let localProfile ← env.loadProfile options.profile
  let args ← planArgs options localProfile
  let plan ← (buildBackfillPlan rt args file).mapError planFault
  pure (localProfile, plan)

/-- The arguments of the shared routine under `sat backfill submit`. -/
def BackfillSubmitOptions.args (options : BackfillSubmitOptions) (query : DownloadQuery) :
    RequestSmokeArgs where
  profileId := options.profile
  query := query
  permitRef := options.permit
  sourceCommand := "sat backfill submit"
  status := VERIFY_SCHEDULED
  maxRangeDays := MAX_BACKFILL_RANGE_DAYS

/-- The submission of the selected window. -/
def submitWindow (options : BackfillSubmitOptions) (window : BackfillWindowPlan) :
    SubmitProg LiveSmokeCliResult := do
  let _ ← Prog.ofExcept (validateLiveSmokeGuard env options.profile options.manualRealSat
    window.query (isBackfillSubmitRange window.query) options.permit BACKFILL_SUBMIT_SCOPE)
  runLiveMetadataRequestSmoke rt env ports (options.args window.query)

/-- `sat_backfill_submit`: the window submitted, if there is one without a request. -/
def satBackfillSubmit (options : BackfillSubmitOptions) :
    SubmitProg (Option (BackfillWindowPlan × LiveSmokeCliResult)) := do
  let w ← get
  let (_, plan) ← Prog.ofExcept (submitPlan rt env options w.file)
  match plan.pending with
  | [] => pure none
  | window :: _ => do
      let result ← submitWindow rt env ports options window
      pure (some (window, result))

end Commands

end LiveSubmit

end CfdiVault
