import CfdiVault.LiveRequestState

/-!
# Gates of the live commands

What the commands that may reach SAT have in common: how they end, the local
profile they load, the live guard with its one-time permit, the range checks, and
the query rebuilt from a stored request.

`LiveEnv` is what one invocation finds around it: the profiles, the checks of the
checkout and of the credentials, the terminal, the permit store and the clock.
The guard itself is modelled in full: `guardReasons` lists every reason for which
`validate_live_sat_guard` refuses, in order.
-/

namespace CfdiVault

open LiveRequestState

namespace LiveCommands

abbrev METADATA_LIVE_SMOKE_SCOPE := "metadata_live_smoke"
abbrev BACKFILL_SUBMIT_SCOPE := "metadata_backfill_submit"
abbrev PACKAGE_DOWNLOAD_SCOPE := "package_download_smoke"
abbrev MAX_BACKFILL_RANGE_DAYS : Nat := 7

/-! ## How a command ends early -/

/-- The end of a command that did not return. -/
inductive CliFault where
  /-- `typer.Exit(code=1)` after an `error=` line and `reason=` lines -/
  | exit (error : String) (reasons : List String)
  /-- an exception that the command does not catch, by type name -/
  | raised (exception : String)
  deriving DecidableEq

/-- A state-file failure under a command that reports `LiveRequestStateError`
as `error` and catches nothing else. -/
def stateFault (error : String) : StateFault → CliFault
  | .liveRequest reason => .exit error [reason]
  | .overflow => .raised "OverflowError"
  | .unicode => .raised "UnicodeDecodeError"

/-- `[0-9a-z]` under case folding, which also folds four characters beyond ASCII. -/
def isTokenChar (c : Char) : Bool :=
  c.isAlphanum || c.toNat ∈ [0x130, 0x131, 0x17F, 0x212A]

/-- Length of the longest match of `[0-9a-z][0-9a-z_-]{12,}[0-9a-z]\b` at the start of
the text. -/
def tokenLength (rt : Runtime) (cs : List Char) : Option Nat :=
  let run := cs.takeWhile fun c => isTokenChar c || c == '_' || c == '-'
  let matchesAt := fun n =>
    decide (14 ≤ n) && (cs.head?.map isTokenChar).getD false &&
      ((cs.take n).getLast?.map isTokenChar).getD false &&
      !((cs[n]?.map (isWordChar rt)).getD false)
  ((List.range (run.length + 1)).reverse).find? matchesAt

/-- `_safe_error_reason` -/
def safeErrorReason (rt : Runtime) (value : String) : String :=
  let text := " ".intercalate (Text.words (Text.replaceChar '\\' "/" value))
  Text.takeChars 160 (String.ofList (Text.substitute (isWordChar rt) (tokenLength rt)
    (fun _ => "<redacted>") false 0 text.toList))

/-! ## The surroundings of an invocation -/

/-- The fields of a local profile that the commands read. -/
structure LocalProfile where
  profileId : String
  rfc : String
  deriving DecidableEq

/-- What a permit must authorize: `permit_expectation_from_query`. -/
structure PermitExpectation where
  scope : String
  profileId : String
  kind : String
  direction : String
  dateFrom : String
  dateTo : String
  deriving DecidableEq

/-- What one invocation finds around it.  `consumePermit` is
`validate_and_consume_live_permit`: whether the permit allows real credentials, or
the reason for which it is refused; `clock n` is the `n`-th reading of the time. -/
structure LiveEnv where
  loadProfile : String → Except CliFault LocalProfile
  consumePermit : String → PermitExpectation → Except String Bool
  clock : Nat → Instant
  interactive : Bool
  confirms : Bool
  profileReady : Bool
  credentialsReady : Bool
  doctorOk : Bool
  scannerPassed : Bool
  repoClean : Bool
  ciEnabled : Bool
  allowRealSat : Bool
  allowRealCredentials : Bool

/-! ## The live guard -/

/-- The guard input, with real credentials required. -/
structure LiveSatGuardInput where
  manualRealSat : Bool
  terminalInteractive : Bool
  confirmationVerified : Bool
  metadataOnly : Bool
  rangeWithinLimit : Bool
  livePermitVerified : Bool
  livePermitAllowsRealCredentials : Bool

/-- The reasons for which `validate_live_sat_guard` refuses. -/
def guardReasons (env : LiveEnv) (input : LiveSatGuardInput) : List String :=
  let refuse := fun (reason : String) (refused : Bool) => if refused then [reason] else []
  refuse "ci-enabled" env.ciEnabled ++
  refuse "missing-explicit-real-sat-env" (!env.allowRealSat && !input.livePermitVerified) ++
  refuse "missing-explicit-real-credentials-env" (!env.allowRealCredentials &&
    !(input.livePermitVerified && input.livePermitAllowsRealCredentials)) ++
  refuse "missing-manual-real-sat-flag" (!input.livePermitVerified && !input.manualRealSat) ++
  refuse "non-interactive-terminal" (!input.livePermitVerified && !input.terminalInteractive) ++
  refuse "missing-live-smoke-confirmation"
    (!input.livePermitVerified && !input.confirmationVerified) ++
  refuse "profile-not-ready" (!env.profileReady) ++
  refuse "local-credentials-not-ready" (!env.credentialsReady) ++
  refuse "doctor-not-ok" (!env.doctorOk) ++
  refuse "scanner-not-passed" (!env.scannerPassed) ++
  refuse "repo-dirty" (!env.repoClean) ++
  refuse "metadata-only-required" (!input.metadataOnly) ++
  refuse "range-too-wide" (!input.rangeWithinLimit)

/-- `validate_live_sat_guard` -/
def validateLiveSatGuard (env : LiveEnv) (input : LiveSatGuardInput) : Except CliFault Unit :=
  match guardReasons env input with
  | [] => .ok ()
  | reasons => .error (.exit "live_sat_guard_denied" reasons)

/-- The expectation of a permit for a query with a period. -/
def permitExpectation (scope profileId : String) (query : DownloadQuery)
    (period : DateTimePeriod) : PermitExpectation where
  scope := scope
  profileId := profileId
  kind := query.requestType.value
  direction := query.direction.value
  dateFrom := DateTime.formatDate period.start.wall.ordinal
  dateTo := DateTime.formatDate period.end.wall.ordinal

/-- Check and consume the permit, if one is given: whether it was verified, and
whether it allows real credentials. -/
def checkPermit (env : LiveEnv) (scope profileId : String) (query : DownloadQuery)
    (permitRef : Option String) : Except CliFault (Bool × Bool) :=
  match permitRef, query.period with
  | none, _ => .ok (false, false)
  | some _, none => .error (.raised "LivePermitError")
  | some ref, some period =>
      match env.consumePermit ref (permitExpectation scope profileId query period) with
      | .error reason => .error (.exit "live_permit_denied" [reason])
      | .ok allowsCredentials => .ok (true, allowsCredentials)

/-- `_validate_live_smoke_guard` for a metadata query: whether a permit was verified. -/
def validateLiveSmokeGuard (env : LiveEnv) (profileId : String) (manualRealSat : Bool)
    (query : DownloadQuery) (rangeWithinLimit : Bool) (permitRef : Option String)
    (scope : String) : Except CliFault Bool := do
  let _ ← env.loadProfile profileId
  let confirmed := permitRef.isNone && manualRealSat && env.interactive && env.confirms
  let (permitVerified, allowsCredentials) ← checkPermit env scope profileId query permitRef
  validateLiveSatGuard env {
    manualRealSat := manualRealSat
    terminalInteractive := env.interactive || permitVerified
    confirmationVerified := confirmed || permitVerified
    metadataOnly := true
    rangeWithinLimit := rangeWithinLimit
    livePermitVerified := permitVerified
    livePermitAllowsRealCredentials := allowsCredentials }
  pure permitVerified

/-! ## A ready environment -/

/-- A checkout and credentials that are ready, and permits that are granted. -/
def readyEnv (now : Instant) : LiveEnv where
  loadProfile profileId := .ok ⟨profileId, "AAA010101AAA"⟩
  consumePermit _ _ := .ok true
  clock _ := now
  interactive := true
  confirms := true
  profileReady := true
  credentialsReady := true
  doctorOk := true
  scannerPassed := true
  repoClean := true
  ciEnabled := false
  allowRealSat := false
  allowRealCredentials := false

/-- In a ready environment the guard passes with a permit, for every query with a period. -/
theorem readyEnv_guard (now : Instant) (profileId permitRef scope : String) {query : DownloadQuery}
    {period : DateTimePeriod} (h : query.period = some period) :
    validateLiveSmokeGuard (readyEnv now) profileId true query true (some permitRef) scope =
      .ok true := by
  simp only [validateLiveSmokeGuard, checkPermit, h]
  rfl

/-! ## Ranges -/

/-- `end - start`, in microseconds. -/
def elapsedMicros (period : DateTimePeriod) : Int :=
  ((period.end.wall.micros : Int) - (period.end.offset.getD UtcOffset.zero).micros) -
    ((period.start.wall.micros : Int) - (period.start.offset.getD UtcOffset.zero).micros)

/-- `_is_minimal_live_smoke_range` -/
def isMinimalLiveSmokeRange (query : DownloadQuery) : Bool :=
  match query.period with
  | none => false
  | some period =>
      period.start.wall.ordinal == period.end.wall.ordinal &&
        decide (2000000 ≤ elapsedMicros period) && decide (elapsedMicros period ≤ 86400000000)

/-- `_is_backfill_submit_range` -/
def isBackfillSubmitRange (query : DownloadQuery) : Bool :=
  match query.period with
  | none => false
  | some period =>
      decide (2000000 ≤ elapsedMicros period) &&
        decide ((period.end.wall.ordinal : Int) - period.start.wall.ordinal + 1 ≤
          MAX_BACKFILL_RANGE_DAYS)

/-! ## The query of a stored request -/

/-- `_parse_state_datetime` of the command line: naive readings are taken as UTC. -/
def parseRecordDatetime (value : String) : Option DateTime := do
  let parsed ← DateTime.fromisoformat (Text.replaceChar 'Z' "+00:00" value)
  pure ⟨parsed.wall, some (parsed.offset.getD UtcOffset.zero)⟩

/-- `DownloadDirection(text)` -/
def directionOfValue? (text : String) : Option DownloadDirection :=
  [DownloadDirection.issued, .received, .folio].find? fun d => d.value == text

/-- `RequestType(text)` -/
def requestTypeOfValue? (text : String) : Option RequestType :=
  [RequestType.metadata, .cfdi].find? fun t => t.value == text

/-- The parts of a stored query that must parse. -/
def queryParts? (record : LiveMetadataRequestRecord) :
    Option (DateTime × DateTime × DownloadDirection × RequestType) := do
  let start ← parseRecordDatetime record.fechaInicial
  let «end» ← parseRecordDatetime record.fechaFinal
  let direction ← directionOfValue? record.direction
  let requestType ← requestTypeOfValue? record.kind
  pure (start, «end», direction, requestType)

/-- `_query_from_live_request_record`.  The period is built outside the `try`, so a
stored end before the start is an uncaught `ValueError`. -/
def queryFromLiveRequestRecord (requesterRfc : String) (record : LiveMetadataRequestRecord) :
    Except CliFault DownloadQuery :=
  match queryParts? record with
  | none => .error (.exit "request_state_invalid" ["request-state-query-invalid"])
  | some (start, «end», direction, requestType) =>
      if h : DateTime.orderedAfter? «end» start = some true then
        .ok {
          tenantId := record.profileId
          requesterRfc := requesterRfc
          direction := direction
          requestType := requestType
          period := some ⟨start, «end», h⟩ }
      else .error (.raised "ValueError")

end LiveCommands

end CfdiVault
