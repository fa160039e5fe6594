import CfdiVault.BackfillRuns
import CfdiVault.LiveRequestGuard

/-!
# The gates behind a submission

A metadata request passes several range checks on its way: the command measures elapsed
seconds and calendar days, the adapter elapsed seconds, and a permit is issued for calendar
dates.  Every window of a backfill plan passes all of them (`window_passes`).

An accepted request is followed up from its record.  The record gives back the direction,
the content type and the period of the query to the microsecond and with its offsets, so the
range checks and the permit dates of the follow-up are those of the submission.  It gives
back the tenant as the operator wrote the profile id (`follow_up_iff`).
-/

namespace CfdiVault

open LiveRequestState LiveCommands LivePermit LiveSubmit SatBackfill BackfillRuns CriteriaHash

namespace LiveFollowUp

/-! ## Requests for a permit -/

/-- The scopes of a metadata request, its verification and its packages. -/
def RANGE_SCOPES : List String :=
  [BACKFILL_SUBMIT_SCOPE, METADATA_LIVE_SMOKE_SCOPE, PACKAGE_DOWNLOAD_SCOPE]

/-- The request for a permit that meets an expectation. -/
def permitRequestFor (expectation : PermitExpectation) (reason : String) (expiresMinutes : Int) :
    LivePermitRequest where
  scope := expectation.scope
  profileId := expectation.profileId
  kind := expectation.kind
  direction := expectation.direction
  dateFrom := expectation.dateFrom
  dateTo := expectation.dateTo
  reason := reason
  expiresMinutes := expiresMinutes

/-- What a request for a permit needs besides its scope, direction and dates. -/
structure Issuable (profileId reason : String) (expiresMinutes : Int) : Prop where
  profile : isProfileId (Text.strip profileId) = true
  reason : Text.strip reason ≠ ""
  expires : 1 ≤ expiresMinutes ∧ expiresMinutes ≤ MAX_EXPIRES_MINUTES

/-- The permit of these dates can be requested, whoever asks. -/
def Permitted (scope : String) (query : DownloadQuery) (period : DateTimePeriod) : Prop :=
  ∀ profileId reason expiresMinutes, Issuable profileId reason expiresMinutes →
    ∃ safe, validatedRequest
      (permitRequestFor (permitExpectation scope profileId query period) reason expiresMinutes) = .ok safe

theorem refuseIf_bind {α : Type} {condition : Prop} [Decidable condition] {reason : String}
    {f : Unit → Except PermitFault α} (h : ¬ condition) : (refuseIf condition reason >>= f) = f () := by
  rw [refuseIf_of_not h, Checked.ok_bind]

/-- A request that passes each of the checks is accepted. -/
theorem validatedRequest_accepts {request : LivePermitRequest} (hscope : request.scope ∈ ALLOWED_SCOPES)
    (hother : request.scope ≠ "auth_live_smoke")
    (hprofile : isProfileId (Text.strip request.profileId) = true)
    (hkind : request.kind = RequestType.metadata.value)
    (hdirection : request.direction ∈ [DownloadDirection.received.value, DownloadDirection.issued.value])
    (hrange : validateDateRange request.dateFrom request.dateTo (LivePermit.maxRangeDays request.scope) =
      .ok ())
    (hreason : Text.strip request.reason ≠ "") (hissuer : request.issuedBy = "carlos-local")
    (hexpires : 1 ≤ request.expiresMinutes ∧ request.expiresMinutes ≤ MAX_EXPIRES_MINUTES)
    (hvariant : request.authEnvelopeVariant = none) (hheader : request.wcfActionHeaderEnabled = none) :
    ∃ safe, validatedRequest request = .ok safe := by
  have henvelope : requestedEnvelope request = .ok (none, none) := by
    unfold requestedEnvelope
    rw [if_neg hother, refuseIf_bind (by rw [hvariant, hheader]; simp)]
    rfl
  have hminutes : ¬ (request.expiresMinutes < 1 ∨ request.expiresMinutes > MAX_EXPIRES_MINUTES) := by
    omega
  refine ⟨{ request with
    profileId := Text.strip request.profileId
    reason := Text.strip request.reason
    authEnvelopeVariant := none
    wcfActionHeaderEnabled := none }, ?_⟩
  unfold validatedRequest
  rw [refuseIf_bind (not_not.mpr hscope), safeProfileId, if_pos hprofile, Checked.ok_bind,
    refuseIf_bind (not_not.mpr hkind), refuseIf_bind (not_not.mpr hdirection), hrange, Checked.ok_bind,
    refuseIf_bind hreason, refuseIf_bind (not_not.mpr hissuer), refuseIf_bind hminutes, henvelope,
    Checked.ok_bind]
  rfl

/-- Dates that are not more than a week apart are a range for each of the scopes. -/
theorem permitted {scope : String} {query : DownloadQuery} {period : DateTimePeriod}
    (hscope : scope ∈ RANGE_SCOPES) (hkind : query.requestType = .metadata)
    (hdirection : query.direction ≠ .folio)
    (hforward : period.start.wall.ordinal ≤ period.end.wall.ordinal)
    (hweek : (period.end.wall.ordinal : Int) - period.start.wall.ordinal + 1 ≤ MAX_BACKFILL_RANGE_DAYS) :
    Permitted scope query period := by
  rintro profileId reason expiresMinutes ⟨hprofile, hreason, hexpires⟩
  have hscopes : ∀ s ∈ RANGE_SCOPES, s ∈ ALLOWED_SCOPES ∧ s ≠ "auth_live_smoke" ∧
      LivePermit.maxRangeDays s = MAX_BACKFILL_RANGE_DAYS := by decide +kernel
  obtain ⟨hallowed, hother, hdays⟩ := hscopes scope hscope
  have hrange : validateDateRange (DateTime.formatDate period.start.wall.ordinal)
      (DateTime.formatDate period.end.wall.ordinal) (LivePermit.maxRangeDays scope) = .ok () := by
    have hparse : ∀ t : Instant, LivePermit.parseDate (DateTime.formatDate t.ordinal) = .ok t.ordinal :=
      fun t => orRefuse_eq_ok.mpr (SatRequest.parseDate_ordinal t)
    rw [validateDateRange, hparse, Checked.ok_bind, hparse, Checked.ok_bind,
      refuseIf_bind (Nat.not_lt.mpr hforward), hdays]
    exact refuseIf_of_not (Int.not_lt.mpr hweek)
  have hnamed : query.direction.value ∈
      [DownloadDirection.received.value, DownloadDirection.issued.value] := by
    cases hset : query.direction with
    | folio => exact absurd hset hdirection
    | issued | received => decide
  exact validatedRequest_accepts hallowed hother hprofile (congrArg RequestType.value hkind) hnamed hrange
    hreason rfl hexpires rfl rfl

/-! ## The windows of a plan -/

/-- The date range of a period of whole days. -/
theorem whole_ordinals {period : DateTimePeriod} {first final : Date}
    (hstart : period.start = .utc first.midnight) (hend : period.end = .utc final.lastMicrosecond) :
    period.start.wall.ordinal = first.ordinal ∧ period.end.wall.ordinal = final.ordinal := by
  have hpos := first.pos
  have hpos' := final.pos
  rw [hstart, hend]
  constructor
  · change (first.ordinal - 1) * 86400000000 / 86400000000 + 1 = first.ordinal
    omega
  · change (final.ordinal * 86400000000 - 1) / 86400000000 + 1 = final.ordinal
    omega

/-- The operation of a plan is that of its direction, in each of its windows. -/
theorem plan_operation {rt : Runtime} {args : PlanArgs} {file : StateFile} {plan : BackfillPlan}
    (h : buildBackfillPlan rt args file = .ok plan) :
    ∀ window ∈ plan.windows, operationForDirection args.direction = .ok window.operation := by
  unfold buildBackfillPlan at h
  split_ifs at h
  · obtain ⟨operation, hoperation, h⟩ := Checked.bind_eq_ok.mp h
    obtain ⟨records, -, h⟩ := Checked.bind_eq_ok.mp h
    obtain ⟨periods, -, h⟩ := Checked.bind_eq_ok.mp h
    obtain ⟨normalized, -, h⟩ := Checked.bind_eq_ok.mp h
    obtain rfl := Checked.pure_eq_ok.mp h
    intro window hwindow
    obtain ⟨i, hi, rfl⟩ := List.mem_mapIdx.mp hwindow
    exact hoperation

/-- The adapter sends the operation that the plan names. -/
theorem resolves {args : PlanArgs} {operation : String}
    (h : operationForDirection args.direction = .ok operation) (period : DateTimePeriod) :
    (resolveV15RequestOperation (args.windowQuery period)).value = operation := by
  have hnone : ¬ (args.windowQuery period).uuid.getD "" ≠ "" := not_not.mpr rfl
  have hsame : (args.windowQuery period).direction = args.direction := rfl
  rw [resolveV15RequestOperation, if_neg hnone, hsame]
  cases hdirection : args.direction with
  | folio =>
      rw [hdirection] at h
      cases h
  | received | issued =>
      rw [hdirection] at h
      exact Except.ok.inj h

theorem range_permitted {b : Backfill} {scope : String} (hscope : scope ∈ RANGE_SCOPES)
    {period : DateTimePeriod} (hperiod : period ∈ b.periods) :
    Permitted scope (b.args.windowQuery period) period := by
  obtain ⟨first, final, hstart, hend, hforward, hshort⟩ := b.generated.2.whole period hperiod
  obtain ⟨hfirst, hfinal⟩ := whole_ordinals hstart hend
  have hstep := b.stepDays_bounds.2
  refine permitted hscope b.metadata b.directed ?_ ?_
  · rw [hfirst, hfinal]
    exact hforward
  · rw [hfirst, hfinal]
    change (final.ordinal : Int) - first.ordinal + 1 ≤ 7
    omega

/-- Whatever has been requested before, the plan of a backfill is made, and each of its
windows passes the range check of the command and the check of the adapter, is sent with the
operation that the plan names, and is covered by a permit that can be requested. -/
theorem window_passes (rt : Runtime) (b : Backfill) (file : StateFile)
    (records : List LiveMetadataRequestRecord) (hlist : listLive file = .ok records) :
    ∃ plan, buildBackfillPlan rt b.args file = .ok plan ∧ ∀ window ∈ plan.windows,
      isBackfillSubmitRange window.query = true ∧
      validateV15LiveMetadataQuery window.query MAX_BACKFILL_RANGE_DAYS = .ok () ∧
      (resolveV15RequestOperation window.query).value = window.operation ∧
      ∃ period, window.query.period = some period ∧
        Permitted BACKFILL_SUBMIT_SCOPE window.query period := by
  obtain ⟨plan, hplan, hqueries, -⟩ := @plan_ok rt b file records hlist
  refine ⟨plan, hplan, fun window hwindow => ?_⟩
  have hquery : window.query ∈ b.queries := by
    rw [← hqueries]
    exact List.mem_map_of_mem hwindow
  obtain ⟨hrange, hmetadata⟩ := Backfill.range_ok hquery
  obtain ⟨period, hperiod, hsame⟩ := List.mem_map.mp hquery
  have hvalid : validateV15LiveMetadataQuery window.query MAX_BACKFILL_RANGE_DAYS = .ok () := by
    have hkind : window.query.requestType = .metadata := by
      rw [← hsame]
      exact b.metadata
    rw [requireMetadataOnly, if_neg (not_not.mpr hkind)] at hmetadata
    exact hmetadata
  have hoperation := plan_operation hplan window hwindow
  rw [← hsame] at hvalid hrange ⊢
  exact ⟨hrange, hvalid, resolves hoperation period, period, rfl,
    range_permitted List.mem_cons_self hperiod⟩

theorem window_passes_sample :
    ∃ plan, buildBackfillPlan LiveSubmit.sampleRuntime sampleBackfill.args .absent = .ok plan ∧
      ∀ window ∈ plan.windows, isBackfillSubmitRange window.query = true := by
  obtain ⟨plan, hplan, hpasses⟩ := window_passes LiveSubmit.sampleRuntime sampleBackfill .absent [] rfl
  exact ⟨plan, hplan, fun window hwindow => (hpasses window hwindow).1⟩

/-! ## The query of a record -/

/-- A reading with an offset survives the record. -/
theorem parseRecordDatetime_isoformat {t : DateTime} (haware : t.offset ≠ none) :
    parseRecordDatetime t.isoformat = some t := by
  obtain ⟨wall, offset⟩ := t
  obtain ⟨o, rfl⟩ := Option.ne_none_iff_exists'.mp haware
  rw [parseRecordDatetime, DateTime.replaceChar_of_not_mem fun c hc => DateTime.isoformat_no_zulu hc,
    DateTime.fromisoformat_isoformat]
  rfl

theorem directionOfValue_value (direction : DownloadDirection) :
    directionOfValue? direction.value = some direction := by
  cases direction <;> decide +kernel

theorem requestTypeOfValue_value (kind : RequestType) : requestTypeOfValue? kind.value = some kind := by
  cases kind <;> decide +kernel

/-- A metadata query over a period with offsets that passes the range checks, and that
selects by nothing but its period and its direction. -/
structure Plain (query : DownloadQuery) (period : DateTimePeriod) : Prop where
  shape : query = {
    tenantId := query.tenantId
    requesterRfc := query.requesterRfc
    direction := query.direction
    requestType := .metadata
    period := some period }
  directed : query.direction ≠ .folio
  startAware : period.start.offset ≠ none
  endAware : period.end.offset ≠ none
  long : 2000000 ≤ elapsedMicros period
  forward : period.start.wall.ordinal ≤ period.end.wall.ordinal
  week : (period.end.wall.ordinal : Int) - period.start.wall.ordinal + 1 ≤ MAX_BACKFILL_RANGE_DAYS

/-- The queries that the two commands submit. -/
inductive Submitted : DownloadQuery → Prop
  /-- `sat metadata-request-smoke`, behind its gate -/
  | smoke {localProfile : LocalProfile} {direction : DownloadDirection} {start «end» : DateTime}
      {query : DownloadQuery} (built : profileQuery localProfile direction start «end» = .ok query)
      (directed : direction ≠ .folio) (aware : start.offset ≠ none)
      (gate : isMinimalLiveSmokeRange query = true) : Submitted query
  /-- `sat backfill submit`, on a window of its plan -/
  | window (b : Backfill) {query : DownloadQuery} (planned : query ∈ b.queries) : Submitted query

theorem Submitted.plain {query : DownloadQuery} (h : Submitted query) : ∃ period, Plain query period := by
  cases h with
  | @smoke localProfile direction start «end» query built directed aware gate =>
      unfold profileQuery at built
      split at built
      · next hordered =>
          dsimp only at built
          split at built
          · obtain rfl := Except.ok.inj built
            unfold isMinimalLiveSmokeRange at gate
            simp only [Bool.and_eq_true, beq_iff_eq, decide_eq_true_eq] at gate
            obtain ⟨⟨hday, hlong⟩, -⟩ := gate
            refine ⟨⟨start, «end», hordered⟩, rfl, directed, aware, ?_, hlong, hday.le, ?_⟩
            · exact (not_congr (SatRequest.offsets_alike ⟨start, «end», hordered⟩)).mp aware
            · change ((«end».wall.ordinal : Int)) - start.wall.ordinal + 1 ≤ 7
              omega
          · cases built
      · cases built
  | window b planned =>
      obtain ⟨period, hperiod, rfl⟩ := List.mem_map.mp planned
      obtain ⟨first, final, hstart, hend, hforward, hshort⟩ := b.generated.2.whole period hperiod
      obtain ⟨hfirst, hfinal⟩ := whole_ordinals hstart hend
      have hstep := b.stepDays_bounds.2
      have hrange := (Backfill.range_ok planned).1
      unfold isBackfillSubmitRange at hrange
      change (decide (2000000 ≤ elapsedMicros period) && _) = true at hrange
      refine ⟨period, ?_, b.directed, ?_, ?_, of_decide_eq_true (Bool.and_eq_true_iff.mp hrange).1, ?_, ?_⟩
      · unfold PlanArgs.windowQuery
        rw [b.metadata]
      · rw [hstart]
        exact Option.some_ne_none _
      · rw [hend]
        exact Option.some_ne_none _
      · rw [hfirst, hfinal]
        exact hforward
      · rw [hfirst, hfinal]
        change (final.ordinal : Int) - first.ordinal + 1 ≤ 7
        omega

/-- A record can be followed up as the query that was submitted. -/
structure FollowedUp (rt : Runtime) (query : DownloadQuery) (record : LiveMetadataRequestRecord)
    (rebuilt : DownloadQuery) (period period' : DateTimePeriod) : Prop where
  rebuilds : queryFromLiveRequestRecord query.requesterRfc record = .ok rebuilt
  criteria : rebuilt.criteriaHash rt = query.criteriaHash rt
  range : isBackfillSubmitRange rebuilt = true
  submitted : query.period = some period
  followed : rebuilt.period = some period'
  expectation : ∀ scope profileId,
    permitExpectation scope profileId rebuilt period' = permitExpectation scope profileId query period
  verify : Permitted METADATA_LIVE_SMOKE_SCOPE rebuilt period'
  download : Permitted PACKAGE_DOWNLOAD_SCOPE rebuilt period'

section FollowUp

variable {rt : Runtime} {args : PersistArgs} {record : LiveMetadataRequestRecord} {period : DateTimePeriod}

/-- A record gives back its query, with the profile of the record as the tenant. -/
theorem query_rebuilt (hplain : Plain args.query period) (h : persistedRecord rt args = .ok record) :
    queryFromLiveRequestRecord args.query.requesterRfc record =
      .ok { args.query with tenantId := args.profileId } := by
  obtain ⟨-, -, hdirection, hkind, hinitial, hfinal⟩ := persistedRecord_fields h
  obtain ⟨-, -, -, -, hprofile, -⟩ := persistedRecord_fresh h
  have hshape := hplain.shape
  have hperiod : args.query.period = some period := congrArg DownloadQuery.period hshape
  have htype : args.query.requestType = .metadata := congrArg DownloadQuery.requestType hshape
  rw [hperiod] at hinitial hfinal
  have hparts : queryParts? record =
      some (period.start, period.end, args.query.direction, .metadata) := by
    unfold queryParts?
    rw [hinitial, hfinal, hdirection, hkind, htype, Option.map_some, Option.getD_some, Option.map_some,
      Option.getD_some, parseRecordDatetime_isoformat hplain.startAware,
      parseRecordDatetime_isoformat hplain.endAware, directionOfValue_value, requestTypeOfValue_value]
    rfl
  unfold queryFromLiveRequestRecord
  rw [hparts]
  dsimp only
  rw [dif_pos period.ordered, hprofile, hshape]

/-- The range checks and the permit of a submission are those of the follow-up. -/
theorem Plain.follows {query : DownloadQuery} (h : Plain query period) (tenantId : String) :
    isBackfillSubmitRange { query with tenantId := tenantId } = true ∧ ∀ scope ∈ RANGE_SCOPES,
      Permitted scope { query with tenantId := tenantId } period := by
  have hperiod : query.period = some period := congrArg DownloadQuery.period h.shape
  have htype : query.requestType = .metadata := congrArg DownloadQuery.requestType h.shape
  constructor
  · unfold isBackfillSubmitRange
    dsimp only
    rw [hperiod]
    exact Bool.and_eq_true_iff.mpr ⟨decide_eq_true h.long, decide_eq_true h.week⟩
  · intro scope hscope
    exact permitted hscope htype h.directed h.forward h.week

/-- A request is followed up as what was submitted exactly if it was submitted under the
profile id that the profile itself has.  Everything but the criteria hash is the same in any
case. -/
theorem follow_up_iff (rt : Runtime) (args : PersistArgs) (file after : StateFile)
    (record : LiveMetadataRequestRecord) (hsubmitted : Submitted args.query)
    (hpersisted : persistLive rt args file = .ok (record, after))
    (hcollision : CollisionFree rt { args.query with tenantId := args.profileId } args.query) :
    (∃ stored rebuilt period period', StoredIn after record.requestRef stored ∧
        FollowedUp rt args.query stored rebuilt period period') ↔
      args.profileId = args.query.tenantId := by
  obtain ⟨hrecord, rs, hlist, rfl⟩ := persistLive_ok.mp hpersisted
  obtain ⟨hnormal, -⟩ := persistedRecord_fresh hrecord
  obtain ⟨period, hplain⟩ := hsubmitted.plain
  have hstored : StoredIn (writeState (insertRecord record rs)) record.requestRef record :=
    ⟨_, listLive_upsert hlist hnormal, Keyed.sole_upsert_self sortByCreation_perm⟩
  have hrebuilt := query_rebuilt hplain hrecord
  constructor
  · rintro ⟨stored, rebuilt, _, _, hfound, hfollowed⟩
    obtain rfl := hstored.unique hfound
    obtain rfl := Except.ok.inj (hrebuilt.symm.trans hfollowed.rebuilds)
    exact ((criteriaHash_eq_iff hcollision).mp hfollowed.criteria).tenant
  · intro htenant
    have hsame : ({ args.query with tenantId := args.profileId } : DownloadQuery) = args.query := by
      rw [htenant]
    obtain ⟨hrange, hpermitted⟩ := hplain.follows args.profileId
    have hperiod : args.query.period = some period := congrArg DownloadQuery.period hplain.shape
    refine ⟨record, _, period, period, hstored, hrebuilt, by rw [hsame], hrange, hperiod, hperiod,
      fun _ _ => rfl, hpermitted _ (by decide +kernel), hpermitted _ (by decide +kernel)⟩

end FollowUp

/-! ## A profile id with blanks -/

section Sample

/-- The metadata received on 1 January 2024. -/
def dayQuery : DownloadQuery where
  tenantId := "default"
  requesterRfc := "AAA010101AAA"
  direction := .received
  requestType := .metadata
  period := some ⟨.utc 63839664000000000, .utc 63839750399999999, by decide⟩

/-- A host with the digests of SHA-256 on the criteria of the query, with and without blanks
around the tenant, and on the texts of the two request references. -/
def spellingRuntime : Runtime where
  sha256Text text :=
    let criteria := fun tenantId : String =>
      "\x7b\"complement\":null,\"direction\":\"received\",\"document_status\":null," ++
      "\"document_type\":null,\"issuer_rfc\":null,\"period\":\x7b\"end\":" ++
      "\"2024-01-01T23:59:59.999999+00:00\",\"start\":\"2024-01-01T00:00:00+00:00\"\x7d," ++
      "\"receiver_rfcs\":[],\"recovery_variant_reason\":null,\"request_type\":\"metadata\"," ++
      "\"requester_rfc\":\"AAA010101AAA\",\"rfc_on_behalf\":null,\"tenant_id\":\"" ++ tenantId ++
      "\",\"uuid\":null\x7d"
    let reference := fun profileId : String =>
      profileId ++ ":dd3f607e85190280a3ae56f43944b6cac46592b4e259f6d1f7fcc0924f755d79:SAT-REQ-1"
    if text = criteria "default" then 0xdd3f607e85190280a3ae56f43944b6cac46592b4e259f6d1f7fcc0924f755d79
    else if text = criteria " default " then
      0x140eed4a7ab7dc271247dffe0d5bda7999594deb5802c4ae2161a66325ab3824
    else if text = reference "default" then
      0xd52ede32689da835631feb06e1582f35cf10f284932ad9a3d8602cad52f29c4e
    else 0x379278767e563f171b73ea0b1c2e6f61bb453464e89361ca2d1782095dc0a249
  sha256Bytes _ := 0
  upper := id
  lower := Text.lower
  alnum c := c.isAlphanum

/-- What `sat metadata-request-smoke` persists of the query under a profile argument. -/
def dayRequest (profileId : String) : PersistArgs where
  profileId := profileId
  query := dayQuery
  operation := "SolicitaDescargaRecibidos"
  idSolicitud := "SAT-REQ-1"
  satCode := "5000"
  satMessage := "Solicitud Aceptada"
  sourceCommand := "sat metadata-request-smoke"
  permitRef := none
  status := "accepted"
  now := .utc 63842386800000000

theorem dayQuery_submitted : Submitted dayQuery := by
  have hbuilt : profileQuery ⟨"default", "AAA010101AAA"⟩ .received (.utc 63839664000000000)
      (.utc 63839750399999999) = .ok dayQuery := by
    decide +kernel
  exact .smoke hbuilt (by decide) (Option.some_ne_none _) (by decide)

theorem dayRequest_persisted (profileId : String) :
    ∃ record after, persistLive spellingRuntime (dayRequest profileId) .absent = .ok (record, after) := by
  have hid : Text.strip (dayRequest profileId).idSolicitud ≠ "" := by
    change Text.strip "SAT-REQ-1" ≠ ""
    decide +kernel
  obtain ⟨record, hrecord⟩ := (@persistedRecord_ok_iff spellingRuntime (dayRequest profileId) _ rfl).mpr
    ⟨hid, by decide +kernel⟩
  exact ⟨record, _, persistLive_ok.mpr ⟨hrecord, [], rfl, rfl⟩⟩

theorem follow_up_iff_sample : ∃ record after stored rebuilt period period',
    persistLive spellingRuntime (dayRequest "default") .absent = .ok (record, after) ∧
      StoredIn after record.requestRef stored ∧
      FollowedUp spellingRuntime dayQuery stored rebuilt period period' := by
  obtain ⟨record, after, hpersisted⟩ := dayRequest_persisted "default"
  obtain ⟨stored, rebuilt, period, period', hstored, hfollowed⟩ := (follow_up_iff spellingRuntime
    (dayRequest "default") .absent after record dayQuery_submitted hpersisted fun _ => rfl).mpr rfl
  exact ⟨record, after, stored, rebuilt, period, period', hpersisted, hstored, hfollowed⟩

/-- Submitted under `" default "`, the query of the profile `default` comes back under another
criteria hash. -/
theorem blank_profile_not_followed : ¬ ∀ (rt : Runtime) (args : PersistArgs) (file after : StateFile)
    (record : LiveMetadataRequestRecord), Submitted args.query →
      persistLive rt args file = .ok (record, after) →
      ∃ stored rebuilt period period', StoredIn after record.requestRef stored ∧
        FollowedUp rt args.query stored rebuilt period period' := by
  intro h
  obtain ⟨record, after, hpersisted⟩ := dayRequest_persisted " default "
  obtain ⟨stored, rebuilt, _, _, hfound, hfollowed⟩ :=
    h spellingRuntime (dayRequest " default ") .absent after record dayQuery_submitted hpersisted
  obtain ⟨hrecord, rs, hlist, rfl⟩ := persistLive_ok.mp hpersisted
  have hstored : StoredIn (writeState (insertRecord record rs)) record.requestRef record :=
    ⟨_, listLive_upsert hlist (persistedRecord_fresh hrecord).1, Keyed.sole_upsert_self sortByCreation_perm⟩
  obtain rfl := hstored.unique hfound
  obtain ⟨period, hplain⟩ := dayQuery_submitted.plain
  have hrebuilt := @query_rebuilt _ (dayRequest " default ") _ _ hplain hrecord
  obtain rfl := Except.ok.inj (hrebuilt.symm.trans hfollowed.rebuilds)
  have hdiffers : ({ dayQuery with tenantId := " default " } : DownloadQuery).criteriaHash spellingRuntime ≠
      dayQuery.criteriaHash spellingRuntime := by
    decide +kernel
  exact hdiffers hfollowed.criteria

end Sample

end LiveFollowUp

end CfdiVault
