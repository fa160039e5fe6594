import CfdiVault.RecoveryJob
import CfdiVault.Library.IsoFormat
import CfdiVault.Library.JsonKeys

/-!
# The envelope of a queued message

A message is published as the JSON document of `as_dict`, with sorted keys, and the
worker reads it back with `from_dict`.  The envelope survives this
(`fromDict_asDict`).  Its payload carries the query of the job, written by
`_query_payload` and read by `_query_from_payload`: two lists of fields that differ in
what they do with an empty text, and that both leave out the recovery variant reason.
`carriedQuery` is the query that arrives, and `same_hash_iff` says for which queries it
has the criteria hash of the one that was sent.
-/

namespace CfdiVault

namespace Recovery

/-! ## The envelope -/

/-- `message.as_dict()`. -/
def asDict (message : QueueMessage) : List (String × Json) := [
  ("queue", .str message.queue.value),
  ("job_id", .str message.jobId),
  ("tenant_id", .str message.tenantId),
  ("rfc", .str message.rfc),
  ("correlation_id", .str message.correlationId),
  ("attempt", .int message.attempt),
  ("payload", .obj message.payload),
  ("created_at", .str message.createdAt.isoformat)]

section Reading

/-- `int(value)`, given the conversion of the values that are not integers. -/
def integerOf (other : Json → Option Int) (value : Json) : Option Int :=
  match value.int? with
  | some n => some n
  | none => other value

/-- A value of the envelope that could not be converted. -/
def orPayload {α : Type} : Option α → Except Fault α
  | some a => .ok a
  | none => .error .payload

/-- The queues, in the order of their declaration. -/
def queueNames : List QueueName :=
  [.satRequest, .satVerify, .satDownload, .cfdiParseMetadata, .cfdiParseXml, .cfdiReconcile,
    .cfdiExport, .deadLetter]

variable (text : Json → String) (integer : Json → Option Int) (now : DateTime)

/-- The creation time of an envelope, the current time where it has none. -/
def createdAtOf (data : List (String × Json)) : Except Fault DateTime :=
  match data.lookup "created_at" with
  | some (.str s) => orPayload (DateTime.fromisoformat s)
  | _ => .ok now

/-- `dict(data.get("payload") or {})`; a payload that is no object is refused. -/
def payloadOf (data : List (String × Json)) : Except Fault (List (String × Json)) :=
  let value := Json.field data "payload"
  if value.truthy then orPayload value.members? else .ok []

/-- `QueueMessage.from_dict`. -/
def fromDict (data : List (String × Json)) : Except Fault QueueMessage := do
  let createdAt ← createdAtOf now data
  let queue ← requiredText text data "queue"
  let queue ← ofWord QueueName.value queueNames queue
  let jobId ← requiredText text data "job_id"
  let tenantId ← requiredText text data "tenant_id"
  let rfc ← requiredText text data "rfc"
  let correlationId ← requiredText text data "correlation_id"
  let attempt ← orPayload (integer ((data.lookup "attempt").getD (.int 0)))
  let payload ← payloadOf data
  pure ⟨queue, tenantId, rfc, payload, jobId, correlationId, attempt, createdAt⟩

end Reading

section RoundTrip

variable {text other : Json → String} {integer otherInt : Json → Option Int} {now : DateTime}

theorem asDict_keys (message : QueueMessage) : ((asDict message).map Prod.fst).Nodup := by
  change ["queue", "job_id", "tenant_id", "rfc", "correlation_id", "attempt", "payload",
    "created_at"].Nodup
  decide

theorem ofWord_queue (name : QueueName) :
    ofWord QueueName.value queueNames name.value = .ok name := by
  cases name <;> rfl

/-- An envelope that was published reads back, with the payload in key order. -/
theorem fromDict_asDict (message : QueueMessage) :
    fromDict (Json.toText other) (integerOf otherInt) now (Json.sortMembers (asDict message)) =
      .ok { message with payload := Json.sortMembers message.payload } := by
  have hkey := Json.lookup_sortMembers (asDict_keys message)
  have htext : ∀ key s, (asDict message).lookup key = some (.str s) →
      requiredText (Json.toText other) (Json.sortMembers (asDict message)) key = .ok s := by
    intro key s h
    rw [requiredText, hkey, h]
    rfl
  have hcreated : createdAtOf now (Json.sortMembers (asDict message)) = .ok message.createdAt := by
    have hlookup : (asDict message).lookup "created_at" = some (.str message.createdAt.isoformat) := rfl
    rw [createdAtOf, hkey, hlookup]
    change orPayload (DateTime.fromisoformat message.createdAt.isoformat) = _
    rw [DateTime.fromisoformat_isoformat]
    rfl
  have hattempt : orPayload (integerOf otherInt
      (((Json.sortMembers (asDict message)).lookup "attempt").getD (.int 0))) = .ok message.attempt := by
    have hlookup : (asDict message).lookup "attempt" = some (.int message.attempt) := rfl
    rw [hkey, hlookup]
    rfl
  have hpayload : payloadOf (Json.sortMembers (asDict message)) =
      .ok (Json.sortMembers message.payload) := by
    have hlookup : (asDict message).lookup "payload" = some (.obj message.payload) := rfl
    have hfield : Json.field (Json.sortMembers (asDict message)) "payload" =
        .obj (Json.sortMembers message.payload) := by
      rw [Json.field, hkey, hlookup]
      rfl
    rw [payloadOf, hfield]
    split
    case isTrue => rfl
    case isFalse hempty =>
      have hnil : Json.sortMembers message.payload = [] := by
        simpa [Json.truthy] using hempty
      rw [hnil]
  rw [fromDict, hcreated, htext "queue" _ rfl, htext "job_id" _ rfl, htext "tenant_id" _ rfl,
    htext "rfc" _ rfl, htext "correlation_id" _ rfl, hattempt, hpayload]
  simp only [Checked.ok_bind, ofWord_queue]
  rfl

end RoundTrip

/-! ## The query of a job -/

/-- `value if value else None`. -/
def nonempty (value : Option String) : Option String := value.filter (· ≠ "")

/-- The query that arrives for a query that was sent. -/
def carriedQuery (rt : Runtime) (q : DownloadQuery) : DownloadQuery where
  tenantId := q.tenantId
  requesterRfc := rt.upper q.requesterRfc
  direction := q.direction
  requestType := q.requestType
  period := q.period
  issuerRfc := nonempty q.issuerRfc
  receiverRfcs := q.receiverRfcs
  uuid := nonempty q.uuid
  documentStatus := nonempty q.documentStatus
  documentType := nonempty q.documentType
  complement := nonempty q.complement
  rfcOnBehalf := nonempty q.rfcOnBehalf

section Query

variable {rt : Runtime} {other : Json → String} {q : DownloadQuery}

theorem queryPayload_keys : ((queryPayload rt q).map Prod.fst).Nodup := by
  change ["tenant_id", "requester_rfc", "direction", "request_type", "period", "issuer_rfc",
    "receiver_rfcs", "uuid", "document_status", "document_type", "complement", "rfc_on_behalf",
    "criteria_hash"].Nodup
  decide

theorem optionalText_of_lookup {payload : List (String × Json)} {key : String} {value : Option String}
    (h : payload.lookup key = some (Json.optional value)) :
    optionalText (Json.toText other) payload key = nonempty value := by
  rw [optionalText, h]
  cases value with
  | none => rfl
  | some s =>
      by_cases hs : s = ""
      · subst hs
        rfl
      · simp [Json.optional, Json.truthy, Json.toText, nonempty, Option.filter, hs]

theorem sortKeys_optional (value : Option String) :
    Json.sortKeys (Json.optional value) = Json.optional value := by
  cases value <;> rfl

/-- The period that a payload carries is the period of the query. -/
theorem periodOfPayload_sorted :
    periodOfPayload (Json.toText other) (Json.sortMembers (queryPayload rt q)) = .ok q.period := by
  have hkey := Json.lookup_sortMembers (@queryPayload_keys rt q) "period"
  cases hperiod : q.period with
  | none =>
      have hlookup : (queryPayload rt q).lookup "period" = some .null := by
        unfold queryPayload
        rw [hperiod]
        rfl
      rw [periodOfPayload, Json.field, hkey, hlookup]
      rfl
  | some p =>
      let members : List (String × Json) :=
        [("start", .str p.start.isoformat), ("end", .str p.end.isoformat)]
      have hlookup : (queryPayload rt q).lookup "period" = some (.obj members) := by
        unfold queryPayload
        rw [hperiod]
        rfl
      have hnodup : (members.map Prod.fst).Nodup := by
        change ["start", "end"].Nodup
        decide
      have hfield : Json.field (Json.sortMembers (queryPayload rt q)) "period" =
          .obj (Json.sortMembers members) := by
        rw [Json.field, hkey, hlookup]
        rfl
      have hstart : requiredText (Json.toText other) (Json.sortMembers members) "start" =
          .ok p.start.isoformat := by
        rw [requiredText, Json.lookup_sortMembers hnodup]
        rfl
      have hend : requiredText (Json.toText other) (Json.sortMembers members) "end" =
          .ok p.end.isoformat := by
        rw [requiredText, Json.lookup_sortMembers hnodup]
        rfl
      rw [periodOfPayload, hfield]
      dsimp only
      rw [hstart, hend, Checked.ok_bind, Checked.ok_bind, DateTime.fromisoformat_isoformat,
        DateTime.fromisoformat_isoformat]
      exact dif_pos p.ordered

theorem receiversOfPayload_sorted :
    receiversOfPayload (Json.toText other) (Json.sortMembers (queryPayload rt q)) =
      .ok q.receiverRfcs := by
  have hlookup : (queryPayload rt q).lookup "receiver_rfcs" =
      some (.arr (q.receiverRfcs.map .str)) := rfl
  have hfield : Json.field (Json.sortMembers (queryPayload rt q)) "receiver_rfcs" =
      .arr (q.receiverRfcs.map .str) := by
    rw [Json.field, Json.lookup_sortMembers queryPayload_keys, hlookup, Option.map_some,
      Json.sortKeys, Json.sortItems_map_str]
    rfl
  rw [receiversOfPayload, hfield]
  cases hreceivers : q.receiverRfcs with
  | nil => rfl
  | cons first rest =>
      change Except.ok (((first :: rest).map Json.str).map (Json.toText other)) = _
      rw [List.map_map]
      exact congrArg Except.ok (List.map_id _)

theorem ofWord_direction (direction : DownloadDirection) :
    ofWord DownloadDirection.value [.issued, .received, .folio] direction.value = .ok direction := by
  cases direction <;> rfl

theorem ofWord_requestType (requestType : RequestType) :
    ofWord RequestType.value [.metadata, .cfdi] requestType.value = .ok requestType := by
  cases requestType <;> rfl

/-- The worker reads the carried query. -/
theorem queryFromPayload_sorted :
    queryFromPayload (Json.toText other) (Json.sortMembers (queryPayload rt q)) =
      .ok (carriedQuery rt q) := by
  have hkey := Json.lookup_sortMembers (@queryPayload_keys rt q)
  have htext : ∀ key s, (queryPayload rt q).lookup key = some (.str s) →
      requiredText (Json.toText other) (Json.sortMembers (queryPayload rt q)) key = .ok s := by
    intro key s h
    rw [requiredText, hkey, h]
    rfl
  have hoptional : ∀ key value, (queryPayload rt q).lookup key = some (Json.optional value) →
      optionalText (Json.toText other) (Json.sortMembers (queryPayload rt q)) key = nonempty value := by
    intro key value h
    refine optionalText_of_lookup ?_
    rw [hkey, h, Option.map_some, sortKeys_optional]
  rw [queryFromPayload, periodOfPayload_sorted, htext "tenant_id" _ rfl,
    htext "requester_rfc" _ rfl, htext "direction" _ rfl, htext "request_type" _ rfl,
    receiversOfPayload_sorted, hoptional "issuer_rfc" _ rfl, hoptional "uuid" _ rfl,
    hoptional "document_status" _ rfl, hoptional "document_type" _ rfl,
    hoptional "complement" _ rfl, hoptional "rfc_on_behalf" _ rfl]
  simp only [Checked.ok_bind, ofWord_direction, ofWord_requestType]
  rfl

end Query

/-! ## The criteria hash on both paths -/

/-- The criteria that the payload carries: no recovery variant reason, and none of the
three texts that the hash takes as they are is empty. -/
def FullyCarried (q : DownloadQuery) : Prop :=
  q.recoveryVariantReason = none ∧ q.documentStatus ≠ some "" ∧ q.documentType ≠ some "" ∧
    q.complement ≠ some ""

section Hash

variable {rt : Runtime} {q : DownloadQuery}

theorem separated_nonempty (value : Option String) :
    Json.Separated (Json.writeOptional (nonempty value)) (Json.writeOptional value) := by
  cases value with
  | none => exact Json.separated_refl _
  | some s =>
      by_cases hs : s = ""
      · subst hs
        exact Json.separated_null_writeStr ""
      · rw [nonempty, Option.filter_some, if_pos (by simpa using hs)]
        exact Json.separated_refl _

theorem nonempty_of_write {value : Option String}
    (h : Json.writeOptional (nonempty value) = Json.writeOptional value) : value ≠ some "" := by
  rintro rfl
  exact Json.null_writeStr_apart "" "" "" (congrArg (· ++ "") h)

theorem nonempty_eq_self {value : Option String} (h : value ≠ some "") : nonempty value = value := by
  cases value with
  | none => rfl
  | some s =>
      rw [nonempty, Option.filter_some, if_pos]
      simpa using fun hs => h (congrArg some hs)

theorem upperOptional_nonempty (value : Option String) :
    DownloadQuery.upperOptional rt (nonempty value) = DownloadQuery.upperOptional rt value := by
  cases value with
  | none => rfl
  | some s =>
      by_cases hs : s = ""
      · subst hs
        rfl
      · rw [nonempty, Option.filter_some, if_pos (by simpa using hs)]

/-- The members of the canonical criteria, each with its text for the carried query and
for the query that was sent. -/
def criteriaTexts (rt : Runtime) (q : DownloadQuery) : List (String × String × String) :=
  let receivers := Json.writeArr
    (((q.receiverRfcs.map rt.upper).insertionSort fun a b => a ≤ b).map Json.writeStr)
  let upper := fun value => Json.writeOptional (DownloadQuery.upperOptional rt value)
  let period := (q.period.map DateTimePeriod.asDict).getD "null"
  [("tenant_id", Json.writeStr q.tenantId, Json.writeStr q.tenantId),
    ("requester_rfc", Json.writeStr (rt.upper (rt.upper q.requesterRfc)),
      Json.writeStr (rt.upper q.requesterRfc)),
    ("direction", Json.writeStr q.direction.value, Json.writeStr q.direction.value),
    ("request_type", Json.writeStr q.requestType.value, Json.writeStr q.requestType.value),
    ("period", period, period),
    ("issuer_rfc", upper (nonempty q.issuerRfc), upper q.issuerRfc),
    ("receiver_rfcs", receivers, receivers),
    ("uuid", upper (nonempty q.uuid), upper q.uuid),
    ("document_status", Json.writeOptional (nonempty q.documentStatus),
      Json.writeOptional q.documentStatus),
    ("document_type", Json.writeOptional (nonempty q.documentType),
      Json.writeOptional q.documentType),
    ("complement", Json.writeOptional (nonempty q.complement), Json.writeOptional q.complement),
    ("rfc_on_behalf", upper (nonempty q.rfcOnBehalf), upper q.rfcOnBehalf),
    ("recovery_variant_reason", "null", Json.writeOptional q.recoveryVariantReason)]

theorem criteriaPayload_carried : (carriedQuery rt q).criteriaPayload rt =
    Json.writeObj ((criteriaTexts rt q).map fun t => (t.1, t.2.1)) := rfl

theorem criteriaPayload_sent :
    q.criteriaPayload rt = Json.writeObj ((criteriaTexts rt q).map fun t => (t.1, t.2.2)) := rfl

/-- The canonical criteria of the carried query are those of the query sent if and only if
every criterion is carried. -/
theorem criteriaPayload_carried_iff
    (hupper : rt.upper (rt.upper q.requesterRfc) = rt.upper q.requesterRfc) :
    (carriedQuery rt q).criteriaPayload rt = q.criteriaPayload rt ↔ FullyCarried q := by
  have hsep : ∀ t ∈ criteriaTexts rt q, Json.Separated t.2.1 t.2.2 := by
    intro t ht
    simp only [criteriaTexts, hupper, upperOptional_nonempty, List.mem_cons, List.not_mem_nil,
      or_false] at ht
    rcases ht with rfl | rfl | rfl | rfl | rfl | rfl | rfl | rfl | rfl | rfl | rfl | rfl | rfl
    case inr.inr.inr.inr.inr.inr.inr.inr.inl => exact separated_nonempty q.documentStatus
    case inr.inr.inr.inr.inr.inr.inr.inr.inr.inl => exact separated_nonempty q.documentType
    case inr.inr.inr.inr.inr.inr.inr.inr.inr.inr.inl => exact separated_nonempty q.complement
    case inr.inr.inr.inr.inr.inr.inr.inr.inr.inr.inr.inr =>
      cases q.recoveryVariantReason with
      | none => exact Json.separated_refl _
      | some reason => exact Json.separated_null_writeStr reason
    all_goals exact Json.separated_refl _
  rw [criteriaPayload_carried, criteriaPayload_sent]
  constructor
  · intro h
    have hall := Json.writeObj_injective hsep h
    have hreason := hall ("recovery_variant_reason", "null",
      Json.writeOptional q.recoveryVariantReason) (by simp [criteriaTexts])
    have hstatus := hall ("document_status", Json.writeOptional (nonempty q.documentStatus),
      Json.writeOptional q.documentStatus) (by simp [criteriaTexts])
    have htype := hall ("document_type", Json.writeOptional (nonempty q.documentType),
      Json.writeOptional q.documentType) (by simp [criteriaTexts])
    have hcomplement := hall ("complement", Json.writeOptional (nonempty q.complement),
      Json.writeOptional q.complement) (by simp [criteriaTexts])
    refine ⟨?_, nonempty_of_write hstatus, nonempty_of_write htype, nonempty_of_write hcomplement⟩
    cases hr : q.recoveryVariantReason with
    | none => rfl
    | some reason =>
        rw [hr] at hreason
        exact absurd (congrArg (· ++ "") hreason) (Json.null_writeStr_apart reason "" "")
  · rintro ⟨hreason, hstatus, htype, hcomplement⟩
    simp only [criteriaTexts, hupper, upperOptional_nonempty, hreason, nonempty_eq_self hstatus,
      nonempty_eq_self htype, nonempty_eq_self hcomplement, List.map_cons, List.map_nil,
      Json.writeOptional]

/-- The decoded message of a job carries a query with the criteria hash of the query that
was sent and of the payload itself, so that the worker's request row has the hash of the
job. -/
def SamePath (env : Env) (otherInt : Json → Option Int) (now : DateTime) (q : DownloadQuery)
    (message : QueueMessage) : Prop :=
  ∃ received q', fromDict (Json.toText env.textOf) (integerOf otherInt) now
      (Json.sortMembers (asDict message)) = .ok received ∧
    queryFromPayload (Json.toText env.textOf) received.payload = .ok q' ∧
    q'.criteriaHash env.rt = q.criteriaHash env.rt ∧
    Json.field received.payload "criteria_hash" = .str (q'.criteriaHash env.rt) ∧
    ∀ enqueue createdAt answer requestedAt verifiedAt file,
      (newRequest env q' message.jobId answer requestedAt verifiedAt file).criteriaHash =
        (newJob env q enqueue createdAt message.jobId).criteriaHash

theorem samePath_iff_hash {env : Env} {otherInt : Json → Option Int} {now : DateTime}
    {message : QueueMessage} (hpayload : message.payload = queryPayload env.rt q) :
    SamePath env otherInt now q message ↔
      (carriedQuery env.rt q).criteriaHash env.rt = q.criteriaHash env.rt := by
  have hreceived := @fromDict_asDict env.textOf otherInt now message
  have hquery := @queryFromPayload_sorted env.rt env.textOf q
  rw [hpayload] at hreceived
  constructor
  · rintro ⟨received, q', hdecoded, hread, hhash, -⟩
    rw [hreceived] at hdecoded
    rw [← Except.ok.inj hdecoded] at hread
    dsimp only at hread
    rw [hquery] at hread
    rw [Except.ok.inj hread]
    exact hhash
  · intro hhash
    refine ⟨_, carriedQuery env.rt q, hreceived, ?_, hhash, ?_, fun _ _ _ _ _ _ => hhash⟩
    · dsimp only
      exact hquery
    have hlookup : (queryPayload env.rt q).lookup "criteria_hash" =
        some (.str (q.criteriaHash env.rt)) := rfl
    dsimp only
    rw [Json.field, Json.lookup_sortMembers queryPayload_keys, hlookup, hhash]
    rfl

/-- The queued path keeps the criteria hash if and only if every criterion is carried.
Upper-casing is taken to be idempotent on the requester, and the digest not to collide on
the two texts that are compared. -/
theorem same_hash_iff {env : Env} {otherInt : Json → Option Int} {now : DateTime}
    {message : QueueMessage} (hpayload : message.payload = queryPayload env.rt q)
    (hupper : env.rt.upper (env.rt.upper q.requesterRfc) = env.rt.upper q.requesterRfc)
    (hcollision : env.rt.sha256Text ((carriedQuery env.rt q).criteriaPayload env.rt) =
        env.rt.sha256Text (q.criteriaPayload env.rt) →
      (carriedQuery env.rt q).criteriaPayload env.rt = q.criteriaPayload env.rt) :
    SamePath env otherInt now q message ↔ FullyCarried q := by
  rw [samePath_iff_hash hpayload, ← criteriaPayload_carried_iff hupper]
  constructor
  · exact fun h => hcollision (Digest.hex_injective h)
  · intro h
    rw [DownloadQuery.criteriaHash, h]
    rfl

/-- A host that knows the SHA-256 digests of two criteria: those of the query of January
2024, and those of the same query sent for another reason. -/
def hashingHost : Runtime := { sampleHost with
  sha256Text := fun text =>
    if text = januaryQuery.criteriaPayload sampleHost then
      0xbbd1681d70edf1ce54b38241ab4b08d81d3d3470714e45419516ef0ca6f1e0c4
    else 0xd02de5743f2ed3d38037ac3f6a8c8dc9bf3aa74df1a81a8a36671cfab533e94d }

/-- The message of a query on that host. -/
def hashingMessage (q : DownloadQuery) : QueueMessage where
  queue := .satRequest
  tenantId := q.tenantId
  rfc := q.requesterRfc
  payload := queryPayload hashingHost q
  jobId := "job-1"
  correlationId := "uuid-0"
  createdAt := .utc 63842385600000000

theorem same_hash_iff_sample :
    SamePath { sampleEnv [] with rt := hashingHost } (fun _ => none)
        (.utc ⟨63842385600000000, by decide⟩) januaryQuery (hashingMessage januaryQuery) ↔
      FullyCarried januaryQuery :=
  @same_hash_iff _ { sampleEnv [] with rt := hashingHost } _ _ _ rfl rfl fun _ => by decide +kernel

/-- A query sent again because the first answer was empty loses this reason in the queue,
and with it the criteria hash of its job. -/
theorem variant_reason_changes_hash :
    let q := { januaryQuery with recoveryVariantReason := some "empty first answer" }
    ¬ SamePath { sampleEnv [] with rt := hashingHost } (fun _ => none)
      (.utc ⟨63842385600000000, by decide⟩) q (hashingMessage q) := by
  intro q
  rw [samePath_iff_hash rfl]
  decide +kernel

end Hash

end Recovery

end CfdiVault
