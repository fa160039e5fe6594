import CfdiVault.Library.Calendar
import CfdiVault.Library.Json
import CfdiVault.Library.Decimal

/-!
# Domain objects

The values shared by the recovery flows and the SAT request scheduler: the
enumerations with the words under which they are stored, the closed period of a
request, the normalized criteria of one metadata or CFDI request, the envelope of a
queued message and the row of a metadata inventory.

Each enumeration has a `value` function, the text the program writes to the
database and to the local state file.  `DateTimePeriod` carries the check its
constructor makes, so a period whose end precedes its start cannot be built.
-/

namespace CfdiVault

/-! ## Enumerations -/

/-- SAT request content types. -/
inductive RequestType where
  | metadata
  | cfdi
  deriving DecidableEq

/-- Direction of the requested CFDI documents. -/
inductive DownloadDirection where
  | issued
  | received
  | folio
  deriving DecidableEq

/-- Durable queue names used by the recovery system. -/
inductive QueueName where
  | satRequest
  | satVerify
  | satDownload
  | cfdiParseMetadata
  | cfdiParseXml
  | cfdiReconcile
  | cfdiExport
  | deadLetter
  deriving DecidableEq

/-- Queue job lifecycle states. -/
inductive JobStatus where
  | pending
  | running
  | succeeded
  | failed
  | retryScheduled
  | manualReview
  deriving DecidableEq

/-- Normalized SAT request states. -/
inductive SatRequestState where
  | accepted
  | inProcess
  | finished
  | error
  | rejected
  | expired
  deriving DecidableEq

/-- UUID-level reconciliation state. -/
inductive ReconciliationState where
  | discoveredInMetadata
  | xmlPending
  | xmlRequested
  | xmlDownloaded
  | xmlNotAvailable
  | cancelledMetadata
  | cancelledConfirmed
  | stateCheckPending
  | stateChecked
  | retryScheduled
  | failedPermanent
  deriving DecidableEq

namespace RequestType

def value : RequestType → String
  | metadata => "metadata"
  | cfdi => "cfdi"

end RequestType

namespace DownloadDirection

def value : DownloadDirection → String
  | issued => "issued"
  | received => "received"
  | folio => "folio"

end DownloadDirection

namespace QueueName

def value : QueueName → String
  | satRequest => "sat.request"
  | satVerify => "sat.verify"
  | satDownload => "sat.download"
  | cfdiParseMetadata => "cfdi.parse.metadata"
  | cfdiParseXml => "cfdi.parse.xml"
  | cfdiReconcile => "cfdi.reconcile"
  | cfdiExport => "cfdi.export"
  | deadLetter => "dead.letter"

end QueueName

namespace JobStatus

def value : JobStatus → String
  | pending => "pending"
  | running => "running"
  | succeeded => "succeeded"
  | failed => "failed"
  | retryScheduled => "retry_scheduled"
  | manualReview => "manual_review"

end JobStatus

namespace SatRequestState

def value : SatRequestState → String
  | accepted => "accepted"
  | inProcess => "in_process"
  | finished => "finished"
  | error => "error"
  | rejected => "rejected"
  | expired => "expired"

/-- `SatRequestState(text)`; `none` is the `ValueError`. -/
def ofValue? (text : String) : Option SatRequestState :=
  [accepted, inProcess, finished, error, rejected, expired].find? fun s => s.value == text

end SatRequestState

namespace ReconciliationState

def value : ReconciliationState → String
  | discoveredInMetadata => "DISCOVERED_IN_METADATA"
  | xmlPending => "XML_PENDING"
  | xmlRequested => "XML_REQUESTED"
  | xmlDownloaded => "XML_DOWNLOADED"
  | xmlNotAvailable => "XML_NOT_AVAILABLE"
  | cancelledMetadata => "CANCELLED_METADATA"
  | cancelledConfirmed => "CANCELLED_CONFIRMED"
  | stateCheckPending => "STATE_CHECK_PENDING"
  | stateChecked => "STATE_CHECKED"
  | retryScheduled => "RETRY_SCHEDULED"
  | failedPermanent => "FAILED_PERMANENT"

end ReconciliationState

/-! ## Request criteria -/

/-- `end >= start` for two readings of the same kind, both naive or both with an
offset; `none` is the `TypeError` of a mixed comparison. -/
def DateTime.orderedAfter? (later earlier : DateTime) : Option Bool :=
  match later.offset, earlier.offset with
  | none, none => some (decide (earlier.wall ≤ later.wall))
  | some a, some b =>
      some (decide ((earlier.wall.micros : Int) - b.micros ≤ (later.wall.micros : Int) - a.micros))
  | _, _ => none

/-- Closed datetime range used for SAT request planning. -/
structure DateTimePeriod where
  start : DateTime
  «end» : DateTime
  ordered : DateTime.orderedAfter? «end» start = some true
  deriving DecidableEq

/-- `period.as_dict()`, rendered. -/
def DateTimePeriod.asDict (period : DateTimePeriod) : String :=
  Json.writeObj [("start", Json.writeStr period.start.isoformat),
    ("end", Json.writeStr period.end.isoformat)]

/-- Normalized criteria for one SAT metadata or CFDI request. -/
structure DownloadQuery where
  tenantId : String
  requesterRfc : String
  direction : DownloadDirection
  requestType : RequestType
  period : Option DateTimePeriod
  issuerRfc : Option String := none
  receiverRfcs : List String := []
  uuid : Option String := none
  documentStatus : Option String := none
  documentType : Option String := none
  complement : Option String := none
  rfcOnBehalf : Option String := none
  recoveryVariantReason : Option String := none
  deriving DecidableEq

namespace DownloadQuery

/-- `value.upper() if value else None`. -/
def upperOptional (rt : Runtime) : Option String → Option String
  | some s => if s = "" then none else some (rt.upper s)
  | none => none

/-- Problems of a query, in the order they are reported. -/
def validate (q : DownloadQuery) : List String :=
  (if q.tenantId = "" then ["tenant_id is required"] else []) ++
  (if q.requesterRfc = "" then ["requester_rfc is required"] else []) ++
  (if q.direction = .folio then
    (if q.uuid.getD "" = "" then ["uuid is required for folio requests"] else [])
  else if q.period.isNone then ["period is required for issued or received requests"] else []) ++
  (if q.receiverRfcs.length > 5 then ["receiver_rfcs accepts at most 5 RFC values"] else [])

/-- The canonical text of the criteria: compact JSON with keys in order. -/
def criteriaPayload (rt : Runtime) (q : DownloadQuery) : String :=
  let receivers := (q.receiverRfcs.map rt.upper).insertionSort fun a b => a ≤ b
  Json.writeObj [
    ("tenant_id", Json.writeStr q.tenantId),
    ("requester_rfc", Json.writeStr (rt.upper q.requesterRfc)),
    ("direction", Json.writeStr q.direction.value),
    ("request_type", Json.writeStr q.requestType.value),
    ("period", (q.period.map DateTimePeriod.asDict).getD "null"),
    ("issuer_rfc", Json.writeOptional (upperOptional rt q.issuerRfc)),
    ("receiver_rfcs", Json.writeArr (receivers.map Json.writeStr)),
    ("uuid", Json.writeOptional (upperOptional rt q.uuid)),
    ("document_status", Json.writeOptional q.documentStatus),
    ("document_type", Json.writeOptional q.documentType),
    ("complement", Json.writeOptional q.complement),
    ("rfc_on_behalf", Json.writeOptional (upperOptional rt q.rfcOnBehalf)),
    ("recovery_variant_reason", Json.writeOptional q.recoveryVariantReason)]

/-- Stable hash used to prevent duplicate SAT requests. -/
def criteriaHash (rt : Runtime) (q : DownloadQuery) : String :=
  (rt.sha256Text (q.criteriaPayload rt)).hex

end DownloadQuery

/-! ## Messages and inventory rows -/

/-- Message envelope sent through a queue adapter.  The payload is a JSON object. -/
structure QueueMessage where
  queue : QueueName
  tenantId : String
  rfc : String
  payload : List (String × Json)
  jobId : String
  correlationId : String
  attempt : Int := 0
  createdAt : DateTime

/-- Canonical metadata-led inventory row. -/
structure MetadataEntry where
  uuid : String
  issuerRfc : String
  issuerName : String
  receiverRfc : String
  receiverName : String
  issueDate : DateTime
  total : Decimal
  status : String
  effect : String
  sourcePackageId : String
  deriving DecidableEq

end CfdiVault
