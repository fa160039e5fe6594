import CfdiVault.Domain
import CfdiVault.Library.UnitOfWork

/-!
# Recovery database

The tables the recovery service reads and writes, with the columns of the schema.
A table is the list of its rows in the order of their surrogate ids, which are not
kept themselves: they only number the rows.

`insert` adds one row and enforces the primary keys and unique constraints of the
schema.  Two of them, `sat_requests.id_solicitud` and `sat_packages.id_paquete`, do
not mention the tenant.  Foreign keys are declared by the schema but not enforced by
the SQLite connection that the service opens.
-/

namespace CfdiVault

namespace Recovery

/-! ## Rows -/

/-- Logical owner of SAT credentials and CFDI data. -/
structure Tenant where
  id : String
  name : String
  rfc : String
  createdAt : DateTime
  deriving DecidableEq

/-- User or scheduler intent represented as a durable job. -/
structure DownloadJob where
  id : String
  tenantId : String
  rfc : String
  direction : String
  requestType : String
  status : String
  criteriaHash : String
  payload : Json
  createdAt : DateTime
  updatedAt : DateTime

/-- Lifecycle of a SAT request. -/
structure SatRequestRecord where
  tenantId : String
  jobId : String
  idSolicitud : String
  criteriaHash : String
  direction : String
  requestType : String
  satState : String
  satCode : String
  satMessage : String
  requestedAt : DateTime
  lastVerifiedAt : DateTime
  metadataSha256 : String
  metadataStorageKey : String
  rawResponse : Json

/-- Lifecycle of a SAT package returned from verification. -/
structure SatPackageRecord where
  tenantId : String
  idPaquete : String
  idSolicitud : String
  status : String
  attempts : Int
  sha256Zip : Option String
  sizeBytes : Option Nat
  storageKey : Option String
  downloadedAt : Option DateTime
  expiresAt : Option DateTime
  lastError : Json
  createdAt : DateTime
  updatedAt : DateTime

/-- Append-only queue/job event for audit and troubleshooting. -/
structure QueueJobEvent where
  jobId : String
  queueName : String
  status : String
  correlationId : String
  attempt : Int
  message : String
  payload : Json
  createdAt : DateTime

/-- Append-only explanation for UUID reconciliation transitions. -/
structure ReconciliationEvent where
  tenantId : String
  uuid : String
  previousState : Option String
  newState : String
  reason : String
  actor : String
  createdAt : DateTime
  deriving DecidableEq

/-- Normalized accounting header for a CFDI. -/
structure CfdiDocument where
  tenantId : String
  uuid : String
  version : Option String
  documentType : String
  status : String
  issueDate : DateTime
  certifiedAt : Option DateTime
  currency : String
  subtotal : Option Decimal
  discount : Option Decimal
  total : Decimal
  issuerRfc : String
  issuerName : String
  receiverRfc : String
  receiverName : String
  paymentMethod : Option String
  paymentForm : Option String
  downloadState : String
  xmlSha256 : Option String
  parserStatus : String
  searchText : String
  rawPayload : Json
  createdAt : DateTime
  updatedAt : DateTime

/-- Party index for issuer/receiver search. -/
structure CfdiParty where
  tenantId : String
  rfc : String
  name : String
  role : String
  documentUuid : String
  deriving DecidableEq

/-- Metadata-led control plane for expected documents. -/
structure CfdiMetadataLedger where
  tenantId : String
  uuid : String
  direction : String
  issuerRfc : String
  issuerName : String
  receiverRfc : String
  receiverName : String
  issueDate : DateTime
  total : Decimal
  status : Option String
  effect : String
  reconciliationState : String
  sourcePackageId : String
  sourceMetadataSha256 : String
  firstSeenAt : DateTime
  lastSeenAt : DateTime
  rawPayload : Json

/-- Stored XML evidence and file fingerprints. -/
structure XmlEvidence where
  tenantId : String
  uuid : String
  sourcePackageId : String
  xmlSha256 : String
  sizeBytes : Nat
  storageKey : String
  parserVersion : String
  parserStatus : String
  createdAt : DateTime
  deriving DecidableEq

/-! ## The database -/

/-- The tables of the recovery schema that the service uses. -/
structure Db where
  tenants : List Tenant := []
  jobs : List DownloadJob := []
  requests : List SatRequestRecord := []
  packages : List SatPackageRecord := []
  jobEvents : List QueueJobEvent := []
  reconciliationEvents : List ReconciliationEvent := []
  documents : List CfdiDocument := []
  parties : List CfdiParty := []
  ledger : List CfdiMetadataLedger := []
  evidence : List XmlEvidence := []

/-- A row of one of the tables. -/
inductive Row where
  | tenant (row : Tenant)
  | job (row : DownloadJob)
  | request (row : SatRequestRecord)
  | package (row : SatPackageRecord)
  | jobEvent (row : QueueJobEvent)
  | reconciliationEvent (row : ReconciliationEvent)
  | document (row : CfdiDocument)
  | party (row : CfdiParty)
  | ledger (row : CfdiMetadataLedger)
  | evidence (row : XmlEvidence)

/-- A row of the table repeats a key of a new one. -/
def Clashes (d : Db) : Row → Prop
  | .tenant row => ∃ other ∈ d.tenants, other.id = row.id
  | .job row => ∃ other ∈ d.jobs, other.id = row.id ∨
      (other.tenantId = row.tenantId ∧ other.criteriaHash = row.criteriaHash)
  | .request row => ∃ other ∈ d.requests, other.idSolicitud = row.idSolicitud
  | .package row => ∃ other ∈ d.packages, other.idPaquete = row.idPaquete
  | .jobEvent _ => False
  | .reconciliationEvent _ => False
  | .document row => ∃ other ∈ d.documents, other.tenantId = row.tenantId ∧ other.uuid = row.uuid
  | .party _ => False
  | .ledger row => ∃ other ∈ d.ledger, other.tenantId = row.tenantId ∧ other.uuid = row.uuid ∧
      other.direction = row.direction
  | .evidence row => ∃ other ∈ d.evidence, other.tenantId = row.tenantId ∧
      other.uuid = row.uuid ∧ other.xmlSha256 = row.xmlSha256

instance (d : Db) (row : Row) : Decidable (Clashes d row) := by
  cases row <;> unfold Clashes <;> infer_instance

/-- Add a row behind the others of its table. -/
def append (d : Db) : Row → Db
  | .tenant row => { d with tenants := d.tenants ++ [row] }
  | .job row => { d with jobs := d.jobs ++ [row] }
  | .request row => { d with requests := d.requests ++ [row] }
  | .package row => { d with packages := d.packages ++ [row] }
  | .jobEvent row => { d with jobEvents := d.jobEvents ++ [row] }
  | .reconciliationEvent row =>
      { d with reconciliationEvents := d.reconciliationEvents ++ [row] }
  | .document row => { d with documents := d.documents ++ [row] }
  | .party row => { d with parties := d.parties ++ [row] }
  | .ledger row => { d with ledger := d.ledger ++ [row] }
  | .evidence row => { d with evidence := d.evidence ++ [row] }

/-- Insert a row; `none` is the `IntegrityError`. -/
def insert (row : Row) (d : Db) : Option Db := if Clashes d row then none else some (append d row)

theorem insert_eq_some {row : Row} {d e : Db} :
    insert row d = some e ↔ ¬ Clashes d row ∧ append d row = e := by
  unfold insert
  split_ifs with h <;> simp [h]

/-! ## What a row adds to a table -/

def requestRows : Row → List SatRequestRecord
  | .request row => [row]
  | _ => []

def packageRows : Row → List SatPackageRecord
  | .package row => [row]
  | _ => []

def jobRows : Row → List DownloadJob
  | .job row => [row]
  | _ => []

theorem mem_requestRows {row : Row} {r : SatRequestRecord} :
    r ∈ requestRows row ↔ row = .request r := by
  cases row <;> simp [requestRows, eq_comm]

theorem mem_packageRows {row : Row} {r : SatPackageRecord} :
    r ∈ packageRows row ↔ row = .package r := by
  cases row <;> simp [packageRows, eq_comm]

theorem insert_requests {row : Row} {d e : Db} (h : insert row d = some e) :
    e.requests = d.requests ++ requestRows row := by
  obtain ⟨-, rfl⟩ := insert_eq_some.mp h
  cases row <;> simp [append, requestRows]

theorem insert_packages {row : Row} {d e : Db} (h : insert row d = some e) :
    e.packages = d.packages ++ packageRows row := by
  obtain ⟨-, rfl⟩ := insert_eq_some.mp h
  cases row <;> simp [append, packageRows]

theorem insert_jobs {row : Row} {d e : Db} (h : insert row d = some e) :
    e.jobs = d.jobs ++ jobRows row := by
  obtain ⟨-, rfl⟩ := insert_eq_some.mp h
  cases row <;> simp [append, jobRows]

end Recovery

end CfdiVault
