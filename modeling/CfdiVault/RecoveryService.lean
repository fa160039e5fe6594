import CfdiVault.RecoveryPayload
import CfdiVault.Reconciliation

/-!
# Recovery service

The use cases of the recovery architecture: create the tenant, synchronize one query,
process a queued message, ingest a metadata file and reconcile the ledger.

A synchronization commits three times: the tenant, the job with its first event, and
in `processSatRequestJob` the job in state running.  Then SAT is asked, and everything
that follows from its answer, from the request row over the packages and the metadata
to the final job status, is one transaction.  Files are written as it goes.

The progress entries of the cache are left out: no modelled function reads them.
-/

namespace CfdiVault

namespace Recovery

/-- Result of a fake or live sync request. -/
structure SyncResult where
  jobId : String
  requestId : String
  packages : List String
  metadataCount : Nat
  status : String
  deriving DecidableEq

/-- Result of ingesting a SAT-like metadata file. -/
structure MetadataImportResult where
  acceptedCount : Nat
  rejectedCount : Nat
  invalidRows : List InvalidMetadataRow
  metadataSha256 : String
  storageKey : String
  deriving DecidableEq

section Service

variable (env : Env)

/-! ## Tenants and events -/

/-- `name or fallback`. -/
def nameOr (name : Option String) (fallback : String) : String :=
  match name with
  | some s => if s = "" then fallback else s
  | none => fallback

/-- The new values of a known tenant. -/
def renameTenant (tenantId rfc : String) (name : Option String) (d : Db) : Db :=
  { d with tenants := d.tenants.map fun t =>
      if t.id = tenantId then { t with name := nameOr name t.name, rfc := rfc } else t }

/-- Add an unknown tenant or bring a known one up to date. -/
def saveTenant (tenantId rfc : String) (name : Option String) (createdAt : DateTime) :
    Option Tenant → Recovery PUnit
  | none => add (.tenant ⟨tenantId, nameOr name tenantId, env.rt.upper rfc, createdAt⟩)
  | some _ => update (renameTenant tenantId (env.rt.upper rfc) name)

def initTenant (tenantId rfc : String) (name : Option String := none) : Recovery PUnit := do
  let createdAt ← now env
  withSession do
    let tenant ← select env fun d => d.tenants.find? fun t => t.id = tenantId
    saveTenant env tenantId rfc name createdAt tenant
    commit env

/-- `_event`. -/
def event (jobId : String) (queueName : QueueName) (status : JobStatus) (message : String)
    (payload : Json) : Recovery PUnit := do
  let correlationId ← uuid4 env
  let createdAt ← now env
  add (.jobEvent ⟨jobId, queueName.value, status.value, correlationId, 0, message, payload, createdAt⟩)

/-- `_storage_period`. -/
def storagePeriod (q : DownloadQuery) : Recovery DateTime :=
  match q.period with
  | some period => pure period.start
  | none => now env

/-! ## Metadata -/

/-- A ledger row of a tenant, a document and a direction. -/
def IsLedgerRow (tenantId uuid direction : String) (row : CfdiMetadataLedger) : Prop :=
  row.tenantId = tenantId ∧ row.uuid = uuid ∧ row.direction = direction

instance (tenantId uuid direction : String) (row : CfdiMetadataLedger) :
    Decidable (IsLedgerRow tenantId uuid direction row) := by
  unfold IsLedgerRow
  infer_instance

/-- A document of a tenant. -/
def IsDocument (tenantId uuid : String) (row : CfdiDocument) : Prop :=
  row.tenantId = tenantId ∧ row.uuid = uuid

instance (tenantId uuid : String) (row : CfdiDocument) : Decidable (IsDocument tenantId uuid row) := by
  unfold IsDocument
  infer_instance

def changeLedger (tenantId uuid direction : String)
    (change : CfdiMetadataLedger → CfdiMetadataLedger) (d : Db) : Db :=
  { d with ledger := d.ledger.map fun row =>
      if IsLedgerRow tenantId uuid direction row then change row else row }

def changeDocument (tenantId uuid : String) (change : CfdiDocument → CfdiDocument) (d : Db) : Db :=
  { d with documents := d.documents.map fun row =>
      if IsDocument tenantId uuid row then change row else row }

/-- The parties of a document. -/
def parties (tenantId uuid issuerRfc issuerName receiverRfc receiverName : String) : List Row :=
  [.party ⟨tenantId, issuerRfc, issuerName, "issuer", uuid⟩,
    .party ⟨tenantId, receiverRfc, receiverName, "receiver", uuid⟩]

/-- The ledger row of an entry, new or brought up to date, with the audit event of a
changed state. -/
def saveLedger (q : DownloadQuery) (entry : MetadataEntry) (metadataSha256 newState : String)
    (time : DateTime) : Option CfdiMetadataLedger → Recovery PUnit
  | none => do
      add (.ledger {
        tenantId := q.tenantId
        uuid := entry.uuid
        direction := q.direction.value
        issuerRfc := entry.issuerRfc
        issuerName := entry.issuerName
        receiverRfc := entry.receiverRfc
        receiverName := entry.receiverName
        issueDate := entry.issueDate
        total := entry.total
        status := some entry.status
        effect := entry.effect
        reconciliationState := newState
        sourcePackageId := entry.sourcePackageId
        sourceMetadataSha256 := metadataSha256
        firstSeenAt := time
        lastSeenAt := time
        rawPayload := metadataPayload entry })
      add (.reconciliationEvent
        ⟨q.tenantId, entry.uuid, none, newState, "metadata discovered", "fake-sat", time⟩)
  | some existing => do
      update (changeLedger q.tenantId entry.uuid q.direction.value fun row => { row with
        issuerRfc := entry.issuerRfc
        issuerName := entry.issuerName
        receiverRfc := entry.receiverRfc
        receiverName := entry.receiverName
        issueDate := entry.issueDate
        total := entry.total
        status := some entry.status
        effect := entry.effect
        reconciliationState := newState
        sourcePackageId := entry.sourcePackageId
        sourceMetadataSha256 := metadataSha256
        lastSeenAt := time
        rawPayload := metadataPayload entry })
      if existing.reconciliationState ≠ newState then
        add (.reconciliationEvent ⟨q.tenantId, entry.uuid, some existing.reconciliationState,
          newState, "metadata state updated", "fake-sat", time⟩)
      else pure ⟨⟩

/-- The document of an entry of a metadata query, new or brought up to date.  A
document whose XML is stored keeps its download state. -/
def saveMetadataDocument (q : DownloadQuery) (entry : MetadataEntry) (newState : String)
    (time : DateTime) : Option CfdiDocument → Recovery PUnit
  | none => do
      add (.document {
        tenantId := q.tenantId
        uuid := entry.uuid
        version := none
        documentType := entry.effect
        status := entry.status
        issueDate := entry.issueDate
        certifiedAt := none
        currency := "MXN"
        subtotal := none
        discount := none
        total := entry.total
        issuerRfc := entry.issuerRfc
        issuerName := entry.issuerName
        receiverRfc := entry.receiverRfc
        receiverName := entry.receiverName
        paymentMethod := none
        paymentForm := none
        downloadState := newState
        xmlSha256 := none
        parserStatus := "metadata_only"
        searchText := searchText env.rt entry
        rawPayload := metadataPayload entry
        createdAt := time
        updatedAt := time })
      Prog.each (parties q.tenantId entry.uuid entry.issuerRfc entry.issuerName entry.receiverRfc
        entry.receiverName) add
  | some _ =>
      update (changeDocument q.tenantId entry.uuid fun row => { row with
        updatedAt := time
        status := entry.status
        documentType := entry.effect
        issueDate := entry.issueDate
        total := entry.total
        issuerRfc := entry.issuerRfc
        issuerName := entry.issuerName
        receiverRfc := entry.receiverRfc
        receiverName := entry.receiverName
        downloadState := if row.xmlSha256 = none then newState else row.downloadState
        rawPayload := metadataPayload entry })

/-- One turn of `_upsert_metadata`. -/
def upsertEntry (q : DownloadQuery) (metadataSha256 : String) (time : DateTime)
    (entry : MetadataEntry) : Recovery PUnit := do
  let existing ← select env fun d =>
    d.ledger.find? fun row => IsLedgerRow q.tenantId entry.uuid q.direction.value row
  let hasXml ← select env fun d =>
    d.evidence.any fun row => row.tenantId = q.tenantId ∧ row.uuid = entry.uuid
  let newState := (Reconciliation.decideMetadataState env.rt entry.status hasXml existing.isNone
    (existing.bind (·.status))).state.value
  saveLedger q entry metadataSha256 newState time existing
  if q.requestType = .metadata then do
    let document ← select env fun d =>
      d.documents.find? fun row => IsDocument q.tenantId entry.uuid row
    saveMetadataDocument env q entry newState time document
  else pure ⟨⟩

/-- `_upsert_metadata`. -/
def upsertMetadata (q : DownloadQuery) (metadata : List MetadataEntry) (metadataSha256 : String) :
    Recovery Nat := do
  let time ← now env
  Prog.each metadata (upsertEntry env q metadataSha256 time)
  pure metadata.length

/-! ## XML packages -/

/-- The document of an XML, new or overwritten. -/
def saveXmlDocument (q : DownloadQuery) (reading : CfdiReading) (packageId uuid xmlSha256 : String) :
    Option CfdiDocument → Recovery PUnit
  | none => do
      let createdAt ← now env
      let updatedAt ← now env
      add (.document {
        tenantId := q.tenantId
        uuid := uuid
        version := some reading.version
        documentType := reading.parsed.comprobanteType
        status := "vigente"
        issueDate := reading.parsed.issueDate
        certifiedAt := none
        currency := reading.parsed.currency
        subtotal := some reading.parsed.subtotal
        discount := none
        total := reading.parsed.total
        issuerRfc := reading.parsed.issuerRfc
        issuerName := reading.parsed.issuerName
        receiverRfc := reading.parsed.receiverRfc
        receiverName := reading.parsed.receiverName
        paymentMethod := reading.parsed.paymentMethod
        paymentForm := reading.parsed.paymentForm
        downloadState := ReconciliationState.xmlDownloaded.value
        xmlSha256 := some xmlSha256
        parserStatus := reading.parserStatus
        searchText := parsedSearchText env.rt reading.parsed reading.concepts
        rawPayload := xmlPayload reading packageId xmlSha256
        createdAt := createdAt
        updatedAt := updatedAt })
      Prog.each (parties q.tenantId uuid reading.parsed.issuerRfc reading.parsed.issuerName
        reading.parsed.receiverRfc reading.parsed.receiverName) add
  | some _ => do
      let updatedAt ← now env
      update (changeDocument q.tenantId uuid fun row => { row with
        version := some reading.version
        documentType := reading.parsed.comprobanteType
        issueDate := reading.parsed.issueDate
        currency := reading.parsed.currency
        subtotal := some reading.parsed.subtotal
        total := reading.parsed.total
        issuerRfc := reading.parsed.issuerRfc
        issuerName := reading.parsed.issuerName
        receiverRfc := reading.parsed.receiverRfc
        receiverName := reading.parsed.receiverName
        paymentMethod := reading.parsed.paymentMethod
        paymentForm := reading.parsed.paymentForm
        downloadState := ReconciliationState.xmlDownloaded.value
        xmlSha256 := some xmlSha256
        parserStatus := reading.parserStatus
        searchText := parsedSearchText env.rt reading.parsed reading.concepts
        rawPayload := xmlPayload reading packageId xmlSha256
        updatedAt := updatedAt })

/-- The evidence row of an XML, unless the same bytes are recorded for the document. -/
def saveEvidence (q : DownloadQuery) (reading : CfdiReading) (packageId uuid xmlSha256 : String)
    (stored : StoredFile) (recorded : Bool) : Recovery PUnit :=
  if recorded then pure ⟨⟩
  else do
    let createdAt ← now env
    add (.evidence {
      tenantId := q.tenantId
      uuid := uuid
      sourcePackageId := packageId
      xmlSha256 := xmlSha256
      sizeBytes := stored.sizeBytes
      storageKey := stored.path
      parserVersion := "cfdi-" ++ (if reading.version = "" then "unknown" else reading.version)
      parserStatus := reading.parserStatus
      createdAt := createdAt })

/-- The ledger row of a document whose XML is now stored. -/
def markXmlStored (q : DownloadQuery) (uuid : String) : Option CfdiMetadataLedger → Recovery PUnit
  | none => pure ⟨⟩
  | some row => do
      update (changeLedger q.tenantId uuid q.direction.value fun row => { row with
        reconciliationState := ReconciliationState.xmlDownloaded.value })
      if row.reconciliationState ≠ ReconciliationState.xmlDownloaded.value then do
        let createdAt ← now env
        add (.reconciliationEvent ⟨q.tenantId, uuid, some row.reconciliationState,
          ReconciliationState.xmlDownloaded.value, "xml evidence stored", "fake-sat", createdAt⟩)
      else pure ⟨⟩

/-- An archive entry that the package loader reads. -/
def isXmlMember (member : String) : Bool :=
  !("/".toList.isSuffixOf member.toList) && ".xml".toList.isSuffixOf (Text.lower member).toList

/-- The steps that read archives and documents. -/
def extract {α : Type} (r : Except String α) : Recovery α := Prog.ofExcept (r.mapError .extraction)

/-- One turn of `_store_xml_package`. -/
def storeXmlMember (q : DownloadQuery) (packageId : String) (archive : ZipArchive) (member : String) :
    Recovery PUnit := do
  let xmlBytes ← extract (archive.read member)
  let reading ← extract (env.readCfdi xmlBytes)
  let uuid := env.rt.upper reading.parsed.uuid
  let xmlSha256 := sha256Bytes env xmlBytes
  let storageKey ← xmlKey env q.requesterRfc reading.parsed.issueDate uuid xmlSha256
  let stored ← writeBytesIdempotent env storageKey xmlBytes
  let document ← select env fun d => d.documents.find? fun row => IsDocument q.tenantId uuid row
  saveXmlDocument env q reading packageId uuid xmlSha256 document
  let recorded ← select env fun d => d.evidence.any fun row =>
    row.tenantId = q.tenantId ∧ row.uuid = uuid ∧ row.xmlSha256 = xmlSha256
  saveEvidence env q reading packageId uuid xmlSha256 stored recorded
  let ledger ← select env fun d =>
    d.ledger.find? fun row => IsLedgerRow q.tenantId uuid q.direction.value row
  markXmlStored env q uuid ledger

/-- `_store_xml_package`. -/
def storeXmlPackage (q : DownloadQuery) (packageId : String) (content : Bytes) : Recovery Nat := do
  let archive ← extract (env.openZip content)
  let members := (archive.names.insertionSort fun a b => a ≤ b).filter isXmlMember
  Prog.each members (storeXmlMember env q packageId archive)
  pure members.length

/-! ## Packages -/

/-- A package row of a tenant. -/
def IsPackage (tenantId packageId : String) (row : SatPackageRecord) : Prop :=
  row.tenantId = tenantId ∧ row.idPaquete = packageId

instance (tenantId packageId : String) (row : SatPackageRecord) :
    Decidable (IsPackage tenantId packageId row) := by
  unfold IsPackage
  infer_instance

def changePackage (tenantId packageId : String) (change : SatPackageRecord → SatPackageRecord)
    (d : Db) : Db :=
  { d with packages := d.packages.map fun row =>
      if IsPackage tenantId packageId row then change row else row }

/-- The storage key of a package row that counts as downloaded. -/
def downloadedKey (existing : Option SatPackageRecord) : Option String :=
  match existing with
  | some row =>
      if row.status = "downloaded" then row.storageKey.filter (· ≠ "") else none
  | none => none

/-- The stored bytes of a downloaded package, if its file is still there. -/
def storedContent (existing : Option SatPackageRecord) : Recovery (Option Bytes) :=
  match downloadedKey existing with
  | some key => disk env (·.file? key)
  | none => pure none

/-- The row of a package downloaded for the first time. -/
def newPackage (q : DownloadQuery) (requestId packageId : String)
    (requestedAt downloadedAt updatedAt : DateTime) (file : StoredFile) : SatPackageRecord where
  tenantId := q.tenantId
  idPaquete := packageId
  idSolicitud := requestId
  status := "downloaded"
  attempts := 1
  sha256Zip := some file.sha256
  sizeBytes := some file.sizeBytes
  storageKey := some file.path
  downloadedAt := some downloadedAt
  expiresAt := none
  lastError := .obj []
  createdAt := requestedAt
  updatedAt := updatedAt

/-- The row of a downloaded package, new or brought up to date. -/
def savePackage (q : DownloadQuery) (requestId packageId : String) (requestedAt : DateTime)
    (file : StoredFile) : Option SatPackageRecord → Recovery PUnit
  | none => do
      let downloadedAt ← now env
      let updatedAt ← now env
      add (.package (newPackage q requestId packageId requestedAt downloadedAt updatedAt file))
  | some _ => do
      let downloadedAt ← now env
      let updatedAt ← now env
      update (changePackage q.tenantId packageId fun row => { row with
        idSolicitud := requestId
        status := "downloaded"
        attempts := row.attempts + 1
        sha256Zip := some file.sha256
        sizeBytes := some file.sizeBytes
        storageKey := some file.path
        downloadedAt := some downloadedAt
        updatedAt := updatedAt
        lastError := .obj [] })

/-- Download a package and store it. -/
def downloadAndStore (q : DownloadQuery) (jobId requestId packageId : String)
    (requestedAt : DateTime) (existing : Option SatPackageRecord) : Recovery Bytes := do
  let content ← downloadPackage env packageId
  let period ← storagePeriod env q
  let packageKey ← packageKey env q.requesterRfc period packageId (sha256Bytes env content)
  let file ← writeBytesIdempotent env packageKey content
  savePackage env q requestId packageId requestedAt file existing
  event env jobId .satDownload .succeeded ("downloaded " ++ packageId)
    (.obj [("sha256", .str file.sha256), ("storage_key", .str file.path)])
  pure content

/-- One turn of the package loop: reuse the stored bytes or download. -/
def fetchPackage (q : DownloadQuery) (jobId requestId : String) (requestedAt : DateTime)
    (packageId : String) : Recovery (String × Bytes) := do
  let existing ← select env fun d => d.packages.find? fun row => IsPackage q.tenantId packageId row
  let stored ← storedContent env existing
  match stored with
  | some content => do
      event env jobId .satDownload .succeeded ("reused downloaded package " ++ packageId)
        (.obj [("sha256", .str ((existing.bind (·.sha256Zip)).getD ""))])
      pure (packageId, content)
  | none => do
      let content ← downloadAndStore env q jobId requestId packageId requestedAt existing
      pure (packageId, content)

/-- `contents[packageId] = content` on a dictionary. -/
def assign (contents : List (String × Bytes)) (item : String × Bytes) : List (String × Bytes) :=
  if contents.any (fun c => c.1 = item.1) then
    contents.map fun c => if c.1 = item.1 then item else c
  else contents ++ [item]

/-! ## The job -/

/-- Set the status of a job. -/
def setJobStatus (jobId : String) (status : JobStatus) (time : DateTime) (d : Db) : Db :=
  { d with jobs := d.jobs.map fun job =>
      if job.id = jobId then { job with status := status.value, updatedAt := time } else job }

/-- The first transaction of a job: it is running. -/
def markRunning (jobId : String) (time : DateTime) : Recovery PUnit :=
  withSession do
    let job ← select env fun d => d.jobs.find? fun job => job.id = jobId
    if job.isSome then do
      update (setJobStatus jobId .running time)
      commit env
    else pure ⟨⟩

/-- Submit the query to SAT, verify the request once and read the answer. -/
def askSat (q : DownloadQuery) : Recovery SatAnswer := do
  let requestId ← submitRequest env q
  let response ← verifyRequest env requestId
  Prog.ofExcept (readAnswer (Json.toText env.textOf) requestId response)

/-- The row of a SAT request, with the metadata index written for it. -/
def newRequest (q : DownloadQuery) (jobId : String) (answer : SatAnswer)
    (requestedAt lastVerifiedAt : DateTime) (metadataFile : StoredFile) : SatRequestRecord where
  tenantId := q.tenantId
  jobId := jobId
  idSolicitud := answer.requestId
  criteriaHash := q.criteriaHash env.rt
  direction := q.direction.value
  requestType := q.requestType.value
  satState := answer.state
  satCode := answer.satCode
  satMessage := answer.message
  requestedAt := requestedAt
  lastVerifiedAt := lastVerifiedAt
  metadataSha256 := metadataFile.sha256
  metadataStorageKey := metadataFile.path
  rawResponse := .obj answer.response

/-- Add the row of a SAT request with its event. -/
def saveRequest (q : DownloadQuery) (jobId : String) (answer : SatAnswer) (requestedAt : DateTime)
    (metadataFile : StoredFile) : Recovery PUnit := do
  let lastVerifiedAt ← now env
  add (.request (newRequest env q jobId answer requestedAt lastVerifiedAt metadataFile))
  event env jobId .satVerify .succeeded ("SAT state=" ++ answer.state) (.obj answer.response)

/-- The XML stage, for queries that ask for CFDI. -/
def storeXmlPackages (q : DownloadQuery) (jobId : String) (contents : List (String × Bytes)) :
    Recovery PUnit :=
  if q.requestType = .cfdi then do
    let counts ← Prog.collect contents fun c => storeXmlPackage env q c.1 c.2
    event env jobId .cfdiParseXml .succeeded ("xml rows=" ++ toString counts.sum) (.obj [])
  else pure ⟨⟩

/-- The end of a job. -/
def markSucceeded (jobId : String) : Recovery PUnit := do
  let job ← select env fun d => d.jobs.find? fun job => job.id = jobId
  if job.isSome then do
    let time ← now env
    update (setJobStatus jobId .succeeded time)
  else pure ⟨⟩

/-- What an answer leads to, before it is committed. -/
def recordSteps (q : DownloadQuery) (jobId : String) (answer : SatAnswer) (requestedAt : DateTime) :
    Recovery PUnit := do
  let metadataCsv := metadataCsvBytes answer.requestId answer.packages answer.metadata
  let period ← storagePeriod env q
  let key ← metadataKey env q.requesterRfc period answer.requestId (sha256Bytes env metadataCsv)
  let metadataFile ← writeBytesIdempotent env key metadataCsv
  saveRequest env q jobId answer requestedAt metadataFile
  let contents ← Prog.collect answer.packages (fetchPackage env q jobId answer.requestId requestedAt)
  let upserted ← upsertMetadata env q answer.metadata metadataFile.sha256
  flush env
  event env jobId .cfdiParseMetadata .succeeded ("metadata rows=" ++ toString upserted) (.obj [])
  storeXmlPackages env q jobId (contents.foldl assign [])
  event env jobId .cfdiReconcile .succeeded "metadata reconciled" (.obj [])
  markSucceeded env jobId

/-- The second transaction of a job: everything that follows from the answer. -/
def recordAnswer (q : DownloadQuery) (jobId : String) (answer : SatAnswer) (requestedAt : DateTime) :
    Recovery PUnit :=
  withSession do
    recordSteps env q jobId answer requestedAt
    commit env

/-- `_process_sat_request_job`. -/
def processSatRequestJob (q : DownloadQuery) (jobId : String) : Recovery SyncResult := do
  let requestedAt ← now env
  markRunning env jobId requestedAt
  let answer ← askSat env q
  recordAnswer env q jobId answer requestedAt
  pure ⟨jobId, answer.requestId, answer.packages, answer.metadata.length,
    JobStatus.succeeded.value⟩

/-! ## Use cases -/

/-- `_result_for_existing_job`. -/
def resultForExistingJob (job : DownloadJob) : Recovery SyncResult := do
  let request ← select env fun d => d.requests.find? fun r => r.jobId = job.id
  match request with
  | none => pure ⟨job.id, "", [], 0, job.status⟩
  | some request => do
      let packageIds ← select env fun d => (d.packages.filter fun p =>
        p.tenantId = job.tenantId ∧ p.idSolicitud = request.idSolicitud).map (·.idPaquete)
      let count ← select env fun d => (d.ledger.filter fun row => row.tenantId = job.tenantId ∧
        (if packageIds = [] then row.sourcePackageId = "__none__"
        else row.sourcePackageId ∈ packageIds)).length
      pure ⟨job.id, request.idSolicitud, packageIds, count, job.status⟩

/-- The first status of a job. -/
def firstStatus (enqueue : Bool) : JobStatus := if enqueue then .pending else .running

/-- The new job of a query. -/
def newJob (q : DownloadQuery) (enqueue : Bool) (createdAt : DateTime) (jobId : String) :
    DownloadJob where
  id := jobId
  tenantId := q.tenantId
  rfc := env.rt.upper q.requesterRfc
  direction := q.direction.value
  requestType := q.requestType.value
  status := (firstStatus enqueue).value
  criteriaHash := q.criteriaHash env.rt
  payload := .obj (queryPayload env.rt q)
  createdAt := createdAt
  updatedAt := createdAt

/-- Add the job of a query with its first event. -/
def createJob (q : DownloadQuery) (enqueue : Bool) (createdAt : DateTime) : Recovery String := do
  let jobId ← uuid4 env
  add (.job (newJob env q enqueue createdAt jobId))
  event env jobId .satRequest (firstStatus enqueue) "metadata sync requested"
    (.obj (queryPayload env.rt q))
  commit env
  pure jobId

/-- A job of a tenant with a criteria hash. -/
def IsJobOf (tenantId criteriaHash : String) (job : DownloadJob) : Prop :=
  job.tenantId = tenantId ∧ job.criteriaHash = criteriaHash

instance (tenantId criteriaHash : String) (job : DownloadJob) :
    Decidable (IsJobOf tenantId criteriaHash job) := by
  unfold IsJobOf
  infer_instance

/-- The job of a query: known, with the result to return, or just created. -/
inductive JobLookup where
  | replayed (result : SyncResult)
  | created (jobId : String)

/-- Find or create the job of a query. -/
def openJob (q : DownloadQuery) (enqueue : Bool) (createdAt : DateTime) : Recovery JobLookup :=
  withSession do
    let existing ← select env fun d =>
      d.jobs.find? fun job => IsJobOf q.tenantId (q.criteriaHash env.rt) job
    match existing with
    | some job => do
        let result ← resultForExistingJob env job
        pure (.replayed result)
    | none => do
        let jobId ← createJob env q enqueue createdAt
        pure (.created jobId)

/-- Publish the message of a new job. -/
def enqueueJob (q : DownloadQuery) (jobId : String) : Recovery SyncResult := do
  let correlationId ← uuid4 env
  let createdAt ← now env
  publishMessage env {
    queue := .satRequest
    tenantId := q.tenantId
    rfc := q.requesterRfc
    payload := queryPayload env.rt q
    jobId := jobId
    correlationId := correlationId
    createdAt := createdAt }
  pure ⟨jobId, "", [], 0, JobStatus.pending.value⟩

/-- The work of a new job: now, or through the queue. -/
def startJob (q : DownloadQuery) (enqueue : Bool) : JobLookup → Recovery SyncResult
  | .replayed result => pure result
  | .created jobId => if enqueue then enqueueJob env q jobId else processSatRequestJob env q jobId

/-- A query that does not pass its validation is refused. -/
def validated (q : DownloadQuery) : Recovery PUnit :=
  Prog.raiseIf (q.validate ≠ []) (.validation (String.intercalate "; " q.validate))

def syncMetadata (q : DownloadQuery) (live : Bool := false) (enqueue : Bool := false) :
    Recovery SyncResult := do
  Prog.raiseIf (live = true) .live
  validated q
  let createdAt ← now env
  initTenant env q.tenantId q.requesterRfc (some q.tenantId)
  let job ← openJob env q enqueue createdAt
  startJob env q enqueue job

/-- Process one queued SAT request message. -/
def processQueueMessage (message : QueueMessage) : Recovery SyncResult := do
  let q ← Prog.ofExcept (queryFromPayload (Json.toText env.textOf) message.payload)
  processSatRequestJob env q message.jobId

/-- Parse and reconcile one SAT-like metadata TXT/CSV file. -/
def ingestMetadataFile (q : DownloadQuery) (content : Bytes) (delimiter : Option String := none)
    (sourcePackageId : String := "") : Recovery MetadataImportResult := do
  validated q
  initTenant env q.tenantId q.requesterRfc (some q.tenantId)
  let parsed ← Prog.ofExcept
    ((env.parseMetadata content delimiter sourcePackageId).mapError .metadataFile)
  let metadataSha256 := sha256Bytes env content
  let period ← storagePeriod env q
  let name := if sourcePackageId = "" then
      "metadata-" ++ Text.takeChars 12 (q.criteriaHash env.rt)
    else sourcePackageId
  let key ← metadataKey env q.requesterRfc period name metadataSha256
    (metadataExtension content delimiter)
  let file ← writeBytesIdempotent env key content
  let count ← withSession do
    let count ← upsertMetadata env q parsed.entries file.sha256
    commit env
    pure count
  pure ⟨count, parsed.invalidRows.length, parsed.invalidRows, file.sha256, file.path⟩

/-! ## Reconciliation of the ledger -/

/-- `existing and existing.xml_sha256`. -/
def hasXmlSha : Option CfdiDocument → Bool
  | some row => row.xmlSha256.getD "" ≠ ""
  | none => false

/-- One turn of `reconcile`: whether the state of the row changed. -/
def reconcileRow (row : CfdiMetadataLedger) : Recovery Bool := do
  let existing ← select env fun d =>
    d.documents.find? fun doc => IsDocument row.tenantId row.uuid doc
  let newState := if hasXmlSha existing then ReconciliationState.xmlDownloaded.value
    else (Reconciliation.decideMetadataState env.rt (row.status.getD "") (hasXmlSha existing)).state.value
  if row.reconciliationState ≠ newState then do
    let createdAt ← now env
    add (.reconciliationEvent ⟨row.tenantId, row.uuid, some row.reconciliationState, newState,
      "reconcile command", "cli", createdAt⟩)
    update (changeLedger row.tenantId row.uuid row.direction fun row => { row with
      reconciliationState := newState })
    pure true
  else pure false

/-- The ledger rows that a reconciliation visits: all of them without a tenant. -/
def ledgerOf (tenantId : Option String) (d : Db) : List CfdiMetadataLedger :=
  if tenantId.getD "" = "" then d.ledger
  else d.ledger.filter fun row => row.tenantId = tenantId.getD ""

def reconcile (tenantId : Option String := none) : Recovery Nat :=
  withSession do
    let ledgers ← select env (ledgerOf tenantId)
    let changed ← Prog.collect ledgers (reconcileRow env)
    commit env
    pure (changed.filter id).length

end Service

end Recovery

end CfdiVault
