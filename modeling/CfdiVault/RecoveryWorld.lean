import CfdiVault.Library.Program
import CfdiVault.RecoveryDb
import CfdiVault.RecoveryStorage

/-!
# The world of the recovery service

The state a call of the service works on, what it takes from outside, and the
statements its functions are made of: session operations, storage operations, calls
of the SAT client and publications.

Everything outside is adversarial.  The SAT client answers as a function of the
calls made so far, the database may fail at any operation and the disk may fail at
any operation, a failing write leaving a part of the file behind.  Each failure keeps
its origin in `Fault`, because the properties speak of it.
-/

namespace CfdiVault

namespace Recovery

/-- An exception of a recovery call, by origin. -/
inductive Fault where
  /-- The query does not pass its own validation. -/
  | validation (message : String)
  /-- Live SAT access is not implemented. -/
  | live
  /-- The SAT client raised. -/
  | sat (message : String)
  /-- A storage key, a directory, a read or a write. -/
  | storage (message : String)
  /-- A ZIP archive or an XML document could not be read. -/
  | extraction (message : String)
  /-- The queue adapter raised. -/
  | publish (message : String)
  /-- The verification answer does not have the expected shape. -/
  | answer
  /-- A queued payload does not have the expected shape. -/
  | payload
  /-- A metadata file could not be decoded. -/
  | metadataFile (message : String)
  /-- A primary key or unique constraint was violated. -/
  | integrity
  /-- Any other failure of the database. -/
  | database
  deriving DecidableEq

/-- A call of the SAT client. -/
inductive SatCall where
  | submit (query : DownloadQuery)
  | verify (requestId : String)
  | download (packageId : String)
  deriving DecidableEq

/-- An opened ZIP archive: `namelist()` and `read(name)`. -/
structure ZipArchive where
  names : List String
  read : String → Except String Bytes

/-- Parsed CFDI fields persisted by the service. -/
structure ParsedCfdi where
  uuid : String
  issuerRfc : String
  issuerName : String
  receiverRfc : String
  receiverName : String
  issueDate : DateTime
  subtotal : Decimal
  total : Decimal
  currency : String
  comprobanteType : String
  paymentMethod : Option String
  paymentForm : Option String

/-- What version detection, parsing and the concept scan read from one XML. -/
structure CfdiReading where
  parsed : ParsedCfdi
  version : String
  complements : List String
  parserStatus : String
  concepts : List String

/-- One metadata row that could not be converted safely. -/
structure InvalidMetadataRow where
  lineNumber : Nat
  errors : List String
  raw : List (String × String)
  deriving DecidableEq

/-- Parsed metadata entries plus invalid rows kept for user feedback. -/
structure MetadataParseResult where
  entries : List MetadataEntry
  invalidRows : List InvalidMetadataRow

/-- What the service takes from outside.  The clock and the identifier generator
answer by the number of earlier readings, the SAT client by the calls made so far,
the queue by the messages published so far, database and disk by the number of
operations before.  A failing disk operation that writes leaves that many bytes. -/
structure Env where
  rt : Runtime
  storage : LocalStorage
  now : Nat → DateTime
  uuid4 : Nat → String
  submit : List SatCall → DownloadQuery → Except String String
  verify : List SatCall → String → Except String (List (String × Json))
  download : List SatCall → String → Except String Bytes
  publish : List QueueMessage → QueueMessage → Except String Unit
  databaseFails : Nat → Bool
  diskFails : Nat → Option Nat
  /-- `str(value)` of a number with fraction, a list or an object. -/
  textOf : Json → String
  openZip : Bytes → Except String ZipArchive
  readCfdi : Bytes → Except String CfdiReading
  parseMetadata : Bytes → Option String → String → Except String MetadataParseResult

/-- The state of a call: the connection, the stored files, the calls of the SAT
client and the published messages so far, and the readings taken from the host. -/
structure World where
  session : Session Db Row
  files : List (String × Bytes) := []
  sat : List SatCall := []
  queue : List QueueMessage := []
  clock : Nat := 0
  uuids : Nat := 0
  databaseOps : Nat := 0
  diskOps : Nat := 0

/-- The durable database. -/
def World.db (w : World) : Db := w.session.committed

/-- A service without an open transaction. -/
def World.Idle (w : World) : Prop := w.session = Session.idle w.db

/-- A recovery function: it changes the world and may raise. -/
abbrev Recovery := Prog World Fault

/-! ## Statements -/

section Statements

variable (env : Env)

/-- `_now()`. -/
def now : Recovery DateTime :=
  Prog.act fun w => (.ok (env.now w.clock), { w with clock := w.clock + 1 })

/-- `str(uuid4())`. -/
def uuid4 : Recovery String :=
  Prog.act fun w => (.ok (env.uuid4 w.uuids), { w with uuids := w.uuids + 1 })

/-- `with self.session_factory() as session`: the session is closed however its body
ends, and what it did not commit is rolled back. -/
def withSession {α : Type} (body : Recovery α) : Recovery α :=
  Prog.bracket (fun w => { w with session := w.session.reset })
    (fun w => { w with session := w.session.reset }) body

/-- One round trip to the database. -/
def database {α : Type} (step : World → Except Fault α × World) : Recovery α :=
  Prog.act fun w =>
    if env.databaseFails w.databaseOps then
      (.error .database, { w with databaseOps := w.databaseOps + 1 })
    else step { w with databaseOps := w.databaseOps + 1 }

/-- A query.  Rows that wait to be flushed are not seen (`autoflush=False`). -/
def select {α : Type} (view : Db → α) : Recovery α :=
  database env fun w => (.ok (view w.session.working), w)

/-- `session.add(row)`. -/
def add (row : Row) : Recovery PUnit :=
  Prog.act fun w => (.ok ⟨⟩, { w with session := w.session.add row })

/-- Assignments to attributes of loaded rows. -/
def update (change : Db → Db) : Recovery PUnit :=
  Prog.act fun w => (.ok ⟨⟩, { w with session := w.session.update change })

/-- `session.flush()`. -/
def flush : Recovery PUnit :=
  database env fun w =>
    match w.session.flush? insert with
    | some session => (.ok ⟨⟩, { w with session := session })
    | none => (.error .integrity, w)

/-- `session.commit()`. -/
def commit : Recovery PUnit := do
  flush env
  Prog.act fun w => (.ok ⟨⟩, { w with session := w.session.publish })

/-- A disk operation that writes nothing. -/
def disk {α : Type} (step : World → α) : Recovery α :=
  Prog.act fun w =>
    match env.diskFails w.diskOps with
    | some _ => (.error (.storage "disk"), { w with diskOps := w.diskOps + 1 })
    | none => (.ok (step w), { w with diskOps := w.diskOps + 1 })

/-- `path.write_bytes(content)`. -/
def writeFile (path : String) (content : Bytes) : Recovery PUnit :=
  Prog.act fun w =>
    match env.diskFails w.diskOps with
    | some n => (.error (.storage "disk"),
        { w with files := (path, content.take n) :: w.files, diskOps := w.diskOps + 1 })
    | none => (.ok ⟨⟩,
        { w with files := (path, content) :: w.files, diskOps := w.diskOps + 1 })

/-- The file at a path, if there is one. -/
def World.file? (w : World) (path : String) : Option Bytes := w.files.lookup path

def submitRequest (query : DownloadQuery) : Recovery String :=
  Prog.act fun w => ((env.submit w.sat query).mapError .sat,
    { w with sat := w.sat ++ [.submit query] })

def verifyRequest (requestId : String) : Recovery (List (String × Json)) :=
  Prog.act fun w => ((env.verify w.sat requestId).mapError .sat,
    { w with sat := w.sat ++ [.verify requestId] })

def downloadPackage (packageId : String) : Recovery Bytes :=
  Prog.act fun w => ((env.download w.sat packageId).mapError .sat,
    { w with sat := w.sat ++ [.download packageId] })

/-- `self.queue.publish(message)`. -/
def publishMessage (message : QueueMessage) : Recovery PUnit :=
  Prog.act fun w =>
    match env.publish w.queue message with
    | .ok _ => (.ok ⟨⟩, { w with queue := w.queue ++ [message] })
    | .error e => (.error (.publish e), w)

/-! ## Storage -/

/-- `sha256_bytes`. -/
def sha256Bytes (content : Bytes) : String := (env.rt.sha256Bytes content).hex

/-- The steps of a storage method that do not touch the disk. -/
def storageStep {α : Type} (r : Except String α) : Recovery α := Prog.ofExcept (r.mapError .storage)

/-- `_period_key`, with the directories it makes sure of. -/
def periodKey (rfc family : String) (period : DateTime) (filename : String) : Recovery String := do
  let safe ← storageStep (safeRfc env.rt rfc)
  disk env fun _ => ⟨⟩
  let moment := yearMonth period
  pure (String.intercalate "/" [safe, family, moment.1, moment.2, filename])

/-- Build a deterministic key for a metadata TXT/CSV index. -/
def metadataKey (rfc : String) (period : DateTime) (idSolicitud sha256 : String)
    (extension : String := "csv") : Recovery String := do
  let filename ← storageStep (do
    let ext ← safeSegment (String.ofList (extension.toList.dropWhile (· = '.')))
    fileName idSolicitud sha256 ext)
  periodKey env rfc "metadata" period filename

/-- Build a deterministic key for a SAT package ZIP. -/
def packageKey (rfc : String) (period : DateTime) (idPaquete sha256 : String) : Recovery String := do
  let filename ← storageStep (fileName idPaquete sha256 "zip")
  periodKey env rfc "packages" period filename

/-- Build a deterministic key for extracted XML evidence. -/
def xmlKey (rfc : String) (issueDate : DateTime) (uuid sha256 : String) : Recovery String := do
  let filename ← storageStep (fileName (env.rt.upper uuid) sha256 "xml")
  periodKey env rfc "xml" issueDate filename

/-- Write bytes once and reuse an existing identical file. -/
def writeBytesIdempotent (key : String) (content : Bytes) : Recovery StoredFile := do
  let path ← storageStep (env.storage.pathForKey key)
  let digest := sha256Bytes env content
  let existing ← disk env (·.file? path)
  match existing with
  | some bytes => do
      Prog.raiseIf (sha256Bytes env bytes ≠ digest)
        (.storage ("storage collision for " ++ path ++ ": existing SHA-256 differs"))
      pure ⟨path, digest, bytes.length, false⟩
  | none => do
      writeFile env path content
      pure ⟨path, digest, content.length, true⟩

end Statements

end Recovery

end CfdiVault
