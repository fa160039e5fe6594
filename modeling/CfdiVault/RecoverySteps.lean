import CfdiVault.RecoveryService

/-!
# The transaction of a job

What the statements of one transaction may do to the session, said once: the rows it
adds and the assignments it makes are those of `RowWithin` and `ChangeWithin`, for the
tenant of the query and the job.  `Stable J` collects what a property `J` of the session
needs to survive any of them, and each function of the service between the request row
and the commit keeps every stable property.

Nothing but the session occurs in such a property, so the statements that work on files,
on the SAT client or on the clock keep it without further ado.
-/

namespace CfdiVault

namespace Recovery

/-! ## Footprint -/

/-- A row that the transaction may add after the request row. -/
def RowWithin (tenantId jobId : String) : Row → Prop
  | .tenant _ | .job _ | .request _ => False
  | .package row => row.tenantId = tenantId ∧ row.status = "downloaded"
  | .jobEvent row => row.jobId = jobId
  | .reconciliationEvent row => row.tenantId = tenantId
  | .document row => row.tenantId = tenantId
  | .party row => row.tenantId = tenantId
  | .ledger row => row.tenantId = tenantId
  | .evidence row => row.tenantId = tenantId

/-- An assignment to rows that the transaction may make: to a ledger row or a document
of the tenant, keeping its key; to a package row of the tenant, as downloaded; to the
job. -/
inductive ChangeWithin (tenantId jobId : String) : (Db → Db) → Prop
  | ledger (uuid direction : String) (change : CfdiMetadataLedger → CfdiMetadataLedger)
      (hkey : ∀ row, (change row).tenantId = row.tenantId ∧ (change row).uuid = row.uuid ∧
        (change row).direction = row.direction) :
      ChangeWithin tenantId jobId (changeLedger tenantId uuid direction change)
  | document (uuid : String) (change : CfdiDocument → CfdiDocument)
      (hkey : ∀ row, (change row).tenantId = row.tenantId ∧ (change row).uuid = row.uuid) :
      ChangeWithin tenantId jobId (changeDocument tenantId uuid change)
  | package (packageId : String) (change : SatPackageRecord → SatPackageRecord)
      (hkey : ∀ row, (change row).tenantId = row.tenantId ∧ (change row).idPaquete = row.idPaquete ∧
        (change row).status = "downloaded") :
      ChangeWithin tenantId jobId (changePackage tenantId packageId change)
  | job (status : JobStatus) (time : DateTime) :
      ChangeWithin tenantId jobId (setJobStatus jobId status time)

/-- A property of the session that the transaction keeps. -/
structure Stable (tenantId jobId : String) (J : Session Db Row → Prop) : Prop where
  add : ∀ row s, RowWithin tenantId jobId row → J s → J (s.add row)
  update : ∀ change s, ChangeWithin tenantId jobId change → J s → J (s.update change)
  flush : ∀ s t, s.flush? insert = some t → J s → J t

/-- A property of the session that the steps of the transaction keep that leave the packages
alone. -/
structure BooksStable (tenantId jobId : String) (J : Session Db Row → Prop) : Prop where
  add : ∀ row s, RowWithin tenantId jobId row → packageRows row = [] → J s → J (s.add row)
  update : ∀ change s, ChangeWithin tenantId jobId change → (∀ d, (change d).packages = d.packages) →
    J s → J (s.update change)
  flush : ∀ s t, s.flush? insert = some t → J s → J t

theorem Stable.books {tenantId jobId : String} {J : Session Db Row → Prop} (h : Stable tenantId jobId J) :
    BooksStable tenantId jobId J where
  add row s hrow _ := h.add row s hrow
  update change s hchange _ := h.update change s hchange
  flush := h.flush

/-- A property of the session as a property of the world. -/
def OnSession (J : Session Db Row → Prop) (w : World) : Prop := J w.session

/-! ## Statements that leave the session alone -/

section Statements

variable {env : Env} {J : Session Db Row → Prop}

/-- A statement that does not touch the session keeps every property of it. -/
theorem keeps_of_session {α : Type} {f : World → Except Fault α × World}
    (h : ∀ w, (f w).2.session = w.session) : Keeps (OnSession J) (Prog.act f) := by
  refine Keeps.act fun w hw => ?_
  unfold OnSession
  rw [h w]
  exact hw

theorem now_keeps : Keeps (OnSession J) (now env) := keeps_of_session fun _ => rfl

theorem uuid4_keeps : Keeps (OnSession J) (uuid4 env) := keeps_of_session fun _ => rfl

theorem database_keeps {α : Type} {step : World → Except Fault α × World}
    (h : ∀ w, OnSession J w → OnSession J (step w).2) : Keeps (OnSession J) (database env step) := by
  refine Keeps.act fun w hw => ?_
  split
  · exact hw
  · exact h _ hw

theorem select_keeps {α : Type} {view : Db → α} : Keeps (OnSession J) (select env view) :=
  database_keeps fun _ hw => hw

theorem disk_keeps {α : Type} {step : World → α} : Keeps (OnSession J) (disk env step) := by
  refine keeps_of_session fun w => ?_
  cases env.diskFails w.diskOps <;> rfl

theorem writeFile_keeps {path : String} {content : Bytes} :
    Keeps (OnSession J) (writeFile env path content) := by
  refine keeps_of_session fun w => ?_
  cases env.diskFails w.diskOps <;> rfl

theorem submitRequest_keeps {q : DownloadQuery} : Keeps (OnSession J) (submitRequest env q) :=
  keeps_of_session fun _ => rfl

theorem verifyRequest_keeps {requestId : String} :
    Keeps (OnSession J) (verifyRequest env requestId) :=
  keeps_of_session fun _ => rfl

theorem downloadPackage_keeps {packageId : String} :
    Keeps (OnSession J) (downloadPackage env packageId) :=
  keeps_of_session fun _ => rfl

theorem publishMessage_keeps {message : QueueMessage} :
    Keeps (OnSession J) (publishMessage env message) := by
  refine keeps_of_session fun w => ?_
  cases env.publish w.queue message <;> rfl

theorem storageStep_keeps {α : Type} {r : Except String α} :
    Keeps (OnSession J) (storageStep r) := Keeps.ofExcept _

theorem extract_keeps {α : Type} {r : Except String α} : Keeps (OnSession J) (extract r) :=
  Keeps.ofExcept _

theorem storagePeriod_keeps {q : DownloadQuery} : Keeps (OnSession J) (storagePeriod env q) := by
  unfold storagePeriod
  cases q.period with
  | none => exact now_keeps
  | some period => exact Keeps.pure _

theorem periodKey_keeps {rfc family filename : String} {period : DateTime} :
    Keeps (OnSession J) (periodKey env rfc family period filename) :=
  Keeps.bind storageStep_keeps fun _ => Keeps.bind disk_keeps fun _ => Keeps.pure _

theorem metadataKey_keeps {rfc id sha256 extension : String} {period : DateTime} :
    Keeps (OnSession J) (metadataKey env rfc period id sha256 extension) :=
  Keeps.bind storageStep_keeps fun _ => periodKey_keeps

theorem packageKey_keeps {rfc id sha256 : String} {period : DateTime} :
    Keeps (OnSession J) (packageKey env rfc period id sha256) :=
  Keeps.bind storageStep_keeps fun _ => periodKey_keeps

theorem xmlKey_keeps {rfc uuid sha256 : String} {issueDate : DateTime} :
    Keeps (OnSession J) (xmlKey env rfc issueDate uuid sha256) :=
  Keeps.bind storageStep_keeps fun _ => periodKey_keeps

theorem writeBytesIdempotent_keeps {key : String} {content : Bytes} :
    Keeps (OnSession J) (writeBytesIdempotent env key content) := by
  refine Keeps.bind storageStep_keeps fun path => Keeps.bind disk_keeps fun existing => ?_
  cases existing with
  | none => exact Keeps.bind writeFile_keeps fun _ => Keeps.pure _
  | some bytes => exact Keeps.bind (Keeps.raiseIf _ _) fun _ => Keeps.pure _

theorem storedContent_keeps {existing : Option SatPackageRecord} :
    Keeps (OnSession J) (storedContent env existing) := by
  unfold storedContent
  cases downloadedKey existing with
  | none => exact Keeps.pure _
  | some key => exact disk_keeps

theorem askSat_keeps {q : DownloadQuery} : Keeps (OnSession J) (askSat env q) :=
  Keeps.bind submitRequest_keeps fun _ => Keeps.bind verifyRequest_keeps fun _ => Keeps.ofExcept _

end Statements

/-! ## Statements of the transaction -/

section Transaction

variable {env : Env} {tenantId jobId : String} {J : Session Db Row → Prop}

theorem add_keeps (hJ : Stable tenantId jobId J) {row : Row} (hrow : RowWithin tenantId jobId row) :
    Keeps (OnSession J) (add row) :=
  Keeps.act fun w hw => hJ.add row w.session hrow hw

theorem update_keeps (hJ : Stable tenantId jobId J) {change : Db → Db}
    (hchange : ChangeWithin tenantId jobId change) : Keeps (OnSession J) (update change) :=
  Keeps.act fun w hw => hJ.update change w.session hchange hw

theorem addBook_keeps (hJ : BooksStable tenantId jobId J) {row : Row} (hrow : RowWithin tenantId jobId row)
    (hbook : packageRows row = []) : Keeps (OnSession J) (add row) :=
  Keeps.act fun w hw => hJ.add row w.session hrow hbook hw

theorem updateBook_keeps (hJ : BooksStable tenantId jobId J) {change : Db → Db}
    (hchange : ChangeWithin tenantId jobId change) (hbook : ∀ d, (change d).packages = d.packages) :
    Keeps (OnSession J) (update change) :=
  Keeps.act fun w hw => hJ.update change w.session hchange hbook hw

theorem flush_keeps (hJ : BooksStable tenantId jobId J) : Keeps (OnSession J) (flush env) := by
  refine database_keeps fun w hw => ?_
  cases hflush : w.session.flush? insert with
  | none => exact hw
  | some s => exact hJ.flush w.session s hflush hw

theorem event_keeps (hJ : BooksStable tenantId jobId J) {queueName : QueueName} {status : JobStatus}
    {message : String} {payload : Json} :
    Keeps (OnSession J) (event env jobId queueName status message payload) :=
  Keeps.bind uuid4_keeps fun _ => Keeps.bind now_keeps fun _ => addBook_keeps hJ rfl rfl

theorem parties_keeps (hJ : BooksStable tenantId jobId J)
    {uuid issuerRfc issuerName receiverRfc receiverName : String} :
    Keeps (OnSession J)
      (Prog.each (parties tenantId uuid issuerRfc issuerName receiverRfc receiverName) add) := by
  refine Keeps.each fun row hrow => ?_
  rw [parties, List.mem_cons, List.mem_singleton] at hrow
  rcases hrow with rfl | rfl <;> exact addBook_keeps hJ rfl rfl

variable {q : DownloadQuery}

theorem saveLedger_keeps (hJ : BooksStable q.tenantId jobId J) {entry : MetadataEntry}
    {metadataSha256 newState : String} {time : DateTime} {existing : Option CfdiMetadataLedger} :
    Keeps (OnSession J) (saveLedger q entry metadataSha256 newState time existing) := by
  unfold saveLedger
  cases existing with
  | none => exact Keeps.bind (addBook_keeps hJ rfl rfl) fun _ => addBook_keeps hJ rfl rfl
  | some row =>
      refine Keeps.bind (updateBook_keeps hJ (.ledger _ _ _ fun _ => ⟨rfl, rfl, rfl⟩) fun _ => rfl) fun _ => ?_
      split
      · exact addBook_keeps hJ rfl rfl
      · exact Keeps.pure _

theorem saveMetadataDocument_keeps (hJ : BooksStable q.tenantId jobId J) {entry : MetadataEntry}
    {newState : String} {time : DateTime} {existing : Option CfdiDocument} :
    Keeps (OnSession J) (saveMetadataDocument env q entry newState time existing) := by
  unfold saveMetadataDocument
  cases existing with
  | none => exact Keeps.bind (addBook_keeps hJ rfl rfl) fun _ => parties_keeps hJ
  | some row => exact updateBook_keeps hJ (.document _ _ fun _ => ⟨rfl, rfl⟩) fun _ => rfl

theorem upsertEntry_keeps (hJ : BooksStable q.tenantId jobId J) {metadataSha256 : String}
    {time : DateTime} {entry : MetadataEntry} :
    Keeps (OnSession J) (upsertEntry env q metadataSha256 time entry) := by
  refine Keeps.bind select_keeps fun existing => Keeps.bind select_keeps fun hasXml => ?_
  refine Keeps.bind (saveLedger_keeps hJ) fun _ => ?_
  split
  · exact Keeps.bind select_keeps fun _ => saveMetadataDocument_keeps hJ
  · exact Keeps.pure _

theorem upsertMetadata_keeps (hJ : BooksStable q.tenantId jobId J) {metadata : List MetadataEntry}
    {metadataSha256 : String} :
    Keeps (OnSession J) (upsertMetadata env q metadata metadataSha256) :=
  Keeps.bind now_keeps fun _ =>
    Keeps.bind (Keeps.each fun _ _ => upsertEntry_keeps hJ) fun _ => Keeps.pure _

theorem saveXmlDocument_keeps (hJ : BooksStable q.tenantId jobId J) {reading : CfdiReading}
    {packageId uuid xmlSha256 : String} {existing : Option CfdiDocument} :
    Keeps (OnSession J) (saveXmlDocument env q reading packageId uuid xmlSha256 existing) := by
  unfold saveXmlDocument
  cases existing with
  | none =>
      exact Keeps.bind now_keeps fun _ => Keeps.bind now_keeps fun _ =>
        Keeps.bind (addBook_keeps hJ rfl rfl) fun _ => parties_keeps hJ
  | some row =>
      exact Keeps.bind now_keeps fun _ => updateBook_keeps hJ (.document _ _ fun _ => ⟨rfl, rfl⟩) fun _ => rfl

theorem saveEvidence_keeps (hJ : BooksStable q.tenantId jobId J) {reading : CfdiReading}
    {packageId uuid xmlSha256 : String} {stored : StoredFile} {recorded : Bool} :
    Keeps (OnSession J) (saveEvidence env q reading packageId uuid xmlSha256 stored recorded) := by
  unfold saveEvidence
  split
  · exact Keeps.pure _
  · exact Keeps.bind now_keeps fun _ => addBook_keeps hJ rfl rfl

theorem markXmlStored_keeps (hJ : BooksStable q.tenantId jobId J) {uuid : String}
    {existing : Option CfdiMetadataLedger} :
    Keeps (OnSession J) (markXmlStored env q uuid existing) := by
  unfold markXmlStored
  cases existing with
  | none => exact Keeps.pure _
  | some row =>
      refine Keeps.bind (updateBook_keeps hJ (.ledger _ _ _ fun _ => ⟨rfl, rfl, rfl⟩) fun _ => rfl) fun _ => ?_
      split
      · exact Keeps.bind now_keeps fun _ => addBook_keeps hJ rfl rfl
      · exact Keeps.pure _

theorem storeXmlMember_keeps (hJ : BooksStable q.tenantId jobId J) {packageId member : String}
    {archive : ZipArchive} :
    Keeps (OnSession J) (storeXmlMember env q packageId archive member) := by
  refine Keeps.bind extract_keeps fun _ => Keeps.bind extract_keeps fun _ => ?_
  refine Keeps.bind xmlKey_keeps fun _ => Keeps.bind writeBytesIdempotent_keeps fun _ => ?_
  refine Keeps.bind select_keeps fun _ => Keeps.bind (saveXmlDocument_keeps hJ) fun _ => ?_
  refine Keeps.bind select_keeps fun _ => Keeps.bind (saveEvidence_keeps hJ) fun _ => ?_
  exact Keeps.bind select_keeps fun _ => markXmlStored_keeps hJ

theorem storeXmlPackage_keeps (hJ : BooksStable q.tenantId jobId J) {packageId : String}
    {content : Bytes} : Keeps (OnSession J) (storeXmlPackage env q packageId content) :=
  Keeps.bind extract_keeps fun _ =>
    Keeps.bind (Keeps.each fun _ _ => storeXmlMember_keeps hJ) fun _ => Keeps.pure _

theorem storeXmlPackages_keeps (hJ : BooksStable q.tenantId jobId J) {contents : List (String × Bytes)} :
    Keeps (OnSession J) (storeXmlPackages env q jobId contents) := by
  unfold storeXmlPackages
  split
  · exact Keeps.bind (Keeps.collect fun _ _ => storeXmlPackage_keeps hJ) fun _ => event_keeps hJ
  · exact Keeps.pure _

theorem savePackage_keeps (hJ : Stable q.tenantId jobId J) {requestId packageId : String}
    {requestedAt : DateTime} {file : StoredFile} {existing : Option SatPackageRecord} :
    Keeps (OnSession J) (savePackage env q requestId packageId requestedAt file existing) := by
  unfold savePackage
  cases existing with
  | none =>
      exact Keeps.bind now_keeps fun _ => Keeps.bind now_keeps fun _ => add_keeps hJ ⟨rfl, rfl⟩
  | some row =>
      exact Keeps.bind now_keeps fun _ => Keeps.bind now_keeps fun _ =>
        update_keeps hJ (.package _ _ fun _ => ⟨rfl, rfl, rfl⟩)

theorem downloadAndStore_keeps (hJ : Stable q.tenantId jobId J) {requestId packageId : String}
    {requestedAt : DateTime} {existing : Option SatPackageRecord} :
    Keeps (OnSession J)
      (downloadAndStore env q jobId requestId packageId requestedAt existing) := by
  refine Keeps.bind downloadPackage_keeps fun _ => Keeps.bind storagePeriod_keeps fun _ => ?_
  refine Keeps.bind packageKey_keeps fun _ => Keeps.bind writeBytesIdempotent_keeps fun _ => ?_
  refine Keeps.bind (savePackage_keeps hJ) fun _ => ?_
  exact Keeps.bind (event_keeps hJ.books) fun _ => Keeps.pure _

theorem fetchPackage_keeps (hJ : Stable q.tenantId jobId J) {requestId packageId : String}
    {requestedAt : DateTime} :
    Keeps (OnSession J) (fetchPackage env q jobId requestId requestedAt packageId) := by
  refine Keeps.bind select_keeps fun _ => Keeps.bind storedContent_keeps fun stored => ?_
  cases stored with
  | none => exact Keeps.bind (downloadAndStore_keeps hJ) fun _ => Keeps.pure _
  | some content => exact Keeps.bind (event_keeps hJ.books) fun _ => Keeps.pure _

theorem markSucceeded_keeps (hJ : BooksStable q.tenantId jobId J) :
    Keeps (OnSession J) (markSucceeded env jobId) := by
  refine Keeps.bind select_keeps fun job => ?_
  split
  · exact Keeps.bind now_keeps fun _ => updateBook_keeps hJ (.job _ _) fun _ => rfl
  · exact Keeps.pure _

theorem saveRequest_keeps (hJ : Stable tenantId jobId J)
    (hrequest : ∀ row s, J s → J (s.add (.request row))) {answer : SatAnswer}
    {requestedAt : DateTime} {file : StoredFile} :
    Keeps (OnSession J) (saveRequest env q jobId answer requestedAt file) := by
  refine Keeps.bind now_keeps fun _ => Keeps.bind ?_ fun _ => event_keeps hJ.books
  exact Keeps.act fun w hw => hrequest _ w.session hw

/-- The whole transaction keeps a stable property that new request rows keep as well. -/
theorem recordSteps_keeps (hJ : Stable q.tenantId jobId J)
    (hrequest : ∀ row s, J s → J (s.add (.request row))) {answer : SatAnswer}
    {requestedAt : DateTime} :
    Keeps (OnSession J) (recordSteps env q jobId answer requestedAt) := by
  refine Keeps.bind storagePeriod_keeps fun _ => Keeps.bind metadataKey_keeps fun _ => ?_
  refine Keeps.bind writeBytesIdempotent_keeps fun _ => ?_
  refine Keeps.bind (saveRequest_keeps hJ hrequest) fun _ => ?_
  refine Keeps.bind (Keeps.collect fun _ _ => fetchPackage_keeps hJ) fun _ => ?_
  refine Keeps.bind (upsertMetadata_keeps hJ.books) fun _ => Keeps.bind (flush_keeps hJ.books) fun _ => ?_
  refine Keeps.bind (event_keeps hJ.books) fun _ => Keeps.bind (storeXmlPackages_keeps hJ.books) fun _ => ?_
  exact Keeps.bind (event_keeps hJ.books) fun _ => markSucceeded_keeps hJ.books

end Transaction

/-! ## Sessions -/

section Sessions

variable {env : Env}

/-- The durable database of a connection without an open transaction. -/
theorem db_of_idle {w : World} {d : Db} (h : w.session = Session.idle d) : w.db = d := by
  rw [World.db, h]
  rfl

/-- The durable database is not touched before the commit. -/
theorem committed_stable (tenantId jobId : String) (d : Db) :
    Stable tenantId jobId fun s => s.committed = d where
  add _ _ _ h := h
  update _ _ _ h := h
  flush s t hflush h := by
    obtain ⟨e, -, rfl⟩ := Session.flush?_eq_some.mp hflush
    exact h

theorem exec_select {α : Type} (view : Db → α) (w : World) :
    (select env view).exec w =
      if env.databaseFails w.databaseOps then
        (.error .database, { w with databaseOps := w.databaseOps + 1 })
      else (.ok (view w.session.working), { w with databaseOps := w.databaseOps + 1 }) := rfl

theorem exec_flush (w : World) :
    (flush env).exec w =
      if env.databaseFails w.databaseOps then
        (.error .database, { w with databaseOps := w.databaseOps + 1 })
      else match w.session.flush? insert with
        | some session => (.ok ⟨⟩, { w with session := session, databaseOps := w.databaseOps + 1 })
        | none => (.error .integrity, { w with databaseOps := w.databaseOps + 1 }) := rfl

/-- A commit that raises leaves the durable database alone; one that returns has made
the flushed working copy durable. -/
theorem commit_spec {P : Session Db Row → Prop} {Q : Db → Prop} {d : Db}
    (hpublish : ∀ s t, P s → s.flush? insert = some t → Q t.working) :
    Spec (OnSession fun s => P s ∧ s.committed = d) (commit env)
      (fun _ w => Q w.db) (fun _ w => w.db = d) := by
  intro w hw
  unfold commit
  by_cases hfails : env.databaseFails w.databaseOps
  · rw [Prog.exec_bind, exec_flush, if_pos hfails]
    exact hw.2
  · rw [Prog.exec_bind, exec_flush, if_neg hfails]
    cases hflush : w.session.flush? insert with
    | none => exact hw.2
    | some t => exact hpublish w.session t hw.1 hflush

/-- A session that raises before its commit changes nothing durable, and one that
returns has made durable what its body committed. -/
theorem withSession_holds {α : Type} {body : Recovery α} {w : World} {d : Db} {Q : α → Db → Prop}
    (hw : w.db = d)
    (hbody : Holds (fun a w => Q a w.db) (fun _ w => w.db = d)
      (body.exec { w with session := Session.idle d })) :
    Holds (fun a w => w.session = Session.idle w.db ∧ Q a w.db)
      (fun _ w => w.session = Session.idle d) ((withSession body).exec w) := by
  subst hw
  change Holds (fun a w => Q a w.db) _ (body.exec { w with session := w.session.reset }) at hbody
  unfold withSession
  rw [Prog.exec_bracket]
  rcases hx : body.exec { w with session := w.session.reset } with ⟨e | a, t⟩
  · rw [hx] at hbody
    exact congrArg Session.idle hbody
  · rw [hx] at hbody
    exact ⟨rfl, hbody⟩

theorem withSession_spec {α : Type} {body : Recovery α} {d : Db} {Q : α → Db → Prop}
    (hbody : Spec (fun w => w.session = Session.idle d) body (fun a w => Q a w.db)
      (fun _ w => w.db = d)) :
    Spec (fun w => w.db = d) (withSession body) (fun a w => w.session = Session.idle w.db ∧ Q a w.db)
      (fun _ w => w.session = Session.idle d) :=
  fun _ hw => withSession_holds hw (hbody _ rfl)

end Sessions

/-! ## Statements that leave the outside alone -/

/-- A property of the world that session, clock and database counter do not enter. -/
def Outside (K : World → Prop) : Prop :=
  ∀ w session clock databaseOps, K w →
    K { w with session := session, clock := clock, databaseOps := databaseOps }

section Outside

variable {env : Env} {K : World → Prop}

theorem now_outside (hK : Outside K) : Keeps K (now env) :=
  Keeps.act fun w hw => hK w w.session (w.clock + 1) w.databaseOps hw

theorem database_outside (hK : Outside K) {α : Type} {step : World → Except Fault α × World}
    (h : ∀ w, K w → K (step w).2) : Keeps K (database env step) := by
  refine Keeps.act fun w hw => ?_
  have hcount := hK w w.session w.clock (w.databaseOps + 1) hw
  split
  · exact hcount
  · exact h _ hcount

theorem select_outside (hK : Outside K) {α : Type} {view : Db → α} :
    Keeps K (select env view) :=
  database_outside hK fun _ hw => hw

theorem add_outside (hK : Outside K) {row : Row} : Keeps K (add row) :=
  Keeps.act fun w hw => hK w (w.session.add row) w.clock w.databaseOps hw

theorem update_outside (hK : Outside K) {change : Db → Db} : Keeps K (update change) :=
  Keeps.act fun w hw => hK w (w.session.update change) w.clock w.databaseOps hw

theorem flush_outside (hK : Outside K) : Keeps K (flush env) := by
  refine database_outside hK fun w hw => ?_
  cases w.session.flush? insert with
  | none => exact hw
  | some session => exact hK w session w.clock w.databaseOps hw

theorem commit_outside (hK : Outside K) : Keeps K (commit env) :=
  Keeps.bind (flush_outside hK) fun _ =>
    Keeps.act fun w hw => hK w w.session.publish w.clock w.databaseOps hw

theorem withSession_outside (hK : Outside K) {α : Type} {body : Recovery α} (hbody : Keeps K body) :
    Keeps K (withSession body) :=
  Keeps.bracket hbody (fun w hw => hK w w.session.reset w.clock w.databaseOps hw)
    fun w hw => hK w w.session.reset w.clock w.databaseOps hw

theorem markRunning_outside (hK : Outside K) {jobId : String} {time : DateTime} :
    Keeps K (markRunning env jobId time) := by
  refine withSession_outside hK (Keeps.bind (select_outside hK) fun job => ?_)
  split
  · exact Keeps.bind (update_outside hK) fun _ => commit_outside hK
  · exact Keeps.pure _

theorem initTenant_outside (hK : Outside K) {tenantId rfc : String} {name : Option String} :
    Keeps K (initTenant env tenantId rfc name) := by
  refine Keeps.bind (now_outside hK) fun createdAt => withSession_outside hK ?_
  refine Keeps.bind (select_outside hK) fun tenant => Keeps.bind ?_ fun _ => commit_outside hK
  cases tenant with
  | none => exact add_outside hK
  | some row => exact update_outside hK

theorem resultForExistingJob_outside (hK : Outside K) {job : DownloadJob} :
    Keeps K (resultForExistingJob env job) := by
  refine Keeps.bind (select_outside hK) fun request => ?_
  cases request with
  | none => exact Keeps.pure _
  | some row =>
      exact Keeps.bind (select_outside hK) fun _ => Keeps.bind (select_outside hK) fun _ =>
        Keeps.pure _

end Outside

end Recovery

end CfdiVault
