import CfdiVault.RecoveryRuns

/-!
# What calls never take away

The service deletes nothing.  Whatever a call does, and wherever it stops, the requests, the events, the
parties and the evidence that were durable before it are the first ones afterwards, unchanged, and the
other tables keep their rows, in their places and under their keys (`grows_later`).  Jobs keep what was
asked of them; only their status moves on.
-/

namespace CfdiVault

namespace Recovery

/-! ## Growth -/

/-- A job without its progress. -/
def DownloadJob.intent (job : DownloadJob) : DownloadJob := { job with status := "", updatedAt := job.createdAt }

/-- A database with everything that another one held: logs that were only appended to, and tables whose
rows kept their keys. -/
structure Grows (d e : Db) : Prop where
  tenants : d.tenants.map (·.id) <+: e.tenants.map (·.id)
  jobs : d.jobs.map (·.intent) <+: e.jobs.map (·.intent)
  requests : d.requests <+: e.requests
  packages : d.packages.map (fun row => (row.tenantId, row.idPaquete)) <+:
    e.packages.map fun row => (row.tenantId, row.idPaquete)
  jobEvents : d.jobEvents <+: e.jobEvents
  reconciliationEvents : d.reconciliationEvents <+: e.reconciliationEvents
  documents : d.documents.map (fun row => (row.tenantId, row.uuid)) <+:
    e.documents.map fun row => (row.tenantId, row.uuid)
  parties : d.parties <+: e.parties
  ledger : d.ledger.map (fun row => (row.tenantId, row.uuid, row.direction)) <+:
    e.ledger.map fun row => (row.tenantId, row.uuid, row.direction)
  evidence : d.evidence <+: e.evidence

namespace Grows

variable {d e f : Db}

theorem refl (d : Db) : Grows d d := by
  constructor <;> exact List.prefix_rfl

theorem trans (h : Grows d e) (h' : Grows e f) : Grows d f where
  tenants := h.tenants.trans h'.tenants
  jobs := h.jobs.trans h'.jobs
  requests := h.requests.trans h'.requests
  packages := h.packages.trans h'.packages
  jobEvents := h.jobEvents.trans h'.jobEvents
  reconciliationEvents := h.reconciliationEvents.trans h'.reconciliationEvents
  documents := h.documents.trans h'.documents
  parties := h.parties.trans h'.parties
  ledger := h.ledger.trans h'.ledger
  evidence := h.evidence.trans h'.evidence

/-- A row behind the others. -/
theorem append (d : Db) (row : Row) : Grows d (append d row) := by
  cases row <;> constructor <;> simp [Recovery.append]

end Grows

/-- New values that keep the keys of the rows leave the keys of the table. -/
theorem prefix_of_keys {α κ : Type} {key : α → κ} {change : α → α} (hkey : ∀ row, key (change row) = key row)
    (rows : List α) : rows.map key <+: (rows.map change).map key := by
  have hsame : (rows.map change).map key = rows.map key := by
    rw [List.map_map]
    exact List.map_congr_left fun row _ => hkey row
  exact hsame ▸ List.prefix_rfl

/-- Assignments to rows of the transaction keep the keys. -/
theorem ChangeWithin.grows {tenantId jobId : String} {change : Db → Db} (h : ChangeWithin tenantId jobId change)
    (d : Db) : Grows d (change d) := by
  cases h with
  | ledger uuid direction change hkey =>
      refine { Grows.refl d with ledger := ?_ }
      refine prefix_of_keys (fun row => ?_) d.ledger
      split
      · rw [(hkey row).1, (hkey row).2.1, (hkey row).2.2]
      · rfl
  | document uuid change hkey =>
      refine { Grows.refl d with documents := ?_ }
      refine prefix_of_keys (fun row => ?_) d.documents
      split
      · rw [(hkey row).1, (hkey row).2]
      · rfl
  | package packageId change hkey =>
      refine { Grows.refl d with packages := ?_ }
      refine prefix_of_keys (fun row => ?_) d.packages
      split
      · rw [(hkey row).1, (hkey row).2.1]
      · rfl
  | job status time =>
      refine { Grows.refl d with jobs := ?_ }
      refine prefix_of_keys (fun row => ?_) d.jobs
      split <;> rfl

/-- A tenant that is brought up to date keeps its id. -/
theorem grows_renameTenant (tenantId rfc : String) (name : Option String) (d : Db) :
    Grows d (renameTenant tenantId rfc name d) := by
  refine { Grows.refl d with tenants := ?_ }
  refine prefix_of_keys (fun row => ?_) d.tenants
  split <;> rfl

/-! ## Transactions -/

/-- A connection to a database that has grown, and whose open transaction lets it grow further. -/
structure GrownFrom (d : Db) (s : Session Db Row) : Prop where
  committed : Grows d s.committed
  working : Grows d s.working

theorem GrownFrom.flush {d : Db} {s t : Session Db Row} (h : GrownFrom d s) (hflush : s.flush? insert = some t) :
    GrownFrom d t := by
  obtain ⟨e, he, rfl⟩ := Session.flush?_eq_some.mp hflush
  refine ⟨h.committed, Session.insertAll_keeps (I := Grows d) ?_ he h.working⟩
  rintro row - a b ha hab
  obtain ⟨-, rfl⟩ := insert_eq_some.mp hab
  exact ha.trans (.append a row)

theorem grownFrom_stable (tenantId jobId : String) (d : Db) : Stable tenantId jobId (GrownFrom d) where
  add _ _ _ h := ⟨h.committed, h.working⟩
  update _ s hchange h := ⟨h.committed, h.working.trans (hchange.grows s.working)⟩
  flush _ _ hflush h := h.flush hflush

section Programs

variable {env : Env} {q : DownloadQuery} {jobId : String} {d : Db}

theorem add_grows (row : Row) : Keeps (OnSession (GrownFrom d)) (add row) :=
  Keeps.act fun _ hw => ⟨hw.committed, hw.working⟩

theorem update_grows {change : Db → Db} (hchange : ∀ e, Grows e (change e)) :
    Keeps (OnSession (GrownFrom d)) (update change) :=
  Keeps.act fun w hw => ⟨hw.committed, hw.working.trans (hchange w.session.working)⟩

theorem commit_grows : Keeps (OnSession (GrownFrom d)) (commit env) := by
  refine Keeps.bind (flush_keeps (grownFrom_stable "" "" d).books) fun _ => ?_
  exact Keeps.act fun _ hw => ⟨hw.working, hw.working⟩

/-- A connection whose durable database has grown. -/
def Durable (d : Db) (s : Session Db Row) : Prop := Grows d s.committed

/-- A session starts from the durable database and ends with it. -/
theorem withSession_grows {α : Type} {body : Recovery α} (hbody : Keeps (OnSession (GrownFrom d)) body) :
    Keeps (OnSession (Durable d)) (withSession body) :=
  Keeps.bracket hbody (fun _ hw => ⟨hw, hw⟩) fun _ hw => hw.committed

theorem initTenant_grows {tenantId rfc : String} {name : Option String} :
    Keeps (OnSession (Durable d)) (initTenant env tenantId rfc name) := by
  refine Keeps.bind now_keeps fun createdAt => withSession_grows (Keeps.bind select_keeps fun tenant => ?_)
  refine Keeps.bind ?_ fun _ => commit_grows
  cases tenant with
  | none => exact add_grows _
  | some row => exact update_grows (grows_renameTenant _ _ _)

theorem event_grows {queueName : QueueName} {status : JobStatus} {message : String} {payload : Json} :
    Keeps (OnSession (GrownFrom d)) (event env jobId queueName status message payload) :=
  event_keeps (grownFrom_stable "" jobId d).books

theorem openJob_grows {enqueue : Bool} {createdAt : DateTime} :
    Keeps (OnSession (Durable d)) (openJob env q enqueue createdAt) := by
  refine withSession_grows (Keeps.bind select_keeps fun existing => ?_)
  cases existing with
  | none =>
      refine Keeps.bind (Keeps.bind uuid4_keeps fun jobId => ?_) fun _ => Keeps.pure _
      refine Keeps.bind (add_grows _) fun _ => Keeps.bind event_grows fun _ => ?_
      exact Keeps.bind commit_grows fun _ => Keeps.pure _
  | some job => exact Keeps.bind resultForExistingJob_keeps fun _ => Keeps.pure _

theorem processSatRequestJob_grows : Keeps (OnSession (Durable d)) (processSatRequestJob env q jobId) := by
  have hstable := grownFrom_stable q.tenantId jobId d
  refine Keeps.bind now_keeps fun requestedAt => Keeps.bind ?_ fun _ => Keeps.bind askSat_keeps fun answer => ?_
  · refine withSession_grows (Keeps.bind select_keeps fun job => ?_)
    split
    · exact Keeps.bind (update_keeps hstable (.job _ _)) fun _ => commit_grows
    · exact Keeps.pure _
  · refine Keeps.bind (withSession_grows (Keeps.bind ?_ fun _ => commit_grows)) fun _ => Keeps.pure _
    exact recordSteps_keeps hstable fun _ _ h => ⟨h.committed, h.working⟩

theorem syncMetadata_grows {live enqueue : Bool} :
    Keeps (OnSession (Durable d)) (syncMetadata env q live enqueue) := by
  refine Keeps.bind (Keeps.raiseIf _ _) fun _ => Keeps.bind (Keeps.raiseIf _ _) fun _ => ?_
  refine Keeps.bind now_keeps fun createdAt => Keeps.bind initTenant_grows fun _ => ?_
  refine Keeps.bind openJob_grows fun job => ?_
  cases job with
  | replayed result => exact Keeps.pure _
  | created jobId =>
      change Keeps _ (if enqueue then enqueueJob env q jobId else processSatRequestJob env q jobId)
      split
      · exact enqueueJob_keeps
      · exact processSatRequestJob_grows

theorem processQueueMessage_grows {message : QueueMessage} :
    Keeps (OnSession (Durable d)) (processQueueMessage env message) :=
  Keeps.bind (Keeps.ofExcept _) fun _ => processSatRequestJob_grows

theorem ingestMetadataFile_grows {content : Bytes} {delimiter : Option String} {sourcePackageId : String} :
    Keeps (OnSession (Durable d)) (ingestMetadataFile env q content delimiter sourcePackageId) := by
  refine Keeps.bind (Keeps.raiseIf _ _) fun _ => Keeps.bind initTenant_grows fun _ => ?_
  refine Keeps.bind (Keeps.ofExcept _) fun parsed => Keeps.bind storagePeriod_keeps fun period => ?_
  refine Keeps.bind metadataKey_keeps fun key => Keeps.bind writeBytesIdempotent_keeps fun file => ?_
  refine Keeps.bind (withSession_grows (Keeps.bind ?_ fun count => ?_)) fun _ => Keeps.pure _
  · exact upsertMetadata_keeps (grownFrom_stable q.tenantId "" d).books
  · exact Keeps.bind commit_grows fun _ => Keeps.pure _

theorem reconcileRow_grows {row : CfdiMetadataLedger} : Keeps (OnSession (GrownFrom d)) (reconcileRow env row) := by
  refine Keeps.bind select_keeps fun existing => ?_
  dsimp only
  generalize (if hasXmlSha existing = true then ReconciliationState.xmlDownloaded.value else _) = newState
  have hchange : ChangeWithin row.tenantId "" (changeLedger row.tenantId row.uuid row.direction fun row =>
      { row with reconciliationState := newState }) := .ledger _ _ _ fun _ => ⟨rfl, rfl, rfl⟩
  split
  · refine Keeps.bind now_keeps fun createdAt => Keeps.bind (add_grows _) fun _ => ?_
    exact Keeps.bind (update_grows hchange.grows) fun _ => Keeps.pure _
  · exact Keeps.pure _

theorem reconcile_grows {tenantId : Option String} : Keeps (OnSession (Durable d)) (reconcile env tenantId) := by
  refine withSession_grows (Keeps.bind select_keeps fun ledgers => ?_)
  refine Keeps.bind (Keeps.collect fun _ _ => reconcileRow_grows) fun changed => ?_
  exact Keeps.bind commit_grows fun _ => Keeps.pure _

end Programs

/-! ## Runs of calls -/

/-- A call, however it ends, leaves a durable database that has grown. -/
theorem Call.grows (env : Env) (w : World) (call : Call) : Grows w.db (call.world env w).db := by
  have hstart : OnSession (Durable w.db) w := Grows.refl w.db
  cases call with
  | sync q live enqueue => exact syncMetadata_grows.final hstart
  | message message => exact processQueueMessage_grows.final hstart
  | ingest q content delimiter sourcePackageId => exact ingestMetadataFile_grows.final hstart
  | reconcile tenantId => exact reconcile_grows.final hstart

/-- The databases that calls lead to from a given one, in any order and number, each call in a world of
its own and each of them returning or raising at any of its operations. -/
inductive Later (d : Db) : Db → Prop
  | here : Later d d
  | call {env : Env} {w : World} (h : Later d w.db) (call : Call) : Later d (call.world env w).db

/-- No run of calls loses a row: requests, events, parties and evidence are only appended to, and the rows
of the other tables keep their places, their keys and, for a job, what was asked. -/
theorem grows_later {d e : Db} (h : Later d e) : Grows d e := by
  induction h with
  | here => exact .refl d
  | call _ call ih => exact ih.trans (call.grows _ _)

theorem grows_later_sample : Grows {} ((Call.ingest januaryQuery [] none "").world
    (metadataEnv [januaryEntry "UUID-1" "vigente"]) (sampleWorld {})).db :=
  grows_later (@Later.call _ _ (sampleWorld {}) .here _)

end Recovery

end CfdiVault
