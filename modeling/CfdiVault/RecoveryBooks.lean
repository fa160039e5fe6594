import CfdiVault.RecoveryCalls
import CfdiVault.RecoveryWrites

/-!
# Turns of the loops

What one turn of each loop of the service writes to the books, as a relation between the
rows that the turn reads and its writes: an entry of the metadata (`EntryWrites`), an XML
member of a package (`LoadWrites`) and a row of the reconciliation (`ReconcileWrites`).

The relations say of the values written what the properties of the books need: the
values of an entry, the reconciliation state, the status and the XML digest.  The audit
log gets one event for each state that changes.

Each relation is connected to the code by a lemma on the program of its turn
(`upsertEntry_writes`, `storeXmlMember_writes`, `reconcileRow_writes`), and to the database
that a flush would leave behind by a lemma on `merged`: there the turn reads and writes the
books at once.
-/

namespace CfdiVault

namespace Recovery

/-! ## Audit -/

/-- The audit event of a transition. -/
structure IsAudit (tenantId uuid : String) (previous : Option String) (next : String)
    (event : ReconciliationEvent) : Prop where
  tenantOf : event.tenantId = tenantId
  uuidOf : event.uuid = uuid
  previousOf : event.previousState = previous
  nextOf : event.newState = next

/-- A state that changes is audited, and one that stays is not. -/
inductive AuditWrites (tenantId uuid previous next : String) : List Write → Prop
  | stays (h : previous = next) : AuditWrites tenantId uuid previous next []
  | changes {event : ReconciliationEvent} (h : previous ≠ next)
      (hevent : IsAudit tenantId uuid (some previous) next event) :
      AuditWrites tenantId uuid previous next [.add (.reconciliationEvent event)]

/-! ## Metadata entries -/

/-- A ledger row with the values of an entry. -/
structure LedgerCarries (entry : MetadataEntry) (metadataSha256 : String) (row : CfdiMetadataLedger) :
    Prop where
  issuerRfc : row.issuerRfc = entry.issuerRfc
  issuerName : row.issuerName = entry.issuerName
  receiverRfc : row.receiverRfc = entry.receiverRfc
  receiverName : row.receiverName = entry.receiverName
  issueDate : row.issueDate = entry.issueDate
  total : row.total = entry.total
  status : row.status = some entry.status
  effect : row.effect = entry.effect
  sourcePackageId : row.sourcePackageId = entry.sourcePackageId
  sourceMetadataSha256 : row.sourceMetadataSha256 = metadataSha256
  rawPayload : row.rawPayload = metadataPayload entry

/-- A document with the values of an entry. -/
structure DocumentCarries (entry : MetadataEntry) (row : CfdiDocument) : Prop where
  status : row.status = entry.status
  documentType : row.documentType = entry.effect
  issueDate : row.issueDate = entry.issueDate
  total : row.total = entry.total
  issuerRfc : row.issuerRfc = entry.issuerRfc
  issuerName : row.issuerName = entry.issuerName
  receiverRfc : row.receiverRfc = entry.receiverRfc
  receiverName : row.receiverName = entry.receiverName
  rawPayload : row.rawPayload = metadataPayload entry

/-- Some XML of the document is recorded as evidence. -/
def hasXml (tenantId uuid : String) (d : Db) : Bool :=
  d.evidence.any fun row => row.tenantId = tenantId ∧ row.uuid = uuid

/-- The ledger row that an entry of a query is about. -/
def entryRow (q : DownloadQuery) (entry : MetadataEntry) (d : Db) : Option CfdiMetadataLedger :=
  findLedger q.tenantId entry.uuid q.direction.value d

/-- The reconciliation state decided for an entry. -/
def entryState (rt : Runtime) (q : DownloadQuery) (entry : MetadataEntry) (d : Db) : String :=
  (Reconciliation.decideMetadataState rt entry.status (hasXml q.tenantId entry.uuid d)
    (entryRow q entry d).isNone ((entryRow q entry d).bind (·.status))).state.value

/-- What an entry writes to the ledger and its audit log, given the row it finds. -/
inductive LedgerWrites (q : DownloadQuery) (entry : MetadataEntry) (metadataSha256 state : String) :
    Option CfdiMetadataLedger → List Write → Prop
  | discovered {row : CfdiMetadataLedger} {event : ReconciliationEvent}
      (hkey : IsLedgerRow q.tenantId entry.uuid q.direction.value row)
      (hcarries : LedgerCarries entry metadataSha256 row) (hstate : row.reconciliationState = state)
      (hevent : IsAudit q.tenantId entry.uuid none state event) :
      LedgerWrites q entry metadataSha256 state none
        [.add (.ledger row), .add (.reconciliationEvent event)]
  | updated {existing : CfdiMetadataLedger} {change : CfdiMetadataLedger → CfdiMetadataLedger}
      {audits : List Write} (hkey)
      (hcarries : ∀ row, LedgerCarries entry metadataSha256 (change row))
      (hstate : ∀ row, (change row).reconciliationState = state)
      (haudits : AuditWrites q.tenantId entry.uuid existing.reconciliationState state audits) :
      LedgerWrites q entry metadataSha256 state (some existing)
        (.ledger q.tenantId entry.uuid q.direction.value change hkey :: audits)

/-- What an entry of a metadata query writes to the documents, given the one it finds. -/
inductive DocumentWrites (q : DownloadQuery) (entry : MetadataEntry) (state : String) :
    Option CfdiDocument → List Write → Prop
  | discovered {row : CfdiDocument} (hkey : IsDocument q.tenantId entry.uuid row)
      (hcarries : DocumentCarries entry row) (hxml : row.xmlSha256 = none)
      (hstate : row.downloadState = state) :
      DocumentWrites q entry state none (.add (.document row) ::
        (parties q.tenantId entry.uuid entry.issuerRfc entry.issuerName entry.receiverRfc
          entry.receiverName).map .add)
  | updated {existing : CfdiDocument} {change : CfdiDocument → CfdiDocument} (hkey)
      (hcarries : ∀ row, DocumentCarries entry (change row))
      (hxml : ∀ row, (change row).xmlSha256 = row.xmlSha256)
      (hstate : ∀ row, (change row).downloadState =
        if row.xmlSha256 = none then state else row.downloadState) :
      DocumentWrites q entry state (some existing) [.document q.tenantId entry.uuid change hkey]

/-- What an entry writes to the books. -/
def EntryWrites (rt : Runtime) (q : DownloadQuery) (entry : MetadataEntry) (metadataSha256 : String)
    (d : Db) (writes : List Write) : Prop :=
  ∃ ledgerWrites documentWrites, writes = ledgerWrites ++ documentWrites ∧
    LedgerWrites q entry metadataSha256 (entryState rt q entry d) (entryRow q entry d) ledgerWrites ∧
    if q.requestType = .metadata then
      DocumentWrites q entry (entryState rt q entry d) (findDocument q.tenantId entry.uuid d)
        documentWrites
    else documentWrites = []

/-! ## XML members -/

/-- What an XML writes to the documents, given the one it finds. -/
inductive XmlDocumentWrites (tenantId uuid xmlSha256 : String) : Option CfdiDocument → List Write → Prop
  | discovered {row : CfdiDocument} {issuerRfc issuerName receiverRfc receiverName : String}
      (hkey : IsDocument tenantId uuid row) (hstatus : row.status = "vigente")
      (hxml : row.xmlSha256 = some xmlSha256)
      (hstate : row.downloadState = ReconciliationState.xmlDownloaded.value) :
      XmlDocumentWrites tenantId uuid xmlSha256 none (.add (.document row) ::
        (parties tenantId uuid issuerRfc issuerName receiverRfc receiverName).map .add)
  | updated {existing : CfdiDocument} {change : CfdiDocument → CfdiDocument} (hkey)
      (hstatus : ∀ row, (change row).status = row.status)
      (hxml : ∀ row, (change row).xmlSha256 = some xmlSha256)
      (hstate : ∀ row, (change row).downloadState = ReconciliationState.xmlDownloaded.value) :
      XmlDocumentWrites tenantId uuid xmlSha256 (some existing)
        [.document tenantId uuid change hkey]

/-- The evidence that an XML adds. -/
inductive EvidenceWrites (tenantId uuid xmlSha256 : String) : Bool → List Write → Prop
  | recorded : EvidenceWrites tenantId uuid xmlSha256 true []
  | added {row : XmlEvidence} (hkey : IsEvidence tenantId uuid xmlSha256 row) :
      EvidenceWrites tenantId uuid xmlSha256 false [.add (.evidence row)]

/-- A ledger row in another reconciliation state. -/
def withState (state : String) (row : CfdiMetadataLedger) : CfdiMetadataLedger :=
  { row with reconciliationState := state }

theorem withState_key (state : String) (row : CfdiMetadataLedger) :
    (withState state row).tenantId = row.tenantId ∧ (withState state row).uuid = row.uuid ∧
      (withState state row).direction = row.direction := ⟨rfl, rfl, rfl⟩

/-- What an XML writes to the ledger, given the row it finds. -/
inductive StoredWrites (tenantId uuid direction : String) :
    Option CfdiMetadataLedger → List Write → Prop
  | missing : StoredWrites tenantId uuid direction none []
  | marked {existing : CfdiMetadataLedger} {audits : List Write}
      (haudits : AuditWrites tenantId uuid existing.reconciliationState
        ReconciliationState.xmlDownloaded.value audits) :
      StoredWrites tenantId uuid direction (some existing)
        (.ledger tenantId uuid direction (withState ReconciliationState.xmlDownloaded.value)
          (withState_key _) :: audits)

/-- The bytes are among the evidence of the document. -/
def hasEvidence (tenantId uuid xmlSha256 : String) (d : Db) : Bool :=
  d.evidence.any fun row =>
    row.tenantId = tenantId ∧ row.uuid = uuid ∧ row.xmlSha256 = xmlSha256

/-- What an XML of a document writes to the books. -/
def LoadWrites (q : DownloadQuery) (uuid xmlSha256 : String) (d : Db) (writes : List Write) : Prop :=
  ∃ documentWrites evidenceWrites ledgerWrites,
    writes = documentWrites ++ (evidenceWrites ++ ledgerWrites) ∧
    XmlDocumentWrites q.tenantId uuid xmlSha256 (findDocument q.tenantId uuid d) documentWrites ∧
    EvidenceWrites q.tenantId uuid xmlSha256 (hasEvidence q.tenantId uuid xmlSha256 d) evidenceWrites ∧
    StoredWrites q.tenantId uuid q.direction.value
      (findLedger q.tenantId uuid q.direction.value d) ledgerWrites

/-! ## Reconciled rows -/

/-- The reconciliation state decided for a row of the ledger. -/
def reconciledState (rt : Runtime) (row : CfdiMetadataLedger) (d : Db) : String :=
  let existing := findDocument row.tenantId row.uuid d
  if hasXmlSha existing then ReconciliationState.xmlDownloaded.value
  else (Reconciliation.decideMetadataState rt (row.status.getD "") (hasXmlSha existing)).state.value

/-- What the reconciliation of a row writes. -/
inductive ReconcileWrites (row : CfdiMetadataLedger) (state : String) : List Write → Prop
  | stays (h : row.reconciliationState = state) : ReconcileWrites row state []
  | changes {event : ReconciliationEvent} (h : row.reconciliationState ≠ state)
      (hevent : IsAudit row.tenantId row.uuid (some row.reconciliationState) state event) :
      ReconcileWrites row state
        [.ledger row.tenantId row.uuid row.direction (withState state) (withState_key state),
          .add (.reconciliationEvent event)]

/-! ## The turns of the code -/

section Turns

variable {env : Env} {q : DownloadQuery} {s : Session Db Row}

/-- The database fails at some operation. -/
def Env.Down (env : Env) : Prop := ∃ n, env.databaseFails n = true

/-- A query shows the working copy, or the database is down. -/
theorem select_then {α β : Type} {view : Db → α} {f : α → Recovery β} {Q : β → World → Prop}
    {E : Fault → World → Prop} (hdown : env.Down → ∀ w, E .database w)
    (h : Spec (OnSession fun t => t = s) (f (view s.working)) Q E) :
    Spec (OnSession fun t => t = s) (select env view >>= f) Q E := by
  rintro w rfl
  rw [Prog.exec_bind, exec_select]
  by_cases hfails : env.databaseFails w.databaseOps
  · rw [if_pos hfails]
    exact hdown ⟨w.databaseOps, hfails⟩ _
  · rw [if_neg hfails, Prog.follow_ok]
    exact h { w with databaseOps := w.databaseOps + 1 } rfl

theorem now_then {β : Type} {f : DateTime → Recovery β} {Q : β → World → Prop}
    {E : Fault → World → Prop} (h : ∀ time, Spec (OnSession fun t => t = s) (f time) Q E) :
    Spec (OnSession fun t => t = s) (now env >>= f) Q E :=
  fun w hw => h _ { w with clock := w.clock + 1 } hw

/-- The program makes writes that satisfy a condition, or raises as `E` says. -/
abbrev Writes {α : Type} (E : Fault → World → Prop) (s : Session Db Row) (p : Recovery α)
    (W : List Write → Prop) : Prop :=
  Spec (OnSession fun t => t = s) p
    (fun _ => OnSession fun t => ∃ writes, W writes ∧ t = writeAll writes s) E

variable {E : Fault → World → Prop} {entry : MetadataEntry}

theorem writes_then {α β : Type} {p : Recovery α} {f : α → Recovery β} {W : List Write → Prop}
    {Q : β → World → Prop} (hp : Writes E s p W)
    (h : ∀ a writes, W writes → Spec (OnSession fun t => t = writeAll writes s) (f a) Q E) :
    Spec (OnSession fun t => t = s) (p >>= f) Q E := by
  refine Spec.bind hp fun a => ?_
  rintro w ⟨writes, hwrites, hw⟩
  exact h a writes hwrites w hw

theorem saveLedger_writes {metadataSha256 state : String} {time : DateTime}
    {existing : Option CfdiMetadataLedger} :
    Writes E s (saveLedger q entry metadataSha256 state time existing)
      (LedgerWrites q entry metadataSha256 state existing) := by
  rintro w rfl
  cases existing with
  | none =>
      exact ⟨_, .discovered ⟨rfl, rfl, rfl⟩ ⟨rfl, rfl, rfl, rfl, rfl, rfl, rfl, rfl, rfl, rfl, rfl⟩
        rfl ⟨rfl, rfl, rfl, rfl⟩, rfl⟩
  | some existing =>
      unfold saveLedger update
      rw [Prog.exec_bind, Prog.exec_act, Prog.follow_ok]
      split
      case isTrue hchanged =>
        refine ⟨_, .updated ?_ ?_ ?_ (.changes hchanged ?_), rfl⟩
        · exact fun _ => ⟨rfl, rfl, rfl⟩
        · exact fun _ => ⟨rfl, rfl, rfl, rfl, rfl, rfl, rfl, rfl, rfl, rfl, rfl⟩
        · exact fun _ => rfl
        · exact ⟨rfl, rfl, rfl, rfl⟩
      case isFalse hsame =>
        refine ⟨_, .updated ?_ ?_ ?_ (.stays (not_not.mp hsame)), rfl⟩
        · exact fun _ => ⟨rfl, rfl, rfl⟩
        · exact fun _ => ⟨rfl, rfl, rfl, rfl, rfl, rfl, rfl, rfl, rfl, rfl, rfl⟩
        · exact fun _ => rfl

theorem saveMetadataDocument_writes {state : String} {time : DateTime}
    {existing : Option CfdiDocument} :
    Writes E s (saveMetadataDocument env q entry state time existing)
      (DocumentWrites q entry state existing) := by
  rintro w rfl
  cases existing with
  | none =>
      exact ⟨_, .discovered ⟨rfl, rfl⟩ ⟨rfl, rfl, rfl, rfl, rfl, rfl, rfl, rfl, rfl⟩ rfl rfl, rfl⟩
  | some existing =>
      refine ⟨_, .updated ?_ ?_ ?_ ?_, rfl⟩
      · exact fun _ => ⟨rfl, rfl⟩
      · exact fun _ => ⟨rfl, rfl, rfl, rfl, rfl, rfl, rfl, rfl, rfl⟩
      · exact fun _ => rfl
      · exact fun _ => rfl

theorem AuditWrites.working {tenantId uuid previous next : String} {writes : List Write}
    (h : AuditWrites tenantId uuid previous next writes) :
    (writeAll writes s).working = s.working := by
  cases h <;> rfl

theorem LedgerWrites.documents {metadataSha256 state : String} {existing : Option CfdiMetadataLedger}
    {writes : List Write} (h : LedgerWrites q entry metadataSha256 state existing writes) :
    (writeAll writes s).working.documents = s.working.documents := by
  cases h with
  | discovered => rfl
  | updated _ _ _ haudits => rw [writeAll_cons, haudits.working]; rfl

/-- One turn of `_upsert_metadata` makes the writes of its entry, or the database is down. -/
theorem upsertEntry_writes (hdown : env.Down → ∀ w, E .database w) {metadataSha256 : String}
    {time : DateTime} : Writes E s (upsertEntry env q metadataSha256 time entry)
      (EntryWrites env.rt q entry metadataSha256 s.working) := by
  unfold upsertEntry
  refine select_then hdown (select_then hdown
    (writes_then saveLedger_writes fun _ ledgerWrites hledger => ?_))
  have hdocuments := hledger.documents (s := s)
  split
  case isTrue hmetadata =>
    refine select_then hdown (Spec.weaken saveMetadataDocument_writes (fun _ h => h) ?_
      fun _ _ h => h)
    rintro _ v ⟨documentWrites, hdocument, hv⟩
    refine ⟨ledgerWrites ++ documentWrites, ⟨_, _, rfl, hledger, ?_⟩, ?_⟩
    · rw [if_pos hmetadata, findDocument, ← hdocuments]
      exact hdocument
    · rw [writeAll_append]
      exact hv
  case isFalse hcfdi =>
    refine Spec.pure _ fun w hw => ?_
    refine ⟨ledgerWrites, ⟨ledgerWrites, [], (List.append_nil _).symm, hledger, ?_⟩, hw⟩
    rw [if_neg hcfdi]

theorem saveXmlDocument_writes {reading : CfdiReading} {packageId uuid xmlSha256 : String}
    {existing : Option CfdiDocument} :
    Writes E s (saveXmlDocument env q reading packageId uuid xmlSha256 existing)
      (XmlDocumentWrites q.tenantId uuid xmlSha256 existing) := by
  unfold saveXmlDocument
  cases existing with
  | none =>
      refine now_then fun createdAt => now_then fun updatedAt => ?_
      rintro w rfl
      exact ⟨_, .discovered ⟨rfl, rfl⟩ rfl rfl rfl, rfl⟩
  | some existing =>
      refine now_then fun updatedAt => ?_
      rintro w rfl
      refine ⟨_, .updated ?_ ?_ ?_ ?_, rfl⟩
      · exact fun _ => ⟨rfl, rfl⟩
      · exact fun _ => rfl
      · exact fun _ => rfl
      · exact fun _ => rfl

theorem saveEvidence_writes {reading : CfdiReading} {packageId uuid xmlSha256 : String}
    {stored : StoredFile} {recorded : Bool} :
    Writes E s (saveEvidence env q reading packageId uuid xmlSha256 stored recorded)
      (EvidenceWrites q.tenantId uuid xmlSha256 recorded) := by
  unfold saveEvidence
  cases recorded with
  | true =>
      rintro w rfl
      exact ⟨[], .recorded, rfl⟩
  | false =>
      refine now_then fun createdAt => ?_
      rintro w rfl
      exact ⟨_, .added ⟨rfl, rfl, rfl⟩, rfl⟩

theorem markXmlStored_writes {uuid : String} {existing : Option CfdiMetadataLedger} :
    Writes E s (markXmlStored env q uuid existing)
      (StoredWrites q.tenantId uuid q.direction.value existing) := by
  unfold markXmlStored
  cases existing with
  | none =>
      rintro w rfl
      exact ⟨[], .missing, rfl⟩
  | some existing =>
      rintro w rfl
      unfold update
      rw [Prog.exec_bind, Prog.exec_act, Prog.follow_ok]
      split
      case isTrue hchanged => exact ⟨_, .marked (.changes hchanged ⟨rfl, rfl, rfl, rfl⟩), rfl⟩
      case isFalse hsame => exact ⟨_, .marked (.stays (not_not.mp hsame)), rfl⟩

/-- What `_store_xml_package` does with an XML whose file is stored. -/
def bookXml (env : Env) (q : DownloadQuery) (reading : CfdiReading)
    (packageId uuid xmlSha256 : String) (stored : StoredFile) : Recovery PUnit := do
  let document ← select env fun d => d.documents.find? fun row => IsDocument q.tenantId uuid row
  saveXmlDocument env q reading packageId uuid xmlSha256 document
  let recorded ← select env fun d => d.evidence.any fun row =>
    row.tenantId = q.tenantId ∧ row.uuid = uuid ∧ row.xmlSha256 = xmlSha256
  saveEvidence env q reading packageId uuid xmlSha256 stored recorded
  let ledger ← select env fun d =>
    d.ledger.find? fun row => IsLedgerRow q.tenantId uuid q.direction.value row
  markXmlStored env q uuid ledger

theorem XmlDocumentWrites.others {tenantId uuid xmlSha256 : String} {existing : Option CfdiDocument}
    {writes : List Write} (h : XmlDocumentWrites tenantId uuid xmlSha256 existing writes) :
    (writeAll writes s).working.evidence = s.working.evidence ∧
      (writeAll writes s).working.ledger = s.working.ledger := by
  cases h <;> exact ⟨rfl, rfl⟩

theorem EvidenceWrites.working {tenantId uuid xmlSha256 : String} {recorded : Bool}
    {writes : List Write} (h : EvidenceWrites tenantId uuid xmlSha256 recorded writes) :
    (writeAll writes s).working = s.working := by
  cases h <;> rfl

/-- A stored XML makes the writes of its load, or the database is down. -/
theorem bookXml_writes (hdown : env.Down → ∀ w, E .database w) {reading : CfdiReading}
    {packageId uuid xmlSha256 : String} {stored : StoredFile} :
    Writes E s (bookXml env q reading packageId uuid xmlSha256 stored)
      (LoadWrites q uuid xmlSha256 s.working) := by
  refine select_then hdown (writes_then saveXmlDocument_writes fun _ documentWrites hdocument => ?_)
  refine select_then hdown (writes_then saveEvidence_writes fun _ evidenceWrites hadded => ?_)
  obtain ⟨hevidence, hledger⟩ := hdocument.others (s := s)
  have hworking := hadded.working (s := writeAll documentWrites s)
  refine select_then hdown (Spec.weaken markXmlStored_writes (fun _ h => h) ?_ fun _ _ h => h)
  rintro _ u ⟨ledgerWrites, hstored, hu⟩
  refine ⟨_, ⟨documentWrites, evidenceWrites, ledgerWrites, rfl, hdocument, ?_, ?_⟩, ?_⟩
  · rw [hasEvidence, ← hevidence]
    exact hadded
  · rw [findLedger, ← hledger, ← hworking]
    exact hstored
  · rw [writeAll_append, writeAll_append]
    exact hu

/-- One turn of `reconcile` makes the writes of its row, or the database is down. -/
theorem reconcileRow_writes (hdown : env.Down → ∀ w, E .database w) {row : CfdiMetadataLedger} :
    Writes E s (reconcileRow env row)
      (ReconcileWrites row (reconciledState env.rt row s.working)) := by
  unfold reconcileRow
  refine select_then hdown ?_
  change Spec _ (if row.reconciliationState ≠ reconciledState env.rt row s.working then _ else _) _ _
  rintro w rfl
  by_cases hchanged : row.reconciliationState ≠ reconciledState env.rt row w.session.working
  · rw [if_pos hchanged]
    exact ⟨_, .changes hchanged ⟨rfl, rfl, rfl, rfl⟩, rfl⟩
  · rw [if_neg hchanged]
    exact ⟨[], .stays (not_not.mp hchanged), rfl⟩

end Turns

/-! ## The turns on the merged database -/

section Merged

variable {q : DownloadQuery} {entry : MetadataEntry} {s : Session Db Row} {writes : List Write}

/-- A new row that fits is under a free key of the merged database. -/
theorem free_of_fits {row : Row} {rest : List Write} (h : Fits (writeAll (.add row :: rest) s)) :
    ¬ Clashes (merged s) row :=
  (fits_add.mp (Fits.before h)).2

theorem AuditWrites.addressed {tenantId uuid previous next : String} {d : Db}
    (h : AuditWrites tenantId uuid previous next writes) : ∀ write ∈ writes, write.Addressed d := by
  cases h with
  | stays => exact fun _ hwrite => absurd hwrite List.not_mem_nil
  | changes =>
      intro write hwrite
      rw [List.mem_singleton.mp hwrite]
      trivial

theorem parties_addressed {tenantId uuid issuerRfc issuerName receiverRfc receiverName : String}
    {d : Db} {row : Row} : ∀ write ∈ Write.add row ::
      (parties tenantId uuid issuerRfc issuerName receiverRfc receiverName).map .add,
      write.Addressed d := by
  simp [parties, Write.Addressed]

/-- The ledger part of an entry finds in the merged database what it found. -/
theorem LedgerWrites.settled {metadataSha256 state : String}
    (h : LedgerWrites q entry metadataSha256 state (entryRow q entry s.working) writes)
    (hfits : Fits (writeAll writes s)) :
    entryRow q entry (merged s) = entryRow q entry s.working ∧
      merged (writeAll writes s) = applyAll writes (merged s) := by
  generalize hfound : entryRow q entry s.working = existing at h
  cases h with
  | discovered hkey =>
      constructor
      · refine findLedger_eq_none.mpr fun ⟨other, hother, htenant, huuid, hdirection⟩ => ?_
        refine free_of_fits hfits ⟨other, hother, ?_⟩
        rw [hkey.1, hkey.2.1, hkey.2.2]
        exact ⟨htenant, huuid, hdirection⟩
      · exact merged_writeAll hfits (by simp [Write.Addressed])
  | updated hkey _ _ haudits =>
      refine ⟨findLedger_merged hfound, merged_writeAll hfits ?_⟩
      refine List.forall_mem_cons.mpr ⟨findLedger_isSome.mp ?_, haudits.addressed⟩
      rw [← entryRow, hfound]
      rfl

theorem DocumentWrites.settled {state : String}
    (h : DocumentWrites q entry state (findDocument q.tenantId entry.uuid s.working) writes)
    (hfits : Fits (writeAll writes s)) :
    findDocument q.tenantId entry.uuid (merged s) = findDocument q.tenantId entry.uuid s.working ∧
      merged (writeAll writes s) = applyAll writes (merged s) := by
  generalize hfound : findDocument q.tenantId entry.uuid s.working = existing at h
  cases h with
  | discovered hkey =>
      constructor
      · refine findDocument_eq_none.mpr fun ⟨other, hother, htenant, huuid⟩ => ?_
        refine free_of_fits hfits ⟨other, hother, ?_⟩
        rw [hkey.1, hkey.2]
        exact ⟨htenant, huuid⟩
      · exact merged_writeAll hfits parties_addressed
  | updated hkey =>
      refine ⟨findDocument_merged hfound, merged_writeAll hfits ?_⟩
      refine List.forall_mem_singleton.mpr (findDocument_isSome.mp ?_)
      rw [hfound]
      rfl

/-- No row of a table waits to be flushed. -/
def NonePending {α : Type} (entries : Row → List α) (s : Session Db Row) : Prop :=
  ∀ row ∈ s.pending, entries row = []

/-- The writes add no row to a table. -/
def NoneAdded {α : Type} (entries : Row → List α) (writes : List Write) : Prop :=
  ∀ row, .add row ∈ writes → entries row = []

theorem NoneAdded.append {α : Type} {entries : Row → List α} {first second : List Write}
    (h : NoneAdded entries first) (h' : NoneAdded entries second) :
    NoneAdded entries (first ++ second) :=
  fun row hrow => (List.mem_append.mp hrow).elim (h row) (h' row)

theorem NoneAdded.writeAll {α : Type} {entries : Row → List α} (h : NoneAdded entries writes)
    (hs : NonePending entries s) : NonePending entries (writeAll writes s) := by
  induction writes generalizing s with
  | nil => exact hs
  | cons write rest ih =>
      refine ih (fun row hrow => h row (List.mem_cons_of_mem write hrow)) ?_
      cases write with
      | add row =>
          intro r hr
          rcases List.mem_append.mp hr with hr | hr
          · exact hs r hr
          · rw [List.mem_singleton.mp hr]
            exact h row List.mem_cons_self
      | ledger => exact hs
      | document => exact hs

theorem NonePending.evidence (h : NonePending evidenceRows s) :
    (merged s).evidence = s.working.evidence := by
  rw [merged_evidence, List.flatMap_eq_nil_iff.mpr h, List.append_nil]

theorem NonePending.ledger (h : NonePending ledgerRows s) : (merged s).ledger = s.working.ledger := by
  rw [merged_ledger, List.flatMap_eq_nil_iff.mpr h, List.append_nil]

theorem NonePending.documents (h : NonePending documentRows s) :
    (merged s).documents = s.working.documents := by
  rw [merged_documents, List.flatMap_eq_nil_iff.mpr h, List.append_nil]

theorem LedgerWrites.tables {metadataSha256 state : String} {existing : Option CfdiMetadataLedger}
    {d : Db} (h : LedgerWrites q entry metadataSha256 state existing writes) :
    (applyAll writes d).documents = d.documents ∧ (applyAll writes d).evidence = d.evidence ∧
      (applyAll writes d).parties = d.parties := by
  cases h with
  | discovered => exact ⟨rfl, rfl, rfl⟩
  | updated _ _ _ haudits => cases haudits <;> exact ⟨rfl, rfl, rfl⟩

theorem AuditWrites.noneAdded {α : Type} {entries : Row → List α}
    (hentries : ∀ event, entries (.reconciliationEvent event) = []) {tenantId uuid previous next : String}
    (h : AuditWrites tenantId uuid previous next writes) : NoneAdded entries writes := by
  cases h <;> simp [NoneAdded, hentries]

/-- An entry adds no evidence. -/
theorem EntryWrites.noEvidence {rt : Runtime} {metadataSha256 : String} {d : Db}
    (h : EntryWrites rt q entry metadataSha256 d writes) : NoneAdded evidenceRows writes := by
  obtain ⟨ledgerWrites, documentWrites, rfl, hledger, hdocument⟩ := h
  refine NoneAdded.append ?_ ?_
  · generalize entryRow q entry d = existing at hledger
    cases hledger with
    | discovered => simp [NoneAdded, evidenceRows]
    | updated _ _ _ haudits =>
        intro row hrow
        exact haudits.noneAdded (fun _ => rfl) row (by simpa using hrow)
  · split at hdocument
    · generalize findDocument q.tenantId entry.uuid d = existing at hdocument
      cases hdocument <;> simp [NoneAdded, evidenceRows, parties]
    · rw [hdocument]
      exact fun row hrow => absurd hrow List.not_mem_nil

/-- The turn of an entry on the merged database: it reads there what it read, and its
writes are made at once. -/
theorem EntryWrites.settled {rt : Runtime} {metadataSha256 : String}
    (h : EntryWrites rt q entry metadataSha256 s.working writes) (hfits : Fits (writeAll writes s))
    (hevidence : NonePending evidenceRows s) :
    EntryWrites rt q entry metadataSha256 (merged s) writes ∧
      merged (writeAll writes s) = applyAll writes (merged s) := by
  obtain ⟨ledgerWrites, documentWrites, rfl, hledger, hdocument⟩ := h
  rw [writeAll_append] at hfits
  obtain ⟨hrow, hmerged⟩ := hledger.settled hfits.before
  have hstate : entryState rt q entry (merged s) = entryState rt q entry s.working := by
    rw [entryState, entryState, hrow, hasXml, hasXml, hevidence.evidence]
  have hworking := hledger.documents (s := s)
  have htables := hledger.tables (d := merged s)
  by_cases hmetadata : q.requestType = .metadata
  · rw [if_pos hmetadata] at hdocument
    have hfound : findDocument q.tenantId entry.uuid (writeAll ledgerWrites s).working =
        findDocument q.tenantId entry.uuid s.working := by
      rw [findDocument, hworking]
      rfl
    rw [← hfound] at hdocument
    obtain ⟨hdoc, hmerged'⟩ := hdocument.settled hfits
    rw [hmerged, findDocument, htables.1, ← findDocument, hfound] at hdoc
    refine ⟨⟨ledgerWrites, documentWrites, rfl, ?_, ?_⟩, ?_⟩
    · rw [hstate, hrow]
      exact hledger
    · rw [if_pos hmetadata, hstate, hdoc, ← hfound]
      exact hdocument
    · rw [writeAll_append, hmerged', hmerged, applyAll_append]
  · rw [if_neg hmetadata] at hdocument
    subst hdocument
    refine ⟨⟨ledgerWrites, [], rfl, ?_, ?_⟩, ?_⟩
    · rw [hstate, hrow]
      exact hledger
    · rw [if_neg hmetadata]
    · rw [List.append_nil, hmerged]

theorem XmlDocumentWrites.settled {tenantId uuid xmlSha256 : String}
    (h : XmlDocumentWrites tenantId uuid xmlSha256 (findDocument tenantId uuid s.working) writes)
    (hfits : Fits (writeAll writes s)) :
    findDocument tenantId uuid (merged s) = findDocument tenantId uuid s.working ∧
      merged (writeAll writes s) = applyAll writes (merged s) := by
  generalize hfound : findDocument tenantId uuid s.working = existing at h
  cases h with
  | discovered hkey =>
      constructor
      · refine findDocument_eq_none.mpr fun ⟨other, hother, htenant, huuid⟩ => ?_
        refine free_of_fits hfits ⟨other, hother, ?_⟩
        rw [hkey.1, hkey.2]
        exact ⟨htenant, huuid⟩
      · exact merged_writeAll hfits parties_addressed
  | updated hkey =>
      refine ⟨findDocument_merged hfound, merged_writeAll hfits ?_⟩
      refine List.forall_mem_singleton.mpr (findDocument_isSome.mp ?_)
      rw [hfound]
      rfl

theorem hasEvidence_iff {tenantId uuid xmlSha256 : String} {d : Db} :
    hasEvidence tenantId uuid xmlSha256 d = true ↔ HasEvidence tenantId uuid xmlSha256 d := by
  simp [hasEvidence, HasEvidence, IsEvidence]

theorem EvidenceWrites.settled {tenantId uuid xmlSha256 : String}
    (h : EvidenceWrites tenantId uuid xmlSha256 (hasEvidence tenantId uuid xmlSha256 s.working) writes)
    (hfits : Fits (writeAll writes s)) :
    hasEvidence tenantId uuid xmlSha256 (merged s) = hasEvidence tenantId uuid xmlSha256 s.working ∧
      merged (writeAll writes s) = applyAll writes (merged s) := by
  generalize hfound : hasEvidence tenantId uuid xmlSha256 s.working = recorded at h
  cases h with
  | recorded =>
      refine ⟨?_, rfl⟩
      obtain ⟨row, hrow, hkey⟩ := hasEvidence_iff.mp hfound
      refine hasEvidence_iff.mpr ⟨row, ?_, hkey⟩
      rw [merged_evidence]
      exact List.mem_append_left _ hrow
  | added hkey =>
      refine ⟨?_, merged_writeAll hfits (by simp [Write.Addressed])⟩
      refine Bool.eq_false_iff.mpr fun htrue => ?_
      obtain ⟨other, hother, htenant, huuid, hsha⟩ := hasEvidence_iff.mp htrue
      refine free_of_fits hfits ⟨other, hother, ?_⟩
      rw [hkey.1, hkey.2.1, hkey.2.2]
      exact ⟨htenant, huuid, hsha⟩

theorem StoredWrites.settled {tenantId uuid direction : String}
    (h : StoredWrites tenantId uuid direction (findLedger tenantId uuid direction s.working) writes)
    (hfits : Fits (writeAll writes s)) : merged (writeAll writes s) = applyAll writes (merged s) := by
  generalize hfound : findLedger tenantId uuid direction s.working = existing at h
  cases h with
  | missing => rfl
  | marked haudits =>
      refine merged_writeAll hfits (List.forall_mem_cons.mpr ⟨findLedger_isSome.mp ?_, haudits.addressed⟩)
      rw [hfound]
      rfl

theorem XmlDocumentWrites.tables {tenantId uuid xmlSha256 : String} {existing : Option CfdiDocument}
    {d : Db} (h : XmlDocumentWrites tenantId uuid xmlSha256 existing writes) :
    (applyAll writes d).evidence = d.evidence ∧ (applyAll writes d).ledger = d.ledger := by
  cases h <;> exact ⟨rfl, rfl⟩

theorem EvidenceWrites.tables {tenantId uuid xmlSha256 : String} {recorded : Bool} {d : Db}
    (h : EvidenceWrites tenantId uuid xmlSha256 recorded writes) :
    (applyAll writes d).ledger = d.ledger ∧ (applyAll writes d).documents = d.documents ∧
      (applyAll writes d).parties = d.parties := by
  cases h <;> exact ⟨rfl, rfl, rfl⟩

/-- An XML adds no ledger row. -/
theorem LoadWrites.noLedger {uuid xmlSha256 : String} {d : Db}
    (h : LoadWrites q uuid xmlSha256 d writes) : NoneAdded ledgerRows writes := by
  obtain ⟨documentWrites, evidenceWrites, ledgerWrites, rfl, hdocument, hadded, hstored⟩ := h
  refine NoneAdded.append ?_ (NoneAdded.append ?_ ?_)
  · generalize findDocument q.tenantId uuid d = existing at hdocument
    cases hdocument <;> simp [NoneAdded, ledgerRows, parties]
  · generalize hasEvidence q.tenantId uuid xmlSha256 d = recorded at hadded
    cases hadded <;> simp [NoneAdded, ledgerRows]
  · generalize findLedger q.tenantId uuid q.direction.value d = existing at hstored
    cases hstored with
    | missing => exact fun row hrow => absurd hrow List.not_mem_nil
    | marked haudits =>
        intro row hrow
        exact haudits.noneAdded (fun _ => rfl) row (by simpa using hrow)

/-- The turn of an XML on the merged database. -/
theorem LoadWrites.settled {uuid xmlSha256 : String} (h : LoadWrites q uuid xmlSha256 s.working writes)
    (hfits : Fits (writeAll writes s)) (hledger : NonePending ledgerRows s) :
    LoadWrites q uuid xmlSha256 (merged s) writes ∧
      merged (writeAll writes s) = applyAll writes (merged s) := by
  obtain ⟨documentWrites, evidenceWrites, ledgerWrites, rfl, hdocument, hadded, hstored⟩ := h
  rw [writeAll_append, writeAll_append] at hfits
  obtain ⟨hdoc, hmerged⟩ := hdocument.settled hfits.before.before
  obtain ⟨hevidence, hworking⟩ := hdocument.others (s := s)
  have hsame : hasEvidence q.tenantId uuid xmlSha256 (writeAll documentWrites s).working =
      hasEvidence q.tenantId uuid xmlSha256 s.working := by
    rw [hasEvidence, hasEvidence, hevidence]
  rw [← hsame] at hadded
  obtain ⟨hrecorded, hmerged'⟩ := hadded.settled hfits.before
  have hrecorded' : hasEvidence q.tenantId uuid xmlSha256 (merged s) =
      hasEvidence q.tenantId uuid xmlSha256 (writeAll documentWrites s).working := by
    rw [← hrecorded, hmerged, hasEvidence, hasEvidence, (hdocument.tables (d := merged s)).1]
  have hfound : findLedger q.tenantId uuid q.direction.value
      (writeAll evidenceWrites (writeAll documentWrites s)).working =
      findLedger q.tenantId uuid q.direction.value s.working := by
    rw [findLedger, hadded.working, hworking]
    rfl
  rw [← hfound] at hstored
  refine ⟨⟨documentWrites, evidenceWrites, ledgerWrites, rfl, ?_, ?_, ?_⟩, ?_⟩
  · rw [hdoc]
    exact hdocument
  · rw [hrecorded']
    exact hadded
  · rw [findLedger, hledger.ledger, ← findLedger, ← hfound]
    exact hstored
  · rw [writeAll_append, writeAll_append, hstored.settled hfits, hmerged', hmerged, applyAll_append,
      applyAll_append]

/-- The turn of a reconciled row on the merged database. -/
theorem ReconcileWrites.settled {row : CfdiMetadataLedger} {rt : Runtime}
    (h : ReconcileWrites row (reconciledState rt row s.working) writes)
    (hfits : Fits (writeAll writes s)) (hrow : HasLedger row.tenantId row.uuid row.direction s.working)
    (hdocuments : NonePending documentRows s) :
    ReconcileWrites row (reconciledState rt row (merged s)) writes ∧
      merged (writeAll writes s) = applyAll writes (merged s) := by
  have hstate : reconciledState rt row (merged s) = reconciledState rt row s.working := by
    rw [reconciledState, findDocument, hdocuments.documents]
    rfl
  refine ⟨hstate ▸ h, ?_⟩
  cases h with
  | stays => rfl
  | changes => exact merged_writeAll hfits (by simpa [Write.Addressed] using hrow)

end Merged

end Recovery

end CfdiVault
