import CfdiVault.RecoveryBooks

/-!
# Actions on the books

The turns of the loops as actions on a database, each with what it does to the lookups of
the books (`EntryEffect`, `LoadEffect`, `ReconcileEffect`).  `Steps` is a run of actions;
the tables outside the books are free in it, so that it abstracts from requests, packages
and jobs.

An invariant of the books is proved from the effects, once for each kind of action.
-/

namespace CfdiVault

namespace Recovery

/-! ## Databases with the same books -/

/-- Two databases that agree on everything but tenants, jobs, requests, packages and job
events. -/
structure SameBooks (d e : Db) : Prop where
  ledger : e.ledger = d.ledger
  documents : e.documents = d.documents
  parties : e.parties = d.parties
  evidence : e.evidence = d.evidence
  reconciliationEvents : e.reconciliationEvents = d.reconciliationEvents

namespace SameBooks

variable {d e f : Db}

theorem refl (d : Db) : SameBooks d d := ⟨rfl, rfl, rfl, rfl, rfl⟩

theorem trans (h : SameBooks d e) (h' : SameBooks e f) : SameBooks d f :=
  ⟨h'.ledger.trans h.ledger, h'.documents.trans h.documents, h'.parties.trans h.parties,
    h'.evidence.trans h.evidence, h'.reconciliationEvents.trans h.reconciliationEvents⟩

theorem onDb (h : SameBooks d e) (write : Write) : SameBooks (write.onDb d) (write.onDb e) := by
  obtain ⟨hledger, hdocuments, hparties, hevidence, hevents⟩ := h
  cases write with
  | add row =>
      cases row <;> constructor <;>
        simp only [Write.onDb, append, hledger, hdocuments, hparties, hevidence, hevents]
  | ledger =>
      constructor <;> simp only [Write.onDb, changeLedger, hledger, hdocuments, hparties, hevidence, hevents]
  | document =>
      constructor <;>
        simp only [Write.onDb, changeDocument, hledger, hdocuments, hparties, hevidence, hevents]

theorem applyAll (h : SameBooks d e) (writes : List Write) :
    SameBooks (applyAll writes d) (applyAll writes e) := by
  induction writes generalizing d e with
  | nil => exact h
  | cons write rest ih => exact ih (h.onDb write)

variable {tenantId uuid direction xmlSha256 : String}

theorem findLedger (h : SameBooks d e) :
    findLedger tenantId uuid direction e = findLedger tenantId uuid direction d := by
  unfold Recovery.findLedger
  rw [h.ledger]

theorem findDocument (h : SameBooks d e) :
    findDocument tenantId uuid e = findDocument tenantId uuid d := by
  unfold Recovery.findDocument
  rw [h.documents]

theorem hasXml (h : SameBooks d e) : hasXml tenantId uuid e = hasXml tenantId uuid d := by
  unfold Recovery.hasXml
  rw [h.evidence]

theorem hasEvidence (h : SameBooks d e) :
    hasEvidence tenantId uuid xmlSha256 e = hasEvidence tenantId uuid xmlSha256 d := by
  unfold Recovery.hasEvidence
  rw [h.evidence]

theorem entryState (h : SameBooks d e) {rt : Runtime} {q : DownloadQuery} {entry : MetadataEntry} :
    entryState rt q entry e = entryState rt q entry d := by
  unfold Recovery.entryState entryRow
  rw [h.findLedger, h.hasXml]

theorem reconciledState (h : SameBooks d e) {rt : Runtime} {row : CfdiMetadataLedger} :
    reconciledState rt row e = reconciledState rt row d := by
  unfold Recovery.reconciledState
  rw [h.findDocument]

end SameBooks

/-- A row of a table outside the books. -/
def OutsideBooks : Row → Prop
  | .tenant _ | .job _ | .request _ | .package _ | .jobEvent _ => True
  | _ => False

theorem sameBooks_append {row : Row} (h : OutsideBooks row) (d : Db) : SameBooks d (append d row) := by
  cases row <;> first | exact ⟨rfl, rfl, rfl, rfl, rfl⟩ | exact h.elim

theorem OutsideBooks.evidenceRows {row : Row} (h : OutsideBooks row) : evidenceRows row = [] := by
  cases row <;> first | rfl | exact h.elim

/-! ## Actions -/

/-- A turn of a loop: an entry of the metadata of a query, an XML of a document that a
query loads, or a row of the ledger that is reconciled. -/
inductive Action where
  | ingest (q : DownloadQuery) (entry : MetadataEntry) (metadataSha256 : String)
  | load (q : DownloadQuery) (uuid xmlSha256 : String)
  | reconcile (tenantId uuid direction : String)

namespace Action

/-- What an action writes. -/
def Writes (rt : Runtime) (d : Db) (writes : List Write) : Action → Prop
  | .ingest q entry metadataSha256 => EntryWrites rt q entry metadataSha256 d writes
  | .load q uuid xmlSha256 => LoadWrites q uuid xmlSha256 d writes
  | .reconcile tenantId uuid direction => ∃ row,
      findLedger tenantId uuid direction d = some row ∧
      ReconcileWrites row (reconciledState rt row d) writes

/-- The writes of an action depend on the books only. -/
theorem Writes.congr {rt : Runtime} {d e : Db} {writes : List Write} {action : Action}
    (h : SameBooks d e) (hwrites : action.Writes rt e writes) : action.Writes rt d writes := by
  cases action with
  | ingest q entry metadataSha256 =>
      simpa only [Writes, EntryWrites, entryRow, h.entryState, h.findLedger, h.findDocument] using hwrites
  | load q uuid xmlSha256 =>
      simpa only [Writes, LoadWrites, h.findLedger, h.findDocument, h.hasEvidence] using hwrites
  | reconcile tenantId uuid direction =>
      simpa only [Writes, h.reconciledState, h.findLedger] using hwrites

end Action

/-- A run of actions, each allowed in the database that it meets. -/
inductive Steps (rt : Runtime) (Allowed : Action → Db → Prop) : List Action → Db → Db → Prop
  | nil {d e : Db} (h : SameBooks d e) : Steps rt Allowed [] d e
  | cons {action : Action} {actions : List Action} {d e : Db} {writes : List Write}
      (hallowed : Allowed action d) (hwrites : action.Writes rt d writes)
      (hrest : Steps rt Allowed actions (applyAll writes d) e) :
      Steps rt Allowed (action :: actions) d e

/-- A run without conditions. -/
abbrev FreeSteps (rt : Runtime) : List Action → Db → Db → Prop := Steps rt fun _ _ => True

namespace Steps

variable {rt : Runtime} {Allowed : Action → Db → Prop} {first second actions : List Action} {d e f : Db}

theorem congr (hallowed : ∀ action d e, SameBooks d e → Allowed action e → Allowed action d)
    (h : SameBooks d e) (hsteps : Steps rt Allowed actions e f) : Steps rt Allowed actions d f := by
  induction hsteps generalizing d with
  | nil h' => exact .nil (h.trans h')
  | cons hthis hwrites _ ih =>
      exact .cons (hallowed _ _ _ h hthis) (hwrites.congr h) (ih (h.applyAll _))

theorem append (hallowed : ∀ action d e, SameBooks d e → Allowed action e → Allowed action d)
    (h : Steps rt Allowed first d e) (h' : Steps rt Allowed second e f) :
    Steps rt Allowed (first ++ second) d f := by
  induction h with
  | nil hbooks => exact h'.congr hallowed hbooks
  | cons hthis hwrites _ ih => exact .cons hthis hwrites (ih h')

/-- What follows a run outside the books does not matter. -/
theorem silent (h : Steps rt Allowed actions d e) (hbooks : SameBooks e f) :
    Steps rt Allowed actions d f := by
  induction h with
  | nil h' => exact .nil (h'.trans hbooks)
  | cons hthis hwrites _ ih => exact .cons hthis hwrites (ih hbooks)

/-- A condition that all actions of a run satisfy may be added to those that allow them. -/
theorem restrict {P : Action → Prop} (h : Steps rt Allowed actions d e) (hall : ∀ action ∈ actions, P action) :
    Steps rt (fun action d => P action ∧ Allowed action d) actions d e := by
  induction h with
  | nil hbooks => exact .nil hbooks
  | cons hthis hwrites _ ih =>
      obtain ⟨hfirst, hrest⟩ := List.forall_mem_cons.mp hall
      exact .cons ⟨hfirst, hthis⟩ hwrites (ih hrest)

theorem weaken {Allowed' : Action → Db → Prop} (h : Steps rt Allowed actions d e)
    (hallowed : ∀ action d, Allowed action d → Allowed' action d) : Steps rt Allowed' actions d e := by
  induction h with
  | nil hbooks => exact .nil hbooks
  | cons hthis hwrites _ ih => exact .cons (hallowed _ _ hthis) hwrites ih

/-- What every allowed action keeps, a run keeps. -/
theorem keeps {I : Db → Prop} (hbooks : ∀ d e, SameBooks d e → I d → I e)
    (hstep : ∀ action d writes, Allowed action d → action.Writes rt d writes → I d →
      I (applyAll writes d))
    (h : Steps rt Allowed actions d e) (hd : I d) : I e := by
  induction h with
  | nil hsame => exact hbooks _ _ hsame hd
  | cons hthis hwrites _ ih => exact ih (hstep _ _ _ hthis hwrites hd)

end Steps

/-! ## What the actions do -/

/-- A state that changes gets one event. -/
def Audited (tenantId uuid : String) (previous : Option String) (next : String) (d e : Db) : Prop :=
  if previous = some next then e.reconciliationEvents = d.reconciliationEvents
  else ∃ event, IsAudit tenantId uuid previous next event ∧
    e.reconciliationEvents = d.reconciliationEvents ++ [event]

theorem AuditWrites.audited {tenantId uuid previous next : String} {writes : List Write} {d : Db}
    (h : AuditWrites tenantId uuid previous next writes) :
    Audited tenantId uuid (some previous) next d (applyAll writes d) ∧
      (applyAll writes d).ledger = d.ledger ∧ (applyAll writes d).documents = d.documents ∧
      (applyAll writes d).parties = d.parties ∧ (applyAll writes d).evidence = d.evidence := by
  cases h with
  | stays h =>
      refine ⟨?_, rfl, rfl, rfl, rfl⟩
      rw [Audited, if_pos (congrArg some h)]
      rfl
  | changes h hevent =>
      refine ⟨?_, rfl, rfl, rfl, rfl⟩
      rw [Audited, if_neg fun hsame => h (Option.some.inj hsame)]
      exact ⟨_, hevent, rfl⟩

/-- New party rows are those of one document. -/
def PartiesOf (tenantId uuid : String) (d e : Db) : Prop :=
  ∃ new, e.parties = d.parties ++ new ∧ ∀ row ∈ new, row.tenantId = tenantId ∧ row.documentUuid = uuid

/-- The lookups of the ledger change under one key. -/
def LedgerAt (tenantId uuid direction : String) (found : Option CfdiMetadataLedger) (d e : Db) : Prop :=
  ∀ t u x, findLedger t u x e =
    if t = tenantId ∧ u = uuid ∧ x = direction then found else findLedger t u x d

/-- The lookups of the documents change under one key. -/
def DocumentAt (tenantId uuid : String) (found : Option CfdiDocument) (d e : Db) : Prop :=
  ∀ t u, findDocument t u e = if t = tenantId ∧ u = uuid then found else findDocument t u d

section At

variable {tenantId uuid direction : String} {d e f : Db}

theorem ledgerAt_append {new : CfdiMetadataLedger} (hkey : IsLedgerRow tenantId uuid direction new)
    (hfree : findLedger tenantId uuid direction d = none) :
    LedgerAt tenantId uuid direction (some new) d (append d (.ledger new)) :=
  fun _ _ _ => findLedger_append_new hkey hfree

theorem ledgerAt_change {row : CfdiMetadataLedger} {change : CfdiMetadataLedger → CfdiMetadataLedger}
    (hkey : ∀ row, (change row).tenantId = row.tenantId ∧ (change row).uuid = row.uuid ∧
      (change row).direction = row.direction)
    (hfound : findLedger tenantId uuid direction d = some row) :
    LedgerAt tenantId uuid direction (some (change row)) d
      (changeLedger tenantId uuid direction change d) := by
  intro t u x
  rw [findLedger_change hkey]
  by_cases hsame : t = tenantId ∧ u = uuid ∧ x = direction
  · obtain ⟨rfl, rfl, rfl⟩ := hsame
    rw [if_pos ⟨rfl, rfl, rfl⟩, if_pos ⟨rfl, rfl, rfl⟩, hfound]
    rfl
  · rw [if_neg hsame, if_neg hsame]

theorem documentAt_append {new : CfdiDocument} (hkey : IsDocument tenantId uuid new)
    (hfree : findDocument tenantId uuid d = none) :
    DocumentAt tenantId uuid (some new) d (append d (.document new)) :=
  fun _ _ => findDocument_append_new hkey hfree

theorem documentAt_change {row : CfdiDocument} {change : CfdiDocument → CfdiDocument}
    (hkey : ∀ row, (change row).tenantId = row.tenantId ∧ (change row).uuid = row.uuid)
    (hfound : findDocument tenantId uuid d = some row) :
    DocumentAt tenantId uuid (some (change row)) d (changeDocument tenantId uuid change d) := by
  intro t u
  rw [findDocument_change hkey]
  by_cases hsame : t = tenantId ∧ u = uuid
  · obtain ⟨rfl, rfl⟩ := hsame
    rw [if_pos ⟨rfl, rfl⟩, if_pos ⟨rfl, rfl⟩, hfound]
    rfl
  · rw [if_neg hsame, if_neg hsame]

theorem LedgerAt.of_ledger {found : Option CfdiMetadataLedger}
    (h : LedgerAt tenantId uuid direction found d e) (hsame : f.ledger = e.ledger) :
    LedgerAt tenantId uuid direction found d f := by
  intro t u x
  rw [← h t u x]
  unfold findLedger
  rw [hsame]

theorem DocumentAt.of_documents {found : Option CfdiDocument}
    (h : DocumentAt tenantId uuid found d e) (hsame : f.documents = e.documents) :
    DocumentAt tenantId uuid found d f := by
  intro t u
  rw [← h t u]
  unfold findDocument
  rw [hsame]

/-- A lookup that stays is a change under its key as well. -/
theorem LedgerAt.refl (hsame : e.ledger = d.ledger) :
    LedgerAt tenantId uuid direction (findLedger tenantId uuid direction d) d e := by
  intro t u x
  have : findLedger t u x e = findLedger t u x d := by
    unfold findLedger
    rw [hsame]
  rw [this]
  split_ifs with hkey
  · obtain ⟨rfl, rfl, rfl⟩ := hkey
    rfl
  · rfl

end At

/-- What an entry does to the books. -/
structure EntryEffect (rt : Runtime) (q : DownloadQuery) (entry : MetadataEntry)
    (metadataSha256 : String) (d e : Db) : Prop where
  ledger : ∃ row, LedgerCarries entry metadataSha256 row ∧
    row.reconciliationState = entryState rt q entry d ∧
    LedgerAt q.tenantId entry.uuid q.direction.value (some row) d e
  document : q.requestType = .metadata → ∃ row, DocumentCarries entry row ∧
    row.xmlSha256 = (findDocument q.tenantId entry.uuid d).bind (·.xmlSha256) ∧
    (∀ old, findDocument q.tenantId entry.uuid d = some old → old.xmlSha256 ≠ none →
      row.downloadState = old.downloadState) ∧
    DocumentAt q.tenantId entry.uuid (some row) d e
  documents : q.requestType ≠ .metadata → e.documents = d.documents
  parties : PartiesOf q.tenantId entry.uuid d e
  evidence : e.evidence = d.evidence
  audit : Audited q.tenantId entry.uuid ((entryRow q entry d).map (·.reconciliationState))
    (entryState rt q entry d) d e

/-- What the XML of a document does to the books. -/
structure LoadEffect (q : DownloadQuery) (uuid xmlSha256 : String) (d e : Db) : Prop where
  document : ∃ row, row.xmlSha256 = some xmlSha256 ∧
    row.downloadState = ReconciliationState.xmlDownloaded.value ∧
    row.status = ((findDocument q.tenantId uuid d).map (·.status)).getD "vigente" ∧
    DocumentAt q.tenantId uuid (some row) d e
  parties : PartiesOf q.tenantId uuid d e
  known : (findDocument q.tenantId uuid d).isSome →
    e.documents.length = d.documents.length ∧ e.parties = d.parties
  evidence : (HasEvidence q.tenantId uuid xmlSha256 d ∧ e.evidence = d.evidence) ∨
    (¬ HasEvidence q.tenantId uuid xmlSha256 d ∧
      ∃ row, IsEvidence q.tenantId uuid xmlSha256 row ∧ e.evidence = d.evidence ++ [row])
  ledger : LedgerAt q.tenantId uuid q.direction.value
    ((findLedger q.tenantId uuid q.direction.value d).map
      (withState ReconciliationState.xmlDownloaded.value)) d e
  audit : match findLedger q.tenantId uuid q.direction.value d with
    | none => e.reconciliationEvents = d.reconciliationEvents
    | some row => Audited q.tenantId uuid (some row.reconciliationState)
        ReconciliationState.xmlDownloaded.value d e

/-- What the reconciliation of a row does to the books. -/
structure ReconcileEffect (row : CfdiMetadataLedger) (state : String) (d e : Db) : Prop where
  ledger : LedgerAt row.tenantId row.uuid row.direction (some (withState state row)) d e
  documents : e.documents = d.documents
  parties : e.parties = d.parties
  evidence : e.evidence = d.evidence
  audit : Audited row.tenantId row.uuid (some row.reconciliationState) state d e

theorem hasXml_iff {tenantId uuid : String} {d : Db} :
    hasXml tenantId uuid d = true ↔ ∃ xmlSha256, HasEvidence tenantId uuid xmlSha256 d := by
  simp only [hasXml, List.any_eq_true, decide_eq_true_eq, HasEvidence, IsEvidence]
  constructor
  · rintro ⟨row, hrow, htenant, huuid⟩
    exact ⟨row.xmlSha256, row, hrow, htenant, huuid, rfl⟩
  · rintro ⟨_, row, hrow, htenant, huuid, -⟩
    exact ⟨row, hrow, htenant, huuid⟩

section Effects

variable {rt : Runtime} {q : DownloadQuery} {entry : MetadataEntry} {d : Db} {writes : List Write}

theorem LedgerWrites.effect {metadataSha256 state : String}
    (h : LedgerWrites q entry metadataSha256 state (entryRow q entry d) writes) :
    (∃ row, LedgerCarries entry metadataSha256 row ∧ row.reconciliationState = state ∧
      LedgerAt q.tenantId entry.uuid q.direction.value (some row) d (applyAll writes d)) ∧
    Audited q.tenantId entry.uuid ((entryRow q entry d).map (·.reconciliationState)) state d
      (applyAll writes d) := by
  generalize hfound : entryRow q entry d = existing at h
  cases h with
  | discovered hkey hcarries hstate hevent =>
      refine ⟨⟨_, hcarries, hstate, ledgerAt_append hkey hfound⟩, ?_⟩
      rw [Audited, if_neg (by simp)]
      exact ⟨_, hevent, rfl⟩
  | updated hkey hcarries hstate haudits =>
      obtain ⟨haudited, hledger, -⟩ := haudits.audited
        (d := changeLedger q.tenantId entry.uuid q.direction.value _ d)
      exact ⟨⟨_, hcarries _, hstate _, (ledgerAt_change hkey hfound).of_ledger hledger⟩, haudited⟩

theorem DocumentWrites.effect {state : String}
    (h : DocumentWrites q entry state (findDocument q.tenantId entry.uuid d) writes) :
    (∃ row, DocumentCarries entry row ∧
      row.xmlSha256 = (findDocument q.tenantId entry.uuid d).bind (·.xmlSha256) ∧
      (∀ old, findDocument q.tenantId entry.uuid d = some old → old.xmlSha256 ≠ none →
        row.downloadState = old.downloadState) ∧
      DocumentAt q.tenantId entry.uuid (some row) d (applyAll writes d)) ∧
    PartiesOf q.tenantId entry.uuid d (applyAll writes d) ∧
    (applyAll writes d).ledger = d.ledger ∧ (applyAll writes d).evidence = d.evidence ∧
    (applyAll writes d).reconciliationEvents = d.reconciliationEvents := by
  generalize hfound : findDocument q.tenantId entry.uuid d = existing at h
  cases h with
  | discovered hkey hcarries hxml hstate =>
      refine ⟨⟨_, hcarries, hxml, ?_, (documentAt_append hkey hfound).of_documents rfl⟩,
        ⟨_, List.append_assoc _ _ _, ?_⟩, rfl, rfl, rfl⟩
      · intro old hold
        cases hold
      · simp
  | updated hkey hcarries hxml hstate =>
      refine ⟨⟨_, hcarries _, hxml _, fun old hold hset => ?_, documentAt_change hkey hfound⟩,
        ⟨[], (List.append_nil _).symm, by simp⟩, rfl, rfl, rfl⟩
      cases hold
      rw [hstate, if_neg hset]

theorem EntryWrites.effect {metadataSha256 : String} (h : EntryWrites rt q entry metadataSha256 d writes) :
    EntryEffect rt q entry metadataSha256 d (applyAll writes d) := by
  obtain ⟨ledgerWrites, documentWrites, rfl, hledger, hdocument⟩ := h
  obtain ⟨⟨row, hcarries, hstate, hat⟩, haudited⟩ := hledger.effect
  obtain ⟨hdocuments, hevidence, hparties⟩ := hledger.tables (d := d)
  rw [applyAll_append]
  generalize applyAll ledgerWrites d = m at *
  have hfound : ∀ t u, findDocument t u m = findDocument t u d := by
    intro t u
    unfold findDocument
    rw [hdocuments]
  by_cases hmetadata : q.requestType = .metadata
  · rw [if_pos hmetadata, ← hfound] at hdocument
    obtain ⟨⟨doc, hdoc, hxml, hdownload, hdocAt⟩, ⟨new, hnew, hof⟩, hledger', hevidence', hevents⟩ :=
      hdocument.effect
    refine ⟨⟨row, hcarries, hstate, hat.of_ledger hledger'⟩, fun _ => ⟨doc, hdoc, ?_, ?_, ?_⟩,
      fun h => absurd hmetadata h, ⟨new, hparties ▸ hnew, hof⟩, hevidence'.trans hevidence, ?_⟩
    · rw [hxml, hfound]
    · intro old hold
      exact hdownload old ((hfound _ _).trans hold)
    · intro t u
      rw [hdocAt, hfound]
    · unfold Audited at haudited ⊢
      rwa [hevents]
  · rw [if_neg hmetadata] at hdocument
    subst hdocument
    exact ⟨⟨row, hcarries, hstate, hat⟩, fun h => absurd h hmetadata, fun _ => hdocuments,
      ⟨[], by rw [List.append_nil]; exact hparties, by simp⟩, hevidence, haudited⟩

theorem XmlDocumentWrites.effect {tenantId uuid xmlSha256 : String}
    (h : XmlDocumentWrites tenantId uuid xmlSha256 (findDocument tenantId uuid d) writes) :
    (∃ row, row.xmlSha256 = some xmlSha256 ∧
      row.downloadState = ReconciliationState.xmlDownloaded.value ∧
      row.status = ((findDocument tenantId uuid d).map (·.status)).getD "vigente" ∧
      DocumentAt tenantId uuid (some row) d (applyAll writes d)) ∧
    PartiesOf tenantId uuid d (applyAll writes d) ∧
    ((findDocument tenantId uuid d).isSome →
      (applyAll writes d).documents.length = d.documents.length ∧
      (applyAll writes d).parties = d.parties) ∧
    (applyAll writes d).reconciliationEvents = d.reconciliationEvents := by
  generalize hfound : findDocument tenantId uuid d = existing at h
  cases h with
  | discovered hkey hstatus hxml hstate =>
      refine ⟨⟨_, hxml, hstate, hstatus, (documentAt_append hkey hfound).of_documents rfl⟩,
        ⟨_, List.append_assoc _ _ _, ?_⟩, ?_, rfl⟩
      · simp
      · intro hsome
        cases hsome
  | updated hkey hstatus hxml hstate =>
      exact ⟨⟨_, hxml _, hstate _, hstatus _, documentAt_change hkey hfound⟩,
        ⟨[], (List.append_nil _).symm, by simp⟩, fun _ => ⟨List.length_map _, rfl⟩, rfl⟩

theorem EvidenceWrites.effect {tenantId uuid xmlSha256 : String}
    (h : EvidenceWrites tenantId uuid xmlSha256 (hasEvidence tenantId uuid xmlSha256 d) writes) :
    ((HasEvidence tenantId uuid xmlSha256 d ∧ (applyAll writes d).evidence = d.evidence) ∨
      (¬ HasEvidence tenantId uuid xmlSha256 d ∧ ∃ row, IsEvidence tenantId uuid xmlSha256 row ∧
        (applyAll writes d).evidence = d.evidence ++ [row])) ∧
    (applyAll writes d).reconciliationEvents = d.reconciliationEvents := by
  generalize hfound : hasEvidence tenantId uuid xmlSha256 d = recorded at h
  cases h with
  | recorded => exact ⟨.inl ⟨hasEvidence_iff.mp hfound, rfl⟩, rfl⟩
  | added hkey =>
      refine ⟨.inr ⟨fun h => ?_, _, hkey, rfl⟩, rfl⟩
      rw [hasEvidence_iff.mpr h] at hfound
      cases hfound

theorem StoredWrites.effect {tenantId uuid direction : String}
    (h : StoredWrites tenantId uuid direction (findLedger tenantId uuid direction d) writes) :
    LedgerAt tenantId uuid direction ((findLedger tenantId uuid direction d).map
      (withState ReconciliationState.xmlDownloaded.value)) d (applyAll writes d) ∧
    (match findLedger tenantId uuid direction d with
      | none => (applyAll writes d).reconciliationEvents = d.reconciliationEvents
      | some row => Audited tenantId uuid (some row.reconciliationState)
          ReconciliationState.xmlDownloaded.value d (applyAll writes d)) ∧
    (applyAll writes d).documents = d.documents ∧ (applyAll writes d).parties = d.parties ∧
    (applyAll writes d).evidence = d.evidence := by
  generalize hfound : findLedger tenantId uuid direction d = existing at h
  cases h with
  | missing =>
      refine ⟨?_, rfl, rfl, rfl, rfl⟩
      rw [Option.map_none, ← hfound]
      exact LedgerAt.refl rfl
  | marked haudits =>
      obtain ⟨haudited, hledger, hdocuments, hparties, hevidence⟩ := haudits.audited
        (d := changeLedger tenantId uuid direction (withState _) d)
      exact ⟨(ledgerAt_change (withState_key _) hfound).of_ledger hledger, haudited, hdocuments,
        hparties, hevidence⟩

theorem LoadWrites.effect {uuid xmlSha256 : String} (h : LoadWrites q uuid xmlSha256 d writes) :
    LoadEffect q uuid xmlSha256 d (applyAll writes d) := by
  obtain ⟨documentWrites, evidenceWrites, ledgerWrites, rfl, hdocument, hadded, hstored⟩ := h
  obtain ⟨⟨row, hxml, hstate, hstatus, hat⟩, ⟨new, hnew, hof⟩, hsome, hevents⟩ := hdocument.effect
  obtain ⟨hevidence, hledger⟩ := hdocument.tables (d := d)
  rw [applyAll_append, applyAll_append]
  generalize applyAll documentWrites d = m at *
  have hrecorded : hasEvidence q.tenantId uuid xmlSha256 m = hasEvidence q.tenantId uuid xmlSha256 d := by
    unfold hasEvidence
    rw [hevidence]
  rw [← hrecorded] at hadded
  obtain ⟨hadd, hevents'⟩ := hadded.effect
  obtain ⟨hledger', hdocuments', hparties'⟩ := hadded.tables (d := m)
  generalize applyAll evidenceWrites m = n at *
  have hfound : ∀ t u x, findLedger t u x n = findLedger t u x d := by
    intro t u x
    unfold findLedger
    rw [hledger', hledger]
  rw [← hfound] at hstored
  obtain ⟨hledgerAt, haudit, hdocuments'', hparties'', hevidence''⟩ := hstored.effect
  refine ⟨⟨row, hxml, hstate, hstatus, ?_⟩, ⟨new, ?_, hof⟩, fun h => ?_, ?_, ?_, ?_⟩
  · exact (hat.of_documents hdocuments').of_documents hdocuments''
  · rw [hparties'', hparties', hnew]
  · rw [hparties'', hparties', hdocuments'', hdocuments']
    exact hsome h
  · have hsame : HasEvidence q.tenantId uuid xmlSha256 m ↔ HasEvidence q.tenantId uuid xmlSha256 d := by
      rw [← hasEvidence_iff, hrecorded, hasEvidence_iff]
    rcases hadd with ⟨hhas, hkept⟩ | ⟨hnot, row, hkey, hgrown⟩
    · exact .inl ⟨hsame.mp hhas, by rw [hevidence'', hkept, hevidence]⟩
    · exact .inr ⟨fun h => hnot (hsame.mpr h), row, hkey, by rw [hevidence'', hgrown, hevidence]⟩
  · intro t u x
    rw [hledgerAt t u x, hfound, hfound]
  · rw [hfound] at haudit
    unfold Audited at haudit ⊢
    rw [hevents', hevents] at haudit
    exact haudit

theorem ReconcileWrites.effect {row : CfdiMetadataLedger} {state : String}
    (h : ReconcileWrites row state writes)
    (hfound : findLedger row.tenantId row.uuid row.direction d = some row) :
    ReconcileEffect row state d (applyAll writes d) := by
  cases h with
  | stays hsame =>
      refine ⟨?_, rfl, rfl, rfl, ?_⟩
      · have : some (withState state row) = findLedger row.tenantId row.uuid row.direction d := by
          rw [hfound, ← hsame]
          rfl
        rw [this]
        exact LedgerAt.refl rfl
      · rw [Audited, if_pos (congrArg some hsame)]
        rfl
  | changes hchanged hevent =>
      refine ⟨ledgerAt_change (withState_key state) hfound, rfl, rfl, rfl, ?_⟩
      rw [Audited, if_neg fun h => hchanged (Option.some.inj h)]
      exact ⟨_, hevent, rfl⟩

end Effects

/-! ## Keys stay unique -/

/-- A write that adds no key. -/
def Write.Keyless : Write → Prop
  | .add (.reconciliationEvent _) | .add (.party _) => True
  | .add _ => False
  | .ledger .. | .document .. => True

section Keys

variable {rt : Runtime} {q : DownloadQuery} {d : Db} {writes : List Write} {tenantId uuid : String}

theorem Unique.add {row : Row} (h : Unique d) (hrow : ¬ Clashes d row) :
    Unique ((Write.add row).onDb d) := h.append hrow

theorem Unique.keyless (h : Unique d) (hwrites : ∀ write ∈ writes, write.Keyless) :
    Unique (applyAll writes d) := by
  induction writes generalizing d with
  | nil => exact h
  | cons write rest ih =>
      obtain ⟨hwrite, hrest⟩ := List.forall_mem_cons.mp hwrites
      refine ih ?_ hrest
      cases write with
      | add row => cases row <;> first | exact h.add id | exact False.elim hwrite
      | ledger _ _ _ _ hkey => exact h.changeLedger hkey
      | document _ _ _ hkey => exact h.changeDocument hkey

theorem AuditWrites.keyless {previous next : String} (h : AuditWrites tenantId uuid previous next writes) :
    ∀ write ∈ writes, write.Keyless := by
  cases h <;> simp [Write.Keyless]

theorem parties_keyless {issuerRfc issuerName receiverRfc receiverName : String} :
    ∀ write ∈ (parties tenantId uuid issuerRfc issuerName receiverRfc receiverName).map Write.add,
      write.Keyless := by
  simp [parties, Write.Keyless]

theorem LedgerWrites.unique {entry : MetadataEntry} {metadataSha256 state : String}
    (h : LedgerWrites q entry metadataSha256 state (entryRow q entry d) writes) (hd : Unique d) :
    Unique (applyAll writes d) := by
  generalize hfound : entryRow q entry d = existing at h
  cases h with
  | discovered hkey =>
      rw [applyAll_cons]
      refine Unique.keyless (hd.add fun hclash => findLedger_eq_none.mp hfound ?_) (by simp [Write.Keyless])
      obtain ⟨htenant, huuid, hdirection⟩ := hkey
      rw [← htenant, ← huuid, ← hdirection]
      exact hclash
  | updated hkey _ _ haudits =>
      exact Unique.keyless hd (List.forall_mem_cons.mpr ⟨trivial, haudits.keyless⟩)

theorem DocumentWrites.unique {entry : MetadataEntry} {state : String}
    (h : DocumentWrites q entry state (findDocument q.tenantId entry.uuid d) writes) (hd : Unique d) :
    Unique (applyAll writes d) := by
  generalize hfound : findDocument q.tenantId entry.uuid d = existing at h
  cases h with
  | discovered hkey =>
      rw [applyAll_cons]
      refine Unique.keyless (hd.add fun hclash => findDocument_eq_none.mp hfound ?_) parties_keyless
      obtain ⟨htenant, huuid⟩ := hkey
      rw [← htenant, ← huuid]
      exact hclash
  | updated hkey => exact hd.changeDocument hkey

theorem XmlDocumentWrites.unique {xmlSha256 : String}
    (h : XmlDocumentWrites tenantId uuid xmlSha256 (findDocument tenantId uuid d) writes) (hd : Unique d) :
    Unique (applyAll writes d) := by
  generalize hfound : findDocument tenantId uuid d = existing at h
  cases h with
  | discovered hkey =>
      rw [applyAll_cons]
      refine Unique.keyless (hd.add fun hclash => findDocument_eq_none.mp hfound ?_) parties_keyless
      obtain ⟨htenant, huuid⟩ := hkey
      rw [← htenant, ← huuid]
      exact hclash
  | updated hkey => exact hd.changeDocument hkey

theorem EvidenceWrites.unique {xmlSha256 : String}
    (h : EvidenceWrites tenantId uuid xmlSha256 (hasEvidence tenantId uuid xmlSha256 d) writes)
    (hd : Unique d) : Unique (applyAll writes d) := by
  generalize hfound : hasEvidence tenantId uuid xmlSha256 d = recorded at h
  cases h with
  | recorded => exact hd
  | added hkey =>
      rw [applyAll_cons, applyAll_nil]
      refine hd.add fun hclash => ?_
      obtain ⟨rfl, rfl, rfl⟩ := hkey
      rw [hasEvidence_iff.mpr hclash] at hfound
      cases hfound

theorem StoredWrites.keyless {direction : String} {existing : Option CfdiMetadataLedger}
    (h : StoredWrites tenantId uuid direction existing writes) : ∀ write ∈ writes, write.Keyless := by
  cases h with
  | missing => simp
  | marked haudits => exact List.forall_mem_cons.mpr ⟨trivial, haudits.keyless⟩

/-- An action keeps the keys of the books unique. -/
theorem Action.Writes.unique {action : Action} (h : action.Writes rt d writes) (hd : Unique d) :
    Unique (applyAll writes d) := by
  cases action with
  | ingest q entry metadataSha256 =>
      obtain ⟨ledgerWrites, documentWrites, rfl, hledger, hdocument⟩ := h
      have hmiddle := hledger.unique hd
      obtain ⟨hdocuments, -, -⟩ := hledger.tables (d := d)
      rw [applyAll_append]
      split at hdocument
      · have hfound : findDocument q.tenantId entry.uuid (applyAll ledgerWrites d) =
            findDocument q.tenantId entry.uuid d := by
          unfold findDocument
          rw [hdocuments]
        rw [← hfound] at hdocument
        exact hdocument.unique hmiddle
      · rw [hdocument]
        exact hmiddle
  | load q uuid xmlSha256 =>
      obtain ⟨documentWrites, evidenceWrites, ledgerWrites, rfl, hdocument, hadded, hstored⟩ := h
      have hmiddle := hdocument.unique hd
      obtain ⟨hevidence, -⟩ := hdocument.tables (d := d)
      have hfound : hasEvidence q.tenantId uuid xmlSha256 (applyAll documentWrites d) =
          hasEvidence q.tenantId uuid xmlSha256 d := by
        unfold hasEvidence
        rw [hevidence]
      rw [← hfound] at hadded
      rw [applyAll_append, applyAll_append]
      exact (hadded.unique hmiddle).keyless hstored.keyless
  | reconcile tenantId uuid direction =>
      obtain ⟨row, -, hwrites⟩ := h
      refine hd.keyless ?_
      cases hwrites <;> simp [Write.Keyless]

theorem Steps.unique {Allowed : Action → Db → Prop} {actions : List Action} {e : Db}
    (h : Steps rt Allowed actions d e) (hd : Unique d) : Unique e :=
  h.keeps (fun _ _ hsame hu => by
    obtain ⟨hledger, hdocuments, -, hevidence, -⟩ := hsame
    exact ⟨hledger ▸ hu.ledger, hdocuments ▸ hu.documents, hevidence ▸ hu.evidence⟩)
    (fun _ _ _ _ hwrites hu => hwrites.unique hu) hd

end Keys

end Recovery

end CfdiVault
