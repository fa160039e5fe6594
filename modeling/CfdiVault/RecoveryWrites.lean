import CfdiVault.Library.Keyed
import CfdiVault.RecoverySteps

/-!
# Writes of a transaction

What the loops of the recovery service write to the books (ledger, documents, parties,
evidence and audit log), as data: a turn of a loop is a list of writes that depends on
the rows it reads.  `Write.onSession` makes a write in a session, where new rows wait to be
flushed and are not read; `Write.onDb` makes it at once.

`merged` is the database that a flush would leave behind, and `Fits` says that the flush
succeeds.  For a session that fits, deferred writes are immediate writes on the merged
database (`merged_writeAll`), because a row that waits and would have been read makes a
later flush fail.
-/

namespace CfdiVault

namespace Recovery

/-! ## Rows of the tables -/

def ledgerRows : Row → List CfdiMetadataLedger
  | .ledger row => [row]
  | _ => []

def documentRows : Row → List CfdiDocument
  | .document row => [row]
  | _ => []

def evidenceRows : Row → List XmlEvidence
  | .evidence row => [row]
  | _ => []

/-- Appended rows stand behind the rows of their table. -/
theorem foldl_append_table {α : Type} {table : Db → List α} {entries : Row → List α}
    (hstep : ∀ d row, table (append d row) = table d ++ entries row) (rows : List Row) (d : Db) :
    table (rows.foldl append d) = table d ++ rows.flatMap entries := by
  induction rows generalizing d with
  | nil => rw [List.foldl_nil, List.flatMap_nil, List.append_nil]
  | cons row rest ih => rw [List.foldl_cons, ih, hstep, List.flatMap_cons, List.append_assoc]

theorem append_ledger (d : Db) (row : Row) : (append d row).ledger = d.ledger ++ ledgerRows row := by
  cases row <;> simp [append, ledgerRows]

theorem append_documents (d : Db) (row : Row) :
    (append d row).documents = d.documents ++ documentRows row := by
  cases row <;> simp [append, documentRows]

theorem append_evidence (d : Db) (row : Row) :
    (append d row).evidence = d.evidence ++ evidenceRows row := by
  cases row <;> simp [append, evidenceRows]

/-! ## Keys -/

/-- Two new rows repeat a key of each other. -/
def Conflict (row other : Row) : Prop := Clashes (append {} row) other

theorem clashes_append (d : Db) (row other : Row) :
    Clashes (append d row) other ↔ Clashes d other ∨ Conflict row other := by
  cases row <;> cases other <;> simp [Clashes, Conflict, append, or_and_right, exists_or]

/-- No two rows of the books have the same key. -/
structure Unique (d : Db) : Prop where
  ledger : d.ledger.Pairwise fun a b =>
    ¬ (a.tenantId = b.tenantId ∧ a.uuid = b.uuid ∧ a.direction = b.direction)
  documents : d.documents.Pairwise fun a b => ¬ (a.tenantId = b.tenantId ∧ a.uuid = b.uuid)
  evidence : d.evidence.Pairwise fun a b =>
    ¬ (a.tenantId = b.tenantId ∧ a.uuid = b.uuid ∧ a.xmlSha256 = b.xmlSha256)

theorem Unique.append {d : Db} (h : Unique d) {row : Row} (hrow : ¬ Clashes d row) :
    Unique (append d row) := by
  obtain ⟨hledger, hdocuments, hevidence⟩ := h
  cases row <;> first | exact ⟨hledger, hdocuments, hevidence⟩ | skip
  case document row =>
    refine ⟨hledger, List.pairwise_append.mpr ⟨hdocuments, List.pairwise_singleton _ _, ?_⟩, hevidence⟩
    intro a ha b hb hsame
    rw [List.mem_singleton.mp hb] at hsame
    exact hrow ⟨a, ha, hsame⟩
  case ledger row =>
    refine ⟨List.pairwise_append.mpr ⟨hledger, List.pairwise_singleton _ _, ?_⟩, hdocuments, hevidence⟩
    intro a ha b hb hsame
    rw [List.mem_singleton.mp hb] at hsame
    exact hrow ⟨a, ha, hsame⟩
  case evidence row =>
    refine ⟨hledger, hdocuments, List.pairwise_append.mpr ⟨hevidence, List.pairwise_singleton _ _, ?_⟩⟩
    intro a ha b hb hsame
    rw [List.mem_singleton.mp hb] at hsame
    exact hrow ⟨a, ha, hsame⟩

theorem Unique.changeLedger {d : Db} (h : Unique d) {tenantId uuid direction : String}
    {change : CfdiMetadataLedger → CfdiMetadataLedger}
    (hkey : ∀ row, (change row).tenantId = row.tenantId ∧ (change row).uuid = row.uuid ∧
      (change row).direction = row.direction) :
    Unique (changeLedger tenantId uuid direction change d) := by
  have hkeys : ∀ row, (if IsLedgerRow tenantId uuid direction row then change row else row).tenantId =
        row.tenantId ∧
      (if IsLedgerRow tenantId uuid direction row then change row else row).uuid = row.uuid ∧
      (if IsLedgerRow tenantId uuid direction row then change row else row).direction =
        row.direction := by
    intro row
    split
    · exact hkey row
    · exact ⟨rfl, rfl, rfl⟩
  refine ⟨?_, h.documents, h.evidence⟩
  refine List.pairwise_map.mpr (h.ledger.imp fun hne => ?_)
  rwa [(hkeys _).1, (hkeys _).1, (hkeys _).2.1, (hkeys _).2.1, (hkeys _).2.2, (hkeys _).2.2]

theorem Unique.changeDocument {d : Db} (h : Unique d) {tenantId uuid : String}
    {change : CfdiDocument → CfdiDocument}
    (hkey : ∀ row, (change row).tenantId = row.tenantId ∧ (change row).uuid = row.uuid) :
    Unique (changeDocument tenantId uuid change d) := by
  have hkeys : ∀ row, (if IsDocument tenantId uuid row then change row else row).tenantId =
        row.tenantId ∧
      (if IsDocument tenantId uuid row then change row else row).uuid = row.uuid := by
    intro row
    split
    · exact hkey row
    · exact ⟨rfl, rfl⟩
  refine ⟨h.ledger, ?_, h.evidence⟩
  refine List.pairwise_map.mpr (h.documents.imp fun hne => ?_)
  rwa [(hkeys _).1, (hkeys _).1, (hkeys _).2, (hkeys _).2]

theorem Unique.flush {s t : Session Db Row} (h : Unique s.working) (hflush : s.flush? insert = some t) :
    Unique t.working := by
  obtain ⟨d, hd, rfl⟩ := Session.flush?_eq_some.mp hflush
  refine Session.insertAll_keeps (I := Unique) (fun row _ d d' hu hinsert => ?_) hd h
  obtain ⟨hclash, rfl⟩ := insert_eq_some.mp hinsert
  exact hu.append hclash

/-- A transaction keeps the keys of the books unique. -/
theorem unique_stable (tenantId jobId : String) : Stable tenantId jobId fun s => Unique s.working where
  add _ _ _ h := h
  update change s hchange h := by
    cases hchange with
    | ledger uuid direction change hkey => exact h.changeLedger hkey
    | document uuid change hkey => exact h.changeDocument hkey
    | package => exact ⟨h.ledger, h.documents, h.evidence⟩
    | job => exact ⟨h.ledger, h.documents, h.evidence⟩
  flush _ _ hflush h := h.flush hflush

/-! ## Writes -/

/-- One write to the books: a new row, or new values for the ledger row or the document
of a key, which keep the key. -/
inductive Write where
  | add (row : Row)
  | ledger (tenantId uuid direction : String) (change : CfdiMetadataLedger → CfdiMetadataLedger)
      (hkey : ∀ row, (change row).tenantId = row.tenantId ∧ (change row).uuid = row.uuid ∧
        (change row).direction = row.direction)
  | document (tenantId uuid : String) (change : CfdiDocument → CfdiDocument)
      (hkey : ∀ row, (change row).tenantId = row.tenantId ∧ (change row).uuid = row.uuid)

namespace Write

/-- The write in a session. -/
def onSession (s : Session Db Row) : Write → Session Db Row
  | .add row => s.add row
  | .ledger tenantId uuid direction change _ => s.update (changeLedger tenantId uuid direction change)
  | .document tenantId uuid change _ => s.update (changeDocument tenantId uuid change)

/-- The write on a database. -/
def onDb (d : Db) : Write → Db
  | .add row => append d row
  | .ledger tenantId uuid direction change _ => changeLedger tenantId uuid direction change d
  | .document tenantId uuid change _ => changeDocument tenantId uuid change d

end Write

/-- Writes in a session, one after the other. -/
def writeAll (writes : List Write) (s : Session Db Row) : Session Db Row :=
  writes.foldl Write.onSession s

/-- Writes on a database, one after the other. -/
def applyAll (writes : List Write) (d : Db) : Db := writes.foldl Write.onDb d

@[simp] theorem writeAll_nil (s : Session Db Row) : writeAll [] s = s := rfl

@[simp] theorem writeAll_cons (write : Write) (writes : List Write) (s : Session Db Row) :
    writeAll (write :: writes) s = writeAll writes (write.onSession s) := rfl

theorem writeAll_append (first second : List Write) (s : Session Db Row) :
    writeAll (first ++ second) s = writeAll second (writeAll first s) := List.foldl_append

@[simp] theorem applyAll_nil (d : Db) : applyAll [] d = d := rfl

@[simp] theorem applyAll_cons (write : Write) (writes : List Write) (d : Db) :
    applyAll (write :: writes) d = applyAll writes (write.onDb d) := rfl

theorem applyAll_append (first second : List Write) (d : Db) :
    applyAll (first ++ second) d = applyAll second (applyAll first d) := List.foldl_append

/-! ## The database of a flush -/

/-- The database that a flush of the session leaves behind. -/
def merged (s : Session Db Row) : Db := s.pending.foldl append s.working

/-- The flush of the session succeeds. -/
def Fits (s : Session Db Row) : Prop :=
  (∀ row ∈ s.pending, ¬ Clashes s.working row) ∧ s.pending.Pairwise fun a b => ¬ Conflict a b

theorem flush?_eq_some_iff {s t : Session Db Row} :
    s.flush? insert = some t ↔ Fits s ∧ t = ⟨s.committed, merged s, []⟩ := by
  rw [Session.flush?_eq_some]
  constructor
  · rintro ⟨d, hd, rfl⟩
    obtain ⟨hclash, hpair, rfl⟩ :=
      (Session.insertAll_eq_some_iff (fun _ _ _ => insert_eq_some) clashes_append).mp hd
    exact ⟨⟨hclash, hpair⟩, rfl⟩
  · rintro ⟨⟨hclash, hpair⟩, rfl⟩
    exact ⟨merged s, (Session.insertAll_eq_some_iff (fun _ _ _ => insert_eq_some) clashes_append).mpr
      ⟨hclash, hpair, rfl⟩, rfl⟩

theorem fits_idle (d : Db) : Fits (Session.idle d) :=
  ⟨fun _ hrow => absurd hrow List.not_mem_nil, List.Pairwise.nil⟩

theorem merged_add (row : Row) (s : Session Db Row) : merged (s.add row) = append (merged s) row := by
  rw [merged, Session.add_pending, List.foldl_append]
  rfl

/-- A session with one more row fits where the row clashes with nothing, stored or waiting. -/
theorem fits_add {row : Row} {s : Session Db Row} :
    Fits (s.add row) ↔ Fits s ∧ ¬ Clashes (merged s) row := by
  have hmerged : Clashes (merged s) row ↔ Clashes s.working row ∨ ∃ r ∈ s.pending, Conflict r row :=
    Session.clashes_foldl clashes_append
  rw [hmerged, Fits, Fits, Session.add_pending, Session.add_working, List.pairwise_append,
    List.forall_mem_append, List.forall_mem_singleton]
  simp only [List.mem_singleton, forall_eq, not_or, not_exists, not_and, List.pairwise_singleton,
    true_and]
  tauto

theorem Unique.merged {s : Session Db Row} (h : Unique s.working) (hfits : Fits s) :
    Unique (merged s) := by
  exact h.flush (flush?_eq_some_iff.mpr ⟨hfits, rfl⟩)

theorem merged_ledger (s : Session Db Row) :
    (merged s).ledger = s.working.ledger ++ s.pending.flatMap ledgerRows :=
  foldl_append_table append_ledger s.pending s.working

theorem merged_documents (s : Session Db Row) :
    (merged s).documents = s.working.documents ++ s.pending.flatMap documentRows :=
  foldl_append_table append_documents s.pending s.working

theorem merged_evidence (s : Session Db Row) :
    (merged s).evidence = s.working.evidence ++ s.pending.flatMap evidenceRows :=
  foldl_append_table append_evidence s.pending s.working

/-! ## Rows of a key -/

/-- The tenant has a ledger row for the document in the direction. -/
def HasLedger (tenantId uuid direction : String) (d : Db) : Prop :=
  ∃ row ∈ d.ledger, IsLedgerRow tenantId uuid direction row

/-- The tenant has the document. -/
def HasDocument (tenantId uuid : String) (d : Db) : Prop :=
  ∃ row ∈ d.documents, IsDocument tenantId uuid row

/-- An evidence row of a document with a digest. -/
def IsEvidence (tenantId uuid xmlSha256 : String) (row : XmlEvidence) : Prop :=
  row.tenantId = tenantId ∧ row.uuid = uuid ∧ row.xmlSha256 = xmlSha256

instance (tenantId uuid xmlSha256 : String) (row : XmlEvidence) :
    Decidable (IsEvidence tenantId uuid xmlSha256 row) := by
  unfold IsEvidence
  infer_instance

/-- The bytes are recorded as evidence of the document. -/
def HasEvidence (tenantId uuid xmlSha256 : String) (d : Db) : Prop :=
  ∃ row ∈ d.evidence, IsEvidence tenantId uuid xmlSha256 row

/-- The ledger row of a key. -/
def findLedger (tenantId uuid direction : String) (d : Db) : Option CfdiMetadataLedger :=
  d.ledger.find? fun row => IsLedgerRow tenantId uuid direction row

/-- The document of a key. -/
def findDocument (tenantId uuid : String) (d : Db) : Option CfdiDocument :=
  d.documents.find? fun row => IsDocument tenantId uuid row

section Keys

variable {tenantId uuid direction : String} {s : Session Db Row} {d : Db}

theorem findLedger_eq_none : findLedger tenantId uuid direction d = none ↔
    ¬ HasLedger tenantId uuid direction d := by
  simp [findLedger, List.find?_eq_none, HasLedger]

theorem findLedger_isSome : (findLedger tenantId uuid direction d).isSome ↔
    HasLedger tenantId uuid direction d := by
  simp [findLedger, List.find?_isSome, HasLedger]

theorem findDocument_eq_none : findDocument tenantId uuid d = none ↔
    ¬ HasDocument tenantId uuid d := by
  simp [findDocument, List.find?_eq_none, HasDocument]

theorem findDocument_isSome : (findDocument tenantId uuid d).isSome ↔
    HasDocument tenantId uuid d := by
  simp [findDocument, List.find?_isSome, HasDocument]

theorem findLedger_spec {row : CfdiMetadataLedger} (h : findLedger tenantId uuid direction d = some row) :
    row ∈ d.ledger ∧ IsLedgerRow tenantId uuid direction row :=
  ⟨List.mem_of_find?_eq_some h, by simpa using List.find?_some h⟩

theorem findDocument_spec {row : CfdiDocument} (h : findDocument tenantId uuid d = some row) :
    row ∈ d.documents ∧ IsDocument tenantId uuid row :=
  ⟨List.mem_of_find?_eq_some h, by simpa using List.find?_some h⟩

/-- Where a stored row has the key, no row with it waits. -/
theorem Fits.ledger_settled (h : Fits s) (hrow : HasLedger tenantId uuid direction s.working) :
    ∀ row, Row.ledger row ∈ s.pending → ¬ IsLedgerRow tenantId uuid direction row := by
  rintro row hpending ⟨rfl, rfl, rfl⟩
  obtain ⟨stored, hstored, hkey⟩ := hrow
  exact h.1 _ hpending ⟨stored, hstored, hkey⟩

theorem Fits.document_settled (h : Fits s) (hrow : HasDocument tenantId uuid s.working) :
    ∀ row, Row.document row ∈ s.pending → ¬ IsDocument tenantId uuid row := by
  rintro row hpending ⟨rfl, rfl⟩
  obtain ⟨stored, hstored, hkey⟩ := hrow
  exact h.1 _ hpending ⟨stored, hstored, hkey⟩

/-- A stored ledger row is the one that the merged database shows. -/
theorem findLedger_merged {row : CfdiMetadataLedger}
    (h : findLedger tenantId uuid direction s.working = some row) :
    findLedger tenantId uuid direction (merged s) = some row := by
  rw [findLedger, merged_ledger, List.find?_append, ← findLedger, h]
  rfl

theorem findDocument_merged {row : CfdiDocument} (h : findDocument tenantId uuid s.working = some row) :
    findDocument tenantId uuid (merged s) = some row := by
  rw [findDocument, merged_documents, List.find?_append, ← findDocument, h]
  rfl

/-- With unique keys, a row is the only one under its key. -/
theorem Unique.soleLedger (h : Unique d) : d.ledger.Pairwise fun a b =>
    ¬ (IsLedgerRow tenantId uuid direction a ∧ IsLedgerRow tenantId uuid direction b) := by
  refine h.ledger.imp fun hne hboth => hne ?_
  obtain ⟨⟨rfl, rfl, rfl⟩, htenant, huuid, hdirection⟩ := hboth
  exact ⟨htenant.symm, huuid.symm, hdirection.symm⟩

theorem Unique.soleDocument (h : Unique d) : d.documents.Pairwise fun a b =>
    ¬ (IsDocument tenantId uuid a ∧ IsDocument tenantId uuid b) := by
  refine h.documents.imp fun hne hboth => hne ?_
  obtain ⟨⟨rfl, rfl⟩, htenant, huuid⟩ := hboth
  exact ⟨htenant.symm, huuid.symm⟩

theorem Unique.soleEvidence {xmlSha256 : String} (h : Unique d) : d.evidence.Pairwise fun a b =>
    ¬ (IsEvidence tenantId uuid xmlSha256 a ∧ IsEvidence tenantId uuid xmlSha256 b) := by
  refine h.evidence.imp fun hne hboth => hne ?_
  obtain ⟨⟨rfl, rfl, rfl⟩, htenant, huuid, hsha⟩ := hboth
  exact ⟨htenant.symm, huuid.symm, hsha.symm⟩

theorem findLedger_of_mem {row : CfdiMetadataLedger} (h : Unique d) (hrow : row ∈ d.ledger)
    (hkey : IsLedgerRow tenantId uuid direction row) : findLedger tenantId uuid direction d = some row :=
  Keyed.find?_eq_some_of_sole h.soleLedger hrow hkey

theorem findDocument_of_mem {row : CfdiDocument} (h : Unique d) (hrow : row ∈ d.documents)
    (hkey : IsDocument tenantId uuid row) : findDocument tenantId uuid d = some row :=
  Keyed.find?_eq_some_of_sole h.soleDocument hrow hkey

theorem filter_ledger (h : Unique d) :
    (d.ledger.filter fun row => IsLedgerRow tenantId uuid direction row) =
      (findLedger tenantId uuid direction d).toList := by
  cases hfound : findLedger tenantId uuid direction d with
  | none =>
      refine List.filter_eq_nil_iff.mpr fun row hrow => ?_
      exact List.find?_eq_none.mp hfound row hrow
  | some row =>
      obtain ⟨hmem, hkey⟩ := findLedger_spec hfound
      exact Keyed.filter_eq_singleton h.soleLedger hmem hkey

theorem filter_documents (h : Unique d) :
    (d.documents.filter fun row => IsDocument tenantId uuid row) =
      (findDocument tenantId uuid d).toList := by
  cases hfound : findDocument tenantId uuid d with
  | none =>
      refine List.filter_eq_nil_iff.mpr fun row hrow => ?_
      exact List.find?_eq_none.mp hfound row hrow
  | some row =>
      obtain ⟨hmem, hkey⟩ := findDocument_spec hfound
      exact Keyed.filter_eq_singleton h.soleDocument hmem hkey

end Keys

/-! ## Changes of stored rows -/

section Changes

variable {tenantId uuid direction : String} {s : Session Db Row}
variable {change : CfdiMetadataLedger → CfdiMetadataLedger} {redo : CfdiDocument → CfdiDocument}

theorem changeLedger_append {d : Db} {row : Row}
    (h : ∀ r, row = .ledger r → ¬ IsLedgerRow tenantId uuid direction r) :
    changeLedger tenantId uuid direction change (append d row) =
      append (changeLedger tenantId uuid direction change d) row := by
  cases row <;> first | rfl | skip
  case ledger r => simp [append, changeLedger, h r rfl]

theorem changeDocument_append {d : Db} {row : Row}
    (h : ∀ r, row = .document r → ¬ IsDocument tenantId uuid r) :
    changeDocument tenantId uuid redo (append d row) = append (changeDocument tenantId uuid redo d) row := by
  cases row <;> first | rfl | skip
  case document r => simp [append, changeDocument, h r rfl]

/-- A change of stored rows is a change of the merged database, where no row with the key
waits. -/
theorem merged_changeLedger
    (h : ∀ row, Row.ledger row ∈ s.pending → ¬ IsLedgerRow tenantId uuid direction row) :
    merged (s.update (changeLedger tenantId uuid direction change)) =
      changeLedger tenantId uuid direction change (merged s) := by
  unfold merged
  rw [Session.update_pending, Session.update_working]
  generalize s.working = d
  generalize s.pending = pending at h ⊢
  induction pending generalizing d with
  | nil => rfl
  | cons row rest ih =>
      rw [List.foldl_cons, List.foldl_cons, ← changeLedger_append fun r hr => ?_]
      · exact ih (append d row) fun r hr => h r (List.mem_cons_of_mem row hr)
      · exact h r (hr ▸ List.mem_cons_self)

theorem merged_changeDocument
    (h : ∀ row, Row.document row ∈ s.pending → ¬ IsDocument tenantId uuid row) :
    merged (s.update (changeDocument tenantId uuid redo)) =
      changeDocument tenantId uuid redo (merged s) := by
  unfold merged
  rw [Session.update_pending, Session.update_working]
  generalize s.working = d
  generalize s.pending = pending at h ⊢
  induction pending generalizing d with
  | nil => rfl
  | cons row rest ih =>
      rw [List.foldl_cons, List.foldl_cons, ← changeDocument_append fun r hr => ?_]
      · exact ih (append d row) fun r hr => h r (List.mem_cons_of_mem row hr)
      · exact h r (hr ▸ List.mem_cons_self)

/-- Changes keep the keys of the ledger. -/
theorem exists_changeLedger {d : Db} {P : String → String → String → Prop}
    (hkey : ∀ row, (change row).tenantId = row.tenantId ∧ (change row).uuid = row.uuid ∧
      (change row).direction = row.direction) :
    (∃ row ∈ (changeLedger tenantId uuid direction change d).ledger,
      P row.tenantId row.uuid row.direction) ↔
      ∃ row ∈ d.ledger, P row.tenantId row.uuid row.direction := by
  have hkeys : ∀ row : CfdiMetadataLedger,
      P (if IsLedgerRow tenantId uuid direction row then change row else row).tenantId
        (if IsLedgerRow tenantId uuid direction row then change row else row).uuid
        (if IsLedgerRow tenantId uuid direction row then change row else row).direction ↔
      P row.tenantId row.uuid row.direction := by
    intro row
    split
    · rw [(hkey row).1, (hkey row).2.1, (hkey row).2.2]
    · rfl
  unfold changeLedger
  simp only [List.mem_map, exists_exists_and_eq_and, hkeys]

theorem exists_changeDocument {d : Db} {P : String → String → Prop}
    (hkey : ∀ row, (redo row).tenantId = row.tenantId ∧ (redo row).uuid = row.uuid) :
    (∃ row ∈ (changeDocument tenantId uuid redo d).documents, P row.tenantId row.uuid) ↔
      ∃ row ∈ d.documents, P row.tenantId row.uuid := by
  have hkeys : ∀ row : CfdiDocument,
      P (if IsDocument tenantId uuid row then redo row else row).tenantId
        (if IsDocument tenantId uuid row then redo row else row).uuid ↔ P row.tenantId row.uuid := by
    intro row
    split
    · rw [(hkey row).1, (hkey row).2]
    · rfl
  unfold changeDocument
  simp only [List.mem_map, exists_exists_and_eq_and, hkeys]

theorem clashes_changeLedger {d : Db} {row : Row}
    (hkey : ∀ row, (change row).tenantId = row.tenantId ∧ (change row).uuid = row.uuid ∧
      (change row).direction = row.direction) :
    Clashes (changeLedger tenantId uuid direction change d) row ↔ Clashes d row := by
  cases row <;> first | exact Iff.rfl | skip
  case ledger r =>
    exact exists_changeLedger (P := fun t u x => t = r.tenantId ∧ u = r.uuid ∧ x = r.direction) hkey

theorem clashes_changeDocument {d : Db} {row : Row}
    (hkey : ∀ row, (redo row).tenantId = row.tenantId ∧ (redo row).uuid = row.uuid) :
    Clashes (changeDocument tenantId uuid redo d) row ↔ Clashes d row := by
  cases row <;> first | exact Iff.rfl | skip
  case document r =>
    exact exists_changeDocument (P := fun t u => t = r.tenantId ∧ u = r.uuid) hkey

theorem fits_changeLedger
    (hkey : ∀ row, (change row).tenantId = row.tenantId ∧ (change row).uuid = row.uuid ∧
      (change row).direction = row.direction) :
    Fits (s.update (changeLedger tenantId uuid direction change)) ↔ Fits s := by
  refine and_congr_left fun _ => forall_congr' fun row => imp_congr_right fun _ => not_congr ?_
  exact clashes_changeLedger hkey

theorem fits_changeDocument
    (hkey : ∀ row, (redo row).tenantId = row.tenantId ∧ (redo row).uuid = row.uuid) :
    Fits (s.update (changeDocument tenantId uuid redo)) ↔ Fits s := by
  refine and_congr_left fun _ => forall_congr' fun row => imp_congr_right fun _ => not_congr ?_
  exact clashes_changeDocument hkey

/-- A session that fits after a write fitted before it. -/
theorem Fits.before_write {write : Write} (h : Fits (write.onSession s)) : Fits s := by
  cases write with
  | add row => exact (fits_add.mp h).1
  | ledger tenantId uuid direction change hkey => exact (fits_changeLedger hkey).mp h
  | document tenantId uuid change hkey => exact (fits_changeDocument hkey).mp h

theorem Fits.before {writes : List Write} (h : Fits (writeAll writes s)) : Fits s := by
  induction writes generalizing s with
  | nil => exact h
  | cons write rest ih => exact (ih h).before_write

/-- The merged database has the keys it had and those of the added rows. -/
theorem hasLedger_writeAll {t u x : String} {writes : List Write} :
    HasLedger t u x (merged (writeAll writes s)) ↔
      HasLedger t u x (merged s) ∨ ∃ row, .add (.ledger row) ∈ writes ∧ IsLedgerRow t u x row := by
  induction writes generalizing s with
  | nil => simp
  | cons write rest ih =>
      have hwrite : HasLedger t u x (merged (write.onSession s)) ↔ HasLedger t u x (merged s) ∨
          ∃ row, write = .add (.ledger row) ∧ IsLedgerRow t u x row := by
        cases write with
        | add row =>
            change HasLedger t u x (merged (s.add row)) ↔ _
            rw [merged_add, HasLedger, append_ledger, HasLedger]
            cases row <;> simp [ledgerRows, or_and_right, exists_or]
        | ledger tenantId uuid direction change hkey =>
            have hold := @exists_changeLedger tenantId uuid direction _ s.working
                (fun t' u' x' => t' = t ∧ u' = u ∧ x' = x) hkey
            simp only [HasLedger, merged_ledger, Write.onSession, List.mem_append, or_and_right,
              exists_or, Session.update_working, Session.update_pending, reduceCtorEq, false_and,
              exists_false, or_false]
            exact or_congr_left hold
        | document => simp [HasLedger, merged_ledger, Write.onSession, changeDocument]
      rw [writeAll_cons, ih, hwrite, or_assoc]
      refine or_congr_right ?_
      simp only [List.mem_cons, or_and_right, exists_or, eq_comm]

theorem hasDocument_writeAll {t u : String} {writes : List Write} :
    HasDocument t u (merged (writeAll writes s)) ↔
      HasDocument t u (merged s) ∨ ∃ row, .add (.document row) ∈ writes ∧ IsDocument t u row := by
  induction writes generalizing s with
  | nil => simp
  | cons write rest ih =>
      have hwrite : HasDocument t u (merged (write.onSession s)) ↔ HasDocument t u (merged s) ∨
          ∃ row, write = .add (.document row) ∧ IsDocument t u row := by
        cases write with
        | add row =>
            change HasDocument t u (merged (s.add row)) ↔ _
            rw [merged_add, HasDocument, append_documents, HasDocument]
            cases row <;> simp [documentRows, or_and_right, exists_or]
        | ledger => simp [HasDocument, merged_documents, Write.onSession, changeLedger]
        | document tenantId uuid redo hkey =>
            have hold := @exists_changeDocument tenantId uuid _ s.working
                (fun t' u' => t' = t ∧ u' = u) hkey
            simp only [HasDocument, merged_documents, Write.onSession, List.mem_append, or_and_right,
              exists_or, Session.update_working, Session.update_pending, reduceCtorEq, false_and,
              exists_false, or_false]
            exact or_congr_left hold
      rw [writeAll_cons, ih, hwrite, or_assoc]
      refine or_congr_right ?_
      simp only [List.mem_cons, or_and_right, exists_or, eq_comm]

theorem hasEvidence_writeAll {t u x : String} {writes : List Write} :
    HasEvidence t u x (merged (writeAll writes s)) ↔
      HasEvidence t u x (merged s) ∨ ∃ row, .add (.evidence row) ∈ writes ∧ IsEvidence t u x row := by
  induction writes generalizing s with
  | nil => simp
  | cons write rest ih =>
      have hwrite : HasEvidence t u x (merged (write.onSession s)) ↔ HasEvidence t u x (merged s) ∨
          ∃ row, write = .add (.evidence row) ∧ IsEvidence t u x row := by
        cases write with
        | add row =>
            change HasEvidence t u x (merged (s.add row)) ↔ _
            rw [merged_add, HasEvidence, append_evidence, HasEvidence]
            cases row <;> simp [evidenceRows, or_and_right, exists_or]
        | ledger => simp [HasEvidence, merged_evidence, Write.onSession, changeLedger]
        | document => simp [HasEvidence, merged_evidence, Write.onSession, changeDocument]
      rw [writeAll_cons, ih, hwrite, or_assoc]
      refine or_congr_right ?_
      simp only [List.mem_cons, or_and_right, exists_or, eq_comm]

end Changes

/-! ## Lookups after a write -/

section Lookups

variable {tenantId uuid direction tenantId' uuid' direction' : String} {d : Db} {row : Row}
variable {change : CfdiMetadataLedger → CfdiMetadataLedger} {redo : CfdiDocument → CfdiDocument}

theorem findLedger_append : findLedger tenantId uuid direction (append d row) =
    (findLedger tenantId uuid direction d).or
      ((ledgerRows row).find? fun row => IsLedgerRow tenantId uuid direction row) := by
  rw [findLedger, append_ledger, List.find?_append]
  rfl

theorem findDocument_append : findDocument tenantId uuid (append d row) =
    (findDocument tenantId uuid d).or
      ((documentRows row).find? fun row => IsDocument tenantId uuid row) := by
  rw [findDocument, append_documents, List.find?_append]
  rfl

/-- A new row under a free key is found there, and every other lookup is as before. -/
theorem findLedger_append_new {new : CfdiMetadataLedger} (hkey : IsLedgerRow tenantId' uuid' direction' new)
    (hfree : findLedger tenantId' uuid' direction' d = none) :
    findLedger tenantId uuid direction (append d (.ledger new)) =
      if tenantId = tenantId' ∧ uuid = uuid' ∧ direction = direction' then some new
      else findLedger tenantId uuid direction d := by
  rw [findLedger_append]
  obtain ⟨rfl, rfl, rfl⟩ := hkey
  split_ifs with hsame
  · obtain ⟨rfl, rfl, rfl⟩ := hsame
    simp [hfree, ledgerRows, IsLedgerRow]
  · have : ¬ IsLedgerRow tenantId uuid direction new := fun h =>
      hsame ⟨h.1.symm, h.2.1.symm, h.2.2.symm⟩
    simp [ledgerRows, this]

theorem findDocument_append_new {new : CfdiDocument} (hkey : IsDocument tenantId' uuid' new)
    (hfree : findDocument tenantId' uuid' d = none) :
    findDocument tenantId uuid (append d (.document new)) =
      if tenantId = tenantId' ∧ uuid = uuid' then some new else findDocument tenantId uuid d := by
  rw [findDocument_append]
  obtain ⟨rfl, rfl⟩ := hkey
  split_ifs with hsame
  · obtain ⟨rfl, rfl⟩ := hsame
    simp [hfree, documentRows, IsDocument]
  · have : ¬ IsDocument tenantId uuid new := fun h => hsame ⟨h.1.symm, h.2.symm⟩
    simp [documentRows, this]

/-- An assignment shows in the lookup of its key and in no other. -/
theorem findLedger_change
    (hkey : ∀ row, (change row).tenantId = row.tenantId ∧ (change row).uuid = row.uuid ∧
      (change row).direction = row.direction) :
    findLedger tenantId uuid direction (changeLedger tenantId' uuid' direction' change d) =
      if tenantId = tenantId' ∧ uuid = uuid' ∧ direction = direction' then
        (findLedger tenantId uuid direction d).map change
      else findLedger tenantId uuid direction d := by
  rw [findLedger, changeLedger, Keyed.find?_map_of_same, ← findLedger]
  · cases hfind : findLedger tenantId uuid direction d with
    | none => split_ifs <;> rfl
    | some row =>
        have his := (findLedger_spec hfind).2
        obtain ⟨rfl, rfl, rfl⟩ := his
        rw [Option.map_some, Option.map_some]
        by_cases hsame : row.tenantId = tenantId' ∧ row.uuid = uuid' ∧ row.direction = direction'
        · rw [if_pos (show IsLedgerRow tenantId' uuid' direction' row from hsame), if_pos hsame]
        · rw [if_neg (show ¬ IsLedgerRow tenantId' uuid' direction' row from hsame), if_neg hsame]
  · intro row
    by_cases his : IsLedgerRow tenantId' uuid' direction' row
    · simp only [if_pos his]
      simp only [IsLedgerRow, (hkey row).1, (hkey row).2.1, (hkey row).2.2]
    · simp only [if_neg his]

theorem findDocument_change
    (hkey : ∀ row, (redo row).tenantId = row.tenantId ∧ (redo row).uuid = row.uuid) :
    findDocument tenantId uuid (changeDocument tenantId' uuid' redo d) =
      if tenantId = tenantId' ∧ uuid = uuid' then (findDocument tenantId uuid d).map redo
      else findDocument tenantId uuid d := by
  rw [findDocument, changeDocument, Keyed.find?_map_of_same, ← findDocument]
  · cases hfind : findDocument tenantId uuid d with
    | none => split_ifs <;> rfl
    | some row =>
        have his := (findDocument_spec hfind).2
        obtain ⟨rfl, rfl⟩ := his
        rw [Option.map_some, Option.map_some]
        by_cases hsame : row.tenantId = tenantId' ∧ row.uuid = uuid'
        · rw [if_pos (show IsDocument tenantId' uuid' row from hsame), if_pos hsame]
        · rw [if_neg (show ¬ IsDocument tenantId' uuid' row from hsame), if_neg hsame]
  · intro row
    by_cases his : IsDocument tenantId' uuid' row
    · simp only [if_pos his]
      simp only [IsDocument, (hkey row).1, (hkey row).2]
    · simp only [if_neg his]

end Lookups

/-! ## Deferred writes are immediate on the merged database -/

namespace Write

/-- A change addresses a stored row. -/
def Addressed (d : Db) : Write → Prop
  | .add _ => True
  | .ledger tenantId uuid direction _ _ => HasLedger tenantId uuid direction d
  | .document tenantId uuid _ _ => HasDocument tenantId uuid d

/-- A write takes no stored row away. -/
theorem addressed_onSession {s : Session Db Row} (write other : Write) :
    other.Addressed (write.onSession s).working ↔ other.Addressed s.working := by
  cases write with
  | add row => exact Iff.rfl
  | ledger tenantId uuid direction change hkey =>
      cases other <;> first | exact Iff.rfl | skip
      case ledger t u x _ _ =>
        exact exists_changeLedger (P := fun t' u' x' => t' = t ∧ u' = u ∧ x' = x) hkey
  | document tenantId uuid change hkey =>
      cases other <;> first | exact Iff.rfl | skip
      case document t u _ _ =>
        exact exists_changeDocument (P := fun t' u' => t' = t ∧ u' = u) hkey

end Write

theorem Write.addressed_writeAll {s : Session Db Row} {writes : List Write} (other : Write) :
    other.Addressed (writeAll writes s).working ↔ other.Addressed s.working := by
  induction writes generalizing s with
  | nil => rfl
  | cons write rest ih => rw [writeAll_cons, ih, addressed_onSession]

theorem merged_write {write : Write} {s : Session Db Row} (hfits : Fits s)
    (h : write.Addressed s.working) : merged (write.onSession s) = write.onDb (merged s) := by
  cases write with
  | add row => exact merged_add row s
  | ledger tenantId uuid direction change hkey => exact merged_changeLedger (hfits.ledger_settled h)
  | document tenantId uuid change hkey => exact merged_changeDocument (hfits.document_settled h)

/-- Where the flush succeeds in the end, writes that wait are writes made at once. -/
theorem merged_writeAll {writes : List Write} {s : Session Db Row}
    (hfits : Fits (writeAll writes s)) (h : ∀ write ∈ writes, write.Addressed s.working) :
    merged (writeAll writes s) = applyAll writes (merged s) := by
  induction writes generalizing s with
  | nil => rfl
  | cons write rest ih =>
      have hfirst := @Fits.before _ (write :: rest) hfits
      rw [writeAll_cons, applyAll_cons, ← merged_write hfirst (h write List.mem_cons_self)]
      refine ih hfits fun other hother => ?_
      exact (Write.addressed_onSession write other).mpr (h other (List.mem_cons_of_mem write hother))

end Recovery

end CfdiVault
