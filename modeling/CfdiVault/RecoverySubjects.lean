import CfdiVault.RecoveryServiced

/-!
# References over the turns of the books

Parties and evidence are rows of a document, and audit events are rows of the ledger.  A turn writes the
document or the ledger row first, or finds it, and then what is about it (`Action.Writes.grounded`).  With the
owners, no reference of any row dangles (`references_hold`).
-/

namespace CfdiVault

namespace Recovery

/-! ## Writes -/

/-- A database in which every row has what it is about, and the given rows are there. -/
structure Grounded (known : List Ref) (d : Db) : Prop where
  closed : subjects.Closed (rowsOf d)
  known : ∀ ref ∈ known, subjects.Resolved (rowsOf d) ref

/-- A write that adds only what is about known rows. -/
def Write.About (known : List Ref) : Write → Prop
  | .add row => row.subjects ⊆ known
  | .ledger .. | .document .. => True

namespace Grounded

variable {known : List Ref} {d : Db} {writes : List Write}

theorem append (h : Grounded known d) {row : Row} (hrow : row.subjects ⊆ known) : Grounded known (append d row) := by
  have hresolved : ∀ ref ∈ known, subjects.Resolved (rowsOf (Recovery.append d row)) ref := fun ref href => by
    rw [rowsOf_append]
    exact (h.known ref href).mono (Set.subset_insert _ _)
  refine ⟨?_, hresolved⟩
  rw [rowsOf_append] at hresolved ⊢
  exact h.closed.insert fun ref href => hresolved ref (hrow href)

/-- A row that is there is known from here on. -/
theorem notice (h : Grounded known d) {ref : Ref} (href : subjects.Resolved (rowsOf d) ref) : Grounded (ref :: known) d :=
  ⟨h.closed, List.forall_mem_cons.mpr ⟨href, h.known⟩⟩

/-- A new row that is about nothing is known from here on. -/
theorem provide (h : Grounded known d) {row : Row} {ref : Ref} (hrow : row.subjects = []) (href : row.Provides ref) :
    Grounded (ref :: known) (Recovery.append d row) := by
  refine (h.append (hrow ▸ List.nil_subset _)).notice ?_
  rw [rowsOf_append]
  exact ⟨row, Set.mem_insert _ _, href⟩

theorem rekey (h : Grounded known d) {e : Db} (hrekeyed : Rekeyed d e) : Grounded known e :=
  ⟨hrekeyed.subjects.closed h.closed fun _ href => href.elim,
    fun ref href => hrekeyed.subjects.resolved (h.known ref href)⟩

theorem write (h : Grounded known d) {write : Write} (hwrite : write.About known) : Grounded known (write.onDb d) := by
  cases write with
  | add row => exact h.append hwrite
  | ledger tenantId uuid direction change hkey => exact h.rekey (Rekeyed.changeLedger hkey d)
  | document tenantId uuid change hkey => exact h.rekey (Rekeyed.changeDocument hkey d)

theorem applyAll (h : Grounded known d) (hwrites : ∀ write ∈ writes, write.About known) :
    Grounded known (Recovery.applyAll writes d) := by
  induction writes generalizing d with
  | nil => exact h
  | cons write rest ih =>
      obtain ⟨hwrite, hrest⟩ := List.forall_mem_cons.mp hwrites
      exact ih (h.write hwrite) hrest

end Grounded

/-! ## Turns -/

section Turns

variable {q : DownloadQuery} {tenantId uuid : String} {known : List Ref} {d : Db} {writes : List Write}

theorem AuditWrites.about {previous next : String} (h : AuditWrites tenantId uuid previous next writes)
    (hledger : .ledger tenantId uuid ∈ known) : ∀ write ∈ writes, write.About known := by
  cases h with
  | stays h => exact fun _ hwrite => absurd hwrite List.not_mem_nil
  | changes h hevent => simp [Write.About, Row.subjects, hevent.tenantOf, hevent.uuidOf, hledger]

theorem parties_about {issuerRfc issuerName receiverRfc receiverName : String}
    (hdocument : .document tenantId uuid ∈ known) :
    ∀ write ∈ (parties tenantId uuid issuerRfc issuerName receiverRfc receiverName).map Write.add,
      write.About known := by
  simp [parties, Write.About, Row.subjects, hdocument]

theorem resolved_ledger {direction : String} {row : CfdiMetadataLedger}
    (h : findLedger tenantId uuid direction d = some row) : subjects.Resolved (rowsOf d) (.ledger tenantId uuid) := by
  obtain ⟨hrow, htenant, huuid, -⟩ := findLedger_spec h
  exact ⟨.ledger row, hrow, htenant, huuid⟩

theorem resolved_document {row : CfdiDocument} (h : findDocument tenantId uuid d = some row) :
    subjects.Resolved (rowsOf d) (.document tenantId uuid) := by
  obtain ⟨hrow, htenant, huuid⟩ := findDocument_spec h
  exact ⟨.document row, hrow, htenant, huuid⟩

theorem LedgerWrites.grounded {entry : MetadataEntry} {metadataSha256 state : String}
    (h : LedgerWrites q entry metadataSha256 state (entryRow q entry d) writes) (hd : Grounded known d) :
    Grounded known (applyAll writes d) := by
  generalize hfound : entryRow q entry d = existing at h
  have hforget : ∀ e, Grounded (.ledger q.tenantId entry.uuid :: known) e → Grounded known e :=
    fun e he => ⟨he.closed, fun ref href => he.known ref (List.mem_cons_of_mem _ href)⟩
  cases h with
  | @discovered row event hkey _ _ hevent =>
      -- the row, and then its event
      have hrow : Grounded (.ledger q.tenantId entry.uuid :: known) (append d (.ledger row)) :=
        hd.provide rfl ⟨hkey.1, hkey.2.1⟩
      have hsubjects : (Row.reconciliationEvent event).subjects ⊆ .ledger q.tenantId entry.uuid :: known := by
        simp [Row.subjects, hevent.tenantOf, hevent.uuidOf]
      exact hforget _ (hrow.append hsubjects)
  | updated hkey _ _ haudits =>
      refine hforget _ ((hd.notice (resolved_ledger hfound)).applyAll ?_)
      exact List.forall_mem_cons.mpr ⟨trivial, haudits.about List.mem_cons_self⟩

theorem DocumentWrites.grounded {entry : MetadataEntry} {state : String} {existing : Option CfdiDocument}
    (h : DocumentWrites q entry state existing writes) (hd : Grounded [] d) : Grounded [] (applyAll writes d) := by
  cases h with
  | @discovered row hkey =>
      have hrow : Grounded [.document q.tenantId entry.uuid] (append d (.document row)) := hd.provide rfl hkey
      exact ⟨(hrow.applyAll (parties_about (List.mem_singleton_self _))).closed, fun _ h => absurd h List.not_mem_nil⟩
  | updated hkey => exact hd.rekey (Rekeyed.changeDocument hkey d)

/-- The document of an XML is there, found or new. -/
theorem XmlDocumentWrites.grounded {xmlSha256 : String}
    (h : XmlDocumentWrites tenantId uuid xmlSha256 (findDocument tenantId uuid d) writes) (hd : Grounded known d) :
    Grounded (.document tenantId uuid :: known) (applyAll writes d) := by
  generalize hfound : findDocument tenantId uuid d = existing at h
  cases h with
  | @discovered row _ _ _ _ hkey =>
      have hrow : Grounded (.document tenantId uuid :: known) (append d (.document row)) := hd.provide rfl hkey
      exact hrow.applyAll (parties_about List.mem_cons_self)
  | updated hkey => exact (hd.notice (resolved_document hfound)).rekey (Rekeyed.changeDocument hkey d)

theorem EvidenceWrites.grounded {xmlSha256 : String} {recorded : Bool}
    (h : EvidenceWrites tenantId uuid xmlSha256 recorded writes) (hd : Grounded known d)
    (hdocument : .document tenantId uuid ∈ known) : Grounded known (applyAll writes d) := by
  cases h with
  | recorded => exact hd
  | @added row hkey =>
      have hsubjects : (Row.evidence row).subjects ⊆ known := by
        simpa [Row.subjects, hkey.1, hkey.2.1] using hdocument
      exact hd.append hsubjects

/-- Whether the turn is an entry, an XML or a reconciled row, what it adds has what it is about. -/
theorem Action.Writes.grounded {rt : Runtime} {action : Action} (h : action.Writes rt d writes) (hd : Grounded [] d) :
    Grounded [] (applyAll writes d) := by
  have hforget : ∀ refs e, Grounded refs e → Grounded [] e :=
    fun _ _ he => ⟨he.closed, fun _ h => absurd h List.not_mem_nil⟩
  cases action with
  | ingest q entry metadataSha256 =>
      obtain ⟨ledgerWrites, documentWrites, rfl, hledger, hdocument⟩ := h
      rw [applyAll_append]
      split at hdocument
      · exact hdocument.grounded (hledger.grounded hd)
      · rw [hdocument]
        exact hledger.grounded hd
  | load q uuid xmlSha256 =>
      obtain ⟨documentWrites, evidenceWrites, ledgerWrites, rfl, hdocument, hevidence, hstored⟩ := h
      rw [applyAll_append, applyAll_append]
      generalize hfound : findLedger q.tenantId uuid q.direction.value d = existing at hstored
      cases hstored with
      | missing => exact hforget _ _ (hevidence.grounded (hdocument.grounded hd) List.mem_cons_self)
      | marked haudits =>
          have hnoticed := hd.notice (resolved_ledger hfound)
          refine hforget _ _ ((hevidence.grounded (hdocument.grounded hnoticed) List.mem_cons_self).applyAll ?_)
          refine List.forall_mem_cons.mpr ⟨trivial, haudits.about ?_⟩
          exact List.mem_cons_of_mem _ List.mem_cons_self
  | reconcile tenantId uuid direction =>
      obtain ⟨row, hfound, hwrites⟩ := h
      obtain ⟨-, rfl, rfl, rfl⟩ := findLedger_spec hfound
      cases hwrites with
      | stays _ => exact hd
      | changes _ hevent =>
          refine hforget _ _ ((hd.notice (resolved_ledger hfound)).applyAll (List.forall_mem_cons.mpr ⟨trivial, ?_⟩))
          simp [Write.About, Row.subjects, hevent.tenantOf, hevent.uuidOf]

end Turns

/-! ## Runs -/

/-- What rows are about does not depend on the tables outside the books. -/
theorem SameBooks.grounded {d e : Db} (h : SameBooks d e) (hd : Grounded [] d) : Grounded [] e := by
  refine ⟨fun row hrow ref href => ?_, fun _ h => absurd h List.not_mem_nil⟩
  have hold : row ∈ rowsOf d := by
    cases row <;> first | exact absurd href List.not_mem_nil | skip
    case reconciliationEvent row => exact (congrArg (row ∈ ·) h.reconciliationEvents).mp hrow
    case party row => exact (congrArg (row ∈ ·) h.parties).mp hrow
    case evidence row => exact (congrArg (row ∈ ·) h.evidence).mp hrow
  obtain ⟨other, hother, hprovides⟩ := hd.closed row hold ref href
  refine ⟨other, ?_, hprovides⟩
  -- only documents and ledger rows are referred to
  have hsubject : (∃ t u, ref = .document t u) ∨ ∃ t u, ref = .ledger t u := by
    cases row <;> simp_all [subjects, Row.subjects]
  rcases hsubject with ⟨t, u, rfl⟩ | ⟨t, u, rfl⟩
  · cases other with
    | document document => exact (congrArg (document ∈ ·) h.documents).mpr hother
    | _ => exact hprovides.elim
  · cases other with
    | ledger ledger => exact (congrArg (ledger ∈ ·) h.ledger).mpr hother
    | _ => exact hprovides.elim

theorem grounded {rt : Runtime} {d : Db} (h : Reachable rt d) : Grounded [] d := by
  refine h.holds ⟨?_, fun _ h => absurd h List.not_mem_nil⟩ (fun _ _ hsame => hsame.grounded)
    fun _ _ _ hwrites => hwrites.grounded
  rintro row hrow
  cases row <;> cases hrow

theorem Serviced.reachable {rt : Runtime} {sent : List QueueMessage} {d : Db} (h : Serviced rt sent d) :
    Reachable rt d := by
  induction h with
  | start => exact .start
  | call _ hrt call _ ih => exact .call ih hrt call trivial

/-- No row refers to a missing tenant, job, SAT request, document or ledger row, whatever was called and
wherever the calls stopped. -/
theorem references_hold {rt : Runtime} {sent : List QueueMessage} {d : Db} (h : Serviced rt sent d) :
    references.Closed (rowsOf d) :=
  RowReferences.Closed.join h.backed.1.closed (grounded h.reachable).closed rfl

/-- The first file of a tenant. -/
theorem references_hold_sample : references.Closed (rowsOf ((Call.ingest januaryQuery [] none "").world
    (metadataEnv [januaryEntry "UUID-1" "vigente"]) (sampleWorld {})).db) :=
  references_hold (@Serviced.call sampleHost _ _ _ .start rfl _ fun _ h => Call.noConfusion h)

end Recovery

end CfdiVault
