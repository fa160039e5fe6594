import CfdiVault.Library.References
import CfdiVault.RecoveryHistory

/-!
# References between rows

The schema declares foreign keys that the SQLite connection does not enforce, and columns that refer to
other rows without saying so.  The code keeps both.  `owners` are the references from a row to its tenant,
its job and its SAT request, `subjects` those to the document or the ledger row that a row is about.  No
row of a database that the service has written refers to a missing one, over any run of calls that return
or raise anywhere, where the messages that are processed, as often as they are delivered, are among those
that synchronizations have published (`references_hold`).
-/

namespace CfdiVault

namespace Recovery

/-! ## What rows refer to -/

/-- A key under which a row is found. -/
inductive Ref where
  | tenant (id : String)
  | job (id : String)
  | jobOf (id tenantId : String)
  | request (tenantId idSolicitud : String)
  | document (tenantId uuid : String)
  | ledger (tenantId uuid : String)

/-- The row is stored. -/
def Row.In (d : Db) : Row → Prop
  | .tenant row => row ∈ d.tenants
  | .job row => row ∈ d.jobs
  | .request row => row ∈ d.requests
  | .package row => row ∈ d.packages
  | .jobEvent row => row ∈ d.jobEvents
  | .reconciliationEvent row => row ∈ d.reconciliationEvents
  | .document row => row ∈ d.documents
  | .party row => row ∈ d.parties
  | .ledger row => row ∈ d.ledger
  | .evidence row => row ∈ d.evidence

/-- The rows of a database. -/
def rowsOf (d : Db) : Set Row := {row | row.In d}

/-- The row is found under the key. -/
def Row.Provides : Row → Ref → Prop
  | .tenant row, .tenant id => row.id = id
  | .job row, .job id => row.id = id
  | .job row, .jobOf id tenantId => row.id = id ∧ row.tenantId = tenantId
  | .request row, .request tenantId idSolicitud => row.tenantId = tenantId ∧ row.idSolicitud = idSolicitud
  | .document row, .document tenantId uuid => row.tenantId = tenantId ∧ row.uuid = uuid
  | .ledger row, .ledger tenantId uuid => row.tenantId = tenantId ∧ row.uuid = uuid
  | _, _ => False

/-- The references of a row to its tenant, its job and its SAT request. -/
def Row.owners : Row → List Ref
  | .tenant _ => []
  | .job row => [.tenant row.tenantId]
  | .request row => [.tenant row.tenantId, .jobOf row.jobId row.tenantId]
  | .package row => [.tenant row.tenantId, .request row.tenantId row.idSolicitud]
  | .jobEvent row => [.job row.jobId]
  | .reconciliationEvent row => [.tenant row.tenantId]
  | .document row => [.tenant row.tenantId]
  | .party row => [.tenant row.tenantId]
  | .ledger row => [.tenant row.tenantId]
  | .evidence row => [.tenant row.tenantId]

/-- The references of a row to what it is about. -/
def Row.subjects : Row → List Ref
  | .reconciliationEvent row => [.ledger row.tenantId row.uuid]
  | .party row => [.document row.tenantId row.documentUuid]
  | .evidence row => [.document row.tenantId row.uuid]
  | _ => []

def owners : RowReferences Row Ref := ⟨Row.owners, Row.Provides⟩

def subjects : RowReferences Row Ref := ⟨Row.subjects, Row.Provides⟩

/-- All references. -/
def references : RowReferences Row Ref := ⟨fun row => row.owners ++ row.subjects, Row.Provides⟩

/-! ## Rows of a session -/

theorem rowsOf_append (d : Db) (row : Row) : rowsOf (append d row) = Insert.insert row (rowsOf d) := by
  ext other
  cases row <;> cases other <;> simp [rowsOf, Row.In, append, or_comm]

theorem rowsOf_merged (s : Session Db Row) : rowsOf (merged s) = rowsOf s.working ∪ {row | row ∈ s.pending} := by
  unfold merged
  generalize s.working = d
  induction s.pending generalizing d with
  | nil => simp
  | cons row rest ih =>
      rw [List.foldl_cons, ih, rowsOf_append, Set.insert_union, ← Set.union_insert]
      congr 1
      ext other
      simp

/-- Two rows with the same references that are found under the same keys. -/
structure SameKey (row row' : Row) : Prop where
  owners : row'.owners = row.owners
  subjects : row'.subjects = row.subjects
  provides : row'.Provides = row.Provides

theorem SameKey.refl (row : Row) : SameKey row row := ⟨rfl, rfl, rfl⟩

/-- A database whose rows have new values and the same keys. -/
structure Rekeyed (d e : Db) : Prop where
  forth : ∀ row ∈ rowsOf d, ∃ row' ∈ rowsOf e, SameKey row row'
  back : ∀ row' ∈ rowsOf e, ∃ row ∈ rowsOf d, SameKey row row'

namespace Rekeyed

variable {d e : Db}

theorem owners (h : Rekeyed d e) : Recovery.owners.Replaced ∅ (rowsOf d) (rowsOf e) where
  found row hrow := by
    obtain ⟨row', hrow', hsame⟩ := h.forth row hrow
    exact ⟨row', hrow', fun key hkey => (congrFun hsame.provides key).mpr hkey⟩
  refers row' hrow' := by
    obtain ⟨row, hrow, hsame⟩ := h.back row' hrow'
    exact .inr ⟨row, hrow, hsame.owners⟩

theorem subjects (h : Rekeyed d e) : Recovery.subjects.Replaced ∅ (rowsOf d) (rowsOf e) where
  found row hrow := by
    obtain ⟨row', hrow', hsame⟩ := h.forth row hrow
    exact ⟨row', hrow', fun key hkey => (congrFun hsame.provides key).mpr hkey⟩
  refers row' hrow' := by
    obtain ⟨row, hrow, hsame⟩ := h.back row' hrow'
    exact .inr ⟨row, hrow, hsame.subjects⟩

/-- New values for the rows of one table. -/
theorem of_map {α : Type} {rows : List α} {change : α → α} {d e : Db} (make : α → Row)
    (hkey : ∀ row, SameKey (make row) (make (change row))) (hmem : ∀ row, (make row).In d ↔ row ∈ rows)
    (hmem' : ∀ row, (make row).In e ↔ row ∈ rows.map change)
    (hothers : ∀ row, (∀ made, row ≠ make made) → (row.In e ↔ row.In d)) : Rekeyed d e where
  forth row hrow := by
    by_cases hmade : ∃ made, row = make made
    · obtain ⟨made, rfl⟩ := hmade
      refine ⟨make (change made), (hmem' _).mpr ?_, hkey made⟩
      exact List.mem_map_of_mem ((hmem made).mp hrow)
    · exact ⟨row, (hothers row fun made h => hmade ⟨made, h⟩).mpr hrow, .refl row⟩
  back row' hrow' := by
    by_cases hmade : ∃ made, row' = make made
    · obtain ⟨made, rfl⟩ := hmade
      obtain ⟨row, hrow, rfl⟩ := List.mem_map.mp ((hmem' made).mp hrow')
      exact ⟨make row, (hmem row).mpr hrow, hkey row⟩
    · exact ⟨row', (hothers row' fun made h => hmade ⟨made, h⟩).mp hrow', .refl row'⟩

theorem changeLedger {tenantId uuid direction : String} {change : CfdiMetadataLedger → CfdiMetadataLedger}
    (hkey : ∀ row, (change row).tenantId = row.tenantId ∧ (change row).uuid = row.uuid ∧
      (change row).direction = row.direction) (d : Db) : Rekeyed d (changeLedger tenantId uuid direction change d) := by
  refine of_map .ledger (fun row => ?_) (fun _ => Iff.rfl) (fun _ => Iff.rfl) fun row hne => ?_
  · split
    · obtain ⟨htenant, huuid, -⟩ := hkey row
      constructor
      · simp only [Row.owners, htenant]
      · rfl
      · funext ref
        cases ref <;> simp only [Row.Provides, htenant, huuid]
    · exact .refl _
  · cases row with
    | ledger row => exact absurd rfl (hne row)
    | _ => exact Iff.rfl

theorem changeDocument {tenantId uuid : String} {change : CfdiDocument → CfdiDocument}
    (hkey : ∀ row, (change row).tenantId = row.tenantId ∧ (change row).uuid = row.uuid) (d : Db) :
    Rekeyed d (changeDocument tenantId uuid change d) := by
  refine of_map .document (fun row => ?_) (fun _ => Iff.rfl) (fun _ => Iff.rfl) fun row hne => ?_
  · split
    · obtain ⟨htenant, huuid⟩ := hkey row
      constructor
      · simp only [Row.owners, htenant]
      · rfl
      · funext ref
        cases ref <;> simp only [Row.Provides, htenant, huuid]
    · exact .refl _
  · cases row with
    | document row => exact absurd rfl (hne row)
    | _ => exact Iff.rfl

theorem setJobStatus (jobId : String) (status : JobStatus) (time : DateTime) (d : Db) :
    Rekeyed d (setJobStatus jobId status time d) := by
  refine of_map .job (fun row => ?_) (fun _ => Iff.rfl) (fun _ => Iff.rfl) fun row hne => ?_
  · split
    · refine ⟨rfl, rfl, ?_⟩
      funext ref
      cases ref <;> rfl
    · exact .refl _
  · cases row with
    | job row => exact absurd rfl (hne row)
    | _ => exact Iff.rfl

theorem renameTenant (tenantId rfc : String) (name : Option String) (d : Db) :
    Rekeyed d (renameTenant tenantId rfc name d) := by
  refine of_map .tenant (fun row => ?_) (fun _ => Iff.rfl) (fun _ => Iff.rfl) fun row hne => ?_
  · split
    · refine ⟨rfl, rfl, ?_⟩
      funext ref
      cases ref <;> rfl
    · exact .refl _
  · cases row with
    | tenant row => exact absurd rfl (hne row)
    | _ => exact Iff.rfl

end Rekeyed

/-- A package row of a key with new values that refer to a SAT request of the tenant. -/
theorem replaced_package {tenantId packageId requestId : String} {change : SatPackageRecord → SatPackageRecord}
    (htenant : ∀ row, (change row).tenantId = row.tenantId) (hrequest : ∀ row, (change row).idSolicitud = requestId)
    (d : Db) : owners.Replaced {.tenant tenantId, .request tenantId requestId} (rowsOf d)
      (rowsOf (changePackage tenantId packageId change d)) where
  found row hrow := by
    cases row with
    | package row => exact ⟨.package _, List.mem_map_of_mem hrow, fun key hkey => by cases key <;> cases hkey⟩
    | _ => exact ⟨_, hrow, fun _ => id⟩
  refers row' hrow' := by
    cases row' with
    | package row =>
        obtain ⟨old, hold, hchanged⟩ := List.mem_map.mp hrow'
        split at hchanged
        · next hof =>
          left
          subst hchanged
          intro key hkey
          simpa [owners, Row.owners, htenant, hrequest, hof.1] using hkey
        · exact .inr ⟨.package old, hold, hchanged ▸ rfl⟩
    | _ => exact .inr ⟨_, hrow', rfl⟩

/-! ## Transactions -/

/-- A database in which the owners of all rows are there, and the given rows as well. -/
structure Backed (known : List Ref) (d : Db) : Prop where
  closed : owners.Closed (rowsOf d)
  known : ∀ ref ∈ known, owners.Resolved (rowsOf d) ref

theorem Backed.weaken {known known' : List Ref} {d : Db} (h : Backed known d) (hsubset : known' ⊆ known) :
    Backed known' d :=
  ⟨h.closed, fun ref href => h.known ref (hsubset href)⟩

/-- A new row whose owners are known. -/
theorem Backed.append {known : List Ref} {d : Db} (h : Backed known d) {row : Row} (hrow : row.owners ⊆ known) :
    Backed known (append d row) := by
  have hresolved : ∀ ref ∈ known, owners.Resolved (Insert.insert row (rowsOf d)) ref := fun ref href =>
    (h.known ref href).mono (Set.subset_insert _ _)
  rw [← rowsOf_append] at hresolved
  refine ⟨?_, hresolved⟩
  rw [rowsOf_append] at hresolved ⊢
  exact h.closed.insert fun ref href => hresolved ref (hrow href)

/-- New values for rows of a database whose owners are known. -/
theorem Backed.replace {known : List Ref} {fresh : Set Ref} {d e : Db} (h : Backed known d)
    (hreplaced : owners.Replaced fresh (rowsOf d) (rowsOf e)) (hfresh : ∀ ref ∈ fresh, ref ∈ known) :
    Backed known e where
  closed := hreplaced.closed h.closed fun ref href => h.known ref (hfresh ref href)
  known ref href := hreplaced.resolved (h.known ref href)

/-- A connection to a database in which `known` is there, in a transaction that has added `fresh`. -/
structure BackedOn (known fresh : List Ref) (s : Session Db Row) : Prop where
  committed : Backed known s.committed
  merged : Backed (known ++ fresh) (merged s)

namespace BackedOn

variable {known fresh : List Ref} {s t : Session Db Row}

theorem idle {d : Db} (h : Backed known d) : BackedOn known [] (Session.idle d) :=
  ⟨h, by rw [List.append_nil]; exact h⟩

theorem add {row : Row} (h : BackedOn known fresh s) (hrow : row.owners ⊆ known ++ fresh) :
    BackedOn known fresh (s.add row) := by
  refine ⟨h.committed, ?_⟩
  rw [merged_add]
  exact h.merged.append hrow

/-- A row that is added is there for the rows after it. -/
theorem provide {row : Row} {ref : Ref} (h : BackedOn known fresh s) (hrow : row.owners ⊆ known ++ fresh)
    (href : row.Provides ref) : BackedOn known (fresh ++ [ref]) (s.add row) := by
  obtain ⟨hcommitted, hmerged⟩ := h.add hrow
  refine ⟨hcommitted, hmerged.closed, fun other hother => ?_⟩
  rw [← List.append_assoc] at hother
  rcases List.mem_append.mp hother with hother | hother
  · exact hmerged.known other hother
  · rw [List.mem_singleton.mp hother, merged_add, rowsOf_append]
    exact ⟨row, Set.mem_insert row _, href⟩

theorem replace {change : Db → Db} {new : Set Ref} (h : BackedOn known fresh s)
    (hreplaced : ∀ d, owners.Replaced new (rowsOf d) (rowsOf (change d))) (hnew : ∀ ref ∈ new, ref ∈ known ++ fresh) :
    BackedOn known fresh (s.update change) := by
  have hmerged : owners.Replaced new (rowsOf (Recovery.merged s)) (rowsOf (Recovery.merged (s.update change))) := by
    rw [rowsOf_merged, rowsOf_merged]
    exact (hreplaced s.working).union _
  exact ⟨h.committed, h.merged.replace hmerged hnew⟩

theorem rekey {change : Db → Db} (h : BackedOn known fresh s) (hrekeyed : ∀ d, Rekeyed d (change d)) :
    BackedOn known fresh (s.update change) :=
  h.replace (fun d => (hrekeyed d).owners) fun _ href => href.elim

theorem flush (h : BackedOn known fresh s) (hflush : s.flush? insert = some t) : BackedOn known fresh t := by
  obtain ⟨-, rfl⟩ := flush?_eq_some_iff.mp hflush
  exact ⟨h.committed, h.merged⟩

end BackedOn

/-- The owners of a row that a transaction adds are its tenant and its job. -/
theorem RowWithin.owners_subset {tenantId jobId : String} {row : Row} {known : List Ref}
    (h : RowWithin tenantId jobId row) (hpackage : packageRows row = []) (htenant : .tenant tenantId ∈ known)
    (hjob : ∀ event, row = .jobEvent event → .job jobId ∈ known) : row.owners ⊆ known := by
  cases row with
  | tenant row => exact h.elim
  | job row => exact h.elim
  | request row => exact h.elim
  | package row => cases hpackage
  | jobEvent row =>
      rw [Row.owners, show row.jobId = jobId from h]
      simpa using hjob row rfl
  | _ row =>
      have hrow : row.tenantId = tenantId := h
      simpa [Row.owners, hrow] using htenant

end Recovery

end CfdiVault
