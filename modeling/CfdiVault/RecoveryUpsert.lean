import CfdiVault.RecoveryActions

/-!
# A batch of metadata

`_upsert_metadata` looks up the ledger row and the document of each entry in a session
that does not see its own new rows.  An entry whose rows were added by an earlier entry of
the same batch adds them again, and the flush fails on their keys.

`EntriesFrom` is a batch of turns in a session.  Its flush succeeds exactly if a UUID that
occurs twice was known before (`EntriesFrom.fits_iff`), and then the batch is a run of
`Action.ingest` on the database (`EntriesFrom.steps`).  From the two, `upserts_iff` says
when ingestion is an upsert.
-/

namespace CfdiVault

namespace Recovery

/-! ## A batch in a session -/

/-- The turns of a batch, one after the other. -/
inductive EntriesFrom (rt : Runtime) (q : DownloadQuery) (metadataSha256 : String) :
    Session Db Row → List MetadataEntry → Session Db Row → Prop
  | nil (s : Session Db Row) : EntriesFrom rt q metadataSha256 s [] s
  | cons {s t : Session Db Row} {entry : MetadataEntry} {rest : List MetadataEntry}
      {writes : List Write} (hwrites : EntryWrites rt q entry metadataSha256 s.working writes)
      (hrest : EntriesFrom rt q metadataSha256 (writeAll writes s) rest t) :
      EntriesFrom rt q metadataSha256 s (entry :: rest) t

section Batch

variable {env : Env} {q : DownloadQuery} {s t : Session Db Row} {E : Fault → World → Prop}
variable {metadata : List MetadataEntry} {metadataSha256 : String}

theorem upsertEntries_from (hdown : env.Down → ∀ w, E .database w) {time : DateTime} :
    Spec (OnSession fun t => t = s)
      (Prog.each metadata (upsertEntry env q metadataSha256 time))
      (fun _ => OnSession fun t => EntriesFrom env.rt q metadataSha256 s metadata t) E := by
  induction metadata generalizing s with
  | nil =>
      rintro w rfl
      exact .nil w.session
  | cons entry rest ih =>
      refine writes_then (upsertEntry_writes hdown) fun _ writes hwrites => ?_
      exact Spec.weaken ih (fun _ h => h) (fun _ _ h => .cons hwrites h) fun _ _ h => h

/-- `_upsert_metadata` makes the turns of its entries, or the database is down. -/
theorem upsertMetadata_from (hdown : env.Down → ∀ w, E .database w) :
    Spec (OnSession fun t => t = s) (upsertMetadata env q metadata metadataSha256)
      (fun _ => OnSession fun t => EntriesFrom env.rt q metadataSha256 s metadata t) E := by
  unfold upsertMetadata
  refine now_then fun time => Spec.bind (upsertEntries_from hdown) fun _ => ?_
  exact Spec.pure _ fun _ h => h

end Batch

/-! ## When the flush of a batch succeeds -/

section Keys

variable {rt : Runtime} {q : DownloadQuery} {entry : MetadataEntry} {s : Session Db Row}
variable {writes : List Write} {metadataSha256 tenantId uuid direction : String}

/-- The ledger row of a UUID is on file for the tenant and the direction of the query,
and, where the query asks for metadata, the document is as well. -/
def Known (q : DownloadQuery) (uuid : String) (d : Db) : Prop :=
  HasLedger q.tenantId uuid q.direction.value d ∧
    (q.requestType = .metadata → HasDocument q.tenantId uuid d)

/-- No row that waits hides from the lookups of the entry. -/
def Unhidden (q : DownloadQuery) (entry : MetadataEntry) (s : Session Db Row) : Prop :=
  (HasLedger q.tenantId entry.uuid q.direction.value (merged s) →
    HasLedger q.tenantId entry.uuid q.direction.value s.working) ∧
  (q.requestType = .metadata → HasDocument q.tenantId entry.uuid (merged s) →
    HasDocument q.tenantId entry.uuid s.working)

theorem fits_add_event {event : ReconciliationEvent} :
    Fits (s.add (.reconciliationEvent event)) ↔ Fits s := by
  rw [fits_add]
  exact and_iff_left fun h => h

theorem AuditWrites.fits_iff {previous next : String}
    (h : AuditWrites tenantId uuid previous next writes) : Fits (writeAll writes s) ↔ Fits s := by
  cases h with
  | stays => rfl
  | changes => exact fits_add_event

theorem clashes_ledger {row : CfdiMetadataLedger} {d : Db} (hkey : IsLedgerRow tenantId uuid direction row) :
    Clashes d (.ledger row) ↔ HasLedger tenantId uuid direction d := by
  obtain ⟨rfl, rfl, rfl⟩ := hkey
  rfl

theorem clashes_document {row : CfdiDocument} {d : Db} (hkey : IsDocument tenantId uuid row) :
    Clashes d (.document row) ↔ HasDocument tenantId uuid d := by
  obtain ⟨rfl, rfl⟩ := hkey
  rfl

theorem LedgerWrites.fits_iff {state : String}
    (h : LedgerWrites q entry metadataSha256 state (entryRow q entry s.working) writes) :
    Fits (writeAll writes s) ↔ Fits s ∧
      (HasLedger q.tenantId entry.uuid q.direction.value (merged s) →
        HasLedger q.tenantId entry.uuid q.direction.value s.working) := by
  generalize hfound : entryRow q entry s.working = existing at h
  cases h with
  | discovered hkey =>
      have hnone := findLedger_eq_none.mp hfound
      rw [writeAll_cons, writeAll_cons, writeAll_nil]
      exact fits_add_event.trans (fits_add.trans (and_congr_right fun _ => by
        rw [clashes_ledger hkey]
        exact ⟨fun h h' => absurd h' h, fun h h' => hnone (h h')⟩))
  | updated hkey _ _ haudits =>
      have hsome := findLedger_isSome.mp (Option.isSome_of_mem hfound)
      rw [writeAll_cons, haudits.fits_iff]
      exact (fits_changeLedger hkey).trans (iff_self_and.mpr fun _ _ => hsome)

theorem fits_add_parties {uuid issuerRfc issuerName receiverRfc receiverName : String} :
    Fits (writeAll ((parties tenantId uuid issuerRfc issuerName receiverRfc receiverName).map .add) s) ↔
      Fits s := by
  have hparty : ∀ (row : CfdiParty) (s : Session Db Row), Fits (s.add (.party row)) ↔ Fits s :=
    fun row s => fits_add.trans (and_iff_left fun h => h)
  exact (hparty _ _).trans (hparty _ _)

theorem DocumentWrites.fits_iff {state : String}
    (h : DocumentWrites q entry state (findDocument q.tenantId entry.uuid s.working) writes) :
    Fits (writeAll writes s) ↔ Fits s ∧ (HasDocument q.tenantId entry.uuid (merged s) →
      HasDocument q.tenantId entry.uuid s.working) := by
  generalize hfound : findDocument q.tenantId entry.uuid s.working = existing at h
  cases h with
  | discovered hkey =>
      have hnone := findDocument_eq_none.mp hfound
      rw [writeAll_cons, fits_add_parties]
      exact fits_add.trans (and_congr_right fun _ => by
        rw [clashes_document hkey]
        exact ⟨fun h h' => absurd h' h, fun h h' => hnone (h h')⟩)
  | updated hkey =>
      have hsome := findDocument_isSome.mp (Option.isSome_of_mem hfound)
      exact (fits_changeDocument hkey).trans (iff_self_and.mpr fun _ _ => hsome)

theorem LedgerWrites.adds {state : String} {existing : Option CfdiMetadataLedger}
    (h : LedgerWrites q entry metadataSha256 state existing writes) :
    ((∃ row, .add (.ledger row) ∈ writes ∧ IsLedgerRow tenantId uuid direction row) ↔
      existing = none ∧ tenantId = q.tenantId ∧ uuid = entry.uuid ∧ direction = q.direction.value) ∧
    ∀ row, .add (.document row) ∉ writes := by
  cases h with
  | discovered hkey =>
      obtain ⟨htenant, huuid, hdirection⟩ := hkey
      simp [IsLedgerRow, htenant, huuid, hdirection, eq_comm]
  | updated _ _ _ haudits => cases haudits <;> simp

theorem DocumentWrites.adds {state : String} {existing : Option CfdiDocument}
    (h : DocumentWrites q entry state existing writes) :
    ((∃ row, .add (.document row) ∈ writes ∧ IsDocument tenantId uuid row) ↔
      existing = none ∧ tenantId = q.tenantId ∧ uuid = entry.uuid) ∧
    ∀ row, .add (.ledger row) ∉ writes := by
  cases h with
  | discovered hkey =>
      obtain ⟨htenant, huuid⟩ := hkey
      simp [IsDocument, htenant, huuid, parties, eq_comm]
  | updated => simp

/-- An entry adds its own keys and no others. -/
theorem EntryWrites.keys {rt : Runtime} (h : EntryWrites rt q entry metadataSha256 s.working writes) :
    (HasLedger tenantId uuid direction (merged (writeAll writes s)) ↔
      HasLedger tenantId uuid direction (merged s) ∨
        (tenantId = q.tenantId ∧ uuid = entry.uuid ∧ direction = q.direction.value)) ∧
    (HasDocument tenantId uuid (merged (writeAll writes s)) ↔
      HasDocument tenantId uuid (merged s) ∨
        (q.requestType = .metadata ∧ tenantId = q.tenantId ∧ uuid = entry.uuid)) := by
  obtain ⟨ledgerWrites, documentWrites, rfl, hledger, hdocument⟩ := h
  obtain ⟨hadded, hnone⟩ := @LedgerWrites.adds _ _ _ _ tenantId uuid direction _ _ hledger
  have hrow : entryRow q entry s.working ≠ none →
      HasLedger q.tenantId entry.uuid q.direction.value (merged s) := by
    intro h
    obtain ⟨row, hfound⟩ := Option.ne_none_iff_exists'.mp h
    exact findLedger_isSome.mp (Option.isSome_of_mem (findLedger_merged hfound))
  have hdoc : findDocument q.tenantId entry.uuid s.working ≠ none →
      HasDocument q.tenantId entry.uuid (merged s) := by
    intro h
    obtain ⟨row, hfound⟩ := Option.ne_none_iff_exists'.mp h
    exact findDocument_isSome.mp (Option.isSome_of_mem (findDocument_merged hfound))
  rw [hasLedger_writeAll, hasDocument_writeAll]
  simp only [List.mem_append, or_and_right, exists_or, hadded, hnone, false_or]
  by_cases hmetadata : q.requestType = .metadata
  · rw [if_pos hmetadata] at hdocument
    obtain ⟨hadded', hnone'⟩ := @DocumentWrites.adds _ _ _ tenantId uuid _ _ hdocument
    simp only [hadded', hnone', false_and, exists_false, or_false, hmetadata, true_and]
    constructor
    · constructor
      · exact Or.imp_right fun h => h.2
      · rintro (h | ⟨rfl, rfl, rfl⟩)
        · exact .inl h
        · exact (em _).symm.imp hrow fun h => ⟨h, rfl, rfl, rfl⟩
    · constructor
      · exact Or.imp_right fun h => h.2
      · rintro (h | ⟨rfl, rfl⟩)
        · exact .inl h
        · exact (em _).symm.imp hdoc fun h => ⟨h, rfl, rfl⟩
  · rw [if_neg hmetadata] at hdocument
    subst hdocument
    simp only [List.not_mem_nil, false_and, exists_false, or_false, hmetadata, and_true]
    constructor
    · exact Or.imp_right fun h => h.2
    · rintro (h | ⟨rfl, rfl, rfl⟩)
      · exact .inl h
      · exact (em _).symm.imp hrow fun h => ⟨h, rfl, rfl, rfl⟩

/-- A turn keeps the session flushable exactly if no row that waits hides from it. -/
theorem EntryWrites.fits_iff {rt : Runtime}
    (h : EntryWrites rt q entry metadataSha256 s.working writes) :
    Fits (writeAll writes s) ↔ Fits s ∧ Unhidden q entry s := by
  obtain ⟨ledgerWrites, documentWrites, rfl, hledger, hdocument⟩ := h
  rw [writeAll_append]
  by_cases hmetadata : q.requestType = .metadata
  · rw [if_pos hmetadata] at hdocument
    have hfound : findDocument q.tenantId entry.uuid (writeAll ledgerWrites s).working =
        findDocument q.tenantId entry.uuid s.working := by
      rw [findDocument, hledger.documents]
      rfl
    have hworking : HasDocument q.tenantId entry.uuid (writeAll ledgerWrites s).working ↔
        HasDocument q.tenantId entry.uuid s.working := by
      rw [HasDocument, hledger.documents]
      rfl
    have hmerged : HasDocument q.tenantId entry.uuid (merged (writeAll ledgerWrites s)) ↔
        HasDocument q.tenantId entry.uuid (merged s) := by
      rw [hasDocument_writeAll]
      simp only [(@LedgerWrites.adds _ _ _ _ "" "" "" _ _ hledger).2, false_and,
        exists_false, or_false]
    rw [← hfound] at hdocument
    rw [hdocument.fits_iff, hledger.fits_iff, hworking, hmerged, Unhidden, and_assoc]
    exact and_congr_right fun _ => and_congr_right fun _ =>
      ⟨fun h _ => h, fun h => h hmetadata⟩
  · rw [if_neg hmetadata] at hdocument
    subst hdocument
    rw [writeAll_nil, hledger.fits_iff, Unhidden]
    exact and_congr_right fun _ => ⟨fun h => ⟨h, fun hm => absurd hm hmetadata⟩, fun h => h.1⟩

/-- A UUID that occurs twice in the batch was known before. -/
def RepeatsKnown (q : DownloadQuery) (metadata : List MetadataEntry) (d : Db) : Prop :=
  metadata.Pairwise fun a b => a.uuid = b.uuid → Known q b.uuid d

theorem known_writeAll {uuid : String} :
    Known q uuid (writeAll writes s).working ↔ Known q uuid s.working :=
  and_congr
    (Write.addressed_writeAll (.ledger q.tenantId uuid q.direction.value id fun _ => ⟨rfl, rfl, rfl⟩))
    (imp_congr_right fun _ =>
      Write.addressed_writeAll (.document q.tenantId uuid id fun _ => ⟨rfl, rfl⟩))

/-- After the turn of an entry, a row of a later one hides if it hid before or if the two
have a UUID that was not known. -/
theorem EntryWrites.unhidden {rt : Runtime} (h : EntryWrites rt q entry metadataSha256 s.working writes)
    (later : MetadataEntry) :
    Unhidden q later (writeAll writes s) ↔
      (entry.uuid = later.uuid → Known q later.uuid s.working) ∧ Unhidden q later s := by
  have hledger : HasLedger q.tenantId later.uuid q.direction.value (writeAll writes s).working ↔
      HasLedger q.tenantId later.uuid q.direction.value s.working :=
    Write.addressed_writeAll (.ledger q.tenantId later.uuid q.direction.value id fun _ => ⟨rfl, rfl, rfl⟩)
  have hdocument : HasDocument q.tenantId later.uuid (writeAll writes s).working ↔
      HasDocument q.tenantId later.uuid s.working :=
    Write.addressed_writeAll (.document q.tenantId later.uuid id fun _ => ⟨rfl, rfl⟩)
  rw [Unhidden, Unhidden, Known, hledger, hdocument, h.keys.1, (@Recovery.EntryWrites.keys _ _ _ _
      _ _ _ "" _ h).2]
  simp only [true_and, and_true, eq_comm (a := entry.uuid)]
  tauto

/-- A batch can be flushed exactly if every UUID that it repeats was known. -/
theorem EntriesFrom.fits_iff {rt : Runtime} {metadata : List MetadataEntry} {t : Session Db Row}
    (h : EntriesFrom rt q metadataSha256 s metadata t) :
    Fits t ↔ Fits s ∧ RepeatsKnown q metadata s.working ∧ ∀ entry ∈ metadata, Unhidden q entry s := by
  induction h with
  | nil s => simp [RepeatsKnown]
  | cons hwrites hrest ih =>
      rw [ih, hwrites.fits_iff, RepeatsKnown, RepeatsKnown, List.pairwise_cons, List.forall_mem_cons]
      simp only [known_writeAll, hwrites.unhidden, forall_and]
      tauto

end Keys

/-! ## A batch on the database -/

section Steps

variable {rt : Runtime} {q : DownloadQuery} {s t : Session Db Row} {metadata : List MetadataEntry}
variable {metadataSha256 : String}

/-- The actions of a batch. -/
def ingestion (q : DownloadQuery) (metadata : List MetadataEntry) (metadataSha256 : String) :
    List Action :=
  metadata.map fun entry => .ingest q entry metadataSha256

/-- A batch that can be flushed is a run of its entries on the database. -/
theorem EntriesFrom.steps (h : EntriesFrom rt q metadataSha256 s metadata t) (hfits : Fits t)
    (hevidence : NonePending evidenceRows s) :
    Fits s ∧ NonePending evidenceRows t ∧
      FreeSteps rt (ingestion q metadata metadataSha256) (merged s) (merged t) := by
  induction h with
  | nil s => exact ⟨hfits, hevidence, .nil (.refl _)⟩
  | cons hwrites hrest ih =>
      have hevidence' := hwrites.noEvidence.writeAll hevidence
      obtain ⟨hfits', hnone, hsteps⟩ := ih hfits hevidence'
      obtain ⟨hmerged, hsettled⟩ := hwrites.settled hfits' hevidence
      refine ⟨hfits'.before, hnone, .cons trivial hmerged ?_⟩
      rwa [← hsettled]

/-- The last entry of a batch for a UUID. -/
def lastEntry (uuid : String) : List MetadataEntry → Option MetadataEntry
  | [] => none
  | entry :: rest => (lastEntry uuid rest).or (if entry.uuid = uuid then some entry else none)

theorem lastEntry_eq_none {uuid : String} :
    lastEntry uuid metadata = none ↔ ∀ entry ∈ metadata, entry.uuid ≠ uuid := by
  induction metadata with
  | nil => simp [lastEntry]
  | cons entry rest ih =>
      rw [lastEntry, Option.or_eq_none_iff, ih, List.forall_mem_cons, and_comm]
      simp

/-- What a batch does to the lookups of the books. -/
structure BatchEffect (q : DownloadQuery) (metadata : List MetadataEntry) (metadataSha256 : String)
    (d e : Db) : Prop where
  ledger : ∀ uuid entry, lastEntry uuid metadata = some entry → ∃ row,
    findLedger q.tenantId uuid q.direction.value e = some row ∧
    LedgerCarries entry metadataSha256 row
  documents : q.requestType = .metadata → ∀ uuid entry, lastEntry uuid metadata = some entry →
    ∃ row, findDocument q.tenantId uuid e = some row ∧ DocumentCarries entry row
  otherLedger : ∀ t u x, ¬ (t = q.tenantId ∧ (∃ entry ∈ metadata, entry.uuid = u) ∧
    x = q.direction.value) → findLedger t u x e = findLedger t u x d
  otherDocuments : ∀ t u, ¬ (q.requestType = .metadata ∧ t = q.tenantId ∧
    ∃ entry ∈ metadata, entry.uuid = u) → findDocument t u e = findDocument t u d
  evidence : e.evidence = d.evidence
  parties : ∃ new, e.parties = d.parties ++ new ∧
    ∀ row ∈ new, row.tenantId = q.tenantId ∧ ∃ entry ∈ metadata, entry.uuid = row.documentUuid
  audit : ∃ new, e.reconciliationEvents = d.reconciliationEvents ++ new ∧
    ∀ event ∈ new, event.tenantId = q.tenantId ∧ ∃ entry ∈ metadata, entry.uuid = event.uuid

theorem lastEntry_cons {uuid : String} {entry last : MetadataEntry} {rest : List MetadataEntry}
    (h : lastEntry uuid (entry :: rest) = some last) :
    lastEntry uuid rest = some last ∨
      (entry.uuid = uuid ∧ last = entry ∧ ∀ other ∈ rest, other.uuid ≠ uuid) := by
  rw [lastEntry] at h
  cases hrest : lastEntry uuid rest with
  | some found =>
      rw [hrest, Option.some_or] at h
      exact .inl h
  | none =>
      rw [hrest, Option.none_or] at h
      split_ifs at h with huuid
      exact .inr ⟨huuid, (Option.some.inj h).symm, lastEntry_eq_none.mp hrest⟩

/-- Rows that only the rest of a batch could touch, and that it does not. -/
theorem untouched {uuid : String} {rest : List MetadataEntry}
    (h : ∀ other ∈ rest, other.uuid ≠ uuid) : ¬ ∃ other ∈ rest, other.uuid = uuid :=
  fun ⟨other, hother, heq⟩ => h other hother heq

theorem BatchEffect.cons {entry : MetadataEntry} {rest : List MetadataEntry} {d m e : Db}
    (h : EntryEffect rt q entry metadataSha256 d m) (hrest : BatchEffect q rest metadataSha256 m e) :
    BatchEffect q (entry :: rest) metadataSha256 d e where
  ledger uuid last hlast := by
    rcases lastEntry_cons hlast with hlast | ⟨rfl, rfl, hnot⟩
    · exact hrest.ledger uuid last hlast
    · obtain ⟨row, hcarries, -, hat⟩ := h.ledger
      refine ⟨row, ?_, hcarries⟩
      rw [hrest.otherLedger _ _ _ fun hin => untouched hnot hin.2.1, hat, if_pos ⟨rfl, rfl, rfl⟩]
  documents hmetadata uuid last hlast := by
    rcases lastEntry_cons hlast with hlast | ⟨rfl, rfl, hnot⟩
    · exact hrest.documents hmetadata uuid last hlast
    · obtain ⟨row, hcarries, -, -, hat⟩ := h.document hmetadata
      refine ⟨row, ?_, hcarries⟩
      rw [hrest.otherDocuments _ _ fun hin => untouched hnot hin.2.2, hat, if_pos ⟨rfl, rfl⟩]
  otherLedger t u x hnot := by
    obtain ⟨row, -, -, hat⟩ := h.ledger
    rw [hrest.otherLedger t u x fun hin => hnot ⟨hin.1, ?_, hin.2.2⟩, hat, if_neg]
    · exact fun hin => hnot ⟨hin.1, ⟨entry, List.mem_cons_self, hin.2.1.symm⟩, hin.2.2⟩
    · obtain ⟨other, hother, heq⟩ := hin.2.1
      exact ⟨other, List.mem_cons_of_mem entry hother, heq⟩
  otherDocuments t u hnot := by
    have hfirst : findDocument t u m = findDocument t u d := by
      by_cases hmetadata : q.requestType = .metadata
      · obtain ⟨row, -, -, -, hat⟩ := h.document hmetadata
        rw [hat, if_neg]
        exact fun hin => hnot ⟨hmetadata, hin.1, entry, List.mem_cons_self, hin.2.symm⟩
      · unfold findDocument
        rw [h.documents hmetadata]
    rw [hrest.otherDocuments t u fun hin => hnot ⟨hin.1, hin.2.1, ?_⟩, hfirst]
    obtain ⟨other, hother, heq⟩ := hin.2.2
    exact ⟨other, List.mem_cons_of_mem entry hother, heq⟩
  evidence := hrest.evidence.trans h.evidence
  parties := by
    obtain ⟨first, hfirst, hof⟩ := h.parties
    obtain ⟨second, hsecond, hof'⟩ := hrest.parties
    refine ⟨first ++ second, by rw [hsecond, hfirst, List.append_assoc], ?_⟩
    refine List.forall_mem_append.mpr ⟨fun row hrow => ?_, fun row hrow => ?_⟩
    · exact ⟨(hof row hrow).1, entry, List.mem_cons_self, (hof row hrow).2.symm⟩
    · obtain ⟨htenant, other, hother, heq⟩ := hof' row hrow
      exact ⟨htenant, other, List.mem_cons_of_mem entry hother, heq⟩
  audit := by
    obtain ⟨second, hsecond, hof'⟩ := hrest.audit
    have hlater : ∀ event ∈ second, event.tenantId = q.tenantId ∧
        ∃ other ∈ entry :: rest, other.uuid = event.uuid := by
      intro event hevent
      obtain ⟨htenant, other, hother, heq⟩ := hof' event hevent
      exact ⟨htenant, other, List.mem_cons_of_mem entry hother, heq⟩
    have hfirst := h.audit
    unfold Audited at hfirst
    split_ifs at hfirst
    · exact ⟨second, by rw [hsecond, hfirst], hlater⟩
    · obtain ⟨event, his, happend⟩ := hfirst
      refine ⟨event :: second, by rw [hsecond, happend, List.append_assoc]; rfl, ?_⟩
      exact List.forall_mem_cons.mpr ⟨⟨his.tenantOf, entry, List.mem_cons_self, his.uuidOf.symm⟩, hlater⟩

theorem batchEffect {d e : Db} (h : FreeSteps rt (ingestion q metadata metadataSha256) d e) :
    BatchEffect q metadata metadataSha256 d e := by
  induction metadata generalizing d with
  | nil =>
      cases h with
      | nil hsame =>
          exact ⟨fun _ _ h => (nomatch h), fun _ _ _ h => (nomatch h), fun _ _ _ _ => hsame.findLedger,
            fun _ _ _ => hsame.findDocument, hsame.evidence,
            ⟨[], by rw [hsame.parties, List.append_nil], by simp⟩,
            ⟨[], by rw [hsame.reconciliationEvents, List.append_nil], by simp⟩⟩
  | cons entry rest ih =>
      cases h with
      | cons _ hwrites hrest =>
          exact .cons (EntryWrites.effect hwrites) (ih hrest)

end Steps

/-! ## Ingestion as an upsert -/

/-- How a database changes when a batch is upserted: one row for each UUID, with the
values of its last entry, and nothing under another UUID or tenant. -/
structure Upserted (q : DownloadQuery) (metadata : List MetadataEntry) (metadataSha256 : String)
    (before after : Db) : Prop where
  ledger : ∀ uuid entry, lastEntry uuid metadata = some entry → ∃ row,
    (after.ledger.filter fun row => IsLedgerRow q.tenantId uuid q.direction.value row) = [row] ∧
    LedgerCarries entry metadataSha256 row
  documents : q.requestType = .metadata → ∀ uuid entry, lastEntry uuid metadata = some entry →
    ∃ row, (after.documents.filter fun row => IsDocument q.tenantId uuid row) = [row] ∧
    DocumentCarries entry row
  otherLedger : ∀ t u x, ¬ (t = q.tenantId ∧ (∃ entry ∈ metadata, entry.uuid = u) ∧
    x = q.direction.value) → (after.ledger.filter fun row => IsLedgerRow t u x row) =
      before.ledger.filter fun row => IsLedgerRow t u x row
  otherDocuments : ∀ t u, ¬ (q.requestType = .metadata ∧ t = q.tenantId ∧
    ∃ entry ∈ metadata, entry.uuid = u) → (after.documents.filter fun row => IsDocument t u row) =
      before.documents.filter fun row => IsDocument t u row
  evidence : after.evidence = before.evidence
  parties : ∃ new, after.parties = before.parties ++ new ∧
    ∀ row ∈ new, row.tenantId = q.tenantId ∧ ∃ entry ∈ metadata, entry.uuid = row.documentUuid
  audit : ∃ new, after.reconciliationEvents = before.reconciliationEvents ++ new ∧
    ∀ event ∈ new, event.tenantId = q.tenantId ∧ ∃ entry ∈ metadata, entry.uuid = event.uuid

/-- With unique keys, lookups are rows. -/
theorem BatchEffect.upserted {q : DownloadQuery} {metadata : List MetadataEntry}
    {metadataSha256 : String} {d e : Db} (h : BatchEffect q metadata metadataSha256 d e)
    (hd : Unique d) (he : Unique e) : Upserted q metadata metadataSha256 d e where
  ledger uuid entry hlast := by
    obtain ⟨row, hfound, hcarries⟩ := h.ledger uuid entry hlast
    exact ⟨row, by rw [filter_ledger he, hfound]; rfl, hcarries⟩
  documents hmetadata uuid entry hlast := by
    obtain ⟨row, hfound, hcarries⟩ := h.documents hmetadata uuid entry hlast
    exact ⟨row, by rw [filter_documents he, hfound]; rfl, hcarries⟩
  otherLedger t u x hnot := by rw [filter_ledger he, filter_ledger hd, h.otherLedger t u x hnot]
  otherDocuments t u hnot := by rw [filter_documents he, filter_documents hd, h.otherDocuments t u hnot]
  evidence := h.evidence
  parties := h.parties
  audit := h.audit

section Sample

/-- An invoice of January 2024 in the metadata. -/
def januaryEntry (uuid status : String) : MetadataEntry where
  uuid := uuid
  issuerRfc := "BBB020202BBB"
  issuerName := "Emisor"
  receiverRfc := "AAA010101AAA"
  receiverName := "Receptor"
  issueDate := .utc 63840000000000000
  total := .finite false 100 0
  status := status
  effect := "I"
  sourcePackageId := "PKG-1"

/-- Every metadata file holds the given entries. -/
def metadataEnv (entries : List MetadataEntry) : Env :=
  { sampleEnv [] with parseMetadata := fun _ _ _ => .ok ⟨entries, []⟩ }

end Sample

end Recovery

end CfdiVault
