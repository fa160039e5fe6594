import CfdiVault.RecoveryRuns

/-!
# The status of a document

The status of an invoice stands in its ledger row and in its document.  An entry of a
metadata query sets both.  An entry of a CFDI query sets the ledger row only, and an XML
whose document is not there adds it as vigente without a look at the ledger.  So the two
agree exactly as long as no such turn meets another status (`status_step_iff`).
-/

namespace CfdiVault

namespace Recovery

/-- Every document and every ledger row of one tenant and UUID have one status. -/
def StatusAgrees (d : Db) : Prop :=
  ∀ doc ∈ d.documents, ∀ row ∈ d.ledger, row.tenantId = doc.tenantId → row.uuid = doc.uuid →
    row.status = some doc.status

/-- The turn does not part the status of a document from the ledger: an entry of a CFDI
query meets no document or one with its status, and an XML without document meets no
ledger row or a vigente one. -/
def KeepsStatus : Action → Db → Prop
  | .ingest q entry _, d => q.requestType ≠ .metadata →
      ∀ doc, findDocument q.tenantId entry.uuid d = some doc → doc.status = entry.status
  | .load q uuid _, d => findDocument q.tenantId uuid d = none →
      ∀ row, findLedger q.tenantId uuid q.direction.value d = some row → row.status = some "vigente"
  | .reconcile .., _ => True

/-- The ledger has rows of one direction, whose statuses are those of their documents. -/
structure OneStatus (direction : String) (d : Db) : Prop where
  sole : ∀ t u x, (findLedger t u x d).isSome → x = direction
  agrees : ∀ t u doc row, findDocument t u d = some doc → findLedger t u direction d = some row →
    row.status = some doc.status

section Step

variable {rt : Runtime} {tenantId direction : String} {d e : Db}

theorem LedgerAt.oneDirection {uuid : String} {found : Option CfdiMetadataLedger}
    (h : LedgerAt tenantId uuid direction found d e)
    (hd : ∀ t u x, (findLedger t u x d).isSome → x = direction) :
    ∀ t u x, (findLedger t u x e).isSome → x = direction := by
  intro t u x hsome
  rw [h t u x] at hsome
  split_ifs at hsome with hkey
  · exact hkey.2.2
  · exact hd t u x hsome

/-- An entry keeps the statuses exactly if its query is for metadata or it repeats the
status of the document. -/
theorem EntryEffect.oneStatus_iff {q : DownloadQuery} {entry : MetadataEntry} {metadataSha256 : String}
    (h : EntryEffect rt q entry metadataSha256 d e) (hd : OneStatus q.direction.value d) :
    OneStatus q.direction.value e ↔ KeepsStatus (.ingest q entry metadataSha256) d := by
  obtain ⟨row, hcarries, -, hat⟩ := h.ledger
  have hledger : ∀ t u, findLedger t u q.direction.value e =
      if t = q.tenantId ∧ u = entry.uuid then some row else findLedger t u q.direction.value d := by
    intro t u
    rw [hat]
    simp only [and_true]
  by_cases hmetadata : q.requestType = .metadata
  · refine iff_of_true ⟨hat.oneDirection hd.sole, fun t u doc row' hdoc hrow => ?_⟩
      fun hcfdi => absurd hmetadata hcfdi
    obtain ⟨doc', hdocument, -, -, hdocAt⟩ := h.document hmetadata
    rw [hledger] at hrow
    rw [hdocAt] at hdoc
    split_ifs at hdoc hrow
    · cases hdoc
      cases hrow
      rw [hcarries.status, hdocument.status]
    · exact hd.agrees t u doc row' hdoc hrow
  · have hdocuments : ∀ t u, findDocument t u e = findDocument t u d := by
      intro t u
      unfold findDocument
      rw [h.documents hmetadata]
    constructor
    · intro he _ doc hdoc
      have := he.agrees q.tenantId entry.uuid doc row ((hdocuments _ _).trans hdoc)
        ((hledger _ _).trans (if_pos ⟨rfl, rfl⟩))
      rw [hcarries.status] at this
      exact (Option.some.inj this).symm
    · intro hkeeps
      refine ⟨hat.oneDirection hd.sole, fun t u doc row' hdoc hrow => ?_⟩
      rw [hdocuments] at hdoc
      rw [hledger] at hrow
      split_ifs at hrow with hkey
      · obtain ⟨rfl, rfl⟩ := hkey
        cases hrow
        rw [hcarries.status, hkeeps hmetadata doc hdoc]
      · exact hd.agrees t u doc row' hdoc hrow

/-- An XML keeps the statuses exactly if its document is there or the ledger does not
report another status than vigente. -/
theorem LoadEffect.oneStatus_iff {q : DownloadQuery} {uuid xmlSha256 : String}
    (h : LoadEffect q uuid xmlSha256 d e) (hd : OneStatus q.direction.value d) :
    OneStatus q.direction.value e ↔ KeepsStatus (.load q uuid xmlSha256) d := by
  obtain ⟨doc, -, -, hstatus, hdocAt⟩ := h.document
  have hfound : ∀ t u x row, findLedger t u x e = some row →
      ∃ old, findLedger t u x d = some old ∧ old.status = row.status := by
    intro t u x row hrow
    rw [h.ledger] at hrow
    split_ifs at hrow with hkey
    · obtain ⟨rfl, rfl, rfl⟩ := hkey
      obtain ⟨old, hold, rfl⟩ := Option.map_eq_some_iff.mp hrow
      exact ⟨old, hold, rfl⟩
    · exact ⟨row, hrow, rfl⟩
  constructor
  · intro he hnone row hrow
    have hstored : findLedger q.tenantId uuid q.direction.value e =
        some (withState ReconciliationState.xmlDownloaded.value row) := by
      rw [h.ledger, if_pos ⟨rfl, rfl, rfl⟩, hrow]
      rfl
    have hdoc : findDocument q.tenantId uuid e = some doc := by rw [hdocAt, if_pos ⟨rfl, rfl⟩]
    have hrowStatus := he.agrees _ _ doc _ hdoc hstored
    rw [hnone] at hstatus
    rw [hstatus] at hrowStatus
    exact hrowStatus
  · intro hkeeps
    refine ⟨fun t u x hsome => ?_, fun t u doc' row hdoc hrow => ?_⟩
    · obtain ⟨row, hrow⟩ := Option.isSome_iff_exists.mp hsome
      obtain ⟨old, hold, -⟩ := hfound t u x row hrow
      exact hd.sole t u x (Option.isSome_of_mem hold)
    · obtain ⟨old, hold, hsame⟩ := hfound t u _ row hrow
      rw [← hsame]
      rw [hdocAt] at hdoc
      split_ifs at hdoc with hkey
      · obtain ⟨rfl, rfl⟩ := hkey
        cases hdoc
        rw [hstatus]
        cases hbefore : findDocument q.tenantId u d with
        | none => exact hkeeps hbefore old hold
        | some before => exact hd.agrees _ _ before old hbefore hold
      · exact hd.agrees t u doc' old hdoc hold

theorem ReconcileEffect.oneStatus {row : CfdiMetadataLedger} {state : String}
    (h : ReconcileEffect row state d e) (hfound : findLedger row.tenantId row.uuid row.direction d = some row)
    (hd : OneStatus direction d) : OneStatus direction e := by
  have hold : ∀ t u x row', findLedger t u x e = some row' →
      ∃ old, findLedger t u x d = some old ∧ old.status = row'.status := by
    intro t u x row' hrow
    rw [h.ledger] at hrow
    split_ifs at hrow with hkey
    · obtain ⟨rfl, rfl, rfl⟩ := hkey
      cases hrow
      exact ⟨row, hfound, rfl⟩
    · exact ⟨row', hrow, rfl⟩
  refine ⟨fun t u x hsome => ?_, fun t u doc row' hdoc hrow => ?_⟩
  · obtain ⟨row', hrow⟩ := Option.isSome_iff_exists.mp hsome
    obtain ⟨old, hfound', -⟩ := hold t u x row' hrow
    exact hd.sole t u x (Option.isSome_of_mem hfound')
  · obtain ⟨old, hfound', hsame⟩ := hold t u _ row' hrow
    rw [← hsame]
    refine hd.agrees t u doc old ?_ hfound'
    rw [← hdoc]
    unfold findDocument
    rw [h.documents]

/-- A turn for one direction keeps the statuses exactly if it does not part them. -/
theorem status_step_iff {action : Action} {writes : List Write} {direction : DownloadDirection}
    (hscope : action.Scoped tenantId direction) (hwrites : action.Writes rt d writes)
    (hd : OneStatus direction.value d) :
    OneStatus direction.value (applyAll writes d) ↔ KeepsStatus action d := by
  cases action with
  | ingest q entry metadataSha256 =>
      obtain ⟨-, rfl⟩ := hscope
      exact (EntryWrites.effect hwrites).oneStatus_iff hd
  | load q uuid xmlSha256 =>
      obtain ⟨-, rfl⟩ := hscope
      exact (LoadWrites.effect hwrites).oneStatus_iff hd
  | reconcile t u x =>
      obtain ⟨row, hfound, hrow⟩ := hwrites
      obtain ⟨-, rfl, rfl, rfl⟩ := findLedger_spec hfound
      exact iff_of_true ((hrow.effect hfound).oneStatus hfound hd) trivial

end Step

/-- In every run for one tenant and one direction none of whose turns parts a status,
documents and ledger agree. -/
theorem status_agrees {rt : Runtime} {tenantId : String} {direction : DownloadDirection}
    {actions : List Action} {d : Db} (h : Run rt (OnlyFor tenantId direction) KeepsStatus actions d) :
    StatusAgrees d := by
  have hrestricted := h.restrict (P := Action.Scoped tenantId direction)
    fun _ _ _ _ hmade hturns => hturns.scoped hmade
  have hone : OneStatus direction.value d := by
    refine hrestricted.holds ⟨fun _ _ _ h => (nomatch h), fun _ _ _ _ h => (nomatch h)⟩ ?_ ?_
    · intro d e hsame hd
      refine ⟨fun t u x hsome => ?_, fun t u doc row hdoc hrow => ?_⟩
      · rw [hsame.findLedger] at hsome
        exact hd.sole t u x hsome
      · rw [hsame.findDocument] at hdoc
        rw [hsame.findLedger] at hrow
        exact hd.agrees t u doc row hdoc hrow
    · intro action d writes hallowed hwrites hd
      exact (status_step_iff hallowed.1 hwrites hd).mpr hallowed.2
  intro doc hdoc row hrow htenant huuid
  have hfound := findLedger_of_mem h.unique hrow ⟨htenant, huuid, rfl⟩
  have hdirection := hone.sole _ _ _ (Option.isSome_of_mem hfound)
  rw [hdirection] at hfound
  exact hone.agrees _ _ doc row (findDocument_of_mem h.unique hdoc ⟨rfl, rfl⟩) hfound

/-! ## A cancelled invoice shown as valid -/

section Sample

/-- The call that ingests one invoice of January 2024 as vigente. -/
def vigenteCall : Call := .ingest januaryQuery [] none ""

/-- The world of that call. -/
def vigenteEnv : Env := metadataEnv [januaryEntry "UUID-1" "vigente"]

theorem status_agrees_sample : StatusAgrees (vigenteCall.world vigenteEnv (sampleWorld {})).db := by
  obtain ⟨turns, hturns, hsteps⟩ :=
    @call_turns vigenteEnv (sampleWorld {}) unique_empty vigenteCall
  have hmetadata : ∀ action ∈ turns, ∀ d, KeepsStatus action d := by
    cases hturns with
    | none => exact fun _ haction => absurd haction List.not_mem_nil
    | ingest hparsed =>
        intro action haction d
        obtain ⟨entry, -, rfl⟩ := List.mem_map.mp haction
        exact fun hcfdi => absurd rfl hcfdi
  exact @status_agrees _ "tenant-a" .received _ _
      (@Run.call sampleHost _ _ _ _ _ _ _ .start rfl ⟨rfl, rfl⟩ hturns
      ((hsteps.restrict hmetadata).weaken fun _ d h => h.1 d))

/-- SAT answers the CFDI query of January 2024 with a cancelled invoice and no package. -/
def cancelledEnv : Env :=
  sampleEnv [("state", .str "finished"), ("metadata", .arr [.obj [
    ("uuid", .str "UUID-1"), ("issuer_rfc", .str "BBB020202BBB"), ("issuer_name", .str "Emisor"),
    ("receiver_rfc", .str "AAA010101AAA"), ("receiver_name", .str "Receptor"),
    ("issue_date", .str "2024-01-15T10:30:00"), ("total", .str "100.00"), ("status", .str "cancelado"),
    ("effect", .str "I"), ("source_package_id", .str "PKG-1")]])]

/-- The database after both. -/
def cancelledDb : Db :=
  ((Call.sync januaryInvoices false false).world cancelledEnv
    (sampleWorld (vigenteCall.world vigenteEnv (sampleWorld {})).db)).db

/-- An invoice that was ingested as vigente and is then reported as cancelled by a CFDI
query keeps the status of its document. -/
theorem cancelled_shown_valid :
    ¬ ∀ d, ReachableBy sampleHost (OnlyFor "tenant-a" .received) d → StatusAgrees d := by
  intro h
  have hvigente : ReachableBy sampleHost (OnlyFor "tenant-a" .received)
      (vigenteCall.world vigenteEnv (sampleWorld {})).db :=
    @ReachableBy.call _ _ vigenteEnv (sampleWorld {}) .start rfl vigenteCall ⟨rfl, rfl⟩
  have hreachable : ReachableBy sampleHost (OnlyFor "tenant-a" .received) cancelledDb :=
    @ReachableBy.call _ _ cancelledEnv (sampleWorld _) hvigente rfl (.sync januaryInvoices false false)
      ⟨rfl, rfl⟩
  have hdocument : (findDocument "tenant-a" "UUID-1" cancelledDb).map (·.status) = some "vigente" := by
    decide +kernel
  have hledger : (findLedger "tenant-a" "UUID-1" "received" cancelledDb).map (·.status) =
      some (some "cancelado") := by decide +kernel
  obtain ⟨doc, hdoc, hdocStatus⟩ := Option.map_eq_some_iff.mp hdocument
  obtain ⟨row, hrow, hrowStatus⟩ := Option.map_eq_some_iff.mp hledger
  obtain ⟨hdocMem, htenant, huuid⟩ := findDocument_spec hdoc
  obtain ⟨hrowMem, htenant', huuid', -⟩ := findLedger_spec hrow
  have hsame := h cancelledDb hreachable doc hdocMem row hrowMem (htenant'.trans htenant.symm)
    (huuid'.trans huuid.symm)
  rw [hrowStatus, hdocStatus] at hsame
  exact absurd hsame (by decide)

end Sample

end Recovery

end CfdiVault
