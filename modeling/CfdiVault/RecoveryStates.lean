import CfdiVault.RecoveryEvidence
import CfdiVault.RecoveryStatus

/-!
# The state of a document

How far the recovery of an invoice has come stands in its ledger row and in its document.
An entry of a metadata query and an XML write both.  An entry of a CFDI query and a
reconciliation write the ledger row only, so that they part the two wherever the document
has no XML and another state than the one decided for the row (`state_step_iff`).

A call commits its turns together, and a later turn for the same invoice makes up for an
earlier one: a CFDI query first parts the states of the invoices that it lists and then
loads their XML.  So what counts is the last turn of a call for every invoice (`Settles`,
`settled_iff`).
-/

namespace CfdiVault

namespace Recovery

/-- Every document and every ledger row of one tenant and UUID are in one state. -/
def StateAgrees (d : Db) : Prop :=
  ∀ doc ∈ d.documents, ∀ row ∈ d.ledger, row.tenantId = doc.tenantId → row.uuid = doc.uuid →
    doc.downloadState = row.reconciliationState

/-- The copies of the state of one invoice agree. -/
def AgreesAt (tenantId uuid : String) (d : Db) : Prop :=
  ∀ doc direction row, findDocument tenantId uuid d = some doc →
    findLedger tenantId uuid direction d = some row → doc.downloadState = row.reconciliationState

/-- The tenant and the UUID of a turn. -/
def Action.key : Action → String × String
  | .ingest q entry _ => (q.tenantId, entry.uuid)
  | .load q uuid _ => (q.tenantId, uuid)
  | .reconcile tenantId uuid _ => (tenantId, uuid)

/-- The turn leaves the copies of its invoice in one state: it writes both, or it meets no
document without XML in another state than the one decided for the ledger row. -/
def KeepsState (rt : Runtime) : Action → Db → Prop
  | .ingest q entry _, d => q.requestType ≠ .metadata →
      ∀ doc, findDocument q.tenantId entry.uuid d = some doc → doc.xmlSha256 = none →
        doc.downloadState = entryState rt q entry d
  | .load .., _ => True
  | .reconcile tenantId uuid direction, d =>
      ∀ row doc, findLedger tenantId uuid direction d = some row →
        findDocument tenantId uuid d = some doc → doc.xmlSha256 = none →
        doc.downloadState = reconciledState rt row d

/-- Books with ledger rows of one direction, where documents and evidence are together. -/
structure OneBook (direction : String) (d : Db) : Prop where
  sole : ∀ t u x, (findLedger t u x d).isSome → x = direction
  xml : XmlBooks d

/-! ## One turn -/

section Step

variable {rt : Runtime} {tenantId uuid direction : String} {d e : Db}

/-- A turn replaces the document and the ledger row of its invoice; they agree after it
exactly if the new ones do. -/
theorem agreesAt_iff {doc : Option CfdiDocument} {row : Option CfdiMetadataLedger}
    (hdoc : DocumentAt tenantId uuid doc d e) (hrow : LedgerAt tenantId uuid direction row d e)
    (hsole : ∀ t u x, (findLedger t u x d).isSome → x = direction) :
    AgreesAt tenantId uuid e ↔
      ∀ doc' row', doc = some doc' → row = some row' → doc'.downloadState = row'.reconciliationState := by
  have hfoundDoc : findDocument tenantId uuid e = doc := by rw [hdoc, if_pos ⟨rfl, rfl⟩]
  have hfoundRow : findLedger tenantId uuid direction e = row := by rw [hrow, if_pos ⟨rfl, rfl, rfl⟩]
  constructor
  · intro h doc' row' hsomeDoc hsomeRow
    exact h doc' direction row' (hfoundDoc.trans hsomeDoc) (hfoundRow.trans hsomeRow)
  · intro h doc' x row' hsomeDoc hsomeRow
    obtain rfl := hrow.oneDirection hsole _ _ _ (Option.isSome_of_mem hsomeRow)
    exact h doc' row' (hfoundDoc.symm.trans hsomeDoc) (hfoundRow.symm.trans hsomeRow)

theorem agreesAt_other {doc : Option CfdiDocument} {row : Option CfdiMetadataLedger} {t u : String}
    (hdoc : DocumentAt tenantId uuid doc d e) (hrow : LedgerAt tenantId uuid direction row d e)
    (hother : (tenantId, uuid) ≠ (t, u)) : AgreesAt t u e ↔ AgreesAt t u d := by
  have hdocs : findDocument t u e = findDocument t u d := by
    rw [hdoc, if_neg]
    rintro ⟨rfl, rfl⟩
    exact hother rfl
  have hrows : ∀ x, findLedger t u x e = findLedger t u x d := by
    intro x
    rw [hrow, if_neg]
    rintro ⟨rfl, rfl, -⟩
    exact hother rfl
  unfold AgreesAt
  simp only [hdocs, hrows]

/-- Documents that stay are a change under every key. -/
theorem DocumentAt.refl (hsame : e.documents = d.documents) :
    DocumentAt tenantId uuid (findDocument tenantId uuid d) d e := by
  intro t u
  have hfound : findDocument t u e = findDocument t u d := by
    unfold findDocument
    rw [hsame]
  rw [hfound]
  split_ifs with hkey
  · obtain ⟨rfl, rfl⟩ := hkey
    rfl
  · rfl

variable {q : DownloadQuery} {entry : MetadataEntry} {metadataSha256 : String} {writes : List Write}

/-- A document without XML takes the state of its entry. -/
theorem EntryWrites.documentState {doc : CfdiDocument}
    (h : EntryWrites rt q entry metadataSha256 d writes) (hmetadata : q.requestType = .metadata)
    (hdoc : findDocument q.tenantId entry.uuid (applyAll writes d) = some doc)
    (hnone : doc.xmlSha256 = none) : doc.downloadState = entryState rt q entry d := by
  obtain ⟨ledgerWrites, documentWrites, rfl, hledger, hdocument⟩ := h
  obtain ⟨hdocuments, -, -⟩ := hledger.tables (d := d)
  rw [applyAll_append] at hdoc
  generalize applyAll ledgerWrites d = m at hdocuments hdoc
  rw [if_pos hmetadata] at hdocument
  have hfound : findDocument q.tenantId entry.uuid m = findDocument q.tenantId entry.uuid d := by
    unfold findDocument
    rw [hdocuments]
  rw [← hfound] at hdocument
  generalize hexisting : findDocument q.tenantId entry.uuid m = existing at hdocument
  cases hdocument with
  | @discovered row hkey hcarries hxml hstate =>
      change findDocument q.tenantId entry.uuid (append m (.document row)) = some doc at hdoc
      rw [findDocument_append_new hkey hexisting, if_pos ⟨rfl, rfl⟩] at hdoc
      cases hdoc
      exact hstate
  | @updated existing change hkey hcarries hxml hstate =>
      change findDocument q.tenantId entry.uuid (changeDocument q.tenantId entry.uuid change m) = some doc at hdoc
      rw [documentAt_change hkey hexisting, if_pos ⟨rfl, rfl⟩] at hdoc
      cases hdoc
      rw [hstate, if_pos ((hxml _).symm.trans hnone)]

theorem entryState_of_hasXml (h : hasXml q.tenantId entry.uuid d = true) :
    entryState rt q entry d = ReconciliationState.xmlDownloaded.value := by
  rw [entryState, h]
  rfl

/-- An entry leaves the copies of its invoice in one state exactly if its query is for
metadata or its document is in the state of the entry already. -/
theorem EntryWrites.agreesAt_iff (h : EntryWrites rt q entry metadataSha256 d writes)
    (hd : OneBook q.direction.value d) :
    AgreesAt q.tenantId entry.uuid (applyAll writes d) ↔
      KeepsState rt (.ingest q entry metadataSha256) d := by
  have heffect := EntryWrites.effect h
  have hafter := heffect.xmlBooks hd.xml
  have hdocumented : ∀ doc, q.requestType = .metadata →
      findDocument q.tenantId entry.uuid (applyAll writes d) = some doc → doc.xmlSha256 = none →
      doc.downloadState = entryState rt q entry d := fun _ => h.documentState
  generalize applyAll writes d = e at heffect hafter hdocumented ⊢
  obtain ⟨row, -, hstate, hrow⟩ := heffect.ledger
  -- a document with XML is in the state that is decided where there is evidence
  have hstored : ∀ doc, findDocument q.tenantId entry.uuid e = some doc → doc.xmlSha256 ≠ none →
      doc.downloadState = entryState rt q entry d := by
    intro doc hdoc hset
    obtain ⟨xmlSha256, hsha⟩ := Option.ne_none_iff_exists'.mp hset
    obtain ⟨-, hevidence, hdownloaded⟩ := hafter.digests _ _ doc xmlSha256 hdoc hsha
    rw [HasEvidence, heffect.evidence] at hevidence
    rw [hdownloaded, entryState_of_hasXml (hasXml_iff.mpr ⟨xmlSha256, hevidence⟩)]
  by_cases hmetadata : q.requestType = .metadata
  · obtain ⟨doc, -, -, -, hdoc⟩ := heffect.document hmetadata
    rw [Recovery.agreesAt_iff hdoc hrow hd.sole]
    refine iff_of_true (fun doc' row' hdoc' hrow' => ?_) fun hcfdi => absurd hmetadata hcfdi
    cases hdoc'
    cases hrow'
    have hfound : findDocument q.tenantId entry.uuid e = some doc := by rw [hdoc, if_pos ⟨rfl, rfl⟩]
    rw [hstate]
    by_cases hnone : doc.xmlSha256 = none
    · exact hdocumented doc hmetadata hfound hnone
    · exact hstored doc hfound hnone
  · have hdocuments := heffect.documents hmetadata
    rw [Recovery.agreesAt_iff (DocumentAt.refl hdocuments) hrow hd.sole]
    have hfound : findDocument q.tenantId entry.uuid e = findDocument q.tenantId entry.uuid d := by
      unfold findDocument
      rw [hdocuments]
    rw [hfound] at hstored
    constructor
    · intro hagree _ doc hdoc _
      rw [← hstate]
      exact hagree doc row hdoc rfl
    · intro hkeeps doc row' hdoc hrow'
      cases hrow'
      rw [hstate]
      by_cases hnone : doc.xmlSha256 = none
      · exact hkeeps hmetadata doc hdoc hnone
      · exact hstored doc hdoc hnone

theorem LoadEffect.agreesAt {xmlSha256 : String} (h : LoadEffect q uuid xmlSha256 d e)
    (hsole : ∀ t u x, (findLedger t u x d).isSome → x = q.direction.value) :
    AgreesAt q.tenantId uuid e := by
  obtain ⟨doc, -, hstate, -, hdoc⟩ := h.document
  apply (agreesAt_iff hdoc h.ledger hsole).mpr
  intro doc' row' hdoc' hrow'
  cases hdoc'
  obtain ⟨old, -, rfl⟩ := Option.map_eq_some_iff.mp hrow'
  exact hstate

/-- A reconciled row is in the state of its document exactly if the document has XML or is
in the state decided for the row. -/
theorem ReconcileEffect.agreesAt_iff {row : CfdiMetadataLedger}
    (h : ReconcileEffect row (reconciledState rt row d) d e)
    (hfound : findLedger row.tenantId row.uuid row.direction d = some row)
    (hd : OneBook row.direction d) :
    AgreesAt row.tenantId row.uuid e ↔
      KeepsState rt (.reconcile row.tenantId row.uuid row.direction) d := by
  rw [Recovery.agreesAt_iff (DocumentAt.refl h.documents) h.ledger hd.sole]
  constructor
  · intro hagree row' doc hrow' hdoc _
    cases hfound.symm.trans hrow'
    exact hagree doc _ hdoc rfl
  · intro hkeeps doc row' hdoc hrow'
    cases hrow'
    by_cases hnone : doc.xmlSha256 = none
    · exact hkeeps row doc hfound hdoc hnone
    · obtain ⟨xmlSha256, hsha⟩ := Option.ne_none_iff_exists'.mp hnone
      obtain ⟨-, hevidence, hdownloaded⟩ := hd.xml.digests _ _ doc xmlSha256 hdoc hsha
      have hxml := hd.xml.hasXmlSha_iff.mpr (hasXml_iff.mpr ⟨xmlSha256, hevidence⟩)
      rw [hdownloaded]
      exact (reconciledState_xml.mpr hxml).symm

end Step

section Turn

variable {rt : Runtime} {tenantId t u : String} {direction : DownloadDirection} {d : Db}
variable {action : Action} {writes : List Write}

/-- A turn of one tenant and direction leaves the copies of its invoice in one state exactly
if it keeps their state. -/
theorem state_step_iff (hscope : action.Scoped tenantId direction) (hwrites : action.Writes rt d writes)
    (hd : OneBook direction.value d) :
    AgreesAt action.key.1 action.key.2 (applyAll writes d) ↔ KeepsState rt action d := by
  cases action with
  | ingest q entry metadataSha256 =>
      obtain ⟨-, rfl⟩ := hscope
      exact EntryWrites.agreesAt_iff hwrites hd
  | load q uuid xmlSha256 =>
      obtain ⟨-, rfl⟩ := hscope
      exact iff_of_true ((LoadWrites.effect hwrites).agreesAt hd.sole) trivial
  | reconcile t u x =>
      obtain ⟨row, hfound, hrow⟩ := hwrites
      obtain rfl := hd.sole t u x (Option.isSome_of_mem hfound)
      obtain ⟨-, rfl, rfl, hdirection⟩ := findLedger_spec hfound
      rw [← hdirection] at hfound hd ⊢
      exact (hrow.effect hfound).agreesAt_iff hfound hd

/-- A turn leaves the copies of every other invoice alone. -/
theorem state_step_other (hwrites : action.Writes rt d writes) (hother : action.key ≠ (t, u)) :
    AgreesAt t u (applyAll writes d) ↔ AgreesAt t u d := by
  cases action with
  | ingest q entry metadataSha256 =>
      have heffect := EntryWrites.effect hwrites
      obtain ⟨row, -, -, hrow⟩ := heffect.ledger
      by_cases hmetadata : q.requestType = .metadata
      · obtain ⟨doc, -, -, -, hdoc⟩ := heffect.document hmetadata
        exact agreesAt_other hdoc hrow hother
      · exact agreesAt_other (DocumentAt.refl (heffect.documents hmetadata)) hrow hother
  | load q uuid xmlSha256 =>
      have heffect := LoadWrites.effect hwrites
      obtain ⟨doc, -, -, -, hdoc⟩ := heffect.document
      exact agreesAt_other hdoc heffect.ledger hother
  | reconcile tenantId uuid x =>
      obtain ⟨row, hfound, hrow⟩ := hwrites
      obtain ⟨-, rfl, rfl, rfl⟩ := findLedger_spec hfound
      have heffect := hrow.effect hfound
      exact agreesAt_other (DocumentAt.refl heffect.documents) heffect.ledger hother

/-- Every turn of the direction keeps the books one. -/
theorem OneBook.step (hscope : action.Scoped tenantId direction) (hdigest : action.Digested)
    (hwrites : action.Writes rt d writes) (hd : OneBook direction.value d) :
    OneBook direction.value (applyAll writes d) := by
  refine ⟨?_, hd.xml.step hdigest hwrites⟩
  cases action with
  | ingest q entry metadataSha256 =>
      obtain ⟨-, rfl⟩ := hscope
      obtain ⟨row, -, -, hrow⟩ := (EntryWrites.effect hwrites).ledger
      exact hrow.oneDirection hd.sole
  | load q uuid xmlSha256 =>
      obtain ⟨-, rfl⟩ := hscope
      exact (LoadWrites.effect hwrites).ledger.oneDirection hd.sole
  | reconcile t u x =>
      obtain ⟨row, hfound, hrow⟩ := hwrites
      obtain rfl := hd.sole t u x (Option.isSome_of_mem hfound)
      obtain ⟨-, rfl, rfl, hdirection⟩ := findLedger_spec hfound
      rw [← hdirection] at hfound hd ⊢
      exact (hrow.effect hfound).ledger.oneDirection hd.sole

end Turn

/-! ## The turns of a call -/

/-- The turns of a call, the last of which for every invoice keeps its state. -/
inductive Settles (rt : Runtime) : List Action → Db → Db → Prop
  | nil {d e : Db} (h : SameBooks d e) : Settles rt [] d e
  | cons {action : Action} {rest : List Action} {d e : Db} {writes : List Write}
      (hkeeps : (∀ later ∈ rest, later.key ≠ action.key) → KeepsState rt action d)
      (hwrites : action.Writes rt d writes) (hrest : Settles rt rest (applyAll writes d) e) :
      Settles rt (action :: rest) d e

section Turns

variable {rt : Runtime} {tenantId t u : String} {direction : DownloadDirection} {d e : Db}
variable {turns : List Action}

theorem AgreesAt.congr (hsame : SameBooks d e) : AgreesAt t u e ↔ AgreesAt t u d := by
  unfold AgreesAt
  simp only [hsame.findDocument, hsame.findLedger]

theorem OneBook.congr {x : String} (hsame : SameBooks d e) (h : OneBook x d) : OneBook x e := by
  refine ⟨fun t u y hsome => ?_, h.xml.congr hsame⟩
  rw [hsame.findLedger] at hsome
  exact h.sole t u y hsome

theorem Settles.steps (h : Settles rt turns d e) : FreeSteps rt turns d e := by
  induction h with
  | nil hsame => exact .nil hsame
  | cons _ hwrites _ ih => exact .cons trivial hwrites ih

/-- Turns that all keep the state of their invoice settle. -/
theorem Settles.of_kept (h : Steps rt (KeepsState rt) turns d e) : Settles rt turns d e := by
  induction h with
  | nil hsame => exact .nil hsame
  | cons hkeeps hwrites _ ih => exact .cons (fun _ => hkeeps) hwrites ih

/-- Turns of other invoices leave the copies of an invoice alone. -/
theorem agreesAt_untouched (h : FreeSteps rt turns d e) (hother : ∀ action ∈ turns, action.key ≠ (t, u)) :
    AgreesAt t u e ↔ AgreesAt t u d := by
  induction h with
  | nil hsame => exact AgreesAt.congr hsame
  | cons _ hwrites _ ih =>
      obtain ⟨hfirst, hrest⟩ := List.forall_mem_cons.mp hother
      exact (ih hrest).trans (state_step_other hwrites hfirst)

variable (hscope : ∀ action ∈ turns, action.Scoped tenantId direction)
variable (hdigest : ∀ action ∈ turns, action.Digested) (hd : OneBook direction.value d)

include hscope hdigest hd

theorem OneBook.steps (h : FreeSteps rt turns d e) : OneBook direction.value e := by
  have hrestricted := (h.restrict hscope).restrict hdigest
  refine hrestricted.keeps (fun _ _ => OneBook.congr) ?_ hd
  rintro action m writes ⟨hdigested, hscoped, -⟩ hwrites hm
  exact hm.step hscoped hdigested hwrites

/-- Where the turns settle, the copies of an invoice agree in the end if a turn is about it
or they agreed before. -/
theorem Settles.agreesAt (h : Settles rt turns d e)
    (hagree : AgreesAt t u d ∨ ∃ action ∈ turns, action.key = (t, u)) : AgreesAt t u e := by
  induction h with
  | nil hsame =>
      rcases hagree with hbefore | ⟨action, haction, -⟩
      · exact (AgreesAt.congr hsame).mpr hbefore
      · exact absurd haction List.not_mem_nil
  | @cons action rest d e writes hkeeps hwrites hrest ih =>
      obtain ⟨hscoped, hscope'⟩ := List.forall_mem_cons.mp hscope
      obtain ⟨hdigested, hdigest'⟩ := List.forall_mem_cons.mp hdigest
      apply ih hscope' hdigest' (hd.step hscoped hdigested hwrites)
      by_cases hlater : ∃ later ∈ rest, later.key = (t, u)
      · exact .inr hlater
      · refine .inl ?_
        by_cases hkey : action.key = (t, u)
        · -- the turn is the last one for the invoice
          have hkept := hkeeps fun later hmem hsame => hlater ⟨later, hmem, hsame.trans hkey⟩
          have hstep := (state_step_iff hscoped hwrites hd).mpr hkept
          rwa [hkey] at hstep
        · apply (state_step_other hwrites hkey).mpr
          rcases hagree with hbefore | ⟨other, hmem, hother⟩
          · exact hbefore
          · rcases List.mem_cons.mp hmem with rfl | hmem
            · exact absurd hother hkey
            · exact absurd ⟨other, hmem, hother⟩ hlater

/-- Turns after which all copies agree have settled. -/
theorem Settles.of_steps (h : FreeSteps rt turns d e) (hagree : ∀ t u, AgreesAt t u e) :
    Settles rt turns d e := by
  induction h with
  | nil hsame => exact .nil hsame
  | cons _ hwrites hrest ih =>
      obtain ⟨hscoped, hscope'⟩ := List.forall_mem_cons.mp hscope
      obtain ⟨hdigested, hdigest'⟩ := List.forall_mem_cons.mp hdigest
      refine .cons (fun hlast => ?_) hwrites
        (ih hscope' hdigest' (hd.step hscoped hdigested hwrites) hagree)
      apply (state_step_iff hscoped hwrites hd).mp
      exact (agreesAt_untouched hrest hlast).mp (hagree _ _)

/-- Turns that begin with all copies in agreement settle exactly if they end so. -/
theorem settles_iff (h : FreeSteps rt turns d e) (hbefore : ∀ t u, AgreesAt t u d) :
    (∀ t u, AgreesAt t u e) ↔ Settles rt turns d e := by
  constructor
  · exact Settles.of_steps hscope hdigest hd h
  · intro hsettles t u
    exact hsettles.agreesAt hscope hdigest hd (.inl (hbefore t u))

end Turns

/-! ## Runs of calls -/

/-- The turns of a call settle. -/
def CallSettles (env : Env) (w : World) (call : Call) : Prop :=
  ∃ turns, Turns env w call turns ∧ Settles env.rt turns w.db (call.world env w).db

/-- The databases of the runs for one tenant and one direction whose calls all settle. -/
inductive SettledBy (rt : Runtime) (tenantId : String) (direction : DownloadDirection) : Db → Prop
  | start : SettledBy rt tenantId direction {}
  | call {env : Env} {w : World} {call : Call} (h : SettledBy rt tenantId direction w.db)
      (hrt : env.rt = rt) (hmade : OnlyFor tenantId direction env call)
      (hsettles : CallSettles env w call) : SettledBy rt tenantId direction (call.world env w).db

section Runs

variable {rt : Runtime} {tenantId : String} {direction : DownloadDirection} {d : Db}

theorem SettledBy.reachable (h : SettledBy rt tenantId direction d) :
    ReachableBy rt (OnlyFor tenantId direction) d := by
  induction h with
  | start => exact .start
  | call _ hrt hmade _ ih => exact .call ih hrt _ hmade

theorem oneBook_empty (x : String) : OneBook x {} := by
  refine ⟨fun _ _ _ h => ?_, xmlBooks_empty⟩
  cases h

/-- Calls for one direction keep the books one. -/
theorem ReachableBy.oneBook (h : ReachableBy rt (OnlyFor tenantId direction) d) :
    OneBook direction.value d := by
  obtain ⟨actions, hrun⟩ := h.run
  have hscoped := hrun.restrict (P := Action.Scoped tenantId direction)
    fun _ _ _ _ hmade hturns => hturns.scoped hmade
  have hrestricted := hscoped.restrict (P := Action.Digested) fun _ _ _ _ _ hturns => hturns.digested
  refine hrestricted.holds (oneBook_empty _) (fun _ _ => OneBook.congr) ?_
  rintro action m writes ⟨hdigest, hscope, -⟩ hwrites hm
  exact hm.step hscope hdigest hwrites

/-- The copies agree in the tables as the lookups see them. -/
theorem stateAgrees_iff (hunique : Unique d) : StateAgrees d ↔ ∀ t u, AgreesAt t u d := by
  constructor
  · intro h t u doc x row hdoc hrow
    obtain ⟨hdocMem, rfl, rfl⟩ := findDocument_spec hdoc
    obtain ⟨hrowMem, htenant, huuid, -⟩ := findLedger_spec hrow
    exact h doc hdocMem row hrowMem htenant huuid
  · intro h doc hdoc row hrow htenant huuid
    have hfound := findDocument_of_mem hunique hdoc ⟨rfl, rfl⟩
    exact h doc.tenantId doc.uuid doc row.direction row hfound
      (findLedger_of_mem hunique hrow ⟨htenant, huuid, rfl⟩)

/-- A call made where the copies agree leaves them so exactly if its turns settle. -/
theorem settled_iff {env : Env} {w : World} {call : Call}
    (h : ReachableBy env.rt (OnlyFor tenantId direction) w.db) (hagree : StateAgrees w.db)
    (hmade : OnlyFor tenantId direction env call) :
    StateAgrees (call.world env w).db ↔ CallSettles env w call := by
  have hbefore := (stateAgrees_iff h.unique).mp hagree
  have hafter : ReachableBy env.rt (OnlyFor tenantId direction) (call.world env w).db :=
    .call h rfl call hmade
  rw [stateAgrees_iff hafter.unique]
  constructor
  · intro hagreed
    obtain ⟨turns, hturns, hsteps⟩ := call_turns h.unique call
    exact ⟨turns, hturns, .of_steps (hturns.scoped hmade) hturns.digested h.oneBook hsteps hagreed⟩
  · rintro ⟨turns, hturns, hsettles⟩ t u
    exact hsettles.agreesAt (hturns.scoped hmade) hturns.digested h.oneBook (.inl (hbefore t u))

end Runs

/-- Documents and ledger agree on the states after every run for one tenant and one
direction whose calls settle; and a call that does not settle parts them. -/
theorem state_agrees (rt : Runtime) (tenantId : String) (direction : DownloadDirection) :
    (∀ d, SettledBy rt tenantId direction d → StateAgrees d) ∧
    ∀ env w call, env.rt = rt → SettledBy rt tenantId direction w.db →
      OnlyFor tenantId direction env call →
      (StateAgrees (call.world env w).db ↔ CallSettles env w call) := by
  have hagrees : ∀ d, SettledBy rt tenantId direction d → StateAgrees d := by
    intro d h
    induction h with
    | start => exact fun doc hdoc => absurd hdoc List.not_mem_nil
    | call h hrt hmade hsettles ih =>
        subst hrt
        exact (settled_iff h.reachable ih hmade).mpr hsettles
  refine ⟨hagrees, ?_⟩
  rintro env w call rfl h hmade
  exact settled_iff h.reachable (hagrees _ h) hmade

/-! ## A reconciliation that leaves the document behind -/

section Sample

theorem state_agrees_sample :
    StateAgrees (vigenteCall.world vigenteEnv (sampleWorld {})).db ∧
      (StateAgrees (vigenteCall.world vigenteEnv (sampleWorld {})).db ↔
        CallSettles vigenteEnv (sampleWorld {}) vigenteCall) := by
  obtain ⟨hruns, hcalls⟩ := state_agrees sampleHost "tenant-a" .received
  obtain ⟨turns, hturns, hsteps⟩ :=
    @call_turns vigenteEnv (sampleWorld {}) unique_empty vigenteCall
  have hmetadata : ∀ action ∈ turns, ∀ d, KeepsState vigenteEnv.rt action d := by
    cases hturns with
    | none => exact fun _ haction => absurd haction List.not_mem_nil
    | ingest hparsed =>
        intro action haction d
        obtain ⟨entry, -, rfl⟩ := List.mem_map.mp haction
        exact fun hcfdi => absurd rfl hcfdi
  have hkept : Steps vigenteEnv.rt (KeepsState vigenteEnv.rt) turns (sampleWorld {}).db
      (vigenteCall.world vigenteEnv (sampleWorld {})).db :=
    (hsteps.restrict hmetadata).weaken fun _ d h => h.1 d
  have hsettled : SettledBy sampleHost "tenant-a" .received
      (vigenteCall.world vigenteEnv (sampleWorld {})).db :=
    @SettledBy.call sampleHost _ _ vigenteEnv (sampleWorld {}) vigenteCall .start rfl ⟨rfl, rfl⟩
      ⟨turns, hturns, .of_kept hkept⟩
  exact ⟨hruns _ hsettled, hcalls vigenteEnv (sampleWorld {}) vigenteCall rfl .start ⟨rfl, rfl⟩⟩

/-- The database after that call and a reconciliation. -/
def reconciledDb : Db :=
  ((Call.reconcile none).world (sampleEnv [])
    (sampleWorld (vigenteCall.world vigenteEnv (sampleWorld {})).db)).db

/-- A document whose ledger row is reconciled stays in the state of its discovery. -/
theorem reconciled_row_parted :
    ¬ ∀ d, ReachableBy sampleHost (OnlyFor "tenant-a" .received) d → StateAgrees d := by
  intro h
  have hvigente : ReachableBy sampleHost (OnlyFor "tenant-a" .received)
      (vigenteCall.world vigenteEnv (sampleWorld {})).db :=
    @ReachableBy.call _ _ vigenteEnv (sampleWorld {}) .start rfl vigenteCall ⟨rfl, rfl⟩
  have hreachable : ReachableBy sampleHost (OnlyFor "tenant-a" .received) reconciledDb :=
    @ReachableBy.call _ _ (sampleEnv []) (sampleWorld _) hvigente rfl (.reconcile none) trivial
  have hdocument : (findDocument "tenant-a" "UUID-1" reconciledDb).map (·.downloadState) =
      some ReconciliationState.discoveredInMetadata.value := by
    decide +kernel
  have hledger : (findLedger "tenant-a" "UUID-1" "received" reconciledDb).map (·.reconciliationState) =
      some ReconciliationState.xmlPending.value := by
    decide +kernel
  obtain ⟨doc, hdoc, hdocState⟩ := Option.map_eq_some_iff.mp hdocument
  obtain ⟨row, hrow, hrowState⟩ := Option.map_eq_some_iff.mp hledger
  have hagrees := (stateAgrees_iff hreachable.unique).mp (h reconciledDb hreachable)
  have hsame := hagrees _ _ doc _ row hdoc hrow
  rw [hdocState, hrowState] at hsame
  exact absurd hsame (by decide)

end Sample

end Recovery

end CfdiVault
