import CfdiVault.RecoveryRuns

/-!
# Evidence, documents and ledger

That the XML of an invoice is stored is recorded three times: as evidence, in its document
and in the state of its ledger rows.  Evidence and document never part (`XmlBooks`), but
the ledger may be behind until a reconciliation, which looks the document up under the
UUID of the ledger row as it is spelled there.  XML is stored under the upper-case UUID, and
the metadata of a SAT answer is stored as SAT spells it.  So a reconciliation brings the
ledger up to date exactly if the spellings of what is stored agree (`reconciled_iff`).
-/

namespace CfdiVault

namespace Recovery

/-! ## What is recorded -/

/-- The XML of a document is recorded as evidence. -/
def HasXml (tenantId uuid : String) (d : Db) : Prop :=
  ∃ row ∈ d.evidence, row.tenantId = tenantId ∧ row.uuid = uuid

/-- Ledger and documents claim XML exactly where evidence is, and a document has the digest
of some of its evidence. -/
structure XmlConsistent (d : Db) : Prop where
  ledger : ∀ row ∈ d.ledger, row.reconciliationState = ReconciliationState.xmlDownloaded.value →
    HasXml row.tenantId row.uuid d
  documents : ∀ doc ∈ d.documents, doc.xmlSha256 ≠ none ↔ HasXml doc.tenantId doc.uuid d
  digests : ∀ doc ∈ d.documents, ∀ xmlSha256, doc.xmlSha256 = some xmlSha256 →
    HasEvidence doc.tenantId doc.uuid xmlSha256 d ∧
      doc.downloadState = ReconciliationState.xmlDownloaded.value

/-- The lookups of the books where XML is concerned. -/
structure XmlBooks (d : Db) : Prop where
  ledger : ∀ t u x row, findLedger t u x d = some row →
    row.reconciliationState = ReconciliationState.xmlDownloaded.value → hasXml t u d = true
  digests : ∀ t u doc xmlSha256, findDocument t u d = some doc → doc.xmlSha256 = some xmlSha256 →
    xmlSha256 ≠ "" ∧ HasEvidence t u xmlSha256 d ∧
      doc.downloadState = ReconciliationState.xmlDownloaded.value
  documented : ∀ t u, hasXml t u d = true → ∃ doc, findDocument t u d = some doc ∧ doc.xmlSha256 ≠ none

/-- The digest of a load is one. -/
def Action.Digested : Action → Prop
  | .load _ _ xmlSha256 => xmlSha256 ≠ ""
  | _ => True

section Step

variable {rt : Runtime} {d e : Db} {q : DownloadQuery}

/-- A row is in the state of stored XML only where evidence is. -/
theorem entryState_xml {entry : MetadataEntry}
    (h : entryState rt q entry d = ReconciliationState.xmlDownloaded.value) :
    hasXml q.tenantId entry.uuid d = true := by
  by_contra hnot
  rw [Bool.not_eq_true] at hnot
  rw [entryState, hnot] at h
  exact Reconciliation.decideMetadataState_noXml _ _ _ _ h

theorem reconciledState_xml {row : CfdiMetadataLedger} :
    reconciledState rt row d = ReconciliationState.xmlDownloaded.value ↔
      hasXmlSha (findDocument row.tenantId row.uuid d) = true := by
  change (if hasXmlSha (findDocument row.tenantId row.uuid d) = true then _ else _) = _ ↔ _
  cases hasXmlSha (findDocument row.tenantId row.uuid d) with
  | true => exact iff_of_true rfl rfl
  | false =>
      exact iff_of_false (Reconciliation.decideMetadataState_noXml _ _ _ _) Bool.false_ne_true

/-- A document counts as one with XML exactly where evidence is. -/
theorem XmlBooks.hasXmlSha_iff (h : XmlBooks d) {t u : String} :
    hasXmlSha (findDocument t u d) = true ↔ hasXml t u d = true := by
  cases hfound : findDocument t u d with
  | none =>
      refine iff_of_false Bool.false_ne_true fun hxml => ?_
      obtain ⟨doc, hdoc, -⟩ := h.documented t u hxml
      rw [hfound] at hdoc
      cases hdoc
  | some doc =>
      rw [hasXmlSha, decide_eq_true_eq]
      cases hsha : doc.xmlSha256 with
      | none =>
          refine iff_of_false (not_not.mpr rfl) fun hxml => ?_
          obtain ⟨doc', hdoc', hset⟩ := h.documented t u hxml
          cases hfound.symm.trans hdoc'
          exact hset hsha
      | some xmlSha256 =>
          obtain ⟨hne, hevidence, -⟩ := h.digests t u doc xmlSha256 hfound hsha
          exact iff_of_true hne (hasXml_iff.mpr ⟨xmlSha256, hevidence⟩)

theorem EntryEffect.xmlBooks {entry : MetadataEntry} {metadataSha256 : String}
    (h : EntryEffect rt q entry metadataSha256 d e) (hd : XmlBooks d) : XmlBooks e := by
  have hxml : ∀ t u, hasXml t u e = hasXml t u d := by
    intro t u
    rw [hasXml, h.evidence, hasXml]
  have hhas : ∀ t u x, HasEvidence t u x e ↔ HasEvidence t u x d := by
    intro t u x
    rw [HasEvidence, h.evidence, HasEvidence]
  -- every document is the one it was, or carries its digest on
  have hdocuments : ∀ t u doc, findDocument t u e = some doc →
      (findDocument t u d = none ∧ doc.xmlSha256 = none) ∨
      ∃ old, findDocument t u d = some old ∧ doc.xmlSha256 = old.xmlSha256 ∧
        (old.xmlSha256 ≠ none → doc.downloadState = old.downloadState) := by
    intro t u doc hdoc
    by_cases hmetadata : q.requestType = .metadata
    · obtain ⟨row, -, hsha, hstate, hat⟩ := h.document hmetadata
      rw [hat] at hdoc
      split_ifs at hdoc with hkey
      · obtain ⟨rfl, rfl⟩ := hkey
        cases hdoc
        cases hold : findDocument q.tenantId entry.uuid d with
        | none => exact .inl ⟨rfl, by rw [hsha, hold]; rfl⟩
        | some old => exact .inr ⟨old, rfl, by rw [hsha, hold]; rfl, hstate old hold⟩
      · exact .inr ⟨doc, hdoc, rfl, fun _ => rfl⟩
    · refine .inr ⟨doc, ?_, rfl, fun _ => rfl⟩
      rw [← hdoc]
      unfold findDocument
      rw [h.documents hmetadata]
  refine ⟨fun t u x row hrow hstate => ?_, fun t u doc xmlSha256 hdoc hsha => ?_, fun t u hhasXml => ?_⟩
  · rw [hxml]
    obtain ⟨new, -, hnew, hat⟩ := h.ledger
    rw [hat] at hrow
    split_ifs at hrow with hkey
    · obtain ⟨rfl, rfl, rfl⟩ := hkey
      cases hrow
      exact entryState_xml (hnew.symm.trans hstate)
    · exact hd.ledger t u x row hrow hstate
  · rw [hhas]
    rcases hdocuments t u doc hdoc with ⟨-, hnone⟩ | ⟨old, hold, hsame, hkept⟩
    · rw [hnone] at hsha
      cases hsha
    · rw [hsame] at hsha
      obtain ⟨hne, hevidence, hstate⟩ := hd.digests t u old xmlSha256 hold hsha
      exact ⟨hne, hevidence, (hkept (hsha ▸ Option.some_ne_none _)).trans hstate⟩
  · rw [hxml] at hhasXml
    obtain ⟨old, hold, hset⟩ := hd.documented t u hhasXml
    cases hdoc : findDocument t u e with
    | some doc =>
        refine ⟨doc, rfl, ?_⟩
        rcases hdocuments t u doc hdoc with ⟨hnone, -⟩ | ⟨old', hold', hsame, -⟩
        · rw [hnone] at hold
          cases hold
        · cases hold.symm.trans hold'
          rwa [hsame]
    | none =>
        exfalso
        by_cases hmetadata : q.requestType = .metadata
        · obtain ⟨row, -, -, -, hat⟩ := h.document hmetadata
          rw [hat] at hdoc
          split_ifs at hdoc
          rw [hdoc] at hold
          cases hold
        · rw [findDocument, h.documents hmetadata, ← findDocument, hold] at hdoc
          cases hdoc

theorem LoadEffect.hasXml_iff {uuid xmlSha256 : String} (h : LoadEffect q uuid xmlSha256 d e) {t u : String} :
    hasXml t u e = true ↔ hasXml t u d = true ∨ (t = q.tenantId ∧ u = uuid) := by
  rw [Recovery.hasXml_iff, Recovery.hasXml_iff]
  simp only [h.hasEvidence, exists_or]
  refine or_congr_right ⟨?_, ?_⟩
  · rintro ⟨_, htenant, huuid, -⟩
    exact ⟨htenant, huuid⟩
  · rintro ⟨htenant, huuid⟩
    exact ⟨xmlSha256, htenant, huuid, rfl⟩

theorem LoadEffect.xmlBooks {uuid xmlSha256 : String} (h : LoadEffect q uuid xmlSha256 d e)
    (hdigest : xmlSha256 ≠ "") (hd : XmlBooks d) : XmlBooks e := by
  obtain ⟨new, hnewSha, hnewState, -, hat⟩ := h.document
  refine ⟨fun t u x row hrow hstate => ?_, fun t u doc sha hdoc hsha => ?_, fun t u hhasXml => ?_⟩
  · rw [h.hasXml_iff]
    rw [h.ledger] at hrow
    split_ifs at hrow with hkey
    · exact .inr ⟨hkey.1, hkey.2.1⟩
    · exact .inl (hd.ledger t u x row hrow hstate)
  · rw [hat] at hdoc
    rw [h.hasEvidence]
    split_ifs at hdoc with hkey
    · cases hdoc
      cases hnewSha.symm.trans hsha
      exact ⟨hdigest, .inr ⟨hkey.1, hkey.2, rfl⟩, hnewState⟩
    · obtain ⟨hne, hevidence, hstate⟩ := hd.digests t u doc sha hdoc hsha
      exact ⟨hne, .inl hevidence, hstate⟩
  · rw [hat]
    split_ifs with hkey
    · exact ⟨new, rfl, hnewSha ▸ Option.some_ne_none _⟩
    · rcases h.hasXml_iff.mp hhasXml with hbefore | hnew
      · exact hd.documented t u hbefore
      · exact absurd hnew hkey

theorem ReconcileEffect.xmlBooks {row : CfdiMetadataLedger}
    (h : ReconcileEffect row (reconciledState rt row d) d e) (hd : XmlBooks d) : XmlBooks e := by
  have hxml : ∀ t u, hasXml t u e = hasXml t u d := by
    intro t u
    rw [hasXml, h.evidence, hasXml]
  have hfound : ∀ t u, findDocument t u e = findDocument t u d := by
    intro t u
    rw [findDocument, h.documents, findDocument]
  refine ⟨fun t u x row' hrow hstate => ?_, fun t u doc sha hdoc hsha => ?_, fun t u hhasXml => ?_⟩
  · rw [hxml]
    rw [h.ledger] at hrow
    split_ifs at hrow with hkey
    · obtain ⟨rfl, rfl, rfl⟩ := hkey
      cases hrow
      exact hd.hasXmlSha_iff.mp (reconciledState_xml.mp hstate)
    · exact hd.ledger t u x row' hrow hstate
  · rw [hfound] at hdoc
    rw [HasEvidence, h.evidence]
    exact hd.digests t u doc sha hdoc hsha
  · rw [hfound]
    rw [hxml] at hhasXml
    exact hd.documented t u hhasXml

/-- Every turn keeps evidence and documents together. -/
theorem XmlBooks.step {action : Action} {writes : List Write} (hdigest : action.Digested)
    (hwrites : action.Writes rt d writes) (hd : XmlBooks d) : XmlBooks (applyAll writes d) := by
  cases action with
  | ingest q entry metadataSha256 => exact (EntryWrites.effect hwrites).xmlBooks hd
  | load q uuid xmlSha256 => exact (LoadWrites.effect hwrites).xmlBooks hdigest hd
  | reconcile t u x =>
      obtain ⟨row, hfound, hrow⟩ := hwrites
      obtain ⟨-, rfl, rfl, rfl⟩ := findLedger_spec hfound
      exact (hrow.effect hfound).xmlBooks hd

end Step

/-! ## What the calls keep -/

section Loads

variable {env : Env} {q : DownloadQuery}

theorem memberLoad_digest {archive : ZipArchive} {member : String} {load : String × String}
    (h : memberLoad env archive member = .ok load) : load.2 ≠ "" := by
  obtain ⟨bytes, -, h⟩ := Checked.bind_eq_ok.mp h
  obtain ⟨reading, -, h⟩ := Checked.bind_eq_ok.mp h
  cases Checked.pure_eq_ok.mp h
  exact Digest.hex_ne_empty _

theorem packagesLoads_digest {packages : List (String × Bytes)} {loads : List (String × String)}
    (h : packagesLoads env packages = .ok loads) : ∀ load ∈ loads, load.2 ≠ "" := by
  intro load hload
  obtain ⟨each, heach, h⟩ := Checked.bind_eq_ok.mp h
  cases Checked.pure_eq_ok.mp h
  obtain ⟨loads, hloads, hmem⟩ := List.mem_flatten.mp hload
  obtain ⟨package, -, hpackage⟩ := Checked.of_mem_mapM heach hloads
  obtain ⟨archive, -, hmembers⟩ := Checked.bind_eq_ok.mp hpackage
  obtain ⟨member, -, hmember⟩ := Checked.of_mem_mapM hmembers hmem
  exact memberLoad_digest hmember

theorem ingestion_digested {metadata : List MetadataEntry} {metadataSha256 : String} :
    ∀ action ∈ ingestion q metadata metadataSha256, action.Digested := by
  intro action haction
  obtain ⟨entry, -, rfl⟩ := List.mem_map.mp haction
  trivial

theorem JobTurns.digested {answer : SatAnswer} {turns : List Action} (h : JobTurns env q answer turns) :
    ∀ action ∈ turns, action.Digested := by
  obtain ⟨contents, loads, -, hloads, rfl⟩ := h
  refine List.forall_mem_append.mpr ⟨ingestion_digested, fun action haction => ?_⟩
  obtain ⟨load, hload, rfl⟩ := List.mem_map.mp haction
  unfold XmlLoads at hloads
  split_ifs at hloads
  · exact packagesLoads_digest hloads load hload
  · rw [hloads] at hload
    cases hload

/-- Every XML that a call stores has a digest. -/
theorem Turns.digested {w : World} {call : Call} {turns : List Action} (h : Turns env w call turns) :
    ∀ action ∈ turns, action.Digested := by
  cases h with
  | none => exact fun _ haction => absurd haction List.not_mem_nil
  | sync _ hturns => exact hturns.digested
  | message _ _ hturns => exact hturns.digested
  | ingest => exact ingestion_digested
  | reconcile =>
      intro action haction
      obtain ⟨row, -, rfl⟩ := List.mem_map.mp haction
      trivial

end Loads

section Reached

variable {rt : Runtime} {d e : Db}

theorem XmlBooks.congr (hsame : SameBooks d e) (h : XmlBooks d) : XmlBooks e := by
  refine ⟨fun t u x row hrow hstate => ?_, fun t u doc sha hdoc hsha => ?_, fun t u hxml => ?_⟩
  · rw [hsame.findLedger] at hrow
    rw [hsame.hasXml]
    exact h.ledger t u x row hrow hstate
  · rw [hsame.findDocument] at hdoc
    rw [HasEvidence, hsame.evidence]
    exact h.digests t u doc sha hdoc hsha
  · rw [hsame.hasXml] at hxml
    rw [hsame.findDocument]
    exact h.documented t u hxml

theorem xmlBooks_empty : XmlBooks {} := by
  refine ⟨fun _ _ _ _ h => ?_, fun _ _ _ _ h => ?_, fun _ _ h => ?_⟩ <;> cases h

theorem Run.xmlBooks {Made : Env → Call → Prop} {Allowed : Action → Db → Prop} {actions : List Action}
    (h : Run rt Made Allowed actions d) : XmlBooks d := by
  have hdigested := h.restrict (P := Action.Digested) fun _ _ _ _ _ hturns => hturns.digested
  refine hdigested.holds xmlBooks_empty (fun _ _ => XmlBooks.congr) ?_
  exact fun action d writes hallowed hwrites hd => hd.step hallowed.1 hwrites

theorem Reachable.xmlBooks (h : Reachable rt d) : XmlBooks d := by
  obtain ⟨actions, hrun⟩ := h.run
  exact hrun.xmlBooks

theorem hasXml_eq_true {t u : String} : hasXml t u d = true ↔ HasXml t u d := by
  simp only [hasXml, List.any_eq_true, decide_eq_true_eq, HasXml]

theorem XmlBooks.consistent (h : XmlBooks d) (hunique : Unique d) : XmlConsistent d := by
  have hfound : ∀ doc ∈ d.documents, findDocument doc.tenantId doc.uuid d = some doc :=
    fun doc hdoc => findDocument_of_mem hunique hdoc ⟨rfl, rfl⟩
  refine ⟨fun row hrow hstate => ?_, fun doc hdoc => ⟨fun hset => ?_, fun hxml => ?_⟩,
    fun doc hdoc sha hsha => (h.digests _ _ doc sha (hfound doc hdoc) hsha).2⟩
  · exact hasXml_eq_true.mp (h.ledger _ _ _ row (findLedger_of_mem hunique hrow ⟨rfl, rfl, rfl⟩) hstate)
  · obtain ⟨sha, hsha⟩ := Option.ne_none_iff_exists'.mp hset
    obtain ⟨-, hevidence, -⟩ := h.digests _ _ doc sha (hfound doc hdoc) hsha
    exact hasXml_eq_true.mp (hasXml_iff.mpr ⟨sha, hevidence⟩)
  · obtain ⟨doc', hdoc', hset⟩ := h.documented _ _ (hasXml_eq_true.mpr hxml)
    cases (hfound doc hdoc).symm.trans hdoc'
    exact hset

end Reached

/-! ## What a reconciliation leaves -/

/-- Every ledger row whose UUID has evidence, in whatever letter case, is in the state of
stored XML. -/
def Reconciled (rt : Runtime) (d : Db) : Prop :=
  ∀ row ∈ d.ledger, ∀ evidence ∈ d.evidence, evidence.tenantId = row.tenantId →
    rt.upper evidence.uuid = rt.upper row.uuid →
    row.reconciliationState = ReconciliationState.xmlDownloaded.value

/-- Every ledger row whose UUID has evidence in whatever letter case has some in its own. -/
def SpellingsAgree (rt : Runtime) (d : Db) : Prop :=
  ∀ row ∈ d.ledger, ∀ evidence ∈ d.evidence, evidence.tenantId = row.tenantId →
    rt.upper evidence.uuid = rt.upper row.uuid → HasXml row.tenantId row.uuid d

/-- The turn spells its UUID as what is stored: an entry as some evidence of the UUID if
there is any, and an XML as every ledger row of the UUID without evidence. -/
def KeepsSpelling (rt : Runtime) : Action → Db → Prop
  | .ingest q entry _, d => ∀ uuid, HasXml q.tenantId uuid d → rt.upper uuid = rt.upper entry.uuid →
      HasXml q.tenantId entry.uuid d
  | .load q uuid _, d => ∀ row ∈ d.ledger, row.tenantId = q.tenantId →
      rt.upper uuid = rt.upper row.uuid → HasXml q.tenantId row.uuid d ∨ row.uuid = uuid
  | .reconcile .., _ => True

section Reconciliation

variable {rt : Runtime} {d e : Db}

/-- The rows of a reconciliation are in the states decided for them where it began, and
the others are what they were. -/
theorem reconciled_rows {rows : List CfdiMetadataLedger} (h : FreeSteps rt (rows.map rowAction) d e)
    (hcurrent : Current rows d) (hdistinct : rows.Pairwise fun a b =>
      ¬ (a.tenantId = b.tenantId ∧ a.uuid = b.uuid ∧ a.direction = b.direction)) :
    e.documents = d.documents ∧ e.evidence = d.evidence ∧
      (∀ row ∈ rows, findLedger row.tenantId row.uuid row.direction e =
        some (withState (reconciledState rt row d) row)) ∧
      ∀ t u x, (∀ row ∈ rows, ¬ IsLedgerRow t u x row) → findLedger t u x e = findLedger t u x d := by
  induction rows generalizing d with
  | nil =>
      cases h with
      | nil hsame =>
          exact ⟨hsame.documents, hsame.evidence, fun _ hrow => absurd hrow List.not_mem_nil,
            fun _ _ _ _ => hsame.findLedger⟩
  | cons row rest ih =>
      obtain ⟨hrow, hothers⟩ := List.forall_mem_cons.mp hcurrent
      obtain ⟨hfirst, hdistinct'⟩ := List.pairwise_cons.mp hdistinct
      cases h with
      | cons _ hwrites hrest =>
        obtain ⟨found, hfound, hwritten⟩ := hwrites
        cases hrow.symm.trans hfound
        have heffect := hwritten.effect hrow
        generalize applyAll _ d = m at hrest heffect
        have hdecided : ∀ other, reconciledState rt other m = reconciledState rt other d := by
          intro other
          unfold reconciledState findDocument
          rw [heffect.documents]
        have hkept : Current rest m := by
          intro other hother
          rw [heffect.ledger, if_neg fun hsame =>
            hfirst other hother ⟨hsame.1.symm, hsame.2.1.symm, hsame.2.2.symm⟩]
          exact hothers other hother
        obtain ⟨hdocuments, hevidence, hin, hout⟩ := ih hrest hkept hdistinct'
        refine ⟨hdocuments.trans heffect.documents, hevidence.trans heffect.evidence, ?_, ?_⟩
        · refine List.forall_mem_cons.mpr ⟨?_, fun other hother => ?_⟩
          · rw [hout, heffect.ledger, if_pos ⟨rfl, rfl, rfl⟩]
            rintro other hother ⟨htenant, huuid, hdirection⟩
            exact hfirst other hother ⟨htenant.symm, huuid.symm, hdirection.symm⟩
          · rw [hin other hother, hdecided]
        · intro t u x hnone
          obtain ⟨hnot, hrest'⟩ := List.forall_mem_cons.mp hnone
          rw [hout t u x hrest', heffect.ledger, if_neg]
          rintro ⟨rfl, rfl, rfl⟩
          exact hnot ⟨rfl, rfl, rfl⟩

/-- A reconciliation of the whole ledger brings it up to date exactly if the spellings of
what is stored agree. -/
theorem reconciled_iff (hunique : Unique d) (hbooks : XmlBooks d)
    (h : FreeSteps rt ((ledgerOf none d).map rowAction) d e) : Reconciled rt e ↔ SpellingsAgree rt d := by
  have hcurrent : Current d.ledger d := fun row hrow => findLedger_of_mem hunique hrow ⟨rfl, rfl, rfl⟩
  obtain ⟨-, hevidence, hin, hout⟩ := reconciled_rows h hcurrent hunique.ledger
  have hstate : ∀ row, reconciledState rt row d = ReconciliationState.xmlDownloaded.value ↔
      HasXml row.tenantId row.uuid d := by
    intro row
    rw [reconciledState_xml, hbooks.hasXmlSha_iff, hasXml_eq_true]
  unfold Reconciled SpellingsAgree
  rw [hevidence]
  constructor
  · intro hreconciled row hrow evidence hmem htenant huuid
    obtain ⟨hmem', -⟩ := findLedger_spec (hin row hrow)
    exact (hstate row).mp (hreconciled _ hmem' evidence hmem htenant huuid)
  · intro hagree row' hrow' evidence hmem htenant huuid
    have hfound := findLedger_of_mem (h.unique hunique) hrow' ⟨rfl, rfl, rfl⟩
    -- the row is one of those that were there
    by_cases hknown : ∃ row ∈ d.ledger, IsLedgerRow row'.tenantId row'.uuid row'.direction row
    · obtain ⟨row, hrow, hrowTenant, hrowUuid, hdirection⟩ := hknown
      have hafter := hin row hrow
      rw [hrowTenant, hrowUuid, hdirection, hfound] at hafter
      rw [Option.some.inj hafter]
      refine (hstate row).mpr (hagree row hrow evidence hmem ?_ ?_)
      · rw [htenant, hrowTenant]
      · rw [huuid, hrowUuid]
    · rw [hout _ _ _ fun row hrow hkey => hknown ⟨row, hrow, hkey⟩] at hfound
      obtain ⟨hrow, hkey⟩ := findLedger_spec hfound
      exact absurd ⟨row', hrow, hkey⟩ hknown

/-- The spellings agree as the lookups see them. -/
theorem spellingsAgree_iff : SpellingsAgree rt d ↔ ∀ t u x v, (findLedger t u x d).isSome →
    HasXml t v d → rt.upper v = rt.upper u → HasXml t u d := by
  constructor
  · intro h t u x v hsome hxml hsame
    obtain ⟨row, hfound⟩ := Option.isSome_iff_exists.mp hsome
    obtain ⟨hrow, rfl, rfl, -⟩ := findLedger_spec hfound
    obtain ⟨evidence, hmem, htenant, rfl⟩ := hxml
    exact h row hrow evidence hmem htenant hsame
  · intro h row hrow evidence hmem htenant hsame
    exact h _ _ row.direction evidence.uuid (findLedger_isSome.mpr ⟨row, hrow, rfl, rfl, rfl⟩)
      ⟨evidence, hmem, htenant, rfl⟩ hsame

/-- A turn keeps the spellings exactly if it spells its UUID as what is stored. -/
theorem spelling_step_iff {action : Action} {writes : List Write} (hwrites : action.Writes rt d writes)
    (hd : SpellingsAgree rt d) : SpellingsAgree rt (applyAll writes d) ↔ KeepsSpelling rt action d := by
  rw [spellingsAgree_iff] at hd ⊢
  cases action with
  | ingest q entry metadataSha256 =>
      have heffect := EntryWrites.effect hwrites
      generalize applyAll writes d = e at heffect ⊢
      obtain ⟨row, -, -, hat⟩ := heffect.ledger
      have hxml : ∀ t u, HasXml t u e ↔ HasXml t u d := by
        intro t u
        rw [HasXml, heffect.evidence, HasXml]
      simp only [hxml]
      constructor
      · intro h uuid hhas hsame
        refine h _ _ q.direction.value uuid ?_ hhas hsame
        rw [hat, if_pos ⟨rfl, rfl, rfl⟩]
        rfl
      · intro h t u x v hsome hhas hsame
        rw [hat] at hsome
        split_ifs at hsome with hkey
        · obtain ⟨rfl, rfl, -⟩ := hkey
          exact h v hhas hsame
        · exact hd t u x v hsome hhas hsame
  | load q uuid xmlSha256 =>
      have heffect := LoadWrites.effect hwrites
      generalize applyAll writes d = e at heffect ⊢
      have hxml : ∀ t u, HasXml t u e ↔ HasXml t u d ∨ (t = q.tenantId ∧ u = uuid) := by
        intro t u
        rw [← hasXml_eq_true, heffect.hasXml_iff, hasXml_eq_true]
      have hsome : ∀ t u x, (findLedger t u x e).isSome ↔ (findLedger t u x d).isSome := by
        intro t u x
        rw [heffect.ledger]
        split_ifs with hkey
        · obtain ⟨rfl, rfl, rfl⟩ := hkey
          rw [Option.isSome_map]
        · rfl
      simp only [hxml, hsome]
      constructor
      · intro h row hrow htenant hsame
        have hfound := findLedger_isSome.mpr ⟨row, hrow, htenant, rfl, rfl⟩
        exact (h _ _ row.direction uuid hfound (.inr ⟨rfl, rfl⟩) hsame).imp_right And.right
      · rintro h t u x v hfound (hhas | ⟨rfl, rfl⟩) hsame
        · exact .inl (hd t u x v hfound hhas hsame)
        · obtain ⟨row, hrow⟩ := Option.isSome_iff_exists.mp hfound
          obtain ⟨hmem, htenant, rfl, -⟩ := findLedger_spec hrow
          exact (h row hmem htenant hsame).imp_right fun heq => ⟨rfl, heq⟩
  | reconcile t u x =>
      refine iff_of_true ?_ trivial
      obtain ⟨row, hfound, hrow⟩ := hwrites
      obtain ⟨-, rfl, rfl, rfl⟩ := findLedger_spec hfound
      have heffect := hrow.effect hfound
      generalize applyAll writes d = e at heffect ⊢
      intro t u x v hsome hhas hsame
      rw [HasXml, heffect.evidence] at hhas ⊢
      rw [heffect.ledger] at hsome
      split_ifs at hsome with hkey
      · obtain ⟨rfl, rfl, rfl⟩ := hkey
        exact hd _ _ _ v (Option.isSome_of_mem hfound) hhas hsame
      · exact hd t u x v hsome hhas hsame

theorem SpellingsAgree.congr (hsame : SameBooks d e) (h : SpellingsAgree rt d) : SpellingsAgree rt e := by
  intro row hrow evidence hmem
  rw [hsame.ledger] at hrow
  rw [hsame.evidence] at hmem
  rw [HasXml, hsame.evidence]
  exact h row hrow evidence hmem

end Reconciliation

/-- Evidence, documents and ledger never part wherever calls lead; a reconciliation of the
whole ledger brings it up to date exactly where the spellings agree; and they agree after
every run whose turns spell their UUIDs as what is stored. -/
theorem xml_recorded (rt : Runtime) :
    (∀ d, Reachable rt d → XmlConsistent d) ∧
    (∀ env w count after, env.rt = rt → Reachable rt w.db →
      (reconcile env none).exec w = (.ok count, after) →
      (Reconciled rt after.db ↔ SpellingsAgree rt w.db)) ∧
    ∀ actions d, Run rt (fun _ _ => True) (KeepsSpelling rt) actions d → SpellingsAgree rt d := by
  refine ⟨fun d h => (Reachable.xmlBooks h).consistent h.unique, ?_, ?_⟩
  · rintro env w count after rfl hreachable hx
    have hspec := @reconcile_turns env _ none hreachable.unique w rfl
    rw [hx] at hspec
    exact reconciled_iff hreachable.unique (Reachable.xmlBooks hreachable) hspec
  · intro actions d h
    exact h.holds (fun row hrow => absurd hrow List.not_mem_nil) (fun _ _ => SpellingsAgree.congr)
      fun action d writes hallowed hwrites hd => (spelling_step_iff hwrites hd).mpr hallowed

/-! ## A UUID in lower case -/

section Sample

/-- The sample host, with the upper case of ASCII letters. -/
def upperHost : Runtime :=
  { sampleHost with upper := fun text => String.ofList (text.toList.map Char.toUpper) }

/-- SAT answers with the metadata of one invoice, its UUID in lower case, and with the package
of its XML. -/
def lowerCaseEnv : Env :=
  { sampleEnv [("state", .str "finished"), ("packages", .arr [.str "PKG-1"]), ("metadata", .arr [.obj [
      ("uuid", .str "uuid-1"), ("issuer_rfc", .str "BBB020202BBB"), ("issuer_name", .str "Emisor"),
      ("receiver_rfc", .str "AAA010101AAA"), ("receiver_name", .str "Receptor"),
      ("issue_date", .str "2024-01-15T10:30:00"), ("total", .str "100.00"), ("status", .str "vigente"),
      ("effect", .str "I"), ("source_package_id", .str "PKG-1")]])] with
    rt := upperHost
    openZip := fun _ => .ok ⟨["a.xml"], fun _ => .ok [1]⟩
    readCfdi := fun _ => .ok (sampleReading "uuid-1") }

/-- The service after the answer is recorded. -/
def lowerCaseWorld : World :=
  (Call.sync januaryInvoices false false).world lowerCaseEnv (sampleWorld {})

theorem lowerCase_reachable : Reachable upperHost lowerCaseWorld.db :=
  @ReachableBy.call _ _ lowerCaseEnv (sampleWorld {}) .start rfl (.sync januaryInvoices false false)
    trivial

theorem xml_recorded_sample :
    XmlConsistent lowerCaseWorld.db ∧
      (∀ count after, (reconcile lowerCaseEnv none).exec lowerCaseWorld = (.ok count, after) →
        (Reconciled upperHost after.db ↔ SpellingsAgree upperHost lowerCaseWorld.db)) ∧
      SpellingsAgree upperHost {} := by
  obtain ⟨hconsistent, hreconciled, hruns⟩ := xml_recorded upperHost
  exact ⟨hconsistent _ lowerCase_reachable,
    fun count after => hreconciled lowerCaseEnv lowerCaseWorld count after rfl lowerCase_reachable,
    hruns [] {} .start⟩

/-- An invoice whose metadata SAT spells in lower case is not brought up to date by a
reconciliation, though its XML is stored. -/
theorem lower_case_not_reconciled :
    ¬ ∀ env w count after, Reachable env.rt w.db → (reconcile env none).exec w = (.ok count, after) →
      Reconciled env.rt after.db := by
  intro h
  have hok : ((reconcile lowerCaseEnv none).exec lowerCaseWorld).1.toOption.isSome = true ∧
      (((reconcile lowerCaseEnv none).exec lowerCaseWorld).2.db.ledger.any fun row =>
        ((reconcile lowerCaseEnv none).exec lowerCaseWorld).2.db.evidence.any fun evidence =>
          evidence.tenantId = row.tenantId ∧ upperHost.upper evidence.uuid = upperHost.upper row.uuid ∧
          row.reconciliationState ≠ ReconciliationState.xmlDownloaded.value) = true := by
    decide +kernel
  rcases hx : (reconcile lowerCaseEnv none).exec lowerCaseWorld with ⟨e | count, after⟩
  · rw [hx] at hok
    cases hok.1
  · rw [hx] at hok
    have hreconciled := h lowerCaseEnv lowerCaseWorld count after lowerCase_reachable hx
    obtain ⟨row, hrow, hevidence⟩ := List.any_eq_true.mp hok.2
    obtain ⟨evidence, hmem, hkey⟩ := List.any_eq_true.mp hevidence
    obtain ⟨htenant, huuid, hstate⟩ := of_decide_eq_true hkey
    exact hstate (hreconciled row hrow evidence hmem htenant huuid)

end Sample

end Recovery

end CfdiVault
