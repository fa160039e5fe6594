import CfdiVault.RecoveryUpsert

/-!
# Loading XML packages

`_store_xml_package` looks up document and evidence of each XML in a session that does not
see its own new rows, over all members of all packages of a job.  Two members of one UUID
both add the document if it was not there, and two of the same bytes both add the
evidence; the commit then fails on their keys.

The shape is that of a batch of metadata: `LoadsFrom` is a list of loads in a session, its
flush succeeds exactly if repeated keys were recorded before (`LoadsFrom.fits_iff`), and
then it is a run of `Action.load` on the database (`LoadsFrom.steps`).
-/

namespace CfdiVault

namespace Recovery

/-! ## The loads of a package -/

/-- The members of an archive that are loaded, in their order. -/
def xmlMembers (archive : ZipArchive) : List String :=
  (archive.names.insertionSort fun a b => a ≤ b).filter isXmlMember

/-- The UUID and the digest under which a member is loaded. -/
def memberLoad (env : Env) (archive : ZipArchive) (member : String) : Except String (String × String) := do
  let bytes ← archive.read member
  let reading ← env.readCfdi bytes
  pure (env.rt.upper reading.parsed.uuid, sha256Bytes env bytes)

/-- The loads of a package. -/
def packageLoads (env : Env) (content : Bytes) : Except String (List (String × String)) := do
  let archive ← env.openZip content
  (xmlMembers archive).mapM (memberLoad env archive)

/-- The loads of a list of packages. -/
def packagesLoads (env : Env) (packages : List (String × Bytes)) :
    Except String (List (String × String)) := do
  let loads ← packages.mapM fun package => packageLoads env package.2
  pure loads.flatten

/-- Loads in a session, one after the other. -/
inductive LoadsFrom (q : DownloadQuery) :
    Session Db Row → List (String × String) → Session Db Row → Prop
  | nil (s : Session Db Row) : LoadsFrom q s [] s
  | cons {s t : Session Db Row} {load : String × String} {rest : List (String × String)}
      {writes : List Write} (hwrites : LoadWrites q load.1 load.2 s.working writes)
      (hrest : LoadsFrom q (writeAll writes s) rest t) : LoadsFrom q s (load :: rest) t

theorem LoadsFrom.append {q : DownloadQuery} {s t u : Session Db Row}
    {first second : List (String × String)} (h : LoadsFrom q s first t) (h' : LoadsFrom q t second u) :
    LoadsFrom q s (first ++ second) u := by
  induction h with
  | nil => exact h'
  | cons hwrites _ ih => exact .cons hwrites (ih h')

section Programs

variable {env : Env} {q : DownloadQuery} {s : Session Db Row}

/-- Loading a member, with what follows the storage of its file named. -/
theorem storeXmlMember_eq (packageId : String) (archive : ZipArchive) (member : String) :
    storeXmlMember env q packageId archive member = (do
      let xmlBytes ← extract (archive.read member)
      let reading ← extract (env.readCfdi xmlBytes)
      let storageKey ← xmlKey env q.requesterRfc reading.parsed.issueDate
        (env.rt.upper reading.parsed.uuid) (sha256Bytes env xmlBytes)
      let stored ← writeBytesIdempotent env storageKey xmlBytes
      bookXml env q reading packageId (env.rt.upper reading.parsed.uuid) (sha256Bytes env xmlBytes)
        stored) := rfl

theorem extract_then {α β : Type} {r : Except String α} {f : α → Recovery β} {P : World → Prop}
    {Q : β → World → Prop} (h : ∀ a, r = .ok a → Ensures P (f a) Q) :
    Ensures P (extract r >>= f) Q := by
  intro w hw
  unfold extract
  rw [Prog.exec_bind, Prog.exec_ofExcept]
  cases r with
  | error e => trivial
  | ok a => exact h a rfl w hw

/-- A member that is stored makes the writes of its load. -/
theorem storeXmlMember_load {packageId member : String} {archive : ZipArchive} :
    Ensures (OnSession fun t => t = s) (storeXmlMember env q packageId archive member)
      fun _ => OnSession fun t => ∃ load, memberLoad env archive member = .ok load ∧
        ∃ writes, LoadWrites q load.1 load.2 s.working writes ∧ t = writeAll writes s := by
  rw [storeXmlMember_eq]
  refine extract_then fun bytes hbytes => extract_then fun reading hreading => ?_
  refine Spec.bind (Ensures.ofKeeps xmlKey_keeps) fun _ => ?_
  refine Spec.bind (Ensures.ofKeeps writeBytesIdempotent_keeps) fun stored => ?_
  refine Spec.weaken (bookXml_writes fun _ _ => trivial) (fun _ h => h) ?_ fun _ _ h => h
  rintro _ w ⟨writes, hwrites, hw⟩
  refine ⟨(env.rt.upper reading.parsed.uuid, sha256Bytes env bytes), ?_, writes, hwrites, hw⟩
  unfold memberLoad
  rw [hbytes, Checked.ok_bind, hreading]
  rfl

theorem storeXmlMembers_loads {packageId : String} {archive : ZipArchive} {members : List String} :
    Ensures (OnSession fun t => t = s)
      (Prog.each members (storeXmlMember env q packageId archive))
      fun _ => OnSession fun t => ∃ loads, members.mapM (memberLoad env archive) = .ok loads ∧
        LoadsFrom q s loads t := by
  induction members generalizing s with
  | nil =>
      rintro w rfl
      exact ⟨[], rfl, .nil _⟩
  | cons member rest ih =>
      refine Spec.bind storeXmlMember_load fun _ => ?_
      rintro w ⟨load, hload, writes, hwrites, hw⟩
      refine Spec.weaken ih (fun _ h => h) ?_ (fun _ _ h => h) w hw
      rintro _ v ⟨loads, hloads, hfrom⟩
      refine ⟨load :: loads, ?_, .cons hwrites hfrom⟩
      rw [List.mapM_cons, hload, Checked.ok_bind, hloads]
      rfl

/-- `_store_xml_package` makes the loads of the package. -/
theorem storeXmlPackage_loads {packageId : String} {content : Bytes} :
    Ensures (OnSession fun t => t = s) (storeXmlPackage env q packageId content)
      fun _ => OnSession fun t => ∃ loads, packageLoads env content = .ok loads ∧
        LoadsFrom q s loads t := by
  unfold storeXmlPackage
  refine extract_then fun archive harchive => Spec.bind storeXmlMembers_loads fun _ => ?_
  refine Spec.pure _ fun w hw => ?_
  obtain ⟨loads, hloads, hfrom⟩ := hw
  refine ⟨loads, ?_, hfrom⟩
  unfold packageLoads
  rw [harchive]
  exact hloads

theorem storePackages_loads {packages : List (String × Bytes)} :
    Ensures (OnSession fun t => t = s)
      (Prog.collect packages fun package => storeXmlPackage env q package.1 package.2)
      fun _ => OnSession fun t => ∃ loads, packagesLoads env packages = .ok loads ∧
        LoadsFrom q s loads t := by
  induction packages generalizing s with
  | nil =>
      rintro w rfl
      exact ⟨[], rfl, .nil _⟩
  | cons package rest ih =>
      refine Spec.bind storeXmlPackage_loads fun _ => ?_
      rintro w ⟨first, hfirst, hfrom⟩
      refine Spec.bind ih (fun _ => Spec.pure _ ?_) w rfl
      rintro v ⟨second, hsecond, hfrom'⟩
      refine ⟨first ++ second, ?_, hfrom.append hfrom'⟩
      unfold packagesLoads at hsecond ⊢
      obtain ⟨loads, hloads, hflatten⟩ := Checked.bind_eq_ok.mp hsecond
      rw [List.mapM_cons, hfirst, Checked.ok_bind, hloads, ← Checked.pure_eq_ok.mp hflatten]
      rfl

end Programs

/-! ## When the commit of loads succeeds -/

section Keys

variable {q : DownloadQuery} {s : Session Db Row} {writes : List Write}
variable {tenantId uuid xmlSha256 : String}

theorem clashes_evidence {row : XmlEvidence} {d : Db} (hkey : IsEvidence tenantId uuid xmlSha256 row) :
    Clashes d (.evidence row) ↔ HasEvidence tenantId uuid xmlSha256 d := by
  obtain ⟨rfl, rfl, rfl⟩ := hkey
  rfl

theorem XmlDocumentWrites.fits_iff
    (h : XmlDocumentWrites tenantId uuid xmlSha256 (findDocument tenantId uuid s.working) writes) :
    Fits (writeAll writes s) ↔ Fits s ∧
      (HasDocument tenantId uuid (merged s) → HasDocument tenantId uuid s.working) := by
  generalize hfound : findDocument tenantId uuid s.working = existing at h
  cases h with
  | discovered hkey =>
      have hnone := findDocument_eq_none.mp hfound
      rw [writeAll_cons, fits_add_parties]
      exact fits_add.trans (and_congr_right fun _ => by
        rw [clashes_document hkey]
        exact ⟨fun h h' => absurd h' h, fun h h' => hnone (h h')⟩)
  | updated hkey =>
      have hsome := findDocument_isSome.mp (Option.isSome_of_mem hfound)
      exact (fits_changeDocument hkey).trans (iff_self_and.mpr fun _ _ => hsome)

theorem EvidenceWrites.fits_iff
    (h : EvidenceWrites tenantId uuid xmlSha256 (hasEvidence tenantId uuid xmlSha256 s.working) writes) :
    Fits (writeAll writes s) ↔ Fits s ∧ (HasEvidence tenantId uuid xmlSha256 (merged s) →
      HasEvidence tenantId uuid xmlSha256 s.working) := by
  generalize hfound : hasEvidence tenantId uuid xmlSha256 s.working = recorded at h
  cases h with
  | recorded => exact iff_self_and.mpr fun _ _ => hasEvidence_iff.mp hfound
  | added hkey =>
      have hnone : ¬ HasEvidence tenantId uuid xmlSha256 s.working := by
        rw [← hasEvidence_iff, hfound]
        exact Bool.false_ne_true
      exact fits_add.trans (and_congr_right fun _ => by
        rw [clashes_evidence hkey]
        exact ⟨fun h h' => absurd h' h, fun h h' => hnone (h h')⟩)

theorem StoredWrites.fits_iff {direction : String} {existing : Option CfdiMetadataLedger}
    (h : StoredWrites tenantId uuid direction existing writes) : Fits (writeAll writes s) ↔ Fits s := by
  cases h with
  | missing => rfl
  | marked haudits =>
      rw [writeAll_cons, haudits.fits_iff]
      exact fits_changeLedger (withState_key _)

theorem XmlDocumentWrites.adds {existing : Option CfdiDocument}
    (h : XmlDocumentWrites tenantId uuid xmlSha256 existing writes) :
    (∀ t u, (∃ row, .add (.document row) ∈ writes ∧ IsDocument t u row) ↔
      existing = none ∧ t = tenantId ∧ u = uuid) ∧
    ∀ row, .add (.evidence row) ∉ writes := by
  cases h with
  | discovered hkey =>
      obtain ⟨htenant, huuid⟩ := hkey
      simp [IsDocument, htenant, huuid, parties, eq_comm]
  | updated => simp

theorem EvidenceWrites.adds {recorded : Bool}
    (h : EvidenceWrites tenantId uuid xmlSha256 recorded writes) :
    (∀ t u x, (∃ row, .add (.evidence row) ∈ writes ∧ IsEvidence t u x row) ↔
      recorded = false ∧ t = tenantId ∧ u = uuid ∧ x = xmlSha256) ∧
    ∀ row, .add (.document row) ∉ writes := by
  cases h with
  | recorded => simp
  | added hkey =>
      obtain ⟨htenant, huuid, hsha⟩ := hkey
      simp [IsEvidence, htenant, huuid, hsha, eq_comm]

theorem StoredWrites.adds {direction : String} {existing : Option CfdiMetadataLedger}
    (h : StoredWrites tenantId uuid direction existing writes) :
    (∀ row, .add (.document row) ∉ writes) ∧ ∀ row, .add (.evidence row) ∉ writes := by
  cases h with
  | missing => simp
  | marked haudits => cases haudits <;> simp

/-- A load adds its own keys and no others. -/
theorem LoadWrites.keys (h : LoadWrites q uuid xmlSha256 s.working writes) :
    (∀ t u, HasDocument t u (merged (writeAll writes s)) ↔
      HasDocument t u (merged s) ∨ (t = q.tenantId ∧ u = uuid)) ∧
    ∀ t u x, HasEvidence t u x (merged (writeAll writes s)) ↔
      HasEvidence t u x (merged s) ∨ (t = q.tenantId ∧ u = uuid ∧ x = xmlSha256) := by
  obtain ⟨documentWrites, evidenceWrites, ledgerWrites, rfl, hdocument, hevidence, hledger⟩ := h
  have hdoc : findDocument q.tenantId uuid s.working ≠ none → HasDocument q.tenantId uuid (merged s) := by
    intro h
    obtain ⟨row, hfound⟩ := Option.ne_none_iff_exists'.mp h
    exact findDocument_isSome.mp (Option.isSome_of_mem (findDocument_merged hfound))
  have hsha : hasEvidence q.tenantId uuid xmlSha256 s.working ≠ false →
      HasEvidence q.tenantId uuid xmlSha256 (merged s) := by
    intro h
    obtain ⟨row, hrow, hkey⟩ := hasEvidence_iff.mp ((Bool.not_eq_false _).mp h)
    refine ⟨row, ?_, hkey⟩
    rw [merged_evidence]
    exact List.mem_append_left _ hrow
  constructor
  · intro t u
    rw [hasDocument_writeAll]
    simp only [List.mem_append, hevidence.adds.2, hledger.adds.1, or_false, hdocument.adds.1]
    constructor
    · exact Or.imp_right fun h => h.2
    · rintro (h | ⟨rfl, rfl⟩)
      · exact .inl h
      · exact (em _).symm.imp hdoc fun h => ⟨h, rfl, rfl⟩
  · intro t u x
    rw [hasEvidence_writeAll]
    simp only [List.mem_append, hdocument.adds.2, hledger.adds.2, or_false, false_or,
      hevidence.adds.1]
    constructor
    · exact Or.imp_right fun h => h.2
    · rintro (h | ⟨rfl, rfl, rfl⟩)
      · exact .inl h
      · exact (em _).symm.imp hsha fun h => ⟨h, rfl, rfl, rfl⟩

/-- No row that waits hides from the lookups of the load. -/
def LoadUnhidden (q : DownloadQuery) (load : String × String) (s : Session Db Row) : Prop :=
  (HasDocument q.tenantId load.1 (merged s) → HasDocument q.tenantId load.1 s.working) ∧
  (HasEvidence q.tenantId load.1 load.2 (merged s) → HasEvidence q.tenantId load.1 load.2 s.working)

theorem evidence_writeAll : (writeAll writes s).working.evidence = s.working.evidence := by
  induction writes generalizing s with
  | nil => rfl
  | cons write rest ih =>
      rw [writeAll_cons, ih]
      cases write <;> rfl

theorem hasEvidence_working {t u x : String} :
    HasEvidence t u x (writeAll writes s).working ↔ HasEvidence t u x s.working := by
  rw [HasEvidence, evidence_writeAll]
  rfl

theorem LoadWrites.fits_iff (h : LoadWrites q uuid xmlSha256 s.working writes) :
    Fits (writeAll writes s) ↔ Fits s ∧ LoadUnhidden q (uuid, xmlSha256) s := by
  obtain ⟨documentWrites, evidenceWrites, ledgerWrites, rfl, hdocument, hevidence, hledger⟩ := h
  have hsame : hasEvidence q.tenantId uuid xmlSha256 (writeAll documentWrites s).working =
      hasEvidence q.tenantId uuid xmlSha256 s.working := by
    rw [hasEvidence, evidence_writeAll]
    rfl
  have hmerged : HasEvidence q.tenantId uuid xmlSha256 (merged (writeAll documentWrites s)) ↔
      HasEvidence q.tenantId uuid xmlSha256 (merged s) := by
    rw [hasEvidence_writeAll]
    simp only [hdocument.adds.2, false_and, exists_false, or_false]
  rw [← hsame] at hevidence
  rw [writeAll_append, writeAll_append, hledger.fits_iff, hevidence.fits_iff, hdocument.fits_iff,
    hasEvidence_working, hmerged, LoadUnhidden, and_assoc]

/-- A key that occurs twice among the loads was recorded before: a UUID as document, a
UUID with a digest as evidence. -/
def RepeatsRecorded (q : DownloadQuery) (loads : List (String × String)) (d : Db) : Prop :=
  loads.Pairwise fun a b => (a.1 = b.1 → HasDocument q.tenantId b.1 d) ∧
    (a = b → HasEvidence q.tenantId b.1 b.2 d)

theorem hasDocument_working {t u : String} :
    HasDocument t u (writeAll writes s).working ↔ HasDocument t u s.working :=
  Write.addressed_writeAll (.document t u id fun _ => ⟨rfl, rfl⟩)

theorem LoadWrites.unhidden (h : LoadWrites q uuid xmlSha256 s.working writes)
    (later : String × String) :
    LoadUnhidden q later (writeAll writes s) ↔
      ((uuid = later.1 → HasDocument q.tenantId later.1 s.working) ∧
        ((uuid, xmlSha256) = later → HasEvidence q.tenantId later.1 later.2 s.working)) ∧
      LoadUnhidden q later s := by
  obtain ⟨laterUuid, laterSha⟩ := later
  rw [LoadUnhidden, LoadUnhidden, hasDocument_working, hasEvidence_working, h.keys.1, h.keys.2]
  simp only [true_and, Prod.mk.injEq, eq_comm (a := uuid), eq_comm (a := xmlSha256)]
  tauto

/-- Loads can be flushed exactly if every key that they repeat was recorded. -/
theorem LoadsFrom.fits_iff {loads : List (String × String)} {t : Session Db Row}
    (h : LoadsFrom q s loads t) :
    Fits t ↔ Fits s ∧ RepeatsRecorded q loads s.working ∧ ∀ load ∈ loads, LoadUnhidden q load s := by
  induction h with
  | nil s => simp [RepeatsRecorded]
  | cons hwrites hrest ih =>
      rw [ih, hwrites.fits_iff, RepeatsRecorded, RepeatsRecorded, List.pairwise_cons, List.forall_mem_cons]
      simp only [hasDocument_working, hasEvidence_working, hwrites.unhidden, Prod.eta]
      simp only [forall_and]
      tauto

end Keys

/-! ## Loads on the database -/

section Steps

variable {rt : Runtime} {q : DownloadQuery} {s t : Session Db Row} {loads : List (String × String)}

/-- The actions of a list of loads. -/
def loading (q : DownloadQuery) (loads : List (String × String)) : List Action :=
  loads.map fun load => .load q load.1 load.2

/-- Loads that can be flushed are a run on the database. -/
theorem LoadsFrom.steps (h : LoadsFrom q s loads t) (hfits : Fits t)
    (hledger : NonePending ledgerRows s) :
    Fits s ∧ NonePending ledgerRows t ∧ FreeSteps rt (loading q loads) (merged s) (merged t) := by
  induction h with
  | nil s => exact ⟨hfits, hledger, .nil (.refl _)⟩
  | cons hwrites hrest ih =>
      have hledger' := hwrites.noLedger.writeAll hledger
      obtain ⟨hfits', hnone, hsteps⟩ := ih hfits hledger'
      obtain ⟨hmerged, hsettled⟩ := hwrites.settled hfits' hledger
      refine ⟨hfits'.before, hnone, .cons trivial hmerged ?_⟩
      rwa [← hsettled]

/-- The keys of the loads are recorded. -/
def AllRecorded (q : DownloadQuery) (loads : List (String × String)) (d : Db) : Prop :=
  ∀ load ∈ loads, HasDocument q.tenantId load.1 d ∧ HasEvidence q.tenantId load.1 load.2 d

section Effect

variable {d e : Db} {uuid xmlSha256 : String}

theorem LoadEffect.hasDocument (h : LoadEffect q uuid xmlSha256 d e) {t u : String} :
    HasDocument t u e ↔ HasDocument t u d ∨ (t = q.tenantId ∧ u = uuid) := by
  obtain ⟨row, -, -, -, hat⟩ := h.document
  rw [← findDocument_isSome, ← findDocument_isSome, hat t u]
  split_ifs with hkey
  · simp [hkey]
  · simp [hkey]

theorem LoadEffect.hasEvidence (h : LoadEffect q uuid xmlSha256 d e) {t u x : String} :
    HasEvidence t u x e ↔ HasEvidence t u x d ∨ (t = q.tenantId ∧ u = uuid ∧ x = xmlSha256) := by
  rcases h.evidence with ⟨hhas, hsame⟩ | ⟨-, row, ⟨htenant, huuid, hsha⟩, hgrown⟩
  · rw [HasEvidence, hsame, ← HasEvidence]
    refine ⟨.inl, Or.rec id ?_⟩
    rintro ⟨rfl, rfl, rfl⟩
    exact hhas
  · rw [HasEvidence, hgrown, HasEvidence]
    simp only [List.mem_append, List.mem_singleton, or_and_right, exists_or, exists_eq_left, IsEvidence,
      htenant, huuid, hsha]
    exact or_congr_right (and_congr eq_comm (and_congr eq_comm eq_comm))

/-- Loads record their keys. -/
theorem loading_records (h : FreeSteps rt (loading q loads) d e) :
    AllRecorded q loads e ∧ (∀ t u, HasDocument t u d → HasDocument t u e) ∧
      ∀ t u x, HasEvidence t u x d → HasEvidence t u x e := by
  induction loads generalizing d with
  | nil =>
      cases h with
      | nil hsame =>
          refine ⟨by simp [AllRecorded], fun t u h => ?_, fun t u x h => ?_⟩
          · rwa [HasDocument, hsame.documents]
          · rwa [HasEvidence, hsame.evidence]
  | cons load rest ih =>
      cases h with
      | cons _ hwrites hrest =>
          have heffect := LoadWrites.effect hwrites
          obtain ⟨hrecorded, hdocuments, hevidence⟩ := ih hrest
          refine ⟨List.forall_mem_cons.mpr ⟨⟨?_, ?_⟩, hrecorded⟩, fun t u h => ?_, fun t u x h => ?_⟩
          · exact hdocuments _ _ (heffect.hasDocument.mpr (.inr ⟨rfl, rfl⟩))
          · exact hevidence _ _ _ (heffect.hasEvidence.mpr (.inr ⟨rfl, rfl, rfl⟩))
          · exact hdocuments t u (heffect.hasDocument.mpr (.inl h))
          · exact hevidence t u x (heffect.hasEvidence.mpr (.inl h))

/-- Loads whose keys are recorded add no row of documents, evidence or parties. -/
theorem loading_again (h : FreeSteps rt (loading q loads) d e) (hrecorded : AllRecorded q loads d) :
    e.documents.length = d.documents.length ∧ e.evidence = d.evidence ∧ e.parties = d.parties := by
  induction loads generalizing d with
  | nil =>
      cases h with
      | nil hsame => exact ⟨by rw [hsame.documents], hsame.evidence, hsame.parties⟩
  | cons load rest ih =>
      cases h with
      | cons _ hwrites hrest =>
          have heffect := LoadWrites.effect hwrites
          obtain ⟨⟨hdocument, hevidence⟩, hlater⟩ := List.forall_mem_cons.mp hrecorded
          obtain ⟨hlength, hparties⟩ := heffect.known (findDocument_isSome.mpr hdocument)
          have hsame := heffect.evidence.resolve_right fun hgrown => hgrown.1 hevidence
          obtain ⟨hlength', hsame', hparties'⟩ := ih hrest fun other hother =>
            ⟨heffect.hasDocument.mpr (.inl (hlater other hother).1),
              heffect.hasEvidence.mpr (.inl (hlater other hother).2)⟩
          exact ⟨hlength'.trans hlength, hsame'.trans hsame.2, hparties'.trans hparties⟩

end Effect

end Steps

/-! ## Storage of the members -/

/-- An XML that a member of one of the packages holds. -/
def Member (env : Env) (packages : List (String × Bytes)) (bytes : Bytes) (reading : CfdiReading) : Prop :=
  ∃ package ∈ packages, ∃ archive, env.openZip package.2 = .ok archive ∧
    ∃ member ∈ xmlMembers archive, archive.read member = .ok bytes ∧ env.readCfdi bytes = .ok reading

/-- Where the file of an XML is stored. -/
def xmlPath (env : Env) (q : DownloadQuery) (bytes : Bytes) (reading : CfdiReading) :
    Except String String := do
  let filename ← fileName (env.rt.upper (env.rt.upper reading.parsed.uuid)) (sha256Bytes env bytes) "xml"
  let safe ← safeRfc env.rt q.requesterRfc
  let moment := yearMonth reading.parsed.issueDate
  env.storage.pathForKey (String.intercalate "/" [safe, "xml", moment.1, moment.2, filename])

/-- Every member has a path below the storage root, and a file at the path of a member,
there already or of another member, has the digest of the member. -/
structure Storable (env : Env) (q : DownloadQuery) (packages : List (String × Bytes)) (w : World) :
    Prop where
  path : ∀ bytes reading, Member env packages bytes reading → ∃ path, xmlPath env q bytes reading = .ok path
  apart : ∀ bytes reading bytes' reading' path, Member env packages bytes reading →
    Member env packages bytes' reading' → xmlPath env q bytes reading = .ok path →
    xmlPath env q bytes' reading' = .ok path → sha256Bytes env bytes' = sha256Bytes env bytes
  free : ∀ bytes reading path stored, Member env packages bytes reading →
    xmlPath env q bytes reading = .ok path → w.file? path = some stored →
    sha256Bytes env stored = sha256Bytes env bytes

section Storage

variable {env : Env} {q : DownloadQuery} {packages : List (String × Bytes)}

theorem storable_outside : Outside (Storable env q packages) :=
  fun _ _ _ _ h => ⟨h.path, h.apart, h.free⟩

/-- The file of a member is stored, and the others can still be. -/
theorem storeXml_total (hdisk : ∀ n, env.diskFails n = none) {bytes : Bytes} {reading : CfdiReading}
    (hmember : Member env packages bytes reading) :
    Total (Storable env q packages) (do
      let storageKey ← xmlKey env q.requesterRfc reading.parsed.issueDate
        (env.rt.upper reading.parsed.uuid) (sha256Bytes env bytes)
      writeBytesIdempotent env storageKey bytes) := by
  intro w hw
  obtain ⟨path, hpath⟩ := hw.path bytes reading hmember
  obtain ⟨filename, hfilename, hrest⟩ := Checked.bind_eq_ok.mp hpath
  obtain ⟨safe, hsafe, hkey⟩ := Checked.bind_eq_ok.mp hrest
  have hname : (xmlKey env q.requesterRfc reading.parsed.issueDate (env.rt.upper reading.parsed.uuid)
      (sha256Bytes env bytes)).exec w = (.ok (String.intercalate "/" [safe, "xml",
        (yearMonth reading.parsed.issueDate).1, (yearMonth reading.parsed.issueDate).2, filename]),
        { w with diskOps := w.diskOps + 1 }) := by
    unfold xmlKey periodKey storageStep disk
    rw [hfilename, hsafe, Prog.exec_bind, Prog.exec_ofExcept]
    change Prog.exec (Prog.ofExcept (.ok safe) >>= _) w = _
    rw [Prog.exec_bind, Prog.exec_ofExcept, Prog.follow_ok, Prog.exec_bind, Prog.exec_act, hdisk]
    rfl
  rw [Prog.exec_bind_ok hname]
  unfold writeBytesIdempotent storageStep disk
  rw [hkey, Prog.exec_bind, Prog.exec_ofExcept]
  change Holds _ _ (Prog.exec (_ >>= _) _)
  rw [Prog.exec_bind, Prog.exec_act, hdisk]
  dsimp only
  rw [Prog.follow_ok]
  have hread : World.file? { w with diskOps := w.diskOps + 1 } path = w.file? path := rfl
  rw [hread]
  cases hfile : w.file? path with
  | some stored =>
      have hsame := hw.free bytes reading path stored hmember hpath hfile
      change Holds _ _ (Prog.exec (Prog.raiseIf (sha256Bytes env stored ≠ sha256Bytes env bytes) _ >>= _) _)
      rw [Prog.exec_bind, Prog.exec_raiseIf_neg (not_not.mpr hsame)]
      exact ⟨hw.path, hw.apart, hw.free⟩
  | none =>
      change Holds _ _ (Prog.exec (writeFile env path bytes >>= _) _)
      unfold writeFile
      rw [Prog.exec_bind, Prog.exec_act, hdisk]
      refine ⟨hw.path, hw.apart, fun other reading' path' stored hother hpath' hstored => ?_⟩
      rw [World.file?, List.lookup_cons] at hstored
      split at hstored
      case h_1 hsame =>
        -- the file just written
        cases hstored
        rw [beq_iff_eq] at hsame
        subst hsame
        exact hw.apart other reading' bytes reading path' hother hmember hpath' hpath
      case h_2 => exact hw.free other reading' path' stored hother hpath' hstored

section Outside

variable {K : World → Prop}

theorem parties_outside (hK : Outside K) {tenantId uuid issuerRfc issuerName receiverRfc receiverName : String} :
    Keeps K (Prog.each (parties tenantId uuid issuerRfc issuerName receiverRfc receiverName) add) :=
  Keeps.each fun _ _ => add_outside hK

theorem bookXml_outside (hK : Outside K) {reading : CfdiReading} {packageId uuid xmlSha256 : String}
    {stored : StoredFile} : Keeps K (bookXml env q reading packageId uuid xmlSha256 stored) := by
  refine Keeps.bind (select_outside hK) fun document => Keeps.bind ?_ fun _ => ?_
  · unfold saveXmlDocument
    cases document with
    | none =>
        exact Keeps.bind (now_outside hK) fun _ => Keeps.bind (now_outside hK) fun _ =>
          Keeps.bind (add_outside hK) fun _ => parties_outside hK
    | some row => exact Keeps.bind (now_outside hK) fun _ => update_outside hK
  refine Keeps.bind (select_outside hK) fun recorded => Keeps.bind ?_ fun _ => ?_
  · unfold saveEvidence
    split
    · exact Keeps.pure _
    · exact Keeps.bind (now_outside hK) fun _ => add_outside hK
  refine Keeps.bind (select_outside hK) fun ledger => ?_
  unfold markXmlStored
  cases ledger with
  | none => exact Keeps.pure _
  | some row =>
      refine Keeps.bind (update_outside hK) fun _ => ?_
      split
      · exact Keeps.bind (now_outside hK) fun _ => add_outside hK
      · exact Keeps.pure _

end Outside

theorem bookXml_total (hup : ∀ n, env.databaseFails n = false) {K : World → Prop} (hK : Outside K)
    {reading : CfdiReading} {packageId uuid xmlSha256 : String} {stored : StoredFile} :
    Total K (bookXml env q reading packageId uuid xmlSha256 stored) := by
  intro w hw
  have hkept := @bookXml_outside env q _ hK reading packageId uuid xmlSha256 stored w hw
  have hrun := @bookXml_writes _ q _ (fun _ _ => False)
    (fun ⟨n, hn⟩ _ => Bool.false_ne_true ((hup n).symm.trans hn)) reading packageId uuid xmlSha256 stored
    w rfl
  rcases hx : (bookXml env q reading packageId uuid xmlSha256 stored).exec w with ⟨e | a, t⟩
  · rw [hx] at hrun
    exact hrun
  · rw [hx] at hkept
    exact hkept

/-- Where database and disk work, a member of a package can be loaded, and so can the
others after it. -/
theorem storeXmlMember_total (hup : ∀ n, env.databaseFails n = false)
    (hdisk : ∀ n, env.diskFails n = none) {packageId member : String} {archive : ZipArchive}
    {bytes : Bytes} {reading : CfdiReading} (hread : archive.read member = .ok bytes)
    (hreading : env.readCfdi bytes = .ok reading) (hmember : Member env packages bytes reading) :
    Total (Storable env q packages) (storeXmlMember env q packageId archive member) := by
  rw [storeXmlMember_eq]
  refine Total.ofExcept_bind (b := bytes) (by rw [hread]; rfl) ?_
  refine Total.ofExcept_bind (b := reading) (by rw [hreading]; rfl) ?_
  rw [← bind_assoc]
  exact Total.bind (storeXml_total hdisk hmember) fun _ => bookXml_total hup storable_outside

theorem storeXmlPackages_total (hup : ∀ n, env.databaseFails n = false)
    (hdisk : ∀ n, env.diskFails n = none) {loads : List (String × String)}
    (hvalid : packagesLoads env packages = .ok loads) :
    Total (Storable env q packages)
      (Prog.collect packages fun package => storeXmlPackage env q package.1 package.2) := by
  obtain ⟨perPackage, hloads, -⟩ := Checked.bind_eq_ok.mp hvalid
  refine Total.collect fun package hpackage => ?_
  obtain ⟨packageLoads, hpackageLoads⟩ := Checked.mapM_defined hloads hpackage
  obtain ⟨archive, harchive, hmembers⟩ := Checked.bind_eq_ok.mp hpackageLoads
  refine Total.ofExcept_bind (b := archive) (by rw [harchive]; rfl) ?_
  refine Total.bind (Total.each fun member hmember => ?_) fun _ => Total.pure _
  obtain ⟨load, hload⟩ := Checked.mapM_defined hmembers hmember
  obtain ⟨bytes, hread, hrest⟩ := Checked.bind_eq_ok.mp hload
  obtain ⟨reading, hreading, -⟩ := Checked.bind_eq_ok.mp hrest
  exact storeXmlMember_total hup hdisk hread hreading
    ⟨package, hpackage, archive, harchive, member, hmember, hread, hreading⟩

/-- A file with its content. -/
def Holding (path : String) (stored : Bytes) (w : World) : Prop := w.file? path = some stored

/-- A property of the world that more files do not end. -/
def Lasting (K : World → Prop) : Prop :=
  ∀ w v, (∀ path stored, Holding path stored w → Holding path stored v) → K w → K v

theorem disk_files {α : Type} {step : World → α} {P : World → Prop} {Q : α → World → Prop}
    {E : Fault → World → Prop} (hok : ∀ w, P w → ∀ n, Q (step w) { w with diskOps := n })
    (herror : ∀ w, P w → ∀ n, E (.storage "disk") { w with diskOps := n }) :
    Spec P (disk env step) Q E := by
  intro w hw
  unfold disk
  rw [Prog.exec_act]
  cases env.diskFails w.diskOps with
  | some n => exact herror w hw _
  | none => exact hok w hw _

theorem disk_holding {path : String} {stored : Bytes} {α : Type} {step : World → α} :
    Keeps (Holding path stored) (disk env step) :=
  disk_files (fun _ h _ => h) fun _ h _ => h

theorem xmlKey_holding {path : String} {stored : Bytes} {rfc uuid sha256 : String} {issueDate : DateTime} :
    Keeps (Holding path stored) (xmlKey env rfc issueDate uuid sha256) :=
  Keeps.bind (Keeps.ofExcept _) fun _ => Keeps.bind (Keeps.ofExcept _) fun _ =>
    Keeps.bind disk_holding fun _ => Keeps.pure _

theorem writeFile_holding {path target : String} {stored content : Bytes} :
    Spec (fun w => Holding path stored w ∧ w.file? target = none) (writeFile env target content)
      (fun _ => Holding path stored) fun _ => Holding path stored := by
  rintro w ⟨hholding, hnone⟩
  have hne : path ≠ target := by
    rintro rfl
    cases hholding.symm.trans hnone
  have hlookup : ∀ bytes, List.lookup path ((target, bytes) :: w.files) = some stored := fun bytes => by
    rw [List.lookup_cons, beq_false_of_ne hne]
    exact hholding
  unfold writeFile
  rw [Prog.exec_act]
  cases env.diskFails w.diskOps with
  | some n => exact hlookup _
  | none => exact hlookup _

/-- A file is written only where there is none. -/
theorem writeBytesIdempotent_holding {path key : String} {stored content : Bytes} :
    Keeps (Holding path stored) (writeBytesIdempotent env key content) := by
  refine Keeps.bind (Keeps.ofExcept _) fun target => ?_
  refine Spec.bind (M := fun existing w => Holding path stored w ∧ w.file? target = existing)
    (disk_files (fun w h _ => ⟨h, rfl⟩) fun _ h _ => h) fun existing => ?_
  cases existing with
  | some bytes =>
      exact (Keeps.bind (Keeps.raiseIf _ _) fun _ => Keeps.pure _).weaken (fun _ h => h.1)
        (fun _ _ h => h) fun _ _ h => h
  | none => exact Spec.bind writeFile_holding fun _ => Keeps.pure _

/-- What was to be written is stored. -/
theorem writeBytesIdempotent_stores {key : String} {content : Bytes} :
    Ensures (fun _ => True) (writeBytesIdempotent env key content) fun _ w =>
      ∃ path stored, env.storage.pathForKey key = .ok path ∧ Holding path stored w ∧
        sha256Bytes env stored = sha256Bytes env content := by
  unfold writeBytesIdempotent storageStep
  intro w _
  rw [Prog.exec_bind, Prog.exec_ofExcept]
  cases hpath : env.storage.pathForKey key with
  | error e => trivial
  | ok path =>
    refine Spec.bind (P := fun _ => True) (M := fun existing w => w.file? path = existing)
      (disk_files (fun w _ _ => rfl) fun _ _ _ => trivial) (fun existing => ?_) w trivial
    cases existing with
    | some bytes =>
        intro v hv
        rw [Prog.exec_bind]
        by_cases h : sha256Bytes env bytes = sha256Bytes env content
        · rw [Prog.exec_raiseIf_neg (not_not.mpr h)]
          exact ⟨path, bytes, rfl, hv, h⟩
        · rw [Prog.exec_raiseIf_pos h]
          trivial
    | none =>
        intro v _
        change Holds _ _ (Prog.exec (writeFile env path content >>= _) v)
        unfold writeFile
        rw [Prog.exec_bind, Prog.exec_act]
        cases env.diskFails v.diskOps with
        | some n => trivial
        | none => exact ⟨path, content, rfl, by rw [Holding, World.file?, List.lookup_cons_self], rfl⟩

theorem Lasting.keeps {K : World → Prop} (hK : Lasting K) {α : Type} {p : Recovery α}
    (h : ∀ path stored, Keeps (Holding path stored) p) : Keeps K p := by
  intro w hw
  have hfinal : K (p.exec w).2 := hK w _ (fun path stored hheld => (h path stored).final hheld) hw
  rcases hx : p.exec w with ⟨e | a, v⟩ <;> rw [hx] at hfinal <;> exact hfinal

theorem storeXmlMember_holding {path packageId member : String} {stored : Bytes} {archive : ZipArchive} :
    Keeps (Holding path stored) (storeXmlMember env q packageId archive member) := by
  rw [storeXmlMember_eq]
  refine Keeps.bind (Keeps.ofExcept _) fun bytes => Keeps.bind (Keeps.ofExcept _) fun reading => ?_
  refine Keeps.bind xmlKey_holding fun _ => Keeps.bind writeBytesIdempotent_holding fun _ => ?_
  exact bookXml_outside fun _ _ _ _ h => h

theorem storeXmlPackage_holding {path packageId : String} {stored content : Bytes} :
    Keeps (Holding path stored) (storeXmlPackage env q packageId content) :=
  Keeps.bind (Keeps.ofExcept _) fun _ =>
    Keeps.bind (Keeps.each fun _ _ => storeXmlMember_holding) fun _ => Keeps.pure _

/-- The XML of a member is stored at its path. -/
def Filed (env : Env) (q : DownloadQuery) (archive : ZipArchive) (member : String) (w : World) : Prop :=
  ∀ bytes reading, archive.read member = .ok bytes → env.readCfdi bytes = .ok reading →
    ∃ path stored, xmlPath env q bytes reading = .ok path ∧ Holding path stored w ∧
      sha256Bytes env stored = sha256Bytes env bytes

theorem filed_lasting {archive : ZipArchive} {member : String} : Lasting (Filed env q archive member) := by
  intro w v hlater hfiled bytes reading hread hreading
  obtain ⟨path, stored, hpath, hheld, hsame⟩ := hfiled bytes reading hread hreading
  exact ⟨path, stored, hpath, hlater path stored hheld, hsame⟩

theorem xmlKey_path {bytes : Bytes} {reading : CfdiReading} :
    Ensures (fun _ => True) (xmlKey env q.requesterRfc reading.parsed.issueDate
      (env.rt.upper reading.parsed.uuid) (sha256Bytes env bytes))
      fun key _ => xmlPath env q bytes reading = env.storage.pathForKey key := by
  intro w _
  unfold xmlKey periodKey storageStep xmlPath
  rw [Prog.exec_bind, Prog.exec_ofExcept]
  cases fileName (env.rt.upper (env.rt.upper reading.parsed.uuid)) (sha256Bytes env bytes) "xml" with
  | error e => trivial
  | ok filename =>
    change Holds _ _ (Prog.exec (Prog.ofExcept ((safeRfc env.rt q.requesterRfc).mapError _) >>= _) w)
    rw [Prog.exec_bind, Prog.exec_ofExcept]
    cases safeRfc env.rt q.requesterRfc with
    | error e => trivial
    | ok safe =>
      exact Spec.bind (P := fun _ => True) (M := fun _ _ => True)
        (disk_files (fun _ _ _ => trivial) fun _ _ _ => trivial)
        (fun _ => Spec.pure _ fun _ _ => rfl) w trivial

/-- A member that was loaded is stored. -/
theorem storeXmlMember_stores {packageId member : String} {archive : ZipArchive} :
    Ensures (fun _ => True) (storeXmlMember env q packageId archive member)
      fun _ => Filed env q archive member := by
  rw [storeXmlMember_eq]
  refine extract_then fun bytes hbytes => extract_then fun reading hreading => ?_
  refine Spec.bind xmlKey_path fun key => ?_
  intro w hkey
  refine Spec.bind writeBytesIdempotent_stores (fun _ => ?_) w trivial
  refine Spec.weaken (Ensures.ofKeeps (bookXml_outside (K := Filed env q archive member)
    fun _ _ _ _ h => h)) (fun v hstored => ?_) (fun _ _ h => h) fun _ _ h => h
  obtain ⟨path, stored, hpath, hheld, hsame⟩ := hstored
  intro bytes' reading' hbytes' hreading'
  cases hbytes.symm.trans hbytes'
  cases hreading.symm.trans hreading'
  exact ⟨path, stored, hkey.trans hpath, hheld, hsame⟩

/-- The members of a package are stored, each at its path. -/
def PackageFiled (env : Env) (q : DownloadQuery) (package : String × Bytes) (w : World) : Prop :=
  ∀ archive, env.openZip package.2 = .ok archive →
    ∀ member ∈ xmlMembers archive, Filed env q archive member w

theorem packageFiled_lasting {package : String × Bytes} : Lasting (PackageFiled env q package) := by
  intro w v hlater hfiled archive harchive member hmember
  exact filed_lasting w v hlater (hfiled archive harchive member hmember)

theorem storeXmlPackage_stores {package : String × Bytes} :
    Ensures (fun _ => True) (storeXmlPackage env q package.1 package.2)
      fun _ => PackageFiled env q package := by
  refine extract_then fun archive harchive => ?_
  refine Spec.bind (Ensures.each (I := fun _ => True) (G := Filed env q archive) ?_ ?_) fun _ =>
    Spec.pure _ fun w hfiled archive' harchive' => ?_
  · exact fun member _ => storeXmlMember_stores.weaken (fun _ h => h) (fun _ _ h => ⟨trivial, h⟩)
      fun _ _ h => h
  · exact fun member _ other => filed_lasting.keeps fun _ _ => storeXmlMember_holding
  · cases harchive.symm.trans harchive'
    exact hfiled.2

/-- Packages that were loaded are stored. -/
theorem storePackages_stores :
    Ensures (fun _ => True)
      (Prog.collect packages fun package => storeXmlPackage env q package.1 package.2)
      fun _ w => ∀ package ∈ packages, PackageFiled env q package w := by
  refine Spec.weaken (Ensures.collect (I := fun _ => True) (G := PackageFiled env q)
    (fun package _ => ?_) fun package _ other => ?_) (fun _ h => h) (fun _ _ h => h.2) fun _ _ h => h
  · exact storeXmlPackage_stores.weaken (fun _ h => h) (fun _ _ h => ⟨trivial, h⟩) fun _ _ h => h
  · exact packageFiled_lasting.keeps fun _ _ => storeXmlPackage_holding

/-- Only packages that can be stored are stored. -/
theorem storable_of_stored {w v : World}
    (hkept : ∀ path stored, Holding path stored w → Holding path stored v)
    (hfiled : ∀ package ∈ packages, PackageFiled env q package v) : Storable env q packages w := by
  have hmember : ∀ bytes reading, Member env packages bytes reading →
      ∃ path stored, xmlPath env q bytes reading = .ok path ∧ Holding path stored v ∧
        sha256Bytes env stored = sha256Bytes env bytes := by
    rintro bytes reading ⟨package, hpackage, archive, harchive, member, hmember, hread, hreading⟩
    exact hfiled package hpackage archive harchive member hmember bytes reading hread hreading
  refine ⟨fun bytes reading h => ?_, fun bytes reading bytes' reading' path h h' hpath hpath' => ?_,
    fun bytes reading path stored h hpath hstored => ?_⟩
  · obtain ⟨path, -, hpath, -⟩ := hmember bytes reading h
    exact ⟨path, hpath⟩
  · obtain ⟨_, stored, hp, hheld, hsame⟩ := hmember bytes reading h
    obtain ⟨_, stored', hp', hheld', hsame'⟩ := hmember bytes' reading' h'
    cases hp.symm.trans hpath
    cases hp'.symm.trans hpath'
    cases hheld.symm.trans hheld'
    exact hsame'.symm.trans hsame
  · obtain ⟨_, stored', hp, hheld, hsame⟩ := hmember bytes reading h
    cases hp.symm.trans hpath
    cases (hkept path stored hstored).symm.trans hheld
    exact hsame

end Storage

/-! ## Loading packages twice -/

/-- Store the XML packages of a job and commit. -/
def storePackages (env : Env) (q : DownloadQuery) (packages : List (String × Bytes)) : Recovery PUnit :=
  withSession do
    let _ ← Prog.collect packages fun package => storeXmlPackage env q package.1 package.2
    commit env

section Run

variable {env : Env} {q : DownloadQuery} {packages : List (String × Bytes)}
variable {loads : List (String × String)} {w : World}

/-- The run of a job's packages that can be read and stored: its loads are made and
committed, or the commit meets a key that repeats. -/
theorem storePackages_run (hup : ∀ n, env.databaseFails n = false)
    (hdisk : ∀ n, env.diskFails n = none) (hunique : Unique w.db)
    (hvalid : packagesLoads env packages = .ok loads) (hstorable : Storable env q packages w) :
    (RepeatsRecorded q loads w.db ∧ ∃ v, (storePackages env q packages).exec w = (.ok ⟨⟩, v) ∧
      Storable env q packages v ∧ Unique v.db ∧ FreeSteps env.rt (loading q loads) w.db v.db) ∨
    (¬ RepeatsRecorded q loads w.db ∧ ((storePackages env q packages).exec w).1 = .error .integrity) := by
  let u : World := { w with session := w.session.reset }
  have hu : Storable env q packages u := storable_outside w _ w.clock w.databaseOps hstorable
  obtain ⟨counts, t, hrun, ht⟩ :=
    (storeXmlPackages_total (q := q) hup hdisk hvalid).exec_ok hu
  have hloads := Ensures.of_exec (@storePackages_loads env q u.session packages) rfl hrun
  obtain ⟨loads', hvalid', hfrom⟩ := hloads
  cases hvalid.symm.trans hvalid'
  have hfits := hfrom.fits_iff
  have hunhidden : ∀ load ∈ loads, LoadUnhidden q load u.session := fun _ _ => ⟨fun h => h, fun h => h⟩
  have hiff : Fits t.session ↔ RepeatsRecorded q loads w.db :=
    hfits.trans ⟨fun h => h.2.1, fun h => ⟨fits_idle _, h, hunhidden⟩⟩
  have hkept : Unique t.session.working := by
    have := Keeps.final (@Keeps.collect _ _ _ _ _ packages _ fun package _ =>
      @storeXmlPackage_keeps env _ _ q (unique_stable q.tenantId "").books package.1 package.2) (s := u) hunique
    rwa [hrun] at this
  have hexec : (storePackages env q packages).exec w =
      (((commit env).exec t).1, { ((commit env).exec t).2 with
        session := ((commit env).exec t).2.session.reset }) := by
    unfold storePackages withSession
    rw [Prog.exec_bracket, Prog.exec_bind_ok hrun]
  rw [← hiff, hexec]
  unfold commit
  rw [Prog.exec_bind, exec_flush, if_neg (by rw [hup]; exact Bool.false_ne_true)]
  cases hflush : t.session.flush? insert with
  | some flushed =>
      obtain ⟨hfits', rfl⟩ := flush?_eq_some_iff.mp hflush
      refine .inl ⟨hfits', _, rfl, ⟨ht.path, ht.apart, ht.free⟩, Unique.merged hkept hfits', ?_⟩
      exact (hfrom.steps hfits' fun _ hrow => absurd hrow List.not_mem_nil).2.2
  | none =>
      refine .inr ⟨fun hfits' => ?_, rfl⟩
      rw [flush?_eq_some_iff.mpr ⟨hfits', rfl⟩] at hflush
      cases hflush

/-- Storing the packages of a job succeeds and leaves one document for each UUID and one
evidence row for each UUID and digest; storing them again adds no row. -/
def LoadsIdempotently (env : Env) (q : DownloadQuery) (packages : List (String × Bytes))
    (loads : List (String × String)) (w : World) : Prop :=
  ∃ v, (storePackages env q packages).exec w = (.ok ⟨⟩, v) ∧
    (∀ load ∈ loads,
      (∃ row, (v.db.documents.filter fun row => IsDocument q.tenantId load.1 row) = [row]) ∧
      ∃ row, (v.db.evidence.filter fun row => IsEvidence q.tenantId load.1 load.2 row) = [row]) ∧
    ∃ u, (storePackages env q packages).exec v = (.ok ⟨⟩, u) ∧
      u.db.documents.length = v.db.documents.length ∧ u.db.evidence = v.db.evidence ∧
      u.db.parties = v.db.parties

theorem AllRecorded.repeats {d : Db} (h : AllRecorded q loads d) : RepeatsRecorded q loads d :=
  List.pairwise_of_forall_mem_list fun _ _ b hb => ⟨fun _ => (h b hb).1, fun _ => (h b hb).2⟩

/-- Packages whose storage succeeded can be stored. -/
theorem storable_of_run {v : World} (hrun : (storePackages env q packages).exec w = (.ok ⟨⟩, v)) :
    Storable env q packages w := by
  let u : World := { w with session := w.session.reset }
  let load := Prog.collect packages fun package => storeXmlPackage env q package.1 package.2
  have hstored := @storePackages_stores env q packages u trivial
  have hkept : ∀ path stored, Holding path stored u → Holding path stored (load.exec u).2 :=
    fun path stored => Keeps.final (Keeps.collect fun _ _ => storeXmlPackage_holding)
  rcases hload : load.exec u with ⟨e | counts, t⟩
  · have herror : ((storePackages env q packages).exec w).1 = .error e := by
      unfold storePackages withSession
      rw [Prog.exec_bracket, Prog.exec_bind_error hload]
    rw [hrun] at herror
    cases herror
  · rw [hload] at hkept hstored
    exact storable_of_stored hkept hstored

/-- Where database and disk work, the loading of readable packages is idempotent exactly
if every key that their members repeat was recorded before and their files can be
stored. -/
theorem loadsIdempotently_iff (hup : ∀ n, env.databaseFails n = false)
    (hdisk : ∀ n, env.diskFails n = none) (hunique : Unique w.db)
    (hvalid : packagesLoads env packages = .ok loads) :
    LoadsIdempotently env q packages loads w ↔
      RepeatsRecorded q loads w.db ∧ Storable env q packages w := by
  constructor
  · rintro ⟨v, hrun, -⟩
    have hstorable := storable_of_run hrun
    rcases storePackages_run hup hdisk hunique hvalid hstorable with ⟨h, -⟩ | ⟨-, hfails⟩
    · exact ⟨h, hstorable⟩
    · rw [hrun] at hfails
      cases hfails
  · rintro ⟨h, hstorable⟩
    rcases storePackages_run hup hdisk hunique hvalid hstorable with
      ⟨-, v, hrun, hstorable', hunique', hsteps⟩ | ⟨hnot, -⟩
    · obtain ⟨hrecorded, -, -⟩ := loading_records hsteps
      refine ⟨v, hrun, fun load hload => ?_, ?_⟩
      · obtain ⟨⟨document, hdocument, hkey⟩, evidence, hevidence, hkey'⟩ := hrecorded load hload
        exact ⟨⟨document, Keyed.filter_eq_singleton hunique'.soleDocument hdocument hkey⟩,
          ⟨evidence, Keyed.filter_eq_singleton hunique'.soleEvidence hevidence hkey'⟩⟩
      · rcases storePackages_run hup hdisk hunique' hvalid hstorable' with
          ⟨-, u, hrun', -, -, hsteps'⟩ | ⟨hnot, -⟩
        · exact ⟨u, hrun', loading_again hsteps' hrecorded⟩
        · exact absurd hrecorded.repeats hnot
    · exact absurd h hnot

end Run

/-! ## An archive with one UUID twice -/

section Sample

/-- What the sample invoice of a UUID is read as. -/
def sampleReading (uuid : String) : CfdiReading where
  parsed := {
    uuid := uuid
    issuerRfc := "BBB020202BBB"
    issuerName := "Emisor"
    receiverRfc := "AAA010101AAA"
    receiverName := "Receptor"
    issueDate := .utc 63840000000000000
    subtotal := .finite false 100 0
    total := .finite false 116 0
    currency := "MXN"
    comprobanteType := "I"
    paymentMethod := none
    paymentForm := none }
  version := "4.0"
  complements := []
  parserStatus := "parsed"
  concepts := []

/-- Every package is an archive of two invoices, with the given UUIDs. -/
def archiveEnv (first second : String) : Env :=
  { sampleEnv [] with
    openZip := fun _ => .ok ⟨["a.xml", "b.xml"], fun name => .ok (if name = "a.xml" then [1] else [2])⟩
    readCfdi := fun bytes => .ok (sampleReading (if bytes = [1] then first else second)) }

/-- The invoices of January 2024. -/
def januaryInvoices : DownloadQuery := { januaryQuery with requestType := .cfdi }

theorem loadsIdempotently_iff_sample :
    LoadsIdempotently (archiveEnv "UUID-1" "UUID-2") januaryInvoices [("PKG-1", [])]
      [("UUID-1", sha256Bytes (sampleEnv []) []), ("UUID-2", sha256Bytes (sampleEnv []) [])]
      (sampleWorld {}) := by
  refine (loadsIdempotently_iff (fun _ => rfl) (fun _ => rfl) ⟨.nil, .nil, .nil⟩ rfl).mpr ⟨?_, ?_⟩
  · simp [RepeatsRecorded]
  · refine ⟨?_, fun _ _ _ _ _ _ _ _ _ => rfl, fun _ _ _ _ _ _ _ => rfl⟩
    rintro bytes reading ⟨-, -, -, -, -, -, -, hreading⟩
    cases hreading
    have hdigest (uuid : String) : xmlPath (archiveEnv "UUID-1" "UUID-2") januaryInvoices bytes
        (sampleReading uuid) = xmlPath (sampleEnv []) januaryQuery [] (sampleReading uuid) := rfl
    split_ifs
    · exact ⟨"storage/AAA010101AAA/xml/2024/01/UUID-1-000000000000.xml", (hdigest _).trans (by decide +kernel)⟩
    · exact ⟨"storage/AAA010101AAA/xml/2024/01/UUID-2-000000000000.xml", (hdigest _).trans (by decide +kernel)⟩

/-- The two invoices have one UUID; nothing of the package is stored. -/
theorem repeated_member_fails :
    ¬ LoadsIdempotently (archiveEnv "UUID-1" "UUID-1") januaryInvoices [("PKG-1", [])]
      [("UUID-1", sha256Bytes (sampleEnv []) []), ("UUID-1", sha256Bytes (sampleEnv []) [])]
      (sampleWorld {}) := by
  rintro ⟨v, hrun, -⟩
  have hfails : ((storePackages (archiveEnv "UUID-1" "UUID-1") januaryInvoices [("PKG-1", [])]).exec
      (sampleWorld {})).1 = .error .integrity := by decide +kernel
  rw [hrun] at hfails
  cases hfails

end Sample

end Recovery

end CfdiVault
