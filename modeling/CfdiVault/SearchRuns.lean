import CfdiVault.RecoveryPending
import CfdiVault.SearchIndex

/-!
# The index in a run of calls

The calls of the service as turns of the index: a call that returns makes the turns of SAT's answer
or of its file, and every other call leaves documents and parties alone.  A session advances the
index by the turns that it would leave behind in a flush (`Advances`).

`search_in_sync` says that the index is in sync with the documents in every database that harmless
turns lead to.
-/

namespace CfdiVault

namespace Recovery

/-! ## The index of a database -/

/-- The index has the documents and the parties of the database. -/
def Index.Shows (ix : Index) (d : Db) : Prop :=
  ix.documents = d.documents.map CfdiDocument.indexed ∧ ix.parties = d.parties

/-- Turns, one after the other. -/
def applyTurns (rt : Runtime) (turns : List IndexTurn) (ix : Index) : Index :=
  turns.foldl (fun ix turn => turn.apply rt ix) ix

theorem applyTurns_append (rt : Runtime) (first second : List IndexTurn) (ix : Index) :
    applyTurns rt (first ++ second) ix = applyTurns rt second (applyTurns rt first ix) := List.foldl_append

/-- What the turns do to an index that shows one database, it shows of the other. -/
def Carries (rt : Runtime) (turns : List IndexTurn) (d e : Db) : Prop :=
  ∀ ix : Index, ix.Shows d → (applyTurns rt turns ix).Shows e

/-- The session gets to another one by turns on the database that a flush leaves behind. -/
structure Advances (rt : Runtime) (turns : List IndexTurn) (s t : Session Db Row) : Prop where
  fits : Fits t → Fits s
  carries : Fits t → Carries rt turns (merged s) (merged t)

section Advances

variable {rt : Runtime} {s t u : Session Db Row} {first second turns : List IndexTurn} {turn : IndexTurn} {ix : Index}
variable {d e f : Db} {writes : List Write}

theorem Index.Shows.of_books (h : ix.Shows d) (hdocuments : e.documents = d.documents)
    (hparties : e.parties = d.parties) : ix.Shows e :=
  ⟨h.1.trans (by rw [hdocuments]), h.2.trans hparties.symm⟩

theorem Carries.trans (h : Carries rt first d e) (h' : Carries rt second e f) :
    Carries rt (first ++ second) d f := by
  intro ix hshows
  rw [applyTurns_append]
  exact h' _ (h ix hshows)

theorem Carries.of_books (hdocuments : e.documents = d.documents) (hparties : e.parties = d.parties) :
    Carries rt [] d e :=
  fun _ hshows => hshows.of_books hdocuments hparties

theorem Advances.trans (h : Advances rt first s t) (h' : Advances rt second t u) :
    Advances rt (first ++ second) s u where
  fits hu := h.fits (h'.fits hu)
  carries hu := (h.carries (h'.fits hu)).trans (h'.carries hu)

theorem Advances.refl (s : Session Db Row) : Advances rt [] s s :=
  ⟨id, fun _ _ hshows => hshows⟩

theorem Silent.advances (h : Silent s t) : Advances rt [] s t :=
  ⟨h.fits, fun _ => .of_books h.books.documents h.books.parties⟩

/-! ## Writes -/

def partyEntries : Row → List CfdiParty
  | .party row => [row]
  | _ => []

theorem append_parties (d : Db) (row : Row) : (append d row).parties = d.parties ++ partyEntries row := by
  cases row <;> simp [append, partyEntries]

theorem merged_parties (s : Session Db Row) :
    (merged s).parties = s.working.parties ++ s.pending.flatMap partyEntries :=
  foldl_append_table append_parties s.pending s.working

/-- A write that leaves documents and parties alone. -/
def Write.Quiet : Write → Prop
  | .add row => documentRows row = [] ∧ partyEntries row = []
  | .ledger .. => True
  | .document .. => False

theorem Write.Quiet.merged {write : Write} (h : write.Quiet) :
    (merged (write.onSession s)).documents = (merged s).documents ∧
      (Recovery.merged (write.onSession s)).parties = (Recovery.merged s).parties := by
  cases write with
  | add row =>
      change (Recovery.merged (s.add row)).documents = _ ∧ (Recovery.merged (s.add row)).parties = _
      rw [merged_add, append_documents, append_parties, h.1, h.2, List.append_nil, List.append_nil]
      exact ⟨rfl, rfl⟩
  | ledger tenantId uuid direction change hkey =>
      rw [merged_documents, merged_documents, merged_parties, merged_parties]
      exact ⟨rfl, rfl⟩
  | document => exact h.elim

theorem quiet_advances (h : ∀ write ∈ writes, write.Quiet) : Advances rt [] s (writeAll writes s) := by
  induction writes generalizing s with
  | nil => exact .refl s
  | cons write rest ih =>
      obtain ⟨hfirst, hrest⟩ := List.forall_mem_cons.mp h
      have hstep : Advances rt [] s (write.onSession s) :=
        ⟨Fits.before_write, fun _ => .of_books hfirst.merged.1 hfirst.merged.2⟩
      exact hstep.trans (ih hrest)

theorem AuditWrites.quiet {tenantId uuid previous next : String}
    (h : AuditWrites tenantId uuid previous next writes) : ∀ write ∈ writes, write.Quiet := by
  cases h with
  | stays => exact fun _ hwrite => absurd hwrite List.not_mem_nil
  | changes => exact List.forall_mem_singleton.mpr ⟨rfl, rfl⟩

theorem LedgerWrites.quiet {q : DownloadQuery} {entry : MetadataEntry} {metadataSha256 state : String}
    {existing : Option CfdiMetadataLedger} (h : LedgerWrites q entry metadataSha256 state existing writes) :
    ∀ write ∈ writes, write.Quiet := by
  cases h with
  | discovered =>
      exact List.forall_mem_cons.mpr ⟨⟨rfl, rfl⟩, List.forall_mem_singleton.mpr ⟨rfl, rfl⟩⟩
  | updated _ _ _ haudits => exact List.forall_mem_cons.mpr ⟨trivial, haudits.quiet⟩

theorem EvidenceWrites.quiet {tenantId uuid xmlSha256 : String} {recorded : Bool}
    (h : EvidenceWrites tenantId uuid xmlSha256 recorded writes) : ∀ write ∈ writes, write.Quiet := by
  cases h with
  | recorded => exact fun _ hwrite => absurd hwrite List.not_mem_nil
  | added => exact List.forall_mem_singleton.mpr ⟨rfl, rfl⟩

theorem StoredWrites.quiet {tenantId uuid direction : String} {existing : Option CfdiMetadataLedger}
    (h : StoredWrites tenantId uuid direction existing writes) : ∀ write ∈ writes, write.Quiet := by
  cases h with
  | missing => exact fun _ hwrite => absurd hwrite List.not_mem_nil
  | marked haudits => exact List.forall_mem_cons.mpr ⟨trivial, haudits.quiet⟩

/-- What a turn writes to documents and parties, given the document that it finds. -/
inductive SearchWrites (rt : Runtime) (turn : IndexTurn) : Option CfdiDocument → List Write → Prop
  | discovered {row : CfdiDocument} (hrow : row.indexed = turn.fresh rt) :
      SearchWrites rt turn none
        (.add (.document row) :: (turn.fresh rt).partyRows.map fun party => .add (.party party))
  | updated {existing : CfdiDocument} {change : CfdiDocument → CfdiDocument} (hkey)
      (hchange : ∀ row, (change row).indexed = turn.refresh rt row.indexed) :
      SearchWrites rt turn (some existing) [.document turn.tenantId (turn.uuid rt) change hkey]

theorem Index.Shows.find (h : ix.Shows d) (tenantId uuid : String) :
    ix.find tenantId uuid = (findDocument tenantId uuid d).map CfdiDocument.indexed := by
  rw [Index.find, h.1, List.find?_map]
  rfl

/-- The writes of a turn are that turn on the index. -/
theorem SearchWrites.advances
    (h : SearchWrites rt turn (findDocument turn.tenantId (turn.uuid rt) s.working) writes) :
    Advances rt [turn] s (writeAll writes s) := by
  refine ⟨Fits.before, fun hfits ix hshows => ?_⟩
  change (turn.apply rt ix).Shows _
  generalize hfound : findDocument turn.tenantId (turn.uuid rt) s.working = existing at h
  cases h with
  | @discovered row hrow =>
      have hkey : row.tenantId = turn.tenantId ∧ row.uuid = turn.uuid rt := by
        rw [← turn.fresh_tenantId rt, ← turn.fresh_uuid rt, ← hrow]
        exact ⟨rfl, rfl⟩
      have hfree := free_of_fits hfits
      have hnone : findDocument turn.tenantId (turn.uuid rt) (merged s) = none := by
        refine findDocument_eq_none.mpr fun ⟨other, hother, htenant, huuid⟩ => hfree ⟨other, hother, ?_⟩
        exact ⟨htenant.trans hkey.1.symm, huuid.trans hkey.2.symm⟩
      have hmerged : merged (writeAll (.add (.document row) ::
          (turn.fresh rt).partyRows.map fun party => .add (.party party)) s) = _ :=
        merged_writeAll hfits (by simp [Write.Addressed])
      rw [hmerged]
      unfold IndexTurn.apply
      rw [hshows.find, hnone]
      constructor
      · change ix.documents ++ [turn.fresh rt] = ((merged s).documents ++ [row]).map CfdiDocument.indexed
        rw [List.map_append, ← hshows.1, List.map_singleton, hrow]
      · change ix.parties ++ (turn.fresh rt).partyRows = _
        rw [hshows.2]
        exact (List.append_assoc (merged s).parties [_] [_]).symm
  | updated hkey hchange =>
      have hmerged := merged_writeAll hfits
        (List.forall_mem_singleton.mpr (findDocument_isSome.mp (Option.isSome_of_mem hfound)))
      rw [hmerged]
      unfold IndexTurn.apply
      rw [hshows.find, findDocument_merged hfound]
      refine ⟨?_, hshows.2⟩
      change ix.documents.map _ = ((merged s).documents.map _).map CfdiDocument.indexed
      rw [hshows.1, List.map_map, List.map_map]
      refine List.map_congr_left fun row _ => ?_
      change (if IsDocument turn.tenantId (turn.uuid rt) row then turn.refresh rt row.indexed else row.indexed) =
        (if IsDocument turn.tenantId (turn.uuid rt) row then _ else row).indexed
      split
      · exact (hchange row).symm
      · rfl

end Advances

/-! ## The turns of the code -/

/-- The turns of an entry: a query for XML leaves the documents to its packages. -/
def entryTurns (q : DownloadQuery) (entry : MetadataEntry) : List IndexTurn :=
  if q.requestType = .metadata then [.metadata q.tenantId entry] else []

/-- The turns of XML documents. -/
def xmlTurns (q : DownloadQuery) (readings : List CfdiReading) : List IndexTurn :=
  readings.map fun reading => .xml q.tenantId reading

/-- What is read from a member of a package. -/
def memberReading (env : Env) (archive : ZipArchive) (member : String) : Except String CfdiReading := do
  let bytes ← archive.read member
  env.readCfdi bytes

/-- What is read from a package. -/
def packageReadings (env : Env) (content : Bytes) : Except String (List CfdiReading) := do
  let archive ← env.openZip content
  (xmlMembers archive).mapM (memberReading env archive)

/-- What is read from a list of packages. -/
def packagesReadings (env : Env) (packages : List (String × Bytes)) : Except String (List CfdiReading) := do
  let readings ← packages.mapM fun package => packageReadings env package.2
  pure readings.flatten

section Programs

variable {env : Env} {q : DownloadQuery} {jobId : String} {s : Session Db Row} {E : Fault → World → Prop}

theorem saveMetadataDocument_search {entry : MetadataEntry} {state : String} {time : DateTime}
    {existing : Option CfdiDocument} :
    Writes E s (saveMetadataDocument env q entry state time existing)
      (SearchWrites env.rt (.metadata q.tenantId entry) existing) := by
  rintro w rfl
  cases existing with
  | none => exact ⟨_, .discovered rfl, rfl⟩
  | some existing =>
      refine ⟨_, .updated ?_ ?_, rfl⟩
      · exact fun _ => ⟨rfl, rfl⟩
      · exact fun _ => rfl

theorem saveXmlDocument_search {reading : CfdiReading} {packageId xmlSha256 : String}
    {existing : Option CfdiDocument} :
    Writes E s (saveXmlDocument env q reading packageId (env.rt.upper reading.parsed.uuid) xmlSha256 existing)
      (SearchWrites env.rt (.xml q.tenantId reading) existing) := by
  unfold saveXmlDocument
  cases existing with
  | none =>
      refine now_then fun createdAt => now_then fun updatedAt => ?_
      rintro w rfl
      exact ⟨_, .discovered rfl, rfl⟩
  | some existing =>
      refine now_then fun updatedAt => ?_
      rintro w rfl
      refine ⟨_, .updated ?_ ?_, rfl⟩
      · exact fun _ => ⟨rfl, rfl⟩
      · exact fun _ => rfl

/-- One turn of `_upsert_metadata` on the index. -/
theorem upsertEntry_advances {metadataSha256 : String} {time : DateTime} {entry : MetadataEntry} :
    Ensures (OnSession fun t => t = s) (upsertEntry env q metadataSha256 time entry)
      fun _ => OnSession (Advances env.rt (entryTurns q entry) s) := by
  have hdown : env.Down → ∀ w : World, True := fun _ _ => trivial
  unfold upsertEntry
  refine select_then hdown (select_then hdown
    (writes_then saveLedger_writes fun _ ledgerWrites hledger => ?_))
  have hquiet : Advances env.rt [] s (writeAll ledgerWrites s) := quiet_advances hledger.quiet
  unfold entryTurns
  split
  · refine select_then hdown (Spec.weaken saveMetadataDocument_search (fun _ h => h) ?_ fun _ _ h => h)
    rintro _ v ⟨documentWrites, hdocument, hv⟩
    change Advances env.rt _ s v.session
    rw [hv]
    exact hquiet.trans (SearchWrites.advances hdocument)
  · refine Spec.pure _ fun w hw => ?_
    change Advances env.rt _ s w.session
    rw [show w.session = _ from hw]
    exact hquiet

theorem upsertEntries_advance {metadata : List MetadataEntry} {metadataSha256 : String} {time : DateTime} :
    Ensures (OnSession fun t => t = s) (Prog.each metadata (upsertEntry env q metadataSha256 time))
      fun _ => OnSession (Advances env.rt (metadata.flatMap (entryTurns q)) s) := by
  induction metadata generalizing s with
  | nil =>
      rintro w rfl
      exact Advances.refl _
  | cons entry rest ih =>
      refine Spec.bind upsertEntry_advances fun _ w hw => ?_
      refine Spec.weaken ih (fun _ h => h) (fun _ v hv => ?_) (fun _ _ h => h) w rfl
      exact Advances.trans hw hv

/-- `_upsert_metadata` on the index. -/
theorem upsertMetadata_advances {metadata : List MetadataEntry} {metadataSha256 : String} :
    Ensures (OnSession fun t => t = s) (upsertMetadata env q metadata metadataSha256)
      fun _ => OnSession (Advances env.rt (metadata.flatMap (entryTurns q)) s) := by
  unfold upsertMetadata
  refine now_then fun time => Spec.bind upsertEntries_advance fun _ => ?_
  exact Spec.pure _ fun _ h => h

theorem bookXml_advances {reading : CfdiReading} {packageId xmlSha256 : String} {stored : StoredFile} :
    Ensures (OnSession fun t => t = s)
      (bookXml env q reading packageId (env.rt.upper reading.parsed.uuid) xmlSha256 stored)
      fun _ => OnSession (Advances env.rt [.xml q.tenantId reading] s) := by
  have hdown : env.Down → ∀ w : World, True := fun _ _ => trivial
  refine select_then hdown (writes_then saveXmlDocument_search fun _ documentWrites hdocument => ?_)
  refine select_then hdown (writes_then saveEvidence_writes fun _ evidenceWrites hadded => ?_)
  refine select_then hdown (Spec.weaken markXmlStored_writes (fun _ h => h) ?_ fun _ _ h => h)
  rintro _ u ⟨ledgerWrites, hstored, hu⟩
  have hdocumentStep := SearchWrites.advances hdocument
  have hevidenceStep : Advances env.rt [] _ _ := quiet_advances (s := writeAll documentWrites s) hadded.quiet
  have hledgerStep : Advances env.rt [] _ _ :=
    quiet_advances (s := writeAll evidenceWrites (writeAll documentWrites s)) hstored.quiet
  change Advances env.rt _ s u.session
  rw [hu]
  exact hdocumentStep.trans (hevidenceStep.trans hledgerStep)

/-- A member that is stored is read and makes its turn. -/
theorem storeXmlMember_advances {packageId member : String} {archive : ZipArchive} :
    Ensures (OnSession fun t => t = s) (storeXmlMember env q packageId archive member)
      fun _ => OnSession fun t => ∃ reading, memberReading env archive member = .ok reading ∧
        Advances env.rt [.xml q.tenantId reading] s t := by
  rw [storeXmlMember_eq]
  refine extract_then fun bytes hbytes => extract_then fun reading hreading => ?_
  refine Spec.bind (Ensures.ofKeeps xmlKey_keeps) fun _ => ?_
  refine Spec.bind (Ensures.ofKeeps writeBytesIdempotent_keeps) fun stored => ?_
  refine Spec.weaken bookXml_advances (fun _ h => h) (fun _ w hw => ?_) fun _ _ h => h
  refine ⟨reading, ?_, hw⟩
  unfold memberReading
  rw [hbytes, Checked.ok_bind, hreading]

theorem storeXmlMembers_advance {packageId : String} {archive : ZipArchive} {members : List String} :
    Ensures (OnSession fun t => t = s) (Prog.each members (storeXmlMember env q packageId archive))
      fun _ => OnSession fun t => ∃ readings, members.mapM (memberReading env archive) = .ok readings ∧
        Advances env.rt (xmlTurns q readings) s t := by
  induction members generalizing s with
  | nil =>
      rintro w rfl
      exact ⟨[], rfl, .refl _⟩
  | cons member rest ih =>
      refine Spec.bind storeXmlMember_advances fun _ => ?_
      rintro w ⟨reading, hreading, hfirst⟩
      refine Spec.weaken ih (fun _ h => h) ?_ (fun _ _ h => h) w rfl
      rintro _ v ⟨readings, hreadings, hrest⟩
      refine ⟨reading :: readings, ?_, hfirst.trans hrest⟩
      rw [List.mapM_cons, hreading, Checked.ok_bind, hreadings]
      rfl

/-- `_store_xml_package` on the index. -/
theorem storeXmlPackage_advances {packageId : String} {content : Bytes} :
    Ensures (OnSession fun t => t = s) (storeXmlPackage env q packageId content)
      fun _ => OnSession fun t => ∃ readings, packageReadings env content = .ok readings ∧
        Advances env.rt (xmlTurns q readings) s t := by
  unfold storeXmlPackage
  refine extract_then fun archive harchive => Spec.bind storeXmlMembers_advance fun _ => ?_
  refine Spec.pure _ fun w hw => ?_
  obtain ⟨readings, hreadings, hstep⟩ := hw
  refine ⟨readings, ?_, hstep⟩
  unfold packageReadings
  rw [harchive]
  exact hreadings

theorem storePackages_advance {packages : List (String × Bytes)} :
    Ensures (OnSession fun t => t = s)
      (Prog.collect packages fun package => storeXmlPackage env q package.1 package.2)
      fun _ => OnSession fun t => ∃ readings, packagesReadings env packages = .ok readings ∧
        Advances env.rt (xmlTurns q readings) s t := by
  induction packages generalizing s with
  | nil =>
      rintro w rfl
      exact ⟨[], rfl, .refl _⟩
  | cons package rest ih =>
      refine Spec.bind storeXmlPackage_advances fun _ => ?_
      rintro w ⟨first, hfirst, hstep⟩
      refine Spec.bind ih (fun _ => Spec.pure _ ?_) w rfl
      rintro v ⟨second, hsecond, hstep'⟩
      refine ⟨first ++ second, ?_, ?_⟩
      · unfold packagesReadings at hsecond ⊢
        obtain ⟨readings, hreadings, hflatten⟩ := Checked.bind_eq_ok.mp hsecond
        rw [List.mapM_cons, hfirst, Checked.ok_bind, hreadings, ← Checked.pure_eq_ok.mp hflatten]
        rfl
      · rw [xmlTurns, List.map_append]
        exact hstep.trans hstep'

/-- The readings of the XML stage of a query. -/
def XmlReadings (env : Env) (q : DownloadQuery) (contents : List (String × Bytes))
    (readings : List CfdiReading) : Prop :=
  if q.requestType = .cfdi then packagesReadings env (contents.foldl assign []) = .ok readings
  else readings = []

/-- The XML stage on the index. -/
theorem storeXmlPackages_advance {contents : List (String × Bytes)} :
    Ensures (OnSession fun t => t = s) (storeXmlPackages env q jobId (contents.foldl assign []))
      fun _ => OnSession fun t => ∃ readings, XmlReadings env q contents readings ∧
        Advances env.rt (xmlTurns q readings) s t := by
  unfold storeXmlPackages XmlReadings
  split
  · refine Spec.bind storePackages_advance fun counts => ?_
    intro w hw
    obtain ⟨readings, hreadings, hstep⟩ := hw
    refine Spec.weaken (Ensures.ofKeeps (@event_silent _ _ w.session _ _ _ _)) (fun _ h => h) ?_
      (fun _ _ h => h) w (Silent.refl _)
    intro _ v hsilent
    have hlast : Advances env.rt [] w.session v.session := hsilent.advances
    have hlater := hstep.trans hlast
    rw [List.append_nil] at hlater
    exact ⟨readings, hreadings, hlater⟩
  · rintro w rfl
    exact ⟨[], rfl, .refl _⟩

/-- The turns of a job whose answer is recorded. -/
def JobIndexTurns (env : Env) (q : DownloadQuery) (answer : SatAnswer) (turns : List IndexTurn) : Prop :=
  ∃ contents readings, contents.map (·.1) = answer.packages ∧ XmlReadings env q contents readings ∧
    turns = answer.metadata.flatMap (entryTurns q) ++ xmlTurns q readings

/-- The session of a job has made its turns. -/
def Indexed (env : Env) (q : DownloadQuery) (answer : SatAnswer) (s t : Session Db Row) : Prop :=
  ∃ turns, JobIndexTurns env q answer turns ∧ Advances env.rt turns s t

theorem flush_advances : Ensures (OnSession fun t => t = s) (flush env) fun _ => OnSession (Advances env.rt [] s) := by
  refine Spec.weaken flush_merges (fun _ h => h) ?_ fun _ _ h => h
  rintro _ w ⟨hfits, hw⟩
  change Advances env.rt [] s w.session
  rw [hw]
  exact ⟨fun _ => hfits, fun _ _ hshows => hshows⟩

/-- From its packages on, the transaction of a job makes its turns. -/
theorem finish_indexed {answer : SatAnswer} {contents : List (String × Bytes)} {metadataSha256 : String}
    (hids : contents.map (·.1) = answer.packages) :
    Ensures (OnSession fun t => t = s) (do
      let upserted ← upsertMetadata env q answer.metadata metadataSha256
      flush env
      event env jobId .cfdiParseMetadata .succeeded ("metadata rows=" ++ toString upserted) (.obj [])
      storeXmlPackages env q jobId (contents.foldl assign [])
      event env jobId .cfdiReconcile .succeeded "metadata reconciled" (.obj [])
      markSucceeded env jobId)
      fun _ => OnSession (Indexed env q answer s) := by
  refine Spec.bind upsertMetadata_advances fun upserted => ?_
  intro w hentries
  refine Spec.bind flush_advances (fun _ => ?_) w rfl
  intro v hflushed
  refine Spec.bind (Ensures.ofKeeps (@event_silent _ _ v.session _ _ _ _)) (fun _ => ?_) v (Silent.refl _)
  intro u hevent
  refine Spec.bind storeXmlPackages_advance (fun _ => ?_) u rfl
  rintro x ⟨readings, hreadings, hxml⟩
  have hrest : Keeps (OnSession (Silent x.session)) (do
      event env jobId .cfdiReconcile .succeeded "metadata reconciled" (.obj [])
      markSucceeded env jobId) :=
    Keeps.bind event_silent fun _ => markSucceeded_silent
  refine Spec.weaken (Ensures.ofKeeps hrest) (fun _ h => h) (fun _ y hy => ?_) (fun _ _ h => h) x
    (Silent.refl _)
  refine ⟨_, ⟨contents, readings, hids, hreadings, rfl⟩, ?_⟩
  have hall := (Advances.trans hentries hflushed).trans ((Silent.advances hevent).trans
    (hxml.trans (Silent.advances hy)))
  rw [List.append_nil, List.append_nil, List.nil_append] at hall
  exact hall

/-- The transaction of a job makes its turns. -/
theorem recordSteps_indexed {answer : SatAnswer} {requestedAt : DateTime} :
    Ensures (OnSession fun t => t = s) (recordSteps env q jobId answer requestedAt)
      fun _ => OnSession (Indexed env q answer s) := by
  refine Spec.bind (Ensures.ofKeeps storagePeriod_keeps) fun _ => ?_
  refine Spec.bind (Ensures.ofKeeps metadataKey_keeps) fun _ => ?_
  refine Spec.bind (Ensures.ofKeeps writeBytesIdempotent_keeps) fun file => ?_
  intro w hw
  have hstart : OnSession (Silent s) w := by
    change Silent s w.session
    rw [show w.session = s from hw]
    exact .refl s
  refine Spec.bind (Ensures.ofKeeps saveRequest_silent) (fun _ => ?_) w hstart
  refine Spec.bind (Ensures.collect_results fun packageId _ => fetchPackage_named) fun contents => ?_
  rintro v ⟨hsilent, hnames⟩
  refine Spec.weaken (finish_indexed (contents_ids hnames)) (fun _ h => h) (fun _ u hu => ?_)
    (fun _ _ h => h) v rfl
  obtain ⟨turns, hturns, hsteps⟩ := hu
  exact ⟨turns, hturns, (Silent.advances hsilent).trans hsteps⟩

/-- What a job does to the index. -/
def JobCarries (env : Env) (q : DownloadQuery) (answer : SatAnswer) (d e : Db) : Prop :=
  ∃ turns, JobIndexTurns env q answer turns ∧ Carries env.rt turns d e

theorem Carries.before {rt : Runtime} {turns : List IndexTurn} {c d e : Db} (h : Carries rt turns d e)
    (hdocuments : d.documents = c.documents) (hparties : d.parties = c.parties) : Carries rt turns c e :=
  (Carries.of_books hdocuments hparties).trans h

/-- The turns of a job as an account of its transaction. -/
theorem recordAnswer_indexed {d : Db} {answer : SatAnswer} {requestedAt : DateTime} :
    Spec (fun w => w.db = d) (recordAnswer env q jobId answer requestedAt)
      (fun _ w => w.session = Session.idle w.db ∧ JobCarries env q answer d w.db)
      (fun _ w => w.session = Session.idle d) := by
  refine withSession_spec (Q := fun _ e => JobCarries env q answer d e) ?_
  have hcommitted : Keeps (OnSession fun s => s.committed = d) (recordSteps env q jobId answer requestedAt) :=
    recordSteps_keeps (committed_stable q.tenantId jobId d) fun _ _ h => h
  have hsteps : Spec (fun w => w.session = Session.idle d) (recordSteps env q jobId answer requestedAt)
      (fun _ => OnSession fun s => Indexed env q answer (Session.idle d) s ∧ s.committed = d)
      fun _ w => w.db = d := by
    refine Spec.weaken (Ensures.spec recordSteps_indexed hcommitted) (fun w hw => ?_)
      (fun _ _ h => h) fun _ _ h => h
    exact ⟨hw, congrArg Session.committed hw⟩
  refine Spec.bind hsteps fun _ => commit_spec (P := Indexed env q answer (Session.idle d))
    (Q := fun e => JobCarries env q answer d e) ?_
  rintro s t ⟨turns, hturns, hindexed⟩ hflush
  obtain ⟨hfits, rfl⟩ := flush?_eq_some_iff.mp hflush
  exact ⟨turns, hturns, hindexed.carries hfits⟩

/-- A job that returns has made the turns of SAT's answer; one that raises has left documents and
parties alone. -/
theorem processSatRequestJob_indexed {d : Db} {calls : List SatCall} :
    Spec (fun w => w.db = d ∧ w.sat = calls) (processSatRequestJob env q jobId)
      (fun _ w => ∃ answer, satAnswer env q calls = .ok answer ∧ JobCarries env q answer d w.db)
      (fun _ w => SameBooks d w.db) := by
  have hrunning : ∀ e, (e = d ∨ ∃ time, e = setJobStatus jobId .running time d) → SameBooks d e := by
    rintro e (rfl | ⟨time, rfl⟩)
    · exact .refl _
    · exact ⟨rfl, rfl, rfl, rfl, rfl⟩
  refine Spec.weaken (processSatRequestJob_records (R := fun answer => JobCarries env q answer)
    fun _ _ _ => recordAnswer_indexed) (fun _ h => h) ?_ fun _ w hw => hrunning w.db hw.2
  rintro _ w ⟨-, answer, hanswer, -, between, hbetween, turns, hturns, hcarries⟩
  have hbooks := hrunning between hbetween
  exact ⟨answer, hanswer, turns, hturns, hcarries.before hbooks.documents hbooks.parties⟩

/-- A synchronization that returns has made the turns of SAT's answer, or it has left documents and
parties alone, as one that raises does. -/
theorem syncMetadata_indexed {d : Db} {drawn : Nat} {calls : List SatCall} {live enqueue : Bool} :
    Spec (fun w => w.db = d ∧ w.uuids = drawn ∧ w.sat = calls) (syncMetadata env q live enqueue)
      (fun _ w => SameBooks d w.db ∨ ∃ answer, satAnswer env q calls = .ok answer ∧ JobCarries env q answer d w.db)
      (fun _ w => SameBooks d w.db) := by
  have htenants : ∀ {e}, TenantsFrom d e → SameBooks d e := by
    rintro e ⟨tenants, rfl⟩
    exact ⟨rfl, rfl, rfl, rfl, rfl⟩
  have hopened : ∀ {enqueue createdAt between jobId e},
      Opened env q enqueue createdAt drawn between (.created jobId) e → SameBooks between e := by
    rintro enqueue createdAt between jobId e ⟨-, -, -, event, -, rfl⟩
    exact ⟨rfl, rfl, rfl, rfl, rfl⟩
  refine Spec.weaken (syncMetadata_course (R := fun _ answer => JobCarries env q answer)
    fun _ _ _ _ => recordAnswer_indexed) (fun _ h => h) ?_ ?_
  · intro result w hsynced
    cases hsynced with
    | replayed h _ => exact .inl (htenants h)
    | enqueued h _ h' => exact .inl ((htenants h).trans (hopened h'))
    | processed h _ h' hanswer hrunning hrecorded =>
        obtain ⟨turns, hturns, hcarries⟩ := hrecorded
        have hbefore := (htenants h).trans (hopened h')
        refine .inr ⟨_, hanswer, turns, hturns, hcarries.before ?_ ?_⟩
        · rcases hrunning with hsame | ⟨time, hset⟩
          · rw [hsame]
            exact hbefore.documents
          · rw [hset]
            exact hbefore.documents
        · rcases hrunning with hsame | ⟨time, hset⟩
          · rw [hsame]
            exact hbefore.parties
          · rw [hset]
            exact hbefore.parties
  · intro e w hleft
    generalize w.db = after at hleft ⊢
    cases hleft with
    | untouched => exact .refl _
    | tenant h => exact htenants h
    | job h h' => exact (htenants h).trans (hopened h')
    | running h h' => exact ((htenants h).trans (hopened h')).trans ⟨rfl, rfl, rfl, rfl, rfl⟩

/-- The batch of a file makes the turns of its entries. -/
theorem ingest_indexed {d : Db} {metadata : List MetadataEntry} {metadataSha256 : String} :
    Spec (fun w => w.db = d) (withSession do
        let count ← upsertMetadata env q metadata metadataSha256
        commit env
        pure count)
      (fun _ w => Carries env.rt (metadata.flatMap (entryTurns q)) d w.db) (fun _ w => w.db = d) := by
  refine Spec.weaken (withSession_spec (d := d) (Q := fun _ e =>
    Carries env.rt (metadata.flatMap (entryTurns q)) d e) ?_) (fun _ h => h) (fun _ _ h => h.2)
    fun _ _ h => db_of_idle h
  have hcommitted : Keeps (OnSession fun s => s.committed = d) (upsertMetadata env q metadata metadataSha256) :=
    upsertMetadata_keeps (committed_stable q.tenantId "" d).books
  have hentries : Spec (fun w => w.session = Session.idle d) (upsertMetadata env q metadata metadataSha256)
      (fun _ => OnSession fun s => Advances env.rt (metadata.flatMap (entryTurns q)) (Session.idle d) s ∧
        s.committed = d) fun _ w => w.db = d := by
    refine Spec.weaken (Ensures.spec upsertMetadata_advances hcommitted) (fun w hw => ?_)
      (fun _ _ h => h) fun _ _ h => h
    exact ⟨hw, congrArg Session.committed hw⟩
  refine Spec.bind hentries fun count => Spec.bind (commit_spec
    (Q := fun e => Carries env.rt (metadata.flatMap (entryTurns q)) d e) ?_) fun _ => Spec.pure _ fun _ h => h
  intro s t hadvances hflush
  obtain ⟨hfits, rfl⟩ := flush?_eq_some_iff.mp hflush
  exact hadvances.carries hfits

/-- A file that is ingested makes the turns of its entries. -/
theorem ingestMetadataFile_indexed {d : Db} {content : Bytes} {delimiter : Option String}
    {sourcePackageId : String} :
    Spec (fun w => w.db = d) (ingestMetadataFile env q content delimiter sourcePackageId)
      (fun _ w => ∃ parsed, env.parseMetadata content delimiter sourcePackageId = .ok parsed ∧
        Carries env.rt (parsed.entries.flatMap (entryTurns q)) d w.db)
      (fun _ w => SameBooks d w.db) := by
  have htenants : ∀ {e}, TenantsFrom d e → SameBooks d e := by
    rintro e ⟨tenants, rfl⟩
    exact ⟨rfl, rfl, rfl, rfl, rfl⟩
  have hvalidated : Spec (fun w : World => w.db = d) (validated q) (fun _ w => w.db = d)
      fun _ w => SameBooks d w.db := by
    refine Spec.weaken (Keeps.raiseIf (I := fun w : World => w.db = d) _ _) (fun _ h => h)
      (fun _ _ h => h) fun _ w hw => ?_
    rw [show w.db = d from hw]
    exact .refl d
  have htenant : Spec (fun w => w.db = d) (initTenant env q.tenantId q.requesterRfc (some q.tenantId))
      (fun _ w => TenantsFrom d w.db) fun _ w => SameBooks d w.db := by
    refine Spec.weaken initTenant_spec (fun _ h => h) (fun _ _ h => h.2) fun _ w hw => ?_
    rw [db_of_idle hw]
    exact .refl d
  -- the file is stored between the tenant and the batch
  have hkept : ∀ {α : Type} {p : Recovery α}, Keeps (OnSession fun s => TenantsFrom d s.committed) p →
      Spec (OnSession fun s => TenantsFrom d s.committed) p
        (fun _ => OnSession fun s => TenantsFrom d s.committed) fun _ w => SameBooks d w.db :=
    fun hp => Spec.weaken hp (fun _ h => h) (fun _ _ h => h) fun _ _ h => htenants h
  unfold ingestMetadataFile
  refine Spec.bind hvalidated fun _ => Spec.bind htenant fun _ => ?_
  intro w hw
  rw [Prog.exec_bind, Prog.exec_ofExcept]
  cases hparsed : env.parseMetadata content delimiter sourcePackageId with
  | error e => exact htenants hw
  | ok parsed =>
    refine Spec.bind (hkept storagePeriod_keeps) (fun period => ?_) w hw
    refine Spec.bind (hkept metadataKey_keeps) fun key => ?_
    refine Spec.bind (hkept writeBytesIdempotent_keeps) fun file => ?_
    intro v hv
    have hbooks : SameBooks d v.db := htenants hv
    refine Spec.bind (Spec.weaken (ingest_indexed (d := v.db)) (fun _ h => h) (fun _ _ h => h)
      fun _ u hu => ?_) (fun count => Spec.pure _ fun u hcarries => ?_) v rfl
    · rw [show u.db = v.db from hu]
      exact hbooks
    · exact ⟨parsed, rfl, hcarries.before hbooks.documents hbooks.parties⟩

/-- A message whose job returns makes the turns of SAT's answer. -/
theorem processQueueMessage_indexed {message : QueueMessage} {d : Db} {calls : List SatCall} :
    Spec (fun w => w.db = d ∧ w.sat = calls) (processQueueMessage env message)
      (fun _ w => ∃ q answer, queryFromPayload (Json.toText env.textOf) message.payload = .ok q ∧
        satAnswer env q calls = .ok answer ∧ JobCarries env q answer d w.db)
      (fun _ w => SameBooks d w.db) := by
  intro w hw
  unfold processQueueMessage
  rw [Prog.exec_bind, Prog.exec_ofExcept]
  cases hquery : queryFromPayload (Json.toText env.textOf) message.payload with
  | error e =>
      change SameBooks d w.db
      rw [hw.1]
      exact .refl d
  | ok q =>
      refine Spec.weaken processSatRequestJob_indexed (fun _ h => h) ?_ (fun _ _ h => h) w hw
      rintro _ v ⟨answer, hrest⟩
      exact ⟨q, answer, rfl, hrest⟩

end Programs

/-! ## Runs -/

/-- The turns of a call on the index: those of SAT's answer or of the file, or none where the call
leaves documents and parties alone. -/
inductive IndexTurns (env : Env) (w : World) : Call → List IndexTurn → Prop
  | none {call : Call} : IndexTurns env w call []
  | sync {q : DownloadQuery} {live enqueue : Bool} {answer : SatAnswer} {turns : List IndexTurn}
      (hanswer : satAnswer env q w.sat = .ok answer) (hturns : JobIndexTurns env q answer turns) :
      IndexTurns env w (.sync q live enqueue) turns
  | message {message : QueueMessage} {q : DownloadQuery} {answer : SatAnswer} {turns : List IndexTurn}
      (hquery : queryFromPayload (Json.toText env.textOf) message.payload = .ok q)
      (hanswer : satAnswer env q w.sat = .ok answer) (hturns : JobIndexTurns env q answer turns) :
      IndexTurns env w (.message message) turns
  | ingest {q : DownloadQuery} {content : Bytes} {delimiter : Option String} {sourcePackageId : String}
      {parsed : MetadataParseResult}
      (hparsed : env.parseMetadata content delimiter sourcePackageId = .ok parsed) :
      IndexTurns env w (.ingest q content delimiter sourcePackageId) (parsed.entries.flatMap (entryTurns q))

/-- The calls that synchronize, process a message or ingest a file. -/
def Ingests : Call → Prop
  | .reconcile _ => False
  | _ => True

/-- Every call changes documents and parties by its turns. -/
theorem call_indexed {env : Env} {w : World} {call : Call} (hcall : Ingests call) :
    ∃ turns, IndexTurns env w call turns ∧ Carries env.rt turns w.db (call.world env w).db := by
  cases call with
  | sync q live enqueue =>
      have hspec := @syncMetadata_indexed env q _ _ _ live enqueue w ⟨rfl, rfl, rfl⟩
      unfold Call.world
      dsimp only
      rcases hx : (syncMetadata env q live enqueue).exec w with ⟨e | result, v⟩
      · rw [hx] at hspec
        exact ⟨[], .none, .of_books hspec.documents hspec.parties⟩
      · rw [hx] at hspec
        rcases hspec with hsame | ⟨answer, hanswer, turns, hturns, hcarries⟩
        · exact ⟨[], .none, .of_books hsame.documents hsame.parties⟩
        · exact ⟨turns, .sync hanswer hturns, hcarries⟩
  | message message =>
      have hspec := @processQueueMessage_indexed env message _ _ w ⟨rfl, rfl⟩
      unfold Call.world
      dsimp only
      rcases hx : (processQueueMessage env message).exec w with ⟨e | result, v⟩
      · rw [hx] at hspec
        exact ⟨[], .none, .of_books hspec.documents hspec.parties⟩
      · rw [hx] at hspec
        obtain ⟨q, answer, hquery, hanswer, turns, hturns, hcarries⟩ := hspec
        exact ⟨turns, .message hquery hanswer hturns, hcarries⟩
  | ingest q content delimiter sourcePackageId =>
      have hspec := @ingestMetadataFile_indexed env q _ content delimiter sourcePackageId w rfl
      unfold Call.world
      dsimp only
      rcases hx : (ingestMetadataFile env q content delimiter sourcePackageId).exec w with ⟨e | result, v⟩
      · rw [hx] at hspec
        exact ⟨[], .none, .of_books hspec.documents hspec.parties⟩
      · rw [hx] at hspec
        obtain ⟨parsed, hparsed, hcarries⟩ := hspec
        exact ⟨_, .ingest hparsed, hcarries⟩
  | reconcile tenantId => exact hcall.elim

/-- The index of a database whose documents have had the given statuses. -/
def Db.index (d : Db) (statuses : List SeenStatus) : Index where
  documents := d.documents.map CfdiDocument.indexed
  parties := d.parties
  statuses := statuses

/-- A run of these calls from the empty database, with the statuses that the documents have had, each
turn `Allowed` in the index that it meets. -/
inductive SearchRun (rt : Runtime) (Allowed : IndexTurn → Index → Prop) : List SeenStatus → Db → Prop
  | start : SearchRun rt Allowed [] {}
  | call {env : Env} {w : World} {statuses after : List SeenStatus} {call : Call} {turns : List IndexTurn}
      (h : SearchRun rt Allowed statuses w.db) (hrt : env.rt = rt) (hcall : Ingests call)
      (hturns : IndexTurns env w call turns)
      (hsteps : Index.Steps rt Allowed turns (w.db.index statuses) ((call.world env w).db.index after)) :
      SearchRun rt Allowed after (call.world env w).db

section Runs

variable {rt : Runtime} {Allowed : IndexTurn → Index → Prop} {statuses : List SeenStatus} {d : Db} {ix : Index}

theorem Db.index_shows : (d.index statuses).Shows d := ⟨rfl, rfl⟩

theorem Index.Shows.eq_index (h : ix.Shows d) : ix = d.index ix.statuses := by
  obtain ⟨hdocuments, hparties⟩ := h
  cases ix
  rw [Db.index, ← hdocuments, ← hparties]

theorem steps_applyTurns (turns : List IndexTurn) :
    Index.Steps rt (fun _ _ => True) turns ix (applyTurns rt turns ix) := by
  induction turns generalizing ix with
  | nil => exact .nil ix
  | cons turn rest ih => exact .cons trivial ih

/-- The databases of the runs are those that the calls lead to. -/
theorem reachableBy_iff_searchRun : ReachableBy rt (fun _ call => Ingests call) d ↔
    ∃ statuses, SearchRun rt (fun _ _ => True) statuses d := by
  constructor
  · intro h
    induction h with
    | start => exact ⟨[], .start⟩
    | @call env w _ hrt call hcall ih =>
        obtain ⟨statuses, hrun⟩ := ih
        obtain ⟨turns, hturns, hcarries⟩ := @call_indexed env w call hcall
        rw [hrt] at hcarries
        refine ⟨(applyTurns rt turns (w.db.index statuses)).statuses, .call hrun hrt hcall hturns ?_⟩
        rw [← (hcarries _ Db.index_shows).eq_index]
        exact steps_applyTurns turns
  · rintro ⟨statuses, hrun⟩
    induction hrun with
    | start => exact .start
    | call _ hrt hcall _ _ ih => exact .call ih hrt _ hcall

theorem index_empty_wellFormed : (Db.index {} []).WellFormed :=
  ⟨.nil, fun _ _ _ => ⟨rfl, rfl⟩, fun _ hdoc => nomatch hdoc⟩

/-- In every database that harmless turns lead to, the index is in sync with the documents. -/
theorem search_in_sync (hlower : LowersWords rt) (h : SearchRun rt (Harmless rt) statuses d) :
    InSync rt (d.index statuses) := by
  suffices hboth : (d.index statuses).WellFormed ∧ InSync rt (d.index statuses) from hboth.2
  induction h with
  | start => exact ⟨index_empty_wellFormed, fun _ hdoc => nomatch hdoc⟩
  | call _ _ _ _ hsteps ih => exact hsteps.inSync hlower ih.1 ih.2

end Runs

/-! ## An invoice that is cancelled -/

section Sample

theorem lowersWords_sampleHost : LowersWords sampleHost := by
  intro words
  have htoList : ∀ s, (Text.lower s).toList = s.toList.map Text.lowerChar := fun _ => String.toList_ofList
  apply String.toList_inj.mp
  change (Text.lower _).toList = (String.intercalate " " (words.map Text.lower)).toList
  rw [htoList, String.toList_intercalate, String.toList_intercalate]
  induction words with
  | nil => rfl
  | cons first rest ih =>
      cases rest with
      | nil => simp [htoList]
      | cons second rest =>
          simp only [List.map_cons, List.intercalate_cons_cons, List.map_append] at ih ⊢
          rw [ih, htoList first]
          rfl

theorem metadata_result_status {rt : Runtime} {ix : Index} {tenantId : String} {entry : MetadataEntry} :
    ((IndexTurn.metadata tenantId entry).result rt ix).status = entry.status := by
  unfold IndexTurn.result
  split <;> rfl

/-- The file of an invoice in a run. -/
theorem invoice_run {Allowed : IndexTurn → Index → Prop} {statuses : List SeenStatus} {status : String} {d : Db}
    (hok : ((ingestMetadataFile (statusEnv status) januaryQuery [] none "").exec
      (sampleWorld d)).1.toOption.isSome = true)
    (h : SearchRun sampleHost Allowed statuses d)
    (hallowed : Allowed (.metadata "tenant-a" (januaryEntry "UUID-1" status)) (d.index statuses)) :
    SearchRun sampleHost Allowed (statuses ++ [⟨"tenant-a", "UUID-1", status⟩]) (statusDb status d) := by
  have hspec := @ingestMetadataFile_indexed (statusEnv status) januaryQuery d [] none "" (sampleWorld d) rfl
  have hworld : statusDb status d =
    ((ingestMetadataFile (statusEnv status) januaryQuery [] none "").exec (sampleWorld d)).2.db := rfl
  rcases hx : (ingestMetadataFile (statusEnv status) januaryQuery [] none "").exec (sampleWorld d) with
    ⟨e | result, v⟩
  · rw [hx] at hok
    cases hok
  · rw [hx] at hspec hworld
    obtain ⟨parsed, hparsed, hcarries⟩ := hspec
    cases hparsed
    have hshows := hcarries _ (@Db.index_shows statuses d)
    rw [← hworld] at hshows
    have hturns : IndexTurns (statusEnv status) (sampleWorld d) januaryFile
        [.metadata "tenant-a" (januaryEntry "UUID-1" status)] :=
      @IndexTurns.ingest (statusEnv status) (sampleWorld d) januaryQuery [] none ""
        ⟨[januaryEntry "UUID-1" status], []⟩ rfl
    refine @SearchRun.call _ _ (statusEnv status) (sampleWorld d) _ _ januaryFile _ h rfl trivial hturns
      (.cons hallowed ?_)
    have hstatuses : (applyTurns sampleHost [.metadata "tenant-a" (januaryEntry "UUID-1" status)]
        (d.index statuses)).statuses = statuses ++ [⟨"tenant-a", "UUID-1", status⟩] := by
      change (IndexTurn.apply _ _ _).statuses = _
      rw [statuses_apply, metadata_result_status]
      rfl
    have hafter : Index.Shows (applyTurns sampleHost [.metadata "tenant-a" (januaryEntry "UUID-1" status)]
      (d.index statuses)) (statusDb status d) := hshows
    rw [← hstatuses]
    change Index.Steps _ _ _ _ ((statusDb status d).index _)
    rw [← hafter.eq_index]
    exact .nil _

theorem vigente_search : SearchRun sampleHost (Harmless sampleHost)
    ([] ++ [⟨"tenant-a", "UUID-1", "vigente"⟩]) (statusDb "vigente" {}) :=
  invoice_run (by decide +kernel) .start fun _ hdoc => nomatch hdoc

theorem search_in_sync_sample :
    InSync sampleHost ((statusDb "vigente" {}).index ([] ++ [⟨"tenant-a", "UUID-1", "vigente"⟩])) :=
  search_in_sync lowersWords_sampleHost vigente_search

/-- The text of an invoice that was cancelled still has its former status. -/
theorem cancelled_text_stale :
    ¬ ∀ rt statuses d, LowersWords rt → SearchRun rt (fun _ _ => True) statuses d →
      InSync rt (d.index statuses) := by
  intro h
  have hissued : SearchRun sampleHost (fun _ _ => True) _ (statusDb "vigente" {}) :=
    invoice_run (by decide +kernel) .start trivial
  have hcancelled := h _ _ _ lowersWords_sampleHost
    (@invoice_run _ _ "cancelado" _ (by decide +kernel) hissued trivial)
  have hdocuments : (statusDb "cancelado" (statusDb "vigente" {})).documents.map
      (fun doc => (doc.parserStatus, doc.status, doc.searchText)) = [("metadata_only", "cancelado",
        "uuid-1 bbb020202bbb emisor aaa010101aaa receptor vigente i")] := by decide +kernel
  obtain ⟨doc, hdoc, hvalues⟩ := List.exists_of_mem_map (hdocuments ▸ List.mem_singleton_self _)
  obtain ⟨hparser, hstatus, htext⟩ := by simpa only [Prod.mk.injEq] using hvalues
  have hmention : Mentions sampleHost doc.status doc.searchText :=
    (hcancelled _ (List.mem_map_of_mem hdoc)).status hparser
  rw [hstatus, htext] at hmention
  exact absurd hmention (by unfold Mentions; decide +kernel)

end Sample

end Recovery

end CfdiVault
