import CfdiVault.RecoveryXml

/-!
# Runs of calls

The turns of every call of the service as a run of actions on the durable database.  A
call that records an answer ingests its metadata and loads its packages; ingestion of a
file and reconciliation have turns of their own; every other call, and every call that
raises, leaves the books alone.

`Reachable` is the set of databases that calls lead to from the empty one, in any order,
each call in a world of its own.  What a turn keeps holds in all of them
(`Reachable.holds`), and with a condition on the turns in those that meet it
(`ReachedBy.holds`).
-/

namespace CfdiVault

namespace Recovery

/-! ## Stretches that leave the books alone -/

/-- A stretch of a transaction that leaves the books alone. -/
structure Silent (s t : Session Db Row) : Prop where
  fits : Fits t → Fits s
  books : SameBooks (merged s) (merged t)
  pending : ∀ row ∈ t.pending, row ∈ s.pending ∨ OutsideBooks row

namespace Silent

variable {s t u : Session Db Row}

theorem refl (s : Session Db Row) : Silent s s := ⟨id, .refl _, fun _ h => .inl h⟩

theorem trans (h : Silent s t) (h' : Silent t u) : Silent s u where
  fits hu := h.fits (h'.fits hu)
  books := h.books.trans h'.books
  pending row hrow := (h'.pending row hrow).elim (h.pending row) .inr

theorem add {row : Row} (hrow : OutsideBooks row) : Silent s (s.add row) where
  fits h := (fits_add.mp h).1
  books := by
    rw [merged_add]
    exact sameBooks_append hrow _
  pending r hr := by
    rcases List.mem_append.mp hr with hr | hr
    · exact .inl hr
    · rw [List.mem_singleton.mp hr]
      exact .inr hrow

/-- A change of stored rows outside the books that keeps their keys. -/
theorem update {change : Db → Db} (hkeys : ∀ d row, Clashes (change d) row ↔ Clashes d row)
    (hbooks : ∀ d, SameBooks d (change d)) : Silent s (s.update change) where
  fits h := ⟨fun row hrow hclash => h.1 row hrow ((hkeys s.working row).mpr hclash), h.2⟩
  books := by
    unfold merged
    rw [Session.update_pending, Session.update_working]
    have hsame := hbooks s.working
    generalize change s.working = e at hsame
    generalize s.working = d at hsame
    induction s.pending generalizing d e with
    | nil => exact hsame
    | cons row rest ih => exact ih _ _ (hsame.onDb (.add row))
  pending _ hrow := .inl hrow

theorem nonePending {α : Type} {entries : Row → List α} (h : Silent s t)
    (hentries : ∀ row, OutsideBooks row → entries row = []) (hs : NonePending entries s) :
    NonePending entries t :=
  fun row hrow => (h.pending row hrow).elim (hs row) (hentries row)

end Silent

theorem clashes_setJobStatus {jobId : String} {status : JobStatus} {time : DateTime} (d : Db) (row : Row) :
    Clashes (setJobStatus jobId status time d) row ↔ Clashes d row := by
  cases row <;> first | exact Iff.rfl | skip
  case job row =>
    have hkeys : ∀ job : DownloadJob, (if job.id = jobId then
        { job with status := status.value, updatedAt := time } else job).id = job.id ∧
      (if job.id = jobId then
        { job with status := status.value, updatedAt := time } else job).tenantId = job.tenantId ∧
      (if job.id = jobId then
        { job with status := status.value, updatedAt := time } else job).criteriaHash =
          job.criteriaHash := by
      intro job
      split <;> exact ⟨rfl, rfl, rfl⟩
    simp only [Clashes, setJobStatus, List.mem_map, exists_exists_and_eq_and, hkeys]

theorem clashes_changePackage {tenantId packageId : String}
    {change : SatPackageRecord → SatPackageRecord} (hkey : ∀ row, (change row).idPaquete = row.idPaquete)
    (d : Db) (row : Row) : Clashes (changePackage tenantId packageId change d) row ↔ Clashes d row := by
  cases row <;> first | exact Iff.rfl | skip
  case package row =>
    have hkeys : ∀ other : SatPackageRecord,
        (if IsPackage tenantId packageId other then change other else other).idPaquete =
          other.idPaquete := by
      intro other
      split
      · exact hkey other
      · rfl
    simp only [Clashes, changePackage, List.mem_map, exists_exists_and_eq_and, hkeys]

section Programs

variable {env : Env} {q : DownloadQuery} {jobId : String} {s : Session Db Row}

theorem add_silent {row : Row} (hrow : OutsideBooks row) : Keeps (OnSession (Silent s)) (add row) :=
  Keeps.act fun _ hw => Silent.trans hw (.add hrow)

theorem update_silent {change : Db → Db} (hkeys : ∀ d row, Clashes (change d) row ↔ Clashes d row)
    (hbooks : ∀ d, SameBooks d (change d)) : Keeps (OnSession (Silent s)) (update change) :=
  Keeps.act fun _ hw => Silent.trans hw (.update hkeys hbooks)

theorem event_silent {queueName : QueueName} {status : JobStatus} {message : String} {payload : Json} :
    Keeps (OnSession (Silent s)) (event env jobId queueName status message payload) :=
  Keeps.bind uuid4_keeps fun _ => Keeps.bind now_keeps fun _ => add_silent trivial

theorem saveRequest_silent {answer : SatAnswer} {requestedAt : DateTime} {file : StoredFile} :
    Keeps (OnSession (Silent s)) (saveRequest env q jobId answer requestedAt file) :=
  Keeps.bind now_keeps fun _ => Keeps.bind (add_silent trivial) fun _ => event_silent

theorem savePackage_silent {requestId packageId : String} {requestedAt : DateTime} {file : StoredFile}
    {existing : Option SatPackageRecord} :
    Keeps (OnSession (Silent s)) (savePackage env q requestId packageId requestedAt file existing) := by
  unfold savePackage
  cases existing with
  | none => exact Keeps.bind now_keeps fun _ => Keeps.bind now_keeps fun _ => add_silent trivial
  | some row =>
      exact Keeps.bind now_keeps fun _ => Keeps.bind now_keeps fun _ =>
        update_silent (clashes_changePackage fun _ => rfl) fun _ => ⟨rfl, rfl, rfl, rfl, rfl⟩

theorem downloadAndStore_silent {requestId packageId : String} {requestedAt : DateTime}
    {existing : Option SatPackageRecord} :
    Keeps (OnSession (Silent s))
      (downloadAndStore env q jobId requestId packageId requestedAt existing) := by
  refine Keeps.bind downloadPackage_keeps fun _ => Keeps.bind storagePeriod_keeps fun _ => ?_
  refine Keeps.bind packageKey_keeps fun _ => Keeps.bind writeBytesIdempotent_keeps fun _ => ?_
  exact Keeps.bind savePackage_silent fun _ => Keeps.bind event_silent fun _ => Keeps.pure _

theorem markSucceeded_silent : Keeps (OnSession (Silent s)) (markSucceeded env jobId) := by
  refine Keeps.bind select_keeps fun job => ?_
  split
  · exact Keeps.bind now_keeps fun _ =>
      update_silent clashes_setJobStatus fun _ => ⟨rfl, rfl, rfl, rfl, rfl⟩
  · exact Keeps.pure _

/-- What silent stretches keep, a silent program keeps. -/
theorem keeps_of_silent {α : Type} {p : Recovery α} {K : Session Db Row → Prop}
    (hK : ∀ s t, Silent s t → K s → K t) (h : ∀ s, Keeps (OnSession (Silent s)) p) :
    Keeps (OnSession K) p := by
  intro w hw
  have hsilent := h w.session w (Silent.refl _)
  rcases hx : p.exec w with ⟨e | a, t⟩
  · rw [hx] at hsilent
    exact hK _ _ hsilent hw
  · rw [hx] at hsilent
    exact hK _ _ hsilent hw

end Programs

/-! ## The turns of a job -/

/-- The loads of the XML stage of a query. -/
def XmlLoads (env : Env) (q : DownloadQuery) (contents : List (String × Bytes))
    (loads : List (String × String)) : Prop :=
  if q.requestType = .cfdi then packagesLoads env (contents.foldl assign []) = .ok loads else loads = []

/-- The digest under which the metadata of an answer is recorded. -/
def answerSha256 (env : Env) (answer : SatAnswer) : String :=
  sha256Bytes env (metadataCsvBytes answer.requestId answer.packages answer.metadata)

/-- The turns of a job whose answer is recorded: its metadata, then the XML of its
packages. -/
def JobTurns (env : Env) (q : DownloadQuery) (answer : SatAnswer) (turns : List Action) : Prop :=
  ∃ contents loads, contents.map (·.1) = answer.packages ∧ XmlLoads env q contents loads ∧
    turns = ingestion q answer.metadata (answerSha256 env answer) ++ loading q loads

section Job

variable {env : Env} {q : DownloadQuery} {jobId : String} {s : Session Db Row}

theorem writeBytesIdempotent_digest {key : String} {content : Bytes} {J : Session Db Row → Prop} :
    Ensures (OnSession J) (writeBytesIdempotent env key content)
      fun file w => OnSession J w ∧ file.sha256 = sha256Bytes env content := by
  refine Spec.bind (Ensures.ofKeeps storageStep_keeps) fun path =>
    Spec.bind (Ensures.ofKeeps disk_keeps) fun existing => ?_
  cases existing with
  | none => exact Spec.bind (Ensures.ofKeeps writeFile_keeps) fun _ => Spec.pure _ fun _ h => ⟨h, rfl⟩
  | some bytes =>
      exact Spec.bind (Ensures.ofKeeps (Keeps.raiseIf _ _)) fun _ => Spec.pure _ fun _ h => ⟨h, rfl⟩

theorem fetchPackage_named {requestId packageId : String} {requestedAt : DateTime} :
    Ensures (OnSession (Silent s)) (fetchPackage env q jobId requestId requestedAt packageId)
      fun content w => OnSession (Silent s) w ∧ content.1 = packageId := by
  refine Spec.bind (Ensures.ofKeeps select_keeps) fun _ =>
    Spec.bind (Ensures.ofKeeps storedContent_keeps) fun stored => ?_
  cases stored with
  | none =>
      exact Spec.bind (Ensures.ofKeeps downloadAndStore_silent) fun _ => Spec.pure _ fun _ h => ⟨h, rfl⟩
  | some content =>
      exact Spec.bind (Ensures.ofKeeps event_silent) fun _ => Spec.pure _ fun _ h => ⟨h, rfl⟩

theorem flush_merges : Ensures (OnSession fun t => t = s) (flush env)
    fun _ => OnSession fun t => Fits s ∧ t = ⟨s.committed, merged s, []⟩ := by
  rintro w rfl
  rw [exec_flush]
  split
  · trivial
  · cases hflush : w.session.flush? insert with
    | none => trivial
    | some t => exact flush?_eq_some_iff.mp hflush

/-- The flush of a batch makes its turns on the database. -/
theorem flush_ingests {d : Db} (hsilent : Silent (Session.idle d) s) {metadata : List MetadataEntry}
    {metadataSha256 : String} :
    Ensures (OnSession fun t => EntriesFrom env.rt q metadataSha256 s metadata t) (flush env)
      fun _ => OnSession fun t => t.pending = [] ∧
        FreeSteps env.rt (ingestion q metadata metadataSha256) d (merged t) := by
  intro w hentries
  refine Spec.weaken flush_merges (fun _ h => h) ?_ (fun _ _ h => h) w rfl
  rintro _ v ⟨hfits, hv⟩
  have hnone : NonePending evidenceRows s := hsilent.nonePending
    (fun _ => OutsideBooks.evidenceRows) fun row hrow => absurd hrow List.not_mem_nil
  obtain ⟨-, -, hsteps⟩ := EntriesFrom.steps hentries hfits hnone
  have hsession : v.session = ⟨w.session.committed, merged w.session, []⟩ := hv
  refine ⟨by rw [hsession], ?_⟩
  rw [hsession]
  exact hsteps.congr (fun _ _ _ _ _ => trivial) hsilent.books

theorem contents_ids {packageIds : List String} {contents : List (String × Bytes)}
    (h : List.Forall₂ (fun packageId content => content.1 = packageId) packageIds contents) :
    contents.map (·.1) = packageIds := by
  induction h with
  | nil => rfl
  | cons hname _ ih => rw [List.map_cons, hname, ih]

/-- The XML stage makes the turns of its loads. -/
theorem storeXmlPackages_loads {contents : List (String × Bytes)} :
    Ensures (OnSession fun t => t = s) (storeXmlPackages env q jobId contents)
      fun _ => OnSession fun t => ∃ loads middle,
        (if q.requestType = .cfdi then packagesLoads env contents = .ok loads else loads = []) ∧
        LoadsFrom q s loads middle ∧ Silent middle t := by
  unfold storeXmlPackages
  split
  · refine Spec.bind storePackages_loads fun counts => ?_
    intro w hw
    obtain ⟨loads, hloads, hfrom⟩ := hw
    refine Spec.weaken (Ensures.ofKeeps (event_silent (s := w.session))) (fun _ h => h) ?_
      (fun _ _ h => h) w (Silent.refl _)
    exact fun _ v hsilent => ⟨loads, w.session, hloads, hfrom, hsilent⟩
  · rintro w rfl
    exact ⟨[], w.session, rfl, .nil _, .refl _⟩

/-- The session of a job between its metadata and its commit. -/
def Turned (env : Env) (q : DownloadQuery) (answer : SatAnswer) (d : Db) (t : Session Db Row) : Prop :=
  Fits t → ∃ turns, JobTurns env q answer turns ∧ FreeSteps env.rt turns d (merged t)

theorem turned_silent {answer : SatAnswer} {d : Db} (t u : Session Db Row) (hsilent : Silent t u)
    (h : Turned env q answer d t) : Turned env q answer d u := by
  intro hfits
  obtain ⟨turns, hturns, hsteps⟩ := h (hsilent.fits hfits)
  exact ⟨turns, hturns, hsteps.silent hsilent.books⟩

/-- From its packages on, the transaction of a job makes the turns of its metadata and of
the XML in its packages. -/
theorem finish_turned {d : Db} {answer : SatAnswer} {contents : List (String × Bytes)}
    (hids : contents.map (·.1) = answer.packages) (hsilent : Silent (Session.idle d) s) :
    Ensures (OnSession fun t => t = s) (do
      let upserted ← upsertMetadata env q answer.metadata (answerSha256 env answer)
      flush env
      event env jobId .cfdiParseMetadata .succeeded ("metadata rows=" ++ toString upserted) (.obj [])
      storeXmlPackages env q jobId (contents.foldl assign [])
      event env jobId .cfdiReconcile .succeeded "metadata reconciled" (.obj [])
      markSucceeded env jobId)
      fun _ => OnSession (Turned env q answer d) := by
  refine Spec.bind (M := fun _ => OnSession fun t => EntriesFrom env.rt q (answerSha256 env answer) s
    answer.metadata t) (upsertMetadata_from fun _ _ => trivial) fun upserted => ?_
  refine Spec.bind (flush_ingests hsilent) fun _ => ?_
  rintro w ⟨hempty, hingested⟩
  refine Spec.bind (Ensures.ofKeeps (event_silent (s := w.session))) (fun _ => ?_) w (Silent.refl _)
  intro v hevent
  refine Spec.bind storeXmlPackages_loads (fun _ => ?_) v rfl
  rintro u ⟨loads, middle, hloads, hfrom, hlater⟩
  -- what follows the XML stage is silent
  have hrest : Keeps (OnSession (Turned env q answer d)) (do
      event env jobId .cfdiReconcile .succeeded "metadata reconciled" (.obj [])
      markSucceeded env jobId) :=
    Keeps.bind (keeps_of_silent turned_silent fun _ => event_silent) fun _ =>
      keeps_of_silent turned_silent fun _ => markSucceeded_silent
  refine Ensures.ofKeeps hrest u (turned_silent middle u.session hlater fun hfits => ?_)
  have hnone : NonePending ledgerRows v.session := by
    refine hevent.nonePending (fun row hrow => ?_) fun row hrow => ?_
    · cases row <;> first | rfl | exact hrow.elim
    · rw [hempty] at hrow
      cases hrow
  obtain ⟨-, -, hloaded⟩ := @LoadsFrom.steps env.rt _ _ _ _ hfrom hfits hnone
  refine ⟨_, ⟨contents, loads, hids, hloads, rfl⟩, ?_⟩
  exact hingested.append (fun _ _ _ _ _ => trivial) (hloaded.congr (fun _ _ _ _ _ => trivial) hevent.books)

/-- The transaction of a job makes its turns. -/
theorem recordSteps_turned {d : Db} {answer : SatAnswer} {requestedAt : DateTime} :
    Ensures (OnSession fun s => s = Session.idle d) (recordSteps env q jobId answer requestedAt)
      fun _ => OnSession (Turned env q answer d) := by
  refine Spec.bind (Ensures.ofKeeps storagePeriod_keeps) fun _ => ?_
  refine Spec.bind (Ensures.ofKeeps metadataKey_keeps) fun _ => ?_
  refine Spec.bind writeBytesIdempotent_digest fun file => ?_
  rintro w ⟨hw, hdigest⟩
  rw [show file.sha256 = answerSha256 env answer from hdigest]
  have hidle : w.session = Session.idle d := hw
  have hstart : OnSession (Silent (Session.idle d)) w := by
    change Silent (Session.idle d) w.session
    rw [hidle]
    exact .refl _
  refine Spec.bind (Ensures.ofKeeps saveRequest_silent) (fun _ => ?_) w hstart
  refine Spec.bind (Ensures.collect_results fun packageId _ => fetchPackage_named) fun contents => ?_
  rintro v ⟨hsilent, hnames⟩
  exact finish_turned (contents_ids hnames) hsilent v rfl

/-- The turns of a job as an account of its transaction. -/
theorem recordAnswer_turns {d : Db} {answer : SatAnswer} {requestedAt : DateTime} :
    Spec (fun w => w.db = d) (recordAnswer env q jobId answer requestedAt)
      (fun _ w => w.session = Session.idle w.db ∧
        ∃ turns, JobTurns env q answer turns ∧ FreeSteps env.rt turns d w.db)
      (fun _ w => w.session = Session.idle d) := by
  refine withSession_spec
    (Q := fun _ e => ∃ turns, JobTurns env q answer turns ∧ FreeSteps env.rt turns d e) ?_
  have hcommitted : Keeps (OnSession fun s => s.committed = d)
      (recordSteps env q jobId answer requestedAt) :=
    recordSteps_keeps (committed_stable q.tenantId jobId d) fun _ _ h => h
  have hsteps : Spec (fun w => w.session = Session.idle d)
      (recordSteps env q jobId answer requestedAt)
      (fun _ => OnSession fun s => Turned env q answer d s ∧ s.committed = d) fun _ w => w.db = d := by
    refine Spec.weaken (Ensures.spec recordSteps_turned hcommitted) (fun w hw => ?_)
      (fun _ _ h => h) fun _ _ h => h
    exact ⟨hw, congrArg Session.committed hw⟩
  refine Spec.bind hsteps fun _ => commit_spec (P := Turned env q answer d)
    (Q := fun e => ∃ turns, JobTurns env q answer turns ∧ FreeSteps env.rt turns d e) ?_
  intro s t hturned hflush
  obtain ⟨hfits, rfl⟩ := flush?_eq_some_iff.mp hflush
  exact hturned hfits

/-- A job that returns has made the turns of SAT's answer; one that raises has left the
books alone. -/
theorem processSatRequestJob_turns {d : Db} {calls : List SatCall} :
    Spec (fun w => w.db = d ∧ w.sat = calls) (processSatRequestJob env q jobId)
      (fun _ w => ∃ answer turns, satAnswer env q calls = .ok answer ∧
        JobTurns env q answer turns ∧ FreeSteps env.rt turns d w.db)
      (fun _ w => SameBooks d w.db) := by
  have hrunning : ∀ e, (e = d ∨ ∃ time, e = setJobStatus jobId .running time d) → SameBooks d e := by
    rintro e (rfl | ⟨time, rfl⟩)
    · exact .refl _
    · exact ⟨rfl, rfl, rfl, rfl, rfl⟩
  refine Spec.weaken (processSatRequestJob_records (R := fun answer before after =>
      ∃ turns, JobTurns env q answer turns ∧ FreeSteps env.rt turns before after)
    fun _ _ _ => recordAnswer_turns) (fun _ h => h) ?_ fun _ w hw => hrunning w.db hw.2
  rintro _ w ⟨-, answer, hanswer, -, between, hbetween, turns, hturns, hsteps⟩
  exact ⟨answer, turns, hanswer, hturns,
    hsteps.congr (fun _ _ _ _ _ => trivial) (hrunning between hbetween)⟩

/-- A synchronization that returns has made the turns of SAT's answer, or it has found or
enqueued its job and left the books alone, as one that raises does. -/
theorem syncMetadata_turns {d : Db} {drawn : Nat} {calls : List SatCall} {live enqueue : Bool} :
    Spec (fun w => w.db = d ∧ w.uuids = drawn ∧ w.sat = calls) (syncMetadata env q live enqueue)
      (fun _ w => SameBooks d w.db ∨ ∃ answer turns, satAnswer env q calls = .ok answer ∧
        JobTurns env q answer turns ∧ FreeSteps env.rt turns d w.db)
      (fun _ w => SameBooks d w.db) := by
  have htenants : ∀ {e}, TenantsFrom d e → SameBooks d e := by
    rintro e ⟨tenants, rfl⟩
    exact ⟨rfl, rfl, rfl, rfl, rfl⟩
  have hopened : ∀ {enqueue createdAt between jobId e},
      Opened env q enqueue createdAt drawn between (.created jobId) e → SameBooks between e := by
    rintro enqueue createdAt between jobId e ⟨-, -, -, event, -, rfl⟩
    exact ⟨rfl, rfl, rfl, rfl, rfl⟩
  refine Spec.weaken (syncMetadata_course (R := fun _ answer before after =>
      ∃ turns, JobTurns env q answer turns ∧ FreeSteps env.rt turns before after)
    fun _ _ _ _ => recordAnswer_turns) (fun _ h => h) ?_ ?_
  · intro result w hsynced
    cases hsynced with
    | replayed h _ => exact .inl (htenants h)
    | enqueued h _ h' => exact .inl ((htenants h).trans (hopened h'))
    | processed h _ h' hanswer hrunning hrecorded =>
        obtain ⟨turns, hturns, hsteps⟩ := hrecorded
        refine .inr ⟨_, turns, hanswer, hturns, hsteps.congr (fun _ _ _ _ _ => trivial) ?_⟩
        refine (htenants h).trans ((hopened h').trans ?_)
        rcases hrunning with hsame | ⟨time, hset⟩
        · rw [hsame]
          exact .refl _
        · rw [hset]
          exact ⟨rfl, rfl, rfl, rfl, rfl⟩
  · intro e w hleft
    generalize w.db = after at hleft ⊢
    cases hleft with
    | untouched => exact .refl _
    | tenant h => exact htenants h
    | job h h' => exact (htenants h).trans (hopened h')
    | running h h' => exact ((htenants h).trans (hopened h')).trans ⟨rfl, rfl, rfl, rfl, rfl⟩

end Job

/-! ## The turns of a file -/

section Ingest

variable {env : Env} {q : DownloadQuery}

theorem ingest_turns {d : Db} {metadata : List MetadataEntry} {metadataSha256 : String} :
    Spec (fun w => w.db = d) (withSession do
        let count ← upsertMetadata env q metadata metadataSha256
        commit env
        pure count)
      (fun _ w => FreeSteps env.rt (ingestion q metadata metadataSha256) d w.db)
      (fun _ w => w.db = d) := by
  refine Spec.weaken (withSession_spec (d := d) (Q := fun _ e =>
    FreeSteps env.rt (ingestion q metadata metadataSha256) d e) ?_) (fun _ h => h)
    (fun _ _ h => h.2) fun _ _ h => db_of_idle h
  have hcommitted : Keeps (OnSession fun s => s.committed = d)
      (upsertMetadata env q metadata metadataSha256) :=
    upsertMetadata_keeps (committed_stable q.tenantId "" d).books
  have hentries : Spec (fun w => w.session = Session.idle d) (upsertMetadata env q metadata metadataSha256)
      (fun _ => OnSession fun s => EntriesFrom env.rt q metadataSha256 (Session.idle d) metadata s ∧
        s.committed = d) fun _ w => w.db = d := by
    refine Spec.weaken (Ensures.spec (upsertMetadata_from fun _ _ => trivial) hcommitted)
      (fun w hw => ?_) (fun _ _ h => h) fun _ _ h => h
    exact ⟨hw, congrArg Session.committed hw⟩
  refine Spec.bind hentries fun count => Spec.bind (commit_spec
    (Q := fun e => FreeSteps env.rt (ingestion q metadata metadataSha256) d e) ?_) fun _ =>
    Spec.pure _ fun _ h => h
  intro s t hfrom hflush
  obtain ⟨hfits, rfl⟩ := flush?_eq_some_iff.mp hflush
  exact (hfrom.steps hfits fun row hrow => absurd hrow List.not_mem_nil).2.2

/-- A file that is ingested makes the turns of its entries. -/
theorem ingestMetadataFile_turns {d : Db} {content : Bytes} {delimiter : Option String}
    {sourcePackageId : String} :
    Spec (fun w => w.db = d) (ingestMetadataFile env q content delimiter sourcePackageId)
      (fun _ w => ∃ parsed, env.parseMetadata content delimiter sourcePackageId = .ok parsed ∧
        FreeSteps env.rt (ingestion q parsed.entries (sha256Bytes env content)) d w.db)
      (fun _ w => SameBooks d w.db) := by
  have htenants : ∀ {e}, TenantsFrom d e → SameBooks d e := by
    rintro e ⟨tenants, rfl⟩
    exact ⟨rfl, rfl, rfl, rfl, rfl⟩
  have hvalidated : Spec (fun w : World => w.db = d) (validated q) (fun _ w => w.db = d)
      fun _ w => SameBooks d w.db := by
    refine Spec.weaken (Keeps.raiseIf (I := fun w : World => w.db = d) _ _) (fun _ h => h)
      (fun _ _ h => h) fun _ w hw => ?_
    rw [show w.db = d from hw]
    exact .refl d
  have htenant : Spec (fun w => w.db = d) (initTenant env q.tenantId q.requesterRfc (some q.tenantId))
      (fun _ w => TenantsFrom d w.db) fun _ w => SameBooks d w.db := by
    refine Spec.weaken initTenant_spec (fun _ h => h) (fun _ _ h => h.2) fun _ w hw => ?_
    rw [db_of_idle hw]
    exact .refl d
  -- what the steps before the batch keep
  let J : Session Db Row → Prop := fun s => TenantsFrom d s.committed
  have hkept : ∀ {α : Type} {p : Recovery α}, Keeps (OnSession J) p →
      Spec (OnSession J) p (fun _ => OnSession J) fun _ w => SameBooks d w.db :=
    fun hp => Spec.weaken hp (fun _ h => h) (fun _ _ h => h) fun _ _ h => htenants h
  unfold ingestMetadataFile
  refine Spec.bind hvalidated fun _ => Spec.bind htenant fun _ => ?_
  intro w hw
  rw [Prog.exec_bind, Prog.exec_ofExcept]
  cases hparsed : env.parseMetadata content delimiter sourcePackageId with
  | error e => exact htenants hw
  | ok parsed =>
    refine Spec.bind (hkept storagePeriod_keeps) (fun period => ?_) w hw
    refine Spec.bind (hkept metadataKey_keeps) fun key => ?_
    refine Spec.bind (Spec.weaken (Ensures.spec (writeBytesIdempotent_digest (J := J))
      (writeBytesIdempotent_keeps (J := J))) (fun _ h => ⟨h, h⟩) (fun _ _ h => h.1) fun _ _ h =>
        htenants h) fun file => ?_
    rintro v ⟨hv, hdigest⟩
    have hbooks : SameBooks d v.db := htenants hv
    refine Spec.bind (Spec.weaken (ingest_turns (d := v.db)) (fun _ h => h) (fun _ _ h => h)
      fun _ u hu => ?_) (fun count => Spec.pure _ fun u hsteps => ?_) v rfl
    · rw [show u.db = v.db from hu]
      exact hbooks
    · exact ⟨parsed, rfl, hdigest ▸ hsteps.congr (fun _ _ _ _ _ => trivial) hbooks⟩

end Ingest

/-! ## The turns of a reconciliation -/

section Reconcile

variable {env : Env} {rt : Runtime} {s t : Session Db Row}

/-- Reconciled rows in a session, one after the other. -/
inductive RowsFrom (rt : Runtime) :
    Session Db Row → List CfdiMetadataLedger → Session Db Row → Prop
  | nil (s : Session Db Row) : RowsFrom rt s [] s
  | cons {s t : Session Db Row} {row : CfdiMetadataLedger} {rest : List CfdiMetadataLedger}
      {writes : List Write} (hwrites : ReconcileWrites row (reconciledState rt row s.working) writes)
      (hrest : RowsFrom rt (writeAll writes s) rest t) : RowsFrom rt s (row :: rest) t

theorem reconcileRows_from {rows : List CfdiMetadataLedger} :
    Ensures (OnSession fun t => t = s) (Prog.collect rows (reconcileRow env))
      fun _ => OnSession fun t => RowsFrom env.rt s rows t := by
  induction rows generalizing s with
  | nil =>
      rintro w rfl
      exact .nil _
  | cons row rest ih =>
      refine writes_then (reconcileRow_writes fun _ _ => trivial) fun _ writes hwrites => ?_
      refine Spec.bind ih fun _ => Spec.pure _ fun w hw => ?_
      exact .cons hwrites hw

/-- The action that reconciles a row. -/
def rowAction (row : CfdiMetadataLedger) : Action := .reconcile row.tenantId row.uuid row.direction

/-- The rows of a list are those that their keys find. -/
def Current (rows : List CfdiMetadataLedger) (d : Db) : Prop :=
  ∀ row ∈ rows, findLedger row.tenantId row.uuid row.direction d = some row

theorem ReconcileWrites.noDocument {row : CfdiMetadataLedger} {state : String} {writes : List Write}
    (h : ReconcileWrites row state writes) : NoneAdded documentRows writes := by
  cases h <;> simp [NoneAdded, documentRows]

theorem ReconcileWrites.current {row : CfdiMetadataLedger} {state : String} {writes : List Write}
    {rest : List CfdiMetadataLedger} (h : ReconcileWrites row state writes)
    (hothers : ∀ other ∈ rest,
      ¬ (row.tenantId = other.tenantId ∧ row.uuid = other.uuid ∧ row.direction = other.direction))
    (hcurrent : Current rest s.working) : Current rest (writeAll writes s).working := by
  cases h with
  | stays => exact hcurrent
  | changes =>
      intro other hother
      change findLedger _ _ _ (changeLedger row.tenantId row.uuid row.direction (withState state) _) = _
      rw [findLedger_change (withState_key state), if_neg fun hsame =>
        hothers other hother ⟨hsame.1.symm, hsame.2.1.symm, hsame.2.2.symm⟩]
      exact hcurrent other hother

/-- Reconciled rows that can be flushed are a run on the database. -/
theorem RowsFrom.steps {rows : List CfdiMetadataLedger} (h : RowsFrom rt s rows t) (hfits : Fits t)
    (hcurrent : Current rows s.working) (hdistinct : rows.Pairwise fun a b =>
      ¬ (a.tenantId = b.tenantId ∧ a.uuid = b.uuid ∧ a.direction = b.direction))
    (hdocuments : NonePending documentRows s) :
    Fits s ∧ FreeSteps rt (rows.map rowAction) (merged s) (merged t) := by
  induction h with
  | nil s => exact ⟨hfits, .nil (.refl _)⟩
  | cons hwrites hrest ih =>
      obtain ⟨hrow, hothers⟩ := List.forall_mem_cons.mp hcurrent
      obtain ⟨hfirst, hdistinct'⟩ := List.pairwise_cons.mp hdistinct
      have hnone : NoneAdded documentRows _ := hwrites.noDocument
      obtain ⟨hfits', hsteps⟩ := ih hfits (hwrites.current hfirst hothers) hdistinct'
        (hnone.writeAll hdocuments)
      obtain ⟨hmerged, hsettled⟩ := hwrites.settled hfits'
        (findLedger_isSome.mp (Option.isSome_of_mem hrow)) hdocuments
      refine ⟨hfits'.before, .cons trivial ⟨_, findLedger_merged hrow, hmerged⟩ ?_⟩
      rwa [← hsettled]

theorem reconcileRow_committed {row : CfdiMetadataLedger} {d : Db} :
    Keeps (OnSession fun s => s.committed = d) (reconcileRow env row) := by
  refine Keeps.bind select_keeps fun existing => ?_
  have hadd : ∀ row, Keeps (OnSession fun s => s.committed = d) (add row) :=
    fun _ => Keeps.act fun _ hw => hw
  have hupdate : ∀ change, Keeps (OnSession fun s => s.committed = d) (update change) :=
    fun _ => Keeps.act fun _ hw => hw
  dsimp only
  generalize (if hasXmlSha existing = true then ReconciliationState.xmlDownloaded.value else _) = newState
  split
  · exact Keeps.bind now_keeps fun _ => Keeps.bind (hadd _) fun _ => Keeps.bind (hupdate _) fun _ =>
      Keeps.pure _
  · exact Keeps.pure _

/-- A reconciliation makes the turns of the rows that it visits. -/
theorem reconcile_turns {d : Db} {tenantId : Option String} (hunique : Unique d) :
    Spec (fun w => w.db = d) (reconcile env tenantId)
      (fun _ w => FreeSteps env.rt ((ledgerOf tenantId d).map rowAction) d w.db)
      (fun _ w => w.db = d) := by
  let turns := (ledgerOf tenantId d).map rowAction
  have hsublist : (ledgerOf tenantId d).Sublist d.ledger := by
    unfold ledgerOf
    split
    · exact .refl _
    · exact List.filter_sublist
  have hcurrent : Current (ledgerOf tenantId d) d := fun row hrow =>
    findLedger_of_mem hunique (hsublist.mem hrow) ⟨rfl, rfl, rfl⟩
  refine Spec.weaken (withSession_spec (d := d) (Q := fun _ e => FreeSteps env.rt turns d e) ?_)
    (fun _ h => h) (fun _ _ h => h.2) fun _ _ h => db_of_idle h
  intro w hw
  rw [Prog.exec_bind, exec_select]
  by_cases hfails : env.databaseFails w.databaseOps
  · rw [if_pos hfails]
    exact db_of_idle hw
  · rw [if_neg hfails, Prog.follow_ok, show w.session.working = d from hw ▸ rfl]
    have hrows : Spec (fun w => w.session = Session.idle d)
        (Prog.collect (ledgerOf tenantId d) (reconcileRow env))
        (fun _ => OnSession fun s => RowsFrom env.rt (Session.idle d) (ledgerOf tenantId d) s ∧
          s.committed = d) fun _ w => w.db = d := by
      refine Spec.weaken (Ensures.spec reconcileRows_from
        (Keeps.collect fun _ _ => reconcileRow_committed)) (fun w hw => ?_) (fun _ _ h => h) fun _ _ h => h
      exact ⟨hw, congrArg Session.committed hw⟩
    refine Spec.bind hrows (fun changed => Spec.bind (commit_spec
      (Q := fun e => FreeSteps env.rt turns d e) ?_) fun _ => Spec.pure _ fun _ h => h) _ hw
    intro s t hfrom hflush
    obtain ⟨hfits, rfl⟩ := flush?_eq_some_iff.mp hflush
    exact (hfrom.steps hfits hcurrent (hunique.ledger.sublist hsublist)
      fun row hrow => absurd hrow List.not_mem_nil).2

end Reconcile

/-! ## Runs of calls -/

/-- A call of the service. -/
inductive Call where
  | sync (q : DownloadQuery) (live enqueue : Bool)
  | message (message : QueueMessage)
  | ingest (q : DownloadQuery) (content : Bytes) (delimiter : Option String) (sourcePackageId : String)
  | reconcile (tenantId : Option String)

/-- The world after a call. -/
def Call.world (env : Env) (w : World) : Call → World
  | .sync q live enqueue => ((syncMetadata env q live enqueue).exec w).2
  | .message queued => ((processQueueMessage env queued).exec w).2
  | .ingest q content delimiter sourcePackageId =>
      ((ingestMetadataFile env q content delimiter sourcePackageId).exec w).2
  | .reconcile tenantId => ((Recovery.reconcile env tenantId).exec w).2

/-- The turns of a call: those of SAT's answer, of the file or of the ledger, or none
where the call leaves the books alone. -/
inductive Turns (env : Env) (w : World) : Call → List Action → Prop
  | none {call : Call} : Turns env w call []
  | sync {q : DownloadQuery} {live enqueue : Bool} {answer : SatAnswer} {turns : List Action}
      (hanswer : satAnswer env q w.sat = .ok answer) (hturns : JobTurns env q answer turns) :
      Turns env w (.sync q live enqueue) turns
  | message {message : QueueMessage} {q : DownloadQuery} {answer : SatAnswer} {turns : List Action}
      (hquery : queryFromPayload (Json.toText env.textOf) message.payload = .ok q)
      (hanswer : satAnswer env q w.sat = .ok answer) (hturns : JobTurns env q answer turns) :
      Turns env w (.message message) turns
  | ingest {q : DownloadQuery} {content : Bytes} {delimiter : Option String} {sourcePackageId : String}
      {parsed : MetadataParseResult}
      (hparsed : env.parseMetadata content delimiter sourcePackageId = .ok parsed) :
      Turns env w (.ingest q content delimiter sourcePackageId)
        (ingestion q parsed.entries (sha256Bytes env content))
  | reconcile {tenantId : Option String} :
      Turns env w (.reconcile tenantId) ((ledgerOf tenantId w.db).map rowAction)

section Calls

variable {env : Env} {w : World}

theorem processQueueMessage_turns {message : QueueMessage} {d : Db} {calls : List SatCall} :
    Spec (fun w => w.db = d ∧ w.sat = calls) (processQueueMessage env message)
      (fun _ w => ∃ q answer turns,
        queryFromPayload (Json.toText env.textOf) message.payload = .ok q ∧
        satAnswer env q calls = .ok answer ∧ JobTurns env q answer turns ∧
        FreeSteps env.rt turns d w.db)
      (fun _ w => SameBooks d w.db) := by
  intro w hw
  unfold processQueueMessage
  rw [Prog.exec_bind, Prog.exec_ofExcept]
  cases hquery : queryFromPayload (Json.toText env.textOf) message.payload with
  | error e =>
      change SameBooks d w.db
      rw [hw.1]
      exact .refl d
  | ok q =>
      refine Spec.weaken processSatRequestJob_turns (fun _ h => h) ?_ (fun _ _ h => h) w hw
      rintro _ v ⟨answer, turns, hrest⟩
      exact ⟨q, answer, turns, rfl, hrest⟩

/-- Every call changes the books by its turns. -/
theorem call_turns (hunique : Unique w.db) (call : Call) :
    ∃ turns, Turns env w call turns ∧ FreeSteps env.rt turns w.db (call.world env w).db := by
  cases call with
  | sync q live enqueue =>
      have hspec := @syncMetadata_turns env q _ _ _ live enqueue w ⟨rfl, rfl, rfl⟩
      unfold Call.world
      dsimp only
      rcases hx : (syncMetadata env q live enqueue).exec w with ⟨e | result, v⟩
      · rw [hx] at hspec
        exact ⟨[], .none, .nil hspec⟩
      · rw [hx] at hspec
        rcases hspec with hsame | ⟨answer, turns, hanswer, hturns, hsteps⟩
        · exact ⟨[], .none, .nil hsame⟩
        · exact ⟨turns, .sync hanswer hturns, hsteps⟩
  | message message =>
      have hspec := @processQueueMessage_turns env message _ _ w ⟨rfl, rfl⟩
      unfold Call.world
      dsimp only
      rcases hx : (processQueueMessage env message).exec w with ⟨e | result, v⟩
      · rw [hx] at hspec
        exact ⟨[], .none, .nil hspec⟩
      · rw [hx] at hspec
        obtain ⟨q, answer, turns, hquery, hanswer, hturns, hsteps⟩ := hspec
        exact ⟨turns, .message hquery hanswer hturns, hsteps⟩
  | ingest q content delimiter sourcePackageId =>
      have hspec := @ingestMetadataFile_turns env q _ content delimiter sourcePackageId w rfl
      unfold Call.world
      dsimp only
      rcases hx : (ingestMetadataFile env q content delimiter sourcePackageId).exec w with ⟨e | result, v⟩
      · rw [hx] at hspec
        exact ⟨[], .none, .nil hspec⟩
      · rw [hx] at hspec
        obtain ⟨parsed, hparsed, hsteps⟩ := hspec
        exact ⟨_, .ingest hparsed, hsteps⟩
  | reconcile tenantId =>
      have hspec := @reconcile_turns env _ tenantId hunique w rfl
      unfold Call.world
      dsimp only
      rcases hx : (Recovery.reconcile env tenantId).exec w with ⟨e | result, v⟩
      · rw [hx] at hspec
        have hdb : v.db = w.db := hspec
        refine ⟨[], .none, .nil ?_⟩
        rw [hdb]
        exact .refl _
      · rw [hx] at hspec
        exact ⟨_, .reconcile, hspec⟩

end Calls

/-- The databases that calls lead to from the empty one, in any order and number, each call
one of those that are `Made`, in a world of its own on the same host. -/
inductive ReachableBy (rt : Runtime) (Made : Env → Call → Prop) : Db → Prop
  | start : ReachableBy rt Made {}
  | call {env : Env} {w : World} (h : ReachableBy rt Made w.db) (hrt : env.rt = rt) (call : Call)
      (hmade : Made env call) : ReachableBy rt Made (call.world env w).db

/-- The databases that any calls lead to. -/
abbrev Reachable (rt : Runtime) : Db → Prop := ReachableBy rt fun _ _ => True

/-- A run of calls that are `Made`, with its turns, each `Allowed` where it is taken. -/
inductive Run (rt : Runtime) (Made : Env → Call → Prop) (Allowed : Action → Db → Prop) :
    List Action → Db → Prop
  | start : Run rt Made Allowed [] {}
  | call {env : Env} {w : World} {actions turns : List Action} {call : Call}
      (h : Run rt Made Allowed actions w.db) (hrt : env.rt = rt) (hmade : Made env call)
      (hturns : Turns env w call turns) (hsteps : Steps rt Allowed turns w.db (call.world env w).db) :
      Run rt Made Allowed (actions ++ turns) (call.world env w).db

/-- A query for one tenant and one direction. -/
def ScopedQuery (tenantId : String) (direction : DownloadDirection) (q : DownloadQuery) : Prop :=
  q.tenantId = tenantId ∧ q.direction = direction

/-- A call whose queries are for one tenant and one direction. -/
def OnlyFor (tenantId : String) (direction : DownloadDirection) (env : Env) : Call → Prop
  | .sync q .. | .ingest q .. => ScopedQuery tenantId direction q
  | .message queued => ∀ q, queryFromPayload (Json.toText env.textOf) queued.payload = .ok q →
      ScopedQuery tenantId direction q
  | .reconcile _ => True

/-- A turn for one tenant and one direction. -/
def Action.Scoped (tenantId : String) (direction : DownloadDirection) : Action → Prop
  | .ingest q .. | .load q .. => ScopedQuery tenantId direction q
  | .reconcile .. => True

theorem JobTurns.scoped {env : Env} {tenantId : String} {direction : DownloadDirection} {q : DownloadQuery}
    {answer : SatAnswer} {turns : List Action} (h : JobTurns env q answer turns)
    (hq : ScopedQuery tenantId direction q) : ∀ action ∈ turns, action.Scoped tenantId direction := by
  obtain ⟨contents, loads, -, -, rfl⟩ := h
  refine List.forall_mem_append.mpr ⟨fun action haction => ?_, fun action haction => ?_⟩
  · obtain ⟨entry, -, rfl⟩ := List.mem_map.mp haction
    exact hq
  · obtain ⟨load, -, rfl⟩ := List.mem_map.mp haction
    exact hq

/-- The turns of a call for one tenant and one direction are for them. -/
theorem Turns.scoped {env : Env} {w : World} {tenantId : String} {direction : DownloadDirection}
    {call : Call} {turns : List Action} (h : Turns env w call turns)
    (hcall : OnlyFor tenantId direction env call) : ∀ action ∈ turns, action.Scoped tenantId direction := by
  cases h with
  | none => exact fun _ haction => absurd haction List.not_mem_nil
  | sync _ hturns => exact hturns.scoped hcall
  | message hquery _ hturns => exact hturns.scoped (hcall _ hquery)
  | ingest hparsed =>
      intro action haction
      obtain ⟨entry, -, rfl⟩ := List.mem_map.mp haction
      exact hcall
  | reconcile =>
      intro action haction
      obtain ⟨row, -, rfl⟩ := List.mem_map.mp haction
      trivial

theorem unique_empty : Unique {} := ⟨.nil, .nil, .nil⟩

namespace Run

variable {rt : Runtime} {Made : Env → Call → Prop} {Allowed : Action → Db → Prop}
variable {actions : List Action} {d : Db}

/-- What the empty database has and every allowed action keeps, a run establishes. -/
theorem holds {I : Db → Prop} (hstart : I {}) (hbooks : ∀ d e, SameBooks d e → I d → I e)
    (hstep : ∀ action d writes, Allowed action d → action.Writes rt d writes → I d →
      I (applyAll writes d))
    (h : Run rt Made Allowed actions d) : I d := by
  induction h with
  | start => exact hstart
  | call _ _ _ _ hsteps ih => exact hsteps.keeps hbooks hstep ih

theorem unique (h : Run rt Made Allowed actions d) : Unique d := by
  induction h with
  | start => exact unique_empty
  | call _ _ _ _ hsteps ih => exact hsteps.unique ih

/-- A condition that the turns of the calls satisfy may be added to those that allow them. -/
theorem restrict {P : Action → Prop} (h : Run rt Made Allowed actions d)
    (hturns : ∀ env w call turns, Made env call → Turns env w call turns → ∀ action ∈ turns, P action) :
    Run rt Made (fun action d => P action ∧ Allowed action d) actions d := by
  induction h with
  | start => exact .start
  | call _ hrt hmade hcall hsteps ih =>
      exact .call ih hrt hmade hcall (hsteps.restrict (hturns _ _ _ _ hmade hcall))

end Run

namespace ReachableBy

variable {rt : Runtime} {Made : Env → Call → Prop} {d : Db}

/-- Every database that calls lead to is that of a run. -/
theorem run (h : ReachableBy rt Made d) : ∃ actions, Run rt Made (fun _ _ => True) actions d := by
  induction h with
  | start => exact ⟨[], .start⟩
  | call _ hrt call hmade ih =>
      obtain ⟨actions, hrun⟩ := ih
      obtain ⟨turns, hturns, hsteps⟩ := call_turns hrun.unique call
      exact ⟨_, .call hrun hrt hmade hturns (hrt ▸ hsteps)⟩

theorem unique (h : ReachableBy rt Made d) : Unique d := by
  obtain ⟨actions, hrun⟩ := h.run
  exact hrun.unique

/-- What the empty database has and every action keeps holds wherever calls lead. -/
theorem holds {I : Db → Prop} (hstart : I {}) (hbooks : ∀ d e, SameBooks d e → I d → I e)
    (hstep : ∀ (action : Action) d writes, action.Writes rt d writes → I d → I (applyAll writes d))
    (h : ReachableBy rt Made d) : I d := by
  obtain ⟨actions, hrun⟩ := h.run
  exact hrun.holds hstart hbooks fun action d writes _ => hstep action d writes

end ReachableBy

end Recovery

end CfdiVault
