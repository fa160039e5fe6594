import CfdiVault.RecoveryReferences

/-!
# References over runs of calls

A transaction adds a row only behind the rows that it refers to: the tenant and the job are durable before
SAT is asked, and a SAT request is added before its packages.
-/

namespace CfdiVault

namespace Recovery

section Programs

variable {env : Env} {q : DownloadQuery} {tenantId jobId : String} {known fresh : List Ref}

/-- A durable database in which `known` is there. -/
def DurablyBacked (known : List Ref) (s : Session Db Row) : Prop := Backed known s.committed

/-- A statement of a transaction that may raise. -/
theorem begun {α : Type} {p : Recovery α} (h : Keeps (OnSession (BackedOn known fresh)) p) :
    Spec (OnSession (BackedOn known fresh)) p (fun _ => OnSession (BackedOn known fresh))
      fun _ => OnSession (DurablyBacked known) :=
  Spec.weaken h (fun _ hw => hw) (fun _ _ hw => hw) fun _ _ hw => hw.committed

/-- A commit makes durable what the transaction has added. -/
theorem commit_backed : Spec (OnSession (BackedOn known fresh)) (commit env)
    (fun _ => OnSession (DurablyBacked (known ++ fresh))) fun _ => OnSession (DurablyBacked known) := by
  intro w hw
  have hpublish : ∀ s t : Session Db Row, BackedOn known fresh s → s.flush? insert = some t →
      Backed (known ++ fresh) t.working := by
    intro s t hs hflush
    obtain ⟨-, rfl⟩ := flush?_eq_some_iff.mp hflush
    exact hs.merged
  have hspec := @commit_spec env _ _ w.db hpublish w ⟨hw, rfl⟩
  refine Spec.weaken (P := fun v => v = w) (fun v hv => by rw [hv]; exact hspec) (fun v hv => hv) (fun _ _ h => h)
    (fun _ v hv => ?_) w rfl
  have hdb : v.db = w.db := hv
  change Backed known v.db
  rw [hdb]
  exact hw.committed

/-- A session works on the durable database, and what it committed is durable behind it. -/
theorem withSession_backed {α : Type} {body : Recovery α} {known' : α → List Ref}
    (hbody : Spec (OnSession (BackedOn known [])) body (fun a => OnSession (DurablyBacked (known' a)))
      fun _ => OnSession (DurablyBacked known)) :
    Spec (OnSession (DurablyBacked known)) (withSession body) (fun a => OnSession (DurablyBacked (known' a)))
      fun _ => OnSession (DurablyBacked known) := by
  intro w hw
  have hspec := hbody { w with session := w.session.reset } (BackedOn.idle hw)
  unfold withSession
  rw [Prog.exec_bracket]
  rcases hx : body.exec { w with session := w.session.reset } with ⟨e | a, t⟩ <;> rw [hx] at hspec <;> exact hspec

/-- A row that the working copy shows is there. -/
theorem BackedOn.notice {s : Session Db Row} {ref : Ref} (h : BackedOn known fresh s)
    (href : owners.Resolved (rowsOf s.working) ref) : BackedOn known (fresh ++ [ref]) s := by
  refine ⟨h.committed, h.merged.closed, fun other hother => ?_⟩
  rw [← List.append_assoc] at hother
  rcases List.mem_append.mp hother with hother | hother
  · exact h.merged.known other hother
  · rw [List.mem_singleton.mp hother, rowsOf_merged]
    exact href.mono Set.subset_union_left

/-! ## Tenants and jobs -/

/-- A tenant is there once its transaction has returned. -/
theorem initTenant_backed {rfc : String} {name : Option String} :
    Spec (OnSession (DurablyBacked known)) (initTenant env tenantId rfc name)
      (fun _ => OnSession (DurablyBacked (known ++ [.tenant tenantId]))) fun _ => OnSession (DurablyBacked known) := by
  refine Spec.bind now_keeps fun createdAt => withSession_backed ?_
  intro w hw
  refine Spec.bind (P := OnSession fun t => t = w.session) (M := fun tenant v => v.session = w.session ∧
    tenant = w.session.working.tenants.find? fun t => t.id = tenantId) ?_ (fun tenant => ?_) w rfl
  · refine Spec.weaken (Ensures.spec select_spec (select_keeps (J := fun t => t = w.session)))
      (fun v hv => ⟨hv, hv⟩) (fun _ _ h => h.1) fun _ v hv => ?_
    have hsession : v.session = w.session := hv
    unfold OnSession
    rw [hsession]
    exact hw.committed
  · refine Spec.bind (M := fun _ => OnSession (BackedOn known [.tenant tenantId])) ?_ fun _ => commit_backed
    rintro v ⟨hv, hfound⟩
    have hbacked : BackedOn known [] v.session := hv ▸ hw
    cases tenant with
    | none => exact hbacked.provide (List.nil_subset _) rfl
    | some row =>
        have hid : row.id = tenantId := by simpa using List.find?_some hfound.symm
        have hrow : owners.Resolved (rowsOf v.session.working) (.tenant tenantId) :=
          ⟨.tenant row, hv ▸ List.mem_of_find?_eq_some hfound.symm, hid⟩
        exact (hbacked.notice hrow).rekey fun d => Rekeyed.renameTenant _ _ _ d

/-- The references to a new job. -/
def jobRefs (jobId tenantId : String) : List Ref := [.job jobId, .jobOf jobId tenantId]

/-- What is known once the job of a query is looked up. -/
def lookupRefs (tenantId : String) : JobLookup → List Ref
  | .replayed _ => []
  | .created jobId => jobRefs jobId tenantId

theorem openJob_backed {enqueue : Bool} {createdAt : DateTime} (htenant : .tenant q.tenantId ∈ known) :
    Spec (OnSession (DurablyBacked known)) (openJob env q enqueue createdAt)
      (fun lookup => OnSession (DurablyBacked (known ++ lookupRefs q.tenantId lookup)))
      fun _ => OnSession (DurablyBacked known) := by
  intro w hw
  have hspec := @openJob_spec env q enqueue createdAt w.db w.uuids w ⟨rfl, rfl⟩
  have hbacked : Backed known w.db := hw
  rcases hx : (openJob env q enqueue createdAt).exec w with ⟨e | lookup, t⟩
  · rw [hx] at hspec
    have hdb : t.db = w.db := db_of_idle hspec
    change Backed known t.db
    rw [hdb]
    exact hbacked
  · rw [hx] at hspec
    obtain ⟨-, hopened⟩ := hspec
    change Backed (known ++ lookupRefs q.tenantId lookup) t.db
    cases lookup with
    | replayed result =>
        obtain ⟨hsame, -⟩ := hopened
        rw [hsame, lookupRefs, List.append_nil]
        exact hbacked
    | created jobId =>
        obtain ⟨hjobId, -, -, event, hevent, hdb⟩ := hopened
        -- the job first, then its event
        have hjob : BackedOn known ([] ++ [.job jobId])
            ((Session.idle w.db).add (.job (newJob env q enqueue createdAt jobId))) :=
          (BackedOn.idle hbacked).provide (by simpa [Row.owners, newJob] using htenant) rfl
        have hjobOf : BackedOn known ([] ++ [.job jobId] ++ [.jobOf jobId q.tenantId])
            ((Session.idle w.db).add (.job (newJob env q enqueue createdAt jobId))) := by
          refine ⟨hjob.committed, hjob.merged.closed, fun ref href => ?_⟩
          rw [← List.append_assoc] at href
          rcases List.mem_append.mp href with href | href
          · exact hjob.merged.known ref href
          · rw [List.mem_singleton.mp href, merged_add, rowsOf_append]
            exact ⟨_, Set.mem_insert _ _, rfl, rfl⟩
        have howners : (Row.jobEvent event).owners ⊆ known ++ ([] ++ [.job jobId] ++ [.jobOf jobId q.tenantId]) := by
          simp [Row.owners, hevent]
        rw [hdb]
        exact (hjobOf.add howners).merged

/-! ## The transactions of a job -/

/-- What the steps of a job's transaction add, its tenant and its job being there, its tenant and its job
own. -/
theorem backed_books (htenant : .tenant tenantId ∈ known ++ fresh) (hjob : .job jobId ∈ known ++ fresh) :
    BooksStable tenantId jobId (BackedOn known fresh) where
  add _ _ hrow hpackage h := h.add (hrow.owners_subset hpackage htenant fun _ _ => hjob)
  update change s hchange hpackages h := by
    cases hchange with
    | ledger uuid direction change hkey => exact h.rekey (Rekeyed.changeLedger hkey)
    | document uuid change hkey => exact h.rekey (Rekeyed.changeDocument hkey)
    | package packageId change hkey =>
        have hsame : changePackage tenantId packageId change s.working = s.working := by
          have hpackage := hpackages s.working
          simp only [changePackage] at hpackage ⊢
          rw [hpackage]
        have hsession : s.update (changePackage tenantId packageId change) = s := by
          rw [Session.update, hsame]
        rwa [hsession]
    | job status time => exact h.rekey (Rekeyed.setJobStatus _ _ _)
  flush _ _ hflush h := h.flush hflush

theorem markRunning_backed {time : DateTime} :
    Keeps (OnSession (DurablyBacked known)) (markRunning env jobId time) := by
  intro w hw
  have hspec := @markRunning_spec env jobId w.db time w rfl
  have hbacked : Backed known w.db := hw
  rcases hx : (markRunning env jobId time).exec w with ⟨e | a, t⟩
  · rw [hx] at hspec
    have hdb : t.db = w.db := db_of_idle hspec
    change Backed known t.db
    rwa [hdb]
  · rw [hx] at hspec
    change Backed known t.db
    rcases hspec.2 with hsame | hset
    · rwa [hsame]
    · rw [hset]
      exact hbacked.replace (Rekeyed.setJobStatus _ _ _ _).owners fun _ href => href.elim

theorem savePackage_backed {requestId packageId : String} {requestedAt : DateTime} {file : StoredFile}
    {existing : Option SatPackageRecord} (htenant : .tenant q.tenantId ∈ known ++ fresh)
    (hrequest : .request q.tenantId requestId ∈ known ++ fresh) :
    Keeps (OnSession (BackedOn known fresh)) (savePackage env q requestId packageId requestedAt file existing) := by
  cases existing with
  | none =>
      refine Keeps.bind now_keeps fun downloadedAt => Keeps.bind now_keeps fun updatedAt => ?_
      exact Keeps.act fun w hw =>
        hw.add (List.cons_subset.mpr ⟨htenant, List.cons_subset.mpr ⟨hrequest, List.nil_subset _⟩⟩)
  | some row =>
      refine Keeps.bind now_keeps fun downloadedAt => Keeps.bind now_keeps fun updatedAt => Keeps.act fun w hw => ?_
      refine hw.replace (replaced_package (fun _ => rfl) fun _ => rfl) ?_
      rintro ref (rfl | rfl)
      · exact htenant
      · exact hrequest

theorem fetchPackage_backed {requestId packageId : String} {requestedAt : DateTime}
    (htenant : .tenant q.tenantId ∈ known ++ fresh) (hjob : .job jobId ∈ known ++ fresh)
    (hrequest : .request q.tenantId requestId ∈ known ++ fresh) :
    Keeps (OnSession (BackedOn known fresh)) (fetchPackage env q jobId requestId requestedAt packageId) := by
  have hbooks := backed_books htenant hjob
  refine Keeps.bind select_keeps fun existing => Keeps.bind storedContent_keeps fun stored => ?_
  cases stored with
  | some content => exact Keeps.bind (event_keeps hbooks) fun _ => Keeps.pure _
  | none =>
      refine Keeps.bind ?_ fun _ => Keeps.pure _
      refine Keeps.bind downloadPackage_keeps fun _ => Keeps.bind storagePeriod_keeps fun _ => ?_
      refine Keeps.bind packageKey_keeps fun _ => Keeps.bind writeBytesIdempotent_keeps fun _ => ?_
      refine Keeps.bind (savePackage_backed htenant hrequest) fun _ => ?_
      exact Keeps.bind (event_keeps hbooks) fun _ => Keeps.pure _

theorem saveRequest_backed {answer : SatAnswer} {requestedAt : DateTime} {file : StoredFile}
    (htenant : .tenant q.tenantId ∈ known) (hrefs : jobRefs jobId q.tenantId ⊆ known) :
    Spec (OnSession (BackedOn known [])) (saveRequest env q jobId answer requestedAt file)
      (fun _ => OnSession (BackedOn known [.request q.tenantId answer.requestId]))
      fun _ => OnSession (DurablyBacked known) := by
  obtain ⟨hjob, hjobOf⟩ : .job jobId ∈ known ∧ .jobOf jobId q.tenantId ∈ known := by
    simpa [jobRefs] using hrefs
  refine Spec.bind (begun now_keeps) fun lastVerifiedAt => ?_
  have hadd : Spec (OnSession (BackedOn known [])) (add (.request (newRequest env q jobId answer requestedAt
      lastVerifiedAt file))) (fun _ => OnSession (BackedOn known [.request q.tenantId answer.requestId]))
      fun _ => OnSession (DurablyBacked known) :=
    fun w hw => hw.provide (by simpa [Row.owners, newRequest] using ⟨htenant, hjobOf⟩) ⟨rfl, rfl⟩
  have hbooks : BooksStable q.tenantId jobId (BackedOn known [.request q.tenantId answer.requestId]) :=
    backed_books (List.mem_append_left _ htenant) (List.mem_append_left _ hjob)
  exact Spec.bind hadd fun _ => begun (event_keeps hbooks)

theorem recordAnswer_backed {answer : SatAnswer} {requestedAt : DateTime} (htenant : .tenant q.tenantId ∈ known)
    (hrefs : jobRefs jobId q.tenantId ⊆ known) :
    Keeps (OnSession (DurablyBacked known)) (recordAnswer env q jobId answer requestedAt) := by
  have hjob : .job jobId ∈ known := hrefs List.mem_cons_self
  have hbooks : BooksStable q.tenantId jobId (BackedOn known [.request q.tenantId answer.requestId]) :=
    backed_books (List.mem_append_left _ htenant) (List.mem_append_left _ hjob)
  -- the request is durable with the rest, but only its packages need it
  have hforget : ∀ s, DurablyBacked (known ++ [.request q.tenantId answer.requestId]) s → DurablyBacked known s :=
    fun _ h => h.weaken (List.subset_append_left _ _)
  refine withSession_backed (Spec.weaken (P := OnSession (BackedOn known [])) ?_ (fun _ hw => hw)
    (fun _ w hw => hforget w.session hw) fun _ _ hw => hw)
  refine Spec.bind (M := fun _ => OnSession (BackedOn known [.request q.tenantId answer.requestId])) ?_
    fun _ => commit_backed
  refine Spec.bind (begun storagePeriod_keeps) fun period => Spec.bind (begun metadataKey_keeps) fun key => ?_
  refine Spec.bind (begun writeBytesIdempotent_keeps) fun file => ?_
  refine Spec.bind (saveRequest_backed htenant hrefs) fun _ => ?_
  refine Spec.bind (begun (Keeps.collect fun _ _ => fetchPackage_backed (List.mem_append_left _ htenant)
    (List.mem_append_left _ hjob) (List.mem_append_right _ (List.mem_singleton_self _)))) fun contents => ?_
  refine begun (Keeps.bind (upsertMetadata_keeps hbooks) fun upserted => Keeps.bind (flush_keeps hbooks) fun _ => ?_)
  refine Keeps.bind (event_keeps hbooks) fun _ => Keeps.bind (storeXmlPackages_keeps hbooks) fun _ => ?_
  exact Keeps.bind (event_keeps hbooks) fun _ => markSucceeded_keeps hbooks

/-- A job whose tenant and row are there is processed with every reference kept. -/
theorem processSatRequestJob_backed (htenant : .tenant q.tenantId ∈ known) (hrefs : jobRefs jobId q.tenantId ⊆ known) :
    Keeps (OnSession (DurablyBacked known)) (processSatRequestJob env q jobId) := by
  refine Keeps.bind now_keeps fun requestedAt => Keeps.bind markRunning_backed fun _ => ?_
  refine Keeps.bind askSat_keeps fun answer => Keeps.bind (recordAnswer_backed htenant hrefs) fun _ => Keeps.pure _

/-! ## The transactions of a file and of a reconciliation -/

section Entries

variable {entry : MetadataEntry} {metadataSha256 : String} {time : DateTime}

theorem add_backed {row : Row} (hrow : row.owners ⊆ known ++ fresh) :
    Keeps (OnSession (BackedOn known fresh)) (add row) :=
  Keeps.act fun _ hw => hw.add hrow

theorem saveLedger_backed {newState : String} {existing : Option CfdiMetadataLedger}
    (htenant : .tenant q.tenantId ∈ known ++ fresh) :
    Keeps (OnSession (BackedOn known fresh)) (saveLedger q entry metadataSha256 newState time existing) := by
  have howner : [Ref.tenant q.tenantId] ⊆ known ++ fresh := List.cons_subset.mpr ⟨htenant, List.nil_subset _⟩
  cases existing with
  | none => exact Keeps.bind (add_backed howner) fun _ => add_backed howner
  | some row =>
      refine Keeps.bind (Keeps.act fun w hw => hw.rekey (Rekeyed.changeLedger fun _ => ⟨rfl, rfl, rfl⟩)) fun _ => ?_
      split
      · exact add_backed howner
      · exact Keeps.pure _

theorem saveMetadataDocument_backed {newState : String} {existing : Option CfdiDocument}
    (htenant : .tenant q.tenantId ∈ known ++ fresh) :
    Keeps (OnSession (BackedOn known fresh)) (saveMetadataDocument env q entry newState time existing) := by
  have howner : [Ref.tenant q.tenantId] ⊆ known ++ fresh := List.cons_subset.mpr ⟨htenant, List.nil_subset _⟩
  cases existing with
  | none =>
      refine Keeps.bind (add_backed howner) fun _ => Keeps.each fun row hrow => ?_
      rw [parties, List.mem_cons, List.mem_singleton] at hrow
      rcases hrow with rfl | rfl <;> exact add_backed howner
  | some row => exact Keeps.act fun w hw => hw.rekey (Rekeyed.changeDocument fun _ => ⟨rfl, rfl⟩)

theorem upsertMetadata_backed {metadata : List MetadataEntry} (htenant : .tenant q.tenantId ∈ known ++ fresh) :
    Keeps (OnSession (BackedOn known fresh)) (upsertMetadata env q metadata metadataSha256) := by
  refine Keeps.bind now_keeps fun time => Keeps.bind (Keeps.each fun entry _ => ?_) fun _ => Keeps.pure _
  refine Keeps.bind select_keeps fun existing => Keeps.bind select_keeps fun hasXml => ?_
  refine Keeps.bind (saveLedger_backed htenant) fun _ => ?_
  split
  · exact Keeps.bind select_keeps fun _ => saveMetadataDocument_backed htenant
  · exact Keeps.pure _

end Entries

theorem ingestMetadataFile_backed {content : Bytes} {delimiter : Option String} {sourcePackageId : String} :
    Keeps (OnSession (DurablyBacked known)) (ingestMetadataFile env q content delimiter sourcePackageId) := by
  let withTenant := known ++ [.tenant q.tenantId]
  have hforget : ∀ s, DurablyBacked withTenant s → DurablyBacked known s :=
    fun _ h => h.weaken (List.subset_append_left _ _)
  have htenant : Ref.tenant q.tenantId ∈ withTenant ++ [] := by simp [withTenant]
  refine Keeps.bind (Keeps.raiseIf _ _) fun _ => Spec.bind initTenant_backed fun _ => ?_
  refine Spec.weaken (P := OnSession (DurablyBacked withTenant)) (?_ : Keeps _ _) (fun _ hw => hw)
    (fun _ w hw => hforget w.session hw) fun _ w hw => hforget w.session hw
  refine Keeps.bind (Keeps.ofExcept _) fun parsed => Keeps.bind storagePeriod_keeps fun period => ?_
  refine Keeps.bind metadataKey_keeps fun key => Keeps.bind writeBytesIdempotent_keeps fun file => ?_
  refine Keeps.bind (withSession_backed ?_) fun _ => Keeps.pure _
  refine Spec.bind (begun (upsertMetadata_backed htenant)) fun count => ?_
  refine Spec.bind commit_backed fun _ => Spec.pure _ fun _ hw => ?_
  rwa [List.append_nil] at hw

theorem reconcileRow_backed {row : CfdiMetadataLedger} (htenant : .tenant row.tenantId ∈ known ++ fresh) :
    Keeps (OnSession (BackedOn known fresh)) (reconcileRow env row) := by
  refine Keeps.bind select_keeps fun existing => ?_
  dsimp only
  generalize (if hasXmlSha existing = true then ReconciliationState.xmlDownloaded.value else _) = newState
  split
  · refine Keeps.bind now_keeps fun createdAt => Keeps.bind (add_backed ?_) fun _ => Keeps.bind ?_ fun _ => Keeps.pure _
    · exact List.cons_subset.mpr ⟨htenant, List.nil_subset _⟩
    · exact Keeps.act fun w hw => hw.rekey (Rekeyed.changeLedger fun _ => ⟨rfl, rfl, rfl⟩)
  · exact Keeps.pure _

theorem reconcile_backed {tenantFilter : Option String} :
    Keeps (OnSession (DurablyBacked known)) (reconcile env tenantFilter) := by
  intro w₀ hw₀
  have hbody : Spec (OnSession (BackedOn known [])) (do
      let ledgers ← select env (ledgerOf tenantFilter)
      let changed ← Prog.collect ledgers (reconcileRow env)
      commit env
      pure (changed.filter id).length) (fun _ => OnSession (DurablyBacked known))
      fun _ => OnSession (DurablyBacked known) := by
    intro w hw
    refine Spec.bind (P := OnSession fun t => t = w.session) (M := fun rows v => v.session = w.session ∧
      rows = ledgerOf tenantFilter w.session.working) ?_ (fun rows => ?_) w rfl
    · refine Spec.weaken (Ensures.spec select_spec (select_keeps (J := fun t => t = w.session)))
        (fun v hv => ⟨hv, hv⟩) (fun _ _ h => h.1) fun _ v hv => ?_
      have hsession : v.session = w.session := hv
      unfold OnSession
      rw [hsession]
      exact hw.committed
    · rintro v ⟨hv, rfl⟩
      -- the tenants of the rows that are visited own them already
      let tenants := (ledgerOf tenantFilter w.session.working).map fun row => Ref.tenant row.tenantId
      have hstart : BackedOn known tenants v.session := by
        rw [hv]
        refine ⟨hw.committed, hw.merged.closed, fun ref href => ?_⟩
        rcases List.mem_append.mp href with href | href
        · exact hw.merged.known ref (List.mem_append_left _ href)
        · obtain ⟨row, hrow, rfl⟩ := List.mem_map.mp href
          have hstored : Row.ledger row ∈ rowsOf (merged w.session) := by
            rw [rowsOf_merged]
            refine .inl (List.Sublist.mem hrow ?_)
            unfold ledgerOf
            split
            · exact .refl _
            · exact List.filter_sublist
          exact hw.merged.closed _ hstored _ (List.mem_singleton_self _)
      have hforget : ∀ s, DurablyBacked (known ++ tenants) s → DurablyBacked known s :=
        fun _ h => h.weaken (List.subset_append_left _ _)
      refine Spec.bind (P := OnSession (BackedOn known tenants)) (begun (Keeps.collect fun row hrow => ?_))
        (fun changed => Spec.bind commit_backed fun _ => Spec.pure _ fun u hu => hforget u.session hu) v hstart
      exact reconcileRow_backed (List.mem_append_right _ (List.mem_map_of_mem hrow))
  exact withSession_backed hbody w₀ hw₀

/-! ## Synchronizations and their messages -/

/-- A message that a synchronization has published: it carries a query, whose tenant and job are durable. -/
def Asked (d : Db) (message : QueueMessage) : Prop :=
  ∃ rt q, message.payload = queryPayload rt q ∧ Backed (.tenant q.tenantId :: jobRefs message.jobId q.tenantId) d

/-- The messages published after the first ones are about durable jobs. -/
def AskedAfter (first : List QueueMessage) (w : World) : Prop :=
  ∃ new, w.queue = first ++ new ∧ ∀ message ∈ new, Asked w.db message

theorem enqueueJob_backed {first : List QueueMessage} (htenant : .tenant q.tenantId ∈ known)
    (hrefs : jobRefs jobId q.tenantId ⊆ known) :
    Spec (fun w => OnSession (DurablyBacked known) w ∧ w.queue = first) (enqueueJob env q jobId)
      (fun _ w => OnSession (DurablyBacked []) w ∧ AskedAfter first w)
      fun _ w => OnSession (DurablyBacked []) w ∧ AskedAfter first w := by
  refine Spec.bind (M := fun _ w => OnSession (DurablyBacked known) w ∧ w.queue = first) (fun w hw => hw)
    fun correlationId => ?_
  refine Spec.bind (M := fun _ w => OnSession (DurablyBacked known) w ∧ w.queue = first) (fun w hw => hw)
    fun createdAt => ?_
  refine Spec.bind (M := fun _ w => OnSession (DurablyBacked []) w ∧ AskedAfter first w) ?_
    fun _ => Spec.pure _ fun _ hw => hw
  rintro w ⟨hw, hqueue⟩
  have hbacked : Backed known w.db := hw
  unfold publishMessage
  rw [Prog.exec_act]
  split
  · refine ⟨hbacked.weaken (List.nil_subset _), _, congrArg (· ++ _) hqueue, fun message hmessage => ?_⟩
    rw [List.mem_singleton.mp hmessage]
    exact ⟨env.rt, q, rfl, hbacked.weaken (List.cons_subset.mpr ⟨htenant, hrefs⟩)⟩
  · exact ⟨hbacked.weaken (List.nil_subset _), [], hqueue.trans (List.append_nil _).symm,
      fun _ h => absurd h List.not_mem_nil⟩

/-- What a synchronization leaves behind, however it ends. -/
def SyncLeaves (enqueue : Bool) (first : List QueueMessage) (w : World) : Prop :=
  OnSession (DurablyBacked []) w ∧ (enqueue = true → AskedAfter first w)

theorem startJob_backed {enqueue : Bool} {job : JobLookup} {calls : List SatCall} {first : List QueueMessage}
    (htenant : .tenant q.tenantId ∈ known) :
    Spec (fun w => OnSession (DurablyBacked (known ++ lookupRefs q.tenantId job)) w ∧ Work calls first w)
      (startJob env q enqueue job) (fun _ => SyncLeaves enqueue first) fun _ => SyncLeaves enqueue first := by
  have hforget : ∀ refs s, DurablyBacked refs s → DurablyBacked [] s := fun _ _ h => h.weaken (List.nil_subset _)
  cases job with
  | replayed result =>
      refine Spec.pure _ fun w hw => ⟨hforget _ _ hw.1, fun _ => ⟨[], ?_, fun _ h => absurd h List.not_mem_nil⟩⟩
      rw [List.append_nil]
      exact hw.2.2
  | created jobId =>
      have hknown : .tenant q.tenantId ∈ known ++ jobRefs jobId q.tenantId := List.mem_append_left _ htenant
      have hrefs : jobRefs jobId q.tenantId ⊆ known ++ jobRefs jobId q.tenantId := List.subset_append_right _ _
      change Spec _ (if enqueue then enqueueJob env q jobId else processSatRequestJob env q jobId) _ _
      split
      · exact Spec.weaken (enqueueJob_backed hknown hrefs) (fun w hw => ⟨hw.1, hw.2.2⟩)
          (fun _ w hw => ⟨hw.1, fun _ => hw.2⟩) fun _ w hw => ⟨hw.1, fun _ => hw.2⟩
      · next henqueue =>
        exact Spec.weaken (processSatRequestJob_backed hknown hrefs) (fun w hw => hw.1)
          (fun _ w hw => ⟨hforget _ _ hw, fun h => absurd h henqueue⟩)
          fun _ w hw => ⟨hforget _ _ hw, fun h => absurd h henqueue⟩

theorem syncMetadata_backed {live enqueue : Bool} {first : List QueueMessage} :
    Spec (fun w => OnSession (DurablyBacked []) w ∧ w.queue = first) (syncMetadata env q live enqueue)
      (fun _ => SyncLeaves enqueue first) fun _ => SyncLeaves enqueue first := by
  rintro w₀ ⟨hw₀, hqueue⟩
  let At (refs : List Ref) (w : World) : Prop := OnSession (DurablyBacked refs) w ∧ Work w₀.sat first w
  -- nothing is published before the job starts
  have hleaves : ∀ refs w, At refs w → SyncLeaves enqueue first w := by
    rintro refs w ⟨hw, -, hsame⟩
    refine ⟨hw.weaken (List.nil_subset _), fun _ => ⟨[], ?_, fun _ h => absurd h List.not_mem_nil⟩⟩
    rw [List.append_nil, hsame]
  have hearly : ∀ {α : Type} {p : Recovery α}, Keeps (At []) p →
      Spec (At []) p (fun _ => At []) fun _ => SyncLeaves enqueue first :=
    fun h => Spec.weaken h (fun _ hw => hw) (fun _ _ hw => hw) fun _ => hleaves []
  have htenant : Spec (At []) (initTenant env q.tenantId q.requesterRfc (some q.tenantId))
      (fun _ => At [.tenant q.tenantId]) fun _ => SyncLeaves enqueue first :=
    Spec.weaken (Spec.and initTenant_backed (initTenant_outside work_outside)) (fun _ hw => hw) (fun _ _ hw => hw)
      fun _ => hleaves []
  have hopen : ∀ createdAt, Spec (At [.tenant q.tenantId]) (openJob env q enqueue createdAt)
      (fun job => At ([.tenant q.tenantId] ++ lookupRefs q.tenantId job)) fun _ => SyncLeaves enqueue first :=
    fun createdAt => Spec.weaken (Spec.and (openJob_backed (List.mem_singleton_self _)) openJob_work) (fun _ hw => hw)
      (fun _ _ hw => hw) fun _ => hleaves _
  refine Spec.bind (P := At []) (hearly (Keeps.raiseIf _ _)) (fun _ => ?_) w₀ ⟨hw₀, rfl, hqueue⟩
  refine Spec.bind (hearly (Keeps.raiseIf _ _)) fun _ => Spec.bind (hearly ?_) fun createdAt => ?_
  · exact Keeps.act fun w hw => hw
  · exact Spec.bind htenant fun _ => Spec.bind (hopen createdAt) fun job => startJob_backed (List.mem_singleton_self _)

end Programs

end Recovery

end CfdiVault
