import CfdiVault.RecoverySteps

/-!
# When a job succeeds

A job that is processed asks SAT once, and whatever state SAT reports, the transaction
that follows marks the job succeeded: the state is stored in the request row and has no
other effect.  The packages of the answer are a different matter.  Each has a downloaded
package row at the end, whether it was downloaded now or found stored.

`recorded_of_ok` says what a call that returns has stored, and `succeeded_iff` when a
succeeded job means that the work is done.
-/

namespace CfdiVault

namespace Recovery

/-! ## Invariants of the transaction -/

section Invariants

variable {tenantId jobId : String}

theorem Stable.and {J K : Session Db Row → Prop} (hJ : Stable tenantId jobId J)
    (hK : Stable tenantId jobId K) : Stable tenantId jobId fun s => J s ∧ K s where
  add row s hrow h := ⟨hJ.add row s hrow h.1, hK.add row s hrow h.2⟩
  update change s hchange h := ⟨hJ.update change s hchange h.1, hK.update change s hchange h.2⟩
  flush s t hflush h := ⟨hJ.flush s t hflush h.1, hK.flush s t hflush h.2⟩

theorem RowWithin.requestRows {row : Row} (h : RowWithin tenantId jobId row) :
    requestRows row = [] := by
  cases row <;> first | rfl | exact h.elim

theorem RowWithin.jobRows {row : Row} (h : RowWithin tenantId jobId row) : jobRows row = [] := by
  cases row <;> first | rfl | exact h.elim

theorem ChangeWithin.requests {change : Db → Db} (h : ChangeWithin tenantId jobId change) (d : Db) :
    (change d).requests = d.requests := by
  cases h <;> rfl

/-- Nothing of a job changes but its status and the time of the change. -/
theorem ChangeWithin.jobs {α : Type} {f : DownloadJob → α}
    (hf : ∀ job status time, f { job with status := status, updatedAt := time } = f job)
    {change : Db → Db} (h : ChangeWithin tenantId jobId change) (d : Db) :
    (change d).jobs.map f = d.jobs.map f := by
  cases h with
  | ledger => rfl
  | document => rfl
  | package => rfl
  | job status time =>
      rw [setJobStatus, List.map_map]
      refine List.map_congr_left fun job _ => ?_
      rw [Function.comp_apply]
      split
      · exact hf job _ _
      · rfl

theorem ChangeWithin.jobIds {change : Db → Db} (h : ChangeWithin tenantId jobId change) (d : Db) :
    (change d).jobs.map (·.id) = d.jobs.map (·.id) :=
  h.jobs (fun _ _ _ => rfl) d

/-- A request row waits to be flushed behind the stored ones, or is stored behind them
under an id that was new. -/
def Recorded (stored : List SatRequestRecord) (row : SatRequestRecord) (s : Session Db Row) : Prop :=
  (s.pending.flatMap requestRows = [row] ∧ s.working.requests = stored) ∨
    (s.pending.flatMap requestRows = [] ∧ s.working.requests = stored ++ [row] ∧
      ∀ r ∈ stored, r.idSolicitud ≠ row.idSolicitud)

/-- Inserting a request row succeeds only where its id is new. -/
theorem insertAll_request_new {rows : List Row} {row : SatRequestRecord} {d e : Db}
    (h : Session.insertAll insert rows d = some e) (hrow : Row.request row ∈ rows) :
    ∀ r ∈ d.requests, r.idSolicitud ≠ row.idSolicitud := by
  intro r hr hsame
  have hgrow : ∀ x a b, insert x a = some b → a.requests ⊆ b.requests := by
    intro x a b hab
    rw [insert_requests hab]
    exact List.subset_append_left _ _
  obtain ⟨d₁, d₂, hsub, haccepted⟩ := Session.insertAll_accepts
    (M := fun a b => a.requests ⊆ b.requests) (fun _ => List.Subset.refl _)
    (fun _ _ _ h₁ h₂ => List.Subset.trans h₁ h₂) hgrow h hrow
  exact (insert_eq_some.mp haccepted).1 ⟨r, hsub hr, hsame⟩

theorem recorded_stable (stored : List SatRequestRecord) (row : SatRequestRecord) :
    Stable tenantId jobId (Recorded stored row) where
  add r s hr h := by
    unfold Recorded
    rw [Session.add_pending, Session.add_working, List.flatMap_append, List.flatMap_singleton,
      hr.requestRows, List.append_nil]
    exact h
  update change s hchange h := by
    unfold Recorded
    rw [Session.update_pending, Session.update_working, hchange.requests]
    exact h
  flush s t hflush h := by
    obtain ⟨d, hd, rfl⟩ := Session.flush?_eq_some.mp hflush
    have htable : d.requests = s.working.requests ++ s.pending.flatMap requestRows :=
      Session.insertAll_table (fun _ _ _ h => insert_requests h) hd
    rcases h with ⟨hwaits, hstored⟩ | ⟨hnone, hstored, hnew⟩
    · -- the row leaves the waiting list, and its id was new to the table
      have hpending : Row.request row ∈ s.pending := by
        have : row ∈ s.pending.flatMap requestRows := by rw [hwaits]; exact List.mem_singleton_self row
        obtain ⟨x, hx, hrow⟩ := List.mem_flatMap.mp this
        rwa [← mem_requestRows.mp hrow]
      have hnew := insertAll_request_new hd hpending
      rw [hstored] at htable hnew
      rw [hwaits] at htable
      exact .inr ⟨rfl, htable, hnew⟩
    · rw [hnone, List.append_nil, hstored] at htable
      exact .inr ⟨rfl, htable, hnew⟩

/-- A downloaded package row of the tenant is stored or waits to be flushed. -/
def Obtained (tenantId packageId : String) (s : Session Db Row) : Prop :=
  ∃ row, (row ∈ s.working.packages ∨ Row.package row ∈ s.pending) ∧
    IsPackage tenantId packageId row ∧ row.status = "downloaded"

theorem obtained_stable (packageId : String) :
    Stable tenantId jobId (Obtained tenantId packageId) where
  add r s _ h := by
    obtain ⟨row, hrow, hrest⟩ := h
    refine ⟨row, hrow.imp_right fun hmem => ?_, hrest⟩
    exact List.mem_append_left _ hmem
  update change s hchange h := by
    obtain ⟨row, hmem | hmem, hkey, hstatus⟩ := h
    · cases hchange with
      | ledger => exact ⟨row, .inl hmem, hkey, hstatus⟩
      | document => exact ⟨row, .inl hmem, hkey, hstatus⟩
      | job => exact ⟨row, .inl hmem, hkey, hstatus⟩
      | package id f hf =>
          refine ⟨_, .inl (List.mem_map_of_mem hmem), ?_, ?_⟩
          · split
            · exact ⟨(hf row).1.trans hkey.1, (hf row).2.1.trans hkey.2⟩
            · exact hkey
          · split
            · exact (hf row).2.2
            · exact hstatus
    · exact ⟨row, .inr hmem, hkey, hstatus⟩
  flush s t hflush h := by
    obtain ⟨d, hd, rfl⟩ := Session.flush?_eq_some.mp hflush
    have htable : d.packages = s.working.packages ++ s.pending.flatMap packageRows :=
      Session.insertAll_table (fun _ _ _ h => insert_packages h) hd
    obtain ⟨row, hrow, hrest⟩ := h
    refine ⟨row, .inl ?_, hrest⟩
    rw [htable, List.mem_append]
    exact hrow.imp_right fun hmem => List.mem_flatMap.mpr ⟨_, hmem, mem_packageRows.mpr rfl⟩

/-- What is constant of the jobs of the working copy stays, and none waits to be flushed. -/
theorem jobs_stable {α : Type} {f : DownloadJob → α}
    (hf : ∀ job status time, f { job with status := status, updatedAt := time } = f job) (xs : List α) :
    Stable tenantId jobId fun s => s.working.jobs.map f = xs ∧ s.pending.flatMap jobRows = [] where
  add r s hr h := by
    refine ⟨h.1, ?_⟩
    rw [Session.add_pending, List.flatMap_append, List.flatMap_singleton, hr.jobRows, h.2]
    rfl
  update change s hchange h := ⟨(hchange.jobs hf s.working).trans h.1, h.2⟩
  flush s t hflush h := by
    obtain ⟨d, hd, rfl⟩ := Session.flush?_eq_some.mp hflush
    have htable : d.jobs = s.working.jobs ++ s.pending.flatMap jobRows :=
      Session.insertAll_table (fun _ _ _ h => insert_jobs h) hd
    refine ⟨?_, rfl⟩
    rw [htable, h.2, List.append_nil]
    exact h.1

/-- The jobs of the working copy have these ids, and none waits to be flushed. -/
def JobIds (ids : List String) (s : Session Db Row) : Prop :=
  s.working.jobs.map (·.id) = ids ∧ s.pending.flatMap jobRows = []

theorem jobIds_stable (ids : List String) : Stable tenantId jobId (JobIds ids) :=
  jobs_stable (fun _ _ _ => rfl) ids

end Invariants

/-! ## What the transaction establishes -/

section Transaction

variable {env : Env} {q : DownloadQuery} {jobId : String}

/-- A row that says what an answer said. -/
def RowOf (jobId : String) (answer : SatAnswer) (row : SatRequestRecord) : Prop :=
  row.jobId = jobId ∧ row.idSolicitud = answer.requestId ∧ row.satState = answer.state

/-- The row of an answer is on record behind the stored ones. -/
def RequestOn (stored : List SatRequestRecord) (jobId : String) (answer : SatAnswer)
    (s : Session Db Row) : Prop :=
  ∃ row, Recorded stored row s ∧ RowOf jobId answer row

theorem requestOn_stable {tenantId : String} (stored : List SatRequestRecord) (answer : SatAnswer) :
    Stable tenantId jobId (RequestOn stored jobId answer) where
  add r s hr h := by
    obtain ⟨row, hrow, hrest⟩ := h
    exact ⟨row, (recorded_stable stored row).add r s hr hrow, hrest⟩
  update change s hchange h := by
    obtain ⟨row, hrow, hrest⟩ := h
    exact ⟨row, (recorded_stable stored row).update change s hchange hrow, hrest⟩
  flush s t hflush h := by
    obtain ⟨row, hrow, hrest⟩ := h
    have hstable := @recorded_stable tenantId jobId stored row
    exact ⟨row, hstable.flush s t hflush hrow, hrest⟩

/-- A query shows the working copy. -/
theorem select_ensures {α : Type} {view : Db → α} {J : Session Db Row → Prop} :
    Ensures (OnSession J) (select env view)
      fun a w => OnSession J w ∧ a = view w.session.working := by
  intro w hw
  unfold select database
  rw [Prog.exec_act]
  split
  · trivial
  · exact ⟨hw, rfl⟩

/-- After the request row was added, the answer is on record. -/
theorem saveRequest_ensures {d : Db} {answer : SatAnswer} {requestedAt : DateTime}
    {file : StoredFile} :
    Ensures (OnSession fun s => s = Session.idle d) (saveRequest env q jobId answer requestedAt file)
      fun _ => OnSession fun s => RequestOn d.requests jobId answer s ∧ JobIds (d.jobs.map (·.id)) s := by
  refine Spec.bind (Ensures.ofKeeps now_keeps) fun verifiedAt => ?_
  refine Spec.bind (M := fun _ => OnSession fun s =>
    RequestOn d.requests jobId answer s ∧ JobIds (d.jobs.map (·.id)) s) ?_ fun _ => ?_
  · intro w hw
    have hsession : w.session = Session.idle d := hw
    have hadded : w.session.add (.request (newRequest env q jobId answer requestedAt verifiedAt file)) =
        ⟨d, d, [.request (newRequest env q jobId answer requestedAt verifiedAt file)]⟩ := by
      rw [hsession]
      rfl
    unfold add
    rw [Prog.exec_act, hadded]
    exact ⟨⟨newRequest env q jobId answer requestedAt verifiedAt file, .inl ⟨rfl, rfl⟩,
      rfl, rfl, rfl⟩, rfl, rfl⟩
  · exact Ensures.ofKeeps
      (@event_keeps _ q.tenantId _ _ ((requestOn_stable _ answer).and (jobIds_stable _)).books _ _ _ _)

/-- The row of a package just stored counts as downloaded. -/
theorem savePackage_ensures {J : Session Db Row → Prop} (hJ : Stable q.tenantId jobId J)
    {requestId packageId : String} {requestedAt : DateTime} {file : StoredFile}
    {existing : Option SatPackageRecord} :
    Ensures
      (OnSession fun s => J s ∧
        ∀ row, existing = some row → row ∈ s.working.packages ∧ IsPackage q.tenantId packageId row)
      (savePackage env q requestId packageId requestedAt file existing)
      fun _ => OnSession fun s => J s ∧ Obtained q.tenantId packageId s := by
  unfold savePackage
  cases existing with
  | none =>
      refine Spec.bind (Ensures.ofKeeps now_keeps) fun downloadedAt =>
        Spec.bind (Ensures.ofKeeps now_keeps) fun updatedAt => ?_
      intro w hw
      refine ⟨hJ.add _ w.session ⟨rfl, rfl⟩ hw.1,
        newPackage q requestId packageId requestedAt downloadedAt updatedAt file, .inr ?_,
        ⟨rfl, rfl⟩, rfl⟩
      exact List.mem_append_right _ (List.mem_singleton_self _)
  | some row =>
      refine Spec.bind (Ensures.ofKeeps now_keeps) fun _ =>
        Spec.bind (Ensures.ofKeeps now_keeps) fun _ => ?_
      intro w hw
      obtain ⟨hmem, hkey⟩ := hw.2 row rfl
      refine ⟨hJ.update _ w.session (.package _ _ fun _ => ⟨rfl, rfl, rfl⟩) hw.1,
        ⟨_, .inl (List.mem_map_of_mem hmem), ?_, ?_⟩⟩
      · rw [if_pos hkey]
        exact hkey
      · rw [if_pos hkey]

/-- A package that the loop has passed has a downloaded row. -/
theorem fetchPackage_ensures {J : Session Db Row → Prop} (hJ : Stable q.tenantId jobId J)
    {requestId packageId : String} {requestedAt : DateTime} :
    Ensures (OnSession J) (fetchPackage env q jobId requestId requestedAt packageId)
      fun _ => OnSession fun s => J s ∧ Obtained q.tenantId packageId s := by
  have hdone := hJ.and (@obtained_stable _ jobId packageId)
  refine Spec.bind select_ensures fun existing => ?_
  -- the looked-up row stays where it is while only the disk and SAT are asked
  let K : Session Db Row → Prop := fun s => J s ∧
    ∀ row, existing = some row → row ∈ s.working.packages ∧ IsPackage q.tenantId packageId row
  have hfound : ∀ w : World, OnSession J w ∧ existing =
      (w.session.working.packages.find? fun row => IsPackage q.tenantId packageId row) →
      OnSession K w := by
    intro w hw
    refine ⟨hw.1, fun row hrow => ?_⟩
    have hfind := hw.2.symm.trans hrow
    exact ⟨List.mem_of_find?_eq_some hfind, by simpa using List.find?_some hfind⟩
  refine Spec.weaken (P := OnSession K) ?_ hfound (fun _ _ h => h) fun _ _ h => h
  have hstored : Ensures (OnSession K) (storedContent env existing) fun stored w => OnSession K w ∧
      (stored.isSome → (downloadedKey existing).isSome) := by
    unfold storedContent
    cases hkey : downloadedKey existing with
    | none => exact Spec.pure _ fun w hw => ⟨hw, fun h => by cases h⟩
    | some key =>
        refine Spec.weaken (Ensures.ofKeeps disk_keeps) (fun _ h => h) (fun _ _ h => ?_)
          fun _ _ h => h
        exact ⟨h, fun _ => rfl⟩
  refine Spec.bind hstored fun stored => ?_
  cases stored with
  | none =>
      refine Spec.weaken (P := OnSession K) ?_ (fun _ h => h.1) (fun _ _ h => h) fun _ _ h => h
      refine Spec.bind ?_ fun _ => Spec.pure _ fun _ h => h
      refine Spec.bind (Ensures.ofKeeps downloadPackage_keeps) fun _ => ?_
      refine Spec.bind (Ensures.ofKeeps storagePeriod_keeps) fun _ => ?_
      refine Spec.bind (Ensures.ofKeeps packageKey_keeps) fun _ => ?_
      refine Spec.bind (Ensures.ofKeeps writeBytesIdempotent_keeps) fun _ => ?_
      refine Spec.bind (savePackage_ensures hJ) fun _ => ?_
      exact Spec.bind (Ensures.ofKeeps (event_keeps hdone.books)) fun _ => Spec.pure _ fun _ h => h
  | some content =>
      have hrow : ∀ w : World, OnSession K w ∧ ((some content).isSome → (downloadedKey existing).isSome) →
          OnSession (fun s => J s ∧ Obtained q.tenantId packageId s) w := by
        intro w hw
        cases hexisting : existing with
        | none =>
            have := hw.2 rfl
            rw [hexisting] at this
            cases this
        | some row =>
            have hkey := hw.2 rfl
            rw [hexisting, downloadedKey] at hkey
            obtain ⟨hmem, his⟩ := hw.1.2 row hexisting
            refine ⟨hw.1.1, row, .inl hmem, his, ?_⟩
            by_contra hstatus
            rw [if_neg hstatus] at hkey
            cases hkey
      refine Spec.weaken ?_ hrow (fun _ _ h => h) fun _ _ h => h
      exact Spec.bind (Ensures.ofKeeps (event_keeps hdone.books)) fun _ => Spec.pure _ fun _ h => h

/-- Every job row with the id is succeeded. -/
def AllSucceeded (jobId : String) (d : Db) : Prop :=
  ∀ job ∈ d.jobs, job.id = jobId → job.status = JobStatus.succeeded.value

theorem markSucceeded_ensures {J : Session Db Row → Prop} (hJ : Stable q.tenantId jobId J) :
    Ensures (OnSession J) (markSucceeded env jobId)
      fun _ => OnSession fun s => J s ∧ AllSucceeded jobId s.working := by
  refine Spec.bind select_ensures fun job => ?_
  split
  case isTrue _ =>
    refine Spec.weaken (P := OnSession J) ?_ (fun _ h => h.1) (fun _ _ h => h) fun _ _ h => h
    refine Spec.bind (Ensures.ofKeeps now_keeps) fun time => ?_
    intro w hw
    refine ⟨hJ.update _ w.session (.job _ _) hw, fun job hjob hid => ?_⟩
    obtain ⟨before, -, rfl⟩ := List.mem_map.mp hjob
    by_cases hbefore : before.id = jobId
    · rw [if_pos hbefore]
    · rw [if_neg hbefore] at hid
      exact absurd hid hbefore
  case isFalse hnone =>
    refine Spec.pure _ fun w hw => ⟨hw.1, fun job hjob hid => ?_⟩
    rw [hw.2, Option.not_isSome_iff_eq_none, List.find?_eq_none] at hnone
    exact absurd hid (by simpa using hnone job hjob)

/-- At the end of its steps a transaction has the answer on record, a downloaded row for
every package of the answer, and the job succeeded. -/
theorem recordSteps_ensures {d : Db} {answer : SatAnswer} {requestedAt : DateTime} :
    Ensures (OnSession fun s => s = Session.idle d) (recordSteps env q jobId answer requestedAt)
      fun _ => OnSession fun s => ((RequestOn d.requests jobId answer s ∧ JobIds (d.jobs.map (·.id)) s) ∧
        ∀ packageId ∈ answer.packages, Obtained q.tenantId packageId s) ∧
        AllSucceeded jobId s.working := by
  have hfirst : Stable q.tenantId jobId fun s =>
      RequestOn d.requests jobId answer s ∧ JobIds (d.jobs.map (·.id)) s :=
    (requestOn_stable _ answer).and (jobIds_stable _)
  have hpackages : Stable q.tenantId jobId fun s =>
      ∀ packageId ∈ answer.packages, Obtained q.tenantId packageId s :=
    ⟨fun row s hrow h p hp => (obtained_stable p).add row s hrow (h p hp),
      fun change s hchange h p hp => (obtained_stable p).update change s hchange (h p hp),
      fun s t hflush h p hp =>
        (@obtained_stable _ jobId p).flush s t hflush (h p hp)⟩
  have hall := hfirst.and hpackages
  refine Spec.bind (Ensures.ofKeeps storagePeriod_keeps) fun _ => ?_
  refine Spec.bind (Ensures.ofKeeps metadataKey_keeps) fun _ => ?_
  refine Spec.bind (Ensures.ofKeeps writeBytesIdempotent_keeps) fun file => ?_
  refine Spec.bind saveRequest_ensures fun _ => ?_
  refine Spec.bind (Ensures.collect (I := OnSession fun s => RequestOn d.requests jobId answer s ∧
    JobIds (d.jobs.map (·.id)) s) (G := fun p => OnSession (Obtained q.tenantId p))
    (fun p _ => fetchPackage_ensures hfirst)
    fun _ _ p => fetchPackage_keeps (obtained_stable p)) fun contents => ?_
  refine Spec.bind (Ensures.ofKeeps (upsertMetadata_keeps hall.books)) fun _ => ?_
  refine Spec.bind (Ensures.ofKeeps (flush_keeps hall.books)) fun _ => ?_
  refine Spec.bind (Ensures.ofKeeps (event_keeps hall.books)) fun _ => ?_
  refine Spec.bind (Ensures.ofKeeps (storeXmlPackages_keeps hall.books)) fun _ => ?_
  exact Spec.bind (Ensures.ofKeeps (event_keeps hall.books)) fun _ => markSucceeded_ensures hall

end Transaction

/-! ## What a call that returns has stored -/

/-- A package of the tenant has a downloaded row. -/
def DownloadedIn (tenantId packageId : String) (d : Db) : Prop :=
  ∃ row ∈ d.packages, IsPackage tenantId packageId row ∧ row.status = "downloaded"

/-- How a database changes when an answer is recorded for a job.  The request id was new:
a second row under it would have violated the constraint of the table. -/
structure RecordedIn (q : DownloadQuery) (jobId : String) (answer : SatAnswer) (before after : Db) :
    Prop where
  request : ∃ row, after.requests = before.requests ++ [row] ∧ RowOf jobId answer row
  new : ∀ row ∈ before.requests, row.idSolicitud ≠ answer.requestId
  packages : ∀ packageId ∈ answer.packages, DownloadedIn q.tenantId packageId after
  jobs : after.jobs.map (·.id) = before.jobs.map (·.id)
  succeeded : AllSucceeded jobId after

/-- The only request row under the id of a recorded answer has its state. -/
theorem RecordedIn.state {q : DownloadQuery} {jobId : String} {answer : SatAnswer} {before after : Db}
    (h : RecordedIn q jobId answer before after) {row : SatRequestRecord} (hrow : row ∈ after.requests)
    (hid : row.idSolicitud = answer.requestId) : row.satState = answer.state := by
  obtain ⟨recorded, hrequests, hof⟩ := h.request
  rw [hrequests] at hrow
  rcases List.mem_append.mp hrow with hold | hnew
  · exact absurd hid (h.new row hold)
  · rw [List.mem_singleton.mp hnew, hof.2.2]

/-- What SAT answers to a query after some calls. -/
def satAnswer (env : Env) (q : DownloadQuery) (calls : List SatCall) : Except Fault SatAnswer := do
  let requestId ← (env.submit calls q).mapError .sat
  let response ← (env.verify (calls ++ [.submit q]) requestId).mapError .sat
  readAnswer (Json.toText env.textOf) requestId response

section Course

variable {env : Env} {q : DownloadQuery} {jobId : String}

/-- A database that holds the flushed working copy of a finished transaction. -/
theorem recordedIn_of_flush {d : Db} {answer : SatAnswer} {s t : Session Db Row}
    (hrequest : RequestOn d.requests jobId answer s) (hids : JobIds (d.jobs.map (·.id)) s)
    (hpackages : ∀ packageId ∈ answer.packages, Obtained q.tenantId packageId s)
    (hsucceeded : AllSucceeded jobId s.working) (hflush : s.flush? insert = some t) :
    RecordedIn q jobId answer d t.working := by
  have hrequest' :=
    (@requestOn_stable _ q.tenantId d.requests answer).flush s t hflush hrequest
  have hids' := (@jobIds_stable q.tenantId jobId _).flush s t hflush hids
  have hpackages' := fun p hp =>
    (@obtained_stable _ jobId p).flush s t hflush (hpackages p hp)
  obtain ⟨e, he, rfl⟩ := Session.flush?_eq_some.mp hflush
  have hjobs : e.jobs = s.working.jobs := by
    have htable : e.jobs = s.working.jobs ++ s.pending.flatMap jobRows :=
      Session.insertAll_table (fun _ _ _ h => insert_jobs h) he
    rw [htable, hids.2, List.append_nil]
  obtain ⟨row, ⟨hwaits, -⟩ | ⟨-, hstored, hnew⟩, hof⟩ := hrequest'
  · cases hwaits
  · refine ⟨⟨row, hstored, hof⟩, fun r hr => hof.2.1 ▸ hnew r hr, fun p hp => ?_, hids'.1, ?_⟩
    · obtain ⟨package, hpackage | hpackage, hrest⟩ := hpackages' p hp
      · exact ⟨package, hpackage, hrest⟩
      · cases hpackage
    · intro job hjob
      rw [hjobs] at hjob
      exact hsucceeded job hjob

/-- The second transaction of a job records the answer or changes nothing durable. -/
theorem recordAnswer_spec {d : Db} {answer : SatAnswer} {requestedAt : DateTime} :
    Spec (fun w => w.db = d) (recordAnswer env q jobId answer requestedAt)
      (fun _ w => w.session = Session.idle w.db ∧ RecordedIn q jobId answer d w.db)
      (fun _ w => w.session = Session.idle d) := by
  refine withSession_spec (Q := fun _ e => RecordedIn q jobId answer d e) ?_
  have hcommitted : Keeps (OnSession fun s => s.committed = d)
      (recordSteps env q jobId answer requestedAt) :=
    recordSteps_keeps (committed_stable q.tenantId jobId d) fun _ _ h => h
  let P : Session Db Row → Prop := fun s =>
    ((RequestOn d.requests jobId answer s ∧ JobIds (d.jobs.map (·.id)) s) ∧
      ∀ packageId ∈ answer.packages, Obtained q.tenantId packageId s) ∧
      AllSucceeded jobId s.working
  have hsteps : Spec (fun w => w.session = Session.idle d)
      (recordSteps env q jobId answer requestedAt)
      (fun _ => OnSession fun s => P s ∧ s.committed = d) fun _ w => w.db = d := by
    refine Spec.weaken (Ensures.spec recordSteps_ensures hcommitted) (fun w hw => ?_)
      (fun _ _ h => h) fun _ _ h => h
    exact ⟨hw, congrArg Session.committed hw⟩
  refine Spec.bind hsteps fun _ => commit_spec (P := P) (Q := RecordedIn q jobId answer d) ?_
  rintro s t ⟨⟨⟨hrequest, hids⟩, hpackages⟩, hsucceeded⟩ hflush
  exact recordedIn_of_flush hrequest hids hpackages hsucceeded hflush

/-- The first transaction of a job sets it running or changes nothing durable. -/
theorem markRunning_spec {d : Db} {time : DateTime} :
    Spec (fun w => w.db = d) (markRunning env jobId time)
      (fun _ w => w.session = Session.idle w.db ∧
        (w.db = d ∨ w.db = setJobStatus jobId .running time d))
      (fun _ w => w.session = Session.idle d) := by
  refine withSession_spec (Q := fun _ e => e = d ∨ e = setJobStatus jobId .running time d) ?_
  have hselect : Spec (fun w => w.session = Session.idle d)
      (select env fun d => d.jobs.find? fun job => job.id = jobId)
      (fun _ w => w.session = Session.idle d) fun _ w => w.db = d := by
    refine Spec.weaken (select_keeps (J := fun s => s = Session.idle d)) (fun _ h => h)
      (fun _ _ h => h) fun _ w hw => ?_
    exact congrArg Session.committed hw
  refine Spec.bind hselect fun job => ?_
  split
  · refine Spec.bind (M := fun _ => OnSession fun s =>
      (s.working = setJobStatus jobId .running time d ∧ s.pending = []) ∧ s.committed = d) ?_ fun _ => ?_
    · intro w hw
      unfold update
      rw [Prog.exec_act, hw]
      exact ⟨⟨rfl, rfl⟩, rfl⟩
    · refine commit_spec (P := fun s => s.working = setJobStatus jobId .running time d ∧
        s.pending = []) (Q := fun e => e = d ∨ e = setJobStatus jobId .running time d) ?_
      intro s t hs hflush
      obtain ⟨e, he, rfl⟩ := Session.flush?_eq_some.mp hflush
      rw [hs.2, hs.1] at he
      exact .inr (Option.some.inj he).symm
  · exact Spec.pure _ fun w hw => .inl (congrArg Session.committed hw)

/-- Asking SAT gives the answer of its calls. -/
theorem askSat_answer {w : World} : ((askSat env q).exec w).1 = satAnswer env q w.sat := by
  unfold askSat satAnswer submitRequest verifyRequest
  rw [Prog.exec_bind, Prog.exec_act]
  cases env.submit w.sat q with
  | error e => rfl
  | ok requestId =>
      change (Prog.follow _ (Except.ok requestId, _)).1 =
        ((env.verify (w.sat ++ [.submit q]) requestId).mapError Fault.sat >>= fun response =>
          readAnswer (Json.toText env.textOf) requestId response)
      rw [Prog.follow_ok, Prog.exec_bind, Prog.exec_act]
      dsimp only
      cases env.verify (w.sat ++ [.submit q]) requestId with
      | error e => rfl
      | ok response =>
          change (Prog.follow _ (Except.ok response, _)).1 = _
          rw [Prog.follow_ok, Prog.exec_ofExcept]
          rfl

/-- Asking SAT gives the answer of its calls and leaves the session alone. -/
theorem askSat_spec {d : Db} {calls : List SatCall} :
    Spec (fun w => w.session = Session.idle d ∧ w.sat = calls) (askSat env q)
      (fun answer w => w.session = Session.idle d ∧ satAnswer env q calls = .ok answer)
      fun _ w => w.session = Session.idle d := by
  intro w hw
  have hsession := Keeps.final (@askSat_keeps env (fun s => s = Session.idle d) q) hw.1
  have hanswer : ((askSat env q).exec w).1 = satAnswer env q calls := by
    rw [askSat_answer, hw.2]
  rcases hx : (askSat env q).exec w with ⟨e | answer, t⟩
  · rw [hx] at hsession
    exact hsession
  · rw [hx] at hsession hanswer
    exact ⟨hsession, hanswer.symm⟩

/-- How a database changes in a call that returns: the first transaction may have set the
job running, then the answer was recorded. -/
def RecordedFrom (q : DownloadQuery) (jobId : String) (answer : SatAnswer) (before after : Db) : Prop :=
  ∃ between, (between = before ∨ ∃ time, between = setJobStatus jobId .running time before) ∧
    RecordedIn q jobId answer between after

/-- What processing a job can end in, for any account `R` of its second transaction.  A call
that returns has recorded SAT's answer; one that raises has at most set the job running. -/
theorem processSatRequestJob_records {R : SatAnswer → Db → Db → Prop}
    (hrecord : ∀ d answer requestedAt, Spec (fun w => w.db = d)
      (recordAnswer env q jobId answer requestedAt)
      (fun _ w => w.session = Session.idle w.db ∧ R answer d w.db) (fun _ w => w.session = Session.idle d))
    {d : Db} {calls : List SatCall} :
    Spec (fun w => w.db = d ∧ w.sat = calls) (processSatRequestJob env q jobId)
      (fun result w => w.session = Session.idle w.db ∧ ∃ answer,
        satAnswer env q calls = .ok answer ∧
        result = ⟨jobId, answer.requestId, answer.packages, answer.metadata.length,
          JobStatus.succeeded.value⟩ ∧
        ∃ between, (between = d ∨ ∃ time, between = setJobStatus jobId .running time d) ∧
          R answer between w.db)
      (fun _ w => w.session = Session.idle w.db ∧
        (w.db = d ∨ ∃ time, w.db = setJobStatus jobId .running time d)) := by
  have hnow : Spec (fun w => w.db = d ∧ w.sat = calls) (now env) (fun _ w => w.db = d ∧ w.sat = calls)
      fun _ w => w.session = Session.idle w.db ∧
        (w.db = d ∨ ∃ time, w.db = setJobStatus jobId .running time d) :=
    fun w hw => hw
  refine Spec.bind hnow fun time => ?_
  -- what is durable from the first transaction on
  let Durable : Db → Prop := fun e => e = d ∨ e = setJobStatus jobId .running time d
  have hdurable : ∀ e, Durable e → e = d ∨ ∃ time, e = setJobStatus jobId .running time d :=
    fun e he => he.imp_right fun h => ⟨time, h⟩
  have hrunning : Spec (fun w => w.db = d ∧ w.sat = calls) (markRunning env jobId time)
      (fun _ w => (w.session = Session.idle w.db ∧ Durable w.db) ∧ w.sat = calls)
      fun _ w => w.session = Session.idle w.db ∧
        (w.db = d ∨ ∃ time, w.db = setJobStatus jobId .running time d) := by
    intro w hw
    have hspec := @markRunning_spec env jobId _ time w hw.1
    have hcalls := Keeps.final (@markRunning_outside env (fun w => w.sat = calls) (fun _ _ _ _ h => h) jobId
      time) hw.2
    rcases hx : (markRunning env jobId time).exec w with ⟨e | a, t⟩
    · rw [hx] at hspec
      have ht : t.session = Session.idle d := hspec
      have hdb : t.db = d := db_of_idle ht
      exact ⟨by rw [hdb]; exact ht, .inl hdb⟩
    · rw [hx] at hspec hcalls
      exact ⟨hspec, hcalls⟩
  refine Spec.bind hrunning fun _ => ?_
  intro w hw
  obtain ⟨⟨hidle, hw⟩, hcalls⟩ := hw
  have hraised := hdurable w.db hw
  have hasked := @askSat_spec env q w.db calls w ⟨hidle, hcalls⟩
  rw [Prog.exec_bind]
  rcases hx : (askSat env q).exec w with ⟨e | answer, u⟩
  · rw [hx] at hasked
    have hu : u.session = Session.idle w.db := hasked
    have hdb : u.db = w.db := db_of_idle hu
    rw [Prog.follow_error]
    exact ⟨by rw [hdb]; exact hu, by rw [hdb]; exact hraised⟩
  · rw [hx] at hasked
    obtain ⟨hu, hanswer⟩ := hasked
    have hdb : u.db = w.db := db_of_idle hu
    have hrecorded := hrecord w.db answer time u hdb
    rw [Prog.follow_ok, Prog.exec_bind]
    rcases hy : (recordAnswer env q jobId answer time).exec u with ⟨e | a, t⟩
    · rw [hy] at hrecorded
      have ht : t.session = Session.idle w.db := hrecorded
      have hdb' : t.db = w.db := db_of_idle ht
      rw [Prog.follow_error]
      exact ⟨by rw [hdb']; exact ht, by rw [hdb']; exact hraised⟩
    · rw [hy] at hrecorded
      exact ⟨hrecorded.1, answer, hanswer, rfl, w.db, hraised, hrecorded.2⟩

theorem processSatRequestJob_spec {d : Db} {calls : List SatCall} :
    Spec (fun w => w.db = d ∧ w.sat = calls) (processSatRequestJob env q jobId)
      (fun result w => w.session = Session.idle w.db ∧ ∃ answer,
        satAnswer env q calls = .ok answer ∧
        result = ⟨jobId, answer.requestId, answer.packages, answer.metadata.length,
          JobStatus.succeeded.value⟩ ∧
        RecordedFrom q jobId answer d w.db)
      (fun _ w => w.session = Session.idle w.db ∧
        (w.db = d ∨ ∃ time, w.db = setJobStatus jobId .running time d)) :=
  processSatRequestJob_records fun _ _ _ => recordAnswer_spec

end Course

/-! ## A succeeded job and its SAT state -/

/-- The work of a job is done: SAT has finished the recorded request and every package of
the answer is downloaded. -/
def WorkDone (q : DownloadQuery) (jobId : String) (answer : SatAnswer) (d : Db) : Prop :=
  (∃ row ∈ d.requests, row.jobId = jobId ∧ row.idSolicitud = answer.requestId ∧
    row.satState = SatRequestState.finished.value) ∧
  ∀ packageId ∈ answer.packages, DownloadedIn q.tenantId packageId d

/-- A call of `_process_sat_request_job` leaves the job succeeded only when its work is
done; a call that raises leaves it succeeded only if it was so before. -/
def SucceededOnlyWhenDone (env : Env) (q : DownloadQuery) (jobId : String) (w : World) : Prop :=
  let run := (processSatRequestJob env q jobId).exec w
  ∀ job ∈ run.2.db.jobs, job.id = jobId → job.status = JobStatus.succeeded.value →
    ((∃ e, run.1 = .error e) ∧ job ∈ w.db.jobs) ∨
      ∃ answer, satAnswer env q w.sat = .ok answer ∧ WorkDone q jobId answer run.2.db

section Law

variable {env : Env} {q : DownloadQuery} {jobId : String} {w : World}

theorem succeededOnlyWhenDone_of_error {e : Fault}
    (h : ((processSatRequestJob env q jobId).exec w).1 = .error e) :
    SucceededOnlyWhenDone env q jobId w := by
  have hspec := @processSatRequestJob_spec env q jobId _ _ w ⟨rfl, rfl⟩
  unfold SucceededOnlyWhenDone
  dsimp only
  generalize (processSatRequestJob env q jobId).exec w = run at h hspec ⊢
  obtain ⟨outcome, t⟩ := run
  cases (show outcome = .error e from h)
  intro job hjob hid hstatus
  refine .inl ⟨⟨e, rfl⟩, ?_⟩
  rcases hspec.2 with hsame | ⟨time, hset⟩
  · rwa [hsame] at hjob
  · rw [hset] at hjob
    obtain ⟨before, -, rfl⟩ := List.mem_map.mp hjob
    by_cases hbefore : before.id = jobId
    · rw [if_pos hbefore] at hstatus
      exact absurd hstatus (show JobStatus.running.value ≠ JobStatus.succeeded.value by decide)
    · rw [if_neg hbefore] at hid
      exact absurd hid hbefore

theorem succeededOnlyWhenDone_of_ok {result : SyncResult}
    (h : ((processSatRequestJob env q jobId).exec w).1 = .ok result) :
    SucceededOnlyWhenDone env q jobId w ↔
      ((∃ job ∈ w.db.jobs, job.id = jobId) → ∀ answer, satAnswer env q w.sat = .ok answer →
        answer.state = SatRequestState.finished.value) := by
  have hspec := @processSatRequestJob_spec env q jobId _ _ w ⟨rfl, rfl⟩
  unfold SucceededOnlyWhenDone
  dsimp only
  generalize (processSatRequestJob env q jobId).exec w = run at h hspec ⊢
  obtain ⟨outcome, t⟩ := run
  cases (show outcome = .ok result from h)
  obtain ⟨-, answer, hanswer, -, between, hbetween, hrecorded⟩ := hspec
  have hids : t.db.jobs.map (·.id) = w.db.jobs.map (·.id) := by
    rw [hrecorded.jobs]
    rcases hbetween with rfl | ⟨time, rfl⟩
    · rfl
    · exact (@ChangeWithin.job q.tenantId _ .running time).jobIds w.db
  have hexists : (∃ job ∈ t.db.jobs, job.id = jobId) ↔ ∃ job ∈ w.db.jobs, job.id = jobId := by
    have hmem := congrArg (jobId ∈ ·) hids
    simpa only [List.mem_map, eq_iff_iff] using hmem
  obtain ⟨recorded, hrequests, hjobOf, hrequest, hstateOf⟩ := hrecorded.request
  constructor
  · intro hdone hjob answer' hanswer'
    obtain ⟨job, hjob, hid⟩ := hexists.mpr hjob
    rcases hdone job hjob hid (hrecorded.succeeded job hjob hid) with ⟨⟨e, he⟩, -⟩ | ⟨a, ha, hwork⟩
    · cases he
    · cases ha.symm.trans hanswer'
      obtain ⟨⟨row, hrow, -, hrowId, hstate⟩, -⟩ := hwork
      cases hanswer.symm.trans ha
      rw [← hrecorded.state hrow hrowId, hstate]
  · intro hfinished job hjob hid _
    refine .inr ⟨answer, hanswer, ⟨recorded, ?_, hjobOf, hrequest, ?_⟩, hrecorded.packages⟩
    · rw [hrequests]
      exact List.mem_append_right _ (List.mem_singleton_self recorded)
    · rw [hstateOf]
      exact hfinished (hexists.mp ⟨job, hjob, hid⟩) answer hanswer

/-- A call that raises never marks the job succeeded, and one that returns has marked it
rightly exactly when there is no such job or SAT reported the request as finished. -/
theorem succeeded_iff (env : Env) (q : DownloadQuery) (jobId : String) (w : World) :
    (∀ e, ((processSatRequestJob env q jobId).exec w).1 = .error e →
      SucceededOnlyWhenDone env q jobId w) ∧
    ∀ result, ((processSatRequestJob env q jobId).exec w).1 = .ok result →
      (SucceededOnlyWhenDone env q jobId w ↔
        ((∃ job ∈ w.db.jobs, job.id = jobId) → ∀ answer, satAnswer env q w.sat = .ok answer →
          answer.state = SatRequestState.finished.value)) :=
  ⟨fun _ h => succeededOnlyWhenDone_of_error h, fun _ h => succeededOnlyWhenDone_of_ok h⟩

end Law

/-! ## A job that succeeds while SAT is still working -/

section Sample

/-- A host on which every digest is zero. -/
def sampleHost : Runtime where
  sha256Text _ := 0
  sha256Bytes _ := 0
  upper := id
  lower := Text.lower
  alnum c := c.isAlphanum

/-- Everything outside works: SAT accepts each request under one id, verifies it with a
given answer and delivers an empty file for every package. -/
def sampleEnv (response : List (String × Json)) : Env where
  rt := sampleHost
  storage := ⟨"storage/", ["storage"]⟩
  now _ := .utc 63842385600000000
  uuid4 n := "uuid-" ++ toString n
  submit _ _ := .ok "SAT-REQ-1"
  verify _ _ := .ok response
  download _ _ := .ok []
  publish _ _ := .ok ()
  databaseFails _ := false
  diskFails _ := none
  textOf _ := ""
  openZip _ := .error "not a zip file"
  readCfdi _ := .error "not well-formed"
  parseMetadata _ _ _ := .ok ⟨[], []⟩

/-- The metadata received in January 2024. -/
def januaryQuery : DownloadQuery where
  tenantId := "tenant-a"
  requesterRfc := "AAA010101AAA"
  direction := .received
  requestType := .metadata
  period := some {
    start := ⟨63839664000000000, none⟩
    «end» := ⟨63842342399000000, none⟩
    ordered := by decide }

/-- A service on a database. -/
def sampleWorld (d : Db) : World := { session := Session.idle d }

/-- The database in which the query has its job. -/
def pendingJobDb : Db where
  jobs := [newJob (sampleEnv []) januaryQuery true (.utc 63842385600000000) "job-1"]

theorem succeeded_iff_sample :
    SucceededOnlyWhenDone (sampleEnv [("state", .str "finished"), ("packages", .arr [.str "PKG-1"])])
      januaryQuery "job-1" (sampleWorld pendingJobDb) := by
  have hok : ((processSatRequestJob
      (sampleEnv [("state", .str "finished"), ("packages", .arr [.str "PKG-1"])]) januaryQuery
      "job-1").exec (sampleWorld pendingJobDb)).1 =
      .ok ⟨"job-1", "SAT-REQ-1", ["PKG-1"], 0, JobStatus.succeeded.value⟩ := by decide +kernel
  refine ((succeeded_iff _ _ _ _).2 _ hok).mpr fun _ answer hanswer => ?_
  cases hanswer
  rfl

/-- SAT has accepted the request and not finished it; the job succeeds all the same. -/
theorem accepted_job_succeeds :
    ¬ SucceededOnlyWhenDone (sampleEnv [("state", .str "accepted")]) januaryQuery "job-1"
      (sampleWorld pendingJobDb) := by
  have hok : ((processSatRequestJob (sampleEnv [("state", .str "accepted")]) januaryQuery
      "job-1").exec (sampleWorld pendingJobDb)).1 =
      .ok ⟨"job-1", "SAT-REQ-1", [], 0, JobStatus.succeeded.value⟩ := by decide +kernel
  rw [succeededOnlyWhenDone_of_ok hok]
  intro h
  have hjob : ∃ job ∈ (sampleWorld pendingJobDb).db.jobs, job.id = "job-1" :=
    ⟨_, List.mem_singleton_self _, rfl⟩
  exact absurd (h hjob _ rfl) (by decide)

end Sample

end Recovery

end CfdiVault
