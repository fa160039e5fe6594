import CfdiVault.RecoveryCalls

/-!
# What a failed call leaves behind

The job of a query is durable before SAT is asked, and the lookup that recognizes a
repeated query does not look at its status.  So a call that fails in its work leaves a job
that no later synchronization revives (`failed_sync_is_dead`).  Everything between the
answer of SAT and the end of the job is one transaction, so a failure takes the rows of
the packages with it (`failed_job_packages`), and a message that is delivered twice
violates the key of the request table the second time (`redelivery_never_harmless`).
-/

namespace CfdiVault

namespace Recovery

/-! ## Exceptions of the work -/

/-- An exception of the SAT client, the storage, the extraction or the publication. -/
def Fault.FromWork : Fault → Prop
  | .sat _ | .storage _ | .extraction _ | .publish _ => True
  | _ => False

/-- The program raises nothing of its work. -/
abbrev Workless {α : Type} (p : Recovery α) : Prop :=
  Spec (fun _ => True) p (fun _ _ => True) fun e _ => ¬ e.FromWork

section Workless

variable {env : Env} {q : DownloadQuery}

theorem act_workless {α : Type} {f : World → Except Fault α × World}
    (h : ∀ w, ∃ a, (f w).1 = .ok a) : Workless (Prog.act f) := by
  intro w _
  obtain ⟨a, ha⟩ := h w
  rw [Prog.exec_act]
  generalize f w = run at ha
  obtain ⟨outcome, t⟩ := run
  cases (show outcome = .ok a from ha)
  trivial

theorem pure_workless {α : Type} (a : α) : Workless (pure a : Recovery α) :=
  Spec.pure a fun _ _ => trivial

theorem select_workless {α : Type} {view : Db → α} : Workless (select env view) := by
  intro w _
  rw [exec_select]
  split
  · exact fun h => h
  · trivial

theorem flush_workless : Workless (flush env) := by
  intro w _
  rw [exec_flush]
  split
  · exact fun h => h
  · cases w.session.flush? insert with
    | none => exact fun h => h
    | some s => trivial

theorem commit_workless : Workless (commit env) :=
  Spec.bind flush_workless fun _ => act_workless fun _ => ⟨_, rfl⟩

theorem withSession_workless {α : Type} {body : Recovery α} (h : Workless body) :
    Workless (withSession body) := by
  intro w _
  have hbody := h { w with session := w.session.reset } trivial
  unfold withSession
  rw [Prog.exec_bracket]
  rcases hx : body.exec { w with session := w.session.reset } with ⟨e | a, t⟩
  · rw [hx] at hbody
    exact hbody
  · trivial

theorem initTenant_workless {tenantId rfc : String} {name : Option String} :
    Workless (initTenant env tenantId rfc name) := by
  refine Spec.bind (act_workless fun _ => ⟨_, rfl⟩) fun createdAt => withSession_workless ?_
  refine Spec.bind select_workless fun tenant => Spec.bind ?_ fun _ => commit_workless
  cases tenant <;> exact act_workless fun _ => ⟨_, rfl⟩

theorem openJob_workless {enqueue : Bool} {createdAt : DateTime} :
    Workless (openJob env q enqueue createdAt) := by
  refine withSession_workless (Spec.bind select_workless fun existing => ?_)
  cases existing with
  | none =>
      refine Spec.bind ?_ fun _ => pure_workless _
      refine Spec.bind (act_workless fun _ => ⟨_, rfl⟩) fun jobId => ?_
      refine Spec.bind (act_workless fun _ => ⟨_, rfl⟩) fun _ => Spec.bind ?_ fun _ =>
        Spec.bind commit_workless fun _ => pure_workless _
      exact Spec.bind (act_workless fun _ => ⟨_, rfl⟩) fun _ =>
        Spec.bind (act_workless fun _ => ⟨_, rfl⟩) fun _ => act_workless fun _ => ⟨_, rfl⟩
  | some job =>
      refine Spec.bind (Spec.bind select_workless fun request => ?_) fun _ => pure_workless _
      cases request with
      | none => exact pure_workless _
      | some row => exact Spec.bind select_workless fun _ => Spec.bind select_workless fun _ =>
          pure_workless _

end Workless

/-! ## The job of a failed synchronization -/

/-- The job of a query waits or runs, and no SAT request was ever recorded for it. -/
structure DeadJob (rt : Runtime) (q : DownloadQuery) (jobId : String) (d : Db) : Prop where
  stored : ∃ job ∈ d.jobs, IsJobOf q.tenantId (q.criteriaHash rt) job
  sole : ∀ job ∈ d.jobs, IsJobOf q.tenantId (q.criteriaHash rt) job → job.id = jobId ∧
    (job.status = JobStatus.pending.value ∨ job.status = JobStatus.running.value)
  unasked : ∀ row ∈ d.requests, row.jobId ≠ jobId

namespace DeadJob

variable {rt : Runtime} {q : DownloadQuery} {jobId : String} {d : Db}

theorem tenants (h : DeadJob rt q jobId d) {e : Db} (he : TenantsFrom d e) :
    DeadJob rt q jobId e := by
  obtain ⟨tenants, rfl⟩ := he
  exact ⟨h.stored, h.sole, h.unasked⟩

theorem running (h : DeadJob rt q jobId d) (time : DateTime) :
    DeadJob rt q jobId (setJobStatus jobId .running time d) := by
  obtain ⟨job, hjob, hof⟩ := h.stored
  refine ⟨⟨_, List.mem_map_of_mem hjob, ?_⟩, fun other hother hof => ?_, h.unasked⟩
  · split <;> exact hof
  · obtain ⟨before, hbefore, rfl⟩ := List.mem_map.mp hother
    by_cases hid : before.id = jobId
    · rw [if_pos hid]
      exact ⟨hid, .inr rfl⟩
    · rw [if_neg hid] at hof ⊢
      exact h.sole before hbefore hof

/-- A job that was just created, and that no request row mentions, is dead. -/
theorem ofOpened {env : Env} {enqueue : Bool} {createdAt : DateTime} {drawn : Nat} {e : Db}
    (h : Opened env q enqueue createdAt drawn d (.created jobId) e)
    (hfresh : ∀ row ∈ d.requests, row.jobId ≠ jobId) : DeadJob env.rt q jobId e := by
  obtain ⟨-, hnone, -, _, -, rfl⟩ := h
  have hothers : ∀ job ∈ d.jobs, ¬ IsJobOf q.tenantId (q.criteriaHash env.rt) job := by
    intro job hjob hof
    have := List.find?_eq_none.mp hnone job hjob
    exact this (decide_eq_true hof)
  refine ⟨⟨_, List.mem_append_right _ (List.mem_singleton_self _), rfl, rfl⟩,
    fun job hjob hof => ?_, hfresh⟩
  rcases List.mem_append.mp hjob with hold | hnew
  · exact absurd hof (hothers job hold)
  · rw [List.mem_singleton.mp hnew]
    refine ⟨rfl, ?_⟩
    cases enqueue
    · exact .inr rfl
    · exact .inl rfl

end DeadJob

section Sync

variable {env : Env} {q : DownloadQuery}

/-- A synchronization that fails in its work leaves a dead job, named by the identifier
it drew. -/
theorem syncMetadata_failed {d : Db} {drawn : Nat} {live enqueue : Bool}
    (hfresh : ∀ row ∈ d.requests, row.jobId ≠ env.uuid4 drawn) :
    Spec (fun w => w.db = d ∧ w.uuids = drawn) (syncMetadata env q live enqueue)
      (fun _ _ => True) fun e w => e.FromWork → DeadJob env.rt q (env.uuid4 drawn) w.db := by
  have hraise : ∀ (c : Prop) [Decidable c] (e : Fault), ¬ e.FromWork →
      Spec (fun w : World => w.db = d ∧ w.uuids = drawn) (Prog.raiseIf c e)
        (fun _ w => w.db = d ∧ w.uuids = drawn)
        fun e w => e.FromWork → DeadJob env.rt q (env.uuid4 drawn) w.db := by
    intro c _ e he w hw
    by_cases hc : c
    · rw [Prog.exec_raiseIf_pos hc]
      exact fun h => absurd h he
    · rw [Prog.exec_raiseIf_neg hc]
      exact hw
  refine Spec.bind (hraise _ _ fun h => h) fun _ => Spec.bind (hraise _ _ fun h => h) fun _ => ?_
  refine Spec.bind (M := fun _ w => w.db = d ∧ w.uuids = drawn) (fun w hw => hw) fun createdAt => ?_
  have htenant : Spec (fun w => w.db = d ∧ w.uuids = drawn)
      (initTenant env q.tenantId q.requesterRfc (some q.tenantId))
      (fun _ w => TenantsFrom d w.db ∧ w.uuids = drawn)
      fun e w => e.FromWork → DeadJob env.rt q (env.uuid4 drawn) w.db := by
    intro w hw
    have hspec := @initTenant_spec env _ q.tenantId q.requesterRfc (some q.tenantId) w hw.1
    have hdrawn := Keeps.final (@initTenant_outside env (fun w => w.uuids = drawn)
      (fun _ _ _ _ h => h) q.tenantId q.requesterRfc (some q.tenantId)) hw.2
    have hworkless := @initTenant_workless env q.tenantId q.requesterRfc (some q.tenantId) w
        trivial
    rcases hx : (initTenant env q.tenantId q.requesterRfc (some q.tenantId)).exec w with ⟨e | a, t⟩
    · rw [hx] at hworkless
      exact fun h => absurd h hworkless
    · rw [hx] at hspec hdrawn
      exact ⟨hspec.2, hdrawn⟩
  refine Spec.bind htenant fun _ => ?_
  intro w hw
  obtain ⟨⟨tenants, htenants⟩, hdrawn⟩ := hw
  have hfresh' : ∀ row ∈ w.db.requests, row.jobId ≠ env.uuid4 drawn := by
    rw [htenants]
    exact hfresh
  have hspec := @openJob_spec env q enqueue createdAt _ _ w ⟨rfl, hdrawn⟩
  have hworkless := @openJob_workless env q enqueue createdAt w trivial
  rw [Prog.exec_bind]
  rcases hx : (openJob env q enqueue createdAt).exec w with ⟨e | lookup, u⟩
  · rw [hx] at hworkless
    exact fun h => absurd h hworkless
  · rw [hx] at hspec
    rw [Prog.follow_ok]
    cases lookup with
    | replayed result => trivial
    | created jobId =>
        obtain ⟨-, hopened⟩ := hspec
        have hid : jobId = env.uuid4 drawn := hopened.1
        subst hid
        have hdead := DeadJob.ofOpened hopened hfresh'
        cases enqueue with
        | true =>
            have hkept := Keeps.final (@enqueueJob_keeps env q (env.uuid4 drawn)
                (fun s => DeadJob env.rt q (env.uuid4 drawn) s.committed))
              (s := u) hdead
            change Holds _ _ ((enqueueJob env q (env.uuid4 drawn)).exec u)
            rcases hy : (enqueueJob env q (env.uuid4 drawn)).exec u with ⟨e | a, t⟩
            · rw [hy] at hkept
              exact fun _ => hkept
            · trivial
        | false =>
            have hprocess := @processSatRequestJob_spec env q (env.uuid4 drawn) _ _ u ⟨rfl, rfl⟩
            change Holds _ _ ((processSatRequestJob env q (env.uuid4 drawn)).exec u)
            rcases hy : (processSatRequestJob env q (env.uuid4 drawn)).exec u with ⟨e | a, t⟩
            · rw [hy] at hprocess
              rintro -
              rcases hprocess.2 with hsame | ⟨time, hset⟩
              · have hdb : t.db = u.db := hsame
                rw [hdb]
                exact hdead
              · have hdb : t.db = setJobStatus (env.uuid4 drawn) .running time u.db := hset
                rw [hdb]
                exact hdead.running time
            · trivial

/-- The lookup of a query with a dead job finds it, and finds no SAT request for it. -/
theorem DeadJob.replay {jobId : String} {d e : Db} {enqueue : Bool} {createdAt : DateTime}
    {drawn : Nat} {lookup : JobLookup} (h : DeadJob env.rt q jobId d)
    (hopened : Opened env q enqueue createdAt drawn d lookup e) :
    ∃ status, lookup = .replayed ⟨jobId, "", [], 0, status⟩ := by
  cases lookup with
  | created id =>
      obtain ⟨job, hjob, hof⟩ := h.stored
      exact absurd (decide_eq_true hof) (List.find?_eq_none.mp hopened.2.1 job hjob)
  | replayed result =>
      obtain ⟨-, job, hfind, rfl⟩ := hopened
      have hof : IsJobOf q.tenantId (q.criteriaHash env.rt) job := by
        simpa using List.find?_some hfind
      have hid := (h.sole job (List.mem_of_find?_eq_some hfind) hof).1
      refine ⟨job.status, ?_⟩
      have hnone : d.requests.find? (fun r => r.jobId = job.id) = none := by
        refine List.find?_eq_none.mpr fun row hrow => ?_
        rw [hid, decide_eq_true_eq]
        exact h.unasked row hrow
      rw [existingResult, hnone, hid]

/-- A synchronization of a query with a dead job asks nothing and publishes nothing: it
returns the dead job, or the database fails. -/
theorem syncMetadata_dead {jobId : String} {d : Db} {calls : List SatCall}
    {messages : List QueueMessage} {live enqueue : Bool} (h : DeadJob env.rt q jobId d) :
    Spec (fun w => w.db = d ∧ Work calls messages w) (syncMetadata env q live enqueue)
      (fun result w => Work calls messages w ∧ result.jobId = jobId ∧ result.requestId = "")
      (fun e w => Work calls messages w ∧ ¬ e.FromWork) := by
  have hout := @work_outside calls messages
  have hraise : ∀ (c : Prop) [Decidable c] (e : Fault), ¬ e.FromWork →
      Spec (fun w : World => w.db = d ∧ Work calls messages w) (Prog.raiseIf c e)
        (fun _ w => w.db = d ∧ Work calls messages w)
        fun e w => Work calls messages w ∧ ¬ e.FromWork := by
    intro c _ e he w hw
    by_cases hc : c
    · rw [Prog.exec_raiseIf_pos hc]
      exact ⟨hw.2, he⟩
    · rw [Prog.exec_raiseIf_neg hc]
      exact hw
  refine Spec.bind (hraise _ _ fun h => h) fun _ => Spec.bind (hraise _ _ fun h => h) fun _ => ?_
  refine Spec.bind (M := fun _ w => w.db = d ∧ Work calls messages w) (fun w hw => hw)
    fun createdAt => ?_
  have htenant : Spec (fun w => w.db = d ∧ Work calls messages w)
      (initTenant env q.tenantId q.requesterRfc (some q.tenantId))
      (fun _ w => TenantsFrom d w.db ∧ Work calls messages w)
      fun e w => Work calls messages w ∧ ¬ e.FromWork := by
    intro w hw
    have hspec := @initTenant_spec env _ q.tenantId q.requesterRfc (some q.tenantId) w hw.1
    have hwork := Keeps.final (@initTenant_outside env _ hout q.tenantId q.requesterRfc
        (some q.tenantId)) hw.2
    have hworkless := @initTenant_workless env q.tenantId q.requesterRfc (some q.tenantId) w
        trivial
    rcases hx : (initTenant env q.tenantId q.requesterRfc (some q.tenantId)).exec w with ⟨e | a, t⟩
    · rw [hx] at hworkless hwork
      exact ⟨hwork, hworkless⟩
    · rw [hx] at hspec hwork
      exact ⟨hspec.2, hwork⟩
  refine Spec.bind htenant fun _ => ?_
  intro w hw
  have hdead := h.tenants hw.1
  have hspec := @openJob_spec env q enqueue createdAt _ _ w ⟨rfl, rfl⟩
  have hwork := Keeps.final (@openJob_work env q enqueue createdAt _ _) hw.2
  have hworkless := @openJob_workless env q enqueue createdAt w trivial
  rw [Prog.exec_bind]
  rcases hx : (openJob env q enqueue createdAt).exec w with ⟨e | lookup, u⟩
  · rw [hx] at hworkless hwork
    exact ⟨hwork, hworkless⟩
  · rw [hx] at hspec hwork
    obtain ⟨status, rfl⟩ := hdead.replay hspec.2
    exact ⟨hwork, rfl, rfl⟩

end Sync

/-! ## A failed synchronization is not retried -/

/-- The job of a query is left running or pending, without a SAT request. -/
def LeftDead (rt : Runtime) (q : DownloadQuery) (d : Db) : Prop :=
  ∃ job ∈ d.jobs, IsJobOf q.tenantId (q.criteriaHash rt) job ∧
    (job.status = JobStatus.running.value ∨ job.status = JobStatus.pending.value) ∧
    ∀ row ∈ d.requests, row.jobId ≠ job.id

/-- A synchronization attempts its work: it asks SAT, or it publishes or fails to. -/
def AttemptsWork (env : Env) (q : DownloadQuery) (live enqueue : Bool) (w : World) : Prop :=
  let run := (syncMetadata env q live enqueue).exec w
  run.2.sat ≠ w.sat ∨ run.2.queue ≠ w.queue ∨ ∃ e, run.1 = .error e ∧ e.FromWork

section Law

variable {env : Env} {q : DownloadQuery}

theorem DeadJob.leftDead {rt : Runtime} {jobId : String} {d : Db} (h : DeadJob rt q jobId d) :
    LeftDead rt q d := by
  obtain ⟨job, hjob, hof⟩ := h.stored
  obtain ⟨hid, hstatus⟩ := h.sole job hjob hof
  refine ⟨job, hjob, hof, hstatus.symm, fun row hrow => ?_⟩
  rw [hid]
  exact h.unasked row hrow

theorem DeadJob.not_attempts {jobId : String} {live enqueue : Bool} {w : World}
    (h : DeadJob env.rt q jobId w.db) : ¬ AttemptsWork env q live enqueue w := by
  have hspec := @syncMetadata_dead env _ _ _ _ _ live enqueue h w ⟨rfl, rfl, rfl⟩
  unfold AttemptsWork
  dsimp only
  rcases hx : (syncMetadata env q live enqueue).exec w with ⟨e | result, t⟩
  · rw [hx] at hspec
    obtain ⟨⟨hsat, hqueue⟩, hwork⟩ := hspec
    rintro (hnew | hnew | ⟨e', he', hfrom⟩)
    · exact hnew hsat
    · exact hnew hqueue
    · cases he'
      exact hwork hfrom
  · rw [hx] at hspec
    obtain ⟨⟨hsat, hqueue⟩, -⟩ := hspec
    rintro (hnew | hnew | ⟨e', he', -⟩)
    · exact hnew hsat
    · exact hnew hqueue
    · cases he'

theorem deadJob_of_error {live enqueue : Bool} {w : World} {e : Fault}
    (hfresh : ∀ row ∈ w.db.requests, row.jobId ≠ env.uuid4 w.uuids)
    (hrun : ((syncMetadata env q live enqueue).exec w).1 = .error e) (hwork : e.FromWork) :
    DeadJob env.rt q (env.uuid4 w.uuids) ((syncMetadata env q live enqueue).exec w).2.db := by
  have hspec := @syncMetadata_failed env q _ _ live enqueue hfresh w ⟨rfl, rfl⟩
  generalize (syncMetadata env q live enqueue).exec w = run at hrun hspec ⊢
  obtain ⟨outcome, t⟩ := run
  cases (show outcome = .error e from hrun)
  exact hspec hwork

/-- After any failure in its work the job of a query is dead, and no later synchronization
of the query attempts the work: one that returns, returns the dead job. -/
theorem failed_sync_is_dead {live enqueue : Bool} {w : World} {e : Fault}
    (hfresh : ∀ row ∈ w.db.requests, row.jobId ≠ env.uuid4 w.uuids)
    (hrun : ((syncMetadata env q live enqueue).exec w).1 = .error e) (hwork : e.FromWork) :
    LeftDead env.rt q ((syncMetadata env q live enqueue).exec w).2.db ∧
    ∀ (later : Env) (live' enqueue' : Bool) (v : World), later.rt = env.rt →
      v.db = ((syncMetadata env q live enqueue).exec w).2.db →
      ¬ AttemptsWork later q live' enqueue' v ∧
      ∀ result, ((syncMetadata later q live' enqueue').exec v).1 = .ok result →
        result.jobId = env.uuid4 w.uuids ∧ result.requestId = "" := by
  have hdead := deadJob_of_error hfresh hrun hwork
  refine ⟨hdead.leftDead, fun later live' enqueue' v hrt hv => ?_⟩
  rw [← hv, ← hrt] at hdead
  refine ⟨hdead.not_attempts, fun result hresult => ?_⟩
  have hspec := @syncMetadata_dead _ _ _ _ _ _ live' enqueue' hdead v ⟨rfl, rfl, rfl⟩
  generalize (syncMetadata later q live' enqueue').exec v = run at hresult hspec
  obtain ⟨outcome, t⟩ := run
  cases (show outcome = .ok result from hresult)
  exact hspec.2

/-- A host whose SAT client refuses every request. -/
def unreachableSat : Env := { sampleEnv [] with submit := fun _ _ => .error "SAT is unreachable" }

theorem unreachableSat_raises :
    ((syncMetadata unreachableSat januaryQuery).exec (sampleWorld {})).1 =
      .error (.sat "SAT is unreachable") := by
  decide +kernel

theorem failed_sync_is_dead_sample :
    LeftDead sampleHost januaryQuery
      ((syncMetadata unreachableSat januaryQuery).exec (sampleWorld {})).2.db :=
  (@failed_sync_is_dead unreachableSat _ _ _ (sampleWorld {}) _ (by decide) unreachableSat_raises
      trivial).1

/-- SAT is unreachable once; the job stays running, and a second synchronization of the
query does not ask SAT again. -/
theorem unreachable_sat_leaves_dead_job :
    let w := ((syncMetadata unreachableSat januaryQuery).exec (sampleWorld {})).2
    ¬ (¬ LeftDead sampleHost januaryQuery w.db ∧
      AttemptsWork (sampleEnv []) januaryQuery false false w) := by
  have hdead := @deadJob_of_error unreachableSat _ _ _ (sampleWorld {}) _ (by decide)
      unreachableSat_raises trivial
  exact fun h => h.1 hdead.leftDead

end Law

/-! ## Packages of a failed job -/

/-- A downloaded package has its row: downloaded, with the digest of its content and a
storage key. -/
def DownloadPreserved (env : Env) (tenantId packageId : String) (content : Bytes) (d : Db) : Prop :=
  ∃ row, d.packages.find? (fun row => IsPackage tenantId packageId row) = some row ∧
    (downloadedKey (some row)).isSome ∧ row.sha256Zip = some (sha256Bytes env content)

/-- A call of `_process_sat_request_job` raised after `download_package` had returned the
content of a package. -/
def FailedAfterDownload (env : Env) (q : DownloadQuery) (jobId : String) (w : World)
    (packageId : String) (content : Bytes) : Prop :=
  let run := (processSatRequestJob env q jobId).exec w
  ∃ e before after, run.1 = .error e ∧ run.2.sat = w.sat ++ before ++ .download packageId :: after ∧
    env.download (w.sat ++ before) packageId = .ok content

section Packages

variable {env : Env} {q : DownloadQuery} {jobId : String}

/-- A call that raises leaves every table but the jobs alone. -/
theorem failed_job_packages {w : World} {e : Fault}
    (h : ((processSatRequestJob env q jobId).exec w).1 = .error e) :
    ((processSatRequestJob env q jobId).exec w).2.db.packages = w.db.packages := by
  have hspec := @processSatRequestJob_spec env q jobId _ _ w ⟨rfl, rfl⟩
  generalize (processSatRequestJob env q jobId).exec w = run at h hspec ⊢
  obtain ⟨outcome, t⟩ := run
  cases (show outcome = .error e from h)
  rcases hspec.2 with hsame | ⟨time, hset⟩
  · rw [hsame]
  · rw [hset]
    rfl

/-- The turn of a package whose row counts as downloaded and whose file stands asks SAT
nothing. -/
theorem fetchPackage_reuses {requestId packageId key : String} {requestedAt : DateTime} {v : World}
    {row : SatPackageRecord} {content : Bytes}
    (hrow : v.session.working.packages.find? (fun row => IsPackage q.tenantId packageId row) = some row)
    (hkey : downloadedKey (some row) = some key) (hfile : v.file? key = some content) :
    ((fetchPackage env q jobId requestId requestedAt packageId).exec v).2.sat = v.sat := by
  unfold fetchPackage
  rw [Prog.exec_bind, exec_select]
  by_cases hfails : env.databaseFails v.databaseOps
  · rw [if_pos hfails]
    rfl
  · rw [if_neg hfails, Prog.follow_ok, hrow, Prog.exec_bind]
    unfold storedContent disk
    rw [hkey]
    dsimp only
    rw [Prog.exec_act]
    dsimp only
    cases env.diskFails v.diskOps with
    | some n => rfl
    | none =>
        have hread : ({ v with databaseOps := v.databaseOps + 1 } : World).file? key = some content :=
          hfile
        dsimp only
        rw [hread]
        rfl

/-- The rows of the packages are part of the transaction that fails: a package downloaded
in a failed call has its row afterwards if and only if it had it before.  Where the row
and the file stand, a later turn of the package asks SAT nothing. -/
theorem partial_failure_iff {w : World} {packageId : String} {content : Bytes}
    (h : FailedAfterDownload env q jobId w packageId content) :
    (DownloadPreserved env q.tenantId packageId content
        ((processSatRequestJob env q jobId).exec w).2.db ↔
      DownloadPreserved env q.tenantId packageId content w.db) ∧
    ∀ (v : World) (requestId : String) (requestedAt : DateTime),
      DownloadPreserved env q.tenantId packageId content v.session.working →
      (∀ row key, v.session.working.packages.find? (fun row => IsPackage q.tenantId packageId row) =
        some row → downloadedKey (some row) = some key → (v.file? key).isSome) →
      ((fetchPackage env q jobId requestId requestedAt packageId).exec v).2.sat = v.sat := by
  obtain ⟨e, -, -, herror, -, -⟩ := h
  refine ⟨?_, fun v requestId requestedAt hpreserved hfiles => ?_⟩
  · rw [DownloadPreserved, failed_job_packages herror, DownloadPreserved]
  · obtain ⟨row, hrow, hdownloaded, -⟩ := hpreserved
    obtain ⟨key, hkey⟩ := Option.isSome_iff_exists.mp hdownloaded
    obtain ⟨content, hfile⟩ := Option.isSome_iff_exists.mp (hfiles row key hrow hkey)
    exact fetchPackage_reuses hrow hkey hfile

/-- A host on which the second package of a request cannot be downloaded. -/
def secondPackageLost : Env :=
  { sampleEnv [("state", .str "finished"), ("packages", .arr [.str "PKG-1", .str "PKG-2"])] with
    download := fun _ packageId => if packageId = "PKG-1" then .ok [] else .error "download failed" }

theorem secondPackageLost_fails :
    FailedAfterDownload secondPackageLost januaryQuery "job-1" (sampleWorld pendingJobDb) "PKG-1" [] := by
  refine ⟨.sat "download failed", [.submit januaryQuery, .verify "SAT-REQ-1"], [.download "PKG-2"],
    ?_, ?_, rfl⟩
  · decide +kernel
  · decide +kernel

theorem partial_failure_iff_sample :
    DownloadPreserved secondPackageLost "tenant-a" "PKG-1" []
        ((processSatRequestJob secondPackageLost januaryQuery "job-1").exec
          (sampleWorld pendingJobDb)).2.db ↔
      DownloadPreserved secondPackageLost "tenant-a" "PKG-1" [] pendingJobDb :=
  (partial_failure_iff secondPackageLost_fails).1

/-- The first of two packages is downloaded and stored, the second fails; no row remembers
the first. -/
theorem second_package_loses_first :
    ¬ ∀ packageId content, FailedAfterDownload secondPackageLost januaryQuery "job-1"
      (sampleWorld pendingJobDb) packageId content →
      DownloadPreserved secondPackageLost "tenant-a" packageId content
        ((processSatRequestJob secondPackageLost januaryQuery "job-1").exec
          (sampleWorld pendingJobDb)).2.db := by
  intro h
  obtain ⟨row, hrow, -⟩ := h "PKG-1" [] secondPackageLost_fails
  obtain ⟨e, -, -, herror, -, -⟩ := secondPackageLost_fails
  rw [failed_job_packages herror] at hrow
  cases hrow

end Packages

/-! ## A message that is delivered twice -/

/-- Processing a message a second time succeeds, adds no row of the named tables and
leaves the job succeeded. -/
def RedeliveryHarmless (env : Env) (message : QueueMessage) (w : World) : Prop :=
  let first := (processQueueMessage env message).exec w
  let second := (processQueueMessage env message).exec first.2
  (∃ result, second.1 = .ok result) ∧
  second.2.db.requests.length = first.2.db.requests.length ∧
  second.2.db.packages.length = first.2.db.packages.length ∧
  second.2.db.ledger.length = first.2.db.ledger.length ∧
  second.2.db.documents.length = first.2.db.documents.length ∧
  second.2.db.evidence.length = first.2.db.evidence.length ∧
  AllSucceeded message.jobId second.2.db

section Redelivery

variable {env : Env} {message : QueueMessage}

theorem satAnswer_requestId {q : DownloadQuery} {calls : List SatCall} {answer : SatAnswer}
    (h : satAnswer env q calls = .ok answer) : env.submit calls q = .ok answer.requestId := by
  unfold satAnswer at h
  obtain ⟨requestId, hsubmit, h⟩ := Checked.bind_eq_ok.mp h
  obtain ⟨response, -, h⟩ := Checked.bind_eq_ok.mp h
  obtain ⟨packages, -, h⟩ := Checked.bind_eq_ok.mp h
  obtain ⟨items, -, h⟩ := Checked.bind_eq_ok.mp h
  obtain ⟨metadata, -, h⟩ := Checked.bind_eq_ok.mp h
  rw [← Checked.pure_eq_ok.mp h]
  cases hx : env.submit calls q with
  | error e =>
      rw [hx] at hsubmit
      cases hsubmit
  | ok id =>
      rw [hx] at hsubmit
      cases hsubmit
      rfl

/-- A message that was processed was decoded, and the answer of SAT is on record. -/
theorem processQueueMessage_ok {w : World} {result : SyncResult}
    (h : ((processQueueMessage env message).exec w).1 = .ok result) :
    ∃ q answer, queryFromPayload (Json.toText env.textOf) message.payload = .ok q ∧
      env.submit w.sat q = .ok answer.requestId ∧
      RecordedFrom q message.jobId answer w.db ((processQueueMessage env message).exec w).2.db := by
  unfold processQueueMessage at h ⊢
  rw [Prog.exec_bind, Prog.exec_ofExcept] at h ⊢
  cases hq : queryFromPayload (Json.toText env.textOf) message.payload with
  | error e =>
      rw [hq] at h
      cases h
  | ok q =>
      rw [hq] at h
      rw [Prog.follow_ok] at h ⊢
      have hspec := @processSatRequestJob_spec env q message.jobId _ _ w ⟨rfl, rfl⟩
      generalize (processSatRequestJob env q message.jobId).exec w = run at h hspec ⊢
      obtain ⟨outcome, t⟩ := run
      cases (show outcome = .ok result from h)
      obtain ⟨-, answer, hanswer, -, hrecorded⟩ := hspec
      exact ⟨q, answer, rfl, satAnswer_requestId hanswer, hrecorded⟩

/-- A recorded answer has its request row, and an answer under the id of a row that stands
cannot be recorded. -/
theorem RecordedFrom.requests {q : DownloadQuery} {jobId : String} {answer : SatAnswer}
    {before after : Db} (h : RecordedFrom q jobId answer before after) :
    (∃ row ∈ after.requests, row.idSolicitud = answer.requestId) ∧
      ∀ row ∈ before.requests, row.idSolicitud ≠ answer.requestId := by
  obtain ⟨between, hbetween, hrecorded⟩ := h
  obtain ⟨row, hrequests, -, hid, -⟩ := hrecorded.request
  refine ⟨⟨row, ?_, hid⟩, ?_⟩
  · rw [hrequests]
    exact List.mem_append_right _ (List.mem_singleton_self row)
  · rcases hbetween with rfl | ⟨time, rfl⟩ <;> exact hrecorded.new

theorem redelivery_fails {w : World} {first second : SyncResult}
    (hfirst : ((processQueueMessage env message).exec w).1 = .ok first)
    (hsame : ∀ q, queryFromPayload (Json.toText env.textOf) message.payload = .ok q →
      env.submit ((processQueueMessage env message).exec w).2.sat q = env.submit w.sat q) :
    ((processQueueMessage env message).exec ((processQueueMessage env message).exec w).2).1 ≠
      .ok second := by
  intro hsecond
  obtain ⟨q, answer, hq, hid, hrecorded⟩ := processQueueMessage_ok hfirst
  obtain ⟨q', answer', hq', hid', hrecorded'⟩ := processQueueMessage_ok hsecond
  cases hq.symm.trans hq'
  have hids : answer.requestId = answer'.requestId := by
    have := (hid'.symm.trans (hsame q hq)).trans hid
    injection this with hids
    exact hids.symm
  obtain ⟨row, hrow, hrowId⟩ := hrecorded.requests.1
  exact hrecorded'.requests.2 row hrow (hrowId.trans hids)

/-- A message whose first processing succeeded is never harmless when SAT answers its
redelivery with the same request id: the row of the request is inserted a second time. -/
theorem redelivery_never_harmless {w : World} {result : SyncResult}
    (hfirst : ((processQueueMessage env message).exec w).1 = .ok result)
    (hsame : ∀ q, queryFromPayload (Json.toText env.textOf) message.payload = .ok q →
      env.submit ((processQueueMessage env message).exec w).2.sat q = env.submit w.sat q) :
    ¬ RedeliveryHarmless env message w := by
  rintro ⟨⟨second, hsecond⟩, -⟩
  exact redelivery_fails hfirst hsame hsecond

/-- The message of a query. -/
def januaryMessage : QueueMessage where
  queue := .satRequest
  tenantId := "tenant-a"
  rfc := "AAA010101AAA"
  payload := queryPayload sampleHost januaryQuery
  jobId := "job-1"
  correlationId := "uuid-0"
  createdAt := .utc 63842385600000000

theorem januaryMessage_processed :
    ((processQueueMessage (sampleEnv [("state", .str "finished")]) januaryMessage).exec
      (sampleWorld pendingJobDb)).1 =
      .ok ⟨"job-1", "SAT-REQ-1", [], 0, JobStatus.succeeded.value⟩ := by
  decide +kernel

theorem redelivery_never_harmless_sample :
    ¬ RedeliveryHarmless (sampleEnv [("state", .str "finished")]) januaryMessage
      (sampleWorld pendingJobDb) :=
  redelivery_never_harmless januaryMessage_processed fun _ _ => rfl

/-- SAT answers the redelivered message with the same request id, and processing fails. -/
theorem redelivered_message_fails :
    ¬ ∀ result, ((processQueueMessage (sampleEnv [("state", .str "finished")]) januaryMessage).exec
        (sampleWorld pendingJobDb)).1 = .ok result →
      RedeliveryHarmless (sampleEnv [("state", .str "finished")]) januaryMessage
        (sampleWorld pendingJobDb) := by
  intro h
  obtain ⟨⟨second, hsecond⟩, -⟩ := h _ januaryMessage_processed
  exact redelivery_fails januaryMessage_processed (fun _ _ => rfl) hsecond

end Redelivery

end Recovery

end CfdiVault
