import CfdiVault.Library.Interleaving
import CfdiVault.RecoveryAsking

/-!
# Two synchronizations at a time

`sync_metadata` looks for the tenant and for the job of its query and inserts the row it
has not found.  A lookup opens no transaction, so between the lookup and the insertion
another call may commit the same row.  The database then refuses the second row, and the
call raises instead of returning the job that is there.

`SyncPhase` cuts a call where other calls of the database may come in between, and
`alone_eq` says that a call whose turns follow each other is `sync_metadata`.  For two calls
for one tenant and one criteria hash, `collapsed_iff` says when they collapse to one job.
-/

namespace CfdiVault

open Interleaving

namespace Recovery

/-! ## The phases of a call -/

/-- Where a call of `sync_metadata` stands, with the values it goes on with. -/
inductive SyncPhase where
  | called
  | tenantRead (createdAt tenantAt : DateTime) (tenant : Option Tenant)
  | tenantSaved (createdAt : DateTime)
  | jobRead (createdAt : DateTime) (job : Option DownloadJob)
  | jobCreated (jobId : String)
  | jobRunning (jobId : String) (requestedAt : DateTime)
  | answered (jobId : String) (requestedAt : DateTime) (answer : SatAnswer)
  | returned (result : SyncResult)
  | raised (fault : Fault)

section Phases

variable (env : Env) (q : DownloadQuery)

/-- The lookup of the tenant. -/
def readTenant : Recovery (Option Tenant) :=
  withSession (select env fun d => d.tenants.find? fun t => t.id = q.tenantId)

/-- The transaction of the tenant. -/
def writeTenant (tenantAt : DateTime) (tenant : Option Tenant) : Recovery PUnit :=
  withSession do
    saveTenant env q.tenantId q.requesterRfc (some q.tenantId) tenantAt tenant
    commit env

/-- The lookup of the job. -/
def readJob : Recovery (Option DownloadJob) :=
  withSession (select env fun d => d.jobs.find? fun job => IsJobOf q.tenantId (q.criteriaHash env.rt) job)

/-- The result of a job that SAT has answered. -/
def answeredResult (jobId : String) (answer : SatAnswer) : SyncResult :=
  ⟨jobId, answer.requestId, answer.packages, answer.metadata.length, JobStatus.succeeded.value⟩

namespace SyncPhase

/-- The next part of a call: one lookup, one transaction, or the question to SAT. -/
def program : SyncPhase → Recovery SyncPhase
  | called => do
      validated q
      let createdAt ← now env
      let tenantAt ← now env
      let tenant ← readTenant env q
      pure (tenantRead createdAt tenantAt tenant)
  | tenantRead createdAt tenantAt tenant => do
      writeTenant env q tenantAt tenant
      pure (tenantSaved createdAt)
  | tenantSaved createdAt => do
      let job ← readJob env q
      pure (jobRead createdAt job)
  | jobRead _ (some job) => do
      let result ← withSession (resultForExistingJob env job)
      pure (returned result)
  | jobRead createdAt none => do
      let jobId ← withSession (createJob env q false createdAt)
      pure (jobCreated jobId)
  | jobCreated jobId => do
      let requestedAt ← now env
      markRunning env jobId requestedAt
      pure (jobRunning jobId requestedAt)
  | jobRunning jobId requestedAt => do
      let answer ← askSat env q
      pure (answered jobId requestedAt answer)
  | answered jobId requestedAt answer => do
      recordAnswer env q jobId answer requestedAt
      pure (returned (answeredResult jobId answer))
  | returned result => pure (returned result)
  | raised fault => pure (raised fault)

/-- A turn of a call. -/
def advance (phase : SyncPhase) (w : World) : SyncPhase × World :=
  match (phase.program env q).exec w with
  | (.ok next, v) => (next, v)
  | (.error fault, v) => (raised fault, v)

/-- What a call has still to do. -/
def rest : SyncPhase → Recovery SyncResult
  | called => syncMetadata env q
  | tenantRead createdAt tenantAt tenant => do
      writeTenant env q tenantAt tenant
      let job ← openJob env q false createdAt
      startJob env q false job
  | tenantSaved createdAt => do
      let job ← openJob env q false createdAt
      startJob env q false job
  | jobRead _ (some job) => withSession (resultForExistingJob env job)
  | jobRead createdAt none => do
      let jobId ← withSession (createJob env q false createdAt)
      processSatRequestJob env q jobId
  | jobCreated jobId => processSatRequestJob env q jobId
  | jobRunning jobId requestedAt => do
      let answer ← askSat env q
      recordAnswer env q jobId answer requestedAt
      pure (answeredResult jobId answer)
  | answered jobId requestedAt answer => do
      recordAnswer env q jobId answer requestedAt
      pure (answeredResult jobId answer)
  | returned result => pure result
  | raised fault => throw fault

end SyncPhase

end Phases

namespace SyncPhase

/-- How a call has ended. -/
def outcome? : SyncPhase → Option (Except Fault SyncResult)
  | returned result => some (.ok result)
  | raised fault => some (.error fault)
  | _ => none

/-- The turns that a call still needs at most. -/
def rank : SyncPhase → Nat
  | called => 7
  | tenantRead _ _ _ => 6
  | tenantSaved _ => 5
  | jobRead _ _ => 4
  | jobCreated _ => 3
  | jobRunning _ _ => 2
  | answered _ _ _ => 1
  | returned _ | raised _ => 0

/-- The requests that the next turn of a call submits. -/
def submissions : SyncPhase → Nat
  | jobRunning _ _ => 1
  | _ => 0

/-- The call has raised. -/
def Raised (phase : SyncPhase) : Prop := ∃ fault, phase = raised fault

end SyncPhase

/-! ## Sessions cut in two -/

/-- The connection between two sessions. -/
def World.reset (w : World) : World := { w with session := w.session.reset }

section Sessions

variable {env : Env} {α β : Type}

theorem exec_withSession (body : Recovery α) (w : World) :
    (withSession body).exec w = ((body.exec w.reset).1, (body.exec w.reset).2.reset) := rfl

@[simp] theorem reset_reset (w : World) : w.reset.reset = w.reset := rfl

/-- A session whose first part leaves the connection alone is two sessions. -/
theorem withSession_bind {p : Recovery α} {f : α → Recovery β}
    (hp : ∀ w, (p.exec w).2.session = w.session) :
    withSession (p >>= f) = withSession p >>= fun a => withSession (f a) := by
  refine Prog.ext fun w => ?_
  have hsession := hp w.reset
  rw [exec_withSession, Prog.exec_bind, Prog.exec_bind, exec_withSession]
  rcases hx : p.exec w.reset with ⟨e | a, t⟩
  · rfl
  · rw [hx] at hsession
    have ht : t.reset = t := by
      have ht : t.session = Session.idle w.db := hsession
      rw [World.reset, ht, Session.reset_idle, ← ht]
    rw [Prog.follow_ok, Prog.follow_ok, exec_withSession, reset_reset, ht]

/-- What a session returns may be computed after its end. -/
theorem withSession_map {p : Recovery α} {g : α → β} :
    withSession (p >>= fun a => pure (g a)) = withSession p >>= fun a => pure (g a) := by
  refine Prog.ext fun w => ?_
  rw [exec_withSession, Prog.exec_bind, Prog.exec_bind, exec_withSession]
  rcases p.exec w.reset with ⟨e | a, t⟩ <;> rfl

theorem select_session {view : Db → α} (w : World) :
    ((select env view).exec w).2.session = w.session := by
  rw [exec_select]
  split <;> rfl

end Sessions

/-! ## A call alone -/

section Alone

variable {env : Env} {q : DownloadQuery}

theorem initTenant_eq : initTenant env q.tenantId q.requesterRfc (some q.tenantId) = (do
    let tenantAt ← now env
    let tenant ← readTenant env q
    writeTenant env q tenantAt tenant) := by
  unfold initTenant readTenant writeTenant
  exact congrArg (now env >>= ·) (funext fun tenantAt => withSession_bind select_session)

theorem openJob_eq {createdAt : DateTime} : openJob env q false createdAt >>= startJob env q false =
    readJob env q >>= fun job => (SyncPhase.jobRead createdAt job).rest env q := by
  unfold openJob readJob
  rw [withSession_bind select_session, bind_assoc]
  refine congrArg (_ >>= ·) (funext fun job => ?_)
  cases job with
  | none =>
      dsimp only
      rw [withSession_map, bind_assoc]
      rfl
  | some job =>
      dsimp only
      rw [withSession_map, bind_assoc]
      exact bind_pure _

/-- A call that has taken a part has the rest to do. -/
theorem rest_eq (phase : SyncPhase) :
    phase.rest env q = phase.program env q >>= SyncPhase.rest env q := by
  cases phase with
  | called =>
      change syncMetadata env q = _
      unfold syncMetadata SyncPhase.program
      rw [initTenant_eq]
      simp only [bind_assoc, pure_bind]
      rfl
  | tenantRead createdAt tenantAt tenant => simp only [SyncPhase.program, bind_assoc, pure_bind]; rfl
  | tenantSaved createdAt =>
      simp only [SyncPhase.program, bind_assoc, pure_bind]
      exact openJob_eq
  | jobRead createdAt job =>
      cases job with
      | none => simp only [SyncPhase.program, bind_assoc, pure_bind]; rfl
      | some job =>
          simp only [SyncPhase.program, bind_assoc, pure_bind]
          exact (bind_pure _).symm
  | jobCreated jobId => simp only [SyncPhase.program, bind_assoc, pure_bind]; rfl
  | jobRunning jobId requestedAt => simp only [SyncPhase.program, bind_assoc, pure_bind]; rfl
  | answered jobId requestedAt answer => simp only [SyncPhase.program, bind_assoc, pure_bind]; rfl
  | returned result => rfl
  | raised fault => rfl

/-- A turn does the next part of what a call has to do. -/
theorem rest_advance (phase : SyncPhase) (w : World) :
    ((phase.advance env q w).1.rest env q).exec (phase.advance env q w).2 = (phase.rest env q).exec w := by
  rw [rest_eq phase, Prog.exec_bind, SyncPhase.advance]
  rcases (phase.program env q).exec w with ⟨e | next, v⟩ <;> rfl

end Alone

/-! ## What a turn does -/

/-- What the constraint of the job table is about. -/
def jobKey (job : DownloadJob) : String × String × String := (job.id, job.tenantId, job.criteriaHash)

/-- The same jobs, up to their status. -/
def SameJobs (d e : Db) : Prop := e.jobs.map jobKey = d.jobs.map jobKey

/-- The ids of the jobs of a tenant with a criteria hash. -/
def jobsOf (tenantId criteriaHash : String) (d : Db) : List String :=
  (d.jobs.filter fun job => IsJobOf tenantId criteriaHash job).map (·.id)

/-- What a turn of a call that does not raise does to the durable database, from phase to
phase. -/
inductive Turn (env : Env) (q : DownloadQuery) (drawn : Nat) (d e : Db) : SyncPhase → SyncPhase → Prop
  | tenantRead {createdAt tenantAt : DateTime} {tenant : Option Tenant} (hsame : e = d) :
      Turn env q drawn d e .called (.tenantRead createdAt tenantAt tenant)
  | tenantSaved {createdAt tenantAt : DateTime} {tenant : Option Tenant} (htenants : TenantsFrom d e) :
      Turn env q drawn d e (.tenantRead createdAt tenantAt tenant) (.tenantSaved createdAt)
  | jobRead {createdAt : DateTime} (hsame : e = d) :
      Turn env q drawn d e (.tenantSaved createdAt) (.jobRead createdAt
        (d.jobs.find? fun job => IsJobOf q.tenantId (q.criteriaHash env.rt) job))
  | replayed {createdAt : DateTime} {job : DownloadJob} (hsame : e = d) :
      Turn env q drawn d e (.jobRead createdAt (some job)) (.returned (existingResult d job))
  | created {createdAt : DateTime} {jobId : String}
      (hopened : Opened env q false createdAt drawn d (.created jobId) e) :
      Turn env q drawn d e (.jobRead createdAt none) (.jobCreated jobId)
  | running {jobId : String} {requestedAt : DateTime} (hjobs : SameJobs d e) :
      Turn env q drawn d e (.jobCreated jobId) (.jobRunning jobId requestedAt)
  | answered {jobId : String} {requestedAt : DateTime} {answer : SatAnswer} (hsame : e = d) :
      Turn env q drawn d e (.jobRunning jobId requestedAt) (.answered jobId requestedAt answer)
  | recorded {jobId : String} {requestedAt : DateTime} {answer : SatAnswer} (hjobs : SameJobs d e) :
      Turn env q drawn d e (.answered jobId requestedAt answer) (.returned (answeredResult jobId answer))
  | returned {result : SyncResult} (hsame : e = d) :
      Turn env q drawn d e (.returned result) (.returned result)
  | raised {fault : Fault} (hsame : e = d) : Turn env q drawn d e (.raised fault) (.raised fault)

section Turns

variable {env : Env} {q : DownloadQuery} {d e : Db}

theorem SameJobs.jobsOf_eq (h : SameJobs d e) (tenantId criteriaHash : String) :
    jobsOf tenantId criteriaHash e = jobsOf tenantId criteriaHash d := by
  have hkeys : ∀ jobs : List DownloadJob,
      (jobs.filter fun job => IsJobOf tenantId criteriaHash job).map (·.id) =
        ((jobs.map jobKey).filter fun key => key.2 = (tenantId, criteriaHash)).map (·.1) := by
    intro jobs
    rw [List.filter_map, List.map_map]
    simp only [IsJobOf, Function.comp_def, jobKey, Prod.mk.injEq]
  rw [jobsOf, jobsOf, hkeys, hkeys, h]

theorem sameJobs_setJobStatus {jobId : String} {status : JobStatus} {time : DateTime} :
    SameJobs d (setJobStatus jobId status time d) :=
  have hwithin : ChangeWithin "" jobId (setJobStatus jobId status time) := .job status time
  hwithin.jobs (fun _ _ _ => rfl) d

theorem recordAnswer_jobs {jobId : String} {answer : SatAnswer} {requestedAt : DateTime} :
    Spec (fun w => w.db = d) (recordAnswer env q jobId answer requestedAt)
      (fun _ w => SameJobs d w.db) fun _ w => w.db = d := by
  refine Spec.weaken (withSession_spec (Q := fun _ => SameJobs d) ?_) (fun _ h => h)
    (fun _ _ h => h.2) fun _ _ h => db_of_idle h
  let P : Session Db Row → Prop := fun s => s.working.jobs.map jobKey = d.jobs.map jobKey ∧
    s.pending.flatMap jobRows = []
  have hjobs : Stable q.tenantId jobId P := jobs_stable (fun _ _ _ => rfl) _
  refine Spec.weaken (P := OnSession fun s => P s ∧ s.committed = d) ?_ (fun w hw => ?_)
    (fun _ _ h => h) fun _ _ h => h
  · refine Spec.bind (keeps_session (recordSteps_keeps (hjobs.and (committed_stable _ _ d))
      fun row s h => ?_)) fun _ => commit_spec fun s t hs hflush => (hjobs.flush s t hflush hs).1
    refine ⟨⟨h.1.1, ?_⟩, h.2⟩
    rw [Session.add_pending, List.flatMap_append, h.1.2]
    rfl
  · have hsession : w.session = Session.idle d := hw
    rw [OnSession, hsession]
    exact ⟨⟨rfl, rfl⟩, rfl⟩

theorem writeTenant_spec {tenantAt : DateTime} {tenant : Option Tenant} :
    Spec (fun w => w.db = d) (writeTenant env q tenantAt tenant) (fun _ w => TenantsFrom d w.db)
      fun _ w => w.db = d := by
  refine Spec.weaken (withSession_spec (Q := fun _ => TenantsFrom d) ?_) (fun _ h => h)
    (fun _ _ h => h.2) fun _ _ h => db_of_idle h
  exact Spec.weaken saveTenant_spec (fun w hw => ⟨hw, db_of_idle hw⟩) (fun _ _ h => h) fun _ _ h => h

/-- A session that only reads. -/
theorem withSession_reads {α : Type} {body : Recovery α} {value : Db → α}
    (hbody : ∀ d, Spec (fun w => w.session = Session.idle d) body
      (fun a w => w.db = d ∧ a = value d) fun _ w => w.db = d) :
    Spec (fun w => w.db = d) (withSession body) (fun a w => w.db = d ∧ a = value d)
      fun _ w => w.db = d :=
  Spec.weaken (withSession_spec (Q := fun a e => e = d ∧ a = value d) (hbody d)) (fun _ h => h)
    (fun _ _ h => h.2) fun _ _ h => db_of_idle h

theorem select_reads {α : Type} {view : Db → α} (d : Db) :
    Spec (fun w => w.session = Session.idle d) (select env view) (fun a w => w.db = d ∧ a = view d)
      fun _ w => w.db = d := by
  intro w hw
  have hdb : w.db = d := db_of_idle hw
  rw [exec_select]
  split
  · exact hdb
  · refine ⟨hdb, ?_⟩
    rw [hw]
    rfl

theorem resultForExistingJob_reads {job : DownloadJob} (d : Db) :
    Spec (fun w => w.session = Session.idle d) (resultForExistingJob env job)
      (fun result w => w.db = d ∧ result = existingResult d job) fun _ w => w.db = d := by
  have hkeeps : Keeps (fun w => w.db = d) (resultForExistingJob env job) :=
    resultForExistingJob_keeps (J := fun s => s.committed = d)
  refine Spec.weaken (Ensures.spec resultForExistingJob_spec hkeeps)
    (fun w hw => ⟨hw, db_of_idle hw⟩) (fun _ _ h => ⟨h.2, h.1.2⟩) fun _ _ h => h

theorem existingResult_jobId {job : DownloadJob} : (existingResult d job).jobId = job.id := by
  unfold existingResult
  split <;> rfl

/-- Every part of a call is a turn. -/
theorem program_spec {drawn : Nat} (phase : SyncPhase) :
    Spec (fun w => w.db = d ∧ w.uuids = drawn) (phase.program env q)
      (fun next w => Turn env q drawn d w.db phase next) fun _ w => w.db = d := by
  let Here : World → Prop := fun w => w.db = d
  suffices h : Spec (fun w => Here w ∧ w.uuids = drawn) (phase.program env q)
      (fun next w => Turn env q drawn d w.db phase next) fun _ => Here from h
  have hread {α : Type} {p : Recovery α} {value : Db → α}
      (hp : Spec Here p (fun a w => w.db = d ∧ a = value d) fun _ w => w.db = d)
      {next : α → SyncPhase} (hnext : ∀ e, e = d → Turn env q drawn d e phase (next (value d))) :
      Spec Here (p >>= fun a => pure (next a)) (fun next w => Turn env q drawn d w.db phase next)
        fun _ => Here :=
    Spec.bind hp fun a => Spec.pure _ fun w hw => hw.2 ▸ hnext w.db hw.1
  have hnow : Keeps Here (now env) := fun _ hw => hw
  cases phase with
  | called =>
      refine Spec.weaken (P := Here) ?_ (fun _ h => h.1) (fun _ _ h => h) fun _ _ h => h
      refine Spec.bind (Keeps.raiseIf _ _) fun _ => Spec.bind hnow fun _ => Spec.bind hnow fun _ => ?_
      exact hread (withSession_reads select_reads) fun _ he => .tenantRead he
  | tenantRead createdAt tenantAt tenant =>
      refine Spec.weaken (P := Here) ?_ (fun _ h => h.1) (fun _ _ h => h) fun _ _ h => h
      exact Spec.bind writeTenant_spec fun _ => Spec.pure _ fun _ h => .tenantSaved h
  | tenantSaved createdAt =>
      refine Spec.weaken (P := Here) ?_ (fun _ h => h.1) (fun _ _ h => h) fun _ _ h => h
      exact hread (withSession_reads select_reads) fun _ he => .jobRead he
  | jobRead createdAt job =>
      cases job with
      | some job =>
          refine Spec.weaken (P := Here) ?_ (fun _ h => h.1) (fun _ _ h => h) fun _ _ h => h
          exact hread (withSession_reads resultForExistingJob_reads) fun _ he => .replayed he
      | none =>
          refine Spec.bind ?_ fun _ => Spec.pure _ fun _ h => .created h
          intro w hw
          have hcreated := withSession_holds
            (Q := fun jobId e => Opened env q false createdAt drawn d (.created jobId) e)
            hw.1 (createJob_spec _ ⟨rfl, hw.2⟩)
          rcases hx : (withSession (createJob env q false createdAt)).exec w with ⟨fault | jobId, t⟩
          · rw [hx] at hcreated
            exact db_of_idle hcreated
          · rw [hx] at hcreated
            exact hcreated.2
  | jobCreated jobId =>
      refine Spec.weaken (P := Here) ?_ (fun _ h => h.1) (fun _ _ h => h) fun _ _ h => h
      refine Spec.bind hnow fun requestedAt => Spec.bind (M := fun _ w => SameJobs d w.db) ?_ fun _ =>
        Spec.pure _ fun _ h => .running h
      refine Spec.weaken markRunning_spec (fun _ h => h) (fun _ w h => ?_) fun _ _ h => db_of_idle h
      rcases h.2 with hsame | hset
      · exact congrArg (fun e : Db => e.jobs.map jobKey) hsame
      · rw [hset]
        exact sameJobs_setJobStatus
  | jobRunning jobId requestedAt =>
      refine Spec.weaken (P := Here) ?_ (fun _ h => h.1) (fun _ _ h => h) fun _ _ h => h
      have hask : Keeps Here (askSat env q) := askSat_keeps (J := fun s => s.committed = d)
      exact Spec.bind hask fun _ => Spec.pure _ fun _ h => .answered h
  | answered jobId requestedAt answer =>
      refine Spec.weaken (P := Here) ?_ (fun _ h => h.1) (fun _ _ h => h) fun _ _ h => h
      exact Spec.bind recordAnswer_jobs fun _ => Spec.pure _ fun _ h => .recorded h
  | returned result => exact Spec.pure _ fun _ h => .returned h.1
  | raised fault => exact Spec.pure _ fun _ h => .raised h.1

/-- A turn goes on or raises; in a turn that raises nothing durable changes. -/
theorem advance_turn (phase : SyncPhase) (w : World) :
    Turn env q w.uuids w.db (phase.advance env q w).2.db phase (phase.advance env q w).1 ∨
      (phase.advance env q w).1.Raised ∧ (phase.advance env q w).2.db = w.db := by
  have hspec := @program_spec env q w.db w.uuids phase w ⟨rfl, rfl⟩
  rw [SyncPhase.advance]
  rcases hx : (phase.program env q).exec w with ⟨fault | next, v⟩
  · rw [hx] at hspec
    exact .inr ⟨⟨fault, rfl⟩, hspec⟩
  · rw [hx] at hspec
    exact .inl hspec

/-- A turn brings a call nearer to its end. -/
theorem rank_advance (phase : SyncPhase) (w : World) :
    (phase.advance env q w).1.rank ≤ phase.rank - 1 := by
  rcases @advance_turn env q phase w with hturn | ⟨⟨fault, hraised⟩, -⟩
  · generalize (phase.advance env q w).1 = next at hturn ⊢
    cases hturn <;> exact Nat.le_of_ble_eq_true rfl
  · rw [hraised]
    exact Nat.zero_le _

/-- Only a call that asks SAT submits a request, and only one. -/
theorem advance_submits (phase : SyncPhase) (w : World) :
    submits (phase.advance env q w).2.sat =
      submits w.sat + phase.submissions := by
  have hsame : (phase.advance env q w).2 = ((phase.program env q).exec w).2 := by
    rw [SyncPhase.advance]
    rcases (phase.program env q).exec w with ⟨fault | next, v⟩ <;> rfl
  rw [hsame]
  have hout := @submitted_outside (submits w.sat)
  have hkeeps {p : Recovery SyncPhase} (hp : Keeps (Submitted (submits w.sat)) p) :
      submits (p.exec w).2.sat = submits w.sat + 0 := Keeps.final hp rfl
  cases phase with
  | called =>
      exact hkeeps (Keeps.bind (Keeps.raiseIf _ _) fun _ => Keeps.bind (now_outside hout) fun _ =>
        Keeps.bind (now_outside hout) fun _ =>
          Keeps.bind (withSession_outside hout (select_outside hout)) fun _ => Keeps.pure _)
  | tenantRead createdAt tenantAt tenant =>
      refine hkeeps (Keeps.bind (withSession_outside hout (Keeps.bind ?_ fun _ => commit_outside hout))
        fun _ => Keeps.pure _)
      cases tenant with
      | none => exact add_outside hout
      | some row => exact update_outside hout
  | tenantSaved createdAt =>
      exact hkeeps (Keeps.bind (withSession_outside hout (select_outside hout)) fun _ => Keeps.pure _)
  | jobRead createdAt job =>
      cases job with
      | some job =>
          exact hkeeps (Keeps.bind (withSession_outside hout (resultForExistingJob_outside hout))
            fun _ => Keeps.pure _)
      | none =>
          refine hkeeps (Keeps.bind (withSession_outside hout ?_) fun _ => Keeps.pure _)
          exact Keeps.bind uuid4_submitted fun _ => Keeps.bind (add_outside hout) fun _ =>
            Keeps.bind event_submitted fun _ => Keeps.bind (commit_outside hout) fun _ => Keeps.pure _
  | jobCreated jobId =>
      exact hkeeps (Keeps.bind (now_outside hout) fun _ =>
        Keeps.bind (markRunning_outside hout) fun _ => Keeps.pure _)
  | jobRunning jobId requestedAt =>
      have hask := @askSat_submitted env q w
      change submits (Prog.exec (askSat env q >>= _) w).2.sat = submits w.sat + 1
      rw [Prog.exec_bind]
      rcases hx : (askSat env q).exec w with ⟨fault | answer, v⟩ <;> rw [hx] at hask <;> exact hask
  | answered jobId requestedAt answer =>
      exact hkeeps (Keeps.bind recordAnswer_submitted fun _ => Keeps.pure _)
  | returned result => rfl
  | raised fault => rfl

end Turns

/-! ## When a turn goes on -/

/-- The program returns. -/
def Returns {α : Type} (p : Recovery α) (w : World) : Prop := ∃ a v, p.exec w = (.ok a, v)

/-- The next turn of a call meets nothing in its way: its query is valid; the tenant and the
job that it has not found are still not there, and the id of the new job is not taken; SAT
answers, and the answer can be recorded. -/
def Unhindered (env : Env) (q : DownloadQuery) : SyncPhase → World → Prop
  | .called, _ => q.validate = []
  | .tenantRead _ _ none, w => ∀ t ∈ w.db.tenants, t.id ≠ q.tenantId
  | .jobRead _ none, w => ∀ job ∈ w.db.jobs,
      ¬ (job.id = env.uuid4 w.uuids ∨ IsJobOf q.tenantId (q.criteriaHash env.rt) job)
  | .jobRunning _ _, w => ∃ answer, satAnswer env q w.sat = .ok answer
  | .answered jobId requestedAt answer, w => Returns (recordAnswer env q jobId answer requestedAt) w
  | _, _ => True

section Returns

variable {env : Env} {q : DownloadQuery} {α β : Type}

theorem returns_of_exec {p : Recovery α} {w v : World} {a : α} (h : p.exec w = (.ok a, v)) :
    Returns p w := ⟨a, v, h⟩

theorem returns_bind {p : Recovery α} {f : α → Recovery β} {w v : World} {a : α}
    (h : p.exec w = (.ok a, v)) : Returns (p >>= f) w ↔ Returns (f a) v := by
  rw [Returns, Prog.exec_bind_ok h, Returns]

theorem returns_map {p : Recovery α} {g : α → β} {w : World} :
    Returns (p >>= fun a => pure (g a)) w ↔ Returns p w := by
  rw [Returns, Returns, Prog.exec_bind]
  rcases p.exec w with ⟨e | a, v⟩
  · exact iff_of_false (fun ⟨_, _, h⟩ => (nomatch h)) fun ⟨_, _, h⟩ => (nomatch h)
  · exact iff_of_true ⟨g a, v, rfl⟩ ⟨a, v, rfl⟩

theorem returns_withSession {p : Recovery α} {w : World} :
    Returns (withSession p) w ↔ Returns p w.reset := by
  rw [Returns, Returns, exec_withSession]
  rcases p.exec w.reset with ⟨e | a, v⟩
  · exact iff_of_false (fun ⟨_, _, h⟩ => (nomatch h)) fun ⟨_, _, h⟩ => (nomatch h)
  · exact iff_of_true ⟨a, v.reset, rfl⟩ ⟨a, v, rfl⟩

/-- A row before others that are always accepted is refused exactly if it clashes. -/
theorem insertAll_head {row : Row} {rows : List Row} {d : Db}
    (hrows : ∀ d, ∃ e, Session.insertAll insert rows d = some e) :
    (∃ e, Session.insertAll insert (row :: rows) d = some e) ↔ ¬ Clashes d row := by
  constructor
  · rintro ⟨e, he⟩
    obtain ⟨d', hd', -⟩ := Session.insertAll_cons_eq_some.mp he
    exact (insert_eq_some.mp hd').1
  · intro hclash
    obtain ⟨e, he⟩ := hrows (append d row)
    exact ⟨e, Session.insertAll_cons_eq_some.mpr ⟨_, insert_eq_some.mpr ⟨hclash, rfl⟩, he⟩⟩

theorem insertAll_nil (d : Db) : Session.insertAll insert [] d = some d := rfl

theorem insertAll_jobEvent {e : QueueJobEvent} (d : Db) :
    ∃ d', Session.insertAll insert [.jobEvent e] d = some d' :=
  ⟨_, rfl⟩

theorem Turn.not_raised {drawn : Nat} {d e : Db} {phase next : SyncPhase}
    (h : Turn env q drawn d e phase next) (hphase : ¬ phase.Raised) : ¬ next.Raised := by
  rintro ⟨fault, rfl⟩
  cases h
  exact hphase ⟨fault, rfl⟩

variable (hup : ∀ n, env.databaseFails n = false)
include hup

theorem exec_select_up (view : Db → α) (w : World) : (select env view).exec w =
    (.ok (view w.session.working), { w with databaseOps := w.databaseOps + 1 }) := by
  rw [exec_select, hup]
  rfl

/-- A commit returns exactly if the waiting rows violate no constraint. -/
theorem returns_commit {w : World} : Returns (commit env) w ↔
    ∃ d, Session.insertAll insert w.session.pending w.session.working = some d := by
  unfold Returns commit
  rw [Prog.exec_bind, exec_flush, hup, Session.flush?]
  cases Session.insertAll insert w.session.pending w.session.working with
  | none =>
      constructor
      · rintro ⟨_, _, h⟩
        cases h
      · rintro ⟨_, h⟩
        cases h
  | some d => exact iff_of_true ⟨_, _, rfl⟩ ⟨d, rfl⟩

theorem returns_resultForExistingJob {job : DownloadJob} {w : World} :
    Returns (resultForExistingJob env job) w := by
  unfold resultForExistingJob
  rw [returns_bind (exec_select_up hup _ w)]
  split
  · exact returns_of_exec rfl
  · rw [returns_bind (exec_select_up hup _ _), returns_map]
    exact returns_of_exec (exec_select_up hup _ _)

/-- A new tenant can be stored exactly if nobody has stored it. -/
theorem returns_writeTenant {tenantAt : DateTime} {tenant : Option Tenant} {w : World} :
    Returns (writeTenant env q tenantAt tenant) w ↔
      (tenant = none → ∀ t ∈ w.db.tenants, t.id ≠ q.tenantId) := by
  unfold writeTenant saveTenant
  rw [returns_withSession]
  cases tenant with
  | none =>
      have hadd (row : Row) : (add row).exec w.reset =
          (.ok ⟨⟩, { w.reset with session := (Session.idle w.db).add row }) := rfl
      rw [returns_bind (hadd _), returns_commit hup]
      refine (insertAll_head fun d => ⟨d, insertAll_nil d⟩).trans ?_
      exact ⟨fun h _ t ht hid => h ⟨t, ht, hid⟩, fun h ⟨t, ht, hid⟩ => h rfl t ht hid⟩
  | some row =>
      have hupdate (change : Db → Db) : (update change).exec w.reset =
          (.ok ⟨⟩, { w.reset with session := (Session.idle w.db).update change }) := rfl
      rw [returns_bind (hupdate _), returns_commit hup]
      exact iff_of_true ⟨_, rfl⟩ fun h => (nomatch h)

/-- A new job can be stored exactly if its id is new and nobody has stored one like it. -/
theorem returns_createJob {createdAt : DateTime} {w : World} :
    Returns (withSession (createJob env q false createdAt)) w ↔ ∀ job ∈ w.db.jobs,
      ¬ (job.id = env.uuid4 w.uuids ∨ IsJobOf q.tenantId (q.criteriaHash env.rt) job) := by
  have hdraw (w : World) : (uuid4 env).exec w = (.ok (env.uuid4 w.uuids), { w with uuids := w.uuids + 1 }) :=
    rfl
  have hadd (row : Row) (w : World) : (add row).exec w = (.ok ⟨⟩, { w with session := w.session.add row }) :=
    rfl
  have hnow (w : World) : (now env).exec w = (.ok (env.now w.clock), { w with clock := w.clock + 1 }) := rfl
  unfold createJob event
  rw [returns_withSession, returns_bind (hdraw _), returns_bind (hadd _ _)]
  simp only [bind_assoc]
  rw [returns_bind (hdraw _), returns_bind (hnow _), returns_bind (hadd _ _), returns_map,
    returns_commit hup]
  refine (insertAll_head fun d => insertAll_jobEvent d).trans ?_
  exact ⟨fun h job hjob hsame => h ⟨job, hjob, hsame⟩, fun h ⟨job, hjob, hsame⟩ => h job hjob hsame⟩

theorem returns_markRunning {jobId : String} {time : DateTime} {w : World} :
    Returns (markRunning env jobId time) w := by
  unfold markRunning
  rw [returns_withSession, returns_bind (exec_select_up hup _ _)]
  split
  · have hupdate (w : World) (change : Db → Db) : (update change).exec w =
        (.ok ⟨⟩, { w with session := w.session.update change }) := rfl
    rw [returns_bind (hupdate _ _), returns_commit hup]
    exact ⟨_, rfl⟩
  · exact returns_of_exec rfl

/-- A turn goes on exactly if it meets nothing in its way. -/
theorem returns_program (phase : SyncPhase) (w : World) :
    Returns (phase.program env q) w ↔ Unhindered env q phase w := by
  have hnow (w : World) : (now env).exec w = (.ok (env.now w.clock), { w with clock := w.clock + 1 }) := rfl
  cases phase with
  | called =>
      unfold SyncPhase.program validated
      by_cases hvalid : q.validate = []
      · rw [returns_bind (Prog.exec_raiseIf_neg (not_not.mpr hvalid) _ w), returns_bind (hnow _),
          returns_bind (hnow _), returns_map, readTenant, returns_withSession]
        exact iff_of_true (returns_of_exec (exec_select_up hup _ _)) hvalid
      · rw [Returns, Prog.exec_bind_error (Prog.exec_raiseIf_pos hvalid _ w)]
        exact iff_of_false (fun ⟨_, _, h⟩ => (nomatch h)) hvalid
  | tenantRead createdAt tenantAt tenant =>
      unfold SyncPhase.program
      rw [returns_map, returns_writeTenant hup]
      cases tenant with
      | none => exact ⟨fun h => h rfl, fun h _ => h⟩
      | some row => exact iff_of_true (fun h => (nomatch h)) trivial
  | tenantSaved createdAt =>
      unfold SyncPhase.program readJob
      rw [returns_map, returns_withSession]
      exact iff_of_true (returns_of_exec (exec_select_up hup _ _)) trivial
  | jobRead createdAt job =>
      cases job with
      | none =>
          unfold SyncPhase.program
          rw [returns_map]
          exact returns_createJob hup
      | some job =>
          unfold SyncPhase.program
          rw [returns_map, returns_withSession]
          exact iff_of_true (returns_resultForExistingJob hup) trivial
  | jobCreated jobId =>
      unfold SyncPhase.program
      rw [returns_bind (hnow _), returns_map]
      exact iff_of_true (returns_markRunning hup) trivial
  | jobRunning jobId requestedAt =>
      unfold SyncPhase.program
      change _ ↔ ∃ answer, satAnswer env q w.sat = .ok answer
      rw [returns_map, Returns, ← askSat_answer]
      rcases (askSat env q).exec w with ⟨e | answer, v⟩
      · exact iff_of_false (fun ⟨_, _, h⟩ => (nomatch h)) fun ⟨_, h⟩ => (nomatch h)
      · exact iff_of_true ⟨answer, v, rfl⟩ ⟨answer, rfl⟩
  | answered jobId requestedAt answer =>
      unfold SyncPhase.program
      rw [returns_map]
      rfl
  | returned result => exact iff_of_true (returns_of_exec rfl) trivial
  | raised fault => exact iff_of_true (returns_of_exec rfl) trivial

/-- A call raises exactly in a turn that meets something in its way. -/
theorem raised_advance_iff {phase : SyncPhase} {w : World} (hphase : ¬ phase.Raised) :
    (phase.advance env q w).1.Raised ↔ ¬ Unhindered env q phase w := by
  have hspec := @program_spec env q w.db w.uuids phase w ⟨rfl, rfl⟩
  rw [← returns_program hup, Returns, SyncPhase.advance]
  rcases hx : (phase.program env q).exec w with ⟨fault | next, v⟩
  · exact iff_of_true ⟨fault, rfl⟩ fun ⟨_, _, h⟩ => (nomatch h)
  · rw [hx] at hspec
    have hturn : Turn env q w.uuids w.db v.db phase next := hspec
    exact iff_of_false (hturn.not_raised hphase) (not_not.mpr ⟨next, v, rfl⟩)

end Returns

/-! ## Two calls -/

/-- Two calls of `sync_metadata` before their first turn. -/
def syncStart (w : World) : State Bool SyncPhase World := ⟨w, fun _ => .called⟩

/-- The turns of two calls. -/
def syncTurn (env : Env) (queries : Bool → DownloadQuery) (caller : Bool) :
    SyncPhase → World → SyncPhase × World :=
  SyncPhase.advance env (queries caller)

/-- Both calls have ended. -/
def BothEnded (s : State Bool SyncPhase World) : Prop :=
  ∀ caller, (s.phase caller).rank = 0

/-- The queries ask for the same: they have the same tenant and the same criteria hash. -/
def SameJob (env : Env) (queries : Bool → DownloadQuery) (tenantId criteriaHash : String) : Prop :=
  ∀ caller, (queries caller).tenantId = tenantId ∧ (queries caller).criteriaHash env.rt = criteriaHash

/-- The constraint of the job table: a tenant has one job with a criteria hash. -/
def OneJobEach (d : Db) : Prop :=
  d.jobs.Pairwise fun a b => ¬ (a.tenantId = b.tenantId ∧ a.criteriaHash = b.criteriaHash)

/-- Both calls have returned the one job of the tenant with the criteria hash, and no more than
one request was submitted. -/
def Collapsed (tenantId criteriaHash : String) (before : World) (s : State Bool SyncPhase World) : Prop :=
  (∃ jobId, jobsOf tenantId criteriaHash s.shared.db = [jobId] ∧
    ∀ caller, ∃ result, s.phase caller = .returned result ∧ result.jobId = jobId) ∧
  submits s.shared.sat ≤ submits before.sat + 1

namespace SyncPhase

/-- The job that a call works on. -/
def own? : SyncPhase → Option String
  | jobCreated jobId | jobRunning jobId _ | answered jobId _ _ => some jobId
  | _ => none

/-- The job that a call has found or created. -/
def known? : SyncPhase → Option String
  | jobRead _ (some job) => some job.id
  | jobCreated jobId | jobRunning jobId _ | answered jobId _ _ => some jobId
  | returned result => some result.jobId
  | _ => none

/-- The call works on its job and has not asked SAT yet. -/
def Unasked : SyncPhase → Prop
  | jobCreated _ | jobRunning _ _ => True
  | _ => False

end SyncPhase

/-- What holds in every state of two calls: there is at most one job, the calls know no other,
and at most one of them works on it; SAT was asked only if one does or did. -/
structure RaceInv (tenantId criteriaHash : String) (before : Nat) (s : State Bool SyncPhase World) :
    Prop where
  one : (jobsOf tenantId criteriaHash s.shared.db).length ≤ 1
  known : ∀ caller jobId, (s.phase caller).known? = some jobId →
    jobId ∈ jobsOf tenantId criteriaHash s.shared.db
  sole : ∀ caller, (s.phase caller).own?.isSome → (s.phase (!caller)).own? = none
  none : jobsOf tenantId criteriaHash s.shared.db = [] → submits s.shared.sat = before
  unasked : ∀ caller, (s.phase caller).Unasked → submits s.shared.sat = before
  once : submits s.shared.sat ≤ before + 1

section Race

variable {env : Env} {queries : Bool → DownloadQuery} {tenantId criteriaHash : String} {w : World}

theorem own_known {phase : SyncPhase} {jobId : String} (h : phase.own? = some jobId) :
    phase.known? = some jobId := by
  cases phase <;> first | exact h | cases h

theorem Unasked.own {phase : SyncPhase} (h : phase.Unasked) : phase.own?.isSome := by
  cases phase <;> first | rfl | exact h.elim

theorem raceInv_start (hone : OneJobEach w.db) :
    RaceInv tenantId criteriaHash (submits w.sat) (syncStart w) where
  one := by
    rw [jobsOf, List.length_map]
    have hpair : (w.db.jobs.filter fun job => IsJobOf tenantId criteriaHash job).Pairwise
        fun _ _ => False := by
      refine List.Pairwise.imp_of_mem ?_ (hone.filter _)
      intro a b ha hb hab
      have ha := of_decide_eq_true (List.mem_filter.mp ha).2
      have hb := of_decide_eq_true (List.mem_filter.mp hb).2
      exact hab ⟨ha.1.trans hb.1.symm, ha.2.trans hb.2.symm⟩
    change (w.db.jobs.filter fun job => IsJobOf tenantId criteriaHash job).length ≤ 1
    match w.db.jobs.filter fun job => IsJobOf tenantId criteriaHash job, hpair with
    | [], _ => exact Nat.zero_le 1
    | [_], _ => exact Nat.le_refl 1
    | a :: b :: _, hpair => exact ((List.pairwise_cons.mp hpair).1 b List.mem_cons_self).elim
  known _ _ h := by cases h
  sole _ h := by cases h
  none _ := rfl
  unasked _ h := h.elim
  once := Nat.le_succ _

/-- A turn that leaves the jobs of a tenant with a criteria hash alone, and in which the call
comes to know no other. -/
structure LeavesJobs (jobs : Db → List String) (d e : Db) (phase next : SyncPhase) : Prop where
  same : jobs e = jobs d
  known : ∀ jobId, next.known? = some jobId → phase.known? = some jobId ∨ jobId ∈ jobs d
  own : next.own?.isSome → phase.own?.isSome
  unasked : next.Unasked → phase.Unasked ∧ phase.submissions = 0

theorem Turn.jobs {q : DownloadQuery} {drawn : Nat} {d e : Db} {phase next : SyncPhase}
    (h : Turn env q drawn d e phase next) :
    LeavesJobs (jobsOf q.tenantId (q.criteriaHash env.rt)) d e phase next ∨
      (jobsOf q.tenantId (q.criteriaHash env.rt) d = [] ∧ phase.submissions = 0 ∧
        ∃ jobId, jobsOf q.tenantId (q.criteriaHash env.rt) e = [jobId] ∧ next = .jobCreated jobId) := by
  cases h with
  | tenantRead hsame =>
      subst hsame
      exact .inl ⟨rfl, fun _ h => (nomatch h), fun h => (nomatch h), fun h => h.elim⟩
  | tenantSaved htenants =>
      obtain ⟨tenants, rfl⟩ := htenants
      exact .inl ⟨rfl, fun _ h => (nomatch h), fun h => (nomatch h), fun h => h.elim⟩
  | jobRead hsame =>
      subst hsame
      refine .inl ⟨rfl, fun jobId h => .inr ?_, fun h => (nomatch h), fun h => h.elim⟩
      cases hfind : e.jobs.find? fun job => IsJobOf q.tenantId (q.criteriaHash env.rt) job with
      | none =>
          rw [hfind] at h
          cases h
      | some job =>
          rw [hfind] at h
          cases h
          have hof := List.find?_some hfind
          exact List.mem_map_of_mem (List.mem_filter.mpr ⟨List.mem_of_find?_eq_some hfind, hof⟩)
  | @replayed createdAt job hsame =>
      subst hsame
      refine .inl ⟨rfl, fun jobId h => .inl ?_, fun h => (nomatch h), fun h => h.elim⟩
      rw [← h]
      exact congrArg some existingResult_jobId.symm
  | @created createdAt jobId hopened =>
      obtain ⟨-, hnone, -, _, -, rfl⟩ := hopened
      have hempty : d.jobs.filter (fun job => IsJobOf q.tenantId (q.criteriaHash env.rt) job) = [] :=
        List.filter_eq_nil_iff.mpr (List.find?_eq_none.mp hnone)
      refine .inr ⟨by rw [jobsOf, hempty, List.map_nil], rfl, jobId, ?_, rfl⟩
      have hnew : IsJobOf q.tenantId (q.criteriaHash env.rt) (newJob env q false createdAt jobId) :=
        ⟨rfl, rfl⟩
      rw [jobsOf, List.filter_append, hempty, List.filter_cons, if_pos (decide_eq_true hnew)]
      rfl
  | running hjobs =>
      exact .inl ⟨hjobs.jobsOf_eq _ _, fun _ h => .inl h, fun h => h, fun _ => ⟨trivial, rfl⟩⟩
  | answered hsame =>
      subst hsame
      exact .inl ⟨rfl, fun _ h => .inl h, fun _ => rfl, fun h => h.elim⟩
  | recorded hjobs =>
      exact .inl ⟨hjobs.jobsOf_eq _ _, fun _ h => .inl h, fun h => (nomatch h), fun h => h.elim⟩
  | returned hsame =>
      subst hsame
      exact .inl ⟨rfl, fun _ h => .inl h, fun h => (nomatch h), fun h => h.elim⟩
  | raised hsame =>
      subst hsame
      exact .inl ⟨rfl, fun _ h => .inl h, fun h => (nomatch h), fun h => h.elim⟩

/-- What a turn does to the jobs: it leaves them alone, or it creates the first one. -/
theorem advance_jobs {q : DownloadQuery} (phase : SyncPhase) (w : World) :
    LeavesJobs (jobsOf q.tenantId (q.criteriaHash env.rt)) w.db (phase.advance env q w).2.db phase
        (phase.advance env q w).1 ∨
      (jobsOf q.tenantId (q.criteriaHash env.rt) w.db = [] ∧ phase.submissions = 0 ∧
        ∃ jobId, jobsOf q.tenantId (q.criteriaHash env.rt) (phase.advance env q w).2.db = [jobId] ∧
          (phase.advance env q w).1 = .jobCreated jobId) := by
  rcases @advance_turn env q phase w with hturn | ⟨⟨fault, hraised⟩, hsame⟩
  · exact hturn.jobs
  · rw [hraised, hsame]
    exact .inl ⟨rfl, fun _ h => (nomatch h), fun h => (nomatch h), fun h => h.elim⟩

/-- A call that submits a request in its next turn has a job and has not asked before. -/
theorem unasked_of_submissions {phase : SyncPhase} (h : phase.submissions ≠ 0) :
    phase.Unasked ∧ phase.submissions = 1 := by
  cases phase <;> first | exact ⟨trivial, rfl⟩ | exact absurd rfl h

/-- Every turn of either call keeps the invariant. -/
theorem raceInv_turn (hsame : SameJob env queries tenantId criteriaHash) {before : Nat}
    {s : State Bool SyncPhase World} {caller : Bool} (h : RaceInv tenantId criteriaHash before s) :
    RaceInv tenantId criteriaHash before (s.turn (syncTurn env queries) caller) := by
  obtain ⟨htenant, hhash⟩ := hsame caller
  have hsubmits := @advance_submits env (queries caller) (s.phase caller) s.shared
  have hjobs := @advance_jobs env (queries caller) (s.phase caller) s.shared
  rw [htenant, hhash] at hjobs
  have hself : (s.turn (syncTurn env queries) caller).phase caller =
      ((s.phase caller).advance env (queries caller) s.shared).1 := turn_self
  have hother : (s.turn (syncTurn env queries) caller).phase (!caller) = s.phase (!caller) :=
    turn_other (Bool.not_ne_self caller)
  have hshared : (s.turn (syncTurn env queries) caller).shared =
      ((s.phase caller).advance env (queries caller) s.shared).2 := rfl
  rw [← hself, ← hshared] at hjobs
  rw [← hshared] at hsubmits
  clear hself hshared
  generalize s.turn (syncTurn env queries) caller = t at hjobs hsubmits hother ⊢
  -- a property of both calls, from the one whose turn it was and the other one
  have hboth {P : Bool → Prop} (hturned : P caller) (hwaiting : P !caller) : ∀ c, P c := by
    intro c
    by_cases hc : c = caller
    · exact hc ▸ hturned
    · exact (Bool.eq_not.mpr hc) ▸ hwaiting
  have hasks : (s.phase caller).submissions ≠ 0 → submits s.shared.sat = before ∧
      (s.phase (!caller)).own? = none ∧ jobsOf tenantId criteriaHash s.shared.db ≠ [] := by
    intro hasks
    have hunasked := (unasked_of_submissions hasks).1
    refine ⟨h.unasked caller hunasked, h.sole caller (Unasked.own hunasked), fun hnone => ?_⟩
    obtain ⟨jobId, hown⟩ := Option.isSome_iff_exists.mp (Unasked.own hunasked)
    have hmem := h.known caller jobId (own_known hown)
    rw [hnone] at hmem
    cases hmem
  rcases hjobs with hleaves | ⟨hnone, hquiet, jobId, hnew, hcreated⟩
  · have hsame : submits t.shared.sat = submits s.shared.sat ∨
        (s.phase caller).submissions ≠ 0 ∧ submits t.shared.sat = before + 1 := by
      by_cases hzero : (s.phase caller).submissions = 0
      · rw [hzero, Nat.add_zero] at hsubmits
        exact .inl hsubmits
      · rw [(unasked_of_submissions hzero).2, (hasks hzero).1] at hsubmits
        exact .inr ⟨hzero, hsubmits⟩
    refine ⟨hleaves.same ▸ h.one, hboth ?_ ?_, hboth ?_ ?_, fun hempty => ?_, hboth ?_ ?_, ?_⟩
    · intro jobId hknown
      rw [hleaves.same]
      rcases hleaves.known jobId hknown with hbefore | hmem
      · exact h.known caller jobId hbefore
      · exact hmem
    · intro jobId hknown
      rw [hother] at hknown
      rw [hleaves.same]
      exact h.known _ jobId hknown
    · intro hown
      rw [hother]
      exact h.sole caller (hleaves.own hown)
    · intro hown
      rw [hother] at hown
      rw [Bool.not_not]
      by_contra hsome
      rw [h.sole caller (hleaves.own (Option.isSome_iff_ne_none.mpr hsome))] at hown
      cases hown
    · rw [hleaves.same] at hempty
      rcases hsame with hsame | ⟨hsubmission, -⟩
      · exact hsame.trans (h.none hempty)
      · exact absurd hempty (hasks hsubmission).2.2
    · intro hunasked
      obtain ⟨hbefore, hzero⟩ := hleaves.unasked hunasked
      rw [hzero, Nat.add_zero] at hsubmits
      exact hsubmits.trans (h.unasked caller hbefore)
    · intro hunasked
      rw [hother] at hunasked
      rcases hsame with hsame | ⟨hsubmission, -⟩
      · exact hsame.trans (h.unasked _ hunasked)
      · have hown := Unasked.own hunasked
        rw [(hasks hsubmission).2.1] at hown
        cases hown
    · rcases hsame with hsame | ⟨-, hsubmitted⟩
      · exact hsame ▸ h.once
      · exact Nat.le_of_eq hsubmitted
  · have hwaiting : ∀ id, (t.phase (!caller)).known? ≠ some id := by
      intro id hknown
      rw [hother] at hknown
      have hmem := h.known _ id hknown
      rw [hnone] at hmem
      cases hmem
    have hunowned : (t.phase (!caller)).own? = none := by
      by_contra hsome
      obtain ⟨id, hown⟩ := Option.ne_none_iff_exists'.mp hsome
      exact hwaiting id (own_known hown)
    have hsubmitted : submits t.shared.sat = before := by
      rw [hquiet, Nat.add_zero] at hsubmits
      exact hsubmits.trans (h.none hnone)
    refine ⟨?_, hboth ?_ fun id hknown => absurd hknown (hwaiting id), hboth (fun _ => hunowned) ?_, ?_,
      fun _ _ => hsubmitted, Nat.le_succ_of_le (Nat.le_of_eq hsubmitted)⟩
    · rw [hnew]
      exact Nat.le_refl 1
    · intro id hknown
      rw [hcreated] at hknown
      cases hknown
      rw [hnew]
      exact List.mem_singleton_self _
    · intro hown
      rw [hunowned] at hown
      cases hown
    · intro hempty
      rw [hnew] at hempty
      cases hempty

/-- A call that has had seven turns has ended. -/
theorem call_ends {s : State Bool SyncPhase World} {schedule : List Bool} {caller : Bool}
    (hturns : 7 ≤ schedule.count caller) :
    ((s.run (syncTurn env queries) schedule).phase caller).rank = 0 := by
  have hrank := @rank_run _ _ _ _ (syncTurn env queries) s caller schedule SyncPhase.rank
    fun caller phase v => rank_advance phase v
  have hseven : (s.phase caller).rank ≤ 7 := by
    cases s.phase caller <;> exact Nat.le_of_ble_eq_true rfl
  omega

theorem outcome_of_rank {phase : SyncPhase} (h : phase.rank = 0) :
    (∃ result, phase = .returned result) ∨ phase.Raised := by
  cases phase with
  | returned result => exact .inl ⟨result, rfl⟩
  | raised fault => exact .inr ⟨fault, rfl⟩
  | _ => cases h

/-- A call whose turns follow each other is `sync_metadata`. -/
theorem alone_eq (caller : Bool) :
    let s := (syncStart w).run (syncTurn env queries) (List.replicate 7 caller)
    (s.phase caller).outcome? = some ((syncMetadata env (queries caller)).exec w).1 ∧
      s.shared = ((syncMetadata env (queries caller)).exec w).2 := by
  intro s
  have hrest : ((s.phase caller).rest env (queries caller)).exec s.shared =
      (syncMetadata env (queries caller)).exec w := by
    refine run_keeps (I := fun t : State Bool SyncPhase World =>
      ((t.phase caller).rest env (queries caller)).exec t.shared =
        (syncMetadata env (queries caller)).exec w) (fun i hi t ht => ?_) rfl
    obtain rfl := List.eq_of_mem_replicate hi
    rw [turn_self]
    exact (rest_advance _ _).trans ht
  have hended := @call_ends env queries (syncStart w) (List.replicate 7 caller) caller
    (Nat.le_of_eq List.count_replicate_self.symm)
  change (s.phase caller).rank = 0 at hended
  rw [← hrest]
  rcases outcome_of_rank hended with ⟨result, hresult⟩ | ⟨fault, hfault⟩
  · rw [hresult]
    exact ⟨rfl, rfl⟩
  · rw [hfault]
    exact ⟨rfl, rfl⟩

/-- No turn of a schedule meets anything in its way exactly if neither call has raised. -/
theorem unhindered_iff (hup : ∀ n, env.databaseFails n = false) {schedule : List Bool} :
    Throughout (syncTurn env queries) (fun caller => Unhindered env (queries caller)) (syncStart w)
        schedule ↔
      ∀ caller, ¬ (((syncStart w).run (syncTurn env queries) schedule).phase caller).Raised :=
  have hstay : ∀ (caller : Bool) (phase : SyncPhase) (w : World), phase.Raised →
      (syncTurn env queries caller phase w).1.Raised :=
    fun _ _ _ ⟨fault, h⟩ => ⟨fault, by rw [h]; rfl⟩
  throughout_iff (fun _ _ _ h => raised_advance_iff hup h) hstay fun _ ⟨_, h⟩ => (nomatch h)

/-- Two calls for one tenant and one criteria hash that have ended have collapsed to one job
exactly if no turn met anything in its way. -/
theorem collapsed_iff (hup : ∀ n, env.databaseFails n = false)
    (hsame : SameJob env queries tenantId criteriaHash) (hone : OneJobEach w.db) {schedule : List Bool}
    (hended : BothEnded ((syncStart w).run (syncTurn env queries) schedule)) :
    Collapsed tenantId criteriaHash w ((syncStart w).run (syncTurn env queries) schedule) ↔
      Throughout (syncTurn env queries) (fun caller => Unhindered env (queries caller)) (syncStart w)
        schedule := by
  have hinv : RaceInv tenantId criteriaHash (submits w.sat)
      ((syncStart w).run (syncTurn env queries) schedule) :=
    run_keeps (fun _ _ _ h => raceInv_turn hsame h) (raceInv_start hone)
  rw [unhindered_iff hup]
  generalize (syncStart w).run (syncTurn env queries) schedule = s at hinv hended ⊢
  constructor
  · rintro ⟨⟨jobId, -, hreturned⟩, -⟩ caller ⟨fault, hraised⟩
    obtain ⟨result, hresult, -⟩ := hreturned caller
    cases hresult.symm.trans hraised
  · intro hnone
    have hreturned (caller : Bool) : ∃ result, s.phase caller = .returned result ∧
        result.jobId ∈ jobsOf tenantId criteriaHash s.shared.db := by
      obtain ⟨result, hresult⟩ := (outcome_of_rank (hended caller)).resolve_right (hnone caller)
      exact ⟨result, hresult, hinv.known caller result.jobId (by rw [hresult]; rfl)⟩
    obtain ⟨jobId, hjobs⟩ : ∃ jobId, jobsOf tenantId criteriaHash s.shared.db = [jobId] := by
      obtain ⟨result, -, hmem⟩ := hreturned false
      exact List.length_eq_one_iff.mp (Nat.le_antisymm hinv.one (List.length_pos_of_mem hmem))
    refine ⟨⟨jobId, hjobs, fun caller => ?_⟩, hinv.once⟩
    obtain ⟨result, hresult, hmem⟩ := hreturned caller
    rw [hjobs] at hmem
    exact ⟨result, hresult, List.mem_singleton.mp hmem⟩

end Race

/-! ## A job that both callers miss -/

section Sample

/-- The tenant of the query is known. -/
def tenantDb : Db where
  tenants := [⟨"tenant-a", "tenant-a", "AAA010101AAA", .utc 63842385600000000⟩]

/-- The turns of two calls for the same query. -/
abbrev januaryCalls : Bool → SyncPhase → World → SyncPhase × World :=
  syncTurn (sampleEnv [("state", .str "finished")]) fun _ => januaryQuery

/-- One call after the other. -/
def inTurn : List Bool := List.replicate 7 false ++ List.replicate 4 true

/-- Both calls look for the job before either has created it. -/
def atOnce : List Bool :=
  List.replicate 3 false ++ List.replicate 3 true ++ List.replicate 4 false ++ [true]

theorem inTurn_returns (caller : Bool) :
    (((syncStart (sampleWorld tenantDb)).run januaryCalls inTurn).phase caller).outcome? =
      some (.ok ⟨"uuid-0", "SAT-REQ-1", [], 0, JobStatus.succeeded.value⟩) := by
  cases caller <;> decide +kernel

theorem collapsed_iff_sample :
    Collapsed "tenant-a" (januaryQuery.criteriaHash sampleHost) (sampleWorld tenantDb)
      ((syncStart (sampleWorld tenantDb)).run januaryCalls inTurn) := by
  have hended : BothEnded ((syncStart (sampleWorld tenantDb)).run januaryCalls inTurn) :=
    fun caller => by cases caller <;> decide +kernel
  have hone : OneJobEach (sampleWorld tenantDb).db := List.Pairwise.nil
  refine (collapsed_iff (fun _ => rfl) (fun _ => ⟨rfl, rfl⟩) hone hended).mpr ?_
  refine (unhindered_iff fun _ => rfl).mpr fun caller ⟨fault, hraised⟩ => ?_
  have hreturned := inTurn_returns caller
  rw [hraised] at hreturned
  cases hreturned

theorem atOnce_raises :
    (((syncStart (sampleWorld tenantDb)).run januaryCalls atOnce).phase true).outcome? =
      some (.error .integrity) := by
  decide +kernel

/-- The second call does not return the job that the first one has created in between: the
constraint of the job table refuses its own. -/
theorem concurrent_sync_raises :
    ¬ ∀ schedule, BothEnded ((syncStart (sampleWorld tenantDb)).run januaryCalls schedule) →
      Collapsed "tenant-a" (januaryQuery.criteriaHash sampleHost) (sampleWorld tenantDb)
        ((syncStart (sampleWorld tenantDb)).run januaryCalls schedule) := by
  intro h
  obtain ⟨⟨jobId, -, hreturned⟩, -⟩ := h atOnce fun caller => by cases caller <;> decide +kernel
  obtain ⟨result, hresult, -⟩ := hreturned true
  have hraised := atOnce_raises
  rw [hresult] at hraised
  cases hraised

end Sample

end Recovery

end CfdiVault
