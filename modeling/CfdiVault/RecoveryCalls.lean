import CfdiVault.RecoveryJob

/-!
# Calls of the service

What each call of the service does to the durable database when it returns, and what is
left of it when it raises.  The tenant and the job of a query are committed before SAT is
asked, so a call that raises later leaves them behind; the lookup that a later call makes
for its query finds such a job.
-/

namespace CfdiVault

namespace Recovery

section Calls

variable {env : Env} {q : DownloadQuery}

/-- What the program keeps on a session, as a specification of both ends. -/
theorem keeps_session {α : Type} {p : Recovery α} {d : Db} {J : Session Db Row → Prop}
    (h : Keeps (OnSession fun s => J s ∧ s.committed = d) p) :
    Spec (OnSession fun s => J s ∧ s.committed = d) p (fun _ => OnSession fun s => J s ∧ s.committed = d)
      fun _ w => w.db = d :=
  Spec.weaken h (fun _ hw => hw) (fun _ _ hw => hw) fun _ _ hw => hw.2

/-! ## Tenants -/

/-- A database that differs from another in its tenants only. -/
def TenantsFrom (before after : Db) : Prop :=
  ∃ tenants, after = { before with tenants := tenants }

/-- The transaction of a tenant changes the tenants only. -/
theorem saveTenant_spec {d : Db} {tenantId rfc : String} {name : Option String} {createdAt : DateTime}
    {tenant : Option Tenant} :
    Spec (OnSession fun s => s = Session.idle d ∧ s.committed = d)
      (do saveTenant env tenantId rfc name createdAt tenant; commit env)
      (fun _ w => TenantsFrom d w.db) fun _ w => w.db = d := by
  let P : Session Db Row → Prop := fun s => TenantsFrom d s.working ∧
    ∃ rows : List Tenant, s.pending = rows.map .tenant
  refine Spec.bind (M := fun _ => OnSession fun s => P s ∧ s.committed = d) ?_ fun _ =>
    commit_spec (P := P) (Q := TenantsFrom d) ?_
  · intro w hw
    have hsession : w.session = Session.idle d := hw.1
    cases tenant with
    | none =>
        unfold saveTenant add
        rw [Prog.exec_act, hsession]
        exact ⟨⟨⟨d.tenants, rfl⟩, [_], rfl⟩, rfl⟩
    | some row =>
        unfold saveTenant update
        rw [Prog.exec_act, hsession]
        exact ⟨⟨⟨_, rfl⟩, [], rfl⟩, rfl⟩
  · rintro s t ⟨htenants, rows, hrows⟩ hflush
    obtain ⟨e, he, rfl⟩ := Session.flush?_eq_some.mp hflush
    refine Session.insertAll_keeps (I := TenantsFrom d) ?_ he htenants
    intro row hrow a b ha hab
    rw [hrows] at hrow
    obtain ⟨tenant, -, rfl⟩ := List.mem_map.mp hrow
    obtain ⟨tenants, rfl⟩ := ha
    obtain ⟨-, rfl⟩ := insert_eq_some.mp hab
    exact ⟨tenants ++ [tenant], rfl⟩

theorem initTenant_spec {d : Db} {tenantId rfc : String} {name : Option String} :
    Spec (fun w => w.db = d) (initTenant env tenantId rfc name)
      (fun _ w => w.session = Session.idle w.db ∧ TenantsFrom d w.db)
      (fun _ w => w.session = Session.idle d) := by
  have hnow : Spec (fun w => w.db = d) (now env) (fun _ w => w.db = d)
      fun _ w => w.session = Session.idle d := fun w hw => hw
  refine Spec.bind hnow fun createdAt => withSession_spec (Q := fun _ => TenantsFrom d) ?_
  refine Spec.weaken (P := OnSession fun s => s = Session.idle d ∧ s.committed = d) ?_
    (fun w hw => ⟨hw, db_of_idle hw⟩) (fun _ _ h => h) fun _ _ h => h
  exact Spec.bind (keeps_session select_keeps) fun tenant => saveTenant_spec

/-! ## The job of a query -/

/-- The packages a known request is reported with. -/
def packagesOf (tenantId requestId : String) (d : Db) : List String :=
  (d.packages.filter fun p => p.tenantId = tenantId ∧ p.idSolicitud = requestId).map (·.idPaquete)

/-- The result reported for a known job. -/
def existingResult (d : Db) (job : DownloadJob) : SyncResult :=
  match d.requests.find? fun r => r.jobId = job.id with
  | none => ⟨job.id, "", [], 0, job.status⟩
  | some request =>
      let packageIds := packagesOf job.tenantId request.idSolicitud d
      let count := (d.ledger.filter fun row => row.tenantId = job.tenantId ∧
        (if packageIds = [] then row.sourcePackageId = "__none__"
        else row.sourcePackageId ∈ packageIds)).length
      ⟨job.id, request.idSolicitud, packageIds, count, job.status⟩

theorem select_spec {α : Type} {view : Db → α} {s : Session Db Row} :
    Ensures (OnSession fun t => t = s) (select env view)
      fun a w => w.session = s ∧ a = view s.working := by
  refine Spec.weaken select_ensures (fun _ hw => hw) (fun a w hw => ?_) fun _ _ h => h
  obtain ⟨hsession, hview⟩ := hw
  have hs : w.session = s := hsession
  exact ⟨hs, hs ▸ hview⟩

theorem resultForExistingJob_keeps {job : DownloadJob} {J : Session Db Row → Prop} :
    Keeps (OnSession J) (resultForExistingJob env job) := by
  refine Keeps.bind select_keeps fun request => ?_
  cases request with
  | none => exact Keeps.pure _
  | some row => exact Keeps.bind select_keeps fun _ => Keeps.bind select_keeps fun _ => Keeps.pure _

theorem resultForExistingJob_spec {job : DownloadJob} {s : Session Db Row} :
    Ensures (OnSession fun t => t = s) (resultForExistingJob env job)
      fun result w => w.session = s ∧ result = existingResult s.working job := by
  refine Spec.bind select_spec fun request => ?_
  cases request with
  | none =>
      refine Spec.pure _ fun w hw => ⟨hw.1, ?_⟩
      rw [existingResult, ← hw.2]
  | some request =>
      intro w hw
      obtain ⟨hs, hrequest⟩ := hw
      refine Spec.bind (P := OnSession fun t => t = s) select_spec (fun packageIds => ?_) w hs
      intro u hu
      obtain ⟨hu, rfl⟩ := hu
      refine Spec.bind (P := OnSession fun t => t = s) select_spec (fun count => ?_) u hu
      refine Spec.pure _ fun v hv => ⟨hv.1, ?_⟩
      rw [existingResult, ← hrequest, hv.2]
      rfl

/-- How a database changes when the job of a query is found or created.  The identifier
of a new job is the next one drawn. -/
def Opened (env : Env) (q : DownloadQuery) (enqueue : Bool) (createdAt : DateTime) (drawn : Nat)
    (before : Db) : JobLookup → Db → Prop
  | .replayed result, after => after = before ∧ ∃ job,
      before.jobs.find? (fun job => IsJobOf q.tenantId (q.criteriaHash env.rt) job) = some job ∧
      result = existingResult before job
  | .created jobId, after => jobId = env.uuid4 drawn ∧
      before.jobs.find? (fun job => IsJobOf q.tenantId (q.criteriaHash env.rt) job) = none ∧
      (∀ job ∈ before.jobs, job.id ≠ jobId) ∧
      ∃ e : QueueJobEvent, e.jobId = jobId ∧ after = { before with
        jobs := before.jobs ++ [newJob env q enqueue createdAt jobId]
        jobEvents := before.jobEvents ++ [e] }

theorem createJob_spec {enqueue : Bool} {createdAt : DateTime} {d : Db} {drawn : Nat} :
    Spec (fun w => w.session = Session.idle d ∧ w.uuids = drawn) (createJob env q enqueue createdAt)
      (fun jobId w => Opened env q enqueue createdAt drawn d (.created jobId) w.db)
      fun _ w => w.db = d := by
  intro w hw
  obtain ⟨hsession, hdrawn⟩ := hw
  unfold createJob uuid4
  rw [Prog.exec_bind, Prog.exec_act, hdrawn, Prog.follow_ok]
  let job := newJob env q enqueue createdAt (env.uuid4 drawn)
  -- the two rows wait until the commit
  let P : Session Db Row → Prop := fun s => s.working = d ∧
    ∃ e : QueueJobEvent, e.jobId = env.uuid4 drawn ∧ s.pending = [.job job, .jobEvent e]
  have hadd : Spec (OnSession fun s => s = Session.idle d) (add (.job job))
      (fun _ => OnSession fun s => s = (Session.idle d).add (.job job)) fun _ w => w.db = d := by
    intro w hw
    have hs : w.session = Session.idle d := hw
    unfold add
    rw [Prog.exec_act, hs]
    rfl
  have hevent : Spec (OnSession fun s => s = (Session.idle d).add (.job job))
      (event env (env.uuid4 drawn) .satRequest (firstStatus enqueue) "metadata sync requested"
        (.obj (queryPayload env.rt q)))
      (fun _ => OnSession fun s => P s ∧ s.committed = d) fun _ w => w.db = d := by
    intro w hw
    have hs : w.session = (Session.idle d).add (.job job) := hw
    unfold event uuid4 now add
    rw [Prog.exec_bind, Prog.exec_act, Prog.follow_ok, Prog.exec_bind, Prog.exec_act,
      Prog.follow_ok, Prog.exec_act]
    dsimp only
    rw [hs]
    exact ⟨⟨rfl, _, rfl, rfl⟩, rfl⟩
  refine Spec.bind hadd (fun _ => Spec.bind hevent fun _ => Spec.bind (commit_spec (P := P)
    (Q := Opened env q enqueue createdAt drawn d (.created (env.uuid4 drawn))) ?_) fun _ =>
    Spec.pure _ fun _ h => h) _ hsession
  rintro s t ⟨hworking, e, heId, hpending⟩ hflush
  obtain ⟨after, hafter, rfl⟩ := Session.flush?_eq_some.mp hflush
  rw [hworking, hpending] at hafter
  obtain ⟨d₁, hd₁, hafter⟩ := Session.insertAll_cons_eq_some.mp hafter
  obtain ⟨d₂, hd₂, hafter⟩ := Session.insertAll_cons_eq_some.mp hafter
  cases hafter
  obtain ⟨hclash, rfl⟩ := insert_eq_some.mp hd₁
  obtain ⟨-, rfl⟩ := insert_eq_some.mp hd₂
  refine ⟨rfl, ?_, fun other hother hid => hclash ⟨other, hother, .inl hid⟩, e, heId, rfl⟩
  rw [List.find?_eq_none]
  intro other hother hof
  exact hclash ⟨other, hother, .inr (of_decide_eq_true hof)⟩

theorem openJob_spec {enqueue : Bool} {createdAt : DateTime} {d : Db} {drawn : Nat} :
    Spec (fun w => w.db = d ∧ w.uuids = drawn) (openJob env q enqueue createdAt)
      (fun lookup w => w.session = Session.idle w.db ∧ Opened env q enqueue createdAt drawn d lookup w.db)
      (fun _ w => w.session = Session.idle d) := by
  intro w hw
  refine withSession_holds (Q := Opened env q enqueue createdAt drawn d) hw.1 ?_
  rw [Prog.exec_bind, exec_select]
  by_cases hfails : env.databaseFails w.databaseOps
  · rw [if_pos hfails]
    rfl
  · rw [if_neg hfails, Prog.follow_ok]
    have hview : (Session.idle d : Session Db Row).working = d := rfl
    dsimp only
    rw [hview]
    let u : World := { w with session := Session.idle d, databaseOps := w.databaseOps + 1 }
    cases hfind : d.jobs.find? fun job => IsJobOf q.tenantId (q.criteriaHash env.rt) job with
    | none =>
        exact Spec.bind createJob_spec (fun _ => Spec.pure _ fun _ h => h) u ⟨rfl, hw.2⟩
    | some job =>
        have hkeeps : Keeps (fun w => w.db = d) (resultForExistingJob env job) :=
          resultForExistingJob_keeps (J := fun s => s.committed = d)
        refine Spec.bind (Ensures.spec resultForExistingJob_spec hkeeps) (fun result =>
          Spec.pure _ fun v hv => ?_) u ⟨rfl, rfl⟩
        exact ⟨hv.2, job, hfind, hv.1.2⟩

/-- The calls of the SAT client and the published messages so far. -/
def Work (calls : List SatCall) (messages : List QueueMessage) (w : World) : Prop :=
  w.sat = calls ∧ w.queue = messages

theorem work_outside {calls : List SatCall} {messages : List QueueMessage} :
    Outside (Work calls messages) := fun _ _ _ _ h => h

theorem openJob_work {enqueue : Bool} {createdAt : DateTime} {calls : List SatCall}
    {messages : List QueueMessage} :
    Keeps (Work calls messages) (openJob env q enqueue createdAt) := by
  have hdraw : Keeps (Work calls messages) (uuid4 env) := Keeps.act fun _ hw => hw
  have hout := @work_outside calls messages
  refine withSession_outside hout (Keeps.bind (select_outside hout) fun existing => ?_)
  cases existing with
  | none =>
      refine Keeps.bind ?_ fun _ => Keeps.pure _
      refine Keeps.bind hdraw fun jobId => Keeps.bind (add_outside hout) fun _ => ?_
      refine Keeps.bind ?_ fun _ => Keeps.bind (commit_outside hout) fun _ => Keeps.pure _
      exact Keeps.bind hdraw fun _ => Keeps.bind (now_outside hout) fun _ => add_outside hout
  | some job => exact Keeps.bind (resultForExistingJob_outside hout) fun _ => Keeps.pure _

/-! ## Synchronization -/

theorem enqueueJob_keeps {jobId : String} {J : Session Db Row → Prop} :
    Keeps (OnSession J) (enqueueJob env q jobId) :=
  Keeps.bind uuid4_keeps fun _ => Keeps.bind now_keeps fun _ =>
    Keeps.bind publishMessage_keeps fun _ => Keeps.pure _

/-- The message of a new job is published; nothing durable changes. -/
theorem enqueueJob_spec {jobId : String} {d : Db} :
    Spec (fun w => w.db = d) (enqueueJob env q jobId)
      (fun result w => result = ⟨jobId, "", [], 0, JobStatus.pending.value⟩ ∧ w.db = d)
      fun _ w => w.db = d :=
  Spec.bind (uuid4_keeps (J := fun s => s.committed = d)) fun _ => Spec.bind now_keeps fun _ =>
    Spec.bind publishMessage_keeps fun _ => Spec.pure _ fun _ h => ⟨rfl, h⟩

/-- What a synchronization that returns has done, for any account `R` of the transaction
that records an answer: it has found the job of the query, or created it and then
published its message or processed it. -/
inductive Synced (env : Env) (q : DownloadQuery) (enqueue : Bool) (drawn : Nat) (calls : List SatCall)
    (R : String → SatAnswer → Db → Db → Prop) (before : Db) : SyncResult → Db → Prop
  | replayed {createdAt : DateTime} {between : Db} {result : SyncResult}
      (htenants : TenantsFrom before between)
      (hopened : Opened env q enqueue createdAt drawn between (.replayed result) between) :
      Synced env q enqueue drawn calls R before result between
  | enqueued {createdAt : DateTime} {between after : Db} {jobId : String}
      (htenants : TenantsFrom before between) (henqueue : enqueue = true)
      (hopened : Opened env q enqueue createdAt drawn between (.created jobId) after) :
      Synced env q enqueue drawn calls R before ⟨jobId, "", [], 0, JobStatus.pending.value⟩ after
  | processed {createdAt : DateTime} {between opened running after : Db} {jobId : String}
      {answer : SatAnswer} (htenants : TenantsFrom before between) (henqueue : enqueue = false)
      (hopened : Opened env q enqueue createdAt drawn between (.created jobId) opened)
      (hanswer : satAnswer env q calls = .ok answer)
      (hrunning : running = opened ∨ ∃ time, running = setJobStatus jobId .running time opened)
      (hrecorded : R jobId answer running after) :
      Synced env q enqueue drawn calls R before
        ⟨jobId, answer.requestId, answer.packages, answer.metadata.length, JobStatus.succeeded.value⟩ after

/-- What a synchronization that raises may have left behind: the tenant, the job, and the
job set running. -/
inductive SyncLeft (env : Env) (q : DownloadQuery) (enqueue : Bool) (drawn : Nat) (before : Db) : Db → Prop
  | untouched : SyncLeft env q enqueue drawn before before
  | tenant {after : Db} (htenants : TenantsFrom before after) :
      SyncLeft env q enqueue drawn before after
  | job {createdAt : DateTime} {between after : Db} {jobId : String}
      (htenants : TenantsFrom before between)
      (hopened : Opened env q enqueue createdAt drawn between (.created jobId) after) :
      SyncLeft env q enqueue drawn before after
  | running {createdAt time : DateTime} {between opened : Db} {jobId : String}
      (htenants : TenantsFrom before between)
      (hopened : Opened env q enqueue createdAt drawn between (.created jobId) opened) :
      SyncLeft env q enqueue drawn before (setJobStatus jobId .running time opened)

theorem syncMetadata_course {R : String → SatAnswer → Db → Db → Prop}
    (hrecord : ∀ jobId d answer requestedAt, Spec (fun w => w.db = d)
      (recordAnswer env q jobId answer requestedAt)
      (fun _ w => w.session = Session.idle w.db ∧ R jobId answer d w.db)
      (fun _ w => w.session = Session.idle d))
    {d : Db} {drawn : Nat} {calls : List SatCall} {live enqueue : Bool} :
    Spec (fun w => w.db = d ∧ w.uuids = drawn ∧ w.sat = calls) (syncMetadata env q live enqueue)
      (fun result w => Synced env q enqueue drawn calls R d result w.db)
      (fun _ w => SyncLeft env q enqueue drawn d w.db) := by
  let Start : World → Prop := fun w => w.db = d ∧ w.uuids = drawn ∧ w.sat = calls
  have hraise : ∀ (c : Prop) [Decidable c] (e : Fault), Spec Start (Prog.raiseIf c e)
      (fun _ => Start) fun _ w => SyncLeft env q enqueue drawn d w.db := by
    intro c _ e w hw
    by_cases hc : c
    · rw [Prog.exec_raiseIf_pos hc]
      exact hw.1 ▸ .untouched
    · rw [Prog.exec_raiseIf_neg hc]
      exact hw
  refine Spec.bind (hraise _ _) fun _ => Spec.bind (hraise _ _) fun _ => ?_
  refine Spec.bind (M := fun _ => Start) (fun w hw => hw) fun createdAt => ?_
  have htenant : Spec Start (initTenant env q.tenantId q.requesterRfc (some q.tenantId))
      (fun _ w => TenantsFrom d w.db ∧ w.uuids = drawn ∧ w.sat = calls)
      fun _ w => SyncLeft env q enqueue drawn d w.db := by
    intro w hw
    have hspec := @initTenant_spec env _ q.tenantId q.requesterRfc (some q.tenantId) w hw.1
    have hkept := Keeps.final (@initTenant_outside env (fun w => w.uuids = drawn ∧ w.sat = calls)
      (fun _ _ _ _ h => h) q.tenantId q.requesterRfc (some q.tenantId)) hw.2
    rcases hx : (initTenant env q.tenantId q.requesterRfc (some q.tenantId)).exec w with ⟨e | a, t⟩
    · rw [hx] at hspec
      have hdb : t.db = d := db_of_idle hspec
      exact hdb ▸ .untouched
    · rw [hx] at hspec hkept
      exact ⟨hspec.2, hkept⟩
  refine Spec.bind htenant fun _ => ?_
  rintro w ⟨htenants, hdrawn, hcalls⟩
  have hspec := @openJob_spec env q enqueue createdAt _ _ w ⟨rfl, hdrawn⟩
  have hwork := Keeps.final (@openJob_work env q enqueue createdAt _ _) (s := w) ⟨hcalls, rfl⟩
  rw [Prog.exec_bind]
  rcases hx : (openJob env q enqueue createdAt).exec w with ⟨e | lookup, u⟩
  · rw [hx] at hspec
    have hdb : u.db = w.db := db_of_idle hspec
    rw [Prog.follow_error]
    exact .tenant (hdb ▸ htenants)
  · rw [hx] at hspec hwork
    obtain ⟨-, hopened⟩ := hspec
    rw [Prog.follow_ok]
    cases lookup with
    | replayed result =>
        have hdb : u.db = w.db := hopened.1
        change Synced _ _ _ _ _ _ _ result u.db
        rw [hdb] at hopened ⊢
        exact .replayed htenants hopened
    | created jobId =>
        cases enqueue with
        | true =>
            have henqueued := @enqueueJob_spec env q jobId u.db u rfl
            change Holds _ _ ((enqueueJob env q jobId).exec u)
            rcases hy : (enqueueJob env q jobId).exec u with ⟨e | result, t⟩
            · rw [hy] at henqueued
              have hdb : t.db = u.db := henqueued
              rw [holds_error, hdb]
              exact .job htenants hopened
            · rw [hy] at henqueued
              obtain ⟨rfl, hdb⟩ := henqueued
              rw [holds_ok, hdb]
              exact .enqueued htenants rfl hopened
        | false =>
            have hprocess := processSatRequestJob_records (hrecord jobId) u ⟨rfl, hwork.1⟩
            change Holds _ _ ((processSatRequestJob env q jobId).exec u)
            rcases hy : (processSatRequestJob env q jobId).exec u with ⟨e | result, t⟩
            · rw [hy] at hprocess
              rw [holds_error]
              rcases hprocess.2 with hsame | ⟨time, hset⟩
              · rw [hsame]
                exact .job htenants hopened
              · rw [hset]
                exact .running htenants hopened
            · rw [hy] at hprocess
              obtain ⟨-, answer, hanswer, rfl, running, hrunning, hrecorded⟩ := hprocess
              exact .processed htenants rfl hopened hanswer hrunning hrecorded

end Calls

end Recovery

end CfdiVault
