import CfdiVault.CriteriaHash
import CfdiVault.LiveSubmitLaw
import CfdiVault.VerifyDueCommand

/-!
# Runs of a backfill

A backfill is submitted one window at a time: each round builds the plan anew, submits the
first window without a request and persists what SAT accepted.  Between the rounds the
scheduler may verify what has been persisted, any number of times and with any outcome.

A window is recognised by the profile and the criteria hash of a listed record.  No
verification changes either (`Carried`), so the windows submitted so far are always the
first ones of the plan and the others are pending (`Progress`), whatever happens in between
(`backfill_progress`).
-/

namespace CfdiVault

open LiveRequestState LiveCommands SatBackfill LiveSubmit AsyncVerify CriteriaHash

namespace BackfillRuns

/-! ## A backfill and its windows -/

/-- A metadata backfill that is accepted: a range of dates that ends early enough, a
direction and a window size. -/
structure Backfill where
  args : PlanArgs
  size : String
  metadata : args.kind = .metadata
  directed : args.direction ≠ .folio
  sized : normalizeWindow args.window = .ok size
  ordered : args.startDate.ordinal ≤ args.endDate.ordinal
  bounded : args.endDate.ordinal + 8 ≤ Calendar.maxOrdinal

namespace Backfill

variable (b : Backfill)

/-- The days of a window. -/
def stepDays : Nat := if b.size = "daily" then 1 else 7

theorem stepDays_bounds : 1 ≤ b.stepDays ∧ b.stepDays ≤ 7 := by
  unfold stepDays
  split_ifs <;> decide

/-- The periods of the windows. -/
def periods : List DateTimePeriod :=
  match generateBackfillPeriods b.args.startDate b.args.endDate b.args.window with
  | .ok periods => periods
  | .error _ => []

/-- The queries of the windows, in the order of the plan. -/
def queries : List DownloadQuery := b.periods.map b.args.windowQuery

theorem generated :
    generateBackfillPeriods b.args.startDate b.args.endDate b.args.window = .ok b.periods ∧
      Tiled b.stepDays b.args.endDate b.args.startDate b.periods := by
  obtain ⟨periods, hperiods, htiled⟩ := @windowsFrom_ok b.stepDays b.args.endDate b.args.startDate
      b.stepDays_bounds.1 b.stepDays_bounds.2
      (by have := b.bounded; omega) (b.args.endDate.ordinal + 1 - b.args.startDate.ordinal)
      (by have := b.ordered; omega)
  have hgenerated :
      generateBackfillPeriods b.args.startDate b.args.endDate b.args.window = .ok periods := by
    rw [generateBackfillPeriods, if_neg (Nat.not_lt.mpr b.ordered), b.sized, Checked.ok_bind]
    exact hperiods
  have hsame : b.periods = periods := by rw [Backfill.periods, hgenerated]
  rw [hsame]
  exact ⟨hgenerated, htiled⟩

theorem windowQuery_injective {args : PlanArgs} {p q : DateTimePeriod}
    (h : args.windowQuery p = args.windowQuery q) : p = q :=
  Option.some.inj (congrArg DownloadQuery.period h :)

theorem queries_nodup : b.queries.Nodup := by
  refine List.Nodup.map (fun _ _ => windowQuery_injective) ?_
  exact b.generated.2.chronological.imp_of_mem fun {p q} hp _ hapart hsame => by
    obtain ⟨first, final, hstart, hend, hforward, -⟩ := b.generated.2.whole p hp
    rw [← hsame, hstart, hend] at hapart
    have hapart : final.ordinal * 86400000000 - 1 < (first.ordinal - 1) * 86400000000 := hapart
    omega

/-- No two windows have a criteria digest in common. -/
def Apart (rt : Runtime) : Prop := ∀ q ∈ b.queries, ∀ q' ∈ b.queries, CollisionFree rt q q'

variable {b} {rt : Runtime}

theorem Apart.eq_of_hash (h : b.Apart rt) {q q' : DownloadQuery} (hq : q ∈ b.queries)
    (hq' : q' ∈ b.queries) (heq : q.criteriaHash rt = q'.criteriaHash rt) : q = q' := by
  have hsame := (criteriaHash_eq_iff (h q hq q' hq')).mp heq
  obtain ⟨p, -, rfl⟩ := List.mem_map.mp hq
  obtain ⟨p', -, rfl⟩ := List.mem_map.mp hq'
  rw [show p = p' from Option.some.inj hsame.period]

/-- The range checks of a submission let every window pass. -/
theorem range_ok {q : DownloadQuery} (hq : q ∈ b.queries) :
    isBackfillSubmitRange q = true ∧ requireMetadataOnly q MAX_BACKFILL_RANGE_DAYS = .ok () := by
  obtain ⟨p, hp, rfl⟩ := List.mem_map.mp hq
  obtain ⟨first, final, hstart, hend, hforward, hshort⟩ := b.generated.2.whole p hp
  have hstep := b.stepDays_bounds.2
  have hpos := first.pos
  have helapsed : elapsedMicros p =
      ((final.ordinal * 86400000000 - 1 : Nat) : Int) - ((first.ordinal - 1) * 86400000000 : Nat) := by
    rw [elapsedMicros, hstart, hend]
    show (((final.ordinal * 86400000000 - 1 : Nat) : Int) - 0) -
      (((first.ordinal - 1) * 86400000000 : Nat) - 0) = _
    omega
  have hlong : 2000000 ≤ elapsedMicros p ∧ elapsedMicros p ≤ 86400000000 * 7 := by
    rw [helapsed]
    omega
  constructor
  · have hdays : (p.end.wall.ordinal : Int) - p.start.wall.ordinal + 1 ≤ MAX_BACKFILL_RANGE_DAYS := by
      rw [hstart, hend]
      show (((final.ordinal * 86400000000 - 1) / 86400000000 + 1 : Nat) : Int) -
        ((first.ordinal - 1) * 86400000000 / 86400000000 + 1 : Nat) + 1 ≤ 7
      omega
    show (decide (2000000 ≤ elapsedMicros p) && decide _) = true
    rw [decide_eq_true hlong.1, decide_eq_true hdays]
    rfl
  · have hnotFolio : resolveV15RequestOperation (b.args.windowQuery p) ≠ .folio := by
      have hdirected := b.directed
      have hsame : (b.args.windowQuery p).direction = b.args.direction := rfl
      rw [resolveV15RequestOperation, if_neg (fun h => h rfl), hsame]
      cases hdirection : b.args.direction with
      | folio => exact absurd hdirection hdirected
      | issued | received => decide
    rw [requireMetadataOnly, if_neg (fun h => h b.metadata), validateV15LiveMetadataQuery,
      if_neg (by decide), if_neg hnotFolio]
    show (if elapsedMicros p ≤ 0 then _ else if elapsedMicros p < 2000000 then _
      else if 86400000000 * ((MAX_BACKFILL_RANGE_DAYS : Nat) : Int) < elapsedMicros p then _ else _) = _
    have hmost : ¬ 86400000000 * ((MAX_BACKFILL_RANGE_DAYS : Nat) : Int) < elapsedMicros p :=
      Int.not_lt.mpr hlong.2
    rw [if_neg (by omega), if_neg (by omega), if_neg hmost]

end Backfill

/-- The reference under which a profile has requested criteria, empty where there is none. -/
def requestOf (rs : List LiveMetadataRequestRecord) (profileId criteriaHash : String) : String :=
  ((existingByCriteria rs profileId criteriaHash).map (·.requestRef)).getD ""

/-- On a file that can be listed the plan is made: it has all windows, and those are
pending that have no request. -/
theorem plan_ok {rt : Runtime} (b : Backfill) {file : StateFile} {rs : List LiveMetadataRequestRecord}
    (hlist : listLive file = .ok rs) : ∃ plan, buildBackfillPlan rt b.args file = .ok plan ∧
      plan.windows.map (·.query) = b.queries ∧
      plan.pending.map (·.query) =
        b.queries.filter fun q => requestOf rs b.args.profileId (q.criteriaHash rt) = "" := by
  obtain ⟨operation, hoperation⟩ : ∃ operation, operationForDirection b.args.direction = .ok operation := by
    have hdirected := b.directed
    cases hdirection : b.args.direction with
    | folio => exact absurd hdirection hdirected
    | issued | received => exact ⟨_, rfl⟩
  obtain ⟨windows, hwindows⟩ : ∃ windows, windows = b.periods.mapIdx fun i period =>
    windowPlan rt b.args operation rs (i + 1) period := ⟨_, rfl⟩
  have hqueries : windows.map (·.query) = b.queries := by
    refine List.ext_getElem? fun i => ?_
    rw [hwindows, Backfill.queries, List.getElem?_map, List.getElem?_mapIdx, List.getElem?_map,
      Option.map_map]
    rfl
  refine ⟨{
    profileId := b.args.profileId
    direction := b.args.direction
    kind := b.args.kind
    window := b.size
    startDate := b.args.startDate
    endDate := b.args.endDate
    windows := windows }, ?_, hqueries, ?_⟩
  · rw [buildBackfillPlan, if_neg (fun h => h b.metadata), hoperation, Checked.ok_bind, hlist]
    show (generateBackfillPeriods b.args.startDate b.args.endDate b.args.window >>= _) = _
    rw [b.generated.1, Checked.ok_bind, b.sized, Checked.ok_bind, hwindows]
    rfl
  · have hrefs : ∀ window ∈ windows, window.existingRequestRef =
        requestOf rs b.args.profileId (window.query.criteriaHash rt) := by
      intro window hwindow
      rw [hwindows] at hwindow
      obtain ⟨i, hi, rfl⟩ := List.mem_mapIdx.mp hwindow
      rfl
    rw [← hqueries, List.filter_map]
    show (windows.filter fun window => window.existingRequestRef = "").map _ = _
    exact congrArg _ (List.filter_congr fun window hwindow => by
      rw [hrefs window hwindow]
      rfl)

/-! ## What a verification keeps -/

/-- Two records of one request of one profile, for the same criteria. -/
structure SameKey (r s : LiveMetadataRequestRecord) : Prop where
  requestRef : s.requestRef = r.requestRef
  profileId : s.profileId = r.profileId
  criteriaHash : s.criteriaHash = r.criteriaHash

theorem SameKey.refl (r : LiveMetadataRequestRecord) : SameKey r r := ⟨rfl, rfl, rfl⟩

theorem SameKey.trans {r s t : LiveMetadataRequestRecord} (h : SameKey r s) (h' : SameKey s t) :
    SameKey r t :=
  ⟨h'.requestRef.trans h.requestRef, h'.profileId.trans h.profileId,
    h'.criteriaHash.trans h.criteriaHash⟩

/-- Every record of the later list continues one of the earlier, and the only record of a
request is continued by the only one. -/
structure Carried (rs rs' : List LiveMetadataRequestRecord) : Prop where
  origin : ∀ after ∈ rs', ∃ before ∈ rs, SameKey before after
  sole : ∀ ref before, Keyed.Sole (·.requestRef) ref before rs →
    ∃ after, Keyed.Sole (·.requestRef) ref after rs' ∧ SameKey before after

section Verification

variable {rt : Runtime} {policy : VerifyBackoffPolicy} {verifier : Verifier} {now : Instant}
  {past events : List VerifyEvent} {start rs rs' : List LiveMetadataRequestRecord}
  {r after : LiveMetadataRequestRecord}

theorem recordResult_sameKey {result : SatVerificationResult}
    (h : recordResult rt policy now r result = .ok after) : SameKey r after := by
  rw [recordResult] at h
  dsimp only at h
  split_ifs at h
  all_goals first
    | cases h
      exact ⟨rfl, rfl, rfl⟩
    | obtain ⟨next, -, h⟩ := Checked.bind_eq_ok.mp h
      cases Checked.pure_eq_ok.mp h
      exact ⟨rfl, rfl, rfl⟩

/-- Whatever the verifier answers, the record keeps its key. -/
theorem recordAnswer_sameKey {answer : VerifierAnswer}
    (h : recordAnswer rt policy now r answer = .ok after) : SameKey r after := by
  cases answer with
  | ok result => exact recordResult_sameKey h
  | error exc =>
      rw [recordAnswer, retryOrPermanent] at h
      dsimp only at h
      by_cases hmax : policy.maxAttempts ≤ r.attemptCount + 1
      · rw [if_pos hmax] at h
        cases h
        exact ⟨rfl, rfl, rfl⟩
      · rw [if_neg hmax] at h
        obtain ⟨next, -, h⟩ := Checked.bind_eq_ok.mp h
        cases Checked.pure_eq_ok.mp h
        exact ⟨rfl, rfl, rfl⟩

theorem Carried.refl (rs : List LiveMetadataRequestRecord) : Carried rs rs :=
  ⟨fun r hr => ⟨r, hr, .refl r⟩, fun _ r hr => ⟨r, hr, .refl r⟩⟩

/-- A write that continues a record of `start`. -/
theorem Carried.insert (h : Carried start rs) (hr : r ∈ start) (hkey : SameKey r after) :
    Carried start (insertRecord after rs) where
  origin := by
    intro s hs
    rcases mem_insertRecord.mp hs with rfl | ⟨hold, -⟩
    · exact ⟨r, hr, hkey⟩
    · exact h.origin s hold
  sole := by
    intro ref before hbefore
    by_cases href : after.requestRef = ref
    · have hsame : r = before := hbefore.eq_of_mem hr (hkey.requestRef.symm.trans href)
      rw [hsame] at hkey
      refine ⟨after, ?_, hkey⟩
      rw [← href]
      exact Keyed.sole_upsert_self sortByCreation_perm
    · obtain ⟨middle, hmiddle, hmiddleKey⟩ := h.sole ref before hbefore
      exact ⟨middle, Keyed.sole_upsert_of_ne sortByCreation_perm href hmiddle, hmiddleKey⟩

/-- One verification of a record of `start`. -/
theorem Carried.attempt {result : Except StateFault LiveMetadataRequestRecord}
    (h : Carried start rs) (hr : r ∈ start)
    (hattempt : Attempt rt policy verifier now past rs r events rs' result) : Carried start rs' := by
  cases hattempt with
  | unreadable => exact h
  | expired | exhausted | unscheduled => exact h.insert hr ⟨rfl, rfl, rfl⟩
  | answered _ _ _ hresult =>
      have hmarked : SameKey r (markInProgress now r) := ⟨rfl, rfl, rfl⟩
      exact (h.insert hr hmarked).insert hr (hmarked.trans (recordAnswer_sameKey hresult))

/-- Verifications of records of `start`, up to the first fault. -/
theorem Carried.batch {todo : List LiveMetadataRequestRecord} (h : Carried start rs)
    (htodo : ∀ r ∈ todo, r ∈ start)
    (hbatch : Batch rt policy verifier now past rs todo events rs') : Carried start rs' := by
  induction hbatch with
  | done => exact h
  | next first _ ih =>
      exact ih (h.attempt (htodo _ List.mem_cons_self) first)
        fun s hs => htodo s (List.mem_cons_of_mem _ hs)
  | abort first => exact h.attempt (htodo _ List.mem_cons_self) first

/-- A scheduler run on a file that can be listed, however it ends. -/
theorem carried_verifyDue (args : VerifyDueArgs) {w : VerifyWorld} (hlist : listLive w.file = .ok rs) :
    ∃ rs', listLive ((runVerifyDue rt policy args).exec w).2.file = .ok rs' ∧ Carried rs rs' := by
  rcases @runVerifyDue_cases rt policy args w with hsame |
    ⟨now, listed, todo, events, rs', -, -, hlisted, hselected, hbatch, hrun, hlast⟩
  · rw [hsame]
    exact ⟨rs, hlist, .refl rs⟩
  · cases hlist.symm.trans hlisted
    rw [hrun]
    exact ⟨rs', hlast, (Carried.refl rs).batch (fun r hr => (hselected.mem hr).1) hbatch⟩

end Verification

/-! ## Rounds -/

/-- The invocation is for the backfill, under the id that the loaded profile itself has. -/
def Own (b : Backfill) (i : BackfillSubmit) : Prop :=
  ∃ localProfile, i.env.loadProfile i.options.profile = .ok localProfile ∧
    localProfile.profileId = i.options.profile ∧ planArgs i.options localProfile = .ok b.args

/-- One invocation submits a query, SAT accepts it under an id that is not blank, and the
answer is persisted as `r`. -/
structure Round (rt : Runtime) (b : Backfill) (i : BackfillSubmit) (w : SubmitWorld)
    (query : DownloadQuery) (r : LiveMetadataRequestRecord) : Prop where
  own : Own b i
  accepted : ∃ answer result, eventsSince w (i.run rt w) = [.submitted query answer, .replaced r] ∧
    Accepts answer result

/-- What lies outside the repository lets the query pass: the options and the guard of a
query of an admissible range, the credentials, and SAT, which accepts it. -/
structure Clears (b : Backfill) (i : BackfillSubmit) (trace : List SubmitEvent)
    (query : DownloadQuery) (result : SatRequestResult) : Prop where
  own : Own b i
  gated : backfillGate i.options = .ok ()
  guarded : ∃ verified, validateLiveSmokeGuard i.env i.options.profile i.options.manualRealSat query
    true i.options.permit BACKFILL_SUBMIT_SCOPE = .ok verified
  prepared : i.ports.prepare query = .ok ()
  accepted : Accepts (i.ports.send trace query) result

/-- No listed record has the reference of `r`, unless it is of the same request. -/
def Distinct (r : LiveMetadataRequestRecord) (file : StateFile) : Prop :=
  ∀ rs, listLive file = .ok rs → ∀ s ∈ rs, s.requestRef = r.requestRef → SameKey s r

section Rounds

variable {rt : Runtime} {b : Backfill} {i : BackfillSubmit} {w w' : SubmitWorld} {file : StateFile}
  {query : DownloadQuery} {r : LiveMetadataRequestRecord}

theorem Own.profileId (h : Own b i) : b.args.profileId = i.options.profile := by
  obtain ⟨localProfile, -, hsame, hargs⟩ := h
  obtain ⟨startDate, -, hargs⟩ := Checked.bind_eq_ok.mp hargs
  obtain ⟨endDate, -, hargs⟩ := Checked.bind_eq_ok.mp hargs
  obtain ⟨direction, -, hargs⟩ := Checked.bind_eq_ok.mp hargs
  obtain ⟨kind, -, hargs⟩ := Checked.bind_eq_ok.mp hargs
  rw [← Checked.pure_eq_ok.mp hargs]
  exact hsame

/-- The plan of an invocation for the backfill is the plan of the backfill. -/
theorem submitPlan_own {localProfile : LocalProfile} {plan : BackfillPlan} (hown : Own b i)
    (h : submitPlan rt i.env i.options file = .ok (localProfile, plan)) :
    buildBackfillPlan rt b.args file = .ok plan := by
  obtain ⟨loaded, hload, -, hargs⟩ := hown
  obtain ⟨hload', args, hargs', hbuilt⟩ := submitPlan_args h
  obtain rfl := Except.ok.inj (hload.symm.trans hload')
  obtain rfl := Except.ok.inj (hargs.symm.trans hargs')
  exact hbuilt

theorem submitPlan_of_own {plan : BackfillPlan} (hown : Own b i) (hgate : backfillGate i.options = .ok ())
    (h : buildBackfillPlan rt b.args file = .ok plan) :
    ∃ localProfile, submitPlan rt i.env i.options file = .ok (localProfile, plan) := by
  obtain ⟨loaded, hload, -, hargs⟩ := hown
  refine ⟨loaded, ?_⟩
  rw [submitPlan, hgate, Checked.ok_bind, hload, Checked.ok_bind, hargs, Checked.ok_bind, h]
  rfl

theorem persistedRecord_requestRef {args : PersistArgs} (h : persistedRecord rt args = .ok r) :
    r.requestRef ≠ "" := by
  rw [(persistedRecord_fields h).1]
  intro hempty
  have hlen := congrArg (fun s => s.toList.length) hempty
  simp [requestRefOf, String.toList_append] at hlen

/-- What a round has found and what it leaves. -/
structure Persisted (rt : Runtime) (b : Backfill) (i : BackfillSubmit) (w : SubmitWorld)
    (query : DownloadQuery) (r : LiveMetadataRequestRecord) : Prop where
  planned : ∃ plan window rest, buildBackfillPlan rt b.args w.file = .ok plan ∧
    plan.pending = window :: rest ∧ window.query = query
  file : ∃ rs, listLive w.file = .ok rs ∧ (i.run rt w).file = writeState (insertRecord r rs)
  normal : Normal r
  requestRef : r.requestRef ≠ ""
  profileId : r.profileId = b.args.profileId
  criteriaHash : r.criteriaHash = query.criteriaHash rt
  clock : ((i.env.clock 0).add? DEFAULT_VERIFY_MAX_AGE).isSome

/-- Inversion of an invocation that submits a query and persists its record. -/
theorem submission_cases {answer : Except CliFault SatRequestResult}
    (h : eventsSince w (i.run rt w) = [.submitted query answer, .replaced r]) :
    ∃ localProfile plan window rest result rs,
      submitPlan rt i.env i.options w.file = .ok (localProfile, plan) ∧ plan.pending = window :: rest ∧
      window.query = query ∧
      persistedRecord rt (persistArgs i.env (i.options.args query) (requestSummary query result)) = .ok r ∧
      listLive w.file = .ok rs ∧ (i.run rt w).file = writeState (insertRecord r rs) := by
  rcases @BackfillSubmit.run_cases rt i w with ⟨hidle, -⟩ | ⟨localProfile, sent, hsends, -, hsent⟩
  · rw [hidle, eventsSince_self] at h
    cases h
  · obtain ⟨plan, window, rest, hplan, hpending, hwindow⟩ := hsends.planned
    obtain ⟨w', hw'⟩ : ∃ w', w' = i.run rt w := ⟨_, rfl⟩
    rw [← hw'] at hsent h
    cases hsent with
    | unpersisted =>
        simp [eventsSince, answered] at h
    | @persisted result r' file answer' persist =>
        simp only [eventsSince, answered, List.append_assoc, List.drop_left, List.cons_append,
          List.nil_append, List.cons.injEq, SubmitEvent.submitted.injEq, SubmitEvent.replaced.injEq,
          and_true] at h
        obtain ⟨⟨rfl, -⟩, rfl⟩ := h
        obtain ⟨hrecord, rs, hlist, hfile⟩ := persistLive_ok.mp persist
        refine ⟨localProfile, plan, window, rest, result, rs, hplan, hpending, hwindow, hrecord, hlist, ?_⟩
        rw [← hw']
        exact hfile

/-- An invocation whose first pending window clears the gates, and whose query SAT accepts,
persists a record as long as its times lie in the calendar. -/
theorem submits {localProfile : LocalProfile} {plan : BackfillPlan} {window : BackfillWindowPlan}
    {rest : List BackfillWindowPlan} {rs : List LiveMetadataRequestRecord} {result : SatRequestResult}
    (hplan : submitPlan rt i.env i.options w.file = .ok (localProfile, plan))
    (hpending : plan.pending = window :: rest)
    (hguard : ∃ verified, validateLiveSmokeGuard i.env i.options.profile i.options.manualRealSat
      window.query (isBackfillSubmitRange window.query) i.options.permit BACKFILL_SUBMIT_SCOPE =
        .ok verified)
    (hpreflight : requireMetadataOnly window.query MAX_BACKFILL_RANGE_DAYS = .ok ())
    (hprepared : i.ports.prepare window.query = .ok ())
    (haccepts : Accepts (i.ports.send w.trace window.query) result) (hlist : listLive w.file = .ok rs)
    (hclock : ((i.env.clock 0).add? DEFAULT_VERIFY_MAX_AGE).isSome) :
    ∃ r, eventsSince w (i.run rt w) =
      [.submitted window.query (i.ports.send w.trace window.query), .replaced r] := by
  have hsends : i.Sends rt w.file localProfile window.query :=
    ⟨⟨plan, window, rest, hplan, hpending, rfl⟩, hguard, hpreflight, hprepared⟩
  rcases @BackfillSubmit.run_cases rt i w with ⟨-, hshut⟩ | ⟨localProfile', sent, -, honly, hsent⟩
  · exact absurd hsends (hshut _ _)
  · obtain ⟨-, rfl⟩ := honly _ _ hsends
    obtain ⟨w', hw'⟩ : ∃ w', w' = i.run rt w := ⟨_, rfl⟩
    rw [← hw'] at hsent
    cases hsent with
    | unpersisted failed =>
        obtain ⟨r, hr⟩ := (@persistedRecord_ok_iff rt
            (persistArgs i.env (i.options.args window.query) (requestSummary window.query result))
            (i.env.clock 0) rfl).mpr ⟨haccepts.2.2, hclock⟩
        exact absurd (persistLive_ok.mpr ⟨hr, rs, hlist, rfl⟩) (failed result haccepts r _)
    | @persisted result' r file answer persist =>
        refine ⟨r, ?_⟩
        rw [← hw']
        simp [eventsSince, answered, BackfillSubmitOptions.args]

/-- Inversion of a round. -/
theorem Round.persisted (h : Round rt b i w query r) : Persisted rt b i w query r := by
  obtain ⟨hown, answer, -, hevents, -⟩ := h
  obtain ⟨localProfile, plan, window, rest, result, rs, hplan, hpending, hwindow, hrecord, hlist, hfile⟩ :=
    submission_cases hevents
  obtain ⟨hnormal, -, -, -, hprofile, hhash⟩ := persistedRecord_fresh hrecord
  refine ⟨⟨plan, window, rest, submitPlan_own hown hplan, hpending, hwindow⟩, ⟨rs, hlist, hfile⟩, hnormal,
    persistedRecord_requestRef hrecord, ?_, hhash, ?_⟩
  · rw [hprofile, hown.profileId]
    rfl
  · exact ((@persistedRecord_ok_iff _ _ (i.env.clock 0) rfl).mp ⟨_, hrecord⟩).2

/-- Where a window is the first pending one and everything lets its query pass, the round
succeeds up to 72 hours before the end of the calendar. -/
theorem round_iff {plan : BackfillPlan} {window : BackfillWindowPlan} {rest : List BackfillWindowPlan}
    {rs : List LiveMetadataRequestRecord} {result : SatRequestResult}
    (hclears : Clears b i w.trace window.query result) (hquery : window.query ∈ b.queries)
    (hlist : listLive w.file = .ok rs) (hplan : buildBackfillPlan rt b.args w.file = .ok plan)
    (hpending : plan.pending = window :: rest) :
    (∃ r, Round rt b i w window.query r) ↔ ((i.env.clock 0).add? DEFAULT_VERIFY_MAX_AGE).isSome := by
  refine ⟨fun ⟨r, h⟩ => h.persisted.clock, fun hclock => ?_⟩
  obtain ⟨hrange, hpreflight⟩ := b.range_ok hquery
  obtain ⟨localProfile, hplanned⟩ := submitPlan_of_own hclears.own hclears.gated hplan
  have hguard := hclears.guarded
  rw [← hrange] at hguard
  obtain ⟨r, hevents⟩ := submits hplanned hpending hguard hpreflight hclears.prepared hclears.accepted
    hlist hclock
  exact ⟨r, hclears.own, _, result, hevents, hclears.accepted⟩

end Rounds

/-! ## Progress -/

/-- Rounds of a backfill with scheduler runs between them: the queries submitted so far and
the state file they have left. -/
inductive Course (rt : Runtime) (b : Backfill) (start : StateFile) :
    List DownloadQuery → StateFile → Prop
  | start : Course rt b start [] start
  | submit {sent : List DownloadQuery} {file : StateFile} {query : DownloadQuery}
      {r : LiveMetadataRequestRecord} (past : Course rt b start sent file) (i : BackfillSubmit)
      (trace : List SubmitEvent) (round : Round rt b i ⟨file, trace⟩ query r)
      (distinct : Distinct r file) : Course rt b start (sent ++ [query]) (i.run rt ⟨file, trace⟩).file
  | verify {sent : List DownloadQuery} {file : StateFile} (past : Course rt b start sent file)
      (policy : VerifyBackoffPolicy) (args : VerifyDueArgs) (trace : List VerifyEvent) :
      Course rt b start sent ((runVerifyDue rt policy args).exec ⟨file, trace⟩).2.file

/-- No listed record of the profile has the criteria of a window. -/
def Unrequested (rt : Runtime) (b : Backfill) (rs : List LiveMetadataRequestRecord) : Prop :=
  ∀ r ∈ rs, r.profileId = b.args.profileId → ∀ q ∈ b.queries, r.criteriaHash ≠ q.criteriaHash rt

/-- The windows in `sent` have a request, under a reference of its own, and those in `rest`
have none. -/
structure Progress (rt : Runtime) (b : Backfill) (sent rest : List DownloadQuery)
    (rs : List LiveMetadataRequestRecord) : Prop where
  parts : sent ++ rest = b.queries
  requested : ∀ q ∈ sent, ∃ ref r, Keyed.Sole (·.requestRef) ref r rs ∧
    r.profileId = b.args.profileId ∧ r.criteriaHash = q.criteriaHash rt
  only : ∀ r ∈ rs, r.profileId = b.args.profileId → ∀ q ∈ b.queries,
    r.criteriaHash = q.criteriaHash rt → q ∈ sent ∧ r.requestRef ≠ ""

section Progress

variable {rt : Runtime} {b : Backfill} {sent rest : List DownloadQuery} {query : DownloadQuery}
  {rs rs' : List LiveMetadataRequestRecord} {r : LiveMetadataRequestRecord}
  {profileId criteriaHash : String}

theorem mem_of_existing (h : existingByCriteria rs profileId criteriaHash = some r) :
    r ∈ rs ∧ r.profileId = profileId ∧ r.criteriaHash = criteriaHash := by
  obtain ⟨hmem, hkey⟩ := List.mem_filter.mp (List.mem_of_getLast? h)
  exact ⟨hmem, of_decide_eq_true hkey⟩

theorem existing_of_mem (hmem : r ∈ rs) (hprofile : r.profileId = profileId)
    (hhash : r.criteriaHash = criteriaHash) : ∃ last, existingByCriteria rs profileId criteriaHash = some last :=
  ⟨_, List.getLast?_eq_some_getLast (List.ne_nil_of_mem
    (List.mem_filter.mpr ⟨hmem, decide_eq_true ⟨hprofile, hhash⟩⟩))⟩

theorem Progress.start (h : Unrequested rt b rs) : Progress rt b [] b.queries rs where
  parts := rfl
  requested := fun _ hnone => absurd hnone List.not_mem_nil
  only := fun r hr hprofile q hq hhash => absurd hhash (h r hr hprofile q hq)

theorem Progress.disjoint (h : Progress rt b sent rest rs) : ∀ q ∈ rest, q ∉ sent := by
  have hnodup := b.queries_nodup
  rw [← h.parts] at hnodup
  exact fun q hrest hsent => (List.disjoint_of_nodup_append hnodup) hsent hrest

/-- The pending windows are those without a request. -/
theorem Progress.pending (h : Progress rt b sent rest rs) :
    (b.queries.filter fun q => requestOf rs b.args.profileId (q.criteriaHash rt) = "") = rest := by
  have hmem : ∀ q, q ∈ sent ∨ q ∈ rest → q ∈ b.queries := fun q hq => by
    rw [← h.parts]
    exact List.mem_append.mpr hq
  have hsent : (sent.filter fun q => requestOf rs b.args.profileId (q.criteriaHash rt) = "") = [] := by
    refine List.filter_eq_nil_iff.mpr fun q hq hempty => ?_
    obtain ⟨ref, r, hsole, hprofile, hhash⟩ := h.requested q hq
    obtain ⟨last, hlast⟩ := existing_of_mem hsole.mem hprofile hhash
    obtain ⟨hlisted, hlastProfile, hlastHash⟩ := mem_of_existing hlast
    have hempty := of_decide_eq_true hempty
    rw [requestOf, hlast] at hempty
    exact (h.only last hlisted hlastProfile q (hmem q (.inl hq)) hlastHash).2 hempty
  have hrest : (rest.filter fun q => requestOf rs b.args.profileId (q.criteriaHash rt) = "") = rest := by
    refine List.filter_eq_self.mpr fun q hq => decide_eq_true ?_
    cases hexisting : existingByCriteria rs b.args.profileId (q.criteriaHash rt) with
    | none =>
        rw [requestOf, hexisting]
        rfl
    | some last =>
        obtain ⟨hlisted, hlastProfile, hlastHash⟩ := mem_of_existing hexisting
        exact absurd (h.only last hlisted hlastProfile q (hmem q (.inr hq)) hlastHash).1
          (h.disjoint q hq)
  rw [← h.parts, List.filter_append, hsent, hrest, List.nil_append]

/-- A round moves the first pending window to those that are submitted. -/
theorem Progress.round {i : BackfillSubmit} {w : SubmitWorld} (hapart : b.Apart rt)
    (h : Progress rt b sent (query :: rest) rs) (hround : Persisted rt b i w query r)
    (hdistinct : ∀ s ∈ rs, s.requestRef = r.requestRef → SameKey s r) :
    Progress rt b (sent ++ [query]) rest (insertRecord r rs) where
  parts := by rw [List.append_assoc, List.singleton_append, h.parts]
  requested := by
    intro q hq
    rcases List.mem_append.mp hq with hq | hq
    · obtain ⟨ref, s, hsole, hprofile, hhash⟩ := h.requested q hq
      have hother : r.requestRef ≠ ref := by
        intro href
        have hkey := hdistinct s hsole.mem (hsole.key_eq.trans href.symm)
        have hquery : query ∈ b.queries := by
          rw [← h.parts]
          exact List.mem_append_right _ List.mem_cons_self
        exact h.disjoint query List.mem_cons_self (h.only s hsole.mem hprofile query hquery
          (hkey.criteriaHash.symm.trans hround.criteriaHash)).1
      exact ⟨ref, s, Keyed.sole_upsert_of_ne sortByCreation_perm hother hsole, hprofile, hhash⟩
    · rw [List.mem_singleton.mp hq]
      exact ⟨r.requestRef, r, Keyed.sole_upsert_self sortByCreation_perm, hround.profileId,
        hround.criteriaHash⟩
  only := by
    intro s hs hprofile q hq hhash
    rcases mem_insertRecord.mp hs with rfl | ⟨hold, -⟩
    · have hquery : query ∈ b.queries := by
        rw [← h.parts]
        exact List.mem_append_right _ List.mem_cons_self
      rw [hround.criteriaHash] at hhash
      rw [hapart.eq_of_hash hquery hq hhash]
      exact ⟨List.mem_append_right _ (List.mem_singleton.mpr rfl), hround.requestRef⟩
    · obtain ⟨hsent, href⟩ := h.only s hold hprofile q hq hhash
      exact ⟨List.mem_append_left _ hsent, href⟩

/-- Verifications change nothing about which windows have a request. -/
theorem Progress.carried (h : Progress rt b sent rest rs) (hcarried : Carried rs rs') :
    Progress rt b sent rest rs' where
  parts := h.parts
  requested := by
    intro q hq
    obtain ⟨ref, r, hsole, hprofile, hhash⟩ := h.requested q hq
    obtain ⟨after, hafter, hkey⟩ := hcarried.sole ref r hsole
    exact ⟨ref, after, hafter, hkey.profileId.trans hprofile, hkey.criteriaHash.trans hhash⟩
  only := by
    intro after hafter hprofile q hq hhash
    obtain ⟨before, hbefore, hkey⟩ := hcarried.origin after hafter
    rw [hkey.requestRef]
    exact h.only before hbefore (hkey.profileId.symm.trans hprofile) q hq
      (hkey.criteriaHash.symm.trans hhash)

/-- The first windows are submitted and the others pending, at every point of a course. -/
theorem Course.progress {start file : StateFile} (h : Course rt b start sent file)
    (hlist : listLive start = .ok rs) (hnew : Unrequested rt b rs) (hapart : b.Apart rt) :
    ∃ rest rs', listLive file = .ok rs' ∧ Progress rt b sent rest rs' := by
  induction h with
  | start => exact ⟨b.queries, rs, hlist, .start hnew⟩
  | submit _ i trace round distinct ih =>
      obtain ⟨rest, rs', hlist', hprogress⟩ := ih
      have hround := round.persisted
      obtain ⟨plan, window, others, hplan, hpending, hquery⟩ := hround.planned
      obtain ⟨listed, hlisted, hfile⟩ := hround.file
      cases hlist'.symm.trans hlisted
      -- the submitted window is the first of the pending ones
      obtain ⟨plan', hplan', -, hqueries⟩ := @plan_ok rt b _ _ hlist'
      cases hplan.symm.trans hplan'
      rw [hprogress.pending, hpending, List.map_cons, hquery] at hqueries
      rw [← hqueries] at hprogress
      refine ⟨_, _, ?_, hprogress.round hapart hround (distinct rs' hlist')⟩
      rw [hfile]
      exact listLive_upsert hlist' hround.normal
  | verify _ policy args trace ih =>
      obtain ⟨rest, rs', hlist', hprogress⟩ := ih
      obtain ⟨rs'', hlist'', hcarried⟩ := @carried_verifyDue rt policy _ args ⟨_, trace⟩ hlist'
      exact ⟨rest, rs'', hlist'', hprogress.carried hcarried⟩

/-- An invocation of `sat verify-due` is one of the runs between the rounds. -/
theorem Course.command {start file : StateFile} (h : Course rt b start sent file)
    (i : VerifyDueCommand.Invocation) (trace : List VerifyEvent) :
    Course rt b start sent (i.run rt ⟨file, trace⟩).file := by
  rcases @VerifyDueCommand.invocation_run rt i ⟨file, trace⟩ with hsame | ⟨verifier, hrun⟩
  · rw [hsame]
    exact h
  · rw [hrun]
    exact h.verify _ _ trace

end Progress

/-! ## Every window once -/

section Complete

variable {rt : Runtime}

/-- The windows of a backfill follow each other and cover its range.  From a state file
without requests for them, as long as no two hashes and no two references coincide, rounds
and scheduler runs in any order submit each window once and in order, and the plan shows
the others as pending; and each round succeeds where nothing outside stops it, up to 72
hours before the end of the calendar. -/
theorem backfill_progress (b : Backfill) :
    generateBackfillPeriods b.args.startDate b.args.endDate b.args.window = .ok b.periods ∧
    b.periods.Pairwise (fun p q => p.end.wall < q.start.wall) ∧
    (∀ t : Instant, (∃ p ∈ b.periods, p.start.wall ≤ t ∧ t ≤ p.end.wall) ↔
      b.args.startDate.midnight ≤ t ∧ t ≤ b.args.endDate.lastMicrosecond) ∧
    b.queries.Nodup ∧
    ∀ start rs, listLive start = .ok rs → Unrequested rt b rs → b.Apart rt →
      ∀ sent file, Course rt b start sent file →
        ∃ plan rest, buildBackfillPlan rt b.args file = .ok plan ∧
          plan.windows.map (·.query) = b.queries ∧ sent ++ rest = b.queries ∧
          plan.pending.map (·.query) = rest ∧
          (plan.pending = [] ↔ sent.length = b.queries.length) ∧
          ∀ query more, rest = query :: more → ∀ i trace result, Clears b i trace query result →
            ((∃ r, Round rt b i ⟨file, trace⟩ query r) ↔
              ((i.env.clock 0).add? DEFAULT_VERIFY_MAX_AGE).isSome) := by
  obtain ⟨hgenerated, htiled⟩ := b.generated
  refine ⟨hgenerated, htiled.chronological, htiled.covers, b.queries_nodup, ?_⟩
  intro start rs hlist hnew hapart sent file hcourse
  obtain ⟨rest, rs', hlist', hprogress⟩ := hcourse.progress hlist hnew hapart
  obtain ⟨plan, hplan, hwindows, hqueries⟩ := @plan_ok rt b _ _ hlist'
  rw [hprogress.pending] at hqueries
  refine ⟨plan, rest, hplan, hwindows, hprogress.parts, hqueries, ?_, ?_⟩
  · rw [← hprogress.parts, List.length_append, ← List.map_eq_nil_iff (f := (·.query)), hqueries,
      ← List.length_eq_zero_iff]
    omega
  · intro query more hrest i trace result hclears
    rw [hrest] at hqueries
    obtain ⟨window, others, hpending, rfl, -⟩ := List.map_eq_cons_iff.mp hqueries
    refine round_iff (w := ⟨file, trace⟩) hclears ?_ hlist' hplan hpending
    rw [← hprogress.parts, hrest]
    exact List.mem_append_right _ List.mem_cons_self

end Complete

/-! ## A backfill of one window -/

section Sample

/-- The backfill of the metadata received on 31 January 2024. -/
def sampleBackfill : Backfill where
  args := {
    profileId := "default"
    requesterRfc := "AAA010101AAA"
    startDate := ⟨738916, by decide, by decide⟩
    endDate := ⟨738916, by decide, by decide⟩
    direction := .received
    kind := .metadata }
  size := "weekly"
  metadata := rfl
  directed := by decide
  sized := by decide +kernel
  ordered := by decide
  bounded := by decide

/-- The submission of its window. -/
def sampleSubmit : BackfillSubmit where
  env := readyEnv 63842386800000000
  ports := samplePorts
  options := {
    fromDate := "2024-01-31"
    toDate := "2024-01-31"
    limitWindows := some 1
    manualRealSat := true
    permit := some "permit-1" }

theorem sampleSubmit_own : Own sampleBackfill sampleSubmit := by
  have hdate : parseBackfillDate "2024-01-31" = .ok sampleBackfill.args.startDate := by decide +kernel
  have hdirection : parseDownloadDirection "received" = .ok .received := by decide +kernel
  have hkind : parseDownloadKind "metadata" = .ok .metadata := by decide +kernel
  refine ⟨⟨"default", "AAA010101AAA"⟩, rfl, rfl, ?_⟩
  show (parseBackfillDate "2024-01-31" >>= fun startDate => parseBackfillDate "2024-01-31" >>=
    fun endDate => parseDownloadDirection "received" >>= fun direction =>
      parseDownloadKind "metadata" >>= fun kind => _) = _
  rw [hdate, Checked.ok_bind, Checked.ok_bind, hdirection, Checked.ok_bind, hkind, Checked.ok_bind]
  rfl

theorem sampleBackfill_queries : ∃ query, sampleBackfill.queries = [query] := by
  have hlength : sampleBackfill.queries.length = 1 := by decide +kernel
  exact List.length_eq_one_iff.mp hlength

/-- The window is submitted, and after a run of the scheduler nothing is pending. -/
theorem backfill_progress_sample : ∃ file plan, Course LiveSubmit.sampleRuntime sampleBackfill .absent
      sampleBackfill.queries file ∧
    buildBackfillPlan LiveSubmit.sampleRuntime sampleBackfill.args file = .ok plan ∧
    plan.pending = [] := by
  obtain ⟨query, hquery⟩ := sampleBackfill_queries
  have hnew : Unrequested LiveSubmit.sampleRuntime sampleBackfill [] :=
    fun r hr => absurd hr List.not_mem_nil
  have hapart : sampleBackfill.Apart LiveSubmit.sampleRuntime := by
    intro q hq q' hq' _
    rw [hquery] at hq hq'
    rw [List.mem_singleton.mp hq, List.mem_singleton.mp hq']
  obtain ⟨-, -, -, -, hruns⟩ := @backfill_progress LiveSubmit.sampleRuntime sampleBackfill
  obtain ⟨plan, rest, hplan, -, hparts, -, -, hround⟩ :=
    hruns .absent [] rfl hnew hapart [] .absent .start
  rw [List.nil_append, hquery] at hparts
  have hclears : Clears sampleBackfill sampleSubmit [] query
      ⟨"SAT-REQ-1", "5000", "Solicitud Aceptada", .accepted⟩ := by
    have hperiod : ∃ period, query.period = some period := by
      obtain ⟨period, -, rfl⟩ := List.mem_map.mp (show query ∈ sampleBackfill.queries by
        rw [hquery]
        exact List.mem_singleton.mpr rfl)
      exact ⟨period, rfl⟩
    obtain ⟨period, hperiod⟩ := hperiod
    exact ⟨sampleSubmit_own, rfl, ⟨true, readyEnv_guard _ _ _ _ hperiod⟩, rfl, rfl, rfl,
      by decide +kernel⟩
  obtain ⟨r, hr⟩ := (hround query [] hparts sampleSubmit [] _ hclears).mpr (by decide)
  have hcourse := (@Course.start LiveSubmit.sampleRuntime sampleBackfill .absent).submit
    sampleSubmit [] hr (fun rs hlist s hs => by cases hlist; cases hs)
  have hverified := hcourse.verify {} AsyncVerify.sampleRun []
  obtain ⟨plan', rest', hplan', -, -, -, hdone, -⟩ := hruns .absent [] rfl hnew hapart _ _ hverified
  refine ⟨_, plan', ?_, hplan', hdone.mpr ?_⟩
  · rw [hquery]
    exact hverified
  · rw [hquery]
    rfl

end Sample

end BackfillRuns

end CfdiVault
