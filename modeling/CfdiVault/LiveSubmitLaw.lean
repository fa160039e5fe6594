import CfdiVault.LiveSubmit

/-!
# What a submission owes to the state file

A submission spends quota.  So a request that SAT accepted must be found in the state
file afterwards, and a query must not be sent while a request of the profile with the
same criteria is pending or ready.

`Sent` lists the courses of the shared routine once it reaches SAT.  The law of one
course is an equivalence (`Sent.lawful_iff`); each command then adds what its gates
have already established.
-/

namespace CfdiVault

open LiveRequestState LiveCommands SatBackfill

namespace LiveSubmit

/-! ## The law -/

/-- The part of the history that lies between two worlds. -/
def eventsSince (w w' : SubmitWorld) : List SubmitEvent := w'.trace.drop w.trace.length

@[simp] theorem eventsSince_self (w : SubmitWorld) : eventsSince w w = [] := by
  simp [eventsSince]

/-- SAT accepted the request, under an id that is not blank. -/
def Accepts (answer : Except CliFault SatRequestResult) (result : SatRequestResult) : Prop :=
  answer = .ok result ∧ result.action = .accepted ∧ Text.strip result.requestId ≠ ""

/-- A request of the profile with these criteria is pending or ready for download. -/
def ActiveFor (rs : List LiveMetadataRequestRecord) (profileId criteriaHash : String) : Prop :=
  ∃ r ∈ rs, r.profileId = profileId ∧ r.criteriaHash = criteriaHash ∧
    (r.status ∈ PENDING_VERIFY_STATUSES ∨ r.status = PACKAGE_READY)

/-- What happened between two worlds respects the state file: an accepted request is
found in it, and none was sent for criteria that were still active. -/
structure Lawful (rt : Runtime) (profileId : String) (w w' : SubmitWorld) : Prop where
  kept : ∀ query answer result, .submitted query answer ∈ eventsSince w w' →
    Accepts answer result → ∃ rs, listLive w'.file = .ok rs ∧
      ∃ r ∈ rs, r.idSolicitud = Text.strip result.requestId
  fresh : ∀ query answer, .submitted query answer ∈ eventsSince w w' →
    ∀ rs, listLive w.file = .ok rs → ¬ ActiveFor rs profileId (query.criteriaHash rt)

theorem lawful_idle (rt : Runtime) (profileId : String) (w : SubmitWorld) :
    Lawful rt profileId w w where
  kept := by simp
  fresh := by simp

/-- An accepted request can be found in a file that lists `rs`: the times of its record
lie in the calendar, or its id is there already. -/
def Persistable (rs : List LiveMetadataRequestRecord) (now : Instant) (requestId : String) : Prop :=
  (now.add? DEFAULT_VERIFY_MAX_AGE).isSome ∨ ∃ r ∈ rs, r.idSolicitud = Text.strip requestId

/-! ## The shared routine -/

section Routine

variable {rt : Runtime} {env : LiveEnv} {ports : SubmitPorts} {args : RequestSmokeArgs}
  {w : SubmitWorld}

/-- Nothing stops the routine before it reaches SAT. -/
structure Reaches (env : LiveEnv) (ports : SubmitPorts) (args : RequestSmokeArgs) : Prop where
  loads : ∃ localProfile, env.loadProfile args.profileId = .ok localProfile
  preflight : requireMetadataOnly args.query args.maxRangeDays = .ok ()
  prepared : ports.prepare args.query = .ok ()

/-- The world once SAT has answered. -/
def answered (ports : SubmitPorts) (query : DownloadQuery) (w : SubmitWorld) : SubmitWorld :=
  { w with trace := w.trace ++ [.submitted query (ports.send w.trace query)] }

/-- The courses of the routine from the request on: what SAT accepted was persisted, or
it was not. -/
inductive Sent (rt : Runtime) (env : LiveEnv) (ports : SubmitPorts) (args : RequestSmokeArgs)
    (w : SubmitWorld) : SubmitWorld → Prop
  | persisted {result : SatRequestResult} {r : LiveMetadataRequestRecord} {file : StateFile}
      (answer : ports.send w.trace args.query = .ok result)
      (persist : persistLive rt (persistArgs env args (requestSummary args.query result)) w.file =
        .ok (r, file)) :
      Sent rt env ports args w
        ⟨file, (answered ports args.query w).trace ++ [.replaced r]⟩
  | unpersisted (failed : ∀ result, Accepts (ports.send w.trace args.query) result →
      ∀ r file, persistLive rt (persistArgs env args (requestSummary args.query result)) w.file ≠
        .ok (r, file)) :
      Sent rt env ports args w (answered ports args.query w)

theorem action_accepted {action : SatOutcomeAction} :
    action.value = "accepted" ↔ action = .accepted := by
  cases action <;> decide

/-- Where something stops the routine, it changes nothing. -/
theorem run_unreached (h : ¬ Reaches env ports args) :
    ((runLiveMetadataRequestSmoke rt env ports args).exec w).2 = w := by
  rw [runLiveMetadataRequestSmoke]
  cases hprofile : env.loadProfile args.profileId with
  | error fault => rw [Prog.exec_bind_error (Prog.exec_ofExcept _ w)]
  | ok localProfile =>
      rw [Prog.exec_bind_ok (Prog.exec_ofExcept _ w)]
      have hstopped : ∃ fault, (metadataRequestSmoke ports args.query args.maxRangeDays).exec w =
          (.error fault, w) := by
        rw [metadataRequestSmoke]
        cases hpre : requireMetadataOnly args.query args.maxRangeDays with
        | error fault => exact ⟨fault, by rw [Prog.exec_bind_error (Prog.exec_ofExcept _ w)]⟩
        | ok _ =>
            rw [Prog.exec_bind_ok (Prog.exec_ofExcept _ w)]
            cases hprep : ports.prepare args.query with
            | error fault => exact ⟨fault, by rw [Prog.exec_bind_error (Prog.exec_ofExcept _ w)]⟩
            | ok _ => exact absurd ⟨⟨localProfile, hprofile⟩, hpre, hprep⟩ h
      obtain ⟨fault, hstopped⟩ := hstopped
      rw [Prog.exec_bind_error hstopped]

/-- The adapter, where nothing stops it. -/
theorem exec_metadataRequestSmoke (h : Reaches env ports args) :
    (metadataRequestSmoke ports args.query args.maxRangeDays).exec w =
      ((ports.send w.trace args.query).map (requestSummary args.query),
        answered ports args.query w) := by
  rw [metadataRequestSmoke, h.preflight, Prog.exec_bind_ok (Prog.exec_ofExcept _ w), h.prepared,
    Prog.exec_bind_ok (Prog.exec_ofExcept _ w), Prog.exec_bind, sendRequest,
    Prog.exec_bind_ok (Prog.exec_get w), Prog.exec_bind_ok (Prog.exec_set _ w), Prog.exec_ofExcept,
    answered]
  cases ports.send w.trace args.query <;> rfl

theorem exec_persistRequest {args : PersistArgs} {r : LiveMetadataRequestRecord}
    {file : StateFile} (h : persistLive rt args w.file = .ok (r, file)) :
    (persistRequest rt args).exec w = (.ok r, ⟨file, w.trace ++ [.replaced r]⟩) := by
  rw [persistRequest, Prog.exec_bind_ok (Prog.exec_get w), h]
  rfl

theorem exec_persistRequest_error {args : PersistArgs} {fault : StateFault}
    (h : persistLive rt args w.file = .error fault) : ((persistRequest rt args).exec w) =
      (.error (stateFault "request_state_persist_failed" fault), w) := by
  rw [persistRequest, Prog.exec_bind_ok (Prog.exec_get w), h]
  rfl

/-- Where nothing stops it, the routine takes one of the courses. -/
theorem run_sent (h : Reaches env ports args) :
    Sent rt env ports args w ((runLiveMetadataRequestSmoke rt env ports args).exec w).2 := by
  obtain ⟨localProfile, hprofile⟩ := h.loads
  rw [runLiveMetadataRequestSmoke, hprofile, Prog.exec_bind_ok (Prog.exec_ofExcept _ w),
    Prog.exec_bind, exec_metadataRequestSmoke h]
  cases hanswer : ports.send w.trace args.query with
  | error fault =>
      refine .unpersisted fun result haccepts => ?_
      rw [hanswer] at haccepts
      cases haccepts.1
  | ok result =>
      show Sent rt env ports args w (Prog.exec (if _ then _ else _) _).2
      by_cases hkeep : (requestSummary args.query result).request = "accepted" ∧
          (requestSummary args.query result).idSolicitud ≠ ""
      · rw [if_pos hkeep]
        cases hpersist : persistLive rt (persistArgs env args (requestSummary args.query result))
            w.file with
        | ok pair =>
            obtain ⟨r, file⟩ := pair
            rw [Prog.exec_bind_ok (exec_persistRequest (w := answered ports args.query w) hpersist)]
            exact .persisted hanswer hpersist
        | error fault =>
            rw [Prog.exec_bind_error
              (exec_persistRequest_error (w := answered ports args.query w) hpersist)]
            refine .unpersisted fun other haccepts r file hok => ?_
            rw [hanswer] at haccepts
            cases haccepts.1
            rw [hpersist] at hok
            cases hok
      · rw [if_neg hkeep]
        refine .unpersisted fun other haccepts => ?_
        rw [hanswer] at haccepts
        cases haccepts.1
        refine absurd ⟨action_accepted.mpr haccepts.2.1, fun hempty => haccepts.2.2 ?_⟩ hkeep
        rw [show result.requestId = "" from hempty, Text.strip_empty]

theorem Sent.submitted_iff {w' : SubmitWorld} (h : Sent rt env ports args w w')
    {query : DownloadQuery} {answer : Except CliFault SatRequestResult} :
    .submitted query answer ∈ eventsSince w w' ↔
      query = args.query ∧ answer = ports.send w.trace args.query := by
  cases h with
  | persisted => simp [eventsSince, answered]
  | unpersisted => simp [eventsSince, answered]

/-- What SAT accepted is found in the file exactly when it was persistable. -/
theorem Sent.kept_iff {w' : SubmitWorld} {result : SatRequestResult}
    (h : Sent rt env ports args w w') (haccepts : Accepts (ports.send w.trace args.query) result) :
    (∃ rs, listLive w'.file = .ok rs ∧ ∃ r ∈ rs, r.idSolicitud = Text.strip result.requestId) ↔
      ∃ rs, listLive w.file = .ok rs ∧ Persistable rs (env.clock 0) result.requestId := by
  have hrecord := @persistedRecord_ok_iff rt
      (persistArgs env args (requestSummary args.query result)) (env.clock 0) rfl
  cases h with
  | @persisted other r file answer persist =>
      rw [haccepts.1] at answer
      cases answer
      obtain ⟨hr, rs, hlist, rfl⟩ := persistLive_ok.mp persist
      obtain ⟨hnormal, -, -, hid, -, -⟩ := persistedRecord_fresh hr
      refine iff_of_true ?_ ⟨rs, hlist, Or.inl (hrecord.mp ⟨r, hr⟩).2⟩
      exact ⟨_, listLive_upsert hlist hnormal, r, mem_insertRecord.mpr (Or.inl rfl), hid⟩
  | unpersisted failed =>
      constructor
      · rintro ⟨rs, hlist, hfound⟩
        exact ⟨rs, hlist, Or.inr hfound⟩
      · rintro ⟨rs, hlist, hclock | hfound⟩
        · obtain ⟨r, hr⟩ := hrecord.mpr ⟨haccepts.2.2, hclock⟩
          exact absurd (persistLive_ok.mpr ⟨hr, rs, hlist, rfl⟩) (failed result haccepts r _)
        · exact ⟨rs, hlist, hfound⟩

/-- The law of one course. -/
theorem Sent.lawful_iff {w' : SubmitWorld} {profileId : String} (h : Sent rt env ports args w w') :
    Lawful rt profileId w w' ↔
      (∀ result, Accepts (ports.send w.trace args.query) result →
        ∃ rs, listLive w.file = .ok rs ∧ Persistable rs (env.clock 0) result.requestId) ∧
      ∀ rs, listLive w.file = .ok rs → ¬ ActiveFor rs profileId (args.query.criteriaHash rt) := by
  constructor
  · intro hlaw
    have hsent := h.submitted_iff.mpr ⟨rfl, rfl⟩
    refine ⟨fun result haccepts => ?_, hlaw.fresh _ _ hsent⟩
    exact (h.kept_iff haccepts).mp (hlaw.kept _ _ result hsent haccepts)
  · rintro ⟨hkept, hfresh⟩
    refine ⟨fun query answer result hmem haccepts => ?_, fun query answer hmem => ?_⟩
    · obtain ⟨-, rfl⟩ := h.submitted_iff.mp hmem
      exact (h.kept_iff haccepts).mpr (hkept result haccepts)
    · obtain ⟨rfl, -⟩ := h.submitted_iff.mp hmem
      exact hfresh

end Routine

/-! ## The commands -/

/-- One invocation of `sat metadata-request-smoke`. -/
structure RequestSmoke where
  env : LiveEnv
  ports : SubmitPorts
  options : RequestSmokeOptions

/-- The world after an invocation, however it ends. -/
def RequestSmoke.run (rt : Runtime) (w : SubmitWorld) (i : RequestSmoke) : SubmitWorld :=
  ((satMetadataRequestSmoke rt i.env i.ports i.options).exec w).2

/-- The gates of the invocation are open, for this profile and this query. -/
structure RequestSmoke.Sends (i : RequestSmoke) (localProfile : LocalProfile)
    (query : DownloadQuery) : Prop where
  built : buildProfileDownloadQuery i.env i.options = .ok (query, localProfile)
  guarded : ∃ verified, validateLiveSmokeGuard i.env i.options.profile i.options.manualRealSat
    query (isMinimalLiveSmokeRange query) i.options.permit METADATA_LIVE_SMOKE_SCOPE = .ok verified
  preflight : requireMetadataOnly query 1 = .ok ()
  prepared : i.ports.prepare query = .ok ()

/-- One invocation of `sat backfill submit`. -/
structure BackfillSubmit where
  env : LiveEnv
  ports : SubmitPorts
  options : BackfillSubmitOptions

/-- The world after an invocation, however it ends. -/
def BackfillSubmit.run (rt : Runtime) (w : SubmitWorld) (i : BackfillSubmit) : SubmitWorld :=
  ((satBackfillSubmit rt i.env i.ports i.options).exec w).2

/-- The gates of the invocation are open on this file, for this profile and the window
with this query. -/
structure BackfillSubmit.Sends (rt : Runtime) (i : BackfillSubmit) (file : StateFile)
    (localProfile : LocalProfile) (query : DownloadQuery) : Prop where
  planned : ∃ plan window rest, submitPlan rt i.env i.options file = .ok (localProfile, plan) ∧
    plan.pending = window :: rest ∧ window.query = query
  guarded : ∃ verified, validateLiveSmokeGuard i.env i.options.profile i.options.manualRealSat
    query (isBackfillSubmitRange query) i.options.permit BACKFILL_SUBMIT_SCOPE = .ok verified
  preflight : requireMetadataOnly query MAX_BACKFILL_RANGE_DAYS = .ok ()
  prepared : i.ports.prepare query = .ok ()

/-- The last listed request of the profile with these criteria has an empty reference,
and hides one that is pending or ready. -/
def Shadowed (rs : List LiveMetadataRequestRecord) (profileId criteriaHash : String) : Prop :=
  (∃ last, existingByCriteria rs profileId criteriaHash = some last ∧ last.requestRef = "") ∧
    ActiveFor rs profileId criteriaHash

section Laws

variable {rt : Runtime} {w : SubmitWorld}

theorem RequestSmoke.loads {i : RequestSmoke} {localProfile : LocalProfile} {query : DownloadQuery}
    (h : buildProfileDownloadQuery i.env i.options = .ok (query, localProfile)) :
    i.env.loadProfile i.options.profile = .ok localProfile := by
  obtain ⟨direction, -, h⟩ := Checked.bind_eq_ok.mp h
  obtain ⟨start, -, h⟩ := Checked.bind_eq_ok.mp h
  obtain ⟨«end», -, h⟩ := Checked.bind_eq_ok.mp h
  obtain ⟨loaded, hloaded, h⟩ := Checked.bind_eq_ok.mp h
  obtain ⟨built, -, h⟩ := Checked.bind_eq_ok.mp h
  cases Checked.pure_eq_ok.mp h
  exact hloaded

/-- An invocation of `sat metadata-request-smoke` changes nothing, or its gates are open
and it takes one of the courses of the routine. -/
theorem RequestSmoke.run_cases (i : RequestSmoke) (w : SubmitWorld) :
    (i.run rt w = w ∧ ∀ localProfile query, ¬ i.Sends localProfile query) ∨
    ∃ localProfile query, i.Sends localProfile query ∧
      (∀ localProfile' query', i.Sends localProfile' query' →
        localProfile' = localProfile ∧ query' = query) ∧
      Sent rt i.env i.ports (i.options.args query) w (i.run rt w) := by
  rw [RequestSmoke.run, satMetadataRequestSmoke]
  cases hbuilt : buildProfileDownloadQuery i.env i.options with
  | error fault =>
      refine Or.inl ⟨by rw [Prog.exec_bind_error (Prog.exec_ofExcept _ w)], fun _ _ h => ?_⟩
      rw [h.built] at hbuilt
      cases hbuilt
  | ok pair =>
      obtain ⟨query, localProfile⟩ := pair
      have honly : ∀ localProfile' query', i.Sends localProfile' query' →
          localProfile' = localProfile ∧ query' = query := by
        intro localProfile' query' h
        have hsame := hbuilt.symm.trans h.built
        cases hsame
        exact ⟨rfl, rfl⟩
      rw [Prog.exec_bind_ok (Prog.exec_ofExcept _ w)]
      dsimp only
      cases hguard : validateLiveSmokeGuard i.env i.options.profile i.options.manualRealSat query
          (isMinimalLiveSmokeRange query) i.options.permit METADATA_LIVE_SMOKE_SCOPE with
      | error fault =>
          refine Or.inl ⟨by rw [Prog.exec_bind_error (Prog.exec_ofExcept _ w)], fun _ _ h => ?_⟩
          obtain ⟨verified, hverified⟩ := h.guarded
          rw [(honly _ _ h).2, hguard] at hverified
          cases hverified
      | ok verified =>
          rw [Prog.exec_bind_ok (Prog.exec_ofExcept _ w)]
          by_cases hreach : Reaches i.env i.ports (i.options.args query)
          · exact Or.inr ⟨localProfile, query,
              ⟨hbuilt, ⟨verified, hguard⟩, hreach.preflight, hreach.prepared⟩, honly,
              run_sent hreach⟩
          · refine Or.inl ⟨run_unreached hreach, fun _ _ h => hreach ?_⟩
            obtain ⟨rfl, rfl⟩ := honly _ _ h
            exact ⟨⟨_, RequestSmoke.loads hbuilt⟩, h.preflight, h.prepared⟩

/-- When `sat metadata-request-smoke` respects the state file: it never looks at it, so
the file has to fit the request. -/
theorem RequestSmoke.lawful_iff (i : RequestSmoke) (w : SubmitWorld) :
    (∀ localProfile, i.env.loadProfile i.options.profile = .ok localProfile →
      Lawful rt localProfile.profileId w (i.run rt w)) ↔
    ∀ localProfile query, i.Sends localProfile query →
      (∀ result, Accepts (i.ports.send w.trace query) result →
        ∃ rs, listLive w.file = .ok rs ∧ Persistable rs (i.env.clock 0) result.requestId) ∧
      ∀ rs, listLive w.file = .ok rs →
        ¬ ActiveFor rs localProfile.profileId (query.criteriaHash rt) := by
  rcases @RequestSmoke.run_cases rt i w with ⟨hidle, hshut⟩ | ⟨localProfile, query, hsends, honly, hsent⟩
  · rw [hidle]
    refine iff_of_true (fun _ _ => lawful_idle rt _ w) fun localProfile query h => ?_
    exact absurd h (hshut localProfile query)
  · constructor
    · intro hlaw localProfile' query' h
      obtain ⟨rfl, rfl⟩ := honly _ _ h
      exact hsent.lawful_iff.mp (hlaw _ (RequestSmoke.loads h.built))
    · intro hcond localProfile' hload
      rw [RequestSmoke.loads hsends.built] at hload
      cases hload
      exact hsent.lawful_iff.mpr (hcond _ _ hsends)

/-- A plan is shown for the loaded profile, and for the arguments that the options give. -/
theorem submitPlan_args {env : LiveEnv} {options : BackfillSubmitOptions} {file : StateFile}
    {localProfile : LocalProfile} {plan : BackfillPlan}
    (h : submitPlan rt env options file = .ok (localProfile, plan)) :
    env.loadProfile options.profile = .ok localProfile ∧ ∃ args, planArgs options localProfile = .ok args ∧
      buildBackfillPlan rt args file = .ok plan := by
  obtain ⟨_, -, h⟩ := Checked.bind_eq_ok.mp h
  obtain ⟨loaded, hloaded, h⟩ := Checked.bind_eq_ok.mp h
  obtain ⟨args, hargs, h⟩ := Checked.bind_eq_ok.mp h
  obtain ⟨built, hbuilt, h⟩ := Checked.bind_eq_ok.mp h
  cases Checked.pure_eq_ok.mp h
  exact ⟨hloaded, args, hargs, Checked.mapError_eq_ok.mp hbuilt⟩

theorem submitPlan_ok {env : LiveEnv} {options : BackfillSubmitOptions} {file : StateFile}
    {localProfile : LocalProfile} {plan : BackfillPlan}
    (h : submitPlan rt env options file = .ok (localProfile, plan)) :
    env.loadProfile options.profile = .ok localProfile ∧ ∃ args : PlanArgs,
      args.profileId = localProfile.profileId ∧ buildBackfillPlan rt args file = .ok plan := by
  obtain ⟨hloaded, args, hargs, hbuilt⟩ := submitPlan_args h
  refine ⟨hloaded, args, ?_, hbuilt⟩
  obtain ⟨startDate, -, hargs⟩ := Checked.bind_eq_ok.mp hargs
  obtain ⟨endDate, -, hargs⟩ := Checked.bind_eq_ok.mp hargs
  obtain ⟨direction, -, hargs⟩ := Checked.bind_eq_ok.mp hargs
  obtain ⟨kind, -, hargs⟩ := Checked.bind_eq_ok.mp hargs
  rw [← Checked.pure_eq_ok.mp hargs]

/-- A pending window of a plan: the file was listed, and the last listed request with its
criteria, if any, has an empty reference. -/
theorem pending_window {args : PlanArgs} {file : StateFile} {plan : BackfillPlan}
    {window : BackfillWindowPlan} (h : buildBackfillPlan rt args file = .ok plan)
    (hpending : window ∈ plan.pending) : ∃ rs, listLive file = .ok rs ∧
      ∀ last, existingByCriteria rs args.profileId (window.query.criteriaHash rt) = some last →
        last.requestRef = "" := by
  obtain ⟨rs, hlist, -, -, hwindows⟩ := buildBackfillPlan_ok h
  obtain ⟨hmem, hempty⟩ := List.mem_filter.mp hpending
  obtain ⟨operation, index, period, rfl⟩ := hwindows window hmem
  refine ⟨rs, hlist, fun last hlast => ?_⟩
  have hempty : (windowPlan rt args operation rs index period).existingRequestRef = "" :=
    of_decide_eq_true hempty
  have hlast' : existingByCriteria rs args.profileId
      ((args.windowQuery period).criteriaHash rt) = some last := hlast
  rw [windowPlan] at hempty
  dsimp only at hempty
  rw [hlast'] at hempty
  exact hempty

/-- Where the window is pending, an active request is a hidden one. -/
theorem shadowed_iff {rs : List LiveMetadataRequestRecord} {profileId criteriaHash : String}
    (h : ∀ last, existingByCriteria rs profileId criteriaHash = some last → last.requestRef = "") :
    Shadowed rs profileId criteriaHash ↔ ActiveFor rs profileId criteriaHash := by
  refine ⟨fun hshadowed => hshadowed.2, fun hactive => ⟨?_, hactive⟩⟩
  obtain ⟨r, hr, hprofile, hhash, -⟩ := hactive
  have hmem : r ∈ rs.filter fun r => r.profileId = profileId ∧ r.criteriaHash = criteriaHash :=
    List.mem_filter.mpr ⟨hr, decide_eq_true ⟨hprofile, hhash⟩⟩
  have hlast := List.getLast?_eq_some_getLast (List.ne_nil_of_mem hmem)
  exact ⟨_, hlast, h _ hlast⟩

/-- An invocation of `sat backfill submit` changes nothing, or its gates are open and it
takes one of the courses of the routine. -/
theorem BackfillSubmit.run_cases (i : BackfillSubmit) (w : SubmitWorld) :
    (i.run rt w = w ∧ ∀ localProfile query, ¬ i.Sends rt w.file localProfile query) ∨
    ∃ localProfile query, i.Sends rt w.file localProfile query ∧
      (∀ localProfile' query', i.Sends rt w.file localProfile' query' →
        localProfile' = localProfile ∧ query' = query) ∧
      Sent rt i.env i.ports (i.options.args query) w (i.run rt w) := by
  rw [BackfillSubmit.run, satBackfillSubmit, Prog.exec_bind_ok (Prog.exec_get w)]
  cases hplan : submitPlan rt i.env i.options w.file with
  | error fault =>
      refine Or.inl ⟨by rw [Prog.exec_bind_error (Prog.exec_ofExcept _ w)], fun _ _ h => ?_⟩
      obtain ⟨plan, window, rest, hplanned, -⟩ := h.planned
      rw [hplan] at hplanned
      cases hplanned
  | ok pair =>
      obtain ⟨localProfile, plan⟩ := pair
      rw [Prog.exec_bind_ok (Prog.exec_ofExcept _ w)]
      dsimp only
      cases hpending : plan.pending with
      | nil =>
          refine Or.inl ⟨rfl, fun _ _ h => ?_⟩
          obtain ⟨plan', window, rest, hplanned, hwindows, -⟩ := h.planned
          cases hplan.symm.trans hplanned
          rw [hpending] at hwindows
          cases hwindows
      | cons window rest =>
          have honly : ∀ localProfile' query', i.Sends rt w.file localProfile' query' →
              localProfile' = localProfile ∧ query' = window.query := by
            intro localProfile' query' h
            obtain ⟨plan', window', rest', hplanned, hwindows, rfl⟩ := h.planned
            cases hplan.symm.trans hplanned
            rw [hpending] at hwindows
            obtain ⟨rfl, -⟩ := List.cons.inj hwindows
            exact ⟨rfl, rfl⟩
          dsimp only
          rw [submitWindow]
          cases hguard : validateLiveSmokeGuard i.env i.options.profile i.options.manualRealSat
              window.query (isBackfillSubmitRange window.query) i.options.permit
              BACKFILL_SUBMIT_SCOPE with
          | error fault =>
              refine Or.inl ⟨?_, fun _ _ h => ?_⟩
              · rw [Prog.exec_bind_error (Prog.exec_bind_error (Prog.exec_ofExcept _ w))]
              · obtain ⟨verified, hverified⟩ := h.guarded
                rw [(honly _ _ h).2, hguard] at hverified
                cases hverified
          | ok verified =>
              have hworld : ∀ {p : SubmitProg LiveSmokeCliResult},
                  ((do
                    let result ← (do
                      let _ ← Prog.ofExcept (.ok verified)
                      p)
                    pure (some (window, result)) :
                      SubmitProg (Option (BackfillWindowPlan × LiveSmokeCliResult))).exec w).2 =
                    (p.exec w).2 := by
                intro p
                rw [Prog.exec_bind, Prog.exec_bind_ok (Prog.exec_ofExcept _ w)]
                rcases p.exec w with ⟨fault | result, t⟩ <;> rfl
              rw [hworld]
              by_cases hreach : Reaches i.env i.ports (i.options.args window.query)
              · exact Or.inr ⟨localProfile, window.query,
                  ⟨⟨plan, window, rest, hplan, hpending, rfl⟩, ⟨verified, hguard⟩,
                    hreach.preflight, hreach.prepared⟩, honly, run_sent hreach⟩
              · refine Or.inl ⟨run_unreached hreach, fun _ _ h => hreach ?_⟩
                obtain ⟨-, rfl⟩ := honly _ _ h
                exact ⟨⟨_, (submitPlan_ok hplan).1⟩, h.preflight, h.prepared⟩

/-- When `sat backfill submit` respects the state file: its plan has listed the file and
passed over the windows that have a request. -/
theorem BackfillSubmit.lawful_iff (i : BackfillSubmit) (w : SubmitWorld) :
    (∀ localProfile, i.env.loadProfile i.options.profile = .ok localProfile →
      Lawful rt localProfile.profileId w (i.run rt w)) ↔
    ∀ localProfile query, i.Sends rt w.file localProfile query →
      ∀ rs, listLive w.file = .ok rs →
        (∀ result, Accepts (i.ports.send w.trace query) result →
          Persistable rs (i.env.clock 0) result.requestId) ∧
        ¬ Shadowed rs localProfile.profileId (query.criteriaHash rt) := by
  rcases @BackfillSubmit.run_cases rt i w with ⟨hidle, hshut⟩ | ⟨localProfile, query, hsends, honly, hsent⟩
  · rw [hidle]
    refine iff_of_true (fun _ _ => lawful_idle rt _ w) fun localProfile query h => ?_
    exact absurd h (hshut localProfile query)
  · obtain ⟨plan, window, rest, hplan, hpending, hquery⟩ := hsends.planned
    obtain ⟨hload, args, hprofile, hbuilt⟩ := submitPlan_ok hplan
    obtain ⟨rs, hlist, hexisting⟩ := pending_window hbuilt (by
      rw [hpending]
      exact List.mem_cons_self)
    rw [hprofile, hquery] at hexisting
    have hshadowed := shadowed_iff hexisting
    constructor
    · intro hlaw localProfile' query' h rs' hlist'
      obtain ⟨rfl, rfl⟩ := honly _ _ h
      cases hlist.symm.trans hlist'
      obtain ⟨hkept, hfresh⟩ := hsent.lawful_iff.mp (hlaw _ hload)
      refine ⟨fun result haccepts => ?_, fun h => hfresh rs hlist (hshadowed.mp h)⟩
      obtain ⟨rs'', hlist'', hpersistable⟩ := hkept result haccepts
      cases hlist.symm.trans hlist''
      exact hpersistable
    · intro hcond localProfile' hload'
      cases hload.symm.trans hload'
      obtain ⟨hkept, hfresh⟩ := hcond _ _ hsends rs hlist
      refine hsent.lawful_iff.mpr ⟨fun result haccepts => ⟨rs, hlist, hkept result haccepts⟩, ?_⟩
      intro rs' hlist' hactive
      cases hlist.symm.trans hlist'
      exact hfresh (hshadowed.mpr hactive)

/-- When the two commands respect the state file. -/
theorem submission_iff (w : SubmitWorld) (i : RequestSmoke) (j : BackfillSubmit) :
    ((∀ localProfile, i.env.loadProfile i.options.profile = .ok localProfile →
        Lawful rt localProfile.profileId w (i.run rt w)) ↔
      ∀ localProfile query, i.Sends localProfile query →
        (∀ result, Accepts (i.ports.send w.trace query) result →
          ∃ rs, listLive w.file = .ok rs ∧ Persistable rs (i.env.clock 0) result.requestId) ∧
        ∀ rs, listLive w.file = .ok rs →
          ¬ ActiveFor rs localProfile.profileId (query.criteriaHash rt)) ∧
    ((∀ localProfile, j.env.loadProfile j.options.profile = .ok localProfile →
        Lawful rt localProfile.profileId w (j.run rt w)) ↔
      ∀ localProfile query, j.Sends rt w.file localProfile query →
        ∀ rs, listLive w.file = .ok rs →
          (∀ result, Accepts (j.ports.send w.trace query) result →
            Persistable rs (j.env.clock 0) result.requestId) ∧
          ¬ Shadowed rs localProfile.profileId (query.criteriaHash rt)) :=
  ⟨i.lawful_iff w, j.lawful_iff w⟩

end Laws

/-! ## A request that is lost -/

section Sample

/-- A host whose digests are those of SHA-256 on the texts that the sample hashes. -/
def sampleRuntime : Runtime where
  sha256Text s :=
    if s = "default:5de8fe69144810e52750e4a3ce1ce6515bb6cc554b6c7a1e3ceeb18d64fcb9e1:SAT-REQ-1" then
      0x7dac601100e91ee2b393ee21508a4b598c08acec9e1f695175fc93d0c3bd8ec2
    else if s = "permit-1" then
      0x78fe2c1f9acaa46c349434e12d2c99700e8be52ed4bf9064332a8c7bde660e1d
    else 0x5de8fe69144810e52750e4a3ce1ce6515bb6cc554b6c7a1e3ceeb18d64fcb9e1
  sha256Bytes _ := 0
  upper := id
  lower := Text.lower
  alnum c := c.isAlphanum

/-- SAT accepts every request. -/
def samplePorts : SubmitPorts where
  prepare _ := .ok ()
  send _ _ := .ok {
    requestId := "SAT-REQ-1"
    satCode := "5000"
    message := "Solicitud Aceptada"
    action := .accepted }

/-- The request for the metadata received on 31 January 2024. -/
def sampleSmoke : RequestSmoke where
  env := readyEnv 63842386800000000
  ports := samplePorts
  options := {
    profile := "default"
    fromDate := "2024-01-31"
    toDate := "2024-01-31"
    manualRealSat := true
    permit := some "permit-1" }

/-- A state file that is not JSON. -/
def sampleWorld : SubmitWorld where
  file := .notJson

/-- The gates of the sample invocation are open. -/
theorem sampleSmoke_sends : ∃ query,
    sampleSmoke.Sends ⟨"default", "AAA010101AAA"⟩ query := by
  have hopen : ((buildProfileDownloadQuery sampleSmoke.env sampleSmoke.options).toOption.map
      fun pair => (pair.2, pair.1.period.isSome, isMinimalLiveSmokeRange pair.1,
        decide (requireMetadataOnly pair.1 1 = .ok ()))) =
      some (⟨"default", "AAA010101AAA"⟩, true, true, true) := by
    decide +kernel
  cases hbuilt : buildProfileDownloadQuery sampleSmoke.env sampleSmoke.options with
  | error fault =>
      rw [hbuilt] at hopen
      cases hopen
  | ok pair =>
      obtain ⟨query, localProfile⟩ := pair
      rw [hbuilt] at hopen
      obtain ⟨hprofile, hrest⟩ := Prod.mk.inj (Option.some.inj hopen)
      obtain ⟨hdated, hrest⟩ := Prod.mk.inj hrest
      obtain ⟨hrange, hpreflight⟩ := Prod.mk.inj hrest
      obtain ⟨period, hperiod⟩ := Option.isSome_iff_exists.mp hdated
      dsimp only at hprofile hrange hpreflight hperiod
      subst hprofile
      refine ⟨query, hbuilt, ⟨true, ?_⟩, of_decide_eq_true hpreflight, rfl⟩
      rw [hrange]
      exact readyEnv_guard _ _ _ _ hperiod

/-- On a state file that is not JSON, an accepted request is sent and not kept. -/
theorem accepted_request_lost :
    ¬ ∀ localProfile, sampleSmoke.env.loadProfile sampleSmoke.options.profile = .ok localProfile →
      Lawful sampleRuntime localProfile.profileId sampleWorld
        (sampleSmoke.run sampleRuntime sampleWorld) := by
  intro hlaw
  obtain ⟨query, hsends⟩ := sampleSmoke_sends
  obtain ⟨hkept, -⟩ := (sampleSmoke.lawful_iff sampleWorld).mp hlaw _ query hsends
  obtain ⟨rs, hlist, -⟩ := hkept _ ⟨rfl, rfl, by decide +kernel⟩
  cases hlist

end Sample

end LiveSubmit

end CfdiVault
