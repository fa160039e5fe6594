import CfdiVault.AsyncVerifyAttempts
import CfdiVault.LiveCommands
import CfdiVault.SatSimulator

/-!
# The verify-due command

`sat verify-due` runs the scheduler once.  With the live gate open the verifier is
the SAT adapter, for one due request and under a permit; without it the verifier
is the simulated client, which finds every request in process.

The simulated answers are answers like any other to the scheduler.  `Simulated`
says what a number of them does to a record, and `lineage_commands` that nothing
else happens to any record of the file over any sequence of ungated runs.  The
attempts they use up are missing from what a later gated run has.
-/

namespace CfdiVault

open LiveRequestState LiveCommands AsyncVerify

namespace VerifyDueCommand

/-! ## The command -/

/-- The options of `sat verify-due`. -/
structure VerifyDueOptions where
  profile : String := "default"
  limit : Int := 1
  dryRun : Bool := false
  requestRef : Option String := none
  manualRealSat : Bool := false
  permit : Option String := none

/-- The verifier without the live gate. -/
def simulatedVerifier : Verifier := fun _ requestId =>
  .ok (FakeSatScenario.verifyInProcess.verifyRequest 2 requestId)

abbrev CommandProg := Prog VerifyWorld CliFault

/-- Refuse a live run. -/
def denyLive (reason : String) : CliFault := .exit "live_scheduler_verify_denied" [reason]

/-- `run_verify_due` under the handler of the command, with the default policy. -/
def runScheduler (rt : Runtime) (args : VerifyDueArgs) : CommandProg VerifyDueReport :=
  Prog.adapt (stateFault "request_state_unavailable") (runVerifyDue rt {} args)

/-- The gate of a live run: the checks before the guard, the guard itself, and the
reference of the request to verify. -/
def openLiveGate (rt : Runtime) (env : LiveEnv) (localProfile : LocalProfile)
    (options : VerifyDueOptions) : CommandProg Unit := do
  Prog.raiseIf (options.dryRun = true) (denyLive "dry-run-cannot-use-live-gate")
  Prog.raiseIf (options.manualRealSat = false) (denyLive "manual-real-sat-required")
  Prog.raiseIf (options.permit = none) (denyLive "permit-required-for-live")
  Prog.raiseIf (options.limit ≠ 1) (denyLive "limit-one-required")
  let requestRef := options.requestRef.getD ""
  Prog.raiseIf (requestRef = "") (denyLive "request-ref-required-for-live")
  let preflight ← runScheduler rt {
    profileId := options.profile
    verifier := simulatedVerifier
    dryRun := true
    requestRef := some requestRef
    now := .utc (env.clock 0) }
  let w ← get
  let record ← Prog.ofExcept
    ((loadLive w.file requestRef).mapError (stateFault "request_state_unavailable"))
  Prog.raiseIf (preflight.selectedCount ≠ 1) (denyLive "request-not-due")
  let query ← Prog.ofExcept (queryFromLiveRequestRecord localProfile.rfc record)
  let _ ← Prog.ofExcept (validateLiveSmokeGuard env options.profile options.manualRealSat query
    (isBackfillSubmitRange query) options.permit METADATA_LIVE_SMOKE_SCOPE)
  pure ()

/-- The scheduler run of the command with the given verifier. -/
def schedulerArgs (env : LiveEnv) (options : VerifyDueOptions) (verifier : Verifier) :
    VerifyDueArgs where
  profileId := options.profile
  verifier := verifier
  limit := options.limit
  dryRun := options.dryRun
  requestRef := options.requestRef
  now := .utc (env.clock 1)

/-- `sat_verify_due` -/
def satVerifyDue (rt : Runtime) (env : LiveEnv) (liveVerifier : Verifier)
    (options : VerifyDueOptions) : CommandProg VerifyDueReport := do
  let localProfile ← Prog.ofExcept (env.loadProfile options.profile)
  if options.manualRealSat || options.permit.isSome then
    openLiveGate rt env localProfile options
    runScheduler rt (schedulerArgs env options liveVerifier)
  else
    runScheduler rt (schedulerArgs env options simulatedVerifier)

/-- One invocation of the command. -/
structure Invocation where
  env : LiveEnv
  liveVerifier : Verifier
  options : VerifyDueOptions

/-- Without `--manual-real-sat` and without `--permit`. -/
def Invocation.Ungated (i : Invocation) : Prop :=
  i.options.manualRealSat = false ∧ i.options.permit = none

/-- The world after an invocation, however it ends. -/
def Invocation.run (rt : Runtime) (w : VerifyWorld) (i : Invocation) : VerifyWorld :=
  ((satVerifyDue rt i.env i.liveVerifier i.options).exec w).2

/-- The world after a sequence of invocations. -/
def runInvocations (rt : Runtime) (w : VerifyWorld) (is : List Invocation) : VerifyWorld :=
  is.foldl (Invocation.run rt) w

/-! ## What an invocation does to the world -/

section Invocations

variable {rt : Runtime}

theorem runScheduler_dry {args : VerifyDueArgs} (h : args.dryRun = true) (w : VerifyWorld) :
    Keeps (· = w) (runScheduler rt args) := by
  refine Keeps.adapt fun t ht => ?_
  have hsame : ((runVerifyDue rt {} args).exec t).2 = w := by
    rcases @runVerifyDue_cases rt {} args t with hsame | ⟨_, _, _, _, _, _, hno, _⟩
    · exact hsame.trans ht
    · rw [h] at hno
      cases hno
  rcases hx : (runVerifyDue rt {} args).exec t with ⟨e | report, t'⟩
  · rw [hx] at hsame; exact hsame
  · rw [hx] at hsame; exact hsame

/-- The gate only reads. -/
theorem openLiveGate_keeps (env : LiveEnv) (localProfile : LocalProfile)
    (options : VerifyDueOptions) (w : VerifyWorld) :
    Keeps (· = w) (openLiveGate rt env localProfile options) := by
  unfold openLiveGate
  -- the options, before anything is read
  iterate 5
    apply Keeps.bind (Keeps.raiseIf _ _)
    intro _
  apply Keeps.bind (runScheduler_dry rfl w)
  intro preflight
  apply Keeps.bind Keeps.get
  intro seen
  apply Keeps.bind (Keeps.ofExcept _)
  intro record
  apply Keeps.bind (Keeps.raiseIf _ _)
  intro _
  apply Keeps.bind (Keeps.ofExcept _)
  intro query
  exact Keeps.bind (Keeps.ofExcept _) fun _ => Keeps.pure _

theorem runScheduler_world (args : VerifyDueArgs) (w : VerifyWorld) :
    ((runScheduler rt args).exec w).2 = Op.run rt {} w (.verifyDue args) := by
  rw [runScheduler, Prog.exec_adapt]
  rfl

/-- An ungated invocation does nothing, or runs the scheduler with the simulated
verifier. -/
theorem ungated_run {i : Invocation} (h : i.Ungated) (w : VerifyWorld) :
    i.run rt w = w ∨
      i.run rt w = Op.run rt {} w (.verifyDue (schedulerArgs i.env i.options simulatedVerifier)) := by
  rw [Invocation.run, satVerifyDue]
  cases hprofile : i.env.loadProfile i.options.profile with
  | error fault =>
      left
      rw [Prog.exec_bind_error (Prog.exec_ofExcept _ w)]
  | ok localProfile =>
      right
      rw [Prog.exec_bind_ok (Prog.exec_ofExcept _ w), h.1, h.2, if_neg (by simp),
        runScheduler_world]

/-- Any invocation does nothing, or runs the scheduler. -/
theorem invocation_run (i : Invocation) (w : VerifyWorld) :
    i.run rt w = w ∨
      ∃ verifier, i.run rt w =
        Op.run rt {} w (.verifyDue (schedulerArgs i.env i.options verifier)) := by
  by_cases hgate : (i.options.manualRealSat || i.options.permit.isSome) = true
  · rw [Invocation.run, satVerifyDue]
    cases hprofile : i.env.loadProfile i.options.profile with
    | error fault =>
        left
        rw [Prog.exec_bind_error (Prog.exec_ofExcept _ w)]
    | ok localProfile =>
        rw [Prog.exec_bind_ok (Prog.exec_ofExcept _ w), if_pos hgate]
        have hkeeps := (@openLiveGate_keeps rt i.env localProfile i.options w).final rfl
        rcases hopen : (openLiveGate rt i.env localProfile i.options).exec w with ⟨fault | _, t⟩
        · left
          rw [Prog.exec_bind_error hopen]
          rw [hopen] at hkeeps
          exact hkeeps
        · right
          rw [hopen] at hkeeps
          have hsame : t = w := hkeeps
          refine ⟨i.liveVerifier, ?_⟩
          rw [Prog.exec_bind_ok hopen, hsame, runScheduler_world]
  · obtain ⟨hmanual, hpermit⟩ := Bool.or_eq_false_iff.mp (Bool.eq_false_iff.mpr hgate)
    have hungated : i.Ungated := ⟨hmanual, Option.isNone_iff_eq_none.mp (by simpa using hpermit)⟩
    exact (ungated_run hungated w).imp_right fun h => ⟨_, h⟩

/-- A sequence of invocations is a sequence of scheduler runs. -/
theorem invocations_ops (is : List Invocation) (w : VerifyWorld) :
    ∃ ops : List Op, (∀ op ∈ ops, ∃ args, op = .verifyDue args) ∧
      runInvocations rt w is = runOps rt {} w ops := by
  induction is generalizing w with
  | nil => exact ⟨[], by simp, rfl⟩
  | cons i rest ih =>
      obtain ⟨ops, hops, hrun⟩ := ih (i.run rt w)
      rcases @invocation_run rt i w with hsame | ⟨verifier, hop⟩
      · refine ⟨ops, hops, ?_⟩
        rw [hsame] at hrun
        rw [runInvocations, List.foldl_cons, hsame]
        exact hrun
      · refine ⟨.verifyDue (schedulerArgs i.env i.options verifier) :: ops, ?_, ?_⟩
        · exact List.forall_mem_cons.mpr ⟨⟨_, rfl⟩, hops⟩
        · rw [runOps, List.foldl_cons, ← hop]
          exact hrun

end Invocations

/-! ## What simulated answers do to a record -/

/-- `after` is `before` with `n` simulated answers on it. -/
structure Simulated (before after : LiveMetadataRequestRecord) (n : Nat) : Prop where
  requestRef : after.requestRef = before.requestRef
  live : after.live = before.live
  counted : after.attemptCount = before.attemptCount + n
  unasked : n = 0 → after.satEstadoSolicitud = before.satEstadoSolicitud ∧
    after.satCodigoEstado = before.satCodigoEstado
  asked : 0 < n → after.satEstadoSolicitud = "in_process" ∧ after.satCodigoEstado = "5000"
  permanent : after.status = VERIFY_FAILED_PERMANENT → before.status = VERIFY_FAILED_PERMANENT ∨
    (12 : Int) ≤ after.attemptCount

namespace Simulated

variable {r s t : LiveMetadataRequestRecord} {m n : Nat}

theorem refl : Simulated r r 0 where
  requestRef := rfl
  live := rfl
  counted := by simp
  unasked := fun _ => ⟨rfl, rfl⟩
  asked := fun h => absurd h (Nat.lt_irrefl 0)
  permanent := Or.inl

theorem trans (h : Simulated r s m) (h' : Simulated s t n) : Simulated r t (m + n) where
  requestRef := h'.requestRef.trans h.requestRef
  live := h'.live.trans h.live
  counted := by rw [h'.counted, h.counted, Nat.cast_add, Int.add_assoc]
  unasked := by
    intro hzero
    obtain ⟨hm, hn⟩ := Nat.add_eq_zero_iff.mp hzero
    exact ⟨(h'.unasked hn).1.trans (h.unasked hm).1, (h'.unasked hn).2.trans (h.unasked hm).2⟩
  asked := by
    intro hpos
    by_cases hn : n = 0
    · have hm : 0 < m := by omega
      rw [(h'.unasked hn).1, (h'.unasked hn).2]
      exact h.asked hm
    · exact h'.asked (Nat.pos_of_ne_zero hn)
  permanent := by
    intro hstatus
    rcases h'.permanent hstatus with hs | hmax
    · rcases h.permanent hs with hr | hmax
      · exact Or.inl hr
      · right
        have := h'.counted
        omega
    · exact Or.inr hmax

theorem markExpired (now : Instant) : Simulated r (AsyncVerify.markExpired now r) 0 where
  requestRef := rfl
  live := rfl
  counted := by simp [AsyncVerify.markExpired]
  unasked := fun _ => ⟨rfl, rfl⟩
  asked := fun h => absurd h (Nat.lt_irrefl 0)
  permanent := fun h => absurd h (show VERIFY_EXPIRED ≠ VERIFY_FAILED_PERMANENT by decide)

theorem markInProgress (now : Instant) : Simulated r (AsyncVerify.markInProgress now r) 0 where
  requestRef := rfl
  live := rfl
  counted := by simp [AsyncVerify.markInProgress]
  unasked := fun _ => ⟨rfl, rfl⟩
  asked := fun h => absurd h (Nat.lt_irrefl 0)
  permanent := fun h => absurd h (show VERIFY_IN_PROGRESS ≠ VERIFY_FAILED_PERMANENT by decide)

theorem markExhausted (now : Instant) (hmax : (12 : Int) ≤ r.attemptCount) :
    Simulated r (AsyncVerify.markExhausted now r) 0 where
  requestRef := rfl
  live := rfl
  counted := by simp [AsyncVerify.markExhausted]
  unasked := fun _ => ⟨rfl, rfl⟩
  asked := fun h => absurd h (Nat.lt_irrefl 0)
  permanent := fun _ => Or.inr hmax

/-- A stored simulated answer counts one attempt and reports the request in process. -/
theorem answered {rt : Runtime} {now : Instant} {outcome : LiveMetadataRequestRecord}
    {past : List VerifyEvent} {requestId : String}
    (h : recordAnswer rt {} now r (simulatedVerifier past requestId) = .ok outcome) :
    Simulated r outcome 1 := by
  obtain ⟨hsettles, hcount⟩ := recordAnswer_settles h
  obtain ⟨result, hresult⟩ :
    ∃ result, result = FakeSatScenario.verifyInProcess.verifyRequest 2 requestId := ⟨_, rfl⟩
  rw [simulatedVerifier, ← hresult, recordAnswer] at h
  have hstate : result.state = .inProcess := by rw [hresult]; rfl
  have hcode : result.satCode = "5000" := by rw [hresult]; rfl
  have hdata : isNoData result = false := by
    rw [isNoData, hcode]
    decide +kernel
  obtain ⟨hestado, hcodigo, hpermanent⟩ :=
    recordResult_inProcess (by rw [hresult]; rfl) hstate hdata h
  rw [hstate] at hestado
  rw [hcode] at hcodigo
  exact ⟨hsettles.requestRef, hsettles.live, hcount, fun h => absurd h (by decide),
    fun _ => ⟨hestado, hcodigo⟩, fun hstatus => Or.inr (hpermanent hstatus)⟩

end Simulated

/-! ## Lineage -/

/-- Every record of `rs'` is a record of `rs` with simulated answers on it, at most as
many as the history shows calls for its request. -/
def Lineage (rs : List LiveMetadataRequestRecord) (events : List VerifyEvent)
    (rs' : List LiveMetadataRequestRecord) : Prop :=
  ∀ after ∈ rs', ∃ before ∈ rs, ∃ n, n ≤ (callsFor after.requestRef events).length ∧
    Simulated before after n

section Lineages

variable {rt : Runtime} {now : Instant} {past events more : List VerifyEvent}
  {rs rs' rs'' start : List LiveMetadataRequestRecord} {r : LiveMetadataRequestRecord}

theorem Lineage.refl : Lineage rs [] rs :=
  fun after h => ⟨after, h, 0, Nat.zero_le _, Simulated.refl⟩

theorem Lineage.trans (h : Lineage rs events rs') (h' : Lineage rs' more rs'') :
    Lineage rs (events ++ more) rs'' := by
  intro after hafter
  obtain ⟨middle, hmiddle, n, hn, hlast⟩ := h' after hafter
  obtain ⟨before, hbefore, m, hm, hfirst⟩ := h middle hmiddle
  refine ⟨before, hbefore, m + n, ?_, hfirst.trans hlast⟩
  rw [← hlast.requestRef] at hm
  rw [callsFor_append, List.length_append]
  exact Nat.add_le_add hm hn

/-- A write of a record with simulated answers keeps the lineage of the others. -/
theorem Lineage.insert {after : LiveMetadataRequestRecord} {n : Nat}
    (h : Lineage start events rs) (hr : r ∈ start) (hsim : Simulated r after n)
    (hn : n ≤ (callsFor after.requestRef more).length) :
    Lineage start (events ++ more) (insertRecord after rs) := by
  intro x hx
  rcases mem_insertRecord.mp hx with rfl | ⟨hold, -⟩
  · refine ⟨r, hr, n, ?_, hsim⟩
    rw [callsFor_append, List.length_append]
    omega
  · obtain ⟨before, hbefore, m, hm, hsim'⟩ := h x hold
    refine ⟨before, hbefore, m, ?_, hsim'⟩
    rw [callsFor_append, List.length_append]
    omega

/-- One simulated verification of a record of `start`. -/
theorem Lineage.attempt {result : Except StateFault LiveMetadataRequestRecord}
    (h : Lineage start events rs) (hr : r ∈ start)
    (hattempt : Attempt rt {} simulatedVerifier now past rs r more rs' result) :
    Lineage start (events ++ more) rs' := by
  cases hattempt with
  | unreadable =>
      rw [List.append_nil]
      exact h
  | expired => exact h.insert hr (Simulated.markExpired now) (Nat.zero_le _)
  | exhausted _ hmax => exact h.insert hr (Simulated.markExhausted now hmax) (Nat.zero_le _)
  | @answered answer outcome _ _ hasked hresult =>
      rw [hasked] at hresult
      have hsim := (Simulated.markInProgress (r := r) now).trans (Simulated.answered hresult)
      have hfirst := @VerifyDueCommand.Lineage.insert _
          [replacement (AsyncVerify.markInProgress now r) rs, .called r now answer] _ _ _ _ _ h hr
          (Simulated.markInProgress now) (Nat.zero_le _)
      have hlast := @VerifyDueCommand.Lineage.insert _
          [replacement (AsyncVerify.markInProgress now r) rs, .called r now answer, replacement outcome (insertRecord (AsyncVerify.markInProgress now r) rs)]
          rs _ _ _ _ h hr hsim
          (by
            rw [callsFor_replacement, callsFor_called hsim.requestRef.symm]
            simp)
      intro x hx
      rcases mem_insertRecord.mp hx with rfl | ⟨hold, hne⟩
      · exact hlast x (mem_insertRecord.mpr (Or.inl rfl))
      · obtain ⟨before, hbefore, m, hm, hsim'⟩ := hfirst x hold
        refine ⟨before, hbefore, m, ?_, hsim'⟩
        have hsame : callsFor x.requestRef (events ++ [replacement
            (AsyncVerify.markInProgress now r) rs, .called r now answer, replacement outcome
              (insertRecord (AsyncVerify.markInProgress now r) rs)]) =
            callsFor x.requestRef (events ++ [replacement
              (AsyncVerify.markInProgress now r) rs, .called r now answer]) := by
          rw [callsFor_append, callsFor_append, callsFor, callsFor]
          rfl
        rw [hsame]
        exact hm
  | unscheduled => exact h.insert hr (Simulated.markInProgress now) (Nat.zero_le _)

/-- A batch of simulated verifications of records of `start`. -/
theorem Lineage.batch {todo : List LiveMetadataRequestRecord} (h : Lineage start events rs)
    (htodo : ∀ r ∈ todo, r ∈ start)
    (hbatch : Batch rt {} simulatedVerifier now past rs todo more rs') :
    Lineage start (events ++ more) rs' := by
  induction hbatch generalizing events with
  | done =>
      rw [List.append_nil]
      exact h
  | next first _ ih =>
      rw [← List.append_assoc]
      exact ih (h.attempt (htodo _ List.mem_cons_self) first)
        fun s hs => htodo s (List.mem_cons_of_mem _ hs)
  | abort first => exact h.attempt (htodo _ List.mem_cons_self) first

/-- An ungated invocation on a readable file. -/
theorem lineage_invocation {i : Invocation} (hi : i.Ungated) {w : VerifyWorld}
    (hlist : listLive w.file = .ok rs) : ∃ events rs', i.run rt w = w.extend events ∧
      listLive (w.extend events).file = .ok rs' ∧ Lineage rs events rs' := by
  have hidle : i.run rt w = w → ∃ events rs', i.run rt w = w.extend events ∧
      listLive (w.extend events).file = .ok rs' ∧ Lineage rs events rs' := by
    intro hsame
    refine ⟨[], rs, by rw [hsame, extend_nil], ?_, Lineage.refl⟩
    rw [extend_nil]
    exact hlist
  rcases @ungated_run rt _ hi w with hsame | hop
  · exact hidle hsame
  · rcases @op_cases rt {} _ _ (.verifyDue (schedulerArgs i.env i.options simulatedVerifier)) hlist with hsame |
      ⟨args, record, hargs, -⟩ | ⟨args, now, todo, events, rs', hargs, hselected, hbatch, hrun,
        hlast⟩
    · exact hidle (hop.trans hsame)
    · cases hargs
    · cases hargs
      refine ⟨events, rs', hop.trans hrun, hlast, ?_⟩
      exact Lineage.refl.batch (fun r hr => (hselected.mem hr).1) hbatch

/-- A sequence of ungated invocations on a readable file. -/
theorem lineage_invocations {is : List Invocation} (his : ∀ i ∈ is, i.Ungated) {w : VerifyWorld}
    (hlist : listLive w.file = .ok rs) : ∃ events rs', runInvocations rt w is = w.extend events ∧
      listLive (w.extend events).file = .ok rs' ∧ Lineage rs events rs' := by
  induction is generalizing w rs with
  | nil =>
      refine ⟨[], rs, (extend_nil w).symm, ?_, Lineage.refl⟩
      rw [extend_nil]
      exact hlist
  | cons i rest ih =>
      obtain ⟨events, rs', hrun, hlist', hlineage⟩ :=
        @lineage_invocation rt _ _ (his i List.mem_cons_self) _ hlist
      obtain ⟨more, rs'', hrun', hlist'', hlineage'⟩ :=
        ih (fun j hj => his j (List.mem_cons_of_mem i hj)) hlist'
      refine ⟨events ++ more, rs'', ?_, ?_, hlineage.trans hlineage'⟩
      · rw [extend_append, ← hrun', runInvocations, List.foldl_cons, hrun]
        rfl
      · rw [extend_append]
        exact hlist''

end Lineages

/-! ## What is left for a live run -/

section Remaining

variable {rt : Runtime} {w : VerifyWorld} {r : LiveMetadataRequestRecord}

/-- On a file that cannot be read an invocation changes nothing. -/
theorem invocation_unreadable {i : Invocation} {fault : StateFault}
    (h : listLive w.file = .error fault) : i.run rt w = w := by
  rcases @invocation_run rt i w with hsame | ⟨verifier, hop⟩
  · exact hsame
  · rw [hop]
    rcases @runVerifyDue_cases rt {} (schedulerArgs i.env i.options verifier) w with hsame | ⟨_, _, _, _, _, _, _, hlist, _⟩
    · exact hsame
    · rw [h] at hlist
      cases hlist

theorem invocations_unreadable {is : List Invocation} {fault : StateFault}
    (h : listLive w.file = .error fault) : runInvocations rt w is = w := by
  induction is with
  | nil => rfl
  | cons i rest ih =>
      rw [runInvocations, List.foldl_cons, invocation_unreadable h]
      exact ih

/-- Whatever invocations follow, the verifier is called for a stored request at most
as often as its count leaves of the twelve attempts. -/
theorem remaining_calls (h : Stored w r.requestRef r) (js : List Invocation) :
    callsFor r.requestRef (since w (runInvocations rt w js)) = [] ∨
      r.attemptCount + (callsFor r.requestRef (since w (runInvocations rt w js))).length ≤ 12 := by
  obtain ⟨ops, hops, hrun⟩ := @invocations_ops rt js w
  have hspares : ∀ op ∈ ops, op.Spares rt r.requestRef := by
    intro op hop
    obtain ⟨args, rfl⟩ := hops op hop
    trivial
  obtain ⟨_, _, htracked⟩ := @tracked_since _ {} _ _ _ hspares h
  rw [hrun]
  exact htracked.bounded

/-- A verification of an unexpired request asks the verifier exactly when its count
is below twelve. -/
theorem attempt_asks_iff {verifier : Verifier} {now : Instant} (h : Stored w r.requestRef r)
    (hexpiry : isExpired {} now r = .ok false) :
    callsFor r.requestRef (since w ((verifyOne rt {} verifier now r).exec w).2) ≠ [] ↔
      r.attemptCount < 12 := by
  obtain ⟨rs, hlist, hsole⟩ := h
  obtain ⟨events, rs', result, hattempt, hexec, -⟩ := @verifyOne_attempt rt {} verifier now _ _ _
      hlist (listLive_normal hlist r hsole.mem)
  rw [hexec, since_extend]
  cases hattempt with
  | unreadable hbad =>
      rw [hexpiry] at hbad
      cases hbad
  | expired hbad =>
      rw [hexpiry] at hbad
      cases Except.ok.inj hbad
  | exhausted _ hmax => exact iff_of_false (fun h => h rfl) (Int.not_lt.mpr hmax)
  | answered _ hattempts | unscheduled _ hattempts =>
      refine iff_of_true ?_ hattempts
      rw [callsFor_replacement, callsFor_called rfl]
      exact List.cons_ne_nil _ _

/-- Ungated invocations on any state file: an unreadable file stays as it is; in a
readable one every record is one of before with simulated answers on it, each of
which counts as an attempt, and a stored request has for all later invocations the
attempts that its count leaves of the twelve. -/
theorem ungated_lineage {is : List Invocation} (his : ∀ i ∈ is, i.Ungated) (w : VerifyWorld) :
    (∀ fault, listLive w.file = .error fault → runInvocations rt w is = w) ∧
    ∀ rs, listLive w.file = .ok rs → ∃ rs',
      listLive (runInvocations rt w is).file = .ok rs' ∧
      Lineage rs (since w (runInvocations rt w is)) rs' ∧
      ∀ r, Stored (runInvocations rt w is) r.requestRef r →
        (∀ js : List Invocation,
          callsFor r.requestRef (since (runInvocations rt w is)
            (runInvocations rt (runInvocations rt w is) js)) = [] ∨
          r.attemptCount + (callsFor r.requestRef (since (runInvocations rt w is)
            (runInvocations rt (runInvocations rt w is) js))).length ≤ 12) ∧
        ∀ verifier now, isExpired {} now r = .ok false →
          (callsFor r.requestRef (since (runInvocations rt w is)
            ((verifyOne rt {} verifier now r).exec (runInvocations rt w is)).2) ≠ [] ↔
              r.attemptCount < 12) := by
  refine ⟨fun fault h => invocations_unreadable h, fun rs hlist => ?_⟩
  obtain ⟨events, rs', hrun, hlist', hlineage⟩ := @lineage_invocations rt _ _ his _ hlist
  refine ⟨rs', ?_, ?_, fun r hr => ⟨remaining_calls hr, fun verifier now => attempt_asks_iff hr⟩⟩
  · rw [hrun]
    exact hlist'
  · rw [hrun, since_extend]
    exact hlineage

end Remaining

/-! ## A live request in an ungated run -/

section Sample

/-- `sat verify-due` without options, ten minutes after the sample request was accepted. -/
def sampleInvocation : Invocation where
  env := readyEnv 63842386200000000
  liveVerifier := simulatedVerifier
  options := {}

theorem ungated_lineage_sample :
    ∃ rs', listLive (runInvocations sampleRuntime sampleWorld [sampleInvocation]).file = .ok rs' ∧
      Lineage (insertRecord sampleRecord [])
        (since sampleWorld (runInvocations sampleRuntime sampleWorld [sampleInvocation])) rs' := by
  have hlist : listLive sampleWorld.file = .ok (insertRecord sampleRecord []) :=
    listLive_extend rfl (persistedRecord_fresh sampleRecord_persisted).1
  obtain ⟨rs', hlist', hlineage, -⟩ := (@ungated_lineage sampleRuntime [sampleInvocation]
      (List.forall_mem_singleton.mpr ⟨rfl, rfl⟩) sampleWorld).2 _ hlist
  exact ⟨rs', hlist', hlineage⟩

/-- One ungated run counts an attempt on a live request and stores a SAT state for it. -/
theorem ungated_run_changes_live_request :
    sampleInvocation.Ungated ∧ sampleRecord.live = true ∧
      Stored sampleWorld sampleRecord.requestRef sampleRecord ∧
      ∃ r, Stored (runInvocations sampleRuntime sampleWorld [sampleInvocation])
          sampleRecord.requestRef r ∧
        r.attemptCount ≠ sampleRecord.attemptCount ∧
        r.satEstadoSolicitud ≠ sampleRecord.satEstadoSolicitud := by
  refine ⟨⟨rfl, rfl⟩, rfl, (stored_of_persist persist_sample).1, ?_⟩
  have hfile : (listLive (runInvocations sampleRuntime sampleWorld [sampleInvocation]).file).map
      (fun rs => rs.map fun r => (r.requestRef, r.attemptCount, r.satEstadoSolicitud)) =
        .ok [(sampleRecord.requestRef, 1, "in_process")] := by
    decide +kernel
  cases hlist : listLive (runInvocations sampleRuntime sampleWorld [sampleInvocation]).file with
  | error fault =>
      rw [hlist] at hfile
      cases hfile
  | ok rs =>
      rw [hlist] at hfile
      obtain ⟨r, rfl, hr⟩ := List.map_eq_singleton_iff.mp (Except.ok.inj hfile)
      obtain ⟨href, hrest⟩ := Prod.mk.inj hr
      obtain ⟨hcount, hestado⟩ := Prod.mk.inj hrest
      refine ⟨r, ⟨[r], hlist, ?_⟩, ?_, ?_⟩
      · exact List.filter_cons_of_pos (decide_eq_true href)
      · rw [hcount]
        decide
      · rw [hestado]
        decide

end Sample

end VerifyDueCommand

end CfdiVault
