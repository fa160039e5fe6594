import CfdiVault.AsyncVerifyCrash
import CfdiVault.AsyncVerifyOutcome
import CfdiVault.Library.IsoFormat

/-!
# The bounds of the backoff

`_next_check_at` adds the delay of the policy to the current time and cuts the sum off at the
expiry of the request.  From the first completed attempt on no delay is longer than
`longestDelay`, none is empty where the policy has no empty delay, and the expiry of a request
that is verified is still to come.  So a stored check time lies between now and both bounds,
whether the verifier answered or raised (`putOff_iff`), and a second run at the same time finds
nothing of what the first one has written (`second_run_idle`).

What the sum has to do is exist: the addition comes before the cut.
-/

namespace CfdiVault

open LiveRequestState

namespace AsyncVerify

/-- A policy whose delays are positive, the jittered ones in order. -/
structure VerifyBackoffPolicy.Positive (policy : VerifyBackoffPolicy) : Prop where
  initialDelay : 0 < policy.initialDelay.micros
  secondDelay : 0 < policy.secondDelay.micros
  thirdDelay : 0 < policy.thirdDelay.micros
  fourthDelay : 0 < policy.fourthDelay.micros
  laterMinDelay : 0 < policy.laterMinDelay.micros
  ordered : policy.laterMinDelay.micros ≤ policy.laterMaxDelay.micros

/-- The longest delay after a completed attempt, in microseconds. -/
def VerifyBackoffPolicy.longestDelay (policy : VerifyBackoffPolicy) : Int :=
  max (max policy.secondDelay.micros policy.thirdDelay.micros)
    (max policy.fourthDelay.micros policy.laterMaxDelay.micros)

/-- The verifier raised, or its answer asks to come back. -/
def Retryable : VerifierAnswer → Prop
  | .error _ => True
  | .ok result => result.action ∈ [SatOutcomeAction.accepted, .inProgress, .retry, .duplicate]

/-- The answer does not close the request by its code or its state. -/
def LeavesOpen : VerifierAnswer → Prop
  | .error _ => True
  | .ok result => isNoData result = false ∧ result.state ≠ .expired ∧ result.state ≠ .rejected

/-- The answer puts the request off to a check after now, within its expiry and the longest
delay. -/
def PutOff (rt : Runtime) (policy : VerifyBackoffPolicy) (now expiry : Instant)
    (record : LiveMetadataRequestRecord) (answer : VerifierAnswer) : Prop :=
  ∃ after next, recordAnswer rt policy now record answer = .ok after ∧
    after.status ∈ PENDING_VERIFY_STATUSES ∧ parseStateDatetime after.nextCheckAt = .ok next ∧
    now < next ∧ next ≤ expiry ∧ (next.micros : Int) ≤ now.micros + policy.longestDelay

/-! ## Delays -/

section Delays

variable {rt : Runtime} {policy : VerifyBackoffPolicy} {now expiry : Instant}

theorem addSeconds?_of_le {d e : Timedelta} {n : Nat} (hd : 0 < d.micros)
    (h : d.micros + n * 1000000 ≤ e.micros) :
    ∃ sum, d.addSeconds? n = some sum ∧ sum.micros = d.micros + n * 1000000 := by
  have hupper := e.upper
  unfold Timedelta.addSeconds? Timedelta.ofMicros?
  rw [dif_pos ⟨by omega, by omega⟩]
  exact ⟨_, rfl, rfl⟩

/-- Under a positive policy every delay exists and is positive, and after an attempt none is
longer than the longest. -/
theorem nextDelay_bounds (hpolicy : policy.Positive) (completed : Int) (requestRef : String) :
    ∃ delay, policy.nextDelay rt completed requestRef = .ok delay ∧ 0 < delay.micros ∧
      (0 < completed → delay.micros ≤ policy.longestDelay) := by
  obtain ⟨hinitial, hsecond, hthird, hfourth, hmin, hordered⟩ := hpolicy
  unfold VerifyBackoffPolicy.nextDelay VerifyBackoffPolicy.longestDelay
  split_ifs with h0 h1 h2 h3
  · exact ⟨_, rfl, hinitial, fun hpos => absurd hpos (by omega)⟩
  · exact ⟨_, rfl, hsecond, fun _ => by omega⟩
  · exact ⟨_, rfl, hthird, fun _ => by omega⟩
  · exact ⟨_, rfl, hfourth, fun _ => by omega⟩
  · obtain ⟨span, hspan, hmicros⟩ : ∃ span, policy.laterMaxDelay.sub? policy.laterMinDelay = some span ∧
        span.micros = policy.laterMaxDelay.micros - policy.laterMinDelay.micros := by
      have hupper := policy.laterMaxDelay.upper
      unfold Timedelta.sub? Timedelta.ofMicros?
      rw [dif_pos ⟨by omega, by omega⟩]
      exact ⟨_, rfl, rfl⟩
    rw [hspan, orFault, Checked.ok_bind]
    dsimp only
    generalize (rt.sha256Text _).prefix32 = digest
    have hwindow : ((max span.wholeSeconds 0).toNat : Int) * 1000000 ≤ span.micros := by
      unfold Timedelta.wholeSeconds
      rw [Int.tdiv_eq_ediv_of_nonneg (by omega)]
      omega
    generalize (max span.wholeSeconds 0).toNat = window at hwindow
    split_ifs with hnone
    · exact ⟨_, rfl, hmin, fun _ => by omega⟩
    · -- the jitter stays within the window
      have hjitter : digest % (window + 1) ≤ window := Nat.le_of_lt_succ (Nat.mod_lt _ (Nat.succ_pos _))
      generalize digest % (window + 1) = jitter at hjitter
      obtain ⟨sum, hsum, hsumMicros⟩ := addSeconds?_of_le (d := policy.laterMinDelay)
        (e := policy.laterMaxDelay) (n := jitter) hmin (by omega)
      rw [hsum]
      exact ⟨sum, rfl, by omega, fun _ => by omega⟩

/-- A stored instant is read back. -/
theorem parseStateDatetime_formatInstant (t : Instant) :
    parseStateDatetime (formatInstant t) = .ok t := by
  rw [parseStateDatetime, if_neg (formatInstant_ne_empty t)]
  have hread := DateTime.readUtc_zulu t
  rw [DateTime.readUtc] at hread
  obtain ⟨parsed, hparsed, hinstant⟩ := Option.bind_eq_some_iff.mp hread
  rw [formatInstant, hparsed, orFault, Checked.ok_bind, normalizeDt, hinstant]
  rfl

/-- The check time of an unexpired request lies after now and within both bounds. -/
theorem nextCheckAt_bounds (hpolicy : policy.Positive) {record : LiveMetadataRequestRecord}
    {completed : Int} {text : String} (hexpiry : expiryOf policy record = .ok expiry) (hopen : now < expiry)
    (h : nextCheckAt rt policy now completed record = .ok text) :
    ∃ next, parseStateDatetime text = .ok next ∧ now < next ∧ next ≤ expiry ∧
      (0 < completed → (next.micros : Int) ≤ now.micros + policy.longestDelay) := by
  obtain ⟨delay, hdelay, h⟩ := Checked.bind_eq_ok.mp h
  obtain ⟨sum, hsum, h⟩ := Checked.bind_eq_ok.mp h
  obtain ⟨expiry', hexpiry', h⟩ := Checked.bind_eq_ok.mp h
  cases hexpiry.symm.trans hexpiry'
  obtain rfl := Checked.pure_eq_ok.mp h
  obtain ⟨delay', hdelay', hpos, hlongest⟩ := @nextDelay_bounds rt _ hpolicy completed record.requestRef
  cases hdelay.symm.trans hdelay'
  have hmicros := Instant.add?_eq_some (orFault_eq_ok hsum)
  have hlater : now.micros < sum.micros := by omega
  refine ⟨_, parseStateDatetime_formatInstant _, ?_⟩
  split_ifs with hcut
  · refine ⟨hopen, Instant.le_refl _, fun hcompleted => ?_⟩
    have hcut' : expiry.micros < sum.micros := hcut
    have := hlongest hcompleted
    omega
  · refine ⟨hlater, ?_, fun hcompleted => ?_⟩
    · exact Nat.not_lt.mp hcut
    · have := hlongest hcompleted
      omega

end Delays

/-! ## What is stored -/

section Stored

variable {rt : Runtime} {policy : VerifyBackoffPolicy} {now expiry : Instant}
variable {record after : LiveMetadataRequestRecord} {answer : VerifierAnswer}

/-- A stored answer closes its request, or asks for another attempt at the next check time. -/
theorem recordAnswer_cases (h : recordAnswer rt policy now record answer = .ok after) :
    (after.status ∈ TERMINAL_VERIFY_STATUSES ∧
      asksRetry policy (record.attemptCount + 1) answer = false) ∨
    (after.status ∈ PENDING_VERIFY_STATUSES ∧
      asksRetry policy (record.attemptCount + 1) answer = true ∧
      nextCheckAt rt policy now (record.attemptCount + 1) record = .ok after.nextCheckAt) := by
  rcases answerShape now record answer with ⟨stored, hno, hresult, -, hstatus⟩ |
    ⟨stored, hretry, hresult, -, hstatus, hchecked⟩
  · obtain rfl := Except.ok.inj (hresult.symm.trans h)
    exact .inl ⟨(terminal_outcome hstatus).2, hno⟩
  · obtain ⟨next, hnext, rfl⟩ := Checked.map_eq_ok.mp (hresult.symm.trans h)
    refine .inr ⟨(pending_outcome (hstatus next)).2, hretry, ?_⟩
    rw [hchecked next, hnext]

/-- With attempts left, a retryable answer asks for another attempt exactly if it leaves the
request open. -/
theorem asksRetry_iff (hretryable : Retryable answer)
    (hleft : record.attemptCount + 1 < policy.maxAttempts) :
    asksRetry policy (record.attemptCount + 1) answer = true ↔ LeavesOpen answer := by
  cases answer with
  | error exc => exact iff_of_true (decide_eq_true hleft) trivial
  | ok result =>
      have hcounted : result.action ∉
          [SatOutcomeAction.finished, .expired, .unauthorized, .permanentFailure] := by
        change result.action ∈ [SatOutcomeAction.accepted, .inProgress, .retry, .duplicate] at hretryable
        intro hclosing
        cases ha : result.action <;> simp_all
      simp [asksRetry, LeavesOpen, hcounted, hleft]

/-- A retryable answer puts an unexpired request with attempts left off exactly if it leaves
it open and the next check time can be represented. -/
theorem putOff_iff (hpolicy : policy.Positive) (hcount : 0 ≤ record.attemptCount)
    (hexpiry : expiryOf policy record = .ok expiry) (hopen : now < expiry)
    (hretryable : Retryable answer) (hleft : record.attemptCount + 1 < policy.maxAttempts) :
    PutOff rt policy now expiry record answer ↔
      LeavesOpen answer ∧ Representable rt policy now (record.attemptCount + 1) record.requestRef := by
  rw [← asksRetry_iff hretryable hleft, ← nextCheckAt_ok_iff hexpiry]
  constructor
  · rintro ⟨after, next, hafter, hpending, -⟩
    rcases recordAnswer_cases hafter with ⟨hterminal, -⟩ | ⟨-, hasks, hnext⟩
    · exact absurd hpending (not_pending_of_terminal hterminal)
    · exact ⟨hasks, _, hnext⟩
  · rintro ⟨hasks, text, htext⟩
    obtain ⟨after, hafter⟩ := (recordAnswer_ok_iff hexpiry).mpr fun _ =>
      (nextCheckAt_ok_iff hexpiry).mp ⟨text, htext⟩
    rcases recordAnswer_cases hafter with ⟨-, hno⟩ | ⟨hpending, -, hnext⟩
    · rw [hasks] at hno
      cases hno
    · obtain ⟨next, hparsed, hafterNow, hwithin, hlongest⟩ := nextCheckAt_bounds hpolicy hexpiry hopen hnext
      exact ⟨after, next, hafter, hpending, hparsed, hafterNow, hwithin, hlongest (by omega)⟩

/-- Whatever the answers that ask for another attempt, the check time is the same. -/
theorem nextCheckAt_same {other : VerifierAnswer} {after' : LiveMetadataRequestRecord}
    (h : recordAnswer rt policy now record answer = .ok after)
    (h' : recordAnswer rt policy now record other = .ok after')
    (hpending : after.status ∈ PENDING_VERIFY_STATUSES) (hpending' : after'.status ∈ PENDING_VERIFY_STATUSES) :
    after.nextCheckAt = after'.nextCheckAt := by
  rcases recordAnswer_cases h with ⟨hterminal, -⟩ | ⟨-, -, hnext⟩
  · exact absurd hpending (not_pending_of_terminal hterminal)
  rcases recordAnswer_cases h' with ⟨hterminal, -⟩ | ⟨-, -, hnext'⟩
  · exact absurd hpending' (not_pending_of_terminal hterminal)
  exact Except.ok.inj (hnext.symm.trans hnext')

end Stored

/-! ## A second run at the same time -/

section Runs

variable {rt : Runtime} {policy : VerifyBackoffPolicy} {verifier : Verifier} {now : Instant}
variable {past events : List VerifyEvent} {rs rs' todo : List LiveMetadataRequestRecord}
variable {r : LiveMetadataRequestRecord}

/-- A run at this time does not select the record. -/
def NotDue (now : Instant) (r : LiveMetadataRequestRecord) : Prop := isDueRecord now r ≠ .ok true

theorem notDue_of_not_pending (h : r.status ∉ PENDING_VERIFY_STATUSES) : NotDue now r :=
  fun hdue => h (isDueRecord_true hdue).1

/-- What an answer stores is not due at the time of the answer. -/
theorem recordAnswer_notDue {answer : VerifierAnswer} {after : LiveMetadataRequestRecord}
    (hpolicy : policy.Positive) (hexpiry : isExpired policy now r = .ok false)
    (h : recordAnswer rt policy now r answer = .ok after) : NotDue now after := by
  rcases recordAnswer_cases h with ⟨hterminal, -⟩ | ⟨-, -, hnext⟩
  · exact notDue_of_not_pending (not_pending_of_terminal hterminal)
  · obtain ⟨expiry, hreadable, hopen⟩ := expiry_of_not_expired hexpiry
    obtain ⟨next, hparsed, hlater, -⟩ := nextCheckAt_bounds hpolicy hreadable hopen hnext
    intro hdue
    obtain ⟨-, due, hdue, hle⟩ := isDueRecord_true hdue
    cases hparsed.symm.trans hdue
    exact absurd hle (Instant.not_le.mpr hlater)

theorem mem_rewritten_replacement {record : LiveMetadataRequestRecord}
    {before : List LiveMetadataRequestRecord} {ref : String} :
    ref ∈ rewritten [replacement record before] ↔ ref = record.requestRef := List.mem_singleton

/-- After a verification its request is not due, and every other request is as it was. -/
theorem Attempt.notDue {result : Except StateFault LiveMetadataRequestRecord}
    (hpolicy : policy.Positive) (h : Attempt rt policy verifier now past rs r events rs' result) :
    (∀ s ∈ rs', s.requestRef ∈ rewritten events → NotDue now s) ∧
      ∀ s ∈ rs', s.requestRef ∉ rewritten events → s ∈ rs := by
  have hinserted : ∀ {record s : LiveMetadataRequestRecord} {before : List LiveMetadataRequestRecord},
      s ∈ insertRecord record before → s.requestRef = record.requestRef → s = record := by
    intro record s before hs hsame
    rcases mem_insertRecord.mp hs with heq | ⟨-, hne⟩
    · exact heq
    · exact absurd hsame hne
  have hkept : ∀ {record s : LiveMetadataRequestRecord} {before : List LiveMetadataRequestRecord},
      s ∈ insertRecord record before → s.requestRef ≠ record.requestRef → s ∈ before := by
    intro record s before hs hne
    rcases mem_insertRecord.mp hs with rfl | ⟨hold, -⟩
    · exact absurd rfl hne
    · exact hold
  cases h with
  | unreadable => exact ⟨fun _ _ hnone => absurd hnone List.not_mem_nil, fun _ hs _ => hs⟩
  | expired =>
      refine ⟨fun s hs href => ?_, fun s hs href => hkept hs fun hsame => href ?_⟩
      · rw [hinserted hs (mem_rewritten_replacement.mp href)]
        exact notDue_of_not_pending (not_pending_of_terminal (terminal_outcome (by simp [markExpired])).2)
      · exact mem_rewritten_replacement.mpr hsame
  | exhausted =>
      refine ⟨fun s hs href => ?_, fun s hs href => hkept hs fun hsame => href ?_⟩
      · rw [hinserted hs (mem_rewritten_replacement.mp href)]
        exact notDue_of_not_pending (not_pending_of_terminal (terminal_outcome (by simp [markExhausted])).2)
      · exact mem_rewritten_replacement.mpr hsame
  | @answered answer outcome hexpiry _ _ hresult =>
      have href : outcome.requestRef = r.requestRef := (recordAnswer_settles hresult).1.requestRef
      have hwritten : ∀ ref, ref ∈ rewritten [replacement (markInProgress now r) rs, .called r now answer,
          replacement outcome (insertRecord (markInProgress now r) rs)] ↔ ref = r.requestRef := by
        intro ref
        simp [rewritten, replacement, markInProgress, href]
      refine ⟨fun s hs hmem => ?_, fun s hs hmem => ?_⟩
      · rw [hinserted hs (((hwritten _).mp hmem).trans href.symm)]
        exact recordAnswer_notDue hpolicy hexpiry hresult
      · have hne : s.requestRef ≠ r.requestRef := fun hsame => hmem ((hwritten _).mpr hsame)
        exact hkept (hkept hs (href ▸ hne)) hne
  | @unscheduled answer =>
      have hwritten : ∀ ref, ref ∈ rewritten [replacement (markInProgress now r) rs, .called r now answer] ↔
          ref = r.requestRef := by
        intro ref
        simp [rewritten, replacement, markInProgress]
      refine ⟨fun s hs hmem => ?_, fun s hs hmem => hkept hs fun hsame => hmem ((hwritten _).mpr hsame)⟩
      rw [hinserted hs ((hwritten _).mp hmem)]
      exact notDue_of_not_pending inProgress_not_pending

/-- After a batch nothing that it has written is due. -/
theorem Batch.notDue (hpolicy : policy.Positive) (h : Batch rt policy verifier now past rs todo events rs') :
    ∀ s ∈ rs', s.requestRef ∈ rewritten events → NotDue now s := by
  suffices hboth : (∀ s ∈ rs', s.requestRef ∈ rewritten events → NotDue now s) ∧
      ∀ s ∈ rs', s.requestRef ∉ rewritten events → s ∈ rs from hboth.1
  induction h with
  | done => exact ⟨fun _ _ hnone => absurd hnone List.not_mem_nil, fun _ hs _ => hs⟩
  | @next past events more rs rs' rs'' rest r after first _ ih =>
      obtain ⟨hfirst, hkept⟩ := first.notDue hpolicy
      obtain ⟨hlater, hkept'⟩ := ih
      refine ⟨fun s hs hmem => ?_, fun s hs hmem => ?_⟩
      · by_cases hagain : s.requestRef ∈ rewritten more
        · exact hlater s hs hagain
        · rw [rewritten_append] at hmem
          exact hfirst s (hkept' s hs hagain) ((List.mem_append.mp hmem).resolve_right hagain)
      · rw [rewritten_append, List.mem_append, not_or] at hmem
        exact hkept s (hkept' s hs hmem.2) hmem.1
  | abort first => exact first.notDue hpolicy

/-- A second run at the time of the first selects nothing that the first has written. -/
theorem second_run_idle (hpolicy : policy.Positive) {args second : VerifyDueArgs} {w : VerifyWorld}
    {sel : Selection} (hnow : second.now = args.now)
    (hsel : selection second ((runVerifyDue rt policy args).exec w).2.file = .ok sel) :
    ∀ s ∈ sel.due, s.requestRef ∉ rewritten (since w ((runVerifyDue rt policy args).exec w).2) := by
  rcases @runVerifyDue_cases rt policy args w with
    hidle | ⟨now, rs, todo, events, rs', hfirst, -, -, -, hbatch, hexec, hlisted⟩
  · rw [hidle]
    intro s _ hmem
    rw [since, List.drop_length] at hmem
    exact absurd hmem List.not_mem_nil
  · rw [hexec] at hsel ⊢
    obtain ⟨current, hcurrent, hsel⟩ := Checked.bind_eq_ok.mp hsel
    obtain ⟨listed, hlisted', hsel⟩ := Checked.bind_eq_ok.mp hsel
    obtain ⟨due, hdue, hsel⟩ := Checked.bind_eq_ok.mp hsel
    obtain rfl := Checked.pure_eq_ok.mp hsel
    cases hlisted.symm.trans hlisted'
    rw [hnow] at hcurrent
    cases hfirst.symm.trans hcurrent
    intro s hs hmem
    rw [since_extend] at hmem
    obtain ⟨hcandidate, haccept⟩ := List.mem_filter.mp ((dueRecords_perm hdue).subset hs)
    exact hbatch.notDue hpolicy s ((candidates_sublist second _).subset hcandidate) hmem
      (Checked.accepts_iff.mp haccept)

/-- The bounds of the backoff.  A retryable answer with attempts left puts a due request off
within the bounds exactly if it leaves the request open and the sum of now and the delay
exists; the check time does not depend on the answer; a second run at the same time leaves
what the first has rescheduled alone. -/
theorem backoff_bounds_iff (hpolicy : policy.Positive) :
    (∀ now record answer expiry, 0 ≤ record.attemptCount → isDueRecord now record = .ok true →
      isExpired policy now record = .ok false → expiryOf policy record = .ok expiry →
      Retryable answer → record.attemptCount + 1 < policy.maxAttempts →
        (PutOff rt policy now expiry (markInProgress now record) answer ↔
          LeavesOpen answer ∧ Representable rt policy now (record.attemptCount + 1) record.requestRef)) ∧
    (∀ now record answer other after after', recordAnswer rt policy now record answer = .ok after →
      recordAnswer rt policy now record other = .ok after' → after.status ∈ PENDING_VERIFY_STATUSES →
      after'.status ∈ PENDING_VERIFY_STATUSES → after.nextCheckAt = after'.nextCheckAt) ∧
    ∀ (args second : VerifyDueArgs) (w : VerifyWorld) (sel : Selection), second.now = args.now →
      selection second ((runVerifyDue rt policy args).exec w).2.file = .ok sel →
      ∀ s ∈ sel.due, s.requestRef ∉ rewritten (since w ((runVerifyDue rt policy args).exec w).2) := by
  refine ⟨?_, ?_, ?_⟩
  · intro now record answer expiry hcount _ hopen hexpiry hretryable hleft
    obtain ⟨expiry', hexpiry', hlater⟩ := expiry_of_not_expired hopen
    cases hexpiry.symm.trans hexpiry'
    exact @putOff_iff _ _ _ _ (markInProgress now record) _ hpolicy hcount hexpiry hlater hretryable hleft
  · intro now record answer other after after' h h' hpending hpending'
    exact nextCheckAt_same h h' hpending hpending'
  · intro args second w sel hnow hsel
    exact second_run_idle hpolicy hnow hsel

end Runs

/-! ## A delay that leaves the calendar -/

section Sample

theorem defaultPolicy_positive : VerifyBackoffPolicy.Positive {} := by
  constructor <;> decide

theorem patientPolicy_positive : patientPolicy.Positive := by
  constructor <;> decide

/-- SAT is still working on the request. -/
def stillWorking : SatVerificationResult where
  requestId := "SAT-REQ-1"
  state := .inProcess
  satCode := "5000"
  message := ""

/-- The request of the sample under the default policy: put off, and skipped by a second run. -/
theorem backoff_bounds_iff_sample :
    (PutOff sampleRuntime {} sampleNow 63842644800000000 (markInProgress sampleNow sampleRecord)
        (.ok stillWorking) ↔
      LeavesOpen (.ok stillWorking) ∧
        Representable sampleRuntime {} sampleNow (sampleRecord.attemptCount + 1) sampleRecord.requestRef) ∧
    ∀ sel, selection sampleRun ((runVerifyDue sampleRuntime {} sampleRun).exec sampleWorld).2.file = .ok sel →
      ∀ s ∈ sel.due, s.requestRef ∉
        rewritten (since sampleWorld ((runVerifyDue sampleRuntime {} sampleRun).exec sampleWorld).2) := by
  obtain ⟨hbounds, -, hidle⟩ := @backoff_bounds_iff sampleRuntime _ defaultPolicy_positive
  refine ⟨?_, fun sel hsel => hidle sampleRun sampleRun sampleWorld sel rfl hsel⟩
  have hretryable : Retryable (.ok stillWorking) := by simp [Retryable, stillWorking]
  exact hbounds sampleNow sampleRecord _ _ (by decide) (by decide +kernel) sampleRecord_open
    (by decide +kernel) hretryable (by decide)

/-- Under the patient policy a request that SAT still works on is not put off at all. -/
theorem patient_not_putOff :
    ¬ ∀ rt policy now record answer expiry, VerifyBackoffPolicy.Positive policy →
      0 ≤ record.attemptCount → isDueRecord now record = .ok true →
      isExpired policy now record = .ok false → expiryOf policy record = .ok expiry →
      Retryable answer → record.attemptCount + 1 < policy.maxAttempts →
        PutOff rt policy now expiry (markInProgress now record) answer := by
  intro h
  have hretryable : Retryable (.ok stillWorking) := by simp [Retryable, stillWorking]
  obtain ⟨after, -, hafter, -⟩ := h sampleRuntime patientPolicy sampleNow sampleRecord (.ok stillWorking)
    63842644800000000 patientPolicy_positive (by decide) (by decide +kernel) (by decide +kernel)
    (by decide +kernel) hretryable (by decide)
  have hfault : recordAnswer sampleRuntime patientPolicy sampleNow (markInProgress sampleNow sampleRecord)
      (.ok stillWorking) = .error .overflow := by
    decide +kernel
  rw [hfault] at hafter
  cases hafter

end Sample

end AsyncVerify

end CfdiVault
