import CfdiVault.AsyncVerify
import Mathlib.Data.List.Perm.Subperm

/-!
# Runs of the verification scheduler

What `runVerifyDue` can do to the state file and to the outside, said once and
used by every property of the scheduler.

* `Attempt` lists the five courses of one verification: the expiry cannot be
  read, the request is expired, its attempts are used up, the verifier is called
  and the outcome stored, or the verifier is called and the outcome cannot be
  computed.  `verifyOne_attempt` is the inversion lemma.
* `Batch` chains attempts over the selected records and stops at the first fault.
* `runVerifyDue_cases` says that a run either leaves the world alone or is a
  batch over records that were due.

The properties of single requests follow by induction over a batch: a request
that is not selected is untouched (`Batch.untouched`), and a request that is
selected goes through exactly one attempt.
-/

namespace CfdiVault

open LiveRequestState

namespace AsyncVerify

/-! ## Records that a run writes -/

theorem normalizeStatus_inProgress : normalizeStatus VERIFY_IN_PROGRESS = VERIFY_IN_PROGRESS := by
  decide +kernel

/-- The statuses in which a verification leaves its request. -/
def OUTCOME_STATUSES : List String :=
  [PACKAGE_READY, VERIFY_NO_DATA, VERIFY_EXPIRED, VERIFY_REJECTED, VERIFY_FAILED_PERMANENT,
    VERIFY_IN_PROGRESS_SAT, VERIFY_FAILED_RETRYABLE]

theorem normalizeStatus_outcome {status : String} (h : status ∈ OUTCOME_STATUSES) :
    normalizeStatus status = status := by
  have hall : ∀ s ∈ OUTCOME_STATUSES, normalizeStatus s = s := by decide +kernel
  exact hall status h

theorem not_inProgress_of_outcome {status : String} (h : status ∈ OUTCOME_STATUSES) :
    status ≠ VERIFY_IN_PROGRESS := by
  have hall : ∀ s ∈ OUTCOME_STATUSES, s ≠ VERIFY_IN_PROGRESS := by decide +kernel
  exact hall status h

/-- Rewriting a normal record with a stored status keeps it normal. -/
theorem normal_update {r s : LiveMetadataRequestRecord} (h : Normal r)
    (hstatus : normalizeStatus s.status = s.status) (hexpires : s.expiresAt = r.expiresAt)
    (hupdated : s.updatedAt ≠ "") (hnext : s.status ∈ PENDING_VERIFY_STATUSES → s.nextCheckAt ≠ "") :
    Normal s where
  status := hstatus
  expiresAt := by rw [hexpires]; exact h.expiresAt
  updatedAt := fun hu => absurd hu hupdated
  nextCheckAt := hnext

/-- A request is recoverable when verification is over, or a later run can still
select it. -/
def Recoverable (r : LiveMetadataRequestRecord) : Prop :=
  r.status ∈ TERMINAL_VERIFY_STATUSES ∨
    (r.status ∈ PENDING_VERIFY_STATUSES ∧ r.nextCheckAt ≠ "")

instance recoverableDecidable (r : LiveMetadataRequestRecord) : Decidable (Recoverable r) :=
  inferInstanceAs (Decidable (_ ∨ _))

/-- What the records stored at the end of a verification have in common. -/
structure Settles (before after : LiveMetadataRequestRecord) : Prop where
  requestRef : after.requestRef = before.requestRef
  live : after.live = before.live
  expiresAt : after.expiresAt = before.expiresAt
  updatedAt : after.updatedAt ≠ ""
  status : after.status ∈ OUTCOME_STATUSES
  recoverable : Recoverable after

theorem Settles.normal {before after : LiveMetadataRequestRecord} (h : Settles before after)
    (hn : Normal before) : Normal after := by
  refine normal_update hn (normalizeStatus_outcome h.status) h.expiresAt h.updatedAt ?_
  intro hp
  rcases h.recoverable with ht | ⟨-, hnext⟩
  · exact absurd hp (not_pending_of_terminal ht)
  · exact hnext

theorem settles_markExpired (now : Instant) (r : LiveMetadataRequestRecord) :
    Settles r (markExpired now r) where
  requestRef := rfl
  live := rfl
  expiresAt := rfl
  updatedAt := formatInstant_ne_empty now
  status := by simp [markExpired, OUTCOME_STATUSES]
  recoverable := Or.inl (by simp [markExpired, TERMINAL_VERIFY_STATUSES])

theorem settles_markExhausted (now : Instant) (r : LiveMetadataRequestRecord) :
    Settles r (markExhausted now r) where
  requestRef := rfl
  live := rfl
  expiresAt := rfl
  updatedAt := formatInstant_ne_empty now
  status := by simp [markExhausted, OUTCOME_STATUSES]
  recoverable := Or.inl (by simp [markExhausted, TERMINAL_VERIFY_STATUSES])

theorem normal_markInProgress {now : Instant} {r : LiveMetadataRequestRecord} (h : Normal r) :
    Normal (markInProgress now r) := by
  refine normal_update h normalizeStatus_inProgress rfl (formatInstant_ne_empty now) ?_
  intro hp
  have hnot : VERIFY_IN_PROGRESS ∉ PENDING_VERIFY_STATUSES := by decide +kernel
  exact absurd hp hnot

/-! ## Which answers ask for another attempt -/

section Answers

variable (rt : Runtime) (policy : VerifyBackoffPolicy)

/-- The answer leaves the request waiting: no final state, no final action, and,
where the scheduler counts, attempts remain after `completed`. -/
def asksRetry (completed : Int) : VerifierAnswer → Bool
  | .error _ => decide (completed < policy.maxAttempts)
  | .ok result =>
      decide (result.action ∉
        [SatOutcomeAction.finished, .expired, .unauthorized, .permanentFailure]) &&
      !isNoData result && decide (result.state ∉ [SatRequestState.expired, .rejected]) &&
      (decide (result.action = .downloadsExhausted) || decide (completed < policy.maxAttempts))

/-- The next check time can be represented: the delay is a duration, and the sum
of the current time and the delay lies within the calendar. -/
def Representable (now : Instant) (completed : Int) (requestRef : String) : Prop :=
  ∃ delay, policy.nextDelay rt completed requestRef = .ok delay ∧ (now.add? delay).isSome

variable {rt policy}

theorem nextCheckAt_ne_empty {now : Instant} {completed : Int} {r : LiveMetadataRequestRecord}
    {text : String} (h : nextCheckAt rt policy now completed r = .ok text) : text ≠ "" := by
  obtain ⟨delay, -, h⟩ := Checked.bind_eq_ok.mp h
  obtain ⟨nextAt, -, h⟩ := Checked.bind_eq_ok.mp h
  obtain ⟨expiresAt, -, h⟩ := Checked.bind_eq_ok.mp h
  rw [← Checked.pure_eq_ok.mp h]
  exact formatInstant_ne_empty _

/-- With a readable expiry, the next check time exists exactly when the sum is
representable. -/
theorem nextCheckAt_ok_iff {now expiry : Instant} {completed : Int} {r : LiveMetadataRequestRecord}
    (hexpiry : expiryOf policy r = .ok expiry) :
    (∃ text, nextCheckAt rt policy now completed r = .ok text) ↔
      Representable rt policy now completed r.requestRef := by
  constructor
  · rintro ⟨text, h⟩
    obtain ⟨delay, hdelay, h⟩ := Checked.bind_eq_ok.mp h
    obtain ⟨nextAt, hnext, -⟩ := Checked.bind_eq_ok.mp h
    exact ⟨delay, hdelay, by rw [orFault_eq_ok hnext]; rfl⟩
  · rintro ⟨delay, hdelay, hsum⟩
    obtain ⟨nextAt, hnext⟩ := Option.isSome_iff_exists.mp hsum
    refine ⟨formatInstant (if expiry < nextAt then expiry else nextAt), ?_⟩
    rw [nextCheckAt, hdelay, Checked.ok_bind, addInstant, hnext, orFault, Checked.ok_bind, hexpiry]
    rfl

/-- The record stored for a verifier answer: settled at once, or waiting for the
next check time that the policy gives. -/
inductive AnswerCourse (rt : Runtime) (policy : VerifyBackoffPolicy) (now : Instant)
    (r : LiveMetadataRequestRecord) (answer : VerifierAnswer) : Prop where
  | settled (after : LiveMetadataRequestRecord)
      (noRetry : asksRetry policy (r.attemptCount + 1) answer = false)
      (result : recordAnswer rt policy now r answer = .ok after)
      (settles : Settles r after) (counted : after.attemptCount = r.attemptCount + 1)
  | waiting (after : String → LiveMetadataRequestRecord)
      (retry : asksRetry policy (r.attemptCount + 1) answer = true)
      (result : recordAnswer rt policy now r answer =
        (nextCheckAt rt policy now (r.attemptCount + 1) r).map after)
      (settles : ∀ next, next ≠ "" → Settles r (after next))
      (counted : ∀ next, (after next).attemptCount = r.attemptCount + 1)

/-- What a stored answer keeps of the record, and what it counts. -/
structure Answered (r after : LiveMetadataRequestRecord) : Prop where
  requestRef : after.requestRef = r.requestRef
  live : after.live = r.live
  expiresAt : after.expiresAt = r.expiresAt
  updatedAt : after.updatedAt ≠ ""
  attemptCount : after.attemptCount = r.attemptCount + 1

/-- The record stored for an answer, with the statuses and the check time that it may have. -/
inductive AnswerShape (rt : Runtime) (policy : VerifyBackoffPolicy) (now : Instant)
    (r : LiveMetadataRequestRecord) (answer : VerifierAnswer) : Prop where
  | closed (after : LiveMetadataRequestRecord)
      (noRetry : asksRetry policy (r.attemptCount + 1) answer = false)
      (result : recordAnswer rt policy now r answer = .ok after) (answered : Answered r after)
      (status : after.status ∈ [PACKAGE_READY, VERIFY_NO_DATA, VERIFY_EXPIRED, VERIFY_REJECTED,
        VERIFY_FAILED_PERMANENT])
  | putOff (after : String → LiveMetadataRequestRecord)
      (retry : asksRetry policy (r.attemptCount + 1) answer = true)
      (result : recordAnswer rt policy now r answer =
        (nextCheckAt rt policy now (r.attemptCount + 1) r).map after)
      (answered : ∀ next, Answered r (after next))
      (status : ∀ next, (after next).status ∈ [VERIFY_IN_PROGRESS_SAT, VERIFY_FAILED_RETRYABLE])
      (checked : ∀ next, (after next).nextCheckAt = next)

theorem terminal_outcome {status : String} (h : status ∈ [PACKAGE_READY, VERIFY_NO_DATA, VERIFY_EXPIRED,
    VERIFY_REJECTED, VERIFY_FAILED_PERMANENT]) :
    status ∈ OUTCOME_STATUSES ∧ status ∈ TERMINAL_VERIFY_STATUSES := by
  have hall : ∀ s ∈ [PACKAGE_READY, VERIFY_NO_DATA, VERIFY_EXPIRED, VERIFY_REJECTED,
      VERIFY_FAILED_PERMANENT], s ∈ OUTCOME_STATUSES ∧ s ∈ TERMINAL_VERIFY_STATUSES := by
    decide +kernel
  exact hall _ h

theorem pending_outcome {status : String} (h : status ∈ [VERIFY_IN_PROGRESS_SAT, VERIFY_FAILED_RETRYABLE]) :
    status ∈ OUTCOME_STATUSES ∧ status ∈ PENDING_VERIFY_STATUSES := by
  have hall : ∀ s ∈ [VERIFY_IN_PROGRESS_SAT, VERIFY_FAILED_RETRYABLE],
      s ∈ OUTCOME_STATUSES ∧ s ∈ PENDING_VERIFY_STATUSES := by
    decide +kernel
  exact hall _ h

theorem retryOrPermanent_shape (now : Instant) (r : LiveMetadataRequestRecord)
    (exc : VerifierException) : AnswerShape rt policy now r (.error exc) := by
  have hupdated := formatInstant_ne_empty now
  by_cases hmax : policy.maxAttempts ≤ r.attemptCount + 1
  · refine .closed _ ?_ (if_pos hmax) ⟨rfl, rfl, rfl, hupdated, rfl⟩ (by simp)
    simpa [asksRetry] using hmax
  · refine .putOff (fun next => { r with
        attemptCount := r.attemptCount + 1
        lastCheckedAt := formatInstant now
        lastHttpStatus := httpStatus exc
        updatedAt := formatInstant now
        status := VERIFY_FAILED_RETRYABLE
        nextCheckAt := next
        lastErrorKind := errorKind exc }) ?_ ?_ ?_ ?_ fun _ => rfl
    · simpa [asksRetry] using hmax
    · change (if policy.maxAttempts ≤ r.attemptCount + 1 then _ else _) = _
      rw [if_neg hmax]
      rfl
    · exact fun next => ⟨rfl, rfl, rfl, hupdated, rfl⟩
    · exact fun next => by simp

theorem recordResult_shape (now : Instant) (r : LiveMetadataRequestRecord)
    (result : SatVerificationResult) : AnswerShape rt policy now r (.ok result) := by
  have hupdated := formatInstant_ne_empty now
  have hresult : recordAnswer rt policy now r (.ok result) = recordResult rt policy now r result :=
    rfl
  rw [recordResult] at hresult
  dsimp only at hresult
  by_cases hfinished : result.action = .finished
  · rw [if_pos hfinished] at hresult
    exact .closed _ (by simp [asksRetry, hfinished]) hresult ⟨rfl, rfl, rfl, hupdated, rfl⟩ (by simp)
  rw [if_neg hfinished] at hresult
  by_cases hnodata : isNoData result = true
  · rw [if_pos hnodata] at hresult
    exact .closed _ (by simp [asksRetry, hnodata]) hresult ⟨rfl, rfl, rfl, hupdated, rfl⟩ (by simp)
  rw [if_neg hnodata] at hresult
  by_cases hexpired : result.action = .expired ∨ result.state = .expired
  · rw [if_pos hexpired] at hresult
    refine .closed _ ?_ hresult ⟨rfl, rfl, rfl, hupdated, rfl⟩ (by simp)
    rcases hexpired with h | h <;> simp [asksRetry, h]
  rw [if_neg hexpired] at hresult
  by_cases hrejected : result.state = .rejected
  · rw [if_pos hrejected] at hresult
    exact .closed _ (by simp [asksRetry, hrejected]) hresult ⟨rfl, rfl, rfl, hupdated, rfl⟩ (by simp)
  rw [if_neg hrejected] at hresult
  by_cases hunauthorized : result.action = .unauthorized
  · rw [if_pos hunauthorized] at hresult
    exact .closed _ (by simp [asksRetry, hunauthorized]) hresult ⟨rfl, rfl, rfl, hupdated, rfl⟩ (by simp)
  rw [if_neg hunauthorized] at hresult
  by_cases hpermanent : result.action = .permanentFailure
  · rw [if_pos hpermanent] at hresult
    exact .closed _ (by simp [asksRetry, hpermanent]) hresult ⟨rfl, rfl, rfl, hupdated, rfl⟩ (by simp)
  rw [if_neg hpermanent] at hresult
  -- what is left keeps the request waiting, unless the attempts are used up
  have hopen : asksRetry policy (r.attemptCount + 1) (.ok result) =
      (decide (result.action = .downloadsExhausted) ||
        decide (r.attemptCount + 1 < policy.maxAttempts)) := by
    have h := not_or.mp hexpired
    simp [asksRetry, hfinished, hnodata, h.1, h.2, hrejected, hunauthorized, hpermanent]
  by_cases hcounted : result.action ∈ [SatOutcomeAction.accepted, .inProgress, .retry, .duplicate]
  · rw [if_pos hcounted] at hresult
    have hother : result.action ≠ .downloadsExhausted := by
      intro h
      rw [h] at hcounted
      exact absurd hcounted (by decide)
    by_cases hmax : policy.maxAttempts ≤ r.attemptCount + 1
    · rw [if_pos (show policy.maxAttempts ≤ (withResult now r result).attemptCount from hmax)]
        at hresult
      refine .closed _ ?_ hresult ⟨rfl, rfl, rfl, hupdated, rfl⟩ (by simp)
      rw [hopen]
      simpa [hother] using hmax
    · rw [if_neg (show ¬ policy.maxAttempts ≤ (withResult now r result).attemptCount from hmax)]
        at hresult
      refine .putOff _ ?_ hresult (fun next => ⟨rfl, rfl, rfl, hupdated, rfl⟩) ?_ fun _ => rfl
      · rw [hopen]
        simpa [hother] using hmax
      · intro next
        by_cases h : result.action ∈ [SatOutcomeAction.accepted, .inProgress] <;> simp [h]
  · rw [if_neg hcounted] at hresult
    have hlast : result.action = .downloadsExhausted := by
      cases ha : result.action <;> simp_all
    refine .putOff _ ?_ hresult (fun next => ⟨rfl, rfl, rfl, hupdated, rfl⟩) ?_ fun _ => rfl
    · rw [hopen]
      simp [hlast]
    · exact fun next => by simp

/-- Every answer has a shape. -/
theorem answerShape (now : Instant) (r : LiveMetadataRequestRecord) (answer : VerifierAnswer) :
    AnswerShape rt policy now r answer := by
  cases answer with
  | error exc => exact retryOrPermanent_shape now r exc
  | ok result => exact recordResult_shape now r result

/-- The record stored for a request that SAT is still processing carries the answer,
and is given up only when the attempts are used up. -/
theorem recordResult_inProcess {now : Instant} {r outcome : LiveMetadataRequestRecord}
    {result : SatVerificationResult} (haction : result.action = .inProgress)
    (hstate : result.state = .inProcess) (hdata : isNoData result = false)
    (h : recordResult rt policy now r result = .ok outcome) :
    outcome.satEstadoSolicitud = result.state.value ∧ outcome.satCodigoEstado = result.satCode ∧
      (outcome.status = VERIFY_FAILED_PERMANENT → policy.maxAttempts ≤ outcome.attemptCount) := by
  rw [recordResult, haction, hstate, hdata] at h
  dsimp only at h
  rw [if_neg (by decide), if_neg (by decide), if_neg (by decide), if_neg (by decide),
    if_neg (by decide), if_neg (by decide), if_pos (by decide)] at h
  by_cases hmax : policy.maxAttempts ≤ (withResult now r result).attemptCount
  · rw [if_pos hmax] at h
    cases h
    exact ⟨rfl, rfl, fun _ => hmax⟩
  · rw [if_neg hmax] at h
    obtain ⟨next, -, h⟩ := Checked.bind_eq_ok.mp h
    have hout := Checked.pure_eq_ok.mp h
    subst hout
    refine ⟨rfl, rfl, fun hstatus => ?_⟩
    exact absurd hstatus (show VERIFY_IN_PROGRESS_SAT ≠ VERIFY_FAILED_PERMANENT by decide)

/-- Every answer of the verifier takes one of the two courses. -/
theorem recordAnswer_course (now : Instant) (r : LiveMetadataRequestRecord)
    (answer : VerifierAnswer) : AnswerCourse rt policy now r answer := by
  rcases answerShape now r answer with ⟨after, hno, hresult, hkept, hstatus⟩ |
    ⟨after, hretry, hresult, hkept, hstatus, hchecked⟩
  · obtain ⟨houtcome, hterminal⟩ := terminal_outcome hstatus
    refine .settled after hno hresult ?_ hkept.attemptCount
    exact ⟨hkept.requestRef, hkept.live, hkept.expiresAt, hkept.updatedAt, houtcome, .inl hterminal⟩
  · refine .waiting after hretry hresult ?_ fun next => (hkept next).attemptCount
    intro next hnext
    obtain ⟨houtcome, hpending⟩ := pending_outcome (hstatus next)
    have hset : (after next).nextCheckAt ≠ "" := by rwa [hchecked next]
    exact ⟨(hkept next).requestRef, (hkept next).live, (hkept next).expiresAt, (hkept next).updatedAt,
      houtcome, .inr ⟨hpending, hset⟩⟩

/-- A stored answer settles the request and counts one attempt. -/
theorem recordAnswer_settles {now : Instant} {r outcome : LiveMetadataRequestRecord}
    {answer : VerifierAnswer} (h : recordAnswer rt policy now r answer = .ok outcome) :
    Settles r outcome ∧ outcome.attemptCount = r.attemptCount + 1 := by
  cases @recordAnswer_course rt policy now r answer with
  | settled after _ hresult hsettles hcounted =>
      rw [h] at hresult
      cases hresult
      exact ⟨hsettles, hcounted⟩
  | waiting after _ hresult hsettles hcounted =>
      obtain ⟨next, hnext, rfl⟩ := Checked.map_eq_ok.mp (hresult.symm.trans h)
      exact ⟨hsettles next (nextCheckAt_ne_empty hnext), hcounted next⟩

/-- An answer can be stored unless it asks for another attempt whose check time is
not representable. -/
theorem recordAnswer_ok_iff {now expiry : Instant} {r : LiveMetadataRequestRecord}
    {answer : VerifierAnswer} (hexpiry : expiryOf policy r = .ok expiry) :
    (∃ outcome, recordAnswer rt policy now r answer = .ok outcome) ↔
      (asksRetry policy (r.attemptCount + 1) answer = true →
        Representable rt policy now (r.attemptCount + 1) r.requestRef) := by
  cases @recordAnswer_course rt policy now r answer with
  | settled after hno hresult _ _ =>
      refine iff_of_true ⟨after, hresult⟩ ?_
      intro h
      rw [hno] at h
      cases h
  | waiting after hretry hresult _ _ =>
      rw [hresult, ← nextCheckAt_ok_iff hexpiry]
      constructor
      · rintro ⟨outcome, h⟩ -
        cases hnext : nextCheckAt rt policy now (r.attemptCount + 1) r with
        | error fault => rw [hnext] at h; cases h
        | ok next => exact ⟨next, rfl⟩
      · intro h
        obtain ⟨next, hnext⟩ := h hretry
        exact ⟨after next, by rw [hnext]; rfl⟩

end Answers

/-! ## The courses of one verification -/

/-- The state file after a history: the content of its last replacement. -/
def fileAfter (file : StateFile) : List VerifyEvent → StateFile
  | [] => file
  | .replaced _ next :: rest => fileAfter next rest
  | .called .. :: rest => fileAfter file rest

theorem fileAfter_append (file : StateFile) (events more : List VerifyEvent) :
    fileAfter file (events ++ more) = fileAfter (fileAfter file events) more := by
  induction events generalizing file with
  | nil => rfl
  | cons event rest ih =>
      cases event with
      | replaced record next => exact ih next
      | called record now answer => exact ih file

/-- The event of an upsert on a file that lists `rs`. -/
def replacement (record : LiveMetadataRequestRecord) (rs : List LiveMetadataRequestRecord) :
    VerifyEvent :=
  .replaced record (writeState (insertRecord record rs))

section Courses

variable (rt : Runtime) (policy : VerifyBackoffPolicy) (verifier : Verifier) (now : Instant)

/-- One verification of `r` after the history `past`, on a file that lists `rs`:
what it adds to the history, and what the file lists afterwards. -/
inductive Attempt (past : List VerifyEvent) (rs : List LiveMetadataRequestRecord)
    (r : LiveMetadataRequestRecord) : List VerifyEvent → List LiveMetadataRequestRecord →
      Except StateFault LiveMetadataRequestRecord → Prop
  | unreadable {fault : StateFault} (expiry : isExpired policy now r = .error fault) :
      Attempt past rs r [] rs (.error fault)
  | expired (expiry : isExpired policy now r = .ok true) :
      Attempt past rs r [replacement (markExpired now r) rs] (insertRecord (markExpired now r) rs)
        (.ok (markExpired now r))
  | exhausted (expiry : isExpired policy now r = .ok false)
      (attempts : policy.maxAttempts ≤ r.attemptCount) :
      Attempt past rs r [replacement (markExhausted now r) rs]
        (insertRecord (markExhausted now r) rs) (.ok (markExhausted now r))
  | answered {answer : VerifierAnswer} {outcome : LiveMetadataRequestRecord}
      (expiry : isExpired policy now r = .ok false) (attempts : r.attemptCount < policy.maxAttempts)
      (asked : answer = verifier (past ++ [replacement (markInProgress now r) rs]) r.idSolicitud)
      (result : recordAnswer rt policy now (markInProgress now r) answer = .ok outcome) :
      Attempt past rs r
        [replacement (markInProgress now r) rs, .called r now answer,
          replacement outcome (insertRecord (markInProgress now r) rs)]
        (insertRecord outcome (insertRecord (markInProgress now r) rs)) (.ok outcome)
  | unscheduled {answer : VerifierAnswer} {fault : StateFault}
      (expiry : isExpired policy now r = .ok false) (attempts : r.attemptCount < policy.maxAttempts)
      (asked : answer = verifier (past ++ [replacement (markInProgress now r) rs]) r.idSolicitud)
      (result : recordAnswer rt policy now (markInProgress now r) answer = .error fault) :
      Attempt past rs r [replacement (markInProgress now r) rs, .called r now answer]
        (insertRecord (markInProgress now r) rs) (.error fault)

/-- Verifications one after the other, up to the first fault. -/
inductive Batch : List VerifyEvent → List LiveMetadataRequestRecord →
    List LiveMetadataRequestRecord → List VerifyEvent → List LiveMetadataRequestRecord → Prop
  | done {past : List VerifyEvent} {rs : List LiveMetadataRequestRecord} : Batch past rs [] [] rs
  | next {past events more : List VerifyEvent} {rs rs' rs'' rest : List LiveMetadataRequestRecord}
      {r after : LiveMetadataRequestRecord}
      (first : Attempt rt policy verifier now past rs r events rs' (.ok after))
      (others : Batch (past ++ events) rs' rest more rs'') :
      Batch past rs (r :: rest) (events ++ more) rs''
  | abort {past events : List VerifyEvent} {rs rs' rest : List LiveMetadataRequestRecord}
      {r : LiveMetadataRequestRecord} {fault : StateFault}
      (first : Attempt rt policy verifier now past rs r events rs' (.error fault)) :
      Batch past rs (r :: rest) events rs'

end Courses

/-! ## The program takes these courses -/

section Inversion

variable {rt : Runtime} {policy : VerifyBackoffPolicy} {verifier : Verifier} {now : Instant}

/-- The world reached by adding `events` to the history of `w`. -/
def VerifyWorld.extend (w : VerifyWorld) (events : List VerifyEvent) : VerifyWorld where
  file := fileAfter w.file events
  trace := w.trace ++ events

theorem extend_nil (w : VerifyWorld) : w.extend [] = w := by
  simp [VerifyWorld.extend, fileAfter]

theorem extend_append (w : VerifyWorld) (events more : List VerifyEvent) :
    w.extend (events ++ more) = (w.extend events).extend more := by
  simp [VerifyWorld.extend, fileAfter_append]

theorem exec_upsert {w : VerifyWorld} {rs : List LiveMetadataRequestRecord}
    {r : LiveMetadataRequestRecord} (h : listLive w.file = .ok rs) :
    (upsert r).exec w = (.ok (), w.extend [replacement r rs]) := by
  rw [upsert, Prog.exec_bind_ok (Prog.exec_get w), upsertLive_ok h,
    Prog.exec_bind_ok (Prog.exec_ofExcept _ w)]
  rfl

theorem exec_store {w : VerifyWorld} {rs : List LiveMetadataRequestRecord}
    {r : LiveMetadataRequestRecord} (h : listLive w.file = .ok rs) :
    (store r).exec w = (.ok r, w.extend [replacement r rs]) := by
  rw [store, Prog.exec_bind_ok (exec_upsert h)]
  rfl

theorem exec_askVerifier (w : VerifyWorld) (r : LiveMetadataRequestRecord) :
    (askVerifier verifier now r).exec w =
      (.ok (verifier w.trace r.idSolicitud),
        w.extend [.called r now (verifier w.trace r.idSolicitud)]) := by
  rw [askVerifier, Prog.exec_bind_ok (Prog.exec_get w)]
  rfl

/-- The file lists what an attempt says it lists, and stays normal. -/
theorem listLive_extend {w : VerifyWorld} {rs : List LiveMetadataRequestRecord}
    {r : LiveMetadataRequestRecord} (h : listLive w.file = .ok rs) (hn : Normal r) :
    listLive (w.extend [replacement r rs]).file = .ok (insertRecord r rs) :=
  listLive_upsert h hn

/-- Inversion of the verification of a request that is not expired and has attempts
left. -/
theorem called_attempt {w : VerifyWorld} {rs : List LiveMetadataRequestRecord}
    {r : LiveMetadataRequestRecord} (h : listLive w.file = .ok rs) (hn : Normal r)
    (hexpiry : isExpired policy now r = .ok false) (hattempts : r.attemptCount < policy.maxAttempts) :
    ∃ events rs' result, Attempt rt policy verifier now w.trace rs r events rs' result ∧
      (verifyOne rt policy verifier now r).exec w = (result, w.extend events) ∧
      listLive (w.extend events).file = .ok rs' := by
  have hmarked := @normal_markInProgress now _ hn
  have hfirst := listLive_extend h hmarked
  obtain ⟨answer, hanswer⟩ : ∃ answer, answer =
      verifier (w.extend [replacement (markInProgress now r) rs]).trace r.idSolicitud := ⟨_, rfl⟩
  have hasked := @exec_askVerifier verifier now (w.extend [replacement (markInProgress now r) rs]) r
  rw [← hanswer, ← extend_append] at hasked
  have hsecond : listLive (w.extend ([replacement (markInProgress now r) rs] ++
      [.called r now answer])).file = .ok (insertRecord (markInProgress now r) rs) := by
    rw [extend_append]
    exact hfirst
  rw [verifyOne, hexpiry, Prog.exec_bind_ok (Prog.exec_ofExcept _ w), if_neg (by simp),
    if_neg (Int.not_le.mpr hattempts), Prog.exec_bind_ok (exec_upsert h),
    Prog.exec_bind_ok hasked, Prog.exec_bind, Prog.exec_ofExcept]
  cases hres : recordAnswer rt policy now (markInProgress now r) answer with
  | error fault =>
      exact ⟨_, _, _, .unscheduled hexpiry hattempts hanswer hres, rfl, hsecond⟩
  | ok outcome =>
      have hnormal := (recordAnswer_settles hres).1.normal hmarked
      have hstored := exec_store (r := outcome) hsecond
      have hthird := listLive_extend hsecond hnormal
      rw [← extend_append] at hstored hthird
      exact ⟨_, _, _, .answered hexpiry hattempts hanswer hres, hstored, hthird⟩

/-- Inversion of one verification. -/
theorem verifyOne_attempt {w : VerifyWorld} {rs : List LiveMetadataRequestRecord}
    {r : LiveMetadataRequestRecord} (h : listLive w.file = .ok rs) (hn : Normal r) :
    ∃ events rs' result, Attempt rt policy verifier now w.trace rs r events rs' result ∧
      (verifyOne rt policy verifier now r).exec w = (result, w.extend events) ∧
      listLive (w.extend events).file = .ok rs' := by
  cases hexpiry : isExpired policy now r with
  | error fault =>
      refine ⟨[], rs, .error fault, .unreadable hexpiry, ?_, ?_⟩
      · rw [verifyOne, hexpiry, Prog.exec_bind_error (Prog.exec_ofExcept _ w), extend_nil]
      · rw [extend_nil]
        exact h
  | ok expired =>
      cases expired with
      | true =>
          refine ⟨_, _, _, .expired hexpiry, ?_, listLive_extend h ?_⟩
          · rw [verifyOne, hexpiry, Prog.exec_bind_ok (Prog.exec_ofExcept _ w), if_pos rfl,
              exec_store h]
          · exact (settles_markExpired now r).normal hn
      | false =>
          by_cases hmax : policy.maxAttempts ≤ r.attemptCount
          · refine ⟨_, _, _, .exhausted hexpiry hmax, ?_, listLive_extend h ?_⟩
            · rw [verifyOne, hexpiry, Prog.exec_bind_ok (Prog.exec_ofExcept _ w),
                if_neg (by simp), if_pos hmax, exec_store h]
            · exact (settles_markExhausted now r).normal hn
          · exact called_attempt h hn hexpiry (Int.not_le.mp hmax)

/-- The loop over the selected records is a batch. -/
theorem collect_batch {todo : List LiveMetadataRequestRecord} (hn : ∀ r ∈ todo, Normal r)
    {w : VerifyWorld} {rs : List LiveMetadataRequestRecord} (h : listLive w.file = .ok rs) :
    ∃ events rs', Batch rt policy verifier now w.trace rs todo events rs' ∧
      ((Prog.collect todo (verifyOne rt policy verifier now)).exec w).2 = w.extend events ∧
      listLive (w.extend events).file = .ok rs' := by
  induction todo generalizing w rs with
  | nil =>
      refine ⟨[], rs, .done, ?_, ?_⟩
      · rw [extend_nil]
        rfl
      · rw [extend_nil]
        exact h
  | cons r rest ih =>
      obtain ⟨events, rs', result, hattempt, hexec, hlist⟩ :=
        @verifyOne_attempt rt policy verifier now _ _ _ h (hn r List.mem_cons_self)
      cases result with
      | error fault =>
          refine ⟨events, rs', .abort hattempt, ?_, hlist⟩
          rw [Prog.collect_cons, Prog.exec_bind_error hexec]
      | ok after =>
          obtain ⟨more, rs'', hbatch, hloop, hlast⟩ :=
            ih (fun s hs => hn s (List.mem_cons_of_mem r hs)) hlist
          refine ⟨events ++ more, rs'', .next hattempt hbatch, ?_, ?_⟩
          · rw [Prog.collect_cons, Prog.exec_bind_ok hexec, extend_append, Prog.exec_bind]
            rw [← hloop]
            rcases (Prog.collect rest (verifyOne rt policy verifier now)).exec (w.extend events)
              with ⟨_ | _, t⟩ <;> rfl
          · rw [extend_append]
            exact hlast

end Inversion

/-! ## One run -/

section Run

variable {rt : Runtime} {policy : VerifyBackoffPolicy}

/-- The due records are those accepted by the due test, rearranged. -/
theorem dueRecords_perm {records due : List LiveMetadataRequestRecord} {now : Instant}
    (h : dueRecords records now = .ok due) :
    due.Perm (records.filter (Checked.accepts (isDueRecord now))) := by
  obtain ⟨kept, hkept, h⟩ := Checked.bind_eq_ok.mp h
  rw [← Checked.pure_eq_ok.mp h, ← Checked.filter_eq_ok hkept]
  exact List.perm_insertionSort _ _

/-- A due record is pending, and its check time has come. -/
theorem isDueRecord_true {now : Instant} {r : LiveMetadataRequestRecord}
    (h : isDueRecord now r = .ok true) : r.status ∈ PENDING_VERIFY_STATUSES ∧
      ∃ next, parseStateDatetime r.nextCheckAt = .ok next ∧ next ≤ now := by
  by_cases hp : r.status ∈ PENDING_VERIFY_STATUSES
  · rw [isDueRecord, if_pos hp, isDue] at h
    by_cases hblank : r.nextCheckAt = ""
    · rw [if_pos hblank] at h
      cases h
    · rw [if_neg hblank] at h
      obtain ⟨next, hnext, h⟩ := Checked.bind_eq_ok.mp h
      exact ⟨hp, next, hnext, of_decide_eq_true (Checked.pure_eq_ok.mp h)⟩
  · rw [isDueRecord, if_neg hp] at h
    cases h

theorem candidates_sublist (args : VerifyDueArgs) (records : List LiveMetadataRequestRecord) :
    (candidates args records).Sublist records := by
  unfold candidates
  cases args.requestRef with
  | none => exact List.filter_sublist
  | some ref => exact List.filter_sublist.trans List.filter_sublist

/-- The records that a run verifies, given what the file lists. -/
def Selected (args : VerifyDueArgs) (now : Instant) (rs todo : List LiveMetadataRequestRecord) :
    Prop :=
  ∃ due, dueRecords (candidates args rs) now = .ok due ∧ todo = Text.sliceTo args.limit due

theorem Selected.mem {args : VerifyDueArgs} {now : Instant}
    {rs todo : List LiveMetadataRequestRecord} (h : Selected args now rs todo)
    {r : LiveMetadataRequestRecord} (hr : r ∈ todo) : r ∈ rs ∧ isDueRecord now r = .ok true := by
  obtain ⟨due, hdue, rfl⟩ := h
  have hmem := (dueRecords_perm hdue).subset ((Text.sliceTo_sublist args.limit due).subset hr)
  obtain ⟨hcand, haccept⟩ := List.mem_filter.mp hmem
  exact ⟨(candidates_sublist args rs).subset hcand, Checked.accepts_iff.mp haccept⟩

/-- The only record under a reference is selected at most once. -/
theorem Selected.sole {args : VerifyDueArgs} {now : Instant}
    {rs todo : List LiveMetadataRequestRecord} (h : Selected args now rs todo) {ref : String}
    {r : LiveMetadataRequestRecord} (hr : Keyed.Sole (·.requestRef) ref r rs) :
    todo.filter (fun s => s.requestRef = ref) = [] ∨
      todo.filter (fun s => s.requestRef = ref) = [r] := by
  obtain ⟨due, hdue, rfl⟩ := h
  have hsub : ((Text.sliceTo args.limit due).filter fun s => s.requestRef = ref).Subperm
      (rs.filter fun s => s.requestRef = ref) := by
    refine ((Text.sliceTo_sublist args.limit due).filter _).subperm.trans ?_
    refine ((dueRecords_perm hdue).filter _).subperm.trans ?_
    exact ((List.filter_sublist.trans (candidates_sublist args rs)).filter _).subperm
  rw [hr] at hsub
  exact List.subperm_singleton_iff.mp hsub

/-- A run leaves the world alone, or verifies the records it selected. -/
theorem runVerifyDue_cases (args : VerifyDueArgs) (w : VerifyWorld) :
    ((runVerifyDue rt policy args).exec w).2 = w ∨
    ∃ now rs todo events rs', normalizeDt args.now = .ok now ∧ args.dryRun = false ∧
      listLive w.file = .ok rs ∧ Selected args now rs todo ∧
      Batch rt policy args.verifier now w.trace rs todo events rs' ∧
      ((runVerifyDue rt policy args).exec w).2 = w.extend events ∧
      listLive (w.extend events).file = .ok rs' := by
  rw [runVerifyDue, Prog.exec_bind_ok (Prog.exec_get w)]
  cases hsel : selection args w.file with
  | error fault =>
      left
      rw [Prog.exec_bind_error (Prog.exec_ofExcept _ w)]
  | ok sel =>
      rw [Prog.exec_bind_ok (Prog.exec_ofExcept _ w)]
      cases hdry : args.dryRun with
      | true =>
          left
          rw [if_pos rfl, Prog.exec_ofExcept]
      | false =>
          right
          obtain ⟨current, hnow, hsel⟩ := Checked.bind_eq_ok.mp hsel
          obtain ⟨listed, hlist, hsel⟩ := Checked.bind_eq_ok.mp hsel
          obtain ⟨due, hdue, hsel⟩ := Checked.bind_eq_ok.mp hsel
          have hparts := Checked.pure_eq_ok.mp hsel
          subst hparts
          have hselected : Selected args current listed (Text.sliceTo args.limit due) :=
            ⟨due, hdue, rfl⟩
          obtain ⟨events, rs', hbatch, hloop, hlast⟩ :=
            @collect_batch rt policy args.verifier current _
                (fun r hr => listLive_normal hlist r (hselected.mem hr).1) _ _ hlist
          refine ⟨current, listed, _, events, rs', hnow, rfl, hlist, hselected, hbatch, ?_, hlast⟩
          -- the report that follows the loop only reads
          rw [if_neg (by simp), ← hloop, Prog.exec_bind]
          dsimp only
          rcases (Prog.collect (Text.sliceTo args.limit due)
              (verifyOne rt policy args.verifier current)).exec w with ⟨fault | processed, t⟩
          · rfl
          · rw [Prog.follow_ok, Prog.exec_bind_ok (Prog.exec_get t), Prog.exec_ofExcept]

end Run

end AsyncVerify

end CfdiVault
