import CfdiVault.AsyncVerifyAttempts

/-!
# State over code, code over state

`classify_sat_outcome` selects the action of a verification from its state whenever there is
one, and from the code otherwise.  `_record_result` looks at the code first, right behind the
finished action: some codes close the request as one without data, whatever its state.  So a
request that SAT is still processing is given up when it carries such a code, and a malformed
request that ended in an error is recorded as one without data (`neverAbandoned_iff`).
-/

namespace CfdiVault

open LiveRequestState

namespace AsyncVerify

/-- The codes of a malformed request. -/
def MALFORMED_CODES : List String := ["301", "302"]

/-- The action of the result is the one that its code and state select. -/
def Classified (result : SatVerificationResult) : Prop :=
  result.action = (classifySatOutcome .verify (some result.satCode) (some result.state)).action

/-- SAT has not come to an end with the request. -/
def StillProcessing (result : SatVerificationResult) : Prop :=
  result.state = .accepted ∨ result.state = .inProcess

/-- A request that SAT is still processing keeps waiting while it has attempts left, and a
malformed one is not recorded as one without data. -/
structure NeverAbandoned (rt : Runtime) (policy : VerifyBackoffPolicy) (now : Instant)
    (record : LiveMetadataRequestRecord) (result : SatVerificationResult) : Prop where
  waits : StillProcessing result → record.attemptCount + 1 < policy.maxAttempts →
    ∃ after, recordResult rt policy now record result = .ok after ∧
      after.status ∈ PENDING_VERIFY_STATUSES ∧ after.nextCheckAt ≠ ""
  malformed : result.action = .permanentFailure → Text.strip result.satCode ∈ MALFORMED_CODES →
    ∀ after, recordResult rt policy now record result = .ok after → after.status ≠ VERIFY_NO_DATA

section Outcome

variable {rt : Runtime} {policy : VerifyBackoffPolicy} {now expiry : Instant}
variable {record : LiveMetadataRequestRecord} {result : SatVerificationResult}

/-- A code without data closes every request that is not finished. -/
theorem recordResult_noData (haction : result.action ≠ .finished) (hdata : isNoData result = true) :
    recordResult rt policy now record result =
      .ok { withResult now record result with status := VERIFY_NO_DATA, nextCheckAt := "" } := by
  rw [recordResult]
  dsimp only
  rw [if_neg haction, if_pos hdata]

/-- A request in process whose code does not close it waits for its next check. -/
theorem recordResult_processing (haction : result.action = .accepted ∨ result.action = .inProgress)
    (hstate : StillProcessing result) (hdata : isNoData result = false)
    (hleft : record.attemptCount + 1 < policy.maxAttempts) :
    recordResult rt policy now record result =
      (nextCheckAt rt policy now (record.attemptCount + 1) (withResult now record result)).map
        fun next => { withResult now record result with
          status := VERIFY_IN_PROGRESS_SAT
          nextCheckAt := next } := by
  have hopen : ¬ (result.action = .expired ∨ result.state = .expired) ∧ result.state ≠ .rejected := by
    rcases haction with h | h <;> rcases hstate with h' | h' <;> simp [h, h']
  have hcounted : result.action ∈ [SatOutcomeAction.accepted, .inProgress, .retry, .duplicate] := by
    rcases haction with h | h <;> simp [h]
  have hprogress : result.action ∈ [SatOutcomeAction.accepted, .inProgress] := by
    rcases haction with h | h <;> simp [h]
  have hother : result.action ≠ .finished ∧ result.action ≠ .unauthorized ∧
      result.action ≠ .permanentFailure := by
    rcases haction with h | h <;> simp [h]
  have hbudget : ¬ policy.maxAttempts ≤ (withResult now record result).attemptCount :=
    Int.not_le.mpr hleft
  rw [recordResult]
  dsimp only
  rw [if_neg hother.1, if_neg (Bool.eq_false_iff.mp hdata), if_neg hopen.1, if_neg hopen.2,
    if_neg hother.2.1, if_neg hother.2.2, if_pos hcounted, if_neg hbudget, if_pos hprogress]
  rfl

/-- The states by which the classifier selects a permanent failure. -/
theorem classified_permanent (h : Classified result) :
    result.action = .permanentFailure ↔ result.state = .error ∨ result.state = .rejected := by
  unfold Classified classifySatOutcome at h
  rw [h]
  cases result.state <;> simp [classifyState]

theorem classified_processing (h : Classified result) (hstate : StillProcessing result) :
    result.action = .accepted ∨ result.action = .inProgress := by
  unfold Classified classifySatOutcome at h
  rw [h]
  rcases hstate with hstate | hstate <;> simp [hstate, classifyState]

/-- The codes of a malformed request are codes without data. -/
theorem malformed_noData (h : Text.strip result.satCode ∈ MALFORMED_CODES) : isNoData result = true := by
  have hall : MALFORMED_CODES.all (fun code => Text.lower code ∈ NO_DATA_CODES) = true := by
    decide +kernel
  rw [isNoData]
  exact List.all_eq_true.mp hall _ h

/-- Requests are never abandoned exactly where no code without data comes with a request that
SAT is still processing, or a malformed one with an error or a rejection, and the next check
time of a waiting request can be represented. -/
theorem neverAbandoned_iff (hclassified : Classified result)
    (hexpiry : isExpired policy now record = .ok false) :
    NeverAbandoned rt policy now record result ↔
      (StillProcessing result → record.attemptCount + 1 < policy.maxAttempts →
        isNoData result = false ∧ Representable rt policy now (record.attemptCount + 1) record.requestRef) ∧
      ¬ ((result.state = .error ∨ result.state = .rejected) ∧
        Text.strip result.satCode ∈ MALFORMED_CODES) := by
  obtain ⟨expiry, hreadable, -⟩ := Checked.bind_eq_ok.mp hexpiry
  -- the expiry of a record is not changed by a result
  have hnext : (∃ text, nextCheckAt rt policy now (record.attemptCount + 1)
      (withResult now record result) = .ok text) ↔
        Representable rt policy now (record.attemptCount + 1) record.requestRef :=
    nextCheckAt_ok_iff (r := withResult now record result) hreadable
  have hclosed : ∀ after, result.action ≠ .finished → isNoData result = true →
      recordResult rt policy now record result = .ok after → after.status = VERIFY_NO_DATA := by
    intro after hfinished hdata hafter
    rw [recordResult_noData hfinished hdata] at hafter
    cases hafter
    rfl
  have hnodata : VERIFY_NO_DATA ∉ PENDING_VERIFY_STATUSES := by decide +kernel
  constructor
  · intro h
    refine ⟨fun hstate hleft => ?_, ?_⟩
    · obtain ⟨after, hafter, hpending, -⟩ := h.waits hstate hleft
      have haction := classified_processing hclassified hstate
      have hfinished : result.action ≠ .finished := by
        rcases haction with h | h <;> simp [h]
      have hdata : isNoData result = false := by
        by_contra hdata
        rw [hclosed after hfinished (by simpa using hdata) hafter] at hpending
        exact hnodata hpending
      refine ⟨hdata, hnext.mp ?_⟩
      rw [recordResult_processing haction hstate hdata hleft] at hafter
      cases hcheck : nextCheckAt rt policy now (record.attemptCount + 1)
          (withResult now record result) with
      | error fault =>
          rw [hcheck] at hafter
          cases hafter
      | ok text => exact ⟨text, rfl⟩
    · rintro ⟨hstate, hcode⟩
      have hpermanent := (classified_permanent hclassified).mpr hstate
      have hfinished : result.action ≠ .finished := by simp [hpermanent]
      have hrecorded := @recordResult_noData rt policy now record _ hfinished (malformed_noData hcode)
      exact h.malformed hpermanent hcode _ hrecorded rfl
  · rintro ⟨hwaits, hmalformed⟩
    refine ⟨fun hstate hleft => ?_, fun hpermanent hcode => ?_⟩
    · obtain ⟨hdata, hrepresentable⟩ := hwaits hstate hleft
      obtain ⟨text, htext⟩ := hnext.mpr hrepresentable
      rw [recordResult_processing (classified_processing hclassified hstate) hstate hdata hleft, htext]
      refine ⟨_, rfl, ?_, nextCheckAt_ne_empty htext⟩
      show VERIFY_IN_PROGRESS_SAT ∈ PENDING_VERIFY_STATUSES
      decide +kernel
    · exact absurd ⟨(classified_permanent hclassified).mp hpermanent, hcode⟩ hmalformed

end Outcome

/-! ## A request that is given up while SAT processes it -/

section Sample

/-- Ten minutes after the sample request was accepted. -/
def sampleNow : Instant := 63842386200000000

/-- SAT is still processing the request and reports no information yet. -/
def noInformationYet : SatVerificationResult where
  requestId := "SAT-REQ-1"
  state := .inProcess
  satCode := "5004"
  message := ""

theorem sampleRecord_open : isExpired {} sampleNow sampleRecord = .ok false := by decide +kernel

theorem neverAbandoned_iff_sample :
    NeverAbandoned sampleRuntime {} sampleNow sampleRecord noInformationYet ↔
      (StillProcessing noInformationYet → sampleRecord.attemptCount + 1 < 12 →
        isNoData noInformationYet = false ∧
          Representable sampleRuntime {} sampleNow (sampleRecord.attemptCount + 1) sampleRecord.requestRef) ∧
      ¬ ((noInformationYet.state = .error ∨ noInformationYet.state = .rejected) ∧
        Text.strip noInformationYet.satCode ∈ MALFORMED_CODES) :=
  neverAbandoned_iff rfl sampleRecord_open

/-- A request that SAT is still processing is recorded as one without data. -/
theorem processing_abandoned :
    ¬ ∀ rt policy now record result, Classified result → isExpired policy now record = .ok false →
      NeverAbandoned rt policy now record result := by
  intro h
  have hnever := h sampleRuntime {} sampleNow sampleRecord noInformationYet rfl
    sampleRecord_open
  obtain ⟨after, hafter, hpending, -⟩ := hnever.waits (.inr rfl) (by decide)
  rw [recordResult_noData (by decide) (by decide +kernel)] at hafter
  cases hafter
  exact absurd hpending (by decide +kernel)

end Sample

end AsyncVerify

end CfdiVault
