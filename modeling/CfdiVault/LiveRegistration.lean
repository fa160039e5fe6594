import CfdiVault.AsyncVerifyAttempts

/-!
# Registering a request again

The reference of a live request is derived from its profile, its query and its id at SAT, so a
request that is accepted a second time is stored under the reference of the first time.  The
upsert keeps one record of it (`persisted_again`), and that record is a fresh one: scheduled, with
no attempts and no packages.  What the scheduler or the download step had reached in the meantime
is kept exactly if there was nothing to keep (`persist_again_iff`).
-/

namespace CfdiVault

open LiveRequestState

namespace LiveRegistration

/-- `after` is as far as `before`: a terminal status stays, and so do the packages and the
attempts. -/
structure KeepsProgress (before after : LiveMetadataRequestRecord) : Prop where
  status : before.status ∈ TERMINAL_VERIFY_STATUSES → after.status = before.status
  packageIds : after.packageIds = before.packageIds
  attemptCount : after.attemptCount = before.attemptCount

section Again

variable {rt : Runtime} {args : PersistArgs} {file file' : StateFile}
variable {rs : List LiveMetadataRequestRecord} {r record : LiveMetadataRequestRecord}

/-- A persisted record has no packages yet. -/
theorem persistedRecord_packageIds (h : persistedRecord rt args = .ok record) : record.packageIds = [] := by
  rw [persistedRecord] at h
  split at h
  · cases h
  · iterate 5 obtain ⟨_, -, h⟩ := Checked.bind_eq_ok.mp h
    rw [← Checked.pure_eq_ok.mp h]

/-- The persisted record is the only one of its request. -/
theorem persisted_again (h : persistLive rt args file = .ok (record, file')) :
    StoredIn file' record.requestRef record := by
  obtain ⟨hrecord, rs, hlist, rfl⟩ := persistLive_ok.mp h
  obtain ⟨hnormal, -⟩ := persistedRecord_fresh hrecord
  exact ⟨_, listLive_upsert hlist hnormal, Keyed.sole_upsert_self sortByCreation_perm⟩

/-- A request that is persisted again keeps one record, and its progress exactly if it had made
none: no attempts, no packages, and no terminal status other than the one it is persisted with.
The other requests are not touched. -/
theorem persist_again_iff (hlist : listLive file = .ok rs) (_hr : r ∈ rs)
    (hsame : r.requestRef =
      requestRefOf rt args.profileId (args.query.criteriaHash rt) (Text.strip args.idSolicitud))
    (hpersist : persistLive rt args file = .ok (record, file')) :
    (StoredIn file' r.requestRef record ∧ ∃ rs', listLive file' = .ok rs' ∧
      ∀ s, s.requestRef ≠ r.requestRef → (s ∈ rs' ↔ s ∈ rs)) ∧
      ((∃ after, StoredIn file' r.requestRef after ∧ KeepsProgress r after) ↔
        r.attemptCount = 0 ∧ r.packageIds = [] ∧
          (r.status ∈ TERMINAL_VERIFY_STATUSES → r.status = normalizeStatus args.status)) := by
  obtain ⟨hrecord, rs₁, hlist₁, hfile⟩ := persistLive_ok.mp hpersist
  cases hlist.symm.trans hlist₁
  obtain ⟨hnormal, hcount, -⟩ := persistedRecord_fresh hrecord
  obtain ⟨href, hstatus, -⟩ := persistedRecord_fields hrecord
  have hids := persistedRecord_packageIds hrecord
  have hstored := persisted_again hpersist
  rw [← hsame] at href
  rw [href] at hstored
  have hothers : ∃ rs', listLive file' = .ok rs' ∧ ∀ s, s.requestRef ≠ r.requestRef → (s ∈ rs' ↔ s ∈ rs) := by
    rw [hfile]
    refine ⟨_, listLive_upsert hlist hnormal, fun s hne => ?_⟩
    rw [mem_insertRecord, href]
    constructor
    · rintro (rfl | ⟨hold, -⟩)
      · exact absurd href hne
      · exact hold
    · exact fun hold => .inr ⟨hold, hne⟩
  refine ⟨⟨hstored, hothers⟩, ?_⟩
  constructor
  · rintro ⟨after, hafter, hkeeps⟩
    obtain rfl := hafter.unique hstored
    refine ⟨hkeeps.attemptCount.symm.trans hcount, hkeeps.packageIds.symm.trans hids, fun hterminal => ?_⟩
    rw [← hkeeps.status hterminal, hstatus]
  · rintro ⟨hnone, hempty, hterminal⟩
    refine ⟨record, hstored, fun hclosed => ?_, hids.trans hempty.symm, hcount.trans hnone.symm⟩
    rw [hstatus, hterminal hclosed]

end Again

/-! ## A ready request that is scheduled again -/

section Sample

open AsyncVerify

/-- The sample request after three attempts, with a package to download. -/
def readyRecord : LiveMetadataRequestRecord :=
  { sampleRecord with
    status := PACKAGE_READY
    attemptCount := 3
    nextCheckAt := ""
    packageIds := ["PKG-1"] }

theorem listLive_ready : listLive (writeState [readyRecord]) = .ok [readyRecord] := by decide +kernel

theorem listLive_scheduled : listLive (writeState [sampleRecord]) = .ok [sampleRecord] := by decide +kernel

theorem sampleRecord_ref : sampleRecord.requestRef = requestRefOf sampleRuntime samplePersist.profileId
    (samplePersist.query.criteriaHash sampleRuntime) (Text.strip samplePersist.idSolicitud) := by
  decide +kernel

theorem persistLive_sample {file : StateFile} {rs : List LiveMetadataRequestRecord}
    (h : listLive file = .ok rs) :
    persistLive sampleRuntime samplePersist file =
      .ok (sampleRecord, writeState (insertRecord sampleRecord rs)) :=
  persistLive_ok.mpr ⟨sampleRecord_persisted, rs, h, rfl⟩

/-- The sample request persisted again before its first attempt. -/
theorem persist_again_iff_sample :
    (StoredIn (writeState (insertRecord sampleRecord [sampleRecord])) sampleRecord.requestRef sampleRecord ∧
      ∃ rs', listLive (writeState (insertRecord sampleRecord [sampleRecord])) = .ok rs' ∧
        ∀ s, s.requestRef ≠ sampleRecord.requestRef → (s ∈ rs' ↔ s ∈ [sampleRecord])) ∧
      ((∃ after, StoredIn (writeState (insertRecord sampleRecord [sampleRecord])) sampleRecord.requestRef
          after ∧ KeepsProgress sampleRecord after) ↔
        sampleRecord.attemptCount = 0 ∧ sampleRecord.packageIds = [] ∧
          (sampleRecord.status ∈ TERMINAL_VERIFY_STATUSES →
            sampleRecord.status = normalizeStatus samplePersist.status)) :=
  persist_again_iff listLive_scheduled (List.mem_singleton_self _) sampleRecord_ref
    (persistLive_sample listLive_scheduled)

/-- A request with a package to download is scheduled for verification again. -/
theorem ready_rescheduled :
    ¬ ∀ rt args file file' rs r record, listLive file = .ok rs → r ∈ rs →
      r.requestRef =
        requestRefOf rt args.profileId (args.query.criteriaHash rt) (Text.strip args.idSolicitud) →
      persistLive rt args file = .ok (record, file') →
      ∃ after, StoredIn file' r.requestRef after ∧ KeepsProgress r after := by
  intro h
  obtain ⟨after, hafter, hkeeps⟩ := h sampleRuntime samplePersist _ _ _ readyRecord sampleRecord listLive_ready
    (List.mem_singleton_self _) sampleRecord_ref (persistLive_sample listLive_ready)
  have hstored := persisted_again (persistLive_sample listLive_ready)
  obtain rfl := hafter.unique hstored
  exact absurd hkeeps.attemptCount (by decide)

end Sample

end LiveRegistration

end CfdiVault
