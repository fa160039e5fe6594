import CfdiVault.AsyncVerifyAttempts
import CfdiVault.BackfillPeriods
import CfdiVault.LiveStateUpdates
import Mathlib.Data.String.Basic

/-!
# Which request of a window a plan reports

The writer keeps the state file sorted, the greatest creation text first.  The plan looks a window
up in a table that is filled in the order of the file, and a later entry replaces an earlier one;
so of several requests of one window it reports the last of the file, the one with the least
creation text (`existingByCriteria_least`).

That is the latest request only if its text is least although its time is latest, which happens
only where texts and times disagree.  Where they agree, the plan reports the latest request exactly
if there is no other (`reportsLatest_iff`).
-/

namespace CfdiVault

open LiveRequestState SatBackfill

namespace BackfillLatest

/-! ## Files that upserts leave -/

/-- A file that is reached from an absent one by upserts. -/
inductive Reached : StateFile → Prop
  | absent : Reached .absent
  | upsert {file file' : StateFile} {record : LiveMetadataRequestRecord} (before : Reached file)
      (written : upsertLive record file = .ok file') : Reached file'

section Files

variable {rt : Runtime} {file file' : StateFile} {record : LiveMetadataRequestRecord}
variable {rs : List LiveMetadataRequestRecord}

/-- A persist is an upsert. -/
theorem Reached.persist {args : PersistArgs} (before : Reached file)
    (h : persistLive rt args file = .ok (record, file')) : Reached file' := by
  obtain ⟨-, rs, hlist, rfl⟩ := persistLive_ok.mp h
  exact .upsert before (upsertLive_ok hlist)

theorem sortByCreation_sorted : (sortByCreation rs).Pairwise fun a b => b.createdAt ≤ a.createdAt := by
  have htotal : Std.Total fun a b : LiveMetadataRequestRecord => b.createdAt ≤ a.createdAt :=
    ⟨fun a b => le_total b.createdAt a.createdAt⟩
  have htrans : IsTrans LiveMetadataRequestRecord fun a b => b.createdAt ≤ a.createdAt :=
    ⟨fun _ _ _ hab hbc => le_trans hbc hab⟩
  exact List.pairwise_insertionSort _ _

/-- A reached file lists every reference once, and the greatest creation text first. -/
theorem Reached.listed (h : Reached file) (hlist : listLive file = .ok rs) :
    (rs.map (·.requestRef)).Nodup ∧ rs.Pairwise fun a b => b.createdAt ≤ a.createdAt := by
  induction h generalizing rs with
  | absent =>
      obtain rfl := Except.ok.inj hlist
      exact ⟨List.nodup_nil, .nil⟩
  | @upsert file file' record before written ih =>
      cases hbefore : listLive file with
      | error fault =>
          rw [upsertLive_error hbefore] at written
          cases written
      | ok listed =>
          rw [upsertLive_ok hbefore] at written
          obtain rfl := Except.ok.inj written
          obtain ⟨hnodup, -⟩ := ih hbefore
          obtain ⟨r, hr⟩ := normalise_of_listed hlist (mem_insertRecord.mpr (.inl rfl))
          rw [listLive_insert (listLive_normal hbefore) hr] at hlist
          obtain rfl := Except.ok.inj hlist
          refine ⟨?_, sortByCreation_sorted⟩
          exact Keyed.nodup_upsert sortByCreation_perm hnodup

end Files

/-! ## The reported request -/

/-- The requests of a profile for one window. -/
def sharing (rs : List LiveMetadataRequestRecord) (profileId criteriaHash : String) :
    List LiveMetadataRequestRecord :=
  rs.filter fun r => r.profileId = profileId ∧ r.criteriaHash = criteriaHash

/-- `a` was not created after `b`. -/
def CreatedNotLater (a b : LiveMetadataRequestRecord) : Prop :=
  ∀ t u, parseStateDatetime a.createdAt = .ok t → parseStateDatetime b.createdAt = .ok u → t ≤ u

/-- `a` was created before `b`. -/
def CreatedBefore (a b : LiveMetadataRequestRecord) : Prop :=
  ∃ t u, parseStateDatetime a.createdAt = .ok t ∧ parseStateDatetime b.createdAt = .ok u ∧ t < u

/-- The window reports the latest of the requests. -/
def ReportsLatest (window : BackfillWindowPlan) (requests : List LiveMetadataRequestRecord) : Prop :=
  ∃ r ∈ requests, (∀ s ∈ requests, CreatedNotLater s r) ∧
    window.existingRequestRef = r.requestRef ∧ window.existingStatus = r.status

section Latest

variable {rt : Runtime} {args : PlanArgs} {file : StateFile} {plan : BackfillPlan}
variable {window : BackfillWindowPlan} {rs requests : List LiveMetadataRequestRecord}

/-- The last of a sorted list is least. -/
theorem getLast_least (hsome : requests ≠ [])
    (h : requests.Pairwise fun a b => b.createdAt ≤ a.createdAt) :
    ∀ s ∈ requests, (requests.getLast hsome).createdAt ≤ s.createdAt := by
  intro s hs
  rw [← List.dropLast_append_getLast hsome] at h hs
  rcases List.mem_append.mp hs with hfront | hlast
  · exact (List.pairwise_append.mp h).2.2 s hfront _ (List.mem_singleton_self _)
  · rw [List.mem_singleton.mp hlast]

/-- The window reports what the plan looks up under its hash. -/
theorem window_reports (hlist : listLive file = .ok rs) (hplan : buildBackfillPlan rt args file = .ok plan)
    (hwindow : window ∈ plan.windows) :
    window.existingRequestRef =
        ((existingByCriteria rs args.profileId window.criteriaHash).map (·.requestRef)).getD "" ∧
      window.existingStatus =
        ((existingByCriteria rs args.profileId window.criteriaHash).map (·.status)).getD "" := by
  obtain ⟨records, hlist', -, -, hwindows⟩ := buildBackfillPlan_ok hplan
  cases hlist.symm.trans hlist'
  obtain ⟨operation, index, period, hbuilt⟩ := hwindows window hwindow
  rw [hbuilt]
  exact ⟨rfl, rfl⟩

/-- The request looked up is the one with the least creation text. -/
theorem existingByCriteria_least {profileId criteriaHash : String} (hreached : Reached file)
    (hlist : listLive file = .ok rs) (hsome : sharing rs profileId criteriaHash ≠ []) :
    ∃ r ∈ sharing rs profileId criteriaHash, existingByCriteria rs profileId criteriaHash = some r ∧
      ∀ s ∈ sharing rs profileId criteriaHash, r.createdAt ≤ s.createdAt := by
  have hsorted := (hreached.listed hlist).2.filter fun r => r.profileId = profileId ∧ r.criteriaHash = criteriaHash
  exact ⟨_, List.getLast_mem hsome, List.getLast?_eq_some_getLast hsome, getLast_least hsome hsorted⟩

/-- The request looked up is the latest exactly if the one with the least creation text is. -/
theorem reportsLatest_least {last : LiveMetadataRequestRecord} (hlast : last ∈ requests)
    (hleast : ∀ s ∈ requests, last.createdAt ≤ s.createdAt)
    (href : window.existingRequestRef = last.requestRef) (hstatus : window.existingStatus = last.status)
    (hrefs : (requests.map (·.requestRef)).Nodup) (hdistinct : (requests.map (·.createdAt)).Nodup) :
    ReportsLatest window requests ↔ ∃ r ∈ requests, (∀ s ∈ requests, r.createdAt ≤ s.createdAt) ∧
      ∀ s ∈ requests, CreatedNotLater s r := by
  constructor
  · rintro ⟨r, hr, hlatest, href', -⟩
    have hsame : r = last := List.inj_on_of_nodup_map hrefs hr hlast (href'.symm.trans href)
    exact ⟨last, hlast, hleast, hsame ▸ hlatest⟩
  · rintro ⟨r, hr, hleast', hlatest⟩
    have htext : r.createdAt = last.createdAt := le_antisymm (hleast' last hlast) (hleast r hr)
    have hsame : r = last := List.inj_on_of_nodup_map hdistinct hr hlast htext
    exact ⟨last, hlast, hsame ▸ hlatest, href, hstatus⟩

/-- Where the texts are ordered as the times, the least text is the latest only alone. -/
theorem single_of_ordered (hdistinct : (requests.map (·.createdAt)).Nodup)
    (hordered : ∀ a ∈ requests, ∀ b ∈ requests, a.createdAt < b.createdAt → CreatedBefore a b) :
    (∃ r ∈ requests, (∀ s ∈ requests, r.createdAt ≤ s.createdAt) ∧
      ∀ s ∈ requests, CreatedNotLater s r) ↔ requests.length = 1 := by
  constructor
  · rintro ⟨r, hr, hleast, hlatest⟩
    have hall : ∀ s ∈ requests, s = r := by
      intro s hs
      by_contra hne
      have htexts : r.createdAt ≠ s.createdAt := fun hsame =>
        hne (List.inj_on_of_nodup_map hdistinct hs hr hsame.symm)
      obtain ⟨t, u, ht, hu, hlt⟩ := hordered r hr s hs (lt_of_le_of_ne (hleast s hs) htexts)
      exact absurd (hlatest s hs u t hu ht) (Instant.not_le.mpr hlt)
    have hreplicate := List.eq_replicate_of_mem hall
    have hnodup := hdistinct.of_map _
    rw [hreplicate, List.nodup_replicate] at hnodup
    have hpos := List.length_pos_of_mem hr
    omega
  · intro hone
    obtain ⟨r, rfl⟩ := List.length_eq_one_iff.mp hone
    refine ⟨r, List.mem_singleton_self r, fun s hs => ?_, fun s hs => ?_⟩
    · rw [List.mem_singleton.mp hs]
    · rw [List.mem_singleton.mp hs]
      intro t u ht hu
      cases ht.symm.trans hu
      exact Instant.le_refl _

/-- Of several requests of one window, created at different times, the plan reports the latest
exactly if the one with the least creation text is the latest; so it never does where texts and
times are ordered alike, unless there is only one. -/
theorem reportsLatest_iff (hreached : Reached file) (hlist : listLive file = .ok rs)
    (hplan : buildBackfillPlan rt args file = .ok plan) (hwindow : window ∈ plan.windows)
    (hrequests : requests = sharing rs args.profileId window.criteriaHash) (hsome : requests ≠ [])
    (hdistinct : (requests.map (·.createdAt)).Nodup) :
    (ReportsLatest window requests ↔ ∃ r ∈ requests, (∀ s ∈ requests, r.createdAt ≤ s.createdAt) ∧
      ∀ s ∈ requests, CreatedNotLater s r) ∧
    ((∀ a ∈ requests, ∀ b ∈ requests, a.createdAt < b.createdAt → CreatedBefore a b) →
      (ReportsLatest window requests ↔ requests.length = 1)) := by
  rw [hrequests] at hsome
  obtain ⟨last, hlast, hfound, hleast⟩ := existingByCriteria_least hreached hlist hsome
  obtain ⟨href, hstatus⟩ := window_reports hlist hplan hwindow
  rw [hfound] at href hstatus
  rw [← hrequests] at hlast hleast
  have hrefs : (requests.map (·.requestRef)).Nodup := by
    rw [hrequests]
    exact (hreached.listed hlist).1.sublist (List.filter_sublist.map _)
  have hiff := reportsLatest_least hlast hleast href hstatus hrefs hdistinct
  exact ⟨hiff, fun hordered => hiff.trans (single_of_ordered hdistinct hordered)⟩

end Latest

/-! ## A window that was submitted twice -/

section Sample

open AsyncVerify

/-- 7 January 2024. -/
def seventhDay : Date := ⟨738892, by decide, by decide⟩

/-- The first week of 2024, in one window. -/
def weekArgs : PlanArgs where
  profileId := "default"
  requesterRfc := "AAA010101AAA"
  startDate := newYear
  endDate := seventhDay
  direction := .received
  kind := .metadata

/-- The request of the first submission, which SAT let expire. -/
def firstSubmission : LiveMetadataRequestRecord :=
  { sampleRecord with requestRef := "req-1", status := VERIFY_EXPIRED }

/-- The request of the second submission, four days later. -/
def secondSubmission : LiveMetadataRequestRecord :=
  { sampleRecord with requestRef := "req-2", createdAt := "2024-02-05T12:00:00Z" }

/-- The state file after both submissions. -/
def resubmittedFile : StateFile := writeState (insertRecord secondSubmission [firstSubmission])

theorem reached_resubmitted : Reached resubmittedFile := by
  have hfirst : listLive (writeState (insertRecord firstSubmission [])) = .ok [firstSubmission] := by
    decide +kernel
  exact .upsert (.upsert .absent (upsertLive_ok rfl)) (upsertLive_ok hfirst)

theorem listLive_resubmitted : listLive resubmittedFile = .ok [secondSubmission, firstSubmission] := by
  decide +kernel

/-- The plan of the week has one window, which reports the first submission. -/
theorem resubmitted_plan : ∃ plan window, buildBackfillPlan sampleRuntime weekArgs resubmittedFile = .ok plan ∧
    window ∈ plan.windows ∧ window.criteriaHash = sampleRecord.criteriaHash ∧
      window.existingRequestRef = "req-1" := by
  have hwindows : (buildBackfillPlan sampleRuntime weekArgs resubmittedFile).map
      (fun plan => plan.windows.map fun w => (w.criteriaHash, w.existingRequestRef)) =
        .ok [(sampleRecord.criteriaHash, "req-1")] := by
    decide +kernel
  cases hplan : buildBackfillPlan sampleRuntime weekArgs resubmittedFile with
  | error fault =>
      rw [hplan] at hwindows
      cases hwindows
  | ok plan =>
      rw [hplan] at hwindows
      have hfields : plan.windows.map (fun w => (w.criteriaHash, w.existingRequestRef)) =
          [(sampleRecord.criteriaHash, "req-1")] := Except.ok.inj hwindows
      have hmem : (sampleRecord.criteriaHash, "req-1") ∈
          plan.windows.map fun w => (w.criteriaHash, w.existingRequestRef) := by
        rw [hfields]
        exact List.mem_singleton_self _
      obtain ⟨window, hwindow, hpair⟩ := List.mem_map.mp hmem
      exact ⟨plan, window, rfl, hwindow, congrArg Prod.fst hpair, congrArg Prod.snd hpair⟩

theorem sharing_resubmitted : sharing [secondSubmission, firstSubmission] weekArgs.profileId
    sampleRecord.criteriaHash = [secondSubmission, firstSubmission] := by
  decide +kernel

theorem distinct_resubmitted : ([secondSubmission, firstSubmission].map (·.createdAt)).Nodup := by
  decide +kernel

/-- Two submissions of one week. -/
theorem reportsLatest_iff_sample : ∃ window : BackfillWindowPlan,
    (ReportsLatest window [secondSubmission, firstSubmission] ↔
      ∃ r ∈ [secondSubmission, firstSubmission],
        (∀ s ∈ [secondSubmission, firstSubmission], r.createdAt ≤ s.createdAt) ∧
          ∀ s ∈ [secondSubmission, firstSubmission], CreatedNotLater s r) := by
  obtain ⟨plan, window, hplan, hwindow, hhash, -⟩ := resubmitted_plan
  refine ⟨window, (reportsLatest_iff reached_resubmitted listLive_resubmitted hplan hwindow ?_ (by simp)
    distinct_resubmitted).1⟩
  rw [hhash, sharing_resubmitted]

/-- The plan reports the submission that has expired. -/
theorem expired_reported :
    ¬ ∀ rt args file plan window rs, Reached file → listLive file = .ok rs →
      buildBackfillPlan rt args file = .ok plan → window ∈ plan.windows →
      2 ≤ (sharing rs args.profileId window.criteriaHash).length →
      ((sharing rs args.profileId window.criteriaHash).map (·.createdAt)).Nodup →
      ReportsLatest window (sharing rs args.profileId window.criteriaHash) := by
  intro h
  obtain ⟨plan, window, hplan, hwindow, hhash, hreported⟩ := resubmitted_plan
  have hlatest := h sampleRuntime weekArgs resubmittedFile plan window _ reached_resubmitted
    listLive_resubmitted hplan hwindow
  rw [hhash, sharing_resubmitted] at hlatest
  obtain ⟨r, hr, hall, href, -⟩ := hlatest (by decide) distinct_resubmitted
  rw [hreported] at href
  have hfirst : r = firstSubmission := by
    rcases List.mem_pair.mp hr with rfl | rfl
    · exact absurd href (by decide)
    · rfl
  have hsecond : parseStateDatetime secondSubmission.createdAt = .ok 63842731200000000 := by decide +kernel
  have hcreated : parseStateDatetime firstSubmission.createdAt = .ok 63842385600000000 := by decide +kernel
  have hle := hall secondSubmission (by simp) _ _ hsecond (hfirst ▸ hcreated)
  exact absurd hle (by decide)

end Sample

end BackfillLatest

end CfdiVault
