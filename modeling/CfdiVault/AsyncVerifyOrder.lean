import CfdiVault.AsyncVerifyCrash
import Mathlib.Data.String.Basic

/-!
# Text order and time order

A request is due when the instant of its `next_check_at` has come.  Which due request is
served first, and which check time a summary reports as the next one, is decided by comparing
the texts.  The two orders agree on most pairs of texts, but not on all: `12:05:00Z` is the
earlier instant and the greater text next to `12:05:00.500000Z`, and an offset shifts the
instant without moving the digits in front of it.

`servesInOrder_iff` says that nothing else goes wrong: the scheduler serves the longest overdue
requests first, and the summary reports the earliest check time, exactly if no two pending
check times are ordered one way as texts and the other way as instants.
-/

namespace CfdiVault

open LiveRequestState

namespace AsyncVerify

/-! ## The order of the due requests -/

section DueOrder

variable {a b c : LiveMetadataRequestRecord}

theorem dueBefore_total : dueBefore a b ∨ dueBefore b a := by
  unfold dueBefore
  rcases lt_trichotomy a.nextCheckAt b.nextCheckAt with h | h | h
  · exact .inl (.inl h)
  · rcases lt_trichotomy a.createdAt b.createdAt with h' | h' | h'
    · exact .inl (.inr ⟨h, .inl h'⟩)
    · rcases le_total a.requestRef b.requestRef with h'' | h''
      · exact .inl (.inr ⟨h, .inr ⟨h', h''⟩⟩)
      · exact .inr (.inr ⟨h.symm, .inr ⟨h'.symm, h''⟩⟩)
    · exact .inr (.inr ⟨h.symm, .inl h'⟩)
  · exact .inr (.inl h)

theorem dueBefore_trans (hab : dueBefore a b) (hbc : dueBefore b c) : dueBefore a c := by
  unfold dueBefore at *
  rcases hab with h | ⟨h, h' | ⟨h', h''⟩⟩ <;> rcases hbc with k | ⟨k, k' | ⟨k', k''⟩⟩
  · exact .inl (h.trans k)
  · exact .inl (k ▸ h)
  · exact .inl (k ▸ h)
  · exact .inl (h ▸ k)
  · exact .inr ⟨h.trans k, .inl (h'.trans k')⟩
  · exact .inr ⟨h.trans k, .inl (k' ▸ h')⟩
  · exact .inl (h ▸ k)
  · exact .inr ⟨h.trans k, .inl (h' ▸ k')⟩
  · exact .inr ⟨h.trans k, .inr ⟨h'.trans k', h''.trans k''⟩⟩

instance : Std.Total dueBefore := ⟨fun _ _ => dueBefore_total⟩

instance : IsTrans LiveMetadataRequestRecord dueBefore := ⟨fun _ _ _ => dueBefore_trans⟩

/-- The due requests come sorted. -/
theorem dueRecords_sorted {records due : List LiveMetadataRequestRecord} {now : Instant}
    (h : dueRecords records now = .ok due) : due.Pairwise dueBefore := by
  obtain ⟨kept, -, h⟩ := Checked.bind_eq_ok.mp h
  rw [← Checked.pure_eq_ok.mp h]
  exact List.pairwise_insertionSort _ _

end DueOrder

/-! ## Chronology -/

/-- The check time of `a` is not later than that of `b`. -/
def NotLater (a b : LiveMetadataRequestRecord) : Prop :=
  ∀ t u, parseStateDatetime a.nextCheckAt = .ok t → parseStateDatetime b.nextCheckAt = .ok u → t ≤ u

/-- Every pending request has a check time that can be read. -/
def Timed (records : List LiveMetadataRequestRecord) : Prop :=
  ∀ r ∈ records, r.status ∈ PENDING_VERIFY_STATUSES → ∃ t, parseStateDatetime r.nextCheckAt = .ok t

/-- No two pending check times are ordered one way as texts and the other way in time. -/
def TextOrdered (records : List LiveMetadataRequestRecord) : Prop :=
  ∀ a ∈ records, ∀ b ∈ records, a.status ∈ PENDING_VERIFY_STATUSES → b.status ∈ PENDING_VERIFY_STATUSES →
    a.nextCheckAt < b.nextCheckAt → NotLater a b

/-- `selected` are the first `limit` due requests in some chronological order of all of them. -/
def FirstOverdue (records : List LiveMetadataRequestRecord) (now : Instant) (limit : Nat)
    (selected : List LiveMetadataRequestRecord) : Prop :=
  ∃ order : List LiveMetadataRequestRecord,
    order.Perm (records.filter (Checked.accepts (isDueRecord now))) ∧ order.Pairwise NotLater ∧
      selected = order.take limit

/-- `text` is the earliest pending check time, and empty if there is none. -/
def EarliestCheck (records : List LiveMetadataRequestRecord) (text : String) : Prop :=
  (∃ r ∈ records, r.status ∈ PENDING_VERIFY_STATUSES ∧ text = r.nextCheckAt ∧
    ∀ s ∈ records, s.status ∈ PENDING_VERIFY_STATUSES → NotLater r s) ∨
  (text = "" ∧ ∀ s ∈ records, s.status ∉ PENDING_VERIFY_STATUSES)

/-- Whatever the time and the limit of a run like `args`, it selects the longest overdue requests
first, and the summary of what it looks at reports the earliest check time. -/
structure ServesInOrder (args : VerifyDueArgs) (file : StateFile) : Prop where
  selects : ∀ run : VerifyDueArgs, run.profileId = args.profileId → run.requestRef = args.requestRef →
    0 ≤ run.limit → ∀ sel, selection run file = .ok sel →
      FirstOverdue sel.records sel.current run.limit.toNat (Text.sliceTo run.limit sel.due)
  reports : ∀ rs now summary, listLive file = .ok rs → summarize (candidates args rs) now = .ok summary →
    EarliestCheck (candidates args rs) summary.nextDueVerification

section Chronology

variable {records due : List LiveMetadataRequestRecord} {now : Instant}
variable {a b r : LiveMetadataRequestRecord}

theorem notLater_of_same (h : a.nextCheckAt = b.nextCheckAt) : NotLater a b := by
  intro t u ha hb
  rw [h] at ha
  cases ha.symm.trans hb
  exact Instant.le_refl _

theorem notLater_of_text (hordered : TextOrdered records) (ha : a ∈ records) (hb : b ∈ records)
    (hpa : a.status ∈ PENDING_VERIFY_STATUSES) (hpb : b.status ∈ PENDING_VERIFY_STATUSES)
    (h : a.nextCheckAt ≤ b.nextCheckAt) : NotLater a b := by
  rcases h.lt_or_eq with hlt | heq
  · exact hordered a ha b hb hpa hpb hlt
  · exact notLater_of_same heq

theorem nextCheckAt_le_of_dueBefore (h : dueBefore a b) : a.nextCheckAt ≤ b.nextCheckAt := by
  rcases h with h | ⟨h, -⟩
  · exact h.le
  · exact h.le

/-- A due request is a listed pending one. -/
theorem mem_due (h : dueRecords records now = .ok due) (hr : r ∈ due) :
    r ∈ records ∧ isDueRecord now r = .ok true := by
  obtain ⟨hmem, haccept⟩ := List.mem_filter.mp ((dueRecords_perm h).subset hr)
  exact ⟨hmem, Checked.accepts_iff.mp haccept⟩

/-- Where the texts are in order, so are the due requests. -/
theorem due_chronological (hordered : TextOrdered records) (h : dueRecords records now = .ok due) :
    due.Pairwise NotLater := by
  refine (dueRecords_sorted h).imp_of_mem fun {a b} ha hb hab => ?_
  obtain ⟨hma, hda⟩ := mem_due h ha
  obtain ⟨hmb, hdb⟩ := mem_due h hb
  exact notLater_of_text hordered hma hmb (isDueRecord_true hda).1 (isDueRecord_true hdb).1
    (nextCheckAt_le_of_dueBefore hab)

theorem isDueRecord_iff {t : Instant} (hpending : r.status ∈ PENDING_VERIFY_STATUSES)
    (ht : parseStateDatetime r.nextCheckAt = .ok t) : isDueRecord now r = .ok (decide (t ≤ now)) := by
  have hne : r.nextCheckAt ≠ "" := by
    intro hblank
    rw [hblank] at ht
    cases ht
  rw [isDueRecord, if_pos hpending, isDue, if_neg hne, ht]
  rfl

/-- Readable check times can be searched at any time. -/
theorem dueRecords_defined (htimed : Timed records) : ∃ due, dueRecords records now = .ok due := by
  obtain ⟨kept, hkept⟩ := @Checked.filter_defined _ _ (isDueRecord now) records fun r hr => by
    by_cases hpending : r.status ∈ PENDING_VERIFY_STATUSES
    · obtain ⟨t, ht⟩ := htimed r hr hpending
      exact ⟨_, isDueRecord_iff hpending ht⟩
    · exact ⟨false, if_neg hpending⟩
  rw [dueRecords, hkept]
  exact ⟨_, rfl⟩

/-- The smallest of the pending check times, as texts. -/
theorem summarize_next {summary : LiveMetadataRequestSummary} (htimed : Timed records)
    (h : summarize records now = .ok summary) :
    (∃ r ∈ records, r.status ∈ PENDING_VERIFY_STATUSES ∧ summary.nextDueVerification = r.nextCheckAt ∧
      ∀ s ∈ records, s.status ∈ PENDING_VERIFY_STATUSES → r.nextCheckAt ≤ s.nextCheckAt) ∨
    (summary.nextDueVerification = "" ∧ ∀ s ∈ records, s.status ∉ PENDING_VERIFY_STATUSES) := by
  unfold summarize at h
  dsimp only at h
  obtain ⟨due, -, h⟩ := Checked.bind_eq_ok.mp h
  obtain rfl := Checked.pure_eq_ok.mp h
  dsimp only
  obtain ⟨texts, htexts⟩ : ∃ texts, texts =
      ((records.filter fun r => r.status ∈ PENDING_VERIFY_STATUSES).map fun r => r.nextCheckAt).filter
        fun s => s ≠ "" := ⟨_, rfl⟩
  rw [← htexts]
  have hmem : ∀ text, text ∈ texts ↔
      ∃ r ∈ records, r.status ∈ PENDING_VERIFY_STATUSES ∧ text = r.nextCheckAt := by
    intro text
    rw [htexts]
    constructor
    · intro htext
      obtain ⟨htext, -⟩ := List.mem_filter.mp htext
      obtain ⟨r, hr, rfl⟩ := List.mem_map.mp htext
      obtain ⟨hr, hpending⟩ := List.mem_filter.mp hr
      exact ⟨r, hr, of_decide_eq_true hpending, rfl⟩
    · rintro ⟨r, hr, hpending, rfl⟩
      refine List.mem_filter.mpr ⟨List.mem_map_of_mem (List.mem_filter.mpr ⟨hr, decide_eq_true hpending⟩), ?_⟩
      obtain ⟨t, ht⟩ := htimed r hr hpending
      refine decide_eq_true fun hblank => ?_
      rw [hblank] at ht
      cases ht
  have hsorted := List.pairwise_insertionSort (fun a b : String => a ≤ b) texts
  have hsame : ∀ text, text ∈ texts.insertionSort (fun a b => a ≤ b) ↔ text ∈ texts :=
    fun text => List.mem_insertionSort _
  cases hcase : texts.insertionSort fun a b => a ≤ b with
  | nil =>
      refine .inr ⟨rfl, fun s hs hpending => ?_⟩
      have hlisted := (hsame _).mpr ((hmem s.nextCheckAt).mpr ⟨s, hs, hpending, rfl⟩)
      rw [hcase] at hlisted
      cases hlisted
  | cons first rest =>
      rw [hcase] at hsorted hsame
      obtain ⟨r, hr, hpending, hfirst⟩ := (hmem first).mp ((hsame first).mp List.mem_cons_self)
      refine .inl ⟨r, hr, hpending, hfirst, fun s hs hpending' => ?_⟩
      have hlisted := (hsame _).mpr ((hmem s.nextCheckAt).mpr ⟨s, hs, hpending', rfl⟩)
      rw [← hfirst]
      rcases List.mem_cons.mp hlisted with heq | hin
      · exact heq.ge
      · exact (List.pairwise_cons.mp hsorted).1 _ hin

end Chronology

/-! ## Service in order -/

section Service

variable {args : VerifyDueArgs} {file : StateFile} {rs : List LiveMetadataRequestRecord}

/-- What a run reads, from what the file lists. -/
theorem selection_ok {sel : Selection} (hlist : listLive file = .ok rs) (h : selection args file = .ok sel) :
    normalizeDt args.now = .ok sel.current ∧ sel.records = candidates args rs ∧
      dueRecords (candidates args rs) sel.current = .ok sel.due := by
  obtain ⟨current, hcurrent, h⟩ := Checked.bind_eq_ok.mp h
  obtain ⟨listed, hlisted, h⟩ := Checked.bind_eq_ok.mp h
  obtain ⟨due, hdue, h⟩ := Checked.bind_eq_ok.mp h
  obtain rfl := Checked.pure_eq_ok.mp h
  cases hlist.symm.trans hlisted
  exact ⟨hcurrent, rfl, hdue⟩

theorem candidates_congr {run : VerifyDueArgs} (hprofile : run.profileId = args.profileId)
    (href : run.requestRef = args.requestRef) : candidates run rs = candidates args rs := by
  unfold candidates
  rw [hprofile, href]

theorem sliceTo_of_nonneg {limit : Int} (h : 0 ≤ limit) (xs : List LiveMetadataRequestRecord) :
    Text.sliceTo limit xs = xs.take limit.toNat := by
  obtain ⟨n, rfl⟩ := Int.eq_ofNat_of_zero_le h
  rfl

/-- A run that takes every due request at the time when both of two are due shows their order. -/
theorem textOrdered_of_selects (hlist : listLive file = .ok rs) (htimed : Timed (candidates args rs))
    (h : ServesInOrder args file) : TextOrdered (candidates args rs) := by
  intro a ha b hb hpa hpb hlt t u ht hu
  by_contra hlater
  have hut : u ≤ t := Nat.le_of_lt (Nat.not_le.mp hlater)
  obtain ⟨due, hdue⟩ := @dueRecords_defined _ t htimed
  have hmem : ∀ {r : LiveMetadataRequestRecord} {v : Instant}, r ∈ candidates args rs →
      r.status ∈ PENDING_VERIFY_STATUSES → parseStateDatetime r.nextCheckAt = .ok v → v ≤ t → r ∈ due := by
    intro r v hr hpending hv hle
    refine (dueRecords_perm hdue).mem_iff.mpr (List.mem_filter.mpr ⟨hr, Checked.accepts_iff.mpr ?_⟩)
    rw [isDueRecord_iff hpending hv, decide_eq_true hle]
  obtain ⟨run, hrun⟩ : ∃ run : VerifyDueArgs, run = { args with limit := due.length, now := .utc t } :=
    ⟨_, rfl⟩
  have hlimit : run.limit = due.length := by rw [hrun]
  have hselection : selection run file = .ok ⟨t, candidates args rs, due⟩ := by
    have hnow : normalizeDt (.utc t) = .ok t := by
      rw [normalizeDt, DateTime.toInstant?_utc]
      rfl
    have hsame : candidates run rs = candidates args rs := by
      rw [hrun]
      rfl
    rw [selection, hrun, hnow, Checked.ok_bind, hlist, Checked.ok_bind, ← hrun, hsame, hdue]
    rfl
  obtain ⟨order, hperm, hchronological, htake⟩ :=
    h.selects run (by rw [hrun]) (by rw [hrun]) (by rw [hlimit]; exact Int.natCast_nonneg _) _ hselection
  dsimp only at hperm htake
  have hwhole : order.length = due.length := (hperm.trans (dueRecords_perm hdue).symm).length_eq
  have horder : due = order := by
    rw [hlimit, sliceTo_of_nonneg (Int.natCast_nonneg _), Int.toNat_natCast, List.take_length, ← hwhole,
      List.take_length] at htake
    exact htake
  -- `a` stands before `b`, because the due requests are sorted by their texts
  obtain ⟨i, hi, hia⟩ := List.mem_iff_getElem.mp (hmem ha hpa ht (Instant.le_refl _))
  obtain ⟨j, hj, hjb⟩ := List.mem_iff_getElem.mp (hmem hb hpb hu hut)
  have hij : i < j := by
    by_contra hnot
    rcases (Nat.not_lt.mp hnot).lt_or_eq with hji | hji
    · have hsorted := nextCheckAt_le_of_dueBefore
        (List.pairwise_iff_getElem.mp (dueRecords_sorted hdue) j i hj hi hji)
      rw [hia, hjb] at hsorted
      exact absurd hlt hsorted.not_gt
    · subst hji
      rw [← hia, hjb] at hlt
      exact lt_irrefl _ hlt
  rw [← horder] at hchronological
  have hab := List.pairwise_iff_getElem.mp hchronological i j hi hj hij
  rw [hia, hjb] at hab
  exact hlater (hab t u ht hu)

/-- The scheduler serves the longest overdue requests first, and reports the earliest check time,
exactly if the pending check times are ordered as texts as they are in time. -/
theorem servesInOrder_iff (hlist : listLive file = .ok rs) (htimed : Timed (candidates args rs)) :
    ServesInOrder args file ↔ TextOrdered (candidates args rs) := by
  refine ⟨textOrdered_of_selects hlist htimed, fun hordered => ⟨?_, ?_⟩⟩
  · intro run hprofile href hlimit sel hsel
    obtain ⟨-, hrecords, hdue⟩ := selection_ok hlist hsel
    rw [candidates_congr hprofile href] at hrecords hdue
    rw [hrecords]
    exact ⟨sel.due, dueRecords_perm hdue, due_chronological hordered hdue, sliceTo_of_nonneg hlimit _⟩
  · intro rs' now summary hlist' hsummary
    cases hlist.symm.trans hlist'
    rcases summarize_next htimed hsummary with ⟨r, hr, hpending, hnext, hleast⟩ | hnone
    · refine .inl ⟨r, hr, hpending, hnext, fun s hs hpending' => ?_⟩
      exact notLater_of_text hordered hr hs hpending hpending' (hleast s hs hpending')
    · exact .inr hnone

end Service

/-! ## A whole second and a half -/

section Sample

/-- Due at five past twelve. -/
def wholeSecond : LiveMetadataRequestRecord := { sampleRecord with requestRef := "req-a" }

/-- Due half a second later. -/
def halfSecond : LiveMetadataRequestRecord :=
  { sampleRecord with requestRef := "req-b", nextCheckAt := "2024-02-01T12:05:00.500000Z" }

/-- The state file with both requests. -/
def mixedFile : StateFile := writeState [halfSecond, wholeSecond]

theorem sampleFile_listed : listLive sampleFile = .ok [sampleRecord] := by decide +kernel

theorem listLive_mixed : listLive mixedFile = .ok [halfSecond, wholeSecond] := by decide +kernel

theorem wholeSecond_time : parseStateDatetime wholeSecond.nextCheckAt = .ok 63842385900000000 := by
  decide +kernel

theorem halfSecond_time : parseStateDatetime halfSecond.nextCheckAt = .ok 63842385900500000 := by
  decide +kernel

theorem candidates_mixed :
    candidates sampleRun [halfSecond, wholeSecond] = [halfSecond, wholeSecond] := by
  decide +kernel

theorem timed_mixed : Timed (candidates sampleRun [halfSecond, wholeSecond]) := by
  rw [candidates_mixed]
  intro r hr _
  rcases List.mem_pair.mp hr with rfl | rfl
  · exact ⟨_, halfSecond_time⟩
  · exact ⟨_, wholeSecond_time⟩

theorem not_textOrdered_mixed : ¬ TextOrdered (candidates sampleRun [halfSecond, wholeSecond]) := by
  rw [candidates_mixed]
  intro hordered
  have hlater := hordered halfSecond (by simp) wholeSecond (by simp) (by decide +kernel) (by decide +kernel)
    (by decide +kernel) _ _ halfSecond_time wholeSecond_time
  exact absurd hlater (by decide)

/-- The sample request alone is served in order. -/
theorem servesInOrder_iff_sample :
    ServesInOrder sampleRun sampleFile ↔ TextOrdered (candidates sampleRun [sampleRecord]) := by
  refine servesInOrder_iff sampleFile_listed ?_
  intro r hr _
  rw [show candidates sampleRun [sampleRecord] = [sampleRecord] by decide +kernel] at hr
  rw [List.mem_singleton.mp hr]
  exact ⟨63842385900000000, by decide +kernel⟩

/-- The request that is due later is served first. -/
theorem later_served_first :
    (selection sampleRun mixedFile).map (fun sel => (Text.sliceTo sampleRun.limit sel.due).map (·.requestRef)) =
        .ok ["req-b"] ∧
      ¬ ∀ args file rs, listLive file = .ok rs → Timed (candidates args rs) → ServesInOrder args file := by
  refine ⟨by decide +kernel, fun h => ?_⟩
  have hserves := h sampleRun mixedFile _ listLive_mixed timed_mixed
  exact not_textOrdered_mixed (textOrdered_of_selects listLive_mixed timed_mixed hserves)

end Sample

end AsyncVerify

end CfdiVault
