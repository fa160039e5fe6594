import CfdiVault.AsyncVerifyCrash
import CfdiVault.PackageDownload

/-!
# What a ready request has to download

A finished verification is the one outcome that changes the packages of a request: it marks the
request `PACKAGE_READY` and stores the package ids of the answer as they come, next to their
references.  Everything that the scheduler writes for another outcome carries the packages over.

`Trail` follows what the file lists through a history, and `Ledger` where the packages of each
written record come from.  Together they say that a request is ready with packages that the
download step can use exactly if the answers that finished the requests listed such packages:
at least one, none of them blank, and no two under one reference (`ready_downloadable_iff`).
The answer is not asked for that; it may list no package, or one twice.
-/

namespace CfdiVault

open LiveRequestState

namespace AsyncVerify

/-! ## Histories of a file -/

/-- The history wrote the record. -/
def Written (events : List VerifyEvent) (s : LiveMetadataRequestRecord) : Prop :=
  ∃ file, .replaced s file ∈ events

/-- The history leads from a file that lists `rs` to one that lists `rs'`, and every file on the
way lists what was just written, and otherwise only what it found or wrote before. -/
structure Trail (rs : List LiveMetadataRequestRecord) (events : List VerifyEvent)
    (rs' : List LiveMetadataRequestRecord) : Prop where
  files : ∀ record file, .replaced record file ∈ events → ∃ listed, listLive file = .ok listed ∧
    record ∈ listed ∧ ∀ s ∈ listed, s ∈ rs ∨ Written events s
  listed : ∀ s ∈ rs', s ∈ rs ∨ Written events s
  normal : ∀ s ∈ rs', Normal s

section Trails

variable {rt : Runtime} {policy : VerifyBackoffPolicy} {verifier : Verifier} {now : Instant}
variable {past events more : List VerifyEvent} {rs rs' rs'' todo : List LiveMetadataRequestRecord}
variable {r s record : LiveMetadataRequestRecord}

theorem Written.append_left (h : Written events s) : Written (events ++ more) s := by
  obtain ⟨file, hfile⟩ := h
  exact ⟨file, List.mem_append_left _ hfile⟩

theorem Written.append_right (h : Written more s) : Written (events ++ more) s := by
  obtain ⟨file, hfile⟩ := h
  exact ⟨file, List.mem_append_right _ hfile⟩

theorem Trail.nil (h : ∀ s ∈ rs, Normal s) : Trail rs [] rs where
  files := fun _ _ hnone => absurd hnone List.not_mem_nil
  listed := fun _ hs => .inl hs
  normal := h

theorem Trail.called {answer : VerifierAnswer} (h : ∀ s ∈ rs, Normal s) :
    Trail rs [.called r now answer] rs where
  files := by
    intro record file hmem
    cases List.mem_singleton.mp hmem
  listed := fun _ hs => .inl hs
  normal := h

theorem Trail.replacement (h : ∀ s ∈ rs, Normal s) (hrecord : Normal record) :
    Trail rs [replacement record rs] (insertRecord record rs) := by
  have hwritten : Written [AsyncVerify.replacement record rs] record := ⟨_, List.mem_singleton_self _⟩
  have hlisted : ∀ s ∈ insertRecord record rs, s ∈ rs ∨ Written [AsyncVerify.replacement record rs] s := by
    intro s hs
    rcases mem_insertRecord.mp hs with rfl | ⟨hold, -⟩
    · exact .inr hwritten
    · exact .inl hold
  have hnormal : ∀ s ∈ insertRecord record rs, Normal s := by
    intro s hs
    rcases mem_insertRecord.mp hs with rfl | ⟨hold, -⟩
    · exact hrecord
    · exact h s hold
  refine ⟨fun other file hmem => ?_, hlisted, hnormal⟩
  cases List.mem_singleton.mp hmem
  exact ⟨_, listLive_writeState hnormal, mem_insertRecord.mpr (.inl rfl), hlisted⟩

theorem Trail.append (h : Trail rs events rs') (h' : Trail rs' more rs'') :
    Trail rs (events ++ more) rs'' := by
  have hback : ∀ s, s ∈ rs' ∨ Written more s → s ∈ rs ∨ Written (events ++ more) s := by
    rintro s (hs | hs)
    · exact (h.listed s hs).imp_right .append_left
    · exact .inr hs.append_right
  refine ⟨fun record file hmem => ?_, fun s hs => hback s (h'.listed s hs), h'.normal⟩
  rcases List.mem_append.mp hmem with hmem | hmem
  · obtain ⟨listed, hlist, hrecord, hall⟩ := h.files record file hmem
    exact ⟨listed, hlist, hrecord, fun s hs => (hall s hs).imp_right .append_left⟩
  · obtain ⟨listed, hlist, hrecord, hall⟩ := h'.files record file hmem
    exact ⟨listed, hlist, hrecord, fun s hs => hback s (hall s hs)⟩

theorem Attempt.trail {result : Except StateFault LiveMetadataRequestRecord}
    (h : Attempt rt policy verifier now past rs r events rs' result) (hn : ∀ s ∈ rs, Normal s)
    (hr : Normal r) : Trail rs events rs' := by
  have hmarked := @Trail.replacement _ (markInProgress now r) hn (normal_markInProgress hr)
  cases h with
  | unreadable => exact .nil hn
  | expired => exact .replacement hn ((settles_markExpired now r).normal hr)
  | exhausted => exact .replacement hn ((settles_markExhausted now r).normal hr)
  | answered _ _ _ hresult =>
      have hout := (recordAnswer_settles hresult).1.normal (normal_markInProgress hr)
      exact hmarked.append ((Trail.called hmarked.normal).append (.replacement hmarked.normal hout))
  | unscheduled => exact hmarked.append (.called hmarked.normal)

theorem Batch.trail (h : Batch rt policy verifier now past rs todo events rs')
    (hn : ∀ s ∈ rs, Normal s) (htodo : ∀ r ∈ todo, Normal r) : Trail rs events rs' := by
  induction h with
  | done => exact .nil hn
  | next first _ ih =>
      have hfirst := first.trail hn (htodo _ List.mem_cons_self)
      exact hfirst.append (ih hfirst.normal fun s hs => htodo s (List.mem_cons_of_mem _ hs))
  | abort first => exact first.trail hn (htodo _ List.mem_cons_self)

/-- The file at the end of a history is the one it started from, or one that it wrote. -/
theorem fileAfter_cases (file : StateFile) (events : List VerifyEvent) :
    fileAfter file events = file ∨ ∃ record, .replaced record (fileAfter file events) ∈ events := by
  induction events generalizing file with
  | nil => exact .inl rfl
  | cons event rest ih =>
      cases event with
      | called record now answer =>
          rcases ih file with hsame | ⟨record, hmem⟩
          · exact .inl hsame
          · exact .inr ⟨record, List.mem_cons_of_mem _ hmem⟩
      | replaced record next =>
          rcases ih next with hsame | ⟨other, hmem⟩
          · refine .inr ⟨record, ?_⟩
            rw [fileAfter, hsame]
            exact List.mem_cons_self
          · exact .inr ⟨other, List.mem_cons_of_mem _ hmem⟩

/-- Every file that a history wrote is the one in place at some point of it. -/
theorem fileAfter_of_mem {file next : StateFile} (h : .replaced record next ∈ events) :
    ∃ p, p <+: events ∧ fileAfter file p = next := by
  obtain ⟨front, back, rfl⟩ := List.append_of_mem h
  refine ⟨front ++ [.replaced record next], ⟨back, by simp⟩, ?_⟩
  rw [fileAfter_append]
  rfl

end Trails

/-! ## Where the packages come from -/

/-- `s` is the same request as `r`, with the same packages. -/
def KeepsPackages (r s : LiveMetadataRequestRecord) : Prop :=
  s.requestRef = r.requestRef ∧ s.packageIds = r.packageIds ∧ s.packageRefsRedacted = r.packageRefsRedacted

/-- `s` is ready with the packages of the result. -/
def Delivers (rt : Runtime) (result : SatVerificationResult) (s : LiveMetadataRequestRecord) : Prop :=
  s.status = PACKAGE_READY ∧ s.packageIds = result.packageIds ∧
    s.packageRefsRedacted = result.packageIds.map (redactPackageRef rt)

/-- Every record that the history wrote carries over the packages of a source that was not ready,
or is ready with those of a finished answer; and every finished answer was written. -/
structure Ledger (rt : Runtime) (sources : List LiveMetadataRequestRecord) (events : List VerifyEvent) :
    Prop where
  written : ∀ s, Written events s →
    (s.status ≠ PACKAGE_READY ∧ ∃ r ∈ sources, r.status ≠ PACKAGE_READY ∧ KeepsPackages r s) ∨
    ∃ r now result, .called r now (.ok result) ∈ events ∧ result.action = .finished ∧ Delivers rt result s
  finished : ∀ r now result, .called r now (.ok result) ∈ events → result.action = .finished →
    ∃ s, Written events s ∧ Delivers rt result s

section Ledgers

variable {rt : Runtime} {policy : VerifyBackoffPolicy} {verifier : Verifier} {now : Instant}
variable {past events more : List VerifyEvent} {rs rs' todo sources : List LiveMetadataRequestRecord}
variable {r s record after : LiveMetadataRequestRecord} {answer : VerifierAnswer}

theorem recordResult_finished {result : SatVerificationResult} (h : result.action = .finished) :
    ∃ after, recordResult rt policy now record result = .ok after ∧ Delivers rt result after := by
  unfold recordResult
  dsimp only
  rw [if_pos h]
  exact ⟨_, rfl, rfl, rfl, rfl⟩

/-- A result that does not finish the request carries its packages over. -/
theorem recordResult_keeps {result : SatVerificationResult} (hfinished : result.action ≠ .finished)
    (h : recordResult rt policy now record result = .ok after) :
    after.status ≠ PACKAGE_READY ∧ KeepsPackages record after := by
  have hother : ∀ s ∈ [VERIFY_NO_DATA, VERIFY_EXPIRED, VERIFY_REJECTED, VERIFY_FAILED_PERMANENT,
      VERIFY_IN_PROGRESS_SAT, VERIFY_FAILED_RETRYABLE], s ≠ PACKAGE_READY := by
    decide +kernel
  unfold recordResult at h
  dsimp only at h
  rw [if_neg hfinished] at h
  -- the packages are not touched in any branch that is left
  split_ifs at h
  all_goals
    first
    | obtain rfl := Except.ok.inj h
    | obtain ⟨next, -, h⟩ := Checked.bind_eq_ok.mp h
      obtain rfl := Checked.pure_eq_ok.mp h
    exact ⟨hother _ (by simp), rfl, rfl, rfl⟩

/-- What is stored after the verifier raised carries the packages over. -/
theorem retryOrPermanent_keeps {kind : String} {http : Option Int}
    (h : retryOrPermanent rt policy now record kind http = .ok after) :
    after.status ≠ PACKAGE_READY ∧ KeepsPackages record after := by
  have hother : ∀ s ∈ [VERIFY_FAILED_PERMANENT, VERIFY_FAILED_RETRYABLE], s ≠ PACKAGE_READY := by
    decide +kernel
  unfold retryOrPermanent at h
  dsimp only at h
  by_cases hmax : policy.maxAttempts ≤ record.attemptCount + 1
  · rw [if_pos hmax] at h
    obtain rfl := Except.ok.inj h
    exact ⟨hother _ (by simp), rfl, rfl, rfl⟩
  · rw [if_neg hmax] at h
    obtain ⟨next, -, h⟩ := Checked.bind_eq_ok.mp h
    obtain rfl := Checked.pure_eq_ok.mp h
    exact ⟨hother _ (by simp), rfl, rfl, rfl⟩

/-- An answer delivers its packages, or carries those of the request over. -/
theorem recordAnswer_packages (h : recordAnswer rt policy now record answer = .ok after) :
    (∃ result, answer = .ok result ∧ result.action = .finished ∧ Delivers rt result after) ∨
    ((∀ result, answer = .ok result → result.action ≠ .finished) ∧
      after.status ≠ PACKAGE_READY ∧ KeepsPackages record after) := by
  cases answer with
  | error exc =>
      refine .inr ⟨fun result hok => ?_, retryOrPermanent_keeps h⟩
      cases hok
  | ok result =>
      by_cases hfinished : result.action = .finished
      · obtain ⟨after', hafter, hdelivers⟩ := @recordResult_finished rt policy now record _ hfinished
        cases hafter.symm.trans h
        exact .inl ⟨result, rfl, hfinished, hdelivers⟩
      · refine .inr ⟨fun result' hok => ?_, recordResult_keeps hfinished h⟩
        cases hok
        exact hfinished

theorem KeepsPackages.trans (h : KeepsPackages r s) (h' : KeepsPackages s record) :
    KeepsPackages r record :=
  ⟨h'.1.trans h.1, h'.2.1.trans h.2.1, h'.2.2.trans h.2.2⟩

theorem written_append : Written (events ++ more) s ↔ Written events s ∨ Written more s := by
  constructor
  · rintro ⟨file, hmem⟩
    exact (List.mem_append.mp hmem).imp (fun h => ⟨file, h⟩) fun h => ⟨file, h⟩
  · exact fun h => h.elim .append_left .append_right

theorem Ledger.nil : Ledger rt sources [] where
  written := by
    rintro s ⟨file, hnone⟩
    cases hnone
  finished := fun _ _ _ hnone => absurd hnone List.not_mem_nil

theorem Ledger.append (h : Ledger rt sources events) (h' : Ledger rt sources more) :
    Ledger rt sources (events ++ more) := by
  refine ⟨fun s hs => ?_, fun r now result hmem hfinished => ?_⟩
  · rcases written_append.mp hs with hs | hs
    · refine (h.written s hs).imp_right ?_
      rintro ⟨r, now, result, hcalled, hrest⟩
      exact ⟨r, now, result, List.mem_append_left _ hcalled, hrest⟩
    · refine (h'.written s hs).imp_right ?_
      rintro ⟨r, now, result, hcalled, hrest⟩
      exact ⟨r, now, result, List.mem_append_right _ hcalled, hrest⟩
  · rcases List.mem_append.mp hmem with hmem | hmem
    · obtain ⟨s, hs, hdelivers⟩ := h.finished r now result hmem hfinished
      exact ⟨s, hs.append_left, hdelivers⟩
    · obtain ⟨s, hs, hdelivers⟩ := h'.finished r now result hmem hfinished
      exact ⟨s, hs.append_right, hdelivers⟩

/-- The sources of a later history may be traced back through an earlier one. -/
theorem Ledger.trans (h : Ledger rt rs events) (htrail : Trail rs events rs') (h' : Ledger rt rs' more) :
    Ledger rt rs (events ++ more) := by
  refine h.append ⟨fun s hs => ?_, h'.finished⟩
  rcases h'.written s hs with ⟨hstatus, r, hr, hopen, hkeeps⟩ | hdelivered
  · rcases htrail.listed r hr with hold | hwritten
    · exact .inl ⟨hstatus, r, hold, hopen, hkeeps⟩
    · rcases h.written r hwritten with ⟨-, r₀, hr₀, hopen₀, hkeeps₀⟩ | ⟨_, _, _, _, _, hready, _⟩
      · exact .inl ⟨hstatus, r₀, hr₀, hopen₀, hkeeps₀.trans hkeeps⟩
      · exact absurd hready hopen
  · exact .inr hdelivered

theorem Attempt.ledger {result : Except StateFault LiveMetadataRequestRecord}
    (h : Attempt rt policy verifier now past rs r events rs' result) (hr : r ∈ sources)
    (hopen : r.status ≠ PACKAGE_READY) : Ledger rt sources events := by
  have hother : ∀ s ∈ [VERIFY_EXPIRED, VERIFY_FAILED_PERMANENT, VERIFY_IN_PROGRESS], s ≠ PACKAGE_READY := by
    decide +kernel
  have hkept : ∀ {s : LiveMetadataRequestRecord} {front : List LiveMetadataRequestRecord},
      s.status ≠ PACKAGE_READY → KeepsPackages r s → Ledger rt sources [replacement s front] := by
    intro s front hstatus hkeeps
    refine ⟨fun t ht => ?_, fun _ _ _ hmem _ => ?_⟩
    · obtain ⟨file, hmem⟩ := ht
      cases List.mem_singleton.mp hmem
      exact .inl ⟨hstatus, r, hr, hopen, hkeeps⟩
    · cases List.mem_singleton.mp hmem
  have hmarked := @hkept (markInProgress now r) rs (hother _ (by simp [markInProgress])) ⟨rfl, rfl, rfl⟩
  cases h with
  | unreadable => exact .nil
  | expired => exact hkept (hother _ (by simp [markExpired])) ⟨rfl, rfl, rfl⟩
  | exhausted => exact hkept (hother _ (by simp [markExhausted])) ⟨rfl, rfl, rfl⟩
  | @answered answer outcome _ _ _ hresult =>
      refine hmarked.append ?_
      rcases recordAnswer_packages hresult with ⟨result, rfl, hfinished, hdelivers⟩ | ⟨hnot, hstatus, hkeeps⟩
      · refine ⟨fun s hs => ?_, fun r' now' result' hmem _ => ?_⟩
        · obtain ⟨file, hmem⟩ := hs
          cases List.mem_singleton.mp (List.mem_of_ne_of_mem (by simp) hmem)
          exact .inr ⟨r, now, result, List.mem_cons_self, hfinished, hdelivers⟩
        · have hcalled : VerifyEvent.called r' now' (.ok result') = .called r now (.ok result) := by
            rcases List.mem_cons.mp hmem with heq | hlast
            · exact heq
            · cases List.mem_singleton.mp hlast
          cases hcalled
          exact ⟨outcome, ⟨_, List.mem_cons_of_mem _ (List.mem_singleton_self _)⟩, hdelivers⟩
      · have hcalled : Ledger rt sources [.called r now answer] := by
          refine ⟨fun s hs => ?_, fun r' now' result' hmem hfinished => ?_⟩
          · obtain ⟨file, hmem⟩ := hs
            cases List.mem_singleton.mp hmem
          · cases List.mem_singleton.mp hmem
            exact absurd hfinished (hnot _ rfl)
        exact hcalled.append (hkept hstatus hkeeps)
  | @unscheduled answer fault _ _ _ hresult =>
      refine hmarked.append ⟨fun s hs => ?_, fun r' now' result' hmem hfinished => ?_⟩
      · obtain ⟨file, hmem⟩ := hs
        cases List.mem_singleton.mp hmem
      · -- a finished answer is always stored
        cases List.mem_singleton.mp hmem
        obtain ⟨after, hafter, -⟩ := @recordResult_finished rt policy now (markInProgress now r) _ hfinished
        cases hresult.symm.trans hafter

theorem Batch.ledger (h : Batch rt policy verifier now past rs todo events rs')
    (hsources : ∀ r ∈ todo, r ∈ sources ∧ r.status ≠ PACKAGE_READY) : Ledger rt sources events := by
  induction h with
  | done => exact .nil
  | next first _ ih =>
      obtain ⟨hr, hopen⟩ := hsources _ List.mem_cons_self
      exact (first.ledger hr hopen).append (ih fun s hs => hsources s (List.mem_cons_of_mem _ hs))
  | abort first =>
      obtain ⟨hr, hopen⟩ := hsources _ List.mem_cons_self
      exact first.ledger hr hopen

end Ledgers

/-! ## Packages that can be downloaded -/

/-- The download step finds every package of the request under its reference. -/
structure Downloadable (rt : Runtime) (s : LiveMetadataRequestRecord) : Prop where
  some : s.packageIds ≠ []
  distinct : s.packageIds.Nodup
  refs : s.packageRefsRedacted = s.packageIds.map (redactPackageRef rt)
  resolves : ∀ ref ∈ s.packageRefsRedacted, ∃ packageId ∈ s.packageIds,
    PackageDownload.resolvePackageId rt s ref = .ok packageId ∧
      ∀ other ∈ s.packageIds, redactPackageRef rt other = ref → other = packageId

/-- Package ids that can be told apart by their references: one at least, none blank, and no two
under one reference. -/
def Usable (rt : Runtime) (packageIds : List String) : Prop :=
  packageIds ≠ [] ∧ (∀ packageId ∈ packageIds, Text.strip packageId ≠ "") ∧
    (packageIds.map (redactPackageRef rt)).Nodup

/-- Every ready request of the file can be downloaded. -/
def AllReady (rt : Runtime) (file : StateFile) : Prop :=
  ∀ rs, listLive file = .ok rs → ∀ s ∈ rs, s.status = PACKAGE_READY → Downloadable rt s

section Usability

variable {rt : Runtime} {s : LiveMetadataRequestRecord} {packageId : String}

/-- A reference resolves to the id that it is the reference of. -/
theorem resolve_ref (hmem : packageId ∈ s.packageIds) (hblank : Text.strip packageId ≠ "")
    (hsole : ∀ other ∈ s.packageIds, redactPackageRef rt other = redactPackageRef rt packageId →
      other = packageId) :
    PackageDownload.resolvePackageId rt s (redactPackageRef rt packageId) = .ok packageId := by
  obtain ⟨hstrip, hne⟩ := @redactPackageRef_strip rt _ hblank
  rw [PackageDownload.resolvePackageId, hstrip, if_neg hne]
  cases hfind : s.packageIds.find? fun id => redactPackageRef rt id = redactPackageRef rt packageId with
  | none =>
      have hnone := List.find?_eq_none.mp hfind packageId hmem
      exact absurd (decide_eq_true rfl) hnone
  | some found =>
      have hfound : redactPackageRef rt found = redactPackageRef rt packageId := by
        simpa using List.find?_some hfind
      rw [hsole found (List.mem_of_find?_eq_some hfind) hfound]

/-- A blank id has no reference to resolve. -/
theorem resolve_blank (hblank : Text.strip packageId = "") {found : String} :
    PackageDownload.resolvePackageId rt s (redactPackageRef rt packageId) ≠ .ok found := by
  intro h
  rw [redactPackageRef, if_pos hblank, PackageDownload.resolvePackageId, if_pos Text.strip_empty] at h
  cases h

theorem downloadable_iff (hrefs : s.packageRefsRedacted = s.packageIds.map (redactPackageRef rt)) :
    Downloadable rt s ↔ Usable rt s.packageIds := by
  constructor
  · intro h
    refine ⟨h.some, fun packageId hmem hblank => ?_, ?_⟩
    · have href : redactPackageRef rt packageId ∈ s.packageRefsRedacted := by
        rw [hrefs]
        exact List.mem_map_of_mem hmem
      obtain ⟨found, -, hfound, -⟩ := h.resolves _ href
      exact resolve_blank hblank hfound
    · refine (List.nodup_map_iff_inj_on h.distinct).mpr fun id hid other hother hsame => ?_
      have href : redactPackageRef rt other ∈ s.packageRefsRedacted := by
        rw [hrefs]
        exact List.mem_map_of_mem hother
      obtain ⟨found, -, -, hsole⟩ := h.resolves _ href
      rw [hsole id hid hsame, hsole other hother rfl]
  · rintro ⟨hsome, hblank, hnodup⟩
    have hdistinct : s.packageIds.Nodup := hnodup.of_map _
    have hinjective := (List.nodup_map_iff_inj_on hdistinct).mp hnodup
    refine ⟨hsome, hdistinct, hrefs, fun ref href => ?_⟩
    rw [hrefs] at href
    obtain ⟨packageId, hmem, rfl⟩ := List.mem_map.mp href
    have hsole : ∀ other ∈ s.packageIds, redactPackageRef rt other = redactPackageRef rt packageId →
        other = packageId := fun other hother => hinjective other hother packageId hmem
    exact ⟨packageId, hmem, resolve_ref hmem (hblank packageId hmem) hsole, hsole⟩

/-- A delivered request can be downloaded exactly if the ids of the answer are usable. -/
theorem Delivers.downloadable_iff {result : SatVerificationResult} (h : Delivers rt result s) :
    Downloadable rt s ↔ Usable rt result.packageIds := by
  obtain ⟨-, hids, hrefs⟩ := h
  rw [← hids] at hrefs ⊢
  exact AsyncVerify.downloadable_iff hrefs

end Usability

/-! ## Sequences of runs -/

/-- The world after a sequence of runs, each with its own policy and arguments. -/
def runAll (rt : Runtime) (w : VerifyWorld) (runs : List (VerifyBackoffPolicy × VerifyDueArgs)) :
    VerifyWorld :=
  runs.foldl (fun w run => ((runVerifyDue rt run.1 run.2).exec w).2) w

section Sequence

variable {rt : Runtime} {w : VerifyWorld} {runs : List (VerifyBackoffPolicy × VerifyDueArgs)}
variable {rs : List LiveMetadataRequestRecord}

theorem ready_not_pending : PACKAGE_READY ∉ PENDING_VERIFY_STATUSES := by decide +kernel

/-- One run on a readable file. -/
theorem run_ledger (policy : VerifyBackoffPolicy) (args : VerifyDueArgs) (hlist : listLive w.file = .ok rs) :
    ∃ events rs', ((runVerifyDue rt policy args).exec w).2 = w.extend events ∧
      listLive (w.extend events).file = .ok rs' ∧ Trail rs events rs' ∧ Ledger rt rs events := by
  have hnormal := listLive_normal hlist
  rcases @runVerifyDue_cases rt policy args w with
    hsame | ⟨now, rs₁, todo, events, rs', -, -, hlist₁, hselected, hbatch, hrun, hlast⟩
  · refine ⟨[], rs, by rw [hsame, extend_nil], ?_, .nil hnormal, .nil⟩
    rw [extend_nil]
    exact hlist
  · cases hlist.symm.trans hlist₁
    refine ⟨events, rs', hrun, hlast, ?_, ?_⟩
    · exact hbatch.trail hnormal fun r hr => hnormal r (hselected.mem hr).1
    · refine hbatch.ledger fun r hr => ?_
      obtain ⟨hmem, hdue⟩ := hselected.mem hr
      refine ⟨hmem, fun hready => ?_⟩
      have hpending := (isDueRecord_true hdue).1
      rw [hready] at hpending
      exact ready_not_pending hpending

/-- A sequence of runs on a readable file. -/
theorem runAll_ledger (hlist : listLive w.file = .ok rs) :
    ∃ events rs', runAll rt w runs = w.extend events ∧ listLive (w.extend events).file = .ok rs' ∧
      Trail rs events rs' ∧ Ledger rt rs events := by
  induction runs generalizing w rs with
  | nil =>
      refine ⟨[], rs, (extend_nil w).symm, ?_, .nil (listLive_normal hlist), .nil⟩
      rw [extend_nil]
      exact hlist
  | cons run rest ih =>
      obtain ⟨events, rs₁, hrun, hlist₁, htrail, hledger⟩ := @run_ledger rt _ _ run.1 run.2 hlist
      obtain ⟨more, rs', hrest, hlist', htrail', hledger'⟩ := ih hlist₁
      refine ⟨events ++ more, rs', ?_, ?_, htrail.append htrail', hledger.trans htrail hledger'⟩
      · rw [extend_append, ← hrest, runAll, List.foldl_cons, hrun]
        rfl
      · rw [extend_append]
        exact hlist'

/-- On a file that cannot be listed no run does anything. -/
theorem runAll_unreadable {fault : StateFault} (hlist : listLive w.file = .error fault) :
    runAll rt w runs = w := by
  induction runs with
  | nil => rfl
  | cons run rest ih =>
      have hsame : ((runVerifyDue rt run.1 run.2).exec w).2 = w := by
        rcases @runVerifyDue_cases rt run.1 run.2 w with hsame | ⟨now, rs, todo, events, rs', -, -, hlist', -⟩
        · exact hsame
        · cases hlist'.symm.trans hlist
      rw [runAll, List.foldl_cons, hsame]
      exact ih

/-- What a trail and its ledger say about the requests that are ready on the way. -/
theorem Ledger.allReady_iff {events : List VerifyEvent} {file : StateFile} (hlist : listLive file = .ok rs)
    {rs' : List LiveMetadataRequestRecord} (htrail : Trail rs events rs') (h : Ledger rt rs events) :
    (∀ p, p <+: events → AllReady rt (fileAfter file p)) ↔
      AllReady rt file ∧ ∀ r now result, .called r now (.ok result) ∈ events →
        result.action = .finished → Usable rt result.packageIds := by
  constructor
  · intro hall
    refine ⟨hall [] (List.nil_prefix), fun r now result hcalled hfinished => ?_⟩
    obtain ⟨s, ⟨next, hmem⟩, hdelivers⟩ := h.finished r now result hcalled hfinished
    obtain ⟨listed, hlisted, hs, -⟩ := htrail.files s next hmem
    obtain ⟨p, hp, hfile⟩ := @fileAfter_of_mem _ _ file _ hmem
    have hready := hall p hp
    rw [hfile] at hready
    exact hdelivers.downloadable_iff.mp (hready listed hlisted s hs hdelivers.1)
  · rintro ⟨hstart, hanswers⟩ p hp rs₁ hlist₁ s hs hready
    rcases fileAfter_cases file p with hsame | ⟨record, hmem⟩
    · rw [hsame] at hlist₁
      exact hstart rs₁ hlist₁ s hs hready
    · obtain ⟨listed, hlisted, -, hback⟩ := htrail.files record _ (hp.subset hmem)
      cases hlisted.symm.trans hlist₁
      rcases hback s hs with hold | hwritten
      · exact hstart rs hlist s hold hready
      · rcases h.written s hwritten with ⟨hnot, -⟩ | ⟨r, now, result, hcalled, hfinished, hdelivers⟩
        · exact absurd hready hnot
        · exact hdelivers.downloadable_iff.mpr (hanswers r now result hcalled hfinished)

/-- Along every sequence of runs the ready requests can be downloaded exactly if those that were
ready before can, and every answer that finished a request listed usable packages; a request that
is not ready has the packages it had. -/
theorem ready_downloadable_iff (rt : Runtime) (w : VerifyWorld)
    (runs : List (VerifyBackoffPolicy × VerifyDueArgs)) :
    ((∀ p, p <+: since w (runAll rt w runs) → AllReady rt (fileAfter w.file p)) ↔
      AllReady rt w.file ∧ ∀ r now result, .called r now (.ok result) ∈ since w (runAll rt w runs) →
        result.action = .finished → Usable rt result.packageIds) ∧
    ∀ p, p <+: since w (runAll rt w runs) → ∀ rs rs', listLive w.file = .ok rs →
      listLive (fileAfter w.file p) = .ok rs' → ∀ s ∈ rs', s.status ≠ PACKAGE_READY →
        ∃ r ∈ rs, KeepsPackages r s := by
  cases hlist : listLive w.file with
  | error fault =>
      rw [runAll_unreadable hlist]
      have hnone : since w w = [] := List.drop_length
      rw [hnone]
      refine ⟨⟨fun h => ⟨h [] (List.nil_prefix), fun _ _ _ hmem => absurd hmem List.not_mem_nil⟩, ?_⟩, ?_⟩
      · rintro ⟨hstart, -⟩ p hp
        rw [List.prefix_nil.mp hp]
        exact hstart
      · intro p _ rs rs' h
        cases h
  | ok rs =>
      obtain ⟨events, rs', hrun, -, htrail, hledger⟩ := @runAll_ledger rt _ runs _ hlist
      rw [hrun, since_extend]
      refine ⟨hledger.allReady_iff hlist htrail, ?_⟩
      intro p hp rs₀ rs₁ h hlist₁ s hs hstatus
      cases h
      rcases fileAfter_cases w.file p with hsame | ⟨record, hmem⟩
      · rw [hsame] at hlist₁
        cases hlist.symm.trans hlist₁
        exact ⟨s, hs, rfl, rfl, rfl⟩
      · obtain ⟨listed, hlisted, -, hback⟩ := htrail.files record _ (hp.subset hmem)
        cases hlisted.symm.trans hlist₁
        rcases hback s hs with hold | hwritten
        · exact ⟨s, hold, rfl, rfl, rfl⟩
        · rcases hledger.written s hwritten with ⟨-, r, hr, -, hkeeps⟩ | ⟨_, _, _, _, _, hready, _⟩
          · exact ⟨r, hr, hkeeps⟩
          · exact absurd hready hstatus

end Sequence

/-! ## A request that is ready with nothing -/

section Sample

/-- A verifier that finds every request finished, and lists no package. -/
def emptyVerifier : Verifier := fun _ requestId =>
  .ok { requestId := requestId, state := .finished, satCode := "5000", message := "", action := .finished }

/-- The sample run with that verifier. -/
def emptyRun : VerifyDueArgs := { sampleRun with verifier := emptyVerifier }

/-- The sample request becomes ready without a package. -/
theorem ready_without_packages :
    AllReady sampleRuntime sampleWorld.file ∧
      ¬ AllReady sampleRuntime (runAll sampleRuntime sampleWorld [({}, emptyRun)]).file := by
  have hstart : listLive sampleWorld.file = .ok [sampleRecord] := by decide +kernel
  have hend : (listLive (runAll sampleRuntime sampleWorld [({}, emptyRun)]).file).map
      (fun rs => rs.map fun s => (s.status, s.packageIds)) = .ok [(PACKAGE_READY, [])] := by
    decide +kernel
  refine ⟨fun rs hlist s hs hready => ?_, fun hall => ?_⟩
  · cases hstart.symm.trans hlist
    rw [List.mem_singleton.mp hs] at hready
    exact absurd hready (by decide)
  · cases hlist : listLive (runAll sampleRuntime sampleWorld [({}, emptyRun)]).file with
    | error fault =>
        rw [hlist] at hend
        cases hend
    | ok rs =>
        rw [hlist] at hend
        have hfields := Except.ok.inj hend
        obtain ⟨s, rfl⟩ : ∃ s, rs = [s] := List.length_eq_one_iff.mp (by simpa using congrArg List.length hfields)
        have hs : (s.status, s.packageIds) = (PACKAGE_READY, []) := (List.cons.inj hfields).1
        have hready := hall _ hlist s (List.mem_singleton_self s) (congrArg Prod.fst hs)
        exact hready.some (congrArg Prod.snd hs)

end Sample

end AsyncVerify

end CfdiVault
