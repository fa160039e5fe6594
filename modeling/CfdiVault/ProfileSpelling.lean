import CfdiVault.BackfillRuns
import CfdiVault.PackageDownload
import CfdiVault.SetupCore
import Mathlib.Logic.Relation

/-!
# Spellings of a profile id

`load_profile` strips the id it is given, so an operator may name one profile in many ways.
The plan of a backfill uses the id that the profile document holds.  A persisted request
carries the id as the operator wrote it, and the scheduler and the package gate compare that
text with what they are given.

`Belongs` says what the later commands owe to a persisted request.  They owe it to every
spelling; `spelling_iff` says that they pay for one, the id in the profile document.
-/

namespace CfdiVault

open LiveRequestState LiveCommands LiveSubmit SatBackfill AsyncVerify PackageDownload BackfillRuns

namespace ProfileSpelling

/-! ## Loading a profile -/

/-- `_load_download_profile`, given what the profile document of each folder holds. -/
def loadDownloadProfile (profiles : String → Except CliFault LocalProfile) (profileId : String) :
    Except CliFault LocalProfile :=
  match Setup.validateProfileId profileId with
  | .ok safeProfileId => profiles safeProfileId
  | .error _ => .error (.exit "profile_invalid" [])

/-- White space around the id makes no difference. -/
theorem loadDownloadProfile_congr {profiles : String → Except CliFault LocalProfile} {p q : String}
    (h : Text.strip p = Text.strip q) : loadDownloadProfile profiles p = loadDownloadProfile profiles q := by
  unfold loadDownloadProfile Setup.validateProfileId
  rw [h]

/-! ## State files that the commands have written -/

/-- A command that works on the requests of a state file, and how it leaves the file. -/
inductive Step (rt : Runtime) : StateFile → StateFile → Prop
  /-- a run of the scheduler -/
  | verifyDue (file : StateFile) (policy : VerifyBackoffPolicy) (args : VerifyDueArgs)
      (trace : List VerifyEvent) : Step rt file ((runVerifyDue rt policy args).exec ⟨file, trace⟩).2.file
  /-- `sat package-download-smoke` -/
  | download (file : StateFile) (j : PackageDownload.Invocation) (trace : List PackageEvent) :
      Step rt file (j.run rt ⟨file, trace⟩).file

/-- The state files that the commands leave, from a storage root without one. -/
inductive Written (rt : Runtime) : StateFile → Prop
  | absent : Written rt .absent
  | persisted {file after : StateFile} {args : PersistArgs} {record : LiveMetadataRequestRecord}
      (past : Written rt file) (persist : persistLive rt args file = .ok (record, after)) :
      Written rt after
  | step {file after : StateFile} (past : Written rt file) (next : Step rt file after) : Written rt after

/-- The file lists what continues the records `rs`. -/
def Continues (rs : List LiveMetadataRequestRecord) (file : StateFile) : Prop :=
  ∃ rs', listLive file = .ok rs' ∧ Carried rs rs'

section Files

variable {rt : Runtime} {file after : StateFile} {rs rs' : List LiveMetadataRequestRecord}
  {r record : LiveMetadataRequestRecord}

theorem loadLive_mem {requestRef : String} (hlist : listLive file = .ok rs)
    (h : loadLive file requestRef = .ok record) : record ∈ rs := by
  unfold loadLive at h
  dsimp only at h
  split at h
  · cases h
  · rw [hlist, Checked.ok_bind] at h
    cases hfound : rs.find? fun r => r.requestRef = Text.strip requestRef with
    | none =>
        rw [hfound] at h
        cases h
    | some found =>
        rw [hfound] at h
        obtain rfl := Except.ok.inj h
        exact List.mem_of_find?_eq_some hfound

theorem keeps_askDownloader (ports : PackagePorts) (packageId : String) :
    Keeps (fun w : PackageWorld => Continues rs w.file) (askDownloader ports packageId) := by
  refine Spec.read fun u => ?_
  rintro w ⟨hw, rfl⟩
  rw [Prog.exec_bind_ok (Prog.exec_set _ w), Prog.exec_ofExcept]
  cases ports.download w.trace packageId with
  | error fault => exact hw
  | ok download => exact hw

/-- The only write of a download is an upsert of the marked record. -/
theorem keeps_storeRecord (now : Instant) (hlist : listLive file = .ok rs) (hrecord : record ∈ rs) :
    Keeps (fun w : PackageWorld => Continues rs w.file) (storeRecord rt (markDownloaded now record)) := by
  refine Spec.read fun u => ?_
  rintro w ⟨⟨rs', hlist', hcarried⟩, rfl⟩
  rw [upsertLive_ok hlist']
  exact ⟨_, listLive_upsert hlist' (markDownloaded_normal _ (listLive_normal hlist record hrecord)),
    hcarried.insert hrecord ⟨rfl, rfl, rfl⟩⟩

theorem keeps_downloadResolved (j : PackageDownload.Invocation) (localProfile : LocalProfile)
    (hlist : listLive file = .ok rs) (hrecord : record ∈ rs) :
    Keeps (fun w : PackageWorld => Continues rs w.file)
      (downloadResolved rt j.env j.ports j.options localProfile record) := by
  unfold downloadResolved
  apply Keeps.bind (Keeps.ofExcept _)
  intro packageId
  generalize queryFromLiveRequestRecord localProfile.rfc record = rebuilt
  apply Keeps.bind (Keeps.ofExcept _)
  intro query
  apply Keeps.bind (Keeps.ofExcept _)
  intro verified
  unfold runLivePackageDownloadSmoke
  apply Keeps.bind (Keeps.ofExcept _)
  intro loaded
  apply Keeps.bind (keeps_askDownloader j.ports packageId)
  intro download
  cases finishedContent download with
  | none => exact Keeps.pure _
  | some content =>
      apply Keeps.bind (Keeps.bind Keeps.get fun u => Keeps.ofExcept _)
      intro processed
      exact Keeps.bind (keeps_storeRecord _ hlist hrecord) fun stored => Keeps.pure _

/-- A download continues the records of its file. -/
theorem carried_download (j : PackageDownload.Invocation) {w : PackageWorld}
    (hlist : listLive w.file = .ok rs) : Continues rs (j.run rt w).file := by
  have hstart : ∀ u, u = w → Continues rs u.file := by
    rintro u rfl
    exact ⟨rs, hlist, .refl rs⟩
  have hpass : ∀ {α : Type} {p : PackageProg α}, Keeps (· = w) p →
      Spec (· = w) p (fun _ => (· = w)) (fun _ u => Continues rs u.file) :=
    fun hp => hp.weaken (fun _ h => h) (fun _ _ h => h) fun _ u h => hstart u h
  have hrun : Spec (· = w) (satPackageDownloadSmoke rt j.env j.ports j.options)
      (fun _ u => Continues rs u.file) (fun _ u => Continues rs u.file) := by
    unfold satPackageDownloadSmoke
    apply Spec.bind (hpass (Keeps.raiseIf _ _))
    intro _
    apply Spec.bind (hpass (Keeps.raiseIf _ _))
    intro _
    apply Spec.bind (hpass (Keeps.ofExcept _))
    intro localProfile
    apply Spec.read
    intro u
    apply Spec.ofExcept_bind
    · rintro record hload s ⟨rfl, rfl⟩
      have hrecord := loadLive_mem hlist (Checked.mapError_eq_ok.mp hload)
      have hrest : Keeps (fun u : PackageWorld => Continues rs u.file) (do
          Prog.raiseIf (record.profileId ≠ j.options.profile)
            (denyPackageDownload "request-state-profile-mismatch")
          Prog.raiseIf (record.status ≠ PACKAGE_READY) (denyPackageDownload "request-not-package-ready")
          downloadResolved rt j.env j.ports j.options localProfile record) := by
        apply Keeps.bind (Keeps.raiseIf _ _)
        intro _
        apply Keeps.bind (Keeps.raiseIf _ _)
        intro _
        exact keeps_downloadResolved j localProfile hlist hrecord
      exact hrest s (hstart s rfl)
    · rintro fault - s ⟨hs, -⟩
      exact hstart s hs
  have hfinal := hrun w rfl
  unfold PackageDownload.Invocation.run
  rcases hexec : (satPackageDownloadSmoke rt j.env j.ports j.options).exec w with ⟨fault | result, t⟩
  · rw [hexec] at hfinal
    exact hfinal
  · rw [hexec] at hfinal
    exact hfinal

theorem Step.continues (h : Step rt file after) (hlist : listLive file = .ok rs) : Continues rs after := by
  cases h with
  | verifyDue policy args trace => exact carried_verifyDue args hlist
  | download j trace => exact carried_download j hlist

theorem named_of_carried (h : Carried rs rs') (hnamed : ∀ r ∈ rs, r.requestRef ≠ "") :
    ∀ r ∈ rs', r.requestRef ≠ "" := by
  intro r hr
  obtain ⟨before, hbefore, hkey⟩ := h.origin r hr
  rw [hkey.requestRef]
  exact hnamed before hbefore

/-- What the commands have written lists every request under a reference. -/
theorem Written.named (h : Written rt file) :
    ∃ rs, listLive file = .ok rs ∧ ∀ r ∈ rs, r.requestRef ≠ "" := by
  induction h with
  | absent => exact ⟨[], rfl, fun _ hnone => absurd hnone List.not_mem_nil⟩
  | persisted past persist ih =>
      obtain ⟨rs, hlist, hnamed⟩ := ih
      obtain ⟨hrecord, rs', hlist', rfl⟩ := persistLive_ok.mp persist
      obtain rfl := Except.ok.inj (hlist.symm.trans hlist')
      refine ⟨_, listLive_upsert hlist (persistedRecord_fresh hrecord).1, fun r hr => ?_⟩
      rcases mem_insertRecord.mp hr with rfl | ⟨hold, -⟩
      · exact persistedRecord_requestRef hrecord
      · exact hnamed r hold
  | step past next ih =>
      obtain ⟨rs, hlist, hnamed⟩ := ih
      obtain ⟨rs', hlist', hcarried⟩ := next.continues hlist
      exact ⟨rs', hlist', named_of_carried hcarried hnamed⟩

end Files

/-! ## What the later commands owe to a persisted request -/

/-- The package command behind its profile check. -/
def downloadReady (rt : Runtime) (env : LiveEnv) (ports : PackagePorts) (options : PackageDownloadOptions)
    (localProfile : LocalProfile) (record : LiveMetadataRequestRecord) :
    PackageProg PackageDownloadCliResult := do
  Prog.raiseIf (record.status ≠ PACKAGE_READY) (denyPackageDownload "request-not-package-ready")
  downloadResolved rt env ports options localProfile record

/-- What a profile, named `profileId`, finds of a request for `query` that the file lists as
`record`. -/
structure Belongs (rt : Runtime) (profiles : String → Except CliFault LocalProfile)
    (localProfile : LocalProfile) (query : DownloadQuery) (file : StateFile)
    (record : LiveMetadataRequestRecord) (profileId : String) : Prop where
  /-- every plan for the loaded profile marks the window as existing -/
  marked : ∀ args plan, args.profileId = localProfile.profileId →
    buildBackfillPlan rt args file = .ok plan →
      ∀ window ∈ plan.windows, window.query = query → window.existingRequestRef ≠ ""
  /-- no invocation submits the window again -/
  once : ∀ (i : BackfillSubmit) trace answer, i.env.loadProfile = loadDownloadProfile profiles →
    i.options.profile = profileId →
      .submitted query answer ∉ eventsSince ⟨file, trace⟩ (i.run rt ⟨file, trace⟩)
  /-- a due run that names the request verifies it -/
  scheduled : ∀ args ref current, args.profileId = profileId → args.requestRef = some ref →
    Text.strip ref = record.requestRef → 1 ≤ args.limit → normalizeDt args.now = .ok current →
      isDueRecord current record = .ok true →
        ∃ sel, selection args file = .ok sel ∧ Text.sliceTo args.limit sel.due = [record]
  /-- a due run over the profile finds it -/
  swept : ∀ args sel, args.profileId = profileId → args.requestRef = none →
    selection args file = .ok sel → isDueRecord sel.current record = .ok true → record ∈ sel.due
  /-- the package command gets past its profile check -/
  admitted : ∀ env ports options trace, env.loadProfile = loadDownloadProfile profiles →
    options.profile = profileId → options.manualRealSat = true → options.permit ≠ none →
      Text.strip options.requestRef = record.requestRef →
        (satPackageDownloadSmoke rt env ports options).exec ⟨file, trace⟩ =
          (downloadReady rt env ports options localProfile record).exec ⟨file, trace⟩

section Belongs

variable {rt : Runtime} {profiles : String → Except CliFault LocalProfile} {localProfile : LocalProfile}
  {query : DownloadQuery} {file : StateFile} {rs : List LiveMetadataRequestRecord}
  {r record : LiveMetadataRequestRecord} {profileId : String}

/-- The reference of a window is that of its criteria. -/
theorem window_ref {args : PlanArgs} {plan : BackfillPlan} (hlist : listLive file = .ok rs)
    (h : buildBackfillPlan rt args file = .ok plan) : ∀ window ∈ plan.windows,
      window.existingRequestRef = requestOf rs args.profileId (window.query.criteriaHash rt) := by
  obtain ⟨records, hrecords, -, -, hwindows⟩ := buildBackfillPlan_ok h
  obtain rfl := Except.ok.inj (hlist.symm.trans hrecords)
  intro window hwindow
  obtain ⟨operation, index, period, rfl⟩ := hwindows window hwindow
  rfl

/-- A plan over another list of requests has the same windows. -/
theorem plan_again {args : PlanArgs} {plan : BackfillPlan} {file' : StateFile}
    (h : buildBackfillPlan rt args file = .ok plan) (hlist : listLive file' = .ok rs) :
    ∃ plan', buildBackfillPlan rt args file' = .ok plan' ∧
      plan'.windows.map (·.query) = plan.windows.map (·.query) := by
  unfold buildBackfillPlan at h ⊢
  split_ifs at h ⊢ with hkind
  obtain ⟨operation, hoperation, h⟩ := Checked.bind_eq_ok.mp h
  obtain ⟨records, -, h⟩ := Checked.bind_eq_ok.mp h
  obtain ⟨periods, hperiods, h⟩ := Checked.bind_eq_ok.mp h
  obtain ⟨normalized, hnormalized, h⟩ := Checked.bind_eq_ok.mp h
  obtain rfl := Checked.pure_eq_ok.mp h
  have hlist' : (listLive file').mapError PlanFault.state = .ok rs := by
    rw [hlist]
    rfl
  refine ⟨{
    profileId := args.profileId
    direction := args.direction
    kind := args.kind
    window := normalized
    startDate := args.startDate
    endDate := args.endDate
    windows := periods.mapIdx fun i period => windowPlan rt args operation rs (i + 1) period }, ?_, ?_⟩
  · rw [hoperation, Checked.ok_bind, hlist', Checked.ok_bind, hperiods, Checked.ok_bind, hnormalized,
      Checked.ok_bind]
    rfl
  · refine List.ext_getElem? fun i => ?_
    dsimp only
    rw [List.getElem?_map, List.getElem?_mapIdx, Option.map_map, List.getElem?_map, List.getElem?_mapIdx,
      Option.map_map]
    rfl

/-- The package command, where nothing outside stops it before its profile check. -/
theorem exec_package {env : LiveEnv} {ports : PackagePorts} {options : PackageDownloadOptions}
    {w : PackageWorld} (hload : env.loadProfile options.profile = .ok localProfile)
    (hmanual : options.manualRealSat = true) (hpermit : options.permit ≠ none)
    (hstored : StoredIn w.file (Text.strip options.requestRef) record)
    (hnamed : Text.strip options.requestRef ≠ "") :
    (satPackageDownloadSmoke rt env ports options).exec w =
      (Prog.raiseIf (record.profileId ≠ options.profile) (denyPackageDownload "request-state-profile-mismatch")
        >>= fun _ => downloadReady rt env ports options localProfile record).exec w := by
  have hrecord : (loadLive w.file options.requestRef).mapError (stateFault "request_state_not_found") =
      .ok record := by
    rw [hstored.load hnamed]
    rfl
  rw [satPackageDownloadSmoke,
    Prog.exec_bind_ok (Prog.exec_raiseIf_neg (by rw [hmanual]; decide) _ w),
    Prog.exec_bind_ok (Prog.exec_raiseIf_neg hpermit _ w), hload,
    Prog.exec_bind_ok (Prog.exec_ofExcept _ w), Prog.exec_bind_ok (Prog.exec_get w), hrecord,
    Prog.exec_bind_ok (Prog.exec_ofExcept _ w)]
  rfl

/-- The file lists `record` as what has become of the request that was persisted as `r`, and
every request under a reference. -/
structure Remains (r record : LiveMetadataRequestRecord) (file : StateFile) : Prop where
  stored : StoredIn file r.requestRef record
  same : SameKey r record
  named : ∀ rs, listLive file = .ok rs → ∀ s ∈ rs, s.requestRef ≠ ""

theorem Remains.ref (h : Remains r record file) : record.requestRef ≠ "" := by
  obtain ⟨rs, hlist, hsole⟩ := h.stored
  exact h.named rs hlist record hsole.mem

theorem Remains.step {after : StateFile} (h : Remains r record file) (hstep : Step rt file after) :
    ∃ record', Remains r record' after := by
  obtain ⟨rs, hlist, hsole⟩ := h.stored
  obtain ⟨rs', hlist', hcarried⟩ := hstep.continues hlist
  obtain ⟨record', hsole', hkey⟩ := hcarried.sole _ _ hsole
  refine ⟨record', ⟨rs', hlist', hsole'⟩, h.same.trans hkey, fun listed hlisted => ?_⟩
  obtain rfl := Except.ok.inj (hlist'.symm.trans hlisted)
  exact named_of_carried hcarried (h.named rs hlist)

/-- A file that lists the request under the id of the profile marks its window. -/
theorem Remains.marked {args : PlanArgs} {plan : BackfillPlan} (h : Remains r record file)
    (hprofile : r.profileId = args.profileId) (hhash : r.criteriaHash = query.criteriaHash rt)
    (hplan : buildBackfillPlan rt args file = .ok plan) :
    ∀ window ∈ plan.windows, window.query = query → window.existingRequestRef ≠ "" := by
  rintro window hwindow rfl
  obtain ⟨rs, hlist, hsole⟩ := h.stored
  obtain ⟨last, hlast⟩ := existing_of_mem hsole.mem (h.same.profileId.trans hprofile)
    (h.same.criteriaHash.trans hhash)
  rw [window_ref hlist hplan window hwindow, requestOf, hlast]
  exact h.named rs hlist last (mem_of_existing hlast).1

/-- The candidates of a run that names a request. -/
theorem candidates_named {args : VerifyDueArgs} {ref : String}
    (hsole : Keyed.Sole (·.requestRef) record.requestRef record rs) (hprofile : args.profileId = record.profileId)
    (hnames : args.requestRef = some ref) (href : Text.strip ref = record.requestRef) :
    candidates args rs = [record] := by
  have hown : (decide (record.profileId = args.profileId)) = true := decide_eq_true hprofile.symm
  unfold candidates
  rw [hnames]
  dsimp only
  rw [href, List.filter_comm]
  change List.filter _ (rs.filter fun r => r.requestRef = record.requestRef) = [record]
  rw [hsole]
  exact List.filter_cons_of_pos hown

/-- A due request is selected by a run that names it. -/
theorem Remains.scheduled {args : VerifyDueArgs} {ref : String} {current : Instant}
    (h : Remains r record file) (hprofile : args.profileId = r.profileId)
    (hnames : args.requestRef = some ref) (href : Text.strip ref = record.requestRef)
    (hlimit : 1 ≤ args.limit) (hnow : normalizeDt args.now = .ok current)
    (hdue : isDueRecord current record = .ok true) :
    ∃ sel, selection args file = .ok sel ∧ Text.sliceTo args.limit sel.due = [record] := by
  obtain ⟨rs, hlist, hsole⟩ := h.stored
  rw [← h.same.requestRef] at hsole
  have hcandidates := candidates_named hsole (hprofile.trans h.same.profileId.symm) hnames href
  have hrecords : dueRecords [record] current = .ok [record] := by
    unfold dueRecords Checked.filter
    rw [hdue, Checked.ok_bind]
    rfl
  refine ⟨⟨current, [record], [record]⟩, ?_, ?_⟩
  · unfold selection
    rw [hnow, Checked.ok_bind, hlist, Checked.ok_bind, hcandidates, hrecords, Checked.ok_bind]
    rfl
  · obtain ⟨limit, hlimit'⟩ := Int.eq_ofNat_of_zero_le (show 0 ≤ args.limit by omega)
    rw [hlimit']
    exact List.take_of_length_le (show 1 ≤ limit by omega)

/-- A due request is found by a run over its profile. -/
theorem Remains.swept {args : VerifyDueArgs} {sel : Selection} (h : Remains r record file)
    (hprofile : args.profileId = r.profileId) (hnames : args.requestRef = none)
    (hselection : selection args file = .ok sel) (hdue : isDueRecord sel.current record = .ok true) :
    record ∈ sel.due := by
  obtain ⟨rs, hlist, hsole⟩ := h.stored
  obtain ⟨current, -, hselection⟩ := Checked.bind_eq_ok.mp hselection
  obtain ⟨listed, hlisted, hselection⟩ := Checked.bind_eq_ok.mp hselection
  obtain ⟨due, hrecords, hselection⟩ := Checked.bind_eq_ok.mp hselection
  obtain rfl := Checked.pure_eq_ok.mp hselection
  obtain rfl := Except.ok.inj (hlist.symm.trans hlisted)
  refine (dueRecords_perm hrecords).symm.subset (List.mem_filter.mpr ⟨?_, Checked.accepts_iff.mpr hdue⟩)
  unfold candidates
  rw [hnames]
  exact List.mem_filter.mpr ⟨hsole.mem, decide_eq_true (h.same.profileId.trans hprofile.symm)⟩

/-- Under the id of the profile document everything finds the request. -/
theorem Remains.belongs (h : Remains r record file)
    (hload : loadDownloadProfile profiles profileId = .ok localProfile)
    (hsame : profileId = localProfile.profileId) (hprofile : r.profileId = localProfile.profileId)
    (hhash : r.criteriaHash = query.criteriaHash rt) :
    Belongs rt profiles localProfile query file record profileId where
  marked := fun args plan hargs hplan => h.marked (hprofile.trans hargs.symm) hhash hplan
  once := by
    intro i trace answer henv hnamed hsubmitted
    rcases @BackfillSubmit.run_cases rt i ⟨file, trace⟩ with ⟨hidle, -⟩ | ⟨loaded, sent, hsends, -, hsent⟩
    · rw [hidle, eventsSince_self] at hsubmitted
      exact absurd hsubmitted List.not_mem_nil
    · obtain ⟨hquery, -⟩ := hsent.submitted_iff.mp hsubmitted
      obtain ⟨plan, window, rest, hplanned, hpending, hwindow⟩ := hsends.planned
      obtain ⟨hloaded, args, hargs, hplan⟩ := submitPlan_ok hplanned
      rw [henv, hnamed, hload] at hloaded
      obtain rfl := Except.ok.inj hloaded
      have hfirst : window ∈ plan.pending := by
        rw [hpending]
        exact List.mem_cons_self
      obtain ⟨hmem, hnone⟩ := List.mem_filter.mp hfirst
      exact h.marked (hprofile.trans hargs.symm) hhash hplan window hmem (hwindow.trans hquery.symm)
        (of_decide_eq_true hnone)
  scheduled := fun args ref current hargs hnames href hlimit hnow hdue =>
    h.scheduled (hargs.trans (hsame.trans hprofile.symm)) hnames href hlimit hnow hdue
  swept := fun args sel hargs hnames hselection hdue =>
    h.swept (hargs.trans (hsame.trans hprofile.symm)) hnames hselection hdue
  admitted := by
    intro env ports options trace henv hnamed hmanual hpermit href
    have hloaded : env.loadProfile options.profile = .ok localProfile := by
      rw [henv, hnamed, hload]
    have hstored : StoredIn file (Text.strip options.requestRef) record := by
      rw [href, h.same.requestRef]
      exact h.stored
    have hown : ¬ record.profileId ≠ options.profile := by
      rw [not_not, h.same.profileId, hprofile, hnamed, hsame]
    rw [@exec_package rt localProfile record env ports options ⟨file, trace⟩ hloaded hmanual hpermit hstored
      (by rw [href]; exact h.ref), Prog.exec_bind_ok (Prog.exec_raiseIf_neg hown _ _)]

/-- Without a request under the id of the profile its windows stay unmarked. -/
theorem unmarked {args : PlanArgs} {plan : BackfillPlan} {window : BackfillWindowPlan}
    (hplan : buildBackfillPlan rt args file = .ok plan) (hwindow : window ∈ plan.pending)
    (hlist : listLive file = .ok rs) (hnamed : ∀ s ∈ rs, s.requestRef ≠ "") {file' : StateFile}
    (hlist' : listLive file' = .ok (insertRecord r rs)) (hother : r.profileId ≠ args.profileId) :
    ∃ plan', buildBackfillPlan rt args file' = .ok plan' ∧
      ∃ again ∈ plan'.windows, again.query = window.query ∧ again.existingRequestRef = "" := by
  obtain ⟨plan', hplan', hqueries⟩ := plan_again hplan hlist'
  obtain ⟨hmem, hnone⟩ := List.mem_filter.mp hwindow
  have hnone : requestOf rs args.profileId (window.query.criteriaHash rt) = "" := by
    rw [← window_ref hlist hplan window hmem]
    exact of_decide_eq_true hnone
  -- no listed record is of the profile and the criteria, and the new one is of another profile
  have hfree : ∀ s ∈ insertRecord r rs,
      ¬ (s.profileId = args.profileId ∧ s.criteriaHash = window.query.criteriaHash rt) := by
    rintro s hs ⟨hprofile, hhash⟩
    rcases mem_insertRecord.mp hs with rfl | ⟨hold, -⟩
    · exact hother hprofile
    · obtain ⟨last, hlast⟩ := existing_of_mem hold hprofile hhash
      rw [requestOf, hlast] at hnone
      exact hnamed last (mem_of_existing hlast).1 hnone
  obtain ⟨again, hagain, hquery⟩ := List.mem_map.mp (show window.query ∈ plan'.windows.map (·.query) by
    rw [hqueries]
    exact List.mem_map_of_mem hmem)
  refine ⟨plan', hplan', again, hagain, hquery, ?_⟩
  rw [window_ref hlist' hplan' again hagain, hquery, requestOf, existingByCriteria,
    List.filter_eq_nil_iff.mpr fun s hs => by
      rw [decide_eq_true_eq]
      exact hfree s hs]
  rfl

/-- The reference of a persisted request has no white space to strip. -/
theorem strip_requestRef {args : PersistArgs} (h : persistedRecord rt args = .ok r) :
    Text.strip r.requestRef = r.requestRef := by
  have hhex : ∀ (d : Digest), ∀ c ∈ (Text.takeChars 12 d.hex).toList, Text.isSpace c = false := by
    intro d c hc
    rw [Text.takeChars, String.toList_ofList] at hc
    exact d.hex_no_space c (List.mem_of_mem_take hc)
  have hdash : "-".toList.any Text.isSpace = false := by decide
  have hprefix : "req-".toList.any Text.isSpace = false := by decide
  rw [(persistedRecord_fields h).1]
  refine Text.strip_of_no_space fun c hc => ?_
  unfold requestRefOf DownloadQuery.criteriaHash at hc
  simp only [String.toList_append, List.mem_append] at hc
  rcases hc with ((hc | hc) | hc) | hc
  · exact Bool.eq_false_iff.mpr (List.any_eq_false.mp hprefix c hc)
  · exact hhex _ c hc
  · exact Bool.eq_false_iff.mpr (List.any_eq_false.mp hdash c hc)
  · exact hhex _ c hc

end Belongs

/-! ## Every spelling, or one -/

section Main

variable {rt : Runtime} {profiles : String → Except CliFault LocalProfile} {localProfile : LocalProfile}
  {i : BackfillSubmit} {w : SubmitWorld} {query : DownloadQuery} {answer : Except CliFault SatRequestResult}
  {r : LiveMetadataRequestRecord} {profileId : String}

/-- Right after a submission its record remains. -/
theorem submitted_remains (hwritten : Written rt w.file)
    (hevents : eventsSince w (i.run rt w) = [.submitted query answer, .replaced r]) :
    Remains r r (i.run rt w).file := by
  obtain ⟨loaded, plan, window, rest, result, rs, -, -, -, hrecord, hlist, hfile⟩ := submission_cases hevents
  have hlisted := listLive_upsert hlist (persistedRecord_fresh hrecord).1
  rw [hfile]
  refine ⟨⟨_, hlisted, Keyed.sole_upsert_self sortByCreation_perm⟩, .refl r, ?_⟩
  obtain ⟨rs', hlist', hnamed⟩ := (hwritten.persisted (persistLive_ok.mpr ⟨hrecord, rs, hlist, rfl⟩)).named
  intro listed hlisted'
  obtain rfl := Except.ok.inj (hlist'.symm.trans hlisted')
  exact hnamed

/-- Whatever the later commands do, something remains of the record. -/
theorem remains_later {file later : StateFile} {record : LiveMetadataRequestRecord}
    (h : Remains r record file) (hlater : Relation.ReflTransGen (Step rt) file later) :
    ∃ record', Remains r record' later := by
  induction hlater with
  | refl => exact ⟨record, h⟩
  | tail _ hstep ih =>
      obtain ⟨record', hrecord'⟩ := ih
      exact hrecord'.step hstep

/-- Submitted under another id than that of the profile document, a window stays open. -/
theorem submitted_unmarked (hwritten : Written rt w.file)
    (hload : i.env.loadProfile i.options.profile = .ok localProfile)
    (hevents : eventsSince w (i.run rt w) = [.submitted query answer, .replaced r])
    (hother : i.options.profile ≠ localProfile.profileId) :
    ∃ args plan, args.profileId = localProfile.profileId ∧
      buildBackfillPlan rt args (i.run rt w).file = .ok plan ∧
        ∃ window ∈ plan.windows, window.query = query ∧ window.existingRequestRef = "" := by
  obtain ⟨loaded, plan, window, rest, result, rs, hplanned, hpending, rfl, hrecord, hlist, hfile⟩ :=
    submission_cases hevents
  obtain ⟨hloaded, args, hargs, hplan⟩ := submitPlan_ok hplanned
  obtain rfl := Except.ok.inj (hload.symm.trans hloaded)
  obtain ⟨hnormal, -, -, -, hprofile, -⟩ := persistedRecord_fresh hrecord
  obtain ⟨rs', hlist', hnamed⟩ := hwritten.named
  obtain rfl := Except.ok.inj (hlist.symm.trans hlist')
  have hfirst : window ∈ plan.pending := by
    rw [hpending]
    exact List.mem_cons_self
  have hforeign : r.profileId ≠ args.profileId := by
    rw [hprofile, hargs]
    exact hother
  rw [hfile]
  obtain ⟨plan', hplan', hopen⟩ := unmarked hplan hfirst hlist hnamed (listLive_upsert hlist hnormal) hforeign
  exact ⟨args, plan', hargs, hplan', hopen⟩

/-- The package command refuses a request under another id than that of its record. -/
theorem refused (hwritten : Written rt w.file)
    (hevents : eventsSince w (i.run rt w) = [.submitted query answer, .replaced r])
    (hload : loadDownloadProfile profiles profileId = .ok localProfile)
    (hother : profileId ≠ i.options.profile) :
    ¬ Belongs rt profiles localProfile query (i.run rt w).file r profileId := by
  intro hbelongs
  obtain ⟨loaded, plan, window, rest, result, rs, -, -, -, hrecord, -, -⟩ := submission_cases hevents
  have hremains := submitted_remains hwritten hevents
  have hstrip := strip_requestRef hrecord
  obtain ⟨-, -, -, -, hprofile, -⟩ := persistedRecord_fresh hrecord
  obtain ⟨load, hsame⟩ : ∃ load, load = loadDownloadProfile profiles := ⟨_, rfl⟩
  obtain ⟨env, henv⟩ : ∃ env : LiveEnv, env.loadProfile = load := ⟨{ i.env with loadProfile := load }, rfl⟩
  rw [hsame] at henv
  obtain ⟨options, hnamed, href, hmanual, hpermit⟩ : ∃ options : PackageDownloadOptions,
      options.profile = profileId ∧ options.requestRef = r.requestRef ∧ options.manualRealSat = true ∧
        options.permit ≠ none :=
    ⟨⟨profileId, r.requestRef, "", true, some ""⟩, rfl, rfl, rfl, Option.some_ne_none _⟩
  obtain ⟨ports, -⟩ : ∃ ports : PackagePorts, ports =
    ⟨fun _ _ => .error badParameter, fun _ _ _ => .error badParameter⟩ := ⟨_, rfl⟩
  have hloaded : env.loadProfile options.profile = .ok localProfile := by
    rw [henv, hnamed, hload]
  have hreference : Text.strip options.requestRef = r.requestRef := by
    rw [href, hstrip]
  have hstored : StoredIn (i.run rt w).file (Text.strip options.requestRef) r := by
    rw [hreference]
    exact hremains.stored
  have hforeign : r.profileId ≠ options.profile := by
    rw [hprofile, hnamed]
    exact hother.symm
  have hunready : r.status ≠ PACKAGE_READY := by
    rw [(persistedRecord_fields hrecord).2.1]
    change normalizeStatus VERIFY_SCHEDULED ≠ PACKAGE_READY
    decide +kernel
  have hadmitted := hbelongs.admitted env ports options [] henv hnamed hmanual hpermit hreference
  rw [@exec_package rt localProfile r env ports options ⟨(i.run rt w).file, []⟩ hloaded hmanual hpermit
      hstored (by rw [hreference]; exact hremains.ref),
    Prog.exec_bind_error (Prog.exec_raiseIf_pos hforeign _ _), downloadReady,
    Prog.exec_bind_error (Prog.exec_raiseIf_pos hunready _ _)] at hadmitted
  have hreasons := (CliFault.exit.inj (Except.error.inj (Prod.mk.inj hadmitted).1)).2
  exact absurd hreasons (by decide)

/-- A request that `sat backfill submit` persisted under one spelling of a profile's id is
found under another, by every plan, scheduler run and package download from then on, exactly
if both are the id that the profile document holds. -/
theorem spelling_iff (profiles : String → Except CliFault LocalProfile) (i : BackfillSubmit) (w : SubmitWorld)
    (henv : i.env.loadProfile = loadDownloadProfile profiles) (hwritten : Written rt w.file)
    (hload : loadDownloadProfile profiles i.options.profile = .ok localProfile)
    (hspelled : loadDownloadProfile profiles profileId = .ok localProfile)
    (hevents : eventsSince w (i.run rt w) = [.submitted query answer, .replaced r]) :
    (∀ later, Relation.ReflTransGen (Step rt) (i.run rt w).file later →
      ∃ record, StoredIn later r.requestRef record ∧
        Belongs rt profiles localProfile query later record profileId) ↔
      i.options.profile = localProfile.profileId ∧ profileId = localProfile.profileId := by
  have hremains := submitted_remains hwritten hevents
  constructor
  · intro hall
    obtain ⟨record, hstored, hbelongs⟩ := hall _ .refl
    obtain rfl := hremains.stored.unique hstored
    have hsubmitted : i.options.profile = localProfile.profileId := by
      by_contra hother
      obtain ⟨args, plan, hargs, hplan, window, hwindow, hquery, hopen⟩ :=
        submitted_unmarked hwritten (by rw [henv]; exact hload) hevents hother
      exact hbelongs.marked args plan hargs hplan window hwindow hquery hopen
    refine ⟨hsubmitted, ?_⟩
    by_contra hother
    exact refused hwritten hevents hspelled (by rw [hsubmitted]; exact hother) hbelongs
  · rintro ⟨hsubmitted, hsame⟩ later hlater
    obtain ⟨loaded, plan, window, rest, result, rs, -, -, -, hrecord, -, -⟩ := submission_cases hevents
    obtain ⟨-, -, -, -, hprofile, hhash⟩ := persistedRecord_fresh hrecord
    obtain ⟨record, hrecord'⟩ := remains_later hremains hlater
    exact ⟨record, hrecord'.stored, hrecord'.belongs hspelled hsame (hprofile.trans hsubmitted) hhash⟩

end Main

section Sample

/-- A machine with one profile. -/
def sampleProfiles (safeProfileId : String) : Except CliFault LocalProfile :=
  if safeProfileId = "default" then .ok ⟨"default", "AAA010101AAA"⟩
  else .error (.exit "profile_not_configured" [])

/-- The host of the sample submission, with the digest of the reference that a request has
under the id with blanks around it. -/
def blankRuntime : Runtime where
  sha256Text s :=
    if s = " default :5de8fe69144810e52750e4a3ce1ce6515bb6cc554b6c7a1e3ceeb18d64fcb9e1:SAT-REQ-1" then
      0xced5a0aaa25ee8f144a3ab0cf9998112e2ee5d3ff64c3618ede53640bb938618
    else LiveSubmit.sampleRuntime.sha256Text s
  sha256Bytes _ := 0
  upper := id
  lower := Text.lower
  alnum c := c.isAlphanum

/-- The sample submission, with the profile named in some way. -/
def spelledSubmit (profileId : String) : BackfillSubmit where
  env := { readyEnv 63842386800000000 with loadProfile := loadDownloadProfile sampleProfiles }
  ports := samplePorts
  options := { sampleSubmit.options with profile := profileId }

theorem spelledSubmit_load (profileId : String) :
    (spelledSubmit profileId).env.loadProfile = loadDownloadProfile sampleProfiles := by
  simp only [spelledSubmit]

theorem spelledSubmit_profile (profileId : String) : (spelledSubmit profileId).options.profile = profileId := by
  simp only [spelledSubmit]

theorem loaded_guard (now : Instant) (permitRef scope : String) {load : String → Except CliFault LocalProfile}
    {profileId : String} {localProfile : LocalProfile} {query : DownloadQuery} {period : DateTimePeriod}
    (hload : load profileId = .ok localProfile) (hdated : query.period = some period) :
    validateLiveSmokeGuard { readyEnv now with loadProfile := load } profileId true query true
      (some permitRef) scope = .ok true := by
  simp only [validateLiveSmokeGuard, checkPermit, hdated, hload]
  rfl

theorem spelledSubmit_submits {profileId : String}
    (hload : loadDownloadProfile sampleProfiles profileId = .ok ⟨"default", "AAA010101AAA"⟩) :
    ∃ query answer r, eventsSince ⟨.absent, []⟩ ((spelledSubmit profileId).run blankRuntime ⟨.absent, []⟩) =
      [.submitted query answer, .replaced r] := by
  obtain ⟨plan, hplan, -, hpending⟩ := @plan_ok blankRuntime sampleBackfill .absent [] rfl
  obtain ⟨query, hquery⟩ := sampleBackfill_queries
  have hall : (sampleBackfill.queries.filter fun q =>
      requestOf [] sampleBackfill.args.profileId (q.criteriaHash blankRuntime) = "") = [query] := by
    rw [hquery]
    rfl
  rw [hall] at hpending
  obtain ⟨window, rest, hwindows, rfl, -⟩ := List.map_eq_cons_iff.mp hpending
  have hmem : window.query ∈ sampleBackfill.queries := by
    rw [hquery]
    exact List.mem_singleton_self _
  obtain ⟨hrange, hpreflight⟩ := Backfill.range_ok hmem
  obtain ⟨period, -, hperiod⟩ := List.mem_map.mp hmem
  -- the options other than the profile are those of the sample
  obtain ⟨loaded, hloaded, -, hargs⟩ := sampleSubmit_own
  obtain rfl := Except.ok.inj hloaded
  have hplanned : submitPlan blankRuntime (spelledSubmit profileId).env (spelledSubmit profileId).options
      .absent = .ok (⟨"default", "AAA010101AAA"⟩, plan) := by
    have hprofile : (spelledSubmit profileId).env.loadProfile (spelledSubmit profileId).options.profile =
        .ok ⟨"default", "AAA010101AAA"⟩ := by
      rw [spelledSubmit_load, spelledSubmit_profile, hload]
    have hgate : backfillGate (spelledSubmit profileId).options = .ok () := rfl
    have hsame : planArgs (spelledSubmit profileId).options ⟨"default", "AAA010101AAA"⟩ =
      .ok sampleBackfill.args := hargs
    rw [submitPlan, hgate, Checked.ok_bind, hprofile, Checked.ok_bind, hsame, Checked.ok_bind, hplan]
    rfl
  have hguard : validateLiveSmokeGuard (spelledSubmit profileId).env (spelledSubmit profileId).options.profile
      true window.query true (some "permit-1") BACKFILL_SUBMIT_SCOPE = .ok true := by
    have hdated : window.query.period = some period := by
      rw [← hperiod]
      rfl
    exact loaded_guard 63842386800000000 "permit-1" BACKFILL_SUBMIT_SCOPE hload hdated
  have hclock : ((63842386800000000 : Instant).add? DEFAULT_VERIFY_MAX_AGE).isSome := by decide
  obtain ⟨r, hevents⟩ := @submits blankRuntime (spelledSubmit profileId) ⟨.absent, []⟩ _ _ _ _ []
    ⟨"SAT-REQ-1", "5000", "Solicitud Aceptada", .accepted⟩ hplanned hwindows
    ⟨true, by rw [hrange]; exact hguard⟩ hpreflight rfl ⟨rfl, rfl, by decide +kernel⟩ rfl hclock
  exact ⟨_, _, r, hevents⟩

/-- `" default "` is a spelling of `default`. -/
theorem blank_loads : loadDownloadProfile sampleProfiles " default " = .ok ⟨"default", "AAA010101AAA"⟩ := by
  decide +kernel

theorem default_loads : loadDownloadProfile sampleProfiles "default" = .ok ⟨"default", "AAA010101AAA"⟩ := by
  rw [← blank_loads]
  exact loadDownloadProfile_congr (by decide +kernel)

theorem spelling_iff_sample : ∃ query answer r, eventsSince ⟨.absent, []⟩
      ((spelledSubmit "default").run blankRuntime ⟨.absent, []⟩) = [.submitted query answer, .replaced r] ∧
    ∃ record, StoredIn ((spelledSubmit "default").run blankRuntime ⟨.absent, []⟩).file r.requestRef record ∧
      Belongs blankRuntime sampleProfiles ⟨"default", "AAA010101AAA"⟩ query
        ((spelledSubmit "default").run blankRuntime ⟨.absent, []⟩).file record "default" := by
  obtain ⟨query, answer, r, hevents⟩ := spelledSubmit_submits default_loads
  have hiff := @spelling_iff blankRuntime ⟨"default", "AAA010101AAA"⟩ query answer r "default" sampleProfiles
    (spelledSubmit "default") ⟨.absent, []⟩ (spelledSubmit_load _) .absent
    (by rw [spelledSubmit_profile, default_loads]) default_loads hevents
  exact ⟨query, answer, r, hevents, hiff.mpr ⟨spelledSubmit_profile _, rfl⟩ _ .refl⟩

/-- Submitted under `" default "`, the window stays open in the plan of the profile. -/
theorem blank_spelling_reopens : ¬ ∀ (rt : Runtime) (profiles : String → Except CliFault LocalProfile)
    (i : BackfillSubmit) (w : SubmitWorld) (localProfile : LocalProfile) (profileId : String)
    (query : DownloadQuery) (answer : Except CliFault SatRequestResult) (r : LiveMetadataRequestRecord),
    i.env.loadProfile = loadDownloadProfile profiles → Written rt w.file →
      loadDownloadProfile profiles i.options.profile = .ok localProfile →
      loadDownloadProfile profiles profileId = .ok localProfile →
      eventsSince w (i.run rt w) = [.submitted query answer, .replaced r] →
      ∀ later, Relation.ReflTransGen (Step rt) (i.run rt w).file later →
        ∃ record, StoredIn later r.requestRef record ∧
          Belongs rt profiles localProfile query later record profileId := by
  intro h
  obtain ⟨query, answer, r, hevents⟩ := spelledSubmit_submits blank_loads
  have hblank : loadDownloadProfile sampleProfiles (spelledSubmit " default ").options.profile =
      .ok ⟨"default", "AAA010101AAA"⟩ := by
    rw [spelledSubmit_profile, blank_loads]
  obtain ⟨record, -, hbelongs⟩ := h blankRuntime sampleProfiles (spelledSubmit " default ") ⟨.absent, []⟩
    ⟨"default", "AAA010101AAA"⟩ "default" query answer r (spelledSubmit_load _) .absent hblank default_loads
    hevents _ .refl
  have hdiffers : (spelledSubmit " default ").options.profile ≠ "default" := by
    rw [spelledSubmit_profile]
    decide
  obtain ⟨args, plan, hargs, hplan, window, hwindow, hquery, hopen⟩ :=
    submitted_unmarked .absent (by rw [spelledSubmit_load, hblank]) hevents hdiffers
  exact hbelongs.marked args plan hargs hplan window hwindow hquery hopen

end Sample

end ProfileSpelling

end CfdiVault
