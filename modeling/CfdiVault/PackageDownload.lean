import CfdiVault.LiveCommands
import CfdiVault.SatContract

/-!
# The package download command

`sat package-download-smoke` downloads one package of a request that SAT has
finished.  It is admitted for a request in status `PACKAGE_READY`, and its first
success moves the request to `PACKAGE_DOWNLOADED`.

The request carries one status for all its packages.  So the success that moves it
closes the gate for the packages that are not downloaded yet, and reports as
downloaded a request of which one package was: `everyPackage_iff` says that the
packages of a request can all be downloaded exactly when there is at most one.
-/

namespace CfdiVault

open LiveRequestState LiveCommands

namespace PackageDownload

/-! ## The command -/

/-- What the processing of a package reports. -/
structure ProcessedPackage where
  size : Nat
  txtFiles : Nat
  acceptedCount : Nat
  rejectedCount : Nat
  deriving DecidableEq

/-- What an invocation does to the outside. -/
inductive PackageEvent where
  /-- SAT was asked for a package -/
  | asked (packageId : String)
  /-- the state file was replaced, by an upsert of `record` -/
  | replaced (record : LiveMetadataRequestRecord)

/-- The state file and the history of the invocations. -/
structure PackageWorld where
  file : StateFile
  trace : List PackageEvent := []

/-- The two parts of a download outside the command: the downloader, and the
processing of the content (extraction, storage and parsing of the TXT members).
Each may answer differently every time, and may end the command. -/
structure PackagePorts where
  download : List PackageEvent → String → Except CliFault SatDownloadResult
  process : List PackageEvent → String → Bytes → Except CliFault ProcessedPackage

/-- The options of `sat package-download-smoke`. -/
structure PackageDownloadOptions where
  profile : String := "default"
  requestRef : String
  packageRef : String
  manualRealSat : Bool := false
  permit : Option String := none

/-- Redacted one-package download result. -/
structure PackageDownloadCliResult where
  requestRef : String
  packageRef : String
  requestStatusBefore : String
  downloadResult : String
  satCode : String
  messageRedacted : String
  packageSizeBytes : Nat := 0
  zipValid : Bool := false
  txtFiles : Nat := 0
  metadataAcceptedCount : Nat := 0
  metadataRejectedCount : Nat := 0
  statusAfter : String
  deriving DecidableEq

abbrev PackageProg := Prog PackageWorld CliFault

/-- `_deny_package_download` -/
def denyPackageDownload (reason : String) : CliFault := .exit "package_download_denied" [reason]

/-- A failure of the state file after the download, where the command also catches
`ValueError`. -/
def parseFault (rt : Runtime) : StateFault → CliFault
  | .liveRequest reason => .exit "metadata_parse_failed" [safeErrorReason rt reason]
  | .overflow => .raised "OverflowError"
  | .unicode => .exit "metadata_parse_failed" []

section Command

variable (rt : Runtime) (env : LiveEnv) (ports : PackagePorts)

/-- `_resolve_package_id` -/
def resolvePackageId (record : LiveMetadataRequestRecord) (packageRef : String) :
    Except CliFault String :=
  let requested := Text.strip packageRef
  if requested = "" then .error (denyPackageDownload "package-ref-required")
  else
    match record.packageIds.find? fun packageId => redactPackageRef rt packageId = requested with
    | some packageId => .ok packageId
    | none => .error (denyPackageDownload "package-ref-not-found")

/-- Ask SAT for a package. -/
def askDownloader (packageId : String) : PackageProg SatDownloadResult := do
  let w ← get
  set ({ w with trace := w.trace ++ [.asked packageId] } : PackageWorld)
  Prog.ofExcept (ports.download w.trace packageId)

/-- Process the content of a package. -/
def processPackage (packageId : String) (content : Bytes) : PackageProg ProcessedPackage := do
  let w ← get
  Prog.ofExcept (ports.process w.trace packageId content)

/-- `upsert_live_metadata_request` -/
def storeRecord (record : LiveMetadataRequestRecord) : PackageProg Unit := do
  let w ← get
  let file ← Prog.ofExcept ((upsertLive record w.file).mapError (parseFault rt))
  set ({ file := file, trace := w.trace ++ [.replaced record] } : PackageWorld)

/-- The content of a download that succeeded. -/
def finishedContent (download : SatDownloadResult) : Option Bytes :=
  if download.action = .finished then download.content else none

/-- The record of a request one package of which was downloaded. -/
def markDownloaded (now : Instant) (record : LiveMetadataRequestRecord) :
    LiveMetadataRequestRecord :=
  { record with status := PACKAGE_DOWNLOADED, updatedAt := formatInstant now }

/-- The result of a download without content. -/
def emptyResult (record : LiveMetadataRequestRecord) (packageRef : String)
    (download : SatDownloadResult) : PackageDownloadCliResult where
  requestRef := record.requestRef
  packageRef := packageRef
  requestStatusBefore := record.status
  downloadResult := download.action.value
  satCode := download.satCode
  messageRedacted := safeErrorReason rt download.message
  statusAfter := record.status

/-- `_run_live_package_download_smoke` -/
def runLivePackageDownloadSmoke (profileId : String) (record : LiveMetadataRequestRecord)
    (packageId packageRef : String) : PackageProg PackageDownloadCliResult := do
  let _ ← Prog.ofExcept (env.loadProfile profileId)
  let download ← askDownloader ports packageId
  match finishedContent download with
  | none => pure (emptyResult rt record packageRef download)
  | some content => do
      let processed ← processPackage ports packageId content
      let updated := markDownloaded (env.clock 0) record
      storeRecord rt updated
      pure {
        emptyResult rt record packageRef download with
        packageSizeBytes := processed.size
        zipValid := true
        txtFiles := processed.txtFiles
        metadataAcceptedCount := processed.acceptedCount
        metadataRejectedCount := processed.rejectedCount
        statusAfter := updated.status }

/-- The command from the resolution of the package on. -/
def downloadResolved (options : PackageDownloadOptions) (localProfile : LocalProfile)
    (record : LiveMetadataRequestRecord) : PackageProg PackageDownloadCliResult := do
  let packageId ← Prog.ofExcept (resolvePackageId rt record options.packageRef)
  let query ← Prog.ofExcept (queryFromLiveRequestRecord localProfile.rfc record)
  let _ ← Prog.ofExcept (validateLiveSmokeGuard env options.profile options.manualRealSat query
    (isBackfillSubmitRange query) options.permit PACKAGE_DOWNLOAD_SCOPE)
  runLivePackageDownloadSmoke rt env ports options.profile record packageId options.packageRef

/-- `sat_package_download_smoke` -/
def satPackageDownloadSmoke (options : PackageDownloadOptions) :
    PackageProg PackageDownloadCliResult := do
  Prog.raiseIf (options.manualRealSat = false) (denyPackageDownload "manual-real-sat-required")
  Prog.raiseIf (options.permit = none) (denyPackageDownload "permit-required-for-live")
  let localProfile ← Prog.ofExcept (env.loadProfile options.profile)
  let w ← get
  let record ← Prog.ofExcept
    ((loadLive w.file options.requestRef).mapError (stateFault "request_state_not_found"))
  Prog.raiseIf (record.profileId ≠ options.profile)
    (denyPackageDownload "request-state-profile-mismatch")
  Prog.raiseIf (record.status ≠ PACKAGE_READY) (denyPackageDownload "request-not-package-ready")
  downloadResolved rt env ports options localProfile record

end Command

/-! ## Sequences of downloads -/

/-- One invocation of the command. -/
structure Invocation where
  env : LiveEnv
  ports : PackagePorts
  options : PackageDownloadOptions

/-- The world after an invocation, however it ends. -/
def Invocation.run (rt : Runtime) (w : PackageWorld) (i : Invocation) : PackageWorld :=
  ((satPackageDownloadSmoke rt i.env i.ports i.options).exec w).2

/-- A package and the invocation that is to download it. -/
abbrev Download := String × Invocation

/-- The world after downloads in the given order. -/
def runDownloads (rt : Runtime) (w : PackageWorld) (order : List Download) : PackageWorld :=
  order.foldl (fun w d => d.2.run rt w) w

/-- The packages that SAT was asked for between two worlds. -/
def askedSince (w w' : PackageWorld) : List String :=
  (w'.trace.drop w.trace.length).filterMap fun event =>
    match event with
    | .asked packageId => some packageId
    | .replaced _ => none

@[simp] theorem askedSince_self (w : PackageWorld) : askedSince w w = [] := by
  simp [askedSince]

/-- The stored query of a request can be rebuilt, over a range that the guard admits. -/
def Followable (record : LiveMetadataRequestRecord) : Prop :=
  ∃ query, queryFromLiveRequestRecord "" record = .ok query ∧ isBackfillSubmitRange query = true

/-- What the operator and the world provide for the download of `packageId`: the
options of the command, a local profile, a guard that passes for a query of
admissible range, and a download and a processing that succeed. -/
structure Prepared (rt : Runtime) (record : LiveMetadataRequestRecord) (packageId : String)
    (i : Invocation) : Prop where
  manual : i.options.manualRealSat = true
  permit : i.options.permit ≠ none
  profile : i.options.profile = record.profileId
  named : record.requestRef ≠ ""
  request : Text.strip i.options.requestRef = record.requestRef
  package : i.options.packageRef = redactPackageRef rt packageId
  loads : ∃ localProfile, i.env.loadProfile i.options.profile = .ok localProfile
  guard : ∀ rfc query, queryFromLiveRequestRecord rfc record = .ok query →
    ∃ verified, validateLiveSmokeGuard i.env i.options.profile i.options.manualRealSat query true
      i.options.permit PACKAGE_DOWNLOAD_SCOPE = .ok verified
  succeeds : ∀ past id, ∃ download content, i.ports.download past id = .ok download ∧
    finishedContent download = some content ∧
      ∀ later, ∃ processed, i.ports.process later id content = .ok processed

/-- Each package is asked for when its turn comes, and the request counts as
downloaded only when every package was asked for. -/
structure EveryPackage (rt : Runtime) (w : PackageWorld) (record : LiveMetadataRequestRecord)
    (order : List Download) : Prop where
  admitted : ∀ done next rest, order = done ++ next :: rest →
    next.1 ∈ askedSince (runDownloads rt w done) (runDownloads rt w (done ++ [next]))
  complete : ∀ done rest, order = done ++ rest → ∀ r,
    StoredIn (runDownloads rt w done).file record.requestRef r → r.status = PACKAGE_DOWNLOADED →
      ∀ packageId ∈ record.packageIds, packageId ∈ askedSince w (runDownloads rt w done)

section Steps

variable {rt : Runtime} {w : PackageWorld} {record : LiveMetadataRequestRecord} {i : Invocation}
  {packageId : String}

/-- The guard never passes for a range outside the limit. -/
theorem guard_range {env : LiveEnv} {profileId scope : String} {manual : Bool}
    {query : DownloadQuery} {permit : Option String} {verified : Bool} :
    validateLiveSmokeGuard env profileId manual query false permit scope ≠ .ok verified := by
  intro h
  obtain ⟨localProfile, -, h⟩ := Checked.bind_eq_ok.mp h
  obtain ⟨permitted, -, h⟩ := Checked.bind_eq_ok.mp h
  obtain ⟨checked, hguard, -⟩ := Checked.bind_eq_ok.mp h
  unfold validateLiveSatGuard at hguard
  split at hguard
  · next hnone =>
      simp only [guardReasons, List.append_eq_nil_iff] at hnone
      exact absurd hnone.2 (by simp)
  · cases hguard

/-- The rebuilt period does not depend on the requester. -/
theorem query_of_record {rfc rfc' : String} {query : DownloadQuery}
    (h : queryFromLiveRequestRecord rfc record = .ok query) :
    ∃ query', queryFromLiveRequestRecord rfc' record = .ok query' ∧
      isBackfillSubmitRange query' = isBackfillSubmitRange query := by
  unfold queryFromLiveRequestRecord at h ⊢
  cases hparts : queryParts? record with
  | none =>
      rw [hparts] at h
      cases h
  | some parts =>
      obtain ⟨start, «end», direction, requestType⟩ := parts
      rw [hparts] at h
      dsimp only at h ⊢
      by_cases hordered : DateTime.orderedAfter? «end» start = some true
      · rw [dif_pos hordered] at h ⊢
        cases h
        exact ⟨_, rfl, rfl⟩
      · rw [dif_neg hordered] at h
        cases h

/-- A rebuilt query has a period. -/
theorem query_period {rfc : String} {query : DownloadQuery}
    (h : queryFromLiveRequestRecord rfc record = .ok query) : ∃ period, query.period = some period := by
  unfold queryFromLiveRequestRecord at h
  split at h
  · cases h
  · split at h
    · cases h
      exact ⟨_, rfl⟩
    · cases h

/-- A prepared invocation on a ready request gets as far as the package. -/
theorem Prepared.reaches (h : Prepared rt record packageId i)
    (hstored : StoredIn w.file record.requestRef record)
    (hready : record.status = PACKAGE_READY) :
    ∃ localProfile, i.env.loadProfile i.options.profile = .ok localProfile ∧
      (satPackageDownloadSmoke rt i.env i.ports i.options).exec w =
        (downloadResolved rt i.env i.ports i.options localProfile record).exec w := by
  obtain ⟨localProfile, hprofile⟩ := h.loads
  have hload : (loadLive w.file i.options.requestRef).mapError
      (stateFault "request_state_not_found") = .ok record := by
    rw [StoredIn.load (by rw [h.request]; exact hstored) (by rw [h.request]; exact h.named)]
    rfl
  refine ⟨localProfile, hprofile, ?_⟩
  rw [satPackageDownloadSmoke,
    Prog.exec_bind_ok (Prog.exec_raiseIf_neg (by rw [h.manual]; decide) _ w),
    Prog.exec_bind_ok (Prog.exec_raiseIf_neg h.permit _ w), hprofile,
    Prog.exec_bind_ok (Prog.exec_ofExcept _ w), Prog.exec_bind_ok (Prog.exec_get w), hload,
    Prog.exec_bind_ok (Prog.exec_ofExcept _ w),
    Prog.exec_bind_ok (Prog.exec_raiseIf_neg (fun hne => hne h.profile.symm) _ w),
    Prog.exec_bind_ok (Prog.exec_raiseIf_neg (fun hne => hne hready) _ w)]

theorem markDownloaded_normal (now : Instant) (h : Normal record) : Normal (markDownloaded now record) := by
  refine ⟨?_, h.expiresAt, fun hempty => absurd hempty (formatInstant_ne_empty _), ?_⟩
  · show normalizeStatus PACKAGE_DOWNLOADED = PACKAGE_DOWNLOADED
    decide +kernel
  · intro hpending
    exact absurd hpending (show PACKAGE_DOWNLOADED ∉ PENDING_VERIFY_STATUSES by decide +kernel)

/-- A download that succeeds moves the request to downloaded. -/
theorem exec_runLive (h : Prepared rt record packageId i)
    (hstored : StoredIn w.file record.requestRef record) (id packageRef : String) :
    ∃ w' r, ((runLivePackageDownloadSmoke rt i.env i.ports i.options.profile record id
        packageRef).exec w).2 = w' ∧ askedSince w w' = [id] ∧
      StoredIn w'.file record.requestRef r ∧ r.status = PACKAGE_DOWNLOADED := by
  obtain ⟨localProfile, hprofile⟩ := h.loads
  obtain ⟨download, content, hdownload, hcontent, hprocess⟩ := h.succeeds w.trace id
  obtain ⟨processed, hprocessed⟩ := hprocess (w.trace ++ [.asked id])
  obtain ⟨file, hfile, hstored'⟩ := hstored.upsert (markDownloaded_normal (i.env.clock 0) hstored.normal) rfl
  have hasked : (askDownloader i.ports id).exec w =
      (.ok download, { w with trace := w.trace ++ [.asked id] }) := by
    rw [askDownloader, Prog.exec_bind_ok (Prog.exec_get w), Prog.exec_bind_ok (Prog.exec_set _ w),
      Prog.exec_ofExcept, hdownload]
  have hprocess' : (processPackage i.ports id content).exec
      { w with trace := w.trace ++ [.asked id] } =
        (.ok processed, { w with trace := w.trace ++ [.asked id] }) := by
    rw [processPackage, Prog.exec_bind_ok (Prog.exec_get _), hprocessed, Prog.exec_ofExcept]
  have hstore : (storeRecord rt (markDownloaded (i.env.clock 0) record)).exec
      { w with trace := w.trace ++ [.asked id] } = (.ok (), ⟨file, w.trace ++ [.asked id] ++
        [.replaced (markDownloaded (i.env.clock 0) record)]⟩) := by
    rw [storeRecord, Prog.exec_bind_ok (Prog.exec_get _), hfile]
    rfl
  refine ⟨⟨file, w.trace ++ [.asked id] ++ [.replaced (markDownloaded (i.env.clock 0) record)]⟩,
    markDownloaded (i.env.clock 0) record, ?_, ?_, hstored', rfl⟩
  · rw [runLivePackageDownloadSmoke, hprofile, Prog.exec_bind_ok (Prog.exec_ofExcept _ w),
      Prog.exec_bind_ok hasked, hcontent]
    dsimp only
    rw [Prog.exec_bind_ok hprocess', Prog.exec_bind_ok hstore]
    rfl
  · simp [askedSince]

/-- Without a package to resolve or a followable query nothing is asked. -/
theorem Prepared.asked (h : Prepared rt record packageId i)
    (hstored : StoredIn w.file record.requestRef record)
    (hready : record.status = PACKAGE_READY)
    (hasked : packageId ∈ askedSince w (i.run rt w)) :
    resolvePackageId rt record (redactPackageRef rt packageId) = .ok packageId ∧
      Followable record := by
  obtain ⟨localProfile, -, hexec⟩ := h.reaches hstored hready
  rw [Invocation.run, hexec, downloadResolved, h.package] at hasked
  cases hresolve : resolvePackageId rt record (redactPackageRef rt packageId) with
  | error fault =>
      rw [hresolve, Prog.exec_bind_error (Prog.exec_ofExcept _ w), askedSince_self] at hasked
      cases hasked
  | ok id =>
      rw [hresolve, Prog.exec_bind_ok (Prog.exec_ofExcept _ w)] at hasked
      cases hquery : queryFromLiveRequestRecord localProfile.rfc record with
      | error fault =>
          rw [hquery, Prog.exec_bind_error (Prog.exec_ofExcept _ w), askedSince_self] at hasked
          cases hasked
      | ok query =>
          rw [hquery, Prog.exec_bind_ok (Prog.exec_ofExcept _ w)] at hasked
          cases hguard : validateLiveSmokeGuard i.env i.options.profile i.options.manualRealSat
              query (isBackfillSubmitRange query) i.options.permit PACKAGE_DOWNLOAD_SCOPE with
          | error fault =>
              rw [hguard, Prog.exec_bind_error (Prog.exec_ofExcept _ w), askedSince_self] at hasked
              cases hasked
          | ok verified =>
              rw [hguard, Prog.exec_bind_ok (Prog.exec_ofExcept _ w)] at hasked
              obtain ⟨w', r, hrun, hids, -⟩ :=
                exec_runLive h hstored id (redactPackageRef rt packageId)
              rw [hrun, hids] at hasked
              refine ⟨by rw [List.mem_singleton.mp hasked], ?_⟩
              have hrange : isBackfillSubmitRange query = true := by
                cases hout : isBackfillSubmitRange query with
                | true => rfl
                | false =>
                    rw [hout] at hguard
                    exact absurd hguard guard_range
              obtain ⟨query', hquery', hsame⟩ := @query_of_record _ _ "" _ hquery
              exact ⟨query', hquery', by rw [hsame, hrange]⟩

/-- A prepared download of a package that resolves is made. -/
theorem Prepared.downloads (h : Prepared rt record packageId i)
    (hstored : StoredIn w.file record.requestRef record)
    (hready : record.status = PACKAGE_READY)
    (hresolve : resolvePackageId rt record (redactPackageRef rt packageId) = .ok packageId)
    (hfollow : Followable record) :
    askedSince w (i.run rt w) = [packageId] ∧
      ∃ r, StoredIn (i.run rt w).file record.requestRef r ∧ r.status = PACKAGE_DOWNLOADED := by
  obtain ⟨localProfile, -, hexec⟩ := h.reaches hstored hready
  obtain ⟨query₀, hquery₀, hrange₀⟩ := hfollow
  obtain ⟨query, hquery, hrange⟩ := @query_of_record _ _ localProfile.rfc _ hquery₀
  obtain ⟨verified, hguard⟩ := h.guard _ query hquery
  rw [← hrange₀, ← hrange] at hguard
  obtain ⟨w', r, hrun, hids, hr, hstatus⟩ :=
    exec_runLive h hstored packageId (redactPackageRef rt packageId)
  have hworld : i.run rt w = w' := by
    rw [Invocation.run, hexec, downloadResolved, h.package, hresolve,
      Prog.exec_bind_ok (Prog.exec_ofExcept _ w), hquery,
      Prog.exec_bind_ok (Prog.exec_ofExcept _ w), hguard,
      Prog.exec_bind_ok (Prog.exec_ofExcept _ w), hrun]
  rw [hworld]
  exact ⟨hids, r, hr, hstatus⟩

/-- The only package of a request resolves exactly when its id is not blank. -/
theorem resolve_single (hone : record.packageIds = [packageId]) :
    resolvePackageId rt record (redactPackageRef rt packageId) = .ok packageId ↔
      Text.strip packageId ≠ "" := by
  constructor
  · intro hresolve hblank
    have hempty : redactPackageRef rt packageId = "" := by
      rw [redactPackageRef, if_pos hblank]
    rw [resolvePackageId, hempty, if_pos Text.strip_empty] at hresolve
    cases hresolve
  · intro hid
    obtain ⟨hstrip, hne⟩ := @redactPackageRef_strip rt _ hid
    rw [resolvePackageId, hstrip, if_neg hne, hone, List.find?_cons_of_pos (by simp)]

end Steps

section Orders

variable {rt : Runtime} {w : PackageWorld} {record : LiveMetadataRequestRecord}
  {order : List Download}

/-- If every package is admitted, the first download is one of the only package. -/
theorem EveryPackage.first {d : Download} {rest : List Download}
    (h : EveryPackage rt w record (d :: rest)) (hprepared : Prepared rt record d.1 d.2)
    (hstored : StoredIn w.file record.requestRef record) (hready : record.status = PACKAGE_READY) :
    Followable record ∧
      resolvePackageId rt record (redactPackageRef rt d.1) = .ok d.1 ∧
      ∀ packageId ∈ record.packageIds, packageId = d.1 := by
  have hasked : d.1 ∈ askedSince w (d.2.run rt w) := h.admitted [] d rest rfl
  obtain ⟨hresolve, hfollow⟩ := hprepared.asked hstored hready hasked
  obtain ⟨hids, r, hr, hstatus⟩ := hprepared.downloads hstored hready hresolve hfollow
  refine ⟨hfollow, hresolve, fun packageId hmem => ?_⟩
  have hcomplete : packageId ∈ askedSince w (d.2.run rt w) :=
    h.complete [d] rest rfl r hr hstatus packageId hmem
  rw [hids] at hcomplete
  exact List.mem_singleton.mp hcomplete

/-- The only package of a request, once asked for, was every package. -/
theorem everyPackage_single {d : Download} (hstored : StoredIn w.file record.requestRef record)
    (hready : record.status = PACKAGE_READY) (hone : record.packageIds = [d.1])
    (hmade : d.1 ∈ askedSince w (d.2.run rt w)) : EveryPackage rt w record [d] where
  admitted := by
    intro done next rest hsplit
    cases done with
    | nil =>
        obtain ⟨rfl, -⟩ := List.cons.inj hsplit
        exact hmade
    | cons _ more => exact absurd (List.cons.inj hsplit).2 (by simp)
  complete := by
    intro done rest hsplit r hr hstatus packageId hmem
    cases done with
    | nil =>
        rw [hr.unique hstored, hready] at hstatus
        exact absurd hstatus (show PACKAGE_READY ≠ PACKAGE_DOWNLOADED by decide)
    | cons _ more =>
        obtain ⟨rfl, hrest⟩ := List.cons.inj hsplit
        obtain ⟨rfl, -⟩ := List.append_eq_nil_iff.mp hrest.symm
        rw [hone] at hmem
        rw [List.mem_singleton.mp hmem]
        exact hmade

/-- The packages of a ready request can all be downloaded, one invocation each and in
any order, exactly when there is none, or one with a reference and the stored query
of the request can be followed. -/
theorem everyPackage_iff (hstored : StoredIn w.file record.requestRef record)
    (hready : record.status = PACKAGE_READY) (hdistinct : record.packageIds.Nodup)
    (horder : (order.map Prod.fst).Perm record.packageIds)
    (hprepared : ∀ d ∈ order, Prepared rt record d.1 d.2) :
    EveryPackage rt w record order ↔ record.packageIds = [] ∨
      (∃ packageId, record.packageIds = [packageId] ∧ Text.strip packageId ≠ "") ∧
        Followable record := by
  cases order with
  | nil =>
      have hnone : record.packageIds = [] := List.nil_perm.mp horder
      refine iff_of_true ⟨?_, ?_⟩ (Or.inl hnone)
      · intro done next rest hsplit
        exact absurd (congrArg List.length hsplit) (by simp)
      · intro done rest _ r _ _ packageId hmem
        rw [hnone] at hmem
        cases hmem
  | cons d rest =>
      have hd := hprepared d List.mem_cons_self
      constructor
      · intro h
        obtain ⟨hfollow, hresolve, hall⟩ := h.first hd hstored hready
        have hone : record.packageIds = [d.1] := by
          cases hids : record.packageIds with
          | nil =>
              rw [hids] at horder
              cases horder.eq_nil
          | cons p more =>
              rw [hids] at hall hdistinct
              have hp := hall p List.mem_cons_self
              cases more with
              | nil => rw [hp]
              | cons q _ =>
                  have hq := hall q (List.mem_cons_of_mem p List.mem_cons_self)
                  rw [hp, hq] at hdistinct
                  exact absurd List.mem_cons_self (List.nodup_cons.mp hdistinct).1
        exact Or.inr ⟨⟨d.1, hone, (resolve_single hone).mp hresolve⟩, hfollow⟩
      · rintro (hnone | ⟨⟨packageId, hone, hid⟩, hfollow⟩)
        · rw [hnone] at horder
          cases horder.eq_nil
        · rw [hone] at horder
          obtain ⟨hfst, hrest⟩ := List.cons.inj (List.perm_singleton.mp horder)
          have hrest : rest = [] := List.map_eq_nil_iff.mp hrest
          subst hrest
          rw [← hfst] at hone hid
          obtain ⟨hids, -⟩ :=
            hd.downloads hstored hready ((resolve_single hone).mpr hid) hfollow
          have hmade : d.1 ∈ askedSince w (d.2.run rt w) := by
            rw [hids]
            exact List.mem_singleton_self d.1
          exact everyPackage_single hstored hready hone hmade

end Orders

/-! ## A request with two packages -/

section Sample

/-- A host whose digests are those of SHA-256 on the two package ids. -/
def sampleRuntime : Runtime where
  sha256Text s :=
    if s = "PKG-1" then 0x7766f9142903a13f8d6a0d4c523a1bfe43139841154d877aa8609d73b9102e2f
    else 0x1ba309f9c0ca97730e626954a69c54b2b6c036193f302c38a649a718db18b0bb
  sha256Bytes _ := 0
  upper := id
  lower := Text.lower
  alnum c := c.isAlphanum

/-- A finished request for one day of metadata, with two packages. -/
def sampleRecord : LiveMetadataRequestRecord where
  requestRef := "req-bbd1681d70ed-311363f5c6b0"
  profileId := "default"
  direction := "received"
  kind := "metadata"
  operation := "SolicitaDescargaRecibidos"
  fechaInicial := "2024-01-01T00:00:00Z"
  fechaFinal := "2024-01-01T23:59:59Z"
  criteriaHash := "bbd1681d70edf1ce54b38241ab4b08d81d3d3470714e45419516ef0ca6f1e0c4"
  idSolicitud := "SAT-REQ-1"
  idSolicitudRedacted := "SAT-...EQ-1"
  satCode := "5000"
  satMessage := "Solicitud Aceptada"
  createdAt := "2024-02-01T12:00:00Z"
  live := true
  sourceCommand := "metadata-request-smoke"
  permitIdHash := ""
  status := PACKAGE_READY
  attemptCount := 1
  numeroCfdis := 2
  packageIds := ["PKG-1", "PKG-2"]
  packageRefsRedacted := ["pkg-7766f9142903", "pkg-1ba309f9c0ca"]
  updatedAt := "2024-02-01T12:10:00Z"
  expiresAt := "2024-02-04T12:00:00Z"

/-- Downloads and processing that succeed. -/
def samplePorts : PackagePorts where
  download _ packageId := .ok {
    packageId := packageId
    satCode := "5000"
    message := "Solicitud Aceptada"
    action := .finished
    content := some [0x50, 0x4B] }
  process _ _ content := .ok ⟨content.length, 1, 1, 0⟩

/-- The download of one package of the request. -/
def sampleDownload (packageId : String) : Download :=
  (packageId, {
    env := readyEnv 63842386800000000
    ports := samplePorts
    options := {
      requestRef := sampleRecord.requestRef
      packageRef := redactPackageRef sampleRuntime packageId
      manualRealSat := true
      permit := some "permit-1" } })

def sampleWorld : PackageWorld where
  file := writeState [sampleRecord]

theorem sampleRecord_stored :
    StoredIn sampleWorld.file sampleRecord.requestRef sampleRecord := by
  have hnormal : Normal sampleRecord := by
    refine ⟨by decide +kernel, by decide, fun h => absurd h (by decide), fun h => ?_⟩
    exact absurd h (show PACKAGE_READY ∉ PENDING_VERIFY_STATUSES by decide +kernel)
  exact ⟨_, listLive_writeState fun r hr => (List.mem_singleton.mp hr) ▸ hnormal,
    List.filter_cons_of_pos (by simp)⟩

theorem sampleDownload_prepared (packageId : String) :
    Prepared sampleRuntime sampleRecord packageId (sampleDownload packageId).2 where
  manual := rfl
  permit := Option.some_ne_none _
  profile := rfl
  named := by decide
  request := show Text.strip sampleRecord.requestRef = sampleRecord.requestRef by decide +kernel
  package := rfl
  loads := ⟨_, rfl⟩
  guard := by
    intro rfc query hquery
    obtain ⟨period, hperiod⟩ := query_period hquery
    exact ⟨true, readyEnv_guard _ _ _ _ hperiod⟩
  succeeds := fun past id => ⟨_, _, rfl, rfl, fun later => ⟨_, rfl⟩⟩

theorem everyPackage_iff_sample :
    EveryPackage sampleRuntime sampleWorld sampleRecord
        [sampleDownload "PKG-2", sampleDownload "PKG-1"] ↔ sampleRecord.packageIds = [] ∨
      (∃ packageId, sampleRecord.packageIds = [packageId] ∧ Text.strip packageId ≠ "") ∧
        Followable sampleRecord :=
  everyPackage_iff sampleRecord_stored rfl (by decide) (by decide) (by
    intro d hd
    rcases List.mem_cons.mp hd with rfl | hd
    · exact sampleDownload_prepared "PKG-2"
    · rw [List.mem_singleton.mp hd]
      exact sampleDownload_prepared "PKG-1")

/-- Of two packages of a ready request only one can be downloaded. -/
theorem two_packages_fail :
    sampleRecord.status = PACKAGE_READY ∧
      StoredIn sampleWorld.file sampleRecord.requestRef sampleRecord ∧
      (∀ packageId, Prepared sampleRuntime sampleRecord packageId (sampleDownload packageId).2) ∧
      ¬ EveryPackage sampleRuntime sampleWorld sampleRecord
        [sampleDownload "PKG-1", sampleDownload "PKG-2"] := by
  refine ⟨rfl, sampleRecord_stored, sampleDownload_prepared, fun h => ?_⟩
  obtain ⟨-, -, hall⟩ := h.first (sampleDownload_prepared "PKG-1") sampleRecord_stored rfl
  exact absurd (hall "PKG-2" (List.mem_cons_of_mem _ List.mem_cons_self))
    (show "PKG-2" ≠ "PKG-1" by decide)

end Sample

end PackageDownload

end CfdiVault
