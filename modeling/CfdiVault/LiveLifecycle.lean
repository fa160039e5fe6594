import CfdiVault.Library.KeyedEvolution
import CfdiVault.AsyncVerifyPackages
import CfdiVault.ProfileSpelling

/-!
# The life of a live request

Four commands write the file of the live requests.  `sat metadata-request-smoke` and `sat backfill submit`
register what SAT has answered, `sat verify-due` follows the requests up, and `sat package-download-smoke`
marks one as downloaded.  `requests_follow` says what any sequence of them makes of a file.  Either the file
is as it was, or it could be listed, and still can: no request disappears, requests that were listed apart
stay apart, and every record stems from a listed one, or from a registration, by an advance.

An advance keeps the registration and never takes attempts back.  It leaves a record alone once it is
neither pending nor ready, and of a ready record it can only say that it was downloaded.  So a request
whose verification is over stays as it is until it is registered again (`settled_stays`), and a file that
only the commands have written lists a request of SAT at most once (`listed_once`).
-/

namespace CfdiVault

open LiveRequestState LiveCommands LiveSubmit AsyncVerify PackageDownload ProfileSpelling

namespace LiveLifecycle

/-! ## What a record may become -/

/-- A record without what verifications and downloads write. -/
def registration (r : LiveMetadataRequestRecord) : LiveMetadataRequestRecord :=
  { r with
    status := ""
    attemptCount := 0
    nextCheckAt := ""
    lastCheckedAt := ""
    lastErrorKind := ""
    lastHttpStatus := none
    satEstadoSolicitud := ""
    satCodigoEstado := ""
    numeroCfdis := 0
    packageIds := []
    packageRefsRedacted := []
    updatedAt := "" }

/-- `s` may have become of `r`. -/
structure Advances (r s : LiveMetadataRequestRecord) : Prop where
  registered : registration s = registration r
  attempts : r.attemptCount ≤ s.attemptCount
  settled : r.status ∉ PENDING_VERIFY_STATUSES → r.status ≠ PACKAGE_READY → s = r
  ready : r.status = PACKAGE_READY → s = r ∨ ∃ now, s = markDownloaded now r

theorem downloaded_not_pending : PACKAGE_DOWNLOADED ∉ PENDING_VERIFY_STATUSES := by decide +kernel

namespace Advances

variable {r s t : LiveMetadataRequestRecord}

theorem refl (r : LiveMetadataRequestRecord) : Advances r r where
  registered := rfl
  attempts := le_rfl
  settled := fun _ _ => rfl
  ready := fun _ => .inl rfl

theorem trans (h : Advances r s) (h' : Advances s t) : Advances r t where
  registered := h'.registered.trans h.registered
  attempts := h.attempts.trans h'.attempts
  settled := by
    intro hpending hready
    obtain rfl := h.settled hpending hready
    exact h'.settled hpending hready
  ready := by
    intro hready
    rcases h.ready hready with rfl | ⟨now, rfl⟩
    · exact h'.ready hready
    -- what was downloaded is settled
    · exact .inr ⟨now, h'.settled downloaded_not_pending (show PACKAGE_DOWNLOADED ≠ PACKAGE_READY by decide)⟩

/-- A pending record is free, but for its registration and its attempts. -/
theorem of_pending (hpending : r.status ∈ PENDING_VERIFY_STATUSES) (hregistered : registration s = registration r)
    (hattempts : r.attemptCount ≤ s.attemptCount) : Advances r s where
  registered := hregistered
  attempts := hattempts
  settled := fun hsettled => absurd hpending hsettled
  ready := fun hready => absurd (hready ▸ hpending) ready_not_pending

theorem downloaded (hready : r.status = PACKAGE_READY) (now : Instant) : Advances r (markDownloaded now r) where
  registered := rfl
  attempts := le_rfl
  settled := fun _ hne => absurd hready hne
  ready := fun _ => .inr ⟨now, rfl⟩

end Advances

/-- A record as it is registered for what SAT has answered to a request. -/
def Registered (rt : Runtime) (r : LiveMetadataRequestRecord) : Prop :=
  ∃ (env : LiveEnv) (ports : SubmitPorts) (args : RequestSmokeArgs) (trace : List SubmitEvent)
    (result : SatRequestResult), ports.send trace args.query = .ok result ∧
      persistedRecord rt (persistArgs env args (requestSummary args.query result)) = .ok r

/-- Two records with one registration are of one request. -/
theorem same_request {r s : LiveMetadataRequestRecord} (hsame : registration s = registration r) :
    s.requestRef = r.requestRef ∧ s.profileId = r.profileId ∧ s.criteriaHash = r.criteriaHash ∧
      s.idSolicitud = r.idSolicitud := by
  have hfield : ∀ field : LiveMetadataRequestRecord → String,
      field (registration s) = field (registration r) := fun field => congrArg field hsame
  exact ⟨hfield (·.requestRef), hfield (·.profileId), hfield (·.criteriaHash), hfield (·.idSolicitud)⟩

/-- The reference of a registered request comes from its profile, its criteria and the id that SAT gave it. -/
theorem Registered.requestRef {rt : Runtime} {r s : LiveMetadataRequestRecord} (h : Registered rt r)
    (hsame : registration s = registration r) :
    s.requestRef = requestRefOf rt s.profileId s.criteriaHash s.idSolicitud := by
  obtain ⟨env, ports, args, trace, result, -, hrecord⟩ := h
  obtain ⟨-, -, -, hid, hprofile, hcriteria⟩ := persistedRecord_fresh hrecord
  obtain ⟨href, hprofile', hcriteria', hid'⟩ := same_request hsame
  rw [href, hprofile', hcriteria', hid', (persistedRecord_fields hrecord).1, hid, hprofile, hcriteria]

/-- What the commands make of a list of records. -/
abbrev Evolves (rt : Runtime) (rs rs' : List LiveMetadataRequestRecord) : Prop :=
  Keyed.Evolves LiveMetadataRequestRecord.requestRef Advances (Registered rt) rs rs'

/-- The file is as it was, or lists what has become of the records it listed. -/
def Follows (rt : Runtime) (file after : StateFile) : Prop :=
  after = file ∨ ∃ rs rs', listLive file = .ok rs ∧ listLive after = .ok rs' ∧ Evolves rt rs rs'

namespace Follows

variable {rt : Runtime} {file middle after : StateFile} {rs : List LiveMetadataRequestRecord}
  {r record : LiveMetadataRequestRecord}

theorem trans (h : Follows rt file middle) (h' : Follows rt middle after) : Follows rt file after := by
  rcases h with rfl | ⟨rs, listed, hlist, hlisted, hfirst⟩
  · exact h'
  · rcases h' with rfl | ⟨listed', rs', hlisted', hlast, hothers⟩
    · exact .inr ⟨rs, listed, hlist, hlisted, hfirst⟩
    · cases hlisted.symm.trans hlisted'
      exact .inr ⟨rs, rs', hlist, hlast, hfirst.trans (fun _ _ _ => .trans) hothers⟩

/-- One upsert of what a listed record may become, or of a registration. -/
theorem upsert (hlist : listLive file = .ok rs) (hstart : r ∈ rs ∨ Registered rt r)
    (hkey : r.requestRef = record.requestRef) (hadvance : Advances r record) (hnormal : Normal record) :
    Follows rt file (writeState (insertRecord record rs)) := by
  have hrs : Evolves rt rs rs := .refl .refl
  exact .inr ⟨rs, _, hlist, listLive_upsert hlist hnormal, hrs.write sortByCreation_perm hstart hkey hadvance⟩

/-- A file that can be listed still can. -/
theorem lists (h : Follows rt file after) (hlist : listLive file = .ok rs) :
    ∃ rs', listLive after = .ok rs' ∧ Evolves rt rs rs' := by
  rcases h with rfl | ⟨listed, rs', hlisted, hlast, hevolves⟩
  · exact ⟨rs, hlist, .refl .refl⟩
  · cases hlist.symm.trans hlisted
    exact ⟨rs', hlast, hevolves⟩

end Follows

/-! ## Verifications -/

section Verification

variable {rt : Runtime} {policy : VerifyBackoffPolicy} {verifier : Verifier} {now : Instant}
  {past events : List VerifyEvent} {start rs rs' : List LiveMetadataRequestRecord}
  {r after : LiveMetadataRequestRecord}

theorem registration_recordResult {result : SatVerificationResult}
    (h : recordResult rt policy now r result = .ok after) : registration after = registration r := by
  rw [recordResult] at h
  dsimp only at h
  split_ifs at h
  all_goals first
    | cases h
      rfl
    | obtain ⟨next, -, h⟩ := Checked.bind_eq_ok.mp h
      cases Checked.pure_eq_ok.mp h
      rfl

/-- Whatever the verifier answers, the registration stays. -/
theorem registration_recordAnswer {answer : VerifierAnswer}
    (h : recordAnswer rt policy now r answer = .ok after) : registration after = registration r := by
  cases answer with
  | ok result => exact registration_recordResult h
  | error exc =>
      rw [recordAnswer, retryOrPermanent] at h
      dsimp only at h
      by_cases hmax : policy.maxAttempts ≤ r.attemptCount + 1
      · rw [if_pos hmax] at h
        cases h
        rfl
      · rw [if_neg hmax] at h
        obtain ⟨next, -, h⟩ := Checked.bind_eq_ok.mp h
        cases Checked.pure_eq_ok.mp h
        rfl

/-- One verification of a pending record of `start`. -/
theorem evolves_attempt {result : Except StateFault LiveMetadataRequestRecord} (h : Evolves rt start rs)
    (hr : r ∈ start) (hpending : r.status ∈ PENDING_VERIFY_STATUSES)
    (hattempt : Attempt rt policy verifier now past rs r events rs' result) : Evolves rt start rs' := by
  cases hattempt with
  | unreadable => exact h
  | expired | exhausted | unscheduled =>
      exact h.write sortByCreation_perm (.inl hr) rfl (.of_pending hpending rfl le_rfl)
  | @answered answer outcome _ _ _ hresult =>
      obtain ⟨hsettles, hcount⟩ := recordAnswer_settles hresult
      have href : r.requestRef = outcome.requestRef := hsettles.requestRef.symm
      have hadvance : Advances r outcome := by
        refine .of_pending hpending (registration_recordAnswer hresult) ?_
        rw [hcount]
        exact Int.le_add_one le_rfl
      exact h.write_over sortByCreation_perm (.inl hr) href href hadvance

/-- Verifications of pending records of `start`, up to the first fault. -/
theorem evolves_batch {todo : List LiveMetadataRequestRecord} (h : Evolves rt start rs)
    (htodo : ∀ r ∈ todo, r ∈ start ∧ r.status ∈ PENDING_VERIFY_STATUSES)
    (hbatch : Batch rt policy verifier now past rs todo events rs') : Evolves rt start rs' := by
  induction hbatch with
  | done => exact h
  | next first _ ih =>
      obtain ⟨hr, hpending⟩ := htodo _ List.mem_cons_self
      exact ih (evolves_attempt h hr hpending first) fun s hs => htodo s (List.mem_cons_of_mem _ hs)
  | abort first =>
      obtain ⟨hr, hpending⟩ := htodo _ List.mem_cons_self
      exact evolves_attempt h hr hpending first

/-- A run of the scheduler, however it ends. -/
theorem follows_verifyDue (args : VerifyDueArgs) (w : VerifyWorld) :
    Follows rt w.file ((runVerifyDue rt policy args).exec w).2.file := by
  rcases @runVerifyDue_cases rt policy args w with hsame |
    ⟨now, rs, todo, events, rs', -, -, hlist, hselected, hbatch, hrun, hlast⟩
  · exact .inl (congrArg VerifyWorld.file hsame)
  · rw [hrun]
    refine .inr ⟨rs, rs', hlist, hlast, evolves_batch (.refl .refl) (fun r hr => ?_) hbatch⟩
    obtain ⟨hmem, hdue⟩ := hselected.mem hr
    exact ⟨hmem, (isDueRecord_true hdue).1⟩

end Verification

/-! ## Submissions and downloads -/

section Commands

variable {rt : Runtime} {file : StateFile} {rs : List LiveMetadataRequestRecord}

/-- A submission registers its request, or leaves the file alone. -/
theorem follows_sent {env : LiveEnv} {ports : SubmitPorts} {args : RequestSmokeArgs} {w after : SubmitWorld}
    (h : Sent rt env ports args w after) : Follows rt w.file after.file := by
  cases h with
  | @persisted result r file answer persist =>
      obtain ⟨hrecord, rs, hlist, rfl⟩ := persistLive_ok.mp persist
      have hnew : Registered rt r := ⟨env, ports, args, w.trace, result, answer, hrecord⟩
      exact .upsert hlist (.inr hnew) rfl (.refl r) (persistedRecord_fresh hrecord).1
  | unpersisted failed => exact .inl rfl

/-- A loaded record is a listed one. -/
theorem listed_of_loadLive {requestRef : String} {record : LiveMetadataRequestRecord}
    (h : loadLive file requestRef = .ok record) : ∃ rs, listLive file = .ok rs ∧ record ∈ rs := by
  cases hlist : listLive file with
  | ok rs => exact ⟨rs, rfl, loadLive_mem hlist h⟩
  | error fault =>
      unfold loadLive at h
      dsimp only at h
      split at h
      · cases h
      · rw [hlist, Checked.error_bind] at h
        cases h

/-- A part that leaves the file alone, before the record is stored. -/
theorem Follows.of_keeps {α : Type} {p : PackageProg α} (h : Keeps (fun u : PackageWorld => u.file = file) p) :
    Spec (fun u : PackageWorld => u.file = file) p (fun _ u => u.file = file) fun _ u => Follows rt file u.file :=
  h.weaken (fun _ hu => hu) (fun _ _ hu => hu) fun _ _ hu => .inl hu

/-- The rest of the command, for a ready record of the file. -/
theorem follows_downloadResolved (j : PackageDownload.Invocation) (localProfile : LocalProfile)
    {record : LiveMetadataRequestRecord} (hlist : listLive file = .ok rs) (hrecord : record ∈ rs)
    (hready : record.status = PACKAGE_READY) :
    Spec (fun u : PackageWorld => u.file = file) (downloadResolved rt j.env j.ports j.options localProfile record)
      (fun _ u => Follows rt file u.file) fun _ u => Follows rt file u.file := by
  unfold downloadResolved
  apply Spec.bind (Follows.of_keeps (Keeps.ofExcept _))
  intro packageId
  generalize queryFromLiveRequestRecord localProfile.rfc record = rebuilt
  apply Spec.bind (Follows.of_keeps (Keeps.ofExcept _))
  intro query
  apply Spec.bind (Follows.of_keeps (Keeps.ofExcept _))
  intro verified
  unfold runLivePackageDownloadSmoke
  apply Spec.bind (Follows.of_keeps (Keeps.ofExcept _))
  intro loaded
  have hask : Keeps (fun u : PackageWorld => u.file = file) (askDownloader j.ports packageId) := by
    refine Spec.read fun u => ?_
    rintro w ⟨hw, rfl⟩
    rw [Prog.exec_bind_ok (Prog.exec_set _ w), Prog.exec_ofExcept]
    cases j.ports.download w.trace packageId with
    | error fault => exact hw
    | ok download => exact hw
  apply Spec.bind (Follows.of_keeps hask)
  intro download
  cases finishedContent download with
  | none => exact Spec.pure _ fun _ h => .inl h
  | some content =>
      apply Spec.bind (Follows.of_keeps (Keeps.bind Keeps.get fun u => Keeps.ofExcept _))
      intro processed
      have hstore : Spec (fun u : PackageWorld => u.file = file)
          (storeRecord rt (markDownloaded (j.env.clock 0) record)) (fun _ u => Follows rt file u.file)
          fun _ u => Follows rt file u.file := by
        refine Spec.read fun u => ?_
        rintro w ⟨rfl, rfl⟩
        rw [upsertLive_ok hlist]
        exact .upsert hlist (.inl hrecord) rfl (.downloaded hready _)
          (markDownloaded_normal _ (listLive_normal hlist record hrecord))
      exact Spec.bind hstore fun stored => Spec.pure _ fun _ h => h

/-- `sat package-download-smoke` marks a ready record, or leaves the file alone. -/
theorem follows_download (j : PackageDownload.Invocation) (w : PackageWorld) :
    Follows rt w.file (j.run rt w).file := by
  have hrun : Spec (fun u : PackageWorld => u.file = w.file) (satPackageDownloadSmoke rt j.env j.ports j.options)
      (fun _ u => Follows rt w.file u.file) fun _ u => Follows rt w.file u.file := by
    unfold satPackageDownloadSmoke
    apply Spec.bind (Follows.of_keeps (Keeps.raiseIf _ _))
    intro _
    apply Spec.bind (Follows.of_keeps (Keeps.raiseIf _ _))
    intro _
    apply Spec.bind (Follows.of_keeps (Keeps.ofExcept _))
    intro localProfile
    apply Spec.read
    intro u
    apply Spec.ofExcept_bind
    · rintro record hload s ⟨hfile, rfl⟩
      rw [hfile] at hload
      obtain ⟨rs, hlist, hrecord⟩ := listed_of_loadLive (Checked.mapError_eq_ok.mp hload)
      have hrest : Spec (fun u : PackageWorld => u.file = w.file) (do
          Prog.raiseIf (record.profileId ≠ j.options.profile)
            (denyPackageDownload "request-state-profile-mismatch")
          Prog.raiseIf (record.status ≠ PACKAGE_READY) (denyPackageDownload "request-not-package-ready")
          downloadResolved rt j.env j.ports j.options localProfile record)
          (fun _ u => Follows rt w.file u.file) fun _ u => Follows rt w.file u.file := by
        apply Spec.bind (Follows.of_keeps (Keeps.raiseIf _ _))
        intro _
        by_cases hready : record.status = PACKAGE_READY
        · apply Spec.bind (Follows.of_keeps (Keeps.raiseIf _ _))
          intro _
          exact follows_downloadResolved j localProfile hlist hrecord hready
        · intro t ht
          rw [Prog.exec_bind_error (Prog.exec_raiseIf_pos hready _ t)]
          exact .inl ht
      exact hrest s hfile
    · rintro fault - s ⟨hs, -⟩
      exact .inl hs
  have hfinal := hrun w rfl
  unfold PackageDownload.Invocation.run
  rcases hexec : (satPackageDownloadSmoke rt j.env j.ports j.options).exec w with ⟨fault | result, t⟩
  · rw [hexec] at hfinal
    exact hfinal
  · rw [hexec] at hfinal
    exact hfinal

end Commands

/-! ## Sequences of commands -/

/-- An invocation of a command that writes the file. -/
inductive Command where
  | metadataRequestSmoke (i : RequestSmoke)
  | backfillSubmit (i : BackfillSubmit)
  | verifyDue (i : VerifyDueCommand.Invocation)
  | packageDownloadSmoke (i : PackageDownload.Invocation)

/-- The file after an invocation, however it ends. -/
def Command.run (rt : Runtime) (file : StateFile) : Command → StateFile
  | metadataRequestSmoke i => (i.run rt ⟨file, []⟩).file
  | backfillSubmit i => (i.run rt ⟨file, []⟩).file
  | verifyDue i => (i.run rt ⟨file, []⟩).file
  | packageDownloadSmoke i => (i.run rt ⟨file, []⟩).file

/-- The file after invocations one after the other. -/
def runCommands (rt : Runtime) (file : StateFile) (commands : List Command) : StateFile :=
  commands.foldl (Command.run rt) file

section Runs

variable {rt : Runtime} {file : StateFile} {rs : List LiveMetadataRequestRecord} {r : LiveMetadataRequestRecord}

/-- What one invocation makes of the file. -/
theorem Command.follows (command : Command) : Follows rt file (command.run rt file) := by
  cases command with
  | metadataRequestSmoke i =>
      rcases @RequestSmoke.run_cases rt i ⟨file, []⟩ with ⟨hsame, -⟩ | ⟨_, _, -, -, hsent⟩
      · rw [Command.run, hsame]
        exact .inl rfl
      · rw [Command.run]
        exact follows_sent hsent
  | backfillSubmit i =>
      rcases @BackfillSubmit.run_cases rt i ⟨file, []⟩ with ⟨hsame, -⟩ | ⟨_, _, -, -, hsent⟩
      · rw [Command.run, hsame]
        exact .inl rfl
      · rw [Command.run]
        exact follows_sent hsent
  | verifyDue i =>
      rcases @VerifyDueCommand.invocation_run rt i ⟨file, []⟩ with hsame | ⟨verifier, hrun⟩
      · rw [Command.run, hsame]
        exact .inl rfl
      · rw [Command.run, hrun]
        exact follows_verifyDue _ _
  | packageDownloadSmoke i =>
      rw [Command.run]
      exact follows_download i _

theorem follows_commands (commands : List Command) : Follows rt file (runCommands rt file commands) := by
  induction commands generalizing file with
  | nil => exact .inl rfl
  | cons command rest ih => exact (Command.follows command).trans ih

variable (rt file) in
/-- A file that cannot be listed stays as it is.  One that can be listed still can, and lists what has become
of the requests. -/
theorem requests_follow (commands : List Command) :
    (∀ fault, listLive file = .error fault → runCommands rt file commands = file) ∧
      ∀ rs, listLive file = .ok rs →
        ∃ rs', listLive (runCommands rt file commands) = .ok rs' ∧ Evolves rt rs rs' := by
  have hfollows : Follows rt file (runCommands rt file commands) := follows_commands commands
  refine ⟨fun fault hfault => ?_, fun rs hlist => hfollows.lists hlist⟩
  rcases hfollows with hsame | ⟨rs, rs', hlist, -, -⟩
  · exact hsame
  · cases hfault.symm.trans hlist

/-- One request, one run of the scheduler and one download, from a storage root without a file. -/
theorem requests_follow_sample :
    ∃ rs', listLive (runCommands LiveSubmit.sampleRuntime .absent [
        .metadataRequestSmoke LiveSubmit.sampleSmoke, .verifyDue VerifyDueCommand.sampleInvocation,
        .packageDownloadSmoke (PackageDownload.sampleDownload "PKG-1").2]) = .ok rs' ∧
      Evolves LiveSubmit.sampleRuntime [] rs' :=
  (requests_follow LiveSubmit.sampleRuntime .absent _).2 [] rfl

/-- A request whose verification is over, and whose packages do not wait for a download, stays as it is, or
it was registered again. -/
theorem settled_stays (commands : List Command) (hlist : listLive file = .ok rs)
    (hapart : (rs.map (·.requestRef)).Nodup) (hr : r ∈ rs) (hpending : r.status ∉ PENDING_VERIFY_STATUSES)
    (hready : r.status ≠ PACKAGE_READY) :
    ∃ rs', listLive (runCommands rt file commands) = .ok rs' ∧
      (r ∈ rs' ∨ ∃ again, Registered rt again ∧ again.requestRef = r.requestRef) := by
  obtain ⟨rs', hlast, hevolves⟩ := (follows_commands commands).lists hlist
  refine ⟨rs', hlast, ?_⟩
  obtain ⟨row, hrow, hkey⟩ := hevolves.kept r hr
  obtain ⟨start, hstart, hsame, hadvance⟩ := hevolves.source row hrow
  rcases hstart with hlisted | hnew
  · obtain rfl := List.inj_on_of_nodup_map hapart hlisted hr (hsame.trans hkey)
    exact .inl (hadvance.settled hpending hready ▸ hrow)
  · exact .inr ⟨start, hnew, hsame.trans hkey⟩

variable (rt) in
/-- Where the commands start without a file, every listed record stems from an answer of SAT, and a request
of SAT is listed at most once for a profile and its criteria. -/
theorem listed_once (commands : List Command) :
    ∃ rs, listLive (runCommands rt .absent commands) = .ok rs ∧
      (∀ s ∈ rs, ∃ r, Registered rt r ∧ Advances r s) ∧
      ∀ s ∈ rs, ∀ t ∈ rs, s.profileId = t.profileId → s.criteriaHash = t.criteriaHash →
        s.idSolicitud = t.idSolicitud → s = t := by
  have hfollows : Follows rt .absent (runCommands rt .absent commands) := follows_commands commands
  obtain ⟨rs, hlast, hevolves⟩ := hfollows.lists (show listLive .absent = .ok [] from rfl)
  have hsource : ∀ s ∈ rs, ∃ r, Registered rt r ∧ Advances r s := by
    intro s hs
    obtain ⟨start, hstart, -, hadvance⟩ := hevolves.source s hs
    exact ⟨start, hstart.resolve_left List.not_mem_nil, hadvance⟩
  have href : ∀ s ∈ rs, s.requestRef = requestRefOf rt s.profileId s.criteriaHash s.idSolicitud := by
    intro s hs
    obtain ⟨r, hr, hadvance⟩ := hsource s hs
    exact hr.requestRef hadvance.registered
  refine ⟨rs, hlast, hsource, fun s hs t ht hprofile hcriteria hid => ?_⟩
  refine List.inj_on_of_nodup_map (hevolves.apart List.nodup_nil) hs ht ?_
  rw [href s hs, href t ht, hprofile, hcriteria, hid]

end Runs

end LiveLifecycle

end CfdiVault
