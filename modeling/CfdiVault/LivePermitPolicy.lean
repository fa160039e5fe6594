import CfdiVault.LivePermit

/-!
# The policy of permits

What the checks at use say in positive terms (`PolicyHolds`), against what the checks at
issue guarantee of the permits that are issued (`IssuePolicy`).  The direction, the issuer,
the creation time and the lifetime are checked at issue only, so a document that was edited
may be granted without them (`issue_policy_iff`).
-/

namespace CfdiVault

open LiveRequestState LiveCommands

namespace LivePermit

/-! ## The checks in positive terms -/

theorem bind_unit_eq_ok {α : Type} {x : Except PermitFault Unit} {f : Unit → Except PermitFault α} {a : α} :
    (x >>= f) = .ok a ↔ x = .ok () ∧ f () = .ok a := by
  rw [Checked.bind_eq_ok]
  exact ⟨fun ⟨_, hx, hf⟩ => ⟨hx, hf⟩, fun ⟨hx, hf⟩ => ⟨(), hx, hf⟩⟩

/-- The variant and the header flag that a scope allows. -/
def EnvelopeAllowed (scope : String) (variant : Option String) (header : Option Bool) : Prop :=
  if scope = "auth_live_smoke" then
    variant ∈ AUTH_ENVELOPE_VARIANTS.map some ∧
      (variant = some AUTH_ENVELOPE_VARIANT_SECURITY_ONLY ∨ header = some true)
  else variant = none ∧ header = none

/-- What `_validate_document_policy` establishes. -/
structure PolicyHolds (rt : Runtime) (permit : LiveExecutionPermit) (now : Instant) (repo : Repository) :
    Prop where
  unused : permit.consumed = false
  unexpired : now < permit.expiresAt
  rangeDays : permit.maxRangeDays = LivePermit.maxRangeDays permit.scope
  attempts : permit.maxAttempts = MAX_ATTEMPTS
  kind : permit.kind = RequestType.metadata.value
  range : validateDateRange permit.dateFrom permit.dateTo permit.maxRangeDays = .ok ()
  realSat : permit.allowRealSat = true
  credentials : permit.scope ∈ CREDENTIAL_REQUIRED_SCOPES → permit.allowRealCredentials = true
  noCredentials : permit.scope ∈ PROBE_SCOPES → permit.allowRealCredentials = false
  scope : permit.scope ∈ ALLOWED_SCOPES
  envelope : EnvelopeAllowed permit.scope permit.authEnvelopeVariant permit.wcfActionHeaderEnabled
  redaction : permit.redactionRequired = true
  repository : permit.repoRootHash = currentRepoIdentity rt repo

/-- What `create_live_execution_permit` guarantees of the permits that it issues, at the
time at which they are used. -/
structure IssuePolicy (permit : LiveExecutionPermit) (now : Instant) : Prop where
  scope : permit.scope ∈ ALLOWED_SCOPES
  profile : safeProfileId permit.profileId = .ok permit.profileId
  kind : permit.kind = RequestType.metadata.value
  direction : permit.direction ∈ [DownloadDirection.received.value, DownloadDirection.issued.value]
  range : validateDateRange permit.dateFrom permit.dateTo (LivePermit.maxRangeDays permit.scope) = .ok ()
  rangeDays : permit.maxRangeDays = LivePermit.maxRangeDays permit.scope
  attempts : permit.maxAttempts = MAX_ATTEMPTS
  issuer : permit.issuedBy = "carlos-local"
  reason : Text.strip permit.reason ≠ ""
  created : permit.createdAt ≤ now
  unexpired : now < permit.expiresAt
  lifetime : permit.createdAt.micros + 60000000 ≤ permit.expiresAt.micros ∧
    permit.expiresAt.micros ≤ permit.createdAt.micros + MAX_EXPIRES_MINUTES * 60000000
  realSat : permit.allowRealSat = true
  credentials : permit.allowRealCredentials = decide (permit.scope ∈ CREDENTIAL_REQUIRED_SCOPES)
  envelope : EnvelopeAllowed permit.scope permit.authEnvelopeVariant permit.wcfActionHeaderEnabled
  header : permit.scope = "auth_live_smoke" → permit.wcfActionHeaderEnabled ≠ none
  redaction : permit.redactionRequired = true

theorem PolicyHolds.credentials_eq {rt : Runtime} {permit : LiveExecutionPermit} {now : Instant}
    {repo : Repository} (h : PolicyHolds rt permit now repo) :
    permit.allowRealCredentials = decide (permit.scope ∈ CREDENTIAL_REQUIRED_SCOPES) := by
  by_cases hrequired : permit.scope ∈ CREDENTIAL_REQUIRED_SCOPES
  · rw [h.credentials hrequired, decide_eq_true hrequired]
  · rw [decide_eq_false hrequired]
    exact h.noCredentials ((List.mem_append.mp h.scope).resolve_right hrequired)

section Checks

variable {rt : Runtime} {permit : LiveExecutionPermit} {now : Instant} {repo : Repository}

theorem validateEnvelope_iff : validateEnvelope permit = .ok () ↔
    EnvelopeAllowed permit.scope permit.authEnvelopeVariant permit.wcfActionHeaderEnabled := by
  unfold validateEnvelope EnvelopeAllowed
  split_ifs with hscope
  · rw [bind_unit_eq_ok, refuseIf_eq_ok, refuseIf_eq_ok, not_not, not_and_or, not_not, not_not]
  · rw [refuseIf_eq_ok, not_or, not_not, not_not]

/-- The checks at use succeed exactly if their policy holds. -/
theorem validateDocumentPolicy_iff :
    validateDocumentPolicy rt permit now repo = .ok () ↔ PolicyHolds rt permit now repo := by
  simp only [validateDocumentPolicy, bind_unit_eq_ok, refuseIf_eq_ok, validateEnvelope_iff]
  constructor
  · rintro ⟨unused, unexpired, rangeDays, attempts, kind, range, realSat, credentials, noCredentials,
      scope, envelope, redaction, repository⟩
    exact {
      unused := Bool.eq_false_iff.mpr unused
      unexpired := Instant.not_le.mp unexpired
      rangeDays := not_not.mp rangeDays
      attempts := not_not.mp attempts
      kind := not_not.mp kind
      range := range
      realSat := not_not.mp realSat
      credentials := fun h => not_not.mp (not_and.mp credentials h)
      noCredentials := fun h => Bool.eq_false_iff.mpr (not_and.mp noCredentials h)
      scope := not_not.mp scope
      envelope := envelope
      redaction := not_not.mp redaction
      repository := not_not.mp repository }
  · intro h
    exact ⟨Bool.eq_false_iff.mp h.unused, Instant.not_le.mpr h.unexpired, not_not.mpr h.rangeDays,
      not_not.mpr h.attempts, not_not.mpr h.kind, h.range, not_not.mpr h.realSat,
      fun ⟨hscope, hnot⟩ => hnot (h.credentials hscope),
      fun ⟨hscope, hset⟩ => Bool.eq_false_iff.mp (h.noCredentials hscope) hset, not_not.mpr h.scope,
      h.envelope, not_not.mpr h.redaction, not_not.mpr h.repository⟩

/-- What a call asks for is what the permit says. -/
structure Expected (call : PermitCall) (permit : LiveExecutionPermit) : Prop where
  envelopeGiven : call.scope = "auth_live_smoke" →
    call.authEnvelopeVariant ≠ none ∧ call.wcfActionHeaderEnabled ≠ none
  scope : permit.scope = call.scope
  profile : safeProfileId call.profileId = .ok permit.profileId
  kind : permit.kind = call.kind
  direction : permit.direction = call.direction
  dateFrom : permit.dateFrom = call.dateFrom
  dateTo : permit.dateTo = call.dateTo
  variant : ∀ variant ∈ call.authEnvelopeVariant, permit.authEnvelopeVariant.getD "" = variant
  header : ∀ header ∈ call.wcfActionHeaderEnabled, permit.wcfActionHeaderEnabled = some header

theorem matchExpected_iff {call : PermitCall} :
    matchExpected call permit = .ok () ↔ Expected call permit := by
  simp only [matchExpected, bind_unit_eq_ok, refuseIf_eq_ok, Checked.bind_eq_ok (x := safeProfileId _),
    not_and, not_or, not_exists, ne_eq, not_not]
  constructor
  · rintro ⟨envelopeGiven, profileId, hprofile, scope, rfl, kind, direction, dateFrom, dateTo, variant,
      header⟩
    exact ⟨envelopeGiven, scope, hprofile, kind, direction, dateFrom, dateTo, variant, header⟩
  · rintro ⟨envelopeGiven, scope, hprofile, kind, direction, dateFrom, dateTo, variant, header⟩
    exact ⟨envelopeGiven, _, hprofile, scope, rfl, kind, direction, dateFrom, dateTo, variant, header⟩

/-- A call is granted exactly if its permit is expected and the policy holds. -/
theorem consumed_eq_ok {call : PermitCall} {used : LiveExecutionPermit} :
    consumed rt call permit = .ok used ↔ Expected call permit ∧
      ∃ now, utcNow call.now (call.clock 0) = .ok now ∧ PolicyHolds rt permit now call.repo ∧
        ∃ consumedAt, utcNow call.now (call.clock 1) = .ok consumedAt ∧
          used = { permit with consumed := true, consumedAt := some consumedAt } := by
  rw [consumed, bind_unit_eq_ok, matchExpected_iff, Checked.bind_eq_ok]
  refine and_congr_right fun _ => exists_congr fun now => and_congr_right fun _ => ?_
  rw [bind_unit_eq_ok, validateDocumentPolicy_iff, Checked.bind_eq_ok]
  refine and_congr_right fun _ => exists_congr fun consumedAt => and_congr_right fun _ => ?_
  rw [Checked.pure_eq_ok, eq_comm]

end Checks

/-! ## Calls -/

/-- The consumed permit of a call on the document it finds, or its refusal. -/
def useFile (host : PermitHost) (call : PermitCall) (file : PermitFile) :
    Except PermitFault LiveExecutionPermit := do
  let permit ← readPermit host.zone file
  consumed host.rt call permit

section Calls

variable {host : PermitHost} {call : PermitCall} {folder after : PermitFolder} {name : String}
variable {used : LiveExecutionPermit}

/-- A call that is granted writes the consumed permit in place of the one it has read. -/
theorem exec_of_use (hname : resolvePermitReference host call.permitRef = .ok name)
    (huse : useFile host call (folder name) = .ok used) :
    (validateAndConsumeLivePermit host call).exec folder =
      (.ok used, Function.update folder name (permitFile used)) := by
  obtain ⟨permit, hread, hused⟩ := Checked.bind_eq_ok.mp huse
  simp only [validateAndConsumeLivePermit, writePermitDocument, Prog.exec_bind, Prog.exec_ofExcept,
    Prog.exec_get, Prog.follow_ok, hname, hread, hused, Prog.exec_modify, Prog.exec_pure]

/-- A call whose document does not grant it raises. -/
theorem exec_of_refused {fault : PermitFault}
    (hname : resolvePermitReference host call.permitRef = .ok name)
    (huse : useFile host call (folder name) = .error fault) :
    (validateAndConsumeLivePermit host call).exec folder = (.error fault, folder) := by
  simp only [validateAndConsumeLivePermit, Prog.exec_bind, Prog.exec_ofExcept, Prog.exec_get,
    Prog.follow_ok, hname]
  unfold useFile at huse
  cases hread : readPermit host.zone (folder name) with
  | error =>
      rw [hread] at huse
      cases huse
      rfl
  | ok permit =>
      rw [hread, Checked.ok_bind] at huse
      rw [Prog.follow_ok, Prog.exec_bind, Prog.exec_ofExcept, huse, Prog.follow_error]

/-- What a granted call has found and left. -/
theorem exec_ok (h : (validateAndConsumeLivePermit host call).exec folder = (.ok used, after)) :
    ∃ name, resolvePermitReference host call.permitRef = .ok name ∧
      useFile host call (folder name) = .ok used ∧
      after = Function.update folder name (permitFile used) := by
  cases hname : resolvePermitReference host call.permitRef with
  | error =>
      simp only [validateAndConsumeLivePermit, Prog.exec_bind, Prog.exec_ofExcept, hname,
        Prog.follow_error] at h
      cases h
  | ok name =>
      cases huse : useFile host call (folder name) with
      | error =>
          rw [exec_of_refused hname huse] at h
          cases h
      | ok =>
          rw [exec_of_use hname huse] at h
          cases h
          exact ⟨name, rfl, huse, rfl⟩

/-- Of a written permit, its document is read. -/
theorem readPermit_written {zone : TimeZone} (permit : LiveExecutionPermit) :
    readPermit zone (permitFile permit) = fromDocument zone permit.toDocument := by
  simp only [readPermit, permitFile, Json.members?, orRefuse, Checked.ok_bind]

theorem readPermit_permitFile {permit : LiveExecutionPermit} (h : Legible permit) :
    readPermit host.zone (permitFile permit) = .ok permit := by
  rw [readPermit_written, fromDocument_toDocument h]

/-- A legible permit is used as it was written. -/
theorem useFile_permitFile {permit : LiveExecutionPermit} (h : Legible permit) :
    useFile host call (permitFile permit) = consumed host.rt call permit := by
  rw [useFile, readPermit_permitFile h, Checked.ok_bind]

end Calls

/-! ## What a document says -/

/-- What a permit read from a document has from it. -/
structure Reads (document : List (String × Json)) (permit : LiveExecutionPermit) : Prop where
  permitId : requiredStr document "permitId" = .ok permit.permitId
  scope : requiredStr document "scope" = .ok permit.scope
  profileId : requiredStr document "profileId" = .ok permit.profileId
  issuedBy : requiredStr document "issuedBy" = .ok permit.issuedBy
  reason : requiredStr document "reason" = .ok permit.reason
  consumed : requiredBool document "consumed" = .ok permit.consumed

theorem fromDocument_reads {zone : TimeZone} {document : List (String × Json)}
    {permit : LiveExecutionPermit} (h : fromDocument zone document = .ok permit) :
    Reads document permit := by
  obtain ⟨permitId, hpermitId, h⟩ := Checked.bind_eq_ok.mp h
  obtain ⟨scope, hscope, h⟩ := Checked.bind_eq_ok.mp h
  obtain ⟨profileId, hprofileId, h⟩ := Checked.bind_eq_ok.mp h
  iterate 10 obtain ⟨_, -, h⟩ := Checked.bind_eq_ok.mp h
  obtain ⟨issuedBy, hissuedBy, h⟩ := Checked.bind_eq_ok.mp h
  obtain ⟨reason, hreason, h⟩ := Checked.bind_eq_ok.mp h
  obtain ⟨consumed, hconsumed, h⟩ := Checked.bind_eq_ok.mp h
  iterate 5 obtain ⟨_, -, h⟩ := Checked.bind_eq_ok.mp h
  cases Checked.pure_eq_ok.mp h
  exact ⟨hpermitId, hscope, hprofileId, hissuedBy, hreason, hconsumed⟩

/-! ## Issue -/

/-- What `_validated_request` establishes of the request that it gives back. -/
structure ValidRequest (safe : LivePermitRequest) : Prop where
  scope : safe.scope ∈ ALLOWED_SCOPES
  profile : safeProfileId safe.profileId = .ok safe.profileId
  kind : safe.kind = RequestType.metadata.value
  direction : safe.direction ∈ [DownloadDirection.received.value, DownloadDirection.issued.value]
  range : validateDateRange safe.dateFrom safe.dateTo (LivePermit.maxRangeDays safe.scope) = .ok ()
  reason : Text.strip safe.reason ≠ ""
  issuer : safe.issuedBy = "carlos-local"
  expires : 1 ≤ safe.expiresMinutes ∧ safe.expiresMinutes ≤ MAX_EXPIRES_MINUTES
  envelope : EnvelopeAllowed safe.scope safe.authEnvelopeVariant safe.wcfActionHeaderEnabled
  header : safe.scope = "auth_live_smoke" → safe.wcfActionHeaderEnabled ≠ none

section Issue

variable {host : PermitHost} {request safe : LivePermitRequest} {permit : LiveExecutionPermit}
variable {now : Option DateTime} {reading : Instant} {permitId : String} {repo : Repository}
variable {folder after : PermitFolder}

theorem safeProfileId_eq_ok {value profileId : String} (h : safeProfileId value = .ok profileId) :
    profileId = Text.strip value ∧ isProfileId profileId = true := by
  unfold safeProfileId at h
  split_ifs at h with hid
  cases h
  exact ⟨rfl, hid⟩

/-- A profile id that was accepted is accepted as it is. -/
theorem safeProfileId_again {value profileId : String} (h : safeProfileId value = .ok profileId) :
    safeProfileId profileId = .ok profileId := by
  obtain ⟨rfl, hid⟩ := safeProfileId_eq_ok h
  rw [safeProfileId, Text.strip_strip, if_pos hid]

theorem requestedEnvelope_eq_ok {variant : Option String} {header : Option Bool}
    (h : requestedEnvelope request = .ok (variant, header)) :
    EnvelopeAllowed request.scope variant header ∧ (request.scope = "auth_live_smoke" → header ≠ none) := by
  unfold requestedEnvelope at h
  unfold EnvelopeAllowed
  split_ifs at h ⊢ with hscope
  · obtain ⟨hvariant, h⟩ := bind_unit_eq_ok.mp h
    obtain ⟨hheader, h⟩ := bind_unit_eq_ok.mp h
    cases Checked.pure_eq_ok.mp h
    rw [refuseIf_eq_ok, not_not] at hvariant
    rw [refuseIf_eq_ok, not_and_or, not_not, not_not] at hheader
    exact ⟨⟨List.mem_map_of_mem hvariant, hheader.imp (congrArg some) (congrArg some)⟩,
      fun _ => Option.some_ne_none _⟩
  · obtain ⟨-, h⟩ := bind_unit_eq_ok.mp h
    cases Checked.pure_eq_ok.mp h
    exact ⟨⟨rfl, rfl⟩, fun h => absurd h hscope⟩

/-- A validated request is the given one with its texts trimmed and its envelope set. -/
theorem validatedRequest_eq_ok (h : validatedRequest request = .ok safe) : ValidRequest safe ∧
    safe = { request with
      profileId := Text.strip request.profileId
      reason := Text.strip request.reason
      authEnvelopeVariant := safe.authEnvelopeVariant
      wcfActionHeaderEnabled := safe.wcfActionHeaderEnabled } := by
  obtain ⟨hscope, h⟩ := bind_unit_eq_ok.mp h
  obtain ⟨profileId, hprofile, h⟩ := Checked.bind_eq_ok.mp h
  obtain ⟨hkind, h⟩ := bind_unit_eq_ok.mp h
  obtain ⟨hdirection, h⟩ := bind_unit_eq_ok.mp h
  obtain ⟨hrange, h⟩ := bind_unit_eq_ok.mp h
  obtain ⟨hreason, h⟩ := bind_unit_eq_ok.mp h
  obtain ⟨hissuer, h⟩ := bind_unit_eq_ok.mp h
  obtain ⟨hexpires, h⟩ := bind_unit_eq_ok.mp h
  obtain ⟨⟨variant, header⟩, henvelope, h⟩ := Checked.bind_eq_ok.mp h
  cases Checked.pure_eq_ok.mp h
  obtain ⟨hallowed, hheader⟩ := requestedEnvelope_eq_ok henvelope
  obtain ⟨rfl, -⟩ := safeProfileId_eq_ok hprofile
  rw [refuseIf_eq_ok] at hscope hkind hdirection hreason hissuer hexpires
  refine ⟨{
    scope := not_not.mp hscope
    profile := safeProfileId_again hprofile
    kind := not_not.mp hkind
    direction := not_not.mp hdirection
    range := hrange
    reason := (Text.strip_strip request.reason).symm ▸ hreason
    issuer := not_not.mp hissuer
    expires := ?_
    envelope := hallowed
    header := hheader }, rfl⟩
  obtain ⟨hleast, hmost⟩ := not_or.mp hexpires
  exact ⟨Int.not_lt.mp hleast, Int.not_lt.mp hmost⟩

/-- What was issued, and where it was written. -/
theorem createLiveExecutionPermit_eq_ok
    (h : (createLiveExecutionPermit host request now reading permitId repo).exec folder =
      (.ok permit, after)) :
    ∃ safe createdAt expiresAt, validatedRequest request = .ok safe ∧
      utcNow now reading = .ok createdAt ∧ addMinutes createdAt safe.expiresMinutes = some expiresAt ∧
      permit = newPermit host.rt safe permitId createdAt expiresAt repo ∧
      after = Function.update folder (permitName permitId) (permitFile permit) := by
  simp only [createLiveExecutionPermit, Prog.exec_bind, Prog.exec_ofExcept] at h
  cases hsafe : validatedRequest request with
  | error => simp [hsafe] at h
  | ok safe =>
      rw [hsafe, Prog.follow_ok, Prog.exec_bind, Prog.exec_ofExcept] at h
      cases hcreated : utcNow now reading with
      | error => simp [hcreated] at h
      | ok createdAt =>
          rw [hcreated, Prog.follow_ok, Prog.exec_bind, Prog.exec_ofExcept] at h
          cases hroot : refuseIf (host.rootInsideRepo repo = true) "permit-root-inside-repo" with
          | error => simp [hroot] at h
          | ok =>
              rw [hroot, Prog.follow_ok, Prog.exec_bind, Prog.exec_ofExcept] at h
              cases hexpires : addMinutes createdAt safe.expiresMinutes with
              | none => simp [hexpires, orRefuse] at h
              | some expiresAt =>
                  rw [hexpires, orRefuse, Prog.follow_ok, writePermitDocument, Prog.exec_bind,
                    Prog.exec_modify, Prog.follow_ok, Prog.exec_pure] at h
                  cases h
                  exact ⟨safe, createdAt, expiresAt, rfl, rfl, hexpires, rfl, rfl⟩

/-- The permits that are issued satisfy the policy of issue until they expire. -/
theorem issued_policy {instant : Instant}
    (h : (createLiveExecutionPermit host request now reading permitId repo).exec folder =
      (.ok permit, after)) (hcreated : permit.createdAt ≤ instant) (hexpires : instant < permit.expiresAt) :
    IssuePolicy permit instant := by
  obtain ⟨safe, createdAt, expiresAt, hsafe, -, hlater, rfl, -⟩ := createLiveExecutionPermit_eq_ok h
  obtain ⟨hvalid, -⟩ := validatedRequest_eq_ok hsafe
  exact {
    scope := hvalid.scope
    profile := hvalid.profile
    kind := hvalid.kind
    direction := hvalid.direction
    range := hvalid.range
    rangeDays := rfl
    attempts := rfl
    issuer := hvalid.issuer
    reason := hvalid.reason
    created := hcreated
    unexpired := hexpires
    lifetime := by
      have hmicros := Instant.ofMicros?_eq_some hlater
      obtain ⟨hleast, hmost⟩ := hvalid.expires
      dsimp only [newPermit]
      omega
    realSat := rfl
    credentials := rfl
    envelope := hvalid.envelope
    header := hvalid.header
    redaction := rfl }

end Issue

/-! ## Use against issue -/

section Policy

variable {host : PermitHost} {call : PermitCall} {folder after : PermitFolder} {name : String}
variable {members : List (String × Json)} {permit used : LiveExecutionPermit} {now : Instant}

/-- What a granted call has found its document to say. -/
theorem granted_checks (haccepted :
      (validateAndConsumeLivePermit host call).exec folder = (.ok used, after))
    (hname : resolvePermitReference host call.permitRef = .ok name)
    (hdocument : folder name = .json (.obj members))
    (hpermit : fromDocument host.zone members = .ok permit)
    (hnow : utcNow call.now (call.clock 0) = .ok now) :
    Expected call permit ∧ PolicyHolds host.rt permit now call.repo := by
  obtain ⟨name', hname', huse, -⟩ := exec_ok haccepted
  cases hname.symm.trans hname'
  obtain ⟨permit', hread, hused⟩ := Checked.bind_eq_ok.mp huse
  rw [hdocument] at hread
  cases hpermit.symm.trans hread
  obtain ⟨hexpected, now', hnow', hpolicy, -⟩ := consumed_eq_ok.mp hused
  cases hnow.symm.trans hnow'
  exact ⟨hexpected, hpolicy⟩

/-- A document that is granted satisfies the policy of issue exactly if its direction, its
issuer, its creation time and its lifetime do: these are not checked at use. -/
theorem issue_policy_iff (haccepted :
      (validateAndConsumeLivePermit host call).exec folder = (.ok used, after))
    (hname : resolvePermitReference host call.permitRef = .ok name)
    (hdocument : folder name = .json (.obj members))
    (hpermit : fromDocument host.zone members = .ok permit)
    (hnow : utcNow call.now (call.clock 0) = .ok now) :
    IssuePolicy permit now ↔
      permit.direction ∈ [DownloadDirection.received.value, DownloadDirection.issued.value] ∧
      permit.issuedBy = "carlos-local" ∧ permit.createdAt ≤ now ∧
      permit.createdAt.micros + 60000000 ≤ permit.expiresAt.micros ∧
      permit.expiresAt.micros ≤ permit.createdAt.micros + MAX_EXPIRES_MINUTES * 60000000 := by
  obtain ⟨hexpected, hpolicy⟩ := granted_checks haccepted hname hdocument hpermit hnow
  refine ⟨fun h => ⟨h.direction, h.issuer, h.created, h.lifetime⟩, ?_⟩
  rintro ⟨hdirection, hissuer, hcreated, hlifetime⟩
  exact {
    scope := hpolicy.scope
    profile := safeProfileId_again hexpected.profile
    kind := hpolicy.kind
    direction := hdirection
    range := hpolicy.rangeDays ▸ hpolicy.range
    rangeDays := hpolicy.rangeDays
    attempts := hpolicy.attempts
    issuer := hissuer
    reason := requiredStr_not_blank (fromDocument_reads hpermit).reason
    created := hcreated
    unexpired := hpolicy.unexpired
    lifetime := hlifetime
    realSat := hpolicy.realSat
    credentials := hpolicy.credentials_eq
    envelope := hpolicy.envelope
    header := fun hscope hnone => by
      obtain ⟨-, hgiven⟩ := hexpected.envelopeGiven (hexpected.scope ▸ hscope)
      obtain ⟨header, hheader⟩ := Option.ne_none_iff_exists'.mp hgiven
      rw [hexpected.header header hheader] at hnone
      cases hnone
    redaction := hpolicy.redaction }

end Policy

/-! ## An edited document that is granted -/

section Sample

/-- A machine at UTC whose permit folder holds no file under an explicit path. -/
def sampleMachine : PermitHost where
  rt := {
    sha256Text _ := 0
    sha256Bytes _ := 0
    upper := id
    lower := Text.lower
    alnum c := c.isAlphanum }
  zone _ := UtcOffset.zero
  inFolder _ := none
  rootInsideRepo _ := false

def sampleCheckout : Repository where
  head := some "9f2c1e7"
  root := "/work/cfdi-vault"

/-- A request for the metadata received in the first week of January 2024. -/
def sampleRequest : LivePermitRequest where
  scope := METADATA_LIVE_SMOKE_SCOPE
  profileId := "default"
  kind := "metadata"
  direction := "received"
  dateFrom := "2024-01-01"
  dateTo := "2024-01-07"
  reason := "weekly metadata"

/-- 1 February 2024 at 12:00 UTC. -/
def sampleNoon : Instant := 63842385600000000

/-- A permit of the sample request that was issued at noon for fifteen minutes. -/
def samplePermit : LiveExecutionPermit :=
  newPermit sampleMachine.rt sampleRequest "permit-0001" sampleNoon 63842386500000000
    sampleCheckout

/-- The call that the sample permit is for, at noon. -/
def sampleCall : PermitCall where
  permitRef := "permit-0001"
  scope := METADATA_LIVE_SMOKE_SCOPE
  profileId := "default"
  kind := "metadata"
  direction := "received"
  dateFrom := "2024-01-01"
  dateTo := "2024-01-07"
  clock _ := sampleNoon
  repo := sampleCheckout

/-- The sample permit with another issuer. -/
def editedPermit : LiveExecutionPermit := { samplePermit with issuedBy := "other" }

theorem editedPermit_legible : Legible editedPermit where
  permitId := by decide
  scope := by decide
  profileId := by decide
  kind := by decide
  direction := by decide
  dateFrom := by decide
  dateTo := by decide
  issuedBy := by decide
  reason := by decide
  repoRootHash := by decide
  variant _ h := nomatch h

/-- A folder in which every name holds the edited permit. -/
def editedFolder : PermitFolder := fun _ => permitFile editedPermit

theorem editedPermit_consumed : consumed sampleMachine.rt sampleCall editedPermit =
    .ok { editedPermit with consumed := true, consumedAt := some sampleNoon } := by
  refine consumed_eq_ok.mpr ⟨matchExpected_iff.mp ?_, sampleNoon, rfl, validateDocumentPolicy_iff.mp ?_,
    sampleNoon, rfl, rfl⟩ <;> decide +kernel

theorem sampleCall_name : resolvePermitReference sampleMachine sampleCall.permitRef =
    .ok (permitName "permit-0001") := by decide

theorem editedPermit_granted : (validateAndConsumeLivePermit sampleMachine sampleCall).exec editedFolder =
    (.ok { editedPermit with consumed := true, consumedAt := some sampleNoon },
      Function.update editedFolder (permitName "permit-0001")
        (permitFile { editedPermit with consumed := true, consumedAt := some sampleNoon })) := by
  refine exec_of_use sampleCall_name ?_
  rw [editedFolder, useFile_permitFile editedPermit_legible, editedPermit_consumed]

theorem issue_policy_iff_sample : IssuePolicy editedPermit sampleNoon ↔
    editedPermit.direction ∈ [DownloadDirection.received.value, DownloadDirection.issued.value] ∧
    editedPermit.issuedBy = "carlos-local" ∧ editedPermit.createdAt ≤ sampleNoon ∧
    editedPermit.createdAt.micros + 60000000 ≤ editedPermit.expiresAt.micros ∧
    editedPermit.expiresAt.micros ≤ editedPermit.createdAt.micros + MAX_EXPIRES_MINUTES * 60000000 :=
  issue_policy_iff editedPermit_granted sampleCall_name rfl (fromDocument_toDocument editedPermit_legible)
    rfl

/-- A document whose issuer was edited is granted, although no such permit is issued. -/
theorem edited_issuer_granted :
    ¬ ∀ host call folder after used name members permit now,
      (validateAndConsumeLivePermit host call).exec folder = (.ok used, after) →
      resolvePermitReference host call.permitRef = .ok name → folder name = .json (.obj members) →
      fromDocument host.zone members = .ok permit → utcNow call.now (call.clock 0) = .ok now →
      IssuePolicy permit now := by
  intro h
  have hpolicy := h sampleMachine sampleCall editedFolder _ _ _ _ _ sampleNoon editedPermit_granted
    sampleCall_name rfl (fromDocument_toDocument editedPermit_legible) rfl
  exact absurd hpolicy.issuer (by decide)

end Sample

end LivePermit

end CfdiVault
