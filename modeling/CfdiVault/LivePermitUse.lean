import CfdiVault.LivePermitPolicy
import CfdiVault.Library.ReadModifyWrite

/-!
# The use of permits

A permit that was issued can be used once when the calls follow each other
(`fresh_permit_once`): the matching call succeeds until the permit expires and changes
nothing of the document but that it is consumed, and every later call on it raises.

Calls that overlap read the document, validate it and write it back in three steps.  They
use the permit once exactly if every write finds the document as its call has loaded it
(`permit_once_iff`).
-/

namespace CfdiVault

open LiveRequestState LiveCommands ReadModifyWrite

namespace LivePermit

/-! ## The permits that are issued are legible -/

section Issued

variable {rt : Runtime} {safe : LivePermitRequest} {permitId : String} {createdAt expiresAt : Instant}
variable {repo : Repository}

theorem digit?_not_space {c : Char} {d : Nat} (h : DateTime.digit? c = some d) :
    Text.isSpace c = false := by
  unfold DateTime.digit? at h
  split_ifs at h with hrange
  obtain ⟨hleast, hmost⟩ := hrange
  have hleast : 48 ≤ c.toNat := hleast
  have hmost : c.toNat ≤ 57 := hmost
  simp only [Text.isSpace, Bool.or_eq_false_iff, Bool.and_eq_false_iff, decide_eq_false_iff_not,
    beq_eq_false_iff_ne]
  omega

/-- A date begins with a digit. -/
theorem parseDate_not_blank {value : String} {ordinal : Nat} (h : parseDate value = .ok ordinal) :
    Text.strip value ≠ "" := by
  have hdate := orRefuse_eq_ok.mp h
  obtain ⟨⟨year, rest⟩, hyear, -⟩ := Option.bind_eq_some_iff.mp hdate
  cases hlist : value.toList with
  | nil =>
      rw [hlist] at hyear
      cases hyear
  | cons c tail =>
      rw [hlist] at hyear
      obtain ⟨d, hdigit, -⟩ := Option.bind_eq_some_iff.mp hyear
      exact Text.strip_ne_empty (hlist ▸ List.mem_cons_self) (digit?_not_space hdigit)

theorem isProfileId_not_empty {value : String} (h : isProfileId value = true) : value ≠ "" := by
  rintro rfl
  cases h

theorem currentRepoIdentity_not_blank : Text.strip (currentRepoIdentity rt repo) ≠ "" := by
  unfold currentRepoIdentity
  split_ifs with hhead
  · rwa [Text.strip_strip]
  · rw [Text.strip_of_no_space (Digest.hex_no_space _)]
    exact Digest.hex_ne_empty _

theorem validateDateRange_eq_ok {dateFrom dateTo : String} {maxDays : Int}
    (h : validateDateRange dateFrom dateTo maxDays = .ok ()) :
    ∃ start «end», parseDate dateFrom = .ok start ∧ parseDate dateTo = .ok «end» ∧ start ≤ «end» ∧
      («end» : Int) - start + 1 ≤ maxDays := by
  obtain ⟨start, hstart, h⟩ := Checked.bind_eq_ok.mp h
  obtain ⟨«end», hend, h⟩ := Checked.bind_eq_ok.mp h
  obtain ⟨hordered, hwide⟩ := bind_unit_eq_ok.mp h
  exact ⟨start, «end», hstart, hend, Nat.not_lt.mp (refuseIf_eq_ok.mp hordered),
    Int.not_lt.mp (refuseIf_eq_ok.mp hwide)⟩

theorem newPermit_repoRootHash :
    (newPermit rt safe permitId createdAt expiresAt repo).repoRootHash = currentRepoIdentity rt repo := by
  rw [newPermit]

/-- The permit of a validated request can be read back from its document. -/
theorem newPermit_legible (hvalid : ValidRequest safe) (hid : Text.strip permitId ≠ "") :
    Legible (newPermit rt safe permitId createdAt expiresAt repo) := by
  obtain ⟨start, «end», hstart, hend, -⟩ := validateDateRange_eq_ok hvalid.range
  have hscopes : ∀ scope ∈ ALLOWED_SCOPES, Text.strip scope ≠ "" := by decide
  have hdirections : ∀ direction ∈ [DownloadDirection.received.value, DownloadDirection.issued.value],
      Text.strip direction ≠ "" := by decide
  have hvariants : ∀ variant ∈ AUTH_ENVELOPE_VARIANTS, Text.strip variant ≠ "" := by decide
  exact {
    permitId := hid
    scope := hscopes _ hvalid.scope
    profileId := by
      obtain ⟨hself, hprofile⟩ := safeProfileId_eq_ok hvalid.profile
      change Text.strip safe.profileId ≠ ""
      rw [← hself]
      exact isProfileId_not_empty hprofile
    kind := by
      change Text.strip safe.kind ≠ ""
      rw [hvalid.kind]
      decide
    direction := hdirections _ hvalid.direction
    dateFrom := parseDate_not_blank hstart
    dateTo := parseDate_not_blank hend
    issuedBy := by
      change Text.strip safe.issuedBy ≠ ""
      rw [hvalid.issuer]
      decide
    reason := hvalid.reason
    repoRootHash := by
      rw [newPermit_repoRootHash]
      exact currentRepoIdentity_not_blank
    variant := fun variant hset => by
      have hallowed := hvalid.envelope
      unfold EnvelopeAllowed at hallowed
      split_ifs at hallowed
      · obtain ⟨given, hgiven, hsame⟩ := List.mem_map.mp hallowed.1
        cases hsame.trans hset
        exact hvariants _ hgiven
      · cases hallowed.1.symm.trans hset }

/-- A permit satisfies the checks at use until it expires, at the commit of its issue. -/
theorem newPermit_policy (hvalid : ValidRequest safe) {now : Instant} {used : Repository}
    (hnow : now < expiresAt) (hrepo : currentRepoIdentity rt used = currentRepoIdentity rt repo) :
    PolicyHolds rt (newPermit rt safe permitId createdAt expiresAt repo) now used where
  unused := rfl
  unexpired := hnow
  rangeDays := rfl
  attempts := rfl
  kind := hvalid.kind
  range := hvalid.range
  realSat := rfl
  credentials := decide_eq_true
  noCredentials := fun hprobe => by
    have hdisjoint : ∀ scope ∈ PROBE_SCOPES, scope ∉ CREDENTIAL_REQUIRED_SCOPES := by decide
    exact decide_eq_false (hdisjoint _ hprobe)
  scope := hvalid.scope
  envelope := hvalid.envelope
  redaction := rfl
  repository := by rw [newPermit_repoRootHash, hrepo]

theorem urlsafeChar_spec : ∀ n, ((urlsafeChar n).isAlphanum || urlsafeChar n == '_' ||
    urlsafeChar n == '-') = true ∧ Text.isSpace (urlsafeChar n) = false := by decide

theorem tokenUrlsafe_toList (draw : Fin 16 → Fin 64) :
    (tokenUrlsafe draw).toList = List.ofFn fun i => urlsafeChar (draw i) := String.toList_ofList

theorem isPermitId_tokenUrlsafe (draw : Fin 16 → Fin 64) : isPermitId (tokenUrlsafe draw) = true := by
  have hlength : (tokenUrlsafe draw).length = 16 := by
    rw [← String.length_toList, tokenUrlsafe_toList, List.length_ofFn]
  rw [isPermitId, hlength, Bool.and_eq_true, List.all_eq_true, tokenUrlsafe_toList]
  refine ⟨rfl, fun c hc => ?_⟩
  obtain ⟨i, rfl⟩ := List.mem_ofFn.mp hc
  exact (urlsafeChar_spec (draw i)).1

theorem strip_tokenUrlsafe (draw : Fin 16 → Fin 64) : Text.strip (tokenUrlsafe draw) = tokenUrlsafe draw := by
  refine Text.strip_of_no_space fun c hc => ?_
  rw [tokenUrlsafe_toList] at hc
  obtain ⟨i, rfl⟩ := List.mem_ofFn.mp hc
  exact (urlsafeChar_spec (draw i)).2

theorem tokenUrlsafe_ne_empty (draw : Fin 16 → Fin 64) : tokenUrlsafe draw ≠ "" := by
  intro h
  have hlist := tokenUrlsafe_toList draw
  rw [h] at hlist
  exact absurd (congrArg List.length hlist) (by rw [List.length_ofFn]; decide)

/-- A drawn id names the document of its permit. -/
theorem resolve_tokenUrlsafe (host : PermitHost) (draw : Fin 16 → Fin 64) :
    resolvePermitReference host (tokenUrlsafe draw) = .ok (permitName (tokenUrlsafe draw)) := by
  rw [resolvePermitReference, strip_tokenUrlsafe, refuseIf_of_not (tokenUrlsafe_ne_empty draw), Checked.ok_bind,
    if_pos (isPermitId_tokenUrlsafe draw)]
  rfl

end Issued

/-! ## Calls that follow each other -/

/-- A call for the operation that a permit was requested for. -/
structure Matching (host : PermitHost) (request : LivePermitRequest) (permit : LiveExecutionPermit)
    (call : PermitCall) : Prop where
  reference : resolvePermitReference host call.permitRef = .ok (permitName permit.permitId)
  scope : call.scope = request.scope
  profile : Text.strip call.profileId = Text.strip request.profileId
  kind : call.kind = request.kind
  direction : call.direction = request.direction
  dateFrom : call.dateFrom = request.dateFrom
  dateTo : call.dateTo = request.dateTo
  variant : call.authEnvelopeVariant = permit.authEnvelopeVariant
  header : call.wcfActionHeaderEnabled = permit.wcfActionHeaderEnabled
  repo : currentRepoIdentity host.rt call.repo = permit.repoRootHash

section Sequence

variable {host : PermitHost} {call : PermitCall} {folder after : PermitFolder} {name : String}
variable {permit used : LiveExecutionPermit} {file : PermitFile}

/-- A document grants a call only if it says that it was not consumed. -/
theorem useFile_unused (h : useFile host call file = .ok used) :
    ∃ permit, readPermit host.zone file = .ok permit ∧ permit.consumed = false := by
  obtain ⟨permit, hread, hused⟩ := Checked.bind_eq_ok.mp h
  obtain ⟨-, now, -, hpolicy, -⟩ := consumed_eq_ok.mp hused
  exact ⟨permit, hread, hpolicy.unused⟩

/-- What a granted call writes says that it was consumed, if it can be read at all. -/
theorem useFile_consumed {zone : TimeZone} (h : useFile host call file = .ok used)
    (hread : readPermit zone (permitFile used) = .ok permit) : permit.consumed = true := by
  obtain ⟨before, -, hused⟩ := Checked.bind_eq_ok.mp h
  obtain ⟨-, now, -, -, consumedAt, -, rfl⟩ := consumed_eq_ok.mp hused
  rw [readPermit_written] at hread
  have hconsumed := (fromDocument_reads hread).consumed
  exact (Except.ok.inj hconsumed).symm

end Sequence

section Fresh

variable {host : PermitHost} {request : LivePermitRequest} {permit : LiveExecutionPermit}
variable {now : Option DateTime} {reading : Instant} {draw : Fin 16 → Fin 64} {repo : Repository}
variable {folder issued : PermitFolder}

/-- The permit is expected by every call that matches it. -/
theorem Matching.expected {safe : LivePermitRequest} {createdAt expiresAt : Instant} {permitId : String}
    {call : PermitCall} (hsafe : validatedRequest request = .ok safe)
    (h : Matching host request (newPermit host.rt safe permitId createdAt expiresAt repo) call) :
    Expected call (newPermit host.rt safe permitId createdAt expiresAt repo) := by
  obtain ⟨hvalid, hsame⟩ := validatedRequest_eq_ok hsafe
  have hscope : safe.scope = request.scope := (congrArg LivePermitRequest.scope hsame :)
  have hprofile : safe.profileId = Text.strip request.profileId :=
    (congrArg LivePermitRequest.profileId hsame :)
  exact {
    envelopeGiven := fun hauth => by
      have hallowed := hvalid.envelope
      rw [EnvelopeAllowed, if_pos (hscope.trans (h.scope.symm.trans hauth))] at hallowed
      rw [h.variant, h.header]
      refine ⟨?_, hvalid.header (hscope.trans (h.scope.symm.trans hauth))⟩
      obtain ⟨variant, -, hvariant⟩ := List.mem_map.mp hallowed.1
      exact fun hnone => (nomatch hvariant.trans hnone)
    scope := hscope.trans h.scope.symm
    profile := by
      obtain ⟨-, hid⟩ := safeProfileId_eq_ok hvalid.profile
      change safeProfileId call.profileId = .ok safe.profileId
      rw [safeProfileId, h.profile, ← hprofile, if_pos hid]
    kind := (congrArg LivePermitRequest.kind hsame :).trans h.kind.symm
    direction := (congrArg LivePermitRequest.direction hsame :).trans h.direction.symm
    dateFrom := (congrArg LivePermitRequest.dateFrom hsame :).trans h.dateFrom.symm
    dateTo := (congrArg LivePermitRequest.dateTo hsame :).trans h.dateTo.symm
    variant := fun variant hset => by
      rw [← h.variant, Option.mem_def.mp hset]
      rfl
    header := fun header hset => h.header.symm.trans hset }

end Fresh

/-! ## An issued permit -/

section Sample

/-- The permit that is issued for the sample request when the id is drawn. -/
def drawnPermit (draw : Fin 16 → Fin 64) : LiveExecutionPermit :=
  newPermit sampleMachine.rt sampleRequest (tokenUrlsafe draw) sampleNoon
    63842386500000000 sampleCheckout

theorem sampleRequest_valid : validatedRequest sampleRequest = .ok sampleRequest := by decide +kernel

/-- The call that the drawn permit is for, at noon. -/
def drawnCall (draw : Fin 16 → Fin 64) : PermitCall :=
  { sampleCall with permitRef := tokenUrlsafe draw }

theorem drawnCall_matching (draw : Fin 16 → Fin 64) :
    Matching sampleMachine sampleRequest (drawnPermit draw) (drawnCall draw) where
  reference := resolve_tokenUrlsafe sampleMachine draw
  scope := rfl
  profile := rfl
  kind := rfl
  direction := rfl
  dateFrom := rfl
  dateTo := rfl
  variant := rfl
  header := rfl
  repo := by
    rw [drawnPermit, newPermit]
    dsimp only
    rfl

end Sample

/-! ## Calls that overlap -/

/-- What a call writes over the document that it has loaded, if it is granted. -/
def consuming {ι : Type} (host : PermitHost) (calls : ι → PermitCall) (i : ι) (seen : PermitFile) :
    Option PermitFile :=
  (useFile host (calls i) seen).toOption.map permitFile

/-- A document that can be read and says that it was not consumed. -/
def Unused (host : PermitHost) (file : PermitFile) : Prop :=
  ∃ permit, readPermit host.zone file = .ok permit ∧ permit.consumed = false

section Overlap

variable {ι : Type} {host : PermitHost} {calls : ι → PermitCall} {file : PermitFile}

theorem consuming_eq_some {i : ι} {seen next : PermitFile} :
    consuming host calls i seen = some next ↔
      ∃ used, useFile host (calls i) seen = .ok used ∧ next = permitFile used := by
  rw [consuming]
  cases useFile host (calls i) seen with
  | error => exact iff_of_false (fun h => (nomatch h)) fun ⟨_, h, _⟩ => (nomatch h)
  | ok used =>
      constructor
      · intro h
        exact ⟨used, rfl, (Option.some.inj h).symm⟩
      · rintro ⟨_, huse, rfl⟩
        cases huse
        rfl

/-- A write replaces a document that was not consumed by one that was. -/
theorem consuming_consumes {i : ι} {seen next : PermitFile} (h : consuming host calls i seen = some next) :
    Unused host seen ∧ ¬ Unused host next := by
  obtain ⟨used, huse, rfl⟩ := consuming_eq_some.mp h
  refine ⟨useFile_unused huse, ?_⟩
  rintro ⟨permit, hread, hunused⟩
  rw [useFile_consumed huse hread] at hunused
  cases hunused

/-- A call by itself loads, validates and writes the document it names. -/
theorem exec_eq_consuming {i : ι} {folder : PermitFolder} {name : String}
    (hname : resolvePermitReference host (calls i).permitRef = .ok name) :
    ((validateAndConsumeLivePermit host (calls i)).exec folder).2 name =
      (consuming host calls i (folder name)).getD (folder name) := by
  cases huse : useFile host (calls i) (folder name) with
  | error =>
      rw [exec_of_refused hname huse, consuming, huse]
      rfl
  | ok used =>
      rw [exec_of_use hname huse, consuming, huse]
      exact Function.update_self _ _ _

/-- Of any calls on one permit whose steps interleave, no more than one returns exactly if
every write finds the document as its call has loaded it. -/
theorem permit_once_iff [DecidableEq ι] {events : List (Event ι)} {s : State ι PermitFile}
    (h : Interleaving (consuming host calls) (start file) events s) :
    Once s ↔ Run (consuming host calls) FreshWrite (start file) events s :=
  once_iff_fresh (fun _ _ _ => consuming_consumes) h

end Overlap

section Sample

/-- Two equal calls on one permit. -/
def bothCalls : Bool → PermitCall := fun _ => drawnCall fun _ => 0

/-- Both calls load the document before either writes. -/
def overlappingCalls : List (Event Bool) :=
  [.read false, .read true, .decide false, .decide true, .write false, .write true]

theorem drawnPermit_consuming (i : Bool) :
    consuming sampleMachine bothCalls i (permitFile (drawnPermit fun _ => 0)) =
      some (permitFile { (drawnPermit fun _ => 0) with
        consumed := true
        consumedAt := some sampleNoon }) := by
  obtain ⟨hvalid, -⟩ := validatedRequest_eq_ok sampleRequest_valid
  have hlegible : Legible (drawnPermit fun _ => 0) := newPermit_legible hvalid (by decide)
  have hmatching := drawnCall_matching fun _ => 0
  refine consuming_eq_some.mpr ⟨_, ?_, rfl⟩
  rw [useFile_permitFile hlegible]
  exact consumed_eq_ok.mpr ⟨hmatching.expected sampleRequest_valid, sampleNoon, rfl,
    newPermit_policy hvalid (by decide) hmatching.repo, sampleNoon, rfl, rfl⟩

theorem overlappingCalls_run : ∃ s, Interleaving (consuming sampleMachine bothCalls)
    (start (permitFile (drawnPermit fun _ => 0))) overlappingCalls s ∧
    ∀ i, s.phase i = .returned := by
  have hnext := drawnPermit_consuming
  refine ⟨_, .snoc (.snoc (.snoc (.snoc (.snoc (.snoc .nil trivial (.read false rfl)) trivial
    (.read true rfl)) trivial (.decide false _ _ rfl (hnext false))) trivial
    (.decide true _ _ rfl (hnext true))) trivial (.write false _ _ rfl)) trivial
    (.write true _ _ rfl), ?_⟩
  intro i
  cases i <;> rfl

theorem permit_once_iff_sample : ∃ s, Once s ↔ Run (consuming sampleMachine bothCalls) FreshWrite
    (start (permitFile (drawnPermit fun _ => 0))) overlappingCalls s := by
  obtain ⟨s, hrun, -⟩ := overlappingCalls_run
  exact ⟨s, permit_once_iff hrun⟩

/-- Where two calls load the document before either writes it, both return. -/
theorem permit_used_twice : ¬ ∀ host (calls : Bool → PermitCall) file events s,
    Interleaving (consuming host calls) (start file) events s → Once s := by
  intro h
  obtain ⟨s, hrun, hreturned⟩ := overlappingCalls_run
  exact Bool.false_ne_true
    (h sampleMachine bothCalls _ overlappingCalls s hrun false true (hreturned false) (hreturned true))

end Sample

end LivePermit

end CfdiVault
