import CfdiVault.ConfigAcceptance
import CfdiVault.Library.IsoFormat
import Mathlib.Data.List.Nodup

/-!
# The profile of an onboarding

`build_profile_document` makes the document of a profile from what the operator has entered.  It is a
dictionary with the id of the request (`unique_buildProfileDocument`, `buildProfileDocument_id`), and the
checks of the configuration accept it exactly if the entered values fit; it then stands for the
settings that were entered (`profileDocument_built_iff`).
-/

namespace CfdiVault

namespace Onboarding

open Config

/-- Download direction selected during onboarding. -/
inductive DownloadMode where
  | issued
  | received
  | both
  deriving DecidableEq

/-- Local scheduling intent selected during onboarding. -/
inductive ScheduleMode where
  | disabled
  | interval
  | daily
  deriving DecidableEq

/-- Non-secret onboarding input, with the text of the storage root after `expanduser()`. -/
structure OnboardingRequest where
  profileId : CodeText
  rfc : CodeText
  storageRoot : CodeText
  downloadMode : DownloadMode
  startDate : Date
  endDate : Option Date
  scheduleMode : ScheduleMode
  maxConcurrency : Int
  intervalMinutes : Option Int := none
  dailyAt : Option CodeText := none
  timezone : CodeText := CodeText.of "America/Mexico_City"
  credentialRefPrefix : Option CodeText := none
  replaceExisting : Bool := false

/-- What an onboarding raises: an `OnboardingError` with its errors, or a `ValueError` of the host. -/
inductive OnboardingFault where
  | onboarding (errors : List CodeText)
  | notUtf8
  | digits
  | urlparse
  | notEncodable

/-- `raise OnboardingError([message])` -/
def refuse {α : Type} (message : String) : Except OnboardingFault α :=
  .error (.onboarding [CodeText.of message])

/-- A text under its key. -/
def textMember (key : String) (text : CodeText) : CodeText × Document := (CodeText.of key, .str text)

/-- The text of an ISO date. -/
def dateValue (date : Date) : Document := .str (CodeText.of (DateTime.formatDate date.ordinal))

/-- `_initial_range_document` -/
def initialRangeDocument (startDate : Date) (endDate : Option Date) :
    Except OnboardingFault Members :=
  match endDate with
  | none => .ok [(CodeText.of "startDate", dateValue startDate)]
  | some endDate =>
      if endDate.ordinal < startDate.ordinal then
        refuse "end date must be greater than or equal to start date"
      else .ok [(CodeText.of "startDate", dateValue startDate), (CodeText.of "endDate", dateValue endDate)]

/-- `_schedule_document` -/
def scheduleDocument (request : OnboardingRequest) : Except OnboardingFault Members :=
  let document : Members := [(CodeText.of "enabled", .bool (request.scheduleMode != .disabled)),
    textMember "timezone" request.timezone]
  match request.scheduleMode, request.intervalMinutes, request.dailyAt with
  | .disabled, _, _ => .ok document
  | .interval, none, _ => refuse "interval periodicity requires --interval-minutes"
  | .interval, some minutes, _ => .ok (document ++ [(CodeText.of "intervalMinutes", .int minutes)])
  | .daily, _, none => refuse "daily periodicity requires --daily-at"
  | .daily, _, some time => .ok (document ++ [textMember "dailyAt" time])

/-- A character of `"._-"` -/
def isIdMark (c : Char) : Bool := c == '.' || c == '_' || c == '-'

/-- A character that a credential reference takes over from the id of its profile. -/
def safeIdPoint (host : ConfigHost) (point : CodePoint) : CodePoint :=
  if point.is (fun c => host.alnum c || isIdMark c) then point else .scalar '-'

/-- `_default_credential_ref_prefix` -/
def defaultCredentialRefPrefix (host : ConfigHost) (profileId : CodeText) : CodeText :=
  let safeProfile := (((profileId.map (safeIdPoint host)).dropWhile (CodePoint.is isIdMark)).rdropWhile
    (CodePoint.is isIdMark))
  CodeText.of "windows-credential-manager://cfdi-vault/" ++
    if safeProfile = [] then CodeText.of "default" else safeProfile

/-- What the references of a request begin with. -/
def credentialBase (host : ConfigHost) (request : OnboardingRequest) : CodeText :=
  (match request.credentialRefPrefix with
    | none | some [] => defaultCredentialRefPrefix host request.profileId
    | some given => given).rdropWhile (CodePoint.is (· == '/'))

/-- `_credential_refs` -/
def credentialRefs (host : ConfigHost) (request : OnboardingRequest) : Members :=
  [textMember "certificateRef" (credentialBase host request ++ CodeText.of "/certificate"),
    textMember "privateKeyRef" (credentialBase host request ++ CodeText.of "/private-key"),
    textMember "passphraseRef" (credentialBase host request ++ CodeText.of "/private-key-phrase")]

/-- The directions of a mode. -/
def downloadDocument (mode : DownloadMode) : Members :=
  [(CodeText.of "issued", .bool (mode == .issued || mode == .both)),
    (CodeText.of "received", .bool (mode == .received || mode == .both)),
    (CodeText.of "metadataFirst", .bool true)]

/-- `build_profile_document` -/
def buildProfileDocument (host : ConfigHost) (request : OnboardingRequest) (certificateFingerprint : CodeText) :
    Except OnboardingFault Members := do
  let initialRange ← initialRangeDocument request.startDate request.endDate
  let schedule ← scheduleDocument request
  return [textMember "profileId" request.profileId,
    textMember "rfc" (host.upper request.rfc),
    textMember "storageRoot" request.storageRoot,
    (CodeText.of "download", .obj (downloadDocument request.downloadMode)),
    (CodeText.of "initialRange", .obj initialRange),
    (CodeText.of "maxConcurrency", .int request.maxConcurrency),
    (CodeText.of "schedule", .obj schedule),
    textMember "certificateFingerprint" certificateFingerprint,
    (CodeText.of "credentialRefs", .obj (credentialRefs host request))]

/-! ## Settings -/

/-- The settings of the download that a mode asks for. -/
def requestedDownload (mode : DownloadMode) : DownloadSettings where
  issued := mode == .issued || mode == .both
  received := mode == .received || mode == .both
  metadataFirst := true

def requestedSchedule (request : OnboardingRequest) : ScheduleSettings where
  enabled := request.scheduleMode != .disabled
  intervalMinutes := if request.scheduleMode = .interval then request.intervalMinutes else none
  dailyAt := if request.scheduleMode = .daily then request.dailyAt else none
  timezone := request.timezone

def requestedReferences (host : ConfigHost) (request : OnboardingRequest) : CredentialReferences where
  certificateRef := credentialBase host request ++ CodeText.of "/certificate"
  privateKeyRef := credentialBase host request ++ CodeText.of "/private-key"
  phraseRef := credentialBase host request ++ CodeText.of "/private-key-phrase"

/-- The profile that a request asks for. -/
def requestedProfile (host : ConfigHost) (request : OnboardingRequest) (certificateFingerprint : CodeText) :
    ProfileConfig where
  profileId := request.profileId
  rfc := host.upper (host.upper request.rfc)
  storageRoot := request.storageRoot
  download := requestedDownload request.downloadMode
  maxConcurrency := request.maxConcurrency
  schedule := requestedSchedule request
  certificateFingerprint := host.lower certificateFingerprint
  credentialRefs := requestedReferences host request
  initialRange := some ⟨request.startDate.ordinal, request.endDate.map Date.ordinal⟩
  lookbackDays := none

/-- A text is no blank. -/
def NotBlank (text : CodeText) : Prop := CodeText.strip text ≠ []

/-- A text is a reference to the custody of a credential. -/
def IsReference (host : ConfigHost) (text : CodeText) : Prop :=
  NotBlank text ∧ ∃ url, host.urlparse text = some url ∧ url.scheme ∈ ALLOWED_REFERENCE_SCHEMES.map CodeText.of ∧
    url.netloc ≠ [] ∧ containsCredentialFileSegment host url = false

/-- The entered values are ones that a configuration takes. -/
structure RequestFits (host : ConfigHost) (request : OnboardingRequest) (certificateFingerprint : CodeText) :
    Prop where
  profileId : NotBlank request.profileId ∧ PROFILE_ID_PATTERN request.profileId = true
  rfc : NotBlank (host.upper request.rfc) ∧ RFC_PATTERN (host.upper request.rfc) = true
  storageRoot : NotBlank request.storageRoot ∧ CodeText.strip request.storageRoot = request.storageRoot
  fingerprint : NotBlank certificateFingerprint ∧ FINGERPRINT_PATTERN certificateFingerprint = true
  maxConcurrency : 1 ≤ request.maxConcurrency ∧ request.maxConcurrency ≤ 10
  intervalMinutes : ∀ minutes, (requestedSchedule request).intervalMinutes = some minutes → 1 ≤ minutes
  dailyAt : ∀ time, (requestedSchedule request).dailyAt = some time → TIME_PATTERN time = true
  timezone : NotBlank request.timezone
  certificateRef : IsReference host (requestedReferences host request).certificateRef
  privateKeyRef : IsReference host (requestedReferences host request).privateKeyRef
  phraseRef : IsReference host (requestedReferences host request).phraseRef

section Built

variable {host : ConfigHost} {request : OnboardingRequest} {certificateFingerprint : CodeText} {data : Members}

theorem buildProfileDocument_eq_ok (h : buildProfileDocument host request certificateFingerprint = .ok data) :
    ∃ initialRange schedule, initialRangeDocument request.startDate request.endDate = .ok initialRange ∧
      scheduleDocument request = .ok schedule ∧
      data = [textMember "profileId" request.profileId,
        textMember "rfc" (host.upper request.rfc),
        textMember "storageRoot" request.storageRoot,
        (CodeText.of "download", .obj (downloadDocument request.downloadMode)),
        (CodeText.of "initialRange", .obj initialRange),
        (CodeText.of "maxConcurrency", .int request.maxConcurrency),
        (CodeText.of "schedule", .obj schedule),
        textMember "certificateFingerprint" certificateFingerprint,
        (CodeText.of "credentialRefs", .obj (credentialRefs host request))] := by
  unfold buildProfileDocument at h
  cases hrange : initialRangeDocument request.startDate request.endDate with
  | error fault => rw [hrange] at h; cases h
  | ok initialRange =>
      cases hschedule : scheduleDocument request with
      | error fault => rw [hrange, hschedule] at h; cases h
      | ok schedule =>
          rw [hrange, hschedule] at h
          cases h
          exact ⟨initialRange, schedule, rfl, rfl, rfl⟩

theorem isoDate_dateValue {date : Date} {result : Option Nat} :
    IsoDate (dateValue date) result ↔ result = some date.ordinal := by
  have hparse := DateTime.parseDate_formatDate date.pos date.le_max
  cases result with
  | none => simp [IsoDate, dateValue]
  | some ordinal =>
      constructor
      · rintro ⟨text, htext, h⟩
        obtain rfl : CodeText.of _ = text := Document.str.inj htext
        rw [CodeText.mapM_char?_of, Option.bind_some, hparse] at h
        exact h.symm
      · rintro ⟨⟩
        exact ⟨_, rfl, by rw [CodeText.mapM_char?_of, Option.bind_some, hparse]⟩

/-- The keys of a short document. -/
theorem keysIn_of {allowedKeys : List String} (keys : List String) (hdata : data.map Prod.fst = keys.map CodeText.of)
    (h : ∀ key ∈ keys, key ∈ allowedKeys) : KeysIn data allowedKeys := by
  intro member hmember
  have hkey : member.1 ∈ keys.map CodeText.of := hdata ▸ List.mem_map_of_mem hmember
  obtain ⟨key, hmem, hkey⟩ := List.mem_map.mp hkey
  exact hkey ▸ List.mem_map_of_mem (h key hmem)

/-- The range of a document that has been built. -/
theorem rangeDocument_built_iff {startDate : Date} {endDate : Option Date} {range : InitialRange}
    (h : initialRangeDocument startDate endDate = .ok data) :
    RangeDocument data range ↔ range = ⟨startDate.ordinal, endDate.map Date.ordinal⟩ := by
  cases endDate with
  | none =>
      cases h
      constructor
      · rintro ⟨-, hstart, hend, -⟩
        obtain ⟨start, «end»⟩ := range
        cases isoDate_dateValue.mp hstart
        cases «end» with
        | none => rfl
        | some date => exact absurd hend fun ⟨_, h, _⟩ => nomatch h
      · rintro rfl
        refine ⟨keysIn_of ["startDate"] rfl (by simp), isoDate_dateValue.mpr rfl, rfl, ?_⟩
        exact fun date hdate => nomatch hdate
  | some endDate =>
      unfold initialRangeDocument at h
      dsimp only at h
      split_ifs at h with hordered
      · cases h
      · cases h
        constructor
        · rintro ⟨-, hstart, hend, -⟩
          obtain ⟨start, «end»⟩ := range
          cases isoDate_dateValue.mp hstart
          cases isoDate_dateValue.mp hend
          rfl
        · rintro rfl
          refine ⟨keysIn_of ["startDate", "endDate"] rfl (by simp), isoDate_dateValue.mpr rfl,
            isoDate_dateValue.mpr rfl, ?_⟩
          rintro _ ⟨⟩
          exact Nat.le_of_not_lt hordered

/-- The settings of a document with a time zone and with what its mode needs. -/
theorem scheduleDocument_iff {enabled : Bool} {intervalMinutes : Option Int} {dailyAt : Option CodeText}
    {timezone : CodeText} {settings : ScheduleSettings}
    (hkeys : KeysIn data ["enabled", "intervalMinutes", "dailyAt", "timezone"])
    (henabled : Members.get data "enabled" = .bool enabled)
    (hinterval : Members.get data "intervalMinutes" = (intervalMinutes.map Document.int).getD .null)
    (hdaily : Members.get data "dailyAt" = (dailyAt.map Document.str).getD .null)
    (hhas : Members.has data "timezone" = true) (htimezone : Members.get data "timezone" = .str timezone)
    (hruns : enabled = true → intervalMinutes ≠ none ∨ dailyAt ≠ none) :
    ScheduleDocument data settings ↔
      ((∀ minutes, intervalMinutes = some minutes → 1 ≤ minutes) ∧
        (∀ time, dailyAt = some time → TIME_PATTERN time = true) ∧ NotBlank timezone) ∧
        settings = ⟨enabled, intervalMinutes, dailyAt, timezone⟩ := by
  constructor
  · rintro ⟨-, he, hi, hd, ht, -⟩
    obtain ⟨enabled', intervalMinutes', dailyAt', timezone'⟩ := settings
    rw [hhas, if_pos rfl, htimezone] at ht
    obtain ⟨⟨⟩, hblank⟩ := ht
    cases henabled.symm.trans he
    rw [hinterval] at hi
    rw [hdaily] at hd
    have hminutes : (∀ minutes, intervalMinutes = some minutes → 1 ≤ minutes) ∧ intervalMinutes' = intervalMinutes := by
      cases intervalMinutes <;> cases intervalMinutes' <;> simp_all [PositiveInt]
    have htime : (∀ time, dailyAt = some time → TIME_PATTERN time = true) ∧ dailyAt' = dailyAt := by
      cases dailyAt <;> cases dailyAt' <;> simp_all [DailyTime]
    rw [hminutes.2, htime.2]
    exact ⟨⟨hminutes.1, htime.1, hblank⟩, rfl⟩
  · rintro ⟨⟨hminutes, htime, hblank⟩, rfl⟩
    refine ⟨hkeys, henabled, ?_, ?_, ?_, hruns⟩
    · rw [hinterval]
      cases intervalMinutes with
      | none => rfl
      | some minutes => exact ⟨rfl, hminutes minutes rfl⟩
    · rw [hdaily]
      cases dailyAt with
      | none => rfl
      | some time => exact ⟨rfl, htime time rfl⟩
    · rw [hhas, if_pos rfl]
      exact ⟨htimezone, hblank⟩

/-- The schedule of a document that has been built. -/
theorem scheduleDocument_built_iff {settings : ScheduleSettings} (h : scheduleDocument request = .ok data) :
    ScheduleDocument data settings ↔
      ((∀ minutes, (requestedSchedule request).intervalMinutes = some minutes → 1 ≤ minutes) ∧
        (∀ time, (requestedSchedule request).dailyAt = some time → TIME_PATTERN time = true) ∧
        NotBlank request.timezone) ∧ settings = requestedSchedule request := by
  unfold scheduleDocument at h
  unfold requestedSchedule
  cases hmode : request.scheduleMode with
  | disabled =>
      rw [hmode] at h
      cases h
      refine scheduleDocument_iff (keysIn_of ["enabled", "timezone"] rfl (by simp)) rfl rfl rfl rfl rfl ?_
      exact fun h => absurd h (by decide)
  | interval =>
      rw [hmode] at h
      cases hminutes : request.intervalMinutes with
      | none => rw [hminutes] at h; cases h
      | some minutes =>
          rw [hminutes] at h
          cases h
          refine scheduleDocument_iff (keysIn_of ["enabled", "timezone", "intervalMinutes"] rfl (by simp))
            rfl rfl rfl rfl rfl ?_
          exact fun _ => .inl (by simp)
  | daily =>
      rw [hmode] at h
      cases htime : request.dailyAt with
      | none => rw [htime] at h; cases h
      | some time =>
          rw [htime] at h
          cases h
          refine scheduleDocument_iff (keysIn_of ["enabled", "timezone", "dailyAt"] rfl (by simp))
            rfl rfl rfl rfl rfl ?_
          exact fun _ => .inr (by simp)

/-- A reference under its key. -/
theorem reference_iff {key : String} {text text' : CodeText} (h : Members.get data key = .str text) :
    Reference host data key text' ↔ IsReference host text ∧ text' = text := by
  constructor
  · rintro ⟨⟨hget, hblank⟩, hurl⟩
    cases h.symm.trans hget
    exact ⟨⟨hblank, hurl⟩, rfl⟩
  · rintro ⟨⟨hblank, hurl⟩, rfl⟩
    exact ⟨⟨h, hblank⟩, hurl⟩

/-- The references of a document that has been built. -/
theorem referencesDocument_built_iff {refs : CredentialReferences} :
    ReferencesDocument host (credentialRefs host request) refs ↔
      (IsReference host (requestedReferences host request).certificateRef ∧
        IsReference host (requestedReferences host request).privateKeyRef ∧
        IsReference host (requestedReferences host request).phraseRef) ∧
        refs = requestedReferences host request := by
  have hcertificate : Members.get (credentialRefs host request) "certificateRef" =
      .str (requestedReferences host request).certificateRef := rfl
  have hprivate : Members.get (credentialRefs host request) "privateKeyRef" =
      .str (requestedReferences host request).privateKeyRef := rfl
  have hphrase : Members.get (credentialRefs host request) "passphraseRef" =
      .str (requestedReferences host request).phraseRef := rfl
  constructor
  · rintro ⟨-, hc, hk, hp⟩
    obtain ⟨certificateRef, privateKeyRef, phraseRef⟩ := refs
    obtain ⟨hcref, rfl⟩ := (reference_iff hcertificate).mp hc
    obtain ⟨hkref, rfl⟩ := (reference_iff hprivate).mp hk
    obtain ⟨hpref, rfl⟩ := (reference_iff hphrase).mp hp
    exact ⟨⟨hcref, hkref, hpref⟩, rfl⟩
  · rintro ⟨⟨hc, hk, hp⟩, rfl⟩
    exact ⟨keysIn_of ["certificateRef", "privateKeyRef", "passphraseRef"] rfl (fun _ h => h),
      (reference_iff hcertificate).mpr ⟨hc, rfl⟩, (reference_iff hprivate).mpr ⟨hk, rfl⟩,
      (reference_iff hphrase).mpr ⟨hp, rfl⟩⟩

/-- The directions of a document that has been built. -/
theorem downloadDocument_built_iff {mode : DownloadMode} {settings : DownloadSettings} :
    DownloadDocument (downloadDocument mode) settings ↔ settings = requestedDownload mode := by
  have hissued : Members.get (downloadDocument mode) "issued" = .bool (requestedDownload mode).issued := rfl
  have hreceived : Members.get (downloadDocument mode) "received" = .bool (requestedDownload mode).received := rfl
  have hmetadata : Members.get (downloadDocument mode) "metadataFirst" = .bool true := rfl
  constructor
  · rintro ⟨-, hi, hr, hm, -⟩
    obtain ⟨issued, received, metadataFirst⟩ := settings
    cases hissued.symm.trans hi
    cases hreceived.symm.trans hr
    cases hmetadata.symm.trans hm
    rfl
  · rintro rfl
    refine ⟨keysIn_of ["issued", "received", "metadataFirst"] rfl (fun _ h => h), hissued, hreceived, hmetadata, ?_⟩
    cases mode <;> decide

/-- The checks of the configuration accept a profile that has been built exactly if the entered values
fit, and it stands for the settings that were entered. -/
theorem profileDocument_built_iff {profile : ProfileConfig}
    (h : buildProfileDocument host request certificateFingerprint = .ok data) :
    ProfileDocument host data profile ↔ RequestFits host request certificateFingerprint ∧
      profile = requestedProfile host request certificateFingerprint := by
  obtain ⟨rangeData, scheduleData, hrange, hschedule, rfl⟩ := buildProfileDocument_eq_ok h
  constructor
  · rintro ⟨-, ⟨⟨hid, hidBlank⟩, hidShape⟩, ⟨rfc, ⟨hrfc, hrfcBlank⟩, hrfcShape, hupper⟩, ⟨⟨hroot, hrootBlank⟩, hrootPlain⟩,
      ⟨fingerprint, ⟨hfingerprint, hfingerprintBlank⟩, hfingerprintShape, hlower⟩, ⟨_, ⟨⟩, hdownload⟩, hinitial,
      hlookback, -, ⟨hconcurrency, hmaximum⟩, ⟨_, ⟨⟩, hsettings⟩, ⟨_, ⟨⟩, hrefs⟩⟩
    obtain ⟨profileId, rfc', storageRoot, download, maxConcurrency, schedule, fingerprint', refs, initialRange,
      lookbackDays⟩ := profile
    cases hid
    cases hrfc
    cases hroot
    cases hfingerprint
    cases hupper
    cases hlower
    obtain rfl := downloadDocument_built_iff.mp hdownload
    obtain ⟨⟨hminutes, htime, htimezone⟩, rfl⟩ := (scheduleDocument_built_iff hschedule).mp hsettings
    obtain ⟨⟨hcertificate, hprivate, hphrase⟩, rfl⟩ := referencesDocument_built_iff.mp hrefs
    obtain ⟨hcount, hpositive⟩ := hconcurrency
    cases hcount
    have hrangeSettings : initialRange = some ⟨request.startDate.ordinal, request.endDate.map Date.ordinal⟩ := by
      cases initialRange with
      | none => cases hinitial
      | some range =>
          obtain ⟨_, ⟨⟩, hsettings⟩ := hinitial
          exact congrArg some ((rangeDocument_built_iff hrange).mp hsettings)
    have hnoLookback : lookbackDays = none := by
      cases lookbackDays with
      | none => rfl
      | some days => cases hlookback.1
    obtain rfl := hrangeSettings
    obtain rfl := hnoLookback
    exact ⟨⟨⟨hidBlank, hidShape⟩, ⟨hrfcBlank, hrfcShape⟩, ⟨hrootBlank, hrootPlain⟩,
      ⟨hfingerprintBlank, hfingerprintShape⟩, ⟨hpositive, hmaximum⟩, hminutes, htime, htimezone, hcertificate, hprivate,
      hphrase⟩, rfl⟩
  · rintro ⟨hfits, rfl⟩
    refine ⟨keysIn_of ["profileId", "rfc", "storageRoot", "download", "initialRange", "maxConcurrency", "schedule",
        "certificateFingerprint", "credentialRefs"] rfl (by simp),
      ⟨⟨rfl, hfits.profileId.1⟩, hfits.profileId.2⟩, ⟨_, ⟨rfl, hfits.rfc.1⟩, hfits.rfc.2, rfl⟩,
      ⟨⟨rfl, hfits.storageRoot.1⟩, hfits.storageRoot.2⟩, ⟨_, ⟨rfl, hfits.fingerprint.1⟩, hfits.fingerprint.2, rfl⟩,
      ⟨_, rfl, downloadDocument_built_iff.mpr rfl⟩, ⟨_, rfl, (rangeDocument_built_iff hrange).mpr rfl⟩, rfl, ?_,
      ⟨⟨rfl, hfits.maxConcurrency.1⟩, hfits.maxConcurrency.2⟩, ⟨_, rfl, ?_⟩, ⟨_, rfl, ?_⟩⟩
    · exact iff_of_false (fun h => nomatch h) fun h => h rfl
    · exact (scheduleDocument_built_iff hschedule).mpr ⟨⟨hfits.intervalMinutes, hfits.dailyAt, hfits.timezone⟩, rfl⟩
    · exact referencesDocument_built_iff.mpr ⟨⟨hfits.certificateRef, hfits.privateKeyRef, hfits.phraseRef⟩, rfl⟩

theorem buildProfileDocument_id (h : buildProfileDocument host request certificateFingerprint = .ok data) :
    Members.get data "profileId" = .str request.profileId := by
  obtain ⟨rangeData, scheduleData, -, -, rfl⟩ := buildProfileDocument_eq_ok h
  rfl

/-- A short document without nested dictionaries. -/
theorem unique_leaves (keys : List String) (hdata : data.map Prod.fst = keys.map CodeText.of) (hkeys : keys.Nodup)
    (h : ∀ member ∈ data, member.2.Everywhere Document.UniqueKeys) :
    (Document.obj data).Everywhere Document.UniqueKeys := by
  refine Document.everywhere_obj.mpr ⟨?_, h⟩
  rw [Document.UniqueKeys, hdata]
  exact (List.nodup_map_iff CodeText.of_injective).mpr hkeys

theorem unique_textMember {key : String} {text : CodeText} :
    (textMember key text).2.Everywhere Document.UniqueKeys :=
  Document.everywhere_leaf rfl trivial

theorem unique_initialRange {startDate : Date} {endDate : Option Date}
    (h : initialRangeDocument startDate endDate = .ok data) : (Document.obj data).Everywhere Document.UniqueKeys := by
  have hleaf : ∀ date : Date, (dateValue date).Everywhere Document.UniqueKeys :=
    fun date => Document.everywhere_leaf rfl trivial
  unfold initialRangeDocument at h
  split at h
  · cases h
    refine unique_leaves ["startDate"] rfl (by decide) ?_
    simp [hleaf]
  · split_ifs at h
    · cases h
    · cases h
      refine unique_leaves ["startDate", "endDate"] rfl (by decide) ?_
      simp [hleaf]

theorem unique_schedule (h : scheduleDocument request = .ok data) :
    (Document.obj data).Everywhere Document.UniqueKeys := by
  have hbool : ∀ b, (Document.bool b).Everywhere Document.UniqueKeys := fun b => Document.everywhere_leaf rfl trivial
  have hint : ∀ n, (Document.int n).Everywhere Document.UniqueKeys := fun n => Document.everywhere_leaf rfl trivial
  unfold scheduleDocument at h
  split at h
  all_goals cases h
  · refine unique_leaves ["enabled", "timezone"] rfl (by decide) ?_
    simp [hbool, unique_textMember]
  · refine unique_leaves ["enabled", "timezone", "intervalMinutes"] rfl (by decide) ?_
    simp [hbool, hint, unique_textMember]
  · refine unique_leaves ["enabled", "timezone", "dailyAt"] rfl (by decide) ?_
    simp [hbool, unique_textMember]

/-- A profile that has been built is a dictionary of dictionaries. -/
theorem unique_buildProfileDocument (h : buildProfileDocument host request certificateFingerprint = .ok data) :
    (Document.obj data).Everywhere Document.UniqueKeys := by
  obtain ⟨rangeData, scheduleData, hrange, hschedule, rfl⟩ := buildProfileDocument_eq_ok h
  have hint : ∀ n, (Document.int n).Everywhere Document.UniqueKeys := fun n => Document.everywhere_leaf rfl trivial
  have hdownload : (Document.obj (downloadDocument request.downloadMode)).Everywhere Document.UniqueKeys := by
    have hbool : ∀ b, (Document.bool b).Everywhere Document.UniqueKeys :=
      fun b => Document.everywhere_leaf rfl trivial
    refine unique_leaves ["issued", "received", "metadataFirst"] rfl (by decide) ?_
    simp [downloadDocument, hbool]
  have hrefs : (Document.obj (credentialRefs host request)).Everywhere Document.UniqueKeys := by
    refine unique_leaves ["certificateRef", "privateKeyRef", "passphraseRef"] rfl (by decide) ?_
    simp [credentialRefs, unique_textMember]
  refine unique_leaves ["profileId", "rfc", "storageRoot", "download", "initialRange", "maxConcurrency", "schedule",
    "certificateFingerprint", "credentialRefs"] rfl (by decide) ?_
  simp [unique_textMember, hint, hdownload, hrefs, unique_initialRange hrange, unique_schedule hschedule]

end Built

end Onboarding

end CfdiVault
