import CfdiVault.Config
import Mathlib.Data.List.Forall2

/-!
# The documents that are accepted

What a configuration document has to say, field by field, and the configuration that it stands for.
`validateConfig_eq_ok` says that `validate_config` accepts these documents and no others.

The proof goes through the checks that find no error: each lemma says what such a check has seen.
-/

namespace CfdiVault

namespace Config

/-! ## Documents -/

/-- Every key is an allowed one. -/
def KeysIn (data : Members) (allowedKeys : List String) : Prop :=
  ∀ member ∈ data, member.1 ∈ allowedKeys.map CodeText.of

/-- A key holds a text that is not blank. -/
def RequiredText (data : Members) (key : String) (text : CodeText) : Prop :=
  Members.get data key = .str text ∧ CodeText.strip text ≠ []

/-- A value is a positive integer, or it is missing. -/
def PositiveInt (value : Document) : Option Int → Prop
  | none => value = .null
  | some n => value = .int n ∧ 1 ≤ n

/-- A value is an ISO date, or it is missing. -/
def IsoDate (value : Document) : Option Nat → Prop
  | none => value = .null
  | some date => ∃ text, value = .str text ∧ (text.mapM CodePoint.char?).bind DateTime.parseDate = some date

structure DownloadDocument (data : Members) (settings : DownloadSettings) : Prop where
  keys : KeysIn data ["issued", "received", "metadataFirst"]
  issued : Members.get data "issued" = .bool settings.issued
  received : Members.get data "received" = .bool settings.received
  metadataFirst : Members.get data "metadataFirst" = .bool settings.metadataFirst
  direction : settings.issued = true ∨ settings.received = true

structure RangeDocument (data : Members) (range : InitialRange) : Prop where
  keys : KeysIn data ["startDate", "endDate"]
  startDate : IsoDate (Members.get data "startDate") (some range.startDate)
  endDate : IsoDate (Members.get data "endDate") range.endDate
  ordered : ∀ date, range.endDate = some date → range.startDate ≤ date

/-- A value is a time of the day, or it is missing. -/
def DailyTime (value : Document) : Option CodeText → Prop
  | none => value = .null
  | some text => value = .str text ∧ TIME_PATTERN text = true

structure ScheduleDocument (data : Members) (settings : ScheduleSettings) : Prop where
  keys : KeysIn data ["enabled", "intervalMinutes", "dailyAt", "timezone"]
  enabled : Members.get data "enabled" = .bool settings.enabled
  intervalMinutes : PositiveInt (Members.get data "intervalMinutes") settings.intervalMinutes
  dailyAt : DailyTime (Members.get data "dailyAt") settings.dailyAt
  timezone : (if Members.has data "timezone" then Members.get data "timezone" else .str (CodeText.of "UTC")) =
    .str settings.timezone ∧ CodeText.strip settings.timezone ≠ []
  runs : settings.enabled = true → settings.intervalMinutes ≠ none ∨ settings.dailyAt ≠ none

/-- A key holds a reference to the custody of a credential. -/
structure Reference (host : ConfigHost) (data : Members) (key : String) (text : CodeText) : Prop where
  required : RequiredText data key text
  url : ∃ url, host.urlparse text = some url ∧ url.scheme ∈ ALLOWED_REFERENCE_SCHEMES.map CodeText.of ∧
    url.netloc ≠ [] ∧ containsCredentialFileSegment host url = false

structure ReferencesDocument (host : ConfigHost) (data : Members) (refs : CredentialReferences) : Prop where
  keys : KeysIn data ["certificateRef", "privateKeyRef", "passphraseRef"]
  certificateRef : Reference host data "certificateRef" refs.certificateRef
  privateKeyRef : Reference host data "privateKeyRef" refs.privateKeyRef
  phraseRef : Reference host data "passphraseRef" refs.phraseRef

/-- A value is missing, or an object that stands for a range. -/
def OptionalRange (value : Document) : Option InitialRange → Prop
  | none => value = .null
  | some range => ∃ data, value = .obj data ∧ RangeDocument data range

structure ProfileDocument (host : ConfigHost) (data : Members) (profile : ProfileConfig) : Prop where
  keys : KeysIn data ["profileId", "rfc", "storageRoot", "download", "initialRange", "lookbackDays",
    "maxConcurrency", "schedule", "certificateFingerprint", "credentialRefs"]
  profileId : RequiredText data "profileId" profile.profileId ∧ PROFILE_ID_PATTERN profile.profileId = true
  rfc : ∃ text, RequiredText data "rfc" text ∧ RFC_PATTERN text = true ∧ profile.rfc = host.upper text
  storageRoot : RequiredText data "storageRoot" profile.storageRoot ∧
    CodeText.strip profile.storageRoot = profile.storageRoot
  certificateFingerprint : ∃ text, RequiredText data "certificateFingerprint" text ∧
    FINGERPRINT_PATTERN text = true ∧ profile.certificateFingerprint = host.lower text
  download : ∃ nested, Members.get data "download" = .obj nested ∧ DownloadDocument nested profile.download
  initialRange : OptionalRange (Members.get data "initialRange") profile.initialRange
  lookbackDays : PositiveInt (Members.get data "lookbackDays") profile.lookbackDays
  started : profile.initialRange = none ↔ profile.lookbackDays ≠ none
  maxConcurrency : PositiveInt (Members.get data "maxConcurrency") (some profile.maxConcurrency) ∧
    profile.maxConcurrency ≤ 10
  schedule : ∃ nested, Members.get data "schedule" = .obj nested ∧ ScheduleDocument nested profile.schedule
  credentialRefs : ∃ nested, Members.get data "credentialRefs" = .obj nested ∧
    ReferencesDocument host nested profile.credentialRefs

/-- An item of the array of profiles. -/
def ProfileItem (host : ConfigHost) (item : Document) (profile : ProfileConfig) : Prop :=
  ∃ data, item = .obj data ∧ ProfileDocument host data profile

/-- A document stands for a list of profiles. -/
structure ConfigDocument (host : ConfigHost) (data : Members) (profiles : List ProfileConfig) : Prop where
  material : findRawCredentialFields host (CodeText.of "config") (.obj data) = []
  keys : KeysIn data ["schemaVersion", "profiles"]
  schemaVersion : (Members.get data "schemaVersion").equalsOne = true
  items : ∃ items, Members.get data "profiles" = .arr items ∧ items ≠ [] ∧
    List.Forall₂ (ProfileItem host) items profiles
  distinct : (profiles.map (·.profileId)).Nodup

/-! ## Checks without errors -/

section Clean

open Report

variable {host : ConfigHost} {data : Members} {value : Document} {path : CodeText} {key : String}

@[simp] theorem not_clean_error {message : String} {u : Unit} : ¬ Clean (error path message) u := not_clean_add

@[simp] theorem clean_errorIf {condition : Prop} [Decidable condition] {message : String} {u : Unit} :
    Clean (errorIf condition path message) u ↔ ¬ condition := by
  unfold errorIf error
  exact clean_addIf

@[simp] theorem not_clean_refused {α : Type} {message : String} {result : Option α} :
    ¬ Clean (refused path message) result := by
  simp [refused]

@[simp] theorem clean_rejectUnknownKeys {allowedKeys : List String} {u : Unit} :
    Clean (rejectUnknownKeys data path allowedKeys) u ↔ KeysIn data allowedKeys := by
  unfold rejectUnknownKeys KeysIn
  rw [clean_addAll, List.filterMap_eq_nil_iff, List.forall_mem_map]
  refine forall₂_congr fun member _ => ?_
  split <;> simp_all

@[simp] theorem clean_requiredString {result : Option CodeText} :
    Clean (requiredString data key path) result ↔ ∃ text, RequiredText data key text ∧ result = some text := by
  unfold requiredString RequiredText
  cases Members.get data key with
  | str text =>
      simp only [Document.str?, clean_ite, not_clean_refused, clean_pure]
      constructor
      · rintro ⟨hblank, htext⟩
        exact ⟨text, ⟨rfl, hblank⟩, (htext hblank).symm⟩
      · rintro ⟨_, ⟨⟨⟩, hblank⟩, rfl⟩
        exact ⟨hblank, fun _ => rfl⟩
  | _ => simp [Document.str?]

@[simp] theorem clean_parsePositiveInt {required : Bool} {result : Option Int} :
    Clean (parsePositiveInt value path required) result ↔
      PositiveInt value result ∧ (required = true → result ≠ none) := by
  unfold parsePositiveInt PositiveInt
  cases value with
  | null => cases required <;> cases result <;> simp
  | int n =>
      simp only [clean_ite, not_clean_refused, clean_pure]
      cases result with
      | none => simp
      | some m => simp [eq_comm]; omega
  | _ => cases result <;> simp

@[simp] theorem clean_parseDate {required : Bool} {result : Option Nat} :
    Clean (parseDate value path required) result ↔ IsoDate value result ∧ (required = true → result ≠ none) := by
  unfold parseDate IsoDate
  cases value with
  | null => cases required <;> cases result <;> simp
  | str text =>
      cases hdate : (text.mapM CodePoint.char?).bind DateTime.parseDate with
      | none => cases result <;> simp [hdate]
      | some date => cases result <;> simp [hdate]
  | _ => cases result <;> simp

@[simp] theorem clean_parseDailyAt {result : Option CodeText} :
    Clean (parseDailyAt value path) result ↔ DailyTime value result := by
  unfold parseDailyAt DailyTime
  cases value with
  | str text =>
      simp only [clean_ite, clean_pure, not_clean_refused, imp_false, not_not]
      constructor
      · rintro ⟨htext, hpattern⟩
        obtain rfl := htext hpattern
        exact ⟨rfl, hpattern⟩
      · cases result with
        | none =>
            intro h
            cases h
        | some text' =>
            rintro ⟨⟨⟩, hpattern⟩
            exact ⟨fun _ => rfl, hpattern⟩
  | _ => cases result <;> simp

@[simp] theorem clean_parseTimezone {result : CodeText} : Clean (parseTimezone data path) result ↔
    (if Members.has data "timezone" then Members.get data "timezone" else .str (CodeText.of "UTC")) = .str result ∧
      CodeText.strip result ≠ [] := by
  have hrefused : ∀ result', ¬ Clean (do
      error path ".timezone must be a non-empty string"
      pure (CodeText.of "UTC")) result' := fun _ h => by
    obtain ⟨_, h, -⟩ := clean_bind.mp h
    exact not_clean_error h
  unfold parseTimezone
  dsimp only
  generalize (if Members.has data "timezone" then Members.get data "timezone" else _) = value
  cases value with
  | str text =>
      simp only [Document.str?, clean_ite, hrefused, imp_false, clean_pure, Document.str.injEq]
      constructor
      · rintro ⟨hblank, htext⟩
        obtain rfl := htext hblank
        exact ⟨rfl, hblank⟩
      · rintro ⟨rfl, hblank⟩
        exact ⟨hblank, fun _ => rfl⟩
  | _ =>
      refine iff_of_false (hrefused result) ?_
      rintro ⟨h, -⟩
      cases h

/-- What the checks of the settings have seen. -/
theorem clean_parseDownload {result : Option DownloadSettings} :
    Clean (parseDownload value path) result ↔
      ∃ nested settings, value = .obj nested ∧ DownloadDocument nested settings ∧ result = some settings := by
  unfold parseDownload
  cases value with
  | obj nested =>
      simp only [clean_bind, clean_rejectUnknownKeys, clean_errorIf, exists_const]
      constructor
      · rintro ⟨hkeys, hissued, hreceived, hmetadataFirst, hdirection, h⟩
        cases hi : Members.get nested "issued" <;> simp [hi, Document.bool?] at hissued
        cases hr : Members.get nested "received" <;> simp [hr, Document.bool?] at hreceived
        cases hm : Members.get nested "metadataFirst" <;> simp [hm, Document.bool?] at hmetadataFirst
        simp only [hi, hr, hm, Document.bool?, clean_pure] at h hdirection
        refine ⟨nested, _, rfl, ⟨hkeys, hi, hr, hm, ?_⟩, h.symm⟩
        simpa [← not_and_or, Option.some.injEq, Decidable.or_iff_not_not_and_not] using hdirection
      · rintro ⟨_, settings, ⟨⟩, h, rfl⟩
        refine ⟨h.keys, ?_⟩
        simp only [h.issued, h.received, h.metadataFirst, Document.bool?, clean_pure]
        refine ⟨by simp, by simp, by simp, ?_, trivial⟩
        rintro ⟨hi, hr⟩
        have := h.direction
        simp_all
  | _ => simp

theorem clean_parseInitialRange {result : Option InitialRange} :
    Clean (parseInitialRange value path) result ↔ OptionalRange value result := by
  unfold parseInitialRange OptionalRange
  cases value with
  | null => cases result <;> simp
  | obj nested =>
      simp only [clean_bind, clean_rejectUnknownKeys, clean_parseDate, exists_const]
      constructor
      · rintro ⟨hkeys, start, ⟨hstart, hsome⟩, «end», ⟨hend, -⟩, h⟩
        cases start with
        | none => exact absurd rfl (hsome trivial)
        | some start =>
            simp only [clean_bind, clean_errorIf, exists_const, clean_pure] at h
            obtain ⟨hordered, rfl⟩ := h
            refine ⟨nested, rfl, hkeys, hstart, hend, fun date hdate => ?_⟩
            obtain rfl : «end» = some date := hdate
            simpa using hordered
      · cases result with
        | none =>
            intro h
            cases h
        | some range =>
            rintro ⟨_, ⟨⟩, h⟩
            refine ⟨h.keys, some range.startDate, ⟨h.startDate, by simp⟩, range.endDate, ⟨h.endDate, by simp⟩, ?_⟩
            simp only [clean_bind, clean_errorIf, exists_const, clean_pure]
            refine ⟨?_, trivial⟩
            cases hend : range.endDate with
            | none => simp
            | some date => simpa using h.ordered date hend
  | _ => cases result <;> simp

theorem clean_parseSchedule {result : Option ScheduleSettings} :
    Clean (parseSchedule value path) result ↔
      ∃ nested settings, value = .obj nested ∧ ScheduleDocument nested settings ∧ result = some settings := by
  unfold parseSchedule
  cases value with
  | obj nested =>
      simp only [clean_bind, clean_rejectUnknownKeys, exists_const]
      constructor
      · rintro ⟨hkeys, h⟩
        cases henabled : Members.get nested "enabled" with
        | bool enabled =>
            simp only [henabled, Document.bool?, clean_bind, clean_parsePositiveInt, clean_parseDailyAt,
              clean_parseTimezone, clean_errorIf, exists_const, clean_pure] at h
            obtain ⟨intervalMinutes, ⟨hinterval, -⟩, dailyAt, hdaily, timezone, htimezone, hruns, rfl⟩ := h
            refine ⟨nested, _, rfl, ⟨hkeys, henabled, hinterval, hdaily, htimezone, fun hon => ?_⟩, rfl⟩
            simp only [Option.isNone_iff_eq_none, not_and] at hruns
            exact or_iff_not_imp_left.mpr fun hnone => hruns hon (not_not.mp hnone)
        | _ => simp [henabled, Document.bool?] at h
      · rintro ⟨_, settings, ⟨⟩, h, rfl⟩
        refine ⟨h.keys, ?_⟩
        simp only [h.enabled, Document.bool?, clean_bind, clean_parsePositiveInt, clean_parseDailyAt,
          clean_parseTimezone, clean_errorIf, exists_const, clean_pure]
        refine ⟨settings.intervalMinutes, ⟨h.intervalMinutes, by simp⟩, settings.dailyAt, h.dailyAt,
          settings.timezone, h.timezone, ?_, rfl⟩
        rintro ⟨hon, hinterval, hdaily⟩
        rcases h.runs hon with hne | hne
        · exact hne (Option.isNone_iff_eq_none.mp hinterval)
        · exact hne (Option.isNone_iff_eq_none.mp hdaily)
  | _ => simp

theorem clean_requiredReference {result : Option CodeText} :
    Clean (requiredReference host data key path) result ↔
      ∃ text, Reference host data key text ∧ result = some text := by
  unfold requiredReference
  simp only [clean_bind, clean_requiredString]
  constructor
  · rintro ⟨_, ⟨text, hrequired, rfl⟩, h⟩
    cases hurl : host.urlparse text with
    | none => simp [hurl] at h
    | some url =>
        simp only [hurl, clean_bind, clean_errorIf, exists_const, clean_pure, not_or, not_not] at h
        obtain ⟨⟨hscheme, hnetloc⟩, hfile, rfl⟩ := h
        exact ⟨text, ⟨hrequired, url, hurl, hscheme, hnetloc, Bool.eq_false_iff.mpr hfile⟩, rfl⟩
  · rintro ⟨text, ⟨hrequired, url, hurl, hscheme, hnetloc, hfile⟩, rfl⟩
    refine ⟨some text, ⟨text, hrequired, rfl⟩, ?_⟩
    simp only [hurl, clean_bind, clean_errorIf, exists_const, clean_pure, not_or, not_not]
    exact ⟨⟨hscheme, hnetloc⟩, Bool.eq_false_iff.mp hfile, trivial⟩

theorem clean_parseCredentialRefs {result : Option CredentialReferences} :
    Clean (parseCredentialRefs host value path) result ↔
      ∃ nested refs, value = .obj nested ∧ ReferencesDocument host nested refs ∧ result = some refs := by
  unfold parseCredentialRefs
  cases value with
  | obj nested =>
      simp only [clean_bind, clean_rejectUnknownKeys, clean_requiredReference, exists_const]
      constructor
      · rintro ⟨hkeys, _, ⟨certificateRef, hcertificate, rfl⟩, _, ⟨privateKeyRef, hprivate, rfl⟩, _,
          ⟨phraseRef, hphrase, rfl⟩, h⟩
        exact ⟨nested, _, rfl, ⟨hkeys, hcertificate, hprivate, hphrase⟩, (clean_pure.mp h).symm⟩
      · rintro ⟨_, refs, ⟨⟩, h, rfl⟩
        exact ⟨h.keys, _, ⟨_, h.certificateRef, rfl⟩, _, ⟨_, h.privateKeyRef, rfl⟩, _, ⟨_, h.phraseRef, rfl⟩,
          clean_pure.mpr rfl⟩
  | _ => simp

theorem clean_checkShapes {profileId rfc storageRoot fingerprint : CodeText} {u : Unit} :
    Clean (checkShapes path (some profileId) (some rfc) (some storageRoot) (some fingerprint)) u ↔
      PROFILE_ID_PATTERN profileId = true ∧ RFC_PATTERN rfc = true ∧ CodeText.strip storageRoot = storageRoot ∧
        FINGERPRINT_PATTERN fingerprint = true := by
  unfold checkShapes
  simp

/-- What the checks of a profile have seen. -/
theorem clean_parseProfile {result : Option ProfileConfig} :
    Clean (parseProfile host data path) result ↔
      ∃ profile, ProfileDocument host data profile ∧ result = some profile := by
  unfold parseProfile
  simp only [clean_bind, clean_rejectUnknownKeys, clean_requiredString, clean_parseDownload,
    clean_parseInitialRange, clean_parsePositiveInt, clean_parseSchedule, clean_parseCredentialRefs,
    clean_errorIf, exists_const]
  constructor
  · rintro ⟨hkeys, _, ⟨profileId, hprofileId, rfl⟩, _, ⟨rfc, hrfc, rfl⟩, _, ⟨storageRoot, hroot, rfl⟩, _,
      ⟨fingerprint, hfingerprint, rfl⟩, _, hshapes, _, ⟨downloadData, download, hdownload, hsettings, rfl⟩,
      initialRange, hrange, lookbackDays, ⟨hlookback, -⟩, hnone, hboth, maxConcurrency,
      ⟨hconcurrency, hpresent⟩, hmaximum, _, ⟨scheduleData, schedule, hschedule, hruns, rfl⟩, _,
      ⟨refsData, refs, hrefs, hreferences, rfl⟩, h⟩
    obtain ⟨hidShape, hrfcShape, hstripped, hfingerprintShape⟩ := clean_checkShapes.mp hshapes
    cases maxConcurrency with
    | none => exact absurd rfl (hpresent trivial)
    | some maxConcurrency =>
        refine ⟨_, ⟨hkeys, ⟨hprofileId, hidShape⟩, ⟨rfc, hrfc, hrfcShape, rfl⟩, ⟨hroot, hstripped⟩,
          ⟨fingerprint, hfingerprint, hfingerprintShape, rfl⟩, ⟨downloadData, hdownload, hsettings⟩, hrange,
          hlookback, ?_, ⟨hconcurrency, ?_⟩, ⟨scheduleData, hschedule, hruns⟩,
          ⟨refsData, hrefs, hreferences⟩⟩, (clean_pure.mp h).symm⟩
        · cases initialRange <;> cases lookbackDays <;> simp_all
        · simpa using hmaximum
  · rintro ⟨profile, h, rfl⟩
    obtain ⟨rfc, hrfc, hrfcShape, hupper⟩ := h.rfc
    obtain ⟨fingerprint, hfingerprint, hfingerprintShape, hlower⟩ := h.certificateFingerprint
    obtain ⟨downloadData, hdownload, hsettings⟩ := h.download
    obtain ⟨scheduleData, hschedule, hruns⟩ := h.schedule
    obtain ⟨refsData, hrefs, hreferences⟩ := h.credentialRefs
    refine ⟨h.keys, _, ⟨_, h.profileId.1, rfl⟩, _, ⟨rfc, hrfc, rfl⟩, _, ⟨_, h.storageRoot.1, rfl⟩, _,
      ⟨fingerprint, hfingerprint, rfl⟩, (), ?_, _, ⟨downloadData, _, hdownload, hsettings, rfl⟩,
      _, h.initialRange, _, ⟨h.lookbackDays, by simp⟩, ?_, ?_, _, ⟨h.maxConcurrency.1, by simp⟩, ?_,
      _, ⟨scheduleData, _, hschedule, hruns, rfl⟩, _, ⟨refsData, _, hrefs, hreferences, rfl⟩, ?_⟩
    · exact clean_checkShapes.mpr ⟨h.profileId.2, hrfcShape, h.storageRoot.2, hfingerprintShape⟩
    · rintro ⟨hrange, hlookback⟩
      exact h.started.mp (Option.isNone_iff_eq_none.mp hrange) (Option.isNone_iff_eq_none.mp hlookback)
    · rintro ⟨hrange, hlookback⟩
      have := h.started.mpr (Option.isSome_iff_ne_none.mp hlookback)
      rw [this] at hrange
      cases hrange
    · simpa using h.maxConcurrency.2
    · rw [clean_pure, ← hupper, ← hlower]

/-- What the checks of the profiles have seen. -/
theorem clean_parseProfiles {index : Nat} {seen : List CodeText} {items : List Document}
    {profiles : List ProfileConfig} : Clean (parseProfiles host index seen items) profiles ↔
      List.Forall₂ (ProfileItem host) items profiles ∧ (profiles.map (·.profileId)).Nodup ∧
        ∀ profile ∈ profiles, profile.profileId ∉ seen := by
  induction items generalizing index seen profiles with
  | nil =>
      rw [parseProfiles, clean_pure, List.forall₂_nil_left_iff]
      constructor
      · rintro rfl
        exact ⟨rfl, List.nodup_nil, fun _ hmem => absurd hmem List.not_mem_nil⟩
      · exact fun h => h.1.symm
  | cons item rest ih =>
      cases item with
      | obj data =>
          rw [parseProfiles]
          simp only [clean_bind, clean_parseProfile]
          constructor
          · rintro ⟨_, ⟨profile, hprofile, rfl⟩, h⟩
            simp only [clean_bind, clean_errorIf, exists_const, ih, clean_pure] at h
            obtain ⟨hfresh, others, ⟨hitems, hnodup, hunseen⟩, rfl⟩ := h
            refine ⟨.cons ⟨data, rfl, hprofile⟩ hitems, List.nodup_cons.mpr ⟨?_, hnodup⟩, ?_⟩
            · intro hmem
              obtain ⟨other, hother, hid⟩ := List.mem_map.mp hmem
              exact hunseen other hother (hid ▸ List.mem_cons_self)
            · refine List.forall_mem_cons.mpr ⟨hfresh, fun other hother hseen => ?_⟩
              exact hunseen other hother (List.mem_cons_of_mem _ hseen)
          · rintro ⟨hitems, hnodup, hunseen⟩
            cases hitems with
            | @cons _ profile _ others hitem hrest =>
                obtain ⟨_, ⟨⟩, hprofile⟩ := hitem
                obtain ⟨hnew, hothers⟩ := List.nodup_cons.mp hnodup
                obtain ⟨hfresh, hunseen⟩ := List.forall_mem_cons.mp hunseen
                refine ⟨some profile, ⟨profile, hprofile, rfl⟩, ?_⟩
                simp only [clean_bind, clean_errorIf, exists_const, ih, clean_pure]
                refine ⟨hfresh, others, ⟨hrest, hothers, fun other hother hseen => ?_⟩, rfl⟩
                rcases List.mem_cons.mp hseen with hid | hseen
                · exact hnew (List.mem_map.mpr ⟨other, hother, hid⟩)
                · exact hunseen other hother hseen
      | _ =>
          rw [parseProfiles]
          · refine iff_of_false (fun h => ?_) ?_
            · obtain ⟨_, h, -⟩ := clean_bind.mp h
              exact not_clean_error h
            · rintro ⟨hitems, -⟩
              cases hitems with
              | cons hitem =>
                  obtain ⟨_, h, -⟩ := hitem
                  cases h
          · intro _ h
            cases h

/-- What the checks of a document have seen. -/
theorem clean_checkConfig {profiles : List ProfileConfig} :
    Clean (checkConfig host data) profiles ↔ ConfigDocument host data profiles := by
  unfold checkConfig
  simp only [clean_bind, clean_addAll, clean_rejectUnknownKeys, clean_errorIf, exists_const]
  constructor
  · rintro ⟨hmaterial, hkeys, hversion, h⟩
    have hversion : (Members.get data "schemaVersion").equalsOne = true := by simpa using hversion
    split at h
    · next first rest hitems =>
        obtain ⟨hprofiles, hdistinct, -⟩ := clean_parseProfiles.mp h
        exact ⟨hmaterial, hkeys, hversion, ⟨_, hitems, List.cons_ne_nil _ _, hprofiles⟩, hdistinct⟩
    · obtain ⟨_, h, -⟩ := clean_bind.mp h
      exact absurd h not_clean_error
  · rintro ⟨hmaterial, hkeys, hversion, ⟨items, hitems, hne, hprofiles⟩, hdistinct⟩
    refine ⟨hmaterial, hkeys, by simpa using hversion, ?_⟩
    cases items with
    | nil => exact absurd rfl hne
    | cons first rest =>
        simp only [hitems]
        exact clean_parseProfiles.mpr ⟨hprofiles, hdistinct, fun _ _ => List.not_mem_nil⟩

end Clean

/-- A document is accepted if it stands for profiles, which are those of the configuration. -/
theorem validateConfig_eq_ok {host : ConfigHost} {data : Members} {config : AppConfig} :
    validateConfig host data = .ok config ↔ config.schemaVersion = 1 ∧ ConfigDocument host data config.profiles := by
  rw [← clean_checkConfig]
  unfold validateConfig Report.Clean
  rcases checkConfig host data with fault | ⟨profiles, errors⟩
  · exact iff_of_false (fun h => nomatch h) fun h => nomatch h.2
  · cases errors with
    | nil =>
        constructor
        · rintro ⟨⟩
          exact ⟨rfl, rfl⟩
        · rintro ⟨hversion, h⟩
          have hprofiles : profiles = config.profiles := congrArg Prod.fst (Except.ok.inj h)
          rw [hprofiles]
          cases config
          obtain rfl : _ = 1 := hversion
          rfl
    | cons first rest => exact iff_of_false (fun h => nomatch h) fun h => nomatch h.2

end Config

end CfdiVault
