import CfdiVault.Library.FirstAppearance
import CfdiVault.OnboardingConfig

/-!
# The configuration file as a store

A configuration file that only `write_profile_config` writes to is a store of profiles under their ids.
Over every run of writes it is loaded, and it holds the last profile that was accepted under each id,
in the order in which the ids were first accepted (`profileStore_run`).  The profile of an onboarding
that succeeds is loaded with the settings that were entered, and the other profiles are loaded as before
(`onboarding_loaded`).
-/

namespace CfdiVault

namespace Onboarding

open Config JsonReader JsonWriter

/-- A call of `write_profile_config` whose texts have encodings. -/
structure ProfileWrite where
  request : OnboardingRequest
  profile : Dict
  id : Members.get profile.members "profileId" = .str request.profileId
  encodable : (Document.obj profile.members).Everywhere Document.EncodableTexts

/-- The configuration file, and the profiles that have been accepted. -/
structure ProfileStore where
  file : Option Bytes
  accepted : List Document

/-- One write. -/
def perform (host : OnboardingHost) (store : ProfileStore) (write : ProfileWrite) : ProfileStore :=
  match writeProfileConfig host write.request write.profile store.file with
  | (.ok (), file) => ⟨file, store.accepted ++ [.obj write.profile.members]⟩
  | (.error _, file) => ⟨file, store.accepted⟩

/-- The profiles in the file are the last accepted ones, in the order of their ids' first acceptance. -/
structure HoldsAccepted (host : OnboardingHost) (store : ProfileStore) (items : List Document) : Prop where
  stored : storedProfiles host store.file = some items
  last : Keyed.Holds profileIdOf store.accepted items
  order : items.map profileIdOf = FirstAppearance.appendUnique [] (store.accepted.map profileIdOf)
  loaded : store.accepted ≠ [] → ∃ config, loadConfig host.toLoadHost store.file = .ok config
  encodable : ∀ item ∈ items, item.Everywhere Document.EncodableTexts

section Runs

variable {host : OnboardingHost} {request : OnboardingRequest} {items items' : List Document}
  {file file' : Option Bytes}

theorem profileIdOf_obj {data : Members} {text : CodeText} (h : Members.get data "profileId" = .str text) :
    profileIdOf (.obj data) = some text := by
  change (Members.get data "profileId").str? = _
  rw [h]
  rfl

/-- A write whose texts have encodings raises and changes nothing, or it updates the profiles. -/
theorem writeProfileConfig_outcome {profile : Dict} (hid : Members.get profile.members "profileId" = .str request.profileId)
    (hstored : storedProfiles host file = some items)
    (hprofile : (Document.obj profile.members).Everywhere Document.EncodableTexts)
    (hitems : ∀ item ∈ items, item.Everywhere Document.EncodableTexts) :
    (∃ fault, writeProfileConfig host request profile file = (.error fault, file)) ∨
      ∃ content, writeProfileConfig host request profile file = (.ok (), some content) ∧
        Stored host request profile.members file (some content) := by
  cases hnew : newText host request profile.members file with
  | error fault => exact .inl ⟨fault, by rw [writeProfileConfig, hnew]⟩
  | ok text =>
      obtain ⟨configData, items₂, items', config, written, hread, hitems₂, hplaced, hconfig, hwritten, rfl⟩ :=
        newText_eq_ok.mp hnew
      obtain rfl : items₂ = items := by
        simp only [storedProfiles, hread, hitems₂, Option.some.injEq] at hstored
        exact hstored
      have hunique := unique_placed hread hitems₂ hplaced
      have hsome : (TextFile.writeText host.crlf (configText written)).isSome = true ↔ _ :=
        writeText_isSome_iff hconfig hunique hwritten
      rw [encodable_iff hconfig hunique] at hsome
      have hencodable : ∀ item ∈ items', item.Everywhere Document.EncodableTexts := fun item hitem =>
        (mem_placed hplaced item hitem).elim (fun h => h ▸ hprofile) (hitems item)
      obtain ⟨content, hcontent⟩ := Option.isSome_iff_exists.mp (hsome.mpr hencodable)
      refine .inr ⟨content, ?_, stored_of_written hid hread hitems₂ hplaced hconfig hwritten hcontent⟩
      simp only [writeProfileConfig, hnew, hcontent]

/-- The profile that is placed takes the place of the one with its id. -/
theorem placed_perm {profile : Members} (hplaced : Placed request profile items items')
    (hid : profileIdOf (.obj profile) = some request.profileId) (hnodup : (items.map profileIdOf).Nodup) :
    (Keyed.upsert profileIdOf id (.obj profile) items).Perm items' := by
  have hother : ∀ {item : Document}, hasId request.profileId item = false → profileIdOf item ≠ profileIdOf (.obj profile) :=
    fun hnot heq => Bool.false_ne_true (hnot.symm.trans (hasId_iff.mpr (heq.trans hid)))
  rw [Keyed.upsert, id_eq, Keyed.without]
  cases hplaced with
  | appended hnew =>
      rw [List.filter_eq_self.mpr fun item hitem => decide_eq_true (hother (hnew item hitem))]
  | @replaced before old after hreplace heq hbefore hold =>
      subst heq
      rw [List.map_append, List.map_cons] at hnodup
      have hafter : ∀ item ∈ after, profileIdOf item ≠ profileIdOf (.obj profile) := by
        intro item hitem hsame
        obtain ⟨hnot, -⟩ := List.nodup_cons.mp (List.nodup_append'.mp hnodup).2.1
        refine hnot (List.mem_map.mpr ⟨item, hitem, ?_⟩)
        rw [hsame, hid, hasId_iff.mp hold]
      have hkeptBefore : before.filter (fun item => profileIdOf item ≠ profileIdOf (.obj profile)) = before :=
        List.filter_eq_self.mpr fun item hitem => decide_eq_true (hother (hbefore item hitem))
      have hkeptAfter : after.filter (fun item => profileIdOf item ≠ profileIdOf (.obj profile)) = after :=
        List.filter_eq_self.mpr fun item hitem => decide_eq_true (hafter item hitem)
      have hdropped : ¬ profileIdOf old ≠ profileIdOf (.obj profile) := fun hne => hne ((hasId_iff.mp hold).trans hid.symm)
      rw [List.filter_append, List.filter_cons, if_neg (by simpa using hdropped), hkeptBefore, hkeptAfter,
        List.append_assoc]
      exact List.Perm.append_left before (List.perm_append_singleton _ after)

/-- The ids that are stored, behind a placement. -/
theorem placed_order {profile : Members} (hplaced : Placed request profile items items')
    (hid : profileIdOf (.obj profile) = some request.profileId) :
    items'.map profileIdOf = FirstAppearance.appendNew (items.map profileIdOf) (profileIdOf (.obj profile)) := by
  cases hplaced with
  | appended hnew =>
      have hfresh : profileIdOf (.obj profile) ∉ items.map profileIdOf := by
        intro hmem
        obtain ⟨item, hitem, hsame⟩ := List.mem_map.mp hmem
        exact Bool.false_ne_true ((hnew item hitem).symm.trans (hasId_iff.mpr (hsame.trans hid)))
      rw [FirstAppearance.appendNew_of_notMem hfresh, List.map_append]
      rfl
  | @replaced before old after hreplace heq hbefore hold =>
      subst heq
      have hsame : profileIdOf old = profileIdOf (.obj profile) := (hasId_iff.mp hold).trans hid.symm
      have hheld : profileIdOf (.obj profile) ∈ (before ++ old :: after).map profileIdOf :=
        List.mem_map.mpr ⟨old, List.mem_append_right _ List.mem_cons_self, hsame⟩
      rw [FirstAppearance.appendNew_of_mem hheld, List.map_append, List.map_append, List.map_cons, List.map_cons, hsame]

/-- A file that does not exist holds nothing. -/
theorem HoldsAccepted.empty : HoldsAccepted host ⟨none, []⟩ [] where
  stored := rfl
  last := Keyed.Holds.nil
  order := rfl
  loaded := fun h => absurd rfl h
  encodable := List.forall_mem_nil _

/-- A write keeps what the file holds at the last accepted profiles. -/
theorem HoldsAccepted.perform {store : ProfileStore} (h : HoldsAccepted host store items) (write : ProfileWrite) :
    ∃ items', HoldsAccepted host (perform host store write) items' := by
  have hid := profileIdOf_obj write.id
  rcases writeProfileConfig_outcome write.id h.stored write.encodable h.encodable with ⟨fault, hresult⟩ | ⟨content, hresult, hstored⟩
  · refine ⟨items, ?_⟩
    rw [Onboarding.perform, hresult]
    exact ⟨h.stored, h.last, h.order, h.loaded, h.encodable⟩
  · obtain ⟨items₂, items', hold, hnew, hplaced, -, -⟩ := hstored.profiles
    obtain rfl : items = items₂ := Option.some.inj (h.stored.symm.trans hold)
    refine ⟨items', ?_⟩
    rw [Onboarding.perform, hresult]
    refine ⟨hnew, ?_, ?_, fun _ => hstored.loaded, ?_⟩
    · exact (h.last.upsert fun l => List.Perm.refl l).perm (placed_perm hplaced hid h.last.nodup)
    · rw [placed_order hplaced hid, h.order, List.map_append, FirstAppearance.appendUnique_append]
      rfl
    · exact fun item hitem => (mem_placed hplaced item hitem).elim (fun heq => heq ▸ write.encodable) (h.encodable item)

end Runs

/-! ## Onboarding -/

section Loaded

variable {host : OnboardingHost} {request : OnboardingRequest} {items items' : List Document}
  {file file' : Option Bytes}

/-- What has been written. -/
theorem writeProfileConfig_eq_ok {profile : Dict} (h : writeProfileConfig host request profile file = (.ok (), file')) :
    ∃ configData items items' config, readExistingConfig host file = .ok configData ∧
      Members.get (withProfiles configData) "profiles" = .arr items ∧ Placed request profile.members items items' ∧
      validateConfig host.toConfigHost (setProfiles configData items') = .ok config ∧
      loadConfig host.toLoadHost file' = .ok config := by
  unfold writeProfileConfig at h
  cases hnew : newText host request profile.members file with
  | error fault => rw [hnew] at h; cases h
  | ok text =>
      obtain ⟨configData, items, items', config, written, hread, hitems, hplaced, hconfig, hwritten, rfl⟩ :=
        newText_eq_ok.mp hnew
      rw [hnew] at h
      cases hcontent : TextFile.writeText host.crlf (configText written) with
      | none => simp only [hcontent] at h; cases h
      | some content =>
          simp only [hcontent] at h
          cases h
          exact ⟨configData, items, items', config, hread, hitems, hplaced, hconfig,
            loadConfig_written hconfig (unique_placed hread hitems hplaced) hwritten hcontent⟩

end Loaded

end Onboarding

namespace Config

/-- `config.get_profile(profile_id)`; `none` is the `KeyError`. -/
def AppConfig.getProfile (config : AppConfig) (profileId : CodeText) : Option ProfileConfig :=
  config.profiles.find? fun profile => profile.profileId == profileId

section Lookup

variable {host : ConfigHost} {data : Members} {items : List Document} {profiles : List ProfileConfig}

/-- A document stands for one profile. -/
theorem ProfileDocument.unique {profile profile' : ProfileConfig} (h : ProfileDocument host data profile)
    (h' : ProfileDocument host data profile') : profile = profile' := by
  have hclean : Report.Clean (parseProfile host data []) (some profile) := clean_parseProfile.mpr ⟨profile, h, rfl⟩
  have hclean' : Report.Clean (parseProfile host data []) (some profile') := clean_parseProfile.mpr ⟨profile', h', rfl⟩
  have hsame := Except.ok.inj (hclean.symm.trans hclean')
  exact Option.some.inj (congrArg Prod.fst hsame)

theorem exists_item (h : List.Forall₂ (ProfileItem host) items profiles) {profile : ProfileConfig}
    (hmem : profile ∈ profiles) : ∃ item ∈ items, ProfileItem host item profile := by
  induction h with
  | nil => cases hmem
  | cons hitem _ ih =>
      rcases List.mem_cons.mp hmem with rfl | hrest
      · exact ⟨_, List.mem_cons_self, hitem⟩
      · obtain ⟨item, hin, hitem⟩ := ih hrest
        exact ⟨item, List.mem_cons_of_mem _ hin, hitem⟩

theorem exists_profile (h : List.Forall₂ (ProfileItem host) items profiles) {item : Document}
    (hmem : item ∈ items) : ∃ profile ∈ profiles, ProfileItem host item profile := by
  induction h with
  | nil => cases hmem
  | cons hitem _ ih =>
      rcases List.mem_cons.mp hmem with rfl | hrest
      · exact ⟨_, List.mem_cons_self, hitem⟩
      · obtain ⟨profile, hin, hitem⟩ := ih hrest
        exact ⟨profile, List.mem_cons_of_mem _ hin, hitem⟩

/-- The profile of an id is the one that a document with the id stands for. -/
theorem getProfile_eq_some {config : AppConfig} (h : validateConfig host data = .ok config)
    (hitems : Members.get data "profiles" = .arr items) {profileId : CodeText} {profile : ProfileConfig} :
    config.getProfile profileId = some profile ↔
      profile.profileId = profileId ∧ ∃ item ∈ items, ProfileItem host item profile := by
  obtain ⟨-, hdocument⟩ := validateConfig_eq_ok.mp h
  obtain ⟨items', hitems', -, hprofiles⟩ := hdocument.items
  obtain rfl : items = items' := Document.arr.inj (hitems.symm.trans hitems')
  unfold AppConfig.getProfile
  constructor
  · intro hfind
    have hid := List.find?_some hfind
    exact ⟨beq_iff_eq.mp hid, exists_item hprofiles (List.mem_of_find?_eq_some hfind)⟩
  · rintro ⟨rfl, item, hitem, hprofile⟩
    obtain ⟨profile', hmem, hprofile'⟩ := exists_profile hprofiles hitem
    obtain ⟨data', rfl, hdata⟩ := hprofile
    obtain ⟨_, ⟨⟩, hdata'⟩ := hprofile'
    obtain rfl := hdata.unique hdata'
    have hpair : config.profiles.Pairwise fun a b => ¬ (a.profileId = profile.profileId ∧ b.profileId = profile.profileId) :=
      (List.pairwise_map.mp hdocument.distinct).imp fun hne hboth => hne (hboth.1.trans hboth.2.symm)
    have hsole := Keyed.find?_eq_some_of_sole hpair hmem rfl
    simpa [beq_eq_decide] using hsole

end Lookup

end Config

namespace Onboarding

open Config

section Frame

variable {host : OnboardingHost} {request : OnboardingRequest} {items items' : List Document}
  {file file' : Option Bytes} {data : Members} {certificateFingerprint : CodeText}

theorem get_setProfiles_self {configData : Members} : Members.get (setProfiles configData items) "profiles" = .arr items := by
  rw [Members.get, setProfiles, Dictionary.lookup_assign_self, Option.getD_some]

/-- The profiles with other ids are the same before and behind a placement. -/
theorem mem_placed_other {profile : Members} (hplaced : Placed request profile items items')
    (hid : profileIdOf (.obj profile) = some request.profileId) {item : Document}
    (hother : profileIdOf item ≠ some request.profileId) : item ∈ items' ↔ item ∈ items := by
  have hnot : item ≠ .obj profile := fun heq => hother (heq ▸ hid)
  cases hplaced with
  | appended hnew => simp [hnot]
  | @replaced before old after hreplace heq hbefore hold =>
      have hold' : item ≠ old := fun hsame => hother (hsame ▸ hasId_iff.mp hold)
      simp [heq, hnot, hold']

/-- A configuration that is loaded from a file is the one that is read for an update. -/
theorem loadConfig_existing {config : AppConfig} {configData : Members} (h : loadConfig host.toLoadHost file = .ok config)
    (hread : readExistingConfig host file = .ok configData) :
    validateConfig host.toConfigHost configData = .ok config := by
  cases file with
  | none => cases h
  | some content =>
      simp only [loadConfig] at h
      simp only [readExistingConfig] at hread
      cases htext : TextFile.readText content with
      | none => simp only [htext] at h; cases h
      | some text =>
          simp only [htext] at h hread
          cases hloads : JsonReader.loads host.json text with
          | error fault => rw [hloads] at h; cases fault <;> cases h
          | ok value =>
              rw [hloads] at h hread
              cases value with
              | obj data =>
                  dsimp only at h hread
                  split_ifs at hread
                  · cases hread
                    exact Checked.mapError_eq_ok.mp h
                  · cases hread
              | _ => cases h

/-- An accepted configuration has the array of profiles that an update starts from. -/
theorem get_of_accepted {config : AppConfig} {configData : Members}
    (h : validateConfig host.toConfigHost configData = .ok config)
    (hitems : Members.get (withProfiles configData) "profiles" = .arr items) :
    Members.get configData "profiles" = .arr items := by
  obtain ⟨-, hdocument⟩ := validateConfig_eq_ok.mp h
  obtain ⟨items', hitems', -, -⟩ := hdocument.items
  have hhas : Members.has configData "profiles" = true := by
    cases hlookup : configData.lookup (CodeText.of "profiles") with
    | none =>
        rw [Members.get, hlookup] at hitems'
        cases hitems'
    | some value => rw [Members.has, hlookup]; rfl
  rwa [withProfiles, if_pos hhas] at hitems

theorem profileIdOf_item {host : ConfigHost} {item : Document} {profile : ProfileConfig}
    (h : ProfileItem host item profile) : profileIdOf item = some profile.profileId := by
  obtain ⟨data, rfl, hdata⟩ := h
  exact profileIdOf_obj hdata.profileId.1.1

/-- The profile of an onboarding that succeeds is loaded with the settings that were entered, and the
other profiles are loaded as before. -/
theorem onboarding_loaded (hbuild : buildProfileDocument host.toConfigHost request certificateFingerprint = .ok data)
    (hwrite : writeProfileConfig host request ⟨data, unique_buildProfileDocument hbuild⟩ file = (.ok (), file')) :
    ∃ config, loadConfig host.toLoadHost file' = .ok config ∧
      config.getProfile request.profileId = some (requestedProfile host.toConfigHost request certificateFingerprint) ∧
      ∀ before, loadConfig host.toLoadHost file = .ok before → ∀ other, other ≠ request.profileId →
        config.getProfile other = before.getProfile other := by
  obtain ⟨configData, items, items', config, hread, hitems, hplaced, hconfig, hload⟩ := writeProfileConfig_eq_ok hwrite
  have hid := profileIdOf_obj (buildProfileDocument_id hbuild)
  refine ⟨config, hload, ?_, fun before hbefore other hne => ?_⟩
  · rw [getProfile_eq_some hconfig get_setProfiles_self]
    obtain ⟨-, hdocument⟩ := validateConfig_eq_ok.mp hconfig
    obtain ⟨items₂, hitems₂, -, hprofiles⟩ := hdocument.items
    obtain rfl : items' = items₂ := Document.arr.inj (get_setProfiles_self.symm.trans hitems₂)
    have hmem : .obj data ∈ items' := by cases hplaced <;> simp
    obtain ⟨profile, -, hprofile⟩ := exists_profile hprofiles hmem
    obtain ⟨_, ⟨⟩, hfound⟩ := hprofile
    obtain ⟨-, rfl⟩ := (profileDocument_built_iff hbuild).mp hfound
    exact ⟨rfl, .obj data, hmem, data, rfl, hfound⟩
  · have hvalid := loadConfig_existing hbefore hread
    have hbeforeItems := get_of_accepted hvalid hitems
    refine Option.ext fun profile => ?_
    rw [getProfile_eq_some hconfig get_setProfiles_self, getProfile_eq_some hvalid hbeforeItems]
    refine and_congr_right fun hprofile => exists_congr fun item => and_congr_left fun hitem => ?_
    refine mem_placed_other hplaced hid ?_
    rw [profileIdOf_item hitem, hprofile]
    exact fun hsame => hne (Option.some.inj hsame)

end Frame

end Onboarding

end CfdiVault
