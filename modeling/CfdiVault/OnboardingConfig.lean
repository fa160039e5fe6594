import CfdiVault.ConfigFile
import CfdiVault.ConfigSafety
import CfdiVault.Library.Keyed
import CfdiVault.OnboardingProfile

/-!
# Writing a profile into the configuration

`write_profile_config` adds a profile to the configuration file or replaces it there.  It checks the
whole configuration before it writes.  The text is encoded behind the truncation of the file, so that
a configuration with a surrogate in one of its texts leaves an empty file (`safeUpdate_iff`).
-/

namespace CfdiVault

namespace Onboarding

open Config JsonReader JsonWriter

/-- What writing takes from the host: `repr(…)` of a text, and the line ends of the platform. -/
structure OnboardingHost extends LoadHost where
  repr : CodeText → CodeText
  crlf : Bool

/-- `_read_existing_config` on a file, which is `none` if there is none. -/
def readExistingConfig (host : OnboardingHost) : Option Bytes → Except OnboardingFault Members
  | none => .ok [(CodeText.of "schemaVersion", .int 1), (CodeText.of "profiles", .arr [])]
  | some content =>
      match TextFile.readText content with
      | none => .error .notUtf8
      | some text =>
          match loads host.json text with
          | .error (.decode message) => refuse ("existing config is not valid JSON: " ++ message)
          | .error .digits => .error .digits
          | .ok (.obj data) =>
              if (Members.get data "schemaVersion").equalsOne = true then .ok data
              else refuse "existing config schemaVersion must be 1"
          | .ok _ => refuse "existing config root must be a JSON object"

/-- `isinstance(item, dict) and item.get("profileId") == profile_id` -/
def hasId (profileId : CodeText) (item : Document) : Bool := profileIdOf item == some profileId

/-- `config_data.setdefault("profiles", [])` -/
def withProfiles (configData : Members) : Members :=
  if Members.has configData "profiles" = true then configData
  else configData ++ [(CodeText.of "profiles", .arr [])]

/-- The configuration with another array of profiles. -/
def setProfiles (configData : Members) (items : List Document) : Members :=
  Dictionary.assign (withProfiles configData) (CodeText.of "profiles") (.arr items)

/-- The profile at the end of the array or in the place of the first one with its id. -/
def updateProfiles (host : OnboardingHost) (request : OnboardingRequest) (profile configData : Members) :
    Except OnboardingFault Members :=
  match Members.get (withProfiles configData) "profiles" with
  | .arr items =>
      match items.findIdx? (hasId request.profileId) with
      | none => .ok (setProfiles configData (items ++ [.obj profile]))
      | some index =>
          if request.replaceExisting = true then .ok (setProfiles configData (items.set index (.obj profile)))
          else .error (.onboarding [CodeText.of "profile " ++ host.repr request.profileId ++
            CodeText.of " already exists; rerun with --replace-existing to update it"])
  | _ => refuse "existing config profiles must be an array"

/-- The text of a configuration that passes its checks. -/
def checkedText (host : OnboardingHost) (configData : Members) : Except OnboardingFault CodeText :=
  match validateConfig host.toConfigHost configData with
  | .error (.validation errors) => .error (.onboarding errors)
  | .error .urlparse => .error .urlparse
  | .ok _ =>
      match dumps host.json (.obj configData) with
      | none => .error .digits
      | some text => .ok (configText text)

/-- The text that `write_profile_config` writes. -/
def newText (host : OnboardingHost) (request : OnboardingRequest) (profile : Members) (file : Option Bytes) :
    Except OnboardingFault CodeText := do
  let configData ← readExistingConfig host file
  let updated ← updateProfiles host request profile configData
  checkedText host updated

/-- `write_profile_config`: what it raises, and the file behind it. -/
def writeProfileConfig (host : OnboardingHost) (request : OnboardingRequest) (profile : Dict)
    (file : Option Bytes) : Except OnboardingFault Unit × Option Bytes :=
  match newText host request profile.members file with
  | .error fault => (.error fault, file)
  | .ok text =>
      match TextFile.writeText host.crlf text with
      | none => (.error .notEncodable, some [])
      | some content => (.ok (), some content)

/-! ## Keyed updates -/

/-- The profiles in a file; a file that cannot be read as a configuration has none. -/
def storedProfiles (host : OnboardingHost) (file : Option Bytes) : Option (List Document) :=
  match readExistingConfig host file with
  | .ok configData =>
      match Members.get (withProfiles configData) "profiles" with
      | .arr items => some items
      | _ => none
  | .error _ => none

/-- The profile stands at the end, behind profiles with other ids, or where the first one with its id
has been, which takes the request to replace it. -/
inductive Placed (request : OnboardingRequest) (profile : Members) (items : List Document) : List Document → Prop where
  | appended (hnew : ∀ item ∈ items, hasId request.profileId item = false) :
      Placed request profile items (items ++ [.obj profile])
  | replaced {before : List Document} {old : Document} {after : List Document}
      (hreplace : request.replaceExisting = true) (hitems : items = before ++ old :: after)
      (hbefore : ∀ item ∈ before, hasId request.profileId item = false)
      (hold : hasId request.profileId old = true) :
      Placed request profile items (before ++ .obj profile :: after)

/-- An update of the profiles under their ids. -/
structure KeyedUpdate (request : OnboardingRequest) (profile : Members) (items items' : List Document) : Prop where
  placed : Placed request profile items items'
  once : items'.filter (hasId request.profileId) = [.obj profile]
  others : items'.filter (fun item => !hasId request.profileId item) =
    items.filter (fun item => !hasId request.profileId item)

/-- The file behind an update is loaded and has the updated profiles. -/
structure Stored (host : OnboardingHost) (request : OnboardingRequest) (profile : Members)
    (file file' : Option Bytes) : Prop where
  loaded : ∃ config, loadConfig host.toLoadHost file' = .ok config
  profiles : ∃ items items', storedProfiles host file = some items ∧ storedProfiles host file' = some items' ∧
    KeyedUpdate request profile items items'

/-- Writing raises and leaves the file as it was, or it updates the profiles. -/
structure SafeUpdate (host : OnboardingHost) (request : OnboardingRequest) (profile : Dict) (file : Option Bytes) :
    Prop where
  raised : ∀ fault, (writeProfileConfig host request profile file).1 = .error fault →
    (writeProfileConfig host request profile file).2 = file
  written : (writeProfileConfig host request profile file).1 = .ok () →
    Stored host request profile.members file (writeProfileConfig host request profile file).2

/-- In no profile of an update that passes the checks of the configuration and of the writer is a text
with a surrogate. -/
def EncodableUpdate (host : OnboardingHost) (request : OnboardingRequest) (profile : Dict)
    (file : Option Bytes) : Prop :=
  ∀ configData items items', readExistingConfig host file = .ok configData →
    Members.get (withProfiles configData) "profiles" = .arr items → Placed request profile.members items items' →
    ∀ config, validateConfig host.toConfigHost (setProfiles configData items') = .ok config →
    ∀ text, dumps host.json (.obj (setProfiles configData items')) = some text →
    ∀ item ∈ items', item.Everywhere Document.EncodableTexts

section Update

variable {host : OnboardingHost} {request : OnboardingRequest} {profile configData : Members}
  {items items' : List Document} {file : Option Bytes}

theorem hasId_iff {profileId : CodeText} {item : Document} :
    hasId profileId item = true ↔ profileIdOf item = some profileId := beq_iff_eq

theorem get_setProfiles : Members.get (withProfiles (setProfiles configData items)) "profiles" = .arr items := by
  have hlookup : (setProfiles configData items).lookup (CodeText.of "profiles") = some (.arr items) :=
    Dictionary.lookup_assign_self
  have hhas : Members.has (setProfiles configData items) "profiles" = true := by
    rw [Members.has, hlookup]
    rfl
  rw [withProfiles, if_pos hhas, Members.get, hlookup, Option.getD_some]

/-- The first item that is found, between the items before and behind it. -/
theorem findIdx?_split {p : Document → Bool} {index : Nat} :
    items.findIdx? p = some index ↔ ∃ before found after, items = before ++ found :: after ∧
      before.length = index ∧ p found = true ∧ ∀ item ∈ before, p item = false := by
  constructor
  · intro h
    induction items generalizing index with
    | nil => cases h
    | cons item rest ih =>
        rw [List.findIdx?_cons] at h
        split_ifs at h with hitem
        · cases h
          exact ⟨[], item, rest, rfl, rfl, hitem, List.forall_mem_nil _⟩
        · obtain ⟨i, hi, rfl⟩ := Option.map_eq_some_iff.mp h
          obtain ⟨before, found, after, rfl, rfl, hfound, hbefore⟩ := ih hi
          exact ⟨item :: before, found, after, rfl, rfl, hfound,
            List.forall_mem_cons.mpr ⟨Bool.eq_false_iff.mpr hitem, hbefore⟩⟩
  · rintro ⟨before, found, after, rfl, rfl, hfound, hbefore⟩
    rw [List.findIdx?_append, List.findIdx?_eq_none_iff.mpr hbefore, List.findIdx?_cons, if_pos hfound]
    simp

/-- The profiles are updated where the profile is placed. -/
theorem updateProfiles_eq_ok {updated : Members} :
    updateProfiles host request profile configData = .ok updated ↔
      ∃ items items', Members.get (withProfiles configData) "profiles" = .arr items ∧
        Placed request profile items items' ∧ updated = setProfiles configData items' := by
  unfold updateProfiles
  constructor
  · intro h
    split at h
    · next items hitems =>
        split at h
        · next hindex =>
            cases h
            exact ⟨items, _, hitems, .appended (List.findIdx?_eq_none_iff.mp hindex), rfl⟩
        · next index hindex =>
            split_ifs at h with hreplace
            cases h
            obtain ⟨before, old, after, rfl, rfl, hold, hbefore⟩ := findIdx?_split.mp hindex
            refine ⟨_, _, hitems, .replaced hreplace rfl hbefore hold, ?_⟩
            rw [List.set_append_right _ _ (Nat.le_refl _), Nat.sub_self, List.set_cons_zero]
    · cases h
  · rintro ⟨items, items', hitems, hplaced, rfl⟩
    rw [hitems]
    cases hplaced with
    | appended hnew => simp only [List.findIdx?_eq_none_iff.mpr hnew]
    | @replaced before old after hreplace heq hbefore hold =>
        have hindex : items.findIdx? (hasId request.profileId) = some before.length :=
          findIdx?_split.mpr ⟨before, old, after, heq, rfl, hold, hbefore⟩
        simp only [hindex, if_pos hreplace]
        rw [heq, List.set_append_right _ _ (Nat.le_refl _), Nat.sub_self, List.set_cons_zero]

theorem checkedText_eq_ok {text : CodeText} :
    checkedText host configData = .ok text ↔ ∃ config written, validateConfig host.toConfigHost configData = .ok config ∧
      dumps host.json (.obj configData) = some written ∧ text = configText written := by
  unfold checkedText
  cases hconfig : validateConfig host.toConfigHost configData with
  | error fault => cases fault <;> simp
  | ok config => cases hdumps : dumps host.json (.obj configData) <;> simp [eq_comm]

/-- What is written is the text of a configuration in which the profile is placed. -/
theorem newText_eq_ok {text : CodeText} :
    newText host request profile file = .ok text ↔ ∃ configData items items' config written,
      readExistingConfig host file = .ok configData ∧
      Members.get (withProfiles configData) "profiles" = .arr items ∧ Placed request profile items items' ∧
      validateConfig host.toConfigHost (setProfiles configData items') = .ok config ∧
      dumps host.json (.obj (setProfiles configData items')) = some written ∧ text = configText written := by
  unfold newText
  cases hread : readExistingConfig host file with
  | error fault => exact iff_of_false (fun h => nomatch h) fun ⟨_, _, _, _, _, h, _⟩ => nomatch h
  | ok configData =>
      constructor
      · intro h
        cases hupdate : updateProfiles host request profile configData with
        | error fault =>
            simp only [bind, Except.bind, hupdate] at h
            cases h
        | ok updated =>
            simp only [bind, Except.bind, hupdate] at h
            obtain ⟨items, items', hitems, hplaced, rfl⟩ := updateProfiles_eq_ok.mp hupdate
            obtain ⟨config, written, hconfig, hwritten, rfl⟩ := checkedText_eq_ok.mp h
            exact ⟨configData, items, items', config, written, rfl, hitems, hplaced, hconfig, hwritten, rfl⟩
      · rintro ⟨_, items, items', config, written, ⟨⟩, hitems, hplaced, hconfig, hwritten, rfl⟩
        have hupdate : updateProfiles host request profile configData = .ok (setProfiles configData items') :=
          updateProfiles_eq_ok.mpr ⟨items, items', hitems, hplaced, rfl⟩
        simp only [bind, Except.bind, hupdate]
        exact checkedText_eq_ok.mpr ⟨config, written, hconfig, hwritten, rfl⟩

/-! ## What has been read -/

theorem unique_withProfiles (h : (Document.obj configData).Everywhere Document.UniqueKeys) :
    (Document.obj (withProfiles configData)).Everywhere Document.UniqueKeys := by
  unfold withProfiles
  split_ifs with hhas
  · exact h
  · obtain ⟨hkeys, hvalues⟩ := Document.everywhere_obj.mp h
    have hnew : CodeText.of "profiles" ∉ configData.map Prod.fst := by
      intro hmem
      obtain ⟨member, hmember, hkey⟩ := List.mem_map.mp hmem
      refine hhas ?_
      rw [Members.has, ← hkey, lookup_of_mem hkeys hmember]
      rfl
    refine Document.everywhere_obj.mpr ⟨?_, ?_⟩
    · rw [Document.UniqueKeys, List.map_append, List.nodup_append']
      refine ⟨hkeys, List.nodup_singleton _, fun key hkey hsame => hnew ?_⟩
      rwa [List.mem_singleton.mp hsame] at hkey
    · refine List.forall_mem_append.mpr ⟨hvalues, List.forall_mem_singleton.mpr ?_⟩
      exact Document.everywhere_leaf rfl trivial

theorem unique_setProfiles (h : (Document.obj configData).Everywhere Document.UniqueKeys)
    (hitems : ∀ item ∈ items, item.Everywhere Document.UniqueKeys) :
    (Document.obj (setProfiles configData items)).Everywhere Document.UniqueKeys := by
  obtain ⟨hkeys, hvalues⟩ := Document.everywhere_obj.mp (unique_withProfiles h)
  refine Document.everywhere_obj.mpr ⟨Dictionary.nodup_assign hkeys, fun member hmember => ?_⟩
  rcases Dictionary.mem_assign hmember with rfl | hold
  · exact Document.everywhere_arr.mpr ⟨trivial, hitems⟩
  · exact hvalues member hold

/-- A configuration that has been read is a dictionary of dictionaries. -/
theorem unique_readExistingConfig (h : readExistingConfig host file = .ok configData) :
    (Document.obj configData).Everywhere Document.UniqueKeys := by
  cases file with
  | none =>
      cases h
      refine unique_leaves ["schemaVersion", "profiles"] rfl (by decide) ?_
      have hversion : (Document.int 1).Everywhere Document.UniqueKeys := Document.everywhere_leaf rfl trivial
      have hprofiles : (Document.arr []).Everywhere Document.UniqueKeys := Document.everywhere_leaf rfl trivial
      simp [hversion, hprofiles]
  | some content =>
      unfold readExistingConfig at h
      cases hread : TextFile.readText content with
      | none => simp only [hread] at h; cases h
      | some text =>
          simp only [hread] at h
          cases hloads : loads host.json text with
          | error fault => rw [hloads] at h; cases fault <;> cases h
          | ok value =>
              rw [hloads] at h
              cases value with
              | obj data =>
                  dsimp only at h
                  split_ifs at h
                  · cases h
                    exact unique_loads hloads
                  · cases h
              | _ => cases h

/-- An empty file has no configuration. -/
theorem readExistingConfig_empty : ∃ fault, readExistingConfig host (some []) = .error fault := ⟨_, rfl⟩

theorem mem_placed (h : Placed request profile items items') : ∀ item ∈ items', item = .obj profile ∨ item ∈ items := by
  intro item hitem
  cases h with
  | appended hnew =>
      rcases List.mem_append.mp hitem with hold | hprofile
      · exact .inr hold
      · exact .inl (List.mem_singleton.mp hprofile)
  | replaced hreplace heq hbefore hold =>
      rw [heq]
      rcases List.mem_append.mp hitem with hmem | hmem
      · exact .inr (List.mem_append_left _ hmem)
      · rcases List.mem_cons.mp hmem with hprofile | hmem
        · exact .inl hprofile
        · exact .inr (List.mem_append_right _ (List.mem_cons_of_mem _ hmem))

theorem unique_placed {profile : Dict} (h : readExistingConfig host file = .ok configData)
    (hitems : Members.get (withProfiles configData) "profiles" = .arr items)
    (hplaced : Placed request profile.members items items') :
    (Document.obj (setProfiles configData items')).Everywhere Document.UniqueKeys := by
  have hunique := unique_readExistingConfig h
  have hold : ∀ item ∈ items, item.Everywhere Document.UniqueKeys := by
    have harray : (Members.get (withProfiles configData) "profiles").Everywhere Document.UniqueKeys :=
      everywhere_get (unique_withProfiles hunique) trivial
    rw [hitems] at harray
    exact (Document.everywhere_arr.mp harray).2
  refine unique_setProfiles hunique fun item hitem => ?_
  rcases mem_placed hplaced item hitem with rfl | hmem
  · exact profile.unique
  · exact hold item hmem

/-! ## What is written -/

/-- The texts of an accepted configuration are those of its profiles. -/
theorem encodable_iff {config : AppConfig}
    (h : validateConfig host.toConfigHost (setProfiles configData items) = .ok config)
    (hunique : (Document.obj (setProfiles configData items)).Everywhere Document.UniqueKeys) :
    (Document.obj (setProfiles configData items)).Everywhere Document.EncodableTexts ↔
      ∀ item ∈ items, item.Everywhere Document.EncodableTexts := by
  obtain ⟨-, hdocument⟩ := validateConfig_eq_ok.mp h
  have hprofiles : Members.get (setProfiles configData items) "profiles" = .arr items := by
    rw [Members.get, setProfiles, Dictionary.lookup_assign_self, Option.getD_some]
  constructor
  · intro hall
    have harray : (Members.get (setProfiles configData items) "profiles").Everywhere Document.EncodableTexts :=
      everywhere_get hall trivial
    rw [hprofiles] at harray
    exact (Document.everywhere_arr.mp harray).2
  · intro hitems
    have hkeys : Document.EncodableTexts (.obj (setProfiles configData items)) := fun member hmember => by
      obtain ⟨key, -, hkey⟩ := List.mem_map.mp (hdocument.keys member hmember)
      exact hkey ▸ CodeText.encodable_of key
    have hversion : (Members.get (setProfiles configData items) "schemaVersion").Everywhere Document.EncodableTexts := by
      have hone := hdocument.schemaVersion
      cases hvalue : Members.get (setProfiles configData items) "schemaVersion" with
      | int n => exact Document.everywhere_leaf rfl trivial
      | bool b => exact Document.everywhere_leaf rfl trivial
      | float text => exact Document.everywhere_leaf rfl trivial
      | _ => rw [hvalue] at hone; cases hone
    refine everywhere_of_keys hkeys hdocument.keys hunique.self ?_
    simp only [List.forall_mem_cons, hprofiles]
    exact ⟨hversion, Document.everywhere_arr.mpr ⟨trivial, hitems⟩, List.forall_mem_nil _⟩

/-- A written configuration is read as what has been checked. -/
theorem readExistingConfig_written {config : AppConfig} {written : CodeText} {content : Bytes}
    (h : validateConfig host.toConfigHost configData = .ok config)
    (hunique : (Document.obj configData).Everywhere Document.UniqueKeys)
    (hwritten : dumps host.json (.obj configData) = some written)
    (hcontent : TextFile.writeText host.crlf (configText written) = some content) :
    readExistingConfig host (some content) = .ok configData := by
  obtain ⟨text, hread, hloads⟩ := loads_written h hunique hwritten hcontent
  simp only [readExistingConfig, hread, hloads]
  exact if_pos (validateConfig_eq_ok.mp h).2.schemaVersion

/-- In an accepted array of profiles only one has the id. -/
theorem once_of_accepted {config : AppConfig}
    (h : validateConfig host.toConfigHost (setProfiles configData items) = .ok config)
    (hmem : .obj profile ∈ items) (hid : Members.get profile "profileId" = .str request.profileId) :
    items.filter (hasId request.profileId) = [.obj profile] := by
  obtain ⟨-, hdocument⟩ := validateConfig_eq_ok.mp h
  obtain ⟨items', hitems', -, hprofiles⟩ := hdocument.items
  have hprofile : Members.get (setProfiles configData items) "profiles" = .arr items := by
    rw [Members.get, setProfiles, Dictionary.lookup_assign_self, Option.getD_some]
  obtain rfl : items' = items := Document.arr.inj (hitems'.symm.trans hprofile)
  have hnodup : (items'.map profileIdOf).Nodup := by
    rw [(items_of_forall₂ hprofiles).2]
    exact List.Nodup.map (Option.some_injective _) hdocument.distinct
  have hown : profileIdOf (.obj profile) = some request.profileId := by
    change (Members.get profile "profileId").str? = _
    rw [hid]
    rfl
  have hpair : items'.Pairwise fun a b => ¬ (hasId request.profileId a = true ∧ hasId request.profileId b = true) := by
    refine (List.pairwise_map.mp hnodup).imp fun hne hboth => hne ?_
    rw [hasId_iff.mp hboth.1, hasId_iff.mp hboth.2]
  have hsole := Keyed.filter_eq_singleton hpair hmem (hasId_iff.mpr hown)
  simpa using hsole

theorem others_of_placed (h : Placed request profile items items')
    (hid : Members.get profile "profileId" = .str request.profileId) :
    items'.filter (fun item => !hasId request.profileId item) =
      items.filter (fun item => !hasId request.profileId item) := by
  have hown : hasId request.profileId (.obj profile) = true := by
    refine hasId_iff.mpr ?_
    change (Members.get profile "profileId").str? = _
    rw [hid]
    rfl
  cases h with
  | appended hnew => simp [hown]
  | replaced hreplace heq hbefore hold => simp [heq, hown, hold]

/-- An update that is written. -/
theorem stored_of_written {profile : Dict} {config : AppConfig} {written : CodeText} {content : Bytes}
    (hid : Members.get profile.members "profileId" = .str request.profileId)
    (hread : readExistingConfig host file = .ok configData)
    (hitems : Members.get (withProfiles configData) "profiles" = .arr items)
    (hplaced : Placed request profile.members items items')
    (hconfig : validateConfig host.toConfigHost (setProfiles configData items') = .ok config)
    (hwritten : dumps host.json (.obj (setProfiles configData items')) = some written)
    (hcontent : TextFile.writeText host.crlf (configText written) = some content) :
    Stored host request profile.members file (some content) := by
  have hunique := unique_placed hread hitems hplaced
  have hread' := readExistingConfig_written hconfig hunique hwritten hcontent
  have hmem : .obj profile.members ∈ items' := by cases hplaced <;> simp
  refine ⟨⟨config, loadConfig_written hconfig hunique hwritten hcontent⟩, items, items', ?_, ?_, hplaced,
    once_of_accepted hconfig hmem hid, others_of_placed hplaced hid⟩
  · simp only [storedProfiles, hread, hitems]
  · simp only [storedProfiles, hread', get_setProfiles]

/-- Writing is a safe keyed update exactly if no profile of an update that passes the checks has a text
with a surrogate. -/
theorem safeUpdate_iff {profile : Dict} (hid : Members.get profile.members "profileId" = .str request.profileId) :
    SafeUpdate host request profile file ↔ EncodableUpdate host request profile file := by
  cases hnew : newText host request profile.members file with
  | error fault =>
      have hresult : writeProfileConfig host request profile file = (.error fault, file) := by
        rw [writeProfileConfig, hnew]
      refine iff_of_true ⟨fun _ _ => by rw [hresult], fun hok => ?_⟩ ?_
      · rw [hresult] at hok
        cases hok
      · intro configData items items' hread hitems hplaced config hconfig written hwritten
        have hok := newText_eq_ok.mpr ⟨configData, items, items', config, written, hread, hitems, hplaced, hconfig,
          hwritten, rfl⟩
        rw [hnew] at hok
        cases hok
  | ok text =>
      obtain ⟨configData, items, items', config, written, hread, hitems, hplaced, hconfig, hwritten, rfl⟩ :=
        newText_eq_ok.mp hnew
      have hunique := unique_placed hread hitems hplaced
      have hsome : (TextFile.writeText host.crlf (configText written)).isSome = true ↔ _ :=
        writeText_isSome_iff hconfig hunique hwritten
      rw [encodable_iff hconfig hunique] at hsome
      cases hcontent : TextFile.writeText host.crlf (configText written) with
      | none =>
          -- The file has been truncated, and it was not empty.
          have hresult : writeProfileConfig host request profile file = (.error .notEncodable, some []) := by
            simp only [writeProfileConfig, hnew, hcontent]
          rw [hcontent] at hsome
          refine iff_of_false (fun hsafe => ?_) fun hall => ?_
          · have hsame := hsafe.raised .notEncodable (by rw [hresult])
            rw [hresult] at hsame
            obtain ⟨fault, hempty⟩ := @readExistingConfig_empty host
            rw [← (hsame : some [] = file), hempty] at hread
            cases hread
          · exact absurd (hsome.mpr (hall configData items items' hread hitems hplaced config hconfig written hwritten))
              Bool.false_ne_true
      | some content =>
          have hresult : writeProfileConfig host request profile file = (.ok (), some content) := by
            simp only [writeProfileConfig, hnew, hcontent]
          rw [hcontent] at hsome
          refine iff_of_true ⟨fun _ hraised => ?_, fun _ => ?_⟩ ?_
          · rw [hresult] at hraised
            cases hraised
          · rw [hresult]
            exact stored_of_written hid hread hitems hplaced hconfig hwritten hcontent
          intro configData₂ items₂ items₂' hread₂ hitems₂ hplaced₂ _ _ _ _
          obtain rfl : configData = configData₂ := Except.ok.inj (hread.symm.trans hread₂)
          obtain rfl : items = items₂ := Document.arr.inj (hitems.symm.trans hitems₂)
          -- There is one place for the profile.
          have hupdate : updateProfiles host request profile.members configData = .ok (setProfiles configData items') :=
            updateProfiles_eq_ok.mpr ⟨items, items', hitems, hplaced, rfl⟩
          have hupdate₂ : updateProfiles host request profile.members configData = .ok (setProfiles configData items₂') :=
            updateProfiles_eq_ok.mpr ⟨items, items₂', hitems, hplaced₂, rfl⟩
          have hsame : setProfiles configData items' = setProfiles configData items₂' :=
            Except.ok.inj (hupdate.symm.trans hupdate₂)
          have hprofiles : (Document.arr items') = .arr items₂' := by
            rw [← @get_setProfiles configData items', hsame, get_setProfiles]
          obtain rfl := Document.arr.inj hprofiles
          exact hsome.mp rfl

end Update

/-! ## A surrogate in a profile -/

section Sample

/-- The host of the samples: floats are not used, and a text is quoted. -/
def sampleHost : OnboardingHost where
  toConfigHost := referenceHost
  json := ⟨id, 4300, rfl⟩
  repr := fun text => CodeText.of "'" ++ text ++ CodeText.of "'"
  crlf := false

/-- An ordinary request for a profile. -/
def sampleRequest (profileId : String) : OnboardingRequest where
  profileId := CodeText.of profileId
  rfc := CodeText.of "AAA010101AAA"
  storageRoot := CodeText.of "storage/local-a"
  downloadMode := .both
  startDate := ⟨738156, by decide, by decide⟩
  endDate := none
  scheduleMode := .disabled
  maxConcurrency := 1

/-- A profile that is stored in a given folder. -/
def profileIn (profileId : String) (storageRoot : CodeText) (h : (Document.obj
    (vaultProfile profileId "AAA010101AAA" storageRoot)).Everywhere Document.UniqueKeys) : Dict :=
  ⟨vaultProfile profileId "AAA010101AAA" storageRoot, h⟩

def profileA : Dict := profileIn "profile-a" (CodeText.of "storage/local-a") (by decide +kernel)

/-- A folder whose name is not UTF-8. -/
def strayFolder : CodeText := CodeText.of "storage/" ++ [.surrogate ⟨1234, by decide⟩]

def profileB : Dict := profileIn "profile-b" strayFolder (by decide +kernel)

theorem safeUpdate_iff_sample :
    SafeUpdate sampleHost (sampleRequest "profile-a") profileA none ↔
      EncodableUpdate sampleHost (sampleRequest "profile-a") profileA none :=
  safeUpdate_iff rfl

/-- A profile with a surrogate in its folder is refused behind the truncation of the file. -/
theorem surrogate_truncates :
    ¬ ∀ host request profile file, Members.get profile.members "profileId" = .str request.profileId →
      SafeUpdate host request profile file := by
  intro h
  have hsafe := h sampleHost (sampleRequest "profile-b") profileB none rfl
  have hraised : (writeProfileConfig sampleHost (sampleRequest "profile-b") profileB none).1.toOption = none := by
    decide +kernel
  have hfile : (writeProfileConfig sampleHost (sampleRequest "profile-b") profileB none).2 ≠ none := by decide +kernel
  obtain ⟨hunchanged, -⟩ := hsafe
  cases houtcome : (writeProfileConfig sampleHost (sampleRequest "profile-b") profileB none).1 with
  | error fault => exact hfile (hunchanged fault houtcome)
  | ok u =>
      rw [houtcome] at hraised
      cases hraised

end Sample

end Onboarding

end CfdiVault
