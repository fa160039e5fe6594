import CfdiVault.ConfigAcceptance
import CfdiVault.Library.JsonCharacters
import CfdiVault.Library.JsonUnique
import CfdiVault.Library.TextFile

/-!
# The configuration file

`load_config` reads a configuration from a JSON file.  The only float of an accepted document is a
schema version `1.0`, so that the text that is written for an accepted document is loaded as that
document (`loadConfig_written`).
-/

namespace CfdiVault

namespace Config

open JsonReader JsonWriter

/-! ## Loading -/

/-- What `load_config` raises. -/
inductive LoadFault where
  | missing
  | notUtf8
  | digits
  | urlparse
  | validation (errors : List CodeText)

/-- What loading takes from the host. -/
structure LoadHost extends ConfigHost where
  json : JsonHost

/-- `validate_config`, with its exceptions as those of the caller. -/
def ConfigFault.toLoadFault : ConfigFault → LoadFault
  | .validation errors => .validation errors
  | .urlparse => .urlparse

/-- `load_config` on a file, which is `none` if there is none. -/
def loadConfig (host : LoadHost) : Option Bytes → Except LoadFault AppConfig
  | none => .error .missing
  | some content =>
      match TextFile.readText content with
      | none => .error .notUtf8
      | some text =>
          match loads host.json text with
          | .error (.decode message) => .error (.validation [CodeText.of ("invalid JSON: " ++ message)])
          | .error .digits => .error .digits
          | .ok (.obj data) => (validateConfig host.toConfigHost data).mapError ConfigFault.toLoadFault
          | .ok _ => .error (.validation [CodeText.of "config root must be a JSON object"])

/-! ## Accepted documents are read back -/

section Accepted

variable {host : ConfigHost} {json : JsonHost} {data : Members} {p : Document → Prop}

/-- The only float of a value is `1.0`. -/
def FloatIsOne (part : Document) : Prop := ∀ text, part = .float text → text = ['1', '.', '0']

theorem floatIsOne_leaf {value : Document} (hparts : value.parts = [value]) (h : ∀ text, value ≠ .float text) :
    value.Everywhere FloatIsOne :=
  Document.everywhere_leaf hparts fun text htext => absurd htext (h text)

theorem mem_of_lookup {key : CodeText} {value : Document} (h : data.lookup key = some value) : (key, value) ∈ data := by
  induction data with
  | nil => cases h
  | cons member rest ih =>
      obtain ⟨k, v⟩ := member
      rw [List.lookup_cons] at h
      by_cases hk : key = k
      · obtain rfl := hk
        rw [beq_self_eq_true] at h
        cases h
        exact List.mem_cons_self
      · rw [beq_eq_false_iff_ne.mpr hk] at h
        exact List.mem_cons_of_mem _ (ih h)

theorem lookup_of_mem {member : CodeText × Document} (hkeys : (data.map Prod.fst).Nodup) (hmem : member ∈ data) :
    data.lookup member.1 = some member.2 := by
  induction data with
  | nil => cases hmem
  | cons first rest ih =>
      obtain ⟨hnew, hrest⟩ := List.nodup_cons.mp (List.map_cons ▸ hkeys)
      obtain ⟨k, v⟩ := first
      rw [List.lookup_cons]
      rcases List.mem_cons.mp hmem with rfl | hlater
      · rw [beq_self_eq_true]
      · have hk : member.1 ≠ k := by
          rintro rfl
          exact hnew (List.mem_map.mpr ⟨member, hlater, rfl⟩)
        rw [beq_eq_false_iff_ne.mpr hk]
        exact ih hrest hlater

theorem get_of_mem {key : String} {member : CodeText × Document} (hkeys : (data.map Prod.fst).Nodup)
    (hmem : member ∈ data) (hkey : member.1 = CodeText.of key) : Members.get data key = member.2 := by
  rw [Members.get, ← hkey, lookup_of_mem hkeys hmem, Option.getD_some]

/-- What holds everywhere in a dictionary holds everywhere in the value under a key. -/
theorem everywhere_get {key : String} (h : (Document.obj data).Everywhere p) (hnull : p .null) :
    (Members.get data key).Everywhere p := by
  rw [Members.get]
  cases hvalue : data.lookup (CodeText.of key) with
  | none => exact Document.everywhere_leaf rfl hnull
  | some value => exact (Document.everywhere_obj.mp h).2 _ (mem_of_lookup hvalue)

/-- What holds of the values under the allowed keys holds everywhere in a dictionary. -/
theorem everywhere_of_keys {allowedKeys : List String} (hself : p (.obj data)) (hkeys : KeysIn data allowedKeys)
    (hunique : (data.map Prod.fst).Nodup) (h : ∀ key ∈ allowedKeys, (Members.get data key).Everywhere p) :
    (Document.obj data).Everywhere p := by
  refine Document.everywhere_obj.mpr ⟨hself, fun member hmember => ?_⟩
  obtain ⟨key, hkey, hmem⟩ := List.mem_map.mp (hkeys member hmember)
  rw [← get_of_mem hunique hmember hmem.symm]
  exact h key hkey

/-- A dictionary of allowed keys without floats of its own. -/
theorem floatIsOne_of_keys {allowedKeys : List String} (hkeys : KeysIn data allowedKeys)
    (hunique : (Document.obj data).Everywhere Document.UniqueKeys)
    (h : ∀ key ∈ allowedKeys, (Members.get data key).Everywhere FloatIsOne) :
    (Document.obj data).Everywhere FloatIsOne :=
  everywhere_of_keys (fun _ h => nomatch h) hkeys hunique.self h

theorem floatIsOne_str {value : Document} {text : CodeText} (h : value = .str text) :
    value.Everywhere FloatIsOne := by
  rw [h]
  exact floatIsOne_leaf rfl fun _ h => nomatch h

theorem floatIsOne_bool {value : Document} {b : Bool} (h : value = .bool b) : value.Everywhere FloatIsOne := by
  rw [h]
  exact floatIsOne_leaf rfl fun _ h => nomatch h

theorem floatIsOne_null {value : Document} (h : value = .null) : value.Everywhere FloatIsOne := by
  rw [h]
  exact floatIsOne_leaf rfl fun _ h => nomatch h

theorem PositiveInt.floatIsOne {value : Document} {result : Option Int} (h : PositiveInt value result) :
    value.Everywhere FloatIsOne := by
  cases result with
  | none => exact floatIsOne_null h
  | some n =>
      rw [h.1]
      exact floatIsOne_leaf rfl fun _ h => nomatch h

theorem IsoDate.floatIsOne {value : Document} {result : Option Nat} (h : IsoDate value result) :
    value.Everywhere FloatIsOne := by
  cases result with
  | none => exact floatIsOne_null h
  | some date =>
      obtain ⟨text, htext, -⟩ := h
      exact floatIsOne_str htext

theorem DailyTime.floatIsOne {value : Document} {result : Option CodeText} (h : DailyTime value result) :
    value.Everywhere FloatIsOne := by
  cases result with
  | none => exact floatIsOne_null h
  | some text => exact floatIsOne_str h.1

/-- A dictionary under a key of a dictionary. -/
theorem unique_nested {key : String} {nested : Members}
    (hunique : (Document.obj data).Everywhere Document.UniqueKeys) (h : Members.get data key = .obj nested) :
    (Document.obj nested).Everywhere Document.UniqueKeys := by
  rw [← h]
  exact everywhere_get hunique trivial

theorem DownloadDocument.floatIsOne {settings : DownloadSettings} (h : DownloadDocument data settings)
    (hunique : (Document.obj data).Everywhere Document.UniqueKeys) : (Document.obj data).Everywhere FloatIsOne := by
  refine floatIsOne_of_keys h.keys hunique ?_
  simp only [List.forall_mem_cons]
  exact ⟨floatIsOne_bool h.issued, floatIsOne_bool h.received, floatIsOne_bool h.metadataFirst, List.forall_mem_nil _⟩

theorem RangeDocument.floatIsOne {range : InitialRange} (h : RangeDocument data range)
    (hunique : (Document.obj data).Everywhere Document.UniqueKeys) : (Document.obj data).Everywhere FloatIsOne := by
  refine floatIsOne_of_keys h.keys hunique ?_
  simp only [List.forall_mem_cons]
  exact ⟨h.startDate.floatIsOne, h.endDate.floatIsOne, List.forall_mem_nil _⟩

theorem ScheduleDocument.floatIsOne {settings : ScheduleSettings} (h : ScheduleDocument data settings)
    (hunique : (Document.obj data).Everywhere Document.UniqueKeys) : (Document.obj data).Everywhere FloatIsOne := by
  have htimezone : (Members.get data "timezone").Everywhere FloatIsOne := by
    have hvalue := h.timezone.1
    split_ifs at hvalue with hhas
    · exact floatIsOne_str hvalue
    · rw [Members.has, Option.not_isSome_iff_eq_none] at hhas
      exact floatIsOne_null (by rw [Members.get, hhas, Option.getD_none])
  refine floatIsOne_of_keys h.keys hunique ?_
  simp only [List.forall_mem_cons]
  exact ⟨floatIsOne_bool h.enabled, h.intervalMinutes.floatIsOne, h.dailyAt.floatIsOne, htimezone,
    List.forall_mem_nil _⟩

theorem ReferencesDocument.floatIsOne {refs : CredentialReferences} (h : ReferencesDocument host data refs)
    (hunique : (Document.obj data).Everywhere Document.UniqueKeys) : (Document.obj data).Everywhere FloatIsOne := by
  refine floatIsOne_of_keys h.keys hunique ?_
  simp only [List.forall_mem_cons]
  exact ⟨floatIsOne_str h.certificateRef.required.1, floatIsOne_str h.privateKeyRef.required.1,
    floatIsOne_str h.phraseRef.required.1, List.forall_mem_nil _⟩

theorem ProfileDocument.floatIsOne {profile : ProfileConfig} (h : ProfileDocument host data profile)
    (hunique : (Document.obj data).Everywhere Document.UniqueKeys) : (Document.obj data).Everywhere FloatIsOne := by
  obtain ⟨rfc, hrfc, -⟩ := h.rfc
  obtain ⟨fingerprint, hfingerprint, -⟩ := h.certificateFingerprint
  obtain ⟨download, hdownload, hdirections⟩ := h.download
  obtain ⟨schedule, hschedule, hruns⟩ := h.schedule
  obtain ⟨refs, hrefs, hreferences⟩ := h.credentialRefs
  have hrange : (Members.get data "initialRange").Everywhere FloatIsOne := by
    have hinitial := h.initialRange
    cases hresult : profile.initialRange with
    | none =>
        rw [hresult] at hinitial
        exact floatIsOne_null hinitial
    | some range =>
        rw [hresult] at hinitial
        obtain ⟨nested, hnested, hdates⟩ := hinitial
        rw [hnested]
        exact hdates.floatIsOne (unique_nested hunique hnested)
  refine floatIsOne_of_keys h.keys hunique ?_
  simp only [List.forall_mem_cons, hdownload, hschedule, hrefs]
  exact ⟨floatIsOne_str h.profileId.1.1, floatIsOne_str hrfc.1, floatIsOne_str h.storageRoot.1.1,
    hdirections.floatIsOne (unique_nested hunique hdownload), hrange, h.lookbackDays.floatIsOne,
    h.maxConcurrency.1.floatIsOne, hruns.floatIsOne (unique_nested hunique hschedule),
    floatIsOne_str hfingerprint.1, hreferences.floatIsOne (unique_nested hunique hrefs), List.forall_mem_nil _⟩

/-- The items of an array of profiles. -/
theorem floatIsOne_items {items : List Document} {profiles : List ProfileConfig}
    (h : List.Forall₂ (ProfileItem host) items profiles)
    (hunique : ∀ item ∈ items, item.Everywhere Document.UniqueKeys) :
    ∀ item ∈ items, item.Everywhere FloatIsOne := by
  induction h with
  | nil => exact List.forall_mem_nil _
  | cons hitem _ ih =>
      obtain ⟨hfirst, hrest⟩ := List.forall_mem_cons.mp hunique
      obtain ⟨data, rfl, hprofile⟩ := hitem
      exact List.forall_mem_cons.mpr ⟨hprofile.floatIsOne hfirst, ih hrest⟩

theorem ConfigDocument.floatIsOne {profiles : List ProfileConfig} (h : ConfigDocument host data profiles)
    (hunique : (Document.obj data).Everywhere Document.UniqueKeys) : (Document.obj data).Everywhere FloatIsOne := by
  obtain ⟨items, hitems, -, hprofiles⟩ := h.items
  have huniqueItems : ∀ item ∈ items, item.Everywhere Document.UniqueKeys := by
    have harray : (Members.get data "profiles").Everywhere Document.UniqueKeys := everywhere_get hunique trivial
    rw [hitems] at harray
    exact (Document.everywhere_arr.mp harray).2
  have hversion : (Members.get data "schemaVersion").Everywhere FloatIsOne := by
    have hone := h.schemaVersion
    cases hvalue : Members.get data "schemaVersion" with
    | float text =>
        rw [hvalue] at hone
        refine Document.everywhere_leaf rfl fun text' htext => ?_
        cases htext
        exact beq_iff_eq.mp hone
    | int n => exact floatIsOne_leaf rfl fun _ h => nomatch h
    | bool b => exact floatIsOne_leaf rfl fun _ h => nomatch h
    | _ =>
        rw [hvalue] at hone
        cases hone
  refine floatIsOne_of_keys h.keys hunique ?_
  simp only [List.forall_mem_cons, hitems]
  exact ⟨hversion, Document.everywhere_arr.mpr ⟨(fun _ h => nomatch h), floatIsOne_items hprofiles huniqueItems⟩,
    List.forall_mem_nil _⟩

/-- An accepted dictionary without integers that are too long can be read back. -/
theorem ConfigDocument.readable {profiles : List ProfileConfig} (h : ConfigDocument host data profiles)
    (hunique : (Document.obj data).Everywhere Document.UniqueKeys)
    (hdigits : (Document.obj data).Everywhere (FitsDigits json)) :
    (Document.obj data).Everywhere (Readable json) := by
  have hone : IsFloat ['1', '.', '0'] := ⟨'1', ['.', '0'], .whole, .fraction, rfl, rfl, rfl, .inl rfl⟩
  intro part hpart
  have hfloat := h.floatIsOne hunique part hpart
  have hkeys := hunique part hpart
  have hint := hdigits part hpart
  cases part with
  | float text =>
      obtain rfl := hfloat text rfl
      exact ⟨hone, json.one⟩
  | int n => exact hint
  | obj members => exact hkeys
  | _ => exact trivial

end Accepted

/-! ## What is written is loaded -/

section Written

variable {host : LoadHost} {data : Members} {text : CodeText} {crlf : Bool} {content : Bytes}

/-- The text of a configuration as a file. -/
def configText (text : CodeText) : CodeText := text ++ [.scalar '\n']

theorem readable_of_validateConfig {config : AppConfig} (h : validateConfig host.toConfigHost data = .ok config)
    (hunique : (Document.obj data).Everywhere Document.UniqueKeys) (htext : dumps host.json (.obj data) = some text) :
    (Document.obj data).Everywhere (Readable host.json) := by
  exact (validateConfig_eq_ok.mp h).2.readable hunique (dumps_eq_some htext).1

/-- A configuration that has been checked is decoded from its file. -/
theorem loads_written {config : AppConfig} (h : validateConfig host.toConfigHost data = .ok config)
    (hunique : (Document.obj data).Everywhere Document.UniqueKeys) (htext : dumps host.json (.obj data) = some text)
    (hcontent : TextFile.writeText crlf (configText text) = some content) :
    ∃ written, TextFile.readText content = some written ∧ loads host.json written = .ok (.obj data) := by
  have hreadable := readable_of_validateConfig h hunique htext
  have hreturn : CodePoint.scalar '\r' ∉ configText text := by
    intro hmem
    rw [configText, ← (dumps_eq_some htext).2] at hmem
    rcases List.mem_append.mp hmem with hmem | hmem
    · exact not_mem_render hreadable hmem
    · cases List.mem_singleton.mp hmem
  exact ⟨configText text, TextFile.readText_of_writeText hcontent hreturn, loads_dumps hreadable htext⟩

/-- A configuration that has been checked is loaded from its file. -/
theorem loadConfig_written {config : AppConfig} (h : validateConfig host.toConfigHost data = .ok config)
    (hunique : (Document.obj data).Everywhere Document.UniqueKeys) (htext : dumps host.json (.obj data) = some text)
    (hcontent : TextFile.writeText crlf (configText text) = some content) :
    loadConfig host (some content) = .ok config := by
  obtain ⟨written, hread, hloads⟩ := loads_written h hunique htext hcontent
  simp only [loadConfig, hread, hloads, h]
  rfl

/-- The file of a configuration can be written if its texts have encodings. -/
theorem writeText_isSome_iff {config : AppConfig} (h : validateConfig host.toConfigHost data = .ok config)
    (hunique : (Document.obj data).Everywhere Document.UniqueKeys) (htext : dumps host.json (.obj data) = some text) :
    (TextFile.writeText crlf (configText text)).isSome = true ↔
      (Document.obj data).Everywhere Document.EncodableTexts := by
  have hreadable := readable_of_validateConfig h hunique htext
  have hline : CodeText.Encodable [.scalar '\n'] := fun n hn => nomatch List.mem_singleton.mp hn
  rw [TextFile.writeText_isSome, configText, CodeText.encodable_append, ← encodable_render hreadable]
  rw [(dumps_eq_some htext).2]
  exact and_iff_left hline

end Written

end Config

end CfdiVault
