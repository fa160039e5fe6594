import CfdiVault.LiveRequestState
import CfdiVault.Library.ReadModifyWrite

/-!
# Two upserts of the state file at a time

`upsert_live_metadata_request` reads the whole state file, puts its record into the list
and replaces the file.  The replacement is atomic, but nothing keeps the file as it was
read.  So of two processes the one that writes last undoes the other's upsert, unless it
has read the file after the other has written (`updates_kept_iff`).
-/

namespace CfdiVault

open ReadModifyWrite

namespace LiveRequestState

/-- What each of two processes replaces the file by, if it has read the file and its
upsert does not raise. -/
def upserting (records : Bool → LiveMetadataRequestRecord) (process : Bool) (seen : StateFile) :
    Option StateFile :=
  (upsertLive (records process) seen).toOption

/-- The file lists both new records, and every record that was there before and whose
request is not that of a new one. -/
def NothingLost (before : List LiveMetadataRequestRecord) (records : Bool → LiveMetadataRequestRecord)
    (file : StateFile) : Prop :=
  ∃ listed, listLive file = .ok listed ∧ (∀ process, records process ∈ listed) ∧
    ∀ r ∈ before, r ∈ listed ∨ ∃ process, (records process).requestRef = r.requestRef

section Race

variable {records : Bool → LiveMetadataRequestRecord} {file : StateFile}
variable {before : List LiveMetadataRequestRecord}

/-- An upsert that does not raise replaces the file by the updated list. -/
theorem upserting_eq_some {process : Bool} {written : StateFile}
    (hlisted : listLive file = .ok before) (h : upserting records process file = some written) :
    written = writeState (insertRecord (records process) before) := by
  rw [upserting, upsertLive_ok hlisted] at h
  exact (Option.some.inj h).symm

theorem NothingLost.normal (h : NothingLost before records file) : ∀ process, Normal (records process) := by
  obtain ⟨listed, hlisted, hnew, -⟩ := h
  exact fun process => listLive_normal hlisted _ (hnew process)

/-- Of two processes, one that is not the last is the first. -/
theorem eq_first {first last process : Bool} (hne : first ≠ last) (hlast : process ≠ last) :
    process = first := by
  rw [Bool.eq_not.mpr hlast, Bool.eq_not.mpr hne]

theorem refs_ne (hrefs : (records false).requestRef ≠ (records true).requestRef) {first last : Bool}
    (hne : first ≠ last) : (records first).requestRef ≠ (records last).requestRef := by
  cases first <;> cases last <;> first | exact absurd rfl hne | exact hrefs | exact hrefs.symm

/-- An upsert over the first one's keeps everything. -/
theorem nothingLost_serial (hvalid : listLive file = .ok before)
    (hrefs : (records false).requestRef ≠ (records true).requestRef)
    (hnormal : ∀ process, Normal (records process)) {first last : Bool} (hne : first ≠ last)
    {middle written : StateFile} (hmiddle : upserting records first file = some middle)
    (hwritten : upserting records last middle = some written) : NothingLost before records written := by
  cases upserting_eq_some hvalid hmiddle
  have hmiddleListed := listLive_upsert hvalid (hnormal first)
  cases upserting_eq_some hmiddleListed hwritten
  have hother := refs_ne hrefs hne
  refine ⟨_, listLive_upsert hmiddleListed (hnormal last), fun process => ?_, fun r hr => ?_⟩
  · rw [mem_insertRecord, mem_insertRecord]
    by_cases hlast : process = last
    · exact .inl (congrArg records hlast)
    · rw [eq_first hne hlast]
      exact .inr ⟨.inl rfl, hother⟩
  · by_cases hlast : (records last).requestRef = r.requestRef
    · exact .inr ⟨last, hlast⟩
    · by_cases hfirst : (records first).requestRef = r.requestRef
      · exact .inr ⟨first, hfirst⟩
      · rw [mem_insertRecord, mem_insertRecord]
        exact .inl (.inr ⟨.inr ⟨hr, Ne.symm hfirst⟩, Ne.symm hlast⟩)

/-- An upsert over the file that both have found keeps everything if the other's record was
there. -/
theorem nothingLost_stale (hvalid : listLive file = .ok before)
    (hrefs : (records false).requestRef ≠ (records true).requestRef)
    (hnormal : ∀ process, Normal (records process)) {first last : Bool} (hne : first ≠ last)
    {written : StateFile} (hwritten : upserting records last file = some written) :
    NothingLost before records written ↔ records first ∈ before := by
  cases upserting_eq_some hvalid hwritten
  have hother := refs_ne hrefs hne
  have hlisted := listLive_upsert hvalid (hnormal last)
  constructor
  · rintro ⟨listed, hlisted', hnew, -⟩
    cases hlisted.symm.trans hlisted'
    rcases mem_insertRecord.mp (hnew first) with hsame | ⟨hbefore, -⟩
    · exact absurd (congrArg LiveMetadataRequestRecord.requestRef hsame) hother
    · exact hbefore
  · intro hbefore
    refine ⟨_, hlisted, fun process => ?_, fun r hr => ?_⟩
    · by_cases hlast : process = last
      · exact mem_insertRecord.mpr (.inl (congrArg records hlast))
      · rw [eq_first hne hlast]
        exact mem_insertRecord.mpr (.inr ⟨hbefore, hother⟩)
    · by_cases hlast : (records last).requestRef = r.requestRef
      · exact .inr ⟨last, hlast⟩
      · exact .inl (mem_insertRecord.mpr (.inr ⟨hr, Ne.symm hlast⟩))

/-- Two calls that have both returned have both written. -/
theorem writers_pair {events : List (Event Bool)} {s : State Bool StateFile}
    (h : Interleaving (upserting records) (start file) events s)
    (hreturned : ∀ process, s.phase process = .returned) :
    ∃ first last, first ≠ last ∧ writers events = [first, last] := by
  obtain ⟨hiff, hnodup⟩ := h.returned_iff
  have hmem : ∀ process, process ∈ writers events := fun process => (hiff process).mp (hreturned process)
  match hwriters : writers events, hnodup with
  | [], _ => exact absurd (hwriters ▸ hmem true) List.not_mem_nil
  | [process], _ =>
      have htrue := List.mem_singleton.mp (hwriters ▸ hmem true)
      have hfalse := List.mem_singleton.mp (hwriters ▸ hmem false)
      cases htrue.trans hfalse.symm
  | [first, last], hnodup => exact ⟨first, last, fun heq => by simp [heq] at hnodup, rfl⟩
  | a :: b :: c :: rest, hnodup =>
      exfalso
      cases a <;> cases b <;> cases c <;> simp at hnodup

/-- Of two processes that have both finished, neither has undone anything exactly if both
records are read back as written and either the one that wrote last has read the other's
file, or the other's record was there before. -/
theorem updates_kept_iff (hvalid : listLive file = .ok before)
    (hrefs : (records false).requestRef ≠ (records true).requestRef) {events : List (Event Bool)}
    {s : State Bool StateFile} (h : Interleaving (upserting records) (start file) events s)
    (hreturned : ∀ process, s.phase process = .returned) :
    NothingLost before records s.cell ↔ (∀ process, Normal (records process)) ∧
      (Run (upserting records) FreshWrite (start file) events s ∨
        ∀ first last, writers events = [first, last] → records first ∈ before) := by
  obtain ⟨first, last, hne, hwriters⟩ := writers_pair h hreturned
  have hsole : (∀ i j, writers events = [i, j] → records i ∈ before) ↔ records first ∈ before := by
    refine ⟨fun hall => hall first last hwriters, fun hmem i j hij => ?_⟩
    cases hwriters.symm.trans hij
    exact hmem
  rw [hsole]
  rcases pair_outcome h hwriters with ⟨hfresh, middle, hmiddle, hwritten⟩ | ⟨hstale, hwritten⟩
  · exact ⟨fun hkept => ⟨hkept.normal, .inl hfresh⟩,
      fun ⟨hnormal, _⟩ => nothingLost_serial hvalid hrefs hnormal hne hmiddle hwritten⟩
  · rw [or_iff_right hstale]
    constructor
    · intro hkept
      exact ⟨hkept.normal, (nothingLost_stale hvalid hrefs hkept.normal hne hwritten).mp hkept⟩
    · rintro ⟨hnormal, hbefore⟩
      exact (nothingLost_stale hvalid hrefs hnormal hne hwritten).mpr hbefore

end Race

/-! ## An accepted request that is lost -/

section Sample

/-- A request that SAT accepted on 1 February 2024. -/
def acceptedRequest (requestRef idSolicitud : String) : LiveMetadataRequestRecord where
  requestRef := requestRef
  profileId := "default"
  direction := "received"
  kind := "metadata"
  operation := "SolicitaDescargaRecibidos"
  fechaInicial := "2024-01-01T00:00:00+00:00"
  fechaFinal := "2024-01-07T23:59:59.999999+00:00"
  criteriaHash := "criteria-" ++ requestRef
  idSolicitud := idSolicitud
  idSolicitudRedacted := "<redacted>"
  satCode := "5000"
  satMessage := ""
  createdAt := "2024-02-01T12:00:00Z"
  live := true
  sourceCommand := "sat backfill submit"
  permitIdHash := ""
  status := VERIFY_SCHEDULED
  nextCheckAt := "2024-02-01T12:05:00Z"
  updatedAt := "2024-02-01T12:00:00Z"
  expiresAt := "2024-02-04T12:00:00Z"

theorem acceptedRequest_normal (requestRef idSolicitud : String) :
    Normal (acceptedRequest requestRef idSolicitud) :=
  ⟨normalizeStatus_scheduled, by simp [acceptedRequest], by simp [acceptedRequest],
    by simp [acceptedRequest]⟩

/-- The requests of two processes. -/
def bothRequests : Bool → LiveMetadataRequestRecord
  | false => acceptedRequest "ref-1" "SAT-REQ-1"
  | true => acceptedRequest "ref-2" "SAT-REQ-2"

theorem upserting_bothRequests {file : StateFile} {before : List LiveMetadataRequestRecord}
    (h : listLive file = .ok before) (process : Bool) : upserting bothRequests process file =
      some (writeState (insertRecord (bothRequests process) before)) := by
  rw [upserting, upsertLive_ok h]
  rfl

/-- Both processes read before either writes. -/
def overlapping : List (Event Bool) :=
  [.read false, .read true, .decide false, .decide true, .write false, .write true]

theorem listLive_absent : listLive .absent = .ok [] := rfl

theorem overlapping_run : ∃ s, Interleaving (upserting bothRequests) (start .absent) overlapping s ∧
    (∀ process, s.phase process = .returned) ∧
    s.cell = writeState (insertRecord (bothRequests true) []) := by
  have hnext := upserting_bothRequests listLive_absent
  refine ⟨_, .snoc (.snoc (.snoc (.snoc (.snoc (.snoc .nil trivial (.read false rfl)) trivial
    (.read true rfl)) trivial (.decide false _ _ rfl (hnext false))) trivial
    (.decide true _ _ rfl (hnext true))) trivial (.write false _ _ rfl)) trivial
    (.write true _ _ rfl), ?_, rfl⟩
  intro process
  cases process <;> rfl

theorem updates_kept_iff_sample : ∃ s, NothingLost [] bothRequests s.cell ↔
    (∀ process, Normal (bothRequests process)) ∧
      (Run (upserting bothRequests) FreshWrite (start .absent) overlapping s ∨
        ∀ first last, writers overlapping = [first, last] → bothRequests first ∈ []) := by
  obtain ⟨s, hrun, hreturned, -⟩ := overlapping_run
  exact ⟨s, updates_kept_iff rfl (by decide) hrun hreturned⟩

/-- Where both processes read the file before either replaces it, the request of the first
to write is lost. -/
theorem accepted_request_overwritten :
    ¬ ∀ records file before events s, listLive file = .ok before →
      (records false).requestRef ≠ (records true).requestRef →
      Interleaving (upserting records) (start file) events s →
      (∀ process, s.phase process = .returned) → NothingLost before records s.cell := by
  intro h
  obtain ⟨s, hrun, hreturned, hcell⟩ := overlapping_run
  have hkept := h bothRequests .absent [] overlapping s rfl (by decide) hrun hreturned
  rw [hcell] at hkept
  have hnormal : ∀ process, Normal (bothRequests process) := by
    intro process
    cases process <;> exact acceptedRequest_normal _ _
  have hbefore := (nothingLost_stale listLive_absent (by decide) hnormal Bool.false_ne_true
    (upserting_bothRequests listLive_absent true)).mp hkept
  exact List.not_mem_nil hbefore

end Sample

end LiveRequestState

end CfdiVault
