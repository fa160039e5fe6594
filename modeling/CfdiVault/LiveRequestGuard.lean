import CfdiVault.LivePermitUse
import CfdiVault.SatRequestBuilders

/-!
# The guards of a live request and the request that is sent

`_require_metadata_only` checks a query and the permit names calendar dates; what is sent
are the attributes that `_request_attrs` builds for the query.

The check lets a query with a UUID pass, whose request names neither a content type nor a
period (`metadata_window_iff`).  The dates of a permit are those of the period in its own
offset, and what is sent is in UTC, so near midnight a request may begin before the permit
or end after it (`permit_covers_iff`).
-/

namespace CfdiVault

open LiveRequestState LiveCommands LivePermit LiveSubmit

namespace SatRequest

/-! ## The metadata check -/

/-- What an accepted query satisfies. -/
theorem requireMetadataOnly_eq_ok {query : DownloadQuery} {maxRangeDays : Int}
    (h : requireMetadataOnly query maxRangeDays = .ok ()) :
    (resolveV15RequestOperation query = .folio ∧ query.uuid.getD "" ≠ "") ∨
      (resolveV15RequestOperation query ≠ .folio ∧ ∃ period, query.period = some period ∧
        2000000 ≤ elapsedMicros period ∧ elapsedMicros period ≤ 86400000000 * maxRangeDays) := by
  unfold requireMetadataOnly validateV15LiveMetadataQuery at h
  split_ifs at h with hkind hmax hfolio huuid
  · exact .inl ⟨hfolio, huuid⟩
  · refine .inr ⟨hfolio, ?_⟩
    cases hperiod : query.period with
    | none =>
        rw [hperiod] at h
        cases h
    | some period =>
        rw [hperiod] at h
        dsimp only at h
        split_ifs at h with hpositive hshort hwide
        exact ⟨period, rfl, Int.not_lt.mp hshort, Int.not_lt.mp hwide⟩

/-- The second of a reading in UTC, a naive one being of the machine's zone. -/
def utcSecond (zone : TimeZone) (t : DateTime) : Int :=
  ((t.wall.micros : Int) - (t.offset.getD (zone t.wall)).micros) / 1000000

/-- A naive period has a positive length of no more than so many days when its readings are
taken in the machine's zone. -/
def LocalWindow (zone : TimeZone) (query : DownloadQuery) (maxRangeDays : Int) : Prop :=
  ∀ period, query.period = some period → period.start.offset = none →
    0 < utcSecond zone period.end - utcSecond zone period.start ∧
    utcSecond zone period.end - utcSecond zone period.start ≤ maxRangeDays * 86400

/-- A request for metadata over a period of positive length and of no more than so many
days. -/
def MetadataWindow (documents : RequestedDocuments) (maxRangeDays : Int) : Prop :=
  documents.requestType = some "Metadata" ∧ ∃ start «end», documents.start = some start ∧
    documents.end = some «end» ∧ start < «end» ∧
    («end».micros : Int) - start.micros ≤ maxRangeDays * 86400000000

section Guard

variable {rt : Runtime} {zone : TimeZone} {query : DownloadQuery} {maxRangeDays : Int}
variable {attrs : List (String × String)}

theorem utcSecond_eq {t : DateTime} {instant : Instant} (h : astimezoneUtc zone t = some instant) :
    utcSecond zone t = (instant.micros / 1000000 : Nat) := by
  rw [utcSecond, ← Instant.ofMicros?_eq_some h]
  omega

/-- The period of a request that was built, by the seconds of its two instants. -/
theorem liveAttrs_window {operation : SatV15RequestOperation} {start «end» : Instant} :
    MetadataWindow (liveSolicitud (liveAttrs rt query operation (isoSeconds start)
        (isoSeconds «end»))).documents maxRangeDays ↔
      0 < ((«end».micros / 1000000 : Nat) : Int) - (start.micros / 1000000 : Nat) ∧
      ((«end».micros / 1000000 : Nat) : Int) - (start.micros / 1000000 : Nat) ≤ maxRangeDays * 86400 := by
  rw [liveAttrs_documents, readUtc_isoSeconds, readUtc_isoSeconds]
  have hmicros : ∀ t : Instant, t.wholeSecond.micros = t.micros / 1000000 * 1000000 := fun _ => rfl
  constructor
  · rintro ⟨-, _, _, ⟨⟩, ⟨⟩, hlt, hlength⟩
    have hlt : start.wholeSecond.micros < «end».wholeSecond.micros := hlt
    rw [hmicros, hmicros] at hlt hlength
    omega
  · rintro ⟨hpositive, hlength⟩
    refine ⟨rfl, _, _, rfl, rfl, ?_, ?_⟩
    · change start.wholeSecond.micros < «end».wholeSecond.micros
      rw [hmicros, hmicros]
      omega
    · rw [hmicros, hmicros]
      omega

/-- The length of a period with offsets is that between its instants. -/
theorem elapsed_aware {period : DateTimePeriod} {start «end» : Instant} (haware : period.start.offset ≠ none)
    (hstart : astimezoneUtc zone period.start = some start)
    (hend : astimezoneUtc zone period.end = some «end») :
    elapsedMicros period = («end».micros : Int) - start.micros := by
  obtain ⟨o, ho⟩ := Option.ne_none_iff_exists'.mp haware
  obtain ⟨p, hp⟩ := Option.ne_none_iff_exists'.mp ((not_congr (offsets_alike period)).mp haware)
  rw [Instant.ofMicros?_eq_some hstart, Instant.ofMicros?_eq_some hend, elapsedMicros, ho, hp]
  rfl

/-- An accepted query gives a request for metadata over a bounded period exactly if it has
no UUID and its period, where it is naive, is bounded in the machine's zone. -/
theorem metadata_window_iff (haccepted : requireMetadataOnly query maxRangeDays = .ok ())
    (hbuilt : requestAttrs rt zone query (resolveV15RequestOperation query) = .ok attrs) :
    MetadataWindow (liveSolicitud attrs).documents maxRangeDays ↔
      query.uuid.getD "" = "" ∧ LocalWindow zone query maxRangeDays := by
  rcases requireMetadataOnly_eq_ok haccepted with ⟨hfolio, huuid⟩ | ⟨hop, period, hperiod, hleast, hmost⟩
  · refine iff_of_false ?_ fun h => huuid h.1
    rw [requestAttrs, if_pos hfolio, if_neg huuid] at hbuilt
    cases hbuilt
    intro h
    cases h.1
  · have huuid : query.uuid.getD "" = "" := by
      by_contra hset
      exact hop (if_pos hset)
    obtain ⟨period', start, «end», hperiod', hstart, hend, rfl⟩ := requestAttrs_eq_ok hop hbuilt
    cases hperiod.symm.trans hperiod'
    rw [liveAttrs_window]
    constructor
    · intro hwindow
      refine ⟨huuid, fun period' hperiod' _ => ?_⟩
      cases hperiod.symm.trans hperiod'
      rw [utcSecond_eq hstart, utcSecond_eq hend]
      exact hwindow
    · rintro ⟨-, hlocal⟩
      by_cases haware : period.start.offset = none
      · have hwindow := hlocal period hperiod haware
        rw [utcSecond_eq hstart, utcSecond_eq hend] at hwindow
        exact hwindow
      · rw [elapsed_aware haware hstart hend] at hleast hmost
        omega

end Guard

/-! ## A UUID on a query for a period -/

section Sample

/-- The metadata of January 2024, with the UUID of one invoice. -/
def uuidQuery : DownloadQuery := { receiverQuery with
  receiverRfcs := []
  uuid := some "6f1c4b52-0000-0000-0000-000000000001" }

theorem uuidQuery_accepted : requireMetadataOnly uuidQuery 1 = .ok () := rfl

theorem uuidQuery_built : requestAttrs asciiTables zoneUtc uuidQuery (resolveV15RequestOperation uuidQuery) =
    .ok [("Folio", "6f1c4b52-0000-0000-0000-000000000001"),
      ("RfcSolicitante", asciiTables.upper "AAA010101AAA")] := rfl

theorem metadata_window_iff_sample : ∃ attrs,
    MetadataWindow (liveSolicitud attrs).documents 1 ↔
      uuidQuery.uuid.getD "" = "" ∧ LocalWindow zoneUtc uuidQuery 1 :=
  ⟨_, metadata_window_iff uuidQuery_accepted uuidQuery_built⟩

/-- An accepted metadata query with a UUID gives a request for the CFDI of that UUID. -/
theorem uuid_not_metadata : ¬ ∀ rt zone query maxRangeDays attrs,
    requireMetadataOnly query maxRangeDays = .ok () →
    requestAttrs rt zone query (resolveV15RequestOperation query) = .ok attrs →
    MetadataWindow (liveSolicitud attrs).documents maxRangeDays := by
  intro h
  exact nomatch (h _ _ _ _ _ uuidQuery_accepted uuidQuery_built).1

end Sample

/-! ## The permit and the request -/

/-- The calendar day of a text. -/
def dayOf (text : String) : Option Nat := (DateTime.fromisoformat text).map fun t => t.wall.ordinal

/-- Both ends of a request fall on days of a permit. -/
def Covers (permit : LiveExecutionPermit) (initial final : String) : Prop :=
  ∃ dateFrom dateTo first last, DateTime.parseDate permit.dateFrom.toList = some dateFrom ∧
    DateTime.parseDate permit.dateTo.toList = some dateTo ∧ dayOf initial = some first ∧
    dayOf final = some last ∧ dateFrom ≤ first ∧ first ≤ dateTo ∧ dateFrom ≤ last ∧ last ≤ dateTo

section Permit

variable {rt : Runtime} {zone : TimeZone} {query : DownloadQuery} {period : DateTimePeriod}
variable {attrs : List (String × String)} {initial final : String}
variable {host : PermitHost} {call : PermitCall} {folder after : PermitFolder} {used : LiveExecutionPermit}
variable {scope profileId : String}

/-- The permit that was consumed for a query has the dates of its period. -/
theorem consumed_dates (hconsumed :
      (validateAndConsumeLivePermit host (call.ofQuery scope profileId query period)).exec folder =
        (.ok used, after)) :
    used.dateFrom = DateTime.formatDate period.start.wall.ordinal ∧
      used.dateTo = DateTime.formatDate period.end.wall.ordinal := by
  obtain ⟨name, -, huse, -⟩ := exec_ok hconsumed
  obtain ⟨permit, -, hused⟩ := Checked.bind_eq_ok.mp huse
  obtain ⟨hexpected, -, -, -, -, -, rfl⟩ := consumed_eq_ok.mp hused
  exact ⟨hexpected.dateFrom, hexpected.dateTo⟩

theorem dayOf_isoSeconds (t : Instant) : dayOf (isoSeconds t) = some t.ordinal := by
  have hday : t.wholeSecond.ordinal = t.ordinal := by
    change t.micros / 1000000 * 1000000 / 86400000000 + 1 = t.micros / 86400000000 + 1
    omega
  rw [dayOf, isoSeconds, DateTime.fromisoformat_isoformat]
  exact congrArg some hday

theorem parseDate_ordinal (t : Instant) :
    DateTime.parseDate (DateTime.formatDate t.ordinal).toList = some t.ordinal :=
  DateTime.parseDate_formatDate (Nat.le_add_left 1 _) t.date.le_max

/-- The days of a request against the dates of a period. -/
theorem covers_iff {start «end» : Instant}
    (hfrom : used.dateFrom = DateTime.formatDate period.start.wall.ordinal)
    (hto : used.dateTo = DateTime.formatDate period.end.wall.ordinal) :
    Covers used (isoSeconds start) (isoSeconds «end») ↔
      period.start.wall.ordinal ≤ start.ordinal ∧ start.ordinal ≤ period.end.wall.ordinal ∧
      period.start.wall.ordinal ≤ «end».ordinal ∧ «end».ordinal ≤ period.end.wall.ordinal := by
  rw [Covers, hfrom, hto, parseDate_ordinal, parseDate_ordinal, dayOf_isoSeconds, dayOf_isoSeconds]
  constructor
  · rintro ⟨_, _, _, _, ⟨⟩, ⟨⟩, ⟨⟩, ⟨⟩, hdays⟩
    exact hdays
  · intro hdays
    exact ⟨_, _, _, _, rfl, rfl, rfl, rfl, hdays⟩

/-- The texts of the period in a request that has one. -/
theorem requestAttrs_period {operation : SatV15RequestOperation}
    (hbuilt : requestAttrs rt zone query operation = .ok attrs)
    (hinitial : attrs.lookup "FechaInicial" = some initial)
    (hfinal : attrs.lookup "FechaFinal" = some final) :
    ∃ period start «end», query.period = some period ∧ astimezoneUtc zone period.start = some start ∧
      astimezoneUtc zone period.end = some «end» ∧ initial = isoSeconds start ∧
      final = isoSeconds «end» := by
  by_cases hop : operation = .folio
  · rw [requestAttrs, if_pos hop] at hbuilt
    split_ifs at hbuilt
    cases hbuilt
    cases hinitial
  · obtain ⟨period, start, «end», hperiod, hstart, hend, rfl⟩ := requestAttrs_eq_ok hop hbuilt
    exact ⟨period, start, «end», hperiod, hstart, hend, (Option.some.inj hinitial).symm,
      (Option.some.inj hfinal).symm⟩

/-- A request for a period is covered by the permit that was consumed for it exactly if the
period begins no earlier on its day than its offset from UTC, and does not end on its day so
late that its offset takes it into the next one. -/
theorem permit_covers_iff {startOffset endOffset : UtcOffset} (hperiod : query.period = some period)
    (hstartOffset : period.start.offset = some startOffset)
    (hendOffset : period.end.offset = some endOffset)
    (hconsumed :
      (validateAndConsumeLivePermit host (call.ofQuery scope profileId query period)).exec folder =
        (.ok used, after))
    (hbuilt : requestAttrs rt zone query (resolveV15RequestOperation query) = .ok attrs)
    (hinitial : attrs.lookup "FechaInicial" = some initial)
    (hfinal : attrs.lookup "FechaFinal" = some final) :
    Covers used initial final ↔
      startOffset.micros ≤ (period.start.wall.micros % Calendar.dayMicros : Nat) ∧
      ((period.end.wall.micros % Calendar.dayMicros : Nat) : Int) - endOffset.micros <
        Calendar.dayMicros := by
  obtain ⟨hfrom, hto⟩ := consumed_dates hconsumed
  obtain ⟨period', start, «end», hperiod', hstart, hend, rfl, rfl⟩ :=
    requestAttrs_period hbuilt hinitial hfinal
  cases hperiod.symm.trans hperiod'
  rw [covers_iff hfrom hto]
  -- the instants are the readings less their offsets, and they are in order
  have hs : (start.micros : Int) = period.start.wall.micros - startOffset.micros := by
    rw [Instant.ofMicros?_eq_some hstart, hstartOffset, Option.getD_some]
  have he : («end».micros : Int) = period.end.wall.micros - endOffset.micros := by
    rw [Instant.ofMicros?_eq_some hend, hendOffset, Option.getD_some]
  have hordered := period.ordered
  rw [DateTime.orderedAfter?, hstartOffset, hendOffset, Option.some.injEq, decide_eq_true_iff] at hordered
  have hsLower := startOffset.lower
  have hsUpper := startOffset.upper
  have heLower := endOffset.lower
  have heUpper := endOffset.upper
  unfold Instant.ordinal Calendar.dayMicros
  omega

end Permit

/-! ## A request that begins the day before -/

section Sample

/-- The morning of 1 January 2024, an hour ahead of UTC. -/
def morning : DateTimePeriod where
  start := ⟨63839664000000000, some .hourAhead⟩
  «end» := ⟨63839707200000000, some .hourAhead⟩
  ordered := by decide

def morningQuery : DownloadQuery := { receiverQuery with
  receiverRfcs := []
  period := some morning }

/-- A request of a permit for 1 January 2024. -/
def dayRequest : LivePermitRequest := { sampleRequest with dateTo := "2024-01-01" }

def dayPermit : LiveExecutionPermit :=
  newPermit sampleMachine.rt dayRequest "permit-0001" sampleNoon 63842386500000000
    sampleCheckout

theorem dayRequest_valid : validatedRequest dayRequest = .ok dayRequest := by decide +kernel

theorem morning_parsed : parseCliDatetime false "2024-01-01T00:00:00+01:00" = some morning.start ∧
    parseCliDatetime true "2024-01-01T12:00:00+01:00" = some morning.end := by decide +kernel

theorem dayPermit_consumed : ∃ used after, (validateAndConsumeLivePermit sampleMachine
    (sampleCall.ofQuery METADATA_LIVE_SMOKE_SCOPE "default" morningQuery morning)).exec
      (fun _ => permitFile dayPermit) = (.ok used, after) := by
  obtain ⟨hvalid, -⟩ := validatedRequest_eq_ok dayRequest_valid
  have hlegible : Legible dayPermit := newPermit_legible hvalid (by decide)
  have huse : useFile sampleMachine
      (sampleCall.ofQuery METADATA_LIVE_SMOKE_SCOPE "default" morningQuery morning)
      (permitFile dayPermit) =
        .ok { dayPermit with consumed := true, consumedAt := some sampleNoon } := by
    rw [useFile_permitFile hlegible]
    refine consumed_eq_ok.mpr ⟨matchExpected_iff.mp ?_, sampleNoon, rfl,
      newPermit_policy hvalid (by decide) rfl, sampleNoon, rfl, rfl⟩
    decide +kernel
  exact ⟨_, _, exec_of_use sampleCall_name huse⟩

/-- The request for the morning begins on the last day of 2023 in UTC. -/
theorem morning_built : ∃ attrs, requestAttrs asciiTables zoneUtc morningQuery
      (resolveV15RequestOperation morningQuery) = .ok attrs ∧
    attrs.lookup "FechaInicial" = some (isoSeconds ⟨63839660400000000, by decide⟩) ∧
    attrs.lookup "FechaFinal" = some (isoSeconds ⟨63839703600000000, by decide⟩) := by
  have hop : resolveV15RequestOperation morningQuery ≠ .folio := by decide
  have hperiod : morningQuery.period = some morning := rfl
  have hdated : morning.start.toInstant?.isSome ∧ morning.end.toInstant?.isSome := by decide
  have hbuilds : ∃ attrs, requestAttrs asciiTables zoneUtc morningQuery
      (resolveV15RequestOperation morningQuery) = .ok attrs :=
    (requestAttrs_isOk hop hperiod (by decide)).mpr hdated
  obtain ⟨attrs, hbuilt⟩ := hbuilds
  obtain ⟨period, start, «end», hperiod', hstart, hend, hattrs⟩ := requestAttrs_eq_ok hop hbuilt
  cases hperiod.symm.trans hperiod'
  have hfirst : astimezoneUtc zoneUtc morning.start = some ⟨63839660400000000, by decide⟩ := by decide
  have hlast : astimezoneUtc zoneUtc morning.end = some ⟨63839703600000000, by decide⟩ := by decide
  cases hstart.symm.trans hfirst
  cases hend.symm.trans hlast
  rw [hattrs] at hbuilt
  exact ⟨_, hbuilt, rfl, rfl⟩

theorem permit_covers_iff_sample : ∃ used,
    Covers used (isoSeconds ⟨63839660400000000, by decide⟩) (isoSeconds ⟨63839703600000000, by decide⟩) ↔
      3600000000 ≤ ((morning.start.wall.micros % Calendar.dayMicros : Nat) : Int) ∧
      ((morning.end.wall.micros % Calendar.dayMicros : Nat) : Int) - 3600000000 < Calendar.dayMicros := by
  obtain ⟨used, after, hconsumed⟩ := dayPermit_consumed
  obtain ⟨attrs, hbuilt, hinitial, hfinal⟩ := morning_built
  exact ⟨used, permit_covers_iff rfl rfl rfl hconsumed hbuilt hinitial hfinal⟩

/-- A permit for 1 January that was consumed for a query from midnight, an hour ahead of
UTC, does not cover its request, which begins on 31 December. -/
theorem morning_not_covered : ¬ ∀ rt zone host (call : PermitCall) folder used after scope profileId query
    period attrs initial final fromText toText, parseCliDatetime false fromText = some period.start →
    parseCliDatetime true toText = some period.end → query.period = some period →
    period.start.offset ≠ none →
    (validateAndConsumeLivePermit host (call.ofQuery scope profileId query period)).exec folder =
      (.ok used, after) →
    requestAttrs rt zone query (resolveV15RequestOperation query) = .ok attrs →
    attrs.lookup "FechaInicial" = some initial → attrs.lookup "FechaFinal" = some final →
    Covers used initial final := by
  intro h
  obtain ⟨used, after, hconsumed⟩ := dayPermit_consumed
  obtain ⟨attrs, hbuilt, hinitial, hfinal⟩ := morning_built
  have hcovers := h asciiTables zoneUtc sampleMachine sampleCall _ used after METADATA_LIVE_SMOKE_SCOPE
    "default" morningQuery morning attrs _ _ _ _ morning_parsed.1 morning_parsed.2 rfl (by decide) hconsumed
    hbuilt hinitial hfinal
  obtain ⟨hfrom, hto⟩ := consumed_dates hconsumed
  exact absurd ((covers_iff hfrom hto).mp hcovers).1 (by decide)

end Sample

end SatRequest

end CfdiVault
