import CfdiVault.LivePermit
import CfdiVault.LiveSubmit

/-!
# The two builders of a download request

`_download_request_payload` builds the offline request, for the receivers, the on-behalf
RFC and every filter of the query; `_request_attrs` builds the attributes of the request
that the live adapter sends.  Both write the period in UTC, to the second.

The offline builder writes a naive reading as it is, the live one takes it as a reading of
the machine's time zone.
-/

namespace CfdiVault

open LiveRequestState LiveCommands LivePermit LiveSubmit

/-! ## Texts to the second -/

/-- The beginning of the second of an instant. -/
def Instant.wholeSecond (t : Instant) : Instant where
  micros := t.micros / 1000000 * 1000000
  lt_max := Nat.lt_of_le_of_lt (Nat.div_mul_le_self t.micros 1000000) t.lt_max

namespace SatRequest

/-- `isoformat(timespec="seconds")` of a reading without offset. -/
def isoSeconds (t : Instant) : String := DateTime.isoformat ⟨t.wholeSecond, none⟩

/-- `_format_sat_datetime` -/
def formatSatDatetime (value : DateTime) : Option String :=
  match value.offset with
  | none => some (isoSeconds value.wall)
  | some _ => value.toInstant?.map fun t => isoSeconds t ++ "Z"

/-- `_sat_dt` -/
def satDt (zone : TimeZone) (value : DateTime) : Option String :=
  (astimezoneUtc zone value).map isoSeconds

/-! ## The builders -/

/-- The element of a request: its attributes, and the receivers that it lists. -/
structure SatSolicitud where
  attrs : List (String × String)
  receivers : List String
  deriving DecidableEq

def SatSolicitud.attr (solicitud : SatSolicitud) (key : String) : Option String :=
  solicitud.attrs.lookup key

/-- `_add_optional` -/
def optionalAttr (key : String) (value : Option String) : List (String × String) :=
  if value.getD "" = "" then [] else [(key, value.getD "")]

/-- An RFC that is there, in capitals. -/
def upperAttr (rt : Runtime) (key : String) (value : Option String) : List (String × String) :=
  match DownloadQuery.upperOptional rt value with
  | none => []
  | some rfc => [(key, rfc)]

/-- The value of an option, or an exception that no command catches. -/
def orRaise {α : Type} (exception : String) : Option α → Except CliFault α
  | some a => .ok a
  | none => .error (.raised exception)

theorem orRaise_eq_ok {α : Type} {exception : String} {o : Option α} {a : α} :
    orRaise exception o = .ok a ↔ o = some a := by
  cases o with
  | none => exact iff_of_false (fun h => (nomatch h)) fun h => (nomatch h)
  | some b => simp [orRaise]

/-- `_request_type_value` -/
def requestTypeValue : RequestType → String
  | .cfdi => "CFDI"
  | .metadata => "Metadata"

/-- The issuer and the receiver of an offline request. -/
def offlineParties (rt : Runtime) (query : DownloadQuery) : List (String × String) :=
  match query.direction with
  | .folio => []
  | .issued =>
      let issuer := query.issuerRfc.getD ""
      [("RfcEmisor", rt.upper (if issuer = "" then query.requesterRfc else issuer))]
  | .received =>
      ("RfcReceptor", rt.upper query.requesterRfc) ::
        upperAttr rt "RfcEmisor" query.issuerRfc

/-- What an offline request selects by: a UUID, or a period and its parties. -/
def offlineSelection (rt : Runtime) (query : DownloadQuery) : Except CliFault (List (String × String)) :=
  if query.direction = .folio then .ok [("Folio", rt.upper (query.uuid.getD "None"))]
  else do
    let period ← orRaise "AssertionError" query.period
    let initial ← orRaise "OverflowError" (formatSatDatetime period.start)
    let final ← orRaise "OverflowError" (formatSatDatetime period.end)
    pure (("FechaInicial", initial) :: ("FechaFinal", final) :: offlineParties rt query)

/-- The attributes of an offline request. -/
def offlineAttrs (rt : Runtime) (query : DownloadQuery) (selection : List (String × String)) :
    List (String × String) :=
  ("RfcSolicitante", rt.upper query.requesterRfc) ::
    ("TipoSolicitud", requestTypeValue query.requestType) :: (selection ++
    (optionalAttr "EstadoComprobante" query.documentStatus ++
    (optionalAttr "TipoComprobante" query.documentType ++
    (optionalAttr "Complemento" query.complement ++
    optionalAttr "RfcACuentaTerceros" (DownloadQuery.upperOptional rt query.rfcOnBehalf)))))

/-- `_download_request_payload` -/
def downloadRequestPayload (rt : Runtime) (query : DownloadQuery) : Except CliFault SatSolicitud := do
  let selection ← offlineSelection rt query
  pure {
    attrs := offlineAttrs rt query selection
    receivers := query.receiverRfcs.map rt.upper }

/-- The issuer and the receiver of a live request. -/
def liveParties (rt : Runtime) (query : DownloadQuery) (operation : SatV15RequestOperation) :
    List (String × String) :=
  if operation = .issued then [("RfcEmisor", rt.upper query.requesterRfc)]
  else
    ("RfcReceptor", rt.upper query.requesterRfc) ::
      upperAttr rt "RfcEmisor" query.issuerRfc

/-- The attributes of a live request for a period. -/
def liveAttrs (rt : Runtime) (query : DownloadQuery) (operation : SatV15RequestOperation)
    (initial final : String) : List (String × String) :=
  ("FechaInicial", initial) :: ("FechaFinal", final) ::
    ("RfcSolicitante", rt.upper query.requesterRfc) :: ("TipoSolicitud", "Metadata") ::
    (liveParties rt query operation ++
    (optionalAttr "EstadoComprobante" query.documentStatus ++
    (optionalAttr "TipoComprobante" query.documentType ++
    optionalAttr "Complemento" query.complement)))

/-- `_request_attrs` -/
def requestAttrs (rt : Runtime) (zone : TimeZone) (query : DownloadQuery)
    (operation : SatV15RequestOperation) : Except CliFault (List (String × String)) :=
  if operation = .folio then
    if query.uuid.getD "" = "" then .error (v15GuardError "uuid-required-for-folio-request")
    else .ok [("Folio", query.uuid.getD ""), ("RfcSolicitante", rt.upper query.requesterRfc)]
  else
    match query.period with
    | none => .error (v15GuardError "date-range-required")
    | some period => do
        let initial ← orRaise "OverflowError" (satDt zone period.start)
        let final ← orRaise "OverflowError" (satDt zone period.end)
        pure (liveAttrs rt query operation initial final)

/-! ## What a request asks for -/

/-- What a request selects, with its period as instants to the second. -/
structure RequestedDocuments where
  requester : Option String
  requestType : Option String
  folio : Option String
  start : Option Instant
  «end» : Option Instant
  issuer : Option String
  receiver : Option String
  receivers : List String
  onBehalf : Option String
  status : Option String
  documentType : Option String
  complement : Option String

def SatSolicitud.documents (solicitud : SatSolicitud) : RequestedDocuments where
  requester := solicitud.attr "RfcSolicitante"
  requestType := solicitud.attr "TipoSolicitud"
  folio := solicitud.attr "Folio"
  start := (solicitud.attr "FechaInicial").bind DateTime.readUtc
  «end» := (solicitud.attr "FechaFinal").bind DateTime.readUtc
  issuer := solicitud.attr "RfcEmisor"
  receiver := solicitud.attr "RfcReceptor"
  receivers := solicitud.receivers
  onBehalf := solicitud.attr "RfcACuentaTerceros"
  status := solicitud.attr "EstadoComprobante"
  documentType := solicitud.attr "TipoComprobante"
  complement := solicitud.attr "Complemento"

/-- The request that the live adapter sends for its attributes. -/
def liveSolicitud (attrs : List (String × String)) : SatSolicitud := ⟨attrs, []⟩

/-- A filter that is set. -/
def given (value : Option String) : Option String :=
  if value.getD "" = "" then none else some (value.getD "")

section Lookups

variable {rt : Runtime} {key other : String} {value : Option String} {rest : List (String × String)}

theorem lookup_optionalAttr : (optionalAttr key value ++ rest).lookup key =
    (given value).or (rest.lookup key) := by
  unfold optionalAttr given
  split_ifs
  · rfl
  · exact List.lookup_cons_self

theorem lookup_optionalAttr_other (h : other ≠ key) :
    (optionalAttr key value ++ rest).lookup other = rest.lookup other := by
  unfold optionalAttr
  split_ifs
  · rfl
  · rw [List.singleton_append, List.lookup_cons, beq_false_of_ne h]

theorem lookup_last : (optionalAttr key value).lookup key = given value := by
  rw [← List.append_nil (optionalAttr key value), lookup_optionalAttr]
  exact Option.or_none

theorem lookup_last_other (h : other ≠ key) : (optionalAttr key value).lookup other = none := by
  rw [← List.append_nil (optionalAttr key value), lookup_optionalAttr_other h]
  rfl

theorem lookup_upperAttr : (upperAttr rt key value ++ rest).lookup key =
    (DownloadQuery.upperOptional rt value).or (rest.lookup key) := by
  unfold upperAttr
  cases DownloadQuery.upperOptional rt value with
  | none => rfl
  | some rfc => exact List.lookup_cons_self

theorem lookup_upperAttr_other (h : other ≠ key) :
    (upperAttr rt key value ++ rest).lookup other = rest.lookup other := by
  unfold upperAttr
  cases DownloadQuery.upperOptional rt value with
  | none => rfl
  | some rfc => rw [List.singleton_append, List.lookup_cons, beq_false_of_ne h]

end Lookups

theorem readUtc_isoSeconds (t : Instant) : DateTime.readUtc (isoSeconds t) = some t.wholeSecond :=
  DateTime.readUtc_naive t.wholeSecond

theorem readUtc_isoSeconds_zulu (t : Instant) :
    DateTime.readUtc (isoSeconds t ++ "Z") = some t.wholeSecond :=
  DateTime.readUtc_zulu t.wholeSecond

section Documents

variable {rt : Runtime} {zone : TimeZone} {query : DownloadQuery} {attrs : List (String × String)}
variable {operation : SatV15RequestOperation} {payload : SatSolicitud}

theorem requestAttrs_eq_ok (hop : operation ≠ .folio)
    (h : requestAttrs rt zone query operation = .ok attrs) :
    ∃ period start «end», query.period = some period ∧ astimezoneUtc zone period.start = some start ∧
      astimezoneUtc zone period.end = some «end» ∧
      attrs = liveAttrs rt query operation (isoSeconds start) (isoSeconds «end») := by
  rw [requestAttrs, if_neg hop] at h
  cases hperiod : query.period with
  | none =>
      rw [hperiod] at h
      cases h
  | some period =>
      rw [hperiod] at h
      obtain ⟨initial, hinitial, h⟩ := Checked.bind_eq_ok.mp h
      obtain ⟨final, hfinal, h⟩ := Checked.bind_eq_ok.mp h
      obtain ⟨start, hstart, rfl⟩ := Option.map_eq_some_iff.mp (orRaise_eq_ok.mp hinitial)
      obtain ⟨«end», hend, rfl⟩ := Option.map_eq_some_iff.mp (orRaise_eq_ok.mp hfinal)
      exact ⟨period, start, «end», rfl, hstart, hend, (Checked.pure_eq_ok.mp h).symm⟩

/-- What a live request for a period asks for. -/
theorem liveAttrs_documents {initial final : String} :
    (liveSolicitud (liveAttrs rt query operation initial final)).documents = {
      requester := some (rt.upper query.requesterRfc)
      requestType := some "Metadata"
      folio := none
      start := DateTime.readUtc initial
      «end» := DateTime.readUtc final
      issuer := if operation = .issued then some (rt.upper query.requesterRfc)
        else DownloadQuery.upperOptional rt query.issuerRfc
      receiver := if operation = .issued then none else some (rt.upper query.requesterRfc)
      receivers := []
      onBehalf := none
      status := given query.documentStatus
      documentType := given query.documentType
      complement := given query.complement } := by
  unfold liveAttrs liveParties
  split_ifs <;> simp [SatSolicitud.documents, SatSolicitud.attr, liveSolicitud, List.lookup_cons,
    lookup_optionalAttr, lookup_optionalAttr_other, lookup_upperAttr, lookup_upperAttr_other,
    lookup_last, lookup_last_other]

/-- An offline request for a period or for a UUID. -/
theorem downloadRequestPayload_eq_ok (h : downloadRequestPayload rt query = .ok payload) :
    payload.receivers = query.receiverRfcs.map rt.upper ∧
    ((query.direction = .folio ∧
        payload.attrs = offlineAttrs rt query [("Folio", rt.upper (query.uuid.getD "None"))]) ∨
      (query.direction ≠ .folio ∧ ∃ period initial final, query.period = some period ∧
        formatSatDatetime period.start = some initial ∧ formatSatDatetime period.end = some final ∧
        payload.attrs = offlineAttrs rt query
          (("FechaInicial", initial) :: ("FechaFinal", final) :: offlineParties rt query))) := by
  obtain ⟨selection, hselection, h⟩ := Checked.bind_eq_ok.mp h
  cases Checked.pure_eq_ok.mp h
  refine ⟨rfl, ?_⟩
  unfold offlineSelection at hselection
  split_ifs at hselection with hfolio
  · cases hselection
    exact .inl ⟨hfolio, rfl⟩
  · obtain ⟨period, hperiod, hselection⟩ := Checked.bind_eq_ok.mp hselection
    obtain ⟨initial, hinitial, hselection⟩ := Checked.bind_eq_ok.mp hselection
    obtain ⟨final, hfinal, hselection⟩ := Checked.bind_eq_ok.mp hselection
    cases Checked.pure_eq_ok.mp hselection
    exact .inr ⟨hfolio, period, initial, final, orRaise_eq_ok.mp hperiod, orRaise_eq_ok.mp hinitial,
      orRaise_eq_ok.mp hfinal, rfl⟩

theorem offlineSelection_period {period : DateTimePeriod} (hdirection : query.direction ≠ .folio)
    (hperiod : query.period = some period) : offlineSelection rt query = (do
      let initial ← orRaise "OverflowError" (formatSatDatetime period.start)
      let final ← orRaise "OverflowError" (formatSatDatetime period.end)
      pure (("FechaInicial", initial) :: ("FechaFinal", final) :: offlineParties rt query)) := by
  rw [offlineSelection, if_neg hdirection, hperiod]
  rfl

/-- What an offline request for a UUID asks for. -/
theorem offlineFolio_documents {folio : String}
    (h : payload.attrs = offlineAttrs rt query [("Folio", folio)]) : payload.documents = {
      requester := some (rt.upper query.requesterRfc)
      requestType := some (requestTypeValue query.requestType)
      folio := some folio
      start := none
      «end» := none
      issuer := none
      receiver := none
      receivers := payload.receivers
      onBehalf := given (DownloadQuery.upperOptional rt query.rfcOnBehalf)
      status := given query.documentStatus
      documentType := given query.documentType
      complement := given query.complement } := by
  unfold offlineAttrs at h
  simp [SatSolicitud.documents, SatSolicitud.attr, h, List.lookup_cons, lookup_optionalAttr,
    lookup_optionalAttr_other, lookup_last, lookup_last_other]

/-- What an offline request for a period asks for. -/
theorem offlinePeriod_documents {initial final : String} (hdirection : query.direction ≠ .folio)
    (h : payload.attrs = offlineAttrs rt query
      (("FechaInicial", initial) :: ("FechaFinal", final) :: offlineParties rt query)) :
    payload.documents = {
      requester := some (rt.upper query.requesterRfc)
      requestType := some (requestTypeValue query.requestType)
      folio := none
      start := DateTime.readUtc initial
      «end» := DateTime.readUtc final
      issuer := if query.direction = .issued then
          some (rt.upper (if query.issuerRfc.getD "" = "" then query.requesterRfc
            else query.issuerRfc.getD ""))
        else DownloadQuery.upperOptional rt query.issuerRfc
      receiver := if query.direction = .issued then none else some (rt.upper query.requesterRfc)
      receivers := payload.receivers
      onBehalf := given (DownloadQuery.upperOptional rt query.rfcOnBehalf)
      status := given query.documentStatus
      documentType := given query.documentType
      complement := given query.complement } := by
  unfold offlineAttrs offlineParties at h
  cases hcase : query.direction with
  | folio => exact absurd hcase hdirection
  | issued | received =>
      rw [hcase] at h
      simp [SatSolicitud.documents, SatSolicitud.attr, h, List.lookup_cons, lookup_optionalAttr,
       lookup_optionalAttr_other, lookup_upperAttr, lookup_upperAttr_other,
      lookup_last, lookup_last_other]

end Documents

/-! ## Agreement of the builders -/

/-- Every filter of a query that its criteria hash covers is asked for. -/
structure CarriesFilters (rt : Runtime) (query : DownloadQuery) (documents : RequestedDocuments) : Prop where
  issuer : ∀ rfc, DownloadQuery.upperOptional rt query.issuerRfc = some rfc → documents.issuer = some rfc
  receivers : ∀ rfc ∈ query.receiverRfcs, rt.upper rfc ∈ documents.receivers
  onBehalf : ∀ rfc, DownloadQuery.upperOptional rt query.rfcOnBehalf = some rfc →
    documents.onBehalf = some rfc
  status : ∀ value, given query.documentStatus = some value → documents.status = some value
  documentType : ∀ value, given query.documentType = some value → documents.documentType = some value
  complement : ∀ value, given query.complement = some value → documents.complement = some value

/-- The two readings of a period are both naive or both have an offset. -/
theorem offsets_alike (period : DateTimePeriod) :
    period.start.offset = none ↔ period.end.offset = none := by
  have hordered := period.ordered
  unfold DateTime.orderedAfter? at hordered
  cases hstart : period.start.offset with
  | none =>
      cases hend : period.end.offset with
      | none => exact Iff.rfl
      | some o =>
          rw [hstart, hend] at hordered
          cases hordered
  | some o =>
      cases hend : period.end.offset with
      | none =>
          rw [hstart, hend] at hordered
          cases hordered
      | some p => exact iff_of_false (fun h => (nomatch h)) fun h => (nomatch h)

theorem astimezoneUtc_aware {zone : TimeZone} {t : DateTime} (h : t.offset ≠ none) :
    astimezoneUtc zone t = t.toInstant? := by
  obtain ⟨o, ho⟩ := Option.ne_none_iff_exists'.mp h
  rw [astimezoneUtc, DateTime.toInstant?, ho]
  rfl

theorem formatSatDatetime_aware {t : DateTime} (h : t.offset ≠ none) :
    formatSatDatetime t = t.toInstant?.map fun instant => isoSeconds instant ++ "Z" := by
  obtain ⟨o, ho⟩ := Option.ne_none_iff_exists'.mp h
  rw [formatSatDatetime, ho]

/-- The operation of a query without a UUID follows its direction. -/
theorem resolve_issued_iff {query : DownloadQuery} (huuid : query.uuid.getD "" = "")
    (hdirection : query.direction ≠ .folio) : resolveV15RequestOperation query ≠ .folio ∧
      (resolveV15RequestOperation query = .issued ↔ query.direction = .issued) := by
  rw [resolveV15RequestOperation, if_neg (not_not.mpr huuid)]
  cases hcase : query.direction with
  | folio => exact absurd hcase hdirection
  | issued | received => decide

theorem upperOptional_set (rt : Runtime) {value : Option String} (h : value.getD "" ≠ "") :
    DownloadQuery.upperOptional rt value = some (rt.upper (value.getD "")) := by
  cases value with
  | none => exact absurd rfl h
  | some s => exact if_neg h

theorem upperOptional_of_unset (rt : Runtime) {value : Option String} (h : value.getD "" = "") :
    DownloadQuery.upperOptional rt value = none := by
  cases value with
  | none => rfl
  | some s => exact if_pos h

section Agreement

variable {rt : Runtime} {zone : TimeZone} {query : DownloadQuery} {period : DateTimePeriod}
variable {attrs : List (String × String)} {payload : SatSolicitud} {operation : SatV15RequestOperation}

theorem requestAttrs_isOk (hop : operation ≠ .folio) (hperiod : query.period = some period)
    (haware : period.start.offset ≠ none) :
    (∃ attrs, requestAttrs rt zone query operation = .ok attrs) ↔
      period.start.toInstant?.isSome ∧ period.end.toInstant?.isSome := by
  have hend := (not_congr (offsets_alike period)).mp haware
  rw [requestAttrs, if_neg hop, hperiod]
  simp only [satDt, astimezoneUtc_aware haware, astimezoneUtc_aware hend]
  cases period.start.toInstant? with
  | none => exact iff_of_false (fun ⟨_, h⟩ => (nomatch h)) fun ⟨h, _⟩ => (nomatch h)
  | some start =>
      cases period.end.toInstant? with
      | none => exact iff_of_false (fun ⟨_, h⟩ => (nomatch h)) fun ⟨_, h⟩ => (nomatch h)
      | some «end» => exact iff_of_true ⟨_, rfl⟩ ⟨rfl, rfl⟩

theorem downloadRequestPayload_isOk (hdirection : query.direction ≠ .folio)
    (hperiod : query.period = some period) (haware : period.start.offset ≠ none) :
    (∃ payload, downloadRequestPayload rt query = .ok payload) ↔
      period.start.toInstant?.isSome ∧ period.end.toInstant?.isSome := by
  have hend := (not_congr (offsets_alike period)).mp haware
  rw [downloadRequestPayload, offlineSelection, if_neg hdirection, hperiod]
  simp only [orRaise, Checked.ok_bind, formatSatDatetime_aware haware, formatSatDatetime_aware hend]
  cases period.start.toInstant? with
  | none => exact iff_of_false (fun ⟨_, h⟩ => (nomatch h)) fun ⟨h, _⟩ => (nomatch h)
  | some start =>
      cases period.end.toInstant? with
      | none => exact iff_of_false (fun ⟨_, h⟩ => (nomatch h)) fun ⟨_, h⟩ => (nomatch h)
      | some «end» => exact iff_of_true ⟨_, rfl⟩ ⟨rfl, rfl⟩

/-- A request with the issuer of the live path, and without receivers and on nobody's behalf, carries
the filters of the query exactly if it has no other. -/
theorem carriesFilters_iff {documents : RequestedDocuments}
    (hissuer : documents.issuer = if query.direction = .issued then some (rt.upper query.requesterRfc)
      else DownloadQuery.upperOptional rt query.issuerRfc)
    (hreceivers : documents.receivers = []) (hbehalf : documents.onBehalf = none)
    (hstatus : documents.status = given query.documentStatus)
    (htype : documents.documentType = given query.documentType)
    (hcomplement : documents.complement = given query.complement) :
    CarriesFilters rt query documents ↔ query.receiverRfcs = [] ∧ query.rfcOnBehalf.getD "" = "" ∧
      (query.direction = .issued → query.issuerRfc.getD "" ≠ "" →
        rt.upper (query.issuerRfc.getD "") = rt.upper query.requesterRfc) := by
  constructor
  · intro hcarries
    refine ⟨?_, ?_, fun hdirected hset => ?_⟩
    · refine List.eq_nil_iff_forall_not_mem.mpr fun rfc hrfc => ?_
      have hlisted := hcarries.receivers rfc hrfc
      rw [hreceivers] at hlisted
      exact List.not_mem_nil hlisted
    · by_contra hset
      have hgiven := hcarries.onBehalf _ (upperOptional_set rt hset)
      rw [hbehalf] at hgiven
      cases hgiven
    · have hnamed := hcarries.issuer _ (upperOptional_set rt hset)
      rw [hissuer, if_pos hdirected] at hnamed
      exact (Option.some.inj hnamed).symm
  · rintro ⟨hnone, hunset, hsame⟩
    exact {
      issuer := fun rfc hrfc => by
        rw [hissuer]
        by_cases hdirected : query.direction = .issued
        · have hset : query.issuerRfc.getD "" ≠ "" := by
            intro hempty
            rw [upperOptional_of_unset rt hempty] at hrfc
            cases hrfc
          rw [upperOptional_set rt hset, hsame hdirected hset] at hrfc
          exact (if_pos hdirected).trans hrfc
        · exact (if_neg hdirected).trans hrfc
      receivers := fun rfc hrfc => by
        rw [hnone] at hrfc
        cases hrfc
      onBehalf := fun rfc hrfc => by
        rw [upperOptional_of_unset rt hunset] at hrfc
        cases hrfc
      status := fun _ hvalue => hstatus.trans hvalue
      documentType := fun _ hvalue => htype.trans hvalue
      complement := fun _ hvalue => hcomplement.trans hvalue }

/-- Both builders give a request for the same queries with a period in the calendar, and
the two requests ask for the same, with every filter of the query, exactly if the query
lists no receivers, is on nobody's behalf and, for issued documents, names no other issuer
than the requester. -/
theorem builders_agree_iff (hvalid : query.validate = []) (hmetadata : query.requestType = .metadata)
    (hdirection : query.direction ≠ .folio) (huuid : query.uuid.getD "" = "")
    (haware : ∀ period, query.period = some period → period.start.offset ≠ none) :
    ((∃ attrs, requestAttrs rt zone query (resolveV15RequestOperation query) = .ok attrs) ↔
      ∃ payload, downloadRequestPayload rt query = .ok payload) ∧
    ∀ attrs payload, requestAttrs rt zone query (resolveV15RequestOperation query) = .ok attrs →
      downloadRequestPayload rt query = .ok payload →
      ((liveSolicitud attrs).documents = payload.documents ∧
          CarriesFilters rt query (liveSolicitud attrs).documents ↔
        query.receiverRfcs = [] ∧ query.rfcOnBehalf.getD "" = "" ∧
          (query.direction = .issued → query.issuerRfc.getD "" ≠ "" →
            rt.upper (query.issuerRfc.getD "") = rt.upper query.requesterRfc)) := by
  obtain ⟨hop, hissued⟩ := resolve_issued_iff huuid hdirection
  obtain ⟨period, hperiod⟩ : ∃ period, query.period = some period := by
    refine Option.ne_none_iff_exists'.mp fun hnone => ?_
    simp [DownloadQuery.validate, hdirection, hnone] at hvalid
  have hstart := haware period hperiod
  have hend := (not_congr (offsets_alike period)).mp hstart
  refine ⟨(requestAttrs_isOk hop hperiod hstart).trans
    (downloadRequestPayload_isOk hdirection hperiod hstart).symm, ?_⟩
  intro attrs payload hlive hoffline
  obtain ⟨period', start, «end», hperiod', hs, he, rfl⟩ := requestAttrs_eq_ok hop hlive
  cases hperiod.symm.trans hperiod'
  obtain ⟨hreceivers, hfolio | ⟨-, period', initial, final, hperiod', hinitial, hfinal, hattrs⟩⟩ :=
    downloadRequestPayload_eq_ok hoffline
  · exact absurd hfolio.1 hdirection
  cases hperiod.symm.trans hperiod'
  rw [astimezoneUtc_aware hstart] at hs
  rw [astimezoneUtc_aware hend] at he
  rw [formatSatDatetime_aware hstart, hs, Option.map_some, Option.some.injEq] at hinitial
  rw [formatSatDatetime_aware hend, he, Option.map_some, Option.some.injEq] at hfinal
  rw [offlinePeriod_documents hdirection hattrs, liveAttrs_documents, ← hinitial, ← hfinal,
    readUtc_isoSeconds, readUtc_isoSeconds, readUtc_isoSeconds_zulu,
    readUtc_isoSeconds_zulu, hmetadata, hreceivers]
  simp only [hissued]
  rw [carriesFilters_iff rfl rfl rfl rfl rfl rfl]
  refine and_iff_right_of_imp ?_
  rintro ⟨hnone, hbehalf, hissuer⟩
  -- the issuer of the offline path is the requester as well
  have hparties : query.direction = .issued →
      rt.upper (if query.issuerRfc.getD "" = "" then query.requesterRfc
        else query.issuerRfc.getD "") = rt.upper query.requesterRfc := by
    intro hdirected
    split_ifs with hset
    · rfl
    · exact hissuer hdirected hset
  rw [hnone, upperOptional_of_unset rt hbehalf]
  by_cases hdirected : query.direction = .issued
  · simp only [if_pos hdirected, hparties hdirected]
    rfl
  · simp only [if_neg hdirected]
    rfl

end Agreement

/-! ## A query whose receivers are dropped -/

section Sample

/-- Character tables with the ASCII letters only. -/
def asciiTables : Runtime where
  sha256Text _ := 0
  sha256Bytes _ := 0
  upper s := String.ofList (s.toList.map Char.toUpper)
  lower := Text.lower
  alnum c := c.isAlphanum

/-- A machine at UTC. -/
def zoneUtc : TimeZone := fun _ => UtcOffset.zero

def january : DateTimePeriod where
  start := .utc 63839664000000000
  «end» := .utc 63842342399000000
  ordered := by decide

/-- The metadata received in January 2024 by one receiver. -/
def receiverQuery : DownloadQuery where
  tenantId := "tenant-a"
  requesterRfc := "AAA010101AAA"
  direction := .received
  requestType := .metadata
  period := some january
  receiverRfcs := ["CCC010101CCC"]

theorem receiverQuery_aware : ∀ period, receiverQuery.period = some period → period.start.offset ≠ none := by
  intro period hperiod
  cases hperiod
  decide

theorem receiverQuery_built : ∃ attrs payload,
    requestAttrs asciiTables zoneUtc receiverQuery (resolveV15RequestOperation receiverQuery) = .ok attrs ∧
    downloadRequestPayload asciiTables receiverQuery = .ok payload := by
  have hdirection : receiverQuery.direction ≠ .folio := by decide
  have haware : january.start.offset ≠ none := by decide
  have hdated : january.start.toInstant?.isSome ∧ january.end.toInstant?.isSome := by decide
  have hop : resolveV15RequestOperation receiverQuery ≠ .folio := by decide
  have hperiod : receiverQuery.period = some january := rfl
  obtain ⟨attrs, hlive⟩ := (requestAttrs_isOk hop hperiod haware).mpr hdated
  obtain ⟨payload, hoffline⟩ := (downloadRequestPayload_isOk hdirection hperiod haware).mpr hdated
  exact ⟨attrs, payload, hlive, hoffline⟩

theorem builders_agree_iff_sample : ∃ attrs, ∃ payload : SatSolicitud,
    ((liveSolicitud attrs).documents = payload.documents ∧
        CarriesFilters asciiTables receiverQuery (liveSolicitud attrs).documents) ↔
      receiverQuery.receiverRfcs = [] ∧ receiverQuery.rfcOnBehalf.getD "" = "" ∧
        (receiverQuery.direction = .issued → receiverQuery.issuerRfc.getD "" ≠ "" →
          asciiTables.upper (receiverQuery.issuerRfc.getD "") =
            asciiTables.upper receiverQuery.requesterRfc) := by
  obtain ⟨attrs, payload, hlive, hoffline⟩ := receiverQuery_built
  exact ⟨attrs, payload, (builders_agree_iff rfl rfl (by decide) rfl receiverQuery_aware).2 attrs payload
    hlive hoffline⟩

/-- The live request for the documents of one receiver asks for those of all. -/
theorem receivers_dropped : ¬ ∀ rt zone query attrs payload, query.validate = [] →
    query.requestType = .metadata → query.direction ≠ .folio → query.uuid.getD "" = "" →
    (∀ period, query.period = some period → period.start.offset ≠ none) →
    requestAttrs rt zone query (resolveV15RequestOperation query) = .ok attrs →
    downloadRequestPayload rt query = .ok payload →
    (liveSolicitud attrs).documents = payload.documents ∧
      CarriesFilters rt query (liveSolicitud attrs).documents := by
  intro h
  obtain ⟨attrs, payload, hlive, hoffline⟩ := receiverQuery_built
  obtain ⟨hsame, -⟩ := h asciiTables zoneUtc receiverQuery attrs payload rfl rfl (by decide) rfl
    receiverQuery_aware hlive hoffline
  have hreceivers : [] = payload.receivers := congrArg RequestedDocuments.receivers hsame
  rw [(downloadRequestPayload_eq_ok hoffline).1] at hreceivers
  cases hreceivers

end Sample

end SatRequest

end CfdiVault
