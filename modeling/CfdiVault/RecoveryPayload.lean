import CfdiVault.RecoveryWorld

/-!
# Payloads of the recovery service

The pure conversions around a recovery call: the query as a queue payload and back,
the verification answer of the SAT client, the metadata index written for a request,
and the texts under which documents are searched.
-/

namespace CfdiVault

/-! ## Values of a JSON document -/

namespace Json

/-- `bool(value)`. -/
def truthy : Json → Bool
  | .null => false
  | .bool b => b
  | .int n => n ≠ 0
  | .float value => value ≠ some 0
  | .str s => s ≠ ""
  | .arr items => !items.isEmpty
  | .obj members => !members.isEmpty

/-- The items of `iter(value)`; `none` is the `TypeError`. -/
def iterate? : Json → Option (List Json)
  | .arr items => some items
  | .str s => some (s.toList.map fun c => .str (String.singleton c))
  | .obj members => some (members.map fun m => .str m.1)
  | _ => none

/-- `str(value)`, given the rendering of the values that are not plain. -/
def toText (other : Json → String) : Json → String
  | .null => "None"
  | .bool b => if b then "True" else "False"
  | .int n => toString n
  | .str s => s
  | value => other value

/-- A text or `null`. -/
def optional : Option String → Json
  | some s => .str s
  | none => .null

end Json

namespace Recovery

/-! ## The query as a payload -/

/-- `_query_payload`. -/
def queryPayload (rt : Runtime) (q : DownloadQuery) : List (String × Json) := [
  ("tenant_id", .str q.tenantId),
  ("requester_rfc", .str (rt.upper q.requesterRfc)),
  ("direction", .str q.direction.value),
  ("request_type", .str q.requestType.value),
  ("period", match q.period with
    | some p => .obj [("start", .str p.start.isoformat), ("end", .str p.end.isoformat)]
    | none => .null),
  ("issuer_rfc", Json.optional q.issuerRfc),
  ("receiver_rfcs", .arr (q.receiverRfcs.map .str)),
  ("uuid", Json.optional q.uuid),
  ("document_status", Json.optional q.documentStatus),
  ("document_type", Json.optional q.documentType),
  ("complement", Json.optional q.complement),
  ("rfc_on_behalf", Json.optional q.rfcOnBehalf),
  ("criteria_hash", .str (q.criteriaHash rt))]

section Reading

variable (text : Json → String) (payload : List (String × Json))

/-- `str(payload[key])`. -/
def requiredText (key : String) : Except Fault String :=
  match payload.lookup key with
  | some value => .ok (text value)
  | none => .error .payload

/-- `str(payload[key]) if payload.get(key) else None`. -/
def optionalText (key : String) : Option String :=
  match payload.lookup key with
  | some value => if value.truthy then some (text value) else none
  | none => none

/-- The member of an enumeration that is stored under a word. -/
def ofWord {α : Type} (value : α → String) (members : List α) (word : String) : Except Fault α :=
  match members.find? fun m => value m == word with
  | some m => .ok m
  | none => .error .payload

/-- The period of a payload: an object with two timestamps, anything else is none. -/
def periodOfPayload : Except Fault (Option DateTimePeriod) :=
  match Json.field payload "period" with
  | .obj members => do
      let start ← requiredText text members "start"
      let finish ← requiredText text members "end"
      match DateTime.fromisoformat start, DateTime.fromisoformat finish with
      | some s, some e =>
          if h : DateTime.orderedAfter? e s = some true then .ok (some ⟨s, e, h⟩)
          else .error .payload
      | _, _ => .error .payload
  | _ => .ok none

/-- The receivers of a payload. -/
def receiversOfPayload : Except Fault (List String) :=
  let value := Json.field payload "receiver_rfcs"
  if value.truthy then
    match value.iterate? with
    | some items => .ok (items.map text)
    | none => .error .payload
  else .ok []

/-- `_query_from_payload`. -/
def queryFromPayload : Except Fault DownloadQuery := do
  let period ← periodOfPayload text payload
  let tenantId ← requiredText text payload "tenant_id"
  let requesterRfc ← requiredText text payload "requester_rfc"
  let direction ← requiredText text payload "direction"
  let direction ← ofWord DownloadDirection.value [.issued, .received, .folio] direction
  let requestType ← requiredText text payload "request_type"
  let requestType ← ofWord RequestType.value [.metadata, .cfdi] requestType
  let receiverRfcs ← receiversOfPayload text payload
  pure {
    tenantId := tenantId
    requesterRfc := requesterRfc
    direction := direction
    requestType := requestType
    period := period
    issuerRfc := optionalText text payload "issuer_rfc"
    receiverRfcs := receiverRfcs
    uuid := optionalText text payload "uuid"
    documentStatus := optionalText text payload "document_status"
    documentType := optionalText text payload "document_type"
    complement := optionalText text payload "complement"
    rfcOnBehalf := optionalText text payload "rfc_on_behalf" }

end Reading

/-! ## The verification answer -/

/-- What a verification answer says, as the service reads it. -/
structure SatAnswer where
  requestId : String
  response : List (String × Json)
  state : String
  satCode : String
  message : String
  packages : List String
  metadata : List MetadataEntry

section Answer

variable (text : Json → String)

/-- `str(item[key])` of a metadata item. -/
def itemText (item : List (String × Json)) (key : String) : Except Fault String :=
  match item.lookup key with
  | some value => .ok (text value)
  | none => .error .answer

/-- A value that could not be converted. -/
def orAnswer {α : Type} : Option α → Except Fault α
  | some a => .ok a
  | none => .error .answer

/-- `_metadata_from_dict`. -/
def metadataFromDict (item : List (String × Json)) : Except Fault MetadataEntry := do
  let uuid ← itemText text item "uuid"
  let issuerRfc ← itemText text item "issuer_rfc"
  let issuerName ← itemText text item "issuer_name"
  let receiverRfc ← itemText text item "receiver_rfc"
  let receiverName ← itemText text item "receiver_name"
  let issueDate ← itemText text item "issue_date"
  let issueDate ← orAnswer (DateTime.fromisoformat issueDate)
  let total ← itemText text item "total"
  let total ← orAnswer (Decimal.ofText? total)
  let status ← itemText text item "status"
  let effect ← itemText text item "effect"
  let sourcePackageId ← itemText text item "source_package_id"
  pure ⟨uuid, issuerRfc, issuerName, receiverRfc, receiverName, issueDate, total, status, effect,
    sourcePackageId⟩

/-- `str(verify_result.get("state", SatRequestState.ERROR.value))`. -/
def answerState (response : List (String × Json)) : String :=
  match response.lookup "state" with
  | some value => text value
  | none => SatRequestState.error.value

/-- The items of `verify_result.get(key, ())`. -/
def answerItems (response : List (String × Json)) (key : String) : Except Fault (List Json) :=
  match response.lookup key with
  | some value => orAnswer value.iterate?
  | none => .ok []

/-- `str(verify_result.get(key) or "")`. -/
def answerText (response : List (String × Json)) (key : String) : String :=
  let value := Json.field response key
  if value.truthy then text value else ""

/-- The reading of a verification answer. -/
def readAnswer (requestId : String) (response : List (String × Json)) : Except Fault SatAnswer := do
  let packages ← answerItems response "packages"
  let items ← answerItems response "metadata"
  let metadata ← (items.filterMap Json.members?).mapM (metadataFromDict text)
  pure {
    requestId := requestId
    response := response
    state := answerState text response
    satCode := answerText text response "sat_code"
    message := answerText text response "message"
    packages := packages.map text
    metadata := metadata }

end Answer

/-! ## The metadata index -/

/-- One field as the CSV writer renders it: quoted when it holds a special character. -/
def csvField (s : String) : String :=
  if s.toList.any (fun c => c == ',' || c == '"' || c == '\r' || c == '\n') then
    "\"" ++ Text.replaceChar '"' "\"\"" s ++ "\""
  else s

def csvLine (fields : List String) : String :=
  String.intercalate "," (fields.map csvField) ++ "\r\n"

/-- `text.encode("utf-8")`. -/
def utf8 (s : String) : Bytes := s.toList.flatMap String.utf8EncodeChar

/-- Serialize SAT metadata rows as the local primary index for a request. -/
def metadataCsvBytes (requestId : String) (packages : List String) (metadata : List MetadataEntry) :
    Bytes :=
  let header := csvLine ["idSolicitud", "idPaquete", "uuid", "rfcEmisor", "rfcReceptor",
    "fechaEmision", "estadoComprobante", "tipoComprobante"]
  let rows := (metadata.insertionSort fun a b => a.uuid ≤ b.uuid).map fun entry =>
    csvLine [requestId,
      if entry.sourcePackageId = "" then packages.headD "" else entry.sourcePackageId,
      entry.uuid, entry.issuerRfc, entry.receiverRfc, entry.issueDate.isoformat, entry.status,
      entry.effect]
  utf8 (String.join (header :: rows))

/-- `_metadata_payload`. -/
def metadataPayload (entry : MetadataEntry) : Json := .obj [
  ("uuid", .str entry.uuid),
  ("issuer_rfc", .str entry.issuerRfc),
  ("issuer_name", .str entry.issuerName),
  ("receiver_rfc", .str entry.receiverRfc),
  ("receiver_name", .str entry.receiverName),
  ("issue_date", .str entry.issueDate.isoformat),
  ("total", .str entry.total.toText),
  ("status", .str entry.status),
  ("effect", .str entry.effect),
  ("source_package_id", .str entry.sourcePackageId)]

/-- `_search_text`. -/
def searchText (rt : Runtime) (entry : MetadataEntry) : String :=
  rt.lower (String.intercalate " " [entry.uuid, entry.issuerRfc, entry.issuerName,
    entry.receiverRfc, entry.receiverName, entry.status, entry.effect])

/-- `_parsed_search_text`. -/
def parsedSearchText (rt : Runtime) (parsed : ParsedCfdi) (concepts : List String) : String :=
  rt.lower (String.intercalate " " ([parsed.uuid, parsed.issuerRfc, parsed.issuerName,
    parsed.receiverRfc, parsed.receiverName, parsed.comprobanteType] ++ concepts))

/-- The payload of a document read from XML. -/
def xmlPayload (reading : CfdiReading) (packageId xmlSha256 : String) : Json := .obj [
  ("version", .str reading.version),
  ("complements", .arr (reading.complements.map .str)),
  ("concepts", .arr (reading.concepts.map .str)),
  ("source_package_id", .str packageId),
  ("xml_sha256", .str xmlSha256)]

/-- `_metadata_extension`. -/
def metadataExtension (content : Bytes) (delimiter : Option String) : String :=
  let firstLine := content.takeWhile fun b => b ≠ 10 ∧ b ≠ 13
  if delimiter = some "|" ∨ delimiter = some "\t" ∨ firstLine.contains 124 ∨ firstLine.contains 9
  then "txt" else "csv"

end Recovery

end CfdiVault
