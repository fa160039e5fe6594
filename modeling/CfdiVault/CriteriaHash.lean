import CfdiVault.Library.IsoFormat
import CfdiVault.Library.JsonText
import CfdiVault.SatRequestBuilders
import Mathlib.Data.String.Basic

/-!
# The criteria hash and the request

Two queries have the same canonical criteria exactly if their criteria are the same after
upper-casing and up to the order of the receivers (`criteriaPayload_eq_iff`): the canonical
text is a JSON object whose values can be read off it.

So queries with one hash give one request, up to the order of the receivers, and the
spelling of RFCs does not matter (`criteria_hash_faithful`).  The other way round the hash
distinguishes what the request does not: how the period is written, and what is not
transmitted or transmitted as absent (`same_request_same_hash_iff`).

Different texts are assumed to have different digests where two texts are compared.
-/

namespace CfdiVault

open LiveRequestState LiveCommands SatRequest

namespace CriteriaHash

/-! ## The canonical criteria -/

/-- The criteria of two queries that the canonical text shows to be the same. -/
structure SameCriteria (rt : Runtime) (q r : DownloadQuery) : Prop where
  tenant : q.tenantId = r.tenantId
  requester : rt.upper q.requesterRfc = rt.upper r.requesterRfc
  direction : q.direction = r.direction
  requestType : q.requestType = r.requestType
  period : q.period = r.period
  issuer : DownloadQuery.upperOptional rt q.issuerRfc = DownloadQuery.upperOptional rt r.issuerRfc
  receivers : (q.receiverRfcs.map rt.upper).Perm (r.receiverRfcs.map rt.upper)
  uuid : DownloadQuery.upperOptional rt q.uuid = DownloadQuery.upperOptional rt r.uuid
  status : q.documentStatus = r.documentStatus
  documentType : q.documentType = r.documentType
  complement : q.complement = r.complement
  onBehalf : DownloadQuery.upperOptional rt q.rfcOnBehalf = DownloadQuery.upperOptional rt r.rfcOnBehalf
  reason : q.recoveryVariantReason = r.recoveryVariantReason

theorem direction_value_injective {a b : DownloadDirection} (h : a.value = b.value) : a = b := by
  cases a <;> cases b <;> first | rfl | exact absurd h (by decide)

theorem requestType_value_injective {a b : RequestType} (h : a.value = b.value) : a = b := by
  cases a <;> cases b <;> first | rfl | exact absurd h (by decide)

/-! ### Periods -/

/-- The members of two printed periods. -/
def periodPairs (p q : DateTimePeriod) : List (String × String × String) :=
  [("start", Json.writeStr p.start.isoformat, Json.writeStr q.start.isoformat),
    ("end", Json.writeStr p.end.isoformat, Json.writeStr q.end.isoformat)]

theorem periodPairs_separated {p q : DateTimePeriod} :
    ∀ t ∈ periodPairs p q, Json.Separated t.2.1 t.2.2 := by
  intro t ht
  rcases List.mem_cons.mp ht with rfl | ht
  · exact Json.separated_writeStr _ _
  · rw [List.mem_singleton.mp ht]
    exact Json.separated_writeStr _ _

theorem asDict_left (p q : DateTimePeriod) :
    p.asDict = Json.writeObj ((periodPairs p q).map fun t => (t.1, t.2.1)) := rfl

theorem asDict_right (p q : DateTimePeriod) :
    q.asDict = Json.writeObj ((periodPairs p q).map fun t => (t.1, t.2.2)) := rfl

theorem asDict_separated (p q : DateTimePeriod) : Json.Separated p.asDict q.asDict := by
  rw [asDict_left p q, asDict_right p q]
  exact Json.separated_writeObj periodPairs_separated

theorem asDict_injective {p q : DateTimePeriod} (h : p.asDict = q.asDict) : p = q := by
  rw [asDict_left p q, asDict_right p q] at h
  have hall := Json.writeObj_injective periodPairs_separated h
  have hstart := hall _ List.mem_cons_self
  have hend := hall _ (List.mem_cons_of_mem _ (List.mem_singleton.mpr rfl))
  obtain ⟨start, «end», hp⟩ := p
  obtain ⟨start', end', hq⟩ := q
  cases DateTime.isoformat_injective (Json.writeStr_injective hstart)
  cases DateTime.isoformat_injective (Json.writeStr_injective hend)
  rfl

/-- `null` is not the beginning of an object. -/
theorem null_asDict_apart (p : DateTimePeriod) (x y : String) : "null" ++ x ≠ p.asDict ++ y := by
  intro h
  have hlist := congrArg String.toList h
  rw [DateTimePeriod.asDict, Json.writeObj, String.toList_append, String.toList_append,
    String.toList_append, String.toList_append] at hlist
  exact absurd (List.cons.inj hlist).1 (by decide)

def periodText (period : Option DateTimePeriod) : String := (period.map DateTimePeriod.asDict).getD "null"

theorem periodText_separated (a b : Option DateTimePeriod) :
    Json.Separated (periodText a) (periodText b) := by
  cases a with
  | none =>
      cases b with
      | none => exact Json.separated_refl _
      | some b => exact .inr (null_asDict_apart b)
  | some a =>
      cases b with
      | none => exact Json.Separated.symm (.inr (null_asDict_apart a))
      | some b => exact asDict_separated a b

theorem periodText_injective {a b : Option DateTimePeriod} (h : periodText a = periodText b) : a = b := by
  cases a with
  | none =>
      cases b with
      | none => rfl
      | some b => exact absurd (congrArg (· ++ "") h) (null_asDict_apart b "" "")
  | some a =>
      cases b with
      | none => exact absurd (congrArg (· ++ "") h.symm) (null_asDict_apart a "" "")
      | some b => exact congrArg some (asDict_injective h)

/-! ### Criteria -/

/-- The receivers as they are hashed. -/
def sortedReceivers (rt : Runtime) (q : DownloadQuery) : List String :=
  (q.receiverRfcs.map rt.upper).insertionSort fun a b => a ≤ b

theorem sortedReceivers_eq_iff {rt : Runtime} {q r : DownloadQuery} :
    sortedReceivers rt q = sortedReceivers rt r ↔
      (q.receiverRfcs.map rt.upper).Perm (r.receiverRfcs.map rt.upper) := by
  constructor
  · intro h
    have hperm := (List.perm_insertionSort (fun a b : String => a ≤ b) (q.receiverRfcs.map rt.upper)).symm
    rw [show (q.receiverRfcs.map rt.upper).insertionSort (fun a b => a ≤ b) = sortedReceivers rt r from h]
      at hperm
    exact hperm.trans (List.perm_insertionSort _ _)
  · intro h
    refine List.Perm.eq_of_pairwise' (r := fun a b : String => a ≤ b) (List.pairwise_insertionSort _ _)
      (List.pairwise_insertionSort _ _) ?_
    exact ((List.perm_insertionSort _ _).trans h).trans (List.perm_insertionSort _ _).symm

/-- The members of the canonical criteria of two queries. -/
def criteriaPairs (rt : Runtime) (q r : DownloadQuery) : List (String × String × String) :=
  let upper := fun value => Json.writeOptional (DownloadQuery.upperOptional rt value)
  let receivers := fun q => Json.writeArr ((sortedReceivers rt q).map Json.writeStr)
  [("tenant_id", Json.writeStr q.tenantId, Json.writeStr r.tenantId),
    ("requester_rfc", Json.writeStr (rt.upper q.requesterRfc), Json.writeStr (rt.upper r.requesterRfc)),
    ("direction", Json.writeStr q.direction.value, Json.writeStr r.direction.value),
    ("request_type", Json.writeStr q.requestType.value, Json.writeStr r.requestType.value),
    ("period", periodText q.period, periodText r.period),
    ("issuer_rfc", upper q.issuerRfc, upper r.issuerRfc),
    ("receiver_rfcs", receivers q, receivers r),
    ("uuid", upper q.uuid, upper r.uuid),
    ("document_status", Json.writeOptional q.documentStatus, Json.writeOptional r.documentStatus),
    ("document_type", Json.writeOptional q.documentType, Json.writeOptional r.documentType),
    ("complement", Json.writeOptional q.complement, Json.writeOptional r.complement),
    ("rfc_on_behalf", upper q.rfcOnBehalf, upper r.rfcOnBehalf),
    ("recovery_variant_reason", Json.writeOptional q.recoveryVariantReason,
      Json.writeOptional r.recoveryVariantReason)]

theorem criteriaPairs_separated {rt : Runtime} {q r : DownloadQuery} :
    ∀ t ∈ criteriaPairs rt q r, Json.Separated t.2.1 t.2.2 := by
  intro t ht
  simp only [criteriaPairs, List.mem_cons, List.not_mem_nil, or_false] at ht
  rcases ht with rfl | rfl | rfl | rfl | rfl | rfl | rfl | rfl | rfl | rfl | rfl | rfl | rfl
  case inr.inr.inr.inr.inl => exact periodText_separated _ _
  case inr.inr.inr.inr.inr.inr.inl => exact Json.separated_writeStrs _ _
  all_goals first | exact Json.separated_writeStr _ _ | exact Json.separated_writeOptional _ _

theorem forall_criteriaPairs_iff {rt : Runtime} {q r : DownloadQuery} :
    (∀ t ∈ criteriaPairs rt q r, t.2.1 = t.2.2) ↔ SameCriteria rt q r := by
  simp only [criteriaPairs, List.forall_mem_cons, List.not_mem_nil, false_implies, implies_true, and_true]
  constructor
  · rintro ⟨tenant, requester, direction, requestType, period, issuer, receivers, uuid, status,
      documentType, complement, onBehalf, reason⟩
    exact {
      tenant := Json.writeStr_injective tenant
      requester := Json.writeStr_injective requester
      direction := direction_value_injective (Json.writeStr_injective direction)
      requestType := requestType_value_injective (Json.writeStr_injective requestType)
      period := periodText_injective period
      issuer := Json.writeOptional_injective issuer
      receivers := sortedReceivers_eq_iff.mp (Json.writeStrs_injective receivers)
      uuid := Json.writeOptional_injective uuid
      status := Json.writeOptional_injective status
      documentType := Json.writeOptional_injective documentType
      complement := Json.writeOptional_injective complement
      onBehalf := Json.writeOptional_injective onBehalf
      reason := Json.writeOptional_injective reason }
  · intro h
    rw [h.tenant, h.requester, h.direction, h.requestType, h.period, h.issuer,
      sortedReceivers_eq_iff.mpr h.receivers, h.uuid, h.status, h.documentType, h.complement, h.onBehalf,
      h.reason]
    exact ⟨rfl, rfl, rfl, rfl, rfl, rfl, rfl, rfl, rfl, rfl, rfl, rfl, rfl⟩

/-- The canonical criteria of two queries are one text exactly if their criteria are the
same. -/
theorem criteriaPayload_eq_iff {rt : Runtime} {q r : DownloadQuery} :
    q.criteriaPayload rt = r.criteriaPayload rt ↔ SameCriteria rt q r := by
  have hq : q.criteriaPayload rt = Json.writeObj ((criteriaPairs rt q r).map fun t => (t.1, t.2.1)) := rfl
  have hr : r.criteriaPayload rt = Json.writeObj ((criteriaPairs rt q r).map fun t => (t.1, t.2.2)) := rfl
  rw [hq, hr, ← forall_criteriaPairs_iff]
  refine ⟨Json.writeObj_injective criteriaPairs_separated, fun hall => ?_⟩
  exact congrArg Json.writeObj (List.map_congr_left fun t ht => by rw [hall t ht])

/-- The criteria of two queries have no digest in common, unless they are one text. -/
def CollisionFree (rt : Runtime) (q r : DownloadQuery) : Prop :=
  rt.sha256Text (q.criteriaPayload rt) = rt.sha256Text (r.criteriaPayload rt) →
    q.criteriaPayload rt = r.criteriaPayload rt

theorem criteriaHash_eq_iff {rt : Runtime} {q r : DownloadQuery} (h : CollisionFree rt q r) :
    q.criteriaHash rt = r.criteriaHash rt ↔ SameCriteria rt q r := by
  rw [← criteriaPayload_eq_iff]
  refine ⟨fun heq => h (Digest.hex_injective heq), fun heq => ?_⟩
  rw [DownloadQuery.criteriaHash, heq, DownloadQuery.criteriaHash]

/-! ## One hash, one request -/

/-- Two requests that differ only in the order of their receivers, or one failure. -/
def SameRequest : Except CliFault SatSolicitud → Except CliFault SatSolicitud → Prop
  | .ok p, .ok p' => p.attrs = p'.attrs ∧ p.receivers.Perm p'.receivers
  | .error fault, .error fault' => fault = fault'
  | _, _ => False

section Requests

variable {rt : Runtime} {q r : DownloadQuery}

theorem upperOptional_eq_none_iff {value : Option String} :
    DownloadQuery.upperOptional rt value = none ↔ value.getD "" = "" := by
  by_cases h : value.getD "" = ""
  · exact iff_of_true (upperOptional_of_unset rt h) h
  · rw [upperOptional_set rt h]
    exact iff_of_false (fun h => (nomatch h)) h

/-- A text that is there is the same in capitals, if the optional texts are. -/
theorem upper_getD_eq {a b : Option String} (ha : a.getD "" ≠ "")
    (h : DownloadQuery.upperOptional rt a = DownloadQuery.upperOptional rt b) :
    b.getD "" ≠ "" ∧ rt.upper (a.getD "") = rt.upper (b.getD "") := by
  have hb : b.getD "" ≠ "" := by
    rw [ne_eq, ← @upperOptional_eq_none_iff rt _, ← h, upperOptional_eq_none_iff]
    exact ha
  rw [upperOptional_set rt ha, upperOptional_set rt hb] at h
  exact ⟨hb, Option.some.inj h⟩

theorem offlineParties_congr (h : SameCriteria rt q r) : offlineParties rt q = offlineParties rt r := by
  rw [offlineParties, offlineParties, h.direction, h.requester, upperAttr, upperAttr, h.issuer]
  cases r.direction with
  | folio | received => rfl
  | issued =>
      dsimp only
      by_cases hq : q.issuerRfc.getD "" = ""
      · have hr : r.issuerRfc.getD "" = "" := by
          rw [← @upperOptional_eq_none_iff rt _, ← h.issuer, upperOptional_eq_none_iff]
          exact hq
        rw [if_pos hq, if_pos hr, h.requester]
      · obtain ⟨hr, hupper⟩ := upper_getD_eq hq h.issuer
        rw [if_neg hq, if_neg hr, hupper]

/-- What a query with its UUID or its period selects is a matter of its criteria. -/
theorem offlineSelection_congr (hq : q.validate = []) (h : SameCriteria rt q r) :
    offlineSelection rt q = offlineSelection rt r := by
  rw [offlineSelection, offlineSelection, offlineParties_congr h, h.direction, h.period]
  by_cases hfolio : r.direction = .folio
  · have huuid : q.uuid.getD "" ≠ "" := by
      intro hnone
      simp [DownloadQuery.validate, h.direction, hfolio, hnone] at hq
    obtain ⟨hset, hupper⟩ := upper_getD_eq huuid h.uuid
    have hdefault : ∀ value : Option String, value.getD "" ≠ "" → value.getD "None" = value.getD "" := by
      intro value hvalue
      cases value with
      | none => exact absurd rfl hvalue
      | some s => rfl
    rw [if_pos hfolio, if_pos hfolio, hdefault _ huuid, hdefault _ hset, hupper]
  · rw [if_neg hfolio, if_neg hfolio]

theorem offlineAttrs_congr (h : SameCriteria rt q r) (selection : List (String × String)) :
    offlineAttrs rt q selection = offlineAttrs rt r selection := by
  rw [offlineAttrs, offlineAttrs, h.requester, h.requestType, h.status, h.documentType, h.complement,
    h.onBehalf]

/-- Valid queries with the same criteria give the same request. -/
theorem same_request (hq : q.validate = []) (h : SameCriteria rt q r) :
    SameRequest (downloadRequestPayload rt q) (downloadRequestPayload rt r) := by
  rw [downloadRequestPayload, downloadRequestPayload, offlineSelection_congr hq h]
  cases offlineSelection rt r with
  | error fault => exact rfl
  | ok selection => exact ⟨offlineAttrs_congr h selection, h.receivers⟩

end Requests

/-! ## The spelling of RFCs -/

/-- Upper-casing works on each character by itself, leaves something of each, and takes an
ASCII letter to its capital. -/
structure UpperTable (rt : Runtime) (table : Char → List Char) : Prop where
  upper : ∀ s, (rt.upper s).toList = s.toList.flatMap table
  nonempty : ∀ c, table c ≠ []
  ascii : ∀ c, c.toNat < 128 → table c = [c.toUpper]

/-- Two texts are the same but for the case of their ASCII letters. -/
def SameLetters (s t : String) : Prop := s.toList.map Char.toUpper = t.toList.map Char.toUpper

instance decidableSameLetters (s t : String) : Decidable (SameLetters s t) :=
  inferInstanceAs (Decidable (_ = _))

/-- One query is another with its receivers in another order, and with other cases of the
ASCII letters of its RFCs and of its UUID. -/
structure Respelled (q r : DownloadQuery) : Prop where
  rest : r = { q with
    requesterRfc := r.requesterRfc
    issuerRfc := r.issuerRfc
    receiverRfcs := r.receiverRfcs
    uuid := r.uuid
    rfcOnBehalf := r.rfcOnBehalf }
  requester : SameLetters q.requesterRfc r.requesterRfc
  issuer : Option.Rel SameLetters q.issuerRfc r.issuerRfc
  receivers : ∃ order, q.receiverRfcs.Perm order ∧ List.Forall₂ SameLetters order r.receiverRfcs
  uuid : Option.Rel SameLetters q.uuid r.uuid
  onBehalf : Option.Rel SameLetters q.rfcOnBehalf r.rfcOnBehalf

section Spelling

variable {rt : Runtime} {table : Char → List Char} {q r : DownloadQuery}

theorem toUpper_ascii {c : Char} (h : c.toNat < 128) : c.toUpper.toNat < 128 := by
  have hall : ∀ n < 128, (Char.ofNat n).toUpper.toNat < 128 := by decide
  have hc := hall c.toNat h
  rwa [Char.ofNat_toNat] at hc

theorem toUpper_other {c : Char} (h : ¬ c.toNat < 128) : c.toUpper = c := by
  unfold Char.toUpper
  rw [dif_neg]
  rintro ⟨-, hmost⟩
  have hmost : c.toNat ≤ 122 := hmost
  omega

theorem toUpper_toUpper (c : Char) : c.toUpper.toUpper = c.toUpper := by
  by_cases h : c.toNat < 128
  · have hall : ∀ n < 128, (Char.ofNat n).toUpper.toUpper = (Char.ofNat n).toUpper := by decide
    have hc := hall c.toNat h
    rwa [Char.ofNat_toNat] at hc
  · rw [toUpper_other h, toUpper_other h]

namespace UpperTable

/-- A letter and its capital have one upper case. -/
theorem toUpper (hupper : UpperTable rt table) (c : Char) : table c.toUpper = table c := by
  by_cases h : c.toNat < 128
  · rw [hupper.ascii c h, hupper.ascii _ (toUpper_ascii h), toUpper_toUpper]
  · rw [toUpper_other h]

theorem upper_eq (hupper : UpperTable rt table) {s t : String} (h : SameLetters s t) :
    rt.upper s = rt.upper t := by
  have hcapitals : ∀ l : List Char, l.flatMap table = (l.map Char.toUpper).flatMap table := by
    intro l
    rw [List.flatMap_map]
    exact List.flatMap_congr fun c _ => (hupper.toUpper c).symm
  apply String.toList_inj.mp
  rw [hupper.upper, hupper.upper, hcapitals, hcapitals t.toList, h]

theorem upper_ne_empty (hupper : UpperTable rt table) {s : String} (h : s ≠ "") : rt.upper s ≠ "" := by
  intro hempty
  have hlist := hupper.upper s
  rw [hempty] at hlist
  cases hs : s.toList with
  | nil => exact h (String.toList_inj.mp hs)
  | cons c rest =>
      rw [hs, List.flatMap_cons] at hlist
      exact hupper.nonempty c (List.append_eq_nil_iff.mp hlist.symm).1

end UpperTable

theorem SameLetters.eq_empty_iff {s t : String} (h : SameLetters s t) : s = "" ↔ t = "" := by
  have hlength := congrArg List.length h
  rw [List.length_map, List.length_map, String.length_toList, String.length_toList] at hlength
  rw [← String.length_eq_zero_iff, ← String.length_eq_zero_iff, hlength]

theorem upperOptional_sameLetters (hupper : UpperTable rt table) {a b : Option String}
    (h : Option.Rel SameLetters a b) :
    DownloadQuery.upperOptional rt a = DownloadQuery.upperOptional rt b := by
  cases h with
  | none => rfl
  | some h =>
      rw [DownloadQuery.upperOptional, DownloadQuery.upperOptional]
      exact if_congr h.eq_empty_iff rfl (congrArg some (hupper.upper_eq h))

theorem map_upper_eq (hupper : UpperTable rt table) {as bs : List String}
    (h : List.Forall₂ SameLetters as bs) : as.map rt.upper = bs.map rt.upper := by
  induction h with
  | nil => rfl
  | cons h _ ih => rw [List.map_cons, List.map_cons, hupper.upper_eq h, ih]

/-- The spelling of RFCs and the order of receivers leave the criteria the same. -/
theorem Respelled.sameCriteria (hupper : UpperTable rt table) (h : Respelled q r) :
    SameCriteria rt q r := by
  obtain ⟨order, hperm, hsame⟩ := h.receivers
  exact {
    tenant := (congrArg DownloadQuery.tenantId h.rest :).symm
    requester := hupper.upper_eq h.requester
    direction := (congrArg DownloadQuery.direction h.rest :).symm
    requestType := (congrArg DownloadQuery.requestType h.rest :).symm
    period := (congrArg DownloadQuery.period h.rest :).symm
    issuer := upperOptional_sameLetters hupper h.issuer
    receivers := map_upper_eq hupper hsame ▸ hperm.map rt.upper
    uuid := upperOptional_sameLetters hupper h.uuid
    status := (congrArg DownloadQuery.documentStatus h.rest :).symm
    documentType := (congrArg DownloadQuery.documentType h.rest :).symm
    complement := (congrArg DownloadQuery.complement h.rest :).symm
    onBehalf := upperOptional_sameLetters hupper h.onBehalf
    reason := (congrArg DownloadQuery.recoveryVariantReason h.rest :).symm }

/-- Valid queries with one hash are of one tenant and give one request, up to the order of
its receivers; and neither the order of the receivers nor the case of the ASCII letters of
RFCs and of the UUID changes the hash. -/
theorem criteria_hash_faithful (hupper : UpperTable rt table) :
    (∀ q r : DownloadQuery, q.validate = [] → r.validate = [] → CollisionFree rt q r →
      q.criteriaHash rt = r.criteriaHash rt → q.tenantId = r.tenantId ∧
        SameRequest (downloadRequestPayload rt q) (downloadRequestPayload rt r)) ∧
    ∀ q r : DownloadQuery, Respelled q r → q.criteriaHash rt = r.criteriaHash rt := by
  constructor
  · intro q r hq _ hcollision hhash
    have hsame := (criteriaHash_eq_iff hcollision).mp hhash
    exact ⟨hsame.tenant, same_request hq hsame⟩
  · intro q r hrespelled
    have htext := criteriaPayload_eq_iff.mpr (hrespelled.sameCriteria hupper)
    rw [DownloadQuery.criteriaHash, htext, DownloadQuery.criteriaHash]

end Spelling

/-! ## One request, one hash -/

/-- Two queries are written alike where their request says less than their criteria. -/
structure WrittenAlike (rt : Runtime) (q r : DownloadQuery) : Prop where
  period : q.period = r.period
  issuer : DownloadQuery.upperOptional rt q.issuerRfc = DownloadQuery.upperOptional rt r.issuerRfc
  uuid : DownloadQuery.upperOptional rt q.uuid = DownloadQuery.upperOptional rt r.uuid
  status : q.documentStatus = r.documentStatus
  documentType : q.documentType = r.documentType
  complement : q.complement = r.complement

section Duplicates

variable {rt : Runtime} {table : Char → List Char} {q r : DownloadQuery} {p p' : SatSolicitud}

theorem given_upperOptional (hupper : UpperTable rt table) (value : Option String) :
    given (DownloadQuery.upperOptional rt value) = DownloadQuery.upperOptional rt value := by
  by_cases h : value.getD "" = ""
  · rw [upperOptional_of_unset rt h]
    rfl
  · rw [upperOptional_set rt h]
    exact if_neg (hupper.upper_ne_empty h)

theorem requestTypeValue_injective {a b : RequestType} (h : requestTypeValue a = requestTypeValue b) :
    a = b := by
  cases a <;> cases b <;> first | rfl | exact absurd h (by decide)

/-- The parts of an offline request that any query gives it. -/
theorem payload_documents (h : downloadRequestPayload rt q = .ok p) :
    p.documents.requester = some (rt.upper q.requesterRfc) ∧
    p.documents.requestType = some (requestTypeValue q.requestType) ∧
    (p.documents.folio.isSome ↔ q.direction = .folio) ∧
    (p.documents.receiver.isSome ↔ q.direction = .received) ∧
    p.documents.receivers = q.receiverRfcs.map rt.upper ∧
    p.documents.onBehalf = given (DownloadQuery.upperOptional rt q.rfcOnBehalf) := by
  obtain ⟨hreceivers, ⟨hfolio, hattrs⟩ | ⟨hperiod, _, _, _, -, -, -, hattrs⟩⟩ :=
    downloadRequestPayload_eq_ok h
  · rw [offlineFolio_documents hattrs, hfolio]
    exact ⟨rfl, rfl, iff_of_true rfl rfl, iff_of_false Bool.false_ne_true (by decide), hreceivers, rfl⟩
  · rw [offlinePeriod_documents hperiod hattrs]
    refine ⟨rfl, rfl, iff_of_false Bool.false_ne_true hperiod, ?_, hreceivers, rfl⟩
    cases hcase : q.direction with
    | folio => exact absurd hcase hperiod
    | issued => exact iff_of_false Bool.false_ne_true (by decide)
    | received => exact iff_of_true rfl rfl

/-- Of two queries with one request, what the request says is the same. -/
theorem sameCriteria_iff_writtenAlike (hupper : UpperTable rt table) (htenant : q.tenantId = r.tenantId)
    (hreason : q.recoveryVariantReason = r.recoveryVariantReason)
    (hp : downloadRequestPayload rt q = .ok p) (hp' : downloadRequestPayload rt r = .ok p')
    (hsame : p.documents = p'.documents) : SameCriteria rt q r ↔ WrittenAlike rt q r := by
  obtain ⟨hrequester, htype, hfolio, hreceiver, hreceivers, hbehalf⟩ := payload_documents hp
  obtain ⟨hrequester', htype', hfolio', hreceiver', hreceivers', hbehalf'⟩ := payload_documents hp'
  rw [hsame] at hrequester htype hfolio hreceiver hreceivers hbehalf
  have hdirection : q.direction = r.direction := by
    have hfolios := hfolio.symm.trans hfolio'
    have hreceived := hreceiver.symm.trans hreceiver'
    cases hq : q.direction <;> cases hr : r.direction <;> simp_all
  refine ⟨fun h => ⟨h.period, h.issuer, h.uuid, h.status, h.documentType, h.complement⟩, fun h => ?_⟩
  exact {
    tenant := htenant
    requester := Option.some.inj (hrequester.symm.trans hrequester')
    direction := hdirection
    requestType := requestTypeValue_injective (Option.some.inj (htype.symm.trans htype'))
    period := h.period
    issuer := h.issuer
    receivers := hreceivers.symm.trans hreceivers' ▸ List.Perm.refl _
    uuid := h.uuid
    status := h.status
    documentType := h.documentType
    complement := h.complement
    onBehalf := by
      rw [← given_upperOptional hupper, ← given_upperOptional hupper r.rfcOnBehalf]
      exact hbehalf.symm.trans hbehalf'
    reason := hreason }

/-- Two queries of one tenant and one variant whose requests are equal have one hash
exactly if they are written alike: in the readings and the offsets of the period, in the
issuer and in the UUID where the request leaves them out, and in whether a filter is absent
or empty. -/
theorem same_request_same_hash_iff (hupper : UpperTable rt table) (hcollision : CollisionFree rt q r)
    (htenant : q.tenantId = r.tenantId) (hreason : q.recoveryVariantReason = r.recoveryVariantReason)
    (hp : downloadRequestPayload rt q = .ok p) (hp' : downloadRequestPayload rt r = .ok p')
    (hattrs : ∀ key, p.attr key = p'.attr key) (hreceivers : p.receivers = p'.receivers) :
    q.criteriaHash rt = r.criteriaHash rt ↔ WrittenAlike rt q r := by
  have hsame : p.documents = p'.documents := by
    simp only [SatSolicitud.documents, hattrs, hreceivers]
  rw [criteriaHash_eq_iff hcollision]
  exact sameCriteria_iff_writtenAlike hupper htenant hreason hp hp' hsame

end Duplicates

/-! ## Queries spelled and written in two ways -/

section Sample

/-- The metadata received in January 2024. -/
def utcQuery : DownloadQuery := { receiverQuery with receiverRfcs := [] }

/-- The same month, its start written an hour ahead of UTC. -/
def januaryAhead : DateTimePeriod where
  start := ⟨63839667600000000, some .hourAhead⟩
  «end» := january.end
  ordered := by decide

def offsetQuery : DownloadQuery := { utcQuery with period := some januaryAhead }

/-- The query for one receiver, in lower case. -/
def lowerCaseQuery : DownloadQuery := { receiverQuery with
  requesterRfc := "aaa010101aaa"
  receiverRfcs := ["ccc010101ccc"] }

/-- The SHA-256 digests of the criteria of the samples. -/
def utcDigest : Digest := 0x65f9f0e96f609ae714e852ed1039b7df3b64768dfbb7ff0f47363e426f953624

def offsetDigest : Digest := 0x29226e9494e4f7af2c14ba4eaaaeb00c749652d884da9cdaf42fce5584355642

def receiverDigest : Digest := 0x665c52d349aae8c5fef3f1f81e344e96b1aabbbee5d6d73daec4762ac31ca0a0

/-- A host whose digests are those of SHA-256 on the criteria that the samples hash. -/
def hashingTables : Runtime := { asciiTables with
  sha256Text := fun text =>
    if text = offsetQuery.criteriaPayload asciiTables then offsetDigest
    else if text = utcQuery.criteriaPayload asciiTables then utcDigest
    else receiverDigest }

theorem hashingTables_upper : UpperTable hashingTables fun c => [c.toUpper] where
  upper s := by
    change (String.ofList (s.toList.map Char.toUpper)).toList = _
    rw [String.toList_ofList, List.map_eq_flatMap]
  nonempty c := List.cons_ne_nil _ _
  ascii c _ := rfl

theorem lowerCaseQuery_respelled : Respelled receiverQuery lowerCaseQuery where
  rest := rfl
  requester := by decide
  issuer := .none
  receivers := ⟨["CCC010101CCC"], .refl _, .cons (by decide) .nil⟩
  uuid := .none
  onBehalf := .none

theorem criteria_hash_faithful_sample :
    receiverQuery.criteriaHash hashingTables = lowerCaseQuery.criteriaHash hashingTables :=
  (criteria_hash_faithful hashingTables_upper).2 _ _ lowerCaseQuery_respelled

theorem digests_differ : utcDigest ≠ offsetDigest := by decide +kernel

theorem criteriaPayload_hashingTables (q : DownloadQuery) :
    q.criteriaPayload hashingTables = q.criteriaPayload asciiTables := rfl

theorem sha256Text_hashingTables (text : String) : hashingTables.sha256Text text =
    if text = offsetQuery.criteriaPayload asciiTables then offsetDigest
    else if text = utcQuery.criteriaPayload asciiTables then utcDigest
    else receiverDigest := rfl

theorem offsets_collisionFree : CollisionFree hashingTables utcQuery offsetQuery := by
  unfold CollisionFree
  rw [criteriaPayload_hashingTables, criteriaPayload_hashingTables]
  intro hdigest
  by_contra htexts
  rw [sha256Text_hashingTables, sha256Text_hashingTables, if_neg htexts, if_pos rfl, if_pos rfl] at hdigest
  exact digests_differ hdigest

/-- Both queries give one request. -/
theorem offsets_one_request : ∃ p, downloadRequestPayload hashingTables utcQuery = .ok p ∧
    downloadRequestPayload hashingTables offsetQuery = .ok p := by
  have hstart : formatSatDatetime januaryAhead.start = formatSatDatetime january.start := by
    rw [formatSatDatetime_aware (by decide), formatSatDatetime_aware (by decide),
      show januaryAhead.start.toInstant? = january.start.toInstant? by decide]
  have hselection : offlineSelection hashingTables offsetQuery = offlineSelection hashingTables utcQuery := by
    rw [offlineSelection_period (by decide) (show offsetQuery.period = some januaryAhead from rfl),
      offlineSelection_period (by decide) (show utcQuery.period = some january from rfl), hstart]
    rfl
  have hsame : downloadRequestPayload hashingTables offsetQuery =
      downloadRequestPayload hashingTables utcQuery := by
    rw [downloadRequestPayload, hselection]
    rfl
  have hperiod : utcQuery.period = some january := rfl
  have hdirection : utcQuery.direction ≠ .folio := by decide
  have hbuilds : ∃ p, downloadRequestPayload hashingTables utcQuery = .ok p :=
    (downloadRequestPayload_isOk hdirection hperiod (by decide)).mpr (by decide)
  obtain ⟨p, hp⟩ := hbuilds
  exact ⟨p, hp, hsame.trans hp⟩

theorem same_request_same_hash_iff_sample :
    utcQuery.criteriaHash hashingTables = offsetQuery.criteriaHash hashingTables ↔
      WrittenAlike hashingTables utcQuery offsetQuery := by
  obtain ⟨p, hp, hp'⟩ := offsets_one_request
  exact same_request_same_hash_iff hashingTables_upper offsets_collisionFree rfl rfl hp hp' (fun _ => rfl) rfl

/-- Two queries whose requests are equal, with the same start written with two offsets, have
two hashes. -/
theorem duplicate_missed : ¬ ∀ rt (q r : DownloadQuery) p p', q.validate = [] → r.validate = [] →
    q.tenantId = r.tenantId → q.recoveryVariantReason = r.recoveryVariantReason →
    downloadRequestPayload rt q = .ok p → downloadRequestPayload rt r = .ok p' →
    (∀ key, p.attr key = p'.attr key) → p.receivers = p'.receivers →
    q.criteriaHash rt = r.criteriaHash rt := by
  intro h
  obtain ⟨p, hp, hp'⟩ := offsets_one_request
  have hhash := h hashingTables utcQuery offsetQuery p p rfl rfl rfl rfl hp hp' (fun _ => rfl) rfl
  have hsame := (criteriaHash_eq_iff offsets_collisionFree).mp hhash
  exact absurd hsame.period (by decide)

end Sample

end CriteriaHash

end CfdiVault
