import Mathlib.Data.List.Pairwise
import CfdiVault.RecoveryService

/-!
# What the search goes by

The search reads the columns of the documents and their `search_text`, and the parties are an
index of their own.  `Index` is this part of the database, with the statuses that the documents
have had.  A turn of the service is an entry of metadata or an XML: it makes a document, or it
changes the one that is there.

`_upsert_metadata` leaves `search_text` and the parties of a document as they are, and
`_store_xml_package` the parties.  `inSync_apply_iff` says when a turn leaves the index in sync with
the documents all the same.
-/

namespace CfdiVault

namespace Recovery

/-! ## Documents and turns -/

/-- What the search reads of a document, and the status of its parser. -/
structure IndexedDocument where
  tenantId : String
  uuid : String
  documentType : String
  status : String
  issuerRfc : String
  issuerName : String
  receiverRfc : String
  receiverName : String
  parserStatus : String
  searchText : String
  deriving DecidableEq

/-- The indexed part of a document. -/
def CfdiDocument.indexed (doc : CfdiDocument) : IndexedDocument where
  tenantId := doc.tenantId
  uuid := doc.uuid
  documentType := doc.documentType
  status := doc.status
  issuerRfc := doc.issuerRfc
  issuerName := doc.issuerName
  receiverRfc := doc.receiverRfc
  receiverName := doc.receiverName
  parserStatus := doc.parserStatus
  searchText := doc.searchText

namespace IndexedDocument

/-- The document of a tenant and a UUID. -/
def IsOf (tenantId uuid : String) (doc : IndexedDocument) : Prop :=
  doc.tenantId = tenantId ∧ doc.uuid = uuid

instance (tenantId uuid : String) (doc : IndexedDocument) : Decidable (doc.IsOf tenantId uuid) := by
  unfold IsOf
  infer_instance

/-- The party rows of a document. -/
def partyRows (doc : IndexedDocument) : List CfdiParty :=
  [⟨doc.tenantId, doc.issuerRfc, doc.issuerName, "issuer", doc.uuid⟩,
    ⟨doc.tenantId, doc.receiverRfc, doc.receiverName, "receiver", doc.uuid⟩]

/-- The values by which a document is to be found. -/
def values (doc : IndexedDocument) : List String :=
  [doc.uuid, doc.issuerRfc, doc.issuerName, doc.receiverRfc, doc.receiverName, doc.documentType]

end IndexedDocument

/-- An entry of metadata or an XML. -/
inductive IndexTurn where
  | metadata (tenantId : String) (entry : MetadataEntry)
  | xml (tenantId : String) (reading : CfdiReading)

namespace IndexTurn

variable (rt : Runtime)

def tenantId : IndexTurn → String
  | .metadata tenantId _ => tenantId
  | .xml tenantId _ => tenantId

/-- The UUID under which a turn looks for its document. -/
def uuid : IndexTurn → String
  | .metadata _ entry => entry.uuid
  | .xml _ reading => rt.upper reading.parsed.uuid

/-- The document that a turn makes. -/
def fresh : IndexTurn → IndexedDocument
  | .metadata tenantId entry => {
      tenantId := tenantId
      uuid := entry.uuid
      documentType := entry.effect
      status := entry.status
      issuerRfc := entry.issuerRfc
      issuerName := entry.issuerName
      receiverRfc := entry.receiverRfc
      receiverName := entry.receiverName
      parserStatus := "metadata_only"
      searchText := searchText rt entry }
  | .xml tenantId reading => {
      tenantId := tenantId
      uuid := rt.upper reading.parsed.uuid
      documentType := reading.parsed.comprobanteType
      status := "vigente"
      issuerRfc := reading.parsed.issuerRfc
      issuerName := reading.parsed.issuerName
      receiverRfc := reading.parsed.receiverRfc
      receiverName := reading.parsed.receiverName
      parserStatus := reading.parserStatus
      searchText := parsedSearchText rt reading.parsed reading.concepts }

/-- What a turn makes of a document that is there. -/
def refresh (doc : IndexedDocument) : IndexTurn → IndexedDocument
  | .metadata _ entry => { doc with
      status := entry.status
      documentType := entry.effect
      issuerRfc := entry.issuerRfc
      issuerName := entry.issuerName
      receiverRfc := entry.receiverRfc
      receiverName := entry.receiverName }
  | .xml _ reading => { doc with
      documentType := reading.parsed.comprobanteType
      issuerRfc := reading.parsed.issuerRfc
      issuerName := reading.parsed.issuerName
      receiverRfc := reading.parsed.receiverRfc
      receiverName := reading.parsed.receiverName
      parserStatus := reading.parserStatus
      searchText := parsedSearchText rt reading.parsed reading.concepts }

@[simp] theorem fresh_tenantId (turn : IndexTurn) : (turn.fresh rt).tenantId = turn.tenantId := by
  cases turn <;> rfl

@[simp] theorem fresh_uuid (turn : IndexTurn) : (turn.fresh rt).uuid = turn.uuid rt := by
  cases turn <;> rfl

@[simp] theorem refresh_tenantId (turn : IndexTurn) (doc : IndexedDocument) :
    (turn.refresh rt doc).tenantId = doc.tenantId := by
  cases turn <;> rfl

@[simp] theorem refresh_uuid (turn : IndexTurn) (doc : IndexedDocument) :
    (turn.refresh rt doc).uuid = doc.uuid := by
  cases turn <;> rfl

end IndexTurn

/-! ## The index -/

/-- A status that a document has had. -/
structure SeenStatus where
  tenantId : String
  uuid : String
  status : String
  deriving DecidableEq

/-- Documents, party rows, and the statuses that the documents have had. -/
structure Index where
  documents : List IndexedDocument := []
  parties : List CfdiParty := []
  statuses : List SeenStatus := []

namespace Index

variable (tenantId uuid : String) (ix : Index)

/-- The document of a key. -/
def find : Option IndexedDocument := ix.documents.find? fun doc => doc.IsOf tenantId uuid

/-- The party rows of a key. -/
def partiesOf : List CfdiParty :=
  ix.parties.filter fun party => party.tenantId = tenantId ∧ party.documentUuid = uuid

/-- The statuses that the document of a key has had. -/
def had : List String :=
  (ix.statuses.filter fun seen => seen.tenantId = tenantId ∧ seen.uuid = uuid).map (·.status)

end Index

/-- What a turn does to the index. -/
def IndexTurn.apply (rt : Runtime) (turn : IndexTurn) (ix : Index) : Index :=
  match ix.find turn.tenantId (turn.uuid rt) with
  | none => {
      documents := ix.documents ++ [turn.fresh rt]
      parties := ix.parties ++ (turn.fresh rt).partyRows
      statuses := ix.statuses ++ [⟨turn.tenantId, turn.uuid rt, (turn.fresh rt).status⟩] }
  | some doc => {
      documents := ix.documents.map fun row =>
        if row.IsOf turn.tenantId (turn.uuid rt) then turn.refresh rt row else row
      parties := ix.parties
      statuses := ix.statuses ++ [⟨turn.tenantId, turn.uuid rt, (turn.refresh rt doc).status⟩] }

/-- Turns, one after the other, each `Allowed` in the index that it meets. -/
inductive Index.Steps (rt : Runtime) (Allowed : IndexTurn → Index → Prop) : List IndexTurn → Index → Index → Prop
  | nil (ix : Index) : Steps rt Allowed [] ix ix
  | cons {turn : IndexTurn} {turns : List IndexTurn} {ix after : Index} (hallowed : Allowed turn ix)
      (hrest : Steps rt Allowed turns (turn.apply rt ix) after) : Steps rt Allowed (turn :: turns) ix after

/-! ## In sync -/

/-- The lower-cased value occurs in a text. -/
def Mentions (rt : Runtime) (value text : String) : Prop := (rt.lower value).toList <:+: text.toList

/-- The search text and the party rows of a document are those of its current values. -/
structure DocumentInSync (rt : Runtime) (had : List String) (parties : List CfdiParty)
    (doc : IndexedDocument) : Prop where
  values : ∀ value ∈ doc.values, Mentions rt value doc.searchText
  status : doc.parserStatus = "metadata_only" → Mentions rt doc.status doc.searchText
  former : ∀ status ∈ had, status ≠ doc.status → ¬ Mentions rt status doc.searchText
  parties : parties = doc.partyRows

/-- Every document is in sync. -/
def InSync (rt : Runtime) (ix : Index) : Prop :=
  ∀ doc ∈ ix.documents,
    DocumentInSync rt (ix.had doc.tenantId doc.uuid) (ix.partiesOf doc.tenantId doc.uuid) doc

/-- Case is changed word by word. -/
def LowersWords (rt : Runtime) : Prop :=
  ∀ words, rt.lower (String.intercalate " " words) = String.intercalate " " (words.map rt.lower)

/-- The issuer and the receiver of a document. -/
def SameParties (issuerRfc issuerName receiverRfc receiverName : String) (doc : IndexedDocument) : Prop :=
  doc.issuerRfc = issuerRfc ∧ doc.issuerName = issuerName ∧ doc.receiverRfc = receiverRfc ∧
    doc.receiverName = receiverName

/-- A turn that the index needs no refreshing for. -/
def Harmless (rt : Runtime) (turn : IndexTurn) (ix : Index) : Prop :=
  match turn with
  | .metadata tenantId entry => ∀ doc, ix.find tenantId entry.uuid = some doc →
      SameParties entry.issuerRfc entry.issuerName entry.receiverRfc entry.receiverName doc ∧
      Mentions rt entry.effect doc.searchText ∧
      (doc.parserStatus = "metadata_only" → entry.status = doc.status) ∧
      ∀ status ∈ ix.had tenantId entry.uuid, status ≠ entry.status → ¬ Mentions rt status doc.searchText
  | .xml tenantId reading =>
      let text := parsedSearchText rt reading.parsed reading.concepts
      let uuid := rt.upper reading.parsed.uuid
      Mentions rt uuid text ∧
      (ix.find tenantId uuid = none → reading.parserStatus = "metadata_only" → Mentions rt "vigente" text) ∧
      ∀ doc, ix.find tenantId uuid = some doc →
        SameParties reading.parsed.issuerRfc reading.parsed.issuerName reading.parsed.receiverRfc
          reading.parsed.receiverName doc ∧
        (reading.parserStatus = "metadata_only" → Mentions rt doc.status text) ∧
        ∀ status ∈ ix.had tenantId uuid, status ≠ doc.status → ¬ Mentions rt status text

/-! ## What a turn leaves -/

/-- The keys of the index are those of its documents, each of which has its status. -/
structure Index.WellFormed (ix : Index) : Prop where
  unique : ix.documents.Pairwise fun a b => ¬ (a.tenantId = b.tenantId ∧ a.uuid = b.uuid)
  known : ∀ tenantId uuid, ix.find tenantId uuid = none →
    ix.had tenantId uuid = [] ∧ ix.partiesOf tenantId uuid = []
  current : ∀ doc ∈ ix.documents, doc.status ∈ ix.had doc.tenantId doc.uuid

/-- The document of its key after a turn. -/
def IndexTurn.result (rt : Runtime) (turn : IndexTurn) (ix : Index) : IndexedDocument :=
  match ix.find turn.tenantId (turn.uuid rt) with
  | none => turn.fresh rt
  | some doc => turn.refresh rt doc

section Apply

variable {rt : Runtime} {turn : IndexTurn} {ix : Index} {doc row : IndexedDocument} {tenantId uuid : String}

theorem Index.find_eq_some (h : ix.find tenantId uuid = some doc) :
    doc ∈ ix.documents ∧ doc.tenantId = tenantId ∧ doc.uuid = uuid := by
  rw [Index.find] at h
  have hkey := List.find?_some h
  exact ⟨List.mem_of_find?_eq_some h, of_decide_eq_true hkey⟩

theorem Index.find_eq_none :
    ix.find tenantId uuid = none ↔ ∀ doc ∈ ix.documents, ¬ doc.IsOf tenantId uuid := by
  rw [Index.find, List.find?_eq_none]
  simp only [decide_eq_true_eq]

theorem IndexTurn.result_key :
    (turn.result rt ix).tenantId = turn.tenantId ∧ (turn.result rt ix).uuid = turn.uuid rt := by
  unfold IndexTurn.result
  split
  · exact ⟨turn.fresh_tenantId rt, turn.fresh_uuid rt⟩
  · next doc hfound =>
      obtain ⟨-, htenant, huuid⟩ := Index.find_eq_some hfound
      exact ⟨(turn.refresh_tenantId rt doc).trans htenant, (turn.refresh_uuid rt doc).trans huuid⟩

/-- A turn leaves the other documents, and one of its key. -/
theorem mem_apply (h : ix.WellFormed) : row ∈ (turn.apply rt ix).documents ↔
    (row ∈ ix.documents ∧ ¬ row.IsOf turn.tenantId (turn.uuid rt)) ∨ row = turn.result rt ix := by
  unfold IndexTurn.apply IndexTurn.result
  cases hfound : ix.find turn.tenantId (turn.uuid rt) with
  | none =>
      have hnone := Index.find_eq_none.mp hfound
      simp only [List.mem_append, List.mem_singleton]
      exact or_congr_left ⟨fun hrow => ⟨hrow, hnone row hrow⟩, And.left⟩
  | some doc =>
      obtain ⟨hdoc, hkey⟩ := Index.find_eq_some hfound
      have hsole : ∀ other ∈ ix.documents, other.IsOf turn.tenantId (turn.uuid rt) → other = doc := by
        intro other hother hof
        by_contra hne
        have : Std.Symm fun a b : IndexedDocument => ¬ (a.tenantId = b.tenantId ∧ a.uuid = b.uuid) :=
          ⟨fun _ _ hab hba => hab ⟨hba.1.symm, hba.2.symm⟩⟩
        have hdiffer := h.unique.forall hother hdoc hne
        exact hdiffer ⟨hof.1.trans hkey.1.symm, hof.2.trans hkey.2.symm⟩
      simp only [List.mem_map]
      constructor
      · rintro ⟨other, hother, rfl⟩
        split
        · next hof => exact .inr (by rw [hsole other hother hof])
        · next hof => exact .inl ⟨hother, hof⟩
      · rintro (⟨hrow, hof⟩ | rfl)
        · exact ⟨row, hrow, if_neg hof⟩
        · exact ⟨doc, hdoc, if_pos hkey⟩

theorem had_append {seen : SeenStatus} :
    Index.had tenantId uuid { ix with statuses := ix.statuses ++ [seen] } = ix.had tenantId uuid ++
      (if seen.tenantId = tenantId ∧ seen.uuid = uuid then [seen.status] else []) := by
  unfold Index.had
  rw [List.filter_append, List.map_append]
  congr 1
  by_cases hkey : seen.tenantId = tenantId ∧ seen.uuid = uuid
  · simp [hkey]
  · rw [List.filter_cons_of_neg (by simpa using hkey), if_neg hkey]
    rfl

theorem statuses_apply : (turn.apply rt ix).statuses = ix.statuses ++
    [⟨turn.tenantId, turn.uuid rt, (turn.result rt ix).status⟩] := by
  unfold IndexTurn.apply IndexTurn.result
  split <;> rfl

/-- A turn adds the status of its document to those it has had. -/
theorem had_apply : (turn.apply rt ix).had tenantId uuid = ix.had tenantId uuid ++
    (if turn.tenantId = tenantId ∧ turn.uuid rt = uuid then [(turn.result rt ix).status] else []) := by
  unfold IndexTurn.apply IndexTurn.result
  split <;> exact had_append

/-- A turn adds party rows for a new document only. -/
theorem partiesOf_apply : (turn.apply rt ix).partiesOf tenantId uuid = ix.partiesOf tenantId uuid ++
    (if (turn.tenantId = tenantId ∧ turn.uuid rt = uuid) ∧ ix.find turn.tenantId (turn.uuid rt) = none
      then (turn.fresh rt).partyRows else []) := by
  unfold IndexTurn.apply
  split
  · next hfound =>
      unfold Index.partiesOf
      rw [List.filter_append]
      congr 1
      simp only [hfound, and_true, IndexedDocument.partyRows, IndexTurn.fresh_tenantId, IndexTurn.fresh_uuid]
      split_ifs with hkey <;> simp [hkey]
  · next hfound => simp [Index.partiesOf, hfound]

/-- A turn keeps the index well formed. -/
theorem Index.WellFormed.apply (h : ix.WellFormed) : (turn.apply rt ix).WellFormed where
  unique := by
    unfold IndexTurn.apply
    split
    · next hfound =>
        refine List.pairwise_append.mpr ⟨h.unique, List.pairwise_singleton _ _, fun a ha b hb => ?_⟩
        rw [List.mem_singleton.mp hb, IndexTurn.fresh_tenantId, IndexTurn.fresh_uuid]
        exact Index.find_eq_none.mp hfound a ha
    · refine List.pairwise_map.mpr (h.unique.imp fun hne => ?_)
      split_ifs <;> simpa only [IndexTurn.refresh_tenantId, IndexTurn.refresh_uuid] using hne
  known t u hnone := by
    rw [Index.find_eq_none] at hnone
    have hresult : ¬ (turn.tenantId = t ∧ turn.uuid rt = u) := by
      rintro ⟨rfl, rfl⟩
      exact hnone _ ((mem_apply h).mpr (.inr rfl)) IndexTurn.result_key
    have hbefore : ix.find t u = none := by
      refine Index.find_eq_none.mpr fun doc hdoc hof => ?_
      refine hnone doc ((mem_apply h).mpr (.inl ⟨hdoc, fun hkey => hresult ?_⟩)) hof
      exact ⟨hkey.1.symm.trans hof.1, hkey.2.symm.trans hof.2⟩
    obtain ⟨hhad, hparties⟩ := h.known t u hbefore
    rw [had_apply, partiesOf_apply, if_neg hresult, if_neg fun hboth => hresult hboth.1, hhad, hparties]
    exact ⟨rfl, rfl⟩
  current doc hdoc := by
    rw [had_apply, List.mem_append]
    rcases (mem_apply h).mp hdoc with ⟨hold, -⟩ | rfl
    · exact .inl (h.current doc hold)
    · rw [IndexTurn.result_key.1, IndexTurn.result_key.2, if_pos ⟨rfl, rfl⟩]
      exact .inr (List.mem_singleton_self _)

/-! ## When a turn keeps the index in sync -/

theorem infix_intercalate {sep word : List Char} {words : List (List Char)} (h : word ∈ words) :
    word <:+: sep.intercalate words := by
  induction words with
  | nil => cases h
  | cons first rest ih =>
      cases rest with
      | nil =>
          obtain rfl := List.mem_singleton.mp h
          exact ⟨[], [], by simp⟩
      | cons second rest =>
          rw [List.intercalate_cons_cons]
          rcases List.mem_cons.mp h with rfl | hrest
          · exact ⟨[], sep ++ sep.intercalate (second :: rest), by rw [List.nil_append, List.append_assoc]⟩
          · exact (ih hrest).trans (List.suffix_append _ _).isInfix

/-- A text of words mentions each of them. -/
theorem mentions_word (hlower : LowersWords rt) {words : List String} {word : String} (h : word ∈ words) :
    Mentions rt word (rt.lower (String.intercalate " " words)) := by
  rw [Mentions, hlower, String.toList_intercalate]
  exact infix_intercalate (List.mem_map_of_mem (List.mem_map_of_mem h))

/-- The index stays in sync with the other documents. -/
theorem inSync_apply (h : ix.WellFormed) (hsync : InSync rt ix) : InSync rt (turn.apply rt ix) ↔
    DocumentInSync rt (ix.had turn.tenantId (turn.uuid rt) ++ [(turn.result rt ix).status])
      ((turn.apply rt ix).partiesOf turn.tenantId (turn.uuid rt)) (turn.result rt ix) := by
  have hresult : DocumentInSync rt
      ((turn.apply rt ix).had (turn.result rt ix).tenantId (turn.result rt ix).uuid)
      ((turn.apply rt ix).partiesOf (turn.result rt ix).tenantId (turn.result rt ix).uuid)
      (turn.result rt ix) ↔ DocumentInSync rt
        (ix.had turn.tenantId (turn.uuid rt) ++ [(turn.result rt ix).status])
        ((turn.apply rt ix).partiesOf turn.tenantId (turn.uuid rt)) (turn.result rt ix) := by
    rw [IndexTurn.result_key.1, IndexTurn.result_key.2, had_apply, if_pos ⟨rfl, rfl⟩]
  rw [← hresult]
  constructor
  · exact fun hafter => hafter _ ((mem_apply h).mpr (.inr rfl))
  · intro hown row hrow
    rcases (mem_apply h).mp hrow with ⟨hold, hother⟩ | rfl
    · have hkey : ¬ (turn.tenantId = row.tenantId ∧ turn.uuid rt = row.uuid) :=
        fun hsame => hother ⟨hsame.1.symm, hsame.2.symm⟩
      rw [had_apply, partiesOf_apply, if_neg hkey, if_neg fun hboth => hkey hboth.1, List.append_nil,
        List.append_nil]
      exact hsync row hold
    · exact hown

theorem partyRows_inj {other : IndexedDocument} (h : doc.partyRows = other.partyRows) :
    SameParties other.issuerRfc other.issuerName other.receiverRfc other.receiverName doc := by
  simp only [IndexedDocument.partyRows, List.cons.injEq, CfdiParty.mk.injEq, and_true] at h
  exact ⟨h.1.2.1, h.1.2.2.1, h.2.2.1, h.2.2.2.1⟩

/-- What the documents hold of a turn that finds one. -/
theorem documentInSync_append {had : List String} {parties : List CfdiParty} :
    DocumentInSync rt (had ++ [doc.status]) parties doc ↔ DocumentInSync rt had parties doc := by
  constructor
  · intro h
    exact ⟨h.values, h.status, fun status hstatus => h.former status (List.mem_append_left _ hstatus), h.parties⟩
  · intro h
    refine ⟨h.values, h.status, fun status hstatus hne => ?_, h.parties⟩
    rcases List.mem_append.mp hstatus with hold | hnew
    · exact h.former status hold hne
    · exact absurd (List.mem_singleton.mp hnew) hne

/-- A document that an entry makes is in sync. -/
theorem fresh_metadata_inSync (hlower : LowersWords rt) (tenantId : String) (entry : MetadataEntry) :
    DocumentInSync rt [] ((IndexTurn.metadata tenantId entry).fresh rt).partyRows
      ((IndexTurn.metadata tenantId entry).fresh rt) where
  values value hvalue := by
    refine mentions_word hlower ?_
    simp only [IndexTurn.fresh, IndexedDocument.values, List.mem_cons, List.not_mem_nil, or_false] at hvalue ⊢
    tauto
  status _ := mentions_word hlower (by simp [IndexTurn.fresh])
  former _ hstatus := nomatch hstatus
  parties := rfl

/-- The text of an XML mentions its parties and its type. -/
theorem parsedSearchText_mentions (hlower : LowersWords rt) {parsed : ParsedCfdi} {concepts : List String}
    {value : String} (hvalue : value ∈ [parsed.issuerRfc, parsed.issuerName, parsed.receiverRfc,
      parsed.receiverName, parsed.comprobanteType]) :
    Mentions rt value (parsedSearchText rt parsed concepts) :=
  mentions_word hlower (List.mem_append_left _ (List.mem_cons_of_mem _ hvalue))

/-- The text of an XML mentions the values of a document that it makes or changes, if it mentions
the UUID of the document. -/
theorem parsedValues_iff (hlower : LowersWords rt) {reading : CfdiReading} {uuid : String} :
    (∀ value ∈ [uuid, reading.parsed.issuerRfc, reading.parsed.issuerName, reading.parsed.receiverRfc,
      reading.parsed.receiverName, reading.parsed.comprobanteType],
        Mentions rt value (parsedSearchText rt reading.parsed reading.concepts)) ↔
      Mentions rt uuid (parsedSearchText rt reading.parsed reading.concepts) := by
  rw [List.forall_mem_cons]
  exact and_iff_left fun value hvalue => parsedSearchText_mentions hlower hvalue

theorem fresh_xml_inSync_iff (hlower : LowersWords rt) {tenantId : String} {reading : CfdiReading} :
    DocumentInSync rt [] ((IndexTurn.xml tenantId reading).fresh rt).partyRows
        ((IndexTurn.xml tenantId reading).fresh rt) ↔
      Mentions rt (rt.upper reading.parsed.uuid) (parsedSearchText rt reading.parsed reading.concepts) ∧
      (reading.parserStatus = "metadata_only" →
        Mentions rt "vigente" (parsedSearchText rt reading.parsed reading.concepts)) := by
  constructor
  · intro h
    exact ⟨(parsedValues_iff hlower).mp h.values, h.status⟩
  · rintro ⟨huuid, hstatus⟩
    exact ⟨(parsedValues_iff hlower).mpr huuid, hstatus, fun _ hnone => (nomatch hnone), rfl⟩

/-- An entry leaves a document that is in sync so if it brings nothing that the index does not
have. -/
theorem refresh_metadata_inSync_iff {tenantId : String} {entry : MetadataEntry} {had : List String}
    {parties : List CfdiParty} (hsync : DocumentInSync rt had parties doc) (hcurrent : doc.status ∈ had) :
    DocumentInSync rt had parties ((IndexTurn.metadata tenantId entry).refresh rt doc) ↔
      SameParties entry.issuerRfc entry.issuerName entry.receiverRfc entry.receiverName doc ∧
      Mentions rt entry.effect doc.searchText ∧
      (doc.parserStatus = "metadata_only" → entry.status = doc.status) ∧
      ∀ status ∈ had, status ≠ entry.status → ¬ Mentions rt status doc.searchText := by
  constructor
  · intro h
    refine ⟨partyRows_inj (hsync.parties.symm.trans h.parties), h.values _ ?_, fun hparser => ?_, h.former⟩
    · simp [IndexTurn.refresh, IndexedDocument.values]
    · by_contra hne
      exact h.former doc.status hcurrent (Ne.symm hne) (hsync.status hparser)
  · rintro ⟨⟨hissuerRfc, hissuerName, hreceiverRfc, hreceiverName⟩, heffect, hstatus, hformer⟩
    have hvalues := hsync.values
    simp only [IndexedDocument.values, List.forall_mem_cons] at hvalues
    obtain ⟨huuid, hissuer, hissuer', hreceiver, hreceiver', -⟩ := hvalues
    refine ⟨?_, fun hparser => ?_, hformer, ?_⟩
    · simp only [IndexTurn.refresh, IndexedDocument.values, List.forall_mem_cons, ← hissuerRfc, ← hissuerName,
        ← hreceiverRfc, ← hreceiverName]
      exact ⟨huuid, hissuer, hissuer', hreceiver, hreceiver', heffect, fun _ hnone => (nomatch hnone)⟩
    · rw [show ((IndexTurn.metadata tenantId entry).refresh rt doc).status = entry.status from rfl, hstatus hparser]
      exact hsync.status hparser
    · rw [hsync.parties]
      simp only [IndexTurn.refresh, IndexedDocument.partyRows, hissuerRfc, hissuerName, hreceiverRfc, hreceiverName]

/-- An XML leaves a document in sync if it brings no other parties and a text without old statuses. -/
theorem refresh_xml_inSync_iff (hlower : LowersWords rt) {tenantId : String} {reading : CfdiReading}
    {had : List String} {parties : List CfdiParty} (hsync : DocumentInSync rt had parties doc) :
    DocumentInSync rt had parties ((IndexTurn.xml tenantId reading).refresh rt doc) ↔
      Mentions rt doc.uuid (parsedSearchText rt reading.parsed reading.concepts) ∧
      SameParties reading.parsed.issuerRfc reading.parsed.issuerName reading.parsed.receiverRfc
        reading.parsed.receiverName doc ∧
      (reading.parserStatus = "metadata_only" →
        Mentions rt doc.status (parsedSearchText rt reading.parsed reading.concepts)) ∧
      ∀ status ∈ had, status ≠ doc.status →
        ¬ Mentions rt status (parsedSearchText rt reading.parsed reading.concepts) := by
  constructor
  · intro h
    exact ⟨(parsedValues_iff hlower).mp h.values, partyRows_inj (hsync.parties.symm.trans h.parties),
      h.status, h.former⟩
  · rintro ⟨huuid, ⟨hissuerRfc, hissuerName, hreceiverRfc, hreceiverName⟩, hstatus, hformer⟩
    refine ⟨(parsedValues_iff hlower).mpr huuid, hstatus, hformer, ?_⟩
    rw [hsync.parties]
    simp only [IndexTurn.refresh, IndexedDocument.partyRows, hissuerRfc, hissuerName, hreceiverRfc, hreceiverName]

/-- A turn keeps the index in sync exactly if it is harmless. -/
theorem inSync_apply_iff (hlower : LowersWords rt) (h : ix.WellFormed) (hsync : InSync rt ix) :
    InSync rt (turn.apply rt ix) ↔ Harmless rt turn ix := by
  rw [inSync_apply h hsync, documentInSync_append, partiesOf_apply]
  cases hfound : ix.find turn.tenantId (turn.uuid rt) with
  | none =>
      obtain ⟨hhad, hparties⟩ := h.known _ _ hfound
      have hresult : turn.result rt ix = turn.fresh rt := by
        rw [IndexTurn.result, hfound]
      rw [hresult, hhad, hparties, if_pos ⟨⟨rfl, rfl⟩, rfl⟩, List.nil_append]
      cases turn with
      | metadata tenantId entry =>
          refine iff_of_true (fresh_metadata_inSync hlower tenantId entry) fun doc hdoc => ?_
          rw [show ix.find tenantId entry.uuid = none from hfound] at hdoc
          cases hdoc
      | xml tenantId reading =>
          have hnone : ix.find tenantId (rt.upper reading.parsed.uuid) = none := hfound
          rw [fresh_xml_inSync_iff hlower, Harmless, hnone]
          exact and_congr_right fun _ =>
            ⟨fun hstatus => ⟨fun _ => hstatus, fun _ hdoc => (nomatch hdoc)⟩, fun hboth => hboth.1 rfl⟩
  | some doc =>
      obtain ⟨hdoc, htenant, huuid⟩ := Index.find_eq_some hfound
      have hresult : turn.result rt ix = turn.refresh rt doc := by
        rw [IndexTurn.result, hfound]
      have hold := hsync doc hdoc
      have hcurrent := h.current doc hdoc
      rw [htenant, huuid] at hold hcurrent
      rw [hresult, if_neg fun hboth => Option.some_ne_none doc hboth.2, List.append_nil]
      cases turn with
      | metadata tenantId entry =>
          have hsome : ix.find tenantId entry.uuid = some doc := hfound
          rw [refresh_metadata_inSync_iff hold hcurrent, Harmless, hsome]
          simp only [Option.some.injEq, forall_eq']
          rfl
      | xml tenantId reading =>
          have hsome : ix.find tenantId (rt.upper reading.parsed.uuid) = some doc := hfound
          rw [refresh_xml_inSync_iff hlower hold, Harmless, hsome, huuid]
          simp only [Option.some.injEq, forall_eq', reduceCtorEq, false_imp_iff, true_and]
          rfl

/-- Harmless turns keep the index in sync. -/
theorem Index.Steps.inSync (hlower : LowersWords rt) {turns : List IndexTurn} {after : Index}
    (hsteps : Index.Steps rt (Harmless rt) turns ix after) (h : ix.WellFormed) (hsync : InSync rt ix) :
    after.WellFormed ∧ InSync rt after := by
  induction hsteps with
  | nil => exact ⟨h, hsync⟩
  | cons hallowed _ ih => exact ih h.apply ((inSync_apply_iff hlower h hsync).mpr hallowed)

end Apply

end Recovery

end CfdiVault
