import CfdiVault.Library.SqlLike
import CfdiVault.RecoveryDb

/-!
# Search and export

The queries of the recovery service over its documents: `search`, `show` and `export_csv`.

The database answers a query with the matching rows in the order of the statement.  Rows
that the order does not tell apart come in any order, so the answers are a relation.
The database's `lower` is that of SQLite, which knows the ASCII letters only.
-/

namespace CfdiVault

namespace Recovery

/-! ## Rows -/

/-- `_document_row`. -/
structure DocumentRow where
  uuid : String
  tenantId : String
  version : String
  documentType : String
  status : String
  issueDate : String
  currency : String
  subtotal : String
  total : String
  issuerRfc : String
  issuerName : String
  receiverRfc : String
  receiverName : String
  paymentMethod : String
  paymentForm : String
  downloadState : String
  xmlSha256 : String
  parserStatus : String
  deriving DecidableEq

def documentRow (doc : CfdiDocument) : DocumentRow where
  uuid := doc.uuid
  tenantId := doc.tenantId
  version := doc.version.getD ""
  documentType := doc.documentType
  status := doc.status
  issueDate := doc.issueDate.isoformat
  currency := doc.currency
  subtotal := (doc.subtotal.map Decimal.toText).getD ""
  total := doc.total.toText
  issuerRfc := doc.issuerRfc
  issuerName := doc.issuerName
  receiverRfc := doc.receiverRfc
  receiverName := doc.receiverName
  paymentMethod := doc.paymentMethod.getD ""
  paymentForm := doc.paymentForm.getD ""
  downloadState := doc.downloadState
  xmlSha256 := doc.xmlSha256.getD ""
  parserStatus := doc.parserStatus

/-! ## Statements -/

/-- `lower` of the database. -/
def sqlLower (s : String) : List Char := s.toList.map Char.toLower

/-- The condition on the tenant, if one is given. -/
def ofTenant (tenantId : Option String) (doc : CfdiDocument) : Bool :=
  match tenantId with
  | some tenant => tenant == "" || doc.tenantId == tenant
  | none => true

/-- The columns that are searched. -/
def searchedColumns (doc : CfdiDocument) : List String :=
  [doc.uuid, doc.issuerRfc, doc.issuerName, doc.receiverRfc, doc.receiverName, doc.searchText]

/-- The order of the statement: later documents first, those of one date by UUID.  SQLite
compares the wall clock that it keeps. -/
def Listed (a b : CfdiDocument) : Prop :=
  b.issueDate.wall < a.issueDate.wall ∨ (a.issueDate.wall = b.issueDate.wall ∧ a.uuid ≤ b.uuid)

/-- `text.strip().lower()`. -/
def needle (rt : Runtime) (text : String) : List Char := (rt.lower (Text.strip text)).toList

/-- The document of `show`. -/
def Show (rt : Runtime) (uuid : String) (tenantId : Option String) (d : Db) (doc : CfdiDocument) : Prop :=
  doc ∈ d.documents ∧ sqlLower doc.uuid = (rt.lower uuid).toList ∧ ofTenant tenantId doc = true

/-! ## Export -/

/-- The document has the text in a searched column, as it stands. -/
def contains (rt : Runtime) (text : String) (tenantId : Option String) (doc : CfdiDocument) : Bool :=
  ofTenant tenantId doc &&
    (searchedColumns doc).any fun column => decide (needle rt text <:+: sqlLower column)

section Search

variable {rt : Runtime} {text : String} {tenantId : Option String} {limit : Nat} {d : Db}
variable {rows : List DocumentRow}

/-- A document with nothing but a text to search. -/
def documentOf (searchText : String) : CfdiDocument where
  tenantId := ""
  uuid := ""
  version := none
  documentType := ""
  status := ""
  issueDate := .utc ⟨0, by decide⟩
  certifiedAt := none
  currency := ""
  subtotal := none
  discount := none
  total := .finite false 0 0
  issuerRfc := ""
  issuerName := ""
  receiverRfc := ""
  receiverName := ""
  paymentMethod := none
  paymentForm := none
  downloadState := ""
  xmlSha256 := none
  parserStatus := ""
  searchText := searchText
  rawPayload := .null
  createdAt := .utc ⟨0, by decide⟩
  updatedAt := .utc ⟨0, by decide⟩

theorem instant_eq {a b : Instant} (hab : ¬ b < a) (hba : ¬ a < b) : a = b := by
  obtain ⟨m, hm⟩ := a
  obtain ⟨n, hn⟩ := b
  obtain rfl : m = n := Nat.le_antisymm (Nat.le_of_not_lt hab) (Nat.le_of_not_lt hba)
  rfl

theorem listed_total (a b : CfdiDocument) : Listed a b ∨ Listed b a := by
  by_cases hab : b.issueDate.wall < a.issueDate.wall
  · exact .inl (.inl hab)
  by_cases hba : a.issueDate.wall < b.issueDate.wall
  · exact .inr (.inl hba)
  have hsame := instant_eq hab hba
  exact (String.le_total a.uuid b.uuid).imp (fun h => .inr ⟨hsame, h⟩) fun h => .inr ⟨hsame.symm, h⟩

theorem listed_trans {a b c : CfdiDocument} (hab : Listed a b) (hbc : Listed b c) : Listed a c := by
  rcases hab with hab | ⟨hab, huuid⟩
  · rcases hbc with hbc | ⟨hbc, -⟩
    · exact .inl (Nat.lt_trans hbc hab)
    · exact .inl (hbc ▸ hab)
  · rcases hbc with hbc | ⟨hbc, huuid'⟩
    · exact .inl (hab ▸ hbc)
    · exact .inr ⟨hab.trans hbc, String.le_trans huuid huuid'⟩

instance : Std.Total Listed := ⟨listed_total⟩

instance : IsTrans CfdiDocument Listed := ⟨fun _ _ _ => listed_trans⟩

end Search

section Sample

end Sample

end Recovery

end CfdiVault
