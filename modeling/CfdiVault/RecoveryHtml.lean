import CfdiVault.Library.Markup
import CfdiVault.RecoverySearch

/-!
# The rendered document

`render_html` and the page that it writes: the tags of the template and the texts between
them, which are words of the template or cells with values of the document.
-/

namespace CfdiVault

namespace Recovery

open Markup

/-! ## The template -/

/-- `render_html`, for the row that `show` returns. -/
def renderHtml (doc : DocumentRow) : String :=
  let warning :=
    if doc.parserStatus ≠ "complete" then
      "<p><strong>Warning:</strong> this CFDI was parsed partially. Use XML evidence for audit.</p>"
    else ""
  "<!doctype html>\n<html lang=\"en\">\n<head><meta charset=\"utf-8\"><title>CFDI " ++ doc.uuid ++
    "</title></head>\n<body>\n<h1>CFDI " ++ doc.uuid ++ "</h1>\n" ++ warning ++
    "\n<table>\n<tr><th>Status</th><td>" ++ doc.status ++
    "</td></tr>\n<tr><th>Issuer</th><td>" ++ doc.issuerName ++ " (" ++ doc.issuerRfc ++
    ")</td></tr>\n<tr><th>Receiver</th><td>" ++ doc.receiverName ++ " (" ++ doc.receiverRfc ++
    ")</td></tr>\n<tr><th>Issue date</th><td>" ++ doc.issueDate ++
    "</td></tr>\n<tr><th>Type</th><td>" ++ doc.documentType ++
    "</td></tr>\n<tr><th>Total</th><td>" ++ doc.total ++ " " ++ doc.currency ++
    "</td></tr>\n</table>\n</body>\n</html>\n"

/-! ## The page -/

/-- A piece of a page, of texts. -/
def piece (text tag : String) : List Char × List Char := (text.toList, tag.toList)

/-- The title and the heading. -/
def headingCell (doc : DocumentRow) : String := "CFDI " ++ doc.uuid

def issuerCell (doc : DocumentRow) : String := doc.issuerName ++ " (" ++ doc.issuerRfc ++ ")"

def receiverCell (doc : DocumentRow) : String := doc.receiverName ++ " (" ++ doc.receiverRfc ++ ")"

def totalCell (doc : DocumentRow) : String := doc.total ++ " " ++ doc.currency

/-- A row of the table. -/
def tableRow (label cell : String) : List (List Char × List Char) :=
  [piece "\n" "<tr>", piece "" "<th>", piece label "</th>", piece "" "<td>", piece cell "</td>",
    piece "" "</tr>"]

def warningPieces (doc : DocumentRow) : List (List Char × List Char) :=
  if doc.parserStatus ≠ "complete" then
    [piece "\n" "<p>", piece "" "<strong>", piece "Warning:" "</strong>",
      piece " this CFDI was parsed partially. Use XML evidence for audit." "</p>", piece "\n" "<table>"]
  else [piece "\n\n" "<table>"]

/-- The page of a document: the tags of the template, and the values of the document in its
cells. -/
def pageOf (doc : DocumentRow) : Page where
  pieces :=
    [piece "" "<!doctype html>", piece "\n" "<html lang=\"en\">", piece "\n" "<head>",
      piece "" "<meta charset=\"utf-8\">", piece "" "<title>", piece (headingCell doc) "</title>",
      piece "" "</head>", piece "\n" "<body>", piece "\n" "<h1>", piece (headingCell doc) "</h1>"] ++
    warningPieces doc ++ tableRow "Status" doc.status ++ tableRow "Issuer" (issuerCell doc) ++
    tableRow "Receiver" (receiverCell doc) ++ tableRow "Issue date" doc.issueDate ++
    tableRow "Type" doc.documentType ++ tableRow "Total" (totalCell doc) ++
    [piece "\n" "</table>", piece "\n" "</body>", piece "\n" "</html>"]
  last := "\n".toList

/-- The cells of the page. -/
def cells (doc : DocumentRow) : List String :=
  [headingCell doc, doc.status, issuerCell doc, receiverCell doc, doc.issueDate, doc.documentType,
    totalCell doc]

/-! ## The characters of the page -/

/-- The characters of several texts. -/
def chars (texts : List String) : List Char := texts.flatMap String.toList

section Words

/-! Each stretch of the template between two values, cut at its tags. -/

theorem words_head : "<!doctype html>\n<html lang=\"en\">\n<head><meta charset=\"utf-8\"><title>CFDI ".toList =
    chars ["<!doctype html>", "\n", "<html lang=\"en\">", "\n", "<head>", "<meta charset=\"utf-8\">", "<title>", "CFDI "] := by
  decide

theorem words_body : "</title></head>\n<body>\n<h1>CFDI ".toList =
    chars ["</title>", "</head>", "\n", "<body>", "\n", "<h1>", "CFDI "] := by
  decide

theorem words_table : "\n<table>\n<tr><th>Status</th><td>".toList =
    chars ["\n", "<table>", "\n", "<tr>", "<th>", "Status", "</th>", "<td>"] := by
  decide

theorem words_issuer : "</td></tr>\n<tr><th>Issuer</th><td>".toList =
    chars ["</td>", "</tr>", "\n", "<tr>", "<th>", "Issuer", "</th>", "<td>"] := by
  decide

theorem words_receiver : ")</td></tr>\n<tr><th>Receiver</th><td>".toList =
    chars [")", "</td>", "</tr>", "\n", "<tr>", "<th>", "Receiver", "</th>", "<td>"] := by
  decide

theorem words_date : ")</td></tr>\n<tr><th>Issue date</th><td>".toList =
    chars [")", "</td>", "</tr>", "\n", "<tr>", "<th>", "Issue date", "</th>", "<td>"] := by
  decide

theorem words_type : "</td></tr>\n<tr><th>Type</th><td>".toList =
    chars ["</td>", "</tr>", "\n", "<tr>", "<th>", "Type", "</th>", "<td>"] := by
  decide

theorem words_total : "</td></tr>\n<tr><th>Total</th><td>".toList =
    chars ["</td>", "</tr>", "\n", "<tr>", "<th>", "Total", "</th>", "<td>"] := by
  decide

theorem words_end : "</td></tr>\n</table>\n</body>\n</html>\n".toList =
    chars ["</td>", "</tr>", "\n", "</table>", "\n", "</body>", "\n", "</html>", "\n"] := by
  decide

theorem words_warning : "<p><strong>Warning:</strong> this CFDI was parsed partially. Use XML evidence for audit.</p>".toList =
    chars ["<p>", "<strong>", "Warning:", "</strong>", " this CFDI was parsed partially. Use XML evidence for audit.", "</p>"] := by
  decide

end Words

/-- The rendered text is that of the page. -/
theorem toList_renderHtml (doc : DocumentRow) : (renderHtml doc).toList = (pageOf doc).flatten := by
  have hheading : "</h1>\n".toList = chars ["</h1>", "\n"] := by decide
  have hblank : "\n\n".toList = chars ["\n", "\n"] := by decide
  have hempty : "".toList = [] := rfl
  unfold renderHtml pageOf warningPieces Page.flatten
  split
  · simp only [String.toList_append, words_head, words_body, words_table, words_issuer, words_receiver,
      words_date, words_type, words_total, words_end, words_warning, hheading, hempty, headingCell,
      issuerCell, receiverCell, totalCell, tableRow, piece, chars, List.flatMap_append,
      List.flatMap_cons, List.flatMap_nil, List.append_assoc, List.nil_append, List.append_nil]
  · simp only [String.toList_append, words_head, words_body, words_table, words_issuer, words_receiver,
      words_date, words_type, words_total, words_end, hheading, hblank, hempty, headingCell,
      issuerCell, receiverCell, totalCell, tableRow, piece, chars, List.flatMap_append,
      List.flatMap_cons, List.flatMap_nil, List.append_assoc, List.nil_append, List.append_nil]

/-- What makes a tag, as a test. -/
def tagCheck (tag : List Char) : Bool :=
  let body := tag.tail.dropLast
  tag == '<' :: (body ++ ['>']) && body.head?.any isOpener && !body.contains '>'

theorem isTag_of_check {tag : List Char} (h : tagCheck tag = true) : IsTag tag := by
  simp only [tagCheck, Bool.and_eq_true, beq_iff_eq, Bool.not_eq_true'] at h
  exact ⟨tag.tail.dropLast, h.1.1, h.1.2, by simpa using h.2⟩

theorem isTag_pageOf (doc : DocumentRow) : ∀ tag ∈ (pageOf doc).tags, IsTag tag := by
  have hall : (pageOf doc).tags.all tagCheck = true := by
    unfold pageOf warningPieces Page.tags
    split <;> rfl
  exact fun tag h => isTag_of_check (List.all_eq_true.mp hall tag h)

/-! ## What the page shows -/

/-- The texts of the page are inert words of the template, and its cells. -/
theorem inert_texts_iff {refs : References} (doc : DocumentRow) :
    (∀ text ∈ (pageOf doc).texts, Inert refs text) ↔ ∀ cell ∈ cells doc, Inert refs cell.toList := by
  have hword : ∀ {text : String}, text.toList.all (fun c => c != '<' && c != '&') = true →
      Inert refs text.toList := fun h => inert_of_plain h
  have hwords : ∀ text ∈ ["", "\n", "\n\n", "Warning:",
      " this CFDI was parsed partially. Use XML evidence for audit.", "Status", "Issuer", "Receiver",
      "Issue date", "Type", "Total"], Inert refs text.toList := by
    simp only [List.forall_mem_cons, List.not_mem_nil, false_implies, implies_true, and_true]
    refine ⟨?_, ?_, ?_, ?_, ?_, ?_, ?_, ?_, ?_, ?_, ?_⟩ <;> exact hword (by decide)
  simp only [List.forall_mem_cons, List.not_mem_nil, false_implies, implies_true, and_true] at hwords
  unfold pageOf warningPieces cells
  split
  · simp only [Page.texts, tableRow, piece, List.map_append, List.map_cons, List.map_nil,
      List.forall_mem_append, List.forall_mem_cons, List.not_mem_nil, false_implies, implies_true, and_true,
      hwords, true_and]
    tauto
  · simp only [Page.texts, tableRow, piece, List.map_append, List.map_cons, List.map_nil,
      List.forall_mem_append, List.forall_mem_cons, List.not_mem_nil, false_implies, implies_true, and_true,
      hwords, true_and]
    tauto

/-- The rendered page of a document keeps its template and shows the values exactly if no cell
begins a tag or holds a character reference. -/
theorem renderHtml_faithful_iff (refs : References) (doc : CfdiDocument) :
    Faithful refs (renderHtml (documentRow doc)).toList (pageOf (documentRow doc)) ↔
      ∀ cell ∈ cells (documentRow doc), Inert refs cell.toList := by
  rw [toList_renderHtml, faithful_iff (isTag_pageOf _), inert_texts_iff]

/-! ## A name with markup -/

section Sample

/-- The references that an escape writes. -/
def basicReferences : References where
  numeric n := Char.ofNat n
  named := [("amp;".toList, ['&']), ("lt;".toList, ['<']), ("gt;".toList, ['>']), ("quot;".toList, ['"'])]
  shorter := by decide

/-- The document of an issuer whose name holds a tag. -/
def boldIssuer : CfdiDocument :=
  { documentOf "" with
    uuid := "00000000-0000-4000-8000-000000000001"
    status := "Vigente"
    issuerName := "Comercial <b>Norte</b> SA"
    parserStatus := "complete" }

/-- The name of the issuer adds tags to the page. -/
theorem issuer_adds_tags : ¬ Faithful basicReferences (renderHtml (documentRow boldIssuer)).toList
    (pageOf (documentRow boldIssuer)) := by
  rw [toList_renderHtml, faithful_iff (isTag_pageOf _), inert_texts_iff]
  intro hinert
  have hcell : issuerCell (documentRow boldIssuer) ∈ cells (documentRow boldIssuer) := by
    simp [cells]
  exact absurd (hinert _ hcell).quiet (by decide)

end Sample

end Recovery

end CfdiVault
