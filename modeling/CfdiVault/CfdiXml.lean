import CfdiVault.RecoveryWorld
import CfdiVault.Library.ElementTree
import CfdiVault.Library.UnicodeDigits

/-!
# CFDI XML

`parse_cfdi_xml` and the version-aware parsers.  The XML library is a parameter, any function
from bytes to a tree or an exception, and a program records the documents that it handed to
`ET.fromstring`.
-/

namespace CfdiVault

namespace CfdiXml

open Recovery (ParsedCfdi)

/-- An exception of the XML library: its `ParseError`, or another one. -/
inductive XmlFault where
  | parseError (message : String)
  | other (message : String)
  deriving DecidableEq

/-- An exception of a parser: its own `CfdiParseError`, or one of the XML library. -/
inductive Fault where
  | cfdiParse (message : String)
  | xml (fault : XmlFault)
  deriving DecidableEq

/-- A parser, over the documents that `ET.fromstring` was called on. -/
abbrev Parser := Prog (List Bytes) Fault

/-- `ET.fromstring` -/
abbrev XmlLibrary := Bytes → Except XmlFault Element

variable (et : XmlLibrary)

/-- A call of `ET.fromstring`. -/
def fromstring (xml : Bytes) : Parser Element :=
  Prog.act fun calls => ((et xml).mapError .xml, calls ++ [xml])

/-- `b"<!DOCTYPE"` -/
def DOCTYPE : Bytes := [60, 33, 68, 79, 67, 84, 89, 80, 69]

/-- `xml_bytes.upper()` -/
def upperBytes (xml : Bytes) : Bytes := xml.map fun b => if 97 ≤ b ∧ b ≤ 122 then b - 32 else b

/-- `b"<!DOCTYPE" in xml_bytes[:512].upper()` -/
def hasDoctype (xml : Bytes) : Bool := (upperBytes (xml.take 512)).tails.any DOCTYPE.isPrefixOf

def rejectDoctype (xml : Bytes) : Except Fault Unit :=
  if hasDoctype xml then .error (.cfdiParse "DOCTYPE declarations are not supported") else .ok ()

/-- `tag.rsplit("}", 1)[1] if "}" in tag else tag` -/
def localName (tag : String) : String := String.ofList (tag.toList.rtakeWhile (· ≠ '}'))

def findDirectChild (element : Element) (name : String) : Option Element :=
  element.children.find? fun child => localName child.tag = name

def findDescendant (element : Element) (name : String) : Option Element :=
  element.iter.find? fun child => localName child.tag = name

def requiredAttr (element : Element) (attr elementName : String) : Except Fault String :=
  match element.attrib.lookup attr with
  | some value => if value = "" then missing else .ok value
  | none => missing
where missing := .error (.cfdiParse ("Missing " ++ attr ++ " attribute on " ++ elementName))

def parseIssueDate (value : String) : Except Fault DateTime :=
  match DateTime.fromisoformat (Text.replaceChar 'Z' "+00:00" value) with
  | some date => .ok date
  | none => .error (.cfdiParse ("Invalid CFDI Fecha value: " ++ value))

def parseDecimal (value fieldName : String) : Except Fault Decimal :=
  match Decimal.read? value with
  | some d => .ok d
  | none => .error (.cfdiParse ("Invalid decimal value for " ++ fieldName ++ ": " ++ value))

/-- The elements that a document needs. -/
def orMissing (element : Option Element) (message : String) : Except Fault Element :=
  match element with
  | some e => .ok e
  | none => .error (.cfdiParse message)

/-- The fields of a parsed document. -/
def cfdiFields (root : Element) : Except Fault ParsedCfdi := do
  if localName root.tag ≠ "Comprobante" then
    .error (.cfdiParse "Expected CFDI Comprobante root element")
  let issuer ← orMissing (findDirectChild root "Emisor") "Missing CFDI Emisor element"
  let receiver ← orMissing (findDirectChild root "Receptor") "Missing CFDI Receptor element"
  let stamp ← orMissing (findDescendant root "TimbreFiscalDigital") "Missing TimbreFiscalDigital complement"
  let uuid ← requiredAttr stamp "UUID" "TimbreFiscalDigital"
  let issueDate ← parseIssueDate (← requiredAttr root "Fecha" "Comprobante")
  let issuerRfc ← requiredAttr issuer "Rfc" "Emisor"
  let issuerName ← requiredAttr issuer "Nombre" "Emisor"
  let receiverRfc ← requiredAttr receiver "Rfc" "Receptor"
  let receiverName ← requiredAttr receiver "Nombre" "Receptor"
  let subtotal ← parseDecimal (← requiredAttr root "SubTotal" "Comprobante") "SubTotal"
  let total ← parseDecimal (← requiredAttr root "Total" "Comprobante") "Total"
  let currency ← requiredAttr root "Moneda" "Comprobante"
  let comprobanteType ← requiredAttr root "TipoDeComprobante" "Comprobante"
  pure {
    uuid := uuid
    issuerRfc := issuerRfc
    issuerName := issuerName
    receiverRfc := receiverRfc
    receiverName := receiverName
    issueDate := issueDate
    subtotal := subtotal
    total := total
    currency := currency
    comprobanteType := comprobanteType
    paymentMethod := root.attrib.lookup "MetodoPago"
    paymentForm := root.attrib.lookup "FormaPago" }

/-- `except ET.ParseError as exc: raise CfdiParseError(f"Invalid XML: {exc}")` -/
def invalidXml : Fault → Parser Element
  | .xml (.parseError message) => throw (.cfdiParse ("Invalid XML: " ++ message))
  | fault => throw fault

/-- Parse a CFDI XML document and return its importable fields. -/
def parseCfdiXml (xml : Bytes) : Parser ParsedCfdi := do
  Prog.ofExcept (rejectDoctype xml)
  let root ← Prog.catching (fromstring et xml) invalidXml
  Prog.ofExcept (cfdiFields root)

/-! ## Version-aware parsers -/

/-- Common parse result enriched with version/complement metadata. -/
structure VersionedParsedCfdi where
  parsed : ParsedCfdi
  version : String
  complements : List String
  parserStatus : String

/-- `CfdiVersionDetector.detect` -/
def detect (xml : Bytes) : Parser String := do
  let root ← fromstring et xml
  pure (orElse (orElse ((root.attrib.lookup "Version").getD "") ((root.attrib.lookup "version").getD ""))
    "unknown")
where orElse (value other : String) : String := if value = "" then other else value

/-- One element of the walk: the names so far, and whether a `Complemento` was met. -/
def complementStep (state : Bool × List String) (element : Element) : Bool × List String :=
  let name := localName element.tag
  if name = "Complemento" then (true, state.2)
  else if state.1 ∧ name ≠ "TimbreFiscalDigital" then (state.1, state.2 ++ [name])
  else state

/-- The names that `complements` returns; `dict.fromkeys` keeps the first of equal ones. -/
def complementNames (root : Element) : List String :=
  (root.iter.foldl complementStep (false, [])).2.eraseDups

/-- `CfdiVersionDetector.complements` -/
def complements (xml : Bytes) : Parser (List String) := do
  let root ← fromstring et xml
  pure (complementNames root)

/-- `CommonCfdiParser.parse` for a list of supported versions. -/
def parseVersioned (supportedVersions : List String) (xml : Bytes) : Parser VersionedParsedCfdi := do
  let version ← detect et xml
  let parsed ← parseCfdiXml et xml
  let status := if supportedVersions = [] ∨ version ∈ supportedVersions then "complete" else "partial"
  let names ← complements et xml
  pure ⟨parsed, version, names, status⟩

def CfdiParserV32 : List String := ["3.2"]

def CfdiParserV33 : List String := ["3.3"]

def CfdiParserV40 : List String := ["4.0"]

/-- `parser_for_version` -/
def parserForVersion (version : String) : List String :=
  if version = "3.2" then CfdiParserV32
  else if version = "3.3" then CfdiParserV33
  else if version = "4.0" then CfdiParserV40
  else []

/-! ## Documents with a DOCTYPE -/

variable {et} {α : Type} {xml : Bytes}

/-- The parser raises its own exception and never calls `ET.fromstring`. -/
def RejectsFirst (parser : Parser α) : Prop := ∃ message, parser.exec [] = (.error (.cfdiParse message), [])

/-- Neither parser lets the XML library see the document. -/
def Screened (et : XmlLibrary) (xml : Bytes) : Prop :=
  RejectsFirst (parseCfdiXml et xml) ∧ ∀ supportedVersions, RejectsFirst (parseVersioned et supportedVersions xml)

theorem exec_fromstring (calls : List Bytes) :
    (fromstring et xml).exec calls = ((et xml).mapError .xml, calls ++ [xml]) := rfl

/-- The call of `ET.fromstring` that comes first is recorded. -/
theorem fromstring_first : Spec (fun calls => calls = []) (fromstring et xml) (fun _ calls => [xml] <+: calls)
    fun _ calls => [xml] <+: calls := by
  rintro calls rfl
  rw [exec_fromstring]
  cases et xml <;> exact List.prefix_rfl

section Keeps

variable {first : List Bytes}

theorem fromstring_keeps : Keeps (fun calls => first <+: calls) (fromstring et xml) :=
  .act fun _ h => h.trans (List.prefix_append _ _)

theorem invalidXml_keeps (fault : Fault) : Keeps (fun calls => first <+: calls) (invalidXml fault) := by
  unfold invalidXml
  split <;> exact .throw _

theorem parseCfdiXml_keeps : Keeps (fun calls => first <+: calls) (parseCfdiXml et xml) :=
  .bind (.ofExcept _) fun _ => .bind (Spec.catching fromstring_keeps invalidXml_keeps) fun _ => .ofExcept _

theorem complements_keeps : Keeps (fun calls => first <+: calls) (complements et xml) :=
  .bind fromstring_keeps fun _ => .pure _

end Keeps

/-- A program that records the document in its first call is not screened. -/
theorem not_rejectsFirst (xml : Bytes) {parser : Parser α} (h : Spec (fun calls => calls = []) parser
    (fun _ calls => [xml] <+: calls) fun _ calls => [xml] <+: calls) : ¬ RejectsFirst parser := by
  rintro ⟨message, hreject⟩
  have hrun := h [] rfl
  rw [hreject] at hrun
  exact absurd (List.IsPrefix.length_le hrun) (Nat.not_succ_le_zero 0)

/-- The versioned parsers begin with a call of `ET.fromstring`. -/
theorem parseVersioned_not_first {supportedVersions : List String} :
    ¬ RejectsFirst (parseVersioned et supportedVersions xml) := by
  have hdetect : Spec (fun calls => calls = []) (detect et xml) (fun _ calls => [xml] <+: calls)
      fun _ calls => [xml] <+: calls := Spec.bind fromstring_first fun _ => Keeps.pure _
  exact not_rejectsFirst xml (Spec.bind hdetect fun _ => Keeps.bind parseCfdiXml_keeps fun _ =>
    Keeps.bind complements_keeps fun _ => Keeps.pure _)

/-- `parse_cfdi_xml` keeps a document from the XML library exactly if the declaration shows in
its first 512 bytes. -/
theorem parseCfdiXml_first_iff : RejectsFirst (parseCfdiXml et xml) ↔ hasDoctype xml = true := by
  by_cases h : hasDoctype xml = true
  · refine iff_of_true ⟨"DOCTYPE declarations are not supported", ?_⟩ h
    rw [parseCfdiXml, rejectDoctype, if_pos h]
    rfl
  · refine iff_of_false (not_rejectsFirst xml ?_) h
    rw [parseCfdiXml, rejectDoctype, if_neg h]
    exact Spec.bind (Spec.pure () fun _ hcalls => hcalls) fun _ =>
      Spec.bind (Spec.catching fromstring_first invalidXml_keeps) fun _ => Keeps.ofExcept _

/-- No document is screened: the versioned parsers call the XML library first.  The plain parser
alone screens the documents whose declaration shows in their first 512 bytes. -/
theorem never_screened : ¬ Screened et xml ∧ (RejectsFirst (parseCfdiXml et xml) ↔ hasDoctype xml = true) :=
  ⟨fun h => parseVersioned_not_first (h.2 []), parseCfdiXml_first_iff⟩

/-- The document `<!DOCTYPE a><a/>`. -/
def doctypeDocument : Bytes := [60, 33, 68, 79, 67, 84, 89, 80, 69, 32, 97, 62, 60, 97, 47, 62]

/-- The same document behind a comment of 512 blanks. -/
def commentedDocument : Bytes := [60, 33, 45, 45] ++ List.replicate 512 32 ++ [45, 45, 62] ++ doctypeDocument

/-- The XML library on both documents. -/
def sampleLibrary : XmlLibrary := fun _ => .ok (.mk "a" [] [])

/-- The versioned parser lets the XML library see a document with a DOCTYPE, and behind a long
comment the plain parser does too. -/
theorem doctype_reaches_library : ¬ Screened sampleLibrary doctypeDocument ∧
    ¬ RejectsFirst (parseCfdiXml sampleLibrary commentedDocument) :=
  ⟨fun h => parseVersioned_not_first (h.2 []), fun h =>
    absurd (parseCfdiXml_first_iff.mp h) (by decide +kernel)⟩

end CfdiXml

end CfdiVault
