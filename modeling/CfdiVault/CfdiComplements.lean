import CfdiVault.CfdiXml
import CfdiVault.Library.FirstAppearance

/-!
# The complements of a document

`CfdiVersionDetector.complements` walks the document in document order and reports every name
after the first `Complemento`.  `insideNames` is what it is for: the names of the elements that
have a `Complemento` for an ancestor.

Everything inside a `Complemento` comes after the first one, so the walk misses nothing.  What it
adds are the elements behind the first `Complemento` that lie outside of all of them, and
`complements_exact_iff` says when these do no harm.
-/

namespace CfdiVault

namespace CfdiXml

open Element (Inside)

def IsComplement (e : Element) : Prop := localName e.tag = "Complemento"

instance : DecidablePred IsComplement := fun e => inferInstanceAs (Decidable (localName e.tag = "Complemento"))

/-- The local name of a visited element. -/
def visitName (visit : List Element × Element) : String := localName visit.2.tag

/-- A name that is reported where it is met. -/
def Reportable (visit : List Element × Element) : Bool :=
  visitName visit ≠ "Complemento" ∧ visitName visit ≠ "TimbreFiscalDigital"

/-- The names of the elements inside a `Complemento`, in document order. -/
def insideNames (root : Element) : List String :=
  (((root.walk []).filter Reportable).filter (Inside IsComplement)).map visitName

/-- The elements behind the first `Complemento` in document order, inside one or not. -/
def afterComplement (root : Element) : List (List Element × Element) :=
  ((root.walk []).dropWhile fun visit => ¬ IsComplement visit.2).filter Reportable

/-- An element behind the first `Complemento` and outside of all of them that bears a name not
met there before is followed by one inside of that name, and no element inside in between bears
another new name. -/
def StraysEchoed (root : Element) : Prop :=
  ∀ front visit, front ++ [visit] <+: afterComplement root → ¬ Inside IsComplement visit →
    visitName visit ∉ front.map visitName →
    ∃ before echo, before ++ [echo] <+: afterComplement root ∧ Inside IsComplement echo ∧
      visitName echo = visitName visit ∧
      ∀ v ∈ before, Inside IsComplement v → visitName v ∈ visitName visit :: front.map visitName

variable {visits : List (List Element × Element)} {names : List String} {root : Element}

/-- Behind a `Complemento` every name is taken. -/
theorem walk_behind : ((visits.map (·.2)).foldl complementStep (true, names)).2 =
    names ++ (visits.filter Reportable).map visitName := by
  induction visits generalizing names with
  | nil => exact (List.append_nil names).symm
  | cons visit rest ih =>
      rw [List.map_cons, List.foldl_cons, complementStep]
      by_cases hcomplement : localName visit.2.tag = "Complemento"
      · have hnot : Reportable visit = false := by simp [Reportable, visitName, hcomplement]
        rw [if_pos hcomplement, ih, List.filter_cons_of_neg (by rw [hnot]; decide)]
      · by_cases hstamp : localName visit.2.tag = "TimbreFiscalDigital"
        · have hnot : Reportable visit = false := by simp [Reportable, visitName, hstamp]
          rw [if_neg hcomplement, if_neg (fun h => h.2 hstamp), ih,
            List.filter_cons_of_neg (by rw [hnot]; decide)]
        · have hreport : Reportable visit = true := by simp [Reportable, visitName, hcomplement, hstamp]
          rw [if_neg hcomplement, if_pos ⟨rfl, hstamp⟩, ih, List.filter_cons_of_pos hreport, List.map_cons,
            List.append_assoc]
          rfl

/-- The walk takes every name behind the first `Complemento`. -/
theorem walk_names : ((visits.map (·.2)).foldl complementStep (false, [])).2 =
    ((visits.dropWhile fun visit => ¬ IsComplement visit.2).filter Reportable).map visitName := by
  induction visits with
  | nil => rfl
  | cons visit rest ih =>
      rw [List.map_cons, List.foldl_cons, complementStep]
      by_cases hcomplement : localName visit.2.tag = "Complemento"
      · have hnot : Reportable visit = false := by simp [Reportable, visitName, hcomplement]
        have hstop : IsComplement visit.2 := hcomplement
        rw [if_pos hcomplement, walk_behind, List.dropWhile_cons_of_neg (by simpa using hstop),
          List.filter_cons_of_neg (by rw [hnot]; decide)]
        rfl
      · have hpass : ¬ IsComplement visit.2 := hcomplement
        rw [if_neg hcomplement, if_neg (fun h => (nomatch h.1)), ih,
          List.dropWhile_cons_of_pos (by simpa using hpass)]

theorem complementNames_eq : complementNames root = ((afterComplement root).map visitName).eraseDups := by
  rw [complementNames, ← Element.walk_iter [], walk_names]
  rfl

/-- Everything inside a `Complemento` comes behind the first one. -/
theorem insideNames_eq :
    insideNames root = ((afterComplement root).filter (Inside IsComplement)).map visitName := by
  have hfirst := Element.filter_inside_dropWhile IsComplement
    (Element.ancestors_first (List.Subset.refl []) root) fun a ha => (nomatch ha)
  rw [insideNames, afterComplement, List.filter_comm, ← hfirst, List.filter_comm]

/-- The complements of a document are the names of the elements inside a `Complemento`, each
once, in order of first appearance, exactly if what lies outside behind the first `Complemento`
only echoes them. -/
theorem complements_exact_iff (root : Element) (xml : Bytes) :
    ((complements (fun _ => .ok root) xml).exec []).1 = .ok (insideNames root).eraseDups ↔ StraysEchoed root := by
  have hexec : ((complements (fun _ => .ok root) xml).exec []).1 = .ok (complementNames root) := rfl
  rw [hexec, complementNames_eq, insideNames_eq, Except.ok.injEq, FirstAppearance.eraseDups_filter_iff]
  simp only [decide_eq_true_eq, decide_eq_false_iff_not]
  rfl

/-- A document with an `Addenda` behind its `Complemento`. -/
def addendaXml : Bytes :=
  ("<c:Comprobante xmlns:c=\"http://www.sat.gob.mx/cfd/4\" xmlns:t=\"http://www.sat.gob.mx/TimbreFiscalDigital\">" ++
    "<c:Complemento><t:TimbreFiscalDigital/></c:Complemento><c:Addenda><Pedido/></c:Addenda>" ++
    "</c:Comprobante>").toUTF8.toList

/-- Its tree. -/
def addendaDocument : Element :=
  .mk "{http://www.sat.gob.mx/cfd/4}Comprobante" [] [
    .mk "{http://www.sat.gob.mx/cfd/4}Complemento" [] [
      .mk "{http://www.sat.gob.mx/TimbreFiscalDigital}TimbreFiscalDigital" [] []],
    .mk "{http://www.sat.gob.mx/cfd/4}Addenda" [] [.mk "Pedido" [] []]]

/-- The `Addenda` and its content are reported, where nothing is inside but the stamp. -/
theorem addenda_reported :
    ((complements (fun _ => .ok addendaDocument) addendaXml).exec []).1 ≠
      .ok (insideNames addendaDocument).eraseDups := by
  have hreported : complementNames addendaDocument = ["Addenda", "Pedido"] := by decide +kernel
  have hinside : insideNames addendaDocument = [] := by decide +kernel
  have hexec : ((complements (fun _ => .ok addendaDocument) addendaXml).exec []).1 =
      .ok (complementNames addendaDocument) := rfl
  rw [hexec, hreported, hinside]
  decide

end CfdiXml

end CfdiVault
