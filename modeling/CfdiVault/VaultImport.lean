import CfdiVault.CfdiXml
import CfdiVault.Library.FirstAppearance

/-!
# Imports into the local vault

`VaultService.import_xml_bytes` and `import_zip_file` over the table of invoices.  The XML
library, the ZIP library, the clock and the tables of the host are parameters.

`Attempt` says what one import can do.  An import that returns reports exactly one outcome and
only an imported one adds a row; what a batch owes beyond that depends on its documents, and
`vault_law_iff` says how: no document may raise anything but `CfdiParseError`, every member must
be readable, every new document needs amounts that are numbers, and a UUID that differs from the
stored ones in more than the case of its letters.
-/

namespace CfdiVault

namespace Vault

open CfdiXml (XmlLibrary XmlFault parseCfdiXml)
open Recovery (ParsedCfdi ZipArchive)

/-- A normalized CFDI document imported into the vault. -/
structure Invoice where
  uuid : String
  issuerRfc : String
  issuerName : String
  receiverRfc : String
  receiverName : String
  issueDate : DateTime
  subtotal : Decimal
  total : Decimal
  currency : String
  comprobanteType : String
  paymentMethod : Option String
  paymentForm : Option String
  xmlSha256 : String
  sourceName : String
  importedAt : DateTime
  deriving DecidableEq

/-- Result for one XML import attempt. -/
structure ImportRecord where
  sourceName : String
  uuid : Option String
  imported : Bool
  duplicate : Bool
  xmlSha256 : Option String
  error : Option String := none
  deriving DecidableEq

/-- An exception that leaves an import: of the XML library, of the ZIP library, of a statement
parameter, or of a constraint. -/
inductive Fault where
  | xml (fault : XmlFault)
  | zip (message : String)
  | statement (message : String)
  | integrity (message : String)
  deriving DecidableEq

/-- What the service takes from outside. -/
structure Host where
  rt : Runtime
  et : XmlLibrary
  now : Nat → DateTime
  /-- `ZipFile(path)` -/
  openZip : String → Except String ZipArchive

/-- The stored invoices and the readings of the clock so far. -/
structure World where
  invoices : List Invoice
  clock : Nat

variable (host : Host)

/-- An amount as a parameter of a statement: a `NaN` becomes `NULL`, and the signaling one has no
float. -/
def bindAmount : Decimal → Except Fault (Option Decimal)
  | .nan _ true _ => .error (.statement "cannot convert signaling NaN to float")
  | .nan _ false _ => .ok none
  | amount => .ok (some amount)

/-- `INSERT INTO invoices` with its constraints. -/
def insertInvoice (invoice : Invoice) (invoices : List Invoice) : Except Fault (List Invoice) := do
  let subtotal ← bindAmount invoice.subtotal
  let total ← bindAmount invoice.total
  if subtotal = none then .error (.integrity "NOT NULL constraint failed: invoices.subtotal")
  else if total = none then .error (.integrity "NOT NULL constraint failed: invoices.total")
  else if ∃ row ∈ invoices, row.uuid = invoice.uuid then
    .error (.integrity "UNIQUE constraint failed: invoices.uuid")
  else pure (invoices ++ [invoice])

def now : Prog World Fault DateTime := Prog.act fun w => (.ok (host.now w.clock), { w with clock := w.clock + 1 })

/-- `session.add(invoice)` and `session.commit()` -/
def commitInvoice (invoice : Invoice) : Prog World Fault PUnit := Prog.act fun w =>
  match insertInvoice invoice w.invoices with
  | .ok invoices => (.ok ⟨⟩, { w with invoices := invoices })
  | .error fault => (.error fault, w)

def invoiceFromParsed (parsed : ParsedCfdi) (xmlSha256 sourceName : String) (importedAt : DateTime) : Invoice where
  uuid := parsed.uuid
  issuerRfc := parsed.issuerRfc
  issuerName := parsed.issuerName
  receiverRfc := parsed.receiverRfc
  receiverName := parsed.receiverName
  issueDate := parsed.issueDate
  subtotal := parsed.subtotal
  total := parsed.total
  currency := parsed.currency
  comprobanteType := parsed.comprobanteType
  paymentMethod := parsed.paymentMethod
  paymentForm := parsed.paymentForm
  xmlSha256 := xmlSha256
  sourceName := sourceName
  importedAt := importedAt

/-- `parse_cfdi_xml(xml_bytes)` -/
def parsed (xml : Bytes) : Except CfdiXml.Fault ParsedCfdi := ((parseCfdiXml host.et xml).exec []).1

def importXmlBytes (xml : Bytes) (sourceName : String) : Prog World Fault ImportRecord :=
  let xmlSha256 := (host.rt.sha256Bytes xml).hex
  match parsed host xml with
  | .error (.cfdiParse message) =>
      pure { sourceName, uuid := none, imported := false, duplicate := false, xmlSha256, error := message }
  | .error (.xml fault) => throw (.xml fault)
  | .ok cfdi => do
      let w ← get
      if ∃ row ∈ w.invoices, row.uuid = cfdi.uuid then
        pure { sourceName, uuid := cfdi.uuid, imported := false, duplicate := true, xmlSha256 }
      else do
        let importedAt ← now host
        commitInvoice (invoiceFromParsed cfdi xmlSha256 sourceName importedAt)
        pure { sourceName, uuid := cfdi.uuid, imported := true, duplicate := false, xmlSha256 }

/-- The members that `import_zip_file` imports, in its order. -/
def xmlMembers (archive : ZipArchive) : List String :=
  (archive.names.insertionSort fun a b => a ≤ b).filter fun member =>
    ¬ member.endsWith "/" ∧ (host.rt.lower member).endsWith ".xml"

def importMember (archive : ZipArchive) (member : String) : Prog World Fault ImportRecord := do
  let xml ← Prog.ofExcept ((archive.read member).mapError .zip)
  importXmlBytes host xml member

/-- The records of an `ImportBatchResult`. -/
def importZipFile (path : String) : Prog World Fault (List ImportRecord) := do
  let archive ← Prog.ofExcept ((host.openZip path).mapError .zip)
  Prog.collect (xmlMembers host archive) (importMember host archive)

/-! ## Calls -/

/-- One call of the service. -/
inductive Call where
  | importXmlBytes (xml : Bytes) (sourceName : String)
  | importZipFile (path : String)

def Call.program : Call → Prog World Fault (List ImportRecord)
  | .importXmlBytes xml sourceName => do
      let record ← Vault.importXmlBytes host xml sourceName
      pure [record]
  | .importZipFile path => Vault.importZipFile host path

def World.start : World := ⟨[], 0⟩

/-- One call after the other; a call that raises leaves what it did. -/
def runCalls (calls : List Call) : World :=
  calls.foldl (fun w c => ((c.program host).exec w).2) .start

/-- Two UUIDs are equal but for the case of letters. -/
def SameLetters (a b : String) : Prop := host.rt.upper a = host.rt.upper b

instance (a b : String) : Decidable (SameLetters host a b) :=
  inferInstanceAs (Decidable (host.rt.upper a = host.rt.upper b))

/-- No fiscal document is stored twice. -/
def NoTwins (invoices : List Invoice) : Prop :=
  invoices.Pairwise fun a b => ¬ SameLetters host a.uuid b.uuid

/-- A record reports exactly one outcome. -/
def ImportRecord.OneOutcome (record : ImportRecord) : Prop :=
  (record.imported = true ∧ record.duplicate = false ∧ record.error = none) ∨
  (record.imported = false ∧ record.duplicate = true ∧ record.error = none) ∨
  (record.imported = false ∧ record.duplicate = false ∧ record.error ≠ none)

/-- What the attempts of a call with the given names report and store: a record each, with one
outcome, and a row for each imported one and nothing else. -/
structure Reported (names : List String) (before after : List Invoice) (records : List ImportRecord) : Prop where
  named : records.map (·.sourceName) = names
  outcome : ∀ record ∈ records, record.OneOutcome
  stored : ∃ rows, after = before ++ rows ∧
    rows.map (fun row => (row.sourceName, some row.uuid)) =
      (records.filter (·.imported)).map fun record => (record.sourceName, record.uuid)

/-- A call attempts all that it was given and reports it; a ZIP that cannot be opened has nothing
to attempt. -/
def CallLaw (w : World) (c : Call) : Prop :=
  match c with
  | .importXmlBytes _ sourceName => ∃ records, ((c.program host).exec w).1 = .ok records ∧
      Reported [sourceName] w.invoices ((c.program host).exec w).2.invoices records
  | .importZipFile path =>
      match host.openZip path with
      | .ok archive => ∃ records, ((c.program host).exec w).1 = .ok records ∧
          Reported (xmlMembers host archive) w.invoices ((c.program host).exec w).2.invoices records
      | .error _ => ((c.program host).exec w).2.invoices = w.invoices

/-- The vault holds each document once, and every call keeps its law. -/
def VaultLaw (calls : List Call) : Prop :=
  NoTwins host (runCalls host calls).invoices ∧
    ∀ before c, before ++ [c] <+: calls → CallLaw host (runCalls host before) c

/-! ## The condition on the documents -/

def IsNumber (amount : Decimal) : Prop :=
  ∀ negative signaling payload, amount ≠ .nan negative signaling payload

/-- The amounts of a document are numbers. -/
def Storable (cfdi : ParsedCfdi) : Prop := IsNumber cfdi.subtotal ∧ IsNumber cfdi.total

/-- A document parses or raises `CfdiParseError`, and when its UUID is not stored yet, its
amounts are numbers and no stored UUID is equal but for the case of letters. -/
def Importable (invoices : List Invoice) (xml : Bytes) : Prop :=
  match parsed host xml with
  | .ok cfdi => (∃ row ∈ invoices, row.uuid = cfdi.uuid) ∨
      (Storable cfdi ∧ ∀ row ∈ invoices, ¬ SameLetters host row.uuid cfdi.uuid)
  | .error (.cfdiParse _) => True
  | .error (.xml _) => False

/-- The members of an archive can be read, and are importable one after the other. -/
def MembersImportable (archive : ZipArchive) : World → List String → Prop
  | _, [] => True
  | w, member :: rest =>
      match archive.read member with
      | .ok xml => Importable host w.invoices xml ∧
          MembersImportable archive ((importXmlBytes host xml member).exec w).2 rest
      | .error _ => False

/-- What a call is given is importable. -/
def CallImportable (w : World) : Call → Prop
  | .importXmlBytes xml _ => Importable host w.invoices xml
  | .importZipFile path =>
      match host.openZip path with
      | .ok archive => MembersImportable host archive w (xmlMembers host archive)
      | .error _ => True

/-! ## One attempt -/

variable {host} {w : World} {xml : Bytes} {sourceName : String} {invoices : List Invoice}

theorem bindAmount_cases (amount : Decimal) :
    (IsNumber amount ∧ bindAmount amount = .ok (some amount)) ∨
      (¬ IsNumber amount ∧ (bindAmount amount = .ok none ∨ ∃ fault, bindAmount amount = .error fault)) := by
  cases amount with
  | finite negative coefficient exponent => exact .inl ⟨fun _ _ _ h => (nomatch h), rfl⟩
  | infinite negative => exact .inl ⟨fun _ _ _ h => (nomatch h), rfl⟩
  | nan negative signaling payload =>
      refine .inr ⟨fun h => h negative signaling payload rfl, ?_⟩
      cases signaling with
      | true => exact .inr ⟨_, rfl⟩
      | false => exact .inl rfl

/-- A new document is stored exactly if its amounts are numbers. -/
theorem insertInvoice_new {invoice : Invoice} (hnew : ¬ ∃ row ∈ invoices, row.uuid = invoice.uuid) :
    (IsNumber invoice.subtotal ∧ IsNumber invoice.total ∧
      insertInvoice invoice invoices = .ok (invoices ++ [invoice])) ∨
    (¬ (IsNumber invoice.subtotal ∧ IsNumber invoice.total) ∧
      ∃ fault, insertInvoice invoice invoices = .error fault) := by
  unfold insertInvoice
  rcases bindAmount_cases invoice.subtotal with ⟨hsubtotal, hbind⟩ | ⟨hsubtotal, hbind | ⟨fault, hbind⟩⟩
  · rw [hbind, Checked.ok_bind]
    rcases bindAmount_cases invoice.total with ⟨htotal, hbind⟩ | ⟨htotal, hbind | ⟨fault, hbind⟩⟩
    · rw [hbind, Checked.ok_bind, if_neg (Option.some_ne_none _), if_neg (Option.some_ne_none _), if_neg hnew]
      exact .inl ⟨hsubtotal, htotal, rfl⟩
    · rw [hbind, Checked.ok_bind, if_neg (Option.some_ne_none _), if_pos rfl]
      exact .inr ⟨fun h => htotal h.2, _, rfl⟩
    · rw [hbind, Checked.error_bind]
      exact .inr ⟨fun h => htotal h.2, _, rfl⟩
  · refine .inr ⟨fun h => hsubtotal h.1, ?_⟩
    rw [hbind, Checked.ok_bind]
    rcases bindAmount_cases invoice.total with ⟨-, htotal⟩ | ⟨-, htotal | ⟨fault, htotal⟩⟩
    · rw [htotal, Checked.ok_bind, if_pos rfl]
      exact ⟨_, rfl⟩
    · rw [htotal, Checked.ok_bind, if_pos rfl]
      exact ⟨_, rfl⟩
    · rw [htotal, Checked.error_bind]
      exact ⟨_, rfl⟩
  · rw [hbind, Checked.error_bind]
    exact .inr ⟨fun h => hsubtotal h.1, _, rfl⟩

/-- What one import can do. -/
inductive Attempt (host : Host) (w : World) (xml : Bytes) (sourceName : String) :
    Except Fault ImportRecord × World → Prop
  | failed {message : String} (h : parsed host xml = .error (.cfdiParse message)) :
      Attempt host w xml sourceName (.ok ⟨sourceName, none, false, false,
        some (host.rt.sha256Bytes xml).hex, some message⟩, w)
  | broken {fault : XmlFault} (h : parsed host xml = .error (.xml fault)) :
      Attempt host w xml sourceName (.error (.xml fault), w)
  | duplicate {cfdi : ParsedCfdi} (h : parsed host xml = .ok cfdi)
      (hstored : ∃ row ∈ w.invoices, row.uuid = cfdi.uuid) :
      Attempt host w xml sourceName (.ok ⟨sourceName, some cfdi.uuid, false, true,
        some (host.rt.sha256Bytes xml).hex, none⟩, w)
  | imported {cfdi : ParsedCfdi} {invoice : Invoice} (h : parsed host xml = .ok cfdi)
      (hnew : ¬ ∃ row ∈ w.invoices, row.uuid = cfdi.uuid) (hstorable : Storable cfdi)
      (huuid : invoice.uuid = cfdi.uuid) (hname : invoice.sourceName = sourceName) :
      Attempt host w xml sourceName (.ok ⟨sourceName, some cfdi.uuid, true, false,
        some (host.rt.sha256Bytes xml).hex, none⟩, ⟨w.invoices ++ [invoice], w.clock + 1⟩)
  | refused {cfdi : ParsedCfdi} {fault : Fault} (h : parsed host xml = .ok cfdi)
      (hnew : ¬ ∃ row ∈ w.invoices, row.uuid = cfdi.uuid) (hstorable : ¬ Storable cfdi) :
      Attempt host w xml sourceName (.error fault, ⟨w.invoices, w.clock + 1⟩)

theorem attempt_exec (host : Host) (w : World) (xml : Bytes) (sourceName : String) :
    Attempt host w xml sourceName ((importXmlBytes host xml sourceName).exec w) := by
  unfold importXmlBytes
  rcases h : parsed host xml with fault | cfdi
  · cases fault with
    | cfdiParse message => exact .failed h
    | xml fault => exact .broken h
  · rw [Prog.exec_bind_ok (Prog.exec_get w)]
    by_cases hstored : ∃ row ∈ w.invoices, row.uuid = cfdi.uuid
    · rw [if_pos hstored]
      exact .duplicate h hstored
    · have hnow : (now host).exec w = (.ok (host.now w.clock), ⟨w.invoices, w.clock + 1⟩) := rfl
      rw [if_neg hstored, Prog.exec_bind_ok hnow]
      let invoice := invoiceFromParsed cfdi (host.rt.sha256Bytes xml).hex sourceName (host.now w.clock)
      have hcommit : (commitInvoice invoice).exec ⟨w.invoices, w.clock + 1⟩ =
          match insertInvoice invoice w.invoices with
          | .ok invoices => (.ok ⟨⟩, ⟨invoices, w.clock + 1⟩)
          | .error fault => (.error fault, ⟨w.invoices, w.clock + 1⟩) := rfl
      rcases @insertInvoice_new _ invoice hstored with ⟨hsub, htot, hinsert⟩ | ⟨hnot, fault, hinsert⟩
      · rw [hinsert] at hcommit
        rw [Prog.exec_bind_ok hcommit]
        exact .imported h hstored ⟨hsub, htot⟩ rfl rfl
      · rw [hinsert] at hcommit
        rw [Prog.exec_bind_error hcommit]
        exact .refused h hstored hnot

section Attempts

variable {run : Except Fault ImportRecord × World}

/-- An import adds rows behind the stored ones, and none unless it reports one imported. -/
theorem Attempt.grows (h : Attempt host w xml sourceName run) : w.invoices <+: run.2.invoices := by
  cases h with
  | imported => exact List.prefix_append _ _
  | _ => exact List.prefix_rfl

/-- An import that returns reports one outcome, and stores a row if that is imported. -/
theorem Attempt.reported {record : ImportRecord} (h : Attempt host w xml sourceName run)
    (hrecord : run.1 = .ok record) : Reported [sourceName] w.invoices run.2.invoices [record] := by
  cases h with
  | failed hparsed =>
      cases hrecord
      refine ⟨rfl, fun r hr => ?_, [], (List.append_nil _).symm, rfl⟩
      cases List.mem_singleton.mp hr
      exact .inr (.inr ⟨rfl, rfl, Option.some_ne_none _⟩)
  | broken hparsed => cases hrecord
  | duplicate hparsed hstored =>
      cases hrecord
      refine ⟨rfl, fun r hr => ?_, [], (List.append_nil _).symm, rfl⟩
      cases List.mem_singleton.mp hr
      exact .inr (.inl ⟨rfl, rfl, rfl⟩)
  | @imported cfdi invoice hparsed hnew hstorable huuid hname =>
      cases hrecord
      refine ⟨rfl, fun r hr => ?_, [invoice], rfl, ?_⟩
      · cases List.mem_singleton.mp hr
        exact .inl ⟨rfl, rfl, rfl⟩
      · rw [List.map_singleton, huuid, hname]
        rfl
  | refused hparsed hnew hstorable => cases hrecord

theorem noTwins_append {invoice : Invoice} (h : NoTwins host invoices) :
    NoTwins host (invoices ++ [invoice]) ↔ ∀ row ∈ invoices, ¬ SameLetters host row.uuid invoice.uuid := by
  rw [NoTwins, List.pairwise_append]
  constructor
  · exact fun hall row hrow => hall.2.2 row hrow invoice (List.mem_singleton_self _)
  · refine fun hall => ⟨h, List.pairwise_singleton _ _, fun row hrow other hother => ?_⟩
    rw [List.mem_singleton.mp hother]
    exact hall row hrow

/-- An import returns and leaves no twins exactly if its document is importable. -/
theorem Attempt.importable_iff (h : Attempt host w xml sourceName run) (htwins : NoTwins host w.invoices) :
    ((∃ record, run.1 = .ok record) ∧ NoTwins host run.2.invoices) ↔ Importable host w.invoices xml := by
  unfold Importable
  cases h with
  | failed hparsed =>
      rw [hparsed]
      exact iff_of_true ⟨⟨_, rfl⟩, htwins⟩ trivial
  | broken hparsed =>
      rw [hparsed]
      exact iff_of_false (fun ⟨⟨_, hrecord⟩, _⟩ => (nomatch hrecord)) not_false
  | duplicate hparsed hstored =>
      rw [hparsed]
      exact iff_of_true ⟨⟨_, rfl⟩, htwins⟩ (.inl hstored)
  | @imported cfdi invoice hparsed hnew hstorable huuid hname =>
      rw [hparsed]
      refine (and_iff_right ⟨_, rfl⟩).trans ((noTwins_append htwins).trans ?_)
      rw [huuid]
      exact ⟨fun hall => .inr ⟨hstorable, hall⟩, fun hor => (hor.resolve_left hnew).2⟩
  | refused hparsed hnew hstorable =>
      rw [hparsed]
      refine iff_of_false (fun ⟨⟨_, hrecord⟩, _⟩ => (nomatch hrecord)) fun hor => ?_
      exact hstorable (hor.resolve_left hnew).1

end Attempts

/-! ## Batches and runs -/

variable {archive : ZipArchive} {names : List String} {calls : List Call}

theorem Reported.cons {before middle after : List Invoice} {record : ImportRecord} {records : List ImportRecord}
    (hfirst : Reported [sourceName] before middle [record]) (hrest : Reported names middle after records) :
    Reported (sourceName :: names) before after (record :: records) := by
  obtain ⟨rows, rfl, hrows⟩ := hfirst.stored
  obtain ⟨more, rfl, hmore⟩ := hrest.stored
  refine ⟨?_, fun r hr => ?_, rows ++ more, List.append_assoc _ _ _, ?_⟩
  · rw [List.map_cons, hrest.named]
    exact congrArg (· :: names) (List.head_eq_of_cons_eq hfirst.named)
  · rcases List.mem_cons.mp hr with rfl | hr
    · exact hfirst.outcome _ (List.mem_singleton_self _)
    · exact hrest.outcome r hr
  · rw [List.map_append, hrows, hmore, ← List.map_append, ← List.filter_append]
    rfl

theorem Reported.nil : Reported [] invoices invoices [] where
  named := rfl
  outcome := fun _ h => (nomatch h)
  stored := ⟨[], (List.append_nil _).symm, rfl⟩

/-- Nothing that is stored goes. -/
theorem importXmlBytes_keeps {base : List Invoice} :
    Keeps (fun u => base <+: u.invoices) (importXmlBytes host xml sourceName) := by
  intro u hu
  have hgrows := (attempt_exec host u xml sourceName).grows
  rcases hrun : (importXmlBytes host xml sourceName).exec u with ⟨fault | record, v⟩ <;>
    rw [hrun] at hgrows <;> exact hu.trans hgrows

theorem importMember_keeps {base : List Invoice} (member : String) :
    Keeps (fun u => base <+: u.invoices) (importMember host archive member) :=
  .bind (.ofExcept _) fun _ => importXmlBytes_keeps

theorem importMember_read (hread : archive.read sourceName = .ok xml) :
    (importMember host archive sourceName).exec w = (importXmlBytes host xml sourceName).exec w := by
  rw [importMember, hread]
  exact Prog.exec_bind_ok (Prog.exec_ofExcept _ w)

theorem importMember_unread {message : String} (hread : archive.read sourceName = .error message) :
    (importMember host archive sourceName).exec w = (.error (.zip message), w) := by
  rw [importMember, hread]
  exact Prog.exec_bind_error (Prog.exec_ofExcept _ w)

/-- A loop over members that returns reports all of them. -/
theorem members_reported {records : List ImportRecord} {v : World}
    (h : (Prog.collect names (importMember host archive)).exec w = (.ok records, v)) :
    Reported names w.invoices v.invoices records := by
  induction names generalizing w records with
  | nil =>
      cases h
      exact .nil
  | cons member rest ih =>
      obtain ⟨record, u, hrecord, h⟩ := Prog.exec_bind_eq_ok.mp h
      obtain ⟨more, v', hmore, h⟩ := Prog.exec_bind_eq_ok.mp h
      cases h
      rcases hread : archive.read member with message | xml
      · rw [importMember_unread hread] at hrecord
        cases hrecord
      · rw [importMember_read hread] at hrecord
        have hattempt := attempt_exec host w xml member
        rw [hrecord] at hattempt
        exact (hattempt.reported rfl).cons (ih hmore)

theorem membersImportable_read (hread : archive.read sourceName = .ok xml) :
    MembersImportable host archive w (sourceName :: names) ↔ Importable host w.invoices xml ∧
      MembersImportable host archive ((importXmlBytes host xml sourceName).exec w).2 names := by
  rw [MembersImportable, hread]

theorem membersImportable_unread {message : String} (hread : archive.read sourceName = .error message) :
    ¬ MembersImportable host archive w (sourceName :: names) := by
  rw [MembersImportable, hread]
  exact not_false

/-- The loop over the members returns and leaves no twins exactly if they are importable one
after the other. -/
theorem members_iff (htwins : NoTwins host w.invoices) :
    ((∃ records, ((Prog.collect names (importMember host archive)).exec w).1 = .ok records) ∧
      NoTwins host ((Prog.collect names (importMember host archive)).exec w).2.invoices) ↔
    MembersImportable host archive w names := by
  induction names generalizing w with
  | nil => exact iff_of_true ⟨⟨[], rfl⟩, htwins⟩ trivial
  | cons member rest ih =>
      rw [Prog.collect_cons]
      rcases hread : archive.read member with message | xml
      · rw [Prog.exec_bind_error (importMember_unread hread)]
        exact iff_of_false (fun ⟨⟨_, h⟩, _⟩ => (nomatch h)) (membersImportable_unread hread)
      · have hattempt := attempt_exec host w xml member
        have hiff := hattempt.importable_iff htwins
        have hmember := @importMember_read host w _ _ archive hread
        rw [membersImportable_read hread]
        rcases hrun : (importXmlBytes host xml member).exec w with ⟨fault | record, u⟩
        · rw [hrun] at hiff hmember
          rw [Prog.exec_bind_error hmember]
          exact iff_of_false (fun ⟨⟨_, h⟩, _⟩ => (nomatch h)) fun ⟨h, _⟩ => (nomatch (hiff.mpr h).1.choose_spec)
        · rw [hrun] at hiff hmember
          rw [Prog.exec_bind_ok hmember, ← hiff]
          have hgrows : Keeps (fun v => u.invoices <+: v.invoices)
              (Prog.collect rest (importMember host archive)) := .collect fun m _ => importMember_keeps m
          have hkept := hgrows u List.prefix_rfl
          have hih := fun htwins => ih (w := u) htwins
          rcases hrest : (Prog.collect rest (importMember host archive)).exec u with ⟨fault | records, v⟩
          · rw [hrest] at hih
            rw [Prog.exec_bind_error hrest]
            exact iff_of_false (fun ⟨⟨_, h⟩, _⟩ => (nomatch h)) fun ⟨h, hmembers⟩ =>
              (nomatch ((hih h.2).mpr hmembers).1.choose_spec)
          · rw [hrest] at hih hkept
            rw [Prog.exec_bind_ok hrest]
            constructor
            · intro ⟨_, h⟩
              have htwins : NoTwins host u.invoices := h.sublist hkept.sublist
              exact ⟨⟨⟨_, rfl⟩, htwins⟩, (hih htwins).mp ⟨⟨_, rfl⟩, h⟩⟩
            · intro ⟨h, hmembers⟩
              exact ⟨⟨_, rfl⟩, ((hih h.2).mpr hmembers).2⟩

theorem exec_importXml_error {v : World} {fault : Fault}
    (h : (importXmlBytes host xml sourceName).exec w = (.error fault, v)) :
    ((Call.importXmlBytes xml sourceName).program host).exec w = (.error fault, v) := Prog.exec_bind_error h

theorem exec_importXml_ok {v : World} {record : ImportRecord}
    (h : (importXmlBytes host xml sourceName).exec w = (.ok record, v)) :
    ((Call.importXmlBytes xml sourceName).program host).exec w = (.ok [record], v) := Prog.exec_bind_ok h

theorem exec_importZip_unopened {path message : String} (h : host.openZip path = .error message) :
    ((Call.importZipFile path).program host).exec w = (.error (.zip message), w) := by
  rw [Call.program, importZipFile, h]
  exact Prog.exec_bind_error (Prog.exec_ofExcept _ w)

theorem exec_importZip_opened {path : String} (h : host.openZip path = .ok archive) :
    ((Call.importZipFile path).program host).exec w =
      (Prog.collect (xmlMembers host archive) (importMember host archive)).exec w := by
  rw [Call.program, importZipFile, h]
  exact Prog.exec_bind_ok (Prog.exec_ofExcept _ w)

/-- A call keeps its law and leaves no twins exactly if what it is given is importable. -/
theorem call_iff (c : Call) (htwins : NoTwins host w.invoices) :
    (NoTwins host ((c.program host).exec w).2.invoices ∧ CallLaw host w c) ↔ CallImportable host w c := by
  cases c with
  | importXmlBytes xml sourceName =>
      have hattempt := attempt_exec host w xml sourceName
      rw [CallLaw, CallImportable, ← hattempt.importable_iff htwins]
      rcases hrun : (importXmlBytes host xml sourceName).exec w with ⟨fault | record, v⟩
      · rw [exec_importXml_error hrun]
        exact iff_of_false (fun ⟨_, _, h, _⟩ => (nomatch h)) fun ⟨⟨_, h⟩, _⟩ => (nomatch h)
      · rw [hrun] at hattempt
        rw [exec_importXml_ok hrun]
        exact ⟨fun h => ⟨⟨_, rfl⟩, h.1⟩, fun h => ⟨h.2, _, rfl, hattempt.reported rfl⟩⟩
  | importZipFile path =>
      rcases hopen : host.openZip path with message | archive
      · simp only [CallLaw, CallImportable, hopen]
        rw [exec_importZip_unopened hopen]
        exact iff_of_true ⟨htwins, rfl⟩ trivial
      · simp only [CallLaw, CallImportable, hopen]
        rw [exec_importZip_opened hopen]
        refine Iff.trans ?_ (members_iff htwins)
        constructor
        · exact fun ⟨h, records, hrecords, _⟩ => ⟨⟨records, hrecords⟩, h⟩
        · intro ⟨⟨records, hrecords⟩, h⟩
          exact ⟨h, records, hrecords, members_reported (Prod.ext hrecords rfl)⟩

theorem call_grows (c : Call) : w.invoices <+: ((c.program host).exec w).2.invoices := by
  have hkeeps : Keeps (fun u => w.invoices <+: u.invoices) (c.program host) := by
    cases c with
    | importXmlBytes xml sourceName => exact .bind importXmlBytes_keeps fun _ => .pure _
    | importZipFile path =>
        exact .bind (.ofExcept _) fun archive => .collect fun member _ => importMember_keeps member
  have hrun := hkeeps w List.prefix_rfl
  rcases h : (c.program host).exec w with ⟨fault | records, v⟩ <;> rw [h] at hrun <;> exact hrun

theorem runCalls_snoc (c : Call) : runCalls host (calls ++ [c]) =
    ((c.program host).exec (runCalls host calls)).2 := by
  rw [runCalls, List.foldl_append]
  rfl

/-- The vault holds each document once and every call keeps its law exactly if everything that is
imported is importable at its moment. -/
theorem vault_law_iff : VaultLaw host calls ↔
    ∀ before c, before ++ [c] <+: calls → CallImportable host (runCalls host before) c := by
  induction calls using List.reverseRecOn with
  | nil => exact iff_of_true ⟨List.Pairwise.nil, FirstAppearance.forall_prefix_nil⟩ FirstAppearance.forall_prefix_nil
  | append_singleton calls c ih =>
      rw [VaultLaw, FirstAppearance.forall_prefix_snoc, FirstAppearance.forall_prefix_snoc, runCalls_snoc, ← ih]
      constructor
      · intro ⟨hafter, hlaws, hlaw⟩
        have htwins : NoTwins host (runCalls host calls).invoices := hafter.sublist (call_grows c).sublist
        exact ⟨⟨htwins, hlaws⟩, (call_iff c htwins).mp ⟨hafter, hlaw⟩⟩
      · intro ⟨⟨htwins, hlaws⟩, himportable⟩
        obtain ⟨hafter, hlaw⟩ := (call_iff c htwins).mpr himportable
        exact ⟨hafter, hlaws, hlaw⟩

/-! ## One document in two spellings -/

/-- The tree of a document with a UUID. -/
def stampedDocument (uuid : String) : Element :=
  .mk "Comprobante" [("Fecha", "2024-01-01"), ("SubTotal", "1"), ("Total", "1"), ("Moneda", "MXN"),
      ("TipoDeComprobante", "I")] [
    .mk "Emisor" [("Rfc", "A"), ("Nombre", "A")] [], .mk "Receptor" [("Rfc", "B"), ("Nombre", "B")] [],
    .mk "TimbreFiscalDigital" [("UUID", uuid)] []]

/-- Its text, for a UUID of one letter: `<Comprobante Fecha="2024-01-01" SubTotal="1" Total="1"
Moneda="MXN" TipoDeComprobante="I"><Emisor Rfc="A" Nombre="A"/><Receptor Rfc="B" Nombre="B"/>
<TimbreFiscalDigital UUID="…"/></Comprobante>` on one line. -/
def stampedXml (letter : UInt8) : Bytes :=
  [60, 67, 111, 109, 112, 114, 111, 98, 97, 110, 116, 101, 32, 70, 101, 99, 104, 97, 61, 34, 50,
    48, 50, 52, 45, 48, 49, 45, 48, 49, 34, 32, 83, 117, 98, 84, 111, 116, 97, 108, 61, 34, 49, 34,
    32, 84, 111, 116, 97, 108, 61, 34, 49, 34, 32, 77, 111, 110, 101, 100, 97, 61, 34, 77, 88, 78,
    34, 32, 84, 105, 112, 111, 68, 101, 67, 111, 109, 112, 114, 111, 98, 97, 110, 116, 101, 61, 34,
    73, 34, 62, 60, 69, 109, 105, 115, 111, 114, 32, 82, 102, 99, 61, 34, 65, 34, 32, 78, 111, 109,
    98, 114, 101, 61, 34, 65, 34, 47, 62, 60, 82, 101, 99, 101, 112, 116, 111, 114, 32, 82, 102, 99,
    61, 34, 66, 34, 32, 78, 111, 109, 98, 114, 101, 61, 34, 66, 34, 47, 62, 60, 84, 105, 109, 98,
    114, 101, 70, 105, 115, 99, 97, 108, 68, 105, 103, 105, 116, 97, 108, 32, 85, 85, 73, 68, 61, 34] ++
    [letter] ++ [34, 47, 62, 60, 47, 67, 111, 109, 112, 114, 111, 98, 97, 110, 116, 101, 62]

/-- A host on which the two spellings of a UUID are parsed. -/
def spellingHost : Host where
  rt := {
    sha256Text := fun _ => 0
    sha256Bytes := fun _ => 0
    upper := fun s => String.ofList (s.toList.map Char.toUpper)
    lower := Text.lower
    alnum := Char.isAlphanum }
  et := fun xml => .ok (stampedDocument (if xml = stampedXml 65 then "A" else "a"))
  now := fun _ => ⟨⟨63839750400000000, by decide⟩, some UtcOffset.zero⟩
  openZip := fun _ => .error "File is not a zip file"

/-- A document imported again with its UUID in lower case is stored twice. -/
theorem lower_case_stored_twice : ¬ VaultLaw spellingHost
    [.importXmlBytes (stampedXml 65) "upper.xml", .importXmlBytes (stampedXml 97) "lower.xml"] := by
  rintro ⟨htwins, -⟩
  have huuids : (runCalls spellingHost [.importXmlBytes (stampedXml 65) "upper.xml",
      .importXmlBytes (stampedXml 97) "lower.xml"]).invoices.map (·.uuid) = ["A", "a"] := by
    decide +kernel
  have hpair : ((runCalls spellingHost [.importXmlBytes (stampedXml 65) "upper.xml",
      .importXmlBytes (stampedXml 97) "lower.xml"]).invoices.map (·.uuid)).Pairwise
        fun a b => ¬ SameLetters spellingHost a b := List.pairwise_map.mpr htwins
  rw [huuids] at hpair
  exact (List.pairwise_cons.mp hpair).1 _ (List.mem_singleton_self _) (by decide +kernel)

end Vault

end CfdiVault
