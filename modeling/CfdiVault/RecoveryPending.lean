import CfdiVault.RecoveryAudit
import CfdiVault.RecoveryEvidence

/-!
# Status changes that wait for confirmation

A row of the ledger without XML is in the state that was decided by its latest report: the
status of a metadata entry, compared with the status before it, or a reconciliation, which
knows no status before.  The write that puts a changed status on the row forgets the one it
replaces, so the next report decides without the change, and the row stays in the state that
waits for a confirmation only as long as its reports need one by themselves
(`changesRemembered_iff`).
-/

namespace CfdiVault

namespace Recovery

open Reconciliation

/-! ## The reports of a row -/

/-- What a turn reports for a row of the ledger: a status of its metadata, or that the row
is reconciled. -/
inductive Report where
  | status (status : String)
  | reconciled

/-- The report of a turn for the row under a key. -/
def Action.report (tenantId uuid direction : String) : Action → Option Report
  | .ingest q entry _ =>
      if tenantId = q.tenantId ∧ uuid = entry.uuid ∧ direction = q.direction.value then
        some (.status entry.status)
      else none
  | .load .. => none
  | .reconcile t u x =>
      if tenantId = t ∧ uuid = u ∧ direction = x then some .reconciled else none

/-- The reports of a run for the row under a key, the latest first. -/
def reports (tenantId uuid direction : String) (actions : List Action) : List Report :=
  (actions.filterMap (Action.report tenantId uuid direction)).reverse

/-- The status that was reported last. -/
def lastStatus : List Report → Option String
  | [] => none
  | .status status :: _ => some status
  | .reconciled :: earlier => lastStatus earlier

/-- The state of a row without XML after its reports. -/
def decidedState (rt : Runtime) : List Report → Option String
  | [] => none
  | .status status :: earlier =>
      some (decideMetadataState rt status false (lastStatus earlier).isNone (lastStatus earlier)).state.value
  | .reconciled :: earlier =>
      (lastStatus earlier).map fun status => (decideMetadataState rt status false).state.value

/-- The row under a key is as its reports have left it. -/
structure Reported (rt : Runtime) (tenantId uuid direction : String) (reports : List Report) (d : Db) :
    Prop where
  status : (findLedger tenantId uuid direction d).map (·.status) = (lastStatus reports).map some
  state : ¬ HasXml tenantId uuid d → stateOf tenantId uuid direction d = decidedState rt reports

section Step

variable {rt : Runtime} {t u x : String} {earlier : List Report} {d e : Db}

theorem Reported.congr (hsame : SameBooks d e) (h : Reported rt t u x earlier d) :
    Reported rt t u x earlier e := by
  refine ⟨?_, fun hxml => ?_⟩
  · rw [hsame.findLedger]
    exact h.status
  · rw [HasXml, hsame.evidence] at hxml
    rw [stateOf, hsame.findLedger]
    exact h.state hxml

/-- A row that a turn does not touch keeps its reports. -/
theorem Reported.untouched (hrow : findLedger t u x e = findLedger t u x d)
    (hxml : HasXml t u d → HasXml t u e) (h : Reported rt t u x earlier d) :
    Reported rt t u x earlier e := by
  refine ⟨?_, fun hnot => ?_⟩
  · rw [hrow]
    exact h.status
  · rw [stateOf, hrow]
    exact h.state (mt hxml hnot)

theorem hasXml_eq_false (h : ¬ HasXml t u d) : hasXml t u d = false :=
  Bool.eq_false_iff.mpr fun hxml => h (hasXml_eq_true.mp hxml)

/-- The status before an entry is the one that was reported last. -/
theorem Reported.previous (h : Reported rt t u x earlier d) :
    (findLedger t u x d).isNone = (lastStatus earlier).isNone ∧
      (findLedger t u x d).bind (·.status) = lastStatus earlier := by
  have hstatus := h.status
  cases hfound : findLedger t u x d with
  | none =>
      rw [hfound] at hstatus
      cases hlast : lastStatus earlier with
      | none => exact ⟨rfl, rfl⟩
      | some status =>
          rw [hlast] at hstatus
          cases hstatus
  | some row =>
      rw [hfound] at hstatus
      cases hlast : lastStatus earlier with
      | none =>
          rw [hlast] at hstatus
          cases hstatus
      | some status =>
          rw [hlast] at hstatus
          exact ⟨rfl, Option.some.inj hstatus⟩

theorem EntryEffect.reported {q : DownloadQuery} {entry : MetadataEntry} {metadataSha256 : String}
    (heffect : EntryEffect rt q entry metadataSha256 d e) (h : Reported rt t u x earlier d) :
    Reported rt t u x (((Action.ingest q entry metadataSha256).report t u x).toList ++ earlier) e := by
  obtain ⟨row, hcarries, hstate, hat⟩ := heffect.ledger
  have hxml : HasXml t u e ↔ HasXml t u d := by rw [HasXml, heffect.evidence, HasXml]
  rw [Action.report]
  split_ifs with hkey
  · obtain ⟨rfl, rfl, rfl⟩ := hkey
    refine ⟨?_, fun hnot => ?_⟩
    · rw [hat, if_pos ⟨rfl, rfl, rfl⟩]
      exact congrArg some hcarries.status
    · rw [hat.stateOf, if_pos ⟨rfl, rfl, rfl⟩, hstate, entryState, entryRow,
        hasXml_eq_false (mt hxml.mpr hnot), h.previous.1, h.previous.2]
      rfl
  · refine h.untouched ?_ hxml.mpr
    rw [hat, if_neg hkey]

theorem LoadEffect.reported {q : DownloadQuery} {uuid xmlSha256 : String}
    (heffect : LoadEffect q uuid xmlSha256 d e) (h : Reported rt t u x earlier d) :
    Reported rt t u x earlier e := by
  have hxml : HasXml t u e ↔ HasXml t u d ∨ (t = q.tenantId ∧ u = uuid) := by
    rw [← hasXml_eq_true, heffect.hasXml_iff, hasXml_eq_true]
  by_cases hkey : t = q.tenantId ∧ u = uuid
  · refine ⟨?_, fun hnot => absurd (hxml.mpr (.inr hkey)) hnot⟩
    rw [← h.status, heffect.ledger]
    split_ifs with hrow
    · obtain ⟨rfl, rfl, rfl⟩ := hrow
      rw [Option.map_map]
      rfl
    · rfl
  · refine h.untouched ?_ fun hhas => hxml.mpr (.inl hhas)
    rw [heffect.ledger, if_neg fun hrow => hkey ⟨hrow.1, hrow.2.1⟩]

theorem ReconcileEffect.reported {row : CfdiMetadataLedger}
    (heffect : ReconcileEffect row (reconciledState rt row d) d e)
    (hfound : findLedger row.tenantId row.uuid row.direction d = some row) (hbooks : XmlBooks d)
    (h : Reported rt t u x earlier d) :
    Reported rt t u x
      (((Action.reconcile row.tenantId row.uuid row.direction).report t u x).toList ++ earlier) e := by
  have hxml : HasXml t u e ↔ HasXml t u d := by rw [HasXml, heffect.evidence, HasXml]
  rw [Action.report]
  split_ifs with hkey
  · obtain ⟨rfl, rfl, rfl⟩ := hkey
    have hstatus := h.status
    refine ⟨?_, fun hnot => ?_⟩
    · rw [heffect.ledger, if_pos ⟨rfl, rfl, rfl⟩]
      rw [hfound] at hstatus
      exact hstatus
    · have hsha : hasXmlSha (findDocument row.tenantId row.uuid d) = false :=
        Bool.eq_false_iff.mpr fun hsha =>
          hnot (hxml.mpr (hasXml_eq_true.mp (hbooks.hasXmlSha_iff.mp hsha)))
      rw [heffect.ledger.stateOf, if_pos ⟨rfl, rfl, rfl⟩]
      rw [hfound] at hstatus
      cases hlast : lastStatus earlier with
      | none =>
          rw [hlast] at hstatus
          cases hstatus
      | some status =>
          rw [hlast] at hstatus
          have hrow : row.status = some status := Option.some.inj hstatus
          change some (reconciledState rt row d) = (lastStatus earlier).map _
          rw [hlast, reconciledState, hsha, hrow]
          rfl
  · refine h.untouched ?_ hxml.mpr
    rw [heffect.ledger, if_neg hkey]

/-- A turn adds its report. -/
theorem Reported.step {action : Action} {writes : List Write} (hwrites : action.Writes rt d writes)
    (hbooks : XmlBooks d) (h : Reported rt t u x earlier d) :
    Reported rt t u x ((action.report t u x).toList ++ earlier) (applyAll writes d) := by
  cases action with
  | ingest q entry metadataSha256 => exact (EntryWrites.effect hwrites).reported h
  | load q uuid xmlSha256 => exact (LoadWrites.effect hwrites).reported h
  | reconcile tenantId uuid direction =>
      obtain ⟨row, hfound, hrow⟩ := hwrites
      obtain ⟨-, rfl, rfl, rfl⟩ := findLedger_spec hfound
      exact (hrow.effect hfound).reported hfound hbooks h

end Step

section Runs

variable {rt : Runtime} {Made : Env → Call → Prop} {Allowed : Action → Db → Prop} {t u x : String}
variable {earlier : List Report} {actions : List Action} {d e : Db}

theorem Steps.reported (hsteps : Steps rt Allowed actions d e)
    (hdigested : ∀ action ∈ actions, action.Digested) (hbooks : XmlBooks d)
    (h : Reported rt t u x earlier d) : Reported rt t u x (reports t u x actions ++ earlier) e := by
  induction hsteps generalizing earlier with
  | nil hsame => exact h.congr hsame
  | @cons action rest d e writes _ hwrites _ ih =>
      obtain ⟨hdigest, hrest⟩ := List.forall_mem_cons.mp hdigested
      have hlater := ih hrest (hbooks.step hdigest hwrites) (h.step hwrites hbooks)
      have hreports : reports t u x (action :: rest) =
          reports t u x rest ++ (action.report t u x).toList := by
        unfold reports
        rw [List.filterMap_cons]
        cases action.report t u x with
        | none => exact (List.append_nil _).symm
        | some report => exact List.reverse_cons
      rwa [hreports, List.append_assoc]

/-- After a run every row is as its reports have left it. -/
theorem Run.reported (h : Run rt Made Allowed actions d) :
    Reported rt t u x (reports t u x actions) d := by
  induction h with
  | start => exact ⟨rfl, fun _ => rfl⟩
  | call hbefore _ _ hturns hsteps ih =>
      have hlater := hsteps.reported hturns.digested hbefore.xmlBooks ih
      rwa [reports, List.filterMap_append, List.reverse_append]

end Runs

/-! ## Changes and their confirmation -/

section Changes

variable (rt : Runtime)

/-- A status that a decision without XML takes for one to be confirmed, unless it is
cancelled. -/
def NeedsConfirmation (status : String) (previousStatus : Option String) : Prop :=
  normalized rt status ∈ TRANSIENT_STATUSES ∨ statusChanged rt status previousStatus = true

/-- A status changed to one that is neither cancelled nor transient, from another that is
not transient. -/
def ActiveChange (status : String) (previousStatus : Option String) : Prop :=
  statusChanged rt status previousStatus = true ∧ normalized rt status ∉ TRANSIENT_STATUSES ∧
    ∀ previous ∈ previousStatus, normalized rt previous ∉ TRANSIENT_STATUSES

/-- The reports of a row hold such a change, and no cancelled status since. -/
def Unconfirmed : List Report → Prop
  | [] => False
  | .status status :: earlier => normalized rt status ∉ CANCELLED_STATUSES ∧
      (ActiveChange rt status (lastStatus earlier) ∨ Unconfirmed earlier)
  | .reconciled :: earlier => Unconfirmed earlier

/-- The latest report of a row needs confirmation by itself.  A reconciliation knows no
status before the one on the row. -/
def Reconfirmed : List Report → Prop
  | [] => False
  | .status status :: earlier => NeedsConfirmation rt status (lastStatus earlier)
  | .reconciled :: earlier => ∃ status ∈ lastStatus earlier, NeedsConfirmation rt status none

/-- Every row whose status changed, with neither a cancelled status nor XML since, is in the
state that waits for confirmation. -/
def ChangesRemembered (actions : List Action) (d : Db) : Prop :=
  ∀ tenantId uuid direction, Unconfirmed rt (reports tenantId uuid direction actions) →
    ¬ HasXml tenantId uuid d →
    stateOf tenantId uuid direction d = some ReconciliationState.stateCheckPending.value

variable {rt}

theorem decide_pending_iff {status : String} {isNew : Bool} {previousStatus : Option String}
    (hactive : normalized rt status ∉ CANCELLED_STATUSES) :
    (decideMetadataState rt status false isNew previousStatus).state.value =
        ReconciliationState.stateCheckPending.value ↔
      NeedsConfirmation rt status previousStatus := by
  unfold decideMetadataState NeedsConfirmation
  rw [if_neg Bool.false_ne_true, if_neg hactive]
  split_ifs with hneeds hnew
  · exact iff_of_true rfl hneeds
  · exact iff_of_false (by decide) hneeds
  · exact iff_of_false (by decide) hneeds

/-- The status of a row whose change is not confirmed is not cancelled. -/
theorem Unconfirmed.lastStatus {reports : List Report} (h : Unconfirmed rt reports) :
    ∃ status, lastStatus reports = some status ∧ normalized rt status ∉ CANCELLED_STATUSES := by
  induction reports with
  | nil => exact h.elim
  | cons report earlier ih =>
      cases report with
      | status status => exact ⟨status, rfl, h.1⟩
      | reconciled => exact ih h

/-- An unconfirmed change is remembered exactly if the latest report needs confirmation. -/
theorem Unconfirmed.decided_iff {reports : List Report} (h : Unconfirmed rt reports) :
    decidedState rt reports = some ReconciliationState.stateCheckPending.value ↔
      Reconfirmed rt reports := by
  cases reports with
  | nil => exact h.elim
  | cons report earlier =>
      cases report with
      | status status => exact Option.some_inj.trans (decide_pending_iff h.1)
      | reconciled =>
          obtain ⟨status, hlast, hactive⟩ := @Unconfirmed.lastStatus _ earlier h
          rw [decidedState, Reconfirmed, hlast]
          refine (Option.some_inj.trans (decide_pending_iff hactive)).trans ⟨fun hneeds => ?_, ?_⟩
          · exact ⟨status, rfl, hneeds⟩
          · rintro ⟨other, hother, hneeds⟩
            rw [Option.mem_some.mp hother]
            exact hneeds

end Changes

/-- Wherever a run leads, the unconfirmed changes are remembered exactly if the latest report
of every row that has one and no XML needs confirmation by itself. -/
theorem changesRemembered_iff {rt : Runtime} {Made : Env → Call → Prop} {Allowed : Action → Db → Prop}
    {actions : List Action} {d : Db} (h : Run rt Made Allowed actions d) :
    ChangesRemembered rt actions d ↔
      ∀ tenantId uuid direction, Unconfirmed rt (reports tenantId uuid direction actions) →
        ¬ HasXml tenantId uuid d → Reconfirmed rt (reports tenantId uuid direction actions) := by
  refine forall_congr' fun t => forall_congr' fun u => forall_congr' fun x => ?_
  refine forall_congr' fun hunconfirmed => forall_congr' fun hxml => ?_
  rw [@Run.reported _ _ _ t u x _ _ h |>.state hxml]
  exact hunconfirmed.decided_iff

/-! ## A change that a reconciliation forgets -/

section Sample

/-- Ingestion of a file and reconciliation. -/
def OfLedger : Env → Call → Prop
  | _, .ingest .. | _, .reconcile .. => True
  | _, _ => False

/-- The ingestion of a file for the query of January 2024. -/
def januaryFile : Call := .ingest januaryQuery [] none ""

/-- The file holds one invoice, with the given status. -/
def statusEnv (status : String) : Env := metadataEnv [januaryEntry "UUID-1" status]

/-- The turns of that file. -/
def statusTurns (status : String) : List Action :=
  ingestion januaryQuery [januaryEntry "UUID-1" status] (sha256Bytes (statusEnv status) [])

/-- The database after that file. -/
def statusDb (status : String) (d : Db) : Db := (januaryFile.world (statusEnv status) (sampleWorld d)).db

/-- The file is ingested in a run. -/
theorem status_run {status : String} {actions : List Action} {d : Db}
    (hok : ((ingestMetadataFile (statusEnv status) januaryQuery [] none "").exec
      (sampleWorld d)).1.toOption.isSome = true)
    (h : Run sampleHost OfLedger (fun _ _ => True) actions d) :
    Run sampleHost OfLedger (fun _ _ => True) (actions ++ statusTurns status) (statusDb status d) := by
  have hspec := @ingestMetadataFile_turns (statusEnv status) januaryQuery _ [] none "" (sampleWorld d) rfl
  have hworld : statusDb status d =
      ((ingestMetadataFile (statusEnv status) januaryQuery [] none "").exec (sampleWorld d)).2.db := rfl
  rcases hx : (ingestMetadataFile (statusEnv status) januaryQuery [] none "").exec (sampleWorld d)
    with ⟨e | result, w⟩
  · rw [hx] at hok
    cases hok
  · rw [hx] at hspec hworld
    obtain ⟨parsed, hparsed, hsteps⟩ := hspec
    cases hparsed
    rw [← hworld] at hsteps
    have hturns : Turns (statusEnv status) (sampleWorld d) januaryFile (statusTurns status) :=
      @Turns.ingest (statusEnv status) (sampleWorld d) januaryQuery [] none ""
        ⟨[januaryEntry "UUID-1" status], []⟩ rfl
    exact @Run.call _ _ _ (statusEnv status) (sampleWorld d) _ _ januaryFile h rfl trivial hturns hsteps

theorem vigente_run : Run sampleHost OfLedger (fun _ _ => True) ([] ++ statusTurns "vigente")
    (statusDb "vigente" {}) :=
  status_run (by decide +kernel) .start

theorem changesRemembered_iff_sample :
    ChangesRemembered sampleHost ([] ++ statusTurns "vigente") (statusDb "vigente" {}) ↔
      ∀ tenantId uuid direction,
        Unconfirmed sampleHost (reports tenantId uuid direction ([] ++ statusTurns "vigente")) →
        ¬ HasXml tenantId uuid (statusDb "vigente" {}) →
        Reconfirmed sampleHost (reports tenantId uuid direction ([] ++ statusTurns "vigente")) :=
  changesRemembered_iff vigente_run

/-- The database after the status of the invoice changed. -/
def changedDb : Db := statusDb "activo" (statusDb "vigente" {})

/-- A reconciliation takes an invoice whose status changed for one whose XML is to be
downloaded. -/
theorem reconciled_change_forgotten :
    ¬ ∀ rt actions d, Run rt OfLedger (fun _ _ => True) actions d → ChangesRemembered rt actions d := by
  intro h
  have hchanged := @status_run "activo" _ _ (by decide +kernel) vigente_run
  have hspec := @reconcile_turns (sampleEnv []) _ none hchanged.unique (sampleWorld changedDb) rfl
  have hforgotten : stateOf "tenant-a" "UUID-1" "received"
        ((reconcile (sampleEnv []) none).exec (sampleWorld changedDb)).2.db =
          some ReconciliationState.xmlPending.value ∧
      hasXml "tenant-a" "UUID-1" ((reconcile (sampleEnv []) none).exec (sampleWorld changedDb)).2.db =
        false ∧
      ((reconcile (sampleEnv []) none).exec (sampleWorld changedDb)).1.toOption.isSome = true ∧
      ((ledgerOf none changedDb).map fun row => (row.tenantId, row.uuid, row.direction)) =
        [("tenant-a", "UUID-1", "received")] := by decide +kernel
  obtain ⟨hstate, hxml, hok, hrows⟩ := hforgotten
  have hturns : (ledgerOf none changedDb).map rowAction = [.reconcile "tenant-a" "UUID-1" "received"] := by
    have hactions := congrArg (List.map fun key => Action.reconcile key.1 key.2.1 key.2.2) hrows
    rwa [List.map_map] at hactions
  rcases hx : (reconcile (sampleEnv []) none).exec (sampleWorld changedDb) with ⟨e | count, w⟩
  · rw [hx] at hok
    cases hok
  · rw [hx] at hspec
    have hafter : ((Call.reconcile none).world (sampleEnv []) (sampleWorld changedDb)).db = w.db :=
      congrArg (·.2.db) hx
    have hsteps : FreeSteps sampleHost [.reconcile "tenant-a" "UUID-1" "received"] changedDb
        ((Call.reconcile none).world (sampleEnv []) (sampleWorld changedDb)).db := by
      rw [hafter, ← hturns]
      exact hspec
    have hreconciled : Turns (sampleEnv []) (sampleWorld changedDb) (.reconcile none)
        [.reconcile "tenant-a" "UUID-1" "received"] := by
      rw [← hturns]
      exact .reconcile
    have hrun := @Run.call _ _ _ (sampleEnv []) (sampleWorld changedDb) _ _ (.reconcile none) hchanged
      rfl trivial hreconciled hsteps
    have hunconfirmed : Unconfirmed sampleHost (reports "tenant-a" "UUID-1" "received"
        ([] ++ statusTurns "vigente" ++ statusTurns "activo" ++
          [.reconcile "tenant-a" "UUID-1" "received"])) := by
      change Unconfirmed sampleHost [.reconciled, .status "activo", .status "vigente"]
      refine ⟨by decide +kernel, .inl ⟨by decide +kernel, by decide +kernel, ?_⟩⟩
      rintro _ ⟨⟩
      decide +kernel
    have hkept := h _ _ _ hrun "tenant-a" "UUID-1" "received" hunconfirmed
      fun hhas => Bool.false_ne_true (hxml.symm.trans (hasXml_eq_true.mpr hhas))
    exact absurd (hstate.symm.trans hkept) (by decide)

end Sample

end Recovery

end CfdiVault
