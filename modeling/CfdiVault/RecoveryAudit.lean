import CfdiVault.Library.EventLog
import CfdiVault.RecoveryRuns

/-!
# The audit log

The ledger rows of one document in several directions share the events of the document,
and no event names a direction.  Still every event belongs to one row: a turn moves the
state of at most one row, and appends one event exactly if it moves (`Moved`).  So the
events of a document can be told apart into one chain for each of its rows.
-/

namespace CfdiVault

namespace Recovery

/-! ## What a turn does to the states -/

/-- The reconciliation state of a ledger row. -/
def stateOf (tenantId uuid direction : String) (d : Db) : Option String :=
  (findLedger tenantId uuid direction d).map (·.reconciliationState)

/-- The states stay, and so does the log, or the state of one row is set, with an event if
it changes. -/
def Moved (d e : Db) : Prop :=
  ((∀ t u x, stateOf t u x e = stateOf t u x d) ∧ e.reconciliationEvents = d.reconciliationEvents) ∨
  ∃ tenantId uuid direction state,
    (∀ t u x, stateOf t u x e =
      if t = tenantId ∧ u = uuid ∧ x = direction then some state else stateOf t u x d) ∧
    Audited tenantId uuid (stateOf tenantId uuid direction d) state d e

theorem LedgerAt.stateOf {tenantId uuid direction : String} {row : CfdiMetadataLedger} {d e : Db}
    (h : LedgerAt tenantId uuid direction (some row) d e) (t u x : String) :
    stateOf t u x e = if t = tenantId ∧ u = uuid ∧ x = direction then some row.reconciliationState
      else stateOf t u x d := by
  unfold Recovery.stateOf
  rw [h t u x]
  split <;> rfl

/-- Every turn moves at most one state. -/
theorem Action.Writes.moved {rt : Runtime} {action : Action} {d : Db} {writes : List Write}
    (h : action.Writes rt d writes) : Moved d (applyAll writes d) := by
  cases action with
  | ingest q entry metadataSha256 =>
      have heffect := EntryWrites.effect h
      obtain ⟨row, -, hstate, hat⟩ := heffect.ledger
      refine .inr ⟨_, _, _, row.reconciliationState, hat.stateOf, ?_⟩
      rw [hstate]
      exact heffect.audit
  | load q uuid xmlSha256 =>
      have heffect := LoadWrites.effect h
      have hat := heffect.ledger
      have haudit := heffect.audit
      cases hfound : findLedger q.tenantId uuid q.direction.value d with
      | none =>
          rw [hfound] at hat haudit
          refine .inl ⟨fun t u x => ?_, haudit⟩
          unfold stateOf
          rw [hat t u x]
          split_ifs with hkey
          · obtain ⟨rfl, rfl, rfl⟩ := hkey
            rw [hfound]
            rfl
          · rfl
      | some row =>
          rw [hfound] at hat haudit
          refine .inr ⟨_, _, _, _, hat.stateOf, ?_⟩
          unfold stateOf
          rw [hfound]
          exact haudit
  | reconcile tenantId uuid direction =>
      obtain ⟨row, hfound, hwrites⟩ := h
      obtain ⟨-, rfl, rfl, rfl⟩ := findLedger_spec hfound
      have heffect := hwrites.effect hfound
      refine .inr ⟨_, _, _, _, heffect.ledger.stateOf, ?_⟩
      unfold stateOf
      rw [hfound]
      exact heffect.audit

/-! ## Chains -/

/-- The audit events of a document, in the order of their ids. -/
def eventsOf (tenantId uuid : String) (d : Db) : List ReconciliationEvent :=
  d.reconciliationEvents.filter fun event => event.tenantId = tenantId ∧ event.uuid = uuid

/-- The events of every document are the histories of its ledger rows. -/
def AuditExplains (d : Db) : Prop :=
  ∀ tenantId uuid, EventLog.Explains (·.previousState) (·.newState) (eventsOf tenantId uuid d)
    fun direction => stateOf tenantId uuid direction d

theorem eventsOf_append {t u tenantId uuid next : String} {previous : Option String} {d e : Db}
    {event : ReconciliationEvent} (h : IsAudit tenantId uuid previous next event)
    (happend : e.reconciliationEvents = d.reconciliationEvents ++ [event]) :
    eventsOf t u e = eventsOf t u d ++ if t = tenantId ∧ u = uuid then [event] else [] := by
  unfold eventsOf
  rw [happend, List.filter_append, List.filter_singleton, h.tenantOf, h.uuidOf]
  simp only [eq_comm (a := t), eq_comm (a := u), Bool.cond_decide]

/-- A move keeps the log explained. -/
theorem Moved.explains {d e : Db} (h : Moved d e) (hd : AuditExplains d) : AuditExplains e := by
  intro t u
  have hold := hd t u
  rcases h with ⟨hstates, hevents⟩ | ⟨tenantId, uuid, direction, state, hstates, haudited⟩
  · have hsame : (fun x => stateOf t u x e) = fun x => stateOf t u x d := funext fun x => hstates t u x
    rw [hsame, show eventsOf t u e = eventsOf t u d by unfold eventsOf; rw [hevents]]
    exact hold
  · unfold Audited at haudited
    split_ifs at haudited with hstays
    · -- the state stays what it was
      have hsame : (fun x => stateOf t u x e) = fun x => stateOf t u x d := by
        funext x
        rw [hstates]
        split_ifs with hkey
        · obtain ⟨rfl, rfl, rfl⟩ := hkey
          exact hstays.symm
        · rfl
      rw [hsame, show eventsOf t u e = eventsOf t u d by unfold eventsOf; rw [haudited]]
      exact hold
    · obtain ⟨event, his, happend⟩ := haudited
      rw [eventsOf_append his happend]
      by_cases hdocument : t = tenantId ∧ u = uuid
      · obtain ⟨rfl, rfl⟩ := hdocument
        rw [if_pos ⟨rfl, rfl⟩]
        refine @EventLog.Explains.append _ _ _ _ _ _ _ _ _ direction _ hold his.previousOf
            (his.nextOf ▸ hstays) ?_ fun x hx => ?_
        · rw [hstates, if_pos ⟨rfl, rfl, rfl⟩, his.nextOf]
        · rw [hstates, if_neg fun hkey => hx hkey.2.2]
      · have hsame : (fun x => stateOf t u x e) = fun x => stateOf t u x d := by
          funext x
          rw [hstates, if_neg fun hkey => hdocument ⟨hkey.1, hkey.2.1⟩]
        rw [if_neg hdocument, List.append_nil, hsame]
        exact hold

theorem auditExplains {rt : Runtime} {d : Db} (h : Reachable rt d) : AuditExplains d := by
  refine h.holds (fun _ _ => .empty) (fun d e hsame hd t u => ?_) fun _ _ _ hwrites hd =>
    hwrites.moved.explains hd
  have hevents : eventsOf t u e = eventsOf t u d := by
    unfold eventsOf
    rw [hsame.reconciliationEvents]
  have hstates : (fun x => stateOf t u x e) = fun x => stateOf t u x d := by
    funext x
    unfold stateOf
    rw [hsame.findLedger]
  rw [hevents, hstates]
  exact hd t u

/-! ## The log explains the ledger -/

/-- The ledger rows of a document, one for each direction. -/
def ledgerRowsOf (tenantId uuid : String) (d : Db) : List CfdiMetadataLedger :=
  d.ledger.filter fun row => row.tenantId = tenantId ∧ row.uuid = uuid

/-- The events of a document, in id order, are partitioned by the directions of its ledger
rows into one chain for each row. -/
structure Explained (tenantId uuid : String) (d : Db) (tagged : List (String × ReconciliationEvent)) :
    Prop where
  events : tagged.map (·.2) = eventsOf tenantId uuid d
  directions : ((ledgerRowsOf tenantId uuid d).map (·.direction)).Nodup
  tags : ∀ item ∈ tagged, ∃ row ∈ ledgerRowsOf tenantId uuid d, row.direction = item.1
  chains : ∀ row ∈ ledgerRowsOf tenantId uuid d, EventLog.Chain (·.previousState) (·.newState)
    (EventLog.under row.direction tagged) row.reconciliationState

/-- In every database that calls lead to, the audit log explains the ledger. -/
theorem audit_explains_ledger {rt : Runtime} {d : Db} (h : Reachable rt d) (tenantId uuid : String) :
    ∃ tagged, Explained tenantId uuid d tagged := by
  obtain ⟨tagged, hevents, hhistory⟩ := auditExplains h tenantId uuid
  have hunique := h.unique
  have hmem : ∀ row ∈ ledgerRowsOf tenantId uuid d,
      row ∈ d.ledger ∧ row.tenantId = tenantId ∧ row.uuid = uuid := by
    intro row hrow
    simpa [ledgerRowsOf] using hrow
  refine ⟨tagged, hevents, ?_, fun item hitem => ?_, fun row hrow => ?_⟩
  · refine List.pairwise_map.mpr (List.Pairwise.imp_of_mem ?_ (hunique.ledger.sublist List.filter_sublist))
    intro a b ha hb hne hsame
    obtain ⟨-, htenant, huuid⟩ := hmem a ha
    obtain ⟨-, htenant', huuid'⟩ := hmem b hb
    exact hne ⟨htenant.trans htenant'.symm, huuid.trans huuid'.symm, hsame⟩
  · have hevent : item.2 ∈ EventLog.under item.1 tagged := EventLog.mem_under.mpr hitem
    have hsome : (stateOf tenantId uuid item.1 d).isSome :=
      (hhistory item.1).isSome (List.ne_nil_of_mem hevent)
    rw [stateOf, Option.isSome_map] at hsome
    obtain ⟨row, hfound⟩ := Option.isSome_iff_exists.mp hsome
    obtain ⟨hrow, htenant, huuid, hdirection⟩ := findLedger_spec hfound
    exact ⟨row, List.mem_filter.mpr ⟨hrow, decide_eq_true ⟨htenant, huuid⟩⟩, hdirection⟩
  · obtain ⟨hrow, htenant, huuid⟩ := hmem row hrow
    have hfound := findLedger_of_mem hunique hrow ⟨htenant, huuid, rfl⟩
    have hstate : stateOf tenantId uuid row.direction d = some row.reconciliationState := by
      rw [stateOf, hfound]
      rfl
    have hchain := hhistory row.direction
    dsimp only at hchain
    rwa [hstate] at hchain

section Sample

theorem audit_explains_ledger_sample :
    ∃ tagged, Explained "tenant-a" "UUID-1" ((Call.ingest januaryQuery [] none "").world
      (metadataEnv [januaryEntry "UUID-1" "vigente"]) (sampleWorld {})).db tagged :=
  audit_explains_ledger (@ReachableBy.call sampleHost _ _ _ .start rfl _ trivial) "tenant-a" "UUID-1"

end Sample

end Recovery

end CfdiVault
