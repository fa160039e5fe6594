import CfdiVault.QueueMessages
import CfdiVault.RecoveryBacked

/-!
# References over runs with a queue

A message of the queue names a tenant and a job, and so do the rows that its processing adds.  Messages
arrive late, repeatedly, and with their payload in another order; still they are about a tenant and a job
that were durable when they were published, and nothing durable is ever lost.
-/

namespace CfdiVault

namespace Recovery

/-! ## Messages -/

/-- The query that is read from a payload is for the tenant that the payload names. -/
theorem tenant_of_payload {q : DownloadQuery} {text : Json → String} {payload : List (String × Json)}
    (h : queryFromPayload text payload = .ok q) : requiredText text payload "tenant_id" = .ok q.tenantId := by
  unfold queryFromPayload at h
  obtain ⟨period, -, h⟩ := Checked.bind_eq_ok.mp h
  obtain ⟨tenantId, htenant, h⟩ := Checked.bind_eq_ok.mp h
  obtain ⟨requesterRfc, -, h⟩ := Checked.bind_eq_ok.mp h
  obtain ⟨directionWord, -, h⟩ := Checked.bind_eq_ok.mp h
  obtain ⟨direction, -, h⟩ := Checked.bind_eq_ok.mp h
  obtain ⟨requestWord, -, h⟩ := Checked.bind_eq_ok.mp h
  obtain ⟨requestType, -, h⟩ := Checked.bind_eq_ok.mp h
  obtain ⟨receiverRfcs, -, h⟩ := Checked.bind_eq_ok.mp h
  cases Except.ok.inj h
  exact htenant

/-- A published message as a queue delivers it: as it was sent, or with the members of its payload in the
order of their names. -/
structure Delivered (sent message : QueueMessage) : Prop where
  jobId : message.jobId = sent.jobId
  payload : message.payload = sent.payload ∨ message.payload = Json.sortMembers sent.payload

/-- A message that is delivered is processed for the tenant and the job that it was sent for. -/
theorem Delivered.tenant {sent message : QueueMessage} {rt : Runtime} {asked q : DownloadQuery} {other : Json → String}
    (h : Delivered sent message) (hsent : sent.payload = queryPayload rt asked)
    (hquery : queryFromPayload (Json.toText other) message.payload = .ok q) : q.tenantId = asked.tenantId := by
  have htext : requiredText (Json.toText other) message.payload "tenant_id" = .ok asked.tenantId := by
    rcases h.payload with hpayload | hpayload
    · rw [hpayload, hsent]
      rfl
    · rw [hpayload, hsent, requiredText, Json.lookup_sortMembers queryPayload_keys]
      rfl
  exact Except.ok.inj ((tenant_of_payload hquery).symm.trans htext)

/-- The messages that a call publishes. -/
def Call.sent (env : Env) (w : World) : Call → List QueueMessage
  | .sync q live true => ((Call.sync q live true).world env w).queue.drop w.queue.length
  | _ => []

/-- The databases that calls lead to, in any order and number, with the messages published on the way.  A
message is processed after it was published, as often as it is delivered. -/
inductive Serviced (rt : Runtime) : List QueueMessage → Db → Prop
  | start : Serviced rt [] {}
  | call {env : Env} {w : World} {sent : List QueueMessage} (h : Serviced rt sent w.db) (hrt : env.rt = rt)
      (call : Call) (hdelivered : ∀ message, call = .message message → ∃ first ∈ sent, Delivered first message) :
      Serviced rt (sent ++ call.sent env w) (call.world env w).db

theorem found_of_prefix {α κ : Type} {key : α → κ} {rows rows' : List α} (h : rows.map key <+: rows'.map key)
    {row : α} (hrow : row ∈ rows) : ∃ row' ∈ rows', key row' = key row :=
  List.mem_map.mp (h.subset (List.mem_map_of_mem hrow))

/-- Nothing is lost, so what a row refers to stays there. -/
theorem Grows.resolved {d e : Db} (h : Grows d e) {ref : Ref} (href : owners.Resolved (rowsOf d) ref) :
    owners.Resolved (rowsOf e) ref := by
  obtain ⟨row, hrow, hprovides⟩ := href
  cases row <;> cases ref <;> first | exact hprovides.elim | skip
  case tenant.tenant row id =>
    obtain ⟨row', hrow', hkey⟩ := found_of_prefix h.tenants hrow
    exact ⟨.tenant row', hrow', hkey.trans hprovides⟩
  case job.job row id =>
    obtain ⟨row', hrow', hkey⟩ := found_of_prefix h.jobs hrow
    exact ⟨.job row', hrow', (congrArg DownloadJob.id hkey).trans hprovides⟩
  case job.jobOf row id tenantId =>
    obtain ⟨row', hrow', hkey⟩ := found_of_prefix h.jobs hrow
    exact ⟨.job row', hrow', (congrArg DownloadJob.id hkey).trans hprovides.1,
      (congrArg DownloadJob.tenantId hkey).trans hprovides.2⟩
  case request.request row tenantId idSolicitud => exact ⟨.request row, h.requests.subset hrow, hprovides⟩
  case document.document row tenantId uuid =>
    obtain ⟨row', hrow', hkey⟩ := found_of_prefix h.documents hrow
    obtain ⟨htenant, huuid⟩ := Prod.mk.inj hkey
    exact ⟨.document row', hrow', htenant.trans hprovides.1, huuid.trans hprovides.2⟩
  case ledger.ledger row tenantId uuid =>
    obtain ⟨row', hrow', hkey⟩ := found_of_prefix h.ledger hrow
    obtain ⟨htenant, hrest⟩ := Prod.mk.inj hkey
    exact ⟨.ledger row', hrow', htenant.trans hprovides.1, (Prod.mk.inj hrest).1.trans hprovides.2⟩

theorem Asked.later {d e : Db} {message : QueueMessage} (h : Asked d message) (hbacked : Backed [] e)
    (hgrows : Grows d e) : Asked e message := by
  obtain ⟨rt, q, hpayload, hd⟩ := h
  exact ⟨rt, q, hpayload, hbacked.closed, fun ref href => hgrows.resolved (hd.known ref href)⟩

section Calls

variable {env : Env} {w : World} {sent : List QueueMessage}

theorem Call.sync_leaves {q : DownloadQuery} {live enqueue : Bool} (hw : Backed [] w.db) :
    SyncLeaves enqueue w.queue ((Call.sync q live enqueue).world env w) := by
  have hspec := @syncMetadata_backed env q live enqueue w.queue w ⟨hw, rfl⟩
  unfold Call.world
  dsimp only
  rcases hx : (syncMetadata env q live enqueue).exec w with ⟨e | result, t⟩ <;> rw [hx] at hspec <;> exact hspec

/-- A call on a database whose rows have their owners leaves them there, where the message that it processes
was published before. -/
theorem Call.backed {call : Call} (hw : Backed [] w.db) (hsent : ∀ message ∈ sent, Asked w.db message)
    (hdelivered : ∀ message, call = .message message → ∃ first ∈ sent, Delivered first message) :
    Backed [] (call.world env w).db := by
  cases call with
  | sync q live enqueue => exact (sync_leaves hw).1
  | message message =>
      obtain ⟨first, hfirst, hmessage⟩ := hdelivered message rfl
      obtain ⟨rt, asked, hpayload, hbacked⟩ := hsent first hfirst
      change Backed [] ((processQueueMessage env message).exec w).2.db
      unfold processQueueMessage
      rw [Prog.exec_bind, Prog.exec_ofExcept]
      cases hquery : queryFromPayload (Json.toText env.textOf) message.payload with
      | error e => exact hw
      | ok q =>
          rw [Prog.follow_ok]
          rw [← hmessage.tenant hpayload hquery, ← hmessage.jobId] at hbacked
          have hprocess : Keeps (OnSession (DurablyBacked (.tenant q.tenantId :: jobRefs message.jobId q.tenantId)))
              (processSatRequestJob env q message.jobId) :=
            processSatRequestJob_backed List.mem_cons_self (List.subset_cons_self _ _)
          exact Backed.weaken (hprocess.final (s := w) hbacked) (List.nil_subset _)
  | ingest q content delimiter sourcePackageId => exact Keeps.final ingestMetadataFile_backed hw
  | reconcile tenantId => exact Keeps.final reconcile_backed hw

/-- The messages that a call publishes are about durable jobs. -/
theorem Call.asked {call : Call} (hw : Backed [] w.db) :
    ∀ message ∈ call.sent env w, Asked (call.world env w).db message := by
  cases call with
  | sync q live enqueue =>
      cases enqueue with
      | false => exact fun _ h => absurd h List.not_mem_nil
      | true =>
          obtain ⟨new, hqueue, hnew⟩ := (sync_leaves hw).2 rfl
          intro message hmessage
          rw [Call.sent, hqueue, List.drop_left] at hmessage
          exact hnew message hmessage
  | _ => exact fun _ h => absurd h List.not_mem_nil

end Calls

/-- Wherever calls lead, the owners of every row are there, and so are those of every published message. -/
theorem Serviced.backed {rt : Runtime} {sent : List QueueMessage} {d : Db} (h : Serviced rt sent d) :
    Backed [] d ∧ ∀ message ∈ sent, Asked d message := by
  induction h with
  | start =>
      refine ⟨⟨?_, fun _ h => absurd h List.not_mem_nil⟩, fun _ h => absurd h List.not_mem_nil⟩
      rintro row hrow
      cases row <;> cases hrow
  | @call env w _ _ _ call hdelivered ih =>
      obtain ⟨hbacked, hsent⟩ := ih
      have hafter : Backed [] (call.world env w).db := Call.backed hbacked hsent hdelivered
      refine ⟨hafter, fun message hmessage => ?_⟩
      rcases List.mem_append.mp hmessage with hold | hnew
      · exact (hsent message hold).later hafter (call.grows env w)
      · exact Call.asked hbacked message hnew

end Recovery

end CfdiVault
