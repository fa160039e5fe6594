import CfdiVault.RecoveryXml

/-!
# Who submits requests to SAT

`submit_request` is called in one place, between the two transactions of a job.  Nothing
else that a call of the service does adds to the submitted requests: the second
transaction verifies nothing and only downloads.
-/

namespace CfdiVault

namespace Recovery

/-- The requests submitted so far. -/
def submits (calls : List SatCall) : Nat := calls.countP fun call => call matches .submit _

/-- So many requests have been submitted. -/
def Submitted (n : Nat) (w : World) : Prop := submits w.sat = n

/-! ## Statements that submit nothing -/

section Statements

variable {env : Env} {n : Nat}

theorem submitted_outside : Outside (Submitted n) := fun _ _ _ _ h => h

/-- A statement that leaves the calls of the SAT client alone submits nothing. -/
theorem submitted_of_sat {α : Type} {f : World → Except Fault α × World}
    (h : ∀ w, (f w).2.sat = w.sat) : Keeps (Submitted n) (Prog.act f) := by
  refine Keeps.act fun w hw => ?_
  unfold Submitted
  rw [h w]
  exact hw

theorem uuid4_submitted : Keeps (Submitted n) (uuid4 env) := submitted_of_sat fun _ => rfl

theorem disk_submitted {α : Type} {step : World → α} : Keeps (Submitted n) (disk env step) := by
  refine submitted_of_sat fun w => ?_
  cases env.diskFails w.diskOps <;> rfl

theorem writeFile_submitted {path : String} {content : Bytes} :
    Keeps (Submitted n) (writeFile env path content) := by
  refine submitted_of_sat fun w => ?_
  cases env.diskFails w.diskOps <;> rfl

/-- A download is no submission. -/
theorem downloadPackage_submitted {packageId : String} :
    Keeps (Submitted n) (downloadPackage env packageId) := by
  refine Keeps.act fun w hw => ?_
  unfold Submitted submits at hw ⊢
  rw [List.countP_append, hw]
  rfl

theorem storagePeriod_submitted {q : DownloadQuery} : Keeps (Submitted n) (storagePeriod env q) := by
  unfold storagePeriod
  cases q.period with
  | none => exact now_outside submitted_outside
  | some period => exact Keeps.pure _

theorem periodKey_submitted {rfc family filename : String} {period : DateTime} :
    Keeps (Submitted n) (periodKey env rfc family period filename) :=
  Keeps.bind (Keeps.ofExcept _) fun _ => Keeps.bind disk_submitted fun _ => Keeps.pure _

theorem writeBytesIdempotent_submitted {key : String} {content : Bytes} :
    Keeps (Submitted n) (writeBytesIdempotent env key content) := by
  refine Keeps.bind (Keeps.ofExcept _) fun path => Keeps.bind disk_submitted fun existing => ?_
  cases existing with
  | none => exact Keeps.bind writeFile_submitted fun _ => Keeps.pure _
  | some bytes => exact Keeps.bind (Keeps.raiseIf _ _) fun _ => Keeps.pure _

theorem event_submitted {jobId message : String} {queueName : QueueName} {status : JobStatus}
    {payload : Json} : Keeps (Submitted n) (event env jobId queueName status message payload) :=
  Keeps.bind uuid4_submitted fun _ => Keeps.bind (now_outside submitted_outside) fun _ =>
    add_outside submitted_outside

end Statements

/-! ## The second transaction -/

section Transaction

variable {env : Env} {q : DownloadQuery} {jobId : String} {n : Nat}

theorem fetchPackage_submitted {requestId packageId : String} {requestedAt : DateTime} :
    Keeps (Submitted n) (fetchPackage env q jobId requestId requestedAt packageId) := by
  have hnow := @now_outside env _ (@submitted_outside n)
  refine Keeps.bind (select_outside submitted_outside) fun existing => Keeps.bind ?_ fun stored => ?_
  · unfold storedContent
    cases downloadedKey existing with
    | none => exact Keeps.pure _
    | some key => exact disk_submitted
  cases stored with
  | some content => exact Keeps.bind event_submitted fun _ => Keeps.pure _
  | none =>
      refine Keeps.bind ?_ fun _ => Keeps.pure _
      refine Keeps.bind downloadPackage_submitted fun content => ?_
      refine Keeps.bind storagePeriod_submitted fun period => ?_
      refine Keeps.bind (Keeps.bind (Keeps.ofExcept _) fun _ => periodKey_submitted) fun key => ?_
      refine Keeps.bind writeBytesIdempotent_submitted fun file => Keeps.bind ?_ fun _ => ?_
      · unfold savePackage
        cases existing with
        | none =>
            exact Keeps.bind hnow fun _ => Keeps.bind hnow fun _ => add_outside submitted_outside
        | some row =>
            exact Keeps.bind hnow fun _ => Keeps.bind hnow fun _ => update_outside submitted_outside
      · exact Keeps.bind event_submitted fun _ => Keeps.pure _

theorem upsertEntry_submitted {metadataSha256 : String} {time : DateTime} {entry : MetadataEntry} :
    Keeps (Submitted n) (upsertEntry env q metadataSha256 time entry) := by
  have hadd := fun row => @add_outside _ (@submitted_outside n) row
  have hselect := fun {α} view => @select_outside env _ (@submitted_outside n) α view
  refine Keeps.bind (hselect _) fun existing => Keeps.bind (hselect _) fun hasXml => ?_
  refine Keeps.bind ?_ fun _ => ?_
  · unfold saveLedger
    cases existing with
    | none => exact Keeps.bind (hadd _) fun _ => hadd _
    | some row =>
        refine Keeps.bind (update_outside submitted_outside) fun _ => ?_
        split
        · exact hadd _
        · exact Keeps.pure _
  · split
    · refine Keeps.bind (hselect _) fun document => ?_
      unfold saveMetadataDocument
      cases document with
      | none => exact Keeps.bind (hadd _) fun _ => Keeps.each fun row _ => hadd row
      | some row => exact update_outside submitted_outside
    · exact Keeps.pure _

theorem storeXmlMember_submitted {packageId member : String} {archive : ZipArchive} :
    Keeps (Submitted n) (storeXmlMember env q packageId archive member) := by
  rw [storeXmlMember_eq]
  refine Keeps.bind (Keeps.ofExcept _) fun _ => Keeps.bind (Keeps.ofExcept _) fun _ => ?_
  refine Keeps.bind (Keeps.bind (Keeps.ofExcept _) fun _ => periodKey_submitted) fun _ => ?_
  exact Keeps.bind writeBytesIdempotent_submitted fun _ => bookXml_outside submitted_outside

theorem storeXmlPackages_submitted {contents : List (String × Bytes)} :
    Keeps (Submitted n) (storeXmlPackages env q jobId contents) := by
  unfold storeXmlPackages
  split
  · refine Keeps.bind (Keeps.collect fun _ _ => ?_) fun _ => event_submitted
    exact Keeps.bind (Keeps.ofExcept _) fun _ =>
      Keeps.bind (Keeps.each fun _ _ => storeXmlMember_submitted) fun _ => Keeps.pure _
  · exact Keeps.pure _

theorem markSucceeded_submitted : Keeps (Submitted n) (markSucceeded env jobId) := by
  refine Keeps.bind (select_outside submitted_outside) fun job => ?_
  split
  · exact Keeps.bind (now_outside submitted_outside) fun _ => update_outside submitted_outside
  · exact Keeps.pure _

/-- Recording an answer submits nothing. -/
theorem recordAnswer_submitted {answer : SatAnswer} {requestedAt : DateTime} :
    Keeps (Submitted n) (recordAnswer env q jobId answer requestedAt) := by
  have hnow := @now_outside env _ (@submitted_outside n)
  refine withSession_outside submitted_outside
    (Keeps.bind ?_ fun _ => commit_outside submitted_outside)
  refine Keeps.bind storagePeriod_submitted fun _ => ?_
  refine Keeps.bind (Keeps.bind (Keeps.ofExcept _) fun _ => periodKey_submitted) fun _ => ?_
  refine Keeps.bind writeBytesIdempotent_submitted fun _ => ?_
  refine Keeps.bind (Keeps.bind hnow fun _ => Keeps.bind (add_outside submitted_outside) fun _ =>
    event_submitted) fun _ => ?_
  refine Keeps.bind (Keeps.collect fun _ _ => fetchPackage_submitted) fun _ => ?_
  refine Keeps.bind (Keeps.bind hnow fun _ => Keeps.bind (Keeps.each fun _ _ =>
    upsertEntry_submitted) fun _ => Keeps.pure _) fun _ => ?_
  refine Keeps.bind (flush_outside submitted_outside) fun _ => Keeps.bind event_submitted fun _ => ?_
  exact Keeps.bind storeXmlPackages_submitted fun _ =>
    Keeps.bind event_submitted fun _ => markSucceeded_submitted

/-- The calls of the SAT client that one question makes. -/
theorem askSat_sat {w : World} :
    ∃ rest, ((askSat env q).exec w).2.sat = w.sat ++ .submit q :: rest ∧ submits rest = 0 := by
  unfold askSat submitRequest
  rw [Prog.exec_bind, Prog.exec_act]
  cases env.submit w.sat q with
  | error e => exact ⟨[], rfl, rfl⟩
  | ok requestId =>
      unfold verifyRequest
      dsimp only [Except.mapError]
      rw [Prog.follow_ok, Prog.exec_bind, Prog.exec_act]
      dsimp only
      cases env.verify (w.sat ++ [.submit q]) requestId with
      | error e => exact ⟨[.verify requestId], List.append_assoc .., rfl⟩
      | ok response =>
          dsimp only [Except.mapError]
          rw [Prog.follow_ok, Prog.exec_ofExcept]
          exact ⟨[.verify requestId], List.append_assoc .., rfl⟩

/-- Asking SAT submits one request. -/
theorem askSat_submitted {w : World} :
    submits ((askSat env q).exec w).2.sat = submits w.sat + 1 := by
  obtain ⟨rest, hsat, hrest⟩ := @askSat_sat env q w
  unfold submits at hrest ⊢
  rw [hsat, List.countP_append, List.countP_cons, hrest]
  rfl

end Transaction

end Recovery

end CfdiVault
