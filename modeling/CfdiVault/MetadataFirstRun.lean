import CfdiVault.SatOrchestration
import CfdiVault.Library.FirstAppearance

/-!
# What a metadata-first run asks of SAT

`SpendsQuotaWhenNeeded` is what one run of `MetadataFirstSatOrchestrator` owes the quota of
SAT: nothing is asked unless a decision needs XML, the calls stand in one order, each made
once, no package is downloaded twice, and nothing follows a download that did not finish.

All of it holds of every run but that a package is downloaded once: the loop follows the
list of the verification as it stands.  `reached_iff` says which packages the loop comes to,
and `spends_iff` that the run keeps the rule exactly if no package it comes to was listed
before.
-/

namespace CfdiVault

namespace SatOrchestration

open Reconciliation (ReconciliationDecision)

/-- A call without what came back. -/
inductive PortCall where
  | authenticate
  | submitRequest (query : DownloadQuery)
  | verifyRequest (requestId : String)
  | downloadPackage (packageId : String)

/-- The download ended with `FINISHED`. -/
def Finished {ε : Type} : Except ε SatDownloadResult → Prop
  | .ok package => package.action = .finished
  | .error _ => False

namespace PortEvent

variable {ε : Type}

def call : PortEvent ε → PortCall
  | authenticated _ => .authenticate
  | submitted query _ => .submitRequest query
  | verified requestId _ => .verifyRequest requestId
  | downloaded packageId _ => .downloadPackage packageId

def packageId? : PortEvent ε → Option String
  | downloaded packageId _ => some packageId
  | _ => none

/-- Another call may follow: the event is no download, or one that finished. -/
def Continues : PortEvent ε → Prop
  | downloaded _ answer => Finished answer
  | _ => True

end PortEvent

variable {ε : Type} {ports : Ports ε} {query : DownloadQuery} {decisions : List ReconciliationDecision}
  {h events : List (PortEvent ε)} {requestId packageId : String} {ids before : List String}

/-- What a run, its outcome and its events, owes the quota of SAT. -/
structure SpendsQuotaWhenNeeded (query : DownloadQuery) (decisions : List ReconciliationDecision)
    (run : Except ε SatOrchestrationResult × List (PortEvent ε)) : Prop where
  needed : run.2 ≠ [] → ∃ decision ∈ decisions, decision.shouldDownloadXml = true
  ordered : ∃ (requestId : String) (packageIds : List String), run.2.map PortEvent.call <+:
    .authenticate :: .submitRequest query :: .verifyRequest requestId ::
      packageIds.map PortCall.downloadPackage
  once : (run.2.filterMap PortEvent.packageId?).Nodup
  stops : run.2.Pairwise fun earlier _ => earlier.Continues
  complete : ∀ result, run.1 = .ok result → result.status = .downloaded →
    ∃ requestId verification, .verified requestId (.ok verification) ∈ run.2 ∧
      ∀ packageId ∈ verification.packageIds, ∃ answer, .downloaded packageId answer ∈ run.2 ∧
        Finished answer

/-! ## The download loop -/

/-- The events of the download loop. -/
def downloads (ports : Ports ε) : List (PortEvent ε) → List String → List (PortEvent ε)
  | _, [] => []
  | h, packageId :: rest =>
      match ports.downloadPackage h packageId with
      | .ok package =>
          .downloaded packageId (.ok package) :: if package.action = .finished then
            downloads ports (h ++ [.downloaded packageId (.ok package)]) rest else []
      | .error e => [.downloaded packageId (.error e)]

/-- Every download of a list finishes. -/
def AllFinish (ports : Ports ε) : List (PortEvent ε) → List String → Prop
  | _, [] => True
  | h, packageId :: rest =>
      Finished (ports.downloadPackage h packageId) ∧
        AllFinish ports (h ++ [.downloaded packageId (ports.downloadPackage h packageId)]) rest

theorem downloads_finished (hfinished : Finished (ports.downloadPackage h packageId)) :
    downloads ports h (packageId :: ids) = .downloaded packageId (ports.downloadPackage h packageId) ::
      downloads ports (h ++ [.downloaded packageId (ports.downloadPackage h packageId)]) ids := by
  rw [downloads]
  rcases hanswer : ports.downloadPackage h packageId with e | package
  · rw [hanswer] at hfinished
    exact hfinished.elim
  · rw [hanswer] at hfinished
    exact congrArg _ (if_pos hfinished)

theorem downloads_stopped (hstopped : ¬ Finished (ports.downloadPackage h packageId)) :
    downloads ports h (packageId :: ids) =
      [.downloaded packageId (ports.downloadPackage h packageId)] := by
  rw [downloads]
  rcases hanswer : ports.downloadPackage h packageId with e | package
  · rfl
  · rw [hanswer] at hstopped
    exact congrArg _ (if_neg hstopped)

theorem exec_askDownload :
    (ports.askDownload packageId).exec h = (ports.downloadPackage h packageId,
      h ++ [.downloaded packageId (ports.downloadPackage h packageId)]) := rfl

theorem resultFromAction_status {action : SatOutcomeAction} {message : String}
    {requestId : Option String} {downloadedPackages : List SatDownloadResult} :
    (resultFromAction action message requestId downloadedPackages).status ≠ .downloaded := by
  unfold resultFromAction
  split_ifs <;> exact fun h => (nomatch h)

/-- The loop leaves its events behind, and reports `DOWNLOADED` only if all of them finished. -/
theorem downloadPackages_spec {downloaded : List SatDownloadResult} :
    ((downloadPackages ports requestId downloaded ids).exec h).2 = h ++ downloads ports h ids ∧
      ∀ result, ((downloadPackages ports requestId downloaded ids).exec h).1 = .ok result →
        result.status = .downloaded → AllFinish ports h ids := by
  induction ids generalizing h downloaded with
  | nil => exact ⟨(List.append_nil h).symm, fun _ _ _ => trivial⟩
  | cons packageId rest ih =>
      by_cases hfinished : Finished (ports.downloadPackage h packageId)
      · rw [downloads_finished hfinished]
        rcases hanswer : ports.downloadPackage h packageId with e | package
        · rw [hanswer] at hfinished
          exact hfinished.elim
        · have hask := @exec_askDownload ε ports h packageId
          rw [hanswer] at hask hfinished
          have hstep : (downloadPackages ports requestId downloaded (packageId :: rest)).exec h =
              (downloadPackages ports requestId (downloaded ++ [package]) rest).exec
                (h ++ [.downloaded packageId (.ok package)]) := by
            rw [downloadPackages, Prog.exec_bind_ok hask]
            exact congrArg (Prog.exec · _) (if_neg (not_not.mpr hfinished))
          obtain ⟨hevents, hstatus⟩ := @ih (h ++ [.downloaded packageId (.ok package)])
            (downloaded ++ [package])
          rw [hstep, hevents]
          refine ⟨by rw [List.append_assoc, List.singleton_append], fun result hresult hdone => ?_⟩
          rw [AllFinish, hanswer]
          exact ⟨hfinished, hstatus result hresult hdone⟩
      · rw [downloads_stopped hfinished]
        rcases hanswer : ports.downloadPackage h packageId with e | package
        · have hask := @exec_askDownload ε ports h packageId
          rw [hanswer] at hask
          rw [downloadPackages, Prog.exec_bind_error hask]
          exact ⟨rfl, fun result hresult => (nomatch hresult)⟩
        · have hask := @exec_askDownload ε ports h packageId
          rw [hanswer] at hask hfinished
          have hleft : (downloadPackages ports requestId downloaded (packageId :: rest)).exec h =
              (.ok (resultFromAction package.action package.message (some requestId)
                (downloaded ++ [package])), h ++ [.downloaded packageId (.ok package)]) := by
            rw [downloadPackages, Prog.exec_bind_ok hask]
            exact congrArg (Prog.exec · _) (if_pos hfinished)
          rw [hleft]
          refine ⟨rfl, fun result hresult hdone => ?_⟩
          cases hresult
          exact absurd hdone resultFromAction_status

/-- The packages that the loop comes to: those all of whose predecessors finished. -/
theorem reached_iff : before ++ [packageId] <+: (downloads ports h ids).filterMap PortEvent.packageId? ↔
    before ++ [packageId] <+: ids ∧ AllFinish ports h before := by
  induction before generalizing h ids with
  | nil =>
      cases ids with
      | nil => simp [downloads]
      | cons first rest =>
          by_cases hfinished : Finished (ports.downloadPackage h first)
          · rw [downloads_finished hfinished]
            simp [PortEvent.packageId?, AllFinish]
          · rw [downloads_stopped hfinished]
            simp [PortEvent.packageId?, AllFinish]
  | cons first before ih =>
      cases ids with
      | nil => simp [downloads]
      | cons next rest =>
          by_cases hfinished : Finished (ports.downloadPackage h next)
          · rw [downloads_finished hfinished, AllFinish]
            have hrest := @ih (h ++ [.downloaded next (ports.downloadPackage h next)]) rest
            constructor
            · intro hpre
              obtain ⟨rfl, hpre⟩ := List.cons_prefix_cons.mp hpre
              obtain ⟨hids, hall⟩ := hrest.mp hpre
              exact ⟨List.cons_prefix_cons.mpr ⟨rfl, hids⟩, hfinished, hall⟩
            · rintro ⟨hpre, -, hall⟩
              obtain ⟨rfl, hids⟩ := List.cons_prefix_cons.mp hpre
              exact List.cons_prefix_cons.mpr ⟨rfl, hrest.mpr ⟨hids, hall⟩⟩
          · rw [downloads_stopped hfinished, AllFinish]
            refine iff_of_false (fun hpre => ?_) fun ⟨hpre, hfirst, _⟩ => ?_
            · have hlength := hpre.length_le
              simp [PortEvent.packageId?] at hlength
            · obtain ⟨rfl, -⟩ := List.cons_prefix_cons.mp hpre
              exact hfinished hfirst

theorem downloads_once_iff : ((downloads ports h ids).filterMap PortEvent.packageId?).Nodup ↔
    ∀ before packageId, before ++ [packageId] <+: ids → packageId ∈ before → ¬ AllFinish ports h before := by
  rw [FirstAppearance.nodup_iff_front]
  refine forall₂_congr fun before packageId => ?_
  rw [reached_iff]
  exact ⟨fun hfresh hpre hmem hall => hfresh ⟨hpre, hall⟩ hmem,
    fun hfresh ⟨hpre, hall⟩ hmem => hfresh hpre hmem hall⟩

/-- The loop downloads the listed packages in order, as far as it comes. -/
theorem downloads_calls :
    (downloads ports h ids).map PortEvent.call <+: ids.map PortCall.downloadPackage := by
  induction ids generalizing h with
  | nil => exact List.prefix_rfl
  | cons packageId rest ih =>
      by_cases hfinished : Finished (ports.downloadPackage h packageId)
      · rw [downloads_finished hfinished]
        exact List.cons_prefix_cons.mpr ⟨rfl, ih⟩
      · rw [downloads_stopped hfinished]
        exact List.cons_prefix_cons.mpr ⟨rfl, List.nil_prefix⟩

theorem downloads_stop : (downloads ports h ids).Pairwise fun earlier _ => earlier.Continues := by
  induction ids generalizing h with
  | nil => exact List.Pairwise.nil
  | cons packageId rest ih =>
      by_cases hfinished : Finished (ports.downloadPackage h packageId)
      · rw [downloads_finished hfinished]
        exact List.pairwise_cons.mpr ⟨fun _ _ => hfinished, ih⟩
      · rw [downloads_stopped hfinished]
        exact List.pairwise_singleton _ _

theorem downloads_complete (hall : AllFinish ports h ids) (hmem : packageId ∈ ids) :
    ∃ answer, .downloaded packageId answer ∈ downloads ports h ids ∧ Finished answer := by
  induction ids generalizing h with
  | nil => cases hmem
  | cons first rest ih =>
      rw [downloads_finished hall.1]
      rcases List.mem_cons.mp hmem with rfl | hmem
      · exact ⟨_, List.mem_cons_self, hall.1⟩
      · obtain ⟨answer, hanswer, hfinished⟩ := ih hall.2 hmem
        exact ⟨answer, List.mem_cons_of_mem _ hanswer, hfinished⟩

/-! ## The run -/

/-- The run comes to its download loop: SAT accepted the query and finished preparing it. -/
structure Lists (ports : Ports ε) (query : DownloadQuery) (decisions : List ReconciliationDecision)
    (request : SatRequestResult) (verification : SatVerificationResult) : Prop where
  needed : ∃ decision ∈ decisions, decision.shouldDownloadXml = true
  authenticated : ports.authenticate [] = .ok ()
  submitted : ports.submitRequest [.authenticated (.ok ())] query = .ok request
  accepted : request.action = .accepted
  verified : ports.verifyRequest [.authenticated (.ok ()), .submitted query (.ok request)]
    request.requestId = .ok verification
  finished : verification.action = .finished

/-- The events before the download loop. -/
def listing (query : DownloadQuery) (request : SatRequestResult) (verification : SatVerificationResult) :
    List (PortEvent ε) :=
  [.authenticated (.ok ()), .submitted query (.ok request),
    .verified request.requestId (.ok verification)]

theorem Lists.unique {request other : SatRequestResult} {verification otherVerification : SatVerificationResult}
    (h : Lists ports query decisions request verification)
    (h' : Lists ports query decisions other otherVerification) :
    request = other ∧ verification = otherVerification := by
  obtain rfl := Except.ok.inj (h.submitted.symm.trans h'.submitted)
  exact ⟨rfl, Except.ok.inj (h.verified.symm.trans h'.verified)⟩

theorem listing_continues {request : SatRequestResult} {verification : SatVerificationResult} :
    ∀ event ∈ (listing query request verification : List (PortEvent ε)), event.Continues := by
  simp [listing, PortEvent.Continues]

/-- A run that ends before its download loop owes SAT nothing. -/
theorem spends_of_early (requestId : String) {run : Except ε SatOrchestrationResult × List (PortEvent ε)}
    (hneeded : run.2 ≠ [] → ∃ decision ∈ decisions, decision.shouldDownloadXml = true)
    (hordered : run.2.map PortEvent.call <+:
      [.authenticate, .submitRequest query, .verifyRequest requestId])
    (hstatus : ∀ result, run.1 = .ok result → result.status ≠ .downloaded) :
    SpendsQuotaWhenNeeded query decisions run := by
  have hnone : ∀ event ∈ run.2, event.packageId? = none ∧ event.Continues := by
    intro event hevent
    have hcall := hordered.subset (List.mem_map_of_mem hevent)
    cases event with
    | downloaded packageId answer => simp [PortEvent.call] at hcall
    | _ => exact ⟨rfl, trivial⟩
  refine ⟨hneeded, ⟨requestId, [], hordered⟩, ?_, ?_, fun result hresult hdone =>
    absurd hdone (hstatus result hresult)⟩
  · rw [List.filterMap_eq_nil_iff.mpr fun event hevent => (hnone event hevent).1]
    exact List.nodup_nil
  · exact List.pairwise_of_forall_mem_list fun event hevent _ _ => (hnone event hevent).2

theorem exec_askVerify :
    (ports.askVerify requestId).exec h = (ports.verifyRequest h requestId,
      h ++ [.verified requestId (ports.verifyRequest h requestId)]) := rfl

/-- What follows an accepted submission comes to the download loop or ends before it. -/
theorem followUp_cases (ports : Ports ε) (request : SatRequestResult) (h : List (PortEvent ε)) :
    (∃ verification, ports.verifyRequest h request.requestId = .ok verification ∧
      verification.action = .finished ∧ (followUp ports request).exec h =
        (downloadPackages ports request.requestId [] verification.packageIds).exec
          (h ++ [.verified request.requestId (.ok verification)])) ∨
    ((∀ verification, ports.verifyRequest h request.requestId = .ok verification →
      verification.action ≠ .finished) ∧
      ((followUp ports request).exec h).2 =
        h ++ [.verified request.requestId (ports.verifyRequest h request.requestId)] ∧
      ∀ result, ((followUp ports request).exec h).1 = .ok result → result.status ≠ .downloaded) := by
  have hask := @exec_askVerify ε ports h request.requestId
  rcases hanswer : ports.verifyRequest h request.requestId with e | verification
  · rw [hanswer] at hask
    refine .inr ⟨fun _ hverified => (nomatch hverified), ?_⟩
    rw [followUp, Prog.exec_bind_error hask]
    exact ⟨rfl, fun _ hresult => (nomatch hresult)⟩
  · rw [hanswer] at hask
    rw [followUp, Prog.exec_bind_ok hask]
    by_cases hfinished : verification.action = .finished
    · refine .inl ⟨verification, rfl, hfinished, ?_⟩
      rw [if_neg (by rw [hfinished]; decide), if_neg (not_not.mpr hfinished)]
    · refine .inr ⟨fun other hother => by cases hother; exact hfinished, ?_⟩
      split_ifs with hwaiting
      · exact ⟨rfl, fun result hresult => by cases hresult; exact fun h => (nomatch h)⟩
      · exact ⟨rfl, fun result hresult => by cases hresult; exact resultFromAction_status⟩

/-- A run comes to its download loop or ends before it. -/
theorem run_cases (ports : Ports ε) (query : DownloadQuery) (decisions : List ReconciliationDecision) :
    (∃ request verification, Lists ports query decisions request verification ∧
      (run ports query decisions).exec [] =
        (downloadPackages ports request.requestId [] verification.packageIds).exec
          (listing query request verification)) ∨
    ((∀ request verification, ¬ Lists ports query decisions request verification) ∧
      SpendsQuotaWhenNeeded query decisions ((run ports query decisions).exec [])) := by
  by_cases hpending : decisions.filter (·.shouldDownloadXml) = []
  · have hnone : ¬ ∃ decision ∈ decisions, decision.shouldDownloadXml = true :=
      fun ⟨decision, hmem, hneed⟩ => List.filter_eq_nil_iff.mp hpending decision hmem hneed
    refine .inr ⟨fun request verification hlists => hnone hlists.needed, ?_⟩
    rw [run, if_pos hpending, Prog.exec_pure]
    exact spends_of_early "" (fun h => absurd rfl h) List.nil_prefix
      fun result hresult => by cases hresult; exact fun h => (nomatch h)
  have hneeded : ∃ decision ∈ decisions, decision.shouldDownloadXml = true := by
    obtain ⟨decision, hdecision⟩ := List.exists_mem_of_ne_nil _ hpending
    exact ⟨decision, List.mem_filter.mp hdecision⟩
  rw [run, if_neg hpending]
  have hauth : ports.askAuthenticate.exec [] =
      (ports.authenticate [], [.authenticated (ports.authenticate [])]) := rfl
  rcases hanswer : ports.authenticate [] with e | ⟨⟩
  · rw [hanswer] at hauth
    refine .inr ⟨fun _ _ hlists => ?_, ?_⟩
    · have hauthenticated := hlists.authenticated
      rw [hanswer] at hauthenticated
      cases hauthenticated
    · rw [Prog.exec_bind_error hauth]
      exact spends_of_early "" (fun _ => hneeded) ⟨[_, _], rfl⟩ fun _ h => (nomatch h)
  rw [hanswer] at hauth
  rw [Prog.exec_bind_ok hauth]
  have hsubmit : (ports.askSubmit query).exec [.authenticated (.ok ())] =
      (ports.submitRequest [.authenticated (.ok ())] query, [.authenticated (.ok ()),
        .submitted query (ports.submitRequest [.authenticated (.ok ())] query)]) := rfl
  rcases hrequest : ports.submitRequest [.authenticated (.ok ())] query with e | request
  · rw [hrequest] at hsubmit
    refine .inr ⟨fun _ _ hlists => ?_, ?_⟩
    · have hsubmitted := hlists.submitted
      rw [hrequest] at hsubmitted
      cases hsubmitted
    · rw [Prog.exec_bind_error hsubmit]
      exact spends_of_early "" (fun _ => hneeded) ⟨[_], rfl⟩ fun _ h => (nomatch h)
  rw [hrequest] at hsubmit
  rw [Prog.exec_bind_ok hsubmit]
  have hsame : ∀ other verification, Lists ports query decisions other verification → other = request := by
    intro other verification hlists
    have hsubmitted := hlists.submitted
    rw [hrequest] at hsubmitted
    exact (Except.ok.inj hsubmitted).symm
  by_cases haccepted : request.action = .accepted
  · rw [if_neg (not_not.mpr haccepted)]
    rcases followUp_cases ports request [.authenticated (.ok ()), .submitted query (.ok request)] with
      ⟨verification, hverified, hfinished, hexec⟩ | ⟨hnot, hevents, hstatus⟩
    · exact .inl ⟨request, verification, ⟨hneeded, hanswer, hrequest, haccepted, hverified, hfinished⟩, hexec⟩
    · refine .inr ⟨fun other verification hlists => ?_, ?_⟩
      · obtain rfl := hsame other verification hlists
        exact hnot verification hlists.verified hlists.finished
      · refine spends_of_early request.requestId (fun _ => hneeded) ?_ hstatus
        exact hevents ▸ List.prefix_rfl
  · rw [if_pos haccepted]
    refine .inr ⟨fun other verification hlists => haccepted ?_, ?_⟩
    · exact hsame other verification hlists ▸ hlists.accepted
    · refine spends_of_early "" (fun _ => hneeded) ⟨[_], rfl⟩ fun result hresult => ?_
      cases hresult
      exact resultFromAction_status

/-- A run spends quota only when needed exactly if the download loop comes to no package that
the verification listed before. -/
theorem spends_iff (ports : Ports ε) (query : DownloadQuery) (decisions : List ReconciliationDecision) :
    SpendsQuotaWhenNeeded query decisions ((run ports query decisions).exec []) ↔
      ∀ request verification, Lists ports query decisions request verification →
        ∀ before packageId, before ++ [packageId] <+: verification.packageIds → packageId ∈ before →
          ¬ AllFinish ports (listing query request verification) before := by
  rcases run_cases ports query decisions with ⟨request, verification, hlists, hexec⟩ | ⟨hnone, hspends⟩
  · rw [hexec]
    obtain ⟨hevents, hstatus⟩ := @downloadPackages_spec ε ports (listing query request verification)
      request.requestId verification.packageIds []
    have hids : (listing query request verification : List (PortEvent ε)).filterMap
        PortEvent.packageId? = [] := rfl
    constructor
    · intro hspends other otherVerification hother
      obtain ⟨rfl, rfl⟩ := hlists.unique hother
      have honce := hspends.once
      rw [hevents, List.filterMap_append, hids, List.nil_append, downloads_once_iff] at honce
      exact honce
    · intro honce
      refine ⟨fun _ => hlists.needed, ⟨request.requestId, verification.packageIds, ?_⟩, ?_, ?_, ?_⟩
      · rw [hevents, List.map_append]
        exact List.prefix_append_right_inj _ |>.mpr downloads_calls
      · rw [hevents, List.filterMap_append, hids, List.nil_append, downloads_once_iff]
        exact honce request verification hlists
      · rw [hevents]
        refine List.pairwise_append.mpr ⟨?_, downloads_stop, ?_⟩
        · exact List.pairwise_of_forall_mem_list fun event hevent _ _ => listing_continues event hevent
        · exact fun event hevent _ _ => listing_continues event hevent
      · intro result hresult hdone
        refine ⟨request.requestId, verification, ?_, fun packageId hmem => ?_⟩
        · rw [hevents]
          exact List.mem_append_left _ (by simp [listing])
        · obtain ⟨answer, hanswer, hfinished⟩ := downloads_complete (hstatus result hresult hdone) hmem
          refine ⟨answer, ?_, hfinished⟩
          rw [hevents]
          exact List.mem_append_right _ hanswer
  · exact iff_of_true hspends fun request verification hlists => absurd hlists (hnone request verification)

/-- Ports that accept everything and list one package twice. -/
def repeatingPorts : Ports String where
  authenticate := fun _ => .ok ()
  submitRequest := fun _ _ => .ok ⟨"REQ-1", "5000", "accepted", .accepted⟩
  verifyRequest := fun _ requestId =>
    .ok ⟨requestId, .finished, "5000", "finished", ["PKG-1", "PKG-1"], .finished⟩
  downloadPackage := fun _ packageId => .ok ⟨packageId, "5000", "downloaded", .finished, none⟩

/-- A query of a tenant for one document. -/
def tenantQuery (tenantId : String) : DownloadQuery where
  tenantId := tenantId
  requesterRfc := "AAA010101AAA"
  direction := .folio
  requestType := .cfdi
  period := none
  uuid := some "AAAAAAAA-AAAA-4AAA-8AAA-AAAAAAAAAAAA"

/-- The package that is listed twice is downloaded twice. -/
theorem package_downloaded_twice : ¬ SpendsQuotaWhenNeeded (tenantQuery "tenant-1")
    [⟨.xmlPending, "metadata exists without XML evidence", true, false⟩]
    ((run repeatingPorts (tenantQuery "tenant-1")
      [⟨.xmlPending, "metadata exists without XML evidence", true, false⟩]).exec []) := by
  intro h
  have hids : (((run repeatingPorts (tenantQuery "tenant-1")
      [⟨.xmlPending, "metadata exists without XML evidence", true, false⟩]).exec []).2.filterMap
        PortEvent.packageId?) = ["PKG-1", "PKG-1"] := rfl
  exact absurd h.once (by rw [hids]; decide)

end SatOrchestration

end CfdiVault
