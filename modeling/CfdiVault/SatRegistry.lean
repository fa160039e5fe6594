import CfdiVault.MetadataFirstRun
import CfdiVault.Library.FirstAppearance
import CfdiVault.Library.TwoIndexes

/-!
# The registry of submitted requests

`InMemorySatRequestRegistry` keeps each submitted request under its criteria and under its
request id, and `DownloadRequestOrchestrator` submits and polls through it.  A request is
submitted only for criteria under which nothing is registered, but nothing looks whether the
request id that SAT answers is registered already.

`Step` says what one call can do.  From it come the invariants of every sequence of calls:
the indexes are sound, and they agree at its end exactly if every request id was new when it
was registered (`indexes_agree_iff`).
-/

namespace CfdiVault

namespace SatOrchestration

/-- Offline registry row for one submitted SAT download request. -/
structure RegisteredSatRequest where
  tenantId : String
  criteriaHash : String
  requestId : String
  requestResult : SatRequestResult
  state : Option SatRequestState := none
  action : Option SatOutcomeAction := none
  message : String := ""
  packageIds : List String := []
  deriving DecidableEq

/-- `(registered.tenant_id, registered.criteria_hash)` -/
def RegisteredSatRequest.criteria (registered : RegisteredSatRequest) : String × String :=
  (registered.tenantId, registered.criteriaHash)

/-- The rows of the registry: `byKey` is `_by_criteria` and `byId` is `_by_request_id`. -/
abbrev InMemorySatRequestRegistry := TwoIndexes (String × String) String RegisteredSatRequest

namespace InMemorySatRequestRegistry

/-- `(query.tenant_id, query.criteria_hash())` -/
def criteriaOf (rt : Runtime) (query : DownloadQuery) : String × String :=
  (query.tenantId, query.criteriaHash rt)

def findByQuery (rt : Runtime) (query : DownloadQuery) (registry : InMemorySatRequestRegistry) :
    Option RegisteredSatRequest :=
  registry.byKey (criteriaOf rt query)

/-- `_store` -/
def storeRow (registered : RegisteredSatRequest) (registry : InMemorySatRequestRegistry) :
    InMemorySatRequestRegistry :=
  registry.store RegisteredSatRequest.criteria RegisteredSatRequest.requestId registered

end InMemorySatRequestRegistry

open InMemorySatRequestRegistry

/-- The registry of one orchestrator and what its ports were asked. -/
structure World (ε : Type) where
  registry : InMemorySatRequestRegistry
  events : List (PortEvent ε)

/-- What a call can raise: the exception of a port, or the `KeyError` of an unknown request id. -/
inductive Fault (ε : Type) where
  | port (error : ε)
  | unknownRequest (requestId : String)

variable {ε α : Type}

/-- A call of a port by an orchestrator that keeps a registry. -/
def onPorts (asked : Prog (List (PortEvent ε)) ε α) : Prog (World ε) (Fault ε) α :=
  Prog.act fun w => ((asked.exec w.events).1.mapError .port, { w with events := (asked.exec w.events).2 })

def store (registered : RegisteredSatRequest) : Prog (World ε) (Fault ε) PUnit :=
  modify fun w => { w with registry := w.registry.storeRow registered }

/-- The row of a request as it is registered. -/
def submittedRow (rt : Runtime) (query : DownloadQuery) (result : SatRequestResult) :
    RegisteredSatRequest where
  tenantId := query.tenantId
  criteriaHash := query.criteriaHash rt
  requestId := result.requestId
  requestResult := result
  action := some result.action
  message := result.message

def registerSubmission (rt : Runtime) (query : DownloadQuery) (result : SatRequestResult) :
    Prog (World ε) (Fault ε) RegisteredSatRequest := do
  let w ← get
  match w.registry.findByQuery rt query with
  | some existing => pure existing
  | none => do
      store (submittedRow rt query result)
      pure (submittedRow rt query result)

/-- `InMemorySatRequestRegistry.get` -/
def getRequest (requestId : String) : Prog (World ε) (Fault ε) RegisteredSatRequest := do
  let w ← get
  match w.registry.byId requestId with
  | some registered => pure registered
  | none => throw (.unknownRequest requestId)

/-- The row of a request after a verification. -/
def verifiedRow (registered : RegisteredSatRequest) (state : SatRequestState) (action : SatOutcomeAction)
    (message : String) (packageIds : List String) : RegisteredSatRequest :=
  let mergedPackageIds := FirstAppearance.appendUnique registered.packageIds packageIds
  { registered with
    state := some state
    action := some action
    message := message
    packageIds := if action = .finished then mergedPackageIds else registered.packageIds }

def recordVerification (requestId : String) (state : SatRequestState) (action : SatOutcomeAction)
    (message : String) (packageIds : List String) : Prog (World ε) (Fault ε) RegisteredSatRequest := do
  let registered ← getRequest requestId
  store (verifiedRow registered state action message packageIds)
  pure (verifiedRow registered state action message packageIds)

/-- Submit only when this tenant and criteria hash are not registered. -/
def submitOnce (ports : Ports ε) (rt : Runtime) (query : DownloadQuery) :
    Prog (World ε) (Fault ε) RegisteredSatRequest := do
  let w ← get
  match w.registry.findByQuery rt query with
  | some existing => pure existing
  | none => do
      let result ← onPorts (ports.askSubmit query)
      registerSubmission rt query result

/-- Verify one registered request and persist state plus package ids. -/
def pollOnce (ports : Ports ε) (requestId : String) :
    Prog (World ε) (Fault ε) RegisteredSatRequest := do
  let verification ← onPorts (ports.askVerify requestId)
  let packageIds := if verification.action = .finished then verification.packageIds else []
  recordVerification requestId verification.state verification.action verification.message packageIds

/-! ## Sequences of calls -/

/-- One call of the orchestrator. -/
inductive Call where
  | submitOnce (query : DownloadQuery)
  | pollOnce (requestId : String)

def Call.program (ports : Ports ε) (rt : Runtime) : Call → Prog (World ε) (Fault ε) RegisteredSatRequest
  | .submitOnce query => SatOrchestration.submitOnce ports rt query
  | .pollOnce requestId => SatOrchestration.pollOnce ports requestId

/-- A new orchestrator. -/
def World.start : World ε := ⟨.empty, []⟩

/-- One call after the other; a call that raises leaves what it did. -/
def runCalls (ports : Ports ε) (rt : Runtime) (calls : List Call) : World ε :=
  calls.foldl (fun w c => ((c.program ports rt).exec w).2) .start

/-- What a verification adds to a row. -/
def RegisteredSatRequest.verified (registered : RegisteredSatRequest)
    (verification : SatVerificationResult) : RegisteredSatRequest :=
  verifiedRow registered verification.state verification.action verification.message
    (if verification.action = .finished then verification.packageIds else [])

variable {ports : Ports ε} {rt : Runtime} {w : World ε} {query : DownloadQuery} {requestId : String}
  {registered : RegisteredSatRequest} {calls : List Call}

theorem runCalls_snoc (c : Call) : runCalls ports rt (calls ++ [c]) =
    ((c.program ports rt).exec (runCalls ports rt calls)).2 := by
  rw [runCalls, List.foldl_append]
  rfl

theorem onPorts_askSubmit {answer : Except ε SatRequestResult}
    (hanswer : ports.submitRequest w.events query = answer) :
    (onPorts (ports.askSubmit query)).exec w =
      (answer.mapError .port, { w with events := w.events ++ [.submitted query answer] }) := by
  subst hanswer
  rfl

theorem onPorts_askVerify {answer : Except ε SatVerificationResult}
    (hanswer : ports.verifyRequest w.events requestId = answer) :
    (onPorts (ports.askVerify requestId)).exec w =
      (answer.mapError .port, { w with events := w.events ++ [.verified requestId answer] }) := by
  subst hanswer
  rfl

theorem submitOnce_known (h : w.registry.findByQuery rt query = some registered) :
    (submitOnce ports rt query).exec w = (.ok registered, w) := by
  rw [submitOnce, Prog.exec_bind_ok (Prog.exec_get w), h, Prog.exec_pure]

theorem submitOnce_raised (h : w.registry.findByQuery rt query = none) {e : ε}
    (hanswer : ports.submitRequest w.events query = .error e) :
    (submitOnce ports rt query).exec w =
      (.error (.port e), { w with events := w.events ++ [.submitted query (.error e)] }) := by
  rw [submitOnce, Prog.exec_bind_ok (Prog.exec_get w), h]
  exact Prog.exec_bind_error (onPorts_askSubmit hanswer)

theorem submitOnce_new (h : w.registry.findByQuery rt query = none) {result : SatRequestResult}
    (hanswer : ports.submitRequest w.events query = .ok result) :
    (submitOnce ports rt query).exec w = (.ok (submittedRow rt query result),
      ⟨w.registry.storeRow (submittedRow rt query result),
        w.events ++ [.submitted query (.ok result)]⟩) := by
  rw [submitOnce, Prog.exec_bind_ok (Prog.exec_get w), h]
  refine (Prog.exec_bind_ok (onPorts_askSubmit hanswer)).trans ?_
  rw [registerSubmission, Prog.exec_bind_ok (Prog.exec_get _), h]
  rfl

theorem pollOnce_raised {e : ε} (hanswer : ports.verifyRequest w.events requestId = .error e) :
    (pollOnce ports requestId).exec w =
      (.error (.port e), { w with events := w.events ++ [.verified requestId (.error e)] }) :=
  Prog.exec_bind_error (onPorts_askVerify hanswer)

theorem pollOnce_unknown {verification : SatVerificationResult}
    (hanswer : ports.verifyRequest w.events requestId = .ok verification)
    (h : w.registry.byId requestId = none) :
    (pollOnce ports requestId).exec w = (.error (.unknownRequest requestId),
      { w with events := w.events ++ [.verified requestId (.ok verification)] }) := by
  refine (Prog.exec_bind_ok (onPorts_askVerify hanswer)).trans (Prog.exec_bind_error ?_)
  rw [getRequest, Prog.exec_bind_ok (Prog.exec_get _), h, Prog.exec_throw]

theorem pollOnce_known {verification : SatVerificationResult}
    (hanswer : ports.verifyRequest w.events requestId = .ok verification)
    (h : w.registry.byId requestId = some registered) :
    (pollOnce ports requestId).exec w = (.ok (registered.verified verification),
      ⟨w.registry.storeRow (registered.verified verification),
        w.events ++ [.verified requestId (.ok verification)]⟩) := by
  have hget : (getRequest requestId).exec
      { w with events := w.events ++ [.verified requestId (.ok verification)] } =
      (.ok registered, { w with events := w.events ++ [.verified requestId (.ok verification)] }) := by
    rw [getRequest, Prog.exec_bind_ok (Prog.exec_get _), h, Prog.exec_pure]
  exact (Prog.exec_bind_ok (onPorts_askVerify hanswer)).trans (Prog.exec_bind_ok hget)

/-- What one call can do: return, raise, and change the world. -/
inductive Step (ports : Ports ε) (rt : Runtime) (w : World ε) :
    Call → Except (Fault ε) RegisteredSatRequest × World ε → Prop
  | found {query : DownloadQuery} {registered : RegisteredSatRequest}
      (h : w.registry.findByQuery rt query = some registered) :
      Step ports rt w (.submitOnce query) (.ok registered, w)
  | notSubmitted {query : DownloadQuery} {e : ε} (h : w.registry.findByQuery rt query = none)
      (hanswer : ports.submitRequest w.events query = .error e) :
      Step ports rt w (.submitOnce query)
        (.error (.port e), { w with events := w.events ++ [.submitted query (.error e)] })
  | submitted {query : DownloadQuery} {result : SatRequestResult} (h : w.registry.findByQuery rt query = none)
      (hanswer : ports.submitRequest w.events query = .ok result) :
      Step ports rt w (.submitOnce query) (.ok (submittedRow rt query result),
        ⟨w.registry.storeRow (submittedRow rt query result),
          w.events ++ [.submitted query (.ok result)]⟩)
  | notVerified {requestId : String} {e : ε} (hanswer : ports.verifyRequest w.events requestId = .error e) :
      Step ports rt w (.pollOnce requestId)
        (.error (.port e), { w with events := w.events ++ [.verified requestId (.error e)] })
  | unknown {requestId : String} {verification : SatVerificationResult}
      (h : w.registry.byId requestId = none)
      (hanswer : ports.verifyRequest w.events requestId = .ok verification) :
      Step ports rt w (.pollOnce requestId) (.error (.unknownRequest requestId),
        { w with events := w.events ++ [.verified requestId (.ok verification)] })
  | verified {requestId : String} {verification : SatVerificationResult}
      {registered : RegisteredSatRequest} (h : w.registry.byId requestId = some registered)
      (hanswer : ports.verifyRequest w.events requestId = .ok verification) :
      Step ports rt w (.pollOnce requestId) (.ok (registered.verified verification),
        ⟨w.registry.storeRow (registered.verified verification),
          w.events ++ [.verified requestId (.ok verification)]⟩)

theorem step_exec (ports : Ports ε) (rt : Runtime) (c : Call) (w : World ε) : Step ports rt w c ((c.program ports rt).exec w) := by
  cases c with
  | submitOnce query =>
      rw [Call.program]
      rcases h : w.registry.findByQuery rt query with _ | registered
      · rcases hanswer : ports.submitRequest w.events query with e | result
        · rw [submitOnce_raised h hanswer]
          exact .notSubmitted h hanswer
        · rw [submitOnce_new h hanswer]
          exact .submitted h hanswer
      · rw [submitOnce_known h]
        exact .found h
  | pollOnce requestId =>
      rw [Call.program]
      rcases hanswer : ports.verifyRequest w.events requestId with e | verification
      · rw [pollOnce_raised hanswer]
        exact .notVerified hanswer
      · rcases h : w.registry.byId requestId with _ | registered
        · rw [pollOnce_unknown hanswer h]
          exact .unknown h hanswer
        · rw [pollOnce_known hanswer h]
          exact .verified h hanswer

/-- What every call keeps, a sequence of calls keeps. -/
theorem runCalls_keeps {I : World ε → Prop} (hstart : I .start)
    (hstep : ∀ w c run, Step ports rt w c run → I w → I run.2) : I (runCalls ports rt calls) := by
  induction calls using List.reverseRecOn with
  | nil => exact hstart
  | append_singleton calls c ih =>
      rw [runCalls_snoc]
      exact hstep _ c _ (step_exec ports rt c _) ih

/-! ## The two indexes -/

/-- The query was submitted and SAT answered the request id. -/
def Submitted (rt : Runtime) (criteria : String × String) (requestId : String)
    (events : List (PortEvent ε)) : Prop :=
  ∃ query result, PortEvent.submitted query (.ok result) ∈ events ∧ criteriaOf rt query = criteria ∧
    result.requestId = requestId

/-- The indexes are sound, and the criteria lead to what was submitted. -/
structure Indexed (rt : Runtime) (w : World ε) : Prop where
  sound : TwoIndexes.Sound RegisteredSatRequest.criteria RegisteredSatRequest.requestId w.registry
  traced : ∀ criteria requestId, (∃ registered, w.registry.byKey criteria = some registered ∧
    registered.requestId = requestId) ↔ Submitted rt criteria requestId w.events

theorem submitted_snoc_other {events : List (PortEvent ε)} {event : PortEvent ε} {criteria : String × String}
    (h : ∀ query result, event = .submitted query (.ok result) → criteriaOf rt query ≠ criteria) :
    Submitted rt criteria requestId (events ++ [event]) ↔ Submitted rt criteria requestId events := by
  constructor
  · rintro ⟨query, result, hmem, hcriteria, hid⟩
    rcases List.mem_append.mp hmem with hmem | hmem
    · exact ⟨query, result, hmem, hcriteria, hid⟩
    · exact absurd hcriteria (h query result (List.mem_singleton.mp hmem).symm)
  · rintro ⟨query, result, hmem, hcriteria, hid⟩
    exact ⟨query, result, List.mem_append_left _ hmem, hcriteria, hid⟩

theorem submitted_snoc_self {events : List (PortEvent ε)} {result : SatRequestResult}
    (hnew : ∀ requestId, ¬ Submitted rt (criteriaOf rt query) requestId events) :
    Submitted rt (criteriaOf rt query) requestId (events ++ [.submitted query (.ok result)]) ↔
      result.requestId = requestId := by
  constructor
  · rintro ⟨other, answered, hmem, hcriteria, hid⟩
    rcases List.mem_append.mp hmem with hmem | hmem
    · exact absurd ⟨other, answered, hmem, hcriteria, hid⟩ (hnew requestId)
    · cases List.mem_singleton.mp hmem
      exact hid
  · exact fun hid => ⟨query, result, List.mem_append_right _ (List.mem_singleton_self _), rfl, hid⟩

theorem Indexed.start : Indexed rt (.start : World ε) where
  sound := TwoIndexes.sound_empty
  traced := by
    intro criteria requestId
    constructor
    · rintro ⟨registered, h, -⟩
      cases h
    · rintro ⟨query, result, hmem, -⟩
      cases hmem

theorem Indexed.silent {event : PortEvent ε} (h : Indexed rt w)
    (hevent : ∀ query result, event ≠ .submitted query (.ok result)) :
    Indexed rt { w with events := w.events ++ [event] } where
  sound := h.sound
  traced := fun criteria requestId => (h.traced criteria requestId).trans
    (submitted_snoc_other fun query result hsame => absurd hsame (hevent query result)).symm

/-- A verified row takes the place of the row found by its request id. -/
theorem Indexed.replaces (h : Indexed rt w) {verification : SatVerificationResult}
    (hfound : w.registry.byId requestId = some registered) :
    w.registry.byId (registered.verified verification).requestId = some registered := by
  have hid : registered.requestId = requestId := h.sound.named _ _ hfound
  rw [← hid] at hfound
  exact hfound

theorem Indexed.step {c : Call} {run : Except (Fault ε) RegisteredSatRequest × World ε}
    (hstep : Step ports rt w c run) (h : Indexed rt w) : Indexed rt run.2 := by
  cases hstep with
  | found => exact h
  | notSubmitted _ hanswer => exact h.silent fun _ _ hsame => by cases hsame
  | notVerified hanswer => exact h.silent fun _ _ hsame => by cases hsame
  | unknown _ hanswer => exact h.silent fun _ _ hsame => by cases hsame
  | @submitted query result hnone hanswer =>
      have hnew : ∀ requestId, ¬ Submitted rt (criteriaOf rt query) requestId w.events := by
        intro requestId hsubmitted
        obtain ⟨registered, hfound, -⟩ := (h.traced _ _).mpr hsubmitted
        rw [findByQuery] at hnone
        rw [hnone] at hfound
        cases hfound
      refine ⟨h.sound.insert hnone, fun criteria requestId => ?_⟩
      by_cases hcriteria : criteria = criteriaOf rt query
      · subst hcriteria
        rw [submitted_snoc_self hnew]
        have hstored : (w.registry.storeRow (submittedRow rt query result)).byKey (criteriaOf rt query) =
            some (submittedRow rt query result) := TwoIndexes.byKey_store_self
        constructor
        · rintro ⟨registered, hfound, hid⟩
          rw [hstored] at hfound
          cases hfound
          exact hid
        · exact fun hid => ⟨_, hstored, hid⟩
      · rw [submitted_snoc_other fun _ _ hsame => by cases hsame; exact Ne.symm hcriteria]
        have hkept : (w.registry.storeRow (submittedRow rt query result)).byKey criteria =
            w.registry.byKey criteria := TwoIndexes.byKey_store_of_ne hcriteria
        rw [hkept]
        exact h.traced criteria requestId
  | @verified requestId verification registered hfound hanswer =>
      refine ⟨h.sound.replace (h.replaces hfound) rfl, fun criteria other => ?_⟩
      have hother : ∀ query result, (.verified requestId (.ok verification) : PortEvent ε) =
          .submitted query (.ok result) → criteriaOf rt query ≠ criteria := by
        intro _ _ hsame
        cases hsame
      rw [submitted_snoc_other hother, ← h.traced criteria other]
      by_cases hcriteria : criteria = registered.criteria
      · subst hcriteria
        have hstored : (w.registry.storeRow (registered.verified verification)).byKey registered.criteria =
            some (registered.verified verification) := TwoIndexes.byKey_store_self
        rw [hstored, h.sound.rooted _ _ hfound]
        simp [RegisteredSatRequest.verified, verifiedRow]
      · have hkept : (w.registry.storeRow (registered.verified verification)).byKey criteria =
            w.registry.byKey criteria := TwoIndexes.byKey_store_of_ne hcriteria
        rw [hkept]

theorem Indexed.run : Indexed rt (runCalls ports rt calls) :=
  runCalls_keeps .start fun _ _ _ => Indexed.step

/-- Every registered request found by query is the entry found by its request id. -/
def IndexesAgree (rt : Runtime) (registry : InMemorySatRequestRegistry) : Prop :=
  ∀ query registered, registry.findByQuery rt query = some registered →
    registry.byId registered.requestId = some registered

/-- A poll that is recorded is visible for the queries that submitted the request, and for no
other. -/
def PollVisible (ports : Ports ε) (rt : Runtime) (w : World ε) (requestId : String) : Prop :=
  ∀ registered after, (pollOnce ports requestId).exec w = (.ok registered, after) →
    ∀ query, after.registry.findByQuery rt query = some registered ↔
      Submitted rt (criteriaOf rt query) requestId after.events

/-- A call that registers a request is answered a request id under which nothing is registered. -/
def AnswersNewId (ports : Ports ε) (rt : Runtime) (w : World ε) : Call → Prop
  | .submitOnce query => w.registry.findByQuery rt query = none →
      ∀ result, ports.submitRequest w.events query = .ok result → w.registry.byId result.requestId = none
  | .pollOnce _ => True

/-- Every registered row was registered for a query. -/
theorem indexesAgree_iff (h : Indexed rt w) :
    IndexesAgree rt w.registry ↔ TwoIndexes.Agree RegisteredSatRequest.requestId w.registry := by
  constructor
  · intro hagree criteria registered hfound
    obtain ⟨query, _, -, hcriteria, -⟩ := (h.traced criteria _).mp ⟨registered, hfound, rfl⟩
    subst hcriteria
    exact hagree query registered hfound
  · exact fun hagree query registered hfound => hagree _ registered hfound

/-- A call leaves the indexes agreeing exactly if they agreed and it registered no id anew. -/
theorem agree_step_iff {c : Call} {run : Except (Fault ε) RegisteredSatRequest × World ε}
    (hstep : Step ports rt w c run) (h : Indexed rt w) :
    TwoIndexes.Agree RegisteredSatRequest.requestId run.2.registry ↔
      TwoIndexes.Agree RegisteredSatRequest.requestId w.registry ∧ AnswersNewId ports rt w c := by
  cases hstep with
  | @found query registered hfound =>
      refine (and_iff_left fun hnone => ?_).symm
      rw [hfound] at hnone
      cases hnone
  | notSubmitted _ hanswer =>
      refine (and_iff_left fun _ result hresult => ?_).symm
      rw [hanswer] at hresult
      cases hresult
  | notVerified hanswer => exact (and_iff_left trivial).symm
  | unknown _ hanswer => exact (and_iff_left trivial).symm
  | @submitted query result hnone hanswer =>
      have hid : AnswersNewId ports rt w (.submitOnce query) ↔ w.registry.byId result.requestId = none := by
        constructor
        · exact fun hnew => hnew hnone result hanswer
        · intro hnew _ other hother
          rw [hanswer] at hother
          exact Except.ok.inj hother ▸ hnew
      rw [hid]
      have hrow : w.registry.byKey (submittedRow rt query result).criteria = none := hnone
      exact TwoIndexes.agree_insert_iff h.sound hrow
  | @verified requestId verification registered hfound hanswer =>
      rw [AnswersNewId, and_true]
      exact TwoIndexes.agree_replace_iff h.sound (h.replaces hfound) rfl

/-- The indexes agree after a sequence of calls exactly if every registration got a new id. -/
theorem agree_run_iff : TwoIndexes.Agree RegisteredSatRequest.requestId (runCalls ports rt calls).registry ↔
    ∀ before c, before ++ [c] <+: calls → AnswersNewId ports rt (runCalls ports rt before) c := by
  induction calls using List.reverseRecOn with
  | nil => exact iff_of_true TwoIndexes.agree_empty FirstAppearance.forall_prefix_nil
  | append_singleton calls last ih =>
      rw [runCalls_snoc, agree_step_iff (step_exec ports rt last _) Indexed.run, ih]
      exact FirstAppearance.forall_prefix_snoc.symm

theorem pollVisible_of_agree (h : Indexed rt w)
    (hagree : TwoIndexes.Agree RegisteredSatRequest.requestId w.registry) : PollVisible ports rt w requestId := by
  intro registered after hexec query
  have hstep := step_exec ports rt (.pollOnce requestId) w
  rw [Call.program, hexec] at hstep
  have hafter : Indexed rt after := Indexed.step hstep h
  have hagreeAfter : TwoIndexes.Agree RegisteredSatRequest.requestId after.registry :=
    (agree_step_iff hstep h).mpr ⟨hagree, trivial⟩
  cases hstep with
  | @verified _ verification found hfound hanswer =>
      have hfoundId : found.requestId = requestId := h.sound.named _ _ hfound
      have hnamed : (found.verified verification).requestId = requestId := hfoundId
      have hstored : (w.registry.storeRow (found.verified verification)).byId
          (found.verified verification).requestId = some (found.verified verification) :=
        TwoIndexes.byId_store_self
      rw [hnamed] at hstored
      rw [← hafter.traced]
      constructor
      · exact fun hquery => ⟨_, hquery, hnamed⟩
      · rintro ⟨other, hother, hid⟩
        have hsame := hagreeAfter _ _ hother
        rw [hid] at hsame
        cases hstored.symm.trans hsame
        exact hother

/-- After a sequence of calls the indexes agree, and every further poll is visible where it
belongs, exactly if every registration got a request id that was not registered. -/
theorem indexes_agree_iff : (IndexesAgree rt (runCalls ports rt calls).registry ∧
    ∀ requestId, PollVisible ports rt (runCalls ports rt calls) requestId) ↔
    ∀ before c, before ++ [c] <+: calls → AnswersNewId ports rt (runCalls ports rt before) c := by
  rw [indexesAgree_iff Indexed.run]
  constructor
  · exact fun h => agree_run_iff.mp h.1
  · intro h
    have hagree := agree_run_iff.mpr h
    exact ⟨hagree, fun requestId => pollVisible_of_agree Indexed.run hagree⟩

/-! ## Two rejected submissions -/

/-- Two submissions of different criteria that get one request id leave the indexes apart. -/
theorem disagree_of_repeated {first second : DownloadQuery} {result : SatRequestResult}
    (hapart : criteriaOf rt first ≠ criteriaOf rt second)
    (hanswer : ∀ events query, ports.submitRequest events query = .ok result) :
    ¬ IndexesAgree rt (runCalls ports rt [.submitOnce first, .submitOnce second]).registry := by
  intro hagree
  have hnew := agree_run_iff.mp ((indexesAgree_iff Indexed.run).mp hagree) [.submitOnce first]
    (.submitOnce second) List.prefix_rfl
  have hfirst : runCalls ports rt [.submitOnce first] =
      ⟨InMemorySatRequestRegistry.storeRow (submittedRow rt first result) .empty,
        [.submitted first (.ok result)]⟩ := by
    have hexec := @submitOnce_new ε ports rt .start first rfl result (hanswer _ _)
    exact congrArg Prod.snd hexec
  rw [hfirst] at hnew
  have hnone := hnew (TwoIndexes.byKey_store_of_ne hapart.symm) result (hanswer _ _)
  have hstored : (InMemorySatRequestRegistry.storeRow (submittedRow rt first result) .empty).byId
      (submittedRow rt first result).requestId = some (submittedRow rt first result) :=
    TwoIndexes.byId_store_self
  cases hstored.symm.trans hnone

/-- SAT rejects every submission, without a request id. -/
def rejectingPorts : Ports String where
  authenticate := fun _ => .ok ()
  submitRequest := fun _ _ => .ok ⟨"", "301", "XML mal formado", .permanentFailure⟩
  verifyRequest := fun _ requestId => .ok ⟨requestId, .rejected, "5004", "No existe", [], .permanentFailure⟩
  downloadPackage := fun _ packageId => .ok ⟨packageId, "5008", "Maximo de descargas", .downloadsExhausted, none⟩

/-- The digests of the criteria of two tenants. -/
def tenantHost : Runtime where
  sha256Text s :=
    if s = "\x7b\"complement\":null,\"direction\":\"folio\",\"document_status\":null,\"document_type\":null,\"issuer_rfc\":null,\"period\":null,\"receiver_rfcs\":[],\"recovery_variant_reason\":null,\"request_type\":\"cfdi\",\"requester_rfc\":\"AAA010101AAA\",\"rfc_on_behalf\":null,\"tenant_id\":\"tenant-1\",\"uuid\":\"AAAAAAAA-AAAA-4AAA-8AAA-AAAAAAAAAAAA\"\x7d"
    then 0xb51eb49582e0c1e6ecd849d4e34f4681256e804c9a4b0228eb821fe158d0b7dc
    else 0xe9e2e9a5d7b63b89cfbdf936fe20e3ec715dd2e7277efd59baa2ce10731905cd
  sha256Bytes _ := 0
  upper := id
  lower := Text.lower
  alnum c := c.isAlphanum

theorem tenants_apart : criteriaOf tenantHost (tenantQuery "tenant-1") ≠ criteriaOf tenantHost (tenantQuery "tenant-2") :=
  fun h => absurd (congrArg Prod.fst h) (by decide : "tenant-1" ≠ "tenant-2")

/-- After two rejected submissions the first query no longer leads to the entry of its
request id. -/
theorem rejected_submissions_disagree : ¬ (IndexesAgree tenantHost
      (runCalls rejectingPorts tenantHost
        [.submitOnce (tenantQuery "tenant-1"), .submitOnce (tenantQuery "tenant-2")]).registry ∧
    ∀ requestId, PollVisible rejectingPorts tenantHost
      (runCalls rejectingPorts tenantHost
        [.submitOnce (tenantQuery "tenant-1"), .submitOnce (tenantQuery "tenant-2")]) requestId) :=
  fun h => disagree_of_repeated tenants_apart (fun _ _ => rfl) h.1

end SatOrchestration

end CfdiVault
