import CfdiVault.SatRegistry

/-!
# Registrations and their packages

What the registry holds after any sequence of calls in which the ports return, every polled
request is registered and no request id is answered twice: `registrationIn` reads it off the
events, as the first submission of the criteria followed by all verifications of its request.

`Current` is the invariant.  It carries the agreement of the two indexes, without which a
verification could reach the row of another query.
-/

namespace CfdiVault

namespace SatOrchestration

open InMemorySatRequestRegistry

variable {ε : Type}

namespace PortEvent

/-- The call was answered. -/
def Returned : PortEvent ε → Prop
  | authenticated answer => ∃ token, answer = .ok token
  | submitted _ answer => ∃ result, answer = .ok result
  | verified _ answer => ∃ verification, answer = .ok verification
  | downloaded _ answer => ∃ package, answer = .ok package

/-- The request id that a submission was answered. -/
def answeredId? : PortEvent ε → Option String
  | submitted _ (.ok result) => some result.requestId
  | _ => none

/-- The answer to a submission of the criteria. -/
def submission? (rt : Runtime) (criteria : String × String) : PortEvent ε → Option SatRequestResult
  | submitted query (.ok result) => if criteriaOf rt query = criteria then some result else none
  | _ => none

/-- The verification of a request. -/
def verification? (requestId : String) : PortEvent ε → Option SatVerificationResult
  | verified asked (.ok verification) => if asked = requestId then some verification else none
  | _ => none

/-- The requester was called for the criteria. -/
def submits (rt : Runtime) (criteria : String × String) : PortEvent ε → Bool
  | submitted query _ => criteriaOf rt query = criteria
  | _ => false

end PortEvent

/-- The packages that `FINISHED` verifications listed, in order and with repeats. -/
def finishedPackages (verifications : List SatVerificationResult) : List String :=
  (verifications.filter (·.action = .finished)).flatMap (·.packageIds)

/-- A submitted request after its verifications: the state of the last one and the packages
of all that were `FINISHED`, each once, in order of first appearance. -/
def registration (criteria : String × String) (result : SatRequestResult)
    (verifications : List SatVerificationResult) : RegisteredSatRequest where
  tenantId := criteria.1
  criteriaHash := criteria.2
  requestId := result.requestId
  requestResult := result
  state := verifications.getLast?.map (·.state)
  action := some ((verifications.getLast?.map (·.action)).getD result.action)
  message := (verifications.getLast?.map (·.message)).getD result.message
  packageIds := (finishedPackages verifications).eraseDups

/-- The registration of the criteria, read off the events. -/
def registrationIn (rt : Runtime) (criteria : String × String) (events : List (PortEvent ε)) :
    Option RegisteredSatRequest :=
  (events.findSome? (PortEvent.submission? rt criteria)).map fun result =>
    registration criteria result (events.filterMap (PortEvent.verification? result.requestId))

/-- A poll is for a registered request. -/
def Call.IsKnown (w : World ε) : Call → Prop
  | .pollOnce requestId => w.registry.byId requestId ≠ none
  | .submitOnce _ => True

instance {w : World ε} {c : Call} : Decidable (c.IsKnown w) := by
  cases c <;> unfold Call.IsKnown <;> infer_instance

/-- The ports return, only registered requests are polled, and the submissions get pairwise
distinct request ids. -/
structure Orderly (ports : Ports ε) (rt : Runtime) (calls : List Call) : Prop where
  returned : ∀ event ∈ (runCalls ports rt calls).events, event.Returned
  known : ∀ before c, before ++ [c] <+: calls → c.IsKnown (runCalls ports rt before)
  distinct : ((runCalls ports rt calls).events.filterMap PortEvent.answeredId?).Nodup

/-- The registry holds what the events say. -/
structure Current (rt : Runtime) (w : World ε) : Prop where
  indexed : Indexed rt w
  agree : TwoIndexes.Agree RegisteredSatRequest.requestId w.registry
  rows : ∀ criteria, w.registry.byKey criteria = registrationIn rt criteria w.events
  polled : ∀ requestId verification, .verified requestId (.ok verification) ∈ w.events →
    w.registry.byId requestId ≠ none
  asked : ∀ criteria, w.events.countP (PortEvent.submits rt criteria) =
    if w.registry.byKey criteria = none then 0 else 1

variable {ports : Ports ε} {rt : Runtime} {w : World ε} {query : DownloadQuery} {requestId : String}
  {registered : RegisteredSatRequest} {calls : List Call} {criteria : String × String}
  {result : SatRequestResult} {verification : SatVerificationResult}
  {verifications : List SatVerificationResult} {events : List (PortEvent ε)}

/-! ## Registrations -/

theorem registration_new : registration (criteriaOf rt query) result [] = submittedRow rt query result := rfl

theorem finishedPackages_append {more : List SatVerificationResult} :
    finishedPackages (verifications ++ more) = finishedPackages verifications ++ finishedPackages more := by
  rw [finishedPackages, List.filter_append, List.flatMap_append]
  rfl

/-- A further verification changes a registration as the registry does. -/
theorem registration_verified : registration criteria result (verifications ++ [verification]) =
    (registration criteria result verifications).verified verification := by
  by_cases hfinished : verification.action = .finished
  · have hids : (finishedPackages (verifications ++ [verification])).eraseDups =
        FirstAppearance.appendUnique (finishedPackages verifications).eraseDups verification.packageIds := by
      rw [finishedPackages_append, FirstAppearance.appendUnique_eraseDups]
      simp [finishedPackages, hfinished]
    rw [registration, hids]
    simp [registration, RegisteredSatRequest.verified, verifiedRow, hfinished]
  · have hids : finishedPackages (verifications ++ [verification]) = finishedPackages verifications := by
      rw [finishedPackages_append]
      simp [finishedPackages, hfinished]
    rw [registration, hids]
    simp [registration, RegisteredSatRequest.verified, verifiedRow, hfinished]

theorem findSubmission_snoc {event : PortEvent ε} (h : event.submission? rt criteria = none) :
    (events ++ [event]).findSome? (PortEvent.submission? rt criteria) =
      events.findSome? (PortEvent.submission? rt criteria) := by
  rw [List.findSome?_append, List.findSome?_singleton, h, Option.or_none]

theorem verifications_submitted {answer : Except ε SatRequestResult} :
    (events ++ [PortEvent.submitted query answer]).filterMap (PortEvent.verification? requestId) =
      events.filterMap (PortEvent.verification? requestId) := by
  rw [List.filterMap_append]
  exact List.append_nil _

theorem registrationIn_submitted_self (hnew : registrationIn rt (criteriaOf rt query) events = none)
    (hunasked : ∀ verification, PortEvent.verified result.requestId (.ok verification) ∉ events) :
    registrationIn rt (criteriaOf rt query) (events ++ [.submitted query (.ok result)]) =
      some (submittedRow rt query result) := by
  have hnone : events.findSome? (PortEvent.submission? rt (criteriaOf rt query)) = none :=
    Option.map_eq_none_iff.mp hnew
  have hverifications : events.filterMap (PortEvent.verification? result.requestId) = [] := by
    refine List.filterMap_eq_nil_iff.mpr fun event hevent => ?_
    rcases event with _ | _ | ⟨asked, e | verification⟩ | _
    · rfl
    · rfl
    · rfl
    · refine if_neg fun hsame => ?_
      subst hsame
      exact hunasked verification hevent
    · rfl
  have hfound : (events ++ [PortEvent.submitted query (.ok result)]).findSome?
      (PortEvent.submission? rt (criteriaOf rt query)) = some result := by
    rw [List.findSome?_append, hnone, Option.none_or, List.findSome?_singleton]
    exact if_pos rfl
  rw [registrationIn, hfound, Option.map_some, verifications_submitted, hverifications, registration_new]

theorem registrationIn_submitted_other (h : criteriaOf rt query ≠ criteria) :
    registrationIn rt criteria (events ++ [.submitted query (.ok result)]) =
      registrationIn rt criteria events := by
  have hnot : (PortEvent.submitted query (.ok result) : PortEvent ε).submission? rt criteria = none := if_neg h
  rw [registrationIn, registrationIn, findSubmission_snoc hnot]
  exact congrArg (Option.map · _) (funext fun _ => congrArg _ verifications_submitted)

theorem registrationIn_verified_self (h : registrationIn rt criteria events = some registered) :
    registrationIn rt criteria (events ++ [.verified registered.requestId (.ok verification)]) =
      some (registered.verified verification) := by
  obtain ⟨result, hresult, rfl⟩ := Option.map_eq_some_iff.mp h
  have hverifications : (events ++ [PortEvent.verified result.requestId (.ok verification)]).filterMap
      (PortEvent.verification? result.requestId) =
        events.filterMap (PortEvent.verification? result.requestId) ++ [verification] := by
    rw [List.filterMap_append]
    simp [PortEvent.verification?]
  rw [registrationIn, findSubmission_snoc rfl, hresult, Option.map_some, ← registration_verified]
  exact congrArg (fun vs => some (registration criteria result vs)) hverifications

theorem registrationIn_verified_other
    (h : ∀ registered, registrationIn rt criteria events = some registered → registered.requestId ≠ requestId) :
    registrationIn rt criteria (events ++ [.verified requestId (.ok verification)]) =
      registrationIn rt criteria events := by
  rw [registrationIn, registrationIn, findSubmission_snoc rfl]
  rcases hfound : events.findSome? (PortEvent.submission? rt criteria) with _ | result
  · rfl
  · have hother : result.requestId ≠ requestId := h _ (by rw [registrationIn, hfound]; rfl)
    rw [Option.map_some, Option.map_some, List.filterMap_append]
    simp [PortEvent.verification?, Ne.symm hother]

/-! ## The invariant -/

theorem Current.start : Current rt (.start : World ε) where
  indexed := .start
  agree := TwoIndexes.agree_empty
  rows := fun _ => rfl
  polled := fun _ _ h => by cases h
  asked := fun _ => rfl

/-- A submission of criteria that are not registered, answered a new request id. -/
theorem Current.submitted (h : Current rt w) (hnone : w.registry.findByQuery rt query = none)
    (hanswer : ports.submitRequest w.events query = .ok result)
    (hnew : w.registry.byId result.requestId = none) :
    Current rt ⟨w.registry.storeRow (submittedRow rt query result),
      w.events ++ [.submitted query (.ok result)]⟩ := by
  have hstep : Step ports rt w (.submitOnce query) _ := .submitted hnone hanswer
  have hself : (w.registry.storeRow (submittedRow rt query result)).byKey (criteriaOf rt query) =
      some (submittedRow rt query result) := TwoIndexes.byKey_store_self
  have hother : ∀ criteria ≠ criteriaOf rt query,
      (w.registry.storeRow (submittedRow rt query result)).byKey criteria = w.registry.byKey criteria :=
    fun criteria hne => TwoIndexes.byKey_store_of_ne hne
  refine ⟨h.indexed.step hstep, (agree_step_iff hstep h.indexed).mpr ⟨h.agree, fun _ other hresult => ?_⟩,
    fun criteria => ?_, fun requestId verification hmem => ?_, fun criteria => ?_⟩
  · rw [hanswer] at hresult
    exact Except.ok.inj hresult ▸ hnew
  · by_cases hcriteria : criteria = criteriaOf rt query
    · subst hcriteria
      rw [hself, registrationIn_submitted_self ((h.rows _).symm.trans hnone) fun verification hmem =>
        h.polled _ verification hmem hnew]
    · rw [hother criteria hcriteria, registrationIn_submitted_other (Ne.symm hcriteria), h.rows]
  · have hpolled : w.registry.byId requestId ≠ none := by
      rcases List.mem_append.mp hmem with hmem | hmem
      · exact h.polled requestId verification hmem
      · cases List.mem_singleton.mp hmem
    have hkept : (w.registry.storeRow (submittedRow rt query result)).byId requestId =
        w.registry.byId requestId := by
      refine TwoIndexes.byId_store_of_ne fun hsame => hpolled ?_
      rw [hsame]
      exact hnew
    rw [hkept]
    exact hpolled
  · rw [List.countP_append, h.asked]
    by_cases hcriteria : criteria = criteriaOf rt query
    · subst hcriteria
      have hbefore : w.registry.byKey (criteriaOf rt query) = none := hnone
      rw [hself, hbefore]
      simp [PortEvent.submits]
    · rw [hother criteria hcriteria]
      simp [PortEvent.submits, Ne.symm hcriteria]

/-- A verification of a registered request. -/
theorem Current.verified (h : Current rt w) (hfound : w.registry.byId requestId = some registered)
    (hanswer : ports.verifyRequest w.events requestId = .ok verification) :
    Current rt ⟨w.registry.storeRow (registered.verified verification),
      w.events ++ [.verified requestId (.ok verification)]⟩ := by
  have hstep : Step ports rt w (.pollOnce requestId) _ := .verified hfound hanswer
  have hid : registered.requestId = requestId := h.indexed.sound.named _ _ hfound
  have hrow : w.registry.byKey registered.criteria = some registered := h.indexed.sound.rooted _ _ hfound
  have hself : (w.registry.storeRow (registered.verified verification)).byKey registered.criteria =
      some (registered.verified verification) := TwoIndexes.byKey_store_self
  have hother : ∀ criteria ≠ registered.criteria,
      (w.registry.storeRow (registered.verified verification)).byKey criteria = w.registry.byKey criteria :=
    fun criteria hne => TwoIndexes.byKey_store_of_ne hne
  refine ⟨h.indexed.step hstep, (agree_step_iff hstep h.indexed).mpr ⟨h.agree, trivial⟩,
    fun criteria => ?_, fun other answered hmem => ?_, fun criteria => ?_⟩
  · by_cases hcriteria : criteria = registered.criteria
    · subst hcriteria
      rw [hself, ← hid, registrationIn_verified_self ((h.rows _).symm.trans hrow)]
    · rw [hother criteria hcriteria, h.rows, registrationIn_verified_other fun row hin hsame => hcriteria ?_]
      -- the indexes agree, so the row found by the request id is the only one that carries it
      have hkey := (h.rows criteria).trans hin
      have hagree := h.agree criteria row hkey
      rw [hsame, hfound] at hagree
      cases hagree
      exact (h.indexed.sound.keyed criteria _ hkey).symm
  · by_cases hsame : other = (registered.verified verification).requestId
    · have hstored : (w.registry.storeRow (registered.verified verification)).byId
          (registered.verified verification).requestId = some (registered.verified verification) :=
        TwoIndexes.byId_store_self
      rw [hsame, hstored]
      exact Option.some_ne_none _
    · have hkept : (w.registry.storeRow (registered.verified verification)).byId other =
          w.registry.byId other := TwoIndexes.byId_store_of_ne hsame
      rw [hkept]
      rcases List.mem_append.mp hmem with hmem | hmem
      · exact h.polled other answered hmem
      · cases List.mem_singleton.mp hmem
        exact absurd hid.symm hsame
  · rw [List.countP_append, h.asked]
    by_cases hcriteria : criteria = registered.criteria
    · subst hcriteria
      rw [hself, hrow]
      rfl
    · rw [hother criteria hcriteria]
      rfl

theorem events_grow (c : Call) : w.events <+: ((c.program ports rt).exec w).2.events := by
  have hstep := step_exec ports rt c w
  generalize (c.program ports rt).exec w = run at hstep
  cases hstep with
  | found => exact List.prefix_rfl
  | _ => exact List.prefix_append _ _

theorem runCalls_grow {before : List Call} (h : before <+: calls) :
    (runCalls ports rt before).events <+: (runCalls ports rt calls).events := by
  obtain ⟨rest, rfl⟩ := h
  induction rest using List.reverseRecOn with
  | nil => exact (List.append_nil before).symm ▸ List.prefix_rfl
  | append_singleton rest c ih =>
      rw [← List.append_assoc, runCalls_snoc]
      exact ih.trans (events_grow c)

theorem Orderly.before {before : List Call} (h : Orderly ports rt calls) (hpre : before <+: calls) :
    Orderly ports rt before where
  returned := fun event hevent => h.returned event ((runCalls_grow hpre).subset hevent)
  known := fun front c hfront => h.known front c (hfront.trans hpre)
  distinct := h.distinct.sublist ((runCalls_grow hpre).sublist.filterMap _)

/-- A registered request id was answered to a submission. -/
theorem answered_of_byId (h : Indexed rt w) (hfound : w.registry.byId requestId = some registered) :
    requestId ∈ w.events.filterMap PortEvent.answeredId? := by
  obtain ⟨query, result, hmem, -, hid⟩ :=
    (h.traced _ _).mp ⟨registered, h.sound.rooted _ _ hfound, h.sound.named _ _ hfound⟩
  exact List.mem_filterMap.mpr ⟨_, hmem, congrArg some hid⟩

theorem Orderly.current (h : Orderly ports rt calls) : Current rt (runCalls ports rt calls) := by
  induction calls using List.reverseRecOn with
  | nil => exact .start
  | append_singleton calls c ih =>
      have hbefore := ih (h.before (List.prefix_append _ _))
      have hreturned := h.returned
      have hdistinct := h.distinct
      have hknown := h.known calls c List.prefix_rfl
      rw [runCalls_snoc] at hreturned hdistinct ⊢
      have hstep := step_exec ports rt c (runCalls ports rt calls)
      generalize (c.program ports rt).exec (runCalls ports rt calls) = run at hreturned hdistinct hstep ⊢
      cases hstep with
      | found => exact hbefore
      | notSubmitted _ _ =>
          obtain ⟨_, hnot⟩ := hreturned _ (List.mem_append_right _ (List.mem_singleton_self _))
          cases hnot
      | notVerified _ =>
          obtain ⟨_, hnot⟩ := hreturned _ (List.mem_append_right _ (List.mem_singleton_self _))
          cases hnot
      | unknown hnone _ => exact absurd hnone hknown
      | verified hfound hanswer => exact hbefore.verified hfound hanswer
      | @submitted query result hnone hanswer =>
          refine hbefore.submitted hnone hanswer (Option.eq_none_iff_forall_ne_some.mpr fun row hrow => ?_)
          rw [List.filterMap_append, List.nodup_append] at hdistinct
          exact hdistinct.2.2 _ (answered_of_byId hbefore.indexed hrow) _ (List.mem_singleton_self _) rfl

/-! ## The runs -/

/-- Further events keep the packages of a registration in front. -/
theorem registrationIn_grow {after : List (PortEvent ε)} (hpre : events <+: after)
    (h : registrationIn rt criteria events = some registered) :
    ∃ later, registrationIn rt criteria after = some later ∧ later.requestId = registered.requestId ∧
      registered.packageIds <+: later.packageIds := by
  obtain ⟨more, rfl⟩ := hpre
  obtain ⟨result, hresult, rfl⟩ := Option.map_eq_some_iff.mp h
  refine ⟨registration criteria result ((events ++ more).filterMap
    (PortEvent.verification? result.requestId)), ?_, rfl, ?_⟩
  · rw [registrationIn, List.findSome?_append, hresult]
    rfl
  · rw [List.filterMap_append]
    change (finishedPackages _).eraseDups <+: (finishedPackages (_ ++ _)).eraseDups
    rw [finishedPackages_append, ← FirstAppearance.appendUnique_eraseDups]
    exact FirstAppearance.prefix_appendUnique

/-- A submission of an orderly sequence returns the registration of its criteria. -/
theorem Orderly.submitOnce_returns {before : List Call} (h : Orderly ports rt calls)
    (hpre : before ++ [.submitOnce query] <+: calls) :
    ∃ registered, (submitOnce ports rt query).exec (runCalls ports rt before) =
        (.ok registered, runCalls ports rt (before ++ [.submitOnce query])) ∧
      registrationIn rt (criteriaOf rt query)
        (runCalls ports rt (before ++ [.submitOnce query])).events = some registered := by
  have hafter := h.before hpre
  have hcurrent := hafter.current
  have hreturned := hafter.returned
  rw [runCalls_snoc, Call.program] at hcurrent hreturned ⊢
  rcases hfound : (runCalls ports rt before).registry.findByQuery rt query with _ | registered
  · rcases hanswer : ports.submitRequest (runCalls ports rt before).events query with e | result
    · rw [submitOnce_raised hfound hanswer] at hreturned
      obtain ⟨_, hnot⟩ := hreturned _ (List.mem_append_right _ (List.mem_singleton_self _))
      cases hnot
    · rw [submitOnce_new hfound hanswer] at hcurrent ⊢
      refine ⟨submittedRow rt query result, rfl, ?_⟩
      rw [← hcurrent.rows]
      have hstored : ((runCalls ports rt before).registry.storeRow (submittedRow rt query result)).byKey
          (submittedRow rt query result).criteria = some (submittedRow rt query result) :=
        TwoIndexes.byKey_store_self
      exact hstored
  · rw [submitOnce_known hfound] at hcurrent ⊢
    exact ⟨registered, rfl, (hcurrent.rows _).symm.trans hfound⟩

/-- In any orderly sequence of calls the requester is called at most once for each criteria,
every submission returns the registration of its criteria as it is then, a registration holds
the packages of all `FINISHED` verifications of its request, each once in order of first
appearance, and no later call takes one away. -/
theorem submit_once_accumulates (h : Orderly ports rt calls) :
    (∀ criteria, (runCalls ports rt calls).events.countP (PortEvent.submits rt criteria) ≤ 1) ∧
    (∀ before query, before ++ [.submitOnce query] <+: calls →
      ∃ registered, (submitOnce ports rt query).exec (runCalls ports rt before) =
          (.ok registered, runCalls ports rt (before ++ [.submitOnce query])) ∧
        registrationIn rt (criteriaOf rt query)
          (runCalls ports rt (before ++ [.submitOnce query])).events = some registered) ∧
    (∀ query registered, (runCalls ports rt calls).registry.findByQuery rt query = some registered →
      registrationIn rt (criteriaOf rt query) (runCalls ports rt calls).events = some registered ∧
      registered.packageIds = (finishedPackages ((runCalls ports rt calls).events.filterMap
        (PortEvent.verification? registered.requestId))).eraseDups ∧ registered.packageIds.Nodup) ∧
    ∀ before, before <+: calls → ∀ query registered,
      (runCalls ports rt before).registry.findByQuery rt query = some registered →
      ∃ later, (runCalls ports rt calls).registry.findByQuery rt query = some later ∧
        later.requestId = registered.requestId ∧ registered.packageIds <+: later.packageIds := by
  have hcurrent := h.current
  refine ⟨fun criteria => ?_, fun before query => h.submitOnce_returns, fun query registered hfound => ?_,
    fun before hpre query registered hfound => ?_⟩
  · rw [hcurrent.asked]
    split_ifs <;> decide
  · have hin := (hcurrent.rows _).symm.trans hfound
    obtain ⟨result, hresult, rfl⟩ := Option.map_eq_some_iff.mp hin
    exact ⟨hin, rfl, FirstAppearance.nodup_eraseDups _⟩
  · have hin := ((h.before hpre).current.rows _).symm.trans hfound
    obtain ⟨later, hlater, hid, hpackages⟩ := registrationIn_grow (runCalls_grow hpre) hin
    exact ⟨later, (hcurrent.rows _).trans hlater, hid, hpackages⟩

/-- Ports that accept a query, and verify its request as finished with two packages, then as in
process, then as finished with one of them and another one. -/
def wanderingPorts : Ports String where
  authenticate := fun _ => .ok ()
  submitRequest := fun _ _ => .ok ⟨"REQ-1", "5000", "accepted", .accepted⟩
  verifyRequest := fun events requestId =>
    if events.length = 1 then .ok ⟨requestId, .finished, "5000", "", ["PKG-2", "PKG-1"], .finished⟩
    else if events.length = 2 then .ok ⟨requestId, .inProcess, "5000", "", [], .inProgress⟩
    else .ok ⟨requestId, .finished, "5000", "", ["PKG-1", "PKG-3"], .finished⟩
  downloadPackage := fun _ packageId => .ok ⟨packageId, "5000", "", .finished, none⟩

/-- The digest of the criteria of the first tenant, the only ones that are submitted. -/
def firstTenantHost : Runtime := { tenantHost with
  sha256Text := fun _ => 0xb51eb49582e0c1e6ecd849d4e34f4681256e804c9a4b0228eb821fe158d0b7dc }

def wanderingCalls : List Call :=
  [.submitOnce (tenantQuery "tenant-1"), .pollOnce "REQ-1", .pollOnce "REQ-1", .pollOnce "REQ-1",
    .submitOnce (tenantQuery "tenant-1")]

theorem wandering_events : (runCalls wanderingPorts firstTenantHost wanderingCalls).events =
    [.submitted (tenantQuery "tenant-1") (.ok ⟨"REQ-1", "5000", "accepted", .accepted⟩),
      .verified "REQ-1" (.ok ⟨"REQ-1", .finished, "5000", "", ["PKG-2", "PKG-1"], .finished⟩),
      .verified "REQ-1" (.ok ⟨"REQ-1", .inProcess, "5000", "", [], .inProgress⟩),
      .verified "REQ-1" (.ok ⟨"REQ-1", .finished, "5000", "", ["PKG-1", "PKG-3"], .finished⟩)] := by
  decide +kernel

theorem wandering_orderly : Orderly wanderingPorts firstTenantHost wanderingCalls where
  returned := by
    rw [wandering_events]
    simp [PortEvent.Returned]
  known := by
    have hsnoc : wanderingCalls = [] ++ [.submitOnce (tenantQuery "tenant-1")] ++ [.pollOnce "REQ-1"] ++
        [.pollOnce "REQ-1"] ++ [.pollOnce "REQ-1"] ++ [.submitOnce (tenantQuery "tenant-1")] := rfl
    rw [hsnoc]
    simp only [FirstAppearance.forall_prefix_snoc]
    exact ⟨⟨⟨⟨⟨FirstAppearance.forall_prefix_nil, trivial⟩, by decide +kernel⟩, by decide +kernel⟩,
      by decide +kernel⟩, trivial⟩
  distinct := by
    rw [wandering_events]
    decide

theorem submit_once_accumulates_sample :
    registrationIn firstTenantHost (criteriaOf firstTenantHost (tenantQuery "tenant-1"))
      (runCalls wanderingPorts firstTenantHost wanderingCalls).events = some
        { tenantId := "tenant-1", criteriaHash := (tenantQuery "tenant-1").criteriaHash firstTenantHost,
          requestId := "REQ-1", requestResult := ⟨"REQ-1", "5000", "accepted", .accepted⟩,
          state := some .finished, action := some .finished, message := "",
          packageIds := ["PKG-2", "PKG-1", "PKG-3"] } :=
  ((submit_once_accumulates wandering_orderly).2.2.1 (tenantQuery "tenant-1") _ (by decide +kernel)).1

end SatOrchestration

end CfdiVault
