import CfdiVault.AsyncVerifyRuns

/-!
# Attempts of a live request

The history of one request, from the moment it is persisted, over any sequence
of scheduler runs: how often the verifier is called for it, when, and what its
record says about it.

`Tracked` is the invariant.  It ties the record to the calls that the history
shows for it: the count of attempts is the number of calls, except when the
answer to the last call asked for another attempt whose check time the host
cannot represent.  That call is not counted, and the record stays marked as
in progress.  One attempt preserves the invariant (`Tracked.attempt`), hence so
does a batch, a run and a sequence of runs (`Tracked.ops`).
-/

namespace CfdiVault

open LiveRequestState

namespace AsyncVerify

/-! ## The calls of a history -/

/-- One call of the verifier. -/
structure VerifierCall where
  record : LiveMetadataRequestRecord
  now : Instant
  answer : VerifierAnswer

/-- The call recorded by an event, if it is one about the given request. -/
def callFor? (ref : String) : VerifyEvent → Option VerifierCall
  | .called record now answer =>
      if record.requestRef = ref then some ⟨record, now, answer⟩ else none
  | .replaced .. => none

/-- The calls of the verifier for a request. -/
def callsFor (ref : String) (events : List VerifyEvent) : List VerifierCall :=
  events.filterMap (callFor? ref)

theorem callsFor_append (ref : String) (events more : List VerifyEvent) :
    callsFor ref (events ++ more) = callsFor ref events ++ callsFor ref more :=
  List.filterMap_append

@[simp] theorem callsFor_nil (ref : String) : callsFor ref [] = [] := rfl

@[simp] theorem callsFor_replacement (ref : String) (record : LiveMetadataRequestRecord)
    (rs : List LiveMetadataRequestRecord) (events : List VerifyEvent) :
    callsFor ref (replacement record rs :: events) = callsFor ref events := rfl

theorem callsFor_called {ref : String} {record : LiveMetadataRequestRecord} {now : Instant}
    {answer : VerifierAnswer} {events : List VerifyEvent} (h : record.requestRef = ref) :
    callsFor ref (.called record now answer :: events) =
      ⟨record, now, answer⟩ :: callsFor ref events :=
  List.filterMap_cons_some (if_pos h)

/-- The replacements of a history that wrote a record of the given request. -/
def writesFor (ref : String) (events : List VerifyEvent) : List LiveMetadataRequestRecord :=
  events.filterMap fun event =>
    match event with
    | .replaced record _ => if record.requestRef = ref then some record else none
    | .called .. => none

theorem writesFor_append (ref : String) (events more : List VerifyEvent) :
    writesFor ref (events ++ more) = writesFor ref events ++ writesFor ref more :=
  List.filterMap_append

@[simp] theorem writesFor_called (ref : String) (record : LiveMetadataRequestRecord) (now : Instant)
    (answer : VerifierAnswer) (events : List VerifyEvent) :
    writesFor ref (.called record now answer :: events) = writesFor ref events := rfl

theorem writesFor_replacement {ref : String} {record : LiveMetadataRequestRecord}
    {rs : List LiveMetadataRequestRecord} {events : List VerifyEvent}
    (h : record.requestRef = ref) :
    writesFor ref (replacement record rs :: events) = record :: writesFor ref events :=
  List.filterMap_cons_some (if_pos h)

section Attempts

variable {rt : Runtime} {policy : VerifyBackoffPolicy} {verifier : Verifier} {now : Instant}
  {past events : List VerifyEvent} {rs rs' : List LiveMetadataRequestRecord}
  {r s : LiveMetadataRequestRecord} {ref : String}

/-! ## Requests that a batch does not touch -/

theorem sole_insertRecord_other (hne : s.requestRef ≠ ref)
    (h : Keyed.Sole (·.requestRef) ref r rs) :
    Keyed.Sole (·.requestRef) ref r (insertRecord s rs) :=
  Keyed.sole_upsert_of_ne sortByCreation_perm hne h

theorem sole_insertRecord_self (href : s.requestRef = ref) :
    Keyed.Sole (·.requestRef) ref s (insertRecord s rs) := by
  have := @Keyed.sole_upsert_self _ _ _ LiveMetadataRequestRecord.requestRef _ s rs
      sortByCreation_perm
  rwa [href] at this

/-- The verification of another request leaves the only record of a request in place,
and asks and writes nothing about it. -/
theorem Attempt.other {result : Except StateFault LiveMetadataRequestRecord}
    (h : Attempt rt policy verifier now past rs s events rs' result) (hne : s.requestRef ≠ ref) :
    callsFor ref events = [] ∧ writesFor ref events = [] ∧
      (Keyed.Sole (·.requestRef) ref r rs → Keyed.Sole (·.requestRef) ref r rs') := by
  cases h with
  | unreadable => exact ⟨rfl, rfl, id⟩
  | expired | exhausted =>
      refine ⟨rfl, ?_, sole_insertRecord_other hne⟩
      exact List.filterMap_eq_nil_iff.mpr (by simp [replacement, markExpired, markExhausted, hne])
  | @answered answer outcome _ _ _ hresult =>
      have hout : outcome.requestRef ≠ ref := by
        rw [(recordAnswer_settles hresult).1.requestRef]
        exact hne
      refine ⟨?_, ?_, fun hsole => ?_⟩
      · simp [callsFor, callFor?, replacement, hne]
      · simp [writesFor, replacement, markInProgress, hne, hout]
      · exact sole_insertRecord_other hout
          (sole_insertRecord_other (s := markInProgress now s) hne hsole)
  | unscheduled =>
      refine ⟨?_, ?_, fun hsole => sole_insertRecord_other (s := markInProgress now s) hne hsole⟩
      · simp [callsFor, callFor?, replacement, hne]
      · simp [writesFor, replacement, markInProgress, hne]

/-- A batch without records of a request leaves that request alone. -/
theorem Batch.untouched {todo : List LiveMetadataRequestRecord}
    (h : Batch rt policy verifier now past rs todo events rs')
    (hnone : todo.filter (fun t => t.requestRef = ref) = []) :
    callsFor ref events = [] ∧ writesFor ref events = [] ∧
      (Keyed.Sole (·.requestRef) ref r rs → Keyed.Sole (·.requestRef) ref r rs') := by
  induction h with
  | done => exact ⟨rfl, rfl, id⟩
  | next first others ih =>
      obtain ⟨hhead, hrest⟩ := List.forall_mem_cons.mp (List.filter_eq_nil_iff.mp hnone)
      obtain ⟨hcalls, hwrites, hsole⟩ := first.other (r := r) (by simpa using hhead)
      obtain ⟨hcalls', hwrites', hsole'⟩ := ih (List.filter_eq_nil_iff.mpr hrest)
      refine ⟨?_, ?_, fun h => hsole' (hsole h)⟩
      · rw [callsFor_append, hcalls, hcalls', List.append_nil]
      · rw [writesFor_append, hwrites, hwrites', List.append_nil]
  | abort first =>
      obtain ⟨hhead, -⟩ := List.forall_mem_cons.mp (List.filter_eq_nil_iff.mp hnone)
      exact first.other (by simpa using hhead)

end Attempts

/-! ## The invariant of one request -/

/-- A call made before the expiry of the request and not before its check time. -/
def VerifierCall.Timely (expires : String) (call : VerifierCall) : Prop :=
  call.record.expiresAt = expires ∧
    (∃ expiry, parseStateDatetime expires = .ok expiry ∧ call.now < expiry) ∧
    ∃ next, parseStateDatetime call.record.nextCheckAt = .ok next ∧ next ≤ call.now

/-- If the answer of the call asks for another attempt, the time of that attempt is
representable. -/
def VerifierCall.Schedulable (rt : Runtime) (policy : VerifyBackoffPolicy) (call : VerifierCall) :
    Prop :=
  asksRetry policy (call.record.attemptCount + 1) call.answer = true →
    Representable rt policy call.now (call.record.attemptCount + 1) call.record.requestRef

/-- What the record of a request says about the calls made for it. -/
structure Tracked (rt : Runtime) (policy : VerifyBackoffPolicy)
    (origin : LiveMetadataRequestRecord) (events : List VerifyEvent) (r : LiveMetadataRequestRecord) : Prop where
  normal : Normal r
  requestRef : r.requestRef = origin.requestRef
  expiresAt : r.expiresAt = origin.expiresAt
  counted : (r.attemptCount = origin.attemptCount + (callsFor origin.requestRef events).length ∧
      ∀ call ∈ callsFor origin.requestRef events, call.Schedulable rt policy) ∨
    (r.status = VERIFY_IN_PROGRESS ∧
      r.attemptCount + 1 = origin.attemptCount + (callsFor origin.requestRef events).length ∧
      ∃ call ∈ callsFor origin.requestRef events, ¬ call.Schedulable rt policy)
  bounded : callsFor origin.requestRef events = [] ∨
    origin.attemptCount + (callsFor origin.requestRef events).length ≤ policy.maxAttempts
  timely : ∀ call ∈ callsFor origin.requestRef events, call.Timely origin.expiresAt
  lastWrite : (origin :: writesFor origin.requestRef events).getLast? = some r
  openBefore : ∀ s ∈ (origin :: writesFor origin.requestRef events).dropLast,
    s.status ∉ TERMINAL_VERIFY_STATUSES

section Tracking

variable {rt : Runtime} {policy : VerifyBackoffPolicy} {verifier : Verifier} {now : Instant}
  {past events earlier : List VerifyEvent} {rs rs' : List LiveMetadataRequestRecord}
  {r : LiveMetadataRequestRecord} {origin : LiveMetadataRequestRecord}

theorem inProgress_not_pending : VERIFY_IN_PROGRESS ∉ PENDING_VERIFY_STATUSES := by
  decide +kernel

/-- A pending request has counted all its calls. -/
theorem Tracked.of_pending (h : Tracked rt policy origin earlier r)
    (hpending : r.status ∈ PENDING_VERIFY_STATUSES) :
    r.attemptCount = origin.attemptCount + (callsFor origin.requestRef earlier).length ∧
      ∀ call ∈ callsFor origin.requestRef earlier, call.Schedulable rt policy := by
  rcases h.counted with hcounted | ⟨hstatus, -, -⟩
  · exact hcounted
  · rw [hstatus] at hpending
    exact absurd hpending inProgress_not_pending

/-- Of a pending request no terminal record was ever written. -/
theorem Tracked.writes_open (h : Tracked rt policy origin earlier r)
    (hpending : r.status ∈ PENDING_VERIFY_STATUSES) :
    ∀ s ∈ origin :: writesFor origin.requestRef earlier, s.status ∉ TERMINAL_VERIFY_STATUSES := by
  intro s hs
  obtain ⟨front, hfront⟩ := List.getLast?_eq_some_iff.mp h.lastWrite
  have hopen := h.openBefore
  rw [hfront, List.dropLast_concat] at hopen
  rw [hfront] at hs
  rcases List.mem_append.mp hs with hold | hlast
  · exact hopen s hold
  · rw [List.mem_singleton.mp hlast]
    intro hterminal
    exact not_pending_of_terminal hterminal hpending

/-- The writes of a verification that ends with `after` extend those of a pending
request without a terminal one before the end. -/
theorem Tracked.written {after : LiveMetadataRequestRecord} {more : List VerifyEvent}
    {front : List LiveMetadataRequestRecord} (h : Tracked rt policy origin earlier r)
    (hpending : r.status ∈ PENDING_VERIFY_STATUSES) (hmore : writesFor origin.requestRef more = front ++ [after])
    (hfront : ∀ s ∈ front, s.status ∉ TERMINAL_VERIFY_STATUSES) :
    (origin :: writesFor origin.requestRef (earlier ++ more)).getLast? = some after ∧
      ∀ s ∈ (origin :: writesFor origin.requestRef (earlier ++ more)).dropLast, s.status ∉ TERMINAL_VERIFY_STATUSES := by
  rw [writesFor_append, hmore, ← List.append_assoc, ← List.cons_append, List.dropLast_concat]
  refine ⟨List.getLast?_concat, ?_⟩
  intro s hs
  rw [← List.cons_append] at hs
  rcases List.mem_append.mp hs with hold | hnew
  · exact h.writes_open hpending s hold
  · exact hfront s hnew

theorem inProgress_not_terminal : VERIFY_IN_PROGRESS ∉ TERMINAL_VERIFY_STATUSES := by
  decide +kernel

/-- A write without a call, of a record with the same count, keeps a pending request
tracked. -/
theorem Tracked.closed {after : LiveMetadataRequestRecord}
    (h : Tracked rt policy origin earlier r) (hpending : r.status ∈ PENDING_VERIFY_STATUSES)
    (hsettles : Settles r after) (hcount : after.attemptCount = r.attemptCount) :
    Tracked rt policy origin (earlier ++ [replacement after rs]) after := by
  have hcalls : callsFor origin.requestRef (earlier ++ [replacement after rs]) = callsFor origin.requestRef earlier := by
    rw [callsFor_append]
    exact List.append_nil _
  have href : after.requestRef = origin.requestRef := by rw [hsettles.requestRef, h.requestRef]
  obtain ⟨hlast, hopen⟩ := @Tracked.written _ _ _ _ _ _ _ [] h hpending
    (@writesFor_replacement _ _ rs [] href) (by simp)
  refine ⟨hsettles.normal h.normal, href, ?_, ?_, ?_, ?_, hlast, hopen⟩
  · rw [hsettles.expiresAt, h.expiresAt]
  · rw [hcalls, hcount]
    exact Or.inl (h.of_pending hpending)
  · rw [hcalls]
    exact h.bounded
  · rw [hcalls]
    exact h.timely

/-- An unexpired record has a readable expiry that is still to come. -/
theorem expiry_of_not_expired (h : isExpired policy now r = .ok false) :
    ∃ expiry, expiryOf policy r = .ok expiry ∧ now < expiry := by
  obtain ⟨expiry, hexpiry, h⟩ := Checked.bind_eq_ok.mp h
  exact ⟨expiry, hexpiry, Instant.not_le.mp (of_decide_eq_false (Checked.pure_eq_ok.mp h))⟩

/-- A call of the verifier for a due request is in time and within the budget. -/
theorem Tracked.call {answer : VerifierAnswer} (h : Tracked rt policy origin earlier r)
    (hdue : isDueRecord now r = .ok true) (hexpiry : isExpired policy now r = .ok false)
    (hattempts : r.attemptCount < policy.maxAttempts) (more : List VerifyEvent)
    (hmore : callsFor origin.requestRef more = [⟨r, now, answer⟩]) :
    origin.attemptCount + (callsFor origin.requestRef (earlier ++ more)).length ≤
        policy.maxAttempts ∧
      (callsFor origin.requestRef (earlier ++ more)).length = (callsFor origin.requestRef earlier).length + 1 ∧
      ∀ call ∈ callsFor origin.requestRef (earlier ++ more), call.Timely origin.expiresAt := by
  obtain ⟨hpending, next, hnext, hle⟩ := isDueRecord_true hdue
  obtain ⟨expiry, hexpiry, hlt⟩ := expiry_of_not_expired hexpiry
  have hcount := (h.of_pending hpending).1
  have hlength : (callsFor origin.requestRef (earlier ++ more)).length = (callsFor origin.requestRef earlier).length + 1 := by
    rw [callsFor_append, hmore, List.length_append, List.length_singleton]
  refine ⟨by rw [hlength]; omega, hlength, ?_⟩
  intro call hcall
  rw [callsFor_append, hmore] at hcall
  rcases List.mem_append.mp hcall with hold | hnew
  · exact h.timely call hold
  · rw [List.mem_singleton.mp hnew]
    refine ⟨h.expiresAt, ⟨expiry, ?_, hlt⟩, next, hnext, hle⟩
    rw [expiryOf, if_neg h.normal.expiresAt, h.expiresAt] at hexpiry
    exact hexpiry

/-- One verification of a due request keeps it tracked. -/
theorem Tracked.attempt {result : Except StateFault LiveMetadataRequestRecord}
    (h : Tracked rt policy origin earlier r) (hsole : Keyed.Sole (·.requestRef) origin.requestRef r rs)
    (hdue : isDueRecord now r = .ok true)
    (hattempt : Attempt rt policy verifier now past rs r events rs' result) :
    ∃ r', Keyed.Sole (·.requestRef) origin.requestRef r' rs' ∧
      Tracked rt policy origin (earlier ++ events) r' := by
  have hpending := (isDueRecord_true hdue).1
  obtain ⟨hcounted, hschedulable⟩ := h.of_pending hpending
  have href := h.requestRef
  cases hattempt with
  | unreadable =>
      rw [List.append_nil]
      exact ⟨r, hsole, h⟩
  | expired =>
      exact ⟨_, sole_insertRecord_self href, h.closed hpending (settles_markExpired now r) rfl⟩
  | exhausted =>
      exact ⟨_, sole_insertRecord_self href, h.closed hpending (settles_markExhausted now r) rfl⟩
  | @answered answer outcome hexpiry hattempts _ hresult =>
      obtain ⟨hsettles, hcount⟩ := recordAnswer_settles hresult
      have houtref : outcome.requestRef = origin.requestRef := by
        rw [hsettles.requestRef]
        exact href
      obtain ⟨expiry, hexp, -⟩ := expiry_of_not_expired hexpiry
      have hnew : VerifierCall.Schedulable rt policy ⟨r, now, answer⟩ :=
        (recordAnswer_ok_iff (r := markInProgress now r) hexp).mp ⟨outcome, hresult⟩
      obtain ⟨hbounded, hlength, htimely⟩ := @AsyncVerify.Tracked.call _ _ _ _ _ _ answer h hdue
          hexpiry hattempts
          [replacement (markInProgress now r) rs, .called r now answer,
          replacement outcome (insertRecord (markInProgress now r) rs)]
          (by simp [callsFor_called href])
      have hmarked : (markInProgress now r).requestRef = origin.requestRef := href
      obtain ⟨hlast, hopen⟩ := @Tracked.written _ _ _ _ _ outcome
        [replacement (markInProgress now r) rs, .called r now answer,
          replacement outcome (insertRecord (markInProgress now r) rs)]
        [markInProgress now r] h hpending
        (by rw [writesFor_replacement hmarked, writesFor_called, writesFor_replacement houtref]; rfl)
        (by
          intro s hs
          rw [List.mem_singleton.mp hs]
          exact inProgress_not_terminal)
      refine ⟨outcome, sole_insertRecord_self houtref, ?_⟩
      refine ⟨hsettles.normal (normal_markInProgress h.normal), houtref, ?_, Or.inl ⟨?_, ?_⟩,
        Or.inr hbounded, htimely, hlast, hopen⟩
      · rw [hsettles.expiresAt]
        exact h.expiresAt
      · rw [hcount, hlength]
        change r.attemptCount + 1 = _
        omega
      · intro call hcall
        rw [callsFor_append] at hcall
        rcases List.mem_append.mp hcall with hold | hlast
        · exact hschedulable call hold
        · have hcall : call = ⟨r, now, answer⟩ := by
            simpa [callsFor_called href] using hlast
          rw [hcall]
          exact hnew
  | @unscheduled answer fault hexpiry hattempts _ hresult =>
      obtain ⟨expiry, hexp, -⟩ := expiry_of_not_expired hexpiry
      have hnew : ¬ VerifierCall.Schedulable rt policy ⟨r, now, answer⟩ := by
        intro hs
        obtain ⟨outcome, hok⟩ :=
          (recordAnswer_ok_iff (r := markInProgress now r) hexp).mpr hs
        rw [hresult] at hok
        cases hok
      obtain ⟨hbounded, hlength, htimely⟩ := @AsyncVerify.Tracked.call _ _ _ _ _ _ answer h hdue
          hexpiry hattempts [replacement (markInProgress now r) rs, .called r now answer]
          (by simp [callsFor_called href])
      have hmarked : (markInProgress now r).requestRef = origin.requestRef := href
      obtain ⟨hlast, hopen⟩ := @Tracked.written _ _ _ _ _ (markInProgress now r)
        [replacement (markInProgress now r) rs, .called r now answer] [] h hpending
        (by rw [writesFor_replacement hmarked, writesFor_called]; rfl) (by simp)
      refine ⟨markInProgress now r, sole_insertRecord_self href, ?_⟩
      refine ⟨normal_markInProgress h.normal, href, h.expiresAt, Or.inr ⟨rfl, ?_, ?_⟩,
        Or.inr hbounded, htimely, hlast, hopen⟩
      · rw [hlength]
        change r.attemptCount + 1 = _
        omega
      · refine ⟨⟨r, now, answer⟩, ?_, hnew⟩
        rw [callsFor_append]
        exact List.mem_append_right _ (by simp [callsFor_called href])

/-- Events that neither ask about a request nor write it leave it tracked. -/
theorem Tracked.untouched (h : Tracked rt policy origin earlier r)
    (hcalls : callsFor origin.requestRef events = []) (hwrites : writesFor origin.requestRef events = []) :
    Tracked rt policy origin (earlier ++ events) r := by
  have hsame : callsFor origin.requestRef (earlier ++ events) = callsFor origin.requestRef earlier := by
    rw [callsFor_append, hcalls, List.append_nil]
  have hsame' : writesFor origin.requestRef (earlier ++ events) = writesFor origin.requestRef earlier := by
    rw [writesFor_append, hwrites, List.append_nil]
  obtain ⟨hnormal, href, hexpires, hcounted, hbounded, htimely, hlast, hopen⟩ := h
  exact ⟨hnormal, href, hexpires, by rwa [hsame], by rwa [hsame], by rwa [hsame], by rwa [hsame'],
    by rwa [hsame']⟩

/-- A batch in which a request occurs at most once, and then due, keeps it tracked. -/
theorem Tracked.batch {todo : List LiveMetadataRequestRecord}
    (hbatch : Batch rt policy verifier now past rs todo events rs')
    (hsole : Keyed.Sole (·.requestRef) origin.requestRef r rs)
    (htodo : todo.filter (fun t => t.requestRef = origin.requestRef) = [] ∨
      (todo.filter (fun t => t.requestRef = origin.requestRef) = [r] ∧ isDueRecord now r = .ok true))
    (h : Tracked rt policy origin earlier r) :
    ∃ r', Keyed.Sole (·.requestRef) origin.requestRef r' rs' ∧
      Tracked rt policy origin (earlier ++ events) r' := by
  rcases htodo with hnone | ⟨hone, hdue⟩
  · obtain ⟨hcalls, hwrites, hkeep⟩ := hbatch.untouched (r := r) hnone
    exact ⟨r, hkeep hsole, h.untouched hcalls hwrites⟩
  · induction hbatch generalizing earlier with
    | done => cases hone
    | @next past events more rs rs' rs'' rest s after first others ih =>
        by_cases hs : s.requestRef = origin.requestRef
        · rw [List.filter_cons_of_pos (by simpa using hs)] at hone
          obtain ⟨rfl, hrest⟩ := List.cons.inj hone
          obtain ⟨r', hsole', htracked⟩ := h.attempt hsole hdue first
          obtain ⟨hcalls, hwrites, hkeep⟩ := others.untouched (r := r') hrest
          refine ⟨r', hkeep hsole', ?_⟩
          rw [← List.append_assoc]
          exact htracked.untouched hcalls hwrites
        · rw [List.filter_cons_of_neg (by simpa using hs)] at hone
          obtain ⟨hcalls, hwrites, hkeep⟩ := first.other (r := r) hs
          obtain ⟨r', hsole', htracked⟩ := ih (hkeep hsole) (h.untouched hcalls hwrites) hone
          exact ⟨r', hsole', by rwa [List.append_assoc] at htracked⟩
    | @abort past events rs rs' rest s fault first =>
        by_cases hs : s.requestRef = origin.requestRef
        · rw [List.filter_cons_of_pos (by simpa using hs)] at hone
          obtain ⟨rfl, -⟩ := List.cons.inj hone
          exact h.attempt hsole hdue first
        · obtain ⟨hcalls, hwrites, hkeep⟩ := first.other (r := r) hs
          exact ⟨r, hkeep hsole, h.untouched hcalls hwrites⟩

end Tracking

/-! ## Sequences of runs -/

/-- The file of the world lists `r` as its only record of the request. -/
abbrev Stored (w : VerifyWorld) (ref : String) (r : LiveMetadataRequestRecord) : Prop :=
  StoredIn w.file ref r

/-- `persist_live_metadata_request` on the world of the scheduler. -/
def persist (rt : Runtime) (args : PersistArgs) : VerifyProg LiveMetadataRequestRecord := do
  let w ← get
  let (record, file) ← Prog.ofExcept (persistLive rt args w.file)
  set ({ file := file, trace := w.trace ++ [.replaced record file] } : VerifyWorld)
  pure record

/-- What happens to the state file over time: scheduler runs, and further accepted
requests. -/
inductive Op where
  | verifyDue (args : VerifyDueArgs)
  | persist (args : PersistArgs)

/-- The world after one operation, whether it returns or raises. -/
def Op.run (rt : Runtime) (policy : VerifyBackoffPolicy) (w : VerifyWorld) : Op → VerifyWorld
  | .verifyDue args => ((runVerifyDue rt policy args).exec w).2
  | .persist args => ((AsyncVerify.persist rt args).exec w).2

/-- The world after a sequence of operations. -/
def runOps (rt : Runtime) (policy : VerifyBackoffPolicy) (w : VerifyWorld) (ops : List Op) :
    VerifyWorld :=
  ops.foldl (Op.run rt policy) w

/-- The operation does not persist the given request again. -/
def Op.Spares (rt : Runtime) (ref : String) : Op → Prop
  | .verifyDue _ => True
  | .persist args => ∀ r, persistedRecord rt args = .ok r → r.requestRef ≠ ref

section Sequences

variable {rt : Runtime} {policy : VerifyBackoffPolicy} {ref expires : String}
  {earlier : List VerifyEvent} {w : VerifyWorld} {r : LiveMetadataRequestRecord}

/-- Inversion of a successful persist. -/
theorem persist_ok {args : PersistArgs} {w' : VerifyWorld}
    (h : (persist rt args).exec w = (.ok r, w')) :
    persistedRecord rt args = .ok r ∧ ∃ rs, listLive w.file = .ok rs ∧
      w' = w.extend [replacement r rs] := by
  rw [persist, Prog.exec_bind_ok (Prog.exec_get w), Prog.exec_bind, Prog.exec_ofExcept] at h
  cases hp : persistLive rt args w.file with
  | error fault => rw [hp] at h; cases h
  | ok pair =>
      obtain ⟨record, file⟩ := pair
      obtain ⟨hrecord, rs, hlist, hfile⟩ := persistLive_ok.mp hp
      rw [hp] at h
      cases h
      exact ⟨hrecord, rs, hlist, by rw [hfile]; rfl⟩

/-- A record that can be built is persisted in a file that can be read. -/
theorem persist_exec {args : PersistArgs} {rs : List LiveMetadataRequestRecord}
    (h : persistedRecord rt args = .ok r) (hlist : listLive w.file = .ok rs) :
    (persist rt args).exec w = (.ok r, w.extend [replacement r rs]) := by
  have hp := persistLive_ok.mpr ⟨h, rs, hlist, rfl⟩
  rw [persist, Prog.exec_bind_ok (Prog.exec_get w), hp, Prog.exec_bind_ok (Prog.exec_ofExcept _ w)]
  rfl

/-- A failed persist changes nothing. -/
theorem persist_error {args : PersistArgs} {fault : StateFault} {w' : VerifyWorld}
    (h : (persist rt args).exec w = (.error fault, w')) : w' = w := by
  rw [persist, Prog.exec_bind_ok (Prog.exec_get w), Prog.exec_bind, Prog.exec_ofExcept] at h
  cases hp : persistLive rt args w.file with
  | error fault => rw [hp] at h; cases h; rfl
  | ok pair => rw [hp] at h; cases h

/-- Inversion of one operation on a readable file. -/
theorem op_cases {rs : List LiveMetadataRequestRecord} (op : Op) (hlist : listLive w.file = .ok rs) :
    op.run rt policy w = w ∨
    (∃ args record, op = .persist args ∧ persistedRecord rt args = .ok record ∧
      op.run rt policy w = w.extend [replacement record rs]) ∨
    ∃ args now todo events rs', op = .verifyDue args ∧ Selected args now rs todo ∧
      Batch rt policy args.verifier now w.trace rs todo events rs' ∧
      op.run rt policy w = w.extend events ∧ listLive (w.extend events).file = .ok rs' := by
  cases op with
  | persist args =>
      cases hexec : (AsyncVerify.persist rt args).exec w with
      | mk result w' =>
      cases result with
      | error fault => exact Or.inl (by rw [Op.run, hexec, persist_error hexec])
      | ok record =>
          obtain ⟨hrecord, rs₁, hlist₁, hw'⟩ := persist_ok hexec
          cases hlist.symm.trans hlist₁
          exact Or.inr (Or.inl ⟨args, record, rfl, hrecord, by rw [Op.run, hexec, hw']⟩)
  | verifyDue args =>
      rcases @runVerifyDue_cases rt policy args w with hsame |
        ⟨now, rs₁, todo, events, rs', -, -, hlist₁, hselected, hbatch, hrun, hlast⟩
      · exact Or.inl hsame
      · cases hlist.symm.trans hlist₁
        exact Or.inr (Or.inr ⟨args, now, todo, events, rs', rfl, hselected, hbatch, hrun, hlast⟩)

/-- The persist of another request leaves a stored request in place. -/
theorem stored_persist {args : PersistArgs} {record : LiveMetadataRequestRecord}
    {rs : List LiveMetadataRequestRecord} (hlist : listLive w.file = .ok rs)
    (hsole : Keyed.Sole (·.requestRef) ref r rs) (hrecord : persistedRecord rt args = .ok record)
    (hother : record.requestRef ≠ ref) :
    Stored (w.extend [replacement record rs]) ref r ∧
      writesFor ref [replacement record rs] = [] := by
  refine ⟨⟨_, listLive_extend hlist (persistedRecord_fresh hrecord).1,
    sole_insertRecord_other hother hsole⟩, ?_⟩
  simp [writesFor, replacement, hother]

/-- A request that is not pending is never looked at again. -/
theorem Stored.op {op : Op} (hspares : op.Spares rt ref) (h : Stored w ref r)
    (hnot : r.status ∉ PENDING_VERIFY_STATUSES) :
    ∃ events, op.run rt policy w = w.extend events ∧ Stored (w.extend events) ref r ∧
      callsFor ref events = [] := by
  obtain ⟨rs, hlist, hsole⟩ := h
  rcases @op_cases rt policy _ _ op hlist with hsame |
    ⟨args, record, rfl, hrecord, hrun⟩ | ⟨args, now, todo, events, rs', rfl, hselected, hbatch,
      hrun, hlast⟩
  · refine ⟨[], by rw [hsame, extend_nil], ?_, rfl⟩
    rw [extend_nil]
    exact ⟨rs, hlist, hsole⟩
  · exact ⟨_, hrun, (stored_persist hlist hsole hrecord (hspares record hrecord)).1, rfl⟩
  · have hnone : todo.filter (fun t => t.requestRef = ref) = [] := by
      rw [List.filter_eq_nil_iff]
      intro t ht href
      obtain ⟨hmem, hdue⟩ := hselected.mem ht
      rw [hsole.eq_of_mem hmem (of_decide_eq_true href)] at hdue
      exact hnot (isDueRecord_true hdue).1
    obtain ⟨hcalls, -, hkeep⟩ := hbatch.untouched (r := r) hnone
    exact ⟨events, hrun, ⟨rs', hlast, hkeep hsole⟩, hcalls⟩

/-- One operation keeps a request tracked. -/
theorem Tracked.op {op : Op} (hspares : op.Spares rt origin.requestRef) (hstored : Stored w origin.requestRef r)
    (h : Tracked rt policy origin earlier r) :
    ∃ events r', op.run rt policy w = w.extend events ∧ Stored (w.extend events) origin.requestRef r' ∧
      Tracked rt policy origin (earlier ++ events) r' := by
  obtain ⟨rs, hlist, hsole⟩ := hstored
  rcases @op_cases rt policy _ _ op hlist with hsame |
    ⟨args, record, rfl, hrecord, hrun⟩ | ⟨args, now, todo, events, rs', rfl, hselected, hbatch,
      hrun, hlast⟩
  · refine ⟨[], r, by rw [hsame, extend_nil], ?_, ?_⟩
    · rw [extend_nil]
      exact ⟨rs, hlist, hsole⟩
    · rw [List.append_nil]
      exact h
  · obtain ⟨hstored, hwrites⟩ := stored_persist hlist hsole hrecord (hspares record hrecord)
    exact ⟨_, r, hrun, hstored, h.untouched rfl hwrites⟩
  · have htodo : todo.filter (fun t => t.requestRef = origin.requestRef) = [] ∨
        (todo.filter (fun t => t.requestRef = origin.requestRef) = [r] ∧ isDueRecord now r = .ok true) := by
      refine (hselected.sole hsole).imp_right fun hone => ⟨hone, ?_⟩
      have hmem : r ∈ todo.filter fun t => t.requestRef = origin.requestRef := by
        rw [hone]
        exact List.mem_singleton_self r
      exact (hselected.mem (List.mem_filter.mp hmem).1).2
    obtain ⟨r', hsole', htracked⟩ := Tracked.batch hbatch hsole htodo h
    exact ⟨events, r', hrun, ⟨rs', hlast, hsole'⟩, htracked⟩

/-- A sequence of operations keeps a request tracked. -/
theorem Tracked.ops {ops : List Op} (hspares : ∀ op ∈ ops, op.Spares rt origin.requestRef)
    (hstored : Stored w origin.requestRef r) (h : Tracked rt policy origin earlier r) :
    ∃ events r', runOps rt policy w ops = w.extend events ∧ Stored (w.extend events) origin.requestRef r' ∧
      Tracked rt policy origin (earlier ++ events) r' := by
  induction ops generalizing w earlier r with
  | nil =>
      refine ⟨[], r, (extend_nil w).symm, ?_, ?_⟩
      · rw [extend_nil]
        exact hstored
      · rw [List.append_nil]
        exact h
  | cons op rest ih =>
      obtain ⟨events, r', hrun, hstored', htracked⟩ :=
        h.op (hspares op List.mem_cons_self) hstored
      obtain ⟨more, r'', hrun', hstored'', htracked'⟩ :=
        ih (fun o ho => hspares o (List.mem_cons_of_mem op ho)) hstored' htracked
      refine ⟨events ++ more, r'', ?_, ?_, ?_⟩
      · rw [extend_append, ← hrun', runOps, List.foldl_cons, hrun]
        rfl
      · rw [extend_append]
        exact hstored''
      · rwa [List.append_assoc] at htracked'

/-- A stored request is tracked from where it stands. -/
theorem tracked_start (h : Normal r) : Tracked rt policy r [] r where
  normal := h
  requestRef := rfl
  expiresAt := rfl
  counted := Or.inl ⟨by simp, by simp⟩
  bounded := Or.inl rfl
  timely := by simp
  lastWrite := rfl
  openBefore := by simp [writesFor]

/-- The part of the history that lies between two worlds. -/
def since (w w' : VerifyWorld) : List VerifyEvent := w'.trace.drop w.trace.length

theorem since_extend (w : VerifyWorld) (events : List VerifyEvent) :
    since w (w.extend events) = events := by
  simp [since, VerifyWorld.extend]

/-- A stored request is tracked over any sequence of operations. -/
theorem tracked_since {origin : LiveMetadataRequestRecord} {ops : List Op}
    (hspares : ∀ op ∈ ops, op.Spares rt origin.requestRef)
    (hstored : Stored w origin.requestRef origin) :
    ∃ r, Stored (runOps rt policy w ops) origin.requestRef r ∧
      Tracked rt policy origin (since w (runOps rt policy w ops)) r := by
  obtain ⟨rs, hlist, hsole⟩ := hstored
  have hnormal := listLive_normal hlist origin hsole.mem
  obtain ⟨events, r, hrun, hstored', htracked⟩ :=
    (@tracked_start rt policy _ hnormal).ops hspares ⟨rs, hlist, hsole⟩
  rw [hrun, since_extend]
  exact ⟨r, hstored', htracked⟩

/-- A persisted request is stored, with no attempts on it. -/
theorem stored_of_persist {args : PersistArgs} {w' : VerifyWorld}
    (h : (persist rt args).exec w = (.ok r, w')) : Stored w' r.requestRef r ∧ r.attemptCount = 0 := by
  obtain ⟨hrecord, rs, hlist, hw'⟩ := persist_ok h
  obtain ⟨hnormal, hcount, -⟩ := persistedRecord_fresh hrecord
  rw [hw']
  exact ⟨⟨_, listLive_extend hlist hnormal, sole_insertRecord_self rfl⟩, hcount⟩

end Sequences

/-! ## The attempt contract -/

/-- What the scheduler promises about the request persisted as `record`, over the
history since then and in the world reached: at most the allowed number of calls,
each in time, no write after a terminal one, and a record that counts its calls. -/
structure AttemptContract (policy : VerifyBackoffPolicy) (record : LiveMetadataRequestRecord)
    (history : List VerifyEvent) (w : VerifyWorld) : Prop where
  bounded : ((callsFor record.requestRef history).length : Int) ≤ policy.maxAttempts
  timely : ∀ call ∈ callsFor record.requestRef history, call.Timely record.expiresAt
  frozen : ∀ s ∈ (record :: writesFor record.requestRef history).dropLast,
    s.status ∉ TERMINAL_VERIFY_STATUSES
  stored : ∃ r, (record :: writesFor record.requestRef history).getLast? = some r ∧
    Stored w record.requestRef r
  counted : ∀ r, Stored w record.requestRef r →
    r.attemptCount = (callsFor record.requestRef history).length

section Contract

variable {rt : Runtime} {policy : VerifyBackoffPolicy} {args : PersistArgs}
  {w₀ w₁ : VerifyWorld} {record : LiveMetadataRequestRecord} {ops : List Op}

/-- Within the budget: no call yet, or not more than the attempts allowed. -/
theorem Tracked.calls_le {origin r : LiveMetadataRequestRecord} {events : List VerifyEvent}
    (h : Tracked rt policy origin events r) (hmax : 0 < policy.maxAttempts)
    (hzero : origin.attemptCount = 0) :
    ((callsFor origin.requestRef events).length : Int) ≤ policy.maxAttempts := by
  rcases h.bounded with hnone | hbounded
  · rw [hnone]
    exact Int.le_of_lt hmax
  · omega

/-- The attempt contract holds of a request in exactly those runs in which every
answer that asks for another attempt leaves a representable time for it. -/
theorem attemptContract_iff (hmax : 0 < policy.maxAttempts)
    (hpersist : (persist rt args).exec w₀ = (.ok record, w₁))
    (hspares : ∀ op ∈ ops, op.Spares rt record.requestRef) :
    AttemptContract policy record (since w₁ (runOps rt policy w₁ ops)) (runOps rt policy w₁ ops) ↔
      ∀ call ∈ callsFor record.requestRef (since w₁ (runOps rt policy w₁ ops)),
        call.Schedulable rt policy := by
  obtain ⟨hstart, hzero⟩ := stored_of_persist hpersist
  obtain ⟨r, hstored, htracked⟩ := @tracked_since _ policy _ _ _ hspares hstart
  have hcounted := htracked.counted
  rw [hzero, Int.zero_add] at hcounted
  constructor
  · intro hcontract
    rcases hcounted with ⟨-, hschedulable⟩ | ⟨-, hmissing, -⟩
    · exact hschedulable
    · have := hcontract.counted r hstored
      omega
  · intro hschedulable
    refine ⟨htracked.calls_le hmax hzero, htracked.timely, htracked.openBefore,
      ⟨r, htracked.lastWrite, hstored⟩, ?_⟩
    intro r' hr'
    rw [hr'.unique hstored]
    rcases hcounted with ⟨hcount, -⟩ | ⟨-, -, call, hcall, hnot⟩
    · exact hcount
    · exact absurd (hschedulable call hcall) hnot

/-- Whatever the answers, only the count can be wrong: the calls are bounded and in
time, and no write follows a terminal one. -/
theorem attempts_bounded (hmax : 0 < policy.maxAttempts)
    (hpersist : (persist rt args).exec w₀ = (.ok record, w₁))
    (hspares : ∀ op ∈ ops, op.Spares rt record.requestRef) {history : List VerifyEvent}
    (hhistory : history = since w₁ (runOps rt policy w₁ ops)) :
    ((callsFor record.requestRef history).length : Int) ≤ policy.maxAttempts ∧
      (∀ call ∈ callsFor record.requestRef history, call.Timely record.expiresAt) ∧
      ∀ s ∈ (record :: writesFor record.requestRef history).dropLast,
        s.status ∉ TERMINAL_VERIFY_STATUSES := by
  obtain ⟨hstart, hzero⟩ := stored_of_persist hpersist
  obtain ⟨r, -, htracked⟩ := @tracked_since _ policy _ _ _ hspares hstart
  rw [hhistory]
  exact ⟨htracked.calls_le hmax hzero, htracked.timely, htracked.openBefore⟩

end Contract

/-! ## A run that loses an attempt -/

section Sample

/-- A host whose digests are those of SHA-256 on the texts that the sample hashes. -/
def sampleRuntime : Runtime where
  sha256Text s :=
    if s = "default:bbd1681d70edf1ce54b38241ab4b08d81d3d3470714e45419516ef0ca6f1e0c4:SAT-REQ-1" then
      0x311363f5c6b0aa5a345ed3c75dae435658118b75c9293434973c26ffda37ded3
    else 0xbbd1681d70edf1ce54b38241ab4b08d81d3d3470714e45419516ef0ca6f1e0c4
  sha256Bytes _ := 0
  upper := id
  lower := Text.lower
  alnum c := c.isAlphanum

theorem sampleQuery_ordered :
    DateTime.orderedAfter? ⟨63842342399000000, none⟩ ⟨63839664000000000, none⟩ = some true := by
  decide

/-- The metadata received in January 2024. -/
def sampleQuery : DownloadQuery where
  tenantId := "tenant-a"
  requesterRfc := "AAA010101AAA"
  direction := .received
  requestType := .metadata
  period := some {
    start := ⟨63839664000000000, none⟩
    «end» := ⟨63842342399000000, none⟩
    ordered := sampleQuery_ordered }

/-- A request accepted on 1 February 2024 at 12:00 UTC. -/
def samplePersist : PersistArgs where
  profileId := "default"
  query := sampleQuery
  operation := "SolicitaDescargaRecibidos"
  idSolicitud := "SAT-REQ-1"
  satCode := "5000"
  satMessage := "Solicitud Aceptada"
  sourceCommand := "metadata-request-smoke"
  permitRef := none
  now := .utc 63842385600000000

/-- The record of that request. -/
def sampleRecord : LiveMetadataRequestRecord where
  requestRef := "req-bbd1681d70ed-311363f5c6b0"
  profileId := "default"
  direction := "received"
  kind := "metadata"
  operation := "SolicitaDescargaRecibidos"
  fechaInicial := "2024-01-01T00:00:00"
  fechaFinal := "2024-01-31T23:59:59"
  criteriaHash := "bbd1681d70edf1ce54b38241ab4b08d81d3d3470714e45419516ef0ca6f1e0c4"
  idSolicitud := "SAT-REQ-1"
  idSolicitudRedacted := "SAT-...EQ-1"
  satCode := "5000"
  satMessage := "Solicitud Aceptada"
  createdAt := "2024-02-01T12:00:00Z"
  live := true
  sourceCommand := "metadata-request-smoke"
  permitIdHash := ""
  status := VERIFY_SCHEDULED
  nextCheckAt := "2024-02-01T12:05:00Z"
  updatedAt := "2024-02-01T12:00:00Z"
  expiresAt := "2024-02-04T12:00:00Z"

theorem sampleRecord_persisted : persistedRecord sampleRuntime samplePersist = .ok sampleRecord := by
  decide +kernel

/-- The world after the sample request is persisted in an absent state file. -/
def sampleWorld : VerifyWorld :=
  VerifyWorld.extend ⟨.absent, []⟩ [replacement sampleRecord []]

theorem persist_sample :
    (persist sampleRuntime samplePersist).exec ⟨.absent, []⟩ = (.ok sampleRecord, sampleWorld) :=
  persist_exec sampleRecord_persisted rfl

/-- A verifier that finds every request still in process. -/
def inProcessVerifier : Verifier := fun _ requestId =>
  .ok { requestId := requestId, state := .inProcess, satCode := "5000", message := "" }

/-- A scheduler run ten minutes after the sample request was accepted. -/
def sampleRun : VerifyDueArgs where
  profileId := "default"
  verifier := inProcessVerifier
  now := .utc 63842386200000000

/-- A policy with positive delays, the second of which is longer than the calendar. -/
def patientPolicy : VerifyBackoffPolicy where
  secondDelay := ⟨999999999 * 86400000000, by decide, by decide⟩

/-- The contract of the sample request under the default policy. -/
theorem attemptContract_iff_sample :
    AttemptContract {} sampleRecord
        (since sampleWorld (runOps sampleRuntime {} sampleWorld [.verifyDue sampleRun]))
        (runOps sampleRuntime {} sampleWorld [.verifyDue sampleRun]) ↔
      ∀ call ∈ callsFor sampleRecord.requestRef
          (since sampleWorld (runOps sampleRuntime {} sampleWorld [.verifyDue sampleRun])),
        call.Schedulable sampleRuntime {} :=
  @attemptContract_iff _ _ _ ⟨.absent, []⟩ _ _ _ (by decide) persist_sample (by simp [Op.Spares])

/-- Under the patient policy the first call is not counted: the next check time does
not exist, and the record is left in progress with no attempt on it. -/
theorem attemptContract_fails :
    (persist sampleRuntime samplePersist).exec ⟨.absent, []⟩ = (.ok sampleRecord, sampleWorld) ∧
      ¬ AttemptContract patientPolicy sampleRecord
        (since sampleWorld (runOps sampleRuntime patientPolicy sampleWorld [.verifyDue sampleRun]))
        (runOps sampleRuntime patientPolicy sampleWorld [.verifyDue sampleRun]) := by
  refine ⟨persist_sample, fun hcontract => ?_⟩
  obtain ⟨r, -, hstored⟩ := hcontract.stored
  have hcount := hcontract.counted r hstored
  have hcalls : (callsFor sampleRecord.requestRef (since sampleWorld (runOps sampleRuntime
      patientPolicy sampleWorld [.verifyDue sampleRun]))).length = 1 := by
    decide +kernel
  have hfile : (listLive (runOps sampleRuntime patientPolicy sampleWorld
      [.verifyDue sampleRun]).file).map (fun rs => rs.map (·.attemptCount)) = .ok [0] := by
    decide +kernel
  obtain ⟨rs, hlist, hsole⟩ := hstored
  rw [hlist] at hfile
  have hzero : r.attemptCount = 0 := by
    have hmem : r.attemptCount ∈ rs.map (·.attemptCount) := List.mem_map_of_mem hsole.mem
    have hcounts : rs.map (·.attemptCount) = [0] := Except.ok.inj hfile
    rw [hcounts] at hmem
    exact List.mem_singleton.mp hmem
  rw [hzero, hcalls] at hcount
  cases hcount

end Sample

end AsyncVerify

end CfdiVault
