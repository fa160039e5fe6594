import CfdiVault.AsyncVerifyAttempts

/-!
# Stopping a scheduler run

A run replaces the state file atomically, so a process that stops leaves the file
of its last replacement.  The points at which it can stop are therefore the
prefixes of its history, including those that end in an outstanding verifier call.

At a prefix that ends between two verifications the file is `Closed`: the
requests written so far are recoverable and the others are as they were.  At a
prefix inside a verification the file holds a request marked
`VERIFY_IN_PROGRESS`, which is neither terminal nor selectable.  `crash_iff` puts
the two together, and `abandoned_forever` shows that such a request is never
looked at again.
-/

namespace CfdiVault

open LiveRequestState

namespace AsyncVerify

/-! ## Stop points -/

/-- The requests that a history has written. -/
def rewritten (events : List VerifyEvent) : List String :=
  events.filterMap fun event =>
    match event with
    | .replaced record _ => some record.requestRef
    | .called .. => none

theorem rewritten_append (events more : List VerifyEvent) :
    rewritten (events ++ more) = rewritten events ++ rewritten more :=
  List.filterMap_append

/-- A history that ends within a verification: after the request was marked as in
progress, or after the verifier was called. -/
def InsideCall (events : List VerifyEvent) : Prop :=
  match events.getLast? with
  | some (.called ..) => True
  | some (.replaced record _) => record.status = VERIFY_IN_PROGRESS
  | none => False

/-- Every request in the file is terminal or can still be selected. -/
def AllRecoverable (file : StateFile) : Prop :=
  ∀ rs, listLive file = .ok rs → ∀ r ∈ rs, Recoverable r

theorem not_recoverable_inProgress {r : LiveMetadataRequestRecord}
    (h : r.status = VERIFY_IN_PROGRESS) : ¬ Recoverable r := by
  rintro (hterminal | ⟨hpending, -⟩)
  · rw [h] at hterminal
    exact inProgress_not_terminal hterminal
  · rw [h] at hpending
    exact inProgress_not_pending hpending

/-- Between verifications: what was written is recoverable, the rest is untouched. -/
structure Closed (rs : List LiveMetadataRequestRecord) (events : List VerifyEvent)
    (rs' : List LiveMetadataRequestRecord) : Prop where
  outside : ¬ InsideCall events
  written : ∀ r ∈ rs', r.requestRef ∈ rewritten events → Recoverable r
  others : ∀ r, r.requestRef ∉ rewritten events → (r ∈ rs' ↔ r ∈ rs)

/-- Within a verification: some request is marked as in progress. -/
def Interrupted (events : List VerifyEvent) (rs' : List LiveMetadataRequestRecord) : Prop :=
  InsideCall events ∧ ∃ r ∈ rs', r.status = VERIFY_IN_PROGRESS

section Prefixes

variable {rt : Runtime} {policy : VerifyBackoffPolicy} {verifier : Verifier} {now : Instant}
  {past events more : List VerifyEvent} {rs rs' rs'' : List LiveMetadataRequestRecord}
  {r : LiveMetadataRequestRecord} {file : StateFile}

theorem Closed.refl : Closed rs [] rs where
  outside := id
  written := fun _ _ h => by cases h
  others := fun _ _ => Iff.rfl

theorem insideCall_append (h : more ≠ []) : InsideCall (events ++ more) ↔ InsideCall more := by
  rw [InsideCall, InsideCall, List.getLast?_append_of_ne_nil events h]

theorem Closed.trans (h : Closed rs events rs') (h' : Closed rs' more rs'') :
    Closed rs (events ++ more) rs'' where
  outside := by
    by_cases hmore : more = []
    · rw [hmore, List.append_nil]
      exact h.outside
    · rw [insideCall_append hmore]
      exact h'.outside
  written := by
    intro r hr href
    by_cases hlater : r.requestRef ∈ rewritten more
    · exact h'.written r hr hlater
    · rw [rewritten_append] at href
      have hearlier := (List.mem_append.mp href).resolve_right hlater
      exact h.written r ((h'.others r hlater).mp hr) hearlier
  others := by
    intro r href
    rw [rewritten_append, List.mem_append, not_or] at href
    exact (h'.others r href.2).trans (h.others r href.1)

theorem Interrupted.append (h : Interrupted more rs'') : Interrupted (events ++ more) rs'' := by
  refine ⟨?_, h.2⟩
  have hmore : more ≠ [] := by
    rintro rfl
    exact h.1
  exact (insideCall_append hmore).mpr h.1

/-- The write of a settled record closes. -/
theorem closed_replacement (hstatus : r.status ≠ VERIFY_IN_PROGRESS) (hrec : Recoverable r) :
    Closed rs [replacement r rs] (insertRecord r rs) where
  outside := hstatus
  written := by
    intro s hs href
    rcases mem_insertRecord.mp hs with rfl | ⟨-, hne⟩
    · exact hrec
    · exact absurd (List.mem_singleton.mp href) hne
  others := by
    intro s href
    have hne : s.requestRef ≠ r.requestRef := fun h => href (List.mem_singleton.mpr h)
    rw [mem_insertRecord]
    constructor
    · rintro (rfl | ⟨hs, -⟩)
      · exact absurd rfl hne
      · exact hs
    · intro hs
      exact Or.inr ⟨hs, hne⟩

/-- A verification that was answered closes. -/
theorem closed_answered {outcome : LiveMetadataRequestRecord} {answer : VerifierAnswer}
    (h : Settles (markInProgress now r) outcome) :
    Closed rs [replacement (markInProgress now r) rs, .called r now answer,
        replacement outcome (insertRecord (markInProgress now r) rs)]
      (insertRecord outcome (insertRecord (markInProgress now r) rs)) where
  outside := not_inProgress_of_outcome h.status
  written := by
    intro s hs href
    have hsame : s.requestRef = outcome.requestRef := by
      rcases List.mem_cons.mp href with heq | hrest
      · rw [heq, h.requestRef]
      · exact List.mem_singleton.mp hrest
    rcases mem_insertRecord.mp hs with rfl | ⟨-, hne⟩
    · exact h.recoverable
    · exact absurd hsame hne
  others := by
    intro s href
    have hne : s.requestRef ≠ outcome.requestRef := fun heq =>
      href (List.mem_cons_of_mem _ (List.mem_singleton.mpr heq))
    have hne' : s.requestRef ≠ (markInProgress now r).requestRef := by rwa [← h.requestRef]
    rw [mem_insertRecord, mem_insertRecord]
    constructor
    · rintro (rfl | ⟨rfl | ⟨hs, -⟩, -⟩)
      · exact absurd rfl hne
      · exact absurd rfl hne'
      · exact hs
    · intro hs
      exact Or.inr ⟨Or.inr ⟨hs, hne'⟩, hne⟩

/-- A verification whose request is marked, and not yet settled, is interrupted. -/
theorem interrupted_marked : Interrupted [replacement (markInProgress now r) rs]
    (insertRecord (markInProgress now r) rs) :=
  ⟨rfl, _, mem_insertRecord.mpr (Or.inl rfl), rfl⟩

theorem interrupted_called {answer : VerifierAnswer} :
    Interrupted [replacement (markInProgress now r) rs, .called r now answer]
      (insertRecord (markInProgress now r) rs) :=
  ⟨trivial, _, mem_insertRecord.mpr (Or.inl rfl), rfl⟩

/-- What the file lists at a stop point. -/
def StopsAt (file : StateFile) (rs : List LiveMetadataRequestRecord) (p : List VerifyEvent) : Prop :=
  ∃ rs', listLive (fileAfter file p) = .ok rs' ∧ (Closed rs p rs' ∨ Interrupted p rs')

/-- Every stop point of one verification. -/
theorem Attempt.stops {result : Except StateFault LiveMetadataRequestRecord} {p : List VerifyEvent}
    (h : Attempt rt policy verifier now past rs r events rs' result)
    (hlist : listLive file = .ok rs) (hn : Normal r) (hp : p <+: events) : StopsAt file rs p := by
  have hstart : StopsAt file rs [] := ⟨rs, hlist, Or.inl Closed.refl⟩
  have hmarked := @normal_markInProgress now _ hn
  have hfirst : listLive (writeState (insertRecord (markInProgress now r) rs)) = _ :=
    listLive_upsert hlist hmarked
  cases h with
  | unreadable =>
      rw [List.prefix_nil.mp hp]
      exact hstart
  | expired =>
      rcases List.prefix_cons_iff.mp hp with rfl | ⟨t, rfl, ht⟩
      · exact hstart
      · rw [List.prefix_nil.mp ht]
        have hs := settles_markExpired now r
        exact ⟨_, listLive_upsert hlist (hs.normal hn),
          Or.inl (closed_replacement (not_inProgress_of_outcome hs.status) hs.recoverable)⟩
  | exhausted =>
      rcases List.prefix_cons_iff.mp hp with rfl | ⟨t, rfl, ht⟩
      · exact hstart
      · rw [List.prefix_nil.mp ht]
        have hs := settles_markExhausted now r
        exact ⟨_, listLive_upsert hlist (hs.normal hn),
          Or.inl (closed_replacement (not_inProgress_of_outcome hs.status) hs.recoverable)⟩
  | answered _ _ _ hresult =>
      have hs := (recordAnswer_settles hresult).1
      rcases List.prefix_cons_iff.mp hp with rfl | ⟨t, rfl, ht⟩
      · exact hstart
      rcases List.prefix_cons_iff.mp ht with rfl | ⟨t', rfl, ht'⟩
      · exact ⟨_, hfirst, Or.inr interrupted_marked⟩
      rcases List.prefix_cons_iff.mp ht' with rfl | ⟨t'', rfl, ht''⟩
      · exact ⟨_, hfirst, Or.inr interrupted_called⟩
      rw [List.prefix_nil.mp ht'']
      exact ⟨_, listLive_upsert hfirst (hs.normal hmarked), Or.inl (closed_answered hs)⟩
  | unscheduled =>
      rcases List.prefix_cons_iff.mp hp with rfl | ⟨t, rfl, ht⟩
      · exact hstart
      rcases List.prefix_cons_iff.mp ht with rfl | ⟨t', rfl, ht'⟩
      · exact ⟨_, hfirst, Or.inr interrupted_marked⟩
      rw [List.prefix_nil.mp ht']
      exact ⟨_, hfirst, Or.inr interrupted_called⟩

/-- A verification that ended normally closes, and the file lists its result. -/
theorem Attempt.closes {after : LiveMetadataRequestRecord}
    (h : Attempt rt policy verifier now past rs r events rs' (.ok after))
    (hlist : listLive file = .ok rs) (hn : Normal r) :
    Closed rs events rs' ∧ listLive (fileAfter file events) = .ok rs' := by
  have hmarked := @normal_markInProgress now _ hn
  cases h with
  | expired =>
      have hs := settles_markExpired now r
      exact ⟨closed_replacement (not_inProgress_of_outcome hs.status) hs.recoverable,
        listLive_upsert hlist (hs.normal hn)⟩
  | exhausted =>
      have hs := settles_markExhausted now r
      exact ⟨closed_replacement (not_inProgress_of_outcome hs.status) hs.recoverable,
        listLive_upsert hlist (hs.normal hn)⟩
  | answered _ _ _ hresult =>
      have hs := (recordAnswer_settles hresult).1
      exact ⟨closed_answered hs,
        @listLive_upsert (writeState (insertRecord (markInProgress now r) rs)) _ _
            (listLive_upsert hlist hmarked) (hs.normal hmarked)⟩

/-- Every stop point of a batch. -/
theorem Batch.stops {todo : List LiveMetadataRequestRecord} {p : List VerifyEvent}
    (h : Batch rt policy verifier now past rs todo events rs') (hlist : listLive file = .ok rs)
    (hn : ∀ r ∈ todo, Normal r) (hp : p <+: events) : StopsAt file rs p := by
  induction h generalizing p file with
  | done =>
      rw [List.prefix_nil.mp hp]
      exact ⟨_, hlist, Or.inl Closed.refl⟩
  | @next past events more rs rs' rs'' rest r after first others ih =>
      have hr := hn r List.mem_cons_self
      rcases List.prefix_or_prefix_of_prefix hp (List.prefix_append events more) with hfirst | ⟨q, rfl⟩
      · exact first.stops hlist hr hfirst
      · have hq := (List.prefix_append_right_inj events).mp hp
        obtain ⟨hclosed, hlist'⟩ := first.closes hlist hr
        obtain ⟨rsₚ, hlistₚ, hstop⟩ :=
          ih hlist' (fun s hs => hn s (List.mem_cons_of_mem r hs)) hq
        rw [← fileAfter_append] at hlistₚ
        refine ⟨rsₚ, hlistₚ, ?_⟩
        rcases hstop with hc | hi
        · exact Or.inl (hclosed.trans hc)
        · exact Or.inr hi.append
  | abort first => exact first.stops hlist (hn _ List.mem_cons_self) hp

end Prefixes

/-! ## Crash safety -/

section Crash

variable (rt : Runtime) (policy : VerifyBackoffPolicy) (args : VerifyDueArgs)

/-- The history of a run that starts with the given state file. -/
def historyOf (file : StateFile) : List VerifyEvent :=
  ((runVerifyDue rt policy args).exec ⟨file, []⟩).2.trace

variable {rt policy args} {file : StateFile} {p : List VerifyEvent}

/-- Every stop point of a run on a readable file. -/
theorem run_stops {rs : List LiveMetadataRequestRecord} (hlist : listLive file = .ok rs)
    (hp : p <+: historyOf rt policy args file) : StopsAt file rs p := by
  rcases @runVerifyDue_cases rt policy args ⟨file, []⟩ with hsame |
    ⟨now, rs₁, todo, events, rs', -, -, hlist₁, hselected, hbatch, hrun, -⟩
  · rw [historyOf, hsame] at hp
    rw [List.prefix_nil.mp hp]
    exact ⟨rs, hlist, Or.inl Closed.refl⟩
  · have hsame : rs₁ = rs := Except.ok.inj (hlist₁.symm.trans hlist)
    rw [hsame] at hselected hbatch
    rw [historyOf, hrun] at hp
    exact hbatch.stops hlist (fun r hr => listLive_normal hlist r (hselected.mem hr).1) hp

/-- A run on an unreadable file does nothing. -/
theorem historyOf_unreadable {fault : StateFault} (hlist : listLive file = .error fault) :
    historyOf rt policy args file = [] := by
  rcases @runVerifyDue_cases rt policy args ⟨file, []⟩ with hsame |
    ⟨now, rs, todo, events, rs', -, -, hlist', -⟩
  · rw [historyOf, hsame]
  · cases hlist'.symm.trans hlist

/-- A process that stops leaves every request recoverable exactly when it does not
stop inside a verification and no request was unrecoverable from the start without
having been rewritten. -/
theorem crash_iff (hp : p <+: historyOf rt policy args file) :
    AllRecoverable (fileAfter file p) ↔ ¬ InsideCall p ∧
      ∀ rs, listLive file = .ok rs → ∀ r ∈ rs, Recoverable r ∨ r.requestRef ∈ rewritten p := by
  cases hlist : listLive file with
  | error fault =>
      rw [historyOf_unreadable hlist] at hp
      rw [List.prefix_nil.mp hp]
      refine iff_of_true ?_ ⟨id, fun rs h => by cases h⟩
      intro rs h
      cases hlist.symm.trans h
  | ok rs =>
      obtain ⟨rsₚ, hlistₚ, hstop⟩ := run_stops hlist hp
      rcases hstop with hclosed | ⟨hinside, r, hr, hstatus⟩
      · constructor
        · refine fun hall => ⟨hclosed.outside, ?_⟩
          intro _ h r hr
          cases h
          by_cases href : r.requestRef ∈ rewritten p
          · exact Or.inr href
          · exact Or.inl (hall rsₚ hlistₚ r ((hclosed.others r href).mpr hr))
        · rintro ⟨-, hstart⟩ rs' h r hr
          cases hlistₚ.symm.trans h
          by_cases href : r.requestRef ∈ rewritten p
          · exact hclosed.written r hr href
          · exact (hstart rs rfl r ((hclosed.others r href).mp hr)).resolve_right href
      · refine iff_of_false ?_ fun h => h.1 hinside
        intro hall
        exact not_recoverable_inProgress hstatus (hall rsₚ hlistₚ r hr)

/-- The state file with the sample request in it. -/
def sampleFile : StateFile := writeState [sampleRecord]

/-- Crash safety of the first stop point of the sample run. -/
theorem crash_iff_sample :
    AllRecoverable (fileAfter sampleFile
        ((historyOf sampleRuntime {} sampleRun sampleFile).take 1)) ↔
      ¬ InsideCall ((historyOf sampleRuntime {} sampleRun sampleFile).take 1) ∧
        ∀ rs, listLive sampleFile = .ok rs → ∀ r ∈ rs, Recoverable r ∨
          r.requestRef ∈ rewritten ((historyOf sampleRuntime {} sampleRun sampleFile).take 1) :=
  crash_iff (List.take_prefix 1 _)

/-- The sample run starts from a recoverable file; a process that stops while its
verifier call is outstanding leaves the request stuck. -/
theorem crash_abandons : AllRecoverable sampleFile ∧
    ∃ p, p <+: historyOf sampleRuntime {} sampleRun sampleFile ∧
      ¬ AllRecoverable (fileAfter sampleFile p) := by
  have hstart : listLive sampleFile = .ok [sampleRecord] := by decide +kernel
  have hstuck : (listLive (fileAfter sampleFile
      ((historyOf sampleRuntime {} sampleRun sampleFile).take 2))).map
        (fun rs => rs.map fun r => decide (Recoverable r)) = .ok [false] := by
    decide +kernel
  refine ⟨?_, _, List.take_prefix 2 _, ?_⟩
  · intro rs h r hr
    cases hstart.symm.trans h
    rw [List.mem_singleton.mp hr]
    decide +kernel
  · intro hall
    cases hlist : listLive (fileAfter sampleFile
        ((historyOf sampleRuntime {} sampleRun sampleFile).take 2)) with
    | error fault => rw [hlist] at hstuck; cases hstuck
    | ok rs =>
        rw [hlist] at hstuck
        have hflags : rs.map (fun r => decide (Recoverable r)) = [false] := Except.ok.inj hstuck
        obtain ⟨r, hr, hfalse⟩ := List.mem_map.mp (hflags ▸ List.mem_singleton_self false)
        exact of_decide_eq_false hfalse (hall rs hlist r hr)

end Crash

/-! ## After an interruption -/

/-- A request left in progress stays so: no later run asks about it or changes it. -/
theorem abandoned_forever {rt : Runtime} {policy : VerifyBackoffPolicy} {ref : String}
    {ops : List Op} {w : VerifyWorld} {r : LiveMetadataRequestRecord}
    (hspares : ∀ op ∈ ops, op.Spares rt ref) (h : Stored w ref r)
    (hstatus : r.status = VERIFY_IN_PROGRESS) :
    ∃ events, runOps rt policy w ops = w.extend events ∧ Stored (w.extend events) ref r ∧
      callsFor ref events = [] := by
  have hnot : r.status ∉ PENDING_VERIFY_STATUSES := by
    rw [hstatus]
    exact inProgress_not_pending
  induction ops generalizing w with
  | nil =>
      refine ⟨[], (extend_nil w).symm, ?_, rfl⟩
      rw [extend_nil]
      exact h
  | cons op rest ih =>
      obtain ⟨events, hrun, hstored, hcalls⟩ :=
        @Stored.op rt policy _ _ _ _ (hspares op List.mem_cons_self) h hnot
      obtain ⟨more, hrun', hstored', hcalls'⟩ :=
        ih (fun o ho => hspares o (List.mem_cons_of_mem op ho)) hstored
      refine ⟨events ++ more, ?_, ?_, ?_⟩
      · rw [extend_append, ← hrun', runOps, List.foldl_cons, hrun]
        rfl
      · rw [extend_append]
        exact hstored'
      · rw [callsFor_append, hcalls, hcalls', List.append_nil]

end AsyncVerify

end CfdiVault
