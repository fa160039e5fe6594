import CfdiVault.Library.Calendar

/-!
# SAT authentication sessions

`SatAuthSessionManager` keeps one session in memory, hands it out until it is about to
expire, and records what happens in audit events.  `Fresh` says what a call may do with the
kept session, and `Alike` relates two runs that differ in secrets only.
`sessions_fresh_and_leakFree` has both for every run: each call is fresh, and runs that are
alike record the same events.
-/

namespace CfdiVault

namespace SatAuth

/-! ## Sessions and events -/

/-- In-memory SAT authorization session. -/
structure SatAuthSession where
  authorization : String
  expiresAt : Option Instant
  createdAt : Instant
  deriving DecidableEq

/-- Redacted audit event for SAT auth session lifecycle changes. -/
structure SatAuthAuditEvent where
  event : String
  occurredAt : Instant
  reason : Option String
  expiresAt : Option Instant
  deriving DecidableEq

/-- `_SAFE_EVENTS` -/
def safeEvents : List String :=
  ["authentication_failed", "session_authenticated", "session_invalidated", "session_refreshed",
    "session_reused"]

/-- `_SAFE_REASONS` -/
def safeReasons : List String := ["auth-error", "manual", "redacted", "unspecified"]

/-- `value.strip().lower().replace("_", "-")` -/
def normalizeReason (value : String) : String :=
  Text.replaceChar '_' "-" (Text.lower (Text.strip value))

/-- `_safe_external_reason` -/
def safeExternalReason (value : Option String) : String :=
  if value.getD "" = "" then "unspecified"
  else if normalizeReason (value.getD "") = "manual" then "manual"
  else "redacted"

/-- `_safe_reason` -/
def safeReason : Option String → Option String
  | none => none
  | some value =>
      let normalized := normalizeReason value
      some (if normalized ∈ safeReasons then normalized else "redacted")

/-- What the authenticator answers: a result, a `SatAuthError`, another `Exception`, or an
exception that is none, such as an interrupt. -/
inductive AuthAnswer where
  | result (authorization : String) (expiresAt : Option DateTime)
  | authError (message : String)
  | failed (message : String)
  | interrupted (message : String)

/-- What a call raises. -/
inductive AuthFault where
  | authError (message : String)
  | overflow
  | interrupted (message : String)
  deriving DecidableEq

/-! ## The manager -/

/-- The state of a manager, and how often it has called the authenticator. -/
structure SatAuthSessionManager where
  session : Option SatAuthSession := none
  auditEvents : List SatAuthAuditEvent := []
  calls : Nat := 0

namespace SatAuthSessionManager

/-- `_record` -/
def record (m : SatAuthSessionManager) (event : String) (occurredAt : Instant)
    (reason : Option String) (expiresAt : Option Instant) : SatAuthSessionManager :=
  { m with auditEvents := m.auditEvents ++
      [⟨if event ∈ safeEvents then event else "redacted", occurredAt, safeReason reason, expiresAt⟩] }

/-- `_needs_refresh`; `none` is the `OverflowError` of `now + refresh_margin`. -/
def needsRefresh (refreshMargin : Timedelta) (session : SatAuthSession) (now : Instant) : Option Bool :=
  match session.expiresAt with
  | none => some false
  | some expiresAt => (now.add? refreshMargin).map fun limit => decide (expiresAt.micros ≤ limit.micros)

/-- `_normalize_datetime` of an expiry, if there is one. -/
def normalizeExpiry : Option DateTime → Option (Option Instant)
  | none => some none
  | some expiresAt => expiresAt.toInstant?.map some

/-- The session that is handed out again, if any. -/
def reusable (refreshMargin : Timedelta) (m : SatAuthSessionManager) (now : Instant) :
    Option (Option SatAuthSession) :=
  match m.session with
  | none => some none
  | some session => (needsRefresh refreshMargin session now).map fun refresh =>
      if refresh then none else some session

/-- Authenticate again; `answers n` is the answer to the call `n` of the authenticator. -/
def renew (answers : Nat → AuthAnswer) (now : Instant) (m : SatAuthSessionManager) :
    Except AuthFault SatAuthSession × SatAuthSessionManager :=
  let event := if m.session.isSome then "session_refreshed" else "session_authenticated"
  let called := { m with calls := m.calls + 1 }
  match answers m.calls with
  | .authError message =>
      (.error (.authError message), called.record "authentication_failed" now (some "auth-error") none)
  | .failed _ =>
      (.error (.authError "SAT authentication failed"),
        called.record "authentication_failed" now (some "auth-error") none)
  | .interrupted message => (.error (.interrupted message), called)
  | .result authorization expiresAt =>
      match normalizeExpiry expiresAt with
      | none => (.error .overflow, called)
      | some expiresAt =>
          let session := ⟨authorization, expiresAt, now⟩
          (.ok session, { called with session := some session }.record event now none expiresAt)

/-- Return a cached session when valid, otherwise authenticate again. -/
def authenticate (refreshMargin : Timedelta) (answers : Nat → AuthAnswer) (reading : DateTime)
    (m : SatAuthSessionManager) : Except AuthFault SatAuthSession × SatAuthSessionManager :=
  match reading.toInstant? with
  | none => (.error .overflow, m)
  | some now =>
      match reusable refreshMargin m now with
      | none => (.error .overflow, m)
      | some (some session) => (.ok session, m.record "session_reused" now none session.expiresAt)
      | some none => renew answers now m

/-- Forget the cached session without storing caller-provided reason text. -/
def invalidate (reason : Option String) (reading : DateTime) (m : SatAuthSessionManager) :
    Except AuthFault Unit × SatAuthSessionManager :=
  let forgotten := { m with session := none }
  match reading.toInstant? with
  | none => (.error .overflow, forgotten)
  | some now =>
      (.ok (), forgotten.record "session_invalidated" now (some (safeExternalReason reason)) none)

end SatAuthSessionManager

open SatAuthSessionManager

/-- The constructor, which refuses a negative margin. -/
def newManager (refreshMargin : Timedelta) : Except String SatAuthSessionManager :=
  if refreshMargin.micros < 0 then .error "refresh_margin must be non-negative" else .ok {}

/-! ## Runs -/

/-- A call of the manager, with the reading of its clock. -/
inductive Call where
  | authenticate (reading : DateTime)
  | invalidate (reason : Option String) (reading : DateTime)

section Runs

variable (refreshMargin : Timedelta) (answers : Nat → AuthAnswer)

/-- The manager after a call. -/
def Call.after (m : SatAuthSessionManager) : Call → SatAuthSessionManager
  | .authenticate reading => (m.authenticate refreshMargin answers reading).2
  | .invalidate reason reading => (m.invalidate reason reading).2

/-- The manager after a sequence of calls. -/
def run (m : SatAuthSessionManager) (calls : List Call) : SatAuthSessionManager :=
  calls.foldl (Call.after refreshMargin answers) m

end Runs

/-! ## Freshness -/

/-- A session that may be handed out again: one without an expiry, or with an expiry behind
the limit. -/
def Usable (limit : Instant) (session : SatAuthSession) : Prop :=
  session.expiresAt = none ∨ ∃ e, session.expiresAt = some e ∧ limit.micros < e.micros

/-- What an authentication may do: hand out the kept session if it is usable, and otherwise
call the authenticator once and hand out its answer.  If it fails the kept session stays. -/
structure Fresh (refreshMargin : Timedelta) (answers : Nat → AuthAnswer) (reading : DateTime)
    (now limit : Instant) (m : SatAuthSessionManager) : Prop where
  reused : ∀ session, m.session = some session → Usable limit session →
    (m.authenticate refreshMargin answers reading).1 = .ok session ∧
    (m.authenticate refreshMargin answers reading).2.session = some session ∧
    (m.authenticate refreshMargin answers reading).2.calls = m.calls
  renewed : (∀ session, m.session = some session → ¬ Usable limit session) →
    (m.authenticate refreshMargin answers reading).2.calls = m.calls + 1 ∧
    ∀ session, (m.authenticate refreshMargin answers reading).1 = .ok session →
      ∃ authorization expiresAt, answers m.calls = .result authorization expiresAt ∧
        session.authorization = authorization ∧ normalizeExpiry expiresAt = some session.expiresAt ∧
        session.createdAt = now ∧
        (m.authenticate refreshMargin answers reading).2.session = some session
  failed : ∀ fault, (m.authenticate refreshMargin answers reading).1 = .error fault →
    (m.authenticate refreshMargin answers reading).2.session = m.session

section Freshness

variable {refreshMargin : Timedelta} {answers : Nat → AuthAnswer} {reading : DateTime}
variable {now limit : Instant} {m : SatAuthSessionManager}

@[simp] theorem session_record {event : String} {reason : Option String} {expiresAt : Option Instant} :
    (m.record event now reason expiresAt).session = m.session := rfl

@[simp] theorem calls_record {event : String} {reason : Option String} {expiresAt : Option Instant} :
    (m.record event now reason expiresAt).calls = m.calls := rfl

theorem needsRefresh_eq (hlimit : now.add? refreshMargin = some limit) {session : SatAuthSession} :
    ∃ refresh, needsRefresh refreshMargin session now = some refresh ∧
      (refresh = false ↔ Usable limit session) := by
  unfold needsRefresh Usable
  cases hexpiry : session.expiresAt with
  | none => exact ⟨false, rfl, by simp⟩
  | some e =>
      refine ⟨decide (e.micros ≤ limit.micros), by rw [hlimit]; rfl, ?_⟩
      simp

/-- The session that is handed out again is the kept one, as long as it is usable. -/
theorem reusable_eq (hlimit : now.add? refreshMargin = some limit) :
    (∃ session, m.session = some session ∧ Usable limit session ∧
      reusable refreshMargin m now = some (some session)) ∨
    ((∀ session, m.session = some session → ¬ Usable limit session) ∧
      reusable refreshMargin m now = some none) := by
  unfold reusable
  cases hsession : m.session with
  | none => exact .inr ⟨fun _ h => (nomatch h), rfl⟩
  | some session =>
      obtain ⟨refresh, hneeds, husable⟩ : ∃ refresh,
          needsRefresh refreshMargin session now = some refresh ∧
            (refresh = false ↔ Usable limit session) := needsRefresh_eq hlimit
      dsimp only
      rw [hneeds]
      cases refresh with
      | false => exact .inl ⟨session, rfl, husable.mp rfl, rfl⟩
      | true =>
          refine .inr ⟨fun other hother => ?_, rfl⟩
          cases hother
          exact fun h => Bool.noConfusion (husable.mpr h)

/-- A renewal calls the authenticator once, hands out its answer or keeps the session. -/
theorem renew_spec : (m.renew answers now).2.calls = m.calls + 1 ∧
    (∀ session, (m.renew answers now).1 = .ok session →
      ∃ authorization expiresAt, answers m.calls = .result authorization expiresAt ∧
        session.authorization = authorization ∧ normalizeExpiry expiresAt = some session.expiresAt ∧
        session.createdAt = now ∧ (m.renew answers now).2.session = some session) ∧
    ∀ fault, (m.renew answers now).1 = .error fault → (m.renew answers now).2.session = m.session := by
  unfold renew
  cases answers m.calls with
  | authError message => simp
  | failed message => simp
  | interrupted message => simp
  | result authorization expiresAt =>
      dsimp only
      cases hexpiry : normalizeExpiry expiresAt with
      | none => simp
      | some expiry =>
          refine ⟨rfl, fun session hsession => ?_, fun _ h => (nomatch h)⟩
          cases hsession
          exact ⟨authorization, expiresAt, rfl, rfl, hexpiry, rfl, rfl⟩

/-- Every authentication is fresh, whatever the manager keeps. -/
theorem authenticate_fresh (hnow : reading.toInstant? = some now)
    (hlimit : now.add? refreshMargin = some limit) : Fresh refreshMargin answers reading now limit m := by
  obtain ⟨session, hsession, husable, hreuse⟩ | ⟨hnone, hreuse⟩ := @reusable_eq refreshMargin now limit m hlimit
  · have hcall : m.authenticate refreshMargin answers reading =
        (.ok session, m.record "session_reused" now none session.expiresAt) := by
      rw [authenticate, hnow]
      dsimp only
      rw [hreuse]
    refine ⟨fun other hother _ => ?_, fun h => absurd husable (h session hsession), fun fault hfault => ?_⟩
    · rw [hsession] at hother
      cases hother
      rw [hcall]
      exact ⟨rfl, hsession, rfl⟩
    · rw [hcall] at hfault
      cases hfault
  · have hcall : m.authenticate refreshMargin answers reading = m.renew answers now := by
      rw [authenticate, hnow]
      dsimp only
      rw [hreuse]
    obtain ⟨hcalls, hok, hfailed⟩ := @renew_spec answers now m
    refine ⟨fun session hsession husable => absurd husable (hnone session hsession), fun _ => ?_, ?_⟩
    · rw [hcall]
      exact ⟨hcalls, hok⟩
    · rw [hcall]
      exact hfailed

end Freshness

/-! ## Runs that differ in secrets -/

/-- Answers that differ in the authorization or in the text of an exception only. -/
def AnswerAlike : AuthAnswer → AuthAnswer → Prop
  | .result _ e, .result _ f => e = f
  | .authError _, .authError _ => True
  | .failed _, .failed _ => True
  | .interrupted _, .interrupted _ => True
  | _, _ => False

/-- A reason whose text is not recorded. -/
def Withheld (reason : Option String) : Prop :=
  reason.getD "" ≠ "" ∧ normalizeReason (reason.getD "") ≠ "manual"

/-- Calls that differ in the text of a withheld reason only. -/
def CallAlike : Call → Call → Prop
  | .authenticate reading, .authenticate reading' => reading = reading'
  | .invalidate reason reading, .invalidate reason' reading' =>
      reading = reading' ∧ (reason = reason' ∨ Withheld reason ∧ Withheld reason')
  | _, _ => False

/-- Kept sessions that differ in the authorization only. -/
def SessionAlike : Option SatAuthSession → Option SatAuthSession → Prop
  | none, none => True
  | some a, some b => a.expiresAt = b.expiresAt
  | _, _ => False

/-- Managers that differ in the authorization they keep only. -/
structure Alike (m n : SatAuthSessionManager) : Prop where
  session : SessionAlike m.session n.session
  auditEvents : m.auditEvents = n.auditEvents
  calls : m.calls = n.calls

section Leaks

variable {refreshMargin : Timedelta} {answers answers' : Nat → AuthAnswer} {reading : DateTime}
variable {now : Instant} {m n : SatAuthSessionManager}

theorem Alike.record (h : Alike m n) {event : String} {reason : Option String}
    {expiresAt : Option Instant} :
    Alike (m.record event now reason expiresAt) (n.record event now reason expiresAt) :=
  ⟨h.session, congrArg (· ++ _) h.auditEvents, h.calls⟩

theorem Withheld.safe {reason : Option String} (h : Withheld reason) :
    safeExternalReason reason = "redacted" := by
  rw [safeExternalReason, if_neg h.1, if_neg h.2]

/-- Alike managers reuse alike sessions, or both fail, or both reuse none. -/
theorem Alike.reusable (h : Alike m n) :
    (reusable refreshMargin m now = none ∧ reusable refreshMargin n now = none) ∨
    (reusable refreshMargin m now = some none ∧ reusable refreshMargin n now = some none) ∨
    ∃ a b, reusable refreshMargin m now = some (some a) ∧ reusable refreshMargin n now = some (some b) ∧
      a.expiresAt = b.expiresAt := by
  have hsession := h.session
  unfold SatAuthSessionManager.reusable
  cases hm : m.session with
  | none =>
      cases hn : n.session with
      | none => exact .inr (.inl ⟨rfl, rfl⟩)
      | some b =>
          rw [hm, hn] at hsession
          cases hsession
  | some a =>
      cases hn : n.session with
      | none =>
          rw [hm, hn] at hsession
          cases hsession
      | some b =>
          rw [hm, hn] at hsession
          have hexpiry : a.expiresAt = b.expiresAt := hsession
          have hneeds : needsRefresh refreshMargin a now = needsRefresh refreshMargin b now := by
            unfold needsRefresh
            rw [hexpiry]
          dsimp only
          rw [hneeds]
          cases needsRefresh refreshMargin b now with
          | none => exact .inl ⟨rfl, rfl⟩
          | some refresh =>
              cases refresh with
              | true => exact .inr (.inl ⟨rfl, rfl⟩)
              | false => exact .inr (.inr ⟨a, b, rfl, rfl, hexpiry⟩)

theorem Alike.isSome (h : Alike m n) : m.session.isSome = n.session.isSome := by
  have hsession := h.session
  cases hm : m.session <;> cases hn : n.session <;> rw [hm, hn] at hsession <;>
    first | rfl | cases hsession

theorem Alike.renew (h : Alike m n) (hanswers : ∀ k, AnswerAlike (answers k) (answers' k)) :
    Alike (m.renew answers now).2 (n.renew answers' now).2 := by
  have hanswer := hanswers n.calls
  have hcalled : Alike { m with calls := m.calls + 1 } { n with calls := n.calls + 1 } :=
    ⟨h.session, h.auditEvents, congrArg (· + 1) h.calls⟩
  unfold SatAuthSessionManager.renew
  rw [h.calls, h.isSome]
  revert hanswer
  -- the answers are of one kind, so the same event is recorded
  cases answers n.calls with
  | authError message =>
      cases answers' n.calls with
      | authError message' => exact fun _ => (h.calls ▸ hcalled).record
      | _ => exact False.elim
  | failed message =>
      cases answers' n.calls with
      | failed message' => exact fun _ => (h.calls ▸ hcalled).record
      | _ => exact False.elim
  | interrupted message =>
      cases answers' n.calls with
      | interrupted message' => exact fun _ => h.calls ▸ hcalled
      | _ => exact False.elim
  | result authorization expiresAt =>
      cases answers' n.calls with
      | result authorization' expiresAt' =>
          intro hanswer
          cases hanswer
          dsimp only
          cases normalizeExpiry expiresAt with
          | none => exact h.calls ▸ hcalled
          | some expiry =>
              have hkept : Alike
                  { m with session := some ⟨authorization, expiry, now⟩, calls := n.calls + 1 }
                  { n with session := some ⟨authorization', expiry, now⟩, calls := n.calls + 1 } :=
                ⟨(rfl : expiry = expiry), h.auditEvents, rfl⟩
              exact hkept.record
      | _ => exact False.elim

theorem Alike.authenticate (h : Alike m n) (hanswers : ∀ k, AnswerAlike (answers k) (answers' k)) :
    Alike (m.authenticate refreshMargin answers reading).2
      (n.authenticate refreshMargin answers' reading).2 := by
  unfold SatAuthSessionManager.authenticate
  cases reading.toInstant? with
  | none => exact h
  | some now =>
      dsimp only
      obtain ⟨hm, hn⟩ | ⟨hm, hn⟩ | ⟨a, b, hm, hn, hexpiry⟩ := @Alike.reusable refreshMargin now m n h
      · rw [hm, hn]
        exact h
      · rw [hm, hn]
        exact h.renew hanswers
      · rw [hm, hn]
        dsimp only
        rw [hexpiry]
        exact h.record

theorem Alike.invalidate (h : Alike m n) {reason reason' : Option String}
    (hreason : reason = reason' ∨ Withheld reason ∧ Withheld reason') :
    Alike (m.invalidate reason reading).2 (n.invalidate reason' reading).2 := by
  have hforgotten : Alike { m with session := none } { n with session := none } :=
    ⟨trivial, h.auditEvents, h.calls⟩
  have hsafe : safeExternalReason reason = safeExternalReason reason' := by
    obtain rfl | ⟨hleft, hright⟩ := hreason
    · rfl
    · rw [hleft.safe, hright.safe]
  unfold SatAuthSessionManager.invalidate
  cases reading.toInstant? with
  | none => exact hforgotten
  | some now =>
      dsimp only
      rw [hsafe]
      exact hforgotten.record

/-- Alike calls on alike managers leave alike managers. -/
theorem Alike.after (h : Alike m n) (hanswers : ∀ k, AnswerAlike (answers k) (answers' k))
    {call call' : Call} (hcall : CallAlike call call') :
    Alike (call.after refreshMargin answers m) (call'.after refreshMargin answers' n) := by
  cases call with
  | authenticate reading =>
      cases call' with
      | authenticate reading' =>
          cases hcall
          exact h.authenticate hanswers
      | invalidate => cases hcall
  | invalidate reason reading =>
      cases call' with
      | authenticate => cases hcall
      | invalidate reason' reading' =>
          obtain ⟨rfl, hreason⟩ := hcall
          exact h.invalidate hreason

theorem Alike.run (h : Alike m n) (hanswers : ∀ k, AnswerAlike (answers k) (answers' k))
    {calls calls' : List Call} (hcalls : List.Forall₂ CallAlike calls calls') :
    Alike (run refreshMargin answers m calls) (run refreshMargin answers' n calls') := by
  induction hcalls generalizing m n with
  | nil => exact h
  | cons hcall _ ih => exact ih (h.after hanswers hcall)

end Leaks

/-- In every run of a manager the authentications are fresh, and a failed one keeps the
session.  Runs that differ in authorizations and in withheld texts only record the same
events. -/
theorem sessions_fresh_and_leakFree {refreshMargin : Timedelta} {m : SatAuthSessionManager}
    (hm : newManager refreshMargin = .ok m) :
    (∀ answers calls reading now limit, reading.toInstant? = some now →
      now.add? refreshMargin = some limit →
      Fresh refreshMargin answers reading now limit (run refreshMargin answers m calls)) ∧
    ∀ answers answers' calls calls', (∀ k, AnswerAlike (answers k) (answers' k)) →
      List.Forall₂ CallAlike calls calls' →
      (run refreshMargin answers m calls).auditEvents =
        (run refreshMargin answers' m calls').auditEvents := by
  have hself : Alike m m := by
    unfold newManager at hm
    split_ifs at hm
    cases hm
    exact ⟨trivial, rfl, rfl⟩
  exact ⟨fun answers calls reading now limit hnow hlimit => authenticate_fresh hnow hlimit,
    fun answers answers' calls calls' hanswers hcalls => (hself.run hanswers hcalls).auditEvents⟩

/-! ### Two tokens, two reasons -/

section Sample

/-- An hour of the year 2024. -/
def hourOf2024 (hour : Nat) (h : hour < 24 := by decide) : Instant where
  micros := 63840000000000000 + hour * 3600000000
  lt_max := by
    unfold Calendar.maxOrdinal Calendar.dayMicros
    omega

/-- Every answer is the given token, which expires at three. -/
def tokenAnswers (token : String) : Nat → AuthAnswer :=
  fun _ => .result token (some (.utc (hourOf2024 3)))

/-- A session is opened, forgotten for the given reason, and opened again. -/
def sampleCalls (reason : String) : List Call :=
  [.authenticate (.utc (hourOf2024 0)), .invalidate (some reason) (.utc (hourOf2024 1)),
    .authenticate (.utc (hourOf2024 2))]

theorem sessions_fresh_and_leakFree_sample :
    Fresh (Timedelta.hours 1) (tokenAnswers "A") (.utc (hourOf2024 1)) (hourOf2024 1) (hourOf2024 2)
      (run (Timedelta.hours 1) (tokenAnswers "A") {} (sampleCalls "token A")) ∧
    (run (Timedelta.hours 1) (tokenAnswers "A") {} (sampleCalls "token A")).auditEvents =
      (run (Timedelta.hours 1) (tokenAnswers "B") {} (sampleCalls "token B")).auditEvents := by
  obtain ⟨hfresh, hleak⟩ := @sessions_fresh_and_leakFree (Timedelta.hours 1) {} (if_neg (by decide))
  refine ⟨hfresh _ _ _ _ _ (by decide) (by decide), hleak _ _ _ _ (fun _ => rfl) ?_⟩
  refine .cons rfl (.cons ⟨rfl, .inr ⟨?_, ?_⟩⟩ (.cons rfl .nil))
  · show "token A" ≠ "" ∧ normalizeReason "token A" ≠ "manual"
    decide +kernel
  · show "token B" ≠ "" ∧ normalizeReason "token B" ≠ "manual"
    decide +kernel

end Sample

end SatAuth

end CfdiVault
