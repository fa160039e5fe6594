import CfdiVault.LiveRequestState

/-!
# Backfill planning

A historical range of dates is split into daily or weekly windows, one metadata
request each.  The plan is built from the state file: a window whose criteria the
profile has already requested carries the reference of that request.

Of several requests with the same criteria the last listed one counts.  A window
counts as requested when that reference is not empty.
-/

namespace CfdiVault

open LiveRequestState

namespace SatBackfill

/-- Why there is no plan. -/
inductive PlanFault where
  /-- the state file cannot be listed -/
  | state (fault : StateFault)
  /-- a `ValueError` with this message -/
  | value (message : String)
  /-- a date beyond the calendar -/
  | overflow
  deriving DecidableEq

/-- One safe historical metadata request candidate. -/
structure BackfillWindowPlan where
  index : Nat
  query : DownloadQuery
  operation : String
  criteriaHash : String
  existingRequestRef : String := ""
  existingStatus : String := ""

/-- Safe dry-run plan for a historical metadata backfill. -/
structure BackfillPlan where
  profileId : String
  direction : DownloadDirection
  kind : RequestType
  window : String
  startDate : Date
  endDate : Date
  windows : List BackfillWindowPlan

/-- `_normalize_window` -/
def normalizeWindow (window : String) : Except PlanFault String :=
  let normalized := Text.lower (Text.strip window)
  if normalized ∈ ["weekly", "daily"] then .ok normalized
  else .error (.value "backfill window must be weekly or daily")

/-- `_operation_for_direction` -/
def operationForDirection : DownloadDirection → Except PlanFault String
  | .received => .ok "SolicitaDescargaRecibidos"
  | .issued => .ok "SolicitaDescargaEmitidos"
  | .folio => .error (.value "backfill direction must be received or issued")

/-- `_existing_by_criteria`, looked up at one hash. -/
def existingByCriteria (records : List LiveMetadataRequestRecord) (profileId criteriaHash : String) :
    Option LiveMetadataRequestRecord :=
  (records.filter fun r => r.profileId = profileId ∧ r.criteriaHash = criteriaHash).getLast?

/-- The period from the first to the last microsecond of two dates, in UTC. -/
def windowPeriod (first last : Date) : Except PlanFault DateTimePeriod :=
  let start := DateTime.utc first.midnight
  let «end» := DateTime.utc last.lastMicrosecond
  if («end».wall.micros : Int) - start.wall.micros < 2000000 then
    .error (.value "backfill window must span at least 2 seconds")
  else if h : DateTime.orderedAfter? «end» start = some true then .ok ⟨start, «end», h⟩
  else .error (.value "period end must be greater than or equal to start")

/-- A date that may lie beyond the calendar. -/
def orOverflow (date : Option Date) : Except PlanFault Date :=
  match date with
  | some d => .ok d
  | none => .error .overflow

/-- The windows of `stepDays` days from `current` on.  Every window moves `current` on
by at least one day, so one unit of fuel for each remaining day is enough. -/
def windowsFrom (stepDays : Nat) (last : Date) : Nat → Date →
    Except PlanFault (List DateTimePeriod)
  | 0, _ => .ok []
  | fuel + 1, current =>
      if last.ordinal < current.ordinal then .ok []
      else do
        let reach ← orOverflow (current.addDays? (stepDays - 1))
        let currentEnd := reach.earlier last
        let period ← windowPeriod current currentEnd
        let next ← orOverflow (currentEnd.addDays? 1)
        let rest ← windowsFrom stepDays last fuel next
        pure (period :: rest)

/-- `generate_backfill_periods` -/
def generateBackfillPeriods (startDate endDate : Date) (window : String) :
    Except PlanFault (List DateTimePeriod) :=
  if endDate.ordinal < startDate.ordinal then
    .error (.value "backfill end date must be on or after start date")
  else do
    let normalized ← normalizeWindow window
    let stepDays := if normalized = "daily" then 1 else 7
    windowsFrom stepDays endDate (endDate.ordinal + 1 - startDate.ordinal) startDate

/-- What a plan is built for. -/
structure PlanArgs where
  profileId : String
  requesterRfc : String
  startDate : Date
  endDate : Date
  direction : DownloadDirection
  kind : RequestType
  window : String := "weekly"

/-- The query of one window. -/
def PlanArgs.windowQuery (args : PlanArgs) (period : DateTimePeriod) : DownloadQuery where
  tenantId := args.profileId
  requesterRfc := args.requesterRfc
  direction := args.direction
  requestType := args.kind
  period := some period

/-- The plan of one window. -/
def windowPlan (rt : Runtime) (args : PlanArgs) (operation : String)
    (records : List LiveMetadataRequestRecord) (index : Nat) (period : DateTimePeriod) :
    BackfillWindowPlan :=
  let query := args.windowQuery period
  let criteriaHash := query.criteriaHash rt
  let record := existingByCriteria records args.profileId criteriaHash
  { index := index
    query := query
    operation := operation
    criteriaHash := criteriaHash
    existingRequestRef := (record.map (·.requestRef)).getD ""
    existingStatus := (record.map (·.status)).getD "" }

/-- `build_backfill_plan` -/
def buildBackfillPlan (rt : Runtime) (args : PlanArgs) (file : StateFile) :
    Except PlanFault BackfillPlan :=
  if args.kind ≠ .metadata then .error (.value "backfill only supports metadata requests")
  else do
    let operation ← operationForDirection args.direction
    let records ← (listLive file).mapError PlanFault.state
    let periods ← generateBackfillPeriods args.startDate args.endDate args.window
    let normalized ← normalizeWindow args.window
    pure {
      profileId := args.profileId
      direction := args.direction
      kind := args.kind
      window := normalized
      startDate := args.startDate
      endDate := args.endDate
      windows := periods.mapIdx fun i period =>
        windowPlan rt args operation records (i + 1) period }

/-- The windows without a request of the profile. -/
def BackfillPlan.pending (plan : BackfillPlan) : List BackfillWindowPlan :=
  plan.windows.filter fun window => window.existingRequestRef = ""

/-! ## The windows of a range -/

section Windows

variable {stepDays : Nat} {last current : Date} {periods : List DateTimePeriod}

/-- Windows of at most `stepDays` days that follow each other from a date to the last one. -/
inductive Tiled (stepDays : Nat) (last : Date) : Date → List DateTimePeriod → Prop
  | done {current : Date} (past : last.ordinal < current.ordinal) : Tiled stepDays last current []
  | next {current reach following : Date} {period : DateTimePeriod} {rest : List DateTimePeriod}
      (first : period.start = .utc current.midnight) (final : period.end = .utc reach.lastMicrosecond)
      (forward : current.ordinal ≤ reach.ordinal) (short : reach.ordinal < current.ordinal + stepDays)
      (within : reach.ordinal ≤ last.ordinal) (adjacent : following.ordinal = reach.ordinal + 1)
      (others : Tiled stepDays last following rest) : Tiled stepDays last current (period :: rest)

theorem addDays?_of_le {d : Date} {n : Nat} (h : d.ordinal + n ≤ Calendar.maxOrdinal) :
    ∃ later, d.addDays? n = some later ∧ later.ordinal = d.ordinal + n := by
  rw [Date.addDays?, dif_pos h]
  exact ⟨_, rfl, rfl⟩

theorem midnight_le_iff {d : Date} {t : Instant} :
    d.midnight ≤ t ↔ (d.ordinal - 1) * 86400000000 ≤ t.micros := Iff.rfl

theorem le_lastMicrosecond_iff {d : Date} {t : Instant} :
    t ≤ d.lastMicrosecond ↔ t.micros ≤ d.ordinal * 86400000000 - 1 := Iff.rfl

/-- A window of whole days is never too short. -/
theorem windowPeriod_ok {first last : Date} (h : first.ordinal ≤ last.ordinal) :
    ∃ period, windowPeriod first last = .ok period ∧
      period.start = .utc first.midnight ∧ period.end = .utc last.lastMicrosecond := by
  have hpos := first.pos
  have hmicros : (first.ordinal - 1) * 86400000000 + 2000000 ≤ last.ordinal * 86400000000 - 1 := by
    omega
  have hspan : ¬ (((last.ordinal * 86400000000 - 1 : Nat) : Int) -
      ((first.ordinal - 1) * 86400000000 : Nat) < 2000000) := by
    omega
  have hordered : DateTime.orderedAfter? (.utc last.lastMicrosecond) (.utc first.midnight) =
      some true := by
    refine congrArg some (decide_eq_true ?_)
    show (((first.ordinal - 1) * 86400000000 : Nat) : Int) - 0 ≤
      ((last.ordinal * 86400000000 - 1 : Nat) : Int) - 0
    omega
  exact ⟨⟨_, _, hordered⟩, (if_neg hspan).trans (dif_pos hordered), rfl, rfl⟩

/-- The windows that the loop makes from a date on: each has all its days, unless the last
date cuts it off. -/
inductive Split (stepDays : Nat) (last : Date) : Date → List DateTimePeriod → Prop
  | done {current : Date} (past : last.ordinal < current.ordinal) : Split stepDays last current []
  | next {current reach following : Date} {period : DateTimePeriod} {rest : List DateTimePeriod}
      (first : period.start = .utc current.midnight) (final : period.end = .utc reach.lastMicrosecond)
      (ahead : current.ordinal ≤ last.ordinal)
      (reaches : reach.ordinal = min (current.ordinal + (stepDays - 1)) last.ordinal)
      (adjacent : following.ordinal = reach.ordinal + 1)
      (others : Split stepDays last following rest) : Split stepDays last current (period :: rest)

theorem Split.tiled (h : Split stepDays last current periods) (hpos : 1 ≤ stepDays) :
    Tiled stepDays last current periods := by
  induction h with
  | done past => exact .done past
  | next first final ahead reaches adjacent _ ih =>
      exact .next first final (by omega) (by omega) (by omega) adjacent ih

/-- A week before the end of the calendar the loop splits the range up to the last date, and
any fuel from one unit for each day on is enough. -/
theorem windowsFrom_split (hpos : 1 ≤ stepDays) (hweek : stepDays ≤ 7)
    (hlast : last.ordinal + 7 ≤ Calendar.maxOrdinal) (current : Date) :
    ∃ periods, Split stepDays last current periods ∧ ∀ fuel,
      last.ordinal + 1 ≤ current.ordinal + fuel → windowsFrom stepDays last fuel current = .ok periods := by
  -- every window leaves fewer days up to the last date
  induction hdays : last.ordinal + 1 - current.ordinal using Nat.strong_induction_on generalizing current with
  | _ days ih =>
    by_cases hpast : last.ordinal < current.ordinal
    · refine ⟨[], .done hpast, fun fuel _ => ?_⟩
      cases fuel with
      | zero => rfl
      | succ fuel => rw [windowsFrom, if_pos hpast]
    · obtain ⟨reach, hreach, hreachOrdinal⟩ :=
        addDays?_of_le (d := current) (n := stepDays - 1) (by omega)
      have hend : (reach.earlier last).ordinal = min reach.ordinal last.ordinal := by
        unfold Date.earlier
        split_ifs with hlt <;> omega
      obtain ⟨period, hperiod, hstart, hfinal⟩ :=
        @windowPeriod_ok current (reach.earlier last) (by omega)
      obtain ⟨following, hfollowing, hadjacent⟩ :=
        addDays?_of_le (d := reach.earlier last) (n := 1) (by omega)
      obtain ⟨rest, hsplit, hrest⟩ := ih _ (by omega) following rfl
      refine ⟨period :: rest, .next hstart hfinal (by omega) (by omega) hadjacent hsplit, fun fuel hfuel => ?_⟩
      obtain ⟨fuel, rfl⟩ : ∃ n, fuel = n + 1 := Nat.exists_eq_succ_of_ne_zero (by omega)
      rw [windowsFrom, if_neg hpast, hreach, orOverflow, Checked.ok_bind]
      dsimp only
      rw [hperiod, Checked.ok_bind, hfollowing, orOverflow, Checked.ok_bind, hrest fuel (by omega),
        Checked.ok_bind]
      rfl

/-- A week before the end of the calendar there are windows up to the last date. -/
theorem windowsFrom_ok (hpos : 1 ≤ stepDays) (hweek : stepDays ≤ 7)
    (hlast : last.ordinal + 7 ≤ Calendar.maxOrdinal) {fuel : Nat}
    (hfuel : last.ordinal + 1 ≤ current.ordinal + fuel) :
    ∃ periods, windowsFrom stepDays last fuel current = .ok periods ∧
      Tiled stepDays last current periods := by
  obtain ⟨periods, hsplit, hrun⟩ := windowsFrom_split hpos hweek hlast current
  exact ⟨periods, hrun fuel hfuel, hsplit.tiled hpos⟩

/-- Every window lies behind the date that the windows start from. -/
theorem Tiled.behind (h : Tiled stepDays last current periods) :
    ∀ period ∈ periods, current.midnight ≤ period.start.wall := by
  induction h with
  | done => exact fun _ hnone => absurd hnone List.not_mem_nil
  | @next current reach following period rest first _ forward _ _ adjacent _ ih =>
      intro p hp
      rcases List.mem_cons.mp hp with rfl | hp
      · rw [first]
        exact Instant.le_refl _
      · refine Instant.le_trans ?_ (ih p hp)
        show (current.ordinal - 1) * Calendar.dayMicros ≤ (following.ordinal - 1) * Calendar.dayMicros
        exact Nat.mul_le_mul_right _ (by omega)

/-- The windows are in chronological order, and none overlaps another. -/
theorem Tiled.chronological (h : Tiled stepDays last current periods) :
    periods.Pairwise fun p q => p.end.wall < q.start.wall := by
  induction h with
  | done => exact .nil
  | @next current reach following period rest _ final _ _ _ adjacent others ih =>
      refine List.pairwise_cons.mpr ⟨fun q hq => ?_, ih⟩
      have hnext : following.midnight ≤ q.start.wall := others.behind q hq
      have hpos := reach.pos
      have hapart : reach.lastMicrosecond < following.midnight := by
        show reach.ordinal * Calendar.dayMicros - 1 < (following.ordinal - 1) * Calendar.dayMicros
        simp only [Calendar.dayMicros]
        omega
      rw [final]
      exact Nat.lt_of_lt_of_le hapart hnext

/-- The windows cover the range: what lies in it lies in one of them, and the other way
round. -/
theorem Tiled.covers (h : Tiled stepDays last current periods) (t : Instant) :
    (∃ period ∈ periods, period.start.wall ≤ t ∧ t ≤ period.end.wall) ↔
      current.midnight ≤ t ∧ t ≤ last.lastMicrosecond := by
  induction h with
  | @done current past =>
      refine iff_of_false (fun ⟨_, hnone, _⟩ => absurd hnone List.not_mem_nil) ?_
      rw [midnight_le_iff, le_lastMicrosecond_iff]
      have hpos := last.pos
      omega
  | @next current reach following period rest first final forward short within adjacent others ih =>
      have hpos := current.pos
      rw [List.exists_mem_cons_iff, ih, first, final, DateTime.utc, DateTime.utc]
      simp only [midnight_le_iff, le_lastMicrosecond_iff]
      omega

/-- The ends of each window are midnight and the last microsecond of two dates, not more
than `stepDays` apart. -/
theorem Tiled.whole (h : Tiled stepDays last current periods) : ∀ period ∈ periods,
    ∃ first final : Date, period.start = .utc first.midnight ∧ period.end = .utc final.lastMicrosecond ∧
      first.ordinal ≤ final.ordinal ∧ final.ordinal < first.ordinal + stepDays := by
  induction h with
  | done => exact fun _ hnone => absurd hnone List.not_mem_nil
  | next first final forward short _ _ _ ih =>
      intro p hp
      rcases List.mem_cons.mp hp with rfl | hp
      · exact ⟨_, _, first, final, forward, short⟩
      · exact ih p hp

end Windows

section Plans

variable {rt : Runtime} {args : PlanArgs} {file : StateFile} {plan : BackfillPlan}

/-- A plan is built from the listed records, and each of its windows from one period. -/
theorem buildBackfillPlan_ok (h : buildBackfillPlan rt args file = .ok plan) :
    ∃ records, listLive file = .ok records ∧ args.kind = .metadata ∧ args.direction ≠ .folio ∧
      ∀ window ∈ plan.windows, ∃ operation index period,
        window = windowPlan rt args operation records index period := by
  by_cases hkind : args.kind = .metadata
  · rw [buildBackfillPlan, if_neg (fun hne => hne hkind)] at h
    obtain ⟨operation, hoperation, h⟩ := Checked.bind_eq_ok.mp h
    obtain ⟨records, hrecords, h⟩ := Checked.bind_eq_ok.mp h
    obtain ⟨periods, -, h⟩ := Checked.bind_eq_ok.mp h
    obtain ⟨normalized, -, h⟩ := Checked.bind_eq_ok.mp h
    have hplan := Checked.pure_eq_ok.mp h
    refine ⟨records, ?_, hkind, ?_, ?_⟩
    · exact Checked.mapError_eq_ok.mp hrecords
    · intro hfolio
      rw [hfolio] at hoperation
      cases hoperation
    · intro window hwindow
      rw [← hplan] at hwindow
      obtain ⟨i, hi, hwindow⟩ := List.mem_mapIdx.mp hwindow
      exact ⟨operation, i + 1, periods[i], hwindow.symm⟩
  · rw [buildBackfillPlan, if_pos hkind] at h
    cases h

end Plans

end SatBackfill

end CfdiVault
