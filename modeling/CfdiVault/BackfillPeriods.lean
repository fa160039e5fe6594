import CfdiVault.SatBackfill

/-!
# The periods of a backfill partition its range

`generate_backfill_periods` splits an inclusive range of dates.  The periods follow each
other without a gap or an overlap of even a microsecond, from the first midnight to the last
microsecond of the range, and all but the last have the full number of days
(`generateBackfillPeriods_partitions`).
-/

namespace CfdiVault

namespace SatBackfill

/-- The days of one step of the loop. -/
def stepDaysOf (window : String) : Nat := if window = "daily" then 1 else 7

/-- The periods partition the range of dates from `first` to `last` in steps of days. -/
structure Partitions (stepDays : Nat) (first last : Date) (periods : List DateTimePeriod) : Prop where
  increasing : periods.Pairwise fun p q => p.start.wall < q.start.wall
  disjoint : periods.Pairwise fun p q =>
    ∀ t : Instant, ¬ (p.start.wall ≤ t ∧ t ≤ p.end.wall ∧ q.start.wall ≤ t ∧ t ≤ q.end.wall)
  whole : ∀ p ∈ periods, ∃ a b : Date, p.start = .utc a.midnight ∧ p.end = .utc b.lastMicrosecond ∧
    a.ordinal ≤ b.ordinal ∧ b.ordinal + 1 ≤ a.ordinal + stepDays
  adjacent : periods.IsChain fun p q => q.start.wall.micros = p.end.wall.micros + 1
  starts : periods.head?.map (·.start) = some (.utc first.midnight)
  ends : periods.getLast?.map (·.end) = some (.utc last.lastMicrosecond)
  full : ∀ p ∈ periods.dropLast, ∃ a b : Date, p.start = .utc a.midnight ∧
    p.end = .utc b.lastMicrosecond ∧ b.ordinal + 1 = a.ordinal + stepDays

section Splits

variable {stepDays : Nat} {last current : Date} {periods : List DateTimePeriod}

theorem Split.head (h : Split stepDays last current periods) (hahead : current.ordinal ≤ last.ordinal) :
    periods.head?.map (·.start) = some (.utc current.midnight) := by
  cases h with
  | done past => omega
  | next first => exact congrArg some first

/-- The last window ends with the last date. -/
theorem Split.getLast (h : Split stepDays last current periods) (hahead : current.ordinal ≤ last.ordinal) :
    periods.getLast?.map (·.end) = some (.utc last.lastMicrosecond) := by
  induction h with
  | done past => omega
  | @next current reach following period rest first final _ reaches adjacent others ih =>
      cases others with
      | done past =>
          obtain rfl : reach = last := Date.eq_of_ordinal (by omega)
          exact congrArg some final
      | @next _ _ _ next rest _ _ ahead _ _ _ =>
          rw [List.getLast?_cons_cons]
          exact ih ahead

/-- A window starts one microsecond after the window before it ends. -/
theorem Split.isChain (h : Split stepDays last current periods) :
    periods.IsChain fun p q => q.start.wall.micros = p.end.wall.micros + 1 := by
  induction h with
  | done => exact .nil
  | @next current reach following period rest first final _ reaches adjacent others ih =>
      cases others with
      | done => exact .singleton _
      | next start =>
          refine .cons_cons ?_ ih
          have hpos := reach.pos
          rw [start, final]
          change (following.ordinal - 1) * 86400000000 = reach.ordinal * 86400000000 - 1 + 1
          rw [adjacent, Nat.add_sub_cancel]
          omega

/-- Only the last window may have fewer days than a step. -/
theorem Split.full (h : Split stepDays last current periods) (hpos : 1 ≤ stepDays) :
    ∀ p ∈ periods.dropLast, ∃ a b : Date, p.start = .utc a.midnight ∧ p.end = .utc b.lastMicrosecond ∧
      b.ordinal + 1 = a.ordinal + stepDays := by
  induction h with
  | done => exact fun _ hnone => absurd hnone List.not_mem_nil
  | @next current reach following period rest first final _ reaches adjacent others ih =>
      intro p hp
      cases others with
      | done => exact absurd hp List.not_mem_nil
      | next _ _ ahead =>
          rcases List.mem_cons.mp hp with rfl | hp
          · exact ⟨current, reach, first, final, by omega⟩
          · exact ih p hp

/-- The windows of a range partition it. -/
theorem Split.partitions (h : Split stepDays last current periods) (hpos : 1 ≤ stepDays)
    (hahead : current.ordinal ≤ last.ordinal) : Partitions stepDays current last periods := by
  have htiled := h.tiled hpos
  have hordered : ∀ p ∈ periods, p.start.wall ≤ p.end.wall := by
    intro p hp
    obtain ⟨a, b, hstart, hend, hforward, -⟩ := htiled.whole p hp
    have hapos := a.pos
    rw [hstart, hend]
    show (a.ordinal - 1) * 86400000000 ≤ b.ordinal * 86400000000 - 1
    omega
  refine ⟨?_, ?_, fun p hp => ?_, h.isChain, h.head hahead, h.getLast hahead, h.full hpos⟩
  · refine htiled.chronological.imp_of_mem fun hp _ hbefore => ?_
    exact Nat.lt_of_le_of_lt (hordered _ hp) hbefore
  · refine htiled.chronological.imp fun hbefore t => ?_
    rintro ⟨-, htp, htq, -⟩
    exact absurd (Instant.le_trans htq htp) (Instant.not_le.mpr hbefore)
  · obtain ⟨a, b, hstart, hend, hforward, hshort⟩ := htiled.whole p hp
    exact ⟨a, b, hstart, hend, hforward, hshort⟩

end Splits

/-- For a range that ends a week before the calendar does, the loop ends by its own condition
with a partition of the range: more fuel than one unit for each day changes nothing. -/
theorem generateBackfillPeriods_partitions {startDate endDate : Date} {window normalized : String}
    (hrange : startDate.ordinal ≤ endDate.ordinal) (hend : endDate.ordinal + 8 ≤ Calendar.maxOrdinal)
    (hwindow : normalizeWindow window = .ok normalized) :
    ∃ periods, generateBackfillPeriods startDate endDate window = .ok periods ∧
      Partitions (stepDaysOf normalized) startDate endDate periods ∧
      ∀ fuel, endDate.ordinal + 1 - startDate.ordinal ≤ fuel →
        windowsFrom (stepDaysOf normalized) endDate fuel startDate = .ok periods := by
  have hpos : 1 ≤ stepDaysOf normalized := by
    unfold stepDaysOf
    split_ifs <;> omega
  have hweek : stepDaysOf normalized ≤ 7 := by
    unfold stepDaysOf
    split_ifs <;> omega
  obtain ⟨periods, hsplit, hrun⟩ := @windowsFrom_split _ endDate hpos hweek (by omega) startDate
  refine ⟨periods, ?_, hsplit.partitions hpos hrange, fun fuel hfuel => hrun fuel (by omega)⟩
  rw [generateBackfillPeriods, if_neg (by omega), hwindow, Checked.ok_bind]
  exact hrun _ (by omega)

/-- 1 January 2024. -/
def newYear : Date := ⟨738886, by decide, by decide⟩

/-- 10 January 2024. -/
def tenthDay : Date := ⟨738895, by decide, by decide⟩

theorem generateBackfillPeriods_sample :
    ∃ periods, generateBackfillPeriods newYear tenthDay " Weekly " = .ok periods ∧
      Partitions 7 newYear tenthDay periods := by
  obtain ⟨periods, hperiods, hpartitions, -⟩ :=
    @generateBackfillPeriods_partitions newYear tenthDay " Weekly " "weekly" (by decide) (by decide)
      (by decide +kernel)
  exact ⟨periods, hperiods, hpartitions⟩

end SatBackfill

end CfdiVault
