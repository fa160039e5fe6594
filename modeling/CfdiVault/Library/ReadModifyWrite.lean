import Mathlib.Data.List.Nodup
import Mathlib.Logic.Function.Basic

/-!
# Read, modify, write

Calls that share one cell.  Each call reads the cell, decides from what it has read
whether it replaces the cell and by what, and writes.  The steps of the calls interleave,
and nothing keeps the cell as it was between a read and the write that depends on it.

A write is fresh if it finds the cell as its call has read it.  Runs with fresh writes only
are serial (`fresh_serial`).  Where deciding to write uses the cell up, at most one call
returns exactly if every write is fresh (`once_iff_fresh`); and of two calls, the first to
write is overwritten exactly if the second write is not fresh (`pair_outcome`).
-/

namespace CfdiVault

namespace ReadModifyWrite

/-! ## The machine -/

/-- Where a call is: before its read, with what it has read, with what it will write, or at
one of its two ends. -/
inductive Phase (σ : Type) where
  | idle
  | holding (seen : σ)
  | ready (seen next : σ)
  | refused
  | returned

/-- What a call that has not ended has read. -/
def Phase.seen? {σ : Type} : Phase σ → Option σ
  | holding seen | ready seen _ => some seen
  | _ => none

structure State (ι σ : Type) where
  cell : σ
  phase : ι → Phase σ

inductive Event (ι : Type) where
  | read (i : ι)
  | decide (i : ι)
  | write (i : ι)

/-- No call has begun. -/
def start {ι σ : Type} (cell : σ) : State ι σ := ⟨cell, fun _ => .idle⟩

/-- The calls that wrote, in the order of their writes. -/
def writers {ι : Type} (events : List (Event ι)) : List ι :=
  events.filterMap fun
    | .write i => some i
    | _ => none

theorem writers_snoc {ι : Type} {events : List (Event ι)} {event : Event ι} :
    writers (events ++ [event]) = writers events ++ writers [event] :=
  List.filterMap_append

section Machine

variable {ι σ : Type} [DecidableEq ι] {choose : ι → σ → Option σ}

/-- The state with one call in another phase. -/
def State.enter (s : State ι σ) (i : ι) (phase : Phase σ) : State ι σ :=
  { s with phase := Function.update s.phase i phase }

/-- The steps of the calls; `choose i seen` is what the call `i` writes if it has read
`seen`, or `none` if it refuses. -/
inductive Step (choose : ι → σ → Option σ) : Event ι → State ι σ → State ι σ → Prop
  | read {s : State ι σ} (i : ι) (hidle : s.phase i = .idle) :
      Step choose (.read i) s (s.enter i (.holding s.cell))
  | decide {s : State ι σ} (i : ι) (seen next : σ) (hholding : s.phase i = .holding seen)
      (hnext : choose i seen = some next) : Step choose (.decide i) s (s.enter i (.ready seen next))
  | refuse {s : State ι σ} (i : ι) (seen : σ) (hholding : s.phase i = .holding seen)
      (hnone : choose i seen = none) : Step choose (.decide i) s (s.enter i .refused)
  | write {s : State ι σ} (i : ι) (seen next : σ) (hready : s.phase i = .ready seen next) :
      Step choose (.write i) s ({ s with cell := next }.enter i .returned)

/-- A run whose steps are allowed where they are taken. -/
inductive Run (choose : ι → σ → Option σ) (Allowed : Event ι → State ι σ → Prop) (s : State ι σ) :
    List (Event ι) → State ι σ → Prop
  | nil : Run choose Allowed s [] s
  | snoc {events : List (Event ι)} {event : Event ι} {t u : State ι σ}
      (h : Run choose Allowed s events t) (hallowed : Allowed event t) (hstep : Step choose event t u) :
      Run choose Allowed s (events ++ [event]) u

/-- Any interleaving. -/
abbrev Interleaving (choose : ι → σ → Option σ) (s : State ι σ) : List (Event ι) → State ι σ → Prop :=
  Run choose (fun _ _ => True) s

/-- A write finds the cell as its call has read it. -/
def FreshWrite : Event ι → State ι σ → Prop
  | .write i, s => ∀ seen next, s.phase i = .ready seen next → s.cell = seen
  | _, _ => True

variable {Allowed : Event ι → State ι σ → Prop} {events : List (Event ι)} {event : Event ι}
variable {s t u : State ι σ} {cell : σ}

theorem enter_phase {i j : ι} {phase : Phase σ} :
    (s.enter i phase).phase j = if j = i then phase else s.phase j :=
  Function.update_apply s.phase i phase j

/-! ## What a step does -/

/-- Only a write changes the cell. -/
theorem Step.cell_eq (h : Step choose event t u) (hwriters : writers [event] = []) : u.cell = t.cell := by
  cases h with
  | read | decide | refuse => rfl
  | write => cases hwriters

/-- What a call has read it has read before, or it is the cell. -/
theorem Step.seen (h : Step choose event t u) {i : ι} {seen : σ} (hseen : (u.phase i).seen? = some seen) :
    (t.phase i).seen? = some seen ∨ (event = .read i ∧ seen = t.cell) := by
  cases h with
  | read j =>
      rw [enter_phase] at hseen
      split_ifs at hseen with hi
      · cases hseen
        exact .inr ⟨hi ▸ rfl, rfl⟩
      · exact .inl hseen
  | decide j _ _ hholding =>
      rw [enter_phase] at hseen
      split_ifs at hseen with hi
      · cases hseen
        rw [hi, hholding]
        exact .inl rfl
      · exact .inl hseen
  | refuse | write =>
      rw [enter_phase] at hseen
      split_ifs at hseen
      · cases hseen
      · exact .inl hseen

/-- A call that is ready was, or it has just chosen. -/
theorem Step.ready (h : Step choose event t u) {i : ι} {seen next : σ}
    (hready : u.phase i = .ready seen next) : t.phase i = .ready seen next ∨ choose i seen = some next := by
  cases h with
  | read | refuse | write =>
      rw [enter_phase] at hready
      split_ifs at hready
      exact .inl hready
  | decide j _ _ _ hnext =>
      rw [enter_phase] at hready
      split_ifs at hready with hi
      · cases hready
        rw [hi]
        exact .inr hnext
      · exact .inl hready

/-- Exactly the writers return, each from a phase before its end. -/
theorem Step.returned_iff (h : Step choose event t u) {i : ι} :
    u.phase i = .returned ↔ t.phase i = .returned ∨ i ∈ writers [event] := by
  cases h with
  | read j hbefore | decide j _ _ hbefore | refuse j _ hbefore =>
      rw [enter_phase]
      split_ifs with hi
      · rw [hi, hbefore]
        exact iff_of_false (fun h => (nomatch h)) fun h => h.elim (fun h => (nomatch h)) List.not_mem_nil
      · exact (or_iff_left List.not_mem_nil).symm
  | write j seen next hready =>
      rw [enter_phase, show writers [Event.write j] = [j] from rfl, List.mem_singleton]
      split_ifs with hi
      · exact iff_of_true rfl (.inr hi)
      · exact (or_iff_left hi).symm

/-! ## What every run keeps -/

/-- A call that is ready writes what it chose. -/
theorem Run.chosen (h : Run choose Allowed (start cell) events t) :
    ∀ i seen next, t.phase i = .ready seen next → choose i seen = some next := by
  induction h with
  | nil => exact fun _ _ _ h => (nomatch h)
  | snoc _ _ hstep ih => exact fun i seen next hready => (hstep.ready hready).elim (ih i seen next) id

/-- The calls that have returned are those that wrote, each once. -/
theorem Run.returned_iff (h : Run choose Allowed (start cell) events t) :
    (∀ i, t.phase i = .returned ↔ i ∈ writers events) ∧ (writers events).Nodup := by
  induction h with
  | nil => exact ⟨fun i => iff_of_false (fun h => (nomatch h)) List.not_mem_nil, .nil⟩
  | @snoc events event t u _ _ hstep ih =>
      obtain ⟨hiff, hnodup⟩ := ih
      rw [writers_snoc]
      refine ⟨fun i => by rw [hstep.returned_iff, hiff, List.mem_append], ?_⟩
      cases hstep with
      | read | decide | refuse => exact (List.append_nil (writers events)).symm ▸ hnodup
      | write i _ _ hready =>
          refine List.nodup_append'.mpr ⟨hnodup, List.nodup_singleton i, List.disjoint_singleton.mpr ?_⟩
          rw [← hiff, hready]
          exact fun h => (nomatch h)

/-- Before the first write the cell is what it was, and every call has read that. -/
theorem Run.untouched (h : Run choose Allowed (start cell) events t) (hnone : writers events = []) :
    t.cell = cell ∧ ∀ i seen, (t.phase i).seen? = some seen → seen = cell := by
  induction h with
  | nil => exact ⟨rfl, fun _ _ h => (nomatch h)⟩
  | snoc _ _ hstep ih =>
      rw [writers_snoc, List.append_eq_nil_iff] at hnone
      obtain ⟨hcell, hseen⟩ := ih hnone.1
      refine ⟨(hstep.cell_eq hnone.2).trans hcell, fun i seen hi => ?_⟩
      rcases hstep.seen hi with hbefore | ⟨-, hread⟩
      · exact hseen i seen hbefore
      · exact hread.trans hcell

/-- After one write every call has read the cell as it was or as it is. -/
theorem Run.one_written {i : ι} (h : Run choose Allowed (start cell) events t)
    (hwriters : writers events = [i]) : choose i cell = some t.cell ∧
      ∀ j seen, (t.phase j).seen? = some seen → seen = cell ∨ seen = t.cell := by
  induction h with
  | nil => cases hwriters
  | @snoc events event t u hrun _ hstep ih =>
      rw [writers_snoc] at hwriters
      rcases List.append_eq_singleton_iff.mp hwriters with ⟨hnone, hlast⟩ | ⟨hfirst, hnone⟩
      · obtain ⟨-, hseen⟩ := hrun.untouched hnone
        cases hstep with
        | read | decide | refuse => cases hlast
        | write j seen next hready =>
            cases hlast
            have hchosen := hrun.chosen i seen next hready
            rw [hseen i seen (congrArg Phase.seen? hready)] at hchosen
            refine ⟨hchosen, fun j other hj => .inl ?_⟩
            rw [enter_phase] at hj
            split_ifs at hj
            · cases hj
            · exact hseen j other hj
      · obtain ⟨hcell, hseen⟩ := ih hfirst
        rw [hstep.cell_eq hnone]
        refine ⟨hcell, fun j seen hj => ?_⟩
        rcases hstep.seen hj with hbefore | ⟨-, hread⟩
        · exact hseen j seen hbefore
        · exact .inr hread

/-! ## Fresh writes -/

/-- A run with fresh writes does what its calls do one after the other, in the order of
their writes. -/
theorem fresh_serial (h : Run choose FreshWrite (start cell) events t) :
    (writers events).foldlM (fun value i => choose i value) cell = some t.cell := by
  induction h with
  | nil => rfl
  | @snoc events event t u hrun hfresh hstep ih =>
      rw [writers_snoc, List.foldlM_append, ih]
      cases hstep with
      | read | decide | refuse => rfl
      | write i seen next hready =>
          have hchosen := hrun.chosen i seen next hready
          rw [← hfresh seen next hready] at hchosen
          change (choose i t.cell >>= pure) = some next
          rw [hchosen]
          rfl

/-- A run with at most one write is fresh. -/
theorem Run.fresh_of_le_one (h : Run choose Allowed (start cell) events t)
    (hwriters : (writers events).length ≤ 1) : Run choose FreshWrite (start cell) events t := by
  induction h with
  | nil => exact .nil
  | @snoc events event t u hrun _ hstep ih =>
      rw [writers_snoc, List.length_append] at hwriters
      refine .snoc (ih (by omega)) ?_ hstep
      cases hstep with
      | read | decide | refuse => trivial
      | write i _ _ hready =>
          have hnone : writers events = [] := by
            refine List.eq_nil_of_length_eq_zero ?_
            change _ + 1 ≤ 1 at hwriters
            omega
          obtain ⟨hcell, hseen⟩ := hrun.untouched hnone
          intro seen next hready'
          rw [hcell, hseen i seen (congrArg Phase.seen? hready')]

/-- No more than one call has returned. -/
def Once (s : State ι σ) : Prop := ∀ i j, s.phase i = .returned → s.phase j = .returned → i = j

theorem Run.once_iff (h : Run choose Allowed (start cell) events t) :
    Once t ↔ (writers events).length ≤ 1 := by
  obtain ⟨hreturned, hnodup⟩ := h.returned_iff
  simp only [Once, hreturned]
  match writers events, hnodup with
  | [], _ => simp
  | [i], _ => simp
  | i :: j :: rest, hnodup =>
      refine iff_of_false (fun honce => ?_) (by simp)
      have hne : i ≠ j := fun heq => by simp [heq] at hnodup
      exact hne (honce i j (by simp) (by simp))

/-- Where a call writes only over a live cell, and what it writes is not live, at most one
call returns exactly if every write is fresh. -/
theorem once_iff_fresh {Live : σ → Prop}
    (hconsumes : ∀ i seen next, choose i seen = some next → Live seen ∧ ¬ Live next)
    (h : Interleaving choose (start cell) events t) :
    Once t ↔ Run choose FreshWrite (start cell) events t := by
  rw [h.once_iff]
  refine ⟨h.fresh_of_le_one, fun hfresh => ?_⟩
  -- once a call has written, the cell is not live
  suffices hspent : (writers events).length ≤ 1 ∧ (writers events ≠ [] → ¬ Live t.cell) from hspent.1
  clear h
  induction hfresh with
  | nil => exact ⟨Nat.zero_le 1, fun h => absurd rfl h⟩
  | @snoc events event t u hrun hfresh hstep ih =>
      obtain ⟨hlength, hdead⟩ := ih
      rw [writers_snoc]
      cases hstep with
      | read | decide | refuse =>
          rw [show writers [_] = ([] : List ι) from rfl, List.append_nil]
          exact ⟨hlength, hdead⟩
      | write i seen next hready =>
          obtain ⟨hlive, hnext⟩ := hconsumes i seen next (hrun.chosen i seen next hready)
          rw [← hfresh seen next hready] at hlive
          have hnone : writers events = [] := by
            by_contra hsome
            exact hdead hsome hlive
          rw [hnone]
          exact ⟨Nat.le_refl 1, fun _ => hnext⟩

/-- Of two calls that wrote, the second has applied its change to what the first left if
the run was fresh, and to what both had found if it was not. -/
theorem pair_outcome {i j : ι} (h : Interleaving choose (start cell) events t)
    (hwriters : writers events = [i, j]) :
    (Run choose FreshWrite (start cell) events t ∧
      ∃ middle, choose i cell = some middle ∧ choose j middle = some t.cell) ∨
    (¬ Run choose FreshWrite (start cell) events t ∧ choose j cell = some t.cell) := by
  by_cases hfresh : Run choose FreshWrite (start cell) events t
  · have hserial := fresh_serial hfresh
    rw [hwriters] at hserial
    obtain ⟨middle, hmiddle, hlast⟩ := Option.bind_eq_some_iff.mp hserial
    obtain ⟨last, hchosen, heq⟩ := Option.bind_eq_some_iff.mp hlast
    cases heq
    exact .inl ⟨hfresh, middle, hmiddle, hchosen⟩
  · refine .inr ⟨hfresh, ?_⟩
    induction h with
    | nil => cases hwriters
    | @snoc events event t u hrun _ hstep ih =>
        rw [writers_snoc] at hwriters
        have hkept : writers [event] = [] → choose j cell = some u.cell := by
          intro hnone
          rw [hstep.cell_eq hnone]
          refine ih ?_ fun hbefore => hfresh (.snoc hbefore ?_ hstep)
          · rwa [hnone, List.append_nil] at hwriters
          · cases event with
            | read | decide => trivial
            | write => cases hnone
        cases hstep with
        | read | decide | refuse => exact hkept rfl
        | write k seen next hready =>
            obtain ⟨hfirst, hlast⟩ := @List.append_inj' _ _ _ [i] [j] hwriters rfl
            cases hlast
            obtain ⟨-, hseen⟩ := hrun.one_written hfirst
            have hchosen := hrun.chosen j seen next hready
            rcases hseen j seen (congrArg Phase.seen? hready) with rfl | hlatest
            · exact hchosen
            · -- a second write over what the first one left is fresh
              refine absurd (Run.snoc (hrun.fresh_of_le_one (hfirst ▸ Nat.le_refl 1)) ?_
                (.write j seen next hready)) hfresh
              intro seen' next' hready'
              cases hready.symm.trans hready'
              exact hlatest.symm

end Machine

end ReadModifyWrite

end CfdiVault
