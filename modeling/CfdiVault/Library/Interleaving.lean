import Mathlib.Logic.Function.Basic
import Mathlib.Data.List.Count

/-!
# Parties that take turns

Parties that share one state.  Each has a phase of its own; a turn takes the phase of one
party further and may change the shared state, and a schedule lists the parties in the
order of their turns.  A turn is atomic, and nothing says whose turn is next.

`run_keeps` is the invariant rule.  `rank_run` bounds the turns that a party needs, and
`throughout_iff` reduces a condition on every turn to the end of the run, where not meeting
the condition fails a party for good.
-/

namespace CfdiVault

namespace Interleaving

/-- The shared state and the phases of the parties. -/
structure State (ι φ σ : Type) where
  shared : σ
  phase : ι → φ

section Turns

variable {ι φ σ : Type} [DecidableEq ι] {step : ι → φ → σ → φ × σ}

/-- One turn of a party. -/
def State.turn (step : ι → φ → σ → φ × σ) (s : State ι φ σ) (i : ι) : State ι φ σ :=
  let next := step i (s.phase i) s.shared
  ⟨next.2, Function.update s.phase i next.1⟩

/-- The turns of a schedule. -/
def State.run (step : ι → φ → σ → φ × σ) (s : State ι φ σ) (schedule : List ι) : State ι φ σ :=
  schedule.foldl (State.turn step) s

/-- Every turn of a schedule meets a condition on the phase and the shared state it finds. -/
def Throughout (step : ι → φ → σ → φ × σ) (Allowed : ι → φ → σ → Prop) : State ι φ σ → List ι → Prop
  | _, [] => True
  | s, i :: rest => Allowed i (s.phase i) s.shared ∧ Throughout step Allowed (s.turn step i) rest

variable {s : State ι φ σ} {i : ι} {schedule : List ι}

theorem turn_self : (s.turn step i).phase i = (step i (s.phase i) s.shared).1 :=
  Function.update_self i _ s.phase

theorem turn_other {j : ι} (h : j ≠ i) : (s.turn step i).phase j = s.phase j :=
  Function.update_of_ne h _ s.phase

theorem run_cons {rest : List ι} : s.run step (i :: rest) = (s.turn step i).run step rest := rfl

/-- What every turn of a schedule keeps, its run keeps. -/
theorem run_keeps {I : State ι φ σ → Prop} (hturn : ∀ i ∈ schedule, ∀ s, I s → I (s.turn step i))
    (hs : I s) : I (s.run step schedule) := by
  induction schedule generalizing s with
  | nil => exact hs
  | cons i rest ih =>
      refine ih (fun j hj => hturn j (List.mem_cons_of_mem i hj)) ?_
      exact hturn i List.mem_cons_self s hs

/-- Where every turn of a party brings it nearer to its end, so many turns bring it so much
nearer. -/
theorem rank_run {rank : φ → Nat} (hrank : ∀ i p x, rank (step i p x).1 ≤ rank p - 1) :
    rank ((s.run step schedule).phase i) ≤ rank (s.phase i) - schedule.count i := by
  induction schedule generalizing s with
  | nil => exact Nat.le_refl _
  | cons j rest ih =>
      have hrest := @ih (s.turn step j)
      rw [run_cons]
      by_cases hj : j = i
      · subst hj
        have hturn := hrank j (s.phase j) s.shared
        rw [turn_self] at hrest
        rw [List.count_cons_self]
        omega
      · rw [turn_other (Ne.symm hj)] at hrest
        rwa [List.count_cons_of_ne hj]

/-- Where a party fails exactly in a turn that does not meet a condition, and stays failed,
every turn of a schedule meets the condition exactly if nobody has failed at the end. -/
theorem throughout_iff {Allowed : ι → φ → σ → Prop} {Failed : φ → Prop}
    (hfail : ∀ i p x, ¬ Failed p → (Failed (step i p x).1 ↔ ¬ Allowed i p x))
    (hstay : ∀ i p x, Failed p → Failed (step i p x).1) (hs : ∀ i, ¬ Failed (s.phase i)) :
    Throughout step Allowed s schedule ↔ ∀ i, ¬ Failed ((s.run step schedule).phase i) := by
  induction schedule generalizing s with
  | nil => exact iff_of_true trivial hs
  | cons i rest ih =>
      have hturn := hfail i (s.phase i) s.shared (hs i)
      rw [Throughout, run_cons]
      by_cases hallowed : Allowed i (s.phase i) s.shared
      · refine (and_iff_right hallowed).trans (ih fun j => ?_)
        by_cases hj : j = i
        · subst hj
          rw [turn_self, hturn]
          exact not_not.mpr hallowed
        · rw [turn_other hj]
          exact hs j
      · refine iff_of_false (fun h => hallowed h.1) fun hend => hend i ?_
        refine run_keeps (I := fun t => Failed (t.phase i)) (fun j _ t ht => ?_) ?_
        · by_cases hj : i = j
          · subst hj
            rw [turn_self]
            exact hstay i _ _ ht
          · rw [turn_other hj]
            exact ht
        · rw [turn_self]
          exact hturn.mpr hallowed

end Turns

end Interleaving

end CfdiVault
