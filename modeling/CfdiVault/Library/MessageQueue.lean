import Mathlib.Data.List.Perm.Basic
import Mathlib.Tactic.Common

/-!
# Message queues with handlers

An adapter takes messages, and gives one at a time to a handler that may return or
raise.  What an adapter does with the message of a handler that raised is left open: it
may put the message back (`Requeues`) or let it go (`Drops`).

The law is about whole runs of publications and consumptions.  At each point every
published message should be pending or have been passed to a handler that returned.  An
adapter that requeues keeps the law in every run (`Requeues.nothingLost`); one that
drops keeps it exactly in the runs in which no handler raises (`Drops.nothingLost_iff`).

An adapter may hold its messages in another form, the items `I`: a broker holds bytes.
-/

namespace CfdiVault

namespace MessageQueue

/-- What one consumption did: nothing was there, an item could not be read, or its
message was passed to the handler. -/
inductive Consumed (I M ε ρ : Type) where
  | empty
  | refused (item : I)
  | passed (item : I) (message : M) (outcome : Except ε ρ)

/-- A queue adapter with its state `S`. -/
structure Adapter (S M I ε ρ : Type) where
  publish : M → S → S
  consume : String → (M → Except ε ρ) → S → Consumed I M ε ρ × S
  pending : S → List I
  item : M → I

/-- An operation on an adapter; handlers may return or raise at will. -/
inductive Operation (M ε ρ : Type) where
  | publish (message : M)
  | consume (queueName : String) (handler : M → Except ε ρ)

/-- What has happened: the published items, and those whose message was passed to a
handler that returned, or to one that raised. -/
structure History (I : Type) where
  published : List I := []
  handled : List I := []
  failed : List I := []

variable {S M I ε ρ : Type} (A : Adapter S M I ε ρ)

/-- The history after a consumption. -/
def History.record (h : History I) : Consumed I M ε ρ → History I
  | .passed item _ (.ok _) => { h with handled := h.handled ++ [item] }
  | .passed item _ (.error _) => { h with failed := h.failed ++ [item] }
  | _ => h

/-- One operation on an adapter with its history. -/
def step (r : S × History I) : Operation M ε ρ → S × History I
  | .publish message =>
      (A.publish message r.1, { r.2 with published := r.2.published ++ [A.item message] })
  | .consume queueName handler =>
      ((A.consume queueName handler r.1).2, r.2.record (A.consume queueName handler r.1).1)

/-- A run of operations. -/
def run (r : S × History I) (operations : List (Operation M ε ρ)) : S × History I :=
  operations.foldl (step A) r

/-- Every published message is pending or has been passed to a handler that returned. -/
def NothingLost (r : S × History I) : Prop :=
  r.2.published.Perm (A.pending r.1 ++ r.2.handled)

/-- What every adapter does where no handler raises. -/
structure Delivers : Prop where
  publish : ∀ message s, (A.pending (A.publish message s)).Perm (A.item message :: A.pending s)
  empty : ∀ queueName handler s, (A.consume queueName handler s).1 = .empty →
    (A.pending (A.consume queueName handler s).2).Perm (A.pending s)
  refused : ∀ queueName handler s item, (A.consume queueName handler s).1 = .refused item →
    (A.pending (A.consume queueName handler s).2).Perm (A.pending s)
  returned : ∀ queueName handler s item message value,
    (A.consume queueName handler s).1 = .passed item message (.ok value) →
    (A.pending s).Perm (item :: A.pending (A.consume queueName handler s).2)

/-- The message of a handler that raised is put back. -/
structure Requeues : Prop extends Delivers A where
  raised : ∀ queueName handler s item message e,
    (A.consume queueName handler s).1 = .passed item message (.error e) →
    (A.pending (A.consume queueName handler s).2).Perm (A.pending s)

/-- The message of a handler that raised is let go. -/
structure Drops : Prop extends Delivers A where
  raised : ∀ queueName handler s item message e,
    (A.consume queueName handler s).1 = .passed item message (.error e) →
    (A.pending s).Perm (item :: A.pending (A.consume queueName handler s).2)

variable {A}

theorem perm_snoc_of_cons {published pending pending' handled : List I} {item : I}
    (hlaw : published.Perm (pending ++ handled)) (h : pending.Perm (item :: pending')) :
    published.Perm (pending' ++ (handled ++ [item])) := by
  refine hlaw.trans ((h.append_right handled).trans ?_)
  rw [List.cons_append, ← List.append_assoc]
  exact (List.perm_append_singleton item _).symm

/-- One operation of an adapter that requeues keeps the law. -/
theorem Requeues.step (h : Requeues A) {r : S × History I} {operation : Operation M ε ρ}
    (hr : NothingLost A r) : NothingLost A (step A r operation) := by
  cases operation with
  | publish message =>
      refine (List.perm_append_singleton _ _).trans ?_
      exact (hr.cons _).trans ((h.publish message r.1).symm.append_right r.2.handled)
  | consume queueName handler =>
      unfold NothingLost MessageQueue.step
      dsimp only
      cases hconsumed : (A.consume queueName handler r.1).1 with
      | empty =>
          exact hr.trans ((h.empty queueName handler r.1 hconsumed).symm.append_right r.2.handled)
      | refused item =>
          exact hr.trans
            ((h.refused queueName handler r.1 item hconsumed).symm.append_right r.2.handled)
      | passed item message outcome =>
          cases outcome with
          | error e =>
              exact hr.trans
                ((h.raised queueName handler r.1 item message e hconsumed).symm.append_right r.2.handled)
          | ok value =>
              exact perm_snoc_of_cons hr (h.returned queueName handler r.1 item message value hconsumed)

/-- An adapter that requeues loses no message in any run. -/
theorem Requeues.nothingLost (h : Requeues A) {r : S × History I} (hr : NothingLost A r)
    (operations : List (Operation M ε ρ)) : NothingLost A (run A r operations) := by
  induction operations generalizing r with
  | nil => exact hr
  | cons operation rest ih => exact ih (h.step hr)

/-- Every published message is pending, or was passed to a handler. -/
def Accounted (A : Adapter S M I ε ρ) (r : S × History I) : Prop :=
  r.2.published.Perm (A.pending r.1 ++ r.2.handled ++ r.2.failed)

theorem Drops.step (h : Drops A) {r : S × History I} {operation : Operation M ε ρ}
    (hr : Accounted A r) : Accounted A (step A r operation) := by
  cases operation with
  | publish message =>
      refine (List.perm_append_singleton _ _).trans ((hr.cons _).trans ?_)
      exact ((h.publish message r.1).symm.append_right r.2.handled).append_right r.2.failed
  | consume queueName handler =>
      have hkept : ∀ s, (A.pending s).Perm (A.pending r.1) →
          r.2.published.Perm (A.pending s ++ r.2.handled ++ r.2.failed) := fun s hs =>
        hr.trans ((hs.symm.append_right r.2.handled).append_right r.2.failed)
      unfold Accounted MessageQueue.step
      dsimp only
      cases hconsumed : (A.consume queueName handler r.1).1 with
      | empty => exact hkept _ (h.empty queueName handler r.1 hconsumed)
      | refused item => exact hkept _ (h.refused queueName handler r.1 item hconsumed)
      | passed item message outcome =>
          have hr' : r.2.published.Perm (A.pending r.1 ++ (r.2.handled ++ r.2.failed)) := by
            rw [← List.append_assoc]
            exact hr
          cases outcome with
          | error e =>
              have hnext := perm_snoc_of_cons hr'
                (h.raised queueName handler r.1 item message e hconsumed)
              rw [List.append_assoc, ← List.append_assoc] at hnext
              exact hnext
          | ok value =>
              have hnext := perm_snoc_of_cons hr'
                (h.returned queueName handler r.1 item message value hconsumed)
              change r.2.published.Perm
                (A.pending (A.consume queueName handler r.1).2 ++ (r.2.handled ++ [item]) ++ r.2.failed)
              simp only [List.append_assoc] at hnext ⊢
              exact hnext.trans ((List.perm_append_comm.append_left r.2.handled).append_left _)

theorem Drops.accounted (h : Drops A) {r : S × History I} (hr : Accounted A r)
    (operations : List (Operation M ε ρ)) : Accounted A (run A r operations) := by
  induction operations generalizing r with
  | nil => exact hr
  | cons operation rest ih => exact ih (h.step hr)

/-- Where every message is accounted for, nothing is lost as long as nothing failed. -/
theorem Accounted.nothingLost_iff {r : S × History I} (hr : Accounted A r) :
    NothingLost A r ↔ r.2.failed = [] := by
  constructor
  · intro hlost
    have hlength := (hlost.symm.trans hr).length_eq
    simp only [List.length_append] at hlength
    exact List.length_eq_zero_iff.mp (by omega)
  · intro hfailed
    have := hr
    unfold Accounted at this
    rwa [hfailed, List.append_nil] at this

/-- Failures are never forgotten. -/
theorem failed_prefix (r : S × History I) (operations : List (Operation M ε ρ)) :
    r.2.failed <+: (run A r operations).2.failed := by
  induction operations generalizing r with
  | nil => exact List.prefix_rfl
  | cons operation rest ih =>
      refine List.IsPrefix.trans ?_ (ih (step A r operation))
      cases operation with
      | publish message => exact List.prefix_rfl
      | consume queueName handler =>
          unfold step History.record
          dsimp only
          cases (A.consume queueName handler r.1).1 with
          | empty => exact List.prefix_rfl
          | refused item => exact List.prefix_rfl
          | passed item message outcome =>
              cases outcome with
              | error e => exact List.prefix_append _ _
              | ok value => exact List.prefix_rfl

/-- No handler of a run raises on the message it is given. -/
def HandlersReturn (A : Adapter S M I ε ρ) (s : S) : List (Operation M ε ρ) → Prop
  | [] => True
  | .publish message :: rest => HandlersReturn A (A.publish message s) rest
  | .consume queueName handler :: rest =>
      (∀ item message e, (A.consume queueName handler s).1 ≠ .passed item message (.error e)) ∧
        HandlersReturn A (A.consume queueName handler s).2 rest

theorem failed_nil_iff {r : S × History I} (hr : r.2.failed = []) (operations : List (Operation M ε ρ)) :
    (run A r operations).2.failed = [] ↔ HandlersReturn A r.1 operations := by
  induction operations generalizing r with
  | nil => simp [run, HandlersReturn, hr]
  | cons operation rest ih =>
      cases operation with
      | publish message => exact ih (r := step A r (.publish message)) hr
      | consume queueName handler =>
          have hnext := fun hnil => ih (r := step A r (.consume queueName handler)) hnil
          have hprefix := failed_prefix (A := A) (step A r (.consume queueName handler)) rest
          have hrun : run A r (.consume queueName handler :: rest) =
              run A (step A r (.consume queueName handler)) rest := rfl
          rw [hrun]
          cases hconsumed : (A.consume queueName handler r.1).1 with
          | empty =>
              rw [hnext (by simp [step, History.record, hconsumed, hr])]
              simp [HandlersReturn, hconsumed, step]
          | refused item =>
              rw [hnext (by simp [step, History.record, hconsumed, hr])]
              simp [HandlersReturn, hconsumed, step]
          | passed item message outcome =>
              cases outcome with
              | ok value =>
                  rw [hnext (by simp [step, History.record, hconsumed, hr])]
                  simp [HandlersReturn, hconsumed, step]
              | error e =>
                  have hfailed : (step A r (.consume queueName handler)).2.failed = [item] := by
                    simp [step, History.record, hconsumed, hr]
                  rw [hfailed] at hprefix
                  refine iff_of_false (fun hnil => ?_) fun hreturn => hreturn.1 item message e hconsumed
                  rw [hnil] at hprefix
                  exact absurd (List.prefix_nil.mp hprefix) (by simp)

/-- An adapter that drops keeps the law at every point of a run exactly when no handler of
the run raises. -/
theorem Drops.nothingLost_iff (h : Drops A) {r : S × History I} (hr : Accounted A r)
    (hfailed : r.2.failed = []) (operations : List (Operation M ε ρ)) :
    (∀ n, NothingLost A (run A r (operations.take n))) ↔ HandlersReturn A r.1 operations := by
  have hlaw : ∀ ops, NothingLost A (run A r ops) ↔ (run A r ops).2.failed = [] := fun ops =>
    (h.accounted hr ops).nothingLost_iff
  constructor
  · intro hall
    have hlast := hall operations.length
    rw [List.take_length, hlaw] at hlast
    exact (failed_nil_iff hfailed operations).mp hlast
  · intro hreturn n
    have hnil := (failed_nil_iff hfailed operations).mpr hreturn
    have hsplit : run A r operations =
        run A (run A r (operations.take n)) (operations.drop n) := by
      rw [run, run, run, ← List.foldl_append, List.take_append_drop]
    rw [hlaw]
    have hprefix := failed_prefix (A := A) (run A r (operations.take n)) (operations.drop n)
    rw [← hsplit, hnil] at hprefix
    exact List.prefix_nil.mp hprefix

end MessageQueue

end CfdiVault
