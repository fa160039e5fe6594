import Mathlib.Data.List.Basic
import Mathlib.Data.List.TakeWhile
import Mathlib.Tactic.Common

/-!
# Items of a FIFO queue that cannot be read

A consumer takes the item at the head of a queue.  If it cannot read the item, it either
lets it go or puts it back, and put back the item is at the head again.

* `drain_dropping` — a consumer that lets such items go passes on every readable item.
* `drain_requeueing` — a consumer that puts them back stops at the first of them.
* `drained_iff` — so with as many calls as there are items, it passes on every readable
  item once exactly when none of them stands behind an unreadable one.

`Fifo` is what a message broker has to do for the lists below to describe it.
-/

namespace CfdiVault

namespace FifoDelivery

variable {α B : Type}

/-! ## Channels -/

/-- The operations of a channel on deliveries with bodies in `α`.  A channel has at most
one delivery that is not settled. -/
structure Channel (α B : Type) where
  basicGet : String → B → Option α × B
  basicAck : B → B
  basicNack : (requeue : Bool) → B → B

/-- The queue of a name is first in, first out; a delivery that is settled without
requeueing is gone, a requeued one is back at the head. -/
structure Fifo (channel : Channel α B) (queueName : String) (waiting : B → List α) : Prop where
  empty : ∀ b, waiting b = [] →
    (channel.basicGet queueName b).1 = none ∧ waiting (channel.basicGet queueName b).2 = []
  next : ∀ b body rest, waiting b = body :: rest → (channel.basicGet queueName b).1 = some body
  ack : ∀ b body rest, waiting b = body :: rest →
    waiting (channel.basicAck (channel.basicGet queueName b).2) = rest
  nack : ∀ b body rest requeue, waiting b = body :: rest →
    waiting (channel.basicNack requeue (channel.basicGet queueName b).2) =
      if requeue then body :: rest else rest

/-- What is got from a queue, by whether a body waits, and where settling it leads. -/
theorem Fifo.got {channel : Channel α B} {queueName : String} {waiting : B → List α}
    (h : Fifo channel queueName waiting) (b : B) :
    ∃ next, (channel.basicGet queueName b = (none, next) ∧ waiting b = [] ∧ waiting next = []) ∨
      ∃ body rest, channel.basicGet queueName b = (some body, next) ∧ waiting b = body :: rest ∧
        waiting (channel.basicAck next) = rest ∧
        ∀ requeue, waiting (channel.basicNack requeue next) = if requeue then body :: rest else rest := by
  refine ⟨(channel.basicGet queueName b).2, ?_⟩
  cases hw : waiting b with
  | nil =>
      obtain ⟨hnone, hleft⟩ := h.empty b hw
      exact .inl ⟨Prod.ext hnone rfl, rfl, hleft⟩
  | cons body rest =>
      have hnack := fun requeue => h.nack b body rest requeue hw
      exact .inr ⟨body, rest, Prod.ext (h.next b body rest hw) rfl, rfl, h.ack b body rest hw, hnack⟩

/-- A channel that keeps the waiting bodies of its one queue in a list, and the open
delivery beside it. -/
def listChannel : Channel α (List α × Option α) where
  basicGet _ b := (b.1.head?, b.1.tail, b.1.head?)
  basicAck b := (b.1, none)
  basicNack requeue b := (if requeue then b.2.toList ++ b.1 else b.1, none)

theorem listChannel_fifo (queueName : String) :
    Fifo (listChannel (α := α)) queueName Prod.fst where
  empty b h := by simp [listChannel, h]
  next b body rest h := by simp [listChannel, h]
  ack b body rest h := by simp [listChannel, h]
  nack b body rest requeue h := by simp [listChannel, h]

/-! ## Draining a queue -/

section Drain

variable (readable : α → Bool) (putBack : Bool)

/-- What one call passes on, and what it leaves in the queue. -/
def consume : List α → Option α × List α
  | [] => (none, [])
  | item :: rest =>
      if readable item then (some item, rest)
      else (none, if putBack then item :: rest else rest)

/-- What a number of calls passes on. -/
def drain : Nat → List α → List α
  | 0, _ => []
  | n + 1, waiting =>
      (consume readable putBack waiting).1.toList ++ drain n (consume readable putBack waiting).2

end Drain

variable {readable : α → Bool}

theorem drain_nil (putBack : Bool) (n : Nat) : drain readable putBack n [] = [] := by
  induction n with
  | zero => rfl
  | succ n ih => exact ih

theorem drain_dropping (n : Nat) (waiting : List α) :
    drain readable false n waiting = (waiting.take n).filter readable := by
  induction n generalizing waiting with
  | zero => rfl
  | succ n ih =>
      cases waiting with
      | nil => exact drain_nil false (n + 1)
      | cons item rest =>
          rw [List.take_succ_cons, List.filter_cons, ← ih rest, drain, consume]
          split
          · rfl
          · rfl

theorem drain_requeueing (n : Nat) (waiting : List α) :
    drain readable true n waiting = (waiting.takeWhile readable).take n := by
  induction n generalizing waiting with
  | zero => simp [drain]
  | succ n ih =>
      cases waiting with
      | nil => exact drain_nil true (n + 1)
      | cons item rest =>
          rw [drain, consume, List.takeWhile_cons]
          split
          · show item :: drain readable true n rest = _
            rw [ih rest, List.take_succ_cons]
          · next hunread =>
            -- the item is at the head again, and so it is for the remaining calls
            show drain readable true n (item :: rest) = _
            rw [ih, List.takeWhile_cons, if_neg hunread, List.take_nil, List.take_nil]

/-- No readable item stands behind an unreadable one. -/
def Unblocked (readable : α → Bool) (waiting : List α) : Prop :=
  waiting.Pairwise fun first later => readable later = true → readable first = true

theorem unblocked_cons {item : α} {rest : List α} :
    Unblocked readable (item :: rest) ↔
      (∀ later ∈ rest, readable later = true → readable item = true) ∧ Unblocked readable rest :=
  List.pairwise_cons

/-- The readable items at the head are all readable items exactly when none is blocked. -/
theorem takeWhile_perm_filter_iff (waiting : List α) :
    (waiting.takeWhile readable).Perm (waiting.filter readable) ↔ Unblocked readable waiting := by
  induction waiting with
  | nil => simp [Unblocked]
  | cons item rest ih =>
      rw [unblocked_cons, List.takeWhile_cons, List.filter_cons]
      by_cases hread : readable item = true
      · rw [if_pos hread, hread]
        simpa [hread] using ih
      · rw [if_neg hread, if_neg hread]
        constructor
        · intro hperm
          have hnone : rest.filter readable = [] := hperm.symm.eq_nil
          have hunread : ∀ later ∈ rest, ¬ readable later = true := List.filter_eq_nil_iff.mp hnone
          refine ⟨fun later hlater h => absurd h (hunread later hlater), ?_⟩
          exact List.pairwise_of_forall_mem_list fun _ _ later hlater h => absurd h (hunread later hlater)
        · rintro ⟨hblocked, -⟩
          rw [List.filter_eq_nil_iff.mpr fun later hlater h => hread (hblocked later hlater h)]

/-- With a call for each item, a consumer that puts unreadable items back passes on every
readable item once exactly when none stands behind an unreadable one. -/
theorem drained_iff (waiting : List α) :
    (drain readable true waiting.length waiting).Perm (waiting.filter readable) ↔
      Unblocked readable waiting := by
  rw [drain_requeueing, List.take_of_length_le (List.takeWhile_prefix readable).length_le]
  exact takeWhile_perm_filter_iff waiting

theorem drained (waiting : List α) :
    drain readable false waiting.length waiting = waiting.filter readable := by
  rw [drain_dropping, List.take_length]

end FifoDelivery

end CfdiVault
