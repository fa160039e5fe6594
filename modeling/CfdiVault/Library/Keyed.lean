import Mathlib.Data.List.Sort

/-!
# Keyed lists

A store kept as a list of rows, addressed by a key that the list itself does not
enforce: rows of one key may repeat until a write for that key removes them.

`upsert` is the write: drop every row under the new row's key, append the row,
and rearrange the result.  The rearrangement is any function that permutes its
argument, so that a store which sorts its rows on every write is an instance.

`Sole key k row rows` says that `row` is the only row under `k`.  A write for `k`
establishes it (`sole_upsert_self`), a write for another key preserves it
(`sole_upsert_of_ne`), and a reader that selects rows by any condition finds
`row` under `k` or nothing (`Sole.eq_of_mem`).
-/

namespace CfdiVault

namespace Keyed

variable {α κ : Type} [DecidableEq κ] (key : α → κ)

/-- The rows that are not under `k`. -/
def without (k : κ) (rows : List α) : List α := rows.filter fun row => key row ≠ k

/-- Replace all rows under the key of `row` by `row`, then rearrange. -/
def upsert (arrange : List α → List α) (row : α) (rows : List α) : List α :=
  arrange (without key (key row) rows ++ [row])

/-- `row` is the only row under `k`. -/
def Sole (k : κ) (row : α) (rows : List α) : Prop :=
  rows.filter (fun r => key r = k) = [row]

variable {key} {arrange : List α → List α} {k : κ} {row r : α} {rows rows' : List α}

theorem mem_without : r ∈ without key k rows ↔ r ∈ rows ∧ key r ≠ k := by
  simp [without]

theorem mem_upsert (harr : ∀ l, (arrange l).Perm l) :
    r ∈ upsert key arrange row rows ↔ r = row ∨ (r ∈ rows ∧ key r ≠ key row) := by
  rw [upsert, (harr _).mem_iff, List.mem_append, mem_without, List.mem_singleton]
  exact or_comm

namespace Sole

theorem mem (h : Sole key k row rows) : row ∈ rows := by
  have : row ∈ rows.filter fun r => key r = k := by rw [h]; exact List.mem_singleton_self row
  exact (List.mem_filter.mp this).1

theorem key_eq (h : Sole key k row rows) : key row = k := by
  have : row ∈ rows.filter fun r => key r = k := by rw [h]; exact List.mem_singleton_self row
  simpa using (List.mem_filter.mp this).2

theorem eq_of_mem (h : Sole key k row rows) (hr : r ∈ rows) (hk : key r = k) : r = row := by
  have : r ∈ rows.filter fun r => key r = k := List.mem_filter.mpr ⟨hr, by simpa using hk⟩
  rw [h] at this
  exact List.mem_singleton.mp this

theorem unique (h : Sole key k row rows) (h' : Sole key k r rows) : row = r := by
  rw [Sole, h] at h'
  injection h'

theorem perm (hp : rows'.Perm rows) (h : Sole key k row rows) : Sole key k row rows' := by
  have := hp.filter fun r => key r = k
  rw [h] at this
  exact List.perm_singleton.mp this

end Sole

/-- A write establishes its row as the only one under its key. -/
theorem sole_upsert_self (harr : ∀ l, (arrange l).Perm l) :
    Sole key (key row) row (upsert key arrange row rows) := by
  refine Sole.perm (harr _) ?_
  have hnone : (without key (key row) rows).filter (fun r => key r = key row) = [] := by
    rw [List.filter_eq_nil_iff]
    intro r hr
    simpa using (mem_without.mp hr).2
  rw [Sole, List.filter_append, hnone]
  simp

/-- A write for another key leaves the only row under `k` in place. -/
theorem sole_upsert_of_ne (harr : ∀ l, (arrange l).Perm l) (hne : key r ≠ k)
    (h : Sole key k row rows) : Sole key k row (upsert key arrange r rows) := by
  refine Sole.perm (harr _) ?_
  have hsame : (without key (key r) rows).filter (fun s => key s = k) =
      rows.filter fun s => key s = k := by
    rw [without, List.filter_filter]
    refine List.filter_congr fun s _ => ?_
    by_cases hs : key s = k
    · simp [hs, Ne.symm hne]
    · simp [hs]
  rw [Sole, List.filter_append, hsame, h]
  simp [hne]

/-! ## Last write wins -/

variable (key) in
/-- The last of the written rows under a key. -/
def lastUnder (k : κ) (writes : List α) : Option α := writes.reverse.find? fun row => key row = k

theorem lastUnder_append {writes : List α} :
    lastUnder key k (writes ++ [row]) = if key row = k then some row else lastUnder key k writes := by
  rw [lastUnder, List.reverse_append, List.reverse_singleton, List.singleton_append, List.find?_cons]
  by_cases h : key row = k
  · rw [if_pos h, decide_eq_true h]
  · rw [if_neg h, decide_eq_false h]
    rfl

variable (key) in
/-- The rows are the last writes, one under each key. -/
structure Holds (writes rows : List α) : Prop where
  nodup : (rows.map key).Nodup
  mem_iff : ∀ row, row ∈ rows ↔ lastUnder key (key row) writes = some row

theorem Holds.nil : Holds key [] [] where
  nodup := List.nodup_nil
  mem_iff := fun _ => iff_of_false List.not_mem_nil fun h => by cases h

/-- The rows may stand in any order. -/
theorem Holds.perm {writes : List α} (h : Holds key writes rows) (hp : rows.Perm rows') : Holds key writes rows' where
  nodup := (hp.map key).nodup_iff.mp h.nodup
  mem_iff := fun row => by rw [← hp.mem_iff, h.mem_iff]

/-- An upsert keeps the keys apart. -/
theorem nodup_upsert (harr : ∀ l, (arrange l).Perm l) (h : (rows.map key).Nodup) :
    ((upsert key arrange row rows).map key).Nodup := by
  rw [upsert, ((harr _).map key).nodup_iff, List.map_append, List.nodup_append']
  refine ⟨h.sublist (List.filter_sublist.map key), List.nodup_singleton _, ?_⟩
  intro k hk hrow
  obtain ⟨r, hr, rfl⟩ := List.mem_map.mp hk
  exact (mem_without.mp hr).2 (List.mem_singleton.mp hrow)

/-- An upsert keeps the rows at the last writes. -/
theorem Holds.upsert {writes : List α} (harr : ∀ l, (arrange l).Perm l) (h : Holds key writes rows) :
    Holds key (writes ++ [row]) (upsert key arrange row rows) where
  nodup := nodup_upsert harr h.nodup
  mem_iff := by
    intro r
    rw [mem_upsert harr, lastUnder_append]
    by_cases hkey : key row = key r
    · rw [if_pos hkey]
      constructor
      · rintro (rfl | ⟨-, hne⟩)
        · rfl
        · exact absurd hkey.symm hne
      · exact fun hsame => .inl (Option.some.inj hsame).symm
    · rw [if_neg hkey, ← h.mem_iff r]
      constructor
      · rintro (rfl | ⟨hr, -⟩)
        · exact absurd rfl hkey
        · exact hr
      · exact fun hr => .inr ⟨hr, Ne.symm hkey⟩

/-! ## Selected rows -/

section Selected

variable {p : α → Prop} [DecidablePred p]

/-- Where no two rows of a list are selected together, a selected row is the only one. -/
theorem filter_eq_singleton (hpair : rows.Pairwise fun a b => ¬ (p a ∧ p b)) (hrow : row ∈ rows)
    (hp : p row) : rows.filter (fun r => p r) = [row] := by
  induction rows with
  | nil => cases hrow
  | cons first rest ih =>
      obtain ⟨hfirst, hrest⟩ := List.pairwise_cons.mp hpair
      rcases List.mem_cons.mp hrow with rfl | hrow
      · have hnone : rest.filter (fun r => p r) = [] :=
          List.filter_eq_nil_iff.mpr fun r hr hsel =>
            hfirst r hr ⟨hp, of_decide_eq_true hsel⟩
        rw [List.filter_cons, if_pos (decide_eq_true hp), hnone]
      · have hnot : ¬ p first := fun hsel => hfirst row hrow ⟨hsel, hp⟩
        rw [List.filter_cons, if_neg (by simpa using hnot), ih hrest hrow]

theorem find?_eq_some_of_sole (hpair : rows.Pairwise fun a b => ¬ (p a ∧ p b)) (hrow : row ∈ rows)
    (hp : p row) : rows.find? (fun r => p r) = some row := by
  rw [← List.head?_filter, filter_eq_singleton hpair hrow hp]
  rfl

end Selected

/-- A search that assignments to one row do not disturb finds what it found, assigned. -/
theorem find?_map_of_same {p : α → Bool} {f : α → α} (h : ∀ r, p (f r) = p r) :
    (rows.map f).find? p = (rows.find? p).map f := by
  rw [List.find?_map]
  congr 1
  exact congrArg (fun q => rows.find? q) (funext h)

end Keyed

end CfdiVault
