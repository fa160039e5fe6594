import Mathlib.Data.List.Basic

/-!
# Unit of work

A database connection that collects its changes: reads see the working copy of the
current transaction, new rows wait in a list until they are flushed, and nothing is
durable before the commit.  Closing the session gives up what was not committed.

The database `D` and its rows `R` are arbitrary; `insert` adds one row and fails
when a constraint of the database is violated.
-/

namespace CfdiVault

/-- A connection: the durable database, the working copy of the transaction, and
the rows not yet written to it. -/
structure Session (D R : Type) where
  committed : D
  working : D
  pending : List R

namespace Session

variable {D R : Type} {insert : R → D → Option D}

/-- A connection without an open transaction. -/
def idle (d : D) : Session D R := ⟨d, d, []⟩

/-- Begin or give up a transaction. -/
def reset (s : Session D R) : Session D R := idle s.committed

/-- Put a new row in the waiting list. -/
def add (row : R) (s : Session D R) : Session D R := { s with pending := s.pending ++ [row] }

/-- Change rows of the working copy. -/
def update (f : D → D) (s : Session D R) : Session D R := { s with working := f s.working }

/-- Insert rows one after the other; `none` when one violates a constraint. -/
def insertAll (insert : R → D → Option D) : List R → D → Option D
  | [], d => some d
  | row :: rest, d => (insert row d).bind (insertAll insert rest)

/-- Write the waiting rows to the working copy. -/
def flush? (insert : R → D → Option D) (s : Session D R) : Option (Session D R) :=
  (insertAll insert s.pending s.working).map fun d => { s with working := d, pending := [] }

/-- Make the working copy durable. -/
def publish (s : Session D R) : Session D R := { s with committed := s.working }

@[simp] theorem reset_committed (s : Session D R) : s.reset.committed = s.committed := rfl
@[simp] theorem reset_working (s : Session D R) : s.reset.working = s.committed := rfl
@[simp] theorem reset_pending (s : Session D R) : s.reset.pending = [] := rfl
@[simp] theorem reset_idle (d : D) : (idle d : Session D R).reset = idle d := rfl
@[simp] theorem add_committed (row : R) (s : Session D R) : (s.add row).committed = s.committed := rfl
@[simp] theorem add_working (row : R) (s : Session D R) : (s.add row).working = s.working := rfl
@[simp] theorem add_pending (row : R) (s : Session D R) :
    (s.add row).pending = s.pending ++ [row] := rfl
@[simp] theorem update_committed (f : D → D) (s : Session D R) :
    (s.update f).committed = s.committed := rfl
@[simp] theorem update_working (f : D → D) (s : Session D R) :
    (s.update f).working = f s.working := rfl
@[simp] theorem update_pending (f : D → D) (s : Session D R) :
    (s.update f).pending = s.pending := rfl
@[simp] theorem publish_committed (s : Session D R) : s.publish.committed = s.working := rfl
@[simp] theorem publish_working (s : Session D R) : s.publish.working = s.working := rfl
@[simp] theorem publish_pending (s : Session D R) : s.publish.pending = s.pending := rfl

theorem insertAll_cons_eq_some {row : R} {rest : List R} {d e : D} :
    insertAll insert (row :: rest) d = some e ↔
      ∃ d', insert row d = some d' ∧ insertAll insert rest d' = some e := by
  rw [insertAll, Option.bind_eq_some_iff]

/-- What every single insertion preserves, the insertion of a list preserves. -/
theorem insertAll_keeps {I : D → Prop} {rows : List R} {d e : D}
    (hstep : ∀ row ∈ rows, ∀ d d', I d → insert row d = some d' → I d')
    (h : insertAll insert rows d = some e) (hd : I d) : I e := by
  induction rows generalizing d with
  | nil =>
      cases h
      exact hd
  | cons row rest ih =>
      obtain ⟨d', hd', h⟩ := insertAll_cons_eq_some.mp h
      refine ih (fun r hr => hstep r (List.mem_cons_of_mem row hr)) h ?_
      exact hstep row List.mem_cons_self d d' hd hd'

/-- A table to which each row contributes its own entries ends with the entries of
all inserted rows behind the ones it had. -/
theorem insertAll_table {α : Type} {table : D → List α} {entries : R → List α}
    (hstep : ∀ row d d', insert row d = some d' → table d' = table d ++ entries row)
    {rows : List R} {d e : D} (h : insertAll insert rows d = some e) :
    table e = table d ++ rows.flatMap entries := by
  induction rows generalizing d with
  | nil =>
      cases h
      rw [List.flatMap_nil, List.append_nil]
  | cons row rest ih =>
      obtain ⟨d', hd', h⟩ := insertAll_cons_eq_some.mp h
      rw [ih h, hstep row d d' hd', List.flatMap_cons, List.append_assoc]

/-- Each inserted row met a database that had grown from the initial one and accepted it. -/
theorem insertAll_accepts {M : D → D → Prop} (hrefl : ∀ d, M d d)
    (htrans : ∀ d e f, M d e → M e f → M d f)
    (hstep : ∀ row d d', insert row d = some d' → M d d') {rows : List R} {row : R} {d e : D}
    (h : insertAll insert rows d = some e) (hrow : row ∈ rows) :
    ∃ d₁ d₂, M d d₁ ∧ insert row d₁ = some d₂ := by
  induction rows generalizing d with
  | nil => cases hrow
  | cons first rest ih =>
      obtain ⟨d', hd', h⟩ := insertAll_cons_eq_some.mp h
      rcases List.mem_cons.mp hrow with rfl | hrow
      · exact ⟨d, d', hrefl d, hd'⟩
      · obtain ⟨d₁, d₂, hgrown, haccepted⟩ := ih h hrow
        exact ⟨d₁, d₂, htrans d d' d₁ (hstep first d d' hd') hgrown, haccepted⟩

/-- Inserting the same rows into related databases fails in both or succeeds in both
with related results. -/
theorem insertAll_agree {S : D → D → Prop} {rows : List R}
    (hstep : ∀ row ∈ rows, ∀ d e, S d e → Option.Rel S (insert row d) (insert row e))
    {d e : D} (h : S d e) : Option.Rel S (insertAll insert rows d) (insertAll insert rows e) := by
  induction rows generalizing d e with
  | nil => exact .some h
  | cons row rest ih =>
      have hrow := hstep row List.mem_cons_self d e h
      rw [insertAll, insertAll]
      generalize insert row d = x at hrow ⊢
      generalize insert row e = y at hrow ⊢
      cases hrow with
      | none => exact .none
      | some hde => exact ih (fun r hr => hstep r (List.mem_cons_of_mem row hr)) hde

section Constraints

variable {clashes : D → R → Prop} {conflict : R → R → Prop} {append : D → R → D}

/-- Where a row is refused exactly if it clashes with a row of the database, and every
appended row is one more to clash with, a list of rows is accepted exactly if none of
them clashes with the database or with an earlier one. -/
theorem insertAll_eq_some_iff
    (hinsert : ∀ row d e, insert row d = some e ↔ ¬ clashes d row ∧ append d row = e)
    (hgrow : ∀ d row other, clashes (append d row) other ↔ clashes d other ∨ conflict row other)
    {rows : List R} {d e : D} :
    insertAll insert rows d = some e ↔
      (∀ row ∈ rows, ¬ clashes d row) ∧ rows.Pairwise (fun a b => ¬ conflict a b) ∧
        rows.foldl append d = e := by
  induction rows generalizing d with
  | nil => simp [insertAll]
  | cons row rest ih =>
      rw [insertAll_cons_eq_some]
      constructor
      · rintro ⟨d', hd', hrest⟩
        obtain ⟨hrow, rfl⟩ := (hinsert row d d').mp hd'
        obtain ⟨hclash, hpair, hfold⟩ := ih.mp hrest
        refine ⟨List.forall_mem_cons.mpr ⟨hrow, fun other hother => ?_⟩,
          List.pairwise_cons.mpr ⟨fun other hother => ?_, hpair⟩, hfold⟩
        · exact fun h => hclash other hother ((hgrow d row other).mpr (.inl h))
        · exact fun h => hclash other hother ((hgrow d row other).mpr (.inr h))
      · rintro ⟨hclash, hpair, hfold⟩
        obtain ⟨hrow, hclash⟩ := List.forall_mem_cons.mp hclash
        obtain ⟨hconflict, hpair⟩ := List.pairwise_cons.mp hpair
        refine ⟨append d row, (hinsert row d _).mpr ⟨hrow, rfl⟩, ih.mpr ⟨?_, hpair, hfold⟩⟩
        intro other hother h
        rcases (hgrow d row other).mp h with h | h
        · exact hclash other hother h
        · exact hconflict other hother h

/-- A row is accepted behind appended rows exactly if it clashes with none of them. -/
theorem clashes_foldl
    (hgrow : ∀ d row other, clashes (append d row) other ↔ clashes d other ∨ conflict row other)
    {rows : List R} {d : D} {other : R} :
    clashes (rows.foldl append d) other ↔ clashes d other ∨ ∃ row ∈ rows, conflict row other := by
  induction rows generalizing d with
  | nil => simp
  | cons row rest ih =>
      rw [List.foldl_cons, ih, hgrow, List.exists_mem_cons_iff, or_assoc]

end Constraints

theorem flush?_eq_some {s t : Session D R} :
    s.flush? insert = some t ↔
      ∃ d, insertAll insert s.pending s.working = some d ∧ t = ⟨s.committed, d, []⟩ := by
  rw [flush?, Option.map_eq_some_iff]
  constructor
  · rintro ⟨d, hd, rfl⟩
    exact ⟨d, hd, rfl⟩
  · rintro ⟨d, hd, rfl⟩
    exact ⟨d, hd, rfl⟩

end Session

end CfdiVault
