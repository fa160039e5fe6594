import Mathlib.Data.Set.Insert

/-!
# References between stored rows

Rows that refer to each other by keys.  A set of rows is closed when no row of it refers to a key that
no row of it provides.  New rows keep it closed when what they refer to is there, and so do rows that
are replaced by rows with the same references.
-/

namespace CfdiVault

/-- What the rows of a store refer to, and under which keys they are found. -/
structure RowReferences (R K : Type) where
  refs : R → List K
  Provides : R → K → Prop

namespace RowReferences

variable {R K : Type} {S T : RowReferences R K} {rows rows' : Set R} {row : R} {key : K}

/-- Some row provides the key. -/
def Resolved (S : RowReferences R K) (rows : Set R) (key : K) : Prop := ∃ row ∈ rows, S.Provides row key

/-- No row refers to a key that no row provides. -/
def Closed (S : RowReferences R K) (rows : Set R) : Prop :=
  ∀ row ∈ rows, ∀ key ∈ S.refs row, S.Resolved rows key

theorem Resolved.mono (h : S.Resolved rows key) (hrows : rows ⊆ rows') : S.Resolved rows' key := by
  obtain ⟨row, hrow, hkey⟩ := h
  exact ⟨row, hrows hrow, hkey⟩

/-- A new row that refers to rows that are there, or to itself. -/
theorem Closed.insert (h : S.Closed rows) (hrow : ∀ key ∈ S.refs row, S.Resolved (insert row rows) key) :
    S.Closed (insert row rows) := by
  rintro other (rfl | hother) key hkey
  · exact hrow key hkey
  · exact (h other hother key hkey).mono (Set.subset_insert row rows)

/-- Rows that take the place of others: every row is still found under its keys, and a row in its new
form refers to what a row referred to before, or to one of the `fresh` keys. -/
structure Replaced (S : RowReferences R K) (fresh : Set K) (rows rows' : Set R) : Prop where
  found : ∀ row ∈ rows, ∃ row' ∈ rows', ∀ key, S.Provides row key → S.Provides row' key
  refers : ∀ row' ∈ rows', (∀ key ∈ S.refs row', key ∈ fresh) ∨ ∃ row ∈ rows, S.refs row' = S.refs row

namespace Replaced

variable {fresh : Set K}

theorem resolved (h : S.Replaced fresh rows rows') (hkey : S.Resolved rows key) : S.Resolved rows' key := by
  obtain ⟨row, hrow, hkey⟩ := hkey
  obtain ⟨row', hrow', hsame⟩ := h.found row hrow
  exact ⟨row', hrow', hsame key hkey⟩

theorem closed (h : S.Replaced fresh rows rows') (hrows : S.Closed rows)
    (hfresh : ∀ key ∈ fresh, S.Resolved rows key) : S.Closed rows' := by
  intro row' hrow' key hkey
  rcases h.refers row' hrow' with hnew | ⟨row, hrow, hsame⟩
  · exact h.resolved (hfresh key (hnew key hkey))
  · exact h.resolved (hrows row hrow key (hsame ▸ hkey))

/-- Rows that stay beside the replaced ones. -/
theorem union (h : S.Replaced fresh rows rows') (others : Set R) :
    S.Replaced fresh (rows ∪ others) (rows' ∪ others) where
  found := by
    rintro row (hrow | hrow)
    · obtain ⟨row', hrow', hsame⟩ := h.found row hrow
      exact ⟨row', .inl hrow', hsame⟩
    · exact ⟨row, .inr hrow, fun _ => id⟩
  refers := by
    rintro row' (hrow' | hrow')
    · exact (h.refers row' hrow').imp_right fun ⟨row, hrow, hsame⟩ => ⟨row, .inl hrow, hsame⟩
    · exact .inr ⟨row', .inr hrow', rfl⟩

end Replaced

/-- The references of two kinds together. -/
theorem Closed.join (h : S.Closed rows) (h' : T.Closed rows) (hprovides : S.Provides = T.Provides) :
    Closed ⟨fun row => S.refs row ++ T.refs row, S.Provides⟩ rows := by
  intro row hrow key hkey
  rcases List.mem_append.mp hkey with hkey | hkey
  · exact h row hrow key hkey
  · obtain ⟨other, hother, hprovided⟩ := h' row hrow key hkey
    exact ⟨other, hother, hprovides ▸ hprovided⟩

end RowReferences

end CfdiVault
