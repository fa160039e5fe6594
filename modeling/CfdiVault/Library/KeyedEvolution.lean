import CfdiVault.Library.Keyed

/-!
# Keyed rows that evolve

A keyed store that is written over and over: a write puts a changed row, or a new one, in the place of the
rows under its key.  `Evolves` relates the rows before and after: no key disappears, keys that were apart
stay apart, and every row stems from a row before, or from a new one, by allowed changes.  A change may be
any reflexive and transitive relation, so that what it forbids is forbidden over whole runs.
-/

namespace CfdiVault

namespace Keyed

variable {α κ : Type} {key : α → κ} {Change : α → α → Prop} {New : α → Prop} {rows rows' rows'' : List α}

variable (key Change New) in
/-- The rows after writes that change rows or add new ones. -/
structure Evolves (rows rows' : List α) : Prop where
  apart : (rows.map key).Nodup → (rows'.map key).Nodup
  kept : ∀ row ∈ rows, ∃ row' ∈ rows', key row' = key row
  source : ∀ row' ∈ rows', ∃ start, (start ∈ rows ∨ New start) ∧ key start = key row' ∧ Change start row'

namespace Evolves

theorem refl (hrefl : ∀ row, Change row row) : Evolves key Change New rows rows where
  apart := id
  kept row hrow := ⟨row, hrow, rfl⟩
  source row hrow := ⟨row, .inl hrow, rfl, hrefl row⟩

theorem trans (htrans : ∀ a b c, Change a b → Change b c → Change a c) (h : Evolves key Change New rows rows')
    (h' : Evolves key Change New rows' rows'') : Evolves key Change New rows rows'' where
  apart := h'.apart ∘ h.apart
  kept row hrow := by
    obtain ⟨row', hrow', hkey⟩ := h.kept row hrow
    obtain ⟨row'', hrow'', hkey'⟩ := h'.kept row' hrow'
    exact ⟨row'', hrow'', hkey'.trans hkey⟩
  source row'' hrow'' := by
    obtain ⟨middle, hmiddle, hkey, hchange⟩ := h'.source row'' hrow''
    rcases hmiddle with hmiddle | hnew
    · obtain ⟨first, hfirst, hkey', hchange'⟩ := h.source middle hmiddle
      exact ⟨first, hfirst, hkey'.trans hkey, htrans _ _ _ hchange' hchange⟩
    · exact ⟨middle, .inr hnew, hkey, hchange⟩

section Write

variable [DecidableEq κ] {arrange : List α → List α} {row start draft : α}

/-- A write of a row that stems from one before the run, or from a new one. -/
theorem write (harr : ∀ l, (arrange l).Perm l) (h : Evolves key Change New rows rows')
    (hstart : start ∈ rows ∨ New start) (hkey : key start = key row) (hchange : Change start row) :
    Evolves key Change New rows (upsert key arrange row rows') where
  apart hrows := nodup_upsert harr (h.apart hrows)
  kept old hold := by
    obtain ⟨row', hrow', hsame⟩ := h.kept old hold
    by_cases hunder : key row' = key row
    · exact ⟨row, (mem_upsert harr).mpr (.inl rfl), hunder.symm.trans hsame⟩
    · exact ⟨row', (mem_upsert harr).mpr (.inr ⟨hrow', hunder⟩), hsame⟩
  source row' hrow' := by
    rcases (mem_upsert harr).mp hrow' with rfl | ⟨hold, -⟩
    · exact ⟨start, hstart, hkey, hchange⟩
    · exact h.source row' hold

/-- A write that a second one under the same key covers is not seen. -/
theorem write_over (harr : ∀ l, (arrange l).Perm l) (h : Evolves key Change New rows rows')
    (hstart : start ∈ rows ∨ New start) (hkey : key start = key row) (hdraft : key draft = key row)
    (hchange : Change start row) :
    Evolves key Change New rows (upsert key arrange row (upsert key arrange draft rows')) where
  apart hrows := nodup_upsert harr (nodup_upsert harr (h.apart hrows))
  kept old hold := by
    obtain ⟨row', hrow', hsame⟩ := h.kept old hold
    by_cases hunder : key row' = key row
    · exact ⟨row, (mem_upsert harr).mpr (.inl rfl), hunder.symm.trans hsame⟩
    · have hleft : row' ∈ upsert key arrange draft rows' :=
        (mem_upsert harr).mpr (.inr ⟨hrow', fun heq => hunder (heq.trans hdraft)⟩)
      exact ⟨row', (mem_upsert harr).mpr (.inr ⟨hleft, hunder⟩), hsame⟩
  source row' hrow' := by
    rcases (mem_upsert harr).mp hrow' with rfl | ⟨hold, hne⟩
    · exact ⟨start, hstart, hkey, hchange⟩
    · rcases (mem_upsert harr).mp hold with rfl | ⟨hold, -⟩
      · exact absurd hdraft hne
      · exact h.source row' hold

end Write

end Evolves

end Keyed

end CfdiVault
