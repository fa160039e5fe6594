import Mathlib.Data.List.Basic
import Mathlib.Data.Nat.Init

/-!
# A search that skips

A search goes from one place where something occurs to the next, and skips a stretch after each
place it stops at.  `Stop` says where it stops without saying how it goes there: at every
occurrence that no earlier stop skips.

`Marked` describes the places that the search is meant for.  They occur, and none is skipped on
account of another one; so all that can hide a mark is a stray stop (`Marked.stop_iff`), and where
nothing occurs but inside the stretches of the marks, the search stops at the marks and nowhere
else (`Marked.stop_iff_mark`).  Chunks that are laid out one after the other are such marks
(`Marked.of_chunks`).
-/

namespace CfdiVault

namespace SkipSearch

section Stops

variable (occurs : Nat → Prop) (past : Nat → Nat)

/-- The search stops at an occurrence that no earlier stop skips. -/
def Stop (p : Nat) : Prop := occurs p ∧ ∀ q, (_ : q < p) → Stop q → past q ≤ p
termination_by p

/-- No stop before the cursor skips what comes after it. -/
def Synced (cursor : Nat) : Prop := ∀ q < cursor, Stop occurs past q → past q ≤ cursor

variable {occurs past} {p cursor : Nat}

theorem stop_iff_unskipped : Stop occurs past p ↔ occurs p ∧ ∀ q < p, Stop occurs past q → past q ≤ p := by
  rw [Stop]

theorem Stop.found (h : Stop occurs past p) : occurs p := (stop_iff_unskipped.mp h).1

theorem Stop.apart {q : Nat} (h : Stop occurs past p) (hq : Stop occurs past q) (hlt : q < p) : past q ≤ p :=
  (stop_iff_unskipped.mp h).2 q hlt hq

theorem Synced.zero : Synced occurs past 0 := fun q hq _ => absurd hq (Nat.not_lt_zero q)

/-- The first occurrence from the cursor on is a stop. -/
theorem Synced.stop (h : Synced occurs past cursor) (hp : occurs p) (hcursor : cursor ≤ p)
    (hfirst : ∀ q, cursor ≤ q → q < p → ¬ occurs q) : Stop occurs past p := by
  refine stop_iff_unskipped.mpr ⟨hp, fun q hq hstop => ?_⟩
  by_cases hbefore : q < cursor
  · exact Nat.le_trans (h q hbefore hstop) hcursor
  · exact absurd hstop.found (hfirst q (Nat.le_of_not_lt hbefore) hq)

/-- The search goes on where a stop ends. -/
theorem Stop.synced (h : Stop occurs past p) (hpast : p ≤ past p) : Synced occurs past (past p) := by
  intro q hq hstop
  rcases Nat.lt_trichotomy q p with hlt | rfl | hgt
  · exact Nat.le_trans (h.apart hstop hlt) hpast
  · exact Nat.le_refl _
  · exact absurd hq (Nat.not_lt_of_le (hstop.apart h hgt))

end Stops

section Marks

variable (occurs : Nat → Prop) (past : Nat → Nat) (mark : Nat → Prop)

/-- The places a search is meant for: they occur, and no one of them skips another. -/
structure Marked : Prop where
  occurs : ∀ m, mark m → occurs m
  apart : ∀ m n, mark m → mark n → m < n → past m ≤ n

/-- A stop that is not meant. -/
def Stray (p : Nat) : Prop := Stop occurs past p ∧ ¬ mark p

/-- A stray stop skips the place. -/
def Covered (p : Nat) : Prop := ∃ q, Stray occurs past mark q ∧ q < p ∧ p < past q

variable {occurs past mark} {m p : Nat}

/-- The search stops at a mark unless a stray stop skips it. -/
theorem Marked.stop_iff (h : Marked occurs past mark) (hm : mark m) :
    Stop occurs past m ↔ ¬ Covered occurs past mark m := by
  constructor
  · rintro hstop ⟨q, hstray, hlt, hover⟩
    exact absurd (hstop.apart hstray.1 hlt) (Nat.not_le_of_lt hover)
  · intro hfree
    refine stop_iff_unskipped.mpr ⟨h.occurs m hm, fun q hq hstop => ?_⟩
    by_contra hover
    by_cases hmark : mark q
    · exact hover (h.apart q m hmark hm hq)
    · exact hfree ⟨q, ⟨hstop, hmark⟩, hq, Nat.lt_of_not_le hover⟩

/-- Among the stops are the marks that are not covered, and the stray ones. -/
theorem Marked.exists_stop_iff (h : Marked occurs past mark) (P : Nat → Prop) :
    (∃ p, Stop occurs past p ∧ P p) ↔
      (∃ m, mark m ∧ ¬ Covered occurs past mark m ∧ P m) ∨ ∃ p, Stray occurs past mark p ∧ P p := by
  constructor
  · rintro ⟨p, hstop, hp⟩
    by_cases hmark : mark p
    · exact .inl ⟨p, hmark, (h.stop_iff hmark).mp hstop, hp⟩
    · exact .inr ⟨p, ⟨hstop, hmark⟩, hp⟩
  · rintro (⟨m, hmark, hfree, hm⟩ | ⟨p, hstray, hp⟩)
    · exact ⟨m, (h.stop_iff hmark).mpr hfree, hm⟩
    · exact ⟨p, hstray.1, hp⟩

/-- Where nothing occurs outside the stretches of the marks, the search stops at the marks. -/
theorem Marked.stop_iff_mark (h : Marked occurs past mark)
    (hinside : ∀ p, occurs p → ∃ m, mark m ∧ m ≤ p ∧ p < past m) : Stop occurs past p ↔ mark p := by
  induction p using Nat.strong_induction_on with
  | _ p ih =>
    constructor
    · intro hstop
      obtain ⟨m, hmark, hle, hlt⟩ := hinside p hstop.found
      rcases Nat.eq_or_lt_of_le hle with rfl | hbefore
      · exact hmark
      · exact absurd (hstop.apart ((ih m hbefore).mpr hmark) hbefore) (Nat.not_le_of_lt hlt)
    · intro hmark
      refine stop_iff_unskipped.mpr ⟨h.occurs p hmark, fun q hq hstop => ?_⟩
      exact h.apart q p ((ih q hq).mp hstop) hmark hq

theorem Marked.not_stray (h : Marked occurs past mark)
    (hinside : ∀ p, occurs p → ∃ m, mark m ∧ m ≤ p ∧ p < past m) : ¬ Stray occurs past mark p :=
  fun hstray => hstray.2 ((h.stop_iff_mark hinside).mp hstray.1)

end Marks

section Chunks

variable {α β : Type} (f : β → List α) (start : Nat) (chunks : List β)

/-- The chunk `e` begins at `p`, where the chunks are laid out from `start` on. -/
def ChunkAt (p : Nat) (e : β) : Prop :=
  ∃ i, chunks[i]? = some e ∧ p = start + ((chunks.take i).flatMap f).length

variable {f start chunks} {p q : Nat} {e e' : β} {front back : List α}

theorem ChunkAt.mem (h : ChunkAt f start chunks p e) : e ∈ chunks := by
  obtain ⟨i, hi, -⟩ := h
  exact List.mem_of_getElem? hi

theorem ChunkAt.of_mem (h : e ∈ chunks) : ∃ p, ChunkAt f start chunks p e := by
  obtain ⟨i, hi⟩ := List.getElem?_of_mem h
  exact ⟨_, i, hi, rfl⟩

/-- The chunk is read at its beginning. -/
theorem ChunkAt.drop (h : ChunkAt f front.length chunks p e) :
    ∃ rest, (front ++ chunks.flatMap f ++ back).drop p = f e ++ rest := by
  obtain ⟨i, hi, rfl⟩ := h
  obtain ⟨hlt, rfl⟩ := List.getElem?_eq_some_iff.mp hi
  refine ⟨(chunks.drop (i + 1)).flatMap f ++ back, ?_⟩
  have hsplit : chunks.flatMap f =
      (chunks.take i).flatMap f ++ (f chunks[i] ++ (chunks.drop (i + 1)).flatMap f) := by
    rw [← List.flatMap_cons, List.getElem_cons_drop, ← List.flatMap_append, List.take_append_drop]
  rw [hsplit, List.append_assoc, List.drop_length_add_append, List.append_assoc, List.drop_left,
    List.append_assoc]

theorem flatMap_take_le {i j : Nat} (h : i ≤ j) :
    ((chunks.take i).flatMap f).length ≤ ((chunks.take j).flatMap f).length := by
  obtain ⟨rest, hrest⟩ := List.take_prefix_take_left h
  rw [← hrest, List.flatMap_append, List.length_append]
  exact Nat.le_add_right _ _

/-- A chunk ends before the next one begins. -/
theorem ChunkAt.apart (h : ChunkAt f start chunks p e) (h' : ChunkAt f start chunks q e') (hlt : p < q) :
    p + (f e).length ≤ q := by
  obtain ⟨i, hi, rfl⟩ := h
  obtain ⟨j, -, rfl⟩ := h'
  have hij : i < j := by
    by_contra hle
    exact Nat.not_lt_of_le (Nat.add_le_add_left (flatMap_take_le (Nat.le_of_not_lt hle)) start) hlt
  obtain ⟨hlen, rfl⟩ := List.getElem?_eq_some_iff.mp hi
  have hle := @flatMap_take_le _ _ f chunks _ _ hij
  rw [List.take_succ_eq_append_getElem hlen, List.flatMap_append, List.length_append,
    List.flatMap_singleton] at hle
  omega

/-- Chunks that begin with an occurrence, and that what is skipped there does not go beyond, are
marks. -/
theorem Marked.of_chunks {occurs : Nat → Prop} {past : Nat → Nat}
    (h : ∀ p e, ChunkAt f start chunks p e → occurs p ∧ past p ≤ p + (f e).length) :
    Marked occurs past fun p => ∃ e, ChunkAt f start chunks p e where
  occurs := by
    rintro p ⟨e, he⟩
    exact (h p e he).1
  apart := by
    rintro p q ⟨e, he⟩ ⟨e', he'⟩ hlt
    exact Nat.le_trans (h p e he).2 (he.apart he' hlt)

end Chunks

end SkipSearch

end CfdiVault
