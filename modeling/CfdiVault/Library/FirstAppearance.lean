import Mathlib.Data.List.Induction
import Mathlib.Data.List.Nodup
import Mathlib.Data.List.Perm.Subperm

/-!
# Lists without repeats, in order of first appearance

`appendUnique existing incoming` appends to a list what it does not hold yet, one element
at a time.  Appended to nothing, a list becomes its elements in order of first appearance,
which the core library calls `List.eraseDups`; appended to a list of that kind it continues
it (`appendUnique_eraseDups`), so that batches may arrive one after the other.

`forall_prefix_snoc` is the induction step for what is said of every element and the elements
before it, and `eraseDups_eq_iff` compares two orders of first appearance element by element.
-/

namespace CfdiVault

namespace FirstAppearance

variable {α : Type}

/-- What is said of every element and what stands before it: the last element apart. -/
theorem forall_prefix_snoc {P : List α → α → Prop} {l : List α} {b : α} :
    (∀ front a, front ++ [a] <+: l ++ [b] → P front a) ↔ (∀ front a, front ++ [a] <+: l → P front a) ∧ P l b := by
  constructor
  · intro h
    exact ⟨fun front a hpre => h front a (hpre.trans (List.prefix_append _ _)), h l b List.prefix_rfl⟩
  · rintro ⟨hl, hb⟩ front a hpre
    rcases List.prefix_concat_iff.mp hpre with hsame | hpre
    · obtain ⟨rfl, hab⟩ := List.append_inj' hsame rfl
      cases hab
      exact hb
    · exact hl front a hpre

theorem forall_prefix_nil {P : List α → α → Prop} : ∀ front a, front ++ [a] <+: [] → P front a :=
  fun front a hpre => by simpa using hpre.length_le

/-- A list has no repeats exactly if none of its elements stands before itself. -/
theorem nodup_iff_front {l : List α} : l.Nodup ↔ ∀ front a, front ++ [a] <+: l → a ∉ front := by
  induction l using List.reverseRecOn with
  | nil => exact iff_of_true List.nodup_nil forall_prefix_nil
  | append_singleton l b ih =>
      rw [forall_prefix_snoc, ← ih, List.nodup_append]
      constructor
      · exact fun ⟨hl, _, hapart⟩ => ⟨hl, fun hb => hapart b hb b (List.mem_singleton_self b) rfl⟩
      · refine fun ⟨hl, hb⟩ => ⟨hl, List.nodup_singleton b, fun a ha c hc hac => hb ?_⟩
        rw [← List.mem_singleton.mp hc, ← hac]
        exact ha

theorem first_occurrence {l : List α} {a : α} (h : a ∈ l) : ∃ front, front ++ [a] <+: l ∧ a ∉ front := by
  obtain ⟨front, back, rfl, hfront⟩ := List.eq_append_cons_of_mem h
  exact ⟨front, ⟨back, by rw [List.append_assoc]; rfl⟩, hfront⟩

theorem prefix_of_snoc {d x y : List α} {a : α} (hd : d.Nodup) (hy : y ++ [a] <+: d) (h : x ++ [a] <+: y ++ [a]) :
    x = y := by
  rcases List.prefix_concat_iff.mp h with hsame | hpre
  · exact List.append_cancel_right hsame
  · exact absurd (hpre.subset (List.mem_append_right _ (List.mem_singleton_self a)))
      (nodup_iff_front.mp hd y a hy)

/-- In a list without repeats an element has one place. -/
theorem prefix_unique {d x y : List α} {a : α} (hd : d.Nodup) (hx : x ++ [a] <+: d) (hy : y ++ [a] <+: d) : x = y := by
  rcases List.prefix_or_prefix_of_prefix hx hy with h | h
  · exact prefix_of_snoc hd hy h
  · exact (prefix_of_snoc hd hx h).symm

/-- An element and what stands before it in a mapped list. -/
theorem snoc_prefix_map_iff {β : Type} {f : α → β} {l : List α} {front : List β} {b : β} :
    front ++ [b] <+: l.map f ↔ ∃ whole a, whole ++ [a] <+: l ∧ whole.map f = front ∧ f a = b := by
  rw [List.prefix_map_iff]
  constructor
  · rintro ⟨whole, hpre, hmap⟩
    obtain ⟨whole, last, rfl, hwhole, hlast⟩ := List.map_eq_append_iff.mp hmap.symm
    obtain ⟨a, rfl, ha⟩ := List.map_eq_singleton_iff.mp hlast
    exact ⟨whole, a, hpre, hwhole, ha⟩
  · rintro ⟨whole, a, hpre, rfl, rfl⟩
    exact ⟨whole ++ [a], hpre, by rw [List.map_append]; rfl⟩

/-- An element and what stands before it in a filtered list. -/
theorem snoc_prefix_filter_iff {p : α → Bool} {l front : List α} {a : α} :
    front ++ [a] <+: l.filter p ↔ ∃ whole, whole ++ [a] <+: l ∧ p a = true ∧ whole.filter p = front := by
  rw [List.prefix_filter_iff]
  constructor
  · rintro ⟨whole, hpre, hfilter⟩
    obtain ⟨whole, last, rfl, hwhole, hlast⟩ := List.filter_eq_append_iff.mp hfilter.symm
    obtain ⟨skipped, rest, rfl, hskipped, ha, -⟩ := List.filter_eq_cons_iff.mp hlast
    refine ⟨whole ++ skipped, ?_, ha, ?_⟩
    · refine List.IsPrefix.trans ⟨rest, ?_⟩ hpre
      simp
    · rw [List.filter_append, hwhole, List.filter_eq_nil_iff.mpr hskipped, List.append_nil]
  · rintro ⟨whole, hpre, ha, rfl⟩
    exact ⟨whole ++ [a], hpre, by rw [List.filter_append, List.filter_cons_of_pos ha]; rfl⟩

section Append

variable [DecidableEq α]

/-- Append one element unless the list holds it. -/
def appendNew (held : List α) (a : α) : List α := if a ∈ held then held else held ++ [a]

/-- Append the elements of a list that are not held yet, in order. -/
def appendUnique (existing incoming : List α) : List α := incoming.foldl appendNew existing

variable {held existing incoming more : List α} {a : α}

theorem appendNew_of_mem (h : a ∈ held) : appendNew held a = held := if_pos h

theorem appendNew_of_notMem (h : a ∉ held) : appendNew held a = held ++ [a] := if_neg h

theorem appendUnique_append :
    appendUnique existing (incoming ++ more) = appendUnique (appendUnique existing incoming) more :=
  List.foldl_append

/-- What is held already stays in front. -/
theorem prefix_appendUnique : existing <+: appendUnique existing incoming := by
  induction incoming generalizing existing with
  | nil => exact List.prefix_rfl
  | cons a rest ih =>
      refine List.IsPrefix.trans ?_ ih
      by_cases h : a ∈ existing
      · exact (appendNew_of_mem h).symm ▸ List.prefix_rfl
      · rw [appendNew_of_notMem h]
        exact List.prefix_append _ _

theorem eraseDups_snoc (l : List α) : (l ++ [a]).eraseDups = appendNew l.eraseDups a := by
  rw [List.eraseDups_append]
  by_cases h : a ∈ l
  · have hnone : [a].removeAll l = [] := by simp [List.removeAll, h]
    rw [hnone, List.eraseDups_nil, List.append_nil, appendNew_of_mem (List.mem_eraseDups.mpr h)]
  · have hone : [a].removeAll l = [a] := by simp [List.removeAll, h]
    rw [hone, appendNew_of_notMem fun hmem => h (List.mem_eraseDups.mp hmem), List.eraseDups_cons]
    rfl

/-- A further batch continues the order of first appearance. -/
theorem appendUnique_eraseDups {l : List α} :
    appendUnique l.eraseDups incoming = (l ++ incoming).eraseDups := by
  induction incoming using List.reverseRecOn with
  | nil => rw [List.append_nil]; rfl
  | append_singleton rest a ih =>
      rw [appendUnique_append, ih, ← List.append_assoc, eraseDups_snoc]
      rfl

theorem nodup_eraseDups (l : List α) : l.eraseDups.Nodup := by
  induction l using List.reverseRecOn with
  | nil => exact List.nodup_nil
  | append_singleton rest a ih =>
      rw [eraseDups_snoc]
      by_cases h : a ∈ rest.eraseDups
      · rwa [appendNew_of_mem h]
      · rw [appendNew_of_notMem h]
        exact List.nodup_append.mpr ⟨ih, List.nodup_singleton a, fun b hb c hc hbc =>
          h (List.mem_singleton.mp hc ▸ hbc ▸ hb)⟩

/-! ## Two lists with the same order of first appearance -/

theorem eraseDups_front {l : List α} {front : List α} (h : front <+: l) : front.eraseDups <+: l.eraseDups := by
  obtain ⟨rest, rfl⟩ := h
  rw [← appendUnique_eraseDups]
  exact prefix_appendUnique

/-- Behind the distinct elements before its first occurrence an element appears. -/
theorem eraseDups_first {l front : List α} (hpre : front ++ [a] <+: l) (h : a ∉ front) :
    front.eraseDups ++ [a] <+: l.eraseDups := by
  have hfirst := eraseDups_front hpre
  rwa [eraseDups_snoc, appendNew_of_notMem fun hmem => h (List.mem_eraseDups.mp hmem)] at hfirst

/-- Two lists have the same elements in the same order of first appearance exactly if the
second holds no others and each first occurrence in the first has an occurrence in the second
that nothing new precedes. -/
theorem eraseDups_eq_iff {l m : List α} : l.eraseDups = m.eraseDups ↔ m ⊆ l ∧
    ∀ front a, front ++ [a] <+: l → a ∉ front → ∃ front', front' ++ [a] <+: m ∧ front' ⊆ a :: front := by
  constructor
  · intro h
    have hmem : ∀ b, b ∈ l ↔ b ∈ m := fun b => by
      rw [← List.mem_eraseDups, h, List.mem_eraseDups]
    refine ⟨fun b hb => (hmem b).mpr hb, fun front a hpre hfront => ?_⟩
    obtain ⟨front', hpre', hfront'⟩ :=
      first_occurrence ((hmem a).mp (hpre.subset (List.mem_append_right _ (List.mem_singleton_self a))))
    refine ⟨front', hpre', fun b hb => List.mem_cons_of_mem a ?_⟩
    have hsame := prefix_unique (nodup_eraseDups m) (eraseDups_first hpre' hfront')
      (h ▸ eraseDups_first hpre hfront)
    exact List.mem_eraseDups.mp (hsame ▸ List.mem_eraseDups.mpr hb)
  · rintro ⟨hsub, hfirst⟩
    -- what stands before an element in the first order contains what stands before it in the second
    have hplace : ∀ x a, x ++ [a] <+: l.eraseDups → ∃ y : List α, y ++ [a] <+: m.eraseDups ∧ y ⊆ x := by
      intro x a hx
      have ha : a ∈ l := List.mem_eraseDups.mp (hx.subset (List.mem_append_right _ (List.mem_singleton_self a)))
      obtain ⟨front, hpre, hfront⟩ := first_occurrence ha
      obtain ⟨front', hpre', hsubset⟩ := hfirst front a hpre hfront
      have hlast : a ∈ front' ++ [a] := List.mem_append_right _ (List.mem_singleton_self a)
      obtain ⟨first, hfirst', hnot⟩ := first_occurrence hlast
      have hinside : first ⊆ front' := by
        rcases List.prefix_concat_iff.mp hfirst' with hsame | hinside
        · exact List.append_cancel_right hsame ▸ List.Subset.refl _
        · exact fun b hb => hinside.subset (List.mem_append_left _ hb)
      refine ⟨first.eraseDups, eraseDups_first (hfirst'.trans hpre') hnot, fun b hb => ?_⟩
      rw [← prefix_unique (nodup_eraseDups l) (eraseDups_first hpre hfront) hx, List.mem_eraseDups]
      have hbfirst : b ∈ first := List.mem_eraseDups.mp hb
      rcases List.mem_cons.mp (hsubset (hinside hbfirst)) with rfl | hbfront
      · exact absurd hbfirst hnot
      · exact hbfront
    -- so the first order is built up element by element inside the second
    have hgrow : ∀ x, x <+: l.eraseDups → x <+: m.eraseDups := by
      intro x
      induction x using List.reverseRecOn with
      | nil => exact fun _ => List.nil_prefix
      | append_singleton x a ih =>
          intro hx
          have hxl : x <+: l.eraseDups := (List.prefix_append _ _).trans hx
          obtain ⟨y, hy, hsub'⟩ := hplace x a hx
          have hfresh : a ∉ x := nodup_iff_front.mp (nodup_eraseDups l) x a hx
          have hynodup : y.Nodup := (nodup_eraseDups m).sublist ((List.prefix_append _ _).trans hy).sublist
          rcases List.prefix_or_prefix_of_prefix (ih hxl) hy with hle | hle
          · rcases List.prefix_concat_iff.mp hle with hsame | hle
            · exact absurd (hsame ▸ List.mem_append_right _ (List.mem_singleton_self a)) hfresh
            · have hlength := (hynodup.subperm hsub').length_le
              rwa [hle.eq_of_length_le hlength]
          · exact absurd (hle.subset (List.mem_append_right _ (List.mem_singleton_self a))) hfresh
    have hle := hgrow _ List.prefix_rfl
    have hsubset : m.eraseDups ⊆ l.eraseDups := fun b hb =>
      List.mem_eraseDups.mpr (hsub (List.mem_eraseDups.mp hb))
    exact hle.eq_of_length_le ((nodup_eraseDups m).subperm hsubset).length_le

/-- Leaving elements out of a list keeps its names in order of first appearance exactly if each
left out element that bears a new name is followed by a kept one of its name, which no other new
name precedes among the kept ones. -/
theorem eraseDups_filter_iff {β : Type} {f : β → α} {p : β → Bool} {l : List β} :
    (l.map f).eraseDups = ((l.filter p).map f).eraseDups ↔
      ∀ front x, front ++ [x] <+: l → p x = false → f x ∉ front.map f →
        ∃ front' y, front' ++ [y] <+: l ∧ p y = true ∧ f y = f x ∧
          ∀ z ∈ front', p z = true → f z ∈ f x :: front.map f := by
  have hsub : (l.filter p).map f ⊆ l.map f := List.map_subset f (List.filter_subset_self _)
  rw [eraseDups_eq_iff, and_iff_right hsub]
  constructor
  · intro h front x hpre _ hfresh
    obtain ⟨front', hpre', hsubset⟩ := h (front.map f) (f x) (snoc_prefix_map_iff.mpr ⟨front, x, hpre, rfl, rfl⟩)
      hfresh
    obtain ⟨kept, y, hkept, rfl, hy⟩ := snoc_prefix_map_iff.mp hpre'
    obtain ⟨whole, hwhole, hpy, rfl⟩ := snoc_prefix_filter_iff.mp hkept
    refine ⟨whole, y, hwhole, hpy, hy, fun z hz hpz => hsubset (List.mem_map_of_mem ?_)⟩
    exact List.mem_filter.mpr ⟨hz, hpz⟩
  · intro h front a hpre hfresh
    obtain ⟨whole, x, hwhole, rfl, rfl⟩ := snoc_prefix_map_iff.mp hpre
    by_cases hx : p x = true
    · refine ⟨(whole.filter p).map f, ?_, fun b hb => List.mem_cons_of_mem _ ?_⟩
      · exact snoc_prefix_map_iff.mpr ⟨_, x, snoc_prefix_filter_iff.mpr ⟨whole, hwhole, hx, rfl⟩, rfl, rfl⟩
      · exact List.map_subset f (List.filter_subset_self _) hb
    · obtain ⟨front', y, hpre', hpy, hy, hnew⟩ := h whole x hwhole (by simpa using hx) hfresh
      refine ⟨(front'.filter p).map f, ?_, fun b hb => ?_⟩
      · exact snoc_prefix_map_iff.mpr ⟨_, y, snoc_prefix_filter_iff.mpr ⟨front', hpre', hpy, rfl⟩, rfl, hy⟩
      · obtain ⟨z, hz, rfl⟩ := List.mem_map.mp hb
        exact hnew z (List.mem_filter.mp hz).1 (List.mem_filter.mp hz).2

end Append

end FirstAppearance

end CfdiVault
