import Mathlib.Logic.Function.Basic

/-!
# Rows under two indexes

A store that finds a row by its key and by its id, each index holding the last row stored
under it.  Rows of different keys may carry one id, so the two indexes need not agree.

`Sound` is what every store keeps that either stores a row under a new key or replaces the
row found by id.  On sound indexes `Agree` survives a replacement and, under a new key,
survives exactly if the id is new (`agree_insert_iff`); disagreement is never repaired.
-/

namespace CfdiVault

/-- The last row stored under each key and under each id. -/
structure TwoIndexes (κ ι ρ : Type) where
  byKey : κ → Option ρ
  byId : ι → Option ρ

namespace TwoIndexes

variable {κ ι ρ : Type} (key : ρ → κ) (id : ρ → ι)

def empty : TwoIndexes κ ι ρ := ⟨fun _ => none, fun _ => none⟩

/-- Rows lie under their own keys and ids, and a row found by id is the one found by key. -/
structure Sound (s : TwoIndexes κ ι ρ) : Prop where
  keyed : ∀ k r, s.byKey k = some r → key r = k
  named : ∀ i r, s.byId i = some r → id r = i
  rooted : ∀ i r, s.byId i = some r → s.byKey (key r) = some r

/-- A row found by key is the one found by its id. -/
def Agree (s : TwoIndexes κ ι ρ) : Prop := ∀ k r, s.byKey k = some r → s.byId (id r) = some r

variable {key id} {s : TwoIndexes κ ι ρ} {row old : ρ}

theorem sound_empty : Sound key id (empty : TwoIndexes κ ι ρ) :=
  ⟨fun _ _ h => (nomatch h), fun _ _ h => (nomatch h), fun _ _ h => (nomatch h)⟩

theorem agree_empty : Agree id (empty : TwoIndexes κ ι ρ) := fun _ _ h => (nomatch h)

section Store

variable [DecidableEq κ] [DecidableEq ι]

variable (key id) in
/-- Store a row under its key and under its id. -/
def store (row : ρ) (s : TwoIndexes κ ι ρ) : TwoIndexes κ ι ρ where
  byKey := Function.update s.byKey (key row) (some row)
  byId := Function.update s.byId (id row) (some row)

theorem byKey_store_self : (store key id row s).byKey (key row) = some row :=
  Function.update_self ..

theorem byId_store_self : (store key id row s).byId (id row) = some row :=
  Function.update_self ..

theorem byKey_store_of_ne {k : κ} (h : k ≠ key row) : (store key id row s).byKey k = s.byKey k :=
  Function.update_of_ne h ..

theorem byId_store_of_ne {i : ι} (h : i ≠ id row) : (store key id row s).byId i = s.byId i :=
  Function.update_of_ne h ..

theorem keyed_store (h : Sound key id s) {k : κ} {r : ρ} (hr : (store key id row s).byKey k = some r) :
    key r = k := by
  by_cases hk : k = key row
  · subst hk
    rw [byKey_store_self] at hr
    rw [Option.some.inj hr]
  · rw [byKey_store_of_ne hk] at hr
    exact h.keyed k r hr

theorem named_store (h : Sound key id s) {i : ι} {r : ρ} (hr : (store key id row s).byId i = some r) :
    id r = i := by
  by_cases hi : i = id row
  · subst hi
    rw [byId_store_self] at hr
    rw [Option.some.inj hr]
  · rw [byId_store_of_ne hi] at hr
    exact h.named i r hr

/-- A row under a new key keeps the indexes sound. -/
theorem Sound.insert (h : Sound key id s) (hnew : s.byKey (key row) = none) :
    Sound key id (store key id row s) where
  keyed := fun _ _ => keyed_store h
  named := fun _ _ => named_store h
  rooted := by
    intro i r hr
    by_cases hi : i = id row
    · subst hi
      rw [byId_store_self] at hr
      cases hr
      exact byKey_store_self
    · rw [byId_store_of_ne hi] at hr
      have hfound := h.rooted i r hr
      refine (byKey_store_of_ne fun hk => ?_).trans hfound
      rw [hk, hnew] at hfound
      cases hfound

/-- A row in place of the one found by its id keeps the indexes sound. -/
theorem Sound.replace (h : Sound key id s) (hold : s.byId (id row) = some old)
    (hkey : key old = key row) : Sound key id (store key id row s) where
  keyed := fun _ _ => keyed_store h
  named := fun _ _ => named_store h
  rooted := by
    intro i r hr
    by_cases hi : i = id row
    · subst hi
      rw [byId_store_self] at hr
      cases hr
      exact byKey_store_self
    · rw [byId_store_of_ne hi] at hr
      have hfound := h.rooted i r hr
      refine (byKey_store_of_ne fun hk => hi ?_).trans hfound
      rw [hk, ← hkey, h.rooted _ _ hold] at hfound
      cases hfound
      rw [← h.named i _ hr, h.named _ _ hold]

/-- Under a new key, the indexes agree afterwards exactly if they did and the id is new. -/
theorem agree_insert_iff (h : Sound key id s) (hnew : s.byKey (key row) = none) :
    Agree id (store key id row s) ↔ Agree id s ∧ s.byId (id row) = none := by
  have hapart : ∀ k r, s.byKey k = some r → k ≠ key row := by
    rintro k r hr rfl
    rw [hnew] at hr
    cases hr
  constructor
  · intro hagree
    have hid : ∀ k r, s.byKey k = some r → id r ≠ id row := by
      intro k r hr hsame
      have hafter := hagree k r ((byKey_store_of_ne (hapart k r hr)).trans hr)
      rw [hsame, byId_store_self] at hafter
      cases hafter
      exact hapart k row hr (h.keyed k row hr).symm
    refine ⟨fun k r hr => ?_, Option.eq_none_iff_forall_ne_some.mpr fun old hold => ?_⟩
    · have hkept : (store key id row s).byId (id r) = s.byId (id r) := byId_store_of_ne (hid k r hr)
      rw [← hkept]
      exact hagree k r ((byKey_store_of_ne (hapart k r hr)).trans hr)
    · exact hid _ old (h.rooted _ old hold) (h.named _ old hold)
  · rintro ⟨hagree, hfresh⟩ k r hr
    by_cases hk : k = key row
    · subst hk
      rw [byKey_store_self] at hr
      cases hr
      exact byId_store_self
    · rw [byKey_store_of_ne hk] at hr
      have hfound := hagree k r hr
      refine (byId_store_of_ne fun hi => ?_).trans hfound
      rw [hi, hfresh] at hfound
      cases hfound

/-- A replacement neither brings the indexes apart nor together. -/
theorem agree_replace_iff (h : Sound key id s) (hold : s.byId (id row) = some old)
    (hkey : key old = key row) : Agree id (store key id row s) ↔ Agree id s := by
  constructor
  · intro hagree k r hr
    by_cases hk : k = key row
    · have hroot := h.rooted _ _ hold
      rw [hkey, ← hk, hr] at hroot
      cases hroot
      rw [h.named _ _ hold]
      exact hold
    · have hafter := hagree k r ((byKey_store_of_ne hk).trans hr)
      by_cases hi : id r = id row
      · rw [hi, byId_store_self] at hafter
        cases hafter
        exact absurd (h.keyed k row hr).symm hk
      · rwa [byId_store_of_ne hi] at hafter
  · intro hagree k r hr
    by_cases hk : k = key row
    · subst hk
      rw [byKey_store_self] at hr
      cases hr
      exact byId_store_self
    · rw [byKey_store_of_ne hk] at hr
      have hfound := hagree k r hr
      refine (byId_store_of_ne fun hi => ?_).trans hfound
      rw [hi, hold] at hfound
      cases hfound
      exact hk ((h.keyed k _ hr).symm.trans hkey)

end Store

end TwoIndexes

end CfdiVault
