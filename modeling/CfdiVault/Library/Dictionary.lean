import Mathlib.Data.List.Nodup

/-!
# Dictionaries

A dictionary as the list of its items in the order of first assignment.  A later assignment
to a key replaces the value and keeps the place.
-/

namespace CfdiVault

namespace Dictionary

variable {κ β : Type*} [DecidableEq κ]

/-- `d[key] = value`. -/
def assign (d : List (κ × β)) (key : κ) (value : β) : List (κ × β) :=
  if key ∈ d.map Prod.fst then d.map fun item => if item.1 = key then (key, value) else item
  else d ++ [(key, value)]

/-- The assignments of a list of items, one after the other. -/
def assignAll (d items : List (κ × β)) : List (κ × β) :=
  items.foldl (fun d item => assign d item.1 item.2) d

/-- An assignment adds no key but its own, and no key twice. -/
theorem nodup_assign {d : List (κ × β)} {key : κ} {value : β} (h : (d.map Prod.fst).Nodup) :
    ((assign d key value).map Prod.fst).Nodup := by
  unfold assign
  split
  · have hkeys : (d.map fun item => if item.1 = key then (key, value) else item).map Prod.fst = d.map Prod.fst := by
      rw [List.map_map]
      refine List.map_congr_left fun item _ => ?_
      by_cases hkey : item.1 = key
      · simp [hkey]
      · simp [hkey]
    rwa [hkeys]
  · rename_i hnew
    rw [List.map_append, List.nodup_append']
    refine ⟨h, List.nodup_singleton _, fun k hk hmem => ?_⟩
    obtain rfl : k = key := List.mem_singleton.mp hmem
    exact hnew hk

/-- An item of an assignment is the new one or was there. -/
theorem mem_assign {d : List (κ × β)} {key : κ} {value : β} {item : κ × β} (h : item ∈ assign d key value) :
    item = (key, value) ∨ item ∈ d := by
  unfold assign at h
  split at h
  · obtain ⟨old, hold, rfl⟩ := List.mem_map.mp h
    split
    · exact .inl rfl
    · exact .inr hold
  · obtain hold | hnew := List.mem_append.mp h
    · exact .inr hold
    · exact .inl (List.mem_singleton.mp hnew)

section Lookup

variable [BEq κ] [LawfulBEq κ]

omit [DecidableEq κ] in
theorem lookup_append_of_not_mem {d rest : List (κ × β)} {key : κ} (h : key ∉ d.map Prod.fst) :
    (d ++ rest).lookup key = rest.lookup key := by
  induction d with
  | nil => rfl
  | cons item d ih =>
      obtain ⟨k, v⟩ := item
      have hne : key ≠ k := fun hk => h (hk ▸ List.mem_cons_self)
      rw [List.cons_append, List.lookup_cons, beq_eq_false_iff_ne.mpr hne]
      exact ih fun hmem => h (List.mem_cons_of_mem _ hmem)

/-- The value of an assigned key. -/
theorem lookup_assign_self {d : List (κ × β)} {key : κ} {value : β} :
    (assign d key value).lookup key = some value := by
  unfold assign
  split
  · rename_i hmem
    induction d with
    | nil => cases hmem
    | cons item d ih =>
        obtain ⟨k, v⟩ := item
        rw [List.map_cons, List.lookup_cons]
        by_cases hk : k = key
        · rw [if_pos hk, beq_self_eq_true]
        · rw [if_neg hk, beq_eq_false_iff_ne.mpr (Ne.symm hk)]
          exact ih (List.mem_of_ne_of_mem (Ne.symm hk) hmem)
  · rw [lookup_append_of_not_mem ‹_›, List.lookup_cons, beq_self_eq_true]

end Lookup

theorem assignAll_cons {d items : List (κ × β)} {item : κ × β} :
    assignAll d (item :: items) = assignAll (assign d item.1 item.2) items := rfl

/-- Items under new keys are appended. -/
theorem assignAll_of_nodup {d items : List (κ × β)} (h : ((d ++ items).map Prod.fst).Nodup) :
    assignAll d items = d ++ items := by
  induction items generalizing d with
  | nil => rw [List.append_nil]; rfl
  | cons item items ih =>
      have hnew : item.1 ∉ d.map Prod.fst := by
        rw [List.map_append, List.map_cons] at h
        intro hmem
        exact (List.nodup_append'.mp h).2.2 hmem List.mem_cons_self
      rw [assignAll_cons, assign, if_neg hnew, ih (by simpa using h)]
      simp

end Dictionary

end CfdiVault
