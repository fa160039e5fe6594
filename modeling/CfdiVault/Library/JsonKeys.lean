import CfdiVault.Library.Json
import Mathlib.Data.List.Nodup
import Mathlib.Tactic.Common

/-!
# Keys of JSON objects

A document that is written with `sort_keys=True` and read again is the document with the
members of every object in key order.  Where the keys of an object are different, this
changes no lookup.

The canonical text of an object determines the values under its keys, as far as the
texts of two different values cannot be continued to the same text.
-/

namespace CfdiVault

namespace Json

/-! ## Documents in key order -/

mutual

/-- `json.loads(json.dumps(value, sort_keys=True))`. -/
def sortKeys : Json → Json
  | .arr items => .arr (sortItems items)
  | .obj members => .obj ((sortValues members).insertionSort fun a b => a.1 ≤ b.1)
  | .null => .null
  | .bool b => .bool b
  | .int n => .int n
  | .float value => .float value
  | .str s => .str s

def sortItems : List Json → List Json
  | [] => []
  | value :: rest => sortKeys value :: sortItems rest

def sortValues : List (String × Json) → List (String × Json)
  | [] => []
  | member :: rest => sortValue member :: sortValues rest

def sortValue : String × Json → String × Json
  | (key, value) => (key, sortKeys value)

end

/-- The members of an object that was written and read. -/
def sortMembers (members : List (String × Json)) : List (String × Json) :=
  (sortValues members).insertionSort fun a b => a.1 ≤ b.1

theorem sortValues_eq_map (members : List (String × Json)) :
    sortValues members = members.map sortValue := by
  induction members with
  | nil => rfl
  | cons member rest ih => rw [sortValues, ih, List.map_cons]

theorem sortItems_map_str (texts : List String) :
    sortItems (texts.map .str) = texts.map .str := by
  induction texts with
  | nil => rfl
  | cons text rest ih => rw [List.map_cons, sortItems, ih, sortKeys]

theorem lookup_eq_some_iff {β : Type} {members : List (String × β)} {key : String} {value : β}
    (h : (members.map Prod.fst).Nodup) : members.lookup key = some value ↔ (key, value) ∈ members := by
  induction members with
  | nil => simp
  | cons member rest ih =>
      rw [List.map_cons, List.nodup_cons] at h
      obtain ⟨k, v⟩ := member
      by_cases hk : key = k
      · subst hk
        rw [List.lookup_cons_self, List.mem_cons, Option.some.injEq]
        constructor
        · rintro rfl
          exact .inl rfl
        · rintro (hsame | hrest)
          · exact (Prod.mk.inj hsame).2.symm
          · exact absurd (List.mem_map_of_mem hrest) h.1
      · rw [List.lookup_cons, beq_eq_false_iff_ne.mpr hk, ih h.2, List.mem_cons]
        simp [hk]

theorem lookup_perm {β : Type} {members sorted : List (String × β)}
    (h : (members.map Prod.fst).Nodup) (hperm : sorted.Perm members) (key : String) :
    sorted.lookup key = members.lookup key := by
  have hsorted : (sorted.map Prod.fst).Nodup := (hperm.map Prod.fst).nodup_iff.mpr h
  refine Option.ext fun value => ?_
  rw [lookup_eq_some_iff hsorted, lookup_eq_some_iff h]
  exact hperm.mem_iff

theorem lookup_map_sortValue (members : List (String × Json)) (key : String) :
    (members.map sortValue).lookup key = (members.lookup key).map sortKeys := by
  induction members with
  | nil => rfl
  | cons member rest ih =>
      obtain ⟨k, v⟩ := member
      rw [List.map_cons, sortValue, List.lookup_cons, List.lookup_cons, ih]
      cases key == k <;> rfl

/-- Key order changes no lookup in an object with different keys. -/
theorem lookup_sortMembers {members : List (String × Json)} (h : (members.map Prod.fst).Nodup)
    (key : String) : (sortMembers members).lookup key = (members.lookup key).map sortKeys := by
  have hkeys : ((members.map sortValue).map Prod.fst).Nodup := by
    have hfst : (members.map sortValue).map Prod.fst = members.map Prod.fst := by
      rw [List.map_map]
      refine List.map_congr_left fun member _ => ?_
      obtain ⟨k, v⟩ := member
      rfl
    rw [hfst]
    exact h
  rw [sortMembers, sortValues_eq_map, lookup_perm hkeys (List.perm_insertionSort _ _),
    lookup_map_sortValue]

/-! ## Texts that determine their values -/

/-- Two texts that are equal, or differ within both of them. -/
def Separated (a b : String) : Prop := a = b ∨ ∀ x y, a ++ x ≠ b ++ y

theorem separated_refl (a : String) : Separated a a := .inl rfl

theorem null_writeStr_apart (s x y : String) : "null" ++ x ≠ writeStr s ++ y := by
  intro h
  have hlist := congrArg String.toList h
  rw [writeStr, String.toList_append, String.toList_append, String.toList_append,
    String.toList_append] at hlist
  exact absurd (List.cons.inj hlist).1 (by decide)

theorem separated_null_writeStr (s : String) : Separated "null" (writeStr s) :=
  .inr (null_writeStr_apart s)

/-- A separated value is determined by a text that it starts, and so is the rest. -/
theorem Separated.cancel {a b x y : String} (hsep : Separated a b) (h : a ++ x = b ++ y) :
    a = b ∧ x = y := by
  rcases hsep with rfl | hapart
  · exact ⟨rfl, (String.append_right_inj a).mp h⟩
  · exact absurd h (hapart x y)

/-- The members of a comma-separated text are determined by it, where the values are
separated. -/
theorem intercalate_injective {triples : List (String × String × String)}
    (hsep : ∀ t ∈ triples, Separated t.2.1 t.2.2) {x y : String}
    (h : String.intercalate "," (triples.map fun t => writeStr t.1 ++ (":" ++ t.2.1)) ++ x =
      String.intercalate "," (triples.map fun t => writeStr t.1 ++ (":" ++ t.2.2)) ++ y) :
    ∀ t ∈ triples, t.2.1 = t.2.2 := by
  induction triples with
  | nil => exact fun t ht => by cases ht
  | cons first rest ih =>
      have hfirst := hsep first List.mem_cons_self
      cases rest with
      | nil =>
          simp only [List.map_cons, List.map_nil, String.intercalate_singleton,
            String.append_assoc, String.append_right_inj] at h
          exact List.forall_mem_singleton.mpr (hfirst.cancel h).1
      | cons second rest =>
          simp only [List.map_cons, String.intercalate_cons_cons, String.append_assoc,
            String.append_right_inj] at h
          obtain ⟨hsame, htail⟩ := hfirst.cancel h
          have hrest := ih (fun t ht => hsep t (List.mem_cons_of_mem first ht)) (by
            simpa only [List.map_cons] using (String.append_right_inj ",").mp htail)
          exact List.forall_mem_cons.mpr ⟨hsame, hrest⟩

/-- The values of a canonical object that starts a text are determined by the text, where
the keys are the same and the values are separated. -/
theorem writeObj_cancel {triples : List (String × String × String)}
    (hsep : ∀ t ∈ triples, Separated t.2.1 t.2.2) {x y : String}
    (h : writeObj (triples.map fun t => (t.1, t.2.1)) ++ x =
      writeObj (triples.map fun t => (t.1, t.2.2)) ++ y) :
    ∀ t ∈ triples, t.2.1 = t.2.2 := by
  let sorted := triples.insertionSort fun a b => a.1 ≤ b.1
  have hmap : ∀ f : String × String × String → String × String, (∀ t, (f t).1 = t.1) →
      (triples.map f).insertionSort (fun a b => a.1 ≤ b.1) = sorted.map f := by
    intro f hf
    refine (List.map_insertionSort _ _ f triples fun a _ b _ => ?_).symm
    rw [hf, hf]
  unfold writeObj at h
  rw [hmap _ fun _ => rfl, hmap _ fun _ => rfl] at h
  simp only [List.map_map, String.append_assoc, String.append_right_inj] at h
  have hmem : ∀ t, t ∈ sorted ↔ t ∈ triples := fun t => List.mem_insertionSort _
  have hsorted := @intercalate_injective sorted (fun t ht => hsep t ((hmem t).mp ht)) _ _
      (by simpa only [Function.comp_def] using h)
  exact fun t ht => hsorted t ((hmem t).mpr ht)

/-- Two canonical objects with the same keys and separated values are equal only if all
their values are. -/
theorem writeObj_injective {triples : List (String × String × String)}
    (hsep : ∀ t ∈ triples, Separated t.2.1 t.2.2)
    (h : writeObj (triples.map fun t => (t.1, t.2.1)) = writeObj (triples.map fun t => (t.1, t.2.2))) :
    ∀ t ∈ triples, t.2.1 = t.2.2 :=
  writeObj_cancel hsep (congrArg (· ++ "") h)

theorem separated_writeObj {triples : List (String × String × String)}
    (hsep : ∀ t ∈ triples, Separated t.2.1 t.2.2) :
    Separated (writeObj (triples.map fun t => (t.1, t.2.1)))
      (writeObj (triples.map fun t => (t.1, t.2.2))) := by
  by_cases hall : ∀ t ∈ triples, t.2.1 = t.2.2
  · refine .inl (congrArg writeObj (List.map_congr_left fun t ht => ?_))
    rw [hall t ht]
  · exact .inr fun x y h => hall (writeObj_cancel hsep h)

end Json

end CfdiVault
