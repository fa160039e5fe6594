import CfdiVault.Library.Text

/-!
# Slash-separated paths

Paths as `PurePosixPath` reads them: the components between the slashes, where empty
components and `.` are dropped and `..` is kept.  A path that is made of components
without slashes splits into them again (`splits_joined`).
-/

namespace CfdiVault

namespace PosixPath

/-- The texts between the slashes. -/
def splits (text : String) : List String := (text.toList.splitOn '/').map String.ofList

/-- `PurePosixPath(text).parts` of a relative path. -/
def parts (text : String) : List String := (splits text).filter fun part => part ≠ "" ∧ part ≠ "."

/-- Components, one after the other. -/
def joined (parts : List String) : String := String.intercalate "/" parts

/-- `as_posix()`. -/
def asPosix (parts : List String) : String := if parts = [] then "." else joined parts

/-- `suffix`: the last component from its last dot on, unless this dot is the first or the
last character. -/
def suffix (parts : List String) : String :=
  let name := (parts.getLast?.getD "").toList
  let extension := (name.reverse.takeWhile (· ≠ '.')).reverse
  if extension = [] ∨ name.length ≤ extension.length + 1 then ""
  else String.ofList ('.' :: extension)

example : suffix (parts "./a//METADATA.old.TXT") = ".TXT" := by decide +kernel

theorem joined_toList (parts : List String) :
    (joined parts).toList = ['/'].intercalate (parts.map String.toList) := by
  rw [joined, String.toList_intercalate]
  rfl

/-- Components without slashes are what their path splits into. -/
theorem splits_joined {parts : List String} (hslash : ∀ part ∈ parts, '/' ∉ part.toList)
    (hne : parts ≠ []) : splits (joined parts) = parts := by
  rw [splits, joined_toList, List.splitOn_intercalate '/']
  · rw [List.map_map]
    exact (List.map_congr_left fun part _ => String.ofList_toList).trans (List.map_id parts)
  · intro chars hchars
    obtain ⟨part, hpart, rfl⟩ := List.mem_map.mp hchars
    exact hslash part hpart
  · rwa [ne_eq, List.map_eq_nil_iff]

theorem splits_component {part : String} (hslash : '/' ∉ part.toList) : splits part = [part] := by
  rw [splits, List.splitOn_eq_singleton hslash, List.map_singleton, String.ofList_toList]

theorem joined_splits (text : String) : joined (splits text) = text := by
  rw [← String.toList_inj, joined_toList, splits, List.map_map]
  have hid : (String.toList ∘ String.ofList : List Char → List Char) = id := by
    funext chars
    exact String.toList_ofList
  rw [hid, List.map_id, List.intercalate_splitOn]

theorem splits_ne_nil (text : String) : splits text ≠ [] := by
  rw [splits]
  rw [ne_eq, List.map_eq_nil_iff]
  exact List.splitOn_ne_nil '/' text.toList

theorem mem_splitOn {α : Type} [BEq α] [LawfulBEq α] {separator : α} {text part : List α}
    (h : part ∈ text.splitOn separator) : ∀ c ∈ part, c ∈ text ∧ c ≠ separator := by
  induction text generalizing part with
  | nil =>
      rw [List.splitOn_nil, List.mem_singleton] at h
      subst h
      intro c hc
      cases hc
  | cons head rest ih =>
      rw [List.splitOn_cons_eq_if_modifyHead] at h
      have hrest : ∀ other ∈ rest.splitOn separator, ∀ c ∈ other, c ∈ head :: rest ∧ c ≠ separator :=
        fun other hother c hc => ⟨List.mem_cons_of_mem head (ih hother c hc).1, (ih hother c hc).2⟩
      by_cases hhead : head = separator
      · rw [if_pos (beq_iff_eq.mpr hhead)] at h
        rcases List.mem_cons.mp h with rfl | hother
        · intro c hc
          cases hc
        · exact hrest part hother
      · rw [if_neg (beq_iff_eq.not.mpr hhead)] at h
        -- the head joins the first component
        cases hsplit : rest.splitOn separator with
        | nil => exact absurd hsplit (List.splitOn_ne_nil separator rest)
        | cons first others =>
            rw [hsplit, List.modifyHead_cons] at h
            rw [hsplit] at hrest
            rcases List.mem_cons.mp h with rfl | hother
            · intro c hc
              rcases List.mem_cons.mp hc with rfl | hc
              · exact ⟨List.mem_cons_self, hhead⟩
              · exact hrest first List.mem_cons_self c hc
            · exact hrest part (List.mem_cons_of_mem first hother)

/-- The characters of a component are characters of the path, and none is a slash. -/
theorem mem_splits {text part : String} (h : part ∈ splits text) :
    ∀ c ∈ part.toList, c ∈ text.toList ∧ c ≠ '/' := by
  obtain ⟨chars, hchars, rfl⟩ := List.mem_map.mp h
  rw [String.toList_ofList]
  exact mem_splitOn hchars

/-- The characters of a path are slashes and those of its components. -/
theorem mem_joined {parts : List String} {c : Char} (h : c ∈ (joined parts).toList) :
    c = '/' ∨ ∃ part ∈ parts, c ∈ part.toList := by
  rw [joined_toList] at h
  induction parts with
  | nil => exact absurd h List.not_mem_nil
  | cons part rest ih =>
      cases rest with
      | nil =>
          rw [List.map_singleton, List.intercalate_singleton] at h
          exact .inr ⟨part, List.mem_cons_self, h⟩
      | cons next others =>
          rw [List.map_cons, List.map_cons, List.intercalate_cons_cons, List.mem_append,
            List.mem_append, List.mem_singleton] at h
          rcases h with (h | h) | h
          · exact .inr ⟨part, List.mem_cons_self, h⟩
          · exact .inl h
          · refine (ih h).imp_right ?_
            rintro ⟨other, hother, hc⟩
            exact ⟨other, List.mem_cons_of_mem part hother, hc⟩

/-- A path that begins with a slash has an empty first component. -/
theorem splits_slash {text : String} {cs : List Char} (h : text.toList = '/' :: cs) : "" ∈ splits text := by
  rw [splits, h, List.splitOn_cons_eq_if_modifyHead, if_pos (beq_self_eq_true _), List.map_cons]
  exact List.mem_cons_self

/-- A path below another one has the components of both. -/
theorem splits_below (above below : String) :
    splits (above ++ "/" ++ below) = splits above ++ splits below := by
  have htext : (above ++ "/" ++ below).toList = above.toList ++ '/' :: below.toList := by
    simp [String.toList_append]
  rw [splits, htext, List.splitOn_append_cons_self, List.map_append]
  rfl

end PosixPath

end CfdiVault
