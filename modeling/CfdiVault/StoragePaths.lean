import CfdiVault.Library.PosixPath
import CfdiVault.Library.Program
import CfdiVault.RecoveryStorage

/-!
# Paths below the storage root

`path_for_key` joins a key to the root and checks where the *parent* of the result leads.  What the
last component does is not checked.  An ordinary name leads one step further down, so below the
root; but `..` leads back up from a parent that was let through, to the root or out of it, and a
key without components returns the root itself where the parent of the root lies in it (a root
that is spelled `.`, `..` or `/`).

`confined_iff` says exactly which keys are confined: those that end in an ordinary name, those
whose parent is turned down, and those that end in `..` at least two levels below the root.

A root without symbolic links is resolved lexically.
-/

namespace CfdiVault

namespace StoragePaths

open Recovery.LocalStorage (resolve)

/-! ## Pure paths -/

/-- A path as `PurePosixPath` keeps it. -/
structure PurePath where
  absolute : Bool
  parts : List String
  deriving DecidableEq

namespace PurePath

/-- `Path(text)` -/
def ofText (text : String) : PurePath := ⟨text.toList.head? = some '/', PosixPath.parts text⟩

/-- `path / text`: an absolute text replaces the path. -/
def child (path : PurePath) (text : String) : PurePath :=
  if (ofText text).absolute then ofText text
  else ⟨path.absolute, path.parts ++ PosixPath.parts text⟩

/-- `path.parent`: a path without components is its own parent. -/
def parent (path : PurePath) : PurePath := ⟨path.absolute, path.parts.dropLast⟩

/-- The components of the normalised absolute path, in the directory `cwd`. -/
def normal (cwd : List String) (path : PurePath) : List String :=
  resolve (if path.absolute then [] else cwd) path.parts

end PurePath

/-! ## Keys -/

/-- `key.replace("\\", "/").lstrip("/")` -/
def safeKey (key : String) : String :=
  String.ofList ((Text.replaceChar '\\' "/" key).toList.dropWhile (· = '/'))

/-- The directory that relative paths start from, and the host's objection to resolving a path. -/
structure Host where
  cwd : List String
  refuses : PurePath → Option String := fun _ => none

/-- `path.resolve()` -/
def Host.resolve (host : Host) (path : PurePath) : Except String (List String) :=
  match host.refuses path with
  | some fault => .error fault
  | none => .ok (path.normal host.cwd)

/-- `path_for_key` -/
def pathForKey (host : Host) (root : PurePath) (key : String) : Except String PurePath := do
  let path := root.child (safeKey key)
  let resolvedRoot ← host.resolve root
  let resolvedParent ← host.resolve path.parent
  if resolvedRoot.isPrefixOf resolvedParent then pure path
  else .error "path is not in the subpath of the storage root"

/-- The path lies strictly inside the root, when both are normalised. -/
def StrictlyInside (host : Host) (root path : PurePath) : Prop :=
  root.normal host.cwd <+: path.normal host.cwd ∧ path.normal host.cwd ≠ root.normal host.cwd

/-- A key is confined: no path is returned for it, or one strictly inside the root. -/
def Confined (host : Host) (root : PurePath) (key : String) : Prop :=
  ∀ path, pathForKey host root key = .ok path → StrictlyInside host root path

/-- The key ends in an ordinary name, or what comes before its end is turned down, or it ends in
`..` at least two levels below the root. -/
def WellEnded (host : Host) (root : PurePath) (key : String) : Prop :=
  (∃ front name, (root.child (safeKey key)).parts = front ++ [name] ∧ name ≠ "..") ∨
  (∃ fault, host.refuses root = some fault ∨ host.refuses (root.child (safeKey key)).parent = some fault) ∨
  ¬ root.normal host.cwd <+: (root.child (safeKey key)).parent.normal host.cwd ∨
  ((root.child (safeKey key)).parts ≠ [] ∧
    (root.normal host.cwd).length + 2 ≤ ((root.child (safeKey key)).parent.normal host.cwd).length)

/-! ## Where the last component leads -/

section Walks

variable {host : Host} {root path : PurePath} {key : String} {here front back : List String} {name : String}

theorem resolve_append : resolve here (front ++ back) = resolve (resolve here front) back := by
  induction front generalizing here with
  | nil => rfl
  | cons part rest ih => exact ih

theorem resolve_name (h : name ≠ "..") : resolve here (front ++ [name]) = resolve here front ++ [name] := by
  rw [resolve_append, resolve, if_neg h, resolve]

theorem resolve_up : resolve here (front ++ [".."]) = (resolve here front).dropLast := by
  rw [resolve_append, resolve, if_pos rfl, resolve]

/-- A path that ends in a name lies one level below its parent. -/
theorem normal_name (hparts : path.parts = front ++ [name]) (h : name ≠ "..") :
    path.normal host.cwd = path.parent.normal host.cwd ++ [name] := by
  rw [PurePath.normal, PurePath.normal, PurePath.parent, hparts, resolve_name h, List.dropLast_concat]

/-- A path that ends in `..` lies one level above its parent. -/
theorem normal_up (hparts : path.parts = front ++ [".."]) :
    path.normal host.cwd = (path.parent.normal host.cwd).dropLast := by
  rw [PurePath.normal, PurePath.normal, PurePath.parent, hparts, resolve_up, List.dropLast_concat]

theorem host_resolve_ok {normal : List String} :
    host.resolve path = .ok normal ↔ host.refuses path = none ∧ normal = path.normal host.cwd := by
  unfold Host.resolve
  cases host.refuses path with
  | some fault => exact iff_of_false (fun h => by cases h) fun h => by cases h.1
  | none =>
      constructor
      · intro h
        exact ⟨rfl, (Except.ok.inj h).symm⟩
      · rintro ⟨-, rfl⟩
        rfl

/-- A path is returned for a key exactly if the host resolves root and parent, and the parent lies
in the root. -/
theorem pathForKey_ok :
    pathForKey host root key = .ok path ↔ path = root.child (safeKey key) ∧ host.refuses root = none ∧
      host.refuses (root.child (safeKey key)).parent = none ∧
      root.normal host.cwd <+: (root.child (safeKey key)).parent.normal host.cwd := by
  unfold pathForKey
  generalize root.child (safeKey key) = child
  constructor
  · intro h
    obtain ⟨resolvedRoot, hroot, h⟩ := Checked.bind_eq_ok.mp h
    obtain ⟨resolvedParent, hparent, h⟩ := Checked.bind_eq_ok.mp h
    obtain ⟨hrootOk, rfl⟩ := host_resolve_ok.mp hroot
    obtain ⟨hparentOk, rfl⟩ := host_resolve_ok.mp hparent
    by_cases hpre : (root.normal host.cwd).isPrefixOf (child.parent.normal host.cwd) = true
    · rw [if_pos hpre] at h
      exact ⟨(Checked.pure_eq_ok.mp h).symm, hrootOk, hparentOk, List.isPrefixOf_iff_prefix.mp hpre⟩
    · rw [if_neg hpre] at h
      cases h
  · rintro ⟨rfl, hroot, hparent, hpre⟩
    rw [host_resolve_ok.mpr ⟨hroot, rfl⟩, Checked.ok_bind, host_resolve_ok.mpr ⟨hparent, rfl⟩,
      Checked.ok_bind, if_pos (List.isPrefixOf_iff_prefix.mpr hpre)]
    rfl

/-- What lies strictly inside a root is longer. -/
theorem strictlyInside_iff : StrictlyInside host root path ↔ root.normal host.cwd <+: path.normal host.cwd ∧
    (root.normal host.cwd).length < (path.normal host.cwd).length := by
  unfold StrictlyInside
  refine and_congr_right fun hpre => ?_
  constructor
  · intro hne
    exact lt_of_le_of_ne hpre.length_le fun hlen => hne (hpre.eq_of_length hlen).symm
  · intro hlt hsame
    rw [hsame] at hlt
    exact lt_irrefl _ hlt

/-- The end of a path whose parent lies in the root decides whether the path lies strictly inside. -/
theorem strictlyInside_of_parent (hpre : root.normal host.cwd <+: path.parent.normal host.cwd)
    (hroot : path.parts = [] → path.normal host.cwd = root.normal host.cwd) :
    StrictlyInside host root path ↔ (∃ front name, path.parts = front ++ [name] ∧ name ≠ "..") ∨
      (path.parts ≠ [] ∧ (root.normal host.cwd).length + 2 ≤ (path.parent.normal host.cwd).length) := by
  rw [strictlyInside_iff]
  rcases path.parts.eq_nil_or_concat with hnil | ⟨front, last, hparts⟩
  · refine iff_of_false ?_ ?_
    · rintro ⟨-, hlt⟩
      rw [hroot hnil] at hlt
      exact lt_irrefl _ hlt
    · rintro (⟨front, name, hparts, -⟩ | ⟨hne, -⟩)
      · rw [hnil] at hparts
        exact absurd hparts (by simp)
      · exact hne hnil
  · rw [List.concat_eq_append] at hparts
    by_cases hlast : last = ".."
    · subst hlast
      have hname : ¬ ∃ front name, path.parts = front ++ [name] ∧ name ≠ ".." := by
        rintro ⟨front', name, hparts', hne⟩
        rw [hparts] at hparts'
        exact hne (List.singleton_inj.mp (List.append_inj_right' hparts' rfl)).symm
      have hne : path.parts ≠ [] := by
        rw [hparts]
        simp
      rw [normal_up hparts, List.length_dropLast]
      constructor
      · rintro ⟨-, hlt⟩
        exact .inr ⟨hne, by omega⟩
      · rintro (h | ⟨-, hlen⟩)
        · exact absurd h hname
        · refine ⟨?_, by omega⟩
          rw [List.dropLast_eq_take]
          exact List.prefix_take_iff.mpr ⟨hpre, by omega⟩
    · rw [normal_name hparts hlast, List.length_append, List.length_singleton]
      refine iff_of_true ⟨hpre.trans (List.prefix_append _ _), ?_⟩ (.inl ⟨front, last, hparts, hlast⟩)
      exact Nat.lt_succ_of_le hpre.length_le

/-- A key never replaces the root. -/
theorem child_safeKey :
    root.child (safeKey key) = ⟨root.absolute, root.parts ++ PosixPath.parts (safeKey key)⟩ := by
  have hrelative : (PurePath.ofText (safeKey key)).absolute = false := by
    unfold PurePath.ofText
    dsimp only
    rw [decide_eq_false_iff_not]
    intro hslash
    rw [safeKey, String.toList_ofList] at hslash
    have hhead := List.head?_dropWhile_not (fun c => decide (c = '/')) (Text.replaceChar '\\' "/" key).toList
    rw [hslash] at hhead
    exact absurd hhead (by decide)
  rw [PurePath.child, if_neg (by rw [hrelative]; decide)]

/-- A key is confined exactly if it is well ended. -/
theorem confined_iff : Confined host root key ↔ WellEnded host root key := by
  have hroot : (root.child (safeKey key)).parts = [] →
      (root.child (safeKey key)).normal host.cwd = root.normal host.cwd := by
    intro hnil
    rw [child_safeKey] at hnil ⊢
    obtain ⟨hparts, hkey⟩ := List.append_eq_nil_iff.mp hnil
    rw [hkey, List.append_nil]
  unfold WellEnded
  by_cases hreturned : host.refuses root = none ∧ host.refuses (root.child (safeKey key)).parent = none ∧
      root.normal host.cwd <+: (root.child (safeKey key)).parent.normal host.cwd
  · obtain ⟨hrootOk, hparentOk, hpre⟩ := hreturned
    have hpath : Confined host root key ↔ StrictlyInside host root (root.child (safeKey key)) := by
      constructor
      · exact fun h => h _ (pathForKey_ok.mpr ⟨rfl, hrootOk, hparentOk, hpre⟩)
      · intro h path hok
        rw [(pathForKey_ok.mp hok).1]
        exact h
    rw [hpath, strictlyInside_of_parent hpre hroot]
    constructor
    · exact fun h => h.imp_right fun hdeep => .inr (.inr hdeep)
    · rintro (h | ⟨fault, h⟩ | h | h)
      · exact .inl h
      · rw [hrootOk, hparentOk] at h
        simp at h
      · exact absurd hpre h
      · exact .inr h
  · refine iff_of_true ?_ ?_
    · intro path hok
      exact absurd (pathForKey_ok.mp hok).2 hreturned
    · rw [not_and_or, not_and_or] at hreturned
      rcases hreturned with h | h | h
      · obtain ⟨fault, hfault⟩ := Option.ne_none_iff_exists'.mp h
        exact .inr (.inl ⟨fault, .inl hfault⟩)
      · obtain ⟨fault, hfault⟩ := Option.ne_none_iff_exists'.mp h
        exact .inr (.inl ⟨fault, .inr hfault⟩)
      · exact .inr (.inr (.inl h))

/-- A key that ends in a name is confined, whatever comes before it. -/
theorem confined_name (hkey : PosixPath.parts (safeKey key) = front ++ [name]) (h : name ≠ "..") :
    Confined host root key := by
  refine confined_iff.mpr (.inl ⟨root.parts ++ front, name, ?_, h⟩)
  rw [child_safeKey, hkey, List.append_assoc]

end Walks

/-- `..` is let through to the directory above: the parent that is checked is the root itself. -/
theorem parent_escapes : ¬ ∀ host root key, Confined host root key := by
  intro h
  obtain ⟨hpre, -⟩ := h ⟨["home"], fun _ => none⟩ (.ofText "storage") ".." ⟨false, ["storage", ".."]⟩
    (by decide +kernel)
  exact absurd hpre (by decide +kernel)

/-! ## The storage of the recovery -/

section Recovered

open Recovery (LocalStorage)

variable {host : Host} {root : PurePath} {front : List String} {name : String}

theorem safeKey_toList (key : String) : (safeKey key).toList =
    (key.toList.map fun c => if c = '\\' then '/' else c).dropWhile (· = '/') := by
  rw [safeKey, Text.replaceChar, String.toList_ofList, String.toList_ofList, ← List.flatMap_pure_eq_map]
  congr 2
  funext c
  by_cases hback : c = '\\'
  · rw [if_pos hback, Function.comp_apply, if_pos hback]
    rfl
  · rw [if_neg hback, Function.comp_apply, if_neg hback]
    rfl

theorem components_eq (key : String) : LocalStorage.components key = PosixPath.parts (safeKey key) := by
  rw [LocalStorage.components, PosixPath.parts, PosixPath.splits, safeKey_toList]
  generalize (key.toList.map fun c => if c = '\\' then '/' else c).dropWhile (· = '/') = chars
  change (chars.splitOn '/').filterMap _ = _
  rw [List.filter_map, ← List.filterMap_eq_map, ← List.filterMap_eq_filter, List.filterMap_filterMap]
  refine List.filterMap_congr fun part _ => ?_
  by_cases hdropped : part = [] ∨ part = ['.']
  · rcases hdropped with rfl | rfl <;> rfl
  · have hempty : String.ofList part ≠ "" := fun h => hdropped (.inl (String.ofList_injective h))
    have hhere : String.ofList part ≠ "." := fun h => hdropped (.inr (String.ofList_injective h))
    rw [if_neg hdropped]
    simp [Option.guard, hempty, hhere]

/-- Below a root that ends in a name, the recovery finds the same paths. -/
theorem recovered_pathForKey (hroot : root.parts = front ++ [name]) (hname : name ≠ "..")
    (hhost : ∀ path, host.refuses path = none) (text key : String) :
    LocalStorage.pathForKey ⟨text, root.normal host.cwd⟩ key =
      (pathForKey host root key).map fun path =>
        text ++ PosixPath.joined (path.parts.drop root.parts.length) := by
  have hresolve : ∀ path, host.resolve path = .ok (path.normal host.cwd) := fun path =>
    host_resolve_ok.mpr ⟨hhost path, rfl⟩
  have hchild : pathForKey host root key =
      if (root.normal host.cwd).isPrefixOf ((root.child (safeKey key)).parent.normal host.cwd) then
        .ok (root.child (safeKey key)) else .error "path is not in the subpath of the storage root" := by
    unfold pathForKey
    dsimp only
    rw [hresolve, Checked.ok_bind, hresolve, Checked.ok_bind]
    rfl
  rw [hchild, child_safeKey, LocalStorage.pathForKey, components_eq]
  generalize PosixPath.parts (safeKey key) = parts
  -- the parent of the path is the root's for an empty key, and else lies on the way down
  have hparent : (PurePath.mk root.absolute (root.parts ++ parts)).parent.normal host.cwd =
      if parts = [] then (root.normal host.cwd).dropLast
      else resolve (root.normal host.cwd) parts.dropLast := by
    by_cases hempty : parts = []
    · rw [if_pos hempty, hempty, List.append_nil, normal_name hroot hname, List.dropLast_concat]
    · rw [if_neg hempty, PurePath.parent, PurePath.normal, PurePath.normal, ← resolve_append,
        List.dropLast_append_of_ne_nil hempty]
  rw [hparent]
  by_cases hpre : (root.normal host.cwd).isPrefixOf (if parts = [] then (root.normal host.cwd).dropLast
      else resolve (root.normal host.cwd) parts.dropLast) = true
  · have hdrop : (root.parts ++ parts).drop root.parts.length = parts := List.drop_left
    rw [if_pos hpre, Except.map, hdrop]
    cases parts with
    | nil => exact if_pos hpre
    | cons part rest => exact if_pos hpre
  · rw [if_neg hpre]
    cases parts with
    | nil => exact if_neg hpre
    | cons part rest => exact if_neg hpre

end Recovered

end StoragePaths

end CfdiVault
