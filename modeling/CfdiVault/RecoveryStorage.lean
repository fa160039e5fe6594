import CfdiVault.Domain

/-!
# Local storage keys

Where the recovery service keeps metadata, packages and XML evidence below its
storage root: `<root>/<RFC>/<family>/YYYY/MM/<file name>`.  File names are made of
safe segments, so a text of the outside never contributes a path separator.

A path is its text as the service records it; the parent directory is resolved
lexically, which is exact for a root without symbolic links.
-/

namespace CfdiVault

namespace Recovery

/-- A character outside `[^A-Za-z0-9_.=-]`. -/
def isSegmentChar (c : Char) : Bool :=
  ('A' ≤ c && c ≤ 'Z') || ('a' ≤ c && c ≤ 'z') || ('0' ≤ c && c ≤ '9') ||
    c == '_' || c == '.' || c == '=' || c == '-'

/-- `SEGMENT_PATTERN.sub("-", …)`: every run of other characters becomes one dash. -/
def substituteUnsafe (inRun : Bool) : List Char → List Char
  | [] => []
  | c :: cs =>
      if isSegmentChar c then c :: substituteUnsafe false cs
      else if inRun then substituteUnsafe true cs
      else '-' :: substituteUnsafe true cs

/-- A character that `strip(".-_")` removes. -/
def isSegmentMargin (c : Char) : Bool := c == '.' || c == '-' || c == '_'

/-- `_safe_segment`; the error is the text of the `ValueError`.  Proofs about the service
never look inside a segment. -/
@[irreducible] def safeSegment (value : String) : Except String String :=
  let cs := substituteUnsafe false (Text.strip value).toList
  let normalized := (cs.dropWhile isSegmentMargin).rdropWhile isSegmentMargin
  if normalized = [] then .error "storage path segment cannot be empty"
  else .ok (String.ofList normalized)

/-- `_safe_rfc`. -/
def safeRfc (rt : Runtime) (value : String) : Except String String := safeSegment (rt.upper value)

/-- `_year_month`. -/
def yearMonth (moment : DateTime) : String × String :=
  (Text.padded 4 moment.ymd.1, Text.padded 2 moment.ymd.2.1)

/-- The file name of a stored object: its id, the start of its digest, an extension. -/
def fileName (id sha256 extension : String) : Except String String := do
  let id ← safeSegment id
  let digest ← safeSegment (Text.takeChars 12 sha256)
  pure (id ++ "-" ++ digest ++ "." ++ extension)

/-- The storage root: the text that stands before the components of a path below it,
such as `storage/`, and the components the root resolves to. -/
structure LocalStorage where
  root : String
  resolvedRoot : List String

namespace LocalStorage

/-- The components of a relative path. -/
def components (key : String) : List String :=
  let slashes := key.toList.map fun c => if c = '\\' then '/' else c
  ((slashes.dropWhile (· = '/')).splitOnP (· = '/')).filterMap fun part =>
    if part = [] ∨ part = ['.'] then none else some (String.ofList part)

/-- Walk down a list of components, `..` leading back up. -/
def resolve : List String → List String → List String
  | here, [] => here
  | here, part :: rest => resolve (if part = ".." then here.dropLast else here ++ [part]) rest

/-- Resolve a storage key under the configured root. -/
def pathForKey (storage : LocalStorage) (key : String) : Except String String :=
  let parts := components key
  let parent := match parts with
    | [] => storage.resolvedRoot.dropLast
    | _ => resolve storage.resolvedRoot parts.dropLast
  if storage.resolvedRoot.isPrefixOf parent then
    .ok (storage.root ++ String.intercalate "/" parts)
  else .error "path is not in the subpath of the storage root"

end LocalStorage

/-- Result of an idempotent local write. -/
structure StoredFile where
  path : String
  sha256 : String
  sizeBytes : Nat
  written : Bool
  deriving DecidableEq

example : safeSegment " ../PKG 1/ÑA. " = .ok "PKG-1-A" := by decide +kernel

end Recovery

end CfdiVault
