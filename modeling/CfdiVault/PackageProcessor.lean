import CfdiVault.Library.PosixPath
import CfdiVault.Library.Program
import CfdiVault.RecoveryStorage

/-!
# Processing a SAT package

`process_sat_package` validates a downloaded ZIP archive, stores it, and stores each of
its members below the key of the package.  All validation comes first: the names in the
raw headers, the archive itself, and the name and the content of each member.

The archive is read by a library, given here as `openZip`; the storage is a parameter
with the one operation the processor uses.
-/

namespace CfdiVault

namespace PackageProcessor

open PosixPath

/-- An exception of the processor, by origin. -/
inductive PackageFault where
  /-- `PackageProcessingError` -/
  | rejected (message : String)
  /-- Any other exception while the archive is read. -/
  | unreadable (message : String)
  /-- An exception of the storage. -/
  | storage (message : String)
  deriving DecidableEq

/-! ## Names in the raw headers -/

/-- Where a header keeps its name: its signature, its size, and the offsets of the lengths
of the name and of the extra field. -/
structure Header where
  signature : Bytes
  size : Nat
  nameOffset : Nat
  extraOffset : Nat

/-- `PK\x03\x04` -/
def localHeader : Header := ⟨[0x50, 0x4b, 0x03, 0x04], 30, 26, 28⟩

/-- `PK\x01\x02` -/
def centralHeader : Header := ⟨[0x50, 0x4b, 0x01, 0x02], 46, 28, 30⟩

/-- The content from the next signature on. -/
def findSignature (signature : Bytes) : Bytes → Option Bytes
  | [] => none
  | b :: rest =>
      if signature.isPrefixOf (b :: rest) then some (b :: rest) else findSignature signature rest

/-- `struct.unpack_from("<H", …)` -/
def unpackShort (content : Bytes) (offset : Nat) : Nat :=
  (content.getD offset 0).toNat + 256 * (content.getD (offset + 1) 0).toNat

/-- How the search for headers of one kind ends. -/
inductive NameScan where
  /-- No further header: the search goes on with the next kind. -/
  | finished
  /-- A header is cut off: the search is given up. -/
  | truncated
  | backslash
  deriving DecidableEq

/-- The headers of one kind.  Each pass moves on by at least the size of a header, so the
length of the content bounds their number. -/
def scanNames (header : Header) : Nat → Bytes → NameScan
  | 0, _ => .finished
  | fuel + 1, content =>
      match findSignature header.signature content with
      | none => .finished
      | some found =>
          let nameLength := unpackShort found header.nameOffset
          let extraLength := unpackShort found header.extraOffset
          if found.length < header.size then .truncated
          else if found.length < header.size + nameLength then .truncated
          else if 0x5c ∈ (found.drop header.size).take nameLength then .backslash
          else scanNames header fuel (found.drop (header.size + nameLength + extraLength))

/-- `_reject_raw_backslash_names` -/
def rejectRawBackslashNames (content : Bytes) : Except PackageFault Unit :=
  match scanNames localHeader content.length content with
  | .backslash => .error (.rejected "backslash ZIP entry path rejected")
  | .truncated => .ok ()
  | .finished =>
      match scanNames centralHeader content.length content with
      | .backslash => .error (.rejected "backslash ZIP entry path rejected")
      | _ => .ok ()

theorem findSignature_length {signature content found : Bytes}
    (h : findSignature signature content = some found) : found.length ≤ content.length := by
  induction content with
  | nil => cases h
  | cons b rest ih =>
      rw [findSignature] at h
      split at h
      · cases h
        exact Nat.le_refl _
      · exact (ih h).trans (Nat.le_succ _)

/-- The bound on the number of passes is never what ends the search. -/
theorem scanNames_fuel {header : Header} (hsize : 0 < header.size) {fuel : Nat} {content : Bytes}
    (hfuel : content.length ≤ fuel) :
    scanNames header fuel content = scanNames header content.length content := by
  induction fuel using Nat.strong_induction_on generalizing content with
  | _ fuel ih =>
    cases content with
    | nil => cases fuel <;> rfl
    | cons b rest =>
        obtain ⟨fuel, rfl⟩ : ∃ n, fuel = n + 1 := Nat.exists_eq_succ_of_ne_zero (by
          rw [List.length_cons] at hfuel
          omega)
        rw [List.length_cons, scanNames, scanNames]
        cases hfound : findSignature header.signature (b :: rest) with
        | none => rfl
        | some found =>
            have hlength := findSignature_length hfound
            rw [List.length_cons] at hlength hfuel
            dsimp only
            -- what is left after this header is shorter than what was there before it
            have hleft : ∀ n, (found.drop (header.size + n)).length ≤ rest.length := by
              intro n
              rw [List.length_drop]
              omega
            split_ifs
            · rfl
            · rfl
            · rfl
            · rw [Nat.add_assoc, ih fuel (Nat.lt_succ_self _) ((hleft _).trans (by omega))]
              by_cases hshort : rest.length = fuel
              · rw [hshort, ih fuel (Nat.lt_succ_self _) (hshort ▸ hleft _)]
              · rw [ih rest.length (by omega) (hleft _)]

/-! ## Members -/

/-- What the archive library raises: one of the exceptions the processor expects
(`BadZipFile`, `LargeZipFile`, `NotImplementedError`, `RuntimeError`), or another one. -/
inductive ZipFault where
  | invalid
  | other (message : String)
  deriving DecidableEq

/-- An entry of `infolist()`, with what reading it gives. -/
structure ZipInfo where
  filename : String
  isDir : Bool
  read : Except ZipFault Bytes

/-- `except (BadZipFile, …): raise PackageProcessingError("invalid ZIP package")` -/
def zipFault : ZipFault → PackageFault
  | .invalid => .rejected "invalid ZIP package"
  | .other message => .unreadable message

/-- `_DRIVE_PREFIX.match` -/
def hasDrivePrefix (name : String) : Bool :=
  match name.toList with
  | letter :: ':' :: _ => ('A' ≤ letter && letter ≤ 'Z') || ('a' ≤ letter && letter ≤ 'z')
  | _ => false

section Processor

variable (rt : Runtime) (openZip : Bytes → Except ZipFault (List ZipInfo))

/-- `_validate_member_name` -/
def validateMemberName (rawName : String) (isDir : Bool) (allowedExtensions : List String) :
    Except PackageFault String :=
  let path := parts rawName
  if isDir ∨ rawName.toList.getLast? = some '/' then
    .error (.rejected ("directory ZIP entry rejected: " ++ rawName))
  else if '\\' ∈ rawName.toList then
    .error (.rejected ("backslash ZIP entry path rejected: " ++ rawName))
  else if rawName.toList.head? = some '/' ∨ hasDrivePrefix rawName then
    .error (.rejected ("absolute ZIP entry path rejected: " ++ rawName))
  else if path.any fun part => part = "" ∨ part = "." ∨ part = ".." then
    .error (.rejected ("unsafe ZIP entry path rejected: " ++ rawName))
  else if rt.lower (suffix path) ∉ allowedExtensions then
    .error (.rejected ("unsupported ZIP entry extension rejected: " ++ rawName))
  else .ok (asPosix path)

/-- The loop over `infolist()`, with the names seen so far in lower case. -/
def collectMembers (allowedExtensions : List String) :
    List String → List ZipInfo → Except PackageFault (List (String × Bytes))
  | _, [] => .ok []
  | normalizedNames, info :: rest => do
      let name ← validateMemberName rt info.filename info.isDir allowedExtensions
      let duplicateKey := rt.lower name
      if duplicateKey ∈ normalizedNames then
        .error (.rejected ("duplicate ZIP entry path rejected: " ++ name))
      else do
        let data ← info.read.mapError zipFault
        let members ← collectMembers allowedExtensions (duplicateKey :: normalizedNames) rest
        pure ((name, data) :: members)

/-- `_safe_members` -/
def safeMembers (content : Bytes) (allowedExtensions : List String) :
    Except PackageFault (List (String × Bytes)) := do
  rejectRawBackslashNames content
  let infolist ← (openZip content).mapError zipFault
  let members ← collectMembers rt allowedExtensions [] infolist
  pure (members.mergeSort fun a b => a.1 ≤ b.1)

/-- `_safe_key_segment` -/
def safeKeySegment (value : String) : Except PackageFault String :=
  (Recovery.safeSegment value).mapError fun _ => .rejected "package_id cannot be empty"

/-! ## Storage and extraction -/

/-- Result of an idempotent bytes write. -/
structure StoredBytes where
  sha256 : String
  sizeBytes : Nat
  written : Bool
  deriving DecidableEq

/-- Minimal storage port required by the package processor. -/
structure PackageStorage (S : Type) where
  writeBytesIdempotent : String → Bytes → Prog S PackageFault StoredBytes

/-- A safely extracted package member. -/
structure ExtractedPackageEntry where
  name : String
  kind : String
  sha256 : String
  size : Nat
  storageKey : String
  written : Bool
  deriving DecidableEq

/-- Safe processing result for one downloaded SAT package. -/
structure ProcessedPackage where
  packageId : String
  sha256 : String
  size : Nat
  packageStorageKey : String
  packageWritten : Bool
  entries : List ExtractedPackageEntry
  deriving DecidableEq

/-- `sha256_bytes` -/
def sha256Bytes (content : Bytes) : String := (rt.sha256Bytes content).hex

/-- The first twelve digits of the digest, which stand in the keys. -/
def sha12 (content : Bytes) : String := Text.takeChars 12 (sha256Bytes rt content)

/-- What the keys of a package have in common. -/
def keyStem (segment : String) (content : Bytes) : String :=
  "sat-packages/" ++ segment ++ "-" ++ sha12 rt content

def packageKey (segment : String) (content : Bytes) : String := keyStem rt segment content ++ ".zip"

def entryKey (segment : String) (content : Bytes) (name : String) : String :=
  keyStem rt segment content ++ "/extracted/" ++ name

/-- The entry of a member. -/
def extractedEntry (segment : String) (content : Bytes) (member : String × Bytes) (written : Bool) :
    ExtractedPackageEntry where
  name := member.1
  kind := rt.lower (String.ofList ((suffix (parts member.1)).toList.dropWhile (· = '.')))
  sha256 := sha256Bytes rt member.2
  size := member.2.length
  storageKey := entryKey rt segment content member.1
  written := written

/-- `_ALLOWED_EXTENSIONS` -/
def allowedExtensions : List String := [".csv", ".txt", ".xml"]

/-- `process_sat_package`; no extensions means the default ones. -/
def processSatPackage {S : Type} (storage : PackageStorage S) (packageId : String) (content : Bytes)
    (allowed : List String := []) : Prog S PackageFault ProcessedPackage := do
  let segment ← Prog.ofExcept (safeKeySegment packageId)
  let members ← Prog.ofExcept
    (safeMembers rt openZip content (if allowed = [] then allowedExtensions else allowed))
  let packageWrite ← storage.writeBytesIdempotent (packageKey rt segment content) content
  let entries ← Prog.collect members fun member => do
    let entryWrite ← storage.writeBytesIdempotent (entryKey rt segment content member.1) member.2
    pure (extractedEntry rt segment content member entryWrite.written)
  pure {
    packageId := packageId
    sha256 := sha256Bytes rt content
    size := content.length
    packageStorageKey := packageKey rt segment content
    packageWritten := packageWrite.written
    entries := entries }

end Processor

end PackageProcessor

end CfdiVault
