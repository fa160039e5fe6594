import CfdiVault.PackageProcessor

/-!
# The keys of a package

The names that `_validate_member_name` lets through, and the keys that are made of them.
A key names its package by a safe segment and twelve digits of a digest, which can be read
back from it: keys of different contents, or of different members, are different.
-/

namespace CfdiVault

namespace Recovery

theorem substituteUnsafe_chars (inRun : Bool) (cs : List Char) :
    ∀ c ∈ substituteUnsafe inRun cs, isSegmentChar c = true := by
  induction cs generalizing inRun with
  | nil =>
      intro c hc
      cases hc
  | cons head rest ih =>
      intro c hc
      rw [substituteUnsafe] at hc
      split at hc
      case isTrue hhead =>
        rcases List.mem_cons.mp hc with rfl | hc
        · exact hhead
        · exact ih false c hc
      case isFalse hhead =>
        split at hc
        · exact ih true c hc
        · rcases List.mem_cons.mp hc with rfl | hc
          · decide
          · exact ih true c hc

/-- A safe segment has characters of the segment alphabet only. -/
theorem safeSegment_chars {value segment : String} (h : safeSegment value = .ok segment) :
    segment ≠ "" ∧ ∀ c ∈ segment.toList, isSegmentChar c = true := by
  rw [safeSegment] at h
  split at h
  · cases h
  · next hne =>
    obtain rfl := Except.ok.inj h
    refine ⟨fun hempty => hne ?_, fun c hc => ?_⟩
    · have hnil := congrArg String.toList hempty
      rwa [String.toList_ofList] at hnil
    · rw [String.toList_ofList] at hc
      have hdropped := (List.rdropWhile_prefix isSegmentMargin _).subset hc
      exact substituteUnsafe_chars false _ c ((List.dropWhile_sublist _).subset hdropped)

end Recovery

namespace PackageProcessor

open PosixPath

variable {rt : Runtime} {openZip : Bytes → Except ZipFault (List ZipInfo)}

/-! ## Safe components -/

/-- A component that stays where it stands: no reference to another directory, and no
separator of any system. -/
structure SafeComponent (part : String) : Prop where
  nonempty : part ≠ ""
  here : part ≠ "."
  parent : part ≠ ".."
  slash : '/' ∉ part.toList
  backslash : '\\' ∉ part.toList

/-- What a name that is let through looks like. -/
structure SafeName (rt : Runtime) (allowed : List String) (rawName name : String) : Prop where
  normalised : name = asPosix (parts rawName)
  components : ∀ part ∈ parts rawName, SafeComponent part
  extension : rt.lower (suffix (parts rawName)) ∈ allowed

theorem validateMemberName_ok {rawName name : String} {isDir : Bool} {allowed : List String}
    (h : validateMemberName rt rawName isDir allowed = .ok name) : SafeName rt allowed rawName name := by
  unfold validateMemberName at h
  dsimp only at h
  split_ifs at h with hdir hbackslash habsolute hunsafe hextension
  cases h
  refine ⟨rfl, fun part hpart => ?_, hextension⟩
  rw [List.any_eq_true] at hunsafe
  have hsafe : ¬ (part = "" ∨ part = "." ∨ part = "..") := fun hbad =>
    hunsafe ⟨part, hpart, decide_eq_true hbad⟩
  rw [not_or, not_or] at hsafe
  have hchars := mem_splits (List.mem_of_mem_filter hpart)
  exact ⟨hsafe.1, hsafe.2.1, hsafe.2.2, fun hslash => (hchars '/' hslash).2 rfl,
    fun hback => hbackslash (hchars '\\' hback).1⟩

/-- A name has the components it was made of, unless it was made of none. -/
theorem SafeName.splits {allowed : List String} {rawName name : String}
    (h : SafeName rt allowed rawName name) (hne : parts rawName ≠ []) :
    PosixPath.splits name = parts rawName := by
  rw [h.normalised, asPosix, if_neg hne]
  exact splits_joined (fun part hpart => (h.components part hpart).slash) hne

/-! ## Digits of a digest -/

theorem hexChar_safe {n : Nat} (h : n < 16) : hexChar n ≠ '/' ∧ hexChar n ≠ '\\' ∧ hexChar n ≠ '.' := by
  have hall : ∀ m < 16, hexChar m ≠ '/' ∧ hexChar m ≠ '\\' ∧ hexChar m ≠ '.' := by decide
  exact hall n h

theorem sha12_chars (content : Bytes) :
    ∀ c ∈ (sha12 rt content).toList, c ≠ '/' ∧ c ≠ '\\' ∧ c ≠ '.' := by
  intro c hc
  rw [sha12, Text.takeChars, String.toList_ofList] at hc
  have hhex := List.mem_of_mem_take hc
  rw [sha256Bytes, Digest.hex, String.toList_ofList] at hhex
  obtain ⟨i, -, rfl⟩ := List.mem_map.mp hhex
  exact hexChar_safe (Nat.mod_lt _ (by decide))

theorem sha12_length (content : Bytes) : (sha12 rt content).toList.length = 12 := by
  rw [sha12, Text.takeChars, String.toList_ofList, sha256Bytes, Digest.hex, String.toList_ofList,
    List.length_take, List.length_map, List.length_range]
  rfl

/-! ## Keys -/

/-- A text whose characters are all of the segment alphabet, and that is not empty. -/
def SafeSegment (segment : String) : Prop :=
  segment ≠ "" ∧ ∀ c ∈ segment.toList, Recovery.isSegmentChar c = true

theorem safeKeySegment_safe {value segment : String} (h : safeKeySegment value = .ok segment) :
    SafeSegment segment := by
  rw [safeKeySegment] at h
  cases hsegment : Recovery.safeSegment value with
  | error e =>
      rw [hsegment] at h
      cases h
  | ok s =>
      rw [hsegment] at h
      obtain rfl := Except.ok.inj h
      exact Recovery.safeSegment_chars hsegment

/-- The component that names a package. -/
def folder (rt : Runtime) (segment : String) (content : Bytes) : String :=
  segment ++ "-" ++ sha12 rt content

theorem keyStem_eq (segment : String) (content : Bytes) :
    keyStem rt segment content = "sat-packages" ++ "/" ++ folder rt segment content := by
  have hroot : "sat-packages/" = "sat-packages" ++ "/" := by decide
  rw [keyStem, folder, hroot, String.append_assoc, String.append_assoc, String.append_assoc,
    String.append_assoc, String.append_assoc]

theorem folder_toList (segment : String) (content : Bytes) :
    (folder rt segment content).toList = segment.toList ++ '-' :: (sha12 rt content).toList := by
  simp [folder, String.toList_append]

theorem folder_chars {segment : String} (h : SafeSegment segment) (content : Bytes) :
    ∀ c ∈ (folder rt segment content).toList, c ≠ '/' ∧ c ≠ '\\' := by
  have hsegment : Recovery.isSegmentChar '/' = false ∧ Recovery.isSegmentChar '\\' = false := by decide
  intro c hc
  rw [folder_toList] at hc
  rcases List.mem_append.mp hc with hc | hc
  · have hchar := h.2 c hc
    constructor
    · rintro rfl
      exact absurd hchar (Bool.eq_false_iff.mp hsegment.1)
    · rintro rfl
      exact absurd hchar (Bool.eq_false_iff.mp hsegment.2)
  · rcases List.mem_cons.mp hc with rfl | hc
    · decide
    · exact ⟨(sha12_chars content c hc).1, (sha12_chars content c hc).2.1⟩

/-- The component of a package names its content by the twelve digits. -/
theorem sha12_of_folder {segment segment' : String} {content content' : Bytes}
    (h : folder rt segment content = folder rt segment' content') :
    sha12 rt content = sha12 rt content' := by
  have hlists := congrArg String.toList h
  rw [folder_toList, folder_toList] at hlists
  have htails := List.append_inj_right' hlists (by simp [sha12_length])
  exact String.toList_inj.mp (List.cons.inj htails).2

theorem root_splits : splits "sat-packages" = ["sat-packages"] := splits_component (by decide)

theorem folder_splits {segment : String} (h : SafeSegment segment) (content : Bytes) :
    splits (folder rt segment content) = [folder rt segment content] :=
  splits_component fun hslash => (folder_chars h content '/' hslash).1 rfl

theorem packageFile_chars {segment : String} (h : SafeSegment segment) (content : Bytes) :
    ∀ c ∈ (folder rt segment content ++ ".zip").toList, c ≠ '/' ∧ c ≠ '\\' := by
  have hzip : ".zip".toList.all (fun c => c ≠ '/' ∧ c ≠ '\\') = true := by decide
  intro c hc
  rw [String.toList_append] at hc
  rcases List.mem_append.mp hc with hc | hc
  · exact folder_chars h content c hc
  · exact of_decide_eq_true (List.all_eq_true.mp hzip c hc)

theorem packageKey_splits {segment : String} (h : SafeSegment segment) (content : Bytes) :
    splits (packageKey rt segment content) = ["sat-packages", folder rt segment content ++ ".zip"] := by
  rw [packageKey, keyStem_eq, String.append_assoc, splits_below, root_splits,
    splits_component fun hslash => (packageFile_chars h content '/' hslash).1 rfl]
  rfl

theorem entryKey_splits {segment : String} (h : SafeSegment segment) (content : Bytes) (name : String) :
    splits (entryKey rt segment content name) =
      ["sat-packages", folder rt segment content, "extracted"] ++ splits name := by
  have hmiddle : "/extracted/" = "/" ++ "extracted" ++ "/" := by decide
  have hkey : entryKey rt segment content name =
      "sat-packages" ++ "/" ++ folder rt segment content ++ "/" ++ "extracted" ++ "/" ++ name := by
    rw [entryKey, keyStem_eq, hmiddle]
    simp only [String.append_assoc]
  rw [hkey, splits_below, splits_below, splits_below, root_splits, folder_splits h,
    @splits_component "extracted" (by decide)]
  rfl

/-- The keys of two packages are those of one digest. -/
theorem packageKey_injective {segment segment' : String} (h : SafeSegment segment)
    (h' : SafeSegment segment') {content content' : Bytes}
    (hkey : packageKey rt segment content = packageKey rt segment' content') :
    sha12 rt content = sha12 rt content' := by
  have hsplits := congrArg splits hkey
  rw [packageKey_splits h, packageKey_splits h'] at hsplits
  have hfile := congrArg String.toList (List.cons.inj (List.cons.inj hsplits).2).1
  rw [String.toList_append, String.toList_append] at hfile
  exact sha12_of_folder (String.toList_inj.mp (List.append_cancel_right hfile))

/-- The keys of two members are those of one digest and one name. -/
theorem entryKey_injective {segment segment' : String} (h : SafeSegment segment)
    (h' : SafeSegment segment') {content content' : Bytes} {name name' : String}
    (hkey : entryKey rt segment content name = entryKey rt segment' content' name') :
    sha12 rt content = sha12 rt content' ∧ name = name' := by
  have hsplits := congrArg splits hkey
  rw [entryKey_splits h, entryKey_splits h'] at hsplits
  obtain ⟨-, hsplits⟩ := List.cons.inj hsplits
  obtain ⟨hfolder, hsplits⟩ := List.cons.inj hsplits
  obtain ⟨-, hname⟩ := List.cons.inj hsplits
  refine ⟨sha12_of_folder hfolder, ?_⟩
  rw [← joined_splits name, ← joined_splits name']
  exact congrArg joined hname

/-- No member has the key of a package. -/
theorem packageKey_ne_entryKey {segment segment' : String} (h : SafeSegment segment)
    (h' : SafeSegment segment') (content content' : Bytes) (name : String) :
    packageKey rt segment content ≠ entryKey rt segment' content' name := by
  intro hkey
  have hlength := congrArg (fun key => (splits key).length) hkey
  rw [packageKey_splits h, entryKey_splits h'] at hlength
  simp at hlength

/-- The components of the key of a member are safe. -/
theorem entryKey_safe {segment : String} (h : SafeSegment segment) (content : Bytes)
    {allowed : List String} {rawName name : String} (hname : SafeName rt allowed rawName name)
    (hne : parts rawName ≠ []) :
    ∀ part ∈ splits (entryKey rt segment content name), SafeComponent part := by
  have hdash : '-' ∈ (folder rt segment content).toList := by
    rw [folder_toList]
    exact List.mem_append_right _ List.mem_cons_self
  have hfolder : SafeComponent (folder rt segment content) := by
    refine ⟨?_, ?_, ?_, fun hc => (folder_chars h content _ hc).1 rfl,
      fun hc => (folder_chars h content _ hc).2 rfl⟩ <;>
    · intro heq
      rw [heq] at hdash
      exact absurd hdash (by decide)
  intro part hpart
  rw [entryKey_splits h, hname.splits hne] at hpart
  simp only [List.cons_append, List.nil_append, List.mem_cons] at hpart
  rcases hpart with rfl | rfl | rfl | hpart
  · exact ⟨by decide, by decide, by decide, by decide, by decide⟩
  · exact hfolder
  · exact ⟨by decide, by decide, by decide, by decide, by decide⟩
  · exact hname.components part hpart

end PackageProcessor

end CfdiVault
