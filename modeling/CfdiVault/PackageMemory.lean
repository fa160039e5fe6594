import CfdiVault.PackageKeys

/-!
# Packages in memory

`process_sat_package` on the in-memory storage, over any sequence of calls.  What the
storage holds after such a sequence is told by `Filed`: under each key there is a content
that was processed, or a member of it.  So a call whose archive is accepted finds no other
bytes under its keys, as long as the twelve digits in the keys tell the processed contents
apart, and a call either stores everything or nothing (`process_all_or_nothing`).
-/

namespace CfdiVault

namespace PackageProcessor

open PosixPath

/-! ## The in-memory storage -/

/-- Scanner-safe in-memory storage for package processor tests and demos. -/
structure MemoryPackageStorage where
  objects : List (String × Bytes) := []

namespace MemoryPackageStorage

/-- `self.objects.get(key)` -/
def get? (storage : MemoryPackageStorage) (key : String) : Option Bytes := storage.objects.lookup key

def writeBytesIdempotent (rt : Runtime) (key : String) (content : Bytes) :
    Prog MemoryPackageStorage PackageFault StoredBytes :=
  Prog.act fun storage =>
    match storage.get? key with
    | some existing =>
        if existing ≠ content then
          (.error (.storage ("storage collision for " ++ key ++ ": existing bytes differ")), storage)
        else (.ok ⟨sha256Bytes rt content, content.length, false⟩, storage)
    | none =>
        (.ok ⟨sha256Bytes rt content, content.length, true⟩,
          { objects := storage.objects ++ [(key, content)] })

end MemoryPackageStorage

/-- The in-memory storage as the processor uses it. -/
def memoryStorage (rt : Runtime) : PackageStorage MemoryPackageStorage :=
  ⟨MemoryPackageStorage.writeBytesIdempotent rt⟩

open MemoryPackageStorage

variable {rt : Runtime} {openZip : Bytes → Except ZipFault (List ZipInfo)}

/-- Nothing else than the content is stored under a key. -/
def Free (storage : MemoryPackageStorage) (key : String) (content : Bytes) : Prop :=
  ∀ existing, storage.get? key = some existing → existing = content

/-- No object of the first storage is changed in the second one. -/
def Extends (storage after : MemoryPackageStorage) : Prop :=
  ∀ key bytes, storage.get? key = some bytes → after.get? key = some bytes

theorem Extends.refl (storage : MemoryPackageStorage) : Extends storage storage := fun _ _ h => h

theorem Extends.trans {first second third : MemoryPackageStorage} (h : Extends first second)
    (h' : Extends second third) : Extends first third := fun key bytes hget => h' key bytes (h key bytes hget)

theorem get?_append (storage : MemoryPackageStorage) (key : String) (content : Bytes) (other : String) :
    MemoryPackageStorage.get? { objects := storage.objects ++ [(key, content)] } other =
      (storage.get? other).or (if other = key then some content else none) := by
  rw [get?, get?, List.lookup_append, List.lookup_cons]
  by_cases hkey : other = key
  · rw [if_pos hkey, beq_iff_eq.mpr hkey]
  · rw [if_neg hkey, beq_eq_false_iff_ne.mpr hkey, List.lookup_nil]

/-- What one write does to the objects, whether it returns or raises. -/
theorem write_extends (key : String) (content : Bytes) (storage : MemoryPackageStorage) :
    let after := ((writeBytesIdempotent rt key content).exec storage).2
    Extends storage after ∧ ∀ other bytes, after.get? other = some bytes →
      storage.get? other = some bytes ∨ (other = key ∧ bytes = content) := by
  unfold writeBytesIdempotent
  rw [Prog.exec_act]
  cases hget : storage.get? key with
  | some existing =>
      dsimp only
      split_ifs
      · exact ⟨Extends.refl storage, fun other bytes h => .inl h⟩
      · exact ⟨Extends.refl storage, fun other bytes h => .inl h⟩
  | none =>
      refine ⟨fun other bytes h => ?_, fun other bytes h => ?_⟩
      · rw [get?_append, h, Option.some_or]
      · rw [get?_append] at h
        cases hother : storage.get? other with
        | some stored =>
            rw [hother, Option.some_or] at h
            exact .inl h
        | none =>
            rw [hother, Option.none_or] at h
            split_ifs at h with hkey
            exact .inr ⟨hkey, (Option.some.inj h).symm⟩

/-- A write under a key where nothing else is stored returns, and the content is there. -/
theorem write_free {key : String} {content : Bytes} {storage : MemoryPackageStorage}
    (hfree : Free storage key content) :
    ∃ written after, (writeBytesIdempotent rt key content).exec storage =
      (.ok ⟨sha256Bytes rt content, content.length, written⟩, after) ∧
      after.get? key = some content := by
  unfold writeBytesIdempotent
  rw [Prog.exec_act]
  cases hget : storage.get? key with
  | some existing =>
      obtain rfl := hfree existing hget
      dsimp only
      rw [if_neg (not_not.mpr rfl)]
      exact ⟨false, storage, rfl, hget⟩
  | none =>
      refine ⟨true, _, rfl, ?_⟩
      rw [get?_append, hget, Option.none_or, if_pos rfl]

/-- A write of what is already stored changes nothing. -/
theorem write_stored {key : String} {content : Bytes} {storage : MemoryPackageStorage}
    (hstored : storage.get? key = some content) :
    (writeBytesIdempotent rt key content).exec storage =
      (.ok ⟨sha256Bytes rt content, content.length, false⟩, storage) := by
  unfold writeBytesIdempotent
  rw [Prog.exec_act, hstored]
  dsimp only
  rw [if_neg (not_not.mpr rfl)]

/-! ## Extraction -/

section Extraction

variable {segment : String} {content : Bytes}

/-- The loop of `process_sat_package`. -/
def extractAll (rt : Runtime) (segment : String) (content : Bytes) (members : List (String × Bytes)) :
    Prog MemoryPackageStorage PackageFault (List ExtractedPackageEntry) :=
  Prog.collect members fun member => do
    let entryWrite ← writeBytesIdempotent rt (entryKey rt segment content member.1) member.2
    pure (extractedEntry rt segment content member entryWrite.written)

/-- An entry as a repeated call reports it. -/
def ExtractedPackageEntry.unwritten (entry : ExtractedPackageEntry) : ExtractedPackageEntry :=
  { entry with written := false }

theorem extractAll_free (hsegment : SafeSegment segment) {members : List (String × Bytes)}
    (hnodup : (members.map Prod.fst).Nodup) {storage : MemoryPackageStorage}
    (hfree : ∀ member ∈ members, Free storage (entryKey rt segment content member.1) member.2) :
    ∃ entries after, (extractAll rt segment content members).exec storage = (.ok entries, after) ∧
      Extends storage after ∧
      (∀ member ∈ members, after.get? (entryKey rt segment content member.1) = some member.2) ∧
      entries.map ExtractedPackageEntry.unwritten =
        members.map fun member => extractedEntry rt segment content member false := by
  induction members generalizing storage with
  | nil => exact ⟨[], storage, rfl, Extends.refl storage, fun _ h => absurd h List.not_mem_nil, rfl⟩
  | cons member rest ih =>
      rw [List.map_cons, List.nodup_cons] at hnodup
      obtain ⟨written, next, hwrite, hstored⟩ :=
        @write_free rt _ _ _ (hfree member List.mem_cons_self)
      have hcourse := @write_extends rt (entryKey rt segment content member.1) member.2 storage
      rw [hwrite] at hcourse
      obtain ⟨hextends, honly⟩ := hcourse
      -- the keys of the other members are different, and stay free
      have hrest : ∀ other ∈ rest, Free next (entryKey rt segment content other.1) other.2 := by
        intro other hother existing hget
        rcases honly _ _ hget with hbefore | ⟨hkey, -⟩
        · exact hfree other (List.mem_cons_of_mem member hother) existing hbefore
        · have hname := (entryKey_injective hsegment hsegment hkey).2
          exact absurd (List.mem_map.mpr ⟨other, hother, hname⟩) hnodup.1
      obtain ⟨entries, after, hexec, hafter, hall, hentries⟩ := ih hnodup.2 hrest
      refine ⟨extractedEntry rt segment content member written :: entries, after, ?_,
        hextends.trans hafter, ?_, ?_⟩
      · rw [extractAll, Prog.collect_cons, Prog.exec_bind, Prog.exec_bind, hwrite, Prog.follow_ok,
          Prog.exec_pure, Prog.follow_ok, Prog.exec_bind]
        rw [extractAll] at hexec
        rw [hexec]
        rfl
      · intro other hother
        rcases List.mem_cons.mp hother with rfl | hother
        · exact hafter _ _ hstored
        · exact hall other hother
      · rw [List.map_cons, List.map_cons, hentries]
        rfl

theorem extractAll_stored {members : List (String × Bytes)} {storage : MemoryPackageStorage}
    (hstored : ∀ member ∈ members,
      storage.get? (entryKey rt segment content member.1) = some member.2) :
    (extractAll rt segment content members).exec storage =
      (.ok (members.map fun member => extractedEntry rt segment content member false), storage) := by
  induction members with
  | nil => rfl
  | cons member rest ih =>
      have hrest := ih fun other hother => hstored other (List.mem_cons_of_mem member hother)
      rw [extractAll] at hrest
      rw [extractAll, Prog.collect_cons, Prog.exec_bind, Prog.exec_bind,
        write_stored (hstored member List.mem_cons_self), Prog.follow_ok, Prog.exec_pure,
        Prog.follow_ok, Prog.exec_bind, hrest]
      rfl

end Extraction

/-! ## The members of an archive -/

section Members

variable {allowed : List String} {content : Bytes}

/-- The normalised name and the bytes of an entry. -/
def listed (info : ZipInfo) : String × Option Bytes := (asPosix (parts info.filename), info.read.toOption)

theorem collectMembers_ok {seen : List String} {infolist : List ZipInfo} {members : List (String × Bytes)}
    (h : collectMembers rt allowed seen infolist = .ok members) :
    infolist.map listed = members.map (fun member => (member.1, some member.2)) ∧
      (∀ member ∈ members, ∃ info ∈ infolist, SafeName rt allowed info.filename member.1) ∧
      (members.map fun member => rt.lower member.1).Nodup ∧
      ∀ member ∈ members, rt.lower member.1 ∉ seen := by
  induction infolist generalizing seen members with
  | nil =>
      cases h
      exact ⟨rfl, fun _ h => absurd h List.not_mem_nil, List.nodup_nil,
        fun _ h => absurd h List.not_mem_nil⟩
  | cons info rest ih =>
      rw [collectMembers] at h
      obtain ⟨name, hname, h⟩ := Checked.bind_eq_ok.mp h
      dsimp only at h
      split_ifs at h with hseen
      obtain ⟨data, hdata, h⟩ := Checked.bind_eq_ok.mp h
      obtain ⟨others, hothers, h⟩ := Checked.bind_eq_ok.mp h
      obtain rfl := Checked.pure_eq_ok.mp h
      obtain ⟨hlisted, hnamed, hnodup, hfresh⟩ := ih hothers
      have hsafe := validateMemberName_ok hname
      have hread : info.read.toOption = some data := by
        cases hread : info.read with
        | error e =>
            rw [hread] at hdata
            cases hdata
        | ok bytes =>
            rw [hread] at hdata
            cases hdata
            rfl
      refine ⟨?_, ?_, ?_, ?_⟩
      · rw [List.map_cons, List.map_cons, hlisted, listed, hread, hsafe.normalised]
      · intro member hmember
        rcases List.mem_cons.mp hmember with rfl | hmember
        · exact ⟨info, List.mem_cons_self, hsafe⟩
        · obtain ⟨source, hsource, hsafe'⟩ := hnamed member hmember
          exact ⟨source, List.mem_cons_of_mem info hsource, hsafe'⟩
      · rw [List.map_cons, List.nodup_cons]
        refine ⟨fun hmem => ?_, hnodup⟩
        obtain ⟨other, hother, hlower⟩ := List.mem_map.mp hmem
        exact hfresh other hother (hlower ▸ List.mem_cons_self)
      · intro member hmember
        rcases List.mem_cons.mp hmember with rfl | hmember
        · exact hseen
        · exact fun hmem => hfresh member hmember (List.mem_cons_of_mem _ hmem)

/-- The members of an archive that is accepted: one for each entry, under different names. -/
structure Members (rt : Runtime) (openZip : Bytes → Except ZipFault (List ZipInfo))
    (allowed : List String) (content : Bytes) (members : List (String × Bytes)) : Prop where
  infolist : ∃ infolist, openZip content = .ok infolist ∧
    (members.map fun member => (member.1, some member.2)).Perm (infolist.map listed) ∧
    ∀ member ∈ members, ∃ info ∈ infolist, SafeName rt allowed info.filename member.1
  nodup : (members.map Prod.fst).Nodup

theorem safeMembers_ok {members : List (String × Bytes)}
    (h : safeMembers rt openZip content allowed = .ok members) :
    Members rt openZip allowed content members := by
  rw [safeMembers] at h
  obtain ⟨-, -, h⟩ := Checked.bind_eq_ok.mp h
  obtain ⟨infolist, hopen, h⟩ := Checked.bind_eq_ok.mp h
  obtain ⟨unsorted, hunsorted, h⟩ := Checked.bind_eq_ok.mp h
  obtain rfl := Checked.pure_eq_ok.mp h
  obtain ⟨hlisted, hnamed, hnodup, -⟩ := collectMembers_ok hunsorted
  have hperm := List.mergeSort_perm unsorted fun a b => decide (a.1 ≤ b.1)
  have hzip : openZip content = .ok infolist := by
    cases hzip : openZip content with
    | error e =>
        rw [hzip] at hopen
        cases hopen
    | ok infos =>
        rw [hzip] at hopen
        cases hopen
        rfl
  refine ⟨⟨infolist, hzip, ?_, fun member hmember => hnamed member (hperm.subset hmember)⟩, ?_⟩
  · rw [hlisted]
    exact hperm.map _
  · rw [(hperm.map Prod.fst).nodup_iff]
    refine List.Nodup.of_map rt.lower ?_
    rwa [List.map_map]

/-- Some entry of the archive has this normalised name and these bytes. -/
def ArchiveMember (openZip : Bytes → Except ZipFault (List ZipInfo)) (content : Bytes) (name : String)
    (bytes : Bytes) : Prop :=
  ∃ infolist, openZip content = .ok infolist ∧ (name, some bytes) ∈ infolist.map listed

variable {members : List (String × Bytes)}

theorem Members.archived (h : Members rt openZip allowed content members) {member : String × Bytes}
    (hmember : member ∈ members) : ArchiveMember openZip content member.1 member.2 := by
  obtain ⟨infolist, hopen, hperm, -⟩ := h.infolist
  exact ⟨infolist, hopen, hperm.subset (List.mem_map.mpr ⟨member, hmember, rfl⟩)⟩

/-- An accepted archive has one entry for each name. -/
theorem Members.unique (h : Members rt openZip allowed content members) {member : String × Bytes}
    (hmember : member ∈ members) {bytes : Bytes} (hbytes : ArchiveMember openZip content member.1 bytes) :
    bytes = member.2 := by
  obtain ⟨infolist, hopen, hperm, -⟩ := h.infolist
  obtain ⟨infolist', hopen', hentry⟩ := hbytes
  rw [hopen] at hopen'
  cases hopen'
  obtain ⟨other, hother, hpair⟩ := List.mem_map.mp (hperm.symm.subset hentry)
  obtain ⟨hname, hdata⟩ := Prod.mk.inj hpair
  have hsame := List.inj_on_of_nodup_map h.nodup hother hmember hname
  rw [← Option.some.inj hdata, hsame]

end Members

/-! ## Calls -/

/-- A call of `process_sat_package`. -/
structure PackageCall where
  packageId : String
  content : Bytes
  allowed : List String := []

namespace PackageCall

/-- `allowed_extensions or _ALLOWED_EXTENSIONS` -/
def extensions (call : PackageCall) : List String :=
  if call.allowed = [] then allowedExtensions else call.allowed

def process (rt : Runtime) (openZip : Bytes → Except ZipFault (List ZipInfo)) (call : PackageCall) :
    Prog MemoryPackageStorage PackageFault ProcessedPackage :=
  processSatPackage rt openZip (memoryStorage rt) call.packageId call.content call.allowed

/-- What a call does with an archive that is accepted. -/
def store (rt : Runtime) (call : PackageCall) (segment : String) (members : List (String × Bytes)) :
    Prog MemoryPackageStorage PackageFault ProcessedPackage := do
  let packageWrite ← writeBytesIdempotent rt (packageKey rt segment call.content) call.content
  let entries ← extractAll rt segment call.content members
  pure {
    packageId := call.packageId
    sha256 := sha256Bytes rt call.content
    size := call.content.length
    packageStorageKey := packageKey rt segment call.content
    packageWritten := packageWrite.written
    entries := entries }

/-- A call raises before it has touched the storage, or stores an accepted archive. -/
theorem process_course (call : PackageCall) :
    (∃ e, ∀ storage, (call.process rt openZip).exec storage = (.error e, storage)) ∨
    ∃ segment members, safeKeySegment call.packageId = .ok segment ∧
      Members rt openZip call.extensions call.content members ∧
      ∀ storage, (call.process rt openZip).exec storage = (call.store rt segment members).exec storage := by
  cases hsegment : safeKeySegment call.packageId with
  | error e =>
      refine .inl ⟨e, fun storage => ?_⟩
      unfold process processSatPackage
      rw [hsegment, Prog.exec_bind, Prog.exec_ofExcept, Prog.follow_error]
  | ok segment =>
      cases hmembers : safeMembers rt openZip call.content call.extensions with
      | error e =>
          refine .inl ⟨e, fun storage => ?_⟩
          unfold process processSatPackage
          rw [hsegment, Prog.exec_bind, Prog.exec_ofExcept, Prog.follow_ok]
          rw [extensions] at hmembers
          rw [hmembers, Prog.exec_bind, Prog.exec_ofExcept, Prog.follow_error]
      | ok members =>
          refine .inr ⟨segment, members, rfl, safeMembers_ok hmembers, fun storage => ?_⟩
          unfold process processSatPackage
          rw [hsegment, Prog.exec_bind, Prog.exec_ofExcept, Prog.follow_ok]
          rw [extensions] at hmembers
          rw [hmembers, Prog.exec_bind, Prog.exec_ofExcept, Prog.follow_ok]
          rfl

end PackageCall

/-- The storage after a sequence of calls, each of which may return or raise. -/
def processAll (rt : Runtime) (openZip : Bytes → Except ZipFault (List ZipInfo))
    (calls : List PackageCall) (storage : MemoryPackageStorage) : MemoryPackageStorage :=
  calls.foldl (fun storage call => ((call.process rt openZip).exec storage).2) storage

/-! ## What the storage holds -/

section Filed

variable {contents : List Bytes} {base : MemoryPackageStorage}

/-- The bytes that belong under a key: a content, or a member of a content. -/
def Known (rt : Runtime) (openZip : Bytes → Except ZipFault (List ZipInfo)) (contents : List Bytes)
    (key : String) (bytes : Bytes) : Prop :=
  ∃ segment content, content ∈ contents ∧ SafeSegment segment ∧
    ((key = packageKey rt segment content ∧ bytes = content) ∨
      ∃ name, key = entryKey rt segment content name ∧ ArchiveMember openZip content name bytes)

/-- Every object belongs under its key. -/
def Filed (rt : Runtime) (openZip : Bytes → Except ZipFault (List ZipInfo)) (contents : List Bytes)
    (storage : MemoryPackageStorage) : Prop :=
  ∀ key bytes, storage.get? key = some bytes → Known rt openZip contents key bytes

/-- What the writes of a call keep, the call keeps. -/
theorem PackageCall.process_rule {I : MemoryPackageStorage → Prop} (call : PackageCall)
    (hpackage : ∀ segment, SafeSegment segment →
      Keeps I (writeBytesIdempotent rt (packageKey rt segment call.content) call.content))
    (hentry : ∀ segment name bytes, SafeSegment segment → ArchiveMember openZip call.content name bytes →
      Keeps I (writeBytesIdempotent rt (entryKey rt segment call.content name) bytes)) :
    Keeps I (call.process rt openZip) := by
  rcases @PackageCall.process_course rt openZip call with
    ⟨e, hraises⟩ | ⟨segment, members, hsegment, hmembers, hstores⟩
  · intro storage hstorage
    rw [hraises storage]
    exact hstorage
  · have hsafe := safeKeySegment_safe hsegment
    intro storage hstorage
    rw [hstores storage]
    refine Keeps.bind (hpackage segment hsafe)
      (fun _ => Keeps.bind (Keeps.collect fun member hmember => ?_) fun _ => Keeps.pure _) storage hstorage
    exact Keeps.bind (hentry segment member.1 member.2 hsafe (hmembers.archived hmember))
      fun _ => Keeps.pure _

theorem write_filed {key : String} {content : Bytes} (hknown : Known rt openZip contents key content) :
    Keeps (Filed rt openZip contents) (writeBytesIdempotent rt key content) := by
  intro storage hfiled
  have honly := (@write_extends rt key content storage).2
  have hall : Filed rt openZip contents ((writeBytesIdempotent rt key content).exec storage).2 := by
    intro other bytes hget
    rcases honly other bytes hget with hbefore | ⟨rfl, rfl⟩
    · exact hfiled other bytes hbefore
    · exact hknown
  rcases hx : (writeBytesIdempotent rt key content).exec storage with ⟨e | a, after⟩ <;>
  · rw [hx] at hall
    exact hall

theorem PackageCall.process_filed (call : PackageCall) (hcontent : call.content ∈ contents) :
    Keeps (Filed rt openZip contents) (call.process rt openZip) :=
  call.process_rule
    (fun segment hsafe => write_filed ⟨segment, call.content, hcontent, hsafe, .inl ⟨rfl, rfl⟩⟩)
    fun segment name _ hsafe hmember =>
      write_filed ⟨segment, call.content, hcontent, hsafe, .inr ⟨name, rfl, hmember⟩⟩

/-- The objects of a storage are still there after a call. -/
theorem PackageCall.process_extends (call : PackageCall) :
    Keeps (Extends base) (call.process rt openZip) := by
  have hwrite : ∀ key content, Keeps (Extends base) (writeBytesIdempotent rt key content) := by
    intro key content storage hextends
    have hafter := (@write_extends rt key content storage).1
    rcases hx : (writeBytesIdempotent rt key content).exec storage with ⟨e | a, after⟩ <;>
    · rw [hx] at hafter
      exact hextends.trans hafter
  exact call.process_rule (fun _ _ => hwrite _ _) fun _ _ _ _ _ => hwrite _ _

end Filed

/-- What every call keeps, a sequence of calls keeps. -/
theorem processAll_keeps {I : MemoryPackageStorage → Prop} {calls : List PackageCall}
    (hcalls : ∀ call ∈ calls, Keeps I (call.process rt openZip)) {storage : MemoryPackageStorage}
    (h : I storage) : I (processAll rt openZip calls storage) := by
  induction calls generalizing storage with
  | nil => exact h
  | cons call rest ih =>
      exact ih (fun other hother => hcalls other (List.mem_cons_of_mem call hother))
        ((hcalls call List.mem_cons_self).final h)

theorem processAll_filed {contents : List Bytes} {calls : List PackageCall}
    (hcalls : ∀ call ∈ calls, call.content ∈ contents) :
    Filed rt openZip contents (processAll rt openZip calls {}) := by
  refine processAll_keeps (fun call hcall => call.process_filed (hcalls call hcall)) fun key bytes hget => ?_
  rw [get?, List.lookup_nil] at hget
  cases hget

theorem processAll_extends (calls : List PackageCall) (storage : MemoryPackageStorage) :
    Extends storage (processAll rt openZip calls storage) :=
  processAll_keeps (fun call _ => call.process_extends) (Extends.refl storage)

/-! ## All or nothing -/

/-- The twelve digits tell contents apart. -/
def Separate (rt : Runtime) (contents : List Bytes) : Prop :=
  ∀ content ∈ contents, ∀ other ∈ contents, sha12 rt content = sha12 rt other → content = other

section Stored

variable {contents : List Bytes} {content : Bytes} {segment : String} {allowed : List String}
variable {members : List (String × Bytes)} {storage : MemoryPackageStorage}

theorem packageKey_free (hseparate : Separate rt contents) (hcontent : content ∈ contents)
    (hsegment : SafeSegment segment) (hfiled : Filed rt openZip contents storage) :
    Free storage (packageKey rt segment content) content := by
  intro existing hget
  obtain ⟨segment', content', hcontent', hsegment', ⟨hkey, rfl⟩ | ⟨name, hkey, -⟩⟩ := hfiled _ _ hget
  · exact hseparate _ hcontent' _ hcontent (packageKey_injective hsegment hsegment' hkey).symm
  · exact absurd hkey (packageKey_ne_entryKey hsegment hsegment' _ _ _)

theorem entryKey_free (hseparate : Separate rt contents) (hcontent : content ∈ contents)
    (hsegment : SafeSegment segment) (hmembers : Members rt openZip allowed content members)
    (hfiled : Filed rt openZip contents storage) {member : String × Bytes} (hmember : member ∈ members) :
    Free storage (entryKey rt segment content member.1) member.2 := by
  intro existing hget
  obtain ⟨segment', content', hcontent', hsegment', ⟨hkey, -⟩ | ⟨name, hkey, harchived⟩⟩ := hfiled _ _ hget
  · exact absurd hkey.symm (packageKey_ne_entryKey hsegment' hsegment _ _ _)
  · obtain ⟨hsha, rfl⟩ := entryKey_injective hsegment hsegment' hkey
    obtain rfl := hseparate _ hcontent _ hcontent' hsha
    exact hmembers.unique hmember harchived

end Stored

/-- What a call that returns has stored, and what it reports. -/
structure StoredPackage (rt : Runtime) (openZip : Bytes → Except ZipFault (List ZipInfo))
    (call : PackageCall) (before after : MemoryPackageStorage) (result : ProcessedPackage) : Prop where
  package : ∃ segment, safeKeySegment call.packageId = .ok segment ∧
    result.packageStorageKey = packageKey rt segment call.content ∧
    ∀ entry ∈ result.entries, entry.storageKey = entryKey rt segment call.content entry.name
  stored : after.get? result.packageStorageKey = some call.content
  members : ∃ infolist, openZip call.content = .ok infolist ∧
    (result.entries.map fun entry => (entry.name, after.get? entry.storageKey)).Perm
      (infolist.map listed)
  distinct : (result.packageStorageKey :: result.entries.map ExtractedPackageEntry.storageKey).Nodup
  extension : ∀ entry ∈ result.entries, rt.lower (suffix (parts entry.name)) ∈ call.extensions
  safe : rt.lower "" ∉ call.extensions →
    ∀ entry ∈ result.entries, ∀ part ∈ splits entry.storageKey, SafeComponent part
  unchanged : Extends before after

/-- The result of a call that finds everything stored. -/
def ProcessedPackage.unwritten (result : ProcessedPackage) : ProcessedPackage :=
  { result with packageWritten := false, entries := result.entries.map ExtractedPackageEntry.unwritten }

section Result

variable {call : PackageCall} {segment : String} {members : List (String × Bytes)}
variable {before after : MemoryPackageStorage} {result : ProcessedPackage}

/-- An accepted archive whose keys are free is stored. -/
theorem store_free (hsegment : safeKeySegment call.packageId = .ok segment)
    (hmembers : Members rt openZip call.extensions call.content members)
    (hpackage : Free before (packageKey rt segment call.content) call.content)
    (hentries : ∀ member ∈ members,
      Free before (entryKey rt segment call.content member.1) member.2) :
    ∃ result after, (call.store rt segment members).exec before = (.ok result, after) ∧
      Extends before after ∧ after.get? (packageKey rt segment call.content) = some call.content ∧
      (∀ member ∈ members, after.get? (entryKey rt segment call.content member.1) = some member.2) ∧
      ∃ packageWritten entries, result =
          ⟨call.packageId, sha256Bytes rt call.content, call.content.length,
            packageKey rt segment call.content, packageWritten, entries⟩ ∧
        entries.map ExtractedPackageEntry.unwritten =
          members.map fun member => extractedEntry rt segment call.content member false := by
  have hsafe := safeKeySegment_safe hsegment
  obtain ⟨written, next, hwrite, hstored⟩ := @write_free rt _ _ _ hpackage
  have hcourse := @write_extends rt (packageKey rt segment call.content) call.content before
  rw [hwrite] at hcourse
  obtain ⟨hextends, honly⟩ := hcourse
  -- the key of the package is not that of a member
  have hrest : ∀ member ∈ members, Free next (entryKey rt segment call.content member.1) member.2 := by
    intro member hmember existing hget
    rcases honly _ _ hget with hbefore | ⟨hkey, -⟩
    · exact hentries member hmember existing hbefore
    · exact absurd hkey.symm (packageKey_ne_entryKey hsafe hsafe _ _ _)
  obtain ⟨entries, after, hexec, hafter, hall, hunwritten⟩ := extractAll_free hsafe hmembers.nodup hrest
  refine ⟨_, after, ?_, hextends.trans hafter, hafter _ _ hstored, hall, written, entries, rfl, hunwritten⟩
  rw [PackageCall.store, Prog.exec_bind_ok hwrite, Prog.exec_bind_ok hexec, Prog.exec_pure]

/-- An archive that is stored already is stored again without a write. -/
theorem store_stored {storage : MemoryPackageStorage}
    (hpackage : storage.get? (packageKey rt segment call.content) = some call.content)
    (hentries : ∀ member ∈ members,
      storage.get? (entryKey rt segment call.content member.1) = some member.2) :
    (call.store rt segment members).exec storage = (.ok
      ⟨call.packageId, sha256Bytes rt call.content, call.content.length,
        packageKey rt segment call.content, false,
        members.map fun member => extractedEntry rt segment call.content member false⟩, storage) := by
  rw [PackageCall.store, Prog.exec_bind_ok (write_stored hpackage),
    Prog.exec_bind_ok (extractAll_stored hentries), Prog.exec_pure]

/-- What does not look at the flag of an entry reads the entries as the members. -/
theorem map_entries {β : Type} {entries : List ExtractedPackageEntry}
    (hentries : entries.map ExtractedPackageEntry.unwritten =
      members.map fun member => extractedEntry rt segment call.content member false)
    {f : ExtractedPackageEntry → β} (hf : ∀ entry, f entry.unwritten = f entry) :
    entries.map f = members.map fun member => f (extractedEntry rt segment call.content member false) := by
  have hmap := congrArg (List.map f) hentries
  rw [List.map_map, List.map_map] at hmap
  rw [← List.map_congr_left fun entry _ => hf entry]
  exact hmap

theorem parts_name {allowed : List String} {rawName name : String} (h : SafeName rt allowed rawName name) :
    parts name = parts rawName := by
  by_cases hne : parts rawName = []
  · rw [h.normalised, asPosix, if_pos hne, hne]
    decide
  · rw [parts, h.splits hne, List.filter_eq_self]
    exact fun part hpart => (List.mem_filter.mp hpart).2

theorem storedPackage {packageWritten : Bool} {entries : List ExtractedPackageEntry}
    (hsegment : safeKeySegment call.packageId = .ok segment)
    (hmembers : Members rt openZip call.extensions call.content members)
    (hextends : Extends before after)
    (hpackage : after.get? (packageKey rt segment call.content) = some call.content)
    (hall : ∀ member ∈ members, after.get? (entryKey rt segment call.content member.1) = some member.2)
    (hentries : entries.map ExtractedPackageEntry.unwritten =
      members.map fun member => extractedEntry rt segment call.content member false) :
    StoredPackage rt openZip call before after ⟨call.packageId, sha256Bytes rt call.content,
      call.content.length, packageKey rt segment call.content, packageWritten, entries⟩ := by
  have hsafe := safeKeySegment_safe hsegment
  obtain ⟨infolist, hopen, hperm, hnamed⟩ := hmembers.infolist
  -- each entry is that of a member
  have hentry : ∀ entry ∈ entries, ∃ member ∈ members, entry.name = member.1 ∧
      entry.storageKey = entryKey rt segment call.content member.1 := by
    intro entry hentry
    have hmem : entry.unwritten ∈ entries.map ExtractedPackageEntry.unwritten :=
      List.mem_map_of_mem hentry
    rw [hentries] at hmem
    obtain ⟨member, hmember, heq⟩ := List.mem_map.mp hmem
    exact ⟨member, hmember, (congrArg ExtractedPackageEntry.name heq).symm,
      (congrArg ExtractedPackageEntry.storageKey heq).symm⟩
  refine ⟨⟨segment, hsegment, rfl, fun entry h => ?_⟩, hpackage, ⟨infolist, hopen, ?_⟩, ?_,
    fun entry h => ?_, fun hextension entry h => ?_, hextends⟩
  · obtain ⟨member, -, hname, hkey⟩ := hentry entry h
    rw [hkey, hname]
  · rw [map_entries hentries fun _ => rfl]
    refine List.Perm.trans (List.Perm.of_eq (List.map_congr_left fun member hmember => ?_)) hperm
    exact congrArg (Prod.mk member.1) (hall member hmember)
  · refine List.nodup_cons.mpr ⟨fun hmem => ?_, ?_⟩
    · obtain ⟨entry, h, hkey⟩ := List.mem_map.mp hmem
      obtain ⟨member, -, -, hkey'⟩ := hentry entry h
      exact packageKey_ne_entryKey hsafe hsafe _ _ _ (hkey.symm.trans hkey')
    · rw [map_entries hentries fun _ => rfl]
      have hnodup := hmembers.nodup
      rw [List.Nodup, List.pairwise_map] at hnodup ⊢
      exact hnodup.imp fun hne hkey => hne (entryKey_injective hsafe hsafe hkey).2
  · obtain ⟨member, hmember, hname, -⟩ := hentry entry h
    obtain ⟨info, -, hsafeName⟩ := hnamed member hmember
    rw [hname, parts_name hsafeName]
    exact hsafeName.extension
  · obtain ⟨member, hmember, -, hkey⟩ := hentry entry h
    obtain ⟨info, -, hsafeName⟩ := hnamed member hmember
    rw [hkey]
    refine entryKey_safe hsafe _ hsafeName fun hnil => hextension ?_
    have hsuffix := hsafeName.extension
    rw [hnil] at hsuffix
    exact hsuffix

end Result

/-- After any calls on an empty storage whose contents, with that of the next call, are told
apart by their twelve digits, the next call raises and changes nothing, or it stores the
package and its members.  Then the same call, at any later time, returns the same and
writes nothing. -/
theorem process_all_or_nothing (rt : Runtime) (openZip : Bytes → Except ZipFault (List ZipInfo))
    (earlier later : List PackageCall) (call : PackageCall)
    (hseparate : Separate rt ((earlier ++ [call]).map PackageCall.content)) :
    let before := processAll rt openZip earlier {}
    (∃ e, (call.process rt openZip).exec before = (.error e, before)) ∨
    ∃ result after, (call.process rt openZip).exec before = (.ok result, after) ∧
      StoredPackage rt openZip call before after result ∧
      (call.process rt openZip).exec (processAll rt openZip later after) =
        (.ok result.unwritten, processAll rt openZip later after) := by
  intro before
  rcases @PackageCall.process_course rt openZip call with
    ⟨e, hraises⟩ | ⟨segment, members, hsegment, hmembers, hstores⟩
  · exact .inl ⟨e, hraises before⟩
  · right
    have hsafe := safeKeySegment_safe hsegment
    have hcontent : call.content ∈ (earlier ++ [call]).map PackageCall.content :=
      List.mem_map_of_mem (List.mem_append_right _ List.mem_cons_self)
    have hfiled : Filed rt openZip ((earlier ++ [call]).map PackageCall.content) before :=
      processAll_filed fun other hother => List.mem_map_of_mem (List.mem_append_left _ hother)
    obtain ⟨result, after, hexec, hextends, hpackage, hall, written, entries, rfl, hentries⟩ :=
      store_free hsegment hmembers (packageKey_free hseparate hcontent hsafe hfiled)
        fun member hmember => entryKey_free hseparate hcontent hsafe hmembers hfiled hmember
    refine ⟨_, after, (hstores before).trans hexec,
      storedPackage hsegment hmembers hextends hpackage hall hentries, ?_⟩
    have hlater := @processAll_extends rt openZip later after
    rw [hstores, store_stored (hlater _ _ hpackage) fun member hmember => hlater _ _ (hall member hmember),
      ProcessedPackage.unwritten, hentries]

/-- A host that tells no contents apart. -/
def plainHost : Runtime where
  sha256Text _ := 0
  sha256Bytes _ := 0
  upper := id
  lower := Text.lower
  alnum c := c.isAlphanum

/-- Any bytes are an archive with one text file. -/
def oneTextZip (content : Bytes) : Except ZipFault (List ZipInfo) :=
  .ok [⟨"metadata/./list.TXT", false, .ok content⟩]

def sampleCall : PackageCall := ⟨" pkg/1 ", [1, 2, 3], [".txt"]⟩

theorem process_all_or_nothing_sample : ∃ result after,
    (sampleCall.process plainHost oneTextZip).exec {} = (.ok result, after) ∧
      StoredPackage plainHost oneTextZip sampleCall {} after result := by
  have hseparate : Separate plainHost (([] ++ [sampleCall]).map PackageCall.content) := by
    intro content hcontent other hother _
    rw [List.mem_singleton.mp hcontent, List.mem_singleton.mp hother]
  rcases process_all_or_nothing plainHost oneTextZip [] [] sampleCall hseparate with
    ⟨e, hraises⟩ | ⟨result, after, hexec, hstored, -⟩
  · have hreturns : ((sampleCall.process plainHost oneTextZip).exec {}).1.toBool = true := by decide +kernel
    have hfails := congrArg (fun r => r.1.toBool) hraises
    rw [show ((sampleCall.process plainHost oneTextZip).exec {}).1.toBool = false from hfails] at hreturns
    cases hreturns
  · exact ⟨result, after, hexec, hstored⟩

end PackageProcessor

end CfdiVault
