import CfdiVault.EvidenceWrites
import CfdiVault.PackageDownload
import CfdiVault.PackageMemory

/-!
# The raw package of a live download

`_run_live_package_download_smoke` with the processor and the local storage it really
uses.  SAT counts the download as soon as it was answered, but the content is stored only
after the archive has passed its validation: `package_kept_iff` says when the raw package
is kept.
-/

namespace CfdiVault

namespace PackageProcessor

open PosixPath

/-! ## Paths of keys -/

theorem components_safe {key : String} (h : ∀ part ∈ splits key, SafeComponent part) :
    Recovery.LocalStorage.components key = splits key := by
  -- no backslash is replaced, and no slash is stripped
  have hback : key.toList.map (fun c => if c = '\\' then '/' else c) = key.toList := by
    refine (List.map_congr_left fun c hc => ?_).trans (List.map_id _)
    rw [← joined_splits key] at hc
    refine if_neg ?_
    rintro rfl
    rcases mem_joined hc with hslash | ⟨part, hpart, hc⟩
    · exact absurd hslash (by decide)
    · exact (h part hpart).backslash hc
  have hstrip : key.toList.dropWhile (fun c => decide (c = '/')) = key.toList := by
    cases hkey : key.toList with
    | nil => rfl
    | cons head rest =>
        refine List.dropWhile_cons_of_neg fun hhead => ?_
        rw [of_decide_eq_true hhead] at hkey
        exact (h "" (splits_slash hkey)).nonempty rfl
  have hparts : ∀ chars ∈ key.toList.splitOn '/', ¬ (chars = [] ∨ chars = ['.']) := by
    rintro chars hchars (rfl | rfl)
    · exact (h _ (List.mem_map_of_mem hchars)).nonempty rfl
    · exact (h _ (List.mem_map_of_mem hchars)).here rfl
  rw [Recovery.LocalStorage.components, hback, hstrip, splits]
  change (key.toList.splitOn '/').filterMap _ = _
  rw [← List.filterMap_eq_map]
  exact List.filterMap_congr fun chars hchars => if_neg (hparts chars hchars)

theorem resolve_safe (parts : List String) (h : ∀ part ∈ parts, part ≠ "..") (here : List String) :
    Recovery.LocalStorage.resolve here parts = here ++ parts := by
  induction parts generalizing here with
  | nil => rw [Recovery.LocalStorage.resolve, List.append_nil]
  | cons part rest ih =>
      rw [Recovery.LocalStorage.resolve, if_neg (h part List.mem_cons_self),
        ih fun other hother => h other (List.mem_cons_of_mem part hother), List.append_assoc,
        List.singleton_append]

/-- A key of safe components stands for the path below the root that is spelled the same. -/
theorem pathForKey_safe (storage : Recovery.LocalStorage) {key : String}
    (h : ∀ part ∈ splits key, SafeComponent part) :
    storage.pathForKey key = .ok (storage.root ++ key) := by
  have hparent : ∀ part ∈ (splits key).dropLast, part ≠ ".." := fun part hpart =>
    (h part (List.dropLast_subset _ hpart)).parent
  have hprefix : storage.resolvedRoot.isPrefixOf
      (storage.resolvedRoot ++ (splits key).dropLast) = true := by
    rw [List.isPrefixOf_iff_prefix]
    exact List.prefix_append _ _
  have hjoined := joined_splits key
  rw [Recovery.LocalStorage.pathForKey, components_safe h]
  have hne := splits_ne_nil key
  generalize splits key = parts at hparent hprefix hjoined hne
  cases parts with
  | nil => exact absurd rfl hne
  | cons first rest =>
      dsimp only
      rw [resolve_safe _ hparent, if_pos hprefix]
      exact congrArg (fun text => Except.ok (storage.root ++ text)) hjoined

theorem packageKey_path (storage : Recovery.LocalStorage) (rt : Runtime) {segment : String}
    (h : SafeSegment segment) (content : Bytes) :
    storage.pathForKey (packageKey rt segment content) =
      .ok (storage.root ++ packageKey rt segment content) := by
  refine pathForKey_safe storage fun part hpart => ?_
  rw [packageKey_splits h] at hpart
  rcases List.mem_cons.mp hpart with rfl | hpart
  · exact ⟨by decide, by decide, by decide, by decide, by decide⟩
  · rw [List.mem_singleton.mp hpart]
    have hzip : 'z' ∈ (folder rt segment content ++ ".zip").toList := by
      rw [String.toList_append]
      exact List.mem_append_right _ (by decide)
    refine ⟨?_, ?_, ?_, fun hc => (packageFile_chars h content _ hc).1 rfl,
      fun hc => (packageFile_chars h content _ hc).2 rfl⟩ <;>
    · intro heq
      rw [heq] at hzip
      exact absurd hzip (by decide)

/-! ## The command on the local storage -/

section Download

open LiveRequestState LiveCommands PackageDownload

/-- An exception of the download, by origin. -/
inductive DownloadFault where
  | cli (fault : CliFault)
  | package (fault : PackageFault)
  | host (fault : Recovery.Fault)

/-- The profile's storage directory, and the state file with the history of the command. -/
structure DownloadWorld where
  disk : Recovery.World
  package : PackageWorld

abbrev DownloadProg := Prog DownloadWorld DownloadFault

variable {α : Type}

/-- A program on the storage directory. -/
def onDisk {ε : Type} (fault : ε → DownloadFault) (p : Prog Recovery.World ε α) : DownloadProg α :=
  Prog.act fun w => ((p.exec w.disk).1.mapError fault, { w with disk := (p.exec w.disk).2 })

/-- A program on the state file. -/
def onState (p : PackageProg α) : DownloadProg α :=
  Prog.act fun w => ((p.exec w.package).1.mapError .cli, { w with package := (p.exec w.package).2 })

variable (host : Recovery.Env) (openZip : Bytes → Except ZipFault (List ZipInfo))

/-- The message of a fault of the storage; it has no other faults. -/
def storageMessage : Recovery.Fault → String
  | .storage message => message
  | _ => ""

/-- `LocalStorage` as the processor uses it. -/
def localStorage : PackageStorage Recovery.World where
  writeBytesIdempotent key content :=
    Prog.adapt (fun fault => .storage (storageMessage fault)) do
      let file ← Recovery.writeBytesIdempotent host key content
      pure ⟨file.sha256, file.sizeBytes, file.written⟩

/-- `storage.path_for_key(key).read_bytes()` -/
def readStored (key : String) : Recovery.Recovery Bytes := do
  let path ← Recovery.storageStep (host.storage.pathForKey key)
  let file ← Recovery.disk host (·.file? path)
  match file with
  | some bytes => pure bytes
  | none => throw (.storage "no such file")

/-- `_parse_extracted_metadata_txt`: accepted and rejected rows. -/
def parseExtractedMetadataTxt (entries : List ExtractedPackageEntry) (sourcePackageId : String) :
    Recovery.Recovery (List (Nat × Nat)) :=
  Prog.collect (entries.filter fun entry => entry.kind = "txt") fun entry => do
    let content ← readStored host entry.storageKey
    let parsed ← Prog.ofExcept ((host.parseMetadata content none sourcePackageId).mapError .metadataFile)
    pure (parsed.entries.length, parsed.invalidRows.length)

variable (env : LiveEnv) (ports : PackagePorts)

/-- `_run_live_package_download_smoke` -/
def runLivePackageDownloadSmoke (profileId : String) (record : LiveMetadataRequestRecord)
    (packageId packageRef : String) : DownloadProg PackageDownloadCliResult := do
  let _ ← onState (Prog.ofExcept (env.loadProfile profileId))
  let download ← onState (askDownloader ports packageId)
  match finishedContent download with
  | none => pure (emptyResult host.rt record packageRef download)
  | some content => do
      let _ ← onState (Prog.ofExcept (env.loadProfile profileId))
      let processed ← onDisk .package
        (processSatPackage host.rt openZip (localStorage host) packageId content [".txt"])
      let rows ← onDisk .host (parseExtractedMetadataTxt host processed.entries packageId)
      let updated := markDownloaded (env.clock 0) record
      onState (storeRecord host.rt updated)
      pure {
        emptyResult host.rt record packageRef download with
        packageSizeBytes := processed.size
        zipValid := true
        txtFiles := (processed.entries.filter fun entry => entry.kind = "txt").length
        metadataAcceptedCount := (rows.map Prod.fst).sum
        metadataRejectedCount := (rows.map Prod.snd).sum
        statusAfter := updated.status }

/-! ## When the package is kept -/

/-- The raw package is stored under its key. -/
def Kept (packageId : String) (content : Bytes) (w : Recovery.World) : Prop :=
  ∃ segment, safeKeySegment packageId = .ok segment ∧
    Recovery.Holding (host.storage.root ++ packageKey host.rt segment content) content w

/-- The package passes its validation: its id makes a segment, and its archive holds text
files with safe names only. -/
def Accepted (packageId : String) (content : Bytes) (segment : String) : Prop :=
  safeKeySegment packageId = .ok segment ∧
    ∃ members, safeMembers host.rt openZip content [".txt"] = .ok members

variable {host openZip env ports}

theorem localStorage_holding {path key : String} {stored content : Bytes} :
    Keeps (Recovery.Holding path stored) ((localStorage host).writeBytesIdempotent key content) := by
  intro w hw
  have hkeeps : Keeps (Recovery.Holding path stored) (do
      let file ← Recovery.writeBytesIdempotent host key content
      pure (⟨file.sha256, file.sizeBytes, file.written⟩ : StoredBytes)) :=
    Keeps.bind Recovery.writeBytesIdempotent_holding fun _ => Keeps.pure _
  have hfinal := hkeeps.final hw
  rw [localStorage, Prog.exec_adapt]
  rcases hx : Prog.exec _ w with ⟨e | a, v⟩ <;> rw [hx] at hfinal <;> exact hfinal

variable {packageId : String} {content : Bytes} {segment : String}

/-- A package that is not accepted is rejected before anything is stored. -/
theorem process_rejected (hrejected : ∀ segment, ¬ Accepted host openZip packageId content segment)
    (w : Recovery.World) :
    ((processSatPackage host.rt openZip (localStorage host) packageId content [".txt"]).exec w).2 = w := by
  unfold processSatPackage
  cases hsegment : safeKeySegment packageId with
  | error e => rw [Prog.exec_bind, Prog.exec_ofExcept, Prog.follow_error]
  | ok segment =>
      rw [Prog.exec_bind, Prog.exec_ofExcept, Prog.follow_ok, if_neg (List.cons_ne_nil _ _)]
      cases hmembers : safeMembers host.rt openZip content [".txt"] with
      | error e => rw [Prog.exec_bind, Prog.exec_ofExcept, Prog.follow_error]
      | ok members => exact absurd ⟨hsegment, members, hmembers⟩ (hrejected segment)

theorem process_holding {path : String} {stored : Bytes} :
    Keeps (Recovery.Holding path stored)
      (processSatPackage host.rt openZip (localStorage host) packageId content [".txt"]) :=
  Keeps.bind (Keeps.ofExcept _) fun _ => Keeps.bind (Keeps.ofExcept _) fun _ =>
    Keeps.bind localStorage_holding fun _ =>
      Keeps.bind (Keeps.collect fun _ _ => Keeps.bind localStorage_holding fun _ => Keeps.pure _)
        fun _ => Keeps.pure _

/-- A package that is accepted is at its path afterwards if nothing else was there. -/
theorem process_accepted (haccepted : Accepted host openZip packageId content segment)
    (hdisk : ∀ n, host.diskFails n = none) (w : Recovery.World) :
    Recovery.Holding (host.storage.root ++ packageKey host.rt segment content) content
        ((processSatPackage host.rt openZip (localStorage host) packageId content [".txt"]).exec w).2 ↔
      Recovery.Holding (host.storage.root ++ packageKey host.rt segment content) content w ∨
        w.file? (host.storage.root ++ packageKey host.rt segment content) = none := by
  obtain ⟨hsegment, members, hmembers⟩ := haccepted
  have hpath := packageKey_path host.storage host.rt (safeKeySegment_safe hsegment) content
  generalize host.storage.root ++ packageKey host.rt segment content = path at hpath ⊢
  constructor
  · intro hafter
    cases hfile : w.file? path with
    | none => exact .inr rfl
    | some bytes =>
        -- what is at the path stays there
        have hkept : Recovery.Holding path bytes
            ((processSatPackage host.rt openZip (localStorage host) packageId content [".txt"]).exec w).2 :=
          process_holding.final hfile
        exact .inl (hfile.trans (hkept.symm.trans hafter))
  · rintro (hbefore | hnone)
    · exact process_holding.final hbefore
    · obtain ⟨⟨file, hok⟩, hstored⟩ := Recovery.write_fresh hpath hnone fun n _ => hdisk n
      rcases hwrite : (Recovery.writeBytesIdempotent host (packageKey host.rt segment content) content).exec w
        with ⟨outcome, v⟩
      rw [hwrite] at hok hstored
      cases hok
      have hport : ((localStorage host).writeBytesIdempotent (packageKey host.rt segment content)
          content).exec w = (.ok ⟨file.sha256, file.sizeBytes, file.written⟩, v) := by
        rw [localStorage, Prog.exec_adapt, Prog.exec_bind_ok hwrite]
        rfl
      unfold processSatPackage
      rw [hsegment, Prog.exec_bind, Prog.exec_ofExcept, Prog.follow_ok, if_neg (List.cons_ne_nil _ _),
        hmembers, Prog.exec_bind, Prog.exec_ofExcept, Prog.follow_ok, Prog.exec_bind_ok hport]
      exact (Keeps.bind (Keeps.collect fun _ _ => Keeps.bind localStorage_holding fun _ => Keeps.pure _)
        fun _ => Keeps.pure _).final hstored

/-! ## The command keeps what the processor stored -/

theorem readStored_files {files : List (String × Bytes)} {key : String} :
    Keeps (fun w : Recovery.World => w.files = files) (readStored host key) := by
  refine Keeps.bind (Keeps.ofExcept _) fun path =>
    Keeps.bind (Recovery.disk_files (fun _ h _ => h) fun _ h _ => h) fun file => ?_
  cases file with
  | some bytes => exact Keeps.pure _
  | none => exact Keeps.throw _

theorem parse_files {files : List (String × Bytes)} {entries : List ExtractedPackageEntry} :
    Keeps (fun w : Recovery.World => w.files = files)
      (parseExtractedMetadataTxt host entries packageId) :=
  Keeps.collect fun _ _ => Keeps.bind readStored_files fun _ =>
    Keeps.bind (Keeps.ofExcept _) fun _ => Keeps.pure _

theorem onState_disk {p : PackageProg α} {files : List (String × Bytes)} :
    Keeps (fun w : DownloadWorld => w.disk.files = files) (onState p) := by
  intro w hw
  rw [onState, Prog.exec_act]
  cases (p.exec w.package).1 <;> exact hw

theorem onDisk_keeps {ε : Type} {fault : ε → DownloadFault} {p : Prog Recovery.World ε α}
    {I : Recovery.World → Prop} (h : Keeps I p) :
    Keeps (fun w : DownloadWorld => I w.disk) (onDisk fault p) := by
  intro w hw
  have hfinal := h.final hw
  rw [onDisk, Prog.exec_act]
  rcases hx : p.exec w.disk with ⟨e | a, v⟩ <;>
  · rw [hx] at hfinal
    exact hfinal

/-- After a download with content the files are those the processor leaves. -/
theorem run_files {profileId packageRef : String} {record : LiveMetadataRequestRecord} {w : DownloadWorld}
    (hprofile : ∃ localProfile, env.loadProfile profileId = .ok localProfile)
    {download : SatDownloadResult} (hasked : ports.download w.package.trace packageId = .ok download)
    (hcontent : finishedContent download = some content) :
    ((runLivePackageDownloadSmoke host openZip env ports profileId record packageId packageRef).exec
        w).2.disk.files =
      ((processSatPackage host.rt openZip (localStorage host) packageId content [".txt"]).exec
        w.disk).2.files := by
  obtain ⟨localProfile, hload⟩ := hprofile
  have hloads : ∀ v, (onState (Prog.ofExcept (env.loadProfile profileId))).exec v = (.ok localProfile, v) := by
    intro v
    rw [onState, Prog.exec_act, hload, Prog.exec_ofExcept]
    rfl
  have hask : (onState (askDownloader ports packageId)).exec w =
      (.ok download, { w with package := { w.package with trace := w.package.trace ++ [.asked packageId] } }) := by
    rw [onState, Prog.exec_act, askDownloader, Prog.exec_bind, Prog.exec_get, Prog.follow_ok, Prog.exec_bind,
      Prog.exec_set, Prog.follow_ok, Prog.exec_ofExcept, hasked]
    rfl
  unfold runLivePackageDownloadSmoke
  rw [Prog.exec_bind_ok (hloads w), Prog.exec_bind_ok hask, hcontent]
  dsimp only
  rw [Prog.exec_bind_ok (hloads _), Prog.exec_bind, onDisk, Prog.exec_act]
  dsimp only
  rcases (processSatPackage host.rt openZip (localStorage host) packageId content [".txt"]).exec w.disk
    with ⟨e | processed, v⟩
  · rfl
  · -- parsing and the state file leave the storage as it is
    exact (Keeps.bind (onDisk_keeps parse_files) fun _ =>
      Keeps.bind onState_disk fun _ => Keeps.pure _).final rfl

/-- A finished download whose content came is followed by the storage of the raw package,
on a disk that works, exactly if the package was stored before, or if it is accepted and
its path is free.  A package that is not accepted leaves no trace in the storage. -/
theorem package_kept_iff {profileId packageRef : String} {record : LiveMetadataRequestRecord}
    {w : DownloadWorld} (hprofile : ∃ localProfile, env.loadProfile profileId = .ok localProfile)
    {download : SatDownloadResult} (hasked : ports.download w.package.trace packageId = .ok download)
    (hcontent : finishedContent download = some content) (hdisk : ∀ n, host.diskFails n = none) :
    let after := ((runLivePackageDownloadSmoke host openZip env ports profileId record packageId
      packageRef).exec w).2.disk
    (Kept host packageId content after ↔ Kept host packageId content w.disk ∨
      ∃ segment, Accepted host openZip packageId content segment ∧
        w.disk.file? (host.storage.root ++ packageKey host.rt segment content) = none) ∧
    ((∀ segment, ¬ Accepted host openZip packageId content segment) → after.files = w.disk.files) := by
  intro after
  have hfiles : after.files = _ := run_files hprofile hasked hcontent
  have hrejected : (∀ segment, ¬ Accepted host openZip packageId content segment) →
      after.files = w.disk.files := fun hnone => by rw [hfiles, process_rejected hnone]
  have hfile : ∀ path stored, Recovery.Holding path stored after ↔ Recovery.Holding path stored
      ((processSatPackage host.rt openZip (localStorage host) packageId content [".txt"]).exec w.disk).2 := by
    intro path stored
    rw [Recovery.Holding, Recovery.World.file?, hfiles]
    rfl
  refine ⟨?_, hrejected⟩
  by_cases haccepted : ∃ segment, Accepted host openZip packageId content segment
  · obtain ⟨segment, haccepted⟩ := haccepted
    have hcourse := process_accepted haccepted hdisk w.disk
    have honly : ∀ other, safeKeySegment packageId = .ok other → other = segment := fun other hother =>
      Except.ok.inj (hother.symm.trans haccepted.1)
    constructor
    · rintro ⟨other, hother, hholding⟩
      obtain rfl := honly other hother
      exact (hcourse.mp ((hfile _ _).mp hholding)).imp (fun h => ⟨other, hother, h⟩)
        fun h => ⟨other, haccepted, h⟩
    · rintro (⟨other, hother, hholding⟩ | ⟨other, hother, hnone⟩)
      · obtain rfl := honly other hother
        exact ⟨other, hother, (hfile _ _).mpr (hcourse.mpr (.inl hholding))⟩
      · obtain rfl := honly other hother.1
        exact ⟨other, hother.1, (hfile _ _).mpr (hcourse.mpr (.inr hnone))⟩
  · have hnone : ∀ segment, ¬ Accepted host openZip packageId content segment := fun segment h =>
      haccepted ⟨segment, h⟩
    have hsame : Kept host packageId content after ↔ Kept host packageId content w.disk := by
      unfold Kept Recovery.Holding Recovery.World.file?
      rw [hrejected hnone]
    rw [hsame]
    refine ⟨Or.inl, fun h => h.resolve_right ?_⟩
    rintro ⟨segment, hsegment, -⟩
    exact hnone segment hsegment

/-! ## A package that is no archive -/

/-- The storage of a profile, empty. -/
def sampleHost : Recovery.Env := { Recovery.sampleEnv [] with rt := sampleRuntime }

def emptyWorld : DownloadWorld := ⟨Recovery.sampleWorld {}, sampleWorld⟩

/-- The two bytes `PK` make no archive. -/
def notAZip (_ : Bytes) : Except ZipFault (List ZipInfo) := .error .invalid

theorem package_kept_iff_sample : Kept sampleHost "PKG-1" [0x50, 0x4B]
    ((runLivePackageDownloadSmoke sampleHost oneTextZip (readyEnv 63842386800000000) samplePorts "default"
      sampleRecord "PKG-1" "pkg-7766f9142903").exec emptyWorld).2.disk :=
  (package_kept_iff (w := emptyWorld) ⟨_, rfl⟩ rfl rfl (fun _ => rfl)).1.mpr
    (.inr ⟨"PKG-1", ⟨by decide +kernel, [("metadata/list.TXT", [0x50, 0x4B])], by decide +kernel⟩,
      by decide +kernel⟩)

/-- The content of a finished download is rejected, and nothing is stored. -/
theorem rejected_package_lost :
    ¬ ∀ (host : Recovery.Env) (openZip : Bytes → Except ZipFault (List ZipInfo)) (env : LiveEnv)
      (ports : PackagePorts) (profileId packageId packageRef : String)
      (record : LiveMetadataRequestRecord) (w : DownloadWorld) (download : SatDownloadResult)
      (content : Bytes), record.status = PACKAGE_READY →
      (∃ localProfile, env.loadProfile profileId = .ok localProfile) →
      ports.download w.package.trace packageId = .ok download →
      finishedContent download = some content → (∀ n, host.diskFails n = none) →
      ∃ path, Recovery.Holding path content ((runLivePackageDownloadSmoke host openZip env ports profileId
        record packageId packageRef).exec w).2.disk := by
  intro h
  obtain ⟨path, hholding⟩ := h sampleHost notAZip (readyEnv 63842386800000000) samplePorts "default" "PKG-1"
    "pkg-7766f9142903" sampleRecord emptyWorld _ [0x50, 0x4B] rfl ⟨_, rfl⟩ rfl rfl fun _ => rfl
  have hnone : ((runLivePackageDownloadSmoke sampleHost notAZip (readyEnv 63842386800000000) samplePorts
      "default" sampleRecord "PKG-1" "pkg-7766f9142903").exec emptyWorld).2.disk.files = [] := by
    decide +kernel
  rw [Recovery.Holding, Recovery.World.file?, hnone] at hholding
  cases hholding

end Download

end PackageProcessor

end CfdiVault
