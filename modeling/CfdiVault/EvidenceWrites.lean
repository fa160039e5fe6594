import CfdiVault.RecoveryXml

/-!
# Writing evidence once

`write_bytes_idempotent` writes a file only where there is none, and compares digests
where there is one.  `writeBytesIdempotent_course` lists what one call can do; the rest
of the module reads off it.

* `evidence_immutable` — over any sequence of key constructions and writes, the bytes
  behind a returned path stay what they are and match the record that was returned.
* `retry_iff` — a write that is interrupted leaves part of its content behind, and the
  retry finds a file with another digest at its path.
-/

namespace CfdiVault

namespace Recovery

variable {env : Env}

/-! ## One call -/

/-- The message of a write that finds other bytes at its path. -/
def collisionMessage (path : String) : String :=
  "storage collision for " ++ path ++ ": existing SHA-256 differs"

/-- The courses of a call with a path: how it ends, and which files there are then. -/
inductive WriteCourse (env : Env) (path : String) (content : Bytes) (w : World) :
    Except Fault StoredFile → List (String × Bytes) → Prop where
  | /-- The file could not be looked up. -/
    unread (hfails : env.diskFails w.diskOps ≠ none) :
      WriteCourse env path content w (.error (.storage "disk")) w.files
  | reused (bytes : Bytes) (hfile : w.file? path = some bytes)
      (hsame : sha256Bytes env bytes = sha256Bytes env content) :
      WriteCourse env path content w
        (.ok ⟨path, sha256Bytes env content, bytes.length, false⟩) w.files
  | collided (bytes : Bytes) (hfile : w.file? path = some bytes)
      (hdiffers : sha256Bytes env bytes ≠ sha256Bytes env content) :
      WriteCourse env path content w (.error (.storage (collisionMessage path))) w.files
  | interrupted (n : Nat) (hfile : w.file? path = none)
      (hfails : env.diskFails (w.diskOps + 1) = some n) :
      WriteCourse env path content w (.error (.storage "disk")) ((path, content.take n) :: w.files)
  | written (hfile : w.file? path = none) :
      WriteCourse env path content w
        (.ok ⟨path, sha256Bytes env content, content.length, true⟩) ((path, content) :: w.files)

theorem writeBytesIdempotent_course {key path : String} (hpath : env.storage.pathForKey key = .ok path)
    (content : Bytes) (w : World) :
    WriteCourse env path content w ((writeBytesIdempotent env key content).exec w).1
      ((writeBytesIdempotent env key content).exec w).2.files := by
  unfold writeBytesIdempotent storageStep disk
  rw [hpath, Prog.exec_bind, Prog.exec_ofExcept]
  change WriteCourse env path content w (Prog.exec (_ >>= _) w).1 (Prog.exec (_ >>= _) w).2.files
  rw [Prog.exec_bind, Prog.exec_act]
  cases hfirst : env.diskFails w.diskOps with
  | some n => exact .unread (by rw [hfirst]; exact Option.some_ne_none n)
  | none =>
    rw [Prog.follow_ok]
    dsimp only
    cases hfile : w.file? path with
    | some bytes =>
        change WriteCourse env path content w (Prog.exec (Prog.raiseIf _ _ >>= _) _).1
          (World.files (Prog.exec (Prog.raiseIf _ _ >>= _) _).2)
        rw [Prog.exec_bind]
        by_cases hsame : sha256Bytes env bytes = sha256Bytes env content
        · rw [Prog.exec_raiseIf_neg (not_not.mpr hsame)]
          exact .reused bytes hfile hsame
        · rw [Prog.exec_raiseIf_pos hsame]
          exact .collided bytes hfile hsame
    | none =>
        change WriteCourse env path content w (Prog.exec (writeFile env path content >>= _) _).1
          (World.files (Prog.exec (writeFile env path content >>= _) _).2)
        unfold writeFile
        rw [Prog.exec_bind, Prog.exec_act]
        dsimp only
        cases hsecond : env.diskFails (w.diskOps + 1) with
        | some n => exact .interrupted n hfile hsecond
        | none => exact .written hfile

/-- A key that does not resolve to a path below the root raises before anything is done. -/
theorem writeBytesIdempotent_unresolved {key message : String}
    (hpath : env.storage.pathForKey key = .error message) (content : Bytes) (w : World) :
    (writeBytesIdempotent env key content).exec w = (.error (.storage message), w) := by
  unfold writeBytesIdempotent storageStep
  rw [hpath, Prog.exec_bind, Prog.exec_ofExcept]
  rfl

/-- The path of a key, for a call that did not raise while resolving it. -/
theorem pathForKey_of_ok {key : String} {content : Bytes} {w : World} {file : StoredFile}
    (h : ((writeBytesIdempotent env key content).exec w).1 = .ok file) :
    ∃ path, env.storage.pathForKey key = .ok path := by
  cases hpath : env.storage.pathForKey key with
  | error message =>
      rw [writeBytesIdempotent_unresolved hpath] at h
      cases h
  | ok path => exact ⟨path, rfl⟩

section Course

variable {path : String} {content : Bytes} {w v : World} {file : StoredFile}

theorem holding_head {files : List (String × Bytes)} (h : v.files = (path, content) :: files) :
    Holding path content v := by
  rw [Holding, World.file?, h, List.lookup_cons_self]

/-- A record describes the bytes that are at its path now. -/
theorem WriteCourse.record (h : WriteCourse env path content w (.ok file) v.files) :
    file.path = path ∧ ∃ bytes, Holding path bytes v ∧ file.sha256 = sha256Bytes env bytes ∧
      file.sizeBytes = bytes.length ∧ sha256Bytes env bytes = sha256Bytes env content := by
  generalize hfiles : v.files = files at h
  cases h with
  | reused bytes hfile hsame =>
      refine ⟨rfl, bytes, ?_, hsame.symm, rfl, hsame⟩
      rw [Holding, World.file?, hfiles]
      exact hfile
  | written hfile => exact ⟨rfl, content, holding_head hfiles, rfl, rfl, rfl⟩

theorem length_collisionMessage (path : String) : 4 < (collisionMessage path).length := by
  have hlong : "storage collision for ".length = 22 := by decide
  unfold collisionMessage
  simp only [String.length_append, hlong]
  omega

theorem collisionMessage_ne_disk (path : String) : ¬ collisionMessage path = "disk" := by
  intro h
  have hlong := length_collisionMessage path
  rw [h] at hlong
  exact absurd hlong (by decide)

theorem WriteCourse.files_of_collision {other : String} {files : List (String × Bytes)}
    (h : WriteCourse env path content w (.error (.storage (collisionMessage other))) files) :
    files = w.files := by
  generalize houtcome : (Except.error (Fault.storage (collisionMessage other)) : Except Fault StoredFile) =
    outcome at h
  cases h with
  | unread hfails => rfl
  | reused bytes hfile hsame => cases houtcome
  | collided bytes hfile hdiffers => rfl
  | interrupted n hfile hfails =>
      have hdisk := Fault.storage.inj (Except.error.inj houtcome)
      exact absurd hdisk (collisionMessage_ne_disk other)
  | written hfile => cases houtcome

end Course

/-! ## Sequences of calls -/

/-- A call of the storage that recovery makes. -/
inductive EvidenceCall where
  | metadataKey (rfc : String) (period : DateTime) (idSolicitud sha256 extension : String)
  | packageKey (rfc : String) (period : DateTime) (idPaquete sha256 : String)
  | xmlKey (rfc : String) (issueDate : DateTime) (uuid sha256 : String)
  | writeBytesIdempotent (key : String) (content : Bytes)

/-- The world after a call, whether it returned or raised. -/
def EvidenceCall.perform (env : Env) (w : World) : EvidenceCall → World
  | .metadataKey rfc period idSolicitud sha256 extension =>
      ((Recovery.metadataKey env rfc period idSolicitud sha256 extension).exec w).2
  | .packageKey rfc period idPaquete sha256 => ((Recovery.packageKey env rfc period idPaquete sha256).exec w).2
  | .xmlKey rfc issueDate uuid sha256 => ((Recovery.xmlKey env rfc issueDate uuid sha256).exec w).2
  | .writeBytesIdempotent key content => ((Recovery.writeBytesIdempotent env key content).exec w).2

/-- The world after a sequence of calls. -/
def performAll (env : Env) (calls : List EvidenceCall) (w : World) : World :=
  calls.foldl (EvidenceCall.perform env) w

section Calls

variable {path : String} {stored : Bytes}

theorem periodKey_holding {rfc family filename : String} {period : DateTime} :
    Keeps (Holding path stored) (periodKey env rfc family period filename) :=
  Keeps.bind (Keeps.ofExcept _) fun _ => Keeps.bind disk_holding fun _ => Keeps.pure _

/-- No call changes the bytes of a file that is there. -/
theorem EvidenceCall.holding (call : EvidenceCall) {w : World} (h : Holding path stored w) :
    Holding path stored (call.perform env w) := by
  cases call with
  | metadataKey rfc period idSolicitud sha256 extension =>
      exact (Keeps.bind (Keeps.ofExcept _) fun _ => periodKey_holding).final h
  | packageKey rfc period idPaquete sha256 =>
      exact (Keeps.bind (Keeps.ofExcept _) fun _ => periodKey_holding).final h
  | xmlKey rfc issueDate uuid sha256 => exact xmlKey_holding.final h
  | writeBytesIdempotent key content => exact writeBytesIdempotent_holding.final h

theorem performAll_holding (calls : List EvidenceCall) {w : World} (h : Holding path stored w) :
    Holding path stored (performAll env calls w) := by
  induction calls generalizing w with
  | nil => exact h
  | cons call rest ih => exact ih (call.holding h)

end Calls

/-- After any sequence of calls, a write that returns has recorded the digest and the size
of the bytes at its path; no later sequence changes these bytes, and a later write that
returns the same path had a content with the same digest.  A write that raises the
collision error leaves the files as they were. -/
theorem evidence_immutable (env : Env) (w : World) (calls : List EvidenceCall) (key : String)
    (content : Bytes) :
    let before := performAll env calls w
    let outcome := ((writeBytesIdempotent env key content).exec before).1
    let after := ((writeBytesIdempotent env key content).exec before).2
    (∀ file, outcome = .ok file → ∃ bytes, Holding file.path bytes after ∧
      file.sha256 = sha256Bytes env bytes ∧ file.sizeBytes = bytes.length ∧
      sha256Bytes env bytes = sha256Bytes env content ∧
      ∀ later, Holding file.path bytes (performAll env later after) ∧
        ∀ key' content' file',
          ((writeBytesIdempotent env key' content').exec (performAll env later after)).1 = .ok file' →
          file'.path = file.path → sha256Bytes env content' = sha256Bytes env content) ∧
    ∀ path, outcome = .error (.storage (collisionMessage path)) → after.files = before.files := by
  intro before outcome after
  refine ⟨fun file hok => ?_, fun path hcollision => ?_⟩
  · obtain ⟨path, hpath⟩ := pathForKey_of_ok hok
    have hcourse := writeBytesIdempotent_course hpath content before
    rw [show ((writeBytesIdempotent env key content).exec before).1 = .ok file from hok] at hcourse
    obtain ⟨rfl, bytes, hholding, hsha, hsize, hsame⟩ := hcourse.record
    refine ⟨bytes, hholding, hsha, hsize, hsame, fun later => ?_⟩
    have hlater := @performAll_holding env _ _ later _ hholding
    refine ⟨hlater, fun key' content' file' hok' hfile => ?_⟩
    obtain ⟨path', hpath'⟩ := pathForKey_of_ok hok'
    have hcourse' := writeBytesIdempotent_course hpath' content' (performAll env later after)
    rw [hok'] at hcourse'
    obtain ⟨rfl, bytes', hholding', -, -, hsame'⟩ := hcourse'.record
    -- the bytes at the common path are still there after the second write
    have hkept : Holding file'.path bytes
        ((writeBytesIdempotent env key' content').exec (performAll env later after)).2 := by
      rw [hfile]
      exact writeBytesIdempotent_holding.final hlater
    have hbytes : bytes' = bytes := Option.some.inj (hholding'.symm.trans hkept)
    rw [← hsame', hbytes, hsame]
  · cases hpath : env.storage.pathForKey key with
    | error message =>
        show ((writeBytesIdempotent env key content).exec before).2.files = before.files
        rw [writeBytesIdempotent_unresolved hpath]
    | ok target =>
        have hcourse := writeBytesIdempotent_course hpath content before
        rw [show ((writeBytesIdempotent env key content).exec before).1 = _ from hcollision] at hcourse
        exact hcourse.files_of_collision

/-! ## Interrupted writes -/

/-- What a call that did not get through the disk leaves at its path, where there was
nothing before: nothing, or the first bytes of the content. -/
theorem interrupted_leaves {key path : String} (hpath : env.storage.pathForKey key = .ok path)
    {content : Bytes} {w w' : World} (hfresh : w.file? path = none)
    (hinterrupted : (writeBytesIdempotent env key content).exec w = (.error (.storage "disk"), w')) :
    w'.file? path = none ∨ ∃ n, w'.file? path = some (content.take n) := by
  have hcourse := writeBytesIdempotent_course hpath content w
  rw [hinterrupted] at hcourse
  generalize houtcome : (Except.error (Fault.storage "disk") : Except Fault StoredFile) = outcome at hcourse
  generalize hfiles : w'.files = files at hcourse
  cases hcourse with
  | unread hfails =>
      left
      rw [World.file?, hfiles]
      exact hfresh
  | reused bytes hfile hsame => cases houtcome
  | collided bytes hfile hdiffers => cases hfresh.symm.trans hfile
  | interrupted n hfile hfails => exact .inr ⟨n, holding_head hfiles⟩
  | written hfile => cases houtcome

/-- On a disk that works, a write to a path where nothing is stores its content. -/
theorem write_fresh {key path : String} (hpath : env.storage.pathForKey key = .ok path)
    {content : Bytes} {v : World} (hfresh : v.file? path = none)
    (hdisk : ∀ n, v.diskOps ≤ n → env.diskFails n = none) :
    (∃ file, ((writeBytesIdempotent env key content).exec v).1 = .ok file) ∧
      Holding path content ((writeBytesIdempotent env key content).exec v).2 := by
  have hcourse := writeBytesIdempotent_course hpath content v
  generalize ((writeBytesIdempotent env key content).exec v).1 = outcome at hcourse ⊢
  generalize hfiles : ((writeBytesIdempotent env key content).exec v).2.files = files at hcourse
  cases hcourse with
  | unread hfails => exact absurd (hdisk _ (Nat.le_refl _)) hfails
  | reused bytes hfile hsame => cases hfresh.symm.trans hfile
  | collided bytes hfile hdiffers => cases hfresh.symm.trans hfile
  | interrupted n hfile hfails =>
      rw [hdisk _ (Nat.le_succ _)] at hfails
      cases hfails
  | written hfile => exact ⟨⟨_, rfl⟩, holding_head hfiles⟩

/-- A write to a path that holds its content finds it there. -/
theorem write_again {key path : String} (hpath : env.storage.pathForKey key = .ok path)
    {content : Bytes} {v : World} (hholding : Holding path content v)
    (hdisk : ∀ n, v.diskOps ≤ n → env.diskFails n = none) :
    ∃ file, ((writeBytesIdempotent env key content).exec v).1 = .ok file := by
  have hcourse := writeBytesIdempotent_course hpath content v
  generalize ((writeBytesIdempotent env key content).exec v).1 = outcome at hcourse ⊢
  generalize ((writeBytesIdempotent env key content).exec v).2.files = files at hcourse
  cases hcourse with
  | unread hfails => exact absurd (hdisk _ (Nat.le_refl _)) hfails
  | reused bytes hfile hsame => exact ⟨_, rfl⟩
  | collided bytes hfile hdiffers =>
      have hbytes : bytes = content := Option.some.inj (hfile.symm.trans hholding)
      exact absurd (congrArg (sha256Bytes env) hbytes) hdiffers
  | interrupted n hfile hfails => cases hholding.symm.trans hfile
  | written hfile => exact ⟨_, rfl⟩

/-- A write was interrupted.  The same write later, on a disk that works and with the path
as the interruption left it, returns and leaves exactly its content there if and only if
the interruption left no file or already all of the content. -/
theorem retry_iff {key path : String} (hpath : env.storage.pathForKey key = .ok path)
    {content : Bytes} {w w' v : World} (hfresh : w.file? path = none)
    (hinterrupted : (writeBytesIdempotent env key content).exec w = (.error (.storage "disk"), w'))
    (hleft : v.file? path = w'.file? path) (hdisk : ∀ n, v.diskOps ≤ n → env.diskFails n = none) :
    ((∃ file, ((writeBytesIdempotent env key content).exec v).1 = .ok file) ∧
      Holding path content ((writeBytesIdempotent env key content).exec v).2) ↔
    w'.file? path = none ∨ w'.file? path = some content := by
  constructor
  · rintro ⟨-, hstored⟩
    rcases interrupted_leaves hpath hfresh hinterrupted with hnone | ⟨n, hstart⟩
    · exact .inl hnone
    · -- the leftover is never replaced
      have hkept : Holding path (content.take n) ((writeBytesIdempotent env key content).exec v).2 :=
        writeBytesIdempotent_holding.final (hleft.trans hstart)
      rw [hstart]
      exact .inr (hkept.symm.trans hstored)
  · rintro (hnone | hwhole)
    · exact write_fresh hpath (hleft.trans hnone) hdisk
    · have hholding : Holding path content v := hleft.trans hwhole
      exact ⟨write_again hpath hholding hdisk, writeBytesIdempotent_holding.final hholding⟩

/-- The host of a storage that writes one small file: its digest and that of no bytes. -/
def cfdiBytes : Bytes := [60, 99, 102, 100, 105, 47, 62]

def digestHost : Runtime := { sampleHost with
  sha256Bytes := fun content =>
    if content = cfdiBytes then
      85213328991455283077513269648747171755405551327169037631282265048158912231405
    else if content = [] then
      102987336249554097029535212322581322789799900648198034993379397001115665086549
    else 0 }

/-- One disk operation fails: the first one, before the file is created, or the second one,
right after. -/
def stoppingEnv (failing : Nat) : Env := { sampleEnv [] with
  rt := digestHost
  diskFails := fun n => if n = failing then some 0 else none }

def cfdiKey : String := "AAA010101AAA/xml/2024/01/UUID-bc6508f82814.xml"

/-- The world an interrupted write leaves. -/
def stoppedWorld (failing : Nat) : World :=
  ((writeBytesIdempotent (stoppingEnv failing) cfdiKey cfdiBytes).exec (sampleWorld {})).2

theorem cfdiKey_path (failing : Nat) :
    (stoppingEnv failing).storage.pathForKey cfdiKey = .ok ("storage/" ++ cfdiKey) := by
  change LocalStorage.pathForKey ⟨"storage/", ["storage"]⟩ cfdiKey = _
  decide +kernel

theorem stopped_before :
    ((writeBytesIdempotent (stoppingEnv 0) cfdiKey cfdiBytes).exec (sampleWorld {})).1 =
      .error (.storage "disk") ∧ (stoppedWorld 0).diskOps = 1 := by
  decide +kernel

theorem stopped_after :
    ((writeBytesIdempotent (stoppingEnv 1) cfdiKey cfdiBytes).exec (sampleWorld {})).1 =
      .error (.storage "disk") ∧ (stoppedWorld 1).diskOps = 2 := by
  decide +kernel

/-- A write by itself, where no operation fails that it makes. -/
theorem evidence_immutable_sample : ∃ bytes,
    Holding ("storage/" ++ cfdiKey) bytes
      ((writeBytesIdempotent (stoppingEnv 2) cfdiKey cfdiBytes).exec (sampleWorld {})).2 ∧
    sha256Bytes (stoppingEnv 2) bytes = sha256Bytes (stoppingEnv 2) cfdiBytes := by
  have hok : ((writeBytesIdempotent (stoppingEnv 2) cfdiKey cfdiBytes).exec (sampleWorld {})).1 =
      .ok ⟨"storage/" ++ cfdiKey, sha256Bytes (stoppingEnv 2) cfdiBytes, 7, true⟩ := by decide +kernel
  obtain ⟨bytes, hholding, -, -, hsame, -⟩ :=
    (evidence_immutable (stoppingEnv 2) (sampleWorld {}) [] cfdiKey cfdiBytes).1 _ hok
  exact ⟨bytes, hholding, hsame⟩

theorem retry_iff_sample :
    (∃ file, ((writeBytesIdempotent (stoppingEnv 0) cfdiKey cfdiBytes).exec (stoppedWorld 0)).1 =
      .ok file) ∧ Holding ("storage/" ++ cfdiKey) cfdiBytes
        ((writeBytesIdempotent (stoppingEnv 0) cfdiKey cfdiBytes).exec (stoppedWorld 0)).2 :=
  (retry_iff (cfdiKey_path 0) (w := sampleWorld {}) rfl (Prod.ext stopped_before.1 rfl) rfl fun n hn => by
    have hlater : 1 ≤ n := stopped_before.2 ▸ hn
    exact if_neg (by omega)).mpr (.inl (by decide +kernel))

/-- The file was created and nothing was written to it: the retry collides with it. -/
theorem retry_collides :
    ¬ ∀ (env : Env) (key path : String) (content : Bytes) (w w' : World),
      env.storage.pathForKey key = .ok path → w.file? path = none →
      (writeBytesIdempotent env key content).exec w = (.error (.storage "disk"), w') →
      (∀ n, w'.diskOps ≤ n → env.diskFails n = none) →
      ∃ file, ((writeBytesIdempotent env key content).exec w').1 = .ok file := by
  intro h
  have hretry := h (stoppingEnv 1) cfdiKey ("storage/" ++ cfdiKey) cfdiBytes (sampleWorld {})
    (stoppedWorld 1) (cfdiKey_path 1) rfl (Prod.ext stopped_after.1 rfl) fun n hn => by
      have hlater : 2 ≤ n := stopped_after.2 ▸ hn
      exact if_neg (by omega)
  obtain ⟨file, hfile⟩ := hretry
  have hcollision : ((writeBytesIdempotent (stoppingEnv 1) cfdiKey cfdiBytes).exec (stoppedWorld 1)).1 =
      .error (.storage (collisionMessage ("storage/" ++ cfdiKey))) := by decide +kernel
  rw [hcollision] at hfile
  cases hfile

end Recovery

end CfdiVault
