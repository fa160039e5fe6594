import CfdiVault.SetupAtomicity

/-!
# The outcome of a setup

`run_setup` either raises and the profile is the one of before, or it returns and the
credential files, the document and the phrase are the new ones.  It returns only when no
operation of its transaction has raised.
-/

namespace CfdiVault

namespace Setup

variable {host : SetupHost} {start : SetupWorld}

/-! ## Staging -/

/-- The pending import of a selection. -/
def pendingImport (host : SetupHost) (selection : CredentialSelection) :
    CredentialMode → PendingCredentialImport
  | .referenced => ⟨selection, selection, false, [], []⟩
  | .copied =>
      let keyName := privateKeyDestination host selection
      ⟨⟨.final .certificate, .final keyName⟩, ⟨.staged .certificate, .staged keyName⟩, true, [], []⟩

theorem privateKeyDestination_ne (selection : CredentialSelection) :
    privateKeyDestination host selection ≠ .certificate := by
  unfold privateKeyDestination
  split_ifs <;> decide

/-- The selected files are pending, and the profile is as it was. -/
structure Imported (host : SetupHost) (mode : CredentialMode) (selection : CredentialSelection)
    (before start : SetupWorld) : Prop where
  pending : start.pending = pendingImport host selection mode
  credentials : ∀ path, ¬ Aside path → start.credentials path = before.credentials path
  profileJson : start.files .profileJson = before.files .profileJson
  phrases : start.phrases = before.phrases
  ops : start.ops = before.ops
  incoming : mode = .referenced → start.incoming = before.incoming
  certificate : start.credentials start.pending.stagedSelection.certificatePath =
    before.credentials selection.certificatePath
  privateKey : start.credentials start.pending.stagedSelection.privateKeyPath =
    before.credentials selection.privateKeyPath

theorem stageFile_exec {w t : SetupWorld} {source destination : CredentialPath}
    (h : (stageFile source destination).exec w = (.ok ⟨⟩, t)) :
    w.credentials source ≠ none ∧
      t = w.withCredentials (Function.update w.credentials destination (w.credentials source)) w.undoOps := by
  unfold stageFile at h
  rw [Prog.exec_act] at h
  rcases hcontent : w.files (.file source) with _ | content
  · rw [hcontent] at h
    cases h
  · rw [hcontent] at h
    have hsource : w.credentials source = some content := hcontent
    refine ⟨by rw [hsource]; rintro ⟨⟩, ?_⟩
    rw [hsource, ← setFile_file]
    exact (Prod.mk.inj h).2.symm

/-- A private key with a suffix of its own is not the staged certificate. -/
theorem privateKey_ne_staged {selection : CredentialSelection} {w : SetupWorld}
    (h : validateSelectedCredentials host w selection = .ok ⟨⟩) :
    selection.privateKeyPath ≠ .staged .certificate := by
  intro hkey
  unfold validateSelectedCredentials at h
  rw [hkey] at h
  simp [suffixOf, FinalName.suffix] at h

/-- A file that is there after `.incoming` was removed lies elsewhere. -/
theorem removeIncoming_credentials {w : SetupWorld} {path : CredentialPath}
    (h : w.removeIncoming.credentials path ≠ none) :
    w.removeIncoming.credentials path = w.credentials path :=
  if_neg fun hpath => h (if_pos hpath)

theorem stageCredentials_imported {mode : CredentialMode} {selection : CredentialSelection}
    {before start : SetupWorld} (hkey : selection.privateKeyPath ≠ .staged .certificate)
    (hrun : (stageCredentialsForAppdata host selection mode).exec before = (.ok ⟨⟩, start)) :
    Imported host mode selection before start := by
  cases mode with
  | referenced =>
      cases hrun
      exact ⟨rfl, fun _ _ => rfl, rfl, rfl, rfl, fun _ => rfl, rfl, rfl⟩
  | copied =>
      unfold stageCredentialsForAppdata at hrun
      dsimp only at hrun
      rw [Prog.exec_bind_ok (Prog.exec_modify _ _)] at hrun
      obtain ⟨_, u, hcopies, hrun⟩ := Prog.exec_bind_eq_ok.mp hrun
      obtain rfl := (Prod.mk.inj hrun).2
      have hstaged := Prog.exec_catching_eq_ok (fun fault v b t => ?_) hcopies
      · obtain ⟨_, v, hcertificate, hprivateKey⟩ := Prog.exec_bind_eq_ok.mp hstaged
        obtain ⟨hpresent, rfl⟩ := stageFile_exec hcertificate
        obtain ⟨hpresent', rfl⟩ := stageFile_exec hprivateKey
        let source := before.removeIncoming.credentials
        let first := Function.update source (.staged .certificate) (source selection.certificatePath)
        let second := Function.update first (.staged (privateKeyDestination host selection))
          (first selection.privateKeyPath)
        have hfirst : first selection.privateKeyPath = source selection.privateKeyPath :=
          Function.update_of_ne hkey ..
        refine ⟨rfl, fun path hpath => ?_, rfl, rfl, rfl, by rintro ⟨⟩, ?_, ?_⟩
        · have hstaged : ∀ name, path ≠ .staged name := by
            rintro name rfl
            exact hpath (aside_staged name)
          calc second path = first path := Function.update_of_ne (hstaged _) ..
            _ = source path := Function.update_of_ne (hstaged _) ..
            _ = before.credentials path := if_neg hpath
        · have hdistinct : CredentialPath.staged .certificate ≠
              .staged (privateKeyDestination host selection) :=
            fun hsame => privateKeyDestination_ne selection (CredentialPath.staged.inj hsame).symm
          calc second (.staged .certificate) = first (.staged .certificate) :=
                Function.update_of_ne hdistinct ..
            _ = source selection.certificatePath := Function.update_self ..
            _ = before.credentials selection.certificatePath := removeIncoming_credentials hpresent
        · have hpresent : source selection.privateKeyPath ≠ none :=
            fun habsent => hpresent' (hfirst.trans habsent)
          calc second (.staged (privateKeyDestination host selection)) = first selection.privateKeyPath :=
                Function.update_self ..
            _ = source selection.privateKeyPath := hfirst
            _ = before.credentials selection.privateKeyPath := removeIncoming_credentials hpresent
      · intro hraised
        obtain ⟨_, w, -, hthrow⟩ := Prog.exec_bind_eq_ok.mp hraised
        cases hthrow

/-- The transaction starts with the selected files pending. -/
theorem Imported.staged {mode : CredentialMode} {selection : CredentialSelection}
    {before start : SetupWorld} (h : Imported host mode selection before start) :
    Staged { start with phraseBackup := none } := by
  obtain ⟨hpending, -⟩ := h
  refine ⟨?_, rfl, ?_⟩
  · change UndoLog.mk start.pending.backups start.pending.installedFinals = {}
    rw [hpending]
    cases mode <;> rfl
  · change start.pending.tempDir = true → _
    intro htemp
    dsimp only
    rw [hpending] at htemp ⊢
    cases mode with
    | referenced => cases htemp
    | copied => exact ⟨_, privateKeyDestination_ne selection, rfl, rfl⟩

theorem prepare_ok {input : SetupInput} {profile : LocalProfile} {before start : SetupWorld}
    (h : (prepare host input).exec before = (.ok profile, start)) :
    ∃ selection, host.candidates = .ok selection ∧ Imported host input.mode selection before start ∧
      profile.certificatePath = host.pathText start.pending.finalSelection.certificatePath ∧
      profile.privateKeyPath = host.pathText start.pending.finalSelection.privateKeyPath := by
  unfold prepare at h
  obtain ⟨safeProfileId, -, h⟩ := Prog.exec_ofExcept_bind_eq_ok.mp h
  obtain ⟨normalizedRfc, -, h⟩ := Prog.exec_ofExcept_bind_eq_ok.mp h
  obtain ⟨selection, hselection, h⟩ := Prog.exec_ofExcept_bind_eq_ok.mp h
  rw [Prog.exec_bind_ok (Prog.exec_get before)] at h
  obtain ⟨_, hvalid, h⟩ := Prog.exec_ofExcept_bind_eq_ok.mp h
  obtain ⟨_, -, h⟩ := Prog.exec_ofExcept_bind_eq_ok.mp h
  obtain ⟨-, h⟩ := Prog.exec_raiseIf_bind_eq_ok.mp h
  obtain ⟨_, staged, hstage, h⟩ := Prog.exec_bind_eq_ok.mp h
  rw [Prog.exec_bind_ok (Prog.exec_get staged)] at h
  obtain ⟨fingerprint, -, h⟩ := Prog.exec_ofExcept_bind_eq_ok.mp h
  obtain ⟨hprofile, rfl⟩ := Prod.mk.inj h
  obtain rfl := Except.ok.inj hprofile
  exact ⟨selection, hselection, stageCredentials_imported (privateKey_ne_staged hvalid) hstage, rfl, rfl⟩

/-! ## A transaction that returns -/

/-- No operation between the two worlds has raised. -/
def Passed (host : SetupHost) (w t : SetupWorld) : Prop :=
  w.ops ≤ t.ops ∧ ∀ n, w.ops ≤ n → n < t.ops → host.fails n = none

section Passed

variable {w t u : SetupWorld}

theorem Passed.refl (h : t.ops = w.ops) : Passed host w t := by
  refine ⟨h.ge, fun n hfrom hto => ?_⟩
  omega

theorem Passed.trans (h : Passed host w t) (h' : Passed host t u) : Passed host w u := by
  refine ⟨h.1.trans h'.1, fun n hfrom hto => ?_⟩
  rcases Nat.lt_or_ge n t.ops with hlt | hge
  · exact h.2 n hfrom hlt
  · exact h'.2 n hge hto

theorem Passed.one (hfails : host.fails w.ops = none) (h : t.ops = w.ops + 1) : Passed host w t := by
  refine ⟨by omega, fun n hfrom hto => ?_⟩
  obtain rfl : n = w.ops := by omega
  exact hfails

end Passed

theorem operation_ok {α : Type} {step : SetupWorld → Except SetupFault α × SetupWorld}
    {trace : Failure → SetupWorld → SetupWorld} {w t : SetupWorld} {a : α}
    (h : (operation host step trace).exec w = (.ok a, t)) :
    host.fails w.ops = none ∧ step { w with ops := w.ops + 1 } = (.ok a, t) := by
  unfold operation at h
  rw [Prog.exec_act] at h
  rcases hfails : host.fails w.ops with _ | failure
  · rw [hfails] at h
    exact ⟨rfl, h⟩
  · rw [hfails] at h
    cases h

theorem replace_ok {source destination : SetupPath} {w t : SetupWorld}
    (h : (replace host source destination).exec w = (.ok ⟨⟩, t)) :
    Passed host w t ∧ t = { w with ops := w.ops + 1 }.move source destination := by
  obtain ⟨hfails, hstep⟩ := operation_ok h
  dsimp only at hstep
  split_ifs at hstep
  · cases hstep
  · obtain rfl := (Prod.mk.inj hstep).2
    exact ⟨.one hfails rfl, rfl⟩

/-- What a transaction has before it moves the document into place. -/
structure Frame (host : SetupHost) (w t : SetupWorld) : Prop where
  passed : Passed host w t
  phrases : t.phrases = w.phrases
  tmp : t.files .profileJsonTmp = w.files .profileJsonTmp
  tempDir : t.pending.tempDir = w.pending.tempDir

theorem Frame.trans {w t u : SetupWorld} (h : Frame host w t) (h' : Frame host t u) : Frame host w u :=
  ⟨h.passed.trans h'.passed, h'.phrases.trans h.phrases, h'.tmp.trans h.tmp, h'.tempDir.trans h.tempDir⟩

theorem replace_frame {source destination : CredentialPath} {w t : SetupWorld}
    (h : (replace host (.file source) (.file destination)).exec w = (.ok ⟨⟩, t)) :
    Frame host w t ∧ t.credentials = UndoLog.moved w.credentials source destination := by
  obtain ⟨hpassed, rfl⟩ := replace_ok h
  rw [move_file] at hpassed ⊢
  exact ⟨⟨hpassed, rfl, rfl, rfl⟩, rfl⟩

theorem moveAside_ok {name : FinalName} {w t : SetupWorld}
    (h : (moveAside host (.final name)).exec w = (.ok ⟨⟩, t)) :
    Frame host w t ∧ ∀ path, path ≠ .final name → path ≠ .backup name →
      t.credentials path = w.credentials path := by
  unfold moveAside at h
  rw [Prog.exec_bind_ok (Prog.exec_get _)] at h
  split_ifs at h
  · cases h
    exact ⟨⟨.refl rfl, rfl, rfl, rfl⟩, fun _ _ _ => rfl⟩
  · obtain ⟨_, u, hreplace, h⟩ := Prog.exec_bind_eq_ok.mp h
    obtain rfl := (Prod.mk.inj h).2
    obtain ⟨hframe, hcredentials⟩ := replace_frame hreplace
    refine ⟨⟨hframe.passed, hframe.phrases, hframe.tmp, hframe.tempDir⟩, fun path hfinal hbackup => ?_⟩
    exact (congrFun hcredentials path).trans (UndoLog.moved_other w.credentials hfinal hbackup)

theorem install_ok {source name : FinalName} {w t : SetupWorld}
    (h : (install host (.staged source) (.final name)).exec w = (.ok ⟨⟩, t)) :
    Frame host w t ∧ t.credentials (.final name) = w.credentials (.staged source) ∧
      ∀ path, path ≠ .final name → path ≠ .backup name → path ≠ .staged source →
        t.credentials path = w.credentials path := by
  unfold install at h
  obtain ⟨_, u, haside, h⟩ := Prog.exec_bind_eq_ok.mp h
  obtain ⟨hframe, hkept⟩ := moveAside_ok haside
  have hmoved := Prog.exec_catching_eq_ok ?_ h
  · obtain ⟨_, v, hreplace, hmodify⟩ := Prog.exec_bind_eq_ok.mp hmoved
    obtain rfl := (Prod.mk.inj hmodify).2
    obtain ⟨hframe', hcredentials⟩ := replace_frame hreplace
    refine ⟨hframe.trans ⟨hframe'.passed, hframe'.phrases, hframe'.tmp, hframe'.tempDir⟩, ?_, ?_⟩
    · calc v.credentials (.final name) = u.credentials (.staged source) :=
            (congrFun hcredentials _).trans (UndoLog.moved_destination ..)
        _ = w.credentials (.staged source) := hkept _ (by rintro ⟨⟩) (by rintro ⟨⟩)
    · intro path hfinal hbackup hstaged
      calc v.credentials path = u.credentials path :=
            (congrFun hcredentials path).trans (UndoLog.moved_other u.credentials hstaged hfinal)
        _ = w.credentials path := hkept path hfinal hbackup
  · intro fault v b s hraised
    cases fault with
    | os message =>
        obtain ⟨_, _, -, hthrow⟩ := Prog.exec_bind_eq_ok.mp hraised
        cases hthrow
    | setup errors => cases hraised
    | credential message => cases hraised
    | other message => cases hraised

theorem commit_ok {selection : CredentialSelection} {mode : CredentialMode} {w t : SetupWorld}
    (hpending : w.pending = pendingImport host selection mode)
    (h : (commit host).exec w = (.ok ⟨⟩, t)) :
    Frame host w t ∧
      t.credentials w.pending.finalSelection.certificatePath =
        w.credentials w.pending.stagedSelection.certificatePath ∧
      t.credentials w.pending.finalSelection.privateKeyPath =
        w.credentials w.pending.stagedSelection.privateKeyPath := by
  unfold commit at h
  rw [Prog.exec_bind_ok (Prog.exec_get w)] at h
  cases mode with
  | referenced =>
      have htemp : w.pending.tempDir = false := by rw [hpending]; rfl
      rw [if_pos htemp] at h
      cases h
      refine ⟨⟨.refl rfl, rfl, rfl, rfl⟩, ?_, ?_⟩ <;> rw [hpending] <;> rfl
  | copied =>
      have htemp : ¬ w.pending.tempDir = false := by
        rw [hpending]
        rintro ⟨⟩
      rw [if_neg htemp, Prog.exec_bind_ok (Prog.exec_modify _ _)] at h
      rw [hpending] at h ⊢
      obtain ⟨_, u, hcertificate, hprivateKey⟩ := Prog.exec_bind_eq_ok.mp h
      obtain ⟨hframe, hfirst, hkept⟩ := install_ok hcertificate
      obtain ⟨hframe', hsecond, hkept'⟩ := install_ok hprivateKey
      have hkey : privateKeyDestination host selection ≠ .certificate := privateKeyDestination_ne selection
      refine ⟨?_, ?_, ?_⟩
      · have hboth := hframe.trans hframe'
        exact ⟨hboth.passed, hboth.phrases, hboth.tmp, hboth.tempDir.trans (by rw [hpending])⟩
      · refine (hkept' _ ?_ (by rintro ⟨⟩) (by rintro ⟨⟩)).trans hfirst
        intro hsame
        exact hkey (CredentialPath.final.inj hsame).symm
      · refine hsecond.trans (hkept _ (by rintro ⟨⟩) (by rintro ⟨⟩) ?_)
        intro hsame
        exact hkey (CredentialPath.staged.inj hsame)

/-- What the operations on the phrase leave alone. -/
structure Still (host : SetupHost) (w t : SetupWorld) : Prop where
  passed : Passed host w t
  credentials : t.credentials = w.credentials
  pending : t.pending = w.pending
  tmp : t.files .profileJsonTmp = w.files .profileJsonTmp

theorem Still.trans {w t u : SetupWorld} (h : Still host w t) (h' : Still host t u) : Still host w u :=
  ⟨h.passed.trans h'.passed, h'.credentials.trans h.credentials, h'.pending.trans h.pending,
    h'.tmp.trans h.tmp⟩

theorem backupPhrase_ok {reference : String} {phrase : Option String} {w t : SetupWorld}
    (h : (backupPhraseForRollback host reference).exec w = (.ok phrase, t)) : Still host w t := by
  have hasked := Prog.exec_catching_eq_ok (by
    intro fault u b v hraised
    cases fault <;> cases hraised) h
  obtain ⟨stored, u, hexists, h⟩ := Prog.exec_bind_eq_ok.mp hasked
  obtain ⟨hfails, hstep⟩ := operation_ok hexists
  obtain rfl := (Prod.mk.inj hstep).2
  have hchecked : Still host w { w with ops := w.ops + 1 } := ⟨.one hfails rfl, rfl, rfl, rfl⟩
  cases stored with
  | false =>
      cases h
      exact hchecked
  | true =>
      obtain ⟨found, v, hresolve, h⟩ := Prog.exec_bind_eq_ok.mp h
      obtain rfl := (Prod.mk.inj h).2
      obtain ⟨hfails', hstep'⟩ := operation_ok hresolve
      dsimp only at hstep'
      split at hstep'
      · obtain rfl := (Prod.mk.inj hstep').2
        exact hchecked.trans ⟨.one hfails' rfl, rfl, rfl, rfl⟩
      · cases hstep'

theorem providerStore_ok {reference phrase : String} {w t : SetupWorld}
    (h : (providerStore host reference phrase).exec w = (.ok ⟨⟩, t)) :
    Still host w t ∧ t.phrases reference = some phrase := by
  obtain ⟨hfails, hstep⟩ := operation_ok h
  obtain rfl := (Prod.mk.inj hstep).2
  refine ⟨⟨.one hfails rfl, rfl, rfl, rfl⟩, ?_⟩
  change Function.update w.phrases reference (some phrase) reference = some phrase
  exact Function.update_self ..

theorem writeProfile_ok {profile : LocalProfile} {w t : SetupWorld}
    (h : (writeProfile host profile .profileJsonTmp).exec w = (.ok ⟨⟩, t)) :
    Passed host w t ∧ t.credentials = w.credentials ∧ t.pending = w.pending ∧
      t.files .profileJsonTmp = some (host.encodeDocument profile.toDocument) := by
  obtain ⟨hfails, hstep⟩ := operation_ok h
  obtain rfl := (Prod.mk.inj hstep).2
  refine ⟨.one hfails rfl, ?_, rfl, ?_⟩
  · funext path
    change Function.update w.files .profileJsonTmp (some (host.encodeDocument profile.toDocument))
      (.file path) = w.files (.file path)
    exact Function.update_of_ne (by rintro ⟨⟩) ..
  · change Function.update w.files .profileJsonTmp (some (host.encodeDocument profile.toDocument))
      .profileJsonTmp = some (host.encodeDocument profile.toDocument)
    exact Function.update_self ..

/-- The document is moved into place, and the credential files stay where they are. -/
theorem replaceProfile_ok {w t : SetupWorld}
    (h : (replace host .profileJsonTmp .profileJson).exec w = (.ok ⟨⟩, t)) :
    Passed host w t ∧ t.credentials = w.credentials ∧ t.pending = w.pending ∧ t.phrases = w.phrases ∧
      t.files .profileJson = w.files .profileJsonTmp ∧ t.files .profileJsonTmp = none := by
  obtain ⟨hpassed, rfl⟩ := replace_ok h
  refine ⟨hpassed, ?_, rfl, rfl, ?_, ?_⟩
  · funext path
    change UndoLog.moved w.files .profileJsonTmp .profileJson (.file path) = w.files (.file path)
    exact UndoLog.moved_other w.files (by rintro ⟨⟩) (by rintro ⟨⟩)
  · change UndoLog.moved w.files .profileJsonTmp .profileJson .profileJson = _
    exact UndoLog.moved_destination ..
  · change UndoLog.moved w.files .profileJsonTmp .profileJson .profileJsonTmp = none
    exact UndoLog.moved_source w.files (by rintro ⟨⟩)

theorem finalize_ok (hundo : ∀ n, host.undoFails n = none) {w t : SetupWorld}
    (h : (finalize host).exec w = (.ok ⟨⟩, t)) :
    Passed host w t ∧ (∀ path, ¬ Aside path ∨ w.pending.tempDir = false →
        t.credentials path = w.credentials path) ∧
      (∀ path, (∀ other, path ≠ .file other) → t.files path = w.files path) ∧ t.phrases = w.phrases ∧
      (w.pending.tempDir = true → NoIncoming t) := by
  unfold finalize at h
  rw [Prog.exec_bind_ok (Prog.exec_get w)] at h
  split_ifs at h with htemp
  · cases h
    refine ⟨.refl rfl, fun _ _ => rfl, fun _ _ => rfl, rfl, fun hcopied => ?_⟩
    rw [htemp] at hcopied
    cases hcopied
  · rw [Prog.exec_bind_ok (removeTree_exec hundo w), Prog.exec_modify] at h
    cases h
    refine ⟨.refl rfl, fun path hpath => ?_, fun path hpath => ?_, rfl, fun _ => ⟨rfl, fun path hpath => ?_⟩⟩
    · exact if_neg (hpath.resolve_right htemp)
    · cases path with
      | file other => exact absurd rfl (hpath other)
      | profileJson => rfl
      | profileJsonTmp => rfl
    · exact if_pos hpath

/-- The new files, document and phrase are in place, and nothing of the setup is left. -/
structure Installed (host : SetupHost) (input : SetupInput) (selection : CredentialSelection)
    (profile : LocalProfile) (before after : SetupWorld) : Prop where
  certificate :
    after.credentials (pendingImport host selection input.mode).finalSelection.certificatePath =
      before.credentials selection.certificatePath
  privateKey :
    after.credentials (pendingImport host selection input.mode).finalSelection.privateKeyPath =
      before.credentials selection.privateKeyPath
  profileJson : after.files .profileJson = some (host.encodeDocument profile.toDocument)
  phrase : after.phrases profile.phraseRef = some input.phraseValue
  noTmp : after.files .profileJsonTmp = none
  noIncoming : input.mode = .copied → NoIncoming after

/-- The final files are not in `.incoming`, unless the sources themselves are registered. -/
theorem finalSelection_kept (selection : CredentialSelection) (mode : CredentialMode) :
    (¬ Aside (pendingImport host selection mode).finalSelection.certificatePath ∨
        (pendingImport host selection mode).tempDir = false) ∧
      (¬ Aside (pendingImport host selection mode).finalSelection.privateKeyPath ∨
        (pendingImport host selection mode).tempDir = false) := by
  cases mode with
  | referenced => exact ⟨.inr rfl, .inr rfl⟩
  | copied => exact ⟨.inl (not_aside_final _), .inl (not_aside_final _)⟩

theorem transact_ok (hundo : ∀ n, host.undoFails n = none) {input : SetupInput}
    {selection : CredentialSelection} {profile : LocalProfile} {before w t : SetupWorld}
    (hpending : w.pending = pendingImport host selection input.mode)
    (hcertificate : w.credentials w.pending.stagedSelection.certificatePath =
      before.credentials selection.certificatePath)
    (hprivateKey : w.credentials w.pending.stagedSelection.privateKeyPath =
      before.credentials selection.privateKeyPath)
    (h : (transact host profile input.phraseValue).exec w = (.ok ⟨⟩, t)) :
    Passed host w t ∧ Installed host input selection profile before t := by
  unfold transact at h
  obtain ⟨_, written, hwrite, h⟩ := Prog.exec_bind_eq_ok.mp h
  obtain ⟨hpassed, hwcredentials, hwpending, hwtmp⟩ := writeProfile_ok hwrite
  obtain ⟨phrase, saved, hbackup, h⟩ := Prog.exec_bind_eq_ok.mp h
  have hsaved := backupPhrase_ok hbackup
  rw [Prog.exec_bind_ok (Prog.exec_modify _ _)] at h
  obtain ⟨_, stored, hstore, h⟩ := Prog.exec_bind_eq_ok.mp h
  obtain ⟨hstored, hphrase⟩ := providerStore_ok hstore
  have hstill : Still host written stored :=
    hsaved.trans ⟨hstored.passed, hstored.credentials, hstored.pending, hstored.tmp⟩
  have hspending : stored.pending = pendingImport host selection input.mode :=
    hstill.pending.trans (hwpending.trans hpending)
  have hscredentials : stored.credentials = w.credentials := hstill.credentials.trans hwcredentials
  obtain ⟨_, committed, hcommit, h⟩ := Prog.exec_bind_eq_ok.mp h
  obtain ⟨hframe, hfinal, hfinal'⟩ := commit_ok hspending hcommit
  obtain ⟨_, replaced, hreplace, hfinalize⟩ := Prog.exec_bind_eq_ok.mp h
  obtain ⟨hpassed', hrcredentials, hrpending, hrphrases, hrjson, hrtmp⟩ := replaceProfile_ok hreplace
  obtain ⟨hpassed'', hfcredentials, hffiles, hfphrases, hincoming⟩ := finalize_ok hundo hfinalize
  have htemp : replaced.pending.tempDir = (pendingImport host selection input.mode).tempDir := by
    rw [hrpending, hframe.tempDir, hspending]
  rw [hspending, hscredentials] at hfinal hfinal'
  rw [hpending] at hcertificate hprivateKey
  have hkept := @finalSelection_kept host selection input.mode
  rw [← htemp] at hkept
  refine ⟨((hpassed.trans hstill.passed).trans hframe.passed).trans (hpassed'.trans hpassed''), ?_⟩
  constructor
  · rw [hfcredentials _ hkept.1, hrcredentials, hfinal, hcertificate]
  · rw [hfcredentials _ hkept.2, hrcredentials, hfinal', hprivateKey]
  · rw [hffiles _ (by rintro other ⟨⟩), hrjson, hframe.tmp, hstill.tmp, hwtmp]
  · rw [hfphrases, hrphrases, hframe.phrases, hphrase]
  · rw [hffiles _ (by rintro other ⟨⟩), hrtmp]
  · intro hmode
    refine hincoming ?_
    rw [htemp, hmode]
    rfl

/-! ## The setup -/

theorem Imported.restored {mode : CredentialMode} {selection : CredentialSelection}
    {before start after : SetupWorld} (h : Imported host mode selection before start)
    (hrestored : Restored mode { start with phraseBackup := none } after) : Restored mode before after where
  credentials := fun path hpath => (hrestored.credentials path hpath).trans (h.credentials path hpath)
  profileJson := hrestored.profileJson.trans h.profileJson
  phrases := hrestored.phrases.trans h.phrases
  noTmp := hrestored.noTmp
  noIncoming := hrestored.noIncoming
  incoming := fun hmode => (hrestored.incoming hmode).trans (h.incoming hmode)

/-- The transaction with its handler, from a world where the files are staged. -/
theorem transaction_spec (hundo : ∀ n, host.undoFails n = none) {input : SetupInput}
    {selection : CredentialSelection} (profile : LocalProfile) {before start : SetupWorld}
    (h : Imported host input.mode selection before start) :
    Spec (fun w => w = { start with phraseBackup := none })
      (Prog.catching (transact host profile input.phraseValue) (undoTransaction host profile))
      (fun _ t => Passed host before t ∧ Installed host input selection profile before t)
      fun _ => Restored input.mode before := by
  generalize hbegun : ({ start with phraseBackup := none } : SetupWorld) = begun
  have hpending : begun.pending = pendingImport host selection input.mode := by
    rw [← hbegun]
    exact h.pending
  have hmode : begun.pending.tempDir = decide (input.mode = .copied) := by
    rw [hpending]
    cases input.mode <;> rfl
  have hstaged : Staged begun := by
    rw [← hbegun]
    exact h.staged
  have hsame : SameButTmp begun begun := ⟨fun _ _ => rfl, rfl, rfl, rfl, rfl⟩
  rintro w rfl
  have hundoable := transact_spec hundo hstaged profile input.phraseValue w hsame
  rcases hrun : (transact host profile input.phraseValue).exec w with ⟨fault | ⟨⟩, t⟩
  · rw [hrun] at hundoable
    rw [Prog.exec_catching_error hrun]
    have hrestored := undoTransaction_spec hundo profile fault hmode t hundoable
    rcases hundone : (undoTransaction host profile fault).exec t with ⟨fault' | ⟨⟩, after⟩
    · rw [hundone, ← hbegun] at hrestored
      exact h.restored hrestored
    · rw [hundone] at hrestored
      exact hrestored.elim
  · rw [Prog.exec_catching_ok hrun]
    obtain ⟨hpassed, hinstalled⟩ := transact_ok hundo hpending
      (by rw [← hbegun]; exact h.certificate) (by rw [← hbegun]; exact h.privateKey) hrun
    have hops : w.ops = before.ops := by
      rw [← hbegun]
      exact h.ops
    exact ⟨(Passed.refl hops).trans hpassed, hinstalled⟩

/-- A setup is atomic.  Whichever operations of its transaction raise, and whatever the
profile was: if one does, `run_setup` raises; where it raises everything is as before; and
where it returns everything is new. -/
theorem setup_atomic (host : SetupHost) (hundo : ∀ n, host.undoFails n = none) (input : SetupInput)
    (before start after : SetupWorld) (profile : LocalProfile) (outcome : Except SetupFault LocalProfile)
    (hprepare : (prepare host input).exec before = (.ok profile, start))
    (hrun : (runSetup host input).exec before = (outcome, after)) :
    ((∃ n, before.ops ≤ n ∧ n < after.ops ∧ host.fails n ≠ none) → ∃ fault, outcome = .error fault) ∧
      (∀ fault, outcome = .error fault → Restored input.mode before after) ∧
      ∀ result, outcome = .ok result → result = profile ∧
        ∃ selection, host.candidates = .ok selection ∧
          Installed host input selection profile before after := by
  obtain ⟨selection, hselection, himported, -⟩ := prepare_ok hprepare
  have hspec := transaction_spec hundo profile himported { start with phraseBackup := none } rfl
  unfold runSetup at hrun
  rw [Prog.exec_bind_ok hprepare, Prog.exec_bind_ok (Prog.exec_modify _ _)] at hrun
  rcases htransaction : (Prog.catching (transact host profile input.phraseValue)
    (undoTransaction host profile)).exec { start with phraseBackup := none } with ⟨fault | ⟨⟩, t⟩
  · rw [htransaction] at hspec
    rw [Prog.exec_bind_error htransaction] at hrun
    obtain ⟨rfl, rfl⟩ := Prod.mk.inj hrun
    exact ⟨fun _ => ⟨fault, rfl⟩, fun _ _ => hspec, by rintro result ⟨⟩⟩
  · rw [htransaction] at hspec
    rw [Prog.exec_bind_ok htransaction, Prog.exec_pure] at hrun
    obtain ⟨rfl, rfl⟩ := Prod.mk.inj hrun
    obtain ⟨hpassed, hinstalled⟩ := hspec
    refine ⟨?_, by rintro fault ⟨⟩, ?_⟩
    · rintro ⟨n, hfrom, hto, hfails⟩
      exact absurd (hpassed.2 n hfrom hto) hfails
    · rintro result ⟨⟩
      exact ⟨rfl, selection, hselection, hinstalled⟩

/-- A host where the document cannot be moved into place. -/
def lockedHost : SetupHost where
  rt := {
    sha256Text := fun _ => 0
    -- the digest of the certificate
    sha256Bytes := fun _ => 0xa12871fee210fb8619291eaea194581cbd2531e4b23759d225f6806923f63222
    upper := id
    lower := Text.lower
    alnum := Char.isAlphanum }
  matchesRfc := fun rfc => rfc = "AAA010101AAA"
  candidates := .ok ⟨.elsewhere "/source/new.cer", .elsewhere "/source/new.key"⟩
  insideRepository := fun _ => false
  looksLikeUnencryptedPem := fun _ => false
  lowerSuffix := fun path => if path = "/source/new.cer" then ".cer" else ".key"
  pathText
    | .final .certificate => "/vault/credentials/certificate.cer"
    | _ => "/vault/credentials/private-key.key"
  storageRoot := fun safeProfileId => "/vault/storage/" ++ safeProfileId
  encodeDocument := fun members =>
    let lines := members.map fun entry => "  \"" ++ entry.1 ++ "\": \"" ++ entry.2 ++ "\""
    ("\x7b\n" ++ String.intercalate ",\n" lines ++ "\n\x7d\n").toList.flatMap String.utf8EncodeChar
  fails := fun n => if n = 7 then some ⟨.os "locked", false, none⟩ else none
  undoFails := fun _ => none

def lockedInput : SetupInput := ⟨" company ", "AAA010101AAA", "new phrase", .copied⟩

def lockedProfile : LocalProfile where
  profileId := "company"
  rfc := "AAA010101AAA"
  storageRoot := "/vault/storage/company"
  credentialMode := .copied
  certificatePath := "/vault/credentials/certificate.cer"
  privateKeyPath := "/vault/credentials/private-key.key"
  phraseRef := defaultPhraseReference "company"
  status := .ready
  certificateFingerprint := "a12871fee210fb8619291eaea194581cbd2531e4b23759d225f6806923f63222"

/-- A profile with a certificate, a document and a phrase, and no private key. -/
def configuredWorld : SetupWorld where
  files
    | .file (.elsewhere _) => some [1, 2]
    | .file (.final .certificate) => some [3]
    | .profileJson => some [4]
    | _ => none
  incoming := false
  phrases := fun _ => some "old phrase"
  pending := ⟨⟨.stray "", .stray ""⟩, ⟨.stray "", .stray ""⟩, false, [], []⟩

theorem setup_atomic_locked :
    (∃ fault, ((runSetup lockedHost lockedInput).exec configuredWorld).1 = .error fault) ∧
      Restored .copied configuredWorld ((runSetup lockedHost lockedInput).exec configuredWorld).2 := by
  have hprofile : ((prepare lockedHost lockedInput).exec configuredWorld).1 = .ok lockedProfile := by
    decide +kernel
  have hmade : 7 < ((runSetup lockedHost lockedInput).exec configuredWorld).2.ops := by decide +kernel
  have hfails : lockedHost.fails 7 ≠ none := Option.some_ne_none _
  rcases hprepare : (prepare lockedHost lockedInput).exec configuredWorld with ⟨prepared, start⟩
  rcases hrun : (runSetup lockedHost lockedInput).exec configuredWorld with ⟨outcome, after⟩
  rw [hprepare] at hprofile
  rw [hrun] at hmade
  rw [show prepared = .ok lockedProfile from hprofile] at hprepare
  obtain ⟨hraise, hrestored, -⟩ := setup_atomic lockedHost (fun _ => rfl) lockedInput configuredWorld start
    after lockedProfile outcome hprepare hrun
  obtain ⟨fault, hfault⟩ := hraise ⟨7, Nat.zero_le 7, hmade, hfails⟩
  exact ⟨⟨fault, hfault⟩, hrestored fault hfault⟩

end Setup

end CfdiVault
