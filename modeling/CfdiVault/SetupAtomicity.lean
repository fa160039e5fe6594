import CfdiVault.SetupRollback

/-!
# A setup is all or nothing

Each statement of the transaction keeps the profile `Undoable`, so an exception at any of
its operations ends, after the handler, in the profile of before.  A transaction that
returns has gone through all of them.
-/

namespace CfdiVault

namespace Setup

variable {host : SetupHost} {reference : String} {start : SetupWorld}

/-! ## Up to the commit -/

theorem SameButTmp.counted {w : SetupWorld} (h : SameButTmp start w) (n : Nat) :
    SameButTmp start { w with ops := n } :=
  ⟨h.files, h.incoming, h.phrases, h.pending, h.phraseBackup⟩

theorem SameButTmp.setTmp {w : SetupWorld} (h : SameButTmp start w) (content : Option Bytes) :
    SameButTmp start (w.setFile .profileJsonTmp content) where
  files := by
    intro path hpath
    exact (Function.update_of_ne hpath ..).trans (h.files path hpath)
  incoming := h.incoming
  phrases := h.phrases
  pending := h.pending
  phraseBackup := h.phraseBackup

theorem writeProfile_keeps (profile : LocalProfile) :
    Keeps (SameButTmp start) (writeProfile host profile .profileJsonTmp) := by
  refine operation_spec (fun w hw => (hw.counted _).setTmp _) fun w failure hw => ?_
  split
  · exact (hw.counted _).setTmp _
  · exact hw.counted _

/-- The phrase is saved as it is stored, or nothing is when there is none. -/
theorem backupPhraseForRollback_spec :
    Spec (SameButTmp start) (backupPhraseForRollback host reference)
      (fun phrase w => SameButTmp start w ∧ phrase = start.phrases reference)
      fun _ => SameButTmp start := by
  unfold backupPhraseForRollback
  refine Spec.catching (F := fun _ => SameButTmp start) ?_ fun fault => ?_
  · refine Spec.bind (M := fun stored w => SameButTmp start w ∧ stored = (start.phrases reference).isSome)
      ?_ fun stored => ?_
    · refine operation_spec (fun w hw => ?_) fun w failure hw => hw.counted _
      exact ⟨hw.counted _, by rw [hw.phrases]⟩
    · cases stored with
      | false =>
          refine Spec.pure _ fun w hw => ⟨hw.1, ?_⟩
          exact (Option.isSome_eq_false_iff.mp hw.2.symm |> Option.isNone_iff_eq_none.mp).symm
      | true =>
          refine Spec.bind (M := fun phrase w => SameButTmp start w ∧ start.phrases reference = some phrase)
            ?_ fun phrase => Spec.pure _ fun w hw => ⟨hw.1, hw.2.symm⟩
          refine operation_spec (fun w hw => ?_) fun w failure hw => hw.1.counted _
          have hsame : w.phrases reference = start.phrases reference := congrFun hw.1.phrases reference
          rcases hphrase : w.phrases reference with _ | phrase
          · exact hw.1.counted _
          · exact ⟨hw.1.counted _, hsame.symm.trans hphrase⟩
  · cases fault with
    | credential message => exact Spec.throw _ fun w hw => hw
    | setup errors => exact Spec.throw _ fun w hw => hw
    | os message => exact Spec.throw _ fun w hw => hw
    | other message => exact Spec.throw _ fun w hw => hw

/-- The phrase is saved and nothing is installed yet. -/
def Stored (reference : String) (start w : SetupWorld) : Prop :=
  Undoable reference start w ∧ w.pending = start.pending ∧ w.phraseBackup ≠ none

theorem Stored.setPhrase {w : SetupWorld} (h : Stored reference start w) (phrase : Option String) :
    Stored reference start (w.setPhrase reference phrase) := by
  obtain ⟨h, hpending, hsaved⟩ := h
  obtain ⟨saved, hbackup⟩ := Option.ne_none_iff_exists'.mp hsaved
  refine ⟨⟨h.profileJson, h.sound, h.before, ?_, ?_, h.opened, h.closed⟩, hpending, hsaved⟩
  · intro other hother
    exact (Function.update_of_ne hother ..).trans (h.others other hother)
  · have hkept := h.saved
    rw [hbackup] at hkept
    change w.phraseBackup.getD _ = _
    rw [hbackup]
    exact hkept

theorem Stored.counted {w : SetupWorld} (h : Stored reference start w) (n : Nat) :
    Stored reference start { w with ops := n } :=
  ⟨h.1.counted n, h.2⟩

theorem providerStore_keeps (phrase : String) :
    Keeps (Stored reference start) (providerStore host reference phrase) := by
  refine operation_spec (fun w hw => (hw.counted _).setPhrase _) fun w failure hw => ?_
  split_ifs
  · exact (hw.counted _).setPhrase _
  · exact hw.counted _

/-! ## The commit -/

/-- The commit has dealt with these names, and may have moved the last one aside only. -/
structure Committing (reference : String) (start : SetupWorld) (aside installed : List FinalName)
    (w : SetupWorld) : Prop where
  undoable : Undoable reference start w
  tempDir : w.pending.tempDir = true
  backups : ∀ entry ∈ w.log.backups, ∃ name ∈ aside, entry = (.final name, .backup name)
  installed : ∀ path ∈ w.log.installed, ∃ name ∈ installed, path = .final name

section Install

variable {aside installed : List FinalName} {name source : FinalName} {w : SetupWorld}

theorem not_aside_final (name : FinalName) : ¬ Aside (.final name) := by
  intro h
  cases h

theorem aside_backup (name : FinalName) : Aside (.backup name) := rfl

theorem aside_staged (name : FinalName) : Aside (.staged name) := rfl

theorem Committing.final_notMem (h : Committing reference start aside installed w)
    (hnew : name ∉ aside) : CredentialPath.final name ∉ w.log.backups.map Prod.fst := by
  intro hmem
  obtain ⟨entry, hentry, hplace⟩ := List.mem_map.mp hmem
  obtain ⟨other, hother, rfl⟩ := h.backups entry hentry
  cases hplace
  exact hnew hother

theorem Committing.backup_notMem (h : Committing reference start aside installed w)
    (hnew : name ∉ aside) : CredentialPath.backup name ∉ w.log.backups.map Prod.snd := by
  intro hmem
  obtain ⟨entry, hentry, hplace⟩ := List.mem_map.mp hmem
  obtain ⟨other, hother, rfl⟩ := h.backups entry hentry
  cases hplace
  exact hnew hother

theorem Committing.staged_notMem (h : Committing reference start aside installed w) :
    CredentialPath.staged source ∉ w.log.backups.map Prod.snd := by
  intro hmem
  obtain ⟨entry, hentry, hplace⟩ := List.mem_map.mp hmem
  obtain ⟨other, -, rfl⟩ := h.backups entry hentry
  cases hplace

theorem Committing.counted (h : Committing reference start aside installed w) (n : Nat) :
    Committing reference start aside installed { w with ops := n } :=
  ⟨h.undoable.counted n, h.tempDir, h.backups, h.installed⟩

/-- The final file is moved aside. -/
theorem Committing.backed (h : Committing reference start aside installed w) (hnew : name ∉ aside)
    (hinstalled : name ∉ installed) (hpresent : w.credentials (.final name) ≠ none) :
    Committing reference start (name :: aside) installed
      { w.move (.file (.final name)) (.file (.backup name)) with
        pending := { w.pending with backups := w.pending.backups ++ [(.final name, .backup name)] } } := by
  rw [move_file]
  have hplace := h.final_notMem hnew
  have hfree := h.backup_notMem hnew
  have hfinal : CredentialPath.final name ∉ w.log.installed := by
    intro hmem
    obtain ⟨other, hother, hsame⟩ := h.installed _ hmem
    cases hsame
    exact hinstalled hother
  refine ⟨h.undoable.relogged h.tempDir h.tempDir rfl rfl rfl ?_ ?_, h.tempDir, ?_, ?_⟩
  · exact h.undoable.sound.backed (not_aside_final name) (aside_backup name) hpresent hplace hfree
  · intro path hpath
    exact UndoLog.before_backed h.undoable.sound (not_aside_final name) (aside_backup name) hplace hfinal hfree hpath
  · intro entry hentry
    rcases List.mem_append.mp hentry with hentry | hentry
    · obtain ⟨other, hother, hsame⟩ := h.backups entry hentry
      exact ⟨other, List.mem_cons_of_mem _ hother, hsame⟩
    · exact ⟨name, List.mem_cons_self, List.mem_singleton.mp hentry⟩
  · exact h.installed

/-- The staged file is moved to a place that is vacant. -/
theorem Committing.install (h : Committing reference start aside installed w)
    (hvacant : w.log.backups.lookup (.final name) = none → w.credentials (.final name) = none) :
    Committing reference start aside (name :: installed)
      { w.move (.file (.staged source)) (.file (.final name)) with
        pending := { w.pending with installedFinals := w.pending.installedFinals ++ [.final name] } } := by
  rw [move_file]
  refine ⟨h.undoable.relogged h.tempDir h.tempDir rfl rfl rfl ?_ ?_, h.tempDir, h.backups, ?_⟩
  · exact h.undoable.sound.install (aside_staged source) (not_aside_final name) h.staged_notMem
  · intro path hpath
    exact UndoLog.before_install h.undoable.sound (aside_staged source) (not_aside_final name) h.staged_notMem hvacant hpath
  · intro path hmem
    rcases List.mem_append.mp hmem with hmem | hmem
    · obtain ⟨other, hother, hsame⟩ := h.installed path hmem
      exact ⟨other, List.mem_cons_of_mem _ hother, hsame⟩
    · exact ⟨name, List.mem_cons_self, List.mem_singleton.mp hmem⟩

/-- A final file that exists has gone aside, so that its place is vacant. -/
theorem moveAside_spec (hnew : name ∉ aside) (hinstalled : name ∉ installed) :
    Spec (Committing reference start aside installed) (moveAside host (.final name))
      (fun _ w => Committing reference start (name :: aside) installed w ∧
        (w.log.backups.lookup (.final name) = none → w.credentials (.final name) = none))
      fun _ => Undoable reference start := by
  unfold moveAside
  refine Spec.read fun u => ?_
  split_ifs with habsent
  · refine Spec.pure _ fun w hw => ?_
    obtain ⟨hw, rfl⟩ := hw
    refine ⟨⟨hw.undoable, hw.tempDir, ?_, hw.installed⟩, fun _ => habsent⟩
    intro entry hentry
    obtain ⟨other, hother, hsame⟩ := hw.backups entry hentry
    exact ⟨other, List.mem_cons_of_mem _ hother, hsame⟩
  · refine Spec.bind (replace_spec ?_ ?_) fun _ => Spec.modify fun w hw => hw
    · rintro w ⟨hw, -⟩ hpresent
      refine ⟨(hw.counted _).backed hnew hinstalled hpresent, fun hnone => ?_⟩
      have hfound : [(CredentialPath.final name, CredentialPath.backup name)].lookup (.final name) =
          some (.backup name) := by
        rw [List.lookup_cons, beq_self_eq_true]
      change (w.log.backups ++ [(CredentialPath.final name, CredentialPath.backup name)]).lookup _ = none at hnone
      rw [List.lookup_append, Option.or_eq_none_iff, hfound] at hnone
      cases hnone.2
    · rintro w fault ⟨hw, -⟩
      exact (hw.counted _).undoable

theorem install_spec (hundo : ∀ n, host.undoFails n = none) {names : List FinalName}
    (hnew : name ∉ names) :
    Spec (Committing reference start names names) (install host (.staged source) (.final name))
      (fun _ => Committing reference start (name :: names) (name :: names))
      fun _ => Undoable reference start := by
  unfold install
  refine Spec.bind (moveAside_spec hnew hnew) fun _ => ?_
  refine Spec.catching (F := fun _ => Undoable reference start) ?_ fun fault => ?_
  · refine Spec.bind (replace_spec ?_ ?_) fun _ => Spec.modify fun w hw => hw
    · rintro w ⟨hw, hvacant⟩ -
      exact (hw.counted _).install hvacant
    · rintro w fault ⟨hw, -⟩
      exact (hw.counted _).undoable
  · cases fault with
    | os message =>
        refine Spec.bind (Spec.weaken (rollback_spec hundo) (fun _ h => h) (fun _ _ h => h)
          fun _ _ h => h.elim) fun _ => ?_
        exact Spec.throw _ fun w hw => hw.1
    | setup errors => exact Spec.throw _ fun w hw => hw
    | credential message => exact Spec.throw _ fun w hw => hw
    | other message => exact Spec.throw _ fun w hw => hw

end Install

theorem commit_spec (hundo : ∀ n, host.undoFails n = none) (hstart : Staged start) :
    Spec (Stored reference start) (commit host) (fun _ => Undoable reference start)
      fun _ => Undoable reference start := by
  unfold commit
  refine Spec.read fun u => ?_
  split_ifs with htemp
  · exact Spec.pure _ fun w hw => hw.1.1
  · intro w hw
    obtain ⟨⟨h, hpending, -⟩, rfl⟩ := hw
    rw [Bool.not_eq_false] at htemp
    obtain ⟨key, hkey, hfinal, hstaged⟩ := hstart.selections (h.opened htemp)
    rw [hpending, hfinal, hstaged]
    refine Spec.bind (P := fun s => s = w) (M := fun _ => Committing reference start [] [])
      (Spec.modify fun s hs => ?_) (fun _ => ?_) w rfl
    · subst hs
      -- nothing has been logged before
      have hempty : s.log = {} := by
        unfold SetupWorld.log
        rw [hpending]
        exact hstart.log
      have hsame : { s.pending with backups := [], installedFinals := [] } = s.pending := by
        have hbackups : s.pending.backups = [] := congrArg UndoLog.backups hempty
        have hinstalled : s.pending.installedFinals = [] := congrArg UndoLog.installed hempty
        rw [← hbackups, ← hinstalled]
      rw [hsame]
      refine ⟨h, htemp, ?_, ?_⟩
      · intro entry hentry
        change entry ∈ s.log.backups at hentry
        rw [hempty] at hentry
        cases hentry
      · intro path hmem
        change path ∈ s.log.installed at hmem
        rw [hempty] at hmem
        cases hmem
    · refine Spec.bind (install_spec hundo List.not_mem_nil) fun _ => ?_
      refine Spec.weaken (install_spec hundo ?_) (fun _ h => h) (fun _ _ h => h.undoable) fun _ _ h => h
      rw [List.mem_singleton]
      exact hkey

/-! ## The transaction and its handler -/

theorem finalize_total (hundo : ∀ n, host.undoFails n = none) :
    Total (fun _ => True) (finalize host) := by
  unfold finalize
  refine Spec.read fun u => ?_
  split_ifs
  · exact Spec.pure _ fun _ _ => trivial
  · intro w _
    rw [Prog.exec_bind_ok (removeTree_exec hundo w), Prog.exec_modify]
    trivial

/-- Wherever the transaction raises, it can be undone. -/
theorem transact_spec (hundo : ∀ n, host.undoFails n = none) (hstart : Staged start)
    (profile : LocalProfile) (phraseValue : String) :
    Spec (SameButTmp start) (transact host profile phraseValue) (fun _ _ => True)
      fun _ => Undoable profile.phraseRef start := by
  have hsame : ∀ w, SameButTmp start w → Undoable profile.phraseRef start w := by
    intro w hw
    have hundoable : Undoable profile.phraseRef start { w with phraseBackup := none } :=
      hw.undoable hstart rfl
    rw [← hstart.phraseBackup, ← hw.phraseBackup] at hundoable
    exact hundoable
  unfold transact
  refine Spec.bind (Spec.weaken (writeProfile_keeps profile) (fun _ h => h) (fun _ _ h => h)
    fun _ w hw => hsame w hw) fun _ => ?_
  refine Spec.bind (Spec.weaken backupPhraseForRollback_spec (fun _ h => h) (fun _ _ h => h)
    fun _ w hw => hsame w hw) fun phrase => ?_
  refine Spec.bind (M := fun _ => Stored profile.phraseRef start) (Spec.modify ?_) fun _ => ?_
  · rintro w ⟨hw, rfl⟩
    refine ⟨hw.undoable hstart rfl, hw.pending, ?_⟩
    rintro ⟨⟩
  refine Spec.bind (Spec.weaken (providerStore_keeps phraseValue) (fun _ h => h) (fun _ _ h => h)
    fun _ w hw => hw.1) fun _ => ?_
  refine Spec.bind (commit_spec hundo hstart) fun _ => ?_
  refine Spec.bind (M := fun _ _ => True) (replace_spec (fun _ _ _ => trivial)
    fun w fault hw => hw.counted _) fun _ => ?_
  exact Spec.weaken (finalize_total hundo) (fun _ h => h) (fun _ _ h => h) fun _ _ h => h.elim

/-- The credential files, the document and the phrases are those of an earlier world, and
nothing of the setup is left. -/
structure Restored (mode : CredentialMode) (before after : SetupWorld) : Prop where
  credentials : ∀ path, ¬ Aside path → after.credentials path = before.credentials path
  profileJson : after.files .profileJson = before.files .profileJson
  phrases : after.phrases = before.phrases
  noTmp : after.files .profileJsonTmp = none
  noIncoming : mode = .copied → NoIncoming after
  incoming : mode = .referenced → after.incoming = before.incoming

/-- An import of the given mode, after everything has been undone. -/
theorem Undoable.restored {w : SetupWorld} {mode : CredentialMode}
    (h : Undoable reference start w) (htemp : w.pending.tempDir = false)
    (hphrase : w.phrases reference = start.phrases reference)
    (hmode : start.pending.tempDir = decide (mode = .copied)) :
    Restored mode start (w.setFile .profileJsonTmp none) where
  credentials := by
    intro path hpath
    have hbefore := h.before path hpath
    rw [(h.closed htemp).1, UndoLog.before_nil] at hbefore
    exact hbefore
  profileJson := h.profileJson
  phrases := by
    funext other
    by_cases hother : other = reference
    · subst hother
      exact hphrase
    · exact h.others other hother
  noTmp := by
    change Function.update w.files .profileJsonTmp none .profileJsonTmp = none
    exact Function.update_self ..
  noIncoming := by
    rintro rfl
    exact (h.closed htemp).2.1 hmode
  incoming := by
    rintro rfl
    exact (h.closed htemp).2.2 hmode

theorem restoreSavedPhrase_spec (hundo : ∀ n, host.undoFails n = none) :
    Spec (fun w => Undoable reference start w ∧ w.pending.tempDir = false)
      (restoreSavedPhrase host reference)
      (fun _ w => Undoable reference start w ∧ w.pending.tempDir = false ∧
        w.phrases reference = start.phrases reference) fun _ _ => False := by
  unfold restoreSavedPhrase
  refine Spec.read fun u => ?_
  rintro w ⟨⟨h, htemp⟩, rfl⟩
  have hsaved := h.saved
  rcases hbackup : w.phraseBackup with _ | saved
  · rw [hbackup] at hsaved
    exact ⟨h, htemp, hsaved⟩
  · rw [hbackup] at hsaved
    -- the saved phrase goes back, or the stored one goes
    have hexec : (restorePhraseAfterFailure host reference saved).exec w =
        (.ok ⟨⟩, { w with undoOps := w.undoOps + 1 }.setPhrase reference saved) := by
      cases saved with
      | none => exact Prog.exec_catching_ok (undoOperation_exec hundo _ w)
      | some phrase => exact Prog.exec_catching_ok (undoOperation_exec hundo _ w)
    dsimp only
    rw [hexec]
    refine ⟨⟨h.profileJson, h.sound, h.before, ?_, ?_, h.opened, h.closed⟩, htemp, ?_⟩
    · intro other hother
      exact (Function.update_of_ne hother ..).trans (h.others other hother)
    · change w.phraseBackup.getD _ = _
      rw [hbackup]
      exact hsaved
    · exact (Function.update_self ..).trans hsaved

theorem undoTransaction_spec (hundo : ∀ n, host.undoFails n = none) (profile : LocalProfile)
    (fault : SetupFault) {mode : CredentialMode}
    (hmode : start.pending.tempDir = decide (mode = .copied)) :
    Spec (Undoable profile.phraseRef start) (undoTransaction host profile fault) (fun _ _ => False)
      fun _ => Restored mode start := by
  unfold undoTransaction
  refine Spec.bind (Spec.weaken (rollback_spec hundo) (fun _ h => h) (fun _ _ h => h)
    fun _ _ h => h.elim) fun _ => ?_
  refine Spec.bind (Spec.weaken (restoreSavedPhrase_spec hundo) (fun _ h => h) (fun _ _ h => h)
    fun _ _ h => h.elim) fun _ => ?_
  refine Spec.bind (M := fun _ => Restored mode start) ?_ fun _ => Spec.throw _ fun w hw => hw
  rintro w ⟨h, htemp, hphrase⟩
  unfold ignoringOs
  rw [Prog.exec_catching_ok (undoOperation_exec hundo _ w)]
  have hcounted : Undoable profile.phraseRef start { w with undoOps := w.undoOps + 1 } :=
    ⟨h.profileJson, h.sound, h.before, h.others, h.saved, h.opened, h.closed⟩
  exact hcounted.restored htemp hphrase hmode

end Setup

end CfdiVault
