import CfdiVault.Library.UndoLog
import CfdiVault.SetupTransaction

/-!
# Rolling a setup back

The pending import is an undo log over the credential files: `commit` moves a final file
aside before it moves the staged one in, and `rollback` is the way back of that log.  An
exception may leave the transaction at any of its operations.  What holds at each of them is
that the log and the saved phrase still say what the profile was before (`Undoable`), and
from there the handler restores it.

A transaction that returns has put the staged files, the document and the phrase in place,
and none of its operations has raised.
-/

namespace CfdiVault

namespace Setup

/-! ## The credential files of a world -/

def SetupWorld.credentials (w : SetupWorld) (path : CredentialPath) : Option Bytes :=
  w.files (.file path)

/-- The undo log of the pending import. -/
def SetupWorld.log (w : SetupWorld) : UndoLog CredentialPath :=
  ⟨w.pending.backups, w.pending.installedFinals⟩

/-- The world with other credential files, after some operations of the rollback. -/
def SetupWorld.withCredentials (w : SetupWorld) (values : CredentialPath → Option Bytes)
    (undoOps : Nat) : SetupWorld where
  files
    | .file path => values path
    | path => w.files path
  incoming := w.incoming
  phrases := w.phrases
  pending := w.pending
  phraseBackup := w.phraseBackup
  ops := w.ops
  undoOps := undoOps

theorem withCredentials_twice (w : SetupWorld) (values values' : CredentialPath → Option Bytes)
    (n n' : Nat) :
    (w.withCredentials values n).withCredentials values' n' = w.withCredentials values' n' := by
  unfold SetupWorld.withCredentials
  congr 1
  funext path
  cases path <;> rfl

theorem withCredentials_self (w : SetupWorld) : w.withCredentials w.credentials w.undoOps = w := by
  obtain ⟨files, incoming, phrases, pending, phraseBackup, ops, undoOps⟩ := w
  unfold SetupWorld.withCredentials
  congr 1
  funext path
  cases path <;> rfl

theorem setFile_file (w : SetupWorld) (path : CredentialPath) (content : Option Bytes) :
    w.setFile (.file path) content =
      w.withCredentials (Function.update w.credentials path content) w.undoOps := by
  unfold SetupWorld.setFile SetupWorld.withCredentials
  congr 1
  funext other
  cases other with
  | file other =>
      change Function.update w.files (.file path) content (.file other) =
        Function.update w.credentials path content other
      by_cases hsame : other = path
      · subst hsame
        rw [Function.update_self, Function.update_self]
      · have hfile : SetupPath.file other ≠ .file path := fun h => hsame (SetupPath.file.inj h)
        rw [Function.update_of_ne hfile, Function.update_of_ne hsame]
        rfl
  | profileJson => rfl
  | profileJsonTmp => rfl

theorem move_file (w : SetupWorld) (source destination : CredentialPath) :
    w.move (.file source) (.file destination) =
      w.withCredentials (UndoLog.moved w.credentials source destination) w.undoOps := by
  unfold SetupWorld.move
  rw [setFile_file, setFile_file, withCredentials_twice]
  rfl

/-! ## The rollback is the way back of the log -/

section Rollback

variable {host : SetupHost} (hundo : ∀ n, host.undoFails n = none)

include hundo

theorem undoOperation_exec (change : SetupWorld → SetupWorld) (w : SetupWorld) :
    (undoOperation host change).exec w = (.ok ⟨⟩, change { w with undoOps := w.undoOps + 1 }) := by
  unfold undoOperation
  rw [Prog.exec_act, hundo]

theorem unlinkFinal_exec (path : CredentialPath) (w : SetupWorld) :
    ∃ n, (unlinkFinal host path).exec w =
      (.ok ⟨⟩, w.withCredentials (Function.update w.credentials path none) n) := by
  unfold unlinkFinal ignoringOs
  by_cases habsent : w.files (.file path) = none
  · refine ⟨w.undoOps, ?_⟩
    have hsame : Function.update w.credentials path none = w.credentials :=
      Function.update_eq_self_iff.mpr habsent.symm
    rw [hsame, withCredentials_self]
    refine Prog.exec_catching_ok ?_
    rw [Prog.exec_bind_ok (Prog.exec_get w), if_pos habsent, Prog.exec_pure]
  · refine ⟨w.undoOps + 1, ?_⟩
    refine Prog.exec_catching_ok ?_
    rw [Prog.exec_bind_ok (Prog.exec_get w), if_neg habsent, undoOperation_exec hundo,
      setFile_file]
    rfl

theorem unlinkFinals_exec (paths : List CredentialPath) (w : SetupWorld) :
    ∃ n, (Prog.each paths fun path => unlinkFinal host path).exec w =
      (.ok ⟨⟩, w.withCredentials (UndoLog.removed w.credentials paths) n) := by
  induction paths generalizing w with
  | nil =>
      refine ⟨w.undoOps, ?_⟩
      have hsame : UndoLog.removed w.credentials [] = w.credentials := by
        funext path
        simp [UndoLog.removed]
      rw [hsame, withCredentials_self, Prog.each_nil, Prog.exec_pure]
  | cons path rest ih =>
      obtain ⟨n, hfirst⟩ := unlinkFinal_exec hundo path w
      obtain ⟨m, hrest⟩ := ih (w.withCredentials (Function.update w.credentials path none) n)
      refine ⟨m, ?_⟩
      rw [Prog.each_cons, Prog.exec_bind_ok hfirst, hrest, withCredentials_twice]
      congr 2
      funext other
      change UndoLog.removed (Function.update w.credentials path none) rest other = _
      unfold UndoLog.removed
      by_cases hsame : other = path
      · subst hsame
        rw [if_pos List.mem_cons_self, Function.update_self, ite_self]
      · rw [Function.update_of_ne hsame]
        simp [hsame]

theorem restoreBackup_exec (entry : CredentialPath × CredentialPath) (w : SetupWorld) :
    ∃ n, (restoreBackup host entry).exec w =
      (.ok true, w.withCredentials (UndoLog.putBack w.credentials entry) n) := by
  unfold restoreBackup UndoLog.putBack
  by_cases habsent : w.credentials entry.2 = none
  · refine ⟨w.undoOps, ?_⟩
    rw [if_pos habsent, withCredentials_self]
    refine Prog.exec_catching_ok ?_
    rw [Prog.exec_bind_ok (Prog.exec_get w)]
    refine Eq.trans (congrArg (fun p : SetupProg Bool => p.exec w) (if_pos habsent)) ?_
    rw [Prog.exec_pure]
  · refine ⟨w.undoOps + 1, ?_⟩
    rw [if_neg habsent]
    refine Prog.exec_catching_ok ?_
    rw [Prog.exec_bind_ok (Prog.exec_get w)]
    refine Eq.trans (congrArg (fun p : SetupProg Bool => p.exec w) (if_neg habsent)) ?_
    rw [Prog.exec_bind_ok (undoOperation_exec hundo _ w), Prog.exec_pure, move_file]
    rfl

theorem restoreBackups_exec (entries : List (CredentialPath × CredentialPath)) (w : SetupWorld) :
    ∃ n, (Prog.collect entries fun entry => restoreBackup host entry).exec w =
      (.ok (entries.map fun _ => true),
        w.withCredentials (entries.foldl UndoLog.putBack w.credentials) n) := by
  induction entries generalizing w with
  | nil =>
      refine ⟨w.undoOps, ?_⟩
      rw [List.foldl_nil, withCredentials_self, Prog.collect_nil, Prog.exec_pure, List.map_nil]
  | cons entry rest ih =>
      obtain ⟨n, hfirst⟩ := restoreBackup_exec hundo entry w
      obtain ⟨m, hrest⟩ := ih (w.withCredentials (UndoLog.putBack w.credentials entry) n)
      refine ⟨m, ?_⟩
      rw [Prog.collect_cons, Prog.exec_bind_ok hfirst, Prog.exec_bind_ok hrest, Prog.exec_pure,
        withCredentials_twice]
      rfl

theorem removeTree_exec (w : SetupWorld) :
    (removeTree host).exec w = (.ok ⟨⟩, { w with undoOps := w.undoOps + 1 }.removeIncoming) :=
  Prog.exec_catching_ok (undoOperation_exec hundo _ w)

/-- The credential files after the way back: those outside `.incoming` as the log has
them, none inside. -/
theorem rollback_exec {w : SetupWorld} (htemp : w.pending.tempDir = true) :
    ∃ n, (rollback host).exec w =
      (.ok ⟨⟩, { (w.withCredentials (w.log.undo w.credentials) n).removeIncoming with
        pending := { w.pending with tempDir := false, backups := [], installedFinals := [] } }) := by
  obtain ⟨m, hunlink⟩ := unlinkFinals_exec hundo w.pending.installedFinals w
  obtain ⟨n, hrestore⟩ := restoreBackups_exec hundo w.pending.backups
    (w.withCredentials (UndoLog.removed w.credentials w.pending.installedFinals) m)
  refine ⟨n + 1, ?_⟩
  unfold rollback
  rw [Prog.exec_bind_ok (Prog.exec_get w), if_neg (by rw [htemp]; decide),
    Prog.exec_bind_ok hunlink, Prog.exec_bind_ok hrestore]
  have hall : (w.pending.backups.map fun _ => true).all id = true := by simp
  rw [if_pos hall, Prog.exec_bind_ok (removeTree_exec hundo _), Prog.exec_modify,
    withCredentials_twice]
  rfl

end Rollback

/-! ## What can still be undone -/

def Aside (path : CredentialPath) : Prop := path.incoming = true

/-- Nothing of the staging is there. -/
def NoIncoming (w : SetupWorld) : Prop :=
  w.incoming = false ∧ ∀ path, Aside path → w.credentials path = none

/-- The log and the saved phrase say what the profile was at the start.  While no import is
pending, the credential files are those of the start already. -/
structure Undoable (reference : String) (start w : SetupWorld) : Prop where
  profileJson : w.files .profileJson = start.files .profileJson
  sound : UndoLog.Sound Aside w.credentials w.log
  before : ∀ path, ¬ Aside path → w.log.before w.credentials path = start.credentials path
  others : ∀ other, other ≠ reference → w.phrases other = start.phrases other
  saved : w.phraseBackup.getD (w.phrases reference) = start.phrases reference
  opened : w.pending.tempDir = true → start.pending.tempDir = true
  closed : w.pending.tempDir = false → w.log = {} ∧ (start.pending.tempDir = true → NoIncoming w) ∧
    (start.pending.tempDir = false → w.incoming = start.incoming)

/-- A world where the transaction may start: an import with nothing installed, whose files
are in `.incoming` if they were copied. -/
structure Staged (start : SetupWorld) : Prop where
  log : start.log = {}
  phraseBackup : start.phraseBackup = none
  selections : start.pending.tempDir = true → ∃ key, key ≠ FinalName.certificate ∧
    start.pending.finalSelection = ⟨.final .certificate, .final key⟩ ∧
    start.pending.stagedSelection = ⟨.staged .certificate, .staged key⟩

section Invariant

variable {host : SetupHost} {reference : String} {start w : SetupWorld}

/-- Replacing credential files, together with the log that undoes it. -/
theorem Undoable.relogged (h : Undoable reference start w) (htemp : w.pending.tempDir = true)
    {w' : SetupWorld} (htemp' : w'.pending.tempDir = true)
    (hjson : w'.files .profileJson = w.files .profileJson) (hphrases : w'.phrases = w.phrases)
    (hbackup : w'.phraseBackup = w.phraseBackup)
    (hsound : UndoLog.Sound Aside w'.credentials w'.log)
    (hbefore : ∀ path, ¬ Aside path →
      w'.log.before w'.credentials path = w.log.before w.credentials path) :
    Undoable reference start w' where
  profileJson := hjson.trans h.profileJson
  sound := hsound
  before := fun path hpath => (hbefore path hpath).trans (h.before path hpath)
  others := by
    rw [hphrases]
    exact h.others
  saved := by
    rw [hphrases, hbackup]
    exact h.saved
  opened := fun _ => h.opened htemp
  closed := by
    intro hclosed
    rw [htemp'] at hclosed
    cases hclosed

/-- Only the temporary document and the counters have changed. -/
structure SameButTmp (start w : SetupWorld) : Prop where
  files : ∀ path, path ≠ .profileJsonTmp → w.files path = start.files path
  incoming : w.incoming = start.incoming
  phrases : w.phrases = start.phrases
  pending : w.pending = start.pending
  phraseBackup : w.phraseBackup = start.phraseBackup

theorem SameButTmp.credentials (h : SameButTmp start w) : w.credentials = start.credentials := by
  funext path
  exact h.files (.file path) (by rintro ⟨⟩)

theorem SameButTmp.log (h : SameButTmp start w) : w.log = start.log := by
  unfold SetupWorld.log
  rw [h.pending]

/-- Before the transaction changes anything, and after it has saved the phrase. -/
theorem SameButTmp.undoable (h : SameButTmp start w) (hstart : Staged start)
    {saved : Option (Option String)} (hsaved : saved.getD (start.phrases reference) = start.phrases reference) :
    Undoable reference start { w with phraseBackup := saved } where
  profileJson := h.files .profileJson (by rintro ⟨⟩)
  sound := by
    change UndoLog.Sound Aside w.credentials w.log
    rw [h.log, hstart.log]
    exact .nil
  before := by
    intro path _
    change w.log.before w.credentials path = _
    rw [h.log, hstart.log, UndoLog.before_nil, h.credentials]
  others := by
    intro other _
    exact congrFun h.phrases other
  saved := by
    change saved.getD (w.phrases reference) = _
    rw [h.phrases, hsaved]
  opened := by
    intro htemp
    rw [← h.pending]
    exact htemp
  closed := by
    intro htemp
    rw [h.pending] at htemp
    refine ⟨h.log.trans hstart.log, fun hcopied => ?_, fun _ => h.incoming⟩
    rw [htemp] at hcopied
    cases hcopied

/-- An operation of the transaction: what it does, and what it leaves when it raises. -/
theorem operation_spec {α : Type} {step : SetupWorld → Except SetupFault α × SetupWorld}
    {trace : Failure → SetupWorld → SetupWorld} {P : SetupWorld → Prop} {Q : α → SetupWorld → Prop}
    {E : SetupFault → SetupWorld → Prop}
    (hstep : ∀ w, P w → Holds Q E (step { w with ops := w.ops + 1 }))
    (htrace : ∀ w failure, P w → E failure.fault (trace failure { w with ops := w.ops + 1 })) :
    Spec P (operation host step trace) Q E := by
  intro w hw
  unfold operation
  rw [Prog.exec_act]
  rcases host.fails w.ops with _ | failure
  · exact hstep w hw
  · exact htrace w failure hw

theorem replace_spec {source destination : SetupPath} {P : SetupWorld → Prop}
    {Q : PUnit → SetupWorld → Prop} {E : SetupFault → SetupWorld → Prop}
    (hok : ∀ w, P w → w.files source ≠ none → Q ⟨⟩ ({ w with ops := w.ops + 1 }.move source destination))
    (herror : ∀ w fault, P w → E fault { w with ops := w.ops + 1 }) :
    Spec P (replace host source destination) Q E := by
  refine operation_spec (fun w hw => ?_) fun w failure hw => herror w failure.fault hw
  dsimp only
  split_ifs with habsent
  · exact herror w _ hw
  · exact hok w hw habsent

theorem Undoable.counted (h : Undoable reference start w) (n : Nat) :
    Undoable reference start { w with ops := n } :=
  ⟨h.profileJson, h.sound, h.before, h.others, h.saved, h.opened, h.closed⟩

theorem rollback_spec (hundo : ∀ n, host.undoFails n = none) :
    Spec (Undoable reference start) (rollback host)
      (fun _ w => Undoable reference start w ∧ w.pending.tempDir = false) fun _ _ => False := by
  intro w h
  rcases htemp : w.pending.tempDir with _ | _
  · have hexec : (rollback host).exec w = (.ok ⟨⟩, w) := by
      unfold rollback
      rw [Prog.exec_bind_ok (Prog.exec_get w), if_pos htemp, Prog.exec_pure]
    rw [hexec]
    exact ⟨h, htemp⟩
  · obtain ⟨n, hexec⟩ := rollback_exec hundo htemp
    rw [hexec]
    refine ⟨⟨h.profileJson, .nil, ?_, h.others, h.saved, fun _ => h.opened htemp, ?_⟩, rfl⟩
    · intro path hpath
      change UndoLog.before {} _ path = _
      rw [UndoLog.before_nil, ← h.before path hpath, ← UndoLog.undo_eq_before h.sound hpath]
      exact if_neg hpath
    · intro _
      refine ⟨rfl, fun _ => ⟨rfl, fun path hpath => if_pos hpath⟩, fun hreferenced => ?_⟩
      rw [h.opened htemp] at hreferenced
      cases hreferenced

end Invariant

end Setup

end CfdiVault
