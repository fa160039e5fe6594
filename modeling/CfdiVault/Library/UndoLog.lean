import Mathlib.Data.List.Nodup
import Mathlib.Logic.Function.Basic

/-!
# An undo log of replaced values

A map is updated place by place, each time in two moves: the old value goes aside, then the
new one comes from another place aside.  A log keeps what was moved aside and what was
installed.

`UndoLog.before` reads off what the values were before the moves of a log, and
`UndoLog.undo` is the way back: the installed values are removed and the backups moved
back.  Over the places that are not aside the two agree for a log that is `Sound`, and each
of the two moves keeps a log sound and leaves `before` as it was.
-/

namespace CfdiVault

/-- The entries hold a place and where its value went. -/
structure UndoLog (κ : Type) where
  backups : List (κ × κ) := []
  installed : List κ := []
  deriving DecidableEq

namespace UndoLog

variable {κ β : Type} [DecidableEq κ]

/-- The value at one place is moved to another. -/
def moved (values : κ → Option β) (source destination : κ) : κ → Option β :=
  Function.update (Function.update values source none) destination (values source)

@[simp] theorem moved_destination (values : κ → Option β) (source destination : κ) :
    moved values source destination destination = values source :=
  Function.update_self ..

theorem moved_other (values : κ → Option β) {source destination place : κ}
    (hsource : place ≠ source) (hdestination : place ≠ destination) :
    moved values source destination place = values place := by
  rw [moved, Function.update_of_ne hdestination, Function.update_of_ne hsource]

theorem moved_source (values : κ → Option β) {source destination : κ}
    (h : source ≠ destination) : moved values source destination source = none := by
  rw [moved, Function.update_of_ne h, Function.update_self]

/-- The value of a place before the moves of the log. -/
def before (log : UndoLog κ) (values : κ → Option β) (place : κ) : Option β :=
  match log.backups.lookup place with
  | some aside => values aside
  | none => if place ∈ log.installed then none else values place

/-- The values without the installed ones. -/
def removed (values : κ → Option β) (installed : List κ) (place : κ) : Option β :=
  if place ∈ installed then none else values place

/-- One backup is moved back, if it is there. -/
def putBack (values : κ → Option β) (entry : κ × κ) : κ → Option β :=
  if values entry.2 = none then values else moved values entry.2 entry.1

/-- The way back. -/
def undo (log : UndoLog κ) (values : κ → Option β) : κ → Option β :=
  log.backups.foldl putBack (removed values log.installed)

/-- The places of the log are not aside, its backups are and hold a value, and no two
entries share a place or a backup. -/
structure Sound (aside : κ → Prop) (values : κ → Option β) (log : UndoLog κ) : Prop where
  place : ∀ entry ∈ log.backups, ¬ aside entry.1
  backup : ∀ entry ∈ log.backups, aside entry.2
  present : ∀ entry ∈ log.backups, values entry.2 ≠ none
  installed : ∀ place ∈ log.installed, ¬ aside place
  places : (log.backups.map Prod.fst).Nodup
  backups : (log.backups.map Prod.snd).Nodup

omit [DecidableEq κ] in
theorem Sound.nil {aside : κ → Prop} {values : κ → Option β} : Sound aside values {} where
  place := by simp
  backup := by simp
  present := by simp
  installed := by simp
  places := by simp
  backups := by simp

@[simp] theorem before_nil (values : κ → Option β) : before {} values = values := by
  funext place
  simp [before]

/-! ## Lookups -/

theorem lookup_eq_some {entries : List (κ × κ)} {place found : κ}
    (h : entries.lookup place = some found) : (place, found) ∈ entries := by
  induction entries with
  | nil => cases h
  | cons entry rest ih =>
      obtain ⟨key, value⟩ := entry
      rw [List.lookup_cons] at h
      by_cases hkey : place = key
      · subst hkey
        rw [beq_self_eq_true] at h
        cases h
        exact List.mem_cons_self
      · rw [beq_false_of_ne hkey] at h
        exact List.mem_cons_of_mem _ (ih h)

theorem lookup_eq_none {entries : List (κ × κ)} {place : κ}
    (h : place ∉ entries.map Prod.fst) : entries.lookup place = none := by
  rcases hfound : entries.lookup place with _ | found
  · rfl
  · exact absurd (List.mem_map_of_mem (f := Prod.fst) (lookup_eq_some hfound)) h

/-! ## The two moves -/

variable {aside : κ → Prop} {values : κ → Option β} {log : UndoLog κ}

section Backup

variable {place backup : κ}

theorem Sound.backed (h : Sound aside values log) (hplace : ¬ aside place) (hbackup : aside backup)
    (hpresent : values place ≠ none) (hnew : place ∉ log.backups.map Prod.fst)
    (hfree : backup ∉ log.backups.map Prod.snd) :
    Sound aside (moved values place backup) { log with backups := log.backups ++ [(place, backup)] } := by
  have hother : ∀ entry ∈ log.backups, entry.2 ≠ backup ∧ entry.2 ≠ place := by
    intro entry hentry
    constructor
    · rintro rfl
      exact hfree (List.mem_map_of_mem hentry)
    · rintro rfl
      exact hplace (h.backup entry hentry)
  constructor
  · intro entry hentry
    rcases List.mem_append.mp hentry with hentry | hentry
    · exact h.place entry hentry
    · rw [List.mem_singleton.mp hentry]
      exact hplace
  · intro entry hentry
    rcases List.mem_append.mp hentry with hentry | hentry
    · exact h.backup entry hentry
    · rw [List.mem_singleton.mp hentry]
      exact hbackup
  · intro entry hentry
    rcases List.mem_append.mp hentry with hentry | hentry
    · rw [moved_other values (hother entry hentry).2 (hother entry hentry).1]
      exact h.present entry hentry
    · rw [List.mem_singleton.mp hentry, moved_destination]
      exact hpresent
  · exact h.installed
  · rw [List.map_append]
    exact h.places.append (List.nodup_singleton place) (List.disjoint_singleton.mpr hnew)
  · rw [List.map_append]
    exact h.backups.append (List.nodup_singleton backup) (List.disjoint_singleton.mpr hfree)

/-- Moving a value aside and logging it leaves the earlier values as they were. -/
theorem before_backed (h : Sound aside values log) (hplace : ¬ aside place) (hbackup : aside backup)
    (hnew : place ∉ log.backups.map Prod.fst) (hinstalled : place ∉ log.installed)
    (hfree : backup ∉ log.backups.map Prod.snd) {other : κ} (hother : ¬ aside other) :
    before { log with backups := log.backups ++ [(place, backup)] } (moved values place backup) other =
      before log values other := by
  unfold before
  rw [List.lookup_append]
  rcases hfound : log.backups.lookup other with _ | found
  · rw [Option.none_or, List.lookup_cons]
    by_cases hsame : other = place
    · subst hsame
      rw [beq_self_eq_true]
      dsimp only
      rw [moved_destination, if_neg hinstalled]
    · have hbackup' : other ≠ backup := by
        rintro rfl
        exact hother hbackup
      rw [beq_false_of_ne hsame]
      dsimp only [List.lookup_nil]
      rw [moved_other values hsame hbackup']
  · have hentry := lookup_eq_some hfound
    rw [Option.some_or]
    dsimp only
    refine moved_other values ?_ ?_
    · rintro rfl
      exact hplace (h.backup _ hentry)
    · rintro rfl
      exact hfree (List.mem_map_of_mem hentry)

end Backup

section Install

variable {source place : κ}

theorem Sound.install (h : Sound aside values log) (hsource : aside source) (hplace : ¬ aside place)
    (hfree : source ∉ log.backups.map Prod.snd) :
    Sound aside (moved values source place) { log with installed := log.installed ++ [place] } := by
  constructor
  · exact h.place
  · exact h.backup
  · intro entry hentry
    rw [moved_other values]
    · exact h.present entry hentry
    · rintro rfl
      exact hfree (List.mem_map_of_mem hentry)
    · rintro rfl
      exact hplace (h.backup entry hentry)
  · intro other hmem
    rcases List.mem_append.mp hmem with hmem | hmem
    · exact h.installed other hmem
    · rw [List.mem_singleton.mp hmem]
      exact hplace
  · exact h.places
  · exact h.backups

/-- Installing a value at a place that has none, or whose value went aside, leaves the
earlier values as they were. -/
theorem before_install (h : Sound aside values log) (hsource : aside source) (hplace : ¬ aside place)
    (hfree : source ∉ log.backups.map Prod.snd)
    (hvacant : log.backups.lookup place = none → values place = none) {other : κ}
    (hother : ¬ aside other) :
    before { log with installed := log.installed ++ [place] } (moved values source place) other =
      before log values other := by
  unfold before
  rcases hfound : log.backups.lookup other with _ | found
  · dsimp only
    by_cases hsame : other = place
    · subst hsame
      rw [if_pos (List.mem_append_right _ List.mem_cons_self), hvacant hfound, ite_self]
    · have hsource' : other ≠ source := by
        rintro rfl
        exact hother hsource
      rw [moved_other values hsource' hsame]
      simp [hsame]
  · have hentry := lookup_eq_some hfound
    dsimp only
    refine moved_other values ?_ ?_
    · rintro rfl
      exact hfree (List.mem_map_of_mem hentry)
    · rintro rfl
      exact hplace (h.backup _ hentry)

end Install

/-! ## The way back -/

/-- Moving the backups back, whatever has been moved back already. -/
theorem foldl_putBack {entries : List (κ × κ)} (hplace : ∀ entry ∈ entries, ¬ aside entry.1)
    (hbackup : ∀ entry ∈ entries, aside entry.2) (hpresent : ∀ entry ∈ entries, values entry.2 ≠ none)
    (hplaces : (entries.map Prod.fst).Nodup) (hbackups : (entries.map Prod.snd).Nodup) {other : κ}
    (hother : ¬ aside other) :
    entries.foldl putBack values other =
      match entries.lookup other with
      | some found => values found
      | none => values other := by
  induction entries generalizing values with
  | nil => rfl
  | cons entry rest ih =>
      obtain ⟨place, backup⟩ := entry
      rw [List.forall_mem_cons] at hplace hbackup hpresent
      rw [List.map_cons, List.nodup_cons] at hplaces hbackups
      have hmoved : putBack values (place, backup) = moved values backup place := if_neg hpresent.1
      -- the backups that remain are untouched by this move
      have hrest : ∀ found, (∃ key, (key, found) ∈ rest) → moved values backup place found = values found := by
        rintro found ⟨key, hmem⟩
        have hfound : found ∈ rest.map Prod.snd := List.mem_map_of_mem hmem
        refine moved_other values ?_ ?_
        · rintro rfl
          exact hbackups.1 hfound
        · rintro rfl
          exact hplace.1 (hbackup.2 _ hmem)
      rw [List.foldl_cons, hmoved, ih hplace.2 hbackup.2 _ hplaces.2 hbackups.2]
      · rw [List.lookup_cons]
        by_cases hsame : other = place
        · subst hsame
          rw [lookup_eq_none hplaces.1, beq_self_eq_true]
          exact moved_destination ..
        · rw [beq_false_of_ne hsame]
          rcases hfound : rest.lookup other with _ | found
          · refine moved_other values ?_ hsame
            rintro rfl
            exact hother hbackup.1
          · exact hrest found ⟨other, lookup_eq_some hfound⟩
      · intro later hmem
        rw [hrest later.2 ⟨later.1, hmem⟩]
        exact hpresent.2 later hmem

theorem undo_eq_before (h : Sound aside values log) {place : κ} (hplace : ¬ aside place) :
    undo log values place = before log values place := by
  have hkept : ∀ entry ∈ log.backups, removed values log.installed entry.2 = values entry.2 := by
    intro entry hentry
    exact if_neg fun hmem => h.installed _ hmem (h.backup entry hentry)
  unfold undo before
  rw [@foldl_putBack _ _ _ aside _ _ h.place h.backup ?_ h.places h.backups place hplace]
  · rcases hfound : log.backups.lookup place with _ | found
    · rfl
    · exact hkept _ (lookup_eq_some hfound)
  · intro entry hentry
    rw [hkept entry hentry]
    exact h.present entry hentry

end UndoLog

end CfdiVault
