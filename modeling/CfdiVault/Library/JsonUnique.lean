import CfdiVault.Library.JsonReader

/-!
# Decoded dictionaries

Whatever the text, the dictionaries of a decoded document have different keys, at any depth
(`unique_loads`): a step of the reader keeps the keys of all that it holds different.
-/

namespace CfdiVault

namespace JsonReader

variable {host : JsonHost} {stack : List Frame} {r r' : Reader} {text : CodeText} {first isKey : Bool}

/-- What is open has different keys. -/
def Frame.Unique : Frame → Prop
  | .arr items => (Document.arr items).Everywhere Document.UniqueKeys
  | .obj members | .member members _ => (Document.obj members).Everywhere Document.UniqueKeys

def Mode.Unique : Mode → Prop
  | .literal _ result | .done result => result.Everywhere Document.UniqueKeys
  | _ => True

/-- Everything that a reader holds has different keys. -/
structure Reader.Unique (r : Reader) : Prop where
  stack : ∀ frame ∈ r.stack, frame.Unique
  mode : r.mode.Unique

theorem unique_complete {value : Document} (h : ∀ frame ∈ stack, frame.Unique)
    (hvalue : value.Everywhere Document.UniqueKeys) : (complete value stack).Unique := by
  cases stack with
  | nil => exact ⟨h, hvalue⟩
  | cons frame rest =>
      obtain ⟨hframe, hrest⟩ := List.forall_mem_cons.mp h
      cases frame with
      | arr items =>
          refine ⟨List.forall_mem_cons.mpr ⟨?_, hrest⟩, trivial⟩
          refine Document.everywhere_arr.mpr ⟨trivial, fun item hitem => ?_⟩
          rcases List.mem_append.mp hitem with hold | hnew
          · exact (Document.everywhere_arr.mp hframe).2 item hold
          · rwa [List.mem_singleton.mp hnew]
      | obj members => exact ⟨h, trivial⟩
      | member members key =>
          obtain ⟨hkeys, hvalues⟩ := Document.everywhere_obj.mp hframe
          refine ⟨List.forall_mem_cons.mpr ⟨?_, hrest⟩, trivial⟩
          refine Document.everywhere_obj.mpr ⟨Dictionary.nodup_assign hkeys, fun member hmember => ?_⟩
          rcases Dictionary.mem_assign hmember with rfl | hold
          · exact hvalue
          · exact hvalues member hold

theorem unique_finishNumber {phase : Phase} {chars : List Char} {value : Document}
    (h : finishNumber host stack phase chars = .ok value) : value.Everywhere Document.UniqueKeys := by
  cases phase with
  | zero | whole =>
      rw [finishNumber] at h
      split_ifs at h
      cases h
      exact Document.everywhere_leaf rfl trivial
  | fraction | power =>
      cases h
      exact Document.everywhere_leaf rfl trivial
  | minus | point | exponent | sign => cases h

theorem unique_literal? {c : Char} {rest : List Char} {result : Document} (h : literal? c = some (rest, result)) :
    result.Everywhere Document.UniqueKeys := by
  unfold literal? at h
  split_ifs at h <;> cases h <;> exact Document.everywhere_leaf rfl trivial

theorem unique_stepAfter {c : Char} (h : r.Unique) (hstep : stepAfter r c = .ok r') : r'.Unique := by
  obtain ⟨stack, mode⟩ := r
  unfold stepAfter at hstep
  split at hstep
  · cases hstep
    exact h
  · split at hstep
    · rename_i items rest hstack
      obtain ⟨hitems, hrest⟩ := List.forall_mem_cons.mp (hstack ▸ h.stack)
      split_ifs at hstep <;> cases hstep
      · exact ⟨List.forall_mem_cons.mpr ⟨hitems, hrest⟩, trivial⟩
      · exact unique_complete hrest hitems
    · rename_i members rest hstack
      obtain ⟨hmembers, hrest⟩ := List.forall_mem_cons.mp (hstack ▸ h.stack)
      split_ifs at hstep <;> cases hstep
      · exact ⟨List.forall_mem_cons.mpr ⟨hmembers, hrest⟩, trivial⟩
      · exact unique_complete hrest hmembers
    · cases hstep

theorem unique_stepValue {c : Char} (h : ∀ frame ∈ stack, frame.Unique)
    (hstep : stepValue stack first c = .ok r') : r'.Unique := by
  unfold stepValue at hstep
  split_ifs at hstep
  · cases hstep; exact ⟨h, trivial⟩
  · cases hstep; exact ⟨h, trivial⟩
  · cases hstep
    exact ⟨List.forall_mem_cons.mpr ⟨Document.everywhere_leaf rfl List.nodup_nil, h⟩, trivial⟩
  · cases hstep
    exact ⟨List.forall_mem_cons.mpr ⟨Document.everywhere_leaf rfl trivial, h⟩, trivial⟩
  · split at hstep
    · cases hstep
      obtain ⟨hitems, hrest⟩ := List.forall_mem_cons.mp h
      exact unique_complete hrest hitems
    · cases hstep
  · split at hstep
    · rename_i hliteral
      cases hstep
      exact ⟨h, unique_literal? hliteral⟩
    · cases hstep; exact ⟨h, trivial⟩
    · cases hstep

theorem unique_stepKey {c : Char} (h : ∀ frame ∈ stack, frame.Unique)
    (hstep : stepKey stack first c = .ok r') : r'.Unique := by
  unfold stepKey at hstep
  split_ifs at hstep
  · cases hstep; exact ⟨h, trivial⟩
  · cases hstep; exact ⟨h, trivial⟩
  · split at hstep
    · cases hstep
      obtain ⟨hmembers, hrest⟩ := List.forall_mem_cons.mp h
      exact unique_complete hrest hmembers
    · cases hstep

theorem unique_stepColon {c : Char} {key : CodeText} (h : ∀ frame ∈ stack, frame.Unique)
    (hstep : stepColon stack key c = .ok r') : r'.Unique := by
  unfold stepColon at hstep
  split_ifs at hstep
  · cases hstep; exact ⟨h, trivial⟩
  · split at hstep
    · cases hstep
      obtain ⟨hmembers, hrest⟩ := List.forall_mem_cons.mp h
      exact ⟨List.forall_mem_cons.mpr ⟨hmembers, hrest⟩, trivial⟩
    · cases hstep

theorem unique_stepNumber {c : Char} {phase : Phase} {chars : List Char} (h : ∀ frame ∈ stack, frame.Unique)
    (hstep : stepNumber host stack phase chars c = .ok r') : r'.Unique := by
  unfold stepNumber at hstep
  split at hstep
  · cases hstep; exact ⟨h, trivial⟩
  · split_ifs at hstep
    · cases hstep
      exact ⟨h, Document.everywhere_leaf rfl trivial⟩
    · cases hvalue : finishNumber host stack phase chars with
      | error fault => rw [hvalue] at hstep; cases hstep
      | ok value =>
          rw [hvalue] at hstep
          exact unique_stepAfter (unique_complete h (unique_finishNumber hvalue)) hstep

theorem unique_completeString {key : Bool} (h : ∀ frame ∈ stack, frame.Unique) :
    (completeString key text stack).Unique := by
  cases key with
  | true => exact ⟨h, trivial⟩
  | false => exact unique_complete h (Document.everywhere_leaf rfl trivial)

theorem unique_pushUnit {read : CodeText} {high : Option Nat} {unit : Nat} (h : ∀ frame ∈ stack, frame.Unique) :
    (Reader.mk stack (pushUnit isKey read high unit)).Unique := by
  unfold pushUnit
  split_ifs
  · split <;> exact ⟨h, trivial⟩
  · exact ⟨h, trivial⟩
  · exact ⟨h, trivial⟩

theorem unique_stepChar {c : Char} (h : r.Unique) (hstep : stepChar host r c = .ok r') : r'.Unique := by
  obtain ⟨stack, mode⟩ := r
  obtain ⟨hstack, hmode⟩ := h
  cases mode with
  | value first => exact unique_stepValue hstack hstep
  | key first => exact unique_stepKey hstack hstep
  | colon key => exact unique_stepColon hstack hstep
  | string isKey read high =>
      simp only [stepChar] at hstep
      split_ifs at hstep <;> cases hstep
      · exact unique_completeString hstack
      · exact ⟨hstack, trivial⟩
      · exact ⟨hstack, trivial⟩
  | escape isKey read high =>
      simp only [stepChar] at hstep
      split_ifs at hstep
      · cases hstep; exact ⟨hstack, trivial⟩
      · split at hstep <;> cases hstep
        exact ⟨hstack, trivial⟩
  | unit isKey read high missing unit =>
      simp only [stepChar] at hstep
      split at hstep
      · cases hstep
      · split_ifs at hstep <;> cases hstep
        · exact unique_pushUnit hstack
        · exact ⟨hstack, trivial⟩
  | literal rest result =>
      cases rest with
      | nil => exact unique_stepAfter (unique_complete hstack hmode) hstep
      | cons d rest =>
          simp only [stepChar] at hstep
          split_ifs at hstep <;> cases hstep
          · exact unique_complete hstack hmode
          · exact ⟨hstack, hmode⟩
  | number phase chars => exact unique_stepNumber hstack hstep
  | after => exact unique_stepAfter ⟨hstack, hmode⟩ hstep
  | done result => exact unique_stepAfter ⟨hstack, hmode⟩ hstep

/-- A step keeps the keys different. -/
theorem unique_step {point : CodePoint} (h : r.Unique) (hstep : step host r point = .ok r') : r'.Unique := by
  cases point with
  | scalar c => exact unique_stepChar h hstep
  | surrogate n =>
      obtain ⟨stack, mode⟩ := r
      cases mode with
      | string isKey read high =>
          cases hstep
          exact ⟨h.stack, trivial⟩
      | number phase chars =>
          simp only [step] at hstep
          cases hvalue : finishNumber host stack phase chars <;> rw [hvalue] at hstep <;> cases hstep
      | _ => cases hstep

/-- The keys stay different in a run. -/
theorem unique_run (h : r.Unique) (hrun : run host r text = .ok r') : r'.Unique := by
  induction text generalizing r with
  | nil =>
      cases hrun
      exact h
  | cons point rest ih =>
      rw [run_cons] at hrun
      cases hstep : step host r point with
      | error fault => rw [hstep] at hrun; cases hrun
      | ok next =>
          rw [hstep] at hrun
          exact ih (unique_step h hstep) hrun

/-- The dictionaries of a decoded document have different keys. -/
theorem unique_loads {value : Document} (h : loads host text = .ok value) :
    value.Everywhere Document.UniqueKeys := by
  unfold loads at h
  split_ifs at h
  cases hrun : run host .start text with
  | error fault => rw [hrun] at h; cases h
  | ok r =>
      rw [hrun] at h
      have hstart : Reader.start.Unique := ⟨List.forall_mem_nil _, trivial⟩
      have hr : r.Unique := unique_run hstart hrun
      obtain ⟨stack, mode⟩ := r
      change finish host ⟨stack, mode⟩ = .ok value at h
      cases mode with
      | done result =>
          cases h
          exact hr.mode
      | number phase chars =>
          simp only [finish] at h
          cases hvalue : finishNumber host stack phase chars with
          | error fault => rw [hvalue] at h; cases h
          | ok number =>
              rw [hvalue] at h
              have hnumber : number = value := by
                change (if stack.isEmpty = true then _ else _) = _ at h
                split_ifs at h
                cases h
                rfl
              exact hnumber ▸ unique_finishNumber hvalue
      | _ => cases h

end JsonReader

end CfdiVault
