import CfdiVault.PackageScreening

/-!
# The passes of the screening

The loop of `_reject_raw_backslash_names` moves a cursor by lengths that it reads from the
content.  `pass` is one turn of it, with reads that fail outside the content.  No turn reads
outside (`pass_reads`), a turn that goes on moves the cursor by the size of a header at least
(`pass_moves`), so the loop ends on any bytes after at most as many turns as there are bytes
(`screening_ends`).
-/

namespace CfdiVault

namespace PackageProcessor

/-! ## One turn of the loop -/

/-- How a turn ends: the signature is not found, the function returns or raises at the
signature found, a read falls outside the content, or the cursor moves on. -/
inductive Pass where
  | finished
  | truncated (found : Nat)
  | backslash (found : Nat)
  | structError (found : Nat)
  | moved (found cursor : Nat)
  deriving DecidableEq

/-- `content.find(signature, cursor)` -/
def findFrom (signature content : Bytes) (cursor : Nat) : Option Nat :=
  (findSignature signature (content.drop cursor)).map fun found => content.length - found.length

/-- `struct.unpack_from("<H", content, offset)[0]`, refused outside the content. -/
def unpackFrom (content : Bytes) (offset : Nat) : Option Nat :=
  if offset + 2 ≤ content.length then some (unpackShort content offset) else none

/-- The body of `while True`. -/
def pass (kind : Header) (content : Bytes) (cursor : Nat) : Pass :=
  match findFrom kind.signature content cursor with
  | none => .finished
  | some found =>
      if content.length < found + kind.size then .truncated found
      else
        match unpackFrom content (found + kind.nameOffset), unpackFrom content (found + kind.extraOffset) with
        | some nameLength, some extraLength =>
            let nameStart := found + kind.size
            let nameEnd := nameStart + nameLength
            if content.length < nameEnd then .truncated found
            else if 0x5c ∈ (content.drop nameStart).take nameLength then .backslash found
            else .moved found (nameEnd + extraLength)
        | _, _ => .structError found

/-- The turns of the loop from a cursor to its end, with the signatures that they find. -/
inductive Turns (kind : Header) (content : Bytes) : Nat → List Nat → NameScan → Prop
  | finished {cursor : Nat} (h : pass kind content cursor = .finished) : Turns kind content cursor [] .finished
  | truncated {cursor found : Nat} (h : pass kind content cursor = .truncated found) :
      Turns kind content cursor [found] .truncated
  | backslash {cursor found : Nat} (h : pass kind content cursor = .backslash found) :
      Turns kind content cursor [found] .backslash
  | moved {cursor found next : Nat} {more : List Nat} {ending : NameScan}
      (h : pass kind content cursor = .moved found next) (hmore : Turns kind content next more ending) :
      Turns kind content cursor (found :: more) ending

/-- The function from its start to its end, with the signatures that its turns find.  A local
header that is cut off ends the function before it looks for central headers. -/
inductive Screens (content : Bytes) : List Nat → Except PackageFault Unit → Prop
  | rejected {found : List Nat} (h : Turns localHeader content 0 found .backslash) :
      Screens content found (.error (.rejected "backslash ZIP entry path rejected"))
  | givenUp {found : List Nat} (h : Turns localHeader content 0 found .truncated) :
      Screens content found (.ok ())
  | central {found more : List Nat} {ending : NameScan} (h : Turns localHeader content 0 found .finished)
      (hmore : Turns centralHeader content 0 more ending) :
      Screens content (found ++ more) (if ending = .backslash then
        .error (.rejected "backslash ZIP entry path rejected") else .ok ())

/-- A header has both its lengths within its size. -/
def Header.Sized (kind : Header) : Prop :=
  kind.signature ≠ [] ∧ kind.signature.length ≤ kind.size ∧ kind.nameOffset + 2 ≤ kind.size ∧
    kind.extraOffset + 2 ≤ kind.size

theorem localHeader_sized : localHeader.Sized := by
  unfold Header.Sized
  decide

theorem centralHeader_sized : centralHeader.Sized := by
  unfold Header.Sized
  decide

section Turn

variable {kind : Header} {content signature : Bytes} {cursor found next : Nat}

/-- A signature is found behind the cursor, and the content from it on is what is found. -/
theorem findFrom_eq_some (hne : signature ≠ []) (h : findFrom signature content cursor = some found) :
    cursor ≤ found ∧ found + signature.length ≤ content.length ∧
      findSignature signature (content.drop cursor) = some (content.drop found) := by
  obtain ⟨rest, hfind, hlength⟩ := Option.map_eq_some_iff.mp h
  obtain ⟨p, hrest, hprefix, -⟩ := findSignature_some hfind
  rw [List.drop_drop] at hrest hprefix
  have hshort := hprefix.length_le
  rw [List.length_drop] at hshort
  have hpos := List.length_pos_iff.mpr hne
  have hfound : found = cursor + p := by
    rw [← hlength, hrest, List.length_drop]
    omega
  refine ⟨by omega, by omega, ?_⟩
  rw [hfind, hrest, hfound]

theorem unpackShort_drop {offset : Nat} :
    unpackShort (content.drop found) offset = unpackShort content (found + offset) := by
  simp only [unpackShort, List.getD_eq_getElem?_getD, List.getElem?_drop, Nat.add_assoc]

/-- No turn reads outside the content. -/
theorem pass_reads (hsized : kind.Sized) : pass kind content cursor ≠ .structError found := by
  obtain ⟨-, -, hname, hextra⟩ := hsized
  unfold pass
  split
  · exact Pass.noConfusion
  · next at' _ =>
      split
      · exact Pass.noConfusion
      · next hwhole =>
          rw [unpackFrom, if_pos (by omega), unpackFrom, if_pos (by omega)]
          dsimp only
          split_ifs <;> exact Pass.noConfusion

/-- A turn that goes on moves the cursor past a header of full size. -/
theorem pass_moves (hsized : kind.Sized) (h : pass kind content cursor = .moved found next) :
    cursor ≤ found ∧ found + kind.size ≤ next := by
  unfold pass at h
  split at h
  · cases h
  · next hfind =>
      obtain ⟨hcursor, -, -⟩ := findFrom_eq_some hsized.1 hfind
      split at h
      · cases h
      · split at h
        · dsimp only at h
          split_ifs at h
          cases h
          exact ⟨hcursor, by omega⟩
        · cases h

/-- A signature that is found lies in the content. -/
theorem pass_found (hsized : kind.Sized) (h : pass kind content cursor = .truncated found ∨
    pass kind content cursor = .backslash found ∨ pass kind content cursor = .moved found next) :
    cursor ≤ found ∧ found + kind.signature.length ≤ content.length := by
  unfold pass at h
  split at h
  · simp at h
  · next hfind =>
      obtain ⟨hcursor, hlength, -⟩ := findFrom_eq_some hsized.1 hfind
      split at h
      · simp only [Pass.truncated.injEq, reduceCtorEq, or_self, or_false] at h
        exact h ▸ ⟨hcursor, hlength⟩
      · split at h
        · dsimp only at h
          split_ifs at h
          all_goals
            simp only [Pass.truncated.injEq, Pass.backslash.injEq, Pass.moved.injEq,
              or_false, false_or] at h
          · exact h ▸ ⟨hcursor, hlength⟩
          · exact h ▸ ⟨hcursor, hlength⟩
          · exact h.1 ▸ ⟨hcursor, hlength⟩
        · simp at h

end Turn

/-! ## The loop -/

section Loop

variable {kind : Header} {content : Bytes} {cursor : Nat} {found : List Nat} {ending : NameScan}

/-- The signatures found stand a header apart. -/
theorem Turns.apart (hsized : kind.Sized) (h : Turns kind content cursor found ending)
    (hne : found ≠ []) :
    cursor + (found.length - 1) * kind.size + kind.signature.length ≤ content.length := by
  induction h with
  | finished => exact absurd rfl hne
  | truncated h =>
      have hfound := @pass_found kind content _ _ 0 hsized (.inl h)
      simp only [List.length_singleton, Nat.sub_self, Nat.zero_mul]
      omega
  | backslash h =>
      have hfound := @pass_found kind content _ _ 0 hsized (.inr (.inl h))
      simp only [List.length_singleton, Nat.sub_self, Nat.zero_mul]
      omega
  | @moved cursor at' next more _ h _ ih =>
      have hfound := pass_found hsized (.inr (.inr h))
      have hmoves := pass_moves hsized h
      by_cases hlast : more = []
      · subst hlast
        simp only [List.length_singleton, Nat.sub_self, Nat.zero_mul]
        omega
      · have hrest := ih hlast
        have hpos := List.length_pos_iff.mpr hlast
        have hcount : (at' :: more).length - 1 = more.length - 1 + 1 := by
          rw [List.length_cons]
          omega
        rw [hcount, Nat.succ_mul]
        omega

/-- The loop ends, as the search for names does. -/
theorem turns_end (hsized : kind.Sized) {fuel : Nat} (hfuel : (content.drop cursor).length ≤ fuel) :
    ∃ found, Turns kind content cursor found (scanNames kind fuel (content.drop cursor)) := by
  have hsignature := List.length_pos_iff.mpr hsized.1
  induction fuel generalizing cursor with
  | zero =>
      have hnil : content.drop cursor = [] := List.length_eq_zero_iff.mp (Nat.le_zero.mp hfuel)
      refine ⟨[], .finished ?_⟩
      rw [pass, findFrom, hnil]
      rfl
  | succ fuel ih =>
      cases hfind : findFrom kind.signature content cursor with
      | none =>
          have hnone : findSignature kind.signature (content.drop cursor) = none :=
            Option.map_eq_none_iff.mp hfind
          refine ⟨[], ?_⟩
          rw [scanNames, hnone]
          exact .finished (by rw [pass, hfind])
      | some at' =>
          obtain ⟨hcursor, hlength, hsome⟩ := findFrom_eq_some hsized.1 hfind
          have hdrop : (content.drop at').length = content.length - at' := List.length_drop
          rw [scanNames, hsome]
          dsimp only
          by_cases hheader : content.length < at' + kind.size
          · refine ⟨[at'], ?_⟩
            rw [if_pos (by omega)]
            exact .truncated (by rw [pass, hfind]; exact if_pos hheader)
          · obtain ⟨-, -, hname, hextra⟩ := hsized
            have hpass : pass kind content cursor =
                if content.length < at' + kind.size + unpackShort (content.drop at') kind.nameOffset then
                  .truncated at'
                else if 0x5c ∈ ((content.drop at').drop kind.size).take
                    (unpackShort (content.drop at') kind.nameOffset) then .backslash at'
                else .moved at' (at' + kind.size + unpackShort (content.drop at') kind.nameOffset +
                  unpackShort (content.drop at') kind.extraOffset) := by
              rw [pass, hfind]
              dsimp only
              rw [if_neg hheader, unpackFrom, if_pos (by omega), unpackFrom, if_pos (by omega),
                List.drop_drop, unpackShort_drop, unpackShort_drop]
            rw [if_neg (by omega)]
            split_ifs with hshort hback
            · refine ⟨[at'], .truncated ?_⟩
              rw [hpass, if_pos (by omega)]
            · refine ⟨[at'], .backslash ?_⟩
              rw [hpass, if_neg (by omega), if_pos hback]
            · rw [List.drop_drop, ← Nat.add_assoc, ← Nat.add_assoc]
              obtain ⟨more, hmore⟩ := @ih (at' + kind.size +
                unpackShort (content.drop at') kind.nameOffset +
                unpackShort (content.drop at') kind.extraOffset) (by
                  rw [List.length_drop] at hfuel ⊢
                  omega)
              refine ⟨at' :: more, .moved ?_ hmore⟩
              rw [hpass, if_neg (by omega), if_neg hback]

/-- The function ends, with the answer of the search for names. -/
theorem screens_end (content : Bytes) :
    ∃ found, Screens content found (rejectRawBackslashNames content) := by
  obtain ⟨found, hlocal⟩ := @turns_end localHeader content 0 localHeader_sized content.length
    (Nat.le_refl _)
  obtain ⟨more, hcentral⟩ := @turns_end centralHeader content 0 centralHeader_sized content.length
    (Nat.le_refl _)
  rw [List.drop_zero] at hlocal hcentral
  unfold rejectRawBackslashNames
  generalize scanNames localHeader content.length content = ending at hlocal ⊢
  generalize scanNames centralHeader content.length content = ending' at hcentral ⊢
  cases ending with
  | backslash => exact ⟨found, .rejected hlocal⟩
  | truncated => exact ⟨found, .givenUp hlocal⟩
  | finished =>
      refine ⟨found ++ more, ?_⟩
      have hscreens := Screens.central hlocal hcentral
      cases ending' <;> exact hscreens

/-- There are no more turns at a signature than bytes. -/
theorem Screens.length_le {outcome : Except PackageFault Unit} (h : Screens content found outcome) :
    found.length ≤ content.length := by
  have hlocal : ∀ {found ending}, Turns localHeader content 0 found ending → found ≠ [] →
      (found.length - 1) * 30 + 4 ≤ content.length := by
    intro found ending h hne
    have hapart := h.apart localHeader_sized hne
    rwa [Nat.zero_add] at hapart
  have hcentral : ∀ {found ending}, Turns centralHeader content 0 found ending → found ≠ [] →
      (found.length - 1) * 46 + 4 ≤ content.length := by
    intro found ending h hne
    have hapart := h.apart centralHeader_sized hne
    rwa [Nat.zero_add] at hapart
  have hzero : ∀ found : List Nat, found = [] → found.length = 0 := fun _ h => by rw [h]; rfl
  cases h with
  | rejected h =>
      by_cases hne : found = []
      · rw [hne]
        exact Nat.zero_le _
      · have hbound := hlocal h hne
        omega
  | givenUp h =>
      by_cases hne : found = []
      · rw [hne]
        exact Nat.zero_le _
      · have hbound := hlocal h hne
        omega
  | @central found more _ h hmore =>
      rw [List.length_append]
      by_cases hne : found = []
      · rw [hzero found hne, Nat.zero_add]
        by_cases hne' : more = []
        · rw [hzero more hne']
          exact Nat.zero_le _
        · have hbound := hcentral hmore hne'
          omega
      · have hbound := hlocal h hne
        by_cases hne' : more = []
        · rw [hzero more hne']
          omega
        · have hbound' := hcentral hmore hne'
          omega

end Loop

/-- The function ends on any bytes, with no more turns at a signature than there are bytes.
A turn from any cursor reads inside the content only, and one that goes on moves the cursor
past a header of full size. -/
theorem screening_ends (content : Bytes) :
    (∃ found, Screens content found (rejectRawBackslashNames content) ∧
      found.length ≤ content.length) ∧
    ∀ kind ∈ [localHeader, centralHeader], ∀ cursor,
      (∀ found, pass kind content cursor ≠ .structError found) ∧
      ∀ found next, pass kind content cursor = .moved found next →
        cursor ≤ found ∧ found + kind.size ≤ next := by
  constructor
  · obtain ⟨found, hscreens⟩ := screens_end content
    exact ⟨found, hscreens, hscreens.length_le⟩
  · intro kind hkind cursor
    have hsized : kind.Sized := by
      obtain rfl | hkind := List.mem_cons.mp hkind
      · exact localHeader_sized
      · exact List.mem_singleton.mp hkind ▸ centralHeader_sized
    exact ⟨fun found => pass_reads hsized, fun found next => pass_moves hsized⟩

end PackageProcessor

end CfdiVault
