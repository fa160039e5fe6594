import CfdiVault.Library.Text

/-!
# Substitution of matches

How `Text.substitute` goes through a text.  `Kept` says that the characters of a front are
written as they are.  Two texts that no match spans are gone through one after the other
(`substitute_append`).
-/

namespace CfdiVault

namespace Text

section Substitution

variable (isWord : Char → Bool) (matchLength : List Char → Option Nat)
variable (replacement : String → String)

/-- Matches are not empty, lie in the text, and end behind a word character where no other
word character follows. -/
structure WordMatches : Prop where
  pos : ∀ s n, matchLength s = some n → 0 < n
  le : ∀ s n, matchLength s = some n → n ≤ s.length
  endsInWord : ∀ s n, matchLength s = some n → ∃ c, s[n - 1]? = some c ∧ isWord c = true
  atBoundary : ∀ s n c, matchLength s = some n → s[n]? = some c → isWord c = false

/-- Whether a word character stands last, where `afterWord` says it of what stands before. -/
def lastWord (afterWord : Bool) (text : List Char) : Bool := (text.getLast?.map isWord).getD afterWord

/-- Every character of `front` is written as it is, with `rest` behind it. -/
def Kept (afterWord : Bool) : List Char → List Char → Prop
  | [], _ => True
  | c :: front, rest =>
      (afterWord = true ∨ matchLength (c :: front ++ rest) = none) ∧ Kept (isWord c) front rest

/-- The lengths of the matches that are found. -/
def foundLengths (afterWord : Bool) (skip : Nat) : List Char → List Nat
  | [] => []
  | c :: cs =>
      match skip with
      | n + 1 => foundLengths (isWord c) n cs
      | 0 =>
          match (if afterWord then none else matchLength (c :: cs)) with
          | some n => n :: foundLengths (isWord c) (n - 1) cs
          | none => foundLengths (isWord c) 0 cs

variable {isWord matchLength replacement} {afterWord : Bool} {text front rest found : List Char}
variable {c : Char}

theorem lastWord_cons : lastWord isWord afterWord (c :: text) = lastWord isWord (isWord c) text := by
  cases text <;> rfl

theorem lastWord_append :
    lastWord isWord afterWord (front ++ text) = lastWord isWord (lastWord isWord afterWord front) text := by
  induction front generalizing afterWord with
  | nil => rfl
  | cons c front ih => rw [List.cons_append, lastWord_cons, ih, lastWord_cons]

theorem kept_append {middle : List Char} : Kept isWord matchLength afterWord (front ++ middle) rest ↔
    Kept isWord matchLength afterWord front (middle ++ rest) ∧
      Kept isWord matchLength (lastWord isWord afterWord front) middle rest := by
  induction front generalizing afterWord with
  | nil => exact (true_and _).to_iff.symm
  | cons c front ih =>
      rw [List.cons_append, Kept, Kept, ih, lastWord_cons, ← List.cons_append, List.append_assoc, and_assoc]

/-- Word characters behind a word character are kept. -/
theorem kept_of_words (hwords : ∀ c ∈ front, isWord c = true) (h : afterWord = true) :
    Kept isWord matchLength afterWord front rest := by
  induction front generalizing afterWord with
  | nil => trivial
  | cons c front ih =>
      exact ⟨.inl h, ih (fun d hd => hwords d (List.mem_cons_of_mem c hd)) (hwords c (List.mem_cons_self ..))⟩

theorem substitute_keep (h : afterWord = true ∨ matchLength (c :: rest) = none) :
    substitute isWord matchLength replacement afterWord 0 (c :: rest) =
      c :: substitute isWord matchLength replacement (isWord c) 0 rest := by
  have hnone : (if afterWord = true then none else matchLength (c :: rest)) = none := by
    split
    · rfl
    · next hword => exact h.resolve_left hword
  rw [substitute, hnone]

/-- The rest of a match is passed over. -/
theorem substitute_skip (hne : found ≠ []) :
    substitute isWord matchLength replacement afterWord found.length (found ++ rest) =
      substitute isWord matchLength replacement (lastWord isWord afterWord found) 0 rest := by
  induction found generalizing afterWord with
  | nil => exact absurd rfl hne
  | cons c found ih =>
      rw [List.cons_append, List.length_cons, substitute, lastWord_cons]
      cases found with
      | nil => rfl
      | cons d found => exact ih (List.cons_ne_nil _ _)

/-- A match ends in a word character. -/
theorem WordMatches.lastWord_found (hm : WordMatches isWord matchLength)
    (h : matchLength (found ++ rest) = some found.length) : lastWord isWord afterWord found = true := by
  obtain ⟨e, hlast, hword⟩ := hm.endsInWord _ _ h
  have hpos := hm.pos _ _ h
  rw [List.getElem?_append_left (by omega), ← List.getLast?_eq_getElem?] at hlast
  rw [lastWord, hlast]
  exact hword

theorem substitute_found (hm : WordMatches isWord matchLength)
    (h : matchLength (found ++ rest) = some found.length) :
    substitute isWord matchLength replacement false 0 (found ++ rest) =
      (replacement (String.ofList found)).toList ++
        substitute isWord matchLength replacement true 0 rest := by
  have hword := @WordMatches.lastWord_found _ _ false _ _ hm h
  obtain ⟨c, found, rfl⟩ := List.exists_cons_of_length_pos (hm.pos _ _ h)
  rw [List.cons_append] at h ⊢
  rw [substitute, if_neg Bool.false_ne_true, h]
  have htake : (c :: (found ++ rest)).take (c :: found).length = c :: found := by
    rw [← List.cons_append, List.take_left]
  dsimp only
  rw [htake, List.length_cons, Nat.add_sub_cancel]
  rw [lastWord_cons] at hword
  congr 1
  cases found with
  | nil => exact congrArg (substitute isWord matchLength replacement · 0 rest) hword
  | cons d found => rw [substitute_skip (List.cons_ne_nil _ _), hword]

/-- What is kept is written in front of the rest. -/
theorem Kept.substitute (h : Kept isWord matchLength afterWord front rest) :
    Text.substitute isWord matchLength replacement afterWord 0 (front ++ rest) =
      front ++ Text.substitute isWord matchLength replacement (lastWord isWord afterWord front) 0 rest := by
  induction front generalizing afterWord with
  | nil => rfl
  | cons c front ih =>
      have hhere : afterWord = true ∨ matchLength (c :: (front ++ rest)) = none := h.1
      rw [List.cons_append, substitute_keep hhere, ih h.2, lastWord_cons, List.cons_append]

/-- A text begins with a character that is kept or with a match. -/
theorem kept_or_found (hm : WordMatches isWord matchLength) (afterWord : Bool) (c : Char) (rest : List Char) :
    (afterWord = true ∨ matchLength (c :: rest) = none) ∨
      (afterWord = false ∧ ∃ found left, c :: rest = found ++ left ∧ found ≠ [] ∧
        matchLength (found ++ left) = some found.length) := by
  cases afterWord with
  | true => exact .inl (.inl rfl)
  | false =>
      cases hfound : matchLength (c :: rest) with
      | none => exact .inl (.inr rfl)
      | some n =>
          have hlength : ((c :: rest).take n).length = n := by
            rw [List.length_take, Nat.min_eq_left (hm.le _ _ hfound)]
          refine .inr ⟨rfl, (c :: rest).take n, (c :: rest).drop n,
            (List.take_append_drop _ _).symm, ?_, ?_⟩
          · rw [← List.length_pos_iff, hlength]
            exact hm.pos _ _ hfound
          · rw [List.take_append_drop, hfound, hlength]

/-- What is written first is a character that is kept, or begins with the replacement of a match. -/
theorem written_cons (hm : WordMatches isWord matchLength) {written : List Char}
    (h : substitute isWord matchLength replacement afterWord 0 text = c :: written) :
    (∃ rest, text = c :: rest ∧ (afterWord = true ∨ matchLength (c :: rest) = none) ∧
      substitute isWord matchLength replacement (isWord c) 0 rest = written) ∨
    (afterWord = false ∧ ∃ found rest, text = found ++ rest ∧ found ≠ [] ∧
      matchLength (found ++ rest) = some found.length ∧
      (replacement (String.ofList found)).toList ++
        substitute isWord matchLength replacement true 0 rest = c :: written) := by
  cases text with
  | nil => cases h
  | cons d text =>
      rcases kept_or_found hm afterWord d text with hkeep | ⟨rfl, found, rest, heq, hne, hfound⟩
      · rw [substitute_keep hkeep] at h
        obtain ⟨rfl, hwritten⟩ := List.cons.inj h
        exact .inl ⟨text, rfl, hkeep, hwritten⟩
      · rw [heq, substitute_found hm hfound] at h
        exact .inr ⟨rfl, found, rest, heq, hne, hfound, h⟩

/-- Behind a word character, word characters that are written were read. -/
theorem written_words (hm : WordMatches isWord matchLength) {written : List Char}
    (hwords : ∀ c ∈ front, isWord c = true)
    (h : substitute isWord matchLength replacement true 0 text = front ++ written) :
    ∃ rest, text = front ++ rest := by
  induction front generalizing text with
  | nil => exact ⟨text, rfl⟩
  | cons c front ih =>
      rcases written_cons hm h with ⟨rest, rfl, -, hrest⟩ | ⟨hfalse, -⟩
      · rw [hwords c (List.mem_cons_self ..)] at hrest
        obtain ⟨left, rfl⟩ := ih (fun d hd => hwords d (List.mem_cons_of_mem c hd)) hrest
        exact ⟨left, rfl⟩
      · cases hfalse

/-- Where the matches of a text are the same with more text behind it, that is gone through
afterwards. -/
theorem substitute_append (hm : WordMatches isWord matchLength) {skip : Nat}
    (hsame : ∀ s, s ≠ [] → s <:+ text → matchLength (s ++ rest) = matchLength s)
    (hskip : skip ≤ text.length) :
    substitute isWord matchLength replacement afterWord skip (text ++ rest) =
      substitute isWord matchLength replacement afterWord skip text ++
        substitute isWord matchLength replacement (lastWord isWord afterWord text) 0 rest := by
  induction text generalizing afterWord skip with
  | nil =>
      obtain rfl := Nat.le_zero.mp hskip
      rfl
  | cons c text ih =>
      have hrest : ∀ s, s ≠ [] → s <:+ text → matchLength (s ++ rest) = matchLength s :=
        fun s hs h => hsame s hs (h.trans (List.suffix_cons _ _))
      rw [List.cons_append, lastWord_cons]
      cases skip with
      | succ n => rw [substitute, substitute, ih hrest (Nat.le_of_succ_le_succ hskip)]
      | zero =>
          have hhere := hsame (c :: text) (List.cons_ne_nil _ _) (List.suffix_refl _)
          rw [List.cons_append] at hhere
          rw [substitute, substitute, hhere]
          cases hfound : (if afterWord = true then none else matchLength (c :: text)) with
          | none =>
              dsimp only
              rw [ih hrest (Nat.zero_le _), List.cons_append]
          | some n =>
              have hn : matchLength (c :: text) = some n := by
                split at hfound
                · cases hfound
                · exact hfound
              have hle := hm.le _ _ hn
              rw [List.length_cons] at hle
              dsimp only
              rw [ih hrest (by omega), ← List.cons_append,
                List.take_append_of_le_length (by rw [List.length_cons]; exact hle), List.append_assoc]

/-- With replacements of one length, what is written is as long as the text less what each
match gives up. -/
theorem length_substitute (hm : WordMatches isWord matchLength) {width skip : Nat}
    (hwidth : ∀ s n, matchLength s = some n →
      width ≤ n ∧ (replacement (String.ofList (s.take n))).toList.length = width)
    (hskip : skip ≤ text.length) :
    (substitute isWord matchLength replacement afterWord skip text).length +
        ((foundLengths isWord matchLength afterWord skip text).map (· - width)).sum =
      text.length - skip := by
  induction text generalizing afterWord skip with
  | nil =>
      obtain rfl := Nat.le_zero.mp hskip
      rfl
  | cons c text ih =>
      cases skip with
      | succ n =>
          rw [substitute, foundLengths, ih (Nat.le_of_succ_le_succ hskip), List.length_cons,
            Nat.succ_sub_succ]
      | zero =>
          rw [substitute, foundLengths]
          cases hfound : (if afterWord = true then none else matchLength (c :: text)) with
          | none =>
              have hrest := @ih (isWord c) 0 (Nat.zero_le _)
              dsimp only
              rw [List.length_cons, List.length_cons]
              omega
          | some n =>
              have hn : matchLength (c :: text) = some n := by
                split at hfound
                · cases hfound
                · exact hfound
              have hle := hm.le _ _ hn
              have hpos := hm.pos _ _ hn
              obtain ⟨hwide, hlength⟩ := hwidth _ _ hn
              rw [List.length_cons] at hle
              have hrest := @ih (isWord c) (n - 1) (by omega)
              dsimp only
              rw [List.length_append, hlength, List.map_cons, List.sum_cons, List.length_cons]
              omega

end Substitution

end Text

end CfdiVault
