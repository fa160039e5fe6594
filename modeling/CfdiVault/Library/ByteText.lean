import CfdiVault.Library.IsoFormat
import Mathlib.Data.List.Chain

/-!
# Text in bytes

Texts in ASCII and in Latin-1, decimal numbers in bytes, and the first place where a mark
stands in a list.
-/

namespace CfdiVault

namespace ByteText

/-! ## Encodings -/

/-- `text.encode("latin-1", errors="replace")`, one character. -/
def latin1 (c : Char) : UInt8 := if c.toNat < 256 then UInt8.ofNat c.toNat else 63

/-- The bytes of an ASCII text. -/
def ascii (s : String) : List UInt8 := s.toList.map latin1

theorem ascii_append (s t : String) : ascii (s ++ t) = ascii s ++ ascii t := by
  simp only [ascii, String.toList_append, List.map_append]

theorem toNat_latin1 {c : Char} (h : c.toNat < 256) : (latin1 c).toNat = c.toNat := by
  rw [latin1, if_pos h]
  exact UInt8.toNat_ofNat_of_lt' h

/-- Only an unmappable character shares its byte, which is that of the question mark. -/
theorem latin1_eq {c d : Char} (hd : d.toNat < 256) (hmark : d ≠ '?') (h : latin1 c = latin1 d) :
    c = d := by
  by_cases hc : c.toNat < 256
  · have hnat := congrArg UInt8.toNat h
    rw [toNat_latin1 hc, toNat_latin1 hd] at hnat
    exact Char.toNat_inj.mp hnat
  · have hnat := congrArg UInt8.toNat h
    rw [toNat_latin1 hd, latin1, if_neg hc] at hnat
    have hsame : d.toNat = '?'.toNat := hnat.symm
    exact absurd (Char.toNat_inj.mp hsame) hmark

/-! ## Numbers -/

def isDigitByte (b : UInt8) : Bool := 48 ≤ b && b ≤ 57

/-- The number that the digits write. -/
def value (digits : List UInt8) : Nat := digits.foldl (fun n b => 10 * n + (b.toNat - 48)) 0

/-- The number at the head of the bytes. -/
def number? (bytes : List UInt8) : Option Nat :=
  let digits := bytes.takeWhile isDigitByte
  if digits = [] then none else some (value digits)

theorem isDigit_range {c : Char} (h : c.isDigit = true) : 48 ≤ c.toNat ∧ c.toNat ≤ 57 :=
  Char.isDigit_iff_toNat.mp h

theorem isDigitByte_latin1 {c : Char} (h : c.isDigit = true) : isDigitByte (latin1 c) = true := by
  have hrange := isDigit_range h
  have hnat : (latin1 c).toNat = c.toNat := toNat_latin1 (by omega)
  simp only [isDigitByte, Bool.and_eq_true, decide_eq_true_eq, UInt8.le_iff_toNat_le, hnat]
  exact hrange

theorem value_digits {cs : List Char} (h : ∀ c ∈ cs, c.isDigit = true) :
    value (cs.map latin1) = Nat.ofDigitChars 10 cs 0 := by
  rw [value, Nat.ofDigitChars_eq_foldl, List.foldl_map]
  refine List.foldl_ext _ _ _ fun n c hc => ?_
  have hrange := isDigit_range (h c hc)
  rw [toNat_latin1 (by omega)]
  rfl

/-- Digits followed by something else are read as their number. -/
theorem number?_digits {cs : List Char} {rest : List UInt8} (hne : cs ≠ [])
    (hdigits : ∀ c ∈ cs, c.isDigit = true) (hrest : (rest.head?.all fun b => !isDigitByte b) = true) :
    number? (cs.map latin1 ++ rest) = some (Nat.ofDigitChars 10 cs 0) := by
  have hall : ∀ b ∈ cs.map latin1, isDigitByte b = true := by
    intro b hb
    obtain ⟨c, hc, rfl⟩ := List.mem_map.mp hb
    exact isDigitByte_latin1 (hdigits c hc)
  have hstop : rest.takeWhile isDigitByte = [] := by
    cases rest with
    | nil => rfl
    | cons b rest =>
        exact List.takeWhile_cons_of_neg (by simpa using hrest)
  rw [number?, List.takeWhile_append_of_pos hall, hstop, List.append_nil,
    if_neg (by simpa using hne), value_digits hdigits]

theorem toList_toString (n : Nat) : (toString n).toList = Nat.toDigits 10 n := by
  rw [Nat.toString_eq_repr, Nat.repr, String.toList_ofList]

theorem isDigitByte_of_mem_toString {n : Nat} {b : UInt8} (h : b ∈ ascii (toString n)) :
    isDigitByte b = true := by
  obtain ⟨c, hc, rfl⟩ := List.mem_map.mp h
  rw [toList_toString] at hc
  exact isDigitByte_latin1 (Nat.isDigit_of_mem_toDigits (by decide) (by decide) hc)

theorem number?_toString {n : Nat} {rest : List UInt8}
    (hrest : (rest.head?.all fun b => !isDigitByte b) = true) :
    number? (ascii (toString n) ++ rest) = some n := by
  rw [ascii, toList_toString, number?_digits Nat.toDigits_ne_nil
    (fun c hc => Nat.isDigit_of_mem_toDigits (by decide) (by decide) hc) hrest,
    Nat.ofDigitChars_ten_toDigits]

theorem number?_padded {width n : Nat} {rest : List UInt8}
    (hrest : (rest.head?.all fun b => !isDigitByte b) = true) :
    number? (ascii (Text.padded width n) ++ rest) = some n := by
  have hne : (Text.padded width n).toList ≠ [] := by
    rw [Text.toList_padded]
    exact List.append_ne_nil_of_right_ne_nil _ Nat.toDigits_ne_nil
  rw [ascii, number?_digits hne (fun c => Text.isDigit_of_mem_padded) hrest, Text.toList_padded,
    Nat.ofDigitChars_append, Nat.ofDigitChars_replicate_zero, Nat.mul_zero,
    Nat.ofDigitChars_ten_toDigits]

/-! ## Marks -/

section Marks

variable {α : Type*} [DecidableEq α]

/-- What stands before the first mark, and what after it. -/
def breakOn (mark : List α) : List α → Option (List α × List α)
  | [] => if mark = [] then some ([], []) else none
  | x :: xs =>
      if mark.isPrefixOf (x :: xs) then some ([], (x :: xs).drop mark.length)
      else (breakOn mark xs).map fun (before, after) => (x :: before, after)

theorem breakOn_mark {mark rest : List α} (hne : mark ≠ []) :
    breakOn mark (mark ++ rest) = some ([], rest) := by
  obtain ⟨a, mark, rfl⟩ := List.exists_cons_of_ne_nil hne
  rw [List.cons_append, breakOn, ← List.cons_append,
    if_pos (List.isPrefixOf_iff_prefix.mpr (List.prefix_append _ _)), List.drop_left]

/-- A mark is found where no two neighbours before it are its first two. -/
theorem breakOn_append {a b : α} {mark before rest : List α}
    (h : (before ++ [a]).IsChain fun x y => ¬ (x = a ∧ y = b)) :
    breakOn (a :: b :: mark) (before ++ (a :: b :: mark ++ rest)) = some (before, rest) := by
  induction before with
  | nil => exact breakOn_mark (List.cons_ne_nil _ _)
  | cons x before ih =>
      have hpre : (a :: b :: mark).isPrefixOf (x :: (before ++ (a :: b :: mark ++ rest))) = false := by
        rw [Bool.eq_false_iff]
        intro hp
        obtain ⟨tail, htail⟩ := List.isPrefixOf_iff_prefix.mp hp
        obtain ⟨rfl, hnext⟩ := List.cons.inj htail
        cases before with
        | nil =>
            have hab : b = a := (List.cons.inj hnext).1
            exact (List.isChain_pair.mp h) ⟨rfl, hab.symm⟩
        | cons y before =>
            exact (List.isChain_cons_cons.mp h).1 ⟨rfl, (List.cons.inj hnext).1.symm⟩
      rw [List.cons_append, breakOn, hpre, ih h.tail]
      rfl

/-- A mark is found where its second character does not stand before it. -/
theorem breakOn_of_second {a b : α} {mark before rest : List α} (hab : b ≠ a) (h : b ∉ before) :
    breakOn (a :: b :: mark) (before ++ (a :: b :: mark ++ rest)) = some (before, rest) := by
  have hb : b ∉ before ++ [a] := fun hmem =>
    (List.mem_append.mp hmem).elim h fun hlast => hab (List.mem_singleton.mp hlast)
  have hpairs : (before ++ [a]).Pairwise fun x y => ¬ (x = a ∧ y = b) := by
    refine List.pairwise_of_forall_mem_list fun x _ y hy hxy => hb ?_
    exact hxy.2 ▸ hy
  exact breakOn_append hpairs.isChain

/-- A mark is found where its first character does not stand before it. -/
theorem breakOn_of_not_mem {a b : α} {mark before rest : List α} (h : a ∉ before) :
    breakOn (a :: b :: mark) (before ++ (a :: b :: mark ++ rest)) = some (before, rest) := by
  apply breakOn_append
  induction before with
  | nil => exact List.isChain_singleton _
  | cons x before ih =>
      have hx : x ≠ a := fun hx => h (hx ▸ List.mem_cons_self)
      cases before with
      | nil => exact List.isChain_pair.mpr fun hxa => hx hxa.1
      | cons y before =>
          exact List.isChain_cons_cons.mpr
            ⟨fun hxa => hx hxa.1, ih fun ha => h (List.mem_cons_of_mem _ ha)⟩

end Marks

end ByteText

end CfdiVault
