import Mathlib.Data.Nat.Digits.Defs
import Mathlib.Data.List.DropRight

/-!
# Text

The string operations of the source language that the modelled program relies
on: stripping, ASCII case folding, character replacement, slicing, ordered
comparison, and the rendering of a cryptographic digest.

Everything is written on `String.toList`, so that a closed instance computes in
the kernel.  Two facts of the host runtime stay abstract and are collected in
`Runtime`: the digest function and the non-ASCII part of the character tables.
-/

namespace CfdiVault

/-- Raw file or payload content. -/
abbrev Bytes := List UInt8

/-- A 256-bit digest. -/
abbrev Digest := Fin (2 ^ 256)

instance digestSpace : NeZero (2 ^ 256) := ⟨by decide⟩

/-- What the modelled program takes from its host: SHA-256 of a text (through its
UTF-8 encoding) and of bytes, full Unicode upper- and lower-casing, and the
classification of non-ASCII characters as alphanumeric. -/
structure Runtime where
  sha256Text : String → Digest
  sha256Bytes : Bytes → Digest
  upper : String → String
  lower : String → String
  alnum : Char → Bool

namespace Text

/-- `str.isspace` on one character. -/
def isSpace (c : Char) : Bool :=
  let n := c.toNat
  (9 ≤ n && n ≤ 13) || (28 ≤ n && n ≤ 32) || n == 0x85 || n == 0xA0 || n == 0x1680 ||
    (0x2000 ≤ n && n ≤ 0x200A) || n == 0x2028 || n == 0x2029 || n == 0x202F ||
    n == 0x205F || n == 0x3000

/-- `str.strip()`. -/
def strip (s : String) : String :=
  String.ofList ((s.toList.dropWhile isSpace).rdropWhile isSpace)

/-- Lower-casing of one character, as far as it gives an ASCII letter: the letters
themselves and the Kelvin sign. -/
def lowerChar (c : Char) : Char :=
  if 'A' ≤ c ∧ c ≤ 'Z' then Char.ofNat (c.toNat + 32)
  else if c.toNat = 0x212A then 'k'
  else c

/-- `str.lower()` as far as it gives ASCII letters.  It is used only before a
comparison with ASCII words, where the other case mappings of Unicode make no
difference. -/
def lower (s : String) : String :=
  String.ofList (s.toList.map lowerChar)

/-- The slice `s[:n]`. -/
def takeChars (n : Nat) (s : String) : String :=
  String.ofList (s.toList.take n)

/-- The slice `s[-n:]`. -/
def takeLast (n : Nat) (s : String) : String :=
  String.ofList (s.toList.drop (s.toList.length - n))

/-- `s.replace(old, new)` for a one-character `old`. -/
def replaceChar (old : Char) (new : String) (s : String) : String :=
  String.ofList (s.toList.flatMap fun c => if c = old then new.toList else [c])

/-- A decimal rendering padded with zeros to at least `width` digits. -/
def padded (width n : Nat) : String :=
  let ds := Nat.toDigits 10 n
  String.ofList (List.replicate (width - ds.length) '0' ++ ds)

/-- `xs[:limit]` for a possibly negative `limit`. -/
def sliceTo {α : Type*} (limit : Int) (xs : List α) : List α :=
  match limit with
  | .ofNat n => xs.take n
  | .negSucc n => xs.take (xs.length - (n + 1))

theorem sliceTo_sublist {α : Type*} (limit : Int) (xs : List α) :
    (sliceTo limit xs).Sublist xs := by
  cases limit with
  | ofNat n => exact List.take_sublist n xs
  | negSucc n => exact List.take_sublist _ xs

/-- The words of `str.split()`. -/
def words (s : String) : List String :=
  (s.toList.splitOnP isSpace).filterMap fun word =>
    if word = [] then none else some (String.ofList word)

/-- `re.sub` for a pattern of nonempty matches that starts with `\b` and a word
character, scanning from the left.  `matchLength` gives the length of the match at
the front of the rest, `afterWord` says whether the previous character was a word
character, and `skip` counts the characters of the current match still to be dropped. -/
def substitute (isWord : Char → Bool) (matchLength : List Char → Option Nat)
    (replacement : String → String) (afterWord : Bool) (skip : Nat) : List Char → List Char
  | [] => []
  | c :: cs =>
      let next := isWord c
      match skip with
      | n + 1 => substitute isWord matchLength replacement next n cs
      | 0 =>
          match (if afterWord then none else matchLength (c :: cs)) with
          | some n =>
              (replacement (String.ofList ((c :: cs).take n))).toList ++
                substitute isWord matchLength replacement next (n - 1) cs
          | none => c :: substitute isWord matchLength replacement next 0 cs

theorem strip_empty : strip "" = "" := by decide

/-- A visible ASCII character is no white space. -/
theorem isSpace_of_visible {c : Char} (h : 32 < c.toNat ∧ c.toNat < 127) : isSpace c = false := by
  simp only [isSpace, Bool.or_eq_false_iff, Bool.and_eq_false_iff, beq_eq_false_iff_ne,
    decide_eq_false_iff_not]
  omega

/-- A text without white space is its own stripped form. -/
theorem strip_of_no_space {s : String} (h : ∀ c ∈ s.toList, isSpace c = false) : strip s = s := by
  have hfront : s.toList.dropWhile isSpace = s.toList := by
    rw [List.dropWhile_eq_self_iff]
    intro hpos
    rw [h _ (List.getElem_mem hpos)]
    exact Bool.false_ne_true
  have hback : s.toList.rdropWhile isSpace = s.toList := by
    rw [List.rdropWhile_eq_self_iff]
    intro hne
    rw [h _ (List.getLast_mem hne)]
    exact Bool.false_ne_true
  rw [strip, hfront, hback, String.ofList_toList]

/-- A text with a character that is no white space is not blank. -/
theorem strip_ne_empty {s : String} {c : Char} (hc : c ∈ s.toList) (hspace : isSpace c = false) :
    strip s ≠ "" := by
  intro h
  have hnil := congrArg String.toList h
  rw [strip, String.toList_ofList] at hnil
  have hback := List.rdropWhile_eq_nil_iff.mp hnil
  have hmem : c ∈ s.toList.dropWhile isSpace := by
    rw [← List.takeWhile_append_dropWhile (p := isSpace) (l := s.toList)] at hc
    refine (List.mem_append.mp hc).resolve_left fun hfront => ?_
    rw [List.mem_takeWhile_imp hfront] at hspace
    cases hspace
  rw [hback c hmem] at hspace
  cases hspace

/-- Stripping a stripped text changes nothing. -/
theorem strip_strip (s : String) : strip (strip s) = strip s := by
  have hfront : ((s.toList.dropWhile isSpace).rdropWhile isSpace).dropWhile isSpace =
      (s.toList.dropWhile isSpace).rdropWhile isSpace := by
    rw [List.dropWhile_eq_self_iff]
    intro hpos hspace
    have hprefix := List.rdropWhile_prefix isSpace (s.toList.dropWhile isSpace)
    have hlong : 0 < (s.toList.dropWhile isSpace).length := Nat.lt_of_lt_of_le hpos hprefix.length_le
    have hhead := List.dropWhile_get_zero_not isSpace s.toList hlong
    rw [ hprefix.getElem hpos] at hspace
    exact hhead hspace
  unfold strip
  rw [String.toList_ofList, hfront, List.rdropWhile_idempotent isSpace]

end Text

/-- One lower-case hexadecimal digit. -/
def hexChar (n : Nat) : Char :=
  if n < 10 then Char.ofNat (48 + n) else Char.ofNat (87 + n)

/-- `hexdigest()`: 64 lower-case hexadecimal digits, most significant first. -/
def Digest.hex (d : Digest) : String :=
  String.ofList ((List.range 64).map fun i => hexChar (d.val / 16 ^ (63 - i) % 16))

theorem hexChar_not_space {n : Nat} (h : n < 16) : Text.isSpace (hexChar n) = false := by
  have hall : ∀ m < 16, Text.isSpace (hexChar m) = false := by decide
  exact hall n h

theorem Digest.hex_no_space (d : Digest) : ∀ c ∈ d.hex.toList, Text.isSpace c = false := by
  intro c hc
  rw [Digest.hex, String.toList_ofList] at hc
  obtain ⟨i, -, rfl⟩ := List.mem_map.mp hc
  exact hexChar_not_space (Nat.mod_lt _ (by decide))

theorem Digest.hex_ne_empty (d : Digest) : d.hex ≠ "" := by
  intro h
  have hlength := congrArg (fun text => text.toList.length) h
  simp [Digest.hex] at hlength

theorem hexChar_injective {m n : Nat} (hm : m < 16) (hn : n < 16) (h : hexChar m = hexChar n) :
    m = n := by
  have hall : ∀ a < 16, ∀ b < 16, hexChar a = hexChar b → a = b := by decide
  exact hall m hm n hn h

/-- A number is determined by its hexadecimal digits. -/
theorem eq_of_hex_digits {width a b : Nat} (ha : a < 16 ^ width) (hb : b < 16 ^ width)
    (h : ∀ i < width, a / 16 ^ i % 16 = b / 16 ^ i % 16) : a = b := by
  induction width generalizing a b with
  | zero => omega
  | succ width ih =>
      have hlast : a % 16 = b % 16 := by simpa using h 0 (Nat.succ_pos width)
      have hrest : a / 16 = b / 16 := by
        refine ih ?_ ?_ fun i hi => ?_
        · rw [Nat.pow_succ] at ha
          omega
        · rw [Nat.pow_succ] at hb
          omega
        · rw [Nat.div_div_eq_div_mul, Nat.div_div_eq_div_mul, ← Nat.pow_succ']
          exact h (i + 1) (Nat.succ_lt_succ hi)
      omega

/-- Different digests have different texts. -/
theorem Digest.hex_injective {d e : Digest} (h : d.hex = e.hex) : d = e := by
  have hlist := congrArg String.toList h
  rw [Digest.hex, Digest.hex, String.toList_ofList, String.toList_ofList] at hlist
  refine Fin.ext (@eq_of_hex_digits 64 _ _ (d.isLt.trans_eq (by decide +kernel))
      (e.isLt.trans_eq (by decide +kernel)) fun i hi => ?_)
  have hchar := List.map_inj_left.mp hlist (63 - i) (List.mem_range.mpr (by omega))
  have hexp : 63 - (63 - i) = i := by omega
  rw [hexp] at hchar
  exact hexChar_injective (Nat.mod_lt _ (by decide)) (Nat.mod_lt _ (by decide)) hchar

/-- `int(hexdigest[:8], 16)`: the 32 most significant bits. -/
def Digest.prefix32 (d : Digest) : Nat := d.val / 2 ^ 224

end CfdiVault
