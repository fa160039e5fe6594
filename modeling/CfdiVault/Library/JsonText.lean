import CfdiVault.Library.JsonKeys

/-!
# Texts of JSON values

The literals that the compact writer gives to strings, optional strings and lists of
strings determine them, also where more text follows.

A string literal is read back one character at a time: `readChar` takes the first
character off an escaped text (`readChar_escapeChar`), and finds none at the closing
quote.
-/

namespace CfdiVault

namespace Json

/-! ## Reading one character -/

/-- The value of a hexadecimal digit. -/
def hexValue (c : Char) : Nat := if c.toNat < 58 then c.toNat - 48 else c.toNat - 87

theorem hexValue_hexChar {n : Nat} (h : n < 16) : hexValue (hexChar n) = n := by
  have hall : ∀ m < 16, hexValue (hexChar m) = m := by decide
  exact hall n h

/-- The code unit of four hexadecimal digits, and what follows them. -/
def readUnit : List Char → Option (Nat × List Char)
  | '\\' :: 'u' :: a :: b :: c :: d :: rest =>
      some (hexValue a * 4096 + hexValue b * 256 + hexValue c * 16 + hexValue d, rest)
  | _ => none

theorem readUnit_escapeUnit {n : Nat} {rest : List Char} (h : n < 65536) :
    readUnit (escapeUnit n ++ rest) = some (n, rest) := by
  have hdigit : ∀ k, hexValue (hexChar (k % 16)) = k % 16 := fun k =>
    hexValue_hexChar (Nat.mod_lt k (by decide))
  change some (hexValue (hexChar (n / 16 ^ 3 % 16)) * 4096 + hexValue (hexChar (n / 16 ^ 2 % 16)) * 256 +
    hexValue (hexChar (n / 16 ^ 1 % 16)) * 16 + hexValue (hexChar (n / 16 ^ 0 % 16)), rest) = some (n, rest)
  rw [hdigit, hdigit, hdigit, hdigit]
  congr 2
  omega

/-- The character that a letter after a backslash stands for. -/
def unescaped : Char → Char
  | 'n' => '\n'
  | 'r' => '\r'
  | 't' => '\t'
  | 'b' => Char.ofNat 8
  | 'f' => Char.ofNat 12
  | c => c

/-- The character of one code unit, or of the surrogate pair that it begins. -/
def readUnits (cs : List Char) : Option (Char × List Char) := do
  let (high, rest) ← readUnit cs
  if 0xD800 ≤ high ∧ high < 0xDC00 then
    let (low, rest) ← readUnit rest
    some (Char.ofNat (0x10000 + (high - 0xD800) * 1024 + (low - 0xDC00)), rest)
  else some (Char.ofNat high, rest)

/-- The first character of an escaped text, and what follows it; `none` at the end of the
literal. -/
def readChar : List Char → Option (Char × List Char)
  | [] => none
  | '"' :: _ => none
  | '\\' :: 'u' :: rest => readUnits ('\\' :: 'u' :: rest)
  | '\\' :: c :: rest => some (unescaped c, rest)
  | c :: rest => some (c, rest)

theorem readUnits_basic {c : Char} {rest : List Char} (h : c.toNat < 0x10000) :
    readUnits (escapeUnit c.toNat ++ rest) = some (c, rest) := by
  have hvalid := c.valid
  have hscalar : ¬ (0xD800 ≤ c.toNat ∧ c.toNat < 0xDC00) := by
    rcases hvalid with hlow | ⟨hhigh, -⟩
    · have : c.toNat < 0xD800 := hlow
      omega
    · have : 0xDFFF < c.toNat := hhigh
      omega
  rw [readUnits, readUnit_escapeUnit h]
  dsimp only [Option.bind_eq_bind, Option.bind_some]
  rw [if_neg hscalar, Char.ofNat_toNat]

theorem readUnits_surrogates {high low : Nat} {rest : List Char}
    (hhigh : 0xD800 ≤ high ∧ high < 0xDC00) (hlow : low < 65536) :
    readUnits (escapeUnit high ++ (escapeUnit low ++ rest)) =
      some (Char.ofNat (0x10000 + (high - 0xD800) * 1024 + (low - 0xDC00)), rest) := by
  rw [readUnits, readUnit_escapeUnit (by omega)]
  dsimp only [Option.bind_eq_bind, Option.bind_some]
  rw [if_pos hhigh, readUnit_escapeUnit hlow, Option.bind_some]

theorem readUnits_pair {c : Char} {rest : List Char} (h : 0x10000 ≤ c.toNat) :
    readUnits (escapeUnit (0xD800 + (c.toNat - 0x10000) / 1024) ++
      (escapeUnit (0xDC00 + (c.toNat - 0x10000) % 1024) ++ rest)) = some (c, rest) := by
  have hmax : c.toNat < 0x110000 := by
    rcases c.valid with hlow | ⟨-, hhigh⟩
    · have : c.toNat < 0xD800 := hlow
      omega
    · exact hhigh
  have hcode : 0x10000 + (0xD800 + (c.toNat - 0x10000) / 1024 - 0xD800) * 1024 +
      (0xDC00 + (c.toNat - 0x10000) % 1024 - 0xDC00) = c.toNat := by omega
  rw [readUnits_surrogates (by omega) (by omega), hcode, Char.ofNat_toNat]

theorem readChar_plain {c : Char} {rest : List Char} (hquote : c ≠ '"') (hslash : c ≠ '\\') :
    readChar (c :: rest) = some (c, rest) := by
  rw [readChar.eq_def]
  split <;> simp_all

/-- An escaped character is read back. -/
theorem readChar_escapeChar (c : Char) (rest : List Char) :
    readChar (escapeChar c ++ rest) = some (c, rest) := by
  have hunit : ∀ n, readChar (escapeUnit n ++ rest) = readUnits (escapeUnit n ++ rest) := fun _ => rfl
  unfold escapeChar
  split_ifs with h1 h2 h3 h4 h5 h6 h7 h8 h9
  · subst h1
    rfl
  · subst h2
    rfl
  · subst h3
    rfl
  · subst h4
    rfl
  · subst h5
    rfl
  · change some (Char.ofNat 8, rest) = _
    rw [← h6, Char.ofNat_toNat]
  · change some (Char.ofNat 12, rest) = _
    rw [← h7, Char.ofNat_toNat]
  · exact readChar_plain h1 h2
  · rw [hunit, readUnits_basic h9]
  · dsimp only
    rw [List.append_assoc]
    exact readUnits_pair (Nat.not_lt.mp h9)

/-! ## Literals determine what they are of -/

theorem escaped_cancel {as bs x y : List Char}
    (h : as.flatMap escapeChar ++ '"' :: x = bs.flatMap escapeChar ++ '"' :: y) : as = bs ∧ x = y := by
  induction as generalizing bs with
  | nil =>
      cases bs with
      | nil => exact ⟨rfl, (List.cons.inj h).2⟩
      | cons b rest =>
          rw [List.flatMap_cons, List.append_assoc] at h
          have hread := congrArg readChar h
          rw [readChar_escapeChar] at hread
          cases hread
  | cons a as ih =>
      cases bs with
      | nil =>
          rw [List.flatMap_cons, List.append_assoc] at h
          have hread := congrArg readChar h
          rw [readChar_escapeChar] at hread
          cases hread
      | cons b bs =>
          rw [List.flatMap_cons, List.flatMap_cons, List.append_assoc, List.append_assoc] at h
          have hread := congrArg readChar h
          rw [readChar_escapeChar, readChar_escapeChar] at hread
          obtain ⟨rfl, hrest⟩ := Prod.mk.inj (Option.some.inj hread)
          obtain ⟨rfl, hxy⟩ := ih hrest
          exact ⟨rfl, hxy⟩

theorem writeStr_toList (s : String) :
    (writeStr s).toList = '"' :: (s.toList.flatMap escapeChar ++ ['"']) := by
  simp [writeStr, String.toList_append]

/-- A string literal that starts a text is determined by it, and so is the rest. -/
theorem writeStr_cancel {a b x y : String} (h : writeStr a ++ x = writeStr b ++ y) : a = b ∧ x = y := by
  have hlist := congrArg String.toList h
  rw [String.toList_append, String.toList_append, writeStr_toList, writeStr_toList, List.cons_append,
    List.cons_append, List.append_assoc, List.append_assoc] at hlist
  obtain ⟨hab, hxy⟩ := escaped_cancel (List.cons.inj hlist).2
  exact ⟨String.toList_inj.mp hab, String.toList_inj.mp hxy⟩

theorem writeStr_injective {a b : String} (h : writeStr a = writeStr b) : a = b :=
  (writeStr_cancel (congrArg (· ++ "") h)).1

theorem separated_writeStr (a b : String) : Separated (writeStr a) (writeStr b) := by
  by_cases hab : a = b
  · exact .inl (congrArg writeStr hab)
  · exact .inr fun _ _ h => hab (writeStr_cancel h).1

theorem Separated.symm {a b : String} (h : Separated a b) : Separated b a :=
  h.imp Eq.symm fun hapart x y heq => hapart y x heq.symm

theorem separated_writeOptional (a b : Option String) :
    Separated (writeOptional a) (writeOptional b) := by
  cases a with
  | none =>
      cases b with
      | none => exact separated_refl _
      | some b => exact separated_null_writeStr b
  | some a =>
      cases b with
      | none => exact (separated_null_writeStr a).symm
      | some b => exact separated_writeStr a b

theorem writeOptional_injective {a b : Option String} (h : writeOptional a = writeOptional b) : a = b := by
  cases a with
  | none =>
      cases b with
      | none => rfl
      | some b => exact absurd (congrArg (· ++ "") h) (null_writeStr_apart b "" "")
  | some a =>
      cases b with
      | none => exact absurd (congrArg (· ++ "") h.symm) (null_writeStr_apart a "" "")
      | some b => exact congrArg some (writeStr_injective h)

/-- What follows the first item of a list of strings. -/
def itemsText : List String → String → String
  | [], text => text
  | s :: rest, text => "," ++ (writeStr s ++ itemsText rest text)

theorem intercalate_items (s : String) (rest : List String) (text : String) :
    String.intercalate "," ((s :: rest).map writeStr) ++ text = writeStr s ++ itemsText rest text := by
  induction rest generalizing s with
  | nil => rw [List.map_singleton, String.intercalate_singleton, itemsText]
  | cons next rest ih =>
      rw [List.map_cons, List.map_cons, String.intercalate_cons_cons, String.append_assoc,
        String.append_assoc, ← List.map_cons, ih, itemsText]

theorem bracket_ne_writeStr (s x y : String) : "]" ++ x ≠ writeStr s ++ y := by
  intro h
  have hlist := congrArg String.toList h
  rw [String.toList_append, String.toList_append, writeStr_toList] at hlist
  exact absurd (List.cons.inj hlist).1 (by decide)

theorem bracket_ne_comma (x y : String) : "]" ++ x ≠ "," ++ y := by
  intro h
  have hlist := congrArg String.toList h
  rw [String.toList_append, String.toList_append] at hlist
  exact absurd (List.cons.inj hlist).1 (by decide)

theorem itemsText_cancel {as bs : List String} {x y : String}
    (h : itemsText as ("]" ++ x) = itemsText bs ("]" ++ y)) : as = bs := by
  induction as generalizing bs with
  | nil =>
      cases bs with
      | nil => rfl
      | cons b rest => exact absurd h (bracket_ne_comma x _)
  | cons a as ih =>
      cases bs with
      | nil => exact absurd h.symm (bracket_ne_comma y _)
      | cons b bs =>
          obtain ⟨rfl, hrest⟩ := writeStr_cancel ((String.append_right_inj ",").mp h)
          rw [ih hrest]

/-- The items of a list of strings that starts a text are determined by the text. -/
theorem items_cancel {as bs : List String} {x y : String}
    (h : String.intercalate "," (as.map writeStr) ++ ("]" ++ x) =
      String.intercalate "," (bs.map writeStr) ++ ("]" ++ y)) : as = bs := by
  cases as with
  | nil =>
      cases bs with
      | nil => rfl
      | cons b rest =>
          rw [intercalate_items, List.map_nil, String.intercalate_nil, String.empty_append] at h
          exact absurd h (bracket_ne_writeStr b x _)
  | cons a as =>
      cases bs with
      | nil =>
          rw [intercalate_items, List.map_nil, String.intercalate_nil, String.empty_append] at h
          exact absurd h.symm (bracket_ne_writeStr a y _)
      | cons b bs =>
          rw [intercalate_items, intercalate_items] at h
          obtain ⟨rfl, hrest⟩ := writeStr_cancel h
          rw [itemsText_cancel hrest]

theorem writeStrs_cancel {as bs : List String} {x y : String}
    (h : writeArr (as.map writeStr) ++ x = writeArr (bs.map writeStr) ++ y) : as = bs := by
  rw [writeArr, writeArr, String.append_assoc, String.append_assoc, String.append_assoc,
    String.append_assoc] at h
  exact items_cancel ((String.append_right_inj "[").mp h)

theorem writeStrs_injective {as bs : List String}
    (h : writeArr (as.map writeStr) = writeArr (bs.map writeStr)) : as = bs :=
  writeStrs_cancel (congrArg (· ++ "") h)

theorem separated_writeStrs (as bs : List String) :
    Separated (writeArr (as.map writeStr)) (writeArr (bs.map writeStr)) := by
  by_cases hab : as = bs
  · exact .inl (by rw [hab])
  · exact .inr fun _ _ h => hab (writeStrs_cancel h)

end Json

end CfdiVault
