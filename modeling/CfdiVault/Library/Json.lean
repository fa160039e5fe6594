import CfdiVault.Library.Text
import Mathlib.Data.List.Sort
import Mathlib.Data.Rat.Defs

/-!
# JSON

The document values that a decoder produces, with the typed field accessors a
reader uses on them, and the compact writer used for canonical hashing (keys in
order, no blanks, ASCII only).

The type distinctions are the host's: a number without fraction and exponent is
an integer, and a boolean passes wherever an integer is asked for.
-/

namespace CfdiVault

/-- A decoded JSON value.  A `float` carries the exact value of the binary number
read, `none` for the non-finite ones. -/
inductive Json where
  | null
  | bool (b : Bool)
  | int (n : Int)
  | float (value : Option Rat)
  | str (s : String)
  | arr (items : List Json)
  | obj (members : List (String × Json))

namespace Json

/-- The members of an object; other values have none. -/
def members? : Json → Option (List (String × Json))
  | .obj ms => some ms
  | _ => none

/-- `document.get(key)`: a missing key reads as `null`. -/
def field (ms : List (String × Json)) (key : String) : Json :=
  (ms.lookup key).getD .null

/-- `isinstance(value, str)`. -/
def str? : Json → Option String
  | .str s => some s
  | _ => none

/-- `isinstance(value, bool)`. -/
def bool? : Json → Option Bool
  | .bool b => some b
  | _ => none

/-- `isinstance(value, int)`, which a boolean satisfies. -/
def int? : Json → Option Int
  | .int n => some n
  | .bool b => some (if b then 1 else 0)
  | _ => none

/-- A list of texts. -/
def strs? : Json → Option (List String)
  | .arr items => items.mapM str?
  | _ => none

/-- `value == n` for an integer `n`. -/
def equalsInt (n : Int) : Json → Bool
  | .int m => m == n
  | .bool b => (if b then 1 else 0) == n
  | .float (some q) => q == n
  | _ => false

/-- A list of texts reads back as written. -/
theorem strs?_map_str (xs : List String) : strs? (.arr (xs.map .str)) = some xs := by
  induction xs with
  | nil => rfl
  | cons x rest ih =>
      simp only [strs?, List.map_cons, List.mapM_cons, str?] at ih ⊢
      rw [ih]
      rfl

/-! ## The compact writer -/

/-- `\uXXXX` for one UTF-16 code unit. -/
def escapeUnit (n : Nat) : List Char :=
  '\\' :: 'u' :: (List.range 4).map fun i => hexChar (n / 16 ^ (3 - i) % 16)

/-- One character inside a JSON string, non-ASCII characters as UTF-16 escapes. -/
def escapeChar (c : Char) : List Char :=
  if c = '"' then ['\\', '"']
  else if c = '\\' then ['\\', '\\']
  else if c = '\n' then ['\\', 'n']
  else if c = '\r' then ['\\', 'r']
  else if c = '\t' then ['\\', 't']
  else if c.toNat = 8 then ['\\', 'b']
  else if c.toNat = 12 then ['\\', 'f']
  else if 32 ≤ c.toNat ∧ c.toNat ≤ 126 then [c]
  else if c.toNat < 0x10000 then escapeUnit c.toNat
  else
    let n := c.toNat - 0x10000
    escapeUnit (0xD800 + n / 1024) ++ escapeUnit (0xDC00 + n % 1024)

/-- A JSON string literal. -/
def writeStr (s : String) : String :=
  "\"" ++ String.ofList (s.toList.flatMap escapeChar) ++ "\""

/-- A JSON string literal, or `null`. -/
def writeOptional : Option String → String
  | none => "null"
  | some s => writeStr s

/-- A JSON array of rendered items. -/
def writeArr (items : List String) : String :=
  "[" ++ String.intercalate "," items ++ "]"

/-- A JSON object of rendered members, in the order of their keys. -/
def writeObj (members : List (String × String)) : String :=
  let sorted := members.insertionSort fun a b => a.1 ≤ b.1
  "\x7b" ++ String.intercalate "," (sorted.map fun m => writeStr m.1 ++ ":" ++ m.2) ++ "\x7d"

end Json

end CfdiVault
