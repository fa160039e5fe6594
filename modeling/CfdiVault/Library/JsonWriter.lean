import CfdiVault.Library.Json
import CfdiVault.Library.JsonDocument

/-!
# The indented writer

`json.dumps(value, indent=2, ensure_ascii=False)`: every member and item stands on a line of its own,
and only the control characters, the quote and the backslash are escaped.  An integer with more
digits than the host writes is an error.
-/

namespace CfdiVault

/-- What the decoder and the encoder take from the host: the text that the encoder writes for the
float of a literal, which is `1.0` for `1.0`, and the number of digits that an integer may have. -/
structure JsonHost where
  floatText : List Char → List Char
  maxDigits : Nat
  one : floatText ['1', '.', '0'] = ['1', '.', '0']

namespace JsonWriter

/-- One character inside a string literal. -/
def escapeChar (c : Char) : List Char :=
  if c = '"' then ['\\', '"']
  else if c = '\\' then ['\\', '\\']
  else if c = '\n' then ['\\', 'n']
  else if c = '\r' then ['\\', 'r']
  else if c = '\t' then ['\\', 't']
  else if c.toNat = 8 then ['\\', 'b']
  else if c.toNat = 12 then ['\\', 'f']
  else if c.toNat < 32 then Json.escapeUnit c.toNat
  else [c]

/-- One code point inside a string literal; a surrogate is written as it is. -/
def escapePoint : CodePoint → CodeText
  | .scalar c => (escapeChar c).map .scalar
  | .surrogate n => [.surrogate n]

/-- A string literal. -/
def quote (text : CodeText) : CodeText := .scalar '"' :: (text.flatMap escapePoint ++ [.scalar '"'])

/-- The digits of an integer. -/
def intText (n : Int) : List Char :=
  if n < 0 then '-' :: Nat.toDigits 10 n.natAbs else Nat.toDigits 10 n.natAbs

/-- A new line with the indentation of a level. -/
def newline (level : Nat) : CodeText := .scalar '\n' :: List.replicate (2 * level) (.scalar ' ')

mutual

/-- A value on a level. -/
def render (level : Nat) : Document → CodeText
  | .null => CodeText.of "null"
  | .bool true => CodeText.of "true"
  | .bool false => CodeText.of "false"
  | .int n => (intText n).map .scalar
  | .float text => text.map .scalar
  | .str text => quote text
  | .arr [] => CodeText.of "[]"
  | .arr (first :: rest) => .scalar '[' :: (newline (level + 1) ++ render (level + 1) first ++
      renderItems (level + 1) rest ++ newline level ++ [.scalar ']'])
  | .obj [] => CodeText.of "\x7b\x7d"
  | .obj (first :: rest) => .scalar '\x7b' :: (newline (level + 1) ++ renderMember (level + 1) first ++
      renderMembers (level + 1) rest ++ newline level ++ [.scalar '\x7d'])

/-- The items behind the first one. -/
def renderItems (level : Nat) : List Document → CodeText
  | [] => []
  | item :: rest => .scalar ',' :: (newline level ++ render level item ++ renderItems level rest)

/-- The members behind the first one. -/
def renderMembers (level : Nat) : List (CodeText × Document) → CodeText
  | [] => []
  | member :: rest => .scalar ',' :: (newline level ++ renderMember level member ++ renderMembers level rest)

def renderMember (level : Nat) : CodeText × Document → CodeText
  | (key, value) => quote key ++ CodeText.of ": " ++ render level value

end

/-- An integer has at most as many digits as the host writes. -/
def FitsDigits (host : JsonHost) : Document → Prop
  | .int n => (Nat.toDigits 10 n.natAbs).length ≤ host.maxDigits
  | _ => True

instance (host : JsonHost) : DecidablePred (FitsDigits host) := fun part => by
  unfold FitsDigits
  split <;> infer_instance

/-- `json.dumps(value, indent=2, ensure_ascii=False)`; `none` is the error of an integer that is
too long. -/
def dumps (host : JsonHost) (value : Document) : Option CodeText :=
  if ∀ part ∈ value.parts, FitsDigits host part then some (render 0 value) else none

theorem dumps_eq_some {host : JsonHost} {value : Document} {text : CodeText} (h : dumps host value = some text) :
    value.Everywhere (FitsDigits host) ∧ render 0 value = text := by
  unfold dumps at h
  split at h
  · next hdigits => exact ⟨hdigits, Option.some.inj h⟩
  · cases h

end JsonWriter

end CfdiVault
