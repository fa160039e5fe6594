import CfdiVault.Library.Text

/-!
# Decimal numbers

Decimal numbers as the host keeps them, a sign, a coefficient and an exponent, with
the text form in both directions.  Reading accepts the forms of the host over ASCII
digits: blanks around the number and underscores inside it are dropped, and the
special values are read in any letter case.
-/

namespace CfdiVault

/-- A decimal number. -/
inductive Decimal where
  | finite (negative : Bool) (coefficient : Nat) (exponent : Int)
  | infinite (negative : Bool)
  | nan (negative signaling : Bool) (payload : Nat)
  deriving DecidableEq

namespace Decimal

def isDigit (c : Char) : Bool := '0' ≤ c && c ≤ '9'

/-- The number written by a list of ASCII digits. -/
def digitsValue (ds : List Char) : Nat :=
  ds.foldl (fun n d => n * 10 + (d.toNat - 48)) 0

/-- Drop an optional sign: whether it was a minus, and the rest. -/
def takeSign : List Char → Bool × List Char
  | '-' :: cs => (true, cs)
  | '+' :: cs => (false, cs)
  | cs => (false, cs)

/-- The exponent part, `e` or `E` with a signed number, or nothing. -/
def parseExponent : List Char → Option Int
  | [] => some 0
  | c :: cs =>
      if c = 'e' ∨ c = 'E' then
        let (negative, ds) := takeSign cs
        if ds ≠ [] ∧ ds.all isDigit then
          some (if negative then -(digitsValue ds : Int) else digitsValue ds)
        else none
      else none

/-- A finite number after its sign. -/
def parseFinite (negative : Bool) (cs : List Char) : Option Decimal := do
  let whole := cs.takeWhile isDigit
  let rest := cs.drop whole.length
  let (fraction, rest) := match rest with
    | '.' :: more => (more.takeWhile isDigit, more.dropWhile isDigit)
    | _ => ([], rest)
  if whole = [] ∧ fraction = [] then none
  else
    let exponent ← parseExponent rest
    some (.finite negative (digitsValue (whole ++ fraction)) (exponent - fraction.length))

/-- A number or a special value after its sign. -/
def parseUnsigned (negative : Bool) (cs : List Char) : Option Decimal :=
  let word := cs.map Text.lowerChar
  if word = "inf".toList ∨ word = "infinity".toList then some (.infinite negative)
  else if "nan".toList.isPrefixOf word ∧ (word.drop 3).all isDigit then
    some (.nan negative false (digitsValue (word.drop 3)))
  else if "snan".toList.isPrefixOf word ∧ (word.drop 4).all isDigit then
    some (.nan negative true (digitsValue (word.drop 4)))
  else parseFinite negative cs

/-- `Decimal(text)`; `none` is the host's `InvalidOperation`. -/
def ofText? (s : String) : Option Decimal :=
  let (negative, cs) := takeSign ((Text.strip s).toList.filter (· ≠ '_'))
  parseUnsigned negative cs

/-- The digits of a coefficient with the decimal point after the first `place`. -/
def placePoint (digits : List Char) (place : Int) : List Char :=
  if place ≤ 0 then '0' :: '.' :: (List.replicate (-place).toNat '0' ++ digits)
  else if digits.length ≤ place then
    digits ++ List.replicate (place - digits.length).toNat '0'
  else digits.take place.toNat ++ '.' :: digits.drop place.toNat

/-- `str(value)`: plain for exponents near zero, scientific otherwise. -/
def toText : Decimal → String
  | .infinite negative => (if negative then "-" else "") ++ "Infinity"
  | .nan negative signaling payload =>
      (if negative then "-" else "") ++ (if signaling then "sNaN" else "NaN") ++
        (if payload = 0 then "" else toString payload)
  | .finite negative coefficient exponent =>
      let digits := Nat.toDigits 10 coefficient
      let leading := exponent + digits.length
      let place := if exponent ≤ 0 ∧ -6 < leading then leading else 1
      let scale := leading - place
      (if negative then "-" else "") ++ String.ofList (placePoint digits place) ++
        (if scale = 0 then ""
        else "E" ++ (if 0 < scale then "+" else "-") ++ toString scale.natAbs)

example : (ofText? " 1_160.00 ").map toText = some "1160.00" := by decide +kernel

end Decimal

end CfdiVault
