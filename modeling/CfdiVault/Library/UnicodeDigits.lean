import CfdiVault.Library.Decimal

/-!
# Decimal numbers in the digits of any script

`Decimal(text)` reads the decimal digits of every script.  `read?` writes them as ASCII
digits first and reads the number that they spell then.
-/

namespace CfdiVault

namespace Decimal

/-- The zeros of the scripts whose digits are decimal; the other nine follow each. -/
def decimalZeros : List Nat :=
  [0x30, 0x660, 0x6f0, 0x7c0, 0x966, 0x9e6, 0xa66, 0xae6, 0xb66, 0xbe6, 0xc66, 0xce6, 0xd66, 0xde6,
    0xe50, 0xed0, 0xf20, 0x1040, 0x1090, 0x17e0, 0x1810, 0x1946, 0x19d0, 0x1a80, 0x1a90, 0x1b50,
    0x1bb0, 0x1c40, 0x1c50, 0xa620, 0xa8d0, 0xa900, 0xa9d0, 0xa9f0, 0xaa50, 0xabf0, 0xff10, 0x104a0,
    0x10d30, 0x11066, 0x110f0, 0x11136, 0x111d0, 0x112f0, 0x11450, 0x114d0, 0x11650, 0x116c0, 0x11730,
    0x118e0, 0x11950, 0x11c50, 0x11d50, 0x11da0, 0x11f50, 0x16a60, 0x16ac0, 0x16b50, 0x1d7ce, 0x1d7d8,
    0x1d7e2, 0x1d7ec, 0x1d7f6, 0x1e140, 0x1e2f0, 0x1e4f0, 0x1e950, 0x1fbf0]

/-- A decimal digit as an ASCII digit; other characters stay. -/
def asciiDigit (c : Char) : Char :=
  match decimalZeros.find? fun zero => zero ≤ c.toNat ∧ c.toNat < zero + 10 with
  | some zero => Nat.digitChar (c.toNat - zero)
  | none => c

/-- `Decimal(text)`; `none` is the host's `InvalidOperation`. -/
def read? (s : String) : Option Decimal := ofText? (String.ofList (s.toList.map asciiDigit))

end Decimal

end CfdiVault
