import Mathlib.Tactic.Common

/-!
# UTF-8

The bytes of a text and the text of bytes.  `decodeSig?` is the decoder that passes over a
byte order mark.
-/

namespace CfdiVault

namespace Utf8

/-- `text.encode("utf-8")`. -/
def encode (s : String) : List UInt8 := s.toList.flatMap String.utf8EncodeChar

/-- `content.decode("utf-8")`; `none` is the `UnicodeDecodeError`. -/
def decode? (content : List UInt8) : Option String := String.fromUTF8? content.toByteArray

/-- The content without a byte order mark. -/
def dropMark : List UInt8 → List UInt8
  | 0xEF :: 0xBB :: 0xBF :: rest => rest
  | content => content

/-- `content.decode("utf-8-sig")`. -/
def decodeSig? (content : List UInt8) : Option String := decode? (dropMark content)

theorem decode?_encode (s : String) : decode? (encode s) = some s := by
  have hbytes : (encode s).toByteArray = s.toByteArray := by
    conv_rhs => rw [← @String.ofList_toList s, String.toByteArray_ofList]
    rfl
  unfold decode? String.fromUTF8?
  rw [dif_pos (by rw [hbytes]; exact s.isValidUTF8)]
  congr 1
  simp only [String.fromUTF8]
  congr 1

/-- Content that does not begin like a mark is decoded whole. -/
theorem dropMark_of_head {content : List UInt8} (h : content.head? ≠ some 0xEF) :
    dropMark content = content := by
  unfold dropMark
  split
  · exact absurd rfl h
  · rfl

theorem decodeSig?_encode {s : String} (h : (encode s).head? ≠ some 0xEF) :
    decodeSig? (encode s) = some s := by
  rw [decodeSig?, dropMark_of_head h, decode?_encode]

end Utf8

end CfdiVault
