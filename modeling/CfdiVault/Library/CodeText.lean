import CfdiVault.Library.Utf8
import CfdiVault.Library.Text
import CfdiVault.Library.UnicodeDigits

/-!
# Texts of code points

A text of the host is a list of code points, and a surrogate may stand in it by itself: a JSON
escape or a file name that is not UTF-8 puts it there.  Such a text has no UTF-8 encoding.
-/

namespace CfdiVault

/-- A code point: a character, or the surrogate `U+D800 + n`. -/
inductive CodePoint where
  | scalar (c : Char)
  | surrogate (n : Fin 2048)
  deriving DecidableEq

namespace CodePoint

/-- A test of characters, which no surrogate passes. -/
def is (p : Char → Bool) : CodePoint → Bool
  | .scalar c => p c
  | .surrogate _ => false

def char? : CodePoint → Option Char
  | .scalar c => some c
  | .surrogate _ => none

@[simp] theorem is_scalar (p : Char → Bool) (c : Char) : (scalar c).is p = p c := rfl

@[simp] theorem is_surrogate (p : Char → Bool) (n : Fin 2048) : (surrogate n).is p = false := rfl

theorem is_eq_true {p : Char → Bool} {point : CodePoint} : point.is p = true ↔ ∃ c, point = .scalar c ∧ p c = true := by
  cases point with
  | scalar c =>
      constructor
      · exact fun h => ⟨c, rfl, h⟩
      · rintro ⟨_, ⟨⟩, h⟩
        exact h
  | surrogate n => simp

end CodePoint

/-- A text of the host. -/
abbrev CodeText := List CodePoint

namespace CodeText

/-- The text of a string. -/
def of (s : String) : CodeText := s.toList.map .scalar

/-- The text has an encoding. -/
def Encodable (text : CodeText) : Prop := ∀ n, CodePoint.surrogate n ∉ text

instance (text : CodeText) : Decidable text.Encodable :=
  decidable_of_iff (∀ point ∈ text, point.char?.isSome = true) <| by
    constructor
    · intro h n hn
      exact Bool.false_ne_true (h _ hn)
    · intro h point hpoint
      cases point with
      | scalar c => rfl
      | surrogate n => exact absurd hpoint (h n)

/-- `text.encode("utf-8")`; `none` is the `UnicodeEncodeError`. -/
def encode? (text : CodeText) : Option Bytes :=
  (text.mapM CodePoint.char?).map fun chars => Utf8.encode (String.ofList chars)

/-- `content.decode("utf-8")`; `none` is the `UnicodeDecodeError`. -/
def decode? (content : Bytes) : Option CodeText := (Utf8.decode? content).map of

/-- `text.strip()`. -/
def strip (text : CodeText) : CodeText :=
  (text.dropWhile (CodePoint.is Text.isSpace)).rdropWhile (CodePoint.is Text.isSpace)

/-- A decimal digit of any script. -/
def isDecimal (c : Char) : Bool :=
  Decimal.decimalZeros.any fun first => decide (first ≤ c.toNat ∧ c.toNat < first + 10)

theorem encodable_cons {point : CodePoint} {text : CodeText} :
    Encodable (point :: text) ↔ point.char?.isSome = true ∧ text.Encodable := by
  cases point with
  | scalar c => simp [Encodable, CodePoint.char?]
  | surrogate n =>
      refine iff_of_false (fun h => h n List.mem_cons_self) fun h => ?_
      exact Bool.false_ne_true h.1

theorem encodable_append {first second : CodeText} :
    Encodable (first ++ second) ↔ first.Encodable ∧ second.Encodable := by
  simp only [Encodable, List.mem_append, not_or, forall_and]

theorem encodable_of (s : String) : (of s).Encodable := by
  intro n hn
  obtain ⟨c, -, hc⟩ := List.mem_map.mp hn
  cases hc

theorem of_injective : Function.Injective of := by
  intro s t h
  have hscalar : Function.Injective CodePoint.scalar := fun _ _ => CodePoint.scalar.inj
  exact String.toList_inj.mp (hscalar.list_map h)

/-- A text that has an encoding is a string. -/
theorem exists_of (text : CodeText) (h : text.Encodable) : ∃ s, text = of s := by
  induction text with
  | nil => exact ⟨"", rfl⟩
  | cons point rest ih =>
      obtain ⟨hpoint, hrest⟩ := encodable_cons.mp h
      obtain ⟨s, rfl⟩ := ih hrest
      cases point with
      | scalar c => exact ⟨String.ofList (c :: s.toList), by rw [of, of, String.toList_ofList, List.map_cons]⟩
      | surrogate n => exact absurd hpoint Bool.false_ne_true

/-- A string is its own characters. -/
theorem mapM_char?_of (s : String) : (of s).mapM CodePoint.char? = some s.toList := by
  have hchars : ∀ chars : List Char, (chars.map CodePoint.scalar).mapM CodePoint.char? = some chars := by
    intro chars
    induction chars with
    | nil => rfl
    | cons c rest ih =>
        rw [List.map_cons, List.mapM_cons, ih]
        rfl
  exact hchars s.toList

theorem encode?_of (s : String) : encode? (of s) = some (Utf8.encode s) := by
  rw [encode?, mapM_char?_of, Option.map_some, String.ofList_toList]

theorem encode?_eq_none {text : CodeText} (h : ¬ text.Encodable) : encode? text = none := by
  induction text with
  | nil => exact absurd (fun _ hn => nomatch hn) h
  | cons point rest ih =>
      rw [encode?, List.mapM_cons]
      cases point with
      | surrogate n => rfl
      | scalar c =>
          have hrest : ¬ Encodable rest := fun hrest => h (encodable_cons.mpr ⟨rfl, hrest⟩)
          have hnone : rest.mapM CodePoint.char? = none := by
            simpa only [encode?, Option.map_eq_none_iff] using ih hrest
          rw [hnone]
          rfl

/-- What is encoded is read back. -/
theorem decode?_of_encode? {text : CodeText} {content : Bytes} (h : encode? text = some content) :
    decode? content = some text := by
  have hencodable : text.Encodable := by
    by_contra hnot
    rw [encode?_eq_none hnot] at h
    cases h
  obtain ⟨s, rfl⟩ := text.exists_of hencodable
  rw [encode?_of] at h
  cases h
  rw [decode?, Utf8.decode?_encode]
  rfl

end CodeText

end CfdiVault
