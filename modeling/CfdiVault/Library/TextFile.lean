import CfdiVault.Library.CodeText

/-!
# Text files

A text file of the host is UTF-8.  Reading makes one new line of a carriage return, of a line feed and
of the two together; writing puts the line separator of the platform for a line feed.
-/

namespace CfdiVault

namespace TextFile

/-- The line ends of a text as line feeds. -/
def universalNewlines : CodeText → CodeText
  | .scalar '\r' :: .scalar '\n' :: rest => .scalar '\n' :: universalNewlines rest
  | .scalar '\r' :: rest => .scalar '\n' :: universalNewlines rest
  | point :: rest => point :: universalNewlines rest
  | [] => []

/-- The line feeds of a text as line separators, of which Windows has two characters. -/
def platformNewlines (crlf : Bool) (text : CodeText) : CodeText :=
  text.flatMap fun point =>
    if point = .scalar '\n' ∧ crlf = true then [.scalar '\r', .scalar '\n'] else [point]

/-- `path.read_text(encoding="utf-8")` on the content of a file; `none` is the `UnicodeDecodeError`. -/
def readText (content : Bytes) : Option CodeText := (CodeText.decode? content).map universalNewlines

/-- The content that `path.write_text(text, encoding="utf-8")` gives to a file; `none` is the
`UnicodeEncodeError`. -/
def writeText (crlf : Bool) (text : CodeText) : Option Bytes := CodeText.encode? (platformNewlines crlf text)

variable {crlf : Bool} {text : CodeText}

theorem universalNewlines_cons {point : CodePoint} (h : point ≠ .scalar '\r') :
    universalNewlines (point :: text) = point :: universalNewlines text := by
  rw [universalNewlines]
  · exact fun _ hpoint => absurd hpoint h
  · exact h

/-- What is written is read, where no carriage return stands in it. -/
theorem universalNewlines_platformNewlines (h : CodePoint.scalar '\r' ∉ text) :
    universalNewlines (platformNewlines crlf text) = text := by
  induction text with
  | nil => rfl
  | cons point rest ih =>
      obtain ⟨hpoint, hrest⟩ := List.forall_mem_cons.mp (fun x hx hr => h (hr ▸ hx) :
        ∀ x ∈ point :: rest, x ≠ .scalar '\r')
      have hih := ih fun hmem => hrest _ hmem rfl
      rw [platformNewlines] at hih ⊢
      rw [List.flatMap_cons]
      split_ifs with hline
      · obtain ⟨rfl, -⟩ := hline
        rw [List.cons_append, List.cons_append, List.nil_append, universalNewlines, hih]
      · rw [List.cons_append, List.nil_append, universalNewlines_cons hpoint, hih]

theorem encodable_platformNewlines : (platformNewlines crlf text).Encodable ↔ text.Encodable := by
  refine forall_congr' fun n => not_congr ?_
  rw [platformNewlines, List.mem_flatMap]
  constructor
  · rintro ⟨point, hpoint, hmem⟩
    split_ifs at hmem
    · simp at hmem
    · rwa [List.mem_singleton.mp hmem]
  · intro hmem
    exact ⟨_, hmem, by simp⟩

theorem writeText_isSome : (writeText crlf text).isSome = true ↔ text.Encodable := by
  rw [← @encodable_platformNewlines crlf, writeText]
  constructor
  · intro h
    by_contra hnot
    rw [CodeText.encode?_eq_none hnot] at h
    cases h
  · intro h
    obtain ⟨s, hs⟩ := CodeText.exists_of _ h
    rw [hs, CodeText.encode?_of]
    rfl

/-- A text without carriage returns is read back. -/
theorem readText_of_writeText {content : Bytes} (h : writeText crlf text = some content)
    (hreturn : CodePoint.scalar '\r' ∉ text) : readText content = some text := by
  rw [readText, CodeText.decode?_of_encode? h, Option.map_some, universalNewlines_platformNewlines hreturn]

end TextFile

end CfdiVault
