import CfdiVault.Library.ByteText
import CfdiVault.MetadataParser

/-!
# The minimal PDF

`write_minimal_pdf`, the bytes it writes, and a reader of them: the cross references, the
entries of the dictionaries, the content stream and the strings that it shows.
-/

namespace CfdiVault

namespace MinimalPdf

open ByteText Metadata

/-! ## The lines of a text -/

/-- `text.splitlines()`.  A line feed behind a carriage return ends no second line. -/
def splitLines (afterReturn : Bool) : List Char → List (List Char)
  | [] => []
  | c :: rest =>
      if afterReturn = true ∧ c = '\n' then splitLines false rest
      else if isLineBoundary c = true then [] :: splitLines (c == '\r') rest
      else match splitLines false rest with
        | [] => [[c]]
        | line :: lines => (c :: line) :: lines

/-- `text.splitlines() or [""]`. -/
def linesOf (text : List Char) : List (List Char) :=
  if splitLines false text = [] then [[]] else splitLines false text

/-! ## The writer -/

/-- The three replacements, one after the other. -/
def escaped (text : String) : String :=
  Text.replaceChar ')' "\\)" (Text.replaceChar '(' "\\(" (Text.replaceChar '\\' "\\\\" text))

/-- The lines of the content stream for the lines of the text. -/
def streamLines (lines : List (List Char)) : List (List Char) :=
  ["BT".toList, "/F1 11 Tf".toList, "50 780 Td".toList] ++
    (lines.take 45).zipIdx.flatMap (fun (line, index) =>
      (if index = 0 then [] else ["0 -16 Td".toList]) ++ ["(".toList ++ line ++ ") Tj".toList]) ++
    ["ET".toList]

/-- `"\n".join(stream_lines).encode("latin-1", errors="replace")`. -/
def stream (text : String) : List UInt8 :=
  (['\n'].intercalate (streamLines (linesOf (escaped text).toList))).map latin1

def objects (stream : List UInt8) : List (List UInt8) :=
  [ascii "1 0 obj << /Type /Catalog /Pages 2 0 R >> endobj\n",
    ascii "2 0 obj << /Type /Pages /Kids [3 0 R] /Count 1 >> endobj\n",
    ascii "3 0 obj << /Type /Page /Parent 2 0 R /MediaBox [0 0 612 792] /Resources << /Font << /F1 4 0 R >> >> /Contents 5 0 R >> endobj\n",
    ascii "4 0 obj << /Type /Font /Subtype /Type1 /BaseFont /Helvetica >> endobj\n",
    ascii "5 0 obj << /Length " ++ ascii (toString stream.length) ++ ascii " >> stream\n" ++ stream ++
      ascii "\nendstream endobj\n"]

/-- The content so far with one object more, whose offset is recorded. -/
def place (content : List UInt8 × List Nat) (object : List UInt8) : List UInt8 × List Nat :=
  (content.1 ++ object, content.2 ++ [content.1.length])

def header : List UInt8 := ascii "%PDF-1.4\n"

/-- The line of the cross references for an offset. -/
def xrefLine (offset : Nat) : List UInt8 := ascii (Text.padded 10 offset ++ " 00000 n \n")

/-- The bytes that `write_minimal_pdf` writes. -/
def minimalPdf (text : String) : List UInt8 :=
  let objects := objects (stream text)
  let (content, offsets) := objects.foldl place (header, [0])
  let xrefStart := content.length
  content ++ ascii ("xref\n0 " ++ toString (objects.length + 1) ++ "\n0000000000 65535 f \n") ++
    (offsets.drop 1).flatMap xrefLine ++
    ascii ("trailer << /Size " ++ toString (objects.length + 1) ++ " /Root 1 0 R >>\nstartxref\n" ++
      toString xrefStart ++ "\n%%EOF\n")

/-! ## The reader -/

/-- The number after the last `startxref`, which a reader looks for from the end. -/
def startXref? (file : List UInt8) : Option Nat :=
  (breakOn (ascii "startxref\n").reverse file.reverse).bind fun (after, _) => number? after.reverse

/-- The offset in the entry of an object: behind the two lines at the head of the section
the entries have twenty bytes each. -/
def xrefOffset? (file : List UInt8) (object : Nat) : Option Nat :=
  (startXref? file).bind fun start => number? ((file.drop (start + 9 + 20 * object)).take 10)

/-- The number that a dictionary gives for a key. -/
def keyNumber? (key : List UInt8) (bytes : List UInt8) : Option Nat :=
  (breakOn key bytes).bind fun (_, after) => number? after

/-- The bytes between `stream` and `endstream`. -/
def streamBytes? (bytes : List UInt8) : Option (List UInt8) :=
  (breakOn (ascii "stream\n") bytes).bind fun (_, after) =>
    (breakOn (ascii "\nendstream") after).map Prod.fst

/-- Where the reader of a content stream stands: between the strings, in a string, or behind
a backslash in one. -/
inductive Mode where
  | outside
  | inside (shown : List UInt8)
  | escape (shown : List UInt8)

/-- The strings that a content stream shows.  A bare parenthesis, an escape of another
character and a string without its operator are refused. -/
def shownStrings : Mode → List UInt8 → Option (List (List UInt8))
  | .outside, [] => some []
  | .outside, b :: rest =>
      if b = latin1 '(' then shownStrings (.inside []) rest
      else if b = latin1 ')' then none
      else shownStrings .outside rest
  | .inside _, [] => none
  | .inside shown, b :: rest =>
      if b = latin1 '\\' then shownStrings (.escape shown) rest
      else if b = latin1 '(' then none
      else if b = latin1 ')' then
        if (ascii " Tj").isPrefixOf rest then (shownStrings .outside rest).map (shown :: ·) else none
      else shownStrings (.inside (shown ++ [b])) rest
  | .escape _, [] => none
  | .escape shown, b :: rest =>
      if b = latin1 '\\' ∨ b = latin1 '(' ∨ b = latin1 ')' then
        shownStrings (.inside (shown ++ [b])) rest
      else none

/-- The file is consistent, and it shows the text. -/
structure Shows (text : String) (file : List UInt8) : Prop where
  startXref : ∃ start, startXref? file = some start ∧
    file.take start = header ++ (objects (stream text)).flatten ∧ ascii "xref\n" <+: file.drop start
  /-- Each entry is where its object begins. -/
  offsets : ∀ i < (objects (stream text)).length, ∃ offset object,
    xrefOffset? file (i + 1) = some offset ∧ (objects (stream text))[i]? = some object ∧
      file.take offset = header ++ ((objects (stream text)).take i).flatten ∧
      object <+: file.drop offset ∧ ascii (toString (i + 1) ++ " 0 obj") <+: object
  size : ∃ start, startXref? file = some start ∧
    keyNumber? (ascii "/Size ") (file.drop start) = some ((objects (stream text)).length + 1)
  /-- The stream of the content has its declared length and shows the lines. -/
  content : ∃ offset shown, xrefOffset? file 5 = some offset ∧
    streamBytes? (file.drop offset) = some shown ∧
    keyNumber? (ascii "/Length ") (file.drop offset) = some shown.length ∧
    shownStrings .outside shown =
      some (((linesOf text.toList).take 45).map fun line => line.map latin1)

/-! ## Escapes -/

/-- A character with a backslash before it where it needs one. -/
def escapeChar (c : Char) : List Char :=
  if c = '\\' ∨ c = '(' ∨ c = ')' then ['\\', c] else [c]

theorem toList_escaped (text : String) : (escaped text).toList = text.toList.flatMap escapeChar := by
  have hchar : ∀ c : Char,
      ((if c = '\\' then ['\\', '\\'] else [c]).flatMap fun c =>
        (if c = '(' then ['\\', '('] else [c]).flatMap fun c =>
          if c = ')' then ['\\', ')'] else [c]) = escapeChar c := by
    intro c
    rw [escapeChar]
    by_cases hback : c = '\\'
    · subst hback
      rfl
    by_cases hopen : c = '('
    · subst hopen
      rfl
    by_cases hclose : c = ')'
    · subst hclose
      rfl
    simp [hback, hopen, hclose]
  simp only [escaped, Text.replaceChar, String.toList_ofList, List.flatMap_assoc]
  exact List.flatMap_congr fun c _ => hchar c

theorem escapeChar_eq (c : Char) : escapeChar c = [c] ∨ escapeChar c = ['\\', c] := by
  rw [escapeChar]
  split
  · exact .inr rfl
  · exact .inl rfl

/-- The boundary of a line needs no escape. -/
theorem escapeChar_of_boundary {c : Char} (h : isLineBoundary c = true) : escapeChar c = [c] := by
  rw [escapeChar, if_neg]
  rintro (rfl | rfl | rfl) <;> exact absurd h (by decide)

theorem splitLines_char {c : Char} {rest : List Char} {afterReturn : Bool}
    (h : isLineBoundary c = false) :
    splitLines afterReturn (c :: rest) =
      (c :: (splitLines false rest).headD []) :: (splitLines false rest).tail := by
  have hfeed : ¬ (afterReturn = true ∧ c = '\n') := by
    rintro ⟨-, rfl⟩
    exact absurd h (by decide)
  rw [splitLines, if_neg hfeed, if_neg (by simp [h])]
  cases splitLines false rest <;> rfl

/-- The escapes of a text stay in the lines of its characters. -/
theorem splitLines_escape (afterReturn : Bool) (text : List Char) :
    splitLines afterReturn (text.flatMap escapeChar) =
      (splitLines afterReturn text).map fun line => line.flatMap escapeChar := by
  induction text generalizing afterReturn with
  | nil => rfl
  | cons c rest ih =>
      rw [List.flatMap_cons]
      cases hc : isLineBoundary c with
      | true =>
          rw [escapeChar_of_boundary hc, List.singleton_append, splitLines, splitLines]
          split
          · exact ih false
          · rw [ih]
            rfl
      | false =>
          have hback : isLineBoundary '\\' = false := by decide
          have hlast : splitLines false (c :: rest.flatMap escapeChar) =
              (c :: ((splitLines false rest).headD []).flatMap escapeChar) ::
                (splitLines false rest).tail.map fun line => line.flatMap escapeChar := by
            rw [splitLines_char hc, ih]
            cases splitLines false rest <;> rfl
          rw [splitLines_char hc, List.map_cons, List.flatMap_cons]
          obtain hplain | hescape := escapeChar_eq c
          · rw [hplain, List.singleton_append, splitLines_char hc, ih]
            cases splitLines false rest <;> rfl
          · rw [hescape, List.cons_append, List.singleton_append, splitLines_char hback, hlast]
            rfl

theorem linesOf_escaped (text : String) :
    linesOf (escaped text).toList =
      (linesOf text.toList).map fun line => line.flatMap escapeChar := by
  rw [toList_escaped, linesOf, linesOf, splitLines_escape]
  by_cases h : splitLines false text.toList = []
  · rw [h]
    rfl
  · rw [if_neg (by simpa using h), if_neg h]

/-- No line holds the boundary of one. -/
theorem no_boundary_of_mem_lines {afterReturn : Bool} {text line : List Char}
    (h : line ∈ splitLines afterReturn text) : ∀ c ∈ line, isLineBoundary c = false := by
  induction text generalizing afterReturn line with
  | nil => cases h
  | cons c rest ih =>
      cases hc : isLineBoundary c with
      | true =>
          rw [splitLines] at h
          split at h
          · exact ih h
          · rcases List.mem_cons.mp h with rfl | h
            · exact fun _ hd => absurd hd List.not_mem_nil
            · exact ih h
      | false =>
          rw [splitLines_char hc] at h
          cases hlines : splitLines false rest with
          | nil =>
              rw [hlines] at h
              obtain rfl := List.mem_singleton.mp h
              exact fun d hd => List.mem_singleton.mp hd ▸ hc
          | cons first others =>
              rw [hlines] at h
              rcases List.mem_cons.mp h with rfl | h
              · intro d hd
                rcases List.mem_cons.mp hd with rfl | hd
                · exact hc
                · exact ih (hlines ▸ List.mem_cons_self) d hd
              · exact ih (hlines ▸ List.mem_cons_of_mem _ h)

/-! ## The content stream -/

section Stream

variable {lines : List (List Char)} {line : List Char} {rest : List UInt8}

/-- The line that shows the text of a line. -/
def showLine (line : List Char) : List Char := "(".toList ++ line ++ ") Tj".toList

/-- A line and its position in the text, behind the lines before it. -/
def pieceOf (piece : List Char × Nat) : List Char :=
  (if piece.2 = 0 then [] else '\n' :: "0 -16 Td".toList) ++ '\n' :: showLine piece.1

/-- What follows the three lines at the head of the stream, each line behind its line feed. -/
def streamTail (lines : List (List Char)) : List Char :=
  lines.zipIdx.flatMap pieceOf ++ '\n' :: "ET".toList

theorem intercalate_cons (first : List Char) (others : List (List Char)) :
    ['\n'].intercalate (first :: others) = first ++ others.flatMap fun line => '\n' :: line := by
  induction others generalizing first with
  | nil => simp
  | cons second others ih =>
      rw [List.intercalate_cons_cons, ih, List.flatMap_cons, List.append_assoc]
      rfl

theorem stream_eq (text : String) :
    stream text = (("BT\n/F1 11 Tf\n50 780 Td".toList ++
      streamTail ((linesOf (escaped text).toList).take 45)).map latin1) := by
  rw [stream, streamLines]
  simp only [List.cons_append, List.nil_append, intercalate_cons, List.flatMap_cons,
    List.flatMap_append, List.flatMap_assoc, List.flatMap_nil, List.append_nil]
  have hindex : ∀ index : Nat,
      ((if index = 0 then [] else ["0 -16 Td".toList]).flatMap fun line => '\n' :: line) =
        if index = 0 then [] else '\n' :: "0 -16 Td".toList := by
    intro index
    split <;> simp
  simp only [hindex, streamTail, List.append_assoc]
  rfl

/-- Bytes without a parenthesis show nothing. -/
theorem shownStrings_outside {text : List Char}
    (h : text.all (fun c => c != '(' && c != ')') = true) :
    shownStrings .outside (text.map latin1 ++ rest) = shownStrings .outside rest := by
  induction text with
  | nil => rfl
  | cons c text ih =>
      obtain ⟨hc, htext⟩ := Bool.and_eq_true_iff.mp (List.all_cons ▸ h)
      obtain ⟨hopen, hclose⟩ := Bool.and_eq_true_iff.mp hc
      rw [List.map_cons, List.cons_append, shownStrings,
        if_neg fun he => bne_iff_ne.mp hopen (latin1_eq (by decide) (by decide) he),
        if_neg fun he => bne_iff_ne.mp hclose (latin1_eq (by decide) (by decide) he), ih htext]

/-- The escaped text of a string is read back. -/
theorem shownStrings_inside (text : List Char) (shown : List UInt8) :
    shownStrings (.inside shown) ((text.flatMap escapeChar).map latin1 ++ rest) =
      shownStrings (.inside (shown ++ text.map latin1)) rest := by
  induction text generalizing shown with
  | nil => rw [List.map_nil, List.append_nil, List.flatMap_nil, List.map_nil, List.nil_append]
  | cons c text ih =>
      have hnext : shown ++ (c :: text).map latin1 = (shown ++ [latin1 c]) ++ text.map latin1 := by
        rw [List.map_cons, List.append_assoc, List.singleton_append]
      rw [hnext, ← ih, List.flatMap_cons, List.map_append, List.append_assoc]
      by_cases hspecial : c = '\\' ∨ c = '(' ∨ c = ')'
      · have hlatin : latin1 c = latin1 '\\' ∨ latin1 c = latin1 '(' ∨ latin1 c = latin1 ')' := by
          rcases hspecial with rfl | rfl | rfl
          · exact .inl rfl
          · exact .inr (.inl rfl)
          · exact .inr (.inr rfl)
        rw [escapeChar, if_pos hspecial]
        show shownStrings (.inside shown) (latin1 '\\' :: latin1 c :: _) = _
        rw [shownStrings, if_pos rfl, shownStrings, if_pos hlatin]
        rfl
      · rw [escapeChar, if_neg hspecial]
        show shownStrings (.inside shown) (latin1 c :: _) = _
        rw [shownStrings, if_neg fun he => hspecial (.inl (latin1_eq (by decide) (by decide) he)),
          if_neg fun he => hspecial (.inr (.inl (latin1_eq (by decide) (by decide) he))),
          if_neg fun he => hspecial (.inr (.inr (latin1_eq (by decide) (by decide) he)))]
        rfl

/-- A line of the stream shows the line of the text. -/
theorem shownStrings_showLine (line : List Char) :
    shownStrings .outside ((showLine (line.flatMap escapeChar)).map latin1 ++ rest) =
      (shownStrings .outside rest).map (line.map latin1 :: ·) := by
  have hsplit : (showLine (line.flatMap escapeChar)).map latin1 ++ rest =
      latin1 '(' :: ((line.flatMap escapeChar).map latin1 ++
        (latin1 ')' :: (" Tj".toList.map latin1 ++ rest))) := by
    simp [showLine]
  have hoperator : (ascii " Tj").isPrefixOf (" Tj".toList.map latin1 ++ rest) = true :=
    List.isPrefixOf_iff_prefix.mpr (List.prefix_append _ _)
  have hquiet : shownStrings .outside (" Tj".toList.map latin1 ++ rest) =
      shownStrings .outside rest := shownStrings_outside (by decide)
  rw [hsplit, shownStrings, if_pos rfl, shownStrings_inside, List.nil_append, shownStrings,
    if_neg (by decide), if_neg (by decide), if_pos rfl, hoperator, if_pos rfl, hquiet]

theorem shownStrings_pieces (lines : List (List Char)) (k : Nat) :
    shownStrings .outside
        ((((lines.map fun line => line.flatMap escapeChar).zipIdx k).flatMap pieceOf).map latin1 ++
          rest) =
      (shownStrings .outside rest).map ((lines.map fun line => line.map latin1) ++ ·) := by
  induction lines generalizing k with
  | nil => exact Option.map_id'.symm
  | cons line lines ih =>
      have hquiet : ((if k = 0 then [] else '\n' :: "0 -16 Td".toList) ++ ['\n']).all
          (fun c => c != '(' && c != ')') = true := by
        split <;> decide
      have hpiece : pieceOf (line.flatMap escapeChar, k) =
          ((if k = 0 then [] else '\n' :: "0 -16 Td".toList) ++ ['\n']) ++
            showLine (line.flatMap escapeChar) := by
        rw [pieceOf, List.append_assoc]
        rfl
      rw [List.map_cons, List.zipIdx_cons, List.flatMap_cons, hpiece, List.append_assoc,
        List.map_append, List.append_assoc, shownStrings_outside hquiet, List.map_append,
        List.append_assoc, shownStrings_showLine, ih, Option.map_map]
      rfl

/-- The content stream shows the lines of the text. -/
theorem shownStrings_stream (text : String) :
    shownStrings .outside (stream text) =
      some (((linesOf text.toList).take 45).map fun line => line.map latin1) := by
  rw [stream_eq, linesOf_escaped, ← List.map_take, streamTail, List.map_append,
    shownStrings_outside (by decide), List.map_append, shownStrings_pieces]
  have hend : shownStrings .outside (('\n' :: "ET".toList).map latin1) = some [] := by decide
  rw [hend, Option.map_some, List.append_nil]

/-- No line feed stands before the letter that `endstream` begins with. -/
def NoEnd (text : List Char) : Prop := text.IsChain fun x y => ¬ (x = '\n' ∧ y = 'e')

theorem NoEnd.append {text rest : List Char} (h : '\n' ∉ text) (hrest : NoEnd rest) :
    NoEnd (text ++ rest) := by
  induction text with
  | nil => exact hrest
  | cons c text ih =>
      have hc : c ≠ '\n' := fun hc => h (hc ▸ List.mem_cons_self)
      exact List.IsChain.cons (ih fun hd => h (List.mem_cons_of_mem _ hd)) fun _ _ hfeed => hc hfeed.1

theorem NoEnd.behindFeed {first : Char} {text rest : List Char} (hfirst : first ≠ 'e')
    (h : '\n' ∉ first :: text) (hrest : NoEnd rest) : NoEnd ('\n' :: first :: text ++ rest) :=
  List.isChain_cons_cons.mpr ⟨fun hfeed => hfirst hfeed.2, NoEnd.append h hrest⟩

theorem noEnd_pieces {text : List Char} (k : Nat) (h : ∀ line ∈ lines, '\n' ∉ line)
    (hrest : NoEnd text) : NoEnd ((lines.zipIdx k).flatMap pieceOf ++ text) := by
  induction lines generalizing k with
  | nil => exact hrest
  | cons line lines ih =>
      have hline : '\n' ∉ line := h line List.mem_cons_self
      have hshow : NoEnd ('\n' :: showLine line ++ ((lines.zipIdx (k + 1)).flatMap pieceOf ++ text)) := by
        refine NoEnd.behindFeed (by decide) ?_ (ih _ fun line hl => h line (List.mem_cons_of_mem _ hl))
        show '\n' ∉ '(' :: (line ++ [')', ' ', 'T', 'j'])
        simp [hline]
      rw [List.zipIdx_cons, List.flatMap_cons, pieceOf, List.append_assoc, List.append_assoc]
      split
      · exact hshow
      · exact NoEnd.behindFeed (by decide) (by decide) hshow

theorem no_feed_of_mem_lines {text line : List Char} (h : line ∈ linesOf text) : '\n' ∉ line := by
  rw [linesOf] at h
  intro hfeed
  split at h
  · obtain rfl := List.mem_singleton.mp h
    cases hfeed
  · exact absurd (no_boundary_of_mem_lines h _ hfeed) (by decide)

/-- The content stream does not hold its own end. -/
theorem noEnd_stream (text : String) :
    (stream text ++ [latin1 '\n']).IsChain fun x y => ¬ (x = latin1 '\n' ∧ y = latin1 'e') := by
  have hlines : ∀ line ∈ (linesOf (escaped text).toList).take 45, '\n' ∉ line :=
    fun line h => no_feed_of_mem_lines (List.mem_of_mem_take h)
  have hend : NoEnd ('\n' :: "ET".toList ++ ['\n']) :=
    @NoEnd.behindFeed 'E' ['T'] _ (by decide) (by decide) (List.isChain_singleton _)
  have hchars : NoEnd ("BT\n/F1 11 Tf\n50 780 Td".toList ++
      streamTail ((linesOf (escaped text).toList).take 45) ++ ['\n']) := by
    rw [streamTail, List.append_assoc, List.append_assoc]
    have htail := noEnd_pieces 0 hlines hend
    exact @NoEnd.append "BT".toList _ (by decide)
      (@NoEnd.behindFeed '/' "F1 11 Tf".toList _ (by decide) (by decide)
        (@NoEnd.behindFeed '5' "0 780 Td".toList _ (by decide) (by decide) htail))
  rw [stream_eq]
  have hmap := (List.isChain_map latin1 (R := fun x y => ¬ (x = latin1 '\n' ∧ y = latin1 'e'))).mpr
    (hchars.imp fun x y hxy hlatin => hxy ⟨latin1_eq (by decide) (by decide) hlatin.1,
      latin1_eq (by decide) (by decide) hlatin.2⟩)
  rwa [List.map_append] at hmap

end Stream

/-! ## The layout of the file -/

section Layout

variable {text : String} {object : List UInt8}

/-- Where each of the objects begins. -/
def starts (start : Nat) : List (List UInt8) → List Nat
  | [] => []
  | object :: others => start :: starts (start + object.length) others

theorem foldl_place (content : List UInt8) (offsets : List Nat) (others : List (List UInt8)) :
    others.foldl place (content, offsets) =
      (content ++ others.flatten, offsets ++ starts content.length others) := by
  induction others generalizing content offsets with
  | nil => simp [starts]
  | cons object others ih =>
      rw [List.foldl_cons, place, ih, List.length_append]
      simp [starts]

theorem length_starts (start : Nat) (others : List (List UInt8)) :
    (starts start others).length = others.length := by
  induction others generalizing start with
  | nil => rfl
  | cons object others ih => rw [starts, List.length_cons, List.length_cons, ih]

theorem starts_getElem? {start i : Nat} {others : List (List UInt8)} (h : i < others.length) :
    (starts start others)[i]? = some (start + (others.take i).flatten.length) := by
  induction others generalizing start i with
  | nil => cases h
  | cons object others ih =>
      cases i with
      | zero => rfl
      | succ i =>
          rw [starts, List.getElem?_cons_succ, ih (Nat.lt_of_succ_lt_succ h), List.take_succ_cons,
            List.flatten_cons, List.length_append, Nat.add_assoc]

/-- What stands before the cross references. -/
def body (text : String) : List UInt8 := header ++ (objects (stream text)).flatten

/-- The lines of the cross references. -/
def xrefLines (text : String) : List UInt8 :=
  (starts header.length (objects (stream text))).flatMap xrefLine

/-- The trailer behind its first word, up to the position of the cross references. -/
def trailerEntries : List UInt8 := ascii (toString 6) ++ ascii " /Root 1 0 R >>\n"

def fileEnd (text : String) : List UInt8 :=
  ascii "startxref\n" ++ (ascii (toString (body text).length) ++ ascii "\n%%EOF\n")

/-- What follows the first two lines of the cross references. -/
def afterHead (text : String) : List UInt8 :=
  xrefLines text ++ (ascii "trailer << " ++ (ascii "/Size " ++ (trailerEntries ++ fileEnd text)))

theorem minimalPdf_eq (text : String) :
    minimalPdf text =
      body text ++ (ascii "xref\n0 6\n" ++ (ascii "0000000000 65535 f \n" ++ afterHead text)) := by
  have hsize : toString ((objects (stream text)).length + 1) = toString 6 := rfl
  rw [minimalPdf]
  simp only [foldl_place, hsize, List.singleton_append, List.drop_succ_cons, List.drop_zero]
  have hhead : ascii ("xref\n0 " ++ toString 6 ++ "\n0000000000 65535 f \n") =
      ascii "xref\n0 6\n" ++ ascii "0000000000 65535 f \n" := by decide
  have htrailer : ∀ position : String, ascii ("trailer << /Size " ++ toString 6 ++
      " /Root 1 0 R >>\nstartxref\n" ++ position ++ "\n%%EOF\n") =
        ascii "trailer << " ++ (ascii "/Size " ++ (trailerEntries ++
          (ascii "startxref\n" ++ (ascii position ++ ascii "\n%%EOF\n")))) := by
    intro position
    have hwords : ascii ("trailer << /Size " ++ toString 6 ++ " /Root 1 0 R >>\nstartxref\n") =
        ascii "trailer << " ++ (ascii "/Size " ++ (trailerEntries ++ ascii "startxref\n")) := by decide
    rw [ascii_append, ascii_append, hwords]
    simp only [List.append_assoc]
  rw [hhead, htrailer, afterHead, fileEnd, body, xrefLines]
  simp only [List.append_assoc]

/-- The position of the cross references is read from the end of the file. -/
theorem startXref?_minimalPdf (text : String) :
    startXref? (minimalPdf text) = some (body text).length := by
  have hend : ∃ rest, (minimalPdf text).reverse =
      ((ascii "\n%%EOF\n").reverse ++ (ascii (toString (body text).length)).reverse) ++
        ((ascii "startxref\n").reverse ++ rest) := by
    rw [minimalPdf_eq, afterHead, fileEnd]
    simp only [List.reverse_append, List.append_assoc]
    exact ⟨_, rfl⟩
  obtain ⟨rest, hend⟩ := hend
  have hmark : (ascii "startxref\n").reverse =
      latin1 '\n' :: latin1 'f' :: (ascii "startxre").reverse := by decide
  have hsecond : latin1 'f' ∉
      (ascii "\n%%EOF\n").reverse ++ (ascii (toString (body text).length)).reverse := by
    rw [List.mem_append, List.mem_reverse, List.mem_reverse]
    rintro (hmem | hmem)
    · exact absurd hmem (by decide)
    · exact absurd (isDigitByte_of_mem_toString hmem) (by decide)
  rw [startXref?, hend, hmark, breakOn_of_second (by decide) hsecond, Option.bind_some]
  show number? (List.reverse (_ ++ _)) = _
  rw [List.reverse_append, List.reverse_reverse, List.reverse_reverse, number?_toString (by decide)]

theorem length_xrefLine {offset : Nat} (h : offset < 10 ^ 10) : (xrefLine offset).length = 20 := by
  rw [xrefLine, ascii_append, List.length_append, ascii, List.length_map,
    Text.length_padded (by decide) h]
  rfl

/-- Lines of one length are passed over by number. -/
theorem drop_flatMap {α β : Type*} {f : α → List β} {n : Nat} {xs : List α} {rest : List β}
    (h : ∀ x ∈ xs, (f x).length = n) {i : Nat} (hi : i ≤ xs.length) :
    (xs.flatMap f ++ rest).drop (n * i) = (xs.drop i).flatMap f ++ rest := by
  induction xs generalizing i with
  | nil =>
      obtain rfl := Nat.le_zero.mp hi
      rfl
  | cons x xs ih =>
      cases i with
      | zero => rfl
      | succ i =>
          have hnext : n * (i + 1) = (f x).length + n * i := by
            rw [h x List.mem_cons_self, Nat.mul_succ, Nat.add_comm]
          rw [List.flatMap_cons, List.append_assoc, hnext, List.drop_length_add_append,
            ih (fun y hy => h y (List.mem_cons_of_mem _ hy)) (Nat.le_of_succ_le_succ hi),
            List.drop_succ_cons]

/-- The file up to an object, and from it. -/
theorem minimalPdf_object {i : Nat} (h : (objects (stream text))[i]? = some object) :
    ∃ rest, minimalPdf text =
      (header ++ ((objects (stream text)).take i).flatten) ++ (object ++ rest) := by
  obtain ⟨hi, hobject⟩ := List.getElem?_eq_some_iff.mp h
  have hsplit : (objects (stream text)).flatten = ((objects (stream text)).take i).flatten ++
      (object ++ ((objects (stream text)).drop (i + 1)).flatten) := by
    rw [← List.flatten_cons, ← hobject, ← List.drop_eq_getElem_cons hi, ← List.flatten_append,
      List.take_append_drop]
  rw [minimalPdf_eq, body, hsplit]
  simp only [List.append_assoc]
  exact ⟨_, rfl⟩

variable (hsize : (minimalPdf text).length < 10 ^ 10)

include hsize in
theorem starts_lt {offset : Nat} (h : offset ∈ starts header.length (objects (stream text))) :
    offset < 10 ^ 10 := by
  obtain ⟨i, hget⟩ := List.mem_iff_getElem?.mp h
  obtain ⟨hi, -⟩ := List.getElem?_eq_some_iff.mp hget
  rw [length_starts] at hi
  rw [starts_getElem? hi] at hget
  obtain ⟨rest, hfile⟩ := minimalPdf_object (List.getElem?_eq_getElem hi)
  rw [hfile, List.length_append, List.length_append] at hsize
  have hoffset := Option.some.inj hget
  omega

include hsize in
/-- The entry of an object is where it begins. -/
theorem xrefOffset?_minimalPdf {i : Nat} (hi : i < (objects (stream text)).length) :
    xrefOffset? (minimalPdf text) (i + 1) =
      some (header ++ ((objects (stream text)).take i).flatten).length := by
  have hdrop : (minimalPdf text).drop ((body text).length + 9 + 20 * (i + 1)) =
      (afterHead text).drop (20 * i) := by
    have hsum : (body text).length + 9 + 20 * (i + 1) =
        (body text).length + ((ascii "xref\n0 6\n").length +
          ((ascii "0000000000 65535 f \n").length + 20 * i)) := by
      have hfirst : (ascii "xref\n0 6\n").length = 9 := by decide
      have hfree : (ascii "0000000000 65535 f \n").length = 20 := by decide
      omega
    rw [minimalPdf_eq, hsum, List.drop_length_add_append, List.drop_length_add_append,
      List.drop_length_add_append]
  obtain ⟨hstarts, hget⟩ := List.getElem?_eq_some_iff.mp (@starts_getElem? header.length i _ hi)
  have hlines : ∀ offset ∈ starts header.length (objects (stream text)),
      (xrefLine offset).length = 20 := fun offset h => length_xrefLine (starts_lt hsize h)
  have hpadded : (ascii (Text.padded 10 (header.length +
      ((objects (stream text)).take i).flatten.length))).length = 10 := by
    rw [ascii, List.length_map, Text.length_padded (by decide)]
    exact starts_lt hsize (hget ▸ List.getElem_mem hstarts)
  rw [xrefOffset?, startXref?_minimalPdf, Option.bind_some, hdrop, afterHead, xrefLines,
    drop_flatMap hlines (Nat.le_of_lt hstarts), List.drop_eq_getElem_cons hstarts, hget,
    List.flatMap_cons, xrefLine, ascii_append, List.append_assoc, List.append_assoc,
    List.take_left' hpadded, List.length_append]
  have hread := @number?_padded 10 (header.length + ((objects (stream text)).take i).flatten.length)
    [] rfl
  rwa [List.append_nil] at hread

/-! ## What the file says -/

/-- The object of the content stream, from its dictionary on. -/
theorem contentObject_eq (stream : List UInt8) :
    ∃ object, (objects stream)[4]? = some object ∧
      object = ascii "5 0 obj << " ++ (ascii "/Length " ++ (ascii (toString stream.length) ++
        (ascii " >> " ++ (ascii "stream\n" ++ (stream ++ (ascii "\nendstream" ++ ascii " endobj\n")))))) := by
  refine ⟨_, rfl, ?_⟩
  have hdict : ascii "5 0 obj << /Length " = ascii "5 0 obj << " ++ ascii "/Length " := by decide
  have hopen : ascii " >> stream\n" = ascii " >> " ++ ascii "stream\n" := by decide
  have hclose : ascii "\nendstream endobj\n" = ascii "\nendstream" ++ ascii " endobj\n" := by decide
  rw [hdict, hopen, hclose]
  simp only [List.append_assoc]

/-- Each object begins with its number. -/
theorem number_prefix {stream : List UInt8} {i : Nat} (h : (objects stream)[i]? = some object) :
    ascii (toString (i + 1) ++ " 0 obj") <+: object := by
  rcases i with _ | _ | _ | _ | _ | i
  · obtain rfl := Option.some.inj h
    exact List.isPrefixOf_iff_prefix.mp (by decide +kernel)
  · obtain rfl := Option.some.inj h
    exact List.isPrefixOf_iff_prefix.mp (by decide +kernel)
  · obtain rfl := Option.some.inj h
    exact List.isPrefixOf_iff_prefix.mp (by decide +kernel)
  · obtain rfl := Option.some.inj h
    exact List.isPrefixOf_iff_prefix.mp (by decide +kernel)
  · obtain ⟨content, hcontent, hobject⟩ := contentObject_eq stream
    obtain rfl := Option.some.inj (hcontent.symm.trans h)
    rw [hobject]
    have hnumber : ascii (toString (4 + 1) ++ " 0 obj") <+: ascii "5 0 obj << " := by decide
    exact hnumber.trans (List.prefix_append _ _)
  · cases h

/-- The dictionary of the trailer declares the number of the entries. -/
theorem size_minimalPdf (text : String) :
    keyNumber? (ascii "/Size ") ((minimalPdf text).drop (body text).length) =
      some ((objects (stream text)).length + 1) := by
  have hquiet : latin1 '/' ∉ ascii "xref\n0 6\n" ++ (ascii "0000000000 65535 f \n" ++
      (xrefLines text ++ ascii "trailer << ")) := by
    simp only [List.mem_append, not_or]
    refine ⟨by decide, by decide, ?_, by decide⟩
    intro hmem
    obtain ⟨offset, -, hline⟩ := List.mem_flatMap.mp hmem
    rw [xrefLine, ascii_append, List.mem_append] at hline
    rcases hline with hdigit | hrest
    · obtain ⟨c, hc, hsame⟩ := List.mem_map.mp hdigit
      have hslash : isDigitByte (latin1 '/') = true :=
        hsame ▸ isDigitByte_latin1 (Text.isDigit_of_mem_padded hc)
      exact absurd hslash (by decide)
    · exact absurd hrest (by decide)
  have hmark : ascii "/Size " = latin1 '/' :: latin1 'S' :: ascii "ize " := by decide
  have hfile : (minimalPdf text).drop (body text).length =
      (ascii "xref\n0 6\n" ++ (ascii "0000000000 65535 f \n" ++ (xrefLines text ++ ascii "trailer << "))) ++
        (ascii "/Size " ++ (trailerEntries ++ fileEnd text)) := by
    rw [minimalPdf_eq, List.drop_left, afterHead]
    simp only [List.append_assoc]
  rw [keyNumber?, hfile, hmark, breakOn_of_not_mem hquiet, Option.bind_some]
  show number? (trailerEntries ++ fileEnd text) = _
  rw [trailerEntries, List.append_assoc, number?_toString rfl]
  rfl

/-- The content stream stands between its marks, with the length that its dictionary declares. -/
theorem content_eq (stream rest : List UInt8)
    (hend : (stream ++ [latin1 '\n']).IsChain fun x y => ¬ (x = latin1 '\n' ∧ y = latin1 'e'))
    (h : (objects stream)[4]? = some object) :
    streamBytes? (object ++ rest) = some stream ∧
      keyNumber? (ascii "/Length ") (object ++ rest) = some stream.length := by
  obtain ⟨content, hcontent, hobject⟩ := contentObject_eq stream
  obtain rfl := Option.some.inj (hcontent.symm.trans h)
  have hopen : ascii "stream\n" = latin1 's' :: latin1 't' :: ascii "ream\n" := by decide
  have hclose : ascii "\nendstream" = latin1 '\n' :: latin1 'e' :: ascii "ndstream" := by decide
  have hlength : ascii "/Length " = latin1 '/' :: latin1 'L' :: ascii "ength " := by decide
  constructor
  · have hquiet : latin1 's' ∉ ascii "5 0 obj << " ++ (ascii "/Length " ++
        (ascii (toString stream.length) ++ ascii " >> ")) := by
      simp only [List.mem_append, not_or]
      exact ⟨by decide, by decide, fun hmem => absurd (isDigitByte_of_mem_toString hmem) (by decide),
        by decide⟩
    have hsplit : content ++ rest = (ascii "5 0 obj << " ++ (ascii "/Length " ++
        (ascii (toString stream.length) ++ ascii " >> "))) ++ (ascii "stream\n" ++
          (stream ++ (ascii "\nendstream" ++ (ascii " endobj\n" ++ rest)))) := by
      rw [hobject]
      simp only [List.append_assoc]
    rw [streamBytes?, hsplit, hopen, breakOn_of_not_mem hquiet, Option.bind_some]
    show (breakOn (ascii "\nendstream") (stream ++ (ascii "\nendstream" ++ _))).map Prod.fst = _
    rw [hclose, breakOn_append hend]
    rfl
  · have hsplit : content ++ rest = ascii "5 0 obj << " ++ (ascii "/Length " ++
        (ascii (toString stream.length) ++ (ascii " >> " ++ (ascii "stream\n" ++
          (stream ++ (ascii "\nendstream" ++ (ascii " endobj\n" ++ rest))))))) := by
      rw [hobject]
      simp only [List.append_assoc]
    rw [keyNumber?, hsplit, hlength, breakOn_of_not_mem (by decide), Option.bind_some]
    exact number?_toString rfl

/-- A file of fewer than ten digits is consistent and shows the first lines of its text. -/
theorem minimalPdf_shows (text : String) (hsize : (minimalPdf text).length < 10 ^ 10) :
    Shows text (minimalPdf text) where
  startXref := by
    refine ⟨(body text).length, startXref?_minimalPdf text, ?_, ?_⟩
    · rw [minimalPdf_eq, List.take_left, body]
    · rw [minimalPdf_eq, List.drop_left]
      have hword : ascii "xref\n" <+: ascii "xref\n0 6\n" := by decide
      exact hword.trans (List.prefix_append _ _)
  offsets := by
    intro i hi
    have hobject := List.getElem?_eq_getElem hi
    obtain ⟨rest, hfile⟩ := minimalPdf_object hobject
    refine ⟨_, _, xrefOffset?_minimalPdf hsize hi, hobject, ?_, ?_, number_prefix hobject⟩
    · rw [hfile, List.take_left]
    · rw [hfile, List.drop_left]
      exact List.prefix_append _ _
  size := ⟨_, startXref?_minimalPdf text, size_minimalPdf text⟩
  content := by
    obtain ⟨object, hobject, -⟩ := contentObject_eq (stream text)
    obtain ⟨rest, hfile⟩ := minimalPdf_object hobject
    have hi : 4 < (objects (stream text)).length := (by decide : 4 < 5)
    obtain ⟨hstream, hlength⟩ := content_eq (stream text) rest (noEnd_stream text) hobject
    refine ⟨_, stream text, xrefOffset?_minimalPdf hsize hi, ?_, ?_, shownStrings_stream text⟩
    · rw [hfile, List.drop_left]
      exact hstream
    · rw [hfile, List.drop_left]
      exact hlength

theorem minimalPdf_shows_sample :
    (minimalPdf "A (b)\r\nC").length < 10 ^ 10 ∧ Shows "A (b)\r\nC" (minimalPdf "A (b)\r\nC") := by
  have hsize : (minimalPdf "A (b)\r\nC").length < 10 ^ 10 := by decide +kernel
  exact ⟨hsize, minimalPdf_shows _ hsize⟩

end Layout

end MinimalPdf

end CfdiVault
