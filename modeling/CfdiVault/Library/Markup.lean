import Mathlib.Algebra.GroupWithZero.Nat
import Mathlib.Data.List.Basic
import Mathlib.Tactic.Common

/-!
# Markup

The tags of a marked up text and the texts between them, and the character references of
a text.  A page whose own texts begin no tag and hold no reference is the only page that
its characters can be read as (`faithful_iff`).
-/

namespace CfdiVault

namespace Markup

/-! ## Tags -/

/-- The characters that begin a tag behind the bracket: of its name, of an end tag, of a
declaration or a comment, and of an instruction. -/
def isOpener (c : Char) : Bool := c.isAlpha || c == '/' || c == '!' || c == '?'

/-- A tag begins with the character, in front of the rest. -/
def beginsTag (c : Char) (rest : List Char) : Bool := c == '<' && rest.head?.any isOpener

/-- How many tags begin. -/
def openers : List Char → Nat
  | [] => 0
  | c :: rest => (if beginsTag c rest then 1 else 0) + openers rest

/-- The tags of a marked up text, each with the text before it, and the text behind the last. -/
structure Page where
  pieces : List (List Char × List Char)
  last : List Char

namespace Page

def tags (p : Page) : List (List Char) := p.pieces.map Prod.snd

def texts (p : Page) : List (List Char) := p.pieces.map Prod.fst ++ [p.last]

/-- The characters of the page. -/
def flatten (p : Page) : List Char :=
  p.pieces.flatMap (fun (text, tag) => text ++ tag) ++ p.last

/-- The page with a piece before it. -/
def cons (piece : List Char × List Char) (p : Page) : Page := ⟨piece :: p.pieces, p.last⟩

end Page

/-- The pages of characters, behind the text and the begun tag that were read before them.
A tag that is not finished makes no page. -/
def scan (text : List Char) : Option (List Char) → List Char → Option Page
  | none, [] => some ⟨[], text⟩
  | some _, [] => none
  | none, c :: rest =>
      if beginsTag c rest then scan text (some [c]) rest else scan (text ++ [c]) none rest
  | some tag, c :: rest =>
      if c = '>' then (scan [] none rest).map (Page.cons (text, tag ++ [c]))
      else scan text (some (tag ++ [c])) rest

/-- A tag: from its bracket to the first that closes it. -/
structure IsTag (tag : List Char) : Prop where
  shape : ∃ body, tag = '<' :: (body ++ ['>']) ∧ body.head?.any isOpener = true ∧ '>' ∉ body

/-! ## Counting -/

/-- Where no tag begins across two texts, each begins its own. -/
theorem openers_append {xs ys : List Char} (h : ys.head?.any isOpener = false) :
    openers (xs ++ ys) = openers xs + openers ys := by
  induction xs with
  | nil => exact (Nat.zero_add _).symm
  | cons c xs ih =>
      have hnext : beginsTag c (xs ++ ys) = beginsTag c xs := by
        cases xs with
        | nil => rw [List.nil_append, beginsTag, h, beginsTag]; rfl
        | cons d xs => rfl
      rw [List.cons_append, openers, hnext, ih, openers, Nat.add_assoc]

/-- Behind a closing bracket nothing is left open. -/
theorem openers_closed {xs ys : List Char} :
    openers (xs ++ '>' :: ys) = openers (xs ++ ['>']) + openers ys := by
  have hclose : ∀ zs : List Char, (('>' :: zs).head?.any isOpener) = false := fun _ => rfl
  have hbracket : ∀ zs, openers ('>' :: zs) = openers zs := fun zs => Nat.zero_add _
  rw [openers_append (hclose ys), openers_append (hclose []), hbracket, hbracket]
  rfl

theorem openers_tag_append {tag rest : List Char} (h : IsTag tag) :
    openers (tag ++ rest) = openers tag + openers rest := by
  obtain ⟨body, rfl, -, -⟩ := h.shape
  have hsplit : '<' :: (body ++ ['>']) ++ rest = ('<' :: body) ++ '>' :: rest := by simp
  have htag : '<' :: (body ++ ['>']) = ('<' :: body) ++ ['>'] := rfl
  rw [hsplit, htag, openers_closed]

/-- A tag cannot be continued from the text before it. -/
theorem openers_before_tag {text tag : List Char} (h : IsTag tag) (rest : List Char) :
    openers (text ++ (tag ++ rest)) = openers text + openers (tag ++ rest) := by
  obtain ⟨body, rfl, -, -⟩ := h.shape
  exact openers_append rfl

/-- The tags that begin on a page are those of its texts and of its tags. -/
theorem openers_flatten (p : Page) (h : ∀ tag ∈ p.tags, IsTag tag) :
    openers p.flatten = (p.texts.map openers).sum + (p.tags.map openers).sum := by
  obtain ⟨pieces, last⟩ := p
  induction pieces with
  | nil => simp [Page.flatten, Page.texts, Page.tags]
  | cons piece pieces ih =>
      obtain ⟨text, tag⟩ := piece
      have htag : IsTag tag := h tag List.mem_cons_self
      have hrest := ih fun t ht => h t (List.mem_cons_of_mem _ ht)
      have hflat : Page.flatten ⟨(text, tag) :: pieces, last⟩ =
          text ++ (tag ++ Page.flatten ⟨pieces, last⟩) := by
        simp [Page.flatten]
      rw [hflat, openers_before_tag htag, openers_tag_append htag, hrest]
      simp only [Page.texts, Page.tags, List.map_cons, List.cons_append, List.sum_cons]
      omega

/-- Every tag that begins is in one of the tags that are read. -/
theorem openers_scan {text : List Char} {tag : Option (List Char)} {cs : List Char} {p : Page}
    (h : scan text tag cs = some p) :
    openers (tag.getD [] ++ cs) = (p.tags.map openers).sum := by
  induction cs generalizing text tag p with
  | nil =>
      cases tag with
      | none =>
          obtain rfl := Option.some.inj h
          rfl
      | some tag => cases h
  | cons c rest ih =>
      cases tag with
      | none =>
          rw [scan] at h
          split at h
          · exact ih h
          · next hc =>
              rw [Option.getD_none, List.nil_append, openers, if_neg hc, Nat.zero_add]
              exact ih h
      | some tag =>
          rw [scan] at h
          split at h
          · next hclose =>
              obtain ⟨q, hq, rfl⟩ := Option.map_eq_some_iff.mp h
              subst hclose
              rw [Option.getD_some, openers_closed]
              exact congrArg (openers (tag ++ ['>']) + ·) (ih hq)
          · have hnext := ih h
            rw [Option.getD_some, List.append_assoc] at hnext
            exact hnext

/-! ## Reading a page back -/

/-- Text that begins no tag is read as text. -/
theorem scan_text {text read rest : List Char} (hquiet : openers text = 0)
    (hrest : rest.head?.any isOpener = false) :
    scan read none (text ++ rest) = scan (read ++ text) none rest := by
  induction text generalizing read with
  | nil => rw [List.nil_append, List.append_nil]
  | cons c text ih =>
      rw [openers] at hquiet
      have hnext : beginsTag c (text ++ rest) = beginsTag c text := by
        cases text with
        | nil => rw [List.nil_append, beginsTag, hrest, beginsTag]; rfl
        | cons d text => rfl
      have hc : ¬ beginsTag c text = true := by
        intro hc
        rw [if_pos hc] at hquiet
        omega
      rw [List.cons_append, scan, hnext, if_neg hc, ih (by omega), List.append_assoc]
      rfl

theorem scan_body {text tag body rest : List Char} (h : '>' ∉ body) :
    scan text (some tag) (body ++ '>' :: rest) =
      (scan [] none rest).map (Page.cons (text, tag ++ (body ++ ['>']))) := by
  induction body generalizing tag with
  | nil => rw [List.nil_append, scan, if_pos rfl, List.nil_append]
  | cons c body ih =>
      have hc : c ≠ '>' := fun hc => h (hc ▸ List.mem_cons_self)
      rw [List.cons_append, scan, if_neg hc, ih fun hmem => h (List.mem_cons_of_mem _ hmem),
        List.append_assoc]
      rfl

/-- A tag is read as one piece with the text before it. -/
theorem scan_tag {text tag rest : List Char} (h : IsTag tag) :
    scan text none (tag ++ rest) = (scan [] none rest).map (Page.cons (text, tag)) := by
  obtain ⟨body, rfl, hopen, hbody⟩ := h.shape
  have hbegins : beginsTag '<' (body ++ '>' :: rest) = true := by
    cases body with
    | nil => cases hopen
    | cons d body => exact hopen
  have hsplit : '<' :: (body ++ ['>']) ++ rest = '<' :: (body ++ '>' :: rest) := by simp
  rw [hsplit, scan, if_pos hbegins, scan_body hbody]
  rfl

/-- A page whose texts begin no tag is read back. -/
theorem scan_flatten {p : Page} (h : ∀ tag ∈ p.tags, IsTag tag) (hlast : openers p.last = 0)
    (hquiet : ∀ text ∈ p.texts, openers text = 0) : scan [] none p.flatten = some p := by
  obtain ⟨pieces, last⟩ := p
  induction pieces with
  | nil =>
      have hscan := @scan_text last [] [] hlast rfl
      rw [List.append_nil, List.nil_append] at hscan
      exact hscan
  | cons piece pieces ih =>
      obtain ⟨text, tag⟩ := piece
      have htag : IsTag tag := h tag List.mem_cons_self
      have hhead : (tag ++ Page.flatten ⟨pieces, last⟩).head?.any isOpener = false := by
        obtain ⟨body, rfl, -, -⟩ := htag.shape
        rfl
      have hflat : Page.flatten ⟨(text, tag) :: pieces, last⟩ =
          text ++ (tag ++ Page.flatten ⟨pieces, last⟩) := by
        simp [Page.flatten]
      rw [hflat, scan_text (hquiet text List.mem_cons_self) hhead, List.nil_append, scan_tag htag,
        ih (fun t ht => h t (List.mem_cons_of_mem _ ht)) hlast
          fun t ht => hquiet t (List.mem_cons_of_mem _ ht)]
      rfl

/-- The tags of a page are read back exactly if none of its texts begins one. -/
theorem scan_flatten_iff {p : Page} (h : ∀ tag ∈ p.tags, IsTag tag) :
    (∃ q, scan [] none p.flatten = some q ∧ q.tags = p.tags) ↔
      ∀ text ∈ p.texts, openers text = 0 := by
  constructor
  · rintro ⟨q, hscan, htags⟩
    have hcount := openers_scan hscan
    rw [Option.getD_none, List.nil_append, openers_flatten p h, htags] at hcount
    have hzero : (p.texts.map openers).sum = 0 := by omega
    intro text htext
    exact List.sum_eq_zero_iff_forall_eq_nat.mp hzero _ (List.mem_map_of_mem htext)
  · intro hquiet
    exact ⟨p, scan_flatten h (hquiet _ (List.mem_append_right _ List.mem_cons_self)) hquiet, rfl⟩

/-! ## Character references -/

/-- The character references of a markup language: the character of a number, and the texts
of the names.  No text is longer than its name. -/
structure References where
  numeric : Nat → Char
  named : List (List Char × List Char)
  shorter : ∀ entry ∈ named, entry.2.length ≤ entry.1.length

def isDecimal (c : Char) : Bool := '0' ≤ c && c ≤ '9'

def isHex (c : Char) : Bool := isDecimal c || ('a' ≤ c && c ≤ 'f') || ('A' ≤ c && c ≤ 'F')

def hexValue (c : Char) : Nat :=
  if isDecimal c then c.toNat - 48 else if 'a' ≤ c then c.toNat - 87 else c.toNat - 55

/-- The value of digits in a base. -/
def digitsValue (base : Nat) (digits : List Char) : Nat :=
  digits.foldl (fun n c => base * n + hexValue c) 0

/-- How long a numeric reference is: its digits behind what announces them, and a semicolon
if one follows. -/
def numericLength (announced : Nat) (digits rest : List Char) : Nat :=
  announced + digits.length + (if (rest.drop (announced + digits.length)).head? = some ';' then 1 else 0)

namespace References

/-- The longest name that the text begins with. -/
def longestName (refs : References) (rest : List Char) : Option (List Char × List Char) :=
  (refs.named.filter fun entry => entry.1.isPrefixOf rest).maxOn? fun entry => entry.1.length

/-- The text of the reference behind an ampersand, and its length. -/
def resolve (refs : References) (rest : List Char) : Option (List Char × Nat) :=
  let decimal := (rest.drop 1).takeWhile isDecimal
  let hexadecimal := (rest.drop 2).takeWhile isHex
  if rest.head? = some '#' ∧ decimal ≠ [] then
    some ([refs.numeric (digitsValue 10 decimal)], numericLength 1 decimal rest)
  else if rest.head? = some '#' ∧ (rest[1]? = some 'x' ∨ rest[1]? = some 'X') ∧ hexadecimal ≠ [] then
    some ([refs.numeric (digitsValue 16 hexadecimal)], numericLength 2 hexadecimal rest)
  else (refs.longestName rest).map fun entry => (entry.2, entry.1.length)

/-- The text with its references resolved; `skip` counts the characters of a reference that
are still to be passed over. -/
def decode (refs : References) (skip : Nat) : List Char → List Char
  | [] => []
  | c :: rest =>
      match skip with
      | n + 1 => decode refs n rest
      | 0 =>
          match (if c = '&' then refs.resolve rest else none) with
          | some (text, n) => text ++ decode refs n rest
          | none => c :: decode refs 0 rest

/-- No ampersand of the text begins a reference. -/
def NoReference (refs : References) (text : List Char) : Prop :=
  ∀ before rest, text = before ++ '&' :: rest → refs.resolve rest = none

variable {refs : References} {text rest : List Char} {n : Nat}

theorem numericLength_le {announced : Nat} {p : Char → Bool}
    (hdigits : (rest.drop announced).takeWhile p ≠ []) :
    numericLength announced ((rest.drop announced).takeWhile p) rest ≤ rest.length := by
  have htake := (List.takeWhile_prefix (l := rest.drop announced) p).length_le
  have hpos := List.length_pos_iff.mpr hdigits
  rw [List.length_drop] at htake
  rw [numericLength]
  split
  · next hsemicolon =>
      have hlast : (rest.drop (announced + ((rest.drop announced).takeWhile p).length)).length ≠ 0 := by
        intro hzero
        rw [List.length_eq_zero_iff.mp hzero] at hsemicolon
        cases hsemicolon
      rw [List.length_drop] at hlast
      omega
  · omega

/-- A reference is no shorter than its text, and ends in the text that it stands in. -/
theorem resolve_le (h : refs.resolve rest = some (text, n)) : text.length ≤ n ∧ n ≤ rest.length := by
  rw [resolve] at h
  split at h
  · next hdecimal =>
      obtain ⟨rfl, rfl⟩ := Prod.mk.inj (Option.some.inj h)
      have hpos := List.length_pos_iff.mpr hdecimal.2
      exact ⟨by rw [numericLength, List.length_singleton]; omega, numericLength_le hdecimal.2⟩
  split at h
  · next hhex =>
      obtain ⟨rfl, rfl⟩ := Prod.mk.inj (Option.some.inj h)
      have hpos := List.length_pos_iff.mpr hhex.2.2
      exact ⟨by rw [numericLength, List.length_singleton]; omega, numericLength_le hhex.2.2⟩
  · obtain ⟨entry, hentry, hpair⟩ := Option.map_eq_some_iff.mp h
    obtain ⟨rfl, rfl⟩ := Prod.mk.inj hpair
    obtain ⟨hmem, hprefix⟩ := List.mem_filter.mp (List.maxOn?_mem hentry)
    exact ⟨refs.shorter entry hmem, (List.isPrefixOf_iff_prefix.mp hprefix).length_le⟩

/-- Decoding lengthens no text. -/
theorem length_decode_le (refs : References) (skip : Nat) (text : List Char) :
    (refs.decode skip text).length ≤ text.length - skip := by
  induction text generalizing skip with
  | nil => exact Nat.zero_le _
  | cons c rest ih =>
      cases skip with
      | succ n =>
          rw [decode, List.length_cons, Nat.succ_sub_succ]
          exact ih n
      | zero =>
          rw [decode]
          split
          · next _ n hsome =>
              split at hsome
              · obtain ⟨hshort, hend⟩ := resolve_le hsome
                have hrest := ih n
                rw [List.length_append, List.length_cons]
                omega
              · cases hsome
          · exact Nat.succ_le_succ (ih 0)

/-- A text is decoded to itself exactly if it holds no reference. -/
theorem decode_eq_self_iff : refs.decode 0 text = text ↔ refs.NoReference text := by
  induction text with
  | nil => exact ⟨fun _ before rest h => absurd h (by simp), fun _ => rfl⟩
  | cons c rest ih =>
      have hrest : refs.NoReference (c :: rest) ↔
          (c = '&' → refs.resolve rest = none) ∧ refs.NoReference rest := by
        constructor
        · intro h
          exact ⟨fun hc => h [] rest (by rw [hc]; rfl),
            fun before after hsplit => h (c :: before) after (by rw [hsplit]; rfl)⟩
        · rintro ⟨hhead, htail⟩ before after hsplit
          cases before with
          | nil =>
              obtain ⟨rfl, rfl⟩ := List.cons.inj hsplit
              exact hhead rfl
          | cons d before => exact htail before after (List.cons.inj hsplit).2
      rw [hrest, ← ih, decode]
      split
      · next resolved n hsome =>
          split at hsome
          · next hc =>
              obtain ⟨hshort, hend⟩ := resolve_le hsome
              have hlength := length_decode_le refs n rest
              constructor
              · intro heq
                have hcount := congrArg List.length heq
                rw [List.length_append, List.length_cons] at hcount
                omega
              · rintro ⟨hnone, -⟩
                rw [hnone hc] at hsome
                cases hsome
          · cases hsome
      · next hnone =>
          constructor
          · intro heq
            refine ⟨fun hc => ?_, (List.cons.inj heq).2⟩
            rwa [if_pos hc] at hnone
          · rintro ⟨-, heq⟩
            rw [heq]

end References

/-! ## Faithful pages -/

/-- The characters have the tags of the page, and its texts once their references are
resolved. -/
def Faithful (refs : References) (html : List Char) (p : Page) : Prop :=
  ∃ q, scan [] none html = some q ∧ q.tags = p.tags ∧ q.texts.map (refs.decode 0) = p.texts

/-- A text that begins no tag and holds no reference. -/
structure Inert (refs : References) (text : List Char) : Prop where
  quiet : openers text = 0
  plain : refs.NoReference text

/-- A text without brackets and ampersands is inert. -/
theorem inert_of_plain {refs : References} {text : List Char}
    (h : text.all (fun c => c != '<' && c != '&') = true) : Inert refs text := by
  constructor
  · induction text with
    | nil => rfl
    | cons c text ih =>
        obtain ⟨hc, htext⟩ := Bool.and_eq_true_iff.mp (List.all_cons ▸ h)
        have hbracket : (c == '<') = false := by simpa using (Bool.and_eq_true_iff.mp hc).1
        rw [openers, ih htext, beginsTag, hbracket]
        rfl
  · intro before rest hsplit
    have hall := List.all_eq_true.mp h '&' (by simp [hsplit])
    exact absurd hall (by decide)

/-- A page that is written without any escapes is faithful exactly if its texts need none. -/
theorem faithful_iff {refs : References} {p : Page} (h : ∀ tag ∈ p.tags, IsTag tag) :
    Faithful refs p.flatten p ↔ ∀ text ∈ p.texts, Inert refs text := by
  constructor
  · rintro ⟨q, hscan, htags, hdecoded⟩
    have hquiet := (scan_flatten_iff h).mp ⟨q, hscan, htags⟩
    obtain rfl := Option.some.inj ((scan_flatten h (hquiet _ (List.mem_append_right _
      List.mem_cons_self)) hquiet).symm.trans hscan)
    intro text htext
    have hself : refs.decode 0 text = text :=
      List.map_eq_map_iff.mp (hdecoded.trans (List.map_id p.texts).symm) text htext
    exact ⟨hquiet text htext, References.decode_eq_self_iff.mp hself⟩
  · intro hinert
    have hquiet := fun text ht => (hinert text ht).quiet
    refine ⟨p, scan_flatten h (hquiet _ (List.mem_append_right _ List.mem_cons_self)) hquiet, rfl, ?_⟩
    exact (List.map_congr_left fun text ht =>
      References.decode_eq_self_iff.mpr (hinert text ht).plain).trans (List.map_id _)

end Markup

end CfdiVault
