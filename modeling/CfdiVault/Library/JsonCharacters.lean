import CfdiVault.Library.JsonRoundTrip

/-!
# The characters of a written text

The text of a document has no carriage return, and it has an encoding when the texts in the document
have one.
-/

namespace CfdiVault

namespace JsonReader

open JsonWriter

/-- The surrogates in the texts of a value, keys included, have a property. -/
def SurrogatesAre (p : CodePoint → Prop) : Document → Prop
  | .str text => ∀ n, CodePoint.surrogate n ∈ text → p (.surrogate n)
  | .obj members => ∀ member ∈ members, ∀ n, CodePoint.surrogate n ∈ member.1 → p (.surrogate n)
  | _ => True

variable {host : JsonHost} {text : CodeText} {p : CodePoint → Prop}

theorem ne_of_all {chars : List Char} (h : chars.all (· != '\r') = true) : ∀ c ∈ chars, c ≠ '\r' :=
  fun c hc => bne_iff_ne.mp (List.all_eq_true.mp h c hc)

theorem hexChar_ne {n : Nat} (h : n < 16) : hexChar n ≠ '\r' := by
  have hall : ∀ m < 16, hexChar m ≠ '\r' := by decide
  exact hall n h

/-- No carriage return stands in an escape. -/
theorem ne_of_mem_escapeChar {c d : Char} (hd : d ∈ escapeChar c) : d ≠ '\r' := by
  have hpair : ∀ e, e ≠ '\r' → d ∈ ['\\', e] → d ≠ '\r' := by
    intro e he hmem
    rcases List.mem_pair.mp hmem with rfl | rfl
    · decide
    · exact he
  unfold escapeChar at hd
  split_ifs at hd with _ _ _ hreturn
  · exact hpair _ (by decide) hd
  · exact hpair _ (by decide) hd
  · exact hpair _ (by decide) hd
  · exact hpair _ (by decide) hd
  · exact hpair _ (by decide) hd
  · exact hpair _ (by decide) hd
  · exact hpair _ (by decide) hd
  · rcases List.mem_cons.mp hd with rfl | hd
    · decide
    · rcases List.mem_cons.mp hd with rfl | hd
      · decide
      · obtain ⟨i, -, rfl⟩ := List.mem_map.mp hd
        exact hexChar_ne (Nat.mod_lt _ (by decide))
  · rw [List.mem_singleton.mp hd]
    exact hreturn

theorem forall_mem_quote (hscalar : ∀ c, c ≠ '\r' → p (.scalar c)) :
    (∀ point ∈ quote text, p point) ↔ ∀ n, CodePoint.surrogate n ∈ text → p (.surrogate n) := by
  have hquote : p (.scalar '"') := hscalar _ (by decide)
  rw [quote, List.forall_mem_cons, List.forall_mem_append, List.forall_mem_singleton]
  constructor
  · rintro ⟨-, h, -⟩ n hn
    exact h _ (List.mem_flatMap.mpr ⟨_, hn, List.mem_singleton.mpr rfl⟩)
  · refine fun h => ⟨hquote, fun point hpoint => ?_, hquote⟩
    obtain ⟨original, hmem, hescape⟩ := List.mem_flatMap.mp hpoint
    cases original with
    | scalar c =>
        obtain ⟨d, hd, rfl⟩ := List.mem_map.mp hescape
        exact hscalar d (ne_of_mem_escapeChar hd)
    | surrogate n => exact List.mem_singleton.mp hescape ▸ h n hmem

/-- No carriage return leads into a number or further into it. -/
theorem ne_of_advance {c : Char} {phase next : Phase} (h : advance phase c = some next) : c ≠ '\r' := by
  rintro rfl
  cases phase <;> cases h

theorem ne_of_phases {chars : List Char} {phase last : Phase} (h : phases phase chars = some last) :
    ∀ c ∈ chars, c ≠ '\r' := by
  induction chars generalizing phase with
  | nil => exact List.forall_mem_nil _
  | cons c rest ih =>
      obtain ⟨next, hnext, hrest⟩ := Option.bind_eq_some_iff.mp h
      exact List.forall_mem_cons.mpr ⟨ne_of_advance hnext, ih hrest⟩

theorem ne_of_isFloat {chars : List Char} (h : IsFloat chars) : ∀ c ∈ chars, c ≠ '\r' := by
  obtain ⟨c, rest, phase, last, rfl, hfirst, hphases, -⟩ := h
  refine List.forall_mem_cons.mpr ⟨?_, ne_of_phases hphases⟩
  rintro rfl
  cases hfirst

theorem ne_of_mem_intText {n : Int} {c : Char} (h : c ∈ intText n) : c ≠ '\r' := by
  have hdigits : ∀ c ∈ Nat.toDigits 10 n.natAbs, c ≠ '\r' := by
    rintro c hc rfl
    exact absurd (Nat.isDigit_of_mem_toDigits (by decide) (by decide) hc) (by decide)
  unfold intText at h
  split_ifs at h
  · rcases List.mem_cons.mp h with rfl | hc
    · decide
    · exact hdigits c hc
  · exact hdigits c h

theorem forall_mem_scalars (hscalar : ∀ c, c ≠ '\r' → p (.scalar c)) {chars : List Char}
    (h : ∀ c ∈ chars, c ≠ '\r') : ∀ point ∈ chars.map CodePoint.scalar, p point :=
  List.forall_mem_map.mpr fun c hc => hscalar c (h c hc)

theorem forall_mem_newline (hscalar : ∀ c, c ≠ '\r' → p (.scalar c)) {level : Nat} :
    ∀ point ∈ newline level, p point := by
  refine List.forall_mem_cons.mpr ⟨hscalar _ (by decide), fun point hpoint => ?_⟩
  rw [List.eq_of_mem_replicate hpoint]
  exact hscalar _ (by decide)

theorem forall_mem_renderItems (hscalar : ∀ c, c ≠ '\r' → p (.scalar c)) {level : Nat} {items : List Document} :
    (∀ point ∈ renderItems level items, p point) ↔ ∀ item ∈ items, ∀ point ∈ render level item, p point := by
  induction items with
  | nil => simp [renderItems]
  | cons item rest ih =>
      have hcomma : p (.scalar ',') := hscalar _ (by decide)
      have hnewline : ∀ point ∈ newline level, p point := forall_mem_newline hscalar
      rw [renderItems, List.forall_mem_cons, List.forall_mem_append, List.forall_mem_append, ih,
        List.forall_mem_cons]
      exact ⟨fun h => ⟨h.2.1.2, h.2.2⟩, fun h => ⟨hcomma, ⟨hnewline, h.1⟩, h.2⟩⟩

theorem forall_mem_renderMember (hscalar : ∀ c, c ≠ '\r' → p (.scalar c)) {level : Nat}
    {member : CodeText × Document} :
    (∀ point ∈ renderMember level member, p point) ↔
      (∀ n, CodePoint.surrogate n ∈ member.1 → p (.surrogate n)) ∧ ∀ point ∈ render level member.2, p point := by
  obtain ⟨key, value⟩ := member
  have hcolon : ∀ point ∈ CodeText.of ": ", p point := forall_mem_scalars hscalar (ne_of_all rfl)
  rw [renderMember, List.forall_mem_append, List.forall_mem_append, forall_mem_quote hscalar]
  exact ⟨fun h => ⟨h.1.1, h.2⟩, fun h => ⟨⟨h.1, hcolon⟩, h.2⟩⟩

theorem forall_mem_renderMembers (hscalar : ∀ c, c ≠ '\r' → p (.scalar c)) {level : Nat} {members : Members} :
    (∀ point ∈ renderMembers level members, p point) ↔ ∀ member ∈ members,
      (∀ n, CodePoint.surrogate n ∈ member.1 → p (.surrogate n)) ∧ ∀ point ∈ render level member.2, p point := by
  induction members with
  | nil => simp [renderMembers]
  | cons member rest ih =>
      have hcomma : p (.scalar ',') := hscalar _ (by decide)
      have hnewline : ∀ point ∈ newline level, p point := forall_mem_newline hscalar
      rw [renderMembers, List.forall_mem_cons, List.forall_mem_append, List.forall_mem_append, ih,
        List.forall_mem_cons, forall_mem_renderMember hscalar]
      exact ⟨fun h => ⟨h.2.1.2, h.2.2⟩, fun h => ⟨hcomma, ⟨hnewline, h.1⟩, h.2⟩⟩

/-- The code points of a written text are characters other than the carriage return, and the surrogates
of the texts in the value. -/
theorem forall_mem_render (hscalar : ∀ c, c ≠ '\r' → p (.scalar c)) {value : Document} {level : Nat}
    (h : value.Everywhere (Readable host)) :
    (∀ point ∈ render level value, p point) ↔ value.Everywhere (SurrogatesAre p) := by
  have hliteral : ∀ {value : Document} {chars : List Char}, value.parts = [value] → SurrogatesAre p value →
      (∀ c ∈ chars, c ≠ '\r') →
      ((∀ point ∈ chars.map CodePoint.scalar, p point) ↔ value.Everywhere (SurrogatesAre p)) :=
    fun hparts hvalue hchars => iff_of_true (forall_mem_scalars hscalar hchars) (Document.everywhere_leaf hparts hvalue)
  induction value using Document.induct generalizing level with
  | null => exact hliteral rfl trivial (ne_of_all rfl)
  | bool b => cases b <;> exact hliteral rfl trivial (ne_of_all rfl)
  | int n => exact hliteral rfl trivial fun c => ne_of_mem_intText
  | float text => exact hliteral rfl trivial (ne_of_isFloat h.self.1)
  | str text =>
      rw [render, forall_mem_quote hscalar]
      exact ⟨fun htext => Document.everywhere_leaf rfl htext, fun htext => htext.self⟩
  | arr items ih =>
      obtain ⟨-, hitems⟩ := Document.everywhere_arr.mp h
      have hparts : (∀ item ∈ items, ∀ point ∈ render (level + 1) item, p point) ↔
          ∀ item ∈ items, item.Everywhere (SurrogatesAre p) :=
        forall₂_congr fun item hitem => ih item hitem (hitems item hitem)
      rw [Document.everywhere_arr, ← hparts]
      cases items with
      | nil => exact iff_of_true (forall_mem_scalars hscalar (ne_of_all rfl)) ⟨trivial, List.forall_mem_nil _⟩
      | cons item rest =>
          have hopen : p (.scalar '[') := hscalar _ (by decide)
          have hclose : p (.scalar ']') := hscalar _ (by decide)
          have hnewline : ∀ level, ∀ point ∈ newline level, p point := fun _ => forall_mem_newline hscalar
          rw [render]
          simp only [List.forall_mem_cons, List.forall_mem_append, forall_mem_renderItems hscalar]
          exact ⟨fun h => ⟨trivial, h.2.1.1.1.2, h.2.1.1.2⟩,
            fun h => ⟨hopen, ⟨⟨⟨hnewline _, h.2.1⟩, h.2.2⟩, hnewline _⟩, hclose, List.forall_mem_nil _⟩⟩
  | obj members ih =>
      obtain ⟨-, hmembers⟩ := Document.everywhere_obj.mp h
      have hparts : (∀ member ∈ members, ∀ point ∈ render (level + 1) member.2, p point) ↔
          ∀ member ∈ members, member.2.Everywhere (SurrogatesAre p) :=
        forall₂_congr fun member hmember => ih member hmember (hmembers member hmember)
      rw [Document.everywhere_obj, ← hparts, SurrogatesAre, ← forall₂_and]
      cases members with
      | nil => exact iff_of_true (forall_mem_scalars hscalar (ne_of_all rfl)) (List.forall_mem_nil _)
      | cons member rest =>
          have hopen : p (.scalar '\x7b') := hscalar _ (by decide)
          have hclose : p (.scalar '\x7d') := hscalar _ (by decide)
          have hnewline : ∀ level, ∀ point ∈ newline level, p point := fun _ => forall_mem_newline hscalar
          rw [render]
          simp only [List.forall_mem_cons, List.forall_mem_append, forall_mem_renderMembers hscalar,
            forall_mem_renderMember hscalar]
          exact ⟨fun h => ⟨h.2.1.1.1.2, h.2.1.1.2⟩,
            fun h => ⟨hopen, ⟨⟨⟨hnewline _, h.1⟩, h.2⟩, hnewline _⟩, hclose, List.forall_mem_nil _⟩⟩

/-- A written text has an encoding when the texts of the value have. -/
theorem encodable_render {value : Document} {level : Nat} (h : value.Everywhere (Readable host)) :
    (render level value).Encodable ↔ value.Everywhere Document.EncodableTexts := by
  have hpoints : (render level value).Encodable ↔ ∀ point ∈ render level value, ∀ n, point ≠ .surrogate n :=
    ⟨fun h point hpoint n hn => h n (hn ▸ hpoint), fun h n hn => h _ hn n rfl⟩
  have htexts : ∀ text : CodeText, text.Encodable ↔
      ∀ n, CodePoint.surrogate n ∈ text → ∀ m, CodePoint.surrogate n ≠ .surrogate m :=
    fun text => ⟨fun h n hn => absurd hn (h n), fun h n hn => h n hn n rfl⟩
  rw [hpoints, forall_mem_render (fun c _ n => CodePoint.noConfusion) h]
  refine forall₂_congr fun part _ => ?_
  cases part with
  | str text => exact (htexts text).symm
  | obj members => exact forall₂_congr fun member _ => (htexts member.1).symm
  | _ => exact Iff.rfl

/-- A written text has no carriage return. -/
theorem not_mem_render {value : Document} {level : Nat} (h : value.Everywhere (Readable host)) :
    CodePoint.scalar '\r' ∉ render level value := by
  have hpoints : ∀ point ∈ render level value, point ≠ .scalar '\r' := by
    refine (forall_mem_render (fun c hc heq => hc (CodePoint.scalar.inj heq)) h).mpr fun part _ => ?_
    cases part with
    | str text => exact fun n _ => CodePoint.noConfusion
    | obj members => exact fun member _ n _ => CodePoint.noConfusion
    | _ => exact trivial
  exact fun hmem => hpoints _ hmem rfl

end JsonReader

end CfdiVault
