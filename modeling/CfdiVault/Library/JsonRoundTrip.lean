import CfdiVault.Library.JsonReader
import Mathlib.Tactic.IntervalCases

/-!
# What is written is read back

`json.loads` reads the text that the indented writer gives to a document, with a new line behind it,
and finds the document (`loads_dumps`).  The reader is followed through the text value by value: behind
the text of a value no comma and no new line tells it from the reader that has the value complete.
-/

namespace CfdiVault

namespace Document

variable {motive : Document → Prop}

/-- Induction over what stands in a document. -/
theorem induct (null : motive .null) (bool : ∀ b, motive (.bool b)) (int : ∀ n, motive (.int n))
    (float : ∀ text, motive (.float text)) (str : ∀ text, motive (.str text))
    (arr : ∀ items, (∀ item ∈ items, motive item) → motive (.arr items))
    (obj : ∀ members, (∀ member ∈ members, motive member.2) → motive (.obj members)) :
    ∀ value, motive value
  | .null => null
  | .bool b => bool b
  | .int n => int n
  | .float text => float text
  | .str text => str text
  | .arr items => arr items fun item hitem =>
      have : sizeOf item < sizeOf items := List.sizeOf_lt_of_mem hitem
      induct null bool int float str arr obj item
  | .obj members => obj members fun member hmember =>
      have : sizeOf member.2 < sizeOf members := by
        have := List.sizeOf_lt_of_mem hmember
        obtain ⟨key, value⟩ := member
        simp only [Prod.mk.sizeOf_spec] at this
        change sizeOf value < sizeOf members
        omega
      induct null bool int float str arr obj member.2
termination_by value => sizeOf value

end Document

namespace JsonReader

open JsonWriter

variable {host : JsonHost} {stack : List Frame} {r r' : Reader} {text : CodeText} {first isKey : Bool}

/-! ## Strings -/

theorem hexDigit?_hexChar {n : Nat} (h : n < 16) : hexDigit? (hexChar n) = some n := by
  have hall : ∀ m < 16, hexDigit? (hexChar m) = some m := by decide
  exact hall n h

theorem step_unit {read : CodeText} {high : Option Nat} {missing unit n : Nat} (hn : n < 16) (h : missing ≠ 1) :
    step host ⟨stack, .unit isKey read high missing unit⟩ (.scalar (hexChar n)) =
      .ok ⟨stack, .unit isKey read high (missing - 1) (unit * 16 + n)⟩ := by
  simp only [step, stepChar, hexDigit?_hexChar hn, if_neg h]

theorem step_last_unit {read : CodeText} {high : Option Nat} {unit n : Nat} (hn : n < 16) :
    step host ⟨stack, .unit isKey read high 1 unit⟩ (.scalar (hexChar n)) =
      .ok ⟨stack, pushUnit isKey read high (unit * 16 + n)⟩ := by
  simp only [step, stepChar, hexDigit?_hexChar hn, if_true]

theorem pushUnit_of_lt {read : CodeText} {high : Option Nat} {unit : Nat} (h : unit < 0xD800) :
    pushUnit isKey read high unit = .string isKey (read ++ [.scalar (Char.ofNat unit)]) none := by
  have hlow : isLow unit = false := by simp [isLow]; omega
  have hhigh : isHigh unit = false := by simp [isHigh]; omega
  unfold pushUnit
  rw [hlow, hhigh]
  rfl

/-- An escape with four digits. -/
theorem run_escapeUnit {read : CodeText} {high : Option Nat} {unit : Nat} (h : unit < 0xD800) :
    run host ⟨stack, .string isKey read high⟩ ((Json.escapeUnit unit).map .scalar) =
      .ok ⟨stack, .string isKey (read ++ [.scalar (Char.ofNat unit)]) none⟩ := by
  have hdigit : ∀ k, k % 16 < 16 := fun k => Nat.mod_lt k (by decide)
  have hunit : ((((0 * 16 + unit / 16 ^ 3 % 16) * 16 + unit / 16 ^ 2 % 16) * 16 + unit / 16 ^ 1 % 16) * 16 +
      unit / 16 ^ 0 % 16) = unit := by omega
  change run host ⟨stack, .string isKey read high⟩ [.scalar '\\', .scalar 'u',
    .scalar (hexChar (unit / 16 ^ 3 % 16)), .scalar (hexChar (unit / 16 ^ 2 % 16)),
    .scalar (hexChar (unit / 16 ^ 1 % 16)), .scalar (hexChar (unit / 16 ^ 0 % 16))] = _
  have hescape : step host ⟨stack, .string isKey read high⟩ (.scalar '\\') = .ok ⟨stack, .escape isKey read high⟩ := rfl
  have hstart : step host ⟨stack, .escape isKey read high⟩ (.scalar 'u') = .ok ⟨stack, .unit isKey read high 4 0⟩ := rfl
  rw [run_cons_of_ok hescape, run_cons_of_ok hstart, run_cons_of_ok (step_unit (hdigit _) (by decide)), run_cons_of_ok (step_unit (hdigit _) (by decide)),
    run_cons_of_ok (step_unit (hdigit _) (by decide)), run_cons_of_ok (step_last_unit (hdigit _)), hunit,
    pushUnit_of_lt h, run_nil]

/-- The escape of a code point is read as the code point. -/
theorem run_escapePoint {read : CodeText} {high : Option Nat} {point : CodePoint} :
    run host ⟨stack, .string isKey read high⟩ (escapePoint point) =
      .ok ⟨stack, .string isKey (read ++ [point]) none⟩ := by
  cases point with
  | surrogate n => rfl
  | scalar c =>
      change run host _ ((escapeChar c).map .scalar) = _
      unfold escapeChar
      split_ifs with hquote hbackslash hnewline hreturn htab hback hform hcontrol
      all_goals try (subst_vars; rfl)
      · obtain rfl : c = Char.ofNat 8 := Char.toNat_inj.mp hback
        rfl
      · obtain rfl : c = Char.ofNat 12 := Char.toNat_inj.mp hform
        rfl
      · rw [run_escapeUnit (by omega), Char.ofNat_toNat]
      · have hstep : step host ⟨stack, .string isKey read high⟩ (.scalar c) =
            .ok ⟨stack, .string isKey (read ++ [.scalar c]) none⟩ := by
          simp only [step, stepChar, if_neg hquote, if_neg hbackslash, if_neg hcontrol]
        exact run_cons_of_ok hstep

theorem run_escaped {read : CodeText} :
    run host ⟨stack, .string isKey read none⟩ (text.flatMap escapePoint) =
      .ok ⟨stack, .string isKey (read ++ text) none⟩ := by
  induction text generalizing read with
  | nil => rw [List.flatMap_nil, run_nil, List.append_nil]
  | cons point rest ih => rw [List.flatMap_cons, run_append_of_ok run_escapePoint, ih, List.append_assoc]; rfl

/-- A string literal where a value is expected. -/
theorem run_quote : run host ⟨stack, .value first⟩ (quote text) = .ok (complete (.str text) stack) := by
  have hstart : step host ⟨stack, .value first⟩ (.scalar '"') = .ok ⟨stack, .string false [] none⟩ := rfl
  rw [quote, run_cons_of_ok hstart, run_append_of_ok run_escaped]
  rfl

/-- A string literal where a key is expected. -/
theorem run_quote_key : run host ⟨stack, .key first⟩ (quote text) = .ok ⟨stack, .colon text⟩ := by
  have hstart : step host ⟨stack, .key first⟩ (.scalar '"') = .ok ⟨stack, .string true [] none⟩ := rfl
  rw [quote, run_cons_of_ok hstart, run_append_of_ok run_escaped]
  rfl

/-! ## Numbers -/

/-- The phase that a text brings a number to. -/
def phases (phase : Phase) (text : List Char) : Option Phase := text.foldlM advance phase

/-- The text is the literal of a float. -/
def IsFloat (text : List Char) : Prop :=
  ∃ c rest phase last, text = c :: rest ∧ firstPhase c = some phase ∧ phases phase rest = some last ∧
    (last = .fraction ∨ last = .power)

theorem phases_append {phase : Phase} {chars rest : List Char} :
    phases phase (chars ++ rest) = (phases phase chars).bind fun last => phases last rest := List.foldlM_append

theorem run_number {phase last : Phase} {read chars : List Char} (h : phases phase chars = some last) :
    run host ⟨stack, .number phase read⟩ (chars.map .scalar) = .ok ⟨stack, .number last (read ++ chars)⟩ := by
  induction chars generalizing phase read with
  | nil =>
      cases h
      rw [List.append_nil]
      rfl
  | cons c rest ih =>
      obtain ⟨next, hnext, hrest⟩ := Option.bind_eq_some_iff.mp h
      have hstep : step host ⟨stack, .number phase read⟩ (.scalar c) = .ok ⟨stack, .number next (read ++ [c])⟩ := by
        simp only [step, stepChar, stepNumber, hnext]
      rw [List.map_cons, run_cons_of_ok hstep, ih hrest, List.append_assoc]
      rfl

theorem digit_cases {c : Char} (h : isDigit c = true) :
    c ∈ ['0', '1', '2', '3', '4', '5', '6', '7', '8', '9'] := by
  have hbounds : 48 ≤ c.toNat ∧ c.toNat ≤ 57 := by
    simpa [isDigit, Char.le_def, UInt32.le_iff_toNat_le] using h
  obtain ⟨hlow, hhigh⟩ := hbounds
  have hc : c = Char.ofNat c.toNat := (Char.ofNat_toNat c).symm
  rw [hc]
  interval_cases c.toNat <;> decide

/-- The character that a number begins with leads into the number. -/
theorem step_value_of_firstPhase {c : Char} {phase : Phase} (h : firstPhase c = some phase) :
    step host ⟨stack, .value first⟩ (.scalar c) = .ok ⟨stack, .number phase [c]⟩ := by
  have hc : c ∈ ['-', '0', '1', '2', '3', '4', '5', '6', '7', '8', '9'] := by
    by_cases hminus : c = '-'
    · exact hminus ▸ List.mem_cons_self
    · by_cases hzero : c = '0'
      · exact hzero ▸ List.mem_cons_of_mem _ List.mem_cons_self
      · rw [firstPhase, if_neg hminus, if_neg hzero] at h
        by_cases hdigit : isDigit c = true
        · exact List.mem_cons_of_mem _ (digit_cases hdigit)
        · rw [if_neg hdigit] at h
          cases h
  simp only [List.mem_cons, List.not_mem_nil, or_false] at hc
  rcases hc with rfl | rfl | rfl | rfl | rfl | rfl | rfl | rfl | rfl | rfl | rfl <;> cases h <;> rfl

/-- No comma and no new line tells two readers apart. -/
def SameBehind (host : JsonHost) (r r' : Reader) : Prop :=
  ∀ c, c = ',' ∨ c = '\n' → step host r (.scalar c) = step host r' (.scalar c)

theorem SameBehind.refl : SameBehind host r r := fun _ _ => rfl

/-- What comes next behind a value is the same whether the value ends the text or stands in another one. -/
theorem step_complete {value : Document} {c : Char} :
    step host (complete value stack) (.scalar c) = stepAfter (complete value stack) c := by
  cases stack with
  | nil => rfl
  | cons frame rest => cases frame <;> rfl

/-- A number that ends is complete behind a comma or a new line. -/
theorem sameBehind_number {phase : Phase} {chars : List Char} {value : Document}
    (h : finishNumber host stack phase chars = .ok value) :
    SameBehind host ⟨stack, .number phase chars⟩ (complete value stack) := by
  intro c hc
  have hadvance : advance phase c = none := by
    rcases hc with rfl | rfl <;> cases phase <;> rfl
  have hletter : ¬ (phase = .minus ∧ c = 'I') := by
    rcases hc with rfl | rfl <;> exact fun h => absurd h.2 (by decide)
  rw [step_complete]
  simp only [step, stepChar, stepNumber, hadvance, if_neg hletter, h]
  rfl

/-- The text of a number where a value is expected. -/
theorem run_number_value {c : Char} {chars : List Char} {phase last : Phase} {value : Document}
    (hfirst : firstPhase c = some phase) (hphases : phases phase chars = some last)
    (hvalue : finishNumber host stack last (c :: chars) = .ok value) :
    ∃ r, run host ⟨stack, .value first⟩ ((c :: chars).map .scalar) = .ok r ∧
      SameBehind host r (complete value stack) := by
  refine ⟨_, ?_, sameBehind_number hvalue⟩
  rw [List.map_cons, run_cons_of_ok (step_value_of_firstPhase hfirst), run_number hphases]
  rfl

/-- The digits of a positive number. -/
theorem toDigits_phases (n : Nat) (h : 0 < n) : ∃ d rest, Nat.toDigits 10 n = d :: rest ∧ d ≠ '0' ∧
    isDigit d = true ∧ phases .whole rest = some .whole := by
  induction n using Nat.strongRecOn with
  | ind n ih =>
      by_cases hlt : n < 10
      · refine ⟨n.digitChar, [], Nat.toDigits_of_lt_base hlt, ?_, ?_, rfl⟩ <;> interval_cases n <;> decide
      · obtain ⟨d, rest, hdigits, hd, hdigit, hrest⟩ := ih (n / 10) (by omega) (by omega)
        have hlast : isDigit (n % 10).digitChar = true := by
          have : n % 10 < 10 := Nat.mod_lt n (by decide)
          interval_cases n % 10 <;> decide
        refine ⟨d, rest ++ [(n % 10).digitChar], ?_, hd, hdigit, ?_⟩
        · rw [Nat.toDigits_of_base_le (by decide) (by omega), hdigits, List.cons_append]
        · rw [phases_append, hrest, Option.bind_some, phases, List.foldlM_cons, advance, if_pos hlast]
          rfl

/-- The text of an integer where a value is expected. -/
theorem run_int {n : Int} (h : (Nat.toDigits 10 n.natAbs).length ≤ host.maxDigits) :
    ∃ r, run host ⟨stack, .value first⟩ ((intText n).map .scalar) = .ok r ∧
      SameBehind host r (complete (.int n) stack) := by
  by_cases hzero : n.natAbs = 0
  · obtain rfl : n = 0 := Int.natAbs_eq_zero.mp hzero
    have hvalue : finishNumber host stack .zero ['0'] = .ok (.int 0) := if_pos h
    have hfirst : firstPhase '0' = some .zero := rfl
    exact run_number_value hfirst rfl hvalue
  · obtain ⟨d, rest, hdigits, hd, hdigit, hrest⟩ := toDigits_phases n.natAbs (by omega)
    have hminus : d ≠ '-' := by
      rintro rfl
      exact absurd hdigit (by decide)
    have hnat : Nat.ofDigitChars 10 (d :: rest) 0 = n.natAbs := by rw [← hdigits, Nat.ofDigitChars_ten_toDigits]
    rw [hdigits] at h
    unfold intText
    split_ifs with hneg
    · have hvalue : finishNumber host stack .whole ('-' :: d :: rest) = .ok (.int n) := by
        have hint : intOf ('-' :: d :: rest) = n := by
          rw [intOf, hnat]
          omega
        rw [finishNumber, countDigits, if_pos h, hint]
      have hphases : phases .minus (d :: rest) = some .whole := by
        rw [phases, List.foldlM_cons, advance, if_neg hd, if_pos hdigit]
        exact hrest
      rw [hdigits]
      exact run_number_value rfl hphases hvalue
    · have hvalue : finishNumber host stack .whole (d :: rest) = .ok (.int n) := by
        have hint : intOf (d :: rest) = n := by
          unfold intOf
          split
          · simp_all
          · rw [hnat]
            omega
        have hcount : countDigits (d :: rest) = (d :: rest).length := by
          unfold countDigits
          split
          · simp_all
          · rfl
        rw [finishNumber, hcount, if_pos h, hint]
      have hfirst : firstPhase d = some .whole := by
        rw [firstPhase, if_neg hminus, if_neg hd, if_pos hdigit]
      rw [hdigits]
      exact run_number_value hfirst hrest hvalue

/-! ## Values -/

/-- What can be read back of a value: an integer that is not too long, a float whose text is its
literal, and a dictionary. -/
def Readable (host : JsonHost) : Document → Prop
  | .int n => (Nat.toDigits 10 n.natAbs).length ≤ host.maxDigits
  | .float text => IsFloat text ∧ host.floatText text = text
  | .obj members => (members.map Prod.fst).Nodup
  | _ => True

/-- The text of a value is read as the value, on every level and in every place. -/
def ReadBack (host : JsonHost) (value : Document) : Prop :=
  ∀ level first stack, ∃ r, run host ⟨stack, .value first⟩ (render level value) = .ok r ∧
    SameBehind host r (complete value stack)

theorem run_blanks {n : Nat} (h : step host r (.scalar ' ') = .ok r) :
    run host r (List.replicate n (.scalar ' ')) = .ok r := by
  induction n with
  | zero => rfl
  | succ n ih => rw [List.replicate_succ, run_cons_of_ok h, ih]

theorem run_newline {level : Nat} (h : step host r (.scalar ' ') = .ok r)
    (h' : step host r (.scalar '\n') = .ok r) : run host r (newline level) = .ok r := by
  rw [newline, run_cons_of_ok h', run_blanks h]

theorem run_newline_value {level : Nat} : run host ⟨stack, .value first⟩ (newline level) = .ok ⟨stack, .value first⟩ :=
  run_newline rfl rfl

theorem run_newline_key {level : Nat} : run host ⟨stack, .key first⟩ (newline level) = .ok ⟨stack, .key first⟩ :=
  run_newline rfl rfl

theorem run_newline_after {level : Nat} : run host ⟨stack, .after⟩ (newline level) = .ok ⟨stack, .after⟩ :=
  run_newline rfl rfl

/-- A text that begins with a comma or a new line. -/
def Delimited (text : CodeText) : Prop := ∃ c rest, (c = ',' ∨ c = '\n') ∧ text = .scalar c :: rest

theorem delimited_renderItems {level level' : Nat} {items : List Document} :
    Delimited (renderItems level items ++ (newline level' ++ text)) := by
  cases items with
  | nil => exact ⟨'\n', _, .inr rfl, rfl⟩
  | cons item rest => exact ⟨',', _, .inl rfl, rfl⟩

theorem delimited_renderMembers {level level' : Nat} {members : Members} :
    Delimited (renderMembers level members ++ (newline level' ++ text)) := by
  cases members with
  | nil => exact ⟨'\n', _, .inr rfl, rfl⟩
  | cons member rest => exact ⟨',', _, .inl rfl, rfl⟩

/-- A value and what stands behind it. -/
theorem ReadBack.run_append {value : Document} {level : Nat} (h : ReadBack host value) (htext : Delimited text) :
    run host ⟨stack, .value first⟩ (render level value ++ text) = run host (complete value stack) text := by
  obtain ⟨c, rest, hc, rfl⟩ := htext
  obtain ⟨r, hr, hsame⟩ := h level first stack
  rw [run_append_of_ok hr, run_cons, run_cons, hsame c hc]

/-- The rest of an array, from behind an item on. -/
theorem run_renderItems {level level' : Nat} {read items : List Document} (h : ∀ item ∈ items, ReadBack host item) :
    run host ⟨.arr read :: stack, .after⟩ (renderItems level items ++ (newline level' ++ [.scalar ']'])) =
      .ok (complete (.arr (read ++ items)) stack) := by
  induction items generalizing read with
  | nil =>
      rw [renderItems, List.nil_append, run_append_of_ok run_newline_after, List.append_nil]
      rfl
  | cons item rest ih =>
      obtain ⟨hitem, hrest⟩ := List.forall_mem_cons.mp h
      have hcomma : step host ⟨.arr read :: stack, .after⟩ (.scalar ',') = .ok ⟨.arr read :: stack, .value false⟩ := rfl
      rw [renderItems, List.cons_append, run_cons_of_ok hcomma, List.append_assoc, List.append_assoc,
        run_append_of_ok run_newline_value, hitem.run_append delimited_renderItems, complete, ih hrest,
        List.append_assoc, List.cons_append, List.nil_append]

/-- A key and its value, under a key that is new. -/
theorem run_renderMember {level : Nat} {read : Members} {member : CodeText × Document}
    (h : ReadBack host member.2) (hnew : member.1 ∉ read.map Prod.fst) (htext : Delimited text) :
    run host ⟨.obj read :: stack, .key first⟩ (renderMember level member ++ text) =
      run host ⟨.obj (read ++ [member]) :: stack, .after⟩ text := by
  obtain ⟨key, value⟩ := member
  have hcolon : run host ⟨.obj read :: stack, .colon key⟩ (CodeText.of ": ") =
      .ok ⟨.member read key :: stack, .value false⟩ := rfl
  rw [renderMember, List.append_assoc, List.append_assoc, run_append_of_ok run_quote_key, run_append_of_ok hcolon,
    h.run_append htext, complete, Dictionary.assign, if_neg hnew]

/-- The rest of an object, from behind a member on. -/
theorem run_renderMembers {level level' : Nat} {read members : Members}
    (h : ∀ member ∈ members, ReadBack host member.2) (hkeys : ((read ++ members).map Prod.fst).Nodup) :
    run host ⟨.obj read :: stack, .after⟩ (renderMembers level members ++ (newline level' ++ [.scalar '\x7d'])) =
      .ok (complete (.obj (read ++ members)) stack) := by
  induction members generalizing read with
  | nil =>
      rw [renderMembers, List.nil_append, run_append_of_ok run_newline_after, List.append_nil]
      rfl
  | cons member rest ih =>
      obtain ⟨hmember, hrest⟩ := List.forall_mem_cons.mp h
      have hcomma : step host ⟨.obj read :: stack, .after⟩ (.scalar ',') = .ok ⟨.obj read :: stack, .key false⟩ := rfl
      have hnew : member.1 ∉ read.map Prod.fst := by
        rw [List.map_append, List.nodup_append'] at hkeys
        exact fun hread => hkeys.2.2 hread List.mem_cons_self
      rw [renderMembers, List.cons_append, run_cons_of_ok hcomma, List.append_assoc, List.append_assoc,
        run_append_of_ok run_newline_key, run_renderMember hmember hnew delimited_renderMembers,
        ih hrest (by rwa [List.append_assoc]), List.append_assoc, List.cons_append, List.nil_append]

theorem readBack_arr {items : List Document} (h : ∀ item ∈ items, ReadBack host item) :
    ReadBack host (.arr items) := by
  intro level first stack
  refine ⟨complete (.arr items) stack, ?_, .refl⟩
  cases items with
  | nil => cases first <;> rfl
  | cons item rest =>
      obtain ⟨hitem, hrest⟩ := List.forall_mem_cons.mp h
      have hopen : step host ⟨stack, .value first⟩ (.scalar '[') = .ok ⟨.arr [] :: stack, .value true⟩ := rfl
      rw [render, run_cons_of_ok hopen, List.append_assoc, List.append_assoc, List.append_assoc,
        run_append_of_ok run_newline_value, hitem.run_append delimited_renderItems, complete,
        run_renderItems hrest]
      rfl

theorem readBack_obj {members : Members} (h : ∀ member ∈ members, ReadBack host member.2)
    (hkeys : (members.map Prod.fst).Nodup) : ReadBack host (.obj members) := by
  intro level first stack
  refine ⟨complete (.obj members) stack, ?_, .refl⟩
  cases members with
  | nil => cases first <;> rfl
  | cons member rest =>
      obtain ⟨hmember, hrest⟩ := List.forall_mem_cons.mp h
      have hopen : step host ⟨stack, .value first⟩ (.scalar '\x7b') = .ok ⟨.obj [] :: stack, .key true⟩ := rfl
      rw [render, run_cons_of_ok hopen, List.append_assoc, List.append_assoc, List.append_assoc,
        run_append_of_ok run_newline_key, run_renderMember hmember List.not_mem_nil delimited_renderMembers,
        run_renderMembers hrest hkeys]
      rfl

/-- What can be read back is read back. -/
theorem readBack_of_readable {value : Document} (h : value.Everywhere (Readable host)) : ReadBack host value := by
  induction value using Document.induct with
  | null => exact fun level first stack => ⟨complete .null stack, by cases first <;> rfl, .refl⟩
  | bool b => exact fun level first stack => ⟨complete (.bool b) stack, by cases b <;> cases first <;> rfl, .refl⟩
  | int n => exact fun level first stack => run_int h.self
  | str text => exact fun level first stack => ⟨complete (.str text) stack, run_quote, .refl⟩
  | float text =>
      intro level first stack
      obtain ⟨⟨c, rest, phase, last, rfl, hfirst, hphases, hlast⟩, hfloat⟩ := h.self
      refine run_number_value hfirst hphases ?_
      rcases hlast with rfl | rfl <;> rw [finishNumber, hfloat]
  | arr items ih =>
      obtain ⟨-, hitems⟩ := Document.everywhere_arr.mp h
      exact readBack_arr fun item hitem => ih item hitem (hitems item hitem)
  | obj members ih =>
      obtain ⟨hkeys, hmembers⟩ := Document.everywhere_obj.mp h
      exact readBack_obj (fun member hmember => ih member hmember (hmembers member hmember)) hkeys

/-- A text that is read up to its end is loaded: no value begins with a byte order mark. -/
theorem loads_of_run {value : Document} (h : run host .start text = .ok r) (hfinish : finish host r = .ok value) :
    loads host text = .ok value := by
  have hmark : text.head? ≠ some (.scalar '\uFEFF') := by
    intro hhead
    obtain ⟨rest, rfl⟩ : ∃ rest, text = .scalar '\uFEFF' :: rest := by
      cases text with
      | nil => cases hhead
      | cons point rest => exact ⟨rest, by cases hhead; rfl⟩
    rw [run_cons] at h
    cases h
  rw [loads, if_neg hmark, h]
  exact hfinish

/-- `json.loads(json.dumps(value) + "\n")` -/
theorem loads_dumps {value : Document} (h : value.Everywhere (Readable host)) (htext : dumps host value = some text) :
    loads host (text ++ [.scalar '\n']) = .ok value := by
  obtain ⟨-, rfl⟩ := dumps_eq_some htext
  have hrun : run host .start (render 0 value ++ [.scalar '\n']) = run host (complete value []) [.scalar '\n'] :=
    (readBack_of_readable h).run_append ⟨'\n', [], .inr rfl, rfl⟩
  have hblank : run host (complete value []) [.scalar '\n'] = .ok (complete value []) := rfl
  exact loads_of_run (hrun.trans hblank) rfl

end JsonReader

end CfdiVault
