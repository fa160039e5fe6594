import CfdiVault.ConfigAcceptance
import Mathlib.Data.List.Nodup

/-!
# Safe profiles

An accepted document has different profile ids and no sensitive text at any depth.  Its ids, RFCs,
fingerprints and times are matched with patterns that also stand in front of a last newline, take
the decimal digits of every script, and compare letters without case, so that they have the shapes
that the error messages name only in plain profiles (`safeConfig_iff`).
-/

namespace CfdiVault

namespace Config

/-! ## Shapes -/

/-- The letters of an RFC. -/
def isPlainRfcLetter (c : Char) : Bool :=
  ('A' ≤ c && c ≤ 'Z') || ('a' ≤ c && c ≤ 'z') || c == '&' || c == 'Ñ' || c == 'ñ'

/-- ASCII letters and digits. -/
def isPlainAlnum (c : Char) : Bool := ('A' ≤ c && c ≤ 'Z') || ('a' ≤ c && c ≤ 'z') || isDigit c

/-- 2 to 64 letters, digits, dots, underscores or dashes, of which the first is a letter or a digit. -/
structure IsProfileId (text : CodeText) : Prop where
  long : 2 ≤ text.length
  short : text.length ≤ 64
  chars : ∀ point ∈ text, point.is isIdChar = true
  start : ∀ first, text.head? = some first → first.is Char.isAlphanum = true

/-- The texts of a profile have the shapes that their error messages name. -/
structure SafeProfile (data : Members) : Prop where
  profileId : ∃ text, Members.get data "profileId" = .str text ∧ IsProfileId text
  rfc : ∃ text, Members.get data "rfc" = .str text ∧ rfcShape isPlainRfcLetter isDigit isPlainAlnum text = true
  fingerprint : ∃ text, Members.get data "certificateFingerprint" = .str text ∧ text.length = 64 ∧
    ∀ point ∈ text, point.is isHex = true
  dailyAt : ∀ schedule text, Members.get data "schedule" = .obj schedule →
    Members.get schedule "dailyAt" = .str text → timeShape isDigit text = true

/-- The id in an item of the array of profiles. -/
def profileIdOf (item : Document) : Option CodeText :=
  item.obj?.bind fun data => (Members.get data "profileId").str?

/-- The profiles of a document are safe and told apart by their ids, and no text in it is sensitive. -/
structure SafeConfig (host : ConfigHost) (data : Members) : Prop where
  profiles : ∃ items, Members.get data "profiles" = .arr items ∧ (items.map profileIdOf).Nodup ∧
    ∀ item ∈ items, ∃ profile, item = .obj profile ∧ SafeProfile profile
  texts : ∀ text ∈ (Document.obj data).strings, isSensitive host text = false

/-- A text that does not end in a newline and has only some characters. -/
def PlainText (chars : Char → Bool) (text : CodeText) : Prop :=
  text.getLast? ≠ some (.scalar '\n') ∧ ∀ point ∈ text, point.is chars = true

def isAscii (c : Char) : Bool := c.toNat < 128

/-- A profile whose texts end without a newline, and whose RFC and time are ASCII, but for `Ñ`. -/
structure PlainProfile (data : Members) : Prop where
  profileId : ∀ text, Members.get data "profileId" = .str text → text.getLast? ≠ some (.scalar '\n')
  fingerprint : ∀ text, Members.get data "certificateFingerprint" = .str text → text.getLast? ≠ some (.scalar '\n')
  rfc : ∀ text, Members.get data "rfc" = .str text → PlainText (fun c => isAscii c || c == 'Ñ' || c == 'ñ') text
  dailyAt : ∀ schedule text, Members.get data "schedule" = .obj schedule →
    Members.get schedule "dailyAt" = .str text → PlainText isAscii text

/-! ## Sensitive texts -/

section Material

variable {host : ConfigHost}

mutual

/-- A scan without findings has seen no sensitive text, at any depth. -/
theorem strings_of_scan (value : Document) {path : CodeText} (h : findRawCredentialFields host path value = []) :
    ∀ text ∈ value.strings, isSensitive host text = false := by
  cases value with
  | str text =>
      rw [findRawCredentialFields, findSensitiveStringValue] at h
      rw [Document.strings, List.forall_mem_singleton]
      split at h
      · cases h
      · next hclean => exact Bool.eq_false_iff.mpr hclean
  | arr items =>
      rw [findRawCredentialFields] at h
      rw [Document.strings]
      exact stringsOfItems_of_scan items h
  | obj members =>
      rw [findRawCredentialFields] at h
      rw [Document.strings]
      exact stringsOfMembers_of_scan members h
  | _ => exact fun _ hmem => absurd hmem (by simp [Document.strings])

theorem stringsOfItems_of_scan (items : List Document) {path : CodeText} {index : Nat}
    (h : findInItems host path index items = []) :
    ∀ text ∈ Document.stringsOfItems items, isSensitive host text = false := by
  cases items with
  | nil => exact fun _ hmem => absurd hmem List.not_mem_nil
  | cons item rest =>
      rw [findInItems, List.append_eq_nil_iff] at h
      rw [Document.stringsOfItems]
      exact List.forall_mem_append.mpr ⟨strings_of_scan item h.1, stringsOfItems_of_scan rest h.2⟩

theorem stringsOfMembers_of_scan (members : List (CodeText × Document)) {path : CodeText}
    (h : findInMembers host path members = []) :
    ∀ text ∈ Document.stringsOfMembers members, isSensitive host text = false := by
  cases members with
  | nil => exact fun _ hmem => absurd hmem List.not_mem_nil
  | cons member rest =>
      obtain ⟨key, value⟩ := member
      rw [findInMembers, findInMember, List.append_eq_nil_iff, List.append_eq_nil_iff] at h
      rw [Document.stringsOfMembers, Document.stringsOfMember]
      exact List.forall_mem_append.mpr ⟨strings_of_scan value h.1.2, stringsOfMembers_of_scan rest h.2⟩

end

end Material

/-! ## Shapes of plain texts -/

section Shapes

variable {text : CodeText} {c : Char}

theorem matchLine_iff {shape : CodeText → Bool} (hline : text.getLast? ≠ some (.scalar '\n')) :
    matchLine shape text = shape text := by
  unfold matchLine
  rw [beq_eq_false_iff_ne.mpr hline, Bool.false_and, Bool.or_false]

/-- Characters that do not end a line leave a text plain. -/
theorem plainText_of_chars {chars : Char → Bool} (hnewline : chars '\n' = false)
    (h : ∀ point ∈ text, point.is chars = true) : PlainText chars text := by
  refine ⟨fun hlast => ?_, h⟩
  have := h _ (List.mem_of_getLast? hlast)
  rw [CodePoint.is_scalar, hnewline] at this
  cases this

theorem PlainText.mono {chars chars' : Char → Bool} (h : PlainText chars text)
    (hsub : ∀ c, chars c = true → chars' c = true) : PlainText chars' text := by
  refine ⟨h.1, fun point hpoint => ?_⟩
  obtain ⟨c, rfl, hc⟩ := CodePoint.is_eq_true.mp (h.2 point hpoint)
  exact hsub c hc

theorem profileIdShape_iff : profileIdShape text = true ↔ IsProfileId text := by
  cases text with
  | nil => exact iff_of_false (fun h => nomatch h) fun h => absurd h.long (by simp)
  | cons first rest =>
      simp only [profileIdShape, Bool.and_eq_true, decide_eq_true_eq, List.all_eq_true]
      constructor
      · rintro ⟨⟨hfirst, hlong, hshort⟩, hrest⟩
        refine ⟨?_, ?_, List.forall_mem_cons.mpr ⟨?_, hrest⟩, ?_⟩
        · rw [List.length_cons]
          omega
        · rw [List.length_cons]
          omega
        · obtain ⟨c, rfl, hc⟩ := CodePoint.is_eq_true.mp hfirst
          simp [isIdChar, hc]
        · rintro _ ⟨⟩
          exact hfirst
      · intro h
        have hlong := h.long
        have hshort := h.short
        rw [List.length_cons] at hlong hshort
        exact ⟨⟨h.start first rfl, by omega, by omega⟩, (List.forall_mem_cons.mp h.chars).2⟩

theorem fingerprintShape_iff :
    fingerprintShape text = true ↔ text.length = 64 ∧ ∀ point ∈ text, point.is isHex = true := by
  simp only [fingerprintShape, Bool.and_eq_true, decide_eq_true_eq, List.all_eq_true]

theorem all_congr {p q : Char → Bool} {part : CodeText} (h : ∀ point ∈ part, point.is p = point.is q) :
    part.all (CodePoint.is p) = part.all (CodePoint.is q) := by
  rw [Bool.eq_iff_iff, List.all_eq_true, List.all_eq_true]
  exact forall₂_congr fun point hpoint => by rw [h point hpoint]

theorem rfcShape_congr {letter letter' digit digit' alnum alnum' : Char → Bool}
    (h : ∀ point ∈ text, point.is letter = point.is letter' ∧ point.is digit = point.is digit' ∧
      point.is alnum = point.is alnum') : rfcShape letter digit alnum text = rfcShape letter' digit' alnum' text := by
  unfold rfcShape
  dsimp only
  rw [all_congr fun point hpoint => (h point (List.mem_of_mem_take hpoint)).1,
    all_congr fun point hpoint => (h point (List.mem_of_mem_drop (List.mem_of_mem_take hpoint))).2.1,
    all_congr fun point hpoint => (h point (List.mem_of_mem_drop hpoint)).2.2]

theorem rfcShape_chars {letter digit alnum : Char → Bool} (h : rfcShape letter digit alnum text = true) :
    ∀ point ∈ text, point.is (fun c => letter c || digit c || alnum c) = true := by
  simp only [rfcShape, Bool.and_eq_true, List.all_eq_true] at h
  obtain ⟨⟨⟨-, hletters⟩, hdigits⟩, halnums⟩ := h
  have hsplit : text = text.take (text.length - 9) ++
      ((text.drop (text.length - 9)).take 6 ++ text.drop (text.length - 9 + 6)) := by
    rw [← List.drop_drop, List.take_append_drop, List.take_append_drop]
  rw [hsplit]
  refine List.forall_mem_append.mpr ⟨fun point hpoint => ?_, List.forall_mem_append.mpr
    ⟨fun point hpoint => ?_, fun point hpoint => ?_⟩⟩
  · obtain ⟨c, rfl, hc⟩ := CodePoint.is_eq_true.mp (hletters point hpoint)
    simp [hc]
  · obtain ⟨c, rfl, hc⟩ := CodePoint.is_eq_true.mp (hdigits point hpoint)
    simp [hc]
  · obtain ⟨c, rfl, hc⟩ := CodePoint.is_eq_true.mp (halnums point hpoint)
    simp [hc]

theorem timeShape_congr {digit digit' : Char → Bool} (h : ∀ point ∈ text, point.is digit = point.is digit') :
    timeShape digit text = timeShape digit' text := by
  match text with
  | [hour, hour', colon, minute, minute'] => simp only [timeShape, h hour' (by simp), h minute' (by simp)]
  | [] | [_] | [_, _] | [_, _, _] | [_, _, _, _] | _ :: _ :: _ :: _ :: _ :: _ :: _ => rfl

/-- What a list of the ASCII characters says of one. -/
theorem of_ascii {p : Char → Bool} (h : ((List.range 128).all fun n => p (Char.ofNat n)) = true)
    (hc : isAscii c = true) : p c = true := by
  have hmem : c.toNat ∈ List.range 128 := List.mem_range.mpr (of_decide_eq_true hc)
  have := List.all_eq_true.mp h _ hmem
  rwa [Char.ofNat_toNat] at this

theorem isAscii_of_le {d : Char} (h : c ≤ d) (hd : d.toNat < 128) : isAscii c = true :=
  decide_eq_true (Nat.lt_of_le_of_lt h hd)

theorem isAscii_of_isDigit (h : isDigit c = true) : isAscii c = true := by
  simp only [isDigit, Bool.and_eq_true, decide_eq_true_eq] at h
  exact isAscii_of_le h.2 (by decide)

/-- The classes of the pattern on the characters of a plain RFC. -/
theorem rfcClasses_plain (h : (isAscii c || c == 'Ñ' || c == 'ñ') = true) :
    isRfcLetter c = isPlainRfcLetter c ∧ CodeText.isDecimal c = isDigit c ∧ isRfcAlnum c = isPlainAlnum c := by
  simp only [Bool.or_eq_true, beq_iff_eq] at h
  rcases h with (hascii | rfl) | rfl
  · have := of_ascii (p := fun c => isRfcLetter c == isPlainRfcLetter c &&
      CodeText.isDecimal c == isDigit c && isRfcAlnum c == isPlainAlnum c) (by decide +kernel) hascii
    simpa only [Bool.and_eq_true, beq_iff_eq, and_assoc] using this
  · decide +kernel
  · decide +kernel

theorem plainRfc_chars (h : (isPlainRfcLetter c || isDigit c || isPlainAlnum c) = true) :
    (isAscii c || c == 'Ñ' || c == 'ñ') = true := by
  have hascii : ∀ {a d : Char}, (decide (a ≤ c) && decide (c ≤ d)) = true → d.toNat < 128 → isAscii c = true := by
    intro a d hrange hd
    rw [Bool.and_eq_true, decide_eq_true_eq, decide_eq_true_eq] at hrange
    exact isAscii_of_le hrange.2 hd
  simp only [isPlainRfcLetter, isPlainAlnum, Bool.or_eq_true, beq_iff_eq] at h ⊢
  rcases h with (((((hupper | hlower) | rfl) | rfl) | rfl) | hdigit) | ((hupper | hlower) | hdigit)
  · exact .inl (.inl (hascii hupper (by decide)))
  · exact .inl (.inl (hascii hlower (by decide)))
  · exact .inl (.inl (by decide))
  · exact .inl (.inr rfl)
  · exact .inr rfl
  · exact .inl (.inl (isAscii_of_isDigit hdigit))
  · exact .inl (.inl (hascii hupper (by decide)))
  · exact .inl (.inl (hascii hlower (by decide)))
  · exact .inl (.inl (isAscii_of_isDigit hdigit))

/-- The characters of a time. -/
def isTimeChar (c : Char) : Bool := isDigit c || c == ':'

theorem isTimeChar_ascii (h : isTimeChar c = true) : isAscii c = true := by
  rcases Bool.or_eq_true _ _ ▸ h with hdigit | hcolon
  · exact isAscii_of_isDigit hdigit
  · rw [beq_iff_eq.mp hcolon]
    rfl

theorem timeShape_chars (h : timeShape isDigit text = true) : ∀ point ∈ text, point.is isTimeChar = true := by
  have htime : ∀ {point : CodePoint} {p : Char → Bool}, (∀ c, p c = true → isTimeChar c = true) →
      point.is p = true → point.is isTimeChar = true := by
    intro point p hp hpoint
    obtain ⟨c, rfl, hc⟩ := CodePoint.is_eq_true.mp hpoint
    exact hp c hc
  have hdigit : ∀ c, isDigit c = true → isTimeChar c = true := fun c hc => by
    rw [isTimeChar, hc, Bool.true_or]
  have hbelow : ∀ {d : Char}, d ≤ '9' → ∀ c, (decide ('0' ≤ c) && decide (c ≤ d)) = true → isTimeChar c = true := by
    intro d hd c hrange
    rw [Bool.and_eq_true, decide_eq_true_eq, decide_eq_true_eq] at hrange
    refine hdigit c ?_
    rw [isDigit, Bool.and_eq_true, decide_eq_true_eq, decide_eq_true_eq]
    exact ⟨hrange.1, Char.le_trans hrange.2 hd⟩
  have hsame : ∀ {d : Char}, isTimeChar d = true → ∀ c, (c == d) = true → isTimeChar c = true := by
    intro d hd c hc
    rwa [beq_iff_eq.mp hc]
  match text with
  | [hour, hour', colon, minute, minute'] =>
      simp only [timeShape, Bool.and_eq_true, Bool.or_eq_true] at h
      obtain ⟨⟨⟨hhour, hcolon⟩, hminute⟩, hminute'⟩ := h
      have hhours : hour.is isTimeChar = true ∧ hour'.is isTimeChar = true := by
        rcases hhour with ⟨hfirst, hsecond⟩ | ⟨hfirst, hsecond⟩
        · refine ⟨htime (fun c hc => ?_) hfirst, htime hdigit hsecond⟩
          rcases Bool.or_eq_true _ _ ▸ hc with hzero | hone
          · exact hsame (by decide) c hzero
          · exact hsame (by decide) c hone
        · exact ⟨htime (hsame (by decide)) hfirst, htime (hbelow (by decide)) hsecond⟩
      simp only [List.forall_mem_cons]
      exact ⟨hhours.1, hhours.2, htime (hsame (by decide)) hcolon, htime (hbelow (by decide)) hminute,
        htime hdigit hminute', fun _ hmem => absurd hmem List.not_mem_nil⟩

end Shapes

/-! ## Safe configurations -/

section Safety

variable {host : ConfigHost} {data : Members} {profile : ProfileConfig} {config : AppConfig}

theorem str_inj {value : Document} {text text' : CodeText} (h : value = .str text) (h' : value = .str text') :
    text = text' := Document.str.inj (h.symm.trans h')

/-- The texts of an accepted profile have their shapes exactly if the profile is plain. -/
theorem safeProfile_iff (h : ProfileDocument host data profile) : SafeProfile data ↔ PlainProfile data := by
  obtain ⟨⟨hid, -⟩, hidPattern⟩ := h.profileId
  obtain ⟨rfc, ⟨hrfc, -⟩, hrfcPattern, -⟩ := h.rfc
  obtain ⟨fingerprint, ⟨hfingerprint, -⟩, hfingerprintPattern, -⟩ := h.certificateFingerprint
  obtain ⟨schedule, hschedule, hsettings⟩ := h.schedule
  constructor
  · intro hsafe
    obtain ⟨_, hid', hidShape⟩ := hsafe.profileId
    obtain ⟨_, hrfc', hrfcShape⟩ := hsafe.rfc
    obtain ⟨_, hfingerprint', -, hhex⟩ := hsafe.fingerprint
    refine ⟨fun text htext => ?_, fun text htext => ?_, fun text htext => ?_, fun nested text hnested htext => ?_⟩
    · rw [str_inj htext hid']
      exact (plainText_of_chars (by decide) hidShape.chars).1
    · rw [str_inj htext hfingerprint']
      exact (plainText_of_chars (by decide) hhex).1
    · rw [str_inj htext hrfc']
      have hchars := plainText_of_chars (by decide) (rfcShape_chars hrfcShape)
      exact hchars.mono fun _ => plainRfc_chars
    · have hchars := timeShape_chars (hsafe.dailyAt nested text hnested htext)
      exact (plainText_of_chars (by decide) hchars).mono fun _ => isTimeChar_ascii
  · intro hplain
    refine ⟨⟨_, hid, ?_⟩, ⟨rfc, hrfc, ?_⟩, ⟨fingerprint, hfingerprint, ?_⟩, fun nested text hnested htext => ?_⟩
    · rw [PROFILE_ID_PATTERN, matchLine_iff (hplain.profileId _ hid)] at hidPattern
      exact profileIdShape_iff.mp hidPattern
    · have hline := hplain.rfc rfc hrfc
      rw [RFC_PATTERN, matchLine_iff hline.1] at hrfcPattern
      rw [← hrfcPattern]
      refine rfcShape_congr fun point hpoint => ?_
      obtain ⟨c, rfl, hc⟩ := CodePoint.is_eq_true.mp (hline.2 point hpoint)
      obtain ⟨hletter, hdigit, halnum⟩ := rfcClasses_plain hc
      exact ⟨hletter.symm, hdigit.symm, halnum.symm⟩
    · rw [FINGERPRINT_PATTERN, matchLine_iff (hplain.fingerprint _ hfingerprint)] at hfingerprintPattern
      exact fingerprintShape_iff.mp hfingerprintPattern
    · have hline := hplain.dailyAt nested text hnested htext
      have htime : TIME_PATTERN text = true := by
        obtain rfl : schedule = nested := Document.obj.inj (hschedule.symm.trans hnested)
        have hdaily := hsettings.dailyAt
        rw [htext] at hdaily
        cases hat : profile.schedule.dailyAt with
        | none => exact nomatch hat ▸ hdaily
        | some text' =>
            rw [hat] at hdaily
            obtain ⟨⟨⟩, hpattern⟩ := hdaily
            exact hpattern
      rw [TIME_PATTERN, matchLine_iff hline.1] at htime
      rw [← htime]
      refine timeShape_congr fun point hpoint => ?_
      obtain ⟨c, rfl, hc⟩ := CodePoint.is_eq_true.mp (hline.2 point hpoint)
      exact (rfcClasses_plain (by rw [hc]; rfl)).2.1.symm

theorem items_of_forall₂ {items : List Document} {profiles : List ProfileConfig}
    (h : List.Forall₂ (ProfileItem host) items profiles) :
    (∀ item ∈ items, ∃ data profile, item = .obj data ∧ ProfileDocument host data profile) ∧
      items.map profileIdOf = (profiles.map (·.profileId)).map some := by
  induction h with
  | nil => exact ⟨fun _ hmem => absurd hmem List.not_mem_nil, rfl⟩
  | @cons _ profile _ _ hitem _ ih =>
      obtain ⟨data, rfl, hprofile⟩ := hitem
      refine ⟨List.forall_mem_cons.mpr ⟨⟨data, profile, rfl, hprofile⟩, ih.1⟩, ?_⟩
      have hid : profileIdOf (.obj data) = some profile.profileId := by
        change (Members.get data "profileId").str? = _
        rw [hprofile.profileId.1.1]
        rfl
      rw [List.map_cons, List.map_cons, List.map_cons, ih.2, hid]

/-- An accepted configuration is safe exactly if its profiles are plain. -/
theorem safeConfig_iff (h : validateConfig host data = .ok config) :
    SafeConfig host data ↔
      ∀ items, Members.get data "profiles" = .arr items → ∀ profile, .obj profile ∈ items → PlainProfile profile := by
  obtain ⟨-, hdocument⟩ := validateConfig_eq_ok.mp h
  obtain ⟨items, hitems, -, hprofiles⟩ := hdocument.items
  obtain ⟨hobjects, hids⟩ := items_of_forall₂ hprofiles
  constructor
  · intro hsafe items' hitems' profile hmem
    obtain ⟨items'', hitems'', -, hall⟩ := hsafe.profiles
    obtain rfl : items' = items'' := Document.arr.inj (hitems'.symm.trans hitems'')
    obtain rfl : items' = items := Document.arr.inj (hitems'.symm.trans hitems)
    obtain ⟨_, ⟨⟩, hprofile⟩ := hall _ hmem
    obtain ⟨_, typed, ⟨⟩, hread⟩ := hobjects _ hmem
    exact (safeProfile_iff hread).mp hprofile
  · intro hplain
    refine ⟨⟨items, hitems, ?_, fun item hmem => ?_⟩, strings_of_scan _ hdocument.material⟩
    · rw [hids]
      exact List.Nodup.map (Option.some_injective _) hdocument.distinct
    · obtain ⟨profile, typed, rfl, hread⟩ := hobjects item hmem
      exact ⟨profile, rfl, (safeProfile_iff hread).mpr (hplain items hitems profile hmem)⟩

end Safety

/-! ## A profile id that ends in a newline -/

section Sample

def upperPoint : CodePoint → CodePoint
  | .scalar c => .scalar c.toUpper
  | point => point

def lowerPoint : CodePoint → CodePoint
  | .scalar c => .scalar c.toLower
  | point => point

/-- A host that splits a reference `scheme://netloc/path`. -/
def referenceHost : ConfigHost where
  upper text := text.map upperPoint
  lower text := text.map lowerPoint
  alnum c := c.isAlphanum
  urlparse text :=
    let scheme := upTo ':' text
    let rest := text.drop (scheme.length + 3)
    some ⟨scheme, upTo '/' rest, rest.drop (upTo '/' rest).length⟩

/-- The references of a profile in a vault. -/
def vaultRefs : Document := .obj [
  (CodeText.of "certificateRef", .str (CodeText.of "vault://cfdi/a/certificate")),
  (CodeText.of "privateKeyRef", .str (CodeText.of "vault://cfdi/a/private-key")),
  (CodeText.of "passphraseRef", .str (CodeText.of "vault://cfdi/a/private-key-phrase"))]

/-- A profile with the given id, RFC and storage root. -/
def vaultProfile (profileId rfc : String) (storageRoot : CodeText) : Members := [
  (CodeText.of "profileId", .str (CodeText.of profileId)),
  (CodeText.of "rfc", .str (CodeText.of rfc)),
  (CodeText.of "storageRoot", .str storageRoot),
  (CodeText.of "download", .obj [(CodeText.of "issued", .bool false), (CodeText.of "received", .bool true),
    (CodeText.of "metadataFirst", .bool true)]),
  (CodeText.of "lookbackDays", .int 30),
  (CodeText.of "maxConcurrency", .int 2),
  (CodeText.of "schedule", .obj [(CodeText.of "enabled", .bool true), (CodeText.of "dailyAt", .str (CodeText.of "02:30"))]),
  (CodeText.of "certificateFingerprint", .str (List.replicate 64 (.scalar 'a'))),
  (CodeText.of "credentialRefs", vaultRefs)]

/-- A configuration with the given profiles. -/
def vaultConfig (profiles : List Members) : Members := [
  (CodeText.of "schemaVersion", .int 1), (CodeText.of "profiles", .arr (profiles.map .obj))]

def localProfile (profileId : String) : Members :=
  vaultProfile profileId "AAA010101AAA" (CodeText.of "storage/local-a")

theorem exists_config {host : ConfigHost} {data : Members}
    (h : (validateConfig host data).toOption.isSome = true) : ∃ config, validateConfig host data = .ok config := by
  cases hconfig : validateConfig host data with
  | error fault => rw [hconfig] at h; cases h
  | ok config => exact ⟨config, rfl⟩

theorem safeConfig_iff_sample :
    SafeConfig referenceHost (vaultConfig [localProfile "profile-a"]) ↔
      ∀ items, Members.get (vaultConfig [localProfile "profile-a"]) "profiles" = .arr items →
        ∀ profile, .obj profile ∈ items → PlainProfile profile := by
  obtain ⟨config, h⟩ := exists_config
    (show (validateConfig referenceHost (vaultConfig [localProfile "profile-a"])).toOption.isSome = true by
      decide +kernel)
  exact safeConfig_iff h

/-- The id `profile-a` with a newline behind it is accepted. -/
theorem newline_id_accepted :
    ¬ ∀ host data config, validateConfig host data = .ok config → SafeConfig host data := by
  intro h
  obtain ⟨config, hconfig⟩ := exists_config
    (show (validateConfig referenceHost (vaultConfig [localProfile "profile-a\n"])).toOption.isSome = true by
      decide +kernel)
  obtain ⟨items, hitems, -, hall⟩ := (h _ _ _ hconfig).profiles
  obtain rfl : [.obj (localProfile "profile-a\n")] = items := Document.arr.inj hitems
  obtain ⟨_, ⟨⟩, hsafe⟩ := hall _ (List.mem_singleton_self _)
  obtain ⟨text, htext, hid⟩ := hsafe.profileId
  obtain rfl : CodeText.of "profile-a\n" = text := Document.str.inj htext
  have hnewline := hid.chars (.scalar '\n') (by decide +kernel)
  exact absurd hnewline (by decide)

end Sample

end Config

end CfdiVault
