import CfdiVault.Library.SkipSearch
import CfdiVault.PackageProcessor
import Mathlib.Data.List.GetD

/-!
# Which names the screening sees

`_reject_raw_backslash_names` looks for the headers of an archive by their signatures, in all of
its bytes.  What it finds need not be a header: prefix bytes, the data of a member, names, extra
fields and comments may hold a signature as well.  Such a stray header is read like a real one, so
a backslash in its name rejects the archive (a false alarm), the lengths it gives skip what
follows, real headers included, and one that is cut off ends the search.

`Archive.rejected_iff` says what is rejected, in terms of the headers of the archive and the stray
ones, and `Archive.exact_iff` when that agrees with the names of the entries.  Where signatures stand
at headers and inside them only, it does (`Archive.Clean.exact`).
-/

namespace CfdiVault

namespace PackageProcessor

open SkipSearch

/-! ## The search in the bytes -/

section Search

variable (kind : Header) (content : Bytes)

/-- A signature stands at `p`. -/
def Occurs (p : Nat) : Prop := kind.signature <+: content.drop p

/-- The length of the name, as the header at `p` gives it. -/
def nameLength (p : Nat) : Nat := unpackShort (content.drop p) kind.nameOffset

/-- Where the search goes on after a header at `p`. -/
def past (p : Nat) : Nat :=
  p + (kind.size + nameLength kind content p + unpackShort (content.drop p) kind.extraOffset)

/-- The header at `p` is not cut off, nor is its name. -/
def Whole (p : Nat) : Prop := p + kind.size + nameLength kind content p ≤ content.length

/-- The header at `p` has a backslash in its name. -/
def Backslashed (p : Nat) : Prop :=
  Whole kind content p ∧ 0x5c ∈ ((content.drop p).drop kind.size).take (nameLength kind content p)

/-- What a search that starts at the cursor meets, by how it ends. -/
def Meets (cursor : Nat) : NameScan → Prop
  | .backslash => ∃ p, cursor ≤ p ∧ Stop (Occurs kind content) (past kind content) p ∧ Backslashed kind content p
  | .truncated => (∀ p, cursor ≤ p → Stop (Occurs kind content) (past kind content) p →
      ¬ Backslashed kind content p) ∧
      ∃ p, cursor ≤ p ∧ Stop (Occurs kind content) (past kind content) p ∧ ¬ Whole kind content p
  | .finished => ∀ p, cursor ≤ p → Stop (Occurs kind content) (past kind content) p →
      Whole kind content p ∧ ¬ Backslashed kind content p

variable {kind content} {signature found : Bytes} {p cursor next : Nat} {ending : NameScan}

theorem findSignature_none (hne : signature ≠ []) (h : findSignature signature content = none) (p : Nat) :
    ¬ signature <+: content.drop p := by
  induction content generalizing p with
  | nil =>
      rw [List.drop_nil]
      exact fun hprefix => hne (List.prefix_nil.mp hprefix)
  | cons b rest ih =>
      rw [findSignature] at h
      split_ifs at h with hhere
      cases p with
      | zero => exact fun hprefix => hhere (List.isPrefixOf_iff_prefix.mpr hprefix)
      | succ p => exact ih h p

/-- What is found begins at the first occurrence. -/
theorem findSignature_some (h : findSignature signature content = some found) :
    ∃ p, found = content.drop p ∧ signature <+: content.drop p ∧ ∀ q < p, ¬ signature <+: content.drop q := by
  induction content with
  | nil => cases h
  | cons b rest ih =>
      rw [findSignature] at h
      split_ifs at h with hhere
      · obtain rfl := Option.some.inj h
        exact ⟨0, rfl, List.isPrefixOf_iff_prefix.mp hhere, fun q hq => absurd hq (Nat.not_lt_zero q)⟩
      · obtain ⟨p, hfound, hprefix, hfirst⟩ := ih h
        refine ⟨p + 1, hfound, hprefix, fun q hq => ?_⟩
        cases q with
        | zero => exact fun hzero => hhere (List.isPrefixOf_iff_prefix.mpr hzero)
        | succ q => exact hfirst q (Nat.lt_of_succ_lt_succ hq)

theorem Occurs.lt_length (hne : kind.signature ≠ []) (h : Occurs kind content p) : p < content.length := by
  by_contra hover
  rw [Occurs, List.drop_eq_nil_of_le (Nat.le_of_not_lt hover)] at h
  exact hne (List.prefix_nil.mp h)

/-- A header that is passed, whole and without a backslash, does not matter for the ending. -/
theorem Meets.pass (hcursor : cursor ≤ next)
    (hpassed : ∀ p, cursor ≤ p → Stop (Occurs kind content) (past kind content) p →
      next ≤ p ∨ (Whole kind content p ∧ ¬ Backslashed kind content p))
    (h : Meets kind content next ending) : Meets kind content cursor ending := by
  cases ending with
  | backslash =>
      obtain ⟨p, hp, hstop⟩ := h
      exact ⟨p, hcursor.trans hp, hstop⟩
  | truncated =>
      obtain ⟨hclean, p, hp, hstop⟩ := h
      refine ⟨fun q hq hq' => ?_, p, hcursor.trans hp, hstop⟩
      rcases hpassed q hq hq' with hle | ⟨-, hclean'⟩
      · exact hclean q hle hq'
      · exact hclean'
  | finished =>
      intro q hq hq'
      rcases hpassed q hq hq' with hle | hclean
      · exact h q hle hq'
      · exact hclean

/-- What is found from the cursor on is a stop, and the next one lies past it. -/
theorem found_stop (hfind : findSignature kind.signature (content.drop cursor) = some found)
    (hsynced : Synced (Occurs kind content) (past kind content) cursor) :
    ∃ p, cursor ≤ p ∧ found = content.drop p ∧ Stop (Occurs kind content) (past kind content) p ∧
      ∀ q, cursor ≤ q → Stop (Occurs kind content) (past kind content) q → past kind content p ≤ q ∨ q = p := by
  obtain ⟨n, rfl, hoccurs, hfirst⟩ := findSignature_some hfind
  rw [List.drop_drop] at hoccurs ⊢
  have hbefore : ∀ q, cursor ≤ q → q < cursor + n → ¬ Occurs kind content q := by
    intro q hq hlt
    have hnone := hfirst (q - cursor) (by omega)
    rwa [List.drop_drop, Nat.add_sub_cancel' hq] at hnone
  have hstop : Stop (Occurs kind content) (past kind content) (cursor + n) :=
    hsynced.stop hoccurs (Nat.le_add_right _ _) hbefore
  refine ⟨cursor + n, Nat.le_add_right _ _, rfl, hstop, fun q hq hq' => ?_⟩
  rcases Nat.lt_trichotomy q (cursor + n) with hlt | heq | hgt
  · exact absurd hq'.found (hbefore q hq hlt)
  · exact .inr heq
  · exact .inl (hq'.apart hstop hgt)

/-- A header that is cut off is the last stop. -/
theorem Meets.cut (hne : kind.signature ≠ []) (hcursor : cursor ≤ p)
    (hstop : Stop (Occurs kind content) (past kind content) p) (hcut : ¬ Whole kind content p)
    (hnext : ∀ q, cursor ≤ q → Stop (Occurs kind content) (past kind content) q →
      past kind content p ≤ q ∨ q = p) : Meets kind content cursor .truncated := by
  refine ⟨fun q hq hq' hback => ?_, p, hcursor, hstop, hcut⟩
  rcases hnext q hq hq' with hover | rfl
  · have hinside := hq'.found.lt_length hne
    unfold Whole at hcut
    unfold past at hover
    omega
  · exact hcut hback.1

/-- The passes of the search meet what the stops from the cursor on hold. -/
theorem scanNames_meets (hne : kind.signature ≠ []) (hsize : 0 < kind.size) {fuel : Nat}
    (hfuel : (content.drop cursor).length ≤ fuel)
    (hsynced : Synced (Occurs kind content) (past kind content) cursor) :
    Meets kind content cursor (scanNames kind fuel (content.drop cursor)) := by
  induction fuel generalizing cursor with
  | zero =>
      intro p hp hstop
      rw [List.length_drop] at hfuel
      have hinside := hstop.found.lt_length hne
      omega
  | succ fuel ih =>
      rw [scanNames]
      cases hfind : findSignature kind.signature (content.drop cursor) with
      | none =>
          intro p hp hstop
          have hnone := findSignature_none hne hfind (p - cursor)
          rw [List.drop_drop, Nat.add_sub_cancel' hp] at hnone
          exact absurd hstop.found hnone
      | some found =>
          obtain ⟨p, hp, rfl, hstop, hnext⟩ := found_stop hfind hsynced
          have hlt := hstop.found.lt_length hne
          have hlen : (content.drop p).length = content.length - p := List.length_drop
          have hwhole : Whole kind content p ↔ ¬ (content.drop p).length < kind.size + nameLength kind content p := by
            unfold Whole
            omega
          dsimp only
          rw [← nameLength]
          split_ifs with hheader hname hback
          · exact Meets.cut hne hp hstop (by rw [hwhole]; omega) hnext
          · exact Meets.cut hne hp hstop (by rw [hwhole]; omega) hnext
          · exact ⟨p, hp, hstop, hwhole.mpr hname, hback⟩
          · have hpast : p < past kind content p := by
              unfold past
              omega
            rw [List.drop_drop]
            change Meets kind content cursor (scanNames kind fuel (content.drop (past kind content p)))
            refine Meets.pass (Nat.le_of_lt (hp.trans_lt hpast)) ?_ (ih ?_ (hstop.synced (Nat.le_of_lt hpast)))
            · intro q hq hq'
              rcases hnext q hq hq' with hover | rfl
              · exact .inl hover
              · exact .inr ⟨hwhole.mpr hname, fun h => hback h.2⟩
            · rw [List.length_drop] at hfuel ⊢
              omega

/-- The search ends with a backslash if a stop has one in its name. -/
theorem scanNames_backslash (hne : kind.signature ≠ []) (hsize : 0 < kind.size) :
    scanNames kind content.length content = .backslash ↔
      ∃ p, Stop (Occurs kind content) (past kind content) p ∧ Backslashed kind content p := by
  have hmeets : Meets kind content 0 (scanNames kind content.length content) :=
    scanNames_meets hne hsize (Nat.le_refl _) .zero
  constructor
  · intro h
    rw [h] at hmeets
    obtain ⟨p, -, hstop⟩ := hmeets
    exact ⟨p, hstop⟩
  · rintro ⟨p, hstop, hback⟩
    revert hmeets
    cases scanNames kind content.length content with
    | backslash => exact fun _ => rfl
    | truncated => exact fun hmeets => absurd hback (hmeets.1 p (Nat.zero_le p) hstop)
    | finished => exact fun hmeets => absurd hback (hmeets p (Nat.zero_le p) hstop).2

/-- The search ends early, for want of a backslash, if a stop is cut off. -/
theorem scanNames_truncated (hne : kind.signature ≠ []) (hsize : 0 < kind.size)
    (hquiet : scanNames kind content.length content ≠ .backslash) :
    scanNames kind content.length content = .truncated ↔
      ∃ p, Stop (Occurs kind content) (past kind content) p ∧ ¬ Whole kind content p := by
  have hmeets : Meets kind content 0 (scanNames kind content.length content) :=
    scanNames_meets hne hsize (Nat.le_refl _) .zero
  constructor
  · intro h
    rw [h] at hmeets
    obtain ⟨-, p, -, hstop⟩ := hmeets
    exact ⟨p, hstop⟩
  · rintro ⟨p, hstop, hcut⟩
    revert hmeets hquiet
    cases scanNames kind content.length content with
    | backslash => exact fun hquiet _ => absurd rfl hquiet
    | truncated => exact fun _ _ => rfl
    | finished => exact fun _ hmeets => absurd (hmeets p (Nat.zero_le p) hstop).1 hcut

/-- The bytes are rejected for a stop that has a backslash in its name; the stops at central headers
count only if no local header is cut off. -/
theorem rejects_iff_stop : (∃ fault, rejectRawBackslashNames content = .error fault) ↔
    (∃ p, Stop (Occurs localHeader content) (past localHeader content) p ∧ Backslashed localHeader content p) ∨
    ((∀ p, Stop (Occurs localHeader content) (past localHeader content) p → Whole localHeader content p) ∧
      ∃ p, Stop (Occurs centralHeader content) (past centralHeader content) p ∧
        Backslashed centralHeader content p) := by
  have hcut := @scanNames_truncated localHeader content (by decide) (by decide)
  rw [← scanNames_backslash (by decide) (by decide), ← scanNames_backslash (by decide) (by decide)]
  unfold rejectRawBackslashNames
  revert hcut
  cases scanNames localHeader content.length content with
  | backslash => exact fun _ => iff_of_true ⟨_, rfl⟩ (.inl rfl)
  | truncated =>
      intro hcut
      obtain ⟨p, hstop, hcut⟩ := (hcut (by decide)).mp rfl
      refine iff_of_false ?_ ?_
      · rintro ⟨fault, h⟩
        cases h
      · rintro (h | ⟨hwhole, -⟩)
        · cases h
        · exact hcut (hwhole p hstop)
  | finished =>
      intro hcut
      have hwhole : ∀ p, Stop (Occurs localHeader content) (past localHeader content) p →
          Whole localHeader content p := by
        intro p hstop
        by_contra hnot
        cases (hcut (by decide)).mpr ⟨p, hstop, hnot⟩
      rw [or_iff_right (by decide), and_iff_right hwhole]
      cases scanNames centralHeader content.length content with
      | backslash => exact iff_of_true ⟨_, rfl⟩ rfl
      | truncated =>
          refine iff_of_false ?_ (by decide)
          rintro ⟨fault, h⟩
          cases h
      | finished =>
          refine iff_of_false ?_ (by decide)
          rintro ⟨fault, h⟩
          cases h

end Search

/-! ## Archives -/

/-- A number in two bytes, the lower one first. -/
def short (n : Nat) : Bytes := [UInt8.ofNat n, UInt8.ofNat (n / 256)]

/-- The header of an entry: what stands before the two lengths, and what stands after them and
before the name (nothing, in a local header). -/
structure RawHeader (kind : Header) where
  fields : Bytes
  rest : Bytes
  name : Bytes
  extra : Bytes
  fields_length : kind.signature.length + fields.length = kind.nameOffset
  rest_length : kind.nameOffset + 4 + rest.length = kind.size
  name_length : name.length < 2 ^ 16
  extra_length : extra.length < 2 ^ 16

/-- What stands before the lengths. -/
def RawHeader.head {kind : Header} (header : RawHeader kind) : Bytes := kind.signature ++ header.fields

def RawHeader.bytes {kind : Header} (header : RawHeader kind) : Bytes :=
  header.head ++ (short header.name.length ++ (short header.extra.length ++
    (header.rest ++ (header.name ++ header.extra))))

/-- An entry, with its two headers.  The body is the data of the member and whatever else stands
before the next header. -/
structure Entry where
  stored : RawHeader localHeader
  body : Bytes
  listed : RawHeader centralHeader
  comment : Bytes

def Entry.member (entry : Entry) : Bytes := entry.stored.bytes ++ entry.body

def Entry.record (entry : Entry) : Bytes := entry.listed.bytes ++ entry.comment

/-- An archive: the members in one order, the central directory in another, any bytes before them
and after them. -/
structure Archive where
  front : Bytes
  members : List Entry
  directory : List Entry
  back : Bytes
  perm : members.Perm directory

namespace Archive

variable (archive : Archive)

def bytes : Bytes :=
  archive.front ++ archive.members.flatMap Entry.member ++ archive.directory.flatMap Entry.record ++ archive.back

/-- The local header of the entry begins at `p`. -/
def StoredAt : Nat → Entry → Prop := ChunkAt Entry.member archive.front.length archive.members

/-- The central header of the entry begins at `p`. -/
def ListedAt : Nat → Entry → Prop :=
  ChunkAt Entry.record (archive.front ++ archive.members.flatMap Entry.member).length archive.directory

/-- An entry has a backslash in one of its raw names. -/
def Named : Prop := ∃ entry ∈ archive.directory, 0x5c ∈ entry.stored.name ∨ 0x5c ∈ entry.listed.name

/-- `_reject_raw_backslash_names` raises. -/
def Rejected : Prop := ∃ fault, rejectRawBackslashNames archive.bytes = .error fault

/-- Exactly the archives with a backslash in a raw name are rejected. -/
def Exact : Prop := archive.Rejected ↔ archive.Named

/-! ### Stray headers -/

/-- The search for local headers stops where there is none. -/
def StrayLocal : Nat → Prop :=
  Stray (Occurs localHeader archive.bytes) (past localHeader archive.bytes) fun p => ∃ e, archive.StoredAt p e

/-- The search for central headers stops where there is none. -/
def StrayCentral : Nat → Prop :=
  Stray (Occurs centralHeader archive.bytes) (past centralHeader archive.bytes) fun p => ∃ e, archive.ListedAt p e

/-- A stray local header skips what is at `p`. -/
def CoveredLocal (p : Nat) : Prop :=
  ∃ q, archive.StrayLocal q ∧ q < p ∧ p < past localHeader archive.bytes q

/-- A stray central header skips what is at `p`. -/
def CoveredCentral (p : Nat) : Prop :=
  ∃ q, archive.StrayCentral q ∧ q < p ∧ p < past centralHeader archive.bytes q

/-- A stray local header is cut off by the end of the bytes: central headers are not looked for. -/
def CutOff : Prop := ∃ p, archive.StrayLocal p ∧ ¬ Whole localHeader archive.bytes p

/-- A stray header has a backslash in its name. -/
def Alarm : Prop :=
  (∃ p, archive.StrayLocal p ∧ Backslashed localHeader archive.bytes p) ∨
  (¬ archive.CutOff ∧ ∃ p, archive.StrayCentral p ∧ Backslashed centralHeader archive.bytes p)

/-- No stray header hides a header with a backslash in its name. -/
def Shown : Prop :=
  (∃ p e, archive.StoredAt p e ∧ 0x5c ∈ e.stored.name ∧ ¬ archive.CoveredLocal p) ∨
  (¬ archive.CutOff ∧ ∃ p e, archive.ListedAt p e ∧ 0x5c ∈ e.listed.name ∧ ¬ archive.CoveredCentral p)

end Archive

/-! ## What the search reads in an archive -/

section Reading

variable {kind : Header} {header : RawHeader kind} {content rest front : Bytes} {n p offset : Nat}

theorem unpackShort_short (hfront : front.length = offset) (hn : n < 2 ^ 16) :
    unpackShort (front ++ (short n ++ rest)) offset = n := by
  rw [unpackShort, List.getD_append_right front _ _ offset (by omega),
    List.getD_append_right front _ _ (offset + 1) (by omega), hfront, Nat.sub_self, Nat.add_sub_cancel_left]
  change (UInt8.ofNat n).toNat + 256 * (UInt8.ofNat (n / 256)).toNat = n
  rw [UInt8.toNat_ofNat', UInt8.toNat_ofNat']
  omega

theorem RawHeader.head_length : header.head.length = kind.nameOffset := by
  rw [head, List.length_append, header.fields_length]

theorem RawHeader.bytes_length :
    header.bytes.length = kind.size + header.name.length + header.extra.length := by
  have hrest := header.rest_length
  have hshort : ∀ n, (short n).length = 2 := fun _ => rfl
  simp only [bytes, List.length_append, head_length, hshort]
  omega

theorem RawHeader.occurs (h : content.drop p = header.bytes ++ rest) : Occurs kind content p := by
  rw [Occurs, h, bytes, head, List.append_assoc, List.append_assoc]
  exact List.prefix_append _ _

theorem RawHeader.nameLength_eq (h : content.drop p = header.bytes ++ rest) :
    nameLength kind content p = header.name.length := by
  rw [nameLength, h, bytes, List.append_assoc, List.append_assoc]
  exact unpackShort_short head_length header.name_length

theorem RawHeader.extraLength_eq (hkind : kind.extraOffset = kind.nameOffset + 2)
    (h : content.drop p = header.bytes ++ rest) :
    unpackShort (content.drop p) kind.extraOffset = header.extra.length := by
  rw [h, bytes, List.append_assoc, List.append_assoc, List.append_assoc, ← List.append_assoc header.head]
  refine unpackShort_short ?_ header.extra_length
  rw [List.length_append, head_length, hkind]
  rfl

/-- Behind a header, the search goes on where the header ends. -/
theorem RawHeader.past_eq (hkind : kind.extraOffset = kind.nameOffset + 2)
    (h : content.drop p = header.bytes ++ rest) : past kind content p = p + header.bytes.length := by
  rw [past, nameLength_eq h, extraLength_eq hkind h, bytes_length]

theorem RawHeader.whole (hne : kind.signature ≠ []) (h : content.drop p = header.bytes ++ rest) :
    Whole kind content p := by
  have hp := (occurs h).lt_length hne
  have hlen := congrArg List.length h
  rw [List.length_drop, List.length_append, bytes_length] at hlen
  rw [Whole, nameLength_eq h]
  omega

theorem RawHeader.backslashed_iff (hne : kind.signature ≠ []) (h : content.drop p = header.bytes ++ rest) :
    Backslashed kind content p ↔ 0x5c ∈ header.name := by
  have hsplit : header.bytes ++ rest =
      (header.head ++ (short header.name.length ++ (short header.extra.length ++ header.rest))) ++
        (header.name ++ (header.extra ++ rest)) := by
    simp only [bytes, List.append_assoc]
  have hsize : (header.head ++ (short header.name.length ++
      (short header.extra.length ++ header.rest))).length = kind.size := by
    have hrest := header.rest_length
    have hshort : ∀ n, (short n).length = 2 := fun _ => rfl
    simp only [List.length_append, head_length, hshort]
    omega
  have hname : ((content.drop p).drop kind.size).take (nameLength kind content p) = header.name := by
    rw [nameLength_eq h, h, hsplit, List.drop_left' hsize, List.take_left]
  rw [Backslashed, hname, and_iff_right (whole hne h)]

end Reading

namespace Archive

variable {archive : Archive} {p : Nat} {e : Entry}

theorem StoredAt.drop (h : archive.StoredAt p e) :
    ∃ rest, archive.bytes.drop p = e.stored.bytes ++ rest := by
  have hbytes : archive.bytes = archive.front ++ archive.members.flatMap Entry.member ++
      (archive.directory.flatMap Entry.record ++ archive.back) := by
    rw [bytes, List.append_assoc]
  rw [hbytes]
  obtain ⟨rest, hrest⟩ := ChunkAt.drop h
  refine ⟨e.body ++ rest, ?_⟩
  rw [hrest, Entry.member, List.append_assoc]

theorem ListedAt.drop (h : archive.ListedAt p e) :
    ∃ rest, archive.bytes.drop p = e.listed.bytes ++ rest := by
  obtain ⟨rest, hrest⟩ := ChunkAt.drop h
  refine ⟨e.comment ++ rest, ?_⟩
  rw [bytes, hrest, Entry.record, List.append_assoc]

theorem localHeaders_marked : Marked (Occurs localHeader archive.bytes) (past localHeader archive.bytes)
    fun p => ∃ e, archive.StoredAt p e := by
  refine Marked.of_chunks fun p e he => ?_
  obtain ⟨rest, hrest⟩ := StoredAt.drop he
  rw [RawHeader.past_eq rfl hrest, Entry.member, List.length_append]
  exact ⟨RawHeader.occurs hrest, by omega⟩

theorem centralHeaders_marked : Marked (Occurs centralHeader archive.bytes) (past centralHeader archive.bytes)
    fun p => ∃ e, archive.ListedAt p e := by
  refine Marked.of_chunks fun p e he => ?_
  obtain ⟨rest, hrest⟩ := ListedAt.drop he
  rw [RawHeader.past_eq rfl hrest, Entry.record, List.length_append]
  exact ⟨RawHeader.occurs hrest, by omega⟩

/-- The local headers of an archive are whole, so a stop that is cut off is a stray one. -/
theorem not_cutOff_iff : ¬ archive.CutOff ↔ ∀ p,
    Stop (Occurs localHeader archive.bytes) (past localHeader archive.bytes) p → Whole localHeader archive.bytes p := by
  constructor
  · intro hcut p hstop
    by_contra hwhole
    refine hcut ⟨p, ⟨hstop, ?_⟩, hwhole⟩
    rintro ⟨e, he⟩
    obtain ⟨rest, hrest⟩ := StoredAt.drop he
    exact hwhole (RawHeader.whole (by decide) hrest)
  · rintro hall ⟨p, hstray, hwhole⟩
    exact hwhole (hall p hstray.1)

theorem local_iff : (∃ p, Stop (Occurs localHeader archive.bytes) (past localHeader archive.bytes) p ∧
      Backslashed localHeader archive.bytes p) ↔
    (∃ p e, archive.StoredAt p e ∧ 0x5c ∈ e.stored.name ∧ ¬ archive.CoveredLocal p) ∨
      ∃ p, archive.StrayLocal p ∧ Backslashed localHeader archive.bytes p := by
  rw [localHeaders_marked.exists_stop_iff]
  refine or_congr_left ?_
  constructor
  · rintro ⟨p, ⟨e, he⟩, hfree, hback⟩
    obtain ⟨rest, hrest⟩ := StoredAt.drop he
    exact ⟨p, e, he, (RawHeader.backslashed_iff (by decide) hrest).mp hback, hfree⟩
  · rintro ⟨p, e, he, hname, hfree⟩
    obtain ⟨rest, hrest⟩ := StoredAt.drop he
    exact ⟨p, ⟨e, he⟩, hfree, (RawHeader.backslashed_iff (by decide) hrest).mpr hname⟩

theorem central_iff : (∃ p, Stop (Occurs centralHeader archive.bytes) (past centralHeader archive.bytes) p ∧
      Backslashed centralHeader archive.bytes p) ↔
    (∃ p e, archive.ListedAt p e ∧ 0x5c ∈ e.listed.name ∧ ¬ archive.CoveredCentral p) ∨
      ∃ p, archive.StrayCentral p ∧ Backslashed centralHeader archive.bytes p := by
  rw [centralHeaders_marked.exists_stop_iff]
  refine or_congr_left ?_
  constructor
  · rintro ⟨p, ⟨e, he⟩, hfree, hback⟩
    obtain ⟨rest, hrest⟩ := ListedAt.drop he
    exact ⟨p, e, he, (RawHeader.backslashed_iff (by decide) hrest).mp hback, hfree⟩
  · rintro ⟨p, e, he, hname, hfree⟩
    obtain ⟨rest, hrest⟩ := ListedAt.drop he
    exact ⟨p, ⟨e, he⟩, hfree, (RawHeader.backslashed_iff (by decide) hrest).mpr hname⟩

/-- An archive is rejected for a header with a backslash that is not hidden, or for a stray one. -/
theorem rejected_iff : archive.Rejected ↔ archive.Shown ∨ archive.Alarm := by
  rw [Rejected, rejects_iff_stop, local_iff, central_iff, ← not_cutOff_iff, Shown, Alarm, and_or_left]
  exact or_or_or_comm

theorem Shown.named (h : archive.Shown) : archive.Named := by
  rcases h with ⟨p, e, he, hname, -⟩ | ⟨-, p, e, he, hname, -⟩
  · exact ⟨e, archive.perm.mem_iff.mp (ChunkAt.mem he), .inl hname⟩
  · exact ⟨e, ChunkAt.mem he, .inr hname⟩

/-- The screening is exact if every backslash in a name of an entry is seen, or a stray header stands
in for it, and no stray header has a backslash in its name unless an entry has. -/
theorem exact_iff : archive.Exact ↔
    (archive.Named → archive.Shown ∨ archive.Alarm) ∧ (archive.Alarm → archive.Named) := by
  rw [Exact, rejected_iff]
  constructor
  · intro h
    exact ⟨h.mpr, fun halarm => h.mp (.inr halarm)⟩
  · rintro ⟨hseen, hfalse⟩
    refine ⟨?_, hseen⟩
    rintro (hshown | halarm)
    · exact hshown.named
    · exact hfalse halarm

/-- Signatures stand nowhere but at the headers of an archive, and inside them. -/
structure Clean (archive : Archive) : Prop where
  locals : ∀ p, Occurs localHeader archive.bytes p →
    ∃ m e, archive.StoredAt m e ∧ m ≤ p ∧ p < m + e.stored.bytes.length
  centrals : ∀ p, Occurs centralHeader archive.bytes p →
    ∃ m e, archive.ListedAt m e ∧ m ≤ p ∧ p < m + e.listed.bytes.length

theorem Clean.not_strayLocal (h : archive.Clean) : ¬ archive.StrayLocal p := by
  refine localHeaders_marked.not_stray fun p hp => ?_
  obtain ⟨m, e, he, hle, hlt⟩ := h.locals p hp
  obtain ⟨rest, hrest⟩ := StoredAt.drop he
  rw [← RawHeader.past_eq rfl hrest] at hlt
  exact ⟨m, ⟨e, he⟩, hle, hlt⟩

theorem Clean.not_strayCentral (h : archive.Clean) : ¬ archive.StrayCentral p := by
  refine centralHeaders_marked.not_stray fun p hp => ?_
  obtain ⟨m, e, he, hle, hlt⟩ := h.centrals p hp
  obtain ⟨rest, hrest⟩ := ListedAt.drop he
  rw [← RawHeader.past_eq rfl hrest] at hlt
  exact ⟨m, ⟨e, he⟩, hle, hlt⟩

theorem Clean.not_coveredLocal (h : archive.Clean) : ¬ archive.CoveredLocal p := by
  rintro ⟨q, hstray, -⟩
  exact h.not_strayLocal hstray

theorem Clean.not_coveredCentral (h : archive.Clean) : ¬ archive.CoveredCentral p := by
  rintro ⟨q, hstray, -⟩
  exact h.not_strayCentral hstray

theorem Clean.not_cutOff (h : archive.Clean) : ¬ archive.CutOff := by
  rintro ⟨q, hstray, -⟩
  exact h.not_strayLocal hstray

/-- Of an archive without stray signatures, exactly the names of its entries are seen. -/
theorem Clean.exact (h : archive.Clean) : archive.Exact := by
  have halarm : ¬ archive.Alarm := by
    rintro (⟨p, hstray, -⟩ | ⟨-, p, hstray, -⟩)
    · exact h.not_strayLocal hstray
    · exact h.not_strayCentral hstray
  rw [Exact, rejected_iff, or_iff_left halarm]
  refine ⟨Shown.named, ?_⟩
  rintro ⟨e, he, hname | hname⟩
  · obtain ⟨p, hp⟩ := @ChunkAt.of_mem _ _ Entry.member archive.front.length _ _ (archive.perm.mem_iff.mpr he)
    exact .inl ⟨p, e, hp, hname, h.not_coveredLocal⟩
  · obtain ⟨p, hp⟩ := @ChunkAt.of_mem _ _ Entry.record
      (archive.front ++ archive.members.flatMap Entry.member).length _ _ he
    exact .inr ⟨h.not_cutOff, p, e, hp, hname, h.not_coveredCentral⟩

/-! ### Archives that are screened wrongly -/

/-- A number in four bytes. -/
def long (n : Nat) : Bytes := short n ++ short (n / 2 ^ 16)

/-- `struct.unpack_from("<I", …)` -/
def unpackLong (content : Bytes) (offset : Nat) : Nat :=
  unpackShort content offset + 2 ^ 16 * unpackShort content (offset + 2)

/-- The record at the end of an archive without a comment. -/
def endRecord (archive : Archive) : Bytes :=
  [0x50, 0x4b, 0x05, 0x06] ++ short 0 ++ short 0 ++ short archive.directory.length ++
    short archive.directory.length ++ long (archive.directory.flatMap Entry.record).length ++
    long (archive.members.flatMap Entry.member).length ++ short 0

/-- What a reader of the archive relies on, the checksums apart: the members have their lengths, the
central headers lead to the local ones, with the same names, and the end record to the directory. -/
structure WellFormed (archive : Archive) : Prop where
  names : ∀ e ∈ archive.directory, e.listed.name = e.stored.name
  comments : ∀ e ∈ archive.directory, unpackShort e.listed.rest 0 = e.comment.length
  sizes : ∀ e ∈ archive.directory, unpackLong e.listed.fields 16 = e.body.length
  offsets : ∀ p e, archive.StoredAt p e → archive.front.length + unpackLong e.listed.rest 10 = p
  ends : archive.back = archive.endRecord

end Archive

/-- The fields of a member that is stored as it is. -/
def storedFields (crc size : Nat) : Bytes :=
  short 20 ++ short 0 ++ short 0 ++ short 0 ++ short 33 ++ Archive.long crc ++ Archive.long size ++ Archive.long size

/-- A member that is stored as it is. -/
def storedEntry (name data : Bytes) (crc offset : Nat) (hname : name.length < 2 ^ 16) : Entry where
  stored := ⟨storedFields crc data.length, [], name, [], rfl, rfl, hname, by decide⟩
  body := data
  listed := ⟨short 20 ++ storedFields crc data.length,
    short 0 ++ short 0 ++ short 0 ++ Archive.long 0 ++ Archive.long offset, name, [], rfl, rfl, hname, by decide⟩
  comment := []

/-- An archive of members that are stored as they are. -/
def storedArchive (entries : List Entry) : Archive where
  front := []
  members := entries
  directory := entries
  back := Archive.endRecord ⟨[], entries, entries, [], .refl _⟩
  perm := .refl _

/-- What looks like a local header, with these lengths. -/
def strayHeader (nameLength : Nat) (name : Bytes) : Bytes :=
  localHeader.signature ++ List.replicate 22 0 ++ short nameLength ++ short 0 ++ name

/-- `a.xml`, whose data hold a header of the name `\`. -/
def alarming : Archive :=
  storedArchive [storedEntry [0x61, 0x2e, 0x78, 0x6d, 0x6c] (strayHeader 1 [0x5c]) 270237509 0 (by decide)]

/-- `a.xml`, whose data hold a header of a long name, and `\b.xml`. -/
def concealing : Archive :=
  storedArchive [storedEntry [0x61, 0x2e, 0x78, 0x6d, 0x6c] (strayHeader 65535 []) 374225561 0 (by decide),
    storedEntry [0x5c, 0x62, 0x2e, 0x78, 0x6d, 0x6c] [] 0 65 (by decide)]

theorem storedArchive_offsets {entries : List Entry}
    (h : ∀ i (_ : i < entries.length), Archive.unpackLong entries[i].listed.rest 10 =
      ((entries.take i).flatMap Entry.member).length) (p : Nat) (e : Entry)
    (he : (storedArchive entries).StoredAt p e) :
    (storedArchive entries).front.length + Archive.unpackLong e.listed.rest 10 = p := by
  obtain ⟨i, hi, rfl⟩ := he
  obtain ⟨hlt, rfl⟩ := List.getElem?_eq_some_iff.mp hi
  exact congrArg (0 + ·) (h i hlt)

/-- The data of a member can raise an alarm, and can hide a backslash. -/
theorem screening_inexact :
    (∃ archive : Archive, archive.WellFormed ∧ archive.Rejected ∧ ¬ archive.Named) ∧
    ∃ archive : Archive, archive.WellFormed ∧ archive.Named ∧ ¬ archive.Rejected := by
  constructor
  · refine ⟨alarming, ⟨?_, ?_, ?_, storedArchive_offsets ?_, rfl⟩,
      ⟨.rejected "backslash ZIP entry path rejected", ?_⟩, ?_⟩
    · decide +kernel
    · decide +kernel
    · decide +kernel
    · decide +kernel
    · decide +kernel
    · unfold Archive.Named
      decide +kernel
  · refine ⟨concealing, ⟨?_, ?_, ?_, storedArchive_offsets ?_, rfl⟩, ?_, ?_⟩
    · decide +kernel
    · decide +kernel
    · decide +kernel
    · decide +kernel
    · unfold Archive.Named
      decide +kernel
    · rintro ⟨fault, h⟩
      have hpassed : rejectRawBackslashNames concealing.bytes = .ok () := by decide +kernel
      rw [hpassed] at h
      cases h

end PackageProcessor

end CfdiVault
