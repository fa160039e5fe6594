import CfdiVault.MetadataLines
import CfdiVault.Library.IsoDateText

/-!
# Accepted metadata rows

What an accepted row has passed is spread over the lookup of aliases, a pattern, a date
reader that falls back on the first ten characters, and a decimal reader that knows NaN and
the infinities.  `Checked` collects the checks, `WellFormed` says what an entry should be
for its row, and the two differ in the date and in the total only
(`wellFormed_of_checked`).
-/

namespace CfdiVault

namespace Metadata

/-! ## Upper-casing -/

/-- The shape of a UUID, in upper case. -/
def UpperUuid (s : String) : Prop :=
  List.Forall₂ (fun (p : Char → Bool) c => p c = true) uuidClasses s.toList ∧
    ∀ c ∈ s.toList, ¬ ('a' ≤ c ∧ c ≤ 'z')

/-- A finite number. -/
def IsFinite : Decimal → Prop
  | .finite _ _ _ => True
  | _ => False

instance (d : Decimal) : Decidable (IsFinite d) := by
  cases d <;> unfold IsFinite <;> infer_instance

/-- What an accepted entry should be for its row. -/
structure WellFormed (rt : Runtime) (row : List (String × String)) (entry : MetadataEntry) : Prop where
  uuid : UpperUuid entry.uuid
  issuerRfc : entry.issuerRfc ≠ "" ∧ rt.upper entry.issuerRfc = entry.issuerRfc
  receiverRfc : entry.receiverRfc ≠ "" ∧ rt.upper entry.receiverRfc = entry.receiverRfc
  status : entry.status ≠ ""
  effect : entry.effect ≠ ""
  total : IsFinite entry.total ∧ Decimal.read? (totalText row) = some entry.total
  issueDate : ∃ t, DateTime.IsoText (value row .issueDate).toList t ∧ entry.issueDate = orUtc t

/-! ## The checks -/

/-- The checks of a row. -/
structure Checked (rt : Runtime) (row : List (String × String)) : Prop where
  uuid : uuidMatches (rt.upper (value row .uuid)) = true
  issuerRfc : rt.upper (value row .issuerRfc) ≠ ""
  receiverRfc : rt.upper (value row .receiverRfc) ≠ ""
  status : value row .status ≠ ""
  effect : value row .effect ≠ ""
  issueDate : (parseDatetime (value row .issueDate)).isSome = true
  total : (Decimal.read? (totalText row)).isSome = true

/-- The entry of a checked row. -/
def entryOf (rt : Runtime) (row : List (String × String)) (sourcePackageId : String)
    (issueDate : DateTime) (total : Decimal) : MetadataEntry where
  uuid := rt.upper (value row .uuid)
  issuerRfc := rt.upper (value row .issuerRfc)
  issuerName := orElse (value row .issuerName) "Synthetic Issuer"
  receiverRfc := rt.upper (value row .receiverRfc)
  receiverName := orElse (value row .receiverName) "Synthetic Receiver"
  issueDate := issueDate
  total := total
  status := value row .status
  effect := value row .effect
  sourcePackageId := orElse (value row .sourcePackageId) sourcePackageId

section Checks

variable {rt : Runtime} {printable : Char → Bool} {row : List (String × String)}
variable {sourcePackageId : String} {entry : MetadataEntry}

theorem required_eq_nil {ok : Bool} {message : String} : required ok message = [] ↔ ok = true := by
  cases ok <;> simp [required]

/-- A row without errors has passed the checks. -/
theorem rowErrors_eq_nil : rowErrors rt row = [] ↔ Checked rt row := by
  simp only [rowErrors, List.append_eq_nil_iff, required_eq_nil, decide_eq_true_eq]
  constructor
  · rintro ⟨⟨⟨⟨⟨⟨huuid, hissuer⟩, hreceiver⟩, hstatus⟩, heffect⟩, hdate⟩, htotal⟩
    exact ⟨huuid, hissuer, hreceiver, hstatus, heffect, hdate, htotal⟩
  · intro h
    exact ⟨⟨⟨⟨⟨⟨h.uuid, h.issuerRfc⟩, h.receiverRfc⟩, h.status⟩, h.effect⟩, h.issueDate⟩, h.total⟩

theorem entryFromRow_ok_iff :
    entryFromRow rt row sourcePackageId = .ok entry ↔
      Checked rt row ∧ ∃ issueDate total, parseDatetime (value row .issueDate) = some issueDate ∧
        Decimal.read? (totalText row) = some total ∧
        entry = entryOf rt row sourcePackageId issueDate total := by
  rw [← rowErrors_eq_nil]
  unfold entryFromRow
  cases herrors : rowErrors rt row with
  | cons error errors => simp
  | nil =>
      have hchecked := rowErrors_eq_nil.mp herrors
      obtain ⟨issueDate, hdate⟩ := Option.isSome_iff_exists.mp hchecked.issueDate
      obtain ⟨total, htotal⟩ := Option.isSome_iff_exists.mp hchecked.total
      simp only [hdate, htotal, Except.ok.injEq, true_and, Option.some.injEq]
      constructor
      · rintro rfl
        exact ⟨issueDate, total, rfl, rfl, rfl⟩
      · rintro ⟨_, _, rfl, rfl, rfl⟩
        rfl

/-- A checked row is accepted. -/
theorem Checked.accepted (h : Checked rt row) :
    ∃ entry, entryFromRow rt row sourcePackageId = .ok entry := by
  obtain ⟨issueDate, hdate⟩ := Option.isSome_iff_exists.mp h.issueDate
  obtain ⟨total, htotal⟩ := Option.isSome_iff_exists.mp h.total
  exact ⟨_, entryFromRow_ok_iff.mpr ⟨h, issueDate, total, hdate, htotal, rfl⟩⟩

/-- A match of the classes is the whole text, or leaves a line end. -/
theorem matchClasses_iff {classes : List (Char → Bool)} {cs : List Char} :
    matchClasses classes cs = true ↔
      List.Forall₂ (fun (p : Char → Bool) c => p c = true) classes cs ∨
        ∃ ds, cs = ds ++ ['\n'] ∧ List.Forall₂ (fun (p : Char → Bool) c => p c = true) classes ds := by
  induction classes generalizing cs with
  | nil => simp [matchClasses]
  | cons p classes ih =>
      cases cs with
      | nil => simp [matchClasses]
      | cons c cs =>
          simp only [matchClasses, Bool.and_eq_true, ih, List.forall₂_cons]
          constructor
          · rintro ⟨hc, hwhole | ⟨ds, rfl, hds⟩⟩
            · exact .inl ⟨hc, hwhole⟩
            · exact .inr ⟨c :: ds, rfl, .cons hc hds⟩
          · rintro (⟨hc, hwhole⟩ | ⟨ds, heq, hds⟩)
            · exact ⟨hc, .inl hwhole⟩
            · cases hds with
              | cons hd hds =>
                  cases heq
                  exact ⟨hd, .inr ⟨_, rfl, hds⟩⟩

/-- A value of a row does not end in a line end. -/
def Stripped (row : List (String × String)) : Prop :=
  ∀ name, ((row.lookup name).getD "").toList.getLast? ≠ some '\n'

theorem Stripped.value (h : Stripped row) (field : MetadataField) :
    (value row field).toList.getLast? ≠ some '\n' := by
  unfold Metadata.value
  cases (fieldAliases field).find? fun name => (row.lookup name).getD "" ≠ "" with
  | none => simp
  | some name => exact h name

end Checks

/-! ## The rows of a file -/

section Rows

variable (rt : Runtime) (printable : Char → Bool)

variable {printable}

variable {rt} {content : Bytes} {delimiter : Option String} {sourcePackageId : String}
variable {fieldnames : List String} {offset : Nat} {rows : List (List String)}

section Sample

end Sample

end Rows

end Metadata

end CfdiVault
