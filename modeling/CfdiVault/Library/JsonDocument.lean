import CfdiVault.Library.CodeText

/-!
# JSON documents of the host

The values that a decoder produces, with texts of code points.  A float stands as the text that the
encoder writes for it, which is the same for two floats only if they are equal.
-/

namespace CfdiVault

/-- A decoded value. -/
inductive Document where
  | null
  | bool (b : Bool)
  | int (n : Int)
  | float (text : List Char)
  | str (text : CodeText)
  | arr (items : List Document)
  | obj (members : List (CodeText × Document))

/-- The members of a dictionary, in its order. -/
abbrev Members := List (CodeText × Document)

namespace Members

/-- `data.get(key)` -/
def get (data : Members) (key : String) : Document := (data.lookup (CodeText.of key)).getD .null

/-- `key in data` -/
def has (data : Members) (key : String) : Bool := (data.lookup (CodeText.of key)).isSome

end Members

namespace Document

/-- `value == 1` -/
def equalsOne : Document → Bool
  | .int n => n == 1
  | .bool b => b
  | .float text => text == ['1', '.', '0']
  | _ => false

/-- `isinstance(value, str)` -/
def str? : Document → Option CodeText
  | .str text => some text
  | _ => none

/-- `isinstance(value, bool)` -/
def bool? : Document → Option Bool
  | .bool b => some b
  | _ => none

/-- `isinstance(value, dict)` -/
def obj? : Document → Option Members
  | .obj members => some members
  | _ => none

mutual

/-- The string values in a document, at any depth. -/
def strings : Document → List CodeText
  | .str text => [text]
  | .arr items => stringsOfItems items
  | .obj members => stringsOfMembers members
  | _ => []

def stringsOfItems : List Document → List CodeText
  | [] => []
  | item :: rest => strings item ++ stringsOfItems rest

def stringsOfMembers : List (CodeText × Document) → List CodeText
  | [] => []
  | member :: rest => stringsOfMember member ++ stringsOfMembers rest

def stringsOfMember : CodeText × Document → List CodeText
  | (_, value) => strings value

end

mutual

/-- A document and everything in it, at any depth. -/
def parts : Document → List Document
  | .arr items => .arr items :: partsOfItems items
  | .obj members => .obj members :: partsOfMembers members
  | value => [value]

def partsOfItems : List Document → List Document
  | [] => []
  | item :: rest => parts item ++ partsOfItems rest

def partsOfMembers : List (CodeText × Document) → List Document
  | [] => []
  | member :: rest => partsOfMember member ++ partsOfMembers rest

def partsOfMember : CodeText × Document → List Document
  | (_, value) => parts value

end

/-- A property of a document and of everything in it. -/
def Everywhere (p : Document → Prop) (value : Document) : Prop := ∀ part ∈ value.parts, p part

instance {p : Document → Prop} [DecidablePred p] (value : Document) : Decidable (value.Everywhere p) :=
  inferInstanceAs (Decidable (∀ part ∈ value.parts, p part))

section Everywhere

variable {p q : Document → Prop} {items : List Document} {members : Members} {value : Document}

theorem Everywhere.self (h : value.Everywhere p) : p value := h value (by cases value <;> simp [parts])

/-- A value in which nothing stands. -/
theorem everywhere_leaf (h : value.parts = [value]) (hvalue : p value) :
    value.Everywhere p := by
  intro part hpart
  rw [h, List.mem_singleton] at hpart
  rwa [hpart]

theorem everywhere_arr :
    (Document.arr items).Everywhere p ↔ p (.arr items) ∧ ∀ item ∈ items, item.Everywhere p := by
  have hitems : ∀ items, (∀ part ∈ partsOfItems items, p part) ↔ ∀ item ∈ items, item.Everywhere p := by
    intro items
    induction items with
    | nil => simp [partsOfItems]
    | cons item rest ih => rw [partsOfItems, List.forall_mem_append, List.forall_mem_cons, ih, Everywhere]
  rw [Everywhere, parts, List.forall_mem_cons, hitems]

theorem everywhere_obj :
    (Document.obj members).Everywhere p ↔ p (.obj members) ∧ ∀ member ∈ members, member.2.Everywhere p := by
  have hmembers : ∀ members, (∀ part ∈ partsOfMembers members, p part) ↔
      ∀ member ∈ members, member.2.Everywhere p := by
    intro members
    induction members with
    | nil => simp [partsOfMembers]
    | cons member rest ih =>
        obtain ⟨key, value⟩ := member
        rw [partsOfMembers, partsOfMember, List.forall_mem_append, List.forall_mem_cons, ih, Everywhere]
  rw [Everywhere, parts, List.forall_mem_cons, hmembers]

theorem Everywhere.mono (h : value.Everywhere p) (hpq : ∀ part, p part → q part) : value.Everywhere q :=
  fun part hpart => hpq part (h part hpart)

theorem Everywhere.and (h : value.Everywhere p) (h' : value.Everywhere q) :
    value.Everywhere fun part => p part ∧ q part :=
  fun part hpart => ⟨h part hpart, h' part hpart⟩

end Everywhere

/-- The keys of a dictionary are different. -/
def UniqueKeys : Document → Prop
  | .obj members => (members.map Prod.fst).Nodup
  | _ => True

instance : DecidablePred UniqueKeys := fun part => by
  unfold UniqueKeys
  split <;> infer_instance

/-- The texts of a value, keys included, have encodings. -/
def EncodableTexts : Document → Prop
  | .str text => text.Encodable
  | .obj members => ∀ member ∈ members, member.1.Encodable
  | _ => True

end Document

/-- A dictionary of the host: its keys are different, and those of every dictionary in it. -/
structure Dict where
  members : Members
  unique : (Document.obj members).Everywhere Document.UniqueKeys

end CfdiVault
