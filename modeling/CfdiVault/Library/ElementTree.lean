import Mathlib.Data.List.Basic
import Mathlib.Data.List.Induction

/-!
# Element trees

An XML document as the library that parses it returns it: elements with a tag, attributes
and children.  `iter` lists an element and what lies below it in document order, and `walk`
does so together with the ancestors of each element, so that being inside an element is
having it for an ancestor.  `ancestors_first` says that an element comes after its ancestors.
-/

namespace CfdiVault

/-- An element of a parsed document. -/
inductive Element where
  | mk (tag : String) (attrib : List (String × String)) (children : List Element)

namespace Element

def tag : Element → String
  | mk tag _ _ => tag

def attrib : Element → List (String × String)
  | mk _ attrib _ => attrib

def children : Element → List Element
  | mk _ _ children => children

mutual

/-- `element.iter()`: the element and what lies below it, in document order. -/
def iter : Element → List Element
  | mk tag attrib children => mk tag attrib children :: iterAll children

def iterAll : List Element → List Element
  | [] => []
  | e :: rest => e.iter ++ iterAll rest

end

mutual

/-- The elements in document order, each with its ancestors. -/
def walk (ancestors : List Element) : Element → List (List Element × Element)
  | mk tag attrib children =>
      (ancestors, mk tag attrib children) :: walkAll (mk tag attrib children :: ancestors) children

def walkAll (ancestors : List Element) : List Element → List (List Element × Element)
  | [] => []
  | e :: rest => e.walk ancestors ++ walkAll ancestors rest

end

mutual

/-- The walk visits the elements of `iter`. -/
theorem walk_iter (ancestors : List Element) : (e : Element) → (e.walk ancestors).map (·.2) = e.iter
  | mk tag attrib children => by
      rw [walk, List.map_cons, walkAll_iter, iter]

theorem walkAll_iter (ancestors : List Element) :
    (es : List Element) → (walkAll ancestors es).map (·.2) = iterAll es
  | [] => by rw [walkAll, iterAll, List.map_nil]
  | e :: rest => by rw [walkAll, iterAll, List.map_append, walk_iter, walkAll_iter]

end

/-- In a list of visits, every ancestor of an element is one of those seen before or was
visited before. -/
def AncestorsFirst (seen : List Element) : List (List Element × Element) → Prop
  | [] => True
  | visit :: rest => (∀ a ∈ visit.1, a ∈ seen) ∧ AncestorsFirst (visit.2 :: seen) rest

variable {seen more ancestors : List Element} {visits others : List (List Element × Element)}

theorem AncestorsFirst.mono (h : AncestorsFirst seen visits) (hseen : seen ⊆ more) :
    AncestorsFirst more visits := by
  induction visits generalizing seen more with
  | nil => trivial
  | cons visit rest ih =>
      exact ⟨fun a ha => hseen (h.1 a ha), ih h.2 (List.cons_subset_cons visit.2 hseen)⟩

theorem AncestorsFirst.append (h : AncestorsFirst seen visits) (h' : AncestorsFirst seen others) :
    AncestorsFirst seen (visits ++ others) := by
  induction visits generalizing seen with
  | nil => exact h'
  | cons visit rest ih => exact ⟨h.1, ih h.2 (h'.mono (List.subset_cons_self visit.2 seen))⟩

mutual

theorem ancestors_first {seen ancestors : List Element} (h : ancestors ⊆ seen) :
    (e : Element) → AncestorsFirst seen (e.walk ancestors)
  | mk tag attrib children => by
      rw [walk]
      exact ⟨h, ancestors_first_all (List.cons_subset_cons _ h) children⟩

theorem ancestors_first_all {seen ancestors : List Element} (h : ancestors ⊆ seen) :
    (es : List Element) → AncestorsFirst seen (walkAll ancestors es)
  | [] => by
      rw [walkAll]
      trivial
  | e :: rest => by
      rw [walkAll]
      exact (ancestors_first h e).append (ancestors_first_all h rest)

end

section Inside

variable (P : Element → Prop) [DecidablePred P]

/-- The visited element lies inside an element with the property. -/
def Inside (visit : List Element × Element) : Prop := ∃ a ∈ visit.1, P a

instance (visit : List Element × Element) : Decidable (Inside P visit) :=
  inferInstanceAs (Decidable (∃ a ∈ visit.1, P a))

/-- Nothing lies inside an element with the property before the first such element. -/
theorem filter_inside_dropWhile (h : AncestorsFirst seen visits) (hseen : ∀ a ∈ seen, ¬ P a) :
    (visits.dropWhile fun visit => ¬ P visit.2).filter (Inside P) = visits.filter (Inside P) := by
  induction visits generalizing seen with
  | nil => rfl
  | cons visit rest ih =>
      by_cases hvisit : P visit.2
      · rw [List.dropWhile_cons_of_neg (by simpa using hvisit)]
      · have houtside : ¬ Inside P visit := fun ⟨a, ha, hpa⟩ => hseen a (h.1 a ha) hpa
        rw [List.dropWhile_cons_of_pos (by simpa using hvisit), List.filter_cons_of_neg (by simpa using houtside)]
        refine ih h.2 fun a ha => ?_
        rcases List.mem_cons.mp ha with rfl | ha
        · exact hvisit
        · exact hseen a ha

end Inside

end Element

end CfdiVault
