import CfdiVault.Library.Program

/-!
# Checks that collect their errors

A check gives a value together with the errors that it has found, and it may raise.  Checks are
composed with their errors in order; a composition without errors is one of checks without errors.
-/

namespace CfdiVault

/-- A check with faults of type `ε` and errors of type `μ`. -/
def Report (ε μ α : Type) : Type := Except ε (α × List μ)

namespace Report

variable {ε μ α β : Type}

instance : Monad (Report ε μ) where
  pure a := .ok (a, [])
  bind p f := Except.bind p fun first => Except.bind (f first.1) fun second => .ok (second.1, first.2 ++ second.2)

/-- `errors.append(error)`. -/
def add (error : μ) : Report ε μ Unit := .ok ((), [error])

/-- All of the errors. -/
def addAll (errors : List μ) : Report ε μ Unit := .ok ((), errors)

/-- The check raises. -/
def raise (fault : ε) : Report ε μ α := .error fault

/-- The check gives a value and finds no error. -/
def Clean (p : Report ε μ α) (a : α) : Prop := p = .ok (a, [])

section Clean

variable {p : Report ε μ α} {f : α → Report ε μ β} {a a' : α} {b : β} {c : Prop} [Decidable c] {u : Unit}
variable {error : μ} {errors : List μ} {fault : ε}

@[simp] theorem clean_pure : Clean (pure a : Report ε μ α) a' ↔ a = a' := by
  constructor
  · intro h
    cases h
    rfl
  · rintro rfl
    rfl

@[simp] theorem clean_bind : Clean (p >>= f) b ↔ ∃ a, p.Clean a ∧ (f a).Clean b := by
  rcases p with fault | ⟨a, errors⟩
  · refine iff_of_false (fun h => ?_) fun ⟨_, h, _⟩ => ?_
    · cases h
    · cases h
  · change Except.bind (f a) _ = _ ↔ _
    rcases hf : f a with fault | ⟨b', errors'⟩
    · refine iff_of_false (fun h => ?_) fun ⟨a', h, h'⟩ => ?_
      · cases h
      · cases h
        rw [Clean, hf] at h'
        cases h'
    · constructor
      · intro h
        have hpair := Except.ok.inj h
        obtain ⟨herrors, herrors'⟩ := List.append_eq_nil_iff.mp (congrArg Prod.snd hpair)
        change errors = [] at herrors
        change errors' = [] at herrors'
        obtain rfl : b' = b := congrArg Prod.fst hpair
        subst herrors herrors'
        exact ⟨a, rfl, hf⟩
      · rintro ⟨a', h, h'⟩
        cases h
        rw [Clean, hf] at h'
        cases h'
        rfl

@[simp] theorem not_clean_add : ¬ Clean (add error : Report ε μ Unit) u := by
  intro h
  cases h

@[simp] theorem clean_addAll : Clean (addAll errors : Report ε μ Unit) u ↔ errors = [] := by
  constructor
  · intro h
    exact congrArg Prod.snd (Except.ok.inj h)
  · rintro rfl
    rfl

@[simp] theorem not_clean_raise : ¬ Clean (raise fault : Report ε μ α) a := by
  intro h
  cases h

theorem clean_ite {p q : Report ε μ α} : Clean (if c then p else q) a ↔ (c → p.Clean a) ∧ (¬ c → q.Clean a) := by
  by_cases h : c <;> simp [h]

/-- An error that is added under a condition. -/
@[simp] theorem clean_addIf : Clean (if c then add error else pure () : Report ε μ Unit) u ↔ ¬ c := by
  rw [clean_ite]
  simp

/-- A value comes out of a clean check only once. -/
theorem Clean.unique (h : p.Clean a) (h' : p.Clean a') : a = a' := by
  rw [Clean, h] at h'
  exact congrArg Prod.fst (Except.ok.inj h')

end Clean

end Report

end CfdiVault
