import Mathlib.Tactic.Common

/-!
# Programs with state and exceptions

`Prog σ ε α` is a program over a state `σ` that may raise an `ε`; what it did to
the state before it raised stays done.  `Prog.exec` runs it, and the `exec_`
equations are the simp set that evaluates a program one statement at a time.

Two rule sets are built on `exec`:

* `Spec P p Q E` — from a state satisfying `P`, the program ends normally with
  `Q` or raises with `E`.  `Keeps I p` is the special case of an invariant and
  `Total I p` that of an invariant under which the program does not raise; their
  `each` and `collect` rules package the induction over a loop.
* `Agrees R p q` — run from related states, two programs give the same outcome
  and end in related states.  It is the two-run relation used for
  non-interference: the program is the same, the states differ where they may.
-/

namespace CfdiVault

/-! ## Checked computations -/

namespace Checked

variable {ε α β : Type}

@[simp] theorem ok_bind (a : α) (f : α → Except ε β) : (Except.ok a >>= f) = f a := rfl

@[simp] theorem error_bind (e : ε) (f : α → Except ε β) :
    (Except.error e >>= f) = .error e := rfl

/-- A sequence that succeeded: the first part did, and so did the rest on its value. -/
theorem bind_eq_ok {x : Except ε α} {f : α → Except ε β} {b : β} :
    (x >>= f) = .ok b ↔ ∃ a, x = .ok a ∧ f a = .ok b := by
  cases x with
  | error e => simp
  | ok a => simp

@[simp] theorem pure_eq_ok {a b : α} : (pure a : Except ε α) = .ok b ↔ a = b := by
  constructor
  · intro h
    injection h
  · intro h
    rw [h]
    rfl

theorem mapError_eq_ok {ε' : Type} {x : Except ε α} {f : ε → ε'} {a : α} :
    x.mapError f = .ok a ↔ x = .ok a := by
  cases x with
  | error e => exact iff_of_false (fun h => by cases h) (fun h => by cases h)
  | ok b => exact ⟨fun h => congrArg _ (Except.ok.inj h), fun h => congrArg _ (Except.ok.inj h)⟩

theorem map_eq_ok {x : Except ε α} {f : α → β} {b : β} : x.map f = .ok b ↔ ∃ a, x = .ok a ∧ f a = b := by
  cases x with
  | error e => exact iff_of_false (fun h => by cases h) fun h => by cases h.choose_spec.1
  | ok a =>
      constructor
      · intro h
        exact ⟨a, rfl, Except.ok.inj h⟩
      · rintro ⟨c, hc, rfl⟩
        obtain rfl := Except.ok.inj hc
        rfl

/-- Decoding a list of encodings, where decoding does not give back what was encoded. -/
theorem mapM_map' {γ : Type} {decode : γ → Except ε β} {encode : α → γ} {f : α → β} {xs : List α}
    (h : ∀ x ∈ xs, decode (encode x) = .ok (f x)) : (xs.map encode).mapM decode = .ok (xs.map f) := by
  induction xs with
  | nil => rfl
  | cons x rest ih =>
      have hrest := ih fun y hy => h y (List.mem_cons_of_mem x hy)
      rw [List.map_cons, List.mapM_cons, h x List.mem_cons_self, ok_bind, hrest, ok_bind]
      rfl

/-- Decoding a list of encodings gives the list back. -/
theorem mapM_map {γ : Type} {decode : γ → Except ε α} {encode : α → γ} {xs : List α}
    (h : ∀ x ∈ xs, decode (encode x) = .ok x) : (xs.map encode).mapM decode = .ok xs := by
  have hsame := @mapM_map' _ _ _ _ decode encode id xs h
  rwa [List.map_id] at hsame

/-- Every result of a decoded list comes from one of the encodings. -/
theorem of_mem_mapM {γ : Type} {decode : γ → Except ε α} {xs : List γ} {ys : List α}
    (h : xs.mapM decode = .ok ys) {y : α} (hy : y ∈ ys) : ∃ x ∈ xs, decode x = .ok y := by
  induction xs generalizing ys with
  | nil =>
      cases pure_eq_ok.mp h
      cases hy
  | cons x rest ih =>
      rw [List.mapM_cons] at h
      obtain ⟨a, ha, h⟩ := bind_eq_ok.mp h
      obtain ⟨as, has, h⟩ := bind_eq_ok.mp h
      cases pure_eq_ok.mp h
      rcases List.mem_cons.mp hy with rfl | hy
      · exact ⟨x, List.mem_cons_self, ha⟩
      · obtain ⟨z, hz, hdec⟩ := ih has hy
        exact ⟨z, List.mem_cons_of_mem x hz, hdec⟩

/-- Every element of a list that was decoded was decoded. -/
theorem mapM_defined {γ : Type} {decode : γ → Except ε α} {xs : List γ} {ys : List α}
    (h : xs.mapM decode = .ok ys) {x : γ} (hx : x ∈ xs) : ∃ y, decode x = .ok y := by
  induction xs generalizing ys with
  | nil => cases hx
  | cons z rest ih =>
      rw [List.mapM_cons] at h
      obtain ⟨a, ha, h⟩ := bind_eq_ok.mp h
      obtain ⟨as, has, -⟩ := bind_eq_ok.mp h
      rcases List.mem_cons.mp hx with rfl | hx
      · exact ⟨a, ha⟩
      · exact ih has hx

/-- The elements that satisfy a test which may itself fail. -/
def filter (test : α → Except ε Bool) : List α → Except ε (List α)
  | [] => .ok []
  | x :: rest => do
      let keep ← test x
      let kept ← filter test rest
      pure (if keep then x :: kept else kept)

/-- The test succeeded with a positive answer. -/
def accepts (test : α → Except ε Bool) (x : α) : Bool :=
  match test x with
  | .ok keep => keep
  | .error _ => false

theorem filter_eq_ok {test : α → Except ε Bool} {xs ys : List α} (h : filter test xs = .ok ys) :
    ys = xs.filter (accepts test) := by
  induction xs generalizing ys with
  | nil =>
      cases h
      rfl
  | cons x rest ih =>
      obtain ⟨keep, hkeep, h⟩ := bind_eq_ok.mp h
      obtain ⟨kept, hkept, h⟩ := bind_eq_ok.mp h
      have hx : accepts test x = keep := by rw [accepts, hkeep]
      rw [← pure_eq_ok.mp h, List.filter_cons, hx, ih hkept]

/-- A test that answers on every element answers on the list. -/
theorem filter_defined {test : α → Except ε Bool} {xs : List α}
    (h : ∀ x ∈ xs, ∃ keep, test x = .ok keep) : ∃ ys, filter test xs = .ok ys := by
  induction xs with
  | nil => exact ⟨[], rfl⟩
  | cons x rest ih =>
      obtain ⟨keep, hkeep⟩ := h x List.mem_cons_self
      obtain ⟨kept, hkept⟩ := ih fun y hy => h y (List.mem_cons_of_mem x hy)
      rw [filter, hkeep, ok_bind, hkept, ok_bind]
      exact ⟨_, rfl⟩

theorem accepts_iff {test : α → Except ε Bool} {x : α} :
    accepts test x = true ↔ test x = .ok true := by
  rw [accepts]
  cases test x with
  | error e => simp
  | ok keep => simp

end Checked

/-! ## Programs -/

/-- A program over the state `σ` that may raise an `ε`. -/
abbrev Prog (σ ε α : Type) := ExceptT ε (StateM σ) α

namespace Prog

variable {σ ε α β : Type}

/-- Run a program: its outcome and the state it leaves behind. -/
def exec (p : Prog σ ε α) (s : σ) : Except ε α × σ := StateT.run (ExceptT.run p) s

/-- Programs with the same runs are the same. -/
theorem ext {p q : Prog σ ε α} (h : ∀ s, exec p s = exec q s) : p = q := funext h

/-- Continue with `f` after a normal outcome. -/
def follow (f : α → Prog σ ε β) : Except ε α × σ → Except ε β × σ
  | (.ok a, s) => exec (f a) s
  | (.error e, s) => (.error e, s)

@[simp] theorem follow_ok (f : α → Prog σ ε β) (a : α) (s : σ) :
    follow f (.ok a, s) = exec (f a) s := rfl

@[simp] theorem follow_error (f : α → Prog σ ε β) (e : ε) (s : σ) :
    follow f (.error e, s) = (.error e, s) := rfl

@[simp] theorem exec_pure (a : α) (s : σ) :
    exec (pure a : Prog σ ε α) s = (.ok a, s) := rfl

@[simp] theorem exec_throw (e : ε) (s : σ) :
    exec (throw e : Prog σ ε α) s = (.error e, s) := rfl

@[simp] theorem exec_get (s : σ) : exec (get : Prog σ ε σ) s = (.ok s, s) := rfl

@[simp] theorem exec_set (t s : σ) :
    exec (set t : Prog σ ε PUnit) s = (.ok ⟨⟩, t) := rfl

@[simp] theorem exec_modify (f : σ → σ) (s : σ) :
    exec (modify f : Prog σ ε PUnit) s = (.ok ⟨⟩, f s) := rfl

theorem exec_bind (p : Prog σ ε α) (f : α → Prog σ ε β) (s : σ) :
    exec (p >>= f) s = follow f (exec p s) := by
  change (match StateT.run (ExceptT.run p) s with
    | (r, t) => StateT.run (ExceptT.bindCont f r) t) = _
  unfold exec
  rcases StateT.run (ExceptT.run p) s with ⟨r | r, t⟩ <;> rfl

theorem exec_bind_ok {p : Prog σ ε α} {f : α → Prog σ ε β} {s t : σ} {a : α}
    (h : exec p s = (.ok a, t)) : exec (p >>= f) s = exec (f a) t := by
  rw [exec_bind, h, follow_ok]

theorem exec_bind_error {p : Prog σ ε α} {f : α → Prog σ ε β} {s t : σ} {e : ε}
    (h : exec p s = (.error e, t)) : exec (p >>= f) s = (.error e, t) := by
  rw [exec_bind, h, follow_error]

theorem exec_bind_eq_ok {p : Prog σ ε α} {f : α → Prog σ ε β} {s t : σ} {b : β} :
    exec (p >>= f) s = (.ok b, t) ↔ ∃ a u, exec p s = (.ok a, u) ∧ exec (f a) u = (.ok b, t) := by
  rw [exec_bind]
  rcases exec p s with ⟨e | a, u⟩
  · rw [follow_error]
    constructor
    · intro h
      cases h
    · rintro ⟨a, v, ⟨⟩, -⟩
  · rw [follow_ok]
    constructor
    · exact fun h => ⟨a, u, rfl, h⟩
    · rintro ⟨a', u', ⟨⟩, h⟩
      exact h

/-- Raise when a pure computation failed, otherwise go on with its value. -/
def ofExcept (r : Except ε α) : Prog σ ε α :=
  match r with
  | .ok a => pure a
  | .error e => throw e

@[simp] theorem exec_ofExcept (r : Except ε α) (s : σ) :
    exec (ofExcept r : Prog σ ε α) s = (r, s) := by
  cases r <;> rfl

/-- Raise when a condition holds. -/
def raiseIf (c : Prop) [Decidable c] (e : ε) : Prog σ ε PUnit := if c then throw e else pure ⟨⟩

theorem exec_raiseIf_pos {c : Prop} [Decidable c] (h : c) (e : ε) (s : σ) :
    exec (raiseIf c e : Prog σ ε PUnit) s = (.error e, s) := by
  rw [raiseIf, if_pos h, exec_throw]

theorem exec_raiseIf_neg {c : Prop} [Decidable c] (h : ¬ c) (e : ε) (s : σ) :
    exec (raiseIf c e : Prog σ ε PUnit) s = (.ok ⟨⟩, s) := by
  rw [raiseIf, if_neg h, exec_pure]

/-- A checked value before a normal end was there, and the check did nothing else. -/
theorem exec_ofExcept_bind_eq_ok {r : Except ε α} {f : α → Prog σ ε β} {s t : σ} {b : β} :
    exec (ofExcept r >>= f) s = (.ok b, t) ↔ ∃ a, r = .ok a ∧ exec (f a) s = (.ok b, t) := by
  rw [exec_bind, exec_ofExcept]
  cases r with
  | error e => simp
  | ok a => simp

/-- A guard before a normal end did not hold. -/
theorem exec_raiseIf_bind_eq_ok {c : Prop} [Decidable c] {e : ε} {f : PUnit → Prog σ ε β}
    {s t : σ} {b : β} :
    exec (raiseIf c e >>= f) s = (.ok b, t) ↔ ¬ c ∧ exec (f ⟨⟩) s = (.ok b, t) := by
  by_cases h : c
  · rw [exec_bind_error (exec_raiseIf_pos h e s)]
    simp [h]
  · rw [exec_bind_ok (exec_raiseIf_neg h e s)]
    simp [h]

/-- One atomic step: an outcome and a new state. -/
def act (f : σ → Except ε α × σ) : Prog σ ε α := ExceptT.mk fun s => f s

@[simp] theorem exec_act (f : σ → Except ε α × σ) (s : σ) : exec (act f) s = f s := rfl

/-- A program between two state changes, the second made however it ends. -/
def bracket (enter leave : σ → σ) (p : Prog σ ε α) : Prog σ ε α :=
  act fun s => ((exec p (enter s)).1, leave (exec p (enter s)).2)

theorem exec_bracket (enter leave : σ → σ) (p : Prog σ ε α) (s : σ) :
    exec (bracket enter leave p) s = ((exec p (enter s)).1, leave (exec p (enter s)).2) := rfl

/-- A program with a handler for its exceptions; what it did before it raised stays done. -/
def catching (p : Prog σ ε α) (handler : ε → Prog σ ε α) : Prog σ ε α :=
  act fun s =>
    match exec p s with
    | (.error e, t) => exec (handler e) t
    | (.ok a, t) => (.ok a, t)

theorem exec_catching_ok {p : Prog σ ε α} {handler : ε → Prog σ ε α} {s t : σ} {a : α}
    (h : exec p s = (.ok a, t)) : exec (catching p handler) s = (.ok a, t) := by
  rw [catching, exec_act, h]

theorem exec_catching_error {p : Prog σ ε α} {handler : ε → Prog σ ε α} {s t : σ} {e : ε}
    (h : exec p s = (.error e, t)) : exec (catching p handler) s = exec (handler e) t := by
  rw [catching, exec_act, h]

/-- A handler that always raises: a normal end is the one of the program. -/
theorem exec_catching_eq_ok {p : Prog σ ε α} {handler : ε → Prog σ ε α}
    (hraise : ∀ e u b v, exec (handler e) u ≠ (.ok b, v)) {s t : σ} {a : α}
    (h : exec (catching p handler) s = (.ok a, t)) : exec p s = (.ok a, t) := by
  rcases hp : exec p s with ⟨e | b, u⟩
  · rw [exec_catching_error hp] at h
    exact absurd h (hraise e u a t)
  · rw [exec_catching_ok hp] at h
    exact h

/-- The same program under another type of exceptions. -/
def adapt {ε' : Type} (f : ε → ε') (p : Prog σ ε α) : Prog σ ε' α :=
  ExceptT.mk do
    let r ← ExceptT.run p
    pure (r.mapError f)

@[simp] theorem exec_adapt {ε' : Type} (f : ε → ε') (p : Prog σ ε α) (s : σ) :
    exec (adapt f p) s = ((exec p s).1.mapError f, (exec p s).2) := rfl

/-- A loop over a list, one body after the other. -/
def each (xs : List α) (body : α → Prog σ ε PUnit) : Prog σ ε PUnit :=
  match xs with
  | [] => pure ⟨⟩
  | x :: rest => do
      body x
      each rest body

@[simp] theorem each_nil (body : α → Prog σ ε PUnit) :
    each [] body = (pure ⟨⟩ : Prog σ ε PUnit) := rfl

theorem each_cons (x : α) (rest : List α) (body : α → Prog σ ε PUnit) :
    each (x :: rest) body = (do body x; each rest body) := rfl

/-- A loop over a list that collects the results of its bodies. -/
def collect (xs : List α) (body : α → Prog σ ε β) : Prog σ ε (List β) :=
  match xs with
  | [] => pure []
  | x :: rest => do
      let y ← body x
      let ys ← collect rest body
      pure (y :: ys)

@[simp] theorem collect_nil (body : α → Prog σ ε β) :
    collect [] body = (pure [] : Prog σ ε (List β)) := rfl

theorem collect_cons (x : α) (rest : List α) (body : α → Prog σ ε β) :
    collect (x :: rest) body = (do
      let y ← body x
      let ys ← collect rest body
      pure (y :: ys)) := rfl

end Prog

/-! ## One run: pre- and postconditions -/

section Spec

variable {σ ε α β : Type}

/-- What an outcome must satisfy: `Q` after a normal end, `E` after an exception. -/
def Holds (Q : α → σ → Prop) (E : ε → σ → Prop) : Except ε α × σ → Prop
  | (.ok a, s) => Q a s
  | (.error e, s) => E e s

@[simp] theorem holds_ok (Q : α → σ → Prop) (E : ε → σ → Prop) (a : α) (s : σ) :
    Holds Q E (.ok a, s) = Q a s := rfl

@[simp] theorem holds_error (Q : α → σ → Prop) (E : ε → σ → Prop) (e : ε) (s : σ) :
    Holds Q E ((.error e : Except ε α), s) = E e s := rfl

/-- From `P`, the program ends normally in `Q` or raises in `E`. -/
def Spec (P : σ → Prop) (p : Prog σ ε α) (Q : α → σ → Prop) (E : ε → σ → Prop) : Prop :=
  ∀ s, P s → Holds Q E (p.exec s)

namespace Spec

variable {P : σ → Prop} {Q : α → σ → Prop} {E : ε → σ → Prop}

theorem pure (a : α) (h : ∀ s, P s → Q a s) : Spec P (Pure.pure a : Prog σ ε α) Q E :=
  fun s hs => h s hs

theorem throw (e : ε) (h : ∀ s, P s → E e s) : Spec P (MonadExcept.throw e : Prog σ ε α) Q E :=
  fun s hs => h s hs

theorem bind {p : Prog σ ε β} {f : β → Prog σ ε α} {M : β → σ → Prop}
    (hp : Spec P p M E) (hf : ∀ b, Spec (M b) (f b) Q E) : Spec P (p >>= f) Q E := by
  intro s hs
  rw [Prog.exec_bind]
  have := hp s hs
  rcases h : p.exec s with ⟨e | b, t⟩
  · rw [h] at this; exact this
  · rw [h] at this; exact hf b t this

theorem modify {f : σ → σ} {Q : PUnit → σ → Prop} (h : ∀ s, P s → Q ⟨⟩ (f s)) :
    Spec P (modify f : Prog σ ε PUnit) Q E :=
  fun s hs => h s hs

/-- A program that reads its state first. -/
theorem read {f : σ → Prog σ ε α} (hf : ∀ u, Spec (fun s => P s ∧ s = u) (f u) Q E) :
    Spec P (MonadState.get >>= f) Q E := by
  intro s hs
  rw [Prog.exec_bind_ok (Prog.exec_get s)]
  exact hf s s ⟨hs, rfl⟩

theorem ofExcept_bind {r : Except ε β} {f : β → Prog σ ε α} (hok : ∀ b, r = .ok b → Spec P (f b) Q E)
    (herror : ∀ e, r = .error e → ∀ s, P s → E e s) : Spec P (Prog.ofExcept r >>= f) Q E := by
  cases r with
  | error e => exact fun s hs => herror e rfl s hs
  | ok b => exact hok b rfl

theorem catching {p : Prog σ ε α} {handler : ε → Prog σ ε α} {F : ε → σ → Prop}
    (hp : Spec P p Q F) (hhandler : ∀ e, Spec (F e) (handler e) Q E) :
    Spec P (Prog.catching p handler) Q E := by
  intro s hs
  have hholds := hp s hs
  rcases hx : p.exec s with ⟨e | a, t⟩
  · rw [Prog.exec_catching_error hx]
    rw [hx] at hholds
    exact hhandler e t hholds
  · rw [Prog.exec_catching_ok hx]
    rw [hx] at hholds
    exact hholds

theorem weaken {P' : σ → Prop} {Q' : α → σ → Prop} {E' : ε → σ → Prop} {p : Prog σ ε α}
    (h : Spec P p Q E) (hP : ∀ s, P' s → P s) (hQ : ∀ a s, Q a s → Q' a s)
    (hE : ∀ e s, E e s → E' e s) : Spec P' p Q' E' := by
  intro s hs
  have := h s (hP s hs)
  rcases hx : p.exec s with ⟨e | a, t⟩
  · rw [hx] at this; exact hE e t this
  · rw [hx] at this; exact hQ a t this

/-- Two specifications of one program together. -/
theorem and {P' : σ → Prop} {Q' : α → σ → Prop} {E' : ε → σ → Prop} {p : Prog σ ε α}
    (h : Spec P p Q E) (h' : Spec P' p Q' E') :
    Spec (fun s => P s ∧ P' s) p (fun a s => Q a s ∧ Q' a s) fun e s => E e s ∧ E' e s := by
  rintro s ⟨hs, hs'⟩
  have hq := h s hs
  have hq' := h' s hs'
  rcases hx : p.exec s with ⟨e | a, t⟩
  · rw [hx] at hq hq'
    exact ⟨hq, hq'⟩
  · rw [hx] at hq hq'
    exact ⟨hq, hq'⟩

end Spec

/-- `I` holds after the program, however it ends, if it held before. -/
def Keeps (I : σ → Prop) (p : Prog σ ε α) : Prop := Spec I p (fun _ => I) (fun _ => I)

namespace Keeps

variable {I : σ → Prop}

theorem pure (a : α) : Keeps I (Pure.pure a : Prog σ ε α) := Spec.pure a fun _ h => h

theorem throw (e : ε) : Keeps I (MonadExcept.throw e : Prog σ ε α) := Spec.throw e fun _ h => h

theorem bind {p : Prog σ ε β} {f : β → Prog σ ε α} (hp : Keeps I p) (hf : ∀ b, Keeps I (f b)) :
    Keeps I (p >>= f) :=
  Spec.bind hp hf

theorem get : Keeps I (MonadState.get : Prog σ ε σ) := fun _ h => h

theorem ofExcept (r : Except ε α) : Keeps I (Prog.ofExcept r : Prog σ ε α) := by
  cases r with
  | error e => exact throw e
  | ok a => exact pure a

theorem raiseIf (c : Prop) [Decidable c] (e : ε) :
    Keeps I (Prog.raiseIf c e : Prog σ ε PUnit) := by
  unfold Prog.raiseIf
  split
  · exact throw e
  · exact pure _

theorem act {f : σ → Except ε α × σ} (h : ∀ s, I s → I (f s).2) : Keeps I (Prog.act f) := by
  intro s hs
  have := h s hs
  rw [Prog.exec_act]
  rcases hx : f s with ⟨e | a, t⟩ <;> rw [hx] at this <;> exact this

/-- Entering and leaving may break the invariant only for the time in between. -/
theorem bracket {J : σ → Prop} {enter leave : σ → σ} {p : Prog σ ε α} (hp : Keeps J p)
    (henter : ∀ s, I s → J (enter s)) (hleave : ∀ s, J s → I (leave s)) :
    Keeps I (Prog.bracket enter leave p) := by
  refine act fun s hs => hleave _ ?_
  have := hp (enter s) (henter s hs)
  rcases hx : p.exec (enter s) with ⟨e | a, t⟩ <;> rw [hx] at this <;> exact this

theorem adapt {ε' : Type} {f : ε → ε'} {p : Prog σ ε α} (hp : Keeps I p) :
    Keeps I (Prog.adapt f p) := by
  intro s hs
  rw [Prog.exec_adapt]
  have := hp s hs
  rcases hx : p.exec s with ⟨e | a, t⟩
  · rw [hx] at this; exact this
  · rw [hx] at this; exact this

/-- A loop keeps an invariant that each of its bodies keeps. -/
theorem each {xs : List α} {body : α → Prog σ ε PUnit} (h : ∀ x ∈ xs, Keeps I (body x)) :
    Keeps I (Prog.each xs body) := by
  induction xs with
  | nil => exact pure _
  | cons x rest ih =>
      refine bind (h x List.mem_cons_self) fun _ => ?_
      exact ih fun y hy => h y (List.mem_cons_of_mem x hy)

theorem collect {xs : List α} {body : α → Prog σ ε β} (h : ∀ x ∈ xs, Keeps I (body x)) :
    Keeps I (Prog.collect xs body) := by
  induction xs with
  | nil => exact pure _
  | cons x rest ih =>
      refine bind (h x List.mem_cons_self) fun _ => ?_
      exact bind (ih fun y hy => h y (List.mem_cons_of_mem x hy)) fun _ => pure _

/-- The final state of a run satisfies an invariant that the program keeps. -/
theorem final {p : Prog σ ε α} (h : Keeps I p) {s : σ} (hs : I s) : I (p.exec s).2 := by
  have := h s hs
  rcases hx : p.exec s with ⟨e | a, t⟩
  · rw [hx] at this; exact this
  · rw [hx] at this; exact this

end Keeps

/-- Total correctness of an invariant: the program ends normally and keeps it. -/
def Total (I : σ → Prop) (p : Prog σ ε α) : Prop := Spec I p (fun _ => I) fun _ _ => False

namespace Total

variable {I : σ → Prop}

theorem pure (a : α) : Total I (Pure.pure a : Prog σ ε α) := Spec.pure a fun _ h => h

theorem bind {p : Prog σ ε β} {f : β → Prog σ ε α} (hp : Total I p) (hf : ∀ b, Total I (f b)) :
    Total I (p >>= f) :=
  Spec.bind hp hf

theorem ofExcept_bind {r : Except ε β} {b : β} {f : β → Prog σ ε α} (h : r = .ok b)
    (hf : Total I (f b)) : Total I (Prog.ofExcept r >>= f) := by
  intro s hs
  rw [Prog.exec_bind, Prog.exec_ofExcept, h]
  exact hf s hs

theorem each {xs : List α} {body : α → Prog σ ε PUnit} (h : ∀ x ∈ xs, Total I (body x)) :
    Total I (Prog.each xs body) := by
  induction xs with
  | nil => exact pure _
  | cons x rest ih =>
      refine bind (h x List.mem_cons_self) fun _ => ?_
      exact ih fun y hy => h y (List.mem_cons_of_mem x hy)

theorem collect {xs : List α} {body : α → Prog σ ε β} (h : ∀ x ∈ xs, Total I (body x)) :
    Total I (Prog.collect xs body) := by
  induction xs with
  | nil => exact pure _
  | cons x rest ih =>
      refine bind (h x List.mem_cons_self) fun _ => ?_
      exact bind (ih fun y hy => h y (List.mem_cons_of_mem x hy)) fun _ => pure _

/-- The run of a program that ends normally. -/
theorem exec_ok {p : Prog σ ε α} (h : Total I p) {s : σ} (hs : I s) :
    ∃ a t, p.exec s = (.ok a, t) ∧ I t := by
  have := h s hs
  rcases hx : p.exec s with ⟨e | a, t⟩
  · rw [hx] at this
    exact this.elim
  · rw [hx] at this
    exact ⟨a, t, rfl, this⟩

end Total

/-- Partial correctness: from `P`, the program ends in `Q` if it ends normally. -/
abbrev Ensures (P : σ → Prop) (p : Prog σ ε α) (Q : α → σ → Prop) : Prop :=
  Spec P p Q fun _ _ => True

namespace Ensures

variable {P K : σ → Prop} {Q : α → σ → Prop}

theorem ofKeeps {p : Prog σ ε α} (h : Keeps K p) : Ensures K p fun _ => K :=
  h.weaken (fun _ hs => hs) (fun _ _ hs => hs) fun _ _ _ => trivial

/-- What the program keeps also holds where it raises. -/
theorem spec {p : Prog σ ε α} (hp : Ensures P p Q) (hk : Keeps K p) :
    Spec (fun s => P s ∧ K s) p (fun a s => Q a s ∧ K s) fun _ => K := by
  intro s hs
  have hq := hp s hs.1
  have hks := hk s hs.2
  rcases hx : p.exec s with ⟨e | a, t⟩
  · rw [hx] at hks
    exact hks
  · rw [hx] at hq hks
    exact ⟨hq, hks⟩

/-- What the program keeps may be carried along. -/
theorem and {p : Prog σ ε α} (hp : Ensures P p Q) (hk : Keeps K p) :
    Ensures (fun s => P s ∧ K s) p fun a s => Q a s ∧ K s :=
  Spec.weaken (spec hp hk) (fun _ h => h) (fun _ _ h => h) fun _ _ _ => trivial

/-- A postcondition of a run that ended normally. -/
theorem of_exec {p : Prog σ ε α} (h : Ensures P p Q) {s t : σ} {a : α} (hs : P s)
    (hrun : p.exec s = (.ok a, t)) : Q a t := by
  have := h s hs
  rw [hrun] at this
  exact this

/-- A loop whose bodies keep an invariant and each reach a goal of their own, where no
body undoes the goal of another, reaches all goals. -/
theorem each {I : σ → Prop} {G : α → σ → Prop} {xs : List α} {body : α → Prog σ ε PUnit}
    (hbody : ∀ x ∈ xs, Ensures I (body x) fun _ s => I s ∧ G x s)
    (hkeep : ∀ x ∈ xs, ∀ y, Keeps (G y) (body x)) :
    Ensures I (Prog.each xs body) fun _ s => I s ∧ ∀ x ∈ xs, G x s := by
  induction xs with
  | nil => exact Spec.pure _ fun s hs => ⟨hs, by simp⟩
  | cons x rest ih =>
      have hrest := ih (fun y hy => hbody y (List.mem_cons_of_mem x hy))
        fun y hy => hkeep y (List.mem_cons_of_mem x hy)
      have hgoal : Keeps (G x) (Prog.each rest body) :=
        Keeps.each fun y hy => hkeep y (List.mem_cons_of_mem x hy) x
      refine Spec.bind (hbody x List.mem_cons_self) fun _ => ?_
      refine Spec.weaken (and hrest hgoal) (fun _ h => h) (fun _ s hs => ⟨hs.1.1, ?_⟩) fun _ _ h => h
      exact List.forall_mem_cons.mpr ⟨hs.2, hs.1.2⟩

/-- The rule of `each` for a loop that collects results. -/
theorem collect {I : σ → Prop} {G : α → σ → Prop} {xs : List α} {body : α → Prog σ ε β}
    (hbody : ∀ x ∈ xs, Ensures I (body x) fun _ s => I s ∧ G x s)
    (hkeep : ∀ x ∈ xs, ∀ y, Keeps (G y) (body x)) :
    Ensures I (Prog.collect xs body) fun _ s => I s ∧ ∀ x ∈ xs, G x s := by
  induction xs with
  | nil => exact Spec.pure _ fun s hs => ⟨hs, by simp⟩
  | cons x rest ih =>
      have hrest := ih (fun y hy => hbody y (List.mem_cons_of_mem x hy))
        fun y hy => hkeep y (List.mem_cons_of_mem x hy)
      have hgoal : Keeps (G x) (Prog.collect rest body) :=
        Keeps.collect fun y hy => hkeep y (List.mem_cons_of_mem x hy) x
      refine Spec.bind (hbody x List.mem_cons_self) fun _ => ?_
      refine Spec.bind (and hrest hgoal) fun _ => Spec.pure _ fun s hs => ⟨hs.1.1, ?_⟩
      exact List.forall_mem_cons.mpr ⟨hs.2, hs.1.2⟩

/-- The results of a loop whose bodies keep an invariant and whose results each satisfy a
condition of their own. -/
theorem collect_results {I : σ → Prop} {R : α → β → Prop} {xs : List α} {body : α → Prog σ ε β}
    (hbody : ∀ x ∈ xs, Ensures I (body x) fun y s => I s ∧ R x y) :
    Ensures I (Prog.collect xs body) fun ys s => I s ∧ List.Forall₂ R xs ys := by
  induction xs with
  | nil => exact Spec.pure _ fun s hs => ⟨hs, .nil⟩
  | cons x rest ih =>
      refine Spec.bind (hbody x List.mem_cons_self) fun y => ?_
      intro s hs
      refine Spec.bind (ih fun z hz => hbody z (List.mem_cons_of_mem x hz)) (fun ys => ?_) s hs.1
      exact Spec.pure _ fun t ht => ⟨ht.1, .cons hs.2 ht.2⟩

end Ensures

end Spec

/-! ## Two runs: agreement from related states -/

section Agrees

variable {σ ε α β : Type} {R : σ → σ → Prop}

/-- From related states the two programs have the same outcome and end in related
states. -/
def Agrees (R : σ → σ → Prop) (p q : Prog σ ε α) : Prop :=
  ∀ s t, R s t → (p.exec s).1 = (q.exec t).1 ∧ R (p.exec s).2 (q.exec t).2

namespace Agrees

theorem pure (a : α) : Agrees R (Pure.pure a : Prog σ ε α) (Pure.pure a) :=
  fun _ _ h => ⟨rfl, h⟩

theorem throw (e : ε) :
    Agrees R (MonadExcept.throw e : Prog σ ε α) (MonadExcept.throw e) :=
  fun _ _ h => ⟨rfl, h⟩

theorem ofExcept (r : Except ε α) :
    Agrees R (Prog.ofExcept r : Prog σ ε α) (Prog.ofExcept r) := by
  intro s t h
  rw [Prog.exec_ofExcept, Prog.exec_ofExcept]
  exact ⟨rfl, h⟩

theorem bind {p q : Prog σ ε β} {f g : β → Prog σ ε α} (hp : Agrees R p q)
    (hf : ∀ b, Agrees R (f b) (g b)) : Agrees R (p >>= f) (q >>= g) := by
  intro s t h
  obtain ⟨hres, hst⟩ := hp s t h
  rw [Prog.exec_bind, Prog.exec_bind]
  rcases hx : p.exec s with ⟨e | b, s'⟩ <;> rcases hy : q.exec t with ⟨e' | b', t'⟩ <;>
    rw [hx, hy] at hres hst
  · exact ⟨by injection hres with he; rw [Prog.follow_error, Prog.follow_error, he], hst⟩
  · cases hres
  · cases hres
  · cases hres
    exact hf b s' t' hst

theorem raiseIf (c : Prop) [Decidable c] (e : ε) :
    Agrees R (Prog.raiseIf c e : Prog σ ε PUnit) (Prog.raiseIf c e) := by
  unfold Prog.raiseIf
  split
  · exact throw e
  · exact pure _

theorem act {f g : σ → Except ε α × σ}
    (h : ∀ s t, R s t → (f s).1 = (g t).1 ∧ R (f s).2 (g t).2) :
    Agrees R (Prog.act f) (Prog.act g) := h

/-- Entering and leaving may change the relation for the time in between. -/
theorem bracket {S : σ → σ → Prop} {enter leave : σ → σ} {p q : Prog σ ε α} (hp : Agrees S p q)
    (henter : ∀ s t, R s t → S (enter s) (enter t))
    (hleave : ∀ s t, S s t → R (leave s) (leave t)) :
    Agrees R (Prog.bracket enter leave p) (Prog.bracket enter leave q) :=
  act fun s t hst => ⟨(hp _ _ (henter s t hst)).1, hleave _ _ (hp _ _ (henter s t hst)).2⟩

theorem collect {xs : List α} {body body' : α → Prog σ ε β}
    (h : ∀ x ∈ xs, Agrees R (body x) (body' x)) :
    Agrees R (Prog.collect xs body) (Prog.collect xs body') := by
  induction xs with
  | nil => exact pure _
  | cons x rest ih =>
      refine bind (h x List.mem_cons_self) fun _ => ?_
      exact bind (ih fun y hy => h y (List.mem_cons_of_mem x hy)) fun _ => pure _

/-- Programs that read the state through functions on which related states agree. -/
theorem read {γ : Type} (view : σ → γ) (hview : ∀ s t, R s t → view s = view t)
    {f g : γ → Prog σ ε α} (hf : ∀ c, Agrees R (f c) (g c)) :
    Agrees R (do let s ← get; f (view s)) (do let s ← get; g (view s)) := by
  intro s t h
  rw [Prog.exec_bind_ok (Prog.exec_get s), Prog.exec_bind_ok (Prog.exec_get t), hview s t h]
  exact hf _ s t h

/-- A state change that keeps related states related. -/
theorem change {f g : σ → σ} (h : ∀ s t, R s t → R (f s) (g t)) :
    Agrees R (modify f : Prog σ ε PUnit) (modify g) :=
  fun s t hst => ⟨rfl, h s t hst⟩

theorem each {xs : List α} {body body' : α → Prog σ ε PUnit}
    (h : ∀ x ∈ xs, Agrees R (body x) (body' x)) :
    Agrees R (Prog.each xs body) (Prog.each xs body') := by
  induction xs with
  | nil => exact pure _
  | cons x rest ih =>
      refine bind (h x List.mem_cons_self) fun _ => ?_
      exact ih fun y hy => h y (List.mem_cons_of_mem x hy)

end Agrees

end Agrees

end CfdiVault
