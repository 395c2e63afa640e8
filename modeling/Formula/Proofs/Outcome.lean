/-!
When a computation that may fail succeeds: one after another, with its errors renamed, and in
evaluations that have no effects besides. And what it fails with (`FailsOnly`).
-/

namespace Formula

variable {ε ε' α β : Type}

@[simp]
theorem except_ok_bind (a : α) (f : α → Except ε β) : (.ok a >>= f : Except ε β) = f a := rfl

@[simp]
theorem except_error_bind (e : ε) (f : α → Except ε β) :
    (.error e >>= f : Except ε β) = .error e := rfl

theorem except_bind_eq_ok {x : Except ε α} {f : α → Except ε β} {b : β} :
    (x >>= f) = .ok b ↔ ∃ a, x = .ok a ∧ f a = .ok b := by
  cases x with
  | error e =>
    constructor
    · intro h
      cases h
    · rintro ⟨a, h, -⟩
      cases h
  | ok a =>
    constructor
    · exact fun h => ⟨a, rfl, h⟩
    · rintro ⟨a, h, hf⟩
      cases h
      exact hf

theorem except_map_eq_ok {x : Except ε α} {f : α → β} {b : β} :
    x.map f = .ok b ↔ ∃ a, x = .ok a ∧ f a = b := by
  cases x <;> simp [Except.map]

theorem except_bind_eq_error {x : Except ε α} {f : α → Except ε β} {e : ε} :
    (x >>= f) = .error e ↔ x = .error e ∨ ∃ a, x = .ok a ∧ f a = .error e := by
  cases x with
  | error e' =>
    constructor
    · intro h
      cases h
      exact .inl rfl
    · rintro (h | ⟨a, h, -⟩)
      · cases h
        rfl
      · cases h
  | ok a =>
    constructor
    · exact fun h => .inr ⟨a, rfl, h⟩
    · rintro (h | ⟨a, h, hf⟩)
      · cases h
      · cases h
        exact hf

theorem mapError_eq_ok {x : Except ε α} {f : ε → ε'} {a : α} :
    x.mapError f = .ok a ↔ x = .ok a := by
  cases x with
  | error e =>
    constructor
    · intro h
      cases h
    · intro h
      cases h
  | ok b =>
    constructor
    · intro h
      cases h
      rfl
    · intro h
      cases h
      rfl

theorem mapError_eq_error {x : Except ε α} {f : ε → ε'} {e : ε'} :
    x.mapError f = .error e ↔ ∃ e', x = .error e' ∧ f e' = e := by
  cases x with
  | error e' =>
    constructor
    · intro h
      cases h
      exact ⟨e', rfl, rfl⟩
    · rintro ⟨e'', h, hf⟩
      cases h
      rw [← hf]
      rfl
  | ok a =>
    constructor
    · intro h
      cases h
    · rintro ⟨e', h, -⟩
      cases h

/-- Errors can be renamed in both of two computations that follow each other. -/
theorem mapError_bind {rename : ε → ε'} {x : Except ε α} {f : α → Except ε β}
    {g : α → Except ε' β} (h : ∀ a, g a = (f a).mapError rename) :
    (x.mapError rename >>= g) = (x >>= f).mapError rename := by
  cases x with
  | error e => rfl
  | ok a => exact h a

theorem run_bind_eq_ok {x : ExceptT ε Id α} {f : α → ExceptT ε Id β} {b : β} :
    (x >>= f).run = Except.ok b ↔ ∃ a, x.run = Except.ok a ∧ (f a).run = Except.ok b := by
  have hrun : (x >>= f).run = ExceptT.bindCont f x.run := rfl
  rw [hrun]
  generalize x.run = r
  cases (r : Except ε α) with
  | error e =>
    constructor
    · intro h
      cases h
    · rintro ⟨a, h, -⟩
      cases h
  | ok a =>
    constructor
    · exact fun h => ⟨a, rfl, h⟩
    · rintro ⟨a, h, hf⟩
      cases h
      exact hf

theorem run_mapError_bind {rename : ε → ε} {x y : ExceptT ε Id α} {f g : α → ExceptT ε Id β}
    (hx : y.run = Except.mapError rename x.run)
    (hf : ∀ a, (g a).run = Except.mapError rename (f a).run) :
    (y >>= g).run = Except.mapError rename (x >>= f).run := by
  have hleft : (y >>= g).run = ExceptT.bindCont g y.run := rfl
  have hright : (x >>= f).run = ExceptT.bindCont f x.run := rfl
  rw [hleft, hright, hx]
  generalize x.run = outcome
  cases (outcome : Except ε α) with
  | error e => rfl
  | ok a => exact hf a

theorem run_liftExcept (x : Except ε α) :
    (liftExcept x : ExceptT ε Id α).run = x := by
  cases x <;> rfl

/-! ## Errors of a kind -/

/-- The error of a computation, if it has one, is of a kind. -/
def FailsOnly (P : ε → Prop) (x : Except ε α) : Prop := ∀ e, x = .error e → P e

namespace FailsOnly

variable {P Q : ε → Prop}

theorem ok (a : α) : FailsOnly P (.ok a : Except ε α) := fun _ h => by cases h

theorem error {e : ε} (h : P e) : FailsOnly P (.error e : Except ε α) := by
  rintro _ ⟨⟩
  exact h

theorem mono {x : Except ε α} (h : FailsOnly P x) (hpq : ∀ e, P e → Q e) : FailsOnly Q x :=
  fun e he => hpq e (h e he)

theorem bind {x : Except ε α} {f : α → Except ε β} (h : FailsOnly P x)
    (hf : ∀ a, FailsOnly P (f a)) : FailsOnly P (x >>= f) := by
  intro e he
  rcases except_bind_eq_error.mp he with hx | ⟨a, -, ha⟩
  · exact h e hx
  · exact hf a e ha

theorem run_bind {x : ExceptT ε Id α} {f : α → ExceptT ε Id β} (h : FailsOnly P x.run)
    (hf : ∀ a, FailsOnly P (f a).run) : FailsOnly P (x >>= f).run := by
  have hrun : (x >>= f).run = ExceptT.bindCont f x.run := rfl
  rw [hrun]
  generalize x.run = outcome at h
  cases (outcome : Except ε α) with
  | error e =>
    rintro _ ⟨⟩
    exact h e rfl
  | ok a => exact hf a

theorem run_liftM_bind {x : Id α} {f : α → ExceptT ε Id β} (h : FailsOnly P (f x.run).run) :
    FailsOnly P ((liftM x : ExceptT ε Id α) >>= f).run := h

end FailsOnly

end Formula
