/-
Guarded computations in `Except`: the two shapes a Rust handler is made of
(`require!` and `ok_or_else(..)?`) and the rules that take a finished
computation apart again, one guard at a time.
-/

namespace Guard

variable {ε α β : Type _}

/-- `require!(condition, error)`. -/
def require (condition : Prop) [Decidable condition] (error : ε) : Except ε Unit :=
  if condition then .ok () else .error error

/-- `option.ok_or_else(|| error)`. -/
def okOr (value : Option α) (error : ε) : Except ε α :=
  match value with
  | some a => .ok a
  | none => .error error

theorem require_eq_ok_iff {condition : Prop} [Decidable condition] {error : ε} {u : Unit} :
    require condition error = .ok u ↔ condition := by
  by_cases h : condition <;> simp [require, h]

theorem require_eq_error_iff {condition : Prop} [Decidable condition] {error e : ε} :
    require condition error = .error e ↔ ¬ condition ∧ error = e := by
  by_cases h : condition <;> simp [require, h]

@[simp] theorem require_of_holds {condition : Prop} [Decidable condition] (error : ε)
    (h : condition) : require condition error = .ok () :=
  require_eq_ok_iff.mpr h

theorem okOr_eq_ok_iff {value : Option α} {error : ε} {a : α} :
    okOr value error = .ok a ↔ value = some a := by
  cases value <;> simp [okOr]

@[simp] theorem okOr_some (a : α) (error : ε) : okOr (some a) error = .ok a := rfl

@[simp] theorem okOr_none (error : ε) : okOr (none : Option α) error = .error error := rfl

theorem bind_eq_ok_iff {x : Except ε α} {f : α → Except ε β} {b : β} :
    (x >>= f) = .ok b ↔ ∃ a, x = .ok a ∧ f a = .ok b := by
  cases x <;> simp [bind, Except.bind]

theorem bind_eq_error_iff {x : Except ε α} {f : α → Except ε β} {e : ε} :
    (x >>= f) = .error e ↔ x = .error e ∨ ∃ a, x = .ok a ∧ f a = .error e := by
  cases x <;> simp [bind, Except.bind]

theorem require_bind_eq_ok_iff {condition : Prop} [Decidable condition] {error : ε}
    {f : Unit → Except ε β} {b : β} :
    (require condition error >>= f) = .ok b ↔ condition ∧ f () = .ok b := by
  by_cases h : condition <;> simp [require, h, bind, Except.bind]

@[simp] theorem ok_bind (a : α) (f : α → Except ε β) :
    ((.ok a : Except ε α) >>= f) = f a := rfl

@[simp] theorem error_bind (e : ε) (f : α → Except ε β) :
    ((.error e : Except ε α) >>= f) = .error e := rfl

theorem pure_eq_ok_iff {a b : α} : (pure a : Except ε α) = .ok b ↔ a = b := by
  simp [pure, Except.pure]

/-- A computation either finishes or names its error. -/
theorem ok_or_error (x : Except ε α) : (∃ a, x = .ok a) ∨ ∃ e, x = .error e := by
  cases x with
  | ok a => exact Or.inl ⟨a, rfl⟩
  | error e => exact Or.inr ⟨e, rfl⟩

theorem exists_ok_of_isOk {x : Except ε α} (h : x.isOk = true) : ∃ a, x = .ok a := by
  cases x with
  | ok a => exact ⟨a, rfl⟩
  | error e => contradiction

theorem toOption_eq_some_iff {x : Except ε α} {a : α} : x.toOption = some a ↔ x = .ok a := by
  cases x <;> simp [Except.toOption]

/-- A computation that always finishes finishes on every element of a list. -/
theorem exists_mapM_ok {γ : Type _} {f : α → Except ε β} {value : β → γ} {g : α → γ}
    (h : ∀ a, ∃ b, f a = .ok b ∧ value b = g a) (as : List α) :
    ∃ bs, as.mapM f = .ok bs ∧ bs.map value = as.map g := by
  induction as with
  | nil => exact ⟨[], rfl, rfl⟩
  | cons a rest ih =>
      obtain ⟨b, hb, hvalue⟩ := h a
      obtain ⟨bs, hbs, hvalues⟩ := ih
      refine ⟨b :: bs, ?_, ?_⟩
      · rw [List.mapM_cons, hb, ok_bind, hbs, ok_bind]
        rfl
      · rw [List.map_cons, List.map_cons, hvalue, hvalues]

/-! ### Which errors a computation can raise -/

/-- Every error the computation can raise satisfies `P`. -/
def ErrorsIn (P : ε → Prop) (x : Except ε α) : Prop :=
  ∀ e, x = .error e → P e

section ErrorsIn

variable {P : ε → Prop}

theorem ErrorsIn.pure (a : α) : ErrorsIn P (Pure.pure a : Except ε α) := by
  intro e he
  contradiction

theorem ErrorsIn.require {condition : Prop} [Decidable condition] {error : ε}
    (h : P error) : ErrorsIn P (require condition error) := by
  intro e he
  rw [← (require_eq_error_iff.mp he).2]
  exact h

theorem ErrorsIn.bind {x : Except ε α} {f : α → Except ε β} (hx : ErrorsIn P x)
    (hf : ∀ a, ErrorsIn P (f a)) : ErrorsIn P (x >>= f) := by
  intro e he
  rcases bind_eq_error_iff.mp he with hfirst | ⟨a, -, hsecond⟩
  · exact hx e hfirst
  · exact hf a e hsecond

/-- The rest may rely on what the first part returned. -/
theorem ErrorsIn.bind_of_ok {x : Except ε α} {f : α → Except ε β} (hx : ErrorsIn P x)
    (hf : ∀ a, x = .ok a → ErrorsIn P (f a)) : ErrorsIn P (x >>= f) := by
  intro e he
  rcases bind_eq_error_iff.mp he with hfirst | ⟨a, hok, hsecond⟩
  · exact hx e hfirst
  · exact hf a hok e hsecond

theorem ErrorsIn.okOr {value : Option α} {error : ε} (h : P error) :
    ErrorsIn P (okOr value error) := by
  intro e he
  cases value with
  | none =>
      obtain rfl := Except.error.inj he
      exact h
  | some a => contradiction

theorem ErrorsIn.of_ok {x : Except ε α} {a : α} (h : x = .ok a) : ErrorsIn P x := by
  intro e he
  rw [h] at he
  contradiction

end ErrorsIn

end Guard
