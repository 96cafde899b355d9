/-!
# Outcomes

Equations that open a chain of steps each of which may fail. The normal form is a chain of binds
that ends in a value. The last rules say with which errors a chain may fail.
-/

namespace BuildConstants.Outcome

variable {ε α β : Type}

@[simp] theorem pure_eq_ok (a : α) : (pure a : Except ε α) = .ok a := rfl

@[simp] theorem ok_bind (a : α) (f : α → Except ε β) : (Except.ok a >>= f) = f a := rfl

@[simp] theorem error_bind (e : ε) (f : α → Except ε β) : (Except.error e >>= f) = .error e := rfl

@[simp] theorem bind_ok (x : Except ε α) : (x >>= fun a => .ok a) = x := by
  cases x <;> rfl

@[simp] theorem map_eq_bind (f : α → β) (x : Except ε α) : f <$> x = x >>= fun a => .ok (f a) := by
  cases x <;> rfl

theorem bind_eq_ok_iff {x : Except ε α} {f : α → Except ε β} {b : β} :
    (x >>= f) = .ok b ↔ ∃ a, x = .ok a ∧ f a = .ok b := by
  cases x with
  | error e => simp
  | ok a => simp

section FailsOnly

variable {P : ε → Prop} {x : Except ε α}

/-- A computation that fails, if at all, with an error of one sort. -/
def FailsOnly (P : ε → Prop) (x : Except ε α) : Prop :=
  ∀ e, x = .error e → P e

theorem failsOnly_ok (a : α) : FailsOnly P (.ok a : Except ε α) :=
  nofun

theorem failsOnly_error {e : ε} (h : P e) : FailsOnly P (.error e : Except ε α) := by
  rintro _ ⟨⟩
  exact h

theorem FailsOnly.bind {f : α → Except ε β} (hx : FailsOnly P x)
    (hf : ∀ a, x = .ok a → FailsOnly P (f a)) : FailsOnly P (x >>= f) := by
  intro e he
  cases x with
  | error e' =>
    cases he
    exact hx _ rfl
  | ok a => exact hf a rfl e he

theorem FailsOnly.mono {Q : ε → Prop} (h : FailsOnly P x) (hPQ : ∀ e, P e → Q e) :
    FailsOnly Q x :=
  fun e he => hPQ e (h e he)

end FailsOnly

end BuildConstants.Outcome
