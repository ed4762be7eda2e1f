import Mathlib.Data.List.Forall2

/-!
# Computations that stop at the first failure

What it takes for a chain of fallible steps to succeed: each step does, and the
rest succeeds on its result.
-/

namespace Bartok.Foundation

universe v

variable {ε ε' α : Type*}

/-- A missing value is the given failure. -/
def require (o : Option α) (failure : ε) : Except ε α :=
  match o with
  | none => .error failure
  | some a => .ok a

@[simp] theorem require_eq_ok {o : Option α} {failure : ε} {a : α} :
    require o failure = .ok a ↔ o = some a := by
  cases o <;> simp [require]

@[simp] theorem bind_eq_ok {α β : Type v} {x : Except ε α} {f : α → Except ε β} {b : β} :
    (x >>= f) = .ok b ↔ ∃ a, x = .ok a ∧ f a = .ok b := by
  cases x <;> simp [bind, Except.bind]

@[simp] theorem mapError_eq_ok {x : Except ε α} {f : ε → ε'} {a : α} :
    x.mapError f = .ok a ↔ x = .ok a := by
  cases x with
  | error e =>
      constructor
      · intro h
        cases h
      · intro h
        cases h
  | ok b =>
      show (Except.ok b : Except ε' α) = .ok a ↔ (Except.ok b : Except ε α) = .ok a
      rw [Except.ok.injEq, Except.ok.injEq]

theorem toOption_eq_some {x : Except ε α} {a : α} : x.toOption = some a ↔ x = .ok a := by
  cases x <;> simp [Except.toOption]

/-- A check that fails with an error. -/
theorem ite_error_eq_ok {c : Prop} [Decidable c] {failure : ε} {x : Except ε α} {a : α} :
    (if c then .error failure else x) = .ok a ↔ ¬ c ∧ x = .ok a := by
  by_cases hc : c <;> simp [hc]

/-- A chain over a list succeeds when each of its calls does. -/
theorem mapM_eq_ok {α β : Type v} {f : α → Except ε β} {xs : List α} {ys : List β} :
    xs.mapM f = .ok ys ↔ List.Forall₂ (fun x y => f x = .ok y) xs ys := by
  induction xs generalizing ys with
  | nil =>
      rw [List.mapM_nil, List.forall₂_nil_left_iff]
      constructor
      · intro h
        cases h
        rfl
      · rintro rfl
        rfl
  | cons x xs ih =>
      rw [List.mapM_cons, bind_eq_ok, List.forall₂_cons_left_iff]
      simp only [bind_eq_ok, ih, pure, Except.pure, Except.ok.injEq]
      constructor
      · rintro ⟨y, hy, ys, hys, rfl⟩
        exact ⟨y, ys, hy, hys, rfl⟩
      · rintro ⟨y, ys, hy, hys, rfl⟩
        exact ⟨y, hy, ys, hys, rfl⟩

end Bartok.Foundation
