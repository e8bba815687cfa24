import Mathlib

namespace Basilica.CheckedSteps

variable {ε α β : Type}

def revertIf (c : Prop) [Decidable c] (e : ε) : Except ε Unit :=
  if c then .error e else .ok ()

def checkedAdd (overflow : ε) (bits a b : ℕ) : Except ε ℕ :=
  if a + b < 2 ^ bits then .ok (a + b) else .error overflow

def checkedSub (underflow : ε) (a b : ℕ) : Except ε ℕ :=
  if b ≤ a then .ok (a - b) else .error underflow

def saturatingAdd (bits a b : ℕ) : ℕ := min (a + b) (2 ^ bits - 1)

def saturatingSub (a b : ℕ) : ℕ := a - b

theorem bind_ok_iff (x : Except ε α) (f : α → Except ε β) (b : β) : x >>= f = .ok b ↔ ∃ a, x = .ok a ∧ f a = .ok b := by
  rcases x with e | a
  · simp only [reduceCtorEq, false_and, exists_false, iff_false]
    exact fun h => nomatch h
  · simp only [Except.ok.injEq, exists_eq_left']
    exact Iff.rfl

theorem bind_error_iff (x : Except ε α) (f : α → Except ε β) (e : ε) :
    x >>= f = .error e ↔ x = .error e ∨ ∃ a, x = .ok a ∧ f a = .error e := by
  rcases x with e' | a
  · simp only [reduceCtorEq, false_and, exists_false, or_false, Except.error.injEq]
    exact ⟨fun h => Except.error.inj h, fun h => congrArg Except.error h⟩
  · simp only [reduceCtorEq, false_or, Except.ok.injEq, exists_eq_left']
    exact Iff.rfl

theorem bind_congr_ok {x : Except ε α} {f g : α → Except ε β} (h : ∀ a, x = .ok a → f a = g a) : x >>= f = x >>= g := by
  rcases x with e | a
  · rfl
  · exact h a rfl

variable {e : ε}

@[simp] theorem revertIf_eq_ok {c : Prop} [Decidable c] {u : Unit} : revertIf c e = .ok u ↔ ¬ c := by
  by_cases h : c <;> simp [revertIf, h]

variable {e' : ε}

@[simp] theorem revertIf_eq_error {c : Prop} [Decidable c] : revertIf c e = .error e' ↔ c ∧ e = e' := by
  by_cases h : c <;> simp [revertIf, h]

variable {c bits a b : ℕ}

@[simp] theorem checkedAdd_eq_ok : checkedAdd e bits a b = .ok c ↔ a + b < 2 ^ bits ∧ a + b = c := by
  by_cases h : a + b < 2 ^ bits <;> simp [checkedAdd, h]

@[simp] theorem checkedAdd_eq_error : checkedAdd e bits a b = .error e' ↔ 2 ^ bits ≤ a + b ∧ e = e' := by
  by_cases h : a + b < 2 ^ bits
  · simp [checkedAdd, h, Nat.not_le.mpr h]
  · simp [checkedAdd, h, Nat.le_of_not_lt h]

@[simp] theorem checkedSub_eq_ok : checkedSub e a b = .ok c ↔ b ≤ a ∧ a - b = c := by
  by_cases h : b ≤ a <;> simp [checkedSub, h]

@[simp] theorem checkedSub_eq_error : checkedSub e a b = .error e' ↔ a < b ∧ e = e' := by
  by_cases h : b ≤ a
  · simp [checkedSub, h, Nat.not_lt.mpr h]
  · simp [checkedSub, h, Nat.lt_of_not_le h]

theorem saturatingAdd_eq (h : a + b < 2 ^ bits) : saturatingAdd bits a b = a + b := by
  unfold saturatingAdd
  omega

section Alike

variable {ε' α' β' : Type} {r : α → α' → Prop} {x : Except ε α} {x' : Except ε' α'}

/-- Both results are failures, or both are values that `r` relates. -/
def Alike (r : α → α' → Prop) : Except ε α → Except ε' α' → Prop
  | .ok a, .ok a' => r a a'
  | .error _, .error _ => True
  | .ok _, .error _ => False
  | .error _, .ok _ => False

theorem Alike.bind {q : β → β' → Prop} {f : α → Except ε β} {f' : α' → Except ε' β'} (h : Alike r x x')
    (hf : ∀ a a', r a a' → Alike q (f a) (f' a')) : Alike q (x >>= f) (x' >>= f') := by
  rcases x with e | a <;> rcases x' with e' | a'
  · exact trivial
  · exact h.elim
  · exact h.elim
  · exact hf a a' h

theorem alike_self (x : Except ε α) : Alike (fun a a' => a = a') x x := by
  rcases x with e | a
  · exact trivial
  · exact rfl

theorem alike_of_errors (h : ∀ a, x ≠ .ok a) (h' : ∀ a, x' ≠ .ok a) : Alike r x x' := by
  rcases x with e | a
  · rcases x' with e' | a'
    · exact trivial
    · exact absurd rfl (h' a')
  · exact absurd rfl (h a)

end Alike

end Basilica.CheckedSteps
