import Mathlib

namespace Basilica.Statements

open Option

variable {δ ε α β : Type}

/-- The stored data, and how many more statements succeed (`none`: all of them). -/
structure Connection (δ : Type) where
  db : δ
  left : Option ℕ

abbrev Program (δ ε α : Type) := EStateM ε (Connection δ) α

def Connection.next (c : Connection δ) (db : δ) : Connection δ := ⟨db, c.left.map (· - 1)⟩

@[simp] theorem Connection.next_db (c : Connection δ) (db : δ) : (c.next db).db = db := rfl

@[simp] theorem Connection.next_left (c : Connection δ) (db : δ) : (c.next db).left = c.left.map (· - 1) := rfl

def Allows (left : Option ℕ) (k : ℕ) : Prop := ∀ n ∈ left, k ≤ n

instance (left : Option ℕ) (k : ℕ) : Decidable (Allows left k) :=
  (Option.decidableForallMem _ : Decidable (∀ n ∈ left, k ≤ n))

theorem allows_none (k : ℕ) : Allows none k := by
  intro n hn
  cases hn

variable {left : Option ℕ} {k : ℕ}

theorem allows_succ_iff : Allows left (k + 1) ↔ left ≠ some 0 ∧ Allows (left.map (· - 1)) k := by
  cases left with
  | none => simp [Allows]
  | some n =>
    simp only [Allows, mem_def, some.injEq, forall_eq', ne_eq, map_some]
    omega

variable {j : ℕ}

theorem Allows.mono (h : Allows left k) (hjk : j ≤ k) : Allows left j :=
  fun n hn => hjk.trans (h n hn)

theorem Allows.sub (h : Allows left (j + k)) : Allows (left.map (· - j)) k := by
  cases left with
  | none => exact allows_none k
  | some n =>
    simp only [Allows, mem_def, some.injEq, forall_eq', map_some] at h ⊢
    omega

theorem Allows.ne_zero (h : Allows left (k + 1)) : left ≠ some 0 :=
  (allows_succ_iff.mp h).1

/-- One atomic statement: it takes effect as a whole or leaves the data as they were. -/
def statement (fault : ε) (f : δ → Except ε (α × δ)) : Program δ ε α := fun c =>
  if c.left = some 0 then .error fault c
  else match f c.db with
    | .error e => .error e c
    | .ok (a, db) => .ok a (c.next db)

variable {fault : ε} {c c' : Connection δ} {a : α}

theorem statement_ok_iff {f : δ → Except ε (α × δ)} :
    statement fault f c = .ok a c' ↔ c.left ≠ some 0 ∧ ∃ db, f c.db = .ok (a, db) ∧ c' = c.next db := by
  unfold statement
  by_cases h0 : c.left = some 0
  · simp [h0]
  · cases hf : f c.db with
    | error e => simp [h0]
    | ok p =>
      obtain ⟨x, db⟩ := p
      simp only [h0, ↓reduceIte, ne_eq, not_false_eq_true, true_and, Except.ok.injEq, Prod.mk.injEq]
      constructor
      · intro h
        cases h
        exact ⟨db, ⟨rfl, rfl⟩, rfl⟩
      · rintro ⟨_, ⟨rfl, rfl⟩, rfl⟩
        rfl

variable {e : ε}

theorem statement_error {f : δ → Except ε (α × δ)} (h : statement fault f c = .error e c') : c' = c := by
  unfold statement at h
  split_ifs at h
  · cases h
    rfl
  · cases hf : f c.db with
    | error e' =>
      rw [hf] at h
      cases h
      rfl
    | ok p =>
      rw [hf] at h
      cases h

theorem statement_total_iff {a : δ → α} {g : δ → δ} {x : α} :
    statement fault (fun db => .ok (a db, g db)) c = .ok x c' ↔
      c.left ≠ some 0 ∧ x = a c.db ∧ c' = c.next (g c.db) := by
  rw [statement_ok_iff]
  constructor
  · rintro ⟨h0, _, h, rfl⟩
    cases h
    exact ⟨h0, rfl, rfl⟩
  · rintro ⟨h0, rfl, rfl⟩
    exact ⟨h0, _, rfl, rfl⟩

variable {f : α → Program δ ε β} {x : Program δ ε α}

theorem seq_ok_iff {b : β} : (x >>= f) c = .ok b c' ↔ ∃ a m, x c = .ok a m ∧ f a m = .ok b c' := by
  change EStateM.bind x f c = .ok b c' ↔ _
  unfold EStateM.bind
  cases hx : x c with
  | ok a m =>
    constructor
    · intro h
      exact ⟨a, m, rfl, h⟩
    · rintro ⟨a', m', h, hf⟩
      cases h
      exact hf
  | error e m => simp

variable {m : Connection δ}

theorem seq_ok (h : x c = .ok a m) : (x >>= f) c = f a m := by
  change EStateM.bind x f c = _
  rw [EStateM.bind, h]

theorem seq_error (h : x c = .error e m) : (x >>= f) c = .error e m := by
  change EStateM.bind x f c = _
  rw [EStateM.bind, h]

theorem pure_ok_iff {b : α} : (pure a : Program δ ε α) c = .ok b c' ↔ b = a ∧ c' = c := by
  change (EStateM.Result.ok a c : EStateM.Result ε (Connection δ) α) = .ok b c' ↔ _
  constructor
  · intro h
    cases h
    exact ⟨rfl, rfl⟩
  · rintro ⟨rfl, rfl⟩
    rfl

theorem throw_not_ok : (throw e : Program δ ε α) c ≠ .ok a c' := by
  intro h
  cases h

def finalDb : EStateM.Result ε (Connection δ) α → δ
  | .ok _ c => c.db
  | .error _ c => c.db

theorem seq_error_db (hx : finalDb (x c) = c.db) (hf : ∀ a m e c', f a m = .error e c' → c'.db = m.db)
    (h : (x >>= f) c = .error e c') : c'.db = c.db := by
  cases hxc : x c with
  | ok a m =>
    rw [seq_ok hxc] at h
    rw [hxc] at hx
    exact (hf a m e c' h).trans hx
  | error e' m =>
    rw [seq_error hxc] at h
    cases h
    rw [hxc] at hx
    exact hx

def fromExcept : Except ε α → Program δ ε α
  | .ok a => pure a
  | .error e => throw e

end Basilica.Statements
