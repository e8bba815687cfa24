import Basilica.AtomicCalls

/-!
Whole runs of a program of calls: what every call keeps the run keeps, in the end and wherever it stops.
-/

namespace Basilica.AtomicCalls

open List

namespace Calls

variable {C : Type} {R : C → Type} {ε α β σ τ : Type} {serve : Server C R ε σ} {P : C → Prop}
  {p : Calls C R ε α} {f : α → Calls C R ε β}

theorem EachCall.run_view {g : σ → τ} (hserve : ∀ c s, P c → g (serve c s).2 = g s) (hp : EachCall P p) (s : σ) :
    g (run serve p s).2 = g s := by
  induction p generalizing s with
  | done r => rfl
  | call c next ih =>
    rw [run, ih _ (hp.2 _)]
    exact hserve c s hp.1

variable {s : σ} {I : σ → Prop}

theorem EachCall.trace_keeps (hserve : ∀ c s, P c → I s → I (serve c s).2) (hp : EachCall P p)
    (hs : I s) : ∀ s' ∈ trace serve p s, I s' := by
  induction p generalizing s with
  | done r => simp [trace]
  | call c next ih =>
    have hc := hserve c s hp.1 hs
    rw [trace]
    intro s' hs'
    rcases mem_cons.mp hs' with rfl | hs'
    · exact hc
    · exact ih _ (hp.2 _) hc s' hs'

theorem advance_keeps (hs : I s) (h : ∀ s' ∈ trace serve p s, I s') (n : ℕ) :
    I (advance serve n p s).2 := by
  induction n generalizing p s with
  | zero => exact hs
  | succ n ih =>
    cases p with
    | done r => exact hs
    | call c next =>
      rw [trace] at h
      rw [advance]
      exact ih (h _ mem_cons_self) (fun s' hs' => h s' (mem_cons_of_mem _ hs'))

theorem run_keeps (hs : I s) (h : ∀ s' ∈ trace serve p s, I s') : I (run serve p s).2 := by
  induction p generalizing s with
  | done r => exact hs
  | call c next ih =>
    rw [trace] at h
    rw [run]
    exact ih _ (h _ mem_cons_self) (fun s' hs' => h s' (mem_cons_of_mem _ hs'))

theorem run_bind_eq_ok {s' : σ} {b : β} :
    run serve (p >>= f) s = (.ok b, s') ↔ ∃ a s₁, run serve p s = (.ok a, s₁) ∧ run serve (f a) s₁ = (.ok b, s') := by
  constructor
  · intro h
    cases hrun : run serve p s with
    | mk r s₁ =>
      cases r with
      | error e =>
        rw [run_bind_error serve hrun] at h
        cases h
      | ok a =>
        rw [run_bind_ok serve hrun] at h
        exact ⟨a, s₁, rfl, h⟩
  · rintro ⟨a, s₁, hrun, h⟩
    rw [run_bind_ok serve hrun, h]

theorem mem_trace_bind {s' : σ} (h : s' ∈ trace serve (p >>= f) s) :
    s' ∈ trace serve p s ∨ ∃ a s₁, run serve p s = (.ok a, s₁) ∧ s' ∈ trace serve (f a) s₁ := by
  cases hrun : run serve p s with
  | mk r s₁ =>
    cases r with
    | error e =>
      left
      rwa [trace_bind_error serve hrun] at h
    | ok a =>
      rw [trace_bind_ok serve hrun, mem_append] at h
      rcases h with h | h
      · exact .inl h
      · exact .inr ⟨a, s₁, rfl, h⟩

theorem bind_assoc {γ : Type} (p : Calls C R ε α) (f : α → Calls C R ε β) (g : β → Calls C R ε γ) :
    p >>= f >>= g = p >>= fun a => f a >>= g := by
  change (p.bind f).bind g = p.bind (fun a => (f a).bind g)
  induction p with
  | done r => cases r <;> rfl
  | call c next ih => exact congrArg (call c) (funext ih)

section Mirrors

variable {D : Type} {S : D → Type} {γ δ : Type} {serve' : Server D S ε τ} {view : σ → τ}

def Mirrors (serve : Server C R ε σ) (serve' : Server D S ε τ) (view : σ → τ) (g : α → γ) (p : Calls C R ε α)
    (q : Calls D S ε γ) (s : σ) : Prop :=
  run serve' q (view s) = ((run serve p s).1.map g, view (run serve p s).2)

theorem Mirrors.bind {g : α → γ} {h : β → δ} {q : Calls D S ε γ} {f' : γ → Calls D S ε δ}
    (hp : Mirrors serve serve' view g p q s)
    (hf : ∀ a s₁, run serve p s = (.ok a, s₁) → Mirrors serve serve' view h (f a) (f' (g a)) s₁) :
    Mirrors serve serve' view h (p >>= f) (q >>= f') s := by
  unfold Mirrors at hp ⊢
  cases hrun : run serve p s with
  | mk r s₁ =>
    rw [hrun] at hp
    cases r with
    | error e =>
      rw [run_bind_error serve hrun, run_bind_error serve' hp]
      rfl
    | ok a =>
      rw [run_bind_ok serve hrun, run_bind_ok serve' hp]
      exact hf a s₁ hrun

end Mirrors

def Returns (serve : Server C R ε σ) (p : Calls C R ε α) : Prop := ∀ s, ∃ a, (run serve p s).1 = .ok a

theorem returns_pure (a : α) : Returns serve (pure a : Calls C R ε α) := fun _ => ⟨a, rfl⟩

theorem Returns.bind (hp : Returns serve p) (hf : ∀ a, Returns serve (f a)) : Returns serve (p >>= f) := by
  intro s
  obtain ⟨a, ha⟩ := hp s
  have hrun : run serve p s = (.ok a, (run serve p s).2) := Prod.ext ha rfl
  rw [run_bind_ok serve hrun]
  exact hf a _

end Calls

end Basilica.AtomicCalls
