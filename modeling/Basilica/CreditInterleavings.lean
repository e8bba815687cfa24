import Basilica.CreditManager

/-!
Operations of the credit manager interleaved call by call.
-/

namespace Basilica.Billing

open AtomicCalls Calls RowLocks List

abbrev ManagerPool (ι : Type) := Pool RowCall RowCall.Answer Row BillingError Reply CreditTables ι

section Interleavings

variable {ι : Type} [DecidableEq ι]

def SequentialOutcome (ops : ι → ManagerOp) (start : CreditTables) (final : ManagerPool ι) : Prop :=
  ∃ order : List ι, order.Nodup ∧ (∀ i, i ∈ order) ∧
    (∀ user, final.db.credits.get? user = (inOrder serveRow (fun i => (ops i).calls) order start).2.credits.get? user) ∧
    ∀ i, (∃ reply, (final.threads i).rest = done (.ok reply)) ↔
      ∃ reply, (i, .ok reply) ∈ (inOrder serveRow (fun i => (ops i).calls) order start).1

theorem isolated_operations_sequential (ops : ι → ManagerOp) (start : CreditTables) (schedule : List ι)
    (hisolated : IsolatedRun creditRows (begin (fun i => (ops i).calls) start) schedule)
    (hdone : ∀ i, ∃ r, ((runs creditRows (begin (fun i => (ops i).calls) start) schedule).threads i).rest = done r) :
    SequentialOutcome ops start (runs creditRows (begin (fun i => (ops i).calls) start) schedule) := by
  obtain ⟨order, hnodup, hall, hrows, hresults⟩ :=
    isolated_runs_serial (fun i _ h => by cases hop : ops i <;> rw [hop] at h <;> cases h) hisolated hdone
  refine ⟨order, hnodup, hall, ?_, ?_⟩
  · intro user
    exact Sum.inl.inj (hrows (.account user))
  · intro i
    exact exists_congr (fun reply => (hresults i (.ok reply)).symm)

end Interleavings

def aliceAndBob : CreditTables :=
  (CreditTables.empty.ensureAccount "alice" .zero).ensureAccount "bob" ⟨⟨8000000⟩, ⟨0⟩, ⟨0⟩, by decide, by decide⟩

def applyAndCharge : Fin 3 → ManagerOp
  | 0 => .applyCredits "alice" ⟨10000000⟩
  | 1 => .chargeCredits "alice" ⟨4000000⟩
  | 2 => .chargeCredits "bob" ⟨5000000⟩

theorem isolated_apply_and_charge : SequentialOutcome applyAndCharge aliceAndBob
    (runs creditRows (begin (fun i => (applyAndCharge i).calls) aliceAndBob) [0, 2, 0, 1, 2, 1]) := by
  apply isolated_operations_sequential
  · decide +kernel
  · have hresult : ∀ i, ((runs creditRows (begin (fun i => (applyAndCharge i).calls) aliceAndBob)
        [0, 2, 0, 1, 2, 1]).threads i).rest.result?.isSome := by decide +kernel
    intro i
    obtain ⟨r, hr⟩ := Option.isSome_iff_exists.mp (hresult i)
    exact ⟨r, result?_eq_some.mp hr⟩

def bothApply : Fin 2 → ManagerOp := fun _ => .applyCredits "alice" ⟨10000000⟩

theorem interleaved_applies_lose_credit :
    let final := runs creditRows (begin (fun i => (bothApply i).calls) aliceAndBob) [0, 1, 0, 1]
    (∀ i, ∃ reply, (final.threads i).rest = done (.ok reply)) ∧ ¬ SequentialOutcome bothApply aliceAndBob final := by
  intro final
  constructor
  · have hresult : ∀ i, (final.threads i).rest.result? = some (.ok (.amount ⟨10000000⟩)) := by decide +kernel
    intro i
    exact ⟨_, result?_eq_some.mp (hresult i)⟩
  · rintro ⟨order, hnodup, hall, hrows, -⟩
    have hperm : order.Perm (finRange 2) := by
      apply (perm_ext_iff_of_nodup hnodup (nodup_finRange 2)).mpr
      intro i
      simp only [hall, mem_finRange]
    obtain ⟨i, j, rfl⟩ := length_eq_two.mp (hperm.length_eq.trans (length_finRange))
    have hne : i ≠ j := by simpa using hnodup
    have hlost : (final.db.credits.get? "alice").map CreditsRow.balance = some ⟨10000000⟩ := by decide +kernel
    have hkept : ∀ i j, i ≠ j → ((inOrder serveRow (fun i => (bothApply i).calls) [i, j]
        aliceAndBob).2.credits.get? "alice").map CreditsRow.balance = some ⟨20000000⟩ := by decide +kernel
    rw [hrows, hkept i j hne] at hlost
    cases hlost

end Basilica.Billing
