import Basilica.CollateralRuns
import Basilica.Tallies

namespace Basilica.Collateral

open CallTrees CheckedSteps FiniteTotals

def Funded (w : World) : Prop := w.balance = ∑ k, w.storage.collaterals k

variable {now : ℕ} {c : Call} {w : World}

theorem Funded.step {w' : World} (hw : Funded w) (h : Step now c w w') : Funded w' := by
  unfold Funded at hw ⊢
  cases h with
  | deposit hotkey executorId =>
    have hsum := sum_update_add w.storage.collaterals (hotkey, executorId)
      (w.storage.collaterals (hotkey, executorId) + c.value)
    simp only [Storage.afterDeposit]
    omega
  | reclaim | deny => exact hw
  | finalize id r hmethod hr hamount htime hpending hcollateral hbalance =>
    have hsum := sum_update_add w.storage.collaterals r.key (w.storage.collaterals r.key - r.amount)
    subst hr
    simp only [Storage.afterFinalize]
    omega
  | slash hotkey executorId url md5 hmethod htrustee hamount hbalance =>
    have hsum := sum_update_add w.storage.collaterals (hotkey, executorId) 0
    simp only [Storage.afterSlash]
    omega
  | update _ _ _ _ _ _ hs => subst hs; exact hw

theorem Reachable.funded (h : Reachable w) : Funded w :=
  reachable_invariant (fun _ hs => by simp [Funded, World.deployed, hs.collaterals]) (fun _ _ _ _ _ hw hs => hw.step hs) h

@[simp] theorem emit_balance (now : ℕ) (msg : Msg) (e : Event) (w : World) :
    (w.emit now msg e).balance = w.balance := rfl

theorem enter_revert {e : Error} (h : enter now c w = .revert e) :
    execute now c.toMsg { w with balance := w.balance + c.value } c.method = .error e := by
  unfold enter at h
  cases he : execute now c.toMsg { w with balance := w.balance + c.value } c.method with
  | error e' =>
    simp only [he] at h
    exact congrArg Except.error (Outcome.revert.inj h)
  | ok w' =>
    simp only [he] at h
    split at h <;> cases h

variable {msg : Msg}

theorem finalize_funds (hw : Funded w) (id : ℕ) : finalizeReclaim now msg id w ≠ .error .transferFailed := by
  intro h
  simp only [finalizeReclaim, bind_error_iff, revertIf_eq_error, revertIf_eq_ok, checkedSub_eq_error,
    checkedSub_eq_ok, reduceCtorEq, and_false, false_or, exists_const] at h
  obtain ⟨_, _, _, ⟨_, rfl⟩, hcollateral, _, ⟨_, rfl⟩, h⟩ := h
  have hlt : w.balance < (w.storage.reclaims id).amount := by
    rcases h with h | ⟨_, _, h⟩
    · simpa using (send_error h).2
    · cases h
  have hle := apply_le_sum w.storage.collaterals (w.storage.reclaims id).key
  have hb : w.balance = ∑ k, w.storage.collaterals k := hw
  omega

theorem slash_funds (hw : Funded w) (hotkey : Bytes32) (executorId : Bytes16) (url : String) (md5 : Bytes16) :
    slashCollateral now msg hotkey executorId url md5 w ≠ .error .transferFailed := by
  intro h
  simp only [slashCollateral, onlyTrustee, bind_error_iff, revertIf_eq_error, revertIf_eq_ok,
    reduceCtorEq, and_false, false_or, exists_const] at h
  obtain ⟨_, _, h⟩ := h
  have hlt : w.balance < w.storage.collaterals (hotkey, executorId) := by
    rcases h with h | ⟨_, _, h⟩
    · simpa using (send_error h).2
    · cases h
  have hle := apply_le_sum w.storage.collaterals (hotkey, executorId)
  have hb : w.balance = ∑ k, w.storage.collaterals k := hw
  omega

theorem nonPayable_error {value : ℕ} {x : Except Error World}
    (h : (do revertIf (value ≠ 0) Error.nonPayable; x) = .error .transferFailed) :
    value = 0 ∧ x = .error .transferFailed := by
  rcases (bind_error_iff _ _ _).mp h with h | ⟨_, h0, h⟩
  · simp at h
  · exact ⟨not_not.mp (revertIf_eq_ok.mp h0), h⟩

theorem enter_funds (hw : Funded w) (now : ℕ) (c : Call) : enter now c w ≠ .revert .transferFailed := by
  intro h
  have he := enter_revert h
  cases hm : c.method with
  | finalizeReclaim id =>
    rw [hm] at he
    obtain ⟨hvalue, he⟩ := nonPayable_error he
    rw [hvalue, Nat.add_zero] at he
    exact finalize_funds hw id he
  | slashCollateral hotkey executorId url md5 =>
    rw [hm] at he
    obtain ⟨hvalue, he⟩ := nonPayable_error he
    rw [hvalue, Nat.add_zero] at he
    exact slash_funds hw hotkey executorId url md5 he
  | deposit hotkey executorId =>
    rw [hm] at he
    simp only [execute, deposit, bind_error_iff, revertIf_eq_error, reduceCtorEq, and_false, false_or] at he
    obtain ⟨_, _, he⟩ := he
    split_ifs at he <;> simp [bind_error_iff, pure, Except.pure] at he
  | _ =>
    rw [hm] at he
    simp [execute, reclaimCollateral, denyReclaimRequest, updateTrustee, updateDecisionTimeout,
      updateMinCollateralIncrease, onlyTrustee, onlyAdmin, bind_error_iff, pure, Except.pure] at he

theorem contract_solvent (w : World) (h : Reachable w) :
    w.balance = ∑ k, w.storage.collaterals k ∧ ∀ now c, enter now c w ≠ .revert .transferFailed :=
  ⟨h.funded, enter_funds h.funded⟩

def redepositDuringPayout : History :=
  [tx 100 alice 5 (.deposit 1 2),
   tx 110 alice 0 (.reclaimCollateral 1 2 "" 0),
   (200, .call (sampleCall carol 0 (.finalizeReclaim 0))
      (.call (sampleCall alice 3 (.deposit 1 2)) (.stop true) (.stop true)) (.stop true))]

theorem contract_solvent_redeposit :
    let w := final redepositDuringPayout (World.deployed sampleStorage)
    w.balance = 3 ∧ w.balance = ∑ k, w.storage.collaterals k :=
  ⟨by decide, (contract_solvent _ (reachable_final _)).1⟩

def Event.deposited : Event → ℕ
  | .deposit e => e.amount
  | _ => 0

def Event.burnt : Event → ℕ
  | .slashed e => e.amount
  | _ => 0

def Conserved (w : World) : Prop := (w.log.map (fun r => r.event.deposited)).sum =
  w.balance + (w.payments.map Payment.amount).sum + (w.log.map (fun r => r.event.burnt)).sum

theorem ether_conserved (w : World) (h : Reachable w) : Conserved w := by
  refine reachable_invariant (fun _ _ => rfl) ?_ h
  intro now c w w' _ hw hstep
  unfold Conserved at hw ⊢
  cases hstep with
  | update _ _ _ e s he =>
    have hnone : e.deposited = 0 ∧ e.burnt = 0 := by cases e <;> first | exact ⟨rfl, rfl⟩ | cases he
    simp only [World.logWith, List.map_append, List.sum_append, List.map_cons, List.map_nil, List.sum_singleton, hnone]
    exact hw
  | _ =>
    simp only [World.logWith, List.map_append, List.sum_append, List.map_cons, List.map_nil, List.sum_singleton,
      Event.deposited, Event.burnt] at hw ⊢
    omega

theorem ether_conserved_redeposit : Conserved (final redepositDuringPayout (World.deployed sampleStorage)) :=
  ether_conserved _ (reachable_final _)

end Basilica.Collateral
