import Basilica.CollateralAccounts

namespace Basilica.Collateral

open CallTrees CheckedSteps

def Storage.Payable (s : Storage) (now id : ℕ) : Prop :=
  0 < (s.reclaims id).amount ∧ (s.reclaims id).denyTimeout.toNat < now ∧
    (s.reclaims id).amount ≤ s.collaterals (s.reclaims id).key

instance (s : Storage) (now id : ℕ) : Decidable (s.Payable now id) :=
  inferInstanceAs (Decidable (_ ∧ _ ∧ _))

def PaysInFull (now : ℕ) (c : Call) (w : World) : Prop :=
  ∀ id ∈ c.finalizeId, w.storage.Payable now id →
    w.storage.collaterals (w.storage.reclaims id).key = (w.storage.reclaims id).amount

instance (now : ℕ) (c : Call) (w : World) : Decidable (PaysInFull now c w) :=
  (Option.decidableForallMem _ : Decidable (∀ id ∈ c.finalizeId, _ → _))

variable {now : ℕ} {w : World} {k : Key}

theorem PaysInFull.remaining {c : Call} (h : PaysInFull now c w) {id : ℕ}
    (hmethod : c.method = .finalizeReclaim id) (hkey : (w.storage.reclaims id).key = k)
    (hamount : 0 < (w.storage.reclaims id).amount)
    (htime : (w.storage.reclaims id).denyTimeout.toNat < now)
    (hcollateral : (w.storage.reclaims id).amount ≤ w.storage.collaterals k) :
    w.storage.collaterals k - (w.storage.reclaims id).amount = 0 := by
  subst hkey
  have hfull := h id (by simp [Call.finalizeId, hmethod]) ⟨hamount, htime, hcollateral⟩
  omega

theorem ReachableBy.owned (h : ReachableBy PaysInFull w) (k : Key) :
    0 < w.storage.collaterals k → w.storage.executorToMiner k ≠ 0 := by
  apply account_invariant (fun (_ : Unit) _ => ()) ()
    (fun a _ => 0 < a.collateral → a.owner ≠ 0) _ _ h
  · intro hpos
    exact absurd hpos (Nat.lt_irrefl 0)
  · intro now c w e a _ hg hw hacc
    cases hacc with
    | deposit => exact fun _ => c.sender_ne_zero
    | reclaim | deny | other => exact hw
    | finalize id hmethod hkey hamount htime hpending hcollateral =>
      intro hpos
      exact absurd (hg.remaining hmethod hkey hamount htime hcollateral) (Nat.pos_iff_ne_zero.mp hpos)
    | slash => exact fun hpos => absurd hpos (Nat.lt_irrefl 0)

variable {w' : World} {msg : Msg}

theorem deposit_foreign (hzero : w.storage.executorToMiner k ≠ 0) (hother : msg.sender ≠ w.storage.executorToMiner k) :
    deposit now msg k.1 k.2 w ≠ .ok w' := by
  intro h
  simp only [deposit, bind_ok_iff, revertIf_eq_ok, exists_const] at h
  obtain ⟨_, h⟩ := h
  rw [if_neg hzero] at h
  simp only [bind_ok_iff, revertIf_eq_ok, ne_eq, not_not, exists_const] at h
  exact hother h.1.symm

theorem reclaim_foreign {url : String} {md5 : Bytes16} (hother : msg.sender ≠ w.storage.executorToMiner k) :
    reclaimCollateral now msg k.1 k.2 url md5 w ≠ .ok w' := by
  intro h
  simp only [reclaimCollateral, bind_ok_iff, revertIf_eq_ok, ne_eq, not_not, exists_const] at h
  exact hother h.1

theorem owned_of_full_payouts (w : World) (h : ReachableBy PaysInFull w) (k : Key)
    (hpos : 0 < w.storage.collaterals k) : w.storage.executorToMiner k ≠ 0 ∧
      ∀ now msg, msg.sender ≠ w.storage.executorToMiner k →
        (∀ w', deposit now msg k.1 k.2 w ≠ .ok w') ∧
        ∀ url md5 w', reclaimCollateral now msg k.1 k.2 url md5 w ≠ .ok w' := by
  have howner := h.owned k hpos
  refine ⟨howner, ?_⟩
  intro now msg hother
  constructor
  · intro w'
    exact deposit_foreign howner hother
  · intro url md5 w'
    exact reclaim_foreign hother

def topUpUnderReclaim : History :=
  [tx 100 alice 5 (.deposit 1 2),
   tx 105 alice 0 (.reclaimCollateral 1 2 "" 0),
   tx 110 alice 3 (.deposit 1 2),
   tx 200 alice 0 (.finalizeReclaim 0)]

theorem payout_orphans_collateral :
    let w := final topUpUnderReclaim (World.deployed sampleStorage)
    Reachable w ∧ w.storage.collaterals (1, 2) = 3 ∧ w.storage.executorToMiner (1, 2) = 0 ∧
      -- Any other miner takes the key over with a deposit of the minimum.
      ((deposit 210 (sampleCall bob 1 .receive).toMsg 1 2 w).map
        (fun w' => (w'.storage.executorToMiner (1, 2), w'.storage.collaterals (1, 2)))).toOption =
          some (8, 4) :=
  ⟨reachable_final _, by decide, by decide, by decide⟩

def topUpThenDeny : History :=
  [tx 100 alice 5 (.deposit 1 2),
   tx 105 alice 0 (.reclaimCollateral 1 2 "" 0),
   tx 110 alice 3 (.deposit 1 2),
   tx 111 sampleTrustee 0 (.denyReclaimRequest 0 "" 0),
   tx 120 alice 0 (.reclaimCollateral 1 2 "" 0),
   (200, .call (sampleCall alice 0 (.finalizeReclaim 1))
      (.call (sampleCall alice 2 (.deposit 1 2)) (.stop true) (.stop true)) (.stop true))]

theorem owned_topUpThenDeny :
    let w := final topUpThenDeny (World.deployed sampleStorage)
    w.storage.collaterals (1, 2) = 2 ∧ w.storage.executorToMiner (1, 2) ≠ 0 :=
  ⟨by decide, (owned_of_full_payouts _ ⟨_, topUpThenDeny, sampleStorage_deployed, by decide,
    final_mem_visited _ _⟩ (1, 2) (by decide)).1⟩

end Basilica.Collateral
