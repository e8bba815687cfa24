import Basilica.CollateralAccounts

namespace Basilica.Collateral

open CallTrees CheckedSteps

def SlashesSettled (_ : ℕ) (c : Call) (w : World) : Prop :=
  ∀ k ∈ c.slashKey, c.sender = w.storage.trustee → 0 < w.storage.collaterals k →
    w.storage.collateralUnderPendingReclaims k = 0

instance (now : ℕ) (c : Call) (w : World) : Decidable (SlashesSettled now c w) :=
  (Option.decidableForallMem _ : Decidable (∀ k ∈ c.slashKey, _ → _ → _))

def sinceSlashStep (k : Key) (acc : Option (Address × ℕ)) : Event → Option (Address × ℕ)
  | .slashed e => if (e.hotkey, e.executorId) = k then some (0, 0) else acc
  | .deposit e => if (e.hotkey, e.executorId) = k then acc.map (fun a => (e.miner, a.2 + e.amount)) else acc
  | .reclaimProcessStarted e => if (e.hotkey, e.executorId) = k then none else acc
  | _ => acc

/-- `some (m, n)` when the key was slashed and no reclaim was opened for it since: `m` is the last
miner to deposit since the slash and `n` what has been deposited since. -/
def sinceSlash (k : Key) (log : List Record) : Option (Address × ℕ) :=
  foldLog (sinceSlashStep k) none log

variable {k : Key} {e : Event}

theorem sinceSlashStep_other (he : e.key ≠ some k) (acc : Option (Address × ℕ)) : sinceSlashStep k acc e = acc := by
  cases e <;> simp_all [sinceSlashStep, Event.key]

structure Account.Covered (a : Account) (since : Option (Address × ℕ)) : Prop where
  pending_le : a.pending ≤ a.collateral
  since : ∀ m n, since = some (m, n) → a.owner = m ∧ a.collateral = n ∧ a.pending = 0

variable {now : ℕ} {w : World}

theorem Account.Covered.step {c : Call} {a : Account} {since : Option (Address × ℕ)} (hg : SlashesSettled now c w)
    (h : (w.storage.account k).Covered since) (hs : AccountStep now c w.storage k e a) :
    a.Covered (sinceSlashStep k since e) := by
  obtain ⟨hle, hsince⟩ := h
  simp only [Storage.account] at hle hsince
  cases hs with
  | deposit hmethod hmin howner hbound =>
    constructor
    · exact hle.trans (Nat.le_add_right _ _)
    · intro m n h
      simp only [sinceSlashStep, ↓reduceIte, Option.map_eq_some_iff, Prod.exists, Prod.mk.injEq] at h
      obtain ⟨m', n', h, rfl, rfl⟩ := h
      obtain ⟨_, hn, hp⟩ := hsince m' n' h
      exact ⟨rfl, by rw [hn], hp⟩
  | reclaim id amount denyTimeout url md5 howner hpending hamount =>
    refine ⟨le_refl _, ?_⟩
    intro m n h
    simp [sinceSlashStep] at h
  | finalize id hmethod hkey hamount htime hpending hcollateral =>
    constructor
    · exact Nat.sub_le_sub_right hle _
    · intro m n h
      -- A reclaim of this key is pending, so the key is not fresh after a slash.
      have hp := (hsince m n h).2.2
      omega
  | deny id url md5 hkey hamount hpending =>
    constructor
    · exact (Nat.sub_le _ _).trans hle
    · intro m n h
      have hp := (hsince m n h).2.2
      omega
  | slash url md5 hmethod htrustee hamount =>
    have hp := hg k (by simp [Call.slashKey, hmethod]) htrustee hamount
    constructor
    · exact hp.le
    · intro m n h
      simp only [sinceSlashStep, ↓reduceIte, Option.some.injEq, Prod.mk.injEq] at h
      exact ⟨h.1, h.2, hp⟩
  | other e he =>
    rw [sinceSlashStep_other he]
    exact ⟨hle, hsince⟩

theorem ReachableBy.covered (h : ReachableBy SlashesSettled w) (k : Key) :
    (w.storage.account k).Covered (sinceSlash k w.log) := by
  apply account_invariant (sinceSlashStep k) none Account.Covered _ _ h
  · exact ⟨le_refl 0, fun m n h => nomatch h⟩
  · intro now c w e a _ hg hw hs
    exact hw.step hg hs

variable {msg : Msg} {hotkey : Bytes32} {executorId : Bytes16}

theorem reclaim_underflow {url : String} {md5 : Bytes16}
    (h : reclaimCollateral now msg hotkey executorId url md5 w = .error .arithmeticUnderflow) :
    w.storage.collaterals (hotkey, executorId) <
      w.storage.collateralUnderPendingReclaims (hotkey, executorId) := by
  simp only [reclaimCollateral, bind_error_iff, revertIf_eq_error, revertIf_eq_ok, checkedSub_eq_error,
    checkedSub_eq_ok, checkedAdd_eq_error, checkedAdd_eq_ok, reduceCtorEq, and_false, and_true, false_or,
    exists_const] at h
  obtain ⟨_, h | ⟨_, _, _, _, _, _, _, _, _, h⟩⟩ := h
  · exact h
  · cases h

theorem reclaim_opens (now : ℕ)
    (url : String) (md5 : Bytes16) (howner : msg.sender = w.storage.executorToMiner (hotkey, executorId))
    (hpending : w.storage.collateralUnderPendingReclaims (hotkey, executorId) = 0)
    (hpos : 0 < w.storage.collaterals (hotkey, executorId))
    (hbound : w.storage.collaterals (hotkey, executorId) < 2 ^ 256)
    (htime : now % 2 ^ 64 + w.storage.decisionTimeout.toNat < 2 ^ 64)
    (hnext : w.storage.nextReclaimId + 1 < 2 ^ 256) :
    ∃ w', reclaimCollateral now msg hotkey executorId url md5 w = .ok w' ∧
      (w'.storage.reclaims w.storage.nextReclaimId).miner = msg.sender ∧
      (w'.storage.reclaims w.storage.nextReclaimId).key = (hotkey, executorId) ∧
      (w'.storage.reclaims w.storage.nextReclaimId).amount =
        w.storage.collaterals (hotkey, executorId) := by
  simp only [reclaimCollateral, bind_ok_iff, revertIf_eq_ok, checkedSub_eq_ok, checkedAdd_eq_ok,
    exists_const, hpending, Nat.zero_add, Nat.sub_zero]
  refine ⟨_, ⟨not_not.mpr howner, _, ⟨Nat.zero_le _, rfl⟩, Nat.pos_iff_ne_zero.mp hpos, _,
    ⟨by simpa using htime, rfl⟩, _, ⟨hbound, rfl⟩, _, ⟨hnext, rfl⟩, rfl⟩, ?_⟩
  simp [Reclaim.key]

theorem covered_of_settled_slashes (w : World) (h : ReachableBy SlashesSettled w) :
    (∀ k, w.storage.collateralUnderPendingReclaims k ≤ w.storage.collaterals k) ∧
    (∀ now msg hotkey executorId url md5, msg.sender = w.storage.executorToMiner (hotkey, executorId) →
        reclaimCollateral now msg hotkey executorId url md5 w ≠ .error .arithmeticUnderflow) ∧
    (∀ now msg hotkey executorId url md5 deposited,
      sinceSlash (hotkey, executorId) w.log = some (msg.sender, deposited) → 0 < deposited →
        now % 2 ^ 64 + w.storage.decisionTimeout.toNat < 2 ^ 64 →
        w.storage.nextReclaimId + 1 < 2 ^ 256 →
        ∃ w', reclaimCollateral now msg hotkey executorId url md5 w = .ok w' ∧
          (w'.storage.reclaims w.storage.nextReclaimId).miner = msg.sender ∧
          (w'.storage.reclaims w.storage.nextReclaimId).key = (hotkey, executorId) ∧
          (w'.storage.reclaims w.storage.nextReclaimId).amount = deposited) := by
  refine ⟨fun k => (h.covered k).pending_le, ?_, ?_⟩
  · intro now msg hotkey executorId url md5 _ he
    have hlt := reclaim_underflow he
    exact absurd (h.covered (hotkey, executorId)).pending_le (Nat.not_le.mpr hlt)
  · intro now msg hotkey executorId url md5 deposited hsince hpos htime hnext
    obtain ⟨howner, rfl, hpending⟩ := (h.covered (hotkey, executorId)).since _ _ hsince
    exact reclaim_opens now url md5 howner.symm hpending hpos (h.reachable.collateral_lt _) htime hnext

def slashUnderReclaim : History :=
  [tx 100 alice 5 (.deposit 1 2),
   tx 105 alice 0 (.reclaimCollateral 1 2 "" 0),
   tx 110 sampleTrustee 0 (.slashCollateral 1 2 "" 0),
   tx 115 bob 3 (.deposit 1 2)]

theorem slash_uncovers_pending :
    let w := final slashUnderReclaim (World.deployed sampleStorage)
    Reachable w ∧ w.storage.collaterals (1, 2) < w.storage.collateralUnderPendingReclaims (1, 2) ∧
      w.storage.executorToMiner (1, 2) = 8 ∧
      reclaimCollateral 120 (sampleCall bob 0 .receive).toMsg 1 2 "" 0 w = .error .arithmeticUnderflow :=
  ⟨reachable_final _, by decide, by decide, rfl⟩

def slashThenDeposit : History :=
  [tx 100 alice 5 (.deposit 1 2),
   tx 110 sampleTrustee 0 (.slashCollateral 1 2 "" 0),
   tx 115 bob 3 (.deposit 1 2)]

theorem covered_slashThenDeposit :
    let w := final slashThenDeposit (World.deployed sampleStorage)
    w.storage.collaterals (1, 2) = 3 ∧
      ∃ w', reclaimCollateral 120 (sampleCall bob 0 .receive).toMsg 1 2 "" 0 w = .ok w' ∧
        (w'.storage.reclaims 0).miner = 8 ∧ (w'.storage.reclaims 0).key = (1, 2) ∧
        (w'.storage.reclaims 0).amount = 3 :=
  ⟨by decide, (covered_of_settled_slashes _ ⟨_, slashThenDeposit, sampleStorage_deployed, by decide,
    final_mem_visited _ _⟩).2.2 120 _ 1 2 "" 0 3 (by decide) (by decide) (by decide) (by decide)⟩

end Basilica.Collateral
