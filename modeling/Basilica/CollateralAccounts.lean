import Basilica.PendingReclaims

/-!
The contract seen from one key. A call touches at most one key, so every invariant that speaks of one
key is a case analysis over `AccountStep`.
-/

namespace Basilica.Collateral

open CallTrees CheckedSteps Function

structure Account where
  owner : Address
  collateral : ℕ
  pending : ℕ

def Storage.account (s : Storage) (k : Key) : Account :=
  ⟨s.executorToMiner k, s.collaterals k, s.collateralUnderPendingReclaims k⟩

def Event.key : Event → Option Key
  | .deposit e => some (e.hotkey, e.executorId)
  | .reclaimProcessStarted e => some (e.hotkey, e.executorId)
  | .reclaimed e => some (e.hotkey, e.executorId)
  | .slashed e => some (e.hotkey, e.executorId)
  | _ => none

theorem Event.key_update {e : Event} (he : e.isUpdate = true) : e.key = none := by
  cases e <;> first | rfl | simp [Event.isUpdate] at he

inductive AccountStep (now : ℕ) (c : Call) (s : Storage) (k : Key) : Event → Account → Prop
  | deposit (hmethod : c.method = .deposit k.1 k.2) (hmin : s.minCollateralIncrease ≤ c.value)
      (howner : s.executorToMiner k = 0 ∨ s.executorToMiner k = c.sender)
      (hbound : s.collaterals k + c.value < 2 ^ 256) :
      AccountStep now c s k (.deposit ⟨k.1, k.2, c.sender, c.value⟩)
        ⟨c.sender, s.collaterals k + c.value, s.collateralUnderPendingReclaims k⟩
  | reclaim (id amount : ℕ) (denyTimeout : UInt64) (url : String) (md5 : Bytes16)
      (howner : s.executorToMiner k = c.sender)
      (hpending : s.collateralUnderPendingReclaims k + amount = s.collaterals k) (hamount : 0 < amount) :
      AccountStep now c s k
        (.reclaimProcessStarted ⟨id, k.1, k.2, c.sender, amount, denyTimeout, url, md5⟩)
        ⟨s.executorToMiner k, s.collaterals k, s.collaterals k⟩
  | finalize (id : ℕ) (hmethod : c.method = .finalizeReclaim id) (hkey : (s.reclaims id).key = k)
      (hamount : 0 < (s.reclaims id).amount) (htime : (s.reclaims id).denyTimeout.toNat < now)
      (hpending : (s.reclaims id).amount ≤ s.collateralUnderPendingReclaims k)
      (hcollateral : (s.reclaims id).amount ≤ s.collaterals k) :
      AccountStep now c s k
        (.reclaimed ⟨id, k.1, k.2, (s.reclaims id).miner, (s.reclaims id).amount⟩)
        ⟨0, s.collaterals k - (s.reclaims id).amount, s.collateralUnderPendingReclaims k - (s.reclaims id).amount⟩
  | deny (id : ℕ) (url : String) (md5 : Bytes16) (hkey : (s.reclaims id).key = k)
      (hamount : 0 < (s.reclaims id).amount)
      (hpending : (s.reclaims id).amount ≤ s.collateralUnderPendingReclaims k) :
      AccountStep now c s k (.denied ⟨id, url, md5⟩)
        ⟨s.executorToMiner k, s.collaterals k, s.collateralUnderPendingReclaims k - (s.reclaims id).amount⟩
  | slash (url : String) (md5 : Bytes16) (hmethod : c.method = .slashCollateral k.1 k.2 url md5)
      (htrustee : c.sender = s.trustee) (hamount : 0 < s.collaterals k) :
      AccountStep now c s k
        (.slashed ⟨k.1, k.2, s.executorToMiner k, s.collaterals k, url, md5⟩)
        ⟨0, 0, s.collateralUnderPendingReclaims k⟩
  | other (e : Event) (he : e.key ≠ some k) : AccountStep now c s k e (s.account k)

theorem Step.account {now : ℕ} {c : Call} {w w' : World} (h : Step now c w w') (k : Key) :
    ∃ r, w'.log = w.log ++ [r] ∧ r.storage.collaterals = w'.storage.collaterals ∧
      AccountStep now c w.storage k r.event (w'.storage.account k) := by
  cases h with
  | deposit hotkey executorId hmethod hmin howner hbound =>
    refine ⟨_, rfl, rfl, ?_⟩
    by_cases hk : (hotkey, executorId) = k
    · subst hk
      simp only [Storage.account, Storage.afterDeposit, update_self]
      exact .deposit hmethod hmin howner hbound
    · simp only [Storage.account, Storage.afterDeposit, update_of_ne (Ne.symm hk)]
      exact .other _ (by simpa [Event.key] using hk)
  | reclaim hotkey executorId url md5 r hmethod howner hpending hamount htimeout hr =>
    refine ⟨_, rfl, rfl, ?_⟩
    have hkey : r.key = (hotkey, executorId) := by rw [hr]; rfl
    have ham : r.amount = w.storage.available (hotkey, executorId) := by rw [hr]
    by_cases hk : (hotkey, executorId) = k
    · subst hk
      have hsum : w.storage.collateralUnderPendingReclaims (hotkey, executorId) + r.amount =
          w.storage.collaterals (hotkey, executorId) := by
        rw [ham, Storage.available]
        omega
      simp only [Storage.account, Storage.afterReclaim, hkey, update_self, hsum]
      exact .reclaim _ _ _ _ _ howner hsum hamount
    · simp only [Storage.account, Storage.afterReclaim, hkey, update_of_ne (Ne.symm hk)]
      exact .other _ (by simpa [Event.key] using hk)
  | finalize id r hmethod hr hamount htime hpending hcollateral hbalance =>
    subst hr
    refine ⟨_, rfl, rfl, ?_⟩
    by_cases hk : (w.storage.reclaims id).key = k
    · subst hk
      simp only [Storage.account, Storage.afterFinalize, Storage.afterRelease, update_self]
      exact .finalize id hmethod rfl hamount htime hpending hcollateral
    · simp only [Storage.account, Storage.afterFinalize, Storage.afterRelease, update_of_ne (Ne.symm hk)]
      exact .other _ (by simpa [Event.key, Reclaim.key] using hk)
  | deny id url md5 r emitted hmethod htrustee hr hamount htime hpending hemitted =>
    subst hr hemitted
    refine ⟨_, rfl, rfl, ?_⟩
    by_cases hk : (w.storage.reclaims id).key = k
    · subst hk
      simp only [Storage.account, Storage.afterRelease, update_self]
      exact .deny id url md5 rfl hamount hpending
    · simp only [Storage.account, Storage.afterRelease, update_of_ne (Ne.symm hk)]
      exact .other _ (by simp [Event.key])
  | slash hotkey executorId url md5 hmethod htrustee hamount hbalance =>
    refine ⟨_, rfl, rfl, ?_⟩
    by_cases hk : (hotkey, executorId) = k
    · subst hk
      simp only [Storage.account, Storage.afterSlash, update_self]
      exact .slash url md5 hmethod htrustee hamount
    · simp only [Storage.account, Storage.afterSlash, update_of_ne (Ne.symm hk)]
      exact .other _ (by simpa [Event.key] using hk)
  | update trustee timeout minIncrease e s he hs =>
    subst hs
    exact ⟨_, rfl, rfl, .other _ (by simp [Event.key_update he])⟩

def Event.payment : Event → List Payment
  | .reclaimed e => [⟨e.hotkey, e.executorId, e.miner, e.amount⟩]
  | _ => []

theorem Event.payment_update {e : Event} (he : e.isUpdate = true) : e.payment = [] := by
  cases e <;> first | rfl | simp [Event.isUpdate] at he

theorem Reachable.payments {w : World} (h : Reachable w) : w.payments = w.log.flatMap (fun r => r.event.payment) := by
  apply reachable_invariant (I := fun w => w.payments = w.log.flatMap (fun r => r.event.payment)) _ _ h
  · intro s _
    rfl
  · intro now c w w' _ hw hs
    cases hs with
    | update _ _ _ e _ he _ => simp [World.logWith, hw, Event.payment_update he]
    | _ => simp [World.logWith, hw, Event.payment]

section Rule

variable {α : Type} {G : ℕ → Call → World → Prop} {k : Key} (f : α → Event → α)

def foldLog (x₀ : α) (log : List Record) : α :=
  log.foldl (fun x r => f x r.event) x₀

theorem foldLog_concat (x₀ : α) (log : List Record) (r : Record) :
    foldLog f x₀ (log ++ [r]) = f (foldLog f x₀ log) r.event := by
  simp [foldLog]

theorem account_invariant (x₀ : α) (P : Account → α → Prop) (hinit : P ⟨0, 0, 0⟩ x₀)
    (hstep : ∀ now c w e a, ReachableBy G w → G now c w →
      P (w.storage.account k) (foldLog f x₀ w.log) → AccountStep now c w.storage k e a →
        P a (f (foldLog f x₀ w.log) e))
    {w : World} (h : ReachableBy G w) : P (w.storage.account k) (foldLog f x₀ w.log) := by
  apply reachableBy_invariant (I := fun w => P (w.storage.account k) (foldLog f x₀ w.log)) _ _ h
  · intro s hs
    simpa [World.deployed, Storage.account, hs.owners, hs.collaterals, hs.pending, foldLog] using hinit
  · intro now c w w' hr hw hg hs
    obtain ⟨r, hlog, _, hacc⟩ := hs.account k
    rw [hlog, foldLog_concat]
    exact hstep now c w _ _ hr hg hw hacc

end Rule

theorem Reachable.collateral_lt {w : World} (h : Reachable w) (k : Key) : w.storage.collaterals k < 2 ^ 256 := by
  apply account_invariant (fun (_ : Unit) _ => ()) () (fun a _ => a.collateral < 2 ^ 256) _ _ h.unguarded
  · exact Nat.two_pow_pos 256
  · intro now c w e a _ _ hw hacc
    simp only [Storage.account] at hw
    cases hacc with
    | deposit _ _ _ hbound => exact hbound
    | finalize id => simp only; omega
    | slash => exact Nat.two_pow_pos 256
    | _ => exact hw

end Basilica.Collateral
