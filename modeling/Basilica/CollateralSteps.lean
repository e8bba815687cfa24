import Basilica.CollateralContract

namespace Basilica.Collateral

open CallTrees CheckedSteps Except

def World.logWith (now : ℕ) (c : Call) (e : Event) (emitted : Storage) (w : World) : List Record :=
  w.log ++ [⟨e, c.sender, now, emitted⟩]

def Storage.afterDeposit (c : Call) (key : Key) (s : Storage) : Storage :=
  { s with
    executorToMiner := Function.update s.executorToMiner key c.sender
    collaterals := Function.update s.collaterals key (s.collaterals key + c.value) }

def Storage.available (s : Storage) (key : Key) : ℕ :=
  s.collaterals key - s.collateralUnderPendingReclaims key

def Storage.afterReclaim (r : Reclaim) (s : Storage) : Storage :=
  { s with
    reclaims := Function.update s.reclaims s.nextReclaimId r
    collateralUnderPendingReclaims := Function.update s.collateralUnderPendingReclaims r.key
      (s.collateralUnderPendingReclaims r.key + r.amount) }

def Storage.afterRelease (id : ℕ) (s : Storage) : Storage :=
  { s with
    reclaims := Function.update s.reclaims id Reclaim.zero
    collateralUnderPendingReclaims := Function.update s.collateralUnderPendingReclaims
      (s.reclaims id).key
      (s.collateralUnderPendingReclaims (s.reclaims id).key - (s.reclaims id).amount) }

def Storage.afterFinalize (id : ℕ) (s : Storage) : Storage :=
  { s.afterRelease id with
    collaterals := Function.update s.collaterals (s.reclaims id).key
      (s.collaterals (s.reclaims id).key - (s.reclaims id).amount)
    executorToMiner := Function.update s.executorToMiner (s.reclaims id).key 0 }

def Storage.afterSlash (key : Key) (s : Storage) : Storage :=
  { s with
    collaterals := Function.update s.collaterals key 0
    executorToMiner := Function.update s.executorToMiner key 0 }

def Event.isUpdate : Event → Bool
  | .trusteeUpdated _ _ | .decisionTimeoutUpdated _ _ | .minCollateralIncreaseUpdated _ _ => true
  | _ => false

inductive Step (now : ℕ) (c : Call) (w : World) : World → Prop
  | deposit (hotkey : Bytes32) (executorId : Bytes16)
      (hmethod : c.method = .deposit hotkey executorId)
      (hmin : w.storage.minCollateralIncrease ≤ c.value)
      (howner : w.storage.executorToMiner (hotkey, executorId) = 0 ∨
        w.storage.executorToMiner (hotkey, executorId) = c.sender)
      (hbound : w.storage.collaterals (hotkey, executorId) + c.value < 2 ^ 256) :
      Step now c w
        ⟨w.storage.afterDeposit c (hotkey, executorId), w.balance + c.value,
          w.logWith now c (.deposit ⟨hotkey, executorId, c.sender, c.value⟩)
            (w.storage.afterDeposit c (hotkey, executorId)), w.payments⟩
  | reclaim (hotkey : Bytes32) (executorId : Bytes16) (url : String) (md5 : Bytes16) (r : Reclaim)
      (hmethod : c.method = .reclaimCollateral hotkey executorId url md5)
      (howner : w.storage.executorToMiner (hotkey, executorId) = c.sender)
      (hpending : w.storage.collateralUnderPendingReclaims (hotkey, executorId) ≤
        w.storage.collaterals (hotkey, executorId))
      (hamount : 0 < r.amount)
      (htimeout : (UInt64.ofNat now).toNat + w.storage.decisionTimeout.toNat < 2 ^ 64)
      (hr : r = ⟨hotkey, executorId, c.sender, w.storage.available (hotkey, executorId),
        UInt64.ofNat ((UInt64.ofNat now).toNat + w.storage.decisionTimeout.toNat)⟩) :
      Step now c w
        ⟨{ w.storage.afterReclaim r with nextReclaimId := w.storage.nextReclaimId + 1 }, w.balance,
          w.logWith now c (.reclaimProcessStarted ⟨w.storage.nextReclaimId, hotkey, executorId, c.sender,
            r.amount, r.denyTimeout, url, md5⟩) (w.storage.afterReclaim r), w.payments⟩
  | finalize (id : ℕ) (r : Reclaim) (hmethod : c.method = .finalizeReclaim id)
      (hr : r = w.storage.reclaims id) (hamount : 0 < r.amount) (htime : r.denyTimeout.toNat < now)
      (hpending : r.amount ≤ w.storage.collateralUnderPendingReclaims r.key)
      (hcollateral : r.amount ≤ w.storage.collaterals r.key) (hbalance : r.amount ≤ w.balance) :
      Step now c w
        ⟨w.storage.afterFinalize id, w.balance - r.amount,
          w.logWith now c (.reclaimed ⟨id, r.hotkey, r.executorId, r.miner, r.amount⟩)
            (w.storage.afterFinalize id),
          w.payments ++ [⟨r.hotkey, r.executorId, r.miner, r.amount⟩]⟩
  | deny (id : ℕ) (url : String) (md5 : Bytes16) (r : Reclaim) (emitted : Storage)
      (hmethod : c.method = .denyReclaimRequest id url md5) (htrustee : c.sender = w.storage.trustee)
      (hr : r = w.storage.reclaims id) (hamount : 0 < r.amount) (htime : now ≤ r.denyTimeout.toNat)
      (hpending : r.amount ≤ w.storage.collateralUnderPendingReclaims r.key)
      (hemitted : emitted = { w.storage.afterRelease id with reclaims := w.storage.reclaims }) :
      Step now c w
        ⟨w.storage.afterRelease id, w.balance, w.logWith now c (.denied ⟨id, url, md5⟩) emitted, w.payments⟩
  | slash (hotkey : Bytes32) (executorId : Bytes16) (url : String) (md5 : Bytes16)
      (hmethod : c.method = .slashCollateral hotkey executorId url md5)
      (htrustee : c.sender = w.storage.trustee)
      (hamount : 0 < w.storage.collaterals (hotkey, executorId))
      (hbalance : w.storage.collaterals (hotkey, executorId) ≤ w.balance) :
      Step now c w
        ⟨w.storage.afterSlash (hotkey, executorId), w.balance - w.storage.collaterals (hotkey, executorId),
          w.logWith now c (.slashed ⟨hotkey, executorId, w.storage.executorToMiner (hotkey, executorId),
            w.storage.collaterals (hotkey, executorId), url, md5⟩)
            (w.storage.afterSlash (hotkey, executorId)), w.payments⟩
  | update (trustee : Address) (timeout : UInt64) (minIncrease : ℕ) (e : Event) (s : Storage)
      (he : e.isUpdate = true)
      (hs : s = { w.storage with trustee := trustee, decisionTimeout := timeout,
                                 minCollateralIncrease := minIncrease }) :
      Step now c w ⟨s, w.balance, w.logWith now c e s, w.payments⟩

section Inversion

variable {now : ℕ} {c : Call} {w w' : World}

theorem send_ok (amount : ℕ) (w w' : World) (h : w.send amount = .ok w') :
    amount ≤ w.balance ∧ w' = { w with balance := w.balance - amount } := by
  unfold World.send at h
  split_ifs at h with hb
  exact ⟨Nat.le_of_not_lt hb, (ok.inj h).symm⟩

theorem send_error {amount : ℕ} {w : World} {e : Error} (h : w.send amount = .error e) :
    e = .transferFailed ∧ w.balance < amount := by
  unfold World.send at h
  split_ifs at h with hb
  exact ⟨(error.inj h).symm, hb⟩

variable {hotkey : Bytes32} {executorId : Bytes16}

theorem deposit_step (hm : c.method = .deposit hotkey executorId)
    (h : deposit now c.toMsg hotkey executorId { w with balance := w.balance + c.value } = .ok w') :
    Step now c w w' := by
  simp only [deposit, bind_ok_iff, revertIf_eq_ok, exists_const] at h
  obtain ⟨hmin, h⟩ := h
  split_ifs at h with hzero
  · simp only [pure_bind, bind_ok_iff, checkedAdd_eq_ok] at h
    obtain ⟨_, ⟨hbound, rfl⟩, h⟩ := h
    rw [← ok.inj h]
    exact .deposit hotkey executorId hm (Nat.le_of_not_lt hmin) (.inl hzero) hbound
  · simp only [pure_bind, bind_ok_iff, revertIf_eq_ok, checkedAdd_eq_ok, exists_const, ne_eq, not_not] at h
    obtain ⟨howner, _, ⟨hbound, rfl⟩, h⟩ := h
    rw [← ok.inj h]
    -- The owner is already recorded, so writing it again changes nothing.
    have hsame : { w.storage with
        collaterals := Function.update w.storage.collaterals (hotkey, executorId)
          (w.storage.collaterals (hotkey, executorId) + c.value) } =
        w.storage.afterDeposit c (hotkey, executorId) := by
      rw [Storage.afterDeposit, ← howner, Function.update_eq_self]
    simp only [World.emit, hsame]
    exact .deposit hotkey executorId hm (Nat.le_of_not_lt hmin) (.inr howner) hbound

variable {url : String} {md5 : Bytes16}

theorem reclaim_step (hm : c.method = .reclaimCollateral hotkey executorId url md5)
    (h : reclaimCollateral now c.toMsg hotkey executorId url md5 w = .ok w') : Step now c w w' := by
  simp only [reclaimCollateral, bind_ok_iff, revertIf_eq_ok, checkedAdd_eq_ok, checkedSub_eq_ok,
    exists_const, ne_eq, not_not] at h
  obtain ⟨howner, _, ⟨hpending, rfl⟩, hamount, _, ⟨htimeout, rfl⟩, _, ⟨_, rfl⟩, _, ⟨_, rfl⟩, h⟩ := h
  rw [← ok.inj h]
  exact .reclaim hotkey executorId url md5 _ hm howner.symm hpending (Nat.pos_of_ne_zero hamount)
    htimeout rfl

variable {id : ℕ}

theorem finalize_step (hm : c.method = .finalizeReclaim id)
    (h : finalizeReclaim now c.toMsg id w = .ok w') : Step now c w w' := by
  simp only [finalizeReclaim, bind_ok_iff, revertIf_eq_ok, checkedSub_eq_ok, exists_const] at h
  obtain ⟨hamount, htime, _, ⟨hpending, rfl⟩, hcollateral, _, ⟨_, rfl⟩, sent, hsend, h⟩ := h
  obtain ⟨hbalance, rfl⟩ := send_ok _ _ _ hsend
  rw [← ok.inj h]
  exact .finalize id _ hm rfl (Nat.pos_of_ne_zero hamount) (Nat.lt_of_not_le htime) hpending
    (Nat.le_of_not_lt hcollateral) hbalance

theorem deny_step (hm : c.method = .denyReclaimRequest id url md5)
    (h : denyReclaimRequest now c.toMsg id url md5 w = .ok w') : Step now c w w' := by
  simp only [denyReclaimRequest, onlyTrustee, bind_ok_iff, revertIf_eq_ok, checkedSub_eq_ok,
    exists_const, ne_eq, not_not] at h
  obtain ⟨htrustee, hamount, htime, _, ⟨hpending, rfl⟩, h⟩ := h
  rw [← ok.inj h]
  exact .deny id url md5 _ _ hm htrustee rfl (Nat.pos_of_ne_zero hamount) (Nat.le_of_not_lt htime)
    hpending rfl

theorem slash_step (hm : c.method = .slashCollateral hotkey executorId url md5)
    (h : slashCollateral now c.toMsg hotkey executorId url md5 w = .ok w') : Step now c w w' := by
  simp only [slashCollateral, onlyTrustee, bind_ok_iff, revertIf_eq_ok, exists_const, ne_eq, not_not] at h
  obtain ⟨htrustee, hamount, sent, hsend, h⟩ := h
  obtain ⟨hbalance, rfl⟩ := send_ok _ _ _ hsend
  rw [← ok.inj h]
  exact .slash hotkey executorId url md5 hm htrustee (Nat.pos_of_ne_zero hamount) hbalance

theorem execute_step (h : execute now c.toMsg { w with balance := w.balance + c.value } c.method = .ok w') :
    Step now c w w' := by
  cases hm : c.method with
  | deposit hotkey executorId =>
    rw [hm] at h
    exact deposit_step hm h
  | receive =>
    rw [hm] at h
    cases h
  | _ =>
    rw [hm] at h
    simp only [execute, bind_ok_iff, revertIf_eq_ok, exists_const, ne_eq, not_not] at h
    obtain ⟨hvalue, h⟩ := h
    rw [hvalue, Nat.add_zero] at h
    first
    | exact reclaim_step hm h
    | exact finalize_step hm h
    | exact deny_step hm h
    | exact slash_step hm h
    | simp only [updateTrustee, updateDecisionTimeout, updateMinCollateralIncrease, onlyAdmin,
        bind_ok_iff, revertIf_eq_ok, exists_const] at h
      rw [← ok.inj h.2.2]
      exact .update _ _ _ _ _ rfl rfl

theorem enter_step (h : (enter now c w).next = some w') : Step now c w w' := by
  apply execute_step
  unfold enter at h
  cases he : execute now c.toMsg { w with balance := w.balance + c.value } c.method with
  | error e => simp [he, Outcome.next] at h
  | ok w'' =>
    simp only [he] at h
    split at h <;> exact congrArg ok (Option.some.inj h)

end Inversion

end Basilica.Collateral
