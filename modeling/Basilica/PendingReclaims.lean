import Basilica.CollateralRuns
import Basilica.Tallies

namespace Basilica.Collateral

open CallTrees CheckedSteps FiniteTotals Function Reclaim

def Reclaim.share (k : Key) (r : Reclaim) : ℕ := if r.key = k then r.amount else 0

@[simp] theorem Reclaim.share_zero (k : Key) : zero.share k = 0 := by
  unfold share
  split_ifs <;> rfl

theorem share_update (reclaims : ℕ → Reclaim) (id : ℕ) (r : Reclaim) (k : Key) :
    (fun i => (update reclaims id r i).share k) =
      update (fun i => (reclaims i).share k) id (r.share k) := by
  funext i
  by_cases hi : i = id <;> simp [hi]

structure Storage.Counted (s : Storage) : Prop where
  fresh : ∀ id, s.nextReclaimId ≤ id → s.reclaims id = Reclaim.zero
  counted : ∀ k, s.collateralUnderPendingReclaims k = ∑ᶠ id, (s.reclaims id).share k

variable {s : Storage}

section

variable (h : s.Counted)

include h

theorem Storage.Counted.share_finite (k : Key) : (Function.support fun id => (s.reclaims id).share k).Finite := by
  apply (Set.finite_Iio s.nextReclaimId).subset
  intro id hid
  by_contra hge
  apply hid
  simp only [Set.mem_Iio, not_lt] at hge
  simp [h.fresh id hge]

theorem Storage.Counted.amount_le (id : ℕ) :
    (s.reclaims id).amount ≤ s.collateralUnderPendingReclaims (s.reclaims id).key := by
  have hle := apply_le_finsum (h.share_finite (s.reclaims id).key) id
  rw [← h.counted] at hle
  simpa [share] using hle

theorem Storage.Counted.afterReclaim (r : Reclaim) :
    Storage.Counted { s.afterReclaim r with nextReclaimId := s.nextReclaimId + 1 } := by
  constructor
  · intro id hid
    change s.nextReclaimId + 1 ≤ id at hid
    simp only [Storage.afterReclaim]
    rw [update_of_ne (by omega)]
    exact h.fresh id (by omega)
  · intro k
    have hsum := finsum_update_add (h.share_finite k) s.nextReclaimId (r.share k)
    rw [← share_update, ← h.counted k, h.fresh _ (le_refl _), share_zero] at hsum
    simp only [Storage.afterReclaim]
    by_cases hk : k = r.key
    · subst hk
      simp only [update_self]
      simp only [share, ↓reduceIte] at hsum
      exact hsum.symm
    · rw [update_of_ne hk]
      simp only [share, Ne.symm hk, ↓reduceIte] at hsum
      exact hsum.symm

theorem Storage.Counted.afterRelease (id : ℕ) : (s.afterRelease id).Counted := by
  constructor
  · intro i hi
    simp only [Storage.afterRelease]
    by_cases he : i = id
    · simp [he]
    · rw [update_of_ne he]
      exact h.fresh i hi
  · intro k
    have hsum := finsum_update_add (h.share_finite k) id (zero.share k)
    rw [← share_update, ← h.counted k, share_zero] at hsum
    simp only [Storage.afterRelease]
    by_cases hk : k = (s.reclaims id).key
    · subst hk
      simp only [update_self]
      simp only [share, ↓reduceIte] at hsum ⊢
      omega
    · rw [update_of_ne hk]
      simp only [share, Ne.symm hk, ↓reduceIte] at hsum
      exact hsum.symm

end

variable {now : ℕ} {w : World}

theorem Storage.Counted.step {c : Call} {w' : World} (hw : w.storage.Counted)
    (h : Step now c w w') : w'.storage.Counted := by
  cases h with
  | deposit | slash => exact ⟨hw.fresh, hw.counted⟩
  | reclaim hotkey executorId url md5 r => exact hw.afterReclaim r
  | finalize id => exact ⟨(hw.afterRelease id).fresh, (hw.afterRelease id).counted⟩
  | deny id => exact hw.afterRelease id
  | update _ _ _ _ _ _ hs => subst hs; exact ⟨hw.fresh, hw.counted⟩

theorem Storage.Blank.counted (hs : s.Blank) : s.Counted := by
  constructor
  · intro id _
    exact hs.reclaims id
  · intro k
    simp [hs.reclaims, hs.pending]

theorem Reachable.counted (h : Reachable w) : w.storage.Counted :=
  reachable_invariant (fun _ hs => hs.counted) (fun _ _ _ _ _ hw hs => Storage.Counted.step hw hs) h

variable {msg : Msg} {id : ℕ}

theorem finalize_underflow (h : finalizeReclaim now msg id w = .error .arithmeticUnderflow) :
    w.storage.collateralUnderPendingReclaims (w.storage.reclaims id).key <
      (w.storage.reclaims id).amount := by
  simp only [finalizeReclaim, bind_error_iff, revertIf_eq_error, revertIf_eq_ok, checkedSub_eq_error,
    checkedSub_eq_ok, reduceCtorEq, and_false, and_true, false_or, exists_const] at h
  obtain ⟨_, _, h | ⟨_, ⟨_, rfl⟩, hcollateral, h | ⟨_, _, h⟩⟩⟩ := h
  · exact h
  · exact absurd h hcollateral
  · rcases h with h | ⟨_, _, h⟩
    · exact absurd (send_error h).1 (by decide)
    · cases h

theorem deny_underflow {url : String} {md5 : Bytes16}
    (h : denyReclaimRequest now msg id url md5 w = .error .arithmeticUnderflow) :
    w.storage.collateralUnderPendingReclaims (w.storage.reclaims id).key <
      (w.storage.reclaims id).amount := by
  simp only [denyReclaimRequest, onlyTrustee, bind_error_iff, revertIf_eq_error, revertIf_eq_ok,
    checkedSub_eq_error, reduceCtorEq, and_false, and_true, false_or, exists_const] at h
  obtain ⟨_, _, _, h | ⟨_, _, h⟩⟩ := h
  · exact h
  · cases h

def Storage.stored (s : Storage) (hotkey : Bytes32) (executorId : Bytes16) : Set ℕ :=
  {id | 0 < (s.reclaims id).amount ∧ (s.reclaims id).hotkey = hotkey ∧ (s.reclaims id).executorId = executorId}

theorem share_eq_indicator (s : Storage) (hotkey : Bytes32) (executorId : Bytes16) (id : ℕ) :
    (s.reclaims id).share (hotkey, executorId) =
      (s.stored hotkey executorId).indicator (fun i => (s.reclaims i).amount) id := by
  classical
  rw [Set.indicator_apply]
  simp only [share, key, Storage.stored, Set.mem_ofPred_eq, Prod.mk.injEq]
  by_cases hk : (s.reclaims id).hotkey = hotkey ∧ (s.reclaims id).executorId = executorId
  · by_cases ha : 0 < (s.reclaims id).amount
    · simp [hk, ha]
    · simp [hk, Nat.eq_zero_of_not_pos ha]
  · simp [hk]

theorem pending_counts_stored (w : World) (h : Reachable w) : (∀ hotkey executorId,
      (w.storage.stored hotkey executorId).Finite ∧
      w.storage.collateralUnderPendingReclaims (hotkey, executorId) =
        ∑ᶠ id ∈ w.storage.stored hotkey executorId, (w.storage.reclaims id).amount) ∧
    (∀ now msg id, finalizeReclaim now msg id w ≠ .error .arithmeticUnderflow) ∧
    (∀ now msg id url md5, denyReclaimRequest now msg id url md5 w ≠ .error .arithmeticUnderflow) := by
  have hc := h.counted
  refine ⟨?_, ?_, ?_⟩
  · intro hotkey executorId
    constructor
    · apply (Set.finite_Iio w.storage.nextReclaimId).subset
      intro id hid
      by_contra hge
      simp only [Set.mem_Iio, not_lt] at hge
      simp [Storage.stored, hc.fresh id hge, zero] at hid
    · rw [hc.counted, finsum_mem_def]
      exact finsum_congr (share_eq_indicator w.storage hotkey executorId)
  · intro now msg id he
    have hlt := finalize_underflow he
    have hle := hc.amount_le id
    omega
  · intro now msg id url md5 he
    have hlt := deny_underflow he
    have hle := hc.amount_le id
    omega

def twoReclaims : History :=
  [(100, .call (sampleCall alice 5 (.deposit 1 2)) (.stop true)
      (.call (sampleCall alice 0 (.reclaimCollateral 1 2 "" 0)) (.stop true) (.stop true))),
   (105, .call (sampleCall alice 3 (.deposit 1 2)) (.stop true)
      (.call (sampleCall alice 0 (.reclaimCollateral 1 2 "" 0)) (.stop true) (.stop true)))]

theorem pending_counts_twoReclaims :
    let w := final twoReclaims (World.deployed sampleStorage)
    w.storage.collateralUnderPendingReclaims (1, 2) = 8 ∧
      ∑ᶠ id ∈ w.storage.stored 1 2, (w.storage.reclaims id).amount = 8 := by
  intro w
  have hpending : w.storage.collateralUnderPendingReclaims (1, 2) = 8 := by decide
  exact ⟨hpending, ((pending_counts_stored w (reachable_final _)).1 1 2).2.symm.trans hpending⟩

end Basilica.Collateral
