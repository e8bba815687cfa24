import Basilica.PendingReclaims
import Basilica.StepRuns

namespace Basilica.Collateral

open CallTrees CheckedSteps LogRules List Option Function

def Event.created : Event → Option ℕ
  | .reclaimProcessStarted e => some e.reclaimRequestId
  | _ => none

def Event.resolved : Event → Option ℕ
  | .reclaimed e => some e.reclaimRequestId
  | .denied e => some e.reclaimRequestId
  | _ => none

def Record.deadline (r : Record) : ℕ := r.timestamp + r.storage.decisionTimeout.toNat

structure Lifecycle (before : List Record) (r : Record) : Prop where
  created_once : ∀ id, r.event.created = some id → ∀ r' ∈ before, r'.event.created ≠ some id
  resolved_once : ∀ id, r.event.resolved = some id → ∀ r' ∈ before, r'.event.resolved ≠ some id
  paid_as_stored : ∀ e, r.event = .reclaimed e → ∃ r₀ ∈ before,
    r₀.event.created = some e.reclaimRequestId ∧
    (r₀.storage.reclaims e.reclaimRequestId).hotkey = e.hotkey ∧
    (r₀.storage.reclaims e.reclaimRequestId).executorId = e.executorId ∧
    (r₀.storage.reclaims e.reclaimRequestId).miner = e.miner ∧
    (r₀.storage.reclaims e.reclaimRequestId).amount = e.amount ∧ r₀.deadline < r.timestamp
  denied_in_time : ∀ e, r.event = .denied e → ∃ r₀ ∈ before,
    r₀.event.created = some e.reclaimRequestId ∧ r.timestamp ≤ r₀.deadline ∧
    r.sender = r.storage.trustee

theorem Lifecycle.of_unrelated {before : List Record} {r : Record} (hc : r.event.created = none)
    (hr : r.event.resolved = none) : Lifecycle before r := by
  refine ⟨?_, ?_, ?_, ?_⟩
  · intro id h
    simp [hc] at h
  · intro id h
    simp [hr] at h
  all_goals
    intro e h
    simp [h, Event.resolved] at hr

structure Opened (r₀ : Record) (id : ℕ) (rc : Reclaim) : Prop where
  created : r₀.event.created = some id
  stored : r₀.storage.reclaims id = rc
  deadline : rc.denyTimeout.toNat = r₀.deadline

structure World.Tracked (w : World) : Prop where
  created_lt : ∀ r ∈ w.log, ∀ id, r.event.created = some id → id < w.storage.nextReclaimId
  resolved_lt : ∀ r ∈ w.log, ∀ id, r.event.resolved = some id → id < w.storage.nextReclaimId
  stored : ∀ id, 0 < (w.storage.reclaims id).amount →
    (∃ r₀ ∈ w.log, Opened r₀ id (w.storage.reclaims id)) ∧ ∀ r ∈ w.log, r.event.resolved ≠ some id
  life : Always Lifecycle w.log

section Steps

variable {w w' : World} {r : Record} (hw : w.Tracked)

include hw

theorem World.Tracked.stored_concat {id : ℕ} (hamount : 0 < (w.storage.reclaims id).amount)
    (hr : r.event.resolved ≠ some id) : (∃ r₀ ∈ w.log ++ [r], Opened r₀ id (w.storage.reclaims id)) ∧
      ∀ r' ∈ w.log ++ [r], r'.event.resolved ≠ some id := by
  obtain ⟨⟨r₀, hr₀, hopened⟩, hnone⟩ := hw.stored id hamount
  refine ⟨⟨r₀, mem_append_left _ hr₀, hopened⟩, ?_⟩
  intro r' hr'
  rcases mem_append.mp hr' with hr' | hr'
  · exact hnone r' hr'
  · rw [mem_singleton.mp hr']
    exact hr

theorem World.Tracked.unrelated (hlog : w'.log = w.log ++ [r])
    (hreclaims : w'.storage.reclaims = w.storage.reclaims)
    (hnext : w'.storage.nextReclaimId = w.storage.nextReclaimId)
    (hc : r.event.created = none) (hr : r.event.resolved = none) : w'.Tracked := by
  refine ⟨?_, ?_, ?_, ?_⟩
  · rw [hlog, hnext]
    simpa [or_imp, forall_and, hc] using hw.created_lt
  · rw [hlog, hnext]
    simpa [or_imp, forall_and, hr] using hw.resolved_lt
  · rw [hlog, hreclaims]
    intro id hamount
    exact hw.stored_concat hamount (by simp [hr])
  · rw [hlog]
    exact always_concat.mpr ⟨hw.life, .of_unrelated hc hr⟩

theorem World.Tracked.create {rc : Reclaim} (hlog : w'.log = w.log ++ [r])
    (hreclaims : w'.storage.reclaims = update w.storage.reclaims w.storage.nextReclaimId rc)
    (hnext : w'.storage.nextReclaimId = w.storage.nextReclaimId + 1)
    (hopened : Opened r w.storage.nextReclaimId rc) (hr : r.event.resolved = none) : w'.Tracked := by
  refine ⟨?_, ?_, ?_, ?_⟩
  · rw [hlog, hnext]
    intro r' hr' id hid
    rcases mem_append.mp hr' with hr' | hr'
    · exact Nat.lt_succ_of_lt (hw.created_lt r' hr' id hid)
    · rw [mem_singleton.mp hr', hopened.created] at hid
      exact (some.inj hid) ▸ Nat.lt_succ_self _
  · rw [hlog, hnext]
    intro r' hr' id hid
    rcases mem_append.mp hr' with hr' | hr'
    · exact Nat.lt_succ_of_lt (hw.resolved_lt r' hr' id hid)
    · rw [mem_singleton.mp hr', hr] at hid
      cases hid
  · rw [hlog, hreclaims]
    intro id hamount
    by_cases hid : id = w.storage.nextReclaimId
    · subst hid
      rw [update_self]
      refine ⟨⟨r, by simp, hopened⟩, ?_⟩
      intro r' hr' hres
      rcases mem_append.mp hr' with hr' | hr'
      · exact Nat.lt_irrefl _ (hw.resolved_lt r' hr' _ hres)
      · rw [mem_singleton.mp hr', hr] at hres
        cases hres
    · rw [update_of_ne hid] at hamount ⊢
      exact hw.stored_concat hamount (by simp [hr])
  · rw [hlog]
    refine always_concat.mpr ⟨hw.life, ?_, ?_, ?_, ?_⟩
    · intro id hid r' hr' hid'
      rw [hopened.created] at hid
      exact Nat.lt_irrefl _ (some.inj hid ▸ hw.created_lt r' hr' id hid')
    · intro id hid
      simp [hr] at hid
    all_goals
      intro e he
      simp [he, Event.resolved] at hr

theorem World.Tracked.resolve {id : ℕ} (hcounted : w.storage.Counted)
    (hamount : 0 < (w.storage.reclaims id).amount) (hlog : w'.log = w.log ++ [r])
    (hreclaims : w'.storage.reclaims = update w.storage.reclaims id Reclaim.zero)
    (hnext : w'.storage.nextReclaimId = w.storage.nextReclaimId)
    (hc : r.event.created = none) (hr : r.event.resolved = some id)
    (h : ∀ r₀ ∈ w.log, Opened r₀ id (w.storage.reclaims id) →
      (∀ id, r.event.created = some id → ∀ r' ∈ w.log, r'.event.created ≠ some id) →
      (∀ id, r.event.resolved = some id → ∀ r' ∈ w.log, r'.event.resolved ≠ some id) →
      Lifecycle w.log r) : w'.Tracked := by
  have hlt : id < w.storage.nextReclaimId := by
    by_contra hge
    rw [hcounted.fresh id (Nat.le_of_not_lt hge)] at hamount
    simp [Reclaim.zero] at hamount
  refine ⟨?_, ?_, ?_, ?_⟩
  · rw [hlog, hnext]
    simpa [or_imp, forall_and, hc] using hw.created_lt
  · rw [hlog, hnext]
    simpa [or_imp, forall_and, hr, hlt] using hw.resolved_lt
  · rw [hlog, hreclaims]
    intro id' hamount'
    by_cases hid : id' = id
    · subst hid
      simp [Reclaim.zero] at hamount'
    · rw [update_of_ne hid] at hamount' ⊢
      exact hw.stored_concat hamount' (by simp [hr, Ne.symm hid])
  · obtain ⟨⟨r₀, hr₀, hopened⟩, hnone⟩ := hw.stored id hamount
    rw [hlog]
    refine always_concat.mpr ⟨hw.life, h r₀ hr₀ hopened ?_ ?_⟩
    · intro id' hid'
      simp [hc] at hid'
    · intro id' hid'
      rw [hr] at hid'
      exact some.inj hid' ▸ hnone

end Steps

theorem denyTimeout_toNat {now : ℕ} {timeout : UInt64} (hnow : now < 2 ^ 63)
    (h : (UInt64.ofNat now).toNat + timeout.toNat < 2 ^ 64) :
    (UInt64.ofNat ((UInt64.ofNat now).toNat + timeout.toNat)).toNat = now + timeout.toNat := by
  have hnow' : (UInt64.ofNat now).toNat = now := by
    simp only [UInt64.toNat_ofNat']
    omega
  rw [hnow'] at h ⊢
  simp only [UInt64.toNat_ofNat']
  omega

theorem World.Tracked.step {now : ℕ} {c : Call} {w w' : World} (hw : w.Tracked)
    (hcounted : w.storage.Counted) (hnow : now < 2 ^ 63) (h : Step now c w w') : w'.Tracked := by
  cases h with
  | deposit | slash => exact hw.unrelated rfl rfl rfl rfl rfl
  | reclaim hotkey executorId url md5 r hmethod howner hpending hamount htimeout hr =>
    refine hw.create rfl rfl rfl ⟨rfl, by simp [Storage.afterReclaim], ?_⟩ rfl
    rw [hr]
    exact denyTimeout_toNat hnow htimeout
  | finalize id r hmethod hr hamount htime hpending hcollateral hbalance =>
    subst hr
    refine hw.resolve hcounted hamount rfl rfl rfl rfl rfl ?_
    intro r₀ hr₀ hopened hcreated hresolved
    refine ⟨hcreated, hresolved, ?_, ?_⟩
    · intro e he
      obtain rfl := Event.reclaimed.inj he
      refine ⟨r₀, hr₀, hopened.created, ?_⟩
      -- The slot has not been written since the request was opened.
      simp only [hopened.stored, true_and]
      rw [← hopened.deadline]
      exact htime
    · intro e he
      cases he
  | deny id url md5 r emitted hmethod htrustee hr hamount htime hpending hemitted =>
    subst hr hemitted
    refine hw.resolve hcounted hamount rfl rfl rfl rfl rfl ?_
    intro r₀ hr₀ hopened hcreated hresolved
    refine ⟨hcreated, hresolved, ?_, ?_⟩
    · intro e he
      cases he
    · intro e he
      obtain rfl := Event.denied.inj he
      refine ⟨r₀, hr₀, hopened.created, ?_, htrustee⟩
      rw [← hopened.deadline]
      exact htime
  | update trustee timeout minIncrease e s he hs =>
    subst hs
    exact hw.unrelated rfl rfl rfl (by cases e <;> first | rfl | cases he) (by cases e <;> first | rfl | cases he)

theorem ReachableBy.tracked {w : World} (h : ReachableBy (fun now _ _ => now < 2 ^ 63) w) : w.Tracked := by
  apply reachableBy_invariant _ _ h
  · intro s hs
    refine ⟨by simp [World.deployed], by simp [World.deployed], ?_, always_nil _⟩
    intro id hamount
    simp [World.deployed, hs.reclaims, Reclaim.zero] at hamount
  · intro now c w w' hr hw hnow hs
    exact hw.step hr.reachable.counted hnow hs

theorem reclaims_follow_lifecycle (s : Storage) (hs : Deployed s) (txs : History)
    (htime : ∀ tx ∈ txs, tx.1 < 2 ^ 63) (w : World)
    (hw : w ∈ visited enter txs (World.deployed s)) : Always Lifecycle w.log := by
  have hguard : GuardedBy enter (fun now _ _ => now < 2 ^ 63) txs (World.deployed s) :=
    guardedBy_of_forall _ _ (fun tx htx _ _ => htime tx htx) _
  exact (ReachableBy.tracked ⟨s, txs, hs, hguard, hw⟩).life

def timeoutRaised : History :=
  [tx 100 alice 5 (.deposit 1 2),
   tx 105 alice 0 (.reclaimCollateral 1 2 "" 0),
   (106, .call (adminCall (.updateDecisionTimeout 100)) (.stop true) (.stop true)),
   tx 107 alice 3 (.deposit 1 2),
   tx 108 alice 0 (.reclaimCollateral 1 2 "" 0),
   (116, .call (sampleCall carol 0 (.finalizeReclaim 0))
      (.call (sampleCall alice 0 (.finalizeReclaim 1)) (.stop true) (.stop true)) (.stop true)),
   tx 208 sampleTrustee 0 (.denyReclaimRequest 1 "" 0)]

theorem lifecycle_timeoutRaised :
    let w := final timeoutRaised (World.deployed sampleStorage)
    w.log.map (fun r => (r.event.created, r.event.resolved, r.timestamp)) =
        [(none, none, 100), (some 0, none, 105), (none, none, 106), (none, none, 107),
          (some 1, none, 108), (none, some 0, 116), (none, some 1, 208)] ∧
      Always Lifecycle w.log :=
  ⟨by decide, reclaims_follow_lifecycle sampleStorage sampleStorage_deployed timeoutRaised (by decide) _
    (final_mem_visited _ _)⟩

end Basilica.Collateral
