import Basilica.CollateralMirror
import Basilica.CollateralOwners

namespace Basilica.Collateral

open CallTrees CheckedSteps Statements

def CollateralEvent.minerAfter (a : Option Address) : CollateralEvent → Option Address
  | .deposit e => some (a.getD e.miner)
  | .reclaimed _ => a
  | .slashed _ => a.map (fun _ => 0)

def minerOfRecord (k : Key) (log : List Record) : Option Address :=
  foldKey k (fun e a => e.minerAfter a) (collateralEvents log) none

def ShowsMiner (a : Option Address) (x : Option Entry) : Prop := x.map Entry.miner = a.map minerText

theorem effect_miner {e : CollateralEvent} {a : Option Address} {x : Option Entry} {y : Entry}
    (hx : ShowsMiner a x) (hy : e.effect x = .ok y) : ShowsMiner (e.minerAfter a) (some y) := by
  cases x with
  | none =>
    obtain rfl : a = none := by simpa [ShowsMiner] using hx.symm
    cases e with
    | deposit e =>
      cases hy
      rfl
    | reclaimed e | slashed e => cases hy
  | some z =>
    obtain ⟨b, rfl, hb⟩ := Option.map_eq_some_iff.mp hx.symm
    cases e with
    | slashed e =>
      obtain ⟨n, _, hy⟩ := (bind_ok_iff _ _ _).mp hy
      cases hy
      rfl
    | _ =>
      obtain ⟨n, _, hy⟩ := (bind_ok_iff _ _ _).mp hy
      cases hy
      exact congrArg some hb.symm

theorem applyAll_miner {log : List Record} {t : Key → Option Entry}
    (h : applyAll (collateralEvents log) (fun _ => none) = .ok t) (k : Key) :
    ShowsMiner (minerOfRecord k log) (t k) := by
  apply applyAll_relates (R := ShowsMiner) k _ h
  · rfl
  · intro e _ a x y hx hy
    exact effect_miner hx hy

def recordMiner (k : Key) (a : Option Address) (e : Event) : Option Address :=
  foldKey k (fun e a => e.minerAfter a) e.collateral.toList a

theorem foldLog_recordMiner (k : Key) (log : List Record) : foldLog (recordMiner k) none log = minerOfRecord k log := by
  induction log using List.reverseRecOn with
  | nil => rfl
  | append_singleton log r ih =>
    rw [foldLog_concat, ih, minerOfRecord, minerOfRecord, collateralEvents_concat, foldKey, foldKey, List.foldl_append]
    rfl

theorem recordMiner_other {k : Key} {e : Event} (he : e.key ≠ some k) (a : Option Address) : recordMiner k a e = a := by
  cases hce : e.collateral with
  | none => simp [recordMiner, foldKey, hce]
  | some ce =>
    rw [Event.key_collateral hce] at he
    have hk : ce.key ≠ k := fun h => he (congrArg some h)
    simp [recordMiner, foldKey, hce, hk]

def KeepsMiner (now : ℕ) (c : Call) (w : World) : Prop :=
  PaysInFull now c w ∧
    ∀ k ∈ c.depositKey, w.storage.minCollateralIncrease ≤ c.value → w.storage.executorToMiner k = 0 →
      minerOfRecord k w.log = none ∨ minerOfRecord k w.log = some c.sender

instance (now : ℕ) (c : Call) (w : World) : Decidable (KeepsMiner now c w) :=
  have : Decidable (∀ k ∈ c.depositKey, w.storage.minCollateralIncrease ≤ c.value → w.storage.executorToMiner k = 0 →
        minerOfRecord k w.log = none ∨ minerOfRecord k w.log = some c.sender) :=
    Option.decidableForallMem _
  inferInstanceAs (Decidable (_ ∧ _))

structure Account.Shown (a : Account) (x : Option Address) : Prop where
  owner : a.owner ≠ 0 → x = some a.owner
  owned : 0 < a.collateral → a.owner ≠ 0

theorem Account.Shown.step {now : ℕ} {c : Call} {w : World} {k : Key} {e : Event} {a : Account}
    (hg : KeepsMiner now c w) (h : (w.storage.account k).Shown (minerOfRecord k w.log))
    (hs : AccountStep now c w.storage k e a) : a.Shown (recordMiner k (minerOfRecord k w.log) e) := by
  obtain ⟨howner, howned⟩ := h
  simp only [Storage.account] at howner howned
  cases hs with
  | deposit hmethod hmin howner' hbound =>
    have hminer : minerOfRecord k w.log = none ∨ minerOfRecord k w.log = some c.sender := by
      rcases howner' with h0 | hsender
      · exact hg.2 k (by simp [Call.depositKey, hmethod]) hmin h0
      · have hne : w.storage.executorToMiner k ≠ 0 := hsender ▸ c.sender_ne_zero
        exact .inr (hsender ▸ howner hne)
    refine ⟨fun _ => ?_, fun _ => c.sender_ne_zero⟩
    rcases hminer with hnone | hsome
    · simp [recordMiner, foldKey, Event.collateral, CollateralEvent.key, CollateralEvent.minerAfter, hnone]
    · simp [recordMiner, foldKey, Event.collateral, CollateralEvent.key, CollateralEvent.minerAfter, hsome]
  | reclaim | deny => exact ⟨howner, howned⟩
  | finalize id hmethod hkey hamount htime hpending hcollateral =>
    -- The owner is cleared, so nothing may remain on the key.
    refine ⟨fun h => absurd rfl h, fun hpos => ?_⟩
    exact absurd (hg.1.remaining hmethod hkey hamount htime hcollateral) (Nat.pos_iff_ne_zero.mp hpos)
  | slash => exact ⟨fun h => absurd rfl h, fun hpos => absurd hpos (Nat.lt_irrefl 0)⟩
  | other e he =>
    rw [recordMiner_other he]
    exact ⟨howner, howned⟩

theorem ReachableBy.shown {w : World} (h : ReachableBy KeepsMiner w) (k : Key) :
    (w.storage.account k).Shown (minerOfRecord k w.log) := by
  rw [← foldLog_recordMiner]
  apply account_invariant (recordMiner k) none Account.Shown _ _ h
  · exact ⟨fun h => absurd rfl h, fun hpos => absurd hpos (Nat.lt_irrefl 0)⟩
  · intro now c w e a _ hg hw hacc
    rw [foldLog_recordMiner] at hw ⊢
    exact hw.step hg hacc

theorem miner_column_kept (w : World) (h : ReachableBy KeepsMiner w) :
    ∃ db, replay w.log = .ok () ⟨db, none⟩ ∧ ∀ k, 0 < w.storage.collaterals k →
      (db.status.entry k).map Entry.miner = some (minerText (w.storage.executorToMiner k)) := by
  obtain ⟨db, hdb, _⟩ := h.reachable.mirrored.followed.replay
  refine ⟨db, hdb, ?_⟩
  intro k hpos
  have hshown := h.shown k
  have hminer : ShowsMiner (minerOfRecord k w.log) (db.status.entry k) :=
    applyAll_miner (handleAll_ok hdb).1 k
  rw [hshown.owner (hshown.owned hpos)] at hminer
  exact hminer

def minerColumn (log : List Record) (k : Key) : Option String :=
  match replay log with
  | .ok _ c => (c.db.status.entry k).map Entry.miner
  | .error _ _ => none

def takeoverAfterReclaim : History :=
  [tx 100 alice 5 (.deposit 1 2),
   tx 105 alice 0 (.reclaimCollateral 1 2 "" 0),
   tx 120 alice 0 (.finalizeReclaim 0),
   tx 130 bob 3 (.deposit 1 2)]

def takeoverAfterSlash : History :=
  [tx 100 alice 5 (.deposit 1 2),
   tx 110 sampleTrustee 0 (.slashCollateral 1 2 "" 0),
   tx 130 bob 3 (.deposit 1 2)]

theorem takeover_keeps_old_miner : (let w := final takeoverAfterReclaim (World.deployed sampleStorage)
     Reachable w ∧ w.storage.collaterals (1, 2) = 3 ∧ w.storage.executorToMiner (1, 2) = 8 ∧
       minerColumn w.log (1, 2) = some "0x0000000000000000000000000000000000000007" ∧
       minerColumn w.log (1, 2) ≠ some (minerText (w.storage.executorToMiner (1, 2)))) ∧
    (let w := final takeoverAfterSlash (World.deployed sampleStorage)
     Reachable w ∧ w.storage.collaterals (1, 2) = 3 ∧ w.storage.executorToMiner (1, 2) = 8 ∧
       minerColumn w.log (1, 2) = some "0x0000000000000000000000000000000000000000" ∧
       minerColumn w.log (1, 2) ≠ some (minerText (w.storage.executorToMiner (1, 2)))) :=
  ⟨⟨reachable_final _, by decide, by decide, by decide, by decide⟩,
    ⟨reachable_final _, by decide, by decide, by decide, by decide⟩⟩

def returnAfterReclaim : History :=
  [tx 100 alice 5 (.deposit 1 2),
   tx 105 alice 0 (.reclaimCollateral 1 2 "" 0),
   tx 110 bob 4 (.deposit 1 3),
   tx 120 alice 0 (.finalizeReclaim 0),
   tx 130 alice 3 (.deposit 1 2)]

theorem miner_column_returnAfterReclaim :
    let w := final returnAfterReclaim (World.deployed sampleStorage)
    w.storage.collaterals (1, 2) = 3 ∧ ∃ db, replay w.log = .ok () ⟨db, none⟩ ∧
      (db.status.entry (1, 2)).map Entry.miner = some (minerText (w.storage.executorToMiner (1, 2))) := by
  intro w
  obtain ⟨db, hdb, hminer⟩ := miner_column_kept w ⟨_, returnAfterReclaim, sampleStorage_deployed,
    by decide, final_mem_visited _ _⟩
  exact ⟨by decide, db, hdb, hminer (1, 2) (by decide)⟩

end Basilica.Collateral
