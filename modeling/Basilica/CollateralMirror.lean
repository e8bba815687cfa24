import Basilica.CollateralAccounts
import Basilica.CollateralFunds
import Basilica.CollateralReplay
import Basilica.StepRuns

namespace Basilica.Collateral

open CallTrees CheckedSteps LogRules Statements List Function

def Event.collateral : Event → Option CollateralEvent
  | .deposit e => some (.deposit e)
  | .reclaimed e => some (.reclaimed e)
  | .slashed e => some (.slashed e)
  | _ => none

variable {e : Event} {ce : CollateralEvent}

theorem Event.key_collateral (h : e.collateral = some ce) : e.key = some ce.key := by
  cases e <;> cases h <;> rfl

def collateralEvents (log : List Record) : List CollateralEvent :=
  log.filterMap (fun r => r.event.collateral)

theorem collateralEvents_concat (log : List Record) (r : Record) :
    collateralEvents (log ++ [r]) = collateralEvents log ++ r.event.collateral.toList := by
  rw [collateralEvents, collateralEvents, filterMap_append]
  cases h : r.event.collateral <;> simp [h]

def collateralsAt (log : List Record) : Key → ℕ :=
  match log.getLast? with
  | none => fun _ => 0
  | some r => r.storage.collaterals

theorem collateralsAt_concat (log : List Record) (r : Record) : collateralsAt (log ++ [r]) = r.storage.collaterals := by
  simp [collateralsAt]

def replay (log : List Record) : EStateM.Result Failure (Connection Db) Unit :=
  handleAll (collateralEvents log) ⟨createCollateralScannedBlocksTable, none⟩

structure CollateralEvent.Applies (n : ℕ) (e : CollateralEvent) : Prop where
  word : e.Word
  deposit : n = 0 → ∃ d, e = .deposit d
  exact : ¬ e.Saturates n

variable {now : ℕ} {c : Call} {s : Storage} {k : Key} {a : Account}

theorem AccountStep.collateral (h : AccountStep now c s k e a) (hce : e.collateral = some ce) (hk : ce.key = k) :
    ce.Applies (s.collaterals k) ∧ a.collateral = ce.amountAfter (s.collaterals k) := by
  cases h with
  | deposit hmethod hmin howner hbound =>
    cases hce
    refine ⟨⟨?_, fun _ => ⟨_, rfl⟩, ?_⟩, ?_⟩
    · simp only [CollateralEvent.Word]
      omega
    · simp only [CollateralEvent.Saturates]
      omega
    · exact (saturatingAdd_eq hbound).symm
  | reclaim | deny => cases hce
  | finalize id hmethod hkey hamount htime hpending hcollateral =>
    cases hce
    refine ⟨⟨trivial, ?_, ?_⟩, rfl⟩
    · intro h0
      omega
    · simp only [CollateralEvent.Saturates]
      omega
  | slash url md5 hmethod htrustee hamount =>
    cases hce
    refine ⟨⟨trivial, ?_, ?_⟩, rfl⟩
    · intro h0
      omega
    · exact id
  | other e he =>
    rw [Event.key_collateral hce, hk] at he
    exact absurd rfl he

theorem AccountStep.collateral_eq (h : AccountStep now c s k e a) (hce : ∀ ce, e.collateral = some ce → ce.key ≠ k) :
    a.collateral = s.collaterals k := by
  cases h with
  | deposit | finalize id | slash => exact absurd rfl (hce _ rfl)
  | _ => rfl

def Followed (log : List Record) : Prop :=
  ∃ t, applyAll (collateralEvents log) (fun _ => none) = .ok t ∧
    ∀ k, collateralText (t k) = toString (collateralsAt log k)

def Fits (before : List Record) (r : Record) : Prop :=
  ∀ e, r.event.collateral = some e → ¬ e.Saturates (collateralsAt before e.key)

variable {log : List Record}

theorem Followed.step {r : Record} (h : Followed log) (hlt : ∀ k, collateralsAt log k < 2 ^ 256)
    (hevent : ∀ e, r.event.collateral = some e → e.Applies (collateralsAt log e.key) ∧
      r.storage.collaterals e.key = e.amountAfter (collateralsAt log e.key))
    (hother : ∀ k, (∀ e, r.event.collateral = some e → e.key ≠ k) →
      r.storage.collaterals k = collateralsAt log k) : Followed (log ++ [r]) := by
  obtain ⟨t, ht, htext⟩ := h
  rw [Followed, collateralEvents_concat, collateralsAt_concat, applyAll_append, ht]
  cases he : r.event.collateral with
  | none =>
    refine ⟨t, rfl, ?_⟩
    intro k
    rw [htext, hother k]
    intro e h
    rw [he] at h
    cases h
  | some e =>
    obtain ⟨happlies, hafter⟩ := hevent e he
    -- Only the key of the event gets a new entry, and only its amount changes in the contract.
    obtain ⟨y, hy⟩ := effect_succeeds (hlt e.key) (htext e.key) happlies.deposit
    refine ⟨Function.update t e.key (some y), ?_, ?_⟩
    · change applyAll [e] t = _
      exact (bind_ok_iff _ _ _).mpr ⟨y, hy, rfl⟩
    · intro k
      by_cases hk : k = e.key
      · subst hk
        rw [update_self, hafter]
        exact effect_text happlies.word (hlt e.key) (htext e.key) hy
      · rw [update_of_ne hk, htext, hother k]
        intro e' h
        rw [he] at h
        cases h
        exact Ne.symm hk

structure World.Mirrored (w : World) : Prop where
  at_end : collateralsAt w.log = w.storage.collaterals
  followed : Followed w.log
  always : Always (fun before r => Followed before ∧ Fits before r) w.log

variable {w : World}

theorem World.Mirrored.step {w' : World} (hr : Reachable w) (h : w.Mirrored) (hs : Step now c w w') : w'.Mirrored := by
  -- The same record is logged whichever key the step is seen from.
  obtain ⟨r, hlog, hstorage, _⟩ := hs.account (0, 0)
  have hacc (k : Key) : AccountStep now c w.storage k r.event (w'.storage.account k) := by
    obtain ⟨r', hlog', _, hacc⟩ := hs.account k
    have heq : r' = r := by simpa using hlog'.symm.trans hlog
    rwa [heq] at hacc
  have hevent (e : CollateralEvent) (he : r.event.collateral = some e) :
      e.Applies (collateralsAt w.log e.key) ∧
        r.storage.collaterals e.key = e.amountAfter (collateralsAt w.log e.key) := by
    rw [h.at_end, hstorage]
    exact (hacc e.key).collateral he rfl
  constructor
  · rw [hlog, collateralsAt_concat, hstorage]
  · rw [hlog]
    apply h.followed.step _ hevent
    · intro k hk
      rw [h.at_end, hstorage]
      exact (hacc k).collateral_eq hk
    · intro k
      rw [h.at_end]
      exact hr.collateral_lt k
  · rw [hlog]
    refine always_concat.mpr ⟨h.always, h.followed, ?_⟩
    intro e he
    exact (hevent e he).1.exact

theorem Reachable.mirrored (h : Reachable w) : w.Mirrored := by
  apply reachable_invariant (I := World.Mirrored) _ _ h
  · intro s hs
    refine ⟨?_, ⟨fun _ => none, rfl, fun _ => toString_zero.symm⟩, always_nil _⟩
    funext k
    exact (hs.collaterals k).symm
  · intro now c w w' hr hw hs
    exact hw.step hr hs

theorem Followed.replay (h : Followed log) : ∃ db, replay log = .ok () ⟨db, none⟩ ∧
      ∀ k, collateralText (db.status.entry k) = toString (collateralsAt log k) := by
  obtain ⟨t, ht, htext⟩ := h
  obtain ⟨⟨db, left⟩, hrun⟩ := handleAll_succeeds
    (c := ⟨createCollateralScannedBlocksTable, none⟩) (allows_none _) ht
  obtain ⟨happly, _, hleft⟩ := handleAll_ok hrun
  obtain rfl : left = none := hleft
  cases ht.symm.trans happly
  exact ⟨db, hrun, htext⟩

theorem replay_mirrors (w : World) (h : Reachable w) (before after : List Record) (hlog : w.log = before ++ after) :
    ∃ db, replay before = .ok () ⟨db, none⟩ ∧
      (∀ k, collateralText (db.status.entry k) = toString (collateralsAt before k)) ∧
      ∀ r rest e, after = r :: rest → r.event.collateral = some e →
        ¬ e.Saturates (collateralsAt before e.key) := by
  have hm := h.mirrored
  cases after with
  | nil =>
    rw [append_nil] at hlog
    obtain ⟨db, hdb, htext⟩ := (hlog ▸ hm.followed).replay
    exact ⟨db, hdb, htext, fun r rest e hafter => nomatch hafter⟩
  | cons r rest =>
    obtain ⟨hfollowed, hfits⟩ := hm.always before r rest hlog
    obtain ⟨db, hdb, htext⟩ := hfollowed.replay
    refine ⟨db, hdb, htext, ?_⟩
    rintro r' rest' e hafter he
    cases hafter
    exact hfits e he

theorem replay_mirrors_redeposit :
    let w := final redepositDuringPayout (World.deployed sampleStorage)
    w.storage.collaterals (1, 2) = 3 ∧ collateralsAt (w.log.take 3) (1, 2) = 0 ∧
      ∃ db, replay (w.log.take 3) = .ok () ⟨db, none⟩ ∧ collateralText (db.status.entry (1, 2)) = "0" := by
  intro w
  obtain ⟨db, hdb, htext, _⟩ := replay_mirrors w (reachable_final _) (w.log.take 3) (w.log.drop 3)
    (take_append_drop 3 _).symm
  have hzero : collateralsAt (w.log.take 3) (1, 2) = 0 := by decide
  refine ⟨by decide, hzero, db, hdb, ?_⟩
  rw [htext, hzero, toString_zero]

end Basilica.Collateral
