import Basilica.Grouping
import Basilica.OutboxDispatcher

/-!
When a row of the outbox is selected again after its dispatcher has put it off. The claim keeps the row for five
minutes, and putting it off does not lift the claim.
-/

namespace Basilica.Payments

open AssocMaps Grouping List AssocMap

namespace PaymentTables

def Selected (t : PaymentTables) (limit : ℕ) (id : OutboxId) : Prop := id ∈ (t.claimBatch limit).1.map OutboxRow.id

instance (t : PaymentTables) (limit : ℕ) (id : OutboxId) : Decidable (t.Selected limit id) :=
  inferInstanceAs (Decidable (_ ∈ _))

def atTime (t : PaymentTables) (now : ℤ) : PaymentTables := { t with now := now }

def putOff (t : PaymentTables) (limit : ℕ) (id : OutboxId) (now secs later : ℤ) : PaymentTables :=
  (((t.claimBatch limit).2.atTime now).backoff id secs).atTime later

def ahead (t : PaymentTables) (id : OutboxId) : List (OutboxId × OutboxEntry) :=
  t.outbox.rows.entries.filter (fun q => q.2.dispatchedAt = none ∧ q.1 ∉ t.locked ∧ q.1 < id)

def claimableAhead (t : PaymentTables) (id : OutboxId) : List (OutboxId × OutboxEntry) :=
  (t.outbox.rows.entries.filter (Claimable t)).filter (fun q => q.1 < id)

variable {t : PaymentTables} {limit : ℕ} {id : OutboxId} {now secs later : ℤ}

theorem selected_iff : t.Selected limit id ↔
    (∃ entry, t.outbox.rows.get? id = some entry ∧ t.Claimable (id, entry)) ∧ (t.claimableAhead id).length < limit := by
  have hids : (t.claimBatch limit).1.map OutboxRow.id = (t.claimable limit).map Prod.fst := by
    simp [claimBatch]
  have hnodup : ((t.outbox.rows.entries.filter (Claimable t)).map Prod.fst).Nodup :=
    t.outbox.rows.nodup.sublist (filter_sublist.map Prod.fst)
  simp only [Selected, hids, mem_map, claimable, mem_take_insertionSort hnodup, mem_filter, decide_eq_true_eq]
  constructor
  · rintro ⟨⟨id, entry⟩, ⟨⟨hmem, hclaimable⟩, hlength⟩, rfl⟩
    exact ⟨⟨entry, get?_of_mem hmem, hclaimable⟩, hlength⟩
  · rintro ⟨⟨entry, hget, hclaimable⟩, hlength⟩
    exact ⟨(id, entry), ⟨⟨mem_entries_of_get? hget, hclaimable⟩, hlength⟩, rfl⟩

theorem claimableAhead_length_le (t : PaymentTables) (id : OutboxId) : (t.claimableAhead id).length ≤ (t.ahead id).length := by
  rw [claimableAhead, filter_filter, ahead, ← countP_eq_length_filter, ← countP_eq_length_filter]
  apply countP_mono_left
  intro q _ hq
  simp only [Bool.and_eq_true, decide_eq_true_eq] at hq ⊢
  exact ⟨hq.2.1, hq.2.2.2.2, hq.1⟩

/-- In the end every row that is still to be dispatched can be claimed. -/
theorem exists_ahead_length_le (t : PaymentTables) (id : OutboxId) :
    ∃ bound, ∀ later ≥ bound, (t.ahead id).length ≤ ((t.atTime later).claimableAhead id).length := by
  obtain ⟨bound, hbound⟩ := (t.outbox.rows.entries.toFinset.image (fun q =>
    max q.2.nextAttemptAt (q.2.claimedAt.getD 0 + fiveMinutes + 1))).exists_le
  refine ⟨bound, fun later hlater => ?_⟩
  rw [claimableAhead, filter_filter, ahead, ← countP_eq_length_filter, ← countP_eq_length_filter]
  apply countP_mono_left
  intro q hq hopen
  have hq := hbound _ (Finset.mem_image_of_mem _ (mem_toFinset.mpr hq))
  simp only [Bool.and_eq_true, decide_eq_true_eq] at hopen ⊢
  refine ⟨hopen.2.2, hopen.1, (le_max_left _ _).trans (hq.trans hlater), ?_, hopen.2.1⟩
  cases hclaimed : q.2.claimedAt with
  | none => exact Or.inl rfl
  | some claimed =>
    refine Or.inr ⟨claimed, rfl, ?_⟩
    simp only [hclaimed, Option.getD_some] at hq
    simp only [atTime]
    omega

theorem selected_putOff_iff (hid : t.Selected limit id) : (t.putOff limit id now secs later).Selected limit id ↔
    (now + secs * 1000000 ≤ later ∧ t.now + fiveMinutes < later) ∧
      ((t.putOff limit id now secs later).claimableAhead id).length < limit := by
  obtain ⟨⟨entry, hget, hclaimable⟩, -⟩ := selected_iff.mp hid
  have hopen : entry.dispatchedAt = none := hclaimable.1
  have hfree : id ∉ t.locked := hclaimable.2.2.2
  have hputOff : (t.putOff limit id now secs later).outbox.rows.get? id =
      some ((entry.claim t.now).postpone (now + secs * 1000000)) := by
    have hmem : id ∈ (t.claimable limit).map Prod.fst := by simpa [Selected, claimBatch] using hid
    simp only [putOff, atTime, backoff, claimBatch, Outbox.get?_update, hget, hmem, Option.map_some, if_true]
  rw [selected_iff, hputOff]
  apply and_congr_left'
  have hlater : (t.putOff limit id now secs later).now = later := rfl
  have hlocked : (t.putOff limit id now secs later).locked = t.locked := rfl
  simp [Claimable, OutboxEntry.claim, OutboxEntry.postpone, hlater, hlocked, hfree, hopen, lt_sub_iff_add_lt]

theorem ahead_putOff_length : ((t.putOff limit id now secs later).ahead id).length = (t.ahead id).length := by
  rw [ahead, ahead, ← countP_eq_length_filter, ← countP_eq_length_filter]
  simp only [putOff, atTime, backoff, claimBatch, Outbox.update, mapWith, map_map, countP_map]
  congr 1
  funext q
  simp only [Function.comp_apply]
  split_ifs <;> rfl

theorem retry_delay_iff (hid : t.Selected limit id) (hsecs : 0 ≤ secs) :
    (∀ later ≥ now, (t.putOff limit id now secs later).Selected limit id ↔ now + secs * 1000000 ≤ later) ↔
      t.now + fiveMinutes < now + secs * 1000000 ∧ (t.ahead id).length < limit := by
  simp only [selected_putOff_iff hid]
  constructor
  · intro h
    obtain ⟨bound, hbound⟩ := exists_ahead_length_le (t.putOff limit id now secs 0) id
    have hfirst := (h (now + secs * 1000000) (by omega)).mpr le_rfl
    have hlast := (h (max bound (now + secs * 1000000)) (by omega)).mpr (le_max_right _ _)
    have hahead := hbound _ (le_max_left bound (now + secs * 1000000))
    rw [ahead_putOff_length] at hahead
    exact ⟨hfirst.1.2, hahead.trans_lt hlast.2⟩
  · rintro ⟨hclaim, hahead⟩ later -
    constructor
    · intro h
      exact h.1.1
    · intro h
      have hle := (t.putOff limit id now secs later).claimableAhead_length_le id
      rw [ahead_putOff_length] at hle
      exact ⟨⟨h, by omega⟩, by omega⟩

def oneDue : PaymentTables := ⟨.empty, .empty, Outbox.empty.enqueue "alice" 1 "tx" 0, [], 0⟩

theorem retry_delay_after_slow_dispatch : oneDue.Selected 10 1 ∧
      ∀ later ≥ 300000000, (oneDue.putOff 10 1 300000000 1 later).Selected 10 1 ↔ 300000000 + 1 * 1000000 ≤ later :=
  ⟨by decide, (retry_delay_iff (by decide) (by omega)).mpr (by decide)⟩

theorem no_retry_after_the_delay :
    oneDue.Selected 10 1 ∧ (oneDue.claimBatch 10).1.map OutboxDispatcher.backoffSecs = [1] ∧
      ¬ (oneDue.putOff 10 1 0 1 1000000).Selected 10 1 := by
  decide

end PaymentTables

end Basilica.Payments
