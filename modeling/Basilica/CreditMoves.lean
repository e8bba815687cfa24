import Basilica.CreditRepository

/-!
What the credit operations do to the tables, as moves of a ledger of accounts and holds: each operation that
runs alone and without database failures makes the moves of its plan.
-/

namespace Basilica.Billing

open AssocMaps AtomicCalls Calls CreditTables CreditManager List Option CreditOp CreditAccount CreditBalance

inductive Label
  | opened (user : UserId)
  | credited (user : UserId) (amount : CreditBalance)
  | charged (user : UserId) (amount : CreditBalance)
  | held (reservation : Reservation)
  | settled (id : ReservationId) (actual : CreditBalance)
  | marked (id : ReservationId)
  | recorded

inductive Move (t : CreditTables) : Label → CreditTables → Prop
  | opened (user : UserId) : Move t (.opened user) (t.ensureAccount user .zero)
  | credited {user : UserId} {old row : CreditsRow} {amount : CreditBalance}
      (hrow : t.credits.get? user = some old)
      (hbalance : row.balance.micros = old.balance.micros + amount.micros)
      (hreserved : row.reserved = old.reserved) : Move t (.credited user amount) (t.setAccount user row)
  | charged {user : UserId} {old row : CreditsRow} {amount : CreditBalance}
      (hrow : t.credits.get? user = some old)
      (hbalance : row.balance.micros = old.balance.micros - amount.micros)
      (hreserved : row.reserved = old.reserved) : Move t (.charged user amount) (t.setAccount user row)
  | held {reservation : Reservation} {old row : CreditsRow}
      (hnew : t.reservations.get? reservation.id = none) (hactive : reservation.released = false)
      (hrow : t.credits.get? reservation.userId = some old)
      (hroom : reservation.amount.micros ≤ max (old.balance.micros - old.reserved.micros) 0)
      (hbalance : row.balance = old.balance)
      (hreserved : row.reserved.micros = old.reserved.micros + reservation.amount.micros) :
      Move t (.held reservation) ((t.addReservation reservation).setAccount reservation.userId row)
  | settled {id : ReservationId} {r : ReservationRow} {old row : CreditsRow} {actual : CreditBalance}
      (hr : t.reservations.get? id = some r) (hactive : r.released = false)
      (hrow : t.credits.get? r.userId = some old)
      (hbalance : row.balance.micros = old.balance.micros - actual.micros)
      (hreserved : row.reserved = (old.release r.amount).reserved) :
      Move t (.settled id actual) ((t.setReleased id true).setAccount r.userId row)
  | marked (id : ReservationId) : Move t (.marked id) (t.setReleased id true)
  | recorded (events : List BillingEvent) : Move t .recorded { t with billingEvents := events }

inductive Moves : CreditTables → List Label → CreditTables → Prop
  | nil (t : CreditTables) : Moves t [] t
  | cons {t t₁ t₂ : CreditTables} {l : Label} {ls : List Label} (h : Move t l t₁) (hs : Moves t₁ ls t₂) :
      Moves t (l :: ls) t₂

open Moves

variable {t : CreditTables}

variable {t' : CreditTables} {l : Label}

theorem Moves.single (h : Move t l t') : Moves t [l] t' := .cons h (.nil _)

theorem Moves.of_single (h : Moves t [l] t') : Move t l t' := by
  cases h with
  | cons h hs =>
    cases hs
    exact h

structure Sound (t : CreditTables) : Prop where
  amount_nonneg : ∀ id r, t.reservations.get? id = some r → 0 ≤ r.amount.micros
  owned : ∀ id r, t.reservations.get? id = some r → ∃ row, t.credits.get? r.userId = some row

theorem sound_empty : Sound .empty where
  amount_nonneg := by
    intro id r h
    cases h
  owned := by
    intro id r h
    cases h

namespace Sound

variable {t' : CreditTables} (h : Sound t)

include h

theorem of_rows (haccounts : ∀ u row, t.credits.get? u = some row → ∃ row', t'.credits.get? u = some row')
    (hreservations : ∀ id r', t'.reservations.get? id = some r' →
      ∃ r, t.reservations.get? id = some r ∧ r'.userId = r.userId ∧ r'.amount = r.amount) : Sound t' where
  amount_nonneg := by
    intro id r' hr'
    obtain ⟨r, hr, -, hamount⟩ := hreservations id r' hr'
    rw [hamount]
    exact h.amount_nonneg id r hr
  owned := by
    intro id r' hr'
    obtain ⟨r, hr, huser, -⟩ := hreservations id r' hr'
    obtain ⟨row, hrow⟩ := h.owned id r hr
    rw [huser]
    exact haccounts r.userId row hrow

theorem setAccount (user : UserId) (row : CreditsRow) : Sound (t.setAccount user row) := by
  apply h.of_rows
  · intro u old hold
    rw [credits_setAccount]
    split_ifs with hu
    · rw [← hu, hold]
      exact ⟨row, rfl⟩
    · exact ⟨old, hold⟩
  · intro id r hr
    exact ⟨r, hr, rfl, rfl⟩

theorem ensureAccount (user : UserId) (row : CreditsRow) : Sound (t.ensureAccount user row) := by
  apply h.of_rows
  · intro u old hold
    rw [credits_ensureAccount]
    split_ifs with hu
    · exact ⟨_, rfl⟩
    · exact ⟨old, hold⟩
  · intro id r hr
    exact ⟨r, hr, rfl, rfl⟩

theorem setReleased (id : ReservationId) (released : Bool) : Sound (t.setReleased id released) := by
  apply h.of_rows
  · intro u row hrow
    exact ⟨row, hrow⟩
  · intro j r' hr'
    rw [reservations_setReleased] at hr'
    split_ifs at hr' with hj
    · obtain ⟨r, hr, rfl⟩ := map_eq_some_iff.mp hr'
      exact ⟨r, hj ▸ hr, rfl, rfl⟩
    · exact ⟨r', hr', rfl, rfl⟩

theorem addReservation {r : Reservation} (hnew : t.reservations.get? r.id = none)
    (hamount : 0 ≤ r.amount.micros) (hrow : ∃ row, t.credits.get? r.userId = some row) : Sound (t.addReservation r) where
  amount_nonneg := by
    intro j r' hr'
    rw [reservations_addReservation _ _ hnew] at hr'
    split_ifs at hr' with hj
    · cases hr'
      exact hamount
    · exact h.amount_nonneg j r' hr'
  owned := by
    intro j r' hr'
    rw [reservations_addReservation _ _ hnew] at hr'
    split_ifs at hr' with hj
    · cases hr'
      exact hrow
    · exact h.owned j r' hr'

end Sound

def Label.Nonnegative : Label → Prop
  | .held reservation => 0 ≤ reservation.amount.micros
  | _ => True

theorem Move.sound (h : Move t l t') (hl : l.Nonnegative) (hsound : Sound t) : Sound t' := by
  cases h with
  | opened user => exact hsound.ensureAccount user .zero
  | credited hrow hbalance hreserved | charged hrow hbalance hreserved => exact hsound.setAccount _ _
  | held hnew hactive hrow hroom hbalance hreserved =>
    exact (hsound.addReservation hnew hl ⟨_, hrow⟩).setAccount _ _
  | settled hr hactive hrow hbalance hreserved => exact (hsound.setReleased _ _).setAccount _ _
  | marked id => exact hsound.setReleased _ _
  | recorded events => exact ⟨hsound.amount_nonneg, hsound.owned⟩

theorem Moves.sound {ls : List Label} (h : Moves t ls t') (hls : ∀ l ∈ ls, l.Nonnegative)
    (hsound : Sound t) : Sound t' := by
  induction h with
  | nil t => exact hsound
  | cons h hs ih =>
    apply ih
    · exact fun l hl => hls l (mem_cons_of_mem _ hl)
    · exact h.sound (hls _ mem_cons_self) hsound

variable {id : ReservationId} {user : UserId} {row : CreditsRow}

namespace CreditTables

def active? (t : CreditTables) (id : ReservationId) : Option ReservationRow :=
  (t.reservations.get? id).filter (fun r => r.released = false)

theorem active?_eq_some {r : ReservationRow} :
    t.active? id = some r ↔ t.reservations.get? id = some r ∧ r.released = false := by
  unfold active?
  rw [filter_eq_some_iff]
  simp only [decide_eq_true_eq]

def affords? (t : CreditTables) (user : UserId) (amount : CreditBalance) : Option CreditsRow :=
  (t.credits.get? user).filter (fun row => amount.micros ≤ row.balance.micros)

theorem affords?_eq_some {amount : CreditBalance} :
    t.affords? user amount = some row ↔
      t.credits.get? user = some row ∧ amount.micros ≤ row.balance.micros := by
  unfold affords?
  rw [filter_eq_some_iff]
  simp only [decide_eq_true_eq]

end CreditTables

def CreditOp.plan (t : CreditTables) : CreditOp → List Label
  | .manager (.applyCredits user amount) => [.opened user, .credited user amount]
  | .manager (.reserveCredits id now user amount duration rentalId) =>
    if ((t.rowOf user).account user).canReserve amount ∧ representable (now + duration) ∧ t.reservations.get? id = none then
      [.opened user, .held (.made id now user amount duration rentalId)]
    else [.opened user]
  | .manager (.releaseReservation id) =>
    match t.active? id with
    | none => []
    | some _ => [.settled id .zero]
  | .manager (.chargeCredits user amount) =>
    match t.affords? user amount with
    | none => []
    | some _ => [.charged user amount]
  | .manager (.chargeFromReservation id actual) =>
    match t.active? id with
    | none => []
    | some r =>
      match t.affords? r.userId actual with
      | none => [.marked id]
      | some _ => [.settled id actual]
  | .cleanupExpiredReservations now => ((t.expiredReservations now).take 100).map (fun r => .settled r.id .zero)
  | .repositoryReserve id now user amount rentalId =>
    match t.account? user with
    | none => []
    | some account =>
      if account.canReserve amount ∧ representable (now + 3600 * 10 ^ 9) ∧ t.reservations.get? id = none then
        [.held (.made id now user amount (3600 * 10 ^ 9) (some rentalId))]
      else []
  | .repositoryRelease id => [.marked id]
  | .deductCredits user amount =>
    match t.affords? user amount with
    | none => []
    | some _ => [.charged user amount, .recorded]

def CreditOp.amount : CreditOp → CreditBalance
  | .manager (.applyCredits _ amount) => amount
  | .manager (.reserveCredits _ _ _ amount _ _) => amount
  | .manager (.releaseReservation _) => .zero
  | .manager (.chargeCredits _ amount) => amount
  | .manager (.chargeFromReservation _ actual) => actual
  | .cleanupExpiredReservations _ => .zero
  | .repositoryReserve _ _ _ amount _ => amount
  | .repositoryRelease _ => .zero
  | .deductCredits _ amount => amount

variable {op : CreditOp}

section Refinement

theorem CreditOp.perform_manager {α : Type} {op : ManagerOp} {p : RowCalls α} {f : α → Reply}
    (h : op.calls = p >>= fun a => pure (f a)) (t : CreditTables) : (manager op).perform t = (run serveRow p t).2 := by
  change (run serveCredit (rowCalls op.calls) t).2 = _
  rw [run_rowCalls, h, run_bind_pure]

variable {amount : CreditBalance}

theorem moves_applyCredits (hamount : 0 ≤ amount.micros) :
    let op := manager (.applyCredits user amount)
    Moves t (op.plan t) (op.perform t) := by
  dsimp only [plan]
  have hsum : 0 ≤ (((t.rowOf user).account user).applyCredits amount).balance.micros := by
    have hpositive := (t.rowOf user).positive_balance
    simp only [CreditAccount.applyCredits, CreditsRow.account, add_eq]
    omega
  obtain ⟨row, hrow, hbalance, hreserved⟩ := CreditAccount.exists_row hsum (t.rowOf user).positive_reserved
  rw [perform_manager rfl, run_applyCredits]
  dsimp only
  rw [store_eq hrow]
  apply cons (Move.opened user)
  apply single
  apply Move.credited (t.credits_ensured user)
  · rw [hbalance]
    simp only [CreditAccount.applyCredits, CreditsRow.account, add_eq]
  · exact hreserved

theorem CreditsRow.exists_reserved (old : CreditsRow) (user : UserId) (hamount : 0 ≤ amount.micros) : ∃ row : CreditsRow,
    CreditAccount.row? { old.account user with reserved := (old.account user).reserved.add amount } = some row ∧
      row.balance = old.balance ∧ row.reserved.micros = old.reserved.micros + amount.micros := by
  let account : CreditAccount := { old.account user with reserved := (old.account user).reserved.add amount }
  have hsum : 0 ≤ account.reserved.micros := by
    have hpositive := old.positive_reserved
    simp only [account, CreditsRow.account, add_eq]
    omega
  obtain ⟨row, hrow, hbalance, hreserved⟩ := exists_row old.positive_balance hsum
  refine ⟨row, hrow, hbalance, ?_⟩
  rw [hreserved]
  simp only [account, CreditsRow.account, add_eq]

theorem moves_reserveCredits (hamount : 0 ≤ amount.micros) (now duration : ℤ) (rentalId : Option RentalId) :
    let op := manager (.reserveCredits id now user amount duration rentalId)
    Moves t (op.plan t) (op.perform t) := by
  dsimp only [plan]
  rw [perform_manager rfl, run_reserveCredits]
  by_cases hcan : ((t.rowOf user).account user).canReserve amount
  · rw [if_pos hcan]
    by_cases hexpiry : representable (now + duration)
    · rw [if_pos hexpiry]
      cases hid : t.reservations.get? id with
      | some old =>
        rw [if_neg (by simp)]
        exact single (Move.opened user)
      | none =>
        obtain ⟨row, hrow, hbalance, hreserved⟩ := (t.rowOf user).exists_reserved user hamount
        rw [if_pos ⟨hcan, hexpiry, rfl⟩]
        rw [store_eq hrow]
        apply cons (Move.opened user)
        apply single
        exact Move.held hid rfl (t.credits_ensured user) (canReserve_iff.mp hcan) hbalance hreserved
    · rw [if_neg (fun h => hexpiry h.2.1), if_neg hexpiry]
      exact single (Move.opened user)
  · rw [if_neg (by simp [hcan]), if_neg hcan]
    exact single (Move.opened user)

theorem moves_releaseReservation (hsound : Sound t) :
    let op := manager (.releaseReservation id)
    Moves t (op.plan t) (op.perform t) := by
  dsimp only [plan]
  rw [perform_manager rfl, run_releaseReservation, ended, active?]
  cases hr : t.reservations.get? id with
  | none => exact nil t
  | some r =>
    cases hreleased : r.released with
    | true =>
      simp only [filter_some, hreleased]
      exact nil t
    | false =>
      obtain ⟨old, hold⟩ := hsound.owned id r hr
      simp only [filter_some, hreleased, hold]
      apply single
      apply Move.settled hr hreleased hold
      · exact (sub_zero _).symm
      · rfl

theorem affords?_of_le (hrow : t.credits.get? user = some row)
    (h : amount.micros ≤ row.balance.micros) : t.affords? user amount = some row :=
  affords?_eq_some.mpr ⟨hrow, h⟩

theorem affords?_of_lt (hrow : t.credits.get? user = some row)
    (h : row.balance.micros < amount.micros) : t.affords? user amount = none := by
  rw [affords?, hrow, filter_some, if_neg (by simpa using h)]

theorem moves_chargeCredits :
    let op := manager (.chargeCredits user amount)
    Moves t (op.plan t) (op.perform t) := by
  dsimp only [plan]
  rw [perform_manager rfl, run_chargeCredits]
  cases hrow : t.credits.get? user with
  | none =>
    rw [affords?, hrow]
    exact nil t
  | some old =>
    by_cases hle : amount.micros ≤ old.balance.micros
    · rw [affords?_of_le hrow hle]
      dsimp only
      rw [dif_pos hle]
      exact single (Move.charged hrow rfl rfl)
    · rw [affords?_of_lt hrow (not_le.mp hle)]
      dsimp only
      rw [dif_neg hle]
      exact nil t

theorem moves_chargeFromReservation (hsound : Sound t) :
    let op := manager (.chargeFromReservation id amount)
    Moves t (op.plan t) (op.perform t) := by
  dsimp only [plan]
  rw [perform_manager rfl, run_chargeFromReservation, ended]
  cases hr : t.reservations.get? id with
  | none =>
    rw [active?, hr]
    exact nil t
  | some r =>
    cases hreleased : r.released with
    | true =>
      rw [active?, hr]
      simp only [filter_some, hreleased]
      exact nil t
    | false =>
      obtain ⟨old, hold⟩ := hsound.owned id r hr
      rw [active?_eq_some.mpr ⟨hr, hreleased⟩]
      simp only [hreleased, hold, Bool.false_eq_true, ↓reduceIte]
      by_cases hle : amount.micros ≤ old.balance.micros
      · rw [affords?_of_le hold hle, dif_pos hle]
        exact single (Move.settled hr hreleased hold rfl rfl)
      · rw [affords?_of_lt hold (not_le.mp hle), dif_neg hle]
        exact single (Move.marked id)

theorem moves_releaseAllExpired {l : List Reservation} (hsound : Sound t) (hids : (l.map Reservation.id).Nodup)
    (hl : ∀ r ∈ l, t.reservations.get? r.id = some r.toReservationRow ∧ r.released = false) :
    Moves t (l.map (fun r => .settled r.id .zero)) (run serveRow (releaseAllExpired l) t).2 := by
  induction l generalizing t with
  | nil => exact nil t
  | cons r l ih =>
    obtain ⟨hnew, hids⟩ := nodup_cons.mp hids
    obtain ⟨hr, hactive⟩ := hl r mem_cons_self
    obtain ⟨old, hold⟩ := hsound.owned r.id _ hr
    have hrun := run_releaseExpired t hr hactive
    rw [hold] at hrun
    have hmove : Move t (.settled r.id .zero)
        ((t.setReleased r.id true).setAccount r.userId (old.release r.amount)) :=
      Move.settled hr hactive hold (sub_zero _).symm rfl
    rw [releaseAllExpired, run_bind_ok serveRow hrun]
    apply cons hmove
    apply ih (hmove.sound trivial hsound) hids
    intro r' hr'
    have hne : r'.id ≠ r.id := by
      intro h
      exact hnew (mem_map.mpr ⟨r', hr', h⟩)
    rw [reservations_setAccount, reservations_setReleased, if_neg hne]
    exact hl r' (mem_cons_of_mem _ hr')

theorem expiredReservations_spec (t : CreditTables) (now : ℤ) : ((t.expiredReservations now).map Reservation.id).Nodup ∧
      ∀ r ∈ t.expiredReservations now, t.reservations.get? r.id = some r.toReservationRow ∧ r.released = false := by
  have hperm := perm_insertionSort (fun r r' : Reservation => r.expiresAt ≤ r'.expiresAt)
    (t.reservationList.filter (fun r => r.released = false ∧ r.expiresAt ≤ now))
  have hids : t.reservationList.map Reservation.id = t.reservations.entries.map Prod.fst := by
    rw [reservationList, List.map_map]
    rfl
  constructor
  · apply (hperm.map Reservation.id).nodup_iff.mpr
    have hnodup : (t.reservationList.map Reservation.id).Nodup := by
      rw [hids]
      exact t.reservations.nodup
    exact hnodup.sublist (filter_sublist.map Reservation.id)
  · intro r hr
    obtain ⟨hmem, hactive⟩ := mem_filter.mp (hperm.mem_iff.mp hr)
    obtain ⟨p, hp, rfl⟩ := mem_map.mp hmem
    refine ⟨AssocMap.get?_of_mem hp, ?_⟩
    exact (of_decide_eq_true hactive).1

theorem moves_cleanupExpiredReservations (hsound : Sound t) (now : ℤ) :
    let op := CreditOp.cleanupExpiredReservations now
    Moves t (op.plan t) (op.perform t) := by
  intro op
  obtain ⟨hids, hexpired⟩ := expiredReservations_spec t now
  let expired := (t.expiredReservations now).take 100
  have hperform : op.perform t = (run serveRow (releaseAllExpired expired) t).2 := by
    change (run serveCredit (cleanupExpiredReservations now >>= fun n => pure (Reply.count n)) t).2 = _
    rw [run_bind_pure]
    change (run serveCredit (rowCalls (releaseAllExpired expired) >>= fun _ => pure expired.length) t).2 = _
    rw [run_bind_pure, run_rowCalls]
  rw [hperform]
  apply moves_releaseAllExpired hsound
  · exact hids.sublist ((take_sublist 100 _).map Reservation.id)
  · exact fun r hr => hexpired r (mem_of_mem_take hr)

theorem moves_repositoryReserve (hamount : 0 ≤ amount.micros) (now : ℤ) (rentalId : RentalId) :
    let op := repositoryReserve id now user amount rentalId
    Moves t (op.plan t) (op.perform t) := by
  intro op
  have hperform : op.perform t =
      (run serveCredit (SqlCreditRepository.reserveCredits id now user amount rentalId) t).2 := by
    change (run serveCredit (_ >>= fun r : Reservation => pure (Reply.reservation r.id)) t).2 = _
    rw [run_bind_pure]
  rw [hperform, SqlCreditRepository.run_reserveCredits]
  dsimp only [op, plan]
  rw [account?]
  cases hrow : t.credits.get? user with
  | none => exact nil t
  | some old =>
    dsimp only [map_some]
    by_cases hcan : (old.account user).canReserve amount
    · let reservation := Reservation.made id now user amount (3600 * 10 ^ 9) (some rentalId)
      rw [if_pos hcan]
      by_cases hexpiry : representable (now + 3600 * 10 ^ 9)
      · rw [if_pos hexpiry]
        cases hid : t.reservations.get? id with
        | some taken =>
          have hheld : serveCredit (CreditCall.holdReservation reservation) t =
              (.error (.databaseError "insert_reservation"), t) := by
            simp only [serveCredit, reservation, Reservation.made, hid]
          rw [if_neg (by simp)]
          rw [hheld]
          exact nil t
        | none =>
          obtain ⟨row, hstored, hbalance, hreserved⟩ := old.exists_reserved user hamount
          have hheld : serveCredit (CreditCall.holdReservation reservation) t =
              (.ok (), (t.addReservation reservation).setAccount user row) := by
            simp only [serveCredit, reservation, Reservation.made, hid, hrow]
            rw [hstored]
          rw [if_pos ⟨hcan, hexpiry, rfl⟩]
          rw [hheld]
          apply single
          exact Move.held hid rfl hrow (canReserve_iff.mp hcan) hbalance hreserved
      · rw [if_neg (fun h => hexpiry h.2.1), if_neg hexpiry]
        exact nil t
    · rw [if_neg (by simp [hcan]), if_neg hcan]
      exact nil t

theorem moves_deductCredits :
    let op := deductCredits user amount
    Moves t (op.plan t) (op.perform t) := by
  intro op
  have hperform : op.perform t = (run serveCredit (SqlCreditRepository.deductCredits user amount) t).2 := by
    change (run serveCredit (_ >>= fun _ => pure Reply.done) t).2 = _
    rw [run_bind_pure]
  rw [hperform, SqlCreditRepository.run_deductCredits]
  dsimp only [op, plan]
  cases hrow : t.credits.get? user with
  | none =>
    rw [affords?, hrow]
    exact nil t
  | some old =>
    by_cases hle : amount.micros ≤ old.balance.micros
    · rw [affords?_of_le hrow hle]
      dsimp only
      rw [dif_pos hle]
      have hcharge : Move t (.charged user amount) (t.setAccount user (old.deduct amount hle)) :=
        Move.charged hrow rfl rfl
      apply cons hcharge
      exact single (Move.recorded _)
    · rw [affords?_of_lt hrow (not_le.mp hle)]
      dsimp only
      rw [dif_neg hle]
      exact nil t

theorem moves_perform (hsound : Sound t) (hop : 0 ≤ op.amount.micros) :
    Moves t (op.plan t) (op.perform t) := by
  cases op with
  | manager op =>
    cases op with
    | applyCredits user amount => exact moves_applyCredits hop
    | reserveCredits id now user amount duration rentalId => exact moves_reserveCredits hop now duration rentalId
    | releaseReservation id => exact moves_releaseReservation hsound
    | chargeCredits user amount => exact moves_chargeCredits
    | chargeFromReservation id actual => exact moves_chargeFromReservation hsound
  | cleanupExpiredReservations now => exact moves_cleanupExpiredReservations hsound now
  | repositoryReserve id now user amount rentalId => exact moves_repositoryReserve hop now rentalId
  | repositoryRelease id => exact single (Move.marked id)
  | deductCredits user amount => exact moves_deductCredits

end Refinement

theorem CreditOp.plan_held {reservation : Reservation}
    (h : Label.held reservation ∈ op.plan t) : reservation.amount = op.amount := by
  cases op with
  | manager op =>
    cases op with
    | applyCredits user amount => simp [plan] at h
    | reserveCredits id now user amount duration rentalId =>
      dsimp only [plan] at h
      split_ifs at h
      · obtain rfl : reservation = .made id now user amount duration rentalId := by simpa using h
        rfl
      · simp at h
    | releaseReservation id | chargeCredits user amount =>
      dsimp only [plan] at h
      split at h <;> simp at h
    | chargeFromReservation id actual =>
      dsimp only [plan] at h
      split at h
      · simp at h
      · split at h <;> simp at h
  | cleanupExpiredReservations now =>
    obtain ⟨r, -, hr⟩ := mem_map.mp h
    cases hr
  | repositoryReserve id now user amount rentalId =>
    dsimp only [plan] at h
    split at h
    · simp at h
    · split_ifs at h
      · obtain rfl : reservation = .made id now user amount (3600 * 10 ^ 9) (some rentalId) := by simpa using h
        rfl
      · simp at h
  | repositoryRelease id => simp [plan] at h
  | deductCredits user amount =>
    dsimp only [plan] at h
    split at h <;> simp at h

theorem CreditOp.plan_nonnegative (hop : 0 ≤ op.amount.micros) : ∀ l ∈ op.plan t, l.Nonnegative := by
  intro l hl
  cases l with
  | held reservation =>
    change 0 ≤ reservation.amount.micros
    rw [plan_held hl]
    exact hop
  | _ => trivial

theorem sound_perform (hsound : Sound t) (hop : 0 ≤ op.amount.micros) : Sound (op.perform t) :=
  (moves_perform hsound hop).sound (plan_nonnegative hop) hsound

end Basilica.Billing
