import Basilica.CreditManager

/-!
The remaining calls of the credit repository, and the operations that need them: the cleanup of the credit
manager and the repository's own `reserve_credits`, `release_reservation` and `deduct_credits`.
-/

namespace Basilica.Billing

open AssocMaps AtomicCalls Calls

namespace CreditTables

variable (t : CreditTables)

def reservationList : List Reservation := t.reservations.entries.map (fun p => ⟨p.2, p.1⟩)

/-- `WHERE user_id = $1 AND status = 'active' AND expires_at > NOW() ORDER BY reserved_at DESC` -/
def activeReservations (user : UserId) (now : ℤ) : List Reservation :=
  (t.reservationList.filter (fun r => r.userId = user ∧ r.released = false ∧ now < r.expiresAt)).insertionSort
    (fun r r' => r'.createdAt ≤ r.createdAt)

/-- `WHERE status = 'active' AND expires_at <= NOW() ORDER BY expires_at ASC` -/
def expiredReservations (now : ℤ) : List Reservation :=
  (t.reservationList.filter (fun r => r.released = false ∧ r.expiresAt ≤ now)).insertionSort
    (fun r r' => r.expiresAt ≤ r'.expiresAt)

def recordDeduction (user : UserId) (amount : CreditBalance) : CreditTables :=
  { t with billingEvents := t.billingEvents ++ [⟨"credit_deduction", "user", user, some amount⟩] }

end CreditTables

inductive CreditCall
  | row (c : RowCall)
  | getActiveReservations (user : UserId) (now : ℤ)
  | getExpiredReservations (limit : ℕ) (now : ℤ)
  | releaseReservation (id : ReservationId)
  | holdReservation (reservation : Reservation)
  | deductBalance (user : UserId) (amount : CreditBalance)
  | recordDeduction (user : UserId) (amount : CreditBalance)

abbrev CreditCall.Answer : CreditCall → Type
  | .row c => c.Answer
  | .getActiveReservations _ _ => List Reservation
  | .getExpiredReservations _ _ => List Reservation
  | _ => Unit

def serveCredit : Server CreditCall CreditCall.Answer BillingError CreditTables
  | .row c, t => serveRow c t
  | .getActiveReservations user now, t => (.ok (t.activeReservations user now), t)
  | .getExpiredReservations limit now, t => (.ok ((t.expiredReservations now).take limit), t)
  | .releaseReservation id, t => (.ok (), t.setReleased id true)
  | .holdReservation reservation, t =>
    -- One transaction: the reservation is inserted and the account's reserved balance raised, or neither.
    match t.reservations.get? reservation.id with
    | some _ => (.error (.databaseError "insert_reservation"), t)
    | none =>
      match t.credits.get? reservation.userId with
      | none => (.ok (), t.addReservation reservation)
      | some row =>
        let account := row.account reservation.userId
        match { account with reserved := account.reserved.add reservation.amount : CreditAccount }.row? with
        | none => (.error (.databaseError "update_balance_for_reservation"), t)
        | some row => (.ok (), (t.addReservation reservation).setAccount reservation.userId row)
  | .deductBalance user amount, t =>
    match t.credits.get? user with
    | none => (.ok (), t)
    | some row =>
      if h : amount.micros ≤ row.balance.micros then (.ok (), t.setAccount user (row.deduct amount h))
      else (.ok (), t)
  | .recordDeduction user amount, t => (.ok (), t.recordDeduction user amount)

abbrev CreditCalls := Calls CreditCall CreditCall.Answer BillingError

def rowCalls {α : Type} (p : RowCalls α) : CreditCalls α := p.embed CreditCall.row (fun _ r => r)

theorem embeds_row : Embeds CreditCall.row (fun _ r => r) serveRow serveCredit id (fun _ t => t) :=
  ⟨fun _ => rfl, fun _ _ => rfl, fun _ _ _ => rfl, fun _ _ => congrFun Except.map_id _, fun _ _ => rfl⟩

@[simp] theorem run_rowCalls {α : Type} (p : RowCalls α) (t : CreditTables) :
    run serveCredit (rowCalls p) t = run serveRow p t := run_embed embeds_row p t

@[simp] theorem trace_rowCalls {α : Type} (p : RowCalls α) (t : CreditTables) :
    trace serveCredit (rowCalls p) t = trace serveRow p t :=
  (trace_embed embeds_row p t).trans (List.map_id _)

namespace CreditManager

def getActiveReservations (user : UserId) (now : ℤ) : CreditCalls (List Reservation) :=
  ask (CreditCall.getActiveReservations user now)

def cleanupExpiredReservations (now : ℤ) : CreditCalls ℕ := do
  let expired ← ask (CreditCall.getExpiredReservations 100 now)
  rowCalls (releaseAllExpired expired)
  return expired.length

end CreditManager

namespace SqlCreditRepository

def releaseReservation (id : ReservationId) : CreditCalls Unit := ask (CreditCall.releaseReservation id)

def reserveCredits (id : ReservationId) (now : ℤ) (user : UserId) (amount : CreditBalance) (rentalId : RentalId) :
    CreditCalls Reservation := do
  let found ← rowCalls (getAccount user)
  let account ← ofOption (.accountNotFound user) found
  if account.availableBalance.asDecimal < amount.asDecimal then
    fail (.insufficientCredits account.availableBalance.asDecimal amount.asDecimal)
  else
    let reservation ← ofExcept (Reservation.new id now user amount (3600 * 10 ^ 9) (some rentalId))
    let _ ← (ask (CreditCall.holdReservation reservation) : CreditCalls Unit)
    return reservation

def deductCredits (user : UserId) (amount : CreditBalance) : CreditCalls Unit := do
  let found ← rowCalls (getAccount user)
  let account ← ofOption (.accountNotFound user) found
  if account.balance.asDecimal < amount.asDecimal then
    fail (.insufficientCredits account.balance.asDecimal amount.asDecimal)
  else
    let _ ← (ask (CreditCall.deductBalance user amount) : CreditCalls Unit)
    ask (CreditCall.recordDeduction user amount)

variable (t : CreditTables) (user : UserId) (amount : CreditBalance) {t user amount} in
theorem run_deductBalance {row : CreditsRow} (hrow : t.credits.get? user = some row)
    (h : amount.micros ≤ row.balance.micros) :
    run serveCredit (ask (CreditCall.deductBalance user amount)) t = (.ok (), t.setAccount user (row.deduct amount h)) := by
  change serveCredit (CreditCall.deductBalance user amount) t = _
  simp only [serveCredit, hrow, h, ↓reduceDIte]

theorem run_deductCredits : run serveCredit (deductCredits user amount) t =
    match t.credits.get? user with
    | none => (.error (.accountNotFound user), t)
    | some row =>
      if h : amount.micros ≤ row.balance.micros then
        (.ok (), (t.setAccount user (row.deduct amount h)).recordDeduction user amount)
      else (.error (.insufficientCredits row.balance.asDecimal amount.asDecimal), t) := by
  unfold deductCredits
  rw [run_bind_ok serveCredit (run_rowCalls _ _ |>.trans (run_getAccount t user)), CreditTables.account?]
  cases hrow : t.credits.get? user with
  | none => rfl
  | some row =>
    rw [Option.map_some, run_bind_ok serveCredit (run_ofOption_some serveCredit _ _ _), run_ite]
    dsimp only
    have henough : (row.account user).balance.asDecimal < amount.asDecimal ↔ ¬ amount.micros ≤ row.balance.micros :=
      CreditBalance.asDecimal_lt
    by_cases h : amount.micros ≤ row.balance.micros
    · rw [if_neg (henough.not.mpr (not_not.mpr h)), dif_pos h, run_bind_ok serveCredit (run_deductBalance hrow h)]
      rfl
    · rw [if_pos (henough.mpr h), dif_neg h]
      rfl

theorem trace_deductCredits : trace serveCredit (deductCredits user amount) t =
    match t.credits.get? user with
    | none => [t]
    | some row =>
      if h : amount.micros ≤ row.balance.micros then
        [t, t.setAccount user (row.deduct amount h), (t.setAccount user (row.deduct amount h)).recordDeduction user amount]
      else [t] := by
  have hfound : run serveCredit (rowCalls (getAccount user)) t = (.ok (t.account? user), t) :=
    (run_rowCalls _ _).trans (run_getAccount t user)
  unfold deductCredits
  rw [trace_bind_ok serveCredit hfound, trace_rowCalls, CreditTables.account?]
  change [t] ++ _ = _
  cases hrow : t.credits.get? user with
  | none => rfl
  | some row =>
    rw [Option.map_some, trace_bind_ok serveCredit (run_ofOption_some serveCredit _ _ _), trace_ofOption]
    have henough : (row.account user).balance.asDecimal < amount.asDecimal ↔ ¬ amount.micros ≤ row.balance.micros :=
      CreditBalance.asDecimal_lt
    dsimp only
    by_cases h : amount.micros ≤ row.balance.micros
    · have hstate : trace serveCredit (ask (CreditCall.deductBalance user amount)) t =
          [t.setAccount user (row.deduct amount h)] := by
        rw [trace_ask, ← run_ask serveCredit, run_deductBalance hrow h]
      rw [if_neg (henough.not.mpr (not_not.mpr h)), dif_pos h, trace_bind_ok serveCredit (run_deductBalance hrow h), hstate]
      rfl
    · rw [if_pos (henough.mpr h), dif_neg h]
      rfl

theorem run_reserveCredits (id : ReservationId) (now : ℤ) (rentalId : RentalId) :
    run serveCredit (reserveCredits id now user amount rentalId) t =
      match t.credits.get? user with
      | none => (.error (.accountNotFound user), t)
      | some row =>
        let account := row.account user
        if account.canReserve amount then
          if representable (now + 3600 * 10 ^ 9) then
            let reservation := Reservation.made id now user amount (3600 * 10 ^ 9) (some rentalId)
            let held := serveCredit (CreditCall.holdReservation reservation) t
            (held.1.map (fun _ => reservation), held.2)
          else (.error .panicked, t)
        else (.error (.insufficientCredits account.availableBalance.asDecimal amount.asDecimal), t) := by
  unfold reserveCredits
  rw [run_bind_ok serveCredit (run_rowCalls _ _ |>.trans (run_getAccount t user)), CreditTables.account?]
  cases hrow : t.credits.get? user with
  | none => rfl
  | some row =>
    rw [Option.map_some, run_bind_ok serveCredit (run_ofOption_some serveCredit _ _ _), run_ite]
    have hcan : ((row.account user).canReserve amount = true) ↔
        ¬ (row.account user).availableBalance.asDecimal < amount.asDecimal := by
      rw [not_lt, CreditAccount.canReserve, CreditBalance.isSufficient, decide_eq_true_eq]
    simp only [hcan, ite_not]
    split_ifs with h hexpiry
    · rfl
    · rw [Reservation.new, if_pos hexpiry, run_bind_ok serveCredit (run_ofExcept serveCredit _ _), run_bind_pure]
      rfl
    · rw [Reservation.new, if_neg hexpiry, run_bind_error serveCredit (run_ofExcept serveCredit _ _)]

end SqlCreditRepository

inductive CreditOp
  | manager (op : ManagerOp)
  | cleanupExpiredReservations (now : ℤ)
  | repositoryReserve (id : ReservationId) (now : ℤ) (user : UserId) (amount : CreditBalance) (rentalId : RentalId)
  | repositoryRelease (id : ReservationId)
  | deductCredits (user : UserId) (amount : CreditBalance)
deriving DecidableEq

def CreditOp.calls : CreditOp → CreditCalls Reply
  | .manager op => rowCalls op.calls
  | .cleanupExpiredReservations now => do
    let n ← CreditManager.cleanupExpiredReservations now
    return .count n
  | .repositoryReserve id now user amount rentalId => do
    let reservation ← SqlCreditRepository.reserveCredits id now user amount rentalId
    return .reservation reservation.id
  | .repositoryRelease id => do
    SqlCreditRepository.releaseReservation id
    return .done
  | .deductCredits user amount => do
    SqlCreditRepository.deductCredits user amount
    return .done

def CreditOp.perform (op : CreditOp) (t : CreditTables) : CreditTables := (run serveCredit op.calls t).2

end Basilica.Billing
