import Basilica.CreditTables

/-!
The operations of the credit manager as programs of repository calls, and what each does when it runs alone.
-/

namespace Basilica.Billing

open AssocMaps AtomicCalls Calls CreditTables Option CreditAccount

abbrev RowCalls := Calls RowCall RowCall.Answer BillingError

def getAccount (user : UserId) : RowCalls (Option CreditAccount) := ask (RowCall.getAccount user)

def createAccount (account : CreditAccount) : RowCalls Unit := ask (RowCall.createAccount account)

def updateAccount (account : CreditAccount) : RowCalls Unit := ask (RowCall.updateAccount account)

def createReservation (reservation : Reservation) : RowCalls Unit := ask (RowCall.createReservation reservation)

def getReservation (id : ReservationId) : RowCalls (Option Reservation) := ask (RowCall.getReservation id)

def updateReservation (reservation : Reservation) : RowCalls Unit := ask (RowCall.updateReservation reservation)

namespace CreditManager

def getOrCreateAccount (user : UserId) : RowCalls CreditAccount := do
  match ← Billing.getAccount user with
  | some account => return account
  | none =>
    createAccount (.new user)
    let account ← Billing.getAccount user
    ofOption (.databaseError "get_or_create_account") account

def getBalance (user : UserId) : RowCalls CreditBalance := do
  let account ← getOrCreateAccount user
  return account.availableBalance

def getAccount (user : UserId) : RowCalls CreditAccount := getOrCreateAccount user

def applyCredits (user : UserId) (amount : CreditBalance) : RowCalls CreditBalance := do
  let account ← getOrCreateAccount user
  let account := account.applyCredits amount
  updateAccount account
  return account.balance

/-- The id and the time are those of `Reservation::new`. -/
def reserveCredits (id : ReservationId) (now : ℤ) (user : UserId) (amount : CreditBalance) (duration : ℤ)
    (rentalId : Option RentalId) : RowCalls ReservationId := do
  let account ← getOrCreateAccount user
  if account.canReserve amount then
    let reservation ← ofExcept (Reservation.new id now user amount duration rentalId)
    let account ← ofExcept (account.reserveCredits amount)
    createReservation reservation
    updateAccount account
    return reservation.id
  else
    fail (.insufficientBalance account.availableBalance.asDecimal amount.asDecimal)

/-- The start of both operations that end a reservation: it is marked released before the account is read. -/
def takeReservation (id : ReservationId) : RowCalls (Reservation × CreditAccount) := do
  let found ← Billing.getReservation id
  let reservation ← ofOption (.reservationNotFound id) found
  if reservation.released then
    fail (.reservationAlreadyReleased id)
  else
    updateReservation { reservation with released := true }
    let found ← Billing.getAccount reservation.userId
    let account ← ofOption (.userNotFound reservation.userId) found
    return (reservation, account)

def releaseReservation (id : ReservationId) : RowCalls CreditBalance := do
  let (reservation, account) ← takeReservation id
  updateAccount (account.releaseReservation reservation.amount)
  return reservation.amount

def chargeCredits (user : UserId) (amount : CreditBalance) : RowCalls CreditBalance := do
  let found ← Billing.getAccount user
  let account ← ofOption (.userNotFound user) found
  let account ← ofExcept (account.charge amount)
  updateAccount account
  return account.balance

def chargeFromReservation (id : ReservationId) (actualAmount : CreditBalance) : RowCalls CreditBalance := do
  let (reservation, account) ← takeReservation id
  let account ← ofExcept (account.chargeFromReservation reservation.amount actualAmount)
  updateAccount account
  return account.balance

def getReservation (id : ReservationId) : RowCalls Reservation := do
  let found ← Billing.getReservation id
  ofOption (.reservationNotFound id) found

/-- One turn of the loop over the expired reservations; what fails on the account is ignored. -/
def releaseExpired (reservation : Reservation) : RowCalls Unit :=
  if reservation.released then pure ()
  else do
    updateReservation { reservation with released := true }
    match ← catching (Billing.getAccount reservation.userId) with
    | .ok (some account) =>
      let _ ← catching (updateAccount (account.releaseReservation reservation.amount))
      return ()
    | _ => return ()

def releaseAllExpired : List Reservation → RowCalls Unit
  | [] => pure ()
  | reservation :: rest => do
    releaseExpired reservation
    releaseAllExpired rest

end CreditManager

theorem CreditAccount.row?_new (user : UserId) : (new user).row? = some .zero :=
  row?_eq_some.mpr ⟨rfl, rfl, rfl⟩

variable {account : CreditAccount} {reservation : Reservation}

section Calls

variable (t : CreditTables)

@[simp] theorem run_getAccount (user : UserId) : run serveRow (getAccount user) t = (.ok (t.account? user), t) := rfl

@[simp] theorem run_getReservation (id : ReservationId) :
    run serveRow (getReservation id) t = (.ok (t.reservation? id), t) := rfl

variable {t}

theorem run_createAccount {row : CreditsRow} (h : account.row? = some row) :
    run serveRow (createAccount account) t = (.ok (), t.ensureAccount account.userId row) := by
  change serveRow (RowCall.createAccount account) t = _
  simp only [serveRow, h]

theorem run_createReservation (h : t.reservations.get? reservation.id = none) :
    run serveRow (createReservation reservation) t = (.ok (), t.addReservation reservation) := by
  change serveRow (RowCall.createReservation reservation) t = _
  simp only [serveRow, h]

variable {old : ReservationRow}

theorem run_createReservation_taken (h : t.reservations.get? reservation.id = some old) :
    run serveRow (createReservation reservation) t = (.error (.databaseError "create_reservation"), t) := by
  change serveRow (RowCall.createReservation reservation) t = _
  simp only [serveRow, h]

theorem run_updateReservation (h : t.reservations.get? reservation.id = some old) :
    run serveRow (updateReservation reservation) t =
      (.ok (), t.setReleased reservation.id reservation.released) := by
  change serveRow (RowCall.updateReservation reservation) t = _
  simp only [serveRow, h]

def CreditTables.store (t : CreditTables) (account : CreditAccount) : Except BillingError Unit × CreditTables :=
  match account.row? with
  | none => (.error (.databaseError "update_account"), t)
  | some row => (.ok (), t.setAccount account.userId row)

theorem run_updateAccount {old : CreditsRow}
    (h : t.credits.get? account.userId = some old) : run serveRow (updateAccount account) t = t.store account := by
  change serveRow (RowCall.updateAccount account) t = _
  simp only [serveRow, h]
  rfl

end Calls

namespace CreditTables

def rowOf (t : CreditTables) (user : UserId) : CreditsRow := (t.credits.get? user).getD .zero

variable {row : CreditsRow} {t : CreditTables} {user : UserId}

theorem credits_ensured (t : CreditTables) (user : UserId) :
    (t.ensureAccount user .zero).credits.get? user = some (t.rowOf user) := by
  rw [credits_ensureAccount, if_pos rfl, rowOf]

section Rows

variable {old row : CreditsRow}

theorem rowOf_of_some (h : t.credits.get? user = some row) : t.rowOf user = row := by rw [rowOf, h, getD_some]

@[simp] theorem rowOf_ensureAccount (u : UserId) : (t.ensureAccount user .zero).rowOf u = t.rowOf u := by
  rw [rowOf, credits_ensureAccount]
  split_ifs with hu
  · rw [hu]
    rfl
  · rfl

theorem rowOf_setAccount (h : t.credits.get? user = some old) (u : UserId) :
    (t.setAccount user row).rowOf u = if u = user then row else t.rowOf u := by
  rw [rowOf, credits_setAccount, h]
  split_ifs <;> rfl

end Rows

theorem store_eq (h : account.row? = some row) (t : CreditTables) :
    t.store account = (.ok (), t.setAccount account.userId row) := by
  rw [store, h]

end CreditTables

variable (row : CreditsRow)

def CreditsRow.release (amount : CreditBalance) : CreditsRow where
  balance := row.balance
  reserved := (row.reserved.subtract amount).getD .zero
  lifetimeSpent := row.lifetimeSpent
  positive_balance := row.positive_balance
  positive_reserved := by
    rw [CreditBalance.subtract_eq]
    split_ifs with h
    · exact sub_nonneg.mpr h
    · exact le_rfl

def CreditsRow.deduct (amount : CreditBalance) (h : amount.micros ≤ row.balance.micros) : CreditsRow where
  balance := ⟨row.balance.micros - amount.micros⟩
  reserved := row.reserved
  lifetimeSpent := ⟨row.lifetimeSpent.micros + amount.micros⟩
  positive_balance := sub_nonneg.mpr h
  positive_reserved := row.positive_reserved

theorem CreditsRow.row?_account (user : UserId) : (row.account user).row? = some row :=
  row?_eq_some.mpr ⟨rfl, rfl, rfl⟩

theorem CreditsRow.releaseReservation_account (user : UserId) (amount : CreditBalance) :
    (row.account user).releaseReservation amount = (row.release amount).account user := rfl

theorem CreditsRow.chargeFromReservation_account (user : UserId) (reserved actual : CreditBalance) :
    (row.account user).chargeFromReservation reserved actual = ((row.release reserved).account user).charge actual := rfl

theorem CreditsRow.charge_account {amount : CreditBalance} (user : UserId) (h : amount.micros ≤ row.balance.micros) :
    (row.account user).charge amount = .ok ((row.deduct amount h).account user) := by
  rw [CreditAccount.charge, CreditBalance.subtract_eq, if_pos (show amount.micros ≤ (row.account user).balance.micros from h), CreditBalance.add_eq]
  rfl

namespace CreditManager

variable (t : CreditTables) (user : UserId) (amount : CreditBalance) (id : ReservationId)

theorem run_getOrCreateAccount : run serveRow (getOrCreateAccount user) t =
    (.ok ((t.rowOf user).account user), t.ensureAccount user .zero) := by
  unfold getOrCreateAccount
  rw [run_bind_ok serveRow (run_getAccount t user)]
  cases h : t.credits.get? user with
  | some row =>
    have haccount : t.account? user = some (row.account user) := by rw [account?, h, map_some]
    have hrow : t.rowOf user = row := by rw [rowOf, h, getD_some]
    rw [haccount, hrow, ensureAccount, AssocMap.insert_of_get? h]
    rfl
  | none =>
    have haccount : t.account? user = none := by rw [account?, h, map_none]
    have hfound : (t.ensureAccount user .zero).account? user = some ((t.rowOf user).account user) := by
      rw [account?, t.credits_ensured, map_some]
    rw [haccount]
    rw [run_bind_ok serveRow (run_createAccount (row?_new user)), run_bind_ok serveRow (run_getAccount _ user)]
    dsimp only [new]
    rw [hfound, run_ofOption_some]

theorem run_applyCredits : run serveRow (applyCredits user amount) t =
    let account := ((t.rowOf user).account user).applyCredits amount
    let stored := (t.ensureAccount user .zero).store account
    (stored.1.map (fun _ => account.balance), stored.2) := by
  unfold applyCredits
  rw [run_bind_ok serveRow (run_getOrCreateAccount t user), run_bind_pure, run_updateAccount (t.credits_ensured user)]

theorem run_reserveCredits (now duration : ℤ) (rentalId : Option RentalId) :
    run serveRow (reserveCredits id now user amount duration rentalId) t =
      let account := (t.rowOf user).account user
      let ensured := t.ensureAccount user .zero
      if account.canReserve amount then
        if representable (now + duration) then
          match t.reservations.get? id with
          | some _ => (.error (.databaseError "create_reservation"), ensured)
          | none =>
            let stored := (ensured.addReservation (.made id now user amount duration rentalId)).store
              { account with reserved := account.reserved.add amount }
            (stored.1.map (fun _ => id), stored.2)
        else (.error .panicked, ensured)
      else (.error (.insufficientBalance account.availableBalance.asDecimal amount.asDecimal), ensured) := by
  unfold reserveCredits
  rw [run_bind_ok serveRow (run_getOrCreateAccount t user), run_ite]
  dsimp only
  split_ifs with hcan hexpiry
  · rw [Reservation.new, if_pos hexpiry, run_bind_ok serveRow (run_ofExcept serveRow _ _)]
    have hreserve : ((t.rowOf user).account user).reserveCredits amount = .ok
        { (t.rowOf user).account user with reserved := ((t.rowOf user).account user).reserved.add amount } := by
      rw [CreditAccount.reserveCredits, if_pos hcan]
    rw [hreserve, run_bind_ok serveRow (run_ofExcept serveRow _ _)]
    let reservation := Reservation.made id now user amount duration rentalId
    cases hid : t.reservations.get? id with
    | some old =>
      have htaken : (t.ensureAccount user .zero).reservations.get? reservation.id = some old := hid
      rw [run_bind_error serveRow (run_createReservation_taken htaken)]
    | none =>
      have hfree : (t.ensureAccount user .zero).reservations.get? reservation.id = none := hid
      rw [run_bind_ok serveRow (run_createReservation hfree), run_bind_pure, run_updateAccount (t.credits_ensured user)]
      rfl
  · rw [Reservation.new, if_neg hexpiry, run_bind_error serveRow (run_ofExcept serveRow _ _)]
  · rfl

theorem run_findReservation : run serveRow (getReservation id) t =
    match t.reservations.get? id with
    | none => (.error (.reservationNotFound id), t)
    | some row => (.ok ⟨row, id⟩, t) := by
  unfold getReservation
  rw [run_bind_ok serveRow (run_getReservation t id), reservation?]
  cases t.reservations.get? id <;> rfl

/-- What comes of ending a reservation, where `f` is what happens to the reservation and the account that are found. -/
def ended {α : Type} (f : ReservationRow → CreditsRow → Except BillingError α × CreditTables) :
    Except BillingError α × CreditTables :=
  match t.reservations.get? id with
  | none => (.error (.reservationNotFound id), t)
  | some r =>
    if r.released then (.error (.reservationAlreadyReleased id), t)
    else match t.credits.get? r.userId with
      | none => (.error (.userNotFound r.userId), t.setReleased id true)
      | some row => f r row

theorem run_takeReservation {α : Type} {next : Reservation × CreditAccount → RowCalls α}
    {f : ReservationRow → CreditsRow → Except BillingError α × CreditTables}
    (h : ∀ r row, t.credits.get? r.userId = some row →
      run serveRow (next (⟨r, id⟩, row.account r.userId)) (t.setReleased id true) = f r row) :
    run serveRow (takeReservation id >>= next) t = ended t id f := by
  unfold takeReservation ended
  rw [run_bind, run_bind_ok serveRow (run_getReservation t id), reservation?]
  cases hid : t.reservations.get? id with
  | none => rfl
  | some r =>
    rw [map_some, run_bind_ok serveRow (run_ofOption_some serveRow _ _ _), run_ite]
    dsimp only
    split_ifs with hreleased
    · rfl
    · rw [run_bind_ok serveRow (run_updateReservation hid), run_bind_ok serveRow (run_getAccount _ _),
        account?, credits_setReleased]
      cases hrow : t.credits.get? r.userId with
      | none => rfl
      | some row => exact h r row hrow

theorem run_releaseReservation : run serveRow (releaseReservation id) t = ended t id (fun r row =>
    (.ok r.amount, (t.setReleased id true).setAccount r.userId (row.release r.amount))) := by
  apply run_takeReservation
  intro r row hrow
  let released := (row.release r.amount).account r.userId
  have hexists : (t.setReleased id true).credits.get? released.userId = some row := hrow
  dsimp only
  rw [row.releaseReservation_account, run_bind_pure, run_updateAccount hexists, store_eq ((row.release _).row?_account _)]
  rfl

theorem run_releaseExpired {row : ReservationRow}
    (hrow : t.reservations.get? reservation.id = some row) (hreleased : reservation.released = false) :
    run serveRow (releaseExpired reservation) t = (.ok (),
      match t.credits.get? reservation.userId with
      | none => t.setReleased reservation.id true
      | some account =>
        (t.setReleased reservation.id true).setAccount reservation.userId (account.release reservation.amount)) := by
  let marked : Reservation := { reservation with released := true }
  have hmarked : t.reservations.get? marked.id = some row := hrow
  unfold releaseExpired
  rw [if_neg (Bool.not_eq_true _ ▸ hreleased), run_bind_ok serveRow (run_updateReservation hmarked)]
  rw [run_bind_ok serveRow (run_catching serveRow _ _), run_getAccount, account?, credits_setReleased]
  cases haccount : t.credits.get? reservation.userId with
  | none => rfl
  | some account =>
    let released := (account.release reservation.amount).account reservation.userId
    have hexists : (t.setReleased reservation.id true).credits.get? released.userId = some account := haccount
    dsimp only [map_some]
    rw [account.releaseReservation_account, run_bind_ok serveRow (run_catching serveRow _ _), run_updateAccount hexists,
      store_eq ((account.release _).row?_account _)]
    rfl

theorem run_chargeCredits : run serveRow (chargeCredits user amount) t =
    match t.credits.get? user with
    | none => (.error (.userNotFound user), t)
    | some row =>
      if h : amount.micros ≤ row.balance.micros then
        (.ok (row.deduct amount h).balance, t.setAccount user (row.deduct amount h))
      else (.error (.insufficientBalance row.balance.asDecimal amount.asDecimal), t) := by
  unfold chargeCredits
  rw [run_bind_ok serveRow (run_getAccount t user), account?]
  cases hrow : t.credits.get? user with
  | none => rfl
  | some row =>
    rw [map_some, run_bind_ok serveRow (run_ofOption_some serveRow _ _ _)]
    dsimp only
    split_ifs with h
    · have hexists : t.credits.get? ((row.deduct amount h).account user).userId = some row := hrow
      rw [row.charge_account user h, run_bind_ok serveRow (run_ofExcept serveRow _ _), run_bind_pure,
        run_updateAccount hexists, store_eq ((row.deduct amount h).row?_account user)]
      rfl
    · rw [charge_of_lt (not_le.mp h)]
      rfl

theorem run_chargeFromReservation : run serveRow (chargeFromReservation id amount) t = ended t id (fun r row =>
    if h : amount.micros ≤ row.balance.micros then
      (.ok (row.deduct amount h).balance,
        (t.setReleased id true).setAccount r.userId ((row.release r.amount).deduct amount h))
    else (.error (.insufficientBalance row.balance.asDecimal amount.asDecimal), t.setReleased id true)) := by
  apply run_takeReservation
  intro r row hrow
  dsimp only
  rw [row.chargeFromReservation_account]
  split_ifs with h
  · let charged := (row.release r.amount).deduct amount h
    have hexists : (t.setReleased id true).credits.get? (charged.account r.userId).userId = some row := hrow
    rw [(row.release r.amount).charge_account r.userId h, run_bind_ok serveRow (run_ofExcept serveRow _ _), run_bind_pure,
      run_updateAccount hexists, store_eq (charged.row?_account r.userId)]
    rfl
  · rw [charge_of_lt (not_le.mp h)]
    rfl

end CreditManager

inductive Reply
  | amount (amount : CreditBalance)
  | reservation (id : ReservationId)
  | count (n : ℕ)
  | done
deriving DecidableEq

inductive ManagerOp
  | applyCredits (user : UserId) (amount : CreditBalance)
  | reserveCredits (id : ReservationId) (now : ℤ) (user : UserId) (amount : CreditBalance) (duration : ℤ)
      (rentalId : Option RentalId)
  | releaseReservation (id : ReservationId)
  | chargeCredits (user : UserId) (amount : CreditBalance)
  | chargeFromReservation (id : ReservationId) (actualAmount : CreditBalance)
deriving DecidableEq

def ManagerOp.calls : ManagerOp → RowCalls Reply
  | .applyCredits user amount => do
    let balance ← CreditManager.applyCredits user amount
    return .amount balance
  | .reserveCredits id now user amount duration rentalId => do
    let id ← CreditManager.reserveCredits id now user amount duration rentalId
    return .reservation id
  | .releaseReservation id => do
    let amount ← CreditManager.releaseReservation id
    return .amount amount
  | .chargeCredits user amount => do
    let balance ← CreditManager.chargeCredits user amount
    return .amount balance
  | .chargeFromReservation id actualAmount => do
    let balance ← CreditManager.chargeFromReservation id actualAmount
    return .amount balance

end Basilica.Billing
