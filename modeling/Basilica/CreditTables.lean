import Basilica.AssocMaps
import Basilica.CreditAmounts
import Basilica.RowLocks

/-!
The tables behind the credit repository and its calls that read or write a single row. Users are the ones
their ids resolve to.
-/

namespace Basilica.Billing

open AssocMaps AtomicCalls AssocMap

/-- A row of `billing.credits`, with its two checks. -/
structure CreditsRow where
  balance : CreditBalance
  reserved : CreditBalance
  lifetimeSpent : CreditBalance
  positive_balance : 0 ≤ balance.micros
  positive_reserved : 0 ≤ reserved.micros
deriving DecidableEq

structure ReservationRow where
  userId : UserId
  rentalId : Option RentalId
  amount : CreditBalance
  createdAt : ℤ
  expiresAt : ℤ
  released : Bool
deriving DecidableEq

structure Reservation extends ReservationRow where
  id : ReservationId

/-- The times of chrono, in nanoseconds. -/
def representable (time : ℤ) : Bool := -8334601228800 * 10 ^ 9 ≤ time && time < 8210266876800 * 10 ^ 9

section

variable (id : ReservationId) (now : ℤ) (userId : UserId) (amount : CreditBalance) (duration : ℤ) (rentalId : Option RentalId)

def Reservation.made : Reservation := ⟨⟨userId, rentalId, amount, now, now + duration, false⟩, id⟩

/-- `now + duration` panics where it overflows. -/
def Reservation.new : Except BillingError Reservation :=
  if representable (now + duration) then .ok (.made id now userId amount duration rentalId) else .error .panicked

end

structure BillingEvent where
  eventType : String
  entityType : String
  entityId : String
  amount : Option CreditBalance

structure CreditTables where
  credits : AssocMap UserId CreditsRow
  reservations : AssocMap ReservationId ReservationRow
  billingEvents : List BillingEvent

open CreditTables

def CreditsRow.zero : CreditsRow := ⟨.zero, .zero, .zero, le_rfl, le_rfl⟩

def CreditsRow.account (row : CreditsRow) (user : UserId) : CreditAccount :=
  ⟨user, row.balance, row.reserved, row.lifetimeSpent⟩

def CreditAccount.row? (account : CreditAccount) : Option CreditsRow :=
  if h : 0 ≤ account.balance.micros ∧ 0 ≤ account.reserved.micros then
    some ⟨account.balance, account.reserved, account.lifetimeSpent, h.1, h.2⟩
  else none

variable {account : CreditAccount}

theorem CreditAccount.row?_eq_none :
    account.row? = none ↔ account.balance.micros < 0 ∨ account.reserved.micros < 0 := by
  unfold row?
  split_ifs with h
  · simp only [false_iff]
    omega
  · simp only [true_iff]
    omega

theorem CreditAccount.row?_eq_some {row : CreditsRow} : account.row? = some row ↔
      row.balance = account.balance ∧ row.reserved = account.reserved ∧ row.lifetimeSpent = account.lifetimeSpent := by
  unfold row?
  split_ifs with h
  · obtain ⟨balance, reserved, lifetimeSpent, _, _⟩ := row
    simp [eq_comm]
  · simp only [false_iff]
    rintro ⟨hbalance, hreserved, -⟩
    exact h ⟨hbalance ▸ row.positive_balance, hreserved ▸ row.positive_reserved⟩

theorem CreditAccount.exists_row (hbalance : 0 ≤ account.balance.micros)
    (hreserved : 0 ≤ account.reserved.micros) :
    ∃ row, account.row? = some row ∧ row.balance = account.balance ∧ row.reserved = account.reserved := by
  refine ⟨⟨account.balance, account.reserved, account.lifetimeSpent, hbalance, hreserved⟩, ?_, rfl, rfl⟩
  exact row?_eq_some.mpr ⟨rfl, rfl, rfl⟩

namespace CreditTables

def empty : CreditTables := ⟨.empty, .empty, []⟩

variable (t : CreditTables)

def account? (user : UserId) : Option CreditAccount :=
  (t.credits.get? user).map (fun row => row.account user)

def reservation? (id : ReservationId) : Option Reservation :=
  (t.reservations.get? id).map (fun row => ⟨row, id⟩)

def ensureAccount (user : UserId) (row : CreditsRow) : CreditTables :=
  { t with credits := t.credits.insert user row }

def setAccount (user : UserId) (row : CreditsRow) : CreditTables :=
  { t with credits := t.credits.modify user (fun _ => row) }

def addReservation (r : Reservation) : CreditTables :=
  { t with reservations := t.reservations.insert r.id r.toReservationRow }

def setReleased (id : ReservationId) (released : Bool) : CreditTables :=
  { t with reservations := t.reservations.modify id (fun row => { row with released := released }) }

section Lookups

variable (t : CreditTables) (user v : UserId) (row : CreditsRow) (id j : ReservationId) (released : Bool)

@[simp] theorem credits_ensureAccount : (t.ensureAccount user row).credits.get? v =
    if v = user then some ((t.credits.get? user).getD row) else t.credits.get? v := by
  unfold ensureAccount
  cases h : t.credits.get? user with
  | none => rw [get?_insert h, Option.getD_none]
  | some old =>
    rw [insert_of_get? h]
    split_ifs with hv
    · rw [hv, h, Option.getD_some]
    · rfl

@[simp] theorem credits_setAccount : (t.setAccount user row).credits.get? v =
    if v = user then (t.credits.get? user).map (fun _ => row) else t.credits.get? v :=
  get?_modify ..

@[simp] theorem reservations_setReleased : (t.setReleased id released).reservations.get? j =
    if j = id then (t.reservations.get? id).map (fun r => { r with released := released })
    else t.reservations.get? j :=
  get?_modify ..

theorem reservations_addReservation {r : Reservation} (h : t.reservations.get? r.id = none) :
    (t.addReservation r).reservations.get? j =
      if j = r.id then some r.toReservationRow else t.reservations.get? j :=
  get?_insert h ..

@[simp] theorem reservations_setAccount : (t.setAccount user row).reservations = t.reservations := rfl

@[simp] theorem credits_setReleased : (t.setReleased id released).credits = t.credits := rfl

end Lookups

end CreditTables

inductive RowCall
  | getAccount (user : UserId)
  | createAccount (account : CreditAccount)
  | updateAccount (account : CreditAccount)
  | createReservation (reservation : Reservation)
  | getReservation (id : ReservationId)
  | updateReservation (reservation : Reservation)

abbrev RowCall.Answer : RowCall → Type
  | .getAccount _ => Option CreditAccount
  | .getReservation _ => Option Reservation
  | _ => Unit

def serveRow : Server RowCall RowCall.Answer BillingError CreditTables
  | .getAccount user, t => (.ok (t.account? user), t)
  | .createAccount account, t =>
    match account.row? with
    | none => (.error (.databaseError "create_account"), t)
    | some row => (.ok (), t.ensureAccount account.userId row)
  | .updateAccount account, t =>
    match t.credits.get? account.userId with
    | none => (.error (.userNotFound account.userId), t)
    | some _ =>
      match account.row? with
      | none => (.error (.databaseError "update_account"), t)
      | some row => (.ok (), t.setAccount account.userId row)
  | .createReservation reservation, t =>
    match t.reservations.get? reservation.id with
    | none => (.ok (), t.addReservation reservation)
    | some _ => (.error (.databaseError "create_reservation"), t)
  | .getReservation id, t => (.ok (t.reservation? id), t)
  | .updateReservation reservation, t =>
    match t.reservations.get? reservation.id with
    | none => (.error (.reservationNotFound reservation.id), t)
    | some _ => (.ok (), t.setReleased reservation.id reservation.released)

inductive Row
  | account (user : UserId)
  | reservation (id : ReservationId)
deriving DecidableEq

def RowCall.row : RowCall → Row
  | .getAccount user => .account user
  | .createAccount account => .account account.userId
  | .updateAccount account => .account account.userId
  | .createReservation reservation => .reservation reservation.id
  | .getReservation id => .reservation id
  | .updateReservation reservation => .reservation reservation.id

def CreditTables.look (t : CreditTables) : Row → Option CreditsRow ⊕ Option ReservationRow
  | .account user => .inl (t.credits.get? user)
  | .reservation id => .inr (t.reservations.get? id)

theorem serveRow_answer_congr (c : RowCall) (t t' : CreditTables) (h : t.look c.row = t'.look c.row) :
    (serveRow c t).1 = (serveRow c t').1 := by
  cases c with
  | getAccount user =>
    have h := Sum.inl.inj h
    simp only [serveRow, account?, h]
  | createAccount account =>
    simp only [serveRow]
    cases account.row? <;> rfl
  | updateAccount account =>
    have h := Sum.inl.inj h
    simp only [serveRow, h]
    cases t'.credits.get? account.userId
    · rfl
    · cases account.row? <;> rfl
  | createReservation reservation | updateReservation reservation =>
    have h := Sum.inr.inj h
    simp only [serveRow, h]
    cases t'.reservations.get? reservation.id <;> rfl
  | getReservation id =>
    have h := Sum.inr.inj h
    simp only [serveRow, reservation?, h]

theorem serveRow_effect_congr (c : RowCall) (t t' : CreditTables) (h : t.look c.row = t'.look c.row) :
    (serveRow c t).2.look c.row = (serveRow c t').2.look c.row := by
  cases c with
  | getAccount user | getReservation id => exact h
  | createAccount account =>
    simp only [serveRow]
    cases account.row? with
    | none => exact h
    | some row =>
      have h := Sum.inl.inj h
      simp only [RowCall.row, look, credits_ensureAccount, h]
  | updateAccount account =>
    have h' := Sum.inl.inj h
    simp only [serveRow, h']
    cases hrow : t'.credits.get? account.userId with
    | none => exact h
    | some old =>
      cases account.row? with
      | none => exact h
      | some row => simp only [RowCall.row, look, credits_setAccount, h']
  | createReservation reservation =>
    have h' := Sum.inr.inj h
    simp only [serveRow, h']
    cases hrow : t'.reservations.get? reservation.id with
    | none =>
      simp only [RowCall.row, look, t.reservations_addReservation _ (h'.trans hrow),
        t'.reservations_addReservation _ hrow, ↓reduceIte]
    | some old => exact h
  | updateReservation reservation =>
    have h' := Sum.inr.inj h
    simp only [serveRow, h']
    cases hrow : t'.reservations.get? reservation.id with
    | none => exact h
    | some old => simp only [RowCall.row, look, reservations_setReleased, h']

theorem serveRow_frame (c : RowCall) (t : CreditTables) (x : Row) (hx : x ≠ c.row) :
    (serveRow c t).2.look x = t.look x := by
  cases c with
  | getAccount user | getReservation id => rfl
  | createAccount account =>
    simp only [serveRow]
    cases account.row? with
    | none => rfl
    | some row =>
      cases x with
      | account user =>
        have hne : user ≠ account.userId := fun h => hx (congrArg Row.account h)
        simp only [look, credits_ensureAccount, if_neg hne]
      | reservation id => rfl
  | updateAccount account =>
    simp only [serveRow]
    cases t.credits.get? account.userId with
    | none => rfl
    | some old =>
      cases account.row? with
      | none => rfl
      | some row =>
        cases x with
        | account user =>
          have hne : user ≠ account.userId := fun h => hx (congrArg Row.account h)
          simp only [look, credits_setAccount, if_neg hne]
        | reservation id => rfl
  | createReservation reservation =>
    simp only [serveRow]
    cases hrow : t.reservations.get? reservation.id with
    | none =>
      cases x with
      | account user => rfl
      | reservation id =>
        have hne : id ≠ reservation.id := fun h => hx (congrArg Row.reservation h)
        simp only [look, t.reservations_addReservation _ hrow, if_neg hne]
    | some old => rfl
  | updateReservation reservation =>
    simp only [serveRow]
    cases t.reservations.get? reservation.id with
    | none => rfl
    | some old =>
      cases x with
      | account user => rfl
      | reservation id =>
        have hne : id ≠ reservation.id := fun h => hx (congrArg Row.reservation h)
        simp only [look, reservations_setReleased, if_neg hne]

def creditRows : RowLocks.RowView serveRow Row (Option CreditsRow ⊕ Option ReservationRow) where
  look := CreditTables.look
  row := RowCall.row
  answer_congr := serveRow_answer_congr
  effect_congr := serveRow_effect_congr
  frame := serveRow_frame

end Basilica.Billing
