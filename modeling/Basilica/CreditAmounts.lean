import Basilica.Decimals

namespace Basilica.Billing

open Decimals

/-- The user that an id resolves to, who has a row of `billing.users`. -/
abbrev UserId := String

abbrev ReservationId := ℕ

abbrev RentalId := ℕ

inductive BillingError
  | insufficientBalance (available required : ℚ)
  | reservationNotFound (id : ReservationId)
  | reservationAlreadyReleased (id : ReservationId)
  | userNotFound (id : UserId)
  | rentalNotFound (id : RentalId)
  | invalidStateTransition (source target : String)
  | packageNotFound (id : String)
  | databaseError (operation : String)
  | eventStoreError (message : String)
  | telemetryError (source : String)
  | validationError (field message : String)
  | accountNotFound (id : UserId)
  | insufficientCredits (available required : ℚ)
  /-- No error of the source: the task panics. -/
  | panicked
deriving DecidableEq

/-- A decimal rounded to six places, in units of the last place. -/
structure CreditBalance where
  micros : ℤ
deriving DecidableEq

open CreditBalance

namespace CreditBalance

def zero : CreditBalance := ⟨0⟩

def fromDecimal (amount : ℚ) : CreditBalance := ⟨roundHalfEven (amount * 10 ^ 6)⟩

def asDecimal (b : CreditBalance) : ℚ := b.micros / 10 ^ 6

def add (a b : CreditBalance) : CreditBalance := fromDecimal (a.asDecimal + b.asDecimal)

def subtract (a b : CreditBalance) : Option CreditBalance :=
  if b.asDecimal ≤ a.asDecimal then some (fromDecimal (a.asDecimal - b.asDecimal)) else none

def multiply (a : CreditBalance) (factor : ℚ) : CreditBalance := fromDecimal (a.asDecimal * factor)

def isSufficient (a required : CreditBalance) : Bool := required.asDecimal ≤ a.asDecimal

variable {a b : CreditBalance}

theorem asDecimal_le : a.asDecimal ≤ b.asDecimal ↔ a.micros ≤ b.micros := by
  unfold asDecimal
  rw [div_le_div_iff_of_pos_right (by norm_num)]
  exact Int.cast_le

theorem asDecimal_lt : a.asDecimal < b.asDecimal ↔ ¬ b.micros ≤ a.micros := by
  rw [← not_le, asDecimal_le]

theorem fromDecimal_micros (n : ℤ) {q : ℚ} (h : q * 10 ^ 6 = n) : fromDecimal q = ⟨n⟩ := by
  rw [fromDecimal, h, roundHalfEven_intCast]

@[simp] theorem add_eq : a.add b = ⟨a.micros + b.micros⟩ := by
  apply fromDecimal_micros
  unfold asDecimal
  push_cast
  ring

@[simp] theorem subtract_eq : a.subtract b = if b.micros ≤ a.micros then some ⟨a.micros - b.micros⟩ else none := by
  have hdiff : fromDecimal (a.asDecimal - b.asDecimal) = ⟨a.micros - b.micros⟩ := by
    apply fromDecimal_micros
    unfold asDecimal
    push_cast
    ring
  simp only [subtract, asDecimal_le, hdiff]

theorem multiply_eq {factor : ℚ} : a.multiply factor = ⟨roundHalfEven (a.micros * factor)⟩ := by
  have hscale : a.asDecimal * factor * 10 ^ 6 = a.micros * factor := by
    unfold asDecimal
    ring
  rw [multiply, fromDecimal, hscale]

@[simp] theorem isSufficient_eq : a.isSufficient b = decide (b.micros ≤ a.micros) := by
  simp only [isSufficient, asDecimal_le]

end CreditBalance

structure CreditAccount where
  userId : UserId
  balance : CreditBalance
  reserved : CreditBalance
  lifetimeSpent : CreditBalance

namespace CreditAccount

def new (userId : UserId) : CreditAccount := ⟨userId, .zero, .zero, .zero⟩

def availableBalance (account : CreditAccount) : CreditBalance :=
  (account.balance.subtract account.reserved).getD .zero

def canReserve (account : CreditAccount) (amount : CreditBalance) : Bool :=
  account.availableBalance.isSufficient amount

def applyCredits (account : CreditAccount) (amount : CreditBalance) : CreditAccount :=
  { account with balance := account.balance.add amount }

def reserveCredits (account : CreditAccount) (amount : CreditBalance) : Except BillingError CreditAccount :=
  if account.canReserve amount then .ok { account with reserved := account.reserved.add amount }
  else .error (.insufficientBalance account.availableBalance.asDecimal amount.asDecimal)

def releaseReservation (account : CreditAccount) (amount : CreditBalance) : CreditAccount :=
  { account with reserved := (account.reserved.subtract amount).getD .zero }

def charge (account : CreditAccount) (amount : CreditBalance) : Except BillingError CreditAccount :=
  match account.balance.subtract amount with
  | none => .error (.insufficientBalance account.balance.asDecimal amount.asDecimal)
  | some balance => .ok { account with balance := balance, lifetimeSpent := account.lifetimeSpent.add amount }

def chargeFromReservation (account : CreditAccount) (reserved actual : CreditBalance) :
    Except BillingError CreditAccount :=
  (account.releaseReservation reserved).charge actual

variable {account : CreditAccount} {amount : CreditBalance}

theorem availableBalance_micros :
    account.availableBalance.micros = max (account.balance.micros - account.reserved.micros) 0 := by
  unfold availableBalance
  rw [subtract_eq]
  split_ifs with h
  · rw [Option.getD_some, max_eq_left (sub_nonneg.mpr h)]
  · rw [Option.getD_none, max_eq_right (by omega)]
    rfl

theorem canReserve_iff :
    account.canReserve amount ↔ amount.micros ≤ max (account.balance.micros - account.reserved.micros) 0 := by
  unfold canReserve
  rw [isSufficient_eq, decide_eq_true_eq, availableBalance_micros]

theorem charge_of_lt (h : account.balance.micros < amount.micros) : account.charge amount =
    .error (.insufficientBalance account.balance.asDecimal amount.asDecimal) := by
  unfold charge
  rw [subtract_eq, if_neg (not_le.mpr h)]

end CreditAccount

end Basilica.Billing
