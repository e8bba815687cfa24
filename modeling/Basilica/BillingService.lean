import Basilica.RentalEvents

/-!
The handlers of the billing service that take an amount as text, and the one that changes the status of a rental.
Reading a decimal or an id from its text is left to the caller.
-/

namespace Basilica.Billing

open AssocMaps AtomicCalls Calls List BillingTables CreditTables

inductive StatusCode
  | invalidArgument
  | notFound
  | failedPrecondition
  | internal
deriving DecidableEq

structure Status where
  code : StatusCode
  message : String
  cause : Option BillingError
deriving DecidableEq

def Status.internal (message : String) (e : BillingError) : Status := ⟨.internal, message, some e⟩

/-- `Decimal::from_str` and `Uuid::parse_str`, with the texts of their errors. -/
structure Parsers where
  decimal : String → Except String ℚ
  uuid : String → Except String ℕ

def plainParsers : Parsers where
  decimal text :=
    match Decimals.readDecimal text with
    | some q => .ok q
    | none => .error "invalid decimal"
  uuid text :=
    match Decimals.readDigits text.toList with
    | some n => .ok n
    | none => .error "invalid id"

inductive RentalStatus
  | unspecified
  | pending
  | active
  | stopping
  | stopped
  | failed
deriving DecidableEq

def RentalStatus.asStrName : RentalStatus → String
  | .unspecified => "RENTAL_STATUS_UNSPECIFIED"
  | .pending => "RENTAL_STATUS_PENDING"
  | .active => "RENTAL_STATUS_ACTIVE"
  | .stopping => "RENTAL_STATUS_STOPPING"
  | .stopped => "RENTAL_STATUS_STOPPED"
  | .failed => "RENTAL_STATUS_FAILED"

def rentalStatusToDomain : RentalStatus → RentalState
  | .pending => .pending
  | .active => .active
  | .stopping => .terminating
  | .stopped => .completed
  | .failed => .failed
  | .unspecified => .pending

structure ProtoDuration where
  seconds : ℤ
  nanos : ℤ

/-- `Duration::seconds(s) + Duration::nanoseconds(n)` in nanoseconds; out of range it panics. -/
def ProtoDuration.toChrono? (d : ProtoDuration) : Option ℤ :=
  let nanos := d.seconds * 10 ^ 9 + d.nanos
  if |d.seconds| ≤ (2 ^ 63 - 1) / 1000 ∧ |nanos| ≤ (2 ^ 63 - 1) * 10 ^ 6 then some nanos else none

abbrev ServiceCalls := Calls Call (fun c => Except BillingError c.Answer) Status

def managerCalls {α : Type} (p : RowCalls α) : BillingCalls α := creditCalls (rowCalls p)

namespace BillingService

section Handlers

variable (parsers : Parsers)

def parseDecimal (text : String) : Except BillingError ℚ :=
  (parsers.decimal text).mapError (fun e => .validationError "amount" s!"Invalid decimal value: {e}")

def readAmount (message text : String) : Except Status ℚ :=
  (parseDecimal parsers text).mapError (fun e => ⟨.invalidArgument, message, some e⟩)

def readId (message text : String) : Except Status ℕ :=
  (parsers.uuid text).mapError (fun e => ⟨.invalidArgument, s!"{message}: {e}", none⟩)

def applyCredits (user : UserId) (amount : String) : ServiceCalls CreditBalance := do
  let amount ← ofExcept (readAmount parsers "Invalid amount" amount)
  (managerCalls (CreditManager.applyCredits user (.fromDecimal amount))).mapError (.internal "Failed to apply credits")

def getBalance (user : UserId) : ServiceCalls (CreditBalance × CreditBalance × CreditBalance) := do
  let account ← (managerCalls (CreditManager.getAccount user)).mapError (.internal "Failed to get account")
  return (account.availableBalance, account.reserved, account.balance)

/-- An error without a status is a panic, here and below. -/
def reserveArguments (amount rentalId : String) (duration : Option ProtoDuration) :
    Except (Option Status) (ℚ × ℤ × Option RentalId) := do
  let rentalId ← (if rentalId = "" then .ok none else (readId parsers "Invalid rental ID" rentalId).map some).mapError some
  let amount ← (readAmount parsers "Invalid amount" amount).mapError some
  match duration.map ProtoDuration.toChrono? with
  | none => .error (some ⟨.invalidArgument, "Duration is required", none⟩)
  | some none => .error none
  | some (some nanos) => .ok (amount, nanos, rentalId)

def reserveError : BillingError → Option Status
  | .insufficientBalance available required =>
    some ⟨.failedPrecondition, "Insufficient balance", some (.insufficientBalance available required)⟩
  | .panicked => none
  | e => some (.internal "Failed to reserve credits" e)

def reserveCredits (reservation : ReservationId) (now : ℤ) (user : UserId) (amount rentalId : String)
    (duration : Option ProtoDuration) : Calls Call (fun c => Except BillingError c.Answer) (Option Status) Reservation := do
  let (amount, nanos, rentalId) ← ofExcept (reserveArguments parsers amount rentalId duration)
  let reservation ←
    (managerCalls (CreditManager.reserveCredits reservation now user (.fromDecimal amount) nanos rentalId)).mapError reserveError
  (managerCalls (CreditManager.getReservation reservation)).mapError (fun e => some (.internal "Failed to get reservation" e))

def releaseArguments (reservationId finalAmount : String) : Except Status (ReservationId × ℚ) := do
  let id ← readId parsers "Invalid reservation ID" reservationId
  let amount ← readAmount parsers "Invalid amount" finalAmount
  return (id, amount)

def releaseError : BillingError → Status
  | .reservationNotFound id => ⟨.notFound, "Reservation not found", some (.reservationNotFound id)⟩
  | .reservationAlreadyReleased id =>
    ⟨.failedPrecondition, "Reservation already released", some (.reservationAlreadyReleased id)⟩
  | e => .internal "Failed to release reservation" e

structure ReleaseResponse where
  chargedAmount : ℚ
  refundedAmount : CreditBalance
  newBalance : CreditBalance

def releaseReservation (reservationId finalAmount : String) : ServiceCalls ReleaseResponse := do
  let (id, amount) ← ofExcept (releaseArguments parsers reservationId finalAmount)
  let reservation ← (managerCalls (CreditManager.getReservation id)).mapError
    (fun e => ⟨.notFound, "Reservation not found", some e⟩)
  let newBalance ← (managerCalls (CreditManager.chargeFromReservation id (.fromDecimal amount))).mapError releaseError
  return ⟨amount, (reservation.amount.subtract (.fromDecimal amount)).getD .zero, newBalance⟩

def updateError : BillingError → Status
  | .rentalNotFound id => ⟨.notFound, "Rental not found", some (.rentalNotFound id)⟩
  | .invalidStateTransition source target =>
    ⟨.failedPrecondition, "Invalid state transition", some (.invalidStateTransition source target)⟩
  | e => .internal "Failed to update rental" e

/-- The rental is read again and written back. -/
def persistRental (id : RentalId) (message : String) : ServiceCalls Rental := do
  let rental ← (RentalManager.getRental id).mapError (.internal "Failed to get rental")
  (updateRental rental).mapError (.internal message)
  return rental

/-- The event that reports the change is queued last; as the old status it names the requested one. -/
def updateRentalStatus (now : ℤ) (rentalId : String) (status : RentalStatus) (reason : String) :
    ServiceCalls CreditBalance := do
  let id ← ofExcept (readId parsers "Invalid rental ID" rentalId)
  let newStatus := rentalStatusToDomain status
  let _ ← (RentalManager.updateStatus id newStatus now).mapError updateError
  let rental ← persistRental id "Failed to persist status"
  let change : StatusChangeData :=
    ⟨status.asStrName, newStatus.toText, if reason = "" then none else some reason⟩
  let event : UsageEvent := ⟨id, rental.userId, rental.executorId, rental.validatorId, .statusChange (.ok change)⟩
  (appendUsageEvent event).mapError (.internal "Failed to store status change event")
  return rental.actualCost

def finalizeArguments (rentalId finalCost : String) : Except Status (RentalId × ℚ) := do
  let id ← readId parsers "Invalid rental ID" rentalId
  let cost ← readAmount parsers "Invalid final cost" finalCost
  return (id, cost)

/-- The reservation of the rental is charged if it is still active, the account otherwise. -/
def chargeRental (id : RentalId) (user : UserId) (cost : CreditBalance) (reservations : List Reservation) :
    ServiceCalls CreditBalance :=
  match reservations.find? (fun r => r.rentalId = some id) with
  | some reservation => do
    let _ ← (managerCalls (CreditManager.chargeFromReservation reservation.id cost)).mapError
      (.internal "Failed to charge reservation")
    return (reservation.amount.subtract cost).getD .zero
  | none => do
    let _ ← (managerCalls (CreditManager.chargeCredits user cost)).mapError (.internal "Failed to charge credits")
    return .zero

structure FinalizeResponse where
  totalCost : ℚ
  chargedAmount : CreditBalance
  refundedAmount : CreditBalance

def finalizeRental (now : ℤ) (rentalId finalCost : String) : ServiceCalls FinalizeResponse := do
  let (id, cost) ← ofExcept (finalizeArguments parsers rentalId finalCost)
  let rental ← (RentalManager.finalizeRental id now).mapError (.internal "Failed to finalize rental")
  let reservations ← (creditCalls (CreditManager.getActiveReservations rental.userId now)).mapError
    (.internal "Failed to get reservations")
  let refunded ← chargeRental id rental.userId (.fromDecimal cost) reservations
  let _ ← persistRental id "Failed to persist rental"
  return ⟨cost, .fromDecimal cost, refunded⟩

end Handlers

end BillingService

open BillingService

section Charges

inductive ChargeOutcome (c c' : CreditTables) (user : UserId) (amount : CreditBalance) : Prop
  | refused (h : ∀ row, c.credits.get? user = some row → row.balance.micros < amount.micros)
      (hrows : ∀ u, (c'.rowOf u).balance = (c.rowOf u).balance ∧ (c'.rowOf u).lifetimeSpent = (c.rowOf u).lifetimeSpent)
  | charged {row : CreditsRow} (hrow : c.credits.get? user = some row) (h : amount.micros ≤ row.balance.micros)
      (hbalance : ∀ u, (c'.rowOf u).balance.micros = (c.rowOf u).balance.micros - if u = user then amount.micros else 0)
      (hspent : ∀ u, (c'.rowOf u).lifetimeSpent.micros =
        (c.rowOf u).lifetimeSpent.micros + if u = user then amount.micros else 0)

variable {c : CreditTables} {user : UserId} {amount : CreditBalance} {row : CreditsRow}

theorem ChargeOutcome.of_refused {c' : CreditTables} {row? : Option CreditsRow} (hcredits : c'.credits = c.credits)
    (hrow : c.credits.get? user = row?) (h : ∀ row ∈ row?, row.balance.micros < amount.micros) : ChargeOutcome c c' user amount := by
  subst hrow
  refine .refused h ?_
  intro u
  rw [rowOf, hcredits]
  exact ⟨rfl, rfl⟩

theorem ChargeOutcome.of_deduct {x : CreditTables} {new : CreditsRow} (hx : x.credits = c.credits)
    (hrow : c.credits.get? user = some row) (h : amount.micros ≤ row.balance.micros)
    (hbalance : new.balance.micros = row.balance.micros - amount.micros)
    (hspent : new.lifetimeSpent.micros = row.lifetimeSpent.micros + amount.micros) :
    ChargeOutcome c (x.setAccount user new) user amount := by
  have hxrow : x.credits.get? user = some row := by rw [hx, hrow]
  have hother : ∀ u, x.rowOf u = c.rowOf u := fun u => by rw [rowOf, hx, rowOf]
  refine .charged hrow h ?_ ?_
  · intro u
    rw [rowOf_setAccount hxrow]
    split_ifs with hu
    · rw [hbalance, hu, rowOf_of_some hrow]
    · rw [hother, sub_zero]
  · intro u
    rw [rowOf_setAccount hxrow]
    split_ifs with hu
    · rw [hspent, hu, rowOf_of_some hrow]
    · rw [hother, add_zero]

theorem chargeCredits_outcome (c : CreditTables) (user : UserId) (amount : CreditBalance) :
    ChargeOutcome c (run serveRow (CreditManager.chargeCredits user amount) c).2 user amount := by
  rw [CreditManager.run_chargeCredits]
  cases hrow : c.credits.get? user with
  | none =>
    apply ChargeOutcome.of_refused rfl hrow
    rintro _ ⟨⟩
  | some row =>
    dsimp only
    split_ifs with h
    · exact .of_deduct rfl hrow h rfl rfl
    · apply ChargeOutcome.of_refused rfl hrow
      rintro _ ⟨⟩
      omega

theorem chargeFromReservation_outcome {id : ReservationId} {r : ReservationRow} (amount : CreditBalance)
    (hr : c.reservations.get? id = some r) (hreleased : r.released = false) :
    ChargeOutcome c (run serveRow (CreditManager.chargeFromReservation id amount) c).2 r.userId amount := by
  rw [CreditManager.run_chargeFromReservation, CreditManager.ended, hr]
  dsimp only
  rw [if_neg (Bool.not_eq_true _ ▸ hreleased)]
  have hcredits : (c.setReleased id true).credits = c.credits := rfl
  cases hrow : c.credits.get? r.userId with
  | none =>
    apply ChargeOutcome.of_refused hcredits hrow
    rintro _ ⟨⟩
  | some row =>
    dsimp only
    split_ifs with h
    · exact .of_deduct hcredits hrow h rfl rfl
    · apply ChargeOutcome.of_refused hcredits hrow
      rintro _ ⟨⟩
      omega

theorem activeReservations_spec {now : ℤ} {r : Reservation} (h : r ∈ c.activeReservations user now) :
    c.reservations.get? r.id = some r.toReservationRow ∧ r.userId = user ∧ r.released = false := by
  have hperm := perm_insertionSort (fun r r' : Reservation => r'.createdAt ≤ r.createdAt)
    (c.reservationList.filter (fun r => r.userId = user ∧ r.released = false ∧ now < r.expiresAt))
  obtain ⟨hmem, hactive⟩ := mem_filter.mp (hperm.mem_iff.mp h)
  obtain ⟨p, hp, rfl⟩ := mem_map.mp hmem
  have hactive := of_decide_eq_true hactive
  exact ⟨AssocMap.get?_of_mem hp, hactive.1, hactive.2.1⟩

end Charges

def BillingTables.view (t : BillingTables) : CreditTables × (RentalId → Option RentalState) := (t.credit, t.state?)

section Runs

variable {t : BillingTables} {parsers : Parsers} {id : RentalId} {row : RentalRow}

@[simp] theorem run_managerCalls {α : Type} (p : RowCalls α) (t : BillingTables) :
    run serve (managerCalls p) t = ((run serveRow p t.credit).1, t.setCredit (run serveRow p t.credit).2) := by
  rw [managerCalls, run_creditCalls, run_rowCalls]

theorem chargeRental_outcome (t : BillingTables) (id : RentalId) (user : UserId) (cost : CreditBalance) (now : ℤ) :
    ∃ c', (run (answering serve) (chargeRental id user cost (t.credit.activeReservations user now)) t).2 =
        t.setCredit c' ∧ ChargeOutcome t.credit c' user cost := by
  unfold chargeRental
  cases hfind : (t.credit.activeReservations user now).find? (fun r => r.rentalId = some id) with
  | some reservation =>
    obtain ⟨hstored, huser, hreleased⟩ := activeReservations_spec (mem_of_find?_eq_some hfind)
    rw [run_bind_pure, run_mapError, run_managerCalls]
    refine ⟨_, rfl, ?_⟩
    rw [← huser]
    exact chargeFromReservation_outcome cost hstored hreleased
  | none =>
    rw [run_bind_pure, run_mapError, run_managerCalls]
    exact ⟨_, rfl, chargeCredits_outcome t.credit user cost⟩

theorem view_storeRental_self (hrow : t.rentals.get? id = some row) : (t.storeRental (row.rental id)).view = t.view := by
  have hstate : (t.storeRental (row.rental id)).state? = t.state? := by
    funext j
    rw [state?_storeRental]
    split_ifs with hj
    · rw [hj]
      change (t.state? id).map (fun _ => row.state) = t.state? id
      rw [state?_of_row hrow, Option.map_some]
    · rfl
  exact Prod.ext rfl hstate

theorem view_persistRental (t : BillingTables) (id : RentalId) (message : String) :
    (run (answering serve) (persistRental id message) t).2.view = t.view := by
  have hfind := run_mapError serve (Status.internal "Failed to get rental") (findRental id) t
  rw [run_findRental] at hfind
  unfold persistRental RentalManager.getRental
  cases hrow : t.rentals.get? id with
  | none =>
    rw [hrow] at hfind
    rw [run_bind_error _ hfind]
  | some row =>
    have hstore : run (answering serve) ((updateRental (row.rental id)).mapError (Status.internal message)) t =
        (.ok (), t.storeRental (row.rental id)) := by
      rw [run_mapError, run_updateRental hrow]
      rfl
    rw [hrow] at hfind
    rw [run_bind_ok _ hfind, run_bind_ok _ hstore]
    exact view_storeRental_self hrow

theorem finalizeRental_unchanged {rentalId finalCost : String} (now : ℤ)
    (h : ∀ id q row, finalizeArguments parsers rentalId finalCost = .ok (id, q) →
      t.rentals.get? id = some row → row.state.canFinalize = false) :
    (run (answering serve) (finalizeRental parsers now rentalId finalCost) t).2 = t := by
  unfold finalizeRental
  cases hargs : finalizeArguments parsers rentalId finalCost with
  | error e => rfl
  | ok args =>
    obtain ⟨id, q⟩ := args
    rw [run_bind_ok _ (run_ofExcept _ _ _)]
    have hrun := run_mapError serve (Status.internal "Failed to finalize rental") (RentalManager.finalizeRental id now) t
    rw [RentalManager.finalizeRental, run_modify t id (finalized_followsStates now)] at hrun
    cases hrow : t.rentals.get? id with
    | none =>
      rw [hrow] at hrun
      exact congrArg Prod.snd (run_bind_error _ hrun)
    | some row =>
      obtain ⟨e, he⟩ := finalized_error now (row.rental id) (h id q row hargs hrow)
      rw [hrow] at hrun
      dsimp only at hrun
      rw [he] at hrun
      exact congrArg Prod.snd (run_bind_error _ hrun)

theorem finalizeRental_charges {rentalId finalCost : String} {q : ℚ} (now : ℤ)
    (hargs : finalizeArguments parsers rentalId finalCost = .ok (id, q))
    (hrow : t.rentals.get? id = some row) (hcan : row.state.canFinalize = true) :
    let t' := (run (answering serve) (finalizeRental parsers now rentalId finalCost) t).2
    ChargeOutcome t.credit t'.credit row.userId (.fromDecimal q) ∧ t'.state? id = some .completed := by
  intro t'
  obtain ⟨changed, hchanged, hcompleted⟩ := finalized_ok now (row.rental id) hcan
  obtain ⟨hid, huser, -⟩ := finalized_followsStates now _ _ hchanged
  have hid : changed.id = id := hid
  have huser : changed.userId = row.userId := huser
  let stored := t.storeRental changed
  have hstate : stored.state? id = some .completed := by
    rw [state?_stored hid (state?_of_row hrow), hcompleted]
  have hfinalize : run (answering serve) ((RentalManager.finalizeRental id now).mapError
      (Status.internal "Failed to finalize rental")) t = (.ok changed, stored) := by
    rw [run_mapError, RentalManager.finalizeRental, run_modify t id (finalized_followsStates now), hrow]
    dsimp only
    rw [hchanged]
    rfl
  have hreservations : run (answering serve) ((creditCalls (CreditManager.getActiveReservations changed.userId now)).mapError
      (Status.internal "Failed to get reservations")) stored =
        (.ok (stored.credit.activeReservations changed.userId now), stored) := by
    rw [run_mapError, run_creditCalls]
    rfl
  obtain ⟨c', hcharge, houtcome⟩ := chargeRental_outcome stored id changed.userId (.fromDecimal q) now
  have hview : t'.view = (stored.setCredit c').view := by
    change (run (answering serve) (finalizeRental parsers now rentalId finalCost) t).2.view = _
    unfold finalizeRental
    rw [hargs, run_bind_ok _ (run_ofExcept _ _ _)]
    rw [run_bind_ok _ hfinalize, run_bind_ok _ hreservations, ← hcharge]
    apply run_bind_snd (answering serve) view
    intro refunded s
    rw [run_bind_pure]
    exact view_persistRental s id "Failed to persist rental"
  have hcredit : t'.credit = c' := congrArg Prod.fst hview
  have hcompleted : t'.state? id = some .completed := (congrFun (congrArg Prod.snd hview) id).trans hstate
  rw [hcredit, ← huser]
  exact ⟨houtcome, hcompleted⟩

theorem credit_updateStatus (t : BillingTables) (id : RentalId) (newState : RentalState) (now : ℤ) :
    (run serve (RentalManager.updateStatus id newState now) t).2.credit = t.credit := by
  rw [RentalManager.updateStatus, run_modify t id (transitionTo_followsStates newState now)]
  cases t.rentals.get? id with
  | none => rfl
  | some row =>
    dsimp only
    cases (row.rental id).transitionTo newState now <;> rfl

theorem view_appendUsageEvent (t : BillingTables) (event : UsageEvent) :
    (run serve (appendUsageEvent event) t).2.view = t.view := by
  change (serve (Call.appendUsageEvent event) t).2.view = t.view
  simp only [serve]
  cases event.checkIds <;> rfl

theorem view_updateRentalStatus (parsers : Parsers) (now : ℤ) (rentalId : String) (status : RentalStatus) (reason : String) (t : BillingTables) :
    let t' := (run (answering serve) (updateRentalStatus parsers now rentalId status reason) t).2
    t'.view = t.view ∨ ∃ id, readId parsers "Invalid rental ID" rentalId = .ok id ∧
      t'.view = (run serve (RentalManager.updateStatus id (rentalStatusToDomain status) now) t).2.view := by
  unfold updateRentalStatus
  cases readId parsers "Invalid rental ID" rentalId with
  | error e =>
    left
    rfl
  | ok id =>
    right
    refine ⟨id, rfl, ?_⟩
    rw [run_bind_ok _ (run_ofExcept _ _ _)]
    have hupdated := run_mapError serve updateError
      (RentalManager.updateStatus id (rentalStatusToDomain status) now) t
    rw [← congrArg Prod.snd hupdated]
    apply run_bind_snd (answering serve) view
    intro _ s
    rw [← view_persistRental s id "Failed to persist status"]
    apply run_bind_snd (answering serve) view
    intro rental s
    rw [run_bind_pure, run_mapError]
    exact view_appendUsageEvent s _

theorem credit_updateRentalStatus (parsers : Parsers) (now : ℤ) (rentalId : String) (status : RentalStatus) (reason : String)
    (t : BillingTables) :
    (run (answering serve) (updateRentalStatus parsers now rentalId status reason) t).2.credit = t.credit := by
  rcases view_updateRentalStatus parsers now rentalId status reason t with hview | ⟨id, -, hview⟩
  · exact congrArg Prod.fst hview
  · exact (congrArg Prod.fst hview).trans (credit_updateStatus t id _ now)

end Runs

end Basilica.Billing
