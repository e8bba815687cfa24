import Basilica.CreditRepository
import Basilica.RentalStates
import Basilica.UsageRecords

/-!
The tables of the billing service, and the calls of its repositories as one server over all of them.
-/

namespace Basilica.Billing

open AssocMaps AtomicCalls Calls Decimals Option

structure Rental where
  id : RentalId
  userId : UserId
  executorId : String
  validatorId : String
  packageId : PackageId
  reservationId : Option ReservationId
  state : RentalState
  endedAt : Option ℤ
  actualCost : CreditBalance
  terminationReason : Option String

/-- A row of `billing.rentals`; the total cost is in hundredths, the last place of its column. -/
structure RentalRow where
  userId : UserId
  executorId : String
  validatorId : Option String
  packageId : Option PackageId
  status : String
  endTime : Option ℤ
  totalCost : Option ℤ
  terminationReason : Option String

namespace RentalRow

variable (row : RentalRow)

def state : RentalState := .parseRentalState row.status

/-- `rental_from_row`: the reservation is not a column of the table. -/
def rental (id : RentalId) : Rental where
  id := id
  userId := row.userId
  executorId := row.executorId
  validatorId := row.validatorId.getD ""
  packageId := row.packageId.getD "custom"
  reservationId := none
  state := row.state
  endedAt := row.endTime
  actualCost := (row.totalCost.map (fun cents => CreditBalance.fromDecimal (cents / 100))).getD .zero
  terminationReason := row.terminationReason

/-- `SET status = $2, end_time = $6, metadata = $7, total_cost = $8` -/
def update (rental : Rental) : RentalRow :=
  { row with
    status := rental.state.toText
    endTime := rental.endedAt
    totalCost := if rental.actualCost = .zero then none else some (roundHalfAway (rental.actualCost.asDecimal * 100))
    terminationReason := rental.terminationReason }

@[simp] theorem state_update (rental : Rental) : (row.update rental).state = rental.state :=
  rental.state.parseRentalState_toText

end RentalRow

structure BillingTables where
  credit : CreditTables
  rentals : AssocMap RentalId RentalRow
  usageEvents : List UsageEvent
  packages : AssocMap PackageId BillingPackage

namespace BillingTables

def rental? (t : BillingTables) (id : RentalId) : Option Rental := (t.rentals.get? id).map (fun row => row.rental id)

def state? (t : BillingTables) (id : RentalId) : Option RentalState := (t.rentals.get? id).map RentalRow.state

def storeRental (t : BillingTables) (rental : Rental) : BillingTables :=
  { t with rentals := t.rentals.modify rental.id (fun row => row.update rental) }

def addUsageEvent (t : BillingTables) (event : UsageEvent) : BillingTables :=
  { t with usageEvents := t.usageEvents ++ [event] }

def addBillingEvent (t : BillingTables) (event : BillingEvent) : BillingTables :=
  { t with credit := { t.credit with billingEvents := t.credit.billingEvents ++ [event] } }

def setCredit (t : BillingTables) (credit : CreditTables) : BillingTables := { t with credit := credit }

variable {t : BillingTables} {id : RentalId} {state : RentalState}

theorem state?_storeRental (t : BillingTables) (rental : Rental) (id : RentalId) : (t.storeRental rental).state? id =
      if id = rental.id then (t.state? rental.id).map (fun _ => rental.state) else t.state? id := by
  unfold state? storeRental
  rw [AssocMap.get?_modify]
  split_ifs
  · rw [map_map, map_map]
    apply congrArg (fun f => Option.map f _)
    funext row
    exact row.state_update rental
  · rfl

theorem state?_of_row {row : RentalRow} (h : t.rentals.get? id = some row) : t.state? id = some row.state := by
  rw [state?, h, map_some]

theorem state?_stored {rental : Rental}
    (hid : rental.id = id) (h : t.state? id = some state) : (t.storeRental rental).state? id = some rental.state := by
  rw [state?_storeRental, if_pos hid.symm, hid, h, map_some]

@[simp] theorem credit_setCredit (t : BillingTables) (credit : CreditTables) : (t.setCredit credit).credit = credit := rfl

end BillingTables

def oneRental (state : RentalState) : BillingTables where
  credit := CreditTables.empty.ensureAccount "alice" { CreditsRow.zero with balance := ⟨100000000⟩, positive_balance := by decide }
  rentals := AssocMap.empty.insert 1 ⟨"alice", "executor", some "validator", some "h100", state.toText, none, none, none⟩
  usageEvents := []
  packages := AssocMap.empty.insert "h100" ⟨"h100", ⟨3500000⟩⟩

inductive Call
  | credit (c : CreditCall)
  | getRental (id : RentalId)
  | updateRental (rental : Rental)
  | getUsageForRental (id : RentalId)
  | getPackage (id : PackageId)
  | appendUsageEvent (event : UsageEvent)
  | appendBillingEvent (event : BillingEvent)

abbrev Call.Answer : Call → Type
  | .credit c => c.Answer
  | .getRental _ => Option Rental
  | .getUsageForRental _ => UsageMetrics
  | .getPackage _ => BillingPackage
  | _ => Unit

def serve : Server Call Call.Answer BillingError BillingTables
  | .credit c, t => ((serveCredit c t.credit).1, t.setCredit (serveCredit c t.credit).2)
  | .getRental id, t => (.ok (t.rental? id), t)
  | .updateRental rental, t =>
    match t.rentals.get? rental.id with
    | none => (.error (.rentalNotFound rental.id), t)
    | some _ => (.ok (), t.storeRental rental)
  | .getUsageForRental id, t => (usageForRental t.usageEvents id, t)
  | .getPackage id, t =>
    match t.packages.get? id with
    | none => (.error (.packageNotFound id), t)
    | some package => (.ok package, t)
  | .appendUsageEvent event, t =>
    match event.checkIds with
    | .error e => (.error e, t)
    | .ok () => (.ok (), t.addUsageEvent event)
  | .appendBillingEvent event, t => (.ok (), t.addBillingEvent event)

abbrev BillingCalls := Calls Call Call.Answer BillingError

def creditCalls {α : Type} (p : CreditCalls α) : BillingCalls α := p.embed Call.credit (fun _ r => r)

def getRental (id : RentalId) : BillingCalls (Option Rental) := ask (Call.getRental id)

def updateRental (rental : Rental) : BillingCalls Unit := ask (Call.updateRental rental)

def getUsageForRental (id : RentalId) : BillingCalls UsageMetrics := ask (Call.getUsageForRental id)

def getPackage (id : PackageId) : BillingCalls BillingPackage := ask (Call.getPackage id)

def appendUsageEvent (event : UsageEvent) : BillingCalls Unit := ask (Call.appendUsageEvent event)

def appendBillingEvent (event : BillingEvent) : BillingCalls Unit := ask (Call.appendBillingEvent event)

section Runs

variable (t : BillingTables)

theorem embeds_credit :
    Embeds Call.credit (fun _ r => r) serveCredit serve BillingTables.credit BillingTables.setCredit :=
  ⟨fun _ => rfl, fun _ _ => rfl, fun _ _ _ => rfl, fun _ _ => congrFun Except.map_id _, fun _ _ => rfl⟩

variable {α : Type}

@[simp] theorem run_creditCalls (p : CreditCalls α) :
    run serve (creditCalls p) t = ((run serveCredit p t.credit).1, t.setCredit (run serveCredit p t.credit).2) :=
  run_embed embeds_credit p t

theorem trace_creditCalls (p : CreditCalls α) :
    trace serve (creditCalls p) t = (trace serveCredit p t.credit).map t.setCredit := trace_embed embeds_credit p t

@[simp] theorem run_getRental (id : RentalId) : run serve (getRental id) t = (.ok (t.rental? id), t) := rfl

@[simp] theorem run_appendBillingEvent (event : BillingEvent) :
    run serve (appendBillingEvent event) t = (.ok (), t.addBillingEvent event) := rfl

@[simp] theorem run_getUsageForRental (id : RentalId) :
    run serve (getUsageForRental id) t = (usageForRental t.usageEvents id, t) := rfl

theorem run_appendUsageEvent (event : UsageEvent) : run serve (appendUsageEvent event) t =
    match event.checkIds with
    | .error e => (.error e, t)
    | .ok () => (.ok (), t.addUsageEvent event) := rfl

variable {t} {rental : Rental} {row : RentalRow}

theorem run_updateRental (h : t.rentals.get? rental.id = some row) :
    run serve (updateRental rental) t = (.ok (), t.storeRental rental) := by
  change serve (Call.updateRental rental) t = _
  simp only [serve, h]

variable {id : PackageId}

theorem run_getPackage {package : BillingPackage} (h : t.packages.get? id = some package) :
    run serve (getPackage id) t = (.ok package, t) := by
  change serve (Call.getPackage id) t = _
  simp only [serve, h]

theorem run_getPackage_none (h : t.packages.get? id = none) :
    run serve (getPackage id) t = (.error (.packageNotFound id), t) := by
  change serve (Call.getPackage id) t = _
  simp only [serve, h]

theorem trace_getPackage (t : BillingTables) (id : PackageId) : trace serve (getPackage id) t = [t] := by
  change [(run serve (getPackage id) t).2] = [t]
  cases h : t.packages.get? id with
  | none => rw [run_getPackage_none h]
  | some package => rw [run_getPackage h]

theorem trace_updateRental (h : t.rentals.get? rental.id = some row) :
    trace serve (updateRental rental) t = [t.storeRental rental] := by
  change [(run serve (updateRental rental) t).2] = _
  rw [run_updateRental h]

end Runs

end Basilica.Billing
