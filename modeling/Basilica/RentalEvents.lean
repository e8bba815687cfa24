import Basilica.RentalManager

/-!
The handlers of status change, cost update and rental end events. They write the state of the rental without
asking whether it can follow, and the two that end a rental charge for it before they store the new state.
-/

namespace Basilica.Billing

open AssocMaps AtomicCalls Calls List

def readEventData {α : Type} (what : String) : Except String α → BillingCalls α
  | .ok data => pure data
  | .error e => fail (.validationError "event_data" s!"Invalid {what} data: {e}")

def rentalEvent (eventType : String) (id : RentalId) : BillingEvent := ⟨eventType, "rental", toString id, none⟩

def recordBillingEvent (eventType : String) (id : RentalId) : BillingCalls Unit :=
  appendBillingEvent (rentalEvent eventType id)

def eventState (status : String) : Option RentalState :=
  if status = "pending" then some .pending
  else if status = "active" then some .active
  else if status = "completed" then some .completed
  else if status = "failed" then some .failed
  else none

/-- A failed deduction or release is only logged. -/
def chargeFinalCost (rental : Rental) : BillingCalls Rental := do
  let usage ← getUsageForRental rental.id
  let package ← getPackage rental.packageId
  let cost := (package.calculateCost usage).totalCost
  let _ ← catching (creditCalls (SqlCreditRepository.deductCredits rental.userId cost))
  match rental.reservationId with
  | none => return { rental with actualCost := cost }
  | some reservation =>
    let _ ← catching (creditCalls (SqlCreditRepository.releaseReservation reservation))
    return { rental with actualCost := cost }

def storeAndRecord (eventType : String) (rental : Rental) : BillingCalls Unit := do
  updateRental rental
  recordBillingEvent eventType rental.id

def processStatusChange (id : RentalId) (event : Except String StatusChangeData) : BillingCalls Unit := do
  let data ← readEventData "status change" event
  let rental ← findRental id
  match eventState data.newStatus with
  | none => return ()
  | some newState =>
    let changed := { rental with state := newState }
    -- Only the change from active to an end state settles the rental.
    let changed ← (if rental.state = .active ∧ newState.isTerminal then chargeFinalCost changed else pure changed)
    storeAndRecord "status_changed" changed

def processCostUpdate (id : RentalId) (event : Except String CostUpdateData) : BillingCalls Unit := do
  let data ← readEventData "cost update" event
  let rental ← findRental id
  storeAndRecord "cost_updated" { rental with actualCost := .fromDecimal data.totalCost }

def RentalEndData.state (data : RentalEndData) : RentalState :=
  if data.terminationReason = some "failed" then .failed else .completed

def processRentalEnd (id : RentalId) (event : Except String RentalEndData) : BillingCalls Unit := do
  let data ← readEventData "rental end" event
  let rental ← findRental id
  if rental.state = .completed ∨ rental.state = .failed then return ()
  else
    let ended ← chargeFinalCost { rental with state := data.state }
    storeAndRecord "rental_ended" ended

theorem isTerminal_iff {state : RentalState} : state.isTerminal = true ↔ state = .completed ∨ state = .failed := by
  cases state <;> decide

theorem RentalEndData.isTerminal_state (data : RentalEndData) : data.state.isTerminal = true := by
  unfold state
  split_ifs <;> rfl

section Traces

variable {t : BillingTables}

theorem trace_findRental (t : BillingTables) (id : RentalId) : trace serve (findRental id) t = [t] := by
  unfold findRental
  rw [trace_bind_ok serve (run_getRental t id), trace_ofOption]
  rfl

def stored (t : BillingTables) (rental : Rental) (eventType : String) : List BillingTables :=
  [t.storeRental rental, (t.storeRental rental).addBillingEvent (rentalEvent eventType rental.id)]

variable {rental : Rental} {row : RentalRow}

theorem trace_storeAndRecord (eventType : String) (h : t.rentals.get? rental.id = some row) :
    trace serve (storeAndRecord eventType rental) t = stored t rental eventType := by
  unfold storeAndRecord
  rw [trace_bind_ok serve (run_updateRental h), trace_updateRental h]
  rfl

def BillingTables.deduct (t : BillingTables) (user : UserId) (row : CreditsRow) {cost : CreditBalance}
    (h : cost.micros ≤ row.balance.micros) : BillingTables :=
  t.setCredit (t.credit.setAccount user (row.deduct cost h))

def BillingTables.recordDeduction (t : BillingTables) (user : UserId) (cost : CreditBalance) : BillingTables :=
  t.setCredit (t.credit.recordDeduction user cost)

inductive Charging (t : BillingTables) (rental : Rental) : Except BillingError Rental → List BillingTables → Prop
  | refused {e : BillingError} {l : List BillingTables} (h : ∀ x ∈ l, x = t) : Charging t rental (.error e) l
  | unpaid (cost : CreditBalance) {l : List BillingTables} (h : ∀ x ∈ l, x = t) :
      Charging t rental (.ok { rental with actualCost := cost }) l
  | paid {cost : CreditBalance} {row : CreditsRow} (h : cost.micros ≤ row.balance.micros)
      (hrow : t.credit.credits.get? rental.userId = some row) :
      Charging t rental (.ok { rental with actualCost := cost })
        [t, t, t, t.deduct rental.userId row h, (t.deduct rental.userId row h).recordDeduction rental.userId cost]

variable {l : List BillingTables}

theorem charging_cost (cost : CreditBalance) (hl : ∀ x ∈ l, x = t) (hlength : l.length = 2) :
    Charging t rental (.ok { rental with actualCost := cost })
      (l ++ trace serve (creditCalls (SqlCreditRepository.deductCredits rental.userId cost)) t) := by
  rw [trace_creditCalls, SqlCreditRepository.trace_deductCredits]
  cases hrow : t.credit.credits.get? rental.userId with
  | none =>
    refine .unpaid cost ?_
    simpa using fun x hx => hx.elim (hl x) id
  | some row =>
    dsimp only
    split_ifs with h
    · obtain ⟨x, y, rfl⟩ := length_eq_two.mp hlength
      rw [hl x (by simp), hl y (by simp)]
      exact .paid h hrow
    · refine .unpaid cost ?_
      simpa using fun x hx => hx.elim (hl x) id

theorem charging (t : BillingTables) (hreservation : rental.reservationId = none) :
    Charging t rental (run serve (chargeFinalCost rental) t).1 (trace serve (chargeFinalCost rental) t) := by
  unfold chargeFinalCost
  have husage := run_getUsageForRental t rental.id
  have hfirst : trace serve (getUsageForRental rental.id) t = [t] := rfl
  cases hmetrics : usageForRental t.usageEvents rental.id with
  | error e =>
    rw [hmetrics] at husage
    rw [run_bind_error serve husage, trace_bind_error serve husage, hfirst]
    exact .refused (by simp)
  | ok usage =>
    rw [hmetrics] at husage
    rw [run_bind_ok serve husage, trace_bind_ok serve husage, hfirst]
    have hsecond := trace_getPackage t rental.packageId
    cases hpackage : t.packages.get? rental.packageId with
    | none =>
      rw [run_bind_error serve (run_getPackage_none hpackage), trace_bind_error serve (run_getPackage_none hpackage), hsecond]
      exact .refused (by simp)
    | some package =>
      rw [run_bind_ok serve (run_getPackage hpackage), trace_bind_ok serve (run_getPackage hpackage), hsecond]
      rw [run_bind_ok serve (run_catching serve _ _), trace_bind_ok serve (run_catching serve _ _), trace_catching]
      rw [hreservation]
      rw [run_pure, trace_pure, append_nil, ← append_assoc]
      rw [← hreservation]
      have hreads : ∀ x ∈ [t] ++ [t], x = t := by simp
      exact charging_cost _ hreads rfl

inductive Settling (t : BillingTables) (rental : Rental) (eventType : String) : List BillingTables → Prop
  | refused {l : List BillingTables} (h : ∀ x ∈ l, x = t) : Settling t rental eventType l
  | unpaid (cost : CreditBalance) {l : List BillingTables} (h : ∀ x ∈ l, x = t) :
      Settling t rental eventType (l ++ stored t { rental with actualCost := cost } eventType)
  | paid {cost : CreditBalance} {row : CreditsRow} (h : cost.micros ≤ row.balance.micros)
      (hrow : t.credit.credits.get? rental.userId = some row) :
      Settling t rental eventType
        ([t, t, t, t.deduct rental.userId row h, (t.deduct rental.userId row h).recordDeduction rental.userId cost] ++
          stored ((t.deduct rental.userId row h).recordDeduction rental.userId cost)
            { rental with actualCost := cost } eventType)

theorem getLastD_of_forall (h : ∀ x ∈ l, x = t) : l.getLastD t = t := by
  induction l with
  | nil => rfl
  | cons x l ih =>
    rw [getLastD_cons, h x mem_cons_self]
    exact ih (fun y hy => h y (mem_cons_of_mem _ hy))

theorem settling (eventType : String) (hreservation : rental.reservationId = none)
    (hrow : t.rentals.get? rental.id = some row) :
    Settling t rental eventType (trace serve (chargeFinalCost rental >>= storeAndRecord eventType) t) := by
  have hcharging := charging t hreservation
  have hfinal := run_snd serve (chargeFinalCost rental) t
  have hstored : ∀ (cost : CreditBalance) (t' : BillingTables), t'.rentals = t.rentals →
      trace serve (storeAndRecord eventType { rental with actualCost := cost }) t' =
        stored t' { rental with actualCost := cost } eventType := by
    intro cost t' hrentals
    have hrow' : t'.rentals.get? { rental with actualCost := cost : Rental }.id = some row := by rwa [hrentals]
    exact trace_storeAndRecord eventType hrow'
  cases hrun : run serve (chargeFinalCost rental) t with
  | mk result t' =>
    rw [hrun] at hcharging hfinal
    dsimp only at hcharging hfinal
    generalize htrace : trace serve (chargeFinalCost rental) t = l at hcharging hfinal
    cases hcharging with
    | refused h =>
      rw [trace_bind_error serve hrun, htrace]
      exact .refused h
    | unpaid cost h =>
      rw [getLastD_of_forall h] at hfinal
      rw [trace_bind_ok serve hrun, htrace, hfinal, hstored cost t rfl]
      exact .unpaid cost h
    | @paid cost account h haccount =>
      have hlast : t' = (t.deduct rental.userId account h).recordDeduction rental.userId cost := hfinal
      have hrentals : t'.rentals = t.rentals := by
        rw [hlast]
        rfl
      rw [trace_bind_ok serve hrun, htrace, hstored cost t' hrentals, hlast]
      exact .paid h haccount

variable {id : RentalId} {α : Type} (what : String) (event : Except String α)

theorem trace_readEventData :
    trace serve (readEventData what event) t = [] := by
  cases event <;> rfl

variable {β : Type}

theorem trace_found (data : α) (f : α → Rental → BillingCalls β) (hrow : t.rentals.get? id = some row) :
    trace serve (do
      let data ← readEventData what (.ok data)
      let rental ← findRental id
      f data rental) t = t :: trace serve (f data (row.rental id)) t := by
  have hread : run serve (readEventData what (.ok data)) t = (.ok data, t) := rfl
  have hfind : run serve (findRental id) t = (.ok (row.rental id), t) := by rw [run_findRental, hrow]
  rw [trace_bind_ok serve hread, trace_readEventData, trace_bind_ok serve hfind, trace_findRental]
  rfl

variable (f : α → Rental → BillingCalls β)

theorem trace_lost
    (h : event.toOption = none ∨ t.rentals.get? id = none) :
    ∀ x ∈ trace serve (do
      let data ← readEventData what event
      let rental ← findRental id
      f data rental) t, x = t := by
  cases event with
  | error e =>
    have hread : run serve (readEventData what (.error e : Except String α)) t =
      (.error (.validationError "event_data" s!"Invalid {what} data: {e}"), t) := rfl
    rw [trace_bind_error serve hread, trace_readEventData]
    simp
  | ok data =>
    have hnone : t.rentals.get? id = none := h.resolve_left (fun h => nomatch h)
    have hread : run serve (readEventData what (.ok data)) t = (.ok data, t) := rfl
    have hfind : run serve (findRental id) t = (.error (.rentalNotFound id), t) := by rw [run_findRental, hnone]
    rw [trace_bind_ok serve hread, trace_readEventData, trace_bind_error serve hfind, trace_findRental]
    simp

theorem trace_skipped
    (h : ∀ data row, event = .ok data → t.rentals.get? id = some row → trace serve (f data (row.rental id)) t = []) :
    ∀ x ∈ trace serve (do
      let data ← readEventData what event
      let rental ← findRental id
      f data rental) t, x = t := by
  cases event with
  | error e => exact trace_lost _ _ _ (Or.inl rfl)
  | ok data =>
    cases hrow : t.rentals.get? id with
    | none => exact trace_lost _ _ _ (Or.inr hrow)
    | some row =>
      rw [trace_found _ _ _ hrow, h data row rfl hrow]
      simp

variable {data : StatusChangeData} {new : RentalState}

theorem processStatusChange_stores (hrow : t.rentals.get? id = some row)
    (hnew : eventState data.newStatus = some new) (h : ¬ (row.state = .active ∧ new.isTerminal = true)) :
    trace serve (processStatusChange id (.ok data)) t =
      t :: stored t { row.rental id with state := new } "status_changed" := by
  have hchanged : t.rentals.get? { row.rental id with state := new : Rental }.id = some row := hrow
  unfold processStatusChange
  rw [trace_found _ _ _ hrow, hnew]
  dsimp only
  have hquiet : ¬ ((row.rental id).state = .active ∧ new.isTerminal = true) := h
  rw [if_neg hquiet, trace_bind_ok serve (run_pure serve _ _), trace_pure, nil_append, trace_storeAndRecord _ hchanged]

theorem processStatusChange_settles (hrow : t.rentals.get? id = some row)
    (hnew : eventState data.newStatus = some new) (h : row.state = .active ∧ new.isTerminal = true) :
    ∃ l, trace serve (processStatusChange id (.ok data)) t = t :: l ∧
      Settling t { row.rental id with state := new } "status_changed" l := by
  have hchanged : t.rentals.get? { row.rental id with state := new : Rental }.id = some row := hrow
  unfold processStatusChange
  rw [trace_found _ _ _ hrow, hnew]
  dsimp only
  have hends : (row.rental id).state = .active ∧ new.isTerminal = true := h
  rw [if_pos hends]
  exact ⟨_, rfl, settling _ rfl hchanged⟩

theorem processStatusChange_skips {event : Except String StatusChangeData}
    (h : ∀ data row new, event = .ok data → t.rentals.get? id = some row → eventState data.newStatus ≠ some new) :
    ∀ x ∈ trace serve (processStatusChange id event) t, x = t := by
  apply trace_skipped
  intro data row hdata hrow
  have hnew : eventState data.newStatus = none :=
    Option.eq_none_iff_forall_ne_some.mpr (fun new => h data row new hdata hrow)
  rw [hnew]
  rfl

theorem processRentalEnd_settles (data : RentalEndData) (hrow : t.rentals.get? id = some row)
    (h : row.state.isTerminal = false) : ∃ l, trace serve (processRentalEnd id (.ok data)) t = t :: l ∧
      Settling t { row.rental id with state := data.state } "rental_ended" l := by
  have hended : t.rentals.get? { row.rental id with state := data.state : Rental }.id = some row := hrow
  have hopen : ¬ ((row.rental id).state = .completed ∨ (row.rental id).state = .failed) := by
    rw [← isTerminal_iff, Bool.not_eq_true]
    exact h
  unfold processRentalEnd
  rw [trace_found _ _ _ hrow, if_neg hopen]
  exact ⟨_, rfl, settling _ rfl hended⟩

theorem processRentalEnd_skips {event : Except String RentalEndData}
    (h : ∀ data row, event = .ok data → t.rentals.get? id = some row → row.state.isTerminal = true) :
    ∀ x ∈ trace serve (processRentalEnd id event) t, x = t := by
  apply trace_skipped
  intro data row hdata hrow
  have hended : (row.rental id).state = .completed ∨ (row.rental id).state = .failed :=
    isTerminal_iff.mp (h data row hdata hrow)
  rw [if_pos hended]
  rfl

theorem processCostUpdate_stores {data : CostUpdateData} (hrow : t.rentals.get? id = some row) :
    trace serve (processCostUpdate id (.ok data)) t =
      t :: stored t { row.rental id with actualCost := .fromDecimal data.totalCost } "cost_updated" := by
  have hchanged : t.rentals.get? { row.rental id with actualCost := .fromDecimal data.totalCost : Rental }.id = some row :=
    hrow
  unfold processCostUpdate
  rw [trace_found _ _ _ hrow, trace_storeAndRecord _ hchanged]

end Traces

end Basilica.Billing
