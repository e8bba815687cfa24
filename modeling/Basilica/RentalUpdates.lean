import Basilica.CallRuns
import Basilica.RentalRows
import Basilica.StepRuns

/-!
The event handlers that change a rental, over rows with all their columns: what a handler decides about a rental,
what is stored of it, and what is read again.
-/

namespace Basilica.RentalStorage

open AssocMaps AtomicCalls Calls Billing StepRuns

/-- `LIKE`: a `%` stands for any text, a `_` for one character, and a backslash takes the next one as it is. -/
def like : List Char → List Char → Bool
  | [], text => text.isEmpty
  | '%' :: pattern, text => text.tails.any (like pattern)
  | '_' :: pattern, text =>
    match text with
    | [] => false
    | _ :: rest => like pattern rest
  | '\\' :: c :: pattern, text =>
    match text with
    | [] => false
    | d :: rest => c = d && like pattern rest
  | c :: pattern, text =>
    match text with
    | [] => false
    | d :: rest => c = d && like pattern rest

structure PackageRow where
  package : BillingPackage
  gpuModel : String
  priority : ℤ
  active : Bool

namespace PackageRow

variable (lower : String → String) (model : String)

def isExact (row : PackageRow) : Bool := lower row.gpuModel = lower model

def isContained (a b : String) : Bool := like ('%' :: a.toList ++ ['%']) b.toList

def isMatch (row : PackageRow) : Bool :=
  row.active && (row.isExact lower model || isContained (lower model) (lower row.gpuModel) ||
    isContained (lower row.gpuModel) (lower model))

/-- `ORDER BY CASE WHEN LOWER(gpu_model) = LOWER($1) THEN 0 ELSE 1 END, priority DESC` -/
def Before (a b : PackageRow) : Prop :=
  (a.isExact lower model ∧ ¬ b.isExact lower model) ∨
    (a.isExact lower model = b.isExact lower model ∧ b.priority ≤ a.priority)

instance (a b : PackageRow) : Decidable (Before lower model a b) := inferInstanceAs (Decidable (_ ∨ _))

end PackageRow

structure Store where
  credit : CreditTables
  rentals : AssocMap RentalId Row
  usageEvents : List UsageEvent
  packages : AssocMap PackageId BillingPackage
  packageRows : List PackageRow

namespace Store

def setCredit (s : Store) (credit : CreditTables) : Store := { s with credit := credit }

def setRow (s : Store) (id : RentalId) (row : Row) : Store := { s with rentals := s.rentals.modify id (fun _ => row) }

def addBillingEvent (s : Store) (event : BillingEvent) : Store :=
  { s with credit := { s.credit with billingEvents := s.credit.billingEvents ++ [event] } }

def package (s : Store) (id : PackageId) : Except BillingError BillingPackage :=
  match s.packages.get? id with
  | none => .error (.packageNotFound id)
  | some package => .ok package

def bestMatch (s : Store) (lower : String → String) (model : String) : Option PackageRow :=
  ((s.packageRows.filter (PackageRow.isMatch lower model)).insertionSort (PackageRow.Before lower model)).head?

end Store

inductive Call
  | credit (c : CreditCall)
  | getRental (id : RentalId)
  | updateRental (rental : Rental) (now : ℤ)
  | getUsageForRental (id : RentalId)
  | getPackage (id : PackageId)
  | searchPackages (model : String)
  | appendBillingEvent (event : BillingEvent)

abbrev Call.Answer : Call → Type
  | .credit c => c.Answer
  | .getRental _ => Option Rental
  | .getUsageForRental _ => UsageMetrics
  | .getPackage _ => BillingPackage
  | .searchPackages _ => Option BillingPackage
  | _ => Unit

def serve (lower : String → String) : Server Call Call.Answer BillingError Store
  | .credit c, s => ((serveCredit c s.credit).1, s.setCredit (serveCredit c s.credit).2)
  | .getRental id, s => (.ok ((s.rentals.get? id).map (fun row => row.rentalFromRow id)), s)
  | .updateRental rental now, s =>
    match s.rentals.get? rental.id with
    | none => (.error (.rentalNotFound rental.id), s)
    | some row =>
      match row.update rental now with
      | none => (.error (.databaseError "update_rental"), s)
      | some row' => (.ok (), s.setRow rental.id row')
  | .getUsageForRental id, s => (usageForRental s.usageEvents id, s)
  | .getPackage id, s => (s.package id, s)
  | .searchPackages model, s => (.ok ((s.bestMatch lower model).map PackageRow.package), s)
  | .appendBillingEvent event, s => (.ok (), s.addBillingEvent event)

abbrev StoreCalls := Calls Call Call.Answer BillingError

def creditCalls {α : Type} (p : CreditCalls α) : StoreCalls α := p.embed Call.credit (fun _ r => r)

def getRental (id : RentalId) : StoreCalls (Option Rental) := ask (Call.getRental id)

def updateRental (rental : Rental) (now : ℤ) : StoreCalls Unit := ask (Call.updateRental rental now)

def findRental (id : RentalId) : StoreCalls Rental := do
  let found ← getRental id
  ofOption (.rentalNotFound id) found

def getPackage (id : PackageId) : StoreCalls BillingPackage := ask (Call.getPackage id)

def findPackageForGpuModel (model : String) : StoreCalls BillingPackage := do
  let found ← (ask (Call.searchPackages model) : StoreCalls (Option BillingPackage))
  match found with
  | some package => return package
  | none => getPackage "custom"

def readEventData {α : Type} (what : String) (event : Except String α) : StoreCalls α :=
  ofExcept (event.mapError (fun e => .validationError "event_data" s!"Invalid {what} data: {e}"))

/-- The end of a rental: the time, the cost, the deduction and the release, of which a failure is only logged. -/
def settle (rental : Rental) (now : ℤ) : StoreCalls Rental := do
  let usage ← (ask (Call.getUsageForRental rental.id) : StoreCalls UsageMetrics)
  let package ← getPackage rental.packageId
  let cost := (package.calculateCost usage).totalCost
  let _ ← catching (creditCalls (SqlCreditRepository.deductCredits rental.userId cost))
  let _ ← (match rental.reservationId with
    | none => pure (.ok ())
    | some reservation => catching (creditCalls (SqlCreditRepository.releaseReservation reservation)) :
      StoreCalls (Except BillingError Unit))
  return { rental with actualEndTime := some now, actualCost := cost }

inductive HandlerEvent
  | statusChange (data : Except String StatusChangeData)
  | rentalEnd (data : Except String RentalEndData)
  | resourceUpdate (eventData : Json)

open HandlerEvent

def changedStatus (now : ℤ) (data : StatusChangeData) (rental : Rental) : StoreCalls (Option Rental) :=
  match eventState data.newStatus with
  | none => return none
  | some newState =>
    let changed := { rental with state := newState }
    if rental.state = .active ∧ newState.isTerminal then do
      let settled ← settle changed now
      return some settled
    else if rental.state = .pending ∧ newState = .active then return some { changed with actualStartTime := some now }
    else return some changed

def endedRental (now : ℤ) (data : RentalEndData) (rental : Rental) : StoreCalls (Option Rental) :=
  if rental.state = .completed ∨ rental.state = .failed then return none
  else do
    let settled ← settle { rental with state := data.state } now
    return some settled

def onRental {α : Type} (what : String) (id : RentalId) (event : Except String α)
    (rest : α → Rental → StoreCalls (Option Rental)) : StoreCalls (Option Rental) := do
  let data ← readEventData what event
  let rental ← findRental id
  rest data rental

def gpuModelOf (eventData : Json) : Option String :=
  ((eventData.get "resources").bind (Json.get "gpu_model")).bind Json.asStr

def updatedResources (id : RentalId) (eventData : Json) : StoreCalls (Option Rental) := do
  let rental ← findRental id
  if (eventData.get "resources").isNone then return none
  else
    match gpuModelOf eventData with
    | none => return some rental
    | some model =>
      let package ← findPackageForGpuModel model
      if package.id ≠ rental.packageId then return some { rental with packageId := package.id }
      else return some rental

namespace HandlerEvent

def produced (id : RentalId) (now : ℤ) : HandlerEvent → StoreCalls (Option Rental)
  | statusChange event => onRental "status change" id event (changedStatus now)
  | rentalEnd event => onRental "rental end" id event (endedRental now)
  | resourceUpdate eventData => updatedResources id eventData

def eventType : HandlerEvent → String
  | statusChange _ => "status_changed"
  | rentalEnd _ => "rental_ended"
  | resourceUpdate _ => "resource_updated"

def store (id : RentalId) (now : ℤ) (event : HandlerEvent) : Option Rental → StoreCalls Unit
  | none => pure ()
  | some rental => do
    updateRental rental now
    ask (Call.appendBillingEvent (rentalEvent event.eventType id))

def process (id : RentalId) (now later : ℤ) (event : HandlerEvent) : StoreCalls Unit := do
  let changed ← event.produced id now
  event.store id later changed

end HandlerEvent

def readBack (rental : Rental) (now : ℤ) : StoreCalls (Option Rental) := do
  updateRental rental now
  getRental rental.id

structure Agrees (stored read : Rental) : Prop where
  state : read.state = stored.state
  packageId : read.packageId = stored.packageId
  resourceSpec : read.resourceSpec = stored.resourceSpec
  metadata : read.metadata = stored.metadata
  actualCost : 2 * |read.actualCost.micros - stored.actualCost.micros| ≤ 10 ^ 4
  actualEndTime : read.actualEndTime = stored.actualEndTime

def CostFits (cost : CreditBalance) : Prop := |Decimals.roundHalfAway (cost.asDecimal * 100)| < 10 ^ 10

instance (cost : CreditBalance) : Decidable (CostFits cost) := inferInstanceAs (Decidable (_ < _))

variable {row' row : Row} {rental : Rental} {now : ℤ}

section Rows

theorem costColumn_of_fits {cost : CreditBalance} (h : CostFits cost) : ∃ column, Row.costColumn cost = some column := by
  unfold Row.costColumn
  split_ifs
  · exact ⟨none, rfl⟩
  · have hstored : DecimalColumn.ofDecimal cost.asDecimal = some ⟨_, h⟩ := dif_pos h
    exact ⟨_, congrArg (Option.map some) hstored⟩

theorem update_of_fits (row : Row) (now : ℤ) {rate : DecimalColumn}
    (hrate : rental.costBreakdown.baseCost = .fromDecimal rate.value) (hcost : CostFits rental.actualCost) :
    ∃ row', row.update rental now = some row' := by
  obtain ⟨column, hcolumn⟩ := costColumn_of_fits hcost
  refine ⟨_, Row.update_eq_some.mpr ⟨rate, column, ?_, hcolumn, rfl⟩⟩
  rw [hrate, rate.asDecimal_fromDecimal, rate.ofDecimal_value]

theorem agrees_iff (h : row.update rental now = some row') (id : RentalId) :
    Agrees rental (row'.rentalFromRow id) ↔ rental.packageId = row.package ∧ rental.actualEndTime = rental.endedAt := by
  obtain ⟨rate, cost, -, hcost, rfl⟩ := Row.update_eq_some.mp h
  constructor
  · intro hagrees
    exact ⟨hagrees.packageId.symm, hagrees.actualEndTime.symm⟩
  · rintro ⟨hpackage, hend⟩
    refine ⟨rental.state.parseRentalState_toText, hpackage.symm, ?_, ?_, abs_costOf_sub_le hcost, hend.symm⟩
    · exact congrArg (Option.getD · _) rental.resourceSpec.ofJson_toJson
    · exact congrArg (Option.getD · _) (Metadata.ofJson_toJson rental.metadata)

end Rows

variable {event : HandlerEvent} {what : String} {α : Type}

section Handlers

variable {lower : String → String} {s s' : Store} {id : RentalId}

theorem embeds_credit : Embeds Call.credit (fun _ r => r) serveCredit (serve lower) Store.credit Store.setCredit :=
  ⟨fun _ => rfl, fun _ _ => rfl, fun _ _ _ => rfl, fun _ _ => congrFun Except.map_id _, fun _ _ => rfl⟩

theorem run_creditCalls (p : CreditCalls α) (s : Store) : run (serve lower) (creditCalls p) s =
      ((run serveCredit p s.credit).1, s.setCredit (run serveCredit p s.credit).2) := run_embed embeds_credit p s

theorem run_getRental (id : RentalId) (s : Store) : run (serve lower) (getRental id) s =
    (.ok ((s.rentals.get? id).map (fun row => row.rentalFromRow id)), s) := rfl

theorem run_findRental (h : s.rentals.get? id = some row) :
    run (serve lower) (findRental id) s = (.ok (row.rentalFromRow id), s) := by
  unfold findRental
  rw [run_bind_ok _ (run_getRental id s), h]
  rfl

theorem run_findRental_none (h : s.rentals.get? id = none) :
    run (serve lower) (findRental id) s = (.error (.rentalNotFound id), s) := by
  unfold findRental
  rw [run_bind_ok _ (run_getRental id s), h]
  rfl

theorem rentals_of_creditCalls {p : CreditCalls α} {r : Except BillingError (Except BillingError α)}
    (h : run (serve lower) (catching (creditCalls p)) s = (r, s')) : s'.rentals = s.rentals := by
  rw [run_catching, run_creditCalls] at h
  cases h
  rfl

theorem run_settle {settled : Rental} (h : run (serve lower) (settle rental now) s = (.ok settled, s')) :
    s'.rentals = s.rentals ∧ ∃ cost, settled = { rental with actualEndTime := some now, actualCost := cost } := by
  unfold settle at h
  obtain ⟨usage, s₁, husage, hpriced⟩ := run_bind_eq_ok.mp h
  obtain ⟨package, s₂, hpackage, hcosted⟩ := run_bind_eq_ok.mp hpriced
  obtain ⟨charged, s₃, hcharge, hpaid⟩ := run_bind_eq_ok.mp hcosted
  obtain ⟨released, s₄, hrelease, hdone⟩ := run_bind_eq_ok.mp hpaid
  obtain rfl : s = s₁ := congrArg Prod.snd husage
  obtain rfl : s = s₂ := congrArg Prod.snd hpackage
  have hcharged := rentals_of_creditCalls hcharge
  have hreleased : s₄.rentals = s₃.rentals := by
    cases hreservation : rental.reservationId with
    | none =>
      rw [hreservation] at hrelease
      cases hrelease
      rfl
    | some reservation =>
      rw [hreservation] at hrelease
      exact rentals_of_creditCalls hrelease
  cases hdone
  exact ⟨hreleased.trans hcharged, _, rfl⟩

theorem run_readEventData {event : Except String α} {data : α}
    (h : run (serve lower) (readEventData what event) s = (.ok data, s')) : event = .ok data ∧ s = s' := by
  obtain ⟨hdata, rfl⟩ := Prod.mk.inj h
  cases event with
  | error e => cases hdata
  | ok value =>
    cases hdata
    exact ⟨rfl, rfl⟩

def Store.packageFor (s : Store) (lower : String → String) (model : String) : Except BillingError BillingPackage :=
  match s.bestMatch lower model with
  | some row => .ok row.package
  | none => s.package "custom"

theorem run_findPackageForGpuModel (lower : String → String) (s : Store) (model : String) :
    run (serve lower) (findPackageForGpuModel model) s = (s.packageFor lower model, s) := by
  have hsearch : run (serve lower) (ask (Call.searchPackages model) : StoreCalls (Option BillingPackage)) s =
      (.ok ((s.bestMatch lower model).map PackageRow.package), s) := rfl
  unfold findPackageForGpuModel Store.packageFor
  rw [run_bind_ok _ hsearch]
  cases s.bestMatch lower model <;> rfl

def HandlerEvent.Keeps (lower : String → String) (s : Store) (row : Row) (now : ℤ) : HandlerEvent → Prop
  | statusChange event =>
    ∀ data newState, event = .ok data → eventState data.newStatus = some newState →
      row.state = .active ∧ newState.isTerminal → row.endTime = some now
  | rentalEnd _ => row.endTime = some now
  | resourceUpdate eventData =>
    ∀ model package, gpuModelOf eventData = some model → s.packageFor lower model = .ok package → package.id = row.package

structure MadeFrom (row : Row) (id : RentalId) (rental : Rental) : Prop where
  id : rental.id = id
  rate : rental.costBreakdown.baseCost = .fromDecimal row.hourlyRate.value
  endedAt : rental.endedAt = row.endTime

structure Stores (row : Row) (id : RentalId) (s s' : Store) (rental : Rental) (keeps : Prop) : Prop where
  rentals : s'.rentals = s.rentals
  made : MadeFrom row id rental
  keeps_iff : (rental.packageId = row.package ∧ rental.actualEndTime = row.endTime) ↔ keeps

theorem run_onRental_ok (what : String) (data : α) (rest : α → Rental → StoreCalls (Option Rental))
    (hrow : s.rentals.get? id = some row) :
    run (serve lower) (onRental what id (.ok data) rest) s = run (serve lower) (rest data (row.rentalFromRow id)) s := by
  change run (serve lower) (findRental id >>= _) s = _
  rw [run_bind_ok _ (run_findRental hrow)]

section

variable (hrow : s.rentals.get? id = some row)

include hrow

theorem run_onRental {event : Except String α}
    {rest : α → Rental → StoreCalls (Option Rental)}
    (h : run (serve lower) (onRental what id event rest) s = (.ok (some rental), s')) :
    ∃ data, event = .ok data ∧ run (serve lower) (rest data (row.rentalFromRow id)) s = (.ok (some rental), s') := by
  cases event with
  | error e => cases h
  | ok data =>
    rw [run_onRental_ok what data rest hrow] at h
    exact ⟨data, rfl, h⟩

theorem stores_changedStatus {event : Except String StatusChangeData}
    (h : run (serve lower) ((statusChange event).produced id now) s = (.ok (some rental), s')) :
    Stores row id s s' rental ((statusChange event).Keeps lower s row now) := by
  obtain ⟨data, rfl, hread⟩ := run_onRental hrow h
  unfold changedStatus at hread
  cases hstate : eventState data.newStatus with
  | none =>
    rw [hstate] at hread
    cases hread
  | some newState =>
    rw [hstate] at hread
    dsimp only at hread
    have hkeeps : (statusChange (.ok data)).Keeps lower s row now ↔
        (row.state = .active ∧ newState.isTerminal → row.endTime = some now) := by
      constructor
      · intro hall
        exact hall data newState rfl hstate
      · rintro hends _ _ ⟨⟩ hstate'
        rw [hstate] at hstate'
        cases hstate'
        exact hends
    rw [hkeeps]
    split_ifs at hread with hends hstarts
    · obtain ⟨settled, s₂, hsettle, hdone⟩ := run_bind_eq_ok.mp hread
      obtain ⟨hrentals, cost, rfl⟩ := run_settle hsettle
      cases hdone
      refine ⟨hrentals, ⟨rfl, rfl, rfl⟩, ?_⟩
      constructor
      · rintro ⟨-, hend⟩ -
        exact hend.symm
      · intro hend
        exact ⟨rfl, (hend hends).symm⟩
    all_goals
      cases hread
      exact ⟨rfl, ⟨rfl, rfl, rfl⟩, iff_of_true ⟨rfl, rfl⟩ (fun hends' => absurd hends' hends)⟩

theorem stores_endedRental {event : Except String RentalEndData}
    (h : run (serve lower) ((rentalEnd event).produced id now) s = (.ok (some rental), s')) :
    Stores row id s s' rental ((rentalEnd event).Keeps lower s row now) := by
  obtain ⟨data, rfl, hread⟩ := run_onRental hrow h
  unfold endedRental at hread
  split_ifs at hread with hended
  · cases hread
  · obtain ⟨settled, s₂, hsettle, hdone⟩ := run_bind_eq_ok.mp hread
    obtain ⟨hrentals, cost, rfl⟩ := run_settle hsettle
    cases hdone
    refine ⟨hrentals, ⟨rfl, rfl, rfl⟩, ?_⟩
    constructor
    · rintro ⟨-, hend⟩
      exact hend.symm
    · intro hend
      exact ⟨rfl, hend.symm⟩

theorem stores_updatedResources {eventData : Json}
    (h : run (serve lower) (updatedResources id eventData) s = (.ok (some rental), s')) :
    Stores row id s s' rental ((resourceUpdate eventData).Keeps lower s row now) := by
  unfold updatedResources at h
  rw [run_bind_ok _ (run_findRental hrow)] at h
  split_ifs at h with hresources
  · cases h
  · cases hmodel : gpuModelOf eventData with
    | none =>
      rw [hmodel] at h
      cases h
      refine ⟨rfl, ⟨rfl, rfl, rfl⟩, iff_of_true ⟨rfl, rfl⟩ ?_⟩
      intro model package hmodel'
      rw [hmodel] at hmodel'
      cases hmodel'
    | some model =>
      rw [hmodel] at h
      obtain ⟨package, s₁, hfound, hdone⟩ := run_bind_eq_ok.mp h
      rw [run_findPackageForGpuModel] at hfound
      obtain ⟨hpackage, rfl⟩ := Prod.mk.inj hfound
      have hkeeps : (resourceUpdate eventData).Keeps lower s row now ↔ package.id = row.package := by
        constructor
        · intro hall
          exact hall model package hmodel hpackage
        · rintro hsame _ _ hmodel' hpackage'
          rw [hmodel] at hmodel'
          cases hmodel'
          rw [hpackage] at hpackage'
          cases hpackage'
          exact hsame
      rw [hkeeps]
      split_ifs at hdone with hsame
      · cases hdone
        exact ⟨rfl, ⟨rfl, rfl, rfl⟩, and_iff_left rfl⟩
      · cases hdone
        exact ⟨rfl, ⟨rfl, rfl, rfl⟩, iff_of_true ⟨rfl, rfl⟩ (not_not.mp hsame)⟩

theorem stores_produced
    (h : run (serve lower) (event.produced id now) s = (.ok (some rental), s')) :
    Stores row id s s' rental (event.Keeps lower s row now) := by
  cases event with
  | statusChange data => exact stores_changedStatus hrow h
  | rentalEnd data => exact stores_endedRental hrow h
  | resourceUpdate eventData => exact stores_updatedResources hrow h

end

theorem run_updateRental (hrow : s.rentals.get? rental.id = some row) (hupdate : row.update rental now = some row') :
    run (serve lower) (updateRental rental now) s = (.ok (), s.setRow rental.id row') := by
  change serve lower (Call.updateRental rental now) s = _
  simp only [serve, hrow, hupdate]

theorem run_readBack (hrow : s.rentals.get? rental.id = some row) (hupdate : row.update rental now = some row') :
    (run (serve lower) (readBack rental now) s).1 = .ok (some (row'.rentalFromRow rental.id)) := by
  have hget : (s.setRow rental.id row').rentals.get? rental.id = some row' := by
    unfold Store.setRow
    rw [AssocMap.get?_modify, if_pos rfl, hrow]
    rfl
  unfold readBack
  rw [run_bind_ok _ (run_updateRental hrow hupdate)]
  change (.ok (((s.setRow rental.id row').rentals.get? rental.id).map _) : Except BillingError (Option Rental)) = _
  rw [hget]
  rfl

end Handlers

section Coarse

variable {lower : String → String} {s s' : Store} {id : RentalId} {later : ℤ}

def Store.billing (s : Store) : BillingTables := ⟨s.credit, s.rentals.mapValues Row.coarse, s.usageEvents, s.packages⟩

theorem billing_setRow (hrow : s.rentals.get? rental.id = some row)
    (hupdate : row.update rental now = some row') :
    (s.setRow rental.id row').billing = s.billing.storeRental rental.coarse := by
  have hrows : (s.rentals.modify rental.id (fun _ => row')).mapValues Row.coarse =
      (s.rentals.mapValues Row.coarse).modify rental.id (fun row => row.update rental.coarse) := by
    apply AssocMap.mapValues_modify
    intro a ha
    rw [hrow] at ha
    cases ha
    exact coarse_update hupdate
  exact (BillingTables.mk.injEq ..).mpr ⟨rfl, hrows, rfl, rfl⟩

abbrev MirrorsBilling (lower : String → String) {α γ : Type} :=
  Mirrors (α := α) (γ := γ) (serve lower) Billing.serve Store.billing

theorem mirrors_readEventData (what : String) (event : Except String α) (s : Store) :
    MirrorsBilling lower (fun data => data) (readEventData what event)
      (Billing.readEventData what event) s := by
  cases event <;> rfl

theorem mirrors_findRental (id : RentalId) (s : Store) :
    MirrorsBilling lower Rental.coarse (findRental id) (Billing.findRental id) s := by
  have hrows : s.billing.rentals.get? id = (s.rentals.get? id).map Row.coarse := AssocMap.get?_mapValues _ _ _
  unfold MirrorsBilling Mirrors
  rw [Billing.run_findRental, hrows]
  cases hrow : s.rentals.get? id with
  | none =>
    rw [run_findRental_none hrow]
    rfl
  | some row =>
    rw [run_findRental hrow, Option.map_some]
    dsimp only
    rw [← coarse_rentalFromRow]
    rfl

theorem mirrors_catching (p : CreditCalls α) (s : Store) :
    MirrorsBilling lower (fun r => r) (catching (creditCalls p))
      (catching (Billing.creditCalls p)) s := by
  unfold MirrorsBilling Mirrors
  rw [run_catching, run_catching, run_creditCalls, Billing.run_creditCalls]
  rfl

theorem mirrors_getPackage (id : PackageId) (s : Store) :
    MirrorsBilling lower (fun r => r) (getPackage id) (Billing.getPackage id) s := by
  change Billing.serve (.getPackage id) s.billing = ((s.package id).map _, s.billing)
  unfold Store.package
  cases h : s.packages.get? id <;> simp only [Billing.serve, Store.billing, h] <;> rfl

theorem mirrors_getUsage (id : RentalId) (s : Store) : MirrorsBilling lower (fun r => r)
      (ask (Call.getUsageForRental id) : StoreCalls UsageMetrics) (getUsageForRental id) s := by
  change (usageForRental s.usageEvents id, s.billing) = ((usageForRental s.usageEvents id).map _, s.billing)
  cases usageForRental s.usageEvents id <;> rfl

theorem mirrors_settle (rental : Rental) (now : ℤ) (s : Store) :
    MirrorsBilling lower Rental.coarse (settle rental now) (chargeFinalCost rental.coarse) s := by
  apply (mirrors_getUsage rental.id s).bind
  intro usage s₁ _
  apply (mirrors_getPackage rental.packageId s₁).bind
  intro package s₂ _
  apply (mirrors_catching _ s₂).bind
  intro charged s₃ _
  cases hreservation : rental.reservationId with
  | none =>
    have hcoarse : rental.coarse.reservationId = none := hreservation
    simp only [hcoarse]
    rfl
  | some reservation =>
    have hcoarse : rental.coarse.reservationId = some reservation := hreservation
    simp only [hcoarse]
    apply (mirrors_catching _ s₃).bind
    intro released s₄ _
    rfl

theorem mirrors_store (hrow : s.rentals.get? id = some row)
    (hmade : MadeFrom row id rental) (hfits : CostFits rental.actualCost) :
    MirrorsBilling lower (fun r => r) (event.store id later (some rental))
      (storeAndRecord event.eventType rental.coarse) s := by
  obtain ⟨row', hupdate⟩ := update_of_fits row later hmade.rate hfits
  obtain rfl := hmade.id
  have hcoarse : s.billing.rentals.get? rental.coarse.id = some row.coarse := by
    change (s.rentals.mapValues Row.coarse).get? rental.id = _
    rw [AssocMap.get?_mapValues, hrow]
    rfl
  have hstored : MirrorsBilling lower (fun r => r) (updateRental rental later)
      (Billing.updateRental rental.coarse) s := by
    unfold MirrorsBilling Mirrors
    rw [Billing.run_updateRental hcoarse, run_updateRental hrow hupdate, billing_setRow hrow hupdate]
    rfl
  apply hstored.bind
  intro _ s₁ _
  rfl

theorem mirrors_produced (hrow : s.rentals.get? id = some row)
    (hproduced : run (serve lower) (event.produced id now) s = (.ok (some rental), s'))
    (hfits : CostFits rental.actualCost) :
    MirrorsBilling lower (fun r => r) (event.store id later (some rental))
      (storeAndRecord event.eventType rental.coarse) s' := by
  obtain ⟨hrentals, hmade, -⟩ := stores_produced hrow hproduced
  exact mirrors_store (hrentals ▸ hrow) hmade hfits

def Affordable (lower : String → String) (s : Store) (id : RentalId) (now : ℤ) (event : HandlerEvent) : Prop :=
  ∀ rental s', run (serve lower) (event.produced id now) s = (.ok (some rental), s') → CostFits rental.actualCost

theorem mirrors_onRental {event : Except String α}
    {rest : α → Rental → StoreCalls (Option Rental)} {next : Option Rental → StoreCalls Unit}
    {rest' : α → Billing.Rental → BillingCalls Unit}
    (h : ∀ data row, event = .ok data → s.rentals.get? id = some row →
      MirrorsBilling lower (fun r => r) (rest data (row.rentalFromRow id) >>= next)
        (rest' data (row.rentalFromRow id).coarse) s) :
    MirrorsBilling lower (fun r => r) (onRental what id event rest >>= next)
      (do let data ← Billing.readEventData what event; let rental ← Billing.findRental id; rest' data rental) s := by
  unfold onRental
  rw [bind_assoc]
  apply (mirrors_readEventData what event s).bind
  intro data s₁ hdata
  obtain ⟨hevent, rfl⟩ := run_readEventData hdata
  rw [bind_assoc]
  apply (mirrors_findRental id s).bind
  intro rental s₂ hfound
  cases hrow : s.rentals.get? id with
  | none =>
    rw [run_findRental_none hrow] at hfound
    cases hfound
  | some row =>
    rw [run_findRental hrow] at hfound
    cases hfound
    exact h data row hevent hrow

theorem mirrors_rentalEnd {event : Except String RentalEndData} (hfits : Affordable lower s id now (.rentalEnd event)) :
    MirrorsBilling lower (fun r => r) ((rentalEnd event).process id now later)
      (processRentalEnd id event) s := by
  apply mirrors_onRental
  rintro data row rfl hrow
  unfold endedRental
  by_cases hended : (row.rentalFromRow id).state = .completed ∨ (row.rentalFromRow id).state = .failed
  · rw [if_pos hended, if_pos (by exact hended)]
    rfl
  · rw [if_neg hended, if_neg (by exact hended), bind_assoc]
    apply (mirrors_settle _ now s).bind
    intro settled s₁ hsettle
    have hrun : run (serve lower) ((rentalEnd (.ok data)).produced id now) s = (.ok (some settled), s₁) := by
      apply (run_onRental_ok "rental end" data (endedRental now) hrow).trans
      rw [endedRental, if_neg hended, run_bind_ok _ hsettle]
      rfl
    exact mirrors_produced hrow hrun (hfits _ _ hrun)

theorem mirrors_statusChange {event : Except String StatusChangeData}
    (hfits : Affordable lower s id now (.statusChange event)) :
    MirrorsBilling lower (fun r => r)
      ((statusChange event).process id now later) (processStatusChange id event) s := by
  apply mirrors_onRental
  rintro data row rfl hrow
  have hstored {changed : Rental} {s₁ : Store}
      (h : run (serve lower) (changedStatus now data (row.rentalFromRow id)) s = (.ok (some changed), s₁)) :
      MirrorsBilling lower (fun r => r)
        ((statusChange (.ok data)).store id later (some changed)) (storeAndRecord "status_changed" changed.coarse)
        s₁ := by
    have hrun := (run_onRental_ok "status change" data (changedStatus now) hrow).trans h
    exact mirrors_produced hrow hrun (hfits _ _ hrun)
  unfold changedStatus at hstored ⊢
  cases hstate : eventState data.newStatus with
  | none => rfl
  | some newState =>
    rw [hstate] at hstored
    dsimp only at hstored ⊢
    by_cases hends : (row.rentalFromRow id).state = .active ∧ newState.isTerminal
    · rw [if_pos hends] at hstored ⊢
      rw [if_pos (by exact hends), bind_assoc]
      apply (mirrors_settle _ now s).bind
      intro settled s₁ hsettle
      apply hstored
      rw [run_bind_ok _ hsettle]
      rfl
    · have hends' : ¬ ((row.rentalFromRow id).coarse.state = .active ∧ newState.isTerminal) := hends
      rw [if_neg hends] at hstored ⊢
      rw [if_neg hends']
      split_ifs at hstored ⊢ with hstarts
      all_goals exact hstored rfl

structure Delivery where
  id : RentalId
  event : Except String StatusChangeData ⊕ Except String RentalEndData
  now : ℤ
  later : ℤ

namespace Delivery

def handlerEvent (d : Delivery) : HandlerEvent := d.event.elim .statusChange .rentalEnd

def handle (lower : String → String) (d : Delivery) (s : Store) : Store :=
  (run (serve lower) (d.handlerEvent.process d.id d.now d.later) s).2

def bill (d : Delivery) (t : BillingTables) : BillingTables :=
  (run Billing.serve (d.event.elim (processStatusChange d.id) (processRentalEnd d.id)) t).2

end Delivery

theorem billing_handle {d : Delivery} (h : Affordable lower s d.id d.now d.handlerEvent) :
    (d.handle lower s).billing = d.bill s.billing := by
  obtain ⟨id, event, now, later⟩ := d
  cases event with
  | inl event => exact (congrArg Prod.snd (mirrors_statusChange h)).symm
  | inr event => exact (congrArg Prod.snd (mirrors_rentalEnd h)).symm

end Coarse

theorem deliveries_refine_billing (lower : String → String) (l : List Delivery) (s : Store)
    (h : EachStep (Delivery.handle lower) (fun d s => Affordable lower s d.id d.now d.handlerEvent) l s) :
    (last (Delivery.handle lower) l s).billing = last Delivery.bill l s.billing := by
  induction l generalizing s with
  | nil => rfl
  | cons d l ih =>
    have hstep : (d.handle lower s).billing = d.bill s.billing := billing_handle h.1
    exact (ih _ h.2).trans (congrArg (last Delivery.bill l) hstep)

theorem produced_read_back_iff (lower : String → String) (s s' : Store) (id : RentalId) (row : Row) (event : HandlerEvent)
    (now later : ℤ) (rental : Rental) (hrow : s.rentals.get? id = some row)
    (hproduced : run (serve lower) (event.produced id now) s = (.ok (some rental), s')) (hfits : CostFits rental.actualCost) :
    (∃ read, (run (serve lower) (readBack rental later) s').1 = .ok (some read) ∧ Agrees rental read) ↔
      event.Keeps lower s row now := by
  obtain ⟨hrentals, hmade, hkeeps⟩ := stores_produced hrow hproduced
  obtain ⟨row', hupdate⟩ := update_of_fits row later hmade.rate hfits
  have hstored : s'.rentals.get? rental.id = some row := by rw [hrentals, hmade.id, hrow]
  have hagrees := agrees_iff hupdate rental.id
  rw [hmade.endedAt, hkeeps] at hagrees
  rw [run_readBack hstored hupdate, ← hagrees]
  constructor
  · rintro ⟨read, hread, h⟩
    cases hread
    exact h
  · intro h
    exact ⟨_, rfl, h⟩

def oneRow (endTime : Option ℤ) : Row where
  userId := "alice"
  executorId := "executor"
  validatorId := some "validator"
  packageId := some "h100"
  resourceSpec := (ResourceSpec.mk [⟨"H100", 81920, 1⟩] 8 64 500 1000 1000).toJson
  hourlyRate := ⟨350, by decide⟩
  startTime := 0
  endTime := endTime
  status := "active"
  totalCost := none
  metadata := .object [("region", .string "eu")]
  createdAt := 0
  updatedAt := 0

def oneStore (endTime : Option ℤ) : Store where
  credit := (oneRental .active).credit
  rentals := AssocMap.empty.insert 1 (oneRow endTime)
  usageEvents := []
  packages := (oneRental .active).packages
  packageRows := [⟨⟨"h100", ⟨3500000⟩⟩, "H100", 100, true⟩, ⟨⟨"h200", ⟨5000000⟩⟩, "H200", 100, true⟩]

theorem produced_read_back_known_end :
    let event := HandlerEvent.rentalEnd (.ok ⟨100, 7 / 2, none⟩)
    let rental := { (oneRow (some 100)).rentalFromRow 1 with
      state := .completed, actualEndTime := some 100, actualCost := ⟨3500000⟩ }
    (run (serve id) (event.produced 1 100) (oneStore (some 100))).1 = .ok (some rental) ∧
      ∃ read, (run (serve id) (readBack rental 101) (run (serve id) (event.produced 1 100) (oneStore (some 100))).2).1 =
        .ok (some read) ∧ Agrees rental read := by
  intro event rental
  have hproduced : (run (serve id) (event.produced 1 100) (oneStore (some 100))).1 = .ok (some rental) := by
    decide +kernel
  exact ⟨hproduced, (produced_read_back_iff id (oneStore (some 100)) _ 1 (oneRow (some 100)) event 100 101 rental rfl
    (Prod.ext hproduced rfl) (by decide +kernel)).mpr rfl⟩

def oneEnding : List Delivery := [⟨1, .inr (.ok ⟨100, 7 / 2, none⟩), 100, 101⟩]

theorem ending_refines_billing :
    (last (Delivery.handle id) oneEnding (oneStore none)).billing = last Delivery.bill oneEnding (oneStore none).billing := by
  refine deliveries_refine_billing id oneEnding (oneStore none) ⟨?_, trivial⟩
  intro rental s' hrun
  have hcost := congrArg (fun result => result.1.map (Option.map (fun r => decide (CostFits r.actualCost)))) hrun
  exact of_decide_eq_true (Option.some.inj (Except.ok.inj (hcost.symm.trans (by decide +kernel))))

theorem produced_not_read_back :
    let ended := HandlerEvent.rentalEnd (.ok ⟨100, 7 / 2, none⟩)
    let moved := HandlerEvent.resourceUpdate (.object [("resources", .object [("gpu_model", .string "H200")])])
    let produced (event : HandlerEvent) := (run (serve id) (event.produced 1 100) (oneStore none)).1
    let read (event : HandlerEvent) :=
      (run (serve id) (do event.process 1 100 101; getRental 1) (oneStore none)).1
    (produced ended).map (Option.map Rental.actualEndTime) = .ok (some (some 100)) ∧
      (read ended).map (Option.map Rental.actualEndTime) = .ok (some none) ∧
      (produced moved).map (Option.map Rental.packageId) = .ok (some "h200") ∧
      (read moved).map (Option.map Rental.packageId) = .ok (some "h100") := by
  decide +kernel

end Basilica.RentalStorage
