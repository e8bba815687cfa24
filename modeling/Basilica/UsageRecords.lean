import Basilica.CreditAmounts

/-!
Usage metrics and their price, and the rows of `billing.usage_events`. The data of an event is a JSON object; for
the events that are read back into a record it is kept as what reading it gives.
-/

namespace Basilica.Billing

open Decimals

abbrev PackageId := String

structure UsageMetrics where
  gpuHours : ℚ
  cpuHours : ℚ
  memoryGbHours : ℚ
  storageGbHours : ℚ
  networkGb : ℚ
  diskIoGb : ℚ
deriving DecidableEq

def UsageMetrics.zero : UsageMetrics := ⟨0, 0, 0, 0, 0, 0⟩

def UsageMetrics.add (a b : UsageMetrics) : UsageMetrics where
  gpuHours := a.gpuHours + b.gpuHours
  cpuHours := a.cpuHours + b.cpuHours
  memoryGbHours := a.memoryGbHours + b.memoryGbHours
  storageGbHours := a.storageGbHours + b.storageGbHours
  networkGb := a.networkGb + b.networkGb
  diskIoGb := a.diskIoGb + b.diskIoGb

structure CostBreakdown where
  baseCost : CreditBalance
  usageCost : CreditBalance
  discounts : CreditBalance
  overageCharges : CreditBalance
  totalCost : CreditBalance
deriving DecidableEq

structure BillingPackage where
  id : PackageId
  hourlyRate : CreditBalance

/-- At least one hour is billed. -/
def BillingPackage.calculateCost (package : BillingPackage) (usage : UsageMetrics) : CostBreakdown :=
  let totalHours := max usage.gpuHours 1
  let totalCost := package.hourlyRate.multiply totalHours
  ⟨totalCost, .zero, .zero, .zero, totalCost⟩

inductive Json
  | null
  | bool (value : Bool)
  | number (value : ℚ)
  | string (value : String)
  | array (items : List Json)
  | object (fields : List (String × Json))

/-- The text of a value cast to a decimal: `none` if the cast fails, `some none` for a null. -/
def Json.castDecimal : Json → Option (Option ℚ)
  | .null => some none
  | .number value => some (some value)
  | .string value => (readDecimal value).map some
  | _ => none

/-- `COALESCE(SUM((event_data->>'key')::decimal), 0)` -/
def sumColumn (key : String) : List (List (String × Json)) → Option ℚ
  | [] => some 0
  | fields :: rest => do
    let value ← ((fields.lookup key).getD .null).castDecimal
    let total ← sumColumn key rest
    return value.getD 0 + total

theorem sumColumn_of_missing {key : String} {rows : List (List (String × Json))}
    (h : ∀ fields ∈ rows, fields.lookup key = none) : sumColumn key rows = some 0 := by
  induction rows with
  | nil => rfl
  | cons fields rows ih =>
    have hrest := ih (fun row hrow => h row (List.mem_cons_of_mem _ hrow))
    rw [sumColumn, h fields List.mem_cons_self, hrest]
    exact congrArg some (add_zero 0)

structure StatusChangeData where
  oldStatus : String
  newStatus : String
  reason : Option String

structure CostUpdateData where
  totalCost : ℚ
  hourlyRate : Option ℚ
  durationHours : Option ℚ

structure RentalEndData where
  endTime : ℤ
  finalCost : ℚ
  terminationReason : Option String

inductive EventData
  | telemetry (fields : List (String × Json))
  | statusChange (data : Except String StatusChangeData)
  | costUpdate (data : Except String CostUpdateData)
  | rentalEnd (data : Except String RentalEndData)
  | rentalStart (packageId : PackageId) (hourlyRate : ℚ) (estimatedCost : CreditBalance) (maxDurationHours : ℕ)

/-- A `VARCHAR(width)` takes the text: there are only blanks past the width, and no NUL. -/
def fitsColumn (width : ℕ) (text : String) : Bool :=
  (text.toList.drop width).all (fun c => c = ' ') && text.toList.all (fun c => c ≠ Char.ofNat 0)

structure UsageEvent where
  rentalId : RentalId
  userId : UserId
  executorId : String
  validatorId : String
  data : EventData

namespace UsageEvent

def validateEventIds (event : UsageEvent) : Except BillingError Unit :=
  if event.userId = "" then .error (.validationError "user_id" "user_id cannot be empty for usage event")
  else if event.executorId = "" then .error (.validationError "executor_id" "executor_id cannot be empty for usage event")
  else if event.validatorId = "" then .error (.validationError "validator_id" "validator_id cannot be empty for usage event")
  else .ok ()

/-- The ids as the table checks them: `TRIM(user_id) != ''`, `TRIM(validator_id) != ''` and the widths. -/
def hasIds (event : UsageEvent) : Bool :=
  event.userId.toList.any (fun c => c ≠ ' ') && event.validatorId.toList.any (fun c => c ≠ ' ') &&
    fitsColumn 255 event.userId && fitsColumn 128 event.executorId && fitsColumn 255 event.validatorId

def checkIds (event : UsageEvent) : Except BillingError Unit := do
  event.validateEventIds
  if event.hasIds then .ok () else .error (.eventStoreError "Failed to append usage event")

/-- `WHERE rental_id = $1 AND event_type = 'telemetry'` -/
def telemetryOf (id : RentalId) (event : UsageEvent) : Option (List (String × Json)) :=
  match event.data with
  | .telemetry fields => if event.rentalId = id then some fields else none
  | _ => none

end UsageEvent

def usageForRental (events : List UsageEvent) (id : RentalId) : Except BillingError UsageMetrics :=
  let rows := events.filterMap (UsageEvent.telemetryOf id)
  let columns : Option UsageMetrics := do
    let gpuHours ← sumColumn "gpu_hours" rows
    let cpuHours ← sumColumn "cpu_hours" rows
    let memoryGbHours ← sumColumn "memory_gb_hours" rows
    let storageGbHours ← sumColumn "storage_gb_hours" rows
    let networkGb ← sumColumn "network_gb" rows
    return ⟨gpuHours, cpuHours, memoryGbHours, storageGbHours, networkGb, 0⟩
  match columns with
  | some metrics => .ok metrics
  | none => .error (.databaseError "get_usage_for_rental")

end Basilica.Billing
