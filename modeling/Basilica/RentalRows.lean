import Basilica.Tallies
import Basilica.UsageDecoding

/-!
The rentals of the billing service with all their fields, and the rows of `billing.rentals` with all the columns that
are read or written.
-/

namespace Basilica.Billing.Json

def asStr : Json → Option String
  | .string value => some value
  | _ => none

def asU32 (json : Json) : Option UInt32 :=
  json.asU64.bind (fun n => if n.toNat < 2 ^ 32 then some (.ofNat n.toNat) else none)

theorem asU32_number (n : UInt32) : (Json.number n.toNat).asU32 = some n := by
  have hwide : (Json.number n.toNat).asU64 = some n.toUInt64 := asU64_number n.toUInt64
  rw [asU32, hwide, Option.bind_some, UInt32.toNat_toUInt64, if_pos n.toNat_lt]
  simp

def readStruct (names : List String) : Json → Option (List Json)
  | .object fields => names.mapM (fun name => fields.lookup name)
  | .array items => if items.length = names.length then some items else none
  | _ => none

end Basilica.Billing.Json

namespace Basilica.RentalStorage

open AssocMaps Billing Decimals Option CreditBalance

structure GpuSpec where
  model : String
  memoryMb : UInt64
  count : UInt32
deriving DecidableEq

namespace GpuSpec

def toJson (spec : GpuSpec) : Json :=
  .object [("model", .string spec.model), ("memory_mb", .number spec.memoryMb.toNat), ("count", .number spec.count.toNat)]

def ofJson (json : Json) : Option GpuSpec :=
  match json.readStruct ["model", "memory_mb", "count"] with
  | some [model, memoryMb, count] => do return ⟨← model.asStr, ← memoryMb.asU64, ← count.asU32⟩
  | _ => none

theorem ofJson_toJson (spec : GpuSpec) : ofJson spec.toJson = some spec := by
  have hfields : spec.toJson.readStruct ["model", "memory_mb", "count"] =
      some [.string spec.model, .number spec.memoryMb.toNat, .number spec.count.toNat] := rfl
  unfold ofJson
  rw [hfields]
  simp only [Json.asStr, Json.asU64_number, Json.asU32_number]
  rfl

end GpuSpec

structure ResourceSpec where
  gpuSpecs : List GpuSpec
  cpuCores : UInt32
  memoryGb : UInt32
  storageGb : UInt32
  diskIops : UInt64
  networkBandwidthMbps : UInt64
deriving DecidableEq

namespace ResourceSpec

def none : ResourceSpec := ⟨[], 0, 0, 0, 0, 0⟩

def toJson (spec : ResourceSpec) : Json :=
  .object [("gpu_specs", .array (spec.gpuSpecs.map GpuSpec.toJson)), ("cpu_cores", .number spec.cpuCores.toNat),
    ("memory_gb", .number spec.memoryGb.toNat), ("storage_gb", .number spec.storageGb.toNat),
    ("disk_iops", .number spec.diskIops.toNat), ("network_bandwidth_mbps", .number spec.networkBandwidthMbps.toNat)]

def gpuSpecsOf : Json → Option (List GpuSpec)
  | .array items => items.mapM GpuSpec.ofJson
  | _ => Option.none

def ofJson (json : Json) : Option ResourceSpec :=
  match json.readStruct ["gpu_specs", "cpu_cores", "memory_gb", "storage_gb", "disk_iops", "network_bandwidth_mbps"] with
  | some [gpuSpecs, cpuCores, memoryGb, storageGb, diskIops, networkBandwidthMbps] => do
    return ⟨← gpuSpecsOf gpuSpecs, ← cpuCores.asU32, ← memoryGb.asU32, ← storageGb.asU32, ← diskIops.asU64,
      ← networkBandwidthMbps.asU64⟩
  | _ => Option.none

theorem ofJson_toJson (spec : ResourceSpec) : ofJson spec.toJson = some spec := by
  have hfields : spec.toJson.readStruct
      ["gpu_specs", "cpu_cores", "memory_gb", "storage_gb", "disk_iops", "network_bandwidth_mbps"] =
        some [.array (spec.gpuSpecs.map GpuSpec.toJson), .number spec.cpuCores.toNat, .number spec.memoryGb.toNat,
          .number spec.storageGb.toNat, .number spec.diskIops.toNat, .number spec.networkBandwidthMbps.toNat] := rfl
  unfold ofJson
  rw [hfields]
  simp only [gpuSpecsOf, mapM_map_eq_some GpuSpec.ofJson_toJson, Json.asU64_number, Json.asU32_number]
  rfl

end ResourceSpec

abbrev Metadata := AssocMap String String

namespace Metadata

def toJson (metadata : Metadata) : Json := .object (metadata.entries.map (fun entry => (entry.1, .string entry.2)))

def readEntry (field : String × Json) : Option (String × String) := field.2.asStr.map (fun value => (field.1, value))

def ofJson : Json → Option Metadata
  | .object fields => (fields.mapM readEntry).map (fun entries => entries.foldl (fun m entry => m.set entry.1 entry.2) .empty)
  | _ => none

theorem ofJson_toJson (metadata : Metadata) : ofJson (toJson metadata) = some metadata := by
  have hread : ∀ entry : String × String, readEntry (entry.1, .string entry.2) = some entry := fun _ => rfl
  change (List.mapM readEntry _).map _ = _
  rw [mapM_map_eq_some hread, map_some, AssocMap.foldl_set_entries]

end Metadata

/-- `DECIMAL(10, 2)`, in units of its last place. -/
structure DecimalColumn where
  cents : ℤ
  fits : |cents| < 10 ^ 10

namespace DecimalColumn

variable (column : DecimalColumn)

def value : ℚ := column.cents / 100

def ofDecimal (amount : ℚ) : Option DecimalColumn :=
  if h : |roundHalfAway (amount * 100)| < 10 ^ 10 then some ⟨roundHalfAway (amount * 100), h⟩ else none

theorem ofDecimal_value : ofDecimal column.value = some column := by
  have hcents : roundHalfAway (column.value * 100) = column.cents := by
    rw [value, div_mul_cancel₀ _ (by norm_num), roundHalfAway_intCast]
  unfold ofDecimal
  simp only [hcents, column.fits, dite_true]

theorem fromDecimal_micros (column : DecimalColumn) :
    CreditBalance.fromDecimal column.value = ⟨column.cents * 10 ^ 4⟩ := by
  apply CreditBalance.fromDecimal_micros
  rw [value]
  push_cast
  ring

theorem asDecimal_fromDecimal : (CreditBalance.fromDecimal column.value).asDecimal = column.value := by
  rw [fromDecimal_micros, CreditBalance.asDecimal, value]
  push_cast
  ring

end DecimalColumn

structure Rental where
  id : RentalId
  userId : UserId
  executorId : String
  validatorId : String
  packageId : PackageId
  reservationId : Option ReservationId
  state : RentalState
  resourceSpec : ResourceSpec
  usageMetrics : UsageMetrics
  costBreakdown : CostBreakdown
  startedAt : ℤ
  updatedAt : ℤ
  endedAt : Option ℤ
  metadata : Metadata
  createdAt : ℤ
  lastUpdated : ℤ
  actualStartTime : Option ℤ
  actualEndTime : Option ℤ
  actualCost : CreditBalance
deriving DecidableEq

structure Row where
  userId : UserId
  executorId : String
  validatorId : Option String
  packageId : Option PackageId
  resourceSpec : Json
  hourlyRate : DecimalColumn
  startTime : ℤ
  endTime : Option ℤ
  status : String
  totalCost : Option DecimalColumn
  metadata : Json
  createdAt : ℤ
  updatedAt : ℤ

def costOf (column : Option DecimalColumn) : CreditBalance :=
  (column.map (fun column => CreditBalance.fromDecimal column.value)).getD .zero

variable {rental : Rental} {now : ℤ}

namespace Row

def package (row : Row) : PackageId := row.packageId.getD "custom"

def state (row : Row) : RentalState := .parseRentalState row.status

/-- Both the end of the rental and its actual end are the one column. -/
def rentalFromRow (row : Row) (id : RentalId) : Rental where
  id := id
  userId := row.userId
  executorId := row.executorId
  validatorId := row.validatorId.getD ""
  packageId := row.package
  reservationId := none
  state := row.state
  resourceSpec := (ResourceSpec.ofJson row.resourceSpec).getD .none
  usageMetrics := .zero
  costBreakdown := ⟨.fromDecimal row.hourlyRate.value, .zero, .zero, .zero,
    .fromDecimal ((row.totalCost.map DecimalColumn.value).getD 0)⟩
  startedAt := row.startTime
  updatedAt := row.updatedAt
  endedAt := row.endTime
  metadata := (Metadata.ofJson row.metadata).getD .empty
  createdAt := row.createdAt
  lastUpdated := row.updatedAt
  actualStartTime := some row.startTime
  actualEndTime := row.endTime
  actualCost := costOf row.totalCost

/-- A cost of zero is stored as a null. -/
def costColumn (cost : CreditBalance) : Option (Option DecimalColumn) :=
  if cost.asDecimal = 0 then some none else (DecimalColumn.ofDecimal cost.asDecimal).map some

/-- The package and the actual end time are not written. -/
def update (row : Row) (rental : Rental) (now : ℤ) : Option Row := do
  let hourlyRate ← DecimalColumn.ofDecimal rental.costBreakdown.baseCost.asDecimal
  let totalCost ← costColumn rental.actualCost
  return { row with
    status := rental.state.toText
    resourceSpec := rental.resourceSpec.toJson
    hourlyRate := hourlyRate
    updatedAt := now
    endTime := rental.endedAt
    metadata := rental.metadata.toJson
    totalCost := totalCost }

theorem update_eq_some {row row' : Row} : row.update rental now = some row' ↔
      ∃ hourlyRate totalCost, DecimalColumn.ofDecimal rental.costBreakdown.baseCost.asDecimal = some hourlyRate ∧
        costColumn rental.actualCost = some totalCost ∧
        row' = { row with
          status := rental.state.toText
          resourceSpec := rental.resourceSpec.toJson
          hourlyRate := hourlyRate
          updatedAt := now
          endTime := rental.endedAt
          metadata := rental.metadata.toJson
          totalCost := totalCost } := by
  unfold update
  constructor
  · intro h
    obtain ⟨hourlyRate, hrate, h⟩ := bind_eq_some_iff.mp h
    obtain ⟨totalCost, hcost, h⟩ := bind_eq_some_iff.mp h
    exact ⟨hourlyRate, totalCost, hrate, hcost, (some.inj h).symm⟩
  · rintro ⟨hourlyRate, totalCost, hrate, hcost, rfl⟩
    rw [hrate, hcost]
    rfl

end Row

variable {cost : CreditBalance}

theorem asDecimal_eq_zero_iff : cost.asDecimal = 0 ↔ cost = .zero := by
  obtain ⟨micros⟩ := cost
  simp [asDecimal, zero]

theorem costColumn_eq_some {column : Option DecimalColumn} (h : Row.costColumn cost = some column) :
    cost = .zero ∧ column = none ∨
      cost ≠ .zero ∧ ∃ stored, column = some stored ∧ stored.cents = roundHalfAway (cost.asDecimal * 100) := by
  unfold Row.costColumn at h
  simp only [asDecimal_eq_zero_iff] at h
  split_ifs at h with hzero
  · exact Or.inl ⟨hzero, (some.inj h).symm⟩
  · obtain ⟨stored, hstored, rfl⟩ := map_eq_some_iff.mp h
    unfold DecimalColumn.ofDecimal at hstored
    split_ifs at hstored with hfits
    cases hstored
    exact Or.inr ⟨hzero, _, rfl, rfl⟩

theorem abs_costOf_sub_le {column : Option DecimalColumn} (h : Row.costColumn cost = some column) :
    2 * |(costOf column).micros - cost.micros| ≤ 10 ^ 4 := by
  rcases costColumn_eq_some h with ⟨rfl, rfl⟩ | ⟨-, stored, rfl, hcents⟩
  · decide
  · have hmicros : (costOf (some stored)).micros = stored.cents * 10 ^ 4 :=
      congrArg micros stored.fromDecimal_micros
    have hdecimal : cost.asDecimal * 10 ^ 6 = cost.micros := by
      unfold asDecimal
      ring
    have hround := abs_le.mp (abs_roundHalfAway_sub_le (cost.asDecimal * 100))
    rw [← hcents] at hround
    have hlow : (-5000 : ℚ) ≤ stored.cents * 10 ^ 4 - cost.micros := by linarith
    have hhigh : (stored.cents * 10 ^ 4 - cost.micros : ℚ) ≤ 5000 := by linarith
    have hnear : |stored.cents * 10 ^ 4 - cost.micros| ≤ 5000 :=
      abs_le.mpr ⟨by exact_mod_cast hlow, by exact_mod_cast hhigh⟩
    rw [hmicros]
    omega

def Row.coarse (row : Row) : RentalRow where
  userId := row.userId
  executorId := row.executorId
  validatorId := row.validatorId
  packageId := row.packageId
  status := row.status
  endTime := row.endTime
  totalCost := row.totalCost.map DecimalColumn.cents
  terminationReason := ((Metadata.ofJson row.metadata).getD .empty).get? "termination_reason"

def Rental.coarse (rental : Rental) : Billing.Rental where
  id := rental.id
  userId := rental.userId
  executorId := rental.executorId
  validatorId := rental.validatorId
  packageId := rental.packageId
  reservationId := rental.reservationId
  state := rental.state
  endedAt := rental.endedAt
  actualCost := rental.actualCost
  terminationReason := rental.metadata.get? "termination_reason"

theorem coarse_rentalFromRow (row : Row) (id : RentalId) : (row.rentalFromRow id).coarse = row.coarse.rental id := by
  have hcost : (row.rentalFromRow id).actualCost = (row.coarse.rental id).actualCost := by
    unfold Row.rentalFromRow RentalRow.rental Row.coarse
    cases row.totalCost <;> rfl
  unfold Rental.coarse
  rw [hcost]
  rfl

theorem coarse_update {row row' : Row} (h : row.update rental now = some row') :
    row'.coarse = row.coarse.update rental.coarse := by
  obtain ⟨hourlyRate, totalCost, -, hcost, rfl⟩ := Row.update_eq_some.mp h
  have hcolumn : totalCost.map DecimalColumn.cents =
      if rental.actualCost = .zero then none else some (roundHalfAway (rental.actualCost.asDecimal * 100)) := by
    rcases costColumn_eq_some hcost with ⟨hzero, rfl⟩ | ⟨hzero, stored, rfl, hcents⟩
    · rw [if_pos hzero]
      rfl
    · rw [if_neg hzero, map_some, hcents]
  unfold Row.coarse RentalRow.update
  rw [hcolumn, Metadata.ofJson_toJson]
  rfl

end Basilica.RentalStorage
