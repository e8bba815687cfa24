import Basilica.AssocMaps

/-!
The tables of the validator that a verification result is stored in and read from: the miners, their executors, the
GPUs assigned to the executors, the verification logs and the rentals.
-/

namespace Basilica.Validator

open AssocMaps

abbrev MinerUid := UInt16

abbrev MinerId := String

abbrev ExecutorId := String

abbrev GpuUuid := String

abbrev Time := ℤ

inductive Stamp
  | rfc3339 (time : Time)
  | dateTime (seconds : ℤ)

/-- `datetime('now')` -/
def Stamp.ofNow (now : Time) : Stamp := .dateTime (now / 1000000000)

structure Miner where
  hotkey : String
  endpoint : String
deriving DecidableEq

inductive ExecutorStatus
  | online
  | verified
  | offline
  | failed
  | stale
  | unknown
  | other (text : String)
deriving DecidableEq

namespace ExecutorStatus

def Active (status : ExecutorStatus) : Prop := status = online ∨ status = verified

instance : DecidablePred Active := fun _ => inferInstanceAs (Decidable (_ ∨ _))

def Inactive (status : ExecutorStatus) : Prop := status = offline ∨ status = failed ∨ status = stale

instance : DecidablePred Inactive := fun _ =>
  inferInstanceAs (Decidable (_ ∨ _))

end ExecutorStatus

structure ExecutorRow where
  minerId : MinerId
  executorId : ExecutorId
  grpcAddress : String
  gpuCount : ℕ
  status : ExecutorStatus
  lastHealthCheck : Option Stamp
  updatedAt : Stamp

def ExecutorRow.Of (minerId : MinerId) (executorId : ExecutorId) (row : ExecutorRow) : Prop :=
  row.minerId = minerId ∧ row.executorId = executorId

instance (minerId : MinerId) (executorId : ExecutorId) : DecidablePred (ExecutorRow.Of minerId executorId) := fun _ =>
  inferInstanceAs (Decidable (_ ∧ _))

structure GpuAssignment where
  gpuIndex : Int32
  executorId : ExecutorId
  minerId : MinerId
  gpuName : Option String
  gpuMemoryGb : Option ℚ
  lastVerified : Stamp
  updatedAt : Stamp

def GpuAssignment.Of (minerId : MinerId) (executorId : ExecutorId) (gpu : GpuAssignment) : Prop :=
  gpu.minerId = minerId ∧ gpu.executorId = executorId

instance (minerId : MinerId) (executorId : ExecutorId) : DecidablePred (GpuAssignment.Of minerId executorId) := fun _ =>
  inferInstanceAs (Decidable (_ ∧ _))

structure GpuInfo where
  index : UInt32
  gpuName : String
  gpuUuid : GpuUuid
  gpuMemoryGb : ℚ
deriving DecidableEq

structure ExecutorResult where
  gpuInfos : List GpuInfo
deriving DecidableEq

/-- The fields of `details` that are read again. -/
structure LogDetails where
  minerUid : MinerUid
  binaryValidationSuccessful : Bool
  executorResult : Option ExecutorResult
  gpuCount : ℕ

structure VerificationLog where
  executorId : ExecutorId
  verificationType : String
  timestamp : Time
  score : ℚ
  success : Bool
  details : LogDetails

inductive RentalState
  | provisioning
  | active
  | stopping
  | stopped
  | failed
deriving DecidableEq

def RentalState.Rented (state : RentalState) : Prop := state = active ∨ state = provisioning

instance : DecidablePred RentalState.Rented := fun _ =>
  inferInstanceAs (Decidable (_ ∨ _))

structure Rental where
  executorId : ExecutorId
  minerId : MinerId
  state : RentalState

structure ValidatorDb where
  miners : AssocMap MinerId Miner
  executors : AssocMap String ExecutorRow
  gpus : AssocMap GpuUuid GpuAssignment
  logs : List VerificationLog
  rentals : List Rental

/-- `format!("miner_{miner_uid}")` -/
def minerIdOf (minerUid : MinerUid) : MinerId :=
  let n := minerUid.toNat
  s!"miner_{n}"

/-- `format!("{miner_id}_{executor_id}")` -/
def relationshipId (minerId : MinerId) (executorId : ExecutorId) : String := s!"{minerId}_{executorId}"

namespace ValidatorDb

/-- `SELECT status FROM miner_executors WHERE executor_id = ? AND miner_id = ?`, the first row of it. -/
def executorStatus? (db : ValidatorDb) (minerId : MinerId) (executorId : ExecutorId) : Option ExecutorStatus :=
  (db.executors.values.find? (ExecutorRow.Of minerId executorId)).map ExecutorRow.status

/-- `UPDATE miner_executors SET … WHERE …` -/
def updateExecutors (db : ValidatorDb) (p : String → ExecutorRow → Prop) [∀ id, DecidablePred (p id)]
    (set : ExecutorRow → ExecutorRow) : ValidatorDb :=
  { db with executors := db.executors.mapWith (fun id row => if p id row then set row else row) }

def cleanupGpuAssignments (db : ValidatorDb) (executorId : ExecutorId) (minerId : MinerId) : ValidatorDb :=
  { db with gpus := db.gpus.filterWith (fun _ gpu => ¬ gpu.Of minerId executorId) }

end ValidatorDb

end Basilica.Validator
