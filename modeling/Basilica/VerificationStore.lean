import Basilica.GpuAssignments

/-!
How a verification result of an executor is stored: the log, the status of the executor, and after a full validation
the miner, the relation between the miner and the executor and the GPUs. What fails leaves the tables as they are.
-/

namespace Basilica.Validator

open AssocMaps

inductive ValidationType
  | full
  | lightweight
deriving DecidableEq

structure ExecutorVerificationResult where
  executorId : ExecutorId
  grpcEndpoint : String
  verificationScore : ℚ
  sshConnectionSuccessful : Bool
  binaryValidationSuccessful : Bool
  executorResult : Option ExecutorResult
  gpuCount : ℕ
  validationType : ValidationType

structure MinerInfo where
  hotkey : String
  endpoint : String

namespace ExecutorVerificationResult

def success (result : ExecutorVerificationResult) : Bool :=
  match result.validationType with
  | .lightweight => result.sshConnectionSuccessful
  | .full => result.sshConnectionSuccessful && result.binaryValidationSuccessful

def log (result : ExecutorVerificationResult) (minerUid : MinerUid) (now : Time) : VerificationLog where
  executorId := result.executorId
  verificationType := "ssh_automation"
  timestamp := now
  score := result.verificationScore
  success := result.success
  details := ⟨minerUid, result.binaryValidationSuccessful, result.executorResult, result.gpuCount⟩

def gpuInfos (result : ExecutorVerificationResult) : List GpuInfo := (result.executorResult.map ExecutorResult.gpuInfos).getD []

end ExecutorVerificationResult

namespace ExecutorRow

def check (status : ExecutorStatus) (now : Time) (row : ExecutorRow) : ExecutorRow :=
  { row with status := status, lastHealthCheck := some (.rfc3339 now), updatedAt := .rfc3339 now }

def retire (now : Time) (row : ExecutorRow) : ExecutorRow :=
  { row with status := .offline, lastHealthCheck := some (.ofNow now), updatedAt := .ofNow now }

end ExecutorRow

namespace ValidatorDb

section Miners

variable (db : ValidatorDb)

def checkMinerByHotkey (hotkey : String) : Option MinerId :=
  (db.miners.entries.find? (fun q => q.2.hotkey = hotkey)).map Prod.fst

/-- The hotkey of a miner is unique: the statement fails if another miner has it. -/
def handleRecycledMinerUid (minerId : MinerId) (existing : Miner) (info : MinerInfo) : Option ValidatorDb :=
  if existing.hotkey ≠ info.hotkey then
    if ∃ q ∈ db.miners.entries, q.2.hotkey = info.hotkey ∧ q.1 ≠ minerId then none
    else some { db with miners := db.miners.modify minerId (fun _ => ⟨info.hotkey, info.endpoint⟩) }
  else some { db with miners := db.miners.modify minerId (fun miner => { miner with endpoint := info.endpoint }) }

/-- An executor of the old miner comes back under the new one, unless its address is in use. The row has to be new. -/
def recreateExecutor (newMinerId : MinerId) (now : Time) (executors : AssocMap String ExecutorRow) (row : ExecutorRow) :
    Option (AssocMap String ExecutorRow) :=
  if ∃ other ∈ executors.values, other.grpcAddress = row.grpcAddress ∧ other.minerId ≠ newMinerId then some executors
  else if relationshipId newMinerId row.executorId ∈ executors.keys then none
  else some (executors.insert (relationshipId newMinerId row.executorId)
    { row with minerId := newMinerId, lastHealthCheck := none, updatedAt := .ofNow now })

def insertMiner (miners : AssocMap MinerId Miner) (minerId : MinerId) (info : MinerInfo) : Option (AssocMap MinerId Miner) :=
  if minerId ∈ miners.keys ∨ ∃ miner ∈ miners.values, miner.hotkey = info.hotkey then none
  else some (miners.insert minerId ⟨info.hotkey, info.endpoint⟩)

def createNewMiner (minerId : MinerId) (info : MinerInfo) : Option ValidatorDb :=
  (insertMiner db.miners minerId info).map (fun miners => { db with miners := miners })

def replaceMiner (miners : AssocMap MinerId Miner) (oldMinerId newMinerId : MinerId) (info : MinerInfo) :
    Option (AssocMap MinerId Miner) := do
  let _ ← miners.get? oldMinerId
  let deleted := miners.filterWith (fun id _ => id ≠ oldMinerId)
  match miners.entries.find? (fun q => q.2.hotkey = info.hotkey ∧ q.1 ≠ oldMinerId) with
  | some q => if q.1 = newMinerId then some deleted else none
  | none => insertMiner deleted newMinerId info

/-- With the old record its executors are deleted; they are made anew one by one. -/
def migrateExecutors (executors : AssocMap String ExecutorRow) (oldMinerId newMinerId : MinerId) (now : Time) :
    Option (AssocMap String ExecutorRow) :=
  (executors.values.filter (fun row => row.minerId = oldMinerId)).foldlM (recreateExecutor newMinerId now)
    (executors.filterWith (fun _ row => row.minerId ≠ oldMinerId))

def migrateGpus (gpus : AssocMap GpuUuid GpuAssignment) (oldMinerId newMinerId : MinerId) : AssocMap GpuUuid GpuAssignment :=
  gpus.mapWith (fun _ gpu => if gpu.minerId = oldMinerId then { gpu with minerId := newMinerId } else gpu)

def migrateMinerUid (oldMinerId newMinerId : MinerId) (info : MinerInfo) (now : Time) : Option ValidatorDb := do
  let miners ← replaceMiner db.miners oldMinerId newMinerId info
  let executors ← migrateExecutors db.executors oldMinerId newMinerId now
  return { db with miners := miners, executors := executors, gpus := migrateGpus db.gpus oldMinerId newMinerId }

def ensureMinerExistsWithInfo (minerUid : MinerUid) (info : MinerInfo) (now : Time) : Option ValidatorDb :=
  let minerId := minerIdOf minerUid
  match db.miners.get? minerId with
  | some existing => db.handleRecycledMinerUid minerId existing info
  | none =>
    match db.checkMinerByHotkey info.hotkey with
    | some oldMinerId => db.migrateMinerUid oldMinerId minerId info now
    | none => db.createNewMiner minerId info

end Miners

section Relationship

variable (db : ValidatorDb)

def changeExecutorId (minerId : MinerId) (oldId executorId : ExecutorId) : ValidatorDb :=
  { db with
    gpus := db.gpus.mapWith (fun _ gpu => if gpu.Of minerId oldId then { gpu with executorId := executorId } else gpu)
    executors := db.executors.filterWith (fun _ row => ¬ row.Of minerId oldId) }

/-- `INSERT OR IGNORE` -/
def insertExecutor (minerId : MinerId) (executorId : ExecutorId) (grpcEndpoint : String) (now : Time) : ValidatorDb :=
  let row : ExecutorRow := ⟨minerId, executorId, grpcEndpoint, 0, .online, none, .ofNow now⟩
  { db with executors := db.executors.insert (relationshipId minerId executorId) row }

def retireDuplicate (minerId : MinerId) (now : Time) (db : ValidatorDb) (duplicate : String × ExecutorRow) : ValidatorDb :=
  { db with executors := db.executors.modify duplicate.1 (ExecutorRow.retire now) }.cleanupGpuAssignments
    duplicate.2.executorId minerId

def HasExecutor (minerId : MinerId) (executorId : ExecutorId) : Prop :=
  ∃ row ∈ db.executors.values, row.Of minerId executorId

instance (db : ValidatorDb) (minerId : MinerId) (executorId : ExecutorId) : Decidable (db.HasExecutor minerId executorId) :=
  inferInstanceAs (Decidable (∃ row ∈ db.executors.values, row.Of minerId executorId))

/-- The part of `ensure_miner_executor_relationship` that follows on the miner. -/
def linkExecutor (minerId : MinerId) (executorId : ExecutorId) (grpcEndpoint : String) (now : Time) :
    Except String Unit × ValidatorDb :=
  if db.HasExecutor minerId executorId then
    let duplicates := db.executors.entries.filter
      (fun q => q.2.grpcAddress = grpcEndpoint ∧ q.1 ≠ relationshipId minerId executorId)
    (.ok (), duplicates.foldl (retireDuplicate minerId now) db)
  else
    match db.executors.values.find? (fun row => row.grpcAddress = grpcEndpoint ∧ row.minerId ≠ minerId) with
    | some other =>
      let otherMiner := other.minerId
      (.error
        s!"Cannot create executor relationship: grpc_address {grpcEndpoint} is already registered to {otherMiner}", db)
    | none =>
      let db :=
        match db.executors.values.find? (fun row => row.grpcAddress = grpcEndpoint ∧ row.minerId = minerId) with
        | some old => db.changeExecutorId minerId old.executorId executorId
        | none => db
      (.ok (), db.insertExecutor minerId executorId grpcEndpoint now)

def ensureMinerExecutorRelationship (minerUid : MinerUid) (executorId : ExecutorId)
    (grpcEndpoint : String) (info : MinerInfo) (now : Time) : Except String Unit × ValidatorDb :=
  match db.ensureMinerExistsWithInfo minerUid info now with
  | none => (.error "Failed to ensure that the miner exists", db)
  | some db => db.linkExecutor (minerIdOf minerUid) executorId grpcEndpoint now

end Relationship

def updateGpuAssignmentTimestamps (db : ValidatorDb) (minerId : MinerId) (executorId : ExecutorId) (gpuInfos : List GpuInfo)
    (now : Time) : ValidatorDb :=
  { db with gpus := db.gpus.mapWith (fun uuid gpu =>
      if gpu.Of minerId executorId ∧ uuid ∈ reportedGpuUuids gpuInfos then
        { gpu with lastVerified := .rfc3339 now, updatedAt := .rfc3339 now }
      else gpu) }

def statusAfter (db : ValidatorDb) (minerUid : MinerUid) (result : ExecutorVerificationResult) : ExecutorStatus :=
  if result.success then
    match result.validationType with
    | .full => .online
    | .lightweight => (db.executorStatus? (minerIdOf minerUid) result.executorId).getD .verified
  else .offline

def recordCheck (db : ValidatorDb) (minerUid : MinerUid) (result : ExecutorVerificationResult) (now : Time) : ValidatorDb :=
  { db with logs := db.logs ++ [result.log minerUid now] }.updateExecutors (fun _ row => row.executorId = result.executorId)
    (ExecutorRow.check (db.statusAfter minerUid result) now)

end ValidatorDb

def storeFullValidation (minerUid : MinerUid) (result : ExecutorVerificationResult) (info : MinerInfo) (now : Time)
    (db : ValidatorDb) : Except String Unit × ValidatorDb :=
  match db.ensureMinerExecutorRelationship minerUid result.executorId result.grpcEndpoint info now with
  | (.error e, db) => (.error e, db)
  | (.ok _, db) => storeGpuUuidAssignments minerUid result.executorId result.gpuInfos now db

def storeExecutorVerificationResult (minerUid : MinerUid) (result : ExecutorVerificationResult) (info : MinerInfo)
    (now : Time) (db : ValidatorDb) : Except String Unit × ValidatorDb :=
  let db := db.recordCheck minerUid result now
  if result.success = false then (.ok (), db.cleanupGpuAssignments result.executorId (minerIdOf minerUid))
  else
    match result.validationType with
    | .full => storeFullValidation minerUid result info now db
    | .lightweight =>
      (.ok (), db.updateGpuAssignmentTimestamps (minerIdOf minerUid) result.executorId result.gpuInfos now)

end Basilica.Validator
