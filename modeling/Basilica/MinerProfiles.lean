import Basilica.ColumnText
import Basilica.VerificationStore
import Basilica.Tallies
import Basilica.WeightAllocation

/-!
What the validator makes of its tables when it sets weights: the profile of each miner with active GPUs, and the
miners of each GPU category with their scores.
-/

namespace Basilica.Validator

open AssocMaps

/-- `LIKE 'miner_%'`, where the underscore stands for any character. -/
def LikeMiner (minerId : MinerId) : Prop :=
  (minerId.toList.take 5).map Char.toLower = "miner".toList ∧ 6 ≤ minerId.toList.length

instance : DecidablePred LikeMiner := fun _ =>
  inferInstanceAs (Decidable (_ ∧ _))

def leadingNumber (text : List Char) : ℤ := Nat.ofDigitChars 10 (text.takeWhile Char.isDigit) 0

/-- `CAST(… AS INTEGER)`: the longest part at the front that is a number. -/
def castInteger (text : List Char) : ℤ :=
  match text.dropWhile (fun c => c ∈ [' ', '\t', '\n', '\x0b', '\x0c', '\r']) with
  | '-' :: rest => max (-leadingNumber rest) (-9223372036854775808)
  | '+' :: rest => min (leadingNumber rest) 9223372036854775807
  | rest => min (leadingNumber rest) 9223372036854775807

def minerUidColumn (minerId : MinerId) : ℤ := castInteger (minerId.toList.drop 6)

namespace ValidatorDb

def activeGpuRows (db : ValidatorDb) (minerId : MinerId) : List (GpuUuid × GpuAssignment) :=
  (db.gpus.entries.flatMap (fun q =>
    (db.executors.values.filter (fun row => row.Of q.2.minerId q.2.executorId ∧ row.status.Active)).map (fun _ => q))).filter
    (fun q => q.2.minerId = minerId)

/-- `ORDER` of the groups: the executor id, then the name, null first. -/
def GroupLe (a b : ExecutorId × Option String) : Prop :=
  a.1 < b.1 ∨ a.1 = b.1 ∧ ∀ name ∈ a.2, ∃ name' ∈ b.2, name ≤ name'

instance : DecidableRel GroupLe := fun _ _ =>
  inferInstanceAs (Decidable (_ ∨ _))

/-- `MAX` ignores null. -/
def maxMemory (gpus : List GpuAssignment) : Option ℚ := (gpus.filterMap GpuAssignment.gpuMemoryGb).max?

def getMinerGpuUuidAssignments (db : ValidatorDb) (minerId : MinerId) : Option (List (ExecutorId × ℕ × String × ℚ)) :=
  let rows := db.activeGpuRows minerId
  let groups := ((rows.map (fun q => (q.2.executorId, q.2.gpuName))).dedup).insertionSort GroupLe
  groups.mapM (fun group => do
    let members := rows.filter (fun q => (q.2.executorId, q.2.gpuName) = group)
    let gpuCount := (members.map Prod.fst).dedup.length
    let gpuName ← group.2
    let gpuMemoryGb ← maxMemory (members.map Prod.snd)
    return (group.1, gpuCount, gpuName, gpuMemoryGb))

/-- A second model of an executor: the counts are added, and the name is the one with more GPUs. -/
def mergeModel (count : ℕ) (name : String) (memoryGb : ℚ) (existing : ℕ × String × ℚ) : ℕ × String × ℚ :=
  let totalCount := existing.1 + count
  if existing.1 < count then (totalCount, name, memoryGb) else (totalCount, existing.2.1, existing.2.2)

def mergeModels (assignmentsRows : List (ExecutorId × ℕ × String × ℚ)) : AssocMap ExecutorId (ℕ × String × ℚ) :=
  assignmentsRows.foldl (fun assignments row =>
    assignments.upsert row.1 row.2 (mergeModel row.2.1 row.2.2.1 row.2.2.2)) AssocMap.empty

def getMinerGpuAssignments (db : ValidatorDb) (minerUid : MinerUid) : Option (AssocMap ExecutorId (ℕ × String × ℚ)) :=
  (db.getMinerGpuUuidAssignments (minerIdOf minerUid)).map mergeModels

end ValidatorDb

structure MinerGpuProfile where
  minerUid : MinerUid
  gpuCounts : AssocMap String ℕ
  totalScore : ℚ
  verificationCount : UInt32
  lastUpdated : Time
  lastSuccessfulValidation : Option Time

def day (time : Time) : ℤ := time / (86400 * 1000000000)

def threeHours : Time := 3 * 3600 * 1000000000

/-- `vl.timestamp > datetime('now', '-3 hours')` compares two texts that differ after the date. -/
def InWindow (now : Time) (log : VerificationLog) : Prop := day (now - threeHours) ≤ day log.timestamp

instance (now : Time) : DecidablePred (InWindow now) := fun log =>
  inferInstanceAs (Decidable (day (now - threeHours) ≤ day log.timestamp))

namespace ValidatorDb

variable (db : ValidatorDb)

def successfulLogs (minerId : MinerId) : List VerificationLog :=
  (db.logs.flatMap (fun log =>
    (db.executors.values.filter (fun row => row.executorId = log.executorId ∧ row.minerId = minerId)).map (fun _ => log))).filter
    VerificationLog.success

def scoredLogs (minerId : MinerId) (now : Time) : List VerificationLog :=
  (db.successfulLogs minerId).filter (InWindow now)

/-- `COALESCE(AVG(score), 0.0)` -/
def totalScore (minerId : MinerId) (now : Time) : ℚ :=
  let logs := db.scoredLogs minerId now
  if logs = [] then 0 else (logs.map VerificationLog.score).sum / logs.length

def verificationCount (minerId : MinerId) (now : Time) : UInt32 := .ofNat (db.scoredLogs minerId now).length

def lastSuccessfulValidation (minerId : MinerId) : Option Time :=
  ((db.successfulLogs minerId).map VerificationLog.timestamp).max?

/-- The profile of one miner, unless it has no GPUs; `stored` is the table of the profiles stored before. -/
def gpuProfile (stored : ℤ → Option Time) (now : Time) (minerId : MinerId) : Option (Option MinerGpuProfile) := do
  let gpuCountsRaw ← db.getMinerGpuUuidAssignments minerId
  if gpuCountsRaw = [] then return none
  else
    return some {
      minerUid := .ofInt (minerUidColumn minerId)
      gpuCounts := gpuCountsRaw.foldl (fun counts row => counts.upsert row.2.2.1 row.2.1 (· + row.2.1)) AssocMap.empty
      totalScore := db.totalScore minerId now
      verificationCount := db.verificationCount minerId now
      lastUpdated := (stored (minerUidColumn minerId)).getD now
      lastSuccessfulValidation := db.lastSuccessfulValidation minerId }

def profiledMinerIds : List MinerId :=
  ((db.gpus.values.filter (fun gpu =>
    LikeMiner gpu.minerId ∧ ∃ row ∈ db.executors.values, row.Of gpu.minerId gpu.executorId ∧ row.status.Active)).map
    GpuAssignment.minerId).dedup.insertionSort (· ≤ ·)

def getAllGpuProfiles (stored : ℤ → Option Time) (now : Time) : Option (List MinerGpuProfile) :=
  (db.profiledMinerIds.mapM (db.gpuProfile stored now)).map List.reduceOption

end ValidatorDb

inductive GpuCategory
  | a100
  | h100
  | b200
  | other (name : String)
deriving DecidableEq

namespace GpuCategory

def toText : GpuCategory → String
  | a100 => "A100"
  | h100 => "H100"
  | b200 => "B200"
  | other _ => "OTHER"

/-- `replace(pattern, "")`; `skip` characters belong to an occurrence that was found. -/
def remove (pattern : List Char) : ℕ → List Char → List Char
  | _, [] => []
  | skip + 1, _ :: rest => remove pattern skip rest
  | 0, c :: rest => if pattern.isPrefixOf (c :: rest) then remove pattern (pattern.length - 1) rest else c :: remove pattern 0 rest

def fromStr (toUppercase : List Char → List Char) (name : String) : GpuCategory :=
  let model := toUppercase name.toList
  let cleaned := Words.trim (remove "TESLA".toList 0 (remove "GEFORCE".toList 0 (remove "NVIDIA".toList 0 model)))
  if "A100".toList <:+: cleaned then a100
  else if "H100".toList <:+: cleaned then h100
  else if "B200".toList <:+: cleaned then b200
  else other name

end GpuCategory

structure Axon where
  ip : ℕ
  port : ℕ

structure Metagraph where
  hotkeys : List String
  axons : List Axon

/-- `toUppercase` is the one of Unicode. -/
structure GpuScoringEngine where
  emissionConfig : Weights.EmissionConfig
  toUppercase : List Char → List Char

structure Credit where
  minerUid : MinerUid
  category : String
  gpuCount : ℕ
  totalScore : ℚ
deriving DecidableEq

def Credit.categoryScore (credit : Credit) : ℚ := credit.totalScore * credit.gpuCount

namespace GpuScoringEngine

variable (engine : GpuScoringEngine)

/-- `min_vram` of 0 or 1 asks for nothing. -/
def MeetsVram (minGpuVram : Option ℕ) (gpuMemoryGb : ℚ) : Prop :=
  ∀ minVram ∈ minGpuVram, minVram = 1 ∨ minVram = 0 ∨ (minVram : ℚ) ≤ gpuMemoryGb

instance (minGpuVram : Option ℕ) (gpuMemoryGb : ℚ) : Decidable (MeetsVram minGpuVram gpuMemoryGb) :=
  inferInstanceAs (Decidable (∀ minVram ∈ minGpuVram, minVram = 1 ∨ minVram = 0 ∨ (minVram : ℚ) ≤ gpuMemoryGb))

def rewardable (executor : ℕ × String × ℚ) : Option (GpuCategory × ℕ) :=
  if 0 < executor.1 then
    let category := GpuCategory.fromStr engine.toUppercase executor.2.1
    match engine.emissionConfig.gpuAllocations.get? category.toText with
    | none => none
    | some allocation =>
      if allocation.minGpuCount ≤ executor.1 ∧ MeetsVram allocation.minGpuVram executor.2.2 then some (category, executor.1)
      else none
  else none

def rewardableGpuCounts (assignments : AssocMap ExecutorId (ℕ × String × ℚ)) : AssocMap String ℕ :=
  (assignments.values.filterMap engine.rewardable).foldl (fun counts gpu =>
    counts.upsert gpu.1.toText gpu.2 (· + gpu.2)) AssocMap.empty

/-- The miner is passed over: not up to date, not validated since the epoch, or without an active axon. -/
def Skips (epochTimestamp : Option Time) (cutoffTime : Time) (metagraph : Metagraph) (profile : MinerGpuProfile) : Prop :=
  profile.lastUpdated < cutoffTime ∨
    (∃ epoch ∈ epochTimestamp, ∀ lastValidation ∈ profile.lastSuccessfulValidation, lastValidation < epoch) ∨
    metagraph.hotkeys.length ≤ profile.minerUid.toNat ∨
    ∀ axon ∈ metagraph.axons[profile.minerUid.toNat]?, axon.port = 0 ∨ axon.ip = 0

instance (epochTimestamp : Option Time) (cutoffTime : Time) (metagraph : Metagraph) :
    DecidablePred (Skips epochTimestamp cutoffTime metagraph) := fun _ =>
  inferInstanceAs (Decidable (_ ∨ _))

def creditProfile (db : ValidatorDb) (epochTimestamp : Option Time) (cutoffTime : Time) (metagraph : Metagraph)
    (profile : MinerGpuProfile) : Option (List Credit) :=
  if Skips epochTimestamp cutoffTime metagraph profile then some []
  else do
    let assignments ← db.getMinerGpuAssignments profile.minerUid
    return (engine.rewardableGpuCounts assignments).entries.map (fun q => ⟨profile.minerUid, q.1, q.2, profile.totalScore⟩)

def credits (db : ValidatorDb) (stored : ℤ → Option Time) (now : Time) (epochTimestamp : Option Time) (cutoffHours : UInt32)
    (metagraph : Metagraph) : Option (List Credit) := do
  let allProfiles ← db.getAllGpuProfiles stored now
  let cutoffTime := now - (cutoffHours.toNat : ℤ) * (3600 * 1000000000)
  let credited ← allProfiles.mapM (engine.creditProfile db epochTimestamp cutoffTime metagraph)
  return credited.flatten

def getMinersByGpuCategorySinceEpoch (db : ValidatorDb) (stored : ℤ → Option Time) (now : Time) (epochTimestamp : Option Time)
    (cutoffHours : UInt32) (metagraph : Metagraph) : Option (AssocMap String (List (MinerUid × ℚ))) := do
  let credits ← engine.credits db stored now epochTimestamp cutoffHours metagraph
  let minersByCategory := credits.foldl (fun miners credit =>
    miners.upsert credit.category [(credit.minerUid, credit.categoryScore)]
      (· ++ [(credit.minerUid, credit.categoryScore)])) AssocMap.empty
  return minersByCategory.mapValues (fun miners => miners.insertionSort (fun a b => b.2 ≤ a.2))

end GpuScoringEngine

end Basilica.Validator
