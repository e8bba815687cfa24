import Basilica.WeightConservation
import Basilica.Tallies
import Basilica.CallRuns

/-!
The weight setter of the validator: the loop that submits weights every so many blocks, its retries, and the
key-value storage it keeps in memory and saves to a file. Everything outside of it answers a call or fails.
-/

namespace Basilica.WeightSetting

open AssocMaps AtomicCalls AtomicCalls.Calls CheckedSteps Weights

inductive Key
  | weightVersionKey
  | lastWeightSetBlock
  | lastWeightSetTimestamp
  | submittedWeightDistribution
  | lastWeightSubmission
  | categoryStats
  | other (name : String)
deriving DecidableEq

inductive Value
  | int (n : ℤ)
  | distribution (d : WeightDistribution)
  | text (s : String)

def Value.int? : Value → Option ℤ
  | int n => some n
  | distribution _ => none
  | text _ => none

abbrev Data := AssocMap Key Value

inductive Disk
  | absent
  | intact (data : Data)
  | torn

/-- How `save_to_file` ends: with an error before the file is truncated, between that and the last byte, or
only when the written file is synced. A process that stops in the middle leaves what the errors leave. -/
inductive Save
  | saved
  | refused
  | torn
  | unsynced

def Save.disk (disk : Disk) (data : Data) : Save → Disk
  | saved => .intact data
  | refused => disk
  | torn => .torn
  | unsynced => .intact data

/-- How `with_file` reads an existing file: a file that does not open is taken for an empty one, a file that
does not read is an error. -/
inductive Load
  | read
  | unopened
  | unreadable

/-- A file that is not the text of a map is taken for an empty one. -/
def Load.data : Disk → Load → Option Data
  | .absent, _ => some .empty
  | _, unreadable => none
  | .intact data, read => some data
  | .torn, read => some .empty
  | _, unopened => some .empty

def toU64 (n : ℤ) : ℕ := (n % 2 ^ 64).toNat

def toI64 (n : ℕ) : ℤ := if n < 2 ^ 63 then n else n - 2 ^ 64

theorem toU64_toI64 {n : ℕ} (h : n < 2 ^ 64) : toU64 (toI64 n) = n := by
  unfold toU64 toI64
  split_ifs <;> omega

structure GpuProfile where
  gpuModelsByCount : List String
  totalScore : ℚ

inductive Call
  | currentBlock
  | metagraph
  | minersByGpuCategory (since : Option ℤ) (cutoffHours : ℕ) (metagraph : List String)
  | getI64 (key : Key)
  | set (key : Key) (value : Value)
  | submitExtrinsic (weights : List NormalizedWeight) (versionKey : ℕ)
  | storeEmissionMetrics (d : WeightDistribution) (block : ℕ)
  | gpuProfile (uid : UInt16)
  | storeWeightAllocation (metricsId : ℤ) (uid : UInt16) (category : String) (weight : ℕ) (score categoryScore : ℚ)
      (block : ℕ)
  | categoryStatistics
  | now

abbrev Answer : Call → Type
  | .currentBlock => ℕ
  | .metagraph => List String
  | .minersByGpuCategory _ _ _ => AssocMap String Miners
  | .getI64 _ => Option ℤ
  | .set _ _ => Unit
  | .submitExtrinsic _ _ => Unit
  | .storeEmissionMetrics _ _ => ℤ
  | .gpuProfile _ => Option GpuProfile
  | .storeWeightAllocation _ _ _ _ _ _ _ => Unit
  | .categoryStatistics => String
  | .now => ℤ

inductive Fault
  | failed (text : String)
  | panicked (text : String)

abbrev SetterCalls := Calls Call Answer Fault

structure World where
  memory : Data
  disk : Disk
  extrinsics : List (List NormalizedWeight × ℕ)
  versions : List ℕ
  time : ℕ

/-- What the calls are answered with: call `n` of a run reads the answers numbered `n`. -/
structure Outside where
  answer : ℕ → (c : Call) → Except String (Answer c)
  save : ℕ → Key → Save
  now : ℕ → ℤ

def World.waited (w : World) : World := { w with time := w.time + 1 }

/-- The values stored under the version key and saved, the successful results of `get_version_key`. -/
def versionsOf (key : Key) (value : Value) (save : Save) (versions : List ℕ) : List ℕ :=
  match key, value, save with
  | .weightVersionKey, .int n, .saved => versions ++ [toU64 n]
  | _, _, _ => versions

def World.stored (key : Key) (value : Value) (save : Save) (w : World) : World :=
  { w.waited with
    memory := w.memory.set key value
    disk := save.disk w.disk (w.memory.set key value)
    versions := versionsOf key value save w.versions }

def Save.answer : Save → Except Fault Unit
  | saved => .ok ()
  | refused => .error (.failed "open")
  | torn => .error (.failed "write")
  | unsynced => .error (.failed "sync")

def serve (env : Outside) : Server Call Answer Fault World := fun c w =>
  match c with
  | .getI64 key => (.ok ((w.memory.get? key).bind Value.int?), w.waited)
  | .set key value => ((env.save w.time key).answer, w.stored key value (env.save w.time key))
  | .submitExtrinsic weights versionKey =>
    match env.answer w.time (.submitExtrinsic weights versionKey) with
    | .ok () => (.ok (), { w.waited with extrinsics := w.extrinsics ++ [(weights, versionKey)] })
    | .error e => (.error (.failed e), w.waited)
  | .now => (.ok (env.now w.time), w.waited)
  | c => ((env.answer w.time c).mapError .failed, w.waited)

section Retries

variable {α : Type}

def request (c : Call) : SetterCalls (Answer c) := ask c

def getI64 (key : Key) : SetterCalls (Option ℤ) := request (.getI64 key)

def store (key : Key) (value : Value) : SetterCalls Unit := request (.set key value)

/-- An error is caught, a panic is not. -/
def caught (p : SetterCalls α) : SetterCalls (Except String α) := do
  match ← p.catching with
  | .ok a => return .ok a
  | .error (.failed text) => return .error text
  | .error (.panicked text) => fail (.panicked text)

def attempts (text : String) (p : SetterCalls α) : ℕ → SetterCalls α
  | 0 => fail (.failed text)
  | n + 1 => do
    match ← caught p with
    | .ok a => return a
    | .error _ => attempts text p n

def maxRetries : ℕ := 3

def getCurrentBlock : SetterCalls ℕ :=
  attempts "Failed to get current block after 3 attempts" (request .currentBlock) maxRetries

def getMetagraph : SetterCalls (List String) :=
  attempts "Failed to fetch metagraph after 3 attempts" (request .metagraph) maxRetries

def currentBlockOrZero : SetterCalls ℕ := do
  match ← caught getCurrentBlock with
  | .ok block => return block
  | .error _ => return 0

end Retries

structure WeightSetter where
  blocksPerWeightSet : ℕ
  emissionConfig : EmissionConfig
  validTimestamp : ℤ → Bool

namespace WeightSetter

variable (s : WeightSetter)

def getLastWeightSetTimestamp : SetterCalls (Option ℤ) := do
  match ← caught (getI64 .lastWeightSetTimestamp) with
  | .ok (some timestamp) =>
    if s.validTimestamp timestamp then return some timestamp
    else fail (.failed s!"Invalid timestamp: {timestamp}")
  | .ok none => return none
  | .error _ => return none

def getLastWeightSetBlock : SetterCalls ℕ := do
  match ← caught (getI64 .lastWeightSetBlock) with
  | .ok (some storedBlock) => return toU64 storedBlock
  | _ => do
    let currentBlock ← getCurrentBlock
    let safeLastBlock := saturatingSub currentBlock (s.blocksPerWeightSet / 2)
    store .lastWeightSetBlock (.int (toI64 safeLastBlock))
    return safeLastBlock

def storeLastWeightSetBlock (block : ℕ) : SetterCalls Unit := do
  let timestamp ← request .now
  store .lastWeightSetBlock (.int (toI64 block))
  let _ ← caught (store .lastWeightSetTimestamp (.int timestamp))
  return ()

def versionOf (stored : Except String (Option ℤ)) : ℕ :=
  match stored with
  | .ok (some version) => toU64 version
  | .ok none => toU64 (toI64 s.emissionConfig.weightVersionKey)
  | .error _ => toU64 (toI64 s.emissionConfig.weightVersionKey)

def getVersionKey : SetterCalls ℕ := do
  let stored ← caught (getI64 .weightVersionKey)
  let newVersion := (s.versionOf stored + 1) % 2 ^ 64
  store .weightVersionKey (.int (toI64 newVersion))
  return newVersion

variable (d : WeightDistribution)

def buildNormalizedWeights : SetterCalls (List NormalizedWeight) :=
  if d.weights = [] then
    fail (.panicked "Weight allocation engine produced no weights - this should never happen")
  else pure d.weights

variable (weights : List NormalizedWeight)

def validateWeightsBeforeSubmission : SetterCalls Unit :=
  if weights = [] then fail (.failed "Cannot submit empty weight vector")
  else match firstDuplicate weights [] with
  | some uid => fail (.failed s!"Duplicate UID {uid} in weights")
  | none =>
    if totalOf weights > u16Max then fail (.failed s!"Total weight {totalOf weights} exceeds maximum")
    else pure ()

def submitWeightsToChain (versionKey : ℕ) : SetterCalls Unit := do
  validateWeightsBeforeSubmission weights
  let _ ← currentBlockOrZero
  request (.submitExtrinsic weights versionKey)

def submitWeightsToChainWithRetry (versionKey : ℕ) : SetterCalls Unit :=
  attempts "Failed to submit weights after 3 attempts" (submitWeightsToChain weights versionKey) maxRetries

def storeMinerAllocation (metricsId : ℤ) (block : ℕ) (w : NormalizedWeight) :
    SetterCalls Unit := do
  match ← caught (request (.gpuProfile w.uid)) with
  | .ok (some profile) =>
    let category := profile.gpuModelsByCount.head?.getD "UNKNOWN"
    match d.categoryAllocations.lookup category with
    | some allocation =>
      request (.storeWeightAllocation metricsId w.uid category w.weight profile.totalScore allocation.totalScore block)
    | none => return ()
  | _ => return ()

def storeMinerAllocations (d : WeightDistribution) (metricsId : ℤ) (block : ℕ) :
    List NormalizedWeight → SetterCalls Unit
  | [] => return ()
  | w :: rest => do
    storeMinerAllocation d metricsId block w
    storeMinerAllocations d metricsId block rest

def storeBurnAllocation (metricsId : ℤ) (block : ℕ) : SetterCalls Unit :=
  match d.burnAllocation with
  | some burn => request (.storeWeightAllocation metricsId burn.uid "BURN" burn.weight 0 0 block)
  | none => pure ()

def storeWeightAllocations (metricsId : ℤ) (block : ℕ) : SetterCalls Unit := do
  storeBurnAllocation d metricsId block
  storeMinerAllocations d metricsId block d.weights

def storeWeightSubmissionMetadata : SetterCalls Unit := do
  store .submittedWeightDistribution (.distribution d)
  let timestamp ← request .now
  store .lastWeightSubmission (.int timestamp)
  let stats ← request .categoryStatistics
  store .categoryStats (.text stats)

def gpuCategoryCutoffHours : ℕ := 3

def weightDistribution (miners : AssocMap String Miners) : SetterCalls WeightDistribution :=
  match calculateWeightDistribution s.emissionConfig miners with
  | .ok d => pure d
  | .error (.message text) => fail (.failed text)
  | .error _ => fail (.panicked "arithmetic overflow")

def prepareWeights : SetterCalls (WeightDistribution × List NormalizedWeight) := do
  let metagraph ← getMetagraph
  let lastWeightTimestamp ← s.getLastWeightSetTimestamp
  let minersByCategory ← request (.minersByGpuCategory lastWeightTimestamp gpuCategoryCutoffHours metagraph)
  let weightDistribution ← s.weightDistribution minersByCategory
  let normalizedWeights ← buildNormalizedWeights weightDistribution
  return (weightDistribution, normalizedWeights)

def recordSubmission : SetterCalls Unit := do
  let currentBlock ← currentBlockOrZero
  let emissionMetricsId ← request (.storeEmissionMetrics d currentBlock)
  storeWeightAllocations d emissionMetricsId currentBlock
  storeWeightSubmissionMetadata d

def submit (versionKey : ℕ) : SetterCalls Unit :=
  match firstDuplicate weights [] with
  | some uid => fail (.failed s!"Duplicate UID {uid} detected in final weights")
  | none => submitWeightsToChainWithRetry weights versionKey

def attemptWeightSetting : SetterCalls Unit := do
  let (weightDistribution, normalizedWeights) ← s.prepareWeights
  let versionKey ← s.getVersionKey
  submit normalizedWeights versionKey
  recordSubmission weightDistribution

def setWeightsForMiners : SetterCalls Unit :=
  attempts "Failed to set weights after 3 attempts" s.attemptWeightSetting maxRetries

def setAtBlock (currentBlock lastBlock : ℕ) : SetterCalls ℕ :=
  if (lastBlock + s.blocksPerWeightSet) % 2 ^ 64 ≤ currentBlock then do
    match ← caught s.setWeightsForMiners with
    | .ok () =>
      let _ ← caught (storeLastWeightSetBlock currentBlock)
      return currentBlock
    | .error _ => return lastBlock
  else return lastBlock

end WeightSetter

end Basilica.WeightSetting
