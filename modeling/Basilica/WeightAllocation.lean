import Basilica.AssocMaps
import Basilica.CheckedSteps

/-!
The weight allocation of the validator, in exact rational arithmetic: a conversion of a fraction to an unsigned
integer truncates. The other conversions to sixteen bits are a parameter.
-/

namespace Basilica.Weights

open AssocMaps CheckedSteps

structure GpuAllocation where
  weight : ℚ
  minGpuCount : ℕ
  minGpuVram : Option ℕ

structure EmissionConfig where
  burnPercentage : ℚ
  burnUid : UInt16
  gpuAllocations : AssocMap String GpuAllocation
  minMinersPerCategory : ℕ
  weightSetIntervalBlocks : ℕ
  weightVersionKey : ℕ

structure NormalizedWeight where
  uid : UInt16
  weight : ℕ
deriving DecidableEq

structure BurnAllocation where
  uid : UInt16
  weight : ℕ
  percentage : ℚ

structure CategoryAllocation where
  gpuModel : String
  minerCount : ℕ
  totalScore : ℚ
  weightPool : ℕ
  allocationPercentage : ℚ

structure WeightDistribution where
  weights : List NormalizedWeight
  burnAllocation : Option BurnAllocation
  categoryAllocations : List (String × CategoryAllocation)
  totalWeight : ℕ
  minersServed : ℕ

inductive Failure
  | underflow
  | narrowed (n : ℕ)
  | message (text : String)
deriving DecidableEq

abbrev Miners := List (UInt16 × ℚ)

def u16Max : ℕ := 65535

/-- The two conversions to sixteen bits: with a minimum taken before, and without. -/
structure Narrowing where
  clamp : ℕ → Except Failure ℕ
  wrap : ℕ → Except Failure ℕ

def Narrowing.code : Narrowing := ⟨fun n => .ok (min n u16Max), fun n => .ok (n % (u16Max + 1))⟩

def Narrowing.refuse : Narrowing :=
  ⟨fun n => if n ≤ u16Max then .ok n else .error (.narrowed n),
    fun n => if n ≤ u16Max then .ok n else .error (.narrowed n)⟩

def totalScore (miners : Miners) : ℚ := (miners.map Prod.snd).sum

variable (cast : Narrowing)

def calculateBurnAllocation (cfg : EmissionConfig) (totalWeight : ℕ) : Except Failure (Option BurnAllocation) :=
  if cfg.burnPercentage ≤ 0 then .ok none
  else do
    let burnWeight ← cast.clamp ⌊(totalWeight : ℚ) * cfg.burnPercentage / 100⌋₊
    if burnWeight = 0 then return none
    else return some ⟨cfg.burnUid, burnWeight, cfg.burnPercentage⟩

def filterMinersByScore (cfg : EmissionConfig) (minersByCategory : AssocMap String Miners) : AssocMap String Miners :=
  minersByCategory.filter (fun miners => cfg.minMinersPerCategory ≤ miners.length)

def calculateAllCategoryPools (cfg : EmissionConfig) (totalRemainingWeight : ℕ) : AssocMap String ℕ :=
  cfg.gpuAllocations.mapValues (fun a => ⌊(totalRemainingWeight : ℚ) * a.weight / 100⌋₊)

def distributeEqually (miners : Miners) (pool : ℕ) : Except Failure (List NormalizedWeight) :=
  if miners = [] then .ok []
  else do
    let weightPerMiner ← cast.wrap (pool / miners.length)
    return if weightPerMiner > 0 then miners.map (fun m => ⟨m.1, weightPerMiner⟩) else []

def minerWeight (pool : ℕ) (total score : ℚ) (last : Bool) (allocated : ℕ) : Except Failure ℕ :=
  if last then checkedSub .underflow pool allocated else .ok ⌊(pool : ℚ) * score / total⌋₊

def shareOut (cast : Narrowing) (pool : ℕ) (total : ℚ) : Miners → ℕ → Except Failure (List NormalizedWeight)
  | [], _ => .ok []
  | (uid, score) :: rest, allocated => do
    let weight ← minerWeight pool total score (rest = []) allocated
    let weight ← cast.clamp weight
    if weight > 0 then do
      let weights ← shareOut cast pool total rest (allocated + weight)
      return ⟨uid, weight⟩ :: weights
    else shareOut cast pool total rest allocated

def distributeCategoryWeight (miners : Miners) (pool : ℕ) : Except Failure (List NormalizedWeight) :=
  if miners = [] then .ok []
  else if totalScore miners ≤ 0 then distributeEqually cast miners pool
  else shareOut cast pool (totalScore miners) miners 0

def addWeight (cast : Narrowing) (w : NormalizedWeight) : List NormalizedWeight → Except Failure (List NormalizedWeight)
  | [] => .ok [w]
  | x :: xs =>
    if x.uid = w.uid then do
      let weight ← cast.clamp (x.weight + w.weight)
      return { x with weight := weight } :: xs
    else do
      let xs ← addWeight cast w xs
      return x :: xs

def addWeights (cast : Narrowing) :
    List NormalizedWeight → List NormalizedWeight → Except Failure (List NormalizedWeight)
  | [], all => .ok all
  | w :: ws, all => do
    let all ← addWeight cast w all
    addWeights cast ws all

structure Allocated where
  weights : List NormalizedWeight
  categories : List (String × CategoryAllocation)

def distributeCategories (cast : Narrowing) (pools : AssocMap String ℕ) (remainingWeight : ℕ) :
    List (String × Miners) → Allocated → Except Failure Allocated
  | [], all => .ok all
  | (category, miners) :: rest, all =>
    let pool := (pools.get? category).getD 0
    if pool = 0 ∨ miners = [] then distributeCategories cast pools remainingWeight rest all
    else do
      let categoryWeights ← distributeCategoryWeight cast miners pool
      let weights ← addWeights cast categoryWeights all.weights
      let allocation : CategoryAllocation := ⟨category, miners.length, totalScore miners, pool,
        (pool : ℚ) / remainingWeight * 100⟩
      distributeCategories cast pools remainingWeight rest
        ⟨weights, all.categories ++ [(category, allocation)]⟩

def firstDuplicate : List NormalizedWeight → List UInt16 → Option UInt16
  | [], _ => none
  | w :: ws, seen => if w.uid ∈ seen then some w.uid else firstDuplicate ws (w.uid :: seen)

def totalOf (weights : List NormalizedWeight) : ℕ := (weights.map NormalizedWeight.weight).sum

def validateAllocation (weights : List NormalizedWeight) : Except Failure Unit := do
  let total := totalOf weights
  revertIf (total > u16Max) (.message s!"Total allocated weight {total} exceeds maximum {u16Max}")
  match firstDuplicate weights [] with
  | some uid => .error (.message s!"Duplicate UID {uid} in weight allocation")
  | none => .ok ()

def emptyCategoryBurn (active : AssocMap String Miners) (pools : AssocMap String ℕ) : ℕ :=
  ((pools.entries.filter (fun p => p.1 ∉ active.keys)).map Prod.snd).sum

def addBurn (cfg : EmissionConfig) (totalBurnWeight : ℕ)
    (weights : List NormalizedWeight) : Except Failure (List NormalizedWeight × Option BurnAllocation) :=
  if totalBurnWeight > 0 then do
    let weight ← cast.clamp totalBurnWeight
    let weights ← addWeight cast ⟨cfg.burnUid, weight⟩ weights
    return (weights, some ⟨cfg.burnUid, weight, (totalBurnWeight : ℚ) / u16Max * 100⟩)
  else .ok (weights, none)

def calculateWeightDistributionWith (cfg : EmissionConfig)
    (minersByCategory : AssocMap String Miners) : Except Failure WeightDistribution := do
  let totalWeight := u16Max
  let burnAllocation ← calculateBurnAllocation cast cfg totalWeight
  let burnWeight := (burnAllocation.map BurnAllocation.weight).getD 0
  let remainingWeight ← checkedSub .underflow totalWeight burnWeight
  let filteredMiners := filterMinersByScore cfg minersByCategory
  let allCategoryPools := calculateAllCategoryPools cfg remainingWeight
  let all ← distributeCategories cast allCategoryPools remainingWeight filteredMiners.entries ⟨[], []⟩
  let totalBurnWeight := burnWeight + emptyCategoryBurn filteredMiners allCategoryPools
  let (weights, burnAllocation) ← addBurn cast cfg totalBurnWeight all.weights
  validateAllocation weights
  let minersServed ← checkedSub .underflow weights.length (if totalBurnWeight > 0 then 1 else 0)
  return ⟨weights, burnAllocation, all.categories, totalWeight, minersServed⟩

def calculateWeightDistribution (cfg : EmissionConfig) (minersByCategory : AssocMap String Miners) :
    Except Failure WeightDistribution :=
  calculateWeightDistributionWith Narrowing.code cfg minersByCategory

end Basilica.Weights
