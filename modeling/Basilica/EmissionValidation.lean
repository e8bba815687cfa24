import Basilica.WeightConservation

namespace Basilica.Weights

open AssocMaps CheckedSteps List AssocMap Narrowing

inductive EmissionError
  | burnPercentage (got : ℚ)
  | weightSetIntervalBlocks (got : ℕ)
  | noGpuAllocations
  | totalAllocation (got : ℚ)
  | allocationWeight (gpuModel : String) (got : ℚ)
  | minGpuCount (gpuModel : String) (got : ℕ)
  | minGpuVram (gpuModel : String) (got : ℕ)

/-- The message of an error: `shown` prints a fraction in full and `rounded` prints it with two decimals. -/
def EmissionError.text (shown rounded : ℚ → String) : EmissionError → String
  | .burnPercentage got => s!"Burn percentage must be between 0.0 and 100.0, got: {shown got}"
  | .weightSetIntervalBlocks got => s!"Weight set interval blocks must be greater than 0, got: {got}"
  | .noGpuAllocations => "GPU allocations cannot be empty"
  | .totalAllocation got => s!"GPU allocations must sum to 100.0, got: {rounded got}"
  | .allocationWeight gpuModel got =>
    s!"GPU allocation weight for {gpuModel} must be non-negative, got: {shown got}"
  | .minGpuCount gpuModel got => s!"GPU min_gpu_count for {gpuModel} must be at least 1, got: {got}"
  | .minGpuVram gpuModel got =>
    s!"GPU min_gpu_vram for {gpuModel} must be greater than 0 if specified, got: {got}"

def validateGpuAllocation (gpuModel : String) (allocation : GpuAllocation) : Except EmissionError Unit := do
  revertIf (allocation.weight < 0) (.allocationWeight gpuModel allocation.weight)
  revertIf (allocation.minGpuCount = 0) (.minGpuCount gpuModel allocation.minGpuCount)
  revertIf (allocation.minGpuVram = some 0) (.minGpuVram gpuModel 0)

def validateGpuAllocations : List (String × GpuAllocation) → Except EmissionError Unit
  | [] => .ok ()
  | (gpuModel, allocation) :: rest => do
    validateGpuAllocation gpuModel allocation
    validateGpuAllocations rest

def totalAllocation (cfg : EmissionConfig) : ℚ := (cfg.gpuAllocations.values.map GpuAllocation.weight).sum

def EmissionConfig.validate (cfg : EmissionConfig) : Except EmissionError Unit := do
  revertIf (cfg.burnPercentage < 0 ∨ 100 < cfg.burnPercentage) (.burnPercentage cfg.burnPercentage)
  revertIf (cfg.weightSetIntervalBlocks = 0) (.weightSetIntervalBlocks cfg.weightSetIntervalBlocks)
  revertIf (cfg.gpuAllocations.entries.isEmpty = true) .noGpuAllocations
  revertIf (1 / 100 < |totalAllocation cfg - 100|) (.totalAllocation (totalAllocation cfg))
  validateGpuAllocations cfg.gpuAllocations.entries

def WellFormed (allocation : GpuAllocation) : Prop :=
  0 ≤ allocation.weight ∧ allocation.minGpuCount ≠ 0 ∧ allocation.minGpuVram ≠ some 0

theorem validateGpuAllocation_ok_iff {gpuModel : String} {allocation : GpuAllocation} :
    validateGpuAllocation gpuModel allocation = .ok () ↔ WellFormed allocation := by
  simp only [validateGpuAllocation, bind_ok_iff, revertIf_eq_ok, WellFormed, not_lt]
  constructor
  · rintro ⟨_, hweight, _, hcount, hvram⟩
    exact ⟨hweight, hcount, hvram⟩
  · rintro ⟨hweight, hcount, hvram⟩
    exact ⟨(), hweight, (), hcount, hvram⟩

theorem validateGpuAllocations_ok_iff {entries : List (String × GpuAllocation)} :
    validateGpuAllocations entries = .ok () ↔ ∀ p ∈ entries, WellFormed p.2 := by
  induction entries with
  | nil => simp [validateGpuAllocations]
  | cons p rest ih =>
    obtain ⟨gpuModel, allocation⟩ := p
    rw [validateGpuAllocations, bind_ok_iff, forall_mem_cons, ← ih]
    constructor
    · rintro ⟨_, hfirst, hrest⟩
      exact ⟨validateGpuAllocation_ok_iff.mp hfirst, hrest⟩
    · rintro ⟨hfirst, hrest⟩
      exact ⟨(), validateGpuAllocation_ok_iff.mpr hfirst, hrest⟩

variable {cfg : EmissionConfig}

theorem validate_ok_iff : cfg.validate = .ok () ↔ (0 ≤ cfg.burnPercentage ∧ cfg.burnPercentage ≤ 100) ∧
      cfg.weightSetIntervalBlocks ≠ 0 ∧ cfg.gpuAllocations.entries ≠ [] ∧
      |totalAllocation cfg - 100| ≤ 1 / 100 ∧ ∀ a ∈ cfg.gpuAllocations.values, WellFormed a := by
  have hvalues : (∀ a ∈ cfg.gpuAllocations.values, WellFormed a) ↔
      ∀ p ∈ cfg.gpuAllocations.entries, WellFormed p.2 := by
    simp only [AssocMap.values, forall_mem_map]
  simp only [EmissionConfig.validate, bind_ok_iff, revertIf_eq_ok, not_or, not_lt, List.isEmpty_iff, hvalues,
    validateGpuAllocations_ok_iff]
  constructor
  · rintro ⟨_, hburn, _, hinterval, _, hne, _, hsum, hall⟩
    exact ⟨hburn, hinterval, hne, hsum, hall⟩
  · rintro ⟨hburn, hinterval, hne, hsum, hall⟩
    exact ⟨(), hburn, (), hinterval, (), hne, (), hsum, hall⟩

section FreshUids

variable {cast : Narrowing} {all : List NormalizedWeight}

theorem addWeight_fresh {w : NormalizedWeight} (h : w.uid ∉ uids all) : addWeight cast w all = .ok (all ++ [w]) := by
  induction all with
  | nil => rfl
  | cons x xs ih =>
    rw [uids_cons, mem_cons, not_or] at h
    rw [addWeight, if_neg (Ne.symm h.1), ih h.2]
    rfl

theorem addWeights_fresh {ws : List NormalizedWeight} (hnodup : (uids ws).Nodup)
    (hfresh : ∀ u ∈ uids ws, u ∉ uids all) : addWeights cast ws all = .ok (all ++ ws) := by
  induction ws generalizing all with
  | nil => simp [addWeights]
  | cons w ws ih =>
    obtain ⟨hw, hws⟩ := nodup_cons.mp hnodup
    rw [addWeights, addWeight_fresh (hfresh _ mem_cons_self)]
    refine (ih hws ?_).trans (by simp)
    intro u hu hmem
    rw [uids, map_append, mem_append] at hmem
    rcases hmem with hmem | hmem
    · exact hfresh u (mem_cons_of_mem _ hu) hmem
    · rw [map_singleton, mem_singleton] at hmem
      exact hw (hmem ▸ hu)

end FreshUids

def twoScorers (cfg : EmissionConfig) : Miners :=
  List.replicate cfg.minMinersPerCategory (cfg.burnUid + 1, 0) ++ [(cfg.burnUid + 1, 1), (cfg.burnUid + 2, 1)]

def twoShares (cfg : EmissionConfig) (pool : ℕ) : List NormalizedWeight :=
  if pool / 2 > 0 then [⟨cfg.burnUid + 1, pool / 2⟩, ⟨cfg.burnUid + 2, pool - pool / 2⟩]
  else [⟨cfg.burnUid + 2, pool - pool / 2⟩]

theorem totalScore_twoScorers (cfg : EmissionConfig) : totalScore (twoScorers cfg) = 2 := by
  simp only [totalScore, twoScorers, map_append, map_replicate, sum_append, sum_replicate,
    smul_zero, map_cons, map_nil, sum_cons, sum_nil]
  norm_num

variable {pool : ℕ}

theorem shareOut_twoScorers (hpos : 0 < pool) (hpool : pool ≤ 2 * u16Max) :
    Returns (fun cast => shareOut cast pool 2 (twoScorers cfg) 0) (twoShares cfg pool) := by
  have hhalf : ⌊(pool : ℚ) * 1 / 2⌋₊ = pool / 2 := by
    rw [mul_one]
    exact_mod_cast Nat.floor_div_natCast (pool : ℚ) 2
  have hlast : Returns (fun cast => shareOut cast pool 2 [(cfg.burnUid + 2, 1)] (0 + pool / 2))
      [⟨cfg.burnUid + 2, pool - pool / 2⟩] := by
    have hw : minerWeight pool 2 1 (([] : Miners) = []) (0 + pool / 2) = .ok (pool - pool / 2) := by
      simp only [minerWeight, decide_true, ↓reduceIte, Nat.zero_add]
      exact checkedSub_eq_ok.mpr ⟨Nat.div_le_self pool 2, rfl⟩
    have h : Returns (fun cast => shareOut cast pool 2 [(cfg.burnUid + 2, 1)] (0 + pool / 2)) _ :=
      shareOut_cons hw (by omega) (returns_ok [])
    rwa [if_pos (by omega)] at h
  have hfirst : Returns (fun cast => shareOut cast pool 2 [(cfg.burnUid + 1, 1), (cfg.burnUid + 2, 1)] 0)
      (twoShares cfg pool) := by
    have hw : minerWeight pool 2 1 ([((cfg.burnUid + 2 : UInt16), (1 : ℚ))] = []) 0 = .ok (pool / 2) := by
      simp only [minerWeight, cons_ne_nil, decide_false, Bool.false_eq_true, ↓reduceIte, hhalf]
    exact shareOut_cons hw (by omega) hlast
  unfold twoScorers
  induction cfg.minMinersPerCategory with
  | zero => exact hfirst
  | succ n ih =>
    -- A miner without a score gets nothing and is not listed.
    have hw : minerWeight pool 2 0 ((replicate n ((cfg.burnUid + 1 : UInt16), (0 : ℚ)) ++
        [(cfg.burnUid + 1, 1), (cfg.burnUid + 2, 1)]) = []) 0 = .ok 0 := by
      simp [minerWeight]
    have h : Returns (fun cast => shareOut cast pool 2 ((cfg.burnUid + 1, 0) :: (replicate n
        (cfg.burnUid + 1, 0) ++ [(cfg.burnUid + 1, 1), (cfg.burnUid + 2, 1)])) 0) _ :=
      shareOut_cons hw (Nat.zero_le _) ih
    rwa [if_neg (lt_irrefl 0)] at h

theorem totalOf_twoShares (cfg : EmissionConfig) (pool : ℕ) : totalOf (twoShares cfg pool) = pool := by
  have hempty : totalOf [] = 0 := rfl
  unfold twoShares
  split_ifs
  · rw [totalOf_cons, totalOf_cons, hempty]
    dsimp only
    omega
  · rw [totalOf_cons, hempty]
    dsimp only
    omega

theorem uids_twoShares (cfg : EmissionConfig) (pool : ℕ) :
    (uids (twoShares cfg pool)).Nodup ∧ cfg.burnUid ∉ uids (twoShares cfg pool) := by
  have h1 : cfg.burnUid ≠ cfg.burnUid + 1 := by
    intro h
    simp at h
  have h2 : cfg.burnUid ≠ cfg.burnUid + 2 := by
    intro h
    simp at h
  have h12 : cfg.burnUid + 1 ≠ cfg.burnUid + 2 := by
    intro h
    simp at h
  unfold twoShares
  split_ifs <;> simp [uids, h1, h2, h12]

def onlyTwoScorers (cfg : EmissionConfig) (category : String) : AssocMap String Miners :=
  ⟨[(category, twoScorers cfg)], nodup_singleton _⟩

theorem filter_onlyTwoScorers (cfg : EmissionConfig) (category : String) :
    filterMinersByScore cfg (onlyTwoScorers cfg category) = onlyTwoScorers cfg category := by
  have hlen : cfg.minMinersPerCategory ≤ (twoScorers cfg).length := by
    simp only [twoScorers, length_append, length_replicate]
    omega
  simp [filterMinersByScore, AssocMap.filter, onlyTwoScorers, hlen]

variable {category : String} {pools : AssocMap String ℕ}

theorem distributeCategories_twoScorers
    (hpos : 0 < poolOf pools category) (hpool : poolOf pools category ≤ 2 * u16Max) (remainingWeight : ℕ)
    {all : Allocated}
    (h : distributeCategories code pools remainingWeight [(category, twoScorers cfg)] ⟨[], []⟩ =
      .ok all) : all.weights = twoShares cfg (poolOf pools category) := by
  have hne : twoScorers cfg ≠ [] := by simp [twoScorers]
  have hskip : ¬ (poolOf pools category = 0 ∨ twoScorers cfg = []) := by
    rintro (h0 | h0)
    · omega
    · exact hne h0
  have hshares : distributeCategoryWeight code (twoScorers cfg) (poolOf pools category) =
      .ok (twoShares cfg (poolOf pools category)) := by
    rw [distributeCategoryWeight, if_neg hne, totalScore_twoScorers, if_neg (by norm_num)]
    exact shareOut_twoScorers hpos hpool _ code_exact
  rw [distributeCategories] at h
  replace h := (if_neg hskip).symm.trans h
  obtain ⟨ws, hws, h⟩ := (bind_ok_iff _ _ _).mp h
  obtain rfl : twoShares cfg (poolOf pools category) = ws := Except.ok.inj (hshares.symm.trans hws)
  obtain ⟨weights, hweights, h⟩ := (bind_ok_iff _ _ _).mp h
  have hfresh : ∀ u ∈ uids (twoShares cfg (poolOf pools category)), u ∉ uids [] := fun _ _ => not_mem_nil
  rw [addWeights_fresh (uids_twoShares cfg _).1 hfresh] at hweights
  cases hweights
  cases h
  rfl

theorem addBurn_fresh {burn : ℕ} {ws ws' : List NormalizedWeight}
    {b : Option BurnAllocation} (hfresh : cfg.burnUid ∉ uids ws)
    (h : addBurn code cfg burn ws = .ok (ws', b)) : totalOf ws' = totalOf ws + min burn u16Max := by
  unfold addBurn at h
  split_ifs at h with hpos
  · obtain ⟨w, hw, h⟩ := (bind_ok_iff _ _ _).mp h
    obtain ⟨all, hall, h⟩ := (bind_ok_iff _ _ _).mp h
    rw [addWeight_fresh hfresh] at hall
    cases hw
    cases hall
    cases h
    simp [totalOf]
  · cases h
    omega

theorem onlyTwoScorers_rejected (hburn : cfg.burnPercentage ≤ 100)
    (hpools : calculateAllCategoryPools cfg (u16Max - burnedOf cfg) = pools)
    (hpos : 0 < poolOf pools category) (hpool : poolOf pools category ≤ 2 * u16Max)
    (hover : u16Max - burnedOf cfg < pools.values.sum) :
    ∀ d, calculateWeightDistribution cfg (onlyTwoScorers cfg category) ≠ .ok d := by
  intro d hd
  obtain ⟨burn, hreturns, hburned⟩ := calculateBurnAllocation_returns hburn
  obtain ⟨burn', hburn', hd⟩ := (bind_ok_iff _ _ _).mp hd
  obtain rfl : burn = burn' := Except.ok.inj ((hreturns _ code_exact).symm.trans hburn')
  obtain ⟨left, hleft, hd⟩ := (bind_ok_iff _ _ _).mp hd
  obtain ⟨-, rfl⟩ := checkedSub_eq_ok.mp hleft
  obtain ⟨all, hall, hd⟩ := (bind_ok_iff _ _ _).mp hd
  obtain ⟨⟨ws, b⟩, hadd, hd⟩ := (bind_ok_iff _ _ _).mp hd
  obtain ⟨_, hvalid, -⟩ := (bind_ok_iff _ _ _).mp hd
  obtain ⟨_, htotal, -⟩ := (bind_ok_iff _ _ _).mp hvalid
  replace htotal := revertIf_eq_ok.mp htotal
  change distributeCategories code (calculateAllCategoryPools cfg (u16Max - burnWeightOf burn)) _ _ _ =
    _ at hall
  change addBurn code cfg (burnWeightOf burn + emptyCategoryBurn _
    (calculateAllCategoryPools cfg (u16Max - burnWeightOf burn))) _ = _ at hadd
  rw [filter_onlyTwoScorers, hburned, hpools] at hall hadd
  have hweights := distributeCategories_twoScorers hpos hpool _ hall
  have hfresh : cfg.burnUid ∉ uids all.weights := hweights ▸ (uids_twoShares cfg _).2
  have hsum := addBurn_fresh hfresh hadd
  rw [hweights, totalOf_twoShares] at hsum
  have hpartition : poolOf pools category + emptyCategoryBurn (onlyTwoScorers cfg category) pools =
      pools.values.sum := by
    have := AssocMap.sum_partition pools (onlyTwoScorers cfg category)
    simpa [poolOf, emptyCategoryBurn, AssocMap.keys, onlyTwoScorers] using this
  omega

theorem weight_le_totalAllocation (hweights : ∀ a ∈ cfg.gpuAllocations.values, WellFormed a) {a : GpuAllocation}
    (ha : a ∈ cfg.gpuAllocations.values) : a.weight ≤ totalAllocation cfg := by
  apply single_le_sum
  · intro w hw
    obtain ⟨b, hb, rfl⟩ := mem_map.mp hw
    exact (hweights b hb).1
  · exact mem_map_of_mem ha

theorem pool_le (hvalid : cfg.validate = .ok ()) {left : ℕ} (hleft : left ≤ u16Max)
    (h : pool ∈ (calculateAllCategoryPools cfg left).values) : pool ≤ 2 * u16Max := by
  obtain ⟨-, -, -, hsum, hwell⟩ := validate_ok_iff.mp hvalid
  rw [calculateAllCategoryPools, values_mapValues] at h
  obtain ⟨a, ha, rfl⟩ := mem_map.mp h
  have hweight : a.weight ≤ 200 := by
    have := weight_le_totalAllocation hwell ha
    have := (abs_le.mp hsum).2
    linarith
  have hleft' : (left : ℚ) ≤ u16Max := by exact_mod_cast hleft
  apply Nat.floor_le_of_le
  push_cast
  have hshare : (left : ℚ) * a.weight ≤ u16Max * 200 :=
    mul_le_mul hleft' hweight (hwell a ha).1 (Nat.cast_nonneg _)
  linarith

theorem distribution_always_ok_iff (cfg : EmissionConfig) (hvalid : cfg.validate = .ok ()) :
    (∀ minersByCategory : AssocMap String Miners, (∀ miners ∈ minersByCategory.values, miners ≠ []) →
      (∀ miners ∈ minersByCategory.values, ∀ m ∈ miners, 0 ≤ m.2) →
        ∃ d, calculateWeightDistribution cfg minersByCategory = .ok d) ↔
    let left := u16Max - ⌊(u16Max : ℚ) * cfg.burnPercentage / 100⌋₊
    (cfg.gpuAllocations.values.map (fun a => ⌊(left : ℚ) * a.weight / 100⌋₊)).sum ≤ left := by
  obtain ⟨hburn, -, -, -, -⟩ := validate_ok_iff.mp hvalid
  change _ ↔ (cfg.gpuAllocations.values.map (fun a => ⌊((u16Max - burnedOf cfg : ℕ) : ℚ) * a.weight / 100⌋₊)).sum ≤
    u16Max - burnedOf cfg
  rw [← values_mapValues]
  change _ ↔ (calculateAllCategoryPools cfg (u16Max - burnedOf cfg)).values.sum ≤ u16Max - burnedOf cfg
  constructor
  · intro hok
    by_contra hover
    rw [not_le] at hover
    -- Some pool is not empty: give it to two miners and leave the other categories to the burn.
    obtain ⟨pool, hmem, hpos⟩ : ∃ pool ∈ (calculateAllCategoryPools cfg (u16Max - burnedOf cfg)).values, 0 < pool := by
      by_contra hnone
      push Not at hnone
      have := sum_eq_zero (fun pool hp => Nat.le_zero.mp (hnone pool hp))
      omega
    have hpool := pool_le hvalid (Nat.sub_le _ _) hmem
    obtain ⟨⟨category, pool⟩, hentry, rfl⟩ := mem_map.mp hmem
    have hget : poolOf (calculateAllCategoryPools cfg (u16Max - burnedOf cfg)) category = pool := by
      rw [poolOf, get?_of_mem hentry]
      rfl
    obtain ⟨d, hd⟩ := hok (onlyTwoScorers cfg category) (by simp [onlyTwoScorers, values, twoScorers]) (by
      intro miners hminers m hm
      simp only [onlyTwoScorers, values, map_cons, map_nil, mem_singleton] at hminers
      subst hminers
      simp only [twoScorers, mem_append, mem_replicate, mem_cons, not_mem_nil, or_false] at hm
      rcases hm with ⟨-, rfl⟩ | rfl | rfl <;> norm_num)
    exact onlyTwoScorers_rejected hburn.2 rfl (hget ▸ hpos) (hget ▸ hpool) hover d hd
  · intro hpools minersByCategory _ hscores
    obtain ⟨burn, d, -, hd, -⟩ := distribution_returns hburn.2 hpools hscores
    exact ⟨d, hd _ code_exact⟩

theorem distribution_always_ok_sample : sampleConfig.validate = .ok () ∧
      ∀ minersByCategory : AssocMap String Miners, (∀ miners ∈ minersByCategory.values, miners ≠ []) →
        (∀ miners ∈ minersByCategory.values, ∀ m ∈ miners, 0 ≤ m.2) →
          ∃ d, calculateWeightDistribution sampleConfig minersByCategory = .ok d := by
  have hvalid : sampleConfig.validate = .ok () := by
    rw [validate_ok_iff]
    refine ⟨by norm_num [sampleConfig], by simp [sampleConfig], by simp [sampleConfig], ?_,
      by simp [sampleConfig, values, WellFormed]⟩
    norm_num [sampleConfig, totalAllocation, values]
  refine ⟨hvalid, (distribution_always_ok_iff sampleConfig hvalid).mpr ?_⟩
  have hburned : ⌊(u16Max : ℚ) * sampleConfig.burnPercentage / 100⌋₊ = 6553 := by
    rw [Nat.floor_eq_iff (by norm_num [sampleConfig, u16Max])]
    norm_num [sampleConfig, u16Max]
  have hA100 : ⌊((58982 : ℕ) : ℚ) * 25 / 100⌋₊ = 14745 := by
    rw [Nat.floor_eq_iff (by norm_num)]
    norm_num
  have hH100 : ⌊((58982 : ℕ) : ℚ) * 60 / 100⌋₊ = 35389 := by
    rw [Nat.floor_eq_iff (by norm_num)]
    norm_num
  have hB200 : ⌊((58982 : ℕ) : ℚ) * 15 / 100⌋₊ = 8847 := by
    rw [Nat.floor_eq_iff (by norm_num)]
    norm_num
  rw [hburned]
  change ⌊((58982 : ℕ) : ℚ) * 25 / 100⌋₊ + (⌊((58982 : ℕ) : ℚ) * 60 / 100⌋₊ +
    (⌊((58982 : ℕ) : ℚ) * 15 / 100⌋₊ + 0)) ≤ 58982
  omega

def overConfig : EmissionConfig := ⟨0, 999, ⟨[("H100", ⟨20001 / 200, 1, none⟩)], nodup_singleton _⟩, 1, 360, 0⟩

def overMiners : AssocMap String Miners := ⟨[("H100", [(1, 1), (2, 1)])], nodup_singleton _⟩

theorem accepted_config_rejected : overConfig.validate = .ok () ∧ 1 ≤ overConfig.minMinersPerCategory ∧
      (∀ miners ∈ overMiners.values, miners ≠ [] ∧ ∀ m ∈ miners, 0 ≤ m.2) ∧
      calculateWeightDistribution overConfig overMiners =
        .error (.message "Total allocated weight 65538 exceeds maximum 65535") := by
  have hpool : ⌊((65535 : ℕ) : ℚ) * (20001 / 200) / 100⌋₊ = 65538 := by
    rw [Nat.floor_eq_iff (by norm_num)]
    norm_num
  have hhalf : ⌊((65538 : ℕ) : ℚ) * 1 / (1 + (1 + 0))⌋₊ = 32769 := by
    rw [Nat.floor_eq_iff (by norm_num)]
    norm_num
  refine ⟨?_, le_refl _, ?_, ?_⟩
  · rw [validate_ok_iff]
    refine ⟨by norm_num [overConfig], by simp [overConfig], by simp [overConfig], ?_, ?_⟩
    · norm_num [overConfig, totalAllocation, values, abs_le]
    · norm_num [overConfig, values, WellFormed]
      simp
  · intro miners hminers
    obtain rfl := mem_singleton.mp hminers
    refine ⟨cons_ne_nil _ _, ?_⟩
    simp only [forall_mem_cons]
    norm_num
  · have hpools : (calculateAllCategoryPools overConfig 65535).entries = [("H100", 65538)] := by
      change [("H100", ⌊((65535 : ℕ) : ℚ) * (20001 / 200) / 100⌋₊)] = _
      rw [hpool]
    have hshares : distributeCategoryWeight code [(1, 1), (2, 1)] 65538 =
        .ok [⟨1, 32769⟩, ⟨2, 32769⟩] := by
      have htotal : ¬ totalScore [((1 : UInt16), (1 : ℚ)), (2, 1)] ≤ 0 := by norm_num [totalScore]
      rw [distributeCategoryWeight, if_neg (cons_ne_nil _ _), if_neg htotal]
      simp only [shareOut, minerWeight, totalScore, map_cons, map_nil, sum_cons, sum_nil,
        cons_ne_nil, decide_false, Bool.false_eq_true, ↓reduceIte, hhalf]
      rfl
    have hcategories : ∃ categories, distributeCategories code
        (calculateAllCategoryPools overConfig 65535) 65535 overMiners.entries ⟨[], []⟩ =
          .ok ⟨[⟨1, 32769⟩, ⟨2, 32769⟩], categories⟩ := by
      have hget : ((calculateAllCategoryPools overConfig 65535).get? "H100").getD 0 = 65538 := by
        rw [get?, hpools]
        rfl
      refine ⟨[("H100", ⟨"H100", 2, totalScore [(1, 1), (2, 1)], 65538, (65538 : ℕ) / (65535 : ℕ) * 100⟩)], ?_⟩
      simp only [overMiners, distributeCategories, hget, cons_ne_nil, or_false, Nat.reduceEqDiff, ↓reduceIte, hshares]
      rfl
    obtain ⟨categories, hcategories⟩ := hcategories
    have hempty : emptyCategoryBurn overMiners (calculateAllCategoryPools overConfig 65535) = 0 := by
      rw [emptyCategoryBurn, hpools]
      rfl
    refine (bind_error_iff _ _ _).mpr (Or.inr ⟨none, if_pos (le_refl _), ?_⟩)
    refine (bind_error_iff _ _ _).mpr (Or.inr ⟨65535, rfl, ?_⟩)
    refine (bind_error_iff _ _ _).mpr (Or.inr ⟨_, hcategories, ?_⟩)
    refine (bind_error_iff _ _ _).mpr (Or.inr ⟨([⟨1, 32769⟩, ⟨2, 32769⟩], none), ?_, ?_⟩)
    · change addBurn _ _ (0 + emptyCategoryBurn overMiners (calculateAllCategoryPools overConfig 65535)) _ = _
      rw [hempty]
      rfl
    · apply (bind_error_iff _ _ _).mpr
      apply Or.inl
      apply (bind_error_iff _ _ _).mpr
      exact Or.inl (revertIf_eq_error.mpr ⟨by decide, by decide⟩)

end Basilica.Weights
