import Basilica.CategoryShares

namespace Basilica.Weights

open AssocMaps CheckedSteps List AssocMap

def uids (weights : List NormalizedWeight) : List UInt16 := weights.map NormalizedWeight.uid

theorem uids_cons (w : NormalizedWeight) (ws : List NormalizedWeight) : uids (w :: ws) = w.uid :: uids ws := rfl

theorem addWeight_returns (w : NormalizedWeight) (all : List NormalizedWeight) (hle : totalOf all + w.weight ≤ u16Max) :
    ∃ all', Returns (fun cast => addWeight cast w all) all' ∧ totalOf all' = totalOf all + w.weight ∧
      uids all' = if w.uid ∈ uids all then uids all else uids all ++ [w.uid] := by
  induction all with
  | nil => exact ⟨[w], returns_ok _, by simp [totalOf], by simp [uids]⟩
  | cons x xs ih =>
    rw [totalOf_cons] at hle
    by_cases hx : x.uid = w.uid
    · refine ⟨{ x with weight := x.weight + w.weight } :: xs, ?_, ?_, by simp [uids, hx]⟩
      · intro cast hcast
        beta_reduce
        rw [addWeight, if_pos hx]
        exact (bind_ok_iff _ _ _).mpr ⟨_, (hcast _ (by omega)).1, rfl⟩
      · simp only [totalOf_cons]
        omega
    · obtain ⟨xs', hxs, hsum, huids⟩ := ih (by omega)
      refine ⟨x :: xs', ?_, ?_, ?_⟩
      · intro cast hcast
        beta_reduce
        rw [addWeight, if_neg hx]
        exact (bind_ok_iff _ _ _).mpr ⟨_, hxs cast hcast, rfl⟩
      · simp only [totalOf_cons, hsum]
        omega
      · simp only [uids_cons, huids, mem_cons, Ne.symm hx, false_or]
        split_ifs <;> rfl

variable {all : List NormalizedWeight}

theorem addWeight_nodup {w : NormalizedWeight} {all' : List NormalizedWeight} (h : (uids all).Nodup)
    (huids : uids all' = if w.uid ∈ uids all then uids all else uids all ++ [w.uid]) : (uids all').Nodup := by
  rw [huids]
  split_ifs with hw
  · exact h
  · exact nodup_append.mpr ⟨h, by simp, by
      intro a ha b hb
      rw [mem_singleton.mp hb]
      rintro rfl
      exact hw ha⟩

variable {ws : List NormalizedWeight}

theorem addWeights_returns (hnodup : (uids all).Nodup) (hle : totalOf all + totalOf ws ≤ u16Max) :
    ∃ all', Returns (fun cast => addWeights cast ws all) all' ∧ totalOf all' = totalOf all + totalOf ws ∧
      (uids all').Nodup := by
  induction ws generalizing all with
  | nil => exact ⟨all, returns_ok _, rfl, hnodup⟩
  | cons w ws ih =>
    rw [totalOf_cons] at hle
    obtain ⟨m, hm, hmsum, hmuids⟩ := addWeight_returns w all (by omega)
    obtain ⟨all', hall, hsum, hnodup'⟩ := ih (addWeight_nodup hnodup hmuids) (by omega)
    refine ⟨all', hm.bind hall, ?_, hnodup'⟩
    rw [totalOf_cons]
    omega

def poolOf (pools : AssocMap String ℕ) (category : String) : ℕ := (pools.get? category).getD 0

theorem distributeCategories_returns {pools : AssocMap String ℕ} (remainingWeight : ℕ)
    {entries : List (String × Miners)} (hscores : ∀ p ∈ entries, ∀ m ∈ p.2, 0 ≤ m.2) (all : Allocated)
    (hnodup : (uids all.weights).Nodup)
    (hle : totalOf all.weights + (entries.map (fun p => poolOf pools p.1)).sum ≤ u16Max) :
    ∃ all', Returns (fun cast => distributeCategories cast pools remainingWeight entries all) all' ∧
      (uids all'.weights).Nodup ∧
      totalOf all'.weights + (entries.map (fun p => lost p.2 (poolOf pools p.1))).sum =
        totalOf all.weights + (entries.map (fun p => poolOf pools p.1)).sum := by
  induction entries generalizing all with
  | nil => exact ⟨all, returns_ok _, hnodup, rfl⟩
  | cons p entries ih =>
    obtain ⟨category, miners⟩ := p
    have hscores' : ∀ p ∈ entries, ∀ m ∈ p.2, 0 ≤ m.2 := fun p hp => hscores p (mem_cons_of_mem _ hp)
    simp only [map_cons, sum_cons] at hle ⊢
    have hpool : poolOf pools category ≤ u16Max := by omega
    have hminers : ∀ m ∈ miners, 0 ≤ m.2 := hscores (category, miners) mem_cons_self
    obtain ⟨ws, hws, hsum⟩ := distributeCategoryWeight_returns hpool hminers
    by_cases hskip : poolOf pools category = 0 ∨ miners = []
    · -- A skipped category hands out nothing, so all of its pool is lost.
      have hlost : lost miners (poolOf pools category) = poolOf pools category := by
        rcases hskip with h0 | rfl
        · omega
        · simp [lost]
      obtain ⟨all', hall, hnodup', hsum'⟩ := ih hscores' all hnodup (by omega)
      refine ⟨all', ?_, hnodup', by omega⟩
      intro cast hcast
      beta_reduce
      rw [distributeCategories]
      exact (if_pos hskip).trans (hall cast hcast)
    · have hfits : totalOf all.weights + totalOf ws ≤ u16Max := by omega
      obtain ⟨m, hm, hmsum, hmnodup⟩ := addWeights_returns hnodup hfits
      obtain ⟨all', hall, hnodup', hsum'⟩ := ih hscores' ⟨m, all.categories ++ [(category,
        ⟨category, miners.length, totalScore miners, poolOf pools category,
          (poolOf pools category : ℚ) / remainingWeight * 100⟩)]⟩ hmnodup (by
            simp only
            omega)
      refine ⟨all', ?_, hnodup', ?_⟩
      · intro cast hcast
        beta_reduce
        rw [distributeCategories]
        refine (if_neg hskip).trans ?_
        exact (bind_ok_iff _ _ _).mpr ⟨ws, hws cast hcast, (bind_ok_iff _ _ _).mpr ⟨m, hm cast hcast, hall cast hcast⟩⟩
      · simp only at hsum'
        omega

theorem addBurn_returns (cfg : EmissionConfig) (burn : ℕ) (ws : List NormalizedWeight)
    (hnodup : (uids ws).Nodup) (hle : totalOf ws + burn ≤ u16Max) :
    ∃ ws' b, Returns (fun cast => addBurn cast cfg burn ws) (ws', b) ∧ totalOf ws' = totalOf ws + burn ∧
      (uids ws').Nodup ∧ (if burn > 0 then 1 else 0) ≤ ws'.length := by
  by_cases hpos : burn > 0
  · obtain ⟨ws', hws, hsum, huids⟩ := addWeight_returns ⟨cfg.burnUid, burn⟩ ws hle
    refine ⟨ws', some ⟨cfg.burnUid, burn, (burn : ℚ) / u16Max * 100⟩, ?_, hsum, addWeight_nodup hnodup huids, ?_⟩
    · intro cast hcast
      beta_reduce
      rw [addBurn, if_pos hpos]
      exact (bind_ok_iff _ _ _).mpr ⟨burn, (hcast burn (by omega)).1,
        (bind_ok_iff _ _ _).mpr ⟨ws', hws cast hcast, rfl⟩⟩
    · rw [if_pos hpos, Nat.one_le_iff_ne_zero]
      intro h0
      have : ws' = [] := length_eq_zero_iff.mp h0
      subst this
      simp only [totalOf, map_nil, sum_nil] at hsum
      omega
  · refine ⟨ws, none, ?_, by omega, hnodup, by simp [hpos]⟩
    intro cast _
    beta_reduce
    rw [addBurn, if_neg hpos]

theorem firstDuplicate_none {seen : List UInt16} (h : (uids ws).Nodup)
    (hseen : ∀ u ∈ uids ws, u ∉ seen) : firstDuplicate ws seen = none := by
  induction ws generalizing seen with
  | nil => rfl
  | cons w ws ih =>
    obtain ⟨hw, hws⟩ := nodup_cons.mp h
    rw [firstDuplicate, if_neg (hseen w.uid mem_cons_self)]
    apply ih hws
    intro u hu
    rw [mem_cons, not_or]
    refine ⟨?_, hseen u (mem_cons_of_mem _ hu)⟩
    rintro rfl
    exact hw hu

theorem validateAllocation_ok (hnodup : (uids ws).Nodup)
    (hle : totalOf ws ≤ u16Max) : validateAllocation ws = .ok () := by
  apply (bind_ok_iff _ _ _).mpr
  refine ⟨(), revertIf_eq_ok.mpr (not_lt.mpr hle), ?_⟩
  rw [firstDuplicate_none hnodup (fun u _ => not_mem_nil)]

def burnWeightOf (burn : Option BurnAllocation) : ℕ := (burn.map BurnAllocation.weight).getD 0

def burnedOf (cfg : EmissionConfig) : ℕ := ⌊(u16Max : ℚ) * cfg.burnPercentage / 100⌋₊

variable {cfg : EmissionConfig}

theorem burnedOf_le (hburn : cfg.burnPercentage ≤ 100) : burnedOf cfg ≤ u16Max := by
  apply Nat.floor_le_of_le
  have h0 : (0 : ℚ) ≤ u16Max := Nat.cast_nonneg _
  have := mul_le_mul_of_nonneg_left hburn h0
  linarith

theorem calculateBurnAllocation_returns (hburn : cfg.burnPercentage ≤ 100) :
    ∃ b, Returns (fun cast => calculateBurnAllocation cast cfg u16Max) b ∧ burnWeightOf b = burnedOf cfg := by
  by_cases hpos : cfg.burnPercentage ≤ 0
  · have hnonpos : (u16Max : ℚ) * cfg.burnPercentage / 100 ≤ 0 := by
      have h0 : (0 : ℚ) ≤ u16Max := Nat.cast_nonneg _
      have := mul_nonpos_of_nonneg_of_nonpos h0 hpos
      linarith
    refine ⟨none, ?_, (Nat.floor_of_nonpos hnonpos).symm⟩
    intro cast _
    beta_reduce
    rw [calculateBurnAllocation, if_pos hpos]
  · refine ⟨if burnedOf cfg = 0 then none else some ⟨cfg.burnUid, burnedOf cfg, cfg.burnPercentage⟩, ?_, ?_⟩
    · intro cast hcast
      beta_reduce
      rw [calculateBurnAllocation, if_neg hpos]
      refine (bind_ok_iff _ _ _).mpr ⟨_, (hcast _ (burnedOf_le hburn)).1, ?_⟩
      change (if burnedOf cfg = 0 then Except.ok none else Except.ok (some _)) = _
      split_ifs <;> rfl
    · split_ifs with h0
      · exact h0.symm
      · rfl

theorem pools_sum_le (hweights : ∀ a ∈ cfg.gpuAllocations.values, 0 ≤ a.weight)
    (hsum : (cfg.gpuAllocations.values.map GpuAllocation.weight).sum = 100) (remaining : ℕ) :
    (calculateAllCategoryPools cfg remaining).values.sum ≤ remaining := by
  have hshares (l : List GpuAllocation) : (l.map (fun a => (remaining : ℚ) * a.weight / 100)).sum =
      remaining * (l.map GpuAllocation.weight).sum / 100 := by
    induction l with
    | nil => simp
    | cons a l ih =>
      simp only [map_cons, sum_cons, ih]
      ring
  have hfloors := sum_floor_le cfg.gpuAllocations.values (fun a => (remaining : ℚ) * a.weight / 100)
    (fun a ha => by
      have := hweights a ha
      positivity)
  rw [hshares, hsum, mul_div_assoc, div_self (by norm_num), mul_one] at hfloors
  rw [calculateAllCategoryPools, values_mapValues]
  exact_mod_cast hfloors

variable {minersByCategory : AssocMap String Miners}

theorem included_scores (hscores : ∀ miners ∈ minersByCategory.values, ∀ m ∈ miners, 0 ≤ m.2) :
    ∀ p ∈ (filterMinersByScore cfg minersByCategory).entries, ∀ m ∈ p.2, 0 ≤ m.2 := by
  intro p hp
  exact hscores p.2 (mem_map_of_mem (mem_of_mem_filter hp))

theorem distribution_returns (hburn : cfg.burnPercentage ≤ 100)
    (hpools : (calculateAllCategoryPools cfg (u16Max - burnedOf cfg)).values.sum ≤ u16Max - burnedOf cfg)
    (hscores : ∀ miners ∈ minersByCategory.values, ∀ m ∈ miners, 0 ≤ m.2) :
    ∃ burn d, Returns (fun cast => calculateBurnAllocation cast cfg u16Max) burn ∧
      Returns (fun cast => calculateWeightDistributionWith cast cfg minersByCategory) d ∧
      (uids d.weights).Nodup ∧
      let pools := calculateAllCategoryPools cfg (u16Max - burnWeightOf burn)
      let included := filterMinersByScore cfg minersByCategory
      burnWeightOf burn = burnedOf cfg ∧
      totalOf d.weights + (included.entries.map (fun p => lost p.2 (poolOf pools p.1))).sum =
        burnWeightOf burn + pools.values.sum ∧
      totalOf d.weights ≤ u16Max := by
  obtain ⟨burn, hreturns, hburned⟩ := calculateBurnAllocation_returns hburn
  have hburn_le : burnWeightOf burn ≤ u16Max := hburned ▸ burnedOf_le hburn
  rw [← hburned] at hpools
  set pools := calculateAllCategoryPools cfg (u16Max - burnWeightOf burn) with hpools_def
  set included := filterMinersByScore cfg minersByCategory with hincluded
  -- Each pool is either offered to the miners of its category or burned.
  have hpartition : (included.entries.map (fun p => poolOf pools p.1)).sum +
      emptyCategoryBurn included pools = pools.values.sum := by
    have := AssocMap.sum_partition pools included
    rwa [AssocMap.keys, List.map_map] at this
  have hempty : totalOf [] = 0 := rfl
  have hfits : totalOf [] + (included.entries.map (fun p => poolOf pools p.1)).sum ≤ u16Max := by omega
  have hincluded_scores : ∀ p ∈ included.entries, ∀ m ∈ p.2, 0 ≤ m.2 := included_scores hscores
  obtain ⟨all, hall, hnodup, htotal⟩ := distributeCategories_returns (u16Max - burnWeightOf burn)
    hincluded_scores ⟨[], []⟩ List.nodup_nil hfits
  simp only [hempty, Nat.zero_add] at htotal
  set totalBurnWeight := burnWeightOf burn + emptyCategoryBurn included pools with htotalBurnWeight
  have hroom : totalOf all.weights + totalBurnWeight ≤ u16Max := by omega
  obtain ⟨ws, b, hadd, hws, hnodup', hlength⟩ := addBurn_returns cfg totalBurnWeight all.weights hnodup hroom
  refine ⟨burn, ⟨ws, b, all.categories, u16Max, ws.length - (if totalBurnWeight > 0 then 1 else 0)⟩,
    hreturns, ?_, hnodup', hburned, ?_, ?_⟩
  · intro cast hcast
    refine (bind_ok_iff _ _ _).mpr ⟨burn, hreturns cast hcast, ?_⟩
    refine (bind_ok_iff _ _ _).mpr ⟨_, checkedSub_eq_ok.mpr ⟨hburn_le, rfl⟩, ?_⟩
    refine (bind_ok_iff _ _ _).mpr ⟨all, hall cast hcast, ?_⟩
    refine (bind_ok_iff _ _ _).mpr ⟨(ws, b), hadd cast hcast, ?_⟩
    refine (bind_ok_iff _ _ _).mpr ⟨(), validateAllocation_ok hnodup' (by omega), ?_⟩
    exact (bind_ok_iff _ _ _).mpr ⟨_, checkedSub_eq_ok.mpr ⟨hlength, rfl⟩, rfl⟩
  · change totalOf ws + (included.entries.map (fun p => lost p.2 (poolOf pools p.1))).sum =
      burnWeightOf burn + pools.values.sum
    omega
  · change totalOf ws ≤ u16Max
    omega

theorem weights_conserved (cfg : EmissionConfig) (hburn : 0 ≤ cfg.burnPercentage ∧ cfg.burnPercentage ≤ 100)
    (hweights : ∀ a ∈ cfg.gpuAllocations.values, 0 ≤ a.weight)
    (hsum : (cfg.gpuAllocations.values.map GpuAllocation.weight).sum = 100)
    (minersByCategory : AssocMap String Miners)
    (hscores : ∀ miners ∈ minersByCategory.values, ∀ m ∈ miners, 0 ≤ m.2) :
    ∃ burn d, calculateBurnAllocation Narrowing.code cfg u16Max = .ok burn ∧
      calculateWeightDistribution cfg minersByCategory = .ok d ∧
      calculateWeightDistributionWith Narrowing.refuse cfg minersByCategory = .ok d ∧
      (uids d.weights).Nodup ∧
      let pools := calculateAllCategoryPools cfg (u16Max - burnWeightOf burn)
      let included := filterMinersByScore cfg minersByCategory
      (∀ category miners pool, (category, miners) ∈ included.entries → pools.get? category = some pool →
        miners ≠ [] → 0 < totalScore miners →
          ∃ ws, distributeCategoryWeight Narrowing.code miners pool = .ok ws ∧ totalOf ws = pool) ∧
      totalOf d.weights + (included.entries.map (fun p => lost p.2 (poolOf pools p.1))).sum =
        burnWeightOf burn + pools.values.sum ∧
      totalOf d.weights ≤ u16Max := by
  have hpools := pools_sum_le hweights hsum (u16Max - burnedOf cfg)
  obtain ⟨burn, d, hb, hd, hnodup, hburned, htotal, hle⟩ := distribution_returns hburn.2 hpools hscores
  refine ⟨burn, d, hb _ Narrowing.code_exact, hd _ Narrowing.code_exact, hd _ Narrowing.refuse_exact,
    hnodup, ?_, htotal, hle⟩
  intro category miners pool hmem hpool hne hpos
  rw [← hburned] at hpools
  have hpool_le : pool ≤ u16Max := by
    have := single_le_sum (fun n _ => Nat.zero_le n) pool (get?_mem_values hpool)
    omega
  obtain ⟨ws, hws, hshared⟩ := distributeCategoryWeight_returns hpool_le
    (included_scores hscores (category, miners) hmem)
  refine ⟨ws, hws _ Narrowing.code_exact, ?_⟩
  simpa only [lost, hne, hpos.ne', ↓reduceIte, Nat.add_zero] using hshared

def sampleConfig : EmissionConfig :=
  ⟨10, 999, ⟨[("A100", ⟨25, 1, none⟩), ("H100", ⟨60, 1, none⟩), ("B200", ⟨15, 1, none⟩)], by decide⟩,
    1, 360, 0⟩

def sampleMiners : AssocMap String Miners :=
  ⟨[("A100", [(1, 2), (2, 1), (3, 4)]), ("H100", [(1, 0), (999, 0)])], by decide⟩

theorem sampleMiners_scores : ∀ miners ∈ sampleMiners.values, ∀ m ∈ miners, 0 ≤ m.2 := by
  simp only [sampleMiners, values, map_cons, map_nil, forall_mem_cons]
  norm_num

theorem weights_conserved_sample :
    ∃ d, calculateWeightDistribution sampleConfig sampleMiners = .ok d ∧ (uids d.weights).Nodup ∧
      totalOf d.weights ≤ u16Max := by
  obtain ⟨burn, d, _, hd, _, hnodup, _, _, hle⟩ := weights_conserved sampleConfig
    (by norm_num [sampleConfig]) (by simp [sampleConfig, values])
    (by norm_num [sampleConfig, values]) sampleMiners sampleMiners_scores
  exact ⟨d, hd, hnodup, hle⟩

end Basilica.Weights
