import Basilica.WeightConservation
import Basilica.ScoreShares

/-!
The weight distribution as a run walks its hash maps: each map hands out its entries in an order of its
own, and the sums and differences of sixty-four bits either panic or wrap.
-/

namespace Basilica.Weights

open AssocMaps CheckedSteps Narrowing List AssocMap

/-- With overflow checks an operation that does not fit panics, without them it wraps. -/
inductive Build
  | checked
  | wrapping

open Build

namespace Build

def add (bits a b : ℕ) : Build → Except Failure ℕ
  | checked => checkedAdd (.narrowed (a + b)) bits a b
  | wrapping => .ok ((a + b) % 2 ^ bits)

def sub (bits a b : ℕ) : Build → Except Failure ℕ
  | checked => checkedSub .underflow a b
  | wrapping => .ok ((a + (2 ^ bits - b)) % 2 ^ bits)

end Build

structure Walks where
  pools : AssocMap String ℕ → AssocMap String ℕ
  filtered : AssocMap String Miners → AssocMap String Miners
  pools_perm : ∀ m, (pools m).entries.Perm m.entries
  filtered_perm : ∀ m, (filtered m).entries.Perm m.entries

def Walks.inOrder : Walks := ⟨id, id, fun _ => .refl _, fun _ => .refl _⟩

def Walks.backwards : Walks where
  pools m := ⟨m.entries.reverse, by simpa using m.nodup⟩
  filtered m := ⟨m.entries.reverse, by simpa using m.nodup⟩
  pools_perm m := List.reverse_perm _
  filtered_perm m := List.reverse_perm _

def Build.minerWeight (b : Build) (pool : ℕ) (total score : ℚ) (last : Bool) (allocated : ℕ) : Except Failure ℕ :=
  if last then b.sub 64 pool allocated else .ok ⌊(pool : ℚ) * score / total⌋₊

def Build.shareOut (b : Build) (pool : ℕ) (total : ℚ) : Miners → ℕ → Except Failure (List NormalizedWeight)
  | [], _ => .ok []
  | (uid, score) :: rest, allocated => do
    let weight ← b.minerWeight pool total score (rest = []) allocated
    let weight := min weight u16Max
    if weight > 0 then do
      let weights ← b.shareOut pool total rest (allocated + weight)
      return ⟨uid, weight⟩ :: weights
    else b.shareOut pool total rest allocated

def Build.distributeCategoryWeight (b : Build) (miners : Miners) (pool : ℕ) : Except Failure (List NormalizedWeight) :=
  if miners = [] then .ok []
  else if totalScore miners ≤ 0 then distributeEqually code miners pool
  else b.shareOut pool (totalScore miners) miners 0

def Build.distributeCategories (b : Build) (pools : AssocMap String ℕ) (remainingWeight : ℕ) :
    List (String × Miners) → Allocated → Except Failure Allocated
  | [], all => .ok all
  | (category, miners) :: rest, all =>
    let pool := (pools.get? category).getD 0
    if pool = 0 ∨ miners = [] then b.distributeCategories pools remainingWeight rest all
    else do
      let categoryWeights ← b.distributeCategoryWeight miners pool
      let weights ← addWeights code categoryWeights all.weights
      let allocation : CategoryAllocation := ⟨category, miners.length, totalScore miners, pool,
        (pool : ℚ) / remainingWeight * 100⟩
      b.distributeCategories pools remainingWeight rest
        ⟨weights, all.categories ++ [(category, allocation)]⟩

def Build.burnEmpty (b : Build) (active : List String) : List (String × ℕ) → ℕ → Except Failure ℕ
  | [], emptyCategoryBurn => .ok emptyCategoryBurn
  | (category, pool) :: rest, emptyCategoryBurn =>
    if category ∈ active then b.burnEmpty active rest emptyCategoryBurn
    else do
      let emptyCategoryBurn ← b.add 64 emptyCategoryBurn pool
      b.burnEmpty active rest emptyCategoryBurn

/-- A pool too large for sixty-four bits is cut off at the largest of them. -/
def categoryPools64 (cfg : EmissionConfig) (totalRemainingWeight : ℕ) : AssocMap String ℕ :=
  (calculateAllCategoryPools cfg totalRemainingWeight).mapValues (min (2 ^ 64 - 1))

def Build.calculateWeightDistribution (b : Build) (walks : Walks) (cfg : EmissionConfig)
    (minersByCategory : AssocMap String Miners) : Except Failure WeightDistribution := do
  let totalWeight := u16Max
  let burnAllocation ← calculateBurnAllocation code cfg totalWeight
  let burnWeight := (burnAllocation.map BurnAllocation.weight).getD 0
  let remainingWeight ← b.sub 64 totalWeight burnWeight
  let filteredMiners := walks.filtered (filterMinersByScore cfg minersByCategory)
  let allCategoryPools := walks.pools (categoryPools64 cfg remainingWeight)
  let emptyCategoryBurn ← b.burnEmpty filteredMiners.keys allCategoryPools.entries 0
  let all ← b.distributeCategories allCategoryPools remainingWeight filteredMiners.entries ⟨[], []⟩
  let totalBurnWeight ← b.add 64 burnWeight emptyCategoryBurn
  let (weights, burnAllocation) ← addBurn code cfg totalBurnWeight all.weights
  validateAllocation weights
  let minersServed ← b.sub 32 weights.length (if totalBurnWeight > 0 then 1 else 0)
  return ⟨weights, burnAllocation, all.categories, totalWeight, minersServed⟩

variable {ws : List NormalizedWeight}

section Tally

def sumFor (uid : UInt16) (ws : List NormalizedWeight) : ℕ :=
  totalOf (ws.filter (fun w => w.uid = uid))

theorem sumFor_append (uid : UInt16) (ws ws' : List NormalizedWeight) :
    sumFor uid (ws ++ ws') = sumFor uid ws + sumFor uid ws' := by
  simp [sumFor, totalOf]

theorem sumFor_singleton (uid : UInt16) (w : NormalizedWeight) :
    sumFor uid [w] = if w.uid = uid then w.weight else 0 := by
  by_cases h : w.uid = uid <;> simp [sumFor, totalOf, h]

variable {uid : UInt16}

theorem sumFor_eq_zero (h : uid ∉ uids ws) : sumFor uid ws = 0 := by
  have hnone : ws.filter (fun w => w.uid = uid) = [] := by
    rw [filter_eq_nil_iff]
    intro w hw huid
    exact h (mem_map.mpr ⟨w, hw, by simpa using huid⟩)
  simp [sumFor, hnone, totalOf]

structure Tallied (all added : List NormalizedWeight) : Prop where
  nodup : (uids all).Nodup
  mem_iff : ∀ w, w ∈ all ↔ w.uid ∈ uids added ∧ w.weight = min (sumFor w.uid added) u16Max

theorem Tallied.nil : Tallied [] [] := ⟨nodup_nil, by simp [uids]⟩

variable {all added : List NormalizedWeight}

theorem Tallied.uid_mem_iff (h : Tallied all added) (uid : UInt16) : uid ∈ uids all ↔ uid ∈ uids added := by
  constructor
  · intro huid
    obtain ⟨w, hw, rfl⟩ := mem_map.mp huid
    exact ((h.mem_iff w).mp hw).1
  · intro huid
    exact mem_map.mpr ⟨⟨uid, min (sumFor uid added) u16Max⟩, (h.mem_iff _).mpr ⟨huid, rfl⟩, rfl⟩

theorem addWeight_code (w : NormalizedWeight) (all : List NormalizedWeight) : ∃ all', addWeight code w all = .ok all' ∧
      ((w.uid ∉ uids all ∧ all' = all ++ [w]) ∨ ∃ before x after, all = before ++ x :: after ∧ x.uid = w.uid ∧
          all' = before ++ ⟨w.uid, min (x.weight + w.weight) u16Max⟩ :: after) := by
  induction all with
  | nil => exact ⟨[w], rfl, .inl ⟨by simp [uids], rfl⟩⟩
  | cons x xs ih =>
    by_cases hx : x.uid = w.uid
    · refine ⟨⟨w.uid, min (x.weight + w.weight) u16Max⟩ :: xs, ?_, .inr ⟨[], x, xs, rfl, hx, rfl⟩⟩
      rw [addWeight, if_pos hx, ← hx]
      rfl
    · obtain ⟨xs', hrun, hcase⟩ := ih
      refine ⟨x :: xs', ?_, ?_⟩
      · rw [addWeight, if_neg hx, hrun]
        rfl
      · rcases hcase with ⟨hfresh, rfl⟩ | ⟨before, y, after, rfl, hy, rfl⟩
        · left
          refine ⟨?_, rfl⟩
          rw [uids_cons, mem_cons, not_or]
          exact ⟨Ne.symm hx, hfresh⟩
        · right
          exact ⟨x :: before, y, after, rfl, hy, rfl⟩

theorem mem_uids_concat (added : List NormalizedWeight) (w : NormalizedWeight) (uid : UInt16) :
    uid ∈ uids (added ++ [w]) ↔ uid ∈ uids added ∨ uid = w.uid := by
  simp [uids]

variable {w : NormalizedWeight}

theorem Tallied.concat (h : Tallied all added)
    (hw : w.weight ≤ u16Max) (hfresh : w.uid ∉ uids all) : Tallied (all ++ [w]) (added ++ [w]) := by
  have hfresh' : w.uid ∉ uids added := fun hmem => hfresh ((h.uid_mem_iff _).mpr hmem)
  constructor
  · have hnew : uids (all ++ [w]) = uids all ++ [w.uid] := by simp [uids]
    rw [hnew, ← concat_eq_append, nodup_concat]
    exact ⟨hfresh, h.nodup⟩
  · intro x
    rw [mem_append, mem_singleton, h.mem_iff, mem_uids_concat, sumFor_append, sumFor_singleton]
    by_cases hx : x.uid = w.uid
    · rw [hx, sumFor_eq_zero hfresh', if_pos rfl, Nat.zero_add, Nat.min_eq_left hw]
      obtain ⟨uid, n⟩ := x
      obtain ⟨uid', n'⟩ := w
      simp_all
    · have hne : x ≠ w := fun heq => hx (congrArg NormalizedWeight.uid heq)
      simp [hx, Ne.symm hx, hne]

theorem Tallied.grow {before after : List NormalizedWeight} {y : NormalizedWeight}
    (h : Tallied (before ++ y :: after) added) (hy : y.uid = w.uid) :
    Tallied (before ++ ⟨w.uid, min (y.weight + w.weight) u16Max⟩ :: after) (added ++ [w]) := by
  have hnodup : (uids before ++ w.uid :: uids after).Nodup := by
    simpa [uids, hy] using h.nodup
  have hmem := (h.mem_iff y).mp (by simp)
  constructor
  · simpa [uids] using hnodup
  · intro x
    rw [mem_uids_concat, sumFor_append, sumFor_singleton]
    by_cases hx : x.uid = w.uid
    · -- The entry that grew is the only one of its UID.
      have hmiddle := nodup_middle.mp hnodup
      rw [nodup_cons, mem_append, not_or] at hmiddle
      have hbefore : x ∉ before := fun hmem => hmiddle.1.1 (hx ▸ mem_map_of_mem hmem)
      have hafter : x ∉ after := fun hmem => hmiddle.1.2 (hx ▸ mem_map_of_mem hmem)
      have hmin : min (y.weight + w.weight) u16Max = min (sumFor w.uid added + w.weight) u16Max := by
        rw [hmem.2, hy]
        omega
      rw [hx, if_pos rfl, ← hmin]
      obtain ⟨uid, n⟩ := x
      subst hx
      simp [hbefore, hafter]
    · have hne : x ≠ ⟨w.uid, min (y.weight + w.weight) u16Max⟩ := by
        rintro rfl
        exact hx rfl
      have hne' : x ≠ y := by
        rintro rfl
        exact hx hy
      have hkept : x ∈ before ++ ⟨w.uid, min (y.weight + w.weight) u16Max⟩ :: after ↔
          x ∈ before ++ y :: after := by
        simp [hne, hne']
      rw [hkept, h.mem_iff, if_neg (Ne.symm hx)]
      simp [hx]

theorem Tallied.addWeight (h : Tallied all added) (hw : w.weight ≤ u16Max) :
    ∃ all', addWeight code w all = .ok all' ∧ Tallied all' (added ++ [w]) := by
  obtain ⟨all', hrun, hcase⟩ := addWeight_code w all
  refine ⟨all', hrun, ?_⟩
  rcases hcase with ⟨hfresh, rfl⟩ | ⟨before, y, after, rfl, hy, rfl⟩
  · exact h.concat hw hfresh
  · exact h.grow hy

theorem Tallied.addWeights (h : Tallied all added) (hws : ∀ w ∈ ws, w.weight ≤ u16Max) :
    ∃ all', addWeights code ws all = .ok all' ∧ Tallied all' (added ++ ws) := by
  induction ws generalizing all added with
  | nil => exact ⟨all, rfl, by rwa [append_nil]⟩
  | cons w ws ih =>
    obtain ⟨all₁, hrun₁, hall₁⟩ := h.addWeight (hws w mem_cons_self)
    obtain ⟨all', hrun', hall'⟩ := ih hall₁ (fun x hx => hws x (mem_cons_of_mem _ hx))
    refine ⟨all', (bind_ok_iff _ _ _).mpr ⟨all₁, hrun₁, hrun'⟩, ?_⟩
    rwa [append_assoc, singleton_append] at hall'

variable {all' : List NormalizedWeight}

theorem Tallied.perm {added' : List NormalizedWeight} (h : Tallied all added)
    (h' : Tallied all' added') (hadded : added.Perm added') : all.Perm all' := by
  have hsums (uid : UInt16) : sumFor uid added = sumFor uid added' :=
    ((hadded.filter _).map _).sum_eq
  have huids (uid : UInt16) : uid ∈ uids added ↔ uid ∈ uids added' := (hadded.map _).mem_iff
  apply (perm_ext_iff_of_nodup h.nodup.of_map h'.nodup.of_map).mpr
  intro w
  rw [h.mem_iff, h'.mem_iff, hsums, huids]

theorem weightOf_eq_sumFor (hnodup : (uids all).Nodup) (uid : UInt16) : weightOf all uid = sumFor uid all := by
  induction all with
  | nil => rfl
  | cons x xs ih =>
    obtain ⟨hfresh, hxs⟩ := nodup_cons.mp hnodup
    rw [← singleton_append, sumFor_append, sumFor_singleton, ← ih hxs]
    by_cases hx : x.uid = uid
    · rw [ih hxs, if_pos hx, sumFor_eq_zero (hx ▸ hfresh)]
      simp [weightOf, hx]
    · simp [weightOf, hx]

theorem weightOf_perm (hnodup : (uids all).Nodup) (h : all.Perm all')
    (uid : UInt16) : weightOf all uid = weightOf all' uid := by
  have hnodup' : (uids all').Nodup := (h.map _).nodup_iff.mp hnodup
  rw [weightOf_eq_sumFor hnodup, weightOf_eq_sumFor hnodup']
  exact ((h.filter _).map _).sum_eq

end Tally

variable (pools : AssocMap String ℕ) (remainingWeight : ℕ) {b : Build}

section Categories

variable {pool : ℕ} {miners : Miners}

theorem Build.shareOut_le {total : ℚ} {allocated : ℕ}
    (h : b.shareOut pool total miners allocated = .ok ws) : ∀ w ∈ ws, w.weight ≤ u16Max := by
  induction miners generalizing allocated ws with
  | nil =>
    cases h
    simp
  | cons m rest ih =>
    obtain ⟨uid, score⟩ := m
    rw [shareOut] at h
    obtain ⟨weight, -, h⟩ := (bind_ok_iff _ _ _).mp h
    dsimp only at h
    split_ifs at h with hpos
    · obtain ⟨weights, hrest, h⟩ := (bind_ok_iff _ _ _).mp h
      cases h
      intro w hw
      rcases mem_cons.mp hw with rfl | hw
      · exact Nat.min_le_right _ _
      · exact ih hrest w hw
    · exact ih h

theorem distributeEqually_le (h : distributeEqually code miners pool = .ok ws) : ∀ w ∈ ws, w.weight ≤ u16Max := by
  rw [distributeEqually] at h
  split_ifs at h with hne
  · cases h
    simp
  · obtain ⟨n, hn, h⟩ := (bind_ok_iff _ _ _).mp h
    cases hn
    cases h
    intro w hw
    split_ifs at hw with hpos
    · obtain ⟨m, -, rfl⟩ := mem_map.mp hw
      exact Nat.le_of_lt_succ (Nat.mod_lt _ (by decide))
    · simp at hw

theorem Build.distributeCategoryWeight_le
    (h : b.distributeCategoryWeight miners pool = .ok ws) : ∀ w ∈ ws, w.weight ≤ u16Max := by
  rw [distributeCategoryWeight] at h
  split_ifs at h with hne hzero
  · cases h
    simp
  · exact distributeEqually_le h
  · exact shareOut_le h

def Build.categoryWeights (b : Build) (pools : AssocMap String ℕ) (p : String × Miners) :
    Except Failure (List NormalizedWeight) :=
  if poolOf pools p.1 = 0 ∨ p.2 = [] then .ok [] else b.distributeCategoryWeight p.2 (poolOf pools p.1)

variable {pools : AssocMap String ℕ}

theorem Build.categoryWeights_le {p : String × Miners}
    (h : b.categoryWeights pools p = .ok ws) : ∀ w ∈ ws, w.weight ≤ u16Max := by
  rw [categoryWeights] at h
  split_ifs at h with hskip
  · cases h
    simp
  · exact distributeCategoryWeight_le h

def categoryAllocation (pools : AssocMap String ℕ) (remainingWeight : ℕ) (p : String × Miners) :
    List (String × CategoryAllocation) :=
  if poolOf pools p.1 = 0 ∨ p.2 = [] then []
  else [(p.1, ⟨p.1, p.2.length, totalScore p.2, poolOf pools p.1, (poolOf pools p.1 : ℚ) / remainingWeight * 100⟩)]

theorem Build.distributeCategories_cons (p : String × Miners)
    (rest : List (String × Miners)) (all : Allocated) :
    b.distributeCategories pools remainingWeight (p :: rest) all = (do
      let ws ← b.categoryWeights pools p
      let weights ← addWeights code ws all.weights
      b.distributeCategories pools remainingWeight rest
        ⟨weights, all.categories ++ categoryAllocation pools remainingWeight p⟩) := by
  obtain ⟨category, miners⟩ := p
  rw [distributeCategories, categoryWeights, categoryAllocation]
  by_cases hskip : poolOf pools category = 0 ∨ miners = []
  · rw [if_pos hskip, if_pos hskip, append_nil]
    exact if_pos hskip
  · rw [if_neg hskip, if_neg hskip]
    exact if_neg hskip

variable {entries : List (String × Miners)} {all : Allocated}

theorem Build.distributeCategories_ok {ws : String × Miners → List NormalizedWeight}
    (hws : ∀ p ∈ entries, b.categoryWeights pools p = .ok (ws p))
    {added : List NormalizedWeight} (h : Tallied all.weights added) :
    ∃ all', b.distributeCategories pools remainingWeight entries all = .ok all' ∧
      Tallied all'.weights (added ++ entries.flatMap ws) ∧
      all'.categories = all.categories ++ entries.flatMap (categoryAllocation pools remainingWeight) := by
  induction entries generalizing all added with
  | nil => exact ⟨all, rfl, by simpa using h, by simp⟩
  | cons p rest ih =>
    have hp := hws p mem_cons_self
    have hle : ∀ w ∈ ws p, w.weight ≤ u16Max := categoryWeights_le hp
    obtain ⟨weights, hrun, hweights⟩ := h.addWeights hle
    obtain ⟨all', hall, htally, hcategories⟩ := @ih
      ⟨weights, all.categories ++ categoryAllocation pools remainingWeight p⟩
      (fun q hq => hws q (mem_cons_of_mem _ hq)) _ hweights
    refine ⟨all', ?_, ?_, ?_⟩
    · rw [distributeCategories_cons]
      exact (bind_ok_iff _ _ _).mpr ⟨ws p, hp, (bind_ok_iff _ _ _).mpr ⟨weights, hrun, hall⟩⟩
    · rwa [flatMap_cons, ← append_assoc]
    · rw [hcategories, flatMap_cons, append_assoc]

theorem Build.categoryWeights_of_ok {remainingWeight : ℕ} {all' : Allocated}
    (h : b.distributeCategories pools remainingWeight entries all = .ok all') :
    ∀ p ∈ entries, ∃ ws, b.categoryWeights pools p = .ok ws := by
  induction entries generalizing all with
  | nil => simp
  | cons q rest ih =>
    rw [distributeCategories_cons] at h
    obtain ⟨ws, hq, h⟩ := (bind_ok_iff _ _ _).mp h
    obtain ⟨weights, -, h⟩ := (bind_ok_iff _ _ _).mp h
    intro p hp
    rcases mem_cons.mp hp with rfl | hp
    · exact ⟨ws, hq⟩
    · exact ih h p hp

def SameTally (all all' : List NormalizedWeight) : Prop :=
  ∃ added added', Tallied all added ∧ Tallied all' added' ∧ added.Perm added'

theorem Build.distributeCategories_alike {pools' : AssocMap String ℕ}
    {entries' : List (String × Miners)} (hpools : pools.entries.Perm pools'.entries)
    (hentries : entries.Perm entries') :
    Alike (fun all all' => SameTally all.weights all'.weights ∧ all.categories.Perm all'.categories)
      (b.distributeCategories pools remainingWeight entries ⟨[], []⟩)
      (b.distributeCategories pools' remainingWeight entries' ⟨[], []⟩) := by
  have hpool (category : String) : poolOf pools category = poolOf pools' category := by
    rw [poolOf, poolOf, get?_of_perm hpools]
  have hweights : b.categoryWeights pools = b.categoryWeights pools' := by
    funext p
    simp only [categoryWeights, hpool]
  have hallocation : categoryAllocation pools remainingWeight = categoryAllocation pools' remainingWeight := by
    funext p
    simp only [categoryAllocation, hpool]
  by_cases hall : ∀ p ∈ entries, ∃ ws, b.categoryWeights pools p = .ok ws
  · choose! ws hws using hall
    have hws' : ∀ p ∈ entries', b.categoryWeights pools' p = .ok (ws p) := by
      intro p hp
      rw [← hweights]
      exact hws p (hentries.mem_iff.mpr hp)
    have hnil : Tallied (Allocated.mk [] []).weights [] := Tallied.nil
    obtain ⟨all, hrun, htally, hcategories⟩ := distributeCategories_ok remainingWeight hws hnil
    obtain ⟨all', hrun', htally', hcategories'⟩ := distributeCategories_ok remainingWeight hws' hnil
    rw [hrun, hrun']
    refine ⟨⟨_, _, htally, htally', hentries.flatMap_right ws⟩, ?_⟩
    rw [hcategories, hcategories', ← hallocation]
    exact hentries.flatMap_right _
  · apply alike_of_errors
    · intro all hrun
      exact hall (categoryWeights_of_ok hrun)
    · intro all hrun
      apply hall
      intro p hp
      rw [hweights]
      exact categoryWeights_of_ok hrun p (hentries.mem_iff.mp hp)

end Categories

section Burn

def emptySum (active : List String) (pools : List (String × ℕ)) : ℕ :=
  ((pools.filter (fun p => p.1 ∉ active)).map Prod.snd).sum

def Build.kept (n : ℕ) : Build → Option ℕ
  | checked => if n < 2 ^ 64 then some n else none
  | wrapping => some (n % 2 ^ 64)

theorem Build.kept_of_lt {n : ℕ} (h : n < 2 ^ 64) : b.kept n = some n := by
  cases b with
  | checked => exact if_pos h
  | wrapping => exact congrArg some (Nat.mod_eq_of_lt h)

theorem Build.burnEmpty_toOption (active : List String) (pools : List (String × ℕ)) {sum : ℕ}
    (hsum : sum < 2 ^ 64) : (b.burnEmpty active pools sum).toOption = b.kept (sum + emptySum active pools) := by
  induction pools generalizing sum with
  | nil => exact (kept_of_lt hsum).symm
  | cons p rest ih =>
    obtain ⟨category, pool⟩ := p
    by_cases hactive : category ∈ active
    · have hskip : emptySum active ((category, pool) :: rest) = emptySum active rest := by
        simp [emptySum, hactive]
      rw [burnEmpty, if_pos hactive, ih hsum, hskip]
    · have hadd : emptySum active ((category, pool) :: rest) = pool + emptySum active rest := by
        simp [emptySum, hactive]
      rw [burnEmpty, if_neg hactive, hadd, ← Nat.add_assoc]
      cases b with
      | checked =>
        by_cases hfits : sum + pool < 2 ^ 64
        · have hstep : checked.add 64 sum pool = .ok (sum + pool) := checkedAdd_eq_ok.mpr ⟨hfits, rfl⟩
          rw [hstep]
          exact ih hfits
        · have hstep : checked.add 64 sum pool = .error (.narrowed (sum + pool)) :=
            checkedAdd_eq_error.mpr ⟨Nat.le_of_not_lt hfits, rfl⟩
          rw [hstep]
          exact (if_neg (by omega)).symm
      | wrapping =>
        refine (ih (Nat.mod_lt (sum + pool) (by decide))).trans ?_
        exact congrArg some (Nat.mod_add_mod _ _ _)

theorem Build.burnEmpty_ok {active : AssocMap String Miners} {pools : AssocMap String ℕ}
    (hfits : emptyCategoryBurn active pools < 2 ^ 64) :
    b.burnEmpty active.keys pools.entries 0 = .ok (emptyCategoryBurn active pools) := by
  have hsum := @burnEmpty_toOption b active.keys pools.entries 0 (by decide)
  rw [Nat.zero_add] at hsum
  have hkept := hsum.trans (kept_of_lt hfits)
  cases hrun : b.burnEmpty active.keys pools.entries 0 with
  | error e =>
    rw [hrun] at hkept
    cases hkept
  | ok n =>
    rw [hrun] at hkept
    rw [Option.some.inj hkept]
    rfl

theorem alike_of_toOption {x x' : Except Failure ℕ} (h : x.toOption = x'.toOption) : Alike Eq x x' := by
  rcases x with e | n <;> rcases x' with e' | n'
  · exact trivial
  · cases h
  · cases h
  · exact Option.some.inj h

variable {active active' : List String} {pools pools' : List (String × ℕ)}

theorem emptySum_perm (hactive : active.Perm active') (hpools : pools.Perm pools') :
    emptySum active pools = emptySum active' pools' := by
  have hfilter : (fun p : String × ℕ => decide (p.1 ∉ active)) = fun p => decide (p.1 ∉ active') := by
    funext p
    simp only [hactive.mem_iff]
  rw [emptySum, emptySum, hfilter]
  exact ((hpools.filter _).map _).sum_eq

theorem Build.burnEmpty_alike (hactive : active.Perm active') (hpools : pools.Perm pools') :
    Alike Eq (b.burnEmpty active pools 0) (b.burnEmpty active' pools' 0) := by
  apply alike_of_toOption
  rw [burnEmpty_toOption _ _ (by decide), burnEmpty_toOption _ _ (by decide), emptySum_perm hactive hpools]

variable {all all' : List NormalizedWeight}

theorem SameTally.addBurn (h : SameTally all all') (cfg : EmissionConfig) (totalBurnWeight : ℕ) :
    Alike (fun x x' => SameTally x.1 x'.1 ∧ x.2 = x'.2) (addBurn code cfg totalBurnWeight all)
      (addBurn code cfg totalBurnWeight all') := by
  obtain ⟨added, added', htally, htally', hadded⟩ := h
  by_cases hpos : totalBurnWeight > 0
  · have hw : min totalBurnWeight u16Max ≤ u16Max := Nat.min_le_right _ _
    obtain ⟨ws, hws, hall⟩ := htally.addWeight (w := ⟨cfg.burnUid, min totalBurnWeight u16Max⟩) hw
    obtain ⟨ws', hws', hall'⟩ := htally'.addWeight (w := ⟨cfg.burnUid, min totalBurnWeight u16Max⟩) hw
    have hburn (xs ys : List NormalizedWeight)
        (h : addWeight code ⟨cfg.burnUid, min totalBurnWeight u16Max⟩ xs = .ok ys) :
        Weights.addBurn code cfg totalBurnWeight xs = .ok (ys, some ⟨cfg.burnUid,
          min totalBurnWeight u16Max, (totalBurnWeight : ℚ) / u16Max * 100⟩) := by
      rw [Weights.addBurn, if_pos hpos]
      exact (bind_ok_iff _ _ _).mpr ⟨_, rfl, (bind_ok_iff _ _ _).mpr ⟨ys, h, rfl⟩⟩
    rw [hburn all ws hws, hburn all' ws' hws']
    exact ⟨⟨_, _, hall, hall', hadded.append_right _⟩, rfl⟩
  · rw [Weights.addBurn, Weights.addBurn, if_neg hpos, if_neg hpos]
    exact ⟨⟨added, added', htally, htally', hadded⟩, rfl⟩

theorem validateAllocation_alike (h : SameTally all all') :
    Alike Eq (validateAllocation all) (validateAllocation all') := by
  obtain ⟨added, added', htally, htally', hadded⟩ := h
  have htotal : totalOf all = totalOf all' := ((htally.perm htally' hadded).map _).sum_eq
  have hnone : firstDuplicate all [] = none := firstDuplicate_none htally.nodup (by simp)
  have hnone' : firstDuplicate all' [] = none := firstDuplicate_none htally'.nodup (by simp)
  rw [validateAllocation, validateAllocation, htotal, hnone, hnone']
  exact alike_self _

end Burn

structure SameDistribution (d d' : WeightDistribution) : Prop where
  weights : d.weights.Perm d'.weights
  weightOf : ∀ uid, weightOf d.weights uid = weightOf d'.weights uid
  burnAllocation : d.burnAllocation = d'.burnAllocation
  categoryAllocations : d.categoryAllocations.Perm d'.categoryAllocations
  totalWeight : d.totalWeight = d'.totalWeight
  minersServed : d.minersServed = d'.minersServed

theorem distribution_ignores_walks (b : Build) (walks walks' : Walks) (cfg : EmissionConfig)
    {allocations : AssocMap String GpuAllocation} (hcfg : allocations.entries.Perm cfg.gpuAllocations.entries)
    {miners miners' : AssocMap String Miners} (hminers : miners.entries.Perm miners'.entries) :
    Alike SameDistribution (b.calculateWeightDistribution walks cfg miners)
      (b.calculateWeightDistribution walks' { cfg with gpuAllocations := allocations } miners') := by
  have hkept : (filterMinersByScore cfg miners).entries.Perm
      (filterMinersByScore { cfg with gpuAllocations := allocations } miners').entries := hminers.filter _
  have hfiltered : (walks.filtered (filterMinersByScore cfg miners)).entries.Perm
      (walks'.filtered (filterMinersByScore { cfg with gpuAllocations := allocations } miners')).entries :=
    (walks.filtered_perm _).trans (hkept.trans (walks'.filtered_perm _).symm)
  have hshares (remaining : ℕ) : (categoryPools64 cfg remaining).entries.Perm
      (categoryPools64 { cfg with gpuAllocations := allocations } remaining).entries :=
    (hcfg.symm.map _).map _
  have hpools (remaining : ℕ) : (walks.pools (categoryPools64 cfg remaining)).entries.Perm
      (walks'.pools (categoryPools64 { cfg with gpuAllocations := allocations } remaining)).entries :=
    (walks.pools_perm _).trans ((hshares remaining).trans (walks'.pools_perm _).symm)
  apply Alike.bind (alike_self _)
  rintro burn _ rfl
  apply Alike.bind (alike_self _)
  rintro remaining _ rfl
  apply (burnEmpty_alike (hfiltered.map Prod.fst) (hpools remaining)).bind
  rintro empty _ rfl
  apply (distributeCategories_alike remaining (hpools remaining) hfiltered).bind
  rintro all all' ⟨htally, hcategories⟩
  apply Alike.bind (alike_self _)
  rintro total _ rfl
  apply (htally.addBurn cfg total).bind
  rintro ⟨weights, allocation⟩ ⟨weights', _⟩ ⟨hweights, rfl⟩
  apply (validateAllocation_alike hweights).bind
  rintro _ _ -
  obtain ⟨added, added', hadded, hadded', hperm⟩ := hweights
  have hall := hadded.perm hadded' hperm
  rw [hall.length_eq]
  apply Alike.bind (alike_self _)
  rintro served _ rfl
  exact ⟨hall, weightOf_perm hadded.nodup hall, rfl, hcategories, rfl, rfl⟩

theorem distribution_ignores_walks_sample :
    Alike SameDistribution (Build.wrapping.calculateWeightDistribution Walks.inOrder sampleConfig sampleMiners)
      (Build.wrapping.calculateWeightDistribution Walks.backwards
        { sampleConfig with gpuAllocations := ⟨sampleConfig.gpuAllocations.entries.reverse, by decide⟩ }
        ⟨sampleMiners.entries.reverse, by decide⟩) :=
  distribution_ignores_walks .wrapping Walks.inOrder Walks.backwards sampleConfig (reverse_perm _)
    (reverse_perm _).symm

section InOrder

theorem shareOut_checked (pool : ℕ) (total : ℚ) (miners : Miners) (allocated : ℕ) :
    checked.shareOut pool total miners allocated = shareOut code pool total miners allocated := by
  induction miners generalizing allocated with
  | nil => rfl
  | cons m rest ih =>
    obtain ⟨uid, score⟩ := m
    rw [Build.shareOut, shareOut]
    simp only [ih]
    rfl

theorem distributeCategoryWeight_checked (miners : Miners) (pool : ℕ) :
    checked.distributeCategoryWeight miners pool = distributeCategoryWeight code miners pool := by
  rw [Build.distributeCategoryWeight, distributeCategoryWeight, shareOut_checked]

theorem distributeCategories_checked
    (entries : List (String × Miners)) (all : Allocated) :
    checked.distributeCategories pools remainingWeight entries all =
      distributeCategories code pools remainingWeight entries all := by
  induction entries generalizing all with
  | nil => rfl
  | cons p rest ih =>
    obtain ⟨category, miners⟩ := p
    rw [Build.distributeCategories, distributeCategories]
    simp only [ih, distributeCategoryWeight_checked]

variable {cfg : EmissionConfig}

theorem burnWeight_le {totalWeight : ℕ} {burn : Option BurnAllocation}
    (h : calculateBurnAllocation code cfg totalWeight = .ok burn) :
    (burn.map BurnAllocation.weight).getD 0 ≤ u16Max := by
  rw [calculateBurnAllocation] at h
  split_ifs at h with hnone
  · cases h
    exact Nat.zero_le _
  · obtain ⟨weight, hweight, h⟩ := (bind_ok_iff _ _ _).mp h
    cases hweight
    split_ifs at h with hzero
    · cases h
      exact Nat.zero_le _
    · cases h
      exact Nat.min_le_right _ _

theorem categoryPools64_eq {remaining : ℕ} (hfits : (calculateAllCategoryPools cfg remaining).values.sum < 2 ^ 64) :
    categoryPools64 cfg remaining = calculateAllCategoryPools cfg remaining := by
  apply eq_of_entries
  refine (map_congr_left ?_).trans (map_id _)
  intro p hp
  have hle := single_le_sum (fun _ _ => Nat.zero_le _) _
    (mem_map_of_mem (f := Prod.snd) hp)
  have hlt : p.2 < 2 ^ 64 := lt_of_le_of_lt hle hfits
  exact Prod.ext rfl (Nat.min_eq_right (by omega))

theorem emptyCategoryBurn_le (active : AssocMap String Miners) (pools : AssocMap String ℕ) :
    emptyCategoryBurn active pools ≤ pools.values.sum :=
  (filter_sublist.map Prod.snd).sum_le_sum (fun _ _ => Nat.zero_le _)

theorem calculateWeightDistribution_checked (cfg : EmissionConfig) (miners : AssocMap String Miners)
    (hfits : ∀ remaining ≤ u16Max, (calculateAllCategoryPools cfg remaining).values.sum + u16Max < 2 ^ 64) :
    checked.calculateWeightDistribution Walks.inOrder cfg miners = calculateWeightDistribution cfg miners := by
  apply bind_congr_ok
  intro burn hburn
  apply bind_congr_ok
  intro remaining hremaining
  have hle := burnWeight_le hburn
  obtain ⟨-, hsub⟩ := checkedSub_eq_ok.mp hremaining
  have hsum := hfits remaining (by omega)
  have hempty := emptyCategoryBurn_le (filterMinersByScore cfg miners) (calculateAllCategoryPools cfg remaining)
  have hburnEmpty : checked.burnEmpty (filterMinersByScore cfg miners).keys
      (calculateAllCategoryPools cfg remaining).entries 0 =
        .ok (emptyCategoryBurn (filterMinersByScore cfg miners) (calculateAllCategoryPools cfg remaining)) :=
    burnEmpty_ok (by omega)
  have hadd : checked.add 64 ((burn.map BurnAllocation.weight).getD 0)
      (emptyCategoryBurn (filterMinersByScore cfg miners) (calculateAllCategoryPools cfg remaining)) = .ok _ :=
    checkedAdd_eq_ok.mpr ⟨by omega, rfl⟩
  dsimp only [Walks.inOrder, id]
  rw [categoryPools64_eq (by omega), hburnEmpty, distributeCategories_checked]
  change (distributeCategories _ _ _ _ _ >>= _) = _
  apply bind_congr_ok
  intro all _
  rw [hadd]
  rfl

/-- With shares that add up to a hundred and scores that are not negative, no sum and no difference overflows. -/
theorem allocated_distribution_checked (cfg : EmissionConfig) (hburn : 0 ≤ cfg.burnPercentage ∧ cfg.burnPercentage ≤ 100)
    (hweights : ∀ a ∈ cfg.gpuAllocations.values, 0 ≤ a.weight)
    (hsum : (cfg.gpuAllocations.values.map GpuAllocation.weight).sum = 100) (miners : AssocMap String Miners)
    (hscores : ∀ l ∈ miners.values, ∀ m ∈ l, 0 ≤ m.2) :
    ∃ d, checked.calculateWeightDistribution Walks.inOrder cfg miners = .ok d ∧ calculateWeightDistribution cfg miners = .ok d := by
  obtain ⟨burn, d, -, hd, -⟩ := distribution_returns hburn.2 (pools_sum_le hweights hsum (u16Max - burnedOf cfg)) hscores
  refine ⟨d, ?_, hd _ Narrowing.code_exact⟩
  rw [calculateWeightDistribution_checked]
  · exact hd _ Narrowing.code_exact
  · intro remaining hremaining
    have hpools := pools_sum_le hweights hsum remaining
    have hmax : u16Max = 65535 := rfl
    omega

theorem sample_distribution_checked : ∃ d, checked.calculateWeightDistribution Walks.inOrder sampleConfig sampleMiners = .ok d ∧
    calculateWeightDistribution sampleConfig sampleMiners = .ok d :=
  allocated_distribution_checked sampleConfig (by norm_num [sampleConfig]) (by simp [sampleConfig, AssocMap.values])
    (by norm_num [sampleConfig, AssocMap.values]) sampleMiners sampleMiners_scores

end InOrder

end Basilica.Weights
