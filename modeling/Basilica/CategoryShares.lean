import Basilica.WeightAllocation

namespace Basilica.Weights

open AssocMaps CheckedSteps List

def Narrowing.Exact (cast : Narrowing) : Prop :=
  ∀ n, n ≤ u16Max → cast.clamp n = .ok n ∧ cast.wrap n = .ok n

theorem Narrowing.code_exact : Narrowing.code.Exact := by
  intro n hn
  have hlt : n < u16Max + 1 := by omega
  simp only [Narrowing.code, Nat.min_eq_left hn, Nat.mod_eq_of_lt hlt, and_self]

theorem Narrowing.refuse_exact : Narrowing.refuse.Exact := by
  intro n hn
  simp only [Narrowing.refuse, hn, ↓reduceIte, and_self]

def Returns {α : Type} (f : Narrowing → Except Failure α) (a : α) : Prop :=
  ∀ cast, cast.Exact → f cast = .ok a

variable {α : Type}

theorem Returns.bind {β : Type} {f : Narrowing → Except Failure α} {g : Narrowing → α → Except Failure β}
    {a : α} {b : β} (hf : Returns f a) (hg : Returns (fun cast => g cast a) b) :
    Returns (fun cast => f cast >>= g cast) b := by
  intro cast hcast
  exact (bind_ok_iff _ _ _).mpr ⟨a, hf cast hcast, hg cast hcast⟩

theorem returns_ok (a : α) : Returns (fun _ => .ok a) a := fun _ _ => rfl

theorem totalOf_cons (w : NormalizedWeight) (ws : List NormalizedWeight) :
    totalOf (w :: ws) = w.weight + totalOf ws := by
  simp [totalOf]

theorem totalScore_cons (m : UInt16 × ℚ) (miners : Miners) : totalScore (m :: miners) = m.2 + totalScore miners := by
  simp [totalScore]

theorem totalScore_nonneg {miners : Miners} (h : ∀ m ∈ miners, 0 ≤ m.2) : 0 ≤ totalScore miners := by
  apply sum_nonneg
  intro x hx
  obtain ⟨m, hm, rfl⟩ := mem_map.mp hx
  exact h m hm

theorem sum_floor_le {ι : Type} (l : List ι) (f : ι → ℚ) (hf : ∀ i ∈ l, 0 ≤ f i) :
    ((l.map (fun i => ⌊f i⌋₊)).sum : ℚ) ≤ (l.map f).sum := by
  induction l with
  | nil => simp
  | cons i l ih =>
    have hi := Nat.floor_le (hf i mem_cons_self)
    have hl := ih (fun j hj => hf j (mem_cons_of_mem _ hj))
    simp only [map_cons, sum_cons, Nat.cast_add]
    exact add_le_add hi hl

section Category

variable {pool : ℕ} {miners : Miners} {total score : ℚ} {uid : UInt16} {rest : Miners} {allocated w : ℕ}
  {ws : List NormalizedWeight}

theorem shareOut_of_clamp {cast : Narrowing} {n : ℕ} (hw : minerWeight pool total score (rest = []) allocated = .ok w)
    (hn : cast.clamp w = .ok n) (hrest : shareOut cast pool total rest (allocated + n) = .ok ws) :
    shareOut cast pool total ((uid, score) :: rest) allocated = .ok (if n > 0 then ⟨uid, n⟩ :: ws else ws) := by
  rw [shareOut, hw]
  refine (bind_ok_iff _ _ _).mpr ⟨w, rfl, (bind_ok_iff _ _ _).mpr ⟨n, hn, ?_⟩⟩
  by_cases hpos : n > 0
  · rw [if_pos hpos, if_pos hpos]
    exact (bind_ok_iff _ _ _).mpr ⟨ws, hrest, rfl⟩
  · obtain rfl : n = 0 := by omega
    exact hrest

theorem shareOut_cons (hw : minerWeight pool total score (rest = []) allocated = .ok w) (hle : w ≤ u16Max)
    (hrest : Returns (fun cast => shareOut cast pool total rest (allocated + w)) ws) :
    Returns (fun cast => shareOut cast pool total ((uid, score) :: rest) allocated)
      (if w > 0 then ⟨uid, w⟩ :: ws else ws) := by
  intro cast hcast
  exact shareOut_of_clamp hw (hcast w hle).1 (hrest cast hcast)

theorem totalOf_shared (uid : UInt16) (w : ℕ) (ws : List NormalizedWeight) :
    totalOf (if w > 0 then ⟨uid, w⟩ :: ws else ws) = w + totalOf ws := by
  by_cases hpos : w > 0
  · rw [if_pos hpos, totalOf_cons]
  · rw [if_neg hpos]
    omega

theorem shareOut_returns (hpool : pool ≤ u16Max) (htotal : 0 < total) (hne : miners ≠ [])
    (hscores : ∀ m ∈ miners, 0 ≤ m.2)
    (hshare : (allocated : ℚ) + pool * totalScore miners / total ≤ pool) :
    ∃ ws, Returns (fun cast => shareOut cast pool total miners allocated) ws ∧
      totalOf ws + allocated = pool := by
  -- What is handed out so far and the exact shares of the miners to come fit in the pool.
  induction miners generalizing allocated with
  | nil => exact absurd rfl hne
  | cons m rest ih =>
    obtain ⟨uid, score⟩ := m
    have hscore : 0 ≤ score := hscores _ mem_cons_self
    have hscores' : ∀ m ∈ rest, 0 ≤ m.2 := fun m hm => hscores m (mem_cons_of_mem _ hm)
    have hfirst : 0 ≤ (pool : ℚ) * score / total := by positivity
    have hothers : 0 ≤ (pool : ℚ) * totalScore rest / total := by
      have := totalScore_nonneg hscores'
      positivity
    have hsplit : (pool : ℚ) * totalScore ((uid, score) :: rest) / total =
        pool * score / total + pool * totalScore rest / total := by
      rw [totalScore_cons]
      ring
    rw [hsplit] at hshare
    by_cases hrest : rest = []
    · have hle : allocated ≤ pool := by
        have : (allocated : ℚ) ≤ pool := by linarith
        exact_mod_cast this
      have hw : minerWeight pool total score (rest = []) allocated = .ok (pool - allocated) := by
        simp only [minerWeight, hrest, decide_true, ↓reduceIte]
        exact checkedSub_eq_ok.mpr ⟨hle, rfl⟩
      have hlast : Returns (fun cast => shareOut cast pool total rest (allocated + (pool - allocated))) [] := by
        rw [hrest]
        exact returns_ok []
      refine ⟨_, shareOut_cons hw (by omega) hlast, ?_⟩
      rw [totalOf_shared]
      simp only [totalOf, map_nil, sum_nil]
      omega
    · have hfloor := Nat.floor_le hfirst
      have hle : ⌊(pool : ℚ) * score / total⌋₊ ≤ pool := by
        have : ((⌊(pool : ℚ) * score / total⌋₊ : ℕ) : ℚ) ≤ pool := by
          have h0 : (0 : ℚ) ≤ allocated := Nat.cast_nonneg _
          linarith
        exact_mod_cast this
      have hshare' : ((allocated + ⌊(pool : ℚ) * score / total⌋₊ : ℕ) : ℚ) +
          pool * totalScore rest / total ≤ pool := by
        push_cast
        linarith
      obtain ⟨ws, hws, hsum⟩ := ih hrest hscores' hshare'
      have hw : minerWeight pool total score (rest = []) allocated =
          .ok ⌊(pool : ℚ) * score / total⌋₊ := by
        simp only [minerWeight, hrest, decide_false, Bool.false_eq_true, ↓reduceIte]
      refine ⟨_, shareOut_cons hw (hle.trans hpool) hws, ?_⟩
      rw [totalOf_shared]
      omega

theorem distributeEqually_returns (hpool : pool ≤ u16Max) (hne : miners ≠ []) :
    ∃ ws, Returns (fun cast => distributeEqually cast miners pool) ws ∧
      totalOf ws + pool % miners.length = pool := by
  refine ⟨if pool / miners.length > 0 then miners.map (fun m => ⟨m.1, pool / miners.length⟩) else [], ?_, ?_⟩
  · intro cast hcast
    beta_reduce
    rw [distributeEqually, if_neg hne]
    exact (bind_ok_iff _ _ _).mpr ⟨_, (hcast _ ((Nat.div_le_self _ _).trans hpool)).2, rfl⟩
  · have hdiv := Nat.div_add_mod pool miners.length
    by_cases hpos : pool / miners.length > 0
    · rw [if_pos hpos]
      have hsum : totalOf (miners.map (fun m => ⟨m.1, pool / miners.length⟩)) =
          miners.length * (pool / miners.length) := by
        simp [totalOf, Function.comp_def]
      omega
    · rw [if_neg hpos]
      have h0 : pool / miners.length = 0 := Nat.eq_zero_of_not_pos hpos
      rw [h0, Nat.mul_zero, Nat.zero_add] at hdiv
      simpa [totalOf] using hdiv

def lost (miners : Miners) (pool : ℕ) : ℕ :=
  if miners = [] then pool else if totalScore miners = 0 then pool % miners.length else 0

theorem distributeCategoryWeight_returns (hpool : pool ≤ u16Max) (hscores : ∀ m ∈ miners, 0 ≤ m.2) :
    ∃ ws, Returns (fun cast => distributeCategoryWeight cast miners pool) ws ∧
      totalOf ws + lost miners pool = pool := by
  have hnonneg := totalScore_nonneg hscores
  by_cases hne : miners = []
  · refine ⟨[], ?_, by simp [totalOf, lost, hne]⟩
    intro cast _
    beta_reduce
    rw [distributeCategoryWeight, if_pos hne]
  · by_cases hzero : totalScore miners = 0
    · obtain ⟨ws, hws, hsum⟩ := distributeEqually_returns hpool hne
      refine ⟨ws, ?_, ?_⟩
      · intro cast hcast
        beta_reduce
        rw [distributeCategoryWeight, if_neg hne, if_pos hzero.le]
        exact hws cast hcast
      · rwa [lost, if_neg hne, if_pos hzero]
    · have hpos : 0 < totalScore miners := lt_of_le_of_ne hnonneg (Ne.symm hzero)
      have hshare : ((0 : ℕ) : ℚ) + pool * totalScore miners / totalScore miners ≤ pool := by
        rw [mul_div_assoc, div_self hzero, mul_one, Nat.cast_zero, zero_add]
      obtain ⟨ws, hws, hsum⟩ := shareOut_returns hpool hpos hne hscores hshare
      refine ⟨ws, ?_, ?_⟩
      · intro cast hcast
        beta_reduce
        rw [distributeCategoryWeight, if_neg hne, if_neg (not_le.mpr hpos)]
        exact hws cast hcast
      · rwa [lost, if_neg hne, if_neg hzero]

end Category

end Basilica.Weights
