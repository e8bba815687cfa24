import Basilica.CategoryShares

/-!
What each position of a category's list is given: the floor of its share, and at the last position what
the others leave of the pool.
-/

namespace Basilica.Weights

open AssocMaps CheckedSteps List

def weightOf (weights : List NormalizedWeight) (uid : UInt16) : ℕ :=
  ((weights.find? (fun w => w.uid = uid)).map NormalizedWeight.weight).getD 0

def listed : List (UInt16 × ℕ) → List NormalizedWeight
  | [] => []
  | (uid, w) :: rest => if w > 0 then ⟨uid, w⟩ :: listed rest else listed rest

def floorShare (pool : ℕ) (total : ℚ) (m : UInt16 × ℚ) : ℕ := ⌊(pool : ℚ) * m.2 / total⌋₊

def clipped (pool : ℕ) (total : ℚ) (m : UInt16 × ℚ) : ℕ := min (floorShare pool total m) u16Max

variable {l : List (UInt16 × ℕ)}

theorem uid_mem_of_listed {w : NormalizedWeight} (h : w ∈ listed l) : w.uid ∈ l.map Prod.fst := by
  induction l with
  | nil => cases h
  | cons p rest ih =>
    obtain ⟨uid, n⟩ := p
    rw [listed] at h
    split_ifs at h with hn
    · rcases mem_cons.mp h with rfl | h
      · exact mem_cons_self
      · exact mem_cons_of_mem _ (ih h)
    · exact mem_cons_of_mem _ (ih h)

variable {uid : UInt16}

theorem weightOf_listed (hnodup : (l.map Prod.fst).Nodup) {w : ℕ} (h : (uid, w) ∈ l) : weightOf (listed l) uid = w := by
  induction l with
  | nil => cases h
  | cons p rest ih =>
    obtain ⟨uid', n⟩ := p
    obtain ⟨hfresh, hrest⟩ := nodup_cons.mp hnodup
    rcases mem_cons.mp h with heq | h
    · cases heq
      have hnone : (listed rest).find? (fun w => decide (w.uid = uid)) = none := by
        rw [find?_eq_none]
        intro x hx heq
        have hxuid : x.uid = uid := by simpa using heq
        exact hfresh (hxuid ▸ uid_mem_of_listed hx)
      by_cases hw : w > 0
      · simp [listed, weightOf, hw]
      · obtain rfl : w = 0 := by omega
        simp [listed, weightOf, hnone]
    · have hne : uid' ≠ uid := by
        rintro rfl
        exact hfresh (mem_map.mpr ⟨_, h, rfl⟩)
      have hskip : weightOf (listed ((uid', n) :: rest)) uid = weightOf (listed rest) uid := by
        by_cases hn : n > 0 <;> simp [listed, weightOf, hn, hne]
      rw [hskip]
      exact ih hrest h

variable {pool : ℕ} {m : UInt16 × ℚ} {total : ℚ}

section Split

variable {allocated : ℕ}

theorem shareOut_clamps {score : ℚ} {rest : Miners} {w : ℕ}
    {ws : List (UInt16 × ℕ)} (hw : minerWeight pool total score (rest = []) allocated = .ok w)
    (hrest : shareOut Narrowing.code pool total rest (allocated + min w u16Max) = .ok (listed ws)) :
    shareOut Narrowing.code pool total ((uid, score) :: rest) allocated =
      .ok (listed ((uid, min w u16Max) :: ws)) :=
  shareOut_of_clamp hw rfl hrest

theorem shareOut_listed (init : Miners) (last : UInt16 × ℚ)
    (hfits : allocated + (init.map (clipped pool total)).sum ≤ pool) :
    shareOut Narrowing.code pool total (init ++ [last]) allocated =
      .ok (listed (init.map (fun m => (m.1, clipped pool total m)) ++
        [(last.1, min (pool - (allocated + (init.map (clipped pool total)).sum)) u16Max)])) := by
  induction init generalizing allocated with
  | nil =>
    obtain ⟨uid, score⟩ := last
    have hle : allocated ≤ pool := by simpa using hfits
    have hw : minerWeight pool total score (decide (([] : Miners) = [])) allocated = .ok (pool - allocated) := by
      simp only [minerWeight, decide_true, ↓reduceIte]
      exact checkedSub_eq_ok.mpr ⟨hle, rfl⟩
    have hnil : shareOut Narrowing.code pool total [] (allocated + min (pool - allocated) u16Max) = .ok (listed []) := rfl
    simpa using shareOut_clamps hw hnil
  | cons m rest ih =>
    obtain ⟨uid, score⟩ := m
    simp only [map_cons, sum_cons, cons_append] at hfits ⊢
    have hfits' : allocated + clipped pool total (uid, score) + (rest.map (clipped pool total)).sum ≤ pool := by
      omega
    have hrest := ih hfits'
    rw [Nat.add_assoc] at hrest
    have hw : minerWeight pool total score (decide (rest ++ [last] = [])) allocated =
        .ok (floorShare pool total (uid, score)) := by
      simp [minerWeight, floorShare]
    exact shareOut_clamps hw hrest

theorem clipped_le (m : UInt16 × ℚ) : clipped pool total m ≤ floorShare pool total m := Nat.min_le_left _ _

theorem sum_clipped_le (miners : Miners) :
    (miners.map (clipped pool total)).sum ≤ (miners.map (floorShare pool total)).sum :=
  sum_le_sum (fun m _ => clipped_le m)

theorem floorShare_mono (htotal : 0 < total) {m' : UInt16 × ℚ} (h : m.2 ≤ m'.2) :
    floorShare pool total m ≤ floorShare pool total m' := by
  apply Nat.floor_le_floor
  gcongr

end Split

variable {last : UInt16 × ℚ}

section Category

variable {miners init : Miners}

theorem sum_shares (hpos : 0 < totalScore miners) :
    (miners.map (fun m => (pool : ℚ) * m.2 / totalScore miners)).sum = pool := by
  have hsum (total : ℚ) (l : Miners) :
      (l.map (fun m => (pool : ℚ) * m.2 / total)).sum = pool * totalScore l / total := by
    induction l with
    | nil => simp [totalScore]
    | cons m l ih =>
      rw [map_cons, sum_cons, ih, totalScore_cons]
      ring
  rw [hsum, mul_div_assoc, div_self hpos.ne', mul_one]

theorem sum_floorShare_le (hscores : ∀ m ∈ miners, 0 ≤ m.2) (hpos : 0 < totalScore miners) :
    (miners.map (floorShare pool (totalScore miners))).sum ≤ pool := by
  have hfloors := sum_floor_le miners (fun m => (pool : ℚ) * m.2 / totalScore miners)
    (fun m hm => by have := hscores m hm; positivity)
  rw [sum_shares hpos] at hfloors
  exact_mod_cast hfloors

theorem sum_lt_floor_add {ι : Type} {l : List ι} (hne : l ≠ []) (f : ι → ℚ) :
    (l.map f).sum < ((l.map (fun i => ⌊f i⌋₊)).sum + l.length : ℕ) := by
  induction l with
  | nil => exact absurd rfl hne
  | cons i l ih =>
    have hi := Nat.lt_floor_add_one (f i)
    by_cases hl : l = []
    · subst hl
      simpa using hi
    · have hrest := ih hl
      simp only [map_cons, sum_cons, length_cons]
      push_cast at hrest ⊢
      linarith

theorem lt_sum_floorShare_add (hpos : 0 < totalScore miners) :
    pool < (miners.map (floorShare pool (totalScore miners))).sum + miners.length := by
  have hne : miners ≠ [] := by
    rintro rfl
    simp [totalScore] at hpos
  have hlt := sum_lt_floor_add hne (fun m => (pool : ℚ) * m.2 / totalScore miners)
  rw [sum_shares hpos] at hlt
  exact_mod_cast hlt

def remaining (pool : ℕ) (total : ℚ) (init : Miners) : ℕ :=
  min (pool - (init.map (clipped pool total)).sum) u16Max

def positions (pool : ℕ) (total : ℚ) (init : Miners) (last : UInt16 × ℚ) : List (UInt16 × ℕ) :=
  init.map (fun m => (m.1, clipped pool total m)) ++ [(last.1, remaining pool total init)]

theorem positions_uids (total : ℚ) : (positions pool total init last).map Prod.fst = (init ++ [last]).map Prod.fst := by
  simp [positions]

theorem positions_eq_zip (total : ℚ) : positions pool total init last = ((init ++ [last]).map Prod.fst).zip
      (init.map (clipped pool total) ++ [remaining pool total init]) := by
  rw [map_append, map_singleton, zip_append (by simp), zip_map']
  rfl

section

variable (hscores : ∀ m ∈ init ++ [last], 0 ≤ m.2)

include hscores

variable (hpos : 0 < totalScore (init ++ [last]))

include hpos

theorem sum_init_add_le :
    (init.map (floorShare pool (totalScore (init ++ [last])))).sum +
      floorShare pool (totalScore (init ++ [last])) last ≤ pool := by
  have hle : ((init ++ [last]).map (floorShare pool (totalScore (init ++ [last])))).sum ≤ pool :=
    sum_floorShare_le hscores hpos
  simpa using hle

theorem distributeCategoryWeight_listed :
    distributeCategoryWeight Narrowing.code (init ++ [last]) pool =
      .ok (listed (positions pool (totalScore (init ++ [last])) init last)) := by
  have hne : init ++ [last] ≠ [] := by simp
  have hfits : 0 + (init.map (clipped pool (totalScore (init ++ [last])))).sum ≤ pool := by
    have hle : _ ≤ pool := sum_init_add_le hscores hpos
    have hclipped := @sum_clipped_le pool (totalScore (init ++ [last])) init
    omega
  rw [distributeCategoryWeight, if_neg hne, if_neg (not_le.mpr hpos), shareOut_listed init last hfits]
  rw [Nat.zero_add]
  rfl

theorem clipped_last_le : clipped pool (totalScore (init ++ [last])) last ≤
      remaining pool (totalScore (init ++ [last])) init := by
  have hle : _ ≤ pool := sum_init_add_le hscores hpos
  have hclipped := @sum_clipped_le pool (totalScore (init ++ [last])) init
  unfold remaining
  unfold clipped at hclipped ⊢
  omega

end

theorem floorShare_le (hscores : ∀ m ∈ miners, 0 ≤ m.2) (hpos : 0 < totalScore miners)
    (hm : m ∈ miners) : floorShare pool (totalScore miners) m ≤ pool := by
  have hle : _ ≤ pool := sum_floorShare_le hscores hpos
  have hsingle := single_le_sum (l := miners.map (floorShare pool (totalScore miners)))
    (fun _ _ => Nat.zero_le _) _ (mem_map_of_mem hm)
  omega

theorem clipped_eq (hpool : pool ≤ u16Max) (hscores : ∀ m ∈ miners, 0 ≤ m.2) (hpos : 0 < totalScore miners)
    (hm : m ∈ miners) : clipped pool (totalScore miners) m = floorShare pool (totalScore miners) m := by
  have hle : _ ≤ pool := floorShare_le hscores hpos hm
  exact Nat.min_eq_left (hle.trans hpool)

theorem remaining_eq (hpool : pool ≤ u16Max) (hscores : ∀ m ∈ init ++ [last], 0 ≤ m.2)
    (hpos : 0 < totalScore (init ++ [last])) :
    ∃ d < (init ++ [last]).length, remaining pool (totalScore (init ++ [last])) init =
      floorShare pool (totalScore (init ++ [last])) last + d := by
  have hle : _ ≤ pool := sum_init_add_le hscores hpos
  have hlt : pool < _ := lt_sum_floorShare_add hpos
  have hfloors : init.map (clipped pool (totalScore (init ++ [last]))) =
      init.map (floorShare pool (totalScore (init ++ [last]))) :=
    map_congr_left (fun m hm => clipped_eq hpool hscores hpos (mem_append_left _ hm))
  rw [remaining, hfloors]
  simp only [map_append, sum_append, map_singleton, sum_singleton] at hlt
  refine ⟨pool - ((init.map (floorShare pool (totalScore (init ++ [last])))).sum +
    floorShare pool (totalScore (init ++ [last])) last), by omega, by omega⟩

end Category

structure Splits (pool : ℕ) (miners : Miners) (ws : List ℕ) : Prop where
  run : distributeCategoryWeight Narrowing.code miners pool = .ok (listed ((miners.map Prod.fst).zip ws))
  size : ws.length = miners.length
  floors : ∀ i m, miners[i]? = some m → i + 1 < miners.length →
    ws[i]? = some ⌊(pool : ℚ) * m.2 / totalScore miners⌋₊
  leftover : ∀ m, miners.getLast? = some m → ∃ d < miners.length,
    ws.getLast? = some (⌊(pool : ℚ) * m.2 / totalScore miners⌋₊ + d)

variable {miners : Miners}

theorem exists_init_last (hpos : 0 < totalScore miners) : ∃ init last, miners = init ++ [last] := by
  have hne : miners ≠ [] := by
    rintro rfl
    simp [totalScore] at hpos
  exact ⟨miners.dropLast, miners.getLast hne, (dropLast_append_getLast hne).symm⟩

theorem exists_splits (hpool : pool ≤ u16Max) (hscores : ∀ m ∈ miners, 0 ≤ m.2)
    (hpos : 0 < totalScore miners) : ∃ ws, Splits pool miners ws := by
  obtain ⟨init, last, rfl⟩ := exists_init_last hpos
  have hrun : distributeCategoryWeight Narrowing.code _ pool = _ := distributeCategoryWeight_listed hscores hpos
  rw [positions_eq_zip] at hrun
  refine ⟨_, hrun, by simp, ?_, ?_⟩
  · intro i m hm hi
    rw [length_append, length_singleton] at hi
    rw [getElem?_append_left (by omega)] at hm
    have hmem : m ∈ init ++ [last] := mem_append_left _ (mem_of_getElem? hm)
    rw [getElem?_append_left (by simpa using hi), getElem?_map, hm, Option.map_some, clipped_eq hpool hscores hpos hmem]
    rfl
  · intro m hm
    obtain rfl : last = m := by simpa using hm
    obtain ⟨d, hd, heq⟩ := remaining_eq hpool hscores hpos
    refine ⟨d, hd, ?_⟩
    rw [getLast?_concat, heq]
    rfl

variable {s : ℚ}

theorem floorShare_grows {s' others : ℚ} (uid : UInt16) (hle : s ≤ s') (hothers : 0 ≤ others) (hpos : 0 < s + others) :
    floorShare pool (s + others) (uid, s) ≤ floorShare pool (s' + others) (uid, s') := by
  apply Nat.floor_le_floor
  have hpos' : 0 < s' + others := by linarith
  rw [div_le_div_iff₀ hpos hpos']
  have hpool : (0 : ℚ) ≤ pool := Nat.cast_nonneg _
  nlinarith [mul_nonneg hpool (mul_nonneg (sub_nonneg.mpr hle) hothers)]

variable {i : ℕ}

theorem totalScore_set (hi : i < miners.length) (uid : UInt16) (s : ℚ) :
    totalScore (miners.set i (uid, s)) = s + totalScore (miners.set i (uid, 0)) := by
  induction miners generalizing i with
  | nil => simp at hi
  | cons m rest ih =>
    cases i with
    | zero => simp [totalScore]
    | succ i =>
      have hrest := ih (Nat.lt_of_succ_lt_succ hi)
      rw [set_cons_succ, set_cons_succ, totalScore_cons, totalScore_cons, hrest]
      ring

theorem scores_set (hscores : ∀ m ∈ miners, 0 ≤ m.2) (hs : 0 ≤ s) : ∀ m ∈ miners.set i (uid, s), 0 ≤ m.2 := by
  intro m hm
  rcases mem_or_eq_of_mem_set hm with hm | rfl
  · exact hscores m hm
  · exact hs

theorem category_splits_at_floors {pool : ℕ} (hpool : pool ≤ u16Max) {miners : Miners}
    (hscores : ∀ m ∈ miners, 0 ≤ m.2) (hpos : 0 < totalScore miners) : ∃ ws, Splits pool miners ws ∧
      ∀ i uid s s', miners[i]? = some (uid, s) → i + 1 < miners.length → s ≤ s' →
        ∃ ws', Splits pool (miners.set i (uid, s')) ws' ∧
          ∃ w w', ws[i]? = some w ∧ ws'[i]? = some w' ∧ w ≤ w' := by
  obtain ⟨ws, hws⟩ := exists_splits hpool hscores hpos
  refine ⟨ws, hws, ?_⟩
  intro i uid s s' hm hi hle
  have hs : 0 ≤ s := hscores _ (mem_of_getElem? hm)
  have hlt : i < miners.length := by omega
  have hothers : 0 ≤ totalScore (miners.set i (uid, 0)) := totalScore_nonneg (scores_set hscores le_rfl)
  have hself : miners.set i (uid, s) = miners := by
    obtain ⟨_, hget⟩ := List.getElem?_eq_some_iff.mp hm
    rw [← hget, set_getElem_self]
  have htotal : totalScore miners = s + totalScore (miners.set i (uid, 0)) := by
    rw [← totalScore_set hlt uid s, hself]
  have htotal' := totalScore_set hlt uid s'
  have hpos' : 0 < totalScore (miners.set i (uid, s')) := by linarith
  obtain ⟨ws', hws'⟩ := exists_splits hpool (scores_set hscores (hs.trans hle)) hpos'
  refine ⟨ws', hws', _, _, hws.floors i _ hm hi,
    hws'.floors i (uid, s') (List.getElem?_set_self hlt) (by rwa [length_set]), ?_⟩
  rw [htotal']
  have hgrows : floorShare pool _ (uid, s) ≤ _ := floorShare_grows uid hle hothers (htotal ▸ hpos)
  rwa [← htotal] at hgrows

theorem category_splits_two_miners : ∃ ws, Splits 10 [(1, 1), (2, 2)] ws ∧
      ∀ i uid s s', ([(1, 1), (2, 2)] : Miners)[i]? = some (uid, s) → i + 1 < 2 → s ≤ s' →
        ∃ ws', Splits 10 (([(1, 1), (2, 2)] : Miners).set i (uid, s')) ws' ∧
          ∃ w w', ws[i]? = some w ∧ ws'[i]? = some w' ∧ w ≤ w' :=
  category_splits_at_floors (by decide) (by
    intro m hm
    simp only [mem_cons, not_mem_nil, or_false] at hm
    rcases hm with rfl | rfl <;> norm_num) (by norm_num [totalScore])

section Order

variable {init : Miners}

theorem position_weight (hscores : ∀ m ∈ init ++ [last], 0 ≤ m.2) (hpos : 0 < totalScore (init ++ [last]))
    (hm : m ∈ init ++ [last]) : ∃ w, (m.1, w) ∈ positions pool (totalScore (init ++ [last])) init last ∧
      clipped pool (totalScore (init ++ [last])) m ≤ w ∧
      (m ≠ last → w = clipped pool (totalScore (init ++ [last])) m) ∧
      (pool ≤ u16Max → w < floorShare pool (totalScore (init ++ [last])) m + (init ++ [last]).length) := by
  rcases mem_append.mp hm with hinit | hlast
  · refine ⟨clipped pool (totalScore (init ++ [last])) m, ?_, le_rfl, fun _ => rfl, ?_⟩
    · exact mem_append_left _ (mem_map_of_mem hinit)
    · intro _
      have hle : clipped pool (totalScore (init ++ [last])) m ≤ _ := clipped_le m
      rw [length_append, length_singleton]
      omega
  · obtain rfl := mem_singleton.mp hlast
    refine ⟨remaining pool (totalScore (init ++ [m])) init, ?_, clipped_last_le hscores hpos, fun h => absurd rfl h, ?_⟩
    · exact mem_append_right _ mem_cons_self
    · intro hpool
      obtain ⟨d, hd, heq⟩ := remaining_eq hpool hscores hpos
      omega

theorem higher_score_weighs_more (pool : ℕ) {miners : Miners} (hscores : ∀ m ∈ miners, 0 ≤ m.2)
    (hpos : 0 < totalScore miners) (hnodup : (miners.map Prod.fst).Nodup) :
    ∃ weights, distributeCategoryWeight Narrowing.code miners pool = .ok weights ∧
      ∀ m ∈ miners, ∀ m' ∈ miners, m'.2 ≤ m.2 →
        (miners.getLast? ≠ some m' → weightOf weights m'.1 ≤ weightOf weights m.1) ∧
        (pool ≤ u16Max → weightOf weights m'.1 < weightOf weights m.1 + miners.length) := by
  obtain ⟨init, last, rfl⟩ := exists_init_last hpos
  refine ⟨_, distributeCategoryWeight_listed hscores hpos, ?_⟩
  intro m hm m' hm' hle
  obtain ⟨w, hw, hlow, -, -⟩ := @position_weight pool _ _ _ hscores hpos hm
  obtain ⟨w', hw', -, hinit, hhigh⟩ := @position_weight pool _ _ _ hscores hpos hm'
  have huids : ((positions pool (totalScore (init ++ [last])) init last).map Prod.fst).Nodup := by
    rwa [positions_uids]
  rw [weightOf_listed huids hw, weightOf_listed huids hw']
  constructor
  · intro hlast
    have hne : m' ≠ last := by
      rintro rfl
      exact hlast getLast?_concat
    rw [hinit hne]
    exact (min_le_min_right _ (floorShare_mono hpos hle)).trans hlow
  · intro hpool
    have hfloors : floorShare pool _ m' ≤ floorShare pool _ m := floorShare_mono hpos hle
    rw [clipped_eq hpool hscores hpos hm] at hlow
    have hlt := hhigh hpool
    omega

theorem higher_score_weighs_more_three :
    ∃ weights, distributeCategoryWeight Narrowing.code [(1, 1), (2, 1), (3, 1)] 2 = .ok weights ∧
      ∀ m ∈ ([(1, 1), (2, 1), (3, 1)] : Miners), ∀ m' ∈ ([(1, 1), (2, 1), (3, 1)] : Miners), m'.2 ≤ m.2 →
        (([(1, 1), (2, 1), (3, 1)] : Miners).getLast? ≠ some m' → weightOf weights m'.1 ≤ weightOf weights m.1) ∧
        (2 ≤ u16Max → weightOf weights m'.1 < weightOf weights m.1 + 3) :=
  higher_score_weighs_more 2 (by
    intro m hm
    simp only [mem_cons, not_mem_nil, or_false] at hm
    rcases hm with rfl | rfl | rfl <;> norm_num) (by norm_num [totalScore]) (by decide)

theorem equal_scores_weigh_apart : ∃ (pool : ℕ) (miners : Miners) (weights : List NormalizedWeight),
      (∀ m ∈ miners, 0 ≤ m.2) ∧ 0 < totalScore miners ∧ (miners.map Prod.fst).Nodup ∧
      distributeCategoryWeight Narrowing.code miners pool = .ok weights ∧
      ∃ m ∈ miners, ∃ m' ∈ miners, m'.2 ≤ m.2 ∧ weightOf weights m.1 < weightOf weights m'.1 := by
  refine ⟨2, [(1, 1), (2, 1), (3, 1)], [⟨3, 2⟩], ?_, by norm_num [totalScore], by decide, by decide +kernel,
    (1, 1), by simp, (3, 1), by simp, le_rfl, by decide⟩
  intro m hm
  simp only [mem_cons, not_mem_nil, or_false] at hm
  rcases hm with rfl | rfl | rfl <;> norm_num

end Order

end Basilica.Weights
