import Mathlib

namespace Basilica.Grouping

open List

variable {κ α : Type} [DecidableEq κ]

def push (k : κ) (a : α) : List (κ × List α) → List (κ × List α)
  | [] => [(k, [a])]
  | (k', as) :: rest => if k' = k then (k', as ++ [a]) :: rest else (k', as) :: push k a rest

def valuesAt (k : κ) (xs : List (κ × α)) : List α := (xs.filter (fun x => x.1 = k)).map Prod.snd

theorem valuesAt_concat (k k' : κ) (a : α) (xs : List (κ × α)) :
    valuesAt k (xs ++ [(k', a)]) = if k' = k then valuesAt k xs ++ [a] else valuesAt k xs := by
  by_cases h : k' = k <;> simp [valuesAt, filter_append, h]

structure Groups (m : List (κ × List α)) (xs : List (κ × α)) : Prop where
  nodup : (m.map Prod.fst).Nodup
  mem_iff : ∀ k as, (k, as) ∈ m ↔ as = valuesAt k xs ∧ as ≠ []

theorem groups_nil : Groups ([] : List (κ × List α)) [] := by
  constructor
  · simp
  · intro k as
    simp only [not_mem_nil, valuesAt, filter_nil, map_nil, false_iff, not_and, not_not]
    exact id

theorem map_fst_push (k : κ) (a : α) (m : List (κ × List α)) :
    (push k a m).map Prod.fst = if k ∈ m.map Prod.fst then m.map Prod.fst else m.map Prod.fst ++ [k] := by
  induction m with
  | nil => simp [push]
  | cons p m ih =>
    obtain ⟨k', as⟩ := p
    by_cases hk : k' = k
    · simp [push, hk]
    · simp only [push, hk, ↓reduceIte, map_cons, ih, mem_cons, Ne.symm hk, false_or]
      split_ifs <;> simp

variable {k : κ} {a : α} {as : List α}

theorem mem_push_of_ne {k' : κ} (hk : k' ≠ k) (m : List (κ × List α)) : (k', as) ∈ push k a m ↔ (k', as) ∈ m := by
  induction m with
  | nil => simp [push, hk]
  | cons p m ih =>
    obtain ⟨j, bs⟩ := p
    by_cases hj : j = k
    · subst hj
      simp [push, hk]
    · simp [push, hj, ih]

theorem mem_push_self {m : List (κ × List α)} (hn : (m.map Prod.fst).Nodup) : (k, as) ∈ push k a m ↔
      (∃ bs, (k, bs) ∈ m ∧ as = bs ++ [a]) ∨ (k ∉ m.map Prod.fst ∧ as = [a]) := by
  induction m with
  | nil => simp [push]
  | cons p m ih =>
    obtain ⟨j, bs⟩ := p
    obtain ⟨hj, hn⟩ := nodup_cons.mp hn
    by_cases hjk : j = k
    · subst hjk
      have hnot : ∀ cs, (j, cs) ∉ m := fun cs hcs => hj (mem_map.mpr ⟨_, hcs, rfl⟩)
      simp [push, hnot]
    · have hkj : k ≠ j := Ne.symm hjk
      simp [push, hjk, hkj, ih hn]

theorem Groups.push {m : List (κ × List α)} {xs : List (κ × α)} (h : Groups m xs) (k : κ) (a : α) :
    Groups (push k a m) (xs ++ [(k, a)]) := by
  constructor
  · rw [map_fst_push]
    split_ifs with hk
    · exact h.nodup
    · rw [nodup_append]
      refine ⟨h.nodup, by simp, ?_⟩
      intro x hx y hy
      rw [mem_singleton] at hy
      rintro rfl
      exact hk (hy ▸ hx)
  · intro k' as
    rw [valuesAt_concat]
    by_cases hk : k' = k
    · subst hk
      rw [if_pos rfl, mem_push_self h.nodup]
      constructor
      · rintro (⟨bs, hbs, rfl⟩ | ⟨hnot, rfl⟩)
        · rw [((h.mem_iff k' bs).mp hbs).1]
          simp
        · have hempty : valuesAt k' xs = [] := by
            by_contra hne
            exact hnot (mem_map_of_mem ((h.mem_iff k' _).mpr ⟨rfl, hne⟩))
          simp [hempty]
      · rintro ⟨rfl, _⟩
        by_cases hempty : valuesAt k' xs = []
        · right
          refine ⟨?_, by simp [hempty]⟩
          intro hmem
          obtain ⟨p, hp, rfl⟩ := mem_map.mp hmem
          obtain ⟨hp, hne⟩ := (h.mem_iff p.1 p.2).mp hp
          exact hne (hp.trans hempty)
        · exact .inl ⟨_, (h.mem_iff k' _).mpr ⟨rfl, hempty⟩, rfl⟩
    · rw [if_neg (Ne.symm hk), mem_push_of_ne hk, h.mem_iff]

section Ordered

variable {xs : List (ℕ × α)}

def upTo (b : ℕ) (xs : List (ℕ × α)) : List α := (xs.filter (fun x => x.1 ≤ b)).map Prod.snd

variable {lo hi : ℕ}

section

variable (h : xs.Pairwise (fun x y => x.1 ≤ y.1))

include h

theorem upTo_between (hle : lo ≤ hi) :
    upTo hi xs = upTo lo xs ++ (xs.filter (fun x => lo < x.1 ∧ x.1 ≤ hi)).map Prod.snd := by
  induction xs with
  | nil => rfl
  | cons x xs ih =>
    obtain ⟨hx, hxs⟩ := pairwise_cons.mp h
    have ih := ih hxs
    unfold upTo at ih ⊢
    by_cases hlo : x.1 ≤ lo
    · simp [hlo, hlo.trans hle, not_lt.mpr hlo, ih]
    · -- Every later key is above `lo`, so nothing is left for the first part.
      have hnone : xs.filter (fun y => decide (y.1 ≤ lo)) = [] := by
        rw [filter_eq_nil_iff]
        intro y hy
        have := hx y hy
        simp only [decide_eq_true_eq]
        omega
      rw [hnone, map_nil, nil_append] at ih
      by_cases hhi : x.1 ≤ hi
      · simp [hlo, hhi, hnone, ih, not_le.mp hlo]
      · simp [hlo, hhi, hnone, ih]

theorem upTo_succ (b : ℕ) :
    upTo (b + 1) xs = upTo b xs ++ valuesAt (b + 1) xs := by
  rw [upTo_between h (Nat.le_succ b), valuesAt]
  congr 3
  funext x
  rw [decide_eq_decide]
  omega

theorem upTo_gap (hle : lo ≤ hi)
    (hgap : ∀ b, lo < b → b ≤ hi → valuesAt b xs = []) : upTo hi xs = upTo lo xs := by
  induction hi, hle using Nat.le_induction with
  | base => rfl
  | succ hi hle ih =>
    rw [upTo_succ h, hgap (hi + 1) (by omega) (le_refl _), append_nil]
    exact ih (fun b hb hb' => hgap b hb (by omega))

end

/-- The groups, one after the other, lead from what is up to `lo` to what is up to `hi`. -/
def Leads (xs : List (ℕ × α)) : ℕ → List (ℕ × List α) → ℕ → Prop
  | lo, [], hi => upTo hi xs = upTo lo xs
  | lo, (b, as) :: rest, hi => upTo b xs = upTo lo xs ++ as ∧ Leads xs b rest hi

variable {L : List (ℕ × List α)}

theorem leads_of_sorted (h : xs.Pairwise (fun x y => x.1 ≤ y.1))
    (hle : lo ≤ hi) (hL : L.Pairwise (fun p q => p.1 < q.1))
    (hmem : ∀ b as, (b, as) ∈ L ↔ (lo < b ∧ b ≤ hi) ∧ as = valuesAt b xs ∧ as ≠ []) : Leads xs lo L hi := by
  induction L generalizing lo with
  | nil =>
    apply upTo_gap h hle
    intro b hlo hhi
    by_contra hne
    exact not_mem_nil ((hmem b _).mpr ⟨⟨hlo, hhi⟩, rfl, hne⟩)
  | cons p rest ih =>
    obtain ⟨b, as⟩ := p
    obtain ⟨hfirst, hrest⟩ := pairwise_cons.mp hL
    obtain ⟨⟨hlo, hhi⟩, has, hne⟩ := (hmem b as).mp mem_cons_self
    obtain ⟨b, rfl⟩ : ∃ b', b = b' + 1 := ⟨b - 1, by omega⟩
    -- A group between `lo` and the first one would be in the list, before the first one.
    have hbefore : upTo b xs = upTo lo xs := by
      apply upTo_gap h (by omega)
      intro b' hlo' hb'
      by_contra hne'
      rcases mem_cons.mp ((hmem b' _).mpr ⟨⟨hlo', by omega⟩, rfl, hne'⟩) with heq | hin
      · have : b' = b + 1 := congrArg Prod.fst heq
        omega
      · have := hfirst _ hin
        simp only at this
        omega
    refine ⟨by rw [upTo_succ h, hbefore, has], ih hhi hrest ?_⟩
    intro b' as'
    constructor
    · intro hin
      obtain ⟨⟨_, hhi'⟩, has'⟩ := (hmem b' as').mp (mem_cons_of_mem _ hin)
      exact ⟨⟨hfirst _ hin, hhi'⟩, has'⟩
    · rintro ⟨⟨hlo', hhi'⟩, has'⟩
      rcases mem_cons.mp ((hmem b' as').mpr ⟨⟨by omega, hhi'⟩, has'⟩) with heq | hin
      · have : b' = b + 1 := congrArg Prod.fst heq
        omega
      · exact hin

theorem Leads.append (h : Leads xs lo L hi) : upTo hi xs = upTo lo xs ++ L.flatMap Prod.snd := by
  induction L generalizing lo with
  | nil =>
    rw [flatMap_nil, append_nil]
    exact h
  | cons p rest ih =>
    obtain ⟨hfirst, hrest⟩ := h
    rw [ih hrest, hfirst, flatMap_cons, append_assoc]

end Ordered

section ByKey

variable {β : Type} {m : List (ℕ × β)}

theorem insertionSort_strict (h : (m.map Prod.fst).Nodup) :
    (m.insertionSort (fun p q => p.1 ≤ q.1)).Pairwise (fun p q => p.1 < q.1) := by
  have htotal : Std.Total (fun p q : ℕ × β => p.1 ≤ q.1) := ⟨fun p q => Nat.le_total p.1 q.1⟩
  have htrans : IsTrans (ℕ × β) (fun p q => p.1 ≤ q.1) := ⟨fun _ _ _ => Nat.le_trans⟩
  have hle := pairwise_insertionSort (fun p q : ℕ × β => p.1 ≤ q.1) m
  have hnodup := ((perm_insertionSort (fun p q => p.1 ≤ q.1) m).map Prod.fst).nodup_iff.mpr h
  exact (hle.and (pairwise_map.mp hnodup)).imp (fun h => Nat.lt_of_le_of_ne h.1 h.2)

theorem mem_take_of_strict {l : List (ℕ × β)} (h : l.Pairwise (fun p q => p.1 < q.1)) {limit : ℕ} {p : ℕ × β}
    (hp : p ∈ l) : p ∈ l.take limit ↔ (l.filter (fun q => q.1 < p.1)).length < limit := by
  induction l generalizing limit with
  | nil => cases hp
  | cons a l ih =>
    obtain ⟨hfirst, hrest⟩ := pairwise_cons.mp h
    rcases limit with - | limit
    · simp
    · rcases mem_cons.mp hp with rfl | hmem
      · have hnone : l.filter (fun q => q.1 < p.1) = [] :=
          filter_eq_nil_iff.mpr (fun q hq => by simpa using (hfirst q hq).le)
        simp [hnone]
      · have hne : p ≠ a := fun h => Nat.lt_irrefl p.1 (by simpa [h] using hfirst p hmem)
        simp [hne, hfirst p hmem, ih hrest hmem]

theorem mem_take_insertionSort (h : (m.map Prod.fst).Nodup) (limit : ℕ) (p : ℕ × β) :
    p ∈ (m.insertionSort (fun p q => p.1 ≤ q.1)).take limit ↔
      p ∈ m ∧ (m.filter (fun q => q.1 < p.1)).length < limit := by
  have hperm := perm_insertionSort (fun p q : ℕ × β => p.1 ≤ q.1) m
  rw [← (hperm.filter _).length_eq, ← hperm.mem_iff]
  constructor
  · intro hp
    exact ⟨mem_of_mem_take hp, (mem_take_of_strict (insertionSort_strict h) (mem_of_mem_take hp)).mp hp⟩
  · rintro ⟨hp, hlength⟩
    exact (mem_take_of_strict (insertionSort_strict h) hp).mpr hlength

end ByKey

def sortByKey (m : List (ℕ × List α)) : List (ℕ × List α) := m.insertionSort (fun p q => p.1 ≤ q.1)

variable {m : List (ℕ × List α)}

theorem mem_sortByKey {p : ℕ × List α} : p ∈ sortByKey m ↔ p ∈ m :=
  mem_insertionSort _

theorem sortByKey_strict (h : (m.map Prod.fst).Nodup) : (sortByKey m).Pairwise (fun p q => p.1 < q.1) :=
  insertionSort_strict h

end Basilica.Grouping
