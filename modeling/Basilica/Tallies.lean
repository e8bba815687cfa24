import Basilica.AssocMaps

/-!
Entries gathered by key, as a map is filled one element at a time, and what such a gathering counts.
-/

namespace Basilica.AssocMaps

open List

variable {κ α β γ : Type} [DecidableEq κ]

namespace AssocMap

section

variable (m : AssocMap κ α) (k : κ) (a : α) (f : α → α) (j : κ)

/-- `a` for a key that is new, else the value there changed by `f`. -/
def upsert (m : AssocMap κ α) (k : κ) (a : α) (f : α → α) : AssocMap κ α :=
  match m.get? k with
  | some _ => m.modify k f
  | none => m.insert k a

theorem get?_upsert : (m.upsert k a f).get? j = if k = j then some ((m.get? k).elim a f) else m.get? j := by
  unfold upsert
  cases h : m.get? k with
  | none =>
    rw [get?_insert h]
    simp only [eq_comm, Option.elim_none]
  | some b =>
    rw [get?_modify, h]
    simp only [eq_comm, Option.map_some, Option.elim_some]

theorem total_upsert (g : κ → α → ℤ) (n : ℤ) (hnew : g k a = n) (hold : ∀ b, g k (f b) = g k b + n) :
    (m.upsert k a f).total g = m.total g + n := by
  unfold upsert
  cases h : m.get? k with
  | none =>
    rw [total_insert h, hnew]
  | some b =>
    rw [total_modify h, hold]
    ring

/-- `HashMap::insert` -/
def set (m : AssocMap κ α) (k : κ) (a : α) : AssocMap κ α := m.upsert k a (fun _ => a)

theorem get?_set : (m.set k a).get? j = if k = j then some a else m.get? j := by
  rw [set, get?_upsert]
  cases m.get? k <;> rfl

end

variable {m : AssocMap κ α} {k : κ}

theorem set_entries (h : m.get? k = none) (a : α) : (m.set k a).entries = m.entries ++ [(k, a)] := by
  rw [set, upsert, h]
  exact insert_entries h a

theorem foldl_set_entries (m : AssocMap κ α) : m.entries.foldl (fun acc p => acc.set p.1 p.2) empty = m := by
  have hfill : ∀ (entries : List (κ × α)) (acc : AssocMap κ α), (acc.keys ++ entries.map Prod.fst).Nodup →
      (entries.foldl (fun acc p => acc.set p.1 p.2) acc).entries = acc.entries ++ entries := by
    intro entries
    induction entries with
    | nil =>
      intro acc _
      exact (append_nil _).symm
    | cons p entries ih =>
      intro acc hnodup
      have hnew : acc.get? p.1 = none := by
        rw [get?_eq_none_iff]
        intro hmem
        exact (nodup_append.mp hnodup).2.2 p.1 hmem p.1 mem_cons_self rfl
      have hentries := set_entries hnew p.2
      have hkeys : (acc.set p.1 p.2).keys = acc.keys ++ [p.1] := by
        rw [keys, hentries, map_append]
        rfl
      rw [foldl_cons, ih, hentries, append_assoc]
      · rfl
      · rw [hkeys, append_assoc]
        exact hnodup
  exact eq_of_entries (hfill m.entries empty m.nodup)

def erase (m : AssocMap κ α) (k : κ) : AssocMap κ α := m.filterWith (fun j _ => j ≠ k)

theorem get?_erase (m : AssocMap κ α) (k j : κ) : (m.erase k).get? j = if k = j then none else m.get? j := by
  rw [erase, get?_filterWith]
  by_cases h : k = j
  · subst h
    cases m.get? k <;> simp
  · cases m.get? j <;> simp [h, Ne.symm h]

theorem get?_mapValues (f : α → β) (m : AssocMap κ α) (k : κ) : (m.mapValues f).get? k = (m.get? k).map f := by
  unfold get? mapValues
  rw [find?_map, Option.map_map, Option.map_map]
  rfl

theorem mapValues_modify {f : α → β} {g : α → α} {g' : β → β}
    (h : ∀ a, m.get? k = some a → f (g a) = g' (f a)) : (m.modify k g).mapValues f = (m.mapValues f).modify k g' := by
  apply eq_of_entries
  change (m.entries.map _).map _ = (m.entries.map _).map _
  rw [map_map, map_map]
  apply map_congr_left
  intro p hp
  dsimp only [Function.comp]
  split_ifs with hk
  · rw [h p.2 (get?_of_mem (hk ▸ hp))]
  · rfl

theorem get?_foldl_upsert (key : β → κ) (init : β → α) (add : β → α → α) (xs : List β) (m : AssocMap κ α) (k : κ) :
    (xs.foldl (fun m x => m.upsert (key x) (init x) (add x)) m).get? k =
      (xs.filter (fun x => key x = k)).foldl (fun o x => some (o.elim (init x) (add x))) (m.get? k) := by
  induction xs generalizing m with
  | nil => rfl
  | cons x xs ih =>
    rw [foldl_cons, ih, get?_upsert]
    by_cases hk : key x = k
    · subst hk
      simp only [↓reduceIte, decide_true, filter_cons_of_pos, foldl_cons]
    · simp only [hk, ↓reduceIte, decide_false, Bool.false_eq_true, not_false_eq_true, filter_cons_of_neg]

theorem get?_foldl_set {key : β → κ} {value : β → α} {xs : List β} (hkeys : (xs.map key).Nodup)
    (hm : ∀ x ∈ xs, m.get? (key x) = none) (k : κ) (a : α) :
    (xs.foldl (fun m x => m.set (key x) (value x)) m).get? k = some a ↔
      m.get? k = some a ∨ ∃ x ∈ xs, key x = k ∧ value x = a := by
  induction xs generalizing m with
  | nil => simp only [foldl_nil, not_mem_nil, false_and, exists_false, or_false]
  | cons x xs ih =>
    rw [map_cons, nodup_cons] at hkeys
    have hrest : ∀ y ∈ xs, (m.set (key x) (value x)).get? (key y) = none := by
      intro y hy
      have hne : key x ≠ key y := by
        intro h
        exact hkeys.1 (h ▸ mem_map_of_mem hy)
      rw [get?_set, if_neg hne]
      exact hm y (mem_cons_of_mem x hy)
    rw [foldl_cons, ih hkeys.2 hrest, get?_set]
    simp only [mem_cons, exists_eq_or_imp, ← or_assoc]
    refine or_congr_left ?_
    by_cases hk : key x = k
    · subst hk
      simp only [if_true, Option.some.injEq, true_and, hm x mem_cons_self, reduceCtorEq, false_or]
    · simp only [hk, if_false, false_and, or_false]

end AssocMap

section Gathered

variable {init : β → α} {add : β → α → α}

theorem map_foldl_elim (μ : α → ℕ) (ν : β → ℕ) (hadd : ∀ x a, μ (add x a) = μ a + ν x) (xs : List β) (a : α) :
    ∃ b, xs.foldl (fun o x => some (o.elim (init x) (add x))) (some a) = some b ∧ μ b = μ a + (xs.map ν).sum := by
  induction xs generalizing a with
  | nil => exact ⟨a, rfl, by simp⟩
  | cons x xs ih =>
    obtain ⟨b, hb, hμ⟩ := ih (add x a)
    refine ⟨b, hb, ?_⟩
    rw [hμ, hadd, map_cons, sum_cons, Nat.add_assoc]

theorem foldl_elim_measure (μ : α → ℕ) (ν : β → ℕ) (hinit : ∀ x, μ (init x) = ν x) (hadd : ∀ x a, μ (add x a) = μ a + ν x)
    (xs : List β) (hne : xs ≠ []) :
    ∃ b, xs.foldl (fun o x => some (o.elim (init x) (add x))) none = some b ∧ μ b = (xs.map ν).sum := by
  cases xs with
  | nil => exact absurd rfl hne
  | cons x xs =>
    obtain ⟨b, hb, hμ⟩ := map_foldl_elim μ ν hadd xs (init x)
    refine ⟨b, hb, ?_⟩
    rw [hμ, hinit, map_cons, sum_cons]

theorem get?_gathered (μ : α → ℕ) (ν : β → ℕ) (key : β → κ) (hinit : ∀ x, μ (init x) = ν x)
    (hadd : ∀ x a, μ (add x a) = μ a + ν x) (xs : List β) {k : κ} {a : α}
    (h : (xs.foldl (fun m x => m.upsert (key x) (init x) (add x)) AssocMap.empty).get? k = some a) :
    μ a = ((xs.filter (fun x => key x = k)).map ν).sum := by
  rw [AssocMap.get?_foldl_upsert] at h
  by_cases hne : xs.filter (fun x => key x = k) = []
  · rw [hne] at h
    cases h
  · obtain ⟨b, hb, hμ⟩ := foldl_elim_measure μ ν hinit hadd _ hne
    obtain rfl : a = b := Option.some.inj (h.symm.trans hb)
    exact hμ

end Gathered

variable {ys : List γ}

theorem get?_gathered_list (key : β → κ) (value : β → γ) (xs : List β) {k : κ}
    (h : (xs.foldl (fun m x => m.upsert (key x) [value x] (· ++ [value x])) AssocMap.empty).get? k = some ys) :
    ys = (xs.filter (fun x => key x = k)).map value := by
  have hfold : ∀ (zs : List β) (acc : List γ),
      zs.foldl (fun o x => some (o.elim [value x] (· ++ [value x]))) (some acc) = some (acc ++ zs.map value) := by
    intro zs
    induction zs with
    | nil =>
      intro acc
      simp
    | cons z zs ih =>
      intro acc
      rw [foldl_cons, Option.elim_some, ih]
      simp
  rw [AssocMap.get?_foldl_upsert] at h
  cases hxs : xs.filter (fun x => key x = k) with
  | nil =>
    rw [hxs] at h
    cases h
  | cons x rest =>
    rw [hxs, foldl_cons] at h
    have hsome := (hfold rest [value x]).symm.trans h
    rw [← Option.some.inj hsome]
    rfl

theorem mapM_map_eq_some {write : β → γ} {read : γ → Option β} (h : ∀ x, read (write x) = some x) (xs : List β) :
    (xs.map write).mapM read = some xs := by
  induction xs with
  | nil => rfl
  | cons x xs ih =>
    rw [map_cons, mapM_cons, h x, ih]
    rfl

variable {f : β → Option γ} {xs : List β}

theorem forall₂_of_mapM (h : xs.mapM f = some ys) : List.Forall₂ (fun x y => f x = some y) xs ys := by
  induction xs generalizing ys with
  | nil =>
    cases h
    exact .nil
  | cons x xs ih =>
    rw [mapM_cons] at h
    obtain ⟨y, hy, h⟩ := Option.bind_eq_some_iff.mp h
    obtain ⟨rest, hrest, h⟩ := Option.bind_eq_some_iff.mp h
    cases h
    exact .cons hy (ih hrest)

theorem exists_of_forall₂ {R : β → γ → Prop} (h : List.Forall₂ R xs ys) {y : γ} (hy : y ∈ ys) : ∃ x ∈ xs, R x y := by
  induction h with
  | nil => cases hy
  | cons hxy _ ih =>
    rcases mem_cons.mp hy with rfl | hy
    · exact ⟨_, mem_cons_self, hxy⟩
    · obtain ⟨x, hx, hxy⟩ := ih hy
      exact ⟨x, mem_cons_of_mem _ hx, hxy⟩

theorem map_of_mapM {δ : Type} (h : xs.mapM f = some ys) {g : γ → δ} {g' : β → δ}
    (hg : ∀ x y, f x = some y → g y = g' x) : ys.map g = xs.map g' := by
  have hall := forall₂_of_mapM h
  clear h
  induction hall with
  | nil => rfl
  | cons hxy _ ih => rw [map_cons, map_cons, ih, hg _ _ hxy]

theorem sum_length_filter {keys : List κ} (hkeys : keys.Nodup) (key : β → κ) (xs : List β) :
    (keys.map (fun k => (xs.filter (fun x => key x = k)).length)).sum = (xs.filter (fun x => key x ∈ keys)).length := by
  induction xs with
  | nil => simp
  | cons x xs ih =>
    have hsplit (k : κ) : ((x :: xs).filter (fun x => key x = k)).length =
        (if key x = k then 1 else 0) + (xs.filter (fun x => key x = k)).length := by
      by_cases h : key x = k
      · simp only [h, decide_true, filter_cons_of_pos, length_cons, ↓reduceIte]
        omega
      · simp [h]
    simp only [hsplit]
    rw [sum_map_add, ih, sum_ite_of_nodup hkeys]
    by_cases h : key x ∈ keys
    · simp only [h, ↓reduceIte, decide_true, filter_cons_of_pos, length_cons]
      omega
    · simp [h]

theorem length_dedup_join {entries : List (κ × α)} (hnodup : (entries.map Prod.fst).Nodup) (partners : κ × α → List γ)
    (p : κ × α → Bool) :
    (((entries.flatMap (fun q => (partners q).map (fun _ => q))).filter p).map Prod.fst).dedup.length =
      (entries.filter (fun q => p q ∧ partners q ≠ [])).length := by
  have hperm : (((entries.flatMap (fun q => (partners q).map (fun _ => q))).filter p).map Prod.fst).dedup.Perm
      ((entries.filter (fun q => p q ∧ partners q ≠ [])).map Prod.fst) := by
    apply (perm_ext_iff_of_nodup (nodup_dedup _) (hnodup.sublist (filter_sublist.map Prod.fst))).mpr
    intro k
    simp only [mem_dedup, mem_map, mem_filter, mem_flatMap, decide_eq_true_eq]
    constructor
    · rintro ⟨q, ⟨⟨q', hq', g, hg, rfl⟩, hp⟩, rfl⟩
      exact ⟨q', ⟨hq', hp, ne_nil_of_mem hg⟩, rfl⟩
    · rintro ⟨q, ⟨hq, hp, hne⟩, rfl⟩
      obtain ⟨g, hg⟩ := exists_mem_of_ne_nil _ hne
      exact ⟨q, ⟨⟨q, hq, g, hg, rfl⟩, hp⟩, rfl⟩
  rw [hperm.length_eq, length_map]

end Basilica.AssocMaps

namespace Basilica.FiniteTotals

open Finset Function

instance bitVecFintype (n : ℕ) : Fintype (BitVec n) :=
  Fintype.ofEquiv (Fin (2 ^ n)) BitVec.equivFin.symm.toEquiv

theorem sum_update_add {κ : Type} [Fintype κ] [DecidableEq κ] (f : κ → ℕ) (k : κ) (v : ℕ) :
    ∑ x, update f k v x + f k = ∑ x, f x + v := by
  rw [sum_update_of_mem (mem_univ k), ← sum_sdiff (singleton_subset_iff.mpr (mem_univ k)), sum_singleton]
  omega

theorem sum_update_member {κ β : Type} [Fintype κ] [DecidableEq κ] (f : κ → β → ℤ) (g : κ → β) (k : κ) (v : β) :
    ∑ x, f x (update g k v x) = ∑ x, f x (g x) + (f k v - f k (g k)) := by
  rw [← add_sum_erase _ _ (mem_univ k), ← add_sum_erase _ (fun x => f x (g x)) (mem_univ k),
    update_self]
  have hrest : ∑ x ∈ Finset.univ.erase k, f x (update g k v x) = ∑ x ∈ Finset.univ.erase k, f x (g x) := by
    apply sum_congr rfl
    intro x hx
    rw [update_of_ne (ne_of_mem_erase hx)]
  rw [hrest]
  ring

theorem apply_le_sum {κ : Type} [Fintype κ] (f : κ → ℕ) (k : κ) : f k ≤ ∑ x, f x :=
  single_le_sum (fun _ _ => Nat.zero_le _) (mem_univ k)

theorem finsum_update_add {f : ℕ → ℕ} (hf : (Function.support f).Finite) (i v : ℕ) :
    ∑ᶠ j, update f i v j + f i = ∑ᶠ j, f j + v := by
  have hfs : (support f) ⊆ (insert i hf.toFinset : Finset ℕ) := by
    intro j hj
    simpa using Or.inr hj
  have hus : support (update f i v) ⊆ (insert i hf.toFinset : Finset ℕ) := by
    intro j hj
    by_cases h : j = i
    · simp [h]
    · rw [mem_support, update_of_ne h] at hj
      simpa [h] using hj
  rw [finsum_eq_sum_of_support_subset _ hfs, finsum_eq_sum_of_support_subset _ hus]
  rw [sum_update_of_mem (mem_insert_self i _)]
  rw [← sum_sdiff (singleton_subset_iff.mpr (mem_insert_self i hf.toFinset)), sum_singleton]
  omega

theorem apply_le_finsum {f : ℕ → ℕ} (hf : (Function.support f).Finite) (i : ℕ) : f i ≤ ∑ᶠ j, f j := by
  have h := finsum_update_add hf i 0
  omega

end Basilica.FiniteTotals
