import Mathlib

namespace Basilica.AssocMaps

open List Option

variable {κ α β : Type}

structure AssocMap (κ α : Type) where
  entries : List (κ × α)
  nodup : (entries.map Prod.fst).Nodup
deriving DecidableEq

namespace AssocMap

def empty : AssocMap κ α := ⟨[], nodup_nil⟩

def keys (m : AssocMap κ α) : List κ := m.entries.map Prod.fst

def values (m : AssocMap κ α) : List α := m.entries.map Prod.snd

variable {m m' : AssocMap κ α}

theorem eq_of_entries (h : m.entries = m'.entries) : m = m' := by
  cases m
  cases m'
  exact (AssocMap.mk.injEq _ _ _ _).mpr h

def mapValues (f : α → β) (m : AssocMap κ α) : AssocMap κ β where
  entries := m.entries.map (fun p => (p.1, f p.2))
  nodup := by
    rw [List.map_map]
    exact m.nodup

def filter (p : α → Bool) (m : AssocMap κ α) : AssocMap κ α where
  entries := m.entries.filter (fun x => p x.2)
  nodup := m.nodup.sublist (filter_sublist.map Prod.fst)

def filterWith (p : κ → α → Bool) (m : AssocMap κ α) : AssocMap κ α where
  entries := m.entries.filter (fun x => p x.1 x.2)
  nodup := m.nodup.sublist (filter_sublist.map Prod.fst)

def mapWith (f : κ → α → α) (m : AssocMap κ α) : AssocMap κ α where
  entries := m.entries.map (fun p => (p.1, f p.1 p.2))
  nodup := by
    rw [List.map_map]
    exact m.nodup

theorem keys_mapWith (f : κ → α → α) (m : AssocMap κ α) : (m.mapWith f).keys = m.keys := by
  unfold keys mapWith
  rw [List.map_map]
  rfl

theorem values_mapValues (f : α → β) (m : AssocMap κ α) : (m.mapValues f).values = m.values.map f := by
  simp [values, mapValues]

variable [DecidableEq κ]

def get? (m : AssocMap κ α) (k : κ) : Option α := (m.entries.find? (fun p => p.1 = k)).map Prod.snd

variable {k : κ} {a : α}

theorem get?_mem_values (h : m.get? k = some a) : a ∈ m.values := by
  obtain ⟨p, hp, rfl⟩ := map_eq_some_iff.mp h
  exact mem_map_of_mem (mem_of_find?_eq_some hp)

theorem get?_of_mem (h : (k, a) ∈ m.entries) : m.get? k = some a := by
  obtain ⟨entries, hnodup⟩ := m
  unfold get?
  induction entries with
  | nil => cases h
  | cons p entries ih =>
    obtain ⟨hp, hentries⟩ := nodup_cons.mp hnodup
    rcases mem_cons.mp h with rfl | h
    · simp
    · have hne : p.1 ≠ k := by
        rintro rfl
        exact hp (mem_map.mpr ⟨_, h, rfl⟩)
      rw [find?_cons_of_neg (by simpa using hne)]
      exact ih hentries h

theorem get?_eq_none_iff : m.get? k = none ↔ k ∉ m.keys := by
  rw [get?, Option.map_eq_none_iff, List.find?_eq_none, keys, List.mem_map]
  constructor
  · rintro h ⟨p, hp, rfl⟩
    exact h p hp (by simp)
  · intro h p hp heq
    exact h ⟨p, hp, by simpa using heq⟩

theorem mem_entries_of_get? (h : m.get? k = some a) : (k, a) ∈ m.entries := by
  obtain ⟨p, hp, rfl⟩ := map_eq_some_iff.mp h
  obtain rfl : p.1 = k := by simpa using find?_some hp
  exact mem_of_find?_eq_some hp

def insert (m : AssocMap κ α) (k : κ) (a : α) : AssocMap κ α :=
  if h : k ∈ m.entries.map Prod.fst then m
  else ⟨m.entries ++ [(k, a)], by
    rw [map_append, map_singleton, ← concat_eq_append, nodup_concat]
    exact ⟨h, m.nodup⟩⟩

def modify (m : AssocMap κ α) (k : κ) (f : α → α) : AssocMap κ α where
  entries := m.entries.map (fun p => (p.1, if p.1 = k then f p.2 else p.2))
  nodup := by
    rw [List.map_map]
    exact m.nodup

theorem insert_entries (h : m.get? k = none) (a : α) : (m.insert k a).entries = m.entries ++ [(k, a)] := by
  have hk : k ∉ m.entries.map Prod.fst := get?_eq_none_iff.mp h
  rw [insert, dif_neg hk]

theorem insert_of_get? {b : α} (h : m.get? k = some b) (a : α) : m.insert k a = m := by
  have hk : k ∈ m.entries.map Prod.fst := mem_map.mpr ⟨(k, b), mem_entries_of_get? h, rfl⟩
  rw [insert, dif_pos hk]

theorem get?_insert (h : m.get? k = none) (a : α) (j : κ) :
    (m.insert k a).get? j = if j = k then some a else m.get? j := by
  unfold get? at h ⊢
  rw [insert_entries h, find?_append]
  by_cases hj : j = k
  · subst hj
    rw [map_eq_none_iff.mp h]
    simp
  · simp [hj, Ne.symm hj]

theorem keys_insert (h : m.get? k = none) (a : α) : (m.insert k a).keys = m.keys ++ [k] := by
  unfold keys
  rw [insert_entries h, map_append]
  rfl

theorem keys_modify (m : AssocMap κ α) (k : κ) (f : α → α) : (m.modify k f).keys = m.keys :=
  keys_mapWith (fun j a => if j = k then f a else a) m

theorem get?_mapWith (f : κ → α → α) (m : AssocMap κ α) (k : κ) : (m.mapWith f).get? k = (m.get? k).map (f k) := by
  unfold get? mapWith
  rw [List.find?_map, Option.map_map, Option.map_map]
  change Option.map _ (m.entries.find? (fun p => decide (p.1 = k))) = _
  cases hfind : m.entries.find? (fun p => decide (p.1 = k)) with
  | none => rfl
  | some p =>
    obtain rfl : p.1 = k := by simpa using find?_some hfind
    rfl

theorem get?_modify (m : AssocMap κ α) (k : κ) (f : α → α) (j : κ) :
    (m.modify k f).get? j = if j = k then (m.get? k).map f else m.get? j := by
  refine (get?_mapWith (fun i a => if i = k then f a else a) m j).trans ?_
  by_cases hj : j = k
  · simp [hj]
  · simp [hj]

theorem get?_filterWith (p : κ → α → Bool) (m : AssocMap κ α) (k : κ) :
    (m.filterWith p).get? k = (m.get? k).filter (p k) := by
  cases h : m.get? k with
  | none =>
    apply get?_eq_none_iff.mpr
    intro hmem
    apply get?_eq_none_iff.mp h
    exact (filter_sublist.map Prod.fst).subset hmem
  | some a =>
    rw [filter_some]
    split_ifs with hp
    · exact get?_of_mem (mem_filter.mpr ⟨mem_entries_of_get? h, hp⟩)
    · apply get?_eq_none_iff.mpr
      intro hmem
      obtain ⟨⟨k', b⟩, hq, rfl⟩ := mem_map.mp hmem
      obtain ⟨hentry, hb⟩ := mem_filter.mp hq
      have hab := some.inj ((get?_of_mem hentry).symm.trans h)
      exact hp (hab ▸ hb)

theorem map_ite_of_notMem {entries : List (κ × α)} (h : k ∉ entries.map Prod.fst) (f : α → α) :
    entries.map (fun p => (p.1, if p.1 = k then f p.2 else p.2)) = entries := by
  refine (map_congr_left ?_).trans (map_id _)
  intro p hp
  have hne : p.1 ≠ k := by
    rintro rfl
    exact h (mem_map_of_mem hp)
  simp [hne]

theorem modify_of_none (h : m.get? k = none) (f : α → α) : (m.modify k f).entries = m.entries :=
  map_ite_of_notMem (get?_eq_none_iff.mp h) f

theorem get?_of_perm (h : m.entries.Perm m'.entries) (k : κ) : m.get? k = m'.get? k := by
  cases hk : m'.get? k with
  | some a => exact get?_of_mem (h.mem_iff.mpr (mem_entries_of_get? hk))
  | none =>
    rw [get?_eq_none_iff] at hk ⊢
    exact fun hmem => hk ((h.map Prod.fst).mem_iff.mp hmem)

def total (f : κ → α → ℤ) (m : AssocMap κ α) : ℤ := (m.entries.map (fun p => f p.1 p.2)).sum

theorem total_insert (h : m.get? k = none) (a : α) (f : κ → α → ℤ) : (m.insert k a).total f = m.total f + f k a := by
  simp [total, insert_entries h]

theorem total_modify (h : m.get? k = some a) (g : α → α) (f : κ → α → ℤ) :
    (m.modify k g).total f = m.total f - f k a + f k (g a) := by
  obtain ⟨entries, hnodup⟩ := m
  have hmem := mem_entries_of_get? h
  unfold total modify
  clear h
  induction entries with
  | nil => cases hmem
  | cons p entries ih =>
    obtain ⟨hp, hentries⟩ := nodup_cons.mp hnodup
    simp only [map_cons, sum_cons]
    rcases mem_cons.mp hmem with rfl | hmem
    · rw [map_ite_of_notMem hp]
      simp only [↓reduceIte]
      ring
    · have hne : p.1 ≠ k := by
        rintro rfl
        exact hp (mem_map.mpr ⟨_, hmem, rfl⟩)
      rw [ih hentries hmem]
      simp only [hne, ↓reduceIte]
      ring

theorem le_total {f : κ → α → ℤ} (hf : ∀ p ∈ m.entries, 0 ≤ f p.1 p.2) (h : m.get? k = some a) : f k a ≤ m.total f := by
  apply single_le_sum
  · intro x hx
    obtain ⟨p, hp, rfl⟩ := mem_map.mp hx
    exact hf p hp
  · exact mem_map.mpr ⟨(k, a), mem_entries_of_get? h, rfl⟩

end AssocMap

variable [DecidableEq κ]

theorem sum_ite_of_nodup {l : List κ} (h : l.Nodup) (k : κ) (n : ℕ) :
    (l.map (fun j => if k = j then n else 0)).sum = if k ∈ l then n else 0 := by
  induction l with
  | nil => simp
  | cons j l ih =>
    obtain ⟨hj, hl⟩ := nodup_cons.mp h
    by_cases hk : k = j
    · subst hk
      simp [ih hl, hj]
    · simp [ih hl, hk]

theorem sum_find {entries : List (κ × ℕ)} {keys : List κ} (he : (entries.map Prod.fst).Nodup) (hk : keys.Nodup) :
    (keys.map (fun k => ((entries.find? (fun p => p.1 = k)).map Prod.snd).getD 0)).sum =
      ((entries.filter (fun p => p.1 ∈ keys)).map Prod.snd).sum := by
  induction entries with
  | nil => simp
  | cons p entries ih =>
    obtain ⟨k₀, n⟩ := p
    obtain ⟨hk₀, he⟩ := nodup_cons.mp he
    have hnone : entries.find? (fun p => decide (p.1 = k₀)) = none := by
      rw [find?_eq_none]
      intro p hp heq
      exact hk₀ (mem_map.mpr ⟨p, hp, by simpa using heq⟩)
    have hsplit (k : κ) :
        ((((k₀, n) :: entries).find? (fun p => decide (p.1 = k))).map Prod.snd).getD 0 =
          (if k₀ = k then n else 0) +
            ((entries.find? (fun p => decide (p.1 = k))).map Prod.snd).getD 0 := by
      by_cases h : k₀ = k
      · subst h
        simp [hnone]
      · simp [h]
    simp only [hsplit]
    rw [sum_map_add, ih he, sum_ite_of_nodup hk]
    by_cases h : k₀ ∈ keys <;> simp [h]

theorem AssocMap.sum_partition (m : AssocMap κ ℕ) (f : AssocMap κ α) : (f.keys.map (fun k => (m.get? k).getD 0)).sum +
      ((m.entries.filter (fun p => p.1 ∉ f.keys)).map Prod.snd).sum = m.values.sum := by
  have hsum := sum_find m.nodup f.nodup
  simp only [AssocMap.get?, AssocMap.keys, AssocMap.values] at hsum ⊢
  rw [hsum]
  induction m.entries with
  | nil => rfl
  | cons p entries ih =>
    by_cases h : p.1 ∈ f.entries.map Prod.fst
    · simp only [filter_cons, h, decide_true, not_true_eq_false, decide_false, ↓reduceIte,
        Bool.false_eq_true, map_cons, sum_cons] at ih ⊢
      omega
    · simp only [filter_cons, h, decide_false, not_false_eq_true, decide_true, ↓reduceIte,
        Bool.false_eq_true, map_cons, sum_cons] at ih ⊢
      omega

end Basilica.AssocMaps
