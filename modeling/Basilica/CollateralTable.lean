import Basilica.CollateralContract
import Basilica.ColumnText

/-!
The table `collateral_status`. The rows carry the constraints that the database enforces: ids are
unique and below the counter of the next one, and so is each pair `(hotkey, executor_id)`.
-/

namespace Basilica.Collateral

open ColumnText List

structure Row where
  id : ℕ
  hotkey : String
  executorId : String
  miner : String
  collateral : String
  url : Option String
  urlContentMd5Checksum : Option String

def Row.key (r : Row) : String × String := (r.hotkey, r.executorId)

structure Table where
  rows : List Row
  nextId : ℕ
  ids_lt : ∀ r ∈ rows, r.id < nextId
  ids_nodup : (rows.map Row.id).Nodup
  keys_nodup : (rows.map Row.key).Nodup

namespace Table

def empty : Table := ⟨[], 1, by simp, by simp, by simp⟩

def find (t : Table) (key : String × String) : Option Row := t.rows.find? (fun r => r.key = key)

def update (t : Table) (id : ℕ) (f : Row → Row) (hid : ∀ r, (f r).id = r.id)
    (hkey : ∀ r, (f r).key = r.key) : Table where
  rows := t.rows.map (fun r => if r.id = id then f r else r)
  nextId := t.nextId
  ids_lt := by
    intro r hr
    obtain ⟨r', hr', rfl⟩ := mem_map.mp hr
    have hlt := t.ids_lt r' hr'
    split_ifs
    · rwa [hid]
    · exact hlt
  ids_nodup := by
    have hids : Row.id ∘ (fun r => if r.id = id then f r else r) = Row.id := by
      funext r
      simp only [Function.comp_apply]
      split_ifs
      · exact hid r
      · rfl
    rw [map_map, hids]
    exact t.ids_nodup
  keys_nodup := by
    have hkeys : Row.key ∘ (fun r => if r.id = id then f r else r) = Row.key := by
      funext r
      simp only [Function.comp_apply]
      split_ifs
      · exact hkey r
      · rfl
    rw [map_map, hkeys]
    exact t.keys_nodup

variable {t : Table} {key : String × String}

theorem not_mem_keys (h : t.find key = none) : key ∉ t.rows.map Row.key := by
  rw [find, find?_eq_none] at h
  intro hmem
  obtain ⟨r, hr, hrk⟩ := mem_map.mp hmem
  exact h r hr (by simpa using hrk)

def insert (t : Table) (key : String × String) (miner collateral : String)
    (h : t.find key = none) : Table where
  rows := t.rows ++ [⟨t.nextId, key.1, key.2, miner, collateral, none, none⟩]
  nextId := t.nextId + 1
  ids_lt := by
    intro r hr
    rcases mem_append.mp hr with hr | hr
    · exact Nat.lt_succ_of_lt (t.ids_lt r hr)
    · rw [mem_singleton.mp hr]
      exact Nat.lt_succ_self _
  ids_nodup := by
    rw [map_append, nodup_append]
    refine ⟨t.ids_nodup, by simp, ?_⟩
    intro a ha b hb
    obtain ⟨r, hr, rfl⟩ := mem_map.mp ha
    have hlt := t.ids_lt r hr
    simp only [map_cons, map_nil, mem_singleton] at hb
    omega
  keys_nodup := by
    rw [map_append, nodup_append]
    refine ⟨t.keys_nodup, by simp, ?_⟩
    intro a ha b hb
    simp only [map_cons, map_nil, mem_singleton, Row.key] at hb
    have hbk : b = key := hb
    rintro rfl
    exact not_mem_keys h (hbk ▸ ha)

theorem find_update {r : Row} (hr : t.find key = some r)
    (f : Row → Row) (hid : ∀ r, (f r).id = r.id) (hkey : ∀ r, (f r).key = r.key) (key' : String × String) :
    (t.update r.id f hid hkey).find key' = if key' = key then some (f r) else t.find key' := by
  have hkeys : (fun x => decide (Row.key x = key')) ∘ (fun x : Row => if x.id = r.id then f x else x) =
      fun x => decide (Row.key x = key') := by
    funext x
    simp only [Function.comp_apply]
    split_ifs
    · rw [hkey]
    · rfl
  have hmap : (t.update r.id f hid hkey).find key' =
      (t.find key').map (fun x => if x.id = r.id then f x else x) := by
    rw [find, update, find?_map, hkeys, find]
  rw [hmap]
  split_ifs with h
  · simp [h, hr]
  · cases hf : t.find key' with
    | none => rfl
    | some x =>
      have hmem := mem_of_find?_eq_some hr
      have hmem' := mem_of_find?_eq_some hf
      have hx : x.id ≠ r.id := by
        intro heq
        obtain rfl := inj_on_of_nodup_map t.ids_nodup hmem' hmem heq
        have h1 : x.key = key := by simpa using find?_some hr
        have h2 : x.key = key' := by simpa using find?_some hf
        exact h (h2.symm.trans h1)
      simp [hx]

theorem find_insert (h : t.find key = none) (miner collateral : String) (key' : String × String) :
    (t.insert key miner collateral h).find key' =
      if key' = key then some ⟨t.nextId, key.1, key.2, miner, collateral, none, none⟩ else t.find key' := by
  have happend : (t.insert key miner collateral h).find key' = (t.find key').or
      (if key' = key then some ⟨t.nextId, key.1, key.2, miner, collateral, none, none⟩ else none) := by
    rw [find, insert, find?_append, find]
    by_cases hk : key' = key
    · simp [hk, Row.key]
    · simp [hk, Ne.symm hk, Row.key]
  rw [happend]
  split_ifs with hk
  · simp [hk, h]
  · simp

end Table

end Basilica.Collateral
