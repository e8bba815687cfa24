import Basilica.ExecutorFrames

/-!
What moving a miner to a new id leaves behind. An executor whose address another miner has is not made anew, but its GPUs
move all the same.
-/

namespace Basilica.Validator

open AssocMaps ValidatorDb List AssocMap

variable {oldMinerId minerId : MinerId} {now : Time} {t t' : AssocMap String ExecutorRow}

def AddressFree (minerId : MinerId) (t : AssocMap String ExecutorRow) (address : String) : Prop :=
  ∀ q ∈ others minerId t, q.2.grpcAddress ≠ address

theorem recreateExecutor_holds {row : ExecutorRow} (h : recreateExecutor minerId now t row = some t') (executorId : ExecutorId) :
    (∃ other ∈ t'.values, other.Of minerId executorId) ↔
      (∃ other ∈ t.values, other.Of minerId executorId) ∨ row.executorId = executorId ∧ AddressFree minerId t row.grpcAddress := by
  have hfree : (∃ other ∈ t.values, other.grpcAddress = row.grpcAddress ∧ other.minerId ≠ minerId) ↔
      ¬ AddressFree minerId t row.grpcAddress := by
    simp only [AddressFree, mem_others, values, mem_map]
    push Not
    grind
  unfold recreateExecutor at h
  split_ifs at h with hused hkey
  · cases h
    simp [hfree.mp hused]
  · cases h
    have hentries := insert_entries (get?_eq_none_iff.mpr hkey)
      { row with minerId := minerId, lastHealthCheck := none, updatedAt := .ofNow now }
    rw [values, hentries, map_append]
    simp [not_not.mp (mt hfree.mpr hused), ExecutorRow.Of, or_and_right, exists_or, values]

theorem recreateExecutors_holds {rows : List ExecutorRow} (h : rows.foldlM (recreateExecutor minerId now) t = some t')
    (executorId : ExecutorId) : (∃ other ∈ t'.values, other.Of minerId executorId) ↔
      (∃ other ∈ t.values, other.Of minerId executorId) ∨
        ∃ row ∈ rows, row.executorId = executorId ∧ AddressFree minerId t row.grpcAddress := by
  induction rows generalizing t with
  | nil =>
    cases h
    simp
  | cons row rows ih =>
    rw [foldlM_cons] at h
    obtain ⟨t₁, hrow, hrows⟩ := Option.bind_eq_some_iff.mp h
    have hfree : ∀ address, AddressFree minerId t₁ address ↔ AddressFree minerId t address := by
      intro address
      rw [AddressFree, others_recreateExecutor hrow, AddressFree]
    rw [ih hrows, recreateExecutor_holds hrow]
    simp only [hfree, mem_cons, exists_eq_or_imp, or_assoc]

theorem migrateExecutors_holds (h : migrateExecutors t oldMinerId minerId now = some t') (hne : oldMinerId ≠ minerId)
    (executorId : ExecutorId) : (∃ other ∈ t'.values, other.Of minerId executorId) ↔
      ∃ row ∈ t.values, row.executorId = executorId ∧ (row.minerId = minerId ∨ row.minerId = oldMinerId ∧
        ∀ other ∈ t.values, other.grpcAddress = row.grpcAddress → other.minerId = oldMinerId ∨ other.minerId = minerId) := by
  have hfree : ∀ address, AddressFree minerId (t.filterWith (fun _ row => row.minerId ≠ oldMinerId)) address ↔
      ∀ other ∈ t.values, other.grpcAddress = address → other.minerId = oldMinerId ∨ other.minerId = minerId := by
    intro address
    simp only [AddressFree, mem_others, filterWith, values, mem_map, mem_filter, decide_eq_true_eq]
    grind
  have hkept : ∀ row, row ∈ (t.filterWith (fun _ row => row.minerId ≠ oldMinerId)).values ↔
      row ∈ t.values ∧ row.minerId ≠ oldMinerId := by
    intro row
    simp only [filterWith, values, mem_map, mem_filter, decide_eq_true_eq]
    grind
  rw [recreateExecutors_holds h]
  simp only [hfree, hkept, mem_filter, decide_eq_true_eq, ExecutorRow.Of]
  constructor
  · rintro (⟨row, ⟨hrow, -⟩, hminer, hexecutor⟩ | ⟨row, ⟨hrow, hminer⟩, hexecutor, hall⟩)
    · exact ⟨row, hrow, hexecutor, Or.inl hminer⟩
    · exact ⟨row, hrow, hexecutor, Or.inr ⟨hminer, hall⟩⟩
  · rintro ⟨row, hrow, hexecutor, hminer | ⟨hminer, hall⟩⟩
    · exact Or.inl ⟨row, ⟨hrow, hminer ▸ hne.symm⟩, hminer, hexecutor⟩
    · exact Or.inr ⟨row, ⟨hrow, hminer⟩, hexecutor, hall⟩

theorem minerIds_migrateExecutors (h : migrateExecutors t oldMinerId minerId now = some t') (hne : oldMinerId ≠ minerId) :
    ∀ row ∈ t'.values, row.minerId ≠ oldMinerId := by
  intro row hrow heq
  obtain ⟨q, hq, rfl⟩ := mem_map.mp hrow
  have hother : q ∈ others minerId t' := mem_others.mpr ⟨hq, heq ▸ hne⟩
  rw [others_migrateExecutors h] at hother
  exact of_decide_eq_true (mem_filter.mp hother).2 heq

theorem mem_keys_replaceMiner {miners miners' : AssocMap MinerId Miner} {info : MinerInfo}
    (h : replaceMiner miners oldMinerId minerId info = some miners') : oldMinerId ∈ miners'.keys ↔ oldMinerId = minerId := by
  unfold replaceMiner at h
  obtain ⟨old, -, h⟩ := Option.bind_eq_some_iff.mp h
  have hdeleted : oldMinerId ∉ (miners.filterWith (fun id _ => id ≠ oldMinerId)).keys := by
    simp [AssocMap.keys, AssocMap.filterWith]
  dsimp only at h
  split at h
  next q hfind =>
    split_ifs at h with hq
    cases h
    have hother := find?_some hfind
    simp only [decide_eq_true_eq] at hother
    exact iff_of_false hdeleted (fun heq => hother.2 (hq.trans heq.symm))
  · unfold insertMiner at h
    split_ifs at h with hkey
    cases h
    rw [keys_insert (get?_eq_none_iff.mpr (fun hmem => hkey (Or.inl hmem))), mem_append, mem_singleton]
    exact or_iff_right hdeleted

theorem migration_consistent_iff (db : ValidatorDb) (oldMinerId minerId : MinerId) (info : MinerInfo) (now : Time)
    {db' : ValidatorDb} (h : db.migrateMinerUid oldMinerId minerId info now = some db') :
    ((oldMinerId ∉ db'.miners.keys ∧ (∀ row ∈ db'.executors.values, row.minerId ≠ oldMinerId) ∧
        ∀ gpu ∈ db'.gpus.values, gpu.minerId ≠ oldMinerId) ∧
      ∀ gpu ∈ db'.gpus.values, gpu.minerId = minerId → ∃ row ∈ db'.executors.values, row.Of minerId gpu.executorId) ↔
    oldMinerId ≠ minerId ∧ ∀ gpu ∈ db.gpus.values, gpu.minerId = oldMinerId ∨ gpu.minerId = minerId →
      ∃ row ∈ db.executors.values, row.executorId = gpu.executorId ∧ (row.minerId = minerId ∨ row.minerId = oldMinerId ∧
        ∀ other ∈ db.executors.values, other.grpcAddress = row.grpcAddress →
          other.minerId = oldMinerId ∨ other.minerId = minerId) := by
  unfold migrateMinerUid at h
  obtain ⟨miners, hminers, h⟩ := Option.bind_eq_some_iff.mp h
  obtain ⟨executors, hexecutors, h⟩ := Option.bind_eq_some_iff.mp h
  cases h
  have hkeys := mem_keys_replaceMiner hminers
  rcases eq_or_ne oldMinerId minerId with rfl | hne
  · exact iff_of_false (fun hleft => hleft.1.1 (hkeys.mpr rfl)) (fun hright => hright.1 rfl)
  have hgpus : (migrateGpus db.gpus oldMinerId minerId).values = db.gpus.values.map
      (fun gpu => if gpu.minerId = oldMinerId then { gpu with minerId := minerId } else gpu) := by
    simp [migrateGpus, mapWith, values]
  simp only [hgpus, forall_mem_map, migrateExecutors_holds hexecutors hne]
  have hold : ∀ gpu ∈ db.gpus.values,
      (if gpu.minerId = oldMinerId then { gpu with minerId := minerId } else gpu).minerId ≠ oldMinerId := by
    intro gpu _
    split_ifs with hgpu
    · exact hne.symm
    · exact hgpu
  rw [and_iff_right ⟨mt hkeys.mp hne, minerIds_migrateExecutors hexecutors hne, hold⟩, and_iff_right hne]
  refine forall₂_congr (fun gpu _ => ?_)
  split_ifs with hgpu
  · simp [hgpu]
  · simp [hgpu]

def sharedAddress : ValidatorDb where
  miners := (AssocMap.empty.insert "miner_1" ⟨"alice", "a:1"⟩).insert "miner_2" ⟨"bob", "b:1"⟩
  executors := (AssocMap.empty.insert "x" (.plain 1 "e" "host:1" .online)).insert "y" (.plain 2 "f" "host:1" .online)
  gpus := AssocMap.empty.insert "g" ((GpuInfo.plain "g").assignment "miner_1" "e" (.dateTime 0))
  logs := []
  rentals := []

theorem migration_consistent_iff_sharedAddress :
    ∃ db', sharedAddress.migrateMinerUid "miner_1" "miner_3" ⟨"alice", "a:1"⟩ 0 = some db' ∧
      ¬ ((("miner_1" ∉ db'.miners.keys ∧ (∀ row ∈ db'.executors.values, row.minerId ≠ "miner_1") ∧
          ∀ gpu ∈ db'.gpus.values, gpu.minerId ≠ "miner_1") ∧
        ∀ gpu ∈ db'.gpus.values, gpu.minerId = "miner_3" → ∃ row ∈ db'.executors.values, row.Of "miner_3" gpu.executorId)) :=
  ⟨_, rfl, mt (migration_consistent_iff sharedAddress "miner_1" "miner_3" ⟨"alice", "a:1"⟩ 0 rfl).mp (by decide +kernel)⟩

theorem gpu_without_executor : ∃ db', sharedAddress.migrateMinerUid "miner_1" "miner_3" ⟨"alice", "a:1"⟩ 0 = some db' ∧
      ∃ gpu ∈ db'.gpus.values, gpu.minerId = "miner_3" ∧ ¬ ∃ row ∈ db'.executors.values, row.Of "miner_3" gpu.executorId :=
  ⟨_, rfl, by decide +kernel⟩

end Basilica.Validator
