import Basilica.GpuCredits
import Basilica.ScoreSeparation
import Basilica.Seatings

/-!
The miners of the metagraph are written to the table one by one, under a unique hotkey. A miner whose UID is taken and
whose hotkey stands under another UID is passed over.
-/

namespace Basilica.Validator

open AssocMaps ColumnText Seatings StepRuns ValidatorDb List Option AssocMap

namespace ValidatorDb

/-- A miner that cannot be written is logged and passed over. -/
def syncMiner (now : MinerUid → Time) (db : ValidatorDb) (miner : MinerUid × MinerInfo) : ValidatorDb :=
  (db.ensureMinerExistsWithInfo miner.1 miner.2 (now miner.1)).getD db

def syncMinersFromMetagraph (miners : List (MinerUid × MinerInfo)) (now : MinerUid → Time) (db : ValidatorDb) : ValidatorDb :=
  miners.foldl (syncMiner now) db

end ValidatorDb

def hotkeyOf (miners : AssocMap MinerId Miner) (minerId : MinerId) : Option String := (miners.get? minerId).map Miner.hotkey

def wish (miner : MinerUid × MinerInfo) : MinerId × String := (minerIdOf miner.1, miner.2.hotkey)

structure Registered (db : ValidatorDb) : Prop where
  hotkeys : Unique (hotkeyOf db.miners)
  minerIds : ∀ minerId ∈ db.miners.keys, ∃ minerUid, minerId = minerIdOf minerUid
  owners : ∀ q ∈ db.executors.entries, q.2.minerId ∈ db.miners.keys
  executorIds : ∀ q ∈ db.executors.entries, q.1 = relationshipId q.2.minerId q.2.executorId

theorem toList_relationshipId (minerUid : MinerUid) (executorId : ExecutorId) :
    (relationshipId (minerIdOf minerUid) executorId).toList =
      "miner_".toList ++ ((toString minerUid.toNat).toList ++ '_' :: executorId.toList) := by
  change (toString (minerIdOf minerUid) ++ toString "_" ++ toString executorId).toList = _
  rw [String.toList_append, String.toList_append, ← append_assoc, ← toList_minerIdOf, append_assoc]
  rfl

theorem relationshipId_injective {minerUid minerUid' : MinerUid} {executorId executorId' : ExecutorId}
    (h : relationshipId (minerIdOf minerUid) executorId = relationshipId (minerIdOf minerUid') executorId') :
    minerUid = minerUid' ∧ executorId = executorId' := by
  have hlist := congrArg String.toList h
  rw [toList_relationshipId, toList_relationshipId] at hlist
  obtain ⟨huid, hexecutor⟩ := eq_of_append_cons (notMem_toString _ rfl) (notMem_toString _ rfl) (append_cancel_left hlist)
  exact ⟨UInt16.toNat_inj.mp (toString_injective huid), String.toList_injective hexecutor⟩

variable {minerId : MinerId} {db : ValidatorDb} {info : MinerInfo}

section Hotkeys

variable {miners : AssocMap MinerId Miner} {hotkey : String}

theorem hotkeyOf_eq_some_iff : hotkeyOf miners minerId = some hotkey ↔
    ∃ miner, (minerId, miner) ∈ miners.entries ∧ miner.hotkey = hotkey := by
  unfold hotkeyOf
  rw [map_eq_some_iff]
  constructor
  · rintro ⟨miner, hminer, hhotkey⟩
    exact ⟨miner, mem_entries_of_get? hminer, hhotkey⟩
  · rintro ⟨miner, hminer, hhotkey⟩
    exact ⟨miner, get?_of_mem hminer, hhotkey⟩

theorem hotkeyOf_of_none (h : miners.get? minerId = none) : hotkeyOf miners minerId = none := by
  rw [hotkeyOf, h, map_none]

theorem hotkeyOf_modify (f : Miner → Miner) (id : MinerId) : hotkeyOf (miners.modify minerId f) id =
      if id = minerId then (miners.get? minerId).map (fun miner => (f miner).hotkey) else hotkeyOf miners id := by
  unfold hotkeyOf
  rw [AssocMap.get?_modify]
  split_ifs
  · rw [Option.map_map]
    rfl
  · rfl

theorem hotkeyOf_insert (h : miners.get? minerId = none) (miner : Miner) (id : MinerId) :
    hotkeyOf (miners.insert minerId miner) id = if id = minerId then some miner.hotkey else hotkeyOf miners id := by
  unfold hotkeyOf
  rw [get?_insert h]
  split_ifs <;> rfl

theorem hotkeyOf_delete (oldMinerId id : MinerId) :
    hotkeyOf (miners.filterWith (fun id _ => id ≠ oldMinerId)) id = if id = oldMinerId then none else hotkeyOf miners id := by
  unfold hotkeyOf
  rw [get?_filterWith]
  split_ifs with hid
  all_goals
    cases miners.get? id with
    | none => rfl
    | some miner => simp [filter_some, hid]

theorem checkMinerByHotkey_eq_some (h : db.checkMinerByHotkey hotkey = some minerId) :
    hotkeyOf db.miners minerId = some hotkey := by
  obtain ⟨q, hq, rfl⟩ := map_eq_some_iff.mp h
  exact hotkeyOf_eq_some_iff.mpr ⟨q.2, mem_of_find?_eq_some hq, by simpa using find?_some hq⟩

theorem checkMinerByHotkey_eq_none (h : db.checkMinerByHotkey hotkey = none) (id : MinerId) :
    hotkeyOf db.miners id ≠ some hotkey := by
  intro hid
  obtain ⟨miner, hminer, hhotkey⟩ := hotkeyOf_eq_some_iff.mp hid
  exact find?_eq_none.mp (map_eq_none_iff.mp h) _ hminer (decide_eq_true hhotkey)

theorem insertMiner_of_new (hid : miners.get? minerId = none) (hhotkey : ∀ id, hotkeyOf miners id ≠ some info.hotkey) :
    insertMiner miners minerId info = some (miners.insert minerId ⟨info.hotkey, info.endpoint⟩) := by
  apply if_neg
  rintro (hkey | ⟨miner, hminer, heq⟩)
  · exact get?_eq_none_iff.mp hid hkey
  · obtain ⟨q, hq, rfl⟩ := mem_map.mp hminer
    exact hhotkey q.1 (hotkeyOf_eq_some_iff.mpr ⟨q.2, hq, heq⟩)

end Hotkeys

variable {now : Time}

section Executors

variable {newUid : MinerUid}

structure Recreating (owners : List MinerId) (newMinerId : MinerId) (rows : List ExecutorRow) (t : AssocMap String ExecutorRow) :
    Prop where
  owners : ∀ q ∈ t.entries, q.2.minerId ∈ owners
  ids : ∀ q ∈ t.entries, q.1 = relationshipId q.2.minerId q.2.executorId
  pending : ∀ q ∈ t.entries, q.2.minerId = newMinerId → q.2.executorId ∉ rows.map ExecutorRow.executorId

variable {owners : List MinerId} {row : ExecutorRow} {rows : List ExecutorRow} {t : AssocMap String ExecutorRow}

theorem Recreating.tail {newMinerId : MinerId}
    (h : Recreating owners newMinerId (row :: rows) t) : Recreating owners newMinerId rows t where
  owners := h.owners
  ids := h.ids
  pending q hq hid := not_mem_of_not_mem_cons (h.pending q hq hid)

variable (hids : ∀ minerId ∈ owners, ∃ minerUid, minerId = minerIdOf minerUid)

include hids

theorem Recreating.step
    (hnew : minerIdOf newUid ∈ owners)
    (hnodup : ((row :: rows).map ExecutorRow.executorId).Nodup)
    (h : Recreating owners (minerIdOf newUid) (row :: rows) t) :
    ∃ t', recreateExecutor (minerIdOf newUid) now t row = some t' ∧ Recreating owners (minerIdOf newUid) rows t' := by
  unfold recreateExecutor
  by_cases haddress : ∃ other ∈ t.values, other.grpcAddress = row.grpcAddress ∧ other.minerId ≠ minerIdOf newUid
  · rw [if_pos haddress]
    exact ⟨t, rfl, h.tail⟩
  rw [if_neg haddress]
  have hfresh : relationshipId (minerIdOf newUid) row.executorId ∉ t.keys := by
    intro hkey
    obtain ⟨q, hq, hid⟩ := mem_map.mp hkey
    obtain ⟨uid, huid⟩ := hids _ (h.owners q hq)
    rw [h.ids q hq, huid] at hid
    obtain ⟨rfl, hexecutor⟩ := relationshipId_injective hid
    apply h.pending q hq huid
    rw [hexecutor]
    exact mem_cons_self
  rw [if_neg hfresh]
  refine ⟨_, rfl, ?_, ?_, ?_⟩ <;> intro q hq <;> rw [insert_entries (get?_eq_none_iff.mpr hfresh)] at hq <;>
    rcases mem_append.mp hq with hq | hq
  · exact h.owners q hq
  · obtain rfl := mem_singleton.mp hq
    exact hnew
  · exact h.ids q hq
  · obtain rfl := mem_singleton.mp hq
    rfl
  · exact h.tail.pending q hq
  · obtain rfl := mem_singleton.mp hq
    intro _
    exact (nodup_cons.mp hnodup).1

theorem Recreating.foldlM
    (hnew : minerIdOf newUid ∈ owners) (hnodup : (rows.map ExecutorRow.executorId).Nodup)
    (h : Recreating owners (minerIdOf newUid) rows t) :
    ∃ t', rows.foldlM (recreateExecutor (minerIdOf newUid) now) t = some t' ∧
      Recreating owners (minerIdOf newUid) [] t' := by
  induction rows generalizing t with
  | nil => exact ⟨t, rfl, h⟩
  | cons row rows ih =>
    obtain ⟨t₁, hstep, h₁⟩ := h.step hids hnew hnodup
    obtain ⟨t₂, hrest, h₂⟩ := ih (nodup_cons.mp hnodup).2 h₁
    refine ⟨t₂, ?_, h₂⟩
    rw [foldlM_cons, hstep]
    exact hrest

end Executors

section Ensure

variable {minerUid : MinerUid}

theorem nodup_executorIds (h : Registered db) (minerId : MinerId) :
    ((db.executors.values.filter (fun row => row.minerId = minerId)).map ExecutorRow.executorId).Nodup := by
  unfold AssocMap.values
  rw [List.filter_map, List.map_map]
  apply List.Nodup.map_on
  · intro q hq q' hq' heq
    obtain ⟨hq, hid⟩ := mem_filter.mp hq
    obtain ⟨hq', hid'⟩ := mem_filter.mp hq'
    have hkey : q.1 = q'.1 := by
      rw [h.executorIds q hq, h.executorIds q' hq', of_decide_eq_true hid, of_decide_eq_true hid']
      exact congrArg (relationshipId minerId) heq
    exact inj_on_of_nodup_map db.executors.nodup hq hq' hkey
  · exact (db.executors.nodup.of_map).filter _

theorem minerIds_append (h : Registered db) (minerUid : MinerUid) {ids : List MinerId} (hids : ids ⊆ db.miners.keys) :
    ∀ minerId ∈ ids ++ [minerIdOf minerUid], ∃ minerUid, minerId = minerIdOf minerUid := by
  intro minerId hmem
  rcases mem_append.mp hmem with hmem | hmem
  · exact h.minerIds minerId (hids hmem)
  · exact ⟨minerUid, mem_singleton.mp hmem⟩

theorem exists_migrateExecutors (h : Registered db) (hnew : db.miners.get? (minerIdOf minerUid) = none) (oldMinerId : MinerId)
    (now : Time) : ∃ executors, migrateExecutors db.executors oldMinerId (minerIdOf minerUid) now = some executors ∧
      Recreating (db.miners.keys.filter (fun id => id ≠ oldMinerId) ++ [minerIdOf minerUid]) (minerIdOf minerUid) [] executors := by
  apply Recreating.foldlM
  · exact minerIds_append h minerUid (filter_subset_self _)
  · exact mem_append_right _ (mem_singleton_self _)
  · exact nodup_executorIds h oldMinerId
  · refine ⟨?_, ?_, ?_⟩ <;> intro q hq <;> obtain ⟨hq, hid⟩ := mem_filter.mp hq
    · exact mem_append_left _ (mem_filter.mpr ⟨h.owners q hq, hid⟩)
    · exact h.executorIds q hq
    · intro heq
      exact absurd (heq ▸ h.owners q hq) (get?_eq_none_iff.mp hnew)

theorem get?_delete {miners : AssocMap MinerId Miner} (h : miners.get? minerId = none) (oldMinerId : MinerId) :
    (miners.filterWith (fun id _ => id ≠ oldMinerId)).get? minerId = none := by
  rw [get?_filterWith, h, filter_none]

theorem keys_delete (miners : AssocMap MinerId Miner) (oldMinerId : MinerId) :
    (miners.filterWith (fun id _ => id ≠ oldMinerId)).keys = miners.keys.filter (fun id => id ≠ oldMinerId) := by
  unfold AssocMap.keys AssocMap.filterWith
  rw [List.filter_map]
  rfl

def Handled (db : ValidatorDb) (q : MinerId × String) (result : Option ValidatorDb) : Prop :=
  result = none ∧ Blocked (hotkeyOf db.miners) q ∨
    ∃ db', result = some db' ∧ ¬ Blocked (hotkeyOf db.miners) q ∧ Registered db' ∧ hotkeyOf db'.miners = seat (hotkeyOf db.miners) q

variable {q : MinerId × String}

section

variable (h : Registered db)

include h

theorem handled_of_seat {db' : ValidatorDb}
    (hseat : hotkeyOf db'.miners = seat (hotkeyOf db.miners) q) (hopen : ¬ Blocked (hotkeyOf db.miners) q)
    (hids : ∀ minerId ∈ db'.miners.keys, ∃ minerUid, minerId = minerIdOf minerUid)
    (howners : ∀ e ∈ db'.executors.entries, e.2.minerId ∈ db'.miners.keys)
    (hexecutors : ∀ e ∈ db'.executors.entries, e.1 = relationshipId e.2.minerId e.2.executorId) : Handled db q (some db') := by
  have hunique : Unique (hotkeyOf db'.miners) := by
    rw [hseat]
    exact unique_seat h.hotkeys q
  exact Or.inr ⟨db', rfl, hopen, ⟨hunique, hids, howners, hexecutors⟩, hseat⟩

theorem handled_modify (minerId : MinerId) (f : Miner → Miner)
    (hseat : hotkeyOf (db.miners.modify minerId f) = seat (hotkeyOf db.miners) q) (hopen : ¬ Blocked (hotkeyOf db.miners) q) :
    Handled db q (some { db with miners := db.miners.modify minerId f }) := by
  apply handled_of_seat h hseat hopen
  · rw [keys_modify]
    exact h.minerIds
  · rw [keys_modify]
    exact h.owners
  · exact h.executorIds

theorem handled_recycled {existing : Miner} (hget : db.miners.get? (minerIdOf minerUid) = some existing) :
    Handled db (wish (minerUid, info)) (db.handleRecycledMinerUid (minerIdOf minerUid) existing info) := by
  have hself : hotkeyOf db.miners (minerIdOf minerUid) = some existing.hotkey := by rw [hotkeyOf, hget, map_some]
  unfold handleRecycledMinerUid
  by_cases hne : existing.hotkey ≠ info.hotkey
  · rw [if_pos hne]
    by_cases htaken : ∃ q ∈ db.miners.entries, q.2.hotkey = info.hotkey ∧ q.1 ≠ minerIdOf minerUid
    · rw [if_pos htaken]
      obtain ⟨q, hq, hhotkey, -⟩ := htaken
      exact Or.inl ⟨rfl, ⟨existing.hotkey, hself, hne⟩, q.1, hotkeyOf_eq_some_iff.mpr ⟨q.2, hq, hhotkey⟩⟩
    · rw [if_neg htaken]
      have hfree : ∀ id, hotkeyOf db.miners id ≠ some info.hotkey := by
        intro id hid
        obtain ⟨miner, hminer, hhotkey⟩ := hotkeyOf_eq_some_iff.mp hid
        refine htaken ⟨(id, miner), hminer, hhotkey, ?_⟩
        rintro rfl
        rw [hself] at hid
        exact hne (some.inj hid)
      apply handled_modify h
      · refine eq_seat ?_ (fun id _ htaken => absurd htaken (hfree id)) ?_
        · rw [hotkeyOf_modify, hget]
          exact if_pos rfl
        · intro id (hid : id ≠ minerIdOf minerUid) _
          rw [hotkeyOf_modify, if_neg hid]
      · intro hblocked
        exact hblocked.2.elim hfree
  · rw [if_neg hne]
    rw [not_ne_iff.mp hne] at hself
    have hsame : hotkeyOf (db.miners.modify (minerIdOf minerUid) (fun miner => { miner with endpoint := info.endpoint })) =
        hotkeyOf db.miners := by
      funext id
      rw [hotkeyOf_modify]
      split_ifs with hid
      · rw [hid]
        rfl
      · rfl
    apply handled_modify h
    · rw [hsame]
      exact eq_seat hself (fun id hid hmoved => absurd (h.hotkeys _ _ _ hmoved hself) hid) (fun _ _ _ => rfl)
    · rintro ⟨⟨hotkey, hhotkey, hother⟩, -⟩
      exact hother (some.inj (hhotkey.symm.trans hself))

theorem handled_new (hid : db.miners.get? (minerIdOf minerUid) = none)
    (hhotkey : db.checkMinerByHotkey info.hotkey = none) :
    Handled db (wish (minerUid, info)) (db.createNewMiner (minerIdOf minerUid) info) := by
  have hfree := checkMinerByHotkey_eq_none hhotkey
  unfold createNewMiner
  rw [insertMiner_of_new hid hfree, map_some]
  apply handled_of_seat h
  · refine eq_seat ?_ (fun id _ htaken => absurd htaken (hfree id)) ?_
    · rw [hotkeyOf_insert hid]
      exact if_pos rfl
    · intro id (hne : id ≠ minerIdOf minerUid) _
      rw [hotkeyOf_insert hid, if_neg hne]
  · intro hblocked
    exact hblocked.2.elim hfree
  · rw [keys_insert hid]
    exact minerIds_append h minerUid (List.Subset.refl _)
  · rw [keys_insert hid]
    intro q hq
    exact mem_append_left _ (h.owners q hq)
  · exact h.executorIds

end

variable {oldMinerId : MinerId}

theorem replaceMiner_of_unique (h : Registered db) (hid : db.miners.get? (minerIdOf minerUid) = none)
    (hold : hotkeyOf db.miners oldMinerId = some info.hotkey) :
    replaceMiner db.miners oldMinerId (minerIdOf minerUid) info =
      some ((db.miners.filterWith (fun id _ => id ≠ oldMinerId)).insert (minerIdOf minerUid) ⟨info.hotkey, info.endpoint⟩) := by
  have hdeleted := get?_delete hid oldMinerId
  have hfree : ∀ id, hotkeyOf (db.miners.filterWith (fun id _ => id ≠ oldMinerId)) id ≠ some info.hotkey := by
    intro id hsome
    rw [hotkeyOf_delete] at hsome
    split_ifs at hsome with heq
    exact heq (h.hotkeys _ _ _ hsome hold)
  obtain ⟨old, hget, -⟩ := map_eq_some_iff.mp hold
  have halone : db.miners.entries.find? (fun q => q.2.hotkey = info.hotkey ∧ q.1 ≠ oldMinerId) = none := by
    rw [find?_eq_none]
    intro q hq hother
    obtain ⟨hhotkey, hother⟩ := of_decide_eq_true hother
    exact hother (h.hotkeys _ _ _ (hotkeyOf_eq_some_iff.mpr ⟨q.2, hq, hhotkey⟩) hold)
  unfold replaceMiner
  rw [hget, bind_eq_bind, bind_some, halone]
  exact insertMiner_of_new hdeleted hfree

theorem handled_migrated (h : Registered db) (hid : db.miners.get? (minerIdOf minerUid) = none)
    (hold : hotkeyOf db.miners oldMinerId = some info.hotkey) :
    Handled db (wish (minerUid, info)) (db.migrateMinerUid oldMinerId (minerIdOf minerUid) info now) := by
  obtain ⟨executors, hexecutors, hrecreated⟩ := exists_migrateExecutors h hid oldMinerId now
  have hdeleted := get?_delete hid oldMinerId
  have hkeys : ((db.miners.filterWith (fun id _ => id ≠ oldMinerId)).insert (minerIdOf minerUid)
      ⟨info.hotkey, info.endpoint⟩).keys = db.miners.keys.filter (fun id => id ≠ oldMinerId) ++ [minerIdOf minerUid] := by
    rw [keys_insert hdeleted, keys_delete]
  unfold migrateMinerUid
  rw [replaceMiner_of_unique h hid hold, hexecutors, bind_eq_bind, bind_some, bind_eq_bind, bind_some]
  apply handled_of_seat h
  · refine eq_seat ?_ ?_ ?_
    · rw [hotkeyOf_insert hdeleted]
      exact if_pos rfl
    · intro id (hne : id ≠ minerIdOf minerUid) hmoved
      rw [hotkeyOf_insert hdeleted, if_neg hne, hotkeyOf_delete, if_pos (h.hotkeys _ _ _ hmoved hold)]
    · intro id (hne : id ≠ minerIdOf minerUid) hother
      have hkept : id ≠ oldMinerId := by
        rintro rfl
        exact hother hold
      rw [hotkeyOf_insert hdeleted, if_neg hne, hotkeyOf_delete, if_neg hkept]
  · rintro ⟨⟨hotkey, hhotkey, -⟩, -⟩
    exact some_ne_none hotkey (hhotkey.symm.trans (hotkeyOf_of_none hid))
  · rw [hkeys]
    exact minerIds_append h minerUid (filter_subset_self _)
  · rw [hkeys]
    exact hrecreated.owners
  · exact hrecreated.ids

theorem handled_ensure (h : Registered db) (minerUid : MinerUid) (info : MinerInfo) (now : Time) :
    Handled db (wish (minerUid, info)) (db.ensureMinerExistsWithInfo minerUid info now) := by
  unfold ensureMinerExistsWithInfo
  dsimp only
  cases hid : db.miners.get? (minerIdOf minerUid) with
  | some existing => exact handled_recycled h hid
  | none =>
    dsimp only
    cases hhotkey : db.checkMinerByHotkey info.hotkey with
    | some oldMinerId => exact handled_migrated h hid (checkMinerByHotkey_eq_some hhotkey)
    | none => exact handled_new h hid hhotkey

end Ensure

section Sync

variable {miners : List (MinerUid × MinerInfo)}

theorem syncMiner_spec (h : Registered db) (now : MinerUid → Time) (miner : MinerUid × MinerInfo) :
    Registered (db.syncMiner now miner) ∧
      hotkeyOf (db.syncMiner now miner).miners = register (hotkeyOf db.miners) (wish miner) := by
  unfold syncMiner register
  rcases handled_ensure h miner.1 miner.2 (now miner.1) with
    ⟨hnone, hblocked⟩ | ⟨db', hsome, hblocked, hregistered, hseat⟩
  · rw [hnone, if_pos hblocked]
    exact ⟨h, rfl⟩
  · rw [hsome, if_neg hblocked]
    exact ⟨hregistered, hseat⟩

theorem syncMinersFromMetagraph_spec (h : Registered db) (miners : List (MinerUid × MinerInfo)) (now : MinerUid → Time) :
    Registered (db.syncMinersFromMetagraph miners now) ∧
      hotkeyOf (db.syncMinersFromMetagraph miners now).miners = (miners.map wish).foldl register (hotkeyOf db.miners) := by
  unfold syncMinersFromMetagraph
  induction miners generalizing db with
  | nil => exact ⟨h, rfl⟩
  | cons miner miners ih =>
    obtain ⟨hregistered, hstep⟩ := syncMiner_spec h now miner
    obtain ⟨hrest, hfold⟩ := ih hregistered
    refine ⟨hrest, ?_⟩
    rw [map_cons, foldl_cons, foldl_cons, hfold, hstep]

def passes (miners : List (MinerUid × MinerInfo)) (times : List (MinerUid → Time)) (db : ValidatorDb) : ValidatorDb :=
  times.foldl (fun db now => db.syncMinersFromMetagraph miners now) db

theorem passes_spec (h : Registered db) (times : List (MinerUid → Time)) : Registered (passes miners times db) ∧
      hotkeyOf (passes miners times db).miners = ((miners.map wish).foldl register)^[times.length] (hotkeyOf db.miners) := by
  unfold passes
  induction times generalizing db with
  | nil => exact ⟨h, rfl⟩
  | cons now times ih =>
    obtain ⟨hregistered, hstep⟩ := syncMinersFromMetagraph_spec h miners now
    obtain ⟨hrest, hpasses⟩ := ih hregistered
    refine ⟨hrest, ?_⟩
    rw [length_cons, Function.iterate_succ_apply, foldl_cons, hpasses, hstep]

def Listed (miners : List (MinerUid × MinerInfo)) (db : ValidatorDb) : Prop :=
  ∀ miner ∈ miners, hotkeyOf db.miners (minerIdOf miner.1) = some miner.2.hotkey

instance (miners : List (MinerUid × MinerInfo)) (db : ValidatorDb) : Decidable (Listed miners db) :=
  inferInstanceAs (Decidable (∀ miner ∈ miners, hotkeyOf db.miners (minerIdOf miner.1) = some miner.2.hotkey))

structure Snapshot (miners : List (MinerUid × MinerInfo)) : Prop where
  uids : (miners.map Prod.fst).Nodup
  hotkeys : (miners.map (fun miner => miner.2.hotkey)).Nodup

theorem Snapshot.distinct (h : Snapshot miners) : Distinct (miners.map wish) where
  seats := by
    have hids : (miners.map wish).map Prod.fst = (miners.map Prod.fst).map minerIdOf := by
      rw [List.map_map, List.map_map]
      rfl
    rw [hids]
    exact h.uids.map minerIdOf_injective
  holders := by
    rw [List.map_map]
    exact h.hotkeys

theorem listed_passes_iff (h : Registered db) (hsnapshot : Snapshot miners) (times : List (MinerUid → Time)) {n : ℕ}
    (htimes : times.length = n + 1) : Listed miners (passes miners times db) ↔
      ∀ miner ∈ miners, ∃ m ≤ n, Chain (hotkeyOf db.miners) (miners.map wish) m (wish miner) := by
  unfold Listed
  rw [(passes_spec h times).2, htimes]
  refine forall₂_congr (fun miner hminer => ?_)
  exact passes_eq_iff h.hotkeys hsnapshot.distinct (mem_map_of_mem hminer) n

theorem listed_after_two_passes_iff (h : Registered db) (hsnapshot : Snapshot miners) (first second : MinerUid → Time) :
    Listed miners ((db.syncMinersFromMetagraph miners first).syncMinersFromMetagraph miners second) ↔
      ∀ miner ∈ miners, ∃ n ≤ 1, Chain (hotkeyOf db.miners) (miners.map wish) n (wish miner) :=
  listed_passes_iff h hsnapshot [first, second] rfl

end Sync

def emptyDb : ValidatorDb := ⟨.empty, .empty, .empty, [], []⟩

theorem registered_empty : Registered emptyDb := by
  refine ⟨?_, ?_, ?_, ?_⟩
  · intro u v hotkey hu
    cases hu
  · intro minerId hid
    cases hid
  · intro q hq
    cases hq
  · intro q hq
    cases hq

section Tables

variable {db' : ValidatorDb}

theorem Registered.of_alike (h : Registered db) (hminers : db'.miners = db.miners) (halike : Alike db'.executors db.executors) :
    Registered db' := by
  have hrow : ∀ q ∈ db'.executors.entries, q.2.minerId ∈ db.miners.keys ∧ q.1 = relationshipId q.2.minerId q.2.executorId := by
    intro q hq
    have hmem : outline q ∈ db.executors.entries.map outline := by
      rw [← halike]
      exact mem_map_of_mem hq
    obtain ⟨q', hq', heq⟩ := mem_map.mp hmem
    simp only [outline, Prod.mk.injEq] at heq
    obtain ⟨hid, hminer, hexecutor, -⟩ := heq
    rw [← hid, ← hminer, ← hexecutor]
    exact ⟨h.owners q' hq', h.executorIds q' hq'⟩
  exact ⟨hminers ▸ h.hotkeys, hminers ▸ h.minerIds, hminers ▸ fun q hq => (hrow q hq).1, fun q hq => (hrow q hq).2⟩

theorem Registered.insertExecutor (h : Registered db) (hminer : minerId ∈ db.miners.keys)
    (executorId : ExecutorId) (grpcEndpoint : String) (now : Time) :
    Registered (db.insertExecutor minerId executorId grpcEndpoint now) := by
  unfold ValidatorDb.insertExecutor
  dsimp only
  cases hid : db.executors.get? (relationshipId minerId executorId) with
  | some old =>
    rw [insert_of_get? hid]
    exact h
  | none =>
    refine ⟨h.hotkeys, h.minerIds, ?_, ?_⟩ <;> intro q hq <;> rw [insert_entries hid] at hq <;>
      rcases mem_append.mp hq with hq | hq
    · exact h.owners q hq
    · obtain rfl := mem_singleton.mp hq
      exact hminer
    · exact h.executorIds q hq
    · obtain rfl := mem_singleton.mp hq
      rfl

theorem Registered.linkExecutor (h : Registered db) (hminer : minerId ∈ db.miners.keys)
    (executorId : ExecutorId) (grpcEndpoint : String) (now : Time) :
    Registered (db.linkExecutor minerId executorId grpcEndpoint now).2 := by
  have hminers := (sameRest_linkExecutor minerId executorId grpcEndpoint now db).2
  unfold ValidatorDb.linkExecutor at hminers ⊢
  split_ifs with hhas
  · rw [if_pos hhas] at hminers
    exact h.of_alike hminers (alike_retireDuplicates _ _)
  · split
    · exact h
    · apply Registered.insertExecutor
      · split
        · exact ⟨h.hotkeys, h.minerIds, fun q hq => h.owners q (mem_filter.mp hq).1, fun q hq => h.executorIds q (mem_filter.mp hq).1⟩
        · exact h
      · split <;> exact hminer

theorem Registered.perform (h : Registered db) (op : StoreOp) : Registered (op.perform db) := by
  have hchecked : Registered (db.recordCheck op.minerUid op.result op.now) := h.of_alike rfl alike_recordCheck
  unfold StoreOp.perform
  by_cases hfull : op.result.FullSuccess
  · rw [store_of_fullSuccess hfull]
    rcases handled_ensure hchecked op.minerUid op.info op.now with ⟨hnone, -⟩ | ⟨db', hsome, -, hregistered, hseat⟩
    · rw [others_storeFullValidation_of_none hnone]
      exact hchecked
    · have hminer : minerIdOf op.minerUid ∈ db'.miners.keys := by
        by_contra hnew
        have hself : seat (hotkeyOf (db.recordCheck op.minerUid op.result op.now).miners) (wish (op.minerUid, op.info))
            (minerIdOf op.minerUid) = some op.info.hotkey := if_pos rfl
        rw [← hseat, hotkeyOf_of_none (get?_eq_none_iff.mpr hnew)] at hself
        cases hself
      obtain ⟨halike, -, hminers⟩ := storeFullValidation_cases op.result hsome
      exact (hregistered.linkExecutor hminer _ _ _).of_alike hminers halike
  · unfold storeExecutorVerificationResult
    split_ifs with hsuccess
    · exact hchecked.of_alike rfl rfl
    · cases htype : op.result.validationType with
      | lightweight => exact hchecked.of_alike rfl rfl
      | full => exact absurd ⟨Bool.eq_true_of_not_eq_false hsuccess, htype⟩ hfull

inductive TableEvent
  | sync (miners : List (MinerUid × MinerInfo)) (now : MinerUid → Time)
  | store (op : StoreOp)

def TableEvent.perform : TableEvent → ValidatorDb → ValidatorDb
  | sync miners now, db => db.syncMinersFromMetagraph miners now
  | store op, db => op.perform db

/-- Whatever is synced and stored, the rows stay in order, and a miner is refused only where its UID and its hotkey both stand
with others: no executor that moves with a hotkey meets a row of its new id. -/
theorem ensure_refused_iff_throughout (l : List TableEvent) :
    Throughout TableEvent.perform (fun db => Registered db ∧ ∀ minerUid info now,
      db.ensureMinerExistsWithInfo minerUid info now = none ↔ Blocked (hotkeyOf db.miners) (wish (minerUid, info))) l emptyDb := by
  refine throughout_of_step (I := Registered) ?_ ?_ registered_empty (eachStep_of_forall (fun _ _ => trivial) emptyDb)
  · intro event db hdb _
    cases event with
    | sync miners now => exact (syncMinersFromMetagraph_spec hdb miners now).1
    | store op => exact hdb.perform op
  · intro db hdb
    refine ⟨hdb, fun minerUid info now => ?_⟩
    rcases handled_ensure hdb minerUid info now with ⟨hnone, hblocked⟩ | ⟨db', hsome, hopen, -⟩
    · exact iff_of_true hnone hblocked
    · rw [hsome]
      exact iff_of_false (some_ne_none db') hopen

end Tables

def alice : MinerInfo := ⟨"alice", "http://10.0.0.1:8080"⟩

def bob : MinerInfo := ⟨"bob", "http://10.0.0.2:8080"⟩

def carol : MinerInfo := ⟨"carol", "http://10.0.0.3:8080"⟩

def syncedDb : ValidatorDb := emptyDb.syncMinersFromMetagraph [(0, alice), (1, bob)] (fun _ => 0)

theorem swapped_hotkeys_not_listed : Snapshot [(0, bob), (1, alice)] ∧
    ¬ Listed [(0, bob), (1, alice)] ((syncedDb.syncMinersFromMetagraph [(0, bob), (1, alice)] (fun _ => 0)).syncMinersFromMetagraph
      [(0, bob), (1, alice)] (fun _ => 0)) := by
  refine ⟨⟨by decide, by decide⟩, ?_⟩
  decide +kernel

theorem shifted_hotkeys_listed : Listed [(1, alice), (0, carol)]
    ((syncedDb.syncMinersFromMetagraph [(1, alice), (0, carol)] (fun _ => 0)).syncMinersFromMetagraph
      [(1, alice), (0, carol)] (fun _ => 0)) := by
  have hcarol : Chain (hotkeyOf syncedDb.miners) [wish (1, alice), wish (0, carol)] 0 (wish (0, carol)) := by
    refine .free (mem_cons_of_mem _ mem_cons_self) (Or.inr (Or.inr ?_))
    intro minerId hid
    obtain ⟨miner, hminer, hhotkey⟩ := hotkeyOf_eq_some_iff.mp hid
    have hnone : ∀ q ∈ syncedDb.miners.entries, q.2.hotkey ≠ carol.hotkey := by decide +kernel
    exact hnone _ hminer hhotkey
  refine (listed_after_two_passes_iff (syncMinersFromMetagraph_spec registered_empty _ _).1 ⟨by decide, by decide⟩ _ _).mpr ?_
  intro miner hminer
  rcases mem_cons.mp hminer with rfl | hminer
  · exact ⟨1, le_rfl, .ahead mem_cons_self (Or.inr (by decide +kernel)) hcarol⟩
  · obtain rfl := mem_singleton.mp hminer
    exact ⟨0, Nat.zero_le _, hcarol⟩

end Basilica.Validator
