import Basilica.ExecutorFrames
import Basilica.MinerScores
import Basilica.StepRuns

/-!
What the score of a miner depends on: its own executors and the verifications logged under their ids.
-/

namespace Basilica.Validator

open AssocMaps StepRuns ValidatorDb List Option AssocMap

variable {db : ValidatorDb} {minerId : MinerId} {now : Time}

section Rows

variable {actor : MinerId} {t t' : AssocMap String ExecutorRow}

def rowsOf (minerId : MinerId) (t : AssocMap String ExecutorRow) : List (String × ExecutorId × String) :=
  (t.entries.filter (fun q => q.2.minerId = minerId)).map (fun q => (q.1, q.2.executorId, q.2.grpcAddress))

theorem rowsOf_of_alike (h : Alike t t') : rowsOf minerId t = rowsOf minerId t' := by
  have hrows : ∀ u : AssocMap String ExecutorRow,
      rowsOf minerId u = ((u.entries.map outline).filter (fun x => x.2.1 = minerId)).map (fun x => (x.1, x.2.2)) := by
    intro u
    unfold rowsOf
    rw [List.filter_map, List.map_map]
    rfl
  rw [hrows, hrows, h]

theorem rowsOf_eq_others (hne : minerId ≠ actor) : rowsOf minerId t =
    (((others actor t).map outline).filter (fun x => x.2.1 = minerId)).map (fun x => (x.1, x.2.2)) := by
  unfold rowsOf others
  rw [List.filter_map, List.map_map, List.filter_filter]
  congr 1
  apply filter_congr
  intro q _
  by_cases hq : q.2.minerId = minerId
  · simp [outline, hq, hne]
  · simp [outline, hq]

theorem rowsOf_of_others (hne : minerId ≠ actor) (h : (others actor t).map outline = (others actor t').map outline) :
    rowsOf minerId t = rowsOf minerId t' := by
  rw [rowsOf_eq_others hne, rowsOf_eq_others hne, h]

theorem alike_mapWith {f : String → ExecutorRow → ExecutorRow} (hf : ∀ id row, outline (id, f id row) = outline (id, row)) :
    Alike (t.mapWith f) t := by
  unfold Alike AssocMap.mapWith
  rw [List.map_map]
  apply map_congr_left
  intro q _
  exact hf q.1 q.2

theorem alike_retireDuplicates (duplicates : List (String × ExecutorRow)) (db : ValidatorDb) :
    Alike (duplicates.foldl (retireDuplicate minerId now) db).executors db.executors := by
  refine foldlRecOn (motive := fun kept : ValidatorDb => Alike kept.executors db.executors) _ _ rfl (fun kept hkept duplicate _ => ?_)
  refine Eq.trans ?_ hkept
  unfold retireDuplicate cleanupGpuAssignments AssocMap.modify
  rw [List.map_map]
  apply map_congr_left
  intro q _
  unfold outline
  dsimp only [Function.comp_apply]
  split_ifs <;> rfl

end Rows

variable {row : String × ExecutorId × String} {executorId : ExecutorId} {grpcEndpoint : String}

section Link

variable {t : AssocMap String ExecutorRow}


def insertRow (row : String × ExecutorId × String) (rows : List (String × ExecutorId × String)) :
    List (String × ExecutorId × String) :=
  if ∃ old ∈ rows, old.1 = row.1 then rows else rows ++ [row]

def linkRows (minerId : MinerId) (executorId : ExecutorId) (grpcEndpoint : String) (rows : List (String × ExecutorId × String)) :
    List (String × ExecutorId × String) :=
  if ∃ row ∈ rows, row.2.1 = executorId then rows
  else insertRow (relationshipId minerId executorId, executorId, grpcEndpoint)
    (match rows.find? (fun row => row.2.2 = grpcEndpoint) with
      | some old => rows.filter (fun row => row.2.1 ≠ old.2.1)
      | none => rows)

theorem mem_rowsOf : row ∈ rowsOf minerId t ↔
    ∃ q ∈ t.entries, q.2.minerId = minerId ∧ (q.1, q.2.executorId, q.2.grpcAddress) = row := by
  simp only [rowsOf, List.mem_map, List.mem_filter, decide_eq_true_eq, and_assoc]

theorem hasExecutor_iff_rowsOf : db.HasExecutor minerId executorId ↔ ∃ row ∈ rowsOf minerId db.executors, row.2.1 = executorId := by
  unfold ValidatorDb.HasExecutor AssocMap.values ExecutorRow.Of
  simp only [List.mem_map, mem_rowsOf, exists_exists_and_eq_and]
  constructor
  · rintro ⟨q, hq, hminer, hid⟩
    exact ⟨_, ⟨q, hq, hminer, rfl⟩, hid⟩
  · rintro ⟨row, ⟨q, hq, hminer, rfl⟩, hid⟩
    exact ⟨q, hq, hminer, hid⟩

theorem rowsOf_insert {id : String} {row : ExecutorRow} (hrow : row.minerId = minerId)
    (hfree : ∀ q ∈ others minerId t, q.1 ≠ id) :
    rowsOf minerId (t.insert id row) = insertRow (id, row.executorId, row.grpcAddress) (rowsOf minerId t) := by
  have hiff : (∃ r ∈ rowsOf minerId t, r.1 = id) ↔ id ∈ t.keys := by
    constructor
    · rintro ⟨r, hr, rfl⟩
      obtain ⟨q, hq, -, rfl⟩ := mem_rowsOf.mp hr
      exact mem_map_of_mem hq
    · intro hid
      obtain ⟨q, hq, rfl⟩ := mem_map.mp hid
      by_cases hminer : q.2.minerId = minerId
      · exact ⟨_, mem_rowsOf.mpr ⟨q, hq, hminer, rfl⟩, rfl⟩
      · exact absurd rfl (hfree q (mem_others.mpr ⟨hq, hminer⟩))
  unfold insertRow
  by_cases hid : id ∈ t.keys
  · rw [if_pos (hiff.mpr hid)]
    obtain ⟨old, hold⟩ := ne_none_iff_exists'.mp (fun hnone => get?_eq_none_iff.mp hnone hid)
    rw [insert_of_get? hold]
  · rw [if_neg (fun hr => hid (hiff.mp hr))]
    unfold rowsOf
    rw [insert_entries (get?_eq_none_iff.mpr hid), filter_append, map_append]
    simp only [filter_cons, hrow, decide_true, ↓reduceIte, filter_nil, map_cons, map_nil]

theorem rowsOf_removed (old : ExecutorId) : rowsOf minerId (t.filterWith (fun _ row => ¬ row.Of minerId old)) =
    (rowsOf minerId t).filter (fun row => row.2.1 ≠ old) := by
  unfold rowsOf AssocMap.filterWith
  rw [List.filter_filter, List.filter_map, List.filter_filter]
  congr 1
  apply filter_congr
  intro q _
  by_cases hminer : q.2.minerId = minerId
  · simp [ExecutorRow.Of, hminer]
  · simp [hminer]

theorem find?_rowsOf (minerId : MinerId) (t : AssocMap String ExecutorRow) (grpcEndpoint : String) :
    (t.values.find? (fun row => row.grpcAddress = grpcEndpoint ∧ row.minerId = minerId)).map ExecutorRow.executorId =
      ((rowsOf minerId t).find? (fun row => row.2.2 = grpcEndpoint)).map (fun row => row.2.1) := by
  unfold AssocMap.values rowsOf
  rw [find?_map, find?_map, find?_filter, Option.map_map, Option.map_map]
  have hpredicate : (fun row : ExecutorRow => decide (row.grpcAddress = grpcEndpoint ∧ row.minerId = minerId)) ∘
      (Prod.snd : String × ExecutorRow → ExecutorRow) =
        fun q => decide (decide (q.2.minerId = minerId) = true ∧
          ((fun row : String × ExecutorId × String => decide (row.2.2 = grpcEndpoint)) ∘
            fun q : String × ExecutorRow => (q.1, q.2.executorId, q.2.grpcAddress)) q = true) := by
    funext q
    simp only [Function.comp_apply, decide_eq_true_eq, and_comm]
  rw [hpredicate]
  rfl

def Unclaimed (minerId : MinerId) (executorId : ExecutorId) (grpcEndpoint : String) (t : AssocMap String ExecutorRow) : Prop :=
  ∀ q ∈ others minerId t, q.2.grpcAddress ≠ grpcEndpoint ∧ q.1 ≠ relationshipId minerId executorId

theorem rowsOf_linkExecutor (h : db.HasExecutor minerId executorId ∨ Unclaimed minerId executorId grpcEndpoint db.executors) :
    rowsOf minerId (db.linkExecutor minerId executorId grpcEndpoint now).2.executors =
      linkRows minerId executorId grpcEndpoint (rowsOf minerId db.executors) := by
  unfold linkExecutor linkRows
  by_cases hhas : db.HasExecutor minerId executorId
  · rw [if_pos hhas, if_pos (hasExecutor_iff_rowsOf.mp hhas)]
    exact rowsOf_of_alike (alike_retireDuplicates _ _)
  · have hfree := h.resolve_left hhas
    rw [if_neg hhas, if_neg (fun hrow => hhas (hasExecutor_iff_rowsOf.mpr hrow))]
    have hnone : db.executors.values.find? (fun row => row.grpcAddress = grpcEndpoint ∧ row.minerId ≠ minerId) = none := by
      apply find?_eq_none.mpr
      intro row hrow hother
      obtain ⟨q, hq, rfl⟩ := mem_map.mp hrow
      obtain ⟨haddress, hminer⟩ := of_decide_eq_true hother
      exact (hfree q (mem_others.mpr ⟨hq, hminer⟩)).1 haddress
    have hfind := find?_rowsOf minerId db.executors grpcEndpoint
    rw [hnone]
    unfold insertExecutor
    cases hold : db.executors.values.find? (fun row => row.grpcAddress = grpcEndpoint ∧ row.minerId = minerId) with
    | none =>
      rw [hold] at hfind
      rw [map_eq_none_iff.mp hfind.symm]
      exact rowsOf_insert rfl (fun q hq => (hfree q hq).2)
    | some old =>
      rw [hold] at hfind
      obtain ⟨row, hrow, hid⟩ := map_eq_some_iff.mp hfind.symm
      rw [hrow]
      dsimp only
      unfold changeExecutorId
      rw [hid, ← rowsOf_removed]
      refine rowsOf_insert ?_ ?_
      · rfl
      intro q hq
      exact (hfree q (mem_others.mpr ⟨(mem_filter.mp (mem_others.mp hq).1).1, (mem_others.mp hq).2⟩)).2

end Link

variable {minerUid : MinerUid} {result : ExecutorVerificationResult} {info : MinerInfo}

section Logs

variable {db' : ValidatorDb}

def SameRest (db db' : ValidatorDb) : Prop := db.logs = db'.logs ∧ db.miners = db'.miners

theorem sameRest_linkExecutor (minerId : MinerId) (executorId : ExecutorId) (grpcEndpoint : String) (now : Time) (db : ValidatorDb) :
    SameRest (db.linkExecutor minerId executorId grpcEndpoint now).2 db := by
  unfold linkExecutor
  split_ifs
  · exact foldlRecOn (motive := fun kept => SameRest kept db) _ _ ⟨rfl, rfl⟩ (fun _ hkept _ _ => hkept)
  · split
    · exact ⟨rfl, rfl⟩
    · unfold insertExecutor
      split <;> exact ⟨rfl, rfl⟩

theorem storeGpuUuidAssignments_spec (minerUid : MinerUid) (executorId : ExecutorId) (gpuInfos : List GpuInfo) (now : Time)
    (db : ValidatorDb) : Alike (storeGpuUuidAssignments minerUid executorId gpuInfos now db).2.executors db.executors ∧
      SameRest (storeGpuUuidAssignments minerUid executorId gpuInfos now db).2 db := by
  have hrest : SameRest (db.assignGpus (minerIdOf minerUid) executorId gpuInfos now) db := by
    refine foldlRecOn (motive := fun kept => SameRest kept db) _ _ ?_ (fun kept hkept gpu _ => ?_)
    · unfold removeUnreported
      split_ifs <;> exact ⟨rfl, rfl⟩
    · unfold assignGpu
      split_ifs
      · split
        · split_ifs <;> exact hkept
        · exact hkept
      · exact hkept
  have hcount : ∀ gpuCount status, Alike ((db.assignGpus (minerIdOf minerUid) executorId gpuInfos now).updateExecutors
      (fun _ row => row.Of (minerIdOf minerUid) executorId) (ExecutorRow.count gpuCount status now)).executors db.executors := by
    intro gpuCount status
    unfold updateExecutors
    rw [executors_assignGpus]
    apply alike_mapWith
    intro id row
    split_ifs <;> rfl
  unfold storeGpuUuidAssignments
  dsimp only
  split
  · rw [executors_assignGpus]
    exact ⟨rfl, hrest⟩
  · split_ifs <;> exact ⟨hcount _ _, hrest⟩

theorem storeFullValidation_cases (result : ExecutorVerificationResult)
    (h : db.ensureMinerExistsWithInfo minerUid info now = some db') :
    let linked := (db'.linkExecutor (minerIdOf minerUid) result.executorId result.grpcEndpoint now).2
    Alike (storeFullValidation minerUid result info now db).2.executors linked.executors ∧
      SameRest (storeFullValidation minerUid result info now db).2 linked := by
  unfold storeFullValidation ensureMinerExecutorRelationship
  rw [h]
  dsimp only
  split
  · rename_i e db'' hlink
    rw [hlink]
    exact ⟨rfl, rfl, rfl⟩
  · rename_i r db'' hlink
    rw [hlink]
    exact storeGpuUuidAssignments_spec _ _ _ _ _

theorem logs_store (minerUid : MinerUid) (result : ExecutorVerificationResult) (info : MinerInfo) (now : Time) (db : ValidatorDb) :
    (storeExecutorVerificationResult minerUid result info now db).2.logs = db.logs ++ [result.log minerUid now] := by
  unfold storeExecutorVerificationResult
  split_ifs
  · rfl
  · split
    · cases hensure : (db.recordCheck minerUid result now).ensureMinerExistsWithInfo minerUid info now with
      | none =>
        rw [others_storeFullValidation_of_none hensure]
        rfl
      | some db' =>
        rw [(storeFullValidation_cases result hensure).2.1, (sameRest_linkExecutor _ _ _ _ _).1,
          (ensureMinerExistsWithInfo_cases hensure).1]
        rfl
    · rfl

end Logs

section Stores

variable {db' : ValidatorDb}

theorem rowsOf_recordCheck (minerUid : MinerUid) (result : ExecutorVerificationResult) (now : Time) (db : ValidatorDb) :
    rowsOf minerId (db.recordCheck minerUid result now).executors = rowsOf minerId db.executors :=
  rowsOf_of_alike alike_recordCheck

section

variable (hne : minerId ≠ minerIdOf minerUid)

include hne

theorem rowsOf_linkExecutor_other (executorId : ExecutorId) (grpcEndpoint : String)
    (db : ValidatorDb) : rowsOf minerId (db.linkExecutor (minerIdOf minerUid) executorId grpcEndpoint now).2.executors =
      rowsOf minerId db.executors := by
  apply rowsOf_of_others hne
  by_cases hhas : db.HasExecutor (minerIdOf minerUid) executorId
  · rw [others_linkExecutor_of_has hhas, List.map_map]
    apply map_congr_left
    intro q _
    unfold retired outline
    dsimp only [Function.comp_apply]
    split_ifs <;> rfl
  · rw [others_linkExecutor_of_not hhas]

theorem rowsOf_ensureMinerExists
    (h : db.ensureMinerExistsWithInfo minerUid info now = some db') (hknown : ¬ db.KnownAs minerUid info minerId) :
    rowsOf minerId db'.executors = rowsOf minerId db.executors := by
  rcases (ensureMinerExistsWithInfo_cases h).2 with ⟨-, hexecutors, -⟩ | ⟨oldMinerId, hold, hmigrated, -⟩
  · rw [hexecutors]
  · have hneOld : minerId ≠ oldMinerId := by
      rintro rfl
      exact hknown hold
    rw [rowsOf_eq_others hne, rowsOf_eq_others hne, others_migrateExecutors hmigrated, List.filter_map, List.filter_map,
      List.filter_filter]
    congr 2
    apply filter_congr
    intro q _
    by_cases hq : q.2.minerId = minerId
    · simp [outline, hq, hneOld]
    · simp [outline, hq]

theorem rowsOf_store_other (hknown : result.FullSuccess → ¬ db.KnownAs minerUid info minerId) :
    rowsOf minerId (storeExecutorVerificationResult minerUid result info now db).2.executors = rowsOf minerId db.executors := by
  rw [← rowsOf_recordCheck minerUid result now db]
  by_cases hfull : result.FullSuccess
  · rw [store_of_fullSuccess hfull]
    cases hensure : (db.recordCheck minerUid result now).ensureMinerExistsWithInfo minerUid info now with
    | none => rw [others_storeFullValidation_of_none hensure]
    | some db' =>
      rw [rowsOf_of_alike (storeFullValidation_cases result hensure).1, rowsOf_linkExecutor_other hne]
      exact rowsOf_ensureMinerExists hne hensure (hknown hfull)
  · rw [executors_store_of_not hfull]

end

def OwnHotkey (db : ValidatorDb) (minerUid : MinerUid) (info : MinerInfo) : Prop :=
  ∀ q ∈ db.miners.entries, q.2.hotkey = info.hotkey → q.1 = minerIdOf minerUid

theorem ensureMinerExists_of_ownHotkey (db : ValidatorDb) (now : Time) (h : OwnHotkey db minerUid info) :
    ∃ db', db.ensureMinerExistsWithInfo minerUid info now = some db' ∧ db'.executors = db.executors := by
  unfold ensureMinerExistsWithInfo
  dsimp only
  cases hminer : db.miners.get? (minerIdOf minerUid) with
  | some existing =>
    dsimp only
    unfold handleRecycledMinerUid
    have hfree : ¬ ∃ q ∈ db.miners.entries, q.2.hotkey = info.hotkey ∧ q.1 ≠ minerIdOf minerUid := by
      rintro ⟨q, hq, hhotkey, hne⟩
      exact hne (h q hq hhotkey)
    by_cases hhotkey : existing.hotkey ≠ info.hotkey
    · rw [if_pos hhotkey, if_neg hfree]
      exact ⟨_, rfl, rfl⟩
    · rw [if_neg hhotkey]
      exact ⟨_, rfl, rfl⟩
  | none =>
    dsimp only
    have hfree : ∀ q ∈ db.miners.entries, q.2.hotkey ≠ info.hotkey := by
      intro q hq hhotkey
      apply get?_eq_none_iff.mp hminer
      rw [← h q hq hhotkey]
      exact mem_map_of_mem hq
    have hunknown : db.checkMinerByHotkey info.hotkey = none := by
      unfold checkMinerByHotkey
      rw [map_eq_none_iff, find?_eq_none]
      intro q hq hhotkey
      exact hfree q hq (of_decide_eq_true hhotkey)
    rw [hunknown]
    dsimp only
    have hnew : ¬ (minerIdOf minerUid ∈ db.miners.keys ∨ ∃ miner ∈ db.miners.values, miner.hotkey = info.hotkey) := by
      rintro (hkey | ⟨miner, hmem, hhotkey⟩)
      · exact get?_eq_none_iff.mp hminer hkey
      · obtain ⟨q, hq, rfl⟩ := mem_map.mp hmem
        exact hfree q hq hhotkey
    unfold createNewMiner insertMiner
    rw [if_neg hnew]
    exact ⟨_, rfl, rfl⟩

theorem rowsOf_store_own (h : result.FullSuccess → OwnHotkey db minerUid info ∧
      (db.HasExecutor (minerIdOf minerUid) result.executorId ∨
        Unclaimed (minerIdOf minerUid) result.executorId result.grpcEndpoint db.executors)) :
    rowsOf (minerIdOf minerUid) (storeExecutorVerificationResult minerUid result info now db).2.executors =
      if result.FullSuccess then
        linkRows (minerIdOf minerUid) result.executorId result.grpcEndpoint (rowsOf (minerIdOf minerUid) db.executors)
      else rowsOf (minerIdOf minerUid) db.executors := by
  rw [← rowsOf_recordCheck minerUid result now db]
  by_cases hfull : result.FullSuccess
  · rw [store_of_fullSuccess hfull, if_pos hfull]
    obtain ⟨hhotkey, hlink⟩ := h hfull
    have hlink' : (db.recordCheck minerUid result now).HasExecutor (minerIdOf minerUid) result.executorId ∨
        Unclaimed (minerIdOf minerUid) result.executorId result.grpcEndpoint (db.recordCheck minerUid result now).executors := by
      apply hlink.imp (hasExecutor_recordCheck minerUid result now).mpr
      intro hfree q hq
      rw [others_recordCheck] at hq
      obtain ⟨q', hq', rfl⟩ := mem_map.mp hq
      have hfree' := hfree q' hq'
      unfold checked
      split_ifs <;> exact hfree'
    obtain ⟨db', hensure, hexecutors⟩ := ensureMinerExists_of_ownHotkey (db.recordCheck minerUid result now) now hhotkey
    rw [rowsOf_of_alike (storeFullValidation_cases result hensure).1, ← hexecutors]
    apply rowsOf_linkExecutor
    unfold ValidatorDb.HasExecutor at hlink' ⊢
    rw [hexecutors]
    exact hlink'
  · rw [executors_store_of_not hfull, if_neg hfull]

end Stores

structure StoreOp where
  minerUid : MinerUid
  result : ExecutorVerificationResult
  info : MinerInfo
  now : Time

def StoreOp.perform (op : StoreOp) (db : ValidatorDb) : ValidatorDb :=
  (storeExecutorVerificationResult op.minerUid op.result op.info op.now db).2

section View

structure MinerView where
  rows : List (String × ExecutorId × String)
  logs : List VerificationLog

def Relevant (minerUid : MinerUid) (rows : List (String × ExecutorId × String)) (log : VerificationLog) : Prop :=
  log.success = true ∧ (log.details.minerUid = minerUid ∨ ∃ row ∈ rows, row.2.1 = log.executorId)

instance (minerUid : MinerUid) (rows : List (String × ExecutorId × String)) : DecidablePred (Relevant minerUid rows) := fun _ =>
  inferInstanceAs (Decidable (_ ∧ _))

def view (minerUid : MinerUid) (db : ValidatorDb) : MinerView where
  rows := rowsOf (minerIdOf minerUid) db.executors
  logs := db.logs.filter (Relevant minerUid (rowsOf (minerIdOf minerUid) db.executors))

def MinerView.store (op : StoreOp) (v : MinerView) : MinerView :=
  let rows := if op.result.FullSuccess then
    linkRows (minerIdOf op.minerUid) op.result.executorId op.result.grpcEndpoint v.rows else v.rows
  ⟨rows, (v.logs ++ [op.result.log op.minerUid op.now]).filter (Relevant op.minerUid rows)⟩

def MinerView.joined (v : MinerView) : List VerificationLog :=
  v.logs.flatMap (fun log => (v.rows.filter (fun row => row.2.1 = log.executorId)).map (fun _ => log))

theorem successfulLogs_eq_joined (minerUid : MinerUid) (db : ValidatorDb) :
    db.successfulLogs (minerIdOf minerUid) = (view minerUid db).joined := by
  have hcopies : ∀ log : VerificationLog, (db.executors.values.filter (fun row =>
      row.executorId = log.executorId ∧ row.minerId = minerIdOf minerUid)).map (fun _ => log) =
        ((rowsOf (minerIdOf minerUid) db.executors).filter (fun row => row.2.1 = log.executorId)).map (fun _ => log) := by
    intro log
    unfold AssocMap.values rowsOf
    rw [List.filter_map, List.filter_map, List.filter_filter, List.map_map, List.map_map]
    have hpredicate : (fun row : ExecutorRow => decide (row.executorId = log.executorId ∧ row.minerId = minerIdOf minerUid)) ∘
        (Prod.snd : String × ExecutorRow → ExecutorRow) = fun q =>
          ((fun row : String × ExecutorId × String => decide (row.2.1 = log.executorId)) ∘
            fun q : String × ExecutorRow => (q.1, q.2.executorId, q.2.grpcAddress)) q && decide (q.2.minerId = minerIdOf minerUid) := by
      funext q
      simp only [Function.comp_apply, Bool.decide_and]
    rw [hpredicate]
    rfl
  unfold successfulLogs MinerView.joined view
  simp only [hcopies]
  generalize rowsOf (minerIdOf minerUid) db.executors = rows
  induction db.logs with
  | nil => rfl
  | cons log logs ih =>
    rw [flatMap_cons, filter_append, ih]
    by_cases hrelevant : Relevant minerUid rows log
    · have hself : ((rows.filter (fun row => row.2.1 = log.executorId)).map (fun _ => log)).filter VerificationLog.success =
          (rows.filter (fun row => row.2.1 = log.executorId)).map (fun _ => log) := by
        apply filter_eq_self.mpr
        intro copy hcopy
        obtain ⟨row, -, rfl⟩ := mem_map.mp hcopy
        exact hrelevant.1
      rw [hself]
      simp only [filter_cons, hrelevant, decide_true, ↓reduceIte, flatMap_cons]
    · have hnone : ((rows.filter (fun row => row.2.1 = log.executorId)).map (fun _ => log)).filter VerificationLog.success = [] := by
        apply filter_eq_nil_iff.mpr
        intro copy hcopy hsuccess
        obtain ⟨row, hrow, rfl⟩ := mem_map.mp hcopy
        obtain ⟨hrow, hid⟩ := mem_filter.mp hrow
        exact hrelevant ⟨hsuccess, Or.inr ⟨row, hrow, of_decide_eq_true hid⟩⟩
      rw [hnone, nil_append]
      simp only [filter_cons, hrelevant, decide_false, Bool.false_eq_true, ↓reduceIte]

structure Apart (minerUid : MinerUid) (op : StoreOp) (db : ValidatorDb) : Prop where
  executor : op.minerUid ≠ minerUid → op.result.success = true →
    ∀ row ∈ rowsOf (minerIdOf minerUid) db.executors, row.2.1 ≠ op.result.executorId
  hotkey : op.minerUid ≠ minerUid → op.result.FullSuccess → ¬ db.KnownAs op.minerUid op.info (minerIdOf minerUid)
  own : op.minerUid = minerUid → op.result.FullSuccess → OwnHotkey db minerUid op.info ∧
    (db.HasExecutor (minerIdOf minerUid) op.result.executorId ∨
      Unclaimed (minerIdOf minerUid) op.result.executorId op.result.grpcEndpoint db.executors ∧
      ∀ log ∈ db.logs, log.success = true → log.executorId = op.result.executorId → log.details.minerUid = minerUid)

variable {op : StoreOp}

theorem view_perform_other (hop : op.minerUid ≠ minerUid) (h : Apart minerUid op db) :
    view minerUid (op.perform db) = view minerUid db := by
  have hne : minerIdOf minerUid ≠ minerIdOf op.minerUid := fun heq => hop (minerIdOf_injective heq).symm
  have hrows : rowsOf (minerIdOf minerUid) (op.perform db).executors = rowsOf (minerIdOf minerUid) db.executors :=
    rowsOf_store_other hne (h.hotkey hop)
  have hlogs : (op.perform db).logs = db.logs ++ [op.result.log op.minerUid op.now] := logs_store _ _ _ _ _
  have hforeign : ¬ Relevant minerUid (rowsOf (minerIdOf minerUid) db.executors) (op.result.log op.minerUid op.now) := by
    rintro ⟨hsuccess, hminer | ⟨row, hrow, hid⟩⟩
    · exact hop hminer
    · exact h.executor hop hsuccess row hrow hid
  unfold view
  rw [hrows, hlogs, filter_append]
  simp only [filter_cons, hforeign, decide_false, Bool.false_eq_true, ↓reduceIte, filter_nil, append_nil]

theorem mem_linkRows
    {rows : List (String × ExecutorId × String)}
    (h : row ∈ linkRows minerId executorId grpcEndpoint rows) :
    row ∈ rows ∨ row.2.1 = executorId ∧ ¬ ∃ row ∈ rows, row.2.1 = executorId := by
  unfold linkRows at h
  by_cases hhas : ∃ row ∈ rows, row.2.1 = executorId
  · rw [if_pos hhas] at h
    exact Or.inl h
  · rw [if_neg hhas] at h
    have hkept : ∀ kept : List (String × ExecutorId × String), (∀ r ∈ kept, r ∈ rows) →
        row ∈ insertRow (relationshipId minerId executorId, executorId, grpcEndpoint) kept →
        row ∈ rows ∨ row.2.1 = executorId ∧ ¬ ∃ row ∈ rows, row.2.1 = executorId := by
      intro kept hsub hmem
      unfold insertRow at hmem
      split_ifs at hmem
      · exact Or.inl (hsub row hmem)
      · rcases mem_append.mp hmem with hold | hnew
        · exact Or.inl (hsub row hold)
        · rw [mem_singleton.mp hnew]
          exact Or.inr ⟨rfl, hhas⟩
    apply hkept _ _ h
    intro r hr
    split at hr
    · exact (mem_filter.mp hr).1
    · exact hr

theorem view_perform_own (hop : op.minerUid = minerUid) (h : Apart minerUid op db) :
    view minerUid (op.perform db) = (view minerUid db).store op := by
  subst hop
  have hrows : rowsOf (minerIdOf op.minerUid) (op.perform db).executors = if op.result.FullSuccess then
      linkRows (minerIdOf op.minerUid) op.result.executorId op.result.grpcEndpoint (rowsOf (minerIdOf op.minerUid) db.executors)
      else rowsOf (minerIdOf op.minerUid) db.executors := by
    apply rowsOf_store_own
    intro hfull
    obtain ⟨hhotkey, hlink⟩ := h.own rfl hfull
    exact ⟨hhotkey, hlink.imp id And.left⟩
  have hlogs : (op.perform db).logs = db.logs ++ [op.result.log op.minerUid op.now] := logs_store _ _ _ _ _
  -- what becomes relevant with a new executor is the miner's own
  have hrelevant : ∀ log ∈ db.logs, Relevant op.minerUid (rowsOf (minerIdOf op.minerUid) (op.perform db).executors) log →
      Relevant op.minerUid (rowsOf (minerIdOf op.minerUid) db.executors) log := by
    rintro log hlog ⟨hsuccess, hminer | ⟨row, hrow, hid⟩⟩
    · exact ⟨hsuccess, Or.inl hminer⟩
    · rw [hrows] at hrow
      split_ifs at hrow with hfull
      · rcases mem_linkRows hrow with hold | ⟨hnew, hnot⟩
        · exact ⟨hsuccess, Or.inr ⟨row, hold, hid⟩⟩
        · obtain ⟨-, hhas | ⟨-, hown⟩⟩ := h.own rfl hfull
          · exact absurd (hasExecutor_iff_rowsOf.mp hhas) hnot
          · exact ⟨hsuccess, Or.inl (hown log hlog hsuccess (hid.symm.trans hnew))⟩
      · exact ⟨hsuccess, Or.inr ⟨row, hrow, hid⟩⟩
  unfold MinerView.store view
  dsimp only
  rw [← hrows, hlogs, List.filter_append, List.filter_append, List.filter_filter]
  congr 2
  apply filter_congr
  intro log hlog
  rw [← Bool.decide_and]
  apply decide_eq_decide.mpr
  exact ⟨fun hnew => ⟨hnew, hrelevant log hlog hnew⟩, And.left⟩

theorem scores_of_own_results (minerUid : MinerUid) (db : ValidatorDb) (ops ops' : List StoreOp)
    (h : EachStep StoreOp.perform (Apart minerUid) ops db) (h' : EachStep StoreOp.perform (Apart minerUid) ops' db)
    (hsame : ops.filter (fun op => op.minerUid = minerUid) = ops'.filter (fun op => op.minerUid = minerUid)) (now : Time) :
    (last StoreOp.perform ops db).totalScore (minerIdOf minerUid) now =
        (last StoreOp.perform ops' db).totalScore (minerIdOf minerUid) now ∧
      (last StoreOp.perform ops db).verificationCount (minerIdOf minerUid) now =
        (last StoreOp.perform ops' db).verificationCount (minerIdOf minerUid) now ∧
      (last StoreOp.perform ops db).lastSuccessfulValidation (minerIdOf minerUid) =
        (last StoreOp.perform ops' db).lastSuccessfulValidation (minerIdOf minerUid) := by
  have hview : ∀ {ops : List StoreOp}, EachStep StoreOp.perform (Apart minerUid) ops db →
      view minerUid (last StoreOp.perform ops db) =
        last MinerView.store (ops.filter (fun op => op.minerUid = minerUid)) (view minerUid db) := by
    intro ops hops
    exact view_last (fun _ _ => view_perform_own) (fun _ _ => view_perform_other) hops
  have hlogs : (last StoreOp.perform ops db).successfulLogs (minerIdOf minerUid) =
      (last StoreOp.perform ops' db).successfulLogs (minerIdOf minerUid) := by
    rw [successfulLogs_eq_joined, successfulLogs_eq_joined, hview h, hview h', hsame]
  unfold ValidatorDb.totalScore ValidatorDb.verificationCount ValidatorDb.lastSuccessfulValidation ValidatorDb.scoredLogs
  rw [hlogs]
  exact ⟨rfl, rfl, rfl⟩

def borrowedResult : StoreOp := ⟨2, ⟨"e", "b:1", 1 / 2, true, true, none, 0, .lightweight⟩, ⟨"two", ""⟩, 1⟩

theorem foreign_result_scored :
    passedOnce.totalScore (minerIdOf 1) 2 = 1 ∧ (borrowedResult.perform passedOnce).totalScore (minerIdOf 1) 2 = 3 / 4 ∧
      passedOnce.verificationCount (minerIdOf 1) 2 = 1 ∧
      (borrowedResult.perform passedOnce).verificationCount (minerIdOf 1) 2 = 2 ∧
      passedOnce.lastSuccessfulValidation (minerIdOf 1) = some 0 ∧
      (borrowedResult.perform passedOnce).lastSuccessfulValidation (minerIdOf 1) = some 1 := by
  refine ⟨?_, ?_, ?_, ?_, ?_, ?_⟩ <;> decide +kernel

def emptyTables : ValidatorDb := ⟨AssocMap.empty, AssocMap.empty, AssocMap.empty, [], []⟩

def ownResult : StoreOp := ⟨1, announcement "e" "a:1" true, ⟨"one", ""⟩, 1⟩

def otherResult : StoreOp := ⟨2, announcement "f" "b:1" true, ⟨"two", ""⟩, 0⟩

theorem scores_of_own_results_beside_other : EachStep StoreOp.perform (Apart 1) [otherResult, ownResult] emptyTables ∧
      (last StoreOp.perform [otherResult, ownResult] emptyTables).totalScore (minerIdOf 1) 2 =
        (last StoreOp.perform [ownResult] emptyTables).totalScore (minerIdOf 1) 2 := by
  have hother : Apart 1 otherResult emptyTables := by
    refine ⟨fun _ _ => by decide +kernel, ?_, fun h => absurd h (by decide)⟩
    rintro - - ⟨-, hknown⟩
    exact absurd hknown (by decide +kernel)
  have hown : ∀ db : ValidatorDb, (∀ q ∈ db.miners.entries, q.2.hotkey = "one" → q.1 = minerIdOf 1) →
      (∀ q ∈ others (minerIdOf 1) db.executors, q.2.grpcAddress ≠ "a:1" ∧ q.1 ≠ relationshipId (minerIdOf 1) "e") →
      (∀ log ∈ db.logs, log.success = true → log.executorId = "e" → log.details.minerUid = 1) → Apart 1 ownResult db := by
    intro db hhotkey hfree hlogs
    exact ⟨fun h => absurd rfl h, fun h => absurd rfl h, fun _ _ => ⟨hhotkey, Or.inr ⟨hfree, hlogs⟩⟩⟩
  have hrun : EachStep StoreOp.perform (Apart 1) [otherResult, ownResult] emptyTables :=
    ⟨hother, hown _ (by decide +kernel) (by decide +kernel) (by decide +kernel), trivial⟩
  have hrun' : EachStep StoreOp.perform (Apart 1) [ownResult] emptyTables :=
    ⟨hown _ (by decide +kernel) (by decide +kernel) (by decide +kernel), trivial⟩
  exact ⟨hrun, (scores_of_own_results 1 emptyTables _ _ hrun hrun' rfl 2).1⟩

end View

end Basilica.Validator
