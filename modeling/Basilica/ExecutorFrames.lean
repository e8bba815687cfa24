import Basilica.VerificationStore

/-!
What storing a verification result of one miner does to the rows of the others.
-/

namespace Basilica.Validator

open AssocMaps ValidatorDb List Option AssocMap ExecutorRow

variable {row : ExecutorRow} {q : String × ExecutorRow}

section Others

variable {minerId : MinerId} {t : AssocMap String ExecutorRow}

def others (minerId : MinerId) (t : AssocMap String ExecutorRow) : List (String × ExecutorRow) :=
  t.entries.filter (fun q => q.2.minerId ≠ minerId)

theorem mem_others : q ∈ others minerId t ↔ q ∈ t.entries ∧ q.2.minerId ≠ minerId := by
  simp only [others, mem_filter, decide_eq_true_eq]

variable {f : String → ExecutorRow → ExecutorRow}

theorem others_mapWith (hf : ∀ id row, (f id row).minerId = row.minerId) :
    others minerId (t.mapWith f) = (others minerId t).map (fun q => (q.1, f q.1 q.2)) := by
  unfold others AssocMap.mapWith
  rw [List.filter_map]
  congr 1
  apply filter_congr
  intro q _
  simp only [Function.comp_apply, hf]

theorem others_mapWith_own (hf : ∀ id row, (f id row).minerId = row.minerId)
    (hown : ∀ id row, row.minerId ≠ minerId → f id row = row) : others minerId (t.mapWith f) = others minerId t := by
  rw [others_mapWith hf]
  apply (map_congr_left _).trans (map_id _)
  intro q hq
  rw [hown q.1 q.2 (mem_others.mp hq).2]
  rfl

theorem others_filterWith {p : String → ExecutorRow → Bool} (hown : ∀ id row, row.minerId ≠ minerId → p id row = true) :
    others minerId (t.filterWith p) = others minerId t := by
  unfold others AssocMap.filterWith
  rw [List.filter_filter]
  apply filter_congr
  intro q _
  by_cases hq : q.2.minerId = minerId
  · simp only [hq, ne_eq, not_true_eq_false, decide_false, Bool.false_and]
  · rw [hown q.1 q.2 hq, Bool.and_true]

theorem others_insert (id : String) (hrow : row.minerId = minerId) :
    others minerId (t.insert id row) = others minerId t := by
  cases hid : t.get? id with
  | some old => rw [insert_of_get? hid]
  | none =>
    unfold others
    rw [insert_entries hid, filter_append]
    simp only [hrow, ne_eq, not_true_eq_false, decide_false, Bool.false_eq_true, not_false_eq_true,
      filter_cons_of_neg, filter_nil, append_nil]

theorem others_modify (id : String) {f : ExecutorRow → ExecutorRow} (hf : ∀ row, (f row).minerId = row.minerId) :
    others minerId (t.modify id f) = (others minerId t).map (fun q => (q.1, if q.1 = id then f q.2 else q.2)) := by
  refine others_mapWith (f := fun id' row => if id' = id then f row else row) (fun id' row => ?_)
  split_ifs
  · exact hf row
  · rfl

end Others

variable (duplicates : List (String × ExecutorRow)) {now : Time} {db : ValidatorDb}

section Link

variable {minerId : MinerId} {executorId : ExecutorId} {grpcEndpoint : String}

theorem retire_retire (row : ExecutorRow) : (row.retire now).retire now = row.retire now := rfl

theorem others_retireDuplicates (db : ValidatorDb) :
    others minerId (duplicates.foldl (retireDuplicate minerId now) db).executors =
      (others minerId db.executors).map
        (fun q => (q.1, if q.1 ∈ duplicates.map Prod.fst then q.2.retire now else q.2)) := by
  induction duplicates generalizing db with
  | nil =>
    simp only [List.foldl_nil, List.map_nil, List.not_mem_nil, ↓reduceIte, Prod.mk.eta, List.map_id']
  | cons duplicate duplicates ih =>
    rw [foldl_cons, ih]
    change map _ (others minerId (db.executors.modify duplicate.1 (retire now))) = _
    rw [others_modify duplicate.1 (f := retire now) (fun _ => rfl), List.map_map]
    apply map_congr_left
    intro q _
    simp only [Function.comp_apply, map_cons, mem_cons]
    by_cases hfirst : q.1 = duplicate.1
    · simp only [hfirst, ↓reduceIte, true_or, retire_retire, ite_self]
    · simp only [hfirst, ↓reduceIte, false_or]

def Duplicate (minerId : MinerId) (executorId : ExecutorId) (grpcEndpoint : String) (q : String × ExecutorRow) : Prop :=
  q.2.grpcAddress = grpcEndpoint ∧ q.1 ≠ relationshipId minerId executorId

instance : DecidablePred (Duplicate minerId executorId grpcEndpoint) := fun _ =>
  inferInstanceAs (Decidable (_ ∧ _))

def retired (minerId : MinerId) (executorId : ExecutorId) (grpcEndpoint : String) (now : Time) (q : String × ExecutorRow) :
    String × ExecutorRow :=
  (q.1, if Duplicate minerId executorId grpcEndpoint q then q.2.retire now else q.2)

theorem others_linkExecutor_of_has (h : db.HasExecutor minerId executorId) :
    others minerId (db.linkExecutor minerId executorId grpcEndpoint now).2.executors =
      (others minerId db.executors).map (retired minerId executorId grpcEndpoint now) := by
  unfold linkExecutor
  rw [if_pos h]
  rw [others_retireDuplicates]
  apply map_congr_left
  intro q hq
  have hentry := (mem_others.mp hq).1
  -- the id of a duplicate is the id of this row only if the row is the duplicate
  have hiff : q.1 ∈ (db.executors.entries.filter (fun q => q.2.grpcAddress = grpcEndpoint ∧
      q.1 ≠ relationshipId minerId executorId)).map Prod.fst ↔ Duplicate minerId executorId grpcEndpoint q := by
    constructor
    · intro hmem
      obtain ⟨q', hq', hid⟩ := mem_map.mp hmem
      obtain ⟨hentry', hduplicate⟩ := mem_filter.mp hq'
      have heq : q'.2 = q.2 := by
        apply some.inj
        rw [← get?_of_mem (m := db.executors) hentry', ← get?_of_mem (m := db.executors) hentry, hid]
      have hsame : q' = q := Prod.ext hid heq
      exact hsame ▸ of_decide_eq_true hduplicate
    · intro hduplicate
      exact mem_map_of_mem (mem_filter.mpr ⟨hentry, decide_eq_true hduplicate⟩)
  unfold retired
  simp only [hiff]

theorem others_linkExecutor_of_not (h : ¬ db.HasExecutor minerId executorId) :
    others minerId (db.linkExecutor minerId executorId grpcEndpoint now).2.executors = others minerId db.executors := by
  unfold linkExecutor
  rw [if_neg h]
  split
  · rfl
  · unfold insertExecutor
    refine (others_insert _ ?_).trans ?_
    · rfl
    split
    · apply others_filterWith
      intro id row hrow
      apply decide_eq_true
      exact fun hof => hrow hof.1
    · rfl

theorem others_storeGpuUuidAssignments (minerUid : MinerUid) (executorId : ExecutorId) (gpuInfos : List GpuInfo) (now : Time)
    (db : ValidatorDb) : others (minerIdOf minerUid)
      (storeGpuUuidAssignments minerUid executorId gpuInfos now db).2.executors = others (minerIdOf minerUid) db.executors := by
  unfold storeGpuUuidAssignments
  dsimp only
  split
  · rw [executors_assignGpus]
  · have hcount : ∀ gpuCount status, others (minerIdOf minerUid) ((db.assignGpus (minerIdOf minerUid) executorId gpuInfos
        now).updateExecutors (fun _ row => row.Of (minerIdOf minerUid) executorId)
          (count gpuCount status now)).executors = others (minerIdOf minerUid) db.executors := by
      intro gpuCount status
      unfold updateExecutors
      rw [executors_assignGpus]
      apply others_mapWith_own
      · intro id row
        split_ifs <;> rfl
      · intro id row hrow
        exact if_neg (fun hof => hrow hof.1)
    split_ifs <;> exact hcount _ _

end Link

variable {db' : ValidatorDb} {oldMinerId : MinerId} {minerUid : MinerUid} {info : MinerInfo}

section Register

variable {minerId : MinerId} {t t' : AssocMap String ExecutorRow} {row' : ExecutorRow}

theorem others_recreateExecutor (h : recreateExecutor minerId now t row = some t') :
    others minerId t' = others minerId t := by
  unfold recreateExecutor at h
  split_ifs at h
  · cases h
    rfl
  · cases h
    exact others_insert _ rfl

variable {rows : List ExecutorRow}

theorem others_recreateExecutors
    (h : rows.foldlM (recreateExecutor minerId now) t = some t') : others minerId t' = others minerId t := by
  induction rows generalizing t with
  | nil =>
    cases h
    rfl
  | cons row rows ih =>
    rw [foldlM_cons] at h
    obtain ⟨t₁, hrow, hrows⟩ := bind_eq_some_iff.mp h
    rw [ih hrows, others_recreateExecutor hrow]

def outline (q : String × ExecutorRow) : String × MinerId × ExecutorId × String :=
  (q.1, q.2.minerId, q.2.executorId, q.2.grpcAddress)

def Alike (t t' : AssocMap String ExecutorRow) : Prop := t.entries.map outline = t'.entries.map outline

theorem Alike.keys (h : Alike t t') : t.keys = t'.keys := by
  have hkeys := congrArg (List.map Prod.fst) h
  rw [List.map_map, List.map_map] at hkeys
  exact hkeys

theorem Alike.inUse (h : Alike t t') (address : String) :
    (∃ other ∈ t.values, other.grpcAddress = address ∧ other.minerId ≠ minerId) ↔
      ∃ other ∈ t'.values, other.grpcAddress = address ∧ other.minerId ≠ minerId := by
  have hiff : ∀ u : AssocMap String ExecutorRow,
      (∃ other ∈ u.values, other.grpcAddress = address ∧ other.minerId ≠ minerId) ↔
        ∃ x ∈ u.entries.map outline, x.2.2.2 = address ∧ x.2.1 ≠ minerId := by
    intro u
    simp only [AssocMap.values, List.mem_map, exists_exists_and_eq_and, outline]
  rw [hiff t, hiff t', h]

theorem Alike.insert (h : Alike t t') {id : String} (hid : id ∉ t.keys) (hrow : outline (id, row) = outline (id, row')) :
    Alike (t.insert id row) (t'.insert id row') := by
  unfold Alike
  rw [insert_entries (get?_eq_none_iff.mpr hid),
    insert_entries (get?_eq_none_iff.mpr (h.keys ▸ hid)), map_append, map_append, h,
    map_singleton, map_singleton, hrow]

theorem recreateExecutors_isSome_congr {rows' : List ExecutorRow} (h : Alike t t')
    (hrows : rows.map (fun row => (row.executorId, row.grpcAddress)) =
      rows'.map (fun row => (row.executorId, row.grpcAddress))) :
    (rows.foldlM (recreateExecutor minerId now) t).isSome =
      (rows'.foldlM (recreateExecutor minerId now) t').isSome := by
  induction rows generalizing rows' t t' with
  | nil =>
    obtain rfl : rows' = [] := map_eq_nil_iff.mp hrows.symm
    rfl
  | cons row rows ih =>
    cases rows' with
    | nil => cases hrows
    | cons row' rows' =>
      rw [map_cons, map_cons] at hrows
      obtain ⟨hhead, htail⟩ := cons.inj hrows
      obtain ⟨hid, haddress⟩ := Prod.mk.inj hhead
      rw [foldlM_cons, foldlM_cons]
      unfold recreateExecutor
      -- both runs take the same branch
      by_cases huse : ∃ other ∈ t.values, other.grpcAddress = row.grpcAddress ∧ other.minerId ≠ minerId
      · rw [if_pos huse, if_pos ((h.inUse row'.grpcAddress).mp (haddress ▸ huse))]
        exact ih h htail
      · rw [if_neg huse, if_neg (fun huse' => huse (haddress ▸ (h.inUse row'.grpcAddress).mpr huse'))]
        rw [← hid, ← h.keys]
        split_ifs with hkey
        · rfl
        · apply ih _ htail
          apply h.insert hkey
          unfold outline
          rw [hid, haddress]

theorem migrateExecutors_isSome_congr (h : Alike t t') (oldMinerId : MinerId) :
    (migrateExecutors t oldMinerId minerId now).isSome =
      (migrateExecutors t' oldMinerId minerId now).isSome := by
  apply recreateExecutors_isSome_congr
  · have hkept : ∀ u : AssocMap String ExecutorRow, (u.filterWith (fun _ row => row.minerId ≠ oldMinerId)).entries.map outline =
        (u.entries.map outline).filter (fun x => x.2.1 ≠ oldMinerId) := by
      intro u
      unfold filterWith
      rw [List.filter_map]
      rfl
    unfold Alike
    rw [hkept, hkept, h]
  · have hrow : ∀ u : AssocMap String ExecutorRow, (u.values.filter (fun row => row.minerId = oldMinerId)).map
        (fun row => (row.executorId, row.grpcAddress)) =
          ((u.entries.map outline).filter (fun x => x.2.1 = oldMinerId)).map (fun x => x.2.2) := by
      intro u
      rw [AssocMap.values, List.filter_map, List.map_map, List.filter_map, List.map_map]
      rfl
    rw [hrow, hrow, h]

theorem migrateMinerUid_isSome_iff : (db.migrateMinerUid oldMinerId minerId info now).isSome ↔
    (replaceMiner db.miners oldMinerId minerId info).isSome ∧
      (migrateExecutors db.executors oldMinerId minerId now).isSome := by
  unfold migrateMinerUid
  cases replaceMiner db.miners oldMinerId minerId info with
  | none => exact iff_of_false Bool.false_ne_true (fun h => Bool.false_ne_true h.1)
  | some miners =>
    cases migrateExecutors db.executors oldMinerId minerId now with
    | none => exact iff_of_false Bool.false_ne_true (fun h => Bool.false_ne_true h.2)
    | some executors => exact iff_of_true rfl ⟨rfl, rfl⟩

theorem ensureMinerExistsWithInfo_isSome_congr (hminers : db.miners = db'.miners) (h : Alike db.executors db'.executors) :
    (db.ensureMinerExistsWithInfo minerUid info now).isSome ↔ (db'.ensureMinerExistsWithInfo minerUid info now).isSome := by
  unfold ensureMinerExistsWithInfo checkMinerByHotkey handleRecycledMinerUid
    createNewMiner
  rw [← hminers]
  dsimp only
  split
  · split_ifs <;> rfl
  · split
    · rw [migrateMinerUid_isSome_iff, migrateMinerUid_isSome_iff, ← hminers, migrateExecutors_isSome_congr h]
    · rw [isSome_map, isSome_map]

def ValidatorDb.KnownAs (db : ValidatorDb) (minerUid : MinerUid) (info : MinerInfo) (oldMinerId : MinerId) : Prop :=
  db.miners.get? (minerIdOf minerUid) = none ∧ db.checkMinerByHotkey info.hotkey = some oldMinerId

theorem ValidatorDb.KnownAs.ne (h : db.KnownAs minerUid info oldMinerId) : oldMinerId ≠ minerIdOf minerUid := by
  rintro rfl
  obtain ⟨q, hq, hid⟩ := map_eq_some_iff.mp h.2
  apply get?_eq_none_iff.mp h.1
  rw [← hid]
  exact mem_map_of_mem (mem_of_find?_eq_some hq)

theorem others_migrateExecutors (h : migrateExecutors t oldMinerId minerId now = some t') :
    others minerId t' = (others minerId t).filter (fun q => q.2.minerId ≠ oldMinerId) := by
  rw [others_recreateExecutors h]
  unfold others AssocMap.filterWith
  rw [List.filter_filter, List.filter_filter]
  apply filter_congr
  intro q _
  exact Bool.and_comm _ _

theorem entries_migrateExecutors (hne : oldMinerId ≠ minerId) (hnone : ∀ q ∈ others minerId t, q.2.minerId ≠ oldMinerId)
    (h : migrateExecutors t oldMinerId minerId now = some t') : t'.entries = t.entries := by
  have hall : ∀ q ∈ t.entries, q.2.minerId ≠ oldMinerId := by
    intro q hq heq
    exact hnone q (mem_others.mpr ⟨hq, heq ▸ hne⟩) heq
  have hrows : t.values.filter (fun row => row.minerId = oldMinerId) = [] := by
    rw [filter_eq_nil_iff]
    intro row hrow
    obtain ⟨q, hq, rfl⟩ := mem_map.mp hrow
    simpa using hall q hq
  unfold migrateExecutors at h
  rw [hrows] at h
  cases h
  unfold filterWith
  apply filter_eq_self.mpr
  intro q hq
  exact decide_eq_true (hall q hq)

theorem ensureMinerExistsWithInfo_cases (h : db.ensureMinerExistsWithInfo minerUid info now = some db') :
    db'.logs = db.logs ∧ (((∀ oldMinerId, ¬ db.KnownAs minerUid info oldMinerId) ∧ db'.executors = db.executors ∧
      db'.gpus = db.gpus) ∨ ∃ oldMinerId, db.KnownAs minerUid info oldMinerId ∧
        migrateExecutors db.executors oldMinerId (minerIdOf minerUid) now = some db'.executors ∧
        db'.gpus = migrateGpus db.gpus oldMinerId (minerIdOf minerUid)) := by
  unfold ensureMinerExistsWithInfo at h
  dsimp only at h
  cases hminer : db.miners.get? (minerIdOf minerUid) with
  | some existing =>
    rw [hminer] at h
    unfold handleRecycledMinerUid at h
    dsimp only at h
    have hknown : ∀ oldMinerId, ¬ db.KnownAs minerUid info oldMinerId := by
      rintro oldMinerId ⟨hnone, -⟩
      rw [hminer] at hnone
      cases hnone
    split_ifs at h <;> cases h <;> exact ⟨rfl, Or.inl ⟨hknown, rfl, rfl⟩⟩
  | none =>
    rw [hminer] at h
    cases hhotkey : db.checkMinerByHotkey info.hotkey with
    | some oldMinerId =>
      rw [hhotkey] at h
      obtain ⟨miners, -, h⟩ := bind_eq_some_iff.mp h
      obtain ⟨executors, hexecutors, h⟩ := bind_eq_some_iff.mp h
      cases h
      exact ⟨rfl, Or.inr ⟨oldMinerId, ⟨hminer, hhotkey⟩, hexecutors, rfl⟩⟩
    | none =>
      rw [hhotkey] at h
      obtain ⟨miners, -, rfl⟩ := map_eq_some_iff.mp h
      refine ⟨rfl, Or.inl ⟨?_, rfl, rfl⟩⟩
      rintro oldMinerId ⟨-, hsome⟩
      rw [hhotkey] at hsome
      cases hsome

end Register

variable (executorId : ExecutorId) {result : ExecutorVerificationResult}

section Store

def ExecutorVerificationResult.FullSuccess (result : ExecutorVerificationResult) : Prop :=
  result.success = true ∧ result.validationType = .full

instance : DecidablePred ExecutorVerificationResult.FullSuccess := fun _ =>
  inferInstanceAs (Decidable (_ ∧ _))

theorem store_of_fullSuccess (h : result.FullSuccess) : storeExecutorVerificationResult minerUid result info now db =
    storeFullValidation minerUid result info now (db.recordCheck minerUid result now) := by
  obtain ⟨hsuccess, htype⟩ := h
  unfold storeExecutorVerificationResult
  rw [if_neg (fun hfalse => Bool.false_ne_true (hfalse.symm.trans hsuccess)), htype]

theorem executors_store_of_not (h : ¬ result.FullSuccess) :
    (storeExecutorVerificationResult minerUid result info now db).2.executors = (db.recordCheck minerUid result now).executors := by
  unfold storeExecutorVerificationResult
  split_ifs with hsuccess
  · rfl
  · cases htype : result.validationType with
    | lightweight => rfl
    | full => exact absurd ⟨Bool.eq_true_of_not_eq_false hsuccess, htype⟩ h

def checked (executorId : ExecutorId) (status : ExecutorStatus) (now : Time) (q : String × ExecutorRow) : String × ExecutorRow :=
  (q.1, if q.2.executorId = executorId then q.2.check status now else q.2)

theorem minerId_checked (status : ExecutorStatus) (q : String × ExecutorRow) :
    (checked executorId status now q).2.minerId = q.2.minerId := by
  unfold checked
  split_ifs <;> rfl

variable (minerId : MinerId)

theorem others_recordCheck : others minerId (db.recordCheck minerUid result now).executors =
    (others minerId db.executors).map (checked result.executorId (db.statusAfter minerUid result) now) := by
  unfold recordCheck updateExecutors
  apply others_mapWith
  intro id row
  split_ifs <;> rfl

theorem alike_recordCheck : Alike (db.recordCheck minerUid result now).executors db.executors := by
  unfold Alike recordCheck updateExecutors AssocMap.mapWith
  rw [List.map_map]
  apply map_congr_left
  intro q _
  unfold outline
  dsimp only [Function.comp_apply]
  split_ifs <;> rfl

theorem isSome_recordCheck (result : ExecutorVerificationResult) : (db.ensureMinerExistsWithInfo minerUid info now).isSome ↔
    ((db.recordCheck minerUid result now).ensureMinerExistsWithInfo minerUid info now).isSome := by
  symm
  apply ensureMinerExistsWithInfo_isSome_congr
  · rfl
  · exact alike_recordCheck

theorem hasExecutor_recordCheck (minerUid : MinerUid) (result : ExecutorVerificationResult) (now : Time) {minerId : MinerId}
    {executorId : ExecutorId} :
    (db.recordCheck minerUid result now).HasExecutor minerId executorId ↔ db.HasExecutor minerId executorId := by
  have hiff : ∀ u : AssocMap String ExecutorRow, (∃ row ∈ u.values, row.Of minerId executorId) ↔
      ∃ x ∈ u.entries.map outline, x.2.1 = minerId ∧ x.2.2.1 = executorId := by
    intro u
    simp only [AssocMap.values, List.mem_map, exists_exists_and_eq_and, outline, ExecutorRow.Of]
  unfold ValidatorDb.HasExecutor
  rw [hiff, hiff, alike_recordCheck]

theorem others_storeFullValidation_of_none (h : db.ensureMinerExistsWithInfo minerUid info now = none) :
    (storeFullValidation minerUid result info now db).2 = db := by
  unfold storeFullValidation ensureMinerExecutorRelationship
  rw [h]

theorem others_storeFullValidation (result : ExecutorVerificationResult)
    (h : db.ensureMinerExistsWithInfo minerUid info now = some db') :
    others (minerIdOf minerUid) (storeFullValidation minerUid result info now db).2.executors =
      others (minerIdOf minerUid)
        (db'.linkExecutor (minerIdOf minerUid) result.executorId result.grpcEndpoint now).2.executors := by
  unfold storeFullValidation ensureMinerExecutorRelationship
  rw [h]
  dsimp only
  split
  · rename_i e db'' hlink
    rw [hlink]
  · rename_i r db'' hlink
    rw [others_storeGpuUuidAssignments, hlink]

def Retires (db : ValidatorDb) (minerUid : MinerUid) (result : ExecutorVerificationResult) (info : MinerInfo) (now : Time)
    (q : String × ExecutorRow) : Prop :=
  result.FullSuccess ∧ (db.ensureMinerExistsWithInfo minerUid info now).isSome ∧
    db.HasExecutor (minerIdOf minerUid) result.executorId ∧
    Duplicate (minerIdOf minerUid) result.executorId result.grpcEndpoint q

instance (db : ValidatorDb) : DecidablePred (Retires db minerUid result info now) := fun _ =>
  inferInstanceAs (Decidable (_ ∧ _))

def Moves (db : ValidatorDb) (minerUid : MinerUid) (result : ExecutorVerificationResult) (info : MinerInfo) (now : Time)
    (oldMinerId : MinerId) : Prop :=
  result.FullSuccess ∧ (db.ensureMinerExistsWithInfo minerUid info now).isSome ∧ db.KnownAs minerUid info oldMinerId

def rewritten (db : ValidatorDb) (minerUid : MinerUid) (result : ExecutorVerificationResult) (info : MinerInfo) (now : Time)
    (q : String × ExecutorRow) : String × ExecutorRow :=
  if Retires db minerUid result info now q then (q.1, q.2.retire now)
  else checked result.executorId (db.statusAfter minerUid result) now q

theorem retired_checked (grpcEndpoint : String) (status : ExecutorStatus)
    (q : String × ExecutorRow) : retired minerId executorId grpcEndpoint now (checked executorId status now q) =
      if Duplicate minerId executorId grpcEndpoint q then (q.1, q.2.retire now) else checked executorId status now q := by
  have hiff : Duplicate minerId executorId grpcEndpoint (checked executorId status now q) ↔
      Duplicate minerId executorId grpcEndpoint q := by
    unfold Duplicate checked
    split_ifs <;> rfl
  unfold retired
  simp only [hiff]
  split_ifs
  · unfold checked
    split_ifs <;> rfl
  · rfl

theorem others_store (h : ∀ oldMinerId, Moves db minerUid result info now oldMinerId →
      ∀ q ∈ others (minerIdOf minerUid) db.executors, q.2.minerId ≠ oldMinerId) :
    others (minerIdOf minerUid) (storeExecutorVerificationResult minerUid result info now db).2.executors =
      (others (minerIdOf minerUid) db.executors).map (rewritten db minerUid result info now) := by
  by_cases hfull : result.FullSuccess
  · rw [store_of_fullSuccess hfull]
    cases hensure : (db.recordCheck minerUid result now).ensureMinerExistsWithInfo minerUid info now with
    | none =>
      rw [others_storeFullValidation_of_none hensure, others_recordCheck]
      apply map_congr_left
      intro q _
      refine (if_neg (fun hretires => ?_)).symm
      have hsome := (isSome_recordCheck result).mp hretires.2.1
      rw [hensure] at hsome
      cases hsome
    | some db' =>
      have hsome : (db.ensureMinerExistsWithInfo minerUid info now).isSome := by
        rw [isSome_recordCheck result, hensure]
        rfl
      -- the executors are those before, whether or not the miner had another id
      have hentries : db'.executors.entries = (db.recordCheck minerUid result now).executors.entries := by
        rcases (ensureMinerExistsWithInfo_cases hensure).2 with ⟨-, hexecutors, -⟩ | ⟨oldMinerId, hknown, hmigrated, -⟩
        · rw [hexecutors]
        · apply entries_migrateExecutors hknown.ne _ hmigrated
          intro q hq
          rw [others_recordCheck] at hq
          obtain ⟨q', hq', rfl⟩ := mem_map.mp hq
          rw [minerId_checked]
          exact h oldMinerId ⟨hfull, hsome, hknown⟩ q' hq'
      have hothers : others (minerIdOf minerUid) db'.executors =
          (others (minerIdOf minerUid) db.executors).map (checked result.executorId (db.statusAfter minerUid result) now) := by
        rw [← others_recordCheck, others, hentries]
        rfl
      have hhas : db'.HasExecutor (minerIdOf minerUid) result.executorId ↔
          db.HasExecutor (minerIdOf minerUid) result.executorId := by
        apply Iff.trans _ (hasExecutor_recordCheck minerUid result now)
        unfold ValidatorDb.HasExecutor values
        rw [hentries]
      rw [others_storeFullValidation result hensure]
      by_cases hexecutor : db.HasExecutor (minerIdOf minerUid) result.executorId
      · rw [others_linkExecutor_of_has (hhas.mpr hexecutor), hothers, List.map_map]
        apply map_congr_left
        intro q _
        rw [Function.comp_apply, retired_checked]
        unfold rewritten
        have hiff : Retires db minerUid result info now q ↔
            Duplicate (minerIdOf minerUid) result.executorId result.grpcEndpoint q :=
          ⟨fun hretires => hretires.2.2.2, fun hduplicate => ⟨hfull, hsome, hexecutor, hduplicate⟩⟩
        simp only [hiff]
      · rw [others_linkExecutor_of_not (fun hexecutor' => hexecutor (hhas.mp hexecutor')), hothers]
        apply map_congr_left
        intro q _
        exact (if_neg (fun hretires => hexecutor hretires.2.2.1)).symm
  · rw [executors_store_of_not hfull, others_recordCheck]
    apply map_congr_left
    intro q _
    exact (if_neg (fun hretires => hfull hretires.1)).symm

theorem length_others_linkExecutor (grpcEndpoint : String) (now : Time)
    (db : ValidatorDb) : (others minerId (db.linkExecutor minerId executorId grpcEndpoint now).2.executors).length =
      (others minerId db.executors).length := by
  by_cases h : db.HasExecutor minerId executorId
  · rw [others_linkExecutor_of_has h, length_map]
  · rw [others_linkExecutor_of_not h]

theorem length_others_store_lt (h : Moves db minerUid result info now oldMinerId)
    (hq : q ∈ others (minerIdOf minerUid) db.executors) (hold : q.2.minerId = oldMinerId) :
    (others (minerIdOf minerUid) (storeExecutorVerificationResult minerUid result info now db).2.executors).length <
      (others (minerIdOf minerUid) db.executors).length := by
  obtain ⟨hfull, hsome, hknown⟩ := h
  obtain ⟨db', hensure⟩ := isSome_iff_exists.mp ((isSome_recordCheck result).mp hsome)
  have hmigrated : migrateExecutors (db.recordCheck minerUid result now).executors oldMinerId
      (minerIdOf minerUid) now = some db'.executors := by
    rcases (ensureMinerExistsWithInfo_cases hensure).2 with ⟨hnot, -⟩ | ⟨oldMinerId', hknown', hmigrated, -⟩
    · exact absurd hknown (hnot oldMinerId)
    · obtain rfl : oldMinerId = oldMinerId' := some.inj (hknown.2.symm.trans hknown'.2)
      exact hmigrated
  have hlength : (others (minerIdOf minerUid) db.executors).length = ((others (minerIdOf minerUid) db.executors).map
      (checked result.executorId (db.statusAfter minerUid result) now)).length := (length_map _).symm
  rw [store_of_fullSuccess hfull, others_storeFullValidation result hensure, length_others_linkExecutor, others_migrateExecutors hmigrated,
    others_recordCheck, hlength]
  apply length_filter_lt_length_iff_exists.mpr
  refine ⟨_, mem_map_of_mem hq, ?_⟩
  rw [minerId_checked, hold]
  simp only [ne_eq, not_true_eq_false, decide_false, Bool.false_eq_true, not_false_eq_true]

def ExecutorRow.Shows (status : ExecutorStatus) (time : Stamp) (row : ExecutorRow) : Prop :=
  row.status = status ∧ row.lastHealthCheck = some time ∧ row.updatedAt = time

variable {status : ExecutorStatus}

theorem ExecutorRow.with_eq_self_iff {time : Stamp} :
    { row with status := status, lastHealthCheck := some time, updatedAt := time } = row ↔ row.Shows status time := by
  constructor
  · intro h
    rw [← h]
    exact ⟨rfl, rfl, rfl⟩
  · rintro ⟨hstatus, hchecked, hupdated⟩
    rw [← hstatus, ← hchecked, ← hupdated]

theorem ExecutorRow.check_eq_self_iff :
    row.check status now = row ↔ row.Shows status (.rfc3339 now) := with_eq_self_iff

theorem ExecutorRow.retire_eq_self_iff : row.retire now = row ↔ row.Shows .offline (.ofNow now) := with_eq_self_iff

structure Harmless (db : ValidatorDb) (minerUid : MinerUid) (result : ExecutorVerificationResult) (info : MinerInfo)
    (now : Time) : Prop where
  checked : ∀ q ∈ others (minerIdOf minerUid) db.executors, ¬ Retires db minerUid result info now q →
    q.2.executorId = result.executorId → q.2.Shows (db.statusAfter minerUid result) (.rfc3339 now)
  retired : ∀ q ∈ others (minerIdOf minerUid) db.executors, Retires db minerUid result info now q →
    q.2.Shows .offline (.ofNow now)
  moved : ∀ oldMinerId, Moves db minerUid result info now oldMinerId →
    ∀ q ∈ others (minerIdOf minerUid) db.executors, q.2.minerId ≠ oldMinerId

theorem rewritten_eq_self_iff : rewritten db minerUid result info now q = q ↔
    (¬ Retires db minerUid result info now q → q.2.executorId = result.executorId →
        q.2.Shows (db.statusAfter minerUid result) (.rfc3339 now)) ∧
      (Retires db minerUid result info now q → q.2.Shows .offline (.ofNow now)) := by
  rw [← check_eq_self_iff, ← retire_eq_self_iff]
  unfold rewritten
  by_cases hretires : Retires db minerUid result info now q
  · rw [if_pos hretires, Prod.ext_iff]
    simp only [hretires, not_true_eq_false, false_implies, true_and, true_implies]
  · rw [if_neg hretires, Prod.ext_iff]
    unfold checked
    simp only [hretires, not_false_eq_true, true_implies, false_implies, and_true, true_and]
    by_cases hid : q.2.executorId = result.executorId
    · simp only [hid, ↓reduceIte, true_implies]
    · simp only [hid, ↓reduceIte, false_implies]

theorem others_store_eq_iff : others (minerIdOf minerUid) (storeExecutorVerificationResult minerUid result info now db).2.executors =
    others (minerIdOf minerUid) db.executors ↔ Harmless db minerUid result info now := by
  constructor
  · intro h
    have hmoved : ∀ oldMinerId, Moves db minerUid result info now oldMinerId →
        ∀ q ∈ others (minerIdOf minerUid) db.executors, q.2.minerId ≠ oldMinerId := by
      intro oldMinerId hmoves q hq hold
      have hlt := length_others_store_lt hmoves hq hold
      rw [h] at hlt
      exact lt_irrefl _ hlt
    rw [others_store hmoved] at h
    have hself : ∀ q ∈ others (minerIdOf minerUid) db.executors, rewritten db minerUid result info now q = q := by
      nth_rewrite 2 [← map_id (others (minerIdOf minerUid) db.executors)] at h
      exact map_inj_left.mp h
    exact ⟨fun q hq => (rewritten_eq_self_iff.mp (hself q hq)).1, fun q hq => (rewritten_eq_self_iff.mp (hself q hq)).2, hmoved⟩
  · intro h
    rw [others_store h.moved]
    apply (map_congr_left _).trans (map_id _)
    intro q hq
    exact rewritten_eq_self_iff.mpr ⟨h.checked q hq, h.retired q hq⟩

end Store

variable {free : GpuAssignment → Prop}

section Gpus

variable {minerId : MinerId} {g g' g'' : AssocMap GpuUuid GpuAssignment}

structure KeepsGpus (minerId : MinerId) (free : GpuAssignment → Prop) (g g' : AssocMap GpuUuid GpuAssignment) : Prop where
  kept : ∀ uuid gpu, gpu.minerId ≠ minerId → g.get? uuid = some gpu → g'.get? uuid = some gpu ∨ free gpu
  old : ∀ uuid gpu, gpu.minerId ≠ minerId → g'.get? uuid = some gpu → g.get? uuid = some gpu

theorem KeepsGpus.refl (g : AssocMap GpuUuid GpuAssignment) : KeepsGpus minerId free g g :=
  ⟨fun _ _ _ h => Or.inl h, fun _ _ _ h => h⟩

theorem KeepsGpus.trans (h : KeepsGpus minerId free g g') (h' : KeepsGpus minerId free g' g'') : KeepsGpus minerId free g g'' where
  kept := by
    intro uuid gpu hgpu hget
    rcases h.kept uuid gpu hgpu hget with hget' | hfree
    · exact h'.kept uuid gpu hgpu hget'
    · exact Or.inr hfree
  old := fun uuid gpu hgpu hget => h.old uuid gpu hgpu (h'.old uuid gpu hgpu hget)

theorem keepsGpus_filterWith {p : GpuUuid → GpuAssignment → Bool} (hp : ∀ uuid gpu, gpu.minerId ≠ minerId → p uuid gpu = true) :
    KeepsGpus minerId free g (g.filterWith p) where
  kept := by
    intro uuid gpu hgpu hget
    rw [get?_filterWith, hget]
    exact Or.inl (filter_some_pos (hp uuid gpu hgpu))
  old := by
    intro uuid gpu _ hget
    rw [get?_filterWith] at hget
    exact (filter_eq_some_iff.mp hget).1

theorem keepsGpus_mapWith {f : GpuUuid → GpuAssignment → GpuAssignment}
    (hother : ∀ uuid gpu, gpu.minerId ≠ minerId → f uuid gpu = gpu ∨ free gpu ∧ (f uuid gpu).minerId = minerId)
    (hown : ∀ uuid gpu, gpu.minerId = minerId → (f uuid gpu).minerId = minerId) : KeepsGpus minerId free g (g.mapWith f) where
  kept := by
    intro uuid gpu hgpu hget
    rw [get?_mapWith, hget, map_some]
    rcases hother uuid gpu hgpu with hsame | hfree
    · rw [hsame]
      exact Or.inl rfl
    · exact Or.inr hfree.1
  old := by
    intro uuid gpu hgpu hget
    rw [get?_mapWith] at hget
    obtain ⟨before, hbefore, rfl⟩ := map_eq_some_iff.mp hget
    by_cases hminer : before.minerId = minerId
    · exact absurd (hown uuid before hminer) hgpu
    · rcases hother uuid before hminer with hsame | hfree
      · rw [hsame]
        exact hbefore
      · exact absurd hfree.2 hgpu

theorem keepsGpus_cleanup (db : ValidatorDb) (executorId : ExecutorId) :
    KeepsGpus minerId free db.gpus (db.cleanupGpuAssignments executorId minerId).gpus := by
  unfold cleanupGpuAssignments
  dsimp only
  apply keepsGpus_filterWith
  intro uuid gpu hgpu
  exact decide_eq_true (fun hof => hgpu hof.1)

theorem keepsGpus_retireDuplicates (db : ValidatorDb) :
    KeepsGpus minerId free db.gpus (duplicates.foldl (retireDuplicate minerId now) db).gpus := by
  induction duplicates generalizing db with
  | nil => exact .refl _
  | cons duplicate duplicates ih =>
    rw [foldl_cons]
    refine KeepsGpus.trans ?_ (ih _)
    unfold retireDuplicate
    exact keepsGpus_cleanup { db with executors := db.executors.modify duplicate.1 (retire now) } _

theorem keepsGpus_linkExecutor (minerId : MinerId) (free : GpuAssignment → Prop) (db : ValidatorDb) (executorId : ExecutorId)
    (grpcEndpoint : String) (now : Time) :
    KeepsGpus minerId free db.gpus (db.linkExecutor minerId executorId grpcEndpoint now).2.gpus := by
  unfold linkExecutor
  split_ifs
  · exact keepsGpus_retireDuplicates _ db
  · split
    · exact .refl _
    · unfold insertExecutor changeExecutorId
      split
      · dsimp only
        apply keepsGpus_mapWith
        · intro uuid gpu hgpu
          exact Or.inl (if_neg (fun hof => hgpu hof.1))
        · intro uuid gpu hgpu
          split_ifs <;> exact hgpu
      · exact .refl _

theorem keepsGpus_assignGpus (gpuInfos : List GpuInfo) (now : Time)
    (hfree : ∀ gpu : GpuAssignment, gpu.minerId ≠ minerId → db.CanReassign gpu → free gpu) :
    KeepsGpus minerId free db.gpus (db.assignGpus minerId executorId gpuInfos now).gpus where
  kept := by
    intro uuid gpu hgpu hget
    have hother : ¬ db.Assigned minerId executorId uuid := by
      rintro ⟨row, hrow, hof⟩
      rw [hget] at hrow
      cases hrow
      exact hgpu hof.1
    by_cases hassigned : (db.assignGpus minerId executorId gpuInfos now).Assigned minerId executorId uuid
    · obtain ⟨-, htakes⟩ := assigned_assignGpus_iff.mp hassigned
      rcases htakes gpu hget with hof | hreassign
      · exact absurd hof.1 hgpu
      · exact Or.inr (hfree gpu hgpu hreassign)
    · rw [get?_assignGpus_of_other hassigned hother]
      exact Or.inl hget
  old := by
    intro uuid gpu hgpu hget
    have hnot : ¬ (db.assignGpus minerId executorId gpuInfos now).Assigned minerId executorId uuid := by
      rintro ⟨row, hrow, hof⟩
      rw [hget] at hrow
      cases hrow
      exact hgpu hof.1
    by_cases hown : db.Assigned minerId executorId uuid
    · rw [get?_assignGpus_of_released hnot hown] at hget
      cases hget
    · rw [get?_assignGpus_of_other hnot hown] at hget
      exact hget

theorem gpus_storeGpuUuidAssignments (minerUid : MinerUid) (executorId : ExecutorId) (gpuInfos : List GpuInfo) (now : Time)
    (db : ValidatorDb) : (storeGpuUuidAssignments minerUid executorId gpuInfos now db).2.gpus =
      (db.assignGpus (minerIdOf minerUid) executorId gpuInfos now).gpus := by
  unfold storeGpuUuidAssignments
  dsimp only
  split
  · rfl
  · split_ifs <;> rfl

theorem executorStatus?_congr (h : others minerId db.executors = others minerId db'.executors)
    {otherId : MinerId} (hne : otherId ≠ minerId) (executorId : ExecutorId) :
    db.executorStatus? otherId executorId = db'.executorStatus? otherId executorId := by
  have hfind : ∀ u : AssocMap String ExecutorRow, u.values.find? (ExecutorRow.Of otherId executorId) =
      ((others minerId u).map Prod.snd).find? (ExecutorRow.Of otherId executorId) := by
    intro u
    unfold others values
    rw [find?_map, find?_map, find?_filter]
    congr 2
    funext q
    by_cases hof : q.2.Of otherId executorId
    · have hother : q.2.minerId ≠ minerId := fun heq => hne (hof.1.symm.trans heq)
      simp [hof, hother]
    · simp [hof]
  unfold executorStatus?
  rw [hfind, hfind, h]

end Gpus

section Frame

structure KeepsOthers (minerId : MinerId) (db after : ValidatorDb) : Prop where
  executors : others minerId after.executors = others minerId db.executors
  gpus : KeepsGpus minerId db.CanReassign db.gpus after.gpus

theorem keepsGpus_ensureMinerExists (h : db.ensureMinerExistsWithInfo minerUid info now = some db')
    (hfree : ∀ oldMinerId, db.KnownAs minerUid info oldMinerId → ∀ gpu : GpuAssignment, gpu.minerId = oldMinerId → free gpu) :
    KeepsGpus (minerIdOf minerUid) free db.gpus db'.gpus := by
  rcases (ensureMinerExistsWithInfo_cases h).2 with ⟨-, -, hgpus⟩ | ⟨oldMinerId, hknown, -, hgpus⟩
  · rw [hgpus]
    exact .refl _
  · rw [hgpus]
    apply keepsGpus_mapWith
    · intro uuid gpu _
      by_cases hold : gpu.minerId = oldMinerId
      · rw [if_pos hold]
        exact Or.inr ⟨hfree oldMinerId hknown gpu hold, rfl⟩
      · exact Or.inl (if_neg hold)
    · intro uuid gpu hgpu
      split_ifs
      · rfl
      · exact hgpu

theorem keepsGpus_storeFullValidation (db : ValidatorDb)
    (hmoved : (db.ensureMinerExistsWithInfo minerUid info now).isSome → ∀ oldMinerId, db.KnownAs minerUid info oldMinerId →
      ∀ gpu : GpuAssignment, gpu.minerId = oldMinerId → free gpu)
    (hfree : ∀ (db' : ValidatorDb) (gpu : GpuAssignment), others (minerIdOf minerUid) db'.executors =
      others (minerIdOf minerUid) (storeFullValidation minerUid result info now db).2.executors →
      gpu.minerId ≠ minerIdOf minerUid → db'.CanReassign gpu → free gpu) :
    KeepsGpus (minerIdOf minerUid) free db.gpus (storeFullValidation minerUid result info now db).2.gpus := by
  cases hensure : db.ensureMinerExistsWithInfo minerUid info now with
  | none =>
    rw [others_storeFullValidation_of_none hensure]
    exact .refl _
  | some db' =>
    have hothers := others_storeFullValidation result hensure
    rw [hensure] at hmoved
    refine (keepsGpus_ensureMinerExists hensure (hmoved rfl)).trans ?_
    refine (keepsGpus_linkExecutor _ _ db' result.executorId result.grpcEndpoint now).trans ?_
    unfold storeFullValidation ensureMinerExecutorRelationship
    rw [hensure]
    dsimp only
    split
    · rename_i e db'' hresult
      rw [hresult]
      exact .refl _
    · rename_i r db'' hresult
      rw [hresult, gpus_storeGpuUuidAssignments]
      apply keepsGpus_assignGpus
      intro gpu hgpu hreassign
      refine hfree db'' gpu ?_ hgpu hreassign
      rw [hothers, hresult]

variable {minerId : MinerId} {gpu : GpuAssignment}

theorem canReassign_congr (h : others minerId db.executors = others minerId db'.executors)
    (hgpu : gpu.minerId ≠ minerId) (hreassign : db.CanReassign gpu) : db'.CanReassign gpu := by
  unfold ValidatorDb.CanReassign
  rw [← executorStatus?_congr h hgpu]
  exact hreassign

theorem canReassign_of_none (hne : oldMinerId ≠ minerId)
    (hnone : ∀ q ∈ others minerId db.executors, q.2.minerId ≠ oldMinerId) (hgpu : gpu.minerId = oldMinerId) :
    db.CanReassign gpu := by
  intro status hstatus
  obtain ⟨row, hrow, -⟩ := map_eq_some_iff.mp hstatus
  obtain ⟨q, hq, rfl⟩ := mem_map.mp (mem_of_find?_eq_some hrow)
  have hfound := find?_some hrow
  have hof : q.2.Of gpu.minerId gpu.executorId := of_decide_eq_true hfound
  have hold : q.2.minerId = oldMinerId := hof.1.trans hgpu
  exact absurd hold (hnone q (mem_others.mpr ⟨hq, hold ▸ hne⟩))

theorem keepsGpus_store (h : Harmless db minerUid result info now) :
    KeepsGpus (minerIdOf minerUid) db.CanReassign db.gpus
      (storeExecutorVerificationResult minerUid result info now db).2.gpus := by
  have hothers := others_store_eq_iff.mpr h
  unfold storeExecutorVerificationResult at hothers ⊢
  by_cases hsuccess : result.success = false
  · rw [if_pos hsuccess]
    exact keepsGpus_cleanup (db.recordCheck minerUid result now) result.executorId
  rw [if_neg hsuccess] at hothers ⊢
  cases htype : result.validationType with
  | lightweight =>
    dsimp only [updateGpuAssignmentTimestamps]
    apply keepsGpus_mapWith
    · intro uuid gpu hgpu
      exact Or.inl (if_neg (fun hof => hgpu hof.1.1))
    · intro uuid gpu hgpu
      split_ifs <;> exact hgpu
  | full =>
    rw [htype] at hothers
    refine keepsGpus_storeFullValidation (db.recordCheck minerUid result now) ?_ ?_
    · intro hsome oldMinerId hknown gpu hgpu
      have hmoves : Moves db minerUid result info now oldMinerId := by
        exact ⟨⟨Bool.eq_true_of_not_eq_false hsuccess, htype⟩, (isSome_recordCheck result).mpr hsome, hknown⟩
      exact canReassign_of_none hknown.ne (h.moved oldMinerId hmoves) hgpu
    · intro db' gpu hsame hgpu hreassign
      exact canReassign_congr (hsame.trans hothers) hgpu hreassign

theorem storeExecutorVerificationResult_keeps_others_iff (minerUid : MinerUid) (result : ExecutorVerificationResult)
    (info : MinerInfo) (now : Time) (db : ValidatorDb) :
    KeepsOthers (minerIdOf minerUid) db (storeExecutorVerificationResult minerUid result info now db).2 ↔
      Harmless db minerUid result info now :=
  ⟨fun h => others_store_eq_iff.mp h.executors, fun h => ⟨others_store_eq_iff.mpr h, keepsGpus_store h⟩⟩

def twoExecutors : ValidatorDb where
  miners := (AssocMap.empty.insert "miner_1" ⟨"one", ""⟩).insert "miner_2" ⟨"two", ""⟩
  executors := (AssocMap.empty.insert "miner_1_e" (.plain 1 "e" "a:1" .online)).insert "miner_2_f" (.plain 2 "f" "b:1" .online)
  gpus := AssocMap.empty
  logs := []
  rentals := []

def announcement (executorId : ExecutorId) (grpcEndpoint : String) (successful : Bool) : ExecutorVerificationResult :=
  ⟨executorId, grpcEndpoint, if successful then 1 else 0, successful, successful, none, 0, .full⟩

theorem announcement_retires_other : ¬ KeepsOthers (minerIdOf 2) twoExecutors
        (storeExecutorVerificationResult 2 (announcement "e" "b:1" false) ⟨"two", ""⟩ 0 twoExecutors).2 ∧
      (storeExecutorVerificationResult 2 (announcement "e" "b:1" false) ⟨"two", ""⟩ 0 twoExecutors).2.executorStatus?
        (minerIdOf 1) "e" = some .offline ∧
      ¬ KeepsOthers (minerIdOf 2) twoExecutors
        (storeExecutorVerificationResult 2 (announcement "f" "a:1" true) ⟨"two", ""⟩ 0 twoExecutors).2 ∧
      (storeExecutorVerificationResult 2 (announcement "f" "a:1" true) ⟨"two", ""⟩ 0 twoExecutors).2.executorStatus?
        (minerIdOf 1) "e" = some .offline := by
  have hbefore : twoExecutors.executorStatus? (minerIdOf 1) "e" = some .online := by decide +kernel
  have hne : minerIdOf 1 ≠ minerIdOf 2 := by decide +kernel
  have hlost : ∀ after : ValidatorDb, after.executorStatus? (minerIdOf 1) "e" = some .offline →
      ¬ KeepsOthers (minerIdOf 2) twoExecutors after := by
    intro after hafter hkeeps
    rw [executorStatus?_congr hkeeps.executors hne, hbefore] at hafter
    cases hafter
  have hfailed : (storeExecutorVerificationResult 2 (announcement "e" "b:1" false) ⟨"two", ""⟩ 0
      twoExecutors).2.executorStatus? (minerIdOf 1) "e" = some .offline := by decide +kernel
  have hretired : (storeExecutorVerificationResult 2 (announcement "f" "a:1" true) ⟨"two", ""⟩ 0
      twoExecutors).2.executorStatus? (minerIdOf 1) "e" = some .offline := by decide +kernel
  exact ⟨hlost _ hfailed, hfailed, hlost _ hretired, hretired⟩

end Frame

end Basilica.Validator
