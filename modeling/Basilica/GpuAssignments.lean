import Basilica.ExecutorTables

/-!
How the GPUs that an executor reports are assigned to it. A GPU that another executor holds is taken over only if
that executor is gone or inactive; the loop asks for this GPU by GPU, in tables that it changes itself.
-/

namespace Basilica.Validator

open AssocMaps ValidatorDb List Option AssocMap

def GpuInfo.Valid (gpu : GpuInfo) : Prop := gpu.gpuUuid ≠ "" ∧ gpu.gpuUuid ≠ "Unknown UUID"

instance : DecidablePred GpuInfo.Valid := fun _ =>
  inferInstanceAs (Decidable (_ ∧ _))

def GpuInfo.assignment (gpu : GpuInfo) (minerId : MinerId) (executorId : ExecutorId) (now : Stamp) : GpuAssignment :=
  ⟨gpu.index.toInt32, executorId, minerId, some gpu.gpuName, some gpu.gpuMemoryGb, now, now⟩

def reportedGpuUuids (gpuInfos : List GpuInfo) : List GpuUuid := (gpuInfos.filter GpuInfo.Valid).map GpuInfo.gpuUuid

variable {uuid : GpuUuid}

theorem mem_reportedGpuUuids {gpuInfos : List GpuInfo} :
    uuid ∈ reportedGpuUuids gpuInfos ↔ ∃ gpu ∈ gpuInfos, gpu.Valid ∧ gpu.gpuUuid = uuid := by
  simp only [reportedGpuUuids, List.mem_map, List.mem_filter, decide_eq_true_eq, and_assoc]

namespace ValidatorDb

def removeUnreported (db : ValidatorDb) (minerId : MinerId) (executorId : ExecutorId) (reported : List GpuUuid) : ValidatorDb :=
  if reported ≠ [] then
    { db with gpus := db.gpus.filterWith (fun uuid gpu => ¬ (gpu.Of minerId executorId ∧ uuid ∉ reported)) }
  else db.cleanupGpuAssignments executorId minerId

def CanReassign (db : ValidatorDb) (gpu : GpuAssignment) : Prop :=
  ∀ status ∈ db.executorStatus? gpu.minerId gpu.executorId, status.Inactive

instance (db : ValidatorDb) : DecidablePred db.CanReassign := fun gpu =>
  inferInstanceAs (Decidable (∀ status ∈ db.executorStatus? gpu.minerId gpu.executorId, status.Inactive))

def assignGpu (minerId : MinerId) (executorId : ExecutorId) (now : Stamp) (db : ValidatorDb) (gpu : GpuInfo) : ValidatorDb :=
  if ¬ gpu.Valid then db
  else
    match db.gpus.get? gpu.gpuUuid with
    | some row =>
      if ¬ row.Of minerId executorId then
        if db.CanReassign row then
          { db with gpus := db.gpus.modify gpu.gpuUuid (fun _ => gpu.assignment minerId executorId now) }
        else db
      else
        { db with gpus := db.gpus.modify gpu.gpuUuid (fun row =>
            { row with gpuMemoryGb := some gpu.gpuMemoryGb, lastVerified := now, updatedAt := now }) }
    | none => { db with gpus := db.gpus.insert gpu.gpuUuid (gpu.assignment minerId executorId now) }

def gpuCount (db : ValidatorDb) (minerId : MinerId) (executorId : ExecutorId) : ℕ :=
  (db.gpus.values.filter (GpuAssignment.Of minerId executorId)).length

end ValidatorDb

def newStatus : ExecutorStatus → Bool → ExecutorStatus
  | .online, true => .online
  | .verified, true => .online
  | .online, false => .offline
  | _, true => .verified
  | _, false => .offline

def ExecutorRow.count (gpuCount : ℕ) (status : ExecutorStatus) (now : Time) (row : ExecutorRow) : ExecutorRow :=
  { row with gpuCount := gpuCount, status := status, updatedAt := .ofNow now }

def ValidatorDb.assignGpus (db : ValidatorDb) (minerId : MinerId) (executorId : ExecutorId) (gpuInfos : List GpuInfo)
    (now : Time) : ValidatorDb :=
  gpuInfos.foldl (assignGpu minerId executorId (.rfc3339 now))
    (db.removeUnreported minerId executorId (reportedGpuUuids gpuInfos))

def storeGpuUuidAssignments (minerUid : MinerUid) (executorId : ExecutorId) (gpuInfos : List GpuInfo) (now : Time)
    (db : ValidatorDb) : Except String Unit × ValidatorDb :=
  let minerId := minerIdOf minerUid
  let db := db.assignGpus minerId executorId gpuInfos now
  let gpuCount := db.gpuCount minerId executorId
  match db.executorStatus? minerId executorId with
  | none => (.error "no rows returned by a query that expected to return at least one row", db)
  | some currentStatus =>
    let db := db.updateExecutors (fun _ row => row.Of minerId executorId)
      (ExecutorRow.count gpuCount (newStatus currentStatus (0 < gpuCount)) now)
    let expected := (reportedGpuUuids gpuInfos).length
    if 0 < expected ∧ gpuCount = 0 then
      (.error s!"GPU assignment validation failed: no valid GPU UUIDs stored despite {expected} GPUs reported", db)
    else (.ok (), db)

variable (db : ValidatorDb) {minerId : MinerId} {executorId : ExecutorId}

section Assigned

variable {now : Stamp} {db : ValidatorDb}

def ValidatorDb.Assigned (db : ValidatorDb) (minerId : MinerId) (executorId : ExecutorId) (uuid : GpuUuid) : Prop :=
  ∃ row, db.gpus.get? uuid = some row ∧ row.Of minerId executorId

def ValidatorDb.Takes (db : ValidatorDb) (minerId : MinerId) (executorId : ExecutorId) (uuid : GpuUuid) : Prop :=
  ∀ row, db.gpus.get? uuid = some row → row.Of minerId executorId ∨ db.CanReassign row

theorem executors_assignGpu (gpu : GpuInfo) : (db.assignGpu minerId executorId now gpu).executors = db.executors := by
  unfold assignGpu
  by_cases hvalid : gpu.Valid
  · rw [if_neg (not_not.mpr hvalid)]
    cases db.gpus.get? gpu.gpuUuid with
    | none => rfl
    | some row =>
      dsimp only
      split_ifs <;> rfl
  · rw [if_pos hvalid]

variable {gpu : GpuInfo}

theorem get?_assignGpu_of_ne (h : gpu.Valid → gpu.gpuUuid ≠ uuid) :
    (db.assignGpu minerId executorId now gpu).gpus.get? uuid = db.gpus.get? uuid := by
  unfold assignGpu
  by_cases hvalid : gpu.Valid
  · have hne := (h hvalid).symm
    rw [if_neg (not_not.mpr hvalid)]
    cases hrow : db.gpus.get? gpu.gpuUuid with
    | none =>
      rw [get?_insert hrow, if_neg hne]
    | some row =>
      dsimp only
      split_ifs
      · exact (get?_modify _ _ _ _).trans (if_neg hne)
      · exact (get?_modify _ _ _ _).trans (if_neg hne)
      · rfl
  · rw [if_pos hvalid]

theorem assigned_assignGpu (now : Stamp) (hvalid : gpu.Valid) (htakes : db.Takes minerId executorId gpu.gpuUuid) :
    (db.assignGpu minerId executorId now gpu).Assigned minerId executorId gpu.gpuUuid := by
  unfold assignGpu ValidatorDb.Assigned
  rw [if_neg (not_not.mpr hvalid)]
  cases hrow : db.gpus.get? gpu.gpuUuid with
  | none =>
    rw [get?_insert hrow, if_pos rfl]
    exact ⟨_, rfl, rfl, rfl⟩
  | some row =>
    dsimp only
    by_cases hof : row.Of minerId executorId
    · rw [if_neg (not_not.mpr hof)]
      dsimp only
      rw [get?_modify, if_pos rfl, hrow]
      exact ⟨_, rfl, hof⟩
    · have hreassign := (htakes row hrow).resolve_left hof
      rw [if_pos hof, if_pos hreassign]
      rw [get?_modify, if_pos rfl, hrow]
      exact ⟨_, rfl, rfl, rfl⟩

theorem get?_assignGpu_of_not_takes (htakes : ¬ db.Takes minerId executorId gpu.gpuUuid) (uuid : GpuUuid) :
    (db.assignGpu minerId executorId now gpu).gpus.get? uuid = db.gpus.get? uuid := by
  unfold ValidatorDb.Takes at htakes
  push Not at htakes
  obtain ⟨row, hrow, hof, hreassign⟩ := htakes
  unfold assignGpu
  by_cases hvalid : gpu.Valid
  · rw [if_neg (not_not.mpr hvalid), hrow]
    dsimp only
    rw [if_pos hof, if_neg hreassign]
  · rw [if_pos hvalid]

theorem takes_congr {db' : ValidatorDb} (hexecutors : db'.executors = db.executors) (hgpu : db'.gpus.get? uuid = db.gpus.get? uuid) :
    db'.Takes minerId executorId uuid ↔ db.Takes minerId executorId uuid := by
  unfold ValidatorDb.Takes ValidatorDb.CanReassign executorStatus?
  rw [hgpu, hexecutors]

theorem takes_assignGpu (gpu : GpuInfo) (uuid : GpuUuid) :
    (db.assignGpu minerId executorId now gpu).Takes minerId executorId uuid ↔ db.Takes minerId executorId uuid := by
  by_cases hself : gpu.Valid ∧ gpu.gpuUuid = uuid
  · obtain ⟨hvalid, rfl⟩ := hself
    by_cases htakes : db.Takes minerId executorId gpu.gpuUuid
    · obtain ⟨row, hrow, hof⟩ := assigned_assignGpu now hvalid htakes
      refine iff_of_true ?_ htakes
      intro row' hrow'
      rw [hrow] at hrow'
      cases hrow'
      exact Or.inl hof
    · exact takes_congr (executors_assignGpu gpu) (get?_assignGpu_of_not_takes htakes gpu.gpuUuid)
  · exact takes_congr (executors_assignGpu gpu) (get?_assignGpu_of_ne (fun hvalid heq => hself ⟨hvalid, heq⟩))

variable (gpuInfos : List GpuInfo)

theorem executors_foldl_assignGpu (db : ValidatorDb) :
    (gpuInfos.foldl (assignGpu minerId executorId now) db).executors = db.executors := by
  induction gpuInfos generalizing db with
  | nil => rfl
  | cons gpu gpuInfos ih =>
    rw [foldl_cons, ih]
    exact executors_assignGpu gpu

theorem foldl_assignGpu (db : ValidatorDb) (uuid : GpuUuid) :
    ((∃ gpu ∈ gpuInfos, gpu.Valid ∧ gpu.gpuUuid = uuid) ∧ db.Takes minerId executorId uuid →
      (gpuInfos.foldl (assignGpu minerId executorId now) db).Assigned minerId executorId uuid) ∧
    (¬ ((∃ gpu ∈ gpuInfos, gpu.Valid ∧ gpu.gpuUuid = uuid) ∧ db.Takes minerId executorId uuid) →
      (gpuInfos.foldl (assignGpu minerId executorId now) db).gpus.get? uuid = db.gpus.get? uuid) := by
  induction gpuInfos generalizing db with
  | nil =>
    refine ⟨?_, fun _ => rfl⟩
    rintro ⟨⟨gpu, hgpu, -⟩, -⟩
    cases hgpu
  | cons gpu gpuInfos ih =>
    rw [foldl_cons]
    obtain ⟨hassigned, hsame⟩ := ih (db.assignGpu minerId executorId now gpu)
    constructor
    · rintro ⟨⟨reported, hmem, hvalid, rfl⟩, htakes⟩
      by_cases hrest : ∃ gpu ∈ gpuInfos, gpu.Valid ∧ gpu.gpuUuid = reported.gpuUuid
      · exact hassigned ⟨hrest, (takes_assignGpu gpu _).mpr htakes⟩
      · -- the last report of the GPU is this one
        obtain rfl : reported = gpu := by
          rcases mem_cons.mp hmem with heq | hmem
          · exact heq
          · exact absurd ⟨reported, hmem, hvalid, rfl⟩ hrest
        obtain ⟨row, hrow, hof⟩ := assigned_assignGpu now hvalid htakes
        exact ⟨row, (hsame (fun h => hrest h.1)).trans hrow, hof⟩
    · intro hnot
      have hstep : (db.assignGpu minerId executorId now gpu).gpus.get? uuid = db.gpus.get? uuid := by
        by_cases hself : gpu.Valid ∧ gpu.gpuUuid = uuid
        · obtain ⟨hvalid, rfl⟩ := hself
          apply get?_assignGpu_of_not_takes
          intro htakes
          exact hnot ⟨⟨gpu, mem_cons_self, hvalid, rfl⟩, htakes⟩
        · exact get?_assignGpu_of_ne (fun hvalid heq => hself ⟨hvalid, heq⟩)
      rw [← hstep]
      apply hsame
      rintro ⟨⟨reported, hmem, hreported⟩, htakes⟩
      exact hnot ⟨⟨reported, mem_cons_of_mem _ hmem, hreported⟩, (takes_assignGpu gpu _).mp htakes⟩

theorem get?_removeUnreported (reported : List GpuUuid) (uuid : GpuUuid) :
    (db.removeUnreported minerId executorId reported).gpus.get? uuid =
      (db.gpus.get? uuid).filter (fun gpu => ¬ (gpu.Of minerId executorId ∧ uuid ∉ reported)) := by
  unfold removeUnreported
  split_ifs with hreported
  · exact get?_filterWith _ _ _
  · obtain rfl := not_not.mp hreported
    simp only [not_mem_nil, not_false_eq_true, and_true]
    exact get?_filterWith _ _ _

theorem executors_removeUnreported (reported : List GpuUuid) :
    (db.removeUnreported minerId executorId reported).executors = db.executors := by
  unfold removeUnreported
  split_ifs <;> rfl

theorem executors_assignGpus (now : Time) :
    (db.assignGpus minerId executorId gpuInfos now).executors = db.executors := by
  unfold assignGpus
  rw [executors_foldl_assignGpu, executors_removeUnreported]

theorem takes_removeUnreported {reported : List GpuUuid} (h : uuid ∈ reported) :
    (db.removeUnreported minerId executorId reported).Takes minerId executorId uuid ↔ db.Takes minerId executorId uuid := by
  have hget : (db.removeUnreported minerId executorId reported).gpus.get? uuid = db.gpus.get? uuid := by
    rw [get?_removeUnreported]
    cases db.gpus.get? uuid with
    | none => rfl
    | some row =>
      apply filter_some_pos
      simp only [h, not_true_eq_false, and_false, not_false_eq_true, decide_true]
  exact takes_congr (executors_removeUnreported _) hget

variable {gpuInfos : List GpuInfo} {time : Time}

theorem get?_assignGpus_of_not (h : ¬ (uuid ∈ reportedGpuUuids gpuInfos ∧ db.Takes minerId executorId uuid)) :
    (db.assignGpus minerId executorId gpuInfos time).gpus.get? uuid =
      (db.removeUnreported minerId executorId (reportedGpuUuids gpuInfos)).gpus.get? uuid := by
  unfold assignGpus
  apply (foldl_assignGpu gpuInfos _ uuid).2
  rintro ⟨hreported, htakes⟩
  have hmem := mem_reportedGpuUuids.mpr hreported
  exact h ⟨hmem, (takes_removeUnreported hmem).mp htakes⟩

theorem assigned_assignGpus_iff : (db.assignGpus minerId executorId gpuInfos time).Assigned minerId executorId uuid ↔
    uuid ∈ reportedGpuUuids gpuInfos ∧ db.Takes minerId executorId uuid := by
  constructor
  · rintro ⟨row, hrow, hof⟩
    by_contra hnot
    -- an assignment that the loop did not make was there before, and its GPU was reported
    rw [get?_assignGpus_of_not hnot, get?_removeUnreported, filter_eq_some_iff] at hrow
    obtain ⟨hbefore, hkept⟩ := hrow
    simp only [hof, true_and, not_not, decide_eq_true_eq] at hkept
    refine hnot ⟨hkept, ?_⟩
    intro row' hrow'
    rw [hbefore] at hrow'
    cases hrow'
    exact Or.inl hof
  · rintro ⟨hmem, htakes⟩
    exact (foldl_assignGpu gpuInfos _ uuid).1 ⟨mem_reportedGpuUuids.mp hmem, (takes_removeUnreported hmem).mpr htakes⟩

section

variable (h : ¬ (db.assignGpus minerId executorId gpuInfos time).Assigned minerId executorId uuid)

include h

theorem get?_assignGpus_of_other
    (hother : ¬ db.Assigned minerId executorId uuid) :
    (db.assignGpus minerId executorId gpuInfos time).gpus.get? uuid = db.gpus.get? uuid := by
  rw [get?_assignGpus_of_not (fun htakes => h (assigned_assignGpus_iff.mpr htakes)), get?_removeUnreported]
  cases hrow : db.gpus.get? uuid with
  | none => rfl
  | some row =>
    have hof : ¬ row.Of minerId executorId := fun hof => hother ⟨row, hrow, hof⟩
    apply filter_some_pos
    simp only [hof, false_and, not_false_eq_true, decide_true]

theorem get?_assignGpus_of_released
    (hown : db.Assigned minerId executorId uuid) :
    (db.assignGpus minerId executorId gpuInfos time).gpus.get? uuid = none := by
  obtain ⟨row, hrow, hof⟩ := hown
  rw [assigned_assignGpus_iff] at h
  have hunreported : uuid ∉ reportedGpuUuids gpuInfos := by
    intro hmem
    refine h ⟨hmem, ?_⟩
    intro row' hrow'
    rw [hrow] at hrow'
    cases hrow'
    exact Or.inl hof
  rw [get?_assignGpus_of_not h, get?_removeUnreported, hrow]
  apply filter_some_neg
  simp only [hof, hunreported, not_false_eq_true, and_self, not_true_eq_false, decide_false]

end

theorem takes_iff : db.Takes minerId executorId uuid ↔ db.gpus.get? uuid = none ∨ db.Assigned minerId executorId uuid ∨
    ∃ row, db.gpus.get? uuid = some row ∧ db.CanReassign row := by
  unfold ValidatorDb.Takes ValidatorDb.Assigned
  cases db.gpus.get? uuid with
  | none => simp only [reduceCtorEq, false_implies, implies_true, true_or]
  | some row => simp only [some.injEq, forall_eq', reduceCtorEq, exists_eq_left', false_or]

theorem gpuCount_eq_zero_iff : db.gpuCount minerId executorId = 0 ↔ ∀ uuid, ¬ db.Assigned minerId executorId uuid := by
  unfold gpuCount
  rw [length_eq_zero_iff, filter_eq_nil_iff]
  constructor
  · rintro h uuid ⟨row, hrow, hof⟩
    exact h row (get?_mem_values hrow) (decide_eq_true hof)
  · intro h row hrow hof
    obtain ⟨q, hq, rfl⟩ := mem_map.mp hrow
    exact h q.1 ⟨q.2, get?_of_mem hq, of_decide_eq_true hof⟩

end Assigned

variable {db : ValidatorDb}

theorem exists_executorStatus
    (h : ∃ row ∈ db.executors.values, row.Of minerId executorId) : ∃ status, db.executorStatus? minerId executorId = some status := by
  obtain ⟨row, hrow, hof⟩ := h
  have hfind : (db.executors.values.find? (ExecutorRow.Of minerId executorId)).isSome :=
    find?_isSome.mpr ⟨row, hrow, decide_eq_true hof⟩
  obtain ⟨first, hfirst⟩ := isSome_iff_exists.mp hfind
  refine ⟨first.status, ?_⟩
  rw [executorStatus?, hfirst]
  rfl

theorem counted_updateExecutors {gpuCount : ℕ} {status : ExecutorStatus} {now : Time} {row : ExecutorRow}
    (hrow : row ∈ (db.updateExecutors (fun _ row => row.Of minerId executorId)
      (ExecutorRow.count gpuCount (newStatus status (0 < gpuCount)) now)).executors.values) (hof : row.Of minerId executorId) :
    row.gpuCount = gpuCount ∧ (0 < row.gpuCount → row.status.Active) ∧ (row.gpuCount = 0 → row.status = .offline) := by
  obtain ⟨q, hq, rfl⟩ := mem_map.mp hrow
  obtain ⟨old, -, rfl⟩ := mem_map.mp hq
  dsimp only at hof ⊢
  by_cases hold : old.2.Of minerId executorId
  · rw [if_pos hold]
    unfold ExecutorRow.count
    dsimp only
    refine ⟨rfl, ?_, ?_⟩
    · intro hpos
      rw [decide_eq_true hpos]
      cases status <;> simp [newStatus, ExecutorStatus.Active]
    · intro hzero
      rw [hzero]
      cases status <;> rfl
  · rw [if_neg hold] at hof
    exact absurd hof hold

theorem storeGpuUuidAssignments_assigns (db : ValidatorDb) (minerUid : MinerUid) (executorId : ExecutorId)
    (gpuInfos : List GpuInfo) (now : Time) (h : ∃ row ∈ db.executors.values, row.Of (minerIdOf minerUid) executorId) :
    let minerId := minerIdOf minerUid
    let result := (storeGpuUuidAssignments minerUid executorId gpuInfos now db).1
    let after := (storeGpuUuidAssignments minerUid executorId gpuInfos now db).2
    (∀ uuid, after.Assigned minerId executorId uuid ↔ uuid ∈ reportedGpuUuids gpuInfos ∧
      (db.gpus.get? uuid = none ∨ db.Assigned minerId executorId uuid ∨
        ∃ row, db.gpus.get? uuid = some row ∧ db.CanReassign row)) ∧
    (∀ uuid, ¬ after.Assigned minerId executorId uuid →
      (¬ db.Assigned minerId executorId uuid → after.gpus.get? uuid = db.gpus.get? uuid) ∧
        (db.Assigned minerId executorId uuid → after.gpus.get? uuid = none)) ∧
    (∀ row ∈ after.executors.values, row.Of minerId executorId → row.gpuCount = after.gpuCount minerId executorId ∧
      (0 < row.gpuCount → row.status.Active) ∧ (row.gpuCount = 0 → row.status = .offline)) ∧
    ((∃ e, result = .error e) ↔ reportedGpuUuids gpuInfos ≠ [] ∧ ∀ uuid, ¬ after.Assigned minerId executorId uuid) := by
  intro minerId result after
  set assigned := db.assignGpus minerId executorId gpuInfos now with hassigned
  obtain ⟨currentStatus, hstatus⟩ : ∃ status, assigned.executorStatus? minerId executorId = some status := by
    apply exists_executorStatus
    rw [hassigned, executors_assignGpus]
    exact h
  set gpuCount := assigned.gpuCount minerId executorId with hcount
  have hafter : after = assigned.updateExecutors (fun _ row => row.Of minerId executorId)
      (ExecutorRow.count gpuCount (newStatus currentStatus (0 < gpuCount)) now) := by
    change (storeGpuUuidAssignments minerUid executorId gpuInfos now db).2 = _
    unfold storeGpuUuidAssignments
    dsimp only
    rw [← hassigned, hstatus]
    split_ifs <;> rfl
  have hresult : (∃ e, result = .error e) ↔ 0 < (reportedGpuUuids gpuInfos).length ∧ gpuCount = 0 := by
    change (∃ e, (storeGpuUuidAssignments minerUid executorId gpuInfos now db).1 = .error e) ↔ _
    unfold storeGpuUuidAssignments
    dsimp only
    rw [← hassigned, hstatus]
    split_ifs with hnone
    · exact iff_of_true ⟨_, rfl⟩ hnone
    · refine iff_of_false ?_ hnone
      rintro ⟨e, he⟩
      cases he
  have hgpus : after.gpus = assigned.gpus := by
    rw [hafter]
    rfl
  have hsame : ∀ uuid, after.Assigned minerId executorId uuid ↔ assigned.Assigned minerId executorId uuid := by
    intro uuid
    unfold ValidatorDb.Assigned
    rw [hgpus]
  refine ⟨?_, ?_, ?_, ?_⟩
  · intro uuid
    rw [hsame, hassigned, assigned_assignGpus_iff, takes_iff]
  · intro uuid hnot
    rw [hsame] at hnot
    rw [hgpus]
    exact ⟨get?_assignGpus_of_other hnot, get?_assignGpus_of_released hnot⟩
  · intro row hrow hof
    rw [hafter] at hrow
    have hcounted : after.gpuCount minerId executorId = gpuCount := by
      rw [hcount, ValidatorDb.gpuCount, hgpus, ValidatorDb.gpuCount]
    rw [hcounted]
    exact counted_updateExecutors hrow hof
  · rw [hresult, hcount, gpuCount_eq_zero_iff, length_pos_iff]
    simp only [hsame]

def ExecutorRow.plain (minerUid : MinerUid) (executorId : ExecutorId) (grpcAddress : String) (status : ExecutorStatus) :
    ExecutorRow :=
  ⟨minerIdOf minerUid, executorId, grpcAddress, 0, status, none, .dateTime 0⟩

def GpuInfo.plain (gpuUuid : GpuUuid) : GpuInfo := ⟨0, "H100", gpuUuid, 80⟩

def offlineOwner : ValidatorDb where
  miners := (AssocMap.empty.insert "miner_1" ⟨"one", ""⟩).insert "miner_2" ⟨"two", ""⟩
  executors := (AssocMap.empty.insert "miner_1_e" (.plain 1 "e" "a:1" .verified)).insert "miner_2_f"
    (.plain 2 "f" "b:1" .offline)
  gpus := AssocMap.empty.insert "g" ((GpuInfo.plain "g").assignment "miner_2" "f" (.dateTime 0))
  logs := []
  rentals := []

theorem storeGpuUuidAssignments_takes_over : (∃ row ∈ offlineOwner.executors.values, row.Of (minerIdOf 1) "e") ∧
      (storeGpuUuidAssignments 1 "e" [.plain "g", .plain "", .plain "g"] 0 offlineOwner).2.Assigned (minerIdOf 1) "e" "g" := by
  have hrow : ∃ row ∈ offlineOwner.executors.values, row.Of (minerIdOf 1) "e" := by decide +kernel
  have hassigns := storeGpuUuidAssignments_assigns offlineOwner 1 "e" [.plain "g", .plain "", .plain "g"] 0 hrow
  refine ⟨hrow, (hassigns.1 "g").mpr ⟨by decide +kernel, Or.inr (Or.inr ⟨_, rfl, ?_⟩)⟩⟩
  decide +kernel

end Basilica.Validator
