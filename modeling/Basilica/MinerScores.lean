import Basilica.GpuCredits

/-!
The score of a miner against the ratio of successful to all validations that the documentation gives.
-/

namespace Basilica.Validator

open AssocMaps List

variable {db : ValidatorDb} {now : Time} {log : VerificationLog}

namespace ValidatorDb

variable {minerId : MinerId}

def Concerns (db : ValidatorDb) (minerId : MinerId) (now : Time) (log : VerificationLog) : Prop :=
  InWindow now log ∧ ∃ row ∈ db.executors.values, row.executorId = log.executorId ∧ row.minerId = minerId

instance (db : ValidatorDb) (minerId : MinerId) (now : Time) : DecidablePred (db.Concerns minerId now) := fun _ =>
  inferInstanceAs (Decidable (_ ∧ _))

def validations (db : ValidatorDb) (minerId : MinerId) (now : Time) : List VerificationLog :=
  db.logs.filter (db.Concerns minerId now)

/-- `validation_ratio = successful_validations / total_validations`, and 0 if there are none. -/
def validationRatio (db : ValidatorDb) (minerId : MinerId) (now : Time) : ℚ :=
  ((db.validations minerId now).filter VerificationLog.success).length / (db.validations minerId now).length

def addLog (db : ValidatorDb) (log : VerificationLog) : ValidatorDb := { db with logs := db.logs ++ [log] }

theorem mem_successfulLogs : log ∈ db.successfulLogs minerId ↔ log ∈ db.logs ∧ log.success = true ∧
    ∃ row ∈ db.executors.values, row.executorId = log.executorId ∧ row.minerId = minerId := by
  unfold successfulLogs
  rw [mem_filter, mem_flatMap]
  constructor
  · rintro ⟨⟨log', hlog', hcopy⟩, hsuccess⟩
    obtain ⟨row, hrow, rfl⟩ := mem_map.mp hcopy
    obtain ⟨hrow, hof⟩ := mem_filter.mp hrow
    exact ⟨hlog', hsuccess, row, hrow, of_decide_eq_true hof⟩
  · rintro ⟨hlog, hsuccess, row, hrow, hof⟩
    refine ⟨⟨log, hlog, mem_map.mpr ⟨row, ?_, rfl⟩⟩, hsuccess⟩
    exact mem_filter.mpr ⟨hrow, decide_eq_true hof⟩

theorem mem_scoredLogs : log ∈ db.scoredLogs minerId now ↔ log ∈ db.validations minerId now ∧ log.success = true := by
  rw [scoredLogs, validations, mem_filter, mem_filter, mem_successfulLogs, decide_eq_true_eq, decide_eq_true_eq, Concerns]
  tauto

theorem totalScore_of_success (hscores : ∀ log ∈ db.validations minerId now, log.success = true → log.score = 1)
    (h : ∃ log ∈ db.validations minerId now, log.success = true) : db.totalScore minerId now = 1 := by
  obtain ⟨log, hlog, hsuccess⟩ := h
  have hne : db.scoredLogs minerId now ≠ [] := ne_nil_of_mem (mem_scoredLogs.mpr ⟨hlog, hsuccess⟩)
  have hsum : ((db.scoredLogs minerId now).map VerificationLog.score).sum = (db.scoredLogs minerId now).length := by
    have hones : (db.scoredLogs minerId now).map VerificationLog.score =
        replicate (db.scoredLogs minerId now).length 1 := by
      apply eq_replicate_iff.mpr
      refine ⟨length_map _, ?_⟩
      intro score hscore
      obtain ⟨log', hlog', rfl⟩ := mem_map.mp hscore
      exact hscores log' (mem_scoredLogs.mp hlog').1 (mem_scoredLogs.mp hlog').2
    rw [hones, sum_replicate, nsmul_one]
  have hlength : ((db.scoredLogs minerId now).length : ℚ) ≠ 0 := Nat.cast_ne_zero.mpr (length_pos_iff.mpr hne).ne'
  unfold totalScore
  rw [if_neg hne, hsum, div_self hlength]

theorem totalScore_of_none (h : ∀ log ∈ db.validations minerId now, log.success = false) : db.totalScore minerId now = 0 := by
  have hnil : db.scoredLogs minerId now = [] := by
    apply eq_nil_iff_forall_not_mem.mpr
    intro log hlog
    obtain ⟨hlog, hsuccess⟩ := mem_scoredLogs.mp hlog
    exact Bool.false_ne_true ((h log hlog).symm.trans hsuccess)
  exact if_pos hnil

theorem validationRatio_pos_iff : 0 < db.validationRatio minerId now ↔
    ∃ log ∈ db.validations minerId now, log.success = true := by
  unfold validationRatio
  constructor
  · intro hpos
    by_contra hnone
    have hnil : (db.validations minerId now).filter VerificationLog.success = [] := by
      apply filter_eq_nil_iff.mpr
      intro log hlog hsuccess
      exact hnone ⟨log, hlog, hsuccess⟩
    rw [hnil, length_nil, Nat.cast_zero, zero_div] at hpos
    exact lt_irrefl _ hpos
  · rintro ⟨log, hlog, hsuccess⟩
    apply div_pos
    · exact Nat.cast_pos.mpr (length_pos_of_mem (mem_filter.mpr ⟨hlog, hsuccess⟩))
    · exact Nat.cast_pos.mpr (length_pos_of_mem hlog)

theorem validationRatio_eq_one_iff (hne : ∃ log ∈ db.validations minerId now, log.success = true) :
    db.validationRatio minerId now = 1 ↔ ∀ log ∈ db.validations minerId now, log.success = true := by
  obtain ⟨log, hlog, -⟩ := hne
  have hlength : ((db.validations minerId now).length : ℚ) ≠ 0 :=
    Nat.cast_ne_zero.mpr (length_pos_of_mem hlog).ne'
  unfold validationRatio
  rw [div_eq_one_iff_eq hlength, Nat.cast_inj, length_filter_eq_length_iff]

theorem totalScore_eq_ratio_iff (hscores : ∀ log ∈ db.validations minerId now, log.success = true → log.score = 1) :
    db.totalScore minerId now = db.validationRatio minerId now ↔
      (∀ log ∈ db.validations minerId now, log.success = true) ∨ ∀ log ∈ db.validations minerId now, log.success = false := by
  by_cases hany : ∃ log ∈ db.validations minerId now, log.success = true
  · rw [totalScore_of_success hscores hany, eq_comm, validationRatio_eq_one_iff hany]
    constructor
    · exact Or.inl
    · rintro (hall | hnone)
      · exact hall
      · obtain ⟨log, hlog, hsuccess⟩ := hany
        exact absurd ((hnone log hlog).symm.trans hsuccess) Bool.false_ne_true
  · have hnone : ∀ log ∈ db.validations minerId now, log.success = false := by
      intro log hlog
      apply Bool.eq_false_of_not_eq_true
      exact fun hsuccess => hany ⟨log, hlog, hsuccess⟩
    have hratio : db.validationRatio minerId now = 0 := by
      apply le_antisymm (not_lt.mp (fun hpos => hany (validationRatio_pos_iff.mp hpos)))
      exact div_nonneg (Nat.cast_nonneg _) (Nat.cast_nonneg _)
    rw [totalScore_of_none hnone, hratio]
    exact iff_of_true rfl (Or.inr hnone)

theorem successfulLogs_addLog (h : log.success = false) : (db.addLog log).successfulLogs minerId = db.successfulLogs minerId := by
  unfold successfulLogs addLog
  rw [flatMap_append, filter_append]
  have hnil : (([log].flatMap (fun log => (db.executors.values.filter (fun row =>
      row.executorId = log.executorId ∧ row.minerId = minerId)).map (fun _ => log))).filter VerificationLog.success) = [] := by
    apply filter_eq_nil_iff.mpr
    intro log' hlog' hsuccess
    obtain ⟨log₀, hlog₀, hcopy⟩ := mem_flatMap.mp hlog'
    obtain ⟨row, -, rfl⟩ := mem_map.mp hcopy
    rw [mem_singleton.mp hlog₀, h] at hsuccess
    cases hsuccess
  rw [hnil, append_nil]

theorem gpuProfile_addLog (stored : ℤ → Option Time) (now : Time) (minerId : MinerId) (h : log.success = false) :
    (db.addLog log).gpuProfile stored now minerId = db.gpuProfile stored now minerId := by
  unfold gpuProfile totalScore verificationCount lastSuccessfulValidation scoredLogs
  rw [successfulLogs_addLog h]
  rfl

end ValidatorDb

section Ratio

open ValidatorDb

variable {stored : ℤ → Option Time}

theorem getMinersByGpuCategorySinceEpoch_addLog (engine : GpuScoringEngine) (epochTimestamp : Option Time) (cutoffHours : UInt32)
    (metagraph : Metagraph) (h : log.success = false) :
    engine.getMinersByGpuCategorySinceEpoch (db.addLog log) stored now epochTimestamp cutoffHours metagraph =
      engine.getMinersByGpuCategorySinceEpoch db stored now epochTimestamp cutoffHours metagraph := by
  have hprofiles : (db.addLog log).getAllGpuProfiles stored now = db.getAllGpuProfiles stored now := by
    have hprofile : (db.addLog log).gpuProfile stored now = db.gpuProfile stored now := by
      funext minerId
      exact gpuProfile_addLog stored now minerId h
    unfold getAllGpuProfiles
    rw [hprofile]
    rfl
  unfold GpuScoringEngine.getMinersByGpuCategorySinceEpoch GpuScoringEngine.credits
  rw [hprofiles]
  rfl

theorem mem_getAllGpuProfiles {profiles : List MinerGpuProfile} (h : db.getAllGpuProfiles stored now = some profiles)
    {profile : MinerGpuProfile} (hprofile : profile ∈ profiles) :
    ∃ minerId ∈ db.profiledMinerIds, minerUidOf minerId = profile.minerUid ∧ profile.totalScore = db.totalScore minerId now := by
  obtain ⟨found, hfound, rfl⟩ := Option.map_eq_some_iff.mp h
  obtain ⟨minerId, hminer, hgpu⟩ := exists_of_forall₂ (forall₂_of_mapM hfound) (reduceOption_mem_iff.mp hprofile)
  obtain ⟨rows, -, hgpu⟩ := Option.bind_eq_some_iff.mp hgpu
  split_ifs at hgpu
  · cases hgpu
  · cases hgpu
    exact ⟨minerId, hminer, rfl, rfl⟩

theorem category_score_eq_ratio_iff (engine : GpuScoringEngine) (db : ValidatorDb) (stored : ℤ → Option Time) (now : Time)
    (epochTimestamp : Option Time) (cutoffHours : UInt32) (metagraph : Metagraph) (credits : List Credit)
    (hcredits : engine.credits db stored now epochTimestamp cutoffHours metagraph = some credits) (credit : Credit)
    (hcredit : credit ∈ credits) : ∃ minerId ∈ db.profiledMinerIds, minerUidOf minerId = credit.minerUid ∧
      ((∀ log ∈ db.validations minerId now, log.score = if log.success then 1 else 0) →
        (credit.totalScore = db.validationRatio minerId now ↔
          (∀ log ∈ db.validations minerId now, log.success = true) ∨ ∀ log ∈ db.validations minerId now, log.success = false)) ∧
      ((∀ log, log.success = false → db.Concerns minerId now log → 0 < db.validationRatio minerId now →
          engine.getMinersByGpuCategorySinceEpoch (db.addLog log) stored now epochTimestamp cutoffHours metagraph ≠
            engine.getMinersByGpuCategorySinceEpoch db stored now epochTimestamp cutoffHours metagraph) ↔
        ∀ log ∈ db.validations minerId now, log.success = false) := by
  obtain ⟨profiles, hprofiles, profile, hprofile, hof⟩ := creditOf_mem hcredits hcredit
  obtain ⟨minerId, hminer, huid, hscore⟩ := mem_getAllGpuProfiles hprofiles hprofile
  refine ⟨minerId, hminer, huid.trans hof.minerUid.symm, ?_, ?_⟩
  · intro hscores
    rw [hof.totalScore, hscore]
    apply totalScore_eq_ratio_iff
    intro log hlog hsuccess
    rw [hscores log hlog, hsuccess]
    rfl
  · constructor
    · intro hdrops log hlog
      by_contra hsuccess
      have hsuccess : log.success = true := Bool.eq_true_of_not_eq_false hsuccess
      -- the same verification once more, this time failed
      have hconcerns : db.Concerns minerId now log := of_decide_eq_true (mem_filter.mp hlog).2
      apply hdrops { log with success := false } rfl hconcerns (validationRatio_pos_iff.mpr ⟨log, hlog, hsuccess⟩)
      exact getMinersByGpuCategorySinceEpoch_addLog engine epochTimestamp cutoffHours metagraph rfl
    · intro hnone log _ _ hpos
      obtain ⟨log', hlog', hsuccess⟩ := validationRatio_pos_iff.mp hpos
      exact absurd ((hnone log' hlog').symm.trans hsuccess) Bool.false_ne_true

def passedOnce : ValidatorDb where
  miners := AssocMap.empty
  executors := AssocMap.empty.insert "a" (.plain 1 "e" "a:1" .online)
  gpus := AssocMap.empty.insert "g" ((GpuInfo.mk 0 "H100" "g" 80).assignment "miner_1" "e" (.dateTime 0))
  logs := [⟨"e", "ssh_automation", 0, 1, true, ⟨1, true, none, 1⟩⟩]
  rentals := []

def failedOnce : ValidatorDb := passedOnce.addLog ⟨"e", "ssh_automation", 1, 0, false, ⟨1, false, none, 1⟩⟩

theorem failed_validation_not_scored :
    h100Engine.credits failedOnce (fun _ => none) 2 none 1 twoAxons = some [⟨1, "H100", 1, 1⟩] ∧
      failedOnce.validationRatio (minerIdOf 1) 2 = 1 / 2 ∧ 0 < passedOnce.validationRatio (minerIdOf 1) 2 ∧
      h100Engine.getMinersByGpuCategorySinceEpoch failedOnce (fun _ => none) 2 none 1 twoAxons =
        h100Engine.getMinersByGpuCategorySinceEpoch passedOnce (fun _ => none) 2 none 1 twoAxons := by
  refine ⟨by decide +kernel, by decide +kernel, by decide +kernel, ?_⟩
  exact getMinersByGpuCategorySinceEpoch_addLog h100Engine none 1 twoAxons rfl

theorem passed_validation_scored :
    h100Engine.credits passedOnce (fun _ => none) 2 none 1 twoAxons = some [⟨1, "H100", 1, 1⟩] ∧
      passedOnce.validationRatio (minerIdOf 1) 2 = (Credit.mk 1 "H100" 1 1).totalScore := by
  have hcredits : h100Engine.credits passedOnce (fun _ => none) 2 none 1 twoAxons = some [⟨1, "H100", 1, 1⟩] := by
    decide +kernel
  obtain ⟨minerId, hminer, -, hratio, -⟩ :=
    category_score_eq_ratio_iff h100Engine passedOnce (fun _ => none) 2 none 1 twoAxons _ hcredits _ mem_cons_self
  have hids : passedOnce.profiledMinerIds = [minerIdOf 1] := by decide +kernel
  rw [hids, mem_singleton] at hminer
  subst hminer
  exact ⟨hcredits, ((hratio (by decide +kernel)).mpr (Or.inl (by decide +kernel))).symm⟩

end Ratio

end Basilica.Validator
