import Basilica.MinerProfiles

/-!
Every GPU that is credited is credited once: to the miner and the executor that hold it, in the one category that the
executor counts for.
-/

namespace Basilica.Validator

open AssocMaps List Option AssocMap

variable {minerId : MinerId} {db : ValidatorDb} {q : GpuUuid × GpuAssignment} {executor : ℕ × String × ℚ}
  {rows : List (ExecutorId × ℕ × String × ℚ)}

namespace ValidatorDb

def activeGpus (db : ValidatorDb) : List (GpuUuid × GpuAssignment) :=
  db.gpus.entries.filter (fun q => ∃ row ∈ db.executors.values, row.Of q.2.minerId q.2.executorId ∧ row.status.Active)

def gpusOf (db : ValidatorDb) (minerId : MinerId) : List (GpuUuid × GpuAssignment) :=
  db.activeGpus.filter (fun q => q.2.minerId = minerId)

def group (q : GpuUuid × GpuAssignment) : ExecutorId × Option String := (q.2.executorId, q.2.gpuName)

theorem length_members (db : ValidatorDb) (minerId : MinerId) (p : GpuUuid × GpuAssignment → Bool) :
    (((db.activeGpuRows minerId).filter p).map Prod.fst).dedup.length = ((db.gpusOf minerId).filter p).length := by
  unfold activeGpuRows gpusOf activeGpus
  rw [List.filter_filter, length_dedup_join db.gpus.nodup, List.filter_filter, List.filter_filter]
  congr 1
  apply filter_congr
  intro q _
  rw [Bool.eq_iff_iff]
  simp only [ne_eq, filter_eq_nil_iff, decide_eq_true_eq, not_forall, not_not, Bool.and_eq_true, exists_prop, and_assoc]

theorem mem_activeGpuRows (h : q ∈ db.gpusOf minerId) : q ∈ db.activeGpuRows minerId := by
  obtain ⟨hactive, hminer⟩ := mem_filter.mp h
  obtain ⟨hq, hrow⟩ := mem_filter.mp hactive
  obtain ⟨row, hrow, hof⟩ := of_decide_eq_true hrow
  unfold activeGpuRows
  rw [mem_filter, mem_flatMap]
  refine ⟨⟨q, hq, ?_⟩, hminer⟩
  exact mem_map.mpr ⟨row, mem_filter.mpr ⟨hrow, decide_eq_true hof⟩, rfl⟩

section

variable (h : db.getMinerGpuUuidAssignments minerId = some rows)

include h

theorem counts_getMinerGpuUuidAssignments :
    ∃ groups : List (ExecutorId × Option String), groups.Nodup ∧ (∀ q ∈ db.gpusOf minerId, group q ∈ groups) ∧
      rows.map (fun row => (row.1, row.2.1)) =
        groups.map (fun g => (g.1, ((db.gpusOf minerId).filter (fun q => group q = g)).length)) := by
  refine ⟨((db.activeGpuRows minerId).map group).dedup.insertionSort GroupLe, ?_, ?_, ?_⟩
  · exact (perm_insertionSort _ _).nodup_iff.mpr (nodup_dedup _)
  · intro q hq
    rw [(perm_insertionSort _ _).mem_iff, mem_dedup]
    exact mem_map_of_mem (mem_activeGpuRows hq)
  · apply map_of_mapM h
    intro g row hrow
    obtain ⟨name, -, hrow⟩ := bind_eq_some_iff.mp hrow
    obtain ⟨memory, -, hrow⟩ := bind_eq_some_iff.mp hrow
    cases hrow
    rw [← length_members]
    rfl

theorem sum_counts (executorId : ExecutorId) :
    ((rows.filter (fun row => row.1 = executorId)).map (fun row => row.2.1)).sum =
      ((db.gpusOf minerId).filter (fun q => q.2.executorId = executorId)).length := by
  obtain ⟨groups, hnodup, hmem, hrows⟩ := counts_getMinerGpuUuidAssignments h
  have hsum : ((rows.filter (fun row => row.1 = executorId)).map (fun row => row.2.1)).sum =
      ((groups.filter (fun g => g.1 = executorId)).map
        (fun g => ((db.gpusOf minerId).filter (fun q => group q = g)).length)).sum := by
    have hfilter := congrArg (fun l => ((l.filter (fun x => decide (x.1 = executorId))).map Prod.snd).sum) hrows
    simp only [List.filter_map, List.map_map] at hfilter
    exact hfilter
  rw [hsum, sum_length_filter (hnodup.filter _)]
  congr 1
  apply filter_congr
  intro q hq
  apply decide_eq_decide.mpr
  rw [mem_filter, decide_eq_true_eq]
  exact ⟨fun hgroup => hgroup.2, fun hexecutor => ⟨hmem q hq, hexecutor⟩⟩

theorem count_mergeModels {executorId : ExecutorId}
    (hexecutor : (mergeModels rows).get? executorId = some executor) :
    executor.1 = ((db.gpusOf minerId).filter (fun q => q.2.executorId = executorId)).length := by
  rw [← sum_counts h]
  apply get?_gathered Prod.fst (fun row : ExecutorId × ℕ × String × ℚ => row.2.1) Prod.fst _ _ rows hexecutor
  · intro row
    rfl
  · intro row existing
    unfold mergeModel
    split_ifs <;> rfl

end

end ValidatorDb

variable {engine : GpuScoringEngine}

namespace GpuScoringEngine

open ValidatorDb

theorem count_rewardable {gpu : GpuCategory × ℕ} (h : engine.rewardable executor = some gpu) :
    gpu.2 = executor.1 := by
  unfold rewardable at h
  split_ifs at h
  dsimp only at h
  split at h
  · cases h
  · split_ifs at h
    cases h
    rfl

def categoryOf (engine : GpuScoringEngine) (executor : ℕ × String × ℚ) : Option String :=
  (engine.rewardable executor).map (fun gpu => gpu.1.toText)

def creditedTo (engine : GpuScoringEngine) (db : ValidatorDb) (q : GpuUuid × GpuAssignment) : Option (MinerId × String) := do
  let rows ← db.getMinerGpuUuidAssignments q.2.minerId
  let executor ← (mergeModels rows).get? q.2.executorId
  let category ← engine.categoryOf executor
  return (q.2.minerId, category)

variable (h : db.getMinerGpuUuidAssignments minerId = some rows)

include h

variable {category : String}

theorem creditedTo_eq_iff :
    engine.creditedTo db q = some (minerId, category) ↔ q.2.minerId = minerId ∧
      ∃ executor, (mergeModels rows).get? q.2.executorId = some executor ∧ engine.categoryOf executor = some category := by
  unfold creditedTo
  constructor
  · intro hcredited
    obtain ⟨rows', hrows', hcredited⟩ := bind_eq_some_iff.mp hcredited
    obtain ⟨executor, hexecutor, hcredited⟩ := bind_eq_some_iff.mp hcredited
    obtain ⟨category', hcategory, hcredited⟩ := bind_eq_some_iff.mp hcredited
    cases hcredited
    obtain rfl : rows = rows' := some.inj (h.symm.trans hrows')
    exact ⟨rfl, executor, hexecutor, hcategory⟩
  · rintro ⟨rfl, executor, hexecutor, hcategory⟩
    rw [h, bind_eq_bind, bind_some, hexecutor, bind_eq_bind, bind_some, hcategory]
    rfl

theorem count_rewardableGpuCounts {gpuCount : ℕ}
    (hcount : (engine.rewardableGpuCounts (mergeModels rows)).get? category = some gpuCount) :
    gpuCount = (db.activeGpus.filter (fun q => engine.creditedTo db q = some (minerId, category))).length := by
  -- the executors that count in the category
  let executors := ((mergeModels rows).entries.filter (fun e => engine.categoryOf e.2 = some category))
  have hexecutors : (executors.map Prod.fst).Nodup := (mergeModels rows).nodup.sublist (filter_sublist.map Prod.fst)
  have hsum : gpuCount = (executors.map (fun e => e.2.1)).sum := by
    have hgathered := get?_gathered id (fun gpu : GpuCategory × ℕ => gpu.2) (fun gpu => gpu.1.toText) (fun _ => rfl)
      (fun _ _ => rfl) ((mergeModels rows).values.filterMap engine.rewardable) hcount
    refine hgathered.trans ?_
    unfold executors AssocMap.values
    induction (mergeModels rows).entries with
    | nil => rfl
    | cons e entries ih =>
      cases hrewardable : engine.rewardable e.2 with
      | none =>
        have hcategory : engine.categoryOf e.2 = none := by rw [categoryOf, hrewardable, map_none]
        simp only [map_cons, filterMap_cons, hrewardable, filter_cons, hcategory, ih, reduceCtorEq, decide_false,
          Bool.false_eq_true, ↓reduceIte]
      | some gpu =>
        have hcategory : engine.categoryOf e.2 = some gpu.1.toText := by rw [categoryOf, hrewardable, map_some]
        by_cases htext : gpu.1.toText = category
        · simp only [map_cons, filterMap_cons, hrewardable, filter_cons, hcategory, htext, decide_true, ↓reduceIte,
            sum_cons, ih, count_rewardable hrewardable]
        · simp only [map_cons, filterMap_cons, hrewardable, filter_cons, hcategory, htext, ih,
            Option.some.injEq, decide_false, Bool.false_eq_true, ↓reduceIte]
  have hcounts : executors.map (fun e => e.2.1) =
      (executors.map Prod.fst).map (fun e => ((db.gpusOf minerId).filter (fun q => q.2.executorId = e)).length) := by
    rw [List.map_map]
    apply map_congr_left
    intro e he
    exact count_mergeModels h (AssocMap.get?_of_mem (mem_filter.mp he).1)
  rw [hsum, hcounts, sum_length_filter hexecutors, gpusOf, List.filter_filter]
  congr 1
  apply filter_congr
  intro q _
  rw [Bool.eq_iff_iff, Bool.and_eq_true, decide_eq_true_eq, decide_eq_true_eq, decide_eq_true_eq, creditedTo_eq_iff h, and_comm]
  apply and_congr_right
  intro _
  constructor
  · intro hmem
    obtain ⟨e, he, hid⟩ := mem_map.mp hmem
    obtain ⟨he, hcategory⟩ := mem_filter.mp he
    exact ⟨e.2, hid ▸ AssocMap.get?_of_mem he, of_decide_eq_true hcategory⟩
  · rintro ⟨executor, hexecutor, hcategory⟩
    apply List.mem_map.mpr
    exact ⟨(q.2.executorId, executor), List.mem_filter.mpr ⟨AssocMap.mem_entries_of_get? hexecutor, decide_eq_true hcategory⟩, rfl⟩

end GpuScoringEngine

def minerUidOf (minerId : MinerId) : MinerUid := .ofInt (minerUidColumn minerId)

variable (minerUid : MinerUid)

theorem toList_minerIdOf : (minerIdOf minerUid).toList = "miner_".toList ++ (toString minerUid.toNat).toList := by
  change (toString "miner_" ++ toString minerUid.toNat).toList = _
  rw [String.toList_append]
  rfl

theorem castInteger_digits {text : List Char} (hdigits : ∀ c ∈ text, c.isDigit = true) :
    castInteger text = min (Nat.ofDigitChars 10 text 0 : ℤ) 9223372036854775807 := by
  have hother : ∀ c ∈ text, c ∉ [' ', '\t', '\n', '\x0b', '\x0c', '\r', '-', '+'] := by
    intro c hc hmem
    have hdigit := hdigits c hc
    simp only [mem_cons, not_mem_nil, or_false] at hmem
    rcases hmem with rfl | rfl | rfl | rfl | rfl | rfl | rfl | rfl <;> cases hdigit
  have hdrop : text.dropWhile (fun c => c ∈ [' ', '\t', '\n', '\x0b', '\x0c', '\r']) = text := by
    cases text with
    | nil => rfl
    | cons c rest =>
      apply dropWhile_cons_of_neg
      intro hspace
      have hspace := of_decide_eq_true hspace
      apply hother c mem_cons_self
      simp only [mem_cons, not_mem_nil, or_false] at hspace ⊢
      tauto
  unfold castInteger
  rw [hdrop]
  split
  · exact absurd (by decide +kernel) (hother '-' mem_cons_self)
  · exact absurd (by decide +kernel) (hother '+' mem_cons_self)
  · rw [leadingNumber, takeWhile_eq_self_iff.mpr hdigits]

theorem minerUidColumn_minerIdOf : minerUidColumn (minerIdOf minerUid) = minerUid.toNat := by
  have hdrop : (minerIdOf minerUid).toList.drop 6 = (toString minerUid.toNat).toList := by
    rw [toList_minerIdOf]
    rfl
  have hlt := minerUid.toNat_lt
  unfold minerUidColumn
  rw [hdrop, castInteger_digits (ColumnText.digits_toString _), ColumnText.ofDigitChars_toString]
  omega

theorem minerUidOf_minerIdOf : minerUidOf (minerIdOf minerUid) = minerUid := by
  have hlt := minerUid.toNat_lt
  have hmod : (minerUid.toNat : ℤ) % 2 ^ 16 = minerUid.toNat := by omega
  unfold minerUidOf UInt16.ofInt
  rw [minerUidColumn_minerIdOf, hmod, Int.toNat_natCast, UInt16.ofNat_toNat]

section Credits

open ValidatorDb GpuScoringEngine

variable {stored : ℤ → Option Time} {now : Time} {epochTimestamp : Option Time}
  {cutoffHours : UInt32} {metagraph : Metagraph} {credits : List Credit} {profiles : List MinerGpuProfile}

theorem mem_profiledMinerIds (h : minerId ∈ db.profiledMinerIds) :
    ∃ gpu ∈ db.gpus.values, gpu.minerId = minerId := by
  rw [profiledMinerIds, (perm_insertionSort _ _).mem_iff, mem_dedup] at h
  obtain ⟨gpu, hgpu, hminer⟩ := mem_map.mp h
  exact ⟨gpu, (mem_filter.mp hgpu).1, hminer⟩

theorem uids_getAllGpuProfiles (h : db.getAllGpuProfiles stored now = some profiles) :
    (profiles.map MinerGpuProfile.minerUid).Sublist (db.profiledMinerIds.map minerUidOf) := by
  obtain ⟨found, hfound, rfl⟩ := map_eq_some_iff.mp h
  have hall := forall₂_of_mapM hfound
  clear h hfound
  generalize db.profiledMinerIds = minerIds at hall ⊢
  induction hall with
  | nil => exact .slnil
  | @cons minerId profile? _ _ hprofile _ ih =>
    cases profile? with
    | none => exact ih.cons _
    | some profile =>
      have huid : profile.minerUid = minerUidOf minerId := by
        obtain ⟨rows, -, hprofile⟩ := bind_eq_some_iff.mp hprofile
        split_ifs at hprofile
        · cases hprofile
        · cases hprofile
          rfl
      rw [reduceOption_cons_of_some, map_cons, map_cons, huid]
      exact ih.cons_cons _

structure CreditOf (engine : GpuScoringEngine) (db : ValidatorDb) (profile : MinerGpuProfile) (credit : Credit) : Prop where
  minerUid : credit.minerUid = profile.minerUid
  totalScore : credit.totalScore = profile.totalScore
  counted : ∃ rows, db.getMinerGpuUuidAssignments (minerIdOf profile.minerUid) = some rows ∧
    (engine.rewardableGpuCounts (mergeModels rows)).get? credit.category = some credit.gpuCount

theorem creditProfile_spec {cutoffTime : Time} {profile : MinerGpuProfile}
    (h : engine.creditProfile db epochTimestamp cutoffTime metagraph profile = some credits) :
    (credits.map Credit.category).Nodup ∧ ∀ credit ∈ credits, CreditOf engine db profile credit := by
  unfold creditProfile at h
  split_ifs at h
  · cases h
    exact ⟨nodup_nil, fun credit hcredit => absurd hcredit not_mem_nil⟩
  · obtain ⟨assignments, hassignments, h⟩ := bind_eq_some_iff.mp h
    obtain ⟨rows, hrows, rfl⟩ := map_eq_some_iff.mp hassignments
    cases h
    constructor
    · rw [List.map_map]
      exact (engine.rewardableGpuCounts (mergeModels rows)).nodup
    · intro credit hcredit
      obtain ⟨q, hq, rfl⟩ := mem_map.mp hcredit
      exact ⟨rfl, rfl, rows, hrows, AssocMap.get?_of_mem hq⟩

section

variable (h : engine.credits db stored now epochTimestamp cutoffHours metagraph = some credits)

include h

theorem credits_cases :
    ∃ profiles credited, db.getAllGpuProfiles stored now = some profiles ∧ credits = credited.flatten ∧
      List.Forall₂ (fun profile list => (list.map Credit.category).Nodup ∧ ∀ credit ∈ list, CreditOf engine db profile credit)
        profiles credited := by
  obtain ⟨profiles, hprofiles, h⟩ := bind_eq_some_iff.mp h
  obtain ⟨credited, hcredited, h⟩ := bind_eq_some_iff.mp h
  cases h
  refine ⟨profiles, credited, hprofiles, rfl, ?_⟩
  exact (forall₂_of_mapM hcredited).imp (fun _ _ hcredit => creditProfile_spec hcredit)

theorem creditOf_mem {credit : Credit}
    (hcredit : credit ∈ credits) :
    ∃ profiles, db.getAllGpuProfiles stored now = some profiles ∧ ∃ profile ∈ profiles, CreditOf engine db profile credit := by
  obtain ⟨profiles, credited, hprofiles, rfl, hall⟩ := credits_cases h
  obtain ⟨list, hlist, hcredit⟩ := mem_flatten.mp hcredit
  obtain ⟨profile, hprofile, -, hof⟩ := exists_of_forall₂ hall hlist
  exact ⟨profiles, hprofiles, profile, hprofile, hof credit hcredit⟩

end

theorem nodup_credits (hids : ∀ gpu ∈ db.gpus.values, ∃ minerUid, gpu.minerId = minerIdOf minerUid)
    (h : engine.credits db stored now epochTimestamp cutoffHours metagraph = some credits) :
    (credits.map (fun credit => (credit.minerUid, credit.category))).Nodup := by
  obtain ⟨profiles, credited, hprofiles, rfl, hall⟩ := credits_cases h
  have huids : (profiles.map MinerGpuProfile.minerUid).Nodup := by
    apply (uids_getAllGpuProfiles hprofiles).nodup
    apply List.Nodup.map_on _ ((perm_insertionSort _ _).nodup_iff.mpr (nodup_dedup _))
    intro minerId hminer minerId' hminer' heq
    obtain ⟨gpu, hgpu, rfl⟩ := mem_profiledMinerIds hminer
    obtain ⟨gpu', hgpu', rfl⟩ := mem_profiledMinerIds hminer'
    obtain ⟨minerUid, hid⟩ := hids gpu hgpu
    obtain ⟨minerUid', hid'⟩ := hids gpu' hgpu'
    rw [hid, hid', minerUidOf_minerIdOf, minerUidOf_minerIdOf] at heq
    rw [hid, hid', heq]
  clear h hprofiles
  induction hall with
  | nil => exact nodup_nil
  | @cons profile list profiles lists hlist hlists ih =>
    obtain ⟨hprofile, huids⟩ := nodup_cons.mp huids
    rw [flatten_cons, map_append, nodup_append]
    refine ⟨?_, ih huids, ?_⟩
    · apply List.Nodup.of_map Prod.snd
      rw [List.map_map]
      exact hlist.1
    · intro a ha b hb heq
      subst heq
      obtain ⟨credit, hcredit, rfl⟩ := mem_map.mp ha
      obtain ⟨credit', hcredit', hpair⟩ := mem_map.mp hb
      -- the two credits are of different profiles, so of different miners
      obtain ⟨list', hlist', hmem⟩ := mem_flatten.mp hcredit'
      obtain ⟨profile', hprofile', -, hof⟩ := exists_of_forall₂ hlists hlist'
      have hsame : profile.minerUid = profile'.minerUid := by
        rw [← (hlist.2 credit hcredit).minerUid, ← (hof credit' hmem).minerUid]
        exact (congrArg Prod.fst hpair).symm
      apply hprofile
      rw [hsame]
      exact mem_map_of_mem hprofile'

theorem count_credit (h : engine.credits db stored now epochTimestamp cutoffHours metagraph = some credits) :
    ∀ credit ∈ credits, credit.gpuCount = (db.activeGpus.filter (fun q =>
      engine.creditedTo db q = some (minerIdOf credit.minerUid, credit.category))).length := by
  intro credit hcredit
  obtain ⟨profiles, -, profile, -, hof⟩ := creditOf_mem h hcredit
  obtain ⟨rows, hrows, hcount⟩ := hof.counted
  rw [hof.minerUid]
  exact count_rewardableGpuCounts hrows hcount

theorem minerIdOf_injective : Function.Injective minerIdOf := Function.LeftInverse.injective minerUidOf_minerIdOf

/-- For tables whose miner ids are those of 16-bit UIDs. -/
theorem credits_count_gpus_once (engine : GpuScoringEngine) (db : ValidatorDb) (stored : ℤ → Option Time) (now : Time)
    (epochTimestamp : Option Time) (cutoffHours : UInt32) (metagraph : Metagraph)
    (hids : ∀ gpu ∈ db.gpus.values, ∃ minerUid, gpu.minerId = minerIdOf minerUid) (credits : List Credit)
    (hcredits : engine.credits db stored now epochTimestamp cutoffHours metagraph = some credits) :
    (credits.map Credit.gpuCount).sum ≤ db.activeGpus.length ∧
      (∀ credit ∈ credits, credit.gpuCount = (db.activeGpus.filter (fun q =>
        engine.creditedTo db q = some (minerIdOf credit.minerUid, credit.category))).length) ∧
      ∃ minersByCategory, engine.getMinersByGpuCategorySinceEpoch db stored now epochTimestamp cutoffHours metagraph =
        some minersByCategory ∧
        ∀ category miners, minersByCategory.get? category = some miners → (miners.map Prod.fst).Nodup := by
  have hcounts := count_credit hcredits
  have hnodup := nodup_credits hids hcredits
  refine ⟨?_, hcounts, ?_⟩
  · let keys := credits.map (fun credit => some (minerIdOf credit.minerUid, credit.category))
    have hkeys : keys.Nodup := by
      have hinjective : Function.Injective (fun pair : MinerUid × String => some (minerIdOf pair.1, pair.2)) := by
        rintro ⟨minerUid, category⟩ ⟨minerUid', category'⟩ heq
        obtain ⟨hid, hcategory⟩ := Prod.mk.inj (Option.some.inj heq)
        exact Prod.ext (minerIdOf_injective hid) hcategory
      have hmap := hnodup.map hinjective
      rw [List.map_map] at hmap
      exact hmap
    have hsum : credits.map Credit.gpuCount =
        keys.map (fun key => (db.activeGpus.filter (fun q => engine.creditedTo db q = key)).length) := by
      rw [List.map_map]
      apply map_congr_left
      exact hcounts
    rw [hsum, sum_length_filter hkeys]
    exact length_filter_le _ _
  · unfold getMinersByGpuCategorySinceEpoch
    rw [hcredits]
    refine ⟨_, rfl, ?_⟩
    intro category miners hminers
    rw [AssocMap.get?_mapValues] at hminers
    obtain ⟨listed, hlisted, rfl⟩ := map_eq_some_iff.mp hminers
    rw [((List.perm_insertionSort _ listed).map Prod.fst).nodup_iff, get?_gathered_list _ _ _ hlisted, List.map_map]
    apply List.Nodup.map_on
    · intro credit hcredit credit' hcredit' heq
      obtain ⟨hcredit, hcategory⟩ := mem_filter.mp hcredit
      obtain ⟨hcredit', hcategory'⟩ := mem_filter.mp hcredit'
      apply inj_on_of_nodup_map hnodup hcredit hcredit'
      exact Prod.ext heq ((of_decide_eq_true hcategory).trans (of_decide_eq_true hcategory').symm)
    · exact (List.Nodup.of_map _ hnodup).filter _

def doubledExecutor : ValidatorDb where
  miners := AssocMap.empty
  executors := ((AssocMap.empty.insert "a" (.plain 1 "e" "a:1" .online)).insert "b" (.plain 1 "e" "b:1" .verified)).insert "c"
    (.plain 2 "f" "c:1" .offline)
  gpus := ((((AssocMap.empty.insert "g" ((GpuInfo.mk 0 "NVIDIA H100" "g" 80).assignment "miner_1" "e" (.dateTime 0))).insert "h"
    ((GpuInfo.mk 1 "NVIDIA H100" "h" 80).assignment "miner_1" "e" (.dateTime 0))).insert "i"
    ((GpuInfo.mk 2 "A100" "i" 40).assignment "miner_1" "e" (.dateTime 0))).insert "j"
    ((GpuInfo.mk 0 "H100" "j" 80).assignment "miner_2" "f" (.dateTime 0)))
  logs := []
  rentals := []

def h100Engine : GpuScoringEngine := ⟨⟨0, 0, AssocMap.empty.insert "H100" ⟨100, 1, none⟩, 1, 360, 0⟩, List.map Char.toUpper⟩

def twoAxons : Metagraph := ⟨["zero", "one"], [⟨1, 1⟩, ⟨1, 1⟩]⟩

theorem credits_count_gpus_once_doubled :
    (∀ gpu ∈ doubledExecutor.gpus.values, ∃ minerUid, gpu.minerId = minerIdOf minerUid) ∧
      h100Engine.credits doubledExecutor (fun _ => none) 0 none 1 twoAxons = some [⟨1, "H100", 3, 0⟩] ∧
      ([Credit.mk 1 "H100" 3 0].map Credit.gpuCount).sum ≤ doubledExecutor.activeGpus.length := by
  have hids : ∀ gpu ∈ doubledExecutor.gpus.values, ∃ minerUid, gpu.minerId = minerIdOf minerUid := by
    have hall : ∀ gpu ∈ doubledExecutor.gpus.values, gpu.minerId = minerIdOf 1 ∨ gpu.minerId = minerIdOf 2 := by decide +kernel
    intro gpu hgpu
    rcases hall gpu hgpu with h | h
    · exact ⟨1, h⟩
    · exact ⟨2, h⟩
  have hcredits : h100Engine.credits doubledExecutor (fun _ => none) 0 none 1 twoAxons = some [⟨1, "H100", 3, 0⟩] := by
    decide +kernel
  exact ⟨hids, hcredits, (credits_count_gpus_once _ _ _ _ _ _ _ hids _ hcredits).1⟩

end Credits

end Basilica.Validator
