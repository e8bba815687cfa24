import Basilica.WeightSetter
import Basilica.StepRuns

namespace Basilica.WeightSetting

open AssocMaps AtomicCalls AtomicCalls.Calls CheckedSteps Weights StepRuns EachCall List WeightSetter

def Call.Plain : Call → Prop
  | .submitExtrinsic _ _ => False
  | .set key _ => key ≠ .weightVersionKey
  | _ => True

def Call.Quiet : Call → Prop
  | .submitExtrinsic _ _ => False
  | _ => True

variable {c : Call}

theorem Call.Plain.quiet (h : c.Plain) : c.Quiet := by
  cases c <;> trivial

variable (weights : List NormalizedWeight) {α : Type} {key : Key}

section EachCall

variable {P : Call → Prop} {p : SetterCalls α}

theorem eachCall_caught (hp : EachCall P p) : EachCall P (caught p) := by
  refine hp.catching.bind (fun r => ?_)
  rcases r with (_ | _) | _ <;> trivial

theorem eachCall_attempts (text : String) (hp : EachCall P p) (n : ℕ) : EachCall P (attempts text p n) := by
  induction n with
  | zero => trivial
  | succ n ih =>
    refine (eachCall_caught hp).bind (fun r => ?_)
    cases r with
    | ok a => trivial
    | error e => exact ih

theorem eachCall_currentBlockOrZero (h : P .currentBlock) : EachCall P currentBlockOrZero := by
  refine (eachCall_caught (eachCall_attempts _ (eachCall_ask h) _)).bind (fun r => ?_)
  cases r <;> trivial

theorem plain_request (h : c.Plain) : EachCall Call.Plain (request c) := eachCall_ask h

theorem plain_store (h : key ≠ .weightVersionKey) (value : Value) : EachCall Call.Plain (store key value) :=
  plain_request (c := .set key value) h

theorem plain_prepareWeights (s : WeightSetter) : EachCall Call.Plain s.prepareWeights := by
  refine (eachCall_attempts _ (plain_request (c := .metagraph) trivial) _).bind (fun metagraph => ?_)
  refine bind ?_ (fun timestamp => ?_)
  · refine (eachCall_caught (plain_request (c := .getI64 _) trivial)).bind (fun r => ?_)
    rcases r with _ | _ | timestamp
    · trivial
    · trivial
    · dsimp only
      split_ifs <;> trivial
  · refine (plain_request (c := .minersByGpuCategory _ _ _) trivial).bind (fun miners => ?_)
    refine bind ?_ (fun d => ?_)
    · unfold weightDistribution
      split <;> trivial
    · refine bind ?_ (fun weights => trivial)
      unfold buildNormalizedWeights
      split_ifs <;> trivial

theorem plain_storeMinerAllocations (d : WeightDistribution) (metricsId : ℤ) (block : ℕ) (ws : List NormalizedWeight) :
    EachCall Call.Plain (storeMinerAllocations d metricsId block ws) := by
  induction ws with
  | nil => trivial
  | cons w ws ih =>
    refine bind ?_ (fun _ => ih)
    refine (eachCall_caught (plain_request (c := .gpuProfile _) trivial)).bind (fun r => ?_)
    rcases r with _ | _ | profile
    · trivial
    · trivial
    · dsimp only
      split
      · exact plain_request (c := .storeWeightAllocation _ _ _ _ _ _ _) trivial
      · trivial

theorem plain_recordSubmission (d : WeightDistribution) : EachCall Call.Plain (recordSubmission d) := by
  refine (eachCall_currentBlockOrZero trivial).bind (fun block => ?_)
  refine (plain_request (c := .storeEmissionMetrics _ _) trivial).bind (fun metricsId => ?_)
  refine bind ?_ (fun _ => ?_)
  · refine bind ?_ (fun _ => plain_storeMinerAllocations d metricsId block d.weights)
    unfold storeBurnAllocation
    cases d.burnAllocation with
    | none => trivial
    | some burn => exact plain_request (c := .storeWeightAllocation _ _ _ _ _ _ _) trivial
  · refine bind (plain_store (by decide) _) (fun _ => ?_)
    refine bind (plain_request (c := .now) trivial) (fun _ => ?_)
    refine bind (plain_store (by decide) _) (fun _ => ?_)
    exact bind (plain_request (c := .categoryStatistics) trivial) (fun _ => plain_store (by decide) _)

theorem plain_storeLastWeightSetBlock (block : ℕ) :
    EachCall Call.Plain (storeLastWeightSetBlock block) := by
  refine bind (plain_request (c := .now) trivial) (fun _ => ?_)
  refine bind (plain_store (by decide) _) (fun _ => ?_)
  exact (eachCall_caught (plain_store (by decide) _)).bind (fun _ => trivial)

theorem quiet_request (h : c.Quiet) : EachCall Call.Quiet (request c) := eachCall_ask h

theorem quiet_getVersionKey (s : WeightSetter) : EachCall Call.Quiet s.getVersionKey := by
  refine bind (eachCall_caught (quiet_request (c := .getI64 _) trivial)) (fun _ => ?_)
  exact bind (quiet_request (c := .set _ _) trivial) (fun _ => trivial)

theorem quiet_validate :
    EachCall Call.Quiet (validateWeightsBeforeSubmission weights) := by
  unfold validateWeightsBeforeSubmission
  split
  · trivial
  · split
    · trivial
    · split <;> trivial

end EachCall

variable {env : Outside} {β : Type}

section Runs

variable {p : SetterCalls α} {w w' : World}

theorem run_caught (p : SetterCalls α) (w : World) :
    run (serve env) (caught p) w = match run (serve env) p w with
      | (.ok a, w') => (.ok (.ok a), w')
      | (.error (.failed text), w') => (.ok (.error text), w')
      | (.error (.panicked text), w') => (.error (.panicked text), w') := by
  rw [caught, run_bind, run_catching]
  cases run (serve env) p w with
  | mk r w' => rcases r with (_ | _) | _ <;> rfl

theorem run_attempts_succ (text : String) (p : SetterCalls α) (n : ℕ) (w : World) :
    run (serve env) (attempts text p (n + 1)) w = match run (serve env) p w with
      | (.ok a, w') => (.ok a, w')
      | (.error (.failed _), w') => run (serve env) (attempts text p n) w'
      | (.error (.panicked text), w') => (.error (.panicked text), w') := by
  rw [attempts, run_bind, run_caught]
  cases run (serve env) p w with
  | mk r w' => rcases r with (_ | _) | _ <;> rfl

theorem quiet_run (hp : EachCall Call.Quiet p) (w : World) : (run (serve env) p w).2.extrinsics = w.extrinsics :=
  run_view (fun c w h => by cases c <;> first | rfl | exact h.elim) hp w

def AtMostOne (env : Outside) (p : SetterCalls α) : Prop :=
  ∀ w, match run (serve env) p w with
    | (.ok _, w') => w'.extrinsics.length ≤ w.extrinsics.length + 1
    | (.error _, w') => w'.extrinsics.length = w.extrinsics.length

theorem AtMostOne.attempts (h : AtMostOne env p) (text : String) (n : ℕ) : AtMostOne env (attempts text p n) := by
  induction n with
  | zero => exact fun w => rfl
  | succ n ih =>
    intro w
    have hw := h w
    rw [run_attempts_succ]
    cases hrun : run (serve env) p w with
    | mk r w' =>
      rw [hrun] at hw
      rcases r with (text | text) | a
      · -- A failed attempt submitted nothing, and the next one starts from what it left.
        have hnext := ih w'
        rwa [hw] at hnext
      all_goals exact hw

theorem AtMostOne.bind {q : SetterCalls β} {f : β → SetterCalls α} (hq : EachCall Call.Quiet q)
    (hf : ∀ b, AtMostOne env (f b)) : AtMostOne env (q >>= f) := by
  intro w
  have hquiet := @quiet_run _ env _ hq w
  rw [run_bind]
  cases hrun : run (serve env) q w with
  | mk r w' =>
    rw [hrun] at hquiet
    cases r with
    | ok b => exact hquiet ▸ hf b w'
    | error e => exact congrArg length hquiet

theorem atMostOne_of_quiet (hp : EachCall Call.Quiet p) : AtMostOne env p := by
  intro w
  have hquiet := @quiet_run _ env _ hp w
  cases hrun : run (serve env) p w with
  | mk r w' =>
    rw [hrun] at hquiet
    cases r with
    | ok a => exact (congrArg length hquiet).le.trans (Nat.le_succ _)
    | error e => exact congrArg length hquiet

theorem atMostOne_submitExtrinsic (versionKey : ℕ) :
    AtMostOne env (request (.submitExtrinsic weights versionKey)) := by
  intro w
  rw [request, run_ask, serve]
  cases env.answer w.time (.submitExtrinsic weights versionKey) with
  | ok answer => simp
  | error e => rfl

theorem atMostOne_submit (versionKey : ℕ) :
    AtMostOne env (submit weights versionKey) := by
  unfold submit
  split
  · exact atMostOne_of_quiet trivial
  · apply AtMostOne.attempts
    apply AtMostOne.bind
    · exact quiet_validate weights
    · intro _
      exact AtMostOne.bind (eachCall_currentBlockOrZero trivial) (fun _ => atMostOne_submitExtrinsic weights versionKey)

theorem AtMostOne.andThen {q : SetterCalls Unit} (hp : AtMostOne env p) (hq : EachCall Call.Quiet q)
    (hreturns : Returns (serve env) q) : AtMostOne env (p >>= fun _ => q) := by
  intro w
  have hw := hp w
  rw [run_bind]
  cases hrun : run (serve env) p w with
  | mk r w' =>
    rw [hrun] at hw
    cases r with
    | error e => exact hw
    | ok a =>
      obtain ⟨u, hu⟩ := hreturns w'
      have hquiet := @quiet_run _ env _ hq w'
      dsimp only at hw ⊢
      cases hrun' : run (serve env) q w' with
      | mk r' w'' =>
        rw [hrun'] at hu hquiet
        cases hu
        dsimp only at hquiet ⊢
        rwa [hquiet]

end Runs

section Records

def Call.Records : Call → Prop
  | .storeEmissionMetrics _ _ => True
  | .storeWeightAllocation _ _ _ _ _ _ _ => True
  | .categoryStatistics => True
  | _ => False

def Key.Records : Key → Prop
  | .submittedWeightDistribution => True
  | .lastWeightSubmission => True
  | .categoryStats => True
  | _ => False

structure Outside.Recording (env : Outside) : Prop where
  answers : ∀ n (c : Call), c.Records → ∃ a, env.answer n c = .ok a
  saves : ∀ n (key : Key), key.Records → env.save n key = .saved

variable {p : SetterCalls α}

def NeverPanics (env : Outside) (p : SetterCalls α) : Prop :=
  ∀ w text, (run (serve env) p w).1 ≠ .error (.panicked text)

theorem mapError_failed_ne {α : Type} (r : Except String α) (text : String) : r.mapError Fault.failed ≠ .error (.panicked text) := by
  cases r <;> simp [Except.mapError]

theorem NeverPanics.attempts (h : NeverPanics env p) (text : String) (n : ℕ) : NeverPanics env (attempts text p n) := by
  induction n with
  | zero =>
    intro w text' heq
    cases heq
  | succ n ih =>
    intro w text'
    have hw := h w
    rw [run_attempts_succ]
    cases hrun : run (serve env) p w with
    | mk r w' =>
      rw [hrun] at hw
      rcases r with (_ | message) | a
      · exact ih w' text'
      · exact absurd rfl (hw message)
      · intro heq
        cases heq

theorem NeverPanics.returns_caught (h : NeverPanics env p) : Returns (serve env) (caught p) := by
  intro w
  have hw := h w
  rw [run_caught]
  cases hrun : run (serve env) p w with
  | mk r w' =>
    rw [hrun] at hw
    rcases r with (text | message) | a
    · exact ⟨_, rfl⟩
    · exact absurd rfl (hw message)
    · exact ⟨_, rfl⟩

theorem neverPanics_of_returns (h : Returns (serve env) p) : NeverPanics env p := by
  intro w text heq
  obtain ⟨a, ha⟩ := h w
  rw [ha] at heq
  cases heq

theorem NeverPanics.bind {f : α → SetterCalls β} (hp : NeverPanics env p)
    (hf : ∀ a, NeverPanics env (f a)) : NeverPanics env (p >>= f) := by
  intro w text
  have hw := hp w
  rw [run_bind]
  cases hrun : run (serve env) p w with
  | mk r w' =>
    rw [hrun] at hw
    cases r with
    | ok a => exact hf a w' text
    | error e =>
      intro heq
      cases heq
      exact hw text rfl

theorem neverPanics_store (key : Key) (value : Value) : NeverPanics env (store key value) := by
  intro w text
  change (env.save w.time key).answer ≠ _
  cases env.save w.time key <;> simp [Save.answer]

theorem neverPanics_storeLastWeightSetBlock (block : ℕ) :
    NeverPanics env (storeLastWeightSetBlock block) := by
  apply NeverPanics.bind (neverPanics_of_returns (p := request .now) (fun w => ⟨env.now w.time, rfl⟩))
  intro timestamp
  apply (neverPanics_store _ _).bind
  intro _
  exact (neverPanics_of_returns (neverPanics_store _ _).returns_caught).bind
    (fun _ => neverPanics_of_returns (returns_pure ()))

theorem returns_currentBlockOrZero : Returns (serve env) currentBlockOrZero := by
  have hblock : NeverPanics env getCurrentBlock :=
    NeverPanics.attempts (p := request .currentBlock) (fun _ => mapError_failed_ne _) _ _
  refine hblock.returns_caught.bind (fun r => ?_)
  cases r <;> exact returns_pure _

section

variable (henv : env.Recording)

include henv

theorem returns_request (h : c.Records) : Returns (serve env) (request c) := by
  intro w
  obtain ⟨a, ha⟩ := henv.answers w.time c h
  have hanswer : (run (serve env) (request c) w).1 = (env.answer w.time c).mapError Fault.failed := by
    cases c with
    | storeEmissionMetrics | storeWeightAllocation | categoryStatistics => rfl
    | _ => exact h.elim
  refine ⟨a, ?_⟩
  rw [hanswer, ha]
  rfl

theorem returns_store (h : key.Records) (value : Value) : Returns (serve env) (store key value) := by
  intro w
  refine ⟨(), ?_⟩
  change (env.save w.time key).answer = _
  rw [henv.saves w.time key h]
  rfl

theorem returns_storeMinerAllocations (d : WeightDistribution) (metricsId : ℤ) (block : ℕ)
    (ws : List NormalizedWeight) : Returns (serve env) (storeMinerAllocations d metricsId block ws) := by
  induction ws with
  | nil => exact returns_pure ()
  | cons w ws ih =>
    refine Returns.bind ?_ (fun _ => ih)
    have hprofile : NeverPanics env (request (.gpuProfile w.uid)) := fun _ => mapError_failed_ne _
    refine hprofile.returns_caught.bind (fun r => ?_)
    rcases r with _ | _ | profile
    · exact returns_pure ()
    · exact returns_pure ()
    · dsimp only
      split
      · exact returns_request henv (c := .storeWeightAllocation _ _ _ _ _ _ _) trivial
      · exact returns_pure ()

theorem returns_recordSubmission (d : WeightDistribution) : Returns (serve env) (recordSubmission d) := by
  refine returns_currentBlockOrZero.bind (fun block => ?_)
  refine (returns_request henv (c := .storeEmissionMetrics _ _) trivial).bind (fun metricsId => ?_)
  refine Returns.bind ?_ (fun _ => ?_)
  · refine Returns.bind ?_ (fun _ => returns_storeMinerAllocations henv d metricsId block d.weights)
    unfold storeBurnAllocation
    cases d.burnAllocation with
    | none => exact returns_pure ()
    | some burn => exact returns_request henv (c := .storeWeightAllocation _ _ _ _ _ _ _) trivial
  · refine (returns_store henv (by trivial) _).bind (fun _ => ?_)
    refine Returns.bind (fun w => ⟨env.now w.time, rfl⟩) (fun _ => ?_)
    refine (returns_store henv (by trivial) _).bind (fun _ => ?_)
    exact (returns_request henv (c := .categoryStatistics) trivial).bind (fun _ => returns_store henv (by trivial) _)

theorem atMostOne_attemptWeightSetting (s : WeightSetter) : AtMostOne env s.attemptWeightSetting := by
  apply AtMostOne.bind ((plain_prepareWeights s).mono (fun _ h => h.quiet))
  rintro ⟨d, weights⟩
  apply AtMostOne.bind (quiet_getVersionKey s)
  intro versionKey
  exact (atMostOne_submit weights versionKey).andThen ((plain_recordSubmission d).mono (fun _ h => h.quiet))
    (returns_recordSubmission henv d)

end

end Records

section Ticks

/-- One run of the process: the block the loop remembers, and the block heights at whose ticks extrinsics
were submitted, one entry an extrinsic. -/
structure Process where
  world : World
  lastWeightSetBlock : ℕ
  submitted : List ℕ
  running : Bool

def WeightSetter.atBlock (s : WeightSetter) (env : Outside) (currentBlock : ℕ) (p : Process) : Process :=
  let (result, world) := run (serve env) (s.setAtBlock currentBlock p.lastWeightSetBlock) p.world
  { world := world
    lastWeightSetBlock := result.toOption.getD p.lastWeightSetBlock
    submitted := p.submitted ++ List.replicate (world.extrinsics.length - p.world.extrinsics.length) currentBlock
    running := result.isOk }

def WeightSetter.tick (s : WeightSetter) (env : Outside) (p : Process) : Process :=
  if p.running then
    match run (serve env) getCurrentBlock p.world with
    | (.ok currentBlock, world) => s.atBlock env currentBlock { p with world := world }
    | (.error _, world) => { p with world := world }
  else p

def WeightSetter.start (s : WeightSetter) (env : Outside) (world : World) : Process :=
  let (result, world) := run (serve env) s.getLastWeightSetBlock world
  ⟨world, result.toOption.getD 0, [], result.isOk⟩

variable {s : WeightSetter}

theorem setAtBlock_ok (henv : env.Recording) {currentBlock lastBlock : ℕ}
    (hroom : lastBlock + s.blocksPerWeightSet < 2 ^ 64) (w : World) :
    match run (serve env) (s.setAtBlock currentBlock lastBlock) w with
    | (.ok last, w') => w'.extrinsics.length ≤ w.extrinsics.length + 1 ∧ lastBlock ≤ last ∧
        (w.extrinsics.length < w'.extrinsics.length → last = currentBlock ∧ lastBlock + s.blocksPerWeightSet ≤ currentBlock)
    | (.error _, w') => w'.extrinsics.length = w.extrinsics.length := by
  have hset : AtMostOne env s.setWeightsForMiners := (atMostOne_attemptWeightSetting henv s).attempts _ _
  specialize hset w
  unfold setAtBlock
  rw [Nat.mod_eq_of_lt hroom]
  split_ifs with hdue
  · rw [run_bind, run_caught]
    cases hrun : run (serve env) s.setWeightsForMiners w with
    | mk r w₁ =>
      rw [hrun] at hset
      rcases r with (text | text) | u
      · have hsame : w₁.extrinsics.length = w.extrinsics.length := hset
        exact ⟨by omega, le_rfl, fun hlt => absurd hlt (by omega)⟩
      · exact hset
      · have hone : w₁.extrinsics.length ≤ w.extrinsics.length + 1 := hset
        have hstore := eachCall_caught ((plain_storeLastWeightSetBlock currentBlock).mono (fun _ h => h.quiet))
        have hquiet := @quiet_run _ env _ hstore w₁
        obtain ⟨a, ha⟩ := (@neverPanics_storeLastWeightSetBlock env currentBlock).returns_caught w₁
        dsimp only
        rw [run_bind]
        cases hrun' : run (serve env) (caught (storeLastWeightSetBlock currentBlock)) w₁ with
        | mk r' w₂ =>
          rw [hrun'] at ha hquiet
          cases ha
          have hlen : w₂.extrinsics.length = w₁.extrinsics.length := congrArg length hquiet
          exact ⟨by omega, by omega, fun _ => ⟨rfl, hdue⟩⟩
  · exact ⟨Nat.le_succ _, le_rfl, fun hlt => absurd hlt (Nat.lt_irrefl _)⟩

def Spaced (s : WeightSetter) (p : Process) : Prop :=
  p.submitted.Pairwise (fun a b => a + s.blocksPerWeightSet ≤ b)

def Remembered (s : WeightSetter) (p : Process) : Prop := Spaced s p ∧ ∀ h ∈ p.submitted, h ≤ p.lastWeightSetBlock

def Calm (s : WeightSetter) (env : Outside) (p : Process) : Prop :=
  env.Recording ∧ p.lastWeightSetBlock + s.blocksPerWeightSet < 2 ^ 64

variable {p : Process}

theorem Remembered.atBlock (h : Remembered s p) (hcalm : Calm s env p) (currentBlock : ℕ) :
    Remembered s (s.atBlock env currentBlock p) := by
  obtain ⟨henv, hroom⟩ := hcalm
  obtain ⟨hspaced, hlast⟩ := h
  have hrun := @setAtBlock_ok env s henv currentBlock _ hroom p.world
  unfold WeightSetter.atBlock
  cases hset : run (serve env) (s.setAtBlock currentBlock p.lastWeightSetBlock) p.world with
  | mk r w' =>
    rw [hset] at hrun
    cases r with
    | error e =>
      have hsame : w'.extrinsics.length = p.world.extrinsics.length := hrun
      have hnone : w'.extrinsics.length - p.world.extrinsics.length = 0 := by omega
      simp only [Remembered, Spaced, hnone, replicate_zero, append_nil]
      exact ⟨hspaced, hlast⟩
    | ok last =>
      obtain ⟨hone, hle, hnew⟩ := hrun
      have hlast' : ∀ h ∈ p.submitted, h ≤ last := fun h hmem => (hlast h hmem).trans hle
      rcases Nat.lt_or_ge p.world.extrinsics.length w'.extrinsics.length with hlt | hge
      · obtain ⟨rfl, hdue⟩ := hnew hlt
        have hcount : w'.extrinsics.length - p.world.extrinsics.length = 1 := by omega
        simp only [Remembered, Spaced, hcount, replicate_one]
        refine ⟨pairwise_append.mpr ⟨hspaced, by simp, ?_⟩, ?_⟩
        · intro a ha b hb
          rw [mem_singleton.mp hb]
          have := hlast a ha
          omega
        · intro h hmem
          rcases mem_append.mp hmem with hmem | hmem
          · exact hlast' h hmem
          · exact (mem_singleton.mp hmem).le
      · have hcount : w'.extrinsics.length - p.world.extrinsics.length = 0 := by omega
        simp only [Remembered, Spaced, hcount, replicate_zero, append_nil]
        exact ⟨hspaced, hlast'⟩

theorem Remembered.tick (h : Remembered s p) (hcalm : Calm s env p) : Remembered s (s.tick env p) := by
  unfold WeightSetter.tick
  split_ifs
  · split
    · next currentBlock world _ =>
        exact Remembered.atBlock (p := { p with world := world }) h hcalm currentBlock
    · exact h
  · exact h

theorem submissions_spaced (s : WeightSetter) (env : Outside) (world : World) (ticks : List Outside)
    (hcalm : EachStep s.tick (Calm s) ticks (s.start env world)) :
    Throughout s.tick (Spaced s) ticks (s.start env world) := by
  have hstart : Remembered s (s.start env world) := by
    refine ⟨List.Pairwise.nil, ?_⟩
    intro h hmem
    cases hmem
  exact throughout_of_step (fun env p h hcalm => h.tick hcalm) (fun p h => h.1) hstart hcalm

end Ticks

def sampleSetter : WeightSetter := ⟨360, sampleConfig, fun _ => true⟩

def emptyWorld : World := ⟨.empty, .absent, [], [], 0⟩

def answersAt (block : ℕ) (metrics : Except String ℤ) : (c : Call) → Except String (Answer c)
  | .currentBlock => .ok block
  | .metagraph => .ok []
  | .minersByGpuCategory _ _ _ => .ok sampleMiners
  | .getI64 _ => .ok none
  | .set _ _ => .ok ()
  | .submitExtrinsic _ _ => .ok ()
  | .storeEmissionMetrics _ _ => metrics
  | .gpuProfile _ => .ok none
  | .storeWeightAllocation _ _ _ _ _ _ _ => .ok ()
  | .categoryStatistics => .ok ""
  | .now => .ok 0

def quietOutside (block : ℕ) : Outside := ⟨fun _ => answersAt block (.ok 1), fun _ _ => .saved, fun _ => 0⟩

def metricsFail (block : ℕ) : Outside :=
  ⟨fun _ => answersAt block (.error "database is locked"), fun _ _ => .saved, fun _ => 0⟩

theorem quietOutside_recording (block : ℕ) : (quietOutside block).Recording where
  answers n c h := by
    cases c with
    | storeEmissionMetrics => exact ⟨1, rfl⟩
    | storeWeightAllocation => exact ⟨(), rfl⟩
    | categoryStatistics => exact ⟨"", rfl⟩
    | _ => exact h.elim
  saves _ _ _ := rfl

theorem submissions_spaced_two_ticks :
    Throughout sampleSetter.tick (Spaced sampleSetter) [quietOutside 2000, quietOutside 2400]
      (sampleSetter.start (quietOutside 1000) emptyWorld) :=
  submissions_spaced sampleSetter (quietOutside 1000) emptyWorld [quietOutside 2000, quietOutside 2400]
    ⟨⟨quietOutside_recording 2000, by decide +kernel⟩, ⟨quietOutside_recording 2400, by decide +kernel⟩, trivial⟩

theorem submission_repeated :
    (sampleSetter.tick (metricsFail 2000) (sampleSetter.start (quietOutside 1000) emptyWorld)).submitted =
      [2000, 2000, 2000] ∧
    ¬ Spaced sampleSetter (sampleSetter.tick (metricsFail 2000) (sampleSetter.start (quietOutside 1000) emptyWorld)) := by
  have hthree : (sampleSetter.tick (metricsFail 2000) (sampleSetter.start (quietOutside 1000) emptyWorld)).submitted =
      [2000, 2000, 2000] := by decide +kernel
  refine ⟨hthree, ?_⟩
  rw [Spaced, hthree]
  decide

end Basilica.WeightSetting
