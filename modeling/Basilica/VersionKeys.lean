import Basilica.WeightSubmissions

/-!
The version keys over the life of the storage: attempts that end or are cut off, writes of whatever else keeps
data in the same file, and restarts that read the file back.
-/

namespace Basilica.WeightSetting

open AssocMaps AtomicCalls AtomicCalls.Calls CheckedSteps Weights StepRuns List AssocMap WeightSetter

variable {s : WeightSetter} {env : Outside}

def WeightSetter.counter (s : WeightSetter) (data : Data) : ℕ :=
  s.versionOf (.ok ((data.get? .weightVersionKey).bind Value.int?))

def WeightSetter.nextVersion (s : WeightSetter) (data : Data) : ℕ := (s.counter data + 1) % 2 ^ 64

theorem run_getI64_version (env : Outside) (w : World) : run (serve env) (caught (getI64 .weightVersionKey)) w =
      (.ok (.ok ((w.memory.get? .weightVersionKey).bind Value.int?)), w.waited) := by
  rw [run_caught]
  rfl

theorem counter_empty (hkey : s.emissionConfig.weightVersionKey < 2 ^ 64) :
    s.counter .empty = s.emissionConfig.weightVersionKey := toU64_toI64 hkey

theorem counter_set (data : Data) {n : ℕ} (hn : n < 2 ^ 64) :
    s.counter (data.set .weightVersionKey (.int (toI64 n))) = n := by
  rw [counter, get?_set, if_pos rfl]
  exact toU64_toI64 hn

variable {key : Key}

theorem counter_set_other (data : Data) (h : key ≠ .weightVersionKey) (value : Value) :
    s.counter (data.set key value) = s.counter data := by
  rw [counter, get?_set, if_neg h]
  rfl

def Covers (s : WeightSetter) (versions : List ℕ) (data : Data) : Prop :=
  s.emissionConfig.weightVersionKey ≤ s.counter data ∧ ∀ key ∈ versions, key ≤ s.counter data

def Disk.Covered (s : WeightSetter) (versions : List ℕ) : Disk → Prop
  | absent => versions = []
  | intact data => Covers s versions data
  | torn => True

def Increasing (s : WeightSetter) (versions : List ℕ) : Prop :=
  versions.Pairwise (· < ·) ∧ ∀ key ∈ versions, s.emissionConfig.weightVersionKey < key

structure Counting (s : WeightSetter) (w : World) : Prop where
  increasing : Increasing s w.versions
  memory : Covers s w.versions w.memory
  disk : w.disk.Covered s w.versions

variable {w : World}

theorem Counting.waited (h : Counting s w) : Counting s w.waited := ⟨h.increasing, h.memory, h.disk⟩

theorem versionsOf_other (h : key ≠ .weightVersionKey) (value : Value) (save : Save) (versions : List ℕ) :
    versionsOf key value save versions = versions := by
  unfold versionsOf
  split
  · exact absurd rfl h
  · rfl

variable {data : Data}

theorem covered_save {versions : List ℕ} {disk : Disk} (hdisk : disk.Covered s versions)
    (hdata : Covers s versions data) (save : Save) : (save.disk disk data).Covered s versions := by
  cases save with
  | saved | unsynced => exact hdata
  | refused => exact hdisk
  | torn => trivial

theorem Counting.stored_other (h : Counting s w) (hkey : key ≠ .weightVersionKey)
    (value : Value) (save : Save) : Counting s (w.stored key value save) := by
  have hversions : (w.stored key value save).versions = w.versions := versionsOf_other hkey value save _
  have hmemory : Covers s w.versions (w.memory.set key value) := by
    unfold Covers
    rw [counter_set_other _ hkey]
    exact h.memory
  constructor
  · rw [hversions]
    exact h.increasing
  · rw [hversions]
    exact hmemory
  · rw [hversions]
    exact covered_save h.disk hmemory save

theorem Counting.stored_version (h : Counting s w) (hroom : s.counter w.memory + 1 < 2 ^ 64) (save : Save) :
    Counting s (w.stored .weightVersionKey (.int (toI64 (s.nextVersion w.memory))) save) := by
  obtain ⟨⟨hpairwise, habove⟩, ⟨hconfigured, hcovers⟩, hdisk⟩ := h
  rw [nextVersion, Nat.mod_eq_of_lt hroom]
  have hcounter := @counter_set s w.memory _ hroom
  have hmemory : Covers s w.versions (w.memory.set .weightVersionKey (.int (toI64 (s.counter w.memory + 1)))) := by
    unfold Covers
    rw [hcounter]
    exact ⟨by omega, fun key hkey => (hcovers key hkey).trans (Nat.le_succ _)⟩
  cases save with
  | refused => exact ⟨⟨hpairwise, habove⟩, hmemory, hdisk⟩
  | torn => exact ⟨⟨hpairwise, habove⟩, hmemory, trivial⟩
  | unsynced => exact ⟨⟨hpairwise, habove⟩, hmemory, hmemory⟩
  | saved =>
    -- The key just saved is above all that came before it.
    have hversions : (w.stored .weightVersionKey (.int (toI64 (s.counter w.memory + 1))) .saved).versions =
        w.versions ++ [s.counter w.memory + 1] := congrArg (fun n => w.versions ++ [n]) (toU64_toI64 hroom)
    have hcovers' : Covers s (w.versions ++ [s.counter w.memory + 1])
        (w.memory.set .weightVersionKey (.int (toI64 (s.counter w.memory + 1)))) := by
      refine ⟨hmemory.1, ?_⟩
      intro key hkey
      rcases mem_append.mp hkey with hkey | hkey
      · exact hmemory.2 key hkey
      · rw [hcounter, mem_singleton.mp hkey]
    constructor
    · rw [hversions]
      refine ⟨pairwise_append.mpr ⟨hpairwise, by simp, ?_⟩, ?_⟩
      · intro a ha b hb
        rw [mem_singleton.mp hb]
        have := hcovers a ha
        omega
      · intro key hkey
        rcases mem_append.mp hkey with hkey | hkey
        · exact habove key hkey
        · rw [mem_singleton.mp hkey]
          omega
    all_goals
      rw [hversions]
      exact hcovers'

variable {c : Call}

theorem counter_serve (hc : c.Plain) (w : World) :
    s.counter (serve env c w).2.memory = s.counter w.memory := by
  cases c with
  | set key value => exact counter_set_other w.memory hc value
  | submitExtrinsic => exact hc.elim
  | _ => rfl

def Call.Unversioned : Call → Prop
  | .set key _ => key ≠ .weightVersionKey
  | _ => True

theorem Call.Plain.unversioned (h : c.Plain) : c.Unversioned := by
  cases c <;> first | exact h | trivial

theorem Counting.serve (hc : c.Unversioned) (h : Counting s w) : Counting s (serve env c w).2 := by
  cases c with
  | set key value => exact h.stored_other hc value _
  | submitExtrinsic weights versionKey =>
    rw [WeightSetting.serve]
    cases env.answer w.time (.submitExtrinsic weights versionKey) with
    | ok answer => exact ⟨h.increasing, h.memory, h.disk⟩
    | error e => exact h.waited
  | _ => exact h.waited

theorem unversioned_submit (weights : List NormalizedWeight) (versionKey : ℕ) :
    EachCall Call.Unversioned (submit weights versionKey) := by
  unfold submit
  split
  · trivial
  · apply eachCall_attempts
    apply EachCall.bind
    · unfold validateWeightsBeforeSubmission
      split
      · trivial
      · split
        · trivial
        · split <;> trivial
    · intro _
      exact (eachCall_currentBlockOrZero trivial).bind (fun _ => ⟨trivial, fun _ => trivial⟩)

theorem getVersionKey_counts (h : Counting s w) (hroom : s.counter w.memory + 1 < 2 ^ 64) :
    ∀ w' ∈ trace (serve env) s.getVersionKey w, Counting s w' := by
  intro w' hw'
  rcases mem_trace_bind hw' with hread | ⟨stored, w₁, hrun, hrest⟩
  · have hcaught : EachCall Call.Unversioned (caught (getI64 .weightVersionKey)) :=
      eachCall_caught ⟨trivial, fun _ => trivial⟩
    exact hcaught.trace_keeps (fun c w hc hw => hw.serve hc) h w' hread
  · rw [run_getI64_version] at hrun
    cases hrun
    rcases mem_trace_bind hrest with hstore | ⟨_, w₂, -, hpure⟩
    · rw [mem_singleton.mp hstore]
      exact h.waited.stored_version hroom _
    · cases hpure

theorem attempt_counts (h : Counting s w) (hroom : s.counter w.memory + 1 < 2 ^ 64) :
    ∀ w' ∈ trace (serve env) s.attemptWeightSetting w, Counting s w' := by
  have hserve (c : Call) (w : World) (hc : c.Unversioned) (hw : Counting s w) : Counting s (serve env c w).2 :=
    hw.serve hc
  have hprepared := ((plain_prepareWeights s).mono (fun _ hc => hc.unversioned)).trace_keeps hserve h
  intro w' hw'
  rcases mem_trace_bind hw' with hprepare | ⟨⟨d, weights⟩, w₁, hrun₁, hrest⟩
  · exact hprepared w' hprepare
  · have h₁ : Counting s w₁ := by
      have := run_keeps h hprepared
      rwa [hrun₁] at this
    have hroom₁ : s.counter w₁.memory + 1 < 2 ^ 64 := by
      have hsame : s.counter (run (serve env) s.prepareWeights w).2.memory = s.counter w.memory :=
        EachCall.run_view (g := fun w : World => s.counter w.memory) (fun _ w hc => counter_serve hc w) (plain_prepareWeights s) w
      rw [hrun₁] at hsame
      rwa [hsame]
    have hkey := @getVersionKey_counts s env w₁ h₁ hroom₁
    rcases mem_trace_bind hrest with hget | ⟨versionKey, w₂, hrun₂, hrest⟩
    · exact hkey w' hget
    · have h₂ : Counting s w₂ := by
        have := run_keeps h₁ hkey
        rwa [hrun₂] at this
      have hrecord : EachCall Call.Unversioned (submit weights versionKey >>= fun _ =>
          recordSubmission d) :=
        (unversioned_submit weights versionKey).bind
          (fun _ => (plain_recordSubmission d).mono (fun _ hc => hc.unversioned))
      exact hrecord.trace_keeps hserve h₂ w' hrest

structure Node where
  world : World
  running : Bool

inductive Event
  | attempt (env : Outside)
  | stopped (calls : ℕ) (env : Outside)
  | write (key : Key) (value : Value) (save : Save)
  | restart (load : Load)

/-- An attempt to its end, an attempt cut off after some calls, a write under another key, and a restart. -/
def WeightSetter.step (s : WeightSetter) : Event → Node → Node
  | .attempt env, n =>
    if n.running then { n with world := (run (serve env) s.attemptWeightSetting n.world).2 } else n
  | .stopped calls env, n =>
    if n.running then ⟨(advance (serve env) calls s.attemptWeightSetting n.world).2, false⟩ else n
  | .write key value save, n =>
    if n.running ∧ key ≠ .weightVersionKey then { n with world := n.world.stored key value save } else n
  | .restart load, n =>
    match load.data n.world.disk with
    | some data => ⟨{ n.world with memory := data }, true⟩
    | none => { n with running := false }

def Load.restores : Disk → Load → Bool
  | .absent, _ => true
  | .intact _, unopened => false
  | .intact _, _ => true
  | .torn, unreadable => true
  | .torn, _ => false

def Careful (s : WeightSetter) : Event → Node → Prop
  | .attempt _, n => s.counter n.world.memory + 1 < 2 ^ 64
  | .stopped _ _, n => s.counter n.world.memory + 1 < 2 ^ 64
  | .write _ _ _, _ => True
  | .restart load, n => load.restores n.world.disk

instance (e : Event) (n : Node) : Decidable (Careful s e n) :=
  match e with
  | .attempt _ => inferInstanceAs (Decidable (_ < _))
  | .stopped _ _ => inferInstanceAs (Decidable (_ < _))
  | .write _ _ _ => inferInstanceAs (Decidable True)
  | .restart _ => inferInstanceAs (Decidable (_ = true))

theorem Counting.restart (hkey : s.emissionConfig.weightVersionKey < 2 ^ 64) (h : Counting s w) {load : Load}
    (hload : load.restores w.disk) (hdata : load.data w.disk = some data) :
    Counting s { w with memory := data } := by
  obtain ⟨hincreasing, -, hdisk⟩ := h
  refine ⟨hincreasing, ?_, hdisk⟩
  obtain ⟨memory, disk, extrinsics, versions, time⟩ := w
  cases disk with
  | absent =>
    obtain rfl : data = .empty := by
      cases load <;> exact (Option.some.inj hdata).symm
    obtain rfl : versions = [] := hdisk
    exact ⟨(counter_empty hkey).ge, by simp⟩
  | torn =>
    cases load with
    | unreadable => cases hdata
    | read | unopened => cases hload
  | intact saved =>
    cases load with
    | unreadable => cases hdata
    | unopened => cases hload
    | read =>
      cases hdata
      exact hdisk

theorem Counting.step (hkey : s.emissionConfig.weightVersionKey < 2 ^ 64) (e : Event) (n : Node) (h : Counting s n.world)
    (hcareful : Careful s e n) : Counting s (s.step e n).world := by
  cases e with
  | attempt env =>
    rw [WeightSetter.step]
    split_ifs
    · exact run_keeps h (attempt_counts h hcareful)
    · exact h
  | stopped calls env =>
    rw [WeightSetter.step]
    split_ifs
    · exact advance_keeps h (attempt_counts h hcareful) calls
    · exact h
  | write key value save =>
    rw [WeightSetter.step]
    split_ifs with hwrite
    · exact h.stored_other hwrite.2 value save
    · exact h
  | restart load =>
    rw [WeightSetter.step]
    cases hdata : load.data n.world.disk with
    | none => exact h
    | some data => exact h.restart hkey hcareful hdata

def firstStart : Node := ⟨emptyWorld, true⟩

theorem version_keys_increase (s : WeightSetter) (hkey : s.emissionConfig.weightVersionKey < 2 ^ 64) (events : List Event)
    (hcareful : EachStep s.step (Careful s) events firstStart) :
    Throughout s.step (fun n => Increasing s n.world.versions) events firstStart := by
  have hstart : Counting s firstStart.world :=
    ⟨⟨List.Pairwise.nil, by simp [firstStart, emptyWorld]⟩,
      ⟨(counter_empty hkey).ge, by simp [firstStart, emptyWorld]⟩, rfl⟩
  exact throughout_of_step (I := fun n => Counting s n.world) (Counting.step hkey) (fun n h => h.increasing) hstart hcareful

def tornSaves (block : ℕ) : Outside := { quietOutside block with save := fun _ _ => .torn }

theorem version_key_repeated : ∃ events, (last sampleSetter.step events firstStart).world.versions = [1, 1] ∧
      ¬ Increasing sampleSetter (last sampleSetter.step events firstStart).world.versions := by
  have htwo : (last sampleSetter.step [.attempt (quietOutside 2000), .attempt (tornSaves 2400), .restart .read,
      .attempt (quietOutside 2800)] firstStart).world.versions = [1, 1] := by decide +kernel
  refine ⟨_, htwo, ?_⟩
  rw [htwo]
  intro h
  exact absurd h.1 (by decide)

theorem version_keys_increase_restarted :
    Throughout sampleSetter.step (fun n => Increasing sampleSetter n.world.versions)
      [.attempt (quietOutside 2000), .restart .read, .attempt (quietOutside 2400)] firstStart :=
  version_keys_increase sampleSetter (by decide) _ (by decide +kernel)

end Basilica.WeightSetting
