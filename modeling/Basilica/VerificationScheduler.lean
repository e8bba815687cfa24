import Basilica.StepRuns
import Basilica.Tallies
import Basilica.VerificationStore

/-!
The scheduler of the verification tasks. For each strategy one loop discovers the miners, asks for each whether it may
be scheduled, and spawns the tasks; a clean-up forgets the tasks that are done.
-/

namespace Basilica.Validator.Scheduler

open AssocMaps StepRuns List Function AssocMap

structure AxonInfo where
  ip : ℕ
  ipType : ℕ
  port : ℕ

structure Metagraph where
  hotkeys : List String
  validatorPermit : List Bool
  axons : List AxonInfo
  bounded : hotkeys.length ≤ 65536

def hasEndpoint (axon : AxonInfo) : Bool :=
  axon.ip ≠ 0 && !(axon.ipType = 4 && axon.ip % 2 ^ 32 = 0) && axon.port ≠ 0

def extractMiners (m : Metagraph) : List ℕ :=
  ((List.range m.hotkeys.length).map (fun uid => uid % 65536)).filter
    (fun uid => !(m.validatorPermit.getD uid false) && (m.axons[uid]?).any hasEndpoint)

theorem nodup_extractMiners (m : Metagraph) : (extractMiners m).Nodup := by
  apply List.Nodup.filter
  apply List.Nodup.map_on _ nodup_range
  intro a ha b hb h
  have hbound := m.bounded
  rw [mem_range] at ha hb
  rw [Nat.mod_eq_of_lt (by omega), Nat.mod_eq_of_lt (by omega)] at h
  exact h

variable {Id : Type}

section Scheduler

variable [DecidableEq Id]

structure VerificationTask where
  strategy : ValidationType
  minerUid : ℕ
  finished : Bool

inductive Round (Id : Type)
  | idle
  | filtering (left chosen : List ℕ)
  | spawning (left : List ℕ) (untracked : List Id)

inductive Cleanup (Id : Type)
  | idle
  | collected (toRemove : List Id)
  | lockedFull (toRemove : List Id)
  | lockedBoth (toRemove : List Id)

def Cleanup.toRemove : Cleanup Id → List Id
  | idle => []
  | collected ids => ids
  | lockedFull ids => ids
  | lockedBoth ids => ids

def Cleanup.holds : Cleanup Id → ValidationType → Bool
  | lockedFull _, .full => true
  | lockedBoth _, _ => true
  | _, _ => false

structure State (Id : Type) where
  tasks : AssocMap Id VerificationTask
  active : ValidationType → AssocMap Id ℕ
  handles : List Id
  round : ValidationType → Round Id
  cleanup : Cleanup Id

def State.start : State Id := ⟨.empty, fun _ => .empty, [], fun _ => .idle, .idle⟩

variable (s : State Id)

/-- A map that is locked cannot be read, and counts as one without the miner. -/
def canSchedule (strategy : ValidationType) (minerUid : ℕ) : Bool :=
  if s.cleanup.holds strategy then true else !((s.active strategy).values.contains minerUid)

def isFinished (id : Id) : Bool := (s.tasks.get? id).any (fun t => t.finished)

inductive Event (Id : Type)
  | discover (strategy : ValidationType) (m : Metagraph)
  | check (strategy : ValidationType)
  | spawn (strategy : ValidationType) (minerUid : ℕ) (id : Id)
  | track (strategy : ValidationType) (id : Id)
  | endRound (strategy : ValidationType)
  | finish (id : Id)
  | collect
  | lockFull
  | lockLightweight
  | remove

def State.setRound (strategy : ValidationType) (r : Round Id) : State Id :=
  { s with round := update s.round strategy r }

def spawned (strategy : ValidationType) (minerUid : ℕ) (id : Id) : State Id :=
  { s with
    tasks := s.tasks.insert id ⟨strategy, minerUid, false⟩
    active := update s.active strategy ((s.active strategy).set id minerUid) }

def removed (toRemove : List Id) : State Id :=
  { s with
    active := fun strategy => (s.active strategy).filterWith (fun id _ => id ∉ toRemove)
    handles := s.handles.filter (fun id => id ∉ toRemove)
    cleanup := .idle }

/-- A step that is not due, or that waits for a lock, does nothing. -/
def step (e : Event Id) (s : State Id) : State Id :=
  match e with
  | .discover strategy m => match s.round strategy with
    | .idle => if extractMiners m = [] then s else s.setRound strategy (.filtering (extractMiners m) [])
    | _ => s
  | .check strategy => match s.round strategy with
    | .filtering (uid :: left) chosen =>
      s.setRound strategy (.filtering left (if canSchedule s strategy uid then chosen ++ [uid] else chosen))
    | .filtering [] chosen => s.setRound strategy (if chosen = [] then .idle else .spawning chosen [])
    | _ => s
  | .spawn strategy minerUid id => match s.round strategy with
    | .spawning left untracked =>
      if minerUid ∈ left ∧ s.cleanup.holds strategy = false ∧ s.tasks.get? id = none then
        (spawned s strategy minerUid id).setRound strategy (.spawning (left.erase minerUid) (id :: untracked))
      else s
    | _ => s
  | .track strategy id => match s.round strategy with
    | .spawning left untracked =>
      if id ∈ untracked then { s with handles := id :: s.handles }.setRound strategy (.spawning left (untracked.erase id)) else s
    | _ => s
  | .endRound strategy => match s.round strategy with
    | .spawning [] [] => s.setRound strategy .idle
    | _ => s
  | .finish id => { s with tasks := s.tasks.modify id (fun t => { t with finished := true }) }
  | .collect => match s.cleanup with
    | .idle =>
      let toRemove := s.handles.filter (isFinished s)
      if toRemove = [] then s else { s with cleanup := .collected toRemove }
    | _ => s
  | .lockFull => match s.cleanup with
    | .collected ids => { s with cleanup := .lockedFull ids }
    | _ => s
  | .lockLightweight => match s.cleanup with
    | .lockedFull ids => { s with cleanup := .lockedBoth ids }
    | _ => s
  | .remove => match s.cleanup with
    | .lockedBoth ids => removed s ids
    | _ => s

end Scheduler

variable {strategy : ValidationType} {minerUid : ℕ}

section Unfinished

variable [DecidableEq Id] {s : State Id}

def unfinished (s : State Id) (id : Id) : Option (ValidationType × ℕ) :=
  (s.tasks.get? id).bind (fun t => if t.finished then none else some (t.strategy, t.minerUid))

def Busy (s : State Id) (strategy : ValidationType) (minerUid : ℕ) : Prop := ∃ id, unfinished s id = some (strategy, minerUid)

def Distinct (s : State Id) : Prop := ∀ i j p, unfinished s i = some p → unfinished s j = some p → i = j

variable {id : Id}

theorem unfinished_spawned (h : s.tasks.get? id = none) (i : Id) :
    unfinished (spawned s strategy minerUid id) i = if i = id then some (strategy, minerUid) else unfinished s i := by
  unfold unfinished spawned
  rw [get?_insert h]
  split_ifs <;> rfl

theorem unfinished_finish (id i : Id) :
    unfinished (step (.finish id) s) i = if i = id then none else unfinished s i := by
  unfold unfinished step
  rw [get?_modify]
  split_ifs
  · cases s.tasks.get? id <;> rfl
  · rfl

theorem not_finished_of_unfinished {p : ValidationType × ℕ} (h : unfinished s id = some p) : isFinished s id = false := by
  unfold unfinished at h
  unfold isFinished
  obtain ⟨t, ht, h⟩ := Option.bind_eq_some_iff.mp h
  split_ifs at h with hfinished
  rw [ht, Option.any_some]
  exact Bool.eq_false_iff.mpr hfinished

theorem mem_of_isFinished (h : isFinished s id = true) : s.tasks.get? id ≠ none := by
  intro hnone
  unfold isFinished at h
  rw [hnone] at h
  cases h

end Unfinished

section Invariant

variable [DecidableEq Id] {s s' : State Id}

def RoundSound (s : State Id) (strategy : ValidationType) : Round Id → Prop
  | .idle => True
  | .filtering left chosen => (chosen ++ left).Nodup ∧ ∀ uid ∈ chosen, ¬ Busy s strategy uid
  | .spawning left _ => left.Nodup ∧ ∀ uid ∈ left, ¬ Busy s strategy uid

structure Sound (s : State Id) : Prop where
  listed : ∀ id strategy uid, unfinished s id = some (strategy, uid) → (s.active strategy).get? id = some uid
  distinct : Distinct s
  round : ∀ strategy, RoundSound s strategy (s.round strategy)
  cleanup : ∀ id ∈ s.cleanup.toRemove, isFinished s id = true

theorem sound_start : Sound (State.start : State Id) := by
  refine ⟨?_, ?_, fun _ => trivial, ?_⟩
  · intro id strategy uid h
    cases h
  · intro i j p h
    cases h
  · intro id h
    cases h

variable {r : Round Id}

theorem RoundSound.mono (h : RoundSound s strategy r)
    (hbusy : ∀ uid, Busy s' strategy uid → Busy s strategy uid) : RoundSound s' strategy r := by
  cases r with
  | idle => trivial
  | filtering left chosen | spawning left untracked => exact ⟨h.1, fun uid huid hb => h.2 uid huid (hbusy uid hb)⟩

theorem sound_setRound (hs : Sound s) (hr : RoundSound s strategy r) : Sound (s.setRound strategy r) := by
  refine ⟨hs.listed, hs.distinct, ?_, hs.cleanup⟩
  intro strategy'
  unfold State.setRound
  dsimp only
  rw [update_apply]
  split_ifs with heq
  · rw [heq]
    exact hr
  · exact hs.round strategy'

variable {uid : ℕ}

theorem not_busy_of_canSchedule (hs : Sound s)
    (hfree : s.cleanup.holds strategy = true → ¬ Busy s strategy uid) (h : canSchedule s strategy uid = true) : ¬ Busy s strategy uid := by
  unfold canSchedule at h
  split_ifs at h with hholds
  · exact hfree hholds
  · rintro ⟨id, hid⟩
    have hmem := get?_mem_values (hs.listed id strategy uid hid)
    rw [contains_eq_mem, decide_eq_true hmem] at h
    cases h

theorem Sound.of_round (hs : Sound s) (h : s.round strategy = r) : RoundSound s strategy r := by
  rw [← h]
  exact hs.round strategy

variable {left : List ℕ}

theorem sound_check (hs : Sound s) {chosen : List ℕ}
    (hround : s.round strategy = .filtering (uid :: left) chosen) (hfree : s.cleanup.holds strategy = true → ¬ Busy s strategy uid) :
    RoundSound s strategy (.filtering left (if canSchedule s strategy uid then chosen ++ [uid] else chosen)) := by
  obtain ⟨hnodup, hchosen⟩ := hs.of_round hround
  split_ifs with hcan
  · refine ⟨by rwa [append_assoc], ?_⟩
    intro u hu
    rcases mem_append.mp hu with hu | hu
    · exact hchosen u hu
    · rw [mem_singleton.mp hu]
      exact not_busy_of_canSchedule hs hfree hcan
  · exact ⟨hnodup.sublist ((sublist_cons_self uid left).append_left chosen), hchosen⟩

variable {id : Id}

theorem busy_spawned (h : s.tasks.get? id = none) {strategy' : ValidationType}
    (hbusy : Busy (spawned s strategy minerUid id) strategy' uid) : (strategy' = strategy ∧ uid = minerUid) ∨ Busy s strategy' uid := by
  obtain ⟨i, hi⟩ := hbusy
  rw [unfinished_spawned h] at hi
  split_ifs at hi
  · cases hi
    exact Or.inl ⟨rfl, rfl⟩
  · exact Or.inr ⟨i, hi⟩

theorem sound_spawn (hs : Sound s) {untracked : List Id}
    (hround : s.round strategy = .spawning left untracked) (hmem : minerUid ∈ left) (hfresh : s.tasks.get? id = none) :
    Sound ((spawned s strategy minerUid id).setRound strategy (.spawning (left.erase minerUid) (id :: untracked))) := by
  obtain ⟨hnodup, hleft⟩ := hs.of_round hround
  have hsame (i : Id) : unfinished ((spawned s strategy minerUid id).setRound strategy (.spawning (left.erase minerUid) (id :: untracked))) i =
      if i = id then some (strategy, minerUid) else unfinished s i := unfinished_spawned hfresh i
  have hnew (i : Id) : unfinished s i ≠ some (strategy, minerUid) := fun h => hleft minerUid hmem ⟨i, h⟩
  refine ⟨?_, ?_, ?_, ?_⟩
  · intro i strategy' uid hi
    rw [hsame] at hi
    unfold State.setRound spawned
    dsimp only
    rw [update_apply]
    split_ifs at hi with hid
    · cases hi
      rw [if_pos rfl, get?_set, if_pos hid.symm]
    · have hlisted := hs.listed i strategy' uid hi
      split_ifs with hstrategy
      · rw [get?_set, if_neg (Ne.symm hid), ← hstrategy]
        exact hlisted
      · exact hlisted
  · intro i j p hi hj
    rw [hsame] at hi hj
    split_ifs at hi hj with hid hjd hjd
    · rw [hid, hjd]
    · cases hi
      exact absurd hj (hnew j)
    · cases hj
      exact absurd hi (hnew i)
    · exact hs.distinct i j p hi hj
  · intro strategy'
    unfold State.setRound
    dsimp only
    rw [update_apply]
    split_ifs with hstrategy
    · refine ⟨hnodup.erase minerUid, ?_⟩
      intro uid huid hbusy
      obtain ⟨hne, huid⟩ := (List.Nodup.mem_erase_iff hnodup).mp huid
      rcases busy_spawned hfresh hbusy with ⟨-, heq⟩ | hbusy
      · exact hne heq
      · rw [hstrategy] at hbusy
        exact hleft uid huid hbusy
    · refine (hs.round strategy').mono ?_
      intro uid hbusy
      rcases busy_spawned hfresh hbusy with ⟨heq, -⟩ | hbusy
      · exact absurd heq hstrategy
      · exact hbusy
  · intro i hi
    have hfinished := hs.cleanup i hi
    have hne : i ≠ id := by
      rintro rfl
      exact mem_of_isFinished hfinished hfresh
    unfold isFinished State.setRound spawned
    rw [get?_insert hfresh, if_neg hne]
    exact hfinished

theorem sound_finish (hs : Sound s) (id : Id) : Sound (step (.finish id) s) := by
  have hstill (i : Id) (p : ValidationType × ℕ) (hi : unfinished (step (.finish id) s) i = some p) : unfinished s i = some p := by
    rw [unfinished_finish] at hi
    split_ifs at hi
    exact hi
  refine ⟨?_, ?_, ?_, ?_⟩
  · intro i strategy uid hi
    exact hs.listed i strategy uid (hstill i _ hi)
  · intro i j p hi hj
    exact hs.distinct i j p (hstill i p hi) (hstill j p hj)
  · intro strategy
    refine (hs.round strategy).mono ?_
    rintro uid ⟨i, hi⟩
    exact ⟨i, hstill i _ hi⟩
  · intro i hi
    have hfinished := hs.cleanup i hi
    unfold isFinished step at *
    rw [get?_modify]
    split_ifs with hid
    · rw [hid] at hfinished
      cases hget : s.tasks.get? id with
      | none =>
        rw [hget] at hfinished
        cases hfinished
      | some t => rfl
    · exact hfinished

variable {cleanup : Cleanup Id}

theorem sound_cleanup (hs : Sound s) (h : ∀ id ∈ cleanup.toRemove, isFinished s id = true) :
    Sound { s with cleanup := cleanup } :=
  ⟨hs.listed, hs.distinct, hs.round, h⟩

theorem Sound.of_cleanup (hs : Sound s) (h : s.cleanup = cleanup) :
    ∀ id ∈ cleanup.toRemove, isFinished s id = true := by
  rw [← h]
  exact hs.cleanup

theorem sound_removed (hs : Sound s) {toRemove : List Id} (hremove : ∀ id ∈ toRemove, isFinished s id = true) : Sound (removed s toRemove) := by
  refine ⟨?_, hs.distinct, hs.round, ?_⟩
  · intro i strategy uid hi
    have hkept : i ∉ toRemove := by
      intro hmem
      have hfinished := hremove i hmem
      rw [not_finished_of_unfinished (s := s) hi] at hfinished
      cases hfinished
    unfold removed
    rw [get?_filterWith, hs.listed i strategy uid hi]
    simp [hkept]
  · intro id h
    cases h

def ReadWhenBusy (e : Event Id) (s : State Id) : Prop :=
  match e with
  | .check strategy => match s.round strategy with
    | .filtering (uid :: _) _ => s.cleanup.holds strategy = true → ¬ Busy s strategy uid
    | _ => True
  | _ => True

theorem sound_step (e : Event Id) (hs : Sound s) (hok : ReadWhenBusy e s) : Sound (step e s) := by
  cases e with
  | discover strategy m =>
    unfold step
    dsimp only
    cases hround : s.round strategy with
    | idle =>
      dsimp only
      split_ifs
      · exact hs
      · refine sound_setRound hs ⟨nodup_extractMiners m, ?_⟩
        intro uid h
        cases h
    | _ => exact hs
  | check strategy =>
    unfold step
    dsimp only
    cases hround : s.round strategy with
    | filtering left chosen =>
      cases left with
      | cons uid left =>
        refine sound_setRound hs (sound_check hs hround ?_)
        unfold ReadWhenBusy at hok
        dsimp only at hok
        rw [hround] at hok
        exact hok
      | nil =>
        obtain ⟨hnodup, hchosen⟩ := hs.of_round hround
        rw [append_nil] at hnodup
        refine sound_setRound hs ?_
        split_ifs
        · trivial
        · exact ⟨hnodup, hchosen⟩
    | _ => exact hs
  | spawn strategy minerUid id =>
    unfold step
    dsimp only
    cases hround : s.round strategy with
    | spawning left untracked =>
      dsimp only
      split_ifs with hdue
      · exact sound_spawn hs hround hdue.1 hdue.2.2
      · exact hs
    | _ => exact hs
  | track strategy id =>
    unfold step
    dsimp only
    cases hround : s.round strategy with
    | spawning left untracked =>
      dsimp only
      split_ifs
      · have hhandles : Sound { s with handles := id :: s.handles } := ⟨hs.listed, hs.distinct, hs.round, hs.cleanup⟩
        exact sound_setRound hhandles (hs.of_round hround)
      · exact hs
    | _ => exact hs
  | endRound strategy =>
    unfold step
    dsimp only
    split
    · exact sound_setRound hs trivial
    · exact hs
  | finish id => exact sound_finish hs id
  | collect =>
    unfold step
    cases s.cleanup with
    | idle =>
      dsimp only
      split_ifs
      · exact hs
      · apply sound_cleanup hs
        intro id hid
        exact (mem_filter.mp hid).2
    | _ => exact hs
  | lockFull =>
    unfold step
    cases hcleanup : s.cleanup with
    | collected ids =>
      have hremove := hs.of_cleanup hcleanup
      exact sound_cleanup hs hremove
    | _ => exact hs
  | lockLightweight =>
    unfold step
    cases hcleanup : s.cleanup with
    | lockedFull ids =>
      have hremove := hs.of_cleanup hcleanup
      exact sound_cleanup hs hremove
    | _ => exact hs
  | remove =>
    unfold step
    cases hcleanup : s.cleanup with
    | lockedBoth ids => exact sound_removed hs (hs.of_cleanup hcleanup)
    | _ => exact hs

theorem tasks_distinct_throughout {l : List (Event Id)} (hl : EachStep step ReadWhenBusy l State.start) :
    Throughout step Distinct l State.start :=
  throughout_of_step (fun e _ hs hok => sound_step e hs hok) (fun _ hs => hs.distinct) sound_start hl

end Invariant

def twoMiners : Metagraph := ⟨["hk0", "hk1"], [], [⟨1, 6, 8091⟩, ⟨2, 6, 8091⟩], by decide⟩

def firstRound : List (Event ℕ) :=
  [.discover .full twoMiners, .check .full, .check .full, .check .full, .spawn .full 0 1, .spawn .full 1 2, .track .full 1,
    .track .full 2, .endRound .full]

/-- The second round finds the first miner busy and takes the other, whose task the clean-up has removed. -/
def twoRounds : List (Event ℕ) :=
  firstRound ++ [.finish 2, .discover .full twoMiners, .check .full, .collect, .lockFull, .lockLightweight, .remove,
    .check .full, .check .full, .spawn .full 1 3]

theorem two_rounds_distinct : EachStep step ReadWhenBusy twoRounds State.start ∧ Throughout step Distinct twoRounds State.start ∧
    (last step twoRounds State.start).round .full = .spawning [] [3] := by
  have hl : EachStep step ReadWhenBusy twoRounds State.start := by
    refine ⟨trivial, ?_, ?_, trivial, trivial, trivial, trivial, trivial, trivial, trivial, trivial, ?_, trivial, trivial,
      trivial, trivial, ?_, trivial, trivial, trivial⟩
    all_goals
      intro h
      cases h
  exact ⟨hl, tasks_distinct_throughout hl, rfl⟩

def roundDuringCleanup : List (Event ℕ) :=
  firstRound ++ [.finish 2, .collect, .lockFull, .discover .full twoMiners, .check .full, .check .full, .check .full,
    .lockLightweight, .remove, .spawn .full 0 3]

theorem miner_verified_twice_at_once : ¬ Throughout step Distinct roundDuringCleanup State.start := by
  intro h
  have hsame : 1 = 3 := h.last 1 3 (.full, 0) rfl rfl
  cases hsame

end Basilica.Validator.Scheduler
