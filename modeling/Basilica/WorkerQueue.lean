import Basilica.StepRuns
import Basilica.Tallies
import Basilica.VerificationStore

/-!
A queue of the validation workers. Executors are published to it, workers take them, verify them and put them back for
another try, and a monitor drops what takes too long.
-/

namespace Basilica.Validator.WorkerQueue

open AssocMaps StepRuns List Function AssocMap

inductive Priority
  | high
  | normal
  | low
deriving DecidableEq

def Priority.rank : Priority → ℕ
  | high => 0
  | normal => 1
  | low => 2

structure ExecutorKey where
  minerUid : ℕ
  executorId : ExecutorId
deriving DecidableEq

structure WorkItem where
  id : ℕ
  minerUid : ℕ
  executorId : ExecutorId
  createdAt : ℕ
  priority : Priority
  retryCount : ℕ

def WorkItem.executorKey (item : WorkItem) : ExecutorKey := ⟨item.minerUid, item.executorId⟩

structure QueueKey where
  priority : Priority
  createdAt : ℕ
  id : ℕ
deriving DecidableEq

def WorkItem.queueKey (item : WorkItem) : QueueKey := ⟨item.priority, item.createdAt, item.id⟩

def QueueKey.before (a b : QueueKey) : Bool :=
  a.priority.rank < b.priority.rank ||
    (a.priority.rank = b.priority.rank && (a.createdAt < b.createdAt || (a.createdAt = b.createdAt && a.id < b.id)))

structure ProcessingEntry where
  startedAt : ℕ
  workItem : WorkItem

inductive CompletionStatus
  | success (completedAt : ℕ)
  | failed (completedAt : ℕ) (error : String)

def CompletionStatus.completedAt : CompletionStatus → ℕ
  | success t => t
  | failed t _ => t

structure QueueState where
  pending : AssocMap QueueKey WorkItem
  processing : AssocMap ExecutorKey ProcessingEntry
  completed : List (ExecutorKey × CompletionStatus)
  executorIndex : AssocMap ExecutorKey QueueKey

namespace QueueState

def new : QueueState := ⟨.empty, .empty, [], .empty⟩

variable (s : QueueState)

def isDuplicate (key : ExecutorKey) : Bool := (s.executorIndex.get? key).isSome || (s.processing.get? key).isSome

def canRequeue (key : ExecutorKey) (cooldown now : ℕ) : Bool :=
  match s.completed.find? (fun p => p.1 = key) with
  | some (_, status) => cooldown < now - status.completedAt
  | none => true

def addPending (item : WorkItem) : Except String QueueState :=
  if s.isDuplicate item.executorKey then .error "Duplicate work item"
  else .ok { s with
    executorIndex := s.executorIndex.set item.executorKey item.queueKey
    pending := s.pending.set item.queueKey item }

def earlier (best : Option (QueueKey × WorkItem)) (p : QueueKey × WorkItem) : Option (QueueKey × WorkItem) :=
  match best with
  | none => some p
  | some b => if p.1.before b.1 then some p else some b

def popNext : Option WorkItem × QueueState :=
  match s.pending.entries.foldl earlier none with
  | none => (none, s)
  | some (key, item) =>
    (some item, { s with pending := s.pending.erase key, executorIndex := s.executorIndex.erase item.executorKey })

def markProcessing (item : WorkItem) (now : ℕ) : QueueState :=
  { s with processing := s.processing.set item.executorKey ⟨now, item⟩ }

/-- The most recent thousand, the last one first. -/
def putCompleted (key : ExecutorKey) (status : CompletionStatus) : QueueState :=
  { s with completed := ((key, status) :: s.completed.filter (fun p => p.1 ≠ key)).take 1000 }

def rollback (key : ExecutorKey) : QueueState := { s with processing := s.processing.erase key }

def complete (key : ExecutorKey) (status : CompletionStatus) : QueueState :=
  (s.rollback key).putCompleted key status

end QueueState

open QueueState

section Workers

structure WorkerQueueConfig where
  maxPendingItems : ℕ
  processingTimeSecs : ℕ
  staleTimeoutSecs : ℕ
  completedItemTtlSecs : ℕ
  retryBackoffBaseSecs : ℕ
  maxRetries : ℕ

def WorkerQueueConfig.default : ValidationType → WorkerQueueConfig
  | .full => ⟨1000, 2400, 3000, 3600, 60, 3⟩
  | .lightweight => ⟨1000, 480, 660, 3600, 60, 3⟩

variable (kind : ValidationType) (config : WorkerQueueConfig)

def seconds (n : ℕ) : ℕ := n * 1000000000

def publishPriority : ValidationType → Priority
  | .lightweight => .high
  | .full => .normal

variable (s : QueueState)

/-- Whether what is published goes into the queue; a full queue is an error, the others are skipped. -/
def accepts (key : ExecutorKey) (now : ℕ) : Bool :=
  !s.isDuplicate key && s.canRequeue key (seconds config.completedItemTtlSecs) now && s.pending.entries.length < config.maxPendingItems

def publish (id : ℕ) (key : ExecutorKey) (now : ℕ) : QueueState :=
  if accepts config s key now then
    match s.addPending ⟨id, key.minerUid, key.executorId, now, publishPriority kind, 0⟩ with
    | .ok s => s
    | .error _ => s
  else s

inductive Outcome
  | verified
  | failed (error : String)
  | timedOut

def errorText : Outcome → String
  | .verified => ""
  | .failed e => (match kind with
      | .full => "Verification failed after "
      | .lightweight => "Lightweight verification failed after ") ++ toString config.maxRetries ++ " retries: " ++ e
  | .timedOut => (match kind with
      | .full => "Verification timed out after "
      | .lightweight => "Lightweight verification timed out after ") ++ toString config.processingTimeSecs ++ "s (" ++
        toString config.maxRetries ++ " retries)"

def retried (item : WorkItem) : WorkItem :=
  match kind with
  | .full => { item with retryCount := item.retryCount + 1, priority := .low }
  | .lightweight => { item with retryCount := item.retryCount + 1 }

def delaySeconds (attempt : ℕ) : ℕ :=
  let delay := min (2 ^ 64 - 1) (config.retryBackoffBaseSecs * 2 ^ min (attempt - 1) 63)
  let cap := config.processingTimeSecs / 2
  if 0 < cap then min delay cap else delay

inductive Worker
  | idle
  | popped (item : WorkItem)
  | verifying (item : WorkItem) (since : ℕ)
  | waiting (item : WorkItem) (wake : ℕ)
  | stopped

def settle (item : WorkItem) (outcome : Outcome) (now : ℕ) : Worker × QueueState :=
  match outcome with
  | .verified => (.idle, s.complete item.executorKey (.success now))
  | outcome =>
    match s.processing.get? item.executorKey with
    | none => (.idle, s.rollback item.executorKey)
    | some entry =>
      let s := s.rollback item.executorKey
      if entry.workItem.retryCount < config.maxRetries then
        let item := retried kind entry.workItem
        (.waiting item (now + seconds (delaySeconds config item.retryCount)), s)
      else (.idle, s.complete item.executorKey (.failed now (errorText kind config outcome)))

def requeueItem (item : WorkItem) : QueueState :=
  match s.addPending item with
  | .ok s => s
  | .error _ => s

abbrev Stale := List (ExecutorKey × ℕ × ℕ)

def staleItems (now : ℕ) : Stale :=
  (s.processing.entries.filter (fun p => seconds config.staleTimeoutSecs < now - p.2.startedAt)).map
    (fun p => (p.1, now, now - p.2.startedAt))

def staleText (elapsed : ℕ) : String :=
  "Processing stale after " ++ toString (elapsed / 1000000000) ++ "s (exceeded " ++ toString config.staleTimeoutSecs ++ "s timeout)"

def dropStale (key : ExecutorKey) (now elapsed : ℕ) : QueueState :=
  match s.processing.get? key with
  | none => s
  | some _ => (s.rollback key).putCompleted key (.failed now (staleText config elapsed))

end Workers

section System

variable {W C : Type} [DecidableEq W] [DecidableEq C] (kind : ValidationType) (config : WorkerQueueConfig)

structure State (W C : Type) where
  queue : QueueState
  worker : W → Worker
  check : C → Stale

def State.start : State W C := ⟨.new, fun _ => .idle, fun _ => []⟩

inductive Event (W C : Type)
  | publish (id : ℕ) (key : ExecutorKey) (now : ℕ)
  | pop (w : W)
  | mark (w : W) (now : ℕ)
  | settle (w : W) (outcome : Outcome) (now : ℕ)
  | requeue (w : W) (now : ℕ)
  | stop (w : W)
  | scan (c : C) (now : ℕ)
  | dropNext (c : C)

def settled (s : State W C) (w : W) (item : WorkItem) (outcome : Outcome) (now : ℕ) : State W C :=
  let r := settle kind config s.queue item outcome now
  { s with queue := r.2, worker := update s.worker w r.1 }

/-- A step that is not due does nothing. -/
def step (e : Event W C) (s : State W C) : State W C :=
  match e with
  | .publish id key now => { s with queue := publish kind config s.queue id key now }
  | .pop w => match s.worker w with
    | .idle => match s.queue.popNext with
      | (some item, queue) => { s with queue := queue, worker := update s.worker w (.popped item) }
      | (none, _) => s
    | _ => s
  | .mark w now => match s.worker w with
    | .popped item =>
      { s with queue := s.queue.markProcessing item now, worker := update s.worker w (.verifying item now) }
    | _ => s
  | .settle w outcome now => match s.worker w with
    | .verifying item since =>
      match outcome with
      | .timedOut => if seconds config.processingTimeSecs ≤ now - since then settled kind config s w item outcome now else s
      | outcome => settled kind config s w item outcome now
    | _ => s
  | .requeue w now => match s.worker w with
    | .waiting item wake =>
      if wake ≤ now then { s with queue := requeueItem s.queue item, worker := update s.worker w .idle } else s
    | _ => s
  | .stop w => { s with worker := update s.worker w .stopped }
  | .scan c now => { s with check := update s.check c (staleItems config s.queue now) }
  | .dropNext c => match s.check c with
    | [] => s
    | (key, now, elapsed) :: rest =>
      { s with queue := dropStale config s.queue key now elapsed, check := update s.check c rest }

end System

variable {q : QueueState} {item : WorkItem}

section Index

variable {q' : QueueState} {key : ExecutorKey}

structure Indexed (q : QueueState) : Prop where
  pending : ∀ k item, q.pending.get? k = some item → q.executorIndex.get? item.executorKey = some k
  processing : ∀ key entry, q.processing.get? key = some entry → entry.workItem.executorKey = key

theorem indexed_new : Indexed .new := by
  constructor
  · intro k item h
    cases h
  · intro key entry h
    cases h

theorem addPending_eq_ok (h : q.addPending item = .ok q') : q.isDuplicate item.executorKey = false ∧
    q'.pending = q.pending.set item.queueKey item ∧ q'.executorIndex = q.executorIndex.set item.executorKey item.queueKey ∧
    q'.processing = q.processing := by
  unfold addPending at h
  split_ifs at h with hduplicate
  cases h
  exact ⟨Bool.eq_false_iff.mpr hduplicate, rfl, rfl, rfl⟩

theorem not_pending_of_not_duplicate (hq : Indexed q) (h : q.isDuplicate key = false) {k : QueueKey} (hk : q.pending.get? k = some item) :
    item.executorKey ≠ key := by
  rintro rfl
  unfold isDuplicate at h
  rw [hq.pending k item hk] at h
  cases h

theorem indexed_addPending (hq : Indexed q) (h : q.addPending item = .ok q') : Indexed q' := by
  obtain ⟨hduplicate, hpending, hindex, hprocessing⟩ := addPending_eq_ok h
  constructor
  · intro k other hk
    rw [hpending, get?_set] at hk
    rw [hindex, get?_set]
    split_ifs at hk with hkey
    · cases hk
      rw [if_pos rfl, hkey]
    · rw [if_neg (Ne.symm (not_pending_of_not_duplicate hq hduplicate hk))]
      exact hq.pending k other hk
  · rw [hprocessing]
    exact hq.processing

theorem indexed_rollback (hq : Indexed q) (key : ExecutorKey) : Indexed (q.rollback key) := by
  refine ⟨hq.pending, ?_⟩
  intro k entry hk
  rw [rollback, get?_erase] at hk
  split_ifs at hk
  exact hq.processing k entry hk

theorem indexed_markProcessing (hq : Indexed q) (item : WorkItem) (now : ℕ) : Indexed (q.markProcessing item now) := by
  refine ⟨hq.pending, ?_⟩
  intro k entry hk
  rw [markProcessing, get?_set] at hk
  split_ifs at hk with hkey
  · cases hk
    exact hkey
  · exact hq.processing k entry hk

theorem foldl_earlier_mem (l : List (QueueKey × WorkItem)) {best : Option (QueueKey × WorkItem)} {p : QueueKey × WorkItem}
    (h : l.foldl earlier best = some p) : best = some p ∨ p ∈ l := by
  induction l generalizing best with
  | nil => exact Or.inl h
  | cons a l ih =>
    rcases ih h with hbest | hmem
    · unfold earlier at hbest
      cases best with
      | none =>
        cases hbest
        exact Or.inr mem_cons_self
      | some b =>
        dsimp only at hbest
        split_ifs at hbest
        · cases hbest
          exact Or.inr mem_cons_self
        · exact Or.inl hbest
    · exact Or.inr (mem_cons_of_mem _ hmem)

theorem popNext_eq_some (h : q.popNext = (some item, q')) : ∃ k, q.pending.get? k = some item ∧ q'.pending = q.pending.erase k ∧
    q'.executorIndex = q.executorIndex.erase item.executorKey ∧ q'.processing = q.processing := by
  unfold popNext at h
  cases hfirst : q.pending.entries.foldl earlier none with
  | none =>
    rw [hfirst] at h
    cases h
  | some p =>
    rw [hfirst] at h
    cases h
    rcases foldl_earlier_mem _ hfirst with hnone | hmem
    · cases hnone
    · exact ⟨p.1, get?_of_mem hmem, rfl, rfl, rfl⟩

theorem indexed_popNext (hq : Indexed q) (h : q.popNext = (some item, q')) : Indexed q' := by
  obtain ⟨k, hk, hpending, hindex, hprocessing⟩ := popNext_eq_some h
  constructor
  · intro k' other hk'
    rw [hpending, get?_erase] at hk'
    split_ifs at hk' with hne
    have hother := hq.pending k' other hk'
    rw [hindex, get?_erase, if_neg]
    · exact hother
    · intro heq
      rw [← heq, hq.pending k item hk] at hother
      exact hne (Option.some.inj hother)
  · rw [hprocessing]
    exact hq.processing

theorem publish_cases (kind : ValidationType) (config : WorkerQueueConfig) (q : QueueState) (id : ℕ) (key : ExecutorKey) (now : ℕ) :
    (accepts config q key now = false ∧ publish kind config q id key now = q) ∨
      (accepts config q key now = true ∧ ∃ item, item.executorKey = key ∧ q.addPending item = .ok (publish kind config q id key now)) := by
  unfold publish
  cases haccepts : accepts config q key now with
  | false => exact Or.inl ⟨rfl, rfl⟩
  | true =>
    refine Or.inr ⟨rfl, ⟨id, key.minerUid, key.executorId, now, publishPriority kind, 0⟩, rfl, ?_⟩
    have hduplicate : q.isDuplicate key = false := by
      simp only [accepts, Bool.and_eq_true, Bool.not_eq_true'] at haccepts
      exact haccepts.1.1
    rw [if_pos rfl, addPending, if_neg]
    · rw [WorkItem.executorKey, hduplicate]
      exact Bool.false_ne_true

theorem requeueItem_cases (q : QueueState) (item : WorkItem) :
    requeueItem q item = q ∨ q.addPending item = .ok (requeueItem q item) := by
  unfold requeueItem
  cases h : q.addPending item with
  | ok q' => exact Or.inr rfl
  | error e => exact Or.inl rfl

theorem dropStale_spec (config : WorkerQueueConfig) (q : QueueState) (key : ExecutorKey) (now elapsed : ℕ) :
    (dropStale config q key now elapsed).pending = q.pending ∧ (Indexed q → Indexed (dropStale config q key now elapsed)) := by
  unfold dropStale
  cases q.processing.get? key with
  | none => exact ⟨rfl, id⟩
  | some entry =>
    refine ⟨rfl, fun hq => ?_⟩
    have hrollback := indexed_rollback hq key
    exact ⟨hrollback.pending, hrollback.processing⟩

end Index

section Calls

inductive Call
  | addPending (item : WorkItem)
  | popNext
  | markProcessing (key : ExecutorKey) (item : WorkItem) (now : ℕ)
  | complete (key : ExecutorKey) (status : CompletionStatus)
  | rollback (key : ExecutorKey)
  | rollbackForRetry (key : ExecutorKey)

def Call.perform : Call → QueueState → QueueState
  | addPending item, s => requeueItem s item
  | popNext, s => s.popNext.2
  | markProcessing key item now, s => { s with processing := s.processing.set key ⟨now, item⟩ }
  | complete key status, s => s.complete key status
  | rollback key, s | rollbackForRetry key, s => s.rollback key

def Call.Fresh (call : Call) (s : QueueState) : Prop :=
  match call with
  | addPending item => s.isDuplicate item.executorKey = false → s.pending.get? item.queueKey = none
  | _ => True

structure Matched (s : QueueState) : Prop where
  index : s.executorIndex.entries = s.pending.entries.map (fun p => (p.2.executorKey, p.1))
  queueKey : ∀ p ∈ s.pending.entries, p.2.queueKey = p.1

variable {s s' : QueueState} {item' : WorkItem} {k k' : QueueKey}

theorem Matched.get?_iff (hs : Matched s) (key : ExecutorKey) (k : QueueKey) :
    s.executorIndex.get? key = some k ↔ ∃ item, s.pending.get? k = some item ∧ item.executorKey = key := by
  constructor
  · intro h
    have hmem := mem_entries_of_get? h
    rw [hs.index] at hmem
    obtain ⟨p, hp, hkey⟩ := mem_map.mp hmem
    cases hkey
    exact ⟨p.2, get?_of_mem hp, rfl⟩
  · rintro ⟨item, hk, rfl⟩
    apply get?_of_mem
    rw [hs.index]
    exact mem_map.mpr ⟨_, mem_entries_of_get? hk, rfl⟩

theorem Matched.single (hs : Matched s) (hk : s.pending.get? k = some item) (hk' : s.pending.get? k' = some item')
    (hkey : item.executorKey = item'.executorKey) : k = k' := by
  have hindex := (hs.get?_iff _ k).mpr ⟨item, hk, hkey⟩
  rw [(hs.get?_iff _ k').mpr ⟨item', hk', rfl⟩] at hindex
  exact (Option.some.inj hindex).symm

theorem matched_addPending (hs : Matched s) (hfresh : s.pending.get? item.queueKey = none) (h : s.addPending item = .ok s') :
    Matched s' := by
  obtain ⟨hduplicate, hpending, hindex, -⟩ := addPending_eq_ok h
  have hnone : s.executorIndex.get? item.executorKey = none := by
    rw [isDuplicate, Bool.or_eq_false_iff] at hduplicate
    exact Option.isNone_iff_eq_none.mp (Option.isSome_eq_false_iff.mp hduplicate.1)
  refine ⟨?_, ?_⟩
  · rw [hindex, hpending, set_entries hnone, set_entries hfresh, map_append, hs.index]
    rfl
  · intro p hp
    rw [hpending, set_entries hfresh] at hp
    rcases mem_append.mp hp with hp | hp
    · exact hs.queueKey p hp
    · rw [mem_singleton.mp hp]

theorem matched_popNext (hs : Matched s) (h : s.popNext = (some item, s')) : Matched s' := by
  obtain ⟨k, hk, hpending, hindex, -⟩ := popNext_eq_some h
  refine ⟨?_, ?_⟩
  · rw [hindex, hpending]
    change s.executorIndex.entries.filter _ = (s.pending.entries.filter _).map _
    rw [hs.index, filter_map]
    congr 1
    apply filter_congr
    intro p hp
    have hiff : p.2.executorKey = item.executorKey ↔ p.1 = k := by
      refine ⟨hs.single (get?_of_mem hp) hk, ?_⟩
      rintro rfl
      rw [Option.some.inj ((get?_of_mem hp).symm.trans hk)]
    simp [hiff]
  · intro p hp
    rw [hpending] at hp
    exact hs.queueKey p (mem_of_mem_filter hp)

theorem before_iff {a b : QueueKey} : a.before b = true ↔ a.priority.rank < b.priority.rank ∨
    a.priority.rank = b.priority.rank ∧ (a.createdAt < b.createdAt ∨ a.createdAt = b.createdAt ∧ a.id < b.id) := by
  simp [QueueKey.before]

theorem foldl_earlier_least (l : List (QueueKey × WorkItem)) (b : QueueKey × WorkItem) :
    ∃ p, l.foldl earlier (some b) = some p ∧ ∀ x ∈ b :: l, ¬ x.1.before p.1 := by
  induction l generalizing b with
  | nil =>
    refine ⟨b, rfl, ?_⟩
    intro x hx
    rw [mem_singleton.mp hx, before_iff]
    omega
  | cons a l ih =>
    obtain ⟨p, hp, hleast⟩ := ih (if a.1.before b.1 then a else b)
    refine ⟨p, ?_, ?_⟩
    · rw [foldl_cons, ← hp, earlier]
      split_ifs <;> rfl
    · have hfirst := hleast _ mem_cons_self
      simp only [before_iff] at hleast hfirst ⊢
      intro x hx
      rcases mem_cons.mp hx with rfl | hx
      · split_ifs at hfirst <;> omega
      · rcases mem_cons.mp hx with rfl | hx
        · split_ifs at hfirst <;> omega
        · exact hleast x (mem_cons_of_mem _ hx)

theorem popNext_cases (s : QueueState) : (s.pending.entries = [] ∧ s.popNext = (none, s)) ∨
    ∃ item k, s.popNext.1 = some item ∧ s.pending.get? k = some item ∧ s.popNext.2.pending = s.pending.erase k ∧
      ∀ p ∈ s.pending.entries, ¬ p.1.before k := by
  cases hentries : s.pending.entries with
  | nil =>
    rw [popNext, hentries]
    exact Or.inl ⟨rfl, rfl⟩
  | cons b l =>
    obtain ⟨p, hp, hleast⟩ := foldl_earlier_least l b
    have hfirst : s.pending.entries.foldl earlier none = some p := by
      rw [hentries]
      exact hp
    rcases foldl_earlier_mem _ hfirst with hnone | hmem
    · cases hnone
    · rw [popNext, hfirst]
      exact Or.inr ⟨p.2, p.1, rfl, get?_of_mem hmem, rfl, hleast⟩

theorem matched_perform (call : Call) (s : QueueState) (hs : Matched s) (hfresh : call.Fresh s) : Matched (call.perform s) := by
  cases call with
  | addPending item =>
    change Matched (requeueItem s item)
    rcases requeueItem_cases s item with hsame | hadd
    · rw [hsame]
      exact hs
    · exact matched_addPending hs (hfresh (addPending_eq_ok hadd).1) hadd
  | popNext =>
    change Matched s.popNext.2
    rcases popNext_cases s with ⟨-, hpop⟩ | ⟨item, k, hitem, -⟩
    · rw [hpop]
      exact hs
    · exact matched_popNext hs (Prod.ext hitem rfl)
  | _ => exact ⟨hs.index, hs.queueKey⟩

structure Consistent (s : QueueState) : Prop where
  index : ∀ key k, s.executorIndex.get? key = some k ↔ ∃ item, s.pending.get? k = some item ∧ item.executorKey = key
  size : s.executorIndex.entries.length = s.pending.entries.length
  single : ∀ k k' item item', s.pending.get? k = some item → s.pending.get? k' = some item' →
    item.executorKey = item'.executorKey → k = k'
  fails : ∀ item, (∃ e, s.addPending item = .error e) ↔
    (s.executorIndex.get? item.executorKey).isSome ∨ (s.processing.get? item.executorKey).isSome
  failed : ∀ item e, s.addPending item = .error e → (Call.addPending item).perform s = s
  first : (s.pending.entries = [] ∧ s.popNext = (none, s)) ∨
    ∃ item, s.popNext.1 = some item ∧ s.pending.get? item.queueKey = some item ∧
      s.popNext.2.pending = s.pending.erase item.queueKey ∧
      ∀ k other, s.pending.get? k = some other → ¬ other.queueKey.before item.queueKey

theorem Matched.consistent (hs : Matched s) : Consistent s where
  index := hs.get?_iff
  size := by rw [hs.index, length_map]
  single _ _ _ _ := hs.single
  fails item := by
    rw [← Bool.or_eq_true, ← isDuplicate, addPending]
    split_ifs with hduplicate
    · simp [hduplicate]
    · simp [hduplicate]
  failed item e h := by
    change requeueItem s item = s
    rw [requeueItem, h]
  first := by
    rcases popNext_cases s with hnone | ⟨item, k, hitem, hk, hpending, hleast⟩
    · exact Or.inl hnone
    · obtain rfl : item.queueKey = k := hs.queueKey _ (mem_entries_of_get? hk)
      refine Or.inr ⟨item, hitem, hk, hpending, ?_⟩
      intro k other hother
      have hmem := mem_entries_of_get? hother
      rw [hs.queueKey _ hmem]
      exact hleast _ hmem

theorem queue_consistent_throughout (calls : List Call) (h : EachStep Call.perform Call.Fresh calls .new) :
    Throughout Call.perform Consistent calls .new := by
  have hnew : Matched .new := by
    refine ⟨rfl, ?_⟩
    intro p hp
    cases hp
  exact throughout_of_step matched_perform (fun _ => Matched.consistent) hnew h

theorem queue_consistent_two :
    Throughout Call.perform Consistent [.addPending ⟨1, 7, "4f2a", 0, .low, 0⟩, .addPending ⟨2, 7, "4f2b", 0, .high, 0⟩, .popNext] .new :=
  queue_consistent_throughout _ ⟨fun _ => rfl, fun _ => rfl, trivial, trivial⟩

end Calls

section Hands

variable {W C : Type} (kind : ValidationType) (config : WorkerQueueConfig)

def Worker.hand : Worker → Option WorkItem
  | idle => none
  | popped item => some item
  | verifying item _ => some item
  | waiting item _ => some item
  | stopped => none

theorem indexed_complete (hq : Indexed q) (key : ExecutorKey) (status : CompletionStatus) : Indexed (q.complete key status) :=
  ⟨(indexed_rollback hq key).pending, (indexed_rollback hq key).processing⟩

theorem settle_spec (hq : Indexed q) (item : WorkItem) (outcome : Outcome) (now : ℕ) :
    (settle kind config q item outcome now).2.pending = q.pending ∧ Indexed (settle kind config q item outcome now).2 ∧
      ∀ kept, (settle kind config q item outcome now).1.hand = some kept → kept.executorKey = item.executorKey := by
  have hidle : ∀ kept, Worker.idle.hand = some kept → kept.executorKey = item.executorKey := by
    intro kept h
    cases h
  have hrollback := indexed_rollback hq item.executorKey
  cases outcome with
  | verified => exact ⟨rfl, indexed_complete hq _ _, hidle⟩
  | _ =>
    unfold settle
    cases hentry : q.processing.get? item.executorKey with
    | none => exact ⟨rfl, hrollback, hidle⟩
    | some entry =>
      dsimp only
      split_ifs
      · refine ⟨rfl, hrollback, ?_⟩
        intro kept hkept
        cases hkept
        cases kind <;> exact hq.processing _ entry hentry
      · exact ⟨rfl, indexed_complete hrollback _ _, hidle⟩

structure Single (s : State W C) : Prop where
  pending : ∀ k k' item item', s.queue.pending.get? k = some item → s.queue.pending.get? k' = some item' →
    item.executorKey = item'.executorKey → k = k'
  hands : ∀ w w' item item', (s.worker w).hand = some item → (s.worker w').hand = some item' →
    item.executorKey = item'.executorKey → w = w'
  apart : ∀ w k item item', (s.worker w).hand = some item → s.queue.pending.get? k = some item' →
    item.executorKey ≠ item'.executorKey

def Free (s : State W C) (key : ExecutorKey) : Prop := ∀ w item, (s.worker w).hand = some item → item.executorKey ≠ key

variable {s s' : State W C}

theorem single_start : Single (State.start : State W C) := by
  refine ⟨?_, ?_, ?_⟩
  · intro k k' item item' h
    cases h
  · intro w w' item item' h
    cases h
  · intro w k item item' h
    cases h

theorem pending_unique (hs : Indexed s.queue) : ∀ k k' item item', s.queue.pending.get? k = some item →
    s.queue.pending.get? k' = some item' → item.executorKey = item'.executorKey → k = k' := by
  intro k k' item item' hk hk' hkey
  have h := hs.pending k item hk
  rw [hkey, hs.pending k' item' hk'] at h
  exact (Option.some.inj h).symm

theorem single_addPending_iff (hs : Single s) (hs' : Indexed s'.queue) (h : s.queue.addPending item = .ok s'.queue)
    (hworker : s'.worker = s.worker) : Single s' ↔ Free s item.executorKey := by
  obtain ⟨-, hpending, -, -⟩ := addPending_eq_ok h
  constructor
  · intro hsingle w held hheld
    rw [← hworker] at hheld
    refine hsingle.apart w item.queueKey held item hheld ?_
    rw [hpending, get?_set, if_pos rfl]
  · intro hfree
    refine ⟨pending_unique hs', by rw [hworker]; exact hs.hands, ?_⟩
    intro w k held other hheld hother
    rw [hworker] at hheld
    rw [hpending, get?_set] at hother
    split_ifs at hother
    · cases hother
      exact hfree w held hheld
    · exact hs.apart w k held other hheld hother

variable [DecidableEq W]

inductive Effect (s s' : State W C) : Prop
  | kept (hpending : s'.queue.pending = s.queue.pending) (hhand : ∀ w item, (s'.worker w).hand = some item →
      ∃ held, (s.worker w).hand = some held ∧ held.executorKey = item.executorKey)
  | taken (w : W) (k : QueueKey) (item : WorkItem) (hget : s.queue.pending.get? k = some item)
      (hpending : s'.queue.pending = s.queue.pending.erase k) (hworker : s'.worker = update s.worker w (.popped item))
  | returned (w : W) (item : WorkItem) (hhand : (s.worker w).hand = some item) (hadd : s.queue.addPending item = .ok s'.queue)
      (hworker : s'.worker = update s.worker w .idle)

theorem Effect.single (hs : Single s) (hs' : Indexed s'.queue) (h : Effect s s') : Single s' := by
  cases h with
  | kept hpending hhand =>
    refine ⟨pending_unique hs', ?_, ?_⟩
    · intro w w' item item' hw hw' hkey
      obtain ⟨held, hheld, heq⟩ := hhand w item hw
      obtain ⟨held', hheld', heq'⟩ := hhand w' item' hw'
      exact hs.hands w w' held held' hheld hheld' (by rw [heq, heq', hkey])
    · intro w k item item' hw hk
      obtain ⟨held, hheld, heq⟩ := hhand w item hw
      rw [hpending] at hk
      rw [← heq]
      exact hs.apart w k held item' hheld hk
  | taken w k item hget hpending hworker =>
    refine ⟨pending_unique hs', ?_, ?_⟩
    · -- the others have no item of this executor, since one was pending
      intro w₁ w₂ item₁ item₂ h₁ h₂ hkey
      rw [hworker, update_apply] at h₁ h₂
      split_ifs at h₁ h₂ with hw₁ hw₂ hw₂
      · rw [hw₁, hw₂]
      · cases h₁
        exact absurd hkey.symm (hs.apart w₂ k item₂ _ h₂ hget)
      · cases h₂
        exact absurd hkey (hs.apart w₁ k item₁ _ h₁ hget)
      · exact hs.hands w₁ w₂ item₁ item₂ h₁ h₂ hkey
    · intro w₁ k₁ item₁ item₂ h₁ h₂
      rw [hworker, update_apply] at h₁
      rw [hpending, get?_erase] at h₂
      split_ifs at h₂ with hk
      split_ifs at h₁
      · cases h₁
        exact fun hkey => hk (hs.pending k k₁ _ item₂ hget h₂ hkey)
      · exact hs.apart w₁ k₁ item₁ item₂ h₁ h₂
  | returned w item hhand hadd hworker =>
    have hidle : Single { s with worker := s'.worker } := by
      have hheld : ∀ w₁ item₁, (s'.worker w₁).hand = some item₁ → w₁ ≠ w ∧ (s.worker w₁).hand = some item₁ := by
        intro w₁ item₁ h₁
        rw [hworker, update_apply] at h₁
        split_ifs at h₁ with hw
        · cases h₁
        · exact ⟨hw, h₁⟩
      refine ⟨hs.pending, ?_, ?_⟩
      · intro w₁ w₂ item₁ item₂ h₁ h₂ hkey
        exact hs.hands w₁ w₂ item₁ item₂ (hheld w₁ item₁ h₁).2 (hheld w₂ item₂ h₂).2 hkey
      · intro w₁ k item₁ item₂ h₁ h₂
        exact hs.apart w₁ k item₁ item₂ (hheld w₁ item₁ h₁).2 h₂
    refine (single_addPending_iff hidle hs' hadd rfl).mpr ?_
    intro w₁ item₁ h₁ hkey
    rw [hworker, update_apply] at h₁
    split_ifs at h₁ with hw
    · cases h₁
    · exact hw (hs.hands w₁ w item₁ item h₁ hhand hkey)

theorem Effect.refl (s : State W C) : Effect s s := .kept rfl (fun _ item h => ⟨item, h, rfl⟩)

theorem Effect.of_update {w : W} {x : Worker} (hpending : q.pending = s.queue.pending)
    (hx : ∀ item, x.hand = some item → ∃ held, (s.worker w).hand = some held ∧ held.executorKey = item.executorKey) :
    Effect s { s with queue := q, worker := update s.worker w x } := by
  refine .kept hpending ?_
  intro w' item h
  dsimp only at h
  rw [update_apply] at h
  split_ifs at h with hw
  · rw [hw]
    exact hx item h
  · exact ⟨item, h, rfl⟩

theorem settled_effect (hs : Indexed s.queue) {w : W} {since : ℕ} (hw : s.worker w = .verifying item since) (outcome : Outcome) (now : ℕ) :
    Indexed (settled kind config s w item outcome now).queue ∧ Effect s (settled kind config s w item outcome now) := by
  obtain ⟨hpending, hindexed, hhand⟩ := settle_spec kind config hs item outcome now
  refine ⟨hindexed, Effect.of_update hpending ?_⟩
  intro kept hkept
  exact ⟨item, by rw [hw]; rfl, (hhand kept hkept).symm⟩

variable [DecidableEq C]

theorem step_effect (hs : Indexed s.queue) (e : Event W C) (he : ∀ id key now, e ≠ .publish id key now) :
    Indexed (step kind config e s).queue ∧ Effect s (step kind config e s) := by
  cases e with
  | publish id key now => exact absurd rfl (he id key now)
  | pop w =>
    unfold step
    dsimp only
    cases hw : s.worker w with
    | idle =>
      dsimp only
      cases hpop : s.queue.popNext with
      | mk found queue =>
        cases found with
        | none => exact ⟨hs, .refl s⟩
        | some item =>
          obtain ⟨k, hget, hpending, -, -⟩ := popNext_eq_some hpop
          exact ⟨indexed_popNext hs hpop, .taken w k item hget hpending rfl⟩
    | _ => exact ⟨hs, .refl s⟩
  | mark w now =>
    unfold step
    dsimp only
    cases hw : s.worker w with
    | popped item =>
      refine ⟨indexed_markProcessing hs item now, Effect.of_update rfl ?_⟩
      intro kept hkept
      cases hkept
      exact ⟨item, by rw [hw]; rfl, rfl⟩
    | _ => exact ⟨hs, .refl s⟩
  | settle w outcome now =>
    unfold step
    dsimp only
    cases hw : s.worker w with
    | verifying item since =>
      cases outcome with
      | timedOut =>
        dsimp only
        split_ifs
        · exact settled_effect kind config hs hw _ now
        · exact ⟨hs, .refl s⟩
      | _ => exact settled_effect kind config hs hw _ now
    | _ => exact ⟨hs, .refl s⟩
  | requeue w now =>
    unfold step
    dsimp only
    cases hw : s.worker w with
    | waiting item wake =>
      dsimp only
      split_ifs
      · rcases requeueItem_cases s.queue item with hsame | hadd
        · rw [hsame]
          refine ⟨hs, Effect.of_update rfl ?_⟩
          intro kept hkept
          cases hkept
        · exact ⟨indexed_addPending hs hadd, .returned w item (by rw [hw]; rfl) hadd rfl⟩
      · exact ⟨hs, .refl s⟩
    | _ => exact ⟨hs, .refl s⟩
  | stop w =>
    refine ⟨hs, Effect.of_update rfl ?_⟩
    intro kept hkept
    cases hkept
  | scan c now => exact ⟨hs, .kept rfl (fun _ item h => ⟨item, h, rfl⟩)⟩
  | dropNext c =>
    unfold step
    dsimp only
    cases s.check c with
    | nil => exact ⟨hs, .refl s⟩
    | cons p rest =>
      obtain ⟨hpending, hindexed⟩ := dropStale_spec config s.queue p.1 p.2.1 p.2.2
      exact ⟨hindexed hs, .kept hpending (fun _ item h => ⟨item, h, rfl⟩)⟩

def PublishedFree (config : WorkerQueueConfig) (e : Event W C) (s : State W C) : Prop :=
  match e with
  | .publish _ key now => accepts config s.queue key now = true → Free s key
  | _ => True

theorem indexed_step (hs : Indexed s.queue) (e : Event W C) : Indexed (step kind config e s).queue := by
  cases e with
  | publish id key now =>
    rcases publish_cases kind config s.queue id key now with ⟨-, hsame⟩ | ⟨-, item, -, hadd⟩
    · unfold step
      dsimp only
      rw [hsame]
      exact hs
    · exact indexed_addPending hs hadd
  | _ =>
    refine (step_effect kind config hs _ ?_).1
    intro id key now h
    cases h

theorem single_step_iff (hs : Indexed s.queue) (hsingle : Single s) (e : Event W C) :
    Single (step kind config e s) ↔ PublishedFree config e s := by
  have hindexed := indexed_step kind config hs e
  cases e with
  | publish id key now =>
    rcases publish_cases kind config s.queue id key now with ⟨hrejected, hsame⟩ | ⟨haccepted, item, rfl, hadd⟩
    · have hstep : step kind config (.publish id key now) s = s := by
        unfold step
        dsimp only
        rw [hsame]
      rw [hstep]
      refine iff_of_true hsingle ?_
      intro h
      rw [hrejected] at h
      cases h
    · refine (single_addPending_iff hsingle hindexed hadd rfl).trans ?_
      exact ⟨fun h _ => h, fun h => h haccepted⟩
  | _ =>
    refine iff_of_true (Effect.single hsingle hindexed (step_effect kind config hs _ ?_).2) trivial
    intro id key now h
    cases h

theorem items_single_throughout_iff (l : List (Event W C)) :
    Throughout (step kind config) Single l State.start ↔ EachStep (step kind config) (PublishedFree config) l State.start := by
  have hindexed : ∀ (e : Event W C) (s : State W C), True → Indexed s.queue → Indexed (step kind config e s).queue :=
    fun e s _ hs => indexed_step kind config hs e
  have hsingle : ∀ (e : Event W C) (s : State W C), True → Indexed s.queue → Single s →
      (Single (step kind config e s) ↔ PublishedFree config e s) :=
    fun e s _ hs hsingle => single_step_iff kind config hs hsingle e
  exact throughout_iff hindexed hsingle (fun _ _ => trivial) indexed_new single_start

end Hands

def executorOne : ExecutorKey := ⟨7, "4f2a"⟩

def publishedTwice : List (Event Bool Unit) :=
  [.publish 1 executorOne 0, .pop true, .publish 2 executorOne 10, .mark true 20, .pop false, .mark false 30]

theorem executor_verified_twice_at_once :
    (∃ item item' t t', (last (step .lightweight (.default .lightweight)) publishedTwice State.start).worker true = .verifying item t ∧
      (last (step .lightweight (.default .lightweight)) publishedTwice State.start).worker false = .verifying item' t' ∧
      item.executorKey = item'.executorKey) ∧
    ¬ Throughout (step .lightweight (.default .lightweight)) Single publishedTwice State.start := by
  refine ⟨⟨⟨1, 7, "4f2a", 0, .high, 0⟩, ⟨2, 7, "4f2a", 10, .high, 0⟩, 20, 30, rfl, rfl, rfl⟩, ?_⟩
  intro h
  have hsame : true = false := h.last.hands true false ⟨1, 7, "4f2a", 0, .high, 0⟩ ⟨2, 7, "4f2a", 10, .high, 0⟩ rfl rfl rfl
  cases hsame

end Basilica.Validator.WorkerQueue
