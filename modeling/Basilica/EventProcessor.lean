import Basilica.AssocMaps
import Basilica.Fleets
import Basilica.UsageRecords

/-!
The event processors of the billing service: each fetches a batch of unprocessed usage events, hands them to their
handlers one by one and marks those whose handler succeeded. Any number of them share the two tables.
-/

namespace Basilica.Billing

open AssocMaps AtomicCalls Calls Fleets StepRuns List Option Function AssocMap

abbrev EventId := ℕ

abbrev BatchId := ℕ

inductive BatchType
  | usageAggregation
  | billingCalculation
  | telemetryProcessing
deriving DecidableEq

inductive BatchStatus
  | pending
  | processing
  | completed
  | failed
deriving DecidableEq

structure EventRow where
  event : UsageEvent
  timestamp : ℤ
  processed : Bool
  processedAt : Option ℤ
  batchId : Option BatchId

structure ProcessingBatch where
  batchType : BatchType
  status : BatchStatus
  eventsCount : ℕ
  eventsProcessed : ℕ
  eventsFailed : ℕ
  startedAt : Option ℤ
  completedAt : Option ℤ

/-- `locked` are the rows that another statement has locked at the moment. -/
structure EventTables where
  usageEvents : AssocMap EventId EventRow
  processingBatches : AssocMap BatchId ProcessingBatch
  locked : List EventId
  now : ℤ

open EventTables

namespace EventTables

variable (t : EventTables)

def createBatch (batchType : BatchType) : EventTables :=
  { t with processingBatches :=
      t.processingBatches.insert t.processingBatches.entries.length ⟨batchType, .pending, 0, 0, 0, none, none⟩ }

def updateBatchStatus (batch : BatchId) (status : BatchStatus) (eventsCount : Option ℕ) : EventTables :=
  { t with processingBatches := t.processingBatches.modify batch (fun row =>
      { row with
        status := status
        eventsCount := eventsCount.getD row.eventsCount
        startedAt := if status = .processing then some t.now else row.startedAt }) }

def completeBatch (batch : BatchId) (processedCount failedCount : ℕ) : EventTables :=
  { t with processingBatches := t.processingBatches.modify batch (fun row =>
      { row with
        status := if failedCount = 0 then .completed else .failed
        eventsProcessed := processedCount
        eventsFailed := failedCount
        completedAt := some t.now }) }

/-- `WHERE processed = false ORDER BY timestamp ASC LIMIT $1 FOR UPDATE SKIP LOCKED` -/
def unprocessedEvents (limit : ℤ) : List (EventId × EventRow) :=
  ((t.usageEvents.entries.filter (fun p => p.2.processed = false ∧ p.1 ∉ t.locked)).insertionSort
    (fun p q => p.2.timestamp ≤ q.2.timestamp)).take limit.toNat

def markEventsProcessed (ids : List EventId) (batch : BatchId) : EventTables :=
  { t with usageEvents := t.usageEvents.mapWith (fun id row =>
      if id ∈ ids then { row with processed := true, processedAt := some t.now, batchId := some batch } else row) }

def appendUsageEvent (id : EventId) (event : UsageEvent) (timestamp : ℤ) : EventTables :=
  match event.checkIds with
  | .ok () => { t with usageEvents := t.usageEvents.insert id ⟨event, timestamp, false, none, none⟩ }
  | .error _ => t

def isProcessed (id : EventId) : Bool := (t.usageEvents.get? id).any EventRow.processed

end EventTables

inductive QueueCall
  | createBatch (batchType : BatchType)
  | getUnprocessedEvents (limit : Option ℤ)
  | updateBatchStatus (batch : BatchId) (status : BatchStatus) (eventsCount : Option ℕ)
  | processSingleEvent (event : EventId × EventRow)
  | markEventsProcessed (ids : List EventId) (batch : BatchId)
  | completeBatch (batch : BatchId) (processedCount failedCount : ℕ)

namespace QueueCall

abbrev Answer : QueueCall → Type
  | createBatch _ => BatchId
  | getUnprocessedEvents _ => List (EventId × EventRow)
  | _ => Unit

def failure : QueueCall → BillingError
  | createBatch _ => .databaseError "create_batch"
  | getUnprocessedEvents _ => .eventStoreError "Failed to fetch unprocessed events"
  | updateBatchStatus _ _ _ => .databaseError "update_batch_status"
  | processSingleEvent _ => .eventStoreError "Failed to process event"
  | markEventsProcessed _ _ => .eventStoreError "Failed to mark events as processed"
  | completeBatch _ _ _ => .databaseError "complete_batch"

end QueueCall

/-- A negative limit is an error of the query. What a handler does to other tables is left open. -/
def serveQueue : Server QueueCall QueueCall.Answer BillingError EventTables
  | .createBatch batchType, t => (.ok t.processingBatches.entries.length, t.createBatch batchType)
  | .getUnprocessedEvents limit, t =>
    let actualLimit := limit.getD 1000
    if actualLimit < 0 then (.error (QueueCall.getUnprocessedEvents limit).failure, t)
    else (.ok (t.unprocessedEvents actualLimit), t)
  | .updateBatchStatus batch status eventsCount, t => (.ok (), t.updateBatchStatus batch status eventsCount)
  | .processSingleEvent _, t => (.ok (), t)
  | .markEventsProcessed ids batch, t => (.ok (), t.markEventsProcessed ids batch)
  | .completeBatch batch processedCount failedCount, t => (.ok (), t.completeBatch batch processedCount failedCount)

abbrev QueueCalls := Calls QueueCall QueueCall.Answer BillingError

structure EventProcessor where
  batchSize : Option ℤ
  storeBatchSize : ℤ

open EventProcessor

namespace EventProcessor

def getUnprocessedEvents (p : EventProcessor) : QueueCalls (List (EventId × EventRow)) :=
  let actualLimit := p.batchSize.or (some p.storeBatchSize)
  ask (QueueCall.getUnprocessedEvents actualLimit)

def finishBatch (batch : BatchId) (processedCount failedCount : ℕ) (processedIds : List EventId) : QueueCalls Unit :=
  if processedIds = [] then ask (QueueCall.completeBatch batch processedCount failedCount)
  else do
    ask (QueueCall.markEventsProcessed processedIds batch)
    ask (QueueCall.completeBatch batch processedCount failedCount)

def processEvents (batch : BatchId) : List (EventId × EventRow) → ℕ → ℕ → List EventId → QueueCalls Unit
  | [], processedCount, failedCount, processedIds => finishBatch batch processedCount failedCount processedIds
  | event :: events, processedCount, failedCount, processedIds => do
    match ← (ask (QueueCall.processSingleEvent event)).catching with
    | .ok _ => processEvents batch events (processedCount + 1) failedCount (processedIds ++ [event.1])
    | .error _ => processEvents batch events processedCount (failedCount + 1) processedIds

def processFetched (batch : BatchId) (events : List (EventId × EventRow)) : QueueCalls Unit :=
  if events = [] then pure ()
  else do
    ask (QueueCall.updateBatchStatus batch .processing (some events.length))
    processEvents batch events 0 0 []

def processBatch (p : EventProcessor) : QueueCalls Unit := do
  let batch ← ask (QueueCall.createBatch .usageAggregation)
  let events ← p.getUnprocessedEvents
  processFetched batch events

end EventProcessor

/-- `handed` are the events handed to a handler that did not fail, while they were not marked as processed. -/
structure Queue where
  tables : EventTables
  handed : List EventId

inductive QueueEvent
  | append (id : EventId) (event : UsageEvent) (timestamp : ℤ)
  | lock (ids : List EventId)
  | clock (now : ℤ)

namespace Queue

def handing (q : Queue) : QueueCall → List EventId
  | .processSingleEvent event => if q.tables.isProcessed event.1 then q.handed else q.handed ++ [event.1]
  | _ => q.handed

theorem handing_processSingleEvent (q : Queue) (event : EventId × EventRow) : q.handing (.processSingleEvent event) =
      if q.tables.isProcessed event.1 then q.handed else q.handed ++ [event.1] := rfl

def desk : Fault → (c : QueueCall) → Queue → Option (Except BillingError c.Answer × Queue)
  | .none, c, q => some ((serveQueue c q.tables).1, ⟨(serveQueue c q.tables).2, q.handing c⟩)
  | .refused, c, q => some (.error c.failure, q)
  | .lost, c, q => some (.error c.failure, ⟨(serveQueue c q.tables).2, q.handed⟩)

def world : QueueEvent → Queue → Queue
  | .append id event timestamp, q => ⟨q.tables.appendUsageEvent id event timestamp, q.handed⟩
  | .lock ids, q => ⟨{ q.tables with locked := ids }, q.handed⟩
  | .clock now, q => ⟨{ q.tables with now := now }, q.handed⟩

end Queue

variable {ι : Type}

def queueSystem (processors : ι → EventProcessor) :
    System QueueCall QueueCall.Answer BillingError Unit Queue ι Fault QueueEvent where
  program := fun i => (processors i).processBatch
  desk := Queue.desk
  world := Queue.world

abbrev QueueFleet (ι : Type) := Fleet QueueCall QueueCall.Answer BillingError Unit Queue ι

def marks (answer : Except BillingError Unit) : QueueCalls Unit → List EventId
  | .done _ => []
  | .call (.updateBatchStatus _ _ _) next => marks answer (next (.ok ()))
  | .call (.processSingleEvent _) next => marks answer (next answer)
  | .call (.markEventsProcessed ids _) _ => ids
  | .call _ _ => []

def held (p : QueueCalls Unit) : List EventId := marks (.ok ()) p

def handedOver (p : QueueCalls Unit) : List EventId := marks (.error (.eventStoreError "Failed to process event")) p

def AtMostOnce (s : QueueFleet ι) : Prop := s.db.handed.Nodup

def Undisturbed (s : QueueFleet ι) (i : ι) (fault : Fault) : QueueCalls Unit → Prop
  | .call (.getUnprocessedEvents limit) _ =>
    ∀ j, j ≠ i → ∀ p ∈ s.db.tables.unprocessedEvents (limit.getD 1000), p.1 ∉ held (s.rest j)
  | .call (.markEventsProcessed _ _) _ => fault ≠ .refused
  | _ => True

def Exclusive : Fleets.Move ι Fault QueueEvent → QueueFleet ι → Prop
  | .answer i fault, s => Undisturbed s i fault (s.rest i)
  | .restart i, s => handedOver (s.rest i) = []
  | .world _, _ => True

instance [Fintype ι] [DecidableEq ι] (s : QueueFleet ι) (i : ι) (fault : Fault) :
    (p : QueueCalls Unit) → Decidable (Undisturbed s i fault p)
  | .call (.getUnprocessedEvents limit) _ => inferInstanceAs (Decidable
      (∀ j, j ≠ i → ∀ p ∈ s.db.tables.unprocessedEvents (limit.getD 1000), p.1 ∉ held (s.rest j)))
  | .call (.markEventsProcessed _ _) _ => inferInstanceAs (Decidable (fault ≠ .refused))
  | .done _ | .call (.createBatch _) _ | .call (.updateBatchStatus _ _ _) _ | .call (.processSingleEvent _) _
  | .call (.completeBatch _ _ _) _ => isTrue trivial

instance [Fintype ι] [DecidableEq ι] : (m : Fleets.Move ι Fault QueueEvent) → (s : QueueFleet ι) → Decidable (Exclusive m s)
  | .answer i fault, s => inferInstanceAs (Decidable (Undisturbed s i fault (s.rest i)))
  | .restart i, s => inferInstanceAs (Decidable (handedOver (s.rest i) = []))
  | .world _, _ => isTrue trivial

namespace EventProcessor

inductive Stage
  | creating
  | fetching (batch : BatchId)
  | starting (batch : BatchId) (events : List (EventId × EventRow))
  | handling (batch : BatchId) (events : List (EventId × EventRow)) (processedCount failedCount : ℕ)
      (processedIds : List EventId)
  | completing (batch : BatchId) (processedCount failedCount : ℕ)
  | finished (result : Except BillingError Unit)

namespace Stage

def rest (p : EventProcessor) : Stage → QueueCalls Unit
  | creating => p.processBatch
  | fetching batch => p.getUnprocessedEvents >>= processFetched batch
  | starting batch events => processFetched batch events
  | handling batch events processedCount failedCount processedIds =>
    processEvents batch events processedCount failedCount processedIds
  | completing batch processedCount failedCount => ask (QueueCall.completeBatch batch processedCount failedCount)
  | finished result => done result

end Stage

theorem marks_finishBatch (answer : Except BillingError Unit) (batch : BatchId) (processedCount failedCount : ℕ)
    (processedIds : List EventId) :
    marks answer (finishBatch batch processedCount failedCount processedIds) = processedIds := by
  unfold finishBatch
  split_ifs with h
  · rw [h]
    rfl
  · rfl

variable (batch : BatchId)

section

variable (events : List (EventId × EventRow)) (processedCount failedCount : ℕ) (processedIds : List EventId)

theorem held_processEvents :
    held (processEvents batch events processedCount failedCount processedIds) = processedIds ++ events.map Prod.fst := by
  induction events generalizing processedCount failedCount processedIds with
  | nil =>
    rw [map_nil, append_nil]
    exact marks_finishBatch _ _ _ _ _
  | cons event events ih =>
    rw [map_cons, append_cons]
    exact ih _ _ _

theorem handedOver_processEvents :
    handedOver (processEvents batch events processedCount failedCount processedIds) = processedIds := by
  induction events generalizing processedCount failedCount processedIds with
  | nil => exact marks_finishBatch _ _ _ _ _
  | cons event events ih => exact ih _ _ _

end

variable (events : List (EventId × EventRow))

theorem held_processFetched :
    held (processFetched batch events) = events.map Prod.fst := by
  unfold processFetched
  split_ifs with h
  · rw [h]
    rfl
  · exact held_processEvents batch events 0 0 []

theorem handedOver_processFetched :
    handedOver (processFetched batch events) = [] := by
  unfold processFetched
  split_ifs with h
  · rfl
  · exact handedOver_processEvents batch events 0 0 []

theorem handedOver_subset_held (p : EventProcessor) (stage : Stage) :
    handedOver (stage.rest p) ⊆ held (stage.rest p) := by
  cases stage with
  | starting batch events =>
    change handedOver (processFetched batch events) ⊆ _
    rw [handedOver_processFetched]
    exact nil_subset _
  | handling batch events processedCount failedCount processedIds =>
    change handedOver (processEvents batch events processedCount failedCount processedIds) ⊆
      held (processEvents batch events processedCount failedCount processedIds)
    rw [handedOver_processEvents, held_processEvents]
    exact subset_append_left _ _
  | _ => exact nil_subset _

end EventProcessor

variable {ids : List EventId}

namespace EventTables

variable {t : EventTables} {id : EventId}

def stores (t : EventTables) (id : EventId) : Prop := ∃ row, t.usageEvents.get? id = some row

theorem stores_markEventsProcessed (h : t.stores id) (ids : List EventId) (batch : BatchId) :
    (t.markEventsProcessed ids batch).stores id := by
  obtain ⟨row, hrow⟩ := h
  unfold stores markEventsProcessed
  rw [get?_mapWith, hrow]
  exact ⟨_, rfl⟩

theorem isProcessed_markEventsProcessed (t : EventTables) (ids : List EventId) (batch : BatchId) (id : EventId) :
    (t.markEventsProcessed ids batch).isProcessed id =
      (t.usageEvents.get? id).any (fun row => decide (id ∈ ids) || row.processed) := by
  unfold isProcessed markEventsProcessed
  rw [AssocMap.get?_mapWith, Option.any_map]
  apply congrArg (fun f => Option.any f _)
  funext row
  by_cases h : id ∈ ids <;> simp [h]

theorem isProcessed_of_marked (h : t.stores id) (hid : id ∈ ids) (batch : BatchId) :
    (t.markEventsProcessed ids batch).isProcessed id = true := by
  obtain ⟨row, hrow⟩ := h
  rw [isProcessed_markEventsProcessed, hrow]
  simp [hid]

theorem isProcessed_mark_mono (h : t.isProcessed id = true) (ids : List EventId) (batch : BatchId) :
    (t.markEventsProcessed ids batch).isProcessed id = true := by
  rw [isProcessed_markEventsProcessed]
  unfold isProcessed at h
  cases hrow : t.usageEvents.get? id with
  | none =>
    rw [hrow] at h
    cases h
  | some row =>
    rw [hrow, any_some] at h
    rw [any_some, h, Bool.or_true]

theorem get?_appendUsageEvent {row : EventRow} (h : t.usageEvents.get? id = some row) (id' : EventId)
    (event : UsageEvent) (timestamp : ℤ) : (t.appendUsageEvent id' event timestamp).usageEvents.get? id = some row := by
  unfold appendUsageEvent
  split
  · cases hid : t.usageEvents.get? id' with
    | none =>
      have hne : id ≠ id' := by
        rintro rfl
        rw [h] at hid
        cases hid
      rw [get?_insert hid, if_neg hne, h]
    | some other =>
      rw [insert_of_get? hid, h]
  · exact h

theorem nodup_unprocessedEvents (t : EventTables) (limit : ℤ) : ((t.unprocessedEvents limit).map Prod.fst).Nodup := by
  unfold unprocessedEvents
  rw [map_take]
  apply List.Nodup.sublist (take_sublist _ _)
  apply ((perm_insertionSort _ _).map Prod.fst).nodup_iff.mpr
  exact t.usageEvents.nodup.sublist (filter_sublist.map Prod.fst)

end EventTables

section Runs

variable {processors : ι → EventProcessor} {s : QueueFleet ι}

structure Tidy (processors : ι → EventProcessor) (s : QueueFleet ι) : Prop where
  stage : ∀ i, ∃ stage : EventProcessor.Stage, s.rest i = stage.rest (processors i)
  stored : ∀ i, ∀ id ∈ held (s.rest i), s.db.tables.stores id
  nodup : ∀ i, (held (s.rest i)).Nodup
  disjoint : ∀ i j, i ≠ j → ∀ id ∈ held (s.rest i), id ∉ held (s.rest j)
  once : s.db.handed.Nodup
  covered : ∀ id ∈ s.db.handed, s.db.tables.isProcessed id = true ∨ ∃ i, id ∈ handedOver (s.rest i)

variable {batch : BatchId} {event : EventId × EventRow} {processedIds : List EventId} {events : List (EventId × EventRow)}
  {db : Queue}

namespace Tidy

theorem handedOver_subset (h : Tidy processors s) (i : ι) : handedOver (s.rest i) ⊆ held (s.rest i) := by
  obtain ⟨stage, hstage⟩ := h.stage i
  rw [hstage]
  exact handedOver_subset_held _ _

theorem grow (h : Tidy processors s) (hhanded : db.handed = s.db.handed)
    (hstores : ∀ id, s.db.tables.stores id → db.tables.stores id)
    (hprocessed : ∀ id, s.db.tables.isProcessed id = true → db.tables.isProcessed id = true) :
    Tidy processors ⟨db, s.rest⟩ where
  stage := h.stage
  stored := fun i id hid => hstores id (h.stored i id hid)
  nodup := h.nodup
  disjoint := h.disjoint
  once := by
    change db.handed.Nodup
    rw [hhanded]
    exact h.once
  covered := by
    intro id hid
    change id ∈ db.handed at hid
    rw [hhanded] at hid
    exact (h.covered id hid).imp_left (hprocessed id)

variable [DecidableEq ι] {i : ι}

theorem stage_update (h : Tidy processors s) (stage : EventProcessor.Stage) (j : ι) :
    ∃ st : EventProcessor.Stage, update s.rest i (stage.rest (processors i)) j = st.rest (processors j) := by
  by_cases hj : j = i
  · subst hj
    exact ⟨stage, update_self ..⟩
  · rw [update_of_ne hj]
    exact h.stage j

theorem move (h : Tidy processors s) (stage : EventProcessor.Stage)
    (hheld : List.Sublist (held (stage.rest (processors i))) (held (s.rest i)))
    (hover : ∀ id ∈ handedOver (s.rest i), s.db.tables.isProcessed id = true ∨ id ∈ handedOver (stage.rest (processors i))) :
    Tidy processors ⟨s.db, update s.rest i (stage.rest (processors i))⟩ := by
  have hsub : ∀ j, List.Sublist (held (update s.rest i (stage.rest (processors i)) j)) (held (s.rest j)) := by
    intro j
    by_cases hj : j = i
    · subst hj
      rw [update_self]
      exact hheld
    · rw [update_of_ne hj]
  constructor
  · exact h.stage_update stage
  · exact fun j id hid => h.stored j id ((hsub j).subset hid)
  · exact fun j => (h.nodup j).sublist (hsub j)
  · exact fun j k hjk id hid hid' => h.disjoint j k hjk id ((hsub j).subset hid) ((hsub k).subset hid')
  · exact h.once
  · intro id hid
    rcases h.covered id hid with hprocessed | ⟨j, hj⟩
    · exact Or.inl hprocessed
    · by_cases hji : j = i
      · subst hji
        refine (hover id hj).imp_right (fun hid' => ⟨j, ?_⟩)
        change id ∈ handedOver (update s.rest j _ j)
        rw [update_self]
        exact hid'
      · refine Or.inr ⟨j, ?_⟩
        change id ∈ handedOver (update s.rest i _ j)
        rw [update_of_ne hji]
        exact hj

section

variable (h : Tidy processors s)

include h

theorem fetch (batch : BatchId)
    (hover : handedOver (s.rest i) = []) (hstored : ∀ p ∈ events, p ∈ s.db.tables.usageEvents.entries)
    (hnodup : (events.map Prod.fst).Nodup) (hfree : ∀ j, j ≠ i → ∀ p ∈ events, p.1 ∉ held (s.rest j)) :
    Tidy processors ⟨s.db, update s.rest i (processFetched batch events)⟩ := by
  have hheld : ∀ j, held (update s.rest i (processFetched batch events) j) =
      if j = i then events.map Prod.fst else held (s.rest j) := by
    intro j
    split_ifs with hj
    · subst hj
      rw [update_self, held_processFetched]
    · rw [update_of_ne hj]
  constructor
  · exact h.stage_update (.starting batch events)
  · intro j id hid
    rw [hheld] at hid
    split_ifs at hid
    · obtain ⟨p, hp, rfl⟩ := mem_map.mp hid
      exact ⟨p.2, get?_of_mem (hstored p hp)⟩
    · exact h.stored j id hid
  · intro j
    rw [hheld]
    split_ifs
    · exact hnodup
    · exact h.nodup j
  · intro j k hjk id hid hid'
    rw [hheld] at hid hid'
    split_ifs at hid hid' with hj hk hk
    · exact hjk (hj.trans hk.symm)
    · obtain ⟨p, hp, rfl⟩ := mem_map.mp hid
      exact hfree k hk p hp hid'
    · obtain ⟨p, hp, rfl⟩ := mem_map.mp hid'
      exact hfree j hj p hp hid
    · exact h.disjoint j k hjk id hid hid'
  · exact h.once
  · intro id hid
    refine (h.covered id hid).imp_right ?_
    rintro ⟨j, hj⟩
    have hji : j ≠ i := by
      rintro rfl
      rw [hover] at hj
      cases hj
    refine ⟨j, ?_⟩
    dsimp only
    rw [update_of_ne hji]
    exact hj

theorem handOver
    {processedCount failedCount : ℕ}
    (hrest : s.rest i = processEvents batch (event :: events) processedCount failedCount processedIds) :
    Tidy processors ⟨⟨s.db.tables, s.db.handing (.processSingleEvent event)⟩, update s.rest i
      (processEvents batch events (processedCount + 1) failedCount (processedIds ++ [event.1]))⟩ := by
  have hheld : ∀ j, held (update s.rest i
      (processEvents batch events (processedCount + 1) failedCount (processedIds ++ [event.1])) j) =
        held (s.rest j) := by
    intro j
    by_cases hj : j = i
    · subst hj
      rw [update_self, hrest, held_processEvents, held_processEvents, append_assoc]
      rfl
    · rw [update_of_ne hj]
  have hover : ∀ id j, id ∈ handedOver (s.rest j) → id ∈ handedOver (update s.rest i
      (processEvents batch events (processedCount + 1) failedCount (processedIds ++ [event.1])) j) := by
    intro id j hid
    by_cases hj : j = i
    · subst hj
      rw [hrest, handedOver_processEvents] at hid
      rw [update_self, handedOver_processEvents]
      exact mem_append_left _ hid
    · rw [update_of_ne hj]
      exact hid
  have hmem : event.1 ∈ held (s.rest i) := by
    rw [hrest, held_processEvents]
    simp
  have hnew : event.1 ∉ handedOver (s.rest i) := by
    have hnodup := h.nodup i
    rw [hrest, held_processEvents, map_cons, nodup_append] at hnodup
    rw [hrest, handedOver_processEvents]
    intro hid
    exact hnodup.2.2 _ hid _ mem_cons_self rfl
  -- a first hand-over: it is in no other batch and not among those handed over from this one
  have hfresh : s.db.tables.isProcessed event.1 = false → event.1 ∉ s.db.handed := by
    intro hprocessed hid
    rcases h.covered _ hid with hdone | ⟨j, hj⟩
    · rw [hprocessed] at hdone
      cases hdone
    · by_cases hji : j = i
      · subst hji
        exact hnew hj
      · exact h.disjoint j i hji _ (h.handedOver_subset j hj) hmem
  constructor
  · exact h.stage_update (.handling batch events (processedCount + 1) failedCount (processedIds ++ [event.1]))
  · intro j id hid
    rw [hheld] at hid
    exact h.stored j id hid
  · intro j
    rw [hheld]
    exact h.nodup j
  · intro j k hjk id hid
    rw [hheld] at hid ⊢
    exact h.disjoint j k hjk id hid
  · change (s.db.handing (.processSingleEvent event)).Nodup
    rw [Queue.handing_processSingleEvent]
    split_ifs with hprocessed
    · exact h.once
    · rw [← concat_eq_append, nodup_concat]
      exact ⟨hfresh (Bool.not_eq_true _ ▸ hprocessed), h.once⟩
  · intro id hid
    change id ∈ s.db.handing (.processSingleEvent event) at hid
    have hid' : id ∈ s.db.handed ∨ id = event.1 := by
      rw [Queue.handing_processSingleEvent] at hid
      split_ifs at hid
      · exact Or.inl hid
      · simpa using hid
    rcases hid' with hid' | rfl
    · refine (h.covered id hid').imp_right ?_
      rintro ⟨j, hj⟩
      exact ⟨j, hover id j hj⟩
    · refine Or.inr ⟨i, ?_⟩
      dsimp only
      rw [update_self, handedOver_processEvents]
      simp

variable (stage : EventProcessor.Stage)

theorem idle (hhanded : db.handed = s.db.handed)
    (hevents : db.tables.usageEvents = s.db.tables.usageEvents)
    (hheld : List.Sublist (held (stage.rest (processors i))) (held (s.rest i))) (hover : handedOver (s.rest i) = []) :
    Tidy processors ⟨db, update s.rest i (stage.rest (processors i))⟩ := by
  refine (h.grow hhanded ?_ ?_).move stage hheld ?_
  · intro id hid
    unfold stores
    rw [hevents]
    exact hid
  · intro id hid
    unfold isProcessed
    rw [hevents]
    exact hid
  · intro id hid
    rw [hover] at hid
    cases hid

end

end Tidy

open EventProcessor

theorem tidy_start (tables : EventTables) : Tidy processors (start (queueSystem processors) ⟨tables, []⟩) where
  stage := fun _ => ⟨.creating, rfl⟩
  stored := fun _ _ hid => absurd hid not_mem_nil
  nodup := fun _ => nodup_nil
  disjoint := fun _ _ _ _ hid => absurd hid not_mem_nil
  once := nodup_nil
  covered := fun _ hid => absurd hid not_mem_nil

variable [DecidableEq ι] {fault : Fault} {c : QueueCall}

theorem desk_cases {q q' : Queue} {r : Except BillingError c.Answer}
    (h : Queue.desk fault c q = some (r, q')) :
    (fault = .none ∧ r = (serveQueue c q.tables).1 ∧ q' = ⟨(serveQueue c q.tables).2, q.handing c⟩) ∨
      (r = .error c.failure ∧ (fault = .refused ∧ q' = q ∨
        fault = .lost ∧ q' = ⟨(serveQueue c q.tables).2, q.handed⟩)) := by
  cases fault with
  | none =>
    cases h
    exact Or.inl ⟨rfl, rfl, rfl⟩
  | refused =>
    cases h
    exact Or.inr ⟨rfl, Or.inl ⟨rfl, rfl⟩⟩
  | lost =>
    cases h
    exact Or.inr ⟨rfl, Or.inr ⟨rfl, rfl⟩⟩

section Answers

variable {i : ι} {next : Except BillingError c.Answer → QueueCalls Unit}
  {r : Except BillingError c.Answer}

theorem Tidy.early (h : Tidy processors s) (hdesk : Queue.desk fault c s.db = some (r, db)) (stage : Stage)
    (hevents : (serveQueue c s.db.tables).2.usageEvents = s.db.tables.usageEvents) (hhanding : s.db.handing c = s.db.handed)
    (hheld : List.Sublist (held (stage.rest (processors i))) (held (s.rest i))) (hover : handedOver (s.rest i) = []) :
    Tidy processors ⟨db, update s.rest i (stage.rest (processors i))⟩ := by
  rcases desk_cases hdesk with ⟨-, -, rfl⟩ | ⟨-, ⟨-, rfl⟩ | ⟨-, rfl⟩⟩
  · exact h.idle stage hhanding hevents hheld hover
  · exact h.idle stage rfl rfl hheld hover
  · exact h.idle stage rfl hevents hheld hover

theorem tidy_fetched {limit : Option ℤ} {r : Except BillingError (List (EventId × EventRow))}
    (h : Tidy processors s) (hover : handedOver (s.rest i) = [])
    (hok : ∀ j, j ≠ i → ∀ p ∈ s.db.tables.unprocessedEvents (limit.getD 1000), p.1 ∉ held (s.rest j))
    (hdesk : Queue.desk fault (.getUnprocessedEvents limit) s.db = some (r, db)) :
    Tidy processors ⟨db, update s.rest i ((done r : QueueCalls _) >>= processFetched batch)⟩ := by
  have herror : ∀ e : BillingError, Tidy processors ⟨s.db, update s.rest i (done (.error e))⟩ := by
    intro e
    exact h.idle (.finished (.error e)) rfl rfl (nil_sublist _) hover
  rcases desk_cases hdesk with ⟨-, rfl, rfl⟩ | ⟨rfl, ⟨-, rfl⟩ | ⟨-, rfl⟩⟩
  · by_cases hlimit : limit.getD 1000 < 0
    · simp only [serveQueue, hlimit, ↓reduceIte]
      exact herror _
    · simp only [serveQueue, hlimit, ↓reduceIte]
      apply h.fetch batch hover _ (s.db.tables.nodup_unprocessedEvents _) hok
      intro p hp
      exact mem_of_mem_filter ((mem_insertionSort _).mp (mem_of_mem_take hp))
  · exact herror _
  · by_cases hlimit : limit.getD 1000 < 0
    all_goals
      simp only [serveQueue, hlimit, ↓reduceIte]
      exact herror _

theorem tidy_handled
    {processedCount failedCount : ℕ} {r : Except BillingError Unit}
    (h : Tidy processors s) (hrest : s.rest i = processEvents batch (event :: events) processedCount failedCount processedIds)
    (hdesk : Queue.desk fault (.processSingleEvent event) s.db = some (r, db)) :
    Tidy processors ⟨db, update s.rest i ((fun
      | .ok _ => processEvents batch events (processedCount + 1) failedCount (processedIds ++ [event.1])
      | .error _ => processEvents batch events processedCount (failedCount + 1) processedIds) r)⟩ := by
  have herror : Tidy processors ⟨s.db, update s.rest i
      (processEvents batch events processedCount (failedCount + 1) processedIds)⟩ := by
    apply h.move (.handling batch events processedCount (failedCount + 1) processedIds)
    · rw [hrest]
      change List.Sublist (held (processEvents _ _ _ _ _)) _
      rw [held_processEvents, held_processEvents]
      exact (List.Sublist.refl _).append (sublist_cons_self _ _)
    · intro id hid
      rw [hrest, handedOver_processEvents] at hid
      right
      change id ∈ handedOver (processEvents _ _ _ _ _)
      rw [handedOver_processEvents]
      exact hid
  rcases desk_cases hdesk with ⟨-, rfl, rfl⟩ | ⟨rfl, ⟨-, rfl⟩ | ⟨-, rfl⟩⟩
  · exact h.handOver hrest
  all_goals exact herror

theorem tidy_marked {r : Except BillingError Unit} (stage : Stage)
    (h : Tidy processors s) (hheld : held (s.rest i) = ids) (hfault : fault ≠ .refused)
    (hdesk : Queue.desk fault (.markEventsProcessed ids batch) s.db = some (r, db))
    (hstage : held (stage.rest (processors i)) = []) :
    Tidy processors ⟨db, update s.rest i (stage.rest (processors i))⟩ := by
  have hdb : db = ⟨s.db.tables.markEventsProcessed ids batch, s.db.handed⟩ := by
    rcases desk_cases hdesk with ⟨-, -, rfl⟩ | ⟨-, ⟨hrefused, -⟩ | ⟨-, rfl⟩⟩
    · rfl
    · exact absurd hrefused hfault
    · rfl
  subst hdb
  have hmarked : Tidy processors ⟨⟨s.db.tables.markEventsProcessed ids batch, s.db.handed⟩, s.rest⟩ :=
    h.grow rfl (fun _ hid => stores_markEventsProcessed hid ids batch) (fun _ hid => isProcessed_mark_mono hid ids batch)
  apply hmarked.move stage
  · rw [hstage]
    exact nil_sublist _
  · intro id hid
    have hid' := h.handedOver_subset i hid
    left
    exact isProcessed_of_marked (h.stored i id hid') (hheld ▸ hid') batch

theorem Tidy.answer (h : Tidy processors s) (hok : Exclusive (.answer i fault) s) (hrest : s.rest i = call c next)
    (hdesk : Queue.desk fault c s.db = some (r, db)) : Tidy processors ⟨db, update s.rest i (next r)⟩ := by
  obtain ⟨stage, hstage⟩ := h.stage i
  have hcall := hstage.symm.trans hrest
  change Undisturbed s i fault (s.rest i) at hok
  rw [hrest] at hok
  cases stage with
  | creating =>
    cases hcall
    have hover : handedOver (s.rest i) = [] := by
      rw [hstage]
      rfl
    cases r with
    | ok batch => exact h.early hdesk (.fetching batch) rfl rfl (nil_sublist _) hover
    | error e => exact h.early hdesk (.finished (.error e)) rfl rfl (nil_sublist _) hover
  | fetching batch =>
    cases hcall
    have hover : handedOver (s.rest i) = [] := by
      rw [hstage]
      rfl
    exact tidy_fetched h hover hok hdesk
  | starting batch events =>
    change processFetched batch events = call c next at hcall
    have hover : handedOver (s.rest i) = [] := by
      rw [hstage]
      exact handedOver_processFetched batch events
    have hheld : held (s.rest i) = events.map Prod.fst := by
      rw [hstage]
      exact held_processFetched batch events
    unfold processFetched at hcall
    split_ifs at hcall
    cases hcall
    cases r with
    | ok _ =>
      apply h.early hdesk (.handling batch events 0 0 []) rfl rfl _ hover
      rw [hheld]
      change List.Sublist (held (processEvents batch events 0 0 [])) _
      rw [held_processEvents]
      exact List.Sublist.refl _
    | error e => exact h.early hdesk (.finished (.error e)) rfl rfl (nil_sublist _) hover
  | handling batch events processedCount failedCount processedIds =>
    change processEvents batch events processedCount failedCount processedIds = call c next at hcall
    cases events with
    | nil =>
      have hheld : held (s.rest i) = processedIds := by
        rw [hstage]
        exact marks_finishBatch _ _ _ _ _
      change finishBatch batch processedCount failedCount processedIds = call c next at hcall
      unfold finishBatch at hcall
      split_ifs at hcall with hids
      · cases hcall
        apply h.early hdesk (.finished r) rfl rfl (nil_sublist _)
        rw [hstage, hids]
        rfl
      · cases hcall
        cases r with
        | ok _ => exact tidy_marked (.completing batch processedCount failedCount) h hheld hok hdesk rfl
        | error e => exact tidy_marked (.finished (.error e)) h hheld hok hdesk rfl
    | cons event events =>
      cases hcall
      have hnext := tidy_handled h hstage hdesk
      cases r with
      | ok _ | error _ => exact hnext
  | completing batch processedCount failedCount =>
    cases hcall
    apply h.early hdesk (.finished r) rfl rfl (nil_sublist _)
    rw [hstage]
    rfl
  | finished result => cases hcall

end Answers

theorem tidy_keeps : Keeps (queueSystem processors) Exclusive (Tidy processors) where
  answer := fun _ _ _ _ _ _ _ h hok hrest hdesk => h.answer hok hrest hdesk
  finished := by
    intro s i result h hrest
    apply h.move .creating (nil_sublist _)
    intro id hid
    rw [hrest] at hid
    cases hid
  restart := by
    intro s i h hok
    change handedOver (s.rest i) = [] at hok
    apply h.move .creating (nil_sublist _)
    intro id hid
    rw [hok] at hid
    cases hid
  world := by
    intro s m h _
    cases m with
    | append id event timestamp =>
      refine h.grow rfl ?_ ?_
      · rintro id' ⟨row, hrow⟩
        exact ⟨row, get?_appendUsageEvent hrow id event timestamp⟩
      · intro id' hprocessed
        unfold isProcessed at hprocessed ⊢
        cases hrow : s.db.tables.usageEvents.get? id' with
        | none =>
          rw [hrow] at hprocessed
          cases hprocessed
        | some row =>
          change Option.any EventRow.processed ((s.db.tables.appendUsageEvent id event timestamp).usageEvents.get? id') = true
          rw [get?_appendUsageEvent hrow id event timestamp, ← hrow]
          exact hprocessed
    | lock ids | clock now => exact h.grow rfl (fun _ hid => hid) (fun _ hid => hid)

theorem exclusive_run_hands_once (tables : EventTables) (l : List (Fleets.Move ι Fault QueueEvent))
    (h : EachStep (step (queueSystem processors)) Exclusive l (start (queueSystem processors) ⟨tables, []⟩)) :
    Throughout (step (queueSystem processors)) AtMostOnce l (start (queueSystem processors) ⟨tables, []⟩) :=
  tidy_keeps.throughout (fun _ hs => hs.once) (tidy_start tables) h

def telemetryEvent : EventRow := ⟨⟨1, "alice", "executor", "validator", .telemetry []⟩, 0, false, none, none⟩

def oneEvent : EventTables := ⟨AssocMap.empty.insert 7 telemetryEvent, AssocMap.empty, [], 0⟩

def twoProcessors : System QueueCall QueueCall.Answer BillingError Unit Queue Two Fault QueueEvent :=
  queueSystem (fun _ => ⟨none, 100⟩)

def orderlyRun : List (Fleets.Move Two Fault QueueEvent) :=
  answered .first 3 (.answer .first .refused :: answered .first 6 (.answer .first .lost :: answered .second 2 []))

theorem orderly_run_hands_once :
    EachStep (step twoProcessors) Exclusive orderlyRun (start twoProcessors ⟨oneEvent, []⟩) ∧
      (last (step twoProcessors) orderlyRun (start twoProcessors ⟨oneEvent, []⟩)).db.handed = [7] ∧
      Throughout (step twoProcessors) AtMostOnce orderlyRun (start twoProcessors ⟨oneEvent, []⟩) := by
  have hrun : EachStep (step twoProcessors) Exclusive orderlyRun (start twoProcessors ⟨oneEvent, []⟩) := by
    decide +kernel
  exact ⟨hrun, by decide +kernel, exclusive_run_hands_once oneEvent orderlyRun hrun⟩

def sharedRun : List (Fleets.Move Two Fault QueueEvent) :=
  answered .first 2 (answered .second 2 (answered .first 2 (answered .second 2 [])))

def stoppedRun : List (Fleets.Move Two Fault QueueEvent) := answered .first 4 (.restart .first :: answered .first 4 [])

theorem event_handed_twice : ¬ AtMostOnce (last (step twoProcessors) sharedRun (start twoProcessors ⟨oneEvent, []⟩)) ∧
      ¬ AtMostOnce (last (step twoProcessors) stoppedRun (start twoProcessors ⟨oneEvent, []⟩)) := by
  unfold AtMostOnce
  decide +kernel

end Runs

end Basilica.Billing
