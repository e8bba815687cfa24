import Basilica.ExecutorFrames
import Basilica.AtomicCalls

/-!
Whether an executor is validated in full or on the strength of earlier results. The log has no column for the miner,
and the queries for the last validation go by the executor id alone.
-/

namespace Basilica.Validator

open AssocMaps AtomicCalls Calls List Option

inductive ValidationStrategy
  | full
  | lightweight (previousScore : ℚ) (executorResult : Option ExecutorResult) (gpuCount : ℕ) (binaryValidationSuccessful : Bool)
deriving DecidableEq

def VerificationLog.Binary (log : VerificationLog) : Prop :=
  log.success = true ∧ log.verificationType = "ssh_automation" ∧ log.details.binaryValidationSuccessful = true

instance : DecidablePred VerificationLog.Binary := fun _ =>
  inferInstanceAs (Decidable (_ ∧ _))

/-- `ORDER BY timestamp DESC LIMIT 1` -/
def newest (logs : List VerificationLog) : Option VerificationLog :=
  letI : Preorder Time := Int.instLinearOrder.toPreorder
  logs.argmax VerificationLog.timestamp

def compositeExecutorId (minerId : MinerId) (executorId : ExecutorId) : ExecutorId :=
  if minerId.toList.take 6 = "miner_".toList then
    let rest := String.ofList (minerId.toList.drop 6)
    s!"miner{rest}__{executorId}"
  else s!"miner{minerId}__{executorId}"

def Matches (glob : String → String → Bool) (executorId : ExecutorId) (minerId : MinerId) (id : ExecutorId) : Prop :=
  id = executorId ∨ glob ("*__" ++ executorId) id = true ∨ id = compositeExecutorId minerId executorId

instance (glob : String → String → Bool) (executorId : ExecutorId) (minerId : MinerId) :
    DecidablePred (Matches glob executorId minerId) := fun _ =>
  inferInstanceAs (Decidable (_ ∨ _))

namespace ValidatorDb

def HasActiveRental (db : ValidatorDb) (executorId : ExecutorId) (minerId : MinerId) : Prop :=
  ∃ rental ∈ db.rentals, rental.executorId = executorId ∧ rental.minerId = minerId ∧ rental.state = .active

instance (db : ValidatorDb) (executorId : ExecutorId) (minerId : MinerId) : Decidable (db.HasActiveRental executorId minerId) :=
  inferInstanceAs (Decidable (∃ rental ∈ db.rentals,
    rental.executorId = executorId ∧ rental.minerId = minerId ∧ rental.state = .active))

def binaryValidations (db : ValidatorDb) (executorId : ExecutorId) : List VerificationLog :=
  db.logs.filter (fun log => log.Binary ∧ log.executorId = executorId)

def fullValidations (db : ValidatorDb) (glob : String → String → Bool) (executorId : ExecutorId) (minerId : MinerId) :
    List VerificationLog :=
  db.logs.filter (fun log => log.Binary ∧ Matches glob executorId minerId log.executorId)

end ValidatorDb

inductive StrategyCall
  | hasActiveRental (executorId : ExecutorId) (minerId : MinerId)
  | executorStatus (executorId : ExecutorId) (minerId : MinerId)
  | lastBinaryValidation (executorId : ExecutorId)
  | lastFullValidationData (executorId : ExecutorId) (minerId : MinerId)

open StrategyCall

abbrev StrategyCall.Answer : StrategyCall → Type
  | hasActiveRental _ _ => Bool
  | executorStatus _ _ => Option ExecutorStatus
  | lastBinaryValidation _ => Option (Time × ℚ)
  | lastFullValidationData _ _ => Option (ℚ × Option ExecutorResult × ℕ × Bool)

def VerificationLog.data (log : VerificationLog) : ℚ × Option ExecutorResult × ℕ × Bool :=
  (log.score, log.details.executorResult, log.details.gpuCount, log.details.binaryValidationSuccessful)

/-- `glob` is the operator of the database. -/
def serveStrategy (glob : String → String → Bool) : Server StrategyCall StrategyCall.Answer String ValidatorDb
  | .hasActiveRental executorId minerId, db => (.ok (decide (db.HasActiveRental executorId minerId)), db)
  | .executorStatus executorId minerId, db => (.ok (db.executorStatus? minerId executorId), db)
  | .lastBinaryValidation executorId, db =>
    (.ok ((newest (db.binaryValidations executorId)).map (fun log => (log.timestamp, log.score))), db)
  | .lastFullValidationData executorId minerId, db =>
    (.ok ((newest (db.fullValidations glob executorId minerId)).map VerificationLog.data), db)

def StrategyCall.fault : StrategyCall → String := fun _ => "error returned from database"

namespace ValidationStrategySelector

abbrev Query := Calls StrategyCall StrategyCall.Answer String

def hasActiveRental (executorId : ExecutorId) (minerId : MinerId) : Query Bool := ask (StrategyCall.hasActiveRental executorId minerId)

def executorStatus (executorId : ExecutorId) (minerId : MinerId) : Query (Option ExecutorStatus) :=
  ask (StrategyCall.executorStatus executorId minerId)

def lastBinaryValidation (executorId : ExecutorId) : Query (Option (Time × ℚ)) := ask (StrategyCall.lastBinaryValidation executorId)

def getLastFullValidationData (executorId : ExecutorId) (minerId : MinerId) :
    Query (Option (ℚ × Option ExecutorResult × ℕ × Bool)) := ask (StrategyCall.lastFullValidationData executorId minerId)

/-- The second query is the first once more. -/
def getLastBinaryValidation (executorId : ExecutorId) : Query (Option (Time × ℚ)) := do
  match ← lastBinaryValidation executorId with
  | some row => return some row
  | none => lastBinaryValidation executorId

/-- The largest `Duration` of chrono is `i64::MAX` milliseconds. -/
def durationFromStd (nanoseconds : ℕ) : Option ℤ :=
  if nanoseconds ≤ 9223372036854775807 * 1000000 then some nanoseconds else none

def isBinaryValidationNeeded (executorValidationInterval : ℕ) (now : Time) (executorId : ExecutorId) (minerId : MinerId) :
    Query Bool := do
  match ← executorStatus executorId minerId with
  | none => return true
  | some status =>
    if ¬ status.Active then return true
    else
      match ← getLastBinaryValidation executorId with
      | none => return true
      | some (timestamp, _) =>
        let elapsed := now - timestamp
        match durationFromStd executorValidationInterval with
        | none => fail "Invalid validation interval"
        | some interval => return decide (interval < elapsed)

def reuse (hasActiveRental : Bool) (executorId : ExecutorId) (minerId : MinerId) : Query ValidationStrategy := do
  match ← (getLastFullValidationData executorId minerId).catching with
  | .ok (some (score, executorResult, gpuCount, binaryValidationSuccessful)) =>
    return .lightweight score executorResult gpuCount binaryValidationSuccessful
  | _ => if hasActiveRental then return .lightweight (4 / 5) none 0 false else return .full

def determineValidationStrategy (executorValidationInterval : ℕ) (now : Time) (executorId : ExecutorId) (minerUid : MinerUid) :
    Query ValidationStrategy := do
  let minerId := minerIdOf minerUid
  let hasActiveRental := match ← (hasActiveRental executorId minerId).catching with
    | .ok found => found
    | .error _ => false
  if hasActiveRental then reuse true executorId minerId
  else
    let needsBinaryValidation :=
      match ← (isBinaryValidationNeeded executorValidationInterval now executorId minerId).catching with
      | .ok needed => needed
      | .error _ => true
    if needsBinaryValidation then return .full else reuse false executorId minerId

end ValidationStrategySelector

section Newest

variable {logs : List VerificationLog} {log last : VerificationLog}

theorem exists_newest (hlog : log ∈ logs) : ∃ last, newest logs = some last := by
  cases h : newest logs with
  | some last => exact ⟨last, rfl⟩
  | none => exact absurd (argmax_eq_none.mp h) (ne_nil_of_mem hlog)

end Newest

namespace ValidationStrategySelector

variable {glob : String → String → Bool} {db : ValidatorDb} {executorId : ExecutorId} {minerId : MinerId} {interval : ℕ}
  {now : Time}

section

variable (glob : String → String → Bool) (db : ValidatorDb) (interval : ℕ) (now : Time) (executorId : ExecutorId)
  (minerId : MinerId)

structure Fresh (db : ValidatorDb) (interval : ℕ) (now : Time) (executorId : ExecutorId) (minerId : MinerId) : Prop where
  active : ∃ status, db.executorStatus? minerId executorId = some status ∧ status.Active
  recent : ∃ log, newest (db.binaryValidations executorId) = some log ∧ now - log.timestamp ≤ interval

theorem ensures_getLastBinaryValidation :
    Ensures (serveStrategy glob) fault (getLastBinaryValidation executorId) db (fun r db' => db' = db ∧
      ∀ row, r = .ok (some row) → ∃ log, newest (db.binaryValidations executorId) = some log ∧ log.timestamp = row.1) := by
  have hquery : Ensures (serveStrategy glob) fault (lastBinaryValidation executorId) db (fun r db' => db' = db ∧
      ∀ row, r = .ok (some row) → ∃ log, newest (db.binaryValidations executorId) = some log ∧ log.timestamp = row.1) := by
    apply ensures_ask.mpr
    constructor
    · refine ⟨rfl, ?_⟩
      intro row hrow
      cases hrow
    · refine ⟨rfl, ?_⟩
      intro row hrow
      obtain ⟨log, hlog, rfl⟩ := map_eq_some_iff.mp (Except.ok.inj hrow)
      exact ⟨log, hlog, rfl⟩
  apply hquery.bind
  · rintro answer db' ⟨rfl, hanswer⟩
    cases answer with
    | some row =>
      refine ⟨rfl, ?_⟩
      intro row' hrow'
      exact hanswer row' hrow'
    | none => exact hquery
  · rintro e db' ⟨rfl, -⟩
    refine ⟨rfl, ?_⟩
    intro row hrow
    cases hrow

theorem ensures_isBinaryValidationNeeded :
    Ensures (serveStrategy glob) fault (isBinaryValidationNeeded interval now executorId minerId) db
      (fun r db' => db' = db ∧ (r = .ok false → Fresh db interval now executorId minerId)) := by
  apply ensures_bind.mpr
  apply ensures_ask.mpr
  constructor
  · refine ⟨rfl, ?_⟩
    intro h
    cases h
  · cases hstatus : db.executorStatus? minerId executorId with
    | none =>
      dsimp only [serveStrategy]
      rw [hstatus]
      refine ⟨rfl, ?_⟩
      intro h
      cases h
    | some status =>
      dsimp only [serveStrategy]
      rw [hstatus]
      dsimp only
      by_cases hactive : status.Active
      · rw [if_neg (not_not.mpr hactive)]
        apply (ensures_getLastBinaryValidation glob db executorId).bind
        · rintro row db' ⟨rfl, hrow⟩
          cases row with
          | none =>
            refine ⟨rfl, ?_⟩
            intro h
            cases h
          | some row =>
            obtain ⟨log, hlog, htimestamp⟩ := hrow row rfl
            dsimp only
            cases hinterval : durationFromStd interval with
            | none =>
              refine ⟨rfl, ?_⟩
              intro h
              cases h
            | some duration =>
              refine ⟨rfl, ?_⟩
              intro h
              obtain ⟨-, hduration⟩ := ite_none_right_eq_some.mp hinterval
              have hnot := of_decide_eq_false (Except.ok.inj h)
              refine ⟨⟨status, hstatus, hactive⟩, log, hlog, ?_⟩
              rw [htimestamp, some.inj hduration]
              exact not_lt.mp hnot
        · rintro e db' ⟨rfl, -⟩
          refine ⟨rfl, ?_⟩
          intro h
          cases h
      · rw [if_pos hactive]
        refine ⟨rfl, ?_⟩
        intro h
        cases h

theorem ensures_reuse : Ensures (serveStrategy glob) fault (reuse false executorId minerId) db (fun r _ =>
      ∀ score executorResult gpuCount binary, r = .ok (.lightweight score executorResult gpuCount binary) →
        ∃ log, newest (db.fullValidations glob executorId minerId) = some log ∧ log.score = score ∧
          log.details.executorResult = executorResult) := by
  apply ensures_bind.mpr
  apply Ensures.catching
  apply ensures_ask.mpr
  constructor
  · intro score executorResult gpuCount binary h
    cases h
  · cases hlog : newest (db.fullValidations glob executorId minerId) with
    | none =>
      dsimp only [serveStrategy]
      rw [hlog]
      intro score executorResult gpuCount binary h
      cases h
    | some log =>
      dsimp only [serveStrategy]
      rw [hlog]
      intro score executorResult gpuCount binary h
      cases h
      exact ⟨log, rfl, rfl, rfl⟩

theorem ensures_determineValidationStrategy {executorId : ExecutorId} {minerUid : MinerUid}
    (hrental : ¬ db.HasActiveRental executorId (minerIdOf minerUid)) :
    Ensures (serveStrategy glob) fault (determineValidationStrategy interval now executorId minerUid) db
      (fun r _ => ∀ score executorResult gpuCount binary, r = .ok (.lightweight score executorResult gpuCount binary) →
        Fresh db interval now executorId (minerIdOf minerUid) ∧
          ∃ log, newest (db.fullValidations glob executorId (minerIdOf minerUid)) = some log ∧ log.score = score ∧
            log.details.executorResult = executorResult) := by
  have hunrented : Ensures (serveStrategy glob) fault (do
      let needsBinaryValidation :=
        match ← (isBinaryValidationNeeded interval now executorId (minerIdOf minerUid)).catching with
        | .ok needed => needed
        | .error _ => true
      if needsBinaryValidation then return .full else reuse false executorId (minerIdOf minerUid)) db
      (fun r _ => ∀ score executorResult gpuCount binary, r = .ok (.lightweight score executorResult gpuCount binary) →
        Fresh db interval now executorId (minerIdOf minerUid) ∧
          ∃ log, newest (db.fullValidations glob executorId (minerIdOf minerUid)) = some log ∧ log.score = score ∧
            log.details.executorResult = executorResult) := by
    apply ensures_bind.mpr
    apply Ensures.catching
    apply (ensures_isBinaryValidationNeeded glob db interval now executorId (minerIdOf minerUid)).mono
    rintro r db' ⟨rfl, hneeded⟩
    cases r with
    | error e =>
      intro score executorResult gpuCount binary h
      cases h
    | ok needed =>
      cases needed with
      | true =>
        intro score executorResult gpuCount binary h
        cases h
      | false =>
        apply (ensures_reuse glob db' executorId (minerIdOf minerUid)).mono
        intro r db'' hreused score executorResult gpuCount binary h
        exact ⟨hneeded rfl, hreused score executorResult gpuCount binary h⟩
  apply ensures_bind.mpr
  apply Ensures.catching
  apply ensures_ask.mpr
  constructor
  · exact hunrented
  · dsimp only [serveStrategy]
    rw [decide_eq_false hrental]
    exact hunrented

end

theorem run_determineValidationStrategy {minerUid : MinerUid} (hrental : ¬ db.HasActiveRental executorId (minerIdOf minerUid))
    (hfresh : Fresh db interval now executorId (minerIdOf minerUid)) (hinterval : durationFromStd interval = some (interval : ℤ))
    {last : VerificationLog} (hlast : newest (db.fullValidations glob executorId (minerIdOf minerUid)) = some last) :
    (run (serveStrategy glob) (determineValidationStrategy interval now executorId minerUid) db).1 =
      .ok (.lightweight last.score last.details.executorResult last.details.gpuCount
        last.details.binaryValidationSuccessful) := by
  obtain ⟨status, hstatus, hactive⟩ := hfresh.active
  obtain ⟨log, hlog, hrecent⟩ := hfresh.recent
  have hrented : run (serveStrategy glob) (hasActiveRental executorId (minerIdOf minerUid)) db = (.ok false, db) := by
    change (Except.ok _, db) = _
    rw [decide_eq_false hrental]
  have hvalidated : run (serveStrategy glob) (getLastBinaryValidation executorId) db =
      (.ok (some (log.timestamp, log.score)), db) := by
    have hquery : run (serveStrategy glob) (lastBinaryValidation executorId) db =
        (.ok (some (log.timestamp, log.score)), db) := by
      change (Except.ok _, db) = _
      rw [hlog]
      rfl
    exact run_bind_ok _ hquery
  have hneeded : run (serveStrategy glob) (isBinaryValidationNeeded interval now executorId (minerIdOf minerUid)) db =
      (.ok false, db) := by
    have hquery : run (serveStrategy glob) (executorStatus executorId (minerIdOf minerUid)) db = (.ok (some status), db) := by
      change (Except.ok _, db) = _
      rw [hstatus]
    unfold isBinaryValidationNeeded
    rw [run_bind_ok _ hquery]
    dsimp only
    rw [if_neg (not_not.mpr hactive), run_bind_ok _ hvalidated]
    rw [hinterval]
    dsimp only
    rw [decide_eq_false (not_lt.mpr hrecent)]
    rfl
  have hreused : run (serveStrategy glob) (reuse false executorId (minerIdOf minerUid)) db =
      (.ok (.lightweight last.score last.details.executorResult last.details.gpuCount
        last.details.binaryValidationSuccessful), db) := by
    have hquery : run (serveStrategy glob) (getLastFullValidationData executorId (minerIdOf minerUid)) db =
        (.ok (some last.data), db) := by
      change (Except.ok _, db) = _
      rw [hlast]
      rfl
    have hcaught := run_catching (serveStrategy glob) (getLastFullValidationData executorId (minerIdOf minerUid)) db
    rw [hquery] at hcaught
    exact run_bind_ok _ hcaught
  unfold determineValidationStrategy
  have hcaught := run_catching (serveStrategy glob) (hasActiveRental executorId (minerIdOf minerUid)) db
  rw [hrented] at hcaught
  have hcaught' := run_catching (serveStrategy glob)
    (isBinaryValidationNeeded interval now executorId (minerIdOf minerUid)) db
  rw [hneeded] at hcaught'
  rw [run_bind_ok _ hcaught]
  rw [if_neg Bool.false_ne_true, run_bind_ok _ hcaught']
  rw [if_neg Bool.false_ne_true, hreused]

end ValidationStrategySelector

section Entitled

open ValidationStrategySelector

def VerificationLog.Of (minerUid : MinerUid) (executorId : ExecutorId) (log : VerificationLog) : Prop :=
  log.details.minerUid = minerUid ∧
    (log.executorId = executorId ∨ log.executorId = compositeExecutorId (minerIdOf minerUid) executorId)

structure Entitled (db : ValidatorDb) (interval : ℕ) (now : Time) (executorId : ExecutorId) (minerUid : MinerUid) (score : ℚ)
    (executorResult : Option ExecutorResult) : Prop where
  active : ∃ row ∈ db.executors.values, row.Of (minerIdOf minerUid) executorId ∧ row.status.Active
  recent : ∃ log ∈ db.logs, log.Binary ∧ log.Of minerUid executorId ∧ now - log.timestamp ≤ interval
  reused : ∃ log ∈ db.logs, log.Binary ∧ log.Of minerUid executorId ∧ log.score = score ∧
    log.details.executorResult = executorResult

structure OwnHistory (glob : String → String → Bool) (db : ValidatorDb) (executorId : ExecutorId) (minerUid : MinerUid) :
    Prop where
  recent : ∀ log ∈ db.logs, log.Binary → log.executorId = executorId →
    ∃ own ∈ db.logs, own.Binary ∧ own.Of minerUid executorId ∧ log.timestamp ≤ own.timestamp
  reused : ∀ log, newest (db.logs.filter (fun log =>
      log.Binary ∧ Matches glob executorId (minerIdOf minerUid) log.executorId)) = some log →
    ∃ own ∈ db.logs, own.Binary ∧ own.Of minerUid executorId ∧ own.score = log.score ∧
      own.details.executorResult = log.details.executorResult

theorem mem_of_executorStatus? {db : ValidatorDb} {minerId : MinerId} {executorId : ExecutorId} {status : ExecutorStatus}
    (h : db.executorStatus? minerId executorId = some status) :
    ∃ row ∈ db.executors.values, row.Of minerId executorId ∧ row.status = status := by
  obtain ⟨row, hrow, rfl⟩ := map_eq_some_iff.mp h
  have hof := find?_some hrow
  exact ⟨row, mem_of_find?_eq_some hrow, of_decide_eq_true hof, rfl⟩

theorem mem_binaryValidations {db : ValidatorDb} {executorId : ExecutorId} {log : VerificationLog} :
    log ∈ db.binaryValidations executorId ↔ log ∈ db.logs ∧ log.Binary ∧ log.executorId = executorId := by
  simp only [ValidatorDb.binaryValidations, mem_filter, decide_eq_true_eq]

theorem determineValidationStrategy_entitled_iff (glob : String → String → Bool) (db : ValidatorDb) (executorId : ExecutorId)
    (minerUid : MinerUid) :
    (∀ interval now plan score executorResult gpuCount binary, ¬ db.HasActiveRental executorId (minerIdOf minerUid) →
      (run (faulty (serveStrategy glob) StrategyCall.fault) (determineValidationStrategy interval now executorId minerUid)
        (db, plan)).1 = .ok (.lightweight score executorResult gpuCount binary) →
      Entitled db interval now executorId minerUid score executorResult) ↔
    (¬ db.HasActiveRental executorId (minerIdOf minerUid) →
      (∃ status, db.executorStatus? (minerIdOf minerUid) executorId = some status ∧ status.Active) →
      (∃ log ∈ db.logs, log.Binary ∧ log.executorId = executorId) → OwnHistory glob db executorId minerUid) := by
  constructor
  · intro h hrental hactive hvalidated
    obtain ⟨log, hlog⟩ := hvalidated
    obtain ⟨last, hlast⟩ := exists_newest (mem_binaryValidations.mpr hlog)
    have hmatch : log ∈ db.fullValidations glob executorId (minerIdOf minerUid) :=
      mem_filter.mpr ⟨hlog.1, decide_eq_true ⟨hlog.2.1, Or.inl hlog.2.2⟩⟩
    obtain ⟨used, hused⟩ := exists_newest hmatch
    -- at the very time of the last validation, with no interval at all
    have hfresh : Fresh db 0 last.timestamp executorId (minerIdOf minerUid) :=
      ⟨hactive, last, hlast, by simp only [sub_self, Nat.cast_zero, le_refl]⟩
    have hrun := run_determineValidationStrategy hrental hfresh rfl hused
    obtain ⟨-, hrecent, hreused⟩ := h 0 last.timestamp (fun _ => false) _ _ _ _ hrental (by
      rw [run_faulty_never]
      exact hrun)
    refine ⟨?_, ?_⟩
    · intro other hother hbinary hid
      obtain ⟨own, hown, hownBinary, hof, hle⟩ := hrecent
      refine ⟨own, hown, hownBinary, hof, ?_⟩
      have hother_le := le_of_mem_argmax (mem_binaryValidations.mpr ⟨hother, hbinary, hid⟩) hlast
      rw [Nat.cast_zero] at hle
      linarith
    · intro log' hlog'
      obtain rfl : used = log' := some.inj (hused.symm.trans hlog')
      exact hreused
  · intro h interval now plan score executorResult gpuCount binary hrental hrun
    obtain ⟨⟨⟨status, hstatus, hactive⟩, log, hlog, hrecent⟩, used, hused, rfl, rfl⟩ :=
      (ensures_determineValidationStrategy glob db interval now hrental).run plan score executorResult gpuCount binary hrun
    obtain ⟨hmem, hbinary, hid⟩ := mem_binaryValidations.mp (argmax_mem hlog)
    have hown := h hrental ⟨status, hstatus, hactive⟩ ⟨log, hmem, hbinary, hid⟩
    refine ⟨?_, ?_, hown.reused used hused⟩
    · obtain ⟨row, hrow, hof, rfl⟩ := mem_of_executorStatus? hstatus
      exact ⟨row, hrow, hof, hactive⟩
    · obtain ⟨own, hownMem, hownBinary, hof, hle⟩ := hown.recent log hmem hbinary hid
      refine ⟨own, hownMem, hownBinary, hof, ?_⟩
      linarith

def borrowedId : ValidatorDb :=
  (storeExecutorVerificationResult 2 (announcement "e" "b:1" true) ⟨"two", ""⟩ 0
    { twoExecutors with executors := AssocMap.empty.insert "miner_1_e" (.plain 1 "e" "a:1" .offline) }).2

/-- `GLOB` for a pattern of one star and then a text without wildcards. -/
def globSuffix (pattern id : String) : Bool := (pattern.toList.drop 1).isSuffixOf id.toList

theorem other_miner_validates :
    (run (faulty (serveStrategy globSuffix) StrategyCall.fault) (determineValidationStrategy 1000000000 1 "e" 1)
      (borrowedId, fun _ => false)).1 = .ok (.lightweight 1 none 0 true) ∧
      ¬ borrowedId.HasActiveRental "e" (minerIdOf 1) ∧ ¬ Entitled borrowedId 1000000000 1 "e" 1 1 none := by
  refine ⟨by decide +kernel, by decide +kernel, ?_⟩
  have hlogs : ∀ log ∈ borrowedId.logs, log.details.minerUid ≠ 1 := by decide +kernel
  rintro ⟨-, ⟨log, hlog, -, hof, -⟩, -⟩
  exact hlogs log hlog hof.1

end Entitled

end Basilica.Validator
