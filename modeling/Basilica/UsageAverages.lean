import Basilica.UsageAggregations

/-!
What a row of `billing.usage_aggregations` holds after any updates of its rental: the means and the sums of the
samples of its hour.
-/

namespace Basilica.Billing

open AssocMaps AtomicCalls Calls List Option AssocMap

/-- `EXTRACT(EPOCH FROM DATE_TRUNC('day', NOW()))::int` is an error where the day does not begin within an `int`. -/
def initialKey (id : RentalId) (now : ℤ) : Option AggregationKey :=
  if -2 ^ 31 ≤ now / 86400 * 86400 ∧ now / 86400 * 86400 < 2 ^ 31 then some ⟨id, hourKey now, dateKey now⟩ else none

def UsageAggregation.zero (userId : ℕ) : UsageAggregation := ⟨userId, 0, 0, 0, 0, 0, 0, 0, .zero, 0⟩

structure UsageUpdate where
  metrics : UsageMetrics
  cost : CreditBalance
  hourNow : ℤ
  dateNow : ℤ

def aggregated (userId : ℕ) (updates : List UsageUpdate) : UsageAggregation :=
  let total (column : UsageMetrics → ℚ) : ℚ := (updates.map (fun u => column u.metrics)).sum
  { userId := userId
    cpuUsageAvg := total UsageMetrics.cpuHours / updates.length
    memoryUsageAvgGb := total UsageMetrics.memoryGbHours / updates.length
    gpuUsageAvg := total UsageMetrics.gpuHours / updates.length
    networkIngressGb := total (fun metrics => metrics.networkGb / 2)
    networkEgressGb := total (fun metrics => metrics.networkGb / 2)
    diskReadGb := total (fun metrics => metrics.diskIoGb / 2)
    diskWriteGb := total (fun metrics => metrics.diskIoGb / 2)
    costForPeriod := ⟨(updates.map (fun u => u.cost.micros)).sum⟩
    dataPointsCount := updates.length }

theorem aggregated_perm (userId : ℕ) {updates updates' : List UsageUpdate} (h : updates.Perm updates') :
    aggregated userId updates = aggregated userId updates' := by
  have htotal (f : UsageUpdate → ℚ) : (updates.map f).sum = (updates'.map f).sum := (h.map f).sum_eq
  have hcost := (h.map (fun u => u.cost.micros)).sum_eq
  simp only [aggregated, htotal, hcost, h.length_eq]

theorem sum_div_length_mul (l : List ℚ) : l.sum / l.length * l.length = l.sum := by
  cases l with
  | nil => simp
  | cons x l =>
    apply div_mul_cancel₀
    exact_mod_cast Nat.succ_ne_zero l.length

theorem merge_aggregated (userId userId' : ℕ) (updates : List UsageUpdate) (u : UsageUpdate) :
    (UsageAggregation.ofSample userId' u.metrics u.cost).merge (aggregated userId updates) =
      aggregated userId (updates ++ [u]) := by
  have hmean (column : UsageMetrics → ℚ) :
      (updates.map (fun u => column u.metrics)).sum / updates.length * updates.length =
        (updates.map (fun u => column u.metrics)).sum := by
    simpa using sum_div_length_mul (updates.map (fun u => column u.metrics))
  simp [UsageAggregation.merge, UsageAggregation.ofSample, aggregated, hmean]

section Updates

variable (parsers : Parsers) (id : RentalId) (user : UserId)

def initializeRental (now : ℤ) (t : UsageTables) : Except BillingError UsageTables := do
  let userId ← (parsers.uuid user).mapError (fun e => .validationError "user_id" e)
  match initialKey id now with
  | none => .error (.databaseError "initialize_rental")
  | some key => .ok { t with aggregations := t.aggregations.insert key (.zero userId) }

def UsageUpdate.sample (u : UsageUpdate) : Sample := ⟨id, user, .null, u.hourNow, u.dateNow⟩

def applyUpdates (updates : List UsageUpdate) (t : UsageTables) : UsageTables :=
  updates.foldl (fun t u => (run serveUsage (updateUsage parsers (u.sample id user) u.metrics u.cost) t).2) t

def ofKey (key : AggregationKey) (updates : List UsageUpdate) : List UsageUpdate :=
  updates.filter (fun u => (u.sample id user).key = key)

variable {parsers id user} {userId : ℕ}

def Aggregates (userId : ℕ) (updates : List UsageUpdate) (row : Option UsageAggregation) : Prop :=
  row = some (aggregated userId updates) ∨ updates = [] ∧ row = none

theorem get?_applyUpdates (huser : parsers.uuid user = .ok userId) {t : UsageTables} {key : AggregationKey}
    (h : Aggregates userId [] (t.aggregations.get? key)) (updates : List UsageUpdate) :
    (applyUpdates parsers id user updates t).aggregations.get? key =
      if ofKey id user key updates = [] then t.aggregations.get? key
      else some (aggregated userId (ofKey id user key updates)) := by
  induction updates using reverseRecOn with
  | nil => rfl
  | append_singleton updates u ih =>
    have hrun (t : UsageTables) : (run serveUsage (updateUsage parsers (u.sample id user) u.metrics u.cost) t).2 =
        t.addUsage (u.sample id user).key (.ofSample userId u.metrics u.cost) := by
      unfold updateUsage
      change (run serveUsage (ofExcept ((parsers.uuid user).mapError _) >>= _) t).2 = _
      rw [huser]
      rfl
    have hfirst : aggregated userId [u] = .ofSample userId u.metrics u.cost := by
      simp [aggregated, UsageAggregation.ofSample]
    unfold applyUpdates at ih ⊢
    rw [foldl_append, foldl_cons, foldl_nil, hrun, UsageTables.addUsage, get?_upsert]
    unfold ofKey at ih ⊢
    rw [filter_append, filter_singleton]
    by_cases hkey : (u.sample id user).key = key
    · rw [if_pos hkey, hkey, ih, decide_eq_true rfl, cond_true, if_neg (append_ne_nil_of_right_ne_nil _ (cons_ne_nil _ _))]
      split_ifs with hnone
      · rw [hnone, nil_append, hfirst]
        rcases h with hrow | ⟨-, hrow⟩
        · rw [hrow, elim_some, merge_aggregated, nil_append, hfirst]
        · rw [hrow, elim_none]
      · rw [elim_some, merge_aggregated]
    · rw [if_neg hkey, decide_eq_false hkey, cond_false, append_nil, ih]

theorem aggregates_initializeRental (huser : parsers.uuid user = .ok userId) {t t₀ : UsageTables} {now : ℤ}
    (h : initializeRental parsers id user now t = .ok t₀)
    (hfresh : ∀ key, key.rentalId = id → t.aggregations.get? key = none) {key : AggregationKey} (hkey : key.rentalId = id) :
    Aggregates userId [] (t₀.aggregations.get? key) := by
  have hstarted : initializeRental parsers id user now t = match initialKey id now with
      | none => .error (.databaseError "initialize_rental")
      | some key => .ok { t with aggregations := t.aggregations.insert key (.zero userId) } := by
    unfold initializeRental
    rw [huser]
    rfl
  rw [hstarted] at h
  unfold initialKey at h
  split_ifs at h
  cases h
  change Aggregates userId [] ((t.aggregations.insert _ _).get? key)
  rw [get?_insert (hfresh _ rfl)]
  split_ifs
  · exact Or.inl (by simp [aggregated, UsageAggregation.zero, CreditBalance.zero])
  · exact Or.inr ⟨rfl, hfresh key hkey⟩

theorem usage_rows_aggregate (parsers : Parsers) (id : RentalId) (user : UserId) {userId : ℕ}
    (huser : parsers.uuid user = .ok userId) (t t₀ : UsageTables)
    (hfresh : ∀ key, key.rentalId = id → t.aggregations.get? key = none)
    (hstart : t₀ = t ∨ ∃ now, initializeRental parsers id user now t = .ok t₀)
    (updates : List UsageUpdate) (key : AggregationKey) (hkey : key.rentalId = id) :
    Aggregates userId (ofKey id user key updates) ((applyUpdates parsers id user updates t₀).aggregations.get? key) ∧
      ∀ updates', (ofKey id user key updates').Perm (ofKey id user key updates) →
        (applyUpdates parsers id user updates' t₀).aggregations.get? key =
          (applyUpdates parsers id user updates t₀).aggregations.get? key := by
  have h₀ : Aggregates userId [] (t₀.aggregations.get? key) := by
    rcases hstart with rfl | ⟨now, hnow⟩
    · exact Or.inr ⟨rfl, hfresh key hkey⟩
    · exact aggregates_initializeRental huser hnow hfresh hkey
  constructor
  · rw [get?_applyUpdates huser h₀]
    split_ifs with hnone
    · rwa [hnone]
    · exact Or.inl rfl
  · intro updates' hperm
    rw [get?_applyUpdates huser h₀, get?_applyUpdates huser h₀, aggregated_perm userId hperm]
    simp only [← length_eq_zero_iff, hperm.length_eq]

end Updates

theorem usage_rows_aggregate_one_hour :
    let updates : List UsageUpdate := [⟨⟨1, 2, 3, 0, 4, 2⟩, ⟨5⟩, 60, 60⟩, ⟨⟨2, 4, 6, 0, 0, 0⟩, ⟨7⟩, 120, 120⟩]
    ofKey 1 "7" ⟨1, 0, 0⟩ updates = updates ∧ Aggregates 7 (ofKey 1 "7" ⟨1, 0, 0⟩ updates)
      ((applyUpdates plainParsers 1 "7" updates (freshRental 1 h100)).aggregations.get? ⟨1, 0, 0⟩) :=
  ⟨rfl, (usage_rows_aggregate plainParsers 1 "7" (show plainParsers.uuid "7" = .ok 7 from rfl) (freshRental 1 h100)
    (freshRental 1 h100) (fun _ _ => rfl) (Or.inl rfl) _ ⟨1, 0, 0⟩ rfl).1⟩

end Basilica.Billing
