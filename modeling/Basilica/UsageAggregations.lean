import Basilica.Tallies
import Basilica.UsageDecoding

/-!
The handler of telemetry events: each sample is priced on its own and added to the row of its rental and hour in
`billing.usage_aggregations`.
-/

namespace Basilica.Billing

open AssocMaps AtomicCalls Calls Decimals List AssocMap

structure AggregationKey where
  rentalId : RentalId
  hourKey : ℤ
  dateKey : Int32
deriving DecidableEq

structure UsageAggregation where
  userId : ℕ
  cpuUsageAvg : ℚ
  memoryUsageAvgGb : ℚ
  gpuUsageAvg : ℚ
  networkIngressGb : ℚ
  networkEgressGb : ℚ
  diskReadGb : ℚ
  diskWriteGb : ℚ
  costForPeriod : CreditBalance
  dataPointsCount : ℕ

namespace UsageAggregation

def ofSample (userId : ℕ) (metrics : UsageMetrics) (cost : CreditBalance) : UsageAggregation where
  userId := userId
  cpuUsageAvg := metrics.cpuHours
  memoryUsageAvgGb := metrics.memoryGbHours
  gpuUsageAvg := metrics.gpuHours
  networkIngressGb := metrics.networkGb / 2
  networkEgressGb := metrics.networkGb / 2
  diskReadGb := metrics.diskIoGb / 2
  diskWriteGb := metrics.diskIoGb / 2
  costForPeriod := cost
  dataPointsCount := 1

/-- `ON CONFLICT (rental_id, hour_key, date_key) DO UPDATE` -/
def merge (excluded row : UsageAggregation) : UsageAggregation :=
  let avg (column : UsageAggregation → ℚ) : ℚ :=
    (column row * row.dataPointsCount + column excluded) / (row.dataPointsCount + 1)
  { row with
    cpuUsageAvg := avg cpuUsageAvg
    memoryUsageAvgGb := avg memoryUsageAvgGb
    gpuUsageAvg := avg gpuUsageAvg
    networkIngressGb := row.networkIngressGb + excluded.networkIngressGb
    networkEgressGb := row.networkEgressGb + excluded.networkEgressGb
    diskReadGb := row.diskReadGb + excluded.diskReadGb
    diskWriteGb := row.diskWriteGb + excluded.diskWriteGb
    costForPeriod := row.costForPeriod.add excluded.costForPeriod
    dataPointsCount := row.dataPointsCount + 1 }

end UsageAggregation

structure UsageTables where
  billing : BillingTables
  aggregations : AssocMap AggregationKey UsageAggregation

namespace UsageTables

variable (t : UsageTables)

def setBilling (billing : BillingTables) : UsageTables := { t with billing := billing }

def addUsage (key : AggregationKey) (row : UsageAggregation) : UsageTables :=
  { t with aggregations := t.aggregations.upsert key row row.merge }

def periodCosts (id : RentalId) : ℤ :=
  t.aggregations.total (fun key row => if key.rentalId = id then row.costForPeriod.micros else 0)

theorem periodCosts_addUsage (key : AggregationKey) (row : UsageAggregation) :
    (t.addUsage key row).periodCosts key.rentalId = t.periodCosts key.rentalId + row.costForPeriod.micros := by
  apply total_upsert
  · exact if_pos rfl
  · intro old
    rw [if_pos rfl, if_pos rfl]
    exact congrArg CreditBalance.micros CreditBalance.add_eq

end UsageTables

inductive UsageCall
  | billing (c : Call)
  | addUsage (key : AggregationKey) (row : UsageAggregation)

abbrev UsageCall.Answer : UsageCall → Type
  | .billing c => c.Answer
  | .addUsage _ _ => Unit

def serveUsage : Server UsageCall UsageCall.Answer BillingError UsageTables
  | .billing c, t => ((serve c t.billing).1, t.setBilling (serve c t.billing).2)
  | .addUsage key row, t => (.ok (), t.addUsage key row)

abbrev UsageCalls := Calls UsageCall UsageCall.Answer BillingError

def billingCalls {α : Type} (p : BillingCalls α) : UsageCalls α := p.embed UsageCall.billing (fun _ r => r)

theorem embeds_billing :
    Embeds UsageCall.billing (fun _ r => r) serve serveUsage UsageTables.billing UsageTables.setBilling :=
  ⟨fun _ => rfl, fun _ _ => rfl, fun _ _ _ => rfl, fun _ _ => congrFun Except.map_id _, fun _ _ => rfl⟩

theorem run_billingCalls {α : Type} (p : BillingCalls α) (t : UsageTables) :
    run serveUsage (billingCalls p) t = ((run serve p t.billing).1, t.setBilling (run serve p t.billing).2) :=
  run_embed embeds_billing p t

def hourKey (now : ℤ) : ℤ := now / 3600 % 24

def dateKey (now : ℤ) : Int32 := .ofInt (now / 86400 * 86400)

structure Sample where
  rentalId : RentalId
  userId : UserId
  eventData : Json
  hourNow : ℤ
  dateNow : ℤ

namespace Sample

def key (sample : Sample) : AggregationKey := ⟨sample.rentalId, hourKey sample.hourNow, dateKey sample.dateNow⟩

def usage (sample : Sample) : UsageMetrics := ((decodedUsage sample.eventData).toOption).getD .zero

end Sample

variable {sample : Sample} {id : RentalId}

section Handler

variable (parsers : Parsers)

def updateUsage (sample : Sample) (metrics : UsageMetrics) (cost : CreditBalance) : UsageCalls Unit := do
  let user ← ofExcept ((parsers.uuid sample.userId).mapError (fun e => .validationError "user_id" e))
  ask (UsageCall.addUsage sample.key (.ofSample user metrics cost))

def processTelemetryEvent (sample : Sample) : UsageCalls Unit := do
  let usage ← ofExcept (decodedUsage sample.eventData)
  let rental ← billingCalls (findRental sample.rentalId)
  if rental.state ≠ .active then return ()
  else
    let package ← billingCalls (getPackage rental.packageId)
    updateUsage parsers sample usage (package.calculateCost usage).totalCost
    billingCalls (recordBillingEvent "telemetry_processed" sample.rentalId)

def processSamples : List Sample → UsageTables → UsageTables
  | [], t => t
  | sample :: rest, t => processSamples rest (run serveUsage (processTelemetryEvent parsers sample) t).2

def UsageTables.Rents (t : UsageTables) (id : RentalId) (package : BillingPackage) : Prop :=
  ∃ row, t.billing.rentals.get? id = some row ∧ row.state = .active ∧
    t.billing.packages.get? (row.rental id).packageId = some package

def Sample.IsOf (sample : Sample) (id : RentalId) : Prop :=
  sample.rentalId = id ∧ ∃ user, parsers.uuid sample.userId = .ok user

variable {parsers} {t : UsageTables} {package : BillingPackage} (ht : t.Rents id package)

include ht

theorem run_processTelemetryEvent (hsample : sample.IsOf parsers id) :
    ∃ user, run serveUsage (processTelemetryEvent parsers sample) t =
      (.ok (), (t.addUsage sample.key (.ofSample user sample.usage (package.calculateCost sample.usage).totalCost)).setBilling
        (t.billing.addBillingEvent (rentalEvent "telemetry_processed" id))) := by
  obtain ⟨rfl, user, huser⟩ := hsample
  obtain ⟨row, hrow, hactive, hpackage⟩ := ht
  refine ⟨user, ?_⟩
  have hfind : run serveUsage (billingCalls (findRental sample.rentalId)) t = (.ok (row.rental sample.rentalId), t) := by
    rw [run_billingCalls, run_findRental, hrow]
    rfl
  have hget : run serveUsage (billingCalls (getPackage (row.rental sample.rentalId).packageId)) t = (.ok package, t) := by
    rw [run_billingCalls, run_getPackage hpackage]
    rfl
  have hstate : ¬ (row.rental sample.rentalId).state ≠ .active := not_not.mpr hactive
  have hdecoded : decodedUsage sample.eventData = .ok sample.usage := rfl
  unfold processTelemetryEvent
  rw [hdecoded, run_bind_ok serveUsage (run_ofExcept serveUsage (.ok sample.usage) t),
    run_bind_ok serveUsage hfind, if_neg hstate, run_bind_ok serveUsage hget]
  unfold updateUsage
  rw [huser]
  rfl

theorem periodCosts_processTelemetryEvent (hsample : sample.IsOf parsers id) :
    (run serveUsage (processTelemetryEvent parsers sample) t).2.Rents id package ∧
      (run serveUsage (processTelemetryEvent parsers sample) t).2.periodCosts id =
        t.periodCosts id + (package.calculateCost sample.usage).totalCost.micros := by
  obtain ⟨user, hrun⟩ := run_processTelemetryEvent ht hsample
  rw [hrun]
  refine ⟨ht, ?_⟩
  obtain ⟨rfl, -⟩ := hsample
  exact t.periodCosts_addUsage sample.key _

theorem periodCosts_processSamples {samples : List Sample}
    (hsamples : ∀ sample ∈ samples, sample.IsOf parsers id) : (processSamples parsers samples t).periodCosts id =
      t.periodCosts id + (samples.map (fun sample => (package.calculateCost sample.usage).totalCost.micros)).sum := by
  induction samples generalizing t with
  | nil => simp [processSamples]
  | cons sample rest ih =>
    rw [forall_mem_cons] at hsamples
    obtain ⟨hrents, hcosts⟩ := periodCosts_processTelemetryEvent ht hsamples.1
    rw [processSamples, ih hrents hsamples.2, hcosts, map_cons, sum_cons, add_assoc]

end Handler

def summedUsage (samples : List Sample) : UsageMetrics := samples.foldr (fun sample total => sample.usage.add total) .zero

def pricedHours (samples : List Sample) : List ℚ := samples.map (fun sample => max sample.usage.gpuHours 1)

def jointHours (samples : List Sample) : ℚ := max (summedUsage samples).gpuHours 1

section Hours

variable {samples : List Sample} {package : BillingPackage}

section

variable (package : BillingPackage) (samples : List Sample)

theorem gpuHours_summedUsage :
    (summedUsage samples).gpuHours = (samples.map (fun sample => sample.usage.gpuHours)).sum := by
  induction samples with
  | nil => rfl
  | cons sample rest ih =>
    rw [map_cons, sum_cons, ← ih]
    rfl

theorem totalCost_micros (usage : UsageMetrics) :
    (package.calculateCost usage).totalCost.micros = roundHalfEven (package.hourlyRate.micros * max usage.gpuHours 1) :=
  congrArg CreditBalance.micros CreditBalance.multiply_eq

theorem abs_costs_sub_le : |((samples.map (fun sample => (package.calculateCost sample.usage).totalCost.micros)).sum : ℚ) -
      package.hourlyRate.micros * (pricedHours samples).sum| ≤ samples.length / 2 := by
  have hround := abs_sum_roundHalfEven_sub_le ((pricedHours samples).map ((package.hourlyRate.micros : ℚ) * ·))
  have hcosts : ((pricedHours samples).map ((package.hourlyRate.micros : ℚ) * ·)).map roundHalfEven =
      samples.map (fun sample => (package.calculateCost sample.usage).totalCost.micros) := by
    unfold pricedHours
    rw [map_map, map_map]
    apply map_congr_left
    intro sample _
    exact (totalCost_micros package sample.usage).symm
  have hlength : (pricedHours samples).length = samples.length := length_map _
  rwa [hcosts, sum_map_mul_left, map_id', length_map, hlength] at hround

theorem abs_jointCost_sub_le : |((package.calculateCost (summedUsage samples)).totalCost.micros : ℚ) -
      package.hourlyRate.micros * jointHours samples| ≤ 1 / 2 := by
  rw [totalCost_micros]
  exact abs_roundHalfEven_sub_le _

theorem pricedHours_cons (sample : Sample) (rest : List Sample) :
    (pricedHours (sample :: rest)).sum = max sample.usage.gpuHours 1 + (pricedHours rest).sum := by
  rw [pricedHours, map_cons, sum_cons, pricedHours]

theorem length_le_pricedHours : (samples.length : ℚ) ≤ (pricedHours samples).sum := by
  induction samples with
  | nil => rfl
  | cons sample rest ih =>
    rw [pricedHours_cons, length_cons, Nat.cast_succ]
    linarith [le_max_right sample.usage.gpuHours 1]

theorem gpuHours_le_pricedHours : (samples.map (fun sample => sample.usage.gpuHours)).sum ≤ (pricedHours samples).sum :=
  sum_le_sum (fun sample _ => le_max_left sample.usage.gpuHours 1)

theorem gpuHours_eq_pricedHours_iff : (samples.map (fun sample => sample.usage.gpuHours)).sum = (pricedHours samples).sum ↔
      ∀ sample ∈ samples, 1 ≤ sample.usage.gpuHours := by
  induction samples with
  | nil => simp [pricedHours]
  | cons sample rest ih =>
    rw [pricedHours_cons, map_cons, sum_cons, forall_mem_cons, ← ih]
    have hfirst := le_max_left sample.usage.gpuHours 1
    have hrest := gpuHours_le_pricedHours rest
    rw [← max_eq_left_iff]
    constructor
    · intro h
      exact ⟨by linarith, by linarith⟩
    · rintro ⟨hmax, hsum⟩
      rw [hmax, hsum]

end

theorem one_le_length (hne : samples ≠ []) : (1 : ℚ) ≤ samples.length := by exact_mod_cast length_pos_iff.mpr hne

theorem jointHours_le (hne : samples ≠ []) : jointHours samples ≤ (pricedHours samples).sum := by
  unfold jointHours
  rw [gpuHours_summedUsage]
  exact max_le (gpuHours_le_pricedHours samples) ((one_le_length hne).trans (length_le_pricedHours samples))

theorem jointHours_eq_iff (hne : samples ≠ []) : jointHours samples = (pricedHours samples).sum ↔
      samples.length = 1 ∨ ∀ sample ∈ samples, 1 ≤ sample.usage.gpuHours := by
  have hlength := length_le_pricedHours samples
  unfold jointHours
  rw [gpuHours_summedUsage]
  constructor
  · intro h
    by_cases hone : samples.length = 1
    · exact Or.inl hone
    · have hpos := length_pos_iff.mpr hne
      have htwo : (2 : ℚ) ≤ samples.length := by exact_mod_cast (by omega : 2 ≤ samples.length)
      refine Or.inr ((gpuHours_eq_pricedHours_iff samples).mp ?_)
      rcases max_choice (samples.map (fun sample => sample.usage.gpuHours)).sum 1 with hmax | hmax
      · rw [← h, hmax]
      · linarith
  · rintro (hone | hall)
    · obtain ⟨sample, rfl⟩ := length_eq_one_iff.mp hone
      simp [pricedHours]
    · have hsum := (gpuHours_eq_pricedHours_iff samples).mpr hall
      rw [hsum]
      exact max_eq_left ((one_le_length hne).trans hlength)

end Hours

section Agreement

def freshRental (id : RentalId) (package : BillingPackage) : UsageTables where
  billing := { oneRental .active with
    rentals := AssocMap.empty.insert id ⟨"alice", "executor", some "validator", some package.id, "active", none, none, none⟩
    packages := AssocMap.empty.insert package.id package }
  aggregations := AssocMap.empty

theorem freshRental_rents (id : RentalId) (package : BillingPackage) : (freshRental id package).Rents id package := by
  refine ⟨⟨"alice", "executor", some "validator", some package.id, "active", none, none, none⟩, ?_, rfl, ?_⟩
  · exact (get?_insert rfl _ id).trans (if_pos rfl)
  · exact (get?_insert rfl _ package.id).trans (if_pos rfl)

def CostsAgree (parsers : Parsers) (id : RentalId) (package : BillingPackage) (samples : List Sample) (t : UsageTables) :
    Prop :=
  |(processSamples parsers samples t).periodCosts id - (package.calculateCost (summedUsage samples)).totalCost.micros| ≤
    samples.length

instance (parsers : Parsers) (id : RentalId) (package : BillingPackage) (samples : List Sample) (t : UsageTables) :
    Decidable (CostsAgree parsers id package samples t) := inferInstanceAs (Decidable (_ ≤ _))

variable {parsers : Parsers} {package : BillingPackage} {samples : List Sample} {t : UsageTables}
  (ht : t.Rents id package)

include ht

variable (hfresh : t.periodCosts id = 0)

include hfresh

theorem abs_periodCosts_sub_le
    (hsamples : ∀ sample ∈ samples, sample.IsOf parsers id) : |(((processSamples parsers samples t).periodCosts id -
        (package.calculateCost (summedUsage samples)).totalCost.micros : ℤ) : ℚ) -
      package.hourlyRate.micros * ((pricedHours samples).sum - jointHours samples)| ≤ (samples.length + 1) / 2 := by
  rw [periodCosts_processSamples ht hsamples, hfresh, zero_add, Int.cast_sub]
  have hcosts := abs_le.mp (abs_costs_sub_le package samples)
  have hjoint := abs_le.mp (abs_jointCost_sub_le package samples)
  rw [mul_sub]
  exact abs_le.mpr ⟨by linarith, by linarith⟩

theorem costsAgree_of_hours (hne : samples ≠ [])
    (hsamples : ∀ sample ∈ samples, sample.IsOf parsers id) (hhours : jointHours samples = (pricedHours samples).sum) :
    CostsAgree parsers id package samples t := by
  have hnear := abs_periodCosts_sub_le ht hfresh hsamples
  rw [hhours, sub_self, mul_zero, sub_zero] at hnear
  have hpos := one_le_length hne
  have hle := hnear.trans (by linarith : ((samples.length : ℚ) + 1) / 2 ≤ samples.length)
  unfold CostsAgree
  exact_mod_cast hle

theorem not_costsAgree_of_rate
    (hsamples : ∀ sample ∈ samples, sample.IsOf parsers id)
    (hrate : 2 * (samples.length + 1) <
      (package.hourlyRate.micros : ℚ) * ((pricedHours samples).sum - jointHours samples)) :
    ¬ CostsAgree parsers id package samples t := by
  intro hagree
  unfold CostsAgree at hagree
  have hdiff := (abs_le.mp hagree).2
  have hnear := (abs_le.mp (abs_periodCosts_sub_le ht hfresh hsamples)).1
  have hcast : (((processSamples parsers samples t).periodCosts id -
      (package.calculateCost (summedUsage samples)).totalCost.micros : ℤ) : ℚ) ≤ samples.length := by exact_mod_cast hdiff
  have hlength : (0 : ℚ) ≤ samples.length := Nat.cast_nonneg _
  linarith

end Agreement

theorem costs_agree_iff (parsers : Parsers) (id : RentalId) (samples : List Sample) (hne : samples ≠ [])
    (hsamples : ∀ sample ∈ samples, sample.IsOf parsers id) :
    (∀ (package : BillingPackage) (t : UsageTables), 0 ≤ package.hourlyRate.micros → t.Rents id package →
        t.periodCosts id = 0 → CostsAgree parsers id package samples t) ↔
      samples.length = 1 ∨ ∀ sample ∈ samples, 1 ≤ sample.usage.gpuHours := by
  rw [← jointHours_eq_iff hne]
  constructor
  · intro h
    by_contra hhours
    have hextra : 0 < (pricedHours samples).sum - jointHours samples :=
      sub_pos.mpr (lt_of_le_of_ne (jointHours_le hne) hhours)
    obtain ⟨rate, hrate⟩ := exists_nat_gt (2 * ((samples.length : ℚ) + 1) / ((pricedHours samples).sum - jointHours samples))
    let package : BillingPackage := ⟨"h100", ⟨rate⟩⟩
    refine not_costsAgree_of_rate (freshRental_rents id package) rfl hsamples ?_
      (h package (freshRental id package) (Int.natCast_nonneg rate) (freshRental_rents id package) rfl)
    rw [div_lt_iff₀ hextra] at hrate
    exact_mod_cast hrate
  · intro hhours package t _ ht hfresh
    exact costsAgree_of_hours ht hfresh hne hsamples hhours

def plainSample (percent : ℚ) (now : ℤ) : Sample :=
  ⟨1, "7", .object [("gpu_metrics", .object [("utilization", .number percent)])], now, now⟩

example :
    let samples := [plainSample 50 0, plainSample 50 60]
    (processSamples plainParsers samples (freshRental 1 h100)).periodCosts 1 = 7000000 ∧
      (h100.calculateCost (summedUsage samples)).totalCost = ⟨3500000⟩ ∧
      ¬ CostsAgree plainParsers 1 h100 samples (freshRental 1 h100) := by
  decide +kernel

theorem gpuHours_of_stored (data : TelemetryData) (h : sample.eventData = .object data.eventData) :
    sample.usage.gpuHours = 1 := by
  have hkey : (Json.object data.eventData).get "gpu_metrics" =
      some ((data.resourceUsage.map TelemetryData.gpuMetrics).getD .null) := rfl
  change gpuHoursOf (sample.eventData.get "gpu_metrics") = 1
  rw [h, hkey]
  cases data.resourceUsage with
  | none => rfl
  | some usage => exact gpuHoursOf_written usage

def Sample.StoredBy (parsers : Parsers) (received : List TelemetryData) (t : BillingTables) (sample : Sample) : Prop :=
  ∃ fields ∈ (ingest parsers received t).usageEvents.filterMap (UsageEvent.telemetryOf sample.rentalId),
    sample.eventData = .object fields

theorem stored_costs_agree (parsers : Parsers) (id : RentalId) (package : BillingPackage) (received : List TelemetryData)
    (billing : BillingTables) (samples : List Sample) (t : UsageTables)
    (hnew : billing.usageEvents.filterMap (UsageEvent.telemetryOf id) = []) (hne : samples ≠ [])
    (hsamples : ∀ sample ∈ samples, sample.IsOf parsers id ∧ sample.StoredBy parsers received billing)
    (hrate : 0 ≤ package.hourlyRate.micros) (ht : t.Rents id package) (hfresh : t.periodCosts id = 0) :
    CostsAgree parsers id package samples t := by
  refine (costs_agree_iff parsers id samples hne (fun sample h => (hsamples sample h).1)).mpr (Or.inr ?_) package t
    hrate ht hfresh
  intro sample h
  obtain ⟨⟨rfl, -⟩, fields, hfields, hdata⟩ := hsamples sample h
  rcases telemetryOf_ingest parsers sample.rentalId received hfields with hold | ⟨data, rfl⟩
  · rw [hnew] at hold
    exact absurd hold not_mem_nil
  · exact (gpuHours_of_stored data hdata).ge

def storedSample (data : TelemetryData) : Sample := ⟨1, "7", .object data.eventData, 0, 0⟩

theorem stored_costs_agree_two_samples :
    CostsAgree plainParsers 1 h100 [storedSample (gpuSample [50]), storedSample (gpuSample [20, 30])] (freshRental 1 h100) := by
  refine stored_costs_agree plainParsers 1 h100 [gpuSample [50], gpuSample [20, 30]] (oneRental .active) _
    (freshRental 1 h100) rfl (cons_ne_nil _ _) ?_ (by decide) (freshRental_rents 1 h100) rfl
  simp only [forall_mem_cons]
  exact ⟨⟨⟨rfl, 7, rfl⟩, _, mem_cons_self, rfl⟩, ⟨⟨rfl, 7, rfl⟩, _, mem_cons_of_mem _ mem_cons_self, rfl⟩,
    fun _ h => absurd h not_mem_nil⟩

end Basilica.Billing
