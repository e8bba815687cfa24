import Basilica.BillingService

/-!
Telemetry as it is written by the telemetry processor and read back when a rental ends.
-/

namespace Basilica.Billing

open AssocMaps AtomicCalls Calls Decimals List

structure GpuUsage where
  utilizationPercent : ℚ
  memoryUsedMb : UInt64

structure ResourceUsage where
  cpuPercent : ℚ
  memoryMb : UInt64
  networkRxBytes : UInt64
  networkTxBytes : UInt64
  diskReadBytes : UInt64
  diskWriteBytes : UInt64
  gpuUsage : List GpuUsage

structure TelemetryData where
  rentalId : String
  executorId : String
  resourceUsage : Option ResourceUsage
  customMetrics : List (String × ℚ)

namespace TelemetryData

def usageMetrics (data : TelemetryData) : UsageMetrics :=
  match data.resourceUsage with
  | some usage =>
    { cpuHours := usage.cpuPercent / 100
      memoryGbHours := usage.memoryMb.toNat / 1024
      gpuHours := (usage.gpuUsage.map (fun gpu => gpu.utilizationPercent / 100)).sum
      networkGb := (usage.networkRxBytes + usage.networkTxBytes).toNat / 1073741824
      storageGbHours := 0
      diskIoGb := (usage.diskReadBytes + usage.diskWriteBytes).toNat / 1073741824 }
  | none => .zero

def gpuMetrics (usage : ResourceUsage) : Json :=
  .object [("gpu_count", .number usage.gpuUsage.length),
    ("utilization", .array (usage.gpuUsage.map (fun gpu => .number gpu.utilizationPercent))),
    ("memory_used", .array (usage.gpuUsage.map (fun gpu => .number gpu.memoryUsedMb.toNat)))]

/-- The stored object. Its `cpu_percent` is the computed share and not the percentage. -/
def eventData (data : TelemetryData) : List (String × Json) :=
  let amount (field : ResourceUsage → UInt64) : Json := .number ((data.resourceUsage.map field).getD 0).toNat
  [("cpu_percent", .number data.usageMetrics.cpuHours),
    ("memory_mb", amount ResourceUsage.memoryMb),
    ("network_rx_bytes", amount ResourceUsage.networkRxBytes),
    ("network_tx_bytes", amount ResourceUsage.networkTxBytes),
    ("disk_read_bytes", amount ResourceUsage.diskReadBytes),
    ("disk_write_bytes", amount ResourceUsage.diskWriteBytes),
    ("gpu_metrics", (data.resourceUsage.map gpuMetrics).getD .null),
    ("custom_metrics", .object (data.customMetrics.map (fun metric => (metric.1, .number metric.2))))]

end TelemetryData

variable (data : TelemetryData)

def TelemetryData.event (id : RentalId) (rental : Rental) : UsageEvent :=
  ⟨id, rental.userId, data.executorId, rental.validatorId, .telemetry data.eventData⟩

def TelemetryData.gpuPercent : ℚ :=
  match data.resourceUsage with
  | some usage => (usage.gpuUsage.map GpuUsage.utilizationPercent).sum
  | none => 0

theorem TelemetryData.gpuHours_usageMetrics : data.usageMetrics.gpuHours = data.gpuPercent / 100 := by
  unfold usageMetrics gpuPercent
  cases data.resourceUsage with
  | none => simp [UsageMetrics.zero]
  | some usage => simp only [div_eq_mul_inv, sum_map_mul_right]

section Processor

variable (parsers : Parsers) (t : BillingTables)

def readRentalId (text : String) : Except BillingError RentalId :=
  (parsers.uuid text).mapError (fun e => .validationError "rental_id" s!"Invalid rental ID: {e}")

def processTelemetry (data : TelemetryData) : BillingCalls Unit := do
  let id ← ofExcept (readRentalId parsers data.rentalId)
  match ← catching (getRental id) with
  | .error _ => fail (.validationError "rental_id" "Failed to fetch rental")
  | .ok none => fail (.validationError "rental_id" s!"Rental not found: {id}")
  | .ok (some rental) =>
    match ← catching (appendUsageEvent (data.event id rental)) with
    | .error _ => fail (.telemetryError "append_usage_event")
    | .ok () => return ()

def ingest : List TelemetryData → BillingTables → BillingTables
  | [], t => t
  | data :: rest, t => ingest rest (run serve (processTelemetry parsers data) t).2

def reportedUsage (id : RentalId) : List TelemetryData → BillingTables → UsageMetrics
  | [], _ => .zero
  | data :: rest, t =>
    let usage := reportedUsage id rest (run serve (processTelemetry parsers data) t).2
    if parsers.uuid data.rentalId = .ok id ∧ (run serve (processTelemetry parsers data) t).1 = .ok ()
    then data.usageMetrics.add usage else usage

def recipient (data : TelemetryData) : Option RentalId :=
  match parsers.uuid data.rentalId with
  | .error _ => none
  | .ok id =>
    match t.rental? id with
    | none => none
    | some rental => if (data.event id rental).checkIds = .ok () then some id else none

variable (data : TelemetryData)

theorem run_processTelemetry :
    (∃ e, recipient parsers t data = none ∧ run serve (processTelemetry parsers data) t = (.error e, t)) ∨
      ∃ id rental, parsers.uuid data.rentalId = .ok id ∧ recipient parsers t data = some id ∧
        run serve (processTelemetry parsers data) t = (.ok (), t.addUsageEvent (data.event id rental)) := by
  unfold recipient processTelemetry readRentalId
  cases parsers.uuid data.rentalId with
  | error e => exact Or.inl ⟨_, rfl, rfl⟩
  | ok id =>
    dsimp only
    rw [Except.mapError, run_bind_ok serve (run_ofExcept serve (.ok id) t), run_bind_ok serve (run_catching serve _ t),
      run_getRental]
    cases t.rental? id with
    | none => exact Or.inl ⟨_, rfl, rfl⟩
    | some rental =>
      dsimp only
      rw [run_bind_ok serve (run_catching serve _ t), run_appendUsageEvent]
      cases (data.event id rental).checkIds with
      | error e => exact Or.inl ⟨_, if_neg (by simp), rfl⟩
      | ok _ => exact Or.inr ⟨id, rental, rfl, if_pos rfl, rfl⟩

theorem recipient_processTelemetry (first data : TelemetryData) :
    recipient parsers (run serve (processTelemetry parsers first) t).2 data = recipient parsers t data := by
  rcases run_processTelemetry parsers t first with ⟨e, -, hrun⟩ | ⟨id, rental, -, -, hrun⟩
  · rw [hrun]
  · rw [hrun]
    rfl

variable {fields : List (String × Json)}

variable (id : RentalId) (samples : List TelemetryData)

theorem telemetryOf_ingest {t : BillingTables}

    (h : fields ∈ (ingest parsers samples t).usageEvents.filterMap (UsageEvent.telemetryOf id)) :
    fields ∈ t.usageEvents.filterMap (UsageEvent.telemetryOf id) ∨ ∃ data : TelemetryData, fields = data.eventData := by
  induction samples generalizing t with
  | nil => exact Or.inl h
  | cons data rest ih =>
    rcases ih h with hfirst | hrest
    · rcases run_processTelemetry parsers t data with ⟨e, -, hrun⟩ | ⟨id', rental, -, -, hrun⟩
      · rw [hrun] at hfirst
        exact Or.inl hfirst
      · rw [hrun, BillingTables.addUsageEvent, filterMap_append, mem_append] at hfirst
        apply hfirst.imp_right
        intro hnew
        obtain ⟨event, hevent, hfields⟩ := mem_filterMap.mp hnew
        rw [mem_singleton.mp hevent] at hfields
        obtain ⟨-, hfields⟩ := Option.ite_none_right_eq_some.mp hfields
        exact ⟨data, (Option.some.inj hfields).symm⟩
    · exact Or.inr hrest

def gpuPercent (id : RentalId) (samples : List TelemetryData) : ℚ :=
  ((samples.filter (fun data => recipient parsers t data = some id)).map TelemetryData.gpuPercent).sum

theorem gpuPercent_cons (rest : List TelemetryData) :
    gpuPercent parsers t id (data :: rest) =
      (if recipient parsers t data = some id then data.gpuPercent else 0) + gpuPercent parsers t id rest := by
  unfold gpuPercent
  rw [filter_cons]
  split_ifs with h <;> simp_all

theorem gpuHours_reportedUsage (t : BillingTables) :
    (reportedUsage parsers id samples t).gpuHours = gpuPercent parsers t id samples / 100 := by
  induction samples generalizing t with
  | nil => simp [reportedUsage, gpuPercent, UsageMetrics.zero]
  | cons data rest ih =>
    have hrest : gpuPercent parsers (run serve (processTelemetry parsers data) t).2 id rest =
        gpuPercent parsers t id rest := by
      unfold gpuPercent
      simp only [recipient_processTelemetry]
    have hrun := ih (run serve (processTelemetry parsers data) t).2
    rw [hrest] at hrun
    have hstored : (parsers.uuid data.rentalId = .ok id ∧ (run serve (processTelemetry parsers data) t).1 = .ok ()) ↔
        recipient parsers t data = some id := by
      rcases run_processTelemetry parsers t data with ⟨e, hrecipient, hrun⟩ | ⟨id', rental, huuid, hrecipient, hrun⟩
      · simp [hrecipient, hrun]
      · simp [hrecipient, hrun, huuid]
    unfold reportedUsage
    simp only [hstored]
    rw [gpuPercent_cons, add_div, ← hrun]
    split_ifs
    · rw [← data.gpuHours_usageMetrics]
      rfl
    · rw [zero_div, zero_add]

end Processor

theorem lookup_eventData : ∀ key ∈ ["gpu_hours", "cpu_hours", "memory_gb_hours", "storage_gb_hours", "network_gb"],
      data.eventData.lookup key = none := by
  intro key hkey
  simp only [mem_cons, not_mem_nil, or_false] at hkey
  rcases hkey with rfl | rfl | rfl | rfl | rfl <;> rfl

theorem usageForRental_of_samples {events : List UsageEvent} {id : RentalId}
    (h : ∀ fields ∈ events.filterMap (UsageEvent.telemetryOf id), ∃ data : TelemetryData, fields = data.eventData) :
    usageForRental events id = .ok .zero := by
  have hmissing : ∀ key ∈ ["gpu_hours", "cpu_hours", "memory_gb_hours", "storage_gb_hours", "network_gb"],
      sumColumn key (events.filterMap (UsageEvent.telemetryOf id)) = some 0 := by
    intro key hkey
    apply sumColumn_of_missing
    intro fields hfields
    obtain ⟨data, rfl⟩ := h fields hfields
    exact lookup_eventData data key hkey
  simp only [forall_mem_cons, not_mem_nil] at hmissing
  obtain ⟨hgpu, hcpu, hmemory, hstorage, hnetwork, -⟩ := hmissing
  unfold usageForRental
  simp only [hgpu, hcpu, hmemory, hstorage, hnetwork]
  rfl

theorem calculateCost_eq_iff {package : BillingPackage} {a b : UsageMetrics} :
    package.calculateCost a = package.calculateCost b ↔
      package.hourlyRate.multiply (max a.gpuHours 1) = package.hourlyRate.multiply (max b.gpuHours 1) := by
  simp [BillingPackage.calculateCost]

def CoveredByFirstHour (rate : CreditBalance) (percent : ℚ) : Prop :=
  percent ≤ 100 ∨ |rate.micros * (percent / 100 - 1)| < 1 / 2 ∨
    |rate.micros * (percent / 100 - 1)| = 1 / 2 ∧ rate.micros % 2 = 0

theorem multiply_max_one_iff {rate : CreditBalance} {percent : ℚ} :
    rate.multiply 1 = rate.multiply (max (percent / 100) 1) ↔ CoveredByFirstHour rate percent := by
  have hone : rate.multiply 1 = rate := by rw [CreditBalance.multiply_eq, mul_one, roundHalfEven_intCast]
  rw [hone, CreditBalance.multiply_eq, eq_comm, CreditBalance.mk.injEq, roundHalfEven_eq_iff, ← mul_sub_one]
  unfold CoveredByFirstHour
  rcases le_or_gt percent 100 with hle | hgt
  · have hmax : max (percent / 100) 1 = 1 := max_eq_right (by linarith)
    simp [hmax, hle]
  · have hmax : max (percent / 100) 1 = percent / 100 := max_eq_left (by linarith)
    rw [hmax, or_iff_right (not_le.mpr hgt)]

theorem ended_cost_eq_reported_iff (parsers : Parsers) (package : BillingPackage) (id : RentalId)
    (samples : List TelemetryData) (t : BillingTables)
    (hfresh : t.usageEvents.filterMap (UsageEvent.telemetryOf id) = []) :
    (run serve (getUsageForRental id) (ingest parsers samples t)).1.map package.calculateCost =
        .ok (package.calculateCost (reportedUsage parsers id samples t)) ↔
      CoveredByFirstHour package.hourlyRate (gpuPercent parsers t id samples) := by
  have hzero : usageForRental (ingest parsers samples t).usageEvents id = .ok .zero := by
    apply usageForRental_of_samples
    intro fields hfields
    rcases telemetryOf_ingest parsers id samples hfields with hold | hnew
    · rw [hfresh] at hold
      exact absurd hold not_mem_nil
    · exact hnew
  rw [run_getUsageForRental, hzero, Except.map, Except.ok.injEq, calculateCost_eq_iff, gpuHours_reportedUsage,
    ← multiply_max_one_iff]
  rfl

def gpuSample (utilization : List ℚ) : TelemetryData :=
  ⟨"1", "executor", some ⟨50, 1024, 0, 0, 0, 0, utilization.map (fun percent => ⟨percent, 512⟩)⟩, []⟩

def h100 : BillingPackage := ⟨"h100", ⟨3500000⟩⟩

theorem ended_cost_eq_reported_half_hours :
    let samples := [gpuSample [50], gpuSample [20, 30]]
    (oneRental .active).usageEvents.filterMap (UsageEvent.telemetryOf 1) = [] ∧
      (run serve (getUsageForRental 1) (ingest plainParsers samples (oneRental .active))).1.map h100.calculateCost =
        .ok (h100.calculateCost (reportedUsage plainParsers 1 samples (oneRental .active))) := by
  intro samples
  have hfresh : (oneRental .active).usageEvents.filterMap (UsageEvent.telemetryOf 1) = [] := rfl
  refine ⟨hfresh, (ended_cost_eq_reported_iff plainParsers h100 1 samples (oneRental .active) hfresh).mpr (Or.inl ?_)⟩
  decide +kernel

theorem two_busy_gpus_billed_as_one :
    let samples := [gpuSample [100, 100]]
    (run serve (getUsageForRental 1) (ingest plainParsers samples (oneRental .active))).1.map h100.calculateCost =
        .ok ⟨⟨3500000⟩, .zero, .zero, .zero, ⟨3500000⟩⟩ ∧
      h100.calculateCost (reportedUsage plainParsers 1 samples (oneRental .active)) =
        ⟨⟨7000000⟩, .zero, .zero, .zero, ⟨7000000⟩⟩ := by
  decide +kernel

end Basilica.Billing
