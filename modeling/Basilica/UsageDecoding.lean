import Basilica.TelemetryUsage

/-!
The data of a telemetry event as the event handlers read it. They read what the telemetry processor wrote, under
the same keys but not always with the same meaning.
-/

namespace Basilica.Billing

open AssocMaps AtomicCalls Calls Decimals Option TelemetryData

namespace Json

def get (key : String) : Json → Option Json
  | .object fields => fields.lookup key
  | _ => none

def asF64 : Json → Option ℚ
  | .number value => some value
  | _ => none

def asU64 : Json → Option UInt64
  | .number value => if value.den = 1 ∧ 0 ≤ value.num ∧ value.num < 2 ^ 64 then some (.ofNat value.num.toNat) else none
  | _ => none

theorem asU64_number (n : UInt64) : (Json.number n.toNat).asU64 = some n := by
  have hlt : ((n.toNat : ℤ)) < 2 ^ 64 := by
    have := n.toNat_lt
    omega
  rw [asU64, if_pos ⟨Rat.den_natCast n.toNat, by simp, by simpa using hlt⟩]
  simp

end Json

structure TelemetryFields where
  cpuPercent : Option ℚ
  memoryMb : Option UInt64
  networkRxBytes : Option UInt64
  networkTxBytes : Option UInt64
  diskReadBytes : Option UInt64
  diskWriteBytes : Option UInt64
  gpuMetrics : Option Json
  customMetrics : Option Json

def parseTelemetryData (eventData : Json) : Except BillingError TelemetryFields :=
  .ok {
    cpuPercent := (eventData.get "cpu_percent").bind Json.asF64
    memoryMb := (eventData.get "memory_mb").bind Json.asU64
    networkRxBytes := (eventData.get "network_rx_bytes").bind Json.asU64
    networkTxBytes := (eventData.get "network_tx_bytes").bind Json.asU64
    diskReadBytes := (eventData.get "disk_read_bytes").bind Json.asU64
    diskWriteBytes := (eventData.get "disk_write_bytes").bind Json.asU64
    gpuMetrics := eventData.get "gpu_metrics"
    customMetrics := eventData.get "custom_metrics" }

def wholeGb (a b : Option UInt64) : ℚ := ((a.getD 0 + b.getD 0).toNat / 1073741824 : ℕ)

/-- A utilization that is not a number counts as full use of one GPU. -/
def gpuHoursOf (gpuMetrics : Option Json) : ℚ :=
  (((gpuMetrics.bind (Json.get "utilization")).bind Json.asF64).map (fun percent => percent / 100)).getD 1

def telemetryToUsageMetrics (telemetry : TelemetryFields) : UsageMetrics where
  cpuHours := telemetry.cpuPercent.getD 0 / 100
  memoryGbHours := (telemetry.memoryMb.map (fun mb => (mb.toNat : ℚ) / 1024)).getD 0
  gpuHours := gpuHoursOf telemetry.gpuMetrics
  networkGb := wholeGb telemetry.networkRxBytes telemetry.networkTxBytes
  storageGbHours := 0
  diskIoGb := wholeGb telemetry.diskReadBytes telemetry.diskWriteBytes

def decodedUsage (eventData : Json) : Except BillingError UsageMetrics :=
  (parseTelemetryData eventData).map telemetryToUsageMetrics

section Written

variable {data : TelemetryData} {usage : ResourceUsage}

theorem parse_eventData (h : data.resourceUsage = some usage) : parseTelemetryData (.object data.eventData) = .ok {
      cpuPercent := some (usage.cpuPercent / 100)
      memoryMb := some usage.memoryMb
      networkRxBytes := some usage.networkRxBytes
      networkTxBytes := some usage.networkTxBytes
      diskReadBytes := some usage.diskReadBytes
      diskWriteBytes := some usage.diskWriteBytes
      gpuMetrics := some (gpuMetrics usage)
      customMetrics := some (.object (data.customMetrics.map (fun metric => (metric.1, .number metric.2)))) } := by
  have hamount (key : String) (field : ResourceUsage → UInt64)
      (hkey : (Json.object data.eventData).get key = some (.number ((data.resourceUsage.map field).getD 0).toNat)) :
      ((Json.object data.eventData).get key).bind Json.asU64 = some (field usage) := by
    rw [hkey, h, map_some, getD_some, bind_some, Json.asU64_number]
  have hcpu : ((Json.object data.eventData).get "cpu_percent").bind Json.asF64 = some (usage.cpuPercent / 100) := by
    have hkey : (Json.object data.eventData).get "cpu_percent" = some (.number data.usageMetrics.cpuHours) := rfl
    rw [hkey, usageMetrics, h]
    rfl
  have hgpu : (Json.object data.eventData).get "gpu_metrics" = some (gpuMetrics usage) := by
    have hkey : (Json.object data.eventData).get "gpu_metrics" =
        some ((data.resourceUsage.map gpuMetrics).getD .null) := rfl
    rw [hkey, h]
    rfl
  rw [parseTelemetryData, hcpu, hgpu, hamount "memory_mb" ResourceUsage.memoryMb rfl,
    hamount "network_rx_bytes" ResourceUsage.networkRxBytes rfl,
    hamount "network_tx_bytes" ResourceUsage.networkTxBytes rfl,
    hamount "disk_read_bytes" ResourceUsage.diskReadBytes rfl,
    hamount "disk_write_bytes" ResourceUsage.diskWriteBytes rfl]
  rfl

theorem gpuHoursOf_written (usage : ResourceUsage) : gpuHoursOf (some (gpuMetrics usage)) = 1 := rfl

theorem wholeGb_eq_iff (a b : UInt64) :
    wholeGb (some a) (some b) = ((a + b).toNat : ℚ) / 1073741824 ↔ 1073741824 ∣ (a + b).toNat := by
  change (((a + b).toNat / 1073741824 : ℕ) : ℚ) = _ ↔ _
  rw [eq_div_iff (by norm_num)]
  constructor
  · intro h
    refine ⟨(a + b).toNat / 1073741824, ?_⟩
    have hcast : ((a + b).toNat / 1073741824 : ℕ) * 1073741824 = (a + b).toNat := by exact_mod_cast h
    omega
  · intro h
    exact_mod_cast Nat.div_mul_cancel h

theorem gpuHours_eq_one_iff (gpus : List GpuUsage) :
    (gpus.map (fun gpu => gpu.utilizationPercent / 100)).sum = 1 ↔ (gpus.map GpuUsage.utilizationPercent).sum = 100 := by
  have hsum : (gpus.map (fun gpu => gpu.utilizationPercent / 100)).sum =
      (gpus.map GpuUsage.utilizationPercent).sum / 100 := by
    simp only [div_eq_mul_inv, List.sum_map_mul_right]
  rw [hsum, div_eq_iff (by norm_num), one_mul]

structure ResourceUsage.Plain (usage : ResourceUsage) : Prop where
  cpu : usage.cpuPercent = 0
  gpu : (usage.gpuUsage.map GpuUsage.utilizationPercent).sum = 100
  network : 1073741824 ∣ (usage.networkRxBytes + usage.networkTxBytes).toNat
  disk : 1073741824 ∣ (usage.diskReadBytes + usage.diskWriteBytes).toNat

theorem decodedUsage_eq_iff (data : TelemetryData) (usage : ResourceUsage) (h : data.resourceUsage = some usage) :
    decodedUsage (.object data.eventData) = .ok data.usageMetrics ↔ usage.Plain := by
  rw [decodedUsage, parse_eventData h, usageMetrics, h, Except.map, Except.ok.injEq, telemetryToUsageMetrics,
    gpuHoursOf_written, UsageMetrics.mk.injEq]
  simp only [getD_some, map_some, wholeGb_eq_iff, true_and]
  rw [eq_comm (a := (1 : ℚ)), gpuHours_eq_one_iff]
  constructor
  · rintro ⟨hgpu, hcpu, hnetwork, hdisk⟩
    exact ⟨by linarith, hgpu, hnetwork, hdisk⟩
  · rintro ⟨hcpu, hgpu, hnetwork, hdisk⟩
    exact ⟨hgpu, by rw [hcpu]; norm_num, hnetwork, hdisk⟩

theorem decodedUsage_eq_idle :
    let data : TelemetryData := ⟨"1", "executor", some ⟨0, 2048, 1073741824, 0, 0, 0, [⟨60, 512⟩, ⟨40, 512⟩]⟩, []⟩
    decodedUsage (.object data.eventData) = .ok data.usageMetrics := by
  intro data
  exact (decodedUsage_eq_iff data _ rfl).mpr ⟨rfl, by norm_num, by decide, by decide⟩

theorem decodedUsage_of_busy_sample : (gpuSample [100, 100]).usageMetrics = ⟨2, 1 / 2, 1, 0, 0, 0⟩ ∧
      decodedUsage (.object (gpuSample [100, 100]).eventData) = .ok ⟨1, 1 / 200, 1, 0, 0, 0⟩ := by
  decide +kernel

end Written

end Basilica.Billing
