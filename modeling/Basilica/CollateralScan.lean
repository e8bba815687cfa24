import Basilica.CollateralReplay
import Basilica.Grouping

/-!
The scan loop that follows the chain. A `Chain` is what a node answers to `get_logs`: the logs of the
contract in log order, each of a block after the one the contract was deployed in.
-/

namespace Basilica.Collateral

open CheckedSteps Grouping Statements List

/-- `decoded` is what the topics and the data decode to, `none` for the events that are not followed. -/
structure Log where
  blockNumber : Option ℕ
  removed : Bool
  decoded : Except Failure (Option CollateralEvent)

def Log.entry (l : Log) : Option (ℕ × CollateralEvent) :=
  match l.removed, l.blockNumber, l.decoded with
  | false, some b, .ok (some e) => some (b, e)
  | _, _, _ => none

structure Chain where
  logs : List Log
  numbered : ∀ l ∈ logs, ∃ b, l.blockNumber = some b ∧ contractDeployedBlockNumber < b
  ordered : logs.Pairwise (fun l l' => ∀ b ∈ l.blockNumber, ∀ b' ∈ l'.blockNumber, b ≤ b')
  words : ∀ l ∈ logs, ∀ e, l.decoded = .ok (some e) → e.Word

variable (chain : Chain)

def Chain.getLogs (fromBlock toBlock : ℕ) : List Log :=
  chain.logs.filter (fun l => l.blockNumber.any (fun b => fromBlock ≤ b ∧ b ≤ toBlock))

def Chain.events : List (ℕ × CollateralEvent) := chain.logs.filterMap Log.entry

abbrev EventsMap := List (ℕ × List CollateralEvent)

def maxBlocksPerScan : ℕ := 1000

def groupLogs : List Log → EventsMap → Except Failure EventsMap
  | [], m => .ok m
  | log :: logs, m =>
    if log.removed then groupLogs logs m
    else
      match log.blockNumber with
      | none => .error (.message "Block number not available in event")
      | some b => do
        match ← log.decoded with
        | some e => groupLogs logs (push b e m)
        | none => groupLogs logs m

def scanEventsWithScope (fromBlock toBlock : ℕ) : Except Failure (ℕ × EventsMap) := do
  let m ← groupLogs (chain.getLogs fromBlock toBlock) []
  return (toBlock, m)

def scanEvents (head fromBlock : ℕ) : Except Failure (ℕ × EventsMap) := do
  let currentBlock := saturatingSub head 1
  revertIf (fromBlock > currentBlock) (.message "from_block must be less than current_block")
  let toBlock := fromBlock + maxBlocksPerScan
  scanEventsWithScope chain fromBlock (if toBlock > currentBlock then currentBlock else toBlock)

/-- One call of the scan: what the node reports as its head (or the error of a call to it), the order
in which the map of the events is walked, and how many statements succeed before the database fails
or the process stops. -/
structure Attempt where
  head : Except Failure ℕ
  order : ∀ m : EventsMap, { l : EventsMap // l.Perm m }
  failure : Option ℕ

def Attempt.scan (a : Attempt) (fromBlock : ℕ) : Except Failure (ℕ × EventsMap) := do
  let head ← a.head
  scanEvents chain head fromBlock

def handleBlock (b : ℕ) (events : List CollateralEvent) : Program Db Failure Unit := do
  handleAll events
  updateLastScannedBlockNumber b

def handleBlocks : EventsMap → Program Db Failure Unit
  | [] => pure ()
  | (b, events) :: rest => do
    handleBlock b events
    handleBlocks rest

def scanHandleCollateralEvents (a : Attempt) : Program Db Failure Unit := do
  let lastBlock ← getLastScannedBlockNumber
  let (toBlock, eventsMap) ← fromExcept (a.scan chain (lastBlock + 1))
  handleBlocks (sortByKey (a.order eventsMap).1)
  updateLastScannedBlockNumber toBlock

theorem Log.entry_eq_some {l : Log} {b : ℕ} {e : CollateralEvent} :
    l.entry = some (b, e) ↔ l.removed = false ∧ l.blockNumber = some b ∧ l.decoded = .ok (some e) := by
  obtain ⟨blockNumber, removed, decoded⟩ := l
  cases removed with
  | true => simp [Log.entry]
  | false =>
    cases blockNumber with
    | none => simp [Log.entry]
    | some b' =>
      cases decoded with
      | error f => simp [Log.entry]
      | ok o => cases o <;> simp [Log.entry]

theorem Chain.events_ordered : chain.events.Pairwise (fun x y => x.1 ≤ y.1) := by
  rw [Chain.events, pairwise_filterMap]
  apply chain.ordered.imp
  rintro l l' h ⟨b, e⟩ hx ⟨b', e'⟩ hy
  exact h b (Log.entry_eq_some.mp hx).2.1 b' (Log.entry_eq_some.mp hy).2.1

theorem Chain.events_words : ∀ x ∈ chain.events, x.2.Word := by
  rintro ⟨b, e⟩ hx
  obtain ⟨l, hl, hle⟩ := mem_filterMap.mp hx
  exact chain.words l hl e (Log.entry_eq_some.mp hle).2.2

theorem Chain.events_after_deployment : upTo contractDeployedBlockNumber chain.events = [] := by
  rw [upTo, map_eq_nil_iff, filter_eq_nil_iff]
  rintro ⟨b, e⟩ hx
  obtain ⟨l, hl, hle⟩ := mem_filterMap.mp hx
  obtain ⟨b', hb', hlt⟩ := chain.numbered l hl
  obtain rfl := Option.some.inj (hb'.symm.trans (Log.entry_eq_some.mp hle).2.1)
  simpa using hlt

theorem Chain.getLogs_entries (fromBlock toBlock : ℕ) : (chain.getLogs fromBlock toBlock).filterMap Log.entry =
      chain.events.filter (fun x => fromBlock ≤ x.1 ∧ x.1 ≤ toBlock) := by
  rw [Chain.getLogs, Chain.events, filterMap_filter, filter_filterMap]
  congr 1
  funext l
  cases h : l.entry with
  | none => simp
  | some x =>
    obtain ⟨b, e⟩ := x
    rw [(Log.entry_eq_some.mp h).2.1]
    by_cases hb : fromBlock ≤ b ∧ b ≤ toBlock <;> simp [Option.filter, hb]

theorem groupLogs_groups {logs : List Log} {m m' : EventsMap} {xs : List (ℕ × CollateralEvent)}
    (hm : Groups m xs) (h : groupLogs logs m = .ok m') : Groups m' (xs ++ logs.filterMap Log.entry) := by
  induction logs generalizing m xs with
  | nil =>
    cases h
    simpa using hm
  | cons l logs ih =>
    obtain ⟨blockNumber, removed, decoded⟩ := l
    cases removed with
    | true => exact ih hm h
    | false =>
      cases blockNumber with
      | none => cases h
      | some b =>
        cases decoded with
        | error f => cases h
        | ok o =>
          cases o with
          | none => exact ih hm h
          | some e =>
            have hrest := ih (hm.push b e) h
            rwa [append_assoc] at hrest

theorem valuesAt_filter (xs : List (ℕ × CollateralEvent)) (fromBlock toBlock b : ℕ) :
    valuesAt b (xs.filter (fun x => fromBlock ≤ x.1 ∧ x.1 ≤ toBlock)) =
      if fromBlock ≤ b ∧ b ≤ toBlock then valuesAt b xs else [] := by
  rw [valuesAt, filter_filter]
  split_ifs with h
  · congr 1
    apply filter_congr
    intro x _
    by_cases hx : x.1 = b <;> simp [hx, h]
  · rw [map_eq_nil_iff, filter_eq_nil_iff]
    intro x _
    simp only [Bool.and_eq_true, decide_eq_true_eq, not_and]
    rintro rfl
    exact not_and.mp h

theorem Attempt.scan_leads {chain : Chain} {a : Attempt} {lo toBlock : ℕ} {m : EventsMap}
    (h : a.scan chain (lo + 1) = .ok (toBlock, m)) : Leads chain.events lo (sortByKey (a.order m).1) toBlock := by
  simp only [Attempt.scan, scanEvents, scanEventsWithScope, bind_ok_iff, revertIf_eq_ok, exists_const] at h
  obtain ⟨head, _, hfrom, m', hgroup, h⟩ := h
  obtain ⟨htoBlock, rfl⟩ := Prod.mk.inj (Except.ok.inj h)
  rw [htoBlock] at hgroup
  have hle : lo ≤ toBlock := by
    rw [← htoBlock]
    split_ifs <;> omega
  have hgroups := groupLogs_groups groups_nil hgroup
  rw [nil_append, Chain.getLogs_entries] at hgroups
  apply leads_of_sorted chain.events_ordered hle
  · exact sortByKey_strict (((a.order m').2.map Prod.fst).nodup_iff.mpr hgroups.nodup)
  · intro b as
    rw [mem_sortByKey, (a.order m').2.mem_iff, hgroups.mem_iff, valuesAt_filter]
    split_ifs with hb
    · exact ⟨fun h => ⟨hb, h⟩, fun h => h.2⟩
    · constructor
      · rintro ⟨rfl, hne⟩
        exact absurd rfl hne
      · rintro ⟨hb', _⟩
        exact absurd hb' hb

end Basilica.Collateral
