import Basilica.ScanProgress
import Basilica.StepRuns

/-!
The block ranges that a run of successful scans asks the node for, and the events that the scans hand to the handlers.
-/

namespace Basilica.Collateral

open CheckedSteps Grouping Statements StepRuns List Attempt

structure Query where
  head : ℕ
  fromBlock : ℕ
  toBlock : ℕ
deriving DecidableEq

variable (chain : Chain)

def Attempt.query (a : Attempt) (db : Db) : Option Query :=
  match a.head with
  | .error _ => none
  | .ok head =>
    match scanEvents chain head (db.lastScannedBlockNumber + 1) with
    | .error _ => none
    | .ok (toBlock, _) => some ⟨head, db.lastScannedBlockNumber + 1, toBlock⟩

def Attempt.handled (a : Attempt) (db : Db) : List CollateralEvent :=
  (a.blocks chain db).flatMap Prod.snd

def Attempt.Succeeds (a : Attempt) (db : Db) : Prop := ∃ c, a.run chain db = .ok () c

instance (chain : Chain) (a : Attempt) (db : Db) : Decidable (a.Succeeds chain db) :=
  match h : a.run chain db with
  | .ok () c => isTrue ⟨c, h⟩
  | .error _ _ => isFalse (by
    rintro ⟨c, hc⟩
    cases h.symm.trans hc)

def Attempt.after (a : Attempt) (db : Db) : Db := finalDb (a.run chain db)

def Succeed : List Attempt → Db → Prop := EachStep (Attempt.after chain) (Attempt.Succeeds chain)

def queries (chain : Chain) : List Attempt → Db → List Query
  | [], _ => []
  | a :: rest, db => (a.query chain db).toList ++ queries chain rest (a.after chain db)

def handledEvents (chain : Chain) : List Attempt → Db → List CollateralEvent
  | [], _ => []
  | a :: rest, db => a.handled chain db ++ handledEvents chain rest (a.after chain db)

def Query.Asks (q : Query) (block : ℕ) : Prop := q.fromBlock ≤ block ∧ block ≤ q.toBlock

def Consecutive : ℕ → List Query → ℕ → Prop
  | s, [], t => s = t
  | s, q :: qs, t => q.fromBlock = s + 1 ∧ q.fromBlock ≤ q.toBlock ∧ Consecutive q.toBlock qs t

variable {qs : List Query}

theorem Consecutive.le {s t : ℕ} (h : Consecutive s qs t) : s ≤ t := by
  induction qs generalizing s with
  | nil => exact Nat.le_of_eq h
  | cons q qs ih =>
    obtain ⟨hfrom, hto, hrest⟩ := h
    have := ih hrest
    omega

theorem Consecutive.asks_iff {s t : ℕ} (h : Consecutive s qs t) (block : ℕ) :
    (∃ q ∈ qs, q.Asks block) ↔ s < block ∧ block ≤ t := by
  induction qs generalizing s with
  | nil =>
    obtain rfl : s = t := h
    simp only [not_mem_nil, false_and, exists_false, false_iff]
    omega
  | cons q qs ih =>
    obtain ⟨hfrom, hto, hrest⟩ := h
    have hle := hrest.le
    rw [exists_mem_cons_iff, ih hrest]
    unfold Query.Asks
    omega

theorem Consecutive.disjoint {s t : ℕ} (h : Consecutive s qs t) :
    qs.Pairwise (fun q q' => ∀ block, ¬ (q.Asks block ∧ q'.Asks block)) := by
  induction qs generalizing s with
  | nil => exact List.Pairwise.nil
  | cons q qs ih =>
    obtain ⟨hfrom, hto, hrest⟩ := h
    refine pairwise_cons.mpr ⟨?_, ih hrest⟩
    rintro q' hq' block ⟨hfirst, hlater⟩
    have hafter := ((hrest.asks_iff block).mp ⟨q', hq', hlater⟩).1
    exact absurd hfirst.2 (not_le.mpr hafter)

section Scan

variable {chain : Chain} {head fromBlock toBlock : ℕ} {m : EventsMap}

theorem scanEvents_ok (h : scanEvents chain head fromBlock = .ok (toBlock, m)) :
    fromBlock ≤ toBlock ∧ toBlock ≤ fromBlock + maxBlocksPerScan ∧ toBlock ≤ head - 1 ∧
      groupLogs (chain.getLogs fromBlock toBlock) [] = .ok m := by
  simp only [scanEvents, scanEventsWithScope, bind_ok_iff, revertIf_eq_ok, exists_const] at h
  obtain ⟨hfrom, m', hgroup, h⟩ := h
  obtain ⟨hto, rfl⟩ := Prod.mk.inj (Except.ok.inj h)
  rw [hto] at hgroup
  unfold saturatingSub at hfrom hto
  refine ⟨?_, ?_, ?_, hgroup⟩
  all_goals
    rw [← hto]
    split_ifs <;> omega

theorem handleBlocks_ok {blocks : EventsMap} {c c' : Connection Db} (h : handleBlocks blocks c = .ok () c') :
    applyAll (blocks.flatMap Prod.snd) c.db.status.entry = .ok c'.db.status.entry := by
  induction blocks generalizing c with
  | nil =>
    obtain ⟨-, rfl⟩ := pure_ok_iff.mp h
    rfl
  | cons p rest ih =>
    obtain ⟨block, events⟩ := p
    obtain ⟨_, m, hblock, hrest⟩ := seq_ok_iff.mp h
    obtain ⟨_, m', hevents, hmarker⟩ := seq_ok_iff.mp hblock
    obtain ⟨-, -, rfl⟩ := statement_total_iff.mp hmarker
    rw [flatMap_cons, applyAll_append, (handleAll_ok hevents).1]
    have hlater := ih hrest
    exact hlater

end Scan

section Runs

variable {chain : Chain} {a : Attempt} {db : Db}

theorem Attempt.run_ok {c : Connection Db} (h : a.run chain db = .ok () c) :
    ∃ head toBlock m, a.head = .ok head ∧ scanEvents chain head (db.lastScannedBlockNumber + 1) = .ok (toBlock, m) ∧
      applyAll (a.handled chain db) db.status.entry = .ok c.db.status.entry ∧ c.db.lastScannedBlockNumber = toBlock := by
  obtain ⟨lastBlock, c₁, hread, h⟩ := seq_ok_iff.mp h
  obtain ⟨-, rfl, rfl⟩ := statement_total_iff.mp hread
  obtain ⟨p, c₂, hscan, h⟩ := seq_ok_iff.mp h
  cases hanswer : a.scan chain (db.lastScannedBlockNumber + 1) with
  | error e =>
    rw [hanswer] at hscan
    exact absurd hscan throw_not_ok
  | ok answer =>
    rw [hanswer] at hscan
    obtain ⟨rfl, rfl⟩ := pure_ok_iff.mp hscan
    obtain ⟨toBlock, m⟩ := p
    obtain ⟨_, c₃, hblocks, hmarker⟩ := seq_ok_iff.mp h
    obtain ⟨-, -, rfl⟩ := statement_total_iff.mp hmarker
    obtain ⟨head, hhead, hevents⟩ := (bind_ok_iff _ _ _).mp hanswer
    refine ⟨head, toBlock, m, hhead, hevents, ?_, rfl⟩
    unfold handled blocks
    rw [hanswer]
    exact handleBlocks_ok hblocks

theorem Attempt.Succeeds.spec (h : a.Succeeds chain db) :
    ∃ q, a.query chain db = some q ∧ a.head = .ok q.head ∧ q.fromBlock = db.lastScannedBlockNumber + 1 ∧
      q.fromBlock ≤ q.toBlock ∧ q.toBlock ≤ q.head - 1 ∧ (a.after chain db).lastScannedBlockNumber = q.toBlock ∧
      upTo q.toBlock chain.events = upTo db.lastScannedBlockNumber chain.events ++ a.handled chain db ∧
      applyAll (a.handled chain db) db.status.entry = .ok (a.after chain db).status.entry := by
  obtain ⟨c, hrun⟩ := h
  obtain ⟨head, toBlock, m, hhead, hevents, happly, hmarker⟩ := run_ok hrun
  obtain ⟨hle, -, hbelow, -⟩ := scanEvents_ok hevents
  have hscan : a.scan chain (db.lastScannedBlockNumber + 1) = .ok (toBlock, m) :=
    (bind_ok_iff _ _ _).mpr ⟨head, hhead, hevents⟩
  have hafter : a.after chain db = c.db := by rw [after, hrun, finalDb]
  refine ⟨⟨head, db.lastScannedBlockNumber + 1, toBlock⟩, ?_, hhead, rfl, hle, hbelow, ?_, ?_, ?_⟩
  · unfold query
    rw [hhead]
    dsimp only
    rw [hevents]
  · rw [hafter, hmarker]
  · have happend := (scan_leads hscan).append
    unfold handled blocks
    rw [hscan]
    exact happend
  · rw [hafter]
    exact happly

theorem Succeed.spec {attempts : List Attempt} {db : Db} (h : Succeed chain attempts db) :
    let db' := last (after chain) attempts db
    attempts.map head = (queries chain attempts db).map (fun q => .ok q.head) ∧
      (∀ q ∈ queries chain attempts db, q.toBlock ≤ q.head - 1) ∧
      Consecutive db.lastScannedBlockNumber (queries chain attempts db) db'.lastScannedBlockNumber ∧
      upTo db'.lastScannedBlockNumber chain.events =
        upTo db.lastScannedBlockNumber chain.events ++ handledEvents chain attempts db ∧
      applyAll (handledEvents chain attempts db) db.status.entry = .ok db'.status.entry := by
  induction attempts generalizing db with
  | nil =>
    refine ⟨rfl, ?_, rfl, ?_, rfl⟩
    · intro q hq
      cases hq
    · exact (append_nil _).symm
  | cons a rest ih =>
    obtain ⟨hfirst, hrest⟩ := h
    obtain ⟨q, hquery, hhead, hfrom, hto, hbelow, hmarker, hupTo, happly⟩ := Attempt.Succeeds.spec hfirst
    obtain ⟨hheads, hbelows, hconsecutive, hupTos, happlies⟩ := ih hrest
    rw [hmarker] at hconsecutive hupTos
    have hqueries : queries chain (a :: rest) db = q :: queries chain rest (a.after chain db) := by
      rw [queries, hquery]
      rfl
    rw [hqueries]
    refine ⟨?_, ?_, ⟨hfrom, hto, hconsecutive⟩, ?_, ?_⟩
    · rw [map_cons, map_cons, hhead, hheads]
    · exact forall_mem_cons.mpr ⟨hbelow, hbelows⟩
    · rw [handledEvents, ← append_assoc, ← hupTo]
      exact hupTos
    · rw [handledEvents, applyAll_append, happly]
      exact happlies

end Runs

theorem scans_cover_once (chain : Chain) (attempts : List Attempt) (db : Db) (h : Succeed chain attempts db) :
    let s := db.lastScannedBlockNumber
    let db' := last (Attempt.after chain) attempts db
    let asked := queries chain attempts db
    attempts.map Attempt.head = asked.map (fun q => .ok q.head) ∧
      Consecutive s asked db'.lastScannedBlockNumber ∧
      asked.Pairwise (fun q q' => ∀ block, ¬ (q.Asks block ∧ q'.Asks block)) ∧
      (∀ q ∈ asked, ∀ block, q.Asks block → block ≤ q.head - 1) ∧
      (∀ block, (∃ q ∈ asked, q.Asks block) ↔ s < block ∧ block ≤ db'.lastScannedBlockNumber) ∧
      handledEvents chain attempts db =
        (chain.events.filter (fun x => s < x.1 ∧ x.1 ≤ db'.lastScannedBlockNumber)).map Prod.snd ∧
      applyAll (handledEvents chain attempts db) db.status.entry = .ok db'.status.entry := by
  intro s db' asked
  obtain ⟨hheads, hbelow, hconsecutive, hupTo, happly⟩ := h.spec
  refine ⟨hheads, hconsecutive, hconsecutive.disjoint, ?_, hconsecutive.asks_iff, ?_, happly⟩
  · intro q hq block hblock
    exact hblock.2.trans (hbelow q hq)
  · have hbetween := upTo_between chain.events_ordered hconsecutive.le
    rw [hbetween] at hupTo
    exact (append_cancel_left hupTo).symm

theorem scans_cover_once_two_heads :
    let attempts := [sampleAttempt 2 none, sampleAttempt 3 none]
    let db := createCollateralScannedBlocksTable
    Consecutive 0 [⟨2, 1, 1⟩, ⟨3, 2, 2⟩] 2 ∧ queries twoDeposits attempts db = [⟨2, 1, 1⟩, ⟨3, 2, 2⟩] ∧
      handledEvents twoDeposits attempts db = twoDeposits.events.map Prod.snd := by
  intro attempts db
  have hsucceed : EachStep (after twoDeposits) (Attempt.Succeeds twoDeposits) attempts db := by decide +kernel
  have hmarker : (last (after twoDeposits) attempts db).lastScannedBlockNumber = 2 := by decide +kernel
  have hqueries : queries twoDeposits attempts db = [⟨2, 1, 1⟩, ⟨3, 2, 2⟩] := by decide +kernel
  obtain ⟨-, hconsecutive, -, -, -, hhandled, -⟩ := scans_cover_once twoDeposits attempts db hsucceed
  rw [hqueries, hmarker] at hconsecutive
  refine ⟨hconsecutive, hqueries, hhandled.trans ?_⟩
  rw [hmarker]
  decide

end Basilica.Collateral
