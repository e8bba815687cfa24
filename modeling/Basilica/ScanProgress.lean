import Basilica.CollateralScan

namespace Basilica.Collateral

open CheckedSteps Grouping Statements

def Attempt.run (chain : Chain) (a : Attempt) (db : Db) : EStateM.Result Failure (Connection Db) Unit :=
  scanHandleCollateralEvents chain a ⟨db, a.failure⟩

def afterAttempts (chain : Chain) : List Attempt → Db → Db
  | [], db => db
  | a :: rest, db => afterAttempts chain rest (finalDb (a.run chain db))

def Accepted (es : List CollateralEvent) : Prop := (applyAll es (fun _ => none)).isOk = true

instance (es : List CollateralEvent) : Decidable (Accepted es) :=
  inferInstanceAs (Decidable (_ = true))

def NotBegun (events : List (ℕ × CollateralEvent)) (lo : ℕ) (left : Option ℕ) : List CollateralEvent → Prop
  | [] => False
  | e :: _ => ¬ Allows left 2 ∨ ¬ Accepted (upTo lo events ++ [e])

def blockStatements (es : List CollateralEvent) : ℕ := 2 * es.length + 1

def Completed (events : List (ℕ × CollateralEvent)) (lo : ℕ) (left : Option ℕ) (es : List CollateralEvent) : Prop :=
  Allows left (blockStatements es) ∧ Accepted (upTo lo events ++ es)

def StopsBetween (events : List (ℕ × CollateralEvent)) : ℕ → EventsMap → Option ℕ → Prop
  | _, [], _ => True
  | lo, (b, es) :: rest, left =>
    NotBegun events lo left es ∨
      Completed events lo left es ∧ StopsBetween events b rest (left.map (· - blockStatements es))

instance (events : List (ℕ × CollateralEvent)) (lo : ℕ) (left : Option ℕ) : ∀ es, Decidable (NotBegun events lo left es)
  | [] => isFalse id
  | e :: _ => inferInstanceAs (Decidable (¬ Allows left 2 ∨ ¬ Accepted (upTo lo events ++ [e])))

instance (events : List (ℕ × CollateralEvent)) (lo : ℕ) (left : Option ℕ) (es : List CollateralEvent) :
    Decidable (Completed events lo left es) :=
  inferInstanceAs (Decidable (_ ∧ _))

def decidableStopsBetween (events : List (ℕ × CollateralEvent)) :
    ∀ lo blocks left, Decidable (StopsBetween events lo blocks left)
  | _, [], _ => isTrue trivial
  | _, (b, es) :: rest, left =>
    have := decidableStopsBetween events b rest (left.map (· - blockStatements es))
    inferInstanceAs (Decidable (_ ∨ _ ∧ _))

def Attempt.blocks (chain : Chain) (a : Attempt) (db : Db) : EventsMap :=
  match a.scan chain (db.lastScannedBlockNumber + 1) with
  | .ok (_, m) => sortByKey (a.order m).1
  | .error _ => []

def Attempt.StopsBetweenBlocks (chain : Chain) (a : Attempt) (db : Db) : Prop :=
  StopsBetween chain.events db.lastScannedBlockNumber (a.blocks chain db) (a.failure.map (· - 1))

instance (chain : Chain) (a : Attempt) (db : Db) : Decidable (a.StopsBetweenBlocks chain db) :=
  decidableStopsBetween _ _ _ _

def StopBetweenBlocks (chain : Chain) : List Attempt → Db → Prop
  | [], _ => True
  | a :: rest, db => a.StopsBetweenBlocks chain db ∧ StopBetweenBlocks chain rest (finalDb (a.run chain db))

def decidableStopBetweenBlocks (chain : Chain) : ∀ attempts db, Decidable (StopBetweenBlocks chain attempts db)
  | [], _ => isTrue trivial
  | _ :: rest, _ => @instDecidableAnd _ _ _ (decidableStopBetweenBlocks chain rest _)

instance (chain : Chain) (attempts : List Attempt) (db : Db) : Decidable (StopBetweenBlocks chain attempts db) :=
  decidableStopBetweenBlocks chain attempts db

def UpToDate (chain : Chain) (db : Db) : Prop :=
  applyAll (upTo db.lastScannedBlockNumber chain.events) (fun _ => none) = .ok db.status.entry

variable {chain : Chain} {db : Db}

theorem UpToDate.accepted_iff (h : UpToDate chain db) (es : List CollateralEvent) :
    Accepted (upTo db.lastScannedBlockNumber chain.events ++ es) ↔
      ∃ t, applyAll es db.status.entry = .ok t := by
  rw [Accepted, applyAll_append, h]
  change (applyAll es db.status.entry).isOk = true ↔ _
  cases applyAll es db.status.entry with
  | error e | ok t => simp [Except.isOk, Except.toBool]

variable {b : ℕ} {es : List CollateralEvent} {c : Connection Db}

theorem handleBlock_notBegun (hc : UpToDate chain c.db)
    (h : NotBegun chain.events c.db.lastScannedBlockNumber c.left es) :
    ∃ f m, handleBlock b es c = .error f m ∧ m.db = c.db := by
  cases es with
  | nil => exact absurd h id
  | cons e es =>
    cases he : handle e c with
    | ok u m =>
      -- The first event would have been looked up, accepted and stored.
      rcases h with hleft | hrejected
      · exact absurd (handle_allows he) hleft
      · obtain ⟨x, _, hx, _⟩ := handle_ok he
        exact absurd ((hc.accepted_iff [e]).mpr ⟨_, (bind_ok_iff _ _ _).mpr ⟨x, hx, rfl⟩⟩) hrejected
    | error f m =>
      refine ⟨f, m, ?_, handle_error he⟩
      rw [handleBlock, handleAll]
      exact seq_error (seq_error he)

theorem handleBlock_completed (hc : UpToDate chain c.db)
    (h : Completed chain.events c.db.lastScannedBlockNumber c.left es) :
    ∃ c', handleBlock b es c = .ok () c' ∧ applyAll es c.db.status.entry = .ok c'.db.status.entry ∧
      c'.db.lastScannedBlockNumber = b ∧ c'.left = c.left.map (· - blockStatements es) := by
  obtain ⟨hleft, haccepted⟩ := h
  obtain ⟨t, ht⟩ := (hc.accepted_iff es).mp haccepted
  obtain ⟨m, hm⟩ := handleAll_succeeds (hleft.mono (Nat.le_succ _)) ht
  obtain ⟨happly, _, hm_left⟩ := handleAll_ok hm
  have hmarker : m.left ≠ some 0 := by
    rw [hm_left]
    exact (Allows.sub (k := 1) hleft).ne_zero
  refine ⟨_, seq_ok_iff.mpr ⟨(), m, hm, statement_total_iff.mpr ⟨hmarker, rfl, rfl⟩⟩, happly, rfl, ?_⟩
  rw [Connection.next_left, hm_left, Option.map_map]
  rfl

theorem handleBlocks_upToDate {blocks : EventsMap} {hi : ℕ}
    (hc : UpToDate chain c.db) (hleads : Leads chain.events c.db.lastScannedBlockNumber blocks hi)
    (hstop : StopsBetween chain.events c.db.lastScannedBlockNumber blocks c.left) :
    UpToDate chain (finalDb (handleBlocks blocks c)) ∧
      ∀ c', handleBlocks blocks c = .ok () c' →
        upTo hi chain.events = upTo c'.db.lastScannedBlockNumber chain.events := by
  -- Each block starts from the marker that the block before it has stored.
  induction blocks generalizing c with
  | nil =>
    refine ⟨hc, ?_⟩
    intro c' h
    obtain ⟨_, rfl⟩ := pure_ok_iff.mp h
    exact hleads
  | cons p rest ih =>
    obtain ⟨b, es⟩ := p
    obtain ⟨happend, hrest⟩ := hleads
    rcases hstop with hnot | ⟨hcompleted, hstop⟩
    · obtain ⟨f, m, hb, hm⟩ := handleBlock_notBegun (b := b) hc hnot
      rw [handleBlocks, seq_error hb]
      refine ⟨?_, ?_⟩
      · rw [finalDb, hm]
        exact hc
      · intro c' h
        cases h
    · obtain ⟨m, hb, hevents, hmarker, hleft⟩ := handleBlock_completed (b := b) hc hcompleted
      rw [handleBlocks, seq_ok hb]
      apply ih
      · rw [UpToDate, hmarker, happend, applyAll_append, hc]
        exact hevents
      · rwa [hmarker]
      · rwa [hmarker, hleft]

theorem Attempt.upToDate {a : Attempt} (h : UpToDate chain db)
    (hstop : a.StopsBetweenBlocks chain db) : UpToDate chain (finalDb (a.run chain db)) := by
  rw [Attempt.run, scanHandleCollateralEvents]
  cases hread : getLastScannedBlockNumber ⟨db, a.failure⟩ with
  | error e c =>
    rw [seq_error hread, finalDb, statement_error hread]
    exact h
  | ok lastBlock c =>
    rw [seq_ok hread]
    obtain ⟨_, rfl, rfl⟩ := statement_total_iff.mp hread
    cases hscan : a.scan chain (db.lastScannedBlockNumber + 1) with
    | error e => exact h
    | ok p =>
      obtain ⟨toBlock, m⟩ := p
      rw [Attempt.StopsBetweenBlocks, Attempt.blocks, hscan] at hstop
      obtain ⟨hdate, hend⟩ := handleBlocks_upToDate (c := (Connection.mk db a.failure).next db) h
        (Attempt.scan_leads hscan) hstop
      change UpToDate chain (finalDb ((handleBlocks (sortByKey (a.order m).1) >>= fun _ =>
        updateLastScannedBlockNumber toBlock) _))
      cases hrun : handleBlocks (sortByKey (a.order m).1) _ with
      | error e c =>
        rw [seq_error hrun]
        rwa [hrun] at hdate
      | ok u c =>
        rw [seq_ok hrun]
        rw [hrun] at hdate
        cases hmark : updateLastScannedBlockNumber toBlock c with
        | error e c' =>
          rw [finalDb, statement_error hmark]
          exact hdate
        | ok u c' =>
          obtain ⟨_, _, rfl⟩ := statement_total_iff.mp hmark
          -- No event lies between the last block handled and the block the marker moves to.
          have hupTo := hend c hrun
          simp only [UpToDate, finalDb, Connection.next_db] at hdate ⊢
          rw [hupTo]
          exact hdate

theorem upToDate_after {attempts : List Attempt} (h : UpToDate chain db)
    (hstop : StopBetweenBlocks chain attempts db) : UpToDate chain (afterAttempts chain attempts db) := by
  induction attempts generalizing db with
  | nil => exact h
  | cons a rest ih => exact ih (Attempt.upToDate h hstop.1) hstop.2

def amountOnce (k : Key) (events : List CollateralEvent) : ℕ := foldKey k (fun e n => e.amountAfter n) events 0

def ShowsAmount (n : ℕ) (x : Option Entry) : Prop := n < 2 ^ 256 ∧ collateralText x = toString n

theorem UpToDate.amount (h : UpToDate chain db) (k : Key) :
    ShowsAmount (amountOnce k (upTo db.lastScannedBlockNumber chain.events)) (db.status.entry k) := by
  apply applyAll_relates (R := ShowsAmount) k _ h
  · exact ⟨Nat.two_pow_pos 256, toString_zero.symm⟩
  · rintro e he n x y ⟨hn, hx⟩ hy
    have hword : e.Word := by
      obtain ⟨p, hp, rfl⟩ := List.mem_map.mp he
      exact chain.events_words p (List.mem_of_mem_filter hp)
    exact ⟨CollateralEvent.amountAfter_lt hn, effect_text hword hn hx hy⟩

theorem upToDate_create (chain : Chain) : UpToDate chain createCollateralScannedBlocksTable := by
  rw [UpToDate, createCollateralScannedBlocksTable, chain.events_after_deployment]
  rfl

theorem columns_counted_once (chain : Chain) (attempts : List Attempt)
    (hstop : StopBetweenBlocks chain attempts createCollateralScannedBlocksTable) (k : Key) :
    let db := afterAttempts chain attempts createCollateralScannedBlocksTable
    collateralText (db.status.entry k) =
      toString (amountOnce k (upTo db.lastScannedBlockNumber chain.events)) :=
  ((upToDate_after (upToDate_create chain) hstop).amount k).2

def twoDeposits : Chain where
  logs := [⟨some 1, false, .ok (some (.deposit ⟨1, 2, 7, 100⟩))⟩, ⟨some 2, false, .ok (some (.deposit ⟨1, 2, 7, 100⟩))⟩]
  numbered := by simp [contractDeployedBlockNumber]
  ordered := by simp
  words := by simp [CollateralEvent.Word]

def sampleAttempt (head : ℕ) (failure : Option ℕ) : Attempt :=
  ⟨.ok head, fun m => ⟨m, List.Perm.refl m⟩, failure⟩

theorem retry_counts_deposit_twice :
    let attempts := [sampleAttempt 2 (some 3), sampleAttempt 2 none]
    let db := afterAttempts twoDeposits attempts createCollateralScannedBlocksTable
    (sampleAttempt 2 none).run twoDeposits
      (afterAttempts twoDeposits [sampleAttempt 2 (some 3)] createCollateralScannedBlocksTable) =
        .ok () ⟨db, none⟩ ∧
      db.lastScannedBlockNumber = 1 ∧ collateralText (db.status.entry (1, 2)) = "200" ∧
      amountOnce (1, 2) (upTo db.lastScannedBlockNumber twoDeposits.events) = 100 := by
  -- The first scan stores the deposit of block `1` and fails at the marker of that block.
  refine ⟨?_, ?_, ?_, ?_⟩
  · rfl
  all_goals decide

theorem columns_counted_once_retry :
    let attempts := [sampleAttempt 3 (some 4), sampleAttempt 3 none]
    let db := afterAttempts twoDeposits attempts createCollateralScannedBlocksTable
    db.lastScannedBlockNumber = 2 ∧ collateralText (db.status.entry (1, 2)) =
      toString (amountOnce (1, 2) (upTo db.lastScannedBlockNumber twoDeposits.events)) :=
  ⟨by decide, columns_counted_once twoDeposits _ (by decide) (1, 2)⟩

end Basilica.Collateral
