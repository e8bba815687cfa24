import Basilica.OutboxDispatcher

/-!
The observed deposits and the outbox stay in step, whatever the dispatchers, the chain monitor and the faults do.
-/

namespace Basilica.Payments

open AssocMaps AtomicCalls Calls Fleets StepRuns OutboxDispatcher List Option Function AssocMap PaymentTables PaymentState Outbox

structure Paired (t : PaymentTables) (key : ℤ × ℤ) (deposit : ObservedDeposit) (entry : OutboxEntry) : Prop where
  txid : entry.transactionId = creditedKey key.1 key.2 deposit.toAccountHex
  amount : entry.amountPlancks = deposit.amountPlancks
  owner : t.accounts.owner? deposit.toAccountHex = some entry.userId
  credited : deposit.status = .credited ↔ entry.dispatchedAt.isSome

structure Books (chain : ℕ → ℕ → Transfer) (t : PaymentTables) : Prop where
  origin : ∀ key deposit, t.deposits.get? key = some deposit → ∃ block index : ℕ, block < 2 ^ 31 ∧ index < 2 ^ 31 ∧
    key = ((block : ℤ), (index : ℤ)) ∧ deposit.toAccountHex = (chain block index).recipient
  entry : ∀ key deposit, t.deposits.get? key = some deposit →
    ∃ id entry, t.outbox.rows.get? id = some entry ∧ Paired t key deposit entry
  deposit : ∀ id entry, t.outbox.rows.get? id = some entry →
    ∃ key deposit, t.deposits.get? key = some deposit ∧ creditedKey key.1 key.2 deposit.toAccountHex = entry.transactionId

def Outbox.Holds (outbox : Outbox) (r : OutboxRow) : Prop :=
  ∃ entry, outbox.rows.get? r.id = some entry ∧ entry.transactionId = r.transactionId

variable {r : OutboxRow}

theorem Outbox.Holds.update {outbox : Outbox} (h : outbox.Holds r) (p : OutboxId → Prop) [DecidablePred p]
    (set : OutboxEntry → OutboxEntry) (hset : ∀ entry, (set entry).transactionId = entry.transactionId) :
    (outbox.update p set hset).Holds r := by
  obtain ⟨entry, hentry, htxid⟩ := h
  exact exists_update hentry hset htxid ((hset entry).trans htxid)

variable {t : PaymentTables} {chain : ℕ → ℕ → Transfer}

namespace Books

variable {block index : ℕ}

section

variable (h : Books chain t)

include h

theorem key_eq {key : ℤ × ℤ} {deposit : ObservedDeposit} (hkey : t.deposits.get? key = some deposit)
    {recipient : AccountHex}
    (htxid : creditedKey key.1 key.2 deposit.toAccountHex = transactionId block index recipient) :
    key = ((block : ℤ), (index : ℤ)) ∧ deposit.toAccountHex = recipient := by
  obtain ⟨block', index', -, -, rfl, -⟩ := h.origin key deposit hkey
  rw [creditedKey_natCast] at htxid
  obtain ⟨rfl, rfl, hrecipient⟩ := transactionId_injective htxid
  exact ⟨rfl, hrecipient⟩

theorem update (p : OutboxId → Prop) [DecidablePred p] {set : OutboxEntry → OutboxEntry}
    (hset : ∀ entry, (set entry).transactionId = entry.transactionId) (huser : ∀ entry, (set entry).userId = entry.userId)
    (hamount : ∀ entry, (set entry).amountPlancks = entry.amountPlancks)
    (hdispatched : ∀ entry, (set entry).dispatchedAt = entry.dispatchedAt) :
    Books chain { t with outbox := t.outbox.update p set hset } where
  origin := h.origin
  entry := by
    intro key deposit hkey
    obtain ⟨id, entry, hid, hpaired⟩ := h.entry key deposit hkey
    refine ⟨id, exists_update hid hset ?_ ?_⟩
    · exact ⟨hpaired.txid, hpaired.amount, hpaired.owner, hpaired.credited⟩
    · constructor
      · rw [hset, hpaired.txid]
      · rw [hamount, hpaired.amount]
      · rw [huser]
        exact hpaired.owner
      · rw [hdispatched]
        exact hpaired.credited
  deposit := by
    intro id entry hid
    rw [get?_update] at hid
    obtain ⟨old, hold, rfl⟩ := map_eq_some_iff.mp hid
    obtain ⟨key, deposit, hkey, htxid⟩ := h.deposit id old hold
    refine ⟨key, deposit, hkey, ?_⟩
    split_ifs
    · rw [hset, htxid]
    · exact htxid

theorem settled (hr : t.outbox.Holds r) (creditId : String) :
    Books chain ((t.markDispatchedTx r.id).markCreditedTx r.transactionId creditId) := by
  obtain ⟨held, hheld, hheldTx⟩ := hr
  -- a deposit has the text of the row exactly when the row is the one paired with it
  have hsame : ∀ key deposit id entry, t.deposits.get? key = some deposit → t.outbox.rows.get? id = some entry →
      Paired t key deposit entry → (creditedKey key.1 key.2 deposit.toAccountHex = r.transactionId ↔ id = r.id) := by
    intro key deposit id entry hkey hid hpaired
    constructor
    · intro htxid
      apply eq_of_transactionId hid hheld
      rw [hpaired.txid, htxid, hheldTx]
    · rintro rfl
      rw [hheld] at hid
      cases hid
      rw [← hpaired.txid, hheldTx]
  unfold markDispatchedTx markCreditedTx
  constructor
  · intro key deposit hkey
    rw [get?_mapWith] at hkey
    obtain ⟨old, hold, rfl⟩ := map_eq_some_iff.mp hkey
    obtain ⟨block, index, hblock, hindex, hpair, hto⟩ := h.origin key old hold
    refine ⟨block, index, hblock, hindex, hpair, ?_⟩
    split_ifs <;> exact hto
  · intro key deposit hkey
    rw [get?_mapWith] at hkey
    obtain ⟨old, hold, rfl⟩ := map_eq_some_iff.mp hkey
    obtain ⟨id, entry, hid, hpaired⟩ := h.entry key old hold
    have hiff := hsame key old id entry hold hid hpaired
    refine ⟨id, if id = r.id then entry.dispatch t.now else entry, ?_, ?_⟩
    · rw [get?_update, hid]
      rfl
    · by_cases hdone : id = r.id
      · rw [if_pos hdone, if_pos (hiff.mpr hdone)]
        exact ⟨hpaired.txid, hpaired.amount, hpaired.owner, iff_of_true rfl rfl⟩
      · rw [if_neg hdone, if_neg (fun htxid => hdone (hiff.mp htxid))]
        exact ⟨hpaired.txid, hpaired.amount, hpaired.owner, hpaired.credited⟩
  · intro id entry hid
    rw [get?_update] at hid
    obtain ⟨old, hold, rfl⟩ := map_eq_some_iff.mp hid
    obtain ⟨key, deposit, hkey, htxid⟩ := h.deposit id old hold
    refine ⟨key, if creditedKey key.1 key.2 deposit.toAccountHex = r.transactionId then deposit.credit t.now creditId
      else deposit, ?_, ?_⟩
    · rw [get?_mapWith, hkey]
      rfl
    · split_ifs <;> exact htxid

theorem record (hblock : block < 2 ^ 31) (hindex : index < 2 ^ 31)
    {t' : PaymentTables} (ht' : t.recordDeposit (chain block index) block index = some t') : Books chain t' := by
  obtain ⟨t₁, hinsert, henqueue⟩ := bind_eq_some_iff.mp ht'
  cases henqueue
  unfold insertFinalizedTx at hinsert
  rw [asI32_of_lt hindex] at hinsert
  cases hkey : t.deposits.get? ((block : ℤ), (index : ℤ)) with
  | some old =>
    -- a replay: the row of the outbox is there too
    rw [hkey] at hinsert
    cases hinsert
    obtain ⟨block', index', -, -, hpair, hto⟩ := h.origin _ old hkey
    obtain ⟨hb, hi⟩ := Prod.mk.inj hpair
    obtain rfl : block = block' := by omega
    obtain rfl : index = index' := by omega
    obtain ⟨id, entry, hid, hpaired⟩ := h.entry _ old hkey
    have htxid : entry.transactionId = transactionId block index (chain block index).recipient := by
      rw [hpaired.txid, hto]
      exact creditedKey_natCast block index _
    unfold enqueueTx
    rw [← hto, hpaired.owner]
    dsimp only
    rw [hto, get?_enqueue_of_mem hid htxid]
    exact h
  | none =>
    rw [hkey] at hinsert
    split_ifs at hinsert with hknown
    cases hinsert
    obtain ⟨user, huser⟩ := isSome_iff_exists.mp (DepositAccounts.owner?_isSome_iff.mpr hknown)
    have hfresh : ∀ id entry, t.outbox.rows.get? id = some entry →
        entry.transactionId ≠ transactionId block index (chain block index).recipient := by
      intro id entry hid htxid
      obtain ⟨key, deposit, hdeposit, hkeyText⟩ := h.deposit id entry hid
      obtain ⟨rfl, -⟩ := h.key_eq hdeposit (hkeyText.trans htxid)
      rw [hkey] at hdeposit
      cases hdeposit
    unfold enqueueTx
    rw [huser]
    constructor
    · intro key deposit hdeposit
      rw [get?_insert hkey] at hdeposit
      split_ifs at hdeposit with heq
      · cases hdeposit
        exact ⟨block, index, hblock, hindex, heq, rfl⟩
      · exact h.origin key deposit hdeposit
    · intro key deposit hdeposit
      rw [get?_insert hkey] at hdeposit
      split_ifs at hdeposit with heq
      · cases hdeposit
        refine ⟨t.outbox.nextId, .new user (chain block index).amount
          (transactionId block index (chain block index).recipient) t.now, ?_, ?_⟩
        · rw [get?_enqueue_of_notMem hfresh, if_pos rfl]
        · subst heq
          refine ⟨(creditedKey_natCast block index _).symm, rfl, huser, iff_of_false ?_ Bool.false_ne_true⟩
          intro hcredited
          cases hcredited
      · obtain ⟨id, entry, hid, hpaired⟩ := h.entry key deposit hdeposit
        have hne : id ≠ t.outbox.nextId := by
          rintro rfl
          rw [t.outbox.get?_nextId] at hid
          cases hid
        refine ⟨id, entry, ?_, hpaired.txid, hpaired.amount, hpaired.owner, hpaired.credited⟩
        rw [get?_enqueue_of_notMem hfresh, if_neg hne, hid]
    · intro id entry hid
      rw [get?_enqueue_of_notMem hfresh] at hid
      split_ifs at hid with heq
      · cases hid
        refine ⟨((block : ℤ), (index : ℤ)), (chain block index).finalized, ?_, ?_⟩
        · rw [get?_insert hkey, if_pos rfl]
        · exact creditedKey_natCast block index _
      · obtain ⟨key, deposit, hdeposit, htxid⟩ := h.deposit id entry hid
        have hne : key ≠ ((block : ℤ), (index : ℤ)) := by
          rintro rfl
          rw [hkey] at hdeposit
          cases hdeposit
        refine ⟨key, deposit, ?_, htxid⟩
        rw [get?_insert hkey, if_neg hne, hdeposit]

theorem accounts (account : DepositAccount) : Books chain { t with accounts := t.accounts.insertTx account } where
  origin := h.origin
  entry := by
    intro key deposit hkey
    obtain ⟨id, entry, hid, hpaired⟩ := h.entry key deposit hkey
    exact ⟨id, entry, hid, hpaired.txid, hpaired.amount, DepositAccounts.owner?_insertTx hpaired.owner account,
      hpaired.credited⟩
  deposit := h.deposit

theorem other (locked : List OutboxId) (now : ℤ) : Books chain { t with locked := locked, now := now } where
  origin := h.origin
  entry := by
    intro key deposit hkey
    obtain ⟨id, entry, hid, hpaired⟩ := h.entry key deposit hkey
    exact ⟨id, entry, hid, hpaired.txid, hpaired.amount, hpaired.owner, hpaired.credited⟩
  deposit := h.deposit

end

end Books

structure Matched (t : PaymentTables) : Prop where
  deposit : ∀ key deposit, t.deposits.get? key = some deposit → ∃ block index : ℕ, key = ((block : ℤ), (index : ℤ)) ∧
    ∃ id entry, t.outbox.rows.get? id = some entry ∧
      entry.transactionId = transactionId block index deposit.toAccountHex ∧
      entry.amountPlancks = deposit.amountPlancks ∧ t.accounts.owner? deposit.toAccountHex = some entry.userId ∧
      (deposit.status = .credited ↔ entry.dispatchedAt.isSome) ∧
      ∀ id' entry', t.outbox.rows.get? id' = some entry' →
        entry'.transactionId = transactionId block index deposit.toAccountHex → id' = id
  outbox : ∀ id entry, t.outbox.rows.get? id = some entry → ∃ block index : ℕ, ∃ deposit,
    t.deposits.get? ((block : ℤ), (index : ℤ)) = some deposit ∧
      entry.transactionId = transactionId block index deposit.toAccountHex ∧
      ∀ block' index' : ℕ, ∀ deposit', t.deposits.get? ((block' : ℤ), (index' : ℤ)) = some deposit' →
        entry.transactionId = transactionId block' index' deposit'.toAccountHex → block' = block ∧ index' = index

theorem Books.matched (h : Books chain t) : Matched t where
  deposit := by
    intro key deposit hkey
    obtain ⟨block, index, -, -, rfl, -⟩ := h.origin key deposit hkey
    obtain ⟨id, entry, hid, hpaired⟩ := h.entry _ deposit hkey
    have htxid : entry.transactionId = transactionId block index deposit.toAccountHex := by
      rw [hpaired.txid]
      exact creditedKey_natCast block index _
    refine ⟨block, index, rfl, id, entry, hid, htxid, hpaired.amount, hpaired.owner, hpaired.credited, ?_⟩
    intro id' entry' hid' htxid'
    exact eq_of_transactionId hid' hid (htxid'.trans htxid.symm)
  outbox := by
    intro id entry hid
    obtain ⟨key, deposit, hkey, htxid⟩ := h.deposit id entry hid
    obtain ⟨block, index, -, -, rfl, -⟩ := h.origin key deposit hkey
    rw [creditedKey_natCast] at htxid
    refine ⟨block, index, deposit, hkey, htxid.symm, ?_⟩
    intro block' index' deposit' _ htxid'
    obtain ⟨hblock, hindex, -⟩ := transactionId_injective (htxid.trans htxid')
    exact ⟨hblock.symm, hindex.symm⟩

section Runs

variable {ι : Type} {parsers : Billing.Parsers}

def InRange : Move ι Fault PaymentEvent → Prop
  | .world (.handleTransfer _ block index _) => block < 2 ^ 31 ∧ index < 2 ^ 31
  | _ => True

structure Ledger (chain : ℕ → ℕ → Transfer) (s : PaymentFleet ι) : Prop where
  stage : ∀ i, ∃ stage : Stage, s.rest i = stage.rest ∧ ∀ r ∈ stage.rows, s.db.tables.outbox.Holds r
  books : Books chain s.db.tables

def DispatchCall.effect : DispatchCall → PaymentTables → PaymentTables
  | .claimBatch limit, t => (t.claimBatch limit).2
  | .markCredited id txid creditId, t => (t.markDispatchedTx id).markCreditedTx txid creditId
  | .backoff id secs, t => t.backoff id secs
  | _, t => t

variable {c : DispatchCall} {s s' : PaymentState}

theorem tables_of_answer {r : Except String c.Answer}
    (h : answer parsers c s = some (r, s')) : s'.tables = c.effect s.tables := by
  cases c with
  | taoToCredits amount =>
    simp only [answer] at h
    split at h <;> cases h <;> rfl
  | awaitReply request =>
    simp only [answer, map_eq_some_iff] at h
    obtain ⟨reply, -, heq⟩ := h
    cases heq
    rfl
  | _ =>
    cases h
    rfl

variable {fault : Fault}

theorem tables_of_desk {r : Except String c.Answer}
    (h : desk parsers fault c s = some (r, s')) : s'.tables = s.tables ∨ s'.tables = c.effect s.tables := by
  cases fault with
  | none => exact Or.inr (tables_of_answer h)
  | refused =>
    cases h
    exact Or.inl rfl
  | lost =>
    cases h
    cases hanswer : answer parsers c s with
    | none => exact Or.inl rfl
    | some answer => exact Or.inr (tables_of_answer hanswer)

theorem holds_effect (h : t.outbox.Holds r) (c : DispatchCall) : (c.effect t).outbox.Holds r := by
  cases c with
  | claimBatch limit => exact h.update _ _ (fun entry => entry.transactionId_claim _)
  | markCredited id txid creditId => exact h.update _ _ (fun entry => entry.transactionId_dispatch _)
  | backoff id secs => exact h.update _ _ (fun entry => entry.transactionId_postpone _)
  | _ => exact h

theorem holds_claimed {limit : ℕ} (h : r ∈ (t.claimBatch limit).1) : t.outbox.Holds r := by
  obtain ⟨q, hq, rfl⟩ := mem_map.mp h
  have hentries := mem_of_mem_filter ((mem_insertionSort _).mp (mem_of_mem_take hq))
  exact ⟨q.2, get?_of_mem hentries, rfl⟩

variable {stage stage' : Stage} {answer : Except String c.Answer}

theorem Books.effect (h : Books chain t)
    (hnext : stage.Next c answer stage') (hholds : ∀ r ∈ stage.rows, t.outbox.Holds r) : Books chain (c.effect t) := by
  cases hnext with
  | claimed rows | unclaimed e | retried r rows result | postponed r rows | gaveUp r rows e =>
    exact h.update _ _ (fun _ => rfl) (fun _ => rfl) (fun _ => rfl)
  | marked r rows creditId | unmarked r rows creditId e => exact h.settled (hholds r mem_cons_self) creditId
  | _ => exact h

theorem rows_next (hnext : stage.Next c answer stage')
    (hdesk : desk parsers fault c s = some (answer, s')) (hholds : ∀ r ∈ stage.rows, s.tables.outbox.Holds r) :
    ∀ r ∈ stage'.rows, s.tables.outbox.Holds r := by
  cases hnext with
  | claimed rows =>
    intro r hr
    rw [Stage.rows_ofRows] at hr
    cases fault with
    | none =>
      cases hdesk
      exact holds_claimed hr
    | refused | lost => cases hdesk
  | marked r rows creditId | retried r rows result | postponed r rows =>
    intro r' hr'
    rw [Stage.rows_ofRows] at hr'
    exact hholds r' (mem_cons_of_mem _ hr')
  | unclaimed e =>
    intro r hr
    cases hr
  | gaveUp r rows e =>
    intro r hr
    cases hr
  | _ => exact hholds

theorem handleTransfer_cases (t : PaymentTables) (known : List AccountHex) (transfer : Transfer) (block index : ℕ)
    (fault : Fault) : t.handleTransfer known transfer block index fault = t ∨
      t.recordDeposit transfer block index = some (t.handleTransfer known transfer block index fault) := by
  unfold handleTransfer
  by_cases hknown : transfer.recipient ∉ known
  · rw [if_pos hknown]
    exact Or.inl rfl
  · rw [if_neg hknown]
    by_cases hfault : fault = .refused
    · rw [if_pos hfault]
      exact Or.inl rfl
    · rw [if_neg hfault]
      cases t.recordDeposit transfer block index with
      | none => exact Or.inl rfl
      | some t' => exact Or.inr rfl

def PaymentState.opening (accounts : DepositAccounts) (billing : Billing.BillingTables) (now : ℤ) : PaymentState where
  tables := ⟨accounts, .empty, .empty, [], now⟩
  billing := billing
  requests := []
  quotes := fun _ => none
  raised := []

theorem ledger_start (accounts : DepositAccounts) (billing : Billing.BillingTables) (now : ℤ) :
    Ledger chain (start (paymentSystem ι parsers chain) (.opening accounts billing now)) where
  stage := by
    intro i
    refine ⟨.claiming, rfl, ?_⟩
    intro r hr
    cases hr
  books := by
    constructor
    · intro key deposit hkey
      cases hkey
    · intro key deposit hkey
      cases hkey
    · intro id entry hid
      cases hid

variable {db : PaymentState}

theorem Ledger.tables {s : PaymentFleet ι} (h : Ledger chain s)
    (hholds : ∀ r, s.db.tables.outbox.Holds r → db.tables.outbox.Holds r) (hbooks : Books chain db.tables) :
    Ledger chain ⟨db, s.rest⟩ where
  stage := by
    intro i
    obtain ⟨stage, hstage, hrows⟩ := h.stage i
    exact ⟨stage, hstage, fun r hr => hholds r (hrows r hr)⟩
  books := hbooks

variable [DecidableEq ι]

theorem Ledger.move {s : PaymentFleet ι} (h : Ledger chain s) {i : ι} (stage : Stage)
    (hstage : ∀ r ∈ stage.rows, db.tables.outbox.Holds r)
    (hholds : ∀ r, s.db.tables.outbox.Holds r → db.tables.outbox.Holds r) (hbooks : Books chain db.tables) :
    Ledger chain ⟨db, update s.rest i stage.rest⟩ where
  stage := by
    intro j
    by_cases hj : j = i
    · subst hj
      exact ⟨stage, update_self .., hstage⟩
    · obtain ⟨other, hother, hrows⟩ := h.stage j
      exact ⟨other, (update_of_ne hj ..).trans hother, fun r hr => hholds r (hrows r hr)⟩
  books := hbooks

theorem Ledger.claiming {s : PaymentFleet ι} (h : Ledger chain s) (i : ι) :
    Ledger chain ⟨s.db, update s.rest i dispatch⟩ := by
  refine h.move .claiming ?_ (fun _ hr => hr) h.books
  intro r hr
  cases hr

theorem ledger_keeps : Keeps (paymentSystem ι parsers chain) (fun m _ => InRange m) (Ledger chain) where
  answer := by
    intro s i fault c next r db h _ hrest hdesk
    obtain ⟨stage, hstage, hrows⟩ := h.stage i
    obtain ⟨stage', hnext, hrest'⟩ := Stage.next_of_call (hstage.symm.trans hrest) r
    have hrows' := rows_next hnext hdesk hrows
    rw [hrest']
    rcases tables_of_desk hdesk with htables | htables
    · apply h.move stage'
      · rw [htables]
        exact hrows'
      · rw [htables]
        exact fun _ hr => hr
      · rw [htables]
        exact h.books
    · apply h.move stage'
      · rw [htables]
        exact fun r hr => holds_effect (hrows' r hr) c
      · rw [htables]
        exact fun r hr => holds_effect hr c
      · rw [htables]
        exact h.books.effect hnext hrows
  finished := fun s i _ h _ => h.claiming i
  restart := fun s i h _ => h.claiming i
  world := by
    intro s m h hok
    cases m with
    | insertAccount account => exact ⟨h.stage, h.books.accounts account⟩
    | handleTransfer known block index fault =>
      rcases handleTransfer_cases s.db.tables known (chain block index) block index fault with hsame | hrecord
      · apply h.tables
        · intro r hr
          change (s.db.tables.handleTransfer known (chain block index) block index fault).outbox.Holds r
          rw [hsame]
          exact hr
        · change Books chain (s.db.tables.handleTransfer known (chain block index) block index fault)
          rw [hsame]
          exact h.books
      · apply h.tables _ (h.books.record hok.1 hok.2 hrecord)
        rintro r ⟨entry, hentry, htxid⟩
        exact ⟨entry, get?_recordDeposit hrecord hentry, htxid⟩
    | lock ids => exact ⟨h.stage, h.books.other ids s.db.tables.now⟩
    | clock now => exact ⟨h.stage, h.books.other s.db.tables.locked now⟩
    | quote quotes | billing tables => exact ⟨h.stage, h.books⟩
    | serve request fault =>
      have htables : (s.db.serve request fault).tables = s.db.tables := by
        unfold serve
        split
        · rfl
        · split <;> rfl
      apply h.tables
      · intro r hr
        change (s.db.serve request fault).tables.outbox.Holds r
        rw [htables]
        exact hr
      · change Books chain (s.db.serve request fault).tables
        rw [htables]
        exact h.books

theorem deposits_match_outbox (accounts : DepositAccounts) (billing : Billing.BillingTables) (now : ℤ)
    (l : List (Move ι Fault PaymentEvent)) (hl : ∀ m ∈ l, InRange m) :
    Throughout (step (paymentSystem ι parsers chain)) (fun s => Matched s.db.tables) l
        (start (paymentSystem ι parsers chain) (.opening accounts billing now)) ∧
      (∀ block index recipient block' index' recipient',
        transactionId block index recipient = transactionId block' index' recipient' →
          block = block' ∧ index = index' ∧ recipient = recipient') ∧
      ∀ (block index : ℕ) (recipient : AccountHex), block < 2 ^ 31 → index < 2 ^ 31 →
        creditedKey block (asI32 index) recipient = transactionId block index recipient := by
  refine ⟨?_, ?_, ?_⟩
  · apply ledger_keeps.throughout (fun s hs => hs.books.matched) (ledger_start accounts billing now)
    exact eachStep_of_forall hl _
  · intro block index recipient block' index' recipient' h
    exact transactionId_injective h
  · intro block index recipient _ hindex
    rw [asI32_of_lt hindex]
    exact creditedKey_natCast block index recipient

instance : (m : Move ι Fault PaymentEvent) → Decidable (InRange m)
  | .world (.handleTransfer _ _ _ _) => inferInstanceAs (Decidable (_ ∧ _))
  | .world (.insertAccount _) | .world (.lock _) | .world (.clock _) | .world (.quote _) | .world (.serve _ _)
  | .world (.billing _) | .answer _ _ | .restart _ => isTrue trivial

def oneTao : ℕ → ℕ → Transfer := fun _ _ => ⟨"0b", "0a", 1000000000⟩

def noBilling : Billing.BillingTables := ⟨.empty, .empty, [], .empty⟩

def twoDispatchers : System DispatchCall DispatchCall.Answer String Unit PaymentState Two Fault PaymentEvent :=
  paymentSystem Two Billing.plainParsers oneTao

def appliedRun : List (Move Two Fault PaymentEvent) :=
  .world (.insertAccount ⟨"alice", "5A", "0a"⟩) :: .world (.handleTransfer ["0a"] 5 2 .none) ::
    .world (.handleTransfer ["0a"] 5 2 .none) :: .world (.quote (fun _ => some "12.5")) :: answered .first 3
      [.world (.serve 0 .none), .world (.serve 0 .none), .world (.serve 0 .none), .world (.serve 0 .none), .answer .first .none]

theorem deposits_match_outbox_applied : (∀ m ∈ appliedRun ++ [.answer .first .lost], InRange m) ∧
      ((last (step twoDispatchers) (appliedRun ++ [.answer .first .lost])
        (start twoDispatchers (.opening .empty noBilling 0))).db.tables.deposits.get? (5, 2)).map ObservedDeposit.status =
          some .credited ∧
      Throughout (step twoDispatchers) (fun s => Matched s.db.tables) (appliedRun ++ [.answer .first .lost])
        (start twoDispatchers (.opening .empty noBilling 0)) := by
  have hrange : ∀ m ∈ appliedRun ++ [.answer .first .lost], InRange m := by decide +kernel
  exact ⟨hrange, by decide +kernel, (deposits_match_outbox .empty noBilling 0 _ hrange).1⟩

def CreditsTransfers (chain : ℕ → ℕ → Transfer) (t : PaymentTables) : Prop :=
  ∀ id entry, t.outbox.rows.get? id = some entry → ∃ block index,
    entry.transactionId = transactionId block index (chain block index).recipient ∧
      t.accounts.owner? (chain block index).recipient = some entry.userId

theorem Books.creditsTransfers (h : Books chain t) : CreditsTransfers chain t := by
  intro id entry hid
  obtain ⟨key, deposit, hkey, htxid⟩ := h.deposit id entry hid
  obtain ⟨block, index, -, -, rfl, hto⟩ := h.origin key deposit hkey
  obtain ⟨id', entry', hid', hpaired⟩ := h.entry _ deposit hkey
  obtain rfl := eq_of_transactionId hid hid' (htxid.symm.trans hpaired.txid.symm)
  obtain rfl := Option.some.inj (hid.symm.trans hid')
  refine ⟨block, index, ?_, ?_⟩
  · rw [hpaired.txid, hto]
    exact creditedKey_natCast block index _
  · rw [← hto]
    exact hpaired.owner

theorem credits_from_transfers (accounts : DepositAccounts) (billing : Billing.BillingTables) (now : ℤ)
    (l : List (Move ι Fault PaymentEvent)) (hl : ∀ m ∈ l, InRange m) :
    Throughout (step (paymentSystem ι parsers chain)) (fun s => CreditsTransfers chain s.db.tables) l
      (start (paymentSystem ι parsers chain) (.opening accounts billing now)) := by
  apply ledger_keeps.throughout (fun s hs => hs.books.creditsTransfers) (ledger_start accounts billing now)
  exact eachStep_of_forall hl _

theorem applied_credits_from_transfers : Throughout (step twoDispatchers) (fun s => CreditsTransfers oneTao s.db.tables)
    appliedRun (start twoDispatchers (.opening .empty noBilling 0)) :=
  credits_from_transfers .empty noBilling 0 _ (by decide +kernel)

end Runs

end Basilica.Payments
