import Basilica.ChainMonitor

/-!
What the chain monitors record: a transfer to a deposit account is in the two tables once a later block is begun.
-/

namespace Basilica.Payments

open AssocMaps AtomicCalls Calls Fleets StepRuns ChainMonitor PaymentTables List Option Function AssocMap

variable {t' : PaymentTables} {q : Due} {block : ℕ} {transfer : Transfer} {chain : Chain}

section Tables

def renderedAt (chain : Chain) (block index : ℕ) : Option Transfer := do
  let event ← (chain block)[index]?
  let details ← event.transferDetails
  details.transfer?

def ObservedDeposit.Shows (deposit : ObservedDeposit) (transfer : Transfer) : Prop :=
  deposit.toAccountHex = transfer.recipient ∧ deposit.fromAccountHex = transfer.sender ∧ deposit.amountPlancks = transfer.amount

def Outbox.HasTransaction (outbox : Outbox) (txid : TransactionId) : Prop :=
  ∃ id entry, outbox.rows.get? id = some entry ∧ entry.transactionId = txid

def Recorded (t : PaymentTables) (q : Due) : Prop :=
  (∃ deposit, t.deposits.get? ((q.block : ℤ), (q.index : ℤ)) = some deposit ∧ deposit.Shows q.transfer) ∧
    t.outbox.HasTransaction (transactionId q.block q.index q.transfer.recipient)

def Observed (chain : Chain) (t : PaymentTables) : Prop :=
  ∀ key deposit, t.deposits.get? key = some deposit → ∃ (block index : ℕ) (transfer : Transfer),
    key = ((block : ℤ), asI32 index) ∧ renderedAt chain block index = some transfer ∧ deposit.Shows transfer ∧
      t.outbox.HasTransaction (transactionId block index transfer.recipient)

theorem Outbox.HasTransaction.update {outbox : Outbox} {txid : TransactionId} (h : outbox.HasTransaction txid)
    (p : OutboxId → Prop) [DecidablePred p] (set : OutboxEntry → OutboxEntry)
    (hset : ∀ entry, (set entry).transactionId = entry.transactionId) : (outbox.update p set hset).HasTransaction txid := by
  obtain ⟨id, entry, hentry, rfl⟩ := h
  exact ⟨id, Outbox.exists_update hentry hset rfl (hset entry)⟩

theorem Outbox.hasTransaction_enqueue (outbox : Outbox) (user : UserId) (amount : ℕ) (txid : TransactionId) (now : ℤ) :
    (outbox.enqueue user amount txid now).HasTransaction txid := by
  by_cases hnew : ∀ id entry, outbox.rows.get? id = some entry → entry.transactionId ≠ txid
  · refine ⟨outbox.nextId, .new user amount txid now, ?_, rfl⟩
    rw [Outbox.get?_enqueue_of_notMem hnew, if_pos rfl]
  · push Not at hnew
    obtain ⟨id, entry, hid, htxid⟩ := hnew
    exact ⟨id, entry, Outbox.get?_enqueue hid user amount txid now, htxid⟩

structure Extends (t t' : PaymentTables) : Prop where
  deposit : ∀ key deposit, t.deposits.get? key = some deposit → ∀ transfer, deposit.Shows transfer →
    ∃ deposit', t'.deposits.get? key = some deposit' ∧ deposit'.Shows transfer
  transaction : ∀ txid, t.outbox.HasTransaction txid → t'.outbox.HasTransaction txid
  accounts : ∀ hex ∈ t.accounts.listAccountHexes, hex ∈ t'.accounts.listAccountHexes

variable (t : PaymentTables)

theorem Extends.refl : Extends t t :=
  ⟨fun _ deposit h _ hshows => ⟨deposit, h, hshows⟩, fun _ h => h, fun _ h => h⟩

theorem Extends.recorded {t : PaymentTables} (h : Extends t t') (hq : Recorded t q) : Recorded t' q := by
  obtain ⟨⟨deposit, hdeposit, hshows⟩, htxid⟩ := hq
  exact ⟨h.deposit _ deposit hdeposit _ hshows, h.transaction _ htxid⟩

theorem extends_update (p : OutboxId → Prop) [DecidablePred p] (set : OutboxEntry → OutboxEntry)
    (hset : ∀ entry, (set entry).transactionId = entry.transactionId) :
    Extends t { t with outbox := t.outbox.update p set hset } :=
  ⟨fun _ deposit h _ hshows => ⟨deposit, h, hshows⟩, fun _ h => h.update p set hset, fun _ h => h⟩

theorem extends_markCreditedTx (txid : TransactionId) (creditId : String) :
    Extends t (t.markCreditedTx txid creditId) where
  deposit := by
    intro key deposit hkey transfer hshows
    refine ⟨if creditedKey key.1 key.2 deposit.toAccountHex = txid then deposit.credit t.now creditId else deposit, ?_, ?_⟩
    · unfold markCreditedTx
      rw [get?_mapWith, hkey]
      rfl
    · split_ifs <;> exact hshows
  transaction := fun _ h => h
  accounts := fun _ h => h

theorem Extends.trans {t t'' : PaymentTables} (h : Extends t t') (h' : Extends t' t'') : Extends t t'' where
  deposit := by
    intro key deposit hkey transfer hshows
    obtain ⟨deposit', hkey', hshows'⟩ := h.deposit key deposit hkey transfer hshows
    exact h'.deposit key deposit' hkey' transfer hshows'
  transaction := fun txid htxid => h'.transaction txid (h.transaction txid htxid)
  accounts := fun hex hhex => h'.accounts hex (h.accounts hex hhex)

theorem extends_effect (c : DispatchCall) : Extends t (c.effect t) := by
  cases c with
  | claimBatch limit => exact extends_update t _ _ (fun entry => entry.transactionId_claim _)
  | markCredited id txid creditId =>
    apply Extends.trans _ (extends_markCreditedTx _ txid creditId)
    exact extends_update t _ _ (fun entry => entry.transactionId_dispatch _)
  | backoff id secs => exact extends_update t _ _ (fun entry => entry.transactionId_postpone _)
  | _ => exact Extends.refl t

theorem extends_insertTx (account : DepositAccount) :
    Extends t { t with accounts := t.accounts.insertTx account } where
  deposit := fun _ deposit h _ hshows => ⟨deposit, h, hshows⟩
  transaction := fun _ h => h
  accounts := by
    intro hex hhex
    obtain ⟨user, huser⟩ := isSome_iff_exists.mp (DepositAccounts.owner?_isSome_iff.mpr hhex)
    apply DepositAccounts.owner?_isSome_iff.mp
    rw [DepositAccounts.owner?_insertTx huser account]
    rfl

theorem enqueueTx_frame (hex : AccountHex) (amount : ℕ) (txid : TransactionId) :
    (t.enqueueTx hex amount txid).deposits = t.deposits ∧ (t.enqueueTx hex amount txid).accounts = t.accounts := by
  unfold enqueueTx
  split <;> exact ⟨rfl, rfl⟩

variable {index : ℕ}

theorem recordDeposit_cases {t : PaymentTables} (h : t.recordDeposit transfer block index = some t') :
    Extends t t' ∧ ((t'.deposits = t.deposits ∧ (t.deposits.get? ((block : ℤ), asI32 index)).isSome) ∨
      ((∀ key, t'.deposits.get? key =
        if key = ((block : ℤ), asI32 index) then some transfer.finalized else t.deposits.get? key) ∧
      t'.outbox.HasTransaction (transactionId block index transfer.recipient))) := by
  obtain ⟨t₁, hinsert, henqueue⟩ := bind_eq_some_iff.mp h
  have htransaction : ∀ txid, t.outbox.HasTransaction txid → t'.outbox.HasTransaction txid := by
    rintro txid ⟨id, entry, hid, rfl⟩
    exact ⟨id, entry, get?_recordDeposit h hid, rfl⟩
  cases henqueue
  obtain ⟨hdeposits, haccounts⟩ := enqueueTx_frame t₁ transfer.recipient transfer.amount
    (transactionId block index transfer.recipient)
  unfold insertFinalizedTx at hinsert
  cases hkey : t.deposits.get? ((block : ℤ), asI32 index) with
  | some old =>
    rw [hkey] at hinsert
    cases hinsert
    refine ⟨⟨?_, htransaction, ?_⟩, Or.inl ⟨hdeposits, rfl⟩⟩
    · intro key deposit hdeposit transfer' hshows
      rw [hdeposits]
      exact ⟨deposit, hdeposit, hshows⟩
    · rw [haccounts]
      exact fun _ hhex => hhex
  | none =>
    rw [hkey] at hinsert
    split_ifs at hinsert with hknown
    cases hinsert
    have hget := get?_insert hkey transfer.finalized
    refine ⟨⟨?_, htransaction, ?_⟩, Or.inr ⟨?_, ?_⟩⟩
    · intro key deposit hdeposit transfer' hshows
      have hne : key ≠ ((block : ℤ), asI32 index) := by
        rintro rfl
        rw [hkey] at hdeposit
        cases hdeposit
      rw [hdeposits]
      rw [hget, if_neg hne]
      exact ⟨deposit, hdeposit, hshows⟩
    · rw [haccounts]
      exact fun _ hhex => hhex
    · intro key
      rw [hdeposits]
      exact hget key
    · obtain ⟨user, huser⟩ := isSome_iff_exists.mp (DepositAccounts.owner?_isSome_iff.mpr hknown)
      unfold enqueueTx
      rw [huser]
      exact Outbox.hasTransaction_enqueue t.outbox user transfer.amount _ t.now

theorem recordDeposit_isSome {t : PaymentTables} (h : transfer.recipient ∈ t.accounts.listAccountHexes)
    (block index : ℕ) : ∃ t', t.recordDeposit transfer block index = some t' := by
  unfold recordDeposit insertFinalizedTx
  cases t.deposits.get? ((block : ℤ), asI32 index) with
  | some old => exact ⟨_, rfl⟩
  | none =>
    rw [if_pos h]
    exact ⟨_, rfl⟩

variable {t : PaymentTables}

theorem Observed.record (h : Observed chain t)
    (hrendered : renderedAt chain block index = some transfer) (hrecord : t.recordDeposit transfer block index = some t') :
    Observed chain t' := by
  obtain ⟨hextends, ⟨hdeposits, -⟩ | ⟨hget, htxid⟩⟩ := recordDeposit_cases hrecord
  · intro key deposit hkey
    rw [hdeposits] at hkey
    obtain ⟨block', index', transfer', heq, hrendered', hshows, htxid⟩ := h key deposit hkey
    exact ⟨block', index', transfer', heq, hrendered', hshows, hextends.transaction _ htxid⟩
  · intro key deposit hkey
    rw [hget] at hkey
    split_ifs at hkey with heq
    · cases hkey
      exact ⟨block, index, transfer, heq, hrendered, ⟨rfl, rfl, rfl⟩, htxid⟩
    · obtain ⟨block', index', transfer', heq', hrendered', hshows, htxid'⟩ := h key deposit hkey
      exact ⟨block', index', transfer', heq', hrendered', hshows, hextends.transaction _ htxid'⟩

theorem Observed.effect (h : Observed chain t) (c : DispatchCall) : Observed chain (c.effect t) := by
  have htxid := (extends_effect t c).transaction
  -- only the mark of a credited deposit touches the deposits, and it keeps what they show
  have hold : ∀ key deposit, (c.effect t).deposits.get? key = some deposit → ∃ old, t.deposits.get? key = some old ∧
      ∀ transfer, old.Shows transfer → deposit.Shows transfer := by
    intro key deposit hkey
    cases c with
    | markCredited id txid creditId =>
      change (mapWith _ _).get? key = _ at hkey
      rw [get?_mapWith] at hkey
      obtain ⟨old, hold, rfl⟩ := map_eq_some_iff.mp hkey
      refine ⟨old, hold, ?_⟩
      intro transfer hshows
      split_ifs <;> exact hshows
    | _ => exact ⟨deposit, hkey, fun _ hshows => hshows⟩
  intro key deposit hkey
  obtain ⟨old, hkeyOld, hkeeps⟩ := hold key deposit hkey
  obtain ⟨block, index, transfer, heq, hrendered, hshows, hhas⟩ := h key old hkeyOld
  exact ⟨block, index, transfer, heq, hrendered, hkeeps transfer hshows, htxid _ hhas⟩

theorem index_lt_of_rendered (h : renderedAt chain block index = some transfer) : index < (chain block).length := by
  obtain ⟨event, hevent, -⟩ := Option.bind_eq_some_iff.mp h
  exact (List.getElem?_eq_some_iff.mp hevent).1

def Due.Readable (chain : Chain) (q : Due) : Prop :=
  (chain q.block).length ≤ 2 ^ 31 ∧ renderedAt chain q.block q.index = some q.transfer

theorem Observed.recorded (h : Observed chain t) (hq : q.Readable chain)
    (hkey : (t.deposits.get? ((q.block : ℤ), asI32 q.index)).isSome) : Recorded t q := by
  obtain ⟨deposit, hdeposit⟩ := isSome_iff_exists.mp hkey
  obtain ⟨block, index, transfer, heq, hrendered, hshows, htxid⟩ := h _ deposit hdeposit
  obtain ⟨hblock, hindex⟩ := Prod.mk.inj heq
  obtain rfl : q.block = block := by omega
  have hlt := index_lt_of_rendered hrendered
  have hlt' := index_lt_of_rendered hq.2
  have hlength := hq.1
  rw [asI32_of_lt (by omega), asI32_of_lt (by omega)] at hindex
  obtain rfl : q.index = index := by omega
  obtain rfl : q.transfer = transfer := some.inj (hq.2.symm.trans hrendered)
  rw [asI32_of_lt (by omega)] at hdeposit
  exact ⟨⟨deposit, hdeposit, hshows⟩, htxid⟩

end Tables

inductive MonitorStage
  | acquiring
  | loading
  | connecting
  | subscribing
  | releasing
  | polling
  | fetching (block : ℕ)
  | handling (block index : ℕ) (details : TransferDetails) (events : List ChainEvent)
  | ending (block : ℕ)
  | finished (result : Except String Bool)

open MonitorStage

variable {stage : MonitorStage} {ι : Type}

namespace MonitorStage

def rest (i : ι) : MonitorStage → MonitorCalls ι Bool
  | acquiring => lead i
  | loading => (openSubscription i).catching >>= conclude i
  | connecting =>
    (do ask (.connect : MonitorCall ι)
        ask (MonitorCall.subscribeFinalized i)).catching >>= conclude i
  | subscribing => (ask (MonitorCall.subscribeFinalized i)).catching >>= conclude i
  | releasing => release i
  | polling => follow i
  | fetching block => (processBlock i block).catching >>= conclude i
  | handling block index details events =>
    (do ask (MonitorCall.handleTransfer i details block index)
        processEvents i block (index + 1) events).catching >>= conclude i
  | ending block => (ask (MonitorCall.onBlockEnd i block)).catching >>= conclude i
  | finished result => done result

def concluded : Except String Unit → MonitorStage
  | .ok _ => finished (.ok true)
  | .error _ => releasing

def ofEvents (block : ℕ) : ℕ → List ChainEvent → MonitorStage
  | _, [] => ending block
  | index, event :: events =>
    match event.transferDetails with
    | some details => handling block index details events
    | none => ofEvents block (index + 1) events

theorem rest_ofEvents (i : ι) (block index : ℕ) (events : List ChainEvent) :
    (ofEvents block index events).rest i = (processEvents i block index events).catching >>= conclude i := by
  induction events generalizing index with
  | nil => rfl
  | cons event events ih =>
    unfold ofEvents processEvents
    cases event.transferDetails with
    | some details => rfl
    | none => exact ih (index + 1)

theorem rest_concluded (i : ι) (result : Except String Unit) : (concluded result).rest i = conclude i result := by
  cases result <;> rfl

inductive Next (i : ι) : MonitorStage → (c : MonitorCall ι) → Except String c.Answer → MonitorStage → Prop
  | acquired : Next i acquiring (.tryAcquire i) (.ok ()) loading
  | unacquired (e : String) : Next i acquiring (.tryAcquire i) (.error e) (finished (.error e))
  | loaded : Next i loading (.listAccountHexes i) (.ok ()) connecting
  | unloaded (e : String) : Next i loading (.listAccountHexes i) (.error e) releasing
  | connected : Next i connecting .connect (.ok ()) subscribing
  | unconnected (e : String) : Next i connecting .connect (.error e) releasing
  | subscribed (result : Except String Unit) : Next i subscribing (.subscribeFinalized i) result (concluded result)
  | released (result : Except String Unit) : Next i releasing (.release i) result (finished (.ok false))
  | skipped (e : String) : Next i polling (.nextBlock i) (.error e) (finished (.ok true))
  | ended : Next i polling (.nextBlock i) (.ok none) releasing
  | taken (block : ℕ) : Next i polling (.nextBlock i) (.ok (some block)) (fetching block)
  | unread (block : ℕ) (e : String) : Next i (fetching block) (.events block) (.error e) (finished (.ok true))
  | read (block : ℕ) (events : List ChainEvent) : Next i (fetching block) (.events block) (.ok events) (ofEvents block 0 events)
  | handled (block index : ℕ) (details : TransferDetails) (events : List ChainEvent) :
      Next i (handling block index details events) (.handleTransfer i details block index) (.ok ())
        (ofEvents block (index + 1) events)
  | unhandled (block index : ℕ) (details : TransferDetails) (events : List ChainEvent) (e : String) :
      Next i (handling block index details events) (.handleTransfer i details block index) (.error e) releasing
  | closed (block : ℕ) (result : Except String Unit) : Next i (ending block) (.onBlockEnd i block) result (concluded result)

theorem next_of_call {i : ι} {c : MonitorCall ι} {next : Except String c.Answer → MonitorCalls ι Bool}
    (h : stage.rest i = call c next) (answer : Except String c.Answer) :
    ∃ stage', Next i stage c answer stage' ∧ next answer = stage'.rest i := by
  cases stage with
  | acquiring =>
    cases h
    cases answer with
    | ok _ => exact ⟨_, .acquired, rfl⟩
    | error e => exact ⟨_, .unacquired e, rfl⟩
  | loading =>
    cases h
    cases answer with
    | ok _ => exact ⟨_, .loaded, rfl⟩
    | error e => exact ⟨_, .unloaded e, rfl⟩
  | connecting =>
    cases h
    cases answer with
    | ok _ => exact ⟨_, .connected, rfl⟩
    | error e => exact ⟨_, .unconnected e, rfl⟩
  | subscribing =>
    cases h
    exact ⟨_, .subscribed answer, (rest_concluded i answer).symm⟩
  | releasing =>
    cases h
    exact ⟨_, .released answer, rfl⟩
  | polling =>
    cases h
    match answer with
    | .error e => exact ⟨_, .skipped e, rfl⟩
    | .ok none => exact ⟨_, .ended, rfl⟩
    | .ok (some block) => exact ⟨_, .taken block, rfl⟩
  | fetching block =>
    cases h
    cases answer with
    | ok events => exact ⟨_, .read block events, (rest_ofEvents i block 0 events).symm⟩
    | error e => exact ⟨_, .unread block e, rfl⟩
  | handling block index details events =>
    cases h
    cases answer with
    | ok _ => exact ⟨_, .handled block index details events, (rest_ofEvents i block (index + 1) events).symm⟩
    | error e => exact ⟨_, .unhandled block index details events e, rfl⟩
  | ending block =>
    cases h
    exact ⟨_, .closed block answer, (rest_concluded i answer).symm⟩
  | finished result => cases h

end MonitorStage

section Runs

structure Busy (i : ι) (db : MonitorState ι) (block : ℕ) : Prop where
  next : (db.subscriptions i).next = block + 1
  finalized : block < db.finalized
  earlier : ∀ q ∈ db.due, q.block < block → q.block ∈ db.processed

namespace MonitorStage

def Fits (chain : Chain) (i : ι) (db : MonitorState ι) : MonitorStage → Prop
  | polling | finished (.ok true) =>
    (db.subscriptions i).next ≤ db.finalized ∧ ∀ q ∈ db.due, q.block < (db.subscriptions i).next → q.block ∈ db.processed
  | fetching block => Busy i db block ∧ ∀ q ∈ db.due, q.block = block → q.transfer.recipient ∈ db.knownAccounts i
  | handling block index details events =>
    Busy i db block ∧ (∀ q ∈ db.due, q.block = block → q.transfer.recipient ∈ db.knownAccounts i) ∧
      (∃ event, (chain block).drop index = event :: events ∧ event.transferDetails = some details) ∧
      ∀ q ∈ db.due, q.block = block → q.index < index → Recorded db.tables q
  | ending block => Busy i db block ∧ ∀ q ∈ db.due, q.block = block → Recorded db.tables q
  | _ => True

end MonitorStage

structure Later (j : ι) (db db' : MonitorState ι) : Prop where
  recorded : ∀ q, Recorded db.tables q → Recorded db'.tables q
  processed : db.processed ⊆ db'.processed
  due : ∀ q ∈ db'.due, q ∈ db.due ∨ db.finalized ≤ q.block
  finalized : db.finalized ≤ db'.finalized
  known : db'.knownAccounts j = db.knownAccounts j
  next : (db'.subscriptions j).next = (db.subscriptions j).next

open Later

variable {db : MonitorState ι} {j : ι}

namespace Later

variable {db' : MonitorState ι}

section

variable (h : Later j db db')

include h

theorem old (hq : q ∈ db'.due) (hlt : q.block < db.finalized) : q ∈ db.due := by
  rcases h.due q hq with hold | hnew
  · exact hold
  · omega

theorem busy (hbusy : Busy j db block) : Busy j db' block where
  next := h.next.trans hbusy.next
  finalized := lt_of_lt_of_le hbusy.finalized h.finalized
  earlier := by
    intro q hq hlt
    apply h.processed
    exact hbusy.earlier q (h.old hq (lt_trans hlt hbusy.finalized)) hlt

theorem caughtUp (hle : (db.subscriptions j).next ≤ db.finalized)
    (hdone : ∀ q ∈ db.due, q.block < (db.subscriptions j).next → q.block ∈ db.processed) :
    (db'.subscriptions j).next ≤ db'.finalized ∧
      ∀ q ∈ db'.due, q.block < (db'.subscriptions j).next → q.block ∈ db'.processed := by
  rw [h.next]
  refine ⟨le_trans hle h.finalized, ?_⟩
  intro q hq hlt
  exact h.processed (hdone q (h.old hq (lt_of_lt_of_le hlt hle)) hlt)

theorem fits (hstage : stage.Fits chain j db) : stage.Fits chain j db' := by
  cases stage with
  | polling => exact h.caughtUp hstage.1 hstage.2
  | finished result =>
    match result with
    | .ok true => exact h.caughtUp hstage.1 hstage.2
    | .ok false => trivial
    | .error e => trivial
  | fetching block =>
    refine ⟨h.busy hstage.1, ?_⟩
    intro q hq heq
    rw [h.known]
    exact hstage.2 q (h.old hq (heq ▸ hstage.1.finalized)) heq
  | handling block index details events =>
    obtain ⟨hbusy, hknown, hevents, hdone⟩ := hstage
    refine ⟨h.busy hbusy, ?_, hevents, ?_⟩
    · intro q hq heq
      rw [h.known]
      exact hknown q (h.old hq (heq ▸ hbusy.finalized)) heq
    · intro q hq heq hlt
      exact h.recorded q (hdone q (h.old hq (heq ▸ hbusy.finalized)) heq hlt)
  | ending block =>
    refine ⟨h.busy hstage.1, ?_⟩
    intro q hq heq
    exact h.recorded q (hstage.2 q (h.old hq (heq ▸ hstage.1.finalized)) heq)
  | _ => trivial

end

end Later

structure Covered (chain : Chain) (db : MonitorState ι) : Prop where
  observed : Observed chain db.tables
  account : ∀ q ∈ db.due, q.transfer.recipient ∈ db.tables.accounts.listAccountHexes
  finalized : ∀ q ∈ db.due, q.block < db.finalized
  readable : ∀ q ∈ db.due, q.Readable chain
  recorded : ∀ q ∈ db.due, q.block ∈ db.processed → Recorded db.tables q
  processed : ∀ b ∈ db.processed, b < db.finalized
  begun : ∀ b ∈ db.begun, b < db.finalized ∧ ∀ q ∈ db.due, q.block < b → q.block ∈ db.processed

structure Attentive (chain : Chain) (s : MonitorFleet ι) : Prop where
  covered : Covered chain s.db
  stage : ∀ i, ∃ stage : MonitorStage, s.rest i = stage.rest i ∧ stage.Fits chain i s.db

def Attends (fault : Fault) : MonitorCall ι → MonitorState ι → Prop
  | .subscribeFinalized _, db => db.head ≤ db.finalized ∧ ∀ q ∈ db.due, q.block < db.head → q.block ∈ db.processed
  | .nextBlock i, db => ∀ q ∈ db.due, q.block = (db.subscriptions i).next →
      fault ≠ .lost ∧ q.transfer.recipient ∈ db.knownAccounts i
  | .events block, db => ∀ q ∈ db.due, q.block = block → fault = .none
  | .handleTransfer _ _ block index, db => ∀ q ∈ db.due, q.block = block → q.index = index → fault ≠ .refused
  | _, _ => True

def AttendsNext (fault : Fault) (db : MonitorState ι) : MonitorCalls ι Bool → Prop
  | .call c _ => Attends fault c db
  | .done _ => True

def Attended (chain : Chain) : Move ι Fault (MonitorEvent ι) → MonitorFleet ι → Prop
  | .answer i fault, s => AttendsNext fault s.db (s.rest i)
  | .world .finalize, s => ∀ q ∈ dues s.db.finalized (chain s.db.finalized) s.db.tables.accounts, q.Readable chain
  | _, _ => True

def AllRecorded (s : MonitorFleet ι) : Prop :=
  ∀ q ∈ s.db.due, ∀ b ∈ s.db.begun, q.block < b → Recorded s.db.tables q

variable {s : MonitorFleet ι}

theorem not_allRecorded {b : ℕ} (hq : q ∈ s.db.due) (hb : b ∈ s.db.begun) (hlt : q.block < b)
    (hnone : s.db.tables.deposits.get? ((q.block : ℤ), (q.index : ℤ)) = none) : ¬ AllRecorded s := by
  intro h
  obtain ⟨⟨deposit, hdeposit, -⟩, -⟩ := h q hq b hb hlt
  rw [hnone] at hdeposit
  cases hdeposit

section Steps

variable {i : ι} {index : ℕ} {events : List ChainEvent}

theorem fits_ofEvents (hreadable : ∀ q ∈ db.due, q.Readable chain)
    (hbusy : Busy i db block) (hknown : ∀ q ∈ db.due, q.block = block → q.transfer.recipient ∈ db.knownAccounts i)
    (hevents : (chain block).drop index = events)
    (hdone : ∀ q ∈ db.due, q.block = block → q.index < index → Recorded db.tables q) :
    (ofEvents block index events).Fits chain i db := by
  induction events generalizing index with
  | nil =>
    refine ⟨hbusy, ?_⟩
    intro q hq heq
    have hlt := index_lt_of_rendered (hreadable q hq).2
    rw [heq] at hlt
    have hlength := drop_eq_nil_iff.mp hevents
    exact hdone q hq heq (by omega)
  | cons event events ih =>
    unfold ofEvents
    cases hdetails : event.transferDetails with
    | some details => exact ⟨hbusy, hknown, ⟨event, hevents, hdetails⟩, hdone⟩
    | none =>
      have hevent : (chain block)[index]? = some event := by
        rw [← head?_drop, hevents]
        rfl
      apply ih
      · rw [← tail_drop, hevents]
        rfl
      · intro q hq heq hlt
        rcases Nat.lt_succ_iff_lt_or_eq.mp hlt with hlt | hindex
        · exact hdone q hq heq hlt
        · -- an event that is not handed on is not a readable transfer
          have hrendered := (hreadable q hq).2
          rw [heq, hindex] at hrendered
          unfold renderedAt at hrendered
          rw [hevent] at hrendered
          simp only [bind_eq_bind, bind_some, hdetails, bind_none, reduceCtorEq] at hrendered

theorem Attentive.world (h : Attentive chain s) (hcovered : Covered chain db)
    (hlater : ∀ j, Later j s.db db) : Attentive chain ⟨db, s.rest⟩ where
  covered := hcovered
  stage := by
    intro j
    obtain ⟨stage, hstage, hfits⟩ := h.stage j
    exact ⟨stage, hstage, (hlater j).fits hfits⟩

variable {leader : Option ι} {head : ℕ} {known : ι → List AccountHex} {subscriptions : ι → Subscription}

/-- What a step of another monitor may change without a write to the tables. -/
theorem Later.keep
    {begun processed : List ℕ} (hprocessed : db.processed ⊆ processed)
    (hknown : known j = db.knownAccounts j) (hnext : (subscriptions j).next = (db.subscriptions j).next) :
    Later j db ⟨db.tables, leader, known, subscriptions, head, db.finalized, db.due, begun, processed⟩ :=
  ⟨fun _ h => h, hprocessed, fun _ h => Or.inl h, le_rfl, hknown, hnext⟩

theorem Later.refl (j : ι) (db : MonitorState ι) : Later j db db := keep (Subset.refl _) rfl rfl

theorem Covered.quiet (h : Covered chain db)
    :
    Covered chain ⟨db.tables, leader, known, subscriptions, head, db.finalized, db.due, db.begun, db.processed⟩ :=
  ⟨h.observed, h.account, h.finalized, h.readable, h.recorded, h.processed, h.begun⟩

variable {t : PaymentTables}

theorem Covered.tables (h : Covered chain db) (hextends : Extends db.tables t)
    (hobserved : Observed chain t) : Covered chain { db with tables := t } where
  observed := hobserved
  account := fun q hq => hextends.accounts _ (h.account q hq)
  finalized := h.finalized
  readable := h.readable
  recorded := fun q hq hblock => hextends.recorded (h.recorded q hq hblock)
  processed := h.processed
  begun := h.begun

theorem Later.tables (j : ι) (db : MonitorState ι) (hextends : Extends db.tables t) :
    Later j db { db with tables := t } :=
  ⟨fun _ h => hextends.recorded h, fun _ h => h, fun _ h => Or.inl h, le_rfl, rfl, rfl⟩

theorem Covered.process (h : Covered chain db) (hbusy : Busy i db block)
    (hdone : ∀ q ∈ db.due, q.block = block → Recorded db.tables q) :
    Covered chain { db with processed := block :: db.processed } where
  observed := h.observed
  account := h.account
  finalized := h.finalized
  readable := h.readable
  recorded := by
    intro q hq hblock
    rcases mem_cons.mp hblock with heq | hmem
    · exact hdone q hq heq
    · exact h.recorded q hq hmem
  processed := by
    intro b hb
    rcases mem_cons.mp hb with rfl | hmem
    · exact hbusy.finalized
    · exact h.processed b hmem
  begun := by
    intro b hb
    obtain ⟨hlt, hearlier⟩ := h.begun b hb
    exact ⟨hlt, fun q hq hqb => mem_cons_of_mem _ (hearlier q hq hqb)⟩

theorem Busy.fits (hbusy : Busy i db block) (hdone : ∀ q ∈ db.due, q.block = block → q.block ∈ db.processed) :
    (finished (.ok true)).Fits chain i db := by
  refine ⟨hbusy.next ▸ hbusy.finalized, ?_⟩
  intro q hq hlt
  rw [hbusy.next] at hlt
  rcases Nat.lt_succ_iff_lt_or_eq.mp hlt with hlt | heq
  · exact hbusy.earlier q hq hlt
  · exact hdone q hq heq

theorem fits_processed (hbusy : Busy i db block) :
    (finished (.ok true)).Fits chain i { db with processed := block :: db.processed } := by
  refine Busy.fits ⟨hbusy.next, hbusy.finalized, ?_⟩ (fun _ _ heq => heq ▸ mem_cons_self)
  exact fun q hq hlt => mem_cons_of_mem _ (hbusy.earlier q hq hlt)

theorem deposit_isSome_of_record
    (h : t.recordDeposit transfer block index = some t') : (t'.deposits.get? ((block : ℤ), asI32 index)).isSome := by
  obtain ⟨-, ⟨hdeposits, hsome⟩ | ⟨hget, -⟩⟩ := recordDeposit_cases h
  · rw [hdeposits]
    exact hsome
  · rw [hget, if_pos rfl]
    rfl

variable {details : TransferDetails}

theorem tables_handleTransfer (hcovered : Covered chain db)
    {event : ChainEvent} (hevents : (chain block).drop index = event :: events)
    (hdetails : event.transferDetails = some details) (fault : Fault) :
    ∃ t, db.handleTransfer i details block index fault = { db with tables := t } ∧ Extends db.tables t ∧ Observed chain t ∧
      ((∃ q ∈ db.due, q.block = block ∧ q.index = index ∧ q.transfer.recipient ∈ db.knownAccounts i ∧ fault ≠ .refused) →
        (t.deposits.get? ((block : ℤ), asI32 index)).isSome) := by
  have hrendered : renderedAt chain block index = details.transfer? := by
    unfold renderedAt
    rw [← head?_drop, hevents]
    simp only [head?_cons, bind_eq_bind, bind_some, hdetails]
  unfold MonitorState.handleTransfer
  cases htransfer : details.transfer? with
  | none =>
    refine ⟨db.tables, rfl, Extends.refl _, hcovered.observed, ?_⟩
    rintro ⟨q, hq, rfl, rfl, -, -⟩
    have hreadable := (hcovered.readable q hq).2
    rw [hrendered, htransfer] at hreadable
    cases hreadable
  | some transfer =>
    rw [htransfer] at hrendered
    refine ⟨_, rfl, ?_⟩
    have hwrites : (∃ q ∈ db.due, q.block = block ∧ q.index = index ∧ q.transfer.recipient ∈ db.knownAccounts i ∧
        fault ≠ .refused) → db.tables.recordDeposit transfer block index =
          some (db.tables.handleTransfer (db.knownAccounts i) transfer block index fault) := by
      rintro ⟨q, hq, rfl, rfl, hknown, hfault⟩
      obtain rfl : q.transfer = transfer := some.inj ((hcovered.readable q hq).2.symm.trans hrendered)
      obtain ⟨t, ht⟩ := recordDeposit_isSome (hcovered.account q hq) q.block q.index
      unfold handleTransfer
      rw [if_neg (not_not.mpr hknown), if_neg hfault, ht]
      rfl
    rcases handleTransfer_cases db.tables (db.knownAccounts i) transfer block index fault with hsame | hrecord
    · rw [hsame] at hwrites ⊢
      exact ⟨Extends.refl _, hcovered.observed, fun hq => deposit_isSome_of_record (hwrites hq)⟩
    · exact ⟨(recordDeposit_cases hrecord).1, hcovered.observed.record hrendered hrecord,
        fun _ => deposit_isSome_of_record hrecord⟩

theorem mem_dues {accounts : DepositAccounts}
    (h : q ∈ dues block events accounts) : q.block = block ∧ q.transfer.recipient ∈ accounts.listAccountHexes := by
  obtain ⟨⟨event, index⟩, -, hdue⟩ := mem_filterMap.mp h
  obtain ⟨transfer, -, hdue⟩ := bind_eq_some_iff.mp hdue
  split_ifs at hdue with hknown
  cases hdue
  exact ⟨rfl, hknown⟩

theorem Attentive.finalize (h : Attentive chain s)
    (hok : ∀ q ∈ dues s.db.finalized (chain s.db.finalized) s.db.tables.accounts, q.Readable chain) :
    Attentive chain ⟨{ s.db with
      finalized := s.db.finalized + 1
      due := s.db.due ++ dues s.db.finalized (chain s.db.finalized) s.db.tables.accounts }, s.rest⟩ := by
  obtain ⟨hobserved, haccount, hfinalized, hreadable, hrecorded, hprocessed, hbegun⟩ := h.covered
  -- nobody is done with a block that is not finalized, or at work on one
  have hblock : ∀ q ∈ dues s.db.finalized (chain s.db.finalized) s.db.tables.accounts, q.block = s.db.finalized :=
    fun q hq => (mem_dues hq).1
  apply h.world
  · refine ⟨hobserved, ?_, ?_, ?_, ?_, fun b hb => Nat.lt_succ_of_lt (hprocessed b hb), ?_⟩
    · exact forall_mem_append.mpr ⟨haccount, fun q hq => (mem_dues hq).2⟩
    · exact forall_mem_append.mpr
        ⟨fun q hq => Nat.lt_succ_of_lt (hfinalized q hq), fun q hq => Nat.lt_succ_of_le (hblock q hq).le⟩
    · exact forall_mem_append.mpr ⟨hreadable, hok⟩
    · refine forall_mem_append.mpr ⟨hrecorded, ?_⟩
      intro q hq hdone
      exact absurd (hprocessed q.block hdone) (hblock q hq).not_lt
    · intro b hb
      obtain ⟨hlt, hearlier⟩ := hbegun b hb
      refine ⟨Nat.lt_succ_of_lt hlt, forall_mem_append.mpr ⟨hearlier, ?_⟩⟩
      intro q hq hqb
      exact absurd (lt_trans hqb hlt) (hblock q hq).not_lt
  · intro j
    refine ⟨fun _ hq => hq, fun _ hb => hb, ?_, Nat.le_succ _, rfl, rfl⟩
    exact forall_mem_append.mpr ⟨fun _ hq => Or.inl hq, fun q hq => Or.inr (hblock q hq).ge⟩

variable [DecidableEq ι]

theorem Attentive.move (h : Attentive chain s) (stage : MonitorStage) (hcovered : Covered chain db)
    (hfits : stage.Fits chain i db) (hlater : ∀ j, j ≠ i → Later j s.db db) :
    Attentive chain ⟨db, update s.rest i (stage.rest i)⟩ where
  covered := hcovered
  stage := by
    intro j
    by_cases hj : j = i
    · subst hj
      exact ⟨stage, update_self .., hfits⟩
    · obtain ⟨other, hother, hfitsOther⟩ := h.stage j
      exact ⟨other, (update_of_ne hj ..).trans hother, (hlater j hj).fits hfitsOther⟩

theorem Later.subscribe (hj : j ≠ i) (db : MonitorState ι) (sub : Subscription) : Later j db (db.subscribe i sub) :=
  keep (Subset.refl _) rfl (congrArg Subscription.next (update_of_ne hj ..))

variable {fault : Fault}

section

variable (h : Attentive chain s)

include h

theorem Attentive.handled (hfits : (handling block index details events).Fits chain i s.db)
    (hok : Attends fault (.handleTransfer i details block index) s.db) :
    Attentive chain ⟨s.db.handleTransfer i details block index fault,
      update s.rest i ((ofEvents block (index + 1) events).rest i)⟩ := by
  obtain ⟨hbusy, hknown, ⟨event, hevents, hdetails⟩, hdone⟩ := hfits
  obtain ⟨t, ht, hextends, hobserved, hkey⟩ := tables_handleTransfer (i := i) h.covered hevents hdetails fault
  rw [ht]
  apply h.move _ (h.covered.tables hextends hobserved) _ (fun j _ => tables j s.db hextends)
  refine fits_ofEvents ?_ ((tables i s.db hextends).busy hbusy) ?_ ?_ ?_
  · exact h.covered.readable
  · exact hknown
  · rw [← tail_drop, hevents]
    rfl
  · intro q hq heq hlt
    rcases Nat.lt_succ_iff_lt_or_eq.mp hlt with hlt | hindex
    · exact hextends.recorded (hdone q hq heq hlt)
    · apply hobserved.recorded (h.covered.readable q hq)
      rw [heq, hindex]
      exact hkey ⟨q, hq, heq, hindex, hknown q hq heq, hok q hq heq hindex⟩

theorem Attentive.polled {answer : Except String (Option ℕ)}
    (hfits : polling.Fits chain i s.db) (hok : Attends fault (.nextBlock i) s.db)
    (hdesk : s.db.nextBlock i fault = some (answer, db))
    (hnext : polling.Next i (.nextBlock i) answer stage) :
    Attentive chain ⟨db, update s.rest i (stage.rest i)⟩ := by
  obtain ⟨hle, hdone⟩ := hfits
  have hsame : (finished (.ok true)).Fits chain i s.db := ⟨hle, hdone⟩
  unfold MonitorState.nextBlock at hdesk
  by_cases hended : (s.db.subscriptions i).ended
  · rw [if_pos hended] at hdesk
    cases hdesk
    cases hnext
    exact h.move .releasing h.covered trivial (fun j _ => refl j s.db)
  · rw [if_neg hended] at hdesk
    cases fault with
    | refused =>
      cases hdesk
      cases hnext
      exact h.move _ h.covered hsame (fun j _ => refl j s.db)
    | lost =>
      split_ifs at hdesk with hlt
      cases hdesk
      cases hnext
      apply h.move _ h.covered.quiet _ (fun j hj => subscribe hj s.db _)
      -- the block that is passed over has no due transfer
      refine Busy.fits ⟨?_, hlt, hdone⟩ (fun q hq heq => absurd rfl (hok q hq heq).1)
      dsimp only
      rw [update_self]
    | none =>
      split_ifs at hdesk with hlt
      cases hdesk
      cases hnext
      apply h.move
      · obtain ⟨hobserved, haccount, hfinalized, hreadable, hrecorded, hprocessed, hbegun⟩ := h.covered
        refine ⟨hobserved, haccount, hfinalized, hreadable, hrecorded, hprocessed, ?_⟩
        intro b hb
        rcases mem_cons.mp hb with rfl | hmem
        · exact ⟨hlt, hdone⟩
        · exact hbegun b hmem
      · refine ⟨⟨?_, hlt, hdone⟩, fun q hq heq => (hok q hq heq).2⟩
        change (update s.db.subscriptions i _ i).next = _
        rw [update_self]
      · intro j hj
        exact keep (Subset.refl _) rfl (congrArg Subscription.next (update_of_ne hj ..))

theorem Attentive.closed (hfits : (ending block).Fits chain i s.db) (fault : Fault) :
    Attentive chain ⟨(s.db.onBlockEnd i block fault).2,
      update s.rest i ((concluded (s.db.onBlockEnd i block fault).1).rest i)⟩ := by
  obtain ⟨hbusy, hdone⟩ := hfits
  unfold MonitorState.onBlockEnd
  by_cases hblock : block % 128 = 0
  · rw [if_pos hblock]
    cases fault with
    | none =>
      apply h.move (.finished (.ok true))
      · exact h.covered.quiet.process ⟨hbusy.next, hbusy.finalized, hbusy.earlier⟩ hdone
      · exact fits_processed ⟨hbusy.next, hbusy.finalized, hbusy.earlier⟩
      · intro j hj
        exact keep (subset_cons_self _ _) (update_of_ne hj ..) rfl
    | refused | lost => exact h.move .releasing h.covered trivial (fun j _ => refl j s.db)
  · rw [if_neg hblock]
    exact h.move (.finished (.ok true)) (h.covered.process hbusy hdone) (fits_processed hbusy)
      (fun j _ => keep (subset_cons_self _ _) rfl rfl)

theorem Attentive.acquired (fault : Fault) (stage : MonitorStage)
    (hfits : ∀ db : MonitorState ι, stage.Fits chain i db) :
    Attentive chain ⟨(s.db.tryAcquire i fault).2, update s.rest i (stage.rest i)⟩ := by
  have hsame : Attentive chain ⟨s.db, update s.rest i (stage.rest i)⟩ :=
    h.move stage h.covered (hfits s.db) (fun j _ => refl j s.db)
  unfold MonitorState.tryAcquire
  cases fault with
  | none =>
    split_ifs
    · exact h.move stage h.covered.quiet (hfits _) (fun j _ => keep (Subset.refl _) rfl rfl)
    · exact hsame
  | refused | lost => exact hsame

end

theorem attentive_keeps : Keeps (monitorSystem ι chain) (Attended chain) (Attentive chain) where
  answer := by
    intro s i fault c next r db h hok hrest hdesk
    obtain ⟨stage, hstage, hfits⟩ := h.stage i
    obtain ⟨stage', hnext, hrest'⟩ := next_of_call (hstage.symm.trans hrest) r
    have hattends : Attends fault c s.db := by
      change AttendsNext fault s.db (s.rest i) at hok
      rw [hrest] at hok
      exact hok
    have hquiet : ∀ stage : MonitorStage, (∀ db : MonitorState ι, stage.Fits chain i db) →
        Attentive chain ⟨s.db, update s.rest i (stage.rest i)⟩ :=
      fun stage hfits => h.move stage h.covered (hfits s.db) (fun j _ => refl j s.db)
    rw [hrest']
    cases hnext with
    | acquired =>
      have hdb : (s.db.tryAcquire i fault).2 = db := congrArg Prod.snd (some.inj hdesk)
      rw [← hdb]
      exact h.acquired fault .loading (fun _ => trivial)
    | unacquired e =>
      have hdb : (s.db.tryAcquire i fault).2 = db := congrArg Prod.snd (some.inj hdesk)
      rw [← hdb]
      exact h.acquired fault (.finished (.error e)) (fun _ => trivial)
    | loaded =>
      cases fault with
      | none =>
        cases hdesk
        exact h.move .connecting h.covered.quiet trivial
          (fun j hj => keep (Subset.refl _) (update_of_ne hj ..) rfl)
      | refused | lost => cases hdesk
    | unloaded e =>
      cases fault with
      | none => cases hdesk
      | refused | lost =>
        cases hdesk
        exact hquiet .releasing (fun _ => trivial)
    | connected =>
      obtain rfl : s.db = db := congrArg Prod.snd (some.inj hdesk)
      exact hquiet .subscribing (fun _ => trivial)
    | unconnected e =>
      obtain rfl : s.db = db := congrArg Prod.snd (some.inj hdesk)
      exact hquiet .releasing (fun _ => trivial)
    | subscribed r =>
      cases fault with
      | none =>
        cases hdesk
        apply h.move (.finished (.ok true)) h.covered.quiet _ (fun j hj => subscribe hj s.db _)
        unfold MonitorStage.Fits
        dsimp only
        rw [update_self]
        exact hattends
      | refused | lost =>
        cases hdesk
        exact hquiet .releasing (fun _ => trivial)
    | released r =>
      cases hdesk
      split_ifs
      · exact hquiet (.finished (.ok false)) (fun _ => trivial)
      · exact h.move (.finished (.ok false)) h.covered.quiet trivial (fun j _ => keep (Subset.refl _) rfl rfl)
    | skipped e => exact h.polled hfits hattends hdesk (.skipped e)
    | ended => exact h.polled hfits hattends hdesk .ended
    | taken block => exact h.polled hfits hattends hdesk (.taken block)
    | unread block e =>
      have hfault : fault ≠ .none := by
        rintro rfl
        cases hdesk
      obtain rfl : s.db = db := congrArg Prod.snd (some.inj hdesk)
      apply h.move _ h.covered _ (fun j _ => refl j s.db)
      exact hfits.1.fits (fun q hq heq => absurd (hattends q hq heq) hfault)
    | read block events =>
      cases fault with
      | none =>
        cases hdesk
        apply h.move _ h.covered _ (fun j _ => refl j s.db)
        apply fits_ofEvents h.covered.readable hfits.1 hfits.2 rfl
        intro q _ _ hlt
        omega
      | refused | lost => cases hdesk
    | handled block index details events =>
      cases hdesk
      exact h.handled hfits hattends
    | unhandled block index details events e => cases hdesk
    | closed block r =>
      have hanswer : s.db.onBlockEnd i block fault = (r, db) := some.inj hdesk
      have hclosed := h.closed hfits fault
      rw [hanswer] at hclosed
      exact hclosed
  finished := by
    intro s i r h hrest
    obtain ⟨stage, hstage, hfits⟩ := h.stage i
    have hrest' : stage.rest i = done r := hstage.symm.trans hrest
    cases stage with
    | finished result =>
      obtain rfl : result = r := done.inj hrest'
      match result with
      | .ok true => exact h.move .polling h.covered hfits (fun j _ => refl j s.db)
      | .ok false => exact h.move .acquiring h.covered trivial (fun j _ => refl j s.db)
      | .error e => exact h.move .acquiring h.covered trivial (fun j _ => refl j s.db)
    | _ => cases hrest'
  restart := by
    intro s i h _
    exact h.move .acquiring h.covered trivial (fun j _ => refl j s.db)
  world := by
    intro s m h hok
    cases m with
    | insertAccount account =>
      have hextends := extends_insertTx s.db.tables account
      exact h.world (h.covered.tables hextends h.covered.observed) (fun j => tables j s.db hextends)
    | dispatch c =>
      have hextends := extends_effect s.db.tables c
      exact h.world (h.covered.tables hextends (h.covered.observed.effect c)) (fun j => tables j s.db hextends)
    | clock now =>
      have hextends : Extends s.db.tables { s.db.tables with now := now } :=
        ⟨fun _ deposit hkey _ hshows => ⟨deposit, hkey, hshows⟩, fun _ htxid => htxid, fun _ hhex => hhex⟩
      exact h.world (h.covered.tables hextends h.covered.observed) (fun j => tables j s.db hextends)
    | finalize => exact h.finalize hok
    | head block => exact h.world h.covered.quiet (fun j => keep (Subset.refl _) rfl rfl)
    | endSubscription i =>
      apply h.world h.covered.quiet
      intro j
      apply keep (Subset.refl _) rfl
      change (update s.db.subscriptions i _ j).next = _
      by_cases hj : j = i
      · subst hj
        rw [update_self]
      · rw [update_of_ne hj]
    | unlock => exact h.world h.covered.quiet (fun j => keep (Subset.refl _) rfl rfl)

end Steps

def MonitorState.opening (accounts : DepositAccounts) (now : ℤ) (head finalized : ℕ) : MonitorState ι where
  tables := ⟨accounts, .empty, .empty, [], now⟩
  leader := none
  knownAccounts := fun _ => []
  subscriptions := fun _ => ⟨0, true⟩
  head := head
  finalized := finalized
  due := []
  begun := []
  processed := []

variable [DecidableEq ι]

theorem attentive_start (accounts : DepositAccounts) (now : ℤ) (head finalized : ℕ) :
    Attentive chain (start (monitorSystem ι chain) (.opening accounts now head finalized)) where
  covered := by
    constructor
    · intro key deposit hkey
      cases hkey
    all_goals
      intro x hx
      cases hx
  stage := fun _ => ⟨.acquiring, rfl, trivial⟩

theorem attended_run_records (accounts : DepositAccounts) (now : ℤ) (head finalized : ℕ)
    (l : List (Move ι Fault (MonitorEvent ι)))
    (h : EachStep (step (monitorSystem ι chain)) (Attended chain) l
      (start (monitorSystem ι chain) (.opening accounts now head finalized))) :
    Throughout (step (monitorSystem ι chain)) AllRecorded l
      (start (monitorSystem ι chain) (.opening accounts now head finalized)) :=
  attentive_keeps.throughout (fun _ hs q hq b hb hlt => hs.covered.recorded q hq ((hs.covered.begun b hb).2 q hq hlt))
    (attentive_start accounts now head finalized) h

instance (fault : Fault) (db : MonitorState ι) : (c : MonitorCall ι) → Decidable (Attends fault c db)
  | .subscribeFinalized _ => inferInstanceAs (Decidable
      (db.head ≤ db.finalized ∧ ∀ q ∈ db.due, q.block < db.head → q.block ∈ db.processed))
  | .nextBlock i => inferInstanceAs (Decidable (∀ q ∈ db.due, q.block = (db.subscriptions i).next →
      fault ≠ .lost ∧ q.transfer.recipient ∈ db.knownAccounts i))
  | .events block => inferInstanceAs (Decidable (∀ q ∈ db.due, q.block = block → fault = .none))
  | .handleTransfer _ _ block index =>
    inferInstanceAs (Decidable (∀ q ∈ db.due, q.block = block → q.index = index → fault ≠ .refused))
  | .tryAcquire _ | .listAccountHexes _ | .connect | .onBlockEnd _ _ | .release _ => isTrue trivial

instance (fault : Fault) (db : MonitorState ι) : (p : MonitorCalls ι Bool) → Decidable (AttendsNext fault db p)
  | .call c _ => inferInstanceAs (Decidable (Attends fault c db))
  | .done _ => isTrue trivial

instance : DecidablePred (Due.Readable chain) := fun _ =>
  inferInstanceAs (Decidable (_ ∧ _))

instance : (m : Move ι Fault (MonitorEvent ι)) → (s : MonitorFleet ι) → Decidable (Attended chain m s)
  | .answer i fault, s => inferInstanceAs (Decidable (AttendsNext fault s.db (s.rest i)))
  | .world .finalize, s => inferInstanceAs (Decidable
      (∀ q ∈ dues s.db.finalized (chain s.db.finalized) s.db.tables.accounts, q.Readable chain))
  | .restart _, _ | .world (.insertAccount _), _ | .world (.dispatch _), _ | .world (.clock _), _ | .world (.head _), _
  | .world (.endSubscription _), _ | .world .unlock, _ => isTrue trivial

def aliceHex : AccountHex := "0a0a0a0a0a0a0a0a0a0a0a0a0a0a0a0a0a0a0a0a0a0a0a0a0a0a0a0a0a0a0a0a"

def bobHex : AccountHex := "0b0b0b0b0b0b0b0b0b0b0b0b0b0b0b0b0b0b0b0b0b0b0b0b0b0b0b0b0b0b0b0b"

def onePayment : Chain := fun block =>
  if block = 1 then
    [⟨some ⟨bobHex, aliceHex, 1000000000⟩, some ⟨"Balances", "Transfer",
      some (.named [("from", "0x" ++ bobHex), ("to", "0x" ++ aliceHex), ("amount", "1000000000")])⟩⟩]
  else []

def leads (i : Two) (l : List (Move Two Fault (MonitorEvent Two))) : List (Move Two Fault (MonitorEvent Two)) :=
  answered i 5 l

def openAccount : Move Two Fault (MonitorEvent Two) := .world (.insertAccount ⟨"alice", "5A", aliceHex⟩)

def works (i : Two) (calls : ℕ) (l : List (Move Two Fault (MonitorEvent Two))) : List (Move Two Fault (MonitorEvent Two)) :=
  .world .finalize :: answered i (calls + 2) l

def attendedRun : List (Move Two Fault (MonitorEvent Two)) :=
  openAccount :: leads .first (works .first 3
    (.restart .first :: .world .unlock :: .world (.head 2) :: leads .second (works .second 2 [])))

theorem attended_run_records_payment : EachStep (step (monitorSystem Two onePayment)) (Attended onePayment) attendedRun
        (start (monitorSystem Two onePayment) (.opening .empty 0 1 1)) ∧
      (last (step (monitorSystem Two onePayment)) attendedRun
        (start (monitorSystem Two onePayment) (.opening .empty 0 1 1))).db.processed = [2, 1] ∧
      Throughout (step (monitorSystem Two onePayment)) AllRecorded attendedRun
        (start (monitorSystem Two onePayment) (.opening .empty 0 1 1)) := by
  have hrun : EachStep (step (monitorSystem Two onePayment)) (Attended onePayment) attendedRun
      (start (monitorSystem Two onePayment) (.opening .empty 0 1 1)) := by
    decide +kernel
  exact ⟨hrun, by decide +kernel, attended_run_records .empty 0 1 1 attendedRun hrun⟩

def lateAccountRun : List (Move Two Fault (MonitorEvent Two)) :=
  leads .first (openAccount :: works .first 3 (works .first 2 []))

def gapRun : List (Move Two Fault (MonitorEvent Two)) :=
  openAccount :: leads .first
    (.restart .first :: .world .finalize :: .world .unlock :: .world (.head 2) :: leads .second (works .second 2 []))

theorem payment_missed :
    let missed := fun run => last (step (monitorSystem Two onePayment)) run
      (start (monitorSystem Two onePayment) (.opening .empty 0 1 1))
    (2 ∈ (missed lateAccountRun).db.processed ∧ ¬ AllRecorded (missed lateAccountRun)) ∧
      2 ∈ (missed gapRun).db.processed ∧ ¬ AllRecorded (missed gapRun) := by
  intro missed
  have hruns : ∀ run ∈ [lateAccountRun, gapRun], (⟨1, 0, ⟨bobHex, aliceHex, 1000000000⟩⟩ : Due) ∈ (missed run).db.due ∧
      2 ∈ (missed run).db.begun ∧ 2 ∈ (missed run).db.processed ∧ (missed run).db.tables.deposits.get? (1, 0) = none := by
    decide +kernel
  have hmissed : ∀ run ∈ [lateAccountRun, gapRun], 2 ∈ (missed run).db.processed ∧ ¬ AllRecorded (missed run) := by
    intro run hrun
    obtain ⟨hdue, hbegun, hprocessed, hnone⟩ := hruns run hrun
    exact ⟨hprocessed, not_allRecorded hdue hbegun (by decide) hnone⟩
  exact ⟨hmissed lateAccountRun mem_cons_self, hmissed gapRun (mem_cons_of_mem _ mem_cons_self)⟩

end Runs

end Basilica.Payments
