import Basilica.AssocMaps
import Basilica.ColumnText
import Basilica.Fleets

/-!
The tables of the payments service: deposit accounts, observed deposits and the outbox of credits to be applied.
-/

namespace Basilica.Payments

open AssocMaps ColumnText Fleets List Option AssocMap

abbrev UserId := String

abbrev AccountHex := String

abbrev TransactionId := String

abbrev OutboxId := ℕ

structure DepositAccount where
  userId : UserId
  addressSs58 : String
  accountIdHex : AccountHex

structure DepositAccounts where
  rows : List DepositAccount
  users : (rows.map DepositAccount.userId).Nodup
  addresses : (rows.map DepositAccount.addressSs58).Nodup
  hexes : (rows.map DepositAccount.accountIdHex).Nodup

namespace DepositAccounts

def empty : DepositAccounts := ⟨[], nodup_nil, nodup_nil, nodup_nil⟩

theorem nodup_map_concat {α β : Type} {f : α → β} {l : List α} {a : α} (h : (l.map f).Nodup) (ha : f a ∉ l.map f) :
    ((l ++ [a]).map f).Nodup := by
  rw [map_append, map_singleton, ← concat_eq_append, nodup_concat]
  exact ⟨ha, h⟩

def insertTx (accounts : DepositAccounts) (account : DepositAccount) : DepositAccounts :=
  if h : account.userId ∉ accounts.rows.map DepositAccount.userId ∧
      account.addressSs58 ∉ accounts.rows.map DepositAccount.addressSs58 ∧
      account.accountIdHex ∉ accounts.rows.map DepositAccount.accountIdHex then
    ⟨accounts.rows ++ [account], nodup_map_concat accounts.users h.1, nodup_map_concat accounts.addresses h.2.1,
      nodup_map_concat accounts.hexes h.2.2⟩
  else accounts

def listAccountHexes (accounts : DepositAccounts) : List AccountHex := accounts.rows.map DepositAccount.accountIdHex

/-- `SELECT user_id FROM deposit_accounts WHERE account_id_hex = $1` -/
def owner? (accounts : DepositAccounts) (hex : AccountHex) : Option UserId :=
  (accounts.rows.find? (fun account => account.accountIdHex = hex)).map DepositAccount.userId

variable {accounts : DepositAccounts} {hex : AccountHex}

theorem owner?_insertTx {user : UserId} (h : accounts.owner? hex = some user) (account : DepositAccount) :
    (accounts.insertTx account).owner? hex = some user := by
  unfold insertTx
  split_ifs
  · obtain ⟨row, hrow, rfl⟩ := map_eq_some_iff.mp h
    unfold owner?
    rw [find?_append, hrow]
    rfl
  · exact h

theorem owner?_isSome_iff : (accounts.owner? hex).isSome ↔ hex ∈ accounts.listAccountHexes := by
  unfold owner? listAccountHexes
  rw [Option.isSome_map, List.find?_isSome, List.mem_map]
  simp only [decide_eq_true_eq]

end DepositAccounts

/-- `format!("b{}#e{}#{}", block_number, event_index, to)` -/
def transactionId (block index : ℕ) (recipient : AccountHex) : TransactionId := s!"b{block}#e{index}#{recipient}"

/-- `'b' || block_number::text || '#e' || event_index::text || '#' || to_account_hex` -/
def creditedKey (block index : ℤ) (recipient : AccountHex) : TransactionId :=
  "b" ++ toString block ++ "#e" ++ toString index ++ "#" ++ recipient

/-- `event_index as i32` -/
def asI32 (n : ℕ) : ℤ := (BitVec.ofNat 32 n).toInt

inductive DepositStatus
  | finalized
  | credited
deriving DecidableEq

structure ObservedDeposit where
  toAccountHex : AccountHex
  fromAccountHex : AccountHex
  amountPlancks : ℕ
  status : DepositStatus
  creditedAt : Option ℤ
  billingCreditId : Option String

def ObservedDeposit.credit (deposit : ObservedDeposit) (now : ℤ) (creditId : String) : ObservedDeposit :=
  { deposit with status := .credited, creditedAt := some now, billingCreditId := some creditId }

structure OutboxEntry where
  userId : UserId
  amountPlancks : ℕ
  transactionId : TransactionId
  attempts : ℕ
  claimedAt : Option ℤ
  nextAttemptAt : ℤ
  dispatchedAt : Option ℤ
deriving DecidableEq

namespace OutboxEntry

def new (user : UserId) (amount : ℕ) (txid : TransactionId) (now : ℤ) : OutboxEntry := ⟨user, amount, txid, 0, none, now, none⟩

variable (entry : OutboxEntry)

def claim (now : ℤ) : OutboxEntry :=
  { entry with claimedAt := some now, attempts := entry.attempts + 1 }

def dispatch (now : ℤ) : OutboxEntry := { entry with dispatchedAt := some now }

def postpone (next : ℤ) : OutboxEntry := { entry with nextAttemptAt := next }

theorem transactionId_claim (now : ℤ) : (entry.claim now).transactionId = entry.transactionId := rfl

theorem transactionId_dispatch (now : ℤ) : (entry.dispatch now).transactionId = entry.transactionId := rfl

theorem transactionId_postpone (next : ℤ) : (entry.postpone next).transactionId = entry.transactionId := rfl

end OutboxEntry

structure Outbox where
  rows : AssocMap OutboxId OutboxEntry
  nextId : OutboxId
  below : ∀ id ∈ rows.keys, id < nextId
  unique : (rows.values.map OutboxEntry.transactionId).Nodup

variable {id : OutboxId}

namespace Outbox

def empty : Outbox := ⟨.empty, 1, fun _ h => absurd h not_mem_nil, nodup_nil⟩

/-- `UPDATE billing_outbox SET … WHERE …` -/
def update (outbox : Outbox) (p : OutboxId → Prop) [DecidablePred p] (set : OutboxEntry → OutboxEntry)
    (hset : ∀ entry, (set entry).transactionId = entry.transactionId) : Outbox where
  rows := outbox.rows.mapWith (fun id entry => if p id then set entry else entry)
  nextId := outbox.nextId
  below := by
    intro id hid
    rw [AssocMap.keys_mapWith] at hid
    exact outbox.below id hid
  unique := by
    have hids : (fun q : OutboxId × OutboxEntry => (if p q.1 then set q.2 else q.2).transactionId) =
        fun q => q.2.transactionId := by
      funext q
      split_ifs
      · exact hset q.2
      · rfl
    have h := outbox.unique
    unfold AssocMap.values AssocMap.mapWith at *
    rw [List.map_map] at h
    rw [List.map_map, List.map_map]
    change (outbox.rows.entries.map (fun q : OutboxId × OutboxEntry => (if p q.1 then set q.2 else q.2).transactionId)).Nodup
    rw [hids]
    exact h

theorem get?_update (outbox : Outbox) (p : OutboxId → Prop) [DecidablePred p] (set : OutboxEntry → OutboxEntry)
    (hset : ∀ entry, (set entry).transactionId = entry.transactionId) (id : OutboxId) :
    (outbox.update p set hset).rows.get? id =
      (outbox.rows.get? id).map (fun entry => if p id then set entry else entry) := by
  unfold update
  exact get?_mapWith _ _ _

variable {outbox : Outbox}

theorem exists_update {entry : OutboxEntry} (h : outbox.rows.get? id = some entry)
    {p : OutboxId → Prop} [DecidablePred p] {set : OutboxEntry → OutboxEntry}
    (hset : ∀ entry, (set entry).transactionId = entry.transactionId) {P : OutboxEntry → Prop} (hentry : P entry)
    (hchanged : P (set entry)) : ∃ entry', (outbox.update p set hset).rows.get? id = some entry' ∧ P entry' := by
  refine ⟨if p id then set entry else entry, ?_, ?_⟩
  · rw [get?_update, h]
    rfl
  · split_ifs
    · exact hchanged
    · exact hentry

theorem get?_nextId (outbox : Outbox) : outbox.rows.get? outbox.nextId = none := by
  apply get?_eq_none_iff.mpr
  intro h
  exact absurd (outbox.below _ h) (lt_irrefl _)

/-- `ON CONFLICT (transaction_id) DO NOTHING` -/
def enqueue (outbox : Outbox) (user : UserId) (amount : ℕ) (txid : TransactionId) (now : ℤ) : Outbox :=
  if h : txid ∈ outbox.rows.values.map OutboxEntry.transactionId then outbox
  else
    { rows := outbox.rows.insert outbox.nextId (.new user amount txid now)
      nextId := outbox.nextId + 1
      below := by
        intro id hid
        rw [AssocMap.keys, AssocMap.insert_entries outbox.get?_nextId, map_append, mem_append] at hid
        rcases hid with hid | hid
        · exact Nat.lt_succ_of_lt (outbox.below id hid)
        · rw [mem_singleton.mp hid]
          exact Nat.lt_succ_self _
      unique := by
        rw [AssocMap.values, AssocMap.insert_entries outbox.get?_nextId, map_append, map_append,
          map_singleton, map_singleton, ← concat_eq_append, nodup_concat]
        exact ⟨h, outbox.unique⟩ }

variable {txid : TransactionId} {entry : OutboxEntry}

theorem get?_enqueue_of_mem
    (h : outbox.rows.get? id = some entry) (htxid : entry.transactionId = txid) (user : UserId) (amount : ℕ) (now : ℤ) :
    outbox.enqueue user amount txid now = outbox := by
  rw [enqueue, dif_pos]
  exact mem_map.mpr ⟨entry, get?_mem_values h, htxid⟩

theorem get?_enqueue_of_notMem
    (h : ∀ id entry, outbox.rows.get? id = some entry → entry.transactionId ≠ txid) (user : UserId) (amount : ℕ) (now : ℤ)
    (id : OutboxId) : (outbox.enqueue user amount txid now).rows.get? id =
      if id = outbox.nextId then some (.new user amount txid now) else outbox.rows.get? id := by
  have hnew : txid ∉ outbox.rows.values.map OutboxEntry.transactionId := by
    intro hmem
    obtain ⟨entry, hentry, htxid⟩ := mem_map.mp hmem
    obtain ⟨q, hq, rfl⟩ := mem_map.mp hentry
    exact h q.1 q.2 (get?_of_mem hq) htxid
  rw [enqueue, dif_neg hnew]
  exact get?_insert outbox.get?_nextId _ _

theorem get?_enqueue (h : outbox.rows.get? id = some entry)
    (user : UserId) (amount : ℕ) (txid : TransactionId) (now : ℤ) :
    (outbox.enqueue user amount txid now).rows.get? id = some entry := by
  by_cases hnew : ∀ id entry, outbox.rows.get? id = some entry → entry.transactionId ≠ txid
  · have hne : id ≠ outbox.nextId := by
      rintro rfl
      rw [outbox.get?_nextId] at h
      cases h
    rw [get?_enqueue_of_notMem hnew, if_neg hne, h]
  · push Not at hnew
    obtain ⟨id', old, hid', htxid⟩ := hnew
    rw [get?_enqueue_of_mem hid' htxid, h]

theorem eq_of_transactionId {id' : OutboxId} {entry' : OutboxEntry}
    (h : outbox.rows.get? id = some entry) (h' : outbox.rows.get? id' = some entry')
    (htxid : entry.transactionId = entry'.transactionId) : id = id' := by
  have hunique := outbox.unique
  rw [AssocMap.values, List.map_map] at hunique
  have heq := inj_on_of_nodup_map hunique (AssocMap.mem_entries_of_get? h) (AssocMap.mem_entries_of_get? h') htxid
  exact congrArg Prod.fst heq

end Outbox

structure PaymentTables where
  accounts : DepositAccounts
  deposits : AssocMap (ℤ × ℤ) ObservedDeposit
  outbox : Outbox
  locked : List OutboxId
  now : ℤ

structure OutboxRow where
  id : OutboxId
  userId : UserId
  amountPlancks : String
  transactionId : TransactionId
  attempts : ℕ

structure Transfer where
  sender : AccountHex
  recipient : AccountHex
  amount : ℕ
deriving DecidableEq

def Transfer.finalized (transfer : Transfer) : ObservedDeposit :=
  ⟨transfer.recipient, transfer.sender, transfer.amount, .finalized, none, none⟩

namespace PaymentTables

variable (t : PaymentTables)

/-- `none` is an error of the statement: the recipient is not in the accounts that the column refers to. -/
def insertFinalizedTx (block index : ℤ) (transfer : Transfer) : Option PaymentTables :=
  match t.deposits.get? (block, index) with
  | some _ => some t
  | none =>
    if transfer.recipient ∈ t.accounts.listAccountHexes then
      some { t with deposits := t.deposits.insert (block, index) transfer.finalized }
    else none

def enqueueTx (recipient : AccountHex) (amount : ℕ) (txid : TransactionId) : PaymentTables :=
  match t.accounts.owner? recipient with
  | some user => { t with outbox := t.outbox.enqueue user amount txid t.now }
  | none => t

/-- The transaction of `handle_transfer`. -/
def recordDeposit (transfer : Transfer) (block index : ℕ) : Option PaymentTables := do
  let txid := transactionId block index transfer.recipient
  let t ← t.insertFinalizedTx block (asI32 index) transfer
  return t.enqueueTx transfer.recipient transfer.amount txid

theorem get?_recordDeposit {t t' : PaymentTables} {transfer : Transfer} {block index : ℕ}
    (hrecord : t.recordDeposit transfer block index = some t') {entry : OutboxEntry}
    (h : t.outbox.rows.get? id = some entry) : t'.outbox.rows.get? id = some entry := by
  obtain ⟨t₁, hinsert, henqueue⟩ := bind_eq_some_iff.mp hrecord
  cases henqueue
  have houtbox : t₁.outbox = t.outbox := by
    unfold insertFinalizedTx at hinsert
    split at hinsert
    · cases hinsert
      rfl
    · split_ifs at hinsert
      cases hinsert
      rfl
  unfold enqueueTx
  split
  · rw [houtbox]
    exact Outbox.get?_enqueue h _ _ _ _
  · rw [houtbox]
    exact h

/-- A failure of the transaction is logged and forgotten. -/
def handleTransfer (knownAccounts : List AccountHex) (transfer : Transfer) (block index : ℕ)
    (fault : Fault) : PaymentTables :=
  if transfer.recipient ∉ knownAccounts then t
  else if fault = .refused then t
  else (t.recordDeposit transfer block index).getD t

def fiveMinutes : ℤ := 5 * 60 * 1000000

def Claimable (q : OutboxId × OutboxEntry) : Prop :=
  q.2.dispatchedAt = none ∧ q.2.nextAttemptAt ≤ t.now ∧
    (q.2.claimedAt = none ∨ ∃ claimed ∈ q.2.claimedAt, claimed < t.now - fiveMinutes) ∧ q.1 ∉ t.locked

instance (t : PaymentTables) (q : OutboxId × OutboxEntry) : Decidable (Claimable t q) :=
  inferInstanceAs (Decidable (_ ∧ _))

/-- `ORDER BY id LIMIT $1 FOR UPDATE SKIP LOCKED` -/
def claimable (limit : ℕ) : List (OutboxId × OutboxEntry) :=
  ((t.outbox.rows.entries.filter (Claimable t)).insertionSort (fun q q' => q.1 ≤ q'.1)).take limit

def claimBatch (limit : ℕ) : List OutboxRow × PaymentTables :=
  let ids := (t.claimable limit).map Prod.fst
  ((t.claimable limit).map (fun q =>
      ⟨q.1, q.2.userId, toString q.2.amountPlancks, q.2.transactionId, q.2.attempts + 1⟩),
    { t with
      outbox := t.outbox.update (fun id => id ∈ ids) (fun entry => entry.claim t.now)
        (fun entry => entry.transactionId_claim t.now) })

def markDispatchedTx (id : OutboxId) : PaymentTables :=
  { t with
    outbox := t.outbox.update (fun id' => id' = id) (fun entry => entry.dispatch t.now)
      (fun entry => entry.transactionId_dispatch t.now) }

def markCreditedTx (txid : TransactionId) (creditId : String) : PaymentTables :=
  { t with deposits := t.deposits.mapWith (fun key deposit =>
      if creditedKey key.1 key.2 deposit.toAccountHex = txid then deposit.credit t.now creditId else deposit) }

def backoff (id : OutboxId) (secs : ℤ) : PaymentTables :=
  let next := t.now + secs * 1000000
  { t with
    outbox := t.outbox.update (fun id' => id' = id) (fun entry => entry.postpone next)
      (fun entry => entry.transactionId_postpone next) }

end PaymentTables

theorem toList_transactionId (block index : ℕ) (recipient : AccountHex) : (transactionId block index recipient).toList =
      'b' :: ((toString block).toList ++ '#' :: ('e' :: ((toString index).toList ++ '#' :: recipient.toList))) := by
  change (toString "b" ++ toString block ++ toString "#e" ++ toString index ++ toString "#" ++ toString recipient).toList = _
  simp only [String.toList_append, append_assoc]
  rfl

theorem transactionId_injective {block block' index index' : ℕ} {recipient recipient' : AccountHex}
    (h : transactionId block index recipient = transactionId block' index' recipient') :
    block = block' ∧ index = index' ∧ recipient = recipient' := by
  have hlist := congrArg String.toList h
  rw [toList_transactionId, toList_transactionId] at hlist
  have hseparator (n : ℕ) : '#' ∉ (toString n).toList := notMem_toString n rfl
  -- the first separator ends the block number, the second one the event index
  obtain ⟨hblock, hrest⟩ := eq_of_append_cons (hseparator block) (hseparator block') (List.cons.inj hlist).2
  obtain ⟨hindex, hrecipient⟩ := eq_of_append_cons (hseparator index) (hseparator index') (List.cons.inj hrest).2
  exact ⟨toString_injective hblock, toString_injective hindex, String.toList_injective hrecipient⟩

theorem asI32_of_lt {n : ℕ} (h : n < 2 ^ 31) : asI32 n = n := by
  unfold asI32
  rw [BitVec.toInt_eq_toNat_of_lt]
  · rw [BitVec.toNat_ofNat, Nat.mod_eq_of_lt (by omega)]
  · rw [BitVec.toNat_ofNat]
    omega

theorem creditedKey_natCast (block index : ℕ) (recipient : AccountHex) :
    creditedKey block index recipient = transactionId block index recipient := rfl

end Basilica.Payments
