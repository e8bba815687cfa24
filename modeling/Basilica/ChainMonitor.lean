import Basilica.DepositLedger

/-!
The chain monitors. The one that gets the lock loads the known accounts, subscribes to the finalized blocks and hands
the transfers of each block to the handler, until its subscription ends or the handler fails.
-/

namespace Basilica.Payments

open AssocMaps AtomicCalls Calls Fleets

inductive FieldValues
  | named (fields : List (String × String))
  | unnamed (fields : List String)

structure EventDetails where
  palletName : String
  variantName : String
  fieldValues : Option FieldValues

structure ChainEvent where
  transfer : Option Transfer
  decoded : Option EventDetails

abbrev Chain := ℕ → List ChainEvent

structure TransferDetails where
  sender : AccountHex
  recipient : AccountHex
  amount : String

def hexValue (c : Char) : Option ℕ :=
  if '0' ≤ c ∧ c ≤ '9' then some (c.toNat - '0'.toNat)
  else if 'a' ≤ c ∧ c ≤ 'f' then some (c.toNat - 'a'.toNat + 10)
  else if 'A' ≤ c ∧ c ≤ 'F' then some (c.toNat - 'A'.toNat + 10)
  else none

/-- `hex::decode` -/
def decodeHex : List Char → Option (List ℕ)
  | [] => some []
  | [_] => none
  | high :: low :: text => do
    let h ← hexValue high
    let l ← hexValue low
    let bytes ← decodeHex text
    return (16 * h + l) :: bytes

def toHex (bytes : List ℕ) : AccountHex :=
  String.ofList (bytes.flatMap (fun b => [Nat.digitChar (b / 16), Nat.digitChar (b % 16)]))

def extractAccountBytes (text : String) : Option (List ℕ) :=
  if text.toList.take 2 = ['0', 'x'] ∧ text.utf8ByteSize = 66 then decodeHex (text.toList.drop 2)
  else if text.utf8ByteSize = 64 then decodeHex text.toList
  else none

def extractAccountHex (text : String) : Option AccountHex := (extractAccountBytes text).map toHex

def extractNamedTransferFields (fields : List (String × String)) : Option TransferDetails := do
  let (sender, recipient, amount) := fields.foldl
    (fun (found : Option AccountHex × Option AccountHex × Option String) (field : String × String) =>
      if field.1 = "from" then (extractAccountHex field.2, found.2.1, found.2.2)
      else if field.1 = "to" then (found.1, extractAccountHex field.2, found.2.2)
      else if field.1 = "amount" then (found.1, found.2.1, some field.2)
      else found)
    (none, none, none)
  return ⟨← sender, ← recipient, ← amount⟩

def extractUnnamedTransferFields : List String → Option TransferDetails
  | sender :: recipient :: amount :: _ => do return ⟨← extractAccountHex sender, ← extractAccountHex recipient, amount⟩
  | _ => none

def extractTransferDetails (event : EventDetails) : Option TransferDetails := do
  match ← event.fieldValues with
  | .named fields => extractNamedTransferFields fields
  | .unnamed fields => extractUnnamedTransferFields fields

def ChainEvent.transferDetails (event : ChainEvent) : Option TransferDetails := do
  let details ← event.decoded
  if details.palletName = "Balances" ∧ details.variantName = "Transfer" then extractTransferDetails details else none

def TransferDetails.transfer? (details : TransferDetails) : Option Transfer :=
  (ColumnText.parseDecimal 128 details.amount).map (fun amount => ⟨details.sender, details.recipient, amount⟩)

inductive MonitorCall (ι : Type)
  | tryAcquire (i : ι)
  | listAccountHexes (i : ι)
  | connect
  | subscribeFinalized (i : ι)
  | nextBlock (i : ι)
  | events (block : ℕ)
  | handleTransfer (i : ι) (details : TransferDetails) (block index : ℕ)
  | onBlockEnd (i : ι) (block : ℕ)
  | release (i : ι)

abbrev MonitorCall.Answer {ι : Type} : MonitorCall ι → Type
  | nextBlock _ => Option ℕ
  | events _ => List ChainEvent
  | _ => Unit

abbrev MonitorCalls (ι : Type) := Calls (MonitorCall ι) MonitorCall.Answer String

namespace ChainMonitor

variable {ι : Type} (i : ι)

def release : MonitorCalls ι Bool := do
  let _ ← (ask (MonitorCall.release i)).catching
  return false

/-- What is left of `run_as_leader` once a part of the leader's work has an outcome. -/
def conclude : Except String Unit → MonitorCalls ι Bool
  | .ok _ => return true
  | .error _ => release i

def openSubscription : MonitorCalls ι Unit := do
  ask (MonitorCall.listAccountHexes i)
  ask (.connect : MonitorCall ι)
  ask (MonitorCall.subscribeFinalized i)

def lead : MonitorCalls ι Bool := do
  ask (MonitorCall.tryAcquire i)
  (openSubscription i).catching >>= conclude i

def processEvents (block : ℕ) : ℕ → List ChainEvent → MonitorCalls ι Unit
  | _, [] => ask (MonitorCall.onBlockEnd i block)
  | index, event :: events =>
    match event.transferDetails with
    | some details => do
      ask (MonitorCall.handleTransfer i details block index)
      processEvents block (index + 1) events
    | none => processEvents block (index + 1) events

/-- A block whose events cannot be had is passed over. -/
def processFetched (block : ℕ) : Except String (List ChainEvent) → MonitorCalls ι Unit
  | .error _ => return ()
  | .ok events => processEvents i block 0 events

def processBlock (block : ℕ) : MonitorCalls ι Unit := do
  let events ← (ask (.events block : MonitorCall ι)).catching
  processFetched i block events

def takeTurn : Except String (Option ℕ) → MonitorCalls ι Bool
  | .error _ => return true
  | .ok none => release i
  | .ok (some block) => (processBlock i block).catching >>= conclude i

def follow : MonitorCalls ι Bool := do
  let block ← (ask (MonitorCall.nextBlock i)).catching
  takeTurn i block

def again : Except String Bool → MonitorCalls ι Bool
  | .ok true => follow i
  | _ => lead i

end ChainMonitor

structure Due where
  block : ℕ
  index : ℕ
  transfer : Transfer
deriving DecidableEq

structure Subscription where
  next : ℕ
  ended : Bool

/-- The blocks before `finalized` are finalized, and `head` is the one a new subscription begins with. `due`, `begun`
and `processed` are for the record only. -/
structure MonitorState (ι : Type) where
  tables : PaymentTables
  leader : Option ι
  knownAccounts : ι → List AccountHex
  subscriptions : ι → Subscription
  head : ℕ
  finalized : ℕ
  due : List Due
  begun : List ℕ
  processed : List ℕ

inductive MonitorEvent (ι : Type)
  | insertAccount (account : DepositAccount)
  | dispatch (c : DispatchCall)
  | clock (now : ℤ)
  | finalize
  | head (block : ℕ)
  | endSubscription (i : ι)
  | unlock

def dues (block : ℕ) (events : List ChainEvent) (accounts : DepositAccounts) : List Due :=
  events.zipIdx.filterMap (fun q => do
    let transfer ← q.1.transfer
    if transfer.recipient ∈ accounts.listAccountHexes then some ⟨block, q.2, transfer⟩ else none)

namespace MonitorState

variable {ι : Type} [DecidableEq ι] (s : MonitorState ι)

def tryAcquire (i : ι) (fault : Fault) : Except String Unit × MonitorState ι :=
  match fault with
  | .none => if s.leader = none then (.ok (), { s with leader := some i }) else (.error "already held", s)
  | _ => (.error "connection", s)

def loadAccounts (i : ι) : MonitorState ι :=
  { s with knownAccounts := Function.update s.knownAccounts i s.tables.accounts.listAccountHexes }

def subscribe (i : ι) (sub : Subscription) : MonitorState ι :=
  { s with subscriptions := Function.update s.subscriptions i sub }

/-- A lost answer is an error in the place of a block; a refused one is an error that stands for no block. -/
def nextBlock (i : ι) (fault : Fault) : Option (Except String (Option ℕ) × MonitorState ι) :=
  let sub := s.subscriptions i
  if sub.ended then some (.ok none, s)
  else
    match fault with
    | .refused => some (.error "subscription", s)
    | .lost =>
      if sub.next < s.finalized then some (.error "subscription", s.subscribe i { sub with next := sub.next + 1 }) else none
    | .none =>
      if sub.next < s.finalized then
        some (.ok (some sub.next), { s.subscribe i { sub with next := sub.next + 1 } with begun := sub.next :: s.begun })
      else none

def handleTransfer (s : MonitorState ι) (i : ι) (details : TransferDetails) (block index : ℕ) (fault : Fault) :
    MonitorState ι :=
  match details.transfer? with
  | some transfer => { s with tables := s.tables.handleTransfer (s.knownAccounts i) transfer block index fault }
  | none => s

/-- The known accounts are loaded anew at every 128th block. -/
def onBlockEnd (i : ι) (block : ℕ) (fault : Fault) : Except String Unit × MonitorState ι :=
  if block % 128 = 0 then
    match fault with
    | .none => (.ok (), { s.loadAccounts i with processed := block :: s.processed })
    | _ => (.error "connection", s)
  else (.ok (), { s with processed := block :: s.processed })

def release (i : ι) : MonitorState ι :=
  { s with leader := if s.leader = some i then none else s.leader }

def desk (chain : Chain) (fault : Fault) : (c : MonitorCall ι) → MonitorState ι → Option (Except String c.Answer × MonitorState ι)
  | .tryAcquire i, s => some (s.tryAcquire i fault)
  | .listAccountHexes i, s => some (if fault = .none then (.ok (), s.loadAccounts i) else (.error "connection", s))
  | .connect, s => some (if fault = .none then .ok () else .error "connection", s)
  | .subscribeFinalized i, s =>
    some (if fault = .none then (.ok (), s.subscribe i ⟨s.head, false⟩) else (.error "connection", s))
  | .nextBlock i, s => s.nextBlock i fault
  | .events block, s => some (if fault = .none then .ok (chain block) else .error "connection", s)
  | .handleTransfer i details block index, s => some (.ok (), s.handleTransfer i details block index fault)
  | .onBlockEnd i block, s => some (s.onBlockEnd i block fault)
  | .release i, s =>
    some (if fault = .none then .ok () else .error "connection", if fault = .refused then s else s.release i)

def world (chain : Chain) : MonitorEvent ι → MonitorState ι → MonitorState ι
  | .insertAccount account, s => { s with tables := { s.tables with accounts := s.tables.accounts.insertTx account } }
  | .dispatch c, s => { s with tables := c.effect s.tables }
  | .clock now, s => { s with tables := { s.tables with now := now } }
  | .finalize, s =>
    { s with
      finalized := s.finalized + 1
      due := s.due ++ dues s.finalized (chain s.finalized) s.tables.accounts }
  | .head block, s => { s with head := block }
  | .endSubscription i, s => s.subscribe i { s.subscriptions i with ended := true }
  | .unlock, s => { s with leader := none }

end MonitorState

def monitorSystem (ι : Type) [DecidableEq ι] (chain : Chain) :
    System (MonitorCall ι) MonitorCall.Answer String Bool (MonitorState ι) ι Fault (MonitorEvent ι) where
  program := ChainMonitor.lead
  again := ChainMonitor.again
  desk := MonitorState.desk chain
  world := MonitorState.world chain

abbrev MonitorFleet (ι : Type) := Fleet (MonitorCall ι) MonitorCall.Answer String Bool (MonitorState ι) ι

end Basilica.Payments
