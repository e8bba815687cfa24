import Basilica.BillingService
import Basilica.PaymentTables

/-!
The dispatchers of the outbox: each claims a batch of rows, asks the billing service to apply the credits of a row and
marks the row and its deposit.
-/

namespace Basilica.Payments

open AssocMaps AtomicCalls Calls Fleets

inductive DispatchCall
  | claimBatch (limit : ℕ)
  | taoToCredits (amountPlancks : String)
  | sendApplyCredits (user : UserId) (credits : String) (txid : TransactionId)
  | awaitReply (request : ℕ)
  | markCredited (id : OutboxId) (txid : TransactionId) (creditId : String)
  | backoff (id : OutboxId) (secs : ℤ)

namespace DispatchCall

abbrev Answer : DispatchCall → Type
  | claimBatch _ => List OutboxRow
  | taoToCredits _ => String
  | sendApplyCredits _ _ _ => ℕ
  | awaitReply _ => String
  | _ => Unit

def failure : DispatchCall → String
  | claimBatch _ => "claim failed"
  | taoToCredits _ => "price conversion failed"
  | sendApplyCredits _ _ _ | awaitReply _ => "apply_credits failed"
  | markCredited _ _ _ => "failed to commit credited state"
  | backoff _ _ => "backoff failed"

end DispatchCall

abbrev DispatchCalls := Calls DispatchCall DispatchCall.Answer String

namespace OutboxDispatcher

variable (r : OutboxRow)

def backoffSecs : ℤ := 2 ^ min 6 (r.attempts - 1)

/-- `let _ = self.repos.backoff(r.id, secs).await` -/
def scheduleRetry : DispatchCalls Unit := do
  let _ ← (ask (DispatchCall.backoff r.id (backoffSecs r))).catching
  return ()

def applyCredits (user : UserId) (credits : String) (txid : TransactionId) : DispatchCalls String := do
  let request ← ask (DispatchCall.sendApplyCredits user credits txid)
  ask (DispatchCall.awaitReply request)

def persist (creditId : String) : DispatchCalls Unit := do
  match ← (ask (DispatchCall.markCredited r.id r.transactionId creditId)).catching with
  | .ok _ => return ()
  | .error _ => scheduleRetry r

def settle : Except String String → DispatchCalls Unit
  | .ok creditId => persist r creditId
  | .error _ => ask (DispatchCall.backoff r.id (backoffSecs r))

def dispatchRow : DispatchCalls Unit := do
  match ← (ask (DispatchCall.taoToCredits r.amountPlancks)).catching with
  | .error _ => scheduleRetry r
  | .ok credits =>
    let outcome ← (applyCredits r.userId credits r.transactionId).catching
    settle r outcome

def dispatchRows : List OutboxRow → DispatchCalls Unit
  | [] => return ()
  | r :: rows => do
    dispatchRow r
    dispatchRows rows

def dispatch : DispatchCalls Unit := do
  let rows ← ask (DispatchCall.claimBatch 100)
  dispatchRows rows

end OutboxDispatcher

structure Request where
  userId : UserId
  transactionId : TransactionId
  rest : Billing.ServiceCalls Billing.CreditBalance

def Request.reply? (request : Request) : Option (Except String String) :=
  match request.rest with
  | .done (.ok _) => some (.ok request.transactionId)
  | .done (.error _) => some (.error "apply_credits failed")
  | .call _ _ => none

/-- `quotes` is what the price conversion answers at the moment; `raised` has the transaction id of each request
that raised the balance of its user, once for each time. -/
structure PaymentState where
  tables : PaymentTables
  billing : Billing.BillingTables
  requests : List Request
  quotes : String → Option String
  raised : List TransactionId

inductive PaymentEvent
  | insertAccount (account : DepositAccount)
  | handleTransfer (knownAccounts : List AccountHex) (block index : ℕ) (fault : Fault)
  | lock (ids : List OutboxId)
  | clock (now : ℤ)
  | quote (quotes : String → Option String)
  | serve (request : ℕ) (fault : Fault)
  | billing (tables : Billing.BillingTables)

namespace PaymentState

section Service

variable (parsers : Billing.Parsers)

def answer : (c : DispatchCall) → PaymentState → Option (Except String c.Answer × PaymentState)
  | .claimBatch limit, s => some (.ok (s.tables.claimBatch limit).1, { s with tables := (s.tables.claimBatch limit).2 })
  | .taoToCredits amount, s =>
    match s.quotes amount with
    | some credits => some (.ok credits, s)
    | none => some (.error "price conversion failed", s)
  | .sendApplyCredits user credits txid, s =>
    let request : Request := ⟨user, txid, Billing.BillingService.applyCredits parsers user credits⟩
    some (.ok s.requests.length, { s with requests := s.requests ++ [request] })
  | .awaitReply request, s => ((s.requests[request]?).bind Request.reply?).map (fun reply => (reply, s))
  | .markCredited id txid creditId, s =>
    some (.ok (), { s with tables := (s.tables.markDispatchedTx id).markCreditedTx txid creditId })
  | .backoff id secs, s => some (.ok (), { s with tables := s.tables.backoff id secs })

def desk : Fault → (c : DispatchCall) → PaymentState → Option (Except String c.Answer × PaymentState)
  | .none, c, s => answer parsers c s
  | .refused, c, s => some (.error c.failure, s)
  | .lost, c, s => some (.error c.failure, ((answer parsers c s).map Prod.snd).getD s)

end Service

def raises (billing billing' : Billing.BillingTables) (user : UserId) : Prop :=
  (billing.credit.rowOf user).balance.micros < (billing'.credit.rowOf user).balance.micros

instance (billing billing' : Billing.BillingTables) (user : UserId) : Decidable (raises billing billing' user) :=
  inferInstanceAs (Decidable (_ < _))

def serveFault (fault : Fault) (c : Billing.Call) (t : Billing.BillingTables) :
    Except Billing.BillingError c.Answer × Billing.BillingTables :=
  match fault with
  | .none => Billing.serve c t
  | .refused => (.error (.databaseError "connection"), t)
  | .lost => (.error (.databaseError "connection"), (Billing.serve c t).2)

def serve (s : PaymentState) (k : ℕ) (fault : Fault) : PaymentState :=
  match s.requests[k]? with
  | none => s
  | some request =>
    match request.rest with
    | .done _ => s
    | .call c next =>
      let billing := (serveFault fault c s.billing).2
      { s with
        billing := billing
        requests := s.requests.set k { request with rest := next (.ok (serveFault fault c s.billing).1) }
        raised := if raises s.billing billing request.userId then s.raised ++ [request.transactionId] else s.raised }

def world (chain : ℕ → ℕ → Transfer) : PaymentEvent → PaymentState → PaymentState
  | .insertAccount account, s => { s with tables := { s.tables with accounts := s.tables.accounts.insertTx account } }
  | .handleTransfer knownAccounts block index fault, s =>
    { s with tables := s.tables.handleTransfer knownAccounts (chain block index) block index fault }
  | .lock ids, s => { s with tables := { s.tables with locked := ids } }
  | .clock now, s => { s with tables := { s.tables with now := now } }
  | .quote quotes, s => { s with quotes := quotes }
  | .serve request fault, s => s.serve request fault
  | .billing tables, s => { s with billing := tables }

end PaymentState

variable {ι : Type}

/-- `chain` gives the transfer of each event of each block. -/
def paymentSystem (ι : Type) (parsers : Billing.Parsers) (chain : ℕ → ℕ → Transfer) :
    System DispatchCall DispatchCall.Answer String Unit PaymentState ι Fault PaymentEvent where
  program := fun _ => OutboxDispatcher.dispatch
  desk := PaymentState.desk parsers
  world := PaymentState.world chain

abbrev PaymentFleet (ι : Type) := Fleet DispatchCall DispatchCall.Answer String Unit PaymentState ι

namespace OutboxDispatcher

inductive RowStage
  | pricing
  | sending (credits : String)
  | awaiting (request : ℕ)
  | marking (creditId : String)
  | retrying
  | failing

def RowStage.rest (r : OutboxRow) : RowStage → DispatchCalls Unit
  | pricing => dispatchRow r
  | sending credits => (applyCredits r.userId credits r.transactionId).catching >>= settle r
  | awaiting request => (ask (DispatchCall.awaitReply request)).catching >>= settle r
  | marking creditId => persist r creditId
  | retrying => scheduleRetry r
  | failing => ask (DispatchCall.backoff r.id (backoffSecs r))

inductive Stage
  | claiming
  | row (r : OutboxRow) (stage : RowStage) (rows : List OutboxRow)
  | finished (result : Except String Unit)

namespace Stage

def rest : Stage → DispatchCalls Unit
  | claiming => dispatch
  | row r stage rows => stage.rest r >>= fun _ => dispatchRows rows
  | finished result => done result

def rows : Stage → List OutboxRow
  | row r _ rows => r :: rows
  | _ => []

def ofRows : List OutboxRow → Stage
  | [] => finished (.ok ())
  | r :: rows => row r .pricing rows

theorem rest_ofRows (rows : List OutboxRow) : (ofRows rows).rest = dispatchRows rows := by
  cases rows <;> rfl

theorem rows_ofRows (l : List OutboxRow) : (ofRows l).rows = l := by
  cases l <;> rfl

inductive Next : Stage → (c : DispatchCall) → Except String c.Answer → Stage → Prop
  | claimed (rows : List OutboxRow) : Next claiming (.claimBatch 100) (.ok rows) (ofRows rows)
  | unclaimed (e : String) : Next claiming (.claimBatch 100) (.error e) (finished (.error e))
  | priced (r : OutboxRow) (rows : List OutboxRow) (credits : String) :
      Next (row r .pricing rows) (.taoToCredits r.amountPlancks) (.ok credits) (row r (.sending credits) rows)
  | unpriced (r : OutboxRow) (rows : List OutboxRow) (e : String) :
      Next (row r .pricing rows) (.taoToCredits r.amountPlancks) (.error e) (row r .retrying rows)
  | sent (r : OutboxRow) (rows : List OutboxRow) (credits : String) (request : ℕ) :
      Next (row r (.sending credits) rows) (.sendApplyCredits r.userId credits r.transactionId) (.ok request)
        (row r (.awaiting request) rows)
  | unsent (r : OutboxRow) (rows : List OutboxRow) (credits : String) (e : String) :
      Next (row r (.sending credits) rows) (.sendApplyCredits r.userId credits r.transactionId) (.error e)
        (row r .failing rows)
  | applied (r : OutboxRow) (rows : List OutboxRow) (request : ℕ) (creditId : String) :
      Next (row r (.awaiting request) rows) (.awaitReply request) (.ok creditId) (row r (.marking creditId) rows)
  | unapplied (r : OutboxRow) (rows : List OutboxRow) (request : ℕ) (e : String) :
      Next (row r (.awaiting request) rows) (.awaitReply request) (.error e) (row r .failing rows)
  | marked (r : OutboxRow) (rows : List OutboxRow) (creditId : String) :
      Next (row r (.marking creditId) rows) (.markCredited r.id r.transactionId creditId) (.ok ()) (ofRows rows)
  | unmarked (r : OutboxRow) (rows : List OutboxRow) (creditId : String) (e : String) :
      Next (row r (.marking creditId) rows) (.markCredited r.id r.transactionId creditId) (.error e) (row r .retrying rows)
  | retried (r : OutboxRow) (rows : List OutboxRow) (result : Except String Unit) :
      Next (row r .retrying rows) (.backoff r.id (backoffSecs r)) result (ofRows rows)
  | postponed (r : OutboxRow) (rows : List OutboxRow) :
      Next (row r .failing rows) (.backoff r.id (backoffSecs r)) (.ok ()) (ofRows rows)
  | gaveUp (r : OutboxRow) (rows : List OutboxRow) (e : String) :
      Next (row r .failing rows) (.backoff r.id (backoffSecs r)) (.error e) (finished (.error e))

theorem next_of_call {stage : Stage} {c : DispatchCall} {next : Except String c.Answer → DispatchCalls Unit}
    (h : stage.rest = call c next) (answer : Except String c.Answer) :
    ∃ stage', Next stage c answer stage' ∧ next answer = stage'.rest := by
  cases stage with
  | claiming =>
    cases h
    cases answer with
    | ok rows => exact ⟨_, .claimed rows, (rest_ofRows rows).symm⟩
    | error e => exact ⟨_, .unclaimed e, rfl⟩
  | finished result => cases h
  | row r stage rows =>
    cases stage with
    | pricing =>
      cases h
      cases answer with
      | ok credits => exact ⟨_, .priced r rows credits, rfl⟩
      | error e => exact ⟨_, .unpriced r rows e, rfl⟩
    | sending credits =>
      cases h
      cases answer with
      | ok request => exact ⟨_, .sent r rows credits request, rfl⟩
      | error e => exact ⟨_, .unsent r rows credits e, rfl⟩
    | awaiting request =>
      cases h
      cases answer with
      | ok creditId => exact ⟨_, .applied r rows request creditId, rfl⟩
      | error e => exact ⟨_, .unapplied r rows request e, rfl⟩
    | marking creditId =>
      cases h
      cases answer with
      | ok _ => exact ⟨_, .marked r rows creditId, (rest_ofRows rows).symm⟩
      | error e => exact ⟨_, .unmarked r rows creditId e, rfl⟩
    | retrying =>
      cases h
      exact ⟨_, .retried r rows answer, (rest_ofRows rows).symm⟩
    | failing =>
      cases h
      cases answer with
      | ok _ => exact ⟨_, .postponed r rows, (rest_ofRows rows).symm⟩
      | error e => exact ⟨_, .gaveUp r rows e, rfl⟩

end Stage

end OutboxDispatcher

end Basilica.Payments
