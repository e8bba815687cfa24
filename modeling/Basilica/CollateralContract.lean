import Basilica.CallTrees
import Basilica.CheckedSteps

/-!
The collateral contract of the subnet as a state machine. Amounts and request ids are natural numbers that the checked
operations keep below `2 ^ 256`; the role check is read as a flag of the call.
-/

namespace Basilica.Collateral

open CallTrees CheckedSteps

abbrev Address := BitVec 160
abbrev Bytes32 := BitVec 256
abbrev Bytes16 := BitVec 128
abbrev Key := Bytes32 × Bytes16

structure Reclaim where
  hotkey : Bytes32
  executorId : Bytes16
  miner : Address
  amount : ℕ
  denyTimeout : UInt64

def Reclaim.zero : Reclaim := ⟨0, 0, 0, 0, 0⟩

def Reclaim.key (r : Reclaim) : Key := (r.hotkey, r.executorId)

structure Storage where
  netuid : UInt16
  trustee : Address
  decisionTimeout : UInt64
  minCollateralIncrease : ℕ
  executorToMiner : Key → Address
  collaterals : Key → ℕ
  reclaims : ℕ → Reclaim
  collateralUnderPendingReclaims : Key → ℕ
  nextReclaimId : ℕ

structure Deposit where
  hotkey : Bytes32
  executorId : Bytes16
  miner : Address
  amount : ℕ
deriving DecidableEq

structure ReclaimProcessStarted where
  reclaimRequestId : ℕ
  hotkey : Bytes32
  executorId : Bytes16
  miner : Address
  amount : ℕ
  expirationTime : UInt64
  url : String
  urlContentMd5Checksum : Bytes16

structure Reclaimed where
  reclaimRequestId : ℕ
  hotkey : Bytes32
  executorId : Bytes16
  miner : Address
  amount : ℕ
deriving DecidableEq

structure Denied where
  reclaimRequestId : ℕ
  url : String
  urlContentMd5Checksum : Bytes16

structure Slashed where
  hotkey : Bytes32
  executorId : Bytes16
  miner : Address
  amount : ℕ
  url : String
  urlContentMd5Checksum : Bytes16
deriving DecidableEq

inductive Event
  | deposit (event : Deposit)
  | reclaimProcessStarted (event : ReclaimProcessStarted)
  | reclaimed (event : Reclaimed)
  | denied (event : Denied)
  | slashed (event : Slashed)
  | trusteeUpdated (oldTrustee newTrustee : Address)
  | decisionTimeoutUpdated (oldTimeout newTimeout : UInt64)
  | minCollateralIncreaseUpdated (oldMinIncrease newMinIncrease : ℕ)

/-- Both arithmetic errors are the panic of checked arithmetic; they are told apart here. -/
inductive Error
  | amountZero
  | beforeDenyTimeout
  | executorNotOwned
  | insufficientAmount
  | invalidDepositMethod
  | notTrustee
  | pastDenyTimeout
  | reclaimNotFound
  | transferFailed
  | insufficientCollateralForReclaim
  | require (message : String)
  | unauthorizedAccount
  | nonPayable
  | arithmeticOverflow
  | arithmeticUnderflow
deriving DecidableEq

/-- No account can send from the zero address. `admin` tells whether the sender holds
`DEFAULT_ADMIN_ROLE` when the call is made. -/
structure Msg where
  sender : Address
  sender_ne_zero : sender ≠ 0
  value : ℕ
  admin : Bool

structure Record where
  event : Event
  sender : Address
  timestamp : ℕ
  storage : Storage

structure Payment where
  hotkey : Bytes32
  executorId : Bytes16
  recipient : Address
  amount : ℕ

structure World where
  storage : Storage
  balance : ℕ
  log : List Record
  payments : List Payment

variable (now : ℕ)

def World.emit (msg : Msg) (e : Event) (w : World) : World :=
  { w with log := w.log ++ [⟨e, msg.sender, now, w.storage⟩] }

-- The recipient's part is not here: the zero address has no code, and a miner's code is the hook.
def World.send (amount : ℕ) (w : World) : Except Error World :=
  if w.balance < amount then .error .transferFailed
  else .ok { w with balance := w.balance - amount }

def initializeStorage (netuid : UInt16) (trustee : Address) (minCollateralIncrease : ℕ)
    (decisionTimeout : UInt64) (admin : Address) : Except Error Storage := do
  revertIf (trustee = 0) (.require "Trustee address must be non-zero")
  revertIf (admin = 0) (.require "Admin address must be non-zero")
  revertIf (minCollateralIncrease = 0) (.require "Min collateral increase must be greater than 0")
  revertIf (decisionTimeout = 0) (.require "Decision timeout must be greater than 0")
  return {
    netuid := netuid
    trustee := trustee
    decisionTimeout := decisionTimeout
    minCollateralIncrease := minCollateralIncrease
    executorToMiner := fun _ => 0
    collaterals := fun _ => 0
    reclaims := fun _ => Reclaim.zero
    collateralUnderPendingReclaims := fun _ => 0
    nextReclaimId := 0 }

def onlyTrustee (msg : Msg) (w : World) : Except Error Unit :=
  revertIf (msg.sender ≠ w.storage.trustee) .notTrustee

def onlyAdmin (msg : Msg) : Except Error Unit :=
  revertIf (msg.admin = false) .unauthorizedAccount

def deposit (now : ℕ) (msg : Msg) (hotkey : Bytes32) (executorId : Bytes16) (w : World) :
    Except Error World := do
  let s := w.storage
  let key : Key := (hotkey, executorId)
  revertIf (msg.value < s.minCollateralIncrease) .insufficientAmount
  let owner := s.executorToMiner key
  let s ← if owner = 0 then
      pure { s with executorToMiner := Function.update s.executorToMiner key msg.sender }
    else do
      revertIf (owner ≠ msg.sender) .executorNotOwned
      pure s
  let total ← checkedAdd .arithmeticOverflow 256 (s.collaterals key) msg.value
  let s := { s with collaterals := Function.update s.collaterals key total }
  return World.emit now msg (.deposit ⟨hotkey, executorId, msg.sender, msg.value⟩) { w with storage := s }

def reclaimCollateral (msg : Msg) (hotkey : Bytes32) (executorId : Bytes16) (url : String)
    (urlContentMd5Checksum : Bytes16) (w : World) : Except Error World := do
  let s := w.storage
  let key : Key := (hotkey, executorId)
  revertIf (msg.sender ≠ s.executorToMiner key) .executorNotOwned
  let totalCollateral := s.collaterals key
  let pendingCollateral := s.collateralUnderPendingReclaims key
  let availableAmount ← checkedSub .arithmeticUnderflow totalCollateral pendingCollateral
  revertIf (availableAmount = 0) .amountZero
  -- The conversion of the block time to 64 bits truncates; the addition is checked.
  let denyTimeout ← checkedAdd .arithmeticOverflow 64 (UInt64.ofNat now).toNat s.decisionTimeout.toNat
  let reclaim : Reclaim := ⟨hotkey, executorId, msg.sender, availableAmount, UInt64.ofNat denyTimeout⟩
  let s := { s with reclaims := Function.update s.reclaims s.nextReclaimId reclaim }
  let pending ← checkedAdd .arithmeticOverflow 256 (s.collateralUnderPendingReclaims key) availableAmount
  let s := { s with
    collateralUnderPendingReclaims := Function.update s.collateralUnderPendingReclaims key pending }
  let w := World.emit now msg (.reclaimProcessStarted ⟨s.nextReclaimId, hotkey, executorId, msg.sender,
    availableAmount, UInt64.ofNat denyTimeout, url, urlContentMd5Checksum⟩) { w with storage := s }
  let next ← checkedAdd .arithmeticOverflow 256 s.nextReclaimId 1
  return { w with storage := { s with nextReclaimId := next } }

/-- Up to and including the transfer; the recipient runs next. -/
def finalizeReclaim (msg : Msg) (reclaimRequestId : ℕ) (w : World) : Except Error World := do
  let s := w.storage
  let reclaim := s.reclaims reclaimRequestId
  revertIf (reclaim.amount = 0) .reclaimNotFound
  revertIf (reclaim.denyTimeout.toNat ≥ now) .beforeDenyTimeout
  let key := reclaim.key
  let amount := reclaim.amount
  let s := { s with reclaims := Function.update s.reclaims reclaimRequestId Reclaim.zero }
  let pending ← checkedSub .arithmeticUnderflow (s.collateralUnderPendingReclaims key) amount
  let s := { s with
    collateralUnderPendingReclaims := Function.update s.collateralUnderPendingReclaims key pending }
  revertIf (s.collaterals key < amount) .insufficientCollateralForReclaim
  let remaining ← checkedSub .arithmeticUnderflow (s.collaterals key) amount
  -- The owner is cleared whatever remains on the key.
  let s := { s with
    collaterals := Function.update s.collaterals key remaining
    executorToMiner := Function.update s.executorToMiner key 0 }
  let w := World.emit now msg (.reclaimed ⟨reclaimRequestId, reclaim.hotkey, reclaim.executorId,
    reclaim.miner, amount⟩) { w with storage := s }
  let w ← w.send amount
  return { w with payments := w.payments ++ [⟨reclaim.hotkey, reclaim.executorId, reclaim.miner, amount⟩] }

def denyReclaimRequest (msg : Msg) (reclaimRequestId : ℕ) (url : String)
    (urlContentMd5Checksum : Bytes16) (w : World) : Except Error World := do
  onlyTrustee msg w
  let s := w.storage
  let reclaim := s.reclaims reclaimRequestId
  revertIf (reclaim.amount = 0) .reclaimNotFound
  revertIf (reclaim.denyTimeout.toNat < now) .pastDenyTimeout
  let pending ← checkedSub .arithmeticUnderflow (s.collateralUnderPendingReclaims reclaim.key)
    reclaim.amount
  let key := reclaim.key
  let s := { s with
    collateralUnderPendingReclaims := Function.update s.collateralUnderPendingReclaims key pending }
  let w := World.emit now msg (.denied ⟨reclaimRequestId, url, urlContentMd5Checksum⟩)
    { w with storage := s }
  return { w with storage := { s with
    reclaims := Function.update s.reclaims reclaimRequestId Reclaim.zero } }

def slashCollateral (msg : Msg) (hotkey : Bytes32) (executorId : Bytes16) (url : String)
    (urlContentMd5Checksum : Bytes16) (w : World) : Except Error World := do
  onlyTrustee msg w
  let s := w.storage
  let key : Key := (hotkey, executorId)
  let amount := s.collaterals key
  revertIf (amount = 0) .amountZero
  -- Neither the open reclaims of the key nor their counter are touched.
  let s := { s with collaterals := Function.update s.collaterals key 0 }
  let miner := s.executorToMiner key
  let w ← World.send amount { w with storage := s }
  let s := { s with executorToMiner := Function.update s.executorToMiner key 0 }
  return World.emit now msg (.slashed ⟨hotkey, executorId, miner, amount, url, urlContentMd5Checksum⟩)
    { w with storage := s }

def updateTrustee (msg : Msg) (newTrustee : Address) (w : World) : Except Error World := do
  onlyAdmin msg
  revertIf (newTrustee = 0) (.require "New trustee cannot be zero address")
  let oldTrustee := w.storage.trustee
  return World.emit now msg (.trusteeUpdated oldTrustee newTrustee)
    { w with storage := { w.storage with trustee := newTrustee } }

def updateDecisionTimeout (msg : Msg) (newTimeout : UInt64) (w : World) :
    Except Error World := do
  onlyAdmin msg
  revertIf (newTimeout = 0) (.require "Decision timeout must be greater than 0")
  let oldTimeout := w.storage.decisionTimeout
  return World.emit now msg (.decisionTimeoutUpdated oldTimeout newTimeout)
    { w with storage := { w.storage with decisionTimeout := newTimeout } }

def updateMinCollateralIncrease (msg : Msg) (newMinIncrease : ℕ) (w : World) :
    Except Error World := do
  onlyAdmin msg
  revertIf (newMinIncrease = 0) (.require "Min collateral increase must be greater than 0")
  let oldMinIncrease := w.storage.minCollateralIncrease
  return World.emit now msg (.minCollateralIncreaseUpdated oldMinIncrease newMinIncrease)
    { w with storage := { w.storage with minCollateralIncrease := newMinIncrease } }

inductive Method
  | deposit (hotkey : Bytes32) (executorId : Bytes16)
  | reclaimCollateral (hotkey : Bytes32) (executorId : Bytes16) (url : String)
      (urlContentMd5Checksum : Bytes16)
  | finalizeReclaim (reclaimRequestId : ℕ)
  | denyReclaimRequest (reclaimRequestId : ℕ) (url : String) (urlContentMd5Checksum : Bytes16)
  | slashCollateral (hotkey : Bytes32) (executorId : Bytes16) (url : String)
      (urlContentMd5Checksum : Bytes16)
  | updateTrustee (newTrustee : Address)
  | updateDecisionTimeout (newTimeout : UInt64)
  | updateMinCollateralIncrease (newMinIncrease : ℕ)
  | receive

structure Call extends Msg where
  method : Method

def execute (msg : Msg) (w : World) : Method → Except Error World
  | .deposit hotkey executorId => deposit now msg hotkey executorId w
  | .receive => .error .invalidDepositMethod
  | m => do
    revertIf (msg.value ≠ 0) .nonPayable
    match m with
    | .reclaimCollateral hotkey executorId url md5 => reclaimCollateral now msg hotkey executorId url md5 w
    | .finalizeReclaim id => finalizeReclaim now msg id w
    | .denyReclaimRequest id url md5 => denyReclaimRequest now msg id url md5 w
    | .slashCollateral hotkey executorId url md5 => slashCollateral now msg hotkey executorId url md5 w
    | .updateTrustee newTrustee => updateTrustee now msg newTrustee w
    | .updateDecisionTimeout newTimeout => updateDecisionTimeout now msg newTimeout w
    | .updateMinCollateralIncrease newMinIncrease => updateMinCollateralIncrease now msg newMinIncrease w
    | _ => .error .invalidDepositMethod

/-- The value of a call is credited before the code runs. Only `finalizeReclaim` gives up control. -/
def enter (c : Call) (w : World) : Outcome World Error :=
  match execute now c.toMsg { w with balance := w.balance + c.value } c.method with
  | .error e => .revert e
  | .ok w' =>
    match c.method with
    | .finalizeReclaim _ => .pay w'
    | _ => .done w'

end Basilica.Collateral
