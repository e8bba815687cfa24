import Basilica.ExecutorTables
import Basilica.Fleets
import Basilica.Tallies
import Basilica.ColumnText

/-!
Rentals of executors at a validator: requests to start and to stop one, and the passes of the health monitor, which
are interleaved at their accesses to the database.
-/

namespace Basilica.Validator

open AssocMaps AtomicCalls Calls Fleets StepRuns Words Option AssocMap

abbrev RentalId := String

structure RentalInfo where
  rentalId : RentalId
  validatorHotkey : String
  executorId : ExecutorId
  containerId : String
  sshSessionId : String
  sshCredentials : String
  state : RentalState
  createdAt : Time
  minerId : MinerId

structure StartRentalRequest where
  executorId : ExecutorId
  containerImage : String
  sshPublicKey : String
deriving DecidableEq

structure SshSession where
  sessionId : String
  accessCredentials : String

structure ContainerStatus where
  state : String
  health : String

/-- `imageOk` parses the reference to a container image. -/
structure RentalManager where
  validatorHotkey : String
  persistentKey : Option String
  imageOk : String → Bool

inductive RentalCall
  | getMinerIdByExecutor (executorId : ExecutorId)
  | getMinerById (minerId : MinerId)
  | connectAndAuthenticate (endpoint hotkey : String)
  | newUuid
  | initiateRentalSshSession (executorId : ExecutorId) (validatorPublicKey : String) (rentalId : RentalId)
  | createContainerClient (credentials : String)
  | deployContainer (rentalId : RentalId) (containerImage sshPublicKey : String)
  | closeSshSession (sessionId reason : String)
  | getExecutorDetails (executorId : ExecutorId) (minerId : MinerId)
  | clock
  | saveRental (rental : RentalInfo)
  | loadRental (rentalId : RentalId)
  | stopContainer (containerId : String) (force : Bool)
  | queryNonTerminatedRentals
  | getContainerStatus (containerId : String)

namespace RentalCall

abbrev Answer : RentalCall → Type
  | getMinerIdByExecutor _ => MinerId
  | getMinerById _ => Option Miner
  | newUuid => String
  | initiateRentalSshSession _ _ _ => SshSession
  | deployContainer _ _ _ => String
  | clock => Time
  | loadRental _ => Option RentalInfo
  | queryNonTerminatedRentals => List RentalInfo
  | getContainerStatus _ => Option ContainerStatus
  | _ => Unit

def failure : RentalCall → String
  | getExecutorDetails _ _ => "Failed to fetch executor details"
  | connectAndAuthenticate _ _ => "Failed to connect to miner"
  | queryNonTerminatedRentals => "Failed to query non-terminal rentals"
  | _ => "call failed"

def saves? : RentalCall → Option RentalInfo
  | saveRental rental => some rental
  | _ => none

end RentalCall

abbrev RentalCalls := Calls RentalCall RentalCall.Answer String

def isValidSshPublicKey (key : String) : Bool :=
  !(key.toList.all isWhitespace) && "ssh-".toList.isPrefixOf key.toList &&
    2 ≤ (words key.toList).length

def validateDockerImage (manager : RentalManager) (image : String) : Bool :=
  image ≠ "" && image.utf8ByteSize ≤ 500 && manager.imageOk image

def RentalManager.startRental (manager : RentalManager) (request : StartRentalRequest) (minerId : MinerId) : RentalCalls RentalId := do
  let uuid ← ask RentalCall.newUuid
  let rentalId := "rental-" ++ uuid
  let validatorPublicKey ← ofOption "No persistent validator SSH key available" manager.persistentKey
  let session ← ask (RentalCall.initiateRentalSshSession request.executorId validatorPublicKey rentalId)
  ask (RentalCall.createContainerClient session.accessCredentials)
  match ← (ask (RentalCall.deployContainer rentalId request.containerImage request.sshPublicKey)).catching with
  | .error e =>
    let _ ← (ask (RentalCall.closeSshSession session.sessionId "Deployment failed")).catching
    fail e
  | .ok containerId =>
    ask (RentalCall.getExecutorDetails request.executorId minerId)
    let createdAt ← ask RentalCall.clock
    ask (RentalCall.saveRental
      { rentalId := rentalId
        validatorHotkey := manager.validatorHotkey
        executorId := request.executorId
        containerId := containerId
        sshSessionId := session.sessionId
        sshCredentials := session.accessCredentials
        state := .active
        createdAt := createdAt
        minerId := minerId })
    return rentalId

def startRental (manager : RentalManager) (request : StartRentalRequest) : RentalCalls RentalId := do
  let minerId ← ask (RentalCall.getMinerIdByExecutor request.executorId)
  match ← ask (RentalCall.getMinerById minerId) with
  | none => fail "Miner not found"
  | some miner =>
    if isValidSshPublicKey request.sshPublicKey = false then fail "Invalid SSH public key provided"
    else if validateDockerImage manager request.containerImage = false then fail "Invalid container image provided"
    else
      ask (RentalCall.connectAndAuthenticate miner.endpoint miner.hotkey)
      manager.startRental request minerId

def closeSshSession (rental : RentalInfo) : RentalCalls Unit := do
  match ← ask (RentalCall.getMinerById rental.minerId) with
  | none => fail "Miner not found in database"
  | some miner =>
    ask (RentalCall.connectAndAuthenticate miner.endpoint miner.hotkey)
    ask (RentalCall.closeSshSession rental.sshSessionId "rental_stopped")

/-- The clean-up goes on even if the session is not closed. -/
def stopRental (rentalId : RentalId) (force : Bool) : RentalCalls Unit := do
  match ← ask (RentalCall.loadRental rentalId) with
  | none => fail "Rental not found"
  | some rental =>
    ask (RentalCall.createContainerClient rental.sshCredentials)
    ask (RentalCall.stopContainer rental.containerId force)
    let _ ← (closeSshSession rental).catching
    ask (RentalCall.saveRental { rental with state := .stopped })

def ContainerStatus.healthy (status : ContainerStatus) : Bool :=
  if status.state ≠ "running" then false else if status.health ≠ "none" then status.health = "healthy" else true

def RentalState.unhealthy : RentalState → Option RentalState
  | provisioning => some failed
  | active => some stopped
  | stopping => some stopped
  | _ => none

/-- An answer without a status is a check that has timed out. -/
def RentalState.next (state : RentalState) : Except String (Option ContainerStatus) → Option RentalState
  | .ok none => some failed
  | .error _ => state.unhealthy
  | .ok (some status) => if status.healthy then none else state.unhealthy

def checkRentalHealth (manager : RentalManager) (rental : RentalInfo) : RentalCalls Unit := do
  let _ ← ofOption "No persistent validator SSH key available" manager.persistentKey
  ask (RentalCall.createContainerClient rental.sshCredentials)
  let result ← (ask (RentalCall.getContainerStatus rental.containerId)).catching
  match rental.state.next result with
  | none => return ()
  | some state => ask (RentalCall.saveRental { rental with state := state })

def checkRentals (manager : RentalManager) : List RentalInfo → RentalCalls Unit
  | [] => return ()
  | rental :: rentals => do
    let _ ← (checkRentalHealth manager rental).catching
    checkRentals manager rentals

def checkAllRentals (manager : RentalManager) : RentalCalls Unit := do
  let rentals ← ask RentalCall.queryNonTerminatedRentals
  checkRentals manager rentals

structure RentalTables where
  executors : AssocMap String ExecutorRow
  miners : AssocMap MinerId Miner
  rentals : AssocMap RentalId RentalInfo

structure Reply where
  fault : Fault
  uuid : String
  session : SshSession
  containerId : String
  status : Option ContainerStatus
  now : Time

/-- Of a rental that is there, these columns are updated. -/
def RentalInfo.update (rental old : RentalInfo) : RentalInfo :=
  { old with
    state := rental.state
    containerId := rental.containerId
    sshSessionId := rental.sshSessionId
    sshCredentials := rental.sshCredentials
    minerId := rental.minerId }

namespace RentalTables

def saveRental (rental : RentalInfo) (t : RentalTables) : RentalTables :=
  { t with rentals := t.rentals.upsert rental.rentalId rental rental.update }

def nonTerminated (t : RentalTables) : List RentalInfo :=
  (t.rentals.values.filter (fun rental => rental.state ≠ .stopped ∧ rental.state ≠ .failed)).insertionSort
    (fun a b => b.createdAt ≤ a.createdAt)

def answer (reply : Reply) (t : RentalTables) : (c : RentalCall) → Except String c.Answer
  | .getMinerIdByExecutor executorId =>
    match t.executors.values.find? (fun row => row.executorId = executorId) with
    | some row => .ok row.minerId
    | none => .error "no rows returned by a query that expected to return at least one row"
  | .getMinerById minerId => .ok (t.miners.get? minerId)
  | .newUuid => .ok reply.uuid
  | .initiateRentalSshSession _ _ _ => .ok reply.session
  | .deployContainer _ _ _ => .ok reply.containerId
  | .clock => .ok reply.now
  | .loadRental rentalId => .ok (t.rentals.get? rentalId)
  | .queryNonTerminatedRentals => .ok t.nonTerminated
  | .getContainerStatus _ => .ok reply.status
  | .connectAndAuthenticate _ _ | .createContainerClient _ | .closeSshSession _ _ | .getExecutorDetails _ _ | .saveRental _
  | .stopContainer _ _ => .ok ()

def after (c : RentalCall) (t : RentalTables) : RentalTables :=
  match c.saves? with
  | some rental => t.saveRental rental
  | none => t

def desk (reply : Reply) (c : RentalCall) (t : RentalTables) : Option (Except String c.Answer × RentalTables) :=
  match reply.fault with
  | .none => some (t.answer reply c, t.after c)
  | .refused => some (.error c.failure, t)
  | .lost => some (.error c.failure, t.after c)

theorem desk_eq (reply : Reply) (c : RentalCall) (t : RentalTables) :
    t.desk reply c = some (if reply.fault = .none then t.answer reply c else .error c.failure,
      if reply.fault = .refused then t else t.after c) := by
  unfold desk
  cases reply.fault <;> rfl

end RentalTables

inductive RentalRequest
  | start (request : StartRentalRequest)
  | stop (rentalId : RentalId) (force : Bool)
  | monitor
deriving DecidableEq

abbrev RentalTask := RentalRequest × ℕ

def serveRental (manager : RentalManager) : RentalRequest → RentalCalls Unit
  | .start request => do
    let _ ← startRental manager request
    return ()
  | .stop rentalId force => stopRental rentalId force
  | .monitor => checkAllRentals manager

structure VerificationUpdate where
  executors : AssocMap String ExecutorRow
  miners : AssocMap MinerId Miner

def rentalSystem (manager : RentalManager) :
    System RentalCall RentalCall.Answer String Unit RentalTables RentalTask Reply VerificationUpdate where
  program task := serveRental manager task.1
  desk := RentalTables.desk
  world update t := { t with executors := update.executors, miners := update.miners }

abbrev RentalFleet := Fleet RentalCall RentalCall.Answer String Unit RentalTables RentalTask

variable {rental : RentalInfo}

section Exclusion

def RentedOnce (rentals : AssocMap RentalId RentalInfo) : Prop :=
  ∀ q ∈ rentals.entries, ∀ q' ∈ rentals.entries, q.2.state.Rented → q'.2.state.Rented → q.2.minerId = q'.2.minerId →
    q.2.executorId = q'.2.executorId → q.1 = q'.1

def recorded (rental : RentalInfo) (rentals : AssocMap RentalId RentalInfo) : RentalInfo :=
  (rentals.get? rental.rentalId).elim rental rental.update

def Vacant (rental : RentalInfo) (rentals : AssocMap RentalId RentalInfo) : Prop :=
  ∀ q ∈ rentals.entries, q.1 ≠ rental.rentalId → q.2.state.Rented → q.2.minerId = (recorded rental rentals).minerId →
    q.2.executorId ≠ (recorded rental rentals).executorId

instance (rentals : AssocMap RentalId RentalInfo) : Decidable (RentedOnce rentals) :=
  inferInstanceAs (Decidable (∀ q ∈ rentals.entries, ∀ q' ∈ rentals.entries, q.2.state.Rented → q'.2.state.Rented →
    q.2.minerId = q'.2.minerId → q.2.executorId = q'.2.executorId → q.1 = q'.1))

instance (rental : RentalInfo) (rentals : AssocMap RentalId RentalInfo) : Decidable (Vacant rental rentals) :=
  inferInstanceAs (Decidable (∀ q ∈ rentals.entries, q.1 ≠ rental.rentalId → q.2.state.Rented →
    q.2.minerId = (recorded rental rentals).minerId → q.2.executorId ≠ (recorded rental rentals).executorId))

def pendingSave (rest : RentalCalls Unit) : Option RentalInfo :=
  match rest with
  | .done _ => none
  | .call c _ => c.saves?

def StartsVacant (m : Move RentalTask Reply VerificationUpdate) (s : RentalFleet) : Prop :=
  match m with
  | .answer (.start request, k) reply =>
    reply.fault ≠ .refused → ∀ rental ∈ pendingSave (s.rest (.start request, k)), Vacant rental s.db.rentals
  | _ => True

variable {rentals : AssocMap RentalId RentalInfo}

theorem state_recorded (rental : RentalInfo) (rentals : AssocMap RentalId RentalInfo) :
    (recorded rental rentals).state = rental.state := by
  unfold recorded
  cases rentals.get? rental.rentalId <;> rfl

theorem mem_upsert_iff {q : RentalId × RentalInfo} : q ∈ (rentals.upsert rental.rentalId rental rental.update).entries ↔
    q = (rental.rentalId, recorded rental rentals) ∨ q.1 ≠ rental.rentalId ∧ q ∈ rentals.entries := by
  obtain ⟨id, info⟩ := q
  have hmem : ∀ (m : AssocMap RentalId RentalInfo), (id, info) ∈ m.entries ↔ m.get? id = some info :=
    fun m => ⟨get?_of_mem, mem_entries_of_get?⟩
  rw [hmem, hmem, get?_upsert]
  by_cases hid : id = rental.rentalId
  · rw [if_pos hid.symm, some.injEq, Prod.mk.injEq]
    constructor
    · intro h
      exact Or.inl ⟨hid, h.symm⟩
    · rintro (⟨-, h⟩ | ⟨hne, -⟩)
      · exact h.symm
      · exact absurd hid hne
  · rw [if_neg (Ne.symm hid), Prod.mk.injEq]
    constructor
    · intro h
      exact Or.inr ⟨hid, h⟩
    · rintro (⟨h, -⟩ | ⟨-, h⟩)
      · exact absurd h hid
      · exact h

theorem rentedOnce_upsert_iff (h : RentedOnce rentals) :
    RentedOnce (rentals.upsert rental.rentalId rental rental.update) ↔ (rental.state.Rented → Vacant rental rentals) := by
  constructor
  · intro hafter hrented q hq hne hstate hminer hexecutor
    have hself : (recorded rental rentals).state.Rented := by
      rw [state_recorded]
      exact hrented
    exact hne (hafter q (mem_upsert_iff.mpr (Or.inr ⟨hne, hq⟩)) _ (mem_upsert_iff.mpr (Or.inl rfl)) hstate hself hminer hexecutor)
  · intro hvacant q hq q' hq' hstate hstate' hminer hexecutor
    rcases mem_upsert_iff.mp hq with rfl | ⟨hne, hq⟩ <;> rcases mem_upsert_iff.mp hq' with rfl | ⟨hne', hq'⟩
    · rfl
    · rw [state_recorded] at hstate
      exact absurd hexecutor.symm (hvacant hstate q' hq' hne' hstate' hminer.symm)
    · rw [state_recorded] at hstate'
      exact absurd hexecutor (hvacant hstate' q hq hne hstate hminer)
    · exact h q hq q' hq' hstate hstate' hminer hexecutor

end Exclusion

variable {c : RentalCall}

section Calls

def Releases (c : RentalCall) : Prop := ∀ rental ∈ c.saves?, ¬ rental.state.Rented

def Takes (c : RentalCall) : Prop := ∀ rental ∈ c.saves?, rental.state = .active

variable {P : RentalInfo → Prop}

theorem forall_of_saves_none (h : c.saves? = none) : ∀ rental ∈ c.saves?, P rental := by
  intro rental hrental
  rw [h] at hrental
  cases hrental

theorem eachCall_next {α : Type} (h : c.saves? = none) {f : c.Answer → RentalCalls α}
    (hf : ∀ a, EachCall (fun c => ∀ rental ∈ c.saves?, P rental) (f a)) :
    EachCall (fun c => ∀ rental ∈ c.saves?, P rental) (ask c >>= f) :=
  (eachCall_ask (forall_of_saves_none h)).bind hf

theorem releases_save (h : ¬ rental.state.Rented) : Releases (.saveRental rental) := by
  rintro _ ⟨⟩
  exact h

variable (manager : RentalManager)

theorem eachCall_startRental (request : StartRentalRequest) : EachCall Takes (startRental manager request) := by
  refine eachCall_next rfl (fun minerId => ?_)
  refine eachCall_next rfl (fun found => ?_)
  cases found with
  | none => trivial
  | some miner =>
    split_ifs
    · trivial
    · trivial
    refine eachCall_next rfl (fun _ => ?_)
    refine eachCall_next rfl (fun uuid => ?_)
    cases manager.persistentKey with
    | none => trivial
    | some key =>
      refine EachCall.bind trivial (fun key => ?_)
      refine eachCall_next rfl (fun session => ?_)
      refine eachCall_next rfl (fun _ => ?_)
      refine (eachCall_ask (forall_of_saves_none rfl)).catching.bind (fun deployed => ?_)
      cases deployed with
      | error e => exact (eachCall_ask (forall_of_saves_none rfl)).catching.bind (fun _ => trivial)
      | ok containerId =>
        refine eachCall_next rfl (fun _ => ?_)
        refine eachCall_next rfl (fun createdAt => ?_)
        refine (eachCall_ask ?_).bind (fun _ => trivial)
        rintro _ ⟨⟩
        rfl

theorem eachCall_stopRental (rentalId : RentalId) (force : Bool) : EachCall Releases (stopRental rentalId force) := by
  refine eachCall_next rfl (fun found => ?_)
  cases found with
  | none => trivial
  | some rental =>
    refine eachCall_next rfl (fun _ => ?_)
    refine eachCall_next rfl (fun _ => ?_)
    refine (EachCall.catching ?_).bind (fun _ => ?_)
    · refine eachCall_next rfl (fun miner => ?_)
      cases miner with
      | none => trivial
      | some miner =>
        exact eachCall_next rfl (fun _ => eachCall_ask (forall_of_saves_none rfl))
    · have hstopped : ¬ RentalState.stopped.Rented := by decide
      exact eachCall_ask (releases_save hstopped)

theorem next_releases {state next : RentalState} {result : Except String (Option ContainerStatus)} (h : state.next result = some next) :
    ¬ next.Rented := by
  have hunhealthy : ∀ next, state.unhealthy = some next → ¬ next.Rented := by
    intro next hnext
    cases state <;> cases hnext <;> decide
  unfold RentalState.next at h
  split at h
  · cases h
    decide
  · exact hunhealthy next h
  · split_ifs at h
    exact hunhealthy next h

theorem eachCall_checkRentalHealth (rental : RentalInfo) : EachCall Releases (checkRentalHealth manager rental) := by
  unfold checkRentalHealth
  cases manager.persistentKey with
  | none => trivial
  | some key =>
    refine EachCall.bind trivial (fun _ => ?_)
    refine eachCall_next rfl (fun _ => ?_)
    refine (eachCall_ask (forall_of_saves_none rfl)).catching.bind (fun result => ?_)
    cases hnext : rental.state.next result with
    | none => trivial
    | some next => exact eachCall_ask (releases_save (next_releases hnext))

theorem eachCall_checkAllRentals : EachCall Releases (checkAllRentals manager) := by
  refine eachCall_next rfl (fun rentals => ?_)
  induction rentals with
  | nil => trivial
  | cons rental rentals ih => exact (eachCall_checkRentalHealth manager rental).catching.bind (fun _ => ih)

def Writes (task : RentalTask) (c : RentalCall) : Prop :=
  match task.1 with
  | .start _ => Takes c
  | _ => Releases c

theorem eachCall_serveRental (task : RentalTask) : EachCall (Writes task) (serveRental manager task.1) := by
  obtain ⟨request, k⟩ := task
  cases request with
  | start request => exact (eachCall_startRental manager request).bind (fun _ => trivial)
  | stop rentalId force => exact eachCall_stopRental rentalId force
  | monitor => exact eachCall_checkAllRentals manager

end Calls

section Runs

variable {manager : RentalManager}

theorem rentedOnce_after_iff {t : RentalTables} (h : RentedOnce t.rentals) (c : RentalCall) :
    RentedOnce (t.after c).rentals ↔ ∀ rental ∈ c.saves?, rental.state.Rented → Vacant rental t.rentals := by
  unfold RentalTables.after
  cases c.saves? with
  | none => exact iff_of_true h (fun rental hrental => absurd hrental (not_mem_none rental))
  | some rental =>
    refine (rentedOnce_upsert_iff h).trans ?_
    simp only [mem_some_iff, forall_eq']

variable {task : RentalTask}

theorem startsVacant_iff {reply : Reply} {s : RentalFleet} : StartsVacant (.answer task reply) s ↔
      (∃ request, task.1 = .start request) → reply.fault ≠ .refused → ∀ rental ∈ pendingSave (s.rest task), Vacant rental s.db.rentals := by
  obtain ⟨request, k⟩ := task
  cases request with
  | start request => exact ⟨fun h _ => h, fun h => h ⟨request, rfl⟩⟩
  | stop rentalId force | monitor =>
    refine iff_of_true trivial ?_
    rintro ⟨request, ⟨⟩⟩

theorem writes_iff (h : Writes task c) (rentals : AssocMap RentalId RentalInfo) :
    (∀ rental ∈ c.saves?, rental.state.Rented → Vacant rental rentals) ↔
      (∃ request, task.1 = .start request) → ∀ rental ∈ c.saves?, Vacant rental rentals := by
  obtain ⟨request, k⟩ := task
  cases request with
  | start request =>
    constructor
    · intro hvacant _ rental hrental
      exact hvacant rental hrental (Or.inl (h rental hrental))
    · intro hvacant rental hrental _
      exact hvacant ⟨request, rfl⟩ rental hrental
  | stop rentalId force | monitor =>
    refine iff_of_true (fun rental hrental hrented => absurd hrented (h rental hrental)) ?_
    rintro ⟨request, ⟨⟩⟩

theorem rentedOnce_step_iff (m : Move RentalTask Reply VerificationUpdate) (s : RentalFleet)
    (hrest : ∀ task, EachCall (Writes task) (s.rest task)) (h : RentedOnce s.db.rentals) :
    RentedOnce (step (rentalSystem manager) m s).db.rentals ↔ StartsVacant m s := by
  cases m with
  | restart task | world update => exact iff_of_true h trivial
  | answer task reply =>
    have hcalls := hrest task
    rw [startsVacant_iff]
    cases hcall : s.rest task with
    | done r =>
      rw [step_done hcall]
      refine iff_of_true h ?_
      intro _ _ rental hrental
      cases hrental
    | call c next =>
      rw [hcall] at hcalls
      have hafter : RentedOnce (s.db.after c).rentals ↔
          ((∃ request, task.1 = .start request) → ∀ rental ∈ c.saves?, Vacant rental s.db.rentals) :=
        (rentedOnce_after_iff h c).trans (writes_iff hcalls.1 _)
      change RentedOnce _ ↔ ((∃ request, task.1 = .start request) → reply.fault ≠ .refused →
        ∀ rental ∈ c.saves?, Vacant rental s.db.rentals)
      rw [step_call hcall (s.db.desk_eq reply c)]
      by_cases hrefused : reply.fault = .refused
      · rw [if_pos hrefused]
        exact iff_of_true h (fun _ hne => absurd hrefused hne)
      · rw [if_neg hrefused]
        exact hafter.trans ⟨fun hv hstart _ => hv hstart, fun hv hstart => hv hstart hrefused⟩

theorem rentedOnce_throughout_iff (manager : RentalManager) {t : RentalTables} (ht : RentedOnce t.rentals)
    (l : List (Move RentalTask Reply VerificationUpdate)) :
    Throughout (step (rentalSystem manager)) (fun s => RentedOnce s.db.rentals) l (start (rentalSystem manager) t) ↔
      EachStep (step (rentalSystem manager)) StartsVacant l (start (rentalSystem manager) t) := by
  have hprogram : ∀ task, EachCall (Writes task) ((rentalSystem manager).program task) := eachCall_serveRental manager
  have hkeep : ∀ (m : Move RentalTask Reply VerificationUpdate) (s : RentalFleet), True →
      (∀ task, EachCall (Writes task) (s.rest task)) →
        ∀ task, EachCall (Writes task) ((step (rentalSystem manager) m s).rest task) :=
    fun m _ _ hs => eachCall_step hprogram (fun task _ => hprogram task) m hs
  exact throughout_iff hkeep (fun m s _ hs h => rentedOnce_step_iff m s hs h) (fun _ _ => trivial) hprogram ht

instance (m : Move RentalTask Reply VerificationUpdate) (s : RentalFleet) : Decidable (StartsVacant m s) :=
  match m with
  | .answer (.start request, k) reply => inferInstanceAs (Decidable (reply.fault ≠ .refused →
      ∀ rental ∈ pendingSave (s.rest (.start request, k)), Vacant rental s.db.rentals))
  | .answer (.stop _ _, _) _ | .answer (.monitor, _) _ | .restart _ | .world _ => isTrue trivial

def plainManager : RentalManager := ⟨"validator", some "ssh-ed25519 key", fun _ => true⟩

def oneExecutor : RentalTables where
  executors := AssocMap.empty.insert "miner_1_e" ⟨"miner_1", "e", "a:1", 0, .online, none, .dateTime 0⟩
  miners := AssocMap.empty.insert "miner_1" ⟨"alice", "http://10.0.0.1:8080"⟩
  rentals := AssocMap.empty

def rentE : StartRentalRequest := ⟨"e", "nginx", "ssh-ed25519 customer"⟩

def replyWith (uuid : String) : Reply := ⟨.none, uuid, ⟨"session", "root@10.0.0.1:22"⟩, "container", none, 0⟩

def startedRun (k : ℕ) (uuid : String) (l : List (Move RentalTask Reply VerificationUpdate)) :
    List (Move RentalTask Reply VerificationUpdate) :=
  List.replicate 10 (.answer (.start rentE, k) (replyWith uuid)) ++ l

def stoppedRun (rentalId : RentalId) (l : List (Move RentalTask Reply VerificationUpdate)) :
    List (Move RentalTask Reply VerificationUpdate) :=
  List.replicate 7 (.answer (.stop rentalId false, 0) (replyWith "")) ++ l

theorem executor_rented_twice : RentedOnce oneExecutor.rentals ∧
    ¬ RentedOnce (last (step (rentalSystem plainManager)) (startedRun 0 "a" (startedRun 1 "b" []))
      (start (rentalSystem plainManager) oneExecutor)).db.rentals := by
  constructor <;> decide +kernel

theorem executor_rented_again : Throughout (step (rentalSystem plainManager)) (fun s => RentedOnce s.db.rentals)
    (startedRun 0 "a" (stoppedRun "rental-a" (startedRun 1 "b" []))) (start (rentalSystem plainManager) oneExecutor) :=
  (rentedOnce_throughout_iff plainManager (by decide +kernel) _).mpr (by decide +kernel)

end Runs

end Basilica.Validator
