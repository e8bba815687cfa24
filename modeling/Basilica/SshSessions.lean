import Basilica.CallFacts
import Basilica.ExecutorHost
import Basilica.Tallies

/-!
SSH sessions of validators on the executors of a miner. A session is created by provisioning the validator's key on
the executor, and ended by a provisioning message of duration 0.
-/

namespace Basilica.Miner

open AssocMaps AtomicCalls Calls CallFacts Executor Fleets StepRuns Function

inductive SshSessionStatus
  | active
  | expired
deriving DecidableEq

structure SshSession where
  sessionId : String
  validatorHotkey : String
  executorId : String
  validatorPublicKey : String
  createdAt : Time
  expiresAt : Time
  status : SshSessionStatus
deriving DecidableEq

structure RateLimitInfo where
  sessionCount : ℕ
  windowStart : Time

structure SshSessionConfig where
  maxSessionsPerValidator : ℕ := 5
  sessionRateLimit : ℕ := 20
  maxSessionDuration : ℕ := 3600

structure ExecutorInfo where
  host : String
  sshPort : ℕ
  sshUsername : String
  grpcEndpoint : Option String

structure InitiateSshSessionRequest where
  validatorHotkey : String
  executorId : String
  validatorPublicKey : String
  sessionDurationSecs : Int64
  rentalMode : Bool
  rentalId : String
deriving DecidableEq

structure InitiateSshSessionResponse where
  sessionId : String
  accessCredentials : String
  expiresAt : Time
  executorId : String
  status : SshSessionStatus
deriving DecidableEq

structure CloseSshSessionRequest where
  sessionId : String
  validatorHotkey : String
  reason : String
deriving DecidableEq

structure CloseSshSessionResponse where
  success : Bool
  message : String
deriving DecidableEq

/-- The miner's signing of its messages: `sign` is absent where the wallet fails. -/
structure ExecutorAuthService where
  minerHotkey : String
  blake3 : Bytes → BitVec (4 * 64)
  sign : String → Option Bytes

structure AuthParts where
  timestampMs : UInt64
  nonce : String
  requestId : String

namespace ExecutorAuthService

variable (service : ExecutorAuthService)

def createCanonicalData (parts : AuthParts) (requestData : Bytes) : String :=
  let requestHash := ColumnText.encodeHex (service.blake3 requestData)
  s!"MINER_AUTH:{service.minerHotkey}:{parts.timestampMs}:{parts.nonce}:{parts.requestId}:{requestHash}"

def createAuth (parts : AuthParts) (requestData : Bytes) : Except String MinerAuthentication :=
  match service.sign (service.createCanonicalData parts requestData) with
  | none => .error "Failed to sign request"
  | some signature => .ok
      { minerHotkey := service.minerHotkey
        timestampMs := parts.timestampMs
        nonce := parts.nonce.toUTF8.toList
        signature := signature
        requestId := parts.requestId.toUTF8.toList }

end ExecutorAuthService

structure SshSessionOrchestrator where
  config : SshSessionConfig
  authService : Option ExecutorAuthService
  encode : ControlBody → Bytes
  parseExecutorId : String → Except String Uuid
  executor : String → ExecutorServer

open SshSessionOrchestrator

inductive SessionCall
  | checkRateLimits (validatorHotkey : String)
  | checkConcurrentLimits (validatorHotkey : String)
  | newUuid
  | getExecutorInfo (executorId : String)
  | connect (endpoint : String)
  | authParts
  | provision (endpoint : String) (message : ProvisionAccess) (auth : Option MinerAuthentication)
  | clock
  | storeSession (session : SshSession) (endpoint : String)
  | loadSession (sessionId : String)
  | expireSession (sessionId : String)
  | expiredSessions (now : Time)
  | retainSessions (cutoff : Time)

abbrev SessionCall.Answer : SessionCall → Type
  | newUuid => String
  | getExecutorInfo _ => ExecutorInfo
  | authParts => AuthParts
  | provision _ _ _ => ProvisionAccessResponse
  | clock => Time
  | loadSession _ => Option SshSession
  | expiredSessions _ => List SshSession
  | _ => Unit

abbrev SessionCalls := Calls SessionCall SessionCall.Answer String

namespace SshSessionOrchestrator

variable (miner : SshSessionOrchestrator)

def buildGrpcEndpoint (endpoint : String) : String :=
  if "http://".toList.isPrefixOf endpoint.toList || "https://".toList.isPrefixOf endpoint.toList then endpoint else "http://" ++ endpoint

/-- The message is sent again, as it is, until an attempt works or is the last. -/
def retryGrpcCall (endpoint : String) (message : ProvisionAccess) (auth : Option MinerAuthentication) :
    ℕ → SessionCalls ProvisionAccessResponse
  | 0 => fail "Failed after 3 attempts with exponential backoff"
  | attempts + 1 => do
    match ← (ask (SessionCall.provision endpoint message auth)).catching with
    | .ok response => return response
    | .error _ => retryGrpcCall endpoint message auth attempts

def authenticate (message : ProvisionAccess) : SessionCalls (Option MinerAuthentication) :=
  match miner.authService with
  | none => return none
  | some service => do
    let parts ← ask SessionCall.authParts
    let auth ← ofExcept (service.createAuth parts (miner.encode (.provisionValidatorAccess message)))
    return some auth

def provisionValidatorAccess (endpoint validatorHotkey sshPublicKey : String) (durationSeconds : UInt64) (metadata : Option String) :
    SessionCalls ProvisionAccessResponse := do
  let grpcEndpoint := buildGrpcEndpoint endpoint
  ask (SessionCall.connect grpcEndpoint)
  let message : ProvisionAccess := ⟨validatorHotkey, sshPublicKey, "", durationSeconds, "ssh",
    metadata.toList.map (fun text => ("metadata", text))⟩
  let auth ← miner.authenticate message
  let response ← retryGrpcCall grpcEndpoint message auth 3
  if response.success = false then fail "Access provisioning failed: Unknown error" else return response

def validateSessionRequest (request : InitiateSshSessionRequest) : Except String Unit :=
  let duration := request.sessionDurationSecs.toUInt64.toNat
  if request.validatorPublicKey = "" then .error "Validator public key is required"
  else if "ssh-".toList.isPrefixOf request.validatorPublicKey.toList = false then .error "Invalid SSH public key format"
  else if miner.config.maxSessionDuration < duration then
    .error s!"Session duration exceeds maximum allowed: {duration} > {miner.config.maxSessionDuration}"
  else if duration = 0 then .error "Session duration must be greater than 0"
  else .ok ()

def rentalMetadata : String := "\x7b\x22docker_access\x22:true,\x22permissions\x22:\x22rental\x22,\x22rental_mode\x22:true\x7d"

def executorEndpoint (info : ExecutorInfo) : SessionCalls String := ofOption "Executor has no gRPC endpoint configured" info.grpcEndpoint

def createSession (request : InitiateSshSessionRequest) : SessionCalls InitiateSshSessionResponse := do
  ofExcept (miner.validateSessionRequest request)
  ask (SessionCall.checkRateLimits request.validatorHotkey)
  ask (SessionCall.checkConcurrentLimits request.validatorHotkey)
  let uuid ← ask SessionCall.newUuid
  let sessionId := "ssh-session-" ++ uuid
  let info ← ask (SessionCall.getExecutorInfo request.executorId)
  if request.rentalMode ∧ request.rentalId = "" then fail "Rental ID is required when rental_mode is true"
  else
    let endpoint ← executorEndpoint info
    let duration := request.sessionDurationSecs.toUInt64
    let response ← miner.provisionValidatorAccess endpoint request.validatorHotkey request.validatorPublicKey duration
      (if request.rentalMode then some rentalMetadata else none)
    let now ← ask SessionCall.clock
    let expiresAt := now + duration.toNat * 10 ^ 9
    ask (SessionCall.storeSession
      { sessionId := sessionId
        validatorHotkey := request.validatorHotkey
        executorId := request.executorId
        validatorPublicKey := request.validatorPublicKey
        createdAt := now
        expiresAt := expiresAt
        status := .active } (buildGrpcEndpoint endpoint))
    return { sessionId := sessionId
             accessCredentials := s!"{response.credentials.sshUsername}@{info.host}:{info.sshPort}"
             expiresAt := expiresAt / 10 ^ 9
             executorId := request.executorId
             status := .active }

/-- A message of duration 0 is meant to revoke the access. -/
def removeValidatorKeyFromExecutor (session : SshSession) : SessionCalls Unit := do
  let info ← ask (SessionCall.getExecutorInfo session.executorId)
  let endpoint ← executorEndpoint info
  let _ ← miner.provisionValidatorAccess endpoint session.validatorHotkey session.validatorPublicKey 0 none
  return ()

def closeSession (request : CloseSshSessionRequest) : SessionCalls CloseSshSessionResponse := do
  match ← ask (SessionCall.loadSession request.sessionId) with
  | none => fail s!"Session not found: {request.sessionId}"
  | some session =>
    if session.validatorHotkey ≠ request.validatorHotkey then fail "Unauthorized: not session owner"
    else
      miner.removeValidatorKeyFromExecutor session
      ask (SessionCall.expireSession request.sessionId)
      return ⟨true, "Session closed successfully"⟩

/-- The session is marked also when the key could not be removed. -/
def cleanupExpiredSession (sessionId : String) : SessionCalls Unit := do
  match ← ask (SessionCall.loadSession sessionId) with
  | none => return ()
  | some session =>
    if session.status = .active then
      let _ ← (miner.removeValidatorKeyFromExecutor session).catching
      ask (SessionCall.expireSession sessionId)
    else return ()

def cleanupSessions : List SshSession → SessionCalls Unit
  | [] => return ()
  | session :: sessions => do
    let _ ← (miner.cleanupExpiredSession session.sessionId).catching
    cleanupSessions sessions

def runCleanupTask : SessionCalls Unit := do
  let now ← ask SessionCall.clock
  let sessions ← ask (SessionCall.expiredSessions now)
  miner.cleanupSessions sessions
  ask (SessionCall.retainSessions (now - 24 * hour))

end SshSessionOrchestrator

/-- `created` lists the sessions with the endpoint at which the key was provisioned; no code reads it. -/
structure SessionTables where
  sessions : AssocMap String SshSession
  rateLimits : AssocMap String RateLimitInfo
  executors : AssocMap Uuid ExecutorInfo
  hosts : String → HostState
  created : List (SshSession × String)

structure SessionReply where
  fault : Fault
  now : Time
  uuid : String
  parts : AuthParts
  host : HostReply

namespace SessionTables

def checkRateLimits (config : SshSessionConfig) (now : Time) (hotkey : String) (t : SessionTables) :
    Except String Unit × SessionTables :=
  let entry := (t.rateLimits.get? hotkey).getD ⟨0, now⟩
  let info := if entry.windowStart + hour < now then ⟨0, now⟩ else entry
  let store (info : RateLimitInfo) : SessionTables := { t with rateLimits := t.rateLimits.upsert hotkey info (fun _ => info) }
  if config.sessionRateLimit ≤ info.sessionCount then
    (.error s!"Rate limit exceeded: {config.sessionRateLimit} sessions per hour", store info)
  else (.ok (), store { info with sessionCount := info.sessionCount + 1 })

def activeCount (hotkey : String) (t : SessionTables) : ℕ :=
  (t.sessions.values.filter (fun session => session.validatorHotkey = hotkey ∧ session.status = .active)).length

def checkConcurrentLimits (config : SshSessionConfig) (hotkey : String) (t : SessionTables) : Except String Unit :=
  if config.maxSessionsPerValidator ≤ t.activeCount hotkey then
    .error s!"Concurrent session limit exceeded: {config.maxSessionsPerValidator} active sessions"
  else .ok ()

def storeSession (session : SshSession) (endpoint : String) (t : SessionTables) : SessionTables :=
  { t with
    sessions := t.sessions.upsert session.sessionId session (fun _ => session)
    created := (session, endpoint) :: t.created }

def expireSession (sessionId : String) (t : SessionTables) : SessionTables :=
  { t with sessions := t.sessions.modify sessionId (fun session => { session with status := .expired }) }

def expiredSessions (now : Time) (t : SessionTables) : List SshSession :=
  t.sessions.values.filter (fun session => session.expiresAt < now ∧ session.status = .active)

def retainSessions (cutoff : Time) (t : SessionTables) : SessionTables :=
  { t with sessions := t.sessions.filter (fun session => session.status = .active ∨ cutoff < session.expiresAt) }

def readResponse : Except Status Response → Except String ProvisionAccessResponse
  | .ok (.provisioned response) => .ok response
  | .ok (.done _) => .error "Provision access failed: unexpected response"
  | .error status => .error s!"Provision access failed: {status.message}"

variable (miner : SshSessionOrchestrator)

def provision (reply : HostReply) (endpoint : String) (message : ProvisionAccess)
    (auth : Option MinerAuthentication) (t : SessionTables) : Except String ProvisionAccessResponse × SessionTables :=
  let (result, host) := (miner.executor endpoint).handleControl reply (.provisionValidatorAccess message) auth (t.hosts endpoint)
  (readResponse result, { t with hosts := update t.hosts endpoint host })

def getExecutorInfo (executorId : String) (t : SessionTables) : Except String ExecutorInfo :=
  match miner.parseExecutorId executorId with
  | .error e => .error s!"Invalid executor ID: {e}"
  | .ok id => match t.executors.get? id with
    | none => .error s!"Executor {executorId} not found"
    | some info => .ok info

def serve (reply : SessionReply) (t : SessionTables) : (c : SessionCall) → Except String c.Answer × SessionTables
  | .checkRateLimits hotkey => t.checkRateLimits miner.config reply.now hotkey
  | .checkConcurrentLimits hotkey => (t.checkConcurrentLimits miner.config hotkey, t)
  | .newUuid => (.ok reply.uuid, t)
  | .getExecutorInfo executorId => (t.getExecutorInfo miner executorId, t)
  | .connect _ => (.ok (), t)
  | .authParts => (.ok reply.parts, t)
  | .provision endpoint message auth => t.provision miner reply.host endpoint message auth
  | .clock => (.ok reply.now, t)
  | .storeSession session endpoint => (.ok (), t.storeSession session endpoint)
  | .loadSession sessionId => (.ok (t.sessions.get? sessionId), t)
  | .expireSession sessionId => (.ok (), t.expireSession sessionId)
  | .expiredSessions now => (.ok (t.expiredSessions now), t)
  | .retainSessions cutoff => (.ok (), t.retainSessions cutoff)

/-- Only the calls over the network go wrong. -/
def answer (reply : SessionReply) (c : SessionCall) (t : SessionTables) : Except String c.Answer × SessionTables :=
  match c, reply.fault with
  | .connect endpoint, .refused => (.error s!"Failed to connect to executor at {endpoint}", t)
  | .connect endpoint, .lost => (.error s!"Failed to connect to executor at {endpoint}", t)
  | .provision _ _ _, .refused => (.error "Provision access failed: transport error", t)
  | .provision endpoint message auth, .lost =>
    (.error "Provision access failed: transport error", (t.provision miner reply.host endpoint message auth).2)
  | c, _ => t.serve miner reply c

end SessionTables

inductive SessionRequest
  | create (request : InitiateSshSessionRequest)
  | close (request : CloseSshSessionRequest)
  | cleanup (sessionId : String)
  | cleanupTask
deriving DecidableEq

inductive SessionOutcome
  | created (response : InitiateSshSessionResponse)
  | closed (response : CloseSshSessionResponse)
  | cleaned
deriving DecidableEq

abbrev SessionTask := SessionRequest × ℕ

def serveSession (miner : SshSessionOrchestrator) : SessionRequest → SessionCalls SessionOutcome
  | .create request => do
    let response ← miner.createSession request
    return .created response
  | .close request => do
    let response ← miner.closeSession request
    return .closed response
  | .cleanup sessionId => do
    miner.cleanupExpiredSession sessionId
    return .cleaned
  | .cleanupTask => do
    miner.runCleanupTask
    return .cleaned

def sessionSystem (miner : SshSessionOrchestrator) :
    System SessionCall SessionCall.Answer String SessionOutcome SessionTables SessionTask SessionReply (AssocMap Uuid ExecutorInfo) where
  program task := serveSession miner task.1
  desk reply c t := some (t.answer miner reply c)
  world executors t := { t with executors := executors }

abbrev SessionFleet := Fleet SessionCall SessionCall.Answer String SessionOutcome SessionTables SessionTask

abbrev SessionMove := Move SessionTask SessionReply (AssocMap Uuid ExecutorInfo)

open SessionTables

section Revocation

variable {miner : SshSessionOrchestrator}

def KeyHeld (miner : SshSessionOrchestrator) (endpoint hotkey publicKey : String) (t : SessionTables) : Prop :=
  HoldsKey ((t.hosts endpoint).files.lines (authKeysPath ((miner.executor endpoint).validatorUsername hotkey))) publicKey

structure KeyFact where
  endpoint : String
  hotkey : String
  publicKey : String

def keyRules : Rules KeyFact SessionCall SessionCall.Answer String where
  needs
    | .storeSession session endpoint => {⟨endpoint, session.validatorHotkey, session.validatorPublicKey⟩}
    | _ => ∅
  tells
    | .provision endpoint message _, .ok _ => {⟨endpoint, message.validatorHotkey, message.sshPublicKey⟩}
    | _, _ => ∅

def KeyFact.Holds (miner : SshSessionOrchestrator) (φ : KeyFact) (t : SessionTables) : Prop :=
  KeyHeld miner φ.endpoint φ.hotkey φ.publicKey t

section Programs

variable {K : Set KeyFact}

theorem justified_retryGrpcCall (endpoint : String) (message : ProvisionAccess) (auth : Option MinerAuthentication) (attempts : ℕ) :
    Justified keyRules K (retryGrpcCall endpoint message auth attempts)
      (OnSuccess ⟨endpoint, message.validatorHotkey, message.sshPublicKey⟩) := by
  induction attempts generalizing K with
  | zero => exact onSuccess_error
  | succ attempts ih =>
    have hask : Justified keyRules K (ask (SessionCall.provision endpoint message auth))
        (OnSuccess ⟨endpoint, message.validatorHotkey, message.sshPublicKey⟩) := by
      refine justified_ask (Set.empty_subset K) ?_
      rintro r response rfl
      exact Or.inr rfl
    refine hask.catching.bind ?_ (fun _ _ _ => onSuccess_error)
    rintro attempt K' ⟨_, ⟨⟩, hattempt⟩
    cases attempt with
    | error e => exact ih
    | ok response =>
      intro _ _
      exact hattempt response rfl

theorem sound_authenticate (message : ProvisionAccess) : Sound keyRules K (miner.authenticate message) := by
  unfold authenticate
  cases miner.authService with
  | none => trivial
  | some service =>
    refine (sound_ask rfl).bind (fun parts K' => ?_)
    exact Sound.bind trivial (fun auth K' => trivial)

theorem justified_provisionValidatorAccess (endpoint hotkey publicKey : String) (duration : UInt64) (metadata : Option String) :
    Justified keyRules K (miner.provisionValidatorAccess endpoint hotkey publicKey duration metadata)
      (OnSuccess ⟨buildGrpcEndpoint endpoint, hotkey, publicKey⟩) := by
  refine (sound_ask rfl).onSuccess_bind (fun _ K' => ?_)
  refine (sound_authenticate _).onSuccess_bind (fun auth K' => ?_)
  refine (justified_retryGrpcCall _ _ auth 3).bind ?_ (fun _ _ _ => onSuccess_error)
  intro response K' hknown
  split_ifs
  · exact onSuccess_error
  · intro _ _
    exact hknown response rfl

theorem sound_createSession (request : InitiateSshSessionRequest) : Sound keyRules K (miner.createSession request) := by
  refine Sound.bind trivial (fun _ K' => ?_)
  refine (sound_ask rfl).bind (fun _ K' => ?_)
  refine (sound_ask rfl).bind (fun _ K' => ?_)
  refine (sound_ask rfl).bind (fun uuid K' => ?_)
  refine (sound_ask rfl).bind (fun info K' => ?_)
  split_ifs
  · trivial
  all_goals
    cases hendpoint : info.grpcEndpoint with
    | none =>
      rw [executorEndpoint, hendpoint]
      trivial
    | some endpoint =>
      rw [executorEndpoint, hendpoint]
      refine Sound.bind trivial (fun endpoint K' => ?_)
      refine (justified_provisionValidatorAccess endpoint request.validatorHotkey request.validatorPublicKey _ _).sound_bind ?_
      intro response K' hknown
      refine (sound_ask rfl).bind_of_mem hknown (fun now K' hknown => ?_)
      refine Sound.bind ?_ (fun _ _ => trivial)
      exact justified_ask (Set.singleton_subset_iff.mpr hknown) (fun _ => trivial)

theorem sound_removeValidatorKey (session : SshSession) : Sound keyRules K (miner.removeValidatorKeyFromExecutor session) := by
  refine (sound_ask rfl).bind (fun info K' => ?_)
  refine Sound.bind ?_ (fun endpoint K' => ?_)
  · unfold executorEndpoint
    cases info.grpcEndpoint <;> trivial
  · exact (justified_provisionValidatorAccess _ _ _ _ _).sound.bind (fun _ _ => trivial)

theorem sound_cleanupExpiredSession (sessionId : String) : Sound keyRules K (miner.cleanupExpiredSession sessionId) := by
  refine (sound_ask rfl).bind (fun found K' => ?_)
  cases found with
  | none => trivial
  | some session =>
    dsimp only
    split_ifs
    · refine (sound_removeValidatorKey session).catching.sound.bind (fun _ K' => ?_)
      exact sound_ask rfl
    · trivial

theorem sound_serveSession (miner : SshSessionOrchestrator) (request : SessionRequest) : Sound keyRules ∅ (serveSession miner request) := by
  cases request with
  | create request => exact (sound_createSession request).bind (fun _ _ => trivial)
  | close request =>
    refine Sound.bind ?_ (fun _ _ => trivial)
    refine (sound_ask rfl).bind (fun found K' => ?_)
    cases found with
    | none => trivial
    | some session =>
      dsimp only
      split_ifs
      · trivial
      · refine (sound_removeValidatorKey session).bind (fun _ K' => ?_)
        exact (sound_ask rfl).bind (fun _ _ => trivial)
  | cleanup sessionId => exact (sound_cleanupExpiredSession sessionId).bind (fun _ _ => trivial)
  | cleanupTask =>
    refine Sound.bind ?_ (fun _ _ => trivial)
    refine (sound_ask rfl).bind (fun now K' => ?_)
    refine (sound_ask rfl).bind (fun sessions K' => ?_)
    refine Sound.bind ?_ (fun _ K' => sound_ask rfl)
    induction sessions generalizing K' with
    | nil => trivial
    | cons session sessions ih => exact (sound_cleanupExpiredSession _).catching.sound.bind (fun _ K' => ih K')

end Programs

variable {t : SessionTables} {φ : KeyFact}

section

variable (miner : SshSessionOrchestrator) (reply : HostReply) (endpoint : String) (message : ProvisionAccess)
  (auth : Option MinerAuthentication)

theorem keyHeld_provision {response : ProvisionAccessResponse}
    (h : (t.provision miner reply endpoint message auth).1 = .ok response) :
    KeyHeld miner endpoint message.validatorHotkey message.sshPublicKey (t.provision miner reply endpoint message auth).2 := by
  change readResponse ((miner.executor endpoint).handleControl reply (.provisionValidatorAccess message) auth
    (t.hosts endpoint)).1 = .ok response at h
  change HoldsKey ((update t.hosts endpoint ((miner.executor endpoint).handleControl reply
    (.provisionValidatorAccess message) auth (t.hosts endpoint)).2 endpoint).files.lines _) _
  rw [update_self]
  cases hresult : ((miner.executor endpoint).handleControl reply (.provisionValidatorAccess message) auth (t.hosts endpoint)).1 with
  | error status =>
    rw [hresult] at h
    cases h
  | ok answer => exact (provides_handleProvision _ _ message auth _).holds (by rw [hresult]; rfl)

theorem keyHeld_after_provision (h : φ.Holds miner t) :
    φ.Holds miner (t.provision miner reply endpoint message auth).2 := by
  change HoldsKey ((update t.hosts endpoint ((miner.executor endpoint).handleControl reply
    (.provisionValidatorAccess message) auth (t.hosts endpoint)).2 φ.endpoint).files.lines _) _
  by_cases hendpoint : φ.endpoint = endpoint
  · subst hendpoint
    rw [update_self]
    exact HoldsKey.mono h ((provides_handleProvision _ _ message auth _).grows _)
  · rw [update_of_ne hendpoint]
    exact h

end

theorem hosts_checkRateLimits (config : SshSessionConfig) (now : Time) (hotkey : String) :
    (t.checkRateLimits config now hotkey).2.hosts = t.hosts := by
  unfold checkRateLimits
  dsimp only
  split_ifs <;> rfl

theorem keyHeld_answer (miner : SshSessionOrchestrator) (reply : SessionReply) (c : SessionCall) (h : φ.Holds miner t) :
    φ.Holds miner (t.answer miner reply c).2 := by
  cases c with
  | provision endpoint message auth =>
    cases hfault : reply.fault with
    | refused =>
      unfold answer
      rw [hfault]
      exact h
    | lost | none =>
      unfold answer
      rw [hfault]
      exact keyHeld_after_provision miner reply.host endpoint message auth h
  | connect endpoint =>
    unfold answer
    cases reply.fault <;> exact h
  | checkRateLimits hotkey =>
    change KeyHeld miner φ.endpoint φ.hotkey φ.publicKey (t.checkRateLimits miner.config reply.now hotkey).2
    unfold KeyHeld
    rw [hosts_checkRateLimits]
    exact h
  | checkConcurrentLimits hotkey | newUuid | getExecutorInfo executorId | authParts | clock
  | storeSession session endpoint | loadSession sessionId | expireSession sessionId
  | expiredSessions now | retainSessions cutoff => exact h

theorem tells_answer (miner : SshSessionOrchestrator) (reply : SessionReply) (c : SessionCall) (t : SessionTables) :
    ∀ φ ∈ keyRules.tells c (t.answer miner reply c).1, KeyFact.Holds miner φ (t.answer miner reply c).2 := by
  cases c with
  | provision endpoint message auth =>
    intro φ hφ
    unfold answer at hφ ⊢
    cases hfault : reply.fault with
    | refused | lost =>
      rw [hfault] at hφ
      cases hφ
    | none =>
      rw [hfault] at hφ
      change φ ∈ keyRules.tells (.provision endpoint message auth) (t.provision miner reply.host endpoint message auth).1 at hφ
      cases hresult : (t.provision miner reply.host endpoint message auth).1 with
      | error e =>
        rw [hresult] at hφ
        cases hφ
      | ok response =>
        rw [hresult] at hφ
        cases hφ
        exact keyHeld_provision miner reply.host endpoint message auth hresult
  | _ =>
    rintro φ ⟨⟩

theorem truthful_sessionSystem (miner : SshSessionOrchestrator) : Truthful (KeyFact.Holds miner) keyRules (sessionSystem miner) where
  tells := by
    intro reply c t r t' h
    have hanswer : t.answer miner reply c = (r, t') := Option.some.inj h
    have htells := tells_answer miner reply c t
    rwa [hanswer] at htells
  keeps := by
    intro reply c t r t' h φ hφ
    have hanswer : t.answer miner reply c = (r, t') := Option.some.inj h
    have hkeeps := keyHeld_answer miner reply c hφ
    rwa [hanswer] at hkeeps
  world := fun _ _ _ hφ => hφ

variable {q : SshSession × String}

theorem mem_created_answer {reply : SessionReply} {c : SessionCall}
    (h : q ∈ (t.answer miner reply c).2.created) : q ∈ t.created ∨ c = .storeSession q.1 q.2 := by
  cases c with
  | storeSession session endpoint =>
    rcases List.mem_cons.mp h with rfl | hold
    · exact Or.inr rfl
    · exact Or.inl hold
  | provision endpoint message auth | connect endpoint =>
    unfold answer at h
    cases hfault : reply.fault <;> rw [hfault] at h <;> exact Or.inl h
  | checkRateLimits hotkey =>
    change q ∈ (t.checkRateLimits miner.config reply.now hotkey).2.created at h
    unfold checkRateLimits at h
    dsimp only at h
    split_ifs at h <;> exact Or.inl h
  | _ => exact Or.inl h

variable {s : SessionFleet}

theorem mem_created_step {m : SessionMove}
    (h : q ∈ (step (sessionSystem miner) m s).db.created) :
    q ∈ s.db.created ∨ ∃ task next, s.rest task = call (.storeSession q.1 q.2) next := by
  cases m with
  | restart task | world executors => exact Or.inl h
  | answer task reply =>
    cases hrest : s.rest task with
    | done r =>
      rw [step_done hrest] at h
      exact Or.inl h
    | call c next =>
      have hdesk : (sessionSystem miner).desk reply c s.db = some (s.db.answer miner reply c) := rfl
      rw [step_call hrest hdesk] at h
      rcases mem_created_answer h with hold | rfl
      · exact Or.inl hold
      · exact Or.inr ⟨task, next, hrest⟩

structure AllHeld (miner : SshSessionOrchestrator) (s : SessionFleet) : Prop where
  held : ∀ q ∈ s.db.created, KeyFact.Holds miner ⟨q.2, q.1.validatorHotkey, q.1.validatorPublicKey⟩ s.db
  informed : Informed (KeyFact.Holds miner) keyRules s

theorem AllHeld.step (m : SessionMove) (h : AllHeld miner s) : AllHeld miner (step (sessionSystem miner) m s) where
  held := by
    intro q hq
    apply (truthful_sessionSystem miner).step m
    rcases mem_created_step hq with hold | ⟨task, next, hcall⟩
    · exact h.held q hold
    · exact h.informed.needs hcall _ rfl
  informed := h.informed.step (truthful_sessionSystem miner) (fun task => sound_serveSession miner task.1)
    (fun task _ => sound_serveSession miner task.1) m

theorem allHeld_start (miner : SshSessionOrchestrator) (ht : t.created = []) :
    AllHeld miner (start (sessionSystem miner) t) where
  held := by
    intro q hq
    change q ∈ t.created at hq
    rw [ht] at hq
    cases hq
  informed := informed_start (fun task => sound_serveSession miner task.1) t

def Ended (q : SshSession × String) (s : SessionFleet) : Prop :=
  q ∈ s.db.created ∧ ((∃ session ∈ s.db.sessions.get? q.1.sessionId, session.status = .expired) ∨
    ∃ hotkey reason k response, s.rest (.close ⟨q.1.sessionId, hotkey, reason⟩, k) = done (.ok (.closed response)) ∧
      response.success = true)

theorem key_held_after_end (miner : SshSessionOrchestrator) {t : SessionTables} (ht : t.created = []) (l l' : List SessionMove)
    {q : SshSession × String} (h : Ended q (last (step (sessionSystem miner)) l (start (sessionSystem miner) t))) :
    Throughout (step (sessionSystem miner)) (fun s => KeyHeld miner q.2 q.1.validatorHotkey q.1.validatorPublicKey s.db) l'
      (last (step (sessionSystem miner)) l (start (sessionSystem miner) t)) := by
  have hall := last_of_step (fun m _ hs => hs.step m) l (allHeld_start miner ht)
  have hheld := hall.held q h.1
  have hkeep : ∀ (m : SessionMove) (s : SessionFleet), KeyFact.Holds miner ⟨q.2, q.1.validatorHotkey, q.1.validatorPublicKey⟩ s.db →
      True → KeyFact.Holds miner ⟨q.2, q.1.validatorHotkey, q.1.validatorPublicKey⟩ (step (sessionSystem miner) m s).db :=
    fun m _ hs _ => (truthful_sessionSystem miner).step m hs
  exact throughout_of_step hkeep (fun _ hs => hs) hheld (eachStep_of_forall (fun _ _ => trivial) _)

def plainMiner : SshSessionOrchestrator where
  config := {}
  authService := some ⟨"miner", fun _ => 0, fun _ => some [5]⟩
  encode _ := []
  parseExecutorId _ := .ok 1
  executor _ := { plainExecutor with parseUuid := fun text => some (BitVec.ofNat 128 text.length) }

def oneExecutor : SessionTables where
  sessions := AssocMap.empty
  rateLimits := AssocMap.empty
  executors := AssocMap.empty.insert 1 ⟨"10.0.0.1", 22, "root", some "10.0.0.1:50051"⟩
  hosts _ := emptyHost
  created := []

def replyWithNonce (nonce : String) : SessionReply := ⟨.none, 0, "u", ⟨0, nonce, "r"⟩, .fine 0⟩

def createV : SessionRequest := .create ⟨"v", "e", "ssh-ed25519 key", 60, false, ""⟩

def closeV : SessionRequest := .close ⟨"ssh-session-u", "v", "done"⟩

def sessionV : SshSession × String :=
  (⟨"ssh-session-u", "v", "e", "ssh-ed25519 key", 0, 60 * 10 ^ 9, .active⟩, "http://10.0.0.1:50051")

def closingRun : List SessionMove :=
  List.replicate 9 (.answer (createV, 0) (replyWithNonce "a")) ++ List.replicate 6 (.answer (closeV, 0) (replyWithNonce "bb"))

def afterClosing : SessionFleet := last (step (sessionSystem plainMiner)) closingRun (start (sessionSystem plainMiner) oneExecutor)

theorem created_afterClosing : afterClosing.db.created = [sessionV] := by
  decide +kernel

theorem ended_afterClosing : Ended sessionV afterClosing := by
  refine ⟨?_, Or.inr ⟨"v", "done", 0, ⟨true, "Session closed successfully"⟩, result?_eq_some.mp (by decide +kernel), rfl⟩⟩
  rw [created_afterClosing]
  exact List.mem_singleton_self sessionV

theorem closed_session_leaves_key : Ended sessionV afterClosing ∧ afterClosing.db.created = [sessionV] ∧
    KeyHeld plainMiner "http://10.0.0.1:50051" "v" "ssh-ed25519 key" afterClosing.db := by
  refine ⟨ended_afterClosing, created_afterClosing, ?_⟩
  unfold KeyHeld
  decide +kernel

theorem key_held_after_clean_up : Throughout (step (sessionSystem plainMiner))
    (fun s => KeyHeld plainMiner "http://10.0.0.1:50051" "v" "ssh-ed25519 key" s.db)
    (List.replicate 8 (.answer (.cleanupTask, 0) (replyWithNonce "c"))) afterClosing :=
  key_held_after_end plainMiner rfl closingRun _ ended_afterClosing

end Revocation

end Basilica.Miner
