import Basilica.FirstCalls
import Basilica.JwtAuth
import Basilica.SshSessions

/-!
The miner's service for validators. A validator authenticates and is given a session token; with it, it asks for executors and
for SSH sessions on them. The handlers run side by side, call by call.
-/

namespace Basilica.Miner

open AssocMaps AtomicCalls Calls Executor FirstCalls Fleets StepRuns

structure ProtoTimestamp where
  value : Option Int64
deriving DecidableEq

structure ValidatorAuthRequest where
  validatorHotkey : String
  signature : String
  nonce : String
  timestamp : Option ProtoTimestamp
  targetMinerHotkey : String
deriving DecidableEq

structure MinerAuthResponse where
  authenticated : Bool
  sessionToken : String
  expiresAt : Time
  minerHotkey : String
  minerSignature : String
  responseNonce : String
deriving DecidableEq

structure LeaseRequest where
  validatorHotkey : String
  sessionToken : String
deriving DecidableEq

structure ExecutorConnectionDetails where
  executorId : String
  grpcEndpoint : String
  status : String
deriving DecidableEq

structure SessionInitRequest where
  validatorHotkey : String
  sessionToken : String
  executorId : String
  sessionType : String
deriving DecidableEq

structure SessionInitResponse where
  success : Bool
  sessionId : String
  accessCredentials : String
deriving DecidableEq

structure ListSshSessionsRequest where
  validatorHotkey : String
  includeExpired : Bool
deriving DecidableEq

inductive CommsRequest
  | authenticateValidator (request : ValidatorAuthRequest)
  | requestExecutorLease (request : LeaseRequest)
  | initiateExecutorSession (request : SessionInitRequest)
  | initiateSshSession (request : InitiateSshSessionRequest)
  | closeSshSession (request : CloseSshSessionRequest)
  | listSshSessions (request : ListSshSessionsRequest)
  | cleanupExpiredSession (sessionId : String)
  | runCleanupTask
deriving DecidableEq

inductive CommsResponse
  | authenticated (response : MinerAuthResponse)
  | leaseOffer (availableExecutors : List ExecutorConnectionDetails)
  | sessionInit (response : SessionInitResponse)
  | sshSession (response : InitiateSshSessionResponse)
  | sshSessionClosed (response : CloseSshSessionResponse)
  | sshSessions (sessions : List SshSession)
  | cleaned
deriving DecidableEq

structure AvailableExecutor where
  id : String
  grpcAddress : String

structure SshKeyInfo where
  privateKeyPath : String
  publicKey : String

structure ManagedSession where
  sessionId : String
  validatorHotkey : String
  executorId : String
  keyInfo : SshKeyInfo
  username : String
  createdAt : Time
  expiresAt : Time
  connectionString : String

inductive CommsCall
  | clock
  | newUuid
  | generateToken (hotkey sessionId : String) (permissions : List String)
  | validateToken (token : String)
  | validatorAssignments (hotkey : String)
  | listAvailable
  | provisionAccess (sessionId username : String) (validitySecs : ℕ)
  | storeSession (session : ManagedSession)
  | recordSessionCreated (sessionId : String)
  | deploySshKey (executorId username publicKey : String)
  | listSessions (hotkey : String) (includeExpired : Bool)
  | orchestrator (c : SessionCall)

abbrev CommsCall.Answer : CommsCall → Type
  | clock => Time
  | newUuid => String
  | generateToken _ _ _ => String
  | validateToken _ => ValidatorClaims
  | validatorAssignments _ => Option (List String)
  | listAvailable => List AvailableExecutor
  | provisionAccess _ _ _ => SshKeyInfo
  | listSessions _ _ => List SshSession
  | orchestrator c => c.Answer
  | _ => Unit

abbrev AccessCalls := Calls CommsCall CommsCall.Answer String

abbrev CommsCalls := Calls CommsCall (fun c => Except String c.Answer) Status

def get (c : CommsCall) : CommsCalls c.Answer := (ask c : AccessCalls _).mapError (fun e => ⟨.internal, e⟩)

def orchestrated {α : Type} (message : String → String) (p : SessionCalls α) : CommsCalls α :=
  (p.embed CommsCall.orchestrator (fun _ r => r) : AccessCalls α).mapError (fun e => ⟨.internal, message e⟩)

/-- `sign` is absent where the wallet fails. -/
structure BittensorService where
  accountId : String
  sign : String → Option String

structure MinerSshConfig where
  defaultSessionTimeout : ℕ := 3600
  maxSessionTimeout : ℕ := 86400
  usernamePrefix : String := "validator"

def sshUsername (config : MinerSshConfig) (sessionId : String) : String :=
  config.usernamePrefix ++ "_" ++ String.ofList (sessionId.toList.take 8)

/-- `newHotkey` says what is wrong with a text that is no hotkey; `verifySignature` is the check of a signature. -/
structure MinerDiscoveryService where
  jwtService : JwtAuthService
  verifySignatures : Bool
  allowedValidators : List String
  bittensorService : Option BittensorService
  newHotkey : String → Except String Unit
  verifySignature : (hotkey signature data : String) → Bool
  validatorDiscovery : Bool
  sshConfig : MinerSshConfig
  orchestrator : Option SshSessionOrchestrator

namespace ValidatorAuthRequest

variable (request : ValidatorAuthRequest)

def timestampSecs : Int64 := (request.timestamp.bind ProtoTimestamp.value).getD 0

def canonicalPayload : String := s!"BASILICA_AUTH_V1:{request.nonce}:{request.targetMinerHotkey}:{request.timestampSecs}"

def legacyPayload : String := s!"{request.nonce}:{request.targetMinerHotkey}"

def timeDiff (now : Time) : ℤ := |unixSeconds now - request.timestampSecs.toInt|

end ValidatorAuthRequest

namespace MinerDiscoveryService

variable (service : MinerDiscoveryService)

section Authentication

variable (request : ValidatorAuthRequest)

def checkTarget : Except Status Unit :=
  if Words.trim request.targetMinerHotkey.toList = [] then .error ⟨.invalidArgument, "target_miner_hotkey is required"⟩
  else match service.bittensorService with
    | none => .ok ()
    | some bittensor =>
      if request.targetMinerHotkey ≠ bittensor.accountId then
        .error ⟨.permissionDenied, "Authentication request not intended for this miner"⟩
      else .ok ()

def parseHotkey (hotkey : String) : Except Status Unit :=
  (service.newHotkey hotkey).mapError (fun e => ⟨.invalidArgument, s!"Invalid hotkey: {e}"⟩)

def checkWindow (now : Time) : CommsCalls Unit :=
  if 300 < request.timeDiff now then
    fail ⟨.unauthenticated, "Authentication timestamp outside allowed window (5 minutes)"⟩
  else return ()

def checkTimestamp : CommsCalls Unit :=
  if 0 < request.timestampSecs then do
    let now ← get CommsCall.clock
    checkWindow request now
  else return ()

def verifyRequest : CommsCalls Unit :=
  if service.verifySignatures then do
    ofExcept (service.parseHotkey request.validatorHotkey)
    if service.verifySignature request.validatorHotkey request.signature request.canonicalPayload then checkTimestamp request
    -- validators that have not been upgraded sign without a time stamp
    else if service.verifySignature request.validatorHotkey request.signature request.legacyPayload then return ()
    else fail ⟨.unauthenticated, "Invalid signature"⟩
  else return ()

def checkAllowed : Except Status Unit :=
  if service.allowedValidators = [] then .ok ()
  else do
    service.parseHotkey request.validatorHotkey
    if request.validatorHotkey ∈ service.allowedValidators then .ok () else .error ⟨.permissionDenied, "Validator not authorized"⟩

def validatorPermissions : List String := ["executor.list", "executor.access", "executor.lease"]

def signResponse (hotkey sessionToken : String) : CommsCalls (String × String × String) :=
  match service.bittensorService with
  | none => return ("", "", "")
  | some bittensor => do
    let responseNonce ← get CommsCall.newUuid
    let signature ← ofOption ⟨.internal, "Failed to sign authentication response"⟩
      (bittensor.sign s!"MINER_AUTH_RESPONSE:{hotkey}:{responseNonce}:{sessionToken}")
    return (bittensor.accountId, signature, responseNonce)

def issueToken : CommsCalls CommsResponse := do
  ofExcept (service.parseHotkey request.validatorHotkey)
  let uuid ← get CommsCall.newUuid
  let sessionToken ← (ask (CommsCall.generateToken request.validatorHotkey ("session_" ++ uuid) validatorPermissions) : AccessCalls _).mapError
    (fun _ => ⟨.internal, "Failed to generate authentication token"⟩)
  let now ← get CommsCall.clock
  let (minerHotkey, minerSignature, responseNonce) ← service.signResponse request.validatorHotkey sessionToken
  return .authenticated
    { authenticated := true
      sessionToken := sessionToken
      expiresAt := now + service.jwtService.tokenExpiration
      minerHotkey := minerHotkey
      minerSignature := minerSignature
      responseNonce := responseNonce }

def authenticateValidator : CommsCalls CommsResponse := do
  ofExcept (service.checkTarget request)
  service.verifyRequest request
  ofExcept (service.checkAllowed request)
  service.issueToken request

end Authentication

def checkPermission (permission : String) (claims : ValidatorClaims) : CommsCalls ValidatorClaims :=
  if permission ∈ claims.permissions then return claims else fail ⟨.permissionDenied, "Insufficient permissions"⟩

def validClaims (token permission : String) : CommsCalls ValidatorClaims := do
  let claims ← (ask (CommsCall.validateToken token) : AccessCalls _).mapError
    (fun _ => ⟨.unauthenticated, "Invalid or expired session token"⟩)
  checkPermission permission claims

def offer (executor : AvailableExecutor) : ExecutorConnectionDetails := ⟨executor.id, executor.grpcAddress, "available"⟩

def requestExecutorLease (request : LeaseRequest) : CommsCalls CommsResponse := do
  let claims ← validClaims request.sessionToken "executor.list"
  if service.validatorDiscovery then
    match ← get (CommsCall.validatorAssignments claims.sub) with
    | none => return .leaseOffer []
    | some assigned =>
      let executors ← get CommsCall.listAvailable
      return .leaseOffer ((executors.filter (fun executor => executor.id ∈ assigned)).map offer)
  else
    let executors ← get CommsCall.listAvailable
    return .leaseOffer (executors.map offer)

def createSession (hotkey executorId : String) (timeoutSecs : Option ℕ) : AccessCalls ManagedSession := do
  let timeout := timeoutSecs.getD service.sshConfig.defaultSessionTimeout
  if service.sshConfig.maxSessionTimeout < timeout then
    fail s!"Session timeout {timeout} exceeds maximum allowed {service.sshConfig.maxSessionTimeout}"
  else
    let uuid ← ask CommsCall.newUuid
    let sessionId := "ssh_" ++ uuid
    let username := sshUsername service.sshConfig sessionId
    let now ← ask CommsCall.clock
    let keyInfo ← ask (CommsCall.provisionAccess sessionId username timeout)
    let session : ManagedSession :=
      { sessionId := sessionId
        validatorHotkey := hotkey
        executorId := executorId
        keyInfo := keyInfo
        username := username
        createdAt := now
        expiresAt := now + timeout * 10 ^ 9
        connectionString :=
          s!"ssh -i {keyInfo.privateKeyPath} -o StrictHostKeyChecking=no -o UserKnownHostsFile=/dev/null {username}@{executorId}" }
    ask (CommsCall.storeSession session)
    ask (CommsCall.recordSessionCreated sessionId)
    return session

def deployToExecutor (session : ManagedSession) : AccessCalls Unit := do
  let executors ← ask CommsCall.listAvailable
  if executors.any (fun executor => executor.id = session.executorId) then
    ask (CommsCall.deploySshKey session.executorId session.username session.keyInfo.publicKey)
  else fail s!"Executor {session.executorId} not found"

/-- That the executor is assigned to the validator is not looked at. -/
def provisionValidatorAccess (hotkey executorId : String) (timeoutSecs : Option ℕ) : AccessCalls String := do
  let executors ← ask CommsCall.listAvailable
  if executors.any (fun executor => executor.id = executorId) then
    let session ← service.createSession hotkey executorId timeoutSecs
    deployToExecutor session
    return session.connectionString
  else fail s!"Executor {executorId} not found or not available"

def provisionFor (request : SessionInitRequest) (claims : ValidatorClaims) : CommsCalls CommsResponse :=
  if claims.sub ≠ request.validatorHotkey then fail ⟨.permissionDenied, "Token validator mismatch"⟩
  else do
    let connection ← (service.provisionValidatorAccess request.validatorHotkey request.executorId none).mapError
      (fun e => ⟨.internal, s!"Failed to create SSH access: {e}"⟩)
    let uuid ← get CommsCall.newUuid
    return .sessionInit ⟨true, "session_" ++ uuid, connection⟩

def initiateExecutorSession (request : SessionInitRequest) : CommsCalls CommsResponse := do
  let claims ← validClaims request.sessionToken "executor.access"
  service.provisionFor request claims

def withOrchestrator {α : Type} (f : SshSessionOrchestrator → CommsCalls α) : CommsCalls α :=
  match service.orchestrator with
  | none => fail ⟨.internal, "SSH session management not configured"⟩
  | some miner => f miner

/-- No token is asked for. -/
def initiateSshSession (request : InitiateSshSessionRequest) : CommsCalls CommsResponse :=
  service.withOrchestrator (fun miner => do
    let response ← orchestrated (fun e => s!"Failed to create SSH session: {e}") (miner.createSession request)
    return .sshSession response)

def closeSshSession (request : CloseSshSessionRequest) : CommsCalls CommsResponse :=
  service.withOrchestrator (fun miner => do
    let response ← orchestrated (fun e => s!"Failed to close SSH session: {e}") (miner.closeSession request)
    return .sshSessionClosed response)

def listSshSessions (request : ListSshSessionsRequest) : CommsCalls CommsResponse :=
  service.withOrchestrator (fun _ => do
    let sessions ← get (CommsCall.listSessions request.validatorHotkey request.includeExpired)
    return .sshSessions sessions)

def handle : CommsRequest → CommsCalls CommsResponse
  | .authenticateValidator request => service.authenticateValidator request
  | .requestExecutorLease request => service.requestExecutorLease request
  | .initiateExecutorSession request => service.initiateExecutorSession request
  | .initiateSshSession request => service.initiateSshSession request
  | .closeSshSession request => service.closeSshSession request
  | .listSshSessions request => service.listSshSessions request
  | .cleanupExpiredSession sessionId => service.withOrchestrator (fun miner => do
      orchestrated (fun e => e) (miner.cleanupExpiredSession sessionId)
      return .cleaned)
  | .runCleanupTask => service.withOrchestrator (fun miner => do
      orchestrated (fun e => e) miner.runCleanupTask
      return .cleaned)

end MinerDiscoveryService

structure CommsState where
  jwt : JwtState
  ssh : SessionTables
  managed : AssocMap String ManagedSession
  assignments : AssocMap String (List String)
  available : List AvailableExecutor

/-- What the surroundings have to say to a call: `outcome` is that of a query, of a write or of commands on the executor. -/
structure CommsReply where
  now : Time
  uuid : String
  session : SessionReply
  keyInfo : Except String SshKeyInfo
  outcome : Except String Unit

namespace CommsState

def listSessions (hotkey : String) (includeExpired : Bool) (s : CommsState) : List SshSession :=
  s.ssh.sessions.values.filter (fun session => session.validatorHotkey = hotkey ∧ (includeExpired ∨ session.status = .active))

def serve (service : MinerDiscoveryService) (reply : CommsReply) (s : CommsState) :
    (c : CommsCall) → Except String c.Answer × CommsState
  | .clock => (.ok reply.now, s)
  | .newUuid => (.ok reply.uuid, s)
  | .generateToken hotkey sessionId permissions =>
    let (result, jwt) := service.jwtService.generateToken reply.now reply.uuid hotkey sessionId permissions s.jwt
    (result, { s with jwt := jwt })
  | .validateToken token =>
    let (result, jwt) := service.jwtService.validateToken reply.now token s.jwt
    (result, { s with jwt := jwt })
  | .validatorAssignments hotkey => (.ok (if reply.outcome = .ok () then s.assignments.get? hotkey else none), s)
  | .listAvailable => (.ok s.available, s)
  | .provisionAccess _ _ _ => (reply.keyInfo.mapError (fun e => s!"Failed to provision SSH access: {e}"), s)
  | .storeSession session => (.ok (), { s with managed := s.managed.upsert session.sessionId session (fun _ => session) })
  | .recordSessionCreated _ => (reply.outcome.mapError (fun _ => "Failed to record SSH session in database"), s)
  | .deploySshKey executorId _ _ => (reply.outcome.mapError (fun e => s!"Failed to deploy SSH key to executor {executorId}: {e}"), s)
  | .listSessions hotkey includeExpired => (.ok (s.listSessions hotkey includeExpired), s)
  | .orchestrator c =>
    match service.orchestrator with
    | none => (.error "SSH session management not configured", s)
    | some miner =>
      let (result, ssh) := s.ssh.answer miner reply.session c
      (result, { s with ssh := ssh })

end CommsState

inductive CommsEvent
  | assign (assignments : AssocMap String (List String))
  | healthChecked (available : List AvailableExecutor)
  | register (executors : AssocMap Uuid ExecutorInfo)
  | revokeSession (now : Time) (sessionId : String)
  | revokeToken (now : Time) (tokenId : String) (expiresAt : Time)
  | cleanupExpired (now : Time)

def CommsEvent.happen : CommsEvent → CommsState → CommsState
  | assign assignments, s => { s with assignments := assignments }
  | healthChecked available, s => { s with available := available }
  | register executors, s => { s with ssh := { s.ssh with executors := executors } }
  | revokeSession now sessionId, s => { s with jwt := (s.jwt.revokeSession now sessionId).2 }
  | revokeToken now tokenId expiresAt, s => { s with jwt := s.jwt.revokeToken now tokenId expiresAt }
  | cleanupExpired now, s => { s with jwt := s.jwt.cleanupExpired now }

abbrev CommsTask := CommsRequest × ℕ

def commsSystem (service : MinerDiscoveryService) :
    System CommsCall (fun c => Except String c.Answer) Status CommsResponse CommsState CommsTask CommsReply CommsEvent where
  program task := service.handle task.1
  desk reply c s := some (.ok (s.serve service reply c).1, (s.serve service reply c).2)
  world event s := event.happen s

abbrev CommsMove := Move CommsTask CommsReply CommsEvent

abbrev CommsRun := Watched CommsCall (fun c => Except String c.Answer) Status CommsResponse CommsState CommsTask CommsReply

section Users

open Function

structure ValidatorSshSession where
  executorId : String
  publicKey : String

structure SshAccess where
  sessions : String → Option ValidatorSshSession
  keys : String × String → List String

inductive SshAccessEvent
  | create (uuid executorId publicKey : String) (timeout : Option ℕ) (provisioned deployed : Bool)
  | revoke (sessionId : String) (removed : Bool)

variable (config : MinerSshConfig)

def sshAccessStep : SshAccessEvent → SshAccess → SshAccess
  | .create uuid executorId publicKey timeout provisioned deployed, s =>
    if timeout.getD config.defaultSessionTimeout ≤ config.maxSessionTimeout ∧ provisioned then
      let user := (executorId, sshUsername config ("ssh_" ++ uuid))
      { sessions := update s.sessions ("ssh_" ++ uuid) (some ⟨executorId, publicKey⟩)
        -- a user that exists is taken, and the key is added to its keys
        keys := if deployed then update s.keys user (s.keys user ++ [publicKey]) else s.keys }
    else s
  | .revoke sessionId removed, s =>
    match s.sessions sessionId with
    | none => s
    | some session =>
      { sessions := update s.sessions sessionId none
        keys := if removed then update s.keys (session.executorId, sshUsername config sessionId) [] else s.keys }

def CommsState.liveSessions (s : CommsState) (sessionId : String) : Option ValidatorSshSession :=
  (s.managed.get? sessionId).map (fun session => ⟨session.executorId, session.keyInfo.publicKey⟩)

theorem liveSessions_store (session : ManagedSession) (s : CommsState) :
    { s with managed := s.managed.upsert session.sessionId session (fun _ => session) }.liveSessions =
      update s.liveSessions session.sessionId (some ⟨session.executorId, session.keyInfo.publicKey⟩) := by
  funext sessionId
  unfold CommsState.liveSessions
  dsimp only
  rw [AssocMap.get?_upsert, update_apply]
  by_cases hnew : session.sessionId = sessionId
  · rw [if_pos hnew, if_pos hnew.symm]
    cases s.managed.get? session.sessionId <;> rfl
  · rw [if_neg hnew, if_neg (Ne.symm hnew)]

/-- A creation keeps the sessions as the calls of the manager do. -/
theorem liveSessions_createSession (service : MinerDiscoveryService) (reply : CommsReply) (hotkey executorId : String)
    (timeout : Option ℕ) (s : CommsState) (keys : String × String → List String) (deployed : Bool) :
    (run (fun c s => s.serve service reply c) (service.createSession hotkey executorId timeout) s).2.liveSessions =
      (sshAccessStep service.sshConfig (.create reply.uuid executorId ((reply.keyInfo.toOption.map SshKeyInfo.publicKey).getD "")
        timeout reply.keyInfo.toOption.isSome deployed) ⟨s.liveSessions, keys⟩).sessions := by
  obtain ⟨now, uuid, session, keyInfo, outcome⟩ := reply
  unfold MinerDiscoveryService.createSession sshAccessStep
  dsimp only
  by_cases htimeout : service.sshConfig.maxSessionTimeout < timeout.getD service.sshConfig.defaultSessionTimeout
  · rw [if_pos htimeout, if_neg (fun h => not_le.mpr htimeout h.1)]
    rfl
  rw [if_neg htimeout]
  cases keyInfo with
  | error e =>
    rw [if_neg (fun h => Bool.false_ne_true h.2)]
    rfl
  | ok keyInfo =>
    rw [if_pos ⟨not_lt.mp htimeout, rfl⟩]
    -- the session stays where its record in the database fails
    cases outcome <;> exact liveSessions_store _ s

def DistinctUsers (s : SshAccess) : Prop := ∀ id id' session session', id ≠ id' → s.sessions id = some session →
  s.sessions id' = some session' → session.executorId = session'.executorId → sshUsername config id ≠ sshUsername config id'

def CreatesApart : SshAccessEvent → SshAccess → Prop
  | .create uuid executorId _ timeout provisioned _, s =>
    timeout.getD config.defaultSessionTimeout ≤ config.maxSessionTimeout ∧ provisioned → ∀ id session, id ≠ "ssh_" ++ uuid →
      s.sessions id = some session → session.executorId = executorId → id.toList.take 8 ≠ ("ssh_" ++ uuid).toList.take 8
  | .revoke .., _ => True

def RevokesAlone (event : SshAccessEvent) (s : SshAccess) : Prop :=
  ∀ sessionId removed, event = .revoke sessionId removed → ∀ id session, id ≠ sessionId → s.sessions id = some session →
    (sshAccessStep config event s).sessions id = some session ∧ (sshAccessStep config event s).keys
      (session.executorId, sshUsername config id) = s.keys (session.executorId, sshUsername config id)

variable {config} {s : SshAccess} {event : SshAccessEvent}

theorem distinctUsers_step_iff (h : DistinctUsers config s) :
    DistinctUsers config (sshAccessStep config event s) ↔ CreatesApart config event s := by
  cases event with
  | create uuid executorId publicKey timeout provisioned deployed =>
    have husers (id id' : String) : sshUsername config id = sshUsername config id' ↔ id.toList.take 8 = id'.toList.take 8 := by
      rw [sshUsername, sshUsername, ← String.toList_inj]
      simp
    simp only [sshAccessStep, CreatesApart, ne_eq, ← husers]
    by_cases haccepted : timeout.getD config.defaultSessionTimeout ≤ config.maxSessionTimeout ∧ provisioned
    · rw [if_pos haccepted, imp_iff_right haccepted]
      constructor
      · intro hafter id session hne hlive hsame
        refine hafter id _ session ⟨executorId, publicKey⟩ hne ?_ (update_self _ _ _) hsame
        exact (update_of_ne hne _ _).trans hlive
      · intro hapart id id' session session' hne hid hid' hsame
        simp only [update_apply] at hid hid'
        split_ifs at hid hid' with hnew hnew' hnew'
        · exact absurd (hnew.trans hnew'.symm) hne
        · cases hid
          exact Ne.symm (hnew ▸ hapart id' session' hnew' hid' hsame.symm)
        · cases hid'
          exact hnew' ▸ hapart id session hnew hid hsame
        · exact h id id' session session' hne hid hid' hsame
    · rw [if_neg haccepted]
      exact iff_of_true h (fun haccepted' => absurd haccepted' haccepted)
  | revoke sessionId removed =>
    refine iff_of_true ?_ trivial
    simp only [sshAccessStep]
    split
    · exact h
    · intro id id' session session' hne hid hid'
      simp only [update_apply] at hid hid'
      split_ifs at hid hid'
      exact h id id' session session' hne hid hid'

theorem revokesAlone_of_distinctUsers (h : DistinctUsers config s) : RevokesAlone config event s := by
  rintro sessionId removed rfl id session hne hlive
  simp only [sshAccessStep]
  split
  · exact ⟨hlive, rfl⟩
  · rename_i ended hended
    refine ⟨(update_of_ne hne _ _).trans hlive, ?_⟩
    split_ifs
    · apply update_of_ne
      intro heq
      exact h id sessionId session ended hne hlive hended (congrArg Prod.fst heq) (congrArg Prod.snd heq)
    · rfl

theorem users_distinct_iff (config : MinerSshConfig) (keys : String × String → List String) (l : List SshAccessEvent) :
    (Throughout (sshAccessStep config) (DistinctUsers config) l ⟨fun _ => none, keys⟩ ↔
      EachStep (sshAccessStep config) (CreatesApart config) l ⟨fun _ => none, keys⟩) ∧
    (EachStep (sshAccessStep config) (CreatesApart config) l ⟨fun _ => none, keys⟩ →
      EachStep (sshAccessStep config) (RevokesAlone config) l ⟨fun _ => none, keys⟩) := by
  have hstart : DistinctUsers config ⟨fun _ => none, keys⟩ := by
    intro id id' session session' _ hid
    cases hid
  constructor
  · exact throughout_iff (I := fun _ => True) (fun _ _ _ h => h) (fun _ _ _ _ => distinctUsers_step_iff) (fun _ _ => trivial) trivial hstart
  · exact eachStep_of_step (fun _ _ h => (distinctUsers_step_iff h).mpr) (fun _ _ h _ => revokesAlone_of_distinctUsers h) hstart

def firstUuid : String := "3f1a6c1e-4a52-4d0b-9b1f-0c7e2a115d08"

def secondUuid : String := "3f1ad9d4-2b7c-4e0f-8f36-7d9c1e5b6a22"

def twoSessions : SshAccess :=
  last (sshAccessStep {}) [.create firstUuid "e" "one" none true true, .create secondUuid "e" "two" none true true]
    ⟨fun _ => none, fun _ => []⟩

theorem session_ended_with_another : (twoSessions.sessions ("ssh_" ++ secondUuid)).isSome ∧
    twoSessions.keys ("e", "validator_ssh_3f1a") = ["one", "two"] ∧
    ((sshAccessStep {} (.revoke ("ssh_" ++ firstUuid) true) twoSessions).sessions ("ssh_" ++ secondUuid)).isSome ∧
    (sshAccessStep {} (.revoke ("ssh_" ++ firstUuid) true) twoSessions).keys ("e", "validator_ssh_3f1a") = [] := by
  decide +kernel

end Users

end Basilica.Miner
