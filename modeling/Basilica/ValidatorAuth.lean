import Basilica.ValidatorComms

/-!
What the miner's service gives to validators: session tokens, and SSH sessions on its executors. Each is tied to what the first
call of the request found.
-/

namespace Basilica.Miner

open AssocMaps AtomicCalls Calls Executor FirstCalls Fleets StepRuns MinerDiscoveryService EachCall

variable {c : CommsCall} {request : CommsRequest} {α : Type}

section Calls

variable {allowed : SshSession → Prop} {miner : SshSessionOrchestrator}

def SessionCall.StoresOnly (allowed : SshSession → Prop) : SessionCall → Prop
  | storeSession session _ => allowed session
  | _ => True

theorem eachCall_retryGrpcCall (endpoint : String) (message : ProvisionAccess) (auth : Option MinerAuthentication) (attempts : ℕ) :
    EachCall (SessionCall.StoresOnly allowed) (SshSessionOrchestrator.retryGrpcCall endpoint message auth attempts) := by
  induction attempts with
  | zero => trivial
  | succ attempts ih =>
    refine (eachCall_ask trivial).catching.bind (fun attempt => ?_)
    cases attempt with
    | error e => exact ih
    | ok response => trivial

theorem eachCall_authenticate (message : ProvisionAccess) : EachCall (SessionCall.StoresOnly allowed) (miner.authenticate message) := by
  unfold SshSessionOrchestrator.authenticate
  cases miner.authService with
  | none => trivial
  | some service =>
    refine (eachCall_ask trivial).bind (fun parts => ?_)
    exact bind trivial (fun _ => trivial)

theorem eachCall_provisionAccess (endpoint hotkey publicKey : String) (duration : UInt64) (metadata : Option String) :
    EachCall (SessionCall.StoresOnly allowed) (miner.provisionValidatorAccess endpoint hotkey publicKey duration metadata) := by
  refine (eachCall_ask trivial).bind (fun _ => ?_)
  refine (eachCall_authenticate _).bind (fun auth => ?_)
  refine (eachCall_retryGrpcCall _ _ auth 3).bind (fun response => ?_)
  split_ifs <;> trivial

theorem eachCall_executorEndpoint (info : ExecutorInfo) :
    EachCall (SessionCall.StoresOnly allowed) (SshSessionOrchestrator.executorEndpoint info) := by
  unfold SshSessionOrchestrator.executorEndpoint
  cases info.grpcEndpoint <;> trivial

theorem eachCall_createSession (request : InitiateSshSessionRequest) : EachCall (SessionCall.StoresOnly (fun session =>
      session.validatorHotkey = request.validatorHotkey ∧ session.executorId = request.executorId)) (miner.createSession request) := by
  refine bind trivial (fun _ => ?_)
  refine (eachCall_ask trivial).bind (fun _ => ?_)
  refine (eachCall_ask trivial).bind (fun _ => ?_)
  refine (eachCall_ask trivial).bind (fun uuid => ?_)
  refine (eachCall_ask trivial).bind (fun info => ?_)
  split_ifs
  · trivial
  all_goals
    refine (eachCall_executorEndpoint info).bind (fun endpoint => ?_)
    refine (eachCall_provisionAccess _ _ _ _ _).bind (fun response => ?_)
    refine (eachCall_ask trivial).bind (fun now => ?_)
    exact bind (eachCall_ask ⟨rfl, rfl⟩) (fun _ => trivial)

theorem eachCall_removeValidatorKey (session : SshSession) :
    EachCall (SessionCall.StoresOnly allowed) (miner.removeValidatorKeyFromExecutor session) := by
  refine (eachCall_ask trivial).bind (fun info => ?_)
  refine (eachCall_executorEndpoint info).bind (fun endpoint => ?_)
  exact (eachCall_provisionAccess _ _ _ _ _).bind (fun _ => trivial)

theorem eachCall_closeSession (request : CloseSshSessionRequest) :
    EachCall (SessionCall.StoresOnly allowed) (miner.closeSession request) := by
  refine (eachCall_ask trivial).bind (fun found => ?_)
  cases found with
  | none => trivial
  | some session =>
    dsimp only
    split_ifs
    · trivial
    · refine (eachCall_removeValidatorKey session).bind (fun _ => ?_)
      exact (eachCall_ask trivial).bind (fun _ => trivial)

theorem eachCall_cleanupExpiredSession (sessionId : String) :
    EachCall (SessionCall.StoresOnly allowed) (miner.cleanupExpiredSession sessionId) := by
  refine (eachCall_ask trivial).bind (fun found => ?_)
  cases found with
  | none => trivial
  | some session =>
    dsimp only
    split_ifs
    · refine (eachCall_removeValidatorKey session).catching.bind (fun _ => ?_)
      exact eachCall_ask trivial
    · trivial

theorem eachCall_runCleanupTask : EachCall (SessionCall.StoresOnly allowed) miner.runCleanupTask := by
  refine (eachCall_ask trivial).bind (fun now => ?_)
  refine (eachCall_ask trivial).bind (fun sessions => ?_)
  refine bind ?_ (fun _ => eachCall_ask trivial)
  induction sessions with
  | nil => trivial
  | cons session sessions ih => exact (eachCall_cleanupExpiredSession _).catching.bind (fun _ => ih)

def CommsCall.Within (request : CommsRequest) : CommsCall → Prop
  | generateToken hotkey _ _ => ∃ r, request = .authenticateValidator r ∧ r.validatorHotkey = hotkey
  | storeSession session => ∃ r, request = .initiateExecutorSession r ∧ session.validatorHotkey = r.validatorHotkey ∧
      session.executorId = r.executorId
  | orchestrator c => c.StoresOnly (fun session => ∃ r, request = .initiateSshSession r ∧
      session.validatorHotkey = r.validatorHotkey ∧ session.executorId = r.executorId)
  | _ => True

variable {P : CommsCall → Prop}

theorem eachCall_get (h : P c) : EachCall P (get c) := (eachCall_ask h).mapError _

theorem eachCall_orchestrated {p : SessionCalls α} (h : EachCall (fun c => P (.orchestrator c)) p) (message : String → String) :
    EachCall P (orchestrated message p) :=
  (embed _ _ h).mapError _

variable (service : MinerDiscoveryService) (r : ValidatorAuthRequest)

theorem eachCall_verifyRequest (hclock : P .clock) : EachCall P (service.verifyRequest r) := by
  unfold verifyRequest
  by_cases hverify : service.verifySignatures = true
  · rw [if_pos hverify]
    refine bind trivial (fun _ => ?_)
    split_ifs
    · unfold checkTimestamp
      split_ifs
      · refine (eachCall_get hclock).bind (fun now => ?_)
        unfold checkWindow
        split_ifs <;> trivial
      · trivial
    · trivial
    · trivial
  · rw [if_neg hverify]
    trivial

theorem eachCall_authenticateValidator (hclock : P .clock) (huuid : P .newUuid)
    (htoken : ∀ sessionId permissions, P (.generateToken r.validatorHotkey sessionId permissions)) :
    EachCall P (service.authenticateValidator r) := by
  refine bind trivial (fun _ => ?_)
  refine (eachCall_verifyRequest service r hclock).bind (fun _ => ?_)
  refine bind trivial (fun _ => ?_)
  refine bind trivial (fun _ => ?_)
  refine (eachCall_get huuid).bind (fun uuid => ?_)
  refine bind (mapError (eachCall_ask (htoken _ _)) _) (fun token => ?_)
  refine (eachCall_get hclock).bind (fun now => ?_)
  refine bind ?_ (fun _ => trivial)
  unfold signResponse
  cases service.bittensorService with
  | none => trivial
  | some bittensor =>
    refine (eachCall_get huuid).bind (fun nonce => ?_)
    refine bind ?_ (fun _ => trivial)
    cases bittensor.sign _ <;> trivial

theorem eachCall_validClaims (token permission : String) :
    EachCall (CommsCall.Within request) (validClaims token permission) := by
  refine bind (mapError (eachCall_ask trivial) _) (fun claims => ?_)
  unfold checkPermission
  split_ifs <;> trivial

theorem eachCall_requestExecutorLease (r : LeaseRequest) : EachCall (CommsCall.Within request) (service.requestExecutorLease r) := by
  refine (eachCall_validClaims _ _).bind (fun claims => ?_)
  split_ifs
  · refine (eachCall_get trivial).bind (fun assigned => ?_)
    cases assigned with
    | none => trivial
    | some assigned => exact (eachCall_get trivial).bind (fun _ => trivial)
  · exact (eachCall_get trivial).bind (fun _ => trivial)

theorem eachCall_provisionValidatorAccess (r : SessionInitRequest) :
    EachCall (CommsCall.Within (.initiateExecutorSession r))
      (service.provisionValidatorAccess r.validatorHotkey r.executorId none) := by
  refine (eachCall_ask trivial).bind (fun executors => ?_)
  split_ifs
  · refine bind ?_ (fun session => ?_)
    · unfold createSession
      dsimp only
      split_ifs
      · trivial
      · refine (eachCall_ask trivial).bind (fun uuid => ?_)
        refine (eachCall_ask trivial).bind (fun now => ?_)
        refine (eachCall_ask trivial).bind (fun keyInfo => ?_)
        refine bind (eachCall_ask ⟨r, rfl, rfl, rfl⟩) (fun _ => ?_)
        exact (eachCall_ask trivial).bind (fun _ => trivial)
    · refine bind ?_ (fun _ => trivial)
      refine (eachCall_ask trivial).bind (fun executors => ?_)
      split_ifs
      · exact eachCall_ask trivial
      · trivial
  · trivial

theorem eachCall_initiateExecutorSession (r : SessionInitRequest) :
    EachCall (CommsCall.Within (.initiateExecutorSession r)) (service.initiateExecutorSession r) := by
  refine (eachCall_validClaims _ _).bind (fun claims => ?_)
  unfold provisionFor
  split_ifs
  · trivial
  · refine ((eachCall_provisionValidatorAccess service r).mapError _).bind (fun connection => ?_)
    exact (eachCall_get trivial).bind (fun _ => trivial)

theorem eachCall_withOrchestrator {f : SshSessionOrchestrator → CommsCalls α} (h : ∀ miner, EachCall P (f miner)) :
    EachCall P (service.withOrchestrator f) := by
  unfold withOrchestrator
  cases service.orchestrator with
  | none => trivial
  | some miner => exact h miner

theorem eachCall_handle (request : CommsRequest) : EachCall (CommsCall.Within request) (service.handle request) := by
  cases request with
  | authenticateValidator r => exact eachCall_authenticateValidator service r trivial trivial (fun _ _ => ⟨r, rfl, rfl⟩)
  | requestExecutorLease r => exact eachCall_requestExecutorLease service r
  | initiateExecutorSession r => exact eachCall_initiateExecutorSession service r
  | initiateSshSession r =>
    refine eachCall_withOrchestrator service (fun miner => ?_)
    refine bind (eachCall_orchestrated ?_ _) (fun _ => trivial)
    refine (eachCall_createSession r).mono (fun c hc => ?_)
    cases c with
    | storeSession session endpoint => exact ⟨r, rfl, hc⟩
    | _ => trivial
  | closeSshSession r =>
    refine eachCall_withOrchestrator service (fun miner => ?_)
    exact (eachCall_orchestrated (eachCall_closeSession r) _).bind (fun _ => trivial)
  | listSshSessions r =>
    refine eachCall_withOrchestrator service (fun miner => ?_)
    exact (eachCall_get trivial).bind (fun _ => trivial)
  | cleanupExpiredSession sessionId =>
    refine eachCall_withOrchestrator service (fun miner => ?_)
    exact (eachCall_orchestrated (eachCall_cleanupExpiredSession sessionId) _).bind (fun _ => trivial)
  | runCleanupTask =>
    refine eachCall_withOrchestrator service (fun miner => ?_)
    exact (eachCall_orchestrated eachCall_runCleanupTask _).bind (fun _ => trivial)

end Calls

section Beginnings

def CommsCall.Prepares : CommsCall → Prop
  | generateToken _ _ _ => False
  | storeSession _ => False
  | orchestrator c => c.StoresOnly (fun _ => False)
  | _ => True

theorem opens_orchestrated {β : Type} {p : SessionCalls α} (h : Opens (SessionCall.StoresOnly (fun _ => False)) p)
    (message : String → String) (f : α → CommsCalls β) (hf : ∀ a, Opens CommsCall.Prepares (f a)) :
    Opens CommsCall.Prepares (orchestrated message p >>= f) := by
  refine Opens.bind (Opens.mapError ?_ _) hf
  cases p with
  | done r => trivial
  | call c next => exact h

variable {service : MinerDiscoveryService}

theorem opens_withOrchestrator {f : SshSessionOrchestrator → CommsCalls α}
    (h : ∀ miner, Opens CommsCall.Prepares (f miner)) : Opens CommsCall.Prepares (service.withOrchestrator f) := by
  unfold withOrchestrator
  cases service.orchestrator with
  | none => trivial
  | some miner => exact h miner

section

variable (service : MinerDiscoveryService) (token permission : String) (f : ValidatorClaims → CommsCalls α)

theorem validClaims_bind : ∃ next, validClaims token permission >>= f = call (.validateToken token) next ∧
      ∀ answer, (∃ status, next (.ok answer) = done (.error status)) ∨ ∃ claims, answer = .ok claims ∧ next (.ok answer) = f claims := by
  obtain ⟨next, hnext, hok, herror⟩ := ask_mapError_bind (R := CommsCall.Answer)
    (fun _ => ⟨.unauthenticated, "Invalid or expired session token"⟩ : String → Status) (CommsCall.validateToken token)
    (checkPermission permission)
  unfold validClaims
  rw [hnext]
  refine ⟨fun r => next r >>= f, rfl, ?_⟩
  intro answer
  cases answer with
  | error e =>
    left
    beta_reduce
    rw [herror]
    exact ⟨_, rfl⟩
  | ok claims =>
    beta_reduce
    rw [hok, checkPermission]
    split_ifs
    · exact Or.inr ⟨claims, rfl, rfl⟩
    · exact Or.inl ⟨_, rfl⟩

theorem opens_validClaims : Opens CommsCall.Prepares (validClaims token permission >>= f) := by
  obtain ⟨next, hnext, -⟩ := validClaims_bind token permission f
  rw [hnext]
  trivial

theorem opens_handle (request : CommsRequest) : Opens CommsCall.Prepares (service.handle request) := by
  cases request with
  | authenticateValidator r =>
    refine Opens.bind trivial (fun _ => ?_)
    refine (opens_of_eachCall (eachCall_verifyRequest service r trivial)).bind (fun _ => ?_)
    refine Opens.bind trivial (fun _ => ?_)
    exact Opens.bind trivial (fun _ => opens_ask trivial _ _)
  | requestExecutorLease r | initiateExecutorSession r => exact opens_validClaims _ _ _
  | initiateSshSession r =>
    refine opens_withOrchestrator (fun miner => ?_)
    refine opens_orchestrated ?_ _ _ (fun _ => trivial)
    exact Opens.bind trivial (fun _ => trivial)
  | listSshSessions r => exact opens_withOrchestrator (fun miner => opens_ask trivial _ _)
  | closeSshSession r | cleanupExpiredSession sessionId | runCleanupTask =>
    refine opens_withOrchestrator (fun miner => ?_)
    refine opens_orchestrated ?_ _ _ (fun _ => trivial)
    trivial

end

theorem eachStep_served {A : CommsRequest → CommsReply × CommsState → Prop} {ok : CommsMove → CommsRun → Prop}
    (hfirst : ∀ w task reply c next, ok (.answer task reply) w → w.first task = none → service.handle task.1 = call c next →
      EachCall (fun c => c.Within task.1 ∧ A task.1 (reply, w.fleet.db)) (next (.ok (w.fleet.db.serve service reply c).1)))
    {s : CommsState} {l : List CommsMove} (hl : EachStep (watch (commsSystem service)) ok l (unwatched (commsSystem service) s)) :
    EachStep (watch (commsSystem service)) (fun m w => ∀ task reply c next, m = .answer task reply → w.fleet.rest task = call c next →
      c.Prepares ∨ ∃ seen, w.first task = some seen ∧ c.Within task.1 ∧ A task.1 seen) l (unwatched (commsSystem service) s) := by
  have hwatch := eachStep_watch (S := commsSystem service) (P := fun task seen c => c.Within task.1 ∧ A task.1 seen)
    (fun _ _ => rfl) ?_ s hl
  · apply hwatch.mono
    intro m w hm task reply c next hmove hrest
    refine (hm task reply c next hmove hrest).imp_left (fun hprogram => ?_)
    have hopens := opens_handle service task.1
    change service.handle task.1 = call c next at hprogram
    rw [hprogram] at hopens
    exact hopens
  · intro w task reply c next r db hok hnone hprogram hdesk
    cases hdesk
    exact hfirst w task reply c next hok hnone hprogram

end Beginnings

section Sessions

def Assigned (service : MinerDiscoveryService) (s : CommsState) (hotkey executorId : String) : Prop :=
  service.validatorDiscovery = true → ∃ assigned ∈ s.assignments.get? hotkey, executorId ∈ assigned

def GoodToken (service : MinerDiscoveryService) (now : Time) (s : JwtState) (token hotkey : String) : Prop :=
  ∃ claims ∈ s.issued, service.jwtService.decode token = .ok claims ∧ claims.sub = hotkey ∧ service.jwtService.ValidAt now s claims

def CommsCall.Stores (hotkey executorId : String) : CommsCall → Prop
  | storeSession session => session.validatorHotkey = hotkey ∧ session.executorId = executorId
  | orchestrator (.storeSession session _) => session.validatorHotkey = hotkey ∧ session.executorId = executorId
  | _ => False

def CommsRequest.sessionToken? : CommsRequest → Option String
  | requestExecutorLease request => some request.sessionToken
  | initiateExecutorSession request => some request.sessionToken
  | _ => none

def Unforged (service : MinerDiscoveryService) (m : CommsMove) (w : CommsRun) : Prop :=
  match m with
  | .answer task _ => ∀ token ∈ task.1.sessionToken?, ∀ claims ∈ (service.jwtService.decode token).toOption,
      claims ∈ w.fleet.db.jwt.issued
  | _ => True

def Careful (service : MinerDiscoveryService) (m : CommsMove) (w : CommsRun) : Prop :=
  match m with
  | .answer (.initiateSshSession request, _) _ => ∀ miner ∈ service.orchestrator, miner.validateSessionRequest request ≠ .ok ()
  | .answer (.initiateExecutorSession request, k) _ => (w.first (.initiateExecutorSession request, k)).isNone →
      Assigned service w.fleet.db request.validatorHotkey request.executorId
  | _ => True

def Admitted (service : MinerDiscoveryService) : CommsRequest → CommsReply × CommsState → Prop
  | .initiateExecutorSession request, (reply, s) =>
    GoodToken service reply.now s.jwt request.sessionToken request.validatorHotkey ∧
      Assigned service s request.validatorHotkey request.executorId
  | .initiateSshSession _, _ => False
  | _, _ => True

variable {service : MinerDiscoveryService} {reply : CommsReply} {w : CommsRun} {task : CommsTask}
  {next : Except Status (Except String c.Answer) → CommsCalls CommsResponse}

theorem initiateSshSession_of_invalid {request : InitiateSshSessionRequest}
    (h : ∀ miner ∈ service.orchestrator, miner.validateSessionRequest request ≠ .ok ()) :
    ∃ status, service.initiateSshSession request = done (.error status) := by
  unfold initiateSshSession withOrchestrator
  cases hminer : service.orchestrator with
  | none => exact ⟨_, rfl⟩
  | some miner =>
    have hinvalid := h miner hminer
    cases hrequest : miner.validateSessionRequest request with
    | ok _ => exact absurd hrequest hinvalid
    | error e =>
      have hcreate : miner.createSession request = done (.error e) := by
        unfold SshSessionOrchestrator.createSession
        rw [hrequest]
        rfl
      dsimp only
      rw [hcreate]
      exact ⟨_, rfl⟩

theorem eachCall_admitted (hunforged : Unforged service (.answer task reply) w) (hcareful : Careful service (.answer task reply) w)
    (hfirst : w.first task = none) (hprogram : service.handle task.1 = call c next) :
    EachCall (fun c => c.Within task.1 ∧ Admitted service task.1 (reply, w.fleet.db))
      (next (.ok (w.fleet.db.serve service reply c).1)) := by
  obtain ⟨request, k⟩ := task
  have hwithin := eachCall_handle service request
  rw [hprogram] at hwithin
  have hgoes := hwithin.2 (.ok (w.fleet.db.serve service reply c).1)
  cases request with
  | initiateSshSession request =>
    obtain ⟨status, hdone⟩ := initiateSshSession_of_invalid hcareful
    cases hdone.symm.trans hprogram
  | initiateExecutorSession request =>
    obtain ⟨next', hnext, hanswer⟩ := validClaims_bind request.sessionToken "executor.access" (service.provisionFor request)
    cases hnext.symm.trans hprogram
    rcases hanswer (service.jwtService.validateToken reply.now request.sessionToken w.fleet.db.jwt).1 with
        ⟨status, hdone⟩ | ⟨claims, hclaims, hgo⟩
    · change EachCall _ (next' (.ok (service.jwtService.validateToken reply.now request.sessionToken w.fleet.db.jwt).1))
      rw [hdone]
      trivial
    · obtain ⟨hdecode, hvalid⟩ := validateToken_ok hclaims
      change EachCall _ (next' (.ok (service.jwtService.validateToken reply.now request.sessionToken w.fleet.db.jwt).1))
      by_cases hsub : claims.sub = request.validatorHotkey
      · refine hgoes.mono (fun c hc => ⟨hc, ?_, ?_⟩)
        · refine ⟨claims, ?_, hdecode, hsub, hvalid⟩
          exact hunforged _ rfl claims (by rw [hdecode]; rfl)
        · exact hcareful (by rw [hfirst]; rfl)
      · rw [hgo, provisionFor, if_pos hsub]
        trivial
  | _ => exact hgoes.mono (fun c hc => ⟨hc, trivial⟩)

variable {hotkey executorId : String}

theorem not_stores_of_prepares (h : c.Prepares) : ¬ c.Stores hotkey executorId := by
  intro hstores
  cases c with
  | storeSession session => exact h
  | orchestrator c =>
    cases c with
    | storeSession session endpoint => exact h
    | _ => exact hstores
  | _ => exact hstores

theorem stores_of_within (h : c.Within request) (hstores : c.Stores hotkey executorId) :
    (∃ r, request = .initiateExecutorSession r ∧ r.validatorHotkey = hotkey ∧ r.executorId = executorId) ∨
      ∃ r, request = .initiateSshSession r := by
  cases c with
  | storeSession session =>
    obtain ⟨r, hrequest, hhotkey, hexecutor⟩ := h
    exact Or.inl ⟨r, hrequest, hhotkey.symm.trans hstores.1, hexecutor.symm.trans hstores.2⟩
  | orchestrator c =>
    cases c with
    | storeSession session endpoint =>
      obtain ⟨r, hrequest, -⟩ := h
      exact Or.inr ⟨r, hrequest⟩
    | _ => exact hstores.elim
  | _ => exact hstores.elim

def Creates (m : CommsMove) (w : CommsRun) (task : CommsTask) (hotkey executorId : String) : Prop :=
  ∃ reply c next, m = .answer task reply ∧ w.fleet.rest task = call c next ∧ c.Stores hotkey executorId

theorem sessions_authorized (service : MinerDiscoveryService) (s : CommsState) (l : List CommsMove)
    (hunforged : EachStep (watch (commsSystem service)) (Unforged service) l (unwatched (commsSystem service) s))
    (hcareful : EachStep (watch (commsSystem service)) (Careful service) l (unwatched (commsSystem service) s)) :
    EachStep (watch (commsSystem service)) (fun m w => ∀ task hotkey executorId, Creates m w task hotkey executorId →
        ∃ request reply db, task.1 = .initiateExecutorSession request ∧ request.validatorHotkey = hotkey ∧
          request.executorId = executorId ∧ w.first task = some (reply, db) ∧
          GoodToken service reply.now db.jwt request.sessionToken hotkey ∧ Assigned service db hotkey executorId)
      l (unwatched (commsSystem service) s) := by
  have hserved := eachStep_served (A := Admitted service)
    (fun w task reply c next hok hnone hprogram => eachCall_admitted hok.1 hok.2 hnone hprogram) (hunforged.and hcareful)
  apply hserved.mono
  rintro m w hm task hotkey executorId ⟨reply, c, next, hmove, hrest, hstores⟩
  rcases hm task reply c next hmove hrest with hprepares | ⟨⟨first, db⟩, hseen, hwithin, hadmitted⟩
  · exact absurd hstores (not_stores_of_prepares hprepares)
  · rcases stores_of_within hwithin hstores with ⟨request, hrequest, rfl, rfl⟩ | ⟨request, hrequest⟩
    · rw [hrequest] at hadmitted
      exact ⟨request, first, db, hrequest, rfl, rfl, hseen, hadmitted⟩
    · rw [hrequest] at hadmitted
      exact hadmitted.elim

section Instances

variable (service : MinerDiscoveryService)

instance (s : CommsState) (hotkey executorId : String) : Decidable (Assigned service s hotkey executorId) :=
  inferInstanceAs (Decidable (_ → ∃ assigned ∈ s.assignments.get? hotkey, executorId ∈ assigned))

instance (m : CommsMove) (w : CommsRun) : Decidable (Unforged service m w) :=
  match m with
  | .answer task _ => inferInstanceAs (Decidable (∀ token ∈ task.1.sessionToken?, ∀ claims ∈ (service.jwtService.decode token).toOption,
      claims ∈ w.fleet.db.jwt.issued))
  | .restart _ => isTrue trivial
  | .world _ => isTrue trivial

instance (m : CommsMove) (w : CommsRun) : Decidable (Careful service m w) :=
  match m with
  | .answer (.initiateSshSession request, _) _ =>
    inferInstanceAs (Decidable (∀ miner ∈ service.orchestrator, miner.validateSessionRequest request ≠ .ok ()))
  | .answer (.initiateExecutorSession request, k) _ =>
    inferInstanceAs (Decidable ((w.first (.initiateExecutorSession request, k)).isNone →
      Assigned service w.fleet.db request.validatorHotkey request.executorId))
  | .answer (.authenticateValidator _, _) _ => isTrue trivial
  | .answer (.requestExecutorLease _, _) _ => isTrue trivial
  | .answer (.closeSshSession _, _) _ => isTrue trivial
  | .answer (.listSshSessions _, _) _ => isTrue trivial
  | .answer (.cleanupExpiredSession _, _) _ => isTrue trivial
  | .answer (.runCleanupTask, _) _ => isTrue trivial
  | .restart _ => isTrue trivial
  | .world _ => isTrue trivial

end Instances

def plainComms : MinerDiscoveryService where
  jwtService :=
    { issuer := "basilica-miner"
      audience := "basilica-miner"
      tokenExpiration := hour
      encode := fun claims => .ok claims.jti
      decode := fun token =>
        if token = "u" then
          .ok ⟨"v", "basilica-miner", "basilica-miner", 3600, 0, 0, "u", "session_u", validatorPermissions⟩
        else .error "InvalidToken"
      checkClaims := fun now claims =>
        if claims.nbf ≤ unixSeconds now ∧ unixSeconds now ≤ claims.exp ∧ claims.iss = "basilica-miner" ∧ claims.aud = "basilica-miner"
        then .ok () else .error "InvalidToken"
      claimsHold := by
        intro now claims h
        split_ifs at h with hclaims
        exact ⟨hclaims.1, hclaims.2.1, hclaims.2.2.1, hclaims.2.2.2⟩ }
  verifySignatures := true
  allowedValidators := []
  bittensorService := none
  newHotkey _ := .ok ()
  verifySignature hotkey signature data := signature = hotkey ++ ">" ++ data
  validatorDiscovery := true
  sshConfig := {}
  orchestrator := some plainMiner

def quietComms : CommsState where
  jwt := ⟨AssocMap.empty, AssocMap.empty, []⟩
  ssh := oneExecutor
  managed := AssocMap.empty
  assignments := AssocMap.empty
  available := [⟨"e", "10.0.0.1:50051"⟩]

def replyAt (now : Time) (uuid : String) : CommsReply := ⟨now, uuid, replyWithNonce "a", .ok ⟨"k", "ssh-ed25519 key"⟩, .ok ()⟩

def legacyRequest : ValidatorAuthRequest := ⟨"v", "v>n:m", "n", none, "m"⟩

def authenticating (k : ℕ) (reply : CommsReply) : List CommsMove :=
  List.replicate 3 (.answer (.authenticateValidator legacyRequest, k) reply)

def takingExecutor : List CommsMove :=
  List.replicate 10 (.answer (.initiateExecutorSession ⟨"v", "u", "e", "rental"⟩, 0) (replyAt 0 "x"))

def takingSsh : List CommsMove :=
  List.replicate 9 (.answer (.initiateSshSession ⟨"v", "e", "ssh-ed25519 key", 60, false, ""⟩, 0) (replyAt 0 "x"))

def assignE : CommsMove := .world (.assign (AssocMap.empty.insert "v" ["e"]))

def afterMoves (l : List CommsMove) : CommsRun := last (watch (commsSystem plainComms)) l (unwatched (commsSystem plainComms) quietComms)

def CommsRun.sshSessions (w : CommsRun) : List (String × String) :=
  w.fleet.db.ssh.created.map (fun q => (q.1.validatorHotkey, q.1.executorId))

def CommsRun.executorSessions (w : CommsRun) : List (String × String) :=
  w.fleet.db.managed.values.map (fun session => (session.validatorHotkey, session.executorId))

theorem sessions_without_authorization :
    ((afterMoves takingSsh).sshSessions = [("v", "e")] ∧ (afterMoves takingSsh).fleet.db.jwt.issued = []) ∧
      ((afterMoves (authenticating 0 (replyAt 0 "u") ++ takingExecutor)).executorSessions = [("v", "e")] ∧
        (afterMoves (authenticating 0 (replyAt 0 "u") ++ takingExecutor)).fleet.db.assignments.entries = []) := by
  decide +kernel

theorem assigned_session_authorized :
    (afterMoves (authenticating 0 (replyAt 0 "u") ++ assignE :: takingExecutor)).executorSessions = [("v", "e")] ∧
      EachStep (watch (commsSystem plainComms)) (fun m w => ∀ task hotkey executorId, Creates m w task hotkey executorId →
          ∃ request reply db, task.1 = .initiateExecutorSession request ∧ request.validatorHotkey = hotkey ∧
            request.executorId = executorId ∧ w.first task = some (reply, db) ∧
            GoodToken plainComms reply.now db.jwt request.sessionToken hotkey ∧ Assigned plainComms db hotkey executorId)
        (authenticating 0 (replyAt 0 "u") ++ assignE :: takingExecutor) (unwatched (commsSystem plainComms) quietComms) :=
  ⟨by decide +kernel, sessions_authorized plainComms quietComms _ (by decide +kernel) (by decide +kernel)⟩

end Sessions

section Tokens

def CommsCall.Issues (hotkey : String) : CommsCall → Prop
  | generateToken h _ _ => h = hotkey
  | _ => False

def Issued (m : CommsMove) (w : CommsRun) (task : CommsTask) (hotkey : String) : Prop :=
  ∃ reply c next, m = .answer task reply ∧ w.fleet.rest task = call c next ∧ c.Issues hotkey

variable {service : MinerDiscoveryService} {signed : (hotkey data signature : String) → Prop}

def AuthSigned (signed : (hotkey data signature : String) → Prop) (request : ValidatorAuthRequest) (now : Time) : Prop :=
  (signed request.validatorHotkey request.canonicalPayload request.signature ∧
      (0 < request.timestampSecs → request.timeDiff now ≤ 300)) ∨
    signed request.validatorHotkey request.legacyPayload request.signature

theorem checkTimestamp_bind {request : ValidatorAuthRequest} (h : 0 < request.timestampSecs) (f : Unit → CommsCalls α) :
    ∃ next, checkTimestamp request >>= f = call .clock next ∧
      ∀ now, next (.ok (.ok now)) = checkWindow request now >>= f := by
  obtain ⟨next, hnext, hok, -⟩ := ask_mapError_bind (R := CommsCall.Answer) (fun e => ⟨.internal, e⟩ : String → Status) CommsCall.clock
    (checkWindow request)
  unfold checkTimestamp get
  rw [if_pos h, hnext]
  refine ⟨fun r => next r >>= f, rfl, fun now => ?_⟩
  beta_reduce
  rw [hok]

theorem authenticateValidator_cases (hverify : service.verifySignatures = true)
    (hforge : ∀ hotkey data signature, service.verifySignature hotkey signature data = true → signed hotkey data signature)
    (request : ValidatorAuthRequest) :
    (∃ status, service.authenticateValidator request = done (.error status)) ∨ (∀ now, AuthSigned signed request now) ∨
      ∃ next, service.authenticateValidator request = call .clock next ∧
        ∀ now, (∃ status, next (.ok (.ok now)) = done (.error status)) ∨ AuthSigned signed request now := by
  unfold authenticateValidator verifyRequest
  rw [if_pos hverify]
  cases service.checkTarget request with
  | error status => exact Or.inl ⟨status, rfl⟩
  | ok _ =>
    cases service.parseHotkey request.validatorHotkey with
    | error status => exact Or.inl ⟨status, rfl⟩
    | ok _ =>
      by_cases hcanonical : service.verifySignature request.validatorHotkey request.signature request.canonicalPayload = true
      · rw [if_pos hcanonical]
        have hsigned := hforge _ _ _ hcanonical
        by_cases htimestamp : 0 < request.timestampSecs
        · obtain ⟨next, hnext, hwindow⟩ := checkTimestamp_bind htimestamp (fun _ => do
            ofExcept (service.checkAllowed request)
            service.issueToken request)
          refine Or.inr (Or.inr ⟨next, hnext, fun now => ?_⟩)
          rw [hwindow, checkWindow]
          split_ifs with hlate
          · exact Or.inl ⟨_, rfl⟩
          · exact Or.inr (Or.inl ⟨hsigned, fun _ => not_lt.mp hlate⟩)
        · exact Or.inr (Or.inl (fun now => Or.inl ⟨hsigned, fun h => absurd h htimestamp⟩))
      · rw [if_neg hcanonical]
        by_cases hlegacy : service.verifySignature request.validatorHotkey request.signature request.legacyPayload = true
        · exact Or.inr (Or.inl (fun now => Or.inr (hforge _ _ _ hlegacy)))
        · rw [if_neg hlegacy]
          exact Or.inl ⟨_, rfl⟩

def AuthAdmitted (signed : (hotkey data signature : String) → Prop) : CommsRequest → CommsReply × CommsState → Prop
  | .authenticateValidator request, (reply, _) => AuthSigned signed request reply.now
  | _, _ => True

theorem eachCall_authAdmitted (hverify : service.verifySignatures = true)
    (hforge : ∀ hotkey data signature, service.verifySignature hotkey signature data = true → signed hotkey data signature)
    {next : Except Status (Except String c.Answer) → CommsCalls CommsResponse}
    (hprogram : service.handle request = call c next) (reply : CommsReply) (s : CommsState) :
    EachCall (fun c => c.Within request ∧ AuthAdmitted signed request (reply, s)) (next (.ok (s.serve service reply c).1)) := by
  have hwithin := eachCall_handle service request
  rw [hprogram] at hwithin
  have hgoes := hwithin.2 (.ok (s.serve service reply c).1)
  cases request with
  | authenticateValidator request =>
    rcases authenticateValidator_cases hverify hforge request with ⟨status, hdone⟩ | hsigned | ⟨next', hnext, hwindow⟩
    · cases hdone.symm.trans hprogram
    · exact hgoes.mono (fun c hc => ⟨hc, hsigned reply.now⟩)
    · cases hnext.symm.trans hprogram
      rcases hwindow reply.now with ⟨status, hdone⟩ | hsigned
      · change EachCall _ (next' (.ok (.ok reply.now)))
        rw [hdone]
        trivial
      · exact hgoes.mono (fun c hc => ⟨hc, hsigned⟩)
  | _ => exact hgoes.mono (fun c hc => ⟨hc, trivial⟩)

variable {hotkey : String}

theorem not_issues_of_prepares (h : c.Prepares) : ¬ c.Issues hotkey := by
  intro hissues
  cases c with
  | generateToken _ _ _ => exact h
  | _ => exact hissues

theorem issues_of_within (h : c.Within request) (hissues : c.Issues hotkey) :
    ∃ r, request = .authenticateValidator r ∧ r.validatorHotkey = hotkey := by
  cases c with
  | generateToken token sessionId permissions =>
    obtain ⟨r, hrequest, hhotkey⟩ := h
    exact ⟨r, hrequest, hhotkey.trans hissues⟩
  | _ => exact hissues.elim

theorem tokens_issued_signed (service : MinerDiscoveryService) (hverify : service.verifySignatures = true)
    (signed : (hotkey data signature : String) → Prop)
    (hforge : ∀ hotkey data signature, service.verifySignature hotkey signature data = true → signed hotkey data signature)
    (s : CommsState) (l : List CommsMove) :
    EachStep (watch (commsSystem service)) (fun m w => ∀ task hotkey, Issued m w task hotkey →
        ∃ request reply db, task.1 = .authenticateValidator request ∧ request.validatorHotkey = hotkey ∧
          w.first task = some (reply, db) ∧ AuthSigned signed request reply.now)
      l (unwatched (commsSystem service) s) := by
  have hserved := eachStep_served (A := AuthAdmitted signed)
    (fun w _ reply _ _ _ _ hprogram => eachCall_authAdmitted hverify hforge hprogram reply w.fleet.db)
    (eachStep_of_forall (l := l) (fun _ _ => trivial) (unwatched (commsSystem service) s))
  apply hserved.mono
  rintro m w hm task hotkey ⟨reply, c, next, hmove, hrest, hissues⟩
  rcases hm task reply c next hmove hrest with hprepares | ⟨⟨first, db⟩, hseen, hwithin, hadmitted⟩
  · exact absurd hissues (not_issues_of_prepares hprepares)
  · obtain ⟨request, hrequest, hhotkey⟩ := issues_of_within hwithin hissues
    rw [hrequest] at hadmitted
    exact ⟨request, first, db, hrequest, hhotkey, hseen, hadmitted⟩

def untimedRequest : ValidatorAuthRequest := ⟨"v", "v>BASILICA_AUTH_V1:n:m:0", "n", none, "m"⟩

def authenticatingUntimed (k : ℕ) (reply : CommsReply) : List CommsMove :=
  List.replicate 3 (.answer (.authenticateValidator untimedRequest, k) reply)

theorem legacy_request_accepted_twice : legacyRequest.timestamp = none ∧
      (let w := afterMoves (authenticating 0 (replyAt 0 "u") ++ authenticating 1 (replyAt (10 ^ 6 * 10 ^ 9) "x"))
      (w.fleet.rest (.authenticateValidator legacyRequest, 0)).result? = some (.ok (.authenticated ⟨true, "u", hour, "", "", ""⟩)) ∧
        (w.fleet.rest (.authenticateValidator legacyRequest, 1)).result? =
          some (.ok (.authenticated ⟨true, "x", 10 ^ 6 * 10 ^ 9 + hour, "", "", ""⟩)) ∧
        w.fleet.db.jwt.issued.map (fun claims => (claims.sub, claims.iat)) = [("v", 10 ^ 6), ("v", 0)]) ∧
      (afterMoves (authenticatingUntimed 0 (replyAt 0 "u") ++ authenticatingUntimed 1 (replyAt (10 ^ 6 * 10 ^ 9) "x"))).fleet.db.jwt.issued.map
        (fun claims => (claims.sub, claims.iat)) = [("v", 10 ^ 6), ("v", 0)] := by
  decide +kernel

def canonicalRequest : ValidatorAuthRequest := ⟨"v", "v>BASILICA_AUTH_V1:n:m:100", "n", some ⟨some 100⟩, "m"⟩

theorem canonical_request_signed :
    ((afterMoves (List.replicate 4 (.answer (.authenticateValidator canonicalRequest, 0) (replyAt (200 * 10 ^ 9) "u")))).fleet.db.jwt.issued.map
        (fun claims => (claims.sub, claims.iat)) = [("v", 200)]) ∧
      EachStep (watch (commsSystem plainComms)) (fun m w => ∀ task hotkey, Issued m w task hotkey →
          ∃ request reply db, task.1 = .authenticateValidator request ∧ request.validatorHotkey = hotkey ∧
            w.first task = some (reply, db) ∧ AuthSigned (fun hotkey data signature => signature = hotkey ++ ">" ++ data) request reply.now)
        (List.replicate 4 (.answer (.authenticateValidator canonicalRequest, 0) (replyAt (200 * 10 ^ 9) "u")))
        (unwatched (commsSystem plainComms) quietComms) :=
  ⟨by decide +kernel, tokens_issued_signed plainComms rfl _ (fun _ _ _ h => of_decide_eq_true h) quietComms _⟩

def answers (service : MinerDiscoveryService) (reply : CommsReply) :
    Server CommsCall (fun c => Except String c.Answer) Status CommsState :=
  fun c s => (.ok (s.serve service reply c).1, (s.serve service reply c).2)

end Tokens

end Basilica.Miner
