import Basilica.ExecutorHost
import Basilica.Tallies

/-!
Access to an executor by challenge and signature. A validator asks for a challenge, signs it, and asks again with the
signature, the public key and the name of the challenge; the access is recorded for the hotkey of the second request.
-/

namespace Basilica.Executor

open AssocMaps StepRuns Words List Option AssocMap

structure SignatureChallenge where
  challengeId : String
  challengeData : Bytes
  createdAt : Time
  expiresAt : Time
  validatorHotkey : String
deriving DecidableEq

def SignatureChallenge.new (now : Time) (random : Bytes) (validatorHotkey : String) (timeout : Time) : SignatureChallenge where
  challengeId := s!"challenge_{validatorHotkey}_{now.toNat / 10 ^ 6}"
  challengeData := random
  createdAt := now
  expiresAt := now + timeout
  validatorHotkey := validatorHotkey

def SignatureChallenge.isExpired (challenge : SignatureChallenge) (now : Time) : Bool := challenge.expiresAt ≤ now

structure HotkeyVerificationConfig where
  enabled : Bool
  challengeTimeoutSeconds : ℕ
  maxSignatureAttempts : ℕ

def HotkeyVerificationConfig.default : HotkeyVerificationConfig := ⟨true, 300, 3⟩

structure VerificationAttempt where
  attempts : ℕ
  lastAttempt : Time

inductive ValidatorRole
  | basic
  | standard
  | admin
  | owner
deriving DecidableEq

def ValidatorRole.permissions : ValidatorRole → List String
  | .basic => ["ssh_access", "system_info"]
  | .standard => ["ssh_access", "system_info", "container_list"]
  | .admin => ["ssh_access", "system_info", "container_list", "container_exec"]
  | .owner => ["all"]

def ValidatorRole.hasPermission (permission : String) (role : ValidatorRole) : Bool :=
  role = .owner || permission ∈ role.permissions

structure ValidatorAccess where
  validatorHotkey : String
  publicKey : String
  grantedAt : Time
  expiresAt : Time
  role : ValidatorRole
  hotkeyVerified : Bool

def ValidatorAccess.new (now : Time) (hotkey publicKey : String) : ValidatorAccess where
  validatorHotkey := hotkey
  publicKey := publicKey
  grantedAt := now
  expiresAt := now + 365 * 24 * hour
  role := .basic
  hotkeyVerified := false

def ValidatorAccess.newWithRole (now : Time) (hotkey publicKey : String) (role : ValidatorRole) (hotkeyVerified : Bool) :
    ValidatorAccess :=
  { ValidatorAccess.new now hotkey publicKey with role := role, hotkeyVerified := hotkeyVerified }

def ValidatorAccess.isExpired (access : ValidatorAccess) (now : Time) : Bool := access.expiresAt ≤ now

structure ValidatorAccessRequest where
  hotkey : String
  sshPublicKey : Option String
  signature : Option String
  publicKey : Option String
  challengeId : Option String

structure ValidatorAccessResponse where
  success : Bool
  message : String
  sshPublicKey : Option String
  sshUsername : Option String
  accessToken : Option String
  expiresAt : ℕ

structure Client (Ip : Type) where
  remoteAddr : Option Ip
  forwardedFor : Option String
  realIp : Option String

structure VerifiedGrant where
  hotkey : String
  challenge : Option SignatureChallenge
  publicKey : Bytes
  signature : Bytes
  grantedAt : Time
deriving DecidableEq

/-- `issued` and `verified` list all challenges and all grants with verification so far; no code reads them. -/
structure AccessState (Limiter : Type) where
  files : Files
  limiter : Limiter
  activeSessions : AssocMap String ValidatorAccess
  activeChallenges : AssocMap String SignatureChallenge
  verificationAttempts : AssocMap String VerificationAttempt
  issued : List SignatureChallenge
  verified : List VerifiedGrant

def AccessState.start {Limiter : Type} (files : Files) (limiter : Limiter) (sessions : AssocMap String ValidatorAccess) :
    AccessState Limiter :=
  ⟨files, limiter, sessions, AssocMap.empty, AssocMap.empty, [], []⟩

structure AccessService (Ip Limiter : Type) extends ExecutorServer where
  ipWhitelist : List String
  hotkeyVerification : HotkeyVerificationConfig
  roleAssignments : List (String × ValidatorRole)
  parseIp : String → Option Ip
  showIp : Ip → String
  checkApiRequest : Time → String → Limiter → Bool × Limiter
  cleanupOldEntries : Time → Limiter → Limiter
  hexDecode : String → Option Bytes
  verifyP256 : (publicKey message signature : Bytes) → Bool

open AccessService

namespace AccessService

variable {Ip Limiter : Type} (service : AccessService Ip Limiter)

def hasExceededAttempts (hotkey : String) (s : AccessState Limiter) : Bool :=
  (s.verificationAttempts.get? hotkey).any (fun attempt => service.hotkeyVerification.maxSignatureAttempts ≤ attempt.attempts)

def generateChallenge (now : Time) (random : Bytes) (hotkey : String) (s : AccessState Limiter) :
    Except String SignatureChallenge × AccessState Limiter :=
  if service.hotkeyVerification.enabled = false then (.error "Hotkey verification is disabled", s)
  else if service.hasExceededAttempts hotkey s then
    (.error s!"Maximum signature attempts exceeded for validator: {hotkey}", s)
  else
    let timeout : Time := service.hotkeyVerification.challengeTimeoutSeconds * 10 ^ 9
    let challenge := SignatureChallenge.new now random hotkey timeout
    (.ok challenge, { s with
      activeChallenges := s.activeChallenges.set challenge.challengeId challenge
      issued := challenge :: s.issued })

def trackVerificationAttempt (now : Time) (hotkey : String) (s : AccessState Limiter) : AccessState Limiter :=
  { s with verificationAttempts := s.verificationAttempts.upsert hotkey ⟨1, now⟩ (fun a => ⟨a.attempts + 1, now⟩) }

/-- A key that cannot be read and a signature that does not fit are both no. -/
def verifyP256Signature (message signature publicKey : Bytes) : Bool :=
  publicKey.length = 33 && service.verifyP256 publicKey message signature

/-- Neither the hotkey of the request nor the one the challenge was made for is looked at. -/
def verifyHotkeySignature (now : Time) (challengeId : String) (signature publicKey : Bytes) (s : AccessState Limiter) :
    Bool × AccessState Limiter :=
  if service.hotkeyVerification.enabled = false then (true, s)
  else match s.activeChallenges.get? challengeId with
    | none => (false, s)
    | some challenge =>
      if challenge.isExpired now then (false, { s with activeChallenges := s.activeChallenges.erase challengeId })
      else
        let s := trackVerificationAttempt now challenge.validatorHotkey s
        if service.verifyP256Signature challenge.challengeData signature publicKey then
          (true, { s with
            activeChallenges := s.activeChallenges.erase challengeId
            verificationAttempts := s.verificationAttempts.erase challenge.validatorHotkey })
        else (false, s)

def isIpAllowed [DecidableEq Ip] (clientIp : Option Ip) : Bool :=
  service.ipWhitelist.isEmpty || clientIp.any (fun ip => service.ipWhitelist.any (fun allowed =>
    match service.parseIp allowed with
    | some allowedIp => ip = allowedIp
    | none => service.showIp ip = allowed))

def hasAccess (now : Time) (hotkey : String) (s : AccessState Limiter) : Bool :=
  (s.activeSessions.get? hotkey).any (fun access => !access.isExpired now)

def authenticateRequest [DecidableEq Ip] (now : Time) (hotkey : String) (clientIp : Option Ip) (s : AccessState Limiter) :
    Bool × AccessState Limiter :=
  let (allowed, limiter) := service.checkApiRequest now hotkey s.limiter
  (allowed && service.isIpAllowed clientIp && hasAccess now hotkey s, { s with limiter := limiter })

/-- The expiry of the record is not looked at. -/
def authorizeOperation (hotkey operation : String) (s : AccessState Limiter) : Bool :=
  match s.activeSessions.get? hotkey with
  | none => false
  | some access =>
    let permitted := if operation ∈ ["ssh_access", "system_info", "container_list", "container_exec"] then
        access.role.hasPermission operation
      else if operation ∈ ["config_change", "service_control"] then access.role = .owner
      else (((service.roleAssignments.find? (fun assignment => assignment.1 = hotkey)).map Prod.snd).getD
        access.role).hasPermission operation
    permitted && !(service.hotkeyVerification.enabled &&
      operation ∈ ["container_exec", "config_change", "service_control"] && !access.hotkeyVerified)

def recordAccess (access : ValidatorAccess) (s : AccessState Limiter) : AccessState Limiter :=
  { s with activeSessions := s.activeSessions.set access.validatorHotkey access }

def revokeAccess (hotkey : String) (s : AccessState Limiter) : AccessState Limiter :=
  { s with activeSessions := s.activeSessions.erase hotkey }

/-- The record written at the end is one without verification. -/
def grantSshAccess (reply : HostReply) (hotkey publicKey : String) (s : AccessState Limiter) :
    Except String Unit × AccessState Limiter :=
  let (result, files) := service.toExecutorServer.grantSshAccess reply hotkey publicKey s.files
  match result with
  | .error e => (.error e, { s with files := files })
  | .ok () => (.ok (), recordAccess (.new reply.now hotkey publicKey) { s with files := files })

def revokeSshAccess (reply : HostReply) (hotkey : String) (s : AccessState Limiter) : Except String Unit × AccessState Limiter :=
  let (result, files) := service.toExecutorServer.revokeSshAccess reply hotkey s.files
  match result with
  | .error e => (.error e, { s with files := files })
  | .ok () => (.ok (), revokeAccess hotkey { s with files := files })

def cleanupExpiredData (now : Time) (s : AccessState Limiter) : AccessState Limiter :=
  { s with
    activeSessions := s.activeSessions.filterWith (fun _ access => !access.isExpired now)
    activeChallenges := s.activeChallenges.filterWith (fun _ challenge => !challenge.isExpired now)
    verificationAttempts := s.verificationAttempts.filterWith (fun _ attempt => now - hour < attempt.lastAttempt)
    limiter := service.cleanupOldEntries now s.limiter }

def extractClientIp (client : Client Ip) : Option Ip :=
  let first (text : String) : String := String.ofList (trim (text.toList.takeWhile (· ≠ ',')))
  client.remoteAddr <|> client.forwardedFor.bind (fun text => service.parseIp (first text)) <|>
    client.realIp.bind service.parseIp

def determineValidatorRole (hotkey : String) : ValidatorRole :=
  ((service.roleAssignments.find? (fun assignment => assignment.1 = hotkey)).map Prod.snd).getD .basic

/-- `grant` is the answer of the request, where access is granted as verified. -/
def grantRecorded (reply : HostReply) (message : String) (grant : Option VerifiedGrant) (request : ValidatorAccessRequest)
    (s : AccessState Limiter) : Except Status ValidatorAccessResponse × AccessState Limiter :=
  match request.sshPublicKey with
  | none => (.error ⟨.invalidArgument, "SSH public key required"⟩, s)
  | some sshPublicKey =>
    let role := service.determineValidatorRole request.hotkey
    let s := recordAccess (.newWithRole reply.now request.hotkey sshPublicKey role grant.isSome)
      { s with verified := grant.toList ++ s.verified }
    match service.grantSshAccess reply request.hotkey sshPublicKey s with
    | (.error _, s) => (.error ⟨.internal, "Failed to grant SSH access"⟩, s)
    | (.ok (), s) => (.ok
        { success := true
          message := message
          sshPublicKey := some sshPublicKey
          sshUsername := some (service.validatorUsername request.hotkey)
          accessToken := none
          expiresAt := 0 }, s)

def answerChallenge (reply : HostReply) (request : ValidatorAccessRequest) (signatureHex publicKeyHex : String)
    (s : AccessState Limiter) : Except Status ValidatorAccessResponse × AccessState Limiter :=
  match service.hexDecode signatureHex, service.hexDecode publicKeyHex, request.challengeId with
  | none, _, _ => (.error ⟨.invalidArgument, "Invalid signature format"⟩, s)
  | some _, none, _ => (.error ⟨.invalidArgument, "Invalid public key format"⟩, s)
  | some _, some _, none => (.error ⟨.invalidArgument, "Challenge ID required for signature verification"⟩, s)
  | some signature, some publicKey, some challengeId =>
    match service.verifyHotkeySignature reply.now challengeId signature publicKey s with
    | (false, s') => (.error ⟨.permissionDenied, "Invalid signature"⟩, s')
    | (true, s') => service.grantRecorded reply "Access granted with hotkey verification"
        (some ⟨request.hotkey, s.activeChallenges.get? challengeId, publicKey, signature, reply.now⟩) request s'

def offerChallenge (reply : HostReply) (random : Bytes) (request : ValidatorAccessRequest) (s : AccessState Limiter) :
    Except Status ValidatorAccessResponse × AccessState Limiter :=
  match service.generateChallenge reply.now random request.hotkey s with
  | (.error _, s) => (.error ⟨.internal, "Failed to generate challenge"⟩, s)
  | (.ok challenge, s) => (.ok
      { success := false
        message := s!"Hotkey verification required. Challenge: {challenge.challengeId}"
        sshPublicKey := none
        sshUsername := none
        accessToken := some (hexEncode challenge.challengeData)
        expiresAt := challenge.expiresAt.toNat / 10 ^ 9 }, s)

def handleAccessRequest [DecidableEq Ip] (reply : HostReply) (random : Bytes) (client : Client Ip)
    (request : ValidatorAccessRequest) (s : AccessState Limiter) : Except Status ValidatorAccessResponse × AccessState Limiter :=
  if service.validatorEnabled = false then (.error ⟨.unavailable, "Validation service not enabled"⟩, s)
  else match service.authenticateRequest reply.now request.hotkey (service.extractClientIp client) s with
    | (false, s) => (.error ⟨.permissionDenied, "Authentication failed"⟩, s)
    | (true, s) =>
      if service.hotkeyVerification.enabled then
        match request.signature, request.publicKey with
        | some signatureHex, some publicKeyHex => service.answerChallenge reply request signatureHex publicKeyHex s
        | _, _ => service.offerChallenge reply random request s
      else service.grantRecorded reply "SSH access granted successfully" none request s

end AccessService

variable {challenge : SignatureChallenge}

section Frames

variable {Ip Limiter : Type} {service : AccessService Ip Limiter}

structure Quiet (s s' : AccessState Limiter) : Prop where
  issued : s'.issued = s.issued
  verified : s'.verified = s.verified
  challenges : ∀ id challenge, s'.activeChallenges.get? id = some challenge → s.activeChallenges.get? id = some challenge

theorem Quiet.refl (s : AccessState Limiter) : Quiet s s := ⟨rfl, rfl, fun _ _ h => h⟩

variable {s s' s'' : AccessState Limiter}

theorem Quiet.trans (h : Quiet s s') (h' : Quiet s' s'') : Quiet s s'' :=
  ⟨h'.issued.trans h.issued, h'.verified.trans h.verified, fun id c hc => h.challenges id c (h'.challenges id c hc)⟩

def Recorded (s : AccessState Limiter) : Prop := ∀ id challenge, s.activeChallenges.get? id = some challenge → challenge ∈ s.issued

structure Extends (s s' : AccessState Limiter) : Prop where
  issued : s.issued ⊆ s'.issued
  recorded : Recorded s → Recorded s'

theorem Quiet.extends (h : Quiet s s') : Extends s s' := by
  refine ⟨h.issued.symm ▸ List.Subset.refl _, fun hs id challenge hactive => ?_⟩
  rw [h.issued]
  exact hs id challenge (h.challenges id challenge hactive)

theorem Extends.trans (h : Extends s s') (h' : Extends s' s'') : Extends s s'' :=
  ⟨List.Subset.trans h.issued h'.issued, h'.recorded ∘ h.recorded⟩

theorem get?_of_erase {challenges : AssocMap String SignatureChallenge} {erased id : String}
    (h : (challenges.erase erased).get? id = some challenge) : challenges.get? id = some challenge := by
  rw [get?_erase] at h
  split_ifs at h
  exact h

theorem verifyHotkeySignature_iff (henabled : service.hotkeyVerification.enabled = true) (now : Time) (id : String)
    (signature publicKey : Bytes) (s : AccessState Limiter) :
    (service.verifyHotkeySignature now id signature publicKey s).1 = true ↔
      ∃ challenge, s.activeChallenges.get? id = some challenge ∧ now < challenge.expiresAt ∧
        service.verifyP256Signature challenge.challengeData signature publicKey = true := by
  unfold verifyHotkeySignature
  rw [if_neg (by simp [henabled])]
  cases hchallenge : s.activeChallenges.get? id with
  | none => simp
  | some challenge =>
    simp only [some.injEq, exists_eq_left']
    by_cases hlive : now < challenge.expiresAt
    · have hexpired : challenge.isExpired now = false := decide_eq_false (not_le.mpr hlive)
      cases hvalid : service.verifyP256Signature challenge.challengeData signature publicKey <;> simp [hlive, hexpired]
    · have hexpired : challenge.isExpired now = true := decide_eq_true (not_lt.mp hlive)
      simp [hlive, hexpired]

section Calls

variable (service) (reply : HostReply) (hotkey publicKey message : String) (grant : Option VerifiedGrant) (random : Bytes)
  (request : ValidatorAccessRequest) (signatureHex publicKeyHex : String) (s : AccessState Limiter)

theorem quiet_grantSshAccess : Quiet s (service.grantSshAccess reply hotkey publicKey s).2 := by
  unfold grantSshAccess
  dsimp only
  split <;> exact ⟨rfl, rfl, fun _ _ h => h⟩

theorem quiet_revokeSshAccess : Quiet s (service.revokeSshAccess reply hotkey s).2 := by
  unfold revokeSshAccess
  dsimp only
  split <;> exact ⟨rfl, rfl, fun _ _ h => h⟩

theorem quiet_verifyHotkeySignature (now : Time) (id : String) (signature publicKey : Bytes) (s : AccessState Limiter) :
    Quiet s (service.verifyHotkeySignature now id signature publicKey s).2 := by
  unfold verifyHotkeySignature
  split_ifs
  · exact Quiet.refl s
  cases s.activeChallenges.get? id with
  | none => exact Quiet.refl s
  | some challenge =>
    dsimp only
    split_ifs
    · exact ⟨rfl, rfl, fun _ _ h => get?_of_erase h⟩
    · exact ⟨rfl, rfl, fun _ _ h => get?_of_erase h⟩
    · exact ⟨rfl, rfl, fun _ _ h => h⟩

theorem quiet_cleanupExpiredData (now : Time) (s : AccessState Limiter) : Quiet s (service.cleanupExpiredData now s) := by
  refine ⟨rfl, rfl, fun id challenge h => ?_⟩
  change (s.activeChallenges.filterWith _).get? id = some challenge at h
  rw [get?_filterWith] at h
  exact (filter_eq_some_iff.mp h).1

theorem grantRecorded_spec : Extends s (service.grantRecorded reply message grant request s).2 ∧
    (service.grantRecorded reply message grant request s).2.verified =
      (if request.sshPublicKey.isSome then grant.toList else []) ++ s.verified := by
  unfold grantRecorded
  cases request.sshPublicKey with
  | none => exact ⟨(Quiet.refl s).extends, rfl⟩
  | some sshPublicKey =>
    dsimp only
    let recorded : AccessState Limiter := recordAccess (.newWithRole reply.now request.hotkey sshPublicKey
      (service.determineValidatorRole request.hotkey) grant.isSome) { s with verified := grant.toList ++ s.verified }
    have hrecorded : Extends s recorded := ⟨List.Subset.refl _, id⟩
    have hquiet := quiet_grantSshAccess service reply request.hotkey sshPublicKey recorded
    split
    all_goals
      rename_i heq
      rw [heq] at hquiet
      exact ⟨hrecorded.trans hquiet.extends, hquiet.verified⟩

theorem verified_offerChallenge : (service.offerChallenge reply random request s).2.verified = s.verified := by
  unfold offerChallenge generateChallenge
  split_ifs <;> rfl

theorem extends_answerChallenge : Extends s (service.answerChallenge reply request signatureHex publicKeyHex s).2 := by
  unfold answerChallenge
  split
  · exact (Quiet.refl s).extends
  · exact (Quiet.refl s).extends
  · exact (Quiet.refl s).extends
  · rename_i signature publicKey id _ _ _
    have hquiet := (quiet_verifyHotkeySignature service reply.now id signature publicKey s).extends
    split
    · rename_i heq
      rw [heq] at hquiet
      exact hquiet
    · rename_i heq
      rw [heq] at hquiet
      exact hquiet.trans (grantRecorded_spec service reply _ _ request _).1

theorem extends_offerChallenge : Extends s (service.offerChallenge reply random request s).2 := by
  unfold offerChallenge generateChallenge
  split_ifs
  · exact (Quiet.refl s).extends
  · exact (Quiet.refl s).extends
  · refine ⟨subset_cons_self _ _, fun hs id challenge hactive => ?_⟩
    rw [get?_set] at hactive
    split_ifs at hactive
    · exact mem_cons.mpr (Or.inl (some.inj hactive).symm)
    · exact mem_cons_of_mem _ (hs id challenge hactive)

end Calls

structure Presents (service : AccessService Ip Limiter) (now : Time) (request : ValidatorAccessRequest) (s : AccessState Limiter)
    (challenge : SignatureChallenge) (publicKey signature : Bytes) : Prop where
  signed : request.signature.bind service.hexDecode = some signature
  keyed : request.publicKey.bind service.hexDecode = some publicKey
  named : request.challengeId.bind s.activeChallenges.get? = some challenge
  live : now < challenge.expiresAt
  valid : service.verifyP256Signature challenge.challengeData signature publicKey = true
  complete : request.sshPublicKey.isSome = true

theorem verified_answerChallenge (hverifying : service.hotkeyVerification.enabled = true) (reply : HostReply)
    {request : ValidatorAccessRequest} {signatureHex publicKeyHex : String} (hsignature : request.signature = some signatureHex)
    (hpublicKey : request.publicKey = some publicKeyHex) (s : AccessState Limiter) :
    (∃ challenge publicKey signature, Presents service reply.now request s challenge publicKey signature ∧
      (service.answerChallenge reply request signatureHex publicKeyHex s).2.verified =
        ⟨request.hotkey, some challenge, publicKey, signature, reply.now⟩ :: s.verified) ∨
    (∀ challenge publicKey signature, ¬ Presents service reply.now request s challenge publicKey signature) ∧
      (service.answerChallenge reply request signatureHex publicKeyHex s).2.verified = s.verified := by
  unfold answerChallenge
  have hsigned : request.signature.bind service.hexDecode = service.hexDecode signatureHex := by rw [hsignature, bind_some]
  have hkeyed : request.publicKey.bind service.hexDecode = service.hexDecode publicKeyHex := by rw [hpublicKey, bind_some]
  cases hs : service.hexDecode signatureHex with
  | none => exact Or.inr ⟨fun _ _ _ h => by simpa [hsigned, hs] using h.signed, rfl⟩
  | some signature =>
  cases hk : service.hexDecode publicKeyHex with
  | none => exact Or.inr ⟨fun _ _ _ h => by simpa [hkeyed, hk] using h.keyed, rfl⟩
  | some publicKey =>
  cases hid : request.challengeId with
  | none => exact Or.inr ⟨fun _ _ _ h => by simpa [hid] using h.named, rfl⟩
  | some id =>
    dsimp only
    have hiff := verifyHotkeySignature_iff hverifying reply.now id signature publicKey s
    have hquiet := (quiet_verifyHotkeySignature service reply.now id signature publicKey s).verified
    cases hverify : service.verifyHotkeySignature reply.now id signature publicKey s with
    | mk accepted s' =>
    rw [hverify] at hiff hquiet
    have hpresents : ∀ challenge key answer, Presents service reply.now request s challenge key answer ↔
        s.activeChallenges.get? id = some challenge ∧ key = publicKey ∧ answer = signature ∧ reply.now < challenge.expiresAt ∧
          service.verifyP256Signature challenge.challengeData signature publicKey = true ∧ request.sshPublicKey.isSome = true := by
      intro challenge key answer
      constructor
      · rintro ⟨hanswer, hkey, hnamed, hlive, hvalid, hcomplete⟩
        rw [hsigned, hs] at hanswer
        rw [hkeyed, hk] at hkey
        rw [hid] at hnamed
        obtain rfl := some.inj hanswer
        obtain rfl := some.inj hkey
        exact ⟨hnamed, rfl, rfl, hlive, hvalid, hcomplete⟩
      · rintro ⟨hnamed, rfl, rfl, hlive, hvalid, hcomplete⟩
        exact ⟨hsigned.trans hs, hkeyed.trans hk, by rw [hid]; exact hnamed, hlive, hvalid, hcomplete⟩
    simp only [hpresents]
    cases accepted with
    | false =>
      refine Or.inr ⟨?_, hquiet⟩
      rintro challenge key answer ⟨hnamed, -, -, hlive, hvalid, -⟩
      exact Bool.false_ne_true (hiff.mpr ⟨challenge, hnamed, hlive, hvalid⟩)
    | true =>
      obtain ⟨challenge, hnamed, hlive, hvalid⟩ := hiff.mp rfl
      dsimp only at hquiet ⊢
      rw [(grantRecorded_spec _ _ _ _ _ _).2, hquiet, hnamed]
      by_cases hcomplete : request.sshPublicKey.isSome = true
      · exact Or.inl ⟨challenge, publicKey, signature, ⟨rfl, rfl, rfl, hlive, hvalid, hcomplete⟩, by rw [if_pos hcomplete]; rfl⟩
      · refine Or.inr ⟨?_, by rw [if_neg hcomplete]; rfl⟩
        rintro _ _ _ ⟨-, -, -, -, -, h⟩
        exact hcomplete h

theorem authorized_only_with_access_iff (service : AccessService Ip Limiter) (now : Time) (hotkey : String)
    (s : AccessState Limiter) :
    (∀ operation, service.authorizeOperation hotkey operation s = true → AccessService.hasAccess now hotkey s = true) ↔
      ∀ access, s.activeSessions.get? hotkey = some access → now < access.expiresAt := by
  unfold authorizeOperation hasAccess ValidatorAccess.isExpired
  cases s.activeSessions.get? hotkey with
  | none => simp only [Bool.false_eq_true, false_implies, implies_true, reduceCtorEq]
  | some access =>
    simp only [any_some, Bool.not_eq_true', decide_eq_false_iff_not, not_le, some.injEq, forall_eq']
    constructor
    · intro h
      apply h "ssh_access"
      cases access.role <;> simp [ValidatorRole.hasPermission, ValidatorRole.permissions]
    · exact fun h _ _ => h

end Frames

inductive AccessEvent (Ip : Type)
  | request (reply : HostReply) (random : Bytes) (client : Client Ip) (request : ValidatorAccessRequest)
  | grantSshAccess (reply : HostReply) (hotkey publicKey : String)
  | revokeSshAccess (reply : HostReply) (hotkey : String)
  | cleanup (now : Time)

section Runs

variable {Ip Limiter : Type} [DecidableEq Ip] (service : AccessService Ip Limiter)

def accessStep : AccessEvent Ip → AccessState Limiter → AccessState Limiter
  | .request reply random client request, s => (service.handleAccessRequest reply random client request s).2
  | .grantSshAccess reply hotkey publicKey, s => (service.grantSshAccess reply hotkey publicKey s).2
  | .revokeSshAccess reply hotkey, s => (service.revokeSshAccess reply hotkey s).2
  | .cleanup now, s => service.cleanupExpiredData now s

/-- The grant answers a challenge that was issued for its hotkey and had not expired, with a signature by the key of that
hotkey. `signed` says which keys made a signature. -/
def Owned (hotkeyKey : String → Option Bytes) (signed : (publicKey message signature : Bytes) → Prop)
    (issued : List SignatureChallenge) (grant : VerifiedGrant) : Prop :=
  ∃ challenge ∈ issued, grant.challenge = some challenge ∧ challenge.validatorHotkey = grant.hotkey ∧
    grant.grantedAt < challenge.expiresAt ∧
    hotkeyKey grant.hotkey = some grant.publicKey ∧ signed grant.publicKey challenge.challengeData grant.signature

structure Answers (reply : HostReply) (client : Client Ip) (request : ValidatorAccessRequest) (s : AccessState Limiter)
    (challenge : SignatureChallenge) (publicKey signature : Bytes) : Prop where
  enabled : service.validatorEnabled = true
  verifying : service.hotkeyVerification.enabled = true
  authenticated : (service.authenticateRequest reply.now request.hotkey (service.extractClientIp client) s).1 = true
  presents : Presents service reply.now request s challenge publicKey signature

def OwnAnswer (hotkeyKey : String → Option Bytes) (event : AccessEvent Ip) (s : AccessState Limiter) : Prop :=
  match event with
  | .request reply _ client request => ∀ challenge publicKey signature,
      Answers service reply client request s challenge publicKey signature →
        challenge.validatorHotkey = request.hotkey ∧ hotkeyKey request.hotkey = some publicKey
  | _ => True

variable (reply : HostReply) (random : Bytes) (client : Client Ip) (request : ValidatorAccessRequest) (s : AccessState Limiter)

theorem verified_handleAccessRequest : (∃ challenge publicKey signature, Answers service reply client request s challenge publicKey signature ∧
      (service.handleAccessRequest reply random client request s).2.verified =
        ⟨request.hotkey, some challenge, publicKey, signature, reply.now⟩ :: s.verified) ∨
    (∀ challenge publicKey signature, ¬ Answers service reply client request s challenge publicKey signature) ∧
      (service.handleAccessRequest reply random client request s).2.verified = s.verified := by
  unfold handleAccessRequest
  by_cases henabled : service.validatorEnabled = true
  swap
  · refine Or.inr ⟨fun _ _ _ h => henabled h.enabled, ?_⟩
    rw [if_pos (by simpa using henabled)]
  rw [if_neg (by simp [henabled])]
  have hauth : (service.authenticateRequest reply.now request.hotkey (service.extractClientIp client) s).2 =
      { s with limiter := (service.checkApiRequest reply.now request.hotkey s.limiter).2 } := rfl
  cases hcheck : service.authenticateRequest reply.now request.hotkey (service.extractClientIp client) s with
  | mk authenticated s₁ =>
  rw [hcheck] at hauth
  subst hauth
  cases authenticated with
  | false =>
    refine Or.inr ⟨fun _ _ _ h => ?_, rfl⟩
    have hno := h.authenticated
    rw [hcheck] at hno
    cases hno
  | true =>
    dsimp only
    by_cases hverifying : service.hotkeyVerification.enabled = true
    swap
    · refine Or.inr ⟨fun _ _ _ h => hverifying h.verifying, ?_⟩
      rw [if_neg hverifying, (grantRecorded_spec _ _ _ _ _ _).2]
      simp
    rw [if_pos hverifying]
    have hoffer : (∀ signatureHex publicKeyHex, request.signature = some signatureHex → request.publicKey ≠ some publicKeyHex) →
        ∀ challenge publicKey signature, ¬ Answers service reply client request s challenge publicKey signature := by
      intro hmissing challenge publicKey signature h
      obtain ⟨signatureHex, hsignature, -⟩ := bind_eq_some_iff.mp h.presents.signed
      obtain ⟨publicKeyHex, hpublicKey, -⟩ := bind_eq_some_iff.mp h.presents.keyed
      exact hmissing signatureHex publicKeyHex hsignature hpublicKey
    cases hsignature : request.signature with
    | none => exact Or.inr ⟨hoffer (by simp [hsignature]), verified_offerChallenge service reply random request _⟩
    | some signatureHex =>
    cases hpublicKey : request.publicKey with
    | none => exact Or.inr ⟨hoffer (by simp [hpublicKey]), verified_offerChallenge service reply random request _⟩
    | some publicKeyHex =>
      have hauthenticated : (service.authenticateRequest reply.now request.hotkey (service.extractClientIp client) s).1 = true := by
        rw [hcheck]
      rcases verified_answerChallenge hverifying reply hsignature hpublicKey
          { s with limiter := (service.checkApiRequest reply.now request.hotkey s.limiter).2 } with
        ⟨challenge, publicKey, signature, hpresents, hlog⟩ | ⟨hnone, hlog⟩
      · exact Or.inl ⟨challenge, publicKey, signature, ⟨henabled, hverifying, hauthenticated, ⟨hpresents.signed, hpresents.keyed,
          hpresents.named, hpresents.live, hpresents.valid, hpresents.complete⟩⟩, hlog⟩
      · refine Or.inr ⟨fun challenge publicKey signature h => ?_, hlog⟩
        exact hnone challenge publicKey signature ⟨h.presents.signed, h.presents.keyed, h.presents.named, h.presents.live,
          h.presents.valid, h.presents.complete⟩

theorem extends_handleAccessRequest : Extends s (service.handleAccessRequest reply random client request s).2 := by
  unfold handleAccessRequest
  by_cases hdisabled : service.validatorEnabled = false
  · rw [if_pos hdisabled]
    exact (Quiet.refl s).extends
  rw [if_neg hdisabled]
  have hauth : Extends s (service.authenticateRequest reply.now request.hotkey (service.extractClientIp client) s).2 :=
    ⟨List.Subset.refl _, id⟩
  split
  · rename_i heq
    rw [heq] at hauth
    exact hauth
  · rename_i heq
    rw [heq] at hauth
    refine hauth.trans ?_
    split_ifs
    · split
      · exact extends_answerChallenge service reply request _ _ _
      · exact extends_offerChallenge service reply random request _
    · exact (grantRecorded_spec service reply _ _ request _).1

theorem extends_step (event : AccessEvent Ip) (s : AccessState Limiter) : Extends s (accessStep service event s) := by
  cases event with
  | request reply random client request => exact extends_handleAccessRequest service reply random client request s
  | grantSshAccess reply hotkey publicKey => exact (quiet_grantSshAccess service reply hotkey publicKey s).extends
  | revokeSshAccess reply hotkey => exact (quiet_revokeSshAccess service reply hotkey s).extends
  | cleanup now => exact (quiet_cleanupExpiredData service now s).extends

variable {service reply random client request s} {hotkeyKey : String → Option Bytes}
  {signed : (publicKey message signature : Bytes) → Prop} {issued : List SignatureChallenge}

theorem Owned.mono {issued' : List SignatureChallenge} {grant : VerifiedGrant} (h : Owned hotkeyKey signed issued grant)
    (hsubset : issued ⊆ issued') : Owned hotkeyKey signed issued' grant := by
  obtain ⟨challenge, hissued, hrest⟩ := h
  exact ⟨challenge, hsubset hissued, hrest⟩

variable {publicKey signature : Bytes}

theorem Answers.unique {challenge' : SignatureChallenge} {publicKey' signature' : Bytes}
    (h : Answers service reply client request s challenge publicKey signature)
    (h' : Answers service reply client request s challenge' publicKey' signature') : challenge' = challenge ∧ publicKey' = publicKey :=
  ⟨some.inj (h'.presents.named.symm.trans h.presents.named), some.inj (h'.presents.keyed.symm.trans h.presents.keyed)⟩

theorem owned_grant_iff (hotkeyKey : String → Option Bytes)
    (hforge : ∀ publicKey message signature, service.verifyP256 publicKey message signature = true →
      signed publicKey message signature)
    (h : Answers service reply client request s challenge publicKey signature)
    (hissued : challenge ∈ issued) :
    Owned hotkeyKey signed issued ⟨request.hotkey, some challenge, publicKey, signature, reply.now⟩ ↔
      challenge.validatorHotkey = request.hotkey ∧ hotkeyKey request.hotkey = some publicKey := by
  have hsigned : signed publicKey challenge.challengeData signature := by
    have hvalid := h.presents.valid
    rw [verifyP256Signature, Bool.and_eq_true] at hvalid
    exact hforge _ _ _ hvalid.2
  constructor
  · rintro ⟨named, -, hnamed, hhotkey, -, hkey, -⟩
    obtain rfl : challenge = named := some.inj hnamed
    exact ⟨hhotkey, hkey⟩
  · rintro ⟨hhotkey, hkey⟩
    exact ⟨challenge, hissued, rfl, hhotkey, h.presents.live, hkey, hsigned⟩

theorem owned_step_iff (hforge : ∀ publicKey message signature, service.verifyP256 publicKey message signature = true →
      signed publicKey message signature) (event : AccessEvent Ip) (hrecorded : Recorded s)
    (howned : ∀ grant ∈ s.verified, Owned hotkeyKey signed s.issued grant) :
    (∀ grant ∈ (accessStep service event s).verified, Owned hotkeyKey signed (accessStep service event s).issued grant) ↔
      OwnAnswer service hotkeyKey event s := by
  have hextends := extends_step service event s
  have hquiet : (accessStep service event s).verified = s.verified →
      ∀ grant ∈ (accessStep service event s).verified, Owned hotkeyKey signed (accessStep service event s).issued grant := by
    intro hsame grant hgrant
    rw [hsame] at hgrant
    exact (howned grant hgrant).mono hextends.issued
  cases event with
  | grantSshAccess reply hotkey publicKey => exact iff_of_true (hquiet (quiet_grantSshAccess service reply hotkey publicKey s).verified) trivial
  | revokeSshAccess reply hotkey => exact iff_of_true (hquiet (quiet_revokeSshAccess service reply hotkey s).verified) trivial
  | cleanup now => exact iff_of_true (hquiet rfl) trivial
  | request reply random client request =>
    rcases verified_handleAccessRequest service reply random client request s with
        ⟨challenge, publicKey, signature, hanswers, hlog⟩ | ⟨hnone, hlog⟩
    · obtain ⟨id, -, hactive⟩ := bind_eq_some_iff.mp hanswers.presents.named
      have hgrant := owned_grant_iff hotkeyKey hforge hanswers (hextends.issued (hrecorded id challenge hactive))
      have hlog' : (accessStep service (.request reply random client request) s).verified =
          ⟨request.hotkey, some challenge, publicKey, signature, reply.now⟩ :: s.verified := hlog
      rw [hlog', forall_mem_cons]
      constructor
      · rintro ⟨hnew, -⟩ challenge' publicKey' signature' hanswers'
        obtain ⟨rfl, rfl⟩ := hanswers.unique hanswers'
        exact hgrant.mp hnew
      · intro hown
        exact ⟨hgrant.mpr (hown _ _ _ hanswers), fun grant hold => (howned grant hold).mono hextends.issued⟩
    · exact iff_of_true (hquiet hlog) (fun challenge publicKey signature h => absurd h (hnone challenge publicKey signature))

theorem verified_grants_owned_iff (service : AccessService Ip Limiter) (hotkeyKey : String → Option Bytes)
    (signed : (publicKey message signature : Bytes) → Prop)
    (hforge : ∀ publicKey message signature, service.verifyP256 publicKey message signature = true →
      signed publicKey message signature)
    (files : Files) (limiter : Limiter) (sessions : AssocMap String ValidatorAccess) (l : List (AccessEvent Ip)) :
    Throughout (accessStep service) (fun s => ∀ grant ∈ s.verified, Owned hotkeyKey signed s.issued grant) l
        (.start files limiter sessions) ↔
      EachStep (accessStep service) (OwnAnswer service hotkeyKey) l (.start files limiter sessions) := by
  have hstart : Recorded (AccessState.start files limiter sessions) := fun id challenge h => by cases h
  refine throughout_iff (I := Recorded) (fun event s _ hs => (extends_step service event s).recorded hs) ?_
    (fun event (_ : event ∈ l) => trivial) hstart (fun grant hgrant => absurd hgrant not_mem_nil)
  intro event s _ hrecorded howned
  exact owned_step_iff hforge event hrecorded howned

def malloryKey : Bytes := List.replicate 33 2

def openAccess : AccessService Unit Unit where
  toExecutorServer := plainExecutor
  ipWhitelist := []
  hotkeyVerification := .default
  roleAssignments := []
  parseIp _ := none
  showIp _ := ""
  checkApiRequest _ _ limiter := (true, limiter)
  cleanupOldEntries _ limiter := limiter
  hexDecode text := if text = "signature" then some [1] else if text = "key" then some malloryKey else none
  verifyP256 publicKey _ signature := publicKey = malloryKey && signature = [1]

/-- A hotkey encodes 32 bytes. -/
def openKeys (hotkey : String) : Option Bytes := some (List.replicate 32 (if hotkey = "mallory" then 2 else 3))

def openSigned (publicKey _ signature : Bytes) : Prop := publicKey = malloryKey ∧ signature = [1]

theorem openSigned_of_verifyP256 (publicKey message signature : Bytes)
    (h : openAccess.verifyP256 publicKey message signature = true) : openSigned publicKey message signature := by
  change (decide (publicKey = malloryKey) && decide (signature = [1])) = true at h
  rw [Bool.and_eq_true, decide_eq_true_eq, decide_eq_true_eq] at h
  exact h

def openStart : AccessState Unit :=
  .start (fun _ => none) () ((AssocMap.empty.insert "mallory" (.new 0 "mallory" "ssh-ed25519 m")).insert "victim"
    (.new 0 "victim" "ssh-ed25519 v"))

def askChallenge : AccessEvent Unit := .request (.fine 0) [9] ⟨none, none, none⟩ ⟨"mallory", none, none, none, none⟩

def answerAs (hotkey : String) : AccessEvent Unit := .request (.fine 1) [] ⟨none, none, none⟩
  ⟨hotkey, some "ssh-ed25519 m", some "signature", some "key", some "challenge_mallory_0"⟩

theorem challenge_answered_for_another :
    (∀ publicKey message signature, openAccess.verifyP256 publicKey message signature = true →
      openSigned publicKey message signature) ∧
    ¬ Throughout (accessStep openAccess) (fun s => ∀ grant ∈ s.verified, Owned openKeys openSigned s.issued grant)
      [askChallenge, answerAs "victim"] openStart := by
  refine ⟨openSigned_of_verifyP256, ?_⟩
  rintro ⟨-, -, h⟩
  have hlog : (accessStep openAccess (answerAs "victim") (accessStep openAccess askChallenge openStart)).verified =
      [⟨"victim", some ⟨"challenge_mallory_0", [9], 0, 300 * 10 ^ 9, "mallory"⟩, malloryKey, [1], 1⟩] := by decide +kernel
  obtain ⟨challenge, -, hchallenge, hhotkey, -⟩ := h _ (hlog ▸ mem_cons_self)
  obtain rfl := some.inj hchallenge
  exact absurd hhotkey (by decide)

theorem challenge_answered_by_owner :
    Throughout (accessStep openAccess) (fun s => ∀ grant ∈ s.verified, Owned (fun _ => some malloryKey) openSigned s.issued grant)
      [askChallenge, answerAs "mallory"] openStart := by
  refine (verified_grants_owned_iff openAccess _ openSigned openSigned_of_verifyP256 _ _ _ _).mpr ⟨?_, ?_, trivial⟩
  · intro challenge publicKey signature h
    cases h.presents.signed
  · intro challenge publicKey signature h
    have hnamed : (accessStep openAccess askChallenge openStart).activeChallenges.get? "challenge_mallory_0" = some challenge :=
      h.presents.named
    have hchallenge : ((accessStep openAccess askChallenge openStart).activeChallenges.get? "challenge_mallory_0").map
        SignatureChallenge.validatorHotkey = some "mallory" := by decide +kernel
    rw [hnamed] at hchallenge
    exact ⟨some.inj hchallenge, h.presents.keyed⟩

def grantedOnce : AccessState Unit :=
  accessStep openAccess (.grantSshAccess (.fine 0) "victim" "ssh-ed25519 v") (.start (fun _ => none) () .empty)

theorem expired_access_authorized : openAccess.authorizeOperation "victim" "ssh_access" grantedOnce = true ∧
    AccessService.hasAccess (365 * 24 * hour) "victim" grantedOnce = false := by decide +kernel

end Runs

end Basilica.Executor
