import Basilica.MinerAuth
import Basilica.Tallies

/-!
The session tokens that a miner gives to validators. A token is good while it has not expired and has not been revoked, and
while its session is known.
-/

namespace Basilica.Miner

open AssocMaps Executor

structure ValidatorClaims where
  sub : String
  iss : String
  aud : String
  exp : ℤ
  iat : ℤ
  nbf : ℤ
  jti : String
  sessionId : String
  permissions : List String
deriving DecidableEq

structure ValidatorSession where
  hotkey : String
  sessionId : String
  tokenId : String
  createdAt : Time
  expiresAt : Time
  lastActivity : Time
  permissions : List String

structure RevokedToken where
  revokedAt : Time
  expiresAt : Time

def unixSeconds (t : Time) : ℤ := t / 10 ^ 9

/-- What is asked of the library's check of the claims, which allows no leeway. -/
structure ClaimsHold (issuer audience : String) (now : Time) (claims : ValidatorClaims) : Prop where
  begun : claims.nbf ≤ unixSeconds now
  lasts : unixSeconds now ≤ claims.exp
  issuer : claims.iss = issuer
  audience : claims.aud = audience

/-- The library signs claims, reads the claims of a text whose signature is right, and checks them. -/
structure JwtAuthService where
  issuer : String
  audience : String
  tokenExpiration : Time
  encode : ValidatorClaims → Except String String
  decode : String → Except String ValidatorClaims
  checkClaims : Time → ValidatorClaims → Except String Unit
  claimsHold : ∀ now claims, checkClaims now claims = .ok () → ClaimsHold issuer audience now claims

/-- `issued` lists the claims of all tokens that were made; no code reads it. -/
structure JwtState where
  sessions : AssocMap String ValidatorSession
  revokedTokens : AssocMap String RevokedToken
  issued : List ValidatorClaims

namespace JwtAuthService

variable (service : JwtAuthService)

def generateToken (now : Time) (tokenId hotkey sessionId : String) (permissions : List String) (s : JwtState) :
    Except String String × JwtState :=
  let expiresAt := now + service.tokenExpiration
  let claims : ValidatorClaims :=
    { sub := hotkey
      iss := service.issuer
      aud := service.audience
      exp := unixSeconds expiresAt
      iat := unixSeconds now
      nbf := unixSeconds now
      jti := tokenId
      sessionId := sessionId
      permissions := permissions }
  match service.encode claims with
  | .error e => (.error e, s)
  | .ok token =>
    let session : ValidatorSession := ⟨hotkey, sessionId, tokenId, now, expiresAt, now, permissions⟩
    (.ok token, { s with
      sessions := s.sessions.upsert sessionId session (fun _ => session)
      issued := claims :: s.issued })

def validateToken (now : Time) (token : String) (s : JwtState) : Except String ValidatorClaims × JwtState :=
  match service.decode token with
  | .error e => (.error e, s)
  | .ok claims =>
    match service.checkClaims now claims with
    | .error e => (.error e, s)
    | .ok () =>
      if (s.revokedTokens.get? claims.jti).isSome then (.error "Token has been revoked", s)
      else if (s.sessions.get? claims.sessionId).isNone then (.error "Session not found", s)
      else (.ok claims, { s with
        sessions := s.sessions.modify claims.sessionId (fun session => { session with lastActivity := now }) })

end JwtAuthService

namespace JwtState

def revokeToken (now : Time) (tokenId : String) (expiresAt : Time) (s : JwtState) : JwtState :=
  { s with revokedTokens := s.revokedTokens.upsert tokenId ⟨now, expiresAt⟩ (fun _ => ⟨now, expiresAt⟩) }

def removeSession (now : Time) (s : JwtState) (entry : String × ValidatorSession) : JwtState :=
  { s with sessions := s.sessions.filterWith (fun sessionId _ => sessionId ≠ entry.1) }.revokeToken now entry.2.tokenId
    entry.2.expiresAt

def revokeSession (now : Time) (sessionId : String) (s : JwtState) : Except String Unit × JwtState :=
  match s.sessions.get? sessionId with
  | none => (.error "Session not found", s)
  | some session => (.ok (), s.removeSession now (sessionId, session))

/-- Revoked tokens are kept for a day after they have expired. -/
def cleanupExpired (now : Time) (s : JwtState) : JwtState :=
  let expired := s.sessions.entries.filter (fun entry => entry.2.expiresAt < now)
  let cleaned := expired.foldl (removeSession now) s
  { cleaned with revokedTokens := cleaned.revokedTokens.filter (fun token => now < token.expiresAt + 24 * hour) }

end JwtState

structure JwtAuthService.ValidAt (service : JwtAuthService) (now : Time) (s : JwtState) (claims : ValidatorClaims) : Prop
    extends ClaimsHold service.issuer service.audience now claims where
  unrevoked : s.revokedTokens.get? claims.jti = none
  session : (s.sessions.get? claims.sessionId).isSome

variable {service : JwtAuthService} {now : Time} {token : String} {s : JwtState} {claims : ValidatorClaims}

theorem validateToken_ok (h : (service.validateToken now token s).1 = .ok claims) :
    service.decode token = .ok claims ∧ service.ValidAt now s claims := by
  unfold JwtAuthService.validateToken at h
  cases hdecode : service.decode token with
  | error e =>
    rw [hdecode] at h
    cases h
  | ok decoded =>
    rw [hdecode] at h
    dsimp only at h
    cases hclaims : service.checkClaims now decoded with
    | error e =>
      rw [hclaims] at h
      cases h
    | ok _ =>
      rw [hclaims] at h
      split_ifs at h with hrevoked hsession
      cases h
      refine ⟨rfl, service.claimsHold now _ hclaims, ?_, ?_⟩
      · simpa using hrevoked
      · simpa [Option.isSome_iff_ne_none] using hsession

end Basilica.Miner
