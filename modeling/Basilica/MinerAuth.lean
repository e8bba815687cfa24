import Basilica.AssocMaps
import Basilica.ColumnText
import Basilica.StepRuns

/-!
The executor's check of a request from its miner. A request carries a nonce and a time stamp; the nonce of a request
that gets as far as the store is kept there.
-/

namespace Basilica.Executor

open AssocMaps StepRuns List Option AssocMap

abbrev Time := ℤ

def minute : Time := 60 * 10 ^ 9

def hour : Time := 60 * minute

def minUtc : Time := -8334601228800000 * 10 ^ 6

def maxUtc : Time := 8210266876799999 * 10 ^ 6 + 999999

def fromTimestampMillis (ms : ℤ) : Option Time :=
  if minUtc ≤ ms * 10 ^ 6 ∧ ms * 10 ^ 6 ≤ maxUtc then some (ms * 10 ^ 6) else none

abbrev Bytes := List UInt8

abbrev Uuid := BitVec 128

structure MinerAuthentication where
  minerHotkey : String
  timestampMs : UInt64
  nonce : Bytes
  signature : Bytes
  requestId : Bytes
deriving DecidableEq

structure MinerAuthConfig where
  managingMinerHotkey : String
  maxRequestAge : Time
  verifySignatures : Bool

def MinerAuthConfig.new (hotkey : String) : MinerAuthConfig := ⟨hotkey, 5 * minute, true⟩

/-- What the check takes from its libraries: how bytes are read as text, what text is a UUID, the hash of a request, and
whether a signature in hexadecimal is one of the hotkey on the text. -/
structure AuthLibrary where
  lossyText : Bytes → String
  parseUuid : String → Option Uuid
  blake3 : Bytes → BitVec (4 * 64)
  verifySignature : (hotkey signatureHex data : String) → Bool

structure MinerAuthService extends AuthLibrary where
  config : MinerAuthConfig

open MinerAuthService

inductive AuthError
  | unauthorizedMiner (actual expected : String)
  | invalidTimestamp
  | requestTooOld (age : Time)
  | timestampInFuture
  | nonceNotUuid
  | nonceUsed
  | invalidSignature
  | overflow
deriving DecidableEq

def AuthError.message : AuthError → String
  | unauthorizedMiner actual expected => s!"Unauthorized miner: {actual}. Expected: {expected}"
  | invalidTimestamp => "Invalid timestamp"
  | requestTooOld age => s!"Request too old: TimeDelta \x7b secs: {age / 10 ^ 9}, nanos: {age % 10 ^ 9} \x7d"
  | timestampInFuture => "Request timestamp is in the future"
  | nonceNotUuid => "Nonce must be a valid UUID format"
  | nonceUsed => "Nonce already used"
  | invalidSignature => "Invalid signature"
  | overflow => "DateTime - TimeDelta overflowed"

abbrev Nonces := AssocMap Uuid Time

def hexEncode (bytes : Bytes) : String := String.ofList (bytes.flatMap (fun b => ColumnText.hexDigits 2 b.toNat))

variable {nonce : Uuid} {now stored : Time} {auth : MinerAuthentication} {requestData : Bytes} {used : Nonces}

namespace MinerAuthService

variable (service : MinerAuthService)

/-- The unsigned number of the message is read as a signed one. -/
def timestamp (auth : MinerAuthentication) : Option Time := fromTimestampMillis auth.timestampMs.toInt64.toInt

def checkAge (now : Time) (auth : MinerAuthentication) : Except AuthError Unit :=
  match timestamp auth with
  | none => .error .invalidTimestamp
  | some timestamp =>
    let requestAge := now - timestamp
    if service.config.maxRequestAge < requestAge then .error (.requestTooOld requestAge)
    -- a clock that is ahead by up to a minute is allowed
    else if requestAge < 0 ∧ minute < |requestAge| then .error .timestampInFuture
    else .ok ()

def nonceUuid (auth : MinerAuthentication) : Option Uuid := service.parseUuid (service.lossyText auth.nonce)

def createCanonicalData (auth : MinerAuthentication) (requestData : Bytes) : String :=
  let nonce := service.lossyText auth.nonce
  let requestId := service.lossyText auth.requestId
  let requestHash := ColumnText.encodeHex (service.blake3 requestData)
  s!"MINER_AUTH:{auth.minerHotkey}:{auth.timestampMs}:{nonce}:{requestId}:{requestHash}"

def checkSignature (auth : MinerAuthentication) (requestData : Bytes) : Except AuthError Unit :=
  if service.config.verifySignatures ∧ service.verifySignature service.config.managingMinerHotkey (hexEncode auth.signature)
      (service.createCanonicalData auth requestData) = false then
    .error .invalidSignature
  else .ok ()

/-- Nonces that were stored up to this time are dropped. The subtraction can leave the calendar. -/
def cutoff (now : Time) : Option Time :=
  let time := now - service.config.maxRequestAge - hour
  if minUtc ≤ time then some time else none

def retain (cutoff : Time) (used : Nonces) : Nonces := used.filterWith (fun _ stored => decide (cutoff < stored))

/-- The nonce is stored before the signature is looked at. -/
def verifyAuth (now : Time) (auth : MinerAuthentication) (requestData : Bytes) (used : Nonces) : Except AuthError Unit × Nonces :=
  if auth.minerHotkey ≠ service.config.managingMinerHotkey then
    (.error (.unauthorizedMiner auth.minerHotkey service.config.managingMinerHotkey), used)
  else match service.checkAge now auth with
    | .error e => (.error e, used)
    | .ok () => match service.nonceUuid auth with
      | none => (.error .nonceNotUuid, used)
      | some nonce =>
        if (used.get? nonce).isSome then (.error .nonceUsed, used)
        else match service.cutoff now with
          | none => (.error .overflow, used.insert nonce now)
          | some cutoff => (service.checkSignature auth requestData, retain cutoff (used.insert nonce now))

def cleanupExpiredNonces (now : Time) (used : Nonces) : Nonces :=
  match service.cutoff now with
  | none => used
  | some cutoff => retain cutoff used

structure Admissible (now : Time) (auth : MinerAuthentication) (nonce : Uuid) : Prop where
  miner : auth.minerHotkey = service.config.managingMinerHotkey
  age : service.checkAge now auth = .ok ()
  uuid : service.nonceUuid auth = some nonce

theorem verifyAuth_cases (now : Time) (auth : MinerAuthentication) (requestData : Bytes) (used : Nonces) :
    (∃ e, service.verifyAuth now auth requestData used = (.error e, used)) ∨
      ∃ nonce, service.Admissible now auth nonce ∧ used.get? nonce = none ∧
        (service.cutoff now = none ∧ service.verifyAuth now auth requestData used = (.error .overflow, used.insert nonce now) ∨
          ∃ cutoff, service.cutoff now = some cutoff ∧ service.verifyAuth now auth requestData used =
            (service.checkSignature auth requestData, retain cutoff (used.insert nonce now))) := by
  unfold verifyAuth
  split_ifs with hminer
  · exact Or.inl ⟨_, rfl⟩
  cases hage : service.checkAge now auth with
  | error e => exact Or.inl ⟨e, rfl⟩
  | ok _ =>
    cases huuid : service.nonceUuid auth with
    | none => exact Or.inl ⟨_, rfl⟩
    | some nonce =>
      have hadmissible : service.Admissible now auth nonce := ⟨not_not.mp hminer, hage, huuid⟩
      cases hused : used.get? nonce with
      | some stored => exact Or.inl ⟨.nonceUsed, by simp [hused]⟩
      | none =>
        refine Or.inr ⟨nonce, hadmissible, hused, ?_⟩
        cases hcutoff : service.cutoff now with
        | none => exact Or.inl ⟨rfl, by simp [hused]⟩
        | some cutoff => exact Or.inr ⟨cutoff, rfl, by simp [hused]⟩

variable {service}

theorem verifyAuth_ok (h : (service.verifyAuth now auth requestData used).1 = .ok ()) :
    ∃ nonce, service.Admissible now auth nonce ∧ used.get? nonce = none ∧ service.checkSignature auth requestData = .ok () := by
  rcases service.verifyAuth_cases now auth requestData used with
      ⟨e, heq⟩ | ⟨nonce, hadmissible, hused, ⟨-, heq⟩ | ⟨cutoff, -, heq⟩⟩
  · rw [heq] at h
    cases h
  · rw [heq] at h
    cases h
  · rw [heq] at h
    exact ⟨nonce, hadmissible, hused, h⟩

theorem checkAge_ok (h : service.checkAge now auth = .ok ()) :
    ∃ t, timestamp auth = some t ∧ now - t ≤ service.config.maxRequestAge ∧ t ≤ now + minute := by
  unfold checkAge at h
  cases htime : timestamp auth with
  | none =>
    rw [htime] at h
    cases h
  | some t =>
    rw [htime] at h
    dsimp only at h
    split_ifs at h with hold hfuture
    refine ⟨t, rfl, not_lt.mp hold, ?_⟩
    by_contra hlate
    have hnegative : now - t < 0 := by
      have : 0 < minute := by decide
      linarith
    apply hfuture
    refine ⟨hnegative, ?_⟩
    rw [abs_of_neg hnegative]
    linarith

theorem checkAge_of_old {later : Time} {t : Time} (ht : timestamp auth = some t)
    (hold : t + service.config.maxRequestAge < now) (hlater : now ≤ later) :
    service.checkAge later auth = .error (.requestTooOld (later - t)) := by
  unfold checkAge
  rw [ht]
  exact if_pos (by linarith)

variable {cutoff : Time}

theorem cutoff_eq (h : service.cutoff now = some cutoff) : cutoff = now - service.config.maxRequestAge - hour := by
  unfold MinerAuthService.cutoff at h
  dsimp only at h
  split_ifs at h
  exact (some.inj h).symm

theorem get?_retain (hcutoff : service.cutoff now = some cutoff) (h : used.get? nonce = some stored) :
    (retain cutoff used).get? nonce = some stored ∨ stored + service.config.maxRequestAge + hour ≤ now := by
  rw [retain, get?_filterWith, h, filter_some]
  split_ifs with hstays
  · exact Or.inl rfl
  · rw [cutoff_eq hcutoff, decide_eq_true_eq] at hstays
    right
    linarith

theorem get?_verifyAuth (now : Time) (auth : MinerAuthentication) (requestData : Bytes)
    (h : used.get? nonce = some stored) : (service.verifyAuth now auth requestData used).2.get? nonce = some stored ∨
      stored + service.config.maxRequestAge + hour ≤ now := by
  rcases service.verifyAuth_cases now auth requestData used with ⟨e, heq⟩ | ⟨fresh, -, hused, hcase⟩
  · rw [heq]
    exact Or.inl h
  have hne : nonce ≠ fresh := by
    rintro rfl
    rw [h] at hused
    cases hused
  have hinsert : (used.insert fresh now).get? nonce = some stored := by
    rw [get?_insert hused, if_neg hne]
    exact h
  rcases hcase with ⟨-, heq⟩ | ⟨cutoff, hcutoff, heq⟩
  · rw [heq]
    exact Or.inl hinsert
  · rw [heq]
    exact get?_retain hcutoff hinsert

theorem get?_cleanupExpiredNonces (now : Time) (h : used.get? nonce = some stored) :
    (service.cleanupExpiredNonces now used).get? nonce = some stored ∨ stored + service.config.maxRequestAge + hour ≤ now := by
  unfold cleanupExpiredNonces
  cases hcutoff : service.cutoff now with
  | none => exact Or.inl h
  | some cutoff => exact get?_retain hcutoff h

end MinerAuthService

section Runs

inductive AuthCall
  | verifyAuth (auth : MinerAuthentication) (requestData : Bytes)
  | cleanupExpiredNonces

structure AuthHistory where
  nonces : Nonces
  accepted : List MinerAuthentication
  now : Time

def AuthHistory.start (now : Time) : AuthHistory := ⟨AssocMap.empty, [], now⟩

variable (service : MinerAuthService)

def authStep : Time × AuthCall → AuthHistory → AuthHistory
  | (now, .verifyAuth auth requestData), s =>
    let (result, nonces) := service.verifyAuth now auth requestData s.nonces
    ⟨nonces, if result = .ok () then auth :: s.accepted else s.accepted, now⟩
  | (now, .cleanupExpiredNonces), s => ⟨service.cleanupExpiredNonces now s.nonces, s.accepted, now⟩

def OutOfDate (auth : MinerAuthentication) (now : Time) : Prop :=
  ∀ later, now ≤ later → ∃ e, service.checkAge later auth = .error e

def Remembered (auth : MinerAuthentication) (used : Nonces) : Prop :=
  ∃ nonce ∈ service.nonceUuid auth, (used.get? nonce).isSome

def SameRecord (a b : MinerAuthentication) : Prop := a.nonce = b.nonce ∧ a.timestampMs = b.timestampMs

variable {service} {s : AuthHistory}

def Guarded (service : MinerAuthService) (s : AuthHistory) (auth : MinerAuthentication) : Prop :=
  ∃ nonce t, service.nonceUuid auth = some nonce ∧ MinerAuthService.timestamp auth = some t ∧
    (t + service.config.maxRequestAge < s.now ∨ ∃ stored, s.nonces.get? nonce = some stored ∧ t ≤ stored + minute)

theorem nonce_step (call : AuthCall) (h : s.nonces.get? nonce = some stored) :
    (authStep service (now, call) s).nonces.get? nonce = some stored ∨ stored + service.config.maxRequestAge + hour ≤ now := by
  cases call with
  | verifyAuth auth requestData => exact get?_verifyAuth now auth requestData h
  | cleanupExpiredNonces => exact get?_cleanupExpiredNonces now h

theorem old_of_dropped {t : Time} (hdropped : stored + service.config.maxRequestAge + hour ≤ now) (ht : t ≤ stored + minute) :
    t + service.config.maxRequestAge < now := by
  have hlonger : minute < hour := by decide
  linarith

theorem Guarded.step (h : Guarded service s auth) (hnow : s.now ≤ now) (call : AuthCall) :
    Guarded service (authStep service (now, call) s) auth := by
  obtain ⟨nonce, t, hnonce, ht, hcase⟩ := h
  refine ⟨nonce, t, hnonce, ht, ?_⟩
  have hstep : (authStep service (now, call) s).now = now := by cases call <;> rfl
  rw [hstep]
  rcases hcase with hold | ⟨stored, hstored, hlate⟩
  · left
    linarith
  · rcases nonce_step call hstored with hstays | hdropped
    · exact Or.inr ⟨stored, hstays, hlate⟩
    · exact Or.inl (old_of_dropped hdropped hlate)

theorem Guarded.rejected (h : Guarded service s auth) (hnow : s.now ≤ now) {again : MinerAuthentication} (hsame : SameRecord auth again)
    (requestData : Bytes) : (service.verifyAuth now again requestData s.nonces).1 ≠ .ok () := by
  intro haccepted
  obtain ⟨nonce, hadmissible, hfresh, -⟩ := verifyAuth_ok haccepted
  obtain ⟨nonce', t, hnonce, ht, hcase⟩ := h
  have htime : timestamp again = some t := by
    rw [timestamp, ← hsame.2]
    exact ht
  have huuid := hadmissible.uuid
  rw [nonceUuid, ← hsame.1] at huuid
  obtain rfl : nonce' = nonce := some.inj (hnonce.symm.trans huuid)
  rcases hcase with hold | ⟨stored, hstored, -⟩
  · have hage := hadmissible.age
    rw [checkAge_of_old htime hold hnow] at hage
    cases hage
  · rw [hfresh] at hstored
    cases hstored

theorem guarded_of_accepted (h : (service.verifyAuth now auth requestData s.nonces).1 = .ok ()) :
    Guarded service (authStep service (now, .verifyAuth auth requestData) s) auth := by
  change Guarded service ⟨(service.verifyAuth now auth requestData s.nonces).2, _, now⟩ auth
  rcases service.verifyAuth_cases now auth requestData s.nonces with
    ⟨e, heq⟩ | ⟨nonce, hadmissible, hused, ⟨-, heq⟩ | ⟨cutoff, hcutoff, heq⟩⟩
  · rw [heq] at h
    cases h
  · rw [heq] at h
    cases h
  obtain ⟨t, ht, -, hfuture⟩ := checkAge_ok hadmissible.age
  refine ⟨nonce, t, hadmissible.uuid, ht, ?_⟩
  have hinsert : (s.nonces.insert nonce now).get? nonce = some now := by
    rw [get?_insert hused, if_pos rfl]
  rw [heq]
  rcases get?_retain hcutoff hinsert with hstays | hdropped
  · exact Or.inr ⟨now, hstays, hfuture⟩
  · exact Or.inl (old_of_dropped hdropped hfuture)

theorem Guarded.remembered (h : Guarded service s auth) : Remembered service auth s.nonces ∨ OutOfDate service auth s.now := by
  obtain ⟨nonce, t, hnonce, ht, hcase⟩ := h
  rcases hcase with hold | ⟨stored, hstored, -⟩
  · exact Or.inr (fun later hlater => ⟨_, checkAge_of_old ht hold hlater⟩)
  · exact Or.inl ⟨nonce, hnonce, by simp [hstored]⟩

structure AcceptedOnce (service : MinerAuthService) (s : AuthHistory) : Prop where
  once : s.accepted.Pairwise (fun a b => ¬ SameRecord a b)
  guarded : ∀ auth ∈ s.accepted, Guarded service s auth

theorem AcceptedOnce.step (h : AcceptedOnce service s) (hnow : s.now ≤ now) (call : AuthCall) :
    AcceptedOnce service (authStep service (now, call) s) := by
  have hguarded := fun auth hauth => (h.guarded auth hauth).step hnow call
  cases call with
  | cleanupExpiredNonces => exact ⟨h.once, hguarded⟩
  | verifyAuth auth requestData =>
    by_cases haccepted : (service.verifyAuth now auth requestData s.nonces).1 = .ok ()
    · have hlog : (authStep service (now, .verifyAuth auth requestData) s).accepted = auth :: s.accepted := if_pos haccepted
      constructor
      · rw [hlog, pairwise_cons]
        refine ⟨?_, h.once⟩
        intro old hold hsame
        exact (h.guarded old hold).rejected hnow ⟨hsame.1.symm, hsame.2.symm⟩ requestData haccepted
      · rw [hlog]
        intro a ha
        rcases mem_cons.mp ha with rfl | ha
        · exact guarded_of_accepted haccepted
        · exact hguarded a ha
    · have hlog : (authStep service (now, .verifyAuth auth requestData) s).accepted = s.accepted := if_neg haccepted
      constructor
      · rw [hlog]
        exact h.once
      · rw [hlog]
        exact hguarded

theorem no_record_accepted_twice (service : MinerAuthService) (t : Time) (l : List (Time × AuthCall))
    (hclock : EachStep (authStep service) (fun call s => s.now ≤ call.1) l (.start t)) :
    Throughout (authStep service) (fun s => s.accepted.Pairwise (fun a b => ¬ SameRecord a b) ∧
      ∀ auth ∈ s.accepted, Remembered service auth s.nonces ∨ OutOfDate service auth s.now) l (.start t) := by
  have hstart : AcceptedOnce service (.start t) := ⟨List.Pairwise.nil, fun auth hauth => absurd hauth not_mem_nil⟩
  refine throughout_of_step (I := AcceptedOnce service) ?_ ?_ hstart hclock
  · rintro ⟨now, call⟩ s h hnow
    exact h.step hnow call
  · intro s h
    exact ⟨h.once, fun auth hauth => (h.guarded auth hauth).remembered⟩

def plainService : MinerAuthService where
  lossyText bytes := String.ofList (bytes.map (fun b => Char.ofNat b.toNat))
  parseUuid text := if text = "n" then some 0 else none
  blake3 _ := 0
  verifySignature _ signatureHex _ := signatureHex = "05"
  config := .new "miner"

def plainAuth : MinerAuthentication := ⟨"miner", 0, [110], [5], []⟩

theorem replays_after_clean_up : Throughout (authStep plainService) (fun s => s.accepted.Pairwise (fun a b => ¬ SameRecord a b) ∧
      ∀ auth ∈ s.accepted, Remembered plainService auth s.nonces ∨ OutOfDate plainService auth s.now)
    [(0, .verifyAuth plainAuth []), (4 * minute, .verifyAuth plainAuth []), (2 * hour, .cleanupExpiredNonces),
      (2 * hour, .verifyAuth plainAuth [])] (.start 0) :=
  no_record_accepted_twice plainService 0 _ (by decide +kernel)

example : (last (authStep plainService) [(0, .verifyAuth plainAuth []), (minute, .verifyAuth plainAuth [])] (.start 0)).accepted =
    [plainAuth] := by
  decide +kernel

end Runs

section Rejections

variable (service : MinerAuthService)

def acceptances : List (Time × MinerAuthentication × Bytes) → Nonces → List Bool
  | [], _ => []
  | (now, auth, requestData) :: later, used =>
    let (result, nonces) := service.verifyAuth now auth requestData used
    decide (result = .ok ()) :: acceptances later nonces

variable {service} {cutoff : Time}

theorem get?_stored (hadmissible : service.Admissible now auth nonce) (hcutoff : service.cutoff now = some cutoff)
    (hused : used.get? nonce = none) : (retain cutoff (used.insert nonce now)).get? nonce = some now := by
  have hinsert : (used.insert nonce now).get? nonce = some now := by
    rw [get?_insert hused, if_pos rfl]
  apply (get?_retain hcutoff hinsert).resolve_right
  obtain ⟨t, -, hold, hfuture⟩ := checkAge_ok hadmissible.age
  have hlonger : minute < hour := by decide
  linarith

theorem verifyAuth_of_admissible (h : service.Admissible now auth nonce) (hcutoff : service.cutoff now = some cutoff)
    (requestData : Bytes) (used : Nonces) : service.verifyAuth now auth requestData used =
      if (used.get? nonce).isSome then (.error .nonceUsed, used)
      else (service.checkSignature auth requestData, retain cutoff (used.insert nonce now)) := by
  simp only [verifyAuth, h.miner, h.age, h.uuid, hcutoff, ne_eq, not_true_eq_false, if_false]

theorem rejected_without_trace_iff (service : MinerAuthService) (now : Time) (auth : MinerAuthentication) (requestData : Bytes)
    (used : Nonces) (hsigns : ∃ signature : Bytes, service.checkSignature { auth with signature := signature } requestData = .ok ())
    (hcutoff : (service.cutoff now).isSome) :
    (∀ later, acceptances service later (service.verifyAuth now auth requestData used).2 = acceptances service later used) ↔
      ∀ nonce, service.Admissible now auth nonce → used.get? nonce ≠ none := by
  obtain ⟨cutoff, hcutoff⟩ := isSome_iff_exists.mp hcutoff
  constructor
  · intro h nonce hadmissible hused
    -- the genuine request that has the nonce of this one is then refused
    obtain ⟨signature, hgenuine⟩ := hsigns
    have hsame := h [(now, { auth with signature := signature }, requestData)]
    have hgenuineAdmissible : service.Admissible now { auth with signature := signature } nonce :=
      ⟨hadmissible.miner, hadmissible.age, hadmissible.uuid⟩
    simp only [acceptances, verifyAuth_of_admissible hadmissible hcutoff, verifyAuth_of_admissible hgenuineAdmissible hcutoff, hused,
      hgenuine, get?_stored hadmissible hcutoff hused, isSome_none, isSome_some, if_true, Bool.false_eq_true, if_false] at hsame
    exact absurd hsame (by decide)
  · intro h later
    rcases service.verifyAuth_cases now auth requestData used with ⟨e, heq⟩ | ⟨nonce, hadmissible, hused, -⟩
    · rw [heq]
    · exact absurd hused (h nonce hadmissible)

def forgedAuth : MinerAuthentication := { plainAuth with signature := [] }

theorem rejected_without_trace_forged :
    ¬ ∀ later, acceptances plainService later (plainService.verifyAuth 0 forgedAuth [] .empty).2 = acceptances plainService later .empty := by
  rw [rejected_without_trace_iff plainService 0 forgedAuth [] .empty ⟨[5], by decide +kernel⟩ (by decide +kernel)]
  intro h
  exact h 0 ⟨rfl, by decide +kernel, by decide +kernel⟩ rfl

theorem forged_request_blocks_genuine : acceptances plainService [(0, plainAuth, [])] .empty = [true] ∧
      acceptances plainService [(0, forgedAuth, []), (0, plainAuth, [])] .empty = [false, false] := by
  decide +kernel

end Rejections

end Basilica.Executor
