import Basilica.SshSessions
import Basilica.WireFormat

/-!
The requests that a miner signs for an executor. What is signed is the hash of the request's bytes, in which the type of the
request has no place: a health check is, byte for byte, a provisioning of access.
-/

namespace Basilica.Executor.Control

open AssocMaps WireFormat MinerAuthService List Option

abbrev TextMap := AssocMap String String

structure ResourceLimits where
  maxCpuCores : UInt32
  maxMemoryMb : UInt64
  maxStorageMb : UInt64
  maxContainers : UInt32
  maxBandwidthMbps : Double
  maxGpus : UInt32

structure ContainerSpec where
  image : String
  environment : TextMap
  portMappings : TextMap
  volumeMounts : TextMap
  resourceLimits : Option ResourceLimits
  command : List String
  workingDirectory : String
  user : String
  gpuRequirements : List String
  networkMode : String

structure ProvisionAccessRequest where
  validatorHotkey : String
  sshPublicKey : String
  accessToken : String
  durationSeconds : UInt64
  accessType : String
  config : TextMap

structure SystemProfileRequest where
  sessionKey : String
  keyMapping : TextMap
  profileDepth : String
  includeBenchmarks : Bool
  validatorHotkey : String

structure BenchmarkRequest where
  benchmarkType : String
  durationSeconds : UInt64
  parameters : TextMap
  validatorHotkey : String

structure ContainerOpRequest where
  operation : String
  containerSpec : Option ContainerSpec
  containerId : String
  sshPublicKey : String
  parameters : TextMap
  validatorHotkey : String

structure HealthCheckRequest where
  requester : String
  checkType : String

inductive RequestType
  | provisionAccess
  | systemProfile
  | benchmark
  | containerOp
  | healthCheck
deriving DecidableEq

inductive ControlRequest
  | provisionAccess (message : ProvisionAccessRequest)
  | systemProfile (message : SystemProfileRequest)
  | benchmark (message : BenchmarkRequest)
  | containerOp (message : ContainerOpRequest)
  | healthCheck (message : HealthCheckRequest)

def ControlRequest.type : ControlRequest → RequestType
  | provisionAccess _ => .provisionAccess
  | systemProfile _ => .systemProfile
  | benchmark _ => .benchmark
  | containerOp _ => .containerOp
  | healthCheck _ => .healthCheck

section Encoding

def ResourceLimits.encode (m : ResourceLimits) : List UInt8 :=
  encodeMessage [number m.maxCpuCores.toNat, number m.maxMemoryMb.toNat, number m.maxStorageMb.toNat,
    number m.maxContainers.toNat, double m.maxBandwidthMbps, number m.maxGpus.toNat]

def ContainerSpec.encode (m : ContainerSpec) : List UInt8 :=
  encodeMessage [text m.image, entries m.environment.entries, entries m.portMappings.entries, entries m.volumeMounts.entries,
    message (m.resourceLimits.map ResourceLimits.encode), texts m.command, text m.workingDirectory, text m.user,
    texts m.gpuRequirements, text m.networkMode]

def ProvisionAccessRequest.encode (m : ProvisionAccessRequest) : List UInt8 :=
  encodeMessage [text m.validatorHotkey, text m.sshPublicKey, text m.accessToken, number m.durationSeconds.toNat,
    text m.accessType, entries m.config.entries]

def SystemProfileRequest.encode (m : SystemProfileRequest) : List UInt8 :=
  encodeMessage [text m.sessionKey, entries m.keyMapping.entries, text m.profileDepth, flag m.includeBenchmarks,
    text m.validatorHotkey]

def BenchmarkRequest.encode (m : BenchmarkRequest) : List UInt8 :=
  encodeMessage [text m.benchmarkType, number m.durationSeconds.toNat, entries m.parameters.entries, text m.validatorHotkey]

def ContainerOpRequest.encode (m : ContainerOpRequest) : List UInt8 :=
  encodeMessage [text m.operation, message (m.containerSpec.map ContainerSpec.encode), text m.containerId, text m.sshPublicKey,
    entries m.parameters.entries, text m.validatorHotkey]

variable (m : HealthCheckRequest)

def HealthCheckRequest.encode : List UInt8 := encodeMessage [text m.requester, text m.checkType]

def ControlRequest.encode : ControlRequest → List UInt8
  | provisionAccess m => m.encode
  | systemProfile m => m.encode
  | benchmark m => m.encode
  | containerOp m => m.encode
  | healthCheck m => m.encode

def ResourceLimits.normal (m : ResourceLimits) : ResourceLimits := { m with maxBandwidthMbps := m.maxBandwidthMbps.normal }

def ContainerSpec.normal (m : ContainerSpec) : ContainerSpec := { m with resourceLimits := m.resourceLimits.map ResourceLimits.normal }

def ContainerOpRequest.normal (m : ContainerOpRequest) : ContainerOpRequest :=
  { m with containerSpec := m.containerSpec.map ContainerSpec.normal }

def ControlRequest.normal : ControlRequest → ControlRequest
  | containerOp m => .containerOp m.normal
  | request => request

theorem ControlRequest.type_normal (request : ControlRequest) : request.normal.type = request.type := by
  cases request <;> rfl

theorem map_ext {m m' : TextMap} (h : entries m.entries = entries m'.entries) : m = m' := by
  have hentries := entries_inj h
  cases m
  cases m'
  cases hentries
  rfl

theorem option_inj {α : Type} {encode : α → List UInt8} {normal : α → α} (hinj : ∀ a b, encode a = encode b → normal a = normal b)
    {o o' : Option α} (h : message (o.map encode) = message (o'.map encode)) : o.map normal = o'.map normal := by
  have hmap := message_inj h
  cases o with
  | none =>
    cases o' with
    | none => rfl
    | some b => cases hmap
  | some a =>
    cases o' with
    | none => cases hmap
    | some b => rw [map_some, map_some, hinj a b (some.inj hmap)]

theorem ResourceLimits.normal_of_encode (a b : ResourceLimits) (h : a.encode = b.encode) : a.normal = b.normal := by
  have hfields := encodeMessage_inj h rfl
  simp only [List.cons.injEq, and_true] at hfields
  obtain ⟨hcpu, hmemory, hstorage, hcontainers, hbandwidth, hgpus⟩ := hfields
  rw [normal, normal, UInt32.toNat_inj.mp (number_inj hcpu), UInt64.toNat_inj.mp (number_inj hmemory),
    UInt64.toNat_inj.mp (number_inj hstorage), UInt32.toNat_inj.mp (number_inj hcontainers), double_inj hbandwidth,
    UInt32.toNat_inj.mp (number_inj hgpus)]

theorem ContainerSpec.normal_of_encode (a b : ContainerSpec) (h : a.encode = b.encode) : a.normal = b.normal := by
  have hfields := encodeMessage_inj h rfl
  simp only [List.cons.injEq, and_true] at hfields
  obtain ⟨himage, henvironment, hports, hvolumes, hlimits, hcommand, hdirectory, huser, hgpus, hnetwork⟩ := hfields
  rw [normal, normal, text_inj himage, map_ext henvironment, map_ext hports, map_ext hvolumes,
    option_inj ResourceLimits.normal_of_encode hlimits, texts_inj hcommand, text_inj hdirectory, text_inj huser,
    texts_inj hgpus, text_inj hnetwork]

theorem ContainerOpRequest.normal_of_encode {a b : ContainerOpRequest} (h : a.encode = b.encode) : a.normal = b.normal := by
  have hfields := encodeMessage_inj h rfl
  simp only [List.cons.injEq, and_true] at hfields
  obtain ⟨hoperation, hspec, hid, hkey, hparameters, hhotkey⟩ := hfields
  rw [normal, normal, text_inj hoperation, option_inj ContainerSpec.normal_of_encode hspec, text_inj hid, text_inj hkey,
    map_ext hparameters, text_inj hhotkey]

theorem ProvisionAccessRequest.encode_inj {a b : ProvisionAccessRequest} (h : a.encode = b.encode) : a = b := by
  have hfields := encodeMessage_inj h rfl
  simp only [List.cons.injEq, and_true] at hfields
  obtain ⟨hhotkey, hkey, htoken, hduration, htype, hconfig⟩ := hfields
  rw [ProvisionAccessRequest.mk.injEq]
  exact ⟨text_inj hhotkey, text_inj hkey, text_inj htoken, UInt64.toNat_inj.mp (number_inj hduration), text_inj htype,
    map_ext hconfig⟩

theorem SystemProfileRequest.encode_inj {a b : SystemProfileRequest} (h : a.encode = b.encode) : a = b := by
  have hfields := encodeMessage_inj h rfl
  simp only [List.cons.injEq, and_true] at hfields
  obtain ⟨hsession, hmapping, hdepth, hbenchmarks, hhotkey⟩ := hfields
  rw [SystemProfileRequest.mk.injEq]
  exact ⟨text_inj hsession, map_ext hmapping, text_inj hdepth, flag_inj hbenchmarks, text_inj hhotkey⟩

theorem BenchmarkRequest.encode_inj {a b : BenchmarkRequest} (h : a.encode = b.encode) : a = b := by
  have hfields := encodeMessage_inj h rfl
  simp only [List.cons.injEq, and_true] at hfields
  obtain ⟨htype, hduration, hparameters, hhotkey⟩ := hfields
  rw [BenchmarkRequest.mk.injEq]
  exact ⟨text_inj htype, UInt64.toNat_inj.mp (number_inj hduration), map_ext hparameters, text_inj hhotkey⟩

theorem HealthCheckRequest.encode_inj {a b : HealthCheckRequest} (h : a.encode = b.encode) : a = b := by
  have hfields := encodeMessage_inj h rfl
  simp only [List.cons.injEq, and_true] at hfields
  rw [HealthCheckRequest.mk.injEq]
  exact ⟨text_inj hfields.1, text_inj hfields.2⟩

theorem ControlRequest.normal_of_encode {q r : ControlRequest} (htype : q.type = r.type) (h : q.encode = r.encode) :
    q.normal = r.normal := by
  cases q <;> cases r <;> cases htype
  case provisionAccess.provisionAccess a b => rw [ProvisionAccessRequest.encode_inj h]
  case systemProfile.systemProfile a b => rw [SystemProfileRequest.encode_inj h]
  case benchmark.benchmark a b => rw [BenchmarkRequest.encode_inj h]
  case containerOp.containerOp a b =>
    rw [normal, normal, ContainerOpRequest.normal_of_encode h]
  case healthCheck.healthCheck a b => rw [HealthCheckRequest.encode_inj h]

def HealthCheckRequest.asProvisionAccess : ProvisionAccessRequest :=
  ⟨m.requester, m.checkType, "", 0, "", .empty⟩

theorem encode_asProvisionAccess : m.asProvisionAccess.encode = m.encode :=
  encodeMessage_append_nil [text m.requester, text m.checkType] 4

end Encoding

section Verification

variable (service : MinerAuthService) (miner : Miner.ExecutorAuthService)

def verifyMinerRequest (now : Time) (request : ControlRequest) (auth : Option MinerAuthentication) (used : Nonces) :
    Except Status Unit × Nonces :=
  match auth with
  | none => (.error ⟨.unauthenticated, "Missing authentication"⟩, used)
  | some auth =>
    let (result, nonces) := service.verifyAuth now auth request.encode used
    (result.mapError (fun e => ⟨.unauthenticated, s!"Authentication failed: {e.message}"⟩), nonces)

structure Signing where
  parts : Miner.AuthParts
  request : ControlRequest
  auth : MinerAuthentication
  made : miner.createAuth parts request.encode = .ok auth

structure Paired : Prop where
  hotkey : miner.minerHotkey = service.config.managingMinerHotkey
  checked : service.config.verifySignatures = true
  blake3 : miner.blake3 = service.blake3
  lossyText : ∀ text, service.lossyText (utf8 text) = text
  verifies : ∀ data signature, miner.sign data = some signature →
    service.verifySignature service.config.managingMinerHotkey (hexEncode signature) data = true

variable {miner}

def Timely (e : Signing miner) : Prop :=
  ∃ now nonce cutoff, service.parseUuid e.parts.nonce = some nonce ∧ service.checkAge now e.auth = .ok () ∧
    service.cutoff now = some cutoff

def SignedFor (e : Signing miner) (auth : MinerAuthentication) (r : ControlRequest) : Prop :=
  miner.createCanonicalData e.parts e.request.encode = service.createCanonicalData auth r.encode

variable {service} {auth : MinerAuthentication}

theorem createAuth_ok {parts : Miner.AuthParts} {data : List UInt8} (h : miner.createAuth parts data = .ok auth) :
    ∃ signature, miner.sign (miner.createCanonicalData parts data) = some signature ∧
      auth = ⟨miner.minerHotkey, parts.timestampMs, utf8 parts.nonce, signature, utf8 parts.requestId⟩ := by
  rw [Miner.ExecutorAuthService.createAuth] at h
  cases hsign : miner.sign (miner.createCanonicalData parts data) with
  | none =>
    rw [hsign] at h
    cases h
  | some signature =>
    rw [hsign] at h
    cases h
    exact ⟨signature, rfl, rfl⟩

theorem createCanonicalData_eq (hpaired : Paired service miner) (e : Signing miner) (data : List UInt8) :
    service.createCanonicalData e.auth data = miner.createCanonicalData e.parts data := by
  obtain ⟨signature, -, hauth⟩ := createAuth_ok e.made
  have hnonce : service.lossyText e.auth.nonce = e.parts.nonce := by
    rw [hauth]
    exact hpaired.lossyText e.parts.nonce
  have hid : service.lossyText e.auth.requestId = e.parts.requestId := by
    rw [hauth]
    exact hpaired.lossyText e.parts.requestId
  have hhotkey : e.auth.minerHotkey = miner.minerHotkey := by rw [hauth]
  have htime : e.auth.timestampMs = e.parts.timestampMs := by rw [hauth]
  unfold createCanonicalData Miner.ExecutorAuthService.createCanonicalData
  rw [hnonce, hid, hhotkey, htime, hpaired.blake3]

variable {e : Signing miner} {r : ControlRequest}

section

variable (hpaired : Paired service miner)

include hpaired

theorem blake3_of_signedFor
    (h : SignedFor service e auth r) : service.blake3 e.request.encode = service.blake3 r.encode := by
  obtain ⟨head, hchecked⟩ : ∃ head, service.createCanonicalData auth r.encode =
      head ++ ColumnText.encodeHex (service.blake3 r.encode) := ⟨_, rfl⟩
  obtain ⟨head', hsigned⟩ : ∃ head, miner.createCanonicalData e.parts e.request.encode =
      head ++ ColumnText.encodeHex (miner.blake3 e.request.encode) := ⟨_, rfl⟩
  rw [SignedFor, hchecked, hsigned] at h
  rw [← (ColumnText.append_encodeHex_inj h).2, hpaired.blake3]

theorem verifyMinerRequest_checked {now : Time}
    {auth : Option MinerAuthentication} {used : Nonces} (h : (verifyMinerRequest service now r auth used).1 = .ok ()) :
    ∃ record, auth = some record ∧ service.verifySignature service.config.managingMinerHotkey (hexEncode record.signature)
      (service.createCanonicalData record r.encode) = true := by
  cases auth with
  | none => cases h
  | some record =>
    refine ⟨record, rfl, ?_⟩
    simp only [verifyMinerRequest] at h
    cases hverify : (service.verifyAuth now record r.encode used).1 with
    | error e =>
      rw [hverify] at h
      cases h
    | ok _ =>
      obtain ⟨nonce, -, -, hsignature⟩ := verifyAuth_ok hverify
      rw [checkSignature] at hsignature
      split_ifs at hsignature with hrejected
      rw [← Bool.not_eq_false]
      intro hfalse
      exact hrejected ⟨hpaired.checked, hfalse⟩

theorem verifyMinerRequest_of_encode (htimely : Timely service e) (hencode : e.request.encode = r.encode) :
    ∃ now, (verifyMinerRequest service now r (some e.auth) .empty).1 = .ok () := by
  obtain ⟨now, nonce, cutoff, huuid, hage, hcutoff⟩ := htimely
  obtain ⟨signature, hsign, hauth⟩ := createAuth_ok e.made
  have hminer : e.auth.minerHotkey = service.config.managingMinerHotkey := by
    rw [hauth]
    exact hpaired.hotkey
  have hnonce : service.nonceUuid e.auth = some nonce := by
    rw [nonceUuid, hauth, hpaired.lossyText, huuid]
  have hvalid : service.checkSignature e.auth r.encode = .ok () := by
    have hverifies := hpaired.verifies _ signature hsign
    rw [← createCanonicalData_eq hpaired e] at hverifies
    rw [checkSignature, ← hencode, if_neg]
    rintro ⟨-, hfalse⟩
    rw [hauth] at hfalse hverifies
    rw [hverifies] at hfalse
    cases hfalse
  have hfresh : (AssocMap.empty : Nonces).get? nonce = none := rfl
  refine ⟨now, ?_⟩
  simp only [verifyMinerRequest, verifyAuth, hminer, hage, hnonce, hfresh, hcutoff, hvalid, ne_eq,
    not_true_eq_false, if_false, isSome_none, Bool.false_eq_true]
  rfl

end

end Verification

theorem accepted_as_signed_iff {service : MinerAuthService} {miner : Miner.ExecutorAuthService} (hpaired : Paired service miner)
    (signed : List (Signing miner)) (htimely : ∀ e ∈ signed, Timely service e)
    (hforge : ∀ signature auth data, service.verifySignature service.config.managingMinerHotkey signature
      (service.createCanonicalData auth data) = true →
        ∃ e ∈ signed, miner.createCanonicalData e.parts e.request.encode = service.createCanonicalData auth data)
    (r : ControlRequest)
    (hcollision : ∀ e ∈ signed, service.blake3 e.request.encode = service.blake3 r.encode → e.request.encode = r.encode) :
    (∀ now auth used, (verifyMinerRequest service now r (some auth) used).1 = .ok () →
      (∃ e ∈ signed, e.request.normal = r.normal) ∧ ∀ e ∈ signed, SignedFor service e auth r → e.request.normal = r.normal) ↔
      ∀ e ∈ signed, e.request.encode = r.encode → e.request.type = r.type := by
  constructor
  · intro haccepted e he hencode
    obtain ⟨now, hok⟩ := verifyMinerRequest_of_encode hpaired (htimely e he) hencode
    have hfor : SignedFor service e e.auth r := by
      rw [SignedFor, createCanonicalData_eq hpaired e, hencode]
    rw [← e.request.type_normal, (haccepted now e.auth .empty hok).2 e he hfor, r.type_normal]
  · intro hseparate now auth used hok
    have hsame : ∀ e ∈ signed, SignedFor service e auth r → e.request.normal = r.normal := by
      intro e he hfor
      have hencode := hcollision e he (blake3_of_signedFor hpaired hfor)
      exact ControlRequest.normal_of_encode (hseparate e he hencode) hencode
    obtain ⟨record, hrecord, hvalid⟩ := verifyMinerRequest_checked hpaired hok
    cases hrecord
    obtain ⟨e, he, hfor⟩ := hforge _ auth r.encode hvalid
    exact ⟨⟨e, he, hsame e he hfor⟩, hsame⟩

section Known

def knownParts : Miner.AuthParts := ⟨1000, "n", "r"⟩

def knownHash (data : List UInt8) : BitVec (4 * 64) := BitVec.ofNat _ (data.foldl (fun h b => 257 * h + b.toNat) 1)

variable (request : ControlRequest)

def knownText : String :=
  (⟨"miner", knownHash, fun _ => none⟩ : Miner.ExecutorAuthService).createCanonicalData knownParts request.encode

def knownMiner : Miner.ExecutorAuthService :=
  ⟨"miner", knownHash, fun data => if data = knownText request then some [5] else none⟩

def knownService : MinerAuthService where
  lossyText := fromUtf8
  parseUuid text := if text = "n" then some 0 else none
  blake3 := knownHash
  verifySignature hotkey signatureHex data :=
    decide (hotkey = "miner" ∧ signatureHex = hexEncode [5] ∧ data = knownText request)
  config := .new "miner"

theorem knownText_eq : (knownMiner request).createCanonicalData knownParts request.encode = knownText request := rfl

theorem sign_knownText : (knownMiner request).sign (knownText request) = some [5] := by
  simp only [knownMiner, if_true]

def knownAuth : MinerAuthentication :=
  ⟨"miner", knownParts.timestampMs, knownParts.nonce.toUTF8.toList, [5], knownParts.requestId.toUTF8.toList⟩

theorem known_made : (knownMiner request).createAuth knownParts request.encode = .ok knownAuth := by
  rw [Miner.ExecutorAuthService.createAuth, knownText_eq, sign_knownText]
  rfl

def knownSigning : Signing (knownMiner request) := ⟨knownParts, request, knownAuth, known_made request⟩

theorem known_paired : Paired (knownService request) (knownMiner request) where
  hotkey := rfl
  checked := rfl
  blake3 := rfl
  lossyText := fromUtf8_utf8
  verifies := by
    intro data signature h
    simp only [knownMiner] at h
    split_ifs at h with hdata
    cases h
    exact decide_eq_true ⟨rfl, rfl, hdata⟩

theorem known_timely : ∀ e ∈ [knownSigning request], Timely (knownService request) e := by
  intro e he
  rw [mem_singleton.mp he]
  have htime : timestamp knownAuth = some (10 ^ 9) := by decide
  have huuid : (knownService request).parseUuid knownParts.nonce = some 0 := by
    simp only [knownService, knownParts, if_true]
  have hyoung : ¬ (5 * minute < (10 ^ 9 - 10 ^ 9 : Time)) := by decide
  have hpast : ¬ ((10 ^ 9 - 10 ^ 9 : Time) < 0 ∧ minute < |(10 ^ 9 - 10 ^ 9 : Time)|) := by decide
  have hage : (knownService request).checkAge (10 ^ 9) knownAuth = .ok () := by
    simp only [checkAge, htime]
    exact (if_neg hyoung).trans (if_neg hpast)
  have hrange : minUtc ≤ (10 ^ 9 : Time) - 5 * minute - hour := by decide
  have hcutoff : (knownService request).cutoff (10 ^ 9) = some (10 ^ 9 - 5 * minute - hour) := by
    rw [cutoff]
    exact if_pos hrange
  exact ⟨10 ^ 9, 0, _, huuid, hage, hcutoff⟩

def accessRequest : ControlRequest := .provisionAccess ⟨"validator", "ssh-ed25519 AAAA", "", 3600, "ssh", .empty⟩

theorem access_accepted_as_signed :
    (∃ now, (verifyMinerRequest (knownService accessRequest) now accessRequest (some (knownSigning accessRequest).auth) .empty).1 =
      .ok ()) ∧
    ∀ now auth used, (verifyMinerRequest (knownService accessRequest) now accessRequest (some auth) used).1 = .ok () →
      (∃ e ∈ [knownSigning accessRequest], e.request.normal = accessRequest.normal) ∧
        ∀ e ∈ [knownSigning accessRequest], SignedFor (knownService accessRequest) e auth accessRequest →
          e.request.normal = accessRequest.normal := by
  have hrequest : ∀ e ∈ [knownSigning accessRequest], e.request = accessRequest := by
    intro e he
    rw [mem_singleton.mp he]
    rfl
  constructor
  · exact verifyMinerRequest_of_encode (known_paired _) (known_timely _ _ (mem_singleton_self _)) rfl
  · apply (accepted_as_signed_iff (known_paired accessRequest) [knownSigning accessRequest] (known_timely accessRequest) ?_
      accessRequest ?_).mpr
    · intro e he _
      rw [hrequest e he]
    · intro signature auth data h
      have hvalid := of_decide_eq_true h
      exact ⟨_, mem_singleton_self _, hvalid.2.2.symm⟩
    · intro e he _
      rw [hrequest e he]

def basicCheck : HealthCheckRequest := ⟨"validator", "basic"⟩

theorem health_check_accepted_as_provisioning :
    (∃ now, (verifyMinerRequest (knownService (.healthCheck basicCheck)) now (.provisionAccess basicCheck.asProvisionAccess)
      (some (knownSigning (.healthCheck basicCheck)).auth) .empty).1 = .ok ()) ∧
    ∀ e ∈ [knownSigning (.healthCheck basicCheck)],
      e.request.type ≠ (ControlRequest.provisionAccess basicCheck.asProvisionAccess).type := by
  constructor
  · refine verifyMinerRequest_of_encode (known_paired _) (known_timely _ _ (mem_singleton_self _)) ?_
    exact (encode_asProvisionAccess basicCheck).symm
  · intro e he
    rw [mem_singleton.mp he]
    decide

end Known

end Basilica.Executor.Control
