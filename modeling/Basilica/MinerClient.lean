import Basilica.StepRuns

/-!
The validator's client of a miner. It sends a signed request with a nonce of its own and takes the miner's signed response as
the miner's authentication. The network may hand any response to any call.
-/

namespace Basilica.Validator.MinerClients

open StepRuns List

section Client

structure MinerClientConfig where
  maxRetries : ℕ
  grpcPortOffset : Option ℕ
  useTls : Bool
  requireMinerSignature : Bool

def MinerClientConfig.default : MinerClientConfig := ⟨3, none, false, true⟩

structure Url where
  host : Option String
  port : Option ℕ

structure MinerClient where
  config : MinerClientConfig
  validatorHotkey : String
  signer : Option (String → Except String String)
  parseUrl : String → Except String Url
  connect : String → Except String Unit
  newHotkey : String → Except String Unit
  verifySignature : (hotkey signature data : String) → Except String Unit

structure MinerAuthResponse where
  authenticated : Bool
  sessionToken : String
  error : Option String
  minerHotkey : String
  minerSignature : String
  responseNonce : String

variable (client : MinerClient)

def createValidatorSignature (payload : String) : Except String String :=
  match client.signer with
  | some sign => match sign payload with
    | .ok signature => .ok signature
    | .error e => .error ("Failed to create validator signature: " ++ e)
  | none => .error "No signer provided for validator signature creation"

def axonToGrpcEndpoint (axonEndpoint : String) : Except String String :=
  match client.parseUrl axonEndpoint with
  | .error _ => .error ("Failed to parse axon endpoint: " ++ axonEndpoint)
  | .ok url => match url.host, url.port with
    | none, _ => .error "No host in axon endpoint"
    | some _, none => .error "No port in axon endpoint"
    | some host, some port =>
      let grpcPort := (port + client.config.grpcPortOffset.getD 0) % 65536
      .ok ((if client.config.useTls then "https" else "http") ++ "://" ++ host ++ ":" ++ toString grpcPort)

def retryGrpcCall (replies : List (Except String MinerAuthResponse)) (attempt : ℕ) : Option (Except String MinerAuthResponse) :=
  match replies with
  | [] => none
  | .ok response :: _ => some (.ok response)
  | .error _ :: rest =>
    if client.config.maxRetries ≤ attempt + 1 then
      some (.error ("Failed after " ++ toString client.config.maxRetries ++ " attempts with exponential backoff"))
    else retryGrpcCall rest (attempt + 1)

def canonicalData (validatorHotkey responseNonce sessionToken : String) : String :=
  "MINER_AUTH_RESPONSE:" ++ validatorHotkey ++ ":" ++ responseNonce ++ ":" ++ sessionToken

def checkResponse (targetMinerHotkey : String) (response : MinerAuthResponse) : Except String String :=
  if response.authenticated = false then .error ("Authentication failed: " ++ response.error.getD "Unknown error")
  else if response.minerHotkey ≠ "" ∧ response.minerSignature ≠ "" then
    match client.newHotkey response.minerHotkey with
    | .error e => .error ("Invalid miner hotkey: " ++ e)
    | .ok () =>
      match client.verifySignature response.minerHotkey response.minerSignature
          (canonicalData client.validatorHotkey response.responseNonce response.sessionToken) with
      | .error e => .error ("Miner signature verification failed: " ++ e)
      | .ok () =>
        if response.minerHotkey ≠ targetMinerHotkey then
          .error ("Security violation: Miner hotkey mismatch. Expected " ++ targetMinerHotkey ++ ", but got " ++ response.minerHotkey)
        else .ok response.sessionToken
  else if client.config.requireMinerSignature then .error "Miner authentication response missing required signature"
  else .ok response.sessionToken

structure Call where
  nonce : String
  axonEndpoint : String
  targetMinerHotkey : String
  timestamp : Int64
deriving DecidableEq

def signaturePayload (call : Call) : String := s!"BASILICA_AUTH_V1:{call.nonce}:{call.targetMinerHotkey}:{call.timestamp}"

def connectAndAuthenticate (call : Call) (replies : List (Except String MinerAuthResponse)) : Option (Except String String) :=
  match axonToGrpcEndpoint client call.axonEndpoint with
  | .error e => some (.error e)
  | .ok grpcEndpoint =>
    match client.connect grpcEndpoint with
    | .error _ => some (.error ("Failed to connect to miner at " ++ grpcEndpoint))
    | .ok () =>
      match createValidatorSignature client (signaturePayload call) with
      | .error e => some (.error e)
      | .ok _ =>
        match retryGrpcCall client replies 0 with
        | none => none
        | some (.error e) => some (.error e)
        | some (.ok response) => some (checkResponse client call.targetMinerHotkey response)

end Client

variable {call : Call} {replies : List (Except String MinerAuthResponse)} {token : String}

section Spec

variable {client : MinerClient} {response : MinerAuthResponse}

theorem retryGrpcCall_mem {attempt : ℕ}
    (h : retryGrpcCall client replies attempt = some (.ok response)) : .ok response ∈ replies := by
  induction replies generalizing attempt with
  | nil => cases h
  | cons reply rest ih =>
    cases reply with
    | ok first =>
      cases h
      exact mem_cons_self
    | error e =>
      rw [retryGrpcCall] at h
      split_ifs at h
      · cases h
      · exact mem_cons_of_mem _ (ih h)

theorem checkResponse_ok {target : String} (hrequire : client.config.requireMinerSignature = true)
    (h : checkResponse client target response = .ok token) : client.verifySignature target response.minerSignature
      (canonicalData client.validatorHotkey response.responseNonce response.sessionToken) = .ok () := by
  rw [checkResponse] at h
  by_cases hauthenticated : response.authenticated = false
  · rw [if_pos hauthenticated] at h
    cases h
  rw [if_neg hauthenticated] at h
  by_cases hsigned : response.minerHotkey ≠ "" ∧ response.minerSignature ≠ ""
  · rw [if_pos hsigned] at h
    cases hhotkey : client.newHotkey response.minerHotkey with
    | error e =>
      rw [hhotkey] at h
      cases h
    | ok x =>
      rw [hhotkey] at h
      cases hverify : client.verifySignature response.minerHotkey response.minerSignature
          (canonicalData client.validatorHotkey response.responseNonce response.sessionToken) with
      | error e =>
        rw [hverify] at h
        cases h
      | ok y =>
        rw [hverify] at h
        split_ifs at h with htarget
        rw [not_not] at htarget
        rw [← htarget]
        exact hverify
  · rw [if_neg hsigned, if_pos hrequire] at h
    cases h

theorem connectAndAuthenticate_ok
    (hrequire : client.config.requireMinerSignature = true) (h : connectAndAuthenticate client call replies = some (.ok token)) :
    ∃ response, .ok response ∈ replies ∧ client.verifySignature call.targetMinerHotkey response.minerSignature
      (canonicalData client.validatorHotkey response.responseNonce response.sessionToken) = .ok () := by
  rw [connectAndAuthenticate] at h
  cases hendpoint : axonToGrpcEndpoint client call.axonEndpoint with
  | error e =>
    rw [hendpoint] at h
    cases h
  | ok endpoint =>
    rw [hendpoint] at h
    dsimp only at h
    cases hconnect : client.connect endpoint with
    | error e =>
      rw [hconnect] at h
      cases h
    | ok x =>
      rw [hconnect] at h
      cases hsign : createValidatorSignature client (signaturePayload call) with
      | error e =>
        rw [hsign] at h
        cases h
      | ok signature =>
        rw [hsign] at h
        cases hretry : retryGrpcCall client replies 0 with
        | none =>
          rw [hretry] at h
          cases h
        | some reply =>
          rw [hretry] at h
          cases reply with
          | error e => cases h
          | ok response =>
            exact ⟨response, retryGrpcCall_mem hretry, checkResponse_ok hrequire (Option.some.inj h)⟩

end Spec

variable {w : World}

section Network

structure SignedResponse where
  miner : String
  requestNonce : String
  validatorHotkey : String
  responseNonce : String
  sessionToken : String
deriving DecidableEq

def SignedResponse.text (r : SignedResponse) : String := canonicalData r.validatorHotkey r.responseNonce r.sessionToken

structure World where
  signed : List SignedResponse
  executorRequests : List (String × String)
  opened : List Call
  accepted : List Call

def World.start : World := ⟨[], [], [], []⟩

inductive Event
  | open (call : Call)
  | respond (response : SignedResponse)
  | signExecutorRequest (miner payload : String)
  | deliver (call : Call) (replies : List (Except String MinerAuthResponse))

variable (client : MinerClient)

def step (e : Event) (w : World) : World :=
  match e with
  | .open call => { w with opened := call :: w.opened }
  | .respond response => { w with signed := response :: w.signed }
  | .signExecutorRequest miner payload => { w with executorRequests := (miner, payload) :: w.executorRequests }
  | .deliver call replies =>
    if call ∈ w.opened then
      match connectAndAuthenticate client call replies with
      | none => w
      | some (.error _) => { w with opened := w.opened.erase call }
      | some (.ok _) => { w with opened := w.opened.erase call, accepted := call :: w.accepted }
    else w

def HasSigned (w : World) (miner data : String) : Prop :=
  (∃ r ∈ w.signed, r.miner = miner ∧ r.text = data) ∨ ∃ p ∈ w.executorRequests, p.1 = miner ∧ "MINER_AUTH:" ++ p.2 = data

def Unforged (e : Event) (w : World) : Prop :=
  match e with
  | .deliver _ replies => ∀ response, .ok response ∈ replies → ∀ miner,
      client.verifySignature miner response.minerSignature
        (canonicalData client.validatorHotkey response.responseNonce response.sessionToken) = .ok () →
      HasSigned w miner (canonicalData client.validatorHotkey response.responseNonce response.sessionToken)
  | _ => True

def NotReplayed (e : Event) (w : World) : Prop :=
  match e with
  | .deliver call replies => ∀ response, .ok response ∈ replies → ∀ r ∈ w.signed,
      r.text = canonicalData client.validatorHotkey response.responseNonce response.sessionToken → r.requestNonce = call.nonce
  | _ => True

def Answered (w : World) : Prop := ∀ call ∈ w.accepted, ∃ r ∈ w.signed, r.miner = call.targetMinerHotkey ∧ r.requestNonce = call.nonce

variable {client}

theorem append_pieces (p a b c d e : String) : (p ++ a ++ b ++ c ++ d ++ e).toList = p.toList ++ (a ++ b ++ c ++ d ++ e).toList := by
  simp only [String.toList_append, append_assoc]

theorem canonicalData_ne (payload validatorHotkey responseNonce sessionToken : String) :
    "MINER_AUTH:" ++ payload ≠ canonicalData validatorHotkey responseNonce sessionToken := by
  intro h
  have hpayload : ("MINER_AUTH:" ++ payload).toList = "MINER_AUTH".toList ++ ':' :: payload.toList := String.toList_append
  have hdata : (canonicalData validatorHotkey responseNonce sessionToken).toList = "MINER_AUTH".toList ++ '_' ::
      ("RESPONSE:".toList ++ (validatorHotkey ++ ":" ++ responseNonce ++ ":" ++ sessionToken).toList) := append_pieces _ _ _ _ _ _
  rw [← h, hpayload] at hdata
  have hhead := (List.cons.inj (append_cancel_left hdata)).1
  exact absurd hhead (by decide)

theorem signed_of_connect
    (hrequire : client.config.requireMinerSignature = true) (hforge : Unforged client (.deliver call replies) w)
    (hfresh : NotReplayed client (.deliver call replies) w) (h : connectAndAuthenticate client call replies = some (.ok token)) :
    ∃ r ∈ w.signed, r.miner = call.targetMinerHotkey ∧ r.requestNonce = call.nonce := by
  obtain ⟨response, hmem, hverify⟩ := connectAndAuthenticate_ok hrequire h
  rcases hforge response hmem call.targetMinerHotkey hverify with ⟨r, hr, hminer, htext⟩ | ⟨p, _, _, htext⟩
  · exact ⟨r, hr, hminer, hfresh response hmem r hr htext⟩
  · exact absurd htext (canonicalData_ne _ _ _ _)

theorem signed_step (e : Event) {r : SignedResponse} (h : r ∈ w.signed) : r ∈ (step client e w).signed := by
  cases e with
  | respond response => exact mem_cons_of_mem _ h
  | deliver call replies =>
    rw [step]
    split_ifs
    · cases connectAndAuthenticate client call replies with
      | none => exact h
      | some result => cases result <;> exact h
    · exact h
  | _ => exact h

theorem answered_step (hrequire : client.config.requireMinerSignature = true) (e : Event) (hw : Answered w)
    (hok : Unforged client e w ∧ NotReplayed client e w) : Answered (step client e w) := by
  cases e with
  | «open» call | signExecutorRequest miner payload => exact hw
  | respond response =>
    intro call hcall
    obtain ⟨r, hr, hanswer⟩ := hw call hcall
    exact ⟨r, signed_step (.respond response) hr, hanswer⟩
  | deliver call replies =>
    rw [step]
    split_ifs
    · cases h : connectAndAuthenticate client call replies with
      | none => exact hw
      | some result =>
        cases result with
        | error e => exact hw
        | ok token =>
          intro call' hcall'
          rcases mem_cons.mp hcall' with rfl | hcall'
          · exact signed_of_connect hrequire hok.1 hok.2 h
          · exact hw call' hcall'
    · exact hw

/-- Where no response is replayed, each call that succeeds was answered by its target. -/
theorem accepted_calls_answered (client : MinerClient) (hrequire : client.config.requireMinerSignature = true) {l : List Event}
    (hforge : EachStep (step client) (Unforged client) l World.start) (hfresh : EachStep (step client) (NotReplayed client) l World.start) :
    Throughout (step client) Answered l World.start := by
  refine throughout_of_step (I := Answered) (fun e w hw hok => answered_step hrequire e hw hok) (fun _ hw => hw) ?_ (hforge.and hfresh)
  intro call hcall
  cases hcall

end Network

def minerResponse : MinerAuthResponse := ⟨true, "token-1", none, "m", "s1", "r1"⟩

def knownClient : MinerClient where
  config := .default
  validatorHotkey := "v"
  signer := some (fun _ => .ok "sv")
  parseUrl _ := .ok ⟨some "1.2.3.4", some 8091⟩
  connect _ := .ok ()
  newHotkey _ := .ok ()
  verifySignature hotkey signature data :=
    if hotkey = "m" ∧ signature = "s1" ∧ data = canonicalData "v" "r1" "token-1" then .ok () else .error "bad signature"

def firstCall : Call := ⟨"n1", "http://1.2.3.4:8091", "m", 1700000000⟩

def secondCall : Call := ⟨"n2", "http://1.2.3.4:8091", "m", 1700003600⟩

def answeredCall : List Event := [.open firstCall, .respond ⟨"m", "n1", "v", "r1", "token-1"⟩, .deliver firstCall [.ok minerResponse]]

def replayedCall : List Event := answeredCall ++ [.open secondCall, .deliver secondCall [.ok minerResponse]]

theorem unforged_minerResponse (h : ⟨"m", "n1", "v", "r1", "token-1"⟩ ∈ w.signed) (call : Call) :
    Unforged knownClient (.deliver call [.ok minerResponse]) w := by
  intro response hresponse miner hverify
  cases mem_singleton.mp hresponse
  simp only [knownClient] at hverify
  split_ifs at hverify with hknown
  exact Or.inl ⟨_, h, hknown.1.symm, rfl⟩

theorem answered_call_accepted : EachStep (step knownClient) (Unforged knownClient) answeredCall World.start ∧
    EachStep (step knownClient) (NotReplayed knownClient) answeredCall World.start ∧
    (last (step knownClient) answeredCall World.start).accepted = [firstCall] ∧
    Throughout (step knownClient) Answered answeredCall World.start := by
  have hforge : EachStep (step knownClient) (Unforged knownClient) answeredCall World.start :=
    ⟨trivial, trivial, unforged_minerResponse mem_cons_self firstCall, trivial⟩
  have hfresh : EachStep (step knownClient) (NotReplayed knownClient) answeredCall World.start := by
    refine ⟨trivial, trivial, ?_, trivial⟩
    intro response _ r hr _
    cases mem_singleton.mp hr
    rfl
  exact ⟨hforge, hfresh, by decide +kernel, accepted_calls_answered knownClient rfl hforge hfresh⟩

theorem replayed_response_accepted : EachStep (step knownClient) (Unforged knownClient) replayedCall World.start ∧
    ¬ Throughout (step knownClient) Answered replayedCall World.start := by
  let w := step knownClient (.respond ⟨"m", "n1", "v", "r1", "token-1"⟩) (step knownClient (.open firstCall) World.start)
  have hanswer : ⟨"m", "n1", "v", "r1", "token-1"⟩ ∈ (step knownClient (.deliver firstCall [.ok minerResponse]) w).signed :=
    signed_step _ mem_cons_self
  refine ⟨⟨trivial, trivial, unforged_minerResponse mem_cons_self firstCall, trivial,
    unforged_minerResponse (signed_step (.open secondCall) hanswer) secondCall, trivial⟩, ?_⟩
  intro h
  have hsigned : (last (step knownClient) replayedCall World.start).signed = [⟨"m", "n1", "v", "r1", "token-1"⟩] := by decide +kernel
  have haccepted : (last (step knownClient) replayedCall World.start).accepted = [secondCall, firstCall] := by decide +kernel
  obtain ⟨r, hr, -, hnonce⟩ := h.last secondCall (by rw [haccepted]; exact mem_cons_self)
  rw [hsigned] at hr
  cases mem_singleton.mp hr
  exact absurd hnonce (by decide)

end Basilica.Validator.MinerClients
